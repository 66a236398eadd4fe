import FrontEnd.Buffer
import FrontEnd.Token.Scan

/-! # Trees from sources -/
namespace FrontEnd

def Program.ofTokens (tokens : List Token) : Except Diagnostic Program :=
  Buffer.settle ⟨tokens⟩ tokens.length (Reading.program tokens)

def Program.ofSource (source : String) : Except Diagnostic Program := do
  let tokens ← Token.scan source
  Program.ofTokens tokens

def Body.ofSource (source : String) : Except Diagnostic Body := do
  let tokens ← Token.scan source
  let buffer : Buffer := ⟨tokens⟩
  buffer.body buffer.fullRange

end FrontEnd
