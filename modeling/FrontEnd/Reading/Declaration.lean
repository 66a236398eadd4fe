import FrontEnd.Reading.Body

/-! # Reading functions and programs

A program is a run of functions, each with a body in braces, and of external functions, which have
a semicolon in place of the body. -/
namespace FrontEnd.Reading

/-- Reads parameters with commas between them, at least one, and gives the rest of the range. -/
def parameters : List Token → Reading (List Parameter × List Token)
  | [] => .error ⟨.token .identifier, 0⟩
  | [type] => .error ⟨.token .identifier, if type.kind = .identifier then 0 else 1⟩
  | type :: name :: rest =>
    if type.kind ≠ .identifier then .error ⟨.token .identifier, rest.length + 2⟩
    else if name.kind ≠ .identifier then .error ⟨.token .identifier, rest.length + 1⟩
    else
      let parameter : Parameter := ⟨type.text, name.text, name.span⟩
      match rest with
      | [] => .ok ([parameter], [])
      | next :: more =>
        if next.kind = .comma then do
          let (others, rest) ← parameters more
          .ok (parameter :: others, rest)
        else .ok ([parameter], next :: more)

def parameterList (tokens : List Token) : Reading (List Parameter × List Token) :=
  if startsWith .identifier tokens then parameters tokens else .ok ([], tokens)

/-- Reads a return type if an arrow stands there, and gives the rest of the range. Without one it
is `void`. -/
def returnType : List Token → Reading (String × List Token)
  | [] => .ok ("void", [])
  | first :: rest =>
    if first.kind = .arrow then do
      let (type, rest) ← expect .identifier rest
      .ok (type.text, rest)
    else .ok ("void", first :: rest)

/-- Reads the part of a function's head after `fn`, and counts its tokens. -/
def prototype (tokens : List Token) : Reading (Signature × Nat) := do
  let (name, rest) ← expect .identifier tokens
  let (_, rest) ← expect .openParen rest
  let (parameters, rest) ← parameterList rest
  let (_, rest) ← expect .closeParen rest
  let (type, rest) ← returnType rest
  .ok (⟨name.text, parameters, type, name.span⟩, tokens.length - rest.length)

def signature (tokens : List Token) : Reading (Signature × Nat) := do
  let (_, rest) ← expect .fnKeyword tokens
  let (signature, count) ← prototype rest
  .ok (signature, count + 1)

/-- Reads what follows `fn` in a function with a body, and counts its tokens. -/
def definitionRest (tokens : List Token) : Reading (Definition × Nat) := do
  let (signature, headCount) ← prototype tokens
  let (body, count) ← block (tokens.drop headCount)
  .ok (⟨signature, body⟩, headCount + count)

def definition (tokens : List Token) : Reading (Definition × Nat) := do
  let (_, rest) ← expect .fnKeyword tokens
  let (definition, count) ← definitionRest rest
  .ok (definition, count + 1)

/-- Reads what follows `extern`: a head that takes all tokens before the next semicolon. Counts
its tokens with the semicolon. -/
def externalRest (tokens : List Token) : Reading (Signature × Nat) :=
  match tokens.findIdx? fun token => token.kind = .semicolon with
  | none => .error ⟨.externalEnd, tokens.length + 1⟩
  | some stop => do
    let (head, count) ← (signature (tokens.take stop)).followedBy (tokens.length - stop)
    if count = stop then .ok (head, stop + 1)
    else .error ⟨.token .semicolon, tokens.length - count⟩

def external (tokens : List Token) : Reading (Signature × Nat) := do
  let (_, rest) ← expect .externKeyword tokens
  let (head, count) ← externalRest rest
  .ok (head, count + 1)

def program : List Token → Reading Program
  | [] => .ok .empty
  | first :: rest =>
    if first.kind = .externKeyword then do
      let (head, count) ← externalRest rest
      let more ← program (rest.drop count)
      .ok (more.declare head)
    else if first.kind = .fnKeyword then do
      let (definition, count) ← definitionRest rest
      let more ← program (rest.drop count)
      .ok (more.define definition)
    else .error ⟨.token .fnKeyword, rest.length + 1⟩
termination_by tokens => tokens.length
decreasing_by all_goals simp +arith [List.length_drop]

end FrontEnd.Reading
