import FrontEnd.Diagnostic
import FrontEnd.Text.Lines

/-! # Reading tokens from a source

A line is read from left to right, the longest token first. Only comments can hold characters
outside ASCII, and a comment ends its line, so up to any token or rejected character every
character before it takes one byte, and offsets may be counted in characters. -/
namespace FrontEnd.Token

/-- Characters that only separate tokens. -/
def isSeparator (c : Char) : Bool := c == ' ' || c == '\t' || c == '\r'

def isWordStart (c : Char) : Bool := c.isAlpha || c == '_'

def isWordRest (c : Char) : Bool := c.isAlphanum || c == '_'

/-- The punctuation that begins with `c` before `next?`: its kind, and how many characters follow
`c` in it. -/
def punctuation? (c : Char) (next? : Option Char) : Option (TokenKind × Nat) :=
  match c with
  | ';' => some (.semicolon, 0)
  | '(' => some (.openParen, 0)
  | ')' => some (.closeParen, 0)
  | '\x7b' => some (.openCurly, 0)
  | '\x7d' => some (.closeCurly, 0)
  | ',' => some (.comma, 0)
  | '-' => if next? = some '>' then some (.arrow, 1) else some (.operator, 0)
  | '+' | '*' | '/' | '|' | '.' => some (.operator, 0)
  | '=' => if next? = some '=' then some (.operator, 1) else some (.assign, 0)
  | '!' => if next? = some '=' then some (.operator, 1) else none
  | _ => none

/-- The token that begins with `c` before `rest`: its kind, and how many characters of `rest`
belong to it. -/
def lexeme? (c : Char) (rest : List Char) : Option (TokenKind × Nat) :=
  if isWordStart c then
    let more := rest.takeWhile isWordRest
    some (.ofWord (String.ofList (c :: more)), more.length)
  else if c.isDigit then some (.number, (rest.takeWhile Char.isDigit).length)
  else punctuation? c rest.head?

/-- The tokens of the rest of a line, which begins at `offset`. -/
def scanLine (line : UInt32) (offset : Nat) : List Char → Except Diagnostic (List Token)
  | [] => .ok []
  | c :: rest =>
    if isSeparator c then scanLine line (offset + 1) rest
    else if c = '#' then .ok []
    else match lexeme? c rest with
      | none => .error ⟨.unrecognisedCharacter c, .between line offset (offset + 1), none⟩
      | some (kind, more) => do
        let stop := offset + more + 1
        let tokens ← scanLine line stop (rest.drop more)
        .ok (⟨kind, String.ofList (c :: rest.take more), .between line offset stop⟩ :: tokens)
termination_by text => text.length
decreasing_by all_goals simp +arith [List.length_drop]

/-- The tokens of lines that are numbered from `number` on. -/
def scanLines (number : Nat) : List (List Char) → Except Diagnostic (List Token)
  | [] => .ok []
  | line :: more => do
    let tokens ← scanLine (UInt32.ofNat number) 0 line
    let others ← scanLines (number + 1) more
    .ok (tokens ++ others)

/-- The tokens of a source, or its first character that begins none. -/
def scan (source : String) : Except Diagnostic (List Token) :=
  scanLines 1 (Text.lines source.toList)

end FrontEnd.Token
