import FrontEnd.Token

/-! # How far things reach

Before a bracket, a primary or an expression is read, its end is looked for, by counting brackets
and skipping operands. The readers then work on the range up to that end. -/
namespace FrontEnd.Reading

/-- The index of the token that closes a bracket opened just before these tokens, if `depth`
brackets of the same kind are open inside it. Other brackets do not count. -/
def closer? (opening closing : TokenKind) : (depth : Nat) → List Token → Option Nat
  | _, [] => none
  | depth, token :: rest =>
    if token.kind = opening then (closer? opening closing (depth + 1) rest).map (· + 1)
    else if token.kind = closing then
      match depth with
      | 0 => some 0
      | depth + 1 => (closer? opening closing depth rest).map (· + 1)
    else (closer? opening closing depth rest).map (· + 1)

/-- The number of tokens between an opening parenthesis and the one that closes it. -/
def parenCloser? (rest : List Token) : Option Nat := closer? .openParen .closeParen 0 rest

/-- The number of tokens between an opening brace and the one that closes it. -/
def curlyCloser? (rest : List Token) : Option Nat := closer? .openCurly .closeCurly 0 rest

def isOperand (token : Token) : Bool := token.kind = .identifier || token.kind = .number

def startsWith (kind : TokenKind) (tokens : List Token) : Bool :=
  match tokens with
  | token :: _ => token.kind = kind
  | [] => false

def endsWith (kind : TokenKind) (tokens : List Token) : Bool :=
  match tokens.getLast? with
  | some token => token.kind = kind
  | none => false

/-- How many tokens the primary at the front takes: a parenthesis or a call up to its closing
parenthesis, otherwise all names and numbers that stand there. It has no end if a parenthesis is
not closed. -/
def primaryEnd? : List Token → Option Nat
  | [] => some 0
  | token :: rest =>
    if token.kind = .openParen then (parenCloser? rest).map (· + 2)
    else if token.kind = .identifier && startsWith .openParen rest then
      (parenCloser? rest.tail).map (· + 3)
    else some ((token :: rest).takeWhile isOperand).length

/-- How many tokens the expression at the front takes: primaries with operators between them, and
possibly an operator at the end. -/
def expressionEnd? : List Token → Option Nat
  | [] => some 0
  | token :: rest =>
    match primaryEnd? (token :: rest) with
    | none => none
    | some count =>
      if startsWith .operator ((token :: rest).drop count) then
        (expressionEnd? (rest.drop count)).map (count + 1 + ·)
      else some count
termination_by tokens => tokens.length
decreasing_by simp +arith [List.length_drop]

end FrontEnd.Reading
