import FrontEnd.Operator
import FrontEnd.Reading
import FrontEnd.Reading.Extent

/-! # Reading expressions

An expression is a primary, then operators with a primary after each. Before an operator of higher
priority than the one at hand the whole remaining chain becomes the right operand; otherwise
the chain grows to the left. The readers call each other on ranges that get shorter, or on the
same range in the order call arguments, expression, operators, primary. -/
namespace FrontEnd.Reading

/-- The priority of the first token's text; zero if there is none. -/
def nextPriority : List Token → Nat
  | [] => 0
  | token :: _ => Operator.priority token.text

mutual

def expression (tokens : List Token) : Reading Node :=
  match primaryEnd? tokens with
  | none => .error ⟨.closer .openParen, tokens.length⟩
  | some count => do
    let left ← (primary (tokens.take count)).followedBy (tokens.length - count)
    operators left (tokens.drop count)
termination_by (tokens.length, 2)
decreasing_by all_goals simp only [Prod.lex_def, List.length_take, List.length_drop]; omega

/-- Reads the whole range as operators, each with its right operand, after the operand `left`. A
primary without an end takes the rest of the range. -/
def operators (left : Node) : List Token → Reading Node
  | [] => .ok left
  | operator :: rest =>
    if operator.kind ≠ .operator then .error ⟨.token .operator, rest.length + 1⟩
    else do
      let count := (primaryEnd? rest).getD rest.length
      let right ← (primary (rest.take count)).followedBy (rest.length - count)
      if Operator.priority operator.text < nextPriority (rest.drop count) then
        let right ← operators right (rest.drop count)
        .ok (.binary operator.text left right operator.span)
      else operators (.binary operator.text left right operator.span) (rest.drop count)
termination_by tokens => (tokens.length, 1)
decreasing_by
  all_goals simp only [Prod.lex_def, List.length_take, List.length_drop, List.length_cons]; omega

def primary : List Token → Reading Node
  | [] => .error ⟨.primary, 0⟩
  | [token] =>
    match token.kind with
    | .number => .ok (.number token.text token.span)
    | .identifier => .ok (.reference token.text token.span)
    | _ => .error ⟨.primary, 1⟩
  | first :: second :: rest =>
    if first.kind = .openParen then
      if endsWith .closeParen (second :: rest) then
        (expression (second :: rest).dropLast).followedBy 1
      else .error ⟨.closer .openParen, rest.length + 2⟩
    else if first.kind = .identifier then
      if second.kind = .openParen && endsWith .closeParen rest then do
        let given ← arguments rest
        .ok (.call first.text given first.span)
      else .error ⟨.call, rest.length + 2⟩
    else .error ⟨.primary, rest.length + 2⟩
termination_by tokens => (tokens.length, 0)
decreasing_by all_goals simp only [Prod.lex_def, List.length_dropLast, List.length_cons]; omega

/-- Reads the arguments of a call, from a range that ends in the call's closing parenthesis. One
token is skipped after each argument. -/
def arguments (tokens : List Token) : Reading (List Node) :=
  if tokens.length ≤ 1 then .ok []
  else do
    let count := (expressionEnd? tokens).getD (tokens.length - 1)
    let argument ← (expression (tokens.take count)).followedBy (tokens.length - count)
    let more ← arguments (tokens.drop (count + 1))
    .ok (argument :: more)
termination_by (tokens.length, 3)
decreasing_by all_goals simp only [Prod.lex_def, List.length_take, List.length_drop]; omega

end

end FrontEnd.Reading
