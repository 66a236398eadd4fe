import FrontEnd.Reading.Expression

/-! # Reading statements and bodies

A body is a run of conditionals and of statements that end in semicolons; a semicolon may also
stand alone, and the last statement may lack its own, which makes it the body's tail. Readers of
parts whose end is not known in advance give the number of tokens they took. -/
namespace FrontEnd.Reading

/-- Reads the whole range as a declaration: perhaps `mut`, a type, a name, and perhaps a value. -/
def declaration (tokens : List Token) : Reading Node := do
  let mutable := startsWith .mutKeyword tokens
  let (type, rest) ← expect .identifier (if mutable then tokens.tail else tokens)
  let (name, rest) ← expect .identifier rest
  match rest with
  | [] => .ok (.declare mutable type.text name.text none name.span)
  | next :: value =>
    if next.kind = .assign then do
      let initializer ← expression value
      .ok (.declare mutable type.text name.text (some initializer) name.span)
    else .error ⟨.declarationEnd, value.length + 2⟩

def assignment (tokens : List Token) : Reading Node := do
  let (target, rest) ← expect .identifier tokens
  let (_, rest) ← expect .assign rest
  let value ← expression rest
  .ok (.assign target.text value target.span)

/-- Reads the whole range as a statement; its first two tokens tell which. -/
def statement (tokens : List Token) : Reading Node :=
  if startsWith .mutKeyword tokens then declaration tokens
  else if startsWith .identifier tokens && startsWith .identifier tokens.tail then
    declaration tokens
  else if startsWith .identifier tokens && startsWith .assign tokens.tail then assignment tokens
  else expression tokens

/-- Reads an expression in parentheses, and counts its tokens. -/
def condition : List Token → Reading (Node × Nat)
  | [] => .error ⟨.token .openParen, 0⟩
  | first :: rest =>
    if first.kind ≠ .openParen then .error ⟨.token .openParen, rest.length + 1⟩
    else match parenCloser? rest with
      | none => .error ⟨.closer .openParen, rest.length + 1⟩
      | some count => do
        let node ← (expression (rest.take count)).followedBy (rest.length - count)
        .ok (node, count + 2)

def statementEnd (tokens : List Token) : Nat :=
  (tokens.takeWhile fun token => token.kind ≠ .semicolon).length

/-- The body that ends with these tokens: a semicolon at the end makes a statement of the node that
is still held back, otherwise that node is the tail. -/
def closeBody (tokens : List Token) (statements : List Node) (pending : Option Node) : Body :=
  if endsWith .semicolon tokens then .mk (statements ++ pending.toList) none
  else .mk statements pending

mutual

def body (tokens : List Token) : Reading Body := do
  let (statements, pending) ← bodyRest [] none tokens
  .ok (closeBody tokens statements pending)
termination_by (tokens.length, 1)

/-- Reads the rest of a body after `statements`. The node read last is held back in `pending` until
the next one, or an empty statement, shows that it is not the tail. -/
def bodyRest (statements : List Node) (pending : Option Node) :
    List Token → Reading (List Node × Option Node)
  | [] => .ok (statements, pending)
  | first :: rest =>
    if first.kind = .ifKeyword then do
      let (condition, body, otherwise, count) ← branch rest
      let node := .conditional condition body otherwise first.span
      bodyRest (statements ++ pending.toList) (some node) (rest.drop count)
    else if first.kind = .semicolon then bodyRest (statements ++ pending.toList) none rest
    else do
      let count := statementEnd rest
      let node ← (statement (first :: rest.take count)).followedBy (rest.length - count)
      bodyRest (statements ++ pending.toList) (some node) (rest.drop (count + 1))
termination_by tokens => (tokens.length, 0)
decreasing_by all_goals simp only [Prod.lex_def, List.length_drop, List.length_cons]; omega

def block : List Token → Reading (Body × Nat)
  | [] => .error ⟨.token .openCurly, 0⟩
  | first :: rest =>
    if first.kind ≠ .openCurly then .error ⟨.token .openCurly, rest.length + 1⟩
    else match curlyCloser? rest with
      | none => .error ⟨.closer .openCurly, rest.length + 1⟩
      | some count => do
        let body ← (body (rest.take count)).followedBy (rest.length - count)
        .ok (body, count + 2)
termination_by tokens => (tokens.length, 0)
decreasing_by simp only [Prod.lex_def, List.length_take, List.length_cons]; omega

/-- Reads what follows `if` or `elif`: a condition, a body and the alternative. Counts its
tokens. -/
def branch (tokens : List Token) : Reading (Node × Body × Alternative × Nat) := do
  let (condition, conditionCount) ← condition tokens
  let (body, bodyCount) ← block (tokens.drop conditionCount)
  let (otherwise, count) ← alternative (tokens.drop (conditionCount + bodyCount))
  .ok (condition, body, otherwise, conditionCount + bodyCount + count)
termination_by (tokens.length, 1)
decreasing_by all_goals simp only [Prod.lex_def, List.length_drop]; omega

/-- Reads what may follow a conditional's body, and counts its tokens. -/
def alternative : List Token → Reading (Alternative × Nat)
  | [] => .ok (.nothing, 0)
  | first :: rest =>
    if first.kind = .elifKeyword then do
      let (condition, body, otherwise, count) ← branch rest
      .ok (.elif condition body otherwise, count + 1)
    else if first.kind = .elseKeyword then do
      let (body, count) ← block rest
      .ok (.otherwise body, count + 1)
    else .ok (.nothing, 0)
termination_by tokens => (tokens.length, 0)
decreasing_by all_goals simp only [Prod.lex_def, List.length_cons]; omega

end

def conditional (tokens : List Token) : Reading (Node × Nat) := do
  let (first, rest) ← expect .ifKeyword tokens
  let (condition, body, otherwise, count) ← branch rest
  .ok (.conditional condition body otherwise first.span, count + 1)

end FrontEnd.Reading
