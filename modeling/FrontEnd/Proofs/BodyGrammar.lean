import FrontEnd.Reading.Expression
import FrontEnd.Proofs.Brackets

/-! # The grammar of statements and bodies

What a body is, said of its tokens and not of how they are read; only what an expression is, is left
to the reader of expressions. The nodes of a body come in the order of its tokens, one for each
statement and each conditional. Whether the last of them is the tail depends on nothing but the last
token. -/
namespace FrontEnd.Grammar
open FrontEnd.Reading (Balanced startsWith)

/-- The tokens are an expression that is read as the node. -/
abbrev IsValue (tokens : List Token) (node : Node) : Prop := Reading.expression tokens = .ok node

inductive Marker : List Token → Bool → Prop
  | absent : Marker [] false
  | present {keyword} : keyword.kind = .mutKeyword → Marker [keyword] true

inductive Initializer : List Token → Option Node → Prop
  | absent : Initializer [] none
  | present {sign value node} :
      sign.kind = .assign → IsValue value node → Initializer (sign :: value) (some node)

inductive StatementForm : List Token → Node → Prop
  | declaration {marker mutable type name value initializer} :
      Marker marker mutable → type.kind = .identifier → name.kind = .identifier →
      Initializer value initializer →
      StatementForm (marker ++ type :: name :: value)
        (.declare mutable type.text name.text initializer name.span)
  | assignment {target sign value node} :
      target.kind = .identifier → sign.kind = .assign → IsValue value node →
      StatementForm (target :: sign :: value) (.assign target.text node target.span)
  | expression {tokens node} : IsValue tokens node → StatementForm tokens node

/-- What stands between two semicolons of a body. -/
structure IsStatement (tokens : List Token) (node : Node) : Prop where
  nonempty : tokens ≠ []
  unbroken : ∀ token ∈ tokens, token.kind ≠ .semicolon
  unconditional : startsWith .ifKeyword tokens = false
  form : StatementForm tokens node

/-- The last token, which there is, does not end a statement. -/
def HasTail (tokens : List Token) : Prop :=
  ∃ last, tokens.getLast? = some last ∧ last.kind ≠ .semicolon

mutual

/-- Conditionals, statements with a semicolon after each, and semicolons alone, in any order; at the
end perhaps a statement without its semicolon. -/
inductive Items : List Token → List Node → Prop
  | nothing : Items [] []
  | final {tokens node} : IsStatement tokens node → Items tokens [node]
  | statement {tokens node semicolon rest nodes} :
      IsStatement tokens node → semicolon.kind = .semicolon → Items rest nodes →
      Items (tokens ++ semicolon :: rest) (node :: nodes)
  | semicolon {semicolon rest nodes} :
      semicolon.kind = .semicolon → Items rest nodes → Items (semicolon :: rest) nodes
  | conditional {keyword branch condition body others alternative rest nodes} :
      keyword.kind = .ifKeyword → Branch branch condition body →
      Alternatives others alternative → Items rest nodes →
      Items (keyword :: (branch ++ (others ++ rest)))
        (.conditional condition body alternative keyword.span :: nodes)

/-- The nodes in order, all of them and no others; the last is the tail if the last token says
so. -/
inductive IsBody : List Token → Body → Prop
  | mk {tokens body} :
      Items tokens (body.statements ++ body.tail.toList) →
      (body.tail.isSome ↔ HasTail tokens) → IsBody tokens body

/-- A body between a brace and the brace that closes it. -/
inductive Block : List Token → Body → Prop
  | mk {opening inside closing body} :
      opening.kind = .openCurly → closing.kind = .closeCurly →
      Balanced .openCurly .closeCurly inside → IsBody inside body →
      Block (opening :: (inside ++ [closing])) body

/-- A condition between a parenthesis and the one that closes it, then a body. -/
inductive Branch : List Token → Node → Body → Prop
  | mk {opening inside closing condition block body} :
      opening.kind = .openParen → closing.kind = .closeParen →
      Balanced .openParen .closeParen inside → IsValue inside condition → Block block body →
      Branch (opening :: (inside ++ closing :: block)) condition body

/-- Any number of further branches, and perhaps a last body. -/
inductive Alternatives : List Token → Alternative → Prop
  | nothing : Alternatives [] .nothing
  | otherwise {keyword block body} :
      keyword.kind = .elseKeyword → Block block body →
      Alternatives (keyword :: block) (.otherwise body)
  | elif {keyword branch condition body others alternative} :
      keyword.kind = .elifKeyword → Branch branch condition body →
      Alternatives others alternative →
      Alternatives (keyword :: (branch ++ others)) (.elif condition body alternative)

end

end FrontEnd.Grammar
