import FrontEnd.Operator
import FrontEnd.Token
import FrontEnd.Tree

/-! # The grammar of expressions and what its sentences denote

A sentence is kept as its derivation, with the very tokens it is made of. The tree of a chain of
operands is fixed by a rule on right operands alone: an operator takes the next operand, unless the
operator after that binds more strongly, in which case it takes all that is left of the chain. The
rule looks at a finished tree; `Shape.fold` builds the one tree that satisfies it. -/
namespace FrontEnd.Grammar

abbrev TokenOf (kind : TokenKind) := { token : Token // token.kind = kind }

mutual

/-- A number, a name, an expression in parentheses or a call. -/
inductive Operand where
  | number (token : TokenOf .number)
  | name (token : TokenOf .identifier)
  | group (opening : TokenOf .openParen) (inside : Expression) (closing : TokenOf .closeParen)
  | call (callee : TokenOf .identifier) (opening : TokenOf .openParen) (arguments : Arguments)
      (closing : TokenOf .closeParen)

/-- An operand, then operators with an operand after each. -/
inductive Expression where
  | mk (first : Operand) (rest : Operations)

inductive Operations where
  | nothing
  | next (operator : TokenOf .operator) (operand : Operand) (rest : Operations)

/-- Expressions with commas between them. What follows a comma may be nothing, so the last
expression may have a comma too. -/
inductive Arguments where
  | nothing
  | last (argument : Expression)
  | next (argument : Expression) (comma : TokenOf .comma) (rest : Arguments)

end

mutual

def Operand.tokens : Operand → List Token
  | .number token => [token]
  | .name token => [token]
  | .group opening inside closing => opening :: (inside.tokens ++ [closing.val])
  | .call callee opening arguments closing =>
    callee :: opening :: (arguments.tokens ++ [closing.val])

def Expression.tokens : Expression → List Token
  | .mk first rest => first.tokens ++ rest.tokens

def Operations.tokens : Operations → List Token
  | .nothing => []
  | .next operator operand rest => operator :: (operand.tokens ++ rest.tokens)

def Arguments.tokens : Arguments → List Token
  | .nothing => []
  | .last argument => argument.tokens
  | .next argument comma rest => argument.tokens ++ comma.val :: rest.tokens

end

/-! ## Trees over a chain of operands -/

abbrev Links := List (Token × Node)

/-- A binary tree whose leaves are operands. An operand may itself be an operation, in parentheses,
so the shape says where the operands begin. -/
inductive Shape where
  | operand (node : Node)
  | operation (left : Shape) (operator : Token) (right : Shape)

namespace Shape

def node : Shape → Node
  | operand node => node
  | operation left operator right => .binary operator.text left.node right.node operator.span

def first : Shape → Node
  | operand node => node
  | operation left _ _ => left.first

/-- The operators from left to right, with the operand after each. -/
def links : Shape → Links
  | operand _ => []
  | operation left operator right => left.links ++ (operator, right.first) :: right.links

end Shape

/-- The operator takes just the next operand when `after` follows that operand in the chain. -/
def TakesOne (operator : Token) (after : Links) : Prop :=
  ∀ next ∈ after.head?, Operator.priority next.1.text ≤ Operator.priority operator.text

instance (operator : Token) (after : Links) : Decidable (TakesOne operator after) :=
  inferInstanceAs (Decidable (∀ next ∈ after.head?, _))

/-- Every operator in the shape has the right operand that the rule gives it, when `after` follows
the shape in the chain: one operand, or else the whole chain that is left. -/
def Shape.Resolved : Shape → Links → Prop
  | .operand _, _ => True
  | .operation left operator right, after =>
    left.Resolved ((operator, right.first) :: (right.links ++ after)) ∧ right.Resolved after ∧
      (TakesOne operator (right.links ++ after) → ∃ node, right = .operand node) ∧
      (¬ TakesOne operator (right.links ++ after) → after = [])

/-- Builds the tree of a chain that goes on after `left`. -/
def Shape.fold (left : Shape) : Links → Shape
  | [] => left
  | (operator, node) :: after =>
    if TakesOne operator after then Shape.fold (.operation left operator (.operand node)) after
    else .operation left operator (Shape.fold (.operand node) after)

namespace Shape

theorem fold_first (left : Shape) (after : Links) : (left.fold after).first = left.first := by
  induction after generalizing left with
  | nil => rfl
  | cons link after ih =>
    rw [fold]
    split
    · rw [ih]; rfl
    · rfl

theorem fold_links (left : Shape) (after : Links) :
    (left.fold after).links = left.links ++ after := by
  induction after generalizing left with
  | nil => simp [fold]
  | cons link after ih =>
    rw [fold]
    split
    · rw [ih]; simp [links, first]
    · simp [links, ih, fold_first, first]

/-- A shape that keeps the rule in front of a chain is grown into one that keeps it at the end. -/
theorem fold_resolved (left : Shape) (after : Links) (h : left.Resolved after) :
    (left.fold after).Resolved [] := by
  induction after generalizing left with
  | nil => exact h
  | cons link after ih =>
    obtain ⟨operator, node⟩ := link
    rw [fold]
    split
    · rename_i ht
      apply ih
      exact ⟨by simpa [first, links] using h, trivial, fun _ => ⟨node, rfl⟩,
        fun hn => absurd (by simpa [links] using ht) hn⟩
    · rename_i ht
      have hr := ih (.operand node) trivial
      refine ⟨?_, hr, ?_, fun _ => rfl⟩
      · simpa [fold_first, fold_links, first, links] using h
      · intro hn
        exact absurd (by simpa [fold_links, links] using hn) ht

/-- Folding takes a shape apart and puts it together again, if it keeps the rule. -/
theorem fold_of_resolved (shape : Shape) (after : Links) (h : shape.Resolved after) :
    (Shape.operand shape.first).fold (shape.links ++ after) = shape.fold after := by
  induction shape generalizing after with
  | operand node => rfl
  | operation left operator right ihl ihr =>
    obtain ⟨hl, hr, hone, hall⟩ := h
    have hleft := ihl _ hl
    rw [first, links, List.append_assoc, List.cons_append, hleft, fold]
    by_cases ht : TakesOne operator (right.links ++ after)
    · obtain ⟨node, rfl⟩ := hone ht
      rw [if_pos ht]
      simp [first, links]
    · obtain rfl := hall ht
      rw [if_neg ht, ihr [] hr]
      rfl

/-- The rule leaves one tree for a chain. -/
theorem eq_fold {shape : Shape} (h : shape.Resolved []) :
    shape = (Shape.operand shape.first).fold shape.links := by
  have := fold_of_resolved shape [] h
  rw [List.append_nil] at this
  rw [this, fold]

end Shape

/-! ## What sentences denote -/

mutual

/-- The tree of an operand: parentheses leave no trace, a call keeps its arguments in order. -/
inductive Operand.Denotes : Operand → Node → Prop
  | number (token) : Operand.Denotes (.number token) (.number token.val.text token.val.span)
  | name (token) : Operand.Denotes (.name token) (.reference token.val.text token.val.span)
  | group {inside node} (opening closing) :
      inside.Denotes node → Operand.Denotes (.group opening inside closing) node
  | call {arguments nodes} (callee opening closing) :
      arguments.Denotes nodes →
      Operand.Denotes (.call callee opening arguments closing)
        (.call callee.val.text nodes callee.val.span)

/-- The tree of an expression: it has the trees of the operands, with the operators between them,
in order, and keeps the rule on right operands. -/
inductive Expression.Denotes : Expression → Node → Prop
  | mk {first rest} {shape : Shape} :
      first.Denotes shape.first → rest.Denotes shape.links → shape.Resolved [] →
      Expression.Denotes (.mk first rest) shape.node

inductive Operations.Denotes : Operations → Links → Prop
  | nothing : Operations.Denotes .nothing []
  | next {operand node rest links} (operator) :
      operand.Denotes node → rest.Denotes links →
      Operations.Denotes (.next operator operand rest) ((operator.val, node) :: links)

inductive Arguments.Denotes : Arguments → List Node → Prop
  | nothing : Arguments.Denotes .nothing []
  | last {argument node} : argument.Denotes node → Arguments.Denotes (.last argument) [node]
  | next {argument node rest nodes} (comma) :
      argument.Denotes node → rest.Denotes nodes →
      Arguments.Denotes (.next argument comma rest) (node :: nodes)

end

mutual

def Operand.tree : Operand → Node
  | .number token => .number token.val.text token.val.span
  | .name token => .reference token.val.text token.val.span
  | .group _ inside _ => inside.tree
  | .call callee _ arguments _ => .call callee.val.text arguments.trees callee.val.span

def Expression.tree : Expression → Node
  | .mk first rest => ((Shape.operand first.tree).fold rest.links).node

def Operations.links : Operations → Links
  | .nothing => []
  | .next operator operand rest => (operator.val, operand.tree) :: rest.links

def Arguments.trees : Arguments → List Node
  | .nothing => []
  | .last argument => [argument.tree]
  | .next argument _ rest => argument.tree :: rest.trees

end

mutual

theorem Operand.denotes_tree : (operand : Operand) → operand.Denotes operand.tree
  | .number token => .number token
  | .name token => .name token
  | .group opening inside closing => .group opening closing inside.denotes_tree
  | .call callee opening arguments closing =>
    .call callee opening closing arguments.denotes_trees

theorem Expression.denotes_tree : (expression : Expression) → expression.Denotes expression.tree
  | .mk first rest => by
    rw [Expression.tree]
    apply Expression.Denotes.mk
    · rw [Shape.fold_first]; exact first.denotes_tree
    · rw [Shape.fold_links]; exact rest.denotes_links
    · exact Shape.fold_resolved _ _ trivial

theorem Operations.denotes_links : (rest : Operations) → rest.Denotes rest.links
  | .nothing => .nothing
  | .next operator operand rest => .next operator operand.denotes_tree rest.denotes_links

theorem Arguments.denotes_trees : (arguments : Arguments) → arguments.Denotes arguments.trees
  | .nothing => .nothing
  | .last argument => .last argument.denotes_tree
  | .next argument comma rest => .next comma argument.denotes_tree rest.denotes_trees

end

mutual

theorem Operand.denotes_unique :
    (operand : Operand) → {node : Node} → operand.Denotes node → node = operand.tree
  | .number _, _, .number _ => rfl
  | .name _, _, .name _ => rfl
  | .group _ inside _, _, .group _ _ h => inside.denotes_unique h
  | .call _ _ arguments _, _, .call _ _ _ h => by
    rw [arguments.denotes_unique h, Operand.tree]

theorem Expression.denotes_unique :
    (expression : Expression) → {node : Node} → expression.Denotes node → node = expression.tree
  | .mk first rest, _, .mk hf hr hs => by
    rw [Expression.tree, ← first.denotes_unique hf, ← rest.denotes_unique hr, ← Shape.eq_fold hs]

theorem Operations.denotes_unique :
    (rest : Operations) → {links : Links} → rest.Denotes links → links = rest.links
  | .nothing, _, .nothing => rfl
  | .next _ operand rest, _, .next _ ho hr => by
    rw [operand.denotes_unique ho, rest.denotes_unique hr, Operations.links]

theorem Arguments.denotes_unique :
    (arguments : Arguments) → {nodes : List Node} → arguments.Denotes nodes →
      nodes = arguments.trees
  | .nothing, _, .nothing => rfl
  | .last argument, _, .last h => by rw [argument.denotes_unique h, Arguments.trees]
  | .next argument _ rest, _, .next _ ha hr => by
    rw [argument.denotes_unique ha, rest.denotes_unique hr, Arguments.trees]

end

/-- Every expression denotes one tree. -/
theorem Expression.denotes_iff (expression : Expression) (node : Node) :
    expression.Denotes node ↔ node = expression.tree :=
  ⟨expression.denotes_unique, fun h => h ▸ expression.denotes_tree⟩

end FrontEnd.Grammar
