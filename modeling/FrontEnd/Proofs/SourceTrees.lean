import FrontEnd.Tree

/-! # The trees that sources have

A tree has a source only if its names, numbers and operators can be written, and if expressions
stand where a source has room for nothing else. The spans of a tree come from the layout of its
source, so trees are compared without them. -/
namespace FrontEnd

/-! ## What can be written -/

def reservedWords : List String := ["mut", "fn", "if", "else", "elif", "extern"]

/-- A letter or underscore, then letters, digits and underscores; but no reserved word. -/
def isName (text : String) : Bool :=
  match text.toList with
  | [] => false
  | first :: rest =>
    (first.isAlpha || first == '_') && rest.all (fun c => c.isAlphanum || c == '_') &&
      !reservedWords.contains text

def isNumeral (text : String) : Bool :=
  match text.toList with
  | [] => false
  | first :: rest => first.isDigit && rest.all Char.isDigit

def operatorTexts : List String := ["+", "-", "*", "/", "|", ".", "==", "!="]

/-- Nodes that have a value wherever they stand: numbers, names, operations and calls. -/
inductive Node.IsExpression : Node → Prop
  | number {text} (span) : isNumeral text → Node.IsExpression (.number text span)
  | reference {name} (span) : isName name → Node.IsExpression (.reference name span)
  | binary {operator left right} (span) :
      operator ∈ operatorTexts → left.IsExpression → right.IsExpression →
      Node.IsExpression (.binary operator left right span)
  | call {callee arguments} (span) :
      isName callee → (∀ argument ∈ arguments, Node.IsExpression argument) →
      Node.IsExpression (.call callee arguments span)

mutual

/-- A node that may stand in a body, as a statement or as the tail. -/
inductive Node.WellFormed : Node → Prop
  | expression {node : Node} : node.IsExpression → node.WellFormed
  | assign {target} {value : Node} (span) :
      isName target → value.IsExpression → Node.WellFormed (.assign target value span)
  | declare {type name} {initializer : Option Node} (mutable span) :
      isName type → isName name → (∀ value ∈ initializer, value.IsExpression) →
      Node.WellFormed (.declare mutable type name initializer span)
  | conditional {condition : Node} {body alternative} (span) :
      condition.IsExpression → body.WellFormed → alternative.WellFormed →
      Node.WellFormed (.conditional condition body alternative span)

inductive Body.WellFormed : Body → Prop
  | mk {statements tail} :
      (∀ node ∈ statements, Node.WellFormed node) → (∀ node ∈ tail, Node.WellFormed node) →
      Body.WellFormed (.mk statements tail)

inductive Alternative.WellFormed : Alternative → Prop
  | nothing : Alternative.WellFormed .nothing
  | otherwise {body} : body.WellFormed → Alternative.WellFormed (.otherwise body)
  | elif {condition : Node} {body alternative} :
      condition.IsExpression → body.WellFormed → alternative.WellFormed →
      Alternative.WellFormed (.elif condition body alternative)

end

structure Signature.WellFormed (signature : Signature) : Prop where
  name : isName signature.name
  parameters : ∀ parameter ∈ signature.parameters, isName parameter.type ∧ isName parameter.name
  returnType : isName signature.returnType

/-- Every part of the program can be written. -/
structure Program.WellFormed (program : Program) : Prop where
  externals : ∀ signature ∈ program.externals, signature.WellFormed
  signatures : ∀ definition ∈ program.definitions, definition.signature.WellFormed
  bodies : ∀ definition ∈ program.definitions, definition.body.WellFormed

/-! ## Trees up to their spans -/

mutual

def Node.withoutSpans : Node → Node
  | .number text _ => .number text .nowhere
  | .reference name _ => .reference name .nowhere
  | .binary operator left right _ =>
    .binary operator left.withoutSpans right.withoutSpans .nowhere
  | .call callee arguments _ => .call callee (Node.withoutSpansAll arguments) .nowhere
  | .assign target value _ => .assign target value.withoutSpans .nowhere
  | .declare mutable type name none _ => .declare mutable type name none .nowhere
  | .declare mutable type name (some value) _ =>
    .declare mutable type name (some value.withoutSpans) .nowhere
  | .conditional condition body alternative _ =>
    .conditional condition.withoutSpans body.withoutSpans alternative.withoutSpans .nowhere

def Node.withoutSpansAll : List Node → List Node
  | [] => []
  | node :: more => node.withoutSpans :: Node.withoutSpansAll more

def Body.withoutSpans : Body → Body
  | .mk statements none => .mk (Node.withoutSpansAll statements) none
  | .mk statements (some tail) => .mk (Node.withoutSpansAll statements) (some tail.withoutSpans)

def Alternative.withoutSpans : Alternative → Alternative
  | .nothing => .nothing
  | .otherwise body => .otherwise body.withoutSpans
  | .elif condition body alternative =>
    .elif condition.withoutSpans body.withoutSpans alternative.withoutSpans

end

@[simp] theorem Node.withoutSpansAll_eq_map (nodes : List Node) :
    Node.withoutSpansAll nodes = nodes.map Node.withoutSpans := by
  induction nodes with
  | nil => rfl
  | cons node more ih => rw [Node.withoutSpansAll, ih, List.map_cons]

theorem Node.withoutSpans_declare (mutable : Bool) (type name : String)
    (initializer : Option Node) (span : Span) :
    (Node.declare mutable type name initializer span).withoutSpans =
      .declare mutable type name (initializer.map Node.withoutSpans) .nowhere := by
  cases initializer <;> rfl

theorem Body.withoutSpans_mk (statements : List Node) (tail : Option Node) :
    (Body.mk statements tail).withoutSpans =
      .mk (statements.map Node.withoutSpans) (tail.map Node.withoutSpans) := by
  cases tail <;> simp [Body.withoutSpans]

def Parameter.withoutSpans (parameter : Parameter) : Parameter :=
  { parameter with span := .nowhere }

def Signature.withoutSpans (signature : Signature) : Signature where
  name := signature.name
  parameters := signature.parameters.map Parameter.withoutSpans
  returnType := signature.returnType
  span := .nowhere

def Definition.withoutSpans (definition : Definition) : Definition :=
  ⟨definition.signature.withoutSpans, definition.body.withoutSpans⟩

def Program.withoutSpans (program : Program) : Program :=
  ⟨program.definitions.map Definition.withoutSpans, program.externals.map Signature.withoutSpans⟩

end FrontEnd
