import FrontEnd.Span

/-! # Program trees

One type of nodes serves expressions and statements: what may stand where is a matter of the
grammar, and lowering answers for every tree, also for those that no source has. A node keeps the
span of the token that it is reported at. -/
namespace FrontEnd

mutual

/-- An expression or a statement. -/
inductive Node where
  | number (text : String) (span : Span)
  | reference (name : String) (span : Span)
  | binary (operator : String) (left right : Node) (span : Span)
  | call (callee : String) (arguments : List Node) (span : Span)
  | assign (target : String) (value : Node) (span : Span)
  | declare (mutable : Bool) (type name : String) (initializer : Option Node) (span : Span)
  | conditional (condition : Node) (body : Body) (alternative : Alternative) (span : Span)

/-- Statements, and at the end possibly a node whose value is the body's. -/
inductive Body where
  | mk (statements : List Node) (tail : Option Node)

/-- What a conditional does when its condition fails. -/
inductive Alternative where
  | nothing
  | otherwise (body : Body)
  | elif (condition : Node) (body : Body) (alternative : Alternative)

end

instance : Inhabited Node := ⟨.number "" default⟩
instance : Inhabited Body := ⟨.mk [] none⟩

def Node.span : Node → Span
  | .number _ span | .reference _ span | .binary _ _ _ span | .call _ _ span | .assign _ _ span
  | .declare _ _ _ _ span | .conditional _ _ _ span => span

/-- The nodes of a body that are run for their effect. -/
def Body.statements : Body → List Node
  | .mk statements _ => statements

/-- The node that gives the body its value. -/
def Body.tail : Body → Option Node
  | .mk _ tail => tail

structure Parameter where
  type : String
  name : String
  span : Span
  deriving DecidableEq, Repr

/-- A function's head, reported at its name. -/
structure Signature where
  name : String
  parameters : List Parameter
  returnType : String
  span : Span
  deriving DecidableEq, Repr

structure Definition where
  signature : Signature
  body : Body

/-- What a source declares: functions with a body, and functions defined elsewhere. -/
structure Program where
  definitions : List Definition
  externals : List Signature

namespace Program

def empty : Program := ⟨[], []⟩

def define (definition : Definition) (program : Program) : Program :=
  { program with definitions := definition :: program.definitions }

def declare (signature : Signature) (program : Program) : Program :=
  { program with externals := signature :: program.externals }

end Program
end FrontEnd
