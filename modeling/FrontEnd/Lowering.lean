import FrontEnd.Lowering.Emission
import FrontEnd.Operator
import FrontEnd.Scope
import FrontEnd.ScalarType
import FrontEnd.Text.Decimal
import FrontEnd.Tree

/-! # Lowering up to the first instruction

Lowering a tree checks it on the way, in the order in which it is evaluated. Here it goes as far as
it gets without the code generator: to a diagnostic, to a value that is already bound, or to the
first instruction. Nothing is bound before an instruction, so the scopes do not change. -/
namespace FrontEnd

/-- Why lowering stops: the tree is rejected, or an instruction comes next. -/
inductive LoweringStop where
  | rejected (diagnostic : Diagnostic)
  | emission
  deriving DecidableEq, Repr

abbrev Lowering (α : Type) := Except LoweringStop α

namespace Lowering

def reject {α : Type} (cause : Cause) (span : Span) : Lowering α :=
  .error (.rejected ⟨cause, span, none⟩)

/-- A check's result as a result of lowering. -/
def ofCheck {α : Type} (check : Except Diagnostic α) : Lowering α := check.mapError .rejected

/-- The integer that the node at `span` has as its value. -/
def integer (span : Span) : Option Value → Lowering Nat
  | some (.integer id) => .ok id
  | _ => reject .expectedValue span

end Lowering

open Lowering

/-- Lowers a node in the innermost frame. Reading a variable's slot is refused, since the code
generator has no position to put the instruction at. -/
def Node.lower (scopes : Scopes) : Node → Lowering (Option Value)
  | .number text span =>
    match Text.int32? text with
    | some _ => .error .emission
    | none => reject (.numberOutOfRange text) span
  | .reference name span =>
    match scopes.current.value? name, scopes.current.slot? name with
    | some value, _ => .ok (some value)
    | none, some _ => .error (.rejected (EmissionFault.unsetPosition.diagnostic span))
    | none, none => reject (.notDeclared name) span
  | .binary operator left right span =>
    if Operator.isSupported operator then do
      let value ← left.lower scopes
      let _ ← integer left.span value
      let value ← right.lower scopes
      let _ ← integer right.span value
      .error .emission
    else reject (.unsupportedOperator operator) span
  | .call _ _ _ => .error .emission
  | .assign target value span => do
    let result ← value.lower scopes
    let _ ← integer value.span result
    match scopes.current.slot? target, scopes.current.value? target with
    | some _, _ => .error .emission
    | none, some _ => reject (.immutableAssignment target) span
    | none, none => reject (.notDeclared target) span
  | .declare false type name initializer span =>
    match initializer with
    | none => reject (.missingInitializer name) span
    | some _ => do
      let _ ← ofCheck (ScalarType.resolveWidth type span)
      .error .emission
  | .declare true type name initializer span => do
    let _ ← match initializer with
      | none => .ok none
      | some value => do
        let result ← value.lower scopes
        let id ← integer value.span result
        .ok (some id)
    if scopes.current.declares name then reject (.alreadyDeclared name) span
    else do
      let _ ← ofCheck (ScalarType.resolveWidth type span)
      .error .emission
  | .conditional _ _ _ span => do
    let _ ← ofCheck (scopes.currentFunction span)
    .error .emission

def Node.lowerInteger (scopes : Scopes) (node : Node) : Lowering Nat := do
  let value ← node.lower scopes
  integer node.span value

def Node.lowerAll (scopes : Scopes) : List Node → Lowering Unit
  | [] => .ok ()
  | node :: more => do
    let _ ← node.lower scopes
    Node.lowerAll scopes more

/-- Lowers a body; its value is the tail's. -/
def Body.lower (scopes : Scopes) (body : Body) : Lowering (Option Value) := do
  Node.lowerAll scopes body.statements
  match body.tail with
  | some node => node.lower scopes
  | none => .ok none

/-- The value of a function with this return type whose body has none. -/
def ScalarType.defaultReturn (type : ScalarType) (span : Span) : Lowering (Option Value) :=
  match type with
  | .void => .ok none
  | .int32 => .error .emission
  | .wideInt => reject (.noDefaultReturn type.name) span

/-- The slot of a new variable, in the function being lowered. -/
def Scopes.newSlot (scopes : Scopes) (span : Span) : Lowering Nat := do
  let _ ← ofCheck (scopes.currentFunction span)
  .error .emission

end FrontEnd
