import FrontEnd.Lowering

/-! # What lowering sees

Lowering a node looks names up in the innermost frame, and asks that frame for its function. Two
runs in scopes whose innermost frames answer alike therefore end alike, whatever else the frames
hold and whatever lies below them. The lookups are those of the names that occur in the node, so
nothing has to be known of any other name. -/
namespace FrontEnd

mutual

/-- The variables that a node reads, assigns or declares, at any depth. -/
def Node.names : Node → List String
  | .number _ _ => []
  | .reference name _ => [name]
  | .binary _ left right _ => left.names ++ right.names
  | .call _ arguments _ => Node.namesAll arguments
  | .assign target value _ => target :: value.names
  | .declare _ _ name initializer _ =>
    name ::
      match initializer with
      | some value => value.names
      | none => []
  | .conditional condition body alternative _ =>
    condition.names ++ (body.names ++ alternative.names)

def Node.namesAll : List Node → List String
  | [] => []
  | node :: more => node.names ++ Node.namesAll more

def Body.names : Body → List String
  | .mk statements tail =>
    Node.namesAll statements ++
      match tail with
      | some node => node.names
      | none => []

def Alternative.names : Alternative → List String
  | .nothing => []
  | .otherwise body => body.names
  | .elif condition body alternative => condition.names ++ (body.names ++ alternative.names)

end

namespace Scopes

/-- The innermost frames belong to the same function and bind each of the names alike: to the same
value, to the same slot, or not at all. -/
structure AgreeOn (names : List String) (scopes others : Scopes) : Prop where
  owner : scopes.current.owner = others.current.owner
  value : ∀ name ∈ names, scopes.current.value? name = others.current.value? name
  slot : ∀ name ∈ names, scopes.current.slot? name = others.current.slot? name

section
variable {names fewer : List String} {scopes others : Scopes}

theorem AgreeOn.mono (h : AgreeOn names scopes others) (hs : fewer ⊆ names) :
    AgreeOn fewer scopes others :=
  ⟨h.owner, fun name hn => h.value name (hs hn), fun name hn => h.slot name (hs hn)⟩

theorem AgreeOn.declares (h : AgreeOn names scopes others) {name : String} (hn : name ∈ names) :
    scopes.current.declares name = others.current.declares name := by
  rw [Frame.declares, Frame.declares, h.value name hn, h.slot name hn]

theorem AgreeOn.currentFunction (h : AgreeOn names scopes others) (span : Span) :
    scopes.currentFunction span = others.currentFunction span := by
  rw [Scopes.currentFunction, Scopes.currentFunction, h.owner]

end
end Scopes

open Scopes

/-- The same node ends alike in both scopes: each constructor looks up its own name and lowers its
parts, and calls and bodies are not entered before an instruction. -/
theorem Node.lower_congr {scopes others : Scopes} : (node : Node) →
    AgreeOn node.names scopes others → node.lower scopes = node.lower others
  | .number text span, _ => by rw [Node.lower, Node.lower]
  | .reference name span, h => by
    have hn : name ∈ (Node.reference name span).names := by simp [Node.names]
    rw [Node.lower, Node.lower, h.value name hn, h.slot name hn]
  | .binary operator left right span, h => by
    rw [Node.names] at h
    have hl := left.lower_congr (h.mono (List.subset_append_left _ _))
    have hr := right.lower_congr (h.mono (List.subset_append_right _ _))
    rw [Node.lower, Node.lower, hl, hr]
  | .call callee arguments span, _ => by rw [Node.lower, Node.lower]
  | .assign target value span, h => by
    rw [Node.names] at h
    have hv := value.lower_congr (h.mono (List.subset_cons_self _ _))
    rw [Node.lower, Node.lower, hv, h.value target (by simp), h.slot target (by simp)]
  | .declare false type name initializer span, _ => by
    cases initializer <;> rw [Node.lower, Node.lower]
  | .declare true type name none span, h => by
    rw [Node.names] at h
    rw [Node.lower, Node.lower, h.declares (by simp)]
  | .declare true type name (some value) span, h => by
    rw [Node.names] at h
    have hv := value.lower_congr (h.mono (List.subset_cons_self _ _))
    rw [Node.lower, Node.lower, h.declares (by simp)]
    simp only [hv]
  | .conditional condition body alternative span, h => by
    rw [Node.lower, Node.lower, h.currentFunction]

/-- Lowering sees only the innermost frame, and of its bindings only those of names that occur in
the node. -/
theorem Node.lower_visible (node : Node) {scopes others : Scopes}
    (h : Scopes.AgreeOn node.names scopes others) :
    node.lower scopes = node.lower others ∧
      node.lowerInteger scopes = node.lowerInteger others := by
  have hlower := node.lower_congr h
  refine ⟨hlower, ?_⟩
  rw [Node.lowerInteger, Node.lowerInteger, hlower]

/-- Two functions deep, with a variable that no node below mentions. -/
def Scopes.nested : Scopes where
  current := ⟨"h", some 7, [("y", .integer 3), ("x", .integer 5)], [("w", 9)]⟩
  enclosing := [⟨"g", some 2, [("x", .pointer 1)], [("y", 4)]⟩, .global]

/-- The assignment `x = y`. -/
def Node.copying : Node :=
  .assign "x" (.reference "y" ⟨1, 4, 5⟩) ⟨1, 0, 1⟩

theorem Node.lower_visible_nested :
    Scopes.AgreeOn copying.names Scopes.nested
        ⟨⟨"f", some 7, [("x", .integer 5), ("y", .integer 3)], []⟩, [.global]⟩ ∧
      copying.lower Scopes.nested =
        .error (.rejected ⟨.immutableAssignment "x", ⟨1, 0, 1⟩, none⟩) ∧
      copying.lower ⟨⟨"f", some 7, [("x", .integer 5), ("y", .integer 3)], []⟩, [.global]⟩ =
        .error (.rejected ⟨.immutableAssignment "x", ⟨1, 0, 1⟩, none⟩) := by
  have hagree : Scopes.AgreeOn copying.names Scopes.nested
      ⟨⟨"f", some 7, [("x", .integer 5), ("y", .integer 3)], []⟩, [.global]⟩ := by
    refine ⟨rfl, fun name hn => ?_, fun name hn => ?_⟩ <;>
      simp only [copying, Node.names, List.mem_cons, List.not_mem_nil, or_false] at hn <;>
      rcases hn with rfl | rfl <;> rfl
  have hlower : copying.lower Scopes.nested =
      .error (.rejected ⟨.immutableAssignment "x", ⟨1, 0, 1⟩, none⟩) := rfl
  exact ⟨hagree, hlower, (Node.lower_visible copying hagree).1 ▸ hlower⟩

end FrontEnd
