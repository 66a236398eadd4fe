import FrontEnd.Lowering
import FrontEnd.Proofs.Numerals

/-! # The order of checks

Lowering is spread over the kinds of nodes, each of which checks its parts and itself in an order of
its own. Here a tree is flattened into the list of all its checks, which depends on the tree alone;
the first check of the list that is not passed says how lowering ends. The first instruction counts
as a check that is never passed, so nothing behind it matters. -/
namespace FrontEnd

/-- What lowering asks for before it goes on. -/
inductive Check where
  /-- The literal is a number of 32 bits. -/
  | literal (text : String) (span : Span)
  /-- The name is bound to a value. -/
  | readable (name : String) (span : Span)
  /-- There is an instruction for the operator. -/
  | operator (operator : String) (span : Span)
  /-- The value of a node that was lowered is an integer. -/
  | integer (node : Node)
  /-- The target of an assignment is a variable. -/
  | assignable (target : String) (span : Span)
  /-- A name that is not a variable is given a value. -/
  | initializer (present : Bool) (name : String) (span : Span)
  /-- The name is not bound yet. -/
  | free (name : String) (span : Span)
  /-- The type is one of values. -/
  | valueType (type : String) (span : Span)
  /-- A function is being lowered. -/
  | function (span : Span)
  /-- An instruction comes next. -/
  | emission

/-- The value that a node has without an instruction, which only a name can have. -/
def Node.boundValue? (scopes : Scopes) : Node → Option Value
  | .reference name _ => scopes.current.value? name
  | _ => none

def Body.boundValue? (scopes : Scopes) (body : Body) : Option Value :=
  body.tail.bind (Node.boundValue? scopes)

namespace Check

/-- The check is passed in these scopes, of which it looks at the innermost frame. -/
def passes (scopes : Scopes) : Check → Bool
  | literal text _ => Text.isInt32 text.toList
  | readable name _ => (scopes.current.value? name).isSome
  | operator text _ =>
    text = "+" || text = "-" || text = "*" || text = "/" || text = "==" || text = "!=" || text = "|"
  | integer node =>
    match node.boundValue? scopes with
    | some (.integer _) => true
    | _ => false
  | assignable target _ => (scopes.current.slot? target).isSome
  | initializer present _ _ => present
  | free name _ => (scopes.current.value? name).isNone && (scopes.current.slot? name).isNone
  | valueType type _ => type = "i32" || type = "u8"
  | function _ => scopes.current.owner.isSome
  | emission => false

/-- How lowering ends at a check that is not passed. A variable cannot be read, since there is no
position for the instruction that would read it. -/
def stop (scopes : Scopes) : Check → LoweringStop
  | literal text span => .rejected ⟨.numberOutOfRange text, span, none⟩
  | readable name span =>
    if (scopes.current.slot? name).isSome then .rejected ⟨.backend "UnsetPosition", span, none⟩
    else .rejected ⟨.notDeclared name, span, none⟩
  | operator text span => .rejected ⟨.unsupportedOperator text, span, none⟩
  | integer node => .rejected ⟨.expectedValue, node.span, none⟩
  | assignable target span =>
    if (scopes.current.value? target).isSome then
      .rejected ⟨.immutableAssignment target, span, none⟩
    else .rejected ⟨.notDeclared target, span, none⟩
  | initializer _ name span => .rejected ⟨.missingInitializer name, span, none⟩
  | free name span => .rejected ⟨.alreadyDeclared name, span, none⟩
  | valueType type span => .rejected ⟨.unknownType type, span, none⟩
  | function span => .rejected ⟨.backend "no function is being lowered", span, none⟩
  | emission => .emission

def FirstFailing (scopes : Scopes) (checks : List Check) (check : Check) : Prop :=
  ∃ before after, checks = before ++ check :: after ∧
    (∀ earlier ∈ before, earlier.passes scopes = true) ∧ check.passes scopes = false

/-- Lowering ends as the first check of the list says that is not passed. If all are passed it gives
what `Given` says. -/
structure Decide {α : Type} (scopes : Scopes) (checks : List Check) (lowering : Lowering α)
    (Given : α → Prop) : Prop where
  stops : ∀ stop, lowering = .error stop ↔
    ∃ check, FirstFailing scopes checks check ∧ stop = check.stop scopes
  gives : ∀ result, lowering = .ok result ↔
    (∀ check ∈ checks, check.passes scopes = true) ∧ Given result

end Check

def Node.checks : Node → List Check
  | .number text span => [.literal text span, .emission]
  | .reference name span => [.readable name span]
  | .binary operator left right span =>
    .operator operator span ::
      (left.checks ++ .integer left :: (right.checks ++ [.integer right, .emission]))
  | .call _ _ _ => [.emission]
  | .assign target value span =>
    value.checks ++ [.integer value, .assignable target span, .emission]
  | .declare false type name initializer span =>
    [.initializer initializer.isSome name span, .valueType type span, .emission]
  | .declare true type name none span =>
    [.free name span, .valueType type span, .emission]
  | .declare true type name (some value) span =>
    value.checks ++ [.integer value, .free name span, .valueType type span, .emission]
  | .conditional _ _ _ span => [.function span, .emission]

/-- The checks of a body: those of its statements, one after the other, and of its tail. -/
def Body.checks (body : Body) : List Check :=
  (body.statements ++ body.tail.toList).flatMap Node.checks

/-! ## Going through checks -/

namespace Check

/-- Goes on if the check is passed. -/
def run (scopes : Scopes) (check : Check) : Lowering Unit :=
  if check.passes scopes then .ok () else .error (check.stop scopes)

/-- Goes on if all checks are passed, one after the other. -/
def runAll (scopes : Scopes) : List Check → Lowering Unit
  | [] => .ok ()
  | check :: more => do
    check.run scopes
    runAll scopes more

section
variable {scopes : Scopes} {check : Check} {checks : List Check}

theorem run_passed (h : check.passes scopes = true) : check.run scopes = .ok () := by
  rw [run, if_pos h]

theorem run_failed (h : check.passes scopes = false) :
    check.run scopes = .error (check.stop scopes) := by
  rw [run, if_neg (by simp [h])]

theorem runAll_append (checks more : List Check) :
    runAll scopes (checks ++ more) = (do runAll scopes checks; runAll scopes more) := by
  induction checks with
  | nil => rfl
  | cons check rest ih => rw [List.cons_append, runAll, runAll, ih, bind_assoc]

theorem firstFailing_cons {found : Check} :
    FirstFailing scopes (check :: checks) found ↔
      (check.passes scopes = false ∧ found = check) ∨
        (check.passes scopes = true ∧ FirstFailing scopes checks found) := by
  constructor
  · rintro ⟨before, after, hsplit, hbefore, hfound⟩
    cases before with
    | nil =>
      cases hsplit
      exact .inl ⟨hfound, rfl⟩
    | cons first before =>
      cases hsplit
      obtain ⟨hfirst, hrest⟩ := List.forall_mem_cons.mp hbefore
      exact .inr ⟨hfirst, before, after, rfl, hrest, hfound⟩
  · rintro (⟨hfails, rfl⟩ | ⟨hfirst, before, after, rfl, hbefore, hfound⟩)
    · exact ⟨[], checks, rfl, by simp, hfails⟩
    · exact ⟨check :: before, after, rfl, List.forall_mem_cons.mpr ⟨hfirst, hbefore⟩, hfound⟩

theorem runAll_eq_ok_iff :
    runAll scopes checks = .ok () ↔ ∀ check ∈ checks, check.passes scopes = true := by
  induction checks with
  | nil => simp [runAll]
  | cons check rest ih =>
    rw [runAll, List.forall_mem_cons, ← ih]
    cases hp : check.passes scopes with
    | true =>
      rw [run_passed hp]
      exact ⟨fun h => ⟨rfl, h⟩, fun h => h.2⟩
    | false =>
      rw [run_failed hp]
      constructor
      · intro h
        cases h
      · rintro ⟨h, -⟩
        cases h

theorem runAll_eq_error_iff {stop : LoweringStop} :
    runAll scopes checks = .error stop ↔
      ∃ check, FirstFailing scopes checks check ∧ stop = check.stop scopes := by
  induction checks with
  | nil =>
    constructor
    · intro h
      cases h
    · rintro ⟨_, ⟨before, _, hsplit, _⟩, _⟩
      cases before <;> cases hsplit
  | cons check rest ih =>
    rw [runAll]
    simp only [firstFailing_cons]
    cases hp : check.passes scopes with
    | true =>
      rw [run_passed hp]
      refine Iff.trans ih ?_
      simp
    | false =>
      rw [run_failed hp]
      constructor
      · intro h
        cases h
        exact ⟨check, .inl ⟨rfl, rfl⟩, rfl⟩
      · rintro ⟨_, ⟨-, rfl⟩ | ⟨h, -⟩, rfl⟩
        · rfl
        · cases h

/-- Nothing behind an end of lowering matters. -/
theorem stopped_bind {α β : Type} (stop : LoweringStop) (more : α → Lowering β) :
    (Except.error stop : Lowering α) >>= more = .error stop := rfl

/-- Checks decide about what ends as they do and behind them gives one result. -/
theorem decide_of_runAll {α : Type} {lowering : Lowering α} {Given : α → Prop}
    (hrun : runAll scopes checks = (do let _ ← lowering; .ok ()))
    (hgiven : ∀ result, lowering = .ok result → ∀ other, Given other ↔ other = result) :
    Decide scopes checks lowering Given := by
  cases hlower : lowering with
  | error stop =>
    rw [hlower, stopped_bind] at hrun
    refine ⟨fun other => ?_, fun result => ?_⟩
    · rw [← runAll_eq_error_iff, hrun, Except.error.injEq, Except.error.injEq]
    · rw [← runAll_eq_ok_iff, hrun]
      simp
  | ok result =>
    rw [hlower] at hrun
    have hpassed : runAll scopes checks = .ok () := hrun
    refine ⟨fun stop => ?_, fun other => ?_⟩
    · rw [← runAll_eq_error_iff, hpassed]
      simp
    · rw [← runAll_eq_ok_iff, hgiven result hlower, Except.ok.injEq, eq_comm, and_iff_right hpassed]

theorem decide_of_runAll_bind {α : Type} {lowering : Lowering α} {given : α}
    (h : lowering = (do runAll scopes checks; .ok given)) :
    Decide scopes checks lowering (fun result => result = given) := by
  apply decide_of_runAll
  · rw [h]
    cases runAll scopes checks <;> rfl
  · intro result hok other
    cases hrun : runAll scopes checks with
    | error stop =>
      rw [h, hrun] at hok
      cases hok
    | ok =>
      rw [h, hrun] at hok
      cases hok
      rfl

end

/-! ## Single checks -/

section
variable (scopes : Scopes) {β : Type} (next : Lowering β)

theorem run_emission : emission.run scopes = .error .emission := rfl

theorem readable_eq (name : String) (span : Span) :
    (Node.reference name span).lower scopes =
      (do (readable name span).run scopes; .ok (scopes.current.value? name)) := by
  rw [Node.lower, run, passes, stop]
  cases scopes.current.value? name with
  | some value => rfl
  | none => cases scopes.current.slot? name <;> rfl

theorem integer_eq_ok_iff {span : Span} {value : Option Value} {id : Nat} :
    Lowering.integer span value = .ok id ↔ value = some (.integer id) := by
  rcases value with _ | (found | found) <;> simp [Lowering.integer, Lowering.reject]

theorem integer_bind (node : Node) :
    (do let _ ← Lowering.integer node.span (node.boundValue? scopes); next) =
      (do (integer node).run scopes; next) := by
  rw [run, passes]
  cases node.boundValue? scopes with
  | none => rfl
  | some value => cases value <;> rfl

theorem operator_bind (text : String) (span : Span) :
    (if Operator.isSupported text then next
      else Lowering.reject (.unsupportedOperator text) span) =
      (do (operator text span).run scopes; next) := by
  have hseven : Operator.isSupported text = passes scopes (operator text span) := by
    simp [Operator.isSupported, passes, Bool.or_assoc]
  rw [run, ← hseven]
  cases Operator.isSupported text <;> rfl

theorem assignable_bind (target : String) (span : Span) :
    (match scopes.current.slot? target, scopes.current.value? target with
      | some _, _ => next
      | none, some _ => Lowering.reject (.immutableAssignment target) span
      | none, none => Lowering.reject (.notDeclared target) span) =
      (do (assignable target span).run scopes; next) := by
  rw [run, passes, stop]
  cases scopes.current.slot? target with
  | some id => rfl
  | none => cases scopes.current.value? target <;> rfl

theorem free_bind (name : String) (span : Span) :
    (if scopes.current.declares name then Lowering.reject (.alreadyDeclared name) span else next) =
      (do (free name span).run scopes; next) := by
  rw [run, passes, Frame.declares]
  cases scopes.current.value? name <;> cases scopes.current.slot? name <;> rfl

theorem valueType_bind (type : String) (span : Span) :
    (do let _ ← Lowering.ofCheck (ScalarType.resolveWidth type span); next) =
      (do (valueType type span).run scopes; next) := by
  rw [run, passes, ScalarType.resolveWidth, ScalarType.resolve, ScalarType.ofName?]
  -- the three types that have a name, of which the last is not one of values
  by_cases hi : type = "i32"
  · simp [hi]
    rfl
  by_cases hu : type = "u8"
  · simp [hu]
    rfl
  by_cases hv : type = "void"
  · simp [hv]
    rfl
  · simp [hi, hu, hv]
    rfl

theorem function_bind (span : Span) :
    (do let _ ← Lowering.ofCheck (scopes.currentFunction span); next) =
      (do (function span).run scopes; next) := by
  rw [run, passes, Scopes.currentFunction]
  cases scopes.current.owner <;> rfl

/-- A part whose value is needed is lowered by going through its checks, and then its value is
checked. -/
theorem part_bind {scopes : Scopes} {node : Node}
    (h : node.lower scopes = (do runAll scopes node.checks; .ok (node.boundValue? scopes)))
    (next : Lowering β) :
    (do
      let value ← node.lower scopes
      let _ ← Lowering.integer node.span value
      next) = (do runAll scopes node.checks; (integer node).run scopes; next) := by
  rw [h, bind_assoc, ← integer_bind]
  rfl

end
end Check

/-! ## Trees -/

/-- A node is lowered by going through its checks. Only parts whose value is needed are lowered
with it: not the arguments of a call, the initializer of a name that is not a variable, or what a
condition decides about. -/
theorem Node.lower_eq_runAll (scopes : Scopes) : (node : Node) →
    node.lower scopes = (do Check.runAll scopes node.checks; .ok (node.boundValue? scopes))
  | .number text span => by
    rw [Node.lower, Node.checks, Check.runAll, Check.run, Check.passes, ← Text.int32?_isSome]
    cases Text.int32? text <;> rfl
  | .reference name span => by
    rw [Check.readable_eq, Node.checks, Check.runAll, bind_assoc]
    rfl
  | .binary operator left right span => by
    have hleft := left.lower_eq_runAll scopes
    have hright := right.lower_eq_runAll scopes
    rw [Node.lower, Node.checks, Check.part_bind hleft, Check.part_bind hright,
      Check.operator_bind scopes]
    simp only [Check.runAll, Check.runAll_append, bind_assoc, Check.run_emission,
      Check.stopped_bind]
  | .call callee arguments span => by
    rw [Node.lower, Node.checks]
    rfl
  | .assign target value span => by
    have hvalue := value.lower_eq_runAll scopes
    rw [Node.lower, Node.checks, Check.part_bind hvalue]
    simp only [Check.runAll, Check.runAll_append, bind_assoc, Check.run_emission,
      Check.stopped_bind]
    -- what is left is behind the value's checks
    refine bind_congr fun _ => bind_congr fun _ => ?_
    exact Check.assignable_bind scopes _ target span
  | .declare false type name none span => by
    rw [Node.lower, Node.checks]
    rfl
  | .declare false type name (some value) span => by
    rw [Node.lower, Node.checks]
    simp only [Check.runAll, bind_assoc, Check.run_emission, Check.stopped_bind,
      Check.valueType_bind scopes]
    rfl
  | .declare true type name none span => by
    rw [Node.lower, Node.checks]
    simp only [Check.runAll, bind_assoc, Check.run_emission, Check.stopped_bind,
      Check.valueType_bind scopes, Check.free_bind]
    rfl
  | .declare true type name (some value) span => by
    have hvalue := value.lower_eq_runAll scopes
    rw [Node.lower, Node.checks]
    simp only [Check.runAll, Check.runAll_append, bind_assoc, Check.run_emission,
      Check.stopped_bind, Check.valueType_bind scopes, Check.free_bind]
    exact Check.part_bind hvalue _
  | .conditional condition body alternative span => by
    rw [Node.lower, Node.checks, Check.function_bind]
    simp only [Check.runAll, bind_assoc, Check.run_emission, Check.stopped_bind]

theorem Node.lowerAll_eq_runAll (scopes : Scopes) (nodes : List Node) :
    Node.lowerAll scopes nodes = Check.runAll scopes (nodes.flatMap Node.checks) := by
  induction nodes with
  | nil => rfl
  | cons node more ih =>
    rw [Node.lowerAll, node.lower_eq_runAll, ih, List.flatMap_cons, Check.runAll_append, bind_assoc]
    rfl

/-- A body is lowered by going through its checks. -/
theorem Body.lower_eq_runAll (scopes : Scopes) (body : Body) :
    body.lower scopes = (do Check.runAll scopes body.checks; .ok (body.boundValue? scopes)) := by
  rw [Body.lower, Body.checks, Body.boundValue?, Node.lowerAll_eq_runAll, List.flatMap_append,
    Check.runAll_append, bind_assoc]
  refine bind_congr fun _ => ?_
  cases body.tail with
  | none => rfl
  | some node =>
    rw [Option.toList_some, List.flatMap_singleton]
    exact node.lower_eq_runAll scopes

/-- A node is lowered to an integer by going through its checks and one more. -/
theorem Node.lowerInteger_decided (scopes : Scopes) (node : Node) :
    Check.Decide scopes (node.checks ++ [.integer node]) (node.lowerInteger scopes)
      (fun id => node.boundValue? scopes = some (.integer id)) := by
  have hlower := node.lower_eq_runAll scopes
  apply Check.decide_of_runAll
  · rw [Node.lowerInteger, bind_assoc, Check.part_bind hlower, Check.runAll_append]
    rfl
  · intro id hid other
    rw [Node.lowerInteger, hlower, bind_assoc] at hid
    cases hrun : Check.runAll scopes node.checks with
    | error stop =>
      rw [hrun] at hid
      cases hid
    | ok =>
      rw [hrun] at hid
      rw [Check.integer_eq_ok_iff.mp hid, Option.some.injEq, Value.integer.injEq, eq_comm]

/-- Lowering ends at the first check, in the order of the tree, that is not passed, and behind all
of them it gives the value that is bound: of a node, of a node whose value must be an integer, and
of a body. -/
theorem Scopes.lowering_decided_by_checks (scopes : Scopes) :
    (∀ node : Node, Check.Decide scopes node.checks (node.lower scopes)
        (fun value => value = node.boundValue? scopes)) ∧
    (∀ node : Node, Check.Decide scopes (node.checks ++ [.integer node]) (node.lowerInteger scopes)
        (fun id => node.boundValue? scopes = some (.integer id))) ∧
    (∀ body : Body, Check.Decide scopes body.checks (body.lower scopes)
        (fun value => value = body.boundValue? scopes)) :=
  ⟨fun node => Check.decide_of_runAll_bind (node.lower_eq_runAll scopes),
    fun node => node.lowerInteger_decided scopes,
    fun body => Check.decide_of_runAll_bind (body.lower_eq_runAll scopes)⟩

end FrontEnd
