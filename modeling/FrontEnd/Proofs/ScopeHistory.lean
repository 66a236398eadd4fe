import Mathlib.Data.List.Induction
import FrontEnd.Scope

/-! # The scopes are what was done to them

Frames are pushed and popped and names are bound, in any order and any number of times. What the
scopes hold afterwards is read off the history alone: which actions were performed in a frame that
is still open is told by how many functions were open at each time, and a name is bound in a frame
by the one action that bound it there. All of this is said of every open frame, since a pop makes
an outer frame the innermost one. -/
namespace FrontEnd

namespace Scopes

inductive Action where
  | push (function : String) (id : Nat)
  | pop
  | bind (name : String) (binding : Binding)
  deriving DecidableEq, Repr

/-- The scopes after an action. A binding that is refused changes nothing. -/
def perform (scopes : Scopes) : Action → Scopes
  | .push function id => scopes.push function id
  | .pop => scopes.pop
  | .bind name binding => (scopes.bind? name binding).getD scopes

/-- The scopes after a history of actions, the first one first. -/
def after (history : List Action) : Scopes := history.foldl perform initial

/-! ## The history alone -/

/-- How many functions are open after an action when `depth` are open before it. A pop without an
open function is lost. -/
def Action.depth (depth : Nat) : Action → Nat
  | .push _ _ => depth + 1
  | .pop => depth - 1
  | .bind _ _ => depth

def depthAfter (history : List Action) : Nat := history.foldl Action.depth 0

/-- The action at `index` bound the name in the frame that has `level` frames below it: it was not
refused, `level` functions were open then, and never fewer since. -/
structure BoundAt (history : List Action) (level index : Nat) (name : String)
    (binding : Binding) : Prop where
  action : history[index]? = some (.bind name binding)
  open_then : depthAfter (history.take index) = level
  open_since : ∀ later, index ≤ later → level ≤ depthAfter (history.take later)
  accepted : ((after (history.take index)).bind? name binding).isSome

def pushes (actions : List Action) : Nat :=
  actions.countP fun action => action matches .push _ _

def pops (actions : List Action) : Nat := actions.count .pop

/-- Every pop closes a frame that the actions have pushed, and all those frames are closed. -/
structure Matched (actions : List Action) : Prop where
  never_below : ∀ start, start <+: actions → pops start ≤ pushes start
  all_closed : pops actions = pushes actions

@[simp] theorem after_snoc (history : List Action) (action : Action) :
    after (history ++ [action]) = (after history).perform action := by
  simp [after]

@[simp] theorem depthAfter_snoc (history : List Action) (action : Action) :
    depthAfter (history ++ [action]) = action.depth (depthAfter history) := by
  simp [depthAfter]

/-- One action more: what it leaves open keeps its bindings, and it may bind a name itself. -/
theorem boundAt_snoc {history : List Action} {action : Action} {level index : Nat} {name : String}
    {binding : Binding} :
    BoundAt (history ++ [action]) level index name binding ↔
      (BoundAt history level index name binding ∧ level ≤ action.depth (depthAfter history)) ∨
      (index = history.length ∧ action = .bind name binding ∧ depthAfter history = level ∧
        ((after history).bind? name binding).isSome) := by
  constructor
  · rintro ⟨haction, hthen, hsince, haccepted⟩
    have hbound : index < history.length + 1 := by
      have := (List.getElem?_eq_some_iff.mp haction).1
      simpa using this
    rcases Nat.lt_or_eq_of_le (Nat.le_of_lt_succ hbound) with hlt | rfl
    · left
      rw [List.getElem?_append_left hlt] at haction
      rw [List.take_append_of_le_length (Nat.le_of_lt hlt)] at hthen haccepted
      refine ⟨⟨haction, hthen, ?_, haccepted⟩, ?_⟩
      · intro later hl
        rcases Nat.le_total later history.length with hle | hle
        · have := hsince later hl
          rwa [List.take_append_of_le_length hle] at this
        · have := hsince history.length (Nat.le_of_lt hlt)
          rwa [List.take_left, ← List.take_of_length_le hle] at this
      · have := hsince (history.length + 1) (Nat.le_of_lt hbound)
        rwa [List.take_of_length_le (by simp), depthAfter_snoc] at this
    · right
      rw [List.take_left] at hthen haccepted
      refine ⟨rfl, ?_, hthen, haccepted⟩
      simpa using haction
  · rintro (⟨⟨haction, hthen, hsince, haccepted⟩, hlevel⟩ | ⟨rfl, rfl, hlevel, haccepted⟩)
    · have hlt := (List.getElem?_eq_some_iff.mp haction).1
      refine ⟨?_, ?_, ?_, ?_⟩
      · rwa [List.getElem?_append_left hlt]
      · rwa [List.take_append_of_le_length (Nat.le_of_lt hlt)]
      · intro later hl
        rcases Nat.lt_or_ge history.length later with hlate | hle
        · rwa [List.take_of_length_le (by simp; omega), depthAfter_snoc]
        · rw [List.take_append_of_le_length hle]
          exact hsince later hl
      · rwa [List.take_append_of_le_length (Nat.le_of_lt hlt)]
    · refine ⟨by simp, ?_, ?_, ?_⟩
      · rwa [List.take_left]
      · intro later hl
        rcases Nat.lt_or_eq_of_le hl with hlate | rfl
        · rw [List.take_of_length_le (by simp; omega), depthAfter_snoc]
          exact Nat.le_of_eq hlevel.symm
        · rw [List.take_left]
          exact Nat.le_of_eq hlevel.symm
      · rwa [List.take_left]

theorem BoundAt.level_le {history : List Action} {level index : Nat} {name : String}
    {binding : Binding} (h : BoundAt history level index name binding) :
    level ≤ depthAfter history := by
  have hlt := (List.getElem?_eq_some_iff.mp h.action).1
  have := h.open_since history.length (Nat.le_of_lt hlt)
  rwa [List.take_length] at this

/-- What was bound before an action is bound at the time of that action, if the frame was the
innermost one then. -/
theorem BoundAt.take {history : List Action} {level index later : Nat} {name : String}
    {binding : Binding} (h : BoundAt history level index name binding) (hl : index < later) :
    BoundAt (history.take later) level index name binding := by
  refine ⟨?_, ?_, ?_, ?_⟩
  · rw [List.getElem?_take_of_lt hl]
    exact h.action
  · rw [List.take_take, Nat.min_eq_left (Nat.le_of_lt hl)]
    exact h.open_then
  · intro time ht
    rw [List.take_take]
    exact h.open_since _ (by omega)
  · rw [List.take_take, Nat.min_eq_left (Nat.le_of_lt hl)]
    exact h.accepted

end Scopes

/-! ## One frame -/

namespace Frame

/-- The frame has the binding under the name, in the table where it belongs. -/
def Holds (frame : Frame) (name : String) : Binding → Prop
  | .value value => frame.value? name = some value
  | .slot id => frame.slot? name = some id

theorem declares_iff {frame : Frame} {name : String} :
    frame.declares name = true ↔ ∃ binding, frame.Holds name binding := by
  simp only [declares, Bool.or_eq_true, Option.isSome_iff_exists]
  constructor
  · rintro (⟨value, h⟩ | ⟨id, h⟩)
    · exact ⟨.value value, h⟩
    · exact ⟨.slot id, h⟩
  · rintro ⟨value | id, h⟩
    · exact .inl ⟨value, h⟩
    · exact .inr ⟨id, h⟩

theorem not_holds_ofFunction (function : String) (id : Nat) (name : String) (binding : Binding) :
    ¬ (ofFunction function id).Holds name binding := by
  cases binding <;> simp [Holds, ofFunction, value?, slot?]

theorem not_holds_global (name : String) (binding : Binding) : ¬ global.Holds name binding := by
  cases binding <;> simp [Holds, global, value?, slot?]

/-- A name that is free gets the binding, and all others keep theirs. -/
theorem enter_holds {frame : Frame} {name : String} (hfree : frame.declares name = false)
    (binding : Binding) (other : String) (found : Binding) :
    (frame.enter name binding).Holds other found ↔
      frame.Holds other found ∨ (name = other ∧ binding = found) := by
  have hnot : ∀ kept, ¬ frame.Holds name kept := by
    intro kept hk
    have := declares_iff.mpr ⟨kept, hk⟩
    rw [hfree] at this
    cases this
  by_cases hn : name = other
  · subst hn
    have hnone := hnot found
    cases binding <;> cases found <;>
      simp_all [Holds, enter, value?, slot?]
  · have hn' : other ≠ name := fun h => hn h.symm
    cases binding <;> cases found <;>
      simp [Holds, enter, value?, slot?, List.lookup_cons, beq_false_of_ne hn', hn]

theorem bind?_isSome {frame : Frame} {name : String} {binding : Binding} :
    (frame.bind? name binding).isSome ↔ ∀ found, ¬ frame.Holds name found := by
  rw [← not_exists, ← declares_iff, bind?]
  split <;> simp_all

end Frame

namespace Scopes

/-! ## The frames as a stack -/

theorem frames_initial : initial.frames = [Frame.global] := rfl

theorem frames_split (scopes : Scopes) :
    scopes.frames = scopes.enclosing.reverse ++ [scopes.current] := by
  simp [frames]

theorem frames_ne_nil (scopes : Scopes) : scopes.frames ≠ [] := by
  simp [frames]

theorem frames_injective {scopes others : Scopes} (h : scopes.frames = others.frames) :
    scopes = others := by
  obtain ⟨current, enclosing⟩ := scopes
  cases List.reverse_inj.mp h
  rfl

theorem frames_push (scopes : Scopes) (function : String) (id : Nat) :
    (scopes.push function id).frames = scopes.frames ++ [.ofFunction function id] := by
  simp [frames, push]

theorem frames_pop (scopes : Scopes) :
    scopes.pop.frames = if scopes.frames.length = 1 then scopes.frames
      else scopes.frames.dropLast := by
  obtain ⟨current, enclosing⟩ := scopes
  cases enclosing <;> simp [frames, pop]

theorem bind?_isSome {scopes : Scopes} {name : String} {binding : Binding} :
    (scopes.bind? name binding).isSome ↔ ∀ found, ¬ scopes.current.Holds name found := by
  rw [bind?, Option.isSome_map, Frame.bind?_isSome]

/-- Binding changes the innermost frame alone, and only if the name is free. -/
theorem perform_bind (scopes : Scopes) (name : String) (binding : Binding) :
    scopes.perform (.bind name binding) =
      if scopes.current.declares name then scopes
      else { scopes with current := scopes.current.enter name binding } := by
  rw [perform, bind?, Frame.bind?]
  split <;> rfl

theorem enclosing_bind (scopes : Scopes) (name : String) (binding : Binding) :
    (scopes.perform (.bind name binding)).enclosing = scopes.enclosing := by
  rw [perform_bind]
  split <;> rfl

/-- Binding gives the innermost frame that binding, unless it is refused. -/
theorem holds_bind (scopes : Scopes) (name other : String) (binding found : Binding) :
    (scopes.perform (.bind name binding)).current.Holds other found ↔
      scopes.current.Holds other found ∨
        (name = other ∧ binding = found ∧ (scopes.bind? name binding).isSome) := by
  rw [perform_bind, bind?, Frame.bind?]
  by_cases hd : scopes.current.declares name = true
  · simp [hd]
  · simp [hd, Frame.enter_holds (Bool.not_eq_true _ ▸ hd)]

theorem label_bind (scopes : Scopes) (name : String) (binding : Binding) :
    (scopes.perform (.bind name binding)).current.function = scopes.current.function ∧
      (scopes.perform (.bind name binding)).current.owner = scopes.current.owner := by
  rw [perform_bind]
  split
  · exact ⟨rfl, rfl⟩
  · cases binding <;> exact ⟨rfl, rfl⟩

/-! ## The frames after a history -/

/-- There is a frame for every open function, and one more. -/
theorem frames_length (history : List Action) :
    (after history).frames.length = depthAfter history + 1 := by
  induction history using List.reverseRecOn with
  | nil => rfl
  | append_singleton history action ih =>
    rw [after_snoc, depthAfter_snoc]
    cases action with
    | push function id => simp [perform, frames_push, Action.depth, ih]
    | pop =>
      rw [perform, frames_pop, Action.depth]
      split
      · omega
      · rw [List.length_dropLast]
        omega
    | bind name binding =>
      rw [frames_split, enclosing_bind, Action.depth, ← ih, frames_split]
      simp

/-- The innermost frame stands where the depth says. -/
theorem frames_depth (history : List Action) :
    (after history).frames[depthAfter history]? = some (after history).current := by
  have hlength := frames_length history
  rw [frames_split, List.length_append, List.length_singleton] at hlength
  rw [frames_split, ← Nat.succ.inj hlength]
  simp

/-- At the bottom lies the frame of no function. -/
theorem bottom_frame (history : List Action) :
    ∃ frame, (after history).frames[0]? = some frame ∧ frame.function = "__global" ∧
      frame.owner = none := by
  induction history using List.reverseRecOn with
  | nil => exact ⟨.global, rfl, rfl, rfl⟩
  | append_singleton history action ih =>
    obtain ⟨frame, hf, hlabel⟩ := ih
    have hpos := List.length_pos_iff.mpr (frames_ne_nil (after history))
    rw [after_snoc]
    cases action with
    | push function id =>
      refine ⟨frame, ?_, hlabel⟩
      rw [perform, frames_push, List.getElem?_append_left hpos]
      exact hf
    | pop =>
      refine ⟨frame, ?_, hlabel⟩
      rw [perform, frames_pop]
      split
      · exact hf
      · rw [List.getElem?_dropLast, if_pos (by omega)]
        exact hf
    | bind name binding =>
      rw [frames_split, enclosing_bind]
      rw [frames_split] at hf
      cases hlist : (after history).enclosing.reverse with
      | nil =>
        rw [hlist] at hf
        cases hf
        obtain ⟨hfunction, howner⟩ := label_bind (after history) name binding
        exact ⟨_, rfl, hfunction.trans hlabel.1, howner.trans hlabel.2⟩
      | cons bottom rest =>
        rw [hlist] at hf
        exact ⟨frame, hf, hlabel⟩

/-- What a further action leaves of the bindings in a frame, and what it adds. -/
theorem exists_boundAt_snoc {history : List Action} {action : Action} {level : Nat} {name : String}
    {binding : Binding} :
    (∃ index, BoundAt (history ++ [action]) level index name binding) ↔
      ((∃ index, BoundAt history level index name binding) ∧
        level ≤ action.depth (depthAfter history)) ∨
      (action = .bind name binding ∧ depthAfter history = level ∧
        ((after history).bind? name binding).isSome) := by
  simp only [boundAt_snoc, exists_or, exists_and_right, exists_eq, true_and]

/-- Every frame holds exactly the bindings that were made in it since it was pushed. -/
def Recorded (history : List Action) : Prop :=
  ∀ level frame, (after history).frames[level]? = some frame →
    ∀ name binding, frame.Holds name binding ↔ ∃ index, BoundAt history level index name binding

section
variable {history : List Action}

theorem recorded_nil : Recorded [] := by
  intro level frame hf name binding
  rw [after, List.foldl_nil, frames_initial] at hf
  obtain rfl := List.mem_singleton.mp (List.mem_of_getElem? hf)
  constructor
  · intro h
    exact absurd h (Frame.not_holds_global name binding)
  · rintro ⟨index, h⟩
    cases h.action

theorem Recorded.push (h : Recorded history) (function : String) (id : Nat) :
    Recorded (history ++ [.push function id]) := by
  intro level frame hf name binding
  have hlength := frames_length history
  rw [exists_boundAt_snoc]
  simp only [reduceCtorEq, false_and, or_false, Action.depth]
  rw [after_snoc, perform, frames_push] at hf
  rcases Nat.lt_or_ge level (after history).frames.length with hlt | hge
  · rw [List.getElem?_append_left hlt] at hf
    rw [h level frame hf]
    exact (and_iff_left (by omega)).symm
  · -- the new frame is above all that was ever bound
    have hnew : frame = .ofFunction function id := by
      rw [List.getElem?_append_right hge] at hf
      exact List.mem_singleton.mp (List.mem_of_getElem? hf)
    subst hnew
    constructor
    · intro hn
      exact absurd hn (Frame.not_holds_ofFunction function id name binding)
    · rintro ⟨⟨index, hb⟩, -⟩
      have := hb.level_le
      omega

theorem Recorded.pop (h : Recorded history) : Recorded (history ++ [.pop]) := by
  intro level frame hf name binding
  have hlength := frames_length history
  have hkept : level ≤ depthAfter history - 1 ∧ (after history).frames[level]? = some frame := by
    rw [after_snoc, perform, frames_pop] at hf
    split at hf
    · have := (List.getElem?_eq_some_iff.mp hf).1
      exact ⟨by omega, hf⟩
    · rw [List.getElem?_dropLast] at hf
      split at hf
      · exact ⟨by omega, hf⟩
      · cases hf
  rw [exists_boundAt_snoc, h level frame hkept.2]
  simp [Action.depth, hkept.1]

theorem Recorded.bind (h : Recorded history) (name : String) (binding : Binding) :
    Recorded (history ++ [.bind name binding]) := by
  intro level frame hf other found
  have hlength : (after history).enclosing.reverse.length = depthAfter history := by
    have := frames_length history
    rw [frames_split] at this
    simpa using this
  rw [exists_boundAt_snoc]
  simp only [Action.bind.injEq, Action.depth]
  rw [after_snoc, frames_split, enclosing_bind] at hf
  rcases Nat.lt_or_ge level (depthAfter history) with hlt | hge
  · -- a frame below the innermost one
    have hbelow : (after history).frames[level]? = some frame := by
      rw [frames_split, List.getElem?_append_left (by omega)]
      rwa [List.getElem?_append_left (by omega)] at hf
    have hne : depthAfter history ≠ level := by omega
    rw [h level frame hbelow]
    simp [hne, Nat.le_of_lt hlt]
  · have hcurrent : frame = ((after history).perform (.bind name binding)).current := by
      rw [List.getElem?_append_right (by omega)] at hf
      exact List.mem_singleton.mp (List.mem_of_getElem? hf)
    have hlevel : level = depthAfter history := by
      have := (List.getElem?_eq_some_iff.mp hf).1
      simp at this hlength
      omega
    subst hcurrent hlevel
    rw [holds_bind, h _ _ (frames_depth history)]
    simp only [Nat.le_refl, and_true, true_and]
    constructor
    · rintro (hb | ⟨rfl, rfl, ha⟩)
      · exact .inl hb
      · exact .inr ⟨⟨rfl, rfl⟩, ha⟩
    · rintro (hb | ⟨⟨rfl, rfl⟩, ha⟩)
      · exact .inl hb
      · exact .inr ⟨rfl, rfl, ha⟩

end

theorem recorded (history : List Action) : Recorded history := by
  induction history using List.reverseRecOn with
  | nil => exact recorded_nil
  | append_singleton history action ih =>
    cases action with
    | push function id => exact ih.push function id
    | pop => exact ih.pop
    | bind name binding => exact ih.bind name binding

/-- What the innermost frame holds. -/
theorem current_holds_iff (history : List Action) (name : String) (binding : Binding) :
    (after history).current.Holds name binding ↔
      ∃ index, BoundAt history (depthAfter history) index name binding :=
  recorded history _ _ (frames_depth history) name binding

/-- A name is bound in the innermost frame unless it was bound there before. -/
theorem bind?_isSome_iff (history : List Action) (name : String) (binding : Binding) :
    ((after history).bind? name binding).isSome ↔
      ¬ ∃ index earlier, BoundAt history (depthAfter history) index name earlier := by
  simp only [bind?_isSome, current_holds_iff, not_exists]
  exact ⟨fun h index earlier => h earlier index, fun h found index => h index found⟩

theorem BoundAt.not_before {history : List Action} {level index later : Nat} {name : String}
    {binding found : Binding} (h : BoundAt history level index name binding)
    (hl : BoundAt history level later name found) : ¬ index < later := by
  intro hlt
  have haccepted := (bind?_isSome_iff _ _ _).mp hl.accepted
  rw [hl.open_then] at haccepted
  exact haccepted ⟨index, binding, h.take hlt⟩

/-- A name is bound in a frame once. -/
theorem BoundAt.unique {history : List Action} {level index later : Nat} {name : String}
    {binding found : Binding} (h : BoundAt history level index name binding)
    (hl : BoundAt history level later name found) : index = later ∧ binding = found := by
  have hindex : index = later := Nat.le_antisymm (Nat.le_of_not_lt (hl.not_before h))
    (Nat.le_of_not_lt (h.not_before hl))
  subst hindex
  have haction := h.action.symm.trans hl.action
  simp only [Option.some.injEq, Action.bind.injEq, true_and] at haction
  exact ⟨rfl, haction⟩

/-! ## Pushes and pops that match -/

theorem pushes_cons (action : Action) (actions : List Action) :
    pushes (action :: actions) = pushes [action] + pushes actions := by
  rw [← List.singleton_append]
  exact List.countP_append

theorem pops_cons (action : Action) (actions : List Action) :
    pops (action :: actions) = pops [action] + pops actions := by
  rw [← List.singleton_append]
  exact List.count_append

/-- An action that does not pop the last of the upper frames leaves the frames below them alone. -/
theorem frames_above_step {base upper : List Frame} {scopes : Scopes} {action : Action}
    (hf : scopes.frames = base ++ upper) (hu : upper ≠ [])
    (hk : pops [action] < pushes [action] + upper.length) :
    ∃ kept, (scopes.perform action).frames = base ++ kept ∧
      kept.length + pops [action] = upper.length + pushes [action] := by
  cases action with
  | push function id =>
    refine ⟨upper ++ [.ofFunction function id], ?_, ?_⟩
    · rw [perform, frames_push, hf, List.append_assoc]
    · simp [pops, pushes]
  | pop =>
    have hmore : 1 < upper.length := by simpa [pops, pushes] using hk
    refine ⟨upper.dropLast, ?_, ?_⟩
    · rw [perform, frames_pop, hf, if_neg (by rw [List.length_append]; omega),
        List.dropLast_append_of_ne_nil hu]
    · simp [pops, pushes]
      omega
  | bind name binding =>
    have hbelow : scopes.enclosing.reverse = base ++ upper.dropLast := by
      rw [← List.dropLast_append_of_ne_nil hu, ← hf, frames_split, List.dropLast_concat]
    refine ⟨upper.dropLast ++ [(scopes.perform (.bind name binding)).current], ?_, ?_⟩
    · rw [frames_split, enclosing_bind, hbelow, List.append_assoc]
    · have := List.length_pos_iff.mpr hu
      simp [pops, pushes]
      omega

/-- While pops stay behind pushes, the frames that were there before stay. -/
theorem frames_above {base upper : List Frame} {scopes : Scopes} {actions : List Action}
    (hf : scopes.frames = base ++ upper)
    (hk : ∀ start, start <+: actions → pops start < pushes start + upper.length) :
    ∃ kept, (actions.foldl perform scopes).frames = base ++ kept ∧
      kept.length + pops actions = upper.length + pushes actions := by
  induction actions generalizing scopes upper with
  | nil => exact ⟨upper, hf, rfl⟩
  | cons action actions ih =>
    have hupper : upper ≠ [] := by
      have := hk [] List.nil_prefix
      exact List.length_pos_iff.mp (by simpa [pops, pushes] using this)
    have hfirst := hk [action] ((List.prefix_cons_inj action).mpr List.nil_prefix)
    obtain ⟨kept, hkept, hcount⟩ := frames_above_step hf hupper hfirst
    have hrest : ∀ start, start <+: actions → pops start < pushes start + kept.length := by
      intro start hs
      have := hk _ ((List.prefix_cons_inj action).mpr hs)
      rw [pops_cons, pushes_cons] at this
      omega
    obtain ⟨last, hlast, hall⟩ := ih hkept hrest
    refine ⟨last, hlast, ?_⟩
    rw [pops_cons, pushes_cons]
    omega

/-- A pop gives back what its push found. -/
theorem after_matched (history : List Action) (function : String) (id : Nat)
    {inner : List Action} (h : Matched inner) :
    after (history ++ .push function id :: (inner ++ [.pop])) = after history := by
  have hinner : ∀ start, start <+: inner →
      pops start < pushes start + [Frame.ofFunction function id].length := by
    intro start hs
    have := h.never_below start hs
    rw [List.length_singleton]
    omega
  obtain ⟨kept, hkept, hcount⟩ := frames_above (frames_push (after history) function id) hinner
  have hone : kept.length = 1 := by
    have := h.all_closed
    rw [List.length_singleton] at hcount
    omega
  have hstack : after (history ++ .push function id :: (inner ++ [.pop])) =
      (inner.foldl perform ((after history).push function id)).pop := by
    simp [after, perform]
  apply frames_injective
  have hbase := List.length_pos_iff.mpr (frames_ne_nil (after history))
  obtain ⟨top, rfl⟩ := List.length_eq_one_iff.mp hone
  rw [hstack, frames_pop, hkept, if_neg (by rw [List.length_append]; omega), List.dropLast_concat]

/-! ## What the scopes say of their history -/

/-- The scopes are what a history makes of them. -/
structure Implements (scopes : Scopes) (history : List Action) : Prop where
  /-- The stack of frames is never empty, -/
  size : scopes.frames.length = depthAfter history + 1
  /-- so that its last frame is there, -/
  innermost : scopes.frames[scopes.frames.length - 1]? = some scopes.current
  /-- and its first one belongs to no function. -/
  bottom : ∃ frame, scopes.frames[0]? = some frame ∧ frame.function = "__global" ∧
    frame.owner = none
  /-- Alone, it is not popped. -/
  bottom_stays : scopes.frames.length = 1 → scopes.pop = scopes
  /-- A name is refused exactly if it was bound in the innermost frame since that was pushed, -/
  accepted_iff : ∀ name binding, (scopes.bind? name binding).isSome ↔
    ¬ ∃ index earlier, BoundAt history (depthAfter history) index name earlier
  /-- and then no frame changes. -/
  refused : ∀ name binding, scopes.bind? name binding = none →
    (scopes.perform (.bind name binding)).frames = scopes.frames
  /-- Values and slots are those that were bound, -/
  value_iff : ∀ name value, scopes.current.value? name = some value ↔
    ∃ index, BoundAt history (depthAfter history) index name (.value value)
  slot_iff : ∀ name id, scopes.current.slot? name = some id ↔
    ∃ index, BoundAt history (depthAfter history) index name (.slot id)
  /-- by the only action that bound the name there. -/
  once : ∀ index later name binding found,
    BoundAt history (depthAfter history) index name binding →
    BoundAt history (depthAfter history) later name found → index = later ∧ binding = found
  exclusive : ∀ name, scopes.current.value? name = none ∨ scopes.current.slot? name = none
  /-- Binding leaves all frames below the innermost one as they are. -/
  below : ∀ name binding,
    (scopes.perform (.bind name binding)).frames.dropLast = scopes.frames.dropLast
  /-- What a push covers comes back with the pop that matches it. -/
  restored : ∀ function id inner, Matched inner →
    after (history ++ .push function id :: (inner ++ [.pop])) = scopes

end Scopes

/-- After any actions in any order the scopes are what their history makes of them. -/
theorem Scopes.after_implements (history : List Action) :
    (after history).Implements history where
  size := frames_length history
  innermost := by
    rw [frames_length, Nat.add_sub_cancel]
    exact frames_depth history
  bottom := bottom_frame history
  bottom_stays := by
    intro h
    apply frames_injective
    rw [frames_pop, if_pos h]
  accepted_iff := bind?_isSome_iff history
  refused := by
    intro name binding h
    rw [perform, h, Option.getD_none]
  value_iff := fun name value => current_holds_iff history name (.value value)
  slot_iff := fun name id => current_holds_iff history name (.slot id)
  once := fun _ _ _ _ _ h hl => h.unique hl
  exclusive := by
    intro name
    cases hv : (after history).current.value? name with
    | none => exact .inl rfl
    | some value =>
      cases hs : (after history).current.slot? name with
      | none => exact .inr rfl
      | some id =>
        -- two bindings of one name in one frame
        obtain ⟨index, hvalue⟩ := (current_holds_iff history name (.value value)).mp hv
        obtain ⟨later, hslot⟩ := (current_holds_iff history name (.slot id)).mp hs
        cases (hvalue.unique hslot).2
  below := by
    intro name binding
    simp only [frames_split, enclosing_bind, List.dropLast_concat]
  restored := fun function id _ h => after_matched history function id h

end FrontEnd
