import FrontEnd.Proofs.CheckedPrograms
import FrontEnd.Proofs.Complaints
import FrontEnd.Proofs.Relocation

/-! # A range is read from its own tokens

Readers by position can look at every token of their buffer, and some do look behind the range that
they read: for a token that is missing at its end, and for the words of a diagnostic. Here two
buffers are compared that have the same tokens in one range each, and need have nothing else in
common. What is read from one range is read from the other; and what is refused is refused in both,
because the same thing is asked for in vain at the same place. The tokens outside have a say only in
how that is reported. -/
namespace FrontEnd

/-- A range in one buffer and a range in another one whose tokens are the same, one by one. -/
structure TwinRanges where
  buffer : Buffer
  start : Nat
  stop : Nat
  other : Buffer
  otherStart : Nat
  otherStop : Nat
  start_le : start ≤ stop
  stop_le : stop ≤ buffer.size
  otherStart_le : otherStart ≤ otherStop
  otherStop_le : otherStop ≤ other.size
  size_eq : otherStop - otherStart = stop - start
  token_eq : ∀ offset < stop - start,
    buffer.token? (start + offset) = other.token? (otherStart + offset)

namespace TwinRanges

def size (twins : TwinRanges) : Nat := twins.stop - twins.start

def range (twins : TwinRanges) : Buffer.Range := twins.buffer.range twins.start twins.stop

def otherRange (twins : TwinRanges) : Buffer.Range :=
  twins.other.range twins.otherStart twins.otherStop

/-- The same demand is met in neither range. It is made at the same distance from the two starts, in
the ranges or directly behind them. -/
def SameRefusal (twins : TwinRanges) (halt halt' : Halt) : Prop :=
  ∃ demand offset, offset ≤ twins.size ∧
    halt = .rejected (twins.buffer.diagnose demand (twins.start + offset)) ∧
    halt' = .rejected (twins.other.diagnose demand (twins.otherStart + offset))

/-- The results are the same, and the next positions are equally far from the two starts. -/
def SameAdvance {α : Type} (twins : TwinRanges) (result result' : α × Nat) : Prop :=
  result.1 = result'.1 ∧
    ∃ count, result.2 = twins.start + count ∧ result'.2 = twins.otherStart + count

end TwinRanges

/-- Readers of ranges, and of what stands at a position below a bound. -/
structure Readers where
  expression : Buffer.Range → Checked Node
  primary : Buffer.Range → Checked Node
  operators : Node → Buffer.Range → Checked Node
  declaration : Buffer.Range → Checked Node
  assignment : Buffer.Range → Checked Node
  body : Buffer.Range → Checked Body
  conditional : (start bound : Nat) → Checked (Node × Nat)
  signature : (start bound : Nat) → Checked (Signature × Nat)

/-- The readers that take the tokens of a range out of the buffer. -/
def Buffer.readers (buffer : Buffer) : Readers where
  expression range := (buffer.expression range).mapError .rejected
  primary range := (buffer.primary range).mapError .rejected
  operators left range := (buffer.operators range left).mapError .rejected
  declaration range := (buffer.declaration range).mapError .rejected
  assignment range := (buffer.assignment range).mapError .rejected
  body range := (buffer.body range).mapError .rejected
  conditional start bound := (buffer.conditional start bound).mapError Failure.halt
  signature start bound := (buffer.signature start bound).mapError Failure.halt

/-- The readers that go through the buffer by position, with so many steps. -/
def Checked.readers (buffer : Buffer) (steps : Nat) : Readers where
  expression := Checked.expression buffer steps
  primary := Checked.primary buffer steps
  operators left range := Checked.operators buffer steps range left
  declaration := Checked.declaration buffer steps
  assignment := Checked.assignment buffer steps
  body := Checked.body buffer steps
  conditional := Checked.conditional buffer steps
  signature := Checked.signature buffer steps

/-- All that can be read from twin ranges is read alike: both give the same, or both make the same
demand in vain. -/
structure TwinRanges.ReadAlike (twins : TwinRanges) (readers readers' : Readers) : Prop where
  expression : SameOutcome twins.SameRefusal Eq
    (readers.expression twins.range) (readers'.expression twins.otherRange)
  primary : SameOutcome twins.SameRefusal Eq
    (readers.primary twins.range) (readers'.primary twins.otherRange)
  operators : ∀ left, SameOutcome twins.SameRefusal Eq
    (readers.operators left twins.range) (readers'.operators left twins.otherRange)
  declaration : SameOutcome twins.SameRefusal Eq
    (readers.declaration twins.range) (readers'.declaration twins.otherRange)
  assignment : SameOutcome twins.SameRefusal Eq
    (readers.assignment twins.range) (readers'.assignment twins.otherRange)
  body : SameOutcome twins.SameRefusal Eq
    (readers.body twins.range) (readers'.body twins.otherRange)
  conditional : SameOutcome twins.SameRefusal twins.SameAdvance
    (readers.conditional twins.start twins.stop)
    (readers'.conditional twins.otherStart twins.otherStop)
  signature : SameOutcome twins.SameRefusal twins.SameAdvance
    (readers.signature twins.start twins.stop)
    (readers'.signature twins.otherStart twins.otherStop)

/-! ## Readers in a window -/

/-- In the window the readers give what is read from its tokens as a list. -/
structure Readers.Follow (readers : Readers) (buffer : Buffer) (start stop : Nat)
    (tokens : List Token) : Prop where
  expression : readers.expression (buffer.range start stop) =
    Checked.settled buffer stop (Reading.expression tokens)
  primary : readers.primary (buffer.range start stop) =
    Checked.settled buffer stop (Reading.primary tokens)
  operators : ∀ left, readers.operators left (buffer.range start stop) =
    Checked.settled buffer stop (Reading.operators left tokens)
  declaration : readers.declaration (buffer.range start stop) =
    Checked.settled buffer stop (Reading.declaration tokens)
  assignment : readers.assignment (buffer.range start stop) =
    Checked.settled buffer stop (Reading.assignment tokens)
  body : readers.body (buffer.range start stop) =
    Checked.settled buffer stop (Reading.body tokens)
  conditional : readers.conditional start stop =
    Checked.settled buffer stop (Reading.conditional tokens) >>= Checked.placed start
  signature : readers.signature start stop =
    Checked.settled buffer stop (Reading.signature tokens) >>= Checked.placed start

section
variable {buffer : Buffer} {start stop steps : Nat} {tokens : List Token}

theorem Checked.readers_follow (h : buffer.Window start stop tokens)
    (hs : 4 * tokens.length + 5 ≤ steps) :
    (Checked.readers buffer steps).Follow buffer start stop tokens where
  expression := (readsExpressions buffer steps).expression h (by omega)
  primary := (readsExpressions buffer steps).primary h (by omega)
  operators := (readsExpressions buffer steps).operators h (by omega)
  declaration := declaration_eq h (by omega)
  assignment := assignment_eq h (by omega)
  body := (readsBodies buffer steps).body h (by omega)
  conditional := (readsBodies buffer steps).conditional h (by omega)
  signature := signature_eq h (by omega)

/-- Taking the tokens out gives what going through them by position gives. -/
theorem Buffer.readers_follow (h : buffer.Window start stop tokens) :
    buffer.readers.Follow buffer start stop tokens := by
  have hchecked := Checked.readers_follow h
    (show 4 * tokens.length + 5 ≤ 4 * buffer.size + 5 by
      have hlength := h.length_eq
      have hstop := h.stop_le
      omega)
  have hrange := Checked.passesIn buffer start stop (Nat.le_refl _)
  exact {
    expression := hrange.expression.symm.trans hchecked.expression
    primary := hrange.primary.symm.trans hchecked.primary
    operators := fun left => (hrange.operators left).symm.trans (hchecked.operators left)
    declaration := hrange.declaration.symm.trans hchecked.declaration
    assignment := hrange.assignment.symm.trans hchecked.assignment
    body := hrange.body.symm.trans hchecked.body
    conditional := (Checked.conditional_advances (by omega) h.stop_le).checked.symm.trans
      hchecked.conditional
    signature := (Checked.signature_advances (by omega) h.stop_le).checked.symm.trans
      hchecked.signature }

end

namespace Reading

theorem conditional_within (tokens : List Token) : (conditional tokens).Within tokens.length := by
  refine Within.expect fun keyword rest _ _ => ?_
  refine (branch_within rest).bind fun result _ => ?_
  exact within_ok _ _

end Reading

/-! ## Twin ranges -/

namespace TwinRanges

variable (twins : TwinRanges)

theorem slice_eq : twins.other.slice twins.otherStart twins.otherStop =
    twins.buffer.slice twins.start twins.stop := by
  have hsize := twins.size_eq
  apply List.ext_getElem?
  intro offset
  rw [Buffer.slice, Buffer.slice, List.getElem?_drop, List.getElem?_drop, List.getElem?_take,
    List.getElem?_take]
  by_cases hin : offset < twins.stop - twins.start
  · have htoken := (twins.token_eq offset hin).symm
    rw [if_pos (by omega), if_pos (by omega)]
    exact htoken
  · rw [if_neg (by omega), if_neg (by omega)]

def tokens : List Token := twins.buffer.slice twins.start twins.stop

theorem window : twins.buffer.Window twins.start twins.stop twins.tokens :=
  twins.buffer.window twins.start_le twins.stop_le

theorem otherWindow : twins.other.Window twins.otherStart twins.otherStop twins.tokens :=
  ⟨twins.otherStart_le, twins.otherStop_le, twins.slice_eq⟩

theorem length_tokens : twins.tokens.length = twins.size := by
  have hlength := twins.window.length_eq
  rw [size]
  omega

/-- A complaint about the common tokens is placed at the same distance from both starts. -/
theorem sameOutcome_settled {α : Type} {reading : Reading α}
    (h : reading.Within twins.tokens.length) :
    SameOutcome twins.SameRefusal Eq (Checked.settled twins.buffer twins.stop reading)
      (Checked.settled twins.other twins.otherStop reading) := by
  cases reading with
  | ok result => exact .ok rfl
  | error complaint =>
    have hleft := h complaint rfl
    have hlength := twins.window.length_eq
    have hother := twins.otherWindow.length_eq
    have hplace : twins.stop - complaint.left =
        twins.start + (twins.tokens.length - complaint.left) := by omega
    have hotherPlace : twins.otherStop - complaint.left =
        twins.otherStart + (twins.tokens.length - complaint.left) := by omega
    refine .error ⟨complaint.demand, twins.tokens.length - complaint.left, ?_, ?_, ?_⟩
    · rw [length_tokens]
      exact Nat.sub_le _ _
    · rw [← hplace]
    · rw [← hotherPlace]

theorem sameOutcome_placed {α : Type} {reading : Reading (α × Nat)}
    (h : reading.Within twins.tokens.length) :
    SameOutcome twins.SameRefusal twins.SameAdvance
      (Checked.settled twins.buffer twins.stop reading >>= Checked.placed twins.start)
      (Checked.settled twins.other twins.otherStop reading >>=
        Checked.placed twins.otherStart) := by
  cases reading with
  | ok result => exact .ok ⟨rfl, result.2, rfl, rfl⟩
  | error complaint =>
    have hsettled := twins.sameOutcome_settled h
    cases hsettled with
    | error hrefusal => exact .error hrefusal

/-- Readers that follow the readers of lists in both ranges read them alike. -/
theorem readAlike {readers readers' : Readers}
    (h : readers.Follow twins.buffer twins.start twins.stop twins.tokens)
    (h' : readers'.Follow twins.other twins.otherStart twins.otherStop twins.tokens) :
    twins.ReadAlike readers readers' where
  expression := by
    rw [range, otherRange, h.expression, h'.expression]
    exact twins.sameOutcome_settled (Reading.expression_within _)
  primary := by
    rw [range, otherRange, h.primary, h'.primary]
    exact twins.sameOutcome_settled (Reading.primary_within _)
  operators left := by
    rw [range, otherRange, h.operators, h'.operators]
    exact twins.sameOutcome_settled (Reading.operators_within left _)
  declaration := by
    rw [range, otherRange, h.declaration, h'.declaration]
    exact twins.sameOutcome_settled (Reading.declaration_within _)
  assignment := by
    rw [range, otherRange, h.assignment, h'.assignment]
    exact twins.sameOutcome_settled (Reading.assignment_within _)
  body := by
    rw [range, otherRange, h.body, h'.body]
    exact twins.sameOutcome_settled (Reading.body_within _)
  conditional := by
    rw [h.conditional, h'.conditional]
    exact twins.sameOutcome_placed (Reading.conditional_within _)
  signature := by
    rw [h.signature, h'.signature]
    exact twins.sameOutcome_placed (Reading.signature_within _)

end TwinRanges

/-- Ranges with the same tokens are read alike in any two buffers, by the readers that take the
tokens out and by the readers that go through the buffer by position: what is read from the one is
read from the other, and the tokens outside decide at most how a refusal is reported. -/
theorem TwinRanges.read_locally (twins : TwinRanges) {steps otherSteps : Nat}
    (hs : 4 * twins.size + 5 ≤ steps) (ho : 4 * twins.size + 5 ≤ otherSteps) :
    twins.ReadAlike twins.buffer.readers twins.other.readers ∧
      twins.ReadAlike (Checked.readers twins.buffer steps)
        (Checked.readers twins.other otherSteps) := by
  rw [← twins.length_tokens] at hs ho
  exact ⟨twins.readAlike (Buffer.readers_follow twins.window)
      (Buffer.readers_follow twins.otherWindow),
    twins.readAlike (Checked.readers_follow twins.window hs)
      (Checked.readers_follow twins.otherWindow ho)⟩

/-- The tokens `1 +`, once in front of a semicolon and once at the end. -/
def TwinRanges.cutShort : TwinRanges where
  buffer := ⟨[⟨.identifier, "x", ⟨1, 0, 1⟩⟩, ⟨.assign, "=", ⟨1, 2, 3⟩⟩, ⟨.number, "1", ⟨1, 4, 5⟩⟩,
    ⟨.operator, "+", ⟨1, 6, 7⟩⟩, ⟨.semicolon, ";", ⟨1, 7, 8⟩⟩]⟩
  start := 2
  stop := 4
  other := ⟨[⟨.number, "1", ⟨1, 4, 5⟩⟩, ⟨.operator, "+", ⟨1, 6, 7⟩⟩]⟩
  otherStart := 0
  otherStop := 2
  start_le := by decide
  stop_le := by decide
  otherStart_le := by decide
  otherStop_le := by decide
  size_eq := by decide
  token_eq := by decide

/-- Both ranges lack an operand at their end, which is reported as a semicolon or as the end. -/
theorem TwinRanges.read_locally_cutShort :
    4 * cutShort.size + 5 ≤ 13 ∧
      cutShort.ReadAlike cutShort.buffer.readers cutShort.other.readers ∧
      cutShort.ReadAlike (Checked.readers cutShort.buffer 13)
        (Checked.readers cutShort.other 13) ∧
      Checked.expression cutShort.buffer 13 cutShort.range =
        .error (.rejected ⟨.invalidPrimary "`;`", ⟨1, 7, 8⟩, none⟩) ∧
      Checked.expression cutShort.other 13 cutShort.otherRange =
        .error (.rejected ⟨.invalidPrimary "end of input", ⟨1, 6, 7⟩, none⟩) := by
  have hsteps : 4 * cutShort.size + 5 ≤ 13 := by decide
  obtain ⟨htaken, hchecked⟩ := TwinRanges.read_locally cutShort hsteps hsteps
  exact ⟨hsteps, htaken, hchecked, rfl, rfl⟩

end FrontEnd
