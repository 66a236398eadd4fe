import FrontEnd.Buffer
import FrontEnd.Proofs.Brackets

/-! # Reading with checks

The readers work on lists, so nothing in them can miss a token. Here they are written out once more
as they go through a buffer: a token is fetched by its position, and there may be none; a position
or a depth is counted down by one, and may be zero; a call, or one more round of a loop, is given
one step less than there is, and there may be none left. Only the length of a range needs no check,
since a range does not end before it starts. This module has what all readers need, and the searches
for the end of a bracket, a primary and an expression. Each search is shown to pass all checks, and
to find what the search in a list finds. -/
namespace FrontEnd

/-- Why reading with checks stops without a result. -/
inductive Halt where
  | rejected (diagnostic : Diagnostic)
  | pastEnd
  | belowZero
  | outOfSteps
  deriving DecidableEq, Repr

/-- The result of reading with checks. -/
abbrev Checked (α : Type) := Except Halt α

namespace Checked

@[simp] theorem ok_bind {α β : Type} (a : α) (next : α → Checked β) :
    ((.ok a : Checked α) >>= next) = next a := rfl

/-! ## Positions -/

/-- The token at a position, which has to be there. -/
def fetch (buffer : Buffer) (position : Nat) : Checked Token :=
  match buffer.token? position with
  | some token => .ok token
  | none => .error .pastEnd

/-- The position before, which has to be there. -/
def before : Nat → Checked Nat
  | 0 => .error .belowZero
  | position + 1 => .ok position

/-- Stops with a demand that is not met at a position. -/
def reject {α : Type} (buffer : Buffer) (demand : Demand) (position : Nat) : Checked α :=
  .error (.rejected (buffer.diagnose demand position))

/-- Reads one token of the kind at the position, below the bound, and gives the next position. -/
def consume (buffer : Buffer) (kind : TokenKind) (position bound : Nat) : Checked (Token × Nat) :=
  if bound ≤ position then reject buffer (.token kind) position
  else do
    let token ← fetch buffer position
    if token.kind = kind then .ok (token, position + 1)
    else reject buffer (.token kind) position

/-! ## Searches -/

def findFrom (buffer : Buffer) (kind : TokenKind) : (count position : Nat) → Checked (Option Nat)
  | 0, _ => .ok none
  | count + 1, position => do
    let token ← fetch buffer position
    if token.kind = kind then .ok (some position) else findFrom buffer kind count (position + 1)

def find (buffer : Buffer) (kind : TokenKind) (range : Buffer.Range) : Checked (Option Nat) :=
  findFrom buffer kind range.size range.start

/-- The first among `count` positions where no bracket of the kind is open, if `depth` are open
before them. -/
def closerFrom (buffer : Buffer) (opening closing : TokenKind) :
    (count depth position : Nat) → Checked (Option Nat)
  | 0, _, _ => .ok none
  | count + 1, depth, position => do
    let token ← fetch buffer position
    let depth ←
      if token.kind = opening then .ok (depth + 1)
      else if token.kind = closing then before depth
      else .ok depth
    if depth = 0 then .ok (some position)
    else closerFrom buffer opening closing count depth (position + 1)

def closer (buffer : Buffer) (opening bound : Nat) : Checked (Option Nat) :=
  match buffer.token? opening with
  | none => .ok none
  | some token =>
    match token.kind.closing? with
    | none => .ok none
    | some closing =>
      closerFrom buffer token.kind closing (min bound buffer.size - opening) 0 opening

/-- The position after the names and numbers that stand at a position. -/
def operandsEnd (buffer : Buffer) : (steps position stop : Nat) → Checked Nat
  | 0, _, _ => .error .outOfSteps
  | steps + 1, position, stop =>
    if buffer.peek .identifier position stop || buffer.peek .number position stop then
      operandsEnd buffer steps (position + 1) stop
    else .ok position

def primaryEnd (buffer : Buffer) (steps : Nat) (range : Buffer.Range) : Checked (Option Nat) :=
  if buffer.peek .openParen range.start range.stop then do
    let closing? ← closer buffer range.start range.stop
    .ok (closing?.map (· + 1))
  else if buffer.peek .identifier range.start range.stop &&
      buffer.peek .openParen (range.start + 1) range.stop then do
    let closing? ← closer buffer (range.start + 1) range.stop
    .ok (closing?.map (· + 1))
  else do
    let position ← operandsEnd buffer steps range.start range.stop
    .ok (some position)

def expressionEndFrom (buffer : Buffer) : (steps position stop : Nat) → Checked (Option Nat)
  | 0, _, _ => .error .outOfSteps
  | steps + 1, position, stop =>
    if position < stop then do
      let primary? ← primaryEnd buffer steps (buffer.range position stop)
      match primary? with
      | none => .ok none
      | some position =>
        match consume buffer .operator position stop with
        | .ok (_, position) => expressionEndFrom buffer steps position stop
        | .error (.rejected _) => .ok (some position)
        | .error halt => .error halt
    else .ok (some position)

def expressionEnd (buffer : Buffer) (steps : Nat) (range : Buffer.Range) : Checked (Option Nat) :=
  expressionEndFrom buffer steps range.start range.stop

end Checked

namespace Reading

theorem startsWith_cons (kind : TokenKind) (token : Token) (rest : List Token) :
    startsWith kind (token :: rest) = decide (token.kind = kind) := rfl

theorem startsWith_iff {kind : TokenKind} {tokens : List Token} :
    startsWith kind tokens = true ↔ ∃ token rest, tokens = token :: rest ∧ token.kind = kind := by
  cases tokens with
  | nil => simp [startsWith]
  | cons token rest => simp [startsWith]

theorem closer?_lt {opening closing : TokenKind} {depth count : Nat} {tokens : List Token}
    (h : closer? opening closing depth tokens = some count) : count < tokens.length := by
  have hnext {depth count : Nat} {token : Token} {rest : List Token}
      (ih : ∀ {count}, closer? opening closing depth rest = some count → count < rest.length)
      (h : (closer? opening closing depth rest).map (· + 1) = some count) :
      count < (token :: rest).length := by
    obtain ⟨inner, hi, rfl⟩ := Option.map_eq_some_iff.mp h
    exact Nat.succ_lt_succ (ih hi)
  induction tokens generalizing depth count with
  | nil => simp [closer?] at h
  | cons token rest ih =>
    cases depth <;> simp only [closer?] at h <;> split at h
    · exact hnext ih h
    · split at h
      · cases h
        exact Nat.succ_pos _
      · exact hnext ih h
    · exact hnext ih h
    · split at h
      · exact hnext ih h
      · exact hnext ih h

/-- A primary takes no more tokens than there are. -/
theorem primaryEnd?_le {tokens : List Token} {count : Nat} (h : primaryEnd? tokens = some count) :
    count ≤ tokens.length := by
  cases operandStart tokens with
  | nothing =>
    cases h
    exact Nat.le_refl 0
  | group hg =>
    rw [primaryEnd?_group _ hg] at h
    obtain ⟨inner, hi, rfl⟩ := Option.map_eq_some_iff.mp h
    exact Nat.succ_le_succ (closer?_lt hi)
  | call hn ho =>
    rw [primaryEnd?_call _ hn ho] at h
    obtain ⟨inner, hi, rfl⟩ := Option.map_eq_some_iff.mp h
    exact Nat.succ_le_succ (Nat.succ_le_succ (closer?_lt hi))
  | plain hp =>
    rw [hp] at h
    cases h
    exact (List.takeWhile_prefix _).length_le

/-- Nor does an expression. -/
theorem expressionEnd?_le {tokens : List Token} {count : Nat}
    (h : expressionEnd? tokens = some count) : count ≤ tokens.length := by
  fun_induction expressionEnd? tokens generalizing count with
  | case1 =>
    cases h
    exact Nat.le_refl 0
  | case2 token rest hp => cases h
  | case3 token rest inner hp ho ih =>
    obtain ⟨more, hm, rfl⟩ := Option.map_eq_some_iff.mp h
    have hle := ih hm
    have hinner : inner < (token :: rest).length := by
      refine Nat.lt_of_not_le fun hge => ?_
      rw [List.drop_of_length_le hge] at ho
      cases ho
    rw [List.length_drop] at hle
    rw [List.length_cons] at hinner ⊢
    omega
  | case4 token rest inner hp ho =>
    cases h
    exact primaryEnd?_le hp

end Reading

/-! ## Windows -/

/-- The tokens stand from one position up to another. -/
structure Buffer.Window (buffer : Buffer) (start stop : Nat) (tokens : List Token) : Prop where
  start_le : start ≤ stop
  stop_le : stop ≤ buffer.size
  slice_eq : buffer.slice start stop = tokens

namespace Buffer

theorem window (buffer : Buffer) {start stop : Nat} (h : start ≤ stop) (hs : stop ≤ buffer.size) :
    buffer.Window start stop (buffer.slice start stop) := ⟨h, hs, rfl⟩

/-- A bound past the last token is none. -/
theorem slice_min (buffer : Buffer) (start bound : Nat) :
    buffer.slice start (min bound buffer.size) = buffer.slice start bound := by
  rw [slice, slice, size, ← List.take_eq_take_min]

/-- The next token is the first of those that are left before the bound. -/
theorem head?_slice (buffer : Buffer) (start stop : Nat) :
    (buffer.slice start stop).head? = if start < stop then buffer.token? start else none := by
  rw [slice, List.head?_drop, List.getElem?_take, token?]

theorem slice_cons {buffer : Buffer} {start stop : Nat} {token : Token}
    (ht : buffer.token? start = some token) (h : start < stop) :
    buffer.slice start stop = token :: buffer.slice (start + 1) stop := by
  have hhead : (buffer.slice start stop).head? = some token := by
    rw [head?_slice, if_pos h, ht]
  obtain ⟨rest, hrest⟩ := List.head?_eq_some_iff.mp hhead
  have htail : (buffer.slice start stop).drop 1 = buffer.slice (start + 1) stop := by
    rw [slice, slice, List.drop_drop]
  rw [hrest, ← htail, hrest, List.drop_one, List.tail_cons]

end Buffer

namespace Buffer.Window
variable {buffer : Buffer} {start stop : Nat} {tokens : List Token}

theorem length_eq (h : buffer.Window start stop tokens) : start + tokens.length = stop := by
  have hstart := h.start_le
  have hstop := h.stop_le
  have hlength : tokens.length = min stop buffer.size - start := by
    rw [← h.slice_eq, Buffer.slice, List.length_drop, List.length_take, Buffer.size]
  omega

/-- Complaints about the first token are placed at the start. -/
theorem stop_sub (h : buffer.Window start stop tokens) : stop - tokens.length = start := by
  have hlength := h.length_eq
  omega

theorem range_start (h : buffer.Window start stop tokens) :
    (buffer.range start stop).start = start := by
  have hstart := h.start_le
  have hstop := h.stop_le
  simp only [Buffer.range]
  omega

theorem range_stop (h : buffer.Window start stop tokens) :
    (buffer.range start stop).stop = stop := by
  have hstop := h.stop_le
  simp only [Buffer.range]
  omega

theorem tokensOf_range (h : buffer.Window start stop tokens) :
    buffer.tokensOf (buffer.range start stop) = tokens := by
  rw [Buffer.tokensOf, h.range_start, h.range_stop, h.slice_eq]

theorem drop (h : buffer.Window start stop tokens) {count : Nat} (hc : count ≤ tokens.length) :
    buffer.Window (start + count) stop (tokens.drop count) := by
  have hlength := h.length_eq
  refine ⟨by omega, h.stop_le, ?_⟩
  rw [← h.slice_eq, Buffer.slice, Buffer.slice, List.drop_drop]

theorem take (h : buffer.Window start stop tokens) {count : Nat} (hc : count ≤ tokens.length) :
    buffer.Window start (start + count) (tokens.take count) := by
  have hlength := h.length_eq
  have hstop := h.stop_le
  refine ⟨by omega, by omega, ?_⟩
  rw [← h.slice_eq, Buffer.slice, Buffer.slice, List.take_drop, List.take_take]
  congr 2
  omega

theorem start_lt {token : Token} {rest : List Token}
    (h : buffer.Window start stop (token :: rest)) : start < stop := by
  have hlength := h.length_eq
  rw [List.length_cons] at hlength
  omega

theorem tail {token : Token} {rest : List Token} (h : buffer.Window start stop (token :: rest)) :
    buffer.Window (start + 1) stop rest := h.drop (Nat.succ_le_of_lt (Nat.succ_pos rest.length))

theorem token?_eq {token : Token} {rest : List Token}
    (h : buffer.Window start stop (token :: rest)) : buffer.token? start = some token := by
  have hhead : (buffer.slice start stop)[0]? = some token := by rw [h.slice_eq]; rfl
  rw [Buffer.slice, List.getElem?_drop, Nat.add_zero, List.getElem?_take_of_lt h.start_lt] at hhead
  exact hhead

theorem nil_eq (h : buffer.Window start stop []) : start = stop := h.length_eq

theorem not_lt (h : buffer.Window start stop []) : ¬ start < stop :=
  Nat.not_lt_of_le (Nat.le_of_eq h.nil_eq.symm)

theorem peek_eq (h : buffer.Window start stop tokens) (kind : TokenKind) :
    buffer.peek kind start stop = Reading.startsWith kind tokens := by
  cases tokens with
  | nil =>
    have hstop := h.nil_eq
    simp [Buffer.peek, hstop, Reading.startsWith]
  | cons token rest =>
    have htoken := h.token?_eq
    have hlt := h.start_lt
    obtain ⟨more, hmore⟩ : ∃ more, buffer.tokens.drop start = token :: more := by
      rw [← List.head?_eq_some_iff, List.head?_drop]
      exact htoken
    simp [Buffer.peek, hmore, hlt, Reading.startsWith]

theorem peek_iff {token : Token} {rest : List Token} {kind : TokenKind}
    (h : buffer.Window start stop (token :: rest)) :
    buffer.peek kind start stop = true ↔ token.kind = kind := by
  rw [h.peek_eq]
  exact decide_eq_true_iff

theorem range_size (h : buffer.Window start stop tokens) :
    (buffer.range start stop).size = tokens.length := by
  rw [Buffer.Range.size, h.range_start, h.range_stop, ← h.length_eq, Nat.add_sub_cancel_left]

end Buffer.Window

namespace Buffer

theorem slice_append (buffer : Buffer) {start stop bound : Nat} (hs : start ≤ stop)
    (hb : stop ≤ bound) (hsize : bound ≤ buffer.size) :
    buffer.slice start bound = buffer.slice start stop ++ buffer.slice stop bound := by
  have hwindow := buffer.window (Nat.le_trans hs hb) hsize
  have hlength := hwindow.length_eq
  have hcount : stop - start ≤ (buffer.slice start bound).length := by omega
  have hstop : start + (stop - start) = stop := by omega
  have hfront := (hwindow.take hcount).slice_eq
  have hrest := (hwindow.drop hcount).slice_eq
  rw [hstop] at hfront hrest
  rw [hfront, hrest, List.take_append_drop]

theorem slice_single {buffer : Buffer} {position : Nat} {token : Token}
    (ht : buffer.token? position = some token) :
    buffer.slice position (position + 1) = [token] := by
  rw [slice_cons ht (Nat.lt_succ_self position), slice,
    List.drop_eq_nil_of_le (List.length_take_le _ _)]

end Buffer

namespace Checked
open Reading

section
variable {buffer : Buffer} {start stop : Nat} {tokens : List Token}

/-! ## What is found -/

theorem fetch_eq {token : Token} {rest : List Token}
    (h : buffer.Window start stop (token :: rest)) : fetch buffer start = .ok token := by
  rw [fetch, h.token?_eq]

theorem consume_found {token : Token} {rest : List Token} {kind : TokenKind}
    (h : buffer.Window start stop (token :: rest)) (hk : token.kind = kind) :
    consume buffer kind start stop = .ok (token, start + 1) := by
  rw [consume, if_neg (Nat.not_le_of_lt h.start_lt), fetch_eq h, ok_bind, if_pos hk]

theorem consume_missing {kind : TokenKind} (h : buffer.Window start stop tokens)
    (hk : startsWith kind tokens = false) :
    consume buffer kind start stop = reject buffer (.token kind) start := by
  cases tokens with
  | nil => rw [consume, if_pos (Nat.le_of_eq h.nil_eq.symm)]
  | cons token rest =>
    have hkind : token.kind ≠ kind := by simpa [startsWith] using hk
    rw [consume, if_neg (Nat.not_le_of_lt h.start_lt), fetch_eq h, ok_bind, if_neg hkind]

theorem consume_other {token : Token} {rest : List Token} {kind : TokenKind}
    (h : buffer.Window start stop (token :: rest)) (hk : token.kind ≠ kind) :
    consume buffer kind start stop = reject buffer (.token kind) start :=
  consume_missing h (by simpa [startsWith] using hk)

theorem findFrom_eq (h : buffer.Window start stop tokens) (kind : TokenKind) :
    findFrom buffer kind tokens.length start =
      .ok ((tokens.findIdx? fun token => token.kind = kind).map (start + ·)) := by
  induction tokens generalizing start with
  | nil => rfl
  | cons token rest ih =>
    rw [List.length_cons, findFrom, fetch_eq h, ok_bind, List.findIdx?_cons]
    by_cases hk : token.kind = kind
    · simp [hk]
    · simp [hk, ih h.tail, Function.comp_def, Nat.add_assoc, Nat.add_comm 1]

theorem find_eq (h : buffer.Window start stop tokens) (kind : TokenKind) :
    find buffer kind (buffer.range start stop) =
      .ok ((tokens.findIdx? fun token => token.kind = kind).map (start + ·)) := by
  rw [find, h.range_size, h.range_start, findFrom_eq h]

/-- Behind an opening bracket the depth never falls below one before the search is over. -/
theorem closerFrom_eq (h : buffer.Window start stop tokens) (opening closing : TokenKind)
    (depth : Nat) :
    closerFrom buffer opening closing tokens.length (depth + 1) start =
      .ok ((Reading.closer? opening closing depth tokens).map (start + ·)) := by
  induction tokens generalizing start depth with
  | nil => rfl
  | cons token rest ih =>
    rw [List.length_cons, closerFrom, fetch_eq h, ok_bind]
    have hnext (depth : Nat) := ih h.tail depth
    by_cases ho : token.kind = opening
    · simp [ho, Reading.closer?, hnext, Function.comp_def, Nat.add_assoc, Nat.add_comm 1]
    by_cases hc : token.kind = closing
    · subst hc
      cases depth with
      | zero => simp [ho, Reading.closer?, before]
      | succ depth =>
        simp [ho, Reading.closer?, before, hnext, Function.comp_def, Nat.add_assoc, Nat.add_comm 1]
    · simp [ho, hc, Reading.closer?, hnext, Function.comp_def, Nat.add_assoc, Nat.add_comm 1]

/-- The search for a closing bracket never takes a token past the last one and never counts below
zero, wherever it begins. -/
theorem closer_eq (buffer : Buffer) (opening bound : Nat) :
    closer buffer opening bound = .ok (buffer.closer? opening bound) := by
  unfold closer Buffer.closer?
  cases ht : buffer.token? opening with
  | none => rfl
  | some token =>
    cases hc : token.kind.closing? with
    | none => simp [hc]
    | some closing =>
      simp only [hc, Option.bind_eq_bind, Option.bind_some]
      rw [← Buffer.slice_min]
      by_cases hlt : opening < min bound buffer.size
      · have hwindow := buffer.window (Nat.le_of_lt hlt) (Nat.min_le_right bound buffer.size)
        rw [Buffer.slice_cons ht hlt] at hwindow
        have hcount : min bound buffer.size - opening =
            (buffer.slice (opening + 1) (min bound buffer.size)).length + 1 := by
          have hlength := hwindow.length_eq
          rw [List.length_cons] at hlength
          omega
        have hnext := closerFrom_eq hwindow.tail token.kind closing 0
        rw [hcount, closerFrom, fetch_eq hwindow, ok_bind, if_pos rfl, ok_bind]
        refine (if_neg (Nat.succ_ne_zero 0)).trans (hnext.trans ?_)
        cases Reading.closer? token.kind closing 0 _ <;> rfl
      · have hnone : buffer.slice (opening + 1) (min bound buffer.size) = [] := by
          rw [Buffer.slice, List.drop_eq_nil_iff, List.length_take]
          omega
        rw [Nat.sub_eq_zero_of_le (Nat.le_of_not_lt hlt), hnone]
        rfl

/-- Brackets in a window are closed in it. -/
theorem closer_window {token : Token} {rest : List Token} {closing : TokenKind}
    (h : buffer.Window start stop (token :: rest)) (hc : token.kind.closing? = some closing) :
    closer buffer start stop =
      .ok ((Reading.closer? token.kind closing 0 rest).map (start + 1 + ·)) := by
  simp only [closer_eq, Buffer.closer?, h.token?_eq, hc, h.tail.slice_eq, Option.bind_eq_bind,
    Option.bind_some]
  cases Reading.closer? token.kind closing 0 rest <;> rfl

theorem operandsEnd_eq (h : buffer.Window start stop tokens) {steps : Nat}
    (hs : tokens.length < steps) :
    operandsEnd buffer steps start stop = .ok (start + (tokens.takeWhile isOperand).length) := by
  induction tokens generalizing start steps with
  | nil =>
    obtain ⟨steps, rfl⟩ := Nat.exists_eq_add_of_lt hs
    rw [operandsEnd, h.peek_eq, h.peek_eq]
    rfl
  | cons token rest ih =>
    cases steps with
    | zero => cases hs
    | succ steps =>
      rw [operandsEnd, h.peek_eq, h.peek_eq]
      have hfirst : (startsWith .identifier (token :: rest) || startsWith .number (token :: rest)) =
          isOperand token := rfl
      rw [hfirst, List.takeWhile_cons]
      cases isOperand token with
      | false => rfl
      | true =>
        have hnext := ih h.tail (Nat.lt_of_succ_lt_succ hs)
        simp [hnext, Nat.add_assoc, Nat.add_comm 1]

theorem primaryEnd_eq (h : buffer.Window start stop tokens) {steps : Nat}
    (hs : tokens.length < steps) :
    primaryEnd buffer steps (buffer.range start stop) =
      .ok ((Reading.primaryEnd? tokens).map (start + ·)) := by
  rw [primaryEnd, h.range_start, h.range_stop, h.peek_eq, h.peek_eq, operandsEnd_eq h hs]
  cases tokens with
  | nil => rfl
  | cons token rest =>
    rw [h.tail.peek_eq]
    by_cases hg : token.kind = .openParen
    · have hclosing : token.kind.closing? = some .closeParen := by rw [hg]; rfl
      rw [closer_window h hclosing, primaryEnd?_group rest hg, parenCloser?, hg]
      simp [startsWith, hg, Function.comp_def, Nat.add_assoc, Nat.add_comm 1]
    · by_cases hc : token.kind = .identifier ∧ startsWith .openParen rest = true
      · cases rest with
        | nil => cases hc.2
        | cons opening more =>
          have ho : opening.kind = .openParen := by simpa [startsWith] using hc.2
          have hclosing : opening.kind.closing? = some .closeParen := by rw [ho]; rfl
          rw [closer_window h.tail hclosing, primaryEnd?_call more hc.1 ho, parenCloser?, ho]
          cases Reading.closer? .openParen .closeParen 0 more with
          | none => simp [startsWith, hc.1, ho]
          | some count =>
            simp [startsWith, hc.1, ho]
            omega
      · simp [startsWith_cons, primaryEnd?, hg, hc]

/-- The search for an end needs a step for each token, and two more. -/
theorem expressionEndFrom_eq (h : buffer.Window start stop tokens) {steps : Nat}
    (hs : tokens.length + 1 < steps) :
    expressionEndFrom buffer steps start stop =
      .ok ((Reading.expressionEnd? tokens).map (start + ·)) := by
  induction steps generalizing start tokens with
  | zero => cases hs
  | succ steps ih =>
    cases tokens with
    | nil =>
      rw [expressionEndFrom, if_neg h.not_lt, Reading.expressionEnd?]
      rfl
    | cons token rest =>
      rw [expressionEndFrom, if_pos h.start_lt, primaryEnd_eq h (Nat.lt_of_succ_lt_succ hs),
        ok_bind, Reading.expressionEnd?]
      cases hp : Reading.primaryEnd? (token :: rest) with
      | none => rfl
      | some count =>
        have hrest := h.drop (primaryEnd?_le hp)
        cases ho : startsWith .operator ((token :: rest).drop count) with
        | false =>
          simp [consume_missing hrest ho, reject, ho]
        | true =>
          obtain ⟨operator, more, hmore, hk⟩ := startsWith_iff.mp ho
          rw [hmore] at hrest
          have hdrop : rest.drop count = more := by
            rw [← List.drop_succ_cons (a := token), ← List.tail_drop, hmore, List.tail_cons]
          have hlength : more.length ≤ rest.length := by
            rw [← hdrop, List.length_drop]
            exact Nat.sub_le _ _
          have hnext := ih hrest.tail (by rw [List.length_cons] at hs; omega)
          simp only [Option.map_some, consume_found hrest hk, hnext, hdrop, if_pos ho]
          cases Reading.expressionEnd? more with
          | none => rfl
          | some others => simp [Nat.add_assoc]

/-! ## Complaints -/

/-- What a reader gives on the tokens before position `stop`, which is all that reading with checks
may give. -/
def settled {α : Type} (buffer : Buffer) (stop : Nat) (reading : Reading α) : Checked α :=
  (buffer.settle stop reading).mapError .rejected

@[simp] theorem settled_ok {α : Type} (a : α) : settled buffer stop (.ok a) = .ok a := rfl

theorem settled_error {α : Type} (demand : Demand) (left : Nat) :
    settled (α := α) buffer stop (.error ⟨demand, left⟩) = reject buffer demand (stop - left) := rfl

theorem settled_bind {α β : Type} (reading : Reading α) (next : α → Reading β) :
    settled buffer stop (reading >>= next) =
      settled buffer stop reading >>= fun a => settled buffer stop (next a) := by
  cases reading <;> rfl

/-- The first part of a window is read as a window of its own. -/
theorem settled_front {α : Type} (h : buffer.Window start stop tokens) {count : Nat}
    (hc : count ≤ tokens.length) (reading : Reading α) :
    settled buffer stop (reading.followedBy (tokens.length - count)) =
      settled buffer (start + count) reading := by
  cases reading with
  | ok a => rfl
  | error complaint =>
    have hlength := h.length_eq
    have hplace : stop - (complaint.left + (tokens.length - count)) =
        start + count - complaint.left := by omega
    show reject buffer _ _ = reject buffer _ _
    rw [hplace]

/-- What is missing at the front of a window is missing at its start. -/
theorem settled_here {α : Type} (h : buffer.Window start stop tokens) (demand : Demand) :
    settled (α := α) buffer stop (.error ⟨demand, tokens.length⟩) = reject buffer demand start := by
  rw [settled_error, h.stop_sub]

end
end Checked
end FrontEnd
