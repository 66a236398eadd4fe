import Mathlib
import FrontEnd.Proofs.CheckedBodies
import FrontEnd.Proofs.Composition

/-! # Reading programs with checks

Function heads, functions and whole programs, read by position. With the searches and the readers of
expressions and bodies this makes the whole reader of programs. Whatever the tokens are, it passes
all its checks and gives what the readers of lists give. Chains of calls and rounds have at most
four links for each token, and five more, so reading ends. -/
namespace FrontEnd
namespace Checked

def parametersFrom (buffer : Buffer) : (steps position bound : Nat) →
    Checked (List Parameter × Nat)
  | 0, _, _ => .error .outOfSteps
  | steps + 1, position, bound => do
    let (type, position) ← consume buffer .identifier position bound
    let (name, position) ← consume buffer .identifier position bound
    let parameter : Parameter := ⟨type.text, name.text, name.span⟩
    if buffer.peek .comma position bound then
      let (others, position) ← parametersFrom buffer steps (position + 1) bound
      .ok (parameter :: others, position)
    else .ok ([parameter], position)

def parameterList (buffer : Buffer) (steps position bound : Nat) :
    Checked (List Parameter × Nat) :=
  if buffer.peek .identifier position bound then parametersFrom buffer steps position bound
  else .ok ([], position)

def returnType (buffer : Buffer) (position bound : Nat) : Checked (String × Nat) :=
  if buffer.peek .arrow position bound then do
    let (type, position) ← consume buffer .identifier (position + 1) bound
    .ok (type.text, position)
  else .ok ("void", position)

def signature (buffer : Buffer) (steps start bound : Nat) : Checked (Signature × Nat) := do
  let (_, position) ← consume buffer .fnKeyword start bound
  let (name, position) ← consume buffer .identifier position bound
  let (_, position) ← consume buffer .openParen position bound
  let (parameters, position) ← parameterList buffer steps position bound
  let (_, position) ← consume buffer .closeParen position bound
  let (type, position) ← returnType buffer position bound
  .ok (⟨name.text, parameters, type, name.span⟩, position)

def definition (buffer : Buffer) (steps start : Nat) : Checked (Definition × Nat) := do
  let (signature, position) ← signature buffer steps start buffer.size
  let (body, position) ← block buffer steps position buffer.size
  .ok (⟨signature, body⟩, position)

def external (buffer : Buffer) (steps start : Nat) : Checked (Signature × Nat) := do
  let (_, position) ← consume buffer .externKeyword start buffer.size
  let semicolon? ← find buffer .semicolon (buffer.range position buffer.size)
  match semicolon? with
  | none => reject buffer .externalEnd start
  | some semicolon =>
    let (head, next) ← signature buffer steps position semicolon
    if next = semicolon then .ok (head, semicolon + 1)
    else
      let found := ((buffer.token? next).map (·.kind)).getD .semicolon
      .error (.rejected ⟨.unexpectedToken .semicolon found, buffer.spanAt next, none⟩)

def programFrom (buffer : Buffer) : (steps position : Nat) → Checked Program
  | 0, _ => .error .outOfSteps
  | steps + 1, position =>
    if position < buffer.size then
      if buffer.peek .externKeyword position buffer.size then do
        let (head, next) ← external buffer steps position
        let more ← programFrom buffer steps next
        .ok (more.declare head)
      else if buffer.peek .fnKeyword position buffer.size then do
        let (definition, next) ← definition buffer steps position
        let more ← programFrom buffer steps next
        .ok (more.define definition)
      else do
        let token ← fetch buffer position
        .error (.rejected ⟨.unexpectedToken .fnKeyword token.kind, buffer.spanAt position, none⟩)
    else .ok .empty

end Checked

/-! ## Heads -/

namespace Reading

/-- Parameters are read token by token. -/
theorem parameters_eq_expect (tokens : List Token) : parameters tokens = (do
    let (type, rest) ← expect .identifier tokens
    let (name, rest) ← expect .identifier rest
    let parameter : Parameter := ⟨type.text, name.text, name.span⟩
    if startsWith .comma rest then do
      let (others, rest) ← parameters rest.tail
      .ok (parameter :: others, rest)
    else .ok ([parameter], rest)) := by
  cases tokens with
  | nil => rfl
  | cons type named =>
    by_cases ht : type.kind = .identifier
    · cases named with
      | nil =>
        simp [parameters, expect, ht]
        rfl
      | cons name rest =>
        by_cases hn : name.kind = .identifier
        · cases rest <;> simp [parameters, expect, ht, hn, startsWith]
        · simp [parameters, expect, ht, hn]
          rfl
    · cases named <;> simp [parameters, expect, ht] <;> rfl

/-- What parameters leave is the end of what they are read from. -/
theorem parameterList_rest {tokens rest : List Token} {given : List Parameter}
    (h : parameterList tokens = .ok (given, rest)) : ∃ front, tokens = front ++ rest := by
  unfold parameterList at h
  split at h
  · obtain ⟨front, ht, -⟩ := parameters_eq_ok_iff.mp h
    exact ⟨front, ht⟩
  · cases h
    exact ⟨[], rfl⟩

end Reading

namespace Checked

/-- The position at which a rest begins that goes up to `stop`. -/
def placedBefore {α : Type} (stop : Nat) : α × List Token → Checked (α × Nat)
  | (result, rest) => .ok (result, stop - rest.length)

section
variable {buffer : Buffer} {start stop steps : Nat} {tokens : List Token}

theorem parametersFrom_eq (h : buffer.Window start stop tokens) (hs : tokens.length < steps) :
    parametersFrom buffer steps start stop =
      settled buffer stop (Reading.parameters tokens) >>= placedBefore stop := by
  induction steps generalizing start tokens with
  | zero => omega
  | succ steps ih =>
    rw [parametersFrom, Reading.parameters_eq_expect, settled_bind, bind_assoc]
    refine consume_bind h _ fun type named ht _ htype => ?_
    dsimp only
    rw [settled_bind, bind_assoc]
    refine consume_bind htype _ fun name rest hn _ hname => ?_
    subst ht hn
    dsimp only
    rw [hname.peek_eq]
    cases hc : Reading.startsWith .comma rest with
    | false => simp [placedBefore, hname.stop_sub]
    | true =>
      obtain ⟨comma, more, rfl, -⟩ := Reading.startsWith_iff.mp hc
      have hmore := ih hname.tail (by simp only [List.length_cons] at hs; omega)
      simp only [if_true, hmore, List.tail_cons, settled_bind]
      cases Reading.parameters more <;> rfl

theorem parameterList_eq (h : buffer.Window start stop tokens) (hs : tokens.length < steps) :
    parameterList buffer steps start stop =
      settled buffer stop (Reading.parameterList tokens) >>= placedBefore stop := by
  rw [parameterList, h.peek_eq, parametersFrom_eq h hs, Reading.parameterList]
  split
  · rfl
  · simp [placedBefore, h.stop_sub]

theorem returnType_eq (h : buffer.Window start stop tokens) :
    returnType buffer start stop =
      settled buffer stop (Reading.returnType tokens) >>= placedBefore stop := by
  cases tokens with
  | nil =>
    rw [returnType, h.peek_eq, Reading.returnType]
    simp [placedBefore, Reading.startsWith, h.nil_eq]
  | cons first rest =>
    rw [returnType, Reading.returnType]
    by_cases hk : first.kind = .arrow
    · rw [if_pos (h.peek_iff.mpr hk), if_pos hk, settled_bind, bind_assoc]
      refine consume_bind h.tail _ fun type more ht _ hmore => ?_
      simp [placedBefore, hmore.stop_sub]
    · rw [if_neg (mt h.peek_iff.mp hk), if_neg hk, settled_ok, ok_bind, placedBefore, h.stop_sub]

/-- What is left of a window begins where it says. -/
theorem window_rest {front rest : List Token} (h : buffer.Window start stop (front ++ rest)) :
    buffer.Window (stop - rest.length) stop rest := by
  have hlength := h.length_eq
  rw [List.length_append] at hlength
  have hdrop := h.drop (show front.length ≤ (front ++ rest).length by simp)
  rw [List.drop_left] at hdrop
  have hplace : start + front.length = stop - rest.length := by omega
  rwa [hplace] at hdrop

theorem signature_eq (h : buffer.Window start stop tokens) (hs : tokens.length < steps) :
    signature buffer steps start stop =
      settled buffer stop (Reading.signature tokens) >>= placed start := by
  simp only [signature, Reading.signature, Reading.prototype, settled_bind, bind_assoc]
  refine consume_bind h _ fun keyword named hk _ hnamed => ?_
  refine consume_bind hnamed _ fun name opened hn _ hopened => ?_
  refine consume_bind hopened _ fun opening inside ho _ hinside => ?_
  subst hk hn ho
  simp only [List.length_cons] at hs
  dsimp only
  rw [parameterList_eq hinside (by omega)]
  cases hp : Reading.parameterList inside with
  | error complaint => rfl
  | ok result =>
    obtain ⟨given, left⟩ := result
    obtain ⟨front, rfl⟩ := Reading.parameterList_rest hp
    simp only [settled_ok, ok_bind, placedBefore]
    refine consume_bind (window_rest hinside) _ fun closing after hc _ hafter => ?_
    subst hc
    dsimp only
    rw [returnType_eq hafter]
    cases hr : Reading.returnType after with
    | error complaint => rfl
    | ok result =>
      obtain ⟨type, rest⟩ := result
      obtain ⟨arrow, rfl, -⟩ := Reading.returnType_eq_ok_iff.mp hr
      have hlength := hnamed.length_eq
      simp only [List.length_cons, List.length_append] at hlength
      simp [placedBefore, placed]
      omega

/-! ## Functions -/

end
end Checked

namespace Reading

section
variable {tokens : List Token} {count : Nat}

theorem prototype_count {head : Signature} (h : prototype tokens = .ok (head, count)) :
    count ≤ tokens.length := by
  obtain ⟨front, arrow, rest, name, given, type, rfl, -, -, -, -, rfl⟩ := prototype_eq_ok_iff.mp h
  simp only [List.length_append]
  omega

/-- What follows a keyword is counted with it. -/
theorem expect_count {α : Type} {kind : TokenKind} {reader : List Token → Reading (α × Nat)}
    {result : α} (hr : ∀ {rest count}, reader rest = .ok (result, count) → count ≤ rest.length)
    (h : (do
      let (_, rest) ← expect kind tokens
      let (result, count) ← reader rest
      .ok (result, count + 1)) = .ok (result, count)) : 0 < count ∧ count ≤ tokens.length := by
  obtain ⟨⟨keyword, rest⟩, hk, hrest⟩ := bind_eq_ok.mp h
  obtain ⟨⟨inner, found⟩, hi, hresult⟩ := bind_eq_ok.mp hrest
  cases hresult
  obtain ⟨rfl, -⟩ := expect_eq_ok.mp hk
  exact ⟨Nat.succ_pos _, Nat.succ_le_succ (hr hi)⟩

theorem signature_count {head : Signature} (h : signature tokens = .ok (head, count)) :
    0 < count ∧ count ≤ tokens.length := expect_count prototype_count h

theorem external_count {head : Signature} (h : external tokens = .ok (head, count)) :
    0 < count ∧ count ≤ tokens.length :=
  expect_count (fun hr => (externalRest_append hr []).1) h

theorem definition_count {result : Definition} (h : definition tokens = .ok (result, count)) :
    0 < count ∧ count ≤ tokens.length :=
  expect_count (fun hr => (definitionRest_append hr []).1) h

theorem conditional_count {node : Node} (h : conditional tokens = .ok (node, count)) :
    0 < count ∧ count ≤ tokens.length := by
  obtain ⟨⟨keyword, rest⟩, hk, hrest⟩ := bind_eq_ok.mp h
  obtain ⟨⟨condition, inner, otherwise, found⟩, hi, hresult⟩ := bind_eq_ok.mp hrest
  cases hresult
  obtain ⟨rfl, -⟩ := expect_eq_ok.mp hk
  exact ⟨Nat.succ_pos _, Nat.succ_le_succ (branch_count hi)⟩

/-- A function is a head and a body in braces behind it. -/
theorem definition_eq_signature (tokens : List Token) : definition tokens = (do
    let (head, count) ← signature tokens
    let (body, bodyCount) ← block (tokens.drop count)
    .ok (⟨head, body⟩, count + bodyCount)) := by
  cases tokens with
  | nil => rfl
  | cons first rest =>
    by_cases hk : first.kind = .fnKeyword
    · simp only [definition, signature, definitionRest, expect, if_pos hk, ok_bind, bind_assoc,
        List.drop_succ_cons]
      cases prototype rest with
      | error complaint => rfl
      | ok result =>
        simp only [ok_bind]
        cases block (rest.drop result.2) with
        | error complaint => rfl
        | ok inner => simp [Nat.add_right_comm]
    · simp only [definition, signature, expect, if_neg hk]
      rfl

end
end Reading

namespace Checked

section
variable {buffer : Buffer} {start stop steps : Nat} {tokens : List Token}

theorem definition_eq (h : buffer.Window start buffer.size tokens)
    (hs : 4 * tokens.length < steps) :
    definition buffer steps start =
      settled buffer buffer.size (Reading.definition tokens) >>= placed start := by
  rw [definition, Reading.definition_eq_signature, signature_eq h (by omega), settled_bind]
  cases hh : Reading.signature tokens with
  | error complaint => rfl
  | ok result =>
    obtain ⟨head, count⟩ := result
    have hle := (Reading.signature_count hh).2
    have hbody := (readsBodies buffer steps).block (h.drop hle) (by rw [List.length_drop]; omega)
    simp only [settled_ok, ok_bind, placed, hbody, settled_bind]
    cases Reading.block (tokens.drop count) with
    | error complaint => rfl
    | ok inner => simp [placed, Nat.add_assoc]

/-- Where a head ends before the semicolon, there is a token. -/
theorem diagnose_semicolon {position : Nat} (h : position < buffer.size) :
    buffer.diagnose (.token .semicolon) position =
      ⟨.unexpectedToken .semicolon (((buffer.token? position).map (·.kind)).getD .semicolon),
        buffer.spanAt position, none⟩ := by
  have htoken : buffer.token? position = some buffer.tokens[position] :=
    List.getElem?_eq_getElem h
  simp only [Buffer.diagnose, Buffer.causeAt, htoken]
  rfl

theorem external_eq (h : buffer.Window start buffer.size tokens) (hs : tokens.length < steps) :
    external buffer steps start =
      settled buffer buffer.size (Reading.external tokens) >>= placed start := by
  rw [external, Reading.external, settled_bind, bind_assoc]
  refine consume_bind h _ fun keyword rest ht _ hrest => ?_
  subst ht
  rw [List.length_cons] at hs
  dsimp only
  rw [find_eq hrest, ok_bind, settled_bind, Reading.externalRest]
  cases hf : rest.findIdx? fun token => token.kind = .semicolon with
  | none =>
    have hhere := settled_here (α := Signature × Nat) h .externalEnd
    rw [List.length_cons] at hhere
    simp only [Option.map_none, hhere]
    rfl
  | some count =>
    have hlt := (List.findIdx?_eq_some_iff_getElem.mp hf).1
    have hle := Nat.le_of_lt hlt
    have htake : (rest.take count).length = count := List.length_take_of_le hle
    have hhead := signature_eq (hrest.take hle) (show _ < steps by omega)
    simp only [Option.map_some, hhead, settled_bind, settled_front hrest hle]
    cases hread : Reading.signature (rest.take count) with
    | error complaint => rfl
    | ok result =>
      obtain ⟨head, found⟩ := result
      have hfound := (Reading.signature_count hread).2
      simp only [settled_ok, ok_bind, placed, Nat.add_right_inj]
      split
      · simp [Nat.add_assoc, Nat.add_comm 1, placed]
      · rename_i hne
        have hend := hrest.length_eq
        have hplace : buffer.size - (rest.length - found) = start + 1 + found := by omega
        rw [settled_error, hplace, reject, diagnose_semicolon (by omega)]
        rfl

/-! ## Programs -/

theorem programFrom_eq (h : buffer.Window start buffer.size tokens)
    (hs : 4 * tokens.length + 1 < steps) :
    programFrom buffer steps start = settled buffer buffer.size (Reading.program tokens) := by
  induction steps generalizing start tokens with
  | zero => omega
  | succ steps ih =>
    cases tokens with
    | nil =>
      rw [programFrom, if_neg h.not_lt, Reading.program]
      rfl
    | cons first rest =>
      have hnext {count : Nat} (hle : count ≤ rest.length) :
          programFrom buffer steps (start + (count + 1)) =
            settled buffer buffer.size (Reading.program (rest.drop count)) := by
        refine ih (h.drop (Nat.succ_le_succ hle)) ?_
        rw [List.length_cons] at hs
        show 4 * (rest.drop count).length + 1 < steps
        rw [List.length_drop]
        omega
      rw [programFrom, if_pos h.start_lt, Reading.program]
      by_cases hx : first.kind = .externKeyword
      · have hread := external_eq h (show _ < steps by omega)
        rw [Reading.external, Reading.expect, if_pos hx, Reading.ok_bind] at hread
        rw [if_pos (h.peek_iff.mpr hx), if_pos hx, hread, settled_bind, settled_bind]
        cases hr : Reading.externalRest rest with
        | error complaint => rfl
        | ok result =>
          have hmore := hnext (Reading.externalRest_append hr []).1
          simp only [settled_ok, ok_bind, placed, hmore, settled_bind]
      · rw [if_neg (mt h.peek_iff.mp hx), if_neg hx]
        by_cases hk : first.kind = .fnKeyword
        · have hread := definition_eq h (show _ < steps by omega)
          rw [Reading.definition, Reading.expect, if_pos hk, Reading.ok_bind] at hread
          rw [if_pos (h.peek_iff.mpr hk), if_pos hk, hread, settled_bind, settled_bind]
          cases hr : Reading.definitionRest rest with
          | error complaint => rfl
          | ok result =>
            have hmore := hnext (Reading.definitionRest_append hr []).1
            simp only [settled_ok, ok_bind, placed, hmore, settled_bind]
        · have hhere := settled_here (α := Program) h (.token .fnKeyword)
          rw [List.length_cons] at hhere
          rw [if_neg (mt h.peek_iff.mp hk), if_neg hk, hhere, fetch_eq h, ok_bind, reject,
            Buffer.diagnose, Buffer.causeAt, h.token?_eq]

end

end Checked

/-! ## All readers -/

/-- The failure among the reasons to stop. -/
def Buffer.Failure.halt : Buffer.Failure → Halt
  | .rejected diagnostic => .rejected diagnostic
  | .overrun => .pastEnd

namespace Checked

/-- The search passes all checks, and what it finds lies from `low` on and before `high`. -/
structure Finds (search : Checked (Option Nat)) (position? : Option Nat) (low high : Nat) :
    Prop where
  checked : search = .ok position?
  inside : ∀ position, position? = some position → low ≤ position ∧ position < high

/-- Reading passes all checks and gives the result. -/
def Gives {α : Type} (reading : Checked α) (result : Except Diagnostic α) : Prop :=
  reading = result.mapError .rejected

/-- Reading passes all checks and gives the result, with a next position behind the start that is
not past the bound. -/
structure Advances {α : Type} (reading : Checked (α × Nat))
    (result : Except Buffer.Failure (α × Nat)) (start bound : Nat) : Prop where
  checked : reading = result.mapError Buffer.Failure.halt
  contained : result ≠ .error .overrun
  advancing : ∀ read next, result = .ok (read, next) → start < next ∧ next ≤ bound

/-- All that can be looked for or read in a range passes all checks. -/
structure PassesIn (buffer : Buffer) (steps : Nat) (range : Buffer.Range) : Prop where
  find : ∀ kind, Finds (find buffer kind range) (buffer.find? kind range) range.start range.stop
  primaryEnd : Finds (primaryEnd buffer steps range) (buffer.primaryEnd? range) range.start
    (range.stop + 1)
  expressionEnd : Finds (expressionEnd buffer steps range) (buffer.expressionEnd? range) range.start
    (range.stop + 1)
  expression : Gives (expression buffer steps range) (buffer.expression range)
  primary : Gives (primary buffer steps range) (buffer.primary range)
  operators : ∀ left, Gives (operators buffer steps range left) (buffer.operators range left)
  declaration : Gives (declaration buffer steps range) (buffer.declaration range)
  assignment : Gives (assignment buffer steps range) (buffer.assignment range)
  body : Gives (body buffer steps range) (buffer.body range)

section
variable {buffer : Buffer} {start stop bound steps : Nat} {tokens : List Token}

/-- A search that counts positions from `start` on. -/
theorem finds {search : Checked (Option Nat)} {count? : Option Nat} {size : Nat}
    (hs : search = .ok (count?.map (start + ·)))
    (hc : ∀ count, count? = some count → count < size) :
    Finds search (count?.map (start + ·)) start (start + size) := by
  refine ⟨hs, fun position hp => ?_⟩
  obtain ⟨count, hcount, rfl⟩ := Option.map_eq_some_iff.mp hp
  have hlt := hc count hcount
  omega

theorem passesIn_window (h : buffer.Window start stop tokens)
    (hs : 4 * tokens.length + 5 ≤ steps) : PassesIn buffer steps (buffer.range start stop) := by
  have htokens := h.tokensOf_range
  have hexpressions := readsExpressions buffer steps
  constructor
  case find =>
    intro kind
    rw [Buffer.find?, htokens, h.range_start, h.range_stop, ← h.length_eq]
    refine finds (by rw [h.length_eq]; exact find_eq h kind) fun count hc => ?_
    exact (List.findIdx?_eq_some_iff_getElem.mp hc).1
  case primaryEnd =>
    rw [Buffer.primaryEnd?, htokens, h.range_start, h.range_stop, ← h.length_eq, Nat.add_assoc]
    refine finds (by rw [h.length_eq]; exact primaryEnd_eq h (by omega)) fun count hc => ?_
    exact Nat.lt_succ_of_le (Reading.primaryEnd?_le hc)
  case expressionEnd =>
    rw [Buffer.expressionEnd?, expressionEnd, htokens, h.range_start, h.range_stop, ← h.length_eq,
      Nat.add_assoc]
    refine finds (by rw [h.length_eq]; exact expressionEndFrom_eq h (by omega)) fun count hc => ?_
    exact Nat.lt_succ_of_le (Reading.expressionEnd?_le hc)
  case expression =>
    rw [Buffer.expression, htokens, h.range_stop]
    exact hexpressions.expression h (by omega)
  case primary =>
    rw [Buffer.primary, htokens, h.range_stop]
    exact hexpressions.primary h (by omega)
  case operators =>
    intro left
    rw [Buffer.operators, htokens, h.range_stop]
    exact hexpressions.operators h (by omega) left
  case declaration =>
    rw [Buffer.declaration, htokens, h.range_stop]
    exact declaration_eq h (by omega)
  case assignment =>
    rw [Buffer.assignment, htokens, h.range_stop]
    exact assignment_eq h (by omega)
  case body =>
    rw [Buffer.body, htokens, h.range_stop]
    exact (readsBodies buffer steps).body h (by omega)

theorem range_self (buffer : Buffer) (start stop : Nat) :
    buffer.range (buffer.range start stop).start (buffer.range start stop).stop =
      buffer.range start stop := by
  simp only [Buffer.range, Buffer.Range.mk.injEq]
  omega

theorem passesIn (buffer : Buffer) (start stop : Nat) (hs : 4 * buffer.size + 5 ≤ steps) :
    PassesIn buffer steps (buffer.range start stop) := by
  have hstop : (buffer.range start stop).stop ≤ buffer.size := Nat.min_le_right _ _
  have hwindow := buffer.window (buffer.range start stop).start_le_stop hstop
  have hlength := hwindow.length_eq
  rw [← range_self]
  exact passesIn_window hwindow (by omega)

theorem advances_rejected {α : Type} (diagnostic : Diagnostic) :
    Advances (α := α) (.error (.rejected diagnostic)) (.error (.rejected diagnostic)) start
      bound := by
  refine ⟨rfl, ?_, ?_⟩
  · intro h
    cases h
  · intro read next h
    cases h

/-- The positions that a reader gives below a bound that lies in the buffer. -/
theorem advances {α : Type} {reader : List Token → Reading (α × Nat)} {reading : Checked (α × Nat)}
    {kind : TokenKind} (hb : bound ≤ buffer.size)
    (hempty : reader [] = .error ⟨.token kind, 0⟩)
    (hpast : bound ≤ start → reading = reject buffer (.token kind) start)
    (hread : ∀ {tokens}, buffer.Window start bound tokens →
      reading = settled buffer bound (reader tokens) >>= placed start)
    (hcount : ∀ {tokens result count}, reader tokens = .ok (result, count) →
      0 < count ∧ count ≤ tokens.length) :
    Advances reading (buffer.readUpTo start bound reader) start bound := by
  by_cases hle : start ≤ bound
  · have hwindow := buffer.window hle hb
    have hlength := hwindow.length_eq
    rw [hread hwindow, Buffer.readUpTo]
    cases hr : reader (buffer.slice start bound) with
    | ok result =>
      obtain ⟨read, count⟩ := result
      obtain ⟨hpos, hmost⟩ := hcount hr
      refine ⟨rfl, ?_, ?_⟩
      · intro h
        cases h
      · intro other next h
        cases h
        omega
    | error complaint =>
      have hplace : start + (buffer.slice start bound).length - complaint.left =
          bound - complaint.left := by omega
      have hinside : ¬ (bound - complaint.left < bound ∧ buffer.size ≤ bound - complaint.left) := by
        omega
      simp only [hplace, Bool.and_eq_true, decide_eq_true_eq, if_neg hinside]
      exact advances_rejected _
  · have hnone : buffer.slice start bound = [] := by
      rw [Buffer.slice, List.drop_eq_nil_iff, List.length_take]
      omega
    have hinside : ¬ (start < bound ∧ buffer.size ≤ start) := by omega
    rw [hpast (by omega), Buffer.readUpTo]
    simp only [hnone, hempty, List.length_nil, Nat.add_zero, Nat.sub_zero, Bool.and_eq_true,
      decide_eq_true_eq, if_neg hinside]
    exact advances_rejected _

/-- A closing bracket is found behind the opening one, before the bound and in the buffer. -/
theorem closer_finds (buffer : Buffer) (opening bound : Nat) :
    Finds (closer buffer opening bound) (buffer.closer? opening bound) (opening + 1)
      (min bound buffer.size) := by
  refine ⟨closer_eq buffer opening bound, fun position hp => ?_⟩
  simp only [Buffer.closer?, Option.bind_eq_bind, Option.bind_eq_some_iff, Option.some.injEq] at hp
  obtain ⟨token, -, closing, -, count, hcount, rfl⟩ := hp
  have hlt := Reading.closer?_lt hcount
  rw [Buffer.slice, List.length_drop, List.length_take] at hlt
  rw [Buffer.size]
  omega

theorem conditional_advances (hs : 4 * buffer.size + 2 < steps) (hb : bound ≤ buffer.size) :
    Advances (conditional buffer steps start bound) (buffer.conditional start bound) start
      bound := by
  refine advances hb rfl (fun hpast => ?_) (fun hwindow => ?_) Reading.conditional_count
  · obtain ⟨rounds, rfl⟩ : ∃ n, steps = n + 1 := ⟨steps - 1, by omega⟩
    rw [conditional, consume, if_pos hpast]
    rfl
  · have hlength := hwindow.length_eq
    exact (readsBodies buffer steps).conditional hwindow (by omega)

theorem signature_advances (hs : buffer.size < steps) (hb : bound ≤ buffer.size) :
    Advances (signature buffer steps start bound) (buffer.signature start bound) start bound := by
  refine advances hb rfl (fun hpast => ?_) (fun hwindow => ?_) Reading.signature_count
  · rw [signature, consume, if_pos hpast]
    rfl
  · have hlength := hwindow.length_eq
    exact signature_eq hwindow (by omega)

theorem definition_advances (hs : 4 * buffer.size < steps) :
    Advances (definition buffer steps start) (buffer.definition start) start buffer.size := by
  refine advances (Nat.le_refl _) rfl (fun hpast => ?_) (fun hwindow => ?_) Reading.definition_count
  · rw [definition, signature, consume, if_pos hpast]
    rfl
  · have hlength := hwindow.length_eq
    exact definition_eq hwindow (by omega)

theorem external_advances (hs : buffer.size < steps) :
    Advances (external buffer steps start) (buffer.external start) start buffer.size := by
  refine advances (Nat.le_refl _) rfl (fun hpast => ?_) (fun hwindow => ?_) Reading.external_count
  · rw [external, consume, if_pos hpast]
    rfl
  · have hlength := hwindow.length_eq
    exact external_eq hwindow (by omega)

end
end Checked

/-- Reading any tokens by position ends, fetches no token past the last one and counts nothing below
zero, wherever it begins. It gives what is read from lists, and every position that it gives lies
where it should. -/
theorem Checked.reads_everywhere (buffer : Buffer) {steps : Nat}
    (hs : 4 * buffer.size + 5 ≤ steps) :
    (∀ start stop, PassesIn buffer steps (buffer.range start stop)) ∧
      (∀ opening bound, Finds (closer buffer opening bound) (buffer.closer? opening bound)
        (opening + 1) (min bound buffer.size)) ∧
      (∀ start bound, bound ≤ buffer.size →
        Advances (conditional buffer steps start bound) (buffer.conditional start bound) start
          bound ∧
        Advances (signature buffer steps start bound) (buffer.signature start bound) start bound) ∧
      (∀ start,
        Advances (definition buffer steps start) (buffer.definition start) start buffer.size ∧
        Advances (external buffer steps start) (buffer.external start) start buffer.size) ∧
      Gives (programFrom buffer steps 0) (Program.ofTokens buffer.tokens) := by
  refine ⟨fun start stop => passesIn buffer start stop hs, closer_finds buffer, ?_, ?_, ?_⟩
  · intro start bound hb
    exact ⟨conditional_advances (by omega) hb, signature_advances (by omega) hb⟩
  · intro start
    exact ⟨definition_advances (by omega), external_advances (by omega)⟩
  · have hwindow : buffer.Window 0 buffer.size buffer.tokens :=
      ⟨Nat.zero_le _, Nat.le_refl _, List.take_length⟩
    have hlength := hwindow.length_eq
    exact programFrom_eq hwindow (by omega)

/-- A function that is cut off in a call, and keywords where none may stand. -/
def Buffer.jumbled : Buffer where
  tokens := [⟨.fnKeyword, "fn", ⟨1, 0, 2⟩⟩, ⟨.identifier, "f", ⟨1, 3, 4⟩⟩,
    ⟨.openParen, "(", ⟨1, 4, 5⟩⟩, ⟨.closeParen, ")", ⟨1, 5, 6⟩⟩, ⟨.openCurly, "\x7b", ⟨1, 7, 8⟩⟩,
    ⟨.number, "1", ⟨1, 9, 10⟩⟩, ⟨.operator, "+", ⟨1, 11, 12⟩⟩, ⟨.identifier, "g", ⟨1, 13, 14⟩⟩,
    ⟨.openParen, "(", ⟨1, 14, 15⟩⟩, ⟨.comma, ",", ⟨1, 15, 16⟩⟩, ⟨.ifKeyword, "if", ⟨1, 17, 19⟩⟩]

theorem Checked.reads_everywhere_jumbled :
    4 * Buffer.jumbled.size + 5 ≤ 49 ∧ 10 ≤ Buffer.jumbled.size ∧
      PassesIn Buffer.jumbled 49 (Buffer.jumbled.range 5 99) ∧
      expression Buffer.jumbled 49 (Buffer.jumbled.range 5 99) =
        .error (.rejected ⟨.expectedCall, ⟨1, 13, 14⟩, none⟩) ∧
      Advances (conditional Buffer.jumbled 49 10 10) (Buffer.jumbled.conditional 10 10) 10 10 ∧
      Advances (signature Buffer.jumbled 49 0 10) (Buffer.jumbled.signature 0 10) 0 10 ∧
      signature Buffer.jumbled 49 0 10 = .ok (⟨"f", [], "void", ⟨1, 3, 4⟩⟩, 4) ∧
      Gives (programFrom Buffer.jumbled 49 0) (Program.ofTokens Buffer.jumbled.tokens) := by
  have hsteps : 4 * Buffer.jumbled.size + 5 ≤ 49 := by decide
  have hbound : 10 ≤ Buffer.jumbled.size := by decide
  obtain ⟨hrange, -, hupTo, -, hprogram⟩ :=
    Checked.reads_everywhere Buffer.jumbled hsteps
  exact ⟨hsteps, hbound, hrange 5 99, rfl, (hupTo 10 10 hbound).1, (hupTo 0 10 hbound).2,
    rfl, hprogram⟩

/-- A bound past the last token is not within the buffer: there a token is missed. -/
example : Checked.signature ⟨[]⟩ 1 0 1 = .error .pastEnd := by decide

end FrontEnd
