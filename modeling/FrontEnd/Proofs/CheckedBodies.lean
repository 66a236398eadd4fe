import FrontEnd.Proofs.BodyReading
import FrontEnd.Proofs.CheckedExpressions

/-! # Reading statements and bodies with checks

Statements are found by their semicolons and bodies by their braces, so every part is a window in
the window of the whole. A position that is moved back by one has just been moved on, and a position
past the end of a body is never used. -/
namespace FrontEnd.Checked

def declaration (buffer : Buffer) (steps : Nat) (range : Buffer.Range) : Checked Node := do
  let mutable := buffer.peek .mutKeyword range.start range.stop
  let position := if mutable then range.start + 1 else range.start
  let (type, position) ← consume buffer .identifier position range.stop
  let (name, position) ← consume buffer .identifier position range.stop
  if buffer.peek .assign position range.stop then do
    let initializer ← expression buffer steps (buffer.range (position + 1) range.stop)
    .ok (.declare mutable type.text name.text (some initializer) name.span)
  else if position = range.stop then .ok (.declare mutable type.text name.text none name.span)
  else do
    let last ← before position
    reject buffer .declarationEnd last

def assignment (buffer : Buffer) (steps : Nat) (range : Buffer.Range) : Checked Node := do
  let (target, position) ← consume buffer .identifier range.start range.stop
  let (_, position) ← consume buffer .assign position range.stop
  let value ← expression buffer steps (buffer.range position range.stop)
  .ok (.assign target.text value target.span)

def statement (buffer : Buffer) (steps : Nat) (range : Buffer.Range) : Checked Node :=
  if buffer.peek .mutKeyword range.start range.stop ||
      (buffer.peek .identifier range.start range.stop &&
        buffer.peek .identifier (range.start + 1) range.stop) then
    declaration buffer steps range
  else if buffer.peek .identifier range.start range.stop &&
      buffer.peek .assign (range.start + 1) range.stop then
    assignment buffer steps range
  else expression buffer steps range

def statement? (buffer : Buffer) (steps : Nat) (range : Buffer.Range) : Checked (Option Node) :=
  if range.size = 0 then .ok none
  else do
    let node ← statement buffer steps range
    .ok (some node)

/-- Reads what stands between a bracket at a position and the one that closes it below the bound. -/
def enclosed {α : Type} (buffer : Buffer) (opening : TokenKind) (read : Buffer.Range → Checked α)
    (position bound : Nat) : Checked (α × Nat) := do
  let (_, position) ← consume buffer opening position bound
  let first ← before position
  let closing? ← closer buffer first bound
  match closing? with
  | none => reject buffer (.closer opening) first
  | some closing =>
    let result ← read (buffer.range position closing)
    .ok (result, closing + 1)

def condition (buffer : Buffer) (steps position bound : Nat) : Checked (Node × Nat) :=
  enclosed buffer .openParen (expression buffer steps) position bound

mutual

def body (buffer : Buffer) : (steps : Nat) → Buffer.Range → Checked Body
  | 0, _ => .error .outOfSteps
  | steps + 1, range => do
    let (statements, pending) ← bodyFrom buffer steps range.start range.stop [] none
    let closed ←
      if range.start < range.stop then do
        let last ← before range.stop
        .ok (buffer.peek .semicolon last range.stop)
      else .ok false
    .ok (if closed then .mk (statements ++ pending.toList) none else .mk statements pending)

/-- Reads the rest of a body from a position on. A statement without a semicolon takes all that is
left, and the next position is then past the end. -/
def bodyFrom (buffer : Buffer) : (steps position stop : Nat) → List Node → Option Node →
    Checked (List Node × Option Node)
  | 0, _, _, _, _ => .error .outOfSteps
  | steps + 1, position, stop, statements, pending =>
    if position < stop then
      if buffer.peek .ifKeyword position stop then do
        let (node, next) ← conditional buffer steps position stop
        bodyFrom buffer steps next stop (statements ++ pending.toList) (some node)
      else do
        let semicolon? ← find buffer .semicolon (buffer.range position stop)
        let next := semicolon?.getD stop
        let node? ← statement? buffer steps (buffer.range position next)
        bodyFrom buffer steps (next + 1) stop (statements ++ pending.toList) node?
    else .ok (statements, pending)

def conditional (buffer : Buffer) : (steps position bound : Nat) → Checked (Node × Nat)
  | 0, _, _ => .error .outOfSteps
  | steps + 1, position, bound => do
    let (first, position) ← consume buffer .ifKeyword position bound
    let (condition, body, otherwise, next) ← branch buffer steps position bound
    .ok (.conditional condition body otherwise first.span, next)

def branch (buffer : Buffer) : (steps position bound : Nat) →
    Checked (Node × Body × Alternative × Nat)
  | 0, _, _ => .error .outOfSteps
  | steps + 1, position, bound => do
    let (condition, position) ← condition buffer steps position bound
    let (body, position) ← block buffer steps position bound
    let (otherwise, position) ← alternative buffer steps position bound
    .ok (condition, body, otherwise, position)

def block (buffer : Buffer) : (steps position bound : Nat) → Checked (Body × Nat)
  | 0, _, _ => .error .outOfSteps
  | steps + 1, position, bound => enclosed buffer .openCurly (body buffer steps) position bound

def alternative (buffer : Buffer) : (steps position bound : Nat) → Checked (Alternative × Nat)
  | 0, _, _ => .error .outOfSteps
  | steps + 1, position, bound =>
    if buffer.peek .elifKeyword position bound then do
      let (condition, body, otherwise, next) ← branch buffer steps (position + 1) bound
      .ok (.elif condition body otherwise, next)
    else if buffer.peek .elseKeyword position bound then do
      let (body, next) ← block buffer steps (position + 1) bound
      .ok (.otherwise body, next)
    else .ok (.nothing, position)

end

/-! ## Statements -/

section
variable {buffer : Buffer} {start stop steps : Nat} {tokens : List Token}

/-- One token is read alike by its position and from the front of a list. -/
theorem consume_bind {β : Type} (h : buffer.Window start stop tokens) (kind : TokenKind)
    {next : Token × Nat → Checked β} {after : Token × List Token → Checked β}
    (hnext : ∀ token rest, tokens = token :: rest → token.kind = kind →
      buffer.Window (start + 1) stop rest → next (token, start + 1) = after (token, rest)) :
    (consume buffer kind start stop >>= next) =
      (settled buffer stop (Reading.expect kind tokens) >>= after) := by
  cases tokens with
  | nil =>
    rw [consume_missing h rfl, Reading.expect, settled_error, Nat.sub_zero, h.nil_eq]
    rfl
  | cons token rest =>
    by_cases hk : token.kind = kind
    · rw [consume_found h hk, Reading.expect, if_pos hk, settled_ok, ok_bind, ok_bind]
      exact hnext token rest rfl hk h.tail
    · rw [consume_other h hk, Reading.expect, if_neg hk]
      exact congrArg (· >>= after) (settled_here h _).symm

theorem declaration_eq (h : buffer.Window start stop tokens)
    (hs : 4 * tokens.length + 2 < steps) :
    declaration buffer steps (buffer.range start stop) =
      settled buffer stop (Reading.declaration tokens) := by
  simp only [declaration, Reading.declaration, h.range_start, h.range_stop, h.peek_eq, settled_bind]
  generalize hm : Reading.startsWith .mutKeyword tokens = mutable
  have hmarked : buffer.Window (if mutable then start + 1 else start) stop
      (if mutable then tokens.tail else tokens) := by
    cases mutable with
    | false => exact h
    | true =>
      obtain ⟨keyword, rest, rfl, -⟩ := Reading.startsWith_iff.mp hm
      exact h.tail
  have hlength : (if mutable then tokens.tail else tokens).length ≤ tokens.length := by
    cases mutable <;> simp
  generalize (if mutable then start + 1 else start) = position at hmarked ⊢
  generalize (if mutable then tokens.tail else tokens) = marked at hmarked hlength ⊢
  refine consume_bind hmarked _ fun type named ht _ htype => ?_
  refine consume_bind htype _ fun name rest hn _ hname => ?_
  subst ht hn
  simp only [List.length_cons] at hlength
  dsimp only
  cases rest with
  | nil =>
    have hend := hname.nil_eq
    rw [hname.peek_eq, if_neg (by decide), if_pos hend]
    rfl
  | cons next value =>
    by_cases hk : next.kind = .assign
    · have hvalue := (readsExpressions buffer steps).expression hname.tail
        (by rw [List.length_cons] at hlength; omega)
      rw [if_pos (hname.peek_iff.mpr hk), hvalue]
      dsimp only
      rw [if_pos hk, settled_bind]
      rfl
    · have hend : position + 1 + 1 ≠ stop := Nat.ne_of_lt hname.start_lt
      have hplace : stop - (value.length + 2) = position + 1 := by
        have hsize := hname.length_eq
        rw [List.length_cons] at hsize
        omega
      rw [if_neg (mt hname.peek_iff.mp hk), if_neg hend]
      dsimp only
      rw [if_neg hk, settled_error, hplace]
      rfl

theorem assignment_eq (h : buffer.Window start stop tokens)
    (hs : 4 * tokens.length + 2 < steps) :
    assignment buffer steps (buffer.range start stop) =
      settled buffer stop (Reading.assignment tokens) := by
  simp only [assignment, Reading.assignment, h.range_start, h.range_stop, settled_bind]
  refine consume_bind h _ fun target rest ht _ htarget => ?_
  refine consume_bind htarget _ fun sign value hr _ hvalue => ?_
  subst ht hr
  simp only [List.length_cons] at hs
  have hread := (readsExpressions buffer steps).expression hvalue (by omega)
  dsimp only
  rw [hread]
  rfl

/-- The first two tokens of a window are seen by their positions. -/
theorem peek_two (h : buffer.Window start stop tokens) (first second : TokenKind) :
    (buffer.peek first start stop && buffer.peek second (start + 1) stop) =
      (Reading.startsWith first tokens && Reading.startsWith second tokens.tail) := by
  rw [h.peek_eq]
  cases tokens with
  | nil => rfl
  | cons token rest => rw [h.tail.peek_eq, List.tail_cons]

theorem statement_eq (h : buffer.Window start stop tokens)
    (hs : 4 * tokens.length + 2 < steps) :
    statement buffer steps (buffer.range start stop) =
      settled buffer stop (Reading.statement tokens) := by
  have hexpression := (readsExpressions buffer steps).expression h hs
  rw [statement, h.range_start, h.range_stop, peek_two h, peek_two h, h.peek_eq,
    declaration_eq h hs, assignment_eq h hs, hexpression, Reading.statement]
  cases Reading.startsWith .mutKeyword tokens with
  | true => rfl
  | false =>
    rw [Bool.false_or, if_neg Bool.false_ne_true]
    split
    · rfl
    · split <;> rfl

theorem statement?_nil (h : buffer.Window start stop []) :
    statement? buffer steps (buffer.range start stop) = .ok none := by
  rw [statement?, h.range_size, List.length_nil, if_pos rfl]

theorem statement?_eq (h : buffer.Window start stop tokens) (hne : tokens ≠ [])
    (hs : 4 * tokens.length + 2 < steps) :
    statement? buffer steps (buffer.range start stop) =
      settled buffer stop (Reading.statement tokens) >>= fun node => .ok (some node) := by
  have hsize : tokens.length ≠ 0 := fun hzero => hne (List.eq_nil_of_length_eq_zero hzero)
  rw [statement?, h.range_size, if_neg hsize, statement_eq h hs]

end

end FrontEnd.Checked

/-! ## Counted tokens -/

namespace FrontEnd.Reading

theorem statementEnd_semicolon {token : Token} (h : token.kind = .semicolon) (rest : List Token) :
    statementEnd (token :: rest) = 0 := by
  simp [statementEnd, h]

theorem statementEnd_other {token : Token} (h : token.kind ≠ .semicolon) (rest : List Token) :
    statementEnd (token :: rest) = statementEnd rest + 1 := by
  simp [statementEnd, h]

theorem statementEnd_le (tokens : List Token) : statementEnd tokens ≤ tokens.length :=
  (List.takeWhile_prefix _).length_le

/-- A statement ends at the first semicolon, or at the end. -/
theorem findIdx?_semicolon (tokens : List Token) :
    (tokens.findIdx? fun token => token.kind = .semicolon).getD tokens.length =
      statementEnd tokens := by
  induction tokens with
  | nil => rfl
  | cons token rest ih =>
    rw [List.findIdx?_cons]
    by_cases hk : token.kind = .semicolon
    · simp [hk, statementEnd_semicolon hk]
    · rw [statementEnd_other hk, ← ih, if_neg (by simpa using hk)]
      cases rest.findIdx? fun token => token.kind = .semicolon <;> rfl

/-- Reads what stands between a bracket and the one that closes it, and counts its tokens. -/
def enclosed {α : Type} (opening closing : TokenKind) (reader : List Token → Reading α) :
    List Token → Reading (α × Nat)
  | [] => .error ⟨.token opening, 0⟩
  | first :: rest =>
    if first.kind ≠ opening then .error ⟨.token opening, rest.length + 1⟩
    else match closer? opening closing 0 rest with
      | none => .error ⟨.closer opening, rest.length + 1⟩
      | some count => do
        let result ← (reader (rest.take count)).followedBy (rest.length - count)
        .ok (result, count + 2)

theorem condition_eq_enclosed (tokens : List Token) :
    condition tokens = enclosed .openParen .closeParen expression tokens := by
  cases tokens <;> rfl

theorem block_eq_enclosed (tokens : List Token) :
    block tokens = enclosed .openCurly .closeCurly body tokens := by
  cases tokens <;> rw [block] <;> rfl

section
variable {tokens : List Token} {count : Nat}

theorem enclosed_count {α : Type} {opening closing : TokenKind} {reader : List Token → Reading α}
    {result : α} (h : enclosed opening closing reader tokens = .ok (result, count)) :
    0 < count ∧ count ≤ tokens.length := by
  cases tokens with
  | nil => cases h
  | cons first rest =>
    rw [enclosed] at h
    split at h
    · cases h
    split at h
    · cases h
    · rename_i inside hi
      obtain ⟨inner, -, hresult⟩ := bind_eq_ok.mp h
      cases hresult
      exact ⟨Nat.succ_pos _, Nat.succ_le_succ (closer?_lt hi)⟩

theorem branch_count {node : Node} {result : Body} {otherwise : Alternative}
    (h : branch tokens = .ok (node, result, otherwise, count)) : count ≤ tokens.length := by
  obtain ⟨front, others, rest, rfl, rfl, -, -⟩ := branch_sound tokens h
  simp only [List.length_append]
  omega

end
end FrontEnd.Reading

namespace FrontEnd.Checked

/-- The position behind tokens that are counted from `start` on. -/
def placed {α : Type} (start : Nat) : α × Nat → Checked (α × Nat)
  | (result, count) => .ok (result, start + count)

section
variable {buffer : Buffer} {start stop steps : Nat} {tokens : List Token}

theorem enclosed_eq {α : Type} {opening closing : TokenKind} {read : Buffer.Range → Checked α}
    {reader : List Token → Reading α} (h : buffer.Window start stop tokens)
    (hc : opening.closing? = some closing)
    (hread : ∀ {first last inside}, buffer.Window first last inside →
      inside.length + 2 ≤ tokens.length →
      read (buffer.range first last) = settled buffer last (reader inside)) :
    enclosed buffer opening read start stop =
      settled buffer stop (Reading.enclosed opening closing reader tokens) >>= placed start := by
  cases tokens with
  | nil =>
    rw [enclosed, consume_missing h rfl, Reading.enclosed]
    exact congrArg (· >>= placed start) (settled_here h (.token opening)).symm
  | cons first rest =>
    by_cases hk : first.kind = opening
    · subst hk
      rw [enclosed, consume_found h rfl, ok_bind]
      dsimp only
      rw [before, ok_bind, closer_window h hc, ok_bind, Reading.enclosed,
        if_neg (not_not_intro rfl)]
      cases hclose : Reading.closer? first.kind closing 0 rest with
      | none => exact congrArg (· >>= placed start) (settled_here h (.closer first.kind)).symm
      | some count =>
        have hlt := Reading.closer?_lt hclose
        have hinside := hread (h.tail.take (Nat.le_of_lt hlt)) (by
          rw [List.length_take, List.length_cons]
          omega)
        simp only [Option.map_some, hinside, settled_bind, settled_front h.tail (Nat.le_of_lt hlt)]
        cases reader (rest.take count) with
        | error complaint => rfl
        | ok result =>
          simp [placed]
          omega
    · rw [enclosed, consume_other h hk, Reading.enclosed, if_pos hk]
      exact congrArg (· >>= placed start) (settled_here h (.token opening)).symm

theorem condition_eq (h : buffer.Window start stop tokens) (hs : 4 * tokens.length < steps) :
    condition buffer steps start stop =
      settled buffer stop (Reading.condition tokens) >>= placed start := by
  rw [Reading.condition_eq_enclosed]
  refine enclosed_eq h rfl fun hinside hlength => ?_
  exact (readsExpressions buffer steps).expression hinside (by omega)

end

/-! ## Bodies -/

/-- The position behind a branch whose tokens are counted from `start` on. -/
def branchPlaced (start : Nat) :
    Node × Body × Alternative × Nat → Checked (Node × Body × Alternative × Nat)
  | (condition, body, otherwise, count) => .ok (condition, body, otherwise, start + count)

/-- With so many steps all readers of bodies agree with the readers of lists. -/
structure ReadsBodies (buffer : Buffer) (steps : Nat) : Prop where
  body : ∀ {start stop tokens}, buffer.Window start stop tokens → 4 * tokens.length + 4 < steps →
    Checked.body buffer steps (buffer.range start stop) =
      settled buffer stop (Reading.body tokens)
  bodyFrom : ∀ {start stop tokens}, buffer.Window start stop tokens →
    4 * tokens.length + 3 < steps → ∀ statements pending,
    Checked.bodyFrom buffer steps start stop statements pending =
      settled buffer stop (Reading.bodyRest statements pending tokens)
  conditional : ∀ {start stop tokens}, buffer.Window start stop tokens →
    4 * tokens.length + 2 < steps →
    Checked.conditional buffer steps start stop =
      settled buffer stop (Reading.conditional tokens) >>= placed start
  branch : ∀ {start stop tokens}, buffer.Window start stop tokens →
    4 * tokens.length + 1 < steps →
    Checked.branch buffer steps start stop =
      settled buffer stop (Reading.branch tokens) >>= branchPlaced start
  block : ∀ {start stop tokens}, buffer.Window start stop tokens → 4 * tokens.length < steps →
    Checked.block buffer steps start stop =
      settled buffer stop (Reading.block tokens) >>= placed start
  alternative : ∀ {start stop tokens}, buffer.Window start stop tokens →
    4 * tokens.length < steps →
    Checked.alternative buffer steps start stop =
      settled buffer stop (Reading.alternative tokens) >>= placed start

section
variable {buffer : Buffer} {start stop steps : Nat} {tokens : List Token}

theorem block_step (ih : ReadsBodies buffer steps) (h : buffer.Window start stop tokens)
    (hs : 4 * tokens.length < steps + 1) :
    block buffer (steps + 1) start stop =
      settled buffer stop (Reading.block tokens) >>= placed start := by
  rw [block, Reading.block_eq_enclosed]
  refine enclosed_eq h rfl fun hinside hlength => ?_
  exact ih.body hinside (by omega)

theorem alternative_step (ih : ReadsBodies buffer steps) (h : buffer.Window start stop tokens)
    (hs : 4 * tokens.length < steps + 1) :
    alternative buffer (steps + 1) start stop =
      settled buffer stop (Reading.alternative tokens) >>= placed start := by
  cases tokens with
  | nil =>
    rw [alternative, h.peek_eq, h.peek_eq, Reading.alternative]
    rfl
  | cons first rest =>
    rw [List.length_cons] at hs
    rw [alternative, Reading.alternative]
    by_cases helif : first.kind = .elifKeyword
    · rw [if_pos (h.peek_iff.mpr helif), if_pos helif, ih.branch h.tail (by omega), settled_bind]
      cases Reading.branch rest with
      | error complaint => rfl
      | ok result => simp [branchPlaced, placed, Nat.add_assoc, Nat.add_comm 1]
    · rw [if_neg (mt h.peek_iff.mp helif), if_neg helif]
      by_cases helse : first.kind = .elseKeyword
      · rw [if_pos (h.peek_iff.mpr helse), if_pos helse, ih.block h.tail (by omega), settled_bind]
        cases Reading.block rest with
        | error complaint => rfl
        | ok result => simp [placed, Nat.add_assoc, Nat.add_comm 1]
      · rw [if_neg (mt h.peek_iff.mp helse), if_neg helse]
        rfl

theorem branch_step (ih : ReadsBodies buffer steps) (h : buffer.Window start stop tokens)
    (hs : 4 * tokens.length + 1 < steps + 1) :
    branch buffer (steps + 1) start stop =
      settled buffer stop (Reading.branch tokens) >>= branchPlaced start := by
  rw [branch, condition_eq h (by omega), Reading.branch, settled_bind]
  cases hc : Reading.condition tokens with
  | error complaint => rfl
  | ok result =>
    obtain ⟨node, conditionCount⟩ := result
    rw [Reading.condition_eq_enclosed] at hc
    have hle := (Reading.enclosed_count hc).2
    have hlength : (tokens.drop conditionCount).length = tokens.length - conditionCount :=
      List.length_drop
    simp only [settled_ok, ok_bind, placed, ih.block (h.drop hle) (by omega), settled_bind]
    cases hb : Reading.block (tokens.drop conditionCount) with
    | error complaint => rfl
    | ok result =>
      obtain ⟨inner, bodyCount⟩ := result
      rw [Reading.block_eq_enclosed] at hb
      have hsum : conditionCount + bodyCount ≤ tokens.length := by
        have hinner := (Reading.enclosed_count hb).2
        omega
      have hrest := h.drop hsum
      rw [← Nat.add_assoc] at hrest
      have hother := ih.alternative hrest (by rw [List.length_drop]; omega)
      simp only [settled_ok, ok_bind, placed, hother]
      cases Reading.alternative (tokens.drop (conditionCount + bodyCount)) with
      | error complaint => rfl
      | ok result => simp [placed, branchPlaced, Nat.add_assoc]

theorem conditional_step (ih : ReadsBodies buffer steps) (h : buffer.Window start stop tokens)
    (hs : 4 * tokens.length + 2 < steps + 1) :
    conditional buffer (steps + 1) start stop =
      settled buffer stop (Reading.conditional tokens) >>= placed start := by
  rw [conditional, Reading.conditional, settled_bind, bind_assoc]
  refine consume_bind h _ fun first rest ht _ hrest => ?_
  rw [ht, List.length_cons] at hs
  dsimp only
  rw [ih.branch hrest (by omega), settled_bind]
  cases Reading.branch rest with
  | error complaint => rfl
  | ok result => simp [branchPlaced, placed, Nat.add_assoc, Nat.add_comm 1]

/-- The first semicolon of a window is found where the first statement ends. -/
theorem semicolon_getD (h : buffer.Window start stop tokens) :
    ((tokens.findIdx? fun token => token.kind = .semicolon).map (start + ·)).getD stop =
      start + Reading.statementEnd tokens := by
  rw [← Reading.findIdx?_semicolon, ← h.length_eq]
  cases tokens.findIdx? fun token => token.kind = .semicolon <;> rfl

/-- Past the end of a body nothing is left. -/
theorem bodyFrom_past (hs : 0 < steps) (h : stop ≤ start) (statements : List Node)
    (pending : Option Node) :
    bodyFrom buffer steps start stop statements pending = .ok (statements, pending) := by
  obtain ⟨steps, rfl⟩ : ∃ n, steps = n + 1 := ⟨steps - 1, by omega⟩
  rw [bodyFrom, if_neg (Nat.not_lt_of_le h)]

/-- Behind a statement the body goes on, or its end is passed. -/
theorem ReadsBodies.rest (ih : ReadsBodies buffer steps) (h : buffer.Window start stop tokens)
    (hs : 4 * tokens.length + 3 < steps + 1) {count : Nat} (hc : 0 < count)
    (hle : count ≤ tokens.length + 1) (statements : List Node) (pending : Option Node) :
    Checked.bodyFrom buffer steps (start + count) stop statements pending =
      settled buffer stop (Reading.bodyRest statements pending (tokens.drop count)) := by
  by_cases hin : count ≤ tokens.length
  · refine ih.bodyFrom (h.drop hin) ?_ statements pending
    rw [List.length_drop]
    omega
  · have hend := h.length_eq
    rw [bodyFrom_past (by omega) (by omega), List.drop_of_length_le (by omega), Reading.bodyRest]
    rfl

theorem bodyFrom_statement (ih : ReadsBodies buffer steps) {first : Token} {rest : List Token}
    (h : buffer.Window start stop (first :: rest)) (hs : 4 * (rest.length + 1) + 3 < steps + 1)
    (hif : first.kind ≠ .ifKeyword) (statements : List Node) (pending : Option Node) :
    bodyFrom buffer (steps + 1) start stop statements pending =
      settled buffer stop (Reading.bodyRest statements pending (first :: rest)) := by
  have hle := Reading.statementEnd_le (first :: rest)
  have hnext := ih.rest h hs (Nat.succ_pos _) (Nat.succ_le_succ hle)
  rw [bodyFrom, if_pos h.start_lt, if_neg (mt h.peek_iff.mp hif), find_eq h, ok_bind,
    Reading.bodyRest, if_neg hif]
  simp only [semicolon_getD h]
  by_cases hk : first.kind = .semicolon
  · rw [Reading.statementEnd_semicolon hk] at hnext ⊢
    rw [if_pos hk, statement?_nil (h.take (Nat.zero_le _)), ok_bind]
    exact hnext _ _
  · rw [Reading.statementEnd_other hk] at hnext hle ⊢
    have hstatement := h.take hle
    rw [List.take_succ_cons] at hstatement
    have hsteps : 4 * (first :: rest.take (Reading.statementEnd rest)).length + 2 < steps := by
      rw [List.length_cons, List.length_take]
      omega
    have hfront := settled_front h hle
      (Reading.statement (first :: rest.take (Reading.statementEnd rest)))
    rw [List.length_cons, Nat.add_sub_add_right] at hfront
    rw [if_neg hk, statement?_eq hstatement (List.cons_ne_nil _ _) hsteps, settled_bind, hfront]
    cases Reading.statement (first :: rest.take (Reading.statementEnd rest)) with
    | error complaint => rfl
    | ok node => exact hnext _ _

theorem bodyFrom_conditional (ih : ReadsBodies buffer steps) {first : Token} {rest : List Token}
    (h : buffer.Window start stop (first :: rest)) (hs : 4 * (rest.length + 1) + 3 < steps + 1)
    (hif : first.kind = .ifKeyword) (statements : List Node) (pending : Option Node) :
    bodyFrom buffer (steps + 1) start stop statements pending =
      settled buffer stop (Reading.bodyRest statements pending (first :: rest)) := by
  have hread := ih.conditional h (Nat.lt_of_succ_lt_succ hs)
  rw [Reading.conditional, Reading.expect, if_pos hif, Reading.ok_bind] at hread
  rw [bodyFrom, if_pos h.start_lt, if_pos (h.peek_iff.mpr hif), hread, Reading.bodyRest, if_pos hif,
    settled_bind, settled_bind]
  cases hb : Reading.branch rest with
  | error complaint => rfl
  | ok result =>
    obtain ⟨condition, inner, otherwise, count⟩ := result
    have hle := Reading.branch_count hb
    have hnext := ih.rest h hs (Nat.succ_pos count) (by rw [List.length_cons]; omega)
    simp only [settled_ok, ok_bind, placed]
    exact hnext _ _

theorem bodyFrom_step (ih : ReadsBodies buffer steps) (h : buffer.Window start stop tokens)
    (hs : 4 * tokens.length + 3 < steps + 1) (statements : List Node) (pending : Option Node) :
    bodyFrom buffer (steps + 1) start stop statements pending =
      settled buffer stop (Reading.bodyRest statements pending tokens) := by
  cases tokens with
  | nil =>
    rw [bodyFrom_past (Nat.succ_pos _) (Nat.le_of_eq h.nil_eq.symm), Reading.bodyRest]
    rfl
  | cons first rest =>
    by_cases hif : first.kind = .ifKeyword
    · exact bodyFrom_conditional ih h hs hif statements pending
    · exact bodyFrom_statement ih h hs hif statements pending

theorem body_step (ih : ReadsBodies buffer steps) (h : buffer.Window start stop tokens)
    (hs : 4 * tokens.length + 4 < steps + 1) :
    body buffer (steps + 1) (buffer.range start stop) =
      settled buffer stop (Reading.body tokens) := by
  rw [body, h.range_start, h.range_stop, ih.bodyFrom h (Nat.lt_of_succ_lt_succ hs), Reading.body,
    settled_bind]
  cases Reading.bodyRest [] none tokens with
  | error complaint => rfl
  | ok result =>
    obtain ⟨statements, pending⟩ := result
    simp only [settled_ok, ok_bind, Reading.closeBody]
    by_cases hne : tokens = []
    · subst hne
      rw [if_neg h.not_lt]
      rfl
    · obtain ⟨last, hbefore, hstop, hpeek⟩ := peek_last h hne .semicolon
      have hlt : start < stop := by
        have hend := h.length_eq
        have hpos := List.length_pos_iff.mpr hne
        omega
      rw [if_pos hlt, hbefore, ok_bind, hpeek]

end

/-- Any number of steps that is large enough for the tokens is enough. -/
theorem readsBodies (buffer : Buffer) (steps : Nat) : ReadsBodies buffer steps := by
  induction steps with
  | zero =>
    refine ⟨?_, ?_, ?_, ?_, ?_, ?_⟩
    all_goals intros
    all_goals omega
  | succ steps ih =>
    exact ⟨body_step ih, bodyFrom_step ih, conditional_step ih, branch_step ih, block_step ih,
      alternative_step ih⟩

end FrontEnd.Checked
