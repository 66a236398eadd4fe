import FrontEnd.Proofs.Checked

/-! # Reading expressions with checks

A range of tokens is read as an expression with no fetch past the last token and no position below
zero. Readers call each other on the same range, but only in the order call arguments, expression,
operators, primary, call; so a chain of calls and rounds has at most four links for each token. -/
namespace FrontEnd.Checked

/-- The priority of the text at a position; zero if there is none. -/
def priorityAt (buffer : Buffer) (position : Nat) : Nat :=
  match buffer.token? position with
  | some token => Operator.priority token.text
  | none => 0

mutual

def expression (buffer : Buffer) : (steps : Nat) → Buffer.Range → Checked Node
  | 0, _ => .error .outOfSteps
  | steps + 1, range => do
    let primary? ← primaryEnd buffer steps range
    match primary? with
    | none => reject buffer (.closer .openParen) range.start
    | some next =>
      let left ← primary buffer steps (buffer.range range.start next)
      if next = range.stop then .ok left
      else operators buffer steps (buffer.range next range.stop) left

def operators (buffer : Buffer) : (steps : Nat) → Buffer.Range → Node → Checked Node
  | 0, _, _ => .error .outOfSteps
  | steps + 1, range, left => operatorsFrom buffer steps range.start range.stop left

/-- Goes on with operators and operands at a position. A primary without an end takes all that is
left. -/
def operatorsFrom (buffer : Buffer) : (steps position stop : Nat) → Node → Checked Node
  | 0, _, _, _ => .error .outOfSteps
  | steps + 1, position, stop, left =>
    if position < stop then do
      let (operator, position) ← consume buffer .operator position stop
      let primary? ← primaryEnd buffer steps (buffer.range position stop)
      let next := primary?.getD stop
      let right ← primary buffer steps (buffer.range position next)
      if next ≠ stop ∧ Operator.priority operator.text < priorityAt buffer next then
        let right ← operators buffer steps (buffer.range next stop) right
        .ok (.binary operator.text left right operator.span)
      else operatorsFrom buffer steps next stop (.binary operator.text left right operator.span)
    else .ok left

def primary (buffer : Buffer) : (steps : Nat) → Buffer.Range → Checked Node
  | 0, _ => .error .outOfSteps
  | steps + 1, range =>
    if range.size = 0 then reject buffer .primary range.start
    else if range.size = 1 then
      match buffer.token? range.start with
      | none => reject buffer .primary range.start
      | some token =>
        match token.kind with
        | .number => .ok (.number token.text token.span)
        | .identifier => .ok (.reference token.text token.span)
        | _ => reject buffer .primary range.start
    else if buffer.peek .openParen range.start range.stop then do
      let last ← before range.stop
      if buffer.peek .closeParen last range.stop then
        expression buffer steps (buffer.range (range.start + 1) last)
      else reject buffer (.closer .openParen) range.start
    else if buffer.peek .identifier range.start range.stop then call buffer steps range
    else reject buffer .primary range.start

def call (buffer : Buffer) : (steps : Nat) → Buffer.Range → Checked Node
  | 0, _ => .error .outOfSteps
  | steps + 1, range =>
    if range.size < 3 || !buffer.peek .openParen (range.start + 1) range.stop then
      reject buffer .call range.start
    else do
      let last ← before range.stop
      if buffer.peek .closeParen last range.stop then
        let (callee, position) ← consume buffer .identifier range.start range.stop
        let given ← arguments buffer steps (position + 1) range.stop
        .ok (.call callee.text given callee.span)
      else reject buffer .call range.start

/-- Reads the arguments of a call from a position on. One token is skipped after each argument, so
the position may come to lie behind `stop`. -/
def arguments (buffer : Buffer) : (steps position stop : Nat) → Checked (List Node)
  | 0, _, _ => .error .outOfSteps
  | steps + 1, position, stop => do
    let last ← before stop
    if position < last then
      let end? ← expressionEnd buffer steps (buffer.range position stop)
      let next := end?.getD last
      let argument ← expression buffer steps (buffer.range position next)
      let more ← arguments buffer steps (next + 1) stop
      .ok (argument :: more)
    else .ok []

end

/-! ## One step -/

/-- With so many steps all readers of expressions agree with the readers of lists. -/
structure ReadsExpressions (buffer : Buffer) (steps : Nat) : Prop where
  expression : ∀ {start stop tokens}, buffer.Window start stop tokens →
    4 * tokens.length + 2 < steps →
    Checked.expression buffer steps (buffer.range start stop) =
      settled buffer stop (Reading.expression tokens)
  operators : ∀ {start stop tokens}, buffer.Window start stop tokens →
    4 * tokens.length + 1 < steps → ∀ left,
    Checked.operators buffer steps (buffer.range start stop) left =
      settled buffer stop (Reading.operators left tokens)
  operatorsFrom : ∀ {start stop tokens}, buffer.Window start stop tokens →
    4 * tokens.length < steps → ∀ left,
    Checked.operatorsFrom buffer steps start stop left =
      settled buffer stop (Reading.operators left tokens)
  primary : ∀ {start stop tokens}, buffer.Window start stop tokens →
    4 * tokens.length < steps →
    Checked.primary buffer steps (buffer.range start stop) =
      settled buffer stop (Reading.primary tokens)
  call : ∀ {start stop first second rest}, buffer.Window start stop (first :: second :: rest) →
    first.kind = .identifier → 4 * (rest.length + 2) ≤ steps →
    Checked.call buffer steps (buffer.range start stop) =
      settled buffer stop (Reading.primary (first :: second :: rest))
  arguments : ∀ {start stop tokens}, buffer.Window start stop tokens → 0 < stop →
    4 * tokens.length + 3 < steps →
    Checked.arguments buffer steps start stop = settled buffer stop (Reading.arguments tokens)

section
variable {buffer : Buffer} {start stop steps : Nat} {tokens : List Token}

theorem expression_step (ih : ReadsExpressions buffer steps)
    (h : buffer.Window start stop tokens) (hs : 4 * tokens.length + 2 < steps + 1) :
    expression buffer (steps + 1) (buffer.range start stop) =
      settled buffer stop (Reading.expression tokens) := by
  rw [expression, primaryEnd_eq h (by omega), ok_bind, h.range_start, h.range_stop,
    Reading.expression]
  cases hp : Reading.primaryEnd? tokens with
  | none => exact (settled_here h _).symm
  | some count =>
    have hle := Reading.primaryEnd?_le hp
    have htake : (tokens.take count).length ≤ tokens.length := List.length_take_le' _ _
    have hdrop : (tokens.drop count).length ≤ tokens.length := by
      rw [List.length_drop]
      exact Nat.sub_le _ _
    have hleft := ih.primary (h.take hle) (by omega)
    simp only [Option.map_some, settled_bind, settled_front h hle, hleft]
    cases Reading.primary (tokens.take count) with
    | error complaint => rfl
    | ok left =>
      have hrest := h.drop hle
      simp only [settled_ok, ok_bind]
      split
      · rename_i hend
        have hnil : tokens.drop count = [] := by
          have hlength := hrest.length_eq
          exact List.eq_nil_of_length_eq_zero (by omega)
        rw [hnil, Reading.operators]
        rfl
      · exact ih.operators hrest (by omega) left

theorem operators_step (ih : ReadsExpressions buffer steps)
    (h : buffer.Window start stop tokens) (hs : 4 * tokens.length + 1 < steps + 1) (left : Node) :
    operators buffer (steps + 1) (buffer.range start stop) left =
      settled buffer stop (Reading.operators left tokens) := by
  rw [operators, h.range_start, h.range_stop]
  exact ih.operatorsFrom h (Nat.lt_of_succ_lt_succ hs) left

/-- The priority behind an operand is that of the next token, if there is one. -/
theorem priorityAt_eq (h : buffer.Window start stop tokens) (priority : Nat) :
    (start ≠ stop ∧ priority < priorityAt buffer start) ↔
      priority < Reading.nextPriority tokens := by
  cases tokens with
  | nil => simp [h.nil_eq, Reading.nextPriority]
  | cons token rest =>
    have hne : start ≠ stop := Nat.ne_of_lt h.start_lt
    simp [hne, priorityAt, h.token?_eq, Reading.nextPriority]

/-- The operand at the front of a window ends in it, at its stop if nowhere else. -/
theorem primaryEnd_getD (h : buffer.Window start stop tokens) :
    ((Reading.primaryEnd? tokens).map (start + ·)).getD stop =
      start + (Reading.primaryEnd? tokens).getD tokens.length ∧
    (Reading.primaryEnd? tokens).getD tokens.length ≤ tokens.length := by
  cases hp : Reading.primaryEnd? tokens with
  | none => exact ⟨h.length_eq.symm, Nat.le_refl _⟩
  | some count => exact ⟨rfl, Reading.primaryEnd?_le hp⟩

theorem operatorsFrom_step (ih : ReadsExpressions buffer steps)
    (h : buffer.Window start stop tokens) (hs : 4 * tokens.length < steps + 1) (left : Node) :
    operatorsFrom buffer (steps + 1) start stop left =
      settled buffer stop (Reading.operators left tokens) := by
  cases tokens with
  | nil =>
    rw [operatorsFrom, if_neg h.not_lt, Reading.operators]
    rfl
  | cons operator rest =>
    rw [operatorsFrom, if_pos h.start_lt, Reading.operators]
    by_cases hk : operator.kind = .operator
    · rw [List.length_cons] at hs
      obtain ⟨hnext, hle⟩ := primaryEnd_getD h.tail
      generalize hcount : (Reading.primaryEnd? rest).getD rest.length = count at hnext hle
      have htake : (rest.take count).length ≤ rest.length := List.length_take_le' _ _
      have hdrop : (rest.drop count).length ≤ rest.length := by
        rw [List.length_drop]
        exact Nat.sub_le _ _
      have hrest := h.tail.drop hle
      have hright := ih.primary (h.tail.take hle) (by omega)
      rw [if_neg (not_not_intro hk), consume_found h hk, ok_bind]
      simp only [primaryEnd_eq h.tail (show rest.length < steps by omega), ok_bind, hnext, hright,
        settled_bind, settled_front h.tail hle]
      cases Reading.primary (rest.take count) with
      | error complaint => rfl
      | ok right =>
        simp only [settled_ok, ok_bind, priorityAt_eq hrest]
        split
        · rw [ih.operators hrest (by omega), settled_bind]
          rfl
        · exact ih.operatorsFrom hrest (by omega) _
    · rw [if_pos hk, consume_other h hk]
      exact (settled_here h _).symm

/-- The last token of a window stands before its stop. -/
theorem peek_last (h : buffer.Window start stop tokens) (hne : tokens ≠ []) (kind : TokenKind) :
    ∃ last, before stop = .ok last ∧ stop = last + 1 ∧
      buffer.peek kind last stop = Reading.endsWith kind tokens := by
  obtain ⟨front, final, htokens⟩ := (List.eq_nil_or_concat tokens).resolve_left hne
  rw [List.concat_eq_append] at htokens
  subst htokens
  have hlength := h.length_eq
  rw [List.length_append, List.length_singleton, ← Nat.add_assoc] at hlength
  subst hlength
  have hcount : front.length ≤ (front ++ [final]).length := by simp
  have hwindow := h.drop hcount
  rw [List.drop_left] at hwindow
  refine ⟨start + front.length, rfl, rfl, ?_⟩
  rw [hwindow.peek_eq, Reading.endsWith, List.getLast?_append]
  rfl

theorem primary_nil (h : buffer.Window start stop []) :
    primary buffer (steps + 1) (buffer.range start stop) =
      settled buffer stop (Reading.primary []) := by
  rw [primary, h.range_size, h.range_start, Reading.primary]
  exact (settled_here h _).symm

theorem primary_single {token : Token} (h : buffer.Window start stop [token]) :
    primary buffer (steps + 1) (buffer.range start stop) =
      settled buffer stop (Reading.primary [token]) := by
  rw [primary, h.range_size, h.range_start, if_neg (show [token].length ≠ 0 by simp),
    if_pos (show [token].length = 1 from rfl), h.token?_eq, Reading.primary]
  have hhere := settled_here (α := Node) h .primary
  dsimp only
  cases token.kind <;> first | rfl | exact hhere.symm

/-- More than one token is read as the first of them says. -/
theorem primary_long {first second : Token} {rest : List Token}
    (h : buffer.Window start stop (first :: second :: rest)) :
    primary buffer (steps + 1) (buffer.range start stop) =
      if first.kind = .openParen then do
        let last ← before stop
        if buffer.peek .closeParen last stop then
          expression buffer steps (buffer.range (start + 1) last)
        else reject buffer (.closer .openParen) start
      else if first.kind = .identifier then call buffer steps (buffer.range start stop)
      else reject buffer .primary start := by
  rw [primary, h.range_size, h.range_start, h.range_stop,
    if_neg (show (first :: second :: rest).length ≠ 0 by simp),
    if_neg (show (first :: second :: rest).length ≠ 1 by simp)]
  simp only [h.peek_iff]

theorem primary_group (ih : ReadsExpressions buffer steps) {first second : Token}
    {rest : List Token} (h : buffer.Window start stop (first :: second :: rest))
    (hg : first.kind = .openParen) (hs : 4 * (rest.length + 2) < steps + 1) :
    primary buffer (steps + 1) (buffer.range start stop) =
      settled buffer stop (Reading.primary (first :: second :: rest)) := by
  obtain ⟨last, hbefore, hstop, hpeek⟩ := peek_last h (List.cons_ne_nil _ _) .closeParen
  have hends : Reading.endsWith .closeParen (first :: second :: rest) =
      Reading.endsWith .closeParen (second :: rest) := by
    rw [Reading.endsWith, Reading.endsWith, List.getLast?_cons_cons]
  rw [primary_long h, if_pos hg, hbefore, ok_bind, hpeek, hends, Reading.primary, if_pos hg]
  split
  · have hcount : rest.length ≤ (second :: rest).length := Nat.le_succ rest.length
    have hinside := h.tail.take hcount
    have hlast : start + 1 + rest.length = last := by
      have hlength := h.length_eq
      simp only [List.length_cons] at hlength
      omega
    have hinner : (second :: rest).dropLast = (second :: rest).take rest.length := by
      rw [List.dropLast_eq_take, List.length_cons, Nat.add_sub_cancel]
    have hone : (second :: rest).length - rest.length = 1 := by simp
    have hfront := settled_front h.tail hcount (Reading.expression (second :: rest).dropLast)
    rw [hone] at hfront
    rw [hfront, hinner, hlast]
    rw [hlast] at hinside
    refine ih.expression hinside ?_
    rw [List.length_take]
    omega
  · exact (settled_here h _).symm

theorem primary_step (ih : ReadsExpressions buffer steps)
    (h : buffer.Window start stop tokens) (hs : 4 * tokens.length < steps + 1) :
    primary buffer (steps + 1) (buffer.range start stop) =
      settled buffer stop (Reading.primary tokens) := by
  match tokens, h, hs with
  | [], h, _ => exact primary_nil h
  | [token], h, _ => exact primary_single h
  | first :: second :: rest, h, hs =>
    simp only [List.length_cons] at hs
    by_cases hg : first.kind = .openParen
    · exact primary_group ih h hg (by omega)
    · rw [primary_long h, if_neg hg]
      by_cases hk : first.kind = .identifier
      · rw [if_pos hk]
        exact ih.call h hk (by omega)
      · rw [if_neg hk, Reading.primary, if_neg hg, if_neg hk]
        exact (settled_here h _).symm

theorem call_step (ih : ReadsExpressions buffer steps) {first second : Token}
    {rest : List Token} (h : buffer.Window start stop (first :: second :: rest))
    (hk : first.kind = .identifier) (hs : 4 * (rest.length + 2) ≤ steps + 1) :
    call buffer (steps + 1) (buffer.range start stop) =
      settled buffer stop (Reading.primary (first :: second :: rest)) := by
  have hhere := settled_here (α := Node) h .call
  have hg : first.kind ≠ .openParen := by simp [hk]
  rw [call, h.range_size, h.range_start, h.range_stop, h.tail.peek_eq, Reading.startsWith_cons,
    Reading.primary, if_neg hg, if_pos hk]
  cases rest with
  | nil => simpa [Reading.endsWith] using hhere.symm
  | cons third more =>
    by_cases ho : second.kind = .openParen
    · obtain ⟨last, hbefore, hstop, hpeek⟩ := peek_last h (List.cons_ne_nil _ _) .closeParen
      have hends : Reading.endsWith .closeParen (first :: second :: third :: more) =
          Reading.endsWith .closeParen (third :: more) := by
        rw [Reading.endsWith, Reading.endsWith, List.getLast?_cons_cons, List.getLast?_cons_cons]
      have hfuel : 4 * (third :: more).length + 3 < steps := by omega
      have hgiven := ih.arguments h.tail.tail (by omega) hfuel
      have hlong : ¬ (first :: second :: third :: more).length < 3 := by simp
      simp only [hlong, ho, hbefore, ok_bind, hpeek, hends, consume_found h hk, hgiven,
        decide_false, decide_true, Bool.not_true, Bool.or_false, Bool.true_and, Bool.false_eq_true,
        if_false]
      split
      · rw [settled_bind]
        rfl
      · exact hhere.symm
    · simpa [ho] using hhere.symm

/-- Behind the last token no argument is left. -/
theorem arguments_past (hs : 0 < steps) (hstop : 0 < stop) (h : stop ≤ start) :
    arguments buffer steps start stop = .ok [] := by
  obtain ⟨steps, rfl⟩ : ∃ n, steps = n + 1 := ⟨steps - 1, by omega⟩
  obtain ⟨last, rfl⟩ : ∃ n, stop = n + 1 := ⟨stop - 1, by omega⟩
  rw [arguments, before, ok_bind, if_neg (by omega)]

theorem arguments_step (ih : ReadsExpressions buffer steps)
    (h : buffer.Window start stop tokens) (hstop : 0 < stop)
    (hs : 4 * tokens.length + 3 < steps + 1) :
    arguments buffer (steps + 1) start stop =
      settled buffer stop (Reading.arguments tokens) := by
  obtain ⟨last, rfl⟩ : ∃ n, stop = n + 1 := ⟨stop - 1, by omega⟩
  have hlength := h.length_eq
  rw [arguments, before, ok_bind, Reading.arguments]
  by_cases hlt : start < last
  · rw [if_pos hlt, if_neg (by omega)]
    have hend : expressionEnd buffer steps (buffer.range start (last + 1)) =
        .ok ((Reading.expressionEnd? tokens).map (start + ·)) := by
      rw [expressionEnd, h.range_start, h.range_stop]
      exact expressionEndFrom_eq h (by omega)
    obtain ⟨count, hcount, hnext, hle⟩ : ∃ count,
        (Reading.expressionEnd? tokens).getD (tokens.length - 1) = count ∧
        ((Reading.expressionEnd? tokens).map (start + ·)).getD last = start + count ∧
        count ≤ tokens.length := by
      cases he : Reading.expressionEnd? tokens with
      | none => exact ⟨tokens.length - 1, rfl, by simp; omega, Nat.sub_le _ _⟩
      | some count => exact ⟨count, rfl, rfl, Reading.expressionEnd?_le he⟩
    have htake : (tokens.take count).length ≤ tokens.length := List.length_take_le' _ _
    have hargument := ih.expression (h.take hle) (by omega)
    have hmore : arguments buffer steps (start + count + 1) (last + 1) =
        settled buffer (last + 1) (Reading.arguments (tokens.drop (count + 1))) := by
      by_cases hin : count + 1 ≤ tokens.length
      · refine ih.arguments (h.drop hin) hstop ?_
        rw [List.length_drop]
        omega
      · rw [arguments_past (by omega) hstop (by omega), List.drop_of_length_le (by omega),
          Reading.arguments]
        rfl
    simp only [hend, ok_bind, hnext, hargument, hmore, hcount, settled_bind, settled_front h hle]
    rfl
  · rw [if_neg hlt, if_pos (by omega)]
    rfl

end

/-- Any number of steps that is large enough for the tokens is enough. -/
theorem readsExpressions (buffer : Buffer) (steps : Nat) : ReadsExpressions buffer steps := by
  induction steps with
  | zero =>
    refine ⟨?_, ?_, ?_, ?_, ?_, ?_⟩
    all_goals intros
    all_goals omega
  | succ steps ih =>
    exact ⟨expression_step ih, operators_step ih, operatorsFrom_step ih, primary_step ih,
      call_step ih, arguments_step ih⟩

end FrontEnd.Checked
