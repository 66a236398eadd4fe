import FrontEnd.Proofs.Checked
import FrontEnd.Proofs.ExpressionReading
import FrontEnd.Proofs.ParenBalance

/-! # Chains of primaries

What is read as an expression is a chain: ranges that are one primary from end to end, with
operators between them. Only behind the last operator may stand an operand whose parenthesis is
never closed. Nothing is asked of what stands between the parentheses of a primary but that it is
read. The scans stop behind a chain exactly if the next token cannot carry it on, which is a matter
of that token and of the last token of the chain. -/
namespace FrontEnd.Reading
open FrontEnd.Grammar

/-! ## Primaries -/

/-- A range that is one primary from end to end, and the tree that is read from it. -/
structure Primary where
  tokens : List Token
  node : Node
  ends : primaryEnd? tokens = some tokens.length
  reads : primary tokens = .ok node

def Primary.ofOperand (operand : Operand) : Primary where
  tokens := operand.tokens
  node := operand.tree
  ends := by
    have hend := primaryEnd?_operand operand endsOperand_nil
    rwa [List.append_nil] at hend
  reads := primary_operand operand

inductive PrimaryForm : List Token → Prop
  | single {token} : isOperand token = true → PrimaryForm [token]
  | group {opening inside closing} : opening.kind = .openParen → closing.kind = .closeParen →
      Balanced .openParen .closeParen inside → PrimaryForm (opening :: (inside ++ [closing]))
  | call {callee opening inside closing} : callee.kind = .identifier → opening.kind = .openParen →
      closing.kind = .closeParen → Balanced .openParen .closeParen inside →
      PrimaryForm (callee :: opening :: (inside ++ [closing]))

theorem not_paren_of_isOperand {token : Token} (h : isOperand token = true) :
    token.kind ≠ .openParen ∧ token.kind ≠ .closeParen := by
  simp only [isOperand, Bool.or_eq_true, decide_eq_true_eq] at h
  rcases h with h | h <;> simp [h]

/-- Of names and numbers that stand together only one is a primary. -/
theorem primaryForm_operands {tokens : List Token} {node : Node}
    (ho : ∀ token ∈ tokens, isOperand token = true) (h : primary tokens = .ok node) :
    PrimaryForm tokens := by
  cases tokens with
  | nil => rw [primary_nil] at h; cases h
  | cons first rest =>
    cases rest with
    | nil => exact .single (ho first (by simp))
    | cons second rest =>
      have hfirst := ho first (by simp)
      have hparen := (not_paren_of_isOperand (ho second (by simp))).1
      simp only [isOperand, Bool.or_eq_true, decide_eq_true_eq] at hfirst
      rw [primary] at h
      rcases hfirst with hf | hf <;> simp [hf, hparen] at h

/-- What the scan delimits and the reader accepts has one of the forms. -/
theorem primaryForm {tokens : List Token} {count : Nat} {node : Node}
    (he : primaryEnd? tokens = some count) (hr : primary (tokens.take count) = .ok node) :
    PrimaryForm (tokens.take count) := by
  cases operandStart tokens with
  | nothing =>
    rw [List.take_nil, primary_nil] at hr
    cases hr
  | @group opening rest ho =>
    rw [primaryEnd?_group rest ho] at he
    obtain ⟨found, hf, rfl⟩ := Option.map_eq_some_iff.mp he
    obtain ⟨inside, closing, after, rfl, rfl, hk, hb⟩ := (closer?_eq_some_iff (by decide)).mp hf
    have ht : (opening :: (inside ++ closing :: after)).take (inside.length + 2) =
        opening :: (inside ++ [closing]) := by
      simp [List.take_append, List.take_of_length_le]
    rw [ht]
    exact .group ho hk hb
  | @call callee opening rest hn ho =>
    rw [primaryEnd?_call rest hn ho] at he
    obtain ⟨found, hf, rfl⟩ := Option.map_eq_some_iff.mp he
    obtain ⟨inside, closing, after, rfl, rfl, hk, hb⟩ := (closer?_eq_some_iff (by decide)).mp hf
    have ht : (callee :: opening :: (inside ++ closing :: after)).take (inside.length + 3) =
        callee :: opening :: (inside ++ [closing]) := by
      simp [List.take_append, List.take_of_length_le]
    rw [ht]
    exact .call hn ho hk hb
  | @plain first rest hp =>
    rw [hp] at he
    cases he
    rw [← List.prefix_iff_eq_take.mp (List.takeWhile_prefix isOperand)] at hr ⊢
    exact primaryForm_operands (List.all_eq_true.mp (List.all_takeWhile)) hr

theorem Primary.form (operand : Primary) : PrimaryForm operand.tokens := by
  have h := primaryForm operand.ends (by rw [List.take_length]; exact operand.reads)
  rwa [List.take_length] at h

theorem PrimaryForm.ne_nil {tokens : List Token} (h : PrimaryForm tokens) : tokens ≠ [] := by
  cases h <;> simp

theorem PrimaryForm.balanced {tokens : List Token} (h : PrimaryForm tokens) :
    Balanced .openParen .closeParen tokens := by
  cases h with
  | single ho =>
    have hparen := not_paren_of_isOperand ho
    exact balanced_nil.cons_other hparen.1 hparen.2
  | group ho hc hb => exact hb.enclose (by decide) ho hc
  | call hn ho hc hb =>
    exact (hb.enclose (by decide) ho hc).cons_other (by simp [hn]) (by simp [hn])

/-! ## Where scans stop -/

/-- The token cannot carry on the operand at the end of the range. Behind a closing parenthesis
no token can; behind a name or a number no other name or number may stand, and behind a name no
opening parenthesis. -/
structure Stops (range : List Token) (stop : Token) : Prop where
  operand : endsWith .closeParen range = false → isOperand stop = false
  call : endsWith .identifier range = true → stop.kind ≠ .openParen

theorem endsWith_append (kind : TokenKind) (before : List Token) {range : List Token}
    (h : range ≠ []) : endsWith kind (before ++ range) = endsWith kind range := by
  rw [endsWith, endsWith, List.getLast?_append_of_ne_nil _ h]

theorem stops_append (before : List Token) {range : List Token} (h : range ≠ []) (stop : Token) :
    Stops (before ++ range) stop ↔ Stops range stop := by
  constructor
  · rintro ⟨ho, hc⟩
    rw [endsWith_append _ _ h] at ho hc
    exact ⟨ho, hc⟩
  · rintro ⟨ho, hc⟩
    rw [← endsWith_append _ before h] at ho hc
    exact ⟨ho, hc⟩

theorem stops_operator (range : List Token) {stop : Token} (h : stop.kind = .operator) :
    Stops range stop :=
  ⟨fun _ => by simp [isOperand, h], fun _ => by simp [h]⟩

theorem stops_closed {range : List Token} (h : endsWith .closeParen range = true) (stop : Token) :
    Stops range stop := by
  refine ⟨fun hn => ?_, fun hi => ?_⟩
  · rw [h] at hn; cases hn
  · rw [endsWith] at h hi
    cases hl : range.getLast? with
    | none => rw [hl] at h; cases h
    | some last =>
      simp only [hl, decide_eq_true_eq] at h hi
      rw [h] at hi
      cases hi

theorem stops_single {token : Token} (ho : isOperand token = true) (stop : Token) :
    Stops [token] stop ↔
      isOperand stop = false ∧ (token.kind = .identifier → stop.kind ≠ .openParen) := by
  have hclose : endsWith .closeParen [token] = false := by
    simp [endsWith, (not_paren_of_isOperand ho).2]
  have hname : endsWith .identifier [token] = decide (token.kind = .identifier) := by
    simp [endsWith]
  constructor
  · rintro ⟨hs, hc⟩
    exact ⟨hs hclose, fun hk => hc (by rw [hname]; simp [hk])⟩
  · rintro ⟨hs, hc⟩
    exact ⟨fun _ => hs, fun hk => hc (by rw [hname] at hk; simpa using hk)⟩

theorem primaryEnd?_single {token : Token} (ho : isOperand token = true) (after : List Token) :
    primaryEnd? (token :: after) =
      if token.kind = .identifier ∧ startsWith .openParen after = true then
        (parenCloser? after.tail).map (· + 3)
      else some ((after.takeWhile isOperand).length + 1) := by
  simp [primaryEnd?, (not_paren_of_isOperand ho).1, ho]

/-- The scan for the end of a primary whose last token closes it stops there. -/
theorem PrimaryForm.end_closed {tokens : List Token} (h : PrimaryForm tokens)
    (hc : endsWith .closeParen tokens = true) (after : List Token) :
    primaryEnd? (tokens ++ after) = some tokens.length := by
  cases h with
  | @single token ho =>
    simp [endsWith, (not_paren_of_isOperand ho).2] at hc
  | @group opening inside closing ho hk hb =>
    rw [List.cons_append, primaryEnd?_group _ ho, List.append_assoc, List.singleton_append,
      parenCloser?_balanced hb hk]
    simp
  | @call callee opening inside closing hn ho hk hb =>
    rw [List.cons_append, List.cons_append, primaryEnd?_call _ hn ho, List.append_assoc,
      List.singleton_append, parenCloser?_balanced hb hk]
    simp

/-- A primary is closed by its last token, unless it has only one. -/
theorem PrimaryForm.closed_or_single {tokens : List Token} (h : PrimaryForm tokens) :
    endsWith .closeParen tokens = true ∨ ∃ token, tokens = [token] ∧ isOperand token = true := by
  cases h with
  | single ho => exact .inr ⟨_, rfl, ho⟩
  | group _ hk _ => exact .inl (by rw [← List.cons_append, endsWith_concat]; simp [hk])
  | call _ _ hk _ =>
    exact .inl (by rw [← List.cons_append, ← List.cons_append, endsWith_concat]; simp [hk])

theorem PrimaryForm.length_le {tokens : List Token} (h : PrimaryForm tokens) {after : List Token}
    {count : Nat} (he : primaryEnd? (tokens ++ after) = some count) : tokens.length ≤ count := by
  rcases h.closed_or_single with hc | ⟨token, rfl, ho⟩
  · rw [h.end_closed hc] at he
    cases he
    exact Nat.le_refl _
  · rw [List.singleton_append, primaryEnd?_single ho] at he
    split at he
    · obtain ⟨found, -, rfl⟩ := Option.map_eq_some_iff.mp he
      simp
    · cases he
      simp

/-- The scan for the end of a primary stops behind it exactly if the next token cannot carry it
on. -/
theorem PrimaryForm.end_iff {tokens : List Token} (h : PrimaryForm tokens) (after : List Token) :
    primaryEnd? (tokens ++ after) = some tokens.length ↔
      ∀ stop ∈ after.head?, Stops tokens stop := by
  rcases h.closed_or_single with hc | ⟨token, rfl, ho⟩
  · exact ⟨fun _ stop _ => stops_closed hc stop, fun _ => h.end_closed hc after⟩
  · rw [List.singleton_append, primaryEnd?_single ho]
    simp only [stops_single ho]
    cases after with
    | nil => simp [startsWith]
    | cons stop more =>
      by_cases hcall : token.kind = .identifier ∧ stop.kind = .openParen
      · simp [startsWith, hcall]
      · have hplain : ¬ (token.kind = .identifier ∧
            startsWith .openParen (stop :: more) = true) := by
          simpa [startsWith] using hcall
        rw [if_neg hplain]
        cases hi : isOperand stop with
        | true => simp [hi]
        | false => simpa [hi] using hcall

/-! ## Chains -/

/-- Operators, each with the primary after it. -/
abbrev Chain := List (TokenOf .operator × Primary)

def Chain.tokens (chain : Chain) : List Token :=
  chain.flatMap fun link => link.1.val :: link.2.tokens

def Chain.links (chain : Chain) : Links := chain.map fun link => (link.1.val, link.2.node)

@[simp] theorem Chain.tokens_nil : Chain.tokens [] = [] := rfl

@[simp] theorem Chain.tokens_cons (operator : TokenOf .operator) (operand : Primary)
    (chain : Chain) :
    Chain.tokens ((operator, operand) :: chain) =
      operator.val :: (operand.tokens ++ Chain.tokens chain) := by
  simp [Chain.tokens]

theorem Chain.balanced (chain : Chain) : Balanced .openParen .closeParen (Chain.tokens chain) := by
  induction chain with
  | nil => exact balanced_nil
  | cons link chain ih =>
    obtain ⟨operator, operand⟩ := link
    rw [Chain.tokens_cons]
    exact (operand.form.balanced.append ih).cons_other (by simp [operator.property])
      (by simp [operator.property])

theorem Primary.end_operator (operand : Primary) {operator : Token}
    (hk : operator.kind = .operator) (rest : List Token) :
    primaryEnd? (operand.tokens ++ operator :: rest) = some operand.tokens.length := by
  apply (operand.form.end_iff _).mpr
  intro stop hs
  cases hs
  exact stops_operator _ hk

/-- A primary ends where a chain goes on. -/
theorem Primary.end_chain (operand : Primary) (chain : Chain) :
    primaryEnd? (operand.tokens ++ Chain.tokens chain) = some operand.tokens.length := by
  cases chain with
  | nil => rw [Chain.tokens_nil, List.append_nil, operand.ends]
  | cons link chain =>
    obtain ⟨operator, next⟩ := link
    rw [Chain.tokens_cons, operand.end_operator operator.property]

/-! ## Reading a chain -/

theorem nextPriority_chain (operator : Token) (chain : Chain) :
    nextPriority (Chain.tokens chain) ≤ Operator.priority operator.text ↔
      TakesOne operator (Chain.links chain) := by
  cases chain with
  | nil => simp [Chain.links, nextPriority, TakesOne]
  | cons link chain => simp [Chain.tokens, Chain.links, nextPriority, TakesOne]

/-- The operator at hand takes its primary alone, or leaves the chain behind it to its right
side. -/
theorem operators_primary (operator : TokenOf .operator) (left : Node) (operand : Primary)
    (chain : Chain) :
    operators left (operator.val :: (operand.tokens ++ Chain.tokens chain)) =
      if Operator.priority operator.val.text < nextPriority (Chain.tokens chain) then do
        let right ← operators operand.node (Chain.tokens chain)
        .ok (.binary operator.val.text left right operator.val.span)
      else operators (.binary operator.val.text left operand.node operator.val.span)
        (Chain.tokens chain) := by
  rw [operators, operand.end_chain chain]
  simp only [operator.property, ne_eq, not_true_eq_false, if_false, Option.getD_some,
    List.take_left, List.drop_left, operand.reads, followedBy_ok]
  rfl

/-- What follows an operand is read as the fold of the links. -/
theorem operators_chain (chain : Chain) (left : Shape) :
    operators left.node (Chain.tokens chain) = .ok (left.fold (Chain.links chain)).node := by
  induction chain generalizing left with
  | nil =>
    rw [Chain.tokens_nil, operators]
    rfl
  | cons link chain ih =>
    obtain ⟨operator, operand⟩ := link
    rw [Chain.tokens_cons, operators_primary, Chain.links, List.map_cons, ← Chain.links, Shape.fold]
    by_cases ht : TakesOne operator.val (Chain.links chain)
    · have hp := (nextPriority_chain operator.val chain).mpr ht
      rw [if_neg (Nat.not_lt.mpr hp), if_pos ht]
      exact ih (.operation left operator.val (.operand operand.node))
    · have hp := mt (nextPriority_chain operator.val chain).mp ht
      rw [if_pos (Nat.not_le.mp hp), if_neg ht]
      have hright := ih (.operand operand.node)
      rw [Shape.node] at hright
      rw [hright]
      rfl

theorem expression_chain (first : Primary) (chain : Chain) :
    expression (first.tokens ++ Chain.tokens chain) =
      .ok ((Shape.operand first.node).fold (Chain.links chain)).node := by
  rw [expression, first.end_chain chain]
  simp only [List.take_left, List.drop_left, first.reads, followedBy_ok]
  exact operators_chain chain (.operand first.node)

/-! ## What is read is a chain -/

/-- A chain, or a chain and then an operator whose operand is left open. -/
inductive Chained : List Token → Prop
  | closed (chain : Chain) : Chained (Chain.tokens chain)
  | leftOpen (chain : Chain) {operator rest} : operator.kind = .operator → OpensUnclosed rest →
      Chained (Chain.tokens chain ++ operator :: rest)

theorem Chained.cons (operator : TokenOf .operator) (operand : Primary) {rest : List Token}
    (h : Chained rest) : Chained (operator.val :: (operand.tokens ++ rest)) := by
  cases h with
  | closed chain =>
    have := Chained.closed ((operator, operand) :: chain)
    rwa [Chain.tokens_cons] at this
  | leftOpen chain hk ho =>
    have := Chained.leftOpen ((operator, operand) :: chain) hk ho
    rwa [Chain.tokens_cons, List.cons_append, List.append_assoc] at this

/-- The primary that the scan delimits at the front of tokens. -/
def Primary.ofScan {tokens : List Token} {count : Nat} {node : Node}
    (he : primaryEnd? tokens = some count) (hr : primary (tokens.take count) = .ok node) :
    Primary where
  tokens := tokens.take count
  node := node
  ends := by
    have h := ((primaryForm he hr).end_iff []).mpr (fun stop hs => by cases hs)
    rwa [List.append_nil] at h
  reads := hr

theorem operators_chained : (tokens : List Token) → {left node : Node} →
    operators left tokens = .ok node → Chained tokens
  | [], _, _, _ => .closed []
  | operator :: rest, left, node, h => by
    rw [operators] at h
    by_cases hk : operator.kind = .operator
    · simp only [hk, ne_eq, not_true_eq_false, if_false] at h
      cases hp : primaryEnd? rest with
      | none => exact .leftOpen [] hk (primaryEnd?_none hp)
      | some count =>
        simp only [hp, Option.getD_some] at h
        obtain ⟨right, hright, hmore⟩ := bind_eq_ok.mp h
        have hrest : Chained (rest.drop count) := by
          split at hmore
          · obtain ⟨last, hlast, -⟩ := bind_eq_ok.mp hmore
            exact operators_chained (rest.drop count) hlast
          · exact operators_chained (rest.drop count) hmore
        have hall := hrest.cons ⟨operator, hk⟩ (.ofScan hp (followedBy_eq_ok.mp hright))
        simpa [Primary.ofScan] using hall
    · simp only [hk, ne_eq, not_false_eq_true, if_true] at h
      cases h
termination_by tokens => tokens.length
decreasing_by all_goals simp only [List.length_drop, List.length_cons]; omega

/-- Every range that is read as an expression is a primary and a chain behind it. -/
theorem expression_chained {tokens : List Token} {node : Node}
    (h : expression tokens = .ok node) :
    ∃ (first : Primary) (rest : List Token), tokens = first.tokens ++ rest ∧ Chained rest := by
  rw [expression] at h
  cases hp : primaryEnd? tokens with
  | none => simp only [hp] at h; cases h
  | some count =>
    simp only [hp] at h
    obtain ⟨left, hleft, hmore⟩ := bind_eq_ok.mp h
    exact ⟨.ofScan hp (followedBy_eq_ok.mp hleft), tokens.drop count,
      (List.take_append_drop count tokens).symm, operators_chained _ hmore⟩

/-! ## Where the scan for the end of an expression stops -/

/-- The scan for the end of an expression goes on behind a primary if an operator follows. -/
theorem expressionEnd?_of_end {tokens : List Token} {count : Nat} (hne : tokens ≠ [])
    (h : primaryEnd? tokens = some count) :
    expressionEnd? tokens =
      if startsWith .operator (tokens.drop count) then
        (expressionEnd? (tokens.drop (count + 1))).map (count + 1 + ·)
      else some count := by
  obtain ⟨first, rest, rfl⟩ := List.exists_cons_of_ne_nil hne
  rw [expressionEnd?, h, List.drop_succ_cons]

theorem expressionEnd?_of_unclosed {tokens : List Token} (hne : tokens ≠ [])
    (h : primaryEnd? tokens = none) : expressionEnd? tokens = none := by
  obtain ⟨first, rest, rfl⟩ := List.exists_cons_of_ne_nil hne
  rw [expressionEnd?, h]

theorem expressionEnd?_operator (operand : Primary) {operator : Token}
    (hk : operator.kind = .operator) (rest : List Token) :
    expressionEnd? (operand.tokens ++ operator :: rest) =
      (expressionEnd? rest).map (operand.tokens.length + 1 + ·) := by
  rw [expressionEnd?_of_end (by simp) (operand.end_operator hk rest), List.drop_length_add_append,
    List.drop_left]
  simp [startsWith, hk]

/-- The scan passes over a chain that ends in an operator. -/
theorem expressionEnd?_chain_operator (first : Primary) (chain : Chain) {operator : Token}
    (hk : operator.kind = .operator) (rest : List Token) :
    expressionEnd? (first.tokens ++ (Chain.tokens chain ++ operator :: rest)) =
      (expressionEnd? rest).map (first.tokens.length + ((Chain.tokens chain).length + 1) + ·) := by
  induction chain generalizing first with
  | nil =>
    rw [Chain.tokens_nil, List.nil_append, expressionEnd?_operator first hk]
    simp
  | cons link chain ih =>
    obtain ⟨next, operand⟩ := link
    rw [Chain.tokens_cons, List.cons_append, List.append_assoc,
      expressionEnd?_operator first next.property, ih operand, Option.map_map]
    congr 1
    funext count
    simp
    omega

theorem startsWith_eq_false_iff {kind : TokenKind} {tokens : List Token} :
    startsWith kind tokens = false ↔ ∀ token ∈ tokens.head?, token.kind ≠ kind := by
  cases tokens <;> simp [startsWith]

/-- The scan stops behind a primary exactly if the next token is no operator and cannot carry it
on. -/
theorem expressionEnd?_primary (operand : Primary) (after : List Token) :
    expressionEnd? (operand.tokens ++ after) = some operand.tokens.length ↔
      ∀ stop ∈ after.head?, stop.kind ≠ .operator ∧ Stops operand.tokens stop := by
  have hne : operand.tokens ++ after ≠ [] := by simp [operand.form.ne_nil]
  constructor
  · intro h
    cases hp : primaryEnd? (operand.tokens ++ after) with
    | none =>
      rw [expressionEnd?_of_unclosed hne hp] at h
      cases h
    | some count =>
      have hle := operand.form.length_le hp
      rw [expressionEnd?_of_end hne hp] at h
      split at h
      · obtain ⟨more, -, hm⟩ := Option.map_eq_some_iff.mp h
        omega
      · rename_i ho
        cases h
        rw [List.drop_left, Bool.not_eq_true, startsWith_eq_false_iff] at ho
        exact fun stop hs => ⟨ho stop hs, (operand.form.end_iff after).mp hp stop hs⟩
  · intro h
    have hend := (operand.form.end_iff after).mpr fun stop hs => (h stop hs).2
    have ho := startsWith_eq_false_iff.mpr fun stop hs => (h stop hs).1
    rw [expressionEnd?_of_end hne hend, List.drop_left, ho]
    rfl

/-- The scan stops behind a chain exactly if the next token is no operator and cannot carry its
last primary on. -/
theorem expressionEnd?_chain (first : Primary) (chain : Chain) (after : List Token) :
    expressionEnd? (first.tokens ++ (Chain.tokens chain ++ after)) =
        some (first.tokens.length + (Chain.tokens chain).length) ↔
      ∀ stop ∈ after.head?, stop.kind ≠ .operator ∧
        Stops (first.tokens ++ Chain.tokens chain) stop := by
  induction chain generalizing first with
  | nil =>
    rw [Chain.tokens_nil, List.nil_append, List.append_nil, List.length_nil, Nat.add_zero]
    exact expressionEnd?_primary first after
  | cons link chain ih =>
    obtain ⟨operator, operand⟩ := link
    have hop := operand.form.ne_nil
    rw [Chain.tokens_cons, List.cons_append, List.append_assoc,
      expressionEnd?_operator first operator.property]
    have hstops : ∀ stop, Stops (first.tokens ++ operator.val ::
        (operand.tokens ++ Chain.tokens chain)) stop ↔
        Stops (operand.tokens ++ Chain.tokens chain) stop := by
      intro stop
      rw [← List.singleton_append, ← List.append_assoc]
      exact stops_append _ (by simp [hop]) stop
    simp only [hstops, ← ih operand]
    constructor
    · intro h
      obtain ⟨count, hcount, hsum⟩ := Option.map_eq_some_iff.mp h
      rw [hcount]
      simp at hsum ⊢
      omega
    · intro h
      rw [h]
      simp
      omega

theorem drop_operator {tokens : List Token} {count : Nat}
    (h : startsWith .operator (tokens.drop count) = true) :
    ∃ operator : Token, operator.kind = .operator ∧
      tokens.drop count = operator :: tokens.drop (count + 1) := by
  obtain ⟨operator, rest, hd, hk⟩ := startsWith_iff.mp h
  refine ⟨operator, hk, ?_⟩
  rw [← List.drop_drop, hd, List.drop_one, List.tail_cons]

/-- What the scan passes over is balanced. -/
theorem expressionEnd?_balanced {tokens : List Token} {count : Nat}
    (h : expressionEnd? tokens = some count) :
    Balanced .openParen .closeParen (tokens.take count) := by
  fun_induction expressionEnd? tokens generalizing count with
  | case1 => rw [List.take_nil]; exact balanced_nil
  | case2 token rest hp => cases h
  | case3 token rest inner hp ho ih =>
    obtain ⟨more, hm, rfl⟩ := Option.map_eq_some_iff.mp h
    obtain ⟨operator, hk, hdrop⟩ := drop_operator ho
    rw [Nat.add_assoc, List.take_add, hdrop, Nat.add_comm 1, List.take_succ_cons]
    exact (primaryEnd?_balanced hp).append ((ih hm).cons_other (by simp [hk]) (by simp [hk]))
  | case4 token rest inner hp ho =>
    cases h
    exact primaryEnd?_balanced hp

/-- Where the scan finds no end, more parentheses are opened than closed. -/
theorem expressionEnd?_none {tokens : List Token} (h : expressionEnd? tokens = none) :
    kindCount .closeParen tokens < kindCount .openParen tokens := by
  fun_induction expressionEnd? tokens with
  | case1 => cases h
  | case2 token rest hp => exact (primaryEnd?_none hp).staysOpen.2
  | case3 token rest inner hp ho ih =>
    obtain ⟨operator, hk, hdrop⟩ := drop_operator ho
    have hrest := ih (Option.map_eq_none_iff.mp h)
    have hfirst := (primaryEnd?_balanced hp).1
    rw [← List.take_append_drop inner (token :: rest), hdrop, kindCount_append, kindCount_append]
    simp only [kindCount_cons, hk, reduceCtorEq, if_false, Nat.add_zero, hfirst,
      List.drop_succ_cons]
    omega
  | case4 token rest inner hp ho => cases h

/-- An expression with as many closing as opening parentheses leaves no operand open. -/
theorem expression_closed {tokens : List Token} {node : Node} (h : expression tokens = .ok node)
    (hc : kindCount .closeParen tokens = kindCount .openParen tokens) :
    ∃ (first : Primary) (chain : Chain), tokens = first.tokens ++ Chain.tokens chain := by
  obtain ⟨first, rest, rfl, hrest⟩ := expression_chained h
  cases hrest with
  | closed chain => exact ⟨first, chain, rfl⟩
  | @leftOpen chain operator rest hk ho =>
    have hfirst := first.form.balanced.1
    have hchain := chain.balanced.1
    have hopen := ho.staysOpen.2
    simp only [kindCount_append, kindCount_cons, hk, reduceCtorEq, if_false] at hc
    omega

/-- The scan stops behind an expression that is closed exactly if the next token cannot carry it
on. -/
theorem expressionEnd?_read {tokens : List Token} {node : Node} (h : expression tokens = .ok node)
    (hc : kindCount .closeParen tokens = kindCount .openParen tokens) (after : List Token) :
    expressionEnd? (tokens ++ after) = some tokens.length ↔
      ∀ stop ∈ after.head?, stop.kind ≠ .operator ∧ Stops tokens stop := by
  obtain ⟨first, chain, rfl⟩ := expression_closed h hc
  rw [List.append_assoc, List.length_append]
  exact expressionEnd?_chain first chain after

/-- The token at which the scan stops cannot carry on what is read before it. -/
theorem expressionEnd?_stop {tokens : List Token} {count : Nat} {node : Node}
    (he : expressionEnd? tokens = some count) (hr : expression (tokens.take count) = .ok node)
    (hl : count < tokens.length) :
    ∃ stop, tokens = tokens.take count ++ stop :: tokens.drop (count + 1) ∧
      stop.kind ≠ .operator ∧ Stops (tokens.take count) stop := by
  have hsplit : tokens = tokens.take count ++ tokens[count] :: tokens.drop (count + 1) := by
    rw [← List.drop_eq_getElem_cons hl, List.take_append_drop]
  have hcount : (tokens.take count).length = count := List.length_take_of_le (Nat.le_of_lt hl)
  have hend : expressionEnd? (tokens.take count ++ tokens[count] :: tokens.drop (count + 1)) =
      some (tokens.take count).length := by rw [← hsplit, he, hcount]
  exact ⟨tokens[count], hsplit,
    (expressionEnd?_read hr (expressionEnd?_balanced he).1 _).mp hend _ rfl⟩

end FrontEnd.Reading
