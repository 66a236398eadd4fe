import FrontEnd.Buffer
import FrontEnd.Proofs.BodyGrammar

/-! # Bodies are read by their grammar

A range is read as a body exactly if it is one, and as the same body. The first two tokens of a
statement decide how it is read, so it has to be shown that no expression begins the way a
declaration or an assignment does. The reader holds each node back until the next one; what it has
in hand, complete and pending nodes together, is always all that was read. -/
namespace FrontEnd
namespace Reading
open Grammar

/-! ## How expressions begin -/

theorem primary_nil : primary [] = .error ⟨.primary, 0⟩ := by rw [primary]

/-- An expression begins with a number, a name or a parenthesis. -/
theorem expression_begins {tokens : List Token} {node : Node}
    (h : expression tokens = .ok node) :
    ∃ first rest, tokens = first :: rest ∧
      (first.kind = .number ∨ first.kind = .identifier ∨ first.kind = .openParen) := by
  cases tokens with
  | nil => simp [expression, primaryEnd?, primary_nil, bind_eq_ok] at h
  | cons first rest =>
    refine ⟨first, rest, rfl, ?_⟩
    apply Decidable.byContradiction
    intro hk
    simp only [not_or] at hk
    have hend : primaryEnd? (first :: rest) = some 0 := by
      simp [primaryEnd?, isOperand, hk.1, hk.2.1, hk.2.2]
    simp [expression, hend, primary_nil, bind_eq_ok] at h

/-- An operand takes all names and numbers that stand together. -/
theorem primaryEnd?_name {first second : Token} {rest : List Token}
    (hf : first.kind = .identifier) (hs : second.kind ≠ .openParen) :
    primaryEnd? (first :: second :: rest) =
      some (((second :: rest).takeWhile isOperand).length + 1) := by
  have hi : isOperand first = true := by simp [isOperand, hf]
  simp [primaryEnd?, hf, startsWith, hs, List.takeWhile_cons, hi]

/-- An expression does not begin like a declaration. -/
theorem expression_not_two_names {first second : Token} {rest : List Token} {node : Node}
    (h : expression (first :: second :: rest) = .ok node) (hf : first.kind = .identifier) :
    second.kind ≠ .identifier := by
  intro hs
  have hi : isOperand second = true := by simp [isOperand, hs]
  rw [expression, primaryEnd?_name hf (by rw [hs]; decide)] at h
  simp [hi, primary, hf, hs, bind_eq_ok] at h

/-- An expression does not begin like an assignment. -/
theorem expression_not_assigned {first second : Token} {rest : List Token} {node : Node}
    (h : expression (first :: second :: rest) = .ok node) (hf : first.kind = .identifier) :
    second.kind ≠ .assign := by
  intro hs
  have hi : isOperand second = false := by simp [isOperand, hs]
  rw [expression, primaryEnd?_name hf (by rw [hs]; decide)] at h
  simp [hi, operators, hs, bind_eq_ok] at h

/-! ## Statements -/

theorem declaration_eq_ok_iff {tokens : List Token} {node : Node} :
    declaration tokens = .ok node ↔
      ∃ marker mutable type name value initializer, tokens = marker ++ type :: name :: value ∧
        Marker marker mutable ∧ type.kind = .identifier ∧ name.kind = .identifier ∧
        Initializer value initializer ∧
        node = .declare mutable type.text name.text initializer name.span := by
  constructor
  · intro h
    obtain ⟨⟨type, afterType⟩, ht, hrest⟩ := bind_eq_ok.mp h
    obtain ⟨⟨name, value⟩, hn, hvalue⟩ := bind_eq_ok.mp hrest
    obtain ⟨htokens, hkt⟩ := expect_eq_ok.mp ht
    obtain ⟨hafter, hkn⟩ := expect_eq_ok.mp hn
    rw [hafter] at htokens
    -- what stands before the type is the marker that was looked for
    have hmarker : ∃ marker, tokens = marker ++ type :: name :: value ∧
        Marker marker (startsWith .mutKeyword tokens) := by
      cases hs : startsWith .mutKeyword tokens with
      | false => rw [hs] at htokens; exact ⟨[], htokens, .absent⟩
      | true =>
        rw [hs, if_pos rfl] at htokens
        cases tokens with
        | nil => cases hs
        | cons keyword rest =>
          have hk : keyword.kind = .mutKeyword := by simpa [startsWith] using hs
          exact ⟨[keyword], by rw [← htokens]; rfl, .present hk⟩
    obtain ⟨marker, hsplit, hm⟩ := hmarker
    cases value with
    | nil =>
      cases hvalue
      exact ⟨marker, _, type, name, [], none, hsplit, hm, hkt, hkn, .absent, rfl⟩
    | cons sign value =>
      by_cases hk : sign.kind = .assign
      · simp only [hk, if_true] at hvalue
        obtain ⟨initializer, hv, hnode⟩ := bind_eq_ok.mp hvalue
        cases hnode
        exact ⟨marker, _, type, name, _, some initializer, hsplit, hm, hkt, hkn,
          .present hk hv, rfl⟩
      · simp only [hk, if_false] at hvalue
        cases hvalue
  · rintro ⟨marker, mutable, type, name, value, initializer, rfl, hm, hkt, hkn, hi, rfl⟩
    have hs : startsWith .mutKeyword (marker ++ type :: name :: value) = mutable := by
      cases hm with
      | absent => simp [startsWith, hkt]
      | present hk => simp [startsWith, hk]
    have hd : (if mutable then (marker ++ type :: name :: value).tail
        else marker ++ type :: name :: value) = type :: name :: value := by
      cases hm <;> rfl
    simp only [declaration, hs, hd, expect_eq_ok.mpr ⟨rfl, hkt⟩, expect_eq_ok.mpr ⟨rfl, hkn⟩,
      ok_bind]
    cases hi with
    | absent => rfl
    | present hk hv => simp [hk, hv]

theorem assignment_eq_ok_iff {tokens : List Token} {node : Node} :
    assignment tokens = .ok node ↔
      ∃ target sign value inner, tokens = target :: sign :: value ∧ target.kind = .identifier ∧
        sign.kind = .assign ∧ IsValue value inner ∧
        node = .assign target.text inner target.span := by
  constructor
  · intro h
    obtain ⟨⟨target, afterTarget⟩, ht, hrest⟩ := bind_eq_ok.mp h
    obtain ⟨⟨sign, value⟩, hs, hvalue⟩ := bind_eq_ok.mp hrest
    obtain ⟨inner, hv, hnode⟩ := bind_eq_ok.mp hvalue
    obtain ⟨htokens, hkt⟩ := expect_eq_ok.mp ht
    obtain ⟨hafter, hks⟩ := expect_eq_ok.mp hs
    cases hnode
    exact ⟨target, sign, value, inner, by rw [htokens, hafter], hkt, hks, hv, rfl⟩
  · rintro ⟨target, sign, value, inner, rfl, hkt, hks, hv, rfl⟩
    simp [assignment, expect, hkt, hks, hv]

/-- The first two tokens decide rightly how a statement is to be read. -/
theorem statement_eq_ok_iff {tokens : List Token} {node : Node} :
    statement tokens = .ok node ↔ StatementForm tokens node := by
  constructor
  · intro h
    unfold statement at h
    split at h
    · obtain ⟨marker, mutable, type, name, value, initializer, rfl, hm, hkt, hkn, hi, rfl⟩ :=
        declaration_eq_ok_iff.mp h
      exact .declaration hm hkt hkn hi
    · split at h
      · obtain ⟨marker, mutable, type, name, value, initializer, rfl, hm, hkt, hkn, hi, rfl⟩ :=
          declaration_eq_ok_iff.mp h
        exact .declaration hm hkt hkn hi
      · split at h
        · obtain ⟨target, sign, value, inner, rfl, hkt, hks, hv, rfl⟩ := assignment_eq_ok_iff.mp h
          exact .assignment hkt hks hv
        · exact .expression h
  · intro h
    unfold statement
    cases h with
    | declaration hm hkt hkn hi =>
      have hd := declaration_eq_ok_iff.mpr ⟨_, _, _, _, _, _, rfl, hm, hkt, hkn, hi, rfl⟩
      cases hm with
      | absent => simpa [startsWith, hkt, hkn] using hd
      | present hk => simpa [startsWith, hk] using hd
    | assignment hkt hks hv =>
      have ha := assignment_eq_ok_iff.mpr ⟨_, _, _, _, rfl, hkt, hks, hv, rfl⟩
      simpa [startsWith, hkt, hks] using ha
    | expression hv =>
      obtain ⟨first, rest, rfl, hk⟩ := expression_begins hv
      have hmut : first.kind ≠ .mutKeyword := by
        rcases hk with hk | hk | hk <;> rw [hk] <;> decide
      cases rest with
      | nil => simpa [startsWith, hmut] using hv
      | cons second rest =>
        have htwo := expression_not_two_names hv
        have hassign := expression_not_assigned hv
        by_cases hname : first.kind = .identifier
        · simpa [startsWith, hname, htwo hname, hassign hname] using hv
        · simpa [startsWith, hmut, hname] using hv

/-- A statement ends before the first semicolon, or with the range. -/
theorem statementEnd_append {tokens rest : List Token}
    (h : ∀ token ∈ tokens, token.kind ≠ .semicolon)
    (hr : ∀ token ∈ rest.head?, token.kind = .semicolon) :
    statementEnd (tokens ++ rest) = tokens.length := by
  have hall : ∀ token ∈ tokens, decide (token.kind ≠ .semicolon) = true := by simpa using h
  have hrest : rest.takeWhile (fun token => decide (token.kind ≠ .semicolon)) = [] := by
    cases rest with
    | nil => rfl
    | cons token more => simp [hr token rfl]
  rw [statementEnd, List.takeWhile_append_of_pos hall, hrest, List.append_nil]

theorem statementEnd_split (tokens : List Token) :
    ∃ front rest, tokens = front ++ rest ∧ front.length = statementEnd tokens ∧
      (∀ token ∈ front, token.kind ≠ .semicolon) ∧
      ∀ token ∈ rest.head?, token.kind = .semicolon := by
  let unbroken : Token → Bool := fun token => token.kind ≠ .semicolon
  refine ⟨tokens.takeWhile unbroken, tokens.dropWhile unbroken,
    List.takeWhile_append_dropWhile.symm, rfl, ?_, ?_⟩
  · intro token ht
    have hu := List.all_eq_true.mp (List.all_takeWhile (p := unbroken)) token ht
    simpa [unbroken] using hu
  · intro token ht
    have hn := List.head?_dropWhile_not unbroken tokens
    rw [ht] at hn
    simpa [unbroken] using hn

/-! ## Conditions and blocks -/

theorem condition_eq_ok_iff {tokens : List Token} {node : Node} {count : Nat} :
    condition tokens = .ok (node, count) ↔
      ∃ opening inside closing rest, tokens = opening :: (inside ++ closing :: rest) ∧
        opening.kind = .openParen ∧ closing.kind = .closeParen ∧
        Balanced .openParen .closeParen inside ∧ IsValue inside node ∧
        count = inside.length + 2 := by
  constructor
  · intro h
    cases tokens with
    | nil => cases h
    | cons opening more =>
      unfold condition at h
      by_cases ho : opening.kind = .openParen
      · simp only [ho, ne_eq, not_true_eq_false, if_false] at h
        cases hc : parenCloser? more with
        | none => rw [hc] at h; cases h
        | some found =>
          obtain ⟨inside, closing, rest, rfl, rfl, hk, hb⟩ :=
            (closer?_eq_some_iff (by decide)).mp hc
          simp only [hc, List.take_left] at h
          obtain ⟨value, hv, hpair⟩ := bind_eq_ok.mp h
          cases hpair
          exact ⟨opening, inside, closing, rest, rfl, ho, hk, hb, followedBy_eq_ok.mp hv, rfl⟩
      · simp only [ho, ne_eq, not_false_eq_true, if_true] at h
        cases h
  · rintro ⟨opening, inside, closing, rest, rfl, ho, hc, hb, hv, rfl⟩
    have hp : parenCloser? (inside ++ closing :: rest) = some inside.length :=
      closer?_balanced (by decide) hb hc
    simp [condition, ho, hp, hv]

theorem block_eq_ok_iff {tokens : List Token} {result : Body} {count : Nat} :
    block tokens = .ok (result, count) ↔
      ∃ opening inside closing rest, tokens = opening :: (inside ++ closing :: rest) ∧
        opening.kind = .openCurly ∧ closing.kind = .closeCurly ∧
        Balanced .openCurly .closeCurly inside ∧ body inside = .ok result ∧
        count = inside.length + 2 := by
  constructor
  · intro h
    cases tokens with
    | nil => rw [block] at h; cases h
    | cons opening more =>
      rw [block] at h
      by_cases ho : opening.kind = .openCurly
      · simp only [ho, ne_eq, not_true_eq_false, if_false] at h
        cases hc : curlyCloser? more with
        | none => rw [hc] at h; cases h
        | some found =>
          obtain ⟨inside, closing, rest, rfl, rfl, hk, hb⟩ :=
            (closer?_eq_some_iff (by decide)).mp hc
          simp only [hc, List.take_left] at h
          obtain ⟨inner, hv, hpair⟩ := bind_eq_ok.mp h
          cases hpair
          exact ⟨opening, inside, closing, rest, rfl, ho, hk, hb, followedBy_eq_ok.mp hv, rfl⟩
      · simp only [ho, ne_eq, not_false_eq_true, if_true] at h
        cases h
  · rintro ⟨opening, inside, closing, rest, rfl, ho, hc, hb, hv, rfl⟩
    have hp : curlyCloser? (inside ++ closing :: rest) = some inside.length :=
      closer?_balanced (by decide) hb hc
    rw [block]
    simp [ho, hp, hv]

/-! ## The node that is held back -/

theorem hasTail_iff {tokens : List Token} :
    HasTail tokens ↔ tokens ≠ [] ∧ endsWith .semicolon tokens = false := by
  cases h : tokens.getLast? with
  | none =>
    have hn : tokens = [] := List.getLast?_eq_none_iff.mp h
    simp [HasTail, hn]
  | some last =>
    have hne : tokens ≠ [] := by rintro rfl; cases h
    simp [HasTail, endsWith, h, hne]

/-- The end of the range decides, unless there is nothing after the front. -/
theorem hasTail_append (front : List Token) {rest : List Token} (h : HasTail (front ++ rest)) :
    rest = [] ∨ HasTail rest := by
  cases rest with
  | nil => exact .inl rfl
  | cons token more =>
    right
    obtain ⟨last, hl, hk⟩ := h
    rw [List.getLast?_append, List.getLast?_cons, Option.some_or] at hl
    exact ⟨last, by rw [List.getLast?_cons]; exact hl, hk⟩

/-- How the reader of a body stands after tokens that hold `nodes`: it began with `statements` and
`pending`, and has `done` and `last` now. No node is lost or moved, and if a tail is due there is a
node held back for it. -/
structure Held (tokens : List Token) (nodes statements : List Node) (pending : Option Node)
    (done : List Node) (last : Option Node) : Prop where
  all : done ++ last.toList = statements ++ pending.toList ++ nodes
  idle : tokens = [] → last = pending
  tail : HasTail tokens → last.isSome

section
variable {rest : List Token} {nodes statements done : List Node} {pending last : Option Node}

theorem held_nil (statements : List Node) (pending : Option Node) :
    Held [] [] statements pending statements pending := by
  refine ⟨by simp, fun _ => rfl, ?_⟩
  intro h
  exact absurd rfl (hasTail_iff.mp h).1

/-- A node is read, and the one before it is let go. -/
theorem Held.step {node : Node}
    (h : Held rest nodes (statements ++ pending.toList) (some node) done last)
    (front : List Token) (hf : front ≠ []) :
    Held (front ++ rest) (node :: nodes) statements pending done last := by
  refine ⟨by simpa using h.all, ?_, ?_⟩
  · intro hn
    exact absurd (List.append_eq_nil_iff.mp hn).1 hf
  · intro ht
    rcases hasTail_append _ ht with hr | hr
    · rw [h.idle hr]; rfl
    · exact h.tail hr

/-- A semicolon alone lets the node before it go, and holds none. -/
theorem Held.skip {semicolon : Token} (hk : semicolon.kind = .semicolon)
    (h : Held rest nodes (statements ++ pending.toList) none done last) :
    Held (semicolon :: rest) nodes statements pending done last := by
  refine ⟨by simpa using h.all, by simp, ?_⟩
  intro ht
  rcases hasTail_append [semicolon] ht with hr | hr
  · subst hr
    obtain ⟨only, ho, hne⟩ := ht
    cases ho
    exact absurd hk hne
  · exact h.tail hr

theorem closeBody_nodes (tokens : List Token) (done : List Node) (last : Option Node) :
    (closeBody tokens done last).statements ++ (closeBody tokens done last).tail.toList =
      done ++ last.toList := by
  unfold closeBody
  split <;> simp [Body.statements, Body.tail]

/-- At the end the node held back becomes the tail, or the last statement. -/
theorem Held.close {tokens : List Token} (h : Held tokens nodes [] none done last) :
    (closeBody tokens done last).tail.isSome ↔ HasTail tokens := by
  unfold closeBody
  split
  · rename_i he
    simp [Body.tail, hasTail_iff, he]
  · rename_i he
    refine ⟨?_, h.tail⟩
    intro hs
    refine hasTail_iff.mpr ⟨?_, by simpa using he⟩
    rintro rfl
    rw [Body.tail, h.idle rfl] at hs
    cases hs

end

/-- The nodes of a body and the presence of a tail fix the body. -/
theorem body_ext {a b : Body} (h : a.statements ++ a.tail.toList = b.statements ++ b.tail.toList)
    (ht : a.tail.isSome ↔ b.tail.isSome) : a = b := by
  obtain ⟨statements, tail⟩ := a
  obtain ⟨statements', tail'⟩ := b
  cases tail <;> cases tail' <;> simp_all [Body.statements, Body.tail]

/-! ## What is read is a body -/

mutual

theorem body_sound (tokens : List Token) {result : Body} (h : body tokens = .ok result) :
    IsBody tokens result := by
  rw [body] at h
  obtain ⟨⟨done, last⟩, hr, hc⟩ := bind_eq_ok.mp h
  cases hc
  obtain ⟨nodes, hi, hh⟩ := bodyRest_sound tokens hr
  have hn : done ++ last.toList = nodes := by simpa using hh.all
  refine .mk ?_ hh.close
  rw [closeBody_nodes, hn]
  exact hi
termination_by (tokens.length, 1)

theorem bodyRest_sound : (tokens : List Token) → {statements done : List Node} →
    {pending last : Option Node} → bodyRest statements pending tokens = .ok (done, last) →
    ∃ nodes, Items tokens nodes ∧ Held tokens nodes statements pending done last
  | [], _, _, _, _, h => by
    rw [bodyRest] at h
    cases h
    exact ⟨[], .nothing, held_nil _ _⟩
  | first :: rest, statements, _, pending, _, h => by
    rw [bodyRest] at h
    by_cases hif : first.kind = .ifKeyword
    · rw [if_pos hif] at h
      obtain ⟨⟨condition, inner, alternative, count⟩, hb, hr⟩ := bind_eq_ok.mp h
      obtain ⟨front, others, more, hrest, hcount, hfront, hothers⟩ := branch_sound rest hb
      have hd : rest.drop count = more := by
        rw [hrest, hcount, ← List.append_assoc, ← List.length_append, List.drop_left]
      simp only [hd] at hr
      obtain ⟨nodes, hi, hh⟩ := bodyRest_sound more hr
      rw [hrest]
      refine ⟨_, .conditional hif hfront hothers hi, ?_⟩
      have hs := hh.step (first :: (front ++ others)) (List.cons_ne_nil _ _)
      simpa using hs
    · rw [if_neg hif] at h
      by_cases hsemi : first.kind = .semicolon
      · rw [if_pos hsemi] at h
        obtain ⟨nodes, hi, hh⟩ := bodyRest_sound rest h
        exact ⟨nodes, .semicolon hsemi hi, hh.skip hsemi⟩
      · rw [if_neg hsemi] at h
        obtain ⟨front, more, hrest, hlen, hfree, hmore⟩ := statementEnd_split rest
        have htake : rest.take (statementEnd rest) = front := by
          rw [← hlen, hrest, List.take_left]
        have hdrop : rest.drop (statementEnd rest + 1) = more.tail := by
          rw [← hlen, hrest, ← List.drop_drop, List.drop_left, List.drop_one]
        simp only [htake, hdrop] at h
        clear htake hdrop
        obtain ⟨node, hn, hr⟩ := bind_eq_ok.mp h
        have hstatement : IsStatement (first :: front) node :=
          ⟨List.cons_ne_nil _ _, by simpa [hsemi] using hfree, by simp [startsWith, hif],
            statement_eq_ok_iff.mp (followedBy_eq_ok.mp hn)⟩
        cases hm : more with
        | nil =>
          rw [hm, List.tail_nil, bodyRest] at hr
          cases hr
          rw [hrest, hm, List.append_nil]
          refine ⟨[node], .final hstatement, ?_⟩
          have hs := (held_nil (statements ++ pending.toList) (some node)).step
            (first :: front) (List.cons_ne_nil _ _)
          simpa using hs
        | cons semicolon later =>
          rw [hm, List.tail_cons] at hr
          obtain ⟨nodes, hi, hh⟩ := bodyRest_sound later hr
          rw [hrest, hm]
          refine ⟨node :: nodes, .statement hstatement (hmore semicolon (by rw [hm]; rfl)) hi, ?_⟩
          have hs := hh.step (first :: (front ++ [semicolon])) (List.cons_ne_nil _ _)
          simpa using hs
termination_by tokens => (tokens.length, 0)
decreasing_by
  all_goals
    subst_vars
    simp only [Prod.lex_def, List.length_cons, List.length_append]
    omega

theorem block_sound (tokens : List Token) {result : Body} {count : Nat}
    (h : block tokens = .ok (result, count)) :
    ∃ front rest, tokens = front ++ rest ∧ count = front.length ∧ Block front result := by
  obtain ⟨opening, inside, closing, rest, ht, ho, hc, hb, hbody, hcount⟩ := block_eq_ok_iff.mp h
  exact ⟨opening :: (inside ++ [closing]), rest, by simp [ht], by simp [hcount],
    .mk ho hc hb (body_sound inside hbody)⟩
termination_by (tokens.length, 0)
decreasing_by
  subst_vars
  simp only [Prod.lex_def, List.length_cons, List.length_append]
  omega

theorem branch_sound (tokens : List Token) {node : Node} {result : Body}
    {otherwise : Alternative} {count : Nat}
    (h : branch tokens = .ok (node, result, otherwise, count)) :
    ∃ front others rest, tokens = front ++ (others ++ rest) ∧
      count = front.length + others.length ∧ Branch front node result ∧
      Alternatives others otherwise := by
  rw [branch] at h
  obtain ⟨⟨condition, conditionCount⟩, hcond, h₁⟩ := bind_eq_ok.mp h
  obtain ⟨⟨inner, bodyCount⟩, hblock, h₂⟩ := bind_eq_ok.mp h₁
  obtain ⟨⟨alternative, otherCount⟩, hother, h₃⟩ := bind_eq_ok.mp h₂
  cases h₃
  obtain ⟨opening, inside, closing, rest, ht, ho, hc, hb, hv, hcount⟩ :=
    condition_eq_ok_iff.mp hcond
  have hd : tokens.drop conditionCount = rest := by simp [ht, hcount]
  simp only [hd, ← List.drop_drop] at hblock hother
  obtain ⟨front, more, hmore, hlen, hfront⟩ := block_sound rest hblock
  simp only [hmore, hlen, List.drop_left] at hother
  obtain ⟨others, after, hafter, hothers, halt⟩ := alternative_sound more hother
  refine ⟨opening :: (inside ++ closing :: front), others, after, ?_, ?_,
    .mk ho hc hb hv hfront, halt⟩
  · simp [ht, hmore, hafter]
  · simp [hcount, hlen, hothers]
    omega
termination_by (tokens.length, 1)
decreasing_by
  all_goals
    subst_vars
    simp only [Prod.lex_def, List.length_cons, List.length_append]
    omega

theorem alternative_sound : (tokens : List Token) → {otherwise : Alternative} → {count : Nat} →
    alternative tokens = .ok (otherwise, count) →
    ∃ others rest, tokens = others ++ rest ∧ count = others.length ∧
      Alternatives others otherwise
  | [], _, _, h => by
    rw [alternative] at h
    cases h
    exact ⟨[], [], rfl, rfl, .nothing⟩
  | first :: rest, _, _, h => by
    rw [alternative] at h
    by_cases helif : first.kind = .elifKeyword
    · rw [if_pos helif] at h
      obtain ⟨⟨condition, inner, others, found⟩, hb, hr⟩ := bind_eq_ok.mp h
      cases hr
      obtain ⟨front, tokens, after, hrest, hcount, hfront, hothers⟩ := branch_sound rest hb
      exact ⟨first :: (front ++ tokens), after, by simp [hrest], by simp [hcount],
        .elif helif hfront hothers⟩
    · rw [if_neg helif] at h
      by_cases helse : first.kind = .elseKeyword
      · rw [if_pos helse] at h
        obtain ⟨⟨inner, found⟩, hb, hr⟩ := bind_eq_ok.mp h
        cases hr
        obtain ⟨front, after, hrest, hcount, hfront⟩ := block_sound rest hb
        exact ⟨first :: front, after, by simp [hrest], by simp [hcount], .otherwise helse hfront⟩
      · rw [if_neg helse] at h
        cases h
        exact ⟨[], first :: rest, rfl, rfl, .nothing⟩
termination_by tokens => (tokens.length, 0)
decreasing_by all_goals simp only [Prod.lex_def, List.length_cons]; omega

end

/-! ## Every body is read -/

/-- No further branch of a conditional follows. -/
def NoBranch (rest : List Token) : Prop :=
  ∀ token ∈ rest.head?, token.kind ≠ .elifKeyword ∧ token.kind ≠ .elseKeyword

theorem statementForm_begins {tokens : List Token} {node : Node} (h : StatementForm tokens node) :
    NoBranch tokens := by
  intro token ht
  cases h with
  | declaration hm hkt _ _ =>
    cases hm with
    | absent => cases ht; rw [hkt]; decide
    | present hk => cases ht; rw [hk]; decide
  | assignment hkt _ _ => cases ht; rw [hkt]; decide
  | expression hv =>
    obtain ⟨first, rest, rfl, hk⟩ := expression_begins hv
    cases ht
    rcases hk with hk | hk | hk <;> rw [hk] <;> decide

/-- What follows a conditional in a body cannot be taken for a further branch of it. -/
theorem items_begin {tokens : List Token} {nodes : List Node} (h : Items tokens nodes) :
    NoBranch tokens := by
  cases h with
  | nothing => intro token ht; cases ht
  | final hs => exact statementForm_begins hs.form
  | @statement front _ semicolon rest _ hs _ _ =>
    intro token ht
    obtain ⟨first, more, rfl⟩ := List.exists_cons_of_ne_nil hs.nonempty
    exact statementForm_begins hs.form token ht
  | semicolon hk _ => intro token ht; cases ht; rw [hk]; decide
  | conditional hk _ _ _ => intro token ht; cases ht; rw [hk]; decide

theorem alternative_nothing {rest : List Token} (h : NoBranch rest) :
    alternative rest = .ok (.nothing, 0) := by
  cases rest with
  | nil => rw [alternative]
  | cons first more =>
    obtain ⟨helif, helse⟩ := h first rfl
    rw [alternative, if_neg helif, if_neg helse]

/-- One statement is read, together with the semicolon after it if there is one. -/
theorem bodyRest_statement {front : List Token} {node : Node} (hs : IsStatement front node)
    (rest : List Token) (hr : ∀ token ∈ rest.head?, token.kind = .semicolon)
    (statements : List Node) (pending : Option Node) :
    bodyRest statements pending (front ++ rest) =
      bodyRest (statements ++ pending.toList) (some node) rest.tail := by
  obtain ⟨first, more, rfl⟩ := List.exists_cons_of_ne_nil hs.nonempty
  have hif : first.kind ≠ .ifKeyword := by simpa [startsWith] using hs.unconditional
  have hsemi : first.kind ≠ .semicolon := hs.unbroken first (by simp)
  have hend : statementEnd (more ++ rest) = more.length :=
    statementEnd_append (fun token ht => hs.unbroken token (by simp [ht])) hr
  have hdrop : (more ++ rest).drop (more.length + 1) = rest.tail := by
    rw [← List.drop_drop, List.drop_left, List.drop_one]
  rw [List.cons_append, bodyRest, if_neg hif, if_neg hsemi]
  simp only [hend, hdrop, List.take_left, statement_eq_ok_iff.mpr hs.form, followedBy_ok, ok_bind]

mutual

theorem items_complete : {tokens : List Token} → {nodes : List Node} → Items tokens nodes →
    (statements : List Node) → (pending : Option Node) →
    ∃ done last, bodyRest statements pending tokens = .ok (done, last) ∧
      Held tokens nodes statements pending done last
  | _, _, .nothing, statements, pending => by
    exact ⟨statements, pending, by rw [bodyRest], held_nil _ _⟩
  | _, _, @Items.final front node hs, statements, pending => by
    have hr := bodyRest_statement hs [] (fun _ ht => by cases ht) statements pending
    have hh := (held_nil (statements ++ pending.toList) (some node)).step front hs.nonempty
    rw [List.append_nil] at hr hh
    exact ⟨_, _, by rw [hr, List.tail_nil, bodyRest], hh⟩
  | _, _, @Items.statement front node semicolon rest nodes hs hk hi, statements, pending => by
    have hr := bodyRest_statement hs (semicolon :: rest) (fun _ ht => by cases ht; exact hk)
      statements pending
    obtain ⟨done, last, hrest, hh⟩ := items_complete hi (statements ++ pending.toList) (some node)
    refine ⟨done, last, hr.trans hrest, ?_⟩
    have hstep := hh.step (front ++ [semicolon]) (by simp)
    rw [List.append_assoc] at hstep
    exact hstep
  | _, _, .semicolon hk hi, statements, pending => by
    obtain ⟨done, last, hrest, hh⟩ := items_complete hi (statements ++ pending.toList) none
    refine ⟨done, last, ?_, hh.skip hk⟩
    rw [bodyRest, if_neg (by rw [hk]; decide), if_pos hk]
    exact hrest
  | _, _, @Items.conditional keyword front condition inner others alternative rest nodes hk hb ha
      hi, statements, pending => by
    obtain ⟨done, last, hrest, hh⟩ := items_complete hi (statements ++ pending.toList)
      (some (.conditional condition inner alternative keyword.span))
    have hbranch := branch_complete hb (alternatives_complete ha rest (items_begin hi))
    refine ⟨done, last, ?_, ?_⟩
    · rw [bodyRest, if_pos hk, hbranch, ok_bind]
      simp only [← List.append_assoc, ← List.length_append, List.drop_left]
      exact hrest
    · have hstep := hh.step (keyword :: (front ++ others)) (List.cons_ne_nil _ _)
      rw [List.cons_append, List.append_assoc] at hstep
      exact hstep

theorem body_complete : {tokens : List Token} → {result : Body} → IsBody tokens result →
    body tokens = .ok result
  | tokens, result, .mk hi ht => by
    obtain ⟨done, last, hr, hh⟩ := items_complete hi [] none
    have hn : done ++ last.toList = result.statements ++ result.tail.toList := by
      simpa using hh.all
    rw [body, hr, ok_bind]
    exact congrArg _ (body_ext ((closeBody_nodes tokens done last).trans hn)
      (hh.close.trans ht.symm))

theorem block_complete : {front : List Token} → {result : Body} → Block front result →
    (rest : List Token) → block (front ++ rest) = .ok (result, front.length)
  | _, _, .mk ho hc hb hbody, rest => by
    refine block_eq_ok_iff.mpr ⟨_, _, _, rest, ?_, ho, hc, hb, body_complete hbody, ?_⟩
    · simp
    · simp

theorem branch_complete : {front more : List Token} → {node : Node} → {result : Body} →
    {otherwise : Alternative} → {count : Nat} → Branch front node result →
    alternative more = .ok (otherwise, count) →
    branch (front ++ more) = .ok (node, result, otherwise, front.length + count)
  | _, more, _, _, _, _, @Branch.mk _ inside _ _ front _ ho hc hb hv hblock, hmore => by
    have hcond := condition_eq_ok_iff.mpr ⟨_, _, _, front ++ more, rfl, ho, hc, hb, hv, rfl⟩
    have hread := block_complete hblock more
    rw [List.cons_append, List.append_assoc, List.cons_append, branch, hcond, ok_bind]
    simp [hread, hmore, ← List.drop_drop]
    omega

theorem alternatives_complete : {others : List Token} → {otherwise : Alternative} →
    Alternatives others otherwise → (rest : List Token) → NoBranch rest →
    alternative (others ++ rest) = .ok (otherwise, others.length)
  | _, _, .nothing, rest, h => alternative_nothing h
  | _, _, .otherwise hk hb, rest, h => by
    rw [List.cons_append, alternative, if_neg (by rw [hk]; decide), if_pos hk,
      block_complete hb rest]
    rfl
  | _, _, .elif hk hb ha, rest, h => by
    rw [List.cons_append, List.append_assoc, alternative, if_pos hk,
      branch_complete hb (alternatives_complete ha rest h)]
    simp

end

/-- Tokens that split into items are read, as a body with their nodes. -/
theorem items_read {tokens : List Token} {nodes : List Node} (h : Items tokens nodes) :
    ∃ result, body tokens = .ok result ∧ result.statements ++ result.tail.toList = nodes := by
  obtain ⟨done, last, hr, hh⟩ := items_complete h [] none
  refine ⟨closeBody tokens done last, by rw [body, hr, ok_bind], ?_⟩
  rw [closeBody_nodes]
  simpa using hh.all

end Reading

/-- A range is read as a body exactly if its tokens split into items, and then the body has just the
nodes of these items, in order; it has a tail exactly if the last token is there and is no
semicolon. -/
theorem Buffer.body_reads_items (buffer : Buffer) (range : Buffer.Range) :
    (∀ nodes, Grammar.Items (buffer.tokensOf range) nodes ↔
      ∃ body, buffer.body range = .ok body ∧ body.statements ++ body.tail.toList = nodes) ∧
    ∀ body, buffer.body range = .ok body →
      (body.tail.isSome ↔ Grammar.HasTail (buffer.tokensOf range)) := by
  simp only [Buffer.body, Buffer.settle_eq_ok]
  constructor
  · intro nodes
    constructor
    · exact Reading.items_read
    · rintro ⟨body, hb, rfl⟩
      obtain ⟨hi, -⟩ := Reading.body_sound _ hb
      exact hi
  · intro body hb
    obtain ⟨-, ht⟩ := Reading.body_sound _ hb
    exact ht

/-- The tokens of `) x = 1; y mut`, of which `x = 1; y` is a body. -/
def Buffer.embedded : Buffer where
  tokens := [⟨.closeParen, ")", ⟨1, 0, 1⟩⟩, ⟨.identifier, "x", ⟨1, 2, 3⟩⟩,
    ⟨.assign, "=", ⟨1, 4, 5⟩⟩, ⟨.number, "1", ⟨1, 6, 7⟩⟩, ⟨.semicolon, ";", ⟨1, 7, 8⟩⟩,
    ⟨.identifier, "y", ⟨1, 9, 10⟩⟩, ⟨.mutKeyword, "mut", ⟨1, 11, 14⟩⟩]

example : (Buffer.embedded.tokensOf ⟨1, 6, by decide⟩).map Token.text = ["x", "=", "1", ";", "y"] ∧
    Buffer.embedded.body ⟨1, 6, by decide⟩ =
      .ok (.mk [.assign "x" (.number "1" ⟨1, 6, 7⟩) ⟨1, 2, 3⟩]
        (some (.reference "y" ⟨1, 9, 10⟩))) := by
  unfold Buffer.embedded
  exact ⟨rfl, by cbv⟩

end FrontEnd
