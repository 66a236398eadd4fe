import Mathlib
import FrontEnd.Program
import FrontEnd.Proofs.BodyReading

/-! # Parentheses in accepted programs

Every parenthesis of an accepted body is closed, with one exception. An operand that follows an
operator and whose parenthesis finds no closer takes the rest of the statement, and may be read all
the same. So an accepted body never closes more than it opens, and what it opens is closed exactly
if no operand after an operator is left open. Nothing has to be known about what stands inside
matched parentheses. -/
namespace FrontEnd
namespace Reading
open Grammar

/-- The tokens begin with a parenthesis, or a call, that is not closed in them. -/
def OpensUnclosed (tokens : List Token) : Prop :=
  ∃ opening inside, opening.kind = .openParen ∧ StaysOpen .openParen .closeParen 0 inside ∧
    (tokens = opening :: inside ∨
      ∃ callee, callee.kind = .identifier ∧ tokens = callee :: opening :: inside)

/-- An operand directly behind an operator is left open. -/
def HasUnclosedOperand (tokens : List Token) : Prop :=
  ∃ before operator rest, tokens = before ++ operator :: rest ∧ operator.kind = .operator ∧
    OpensUnclosed rest

/-- No parenthesis is closed that was not opened, and only an operand behind an operator is left
open. -/
structure Guarded (tokens : List Token) : Prop where
  opened : StaysOpen .openParen .closeParen 0 tokens
  closed : kindCount .closeParen tokens ≠ kindCount .openParen tokens → HasUnclosedOperand tokens

theorem OpensUnclosed.append {tokens rest : List Token} (h : OpensUnclosed tokens)
    (hr : StaysOpen .openParen .closeParen 0 rest) : OpensUnclosed (tokens ++ rest) := by
  obtain ⟨opening, inside, ho, hs, ht⟩ := h
  have hs' : StaysOpen .openParen .closeParen 0 (inside ++ rest) := hs.append hr hs.count_le
  refine ⟨opening, inside ++ rest, ho, hs', ?_⟩
  rcases ht with rfl | ⟨callee, hc, rfl⟩
  · exact .inl rfl
  · exact .inr ⟨callee, hc, rfl⟩

theorem OpensUnclosed.staysOpen {tokens : List Token} (h : OpensUnclosed tokens) :
    StaysOpen .openParen .closeParen 0 tokens ∧
      kindCount .closeParen tokens < kindCount .openParen tokens := by
  obtain ⟨opening, inside, ho, hs, ht⟩ := h
  have hle := hs.count_le
  have hopen : StaysOpen .openParen .closeParen 0 (opening :: inside) :=
    (staysOpen_cons_opening (by decide) ho).mpr (hs.mono (Nat.zero_le 1))
  rcases ht with rfl | ⟨callee, hc, rfl⟩
  · refine ⟨hopen, ?_⟩
    simp [ho]
    omega
  · refine ⟨(staysOpen_cons_other (by simp [hc]) (by simp [hc])).mpr hopen, ?_⟩
    simp [ho, hc]
    omega

theorem guarded_of_balanced {tokens : List Token} (h : Balanced .openParen .closeParen tokens) :
    Guarded tokens := ⟨h.2, fun hne => absurd h.1 hne⟩

theorem Guarded.append {tokens rest : List Token} (h : Guarded tokens) (hr : Guarded rest) :
    Guarded (tokens ++ rest) := by
  refine ⟨h.opened.append hr.opened h.opened.count_le, ?_⟩
  intro hne
  by_cases he : kindCount .closeParen tokens = kindCount .openParen tokens
  · have hlast : kindCount .closeParen rest ≠ kindCount .openParen rest := by
      intro heq
      exact hne (by simp [he, heq])
    obtain ⟨before, operator, after, rfl, hk, ho⟩ := hr.closed hlast
    exact ⟨tokens ++ before, operator, after, by simp, hk, ho⟩
  · -- what was left open in front stays open, since the rest closes nothing of it
    obtain ⟨before, operator, after, rfl, hk, ho⟩ := h.closed he
    exact ⟨before, operator, after ++ rest, by simp, hk, ho.append hr.opened⟩

theorem Guarded.cons {token : Token} {kind : TokenKind} {rest : List Token} (h : Guarded rest)
    (hk : token.kind = kind) (hp : kind ≠ .openParen ∧ kind ≠ .closeParen) :
    Guarded (token :: rest) := by
  subst hk
  exact (guarded_of_balanced (balanced_nil.cons_other hp.1 hp.2)).append h

/-- In guarded tokens the count of parentheses tells whether an operand is left open. -/
theorem Guarded.count_eq_iff {tokens : List Token} (h : Guarded tokens) :
    kindCount .closeParen tokens = kindCount .openParen tokens ↔ ¬ HasUnclosedOperand tokens := by
  constructor
  · rintro he ⟨before, operator, rest, rfl, hk, ho⟩
    have hbefore := h.opened before (List.prefix_append _ _)
    have hrest := ho.staysOpen.2
    simp [hk] at he
    omega
  · intro hn
    exact Decidable.byContradiction fun hne => hn (h.closed hne)

/-! ## Operands and expressions -/

/-- What the scan for the end of an operand passes over is balanced. -/
theorem primaryEnd?_balanced {tokens : List Token} {count : Nat}
    (h : primaryEnd? tokens = some count) :
    Balanced .openParen .closeParen (tokens.take count) := by
  cases operandStart tokens with
  | nothing => rw [List.take_nil]; exact balanced_nil
  | @group opening rest ho =>
    rw [primaryEnd?_group rest ho] at h
    obtain ⟨found, hf, rfl⟩ := Option.map_eq_some_iff.mp h
    obtain ⟨inside, closing, after, rfl, rfl, hk, hb⟩ := (closer?_eq_some_iff (by decide)).mp hf
    have ht : (opening :: (inside ++ closing :: after)).take (inside.length + 2) =
        opening :: (inside ++ [closing]) := by
      simp [List.take_append, List.take_of_length_le]
    rw [ht]
    exact hb.enclose (by decide) ho hk
  | @call callee opening rest hn ho =>
    rw [primaryEnd?_call rest hn ho] at h
    obtain ⟨found, hf, rfl⟩ := Option.map_eq_some_iff.mp h
    obtain ⟨inside, closing, after, rfl, rfl, hk, hb⟩ := (closer?_eq_some_iff (by decide)).mp hf
    have ht : (callee :: opening :: (inside ++ closing :: after)).take (inside.length + 3) =
        callee :: opening :: (inside ++ [closing]) := by
      simp [List.take_append, List.take_of_length_le]
    rw [ht]
    exact (hb.enclose (by decide) ho hk).cons_other (by simp [hn]) (by simp [hn])
  | @plain first rest hp =>
    rw [hp] at h
    cases h
    rw [← List.prefix_iff_eq_take.mp (List.takeWhile_prefix isOperand)]
    apply balanced_of_bracketless
    intro token ht
    have hi := List.all_eq_true.mp (List.all_takeWhile (p := isOperand)) token ht
    simp only [isOperand, Bool.or_eq_true, decide_eq_true_eq] at hi
    rcases hi with hi | hi <;> rw [hi] <;> decide

theorem primaryEnd?_none {tokens : List Token} (h : primaryEnd? tokens = none) :
    OpensUnclosed tokens := by
  cases operandStart tokens with
  | nothing => cases h
  | @group opening rest ho =>
    rw [primaryEnd?_group rest ho] at h
    have hs := (closer?_eq_none_iff (by decide)).mp (Option.map_eq_none_iff.mp h)
    exact ⟨opening, rest, ho, hs, .inl rfl⟩
  | @call callee opening rest hn ho =>
    rw [primaryEnd?_call rest hn ho] at h
    have hs := (closer?_eq_none_iff (by decide)).mp (Option.map_eq_none_iff.mp h)
    exact ⟨opening, rest, ho, hs, .inr ⟨callee, hn, rfl⟩⟩
  | plain hp => rw [hp] at h; cases h

/-- A chain is left open only by its last operand, where the scan found no end. -/
theorem operators_guarded : (tokens : List Token) → {left node : Node} →
    operators left tokens = .ok node → Guarded tokens
  | [], _, _, _ => guarded_of_balanced balanced_nil
  | operator :: rest, left, node, h => by
    rw [operators] at h
    by_cases hk : operator.kind = .operator
    · simp only [hk, ne_eq, not_true_eq_false, if_false] at h
      cases hp : primaryEnd? rest with
      | none =>
        have hu := primaryEnd?_none hp
        obtain ⟨hs, -⟩ := hu.staysOpen
        exact ⟨(staysOpen_cons_other (by simp [hk]) (by simp [hk])).mpr hs,
          fun _ => ⟨[], operator, rest, rfl, hk, hu⟩⟩
      | some count =>
        simp only [hp, Option.getD_some] at h
        obtain ⟨right, hright, hmore⟩ := bind_eq_ok.mp h
        have hrest : Guarded (rest.drop count) := by
          split at hmore
          · obtain ⟨last, hlast, -⟩ := bind_eq_ok.mp hmore
            exact operators_guarded (rest.drop count) hlast
          · exact operators_guarded (rest.drop count) hmore
        have hall := (guarded_of_balanced (primaryEnd?_balanced hp)).append hrest
        rw [List.take_append_drop] at hall
        exact hall.cons hk (by decide)
    · simp only [hk, ne_eq, not_false_eq_true, if_true] at h
      cases h
termination_by tokens => tokens.length
decreasing_by all_goals simp only [List.length_drop, List.length_cons]; omega

theorem expression_guarded {tokens : List Token} {node : Node} (h : IsValue tokens node) :
    Guarded tokens := by
  rw [IsValue, expression] at h
  cases hp : primaryEnd? tokens with
  | none => simp only [hp] at h; cases h
  | some count =>
    simp only [hp] at h
    obtain ⟨left, hleft, hmore⟩ := bind_eq_ok.mp h
    have hall := (guarded_of_balanced (primaryEnd?_balanced hp)).append (operators_guarded _ hmore)
    rw [List.take_append_drop] at hall
    exact hall

/-! ## Statements and bodies -/

theorem initializer_guarded {tokens : List Token} {initializer : Option Node}
    (h : Initializer tokens initializer) : Guarded tokens := by
  cases h with
  | absent => exact guarded_of_balanced balanced_nil
  | present hk hv => exact (expression_guarded hv).cons hk (by decide)

theorem statementForm_guarded {tokens : List Token} {node : Node}
    (h : StatementForm tokens node) : Guarded tokens := by
  cases h with
  | declaration hm hkt hkn hi =>
    have hd := ((initializer_guarded hi).cons hkn (by decide)).cons hkt (by decide)
    cases hm with
    | absent => exact hd
    | present hk => exact hd.cons hk (by decide)
  | assignment hkt hks hv =>
    exact ((expression_guarded hv).cons hks (by decide)).cons hkt (by decide)
  | expression hv => exact expression_guarded hv

mutual

theorem items_guarded : {tokens : List Token} → {nodes : List Node} → Items tokens nodes →
    Guarded tokens
  | _, _, .nothing => guarded_of_balanced balanced_nil
  | _, _, .final hs => statementForm_guarded hs.form
  | _, _, .statement hs hk hi =>
    (statementForm_guarded hs.form).append
      ((items_guarded hi).cons hk (by decide))
  | _, _, .semicolon hk hi => (items_guarded hi).cons hk (by decide)
  | _, _, .conditional hk hb ha hi =>
    ((branch_guarded hb).append ((alternatives_guarded ha).append (items_guarded hi))).cons hk
      (by decide)

theorem body_guarded : {tokens : List Token} → {result : Body} → IsBody tokens result →
    Guarded tokens
  | _, _, .mk hi _ => items_guarded hi

theorem block_guarded : {tokens : List Token} → {result : Body} → Block tokens result →
    Guarded tokens
  | _, _, .mk ho hc _ hb =>
    ((body_guarded hb).append
      ((guarded_of_balanced balanced_nil).cons hc (by decide))).cons ho (by decide)

theorem branch_guarded : {tokens : List Token} → {node : Node} → {result : Body} →
    Branch tokens node result → Guarded tokens
  | _, _, _, @Branch.mk opening inside closing _ block _ ho hc hb _ hblock => by
    have hcond := guarded_of_balanced (hb.enclose (by decide) ho hc)
    have hall := hcond.append (block_guarded hblock)
    simpa using hall

theorem alternatives_guarded : {tokens : List Token} → {otherwise : Alternative} →
    Alternatives tokens otherwise → Guarded tokens
  | _, _, .nothing => guarded_of_balanced balanced_nil
  | _, _, .otherwise hk hb => (block_guarded hb).cons hk (by decide)
  | _, _, .elif hk hb ha =>
    ((branch_guarded hb).append (alternatives_guarded ha)).cons hk (by decide)

end

/-! ## Programs -/

/-- The tokens between the braces of a function, given what follows its `fn`. -/
def bodyRange (tokens : List Token) : List Token :=
  match prototype tokens with
  | .ok (_, count) =>
    let inner := tokens.drop (count + 1)
    inner.take ((curlyCloser? inner).getD 0)
  | .error _ => []

def bodyRanges : List Token → List (List Token)
  | [] => []
  | first :: rest =>
    if first.kind = .externKeyword then
      match externalRest rest with
      | .ok (_, count) => bodyRanges (rest.drop count)
      | .error _ => []
    else
      match definitionRest rest with
      | .ok (_, count) => bodyRange rest :: bodyRanges (rest.drop count)
      | .error _ => []
termination_by tokens => tokens.length
decreasing_by all_goals simp +arith [List.length_drop]

theorem body_bodyRange {tokens : List Token} {definition : Definition} {count : Nat}
    (h : definitionRest tokens = .ok (definition, count)) :
    body (bodyRange tokens) = .ok definition.body := by
  obtain ⟨⟨head, headCount⟩, hhead, hrest⟩ := bind_eq_ok.mp h
  obtain ⟨⟨inner, innerCount⟩, hblock, hpair⟩ := bind_eq_ok.mp hrest
  cases hpair
  obtain ⟨opening, inside, closing, rest, ht, ho, hc, hb, hbody, -⟩ := block_eq_ok_iff.mp hblock
  have hinner : tokens.drop (headCount + 1) = inside ++ closing :: rest := by
    rw [← List.drop_drop, ht, List.drop_one, List.tail_cons]
  have hclose : curlyCloser? (inside ++ closing :: rest) = some inside.length :=
    closer?_balanced (by decide) hb hc
  simp only [bodyRange, hhead, hinner, hclose, Option.getD_some, List.take_left]
  exact hbody

/-- The ranges are where the bodies of the functions were read. -/
theorem body_bodyRanges : (tokens : List Token) → {result : Program} →
    program tokens = .ok result →
    (bodyRanges tokens).map body = result.definitions.map fun definition => .ok definition.body
  | [], _, h => by
    rw [program] at h
    cases h
    rw [bodyRanges]
    rfl
  | first :: rest, result, h => by
    rw [program] at h
    rw [bodyRanges]
    by_cases hext : first.kind = .externKeyword
    · rw [if_pos hext] at h ⊢
      obtain ⟨⟨head, count⟩, hhead, hmore⟩ := bind_eq_ok.mp h
      obtain ⟨more, hprogram, hresult⟩ := bind_eq_ok.mp hmore
      cases hresult
      have hranges := body_bodyRanges (rest.drop count) hprogram
      simp only [hhead]
      exact hranges
    · rw [if_neg hext] at h ⊢
      by_cases hfn : first.kind = .fnKeyword
      · rw [if_pos hfn] at h
        obtain ⟨⟨definition, count⟩, hdef, hmore⟩ := bind_eq_ok.mp h
        obtain ⟨more, hprogram, hresult⟩ := bind_eq_ok.mp hmore
        cases hresult
        simp only [hdef, List.map_cons, body_bodyRange hdef, Program.define]
        rw [body_bodyRanges (rest.drop count) hprogram]
      · rw [if_neg hfn] at h
        cases h
termination_by tokens => tokens.length
decreasing_by all_goals simp only [List.length_drop, List.length_cons]; omega

end Reading

/-- In the body of every function of an accepted source no parenthesis is closed before it is
opened, and all are closed exactly if no operand behind an operator is left open. -/
theorem Program.parens_of_accepted {source : String} {program : Program}
    (h : Program.ofSource source = .ok program) :
    ∃ tokens, Token.scan source = .ok tokens ∧
      (Reading.bodyRanges tokens).map Reading.body =
        program.definitions.map (fun definition => .ok definition.body) ∧
      ∀ range ∈ Reading.bodyRanges tokens,
        Reading.StaysOpen .openParen .closeParen 0 range ∧
        (Reading.kindCount .closeParen range = Reading.kindCount .openParen range ↔
          ¬ Reading.HasUnclosedOperand range) := by
  unfold Program.ofSource at h
  cases hs : Token.scan source with
  | error diagnostic => rw [hs] at h; cases h
  | ok tokens =>
    rw [hs] at h
    have hbodies := Reading.body_bodyRanges tokens (Buffer.settle_eq_ok.mp h)
    refine ⟨tokens, rfl, hbodies, ?_⟩
    intro range hr
    have hmem : Reading.body range ∈
        program.definitions.map fun definition => .ok definition.body :=
      hbodies ▸ List.mem_map_of_mem hr
    obtain ⟨definition, -, hbody⟩ := List.mem_map.mp hmem
    have hguard := Reading.body_guarded (Reading.body_sound range hbody.symm)
    exact ⟨hguard.opened, hguard.count_eq_iff⟩

/-- What is read from a source whose call `g` is never closed. -/
def Program.unclosedCall : Program :=
  ⟨[⟨⟨"f", [], "void", ⟨1, 3, 4⟩⟩,
    .mk [] (some (.binary "+" (.number "1" ⟨1, 9, 10⟩)
      (.call "g" [.call "x" [.number "1" ⟨1, 17, 18⟩] ⟨1, 15, 16⟩] ⟨1, 13, 14⟩) ⟨1, 11, 12⟩))⟩], []⟩

theorem Program.ofSource_unclosedCall :
    Program.ofSource "fn f() \x7b 1 + g(x(1) \x7d" = .ok Program.unclosedCall := by
  unfold Program.unclosedCall
  cbv

theorem Program.parens_of_unclosedCall :
    Program.ofSource "fn f() \x7b 1 + g(x(1) \x7d" = .ok Program.unclosedCall ∧
      ∃ tokens, Token.scan "fn f() \x7b 1 + g(x(1) \x7d" = .ok tokens ∧
        (Reading.bodyRanges tokens).map Reading.body =
          Program.unclosedCall.definitions.map (fun definition => .ok definition.body) ∧
        ∀ range ∈ Reading.bodyRanges tokens,
          Reading.StaysOpen .openParen .closeParen 0 range ∧
          (Reading.kindCount .closeParen range = Reading.kindCount .openParen range ↔
            ¬ Reading.HasUnclosedOperand range) :=
  ⟨ofSource_unclosedCall, Program.parens_of_accepted ofSource_unclosedCall⟩

/-- The source is accepted, although its body opens two parentheses and closes one. -/
theorem Program.unclosedCall_unbalanced :
    Program.ofSource "fn f() \x7b 1 + g(x(1) \x7d" = .ok Program.unclosedCall ∧
      (Token.scan "fn f() \x7b 1 + g(x(1) \x7d").map (fun tokens =>
        (Reading.bodyRanges tokens).map fun range =>
          (Reading.kindCount .openParen range, Reading.kindCount .closeParen range)) =
        .ok [(2, 1)] := by
  refine ⟨ofSource_unclosedCall, ?_⟩
  cbv

end FrontEnd
