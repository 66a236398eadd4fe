import FrontEnd.Proofs.Heads

/-! # Complaints stay in their range

A complaint counts the tokens that are left where it is made. No reader counts more tokens than it
was given, so a complaint about a range is placed in the range or at its end. A reader that gives
the front of its range to another one adds the tokens behind that front, and one that passes the
rest on adds nothing. -/
namespace FrontEnd.Reading

/-- A complaint, if there is one, leaves at most so many tokens. -/
def Within {α : Type} (reading : Reading α) (bound : Nat) : Prop :=
  ∀ complaint, reading = .error complaint → complaint.left ≤ bound

section
variable {α β : Type} {reading : Reading α} {bound : Nat} {tokens : List Token}

theorem within_ok (a : α) (bound : Nat) : Within (.ok a : Reading α) bound := by
  intro complaint h
  cases h

theorem within_error {demand : Demand} {left : Nat} (h : left ≤ bound) :
    Within (.error ⟨demand, left⟩ : Reading α) bound := by
  intro complaint hc
  cases hc
  exact h

theorem Within.mono {more : Nat} (h : reading.Within bound) (hle : bound ≤ more) :
    reading.Within more := fun complaint hc => Nat.le_trans (h complaint hc) hle

theorem Within.bind {next : α → Reading β} (h : reading.Within bound)
    (hnext : ∀ a, reading = .ok a → (next a).Within bound) : Within (reading >>= next) bound := by
  cases reading with
  | ok a => exact hnext a rfl
  | error complaint =>
    intro other ho
    cases ho
    exact h complaint rfl

theorem Within.followedBy {inner count : Nat} (h : reading.Within inner)
    (hle : inner + count ≤ bound) : (reading.followedBy count).Within bound := by
  cases reading with
  | ok a => exact within_ok a bound
  | error complaint =>
    intro other ho
    cases ho
    have := h complaint rfl
    show complaint.left + count ≤ bound
    omega

/-- The front of a range is read with the rest behind it. -/
theorem Within.front {count : Nat} (h : reading.Within (tokens.take count).length) :
    (reading.followedBy (tokens.length - count)).Within tokens.length := by
  refine h.followedBy ?_
  rw [List.length_take]
  omega

/-- The rest of a range ends where the range does. -/
theorem Within.rest {count : Nat} (h : reading.Within (tokens.drop count).length) :
    reading.Within tokens.length := by
  refine h.mono ?_
  rw [List.length_drop]
  omega

theorem Within.cons {token : Token} (h : reading.Within tokens.length) :
    reading.Within (token :: tokens).length := h.mono (Nat.le_succ _)

end

theorem expect_within (kind : TokenKind) (tokens : List Token) :
    (expect kind tokens).Within tokens.length := by
  cases tokens with
  | nil => exact within_error (Nat.le_refl _)
  | cons token rest =>
    rw [expect]
    split
    · exact within_ok _ _
    · exact within_error (Nat.le_refl _)

/-- After a token is read, the rest is read. -/
theorem Within.expect {β : Type} {kind : TokenKind} {tokens : List Token}
    {next : Token × List Token → Reading β}
    (h : ∀ token rest, tokens = token :: rest → token.kind = kind →
      (next (token, rest)).Within rest.length) :
    Within (expect kind tokens >>= next) tokens.length := by
  refine (expect_within kind tokens).bind ?_
  rintro ⟨token, rest⟩ ht
  obtain ⟨rfl, hk⟩ := expect_eq_ok.mp ht
  exact (h token rest rfl hk).cons

/-! ## Expressions -/

mutual

theorem expression_within (tokens : List Token) : (expression tokens).Within tokens.length := by
  rw [expression]
  split
  · exact within_error (Nat.le_refl _)
  · rename_i count hp
    refine (primary_within (tokens.take count)).front.bind fun left _ => ?_
    exact (operators_within left (tokens.drop count)).rest
termination_by (tokens.length, 2)
decreasing_by all_goals simp only [Prod.lex_def, List.length_take, List.length_drop]; omega

theorem operators_within (left : Node) : (tokens : List Token) →
    (operators left tokens).Within tokens.length
  | [] => by
    rw [operators]
    exact within_ok _ _
  | operator :: rest => by
    rw [operators]
    split
    · exact within_error (Nat.le_refl _)
    · refine Within.bind (primary_within _).front.cons fun right _ => ?_
      split
      · refine Within.bind (operators_within right _).rest.cons fun last _ => ?_
        exact within_ok _ _
      · exact (operators_within _ _).rest.cons
termination_by tokens => (tokens.length, 1)
decreasing_by
  all_goals simp only [Prod.lex_def, List.length_take, List.length_drop, List.length_cons]; omega

theorem primary_within : (tokens : List Token) → (primary tokens).Within tokens.length
  | [] => by
    rw [primary]
    exact within_error (Nat.le_refl _)
  | [token] => by
    rw [primary]
    split
    · exact within_ok _ _
    · exact within_ok _ _
    · exact within_error (Nat.le_refl _)
  | first :: second :: rest => by
    rw [primary]
    split
    · split
      · refine (expression_within _).followedBy ?_
        simp
      · exact within_error (Nat.le_refl _)
    split
    · split
      · refine Within.bind (arguments_within rest).cons.cons fun given _ => ?_
        exact within_ok _ _
      · exact within_error (Nat.le_refl _)
    · exact within_error (Nat.le_refl _)
termination_by tokens => (tokens.length, 0)
decreasing_by all_goals simp only [Prod.lex_def, List.length_dropLast, List.length_cons]; omega

theorem arguments_within (tokens : List Token) : (arguments tokens).Within tokens.length := by
  rw [arguments]
  split
  · exact within_ok _ _
  · refine (expression_within _).front.bind fun argument _ => ?_
    refine (arguments_within _).rest.bind fun more _ => ?_
    exact within_ok _ _
termination_by (tokens.length, 3)
decreasing_by all_goals simp only [Prod.lex_def, List.length_take, List.length_drop]; omega

end

/-! ## Statements and bodies -/

theorem declaration_within (tokens : List Token) : (declaration tokens).Within tokens.length := by
  have hle : (if startsWith .mutKeyword tokens then tokens.tail else tokens).length ≤
      tokens.length := by
    split
    · rw [List.length_tail]
      omega
    · exact Nat.le_refl _
  refine Within.mono (Within.expect fun type rest _ _ => ?_) hle
  -- A complaint about the end of a declaration is placed at the name.
  refine (expect_within .identifier rest).bind ?_
  rintro ⟨name, more⟩ ht
  obtain ⟨rfl, -⟩ := expect_eq_ok.mp ht
  cases more with
  | nil => exact within_ok _ _
  | cons next value =>
    show Within (if next.kind = .assign then _ else _) _
    split
    · refine (expression_within value).cons.cons.bind fun initializer _ => ?_
      exact within_ok _ _
    · exact within_error (Nat.le_refl _)

theorem assignment_within (tokens : List Token) : (assignment tokens).Within tokens.length := by
  rw [assignment]
  refine Within.expect fun target rest _ _ => ?_
  refine Within.expect fun sign value _ _ => ?_
  refine (expression_within value).bind fun node _ => ?_
  exact within_ok _ _

theorem statement_within (tokens : List Token) : (statement tokens).Within tokens.length := by
  unfold statement
  split
  · exact declaration_within tokens
  split
  · exact declaration_within tokens
  split
  · exact assignment_within tokens
  · exact expression_within tokens

theorem condition_within (tokens : List Token) : (condition tokens).Within tokens.length := by
  cases tokens with
  | nil => exact within_error (Nat.le_refl _)
  | cons first rest =>
    rw [condition]
    split
    · exact within_error (Nat.le_refl _)
    split
    · exact within_error (Nat.le_refl _)
    · refine (expression_within _).front.cons.bind fun node _ => ?_
      exact within_ok _ _

mutual

theorem body_within (tokens : List Token) : (body tokens).Within tokens.length := by
  rw [body]
  refine (bodyRest_within [] none tokens).bind fun result _ => ?_
  exact within_ok _ _
termination_by (tokens.length, 1)

theorem bodyRest_within (statements : List Node) (pending : Option Node) : (tokens : List Token) →
    (bodyRest statements pending tokens).Within tokens.length
  | [] => by
    rw [bodyRest]
    exact within_ok _ _
  | first :: rest => by
    rw [bodyRest]
    split
    · refine (branch_within rest).cons.bind fun result _ => ?_
      exact (bodyRest_within _ _ _).rest.cons
    split
    · exact (bodyRest_within _ _ rest).cons
    · refine Within.bind ((statement_within _).followedBy ?_) fun node _ => ?_
      · rw [List.length_cons, List.length_take, List.length_cons]
        omega
      · exact (bodyRest_within _ _ _).rest.cons
termination_by tokens => (tokens.length, 0)
decreasing_by all_goals simp only [Prod.lex_def, List.length_drop, List.length_cons]; omega

theorem block_within : (tokens : List Token) → (block tokens).Within tokens.length
  | [] => by
    rw [block]
    exact within_error (Nat.le_refl _)
  | first :: rest => by
    rw [block]
    split
    · exact within_error (Nat.le_refl _)
    split
    · exact within_error (Nat.le_refl _)
    · refine (body_within _).front.cons.bind fun result _ => ?_
      exact within_ok _ _
termination_by tokens => (tokens.length, 0)
decreasing_by simp only [Prod.lex_def, List.length_take, List.length_cons]; omega

theorem branch_within (tokens : List Token) : (branch tokens).Within tokens.length := by
  rw [branch]
  refine (condition_within tokens).bind fun first _ => ?_
  refine (block_within _).rest.bind fun second _ => ?_
  refine (alternative_within _).rest.bind fun third _ => ?_
  exact within_ok _ _
termination_by (tokens.length, 1)
decreasing_by all_goals simp only [Prod.lex_def, List.length_drop]; omega

theorem alternative_within : (tokens : List Token) → (alternative tokens).Within tokens.length
  | [] => by
    rw [alternative]
    exact within_ok _ _
  | first :: rest => by
    rw [alternative]
    split
    · refine (branch_within rest).cons.bind fun result _ => ?_
      exact within_ok _ _
    split
    · refine (block_within rest).cons.bind fun result _ => ?_
      exact within_ok _ _
    · exact within_ok _ _
termination_by tokens => (tokens.length, 0)
decreasing_by all_goals simp only [Prod.lex_def, List.length_cons]; omega

end

/-! ## Functions and programs -/

theorem parameters_within (tokens : List Token) : (parameters tokens).Within tokens.length := by
  induction tokens using parameters.induct with
  | case1 => exact within_error (Nat.le_refl _)
  | case2 type =>
    refine within_error ?_
    split
    · exact Nat.zero_le _
    · exact Nat.le_refl _
  | case3 type name rest ht =>
    rw [parameters, if_pos ht]
    exact within_error (Nat.le_refl _)
  | case4 type name rest ht hn =>
    rw [parameters, if_neg ht, if_pos hn]
    exact within_error (Nat.le_succ _)
  | case5 type name ht hn =>
    rw [parameters, if_neg ht, if_neg hn]
    exact within_ok _ _
  | case6 type name ht hn comma more hk ih =>
    rw [parameters, if_neg ht, if_neg hn]
    simp only [hk, if_true]
    refine ih.cons.cons.cons.bind fun result _ => ?_
    exact within_ok _ _
  | case7 type name ht hn next more hk =>
    rw [parameters, if_neg ht, if_neg hn]
    simp only [hk, if_false]
    exact within_ok _ _

theorem parameterList_within (tokens : List Token) :
    (parameterList tokens).Within tokens.length := by
  unfold parameterList
  split
  · exact parameters_within tokens
  · exact within_ok _ _

theorem parameterList_length_le {tokens rest : List Token} {given : List Parameter}
    (h : parameterList tokens = .ok (given, rest)) : rest.length ≤ tokens.length := by
  unfold parameterList at h
  split at h
  · obtain ⟨front, rfl, -, -⟩ := parameters_eq_ok_iff.mp h
    rw [List.length_append]
    omega
  · cases h
    exact Nat.le_refl _

theorem returnType_within (tokens : List Token) : (returnType tokens).Within tokens.length := by
  cases tokens with
  | nil => exact within_ok _ _
  | cons first rest =>
    rw [returnType]
    split
    · refine Within.cons (Within.expect fun type more _ _ => ?_)
      exact within_ok _ _
    · exact within_ok _ _

theorem prototype_within (tokens : List Token) : (prototype tokens).Within tokens.length := by
  refine Within.expect fun name rest _ _ => ?_
  refine Within.expect fun opening rest _ _ => ?_
  refine (parameterList_within rest).bind ?_
  rintro ⟨given, more⟩ hp
  refine Within.mono (Within.expect fun closing rest _ _ => ?_) (parameterList_length_le hp)
  refine (returnType_within rest).bind fun result _ => ?_
  exact within_ok _ _

theorem signature_within (tokens : List Token) : (signature tokens).Within tokens.length := by
  refine Within.expect fun keyword rest _ _ => ?_
  refine (prototype_within rest).bind fun result _ => ?_
  exact within_ok _ _

/-- A missing semicolon is reported at the keyword in front. -/
theorem externalRest_within (tokens : List Token) :
    (externalRest tokens).Within (tokens.length + 1) := by
  unfold externalRest
  split
  · exact within_error (Nat.le_refl _)
  · rename_i stop hs
    refine ((signature_within (tokens.take stop)).front.mono (Nat.le_succ _)).bind fun result _ => ?_
    show Within (if result.2 = stop then _ else _) _
    split
    · exact within_ok _ _
    · refine within_error ?_
      omega

theorem definitionRest_within (tokens : List Token) :
    (definitionRest tokens).Within tokens.length := by
  refine (prototype_within tokens).bind fun head _ => ?_
  refine (block_within _).rest.bind fun result _ => ?_
  exact within_ok _ _

/-- Whatever is wrong with a program is wrong at one of its tokens or at its end. -/
theorem program_within : (tokens : List Token) → (program tokens).Within tokens.length
  | [] => by
    rw [program]
    exact within_ok _ _
  | first :: rest => by
    rw [program]
    split
    · refine (externalRest_within rest).bind fun head _ => ?_
      have hmore := (program_within (rest.drop head.2)).rest.mono (Nat.le_succ rest.length)
      refine hmore.bind fun more _ => ?_
      exact within_ok _ _
    split
    · refine (definitionRest_within rest).cons.bind fun definition _ => ?_
      refine (program_within (rest.drop definition.2)).rest.cons.bind fun more _ => ?_
      exact within_ok _ _
    · exact within_error (Nat.le_refl _)
termination_by tokens => tokens.length
decreasing_by all_goals simp only [List.length_drop, List.length_cons]; omega

end FrontEnd.Reading
