import FrontEnd.Proofs.Chains

/-! # The arguments of a call

The tokens behind a call's opening parenthesis are cut into arguments by the scan for the end of an
expression. One token is passed over behind each argument, and no one asks which: it need not be a
comma, and behind a parenthesis it may even be an operand. The scan may also run over the call's
own closing parenthesis, which is then the last token of the last argument. Here the cuts are said
without the scan, by what stands at the end of an argument and behind it and by counting
parentheses. -/
namespace FrontEnd
namespace Reading

/-- How the tokens behind the opening parenthesis of a call are cut into its arguments. -/
inductive Segments : List Token → List Node → Prop
  /-- No token is left, or only the closing parenthesis. -/
  | nothing {tokens} : tokens.length ≤ 1 → Segments tokens []
  /-- An argument, and one token that cannot carry it on. -/
  | next {argument stop rest node nodes} : expression argument = .ok node →
      kindCount .closeParen argument = kindCount .openParen argument →
      stop.kind ≠ .operator → Stops argument stop → Segments rest nodes →
      Segments (argument ++ stop :: rest) (node :: nodes)
  /-- An argument that ends in the call's own closing parenthesis. -/
  | whole {argument node} : expression argument = .ok node →
      kindCount .closeParen argument = kindCount .openParen argument →
      endsWith .closeParen argument = true → Segments argument [node]
  /-- An argument with an operand that not even the closing parenthesis would close. -/
  | leftOpen {argument closing node} : expression argument = .ok node →
      kindCount .closeParen argument + 2 ≤ kindCount .openParen argument →
      closing.kind = .closeParen → Segments (argument ++ [closing]) [node]

theorem primaryEnd?_of_opensUnclosed {tokens : List Token} (h : OpensUnclosed tokens) :
    primaryEnd? tokens = none := by
  obtain ⟨opening, inside, ho, hs, ht⟩ := h
  have hclose : parenCloser? inside = none := (closer?_eq_none_iff (by decide)).mpr hs
  rcases ht with rfl | ⟨callee, hn, rfl⟩
  · rw [primaryEnd?_group _ ho, hclose]
    rfl
  · rw [primaryEnd?_call _ hn ho, hclose]
    rfl

/-- An operand that opens two parentheses more than it closes stays open behind one more closing
parenthesis. -/
theorem OpensUnclosed.concat {tokens : List Token} {closing : Token} (h : OpensUnclosed tokens)
    (hc : kindCount .closeParen tokens + 2 ≤ kindCount .openParen tokens)
    (hk : closing.kind = .closeParen) : OpensUnclosed (tokens ++ [closing]) := by
  obtain ⟨opening, inside, ho, hs, ht⟩ := h
  have hlast : StaysOpen .openParen .closeParen 1 [closing] :=
    (staysOpen_cons_closing (by decide) hk).mpr (staysOpen_nil 0)
  rcases ht with rfl | ⟨callee, hn, rfl⟩
  · simp only [kindCount_cons, ho, reduceCtorEq, if_false, if_true] at hc
    exact ⟨opening, inside ++ [closing], ho, hs.append hlast (by omega), .inl rfl⟩
  · simp only [kindCount_cons, ho, hn, reduceCtorEq, if_false, if_true] at hc
    exact ⟨opening, inside ++ [closing], ho, hs.append hlast (by omega), .inr ⟨callee, hn, rfl⟩⟩

/-- The scan finds no end for an argument that stays open. -/
theorem expressionEnd?_leftOpen {argument : List Token} {closing : Token} {node : Node}
    (h : expression argument = .ok node)
    (hc : kindCount .closeParen argument + 2 ≤ kindCount .openParen argument)
    (hk : closing.kind = .closeParen) : expressionEnd? (argument ++ [closing]) = none := by
  obtain ⟨first, rest, rfl, hrest⟩ := expression_chained h
  have hfirst := first.form.balanced.1
  cases hrest with
  | closed chain =>
    have hchain := chain.balanced.1
    simp only [kindCount_append] at hc
    omega
  | @leftOpen chain operator rest ho hu =>
    have hchain := chain.balanced.1
    simp only [kindCount_append, kindCount_cons, ho, reduceCtorEq, if_false] at hc
    have hopen := primaryEnd?_of_opensUnclosed (hu.concat (by omega) hk)
    rw [List.append_assoc, List.append_assoc, List.cons_append,
      expressionEnd?_chain_operator first chain ho,
      expressionEnd?_of_unclosed (by simp) hopen]
    rfl

/-- Arguments are read one after the other. -/
theorem arguments_step {tokens : List Token} {count : Nat} {node : Node} (hl : 1 < tokens.length)
    (hc : (expressionEnd? tokens).getD (tokens.length - 1) = count)
    (h : expression (tokens.take count) = .ok node) :
    arguments tokens = (do
      let more ← arguments (tokens.drop (count + 1))
      .ok (node :: more)) := by
  rw [arguments, if_neg (Nat.not_le.mpr hl)]
  simp only [hc, h, followedBy_ok]
  rfl

theorem expression_ne_nil {tokens : List Token} {node : Node} (h : expression tokens = .ok node) :
    tokens ≠ [] := by
  obtain ⟨first, rest, rfl, -⟩ := expression_begins h
  simp

theorem arguments_short {tokens : List Token} (h : tokens.length ≤ 1) :
    arguments tokens = .ok [] := by
  rw [arguments, if_pos h]

/-- Tokens that can be cut are read as the arguments they are cut into. -/
theorem Segments.arguments {tokens : List Token} {nodes : List Node} (h : Segments tokens nodes) :
    arguments tokens = .ok nodes := by
  induction h with
  | nothing hl => exact arguments_short hl
  | @next argument stop rest node nodes he hc hs hstops _ ih =>
    have hpos := List.length_pos_iff.mpr (expression_ne_nil he)
    have hend : expressionEnd? (argument ++ stop :: rest) = some argument.length := by
      apply (expressionEnd?_read he hc _).mpr
      intro token ht
      cases ht
      exact ⟨hs, hstops⟩
    rw [arguments_step (by simp; omega) (by rw [hend, Option.getD_some])
      (by rw [List.take_left]; exact he), List.drop_length_add_append, List.drop_succ_cons,
      List.drop_zero, ih]
    rfl
  | @whole argument node he hc hp =>
    have hend : expressionEnd? argument = some argument.length := by
      have := (expressionEnd?_read he hc []).mpr (fun stop hs => by cases hs)
      rwa [List.append_nil] at this
    have hlong : 1 < argument.length := by
      obtain ⟨first, rest, rfl, hk⟩ := expression_begins he
      cases rest with
      | nil => rcases hk with hk | hk | hk <;> simp [endsWith, hk] at hp
      | cons second rest => simp
    rw [arguments_step hlong (by rw [hend, Option.getD_some]) (by rw [List.take_length]; exact he),
      List.drop_of_length_le (by omega), arguments_short (by simp)]
    rfl
  | @leftOpen argument closing node he hc hk =>
    have hpos := List.length_pos_iff.mpr (expression_ne_nil he)
    have hend := expressionEnd?_leftOpen he hc hk
    have hcount : (expressionEnd? (argument ++ [closing])).getD
        ((argument ++ [closing]).length - 1) = argument.length := by
      rw [hend]
      simp
    rw [arguments_step (by simp; omega) hcount (by rw [List.take_left]; exact he),
      arguments_short (by simp)]
    rfl

theorem endsWith_rest {kind : TokenKind} (before : List Token) (token : Token) {rest : List Token}
    (h : endsWith kind (before ++ token :: rest) = true) :
    rest = [] ∨ endsWith kind rest = true := by
  cases rest with
  | nil => exact .inl rfl
  | cons next rest =>
    right
    rwa [← List.singleton_append, ← List.append_assoc, endsWith_append _ _ (by simp)] at h

theorem segments_leftOpen {tokens : List Token} {node : Node}
    (hlast : endsWith .closeParen tokens = true)
    (he : expression (tokens.take (tokens.length - 1)) = .ok node)
    (hc : kindCount .closeParen tokens < kindCount .openParen tokens) :
    Segments tokens [node] := by
  rcases List.eq_nil_or_concat' tokens with rfl | ⟨argument, closing, rfl⟩
  · simp [endsWith] at hlast
  · rw [endsWith_concat, decide_eq_true_eq] at hlast
    rw [List.length_append, List.length_singleton, Nat.add_sub_cancel, List.take_left] at he
    simp only [kindCount_append, kindCount_cons, kindCount_nil, hlast, reduceCtorEq, if_true,
      if_false] at hc
    exact .leftOpen he (by omega) hlast

/-- Only tokens that can be cut are read as arguments. -/
theorem arguments_segments : (tokens : List Token) → {nodes : List Node} →
    tokens = [] ∨ endsWith .closeParen tokens = true → Reading.arguments tokens = .ok nodes →
    Segments tokens nodes
  | tokens, nodes, hclose, h => by
    by_cases hl : tokens.length ≤ 1
    · rw [arguments_short hl] at h
      cases h
      exact .nothing hl
    · have hlast : endsWith .closeParen tokens = true := by
        rcases hclose with rfl | hclose
        · simp at hl
        · exact hclose
      rw [arguments, if_neg hl] at h
      obtain ⟨node, hnode, hmore⟩ := bind_eq_ok.mp h
      obtain ⟨more, hrest, hpair⟩ := bind_eq_ok.mp hmore
      cases hpair
      have he := followedBy_eq_ok.mp hnode
      cases hend : expressionEnd? tokens with
      | none =>
        rw [hend, Option.getD_none] at he hrest
        rw [List.drop_of_length_le (by omega), arguments_short (by simp)] at hrest
        cases hrest
        exact segments_leftOpen hlast he (expressionEnd?_none hend)
      | some count =>
        rw [hend, Option.getD_some] at he hrest
        have hc := (expressionEnd?_balanced hend).1
        rcases Nat.lt_or_ge count tokens.length with hlt | hge
        · obtain ⟨stop, hsplit, hk, hstops⟩ := expressionEnd?_stop hend he hlt
          have hclosed := endsWith_rest (tokens.take count) stop (hsplit ▸ hlast)
          have hmore := arguments_segments (tokens.drop (count + 1)) hclosed hrest
          rw [hsplit]
          exact .next he hc hk hstops hmore
        · rw [List.drop_of_length_le (by omega), arguments_short (by simp)] at hrest
          cases hrest
          rw [List.take_of_length_le hge] at he hc
          exact .whole he hc hlast
termination_by tokens => tokens.length
decreasing_by simp only [List.length_drop]; omega

/-- A name and more behind it is read as a call, and only as that. -/
theorem primary_name_eq_ok_iff {callee second : Token} {rest : List Token}
    (hn : callee.kind = .identifier) {node : Node} :
    primary (callee :: second :: rest) = .ok node ↔
      ∃ nodes, node = .call callee.text nodes callee.span ∧ second.kind = .openParen ∧
        endsWith .closeParen rest = true ∧ Segments rest nodes := by
  rw [primary, if_neg (by rw [hn]; decide), if_pos hn]
  by_cases hp : (second.kind = .openParen && endsWith .closeParen rest) = true
  · rw [if_pos hp]
    simp only [Bool.and_eq_true, decide_eq_true_eq] at hp
    constructor
    · intro h
      obtain ⟨nodes, hnodes, hnode⟩ := bind_eq_ok.mp h
      cases hnode
      exact ⟨nodes, rfl, hp.1, hp.2, arguments_segments rest (.inr hp.2) hnodes⟩
    · rintro ⟨nodes, rfl, -, -, hs⟩
      rw [hs.arguments]
      rfl
  · rw [if_neg hp]
    simp only [Bool.and_eq_true, decide_eq_true_eq] at hp
    constructor
    · intro h
      cases h
    · rintro ⟨nodes, -, ho, hc, -⟩
      exact absurd ⟨ho, hc⟩ hp

/-- Ranges that are read as the nodes, with commas between them; one more comma may follow. -/
inductive CommaSeparated : List Token → List Node → Prop
  | nothing : CommaSeparated [] []
  | last {argument node} : expression argument = .ok node → CommaSeparated argument [node]
  | next {argument comma rest node nodes} : expression argument = .ok node →
      comma.kind = .comma → CommaSeparated rest nodes →
      CommaSeparated (argument ++ comma :: rest) (node :: nodes)

end Reading

/-- A range of at least two tokens that begins with a name is read as a call of that name, if it is
read at all; it is read exactly if a parenthesis follows the name, another one ends the range, and
what stands behind the first can be cut into arguments with one token behind each, whatever that
token is. -/
theorem Buffer.primary_segments (buffer : Buffer) (range : Buffer.Range)
    {callee second : Token} {rest : List Token}
    (ht : buffer.tokensOf range = callee :: second :: rest) (hn : callee.kind = .identifier)
    (node : Node) :
    buffer.primary range = .ok node ↔
      ∃ nodes, node = .call callee.text nodes callee.span ∧ second.kind = .openParen ∧
        Reading.endsWith .closeParen rest = true ∧ Reading.Segments rest nodes := by
  rw [Buffer.primary, ht, Buffer.settle_eq_ok]
  exact Reading.primary_name_eq_ok_iff hn

/-- The tokens of `f((1) 2)`. -/
def Buffer.uncovered : Buffer where
  tokens := [⟨.identifier, "f", ⟨1, 0, 1⟩⟩, ⟨.openParen, "(", ⟨1, 1, 2⟩⟩,
    ⟨.openParen, "(", ⟨1, 2, 3⟩⟩, ⟨.number, "1", ⟨1, 3, 4⟩⟩, ⟨.closeParen, ")", ⟨1, 4, 5⟩⟩,
    ⟨.number, "2", ⟨1, 6, 7⟩⟩, ⟨.closeParen, ")", ⟨1, 7, 8⟩⟩]

theorem Buffer.primary_segments_uncovered :
    uncovered.tokensOf ⟨0, 7, by decide⟩ = uncovered.tokens ∧
      uncovered.primary ⟨0, 7, by decide⟩ =
        .ok (.call "f" [.number "1" ⟨1, 3, 4⟩] ⟨1, 0, 1⟩) ∧
      Reading.Segments (uncovered.tokens.drop 2) [.number "1" ⟨1, 3, 4⟩] := by
  have hread : uncovered.primary ⟨0, 7, by decide⟩ =
      .ok (.call "f" [.number "1" ⟨1, 3, 4⟩] ⟨1, 0, 1⟩) := by
    unfold uncovered
    cbv
  refine ⟨rfl, hread, ?_⟩
  obtain ⟨nodes, hnode, -, -, hsegments⟩ :=
    (Buffer.primary_segments uncovered ⟨0, 7, by decide⟩ rfl rfl _).mp hread
  cases hnode
  exact hsegments

/-- The call `f((1) 2)` is read with one argument, although no commas cut it into its arguments: the
operand `2` is dropped. -/
theorem Buffer.uncovered_not_commaSeparated :
    uncovered.primary ⟨0, 7, by decide⟩ =
        .ok (.call "f" [.number "1" ⟨1, 3, 4⟩] ⟨1, 0, 1⟩) ∧
      ¬ ∃ callee opening inside closing, opening.kind = .openParen ∧ closing.kind = .closeParen ∧
        uncovered.tokensOf ⟨0, 7, by decide⟩ = callee :: opening :: (inside ++ [closing]) ∧
        Reading.CommaSeparated inside [.number "1" ⟨1, 3, 4⟩] := by
  refine ⟨by unfold uncovered; cbv, ?_⟩
  rintro ⟨callee, opening, inside, closing, -, -, ht, hs⟩
  have hinside : inside = [⟨.openParen, "(", ⟨1, 2, 3⟩⟩, ⟨.number, "1", ⟨1, 3, 4⟩⟩,
      ⟨.closeParen, ")", ⟨1, 4, 5⟩⟩, ⟨.number, "2", ⟨1, 6, 7⟩⟩] := by
    have := congrArg (fun tokens => (tokens.drop 2).dropLast) ht
    simpa [uncovered, Buffer.tokensOf, Buffer.slice] using this.symm
  cases hs with
  | last he =>
    have hrefused : Reading.expression [⟨.openParen, "(", ⟨1, 2, 3⟩⟩, ⟨.number, "1", ⟨1, 3, 4⟩⟩,
        ⟨.closeParen, ")", ⟨1, 4, 5⟩⟩, ⟨.number, "2", ⟨1, 6, 7⟩⟩] =
        .error ⟨.token .operator, 1⟩ := by cbv
    rw [hinside, hrefused] at he
    cases he
  | @next argument comma rest _ _ he hk hr =>
    -- there is no comma to be found
    have hmem : comma ∈ argument ++ comma :: rest := by simp
    rw [hinside] at hmem
    simp only [List.mem_cons, List.not_mem_nil, or_false] at hmem
    rcases hmem with rfl | rfl | rfl | rfl <;> cases hk

end FrontEnd
