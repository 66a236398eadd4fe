import FrontEnd.Proofs.ExpressionReading
import FrontEnd.Proofs.ParenBalance

/-! # Expressions without calls

Where no name stands directly before an opening parenthesis, nothing but sentences of the grammar is
read. An operand whose parenthesis finds no closer still takes the rest of the range; but what is
read from that range is an expression between its first and its last token, hence balanced, and
then the closer would have been found. In a call this argument fails, since the arguments need not
use up the tokens between the parentheses. -/
namespace FrontEnd
namespace Grammar

mutual

/-- The operand is a number, a name, or an expression without calls in parentheses. -/
def Operand.CallFree : Operand → Prop
  | .number _ => True
  | .name _ => True
  | .group _ inside _ => inside.CallFree
  | .call _ _ _ _ => False

/-- No operand of the expression is a call, at any depth. -/
def Expression.CallFree : Expression → Prop
  | .mk first rest => first.CallFree ∧ rest.CallFree

def Operations.CallFree : Operations → Prop
  | .nothing => True
  | .next _ operand rest => operand.CallFree ∧ rest.CallFree

end

end Grammar

namespace Reading
open Grammar

/-- No name stands directly before an opening parenthesis. -/
def NoCall (tokens : List Token) : Prop :=
  tokens.IsChain fun first second => ¬ (first.kind = .identifier ∧ second.kind = .openParen)

/-! ## Only sentences are read -/

mutual

theorem expression_callFree : (tokens : List Token) → NoCall tokens → {node : Node} →
    expression tokens = .ok node →
    ∃ sentence : Expression, sentence.CallFree ∧ sentence.tokens = tokens
  | tokens, hn, node, h => by
    rw [expression] at h
    cases hp : primaryEnd? tokens with
    | none => simp only [hp] at h; cases h
    | some count =>
      simp only [hp] at h
      obtain ⟨left, hleft, hmore⟩ := bind_eq_ok.mp h
      obtain ⟨first, hfirst, htake⟩ :=
        primary_callFree (tokens.take count) (hn.take count) (followedBy_eq_ok.mp hleft)
      obtain ⟨rest, hrest, hdrop⟩ := operators_callFree (tokens.drop count) (hn.drop count) hmore
      refine ⟨.mk first rest, ⟨hfirst, hrest⟩, ?_⟩
      rw [Expression.tokens, htake, hdrop, List.take_append_drop]
termination_by tokens => (tokens.length, 2)
decreasing_by all_goals simp only [Prod.lex_def, List.length_take, List.length_drop]; omega

/-- Where the scan for an operand's end fails, the operand is the whole rest, and no operator is
left over. -/
theorem operators_callFree : (tokens : List Token) → NoCall tokens → {left node : Node} →
    operators left tokens = .ok node →
    ∃ rest : Operations, rest.CallFree ∧ rest.tokens = tokens
  | [], _, _, _, _ => ⟨.nothing, trivial, rfl⟩
  | operator :: rest, hn, left, node, h => by
    rw [operators] at h
    by_cases hk : operator.kind = .operator
    · simp only [hk, ne_eq, not_true_eq_false, if_false] at h
      generalize (primaryEnd? rest).getD rest.length = count at h
      obtain ⟨right, hright, hmore⟩ := bind_eq_ok.mp h
      have hrest : NoCall rest := hn.tail
      obtain ⟨operand, hoperand, htake⟩ :=
        primary_callFree (rest.take count) (hrest.take count) (followedBy_eq_ok.mp hright)
      obtain ⟨more, hfree, hdrop⟩ :
          ∃ more : Operations, more.CallFree ∧ more.tokens = rest.drop count := by
        split at hmore
        · obtain ⟨last, hlast, -⟩ := bind_eq_ok.mp hmore
          exact operators_callFree (rest.drop count) (hrest.drop count) hlast
        · exact operators_callFree (rest.drop count) (hrest.drop count) hmore
      refine ⟨.next ⟨operator, hk⟩ operand more, ⟨hoperand, hfree⟩, ?_⟩
      rw [Operations.tokens, htake, hdrop, List.take_append_drop]
    · simp only [hk, ne_eq, not_false_eq_true, if_true] at h
      cases h
termination_by tokens => (tokens.length, 1)
decreasing_by
  all_goals simp only [Prod.lex_def, List.length_take, List.length_drop, List.length_cons]; omega

theorem primary_callFree : (tokens : List Token) → NoCall tokens → {node : Node} →
    primary tokens = .ok node →
    ∃ operand : Operand, operand.CallFree ∧ operand.tokens = tokens
  | [], _, node, h => by rw [primary] at h; cases h
  | [token], _, node, h => by
    rw [primary] at h
    split at h
    · rename_i hk
      exact ⟨.number ⟨token, hk⟩, trivial, rfl⟩
    · rename_i hk
      exact ⟨.name ⟨token, hk⟩, trivial, rfl⟩
    · cases h
  | first :: second :: rest, hn, node, h => by
    rw [primary] at h
    split at h
    · rename_i ho
      split at h
      · rename_i hc
        obtain ⟨front, closing, hsplit⟩ := (List.eq_nil_or_concat' (second :: rest)).resolve_left
          (List.cons_ne_nil second rest)
        rw [hsplit, endsWith_concat, decide_eq_true_eq] at hc
        rw [hsplit, List.dropLast_concat] at h
        have hfront : NoCall front := by
          have hrest : NoCall (second :: rest) := hn.tail
          rw [hsplit] at hrest
          exact hrest.left_of_append
        obtain ⟨inside, hfree, hinside⟩ :=
          expression_callFree front hfront (followedBy_eq_ok.mp h)
        refine ⟨.group ⟨first, ho⟩ inside ⟨closing, hc⟩, hfree, ?_⟩
        rw [Operand.tokens, hinside, hsplit]
      · cases h
    · split at h
      · rename_i hk
        split at h
        · rename_i hcall
          simp only [Bool.and_eq_true, decide_eq_true_eq] at hcall
          exact absurd ⟨hk, hcall.1⟩ (List.isChain_cons_cons.mp hn).1
        · cases h
      · cases h
termination_by tokens => (tokens.length, 0)
decreasing_by
  have hlength := congrArg List.length hsplit
  simp only [List.length_cons, List.length_append, List.length_nil] at hlength
  simp only [Prod.lex_def, List.length_cons]
  omega

end

/-! ## What sentences look like -/

def mayBeginOperand (token : Token) : Bool := isOperand token || token.kind = .openParen

def mayEndOperand (token : Token) : Bool := isOperand token || token.kind = .closeParen

/-- The second token may stand directly behind the first: an operator or a closing parenthesis
behind the end of an operand, and the beginning of an operand behind any other token. -/
def MayFollow (first second : Token) : Prop :=
  if mayEndOperand first then second.kind = .operator ∨ second.kind = .closeParen
  else mayBeginOperand second = true

/-- Operands and operators take turns, from an operand to an operand. -/
structure Alternates (tokens : List Token) : Prop where
  begins : ∃ token ∈ tokens.head?, mayBeginOperand token = true
  ends : ∃ token ∈ tokens.getLast?, mayEndOperand token = true
  turns : tokens.IsChain MayFollow

theorem alternates_single {token : Token} (h : isOperand token = true) : Alternates [token] :=
  ⟨⟨token, rfl, by simp [mayBeginOperand, h]⟩, ⟨token, rfl, by simp [mayEndOperand, h]⟩,
    .singleton token⟩

theorem Alternates.operate {front back : List Token} {operator : Token} (h : Alternates front)
    (hk : operator.kind = .operator) (hb : Alternates back) :
    Alternates (front ++ operator :: back) := by
  obtain ⟨first, hfirst, hbegins⟩ := h.begins
  obtain ⟨last, hlast, hends⟩ := hb.ends
  obtain ⟨next, hnext, hopens⟩ := hb.begins
  obtain ⟨left, hleft, hcloses⟩ := h.ends
  have hno : mayEndOperand operator = false := by simp [mayEndOperand, isOperand, hk]
  refine ⟨⟨first, ?_, hbegins⟩, ⟨last, ?_, hends⟩, ?_⟩
  · rw [Option.mem_def] at hfirst ⊢
    simp [List.head?_append, hfirst]
  · rw [Option.mem_def] at hlast ⊢
    simp [List.getLast?_append, List.getLast?_cons, hlast]
  · refine List.isChain_append.mpr ⟨h.turns, List.isChain_cons.mpr ⟨?_, hb.turns⟩, ?_⟩
    · intro token ht
      cases Option.mem_unique ht hnext
      simp [MayFollow, hno, hopens]
    · intro token ht second hs
      cases Option.mem_unique ht hleft
      cases hs
      simp [MayFollow, hcloses, hk]

theorem Alternates.enclose {inside : List Token} {opening closing : Token} (h : Alternates inside)
    (ho : opening.kind = .openParen) (hc : closing.kind = .closeParen) :
    Alternates (opening :: (inside ++ [closing])) := by
  obtain ⟨first, hfirst, hbegins⟩ := h.begins
  obtain ⟨last, hlast, hends⟩ := h.ends
  have hno : mayEndOperand opening = false := by simp [mayEndOperand, isOperand, ho]
  refine ⟨⟨opening, rfl, by simp [mayBeginOperand, ho]⟩,
    ⟨closing, ?_, by simp [mayEndOperand, hc]⟩, ?_⟩
  · rw [← List.cons_append, Option.mem_def, List.getLast?_concat]
  · refine List.isChain_cons.mpr ⟨?_, List.isChain_append.mpr ⟨h.turns, .singleton closing, ?_⟩⟩
    · intro token ht
      rw [Option.mem_def] at hfirst
      rw [List.head?_append, hfirst] at ht
      cases ht
      simp [MayFollow, hno, hbegins]
    · intro token ht second hs
      cases Option.mem_unique ht hlast
      cases hs
      simp [MayFollow, hends, hc]

mutual

theorem Operand.alternates : (operand : Operand) → operand.CallFree → Alternates operand.tokens
  | .number token, _ => alternates_single (by simp [isOperand, token.property])
  | .name token, _ => alternates_single (by simp [isOperand, token.property])
  | .group opening inside closing, h =>
    (Expression.alternates inside h).enclose opening.property closing.property
  | .call _ _ _ _, h => h.elim

theorem Expression.alternates : (sentence : Expression) → sentence.CallFree →
    Alternates sentence.tokens
  | .mk first rest, h => Operations.alternates rest h.2 (Operand.alternates first h.1)

/-- What stands in front of the operators grows by one operand after the other. -/
theorem Operations.alternates : (rest : Operations) → rest.CallFree → {front : List Token} →
    Alternates front → Alternates (front ++ rest.tokens)
  | .nothing, _, front, hf => by rwa [Operations.tokens, List.append_nil]
  | .next operator operand rest, h, front, hf => by
    have hnext := hf.operate operator.property (Operand.alternates operand h.1)
    have hall := Operations.alternates rest h.2 hnext
    rwa [List.append_assoc] at hall

end

/-- The tokens alternate, every parenthesis is closed, and so no operand behind an operator is left
without an end. -/
structure Orderly (tokens : List Token) : Prop extends Alternates tokens where
  balanced : Balanced .openParen .closeParen tokens
  closed : ¬ HasUnclosedOperand tokens

theorem Expression.orderly (sentence : Expression) (h : sentence.CallFree) :
    Orderly sentence.tokens := by
  have hbalanced := Expression.balanced sentence
  have hclosed := (guarded_of_balanced hbalanced).count_eq_iff.mp hbalanced.1
  exact ⟨Expression.alternates sentence h, hbalanced, hclosed⟩

end Reading

/-- In a range without calls exactly the sentences without calls are read, each as the tree that it
denotes. So no range is read that is empty, that begins or ends with an operator or has two of them
together, in which two operands touch, or in which a parenthesis is not closed; the last holds also
of an operand that is given the whole rest of the range because its end is not found. -/
theorem Buffer.expression_callFree_iff (buffer : Buffer) (range : Buffer.Range)
    (h : Reading.NoCall (buffer.tokensOf range)) (node : Node) :
    (buffer.expression range = .ok node ↔
        ∃ sentence : Grammar.Expression, sentence.CallFree ∧
          sentence.tokens = buffer.tokensOf range ∧ sentence.Denotes node) ∧
      (buffer.expression range = .ok node → Reading.Orderly (buffer.tokensOf range)) := by
  rw [Buffer.expression, Buffer.settle_eq_ok]
  refine ⟨⟨fun hread => ?_, ?_⟩, fun hread => ?_⟩
  · obtain ⟨sentence, hfree, htokens⟩ := Reading.expression_callFree _ h hread
    rw [← htokens, Reading.expression_sentence] at hread
    cases hread
    exact ⟨sentence, hfree, htokens, sentence.denotes_tree⟩
  · rintro ⟨sentence, -, htokens, hdenotes⟩
    rw [← htokens, Reading.expression_sentence, ← sentence.denotes_unique hdenotes]
  · obtain ⟨sentence, hfree, htokens⟩ := Reading.expression_callFree _ h hread
    rw [← htokens]
    exact Reading.Expression.orderly sentence hfree

/-- The tokens of `(1 - x) * 2 + ((3)`. -/
def Buffer.halfClosed : Buffer where
  tokens := [⟨.openParen, "(", ⟨1, 0, 1⟩⟩, ⟨.number, "1", ⟨1, 1, 2⟩⟩, ⟨.operator, "-", ⟨1, 3, 4⟩⟩,
    ⟨.identifier, "x", ⟨1, 5, 6⟩⟩, ⟨.closeParen, ")", ⟨1, 6, 7⟩⟩, ⟨.operator, "*", ⟨1, 8, 9⟩⟩,
    ⟨.number, "2", ⟨1, 10, 11⟩⟩, ⟨.operator, "+", ⟨1, 12, 13⟩⟩, ⟨.openParen, "(", ⟨1, 14, 15⟩⟩,
    ⟨.openParen, "(", ⟨1, 15, 16⟩⟩, ⟨.number, "3", ⟨1, 16, 17⟩⟩, ⟨.closeParen, ")", ⟨1, 17, 18⟩⟩]

/-- The first three operands are read; with the last one, whose end is not found although it ends in
a closing parenthesis, nothing is. -/
theorem Buffer.expression_callFree_iff_halfClosed :
    Reading.NoCall (halfClosed.tokensOf ⟨0, 7, by decide⟩) ∧
      Reading.NoCall (halfClosed.tokensOf ⟨0, 12, by decide⟩) ∧
      (∃ sentence : Grammar.Expression, sentence.CallFree ∧
        sentence.tokens = halfClosed.tokensOf ⟨0, 7, by decide⟩ ∧
        sentence.Denotes (.binary "*"
          (.binary "-" (.number "1" ⟨1, 1, 2⟩) (.reference "x" ⟨1, 5, 6⟩) ⟨1, 3, 4⟩)
          (.number "2" ⟨1, 10, 11⟩) ⟨1, 8, 9⟩)) ∧
      ∀ node, halfClosed.expression ⟨0, 12, by decide⟩ ≠ .ok node := by
  have hshort : Reading.NoCall (halfClosed.tokensOf ⟨0, 7, by decide⟩) := by
    unfold Reading.NoCall
    decide
  have hlong : Reading.NoCall (halfClosed.tokensOf ⟨0, 12, by decide⟩) := by
    unfold Reading.NoCall
    decide
  refine ⟨hshort, hlong, ?_, fun node hread => ?_⟩
  · apply (Buffer.expression_callFree_iff halfClosed ⟨0, 7, by decide⟩ hshort _).1.mp
    unfold halfClosed
    cbv
  · have horderly := (Buffer.expression_callFree_iff halfClosed ⟨0, 12, by decide⟩ hlong
      node).2 hread
    exact absurd horderly.balanced.1 (by decide)

end FrontEnd
