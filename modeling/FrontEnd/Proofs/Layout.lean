import Mathlib
import FrontEnd.Program
import FrontEnd.Proofs.Relocation
import FrontEnd.Proofs.Spelling

/-! # Layout does not matter to reading

Readers look at kinds and texts and copy spans. So on tokens that are alike every reader takes the
same way: it gives trees that are alike, or complains about the same thing with the same number of
tokens left. A complaint becomes a diagnostic at a token that stands at the same index in both
sequences. -/
namespace FrontEnd

/-- The sequences have tokens that are alike, one by one. -/
abbrev Token.AllAlike (R : Span → Span → Prop) (tokens others : List Token) : Prop :=
  List.Forall₂ (Token.Alike R) tokens others

namespace Reading

/-- Both readings have results that `P` relates, or the same complaint. -/
abbrev SameReading {α : Type} (P : α → α → Prop) (reading other : Reading α) : Prop :=
  SameOutcome Eq P reading other

/-- The first parts are related, and so are the second. -/
def Both {α β : Type} (P : α → α → Prop) (Q : β → β → Prop) (x y : α × β) : Prop :=
  P x.1 y.1 ∧ Q x.2 y.2

section
variable {α β : Type} {P : α → α → Prop} {Q : β → β → Prop} {reading other : Reading α}

theorem same_error (complaint : Complaint) :
    SameReading P (.error complaint) (.error complaint) := .error rfl

theorem SameReading.bind {next next' : α → Reading β} (h : SameReading P reading other)
    (hnext : ∀ a b, P a b → SameReading Q (next a) (next' b)) :
    SameReading Q (reading >>= next) (other >>= next') := by
  cases h with
  | ok hab => exact hnext _ _ hab
  | error he => exact .error he

theorem SameReading.followedBy (h : SameReading P reading other) (count : Nat) :
    SameReading P (reading.followedBy count) (other.followedBy count) := by
  cases h with
  | ok hab => exact .ok hab
  | error he =>
    cases he
    exact same_error _

end

section
variable {R : Span → Span → Prop} {tokens others : List Token}

/-! ## Scans -/

theorem startsWith_alike (h : Token.AllAlike R tokens others) (kind : TokenKind) :
    startsWith kind tokens = startsWith kind others := by
  cases h with
  | nil => rfl
  | cons ht _ => rw [startsWith, startsWith, ht.kind]

theorem getLast?_alike (h : Token.AllAlike R tokens others) :
    Option.Rel (Token.Alike R) tokens.getLast? others.getLast? := by
  have hhead {front front' : List Token} (hf : Token.AllAlike R front front') :
      Option.Rel (Token.Alike R) front.head? front'.head? := by
    cases hf with
    | nil => exact .none
    | cons ht _ => exact .some ht
  rw [← List.head?_reverse, ← List.head?_reverse]
  exact hhead (List.forall₂_reverse_iff.mpr h)

theorem endsWith_alike (h : Token.AllAlike R tokens others) (kind : TokenKind) :
    endsWith kind tokens = endsWith kind others := by
  have hlast := getLast?_alike h
  unfold endsWith
  generalize tokens.getLast? = last, others.getLast? = last' at hlast ⊢
  cases hlast with
  | none => rfl
  | some ht => simp only [ht.kind]

theorem isOperand_alike {a b : Token} (h : a.Alike R b) : isOperand a = isOperand b := by
  rw [isOperand, isOperand, h.kind]

theorem takeWhile_alike {p : Token → Bool} (hp : ∀ a b : Token, a.Alike R b → p a = p b)
    (h : Token.AllAlike R tokens others) :
    (tokens.takeWhile p).length = (others.takeWhile p).length := by
  induction h with
  | nil => rfl
  | @cons a b _ _ ht _ ih =>
    rw [List.takeWhile_cons, List.takeWhile_cons, ← hp a b ht]
    split
    · rw [List.length_cons, List.length_cons, ih]
    · rfl

theorem closer?_alike (h : Token.AllAlike R tokens others) (opening closing : TokenKind)
    (depth : Nat) :
    closer? opening closing depth tokens = closer? opening closing depth others := by
  induction h generalizing depth with
  | nil => cases depth <;> rfl
  | cons ht _ ih => cases depth <;> simp only [closer?, ht.kind, ih]

theorem primaryEnd?_alike (h : Token.AllAlike R tokens others) :
    primaryEnd? tokens = primaryEnd? others := by
  cases h with
  | nil => rfl
  | @cons first first' rest rest' ht hr =>
    have htail : Token.AllAlike R rest.tail rest'.tail := by
      rw [← List.drop_one, ← List.drop_one]
      exact List.forall₂_drop 1 hr
    have hrun := takeWhile_alike (fun _ _ => isOperand_alike) (.cons ht hr)
    rw [primaryEnd?, primaryEnd?, ht.kind, startsWith_alike hr, parenCloser?, parenCloser?,
      parenCloser?, parenCloser?, closer?_alike hr, closer?_alike htail, hrun]

theorem expressionEnd?_alike : {tokens others : List Token} → Token.AllAlike R tokens others →
    expressionEnd? tokens = expressionEnd? others
  | _, _, .nil => rfl
  | first :: rest, first' :: rest', .cons ht hr => by
    have hall : Token.AllAlike R (first :: rest) (first' :: rest') := .cons ht hr
    rw [expressionEnd?, expressionEnd?, ← primaryEnd?_alike hall]
    split
    · rfl
    · rename_i count hp
      rw [startsWith_alike (List.forall₂_drop count hall),
        expressionEnd?_alike (List.forall₂_drop count hr)]
termination_by tokens => tokens.length
decreasing_by simp only [List.length_drop, List.length_cons]; omega

theorem nextPriority_alike (h : Token.AllAlike R tokens others) :
    nextPriority tokens = nextPriority others := by
  cases h with
  | nil => rfl
  | cons ht _ => rw [nextPriority, nextPriority, ht.text]

theorem expect_alike (h : Token.AllAlike R tokens others) (kind : TokenKind) :
    SameReading (Both (Token.Alike R) (Token.AllAlike R)) (expect kind tokens)
      (expect kind others) := by
  cases h with
  | nil => exact same_error _
  | cons ht hr =>
    rw [expect, expect, ← ht.kind, ← hr.length_eq]
    split
    · exact .ok ⟨ht, hr⟩
    · exact same_error _

end

/-! ## Expressions -/

section
variable {R : Span → Span → Prop}

mutual

theorem expression_alike {tokens others : List Token} (h : Token.AllAlike R tokens others) :
    SameReading (Node.Alike R) (expression tokens) (expression others) := by
  rw [expression, expression, ← primaryEnd?_alike h, ← h.length_eq]
  split
  · exact same_error _
  · rename_i count hp
    have hleft := (primary_alike (List.forall₂_take count h)).followedBy (tokens.length - count)
    refine SameReading.bind hleft fun left left' hl => ?_
    exact operators_alike hl (List.forall₂_drop count h)
termination_by (tokens.length, 2)
decreasing_by all_goals simp only [Prod.lex_def, List.length_take, List.length_drop]; omega

theorem operators_alike {left left' : Node} (hl : left.Alike R left') :
    {tokens others : List Token} → Token.AllAlike R tokens others →
    SameReading (Node.Alike R) (operators left tokens) (operators left' others)
  | _, _, .nil => by
    rw [operators, operators]
    exact .ok hl
  | operator :: rest, operator' :: rest', .cons ho hr => by
    rw [operators, operators, ← ho.kind, ← ho.text, ← primaryEnd?_alike hr, ← hr.length_eq]
    split
    · exact same_error _
    · let count := (primaryEnd? rest).getD rest.length
      have hright := (primary_alike (List.forall₂_take count hr)).followedBy (rest.length - count)
      refine SameReading.bind hright fun right right' hnode => ?_
      have hrest := List.forall₂_drop count hr
      rw [nextPriority_alike hrest]
      split
      · refine SameReading.bind (operators_alike hnode hrest) fun last last' hlast => ?_
        exact .ok (.binary _ hl hlast ho.span)
      · exact operators_alike (.binary _ hl hnode ho.span) hrest
termination_by tokens => (tokens.length, 1)
decreasing_by
  all_goals simp only [Prod.lex_def, List.length_take, List.length_drop, List.length_cons]; omega

theorem primary_alike : {tokens others : List Token} → Token.AllAlike R tokens others →
    SameReading (Node.Alike R) (primary tokens) (primary others)
  | _, _, .nil => by
    rw [primary]
    exact same_error _
  | [_], [_], .cons ht .nil => by
    rw [primary, primary, ← ht.kind, ← ht.text]
    split
    · exact .ok (.number _ ht.span)
    · exact .ok (.reference _ ht.span)
    · exact same_error _
  | first :: second :: rest, first' :: second' :: rest', .cons hf (.cons hs hr) => by
    have hmore : Token.AllAlike R (second :: rest) (second' :: rest') := .cons hs hr
    rw [primary, primary, ← hf.kind, ← hf.text, ← hs.kind, ← endsWith_alike hmore,
      ← endsWith_alike hr, ← hr.length_eq]
    split
    · split
      · have hinside : Token.AllAlike R (second :: rest).dropLast (second' :: rest').dropLast := by
          rw [List.dropLast_eq_take, List.dropLast_eq_take, ← hmore.length_eq]
          exact List.forall₂_take _ hmore
        exact (expression_alike hinside).followedBy 1
      · exact same_error _
    split
    · split
      · refine SameReading.bind (arguments_alike hr) fun given given' hgiven => ?_
        exact .ok (.call _ hgiven hf.span)
      · exact same_error _
    · exact same_error _
termination_by tokens => (tokens.length, 0)
decreasing_by all_goals simp only [Prod.lex_def, List.length_dropLast, List.length_cons]; omega

theorem arguments_alike {tokens others : List Token} (h : Token.AllAlike R tokens others) :
    SameReading (List.Forall₂ (Node.Alike R)) (arguments tokens) (arguments others) := by
  rw [arguments.eq_def tokens, arguments.eq_def others, ← expressionEnd?_alike h, ← h.length_eq]
  split
  · exact .ok .nil
  · let count := (expressionEnd? tokens).getD (tokens.length - 1)
    have hfirst := (expression_alike (List.forall₂_take count h)).followedBy
      (tokens.length - count)
    refine SameReading.bind hfirst fun argument argument' ha => ?_
    refine SameReading.bind (arguments_alike (List.forall₂_drop (count + 1) h))
      fun more more' hm => ?_
    exact .ok (.cons ha hm)
termination_by (tokens.length, 3)
decreasing_by all_goals simp only [Prod.lex_def, List.length_take, List.length_drop]; omega

end

/-! ## Statements and bodies -/

variable {tokens others : List Token}

theorem declaration_alike (h : Token.AllAlike R tokens others) :
    SameReading (Node.Alike R) (declaration tokens) (declaration others) := by
  have hrest (marked : Bool) : Token.AllAlike R (if marked then tokens.tail else tokens)
      (if marked then others.tail else others) := by
    split
    · rw [← List.drop_one, ← List.drop_one]
      exact List.forall₂_drop 1 h
    · exact h
  rw [declaration, declaration, startsWith_alike h]
  refine SameReading.bind (expect_alike (hrest _) .identifier) ?_
  rintro ⟨type, more⟩ ⟨type', more'⟩ ⟨ht, hm⟩
  refine SameReading.bind (expect_alike hm .identifier) ?_
  rintro ⟨name, value⟩ ⟨name', value'⟩ ⟨hn, hv⟩
  dsimp only at ht hn hv ⊢
  rw [← ht.text, ← hn.text]
  cases hv with
  | nil => exact .ok (.declare _ _ _ .none hn.span)
  | cons hsign hvalue =>
    dsimp only
    rw [← hsign.kind, ← hvalue.length_eq]
    split
    · refine SameReading.bind (expression_alike hvalue) fun node node' hnode => ?_
      exact .ok (.declare _ _ _ (.some hnode) hn.span)
    · exact same_error _

theorem assignment_alike (h : Token.AllAlike R tokens others) :
    SameReading (Node.Alike R) (assignment tokens) (assignment others) := by
  refine SameReading.bind (expect_alike h .identifier) ?_
  rintro ⟨target, rest⟩ ⟨target', rest'⟩ ⟨ht, hr⟩
  refine SameReading.bind (expect_alike hr .assign) ?_
  rintro ⟨sign, value⟩ ⟨sign', value'⟩ ⟨-, hv⟩
  refine SameReading.bind (expression_alike hv) fun node node' hnode => ?_
  dsimp only at ht ⊢
  rw [← ht.text]
  exact .ok (.assign _ hnode ht.span)

theorem statement_alike (h : Token.AllAlike R tokens others) :
    SameReading (Node.Alike R) (statement tokens) (statement others) := by
  have htail : Token.AllAlike R tokens.tail others.tail := by
    rw [← List.drop_one, ← List.drop_one]
    exact List.forall₂_drop 1 h
  unfold statement
  simp only [startsWith_alike h, startsWith_alike htail]
  split
  · exact declaration_alike h
  split
  · exact declaration_alike h
  split
  · exact assignment_alike h
  · exact expression_alike h

theorem condition_alike (h : Token.AllAlike R tokens others) :
    SameReading (Both (Node.Alike R) Eq) (condition tokens) (condition others) := by
  cases h with
  | nil => exact same_error _
  | @cons first first' rest rest' hf hr =>
    rw [condition, condition, ← hf.kind, parenCloser?, parenCloser?, ← closer?_alike hr,
      ← hr.length_eq]
    split
    · exact same_error _
    split
    · exact same_error _
    · rename_i count hc
      have hinside := (expression_alike (List.forall₂_take count hr)).followedBy
        (rest.length - count)
      refine SameReading.bind hinside fun node node' hnode => ?_
      exact .ok ⟨hnode, rfl⟩

theorem toList_alike {pending pending' : Option Node}
    (h : Option.Rel (Node.Alike R) pending pending') :
    List.Forall₂ (Node.Alike R) pending.toList pending'.toList := by
  cases h with
  | none => exact .nil
  | some hn => exact .cons hn .nil

theorem closeBody_alike (h : Token.AllAlike R tokens others) {statements statements' : List Node}
    (hs : List.Forall₂ (Node.Alike R) statements statements') {pending pending' : Option Node}
    (hp : Option.Rel (Node.Alike R) pending pending') :
    (closeBody tokens statements pending).Alike R (closeBody others statements' pending') := by
  rw [closeBody, closeBody, ← endsWith_alike h]
  split
  · exact .mk (List.rel_append hs (toList_alike hp)) .none
  · exact .mk hs hp

mutual

theorem body_alike {tokens others : List Token} (h : Token.AllAlike R tokens others) :
    SameReading (Body.Alike R) (body tokens) (body others) := by
  rw [body, body]
  refine SameReading.bind (bodyRest_alike .nil .none h) ?_
  rintro ⟨done, last⟩ ⟨done', last'⟩ ⟨hd, hl⟩
  exact .ok (closeBody_alike h hd hl)
termination_by (tokens.length, 1)

theorem bodyRest_alike {statements statements' : List Node}
    (hs : List.Forall₂ (Node.Alike R) statements statements') {pending pending' : Option Node}
    (hp : Option.Rel (Node.Alike R) pending pending') :
    {tokens others : List Token} → Token.AllAlike R tokens others →
    SameReading (Both (List.Forall₂ (Node.Alike R)) (Option.Rel (Node.Alike R)))
      (bodyRest statements pending tokens) (bodyRest statements' pending' others)
  | _, _, .nil => by
    rw [bodyRest, bodyRest]
    exact .ok ⟨hs, hp⟩
  | first :: rest, first' :: rest', .cons hf hr => by
    have hdone := List.rel_append hs (toList_alike hp)
    rw [bodyRest, bodyRest, ← hf.kind]
    split
    · refine SameReading.bind (branch_alike hr) ?_
      rintro ⟨condition, inner, otherwise, count⟩ ⟨condition', inner', otherwise', count'⟩
        ⟨hc, hb, ho, hcount⟩
      cases hcount
      exact bodyRest_alike hdone (.some (.conditional hc hb ho hf.span))
        (List.forall₂_drop count hr)
    split
    · exact bodyRest_alike hdone .none hr
    · have hend : statementEnd rest' = statementEnd rest :=
        (takeWhile_alike (fun a b hab => by rw [hab.kind]) hr).symm
      rw [hend, ← hr.length_eq]
      have hstatement := (statement_alike (.cons hf (List.forall₂_take (statementEnd rest)
        hr))).followedBy (rest.length - statementEnd rest)
      refine SameReading.bind hstatement fun node node' hnode => ?_
      exact bodyRest_alike hdone (.some hnode) (List.forall₂_drop _ hr)
termination_by tokens => (tokens.length, 0)
decreasing_by all_goals simp only [Prod.lex_def, List.length_drop, List.length_cons]; omega

theorem block_alike : {tokens others : List Token} → Token.AllAlike R tokens others →
    SameReading (Both (Body.Alike R) Eq) (block tokens) (block others)
  | _, _, .nil => by
    rw [block]
    exact same_error _
  | first :: rest, first' :: rest', .cons hf hr => by
    rw [block, block, ← hf.kind, curlyCloser?, curlyCloser?, ← closer?_alike hr, ← hr.length_eq]
    split
    · exact same_error _
    split
    · exact same_error _
    · rename_i count hc
      have hinside := (body_alike (List.forall₂_take count hr)).followedBy (rest.length - count)
      refine SameReading.bind hinside fun result result' hresult => ?_
      exact .ok ⟨hresult, rfl⟩
termination_by tokens => (tokens.length, 0)
decreasing_by simp only [Prod.lex_def, List.length_take, List.length_cons]; omega

theorem branch_alike {tokens others : List Token} (h : Token.AllAlike R tokens others) :
    SameReading (Both (Node.Alike R) (Both (Body.Alike R) (Both (Alternative.Alike R) Eq)))
      (branch tokens) (branch others) := by
  rw [branch, branch]
  refine SameReading.bind (condition_alike h) ?_
  rintro ⟨condition, conditionCount⟩ ⟨condition', _⟩ ⟨hc, rfl⟩
  refine SameReading.bind (block_alike (List.forall₂_drop conditionCount h)) ?_
  rintro ⟨inner, bodyCount⟩ ⟨inner', _⟩ ⟨hb, rfl⟩
  refine SameReading.bind (alternative_alike (List.forall₂_drop (conditionCount + bodyCount) h)) ?_
  rintro ⟨otherwise, count⟩ ⟨otherwise', _⟩ ⟨ho, rfl⟩
  exact .ok ⟨hc, hb, ho, rfl⟩
termination_by (tokens.length, 1)
decreasing_by all_goals simp only [Prod.lex_def, List.length_drop]; omega

theorem alternative_alike : {tokens others : List Token} → Token.AllAlike R tokens others →
    SameReading (Both (Alternative.Alike R) Eq) (alternative tokens) (alternative others)
  | _, _, .nil => by
    rw [alternative]
    exact .ok ⟨.nothing, rfl⟩
  | first :: rest, first' :: rest', .cons hf hr => by
    rw [alternative, alternative, ← hf.kind]
    split
    · refine SameReading.bind (branch_alike hr) ?_
      rintro ⟨condition, inner, otherwise, count⟩ ⟨condition', inner', otherwise', _⟩
        ⟨hc, hb, ho, rfl⟩
      exact .ok ⟨.elif hc hb ho, rfl⟩
    split
    · refine SameReading.bind (block_alike hr) ?_
      rintro ⟨inner, count⟩ ⟨inner', _⟩ ⟨hb, rfl⟩
      exact .ok ⟨.otherwise hb, rfl⟩
    · exact .ok ⟨.nothing, rfl⟩
termination_by tokens => (tokens.length, 0)
decreasing_by all_goals simp only [Prod.lex_def, List.length_cons]; omega

end

/-! ## Functions and programs -/

theorem parameters_alike : {tokens others : List Token} → Token.AllAlike R tokens others →
    SameReading (Both (List.Forall₂ (Parameter.Alike R)) (Token.AllAlike R))
      (parameters tokens) (parameters others)
  | _, _, .nil => same_error _
  | [_], [_], .cons ht .nil => by
    rw [parameters, parameters, ← ht.kind]
    exact same_error _
  | type :: name :: rest, type' :: name' :: rest', .cons ht (.cons hn hr) => by
    have hparameter : Parameter.Alike R ⟨type.text, name.text, name.span⟩
        ⟨type'.text, name'.text, name'.span⟩ := ⟨ht.text, hn.text, hn.span⟩
    rw [parameters, parameters, ← ht.kind, ← hn.kind, ← hr.length_eq]
    split
    · exact same_error _
    split
    · exact same_error _
    · cases hr with
      | nil => exact .ok ⟨.cons hparameter .nil, .nil⟩
      | cons hc hm =>
        dsimp only
        rw [← hc.kind]
        split
        · refine SameReading.bind (parameters_alike hm) ?_
          rintro ⟨given, more⟩ ⟨given', more'⟩ ⟨hg, hrest⟩
          exact .ok ⟨.cons hparameter hg, hrest⟩
        · exact .ok ⟨.cons hparameter .nil, .cons hc hm⟩

theorem parameterList_alike (h : Token.AllAlike R tokens others) :
    SameReading (Both (List.Forall₂ (Parameter.Alike R)) (Token.AllAlike R))
      (parameterList tokens) (parameterList others) := by
  rw [parameterList, parameterList, ← startsWith_alike h]
  split
  · exact parameters_alike h
  · exact .ok ⟨.nil, h⟩

theorem returnType_alike (h : Token.AllAlike R tokens others) :
    SameReading (Both Eq (Token.AllAlike R)) (returnType tokens) (returnType others) := by
  cases h with
  | nil => exact .ok ⟨rfl, .nil⟩
  | cons hf hr =>
    rw [returnType, returnType, ← hf.kind]
    split
    · refine SameReading.bind (expect_alike hr .identifier) ?_
      rintro ⟨type, more⟩ ⟨type', more'⟩ ⟨ht, hm⟩
      exact .ok ⟨ht.text, hm⟩
    · exact .ok ⟨rfl, .cons hf hr⟩

theorem prototype_alike (h : Token.AllAlike R tokens others) :
    SameReading (Both (Signature.Alike R) Eq) (prototype tokens) (prototype others) := by
  refine SameReading.bind (expect_alike h .identifier) ?_
  rintro ⟨name, rest⟩ ⟨name', rest'⟩ ⟨hn, hr⟩
  refine SameReading.bind (expect_alike hr .openParen) ?_
  rintro ⟨opening, inside⟩ ⟨opening', inside'⟩ ⟨-, hi⟩
  refine SameReading.bind (parameterList_alike hi) ?_
  rintro ⟨given, closed⟩ ⟨given', closed'⟩ ⟨hg, hc⟩
  refine SameReading.bind (expect_alike hc .closeParen) ?_
  rintro ⟨closing, arrow⟩ ⟨closing', arrow'⟩ ⟨-, ha⟩
  refine SameReading.bind (returnType_alike ha) ?_
  rintro ⟨type, left⟩ ⟨type', left'⟩ ⟨ht, hl⟩
  refine .ok ⟨⟨hn.text, hg, ht, hn.span⟩, ?_⟩
  dsimp only at hl ⊢
  rw [h.length_eq, hl.length_eq]

theorem signature_alike (h : Token.AllAlike R tokens others) :
    SameReading (Both (Signature.Alike R) Eq) (signature tokens) (signature others) := by
  refine SameReading.bind (expect_alike h .fnKeyword) ?_
  rintro ⟨keyword, rest⟩ ⟨keyword', rest'⟩ ⟨-, hr⟩
  refine SameReading.bind (prototype_alike hr) ?_
  rintro ⟨head, count⟩ ⟨head', _⟩ ⟨hh, rfl⟩
  exact .ok ⟨hh, rfl⟩

theorem externalRest_alike (h : Token.AllAlike R tokens others) :
    SameReading (Both (Signature.Alike R) Eq) (externalRest tokens) (externalRest others) := by
  have hsemicolon : (others.findIdx? fun token => token.kind = .semicolon) =
      tokens.findIdx? fun token => token.kind = .semicolon := by
    induction h with
    | nil => rfl
    | cons ht _ ih => rw [List.findIdx?_cons, List.findIdx?_cons, ht.kind, ih]
  rw [externalRest, externalRest, hsemicolon, ← h.length_eq]
  split
  · exact same_error _
  · rename_i stop hs
    have hhead := (signature_alike (List.forall₂_take stop h)).followedBy (tokens.length - stop)
    refine SameReading.bind hhead ?_
    rintro ⟨head, count⟩ ⟨head', _⟩ ⟨hh, rfl⟩
    dsimp only
    split
    · exact .ok ⟨hh, rfl⟩
    · exact same_error _

theorem definitionRest_alike (h : Token.AllAlike R tokens others) :
    SameReading (Both (Definition.Alike R) Eq) (definitionRest tokens) (definitionRest others) := by
  refine SameReading.bind (prototype_alike h) ?_
  rintro ⟨head, headCount⟩ ⟨head', _⟩ ⟨hh, rfl⟩
  refine SameReading.bind (block_alike (List.forall₂_drop headCount h)) ?_
  rintro ⟨inner, count⟩ ⟨inner', _⟩ ⟨hb, rfl⟩
  exact .ok ⟨⟨hh, hb⟩, rfl⟩

/-- Programs with tokens that are alike are read alike, or rejected at the same token. -/
theorem program_alike : {tokens others : List Token} → Token.AllAlike R tokens others →
    SameReading (Program.Alike R) (program tokens) (program others)
  | _, _, .nil => by
    rw [program]
    exact .ok ⟨.nil, .nil⟩
  | first :: rest, first' :: rest', .cons hf hr => by
    rw [program, program, ← hf.kind, ← hr.length_eq]
    split
    · refine SameReading.bind (externalRest_alike hr) ?_
      rintro ⟨head, count⟩ ⟨head', _⟩ ⟨hh, rfl⟩
      refine SameReading.bind (program_alike (List.forall₂_drop count hr)) fun more more' hm => ?_
      exact .ok ⟨hm.definitions, .cons hh hm.externals⟩
    split
    · refine SameReading.bind (definitionRest_alike hr) ?_
      rintro ⟨definition, count⟩ ⟨definition', _⟩ ⟨hd, rfl⟩
      refine SameReading.bind (program_alike (List.forall₂_drop count hr)) fun more more' hm => ?_
      exact .ok ⟨.cons hd hm.definitions, hm.externals⟩
    · exact same_error _
termination_by tokens => tokens.length
decreasing_by all_goals simp only [List.length_drop, List.length_cons]; omega

end
end Reading

/-! ## Diagnostics -/

section
variable {R : Span → Span → Prop} {tokens others : List Token}

theorem Buffer.token?_alike (h : Token.AllAlike R tokens others) (position : Nat) :
    Option.Rel (Token.Alike R) (Buffer.token? ⟨tokens⟩ position)
      (Buffer.token? ⟨others⟩ position) := by
  induction h generalizing position with
  | nil => exact .none
  | cons ht _ ih =>
    cases position with
    | zero => exact .some ht
    | succ position => exact ih position

/-- Where there is a token at all, every position is reported at one, and at the same one. -/
theorem Buffer.spanAt_alike (h : Token.AllAlike R tokens others) (hne : tokens ≠ [])
    (position : Nat) : R (Buffer.spanAt ⟨tokens⟩ position) (Buffer.spanAt ⟨others⟩ position) := by
  have htoken := Buffer.token?_alike h position
  have hlast := Reading.getLast?_alike h
  have hsome : tokens.getLast? ≠ none := by simpa using hne
  unfold Buffer.spanAt
  generalize Buffer.token? ⟨tokens⟩ position = found, Buffer.token? ⟨others⟩ position = found'
    at htoken ⊢
  cases htoken with
  | some ht => exact ht.span
  | none =>
    dsimp only
    generalize tokens.getLast? = last, others.getLast? = last' at hlast hsome ⊢
    cases hlast with
    | none => exact absurd rfl hsome
    | some ht => exact ht.span

theorem Buffer.diagnose_alike (h : Token.AllAlike R tokens others) (hne : tokens ≠ [])
    (demand : Demand) (position : Nat) :
    (Buffer.diagnose ⟨tokens⟩ demand position).Alike R
      (Buffer.diagnose ⟨others⟩ demand position) := by
  refine ⟨?_, Buffer.spanAt_alike h hne position, rfl⟩
  have htoken := Buffer.token?_alike h position
  show Buffer.causeAt _ _ _ = Buffer.causeAt _ _ _
  unfold Buffer.causeAt Buffer.describe
  generalize Buffer.token? ⟨tokens⟩ position = found, Buffer.token? ⟨others⟩ position = found'
    at htoken ⊢
  cases htoken with
  | none => rfl
  | some ht => simp only [ht.kind]

/-- Sequences that are alike declare programs that are alike, or are rejected alike. -/
theorem Program.ofTokens_alike (h : Token.AllAlike R tokens others) :
    SameOutcome (Diagnostic.Alike R) (Program.Alike R) (Program.ofTokens tokens)
      (Program.ofTokens others) := by
  have hread := Reading.program_alike h
  have hempty (hnil : tokens = []) : Reading.program tokens = .ok .empty := by
    rw [hnil, Reading.program]
  rw [Program.ofTokens, Program.ofTokens, ← h.length_eq]
  generalize Reading.program tokens = reading, Reading.program others = other at hread hempty ⊢
  cases hread with
  | ok hp => exact .ok hp
  | @error complaint _ he =>
    cases he
    have hne : tokens ≠ [] := by
      intro hnil
      cases hempty hnil
    exact .error (Buffer.diagnose_alike h hne _ _)

/-- The spans of the tokens at one index of both sequences. -/
def Token.Corresponding (tokens others : List Token) (s t : Span) : Prop :=
  ∃ (index : Nat) (token other : Token), tokens[index]? = some token ∧
    others[index]? = some other ∧ token.span = s ∧ other.span = t

/-- Sequences of the same lexemes are alike, with corresponding tokens at corresponding places. -/
theorem Token.allAlike_of_lexemes (h : tokens.map Token.lexeme = others.map Token.lexeme) :
    Token.AllAlike (Token.Corresponding tokens others) tokens others := by
  have hlength : tokens.length = others.length := by
    simpa using congrArg List.length h
  refine List.forall₂_iff_get.mpr ⟨hlength, fun index hi hj => ?_⟩
  have hlexeme : tokens[index].lexeme = others[index].lexeme := by
    simpa [hi, hj] using congrArg (·[index]?) h
  refine ⟨congrArg Lexeme.kind hlexeme, congrArg Lexeme.text hlexeme, ?_⟩
  exact ⟨index, tokens[index], others[index], by simp [hi], by simp [hj], rfl, rfl⟩

end

/-- Layout never influences reading. Whatever function moves the tokens, the program or the
diagnostic is moved by it and otherwise unchanged. And two sources of the same lexemes have
programs that are alike, or diagnostics that are alike, with the spans of corresponding tokens. -/
theorem Program.ofTokens_relocate :
    (∀ (f : Span → Span) (tokens : List Token),
      Program.ofTokens (tokens.map (Token.relocate f)) =
        ((Program.ofTokens tokens).map (Program.relocate f)).mapError (Diagnostic.relocate f)) ∧
    ∀ (first second : String) (tokens others : List Token),
      Token.scan first = .ok tokens → Token.scan second = .ok others →
      tokens.map Token.lexeme = others.map Token.lexeme →
      SameOutcome (Diagnostic.Alike (Token.Corresponding tokens others))
        (Program.Alike (Token.Corresponding tokens others))
        (Program.ofSource first) (Program.ofSource second) := by
  constructor
  · intro f tokens
    have halike : Token.AllAlike (Span.SentBy f) tokens (tokens.map (Token.relocate f)) :=
      List.forall₂_map_right_iff.mpr
        (List.forall₂_same.mpr fun token _ => token.alike_relocate f)
    exact (Program.ofTokens_alike halike).eq_relocate
  · intro first second tokens others hfirst hsecond hlexemes
    rw [Program.ofSource, Program.ofSource, hfirst, hsecond]
    exact Program.ofTokens_alike (Token.allAlike_of_lexemes hlexemes)

/-- The tokens of `fn f(i32`, on one line. -/
def Program.narrowTokens : List Token :=
  [⟨.fnKeyword, "fn", ⟨1, 0, 2⟩⟩, ⟨.identifier, "f", ⟨1, 3, 4⟩⟩, ⟨.openParen, "(", ⟨1, 4, 5⟩⟩,
    ⟨.identifier, "i32", ⟨1, 5, 8⟩⟩]

/-- The same lexemes, spread over lines with comments. -/
def Program.spreadTokens : List Token :=
  [⟨.fnKeyword, "fn", ⟨2, 0, 2⟩⟩, ⟨.identifier, "f", ⟨2, 3, 4⟩⟩, ⟨.openParen, "(", ⟨3, 1, 2⟩⟩,
    ⟨.identifier, "i32", ⟨3, 3, 6⟩⟩]

theorem Program.ofTokens_relocate_spread :
    Token.scan "fn f(i32" = .ok Program.narrowTokens ∧
      Token.scan "# π\nfn\tf # é\r\n ( i32\n" = .ok Program.spreadTokens ∧
      Program.ofSource "fn f(i32" = .error ⟨.unexpectedEnd .identifier, ⟨1, 5, 8⟩, none⟩ ∧
      SameOutcome
        (Diagnostic.Alike (Token.Corresponding Program.narrowTokens Program.spreadTokens))
        (Program.Alike (Token.Corresponding Program.narrowTokens Program.spreadTokens))
        (Program.ofSource "fn f(i32") (Program.ofSource "# π\nfn\tf # é\r\n ( i32\n") := by
  have hnarrow : Token.scan "fn f(i32" = .ok Program.narrowTokens := by
    unfold Program.narrowTokens
    cbv
  have hspread : Token.scan "# π\nfn\tf # é\r\n ( i32\n" = .ok Program.spreadTokens := by
    unfold Program.spreadTokens
    cbv
  refine ⟨hnarrow, hspread, by cbv, ?_⟩
  exact Program.ofTokens_relocate.2 _ _ _ _ hnarrow hspread rfl

end FrontEnd
