import FrontEnd.Reading.Declaration

/-! # The grammar of function heads

What stands behind `fn` in a function's head, said of its tokens: a name, parameters in parentheses
with commas between them, and perhaps an arrow with a type. The reader takes exactly such tokens
from the front. It looks one token ahead, for an arrow behind the parentheses, and not further. -/
namespace FrontEnd.Grammar
open FrontEnd.Reading

inductive Parameters : List Token → List Parameter → Prop
  | single {type name} : type.kind = .identifier → name.kind = .identifier →
      Parameters [type, name] [⟨type.text, name.text, name.span⟩]
  | more {type name comma rest given} : type.kind = .identifier → name.kind = .identifier →
      comma.kind = .comma → Parameters rest given →
      Parameters (type :: name :: comma :: rest) (⟨type.text, name.text, name.span⟩ :: given)

inductive ParameterList : List Token → List Parameter → Prop
  | absent : ParameterList [] []
  | present {tokens given} : Parameters tokens given → ParameterList tokens given

inductive ReturnType : List Token → String → Prop
  | absent : ReturnType [] "void"
  | present {arrow type} : arrow.kind = .arrow → type.kind = .identifier →
      ReturnType [arrow, type] type.text

inductive Head : List Token → Token → List Parameter → Prop
  | mk {name opening inside closing given} : name.kind = .identifier →
      opening.kind = .openParen → ParameterList inside given → closing.kind = .closeParen →
      Head (name :: opening :: (inside ++ [closing])) name given

end FrontEnd.Grammar

namespace FrontEnd.Reading
open FrontEnd.Grammar

theorem startsWith_append {kind : TokenKind} {tokens : List Token} (h : tokens ≠ [])
    (rest : List Token) : startsWith kind (tokens ++ rest) = startsWith kind tokens := by
  cases tokens with
  | nil => exact absurd rfl h
  | cons token more => rfl

/-- Parameters are read as far as commas go on. -/
theorem parameters_eq_ok_iff {tokens rest : List Token} {given : List Parameter} :
    parameters tokens = .ok (given, rest) ↔
      ∃ front, tokens = front ++ rest ∧ Parameters front given ∧
        startsWith .comma rest = false := by
  constructor
  · intro h
    induction tokens using parameters.induct generalizing given rest with
    | case1 => cases h
    | case2 type => cases h
    | case3 type name more ht => simp [parameters, ht] at h
    | case4 type name more ht hn => simp [parameters, ht, hn] at h
    | case5 type name ht hn =>
      rw [ne_eq, Decidable.not_not] at ht hn
      simp only [parameters, ht, hn] at h
      cases h
      exact ⟨[type, name], rfl, .single ht hn, rfl⟩
    | case6 type name ht hn comma more hk ih =>
      rw [ne_eq, Decidable.not_not] at ht hn
      simp only [parameters, ht, hn, hk] at h
      obtain ⟨⟨others, left⟩, hmore, hgiven⟩ := bind_eq_ok.mp h
      cases hgiven
      obtain ⟨front, rfl, hp, hc⟩ := ih hmore
      exact ⟨type :: name :: comma :: front, rfl, .more ht hn hk hp, hc⟩
    | case7 type name ht hn next more hk =>
      rw [ne_eq, Decidable.not_not] at ht hn
      simp only [parameters, ht, hn, hk] at h
      cases h
      exact ⟨[type, name], rfl, .single ht hn, by simpa [startsWith] using hk⟩
  · rintro ⟨front, rfl, hp, hc⟩
    induction hp with
    | single ht hn =>
      cases rest with
      | nil => simp [parameters, ht, hn]
      | cons next more =>
        have hk : next.kind ≠ .comma := by simpa [startsWith] using hc
        simp [parameters, ht, hn, hk]
    | more ht hn hk hp ih => simp [parameters, ht, hn, hk, ih]

theorem parameterList_eq_ok_iff {tokens rest : List Token} {given : List Parameter}
    (h : startsWith .closeParen rest = true) :
    parameterList tokens = .ok (given, rest) ↔
      ∃ front, tokens = front ++ rest ∧ ParameterList front given := by
  have hfirst {kind : TokenKind} (hk : kind ≠ .closeParen) : startsWith kind rest = false := by
    cases rest with
    | nil => rfl
    | cons token more =>
      have ht : token.kind = .closeParen := by simpa [startsWith] using h
      simpa [startsWith, ht] using hk.symm
  unfold parameterList
  split
  · rename_i hname
    rw [parameters_eq_ok_iff]
    constructor
    · rintro ⟨front, rfl, hp, -⟩
      exact ⟨front, rfl, .present hp⟩
    · rintro ⟨front, rfl, hp⟩
      cases hp with
      | absent => rw [List.nil_append, hfirst (by decide)] at hname; cases hname
      | present hp => exact ⟨front, rfl, hp, hfirst (by decide)⟩
  · rename_i hname
    constructor
    · intro he
      cases he
      exact ⟨[], rfl, .absent⟩
    · rintro ⟨front, rfl, hp⟩
      cases hp with
      | absent => rfl
      | present hp => cases hp <;> simp_all [startsWith]

/-- The return type is read wherever an arrow stands. -/
theorem returnType_eq_ok_iff {tokens rest : List Token} {type : String} :
    returnType tokens = .ok (type, rest) ↔
      ∃ front, tokens = front ++ rest ∧ ReturnType front type ∧
        (front = [] → startsWith .arrow rest = false) := by
  constructor
  · intro h
    unfold returnType at h
    split at h
    · cases h
      exact ⟨[], rfl, .absent, fun _ => rfl⟩
    split at h
    · rename_i hk
      obtain ⟨⟨name, more⟩, hname, hresult⟩ := bind_eq_ok.mp h
      cases hresult
      obtain ⟨rfl, hn⟩ := expect_eq_ok.mp hname
      exact ⟨[_, name], rfl, .present hk hn, by simp⟩
    · rename_i hk
      cases h
      exact ⟨[], rfl, .absent, fun _ => by simpa [startsWith] using hk⟩
  · rintro ⟨front, rfl, hr, ha⟩
    cases hr with
    | absent =>
      cases rest with
      | nil => rfl
      | cons first more =>
        have hk : first.kind ≠ .arrow := by simpa [startsWith] using ha
        simp [returnType, hk]
    | present hk hn => simp [returnType, expect, hk, hn]

/-- A function's head is read exactly where it stands, with its arrow if there is one. -/
theorem prototype_eq_ok_iff {tokens : List Token} {signature : Signature} {count : Nat} :
    prototype tokens = .ok (signature, count) ↔
      ∃ head arrow rest name given type, tokens = head ++ (arrow ++ rest) ∧ Head head name given ∧
        ReturnType arrow type ∧ (arrow = [] → startsWith .arrow rest = false) ∧
        signature = ⟨name.text, given, type, name.span⟩ ∧ count = head.length + arrow.length := by
  constructor
  · intro h
    simp only [prototype, bind_eq_ok, Prod.exists, Except.ok.injEq, Prod.mk.injEq] at h
    obtain ⟨name, _, hname, opening, _, hopening, given, _, hinside, closing, more, hclosing, type,
      rest, htype, rfl, rfl⟩ := h
    obtain ⟨rfl, hn⟩ := expect_eq_ok.mp hname
    obtain ⟨rfl, ho⟩ := expect_eq_ok.mp hopening
    obtain ⟨rfl, hc⟩ := expect_eq_ok.mp hclosing
    have hstart : startsWith .closeParen (closing :: more) = true := by
      simpa [startsWith] using hc
    obtain ⟨inside, rfl, hp⟩ := (parameterList_eq_ok_iff hstart).mp hinside
    obtain ⟨arrow, rfl, hr, ha⟩ := returnType_eq_ok_iff.mp htype
    refine ⟨name :: opening :: (inside ++ [closing]), arrow, rest, name, given, type, by simp,
      .mk hn ho hp hc, hr, ha, rfl, ?_⟩
    simp
    omega
  · rintro ⟨head, arrow, rest, name, given, type, rfl, hh, hr, ha, rfl, rfl⟩
    cases hh with
    | @mk name opening inside closing given hn ho hp hc =>
      have hstart : startsWith .closeParen (closing :: (arrow ++ rest)) = true := by
        simpa [startsWith] using hc
      have hinside := (parameterList_eq_ok_iff hstart).mpr ⟨inside, rfl, hp⟩
      have htype := returnType_eq_ok_iff.mpr ⟨arrow, rfl, hr, ha⟩
      simp [prototype, expect, hn, ho, hc, hinside, htype]
      omega

/-- An external function's head takes all tokens before the first semicolon. -/
theorem externalRest_eq_ok_iff {tokens : List Token} {head : Signature} {count : Nat} :
    externalRest tokens = .ok (head, count) ↔
      ∃ front semicolon rest, tokens = front ++ semicolon :: rest ∧
        (∀ token ∈ front, token.kind ≠ .semicolon) ∧ semicolon.kind = .semicolon ∧
        signature front = .ok (head, front.length) ∧ count = front.length + 1 := by
  constructor
  · intro h
    unfold externalRest at h
    split at h
    · cases h
    · rename_i stop hs
      obtain ⟨hlt, hk, hfront⟩ := List.findIdx?_eq_some_iff_getElem.mp hs
      obtain ⟨⟨read, taken⟩, hread, hend⟩ := bind_eq_ok.mp h
      have hlength : (tokens.take stop).length = stop := by
        rw [List.length_take]
        omega
      dsimp only at hend
      split at hend
      · rename_i heq
        cases hend
        refine ⟨tokens.take stop, tokens[stop], tokens.drop (stop + 1), ?_, ?_, by simpa using hk, ?_,
          by rw [hlength]⟩
        · rw [List.getElem_cons_drop, List.take_append_drop]
        · intro token ht
          obtain ⟨index, hi, rfl⟩ := List.mem_take_iff_getElem.mp ht
          simpa using hfront index (by omega)
        · rw [heq] at hread
          rw [hlength]
          exact followedBy_eq_ok.mp hread
      · cases hend
  · rintro ⟨front, semicolon, rest, rfl, hfront, hk, hs, rfl⟩
    have hnone : (front.findIdx? fun token => token.kind = .semicolon) = none := by
      rw [List.findIdx?_eq_none_iff]
      intro token ht
      simpa using hfront token ht
    have hstop : ((front ++ semicolon :: rest).findIdx? fun token => token.kind = .semicolon) =
        some front.length := by
      rw [List.findIdx?_append, hnone]
      simp [List.findIdx?_cons, hk]
    simp [externalRest, hstop, hs]

end FrontEnd.Reading
