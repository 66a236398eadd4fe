import FrontEnd.Proofs.Chains
import FrontEnd.Proofs.CheckedPrograms

/-! # Where function heads and external functions stand

A head is read from a position on exactly if it stands there below the bound, and it ends where its
tokens end: the parameters go as far as commas carry them on, and an arrow behind the parentheses
is taken along. For an external function the first semicolon is looked for before anything is read;
no head has a semicolon in it, so the search finds the one behind the head if there is a head at
all. It fails only where no semicolon follows. -/
namespace FrontEnd
namespace Grammar
open Reading

/-- A function's head: `fn`, a name, parameters in parentheses, and perhaps an arrow and a type. -/
inductive SignatureTokens : List Token → Signature → Prop
  | mk {keyword head arrow name given type} : keyword.kind = .fnKeyword → Head head name given →
      ReturnType arrow type →
      SignatureTokens (keyword :: (head ++ arrow)) ⟨name.text, given, type, name.span⟩

/-- An external function: `extern`, a head and a semicolon. -/
inductive ExternalTokens : List Token → Signature → Prop
  | mk {keyword head semicolon signature} : keyword.kind = .externKeyword →
      SignatureTokens head signature → semicolon.kind = .semicolon →
      ExternalTokens (keyword :: (head ++ [semicolon])) signature

/-! ## Semicolons and arrows -/

theorem Parameters.kind {tokens : List Token} {given : List Parameter}
    (h : Parameters tokens given) :
    ∀ token ∈ tokens, token.kind = .identifier ∨ token.kind = .comma := by
  induction h with
  | single ht hn => simp [ht, hn]
  | more ht hn hc _ ih => simpa [ht, hn, hc] using ih

theorem Head.no_semicolon {tokens : List Token} {name : Token} {given : List Parameter}
    (h : Head tokens name given) : ∀ token ∈ tokens, token.kind ≠ .semicolon := by
  cases h with
  | mk hn ho hp hc =>
    cases hp with
    | absent => simp [hn, ho, hc]
    | present hp =>
      intro token ht
      simp only [List.mem_cons, List.mem_append, List.not_mem_nil, or_false] at ht
      rcases ht with rfl | rfl | ht | rfl
      · simp [hn]
      · simp [ho]
      · rcases hp.kind token ht with hk | hk <;> simp [hk]
      · simp [hc]

theorem SignatureTokens.no_semicolon {tokens : List Token} {signature : Signature}
    (h : SignatureTokens tokens signature) : ∀ token ∈ tokens, token.kind ≠ .semicolon := by
  cases h with
  | mk hk hh hr =>
    intro token ht
    simp only [List.mem_cons, List.mem_append] at ht
    rcases ht with rfl | ht | ht
    · simp [hk]
    · exact hh.no_semicolon token ht
    · cases hr with
      | absent => cases ht
      | present ha hn =>
        simp only [List.mem_cons, List.not_mem_nil, or_false] at ht
        rcases ht with rfl | rfl
        · simp [ha]
        · simp [hn]

theorem SignatureTokens.ne_nil {tokens : List Token} {signature : Signature}
    (h : SignatureTokens tokens signature) : tokens ≠ [] := by
  cases h
  exact List.cons_ne_nil _ _

/-- A head whose last token is its closing parenthesis is one without an arrow. -/
theorem endsWith_head {keyword : Token} {head arrow : List Token} {name : Token}
    {given : List Parameter} {type : String} (h : Head head name given)
    (hr : ReturnType arrow type) :
    endsWith .closeParen (keyword :: (head ++ arrow)) = true ↔ arrow = [] := by
  cases hr with
  | absent =>
    cases h with
    | mk _ _ _ hc =>
      rw [List.append_nil, ← List.cons_append, ← List.cons_append, ← List.cons_append,
        endsWith_concat]
      simp [hc]
  | present ha hn =>
    rw [← List.cons_append, endsWith_append _ _ (List.cons_ne_nil _ _)]
    simp [endsWith, hn]

end Grammar

/-! ## Heads in lists -/

namespace Reading
open Grammar

/-- A head is read from the front of the tokens, with the arrow that follows it. -/
theorem signature_eq_ok_iff {tokens : List Token} {head : Signature} {count : Nat} :
    signature tokens = .ok (head, count) ↔
      ∃ front rest, tokens = front ++ rest ∧ front.length = count ∧ SignatureTokens front head ∧
        (endsWith .closeParen front = true → startsWith .arrow rest = false) := by
  constructor
  · intro h
    obtain ⟨⟨keyword, rest⟩, hk, hrest⟩ := bind_eq_ok.mp h
    obtain ⟨⟨read, found⟩, hread, hresult⟩ := bind_eq_ok.mp hrest
    cases hresult
    obtain ⟨rfl, hkind⟩ := expect_eq_ok.mp hk
    obtain ⟨front, arrow, more, name, given, type, rfl, hh, hr, ha, rfl, rfl⟩ :=
      prototype_eq_ok_iff.mp hread
    refine ⟨keyword :: (front ++ arrow), more, by simp, by simp, .mk hkind hh hr, ?_⟩
    exact fun he => ha ((endsWith_head hh hr).mp he)
  · rintro ⟨front, rest, rfl, rfl, hs, ha⟩
    cases hs with
    | @mk keyword front arrow name given type hk hh hr =>
      have hread := prototype_eq_ok_iff.mpr ⟨front, arrow, rest, name, given, type,
        rfl, hh, hr, fun he => ha ((endsWith_head hh hr).mpr he), rfl, rfl⟩
      rw [List.cons_append, List.append_assoc]
      simp [signature, expect, hk, hread]

theorem signature_whole_iff {tokens : List Token} {head : Signature} :
    signature tokens = .ok (head, tokens.length) ↔ SignatureTokens tokens head := by
  rw [signature_eq_ok_iff]
  constructor
  · rintro ⟨front, rest, rfl, hlength, hs, -⟩
    have hrest : rest = [] := by simpa using hlength
    rwa [hrest, List.append_nil]
  · intro h
    exact ⟨tokens, [], by simp, rfl, h, fun _ => rfl⟩

/-- An external function is read from the front of the tokens. -/
theorem external_eq_ok_iff {tokens : List Token} {head : Signature} {count : Nat} :
    external tokens = .ok (head, count) ↔
      ∃ front rest, tokens = front ++ rest ∧ front.length = count ∧ ExternalTokens front head := by
  constructor
  · intro h
    obtain ⟨⟨keyword, rest⟩, hk, hrest⟩ := bind_eq_ok.mp h
    obtain ⟨⟨read, found⟩, hread, hresult⟩ := bind_eq_ok.mp hrest
    cases hresult
    obtain ⟨rfl, hkind⟩ := expect_eq_ok.mp hk
    obtain ⟨front, semicolon, more, rfl, -, hsemi, hs, rfl⟩ := externalRest_eq_ok_iff.mp hread
    exact ⟨keyword :: (front ++ [semicolon]), more, by simp, by simp,
      .mk hkind (signature_whole_iff.mp hs) hsemi⟩
  · rintro ⟨front, rest, rfl, rfl, he⟩
    cases he with
    | @mk keyword front semicolon _ hk hs hsemi =>
      have hread := externalRest_eq_ok_iff.mpr ⟨front, semicolon, rest, rfl, hs.no_semicolon, hsemi,
        signature_whole_iff.mpr hs, rfl⟩
      rw [List.cons_append, List.append_assoc, List.singleton_append]
      simp [external, expect, hk, hread]

/-! ## What heads ask for -/

/-- A complaint, if there is one, is about one token. -/
def AsksForTokens {α : Type} (reading : Reading α) : Prop :=
  ∀ complaint, reading = .error complaint → ∃ kind, complaint.demand = .token kind

section
variable {α β : Type} {reading : Reading α}

theorem asksForTokens_ok (a : α) : AsksForTokens (.ok a : Reading α) := by
  intro complaint h
  cases h

theorem asksForTokens_error (kind : TokenKind) (left : Nat) :
    AsksForTokens (.error ⟨.token kind, left⟩ : Reading α) := by
  intro complaint h
  cases h
  exact ⟨kind, rfl⟩

theorem AsksForTokens.bind {next : α → Reading β} (h : reading.AsksForTokens)
    (hnext : ∀ a, (next a).AsksForTokens) : AsksForTokens (reading >>= next) := by
  cases reading with
  | ok a => exact hnext a
  | error complaint =>
    intro other ho
    cases ho
    exact h complaint rfl

theorem AsksForTokens.followedBy (h : reading.AsksForTokens) (count : Nat) :
    (reading.followedBy count).AsksForTokens := by
  cases reading with
  | ok a => exact asksForTokens_ok a
  | error complaint =>
    intro other ho
    cases ho
    exact h complaint rfl

end

theorem expect_asksForTokens (kind : TokenKind) (tokens : List Token) :
    (expect kind tokens).AsksForTokens := by
  unfold expect
  split
  · split
    · exact asksForTokens_ok _
    · exact asksForTokens_error _ _
  · exact asksForTokens_error _ _

theorem parameters_asksForTokens (tokens : List Token) : (parameters tokens).AsksForTokens := by
  fun_induction parameters tokens with
  | case1 => exact asksForTokens_error _ _
  | case2 type => exact asksForTokens_error _ _
  | case3 => exact asksForTokens_error _ _
  | case4 => exact asksForTokens_error _ _
  | case5 => exact asksForTokens_ok _
  | case6 type name ht hn parameter comma more hk ih =>
    exact ih.bind fun result => asksForTokens_ok _
  | case7 => exact asksForTokens_ok _

theorem signature_asksForTokens (tokens : List Token) : (signature tokens).AsksForTokens := by
  have hparameters (tokens : List Token) : (parameterList tokens).AsksForTokens := by
    unfold parameterList
    split
    · exact parameters_asksForTokens tokens
    · exact asksForTokens_ok _
  have htype (tokens : List Token) : (returnType tokens).AsksForTokens := by
    unfold returnType
    split
    · exact asksForTokens_ok _
    · split
      · exact (expect_asksForTokens _ _).bind fun result => asksForTokens_ok _
      · exact asksForTokens_ok _
  unfold signature prototype
  refine (expect_asksForTokens _ _).bind fun keyword => AsksForTokens.bind ?_ fun result =>
    asksForTokens_ok _
  refine (expect_asksForTokens _ _).bind fun name => ?_
  refine (expect_asksForTokens _ _).bind fun opening => ?_
  refine (hparameters _).bind fun given => ?_
  refine (expect_asksForTokens _ _).bind fun closing => ?_
  exact (htype _).bind fun type => asksForTokens_ok _

theorem externalRest_ended {tokens : List Token} (h : ∃ token ∈ tokens, token.kind = .semicolon) :
    (externalRest tokens).AsksForTokens := by
  obtain ⟨semicolon, hm, hk⟩ := h
  unfold externalRest
  split
  · rename_i hnone
    rw [List.findIdx?_eq_none_iff] at hnone
    exact absurd hk (by simpa using hnone semicolon hm)
  · refine ((signature_asksForTokens _).followedBy _).bind fun result => ?_
    show AsksForTokens (if result.2 = _ then _ else _)
    split
    · exact asksForTokens_ok _
    · exact asksForTokens_error _ _

theorem externalRest_unended {tokens : List Token} (h : ∀ token ∈ tokens, token.kind ≠ .semicolon) :
    externalRest tokens = .error ⟨.externalEnd, tokens.length + 1⟩ := by
  have hnone : (tokens.findIdx? fun token => token.kind = .semicolon) = none := by
    rw [List.findIdx?_eq_none_iff]
    simpa using h
  rw [externalRest, hnone]

theorem external_keyword {keyword : Token} (rest : List Token)
    (hk : keyword.kind = .externKeyword) :
    external (keyword :: rest) = (do
      let (head, count) ← externalRest rest
      .ok (head, count + 1)) := by
  simp [external, expect, hk]

/-- A semicolon is missed behind `extern` exactly if none follows. -/
theorem external_unended_iff {tokens : List Token} {complaint : Complaint} :
    external tokens = .error complaint ∧ complaint.demand = .externalEnd ↔
      ∃ keyword rest, tokens = keyword :: rest ∧ keyword.kind = .externKeyword ∧
        (∀ token ∈ rest, token.kind ≠ .semicolon) ∧
        complaint = ⟨.externalEnd, tokens.length⟩ := by
  constructor
  · rintro ⟨h, hd⟩
    cases tokens with
    | nil =>
      cases h
      cases hd
    | cons keyword rest =>
      by_cases hk : keyword.kind = .externKeyword
      · rw [external_keyword rest hk] at h
        by_cases hnone : ∀ token ∈ rest, token.kind ≠ .semicolon
        · rw [externalRest_unended hnone] at h
          cases h
          exact ⟨keyword, rest, rfl, hk, hnone, rfl⟩
        · -- with a semicolon in sight only tokens are asked for
          have hended : (externalRest rest).AsksForTokens :=
            externalRest_ended (by simpa using hnone)
          obtain ⟨kind, hkind⟩ := hended.bind (fun _ => asksForTokens_ok _) complaint h
          rw [hkind] at hd
          cases hd
      · obtain ⟨kind, hkind⟩ : ∃ kind, complaint.demand = .token kind := by
          rw [external, expect, if_neg hk] at h
          cases h
          exact ⟨_, rfl⟩
        rw [hkind] at hd
        cases hd
  · rintro ⟨keyword, rest, rfl, hk, hnone, rfl⟩
    refine ⟨?_, rfl⟩
    rw [external_keyword rest hk, externalRest_unended hnone]
    rfl

end Reading

/-! ## Heads in a buffer -/

namespace Buffer
open Grammar

/-- A head stands from `start` up to `next`, which is at most the bound. If it ends with its closing
parenthesis, then because no arrow follows below the bound. -/
structure HeadAt (buffer : Buffer) (start next bound : Nat) (signature : Signature) : Prop where
  next_le : next ≤ bound
  tokens : SignatureTokens (buffer.slice start next) signature
  arrow : Reading.endsWith .closeParen (buffer.slice start next) = true →
    buffer.peek .arrow next bound = false

/-- An external function stands from `start` up to `next`. -/
structure ExternalAt (buffer : Buffer) (start next : Nat) (signature : Signature) : Prop where
  next_le : next ≤ buffer.size
  tokens : ExternalTokens (buffer.slice start next) signature

/-- The keyword `extern` stands at `start`, and no semicolon behind it. -/
structure UnendedAt (buffer : Buffer) (start : Nat) (keyword : Token) : Prop where
  token : buffer.token? start = some keyword
  kind : keyword.kind = .externKeyword
  unended : ∀ position token, start < position → buffer.token? position = some token →
    token.kind ≠ .semicolon

section
variable {α : Type} {buffer : Buffer} {start next bound : Nat}
  {reader : List Token → Reading (α × Nat)} {result : α}

theorem readUpTo_eq_ok_iff : buffer.readUpTo start bound reader = .ok (result, next) ↔
    ∃ count, reader (buffer.slice start bound) = .ok (result, count) ∧ next = start + count := by
  rw [readUpTo]
  cases reader (buffer.slice start bound) with
  | ok read =>
    obtain ⟨read, count⟩ := read
    constructor
    · intro h
      cases h
      exact ⟨count, rfl, rfl⟩
    · rintro ⟨_, h, rfl⟩
      cases h
      rfl
  | error complaint =>
    constructor
    · intro h
      dsimp only at h
      split at h <;> cases h
    · rintro ⟨_, h, -⟩
      cases h

theorem start_lt_of_slice_ne_nil (h : buffer.slice start next ≠ []) : start < next := by
  refine Nat.lt_of_not_le fun hle => h ?_
  rw [slice, List.drop_eq_nil_iff, List.length_take]
  omega

/-- What is read from the front of the tokens below the bound is what stands up to some position. -/
theorem readUpTo_front_iff {P : List Token → List Token → Prop} (hb : bound ≤ buffer.size)
    (hread : ∀ {tokens count}, reader tokens = .ok (result, count) ↔
      ∃ front rest, tokens = front ++ rest ∧ front.length = count ∧ P front rest)
    (hne : ∀ {front rest}, P front rest → front ≠ []) :
    buffer.readUpTo start bound reader = .ok (result, next) ↔
      next ≤ bound ∧ P (buffer.slice start next) (buffer.slice next bound) := by
  rw [readUpTo_eq_ok_iff]
  constructor
  · rintro ⟨count, hr, rfl⟩
    obtain ⟨front, rest, hsplit, rfl, hp⟩ := hread.mp hr
    have hfilled : buffer.slice start bound ≠ [] := by
      rw [hsplit]
      simp [hne hp]
    have hlt := start_lt_of_slice_ne_nil hfilled
    have hwindow := buffer.window (Nat.le_of_lt hlt) hb
    have hlength := hwindow.length_eq
    have hcount : front.length ≤ (buffer.slice start bound).length := by simp [hsplit]
    rw [(hwindow.take hcount).slice_eq, (hwindow.drop hcount).slice_eq, hsplit, List.take_left,
      List.drop_left]
    exact ⟨by omega, hp⟩
  · rintro ⟨hle, hp⟩
    have hlt := start_lt_of_slice_ne_nil (hne hp)
    obtain ⟨count, rfl⟩ := Nat.exists_eq_add_of_le (Nat.le_of_lt hlt)
    have hwindow := buffer.window (show start ≤ bound by omega) hb
    have hlength := hwindow.length_eq
    have hcount : count ≤ (buffer.slice start bound).length := by omega
    rw [(hwindow.take hcount).slice_eq, (hwindow.drop hcount).slice_eq] at hp
    exact ⟨count, hread.mpr ⟨_, _, (List.take_append_drop count _).symm,
      List.length_take_of_le hcount, hp⟩, rfl⟩

end

theorem peek_slice (buffer : Buffer) (kind : TokenKind) {next bound : Nat} (hn : next ≤ bound)
    (hb : bound ≤ buffer.size) :
    buffer.peek kind next bound = Reading.startsWith kind (buffer.slice next bound) :=
  (buffer.window hn hb).peek_eq kind

theorem signature_iff_headAt (buffer : Buffer) {start next bound : Nat} (hb : bound ≤ buffer.size)
    (signature : Signature) :
    buffer.signature start bound = .ok (signature, next) ↔
      buffer.HeadAt start next bound signature := by
  rw [Buffer.signature, readUpTo_front_iff hb Reading.signature_eq_ok_iff fun h => h.1.ne_nil]
  constructor
  · rintro ⟨hle, htokens, harrow⟩
    exact ⟨hle, htokens, by rwa [buffer.peek_slice .arrow hle hb]⟩
  · rintro ⟨hle, htokens, harrow⟩
    rw [buffer.peek_slice .arrow hle hb] at harrow
    exact ⟨hle, htokens, harrow⟩

theorem external_iff_externalAt (buffer : Buffer) {start next : Nat} (signature : Signature) :
    buffer.external start = .ok (signature, next) ↔ buffer.ExternalAt start next signature := by
  rw [Buffer.external, readUpTo_front_iff (P := fun front _ => ExternalTokens front signature)
    (Nat.le_refl _) Reading.external_eq_ok_iff]
  · exact ⟨fun h => ⟨h.1, h.2⟩, fun h => ⟨h.1, h.2⟩⟩
  · intro front rest h
    cases h
    exact List.cons_ne_nil _ _

/-- Only a missing semicolon is reported as one. -/
theorem causeAt_eq_expectedExternalEnd {buffer : Buffer} {position : Nat} {demand : Demand} :
    buffer.causeAt position demand = .expectedExternalEnd ↔ demand = .externalEnd := by
  cases demand with
  | token kind => cases h : buffer.token? position <;> simp [causeAt, h]
  | _ => simp [causeAt]

theorem mem_slice_iff {buffer : Buffer} {start stop : Nat} {token : Token} :
    token ∈ buffer.slice start stop ↔
      ∃ position, start ≤ position ∧ position < stop ∧ buffer.token? position = some token := by
  rw [List.mem_iff_getElem?]
  simp only [slice, List.getElem?_drop, List.getElem?_take, token?]
  constructor
  · rintro ⟨offset, h⟩
    split at h
    · rename_i hlt
      exact ⟨start + offset, Nat.le_add_right _ _, hlt, h⟩
    · cases h
  · rintro ⟨position, hle, hlt, h⟩
    obtain ⟨offset, rfl⟩ := Nat.exists_eq_add_of_le hle
    exact ⟨offset, by rw [if_pos hlt, h]⟩

/-- With the end of the buffer as the bound no token is missed. -/
theorem readUpTo_size_eq_error_iff {α : Type} {buffer : Buffer} {start : Nat}
    {reader : List Token → Reading (α × Nat)} {diagnostic : Diagnostic} :
    buffer.readUpTo start buffer.size reader = .error (.rejected diagnostic) ↔
      ∃ complaint, reader (buffer.slice start buffer.size) = .error complaint ∧
        diagnostic = buffer.diagnose complaint.demand
          (start + (buffer.slice start buffer.size).length - complaint.left) := by
  rw [readUpTo]
  cases reader (buffer.slice start buffer.size) with
  | ok read =>
    constructor
    · intro h
      cases h
    · rintro ⟨_, h, -⟩
      cases h
  | error complaint =>
    have hinside (position : Nat) :
        ¬ (position < buffer.size ∧ buffer.size ≤ position) := by omega
    simp only [Bool.and_eq_true, decide_eq_true_eq, if_neg (hinside _)]
    constructor
    · intro h
      cases h
      exact ⟨complaint, rfl, rfl⟩
    · rintro ⟨_, h, rfl⟩
      cases h
      rfl

theorem UnendedAt.slice {buffer : Buffer} {start : Nat} {keyword : Token}
    (h : buffer.UnendedAt start keyword) :
    buffer.slice start buffer.size = keyword :: buffer.slice (start + 1) buffer.size ∧
      ∀ token ∈ buffer.slice (start + 1) buffer.size, token.kind ≠ .semicolon := by
  have hlt : start < buffer.size := (List.getElem?_eq_some_iff.mp h.token).1
  refine ⟨slice_cons h.token hlt, fun token ht => ?_⟩
  obtain ⟨position, hle, -, hp⟩ := mem_slice_iff.mp ht
  exact h.unended position token hle hp

theorem unendedAt_of_slice {buffer : Buffer} {start : Nat} {keyword : Token} {rest : List Token}
    (hs : buffer.slice start buffer.size = keyword :: rest) (hk : keyword.kind = .externKeyword)
    (hnone : ∀ token ∈ rest, token.kind ≠ .semicolon) : buffer.UnendedAt start keyword := by
  have hfilled : buffer.slice start buffer.size ≠ [] := by
    rw [hs]
    exact List.cons_ne_nil keyword rest
  have hlt := start_lt_of_slice_ne_nil hfilled
  have hwindow := buffer.window (Nat.le_of_lt hlt) (Nat.le_refl _)
  rw [hs] at hwindow
  refine ⟨hwindow.token?_eq, hk, fun position token hp ht => ?_⟩
  have hin : position < buffer.size := (List.getElem?_eq_some_iff.mp ht).1
  refine hnone token ?_
  rw [← hwindow.tail.slice_eq]
  exact mem_slice_iff.mpr ⟨position, hp, hin, ht⟩

/-- The missing semicolon is reported at the keyword. -/
theorem external_unended (buffer : Buffer) (start : Nat) (diagnostic : Diagnostic) :
    buffer.external start = .error (.rejected diagnostic) ∧
        diagnostic.cause = .expectedExternalEnd ↔
      ∃ keyword, buffer.UnendedAt start keyword ∧
        diagnostic = ⟨.expectedExternalEnd, keyword.span, none⟩ := by
  rw [Buffer.external, readUpTo_size_eq_error_iff]
  constructor
  · rintro ⟨⟨complaint, herror, rfl⟩, hcause⟩
    have hdemand := causeAt_eq_expectedExternalEnd.mp hcause
    obtain ⟨keyword, rest, hs, hk, hnone, rfl⟩ :=
      Reading.external_unended_iff.mp ⟨herror, hdemand⟩
    have hunended := unendedAt_of_slice hs hk hnone
    refine ⟨keyword, hunended, ?_⟩
    rw [Nat.add_sub_cancel, diagnose, spanAt, hunended.token]
    rfl
  · rintro ⟨keyword, hunended, rfl⟩
    obtain ⟨hs, hnone⟩ := hunended.slice
    obtain ⟨herror, -⟩ := Reading.external_unended_iff.mpr
      ⟨keyword, _, hs, hunended.kind, hnone, rfl⟩
    refine ⟨⟨_, herror, ?_⟩, rfl⟩
    rw [Nat.add_sub_cancel, diagnose, spanAt, hunended.token]
    rfl

end Buffer

/-- A head is read from a position on exactly if it stands there below the bound, and an external
function exactly if it stands there; what is read holds the names, types and places that are
written. A semicolon is reported as missing exactly if `extern` stands there and none follows it in
the whole buffer. -/
theorem Buffer.heads_recognised (buffer : Buffer) :
    (∀ start bound, bound ≤ buffer.size → ∀ signature next,
      buffer.signature start bound = .ok (signature, next) ↔
        buffer.HeadAt start next bound signature) ∧
      (∀ start signature next, buffer.external start = .ok (signature, next) ↔
        buffer.ExternalAt start next signature) ∧
      ∀ start diagnostic, buffer.external start = .error (.rejected diagnostic) ∧
          diagnostic.cause = .expectedExternalEnd ↔
        ∃ keyword, buffer.UnendedAt start keyword ∧
          diagnostic = ⟨.expectedExternalEnd, keyword.span, none⟩ :=
  ⟨fun _ _ hb signature _ => buffer.signature_iff_headAt hb signature,
    fun _ signature _ => buffer.external_iff_externalAt signature,
    fun start diagnostic => buffer.external_unended start diagnostic⟩

/-- The tokens of `extern fn f(i32 a, u8 b) -> i32;` and of `extern fn g()` on the next line. -/
def Buffer.externals : Buffer where
  tokens := [⟨.externKeyword, "extern", ⟨1, 0, 6⟩⟩, ⟨.fnKeyword, "fn", ⟨1, 7, 9⟩⟩,
    ⟨.identifier, "f", ⟨1, 10, 11⟩⟩, ⟨.openParen, "(", ⟨1, 11, 12⟩⟩,
    ⟨.identifier, "i32", ⟨1, 12, 15⟩⟩, ⟨.identifier, "a", ⟨1, 16, 17⟩⟩, ⟨.comma, ",", ⟨1, 17, 18⟩⟩,
    ⟨.identifier, "u8", ⟨1, 19, 21⟩⟩, ⟨.identifier, "b", ⟨1, 22, 23⟩⟩,
    ⟨.closeParen, ")", ⟨1, 23, 24⟩⟩, ⟨.arrow, "->", ⟨1, 25, 27⟩⟩,
    ⟨.identifier, "i32", ⟨1, 28, 31⟩⟩, ⟨.semicolon, ";", ⟨1, 31, 32⟩⟩,
    ⟨.externKeyword, "extern", ⟨2, 0, 6⟩⟩, ⟨.fnKeyword, "fn", ⟨2, 7, 9⟩⟩,
    ⟨.identifier, "g", ⟨2, 10, 11⟩⟩, ⟨.openParen, "(", ⟨2, 11, 12⟩⟩,
    ⟨.closeParen, ")", ⟨2, 12, 13⟩⟩]

/-- A bound in front of the arrow cuts the return type off. -/
theorem Buffer.heads_recognised_externals :
    10 ≤ externals.size ∧
      externals.HeadAt 1 10 10
        ⟨"f", [⟨"i32", "a", ⟨1, 16, 17⟩⟩, ⟨"u8", "b", ⟨1, 22, 23⟩⟩], "void", ⟨1, 10, 11⟩⟩ ∧
      18 ≤ externals.size ∧
      externals.HeadAt 1 12 18
        ⟨"f", [⟨"i32", "a", ⟨1, 16, 17⟩⟩, ⟨"u8", "b", ⟨1, 22, 23⟩⟩], "i32", ⟨1, 10, 11⟩⟩ ∧
      externals.ExternalAt 0 13
        ⟨"f", [⟨"i32", "a", ⟨1, 16, 17⟩⟩, ⟨"u8", "b", ⟨1, 22, 23⟩⟩], "i32", ⟨1, 10, 11⟩⟩ ∧
      ∃ keyword, externals.UnendedAt 13 keyword := by
  have hcut : 10 ≤ externals.size := by decide
  have hwhole : 18 ≤ externals.size := by decide
  obtain ⟨hheads, hexternals, hunended⟩ := Buffer.heads_recognised externals
  obtain ⟨keyword, hkeyword, -⟩ :=
    (hunended 13 ⟨.expectedExternalEnd, ⟨2, 0, 6⟩, none⟩).mp ⟨rfl, rfl⟩
  exact ⟨hcut, (hheads 1 10 hcut _ _).mp rfl, hwhole, (hheads 1 18 hwhole _ _).mp rfl,
    (hexternals 0 _ _).mp rfl, keyword, hkeyword⟩

end FrontEnd
