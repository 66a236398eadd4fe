import Mathlib
import FrontEnd.Proofs.Spelling

/-! # Where tokens stand in their source

The scanner cuts a line into separators and tokens, up to the line's end, a comment or a character
that begins no token. All that comes before that point is ASCII, so a token's columns, counted in
characters while scanning, are its byte offsets. From the cut of each line it follows that the
tokens of a source are in order and apart, that each has the text between its offsets, and that
nothing but separators and comments is left out. -/
namespace FrontEnd

/-- All positions in the source fit in words of 32 bits. -/
structure Text.Fits (source : String) : Prop where
  lines : (Text.lines source.toList).length < UInt32.size - 1
  bytes : ∀ line ∈ Text.lines source.toList, (String.ofList line).utf8ByteSize < UInt32.size

namespace Token

/-! ## Single tokens -/

theorem isWordRest_utf8Size {c : Char} (h : isWordRest c = true) : c.utf8Size = 1 := by
  rw [Char.utf8Size_eq_one_iff]
  simp only [isWordRest, Char.isAlphanum, Char.isAlpha, Char.isUpper, Char.isLower, Char.isDigit,
    Bool.or_eq_true, Bool.and_eq_true, decide_eq_true_eq, beq_iff_eq] at h
  rcases h with ((h | h) | h) | rfl
  · exact UInt32.le_trans h.2 (by decide)
  · exact UInt32.le_trans h.2 (by decide)
  · exact UInt32.le_trans h.2 (by decide)
  · decide

theorem isSeparator_utf8Size {c : Char} (h : isSeparator c = true) : c.utf8Size = 1 := by
  simp only [isSeparator, Bool.or_eq_true, beq_iff_eq] at h
  rcases h with (rfl | rfl) | rfl <;> decide

/-- Punctuation is scanned as a fixed text, and of two that fit the longer one is taken. -/
theorem punctuation?_fixed {c : Char} {more after : List Char} {kind : TokenKind}
    (h : punctuation? c (more ++ after).head? = some (kind, more.length)) :
    (String.ofList (c :: more), kind) ∈ fixedTexts ∧
      ∀ span, ∀ d ∈ after.head?, isExtendedBy ⟨kind, String.ofList (c :: more), span⟩ d = false := by
  have alone {k : TokenKind} (hk : some (k, 0) = some (kind, more.length)) :
      k = kind ∧ more = [] := by simpa [eq_comm] using hk
  have paired {k : TokenKind} {d : Char} (hk : some (k, 1) = some (kind, more.length))
      (hd : (more ++ after).head? = some d) : k = kind ∧ more = [d] := by
    simp only [Option.some.injEq, Prod.mk.injEq] at hk
    obtain ⟨e, rfl⟩ := List.length_eq_one_iff.mp hk.2.symm
    exact ⟨hk.1, by simpa using hd⟩
  unfold punctuation? at h
  split at h
  case h_7 =>
    split at h
    · rename_i hd
      obtain ⟨rfl, rfl⟩ := paired h hd
      exact ⟨by decide, fun _ _ _ => rfl⟩
    · rename_i hd
      obtain ⟨rfl, rfl⟩ := alone h
      refine ⟨by decide, fun _ d ha => ?_⟩
      have hne : d ≠ '>' := by
        rintro rfl
        exact hd ha
      simp [isExtendedBy, hne]
  case h_13 =>
    split at h
    · rename_i hd
      obtain ⟨rfl, rfl⟩ := paired h hd
      exact ⟨by decide, fun _ _ _ => rfl⟩
    · rename_i hd
      obtain ⟨rfl, rfl⟩ := alone h
      refine ⟨by decide, fun _ d ha => ?_⟩
      have hne : d ≠ '=' := by
        rintro rfl
        exact hd ha
      simp [isExtendedBy, hne]
  case h_14 =>
    split at h
    · rename_i hd
      obtain ⟨rfl, rfl⟩ := paired h hd
      exact ⟨by decide, fun _ _ _ => rfl⟩
    · cases h
  case h_15 => cases h
  all_goals
    obtain ⟨rfl, rfl⟩ := alone h
    exact ⟨by decide, fun _ _ _ => rfl⟩

theorem punctuation?_not_word {c : Char} {next? : Option Char} {found : TokenKind × Nat}
    (h : punctuation? c next? = some found) : isWordRest c = false := by
  unfold punctuation? at h
  split at h
  case h_15 => cases h
  all_goals rfl

/-- The ways in which a token may be made of `c` and `more` before `after`. -/
inductive LexemeForm (c : Char) (more after : List Char) : TokenKind → Prop
  | word : isWordStart c = true → more.all isWordRest = true →
      (∀ d ∈ after.head?, isWordRest d = false) →
      LexemeForm c more after (.ofWord (String.ofList (c :: more)))
  | numeral : c.isDigit = true → more.all Char.isDigit = true →
      (∀ d ∈ after.head?, d.isDigit = false) → LexemeForm c more after .number
  | mark {kind} : punctuation? c (more ++ after).head? = some (kind, more.length) →
      LexemeForm c more after kind

/-- Characters are taken as long as they belong to the class, and no longer. -/
theorem takeWhile_split {p : Char → Bool} {more after : List Char}
    (h : ((more ++ after).takeWhile p).length = more.length) :
    more.all p = true ∧ ∀ d ∈ after.head?, p d = false := by
  have hmore : (more ++ after).takeWhile p = more := by
    have hp := List.prefix_iff_eq_take.mp (List.takeWhile_prefix (l := more ++ after) p)
    rw [hp, h, List.take_left]
  refine ⟨hmore ▸ List.all_takeWhile, fun d hd => ?_⟩
  have hafter : (more ++ after).dropWhile p = after := by
    have hsplit := List.takeWhile_append_dropWhile (p := p) (l := more ++ after)
    rw [hmore] at hsplit
    exact List.append_cancel_left hsplit
  have hn := List.head?_dropWhile_not p (more ++ after)
  rw [hafter, hd] at hn
  simpa using hn

theorem lexemeForm {c : Char} {more after : List Char} {kind : TokenKind}
    (h : lexeme? c (more ++ after) = some (kind, more.length)) : LexemeForm c more after kind := by
  unfold lexeme? at h
  split at h
  · rename_i hc
    simp only [Option.some.injEq, Prod.mk.injEq] at h
    obtain ⟨hmore, hafter⟩ := takeWhile_split h.2
    have hword : (more ++ after).takeWhile isWordRest = more := takeWhile_stop hmore hafter
    rw [hword] at h
    exact h.1 ▸ .word hc hmore hafter
  · split at h
    · rename_i hc
      simp only [Option.some.injEq, Prod.mk.injEq] at h
      obtain ⟨hmore, hafter⟩ := takeWhile_split h.2
      exact h.1 ▸ .numeral hc hmore hafter
    · exact .mark h

section
variable {c : Char} {more after : List Char} {kind : TokenKind}

/-- Every character of a token takes one byte. -/
theorem LexemeForm.utf8Size (h : LexemeForm c more after kind) :
    ∀ d ∈ c :: more, d.utf8Size = 1 := by
  intro d hd
  cases h with
  | word hc hmore _ =>
    rcases List.mem_cons.mp hd with rfl | hd
    · exact isWordRest_utf8Size (isWordRest_of_start hc)
    · exact isWordRest_utf8Size (List.all_eq_true.mp hmore d hd)
  | numeral hc hmore _ =>
    rcases List.mem_cons.mp hd with rfl | hd
    · exact isWordRest_utf8Size (isWordRest_of_digit hc)
    · exact isWordRest_utf8Size (isWordRest_of_digit (List.all_eq_true.mp hmore d hd))
  | mark hp =>
    have hsingle := fixedTexts_forall (P := fun text _ => text.toList.all (·.utf8Size == 1))
      (by decide) (punctuation?_fixed hp).1
    rw [String.toList_ofList] at hsingle
    exact beq_iff_eq.mp (List.all_eq_true.mp hsingle d hd)

/-- The text of a token fixes its kind. -/
theorem LexemeForm.kind_eq (h : LexemeForm c more after kind) :
    TokenKind.ofText? (String.ofList (c :: more)) = some kind := by
  cases h with
  | word hc hmore _ =>
    rcases ofWord_cases (String.ofList (c :: more)) with ⟨-, hk, -⟩ | ⟨hr, hk⟩
    · exact hk
    · have hname : isName (String.ofList (c :: more)) = true := by
        simp only [isWordStart] at hc
        simp only [isName, String.toList_ofList, hc, Bool.true_and, Bool.and_eq_true]
        exact ⟨hmore, by simpa using hr⟩
      rw [TokenKind.ofText?_name hname, hk]
  | numeral hc hmore _ =>
    have hn : isNumeral (String.ofList (c :: more)) = true := by simp [isNumeral, hc, hmore]
    exact TokenKind.ofText?_numeral hn
  | mark hp => exact TokenKind.ofText?_fixed (punctuation?_fixed hp).1

/-- What follows a token does not make it longer. -/
theorem LexemeForm.maximal (h : LexemeForm c more after kind) (span : Span) :
    ∀ d ∈ after.head?, isExtendedBy ⟨kind, String.ofList (c :: more), span⟩ d = false := by
  cases h with
  | word hc hmore hafter =>
    intro d hd
    rcases ofWord_cases (String.ofList (c :: more)) with ⟨-, -, he⟩ | ⟨-, hk⟩
    · rw [he span]
      exact hafter d hd
    · rw [hk]
      exact hafter d hd
  | numeral hc hmore hafter => exact hafter
  | mark hp => exact (punctuation?_fixed hp).2 span

end

/-! ## Lines -/

/-- The characters of `front`, which begin at `offset` and stand before `rest`, are separators and
the tokens. -/
inductive Cut (line : UInt32) (rest : List Char) : Nat → List Char → List Token → Prop
  | nothing (offset) : Cut line rest offset [] []
  | separator {offset c front tokens} : isSeparator c = true →
      Cut line rest (offset + 1) front tokens → Cut line rest offset (c :: front) tokens
  | token {offset c more kind front tokens} :
      lexeme? c (more ++ (front ++ rest)) = some (kind, more.length) →
      Cut line rest (offset + more.length + 1) front tokens →
      Cut line rest offset (c :: (more ++ front))
        (⟨kind, String.ofList (c :: more), .between line offset (offset + more.length + 1)⟩ ::
          tokens)

/-- How scanning ends when `rest` is left at `offset`: with the tokens, if nothing or a comment is
left, and otherwise at a character that begins no token. -/
inductive Ends (line : UInt32) (offset : Nat) (tokens : List Token) :
    List Char → Except Diagnostic (List Token) → Prop
  | line : Ends line offset tokens [] (.ok tokens)
  | comment (text) : Ends line offset tokens ('#' :: text) (.ok tokens)
  | rejected {c after} : isSeparator c = false → c ≠ '#' → lexeme? c after = none →
      Ends line offset tokens (c :: after)
        (.error ⟨.unrecognisedCharacter c, .between line offset (offset + 1), none⟩)

theorem punctuation?_length {c : Char} {rest : List Char} {kind : TokenKind} {count : Nat}
    (h : punctuation? c rest.head? = some (kind, count)) : count ≤ rest.length := by
  have single {d : Char} (hd : rest.head? = some d) : 1 ≤ rest.length := by
    cases rest with
    | nil => cases hd
    | cons e more => simp
  unfold punctuation? at h
  split at h
  case h_7 | h_13 =>
    split at h
    · rename_i hd
      cases h
      exact single hd
    · cases h
      exact Nat.zero_le _
  case h_14 =>
    split at h
    · rename_i hd
      cases h
      exact single hd
    · cases h
  case h_15 => cases h
  all_goals
    cases h
    exact Nat.zero_le _

theorem lexeme?_length {c : Char} {rest : List Char} {kind : TokenKind} {count : Nat}
    (h : lexeme? c rest = some (kind, count)) : count ≤ rest.length := by
  unfold lexeme? at h
  split at h
  · cases h
    exact (List.takeWhile_prefix _).length_le
  · split at h
    · cases h
      exact (List.takeWhile_prefix _).length_le
    · exact punctuation?_length h

theorem Ends.cons {line : UInt32} {offset : Nat} {tokens : List Token} {rest : List Char}
    {result : Except Diagnostic (List Token)} (h : Ends line offset tokens rest result)
    (token : Token) :
    Ends line offset (token :: tokens) rest (result >>= fun others => .ok (token :: others)) := by
  cases h with
  | line => exact .line
  | comment text => exact .comment text
  | rejected hs hc hl => exact .rejected hs hc hl

/-- Every line is cut into separators and tokens as far as scanning goes. -/
theorem scanLine_cut (line : UInt32) (offset : Nat) (text : List Char) :
    ∃ front rest tokens, text = front ++ rest ∧ Cut line rest offset front tokens ∧
      Ends line (offset + front.length) tokens rest (scanLine line offset text) := by
  fun_induction scanLine line offset text with
  | case1 offset => exact ⟨[], [], [], rfl, .nothing offset, .line⟩
  | case2 offset c rest hs ih =>
    obtain ⟨front, left, tokens, rfl, hc, he⟩ := ih
    refine ⟨c :: front, left, tokens, rfl, .separator hs hc, ?_⟩
    rw [List.length_cons, Nat.add_comm front.length, ← Nat.add_assoc]
    exact he
  | case3 offset rest hs => exact ⟨[], '#' :: rest, [], rfl, .nothing offset, .comment rest⟩
  | case4 offset c rest hs hc hl =>
    exact ⟨[], c :: rest, [], rfl, .nothing offset, .rejected (by simpa using hs) hc hl⟩
  | case5 offset c rest hs hc kind count hl stop ih =>
    obtain ⟨front, left, tokens, hd, hcut, he⟩ := ih
    have hcount : (rest.take count).length = count :=
      List.length_take_of_le (lexeme?_length hl)
    have hrest : rest = rest.take count ++ (front ++ left) := by
      rw [← hd, List.take_append_drop]
    have htoken : lexeme? c (rest.take count ++ (front ++ left)) =
        some (kind, (rest.take count).length) := by rw [← hrest, hl, hcount]
    have hstop : Cut line left (offset + (rest.take count).length + 1) front tokens := by
      rw [hcount]
      exact hcut
    have hnext := Cut.token htoken hstop
    rw [hcount] at hnext
    refine ⟨c :: (rest.take count ++ front), left, _, ?_, hnext, ?_⟩
    · rw [List.cons_append, List.append_assoc, ← hrest]
    · have hlast : offset + (c :: (rest.take count ++ front)).length = stop + front.length := by
        rw [List.length_cons, List.length_append, hcount]
        omega
      rw [hlast]
      exact he.cons _

/-- The token has the columns from `start` on, as many as it has characters, and does not go on with
`after`. -/
structure StandsAt (token : Token) (line : UInt32) (start : Nat) (after : List Char) : Prop where
  line_eq : token.span.line = line
  start_eq : token.span.start.toNat = start
  stop_eq : token.span.stop.toNat = start + token.text.length
  nonempty : 0 < token.text.length
  kind_eq : TokenKind.ofText? token.text = some token.kind
  maximal : ∀ c ∈ after.head?, token.isExtendedBy c = false

theorem LexemeForm.standsAt {c : Char} {more after : List Char} {kind : TokenKind}
    (h : LexemeForm c more after kind) (line : UInt32) (offset : Nat)
    (hfit : offset + more.length + 1 < UInt32.size) :
    StandsAt ⟨kind, String.ofList (c :: more), .between line offset (offset + more.length + 1)⟩
      line offset after := by
  have hlength : (String.ofList (c :: more)).length = more.length + 1 := by
    rw [String.length_ofList, List.length_cons]
  refine ⟨rfl, UInt32.toNat_ofNat_of_lt' (by omega), ?_, ?_, h.kind_eq, h.maximal _⟩
  · rw [hlength, ← Nat.add_assoc]
    exact UInt32.toNat_ofNat_of_lt' hfit
  · rw [hlength]
    exact Nat.succ_pos _

section
variable {line : UInt32} {rest front : List Char} {offset : Nat} {tokens : List Token}

/-- What is cut takes one byte for each character. -/
theorem Cut.utf8Size (h : Cut line rest offset front tokens) : ∀ c ∈ front, c.utf8Size = 1 := by
  induction h with
  | nothing offset => simp
  | separator hs _ ih => exact List.forall_mem_cons.mpr ⟨isSeparator_utf8Size hs, ih⟩
  | token hl _ ih =>
    obtain ⟨hc, hmore⟩ := List.forall_mem_cons.mp (lexemeForm hl).utf8Size
    exact List.forall_mem_cons.mpr ⟨hc, List.forall_mem_append.mpr ⟨hmore, ih⟩⟩

/-- Each token stands in what is cut, where its span says. -/
theorem Cut.standsAt (h : Cut line rest offset front tokens)
    (hfit : offset + front.length < UInt32.size) :
    ∀ token ∈ tokens, ∃ before after, front = before ++ (token.text.toList ++ after) ∧
      token.StandsAt line (offset + before.length) (after ++ rest) := by
  induction h with
  | nothing offset => simp
  | separator hs _ ih =>
    intro token ht
    obtain ⟨before, after, rfl, hat⟩ := ih (by simp at hfit ⊢; omega) token ht
    refine ⟨_ :: before, after, rfl, ?_⟩
    rw [List.length_cons, Nat.add_comm before.length, ← Nat.add_assoc]
    exact hat
  | @token offset c more kind front tokens hl _ ih =>
    rw [List.length_cons, List.length_append] at hfit
    intro token ht
    rcases List.mem_cons.mp ht with rfl | ht
    · refine ⟨[], front, by simp, ?_⟩
      exact (lexemeForm hl).standsAt line offset (by omega)
    · obtain ⟨before, after, rfl, hat⟩ := ih (by omega) token ht
      refine ⟨c :: (more ++ before), after, by simp, ?_⟩
      have hlen : offset + (c :: (more ++ before)).length =
          offset + more.length + 1 + before.length := by simp; omega
      rw [hlen]
      exact hat

/-- A token ends where a later one begins, or before. -/
theorem Cut.ordered (h : Cut line rest offset front tokens)
    (hfit : offset + front.length < UInt32.size) :
    tokens.Pairwise fun a b => a.span.stop.toNat ≤ b.span.start.toNat := by
  induction h with
  | nothing offset => exact .nil
  | separator hs _ ih => exact ih (by simp at hfit; omega)
  | @token offset c more kind front tokens hl hcut ih =>
    rw [List.length_cons, List.length_append] at hfit
    refine .cons ?_ (ih (by omega))
    intro other ho
    obtain ⟨before, after, -, hat⟩ := hcut.standsAt (by omega) other ho
    have hfirst := (lexemeForm hl).standsAt line offset (by omega)
    rw [hfirst.stop_eq, hat.start_eq, String.length_ofList, List.length_cons]
    omega

/-- Each character that is cut separates tokens or belongs to one. -/
theorem Cut.covered (h : Cut line rest offset front tokens)
    (hfit : offset + front.length < UInt32.size) {before after : List Char} {c : Char}
    (hf : front = before ++ c :: after) :
    isSeparator c = true ∨ ∃ token ∈ tokens, token.span.start.toNat ≤ offset + before.length ∧
      offset + before.length < token.span.stop.toNat := by
  induction h generalizing before with
  | nothing offset => simp at hf
  | @separator offset d front tokens hs _ ih =>
    cases before with
    | nil => cases hf; exact .inl hs
    | cons e before =>
      cases hf
      have hnext := ih (by simp at hfit ⊢; omega) rfl
      rw [List.length_cons, Nat.add_comm before.length, ← Nat.add_assoc]
      exact hnext
  | @token offset d more kind front tokens hl _ ih =>
    rw [List.length_cons, List.length_append] at hfit
    by_cases hb : before.length ≤ more.length
    · have hat := (lexemeForm hl).standsAt line offset (by omega)
      refine .inr ⟨_, List.mem_cons_self, ?_⟩
      rw [hat.start_eq, hat.stop_eq, String.length_ofList, List.length_cons]
      omega
    · -- the character lies behind the first token
      have hf : (d :: more) ++ front = before ++ c :: after := hf
      have hp : (d :: more) <+: before := by
        refine List.prefix_of_prefix_length_le ⟨front, hf⟩ ⟨c :: after, rfl⟩ ?_
        rw [List.length_cons]
        omega
      obtain ⟨between, rfl⟩ := hp
      rw [List.append_assoc] at hf
      rcases ih (by omega) (List.append_cancel_left hf) with hs | ⟨token, ht, hat⟩
      · exact .inl hs
      · refine .inr ⟨token, List.mem_cons_of_mem _ ht, ?_⟩
        rw [List.length_append, List.length_cons]
        omega

end

/-- The token is part of the line: its text stands between its offsets, in bytes, has the token's
kind and does not go on. -/
structure StandsIn (token : Token) (line : String) : Prop where
  nonempty : token.span.start.toNat < token.span.stop.toNat
  inside : token.span.stop.toNat ≤ line.utf8ByteSize
  bytes : line.toByteArray.extract token.span.start.toNat token.span.stop.toNat =
    token.text.toByteArray
  kind : TokenKind.ofText? token.text = some token.kind
  maximal : ∀ c rest, Text.dropBytes token.span.stop.toNat line.toList = some (c :: rest) →
    token.isExtendedBy c = false

/-- Columns are byte offsets where only single bytes come before. -/
theorem StandsAt.standsIn {token : Token} {line : UInt32} {before after : List Char}
    (h : token.StandsAt line before.length after)
    (hsingle : ∀ c ∈ before ++ token.text.toList, c.utf8Size = 1) :
    token.StandsIn (String.ofList (before ++ (token.text.toList ++ after))) := by
  obtain ⟨hbefore, htext⟩ := List.forall_mem_append.mp hsingle
  have hstart : (String.ofList before).utf8ByteSize = token.span.start.toNat := by
    rw [Text.byteSize_of_single hbefore, h.start_eq]
  have hsize : token.text.utf8ByteSize = token.text.length := by
    rw [← String.length_toList, ← Text.byteSize_of_single htext, String.ofList_toList]
  have hstop : (String.ofList (before ++ token.text.toList)).utf8ByteSize =
      token.span.stop.toNat := by
    rw [Text.byteSize_append, String.ofList_toList, hstart, hsize, h.stop_eq, h.start_eq]
  refine ⟨?_, ?_, ?_, h.kind_eq, ?_⟩
  · rw [h.start_eq, h.stop_eq]
    exact Nat.lt_add_of_pos_right h.nonempty
  · rw [← List.append_assoc, Text.byteSize_append, hstop]
    exact Nat.le_add_right _ _
  · have hend : token.span.stop.toNat =
        (String.ofList before).utf8ByteSize + token.text.utf8ByteSize := by
      rw [← hstop, Text.byteSize_append, String.ofList_toList]
    rw [String.ofList_append, String.ofList_append, String.ofList_toList,
      String.toByteArray_append, String.toByteArray_append, hend, ← hstart]
    have hskip := ByteArray.extract_append_size_add (a := (String.ofList before).toByteArray)
      (b := token.text.toByteArray ++ (String.ofList after).toByteArray) (i := 0)
      (j := token.text.utf8ByteSize)
    exact hskip.trans (ByteArray.extract_append_eq_left rfl)
  · intro c rest hd
    have hafter : Text.dropBytes token.span.stop.toNat
        (before ++ (token.text.toList ++ after)) = some after :=
      Text.dropBytes_eq_some.mpr ⟨before ++ token.text.toList, by rw [List.append_assoc], hstop⟩
    rw [String.toList_ofList, hafter, Option.some.injEq] at hd
    exact h.maximal c (by rw [hd]; rfl)

def Spans (token : Token) (offset : Nat) : Prop :=
  token.span.start.toNat ≤ offset ∧ offset < token.span.stop.toNat

/-- A comment begins at the byte offset of the line, and all the tokens end before it. -/
def CommentFrom (hash : Nat) (line : String) (tokens : List Token) : Prop :=
  (∃ comment, Text.dropBytes hash line.toList = some ('#' :: comment)) ∧
    ∀ token ∈ tokens, token.span.stop.toNat ≤ hash

/-- Every character of the line belongs to one of its tokens, separates tokens or belongs to a
comment behind them. -/
def AllOf (line : String) (tokens : List Token) : Prop :=
  ∀ offset c rest, Text.dropBytes offset line.toList = some (c :: rest) →
    (∃ token ∈ tokens, token.Spans offset) ∨ isSeparator c = true ∨
      ∃ hash ≤ offset, CommentFrom hash line tokens

theorem AllOf.congr {line : String} {tokens others : List Token} (h : AllOf line tokens)
    (hm : ∀ token, token ∈ others ↔ token ∈ tokens) : AllOf line others := by
  simp only [AllOf, CommentFrom, hm]
  exact h

section
variable {number : UInt32} {text : List Char} {tokens : List Token}

/-- A scanned line, cut up to its end or its comment. -/
theorem cut_of_scanLine (h : scanLine number 0 text = .ok tokens) :
    ∃ front rest, text = front ++ rest ∧ Cut number rest 0 front tokens ∧
      ∀ c ∈ rest.head?, c = '#' := by
  obtain ⟨front, rest, found, ht, hcut, he⟩ := scanLine_cut number 0 text
  rw [h] at he
  refine ⟨front, rest, ht, ?_, ?_⟩
  · cases he <;> exact hcut
  · cases he <;> simp

/-- A rejected line is cut up to the character that begins no token. -/
theorem cut_of_rejected {d : Diagnostic} (h : scanLine number 0 text = .error d) :
    ∃ front c after found, text = front ++ c :: after ∧ Cut number (c :: after) 0 front found ∧
      isSeparator c = false ∧ c ≠ '#' ∧ lexeme? c after = none ∧
      d = ⟨.unrecognisedCharacter c, .between number front.length (front.length + 1), none⟩ := by
  obtain ⟨front, rest, found, ht, hcut, he⟩ := scanLine_cut number 0 text
  rw [h, Nat.zero_add] at he
  cases he with
  | @rejected c after hs hc hl => exact ⟨front, c, after, found, ht, hcut, hs, hc, hl, rfl⟩

theorem Cut.length_lt {rest front : List Char} (hcut : Cut number rest 0 front tokens)
    (hfit : (String.ofList (front ++ rest)).utf8ByteSize < UInt32.size) :
    0 + front.length < UInt32.size := by
  rw [Text.byteSize_append, Text.byteSize_of_single hcut.utf8Size] at hfit
  omega

/-- Each token of a line stands in it, behind characters of one byte each. -/
theorem scanLine_standsAt (hfit : (String.ofList text).utf8ByteSize < UInt32.size)
    (h : scanLine number 0 text = .ok tokens) :
    ∀ token ∈ tokens, ∃ before after, text = before ++ (token.text.toList ++ after) ∧
      token.StandsAt number before.length after ∧
      ∀ c ∈ before ++ token.text.toList, c.utf8Size = 1 := by
  obtain ⟨front, rest, rfl, hcut, -⟩ := cut_of_scanLine h
  intro token ht
  obtain ⟨before, after, hf, hat⟩ := hcut.standsAt (hcut.length_lt hfit) token ht
  rw [Nat.zero_add] at hat
  refine ⟨before, after ++ rest, by rw [hf, List.append_assoc, List.append_assoc], hat, ?_⟩
  intro c hc
  refine hcut.utf8Size c ?_
  rw [hf, ← List.append_assoc]
  exact List.mem_append_left _ hc

theorem scanLine_standsIn (hfit : (String.ofList text).utf8ByteSize < UInt32.size)
    (h : scanLine number 0 text = .ok tokens) :
    ∀ token ∈ tokens, token.span.line = number ∧ token.StandsIn (String.ofList text) := by
  intro token ht
  obtain ⟨before, after, rfl, hat, hsingle⟩ := scanLine_standsAt hfit h token ht
  exact ⟨hat.line_eq, hat.standsIn hsingle⟩

theorem scanLine_ordered (hfit : (String.ofList text).utf8ByteSize < UInt32.size)
    (h : scanLine number 0 text = .ok tokens) :
    tokens.Pairwise fun a b => a.span.stop.toNat ≤ b.span.start.toNat := by
  obtain ⟨front, rest, rfl, hcut, -⟩ := cut_of_scanLine h
  exact hcut.ordered (hcut.length_lt hfit)

theorem scanLine_allOf (hfit : (String.ofList text).utf8ByteSize < UInt32.size)
    (h : scanLine number 0 text = .ok tokens) : AllOf (String.ofList text) tokens := by
  obtain ⟨front, rest, rfl, hcut, hend⟩ := cut_of_scanLine h
  have hlen := hcut.length_lt hfit
  intro offset c more hd
  rw [String.toList_ofList] at hd
  obtain ⟨before, hsplit, hsize⟩ := Text.dropBytes_eq_some.mp hd
  by_cases hin : before.length < front.length
  · -- the character is among those that are cut
    have hp : before <+: front :=
      List.prefix_of_prefix_length_le ⟨c :: more, hsplit.symm⟩ ⟨rest, rfl⟩ (by omega)
    obtain ⟨after, hf⟩ := hp
    have hsingle : ∀ d ∈ before, d.utf8Size = 1 := by
      intro d hm
      exact hcut.utf8Size d (hf ▸ List.mem_append_left after hm)
    rw [Text.byteSize_of_single hsingle] at hsize
    rw [← hf, List.append_assoc] at hsplit
    cases after with
    | nil => simp [← hf] at hin
    | cons d after =>
      cases List.append_cancel_left hsplit
      rcases hcut.covered hlen hf.symm with hs | ⟨token, ht, hspans⟩
      · exact .inr (.inl hs)
      · rw [Nat.zero_add, hsize] at hspans
        exact .inl ⟨token, ht, hspans⟩
  · -- something is left behind the cut, so it is a comment
    have hp : front <+: before :=
      List.prefix_of_prefix_length_le ⟨rest, rfl⟩ ⟨c :: more, hsplit.symm⟩ (by omega)
    obtain ⟨skipped, rfl⟩ := hp
    rw [List.append_assoc] at hsplit
    have hrest := List.append_cancel_left hsplit
    have hfront := Text.byteSize_of_single hcut.utf8Size
    rw [Text.byteSize_append, hfront] at hsize
    cases rest with
    | nil => simp at hrest
    | cons first comment =>
      obtain rfl := hend first rfl
      refine .inr (.inr ⟨front.length, by omega, ⟨comment, ?_⟩, ?_⟩)
      · rw [String.toList_ofList]
        exact Text.dropBytes_eq_some.mpr ⟨front, rfl, hfront⟩
      · intro token ht
        obtain ⟨start, after, hf, hat⟩ := hcut.standsAt hlen token ht
        rw [hat.stop_eq, hf, List.length_append, List.length_append, String.length_toList]
        omega

end

/-! ## Sources -/

/-- The first token stands before the second: on an earlier line, or on the same line and ended
where the second begins. -/
def Before (first second : Token) : Prop :=
  first.span.line < second.span.line ∨
    first.span.line = second.span.line ∧ first.span.start < second.span.start ∧
      first.span.stop ≤ second.span.start

def onLine (number : Nat) (tokens : List Token) : List Token :=
  tokens.filter fun token => token.span.line.toNat = number

section
variable {number : Nat} {line : List Char} {lines : List (List Char)} {tokens : List Token}

theorem scanLines_cons_ok (h : scanLines number (line :: lines) = .ok tokens) :
    ∃ found others, scanLine (UInt32.ofNat number) 0 line = .ok found ∧
      scanLines (number + 1) lines = .ok others ∧ tokens = found ++ others := by
  rw [scanLines] at h
  cases hf : scanLine (UInt32.ofNat number) 0 line with
  | error diagnostic => rw [hf] at h; cases h
  | ok found =>
    cases ho : scanLines (number + 1) lines with
    | error diagnostic => rw [hf, ho] at h; cases h
    | ok others =>
      rw [hf, ho] at h
      cases h
      exact ⟨found, others, rfl, rfl, rfl⟩

theorem scanLines_cons_error {diagnostic : Diagnostic}
    (h : scanLines number (line :: lines) = .error diagnostic) :
    scanLine (UInt32.ofNat number) 0 line = .error diagnostic ∨
      scanLines (number + 1) lines = .error diagnostic := by
  rw [scanLines] at h
  cases hf : scanLine (UInt32.ofNat number) 0 line with
  | error first => rw [hf] at h; cases h; exact .inl rfl
  | ok found =>
    cases ho : scanLines (number + 1) lines with
    | error later => rw [hf, ho] at h; cases h; exact .inr rfl
    | ok others => rw [hf, ho] at h; cases h

/-- All lines are scanned. -/
theorem scanLines_line (h : scanLines number lines = .ok tokens) {index : Nat}
    (hl : lines[index]? = some line) :
    ∃ found, scanLine (UInt32.ofNat (number + index)) 0 line = .ok found := by
  induction lines generalizing number tokens index with
  | nil => simp at hl
  | cons first more ih =>
    obtain ⟨found, others, hf, ho, -⟩ := scanLines_cons_ok h
    cases index with
    | zero => cases hl; exact ⟨found, hf⟩
    | succ index =>
      obtain ⟨later, hlater⟩ := ih ho hl
      rw [Nat.add_right_comm, Nat.add_assoc] at hlater
      exact ⟨later, hlater⟩

/-- The tokens of lines are those of each line. -/
theorem mem_scanLines (h : scanLines number lines = .ok tokens) (token : Token) :
    token ∈ tokens ↔ ∃ index line found, lines[index]? = some line ∧
      scanLine (UInt32.ofNat (number + index)) 0 line = .ok found ∧ token ∈ found := by
  induction lines generalizing number tokens with
  | nil => cases h; simp
  | cons first more ih =>
    obtain ⟨found, others, hf, ho, rfl⟩ := scanLines_cons_ok h
    rw [List.mem_append, ih ho]
    constructor
    · rintro (ht | ⟨index, line, later, hl, hs, ht⟩)
      · exact ⟨0, first, found, rfl, hf, ht⟩
      · exact ⟨index + 1, line, later, hl, by rw [← hs, Nat.add_right_comm, Nat.add_assoc], ht⟩
    · rintro ⟨index, line, later, hl, hs, ht⟩
      cases index with
      | zero =>
        cases hl
        rw [Nat.add_zero, hf] at hs
        cases hs
        exact .inl ht
      | succ index =>
        exact .inr ⟨index, line, later, hl, by rw [← hs, Nat.add_right_comm, Nat.add_assoc], ht⟩

/-- A rejected character stands on one of the lines. -/
theorem scanLines_error {diagnostic : Diagnostic}
    (h : scanLines number lines = .error diagnostic) :
    ∃ index line, lines[index]? = some line ∧
      scanLine (UInt32.ofNat (number + index)) 0 line = .error diagnostic := by
  induction lines generalizing number with
  | nil => cases h
  | cons first more ih =>
    rcases scanLines_cons_error h with hf | hl
    · exact ⟨0, first, rfl, hf⟩
    · obtain ⟨index, line, hm, hs⟩ := ih hl
      rw [Nat.add_right_comm, Nat.add_assoc] at hs
      exact ⟨index + 1, line, hm, hs⟩

section
variable (hcount : number + lines.length < UInt32.size)
  (hbytes : ∀ line ∈ lines, (String.ofList line).utf8ByteSize < UInt32.size)
include hcount hbytes

/-- The line that a token's span names, by its index. -/
theorem scanLines_index {index : Nat} (hl : lines[index]? = some line)
    (hs : scanLine (UInt32.ofNat (number + index)) 0 line = .ok tokens) :
    ∀ token ∈ tokens, token.span.line.toNat = number + index ∧
      token.StandsIn (String.ofList line) := by
  intro token ht
  obtain ⟨hi, rfl⟩ := List.getElem?_eq_some_iff.mp hl
  obtain ⟨hline, hin⟩ := scanLine_standsIn (hbytes _ (List.getElem_mem hi)) hs token ht
  refine ⟨?_, hin⟩
  rw [hline]
  exact UInt32.toNat_ofNat_of_lt' (by omega)

/-- Each token stands on the line that its span names. -/
theorem scanLines_standsIn (h : scanLines number lines = .ok tokens) :
    ∀ token ∈ tokens, ∃ index line, lines[index]? = some line ∧
      token.span.line.toNat = number + index ∧ token.StandsIn (String.ofList line) := by
  intro token ht
  obtain ⟨index, line, found, hl, hs, hm⟩ := (mem_scanLines h token).mp ht
  exact ⟨index, line, hl, scanLines_index hcount hbytes hl hs token hm⟩

/-- The tokens of lines follow one another. -/
theorem scanLines_ordered (h : scanLines number lines = .ok tokens) : tokens.Pairwise Before := by
  induction lines generalizing number tokens with
  | nil => cases h; exact .nil
  | cons first more ih =>
    obtain ⟨found, others, hf, ho, rfl⟩ := scanLines_cons_ok h
    obtain ⟨hfirst, hmore⟩ := List.forall_mem_cons.mp hbytes
    rw [List.length_cons] at hcount
    have hstands := scanLine_standsIn hfirst hf
    refine List.pairwise_append.mpr ⟨?_, ih (by omega) hmore ho, ?_⟩
    · refine (scanLine_ordered hfirst hf).imp_of_mem fun {a b} ha hb hab => .inr ⟨?_, ?_, ?_⟩
      · rw [(hstands a ha).1, (hstands b hb).1]
      · exact UInt32.lt_iff_toNat_lt.mpr (Nat.lt_of_lt_of_le (hstands a ha).2.nonempty hab)
      · exact UInt32.le_iff_toNat_le.mpr hab
    · intro a ha b hb
      obtain ⟨index, line, -, hline, -⟩ := scanLines_standsIn (by omega) hmore ho b hb
      left
      rw [UInt32.lt_iff_toNat_lt, (hstands a ha).1, hline, UInt32.toNat_ofNat_of_lt' (by omega)]
      omega

/-- Nothing of a line is left out. -/
theorem scanLines_allOf (h : scanLines number lines = .ok tokens) {index : Nat}
    (hl : lines[index]? = some line) :
    AllOf (String.ofList line) (onLine (number + index) tokens) := by
  obtain ⟨found, hf⟩ := scanLines_line h hl
  have hline : line ∈ lines := List.mem_of_getElem? hl
  refine (scanLine_allOf (hbytes line hline) hf).congr fun token => ?_
  simp only [onLine, List.mem_filter, decide_eq_true_eq]
  constructor
  · rintro ⟨ht, hnumber⟩
    obtain ⟨other, text, later, hl', hs, hm⟩ := (mem_scanLines h token).mp ht
    have hother := (scanLines_index hcount hbytes hl' hs token hm).1
    obtain rfl : other = index := by omega
    rw [hl] at hl'
    cases hl'
    rw [hf] at hs
    cases hs
    exact hm
  · intro ht
    exact ⟨(mem_scanLines h token).mpr ⟨index, line, found, hl, hf, ht⟩,
      (scanLines_index hcount hbytes hl hf token ht).1⟩

end
end

end Token

/-- The tokens of a source are in order and apart. Each stands on the line that its span names,
between the bytes that it names, has the kind of its text and cannot be made longer. What a line
holds besides its tokens is separators and a comment behind them. -/
theorem Token.scan_layout {source : String} {tokens : List Token}
    (hfit : Text.Fits source) (h : Token.scan source = .ok tokens) :
    tokens.Pairwise Token.Before ∧
      (∀ token ∈ tokens, 1 ≤ token.span.line.toNat ∧
        token.span.line.toNat ≤ (Text.lines source.toList).length ∧
        ∃ line, Text.line? source token.span.line.toNat = some line ∧ token.StandsIn line) ∧
      ∀ number line, Text.line? source number = some line →
        Token.AllOf line (Token.onLine number tokens) := by
  have hcount : 1 + (Text.lines source.toList).length < UInt32.size := by
    have := hfit.lines
    omega
  refine ⟨Token.scanLines_ordered hcount hfit.bytes h, ?_, ?_⟩
  · intro token ht
    obtain ⟨index, line, hl, hnumber, hin⟩ := Token.scanLines_standsIn hcount hfit.bytes h token ht
    obtain ⟨hi, -⟩ := List.getElem?_eq_some_iff.mp hl
    refine ⟨by omega, by omega, String.ofList line, ?_, hin⟩
    exact Text.line?_eq_some.mpr ⟨index, line, by omega, hl, rfl⟩
  · intro number line hl
    obtain ⟨index, text, rfl, ht, rfl⟩ := Text.line?_eq_some.mp hl
    rw [Nat.add_comm]
    exact Token.scanLines_allOf hcount hfit.bytes h ht

/-- Tokens that touch, comments outside ASCII, both kinds of line break and an empty line. -/
def Token.crowdedSource : String := "mut x1->y==2\t# π\r\n\n!=-7a # é"

def Token.crowdedTokens : List Token :=
  [⟨.mutKeyword, "mut", ⟨1, 0, 3⟩⟩, ⟨.identifier, "x1", ⟨1, 4, 6⟩⟩, ⟨.arrow, "->", ⟨1, 6, 8⟩⟩,
    ⟨.identifier, "y", ⟨1, 8, 9⟩⟩, ⟨.operator, "==", ⟨1, 9, 11⟩⟩, ⟨.number, "2", ⟨1, 11, 12⟩⟩,
    ⟨.operator, "!=", ⟨3, 0, 2⟩⟩, ⟨.operator, "-", ⟨3, 2, 3⟩⟩, ⟨.number, "7", ⟨3, 3, 4⟩⟩,
    ⟨.identifier, "a", ⟨3, 4, 5⟩⟩]

theorem Token.scan_layout_crowded :
    Text.Fits Token.crowdedSource ∧ Token.scan Token.crowdedSource = .ok Token.crowdedTokens ∧
      Token.crowdedTokens.Pairwise Token.Before ∧
      (∀ token ∈ Token.crowdedTokens, 1 ≤ token.span.line.toNat ∧
        token.span.line.toNat ≤ (Text.lines Token.crowdedSource.toList).length ∧
        ∃ line, Text.line? Token.crowdedSource token.span.line.toNat = some line ∧
          token.StandsIn line) ∧
      ∀ number line, Text.line? Token.crowdedSource number = some line →
        Token.AllOf line (Token.onLine number Token.crowdedTokens) := by
  have hlines : Text.lines Token.crowdedSource.toList =
      ["mut x1->y==2\t# π".toList, [], "!=-7a # é".toList] := by decide
  have hfit : Text.Fits Token.crowdedSource := by
    constructor
    · rw [hlines]
      decide
    · rw [hlines]
      simp only [List.forall_mem_cons]
      exact ⟨by decide, by decide, by decide, by simp⟩
  have hscan : Token.scan Token.crowdedSource = .ok Token.crowdedTokens := by
    unfold Token.crowdedTokens Token.crowdedSource
    cbv
  exact ⟨hfit, hscan, Token.scan_layout hfit hscan⟩

end FrontEnd
