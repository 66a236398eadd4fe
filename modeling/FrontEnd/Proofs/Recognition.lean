import Mathlib
import FrontEnd.Proofs.CursorScan

/-! # Which characters a source may have

Outside comments a character is recognised by itself, but for `!` and `>`, which need a neighbour.
That scanning accepts a source exactly if all its characters are recognised, and else reports the
first one that is not, follows from how lines are cut. -/
namespace FrontEnd
namespace Token

/-! ## Characters in their place -/

/-- Characters that may stand anywhere: separators, letters, digits and most punctuation. -/
def isFree (c : Char) : Bool :=
  c.isAlpha || c.isDigit || [' ', '\t', '\r', '_', ';', '(', ')', '\x7b', '\x7d', ',', '-', '+',
    '*', '/', '|', '.', '='].contains c

/-- The character may stand between these parts of a line: anywhere, or as `!` before `=`, or as `>`
behind `-`. -/
def Admitted (before : List Char) (c : Char) (after : List Char) : Prop :=
  isFree c = true ∨ c = '!' ∧ after.head? = some '=' ∨ c = '>' ∧ before.getLast? = some '-'

/-- The character stands outside comments where it may not stand. -/
def Offends (before : List Char) (c : Char) (after : List Char) : Prop :=
  '#' ∉ before ∧ c ≠ '#' ∧ ¬ Admitted before c after

/-- Every character before the line's first `#` may stand where it does. -/
def Recognised (line : List Char) : Prop :=
  ∀ before c after, line = before ++ c :: after → '#' ∉ before → c ≠ '#' → Admitted before c after

/-- The character between these parts of the line with this index offends, and none before it does,
on this line or an earlier one. -/
structure FirstOffence (lines : List (List Char)) (index : Nat) (before : List Char) (c : Char)
    (after : List Char) : Prop where
  line : lines[index]? = some (before ++ c :: after)
  offends : Offends before c after
  none_before : ∀ front d rest, before ++ c :: after = front ++ d :: rest →
    front.length < before.length → ¬ Offends front d rest
  lines_before : ∀ earlier < index, ∀ other, lines[earlier]? = some other → Recognised other

theorem isFree_of_wordRest {c : Char} (h : isWordRest c = true) : isFree c = true := by
  simp only [isWordRest, Char.isAlphanum, Bool.or_eq_true, beq_iff_eq] at h
  rcases h with (h | h) | rfl
  · simp [isFree, h]
  · simp [isFree, h]
  · decide

theorem isFree_of_separator {c : Char} (h : isSeparator c = true) : isFree c = true := by
  simp only [isSeparator, Bool.or_eq_true, beq_iff_eq] at h
  rcases h with (rfl | rfl) | rfl <;> decide

theorem ne_hash_of_free {c : Char} (h : isFree c = true) : c ≠ '#' := by
  rintro rfl
  exact absurd h (by decide)

/-- A free character begins a token, or separates tokens. -/
theorem lexeme?_of_free {c : Char} (h : isFree c = true) (hs : isSeparator c = false)
    (rest : List Char) : lexeme? c rest ≠ none := by
  unfold lexeme?
  split
  · simp
  split
  · simp
  · rename_i hword hdigit
    simp only [isWordStart, Bool.or_eq_true, beq_iff_eq, not_or] at hword
    unfold punctuation?
    split
    case h_7 | h_13 => split <;> simp
    case h_14 => exact absurd h (by decide)
    case h_15 => simp_all [isFree, isSeparator]
    all_goals simp

/-! ## Tokens and lines -/

/-- A token is made of word characters, or it is punctuation. -/
theorem LexemeForm.word_or_mark {c : Char} {more after : List Char} {kind : TokenKind}
    (h : LexemeForm c more after kind) :
    (∀ d ∈ c :: more, isWordRest d = true) ∨
      punctuation? c (more ++ after).head? = some (kind, more.length) := by
  cases h with
  | word hc hmore _ =>
    exact .inl (List.forall_mem_cons.mpr ⟨isWordRest_of_start hc, by simpa using hmore⟩)
  | numeral hc hmore _ =>
    refine .inl (List.forall_mem_cons.mpr ⟨isWordRest_of_digit hc, fun d hd => ?_⟩)
    exact isWordRest_of_digit (List.all_eq_true.mp hmore d hd)
  | mark hp => exact .inr hp

section
variable {line : UInt32} {rest front : List Char} {offset : Nat} {tokens : List Token}

/-- The characters of a token may stand where they do. -/
theorem LexemeForm.admitted {c : Char} {more after : List Char} {kind : TokenKind}
    (h : LexemeForm c more after kind) (prev : List Char) {before : List Char} {d : Char}
    {left : List Char} (hsplit : c :: more = before ++ d :: left) :
    d ≠ '#' ∧ Admitted (prev ++ before) d (left ++ after) := by
  have hmem : d ∈ c :: more := by rw [hsplit]; simp
  have free (hd : isFree d = true) : d ≠ '#' ∧ Admitted (prev ++ before) d (left ++ after) :=
    ⟨ne_hash_of_free hd, .inl hd⟩
  rcases h.word_or_mark with hword | hp
  · exact free (isFree_of_wordRest (hword d hmem))
  · -- two punctuation marks have a character that is not free
    have hmark := fixedTexts_forall
      (P := fun text _ => text.toList.all isFree = true ∨ text = "->" ∨ text = "!=")
      (by decide) (punctuation?_fixed hp).1
    rcases hmark with hfree | harrow | hunequal
    · rw [String.toList_ofList] at hfree
      exact free (List.all_eq_true.mp hfree d hmem)
    · have htext : c :: more = ['-', '>'] := by
        rw [← String.toList_ofList (l := c :: more), harrow]
        rfl
      rw [htext] at hsplit
      rcases before with _ | ⟨e, _ | ⟨e', before⟩⟩
      · cases hsplit
        exact free (by decide)
      · cases hsplit
        exact ⟨by decide, .inr (.inr ⟨rfl, by simp⟩)⟩
      · simp at hsplit
    · have htext : c :: more = ['!', '='] := by
        rw [← String.toList_ofList (l := c :: more), hunequal]
        rfl
      rw [htext] at hsplit
      rcases before with _ | ⟨e, _ | ⟨e', before⟩⟩
      · cases hsplit
        exact ⟨by decide, .inr (.inl ⟨rfl, rfl⟩)⟩
      · cases hsplit
        exact free (by decide)
      · simp at hsplit

/-- What is cut into separators and tokens may stand where it does. -/
theorem Cut.admitted (h : Cut line rest offset front tokens) (prev : List Char)
    {before : List Char} {c : Char} {after : List Char} (hsplit : front = before ++ c :: after) :
    c ≠ '#' ∧ Admitted (prev ++ before) c (after ++ rest) := by
  induction h generalizing prev before with
  | nothing offset => simp at hsplit
  | @separator offset d front tokens hs _ ih =>
    cases before with
    | nil =>
      cases hsplit
      exact ⟨ne_hash_of_free (isFree_of_separator hs), .inl (isFree_of_separator hs)⟩
    | cons e before =>
      cases hsplit
      have hnext := ih (prev ++ [d]) rfl
      rwa [List.append_assoc] at hnext
  | @token offset d more kind front tokens hl _ ih =>
    have hsplit : (d :: more) ++ front = before ++ c :: after := hsplit
    rcases List.append_eq_append_iff.mp hsplit with ⟨between, rfl, hf⟩ | ⟨left, hm, ha⟩
    · have hnext := ih (prev ++ d :: more) hf
      rwa [List.append_assoc] at hnext
    · cases left with
      | nil =>
        rw [List.append_nil] at hm
        have hfront : front = [] ++ c :: after := ha.symm
        have hnext := ih (prev ++ d :: more) hfront
        rwa [List.append_nil, hm] at hnext
      | cons e left =>
        cases ha
        have hhere := (lexemeForm hl).admitted prev hm
        rwa [← List.append_assoc] at hhere

/-- A `-` at the end of what is cut is a token, which `>` would have made longer. -/
theorem Cut.not_arrow (h : Cut line rest offset front tokens)
    (hlast : front.getLast? = some '-') : rest.head? ≠ some '>' := by
  induction h with
  | nothing offset => simp at hlast
  | @separator offset c front tokens hs _ ih =>
    cases front with
    | nil =>
      cases hlast
      exact absurd hs (by decide)
    | cons d front => exact ih (by simpa using hlast)
  | @token offset c more kind front tokens hl _ ih =>
    cases front with
    | cons d front => exact ih (by simpa [List.getLast?_cons, List.getLast?_append] using hlast)
    | nil =>
      rw [List.append_nil] at hlast
      have hmem : '-' ∈ c :: more := List.mem_of_getLast? hlast
      intro hr
      rcases (lexemeForm hl).word_or_mark with hword | hp
      · exact absurd (hword _ hmem) (by decide)
      · obtain ⟨hfixed, hmaximal⟩ := punctuation?_fixed hp
        have honly := fixedTexts_forall (P := fun text kind =>
          text.toList.getLast? = some '-' → text = "-" ∧ kind = .operator) (by decide) hfixed
        obtain ⟨htext, rfl⟩ := honly (by rwa [String.toList_ofList])
        have hextended := hmaximal default '>' (by simpa using hr)
        rw [htext] at hextended
        exact absurd hextended (by decide)

end

/-- An accepted line has only characters that may stand where they do. -/
theorem scanLine_recognised {number : UInt32} {text : List Char} {tokens : List Token}
    (h : scanLine number 0 text = .ok tokens) : Recognised text := by
  obtain ⟨front, rest, rfl, hcut, hend⟩ := cut_of_scanLine h
  intro before c after hsplit hbefore hc
  rcases List.append_eq_append_iff.mp hsplit with ⟨between, rfl, hr⟩ | ⟨left, rfl, ha⟩
  · -- the character stands behind the cut, so a comment began before it
    cases between with
    | nil => exact absurd (hend c (by rw [hr]; rfl)) hc
    | cons hash between =>
      obtain rfl := hend hash (by rw [hr]; rfl)
      exact absurd (List.mem_append_right front List.mem_cons_self) hbefore
  · cases left with
    | nil => exact absurd (hend c (by rw [← List.nil_append rest, ← ha]; rfl)) hc
    | cons d left =>
      cases ha
      exact (hcut.admitted [] rfl).2

/-- A rejected line is rejected at the first of its characters that may not stand where it does. All
before it takes one byte for each character. -/
theorem scanLine_offence {number : UInt32} {text : List Char} {d : Diagnostic}
    (h : scanLine number 0 text = .error d) :
    ∃ before c after, text = before ++ c :: after ∧ Offends before c after ∧
      (∀ front e rest, text = front ++ e :: rest → front.length < before.length →
        ¬ Offends front e rest) ∧
      (∀ e ∈ before, e.utf8Size = 1) ∧
      d = ⟨.unrecognisedCharacter c, .between number before.length (before.length + 1), none⟩ := by
  obtain ⟨front, c, after, found, rfl, hcut, hs, hc, hl, rfl⟩ := cut_of_rejected h
  refine ⟨front, c, after, rfl, ⟨?_, hc, ?_⟩, ?_, hcut.utf8Size, rfl⟩
  · intro hmem
    obtain ⟨before, left, hf⟩ := List.append_of_mem hmem
    exact (hcut.admitted [] hf).1 rfl
  · rintro (hfree | ⟨rfl, ha⟩ | ⟨rfl, hb⟩)
    · exact lexeme?_of_free hfree hs after hl
    · simp [lexeme?, punctuation?, isWordStart, ha] at hl
    · exact hcut.not_arrow hb rfl
  · intro before e left hsplit hlt hoffends
    obtain ⟨between, hf, hr⟩ | ⟨between, hf, hr⟩ := List.append_eq_append_iff.mp hsplit
    · rw [hf, List.length_append] at hlt
      omega
    · cases between with
      | nil => simp [hf] at hlt
      | cons first between =>
        cases hr
        exact hoffends.2.2 (hcut.admitted [] hf).2

section
variable {number : Nat} {lines : List (List Char)}

/-- Scanning stops at the first line that is rejected. -/
theorem scanLines_first {d : Diagnostic} (h : scanLines number lines = .error d) :
    ∃ index line, lines[index]? = some line ∧
      scanLine (UInt32.ofNat (number + index)) 0 line = .error d ∧
      ∀ earlier < index, ∀ other, lines[earlier]? = some other → Recognised other := by
  induction lines generalizing number with
  | nil => cases h
  | cons first more ih =>
    cases hf : scanLine (UInt32.ofNat number) 0 first with
    | error rejected =>
      rw [scanLines, hf] at h
      cases h
      exact ⟨0, first, rfl, hf, fun earlier he => absurd he (Nat.not_lt_zero _)⟩
    | ok found =>
      have hmore : scanLines (number + 1) more = .error d := by
        rw [scanLines, hf] at h
        cases ho : scanLines (number + 1) more with
        | error later => rw [ho] at h; cases h; rfl
        | ok others => rw [ho] at h; cases h
      obtain ⟨index, line, hl, hs, hearlier⟩ := ih hmore
      rw [Nat.add_right_comm, Nat.add_assoc] at hs
      refine ⟨index + 1, line, hl, hs, fun earlier he other ho => ?_⟩
      cases earlier with
      | zero =>
        cases ho
        exact scanLine_recognised hf
      | succ earlier => exact hearlier earlier (Nat.lt_of_succ_lt_succ he) other ho

/-- Lines are accepted exactly if all their characters may stand where they do. -/
theorem scanLines_accepts_iff :
    (∃ tokens, scanLines number lines = .ok tokens) ↔ ∀ line ∈ lines, Recognised line := by
  constructor
  · rintro ⟨tokens, h⟩ line hm
    obtain ⟨index, hi, rfl⟩ := List.mem_iff_getElem.mp hm
    obtain ⟨found, hf⟩ := scanLines_line h (List.getElem?_eq_getElem hi)
    exact scanLine_recognised hf
  · intro hall
    cases h : scanLines number lines with
    | ok tokens => exact ⟨tokens, rfl⟩
    | error d =>
      obtain ⟨index, line, hl, hs, -⟩ := scanLines_first h
      obtain ⟨before, c, after, rfl, ⟨hb, hc, hno⟩, -⟩ := scanLine_offence hs
      exact absurd (hall _ (List.mem_of_getElem? hl) before c after rfl hb hc) hno

end
end Token

/-- Scanning with a cursor never slices past a line or inside a character, and gives what scanning
gives. A source is accepted exactly if every character before the first `#` of its line may stand
where it does. Otherwise the first character that may not is reported, with its line and its byte
offset. -/
theorem Token.scan_recognises {source : String} (hfit : Text.Fits source) :
    Cursor.scanSource source = some (Token.scan source) ∧
      ((∃ tokens, Token.scan source = .ok tokens) ↔
        ∀ line ∈ Text.lines source.toList, Token.Recognised line) ∧
      ∀ d, Token.scan source = .error d → ∃ index before c after,
        Token.FirstOffence (Text.lines source.toList) index before c after ∧
          d.cause = .unrecognisedCharacter c ∧ d.span.line.toNat = index + 1 ∧
          d.span.start.toNat = (String.ofList before).utf8ByteSize ∧
          d.span.stop.toNat = (String.ofList before).utf8ByteSize + 1 ∧ d.function = none := by
  refine ⟨Cursor.scanLines_eq 1 _, Token.scanLines_accepts_iff, fun d h => ?_⟩
  obtain ⟨index, line, hl, hs, hlines⟩ := Token.scanLines_first h
  obtain ⟨before, c, after, rfl, hoffends, hnone, hsingle, rfl⟩ := Token.scanLine_offence hs
  have hsize := Text.byteSize_of_single hsingle
  have hcount : index + 1 < UInt32.size := by
    obtain ⟨hi, -⟩ := List.getElem?_eq_some_iff.mp hl
    have := hfit.lines
    omega
  have hbytes : before.length + 1 < UInt32.size := by
    have hline := hfit.bytes _ (List.mem_of_getElem? hl)
    have := c.utf8Size_pos
    rw [Text.byteSize_append, Text.byteSize_cons, hsize] at hline
    omega
  refine ⟨index, before, c, after, ⟨hl, hoffends, hnone, hlines⟩, rfl, ?_, ?_, ?_, rfl⟩
  · rw [← Nat.add_comm 1 index] at hcount ⊢
    exact UInt32.toNat_ofNat_of_lt' hcount
  · rw [hsize]
    exact UInt32.toNat_ofNat_of_lt' (Nat.lt_of_succ_lt hbytes)
  · rw [hsize]
    exact UInt32.toNat_ofNat_of_lt' hbytes

/-- The two-character operators in runs, a comment outside ASCII, and a `>` behind `=`. -/
def Token.runsSource : String := "x->y # !π\r\n!==--->\n==>="

theorem Token.scan_recognises_runs :
    Text.Fits Token.runsSource ∧
      Token.scan Token.runsSource = .error ⟨.unrecognisedCharacter '>', ⟨3, 2, 3⟩, none⟩ ∧
      Cursor.scanSource Token.runsSource = some (Token.scan Token.runsSource) ∧
      ((∃ tokens, Token.scan Token.runsSource = .ok tokens) ↔
        ∀ line ∈ Text.lines Token.runsSource.toList, Token.Recognised line) ∧
      ∀ d, Token.scan Token.runsSource = .error d → ∃ index before c after,
        Token.FirstOffence (Text.lines Token.runsSource.toList) index before c after ∧
          d.cause = .unrecognisedCharacter c ∧ d.span.line.toNat = index + 1 ∧
          d.span.start.toNat = (String.ofList before).utf8ByteSize ∧
          d.span.stop.toNat = (String.ofList before).utf8ByteSize + 1 ∧ d.function = none := by
  have hlines : Text.lines Token.runsSource.toList =
      ["x->y # !π".toList, "!==--->".toList, "==>=".toList] := by decide
  have hfit : Text.Fits Token.runsSource := by
    constructor
    · rw [hlines]
      decide
    · rw [hlines]
      simp only [List.forall_mem_cons]
      exact ⟨by decide, by decide, by decide, by simp⟩
  have hscan : Token.scan Token.runsSource =
      .error ⟨.unrecognisedCharacter '>', ⟨3, 2, 3⟩, none⟩ := by
    unfold Token.runsSource
    cbv
  exact ⟨hfit, hscan, Token.scan_recognises hfit⟩

end FrontEnd
