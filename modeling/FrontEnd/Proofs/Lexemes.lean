import Mathlib
import FrontEnd.Token.Scan
import FrontEnd.Proofs.SourceTrees

/-! # Single tokens

A token is a number, a word or a mark, and its text alone tells which. Every text of a token is
scanned as that token, as long as nothing behind it makes it longer; which characters would is known
from the token as well. -/
namespace FrontEnd

/-- The texts that are tokens of a kind by themselves: reserved words and punctuation. -/
def fixedTexts : List (String × TokenKind) :=
  [("mut", .mutKeyword), ("fn", .fnKeyword), ("if", .ifKeyword), ("else", .elseKeyword),
    ("elif", .elifKeyword), ("extern", .externKeyword), (";", .semicolon), ("(", .openParen),
    (")", .closeParen), ("\x7b", .openCurly), ("\x7d", .closeCurly), (",", .comma),
    ("->", .arrow), ("=", .assign), ("+", .operator), ("-", .operator), ("*", .operator),
    ("/", .operator), ("|", .operator), (".", .operator), ("==", .operator), ("!=", .operator)]

/-- The kind that a text has as a token, if it is the text of one. -/
def TokenKind.ofText? (text : String) : Option TokenKind :=
  if isNumeral text then some .number
  else if isName text then some .identifier
  else fixedTexts.lookup text

/-- What can be decided of every entry of the table holds of each. -/
theorem fixedTexts_forall {P : String → TokenKind → Prop} [∀ text kind, Decidable (P text kind)]
    (h : (fixedTexts.all fun entry => decide (P entry.1 entry.2)) = true) {text : String}
    {kind : TokenKind} (hm : (text, kind) ∈ fixedTexts) : P text kind :=
  of_decide_eq_true (List.all_eq_true.mp h _ hm)

namespace Token

def isExtendedBy (token : Token) (c : Char) : Bool :=
  match token.kind with
  | .identifier | .mutKeyword | .fnKeyword | .ifKeyword | .elseKeyword | .elifKeyword
  | .externKeyword => isWordRest c
  | .number => c.isDigit
  | .operator => token.text == "-" && c == '>'
  | .assign => c == '='
  | _ => false

/-- Characters that make no token before them longer. -/
def isApart (c : Char) : Bool := !isWordRest c && c != '=' && c != '>'

/-! ## Characters -/

theorem isWordRest_of_start {c : Char} (h : isWordStart c = true) : isWordRest c = true := by
  simp only [isWordStart, Bool.or_eq_true] at h
  rcases h with h | h <;> simp [isWordRest, Char.isAlphanum, h]

theorem isWordRest_of_digit {c : Char} (h : c.isDigit = true) : isWordRest c = true := by
  simp [isWordRest, Char.isAlphanum, h]

/-- The digits lie below the letters and the underscore. -/
theorem isDigit_not_wordStart {c : Char} (h : c.isDigit = true) : isWordStart c = false := by
  have hd : c.toNat ≤ '9'.toNat := (Char.isDigit_iff_toNat.mp h).2
  have hupper : c.isUpper = false := decide_eq_false fun hu =>
    absurd (Nat.le_trans (UInt32.le_iff_toNat_le.mp hu.1) hd) (by decide)
  have hlower : c.isLower = false := Bool.and_eq_false_iff.mpr (.inl (decide_eq_false fun hl =>
    absurd (Nat.le_trans (UInt32.le_iff_toNat_le.mp hl) hd) (by decide)))
  have hunderscore : c ≠ '_' := by
    rintro rfl
    exact absurd h (by decide)
  have halpha : c.isAlpha = false := Bool.or_eq_false_iff.mpr ⟨hupper, hlower⟩
  rw [isWordStart, halpha, Bool.false_or]
  exact beq_false_of_ne hunderscore

theorem isWordRest_visible {c : Char} (h : isWordRest c = true) : Text.isBlank c = false := by
  have hrange : 48 ≤ c.toNat ∧ c.toNat ≤ 122 := by
    simp only [isWordRest, Char.isAlphanum, Char.isAlpha, Char.isUpper, Char.isLower, Char.isDigit,
      Bool.or_eq_true, Bool.and_eq_true, decide_eq_true_eq, beq_iff_eq, UInt32.le_iff_toNat_le,
      ge_iff_le] at h
    rcases h with ((h | h) | h) | rfl
    · exact ⟨Nat.le_trans (by decide) h.1, Nat.le_trans h.2 (by decide)⟩
    · exact ⟨Nat.le_trans (by decide) h.1, Nat.le_trans h.2 (by decide)⟩
    · exact ⟨Nat.le_trans (by decide) h.1, Nat.le_trans h.2 (by decide)⟩
    · decide
  simp only [Text.isBlank, Bool.or_eq_false_iff, Bool.and_eq_false_iff, decide_eq_false_iff_not,
    beq_eq_false_iff_ne]
  omega

theorem not_extended_of_apart {c : Char} (h : isApart c = true) (token : Token) :
    token.isExtendedBy c = false := by
  simp only [isApart, Bool.and_eq_true, Bool.not_eq_true', bne_iff_ne, ne_eq] at h
  obtain ⟨⟨hword, hequals⟩, hgreater⟩ := h
  have hdigit : c.isDigit = false := by
    cases hd : c.isDigit with
    | false => rfl
    | true => rw [isWordRest_of_digit hd] at hword; cases hword
  unfold isExtendedBy
  split <;> simp [hword, hdigit, hequals, hgreater]

/-- A character that begins a token neither separates nor ends anything. -/
theorem lexeme?_begins {c : Char} {rest : List Char} {found : TokenKind × Nat}
    (h : lexeme? c rest = some found) :
    isSeparator c = false ∧ c ≠ '#' ∧ c ≠ '\n' ∧ c ≠ '\r' := by
  have apart (d : Char) (hd : lexeme? d rest = none) : c ≠ d := by
    rintro rfl
    rw [hd] at h
    cases h
  have hs := apart ' ' rfl
  have ht := apart '\t' rfl
  have hr := apart '\r' rfl
  exact ⟨by simp [isSeparator, hs, ht, hr], apart '#' rfl, apart '\n' rfl, hr⟩

theorem takeWhile_stop {p : Char → Bool} {tail rest : List Char} (ht : tail.all p = true)
    (hr : ∀ c ∈ rest.head?, p c = false) : (tail ++ rest).takeWhile p = tail := by
  rw [List.takeWhile_append_of_pos (by simpa using ht)]
  cases rest with
  | nil => simp
  | cons c more => simp [hr c rfl]

end Token

/-! ## Kinds by texts -/

theorem isNumeral_digits {text : String} (h : isNumeral text = true) :
    ∀ c ∈ text.toList, c.isDigit = true := by
  unfold isNumeral at h
  split at h
  · cases h
  · rename_i first rest htext
    rw [htext]
    simpa using h

theorem isName_word {text : String} (h : isName text = true) :
    ∀ c ∈ text.toList, Token.isWordRest c = true := by
  unfold isName at h
  split at h
  · cases h
  · rename_i first rest htext
    rw [Bool.and_eq_true, Bool.and_eq_true] at h
    rw [htext, List.forall_mem_cons]
    exact ⟨Token.isWordRest_of_start h.1.1, List.all_eq_true.mp h.1.2⟩

/-- A name begins with no digit. -/
theorem isNumeral_of_name {text : String} (h : isName text = true) : isNumeral text = false := by
  unfold isName at h
  unfold isNumeral
  split at h
  · rfl
  · rename_i first rest htext
    rw [Bool.and_eq_true, Bool.and_eq_true] at h
    have hfirst : first.isDigit = false := by
      cases hd : first.isDigit with
      | false => rfl
      | true =>
        have hstart : Token.isWordStart first = true := h.1.1
        rw [Token.isDigit_not_wordStart hd] at hstart
        cases hstart
    simp [hfirst]

namespace TokenKind

theorem ofText?_numeral {text : String} (h : isNumeral text = true) :
    ofText? text = some .number := by
  rw [ofText?, if_pos h]

theorem ofText?_name {text : String} (h : isName text = true) :
    ofText? text = some .identifier := by
  rw [ofText?, isNumeral_of_name h, if_neg (by decide), if_pos h]

theorem ofText?_fixed {text : String} {kind : TokenKind} (h : (text, kind) ∈ fixedTexts) :
    ofText? text = some kind :=
  fixedTexts_forall (P := fun text kind => ofText? text = some kind) (by decide) h

theorem ofText?_cases {text : String} {kind : TokenKind} (h : ofText? text = some kind) :
    isNumeral text = true ∧ kind = .number ∨ isName text = true ∧ kind = .identifier ∨
      (text, kind) ∈ fixedTexts := by
  unfold ofText? at h
  split at h
  · cases h
    exact .inl ⟨‹_›, rfl⟩
  split at h
  · cases h
    exact .inr (.inl ⟨‹_›, rfl⟩)
  · obtain ⟨front, rest, htable, -⟩ := List.lookup_eq_some_iff.mp h
    rw [htable]
    exact .inr (.inr (List.mem_append_right _ List.mem_cons_self))

/-- No token has a blank in it. -/
theorem visible_of_ofText? {text : String} {kind : TokenKind} (h : ofText? text = some kind) :
    ∀ c ∈ text.toList, Text.isBlank c = false := by
  rcases ofText?_cases h with ⟨hnumeral, -⟩ | ⟨hname, -⟩ | hfixed
  · intro c hc
    exact Token.isWordRest_visible (Token.isWordRest_of_digit (isNumeral_digits hnumeral c hc))
  · intro c hc
    exact Token.isWordRest_visible (isName_word hname c hc)
  · have hmarks := fixedTexts_forall (P := fun text _ => text.toList.all (!Text.isBlank ·))
      (by decide) hfixed
    simpa using hmarks

theorem unbroken_of_ofText? {text : String} {kind : TokenKind} (h : ofText? text = some kind) :
    ∀ c ∈ text.toList, c ≠ '\n' ∧ c ≠ '\r' := by
  intro c hc
  have hvisible := visible_of_ofText? h c hc
  constructor <;> rintro rfl <;> exact absurd hvisible (by decide)

end TokenKind

namespace Token

/-- A word is reserved, and then its kind is in the table, or it is an identifier. -/
theorem ofWord_cases (word : String) :
    (word ∈ reservedWords ∧ TokenKind.ofText? word = some (.ofWord word) ∧
        ∀ span, isExtendedBy ⟨.ofWord word, word, span⟩ = isWordRest) ∨
      (word ∉ reservedWords ∧ TokenKind.ofWord word = .identifier) := by
  by_cases h : word ∈ reservedWords
  · left
    refine ⟨h, ?_⟩
    simp only [reservedWords, List.mem_cons, List.not_mem_nil, or_false] at h
    rcases h with rfl | rfl | rfl | rfl | rfl | rfl <;> exact ⟨by decide, fun _ => rfl⟩
  · right
    refine ⟨h, ?_⟩
    simp only [reservedWords, List.mem_cons, List.not_mem_nil, or_false, not_or] at h
    simp [TokenKind.ofWord, h]

/-! ## Scanning one token -/

/-- The text is scanned as a token of the kind before everything that does not make it longer. -/
def ScansAs (text : String) (kind : TokenKind) : Prop :=
  ∃ c more, text.toList = c :: more ∧
    ∀ after, (∀ d ∈ after.head?, isExtendedBy ⟨kind, text, default⟩ d = false) →
      lexeme? c (more ++ after) = some (kind, more.length)

theorem scansAs_word {text : String} {kind : TokenKind} {c : Char} {more : List Char}
    (ht : text.toList = c :: more) (hc : isWordStart c = true) (hmore : more.all isWordRest = true)
    (hk : TokenKind.ofWord text = kind) (hw : isExtendedBy ⟨kind, text, default⟩ = isWordRest) :
    ScansAs text kind := by
  refine ⟨c, more, ht, fun after ha => ?_⟩
  rw [hw] at ha
  have hword : String.ofList (c :: more) = text := by rw [← ht, String.ofList_toList]
  simp only [lexeme?, if_pos hc, takeWhile_stop hmore ha, hword, hk]

theorem scansAs_name {text : String} (h : isName text = true) : ScansAs text .identifier := by
  unfold isName at h
  cases ht : text.toList with
  | nil => simp [ht] at h
  | cons first rest =>
    simp only [ht, Bool.and_eq_true] at h
    obtain ⟨⟨hf, hrest⟩, hreserved⟩ := h
    rcases ofWord_cases text with ⟨hr, -, -⟩ | ⟨-, hk⟩
    · simp [hr] at hreserved
    · exact scansAs_word ht hf hrest hk rfl

theorem scansAs_numeral {text : String} (h : isNumeral text = true) : ScansAs text .number := by
  unfold isNumeral at h
  cases ht : text.toList with
  | nil => simp [ht] at h
  | cons first rest =>
    simp only [ht, Bool.and_eq_true] at h
    obtain ⟨hf, hrest⟩ := h
    refine ⟨first, rest, ht, fun after ha => ?_⟩
    have hdigits : (rest ++ after).takeWhile Char.isDigit = rest := takeWhile_stop hrest ha
    simp only [lexeme?, isDigit_not_wordStart hf, if_pos hf, hdigits]
    rfl

/-- A mark that is scanned alike before everything. -/
theorem scansAs_mark {text : String} {kind : TokenKind} (c : Char) (more : List Char)
    (ht : text.toList = c :: more)
    (hl : ∀ after, lexeme? c (more ++ after) = some (kind, more.length)) : ScansAs text kind :=
  ⟨c, more, ht, fun after _ => hl after⟩

theorem scansAs_minus : ScansAs "-" .operator := by
  refine ⟨'-', [], rfl, fun after ha => ?_⟩
  have hne : after.head? ≠ some '>' := fun h => absurd (ha '>' h) (by decide)
  exact if_neg hne

theorem scansAs_assign : ScansAs "=" .assign := by
  refine ⟨'=', [], rfl, fun after ha => ?_⟩
  have hne : after.head? ≠ some '=' := fun h => absurd (ha '=' h) (by decide)
  exact if_neg hne

theorem scansAs_fixed : ∀ entry ∈ fixedTexts, ScansAs entry.1 entry.2 := by
  simp only [fixedTexts, List.forall_mem_cons]
  exact ⟨scansAs_word rfl rfl rfl rfl rfl, scansAs_word rfl rfl rfl rfl rfl,
    scansAs_word rfl rfl rfl rfl rfl, scansAs_word rfl rfl rfl rfl rfl,
    scansAs_word rfl rfl rfl rfl rfl, scansAs_word rfl rfl rfl rfl rfl,
    scansAs_mark ';' [] rfl fun _ => rfl, scansAs_mark '(' [] rfl fun _ => rfl,
    scansAs_mark ')' [] rfl fun _ => rfl, scansAs_mark '\x7b' [] rfl fun _ => rfl,
    scansAs_mark '\x7d' [] rfl fun _ => rfl, scansAs_mark ',' [] rfl fun _ => rfl,
    scansAs_mark '-' ['>'] rfl fun _ => rfl, scansAs_assign,
    scansAs_mark '+' [] rfl fun _ => rfl, scansAs_minus,
    scansAs_mark '*' [] rfl fun _ => rfl, scansAs_mark '/' [] rfl fun _ => rfl,
    scansAs_mark '|' [] rfl fun _ => rfl, scansAs_mark '.' [] rfl fun _ => rfl,
    scansAs_mark '=' ['='] rfl fun _ => rfl, scansAs_mark '!' ['='] rfl fun _ => rfl,
    fun _ h => absurd h List.not_mem_nil⟩

/-- Every text of a token is scanned as that token. -/
theorem scansAs_of_ofText? {text : String} {kind : TokenKind}
    (h : TokenKind.ofText? text = some kind) : ScansAs text kind := by
  rcases TokenKind.ofText?_cases h with ⟨hn, hk⟩ | ⟨hn, hk⟩ | hfixed
  · exact hk ▸ scansAs_numeral hn
  · exact hk ▸ scansAs_name hn
  · exact scansAs_fixed _ hfixed

end Token
end FrontEnd
