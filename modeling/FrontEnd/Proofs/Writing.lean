import Mathlib
import FrontEnd.Proofs.Excerpts

/-! # Tokens written out

A sequence of tokens may be written with any layout: blanks, line breaks and comments. A token that
stands directly before another one must not be made longer by it. Scanning is local, so it is
followed from the end of the text to its front: what is left of a line may begin at any column, and
the lines below it may have any numbers. -/
namespace FrontEnd

/-! ## What is written -/

/-- The lexeme can be written: its text is the text of a token of its kind. -/
def Lexeme.WellFormed (lexeme : Lexeme) : Prop :=
  TokenKind.ofText? lexeme.text = some lexeme.kind

def TokenKind.isWord : TokenKind → Bool
  | identifier | mutKeyword | fnKeyword | ifKeyword | elseKeyword | elifKeyword | externKeyword =>
    true
  | _ => false

/-- The first lexeme cannot be written directly before the second: a word before a word or a number,
a number before a number, `=` before `=` or `==`. -/
def Lexeme.NeedsGap (first second : Lexeme) : Prop :=
  first.kind.isWord = true ∧ (second.kind.isWord = true ∨ second.kind = .number) ∨
    first.kind = .number ∧ second.kind = .number ∨
    first.kind = .assign ∧ (second.text = "=" ∨ second.text = "==")

instance (first second : Lexeme) : Decidable (first.NeedsGap second) :=
  inferInstanceAs (Decidable (_ ∨ _ ∨ _))

inductive Gap : List Char → Prop
  | nothing : Gap []
  | blank {c rest} : c ∈ [' ', '\t', '\r', '\n'] → Gap rest → Gap (c :: rest)
  | comment {text rest} : '\n' ∉ text → Gap rest → Gap ('#' :: (text ++ '\n' :: rest))

/-- A lexeme and the gap behind it. -/
structure Piece where
  lexeme : Lexeme
  gap : String
  deriving DecidableEq, Repr

def Piece.written (pieces : List Piece) : String :=
  String.join (pieces.map fun piece => piece.lexeme.text ++ piece.gap)

/-- All pieces can be written one after the other: lexemes and gaps are well formed, and no gap is
empty where one is needed. -/
structure Piece.Writable (pieces : List Piece) : Prop where
  lexemes : ∀ piece ∈ pieces, piece.lexeme.WellFormed
  gaps : ∀ piece ∈ pieces, Gap piece.gap.toList
  apart : pieces.IsChain fun first second => first.lexeme.NeedsGap second.lexeme → first.gap ≠ ""

theorem Piece.written_cons (piece : Piece) (more : List Piece) :
    (Piece.written (piece :: more)).toList =
      piece.lexeme.text.toList ++ (piece.gap.toList ++ (Piece.written more).toList) := by
  simp [Piece.written, String.toList_join]

theorem Piece.Writable.tail {piece : Piece} {more : List Piece}
    (h : Piece.Writable (piece :: more)) : Piece.Writable more :=
  ⟨fun other ho => h.lexemes other (List.mem_cons_of_mem piece ho),
    fun other ho => h.gaps other (List.mem_cons_of_mem piece ho), h.apart.tail⟩

/-! ## Lines of a text from its front -/

namespace Text

def firstLine (text : List Char) : List Char := (lines text).headD []

/-- The line that begins a text begins with its first character, unless it is empty. -/
theorem firstLine_head {text : List Char} {c : Char} (h : (firstLine text).head? = some c) :
    text.head? = some c := by
  induction text with
  | nil => simp [firstLine, lines] at h
  | cons d rest ih =>
    rw [firstLine, lines] at h
    split at h
    · simp at h
    split at h
    · rename_i hd hr
      -- a carriage return before a line feed belongs to the line break
      have hbreak := ih h
      rw [hr.2] at hbreak
      cases hbreak
      obtain ⟨more, rfl⟩ : ∃ more, rest = '\n' :: more := List.head?_eq_some_iff.mp hr.2
      simp [lines] at h
    · split at h <;> simpa using h

/-- Text without line breaks stands in front of the first line. -/
theorem lines_front {front : List Char} (hne : front ≠ [])
    (h : ∀ c ∈ front, c ≠ '\n' ∧ c ≠ '\r') (rest : List Char) :
    lines (front ++ rest) = (front ++ firstLine rest) :: (lines rest).tail := by
  induction front with
  | nil => exact absurd rfl hne
  | cons c more ih =>
    obtain ⟨⟨hn, hr⟩, hmore⟩ := List.forall_mem_cons.mp h
    rw [List.cons_append, lines, if_neg hn, if_neg fun hc => hr hc.1]
    by_cases hm : more = []
    · subst hm
      cases hl : lines rest <;> simp [hl, firstLine]
    · rw [ih hm hmore]
      rfl

/-- A comment and its line break take the rest of a line. -/
theorem lines_comment {text : List Char} (h : '\n' ∉ text) (rest : List Char) :
    ∃ line, lines (text ++ '\n' :: rest) = line :: lines rest := by
  induction text with
  | nil => exact ⟨[], by simp [lines]⟩
  | cons c more ih =>
    obtain ⟨hc, hmore⟩ := List.ne_and_not_mem_of_not_mem_cons h
    obtain ⟨line, hl⟩ := ih hmore
    rw [List.cons_append, lines, if_neg hc.symm]
    split
    · exact ⟨line, hl⟩
    · exact ⟨c :: line, by rw [hl]⟩

end Text

namespace Token

/-! ## What stands right behind a token -/

theorem isWord_ofWord (word : String) : (TokenKind.ofWord word).isWord = true := by
  unfold TokenKind.ofWord
  repeat' split
  all_goals rfl

section
variable {c : Char} {more after : List Char} {kind : TokenKind}

theorem LexemeForm.kind_of_wordRest (h : LexemeForm c more after kind) (hc : isWordRest c = true) :
    kind.isWord = true ∨ kind = .number := by
  cases h with
  | word _ _ _ => exact .inl (isWord_ofWord _)
  | numeral _ _ _ => exact .inr rfl
  | mark hp =>
    rw [punctuation?_not_word hp] at hc
    cases hc

theorem LexemeForm.kind_of_digit (h : LexemeForm c more after kind) (hc : c.isDigit = true) :
    kind = .number := by
  cases h with
  | word hw _ _ =>
    rw [isDigit_not_wordStart hc] at hw
    cases hw
  | numeral _ _ _ => rfl
  | mark hp =>
    have hrest := isWordRest_of_digit hc
    rw [punctuation?_not_word hp] at hrest
    cases hrest

theorem LexemeForm.fixed (h : LexemeForm c more after kind) (hc : isWordRest c = false) :
    (String.ofList (c :: more), kind) ∈ fixedTexts := by
  cases h with
  | word hw _ _ =>
    rw [isWordRest_of_start hw] at hc
    cases hc
  | numeral hd _ _ =>
    rw [isWordRest_of_digit hd] at hc
    cases hc
  | mark hp => exact (punctuation?_fixed hp).1

end

/-- A lexeme that would make the one before it longer needs a gap in front. -/
theorem needsGap_of_extended {first second : Lexeme} {c : Char} {more : List Char}
    (ht : second.text.toList = c :: more) (hform : LexemeForm c more [] second.kind)
    (he : isExtendedBy ⟨first.kind, first.text, default⟩ c = true) : first.NeedsGap second := by
  have htext : String.ofList (c :: more) = second.text := by rw [← ht, String.ofList_toList]
  unfold isExtendedBy at he
  split at he
  case h_8 => exact .inr (.inl ⟨‹_›, hform.kind_of_digit he⟩)
  case h_9 =>
    -- no lexeme begins with the character that makes an arrow of a minus
    simp only [Bool.and_eq_true, beq_iff_eq] at he
    obtain ⟨-, rfl⟩ := he
    have hentry := hform.fixed (by decide)
    have hhead := fixedTexts_forall (P := fun text _ => text.toList.head? ≠ some '>') (by decide)
      hentry
    simp at hhead
  case h_10 =>
    obtain rfl : c = '=' := by simpa using he
    have hentry := hform.fixed (by decide)
    rw [htext] at hentry
    have hequals := fixedTexts_forall
      (P := fun text _ => text.toList.head? = some '=' → text = "=" ∨ text = "==") (by decide)
      hentry
    exact .inr (.inr ⟨‹_›, hequals (by rw [ht]; rfl)⟩)
  case h_11 => cases he
  all_goals
    rename_i hk
    change first.kind = _ at hk
    exact .inl ⟨by rw [hk]; rfl, hform.kind_of_wordRest he⟩

/-- What begins a gap makes no token longer. -/
theorem isExtendedBy_gap {gap : List Char} (h : Gap gap) {c : Char} (hc : gap.head? = some c)
    (token : Token) : token.isExtendedBy c = false := by
  have hc : c ∈ [' ', '\t', '\r', '\n', '#'] := by
    cases h with
    | nothing => cases hc
    | blank hb _ =>
      cases hc
      exact List.mem_append_left ['#'] hb
    | comment _ _ =>
      cases hc
      simp
  have hapart : isApart c = true := by
    simp only [List.mem_cons, List.not_mem_nil, or_false] at hc
    rcases hc with rfl | rfl | rfl | rfl | rfl <;> decide
  exact not_extended_of_apart hapart token

/-! ## Scanning from any place -/

/-- The tokens of the rest of a line, which begins at `offset`, and of the lines below it, which are
numbered from `number` on. -/
def scanFrom (line : UInt32) (offset number : Nat) :
    List (List Char) → Except Diagnostic (List Token)
  | [] => .ok []
  | first :: below => do
    let tokens ← scanLine line offset first
    let others ← scanLines number below
    .ok (tokens ++ others)

theorem scanLines_eq_scanFrom (number : Nat) (lines : List (List Char)) :
    scanLines number lines = scanFrom (UInt32.ofNat number) 0 (number + 1) lines := by
  cases lines <;> rfl

section
variable {line : UInt32} {offset number : Nat} {first : List Char} {below : List (List Char)}

theorem scanFrom_firstLine (text : List Char) :
    scanFrom line offset number (Text.firstLine text :: (Text.lines text).tail) =
      scanFrom line offset number (Text.lines text) := by
  unfold Text.firstLine
  cases Text.lines text with
  | nil =>
    simp only [scanFrom, List.headD_nil, List.tail_nil, scanLine]
    rfl
  | cons first below => rfl

theorem scanFrom_separator {c : Char} (hs : isSeparator c = true) :
    scanFrom line offset number ((c :: first) :: below) =
      scanFrom line (offset + 1) number (first :: below) := by
  simp only [scanFrom]
  rw [scanLine, if_pos hs]

theorem scanFrom_comment (text : List Char) :
    scanFrom line offset number (('#' :: text) :: below) = scanLines number below := by
  simp only [scanFrom]
  rw [scanLine, if_neg (by decide), if_pos rfl]
  cases scanLines number below <;> rfl

theorem scanFrom_token {c : Char} {more : List Char} {kind : TokenKind}
    (hl : lexeme? c (more ++ first) = some (kind, more.length)) :
    scanFrom line offset number ((c :: (more ++ first)) :: below) =
      (scanFrom line (offset + more.length + 1) number (first :: below)).map
        (⟨kind, String.ofList (c :: more),
          .between line offset (offset + more.length + 1)⟩ :: ·) := by
  obtain ⟨hs, hc, -⟩ := lexeme?_begins hl
  simp only [scanFrom]
  rw [scanLine, hs, if_neg (by decide), if_neg hc, hl]
  simp only [List.drop_left, List.take_left]
  cases scanLine line (offset + more.length + 1) first with
  | error d => rfl
  | ok tokens => cases scanLines number below <;> rfl

end

/-- Wherever the text begins, it is scanned as the lexemes. -/
def ScannedAs (text : List Char) (lexemes : List Lexeme) : Prop :=
  ∀ line offset number, ∃ tokens, scanFrom line offset number (Text.lines text) = .ok tokens ∧
    tokens.map Token.lexeme = lexemes

section
variable {text : List Char} {lexemes : List Lexeme}

theorem ScannedAs.separator (h : ScannedAs text lexemes) {c : Char} (hs : isSeparator c = true) :
    ScannedAs (c :: text) lexemes := by
  intro line offset number
  by_cases hbreak : c = '\r' ∧ text.head? = some '\n'
  · obtain ⟨rfl, hn⟩ := hbreak
    rw [Text.lines, if_neg (by decide), if_pos ⟨rfl, hn⟩]
    exact h line offset number
  · have hc : c ≠ '\n' := by
      rintro rfl
      cases hs
    have hlines :
        Text.lines (c :: text) = (c :: Text.firstLine text) :: (Text.lines text).tail := by
      rw [Text.lines, if_neg hc, if_neg hbreak, Text.firstLine]
      cases Text.lines text <;> rfl
    rw [hlines, scanFrom_separator hs, scanFrom_firstLine]
    exact h line (offset + 1) number

theorem ScannedAs.lineBreak (h : ScannedAs text lexemes) : ScannedAs ('\n' :: text) lexemes := by
  intro line offset number
  obtain ⟨tokens, hscan, hlexemes⟩ := h (UInt32.ofNat number) 0 (number + 1)
  refine ⟨tokens, ?_, hlexemes⟩
  rw [← scanLines_eq_scanFrom] at hscan
  rw [Text.lines, if_pos rfl]
  simp only [scanFrom, scanLine, hscan]
  rfl

theorem ScannedAs.comment (h : ScannedAs text lexemes) {remark : List Char}
    (hr : '\n' ∉ remark) : ScannedAs ('#' :: (remark ++ '\n' :: text)) lexemes := by
  intro line offset number
  obtain ⟨tokens, hscan, hlexemes⟩ := h (UInt32.ofNat number) 0 (number + 1)
  refine ⟨tokens, ?_, hlexemes⟩
  rw [← scanLines_eq_scanFrom] at hscan
  obtain ⟨left, hl⟩ := Text.lines_comment hr text
  rw [Text.lines, if_neg (by decide), if_neg (by simp), hl]
  exact (scanFrom_comment left).trans hscan

theorem ScannedAs.gap (h : ScannedAs text lexemes) {gap : List Char} (hg : Gap gap) :
    ScannedAs (gap ++ text) lexemes := by
  induction hg with
  | nothing => exact h
  | @blank c rest hc _ ih =>
    simp only [List.mem_cons, List.not_mem_nil, or_false] at hc
    rcases hc with rfl | rfl | rfl | rfl
    · exact ih.separator rfl
    · exact ih.separator rfl
    · exact ih.separator rfl
    · exact ih.lineBreak
  | comment hr _ ih =>
    rw [List.cons_append, List.append_assoc]
    exact ih.comment hr

/-- A lexeme that the text behind it does not make longer is scanned as itself. -/
theorem ScannedAs.lexeme (h : ScannedAs text lexemes) {lexeme : Lexeme} (hw : lexeme.WellFormed)
    (hafter : ∀ c ∈ text.head?, isExtendedBy ⟨lexeme.kind, lexeme.text, default⟩ c = false) :
    ScannedAs (lexeme.text.toList ++ text) (lexeme :: lexemes) := by
  obtain ⟨c, more, ht, hl⟩ := scansAs_of_ofText? hw
  have htext : String.ofList (c :: more) = lexeme.text := by rw [← ht, String.ofList_toList]
  have hunbroken : ∀ d ∈ c :: more, d ≠ '\n' ∧ d ≠ '\r' :=
    ht ▸ TokenKind.unbroken_of_ofText? hw
  have hcut := hl (Text.firstLine text) fun d hd => hafter d (Text.firstLine_head hd)
  intro line offset number
  obtain ⟨tokens, hscan, hlexemes⟩ := h line (offset + more.length + 1) number
  rw [ht, Text.lines_front (List.cons_ne_nil c more) hunbroken, List.cons_append,
    scanFrom_token hcut, scanFrom_firstLine, hscan]
  refine ⟨_, rfl, ?_⟩
  rw [List.map_cons, hlexemes, Token.lexeme, htext]

end

/-- In front of pieces, nothing makes a lexeme longer that needs no gap. -/
theorem not_extended_written {lexeme : Lexeme} {pieces : List Piece} (h : Piece.Writable pieces)
    (hapart : ∀ piece ∈ pieces.head?, ¬ lexeme.NeedsGap piece.lexeme) :
    ∀ c ∈ (Piece.written pieces).toList.head?,
      isExtendedBy ⟨lexeme.kind, lexeme.text, default⟩ c = false := by
  intro c hc
  cases pieces with
  | nil => cases hc
  | cons piece more =>
    obtain ⟨d, rest, ht, hl⟩ := scansAs_of_ofText? (h.lexemes piece List.mem_cons_self)
    obtain rfl : d = c := by simpa [Piece.written_cons, ht] using hc
    by_contra he
    have hform : LexemeForm d rest [] piece.lexeme.kind := lexemeForm (hl [] (by simp))
    exact hapart piece rfl (needsGap_of_extended ht hform (by simpa using he))

theorem scannedAs_written {pieces : List Piece} (h : Piece.Writable pieces) :
    ScannedAs (Piece.written pieces).toList (pieces.map Piece.lexeme) := by
  induction pieces with
  | nil => exact fun line offset number => ⟨[], rfl, rfl⟩
  | cons piece more ih =>
    have hmore := h.tail
    rw [Piece.written_cons, List.map_cons]
    refine ((ih hmore).gap (h.gaps piece List.mem_cons_self)).lexeme
      (h.lexemes piece List.mem_cons_self) ?_
    intro c hc
    by_cases hgap : piece.gap.toList = []
    · rw [hgap, List.nil_append] at hc
      refine not_extended_written hmore (fun next hn hneeds => ?_) c hc
      cases more with
      | nil => cases hn
      | cons second others =>
        cases hn
        exact (List.isChain_cons_cons.mp h.apart).1 hneeds (String.toList_eq_nil_iff.mp hgap)
    · rw [List.head?_append_of_ne_nil _ hgap] at hc
      exact isExtendedBy_gap (h.gaps piece List.mem_cons_self) hc _

end Token

/-- Lexemes that are written with any gaps, none left out where one is needed, are scanned as
themselves. -/
theorem Token.scan_written {lead : String} {pieces : List Piece} (hlead : Gap lead.toList)
    (h : Piece.Writable pieces) :
    ∃ tokens, Token.scan (lead ++ Piece.written pieces) = .ok tokens ∧
      tokens.map Token.lexeme = pieces.map Piece.lexeme := by
  have hscanned := (Token.scannedAs_written h).gap hlead
  obtain ⟨tokens, hscan, hlexemes⟩ := hscanned (UInt32.ofNat 1) 0 2
  refine ⟨tokens, ?_, hlexemes⟩
  rw [Token.scan, String.toList_append, Token.scanLines_eq_scanFrom]
  exact hscan

/-- Tokens that touch wherever they may. -/
def Piece.crowded : List Piece :=
  [⟨⟨.number, "12"⟩, ""⟩, ⟨⟨.identifier, "ab"⟩, ""⟩, ⟨⟨.operator, "-"⟩, ""⟩, ⟨⟨.arrow, "->"⟩, ""⟩,
    ⟨⟨.operator, "!="⟩, ""⟩, ⟨⟨.assign, "="⟩, "\r\n"⟩, ⟨⟨.operator, "=="⟩, ""⟩,
    ⟨⟨.assign, "="⟩, ""⟩, ⟨⟨.ifKeyword, "if"⟩, "# \"é\" #\n"⟩, ⟨⟨.number, "07"⟩, "\r"⟩]

theorem Token.scan_written_crowded :
    Gap "\t\n".toList ∧ Piece.Writable Piece.crowded ∧
      "\t\n" ++ Piece.written Piece.crowded =
        "\t\n12ab-->!==\r\n===if# \"é\" #\n07\r" ∧
      ∃ tokens, Token.scan ("\t\n" ++ Piece.written Piece.crowded) = .ok tokens ∧
        tokens.map Token.lexeme = Piece.crowded.map Piece.lexeme := by
  have hlead : Gap "\t\n".toList := .blank (by decide) (.blank (by decide) .nothing)
  have hbreak : Gap "\r\n".toList := .blank (by decide) (.blank (by decide) .nothing)
  have hreturn : Gap "\r".toList := .blank (by decide) .nothing
  have hcomment : Gap "# \"é\" #\n".toList :=
    show Gap ('#' :: ([' ', '"', 'é', '"', ' ', '#'] ++ '\n' :: [])) from
      .comment (by decide) .nothing
  have hnothing : Gap "".toList := .nothing
  have hwritable : Piece.Writable Piece.crowded := by
    refine ⟨?_, ?_, ?_⟩
    · unfold Lexeme.WellFormed
      decide
    · simp only [Piece.crowded, List.forall_mem_cons, List.not_mem_nil, false_imp_iff,
        implies_true, and_true]
      exact ⟨hnothing, hnothing, hnothing, hnothing, hnothing, hbreak, hnothing, hnothing, hcomment,
        hreturn⟩
    · decide
  exact ⟨hlead, hwritable, by decide, Token.scan_written hlead hwritable⟩

end FrontEnd
