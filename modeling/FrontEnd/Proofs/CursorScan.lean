import Mathlib
import FrontEnd.Token.Cursor
import FrontEnd.Proofs.ScanLayout

/-! # Scanning with a cursor

A line may also be scanned by a cursor that goes along its bytes. Before each token it slices the
line anew, and the first row of a table that finds something there says how far to move: by what was
found, or for punctuation by the text that stands in the table. Nothing keeps the cursor inside the
line or on the first byte of a character but the rows themselves. All that is taken before a comment
is ASCII, and the texts of the table are those that are looked for, so no slice ever fails. -/
namespace FrontEnd

/-- The text up to byte `count`, in UTF-8. There is none if the count lies past the end or inside a
character. -/
def Text.takeBytes (count : Nat) (text : List Char) : Option (List Char) :=
  (Text.dropBytes count text).map fun rest => text.take (text.length - rest.length)

theorem Text.takeBytes_front (front rest : List Char) :
    Text.takeBytes (String.ofList front).utf8ByteSize (front ++ rest) = some front := by
  rw [Text.takeBytes, Text.dropBytes_eq_some.mpr ⟨front, rfl, rfl⟩]
  simp

namespace Cursor
open Token

/-! ## The table -/

/-- A row of punctuation: what it looks for, and the token that it makes. The cursor moves on by the
bytes of the token's text, whatever was found. -/
structure Mark where
  pattern : String
  kind : TokenKind
  text : String

/-- The rows of punctuation in the order in which they are tried, the longer of two first. -/
def marks : List Mark :=
  [⟨";", .semicolon, ";"⟩, ⟨"(", .openParen, "("⟩, ⟨")", .closeParen, ")"⟩,
    ⟨"\x7b", .openCurly, "\x7b"⟩, ⟨"\x7d", .closeCurly, "\x7d"⟩, ⟨",", .comma, ","⟩,
    ⟨"->", .arrow, "->"⟩, ⟨"-", .operator, "-"⟩, ⟨"+", .operator, "+"⟩, ⟨"*", .operator, "*"⟩,
    ⟨"/", .operator, "/"⟩, ⟨"|", .operator, "|"⟩, ⟨".", .operator, "."⟩,
    ⟨"==", .operator, "=="⟩, ⟨"=", .assign, "="⟩, ⟨"!=", .operator, "!="⟩]

inductive Row where
  | separators
  | comment
  | word
  | numeral
  | punctuation (mark : Mark)

def rows : List Row := [.separators, .comment, .word, .numeral] ++ marks.map .punctuation

def Mark.fits (mark : Mark) (text : List Char) : Bool := mark.pattern.toList.isPrefixOf text

def Row.fits : Row → List Char → Bool
  | separators, text => text.head?.any isSeparator
  | comment, text => text.head? == some '#'
  | word, text => text.head?.any isWordStart
  | numeral, text => text.head?.any Char.isDigit
  | punctuation mark, text => mark.fits text

/-- A token with the text that is sliced off in front. -/
def sliced? (kind : String → TokenKind) (text : List Char) (count : Nat) :
    Option (Option Lexeme × Nat) :=
  (Text.takeBytes count text).map fun piece =>
    (some ⟨kind (String.ofList piece), String.ofList piece⟩, count)

/-- What a row that fits makes of the text: a token, or none, and how many bytes the cursor moves
on. There is no result if a slice lies past the end or inside a character. -/
def Row.taken? : Row → List Char → Option (Option Lexeme × Nat)
  | separators, text => some (none, (String.ofList (text.takeWhile isSeparator)).utf8ByteSize)
  | comment, text => some (none, (String.ofList text).utf8ByteSize)
  | word, text => sliced? .ofWord text (String.ofList (text.takeWhile isWordRest)).utf8ByteSize
  | numeral, text =>
    sliced? (fun _ => .number) text (String.ofList (text.takeWhile Char.isDigit)).utf8ByteSize
  | punctuation mark, _ => some (some ⟨mark.kind, mark.text⟩, mark.text.utf8ByteSize)

def push (cursor : Cursor) (count : Nat) :
    Option Lexeme → Except Diagnostic (List Token) → Except Diagnostic (List Token)
  | none, others => others
  | some made, others => others.map (⟨made.kind, made.text, cursor.spanOf count⟩ :: ·)

/-- Scans the line from the cursor on. Each round slices the line at the cursor's byte and lets the
first row that fits move the cursor on. There is no result if a slice lies past the end or inside a
character, or if the rounds do not suffice. -/
def scan : (rounds : Nat) → Cursor → Option (Except Diagnostic (List Token))
  | 0, _ => none
  | rounds + 1, cursor =>
    if cursor.atEnd then some (.ok [])
    else
      cursor.remainder?.bind fun text =>
        match rows.find? (·.fits text.toList) with
        | none =>
          some (.error ⟨.unrecognisedCharacter (text.toList.headD default), cursor.spanOf 1, none⟩)
        | some row =>
          (row.taken? text.toList).bind fun (made?, count) =>
            (scan rounds (cursor.advance count)).map (cursor.push count made?)

/-- Scans lines from their first bytes on, up to the first one that is rejected, each in at most one
round more than it has characters. -/
def scanLines (number : Nat) : List (List Char) → Option (Except Diagnostic (List Token))
  | [] => some (.ok [])
  | line :: more =>
    (scan (line.length + 1) ⟨String.ofList line, UInt32.ofNat number, 0⟩).bind fun
      | .error d => some (.error d)
      | .ok tokens => (scanLines (number + 1) more).map (·.map (tokens ++ ·))

def scanSource (source : String) : Option (Except Diagnostic (List Token)) :=
  scanLines 1 (Text.lines source.toList)

/-! ## What the table finds -/

theorem find_row (c : Char) (rest : List Char) :
    rows.find? (·.fits (c :: rest)) =
      if isSeparator c then some .separators
      else if c = '#' then some .comment
      else if isWordStart c then some .word
      else if c.isDigit then some .numeral
      else (marks.find? (·.fits (c :: rest))).map .punctuation := by
  rw [rows, List.find?_append, List.find?_map]
  simp only [List.find?_cons, List.find?_nil, Row.fits, List.head?_cons, Option.any_some]
  by_cases hc : c = '#'
  · subst hc
    rfl
  · have hhash : (some c == some '#') = false := by simpa using hc
    rw [hhash, if_neg hc]
    cases isSeparator c <;> cases isWordStart c <;> cases c.isDigit <;> rfl

/-- What a row of punctuation makes is what it looks for. -/
theorem marks_text {mark : Mark} (h : mark ∈ marks) :
    mark.text = mark.pattern ∧ 0 < mark.pattern.length := by
  have hall : (marks.all fun mark => mark.text == mark.pattern && 0 < mark.pattern.length) = true :=
    by decide
  simpa using List.all_eq_true.mp hall mark h

/-- A row that looks for two characters, in front of the first of them. -/
theorem Mark.fits_pair (mark : Mark) (c d : Char) (h : mark.pattern.toList = [c, d])
    (rest : List Char) : mark.fits (c :: rest) = decide (rest.head? = some d) := by
  rw [Mark.fits, h]
  cases rest with
  | nil => simp [List.isPrefixOf]
  | cons e rest =>
    simp only [List.isPrefixOf, beq_self_eq_true, Bool.true_and, Bool.and_true, List.head?_cons,
      Option.some.injEq, beq_eq_decide]
    exact decide_eq_decide.mpr eq_comm

/-- The table finds what the scanner finds by cases. -/
theorem punctuation?_eq_find (c : Char) (rest : List Char) :
    punctuation? c rest.head? =
      (marks.find? (·.fits (c :: rest))).map fun mark => (mark.kind, mark.pattern.length - 1) := by
  unfold punctuation?
  split
  case h_7 =>
    simp only [marks, List.find?_cons, Mark.fits_pair ⟨"->", .arrow, "->"⟩ '-' '>' rfl]
    by_cases h : rest.head? = some '>' <;> simp only [h] <;> rfl
  case h_13 =>
    simp only [marks, List.find?_cons, Mark.fits_pair ⟨"==", .operator, "=="⟩ '=' '=' rfl]
    by_cases h : rest.head? = some '=' <;> simp only [h] <;> rfl
  case h_14 =>
    simp only [marks, List.find?_cons, Mark.fits_pair ⟨"!=", .operator, "!="⟩ '!' '=' rfl]
    by_cases h : rest.head? = some '=' <;> simp only [h] <;> rfl
  case h_15 =>
    simp_all [marks, Mark.fits, eq_comm (b := c)]
  all_goals rfl

theorem find_mark {c : Char} {more after : List Char} {kind : TokenKind}
    (hp : punctuation? c (more ++ after).head? = some (kind, more.length)) :
    ∃ mark, marks.find? (·.fits (c :: (more ++ after))) = some mark ∧ mark.kind = kind ∧
      mark.text = String.ofList (c :: more) := by
  rw [punctuation?_eq_find] at hp
  obtain ⟨mark, hfind, hmark⟩ := Option.map_eq_some_iff.mp hp
  obtain ⟨hkind, hcount⟩ := Prod.mk.inj hmark
  obtain ⟨htext, hpos⟩ := marks_text (List.mem_of_find?_eq_some hfind)
  have hfits := List.find?_some hfind
  have hprefix : mark.pattern.toList <+: (c :: more) ++ after :=
    List.isPrefixOf_iff_prefix.mp hfits
  have hlength : mark.pattern.toList.length = (c :: more).length := by
    rw [String.length_toList, List.length_cons]
    omega
  refine ⟨mark, hfind, hkind, ?_⟩
  rw [htext, ← String.ofList_toList (s := mark.pattern), List.prefix_iff_eq_take.mp hprefix,
    hlength, List.take_left]

section
variable {c : Char} {more after : List Char} {kind : TokenKind}

/-- The first row that fits in front of a token makes that token and moves on by its bytes. -/
theorem row_lexeme (hl : lexeme? c (more ++ after) = some (kind, more.length)) :
    ∃ row, rows.find? (·.fits (c :: (more ++ after))) = some row ∧
      row.taken? (c :: (more ++ after)) = some
        (some ⟨kind, String.ofList (c :: more)⟩, (String.ofList (c :: more)).utf8ByteSize) := by
  obtain ⟨hs, hc, -⟩ := lexeme?_begins hl
  have hslice (name : String → TokenKind) :
      sliced? name (c :: (more ++ after)) (String.ofList (c :: more)).utf8ByteSize =
        some (some ⟨name (String.ofList (c :: more)), String.ofList (c :: more)⟩,
          (String.ofList (c :: more)).utf8ByteSize) := by
    rw [sliced?, ← List.cons_append, Text.takeBytes_front]
    rfl
  rw [find_row, hs, if_neg (by decide), if_neg hc]
  cases lexemeForm hl with
  | word hw hmore hafter =>
    have hword : (c :: (more ++ after)).takeWhile isWordRest = c :: more := by
      rw [List.takeWhile_cons_of_pos (isWordRest_of_start hw), takeWhile_stop hmore hafter]
    refine ⟨.word, if_pos hw, ?_⟩
    rw [Row.taken?, hword, hslice]
  | numeral hd hmore hafter =>
    have hdigits : (c :: (more ++ after)).takeWhile Char.isDigit = c :: more := by
      rw [List.takeWhile_cons_of_pos hd, takeWhile_stop hmore hafter]
    rw [isDigit_not_wordStart hd, if_neg (by decide), if_pos hd]
    refine ⟨.numeral, rfl, ?_⟩
    rw [Row.taken?, hdigits, hslice]
  | mark hp =>
    obtain ⟨mark, hfind, rfl, htext⟩ := find_mark hp
    have hother := punctuation?_not_word hp
    have hstart : ¬ isWordStart c = true := fun hw =>
      absurd (isWordRest_of_start hw) (by simp [hother])
    have hdigit : ¬ c.isDigit = true := fun hd =>
      absurd (isWordRest_of_digit hd) (by simp [hother])
    rw [if_neg hstart, if_neg hdigit, hfind]
    refine ⟨.punctuation mark, rfl, ?_⟩
    rw [Row.taken?, htext]

/-- No row fits where no token begins. -/
theorem row_none (hs : isSeparator c = false) (hc : c ≠ '#') (hl : lexeme? c after = none) :
    rows.find? (·.fits (c :: after)) = none := by
  unfold lexeme? at hl
  split at hl
  · cases hl
  split at hl
  · cases hl
  · rename_i hw hd
    rw [punctuation?_eq_find, Option.map_eq_none_iff] at hl
    rw [find_row, hs, if_neg (by decide), if_neg hc, if_neg hw, if_neg hd, hl]
    rfl

end

/-! ## Rounds -/

section
variable {before text : List Char} {line : UInt32}

theorem atEnd_iff (cursor : Cursor) (h : cursor.text = String.ofList (before ++ text))
    (ho : cursor.offset = (String.ofList before).utf8ByteSize) :
    cursor.atEnd = true ↔ text = [] := by
  rw [atEnd, h, ho, Text.byteSize_append, decide_eq_true_iff]
  cases text with
  | nil => simp
  | cons c rest =>
    have := c.utf8Size_pos
    rw [Text.byteSize_cons]
    simp
    omega

theorem scan_atEnd {cursor : Cursor} (h : cursor.atEnd = true) {rounds : Nat} (hr : 0 < rounds) :
    scan rounds cursor = some (.ok []) := by
  obtain ⟨rounds, rfl⟩ := Nat.exists_eq_succ_of_ne_zero (Nat.ne_of_gt hr)
  rw [scan, if_pos h]

/-- In a round that begins behind characters of one byte each the rest of the line is sliced. -/
theorem remainder_behind (line : UInt32) (hb : ∀ c ∈ before, c.utf8Size = 1) (c : Char)
    (rest : List Char) :
    ¬ (Cursor.mk (String.ofList (before ++ c :: rest)) line before.length).atEnd = true ∧
      (Cursor.mk (String.ofList (before ++ c :: rest)) line before.length).remainder? =
        some (String.ofList (c :: rest)) := by
  have hoffset := (Text.byteSize_of_single hb).symm
  constructor
  · rw [atEnd_iff _ rfl hoffset]
    exact List.cons_ne_nil c rest
  · rw [remainder?, String.toList_ofList, Text.dropBytes_eq_some.mpr ⟨before, rfl, hoffset.symm⟩]
    rfl

/-- A round does what the first row that fits does. -/
theorem scan_row (hb : ∀ c ∈ before, c.utf8Size = 1) {c : Char} {rest : List Char} {row : Row}
    {made? : Option Lexeme} {count : Nat} (hrow : rows.find? (·.fits (c :: rest)) = some row)
    (htaken : row.taken? (c :: rest) = some (made?, count)) (rounds : Nat) :
    scan (rounds + 1) ⟨String.ofList (before ++ c :: rest), line, before.length⟩ =
      (scan rounds ⟨String.ofList (before ++ c :: rest), line, before.length + count⟩).map
        (push ⟨String.ofList (before ++ c :: rest), line, before.length⟩ count made?) := by
  obtain ⟨hmore, hslice⟩ := remainder_behind line hb c rest
  rw [scan, if_neg hmore, hslice, Option.bind_some, String.toList_ofList, hrow]
  dsimp only
  rw [htaken]
  rfl

theorem scan_rejected (hb : ∀ c ∈ before, c.utf8Size = 1) {c : Char} {after : List Char}
    (hnone : rows.find? (·.fits (c :: after)) = none) (rounds : Nat) :
    scan (rounds + 1) ⟨String.ofList (before ++ c :: after), line, before.length⟩ =
      some (.error ⟨.unrecognisedCharacter c, .between line before.length (before.length + 1),
        none⟩) := by
  obtain ⟨hmore, hslice⟩ := remainder_behind line hb c after
  rw [scan, if_neg hmore, hslice, Option.bind_some, String.toList_ofList, hnone]
  rfl

/-- A round that takes `front`, characters of one byte each, ends right behind it. -/
theorem offset_add (before : List Char) {front : List Char} (hf : ∀ d ∈ front, d.utf8Size = 1) :
    before.length + (String.ofList front).utf8ByteSize = (before ++ front).length := by
  rw [Text.byteSize_of_single hf, List.length_append]

/-- Of the separators that stand at the cursor a round takes all. -/
theorem scan_separators (hb : ∀ c ∈ before, c.utf8Size = 1) {c : Char} {rest : List Char}
    (hs : isSeparator c = true) (rounds : Nat) :
    scan (rounds + 1) ⟨String.ofList (before ++ c :: rest), line, before.length⟩ =
      scan rounds ⟨String.ofList (before ++ c :: rest), line,
        (before ++ (c :: rest).takeWhile isSeparator).length⟩ := by
  have hrow : rows.find? (·.fits (c :: rest)) = some .separators := by
    rw [find_row, if_pos hs]
  rw [scan_row hb hrow rfl,
    offset_add before fun d hd => isSeparator_utf8Size (List.mem_takeWhile_imp hd)]
  exact Option.map_id'

theorem scan_comment (hb : ∀ c ∈ before, c.utf8Size = 1) {rest : List Char} {rounds : Nat}
    (hr : 0 < rounds) :
    scan (rounds + 1) ⟨String.ofList (before ++ '#' :: rest), line, before.length⟩ =
      some (.ok []) := by
  have hend : (Cursor.mk (String.ofList (before ++ '#' :: rest)) line
      (before.length + (String.ofList ('#' :: rest)).utf8ByteSize)).atEnd = true := by
    have htext : String.ofList (before ++ '#' :: rest) =
        String.ofList ((before ++ '#' :: rest) ++ []) := by rw [List.append_nil]
    refine (atEnd_iff _ htext ?_).mpr rfl
    rw [Text.byteSize_append, Text.byteSize_of_single hb]
  have hrow : rows.find? (·.fits ('#' :: rest)) = some .comment := by
    rw [find_row, if_neg (by decide), if_pos rfl]
  rw [scan_row hb hrow rfl, scan_atEnd hend hr]
  rfl

theorem scan_lexeme (hb : ∀ c ∈ before, c.utf8Size = 1) {c : Char} {more after : List Char}
    {kind : TokenKind} (hl : lexeme? c (more ++ after) = some (kind, more.length)) (rounds : Nat) :
    scan (rounds + 1) ⟨String.ofList (before ++ c :: (more ++ after)), line, before.length⟩ =
      (scan rounds ⟨String.ofList (before ++ c :: (more ++ after)), line,
        (before ++ c :: more).length⟩).map (·.map (⟨kind, String.ofList (c :: more),
          .between line before.length (before.length + more.length + 1)⟩ :: ·)) := by
  obtain ⟨row, hrow, htaken⟩ := row_lexeme hl
  have hsize := Text.byteSize_of_single (lexemeForm hl).utf8Size
  rw [scan_row hb hrow htaken, offset_add before (lexemeForm hl).utf8Size, hsize]
  rfl

theorem scanLine_separators (offset : Nat) (text : List Char) :
    scanLine line offset text =
      scanLine line (offset + (text.takeWhile isSeparator).length)
        (text.dropWhile isSeparator) := by
  induction text generalizing offset with
  | nil => rfl
  | cons c rest ih =>
    by_cases hs : isSeparator c = true
    · rw [scanLine, if_pos hs, ih, List.takeWhile_cons_of_pos hs, List.dropWhile_cons_of_pos hs,
        List.length_cons, Nat.add_right_comm, Nat.add_assoc]
    · rw [List.takeWhile_cons_of_neg hs, List.dropWhile_cons_of_neg hs, List.length_nil,
        Nat.add_zero]

/-- Behind characters of one byte each, slicing with a cursor is scanning. -/
theorem scan_eq_scanLine (before text : List Char) (hb : ∀ c ∈ before, c.utf8Size = 1)
    {rounds : Nat} (hr : text.length < rounds) :
    scan rounds ⟨String.ofList (before ++ text), line, before.length⟩ =
      some (scanLine line before.length text) := by
  induction rounds generalizing before text with
  | zero => omega
  | succ rounds ih =>
    cases text with
    | nil =>
      have hend : (Cursor.mk (String.ofList (before ++ [])) line before.length).atEnd = true :=
        (atEnd_iff _ rfl (Text.byteSize_of_single hb).symm).mpr rfl
      rw [scan_atEnd hend (Nat.succ_pos _), scanLine]
    | cons c rest =>
      by_cases hs : isSeparator c = true
      · have hrun : ∀ d ∈ (c :: rest).takeWhile isSeparator, d.utf8Size = 1 :=
          fun d hd => isSeparator_utf8Size (List.mem_takeWhile_imp hd)
        have hshorter : ((c :: rest).dropWhile isSeparator).length < rounds := by
          rw [List.dropWhile_cons_of_pos hs]
          exact Nat.lt_of_le_of_lt (List.length_dropWhile_le _ _) (Nat.lt_of_succ_lt_succ hr)
        have hnext := ih (before ++ (c :: rest).takeWhile isSeparator) _
          (List.forall_mem_append.mpr ⟨hb, hrun⟩) hshorter
        rw [List.append_assoc, List.takeWhile_append_dropWhile] at hnext
        rw [scan_separators hb hs, hnext, List.length_append, ← scanLine_separators]
      by_cases hc : c = '#'
      · subst hc
        rw [List.length_cons] at hr
        rw [scan_comment hb (by omega), scanLine, if_neg hs, if_pos rfl]
      · rw [Bool.not_eq_true] at hs
        rw [scanLine, hs, if_neg (by decide), if_neg hc]
        cases hl : lexeme? c rest with
        | none => exact scan_rejected hb (row_none hs hc hl) rounds
        | some found =>
          obtain ⟨kind, more⟩ := found
          obtain ⟨front, after, rfl, rfl⟩ : ∃ front after, rest = front ++ after ∧
              more = front.length :=
            ⟨rest.take more, rest.drop more, (List.take_append_drop more rest).symm,
              (List.length_take_of_le (lexeme?_length hl)).symm⟩
          rw [List.length_cons, List.length_append] at hr
          have hnext := ih (before ++ c :: front) after
            (List.forall_mem_append.mpr ⟨hb, (lexemeForm hl).utf8Size⟩) (by omega)
          rw [List.append_assoc, List.cons_append] at hnext
          have hstop : (before ++ c :: front).length = before.length + front.length + 1 := by
            rw [List.length_append, List.length_cons, Nat.add_assoc]
          rw [scan_lexeme hb hl, hnext, hstop]
          simp only [List.drop_left, List.take_left]
          cases scanLine line (before.length + front.length + 1) after <;> rfl

theorem scanLines_eq (number : Nat) (lines : List (List Char)) :
    scanLines number lines = some (Token.scanLines number lines) := by
  induction lines generalizing number with
  | nil => rfl
  | cons first more ih =>
    have hfirst : scan (first.length + 1) ⟨String.ofList first, UInt32.ofNat number, 0⟩ =
        some (scanLine (UInt32.ofNat number) 0 first) :=
      scan_eq_scanLine [] first (by simp) (Nat.lt_succ_self _)
    rw [scanLines, hfirst, Token.scanLines, ih]
    cases Token.scanLine (UInt32.ofNat number) 0 first with
    | error d => rfl
    | ok tokens => cases Token.scanLines (number + 1) more <;> rfl

end
end Cursor
end FrontEnd
