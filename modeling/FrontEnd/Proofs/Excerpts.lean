import Mathlib
import FrontEnd.Diagnostic.Excerpt
import FrontEnd.Program
import FrontEnd.Proofs.ScanLayout

/-! # Reports point at their source

A rejected source is reported at a character that is really there. The scanner rejects a character
behind characters of one byte each, and the reader of programs reports every complaint at a token,
if need be at the last one; so the column of a report, which counts bytes, is a column of
characters. Blanks at the end of the line are not shown, but tokens have none. -/
namespace FrontEnd

/-! ## Texts on one line -/

namespace Text

def Unbroken (text : String) : Prop := '\n' ∉ text.toList

instance (text : String) : Decidable (Unbroken text) :=
  inferInstanceAs (Decidable ('\n' ∉ text.toList))

theorem Unbroken.append {text rest : String} (h : Unbroken text) (hr : Unbroken rest) :
    Unbroken (text ++ rest) := by
  rw [Unbroken, String.toList_append, List.mem_append, not_or]
  exact ⟨h, hr⟩

theorem unbroken_spaces (count : Nat) : Unbroken (spaces count) := by
  rw [Unbroken, spaces, String.toList_ofList]
  intro h
  cases List.eq_of_mem_replicate h

theorem lines_unbroken {text line : List Char} (h : line ∈ lines text) : '\n' ∉ line := by
  fun_induction lines text generalizing line with
  | case1 => cases h
  | case2 rest ih =>
    rcases List.mem_cons.mp h with rfl | h
    · simp
    · exact ih h
  | case3 c rest hc hr ih => exact ih h
  | case4 c rest hc hr hl ih =>
    cases List.mem_singleton.mp h
    simpa [eq_comm] using hc
  | case5 c rest hc hr first more hl ih =>
    rw [hl] at ih
    rcases List.mem_cons.mp h with rfl | h
    · have := ih List.mem_cons_self
      simp [this, Ne.symm hc]
    · exact ih (List.mem_cons_of_mem _ h)

theorem trimEnd_prefix (text : String) : (trimEnd text).toList <+: text.toList := by
  rw [trimEnd, String.toList_ofList, ← List.reverse_suffix, List.reverse_reverse]
  exact List.dropWhile_suffix _

/-- Trimming keeps a visible character and what stands before it. -/
theorem trimEnd_visible (front rest : List Char) {c : Char} (hc : isBlank c = false) :
    ∃ tail, (trimEnd (String.ofList (front ++ c :: rest))).toList = front ++ c :: tail := by
  have hkept : (c :: front.reverse).dropWhile isBlank = c :: front.reverse := by
    rw [List.dropWhile_cons_of_neg (by simp [hc])]
  rw [trimEnd, String.toList_ofList, String.toList_ofList, List.reverse_append, List.reverse_cons,
    List.append_assoc, List.singleton_append, List.dropWhile_append, hkept]
  split
  · exact ⟨[], by simp⟩
  · exact ⟨(rest.reverse.dropWhile isBlank).reverse, by simp⟩

theorem trimEnd_word (front rest : List Char) {word : List Char} (hne : word ≠ [])
    (hword : ∀ c ∈ word, isBlank c = false) :
    ∃ tail, (trimEnd (String.ofList (front ++ (word ++ rest)))).toList =
      front ++ (word ++ tail) := by
  obtain ⟨more, last, rfl⟩ := (List.eq_nil_or_concat word).resolve_left hne
  obtain ⟨tail, ht⟩ := trimEnd_visible (front ++ more) rest (hword last (by simp))
  refine ⟨tail, ?_⟩
  simpa using ht

/-- The column where a character first stands in a row. -/
def column? (c : Char) (row : String) : Option Nat := row.toList.findIdx? (· == c)

theorem column?_eq {c : Char} {row : String} {before after : List Char}
    (hrow : row.toList = before ++ c :: after) (hc : c ∉ before) :
    column? c row = some before.length := by
  have hbefore : before.findIdx? (· == c) = none := by
    rw [List.findIdx?_eq_none_iff]
    intro d hd
    simpa using ne_of_mem_of_not_mem hd hc
  rw [column?, hrow, List.findIdx?_append, hbefore]
  simp [List.findIdx?_cons]

/-! ## Numbers and quoted characters -/

theorem toString_digits (n : Nat) : ∀ c ∈ (toString n).toList, c.isDigit = true := by
  intro c hc
  rw [Nat.toString_eq_ofList_toDigits, String.toList_ofList] at hc
  exact Nat.isDigit_of_mem_toDigits (by decide) (by decide) hc

theorem not_mem_toString {c : Char} (h : c.isDigit = false) (n : Nat) :
    c ∉ (toString n).toList := by
  intro hc
  rw [toString_digits n c hc] at h
  cases h

theorem unbroken_toString (n : Nat) : Unbroken (toString n) := not_mem_toString (by decide) n

theorem unbroken_hexadecimal (n : Nat) : '\n' ∉ Nat.toDigits 16 n := by
  induction n using Nat.strongRecOn with
  | ind n ih =>
    rw [Nat.toDigits_eq_if (by decide)]
    split
    · simp
    · simpa using ih (n / 16) (by omega)

theorem unbroken_escape (c : Char) : Unbroken (escape '\x27' c) := by
  by_cases hc : c = '\n'
  · subst hc
    decide
  · have hone : Unbroken (String.singleton c) := by
      simpa [Unbroken, eq_comm] using hc
    have hcode : Unbroken (codePoint c) := by
      have hdigits : Unbroken (String.ofList (Nat.toDigits 16 c.toNat)) := by
        rw [Unbroken, String.toList_ofList]
        exact unbroken_hexadecimal _
      exact ((by decide : Unbroken "\\u\x7b").append hdigits).append (by decide)
    unfold escape
    split
    · decide
    split
    · decide
    split
    · decide
    split
    · decide
    split
    · decide
    split
    · exact hone
    · exact hcode

theorem unbroken_quoteChar (c : Char) : Unbroken (quoteChar c) :=
  ((by decide : Unbroken "'").append (unbroken_escape c)).append (by decide)

end Text

/-! ## Headings -/

theorem TokenKind.unbroken_describe (kind : TokenKind) : Text.Unbroken kind.describe := by
  cases kind <;> decide

theorem Span.unbroken_text (span : Span) : Text.Unbroken span.text := by
  have hline := Text.unbroken_toString span.line.toNat
  have hstart := Text.unbroken_toString span.start.toNat
  have hstop := Text.unbroken_toString span.stop.toNat
  exact (((((by decide : Text.Unbroken "(").append hline).append (by decide)).append
    hstart).append (by decide)).append hstop |>.append (by decide)

structure Cause.Unbroken (cause : Cause) : Prop where
  message : Text.Unbroken cause.message
  tip : ∀ tip ∈ cause.tip?, Text.Unbroken tip

theorem Cause.unbroken_of_message {cause : Cause} (h : Text.Unbroken cause.message)
    (ht : cause.tip? = none) : cause.Unbroken := by
  refine ⟨h, ?_⟩
  rw [ht]
  simp

theorem Cause.unbroken_character (c : Char) : (Cause.unrecognisedCharacter c).Unbroken :=
  unbroken_of_message ((by decide : Text.Unbroken "unrecognised character ").append
    (Text.unbroken_quoteChar c)) rfl

theorem Cause.unbroken_unexpectedToken (expected found : TokenKind) :
    (Cause.unexpectedToken expected found).Unbroken := by
  constructor
  · exact (((by decide : Text.Unbroken "expected ").append expected.unbroken_describe).append
      (by decide)).append found.unbroken_describe |>.append (by decide)
  · cases expected <;> simp [Cause.tip?]
    decide

theorem Cause.unbroken_unmatchedBracket (opening expected : TokenKind) :
    (Cause.unmatchedBracket opening expected).Unbroken := by
  constructor
  · exact (((by decide : Text.Unbroken "no matching ").append expected.unbroken_describe).append
      (by decide)).append opening.unbroken_describe
  · simp only [Cause.tip?, Option.mem_some]
    rintro tip rfl
    decide

theorem Buffer.unbroken_describe (buffer : Buffer) (position : Nat) :
    Text.Unbroken (buffer.describe position) := by
  unfold Buffer.describe
  split
  · exact TokenKind.unbroken_describe _
  · decide

/-- Every complaint is worded on one line. -/
theorem Buffer.unbroken_causeAt (buffer : Buffer) (position : Nat) (demand : Demand) :
    (buffer.causeAt position demand).Unbroken := by
  cases demand with
  | token kind =>
    simp only [Buffer.causeAt]
    split
    · exact Cause.unbroken_unexpectedToken _ _
    · exact Cause.unbroken_of_message (((by decide : Text.Unbroken "expected ").append
        kind.unbroken_describe).append (by decide)) rfl
  | primary =>
    exact Cause.unbroken_of_message
      (((by decide : Text.Unbroken "expected a primary expression but ").append
        (buffer.unbroken_describe position)).append (by decide)) rfl
  | closer opening => exact Cause.unbroken_unmatchedBracket _ _
  | call =>
    show Cause.expectedCall.Unbroken
    refine ⟨by decide, ?_⟩
    simp only [Cause.tip?, Option.mem_some]
    rintro tip rfl
    decide
  | declarationEnd =>
    show Cause.expectedDeclarationEnd.Unbroken
    exact Cause.unbroken_of_message (by decide) rfl
  | externalEnd =>
    show Cause.expectedExternalEnd.Unbroken
    exact Cause.unbroken_of_message (by decide) rfl

/-- The heading is one row. -/
theorem Diagnostic.heading_row {cause : Cause} (h : cause.Unbroken) (span : Span) :
    ∃ heading, (Diagnostic.mk cause span none).heading = heading ++ "\n" ∧
      Text.Unbroken heading := by
  have hphase : Text.Unbroken cause.phase.name := by cases cause.phase <;> decide
  have hmessage : Text.Unbroken (Diagnostic.mk cause span none).message :=
    (((hphase.append (by decide : Text.Unbroken " error at ")).append span.unbroken_text).append
      (by decide : Text.Unbroken ": ")).append h.message
  have hstart := (by decide : Text.Unbroken "Error: ").append hmessage
  unfold Diagnostic.heading
  split
  · rename_i tip ht
    refine ⟨"Error: " ++ (Diagnostic.mk cause span none).message ++ " (" ++ tip ++ ")", ?_, ?_⟩
    · simp only [String.append_assoc]
      rfl
    · exact ((hstart.append (by decide)).append (h.tip tip ht)).append (by decide)
  · exact ⟨"Error: " ++ (Diagnostic.mk cause span none).message, rfl, hstart⟩

/-! ## Rows -/

namespace Diagnostic

/-- The rows of a report: the heading, a rule, the source line and the marks under it. -/
structure Rows where
  heading : String
  rule : String
  shown : String
  marks : String

/-- The rows with a line break behind each. -/
def Rows.text (rows : Rows) : String :=
  rows.heading ++ "\n" ++ rows.rule ++ "\n" ++ rows.shown ++ "\n" ++ rows.marks ++ "\n"

/-- What stands above each caret; nothing past the end of the source line. -/
def Rows.marked (rows : Rows) : List (Option Char) :=
  (rows.marks.toList.zipIdx.filter fun mark => mark.1 == '^').map fun mark =>
    rows.shown.toList[mark.2]?

/-- The rows are all of the diagnostic's report. They show the line of the source that its span
names, bars stand in one column, and the first caret is under the character of that line which
begins at the byte where the span begins. -/
structure Reports (d : Diagnostic) (source : String) (rows : Rows) : Prop where
  report : d.render source = rows.text
  unbroken : Text.Unbroken rows.heading ∧ Text.Unbroken rows.rule ∧ Text.Unbroken rows.shown ∧
    Text.Unbroken rows.marks
  heading : d.heading = rows.heading ++ "\n"
  rule : ∃ margin, rows.rule = Text.spaces margin ++ "|"
  marks : ∃ margin indent carets, rows.marks =
    Text.spaces margin ++ "|" ++ Text.spaces indent ++ String.ofList (List.replicate carets '^')
  bars : ∃ column, Text.column? '|' rows.rule = some column ∧
    Text.column? '|' rows.shown = some column ∧ Text.column? '|' rows.marks = some column
  excerpt : ∃ line before c after, Text.line? source d.span.line.toNat = some line ∧
    rows.shown = toString d.span.line.toNat ++ " | " ++ Text.trimEnd line ∧
    line.toList = before ++ c :: after ∧
    (String.ofList before).utf8ByteSize = d.span.start.toNat ∧
    Text.column? '^' rows.marks =
      some ((toString d.span.line.toNat ++ " | ").length + before.length)

def rows (d : Diagnostic) (heading line : String) : Rows :=
  let number := toString d.span.line.toNat
  let bar := Text.padLeft (number.length + 2) "|"
  ⟨heading, bar, number ++ " | " ++ Text.trimEnd line, bar ++ " " ++ carets d.span⟩

section
variable (d : Diagnostic) (heading line : String)

theorem rows_rule : (d.rows heading line).rule =
    Text.spaces ((toString d.span.line.toNat).length + 1) ++ "|" := by
  rfl

theorem rows_marks : (d.rows heading line).marks =
    Text.spaces ((toString d.span.line.toNat).length + 1) ++ "|" ++
      Text.spaces (d.span.start.toNat + 1) ++
        String.ofList (List.replicate (max 1 d.span.width) '^') := by
  have hspace : Text.spaces (d.span.start.toNat + 1) = " " ++ Text.spaces d.span.start.toNat := by
    rw [← String.toList_inj]
    simp [Text.spaces, List.replicate_succ]
  rw [hspace]
  simp only [rows, carets, Text.padLeft, String.append_assoc]
  rfl

theorem rows_marks_toList : (d.rows heading line).marks.toList =
    List.replicate ((toString d.span.line.toNat).length + 1) ' ' ++ '|' ::
      (List.replicate (d.span.start.toNat + 1) ' ' ++
        List.replicate (max 1 d.span.width) '^') := by
  rw [rows_marks]
  simp [Text.spaces]

theorem render_eq_text {source : String} (hline : Text.line? source d.span.line.toNat = some line)
    (hheading : d.heading = heading ++ "\n") :
    d.render source = (d.rows heading line).text := by
  simp only [render, hline, Rows.text, rows, hheading, String.append_assoc]

/-- All rows have the bar behind the digits of the line number and a space. -/
theorem rows_bars : ∃ column, Text.column? '|' (d.rows heading line).rule = some column ∧
    Text.column? '|' (d.rows heading line).shown = some column ∧
    Text.column? '|' (d.rows heading line).marks = some column := by
  have hmargin : '|' ∉ List.replicate ((toString d.span.line.toNat).length + 1) ' ' := by
    simp
  refine ⟨(toString d.span.line.toNat).length + 1, ?_, ?_, ?_⟩
  · have hrow : (d.rows heading line).rule.toList =
        List.replicate ((toString d.span.line.toNat).length + 1) ' ' ++ '|' :: [] := by
      rw [rows_rule]
      simp [Text.spaces]
    rw [Text.column?_eq hrow hmargin, List.length_replicate]
  · have hrow : (d.rows heading line).shown.toList =
        ((toString d.span.line.toNat).toList ++ [' ']) ++ '|' ::
          (' ' :: (Text.trimEnd line).toList) := by
      simp [rows]
    rw [Text.column?_eq hrow, List.length_append, String.length_toList]
    · rfl
    · have hdigits := Text.not_mem_toString (by decide : '|'.isDigit = false) d.span.line.toNat
      simpa using hdigits
  · rw [Text.column?_eq (d.rows_marks_toList heading line) hmargin, List.length_replicate]

theorem rows_caret : Text.column? '^' (d.rows heading line).marks =
    some ((toString d.span.line.toNat ++ " | ").length + d.span.start.toNat) := by
  have hone : max 1 d.span.width = max 1 d.span.width - 1 + 1 := by omega
  have hrow := d.rows_marks_toList heading line
  rw [hone, List.replicate_succ, ← List.cons_append, ← List.append_assoc] at hrow
  have hbar : " | ".length = 3 := by decide
  rw [Text.column?_eq hrow]
  · simp only [List.length_append, List.length_cons, List.length_replicate, String.length_append,
      hbar, Option.some.injEq]
    omega
  · simp

end

/-- A line with a character at the place of the span is reported, if everything before it takes one
byte. -/
theorem reports_rows {d : Diagnostic} {source heading line : String} {before after : List Char}
    {c : Char} (hline : Text.line? source d.span.line.toNat = some line)
    (hheading : d.heading = heading ++ "\n") (hunbroken : Text.Unbroken heading)
    (hsplit : line.toList = before ++ c :: after) (hsingle : ∀ e ∈ before, e.utf8Size = 1)
    (hstart : before.length = d.span.start.toNat) : d.Reports source (d.rows heading line) where
  report := d.render_eq_text heading line hline hheading
  unbroken := by
    have hshown : Text.Unbroken (Text.trimEnd line) := by
      obtain ⟨index, text, -, ht, rfl⟩ := Text.line?_eq_some.mp hline
      intro hn
      have hmem := (Text.trimEnd_prefix (String.ofList text)).subset hn
      rw [String.toList_ofList] at hmem
      exact Text.lines_unbroken (List.mem_of_getElem? ht) hmem
    have hrule : Text.Unbroken (d.rows heading line).rule := by
      rw [rows_rule]
      exact (Text.unbroken_spaces _).append (by decide)
    refine ⟨hunbroken, hrule, ?_, ?_⟩
    · exact ((Text.unbroken_toString _).append (by decide)).append hshown
    · rw [Text.Unbroken, rows_marks_toList]
      simp
  heading := hheading
  rule := ⟨_, d.rows_rule heading line⟩
  marks := ⟨_, _, _, d.rows_marks heading line⟩
  bars := d.rows_bars heading line
  excerpt := by
    refine ⟨line, before, c, after, hline, rfl, hsplit, ?_, ?_⟩
    · rw [Text.byteSize_of_single hsingle, hstart]
    · rw [rows_caret, hstart]

/-- As many carets as a text has characters, in its columns, are under that text. -/
theorem Rows.marked_eq {rows : Rows} {margin front text tail : List Char}
    (hmarks : rows.marks.toList = margin ++ List.replicate text.length '^')
    (hmargin : '^' ∉ margin) (hshown : rows.shown.toList = front ++ (text ++ tail))
    (hlength : front.length = margin.length) : rows.marked = text.map some := by
  have hblank : margin.zipIdx.filter (fun mark => mark.1 == '^') = [] := by
    rw [List.filter_eq_nil_iff]
    intro mark hmark
    simpa using ne_of_mem_of_not_mem (List.fst_mem_of_mem_zipIdx hmark) hmargin
  rw [marked, hmarks, hshown, List.zipIdx_append, List.filter_append, hblank, List.nil_append,
    Nat.zero_add, ← hlength]
  -- A caret with the character above it is taken over into the front.
  clear hmarks hmargin hshown hlength hblank
  induction text generalizing front with
  | nil => rfl
  | cons c text ih =>
    have hrest := @ih (front ++ [c])
    rw [List.append_assoc, List.length_append] at hrest
    have hfirst : (front ++ (c :: text ++ tail))[front.length]? = some c := by simp
    rw [List.length_cons, List.replicate_succ, List.zipIdx_cons, List.filter_cons_of_pos (by rfl),
      List.map_cons, List.map_cons, hfirst]
    exact congrArg (some c :: ·) hrest

/-- The carets are under the text that stands at the place of the span and is as wide. -/
theorem rows_marked (d : Diagnostic) (heading : String) {line : String}
    {before text tail : List Char} (hshown : (Text.trimEnd line).toList = before ++ (text ++ tail))
    (hstart : before.length = d.span.start.toNat) (hwidth : max 1 d.span.width = text.length) :
    (d.rows heading line).marked = text.map some := by
  have hmarks : (d.rows heading line).marks.toList =
      (List.replicate ((toString d.span.line.toNat).length + 1) ' ' ++
        '|' :: List.replicate (d.span.start.toNat + 1) ' ') ++
          List.replicate text.length '^' := by
    rw [rows_marks_toList, hwidth, List.append_assoc, List.cons_append]
  have hrow : (d.rows heading line).shown.toList =
      ((toString d.span.line.toNat).toList ++ " | ".toList ++ before) ++ (text ++ tail) := by
    simp only [rows, String.toList_append, hshown, List.append_assoc]
  refine Rows.marked_eq hmarks (by simp) hrow ?_
  have hbar : " | ".length = 3 := by decide
  simp only [List.length_append, List.length_cons, List.length_replicate, String.length_toList,
    hbar, hstart]
  omega

end Diagnostic

/-! ## Rejected sources -/

theorem Token.scanLine_rejects {number : UInt32} {text : List Char} {d : Diagnostic}
    (hfit : (String.ofList text).utf8ByteSize < UInt32.size)
    (h : scanLine number 0 text = .error d) :
    ∃ before c after span, text = before ++ c :: after ∧ (∀ e ∈ before, e.utf8Size = 1) ∧
      d = ⟨.unrecognisedCharacter c, span, none⟩ ∧ span.line = number ∧
      before.length = span.start.toNat := by
  obtain ⟨front, c, after, found, rfl, hcut, -, -, -, rfl⟩ := cut_of_rejected h
  have hlength := hcut.length_lt hfit
  rw [Nat.zero_add] at hlength
  exact ⟨front, c, after, _, rfl, hcut.utf8Size, rfl, rfl, (UInt32.toNat_ofNat_of_lt' hlength).symm⟩

/-- Where anything is read, every complaint is reported at a token. -/
theorem Buffer.spanAt_mem (buffer : Buffer) (h : buffer.tokens ≠ []) (position : Nat) :
    ∃ token ∈ buffer.tokens, buffer.spanAt position = token.span := by
  unfold Buffer.spanAt Buffer.token?
  split
  · rename_i token ht
    exact ⟨token, List.mem_of_getElem? ht, rfl⟩
  · rw [List.getLast?_eq_some_getLast h]
    exact ⟨_, List.getLast_mem h, rfl⟩

theorem Program.ofTokens_rejects {tokens : List Token} {d : Diagnostic}
    (h : Program.ofTokens tokens = .error d) :
    ∃ cause, ∃ token ∈ tokens, d = ⟨cause, token.span, none⟩ ∧ cause.Unbroken := by
  have hne : tokens ≠ [] := by
    rintro rfl
    rw [Program.ofTokens, Reading.program] at h
    cases h
  unfold Program.ofTokens Buffer.settle at h
  cases hr : Reading.program tokens with
  | ok program =>
    rw [hr] at h
    cases h
  | error complaint =>
    rw [hr] at h
    cases h
    obtain ⟨token, ht, hspan⟩ :=
      Buffer.spanAt_mem ⟨tokens⟩ hne (tokens.length - complaint.left)
    exact ⟨_, token, ht, by rw [← hspan]; rfl, Buffer.unbroken_causeAt _ _ _⟩

/-- Lines keep their numbers in 32 bits. -/
theorem Text.Fits.line?_eq {source : String} (hfit : Text.Fits source) {index : Nat}
    {text : List Char} (hl : (Text.lines source.toList)[index]? = some text) :
    Text.line? source (UInt32.ofNat (1 + index)).toNat = some (String.ofList text) := by
  obtain ⟨hi, -⟩ := List.getElem?_eq_some_iff.mp hl
  have hcount := hfit.lines
  rw [UInt32.toNat_ofNat_of_lt' (by omega)]
  exact Text.line?_eq_some.mpr ⟨index, text, Nat.add_comm 1 index, hl, rfl⟩

/-- A rejected character is reported where it stands. -/
theorem Token.scan_reported {source : String} {d : Diagnostic} (hfit : Text.Fits source)
    (h : Token.scan source = .error d) : ∃ rows, d.Reports source rows := by
  obtain ⟨index, text, hl, hs⟩ := Token.scanLines_error h
  have hshown := hfit.line?_eq hl
  obtain ⟨before, c, after, span, rfl, hsingle, rfl, hline, hstart⟩ :=
    Token.scanLine_rejects (hfit.bytes text (List.mem_of_getElem? hl)) hs
  obtain ⟨heading, hheading, hunbroken⟩ := Diagnostic.heading_row (Cause.unbroken_character c) span
  rw [← hline] at hshown
  exact ⟨_, Diagnostic.reports_rows hshown hheading hunbroken String.toList_ofList hsingle hstart⟩

/-- Anything that is said about a token in one line is reported with carets under the token. -/
theorem Token.reported {source : String} {tokens : List Token} (hfit : Text.Fits source)
    (h : Token.scan source = .ok tokens) {token : Token} (ht : token ∈ tokens) {cause : Cause}
    (hcause : cause.Unbroken) :
    ∃ rows, (Diagnostic.mk cause token.span none).Reports source rows ∧
      rows.marked = token.text.toList.map some := by
  obtain ⟨index, text, found, hl, hs, hm⟩ := (Token.mem_scanLines h token).mp ht
  have hshown := hfit.line?_eq hl
  obtain ⟨before, after, rfl, hat, hsingle⟩ :=
    Token.scanLine_standsAt (hfit.bytes text (List.mem_of_getElem? hl)) hs token hm
  obtain ⟨hbefore, -⟩ := List.forall_mem_append.mp hsingle
  obtain ⟨heading, hheading, hunbroken⟩ := Diagnostic.heading_row hcause token.span
  rw [← hat.line_eq] at hshown
  have hlength := hat.nonempty
  rw [← String.length_toList] at hlength
  have hne : token.text.toList ≠ [] := List.ne_nil_of_length_pos hlength
  obtain ⟨c, more, htext⟩ := List.exists_cons_of_ne_nil hne
  have hsplit : (String.ofList (before ++ (token.text.toList ++ after))).toList =
      before ++ c :: (more ++ after) := by
    rw [String.toList_ofList, htext, List.cons_append]
  refine ⟨_, Diagnostic.reports_rows hshown hheading hunbroken hsplit hbefore hat.start_eq.symm, ?_⟩
  -- Trimming the line cuts no token, since the last character of a token is visible.
  obtain ⟨tail, htail⟩ :=
    Text.trimEnd_word before after hne (TokenKind.visible_of_ofText? hat.kind_eq)
  refine Diagnostic.rows_marked _ heading htail hat.start_eq.symm ?_
  have hstart := hat.start_eq
  have hstop := hat.stop_eq
  simp only [Span.width, String.length_toList] at hlength ⊢
  omega

/-- The report of a rejected source has four rows and marks a character that is there. If the source
has tokens, the carets are under one of them, all of it and nothing else. -/
theorem Program.ofSource_error_reports {source : String} {d : Diagnostic}
    (hfit : Text.Fits source) (h : Program.ofSource source = .error d) :
    ∃ rows, d.Reports source rows ∧ ∀ tokens, Token.scan source = .ok tokens →
      ∃ token ∈ tokens, rows.marked = token.text.toList.map some := by
  cases hs : Token.scan source with
  | error rejected =>
    rw [Program.ofSource, hs] at h
    cases h
    obtain ⟨rows, hrows⟩ := Token.scan_reported hfit hs
    exact ⟨rows, hrows, fun tokens ht => nomatch ht⟩
  | ok tokens =>
    rw [Program.ofSource, hs] at h
    obtain ⟨cause, token, ht, rfl, hcause⟩ := Program.ofTokens_rejects h
    obtain ⟨rows, hrows, hmarked⟩ := Token.reported hfit hs ht hcause
    refine ⟨rows, hrows, fun others ho => ?_⟩
    cases ho
    exact ⟨token, ht, hmarked⟩

/-- A source that ends in the middle of a parameter, with comments outside ASCII. -/
def Program.unendedSource : String := "# π\nfn f(i32\t# é\n"

theorem Program.ofSource_error_reports_unended :
    Text.Fits Program.unendedSource ∧
      Program.ofSource Program.unendedSource =
        .error ⟨.unexpectedEnd .identifier, ⟨2, 5, 8⟩, none⟩ ∧
      ∃ rows, (Diagnostic.mk (.unexpectedEnd .identifier) ⟨2, 5, 8⟩ none).Reports
          Program.unendedSource rows ∧
        ∀ tokens, Token.scan Program.unendedSource = .ok tokens →
          ∃ token ∈ tokens, rows.marked = token.text.toList.map some := by
  have hlines : Text.lines Program.unendedSource.toList =
      ["# π".toList, "fn f(i32\t# é".toList] := by decide
  have hfit : Text.Fits Program.unendedSource := by
    constructor
    · rw [hlines]
      decide
    · rw [hlines]
      simp only [List.forall_mem_cons]
      exact ⟨by decide, by decide, by simp⟩
  have hrejected : Program.ofSource Program.unendedSource =
      .error ⟨.unexpectedEnd .identifier, ⟨2, 5, 8⟩, none⟩ := by
    unfold Program.unendedSource
    cbv
  exact ⟨hfit, hrejected, Program.ofSource_error_reports hfit hrejected⟩

end FrontEnd
