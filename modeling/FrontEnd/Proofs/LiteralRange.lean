import Mathlib
import FrontEnd.Lowering
import FrontEnd.Proofs.Checked
import FrontEnd.Proofs.ExpressionReading
import FrontEnd.Proofs.Numerals
import FrontEnd.Proofs.ScanLayout

/-! # Which numbers are in range

A number in a source is a run of digits of any length. It is in range if what it denotes in base ten
is at most the greatest signed word of 32 bits, whatever zeros it begins with. A count of its digits
that multiplies and adds in words, and gives up at the first overflow, comes to the same: a count
only grows, so that no later digit undoes an overflow, and zeros in front leave it at zero. -/
namespace FrontEnd
namespace Text

/-! ## Words -/

/-- The product of two words, unless it overflows. -/
def mulWords? (a b : Int32) : Option Int32 :=
  if a.toBitVec.smulOverflow b.toBitVec then none else some (a * b)

def addWords? (a b : Int32) : Option Int32 :=
  if a.toBitVec.saddOverflow b.toBitVec then none else some (a + b)

def appendDigit? (word : Int32) (digit : Char) : Option Int32 := do
  let moved ← mulWords? word 10
  addWords? moved (Int32.ofNat (digitValue digit))

/-- The word that digits denote, counted from the left. -/
def word? (digits : List Char) : Option Int32 := digits.foldlM appendDigit? 0

/-- A count that has come to the number in words, or has overflowed because the number is none. -/
inductive CountsTo : Option Int32 → Nat → Prop
  | word {word : Int32} {n : Nat} : n < signLimit → word.toInt = n → CountsTo (some word) n
  | overflow {n : Nat} : signLimit ≤ n → CountsTo none n

/-- A number is no word exactly from the limit on. -/
theorem overflow_iff (n : Nat) :
    ((n : Int) ≥ 2 ^ (32 - 1) ∨ (n : Int) < -2 ^ (32 - 1)) ↔ signLimit ≤ n := by
  rw [signLimit]
  omega

/-- An operation that overflows exactly from the limit on, and is exact otherwise. -/
theorem countsTo_of_overflow {overflows : Bool} {word : Int32} {n : Nat}
    (ho : overflows = true ↔ signLimit ≤ n) (hw : ¬ overflows = true → word.toInt = n) :
    CountsTo (if overflows then none else some word) n := by
  split
  · exact .overflow (ho.mp ‹_›)
  · exact .word (Nat.lt_of_not_le (mt ho.mpr ‹_›)) (hw ‹_›)

theorem mulWords?_countsTo {a b : Int32} {n : Nat} (h : a.toInt * b.toInt = n) :
    CountsTo (mulWords? a b) n := by
  apply countsTo_of_overflow
  · simp only [BitVec.smulOverflow, Int32.toInt_toBitVec, h, Bool.or_eq_true, decide_eq_true_eq,
      overflow_iff]
  · intro hfits
    rw [← h]
    exact BitVec.toInt_mul_of_not_smulOverflow hfits

theorem addWords?_countsTo {a b : Int32} {n : Nat} (h : a.toInt + b.toInt = n) :
    CountsTo (addWords? a b) n := by
  apply countsTo_of_overflow
  · simp only [BitVec.saddOverflow, Int32.toInt_toBitVec, h, Bool.or_eq_true, decide_eq_true_eq,
      overflow_iff]
  · intro hfits
    rw [← h]
    exact BitVec.toInt_add_of_not_saddOverflow hfits

/-- One digit more: the count comes to ten times as much and the digit, or overflows at one of the
two steps. -/
theorem appendDigit?_countsTo {word : Int32} {high : Nat} {digit : Char} (hw : word.toInt = high)
    (hd : digit.isDigit = true) :
    CountsTo (appendDigit? word digit) (10 * high + digitValue digit) := by
  have hvalue := digitValue_le hd
  have hones : (Int32.ofNat (digitValue digit)).toInt = digitValue digit :=
    Int32.toInt_ofNat_of_lt (by omega)
  have hten : (10 : Int32).toInt = 10 := rfl
  have hproduct : CountsTo (mulWords? word 10) (10 * high) := by
    apply mulWords?_countsTo
    rw [hw, hten, Int.mul_comm]
    rfl
  rw [appendDigit?]
  generalize mulWords? word 10 = moved at hproduct
  cases hproduct with
  | overflow hlimit => exact .overflow (Nat.le_add_right_of_le hlimit)
  | word _ hint =>
    apply addWords?_countsTo
    rw [hint, hones]
    rfl

/-- All digits: the count comes to what they denote, or overflows at the first digit where it has
to. -/
theorem foldlM_appendDigit?_countsTo {digits : List Char} (hd : ∀ c ∈ digits, c.isDigit = true)
    {word : Int32} {high : Nat} (hl : high < signLimit) (hw : word.toInt = high) :
    CountsTo (digits.foldlM appendDigit? word) (digitsValue high digits) := by
  induction digits generalizing word high with
  | nil =>
    rw [digitsValue_nil]
    exact .word hl hw
  | cons digit rest ih =>
    obtain ⟨hdigit, hrest⟩ := List.forall_mem_cons.mp hd
    have hstep := appendDigit?_countsTo hw hdigit
    rw [digitsValue_cons, List.foldlM_cons]
    generalize appendDigit? word digit = next at hstep
    cases hstep with
    | overflow hlimit =>
      -- the digits that follow only add to it
      exact .overflow (Nat.le_trans hlimit (le_digitsValue _ rest))
    | word hnext hint => exact ih hrest hnext hint

theorem word?_countsTo {digits : List Char} (hd : ∀ c ∈ digits, c.isDigit = true) :
    CountsTo (word? digits) (decimal digits) := by
  have hzero : (0 : Int32).toInt = (0 : Nat) := rfl
  have hcount := foldlM_appendDigit?_countsTo hd (show 0 < signLimit by decide) hzero
  rwa [digitsValue_eq, Nat.zero_mul, Nat.zero_add] at hcount

/-! ## Numerals -/

/-- A numeral has no sign, so it is in range exactly if what it denotes is below the limit. -/
theorem int32?_numeral {text : String} (h : isNumeral text = true) :
    int32? text =
      if decimal text.toList < signLimit then some (decimal text.toList : Int) else none := by
  have hd := isNumeral_digits h
  have hne : text.toList ≠ [] := by
    intro he
    simp [isNumeral, he] at h
  have hnatural : natural? text.toList = some (decimal text.toList) := by
    have hall : text.toList.all Char.isDigit = true := List.all_eq_true.mpr hd
    rw [natural?, digitsValue_eq, Nat.zero_mul, Nat.zero_add, hall]
    simp [hne]
  unfold int32?
  split
  · rename_i htext
    exact absurd (hd '-' (by simp [htext])) (by decide)
  · rename_i htext
    exact absurd (hd '+' (by simp [htext])) (by decide)
  · rw [naturalBelow?, hnatural, Option.filter_some]
    simp only [decide_eq_true_eq]
    by_cases hlimit : decimal text.toList < signLimit
    · rw [if_pos hlimit, if_pos hlimit]
      rfl
    · rw [if_neg hlimit, if_neg hlimit]
      rfl

/-- A numeral is read as a word as its digits are counted in words. -/
theorem int32?_eq_word? {text : String} (h : isNumeral text = true) :
    int32? text = (word? text.toList).map Int32.toInt := by
  have hcount := word?_countsTo (isNumeral_digits h)
  rw [int32?_numeral h]
  generalize word? text.toList = counted at hcount
  cases hcount with
  | word hlimit hint => rw [if_pos hlimit, Option.map_some, hint]
  | overflow hlimit => rw [if_neg (Nat.not_lt.mpr hlimit), Option.map_none]

end Text

/-- A numeral is rejected exactly if it is out of range. -/
theorem Node.lower_numeral (scopes : Scopes) {text : String} (h : isNumeral text = true)
    (span : Span) :
    (Node.number text span).lower scopes =
      if Text.decimal text.toList < Text.signLimit then .error .emission
      else Lowering.reject (.numberOutOfRange text) span := by
  rw [Node.lower, Text.int32?_numeral h]
  by_cases hlimit : Text.decimal text.toList < Text.signLimit
  · rw [if_pos hlimit, if_pos hlimit]
  · rw [if_neg hlimit, if_neg hlimit]

/-! ## Numbers in sources -/

namespace Token

/-- Every token of a line has the kind of its text, wherever its columns end. -/
theorem Cut.kind_eq {line : UInt32} {rest front : List Char} {offset : Nat} {tokens : List Token}
    (h : Cut line rest offset front tokens) :
    ∀ token ∈ tokens, TokenKind.ofText? token.text = some token.kind := by
  induction h with
  | nothing offset => simp
  | separator _ _ ih => exact ih
  | token hl _ ih => exact List.forall_mem_cons.mpr ⟨(lexemeForm hl).kind_eq, ih⟩

/-- The numbers of a source are numerals. -/
theorem isNumeral_of_scan {source : String} {tokens : List Token} (h : scan source = .ok tokens)
    {token : Token} (ht : token ∈ tokens) (hk : token.kind = .number) :
    isNumeral token.text = true := by
  obtain ⟨index, line, found, -, hline, hm⟩ := (mem_scanLines h token).mp ht
  obtain ⟨front, rest, -, hcut, -⟩ := cut_of_scanLine hline
  have hkind := hcut.kind_eq token hm
  rw [hk] at hkind
  rcases TokenKind.ofText?_cases hkind with ⟨hn, -⟩ | ⟨-, hid⟩ | hfixed
  · exact hn
  · cases hid
  · have hother : TokenKind.number ≠ .number :=
      fixedTexts_forall (P := fun _ kind => kind ≠ .number) (by decide) hfixed
    exact absurd rfl hother

end Token

/-- A number is read as itself from the range that it takes. -/
theorem Buffer.reads_number (buffer : Buffer) {position : Nat} {token : Token}
    (ht : buffer.token? position = some token) (hk : token.kind = .number) :
    buffer.primary (buffer.range position (position + 1)) =
        .ok (.number token.text token.span) ∧
      buffer.expression (buffer.range position (position + 1)) =
        .ok (.number token.text token.span) := by
  have hlt : position < buffer.size := (List.getElem?_eq_some_iff.mp ht).1
  have hwindow := buffer.window (Nat.le_succ position) hlt
  rw [Buffer.primary, Buffer.expression, Buffer.settle_eq_ok, Buffer.settle_eq_ok,
    hwindow.tokensOf_range, Buffer.slice_single ht]
  exact ⟨Reading.primary_operand (.number ⟨token, hk⟩),
    Reading.expression_sentence (.mk (.number ⟨token, hk⟩) .nothing)⟩

/-- Every number of a source is read as a node that lowering rejects, with the number's text and
span, exactly if what its digits denote in base ten is past the greatest signed word of 32 bits.
Otherwise the node passes with what they denote, and an instruction comes next. Multiplying and
adding in words of 32 bits, digit by digit, tells the same numbers apart. -/
theorem Token.literal_range_exact {source : String} {tokens : List Token}
    (hscan : Token.scan source = .ok tokens) {position : Nat} {token : Token}
    (ht : tokens[position]? = some token) (hk : token.kind = .number) :
    (Buffer.mk tokens).primary ((Buffer.mk tokens).range position (position + 1)) =
        .ok (.number token.text token.span) ∧
      (Buffer.mk tokens).expression ((Buffer.mk tokens).range position (position + 1)) =
        .ok (.number token.text token.span) ∧
      (∀ scopes, (Node.number token.text token.span).lower scopes =
          Lowering.reject (.numberOutOfRange token.text) token.span ↔
        2 ^ 31 - 1 < Text.decimal token.text.toList) ∧
      (Text.decimal token.text.toList ≤ 2 ^ 31 - 1 →
        Text.int32? token.text = some (Text.decimal token.text.toList : Int) ∧
          ∀ scopes, (Node.number token.text token.span).lower scopes = .error .emission) ∧
      Text.int32? token.text = (Text.word? token.text.toList).map Int32.toInt := by
  have hn := Token.isNumeral_of_scan hscan (List.mem_of_getElem? ht) hk
  have hlimit : Text.signLimit = 2 ^ 31 := by decide
  obtain ⟨hprimary, hexpression⟩ := (Buffer.mk tokens).reads_number ht hk
  refine ⟨hprimary, hexpression, fun scopes => ?_, fun hle => ?_, Text.int32?_eq_word? hn⟩
  · rw [Node.lower_numeral scopes hn, hlimit]
    split
    · constructor
      · intro h
        cases h
      · intro h
        omega
    · exact ⟨fun _ => by omega, fun _ => rfl⟩
  · have hlt : Text.decimal token.text.toList < Text.signLimit := by omega
    refine ⟨by rw [Text.int32?_numeral hn, if_pos hlt], fun scopes => ?_⟩
    rw [Node.lower_numeral scopes hn, if_pos hlt]

/-- The greatest word behind zeros, the number after it, and one whose low 32 bits are zero. -/
def Token.limitSource : String := "00000000002147483647 2147483648\n4294967296"

def Token.limitTokens : List Token :=
  [⟨.number, "00000000002147483647", ⟨1, 0, 20⟩⟩, ⟨.number, "2147483648", ⟨1, 21, 31⟩⟩,
    ⟨.number, "4294967296", ⟨2, 0, 10⟩⟩]

theorem Token.literal_range_exact_limit :
    Token.scan limitSource = .ok limitTokens ∧
      Text.int32? "00000000002147483647" = some 2147483647 ∧
      (∀ scopes, (Node.number "00000000002147483647" ⟨1, 0, 20⟩).lower scopes =
        .error .emission) ∧
      (∀ scopes, (Node.number "2147483648" ⟨1, 21, 31⟩).lower scopes =
        Lowering.reject (.numberOutOfRange "2147483648") ⟨1, 21, 31⟩) ∧
      ∀ scopes, (Node.number "4294967296" ⟨2, 0, 10⟩).lower scopes =
        Lowering.reject (.numberOutOfRange "4294967296") ⟨2, 0, 10⟩ := by
  have hscan : Token.scan limitSource = .ok limitTokens := by
    unfold limitSource limitTokens
    cbv
  have hgreatest : Text.decimal "00000000002147483647".toList = 2147483647 := by decide
  have hnext : Text.decimal "2147483648".toList = 2147483648 := by decide
  have hwrapped : Text.decimal "4294967296".toList = 4294967296 := by decide
  obtain ⟨-, -, -, hpasses, -⟩ :=
    Token.literal_range_exact hscan (show limitTokens[0]? = some _ from rfl) rfl
  obtain ⟨-, -, hrejects, -, -⟩ :=
    Token.literal_range_exact hscan (show limitTokens[1]? = some _ from rfl) rfl
  obtain ⟨-, -, hrejects', -, -⟩ :=
    Token.literal_range_exact hscan (show limitTokens[2]? = some _ from rfl) rfl
  obtain ⟨hvalue, hemits⟩ := hpasses (by rw [hgreatest]; decide)
  rw [hgreatest] at hvalue
  exact ⟨hscan, hvalue, hemits, fun scopes => (hrejects scopes).mpr (by rw [hnext]; decide),
    fun scopes => (hrejects' scopes).mpr (by rw [hwrapped]; decide)⟩

end FrontEnd
