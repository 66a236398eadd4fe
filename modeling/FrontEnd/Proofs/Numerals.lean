import Mathlib.Data.Nat.Digits.Lemmas
import Mathlib.Tactic.Ring
import Mathlib.Tactic.Positivity
import FrontEnd.Text.Decimal

/-! # Numbers in base ten

What digits denote is said by places, from the last digit on, and what a text with a sign denotes
follows from its digits. Reading a text as a word counts from the first digit on; it succeeds
exactly if the text has digits only, perhaps behind a sign, and denotes a word. -/
namespace FrontEnd.Text

def digitValue (digit : Char) : Nat := digit.toNat - '0'.toNat

/-- The number that digits denote in base ten: the last one counts ones, the one before it tens. -/
def decimal (digits : List Char) : Nat := Nat.ofDigits 10 (digits.reverse.map digitValue)

def unsigned (text : List Char) : List Char :=
  if text.head? = some '-' ∨ text.head? = some '+' then text.tail else text

/-- The integer that digits with or without a sign denote. -/
def signed (text : List Char) : Int :=
  if text.head? = some '-' then -(decimal (unsigned text) : Int) else decimal (unsigned text)

/-- One or more digits, perhaps with a sign, that denote an integer of 32 bits. -/
def isInt32 (text : List Char) : Bool :=
  !(unsigned text).isEmpty && (unsigned text).all Char.isDigit &&
    decide (-2147483648 ≤ signed text ∧ signed text ≤ 2147483647)

/-! ## Digits -/

theorem digitValue_le {digit : Char} (h : digit.isDigit = true) : digitValue digit ≤ 9 :=
  Nat.sub_le_sub_right (Char.isDigit_iff_toNat.mp h).2 '0'.toNat

theorem decimal_cons (digit : Char) (rest : List Char) :
    decimal (digit :: rest) = decimal rest + 10 ^ rest.length * digitValue digit := by
  simp [decimal, Nat.ofDigits_append]

theorem digitsValue_nil (high : Nat) : digitsValue high [] = high := by
  conv_lhs => unfold digitsValue

theorem digitsValue_cons (high : Nat) (digit : Char) (rest : List Char) :
    digitsValue high (digit :: rest) = digitsValue (10 * high + digitValue digit) rest := by
  conv_lhs => unfold digitsValue
  unfold digitValue
  with_reducible rfl

/-- Digits move what stands before them up by as many places. -/
theorem digitsValue_eq (high : Nat) (digits : List Char) :
    digitsValue high digits = high * 10 ^ digits.length + decimal digits := by
  induction digits generalizing high with
  | nil =>
    rw [digitsValue_nil]
    simp [decimal]
  | cons digit rest ih =>
    rw [digitsValue_cons, ih, decimal_cons, List.length_cons]
    ring

theorem le_digitsValue (high : Nat) (digits : List Char) : high ≤ digitsValue high digits := by
  rw [digitsValue_eq]
  exact Nat.le_add_right_of_le (Nat.le_mul_of_pos_right high (by positivity))

/-! ## Words -/

theorem naturalBelow?_isSome (limit : Nat) (digits : List Char) :
    (do let n ← naturalBelow? limit digits; pure (n : Int)).isSome =
      (!digits.isEmpty && digits.all Char.isDigit && decide (decimal digits < limit)) := by
  rw [naturalBelow?, natural?, digitsValue_eq, Nat.zero_mul, Nat.zero_add]
  cases digits.isEmpty with
  | true => rfl
  | false =>
    cases digits.all Char.isDigit with
    | false => rfl
    | true => by_cases h : decimal digits < limit <;> simp [Option.filter_some, h]

/-- Digits behind a minus sign may denote one more than digits without it. -/
theorem isInt32_minus (digits : List Char) :
    isInt32 ('-' :: digits) =
      (!digits.isEmpty && digits.all Char.isDigit && decide (decimal digits < signLimit + 1)) := by
  have hrange : (-2147483648 ≤ -(decimal digits : Int) ∧ -(decimal digits : Int) ≤ 2147483647) ↔
      decimal digits < signLimit + 1 := by
    rw [signLimit]
    omega
  rw [isInt32, ← decide_eq_decide.mpr hrange]
  rfl

theorem isInt32_plain (text : List Char) {digits : List Char} (hd : unsigned text = digits)
    (hm : text.head? ≠ some '-') :
    isInt32 text =
      (!digits.isEmpty && digits.all Char.isDigit && decide (decimal digits < signLimit)) := by
  have hrange : (-2147483648 ≤ (decimal digits : Int) ∧ (decimal digits : Int) ≤ 2147483647) ↔
      decimal digits < signLimit := by
    rw [signLimit]
    omega
  rw [isInt32, signed, if_neg hm, hd, decide_eq_decide.mpr hrange]

/-- A text is read as a word exactly if it is one. -/
theorem int32?_isSome (text : String) : (int32? text).isSome = isInt32 text.toList := by
  unfold int32?
  split
  · rename_i digits htext
    rw [htext, Option.isSome_map, naturalBelow?_isSome, isInt32_minus]
  · rename_i digits htext
    rw [htext, Option.isSome_map, naturalBelow?_isSome]
    exact (isInt32_plain ('+' :: digits) rfl (by simp)).symm
  · rename_i hminus hplus
    have hhead (c : Char) (hc : ∀ digits, text.toList ≠ c :: digits) :
        text.toList.head? ≠ some c := by
      intro h
      obtain ⟨digits, ht⟩ := List.head?_eq_some_iff.mp h
      exact hc digits ht
    have hdigits : unsigned text.toList = text.toList := by
      simp [unsigned, hhead '-' hminus, hhead '+' hplus]
    rw [Option.isSome_map, naturalBelow?_isSome]
    exact (isInt32_plain _ hdigits (hhead '-' hminus)).symm

end FrontEnd.Text
