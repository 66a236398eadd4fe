/-! # Decimal numbers in 32 bits -/
namespace FrontEnd.Text

/-- The number that digits denote in base ten, from the left, after digits that denote `high`. -/
def digitsValue (high : Nat) : List Char → Nat
  | [] => high
  | digit :: rest => digitsValue (10 * high + (digit.toNat - '0'.toNat)) rest

def natural? (text : List Char) : Option Nat :=
  if text.isEmpty || !text.all Char.isDigit then none else some (digitsValue 0 text)

def naturalBelow? (limit : Nat) (digits : List Char) : Option Nat :=
  (natural? digits).filter (· < limit)

/-- The magnitude that the sign bit stands for: two to the power of 31. -/
def signLimit : Nat := 2147483648

/-- The signed 32-bit integer that a text denotes: perhaps a sign, then digits. -/
def int32? (text : String) : Option Int :=
  match text.toList with
  | '-' :: digits => (naturalBelow? (signLimit + 1) digits).map fun n => -(n : Int)
  | '+' :: digits => (naturalBelow? signLimit digits).map fun n => (n : Int)
  | digits => (naturalBelow? signLimit digits).map fun n => (n : Int)

end FrontEnd.Text
