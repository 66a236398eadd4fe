/-! # Binary operators

The scanner reads eight operator texts. All but the point have a priority, and lowering has an
instruction for the same seven. -/
namespace FrontEnd.Operator

/-- How strongly an operator binds; zero for every other text. Each operator has a priority of its
own, so no two are read alike. -/
def priority (operator : String) : Nat :=
  if operator = "*" then 30
  else if operator = "/" then 40
  else if operator = "-" then 20
  else if operator = "+" then 10
  else if operator = "==" then 9
  else if operator = "!=" then 8
  else if operator = "|" then 6
  else 0

/-- Lowering has an instruction for the operator. -/
def isSupported (operator : String) : Bool :=
  ["+", "-", "*", "/", "==", "!=", "|"].contains operator

end FrontEnd.Operator
