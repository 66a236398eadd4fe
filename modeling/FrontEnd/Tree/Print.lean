import FrontEnd.Tree

/-! # Program trees as source text

Every operation stands in parentheses of its own and every function head shows its return type,
so the text fixes the tree without regard to priorities or defaults. -/
namespace FrontEnd

mutual

def Node.print : Node → String
  | .number text _ => text
  | .reference name _ => name
  | .binary operator left right _ =>
    "(" ++ left.print ++ " " ++ operator ++ " " ++ right.print ++ ")"
  | .call callee arguments _ =>
    callee ++ "(" ++ String.intercalate ", " (Node.printAll arguments) ++ ")"
  | .assign target value _ => target ++ " = " ++ value.print
  | .declare mutable type name initializer _ =>
    (if mutable then "mut " else "") ++ type ++ " " ++ name ++
      match initializer with
      | some value => " = " ++ value.print
      | none => ""
  | .conditional condition body alternative _ =>
    "if (" ++ condition.print ++ ") " ++ body.print ++ alternative.print

def Node.printAll : List Node → List String
  | [] => []
  | node :: more => node.print :: Node.printAll more

/-- The text of a body, in braces: each statement with a semicolon, then the tail without. -/
def Body.print : Body → String
  | .mk statements tail =>
    let last := match tail with
      | some node => [node.print]
      | none => []
    "\x7b" ++ String.intercalate " " ((Node.printAll statements).map (· ++ ";") ++ last) ++ "\x7d"

/-- The text of the rest of a conditional, with a space before it. -/
def Alternative.print : Alternative → String
  | .nothing => ""
  | .otherwise body => " else " ++ body.print
  | .elif condition body alternative =>
    " elif (" ++ condition.print ++ ") " ++ body.print ++ alternative.print

end

@[simp] theorem Node.printAll_eq_map (nodes : List Node) :
    Node.printAll nodes = nodes.map Node.print := by
  induction nodes with
  | nil => rfl
  | cons node more ih => rw [Node.printAll, ih, List.map_cons]

def Parameter.print (p : Parameter) : String := p.type ++ " " ++ p.name

def Signature.print (s : Signature) : String :=
  "fn " ++ s.name ++ "(" ++ String.intercalate ", " (s.parameters.map Parameter.print) ++ ") -> " ++
    s.returnType

def Signature.printExternal (s : Signature) : String := "extern " ++ s.print ++ ";"

def Definition.print (d : Definition) : String := d.signature.print ++ " " ++ d.body.print

/-- The lines of a program: its external functions, then those with a body. -/
def Program.printLines (p : Program) : List String :=
  p.externals.map Signature.printExternal ++ p.definitions.map Definition.print

/-- The text of a program, a line for each function. -/
def Program.print (p : Program) : String := String.join (p.printLines.map (· ++ "\n"))

end FrontEnd
