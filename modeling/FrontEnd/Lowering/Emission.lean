import FrontEnd.Diagnostic
import FrontEnd.Text.Quoted

/-! # The code generator's answers

What the code generator says when it refuses an instruction, and what it is told before it
starts. -/
namespace FrontEnd

/-- Why an instruction is refused. Some refusals carry a text of their own. -/
inductive EmissionFault where
  | unsetPosition
  | alignment (text : String)
  | extractOutOfRange
  | bitwidth (text : String)
  | pointeeType (text : String)
  | valueType (text : String)
  | ordering (text : String)
  | elementPointee
  | elementIndex
  deriving DecidableEq, Repr

namespace EmissionFault

/-- The refusal as diagnostics quote it. -/
def message : EmissionFault → String
  | unsetPosition => "UnsetPosition"
  | alignment text => "AlignmentError(" ++ Text.quote text ++ ")"
  | extractOutOfRange => "ExtractOutOfRange"
  | bitwidth text => "BitwidthError(" ++ Text.quote text ++ ")"
  | pointeeType text => "PointeeTypeMismatch(" ++ Text.quote text ++ ")"
  | valueType text => "ValueTypeMismatch(" ++ Text.quote text ++ ")"
  | ordering text => "OrderingError(" ++ Text.quote text ++ ")"
  | elementPointee => "GEPPointee"
  | elementIndex => "GEPIndex"

def diagnostic (fault : EmissionFault) (span : Span) : Diagnostic :=
  ⟨.backend fault.message, span, none⟩

end EmissionFault

/-- What the code generator is told: whether to show its intermediate form, and the machine to
generate for if it is not this one. -/
structure EmissionOptions where
  dump : Bool := false
  target : Option String := none
  deriving DecidableEq, Repr

/-- The symbol that a function is emitted under. The program's entry point keeps `main` for the
code that starts it. -/
def symbolName (function : String) : String :=
  if function = "main" then "__he_entry_main" else function

end FrontEnd
