import FrontEnd.Diagnostic

/-! # Types

The language has three types, each known by one name. Values have a width in bits, and `void` has
no values. -/
namespace FrontEnd

inductive ScalarType where
  | int32
  | wideInt
  | void
  deriving DecidableEq, Repr

namespace ScalarType

def name : ScalarType → String
  | int32 => "i32"
  | wideInt => "u8"
  | void => "void"

def ofName? (name : String) : Option ScalarType :=
  if name = "i32" then some int32
  else if name = "u8" then some wideInt
  else if name = "void" then some void
  else none

/-- How many bits a value has, for the types that have values. -/
def bitWidth? : ScalarType → Option Nat
  | int32 => some 32
  | wideInt => some 64
  | void => none

/-- The type with this name, where a source must have one. -/
def resolve (name : String) (span : Span) : Except Diagnostic ScalarType :=
  match ofName? name with
  | some type => .ok type
  | none => .error ⟨.unknownType name, span, none⟩

/-- The width of the type with this name, where a source must have a type of values. -/
def resolveWidth (name : String) (span : Span) : Except Diagnostic Nat := do
  let type ← resolve name span
  match type.bitWidth? with
  | some width => .ok width
  | none => .error ⟨.unknownType name, span, none⟩

end ScalarType
end FrontEnd
