import FrontEnd.Diagnostic

/-! # Scopes

Each function is lowered in a frame of its own, on top of the frame of no function. Only the
innermost frame is looked at. A frame binds a name once, to a value or to the slot of a variable.
Values, slots and functions belong to the code generator and are known here by number. -/
namespace FrontEnd

inductive Value where
  | integer (id : Nat)
  | pointer (id : Nat)
  deriving DecidableEq, Repr

/-- What a name stands for: a value, or the slot that holds a variable's value. -/
inductive Binding where
  | value (value : Value)
  | slot (id : Nat)
  deriving DecidableEq, Repr

/-- The bindings made while one function is lowered: a table of values and a table of slots. -/
structure Frame where
  function : String
  owner : Option Nat
  values : List (String × Value)
  slots : List (String × Nat)
  deriving DecidableEq, Repr

namespace Frame

def global : Frame := ⟨"__global", none, [], []⟩

def ofFunction (name : String) (id : Nat) : Frame := ⟨name, some id, [], []⟩

def value? (frame : Frame) (name : String) : Option Value := frame.values.lookup name

def slot? (frame : Frame) (name : String) : Option Nat := frame.slots.lookup name

def declares (frame : Frame) (name : String) : Bool :=
  (frame.value? name).isSome || (frame.slot? name).isSome

/-- The frame with one more entry, in the table where it belongs. -/
def enter (frame : Frame) (name : String) : Binding → Frame
  | .value value => { frame with values := (name, value) :: frame.values }
  | .slot id => { frame with slots := (name, id) :: frame.slots }

/-- The frame with one more binding; none if the name is bound. -/
def bind? (frame : Frame) (name : String) (binding : Binding) : Option Frame :=
  if frame.declares name then none else some (frame.enter name binding)

end Frame

/-- The frames that are open, innermost first. -/
structure Scopes where
  current : Frame
  enclosing : List Frame
  deriving DecidableEq, Repr

namespace Scopes

def initial : Scopes := ⟨.global, []⟩

def push (scopes : Scopes) (function : String) (id : Nat) : Scopes :=
  ⟨.ofFunction function id, scopes.current :: scopes.enclosing⟩

/-- Closes the innermost frame; the last one stays. -/
def pop (scopes : Scopes) : Scopes :=
  match scopes.enclosing with
  | [] => scopes
  | frame :: rest => ⟨frame, rest⟩

/-- Binds a name in the innermost frame; none if it is bound there. -/
def bind? (scopes : Scopes) (name : String) (binding : Binding) : Option Scopes :=
  (scopes.current.bind? name binding).map fun frame => { scopes with current := frame }

def frames (scopes : Scopes) : List Frame := (scopes.current :: scopes.enclosing).reverse

/-- The function being lowered, which what stands at `span` needs. -/
def currentFunction (scopes : Scopes) (span : Span) : Except Diagnostic Nat :=
  match scopes.current.owner with
  | some id => .ok id
  | none => .error ⟨.backend "no function is being lowered", span, none⟩

end Scopes
end FrontEnd
