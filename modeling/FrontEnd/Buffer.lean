import FrontEnd.Reading.Declaration

/-! # Token sequences by position

A buffer is a sequence of tokens whose parts are named by positions. Every position is allowed: a
range is cut down to the buffer, and a place past the last token is reported at the last token.
Here complaints become diagnostics, since only the buffer knows what stands at a place that lies
just outside the range that was read. -/
namespace FrontEnd

structure Buffer where
  tokens : List Token
  deriving DecidableEq, Repr

namespace Buffer

/-- A range of positions, the end excluded. -/
structure Range where
  start : Nat
  stop : Nat
  start_le_stop : start ≤ stop
  deriving DecidableEq, Repr

def Range.size (range : Range) : Nat := range.stop - range.start

/-- Why reading up to a given bound fails: the tokens are not what was asked for, or there are none
left although the bound is not reached. -/
inductive Failure where
  | rejected (diagnostic : Diagnostic)
  | overrun
  deriving DecidableEq, Repr

def size (buffer : Buffer) : Nat := buffer.tokens.length

/-- The range between two positions, cut down to the buffer. -/
def range (buffer : Buffer) (start stop : Nat) : Range :=
  ⟨min start (min stop buffer.size), min stop buffer.size, Nat.min_le_right _ _⟩

def fullRange (buffer : Buffer) : Range := buffer.range 0 buffer.size

def slice (buffer : Buffer) (start stop : Nat) : List Token := (buffer.tokens.take stop).drop start

def tokensOf (buffer : Buffer) (range : Range) : List Token := buffer.slice range.start range.stop

def token? (buffer : Buffer) (position : Nat) : Option Token := buffer.tokens[position]?

/-- A token of the kind stands at the position, below the bound. -/
def peek (buffer : Buffer) (kind : TokenKind) (position bound : Nat) : Bool :=
  position < bound && Reading.startsWith kind (buffer.tokens.drop position)

/-- Where a position is reported: at its token, or else at the last token. -/
def spanAt (buffer : Buffer) (position : Nat) : Span :=
  match buffer.token? position with
  | some token => token.span
  | none =>
    match buffer.tokens.getLast? with
    | some token => token.span
    | none => .nowhere

/-- What stands at a position, in words. -/
def describe (buffer : Buffer) (position : Nat) : String :=
  match buffer.token? position with
  | some token => token.kind.describe
  | none => "end of input"

/-- The cause behind a demand that is not met at a position. -/
def causeAt (buffer : Buffer) (position : Nat) : Demand → Cause
  | .token kind =>
    match buffer.token? position with
    | some token => .unexpectedToken kind token.kind
    | none => .unexpectedEnd kind
  | .primary => .invalidPrimary (buffer.describe position)
  | .closer opening => .unmatchedBracket opening (opening.closing?.getD opening)
  | .call => .expectedCall
  | .declarationEnd => .expectedDeclarationEnd
  | .externalEnd => .expectedExternalEnd

def diagnose (buffer : Buffer) (demand : Demand) (position : Nat) : Diagnostic :=
  ⟨buffer.causeAt position demand, buffer.spanAt position, none⟩

/-- The result of reading the tokens before position `stop`, with its complaint as a diagnostic. -/
def settle {α : Type} (buffer : Buffer) (stop : Nat) (reading : Reading α) :
    Except Diagnostic α :=
  reading.mapError fun complaint => buffer.diagnose complaint.demand (stop - complaint.left)

/-- Placing complaints keeps what is read. -/
theorem settle_eq_ok {α : Type} {buffer : Buffer} {stop : Nat} {reading : Reading α} {a : α} :
    buffer.settle stop reading = .ok a ↔ reading = .ok a := by
  cases reading with
  | ok b => constructor <;> intro h <;> cases h <;> rfl
  | error complaint => constructor <;> intro h <;> cases h

/-- Reads part of the buffer from `start` on, up to `bound`, and gives the position after it. -/
def readUpTo {α : Type} (buffer : Buffer) (start bound : Nat)
    (reader : List Token → Reading (α × Nat)) : Except Failure (α × Nat) :=
  let tokens := buffer.slice start bound
  match reader tokens with
  | .ok (result, count) => .ok (result, start + count)
  | .error ⟨demand, left⟩ =>
    let position := start + tokens.length - left
    if position < bound && buffer.size ≤ position then .error .overrun
    else .error (.rejected (buffer.diagnose demand position))

/-- Reads one token of the kind at the position, below the bound. -/
def expect (buffer : Buffer) (kind : TokenKind) (position bound : Nat) :
    Except Failure (Token × Nat) :=
  buffer.readUpTo position bound fun tokens => do
    let (token, _) ← Reading.expect kind tokens
    .ok (token, 1)

def find? (buffer : Buffer) (kind : TokenKind) (range : Range) : Option Nat :=
  ((buffer.tokensOf range).findIdx? fun token => token.kind = kind).map (range.start + ·)

/-- The position, below the bound, of the token that closes the bracket at `opening`. -/
def closer? (buffer : Buffer) (opening bound : Nat) : Option Nat := do
  let token ← buffer.token? opening
  let closing ← token.kind.closing?
  let count ← Reading.closer? token.kind closing 0 (buffer.slice (opening + 1) bound)
  some (opening + 1 + count)

def primaryEnd? (buffer : Buffer) (range : Range) : Option Nat :=
  (Reading.primaryEnd? (buffer.tokensOf range)).map (range.start + ·)

def expressionEnd? (buffer : Buffer) (range : Range) : Option Nat :=
  (Reading.expressionEnd? (buffer.tokensOf range)).map (range.start + ·)

def expression (buffer : Buffer) (range : Range) : Except Diagnostic Node :=
  buffer.settle range.stop (Reading.expression (buffer.tokensOf range))

def primary (buffer : Buffer) (range : Range) : Except Diagnostic Node :=
  buffer.settle range.stop (Reading.primary (buffer.tokensOf range))

def operators (buffer : Buffer) (range : Range) (left : Node) : Except Diagnostic Node :=
  buffer.settle range.stop (Reading.operators left (buffer.tokensOf range))

def declaration (buffer : Buffer) (range : Range) : Except Diagnostic Node :=
  buffer.settle range.stop (Reading.declaration (buffer.tokensOf range))

def assignment (buffer : Buffer) (range : Range) : Except Diagnostic Node :=
  buffer.settle range.stop (Reading.assignment (buffer.tokensOf range))

def body (buffer : Buffer) (range : Range) : Except Diagnostic Body :=
  buffer.settle range.stop (Reading.body (buffer.tokensOf range))

def conditional (buffer : Buffer) (start bound : Nat) : Except Failure (Node × Nat) :=
  buffer.readUpTo start bound Reading.conditional

def signature (buffer : Buffer) (start bound : Nat) : Except Failure (Signature × Nat) :=
  buffer.readUpTo start bound Reading.signature

def definition (buffer : Buffer) (start : Nat) : Except Failure (Definition × Nat) :=
  buffer.readUpTo start buffer.size Reading.definition

def external (buffer : Buffer) (start : Nat) : Except Failure (Signature × Nat) :=
  buffer.readUpTo start buffer.size Reading.external

end Buffer
end FrontEnd
