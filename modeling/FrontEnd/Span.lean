/-! # Positions in a source

A span names part of one line: the line, counted from one, and the UTF-8 byte offsets where the
part begins and ends, the end excluded. -/
namespace FrontEnd

/-- A part of one line. The numbers are words of 32 bits. -/
structure Span where
  line : UInt32
  start : UInt32
  stop : UInt32
  deriving DecidableEq, Repr, Inhabited

namespace Span

/-- The span of a position that has no text: line zero. -/
def nowhere : Span := ⟨0, 0, 0⟩

/-- The span between two byte offsets of a line. Offsets keep their low 32 bits. -/
def between (line : UInt32) (start stop : Nat) : Span :=
  ⟨line, UInt32.ofNat start, UInt32.ofNat stop⟩

def text (span : Span) : String :=
  "(" ++ toString span.line.toNat ++ ":" ++ toString span.start.toNat ++ "-" ++
    toString span.stop.toNat ++ ")"

/-- How many bytes lie in the span; none if it ends before it begins. -/
def width (span : Span) : Nat := span.stop.toNat - span.start.toNat

end Span
end FrontEnd
