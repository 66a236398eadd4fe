import FrontEnd.Span
import FrontEnd.Text.Lines

/-! # A position that moves along one line -/
namespace FrontEnd

/-- A byte offset into a line. Nothing keeps it inside the text or on a character's first byte. -/
structure Cursor where
  text : String
  line : UInt32
  offset : Nat := 0
  deriving Repr

namespace Cursor

def advance (cursor : Cursor) (count : Nat) : Cursor :=
  { cursor with offset := cursor.offset + count }

def spanOf (cursor : Cursor) (count : Nat) : Span :=
  .between cursor.line cursor.offset (cursor.offset + count)

/-- The text from the cursor on; none past the end or inside a character. -/
def remainder? (cursor : Cursor) : Option String :=
  (Text.dropBytes cursor.offset cursor.text.toList).map String.ofList

/-- Nothing of the line is left. -/
def atEnd (cursor : Cursor) : Bool := cursor.text.utf8ByteSize ≤ cursor.offset

end Cursor
end FrontEnd
