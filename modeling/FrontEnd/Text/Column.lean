/-! # Texts in columns -/
namespace FrontEnd.Text

def spaces (count : Nat) : String := String.ofList (List.replicate count ' ')

/-- A text at the left of a column; one that is too wide keeps its width. -/
def padRight (width : Nat) (text : String) : String := text ++ spaces (width - text.length)

/-- A text at the right of a column; one that is too wide keeps its width. -/
def padLeft (width : Nat) (text : String) : String := spaces (width - text.length) ++ text

end FrontEnd.Text
