import FrontEnd.Diagnostic
import FrontEnd.Text.Lines

/-! # A diagnostic over its source line

Under the heading stands the line that the diagnostic's span lies in, between two rules whose bars
are in one column, and carets under the span. A span on no line of the source leaves the heading
alone. -/
namespace FrontEnd.Diagnostic

/-- The heading, with the tip in parentheses. -/
def heading (d : Diagnostic) : String :=
  match d.cause.tip? with
  | some tip => "Error: " ++ d.message ++ " (" ++ tip ++ ")\n"
  | none => "Error: " ++ d.message ++ "\n"

/-- The marks under a span: at least one caret, also for a span that holds nothing. -/
def carets (span : Span) : String :=
  Text.spaces span.start.toNat ++ String.ofList (List.replicate (max 1 span.width) '^')

def render (d : Diagnostic) (source : String) : String :=
  match Text.line? source d.span.line.toNat with
  | none => d.heading
  | some line =>
    let number := toString d.span.line.toNat
    let bar := Text.padLeft (number.length + 2) "|"
    d.heading ++ bar ++ "\n" ++ number ++ " | " ++ Text.trimEnd line ++ "\n" ++
      bar ++ " " ++ carets d.span ++ "\n"

end FrontEnd.Diagnostic
