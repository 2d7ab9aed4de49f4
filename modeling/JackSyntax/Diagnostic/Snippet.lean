import JackSyntax.Diagnostic.Basic
import JackSyntax.Text.Lines

/-!
# Diagnostics as text

A diagnostic is written in five lines: the message, the place, an empty gutter, the line at fault
behind its number, and carets below the part at fault. A span that ends on another line is
underlined through the end of the line it starts on; there is always at least one caret. Spans may
lie outside their text, where the line shown is empty.
-/

namespace JackSyntax

namespace Diagnostic

/-- The displayed line on which the span starts, without its end. -/
def shownText (d : Diagnostic) : List Char :=
  match d.span.start.line - 1 with
  | .ofNat index => ((displayLines d.source.text.toList)[index]?.map shownLine).getD []
  | .negSucc _ => []

/-- How many carets there are. -/
def caretCount (d : Diagnostic) : Nat :=
  let start := d.span.start
  let stop := d.span.stop
  let covered :=
    if stop.line = start.line then stop.column - start.column
    else d.shownText.length - start.column + 1
  (max 1 covered).toNat

/-- So many copies of a character. -/
def repeated (c : Char) (count : Nat) : String :=
  String.ofList (List.replicate count c)

/-- The diagnostic in five lines, under the given name for its source. -/
def format (d : Diagnostic) (name : String) : String :=
  let start := d.span.start
  let number := toString start.line
  -- As wide as the number and the space after it, so that the bars stand below each other.
  let gutter := repeated ' ' (number.length + 1)
  let underline := repeated ' ' (start.column - 1).toNat ++ repeated '^' d.caretCount
  "error: " ++ d.message ++ "\n" ++
    gutter ++ "--> " ++ name ++ ":" ++ number ++ ":" ++ toString start.column ++ "\n" ++
    gutter ++ "|\n" ++
    number ++ " | " ++ String.ofList d.shownText ++ "\n" ++
    gutter ++ "| " ++ underline

/-- The diagnostic in five lines. -/
def text (d : Diagnostic) : String :=
  d.format d.source.name

end Diagnostic

end JackSyntax
