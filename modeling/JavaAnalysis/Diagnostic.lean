import JavaAnalysis.Problem
import JavaAnalysis.Text.Snippet

/-!
# Messages about a source text

A message is shown with its place in a file and the line of the source that it is about.
-/

set_option autoImplicit false

namespace JavaAnalysis

/-- What underlines the range of a message. -/
def Severity.mark : Severity → Char
  | .error => '^'
  | .warning => '-'

/-- A message about a range of a source text. -/
structure Diagnostic where
  severity : Severity
  message : String
  range : TextRange
  label : String
deriving DecidableEq, Repr, Inhabited

/-- How the parts of a message look, depending on its severity. -/
structure MessageStyle where
  apply : Severity → Role → String → String

namespace MessageStyle

/-- No styling. -/
def plain : MessageStyle := ⟨fun _ _ s => s⟩

/-- A terminal escape sequence for the given attribute. -/
def escape (code : String) : String := "\x1b[" ++ code ++ "m"

/-- Bold text, errors in red, warnings in yellow and the frame in blue. -/
def terminal : MessageStyle where
  apply severity role s :=
    let colour := match severity with
      | .error => "91"
      | .warning => "33"
    match role with
    | .text => s
    | .accent => escape "1" ++ escape colour ++ s ++ escape "0"
    | .strong => escape "1" ++ s ++ escape "0"
    | .frame => escape "1" ++ escape "94" ++ s ++ escape "0"

end MessageStyle

namespace Diagnostic

/-- The first row of a message, which may have no text. -/
def headerRow (d : Diagnostic) : StyledRow :=
  let word := StyledRow.empty.append .accent d.severity.word.toList
  if d.message.isEmpty then word
  else (word.append .text ": ".toList).append .strong d.message.toList

/-- The row that says where in the file at a path a message belongs. -/
def placeRow (path : String) (margin line column : Nat) : StyledRow :=
  let arrow := StyledRow.empty.write margin .frame "-->".toList
  (arrow.write (margin + 4) .text path.toList).append .text s!":{line}:{column}".toList

/-- The row that holds nothing but the bar. -/
def barRow (margin : Nat) : StyledRow := StyledRow.empty.write (margin + 1) .frame ['|']

/-- The rows of a message. If its range is on an empty line, no source is shown. -/
def rows (d : Diagnostic) (path : String) (s : Snippet) : List StyledRow :=
  match s.lines with
  | [] => [d.headerRow, placeRow path 0 1 1, barRow 0, barRow 0]
  | line :: _ =>
    let number := toString s.number
    let margin := number.length
    let offset := margin + 3
    let w := s.window d.label
    let numberRow := StyledRow.empty.write 0 .frame (number ++ " |").toList
    [d.headerRow,
      placeRow path margin s.number ((s.before.take line.length).length + 1),
      barRow margin,
      Snippet.codeRow numberRow offset w line,
      s.markRow (barRow margin) offset w line d.severity.mark d.label,
      barRow margin]

/-- The message as lines of output. -/
def render (d : Diagnostic) (style : MessageStyle) (path text : String) : List String :=
  (d.rows path (.ofText text.toList d.range)).flatMap fun row =>
    ((row.render (style.apply d.severity)).toList.splitOn '\n').map fun line =>
      String.ofList (SourceLine.dropReturn line)

end Diagnostic

end JavaAnalysis
