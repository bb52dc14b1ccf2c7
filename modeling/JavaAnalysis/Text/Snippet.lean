import JavaAnalysis.Text.Range
import JavaAnalysis.Text.Width

/-!
# Snippets of a source text

A snippet is the line of a source text that a range lies on, shown with marks under the range and a
label beside them. The range is expected to lie on one line, whose end it may include.

A row of a message is put together by writing texts at columns. What is written later replaces what
was there before, and columns that nothing was written to are blank. Each character has a role in
the message, and a style says how the roles look. Source lines that do not fit on the screen are
shown through a window, which is placed such that the marked range and its label are seen. Deep
indentation is cut even of lines that would fit.
-/

set_option autoImplicit false

namespace JavaAnalysis.SourceLine

/-- A line without the carriage return that may stand before its end. -/
def dropReturn (line : List Char) : List Char :=
  if line.getLast? = some '\r' then line.dropLast else line

/-- The lines of a text, without their ends. What follows the last end is a line if not empty. -/
def ofText (text : List Char) : List (List Char) :=
  let all := text.splitOn '\n'
  all.dropLast.map dropReturn ++ (all.getLast?.toList.filter fun line => !line.isEmpty)

/-- Characters that are left out, as they would join or turn around those beside them. -/
def isLeftOut (c : Char) : Bool :=
  c.val == 0x200D || (decide (0x202A ≤ c.val) && decide (c.val ≤ 0x202E))
    || (decide (0x2066 ≤ c.val) && decide (c.val ≤ 0x2069))

/-- A line as it is shown: a tab is four blanks. -/
def visible (line : List Char) : List Char :=
  (line.filter fun c => !isLeftOut c).flatMap fun c =>
    if c = '\t' then List.replicate 4 ' ' else [c]

/-- How far a line is indented. -/
def indent (line : List Char) : Nat :=
  (line.takeWhile CharClass.whiteSpace.contains).foldl
    (fun n c => n + if c = '\t' then 4 else 1) 0

end JavaAnalysis.SourceLine

namespace JavaAnalysis

/-! ## Rows of styled characters -/

/-- What a character stands for in a message. -/
inductive Role where
  /-- Source text, paths and blanks. -/
  | text
  /-- The severity word, the marks under a range and their label. -/
  | accent
  /-- The message itself. -/
  | strong
  /-- Arrows, bars, line numbers and ellipses. -/
  | frame
deriving DecidableEq, Repr, Inhabited

structure Cell where
  char : Char
  role : Role
deriving DecidableEq, Repr, Inhabited

namespace Cell

def blank : Cell := ⟨' ', .text⟩

end Cell

/-- The cells of a row, from its first column on. -/
structure StyledRow where
  cells : List Cell
deriving DecidableEq, Repr, Inhabited

namespace StyledRow

def empty : StyledRow := ⟨[]⟩

/-- Writes a text over what is in a row from a column on. -/
def write (row : StyledRow) (column : Nat) (role : Role) (text : List Char) : StyledRow :=
  if text.isEmpty then row
  else
    let before := row.cells.take column
    let gap := List.replicate (column - row.cells.length) Cell.blank
    let after := row.cells.drop (column + text.length)
    ⟨before ++ gap ++ text.map (⟨·, role⟩) ++ after⟩

/-- Writes a text behind the end of a row. -/
def append (row : StyledRow) (role : Role) (text : List Char) : StyledRow :=
  ⟨row.cells ++ text.map (⟨·, role⟩)⟩

/-- The text of a row where `style` is applied to each run of characters of one role. -/
def render (row : StyledRow) (style : Role → String → String) : String :=
  let runs := row.cells.splitBy fun a b => a.role == b.role
  runs.foldl (fun out run =>
    out ++ style (run.head?.getD .blank).role (String.ofList (run.map Cell.char))) ""

end StyledRow

/-! ## The part of long lines that is shown -/

/-- What a window has to show of some lines. Offsets count from the start of a line. -/
structure Extent where
  /-- The indentation that all lines have. -/
  indent : Nat
  /-- The first column of the marked range. -/
  start : Nat
  /-- The column behind the marked range. -/
  stop : Nat
  /-- The column behind the label, which follows the range. -/
  labelStop : Nat
  /-- The length of the longest line. -/
  longest : Nat
deriving DecidableEq, Repr, Inhabited

/-- A part of the lines; the number of columns that there is room for is `room`. -/
structure Window where
  left : Nat
  right : Nat
  room : Nat
deriving DecidableEq, Repr, Inhabited

namespace Window

/-- The room that is left around what has to be seen. -/
def padding : Nat := 6

/-- Indentation up to this is kept if the lines fit. -/
def deepIndent : Nat := 20

/-- The indentation that is kept, beside the padding, where the rest is cut. -/
def keptIndent : Nat := 4

/--
The window for some lines. If they are too long without deep indentation, it shows what follows the
indentation, if that holds the range and its label; else the two in the middle, or the range alone.
-/
def fit (room : Nat) (e : Extent) : Window :=
  let indent := e.indent - padding
  let start := e.start - padding
  let stop := e.stop + padding
  let labelStop := e.labelStop + padding
  let left := if deepIndent < indent then indent - (deepIndent - keptIndent) else 0
  if max e.longest left - left ≤ room then ⟨left, max e.longest left, room⟩
  else if indent ≤ labelStop ∧ labelStop - indent ≤ room then ⟨indent, indent + room, room⟩
  else if labelStop - start ≤ room then
    let left := start - (room - (labelStop - start)) / 2
    ⟨left, left + room, room⟩
  else if stop - start ≤ room then
    let left := start - (room - (stop - start)) / 5 * 2
    ⟨left, left + room, room⟩
  else ⟨start, stop, room⟩

/-- Something is cut off in front of the window. -/
def cutsLeft (w : Window) : Bool := decide (0 < w.left)

/-- Where the window starts in a line of the given length. -/
def leftOf (w : Window) (length : Nat) : Nat := min w.left length

/-- Where the window ends in a line of the given length. -/
def rightOf (w : Window) (length : Nat) : Nat :=
  if length - w.left ≤ w.room then length else min length w.right

end Window

/-! ## Snippets -/

/-- The lines of a source that a message is about, the first of which it marks. -/
structure Snippet where
  /-- The number of the first line, from 1. -/
  number : Nat
  /-- What stands in front of the marked range in its line. -/
  before : List Char
  /-- The marked range. -/
  marked : List Char
  /-- The first line and those up to the end of the range. -/
  lines : List (List Char)
deriving DecidableEq, Repr, Inhabited

namespace Snippet

/-- The width of a screen, which the number of a line and its bar leave less of. -/
def screen : Nat := 140

/-- The part of a text that a range lies in. An empty line of a text has no snippet. -/
def ofText (text : List Char) (range : TextRange) : Snippet :=
  let (above, rest) := (splitAtOffset? text range.start).getD (text, [])
  let (marked, after) := (splitAtOffset? rest range.length).getD (rest, [])
  let before := (above.reverse.takeWhile (· != '\n')).reverse
  { number := (above.filter (· == '\n')).length + 1
    before
    marked
    lines := SourceLine.ofText (before ++ marked ++ after.takeWhile (· != '\n')) }

/-- The columns of the range. At least one is marked. -/
def columns (s : Snippet) : Nat × Nat :=
  let start := columnsOf 0 s.before
  (start, max (start + 1) (columnsOf 0 (s.before ++ s.marked)))

/-- The window through which the lines are shown with a label. -/
def window (s : Snippet) (label : String) : Window :=
  let (start, stop) := s.columns
  let digits := (toString (s.number + s.lines.length)).length
  .fit (screen - (digits + 3))
    { indent := ((s.lines.map SourceLine.indent).min?).getD 0
      start
      stop
      labelStop := stop + label.utf8ByteSize + 1
      longest := ((s.lines.map utf8Length).max?).getD 0 }

/-- What fits of a text on some columns, how many it takes, and whether that is not all of it. -/
def fitting (room taken : Nat) : List Char → List Char × Nat × Bool
  | [] => ([], taken, false)
  | c :: cs =>
    let next := taken + (columns? c).getD 1
    if room < next then ([], taken, true)
    else
      let (shown, width, cut) := fitting room next cs
      (c :: shown, width, cut)

/-- The row of a line as seen through a window, written from a column on. -/
def codeRow (row : StyledRow) (offset : Nat) (w : Window) (line : List Char) : StyledRow :=
  let code := SourceLine.visible line
  let left := w.leftOf (utf8Length code)
  let (shown, width, cut) := fitting (w.rightOf (utf8Length code) - left) 0 (code.drop left)
  let row := row.write offset .text shown
  let row := if w.cutsLeft then row.write offset .frame "...".toList else row
  if cut then row.write (offset + width - 3) .frame "...".toList else row

/-- The row of the marks and their label below a line. -/
def markRow (s : Snippet) (row : StyledRow) (offset : Nat) (w : Window) (line : List Char)
    (mark : Char) (label : String) : StyledRow :=
  let code := SourceLine.visible line
  let left := columnsOf 1 (code.take (w.leftOf (utf8Length code)))
  let (start, stop) := s.columns
  let row := row.write (offset + (stop + 1 - left)) .accent label.toList
  let first := offset + start - left
  let last := offset + (stop - 1) - left
  row.write first .accent (List.replicate (last - first + 1) mark)

end Snippet

end JavaAnalysis
