import JavaAnalysis.Text.Range

/-!
# Text edits

An edit replaces a range of a text. Edits that do not overlap can be applied together, in any
order of the list.
-/

set_option autoImplicit false

namespace JavaAnalysis

/-- Puts `replacement` in the place of `range`. -/
structure TextEdit where
  range : TextRange
  replacement : String
deriving DecidableEq, Repr, Inhabited

/-- Why a list of edits cannot be applied to a text. -/
inductive EditError where
  | outOfBounds (range : TextRange) (length : Nat)
  | notCharBoundary (offset : Nat)
  | overlapping (first second : TextRange)
deriving DecidableEq, Repr

def EditError.message : EditError → String
  | .outOfBounds range length =>
    s!"edit range {range.render} is out of bounds for text length {length}"
  | .notCharBoundary offset => s!"offset {offset} is not on a character boundary"
  | .overlapping first second => s!"edits {first.render} and {second.render} overlap"

namespace TextEdit

/-- Puts text in at an offset. -/
def insertion (offset : Nat) (text : String) : TextEdit := ⟨.empty offset, text⟩

/-- Takes the text of a range out. -/
def deletion (range : TextRange) : TextEdit := ⟨range, ""⟩

/-- Edits are applied from left to right. -/
def before (a b : TextEdit) : Bool :=
  decide (a.range.start < b.range.start) ||
    (a.range.start == b.range.start && decide (a.range.stop ≤ b.range.stop))

/-- Both ends of the edit must lie between two characters of the text. -/
def check (text : List Char) (e : TextEdit) : Except EditError Unit :=
  let length := utf8Length text
  if length < e.range.stop then .error (.outOfBounds e.range length)
  else if (splitAtOffset? text e.range.start).isNone then .error (.notCharBoundary e.range.start)
  else if (splitAtOffset? text e.range.stop).isNone then .error (.notCharBoundary e.range.stop)
  else .ok ()

/-- Two ranges clash if they share text, or if both are empty at one offset. -/
def clash (a b : TextRange) : Bool := decide (b.start < a.stop) || (a.isEmpty && a == b)

/-- Refuses the first two neighbours of a sorted list that clash. -/
def checkNeighbours : List TextEdit → Except EditError Unit
  | a :: b :: rest =>
    if clash a.range b.range then .error (.overlapping a.range b.range)
    else checkNeighbours (b :: rest)
  | _ => .ok ()

/-- The rest of a text from `offset` on, with sorted edits in place. -/
def splice (offset : Nat) (text : List Char) : List TextEdit → List Char
  | [] => text
  | e :: es =>
    let (kept, rest) := (splitAtOffset? text (e.range.start - offset)).getD (text, [])
    let (_, rest) := (splitAtOffset? rest e.range.length).getD (rest, [])
    kept ++ e.replacement.toList ++ splice e.range.stop rest es

/-- The text with all edits in place. -/
def applyAll (text : String) (edits : List TextEdit) : Except EditError String := do
  let sorted := edits.mergeSort before
  sorted.forM (check text.toList)
  checkNeighbours sorted
  return String.ofList (splice 0 text.toList sorted)

end TextEdit

end JavaAnalysis
