import JavaAnalysis.Text.Range

/-!
# Line index

The line and the column of a byte offset, both counted from zero, the column in bytes. A line ends
with `\n`.
-/

set_option autoImplicit false

namespace JavaAnalysis

/-- A line and a column, both from zero, the column counted in bytes. -/
structure LineColumn where
  line : Nat
  column : Nat
deriving DecidableEq, Repr, Inhabited

namespace LineColumn

/-- Where a text ends that starts at the given place. -/
def advance (p : LineColumn) (cs : List Char) : LineColumn :=
  cs.foldl (fun p c => if c = '\n' then ⟨p.line + 1, 0⟩ else ⟨p.line, p.column + c.utf8Size⟩) p

/-- The place of a byte offset; `none` if it lies beyond the text or inside a character. -/
def ofOffset? (text : List Char) (offset : Nat) : Option LineColumn :=
  (splitAtOffset? text offset).map fun p => advance ⟨0, 0⟩ p.1

end LineColumn

end JavaAnalysis
