/-!
# Places in a text

A place in a source text is a byte offset into its UTF-8 form, and a range is a half-open
interval of such offsets. This module holds the type, its order relations and its written form. A
position counts lines from one and columns from zero, a column being one character.
-/

set_option autoImplicit false

namespace JavaAnalysis

/-- The bytes from `start` up to, not including, `stop`. -/
structure TextRange where
  start : Nat
  stop : Nat
deriving DecidableEq, Repr, Inhabited

namespace TextRange

/-- The range that holds no byte and lies at `offset`. -/
def empty (offset : Nat) : TextRange := ⟨offset, offset⟩

/-- The range of the first `length` bytes. -/
def upTo (length : Nat) : TextRange := ⟨0, length⟩

def isEmpty (r : TextRange) : Bool := r.start == r.stop

def length (r : TextRange) : Nat := r.stop - r.start

/-- Every byte of `inner` lies in `outer`. -/
def contains (outer inner : TextRange) : Bool :=
  decide (outer.start ≤ inner.start) && decide (inner.stop ≤ outer.stop)

/-- The smallest range that contains both. -/
def cover (a b : TextRange) : TextRange := ⟨min a.start b.start, max a.stop b.stop⟩

/-- A range is written as its two ends with two dots between them. -/
def render (r : TextRange) : String := s!"{r.start}..{r.stop}"

theorem contains_iff (outer inner : TextRange) :
    outer.contains inner = true ↔ outer.start ≤ inner.start ∧ inner.stop ≤ outer.stop := by
  simp [contains]

theorem contains_refl (r : TextRange) : r.contains r = true := by simp [contains]

theorem contains_trans {a b c : TextRange} (hab : a.contains b = true)
    (hbc : b.contains c = true) : a.contains c = true := by
  simp only [contains_iff] at *
  omega

theorem contains_cover_left (a b : TextRange) : (a.cover b).contains a = true := by
  simp only [contains_iff, cover]
  omega

theorem contains_cover_right (a b : TextRange) : (a.cover b).contains b = true := by
  simp only [contains_iff, cover]
  omega

end TextRange

/-- The number of bytes that a list of characters takes in UTF-8. -/
def utf8Length : List Char → Nat
  | [] => 0
  | c :: cs => c.utf8Size + utf8Length cs

theorem utf8Length_append (a b : List Char) :
    utf8Length (a ++ b) = utf8Length a + utf8Length b := by
  induction a with
  | nil => simp [utf8Length]
  | cons c cs ih => simp [utf8Length, ih, Nat.add_assoc]

/-- Splits a text at a byte offset; `none` if it is beyond the text or inside a character. -/
def splitAtOffset? : List Char → Nat → Option (List Char × List Char)
  | cs, 0 => some ([], cs)
  | [], _ + 1 => none
  | c :: cs, n + 1 =>
    if c.utf8Size ≤ n + 1 then
      (splitAtOffset? cs (n + 1 - c.utf8Size)).map fun p => (c :: p.1, p.2)
    else none

theorem splitAtOffset?_eq_some {cs : List Char} {n : Nat} {p : List Char × List Char}
    (h : splitAtOffset? cs n = some p) : p.1 ++ p.2 = cs ∧ utf8Length p.1 = n := by
  induction cs generalizing n p with
  | nil =>
    cases n with
    | zero => simp [splitAtOffset?] at h; subst h; simp [utf8Length]
    | succ n => simp [splitAtOffset?] at h
  | cons c cs ih =>
    cases n with
    | zero => simp [splitAtOffset?] at h; subst h; simp [utf8Length]
    | succ n =>
      simp only [splitAtOffset?] at h
      split at h
      · obtain ⟨q, hq, rfl⟩ := Option.map_eq_some_iff.1 h
        obtain ⟨h1, h2⟩ := ih hq
        constructor
        · simp [h1]
        · simp only [utf8Length]
          omega
      · simp at h

/-- The characters of a range, when both of its ends lie between characters. -/
def slice? (cs : List Char) (r : TextRange) : Option (List Char) := do
  let (_, rest) ← splitAtOffset? cs r.start
  let (inside, _) ← splitAtOffset? rest (r.stop - r.start)
  return inside

/-! ## Positions -/

structure Position where
  line : Nat
  column : Nat
deriving DecidableEq, Repr, Inhabited

namespace Position

/-- The position of the first character of a text. -/
def start : Position := ⟨1, 0⟩

/-- The position after one character that does not end a line. -/
def nextColumn (p : Position) : Position := { p with column := p.column + 1 }

/-- The position at the head of the next line. -/
def nextLine (p : Position) : Position := ⟨p.line + 1, 0⟩

/--
The position after the given characters. A line ends with `\n`, with `\r\n`, or with an `\r` that
stands alone.
-/
def advance (p : Position) : List Char → Position
  | [] => p
  | '\r' :: '\n' :: cs => advance p.nextLine cs
  | c :: cs => if c = '\n' ∨ c = '\r' then advance p.nextLine cs else advance p.nextColumn cs

/-- A position is written as its line and its column with a colon between them. -/
def render (p : Position) : String := s!"{p.line}:{p.column}"

@[simp] theorem advance_nil (p : Position) : p.advance [] = p := rfl

end Position

end JavaAnalysis
