import JavaAnalysis.FileError
import JavaAnalysis.FrontEnd.Name
import JavaAnalysis.ParsedUnit

/-!
# Front-ends

A front-end reads files, one at a time or many at once, and may keep a state of its own between
files. A request to stop can come in while it works. When it reads many files it hands over each
one by its number as soon as the file is read, in any order and as often as it likes.
-/

set_option autoImplicit false

namespace JavaAnalysis

/-- What comes of reading one file. -/
structure Reading where
  result : Except FrontEndError ParsedUnit
  /-- A request to stop came in meanwhile. -/
  stops : Bool

/-- What happens while many files are read. -/
inductive BatchEvent where
  /-- The file of the given number is handed over. -/
  | accept (index : Nat) (parsed : ParsedUnit)
  /-- A request to stop comes in. -/
  | stop

/-- What comes of reading many files. -/
structure BatchReading where
  events : List BatchEvent
  /-- Why not all of them could be read. -/
  failure : Option FrontEndError

structure FrontEnd (σ : Type) where
  name : FrontEndName
  read : SourceInput → StateM σ Reading
  readAll : List SourceInput → StateM σ BatchReading

namespace FrontEnd

/-- Reads one file after the other, from the file numbered `i` on, up to the first failure. -/
def eachInTurn {σ : Type} (read : SourceInput → StateM σ Reading) :
    Nat → List SourceInput → StateM σ BatchReading
  | _, [] => return ⟨[], none⟩
  | i, input :: inputs => do
    let reading ← read input
    let before := if reading.stops then [.stop] else []
    match reading.result with
    | .error e => return ⟨before, some e⟩
    | .ok parsed =>
      let rest ← eachInTurn read (i + 1) inputs
      return ⟨before ++ .accept i parsed :: rest.events, rest.failure⟩

/-- Reads a file by parsing it, which never fails. -/
def parse (input : SourceInput) : Reading := ⟨.ok (ParsedUnit.ofInput input), false⟩

/-- The front-end that parses each file. -/
def standard : FrontEnd Unit where
  name := .standard
  read input := return parse input
  readAll := eachInTurn (fun input => return parse input) 0

end FrontEnd

end JavaAnalysis
