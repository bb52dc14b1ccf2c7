import JavaAnalysis.FrontEnd

/-!
# Front-ends that follow a script

A front-end that parses files, but fails, leaves out files or stops the run where a script says so.
It serves to try out what a run does then. Its state is the number of files it has read singly.
-/

set_option autoImplicit false

namespace JavaAnalysis

structure Script where
  name : FrontEndName
  /-- Files that cannot be read singly. -/
  failPaths : List String
  /-- A request to stop comes in while the file of this number is read singly, from one on. -/
  stopOnRead : Option Nat
  /-- Reading many files fails at the file of this number. -/
  failAt : Option Nat
  /-- A request to stop comes in before the file of this number is handed over. -/
  stopOnAccept : Option Nat
  /-- Numbers of files that are not handed over. -/
  leaveOut : List Nat
  /-- Numbers under which the first file is handed over once more in the end. -/
  extra : List Nat
deriving DecidableEq, Repr, Inhabited

namespace Script

def read (s : Script) (input : SourceInput) : StateM Nat Reading := do
  let count := (← get) + 1
  set count
  let stops := s.stopOnRead == some count
  if s.failPaths.contains input.path then
    return ⟨.error (.failed input.path "scripted"), stops⟩
  else return ⟨.ok (ParsedUnit.ofInput input), stops⟩

/-- What is handed over when all files are read that there are. -/
def extraEvents (s : Script) : List SourceInput → List BatchEvent
  | [] => []
  | first :: _ => s.extra.map fun i => .accept i (ParsedUnit.ofInput first)

/-- What happens at one file. -/
def eventsAt (s : Script) (i : Nat) (input : SourceInput) : List BatchEvent :=
  (if s.stopOnAccept = some i then [.stop] else []) ++
    (if s.leaveOut.contains i then [] else [.accept i (ParsedUnit.ofInput input)])

/-- Reads files from the one numbered `i` on; the events in `atEnd` follow if nothing fails. -/
def readFrom (s : Script) (atEnd : List BatchEvent) : Nat → List SourceInput → BatchReading
  | _, [] => ⟨atEnd, none⟩
  | i, input :: inputs =>
    if s.failAt = some i then ⟨[], some (.batchAborted i "out of memory")⟩
    else
      let rest := readFrom s atEnd (i + 1) inputs
      ⟨s.eventsAt i input ++ rest.events, rest.failure⟩

def frontEnd (s : Script) : FrontEnd Nat where
  name := s.name
  read := s.read
  readAll inputs := return s.readFrom (s.extraEvents inputs) 0 inputs

end Script

end JavaAnalysis
