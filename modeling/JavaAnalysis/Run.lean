import JavaAnalysis.Config
import JavaAnalysis.FrontEnd
import JavaAnalysis.SourceFile

/-!
# Runs over many files

A run gives one outcome for each file. Files are read all at once if the configuration says so;
those that the front-end has not handed over by then are read again one at a time. Once there is a
request to stop, no further file is started.
-/

set_option autoImplicit false

namespace JavaAnalysis

inductive FileOutcome where
  | converted (file : SourceFile)
  /-- The file has no tree; the others are not affected. -/
  | skipped (path : String) (error : FileError)
  /-- The run was stopped before the file. -/
  | cancelled (path : String)

namespace FileOutcome

def path : FileOutcome → String
  | converted file => file.path
  | skipped path _ => path
  | cancelled path => path

def ofResult (path : String) : Except FileError SourceFile → FileOutcome
  | .ok file => converted file
  | .error e => skipped path e

/-- The outcome of a file that was read. -/
def ofReading (policy : SyntaxPolicy) (input : SourceInput) :
    Except FrontEndError ParsedUnit → FileOutcome
  | .ok parsed => ofResult input.path (SourceFile.ofParsed input parsed policy)
  | .error e => skipped input.path (.frontEnd e)

end FileOutcome

/-- What happens in a run. -/
inductive RunEvent where
  /-- A request to stop comes in, or is noticed if it came in from elsewhere. -/
  | stop
  /-- A file is started, alone or since it was handed over, and gets its outcome. -/
  | start (index : Nat) (alone : Bool) (outcome : FileOutcome)

/-- What changes in the course of a run. -/
structure Progress (σ : Type) where
  frontEnd : σ
  cancelled : Bool
  /--
  How often the run can still ask whether to stop before a request to stop comes in from elsewhere,
  if one does. A request between two questions is one before the second of them.
  -/
  stopAfter : Option Nat
  /-- What has happened, in that order. -/
  history : List RunEvent
  /-- The number of files that were to be read again one at a time. -/
  reprocessed : Nat
deriving Inhabited

namespace Progress

variable {σ : Type}

/-- A run before its first file. -/
def start (frontEnd : σ) (cancelled : Bool) (stopAfter : Option Nat := none) : Progress σ :=
  ⟨frontEnd, cancelled, stopAfter, if cancelled then [.stop] else [], 0⟩

def happens (p : Progress σ) (e : RunEvent) : Progress σ := { p with history := p.history ++ [e] }

def stop (p : Progress σ) : Progress σ := { p with cancelled := true }.happens .stop

/-- The paths of files that were worked on, in the order of the first time. -/
def timed (p : Progress σ) : List String :=
  (p.history.filterMap fun
    | .start _ _ outcome => some outcome.path
    | .stop => none).eraseDups

end Progress

namespace Run

variable {σ : Type}

abbrev Step (σ α : Type) := StateM (Progress σ) α

/-- The outcomes so far, one place for each file. -/
abbrev Slots := List (Option FileOutcome)

/-- Asks whether to stop. -/
def isCancelled : Step σ Bool := do
  let p ← get
  match p.stopAfter with
  | none => return p.cancelled
  | some 0 =>
    set { p.stop with stopAfter := none }
    return true
  | some (n + 1) =>
    set { p with stopAfter := some n }
    return p.cancelled

def cancel : Step σ Unit := modify Progress.stop

/-- Notes that a file is worked on. -/
def note (index : Nat) (alone : Bool) (outcome : FileOutcome) : Step σ Unit :=
  modify fun p => p.happens (.start index alone outcome)

def countReprocessed : Step σ Unit := modify fun p => { p with reprocessed := p.reprocessed + 1 }

/-- Lets the front-end work on its own state. -/
def inFrontEnd {α : Type} (step : StateM σ α) : Step σ α := do
  let p ← get
  let (x, frontEnd) := step p.frontEnd
  set { p with frontEnd }
  return x

/-- Reads one file, unless the run is stopped. -/
def single (f : FrontEnd σ) (policy : SyntaxPolicy) (index : Nat) (input : SourceInput) :
    Step σ (Option FileOutcome) := do
  if ← isCancelled then return none
  else
    let reading ← inFrontEnd (f.read input)
    let outcome := FileOutcome.ofReading policy input reading.result
    note index true outcome
    if reading.stops then cancel
    return some outcome

/-- Reads one file after the other, from the one numbered `i` on. -/
def singles (f : FrontEnd σ) (policy : SyntaxPolicy) : Nat → List SourceInput → Step σ Slots
  | _, [] => return []
  | i, input :: inputs => do
    let outcome ← single f policy i input
    return outcome :: (← singles f policy (i + 1) inputs)

/-- What an event in the reading of many files changes. -/
def take (policy : SyntaxPolicy) (inputs : List SourceInput) (slots : Slots) :
    BatchEvent → Step σ Slots
  | .stop => do
    cancel
    return slots
  | .accept i parsed => do
    if ← isCancelled then return slots
    else
      match inputs[i]? with
      | none => return slots
      | some input =>
        let outcome := FileOutcome.ofReading policy input (.ok parsed)
        note i false outcome
        return slots.set i (some outcome)

/-- What all events in the reading of many files change. -/
def takeAll (policy : SyntaxPolicy) (inputs : List SourceInput) :
    Slots → List BatchEvent → Step σ Slots
  | slots, [] => return slots
  | slots, event :: events => do
    takeAll policy inputs (← take policy inputs slots event) events

/-- Reads the files again that have no outcome, from the file numbered `i` on. -/
def readMissing (f : FrontEnd σ) (policy : SyntaxPolicy) :
    Nat → List (SourceInput × Option FileOutcome) → Step σ Slots
  | _, [] => return []
  | i, (_, some outcome) :: rest => return some outcome :: (← readMissing f policy (i + 1) rest)
  | i, (input, none) :: rest => do
    if ← isCancelled then return none :: rest.map (·.2)
    else
      countReprocessed
      let outcome ← single f policy i input
      return outcome :: (← readMissing f policy (i + 1) rest)

/-- Reads all files at once, and those again that were left out. -/
def batch (f : FrontEnd σ) (policy : SyntaxPolicy) (inputs : List SourceInput) :
    Step σ Slots := do
  let reading ← inFrontEnd (f.readAll inputs)
  let slots ← takeAll policy inputs (inputs.map fun _ => none) reading.events
  if slots.all Option.isSome then return slots
  else if ← isCancelled then return slots
  else readMissing f policy 0 (inputs.zip slots)

/-- The problems that a run tolerates. -/
def policyOf (f : FrontEnd σ) (config : Config) : SyntaxPolicy :=
  .ofTables config.exceptions f.name

/-- The outcomes of all files, in the order of the files. -/
def analyze (f : FrontEnd σ) (config : Config) (inputs : List SourceInput) :
    Step σ (List FileOutcome) := do
  let slots ← match config.mode with
    | .batch => batch f (policyOf f config) inputs
    | .single => singles f (policyOf f config) 0 inputs
  return inputs.zipWith (fun input slot => slot.getD (.cancelled input.path)) slots

end Run

end JavaAnalysis
