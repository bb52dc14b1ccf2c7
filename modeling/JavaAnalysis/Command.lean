import JavaAnalysis.Command.Arguments
import JavaAnalysis.Command.Report
import JavaAnalysis.Files

/-!
# The command line

A command reads its configuration and its files, analyzes the files, and prints a report. It works
on any file system.
-/

set_option autoImplicit false

namespace JavaAnalysis.Command

/-- What a command prints, and the code that it ends with. -/
structure Output where
  exitCode : Nat
  out : List String
  err : List String
deriving DecidableEq, Repr, Inhabited

/-- Why a command cannot start, with the causes, each caused by the next. -/
structure Failure where
  message : String
  causes : List String
deriving DecidableEq, Repr, Inhabited

namespace Failure

/-- The causes are numbered if there are several. -/
def causeLines : List String → List String
  | [] => []
  | [cause] => ["", "Caused by:", "    " ++ cause]
  | causes =>
    let numbered := causes.zipIdx.map fun c => s!"    {c.2}: {c.1}"
    "" :: "Caused by:" :: numbered

def lines (f : Failure) : List String := s!"Error: {f.message}" :: causeLines f.causes

end Failure

/-- The configuration that is used if the working directory has it and no other is named. -/
def configName : String := "javelin.toml"

variable {m : Type → Type} [Monad m] (fs : FileSystem m)

def loadConfig (path : String) : ExceptT Failure m Config := do
  let context := s!"failed to load `{path}`"
  match ← fs.read path with
  | .error fault => throw ⟨context, [s!"failed to read `{path}`", fault.message]⟩
  | .ok text =>
    match Config.ofString? text with
    | some config => return config
    | none => throw ⟨context, ["invalid configuration"]⟩

/-- The configuration of a run, as far as options do not say otherwise. -/
def baseConfig (inputs : Inputs) : ExceptT Failure m Config := do
  match inputs.config with
  | some path => loadConfig fs path
  | none => if ← fs.isFile configName then loadConfig fs configName else return .standard

def configOf (inputs : Inputs) : ExceptT Failure m Config := do
  let config ← baseConfig fs inputs
  return { config with
    level := inputs.level.getD config.level, mode := inputs.mode.getD config.mode }

/-- A path, or the source files below it if it is a directory. -/
def expand (path : String) : ExceptT Failure m (List String) := do
  if ← fs.isDirectory path then
    match ← (fs.filesBelow "java" path).run with
    | .ok paths => return paths
    | .error (place, fault) =>
      throw ⟨s!"failed to search `{path}`",
        [s!"IO error for operation on {place}: {fault.message}", fault.message]⟩
  else return [path]

def readFile (level : LanguageLevel) (path : String) : ExceptT Failure m SourceInput := do
  match ← fs.read path with
  | .ok text => return ⟨path, text, level⟩
  | .error fault => throw ⟨s!"failed to read `{path}`", [fault.message]⟩

/-- The outcomes for the files that are named. -/
def analyze (inputs : Inputs) : ExceptT Failure m (List SourceInput × List FileOutcome) := do
  let config ← configOf fs inputs
  let paths := (← inputs.paths.mapM (expand fs)).flatten
  let files ← paths.mapM (readFile fs config.level)
  let (outcomes, _) := (Run.analyze FrontEnd.standard config files).run (.start () false)
  return (files, outcomes)

/-- The output of a task. A check fails if files were skipped. -/
def report (task : Task) (flag : Bool) (files : List SourceInput) (outcomes : List FileOutcome) :
    Output :=
  match task with
  | .check =>
    let skipped := (Summary.ofOutcomes outcomes).skipped
    ⟨if skipped = 0 then 0 else 1, [], Report.check flag files outcomes⟩
  | .dump => ⟨0, Report.dump flag outcomes, []⟩

/-- Does what the arguments ask for. -/
def run (arguments : List String) : m Output := do
  match parse arguments with
  | .error error => return ⟨2, [], usageLines error⟩
  | .ok (.help task) => return ⟨0, help task, []⟩
  | .ok .version => return ⟨0, [versionLine], []⟩
  | .ok (.run task inputs flag) =>
    match ← (analyze fs inputs).run with
    | .ok (files, outcomes) => return report task flag files outcomes
    | .error failure => return ⟨1, [], failure.lines⟩

end JavaAnalysis.Command
