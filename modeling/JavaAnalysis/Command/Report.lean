import JavaAnalysis.Diagnostic
import JavaAnalysis.Run
import JavaAnalysis.Text.LineIndex

/-!
# Reports on analyzed files

What is printed of the outcomes of a run: the messages about each file with a summary of all of
them, or the trees of the files.
-/

set_option autoImplicit false

namespace JavaAnalysis

namespace Warning

def diagnostic (w : Warning) : Diagnostic := ⟨.warning, w.message, w.range, w.category.name⟩

end Warning

namespace Problem

/-- The problem as a message that keeps something from being known. -/
def diagnostic (p : Problem) : Diagnostic := ⟨.error, p.message, p.range, p.id.name⟩

end Problem

/-- The messages about a file, in the order of the text. -/
def SourceFile.diagnostics (f : SourceFile) : List Diagnostic :=
  (f.warnings.map Warning.diagnostic ++ f.semanticErrors.map Problem.diagnostic).mergeSort
    fun a b => decide (a.range.start ≤ b.range.start)

/-- How many files and messages a report is about. -/
structure Summary where
  files : Nat
  warnings : Nat
  errors : Nat
  skipped : Nat
  cancelled : Nat
deriving DecidableEq, Repr, Inhabited

namespace Summary

def empty : Summary := ⟨0, 0, 0, 0, 0⟩

/-- Counts one more file. -/
def add (s : Summary) : FileOutcome → Summary
  | .converted file =>
    { s with
      files := s.files + 1
      warnings := s.warnings + file.warnings.length
      errors := s.errors + file.semanticErrors.length }
  | .skipped _ _ => { s with files := s.files + 1, skipped := s.skipped + 1 }
  | .cancelled _ => { s with files := s.files + 1, cancelled := s.cancelled + 1 }

def ofOutcomes (outcomes : List FileOutcome) : Summary := outcomes.foldl add empty

def render (s : Summary) : String :=
  let counts :=
    s!"{s.files} files: {s.warnings} warnings, {s.errors} semantic errors, {s.skipped} skipped"
  if s.cancelled = 0 then counts else counts ++ s!", {s.cancelled} cancelled"

end Summary

namespace Report

/-- A message on one line. -/
def shortLine (path text : String) (d : Diagnostic) : String :=
  let place := (LineColumn.ofOffset? text.toList d.range.start).getD ⟨0, 0⟩
  s!"{path}:{place.line + 1}:{place.column + 1}: {d.severity.word}: {d.message}"

/-- A message as it is shown, short or with the source. -/
def messageLines (short : Bool) (path text : String) (d : Diagnostic) : List String :=
  if short then [shortLine path text d] else d.render .terminal path text

/-- The messages about the outcome for a file. -/
def outcomeLines (short : Bool) (input : SourceInput) : FileOutcome → List String
  | .converted file => file.diagnostics.flatMap (messageLines short input.path input.text)
  | .skipped _ error =>
    match error.range? with
    | none => [s!"error: {input.path}: file skipped: {error.message}"]
    | some range =>
      let message := s!"file skipped: {error.message}"
      messageLines short input.path input.text ⟨.error, message, range, "here"⟩
  | .cancelled _ => []

/-- All messages and the summary. -/
def check (short : Bool) (inputs : List SourceInput) (outcomes : List FileOutcome) :
    List String :=
  (inputs.zipWith (outcomeLines short) outcomes).flatten ++
    [(Summary.ofOutcomes outcomes).render]

/-- A declaration with what it declares and where that is used. -/
def symbolLine (file : SourceFile) (id : BindingId) (node : NodeId) : String :=
  let m := file.semantic
  let kind := match m.bindings.kind? id with
    | some kind => s!" ({kind.name})"
    | none => ""
  let usages := (m.usages id).map file.tree.renderPosition
  let places := if usages.isEmpty then "" else " used at " ++ ", ".intercalate usages
  file.tree.renderPosition node ++ " " ++ m.bindings.name id ++ kind ++ places

/-- The tree of a file, and what it declares if `symbols` says so. -/
def treeLines (symbols : Bool) : FileOutcome → List String
  | .converted file =>
    let declared := if symbols then
        file.semantic.declaredNodes.map fun d => symbolLine file d.1 d.2
      else []
    s!"// {file.path}" :: file.tree.dump ++ declared
  | .skipped path error => [s!"// {path}: skipped: {error.message}"]
  | .cancelled path => [s!"// {path}: cancelled"]

/-- The trees of all files. -/
def dump (symbols : Bool) (outcomes : List FileOutcome) : List String :=
  outcomes.flatMap (treeLines symbols)

end Report

end JavaAnalysis
