import JavaAnalysis.Level
import JavaAnalysis.Policy
import JavaAnalysis.Toml.Document

/-!
# Configuration of a run

A configuration is written as a TOML document. What it does not mention keeps its standard value,
and a key that is not known makes it invalid.
-/

set_option autoImplicit false

namespace JavaAnalysis

/-- How files are handed to the front-end: all at once or one at a time. -/
inductive Mode where
  | batch
  | single
deriving DecidableEq, Repr, Inhabited

namespace Mode

def name : Mode → String
  | batch => "batch"
  | single => "single"

def ofName? : String → Option Mode
  | "batch" => some batch
  | "single" => some single
  | _ => none

/-- What is reported of a text that names no mode. -/
def invalidMessage (s : String) : String :=
  s!"unknown mode `{s}`, expected `batch` or `single`"

end Mode

structure Config where
  level : LanguageLevel
  mode : Mode
  exceptions : List ExceptionTable
deriving DecidableEq, Repr, Inhabited

namespace Config

/-- What holds where nothing else is said. -/
def standard : Config := ⟨.standard, .batch, [.standard]⟩

/-- The name that a value stands for: a text, or a table of one key over nothing. -/
def name? : Toml → Option String
  | .string s => some s
  | .table _ [(key, .table _ [])] => some key
  | .table _ [(key, .array [])] => some key
  | _ => none

/-- A language level is a number or a text. -/
def level? : Toml → Option LanguageLevel
  | .integer i => if 0 ≤ i ∧ i ≤ LanguageLevel.maxMajor then some ⟨i.toNat⟩ else none
  | .string s => LanguageLevel.ofString? s
  | _ => none

def ignored? (value : Toml) : Option (List ProblemId) := do
  (← value.items?).mapM fun item => do ProblemId.ofName? (← name? item)

/-- The value of a field that need not be there, or `standard` if it is not. -/
def fieldOr {α : Type} (read : Toml → Option α) (standard : α) : Option Toml → Option α
  | none => some standard
  | some value => read value

/-- A table of exceptions from its fields. -/
def exceptionTable? (frontEnd version ignored : Option Toml) : Option ExceptionTable := do
  return {
    frontEnd := ← (← frontEnd).string?
    version := ← fieldOr Toml.string? ExceptionTable.anyVersion version
    ignored := ← fieldOr ignored? [] ignored }

/-- A table of exceptions has its fields by name, or in their order. -/
def exceptions? (value : Toml) : Option ExceptionTable :=
  match value.entries?, value.items? with
  | some entries, _ =>
    exceptionTable? (entries.lookup "front_end") (entries.lookup "version")
      (entries.lookup "ignored")
  | none, some items => exceptionTable? items[0]? items[1]? items[2]?
  | none, none => none

/-- The keys of a configuration. -/
def keys : List String := ["language_level", "mode", "exceptions"]

/-- The configuration that a table describes. -/
def ofEntries? (entries : Toml.Entries) : Option Config := do
  if entries.any fun e => !keys.contains e.1 then none
  return {
    level := ← fieldOr level? standard.level (entries.lookup "language_level")
    mode := ← fieldOr (fun v => do Mode.ofName? (← name? v)) standard.mode (entries.lookup "mode")
    exceptions := ← fieldOr (fun v => do (← v.items?).mapM exceptions?) standard.exceptions
      (entries.lookup "exceptions") }

/-- The configuration that a document describes. -/
def ofString? (s : String) : Option Config := do ofEntries? (← Toml.ofString? s)

end Config

end JavaAnalysis
