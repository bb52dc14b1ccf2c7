import JavaAnalysis.Text.Range

/-!
# Problems of a source file

What is found wrong or needless in a file when it is parsed and its names are bound.
-/

set_option autoImplicit false

namespace JavaAnalysis

inductive Severity where
  | error
  | warning
deriving DecidableEq, Repr, Inhabited

namespace Severity

def name : Severity → String
  | error => "Error"
  | warning => "Warning"

/-- The word at the head of a message. -/
def word : Severity → String
  | error => "error"
  | warning => "warning"

def ofWord? : String → Option Severity
  | "error" => some error
  | "warning" => some warning
  | _ => none

end Severity

inductive ProblemId where
  | syntaxError
  /-- A switch expression without a default case over a value of unknown type. -/
  | switchNotExhaustive
  | unresolvedType
  | unresolvedName
  | unresolvedMethod
  | unresolvedField
  | unusedImport
  | unusedLocal
  | unusedPrivateField
  | unusedPrivateMethod
  | unusedPrivateType
  | redundantCast
  | unusedLabel
  | deadCode
deriving DecidableEq, Repr, Inhabited

namespace ProblemId

def all : List ProblemId :=
  [syntaxError, switchNotExhaustive, unresolvedType, unresolvedName, unresolvedMethod,
    unresolvedField, unusedImport, unusedLocal, unusedPrivateField, unusedPrivateMethod,
    unusedPrivateType, redundantCast, unusedLabel, deadCode]

def name : ProblemId → String
  | syntaxError => "syntax-error"
  | switchNotExhaustive => "switch-not-exhaustive"
  | unresolvedType => "unresolved-type"
  | unresolvedName => "unresolved-name"
  | unresolvedMethod => "unresolved-method"
  | unresolvedField => "unresolved-field"
  | unusedImport => "unused-import"
  | unusedLocal => "unused-local"
  | unusedPrivateField => "unused-private-field"
  | unusedPrivateMethod => "unused-private-method"
  | unusedPrivateType => "unused-private-type"
  | redundantCast => "redundant-cast"
  | unusedLabel => "unused-label"
  | deadCode => "dead-code"

def ofName? (name : String) : Option ProblemId := all.find? fun id => id.name == name

end ProblemId

inductive ProblemCategory where
  | syntactic
  | typing
  | semantic
  | unnecessaryCode
deriving DecidableEq, Repr, Inhabited

namespace ProblemCategory

def all : List ProblemCategory := [syntactic, typing, semantic, unnecessaryCode]

def name : ProblemCategory → String
  | syntactic => "syntax"
  | typing => "type"
  | semantic => "semantic"
  | unnecessaryCode => "unnecessary-code"

def ofName? (name : String) : Option ProblemCategory := all.find? fun c => c.name == name

end ProblemCategory

structure Problem where
  id : ProblemId
  category : ProblemCategory
  severity : Severity
  message : String
  range : TextRange
deriving DecidableEq, Repr, Inhabited

namespace Problem

/-- The file cannot be read. -/
def syntactic (message : String) (range : TextRange) : Problem :=
  ⟨.syntaxError, .syntactic, .error, message, range⟩

/-- Something could be left out. -/
def unnecessary (id : ProblemId) (message : String) (range : TextRange) : Problem :=
  ⟨id, .unnecessaryCode, .warning, message, range⟩

def isError (p : Problem) : Bool := p.severity == .error

def render (p : Problem) : String := s!"{p.message} [{p.id.name}] at {p.range.render}"

end Problem

end JavaAnalysis
