import JavaAnalysis.Lexeme
import JavaAnalysis.Lexeme.Scan
import JavaAnalysis.Parser.Unit
import JavaAnalysis.Unnecessary

/-!
# Parsed files

What is known of a file once it is parsed and its names are bound. A text that cannot be parsed
gives a file that declares nothing, with the reason as its only problem.
-/

set_option autoImplicit false

namespace JavaAnalysis

structure SourceInput where
  path : String
  text : String
  level : LanguageLevel
deriving DecidableEq, Repr, Inhabited

structure ParsedUnit where
  unit : Ast.CompilationUnit
  resolution : Resolution
  problems : List Problem

namespace ParsedUnit

def bindings (p : ParsedUnit) : Bindings := p.resolution.bindings

/-- A file that could not be parsed: it declares nothing and has one problem. -/
def rejected (length : Nat) (problem : Problem) : ParsedUnit :=
  ⟨.blank length, .blank, [problem]⟩

/-- Parses a text and binds its names. -/
def ofText (level : LanguageLevel) (text : String) : ParsedUnit :=
  match Lexeme.scan level text with
  | .error e => rejected text.utf8ByteSize (.syntactic e.fault.message (.empty e.offset))
  | .ok lexemes =>
    match Parser.parse level lexemes with
    | .error e => rejected text.utf8ByteSize (.syntactic e.message e.range)
    | .ok unit =>
      let resolution := Resolution.ofUnit unit
      ⟨unit, resolution, resolution.problems ++ resolution.unnecessary unit⟩

def ofInput (input : SourceInput) : ParsedUnit := ofText input.level input.text

end ParsedUnit

end JavaAnalysis
