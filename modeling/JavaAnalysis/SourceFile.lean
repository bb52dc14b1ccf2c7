import JavaAnalysis.Layout.Tree
import JavaAnalysis.ParsedUnit
import JavaAnalysis.Policy
import JavaAnalysis.Semantics.Model
import JavaAnalysis.Warning

/-!
# Analyzed files

All that is known of a file: its tree, its semantic model, its warnings, and what is wrong with its
names and types. A file is rejected at the first problem that is not tolerated.
-/

set_option autoImplicit false

namespace JavaAnalysis

open Ast

/-- Where a list of type arguments or type parameters ends that is part of the given part. -/
def Ast.Part.split? : Part → Option Nat
  | .type (.mk _ _ _ _ range _ _ _ _ _ _ _) => range.map (·.stop)
  | .method (.mk _ _ range _ _ _ _ _ _ _ _ _) => range.map (·.stop)
  | .expr (.methodCall _ _ range _ _ _ _) => range.map (·.stop)
  | .typeRef (.named _ _ _ range _) => range.map (·.stop)
  | _ => none

/-- Where lists of type arguments or type parameters end; operators are cut there. -/
def Ast.CompilationUnit.splits (unit : CompilationUnit) : List Nat :=
  (Outline.partsOf unit.outlines).filterMap Part.split?

structure SourceFile where
  path : String
  tree : SyntaxTree
  semantic : SemanticModel
  warnings : List Warning
  semanticErrors : List Problem

namespace SourceFile

/-- The error of a text that is rejected for a problem. -/
def rejection (text : String) (p : Problem) : FileError :=
  let chars := text.toList
  let before := ((splitAtOffset? chars p.range.start).map (·.1)).getD chars
  .syntactic p.message (Position.start.advance before) p.range

/-- Lays what a front-end says of a file over the tokens of its text. -/
def ofParsed (input : SourceInput) (parsed : ParsedUnit) (policy : SyntaxPolicy) :
    Except FileError SourceFile := do
  let lexemes ← (Lexeme.scan input.level input.text).mapError FileError.lexical
  match policy.firstFatal? parsed.problems with
  | some p => throw (rejection input.text p)
  | none =>
    let row := TokenRow.ofLexemes lexemes parsed.unit.splits
    let (tree, occurrences) ←
      Layout.tree input.text row parsed.resolution.boundAt? parsed.unit
    let semantic := SemanticModel.ofOccurrences tree parsed.bindings occurrences
    return {
      path := input.path, tree, semantic
      warnings := Warning.ofProblems tree parsed.problems
      semanticErrors := parsed.problems.filter Problem.isSemanticError }

/-- Analyzes a text with the standard front-end. -/
def ofInput (input : SourceInput) (policy : SyntaxPolicy) : Except FileError SourceFile :=
  ofParsed input (ParsedUnit.ofInput input) policy

/-- Not everything in the file is known. -/
def isIncomplete (f : SourceFile) : Bool := !f.semanticErrors.isEmpty

/-- The sizes of what is known of the file. -/
def summary (f : SourceFile) : String :=
  let path := Quoted.ofString f.path
  let semantic := f.semantic.summary
  s!"FileContext \x7b path: {path}, nodes: {f.tree.nodes.size}, semantic: {semantic}, " ++
    s!"warnings: {f.warnings.length}, semantic_errors: {f.semanticErrors.length} \x7d"

end SourceFile

end JavaAnalysis
