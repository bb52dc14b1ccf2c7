import JavaAnalysis.Parser.Statements

/-!
# Parsing a source file

The productions are tied together level by level: the grammar of depth `n + 1` parses parts with
the grammar of depth `n`. No text needs more than a few levels for each of its characters, so a
depth can be told from its length.
-/

set_option autoImplicit false

namespace JavaAnalysis.Parser

open Ast

/-- The grammar of texts that are nested at most `n` levels deep. -/
def grammar : Nat → Grammar
  | 0 => .none
  | n + 1 => {
      type := fun s => type (grammar n) s
      marker := fun s => marker (grammar n) s
      elementValue := fun s => elementValue (grammar n) s
      typeDecl := fun start modifiers s => typeDecl (grammar n) start modifiers s
      classBody := fun kind s => classBody (grammar n) kind s
      block := fun s => block (grammar n) s
      stmt := fun s => stmt (grammar n) s
      expr := fun s => expr (grammar n) s
      conditional := fun s => conditional (grammar n) s
      binary := fun min s => binary (grammar n) min s
      unary := fun s => unary (grammar n) s
      varInit := fun s => varInit (grammar n) s
      switchCases := fun s => switchCases (grammar n) s
    }

/-- The package of a file, if it is declared. -/
def packageDecl (g : Grammar) : Parser PackageDecl := do
  let start ← startHere
  let annotations ← many State.isAtMarker g.marker
  let _ ← expect .packageKw
  let name ← qualifiedName
  let _ ← expect .semicolon
  return ⟨← rangeFrom start, annotations, name⟩

/-- The package of a file, if it declares one. -/
def packageDecl? (g : Grammar) : Parser (Option PackageDecl) := do
  let s ← get
  let _ ← many State.isAtMarker g.marker
  let found ← isAt .packageKw
  set s
  if found then some <$> packageDecl g else return none

def importDecl : Parser ImportDecl := do
  let start ← startHere
  let _ ← expect .importKw
  let isStatic ← eat .staticKw
  let name ← qualifiedName
  let onDemand := (← isAt .dot) && (← kindAt 1) == .star
  if onDemand then advanceBy 2
  let _ ← expect .semicolon
  return ⟨← rangeFrom start, isStatic, name, onDemand⟩

/-- An import; a stray semicolon is none. -/
def importDecl? : Parser (Option ImportDecl) := do
  if ← eat .semicolon then return none else some <$> importDecl

/-- A top-level type declaration; a stray semicolon is none. -/
def topLevel? (g : Grammar) : Parser (Option TypeDecl) := do
  if ← eat .semicolon then return none
  else
    let start ← startHere
    let modifiers ← modifiers g
    some <$> g.typeDecl start modifiers

/-- A whole file of the given length. -/
def compilationUnit (g : Grammar) (length : Nat) : Parser CompilationUnit := do
  let package ← packageDecl? g
  let imports ← many (fun s => s.kind 0 == .importKw || s.kind 0 == .semicolon) importDecl?
  let types ← many (fun s => s.kind 0 != .endOfFile) (topLevel? g)
  return ⟨.upTo length, package, imports.filterMap id, types.filterMap id⟩

/-- Levels of nesting that one character can open. -/
def levelsPerCharacter : Nat := 8

/-- Parses the lexemes of a file; the place that is left shows how the operators were cut. -/
def run (level : LanguageLevel) (lexemes : List Lexeme) :
    Except SyntaxError (CompilationUnit × State) :=
  let s := State.ofLexemes level lexemes
  compilationUnit (grammar (levelsPerCharacter * s.budget)) s.final.stop s

/-- The abstract syntax of a file by its lexemes. -/
def parse (level : LanguageLevel) (lexemes : List Lexeme) :
    Except SyntaxError CompilationUnit :=
  (run level lexemes).map (·.1)

end JavaAnalysis.Parser
