import JavaAnalysis.Parser.Grammar

/-!
# Parsing modifiers and parameters

Annotations, modifier words and formal parameters, which stand in front of or inside most
declarations.
-/

set_option autoImplicit false

namespace JavaAnalysis.Parser

open Ast

/-- The segments of a dotted name, at most `n`. -/
def segmentsUpTo : Nat → Parser (List Ident)
  | 0 => exhausted
  | n + 1 => do
    let first ← ident
    if (← isAt .dot) && (← kindAt 1) == .ident then
      let _ ← advance
      return first :: (← segmentsUpTo n)
    else return [first]

def qualifiedName : Parser QualifiedName := do
  let s ← get
  let segments ← segmentsUpTo s.budget
  return ⟨← rangeFrom s.start, segments⟩

/-- An annotation starts here, and not the declaration of an annotation type. -/
def State.isAtMarker (s : State) : Bool := s.kind 0 == .atSign && s.kind 1 != .interfaceKw

def elementPair (g : Grammar) : Parser ElementValue := do
  let start ← startHere
  let name ← ident
  let _ ← expect .eq
  let value ← g.elementValue
  return .mk (← rangeFrom start) (some name) value

/-- The arguments of an annotation behind their opening parenthesis. -/
def elementValues (g : Grammar) : Parser (List ElementValue) := do
  if ← isAt .rParen then return []
  else if (← isAt .ident) && (← kindAt 1) == .eq then separated .comma (elementPair g)
  else
    let start ← startHere
    let value ← g.elementValue
    return [.mk (← rangeFrom start) none value]

/-- An annotation. -/
def marker (g : Grammar) : Parser AnnotationUse := do
  let start ← startHere
  let _ ← expect .atSign
  let name ← qualifiedName
  if ← isAt .lParen then
    let argsStart ← startHere
    let _ ← advance
    let args ← elementValues g
    let _ ← expect .rParen
    let argsRange ← rangeFrom argsStart
    return .mk (← rangeFrom start) name (some argsRange) args
  else return .mk (← rangeFrom start) name none []

/-- The value of an annotation element: an annotation, an array of values or an expression. -/
def elementValue (g : Grammar) : Parser Expr := do
  match ← kindAt 0 with
  | .atSign => return .annotated (← g.marker)
  | .lBrace =>
    let start ← startHere
    let _ ← advance
    let items ← terminated .comma (fun s => s.kind 0 == .rBrace) g.elementValue
    let _ ← expect .rBrace
    return .arrayInit (← rangeFrom start) items
  | _ => g.conditional

/--
`sealed` or `non-sealed` with its number of lexemes. Both are plain names unless more modifiers or
the word that starts a declaration follow.
-/
def State.sealedAhead? (s : State) : Option (ModifierWord × Nat) := do
  let (modifier, n) ←
    if s.isWord 0 "sealed" then some (ModifierWord.sealed, 1)
    else if s.isWord 0 "non" && s.kind 1 == .minus && s.isWord 2 "sealed" then
      some (ModifierWord.nonSealed, 3)
    else none
  let next := s.kind n
  if next == .classKw || next == .interfaceKw || next == .atSign
      || (ModifierWord.ofToken? next).isSome || s.isWord n "sealed" || s.isWord n "non" then
    return (modifier, n)
  else none

/-- A modifier that is one or more words starts here, with its number of lexemes. -/
def State.modifierAhead? (s : State) : Option (ModifierWord × Nat) :=
  match s.sealedAhead? with
  | some found => some found
  | none =>
    let label := s.kind 0 == .defaultKw && (s.kind 1 == .colon || s.kind 1 == .arrow)
    if label then none else (ModifierWord.ofToken? (s.kind 0)).map fun m => (m, 1)

/-- Steps over `n` lexemes. -/
def advanceBy : Nat → Parser Unit
  | 0 => return ()
  | n + 1 => do
    let _ ← advance
    advanceBy n

/-- One modifier, which must start here. -/
def modifier (g : Grammar) : Parser Modifier := do
  let s ← get
  if s.isAtMarker then return .annotated (← g.marker)
  else match s.modifierAhead? with
    | some (m, n) =>
      advanceBy n
      return .word (← rangeFrom s.start) m
    | none => expected "modifier"

/-- Words and annotations in any order. -/
def modifiers (g : Grammar) : Parser (List Modifier) :=
  many (fun s => s.isAtMarker || s.modifierAhead?.isSome) (modifier g)

/-- A parameter with its type. -/
def formalParam (g : Grammar) : Parser Param := do
  let start ← startHere
  let modifiers ← modifiers g
  let typeStart ← startHere
  let type ← arrayOf typeStart (← nonArrayType g)
  let ellipsis ← if ← isAt .ellipsis then some <$> advance else pure none
  let name ← ident
  let pairs ← brackets
  return .mk (← rangeFrom start) modifiers (some type) ellipsis name pairs

/-- A parameter that is only a name. -/
def implicitParam (name : Ident) : Param := .mk name.range [] none none name []

/-- Items between commas and between parentheses, perhaps none, with the range of the whole. -/
def parenthesized {α : Type} (item : Parser α) : Parser (TextRange × List α) := do
  let start ← startHere
  let _ ← expect .lParen
  let items ← if ← isAt .rParen then pure [] else separated .comma item
  let _ ← expect .rParen
  return (← rangeFrom start, items)

def formalParams (g : Grammar) : Parser (TextRange × List Param) := parenthesized (formalParam g)

end JavaAnalysis.Parser
