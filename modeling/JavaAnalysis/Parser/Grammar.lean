import JavaAnalysis.Ast.Unit
import JavaAnalysis.Parser.Basic

/-!
# The recursive parts of the grammar

Productions that contain each other take this table of parsers for the parts they contain. A
production that is given a table of parsers for shallow texts is a parser for texts that are one
level deeper.
-/

set_option autoImplicit false

namespace JavaAnalysis.Parser

open Ast

structure Grammar where
  type : Parser TypeRef
  /-- An annotation, from its `@`. -/
  marker : Parser AnnotationUse
  elementValue : Parser Expr
  /-- A type declaration behind its modifiers, which start at the given offset. -/
  typeDecl : Nat → List Modifier → Parser TypeDecl
  classBody : TypeDeclKind → Parser ClassBody
  block : Parser Block
  stmt : Parser Stmt
  expr : Parser Expr
  conditional : Parser Expr
  /-- An expression whose operators bind tighter than the given precedence. -/
  binary : Nat → Parser Expr
  unary : Parser Expr
  varInit : Parser Expr
  /-- The cases of a switch, with the range of the braces around them. -/
  switchCases : Parser (TextRange × List SwitchCase)

/-- The grammar of nothing. -/
def Grammar.none : Grammar where
  type := exhausted
  marker := exhausted
  elementValue := exhausted
  typeDecl _ _ := exhausted
  classBody _ := exhausted
  block := exhausted
  stmt := exhausted
  expr := exhausted
  conditional := exhausted
  binary _ := exhausted
  unary := exhausted
  varInit := exhausted
  switchCases := exhausted

end JavaAnalysis.Parser

/-!
## Parsing types
-/

namespace JavaAnalysis.Parser

open Ast

/-- Wraps a type in one array type for each pair of brackets behind it. -/
def arrayOf (start : Nat) (type : TypeRef) : Parser TypeRef := do
  return (← brackets).foldl (fun t pair => .array ⟨start, pair.stop⟩ t pair) type

/-- An argument of a generic type. -/
def typeArg (g : Grammar) : Parser TypeRef := do
  if ← isAt .question then
    let start ← startHere
    let _ ← advance
    match ← kindAt 0 with
    | .extendsKw =>
      let _ ← advance
      let bound ← g.type
      return .bounded (← rangeFrom start) .upper bound
    | .superKw =>
      let _ ← advance
      let bound ← g.type
      return .bounded (← rangeFrom start) .lower bound
    | _ => return .wildcard (← rangeFrom start)
  else g.type

/-- Type arguments between angle brackets, perhaps none, with the range of the whole. -/
def typeArgs (g : Grammar) : Parser (TextRange × List TypeRef) := do
  let start ← startHere
  let _ ← expect .lt
  let args ← if (← kindAt 0).startsWithGt then pure [] else separated .comma (typeArg g)
  closeAngle
  return (← rangeFrom start, args)

/-- The segments of a class type behind those of `outer`, at most `n`. -/
def classTypeFrom (g : Grammar) (start : Nat) : Nat → Option TypeRef → Parser TypeRef
  | 0, _ => exhausted
  | n + 1, outer => do
    let name ← ident
    let (argsRange, args) ← if ← isAt .lt then
        let (range, args) ← typeArgs g
        pure (some range, args)
      else pure (none, [])
    let type := TypeRef.named (← rangeFrom start) outer name argsRange args
    if (← isAt .dot) && (← kindAt 1) == .ident then
      let _ ← advance
      classTypeFrom g start n (some type)
    else return type

/-- A type other than an array type. -/
def nonArrayType (g : Grammar) : Parser TypeRef := do
  let s ← get
  match PrimitiveKind.ofToken? (s.kind 0) with
  | some kind => return .primitive (← advance) kind
  | none => classTypeFrom g s.start s.budget none

/-- Any type. -/
def type (g : Grammar) : Parser TypeRef := do
  let start ← startHere
  arrayOf start (← nonArrayType g)

/-- A declared type parameter with its bounds. -/
def typeParam (g : Grammar) : Parser TypeParam := do
  let start ← startHere
  let annotations ← many (fun s => s.kind 0 == .atSign) g.marker
  let name ← ident
  let bounds ← if ← eat .extendsKw then separated .amp g.type else pure []
  return .mk (← rangeFrom start) annotations name bounds

/-- Type parameters between angle brackets, if there are any. -/
def typeParams (g : Grammar) : Parser (Option TextRange × List TypeParam) := do
  if ← isAt .lt then
    let start ← startHere
    let _ ← advance
    let items ← separated .comma (typeParam g)
    closeAngle
    return (some (← rangeFrom start), items)
  else return (none, [])

/-- Types between commas. -/
def typeList (g : Grammar) : Parser (List TypeRef) := separated .comma g.type

/-- The type of a catch parameter, which may have alternatives. -/
def catchType (g : Grammar) : Parser TypeRef := do
  let start ← startHere
  match ← separated .pipe g.type with
  | [type] => return type
  | alternatives => return .union (← rangeFrom start) alternatives

/-- Reads the name `var` as the request to infer the type, at levels that can. -/
def inferredIfVar (type : TypeRef) : Parser TypeRef := do
  match type with
  | .named range none name none [] =>
    if name.text == "var" && (← supports .localVarInference) then return .inferred range
    else return type
  | _ => return type

end JavaAnalysis.Parser
