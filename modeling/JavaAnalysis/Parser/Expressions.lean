import JavaAnalysis.Ast.Range
import JavaAnalysis.Parser.Modifiers

/-!
# Parsing expressions
-/

set_option autoImplicit false

namespace JavaAnalysis.Parser

open Ast

def arguments (g : Grammar) : Parser (TextRange × List Expr) := parenthesized g.expr

/-- Values between braces. -/
def arrayInit (g : Grammar) : Parser (TextRange × List Expr) := do
  let start ← startHere
  let _ ← expect .lBrace
  let items ← terminated .comma (fun s => s.kind 0 == .rBrace) g.varInit
  let _ ← expect .rBrace
  return (← rangeFrom start, items)

/-- The initial value of a variable: an expression or the values of an array. -/
def varInit (g : Grammar) : Parser Expr := do
  if ← isAt .lBrace then
    let (range, items) ← arrayInit g
    return .arrayInit range items
  else g.expr

/-- What lies behind the parenthesis that closes those opened so far. -/
def behindParens? : Nat → List Lexeme → Option (List Lexeme)
  | _, [] => none
  | depth, x :: xs =>
    match x.kind with
    | .endOfFile => none
    | .lParen => behindParens? (depth + 1) xs
    | .rParen => if depth ≤ 1 then some xs else behindParens? (depth - 1) xs
    | _ => behindParens? depth xs

/-- Parameters of a lambda expression in parentheses start here. -/
def State.isAtLambdaParams (s : State) : Bool :=
  s.kind 0 == .lParen &&
    match behindParens? 0 s.rest with
    | some (x :: _) => x.kind == .arrow
    | _ => false

/-- The parameters of a lambda expression, which all have types or all have none. -/
def lambdaParams (g : Grammar) : Parser (TextRange × List Param) := do
  let s ← get
  let implicit := s.kind 1 == .ident && (s.kind 2 == .comma || s.kind 2 == .rParen)
  parenthesized (if implicit then implicitParam <$> ident else formalParam g)

/-- A lambda expression from its arrow on. -/
def lambdaRest (g : Grammar) (start : Nat) (range : TextRange) (params : List Param)
    (parens : Bool) : Parser Expr := do
  let _ ← expect .arrow
  if ← isAt .lBrace then
    let body ← g.block
    return .lambdaBlock (← rangeFrom start) range params parens body
  else
    let body ← g.expr
    return .lambdaExpr (← rangeFrom start) range params parens body

/-- A lambda expression, if one starts here. -/
def lambda? (g : Grammar) : Parser (Option Expr) := do
  let s ← get
  if s.kind 0 == .ident && s.kind 1 == .arrow then
    let name ← ident
    some <$> lambdaRest g s.start name.range [implicitParam name] false
  else if s.isAtLambdaParams then
    let (range, params) ← lambdaParams g
    some <$> lambdaRest g s.start range params true
  else return none

/-- Any expression, lambda expressions and assignments included. -/
def expr (g : Grammar) : Parser Expr := do
  let start ← startHere
  match ← lambda? g with
  | some e => return e
  | none =>
    let target ← g.conditional
    match AssignOp.ofToken? (← kindAt 0) with
    | none => return target
    | some op =>
      let _ ← advance
      let value ← g.expr
      return .assign (← rangeFrom start) op target value

/-- A conditional expression and what binds tighter. -/
def conditional (g : Grammar) : Parser Expr := do
  let start ← startHere
  let cond ← g.binary 0
  if ← eat .question then
    let yes ← g.expr
    let _ ← expect .colon
    let no ← match ← lambda? g with
      | some e => pure e
      | none => g.conditional
    return .conditional (← rangeFrom start) cond yes no
  else return cond

/-- How tightly a type test binds. -/
def instanceOfPrecedence : Nat := 7

/-- A type test of `e` from behind its `instanceof` on. -/
def instanceOfRest (g : Grammar) (start : Nat) (e : Expr) : Parser Expr := do
  let patternStart ← startHere
  let modifiers ← modifiers g
  let type ← type g
  if ← isAt .ident then
    let name ← ident
    let pattern := Pattern.mk (← rangeFrom patternStart) modifiers type name
    return .instanceOfPattern (← rangeFrom start) e pattern
  else if modifiers.isEmpty then return .instanceOf (← rangeFrom start) e type
  else expected "identifier"

/-- Extends an expression by operators that bind tighter than `min`, at most `n`. -/
def binaryFrom (g : Grammar) (start min : Nat) : Nat → Expr → Parser Expr
  | 0, _ => exhausted
  | n + 1, lhs => do
    if ← isAt .instanceofKw then
      if instanceOfPrecedence ≤ min then return lhs
      let _ ← advance
      binaryFrom g start min n (← instanceOfRest g start lhs)
    else match BinaryOp.ofToken? (← kindAt 0) with
      | none => return lhs
      | some op =>
        if op.precedence ≤ min then return lhs
        let _ ← advance
        let rhs ← g.binary op.precedence
        binaryFrom g start min n (.binary (← rangeFrom start) op lhs rhs)

/-- An expression whose operators bind tighter than `min`. -/
def binary (g : Grammar) (min : Nat) : Parser Expr := do
  let s ← get
  binaryFrom g s.start min s.budget (← g.unary)

/-- Lexemes that can start the operand of a cast to a type that is not primitive. -/
def startsCastOperand (kind : TokenKind) : Bool :=
  kind.isLiteral || (PrimitiveKind.ofToken? kind).isSome ||
    match kind with
    | .ident | .lParen | .bang | .tilde | .thisKw | .superKw | .newKw | .switchKw => true
    | _ => false

/-- The type of a cast: one type, or several that are not primitive. -/
def castType (g : Grammar) (primitive : Bool) : Parser TypeRef := do
  let first ← type g
  if (← isAt .amp) && !primitive then
    let _ ← advance
    let others ← separated .amp g.type
    return .intersection (← rangeFrom first.range.start) (first :: others)
  else return first

/-- The parenthesized type of a cast, from which one can tell that it is one. -/
def castTarget (g : Grammar) : Parser TypeRef := do
  let _ ← advance
  let primitive := (PrimitiveKind.ofToken? (← kindAt 0)).isSome
  let type ← castType g primitive
  let s ← get
  if s.kind 0 == .rParen && ((primitive && !type.isArray) || startsCastOperand (s.kind 1)) then
    let _ ← advance
    return type
  else expected "cast"

/-- A cast, if one starts here. -/
def cast? (g : Grammar) : Parser (Option Expr) := do
  let start ← startHere
  match ← attempt (castTarget g) with
  | none => return none
  | some type =>
    let operand ← match ← lambda? g with
      | some e => pure e
      | none => g.unary
    return some (.cast (← rangeFrom start) type operand)

/-- A class body, if one starts here. -/
def classBody? (g : Grammar) : Parser (Option ClassBody) := do
  if ← isAt .lBrace then some <$> g.classBody .classType else return none

/-- A dimension of a new array. -/
def dimExpr (g : Grammar) : Parser DimExpr := do
  let start ← startHere
  let _ ← advance
  let size ← if ← isAt .rBracket then pure none else some <$> g.expr
  let _ ← expect .rBracket
  return .mk (← rangeFrom start) size

/-- The creation of an object or an array, which starts at `start` with `outer` if there is one. -/
def creation (g : Grammar) (start : Nat) (outer : Option Expr) : Parser Expr := do
  let _ ← expect .newKw
  let type ← nonArrayType g
  if (← isAt .lBracket) && outer.isNone then
    let dims ← many (fun s => s.kind 0 == .lBracket) (dimExpr g)
    if ← isAt .lBrace then
      let (range, items) ← arrayInit g
      return .newArray (← rangeFrom start) type dims (some range) items
    else return .newArray (← rangeFrom start) type dims none []
  else
    let (argsRange, args) ← arguments g
    let body ← classBody? g
    return .newObject (← rangeFrom start) outer type argsRange args body

/-- Reads a dotted name as a type. -/
def typeOfExpr? : Expr → Option TypeRef
  | .name n => some (.named n.range none n none [])
  | .fieldAccess range target n =>
    (typeOfExpr? target).map fun outer => .named range (some outer) n none []
  | _ => none

/-- What may follow `target.`; the whole starts at `start`. -/
def memberOf (g : Grammar) (start : Nat) (target : Expr) : Parser Expr := do
  match ← kindAt 0 with
  | .ident =>
    let name ← ident
    if ← isAt .lParen then
      let (argsRange, args) ← arguments g
      return .methodCall (← rangeFrom start) (some target) none [] name argsRange args
    else return .fieldAccess (← rangeFrom start) target name
  | .lt =>
    let (typeArgsRange, typeArgs) ← typeArgs g
    let name ← ident
    let (argsRange, args) ← arguments g
    return .methodCall (← rangeFrom start) (some target) (some typeArgsRange) typeArgs name
      argsRange args
  | .thisKw | .superKw =>
    let name ← word
    return .fieldAccess (← rangeFrom start) target name
  | .newKw => creation g start (some target)
  | .classKw =>
    let _ ← advance
    match typeOfExpr? target with
    | some type => return .classLiteral (← rangeFrom start) type
    | none => fail "Syntax error, type expected before \".class\""
  | _ => expected "identifier"

/-- Extends an expression by selections, indices, steps and references, at most `n`. -/
def postfixFrom (g : Grammar) (start : Nat) : Nat → Expr → Parser Expr
  | 0, _ => exhausted
  | n + 1, e => do
    match ← kindAt 0 with
    | .dot =>
      let _ ← advance
      postfixFrom g start n (← memberOf g start e)
    | .lBracket =>
      let _ ← advance
      let index ← g.expr
      let _ ← expect .rBracket
      postfixFrom g start n (.arrayAccess (← rangeFrom start) e index)
    | .plusPlus =>
      let _ ← advance
      postfixFrom g start n (.unary (← rangeFrom start) .postInc e)
    | .minusMinus =>
      let _ ← advance
      postfixFrom g start n (.unary (← rangeFrom start) .postDec e)
    | .colonColon =>
      let _ ← advance
      let name ← if ← eat .newKw then pure none else some <$> ident
      postfixFrom g start n (.methodRef (← rangeFrom start) e name)
    | _ => return e

/-- A type that is followed by `::` or `.class`; the whole starts at `start`. -/
def typePrimary (g : Grammar) (start : Nat) : Parser Expr := do
  let type ← type g
  if ← isAt .colonColon then return .type type
  else if (← isAt .dot) && (← kindAt 1) == .classKw then
    let _ ← advance
    let _ ← advance
    return .classLiteral (← rangeFrom start) type
  else expected "\"::\" or \".class\""

/-- A name, or a call without a target. -/
def nameOrCall (g : Grammar) (start : Nat) : Parser Expr := do
  let name ← ident
  if ← isAt .lParen then
    let (argsRange, args) ← arguments g
    return .methodCall (← rangeFrom start) none none [] name argsRange args
  else return .name name

/-- `this`, `super`, or a call of a constructor by one of these words. -/
def selfOrCall (g : Grammar) (start : Nat) : Parser Expr := do
  let s ← get
  let name ← word
  if s.kind 1 == .lParen then
    let (argsRange, args) ← arguments g
    return .methodCall (← rangeFrom start) none none [] name argsRange args
  else if s.kind 0 == .thisKw then return .this name.range
  else return .super name.range

/-- An expression that no operator is part of. -/
def primary (g : Grammar) : Parser Expr := do
  let s ← get
  let start := s.start
  let kind := s.kind 0
  match LiteralKind.ofToken? kind with
  | some literal => return .literal (← advance) literal
  | none =>
    match kind with
    | .thisKw | .superKw => selfOrCall g start
    | .ident =>
      let typeLike := s.kind 1 == .lt || (s.kind 1 == .lBracket && s.kind 2 == .rBracket)
      match ← if typeLike then attempt (typePrimary g start) else pure none with
      | some e => return e
      | none => nameOrCall g start
    | .lParen =>
      let _ ← advance
      let e ← g.expr
      let _ ← expect .rParen
      return .paren (← rangeFrom start) e
    | .newKw => creation g start none
    | .switchKw =>
      let _ ← advance
      let _ ← expect .lParen
      let selector ← g.expr
      let _ ← expect .rParen
      let (casesRange, cases) ← g.switchCases
      return .switching (← rangeFrom start) selector casesRange cases
    | _ =>
      if (PrimitiveKind.ofToken? kind).isSome then typePrimary g start else expected "Expression"

/-- An expression with the operators before and behind it that bind tightest. -/
def unary (g : Grammar) : Parser Expr := do
  let s ← get
  match UnaryOp.ofToken? (s.kind 0) with
  | some op =>
    let _ ← advance
    let operand ← g.unary
    return .unary (← rangeFrom s.start) op operand
  | none =>
    match ← if s.kind 0 == .lParen then cast? g else pure none with
    | some e => return e
    | none => postfixFrom g s.start s.budget (← primary g)

end JavaAnalysis.Parser
