import JavaAnalysis.Parser.Declarations

/-!
# Parsing statements
-/

set_option autoImplicit false

namespace JavaAnalysis.Parser

open Ast

/-- There is more before the closing brace. -/
def State.isInBraces (s : State) : Bool := s.kind 0 != .rBrace && s.kind 0 != .endOfFile

def block (g : Grammar) : Parser Block := do
  let start ← startHere
  let _ ← expect .lBrace
  let stmts ← many State.isInBraces g.stmt
  let _ ← expect .rBrace
  return .mk (← rangeFrom start) stmts

/-- An expression between parentheses. -/
def parenExpr (g : Grammar) : Parser Expr := do
  let _ ← expect .lParen
  let e ← g.expr
  let _ ← expect .rParen
  return e

/-- A type and then a declared name start here. -/
def isAtLocalVar (g : Grammar) : Parser Bool := do
  let s ← get
  if (PrimitiveKind.ofToken? (s.kind 0)).isSome then return s.kind 1 != .dot
  else if s.kind 0 != .ident then return false
  else match type g s with
    | .error _ => return false
    | .ok (_, t) =>
      let next := t.kind 1
      return t.kind 0 == .ident && (next == .eq || next == .semicolon || next == .comma ||
        next == .lBracket || next == .colon)

/-- The word `yield` starts a statement here and is no name. -/
def State.isAtYield (s : State) : Bool :=
  s.isWord 0 "yield" && s.level.supports .switchExpressions &&
    (match s.kind 1 with
      | .dot | .lParen | .lBracket | .plusPlus | .minusMinus | .semicolon => false
      | next => (AssignOp.ofToken? next).isNone)

/-- The type of a local variable. -/
def localType (g : Grammar) : Parser TypeRef := do inferredIfVar (← type g)

/-- A local class or variable declaration, if one starts here. -/
def localDecl? (g : Grammar) : Parser (Option Stmt) := do
  let s ← get
  let start := s.start
  let modified := match s.kind 0 with
    | .finalKw | .abstractKw | .staticKw | .strictfpKw => true
    | _ => s.isAtMarker
  if !modified && s.typeDeclAhead?.isNone && !(← isAtLocalVar g) then return none
  else
    let modifiers ← modifiers g
    if (← get).typeDeclAhead?.isSome then
      return some (.localType (← g.typeDecl start modifiers))
    else
      let type ← localType g
      let name ← ident
      return some (.localVar (← varDecl g start modifiers type name))

def ifStmt (g : Grammar) : Parser Stmt := do
  let start ← startHere
  let _ ← expect .ifKw
  let cond ← parenExpr g
  let body ← g.stmt
  if ← eat .elseKw then
    let alternative ← g.stmt
    return .ifThenElse (← rangeFrom start) cond body alternative
  else return .ifThen (← rangeFrom start) cond body

def throwStmt (g : Grammar) : Parser Stmt := do
  let start ← startHere
  let _ ← expect .throwKw
  let e ← g.expr
  let _ ← expect .semicolon
  return .throwing (← rangeFrom start) e

/-- A basic `for` loop from behind its first part on. -/
def forRest (g : Grammar) (start : Nat) (init : ForInit) : Parser Stmt := do
  let _ ← expect .semicolon
  let cond ← if ← isAt .semicolon then pure none else some <$> g.expr
  let _ ← expect .semicolon
  let update ← if ← isAt .rParen then pure [] else separated .comma g.expr
  let _ ← expect .rParen
  let body ← g.stmt
  return .forLoop (← rangeFrom start) init cond update body

/-- Behind the name of a variable, and pairs of brackets, stands a colon. -/
def isColonAhead : List Lexeme → Bool
  | x :: y :: xs =>
    if x.kind == .lBracket && y.kind == .rBracket then isColonAhead xs else x.kind == .colon
  | [x] => x.kind == .colon
  | [] => false

/-- A `for` loop that declares a variable, from the declaration on. -/
def forDecl (g : Grammar) (start : Nat) : Parser Stmt := do
  let declStart ← startHere
  let modifiers ← modifiers g
  let type ← localType g
  let name ← ident
  if isColonAhead (← get).rest then
    let pairs ← brackets
    let fragment := VarFragment.mk (← rangeFrom name.range.start) name pairs none
    let var := VarDecl.mk (← rangeFrom declStart) modifiers type [fragment]
    let _ ← expect .colon
    let iterable ← g.expr
    let _ ← expect .rParen
    let body ← g.stmt
    return .forEach (← rangeFrom start) var iterable body
  else
    let fragments ← varFragments g name
    let decl := VarDecl.mk (← rangeFrom declStart) modifiers type fragments
    forRest g start (.decl decl)

/-- The declaration of a variable, and no expression, starts here. -/
def isAtVarDecl (g : Grammar) : Parser Bool := do
  if (← isAt .finalKw) || (← isAt .atSign) then return true else isAtLocalVar g

def forStmt (g : Grammar) : Parser Stmt := do
  let start ← startHere
  let _ ← expect .forKw
  let _ ← expect .lParen
  if ← isAtVarDecl g then forDecl g start
  else if ← isAt .semicolon then forRest g start .absent
  else forRest g start (.exprs (← separated .comma g.expr))

def resource (g : Grammar) : Parser Resource := do
  if ← isAtVarDecl g then
    let start ← startHere
    let modifiers ← modifiers g
    let type ← localType g
    let name ← ident
    let _ ← expect .eq
    let init ← g.expr
    let fragment := VarFragment.mk (← rangeFrom name.range.start) name [] (some init)
    return .decl (.mk (← rangeFrom start) modifiers type [fragment])
  else return .expr (← g.expr)

def catchClause (g : Grammar) : Parser CatchClause := do
  let start ← startHere
  let _ ← expect .catchKw
  let _ ← expect .lParen
  let paramStart ← startHere
  let modifiers ← modifiers g
  let type ← catchType g
  let name ← ident
  let param := Param.mk (← rangeFrom paramStart) modifiers (some type) none name []
  let _ ← expect .rParen
  let body ← g.block
  return .mk (← rangeFrom start) param body

/-- The resources of a `try` statement, if there are any. -/
def resources (g : Grammar) : Parser (Option TextRange × List Resource) := do
  if ← isAt .lParen then
    let start ← startHere
    let _ ← advance
    let items ← terminated .semicolon (fun s => s.kind 0 == .rParen) (resource g)
    let _ ← expect .rParen
    return (some (← rangeFrom start), items)
  else return (none, [])

def tryStmt (g : Grammar) : Parser Stmt := do
  let start ← startHere
  let _ ← expect .tryKw
  let (resourcesRange, resources) ← resources g
  let body ← g.block
  let catches ← many (fun s => s.kind 0 == .catchKw) (catchClause g)
  let final ← if ← eat .finallyKw then some <$> g.block else pure none
  if resourcesRange.isNone && catches.isEmpty && final.isNone then
    fail "Syntax error, insert \"Finally\" to complete TryStatement"
  else return .trying (← rangeFrom start) resourcesRange resources body catches final

/-- A pattern of a label, which only a guard, an arrow or a colon may follow. -/
def casePattern (g : Grammar) : Parser Pattern := do
  let start ← startHere
  let modifiers ← modifiers g
  let type ← type g
  let name ← ident
  let s ← get
  if s.kind 0 == .arrow || s.kind 0 == .colon || s.isWord 0 "when" then
    return .mk (← rangeFrom start) modifiers type name
  else expected "\"->\" or \":\""

/-- The arrow or colon that ends a label; whether it is an arrow. -/
def labelEnd : Parser Bool := do
  if ← eat .arrow then return true
  else
    let _ ← expect .colon
    return false

/-- A label of a switch, and whether it ends with an arrow. -/
def caseLabel (g : Grammar) : Parser (CaseLabel × Bool) := do
  let start ← startHere
  if ← eat .defaultKw then
    let arrow ← labelEnd
    return (.default (← rangeFrom start), arrow)
  else
    let _ ← expect .caseKw
    match ← attempt (casePattern g) with
    | some pattern =>
      let guard ← if (← get).isWord 0 "when" then
          let _ ← advance
          some <$> g.conditional
        else pure none
      let arrow ← labelEnd
      return (.pattern (← rangeFrom start) pattern guard, arrow)
    | none =>
      let values ← separated .comma g.conditional
      let arrow ← labelEnd
      return (.values (← rangeFrom start) values, arrow)

/-- A label starts here. -/
def State.isAtLabel (s : State) : Bool := s.kind 0 == .caseKw || s.kind 0 == .defaultKw

/-- Labels up to the first that ends with an arrow, at most `n`; whether there is such a one. -/
def caseLabelsUpTo (g : Grammar) : Nat → Parser (List CaseLabel × Bool)
  | 0 => exhausted
  | n + 1 => do
    let (label, arrow) ← caseLabel g
    if !arrow && (← get).isAtLabel then
      let (labels, arrow) ← caseLabelsUpTo g n
      return (label :: labels, arrow)
    else return ([label], arrow)

/-- The statement behind the arrow of a label. -/
def arrowBody (g : Grammar) : Parser Stmt := do
  let start ← startHere
  match ← kindAt 0 with
  | .lBrace => .block <$> g.block
  | .throwKw => throwStmt g
  | _ =>
    let e ← g.expr
    let _ ← expect .semicolon
    return .expression (← rangeFrom start) e

def switchCase (g : Grammar) : Parser SwitchCase := do
  let s ← get
  if !s.isAtLabel then expected "\"case\""
  else
    let (labels, arrow) ← caseLabelsUpTo g s.budget
    let body ← if arrow then List.singleton <$> arrowBody g
      else many (fun s => s.isInBraces && !s.isAtLabel) g.stmt
    return .mk (← rangeFrom s.start) labels arrow body

/-- The cases of a switch between braces, with the range of the whole. -/
def switchCases (g : Grammar) : Parser (TextRange × List SwitchCase) := do
  let start ← startHere
  let _ ← expect .lBrace
  let cases ← many State.isInBraces (switchCase g)
  let _ ← expect .rBrace
  return (← rangeFrom start, cases)

/-- A jump behind its first word, with its label if it has one. -/
def jumpLabel : Parser (Option Ident) := do
  let label ← if ← isAt .ident then some <$> ident else pure none
  let _ ← expect .semicolon
  return label

/-- A local declaration, or an expression as a statement. -/
def declOrExpr (g : Grammar) (start : Nat) : Parser Stmt := do
  match ← localDecl? g with
  | some stmt => return stmt
  | none =>
    let e ← g.expr
    let _ ← expect .semicolon
    return .expression (← rangeFrom start) e

/-- A statement that starts with a name. -/
def wordStmt (g : Grammar) (start : Nat) : Parser Stmt := do
  let s ← get
  if s.kind 1 == .colon then
    let label ← ident
    let _ ← advance
    let body ← g.stmt
    return .labeled (← rangeFrom start) label body
  else if s.isAtYield then
    let _ ← advance
    let e ← g.expr
    let _ ← expect .semicolon
    return .yielding (← rangeFrom start) e
  else declOrExpr g start

def whileStmt (g : Grammar) (start : Nat) : Parser Stmt := do
  let _ ← advance
  let cond ← parenExpr g
  let body ← g.stmt
  return .whileLoop (← rangeFrom start) cond body

def doStmt (g : Grammar) (start : Nat) : Parser Stmt := do
  let _ ← advance
  let body ← g.stmt
  let _ ← expect .whileKw
  let cond ← parenExpr g
  let _ ← expect .semicolon
  return .doLoop (← rangeFrom start) body cond

def returnStmt (g : Grammar) (start : Nat) : Parser Stmt := do
  let _ ← advance
  let e ← if ← isAt .semicolon then pure none else some <$> g.expr
  let _ ← expect .semicolon
  return .returning (← rangeFrom start) e

def switchStmt (g : Grammar) (start : Nat) : Parser Stmt := do
  let _ ← advance
  let selector ← parenExpr g
  let (casesRange, cases) ← g.switchCases
  return .switching (← rangeFrom start) selector casesRange cases

def synchronizedStmt (g : Grammar) (start : Nat) : Parser Stmt := do
  let _ ← advance
  let lock ← parenExpr g
  let body ← g.block
  return .synchronizing (← rangeFrom start) lock body

def assertStmt (g : Grammar) (start : Nat) : Parser Stmt := do
  let _ ← advance
  let cond ← g.expr
  let message ← if ← eat .colon then some <$> g.expr else pure none
  let _ ← expect .semicolon
  return .asserting (← rangeFrom start) cond message

def stmt (g : Grammar) : Parser Stmt := do
  let s ← get
  let start := s.start
  match s.kind 0 with
  | .lBrace => .block <$> g.block
  | .semicolon =>
    let _ ← advance
    return .empty (← rangeFrom start)
  | .ifKw => ifStmt g
  | .whileKw => whileStmt g start
  | .doKw => doStmt g start
  | .forKw => forStmt g
  | .returnKw => returnStmt g start
  | .breakKw =>
    let _ ← advance
    let label ← jumpLabel
    return .breaking (← rangeFrom start) label
  | .continueKw =>
    let _ ← advance
    let label ← jumpLabel
    return .continuing (← rangeFrom start) label
  | .throwKw => throwStmt g
  | .tryKw => tryStmt g
  | .switchKw => switchStmt g start
  | .synchronizedKw =>
    if s.kind 1 == .lParen then synchronizedStmt g start else declOrExpr g start
  | .assertKw => assertStmt g start
  | .ident => wordStmt g start
  | _ => declOrExpr g start

end JavaAnalysis.Parser
