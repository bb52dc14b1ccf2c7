import JavaAnalysis.Resolve.Declare

/-!
# Binding names in expressions

How the names in expressions are bound once the parts before them are: simple names, names selected
by a dot, and calls.
-/

set_option autoImplicit false

namespace JavaAnalysis.Binder

open Ast

/-- What a name in an expression is there for. -/
inductive NameUse where
  | value
  /-- It stands in front of a dot. -/
  | qualifier
  /-- It is assigned to, and not read. -/
  | target
deriving DecidableEq, Repr, Inhabited

/-- The type of a variable, or the type itself. -/
def valueType? (b : Binder) (id : BindingId) : Option BindingId := do
  let data ← b.bindings.get? id
  if data.kind.isType then return id else data.typeBinding

def boundType? (b : Binder) (name : Ident) : Option BindingId := do
  b.valueType? (← b.boundAt? name.range.start)

/-- The class of an expression whose names are bound, where it is known. -/
def exprType? (b : Binder) : Expr → Option BindingId
  | .name name => b.boundType? name
  | .fieldAccess _ _ name => b.boundType? name
  | .methodCall _ _ _ _ name _ _ => do
    (← b.bindings.get? (← b.boundAt? name.range.start)).typeBinding
  | .newObject _ _ type _ _ body =>
    match body with
    | some (.mk range _ _) => (b.boundAt? range.start).or (b.boundClass? type)
    | none => b.boundClass? type
  | .literal _ .string => b.builtIn? "java.lang.String"
  | .literal _ .textBlock => b.builtIn? "java.lang.String"
  | .paren _ e => b.exprType? e
  | .cast _ type _ => b.boundClass? type
  | .this _ => b.currentType?
  | .super _ => do b.superClass? (← b.currentType?)
  | .conditional _ _ yes _ => b.exprType? yes
  | .assign _ _ target _ => b.exprType? target
  | _ => none

/-- What an expression is that is not a name, in front of a dot. -/
def valueQualifier (use : NameUse) (e : Expr) : Binding.Walk Qualifier := do
  let b ← get
  return if use = .qualifier then .value (b.exprType? e) else .unknown

/-- A simple name that stands for a value: a variable, or else a type. -/
def resolveSimpleName (name : Ident) : Binding.Walk Unit := do
  let asVariable ← lookupVariable name.text
  let lookup ← if asVariable = .missing then lookupType name.text else pure asVariable
  referIfFound name.range.start lookup
  if lookup = .missing then
    report .unresolvedName .semantic s!"{name.text} cannot be resolved to a variable" name.range

/-- A simple name that is assigned to. -/
def resolveTargetName (name : Ident) : Binding.Walk Unit := do
  match ← lookupVariable name.text with
  | .found id => bind name.range.start id
  | .unknown => return ()
  | .missing => resolveSimpleName name

/-- A simple name in front of a dot: a variable, a type, or else a package. -/
def resolveQualifierName (name : Ident) : Binding.Walk Qualifier := do
  match ← lookupVariable name.text with
  | .found id =>
    refer name.range.start id
    return .value ((← get).valueType? id)
  | .unknown => return .unknown
  | .missing =>
    match ← lookupType name.text with
    | .found id =>
      refer name.range.start id
      return .type id
    | .unknown => return .unknown
    | .missing =>
      if startsLowercase name.text then return .package name.text
      else
        report .unresolvedName .semantic s!"{name.text} cannot be resolved" name.range
        return .unknown

def resolveName (use : NameUse) (name : Ident) : Binding.Walk Qualifier := do
  match use with
  | .value =>
    resolveSimpleName name
    return .unknown
  | .target =>
    resolveTargetName name
    return .unknown
  | .qualifier => resolveQualifierName name

/-- A member of a package. -/
def selectFromPackage (package : String) (name : Ident) : Binding.Walk Qualifier := do
  let dotted := package ++ "." ++ name.text
  match (← get).builtIn? dotted with
  | some id =>
    refer name.range.start id
    return .type id
  | none =>
    return if startsLowercase name.text || isKnownPackage dotted then .package dotted else .unknown

/-- A variable or a type that is a member of a type. -/
def selectMember (type : BindingId) (name : Ident) : Binding.Walk Qualifier := do
  let b ← get
  match b.bindings.findMember? type name.text fun data => data.kind.isVariable with
  | some id =>
    refer name.range.start id
    return .value (b.valueType? id)
  | none =>
    match b.bindings.findMember? type name.text fun data => data.kind.isType with
    | some id =>
      refer name.range.start id
      return .type id
    | none =>
      if b.isClosed type && name.text != "length" then
        report .unresolvedField .semantic s!"{name.text} cannot be resolved or is not a field"
          name.range
      return .unknown

/-- A name that is selected from what stands in front of the dot. -/
def select (qualifier : Qualifier) (name : Ident) : Binding.Walk Qualifier := do
  match qualifier, qualifier.type? with
  | .package package, _ => selectFromPackage package name
  | _, none => return .unknown
  | _, some type =>
    if name.text == "this" then
      bind name.range.start type
      return .value (some type)
    else if name.text == "super" && qualifier == .type type then
      return .value ((← get).superClass? type)
    else selectMember type name

/-- How a message names the type of a literal. -/
def literalType : LiteralKind → String
  | .int => "int"
  | .long => "long"
  | .float => "float"
  | .double => "double"
  | .char => "char"
  | .string => "String"
  | .textBlock => "String"
  | .true => "boolean"
  | .false => "boolean"
  | .null => "null"

/-- How a message names the type of an argument. -/
def describeArg (b : Binder) (arg : Expr) : String :=
  let spelled : Option String := match arg with
    | .literal _ kind => some (literalType kind)
    | .name name => do (← b.bindings.get? (← b.boundAt? name.range.start)).typeName
    | _ => none
  spelled.getD (((b.exprType? arg).map b.bindings.name).getD "Object")

def reportMissingMethod (name : Ident) (args : List Expr) (owner : String) :
    Binding.Walk Unit := do
  let signature := ", ".intercalate (args.map (← get).describeArg)
  report .unresolvedMethod .semantic
    s!"The method {name.text}({signature}) is undefined for the type {owner}" name.range

/-- A call of another constructor of the type, or of its super class. -/
def resolveConstructorCall (name : Ident) (arity : Nat) : Binding.Walk Unit := do
  let b ← get
  let type := b.currentType?.bind fun current =>
    if name.text == "super" then b.superClass? current else some current
  let constructor := type.bind fun t =>
    (b.bindings.members t).find? fun m =>
      match b.bindings.get? m with
      | some data => data.kind == .constructor && data.accepts arity
      | none => false
  match constructor with
  | some id => refer name.range.start id
  | none => return ()

/-- A call without a target. -/
def resolveSimpleCall (name : Ident) (args : List Expr) : Binding.Walk Unit := do
  if name.text == "this" || name.text == "super" then resolveConstructorCall name args.length
  else
    let lookup ← lookupMethod name.text args.length
    referIfFound name.range.start lookup
    if lookup = .missing then
      let b ← get
      reportMissingMethod name args ((b.currentType?.map b.bindings.name).getD "")

/-- A call of a method of what stands in front of the dot. -/
def resolveMemberCall (qualifier : Qualifier) (name : Ident) (args : List Expr) :
    Binding.Walk Unit := do
  match qualifier.type? with
  | none => return ()
  | some owner =>
    let b ← get
    match b.findMethod? owner name.text args.length with
    | some id => refer name.range.start id
    | none => if b.isClosed owner then reportMissingMethod name args (b.bindings.name owner)

/-- The method or constructor that a method reference names. -/
def resolveMethodRef (qualifier : Qualifier) (name : Option Ident) : Binding.Walk Unit := do
  match qualifier.type?, name with
  | some owner, some name =>
    let b ← get
    match b.bindings.findMember? owner name.text fun data => data.kind.isMethod with
    | some id => refer name.range.start id
    | none => return ()
  | _, _ => return ()

/-- The field that is assigned to as `this.name`. -/
def assignedField? (b : Binder) (target : Expr) (name : Ident) : Option BindingId :=
  match target with
  | .this _ => do
    b.bindings.findMember? (← b.currentType?) name.text fun data => data.kind.isVariable
  | _ => none

/-- A name that labels a case: a constant of the type switched over, or else a variable. -/
def resolveCaseName (enumType : Option BindingId) (name : Ident) : Binding.Walk Unit := do
  match enumType with
  | some type =>
    let b ← get
    match b.bindings.findMember? type name.text fun data => data.kind == .enumConstant with
    | some id => refer name.range.start id
    | none => return ()
  | none => referIfFound name.range.start (← lookupVariable name.text)

/-- The enum that a value is switched over. -/
def enumOf? (b : Binder) (selector : Expr) : Option BindingId :=
  (b.exprType? selector).filter fun t => b.bindings.kind? t = some .enumType

/-- The value switched over is a variable whose declared type is missing. -/
def isUntyped (b : Binder) : Expr → Bool
  | .name name => (b.boundAt? name.range.start).any b.untyped.contains
  | _ => false

/-- A switch expression must have a default case if the type of its value is missing. -/
def checkExhaustive (range : TextRange) (selector : Expr) (cases : List SwitchCase) :
    Binding.Walk Unit := do
  if !SwitchCase.anyDefault cases && (← get).isUntyped selector then
    report .switchNotExhaustive .syntactic "A switch expression should have a default case" range

/-- Binds the name of an annotation to its type. -/
def resolveMarkerName (name : QualifiedName) : Binding.Walk Unit := do
  let lookup ← match name.segments with
    | [simple] => lookupType simple.text
    | _ => lookupBuiltIn name.toDotted
  referIfFound name.range.start lookup
  if lookup = .missing then reportMissingType name.toDotted name.range

end JavaAnalysis.Binder
