import JavaAnalysis.Resolve.Basic

/-!
# Looking names up

A name is looked for in the scopes from the inside out, in the types among them with all that they
inherit, and then at the top level of the file and among the imports. Where something around the
place is not fully known, a name that is not found may still exist.
-/

set_option autoImplicit false

namespace JavaAnalysis.Binder

/-- Built-in types whose members are all known. -/
def completeTypes : List String := ["java.lang.Object", "java.lang.Enum", "java.lang.Record"]

/-- All members of the type are known. -/
def isClosed (b : Binder) (type : BindingId) : Bool :=
  (b.bindings.supertypes type).all fun id =>
    match b.bindings.get? id with
    | none => false
    | some data =>
      !b.openTypes.contains id && data.kind != .typeParameter &&
        (data.origin == .source || data.qualifiedName.any completeTypes.contains)

/-- Some type around the place has members that are not known. -/
def inOpenType (b : Binder) : Bool := (b.scopes.filterMap Scope.type?).any fun t => !b.isClosed t

/-- A name that a closed type does not have is missing. -/
def missingIn (b : Binder) (type : BindingId) : Lookup :=
  if b.isClosed type then .missing else .unknown

def kindIs (b : Binder) (p : BindingKind → Bool) (id : BindingId) : Bool :=
  (b.bindings.kind? id).any p

/-- The latest entry of a scope for a name whose kind has a property. -/
def entryOf? (b : Binder) (s : Scope) (name : String) (p : BindingKind → Bool) :
    Option BindingId :=
  (s.entries.find? fun e => e.1 == name && b.kindIs p e.2).map (·.2)

/-- A type that a scope declares, is the scope of, or inherits. -/
def typeIn? (b : Binder) (name : String) (s : Scope) : Option BindingId :=
  match b.entryOf? s name BindingKind.isType with
  | some id => some id
  | none => do
    let type ← s.type?
    if b.bindings.name type == name then return type
    b.bindings.findMember? type name fun data => data.kind.isType

/-- A variable that a scope declares or inherits. -/
def variableIn? (b : Binder) (name : String) (s : Scope) : Option BindingId :=
  match b.entryOf? s name BindingKind.isVariable with
  | some id => some id
  | none => do
    b.bindings.findMember? (← s.type?) name fun data => data.kind.isVariable

/-- Looks among imports of single types; the one that is found counts as used. -/
def singleImport? (name : String) : List ImportEntry → Option (Lookup × List ImportEntry)
  | [] => none
  | i :: is =>
    if !i.isStatic && i.simple == some name then
      some (.ofOption .unknown i.target, { i with used := true } :: is)
    else (singleImport? name is).map fun r => (r.1, i :: r.2)

/-- Imports of all types of a package or type. -/
def isOnDemand (i : ImportEntry) : Bool := !i.isStatic && i.simple.isNone

/-- Looks among imports of whole packages; the one that is found counts as used. -/
def onDemandImport? (b : Binder) (name : String) :
    List ImportEntry → Option (BindingId × List ImportEntry)
  | [] => none
  | i :: is =>
    match if isOnDemand i then b.builtIn? (i.qualified ++ "." ++ name) else none with
    | some id => some (id, { i with used := true } :: is)
    | none => (onDemandImport? b name is).map fun r => (r.1, i :: r.2)

/-- The import may name types that are not known. -/
def isUnknownPackage (b : Binder) (i : ImportEntry) : Bool :=
  isOnDemand i && !isKnownPackage i.qualified && (b.builtIn? i.qualified).isNone

/-- Imports that may have brought a name that is not known. -/
def markUnknownPackages (imports : List ImportEntry) : List ImportEntry :=
  imports.map fun i =>
    if isOnDemand i && !isKnownPackage i.qualified then { i with used := true } else i

/-- Looks a type up by its simple name. -/
def lookupType (name : String) : Binding.Walk Lookup := do
  let b ← get
  match b.scopes.findSome? (b.typeIn? name) with
  | some id => return .found id
  | none =>
  match b.topLevel.lookup name with
  | some id => return .found id
  | none =>
  match singleImport? name b.imports with
  | some (lookup, imports) =>
    set { b with imports }
    return lookup
  | none =>
  match b.builtIn? ("java.lang." ++ name) with
  | some id => return .found id
  | none =>
  match b.onDemandImport? name b.imports with
  | some (id, imports) =>
    set { b with imports }
    return .found id
  | none =>
    if b.imports.any b.isUnknownPackage then
      set { b with imports := markUnknownPackages b.imports }
      return .unknown
    else return if b.inOpenType then .unknown else .missing

/-- Looks among static imports; the one that decides counts as used. -/
def staticImport (t : Bindings) (name : String) (p : Binding → Bool) :
    List ImportEntry → Lookup × List ImportEntry
  | [] => (.missing, [])
  | i :: is =>
    let decided : Option Lookup :=
      if !i.isStatic then none
      else match i.simple, i.target with
        | some simple, target =>
          if simple == name then
            some (.ofOption .unknown (target.bind fun owner => t.findMember? owner name p))
          else none
        | none, some owner => (t.findMember? owner name p).map .found
        | none, none => some .unknown
    match decided with
    | some lookup => (lookup, { i with used := true } :: is)
    | none =>
      let rest := staticImport t name p is
      (rest.1, i :: rest.2)

/-- Looks a member up that may be imported, or inherited from a type that is not known. -/
def lookupImported (name : String) (p : Binding → Bool) : Binding.Walk Lookup := do
  let b ← get
  let (lookup, imports) := staticImport b.bindings name p b.imports
  set { b with imports }
  return if lookup = .missing && b.inOpenType then .unknown else lookup

/-- Looks a variable up by its simple name. -/
def lookupVariable (name : String) : Binding.Walk Lookup := do
  let b ← get
  match b.scopes.findSome? (b.variableIn? name) with
  | some id => return .found id
  | none => lookupImported name fun data => data.kind.isVariable

/-- The binding is a method that can be called with `arity` arguments. -/
def isCallable (arity : Nat) (data : Binding) : Bool := data.kind == .method && data.accepts arity

/-- A method of a type; every type has the methods of the root class. -/
def findMethod? (b : Binder) (type : BindingId) (name : String) (arity : Nat) :
    Option BindingId :=
  match b.bindings.findMember? type name (isCallable arity) with
  | some id => some id
  | none => do
    b.bindings.findMember? (← b.builtIn? "java.lang.Object") name (isCallable arity)

/-- Looks a method up by its simple name. -/
def lookupMethod (name : String) (arity : Nat) : Binding.Walk Lookup := do
  let b ← get
  match (b.scopes.filterMap Scope.type?).findSome? fun t => b.findMethod? t name arity with
  | some id => return .found id
  | none => lookupImported name fun data => data.kind == .method

end JavaAnalysis.Binder

/-!
## Binding the names in types

A qualified type name may start with packages or with outer types; packages by convention have
names that start with a lower-case letter.
-/

namespace JavaAnalysis.Binder

open Ast

/-- The type may be the name of a package. -/
def isPackageLike : TypeRef → Bool
  | .named _ none name argsRange _ => argsRange.isNone && startsLowercase name.text
  | .named _ (some q) name argsRange _ =>
    argsRange.isNone && startsLowercase name.text && isPackageLike q
  | _ => false

/-- Binds the name that starts at the offset to a type that was found, which counts as used. -/
def referIfFound (offset : Nat) (lookup : Lookup) : Binding.Walk Unit :=
  match lookup with
  | .found id => refer offset id
  | _ => return ()

def reportMissingType (name : String) (range : TextRange) : Binding.Walk Unit :=
  report .unresolvedType .typing s!"{name} cannot be resolved to a type" range

/-- A built-in type of the given name, or a type that may be declared elsewhere. -/
def lookupBuiltIn (name : String) : Binding.Walk Lookup :=
  return .ofOption .unknown ((← get).builtIn? name)

/-- A type that is a member of an outer type. -/
def lookupInner (outer : Lookup) (name : String) : Binding.Walk Lookup := do
  match outer with
  | .found id =>
    let b ← get
    return .ofOption (b.missingIn id) (b.bindings.findMember? id name fun data => data.kind.isType)
  | _ => return .unknown

/-- Binds the start of a dotted name that may be a package or a type. -/
def bindQualifier (offset : Nat) (lookup : Lookup) : Binding.Walk Lookup := do
  match lookup with
  | .found id =>
    bind offset id
    return lookup
  | _ => return .unknown

mutual

/--
Binds the names in a type. An array type is looked up as its element type. In front of a dot, a
name that looks like a package and is no type may be one.
-/
def resolveType (qualifying : Bool) : TypeRef → Binding.Walk Lookup
  | .primitive _ _ => return .unknown
  | .inferred _ => return .unknown
  | .array _ element _ => if qualifying then return .unknown else resolveType false element
  | .wildcard _ => return .unknown
  | .bounded _ _ bound => do
    unless qualifying do
      let _ ← resolveType false bound
    return .unknown
  | .union _ types => do
    unless qualifying do resolveTypes types
    return .unknown
  | .intersection _ types => do
    unless qualifying do resolveTypes types
    return .unknown
  | .named range qualifier name argsRange args => do
    let offset := name.range.start
    if qualifying && qualifier.isNone && startsLowercase name.text then
      bindQualifier offset (← lookupType name.text)
    else if qualifying && qualifier.any isPackageLike then
      bindQualifier offset
        (← lookupBuiltIn (TypeRef.named range qualifier name argsRange args).erased)
    else
      resolveTypes args
      let lookup ← match qualifier with
        | none => lookupType name.text
        | some q => do
          match (← get).builtIn? (q.erased ++ "." ++ name.text) with
          | some id => pure (.found id)
          | none => lookupInner (← resolveType true q) name.text
      referIfFound offset lookup
      if lookup = .missing then reportMissingType name.text name.range
      return lookup

def resolveTypes : List TypeRef → Binding.Walk Unit
  | [] => return ()
  | t :: ts => do
    let _ ← resolveType false t
    resolveTypes ts

end

/-- Binds the type created by `outer.new Inner()`, which is a member of the type of `outer`. -/
def resolveInnerType (outer : Option BindingId) : TypeRef → Binding.Walk Lookup
  | .named _ _ name _ args => do
    resolveTypes args
    let b ← get
    let found := outer.bind fun id =>
      b.bindings.findMember? id name.text fun data => data.kind.isType
    let lookup := Lookup.ofOption .unknown found
    referIfFound name.range.start lookup
    return lookup
  | _ => return .unknown

/-- The binding of a declared type that is a class, given how its lookup went. -/
def classOf? (type : TypeRef) (lookup : Lookup) : Option BindingId :=
  match type with
  | .named .. => lookup.binding?
  | _ => none

/-- The class that a type which was bound before is the name of. -/
def boundClass? (b : Binder) : TypeRef → Option BindingId
  | .named _ _ name _ _ => b.boundAt? name.range.start
  | _ => none

end JavaAnalysis.Binder
