import JavaAnalysis.Resolve.Lookup

/-!
# Declaring names

What declarations add to the table of bindings, as far as it does not depend on expressions: types,
fields, parameters and local variables with their modifiers and types.
-/

set_option autoImplicit false

namespace JavaAnalysis.Binder

open Ast

/-- The full name of a type declared in `owner`; a type inside a method has none. -/
def qualifiedName? (b : Binder) (owner : Option BindingId) (name : String) : Option String :=
  match owner with
  | none =>
    match b.package with
    | some package => some (package ++ "." ++ name)
    | none => some name
  | some id => do
    let data ← b.bindings.get? id
    if data.kind.isType then return (← data.qualifiedName) ++ "." ++ name else none

/-- Declares the name of a type; at the top level the first of two types keeps the name. -/
def declareTypeName (owner : Option BindingId) (kind : TypeDeclKind) (modifiers : List Modifier)
    (name : Ident) : Binding.Walk BindingId := do
  let plain := Binding.plain (.ofDecl kind) name.text .source owner (.ofModifiers modifiers)
  let id ← allocate { plain with qualifiedName := (← get).qualifiedName? owner name.text }
  bind name.range.start id
  if owner.isNone then modify fun b => { b with topLevel := b.topLevel ++ [(name.text, id)] }
  return id

mutual

/-- Declares a type and the types inside it. -/
def declareType (owner : Option BindingId) : TypeDecl → Binding.Walk Unit
  | .mk _ kind modifiers name _ _ _ _ _ _ _ (.mk _ _ members) => do
    declareTypesIn (← declareTypeName owner kind modifiers name) members

/-- Declares the types among the members of a type. -/
def declareTypesIn (owner : BindingId) : List Member → Binding.Walk Unit
  | [] => return ()
  | .type decl :: members => do
    declareType (some owner) decl
    declareTypesIn owner members
  | _ :: members => declareTypesIn owner members

end

/-- Declares type parameters in the current scope. -/
def declareTypeParamNames (owner : BindingId) : List TypeParam → Binding.Walk Unit
  | [] => return ()
  | .mk _ _ name _ :: params => do
    let id ← allocate (.plain .typeParameter name.text .source (some owner) .empty)
    bind name.range.start id
    enter name.text id
    declareTypeParamNames owner params

/-- Brings names that were declared before into the current scope. -/
def enterAgain (names : List Ident) : Binding.Walk Unit := do
  match names with
  | [] => return ()
  | name :: names =>
    match (← get).boundAt? name.range.start with
    | some id => enter name.text id
    | none => pure ()
    enterAgain names

/-- The type of a parameter: its spelling, its class, and how the lookup went. -/
def resolveParamType : Param → Binding.Walk (String × Option BindingId × Lookup)
  | .mk _ _ none _ _ _ => return ("", none, .unknown)
  | .mk _ _ (some type) ellipsis _ brackets => do
    let lookup ← resolveType false type
    let spelling := TypeRef.withBrackets type.display brackets.length
    let plain := brackets.isEmpty && ellipsis.isNone
    return (if ellipsis.isSome then spelling ++ "..." else spelling,
      if plain then classOf? type lookup else none, lookup)

/-- Declares the field and the accessor of each component of a record. -/
def declareComponents (owner : BindingId) : List Param → Binding.Walk Unit
  | [] => return ()
  | component :: components => do
    let (typeName, typeBinding, _) ← resolveParamType component
    let name := component.name
    let typed (kind : BindingKind) (words : List ModifierWord) : Binding :=
      { Binding.plain kind name.text .source (some owner) (.ofList words) with
        typeName := some typeName, typeBinding }
    let id ← allocate (typed .field [.private, .final])
    bind name.range.start id
    let _ ← allocate (typed .method [.public])
    declareComponents owner components

/-- Binds types that a type declaration names as its parents; unknown ones leave it open. -/
def resolveParents (id : BindingId) : List TypeRef → Binding.Walk (List BindingId)
  | [] => return []
  | t :: ts => do
    match ← resolveType false t with
    | .found parent => return parent :: (← resolveParents id ts)
    | _ =>
      markOpen id
      resolveParents id ts

/-- The super class of a type that does not name one. -/
def defaultSuperClass (b : Binder) : TypeDeclKind → Option BindingId
  | .classType => b.builtIn? "java.lang.Object"
  | .enumType => b.builtIn? "java.lang.Enum"
  | .recordType => b.builtIn? "java.lang.Record"
  | .interfaceType => none
  | .annotationType => none

/-- Binds the parents and the permitted subtypes of a type. -/
def declareSupertypes (id : BindingId) (kind : TypeDeclKind)
    (supers interfaces permitted : List TypeRef) : Binding.Walk Unit := do
  let supers ← resolveParents id supers
  let interfaces ← resolveParents id interfaces
  resolveTypes permitted
  let ofInterfaces := kind == .interfaceType || kind == .annotationType
  let superClass := (if ofInterfaces then none else supers.getLast?).or
    ((← get).defaultSuperClass kind)
  let interfaces := if ofInterfaces then supers ++ interfaces else interfaces
  complete id fun data => { data with superClass, interfaces }

def declareConstants (owner : BindingId) (typeName : String) :
    List EnumConstant → Binding.Walk Unit
  | [] => return ()
  | constant :: constants => do
    let name := constant.name
    let plain := Binding.plain .enumConstant name.text .source (some owner)
      (.ofList [.public, .static, .final])
    let id ← allocate { plain with typeName := some typeName, typeBinding := some owner }
    bind name.range.start id
    declareConstants owner typeName constants

/-- Declares the fields of one declaration, whose type was looked up. -/
def declareFieldNames (owner : BindingId) (flags : ModifierSet) (type : TypeRef) (lookup : Lookup) :
    List VarFragment → Binding.Walk Unit
  | [] => return ()
  | .mk _ name brackets _ :: fragments => do
    let plain := Binding.plain .field name.text .source (some owner) flags
    let id ← allocate { plain with
      typeName := some (TypeRef.withBrackets type.display brackets.length)
      typeBinding := if brackets.isEmpty then classOf? type lookup else none }
    bind name.range.start id
    declareFieldNames owner flags type lookup fragments

/-- Declares the fields of one declaration; those of an interface are constants. -/
def declareFields (owner : BindingId) (inInterface : Bool) : VarDecl → Binding.Walk Unit
  | .mk _ modifiers type fragments => do
    let lookup ← resolveType false type
    let flags := ModifierSet.ofModifiers modifiers
    let flags := if inInterface then flags.union (.ofList [.public, .static, .final]) else flags
    declareFieldNames owner flags type lookup fragments

/-- Declares the parameters of a method; the spellings of their types. -/
def declareParams (owner : BindingId) : List Param → Binding.Walk (List String)
  | [] => return []
  | param :: params => do
    let (typeName, typeBinding, lookup) ← resolveParamType param
    let name := param.name
    let plain := Binding.plain .parameter name.text .source (some owner)
      (.ofModifiers param.modifiers)
    let id ← allocate { plain with typeName := some typeName, typeBinding }
    if lookup = .missing then markUntyped id
    bind name.range.start id
    return typeName :: (← declareParams owner params)

/-- Declares a local name with `brackets` pairs of brackets behind it. -/
def declareLocal (kind : BindingKind) (modifiers : List Modifier) (type : Option TypeRef)
    (lookup : Lookup) (name : Ident) (brackets : Nat) : Binding.Walk Unit := do
  let owner := (← get).currentOwner?
  let plain := Binding.plain kind name.text .source owner (.ofModifiers modifiers)
  let data := match type with
    | none => plain
    | some t => { plain with
        typeName := some (TypeRef.withBrackets t.display brackets)
        typeBinding := if brackets = 0 then classOf? t lookup else none }
  let id ← allocate data
  if lookup = .missing then markUntyped id
  enter name.text id
  bind name.range.start id

/-- Declares a class without a name that extends or implements a type. -/
def declareAnonymous (offset : Nat) (parent : Option BindingId) : Binding.Walk BindingId := do
  let b ← get
  let root := b.builtIn? "java.lang.Object"
  let plain := Binding.plain .classType "" .source b.currentOwner? .empty
  let known := parent.filter fun p => (b.bindings.kind? p).isSome
  let id ← allocate <| match known with
    | none => { plain with superClass := root }
    | some p =>
      if b.bindings.kind? p = some .interfaceType then
        { plain with superClass := root, interfaces := [p] }
      else { plain with superClass := some p }
  bind offset id
  if parent.isNone then markOpen id
  return id

/-- The fields of the current type, which the compact constructor of a record can name. -/
def enterComponents : Binding.Walk Unit := do
  let b ← get
  match b.currentType? with
  | none => return ()
  | some type =>
    let fields := (b.bindings.members type).filter fun m => b.bindings.kind? m = some .field
    fields.forM fun m => enter (b.bindings.name m) m

end JavaAnalysis.Binder
