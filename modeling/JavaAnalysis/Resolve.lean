import JavaAnalysis.Resolve.Bodies

/-!
# What the names of a file are bound to

Binding runs over a file three times: the names of types first, then the members of types, then
what is inside bodies. So a name can refer to what is declared further down.
-/

set_option autoImplicit false

namespace JavaAnalysis

open Ast

namespace Binder

/-- The owner of an imported name, all before its last dot. -/
def ownerName (segments : List Ident) : String :=
  ".".intercalate (segments.dropLast.map Ident.text)

/-- What an import brings: a built-in type, or the type that owns static members. -/
def importTarget (b : Binder) (i : ImportDecl) : Option BindingId :=
  let owner := if i.onDemand then i.name.toDotted else ownerName i.name.segments
  if i.isStatic then b.builtIn? owner
  else if i.onDemand then none
  else b.builtIn? i.name.toDotted

def declareImports : List ImportDecl → Binding.Walk Unit
  | [] => return ()
  | i :: is => do
    let b ← get
    let target := b.importTarget i
    let simple := if i.onDemand then none else i.name.segments.getLast?.map Ident.text
    let entry : ImportEntry :=
      { qualified := i.name.toDotted, simple, isStatic := i.isStatic, target, used := false }
    set { b with imports := b.imports ++ [entry] }
    match target with
    | some id => unless i.isStatic do bind i.name.range.start id
    | none => pure ()
    declareImports is

def declareTypes : List TypeDecl → Binding.Walk Unit
  | [] => return ()
  | decl :: decls => do
    declareType none decl
    declareTypes decls

def declareAllMembers : List TypeDecl → Binding.Walk Unit
  | [] => return ()
  | decl :: decls => do
    declareMembers decl
    declareAllMembers decls

def resolveTypeBodies : List TypeDecl → Binding.Walk Unit
  | [] => return ()
  | decl :: decls => do
    resolveTypeBody decl
    resolveTypeBodies decls

/-- Binds the names of a whole file. -/
def resolveUnit (unit : CompilationUnit) : Binding.Walk Unit := do
  match unit.package with
  | some package => resolveAnnotations package.annotations
  | none => pure ()
  declareImports unit.imports
  declareTypes unit.types
  declareAllMembers unit.types
  resolveTypeBodies unit.types

end Binder

/-- What the names of a file are bound to, and what was found on the way. -/
structure Resolution where
  bindings : Bindings
  /-- Problems in the order in which the walk meets them. -/
  problems : List Problem
  /-- The bindings that are referred to elsewhere than as targets of plain assignments. -/
  used : List BindingId
  /-- For each import of the file, whether a name needs it. -/
  importsUsed : List Bool
  /-- What the name that starts at an offset is bound to. -/
  bound : Std.TreeMap Nat BindingId

namespace Resolution

def ofUnit (unit : CompilationUnit) : Resolution :=
  let start := Binder.start (unit.package.map fun p => p.name.toDotted)
  let b := (Binder.resolveUnit unit |>.run start).2
  { bindings := b.bindings, problems := b.problems.reverse, used := b.used
    importsUsed := b.imports.map (·.used), bound := b.bound }

/-- The outcome for a file of which nothing is known. -/
def blank : Resolution := ⟨.universe, [], [], [], ∅⟩

/-- What the name that starts at an offset is bound to. -/
def boundAt? (r : Resolution) (offset : Nat) : Option BindingId := r.bound[offset]?

end Resolution

end JavaAnalysis
