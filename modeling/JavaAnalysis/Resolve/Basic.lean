import JavaAnalysis.Binding.Universe
import JavaAnalysis.Problem
import JavaAnalysis.Text.Lowercase
import Std.Data.TreeMap

/-!
# Binding names

The state of the walk that binds the names of a file: the table of bindings so far, the scopes
around the current place, and what each name was bound to. A name is known by the offset at which
it starts, a class body without a name by the offset of its opening brace.
-/

set_option autoImplicit false

namespace JavaAnalysis

/-- The outcome of looking a name up. -/
inductive Lookup where
  | found (id : BindingId)
  /-- It may be declared where it cannot be seen. -/
  | unknown
  | missing
deriving DecidableEq, Repr, Inhabited

def Lookup.binding? : Lookup → Option BindingId
  | found id => some id
  | _ => none

def Lookup.ofOption (default : Lookup) : Option BindingId → Lookup
  | some id => found id
  | none => default

/-- What stands to the left of a dot. -/
inductive Qualifier where
  | package (name : String)
  | type (id : BindingId)
  /-- A value, with its type if that is known. -/
  | value (type : Option BindingId)
  | unknown
deriving DecidableEq, Repr, Inhabited

/-- The type whose members the qualifier selects from. -/
def Qualifier.type? : Qualifier → Option BindingId
  | type id => some id
  | value t => t
  | _ => none

/-- An import as the names of the file see it. -/
structure ImportEntry where
  qualified : String
  /-- The last segment of an import of a single name. -/
  simple : Option String
  isStatic : Bool
  /-- The imported type, or the type that owns what a static import names. -/
  target : Option BindingId
  used : Bool
deriving DecidableEq, Repr, Inhabited

inductive ScopeKind where
  | type (id : BindingId)
  | method (id : BindingId)
  | block
deriving DecidableEq, Repr, Inhabited

/-- The names declared at one level of nesting, the latest first. -/
structure Scope where
  kind : ScopeKind
  entries : List (String × BindingId)
deriving DecidableEq, Repr, Inhabited

def Scope.type? (s : Scope) : Option BindingId :=
  match s.kind with
  | .type id => some id
  | _ => none

def Scope.owner? (s : Scope) : Option BindingId :=
  match s.kind with
  | .type id => some id
  | .method id => some id
  | .block => none

structure Binder where
  bindings : Bindings
  /-- The problems found so far, the latest first. -/
  problems : List Problem
  /-- What is referred to elsewhere than as the target of a plain assignment. -/
  used : List BindingId
  package : Option String
  imports : List ImportEntry
  /-- The types declared at the top level of the file. -/
  topLevel : List (String × BindingId)
  /-- The scopes around the current place, the innermost first. -/
  scopes : List Scope
  /-- Types of which not all super types are known. -/
  openTypes : List BindingId
  /-- Variables whose declared type is missing. -/
  untyped : List BindingId
  /-- What the name that starts at an offset is bound to. -/
  bound : Std.TreeMap Nat BindingId

namespace Binder

/-- The start of the walk through a file of the given package. -/
def start (package : Option String) : Binder where
  bindings := .universe
  problems := []
  used := []
  package
  imports := []
  topLevel := []
  scopes := []
  openTypes := []
  untyped := []
  bound := ∅

def currentType? (b : Binder) : Option BindingId := b.scopes.findSome? Scope.type?

/-- The method or type that owns what is declared here. -/
def currentOwner? (b : Binder) : Option BindingId := b.scopes.findSome? Scope.owner?

def builtIn? (b : Binder) (name : String) : Option BindingId := b.bindings.ofQualifiedName? name

def superClass? (b : Binder) (type : BindingId) : Option BindingId := do
  (← b.bindings.get? type).superClass

/-- What the name that starts at an offset is bound to. -/
def boundAt? (b : Binder) (offset : Nat) : Option BindingId := b.bound[offset]?

end Binder

/-- A step of the walk that binds names. -/
abbrev Binding.Walk (α : Type) := StateM Binder α

namespace Binder

/-- Binds the name that starts at the offset. -/
def bind (offset : Nat) (id : BindingId) : Binding.Walk Unit :=
  modify fun b => { b with bound := b.bound.insert offset id }

def markUsed (id : BindingId) : Binding.Walk Unit :=
  modify fun b => if id ∈ b.used then b else { b with used := id :: b.used }

/-- Binds the name that starts at the offset by a reference. -/
def refer (offset : Nat) (id : BindingId) : Binding.Walk Unit := do
  bind offset id
  markUsed id

def report (id : ProblemId) (category : ProblemCategory) (message : String) (range : TextRange) :
    Binding.Walk Unit :=
  modify fun b => { b with problems := ⟨id, category, .error, message, range⟩ :: b.problems }

/-- Adds a binding to the table. -/
def allocate (data : Binding) : Binding.Walk BindingId :=
  modifyGet fun b => (b.bindings.nextId, { b with bindings := b.bindings.push data })

def complete (id : BindingId) (f : Binding → Binding) : Binding.Walk Unit :=
  modify fun b => { b with bindings := b.bindings.modify id f }

/-- Declares a name in the innermost scope. -/
def enter (name : String) (id : BindingId) : Binding.Walk Unit :=
  modify fun b =>
    match b.scopes with
    | s :: ss => { b with scopes := { s with entries := (name, id) :: s.entries } :: ss }
    | [] => b

/-- Runs a step in a scope of its own, which is gone afterwards. -/
def inScope {α : Type} (kind : ScopeKind) (step : Binding.Walk α) : Binding.Walk α := do
  let outer := (← get).scopes
  modify fun b => { b with scopes := ⟨kind, []⟩ :: outer }
  let x ← step
  modify fun b => { b with scopes := outer }
  return x

def markOpen (id : BindingId) : Binding.Walk Unit :=
  modify fun b => { b with openTypes := id :: b.openTypes }

def markUntyped (id : BindingId) : Binding.Walk Unit :=
  modify fun b => { b with untyped := id :: b.untyped }

end Binder

end JavaAnalysis
