import JavaAnalysis.Binding.Basic

/-!
# Tables of bindings

A table holds the bindings of one file, the built-in ones first. Bindings are only ever added at
the end; later they may be completed, but they keep their name and their owner. Outside its table a
built-in type is named by its full name, a built-in member by its type and its name, and what the
file declares by its number among the declarations of the file.
-/

set_option autoImplicit false

namespace JavaAnalysis

structure Bindings where
  data : Array Binding
deriving DecidableEq, Repr, Inhabited

namespace Bindings

def empty : Bindings := ⟨#[]⟩

def size (t : Bindings) : Nat := t.data.size

def get? (t : Bindings) (id : BindingId) : Option Binding := t.data[id.index]?

/-- The number that the next binding gets. -/
def nextId (t : Bindings) : BindingId := ⟨t.size⟩

/-- Adds a binding under the next number. -/
def push (t : Bindings) (b : Binding) : Bindings := ⟨t.data.push b⟩

/-- Completes a binding. -/
def modify (t : Bindings) (id : BindingId) (f : Binding → Binding) : Bindings :=
  ⟨t.data.modify id.index f⟩

/-- All numbers in ascending order. -/
def ids (t : Bindings) : List BindingId := (List.range t.size).map BindingId.mk

def kind? (t : Bindings) (id : BindingId) : Option BindingKind := (t.get? id).map (·.kind)

/-- The name of a binding; an unknown one has none. -/
def name (t : Bindings) (id : BindingId) : String := ((t.get? id).map (·.name)).getD ""

/--
What is declared directly in a type or method, in ascending order: nested types, fields, constants
and methods of a type, parameters and locals of a method.
-/
def members (t : Bindings) (owner : BindingId) : List BindingId :=
  (t.data.foldr (fun b (acc : List BindingId × Nat) =>
    let i := acc.2 - 1
    (if b.owner = some owner then ⟨i⟩ :: acc.1 else acc.1, i)) ([], t.size)).1

/-- The first type of the given full name. -/
def ofQualifiedName? (t : Bindings) (name : String) : Option BindingId :=
  (t.data.findIdx? fun b => b.qualifiedName == some name).map BindingId.mk

/-- The number of steps from a type to a super type in the whole table. -/
def links (t : Bindings) : Nat := t.data.foldl (fun n b => n + b.parents.length) 0

def parents (t : Bindings) (id : BindingId) : List BindingId :=
  ((t.get? id).map (·.parents)).getD []

/-- Puts those of `more` that are new behind a list, each once. -/
def addNew (seen : List BindingId) : List BindingId → List BindingId
  | [] => []
  | x :: xs => if x ∈ seen then addNew seen xs else x :: addNew (x :: seen) xs

/--
The types reached from `pending`, nearer ones first, behind those in `done`, whose parents are known
already. Takes at most `n` steps.
-/
def closure (t : Bindings) : Nat → List BindingId → List BindingId → List BindingId
  | 0, done, pending => done ++ pending
  | _, done, [] => done
  | n + 1, done, x :: xs =>
    closure t n (done ++ [x]) (xs ++ addNew (done ++ x :: xs) (t.parents x))

/--
A type, then its super classes and interfaces, nearer ones first, each once, the super class of a
type before its interfaces.
-/
def supertypes (t : Bindings) (id : BindingId) : List BindingId := closure t (t.links + 1) [] [id]

/-- The first member with a name and a property, in a type or the nearest of its super types. -/
def findMember? (t : Bindings) (type : BindingId) (name : String) (p : Binding → Bool) :
    Option BindingId :=
  (t.supertypes type).findSome? fun owner =>
    (t.members owner).find? fun m =>
      match t.get? m with
      | some b => b.name == name && p b
      | none => false

/-- The nearest owner that is a type, `n` owners up at most. -/
def enclosingFrom (t : Bindings) : Nat → Option BindingId → Option BindingId
  | 0, _ => none
  | _, none => none
  | n + 1, some owner =>
    match t.get? owner with
    | none => none
    | some b => if b.kind.isType then some owner else enclosingFrom t n b.owner

/-- The nearest type around a binding, itself excluded. -/
def enclosingType? (t : Bindings) (id : BindingId) : Option BindingId := do
  t.enclosingFrom (t.size + 1) (← t.get? id).owner

end Bindings

end JavaAnalysis

namespace JavaAnalysis.Bindings

/-! ## References to bindings -/

/-- The number of built-in bindings at the head of a table. -/
def builtInCount (t : Bindings) : Nat :=
  (t.data.toList.takeWhile fun b => b.origin == .builtIn).length

/-- The bindings that the file declares, in the order of their declaration. -/
def declaredIds (t : Bindings) : List BindingId := t.ids.drop t.builtInCount

/-- How a built-in binding is named. -/
def builtInName (t : Bindings) (b : Binding) : String :=
  match b.qualifiedName with
  | some name => name
  | none =>
    match b.owner.bind t.get? with
    | some owner => owner.qualifiedName.getD owner.name ++ "." ++ b.name
    | none => b.name

/-- How a binding is named. -/
def reference (t : Bindings) (id : BindingId) : String :=
  match t.get? id with
  | some b =>
    if b.origin == .builtIn then t.builtInName b else s!"s{id.index - t.builtInCount}"
  | none => s!"s{id.index - t.builtInCount}"

end JavaAnalysis.Bindings
