import JavaAnalysis.Ast.Range
import JavaAnalysis.Text.Quoted

/-!
# Bindings

A binding is what a name stands for: a type, a variable, a method or a constructor, declared in the
file or built in. A binding is known by its number in the table of bindings.
-/

set_option autoImplicit false

namespace JavaAnalysis

open Ast (ModifierWord Modifier)

/-- The number of a binding in its table. -/
structure BindingId where
  index : Nat
deriving DecidableEq, Repr, Inhabited, Hashable

def BindingId.render (id : BindingId) : String := s!"#{id.index}"

inductive BindingKind where
  | classType
  | interfaceType
  | annotationType
  | enumType
  | recordType
  | typeParameter
  | field
  | enumConstant
  | method
  | constructor
  | parameter
  | localVariable
deriving DecidableEq, Repr, Inhabited

namespace BindingKind

def all : List BindingKind :=
  [classType, interfaceType, annotationType, enumType, recordType, typeParameter, field,
    enumConstant, method, constructor, parameter, localVariable]

def name : BindingKind → String
  | classType => "Class"
  | interfaceType => "Interface"
  | annotationType => "Annotation"
  | enumType => "Enum"
  | recordType => "Record"
  | typeParameter => "TypeParameter"
  | field => "Field"
  | enumConstant => "EnumConstant"
  | method => "Method"
  | constructor => "Constructor"
  | parameter => "Parameter"
  | localVariable => "LocalVariable"

def isType : BindingKind → Bool
  | classType | interfaceType | annotationType | enumType | recordType | typeParameter => true
  | _ => false

def isVariable : BindingKind → Bool
  | field | enumConstant | parameter | localVariable => true
  | _ => false

def isMethod : BindingKind → Bool
  | method | constructor => true
  | _ => false

/-- The kind of binding that a type declaration introduces. -/
def ofDecl : Ast.TypeDeclKind → BindingKind
  | .classType => classType
  | .interfaceType => interfaceType
  | .annotationType => annotationType
  | .enumType => enumType
  | .recordType => recordType

end BindingKind

/-- Whether a binding is declared in the file or known beforehand. -/
inductive Origin where
  | source
  | builtIn
deriving DecidableEq, Repr, Inhabited

/-- A set of modifier words; bit `i` stands for the `i`-th of them. -/
structure ModifierSet where
  bits : Nat
deriving DecidableEq, Repr, Inhabited

namespace ModifierSet

/-- The modifier words in the order in which sets list them, with their spelling. -/
def words : List (ModifierWord × String) := [
  (.public, "public"), (.protected, "protected"), (.private, "private"), (.static, "static"),
  (.abstract, "abstract"), (.final, "final"), (.native, "native"),
  (.synchronized, "synchronized"), (.transient, "transient"), (.volatile, "volatile"),
  (.strictfp, "strictfp"), (.default, "default"), (.sealed, "sealed"), (.nonSealed, "non-sealed")]

def empty : ModifierSet := ⟨0⟩

def contains (s : ModifierSet) (m : ModifierWord) : Bool := s.bits.testBit m.ctorIdx

def insert (s : ModifierSet) (m : ModifierWord) : ModifierSet := ⟨s.bits ||| 1 <<< m.ctorIdx⟩

def union (s t : ModifierSet) : ModifierSet := ⟨s.bits ||| t.bits⟩

def ofList (ms : List ModifierWord) : ModifierSet := ms.foldl insert empty

/-- The words among the modifiers of a declaration. -/
def ofModifiers (ms : List Modifier) : ModifierSet :=
  ofList <| ms.filterMap fun
    | .word _ m => some m
    | .annotated _ => none

/-- The words of a set, quoted, between braces. -/
def render (s : ModifierSet) : String :=
  let names := (words.filter fun w => s.contains w.1).map fun w => Quoted.ofString w.2
  "\x7b" ++ ", ".intercalate names ++ "\x7d"

@[simp] theorem contains_empty (m : ModifierWord) : empty.contains m = false := by
  simp [empty, contains]

@[simp] theorem contains_union (s t : ModifierSet) (m : ModifierWord) :
    (s.union t).contains m = (s.contains m || t.contains m) := by
  simp [union, contains]

end ModifierSet

/-- What is known of a declaration. -/
structure Binding where
  kind : BindingKind
  name : String
  origin : Origin
  modifiers : ModifierSet
  /-- The enclosing type, or the enclosing method of a local declaration. -/
  owner : Option BindingId
  /-- The full name of a type that has one. -/
  qualifiedName : Option String
  superClass : Option BindingId
  interfaces : List BindingId
  /-- The types of the parameters of a method or constructor, as they are spelled. -/
  params : List String
  varargs : Bool
  /-- The type of a variable or the return type of a method, as it is spelled. -/
  typeName : Option String
  /-- The type of a variable or the return type of a method, where it is a known class. -/
  typeBinding : Option BindingId
deriving DecidableEq, Repr, Inhabited

namespace Binding

/-- A binding of which nothing but kind, name, origin, owner and modifiers is known. -/
def plain (kind : BindingKind) (name : String) (origin : Origin) (owner : Option BindingId)
    (modifiers : ModifierSet) : Binding where
  kind
  name
  origin
  modifiers
  owner
  qualifiedName := none
  superClass := none
  interfaces := []
  params := []
  varargs := false
  typeName := none
  typeBinding := none

/-- A call with `arity` arguments can mean this method. -/
def accepts (b : Binding) (arity : Nat) : Bool :=
  match b.origin with
  | .builtIn => true
  | .source =>
    if b.varargs then decide (b.params.length ≤ arity + 1) else arity == b.params.length

/-- The types that a type extends or implements directly, its super class first. -/
def parents (b : Binding) : List BindingId := b.superClass.toList ++ b.interfaces

end Binding

end JavaAnalysis
