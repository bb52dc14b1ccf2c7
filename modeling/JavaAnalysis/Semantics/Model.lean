import JavaAnalysis.Binding.Table
import JavaAnalysis.Semantics.Occurrences

/-!
# The semantic model of a file

The bindings of a file together with the nodes that declare and use them, and what follows from
both: the super types of a type and the method that a method overrides.
-/

set_option autoImplicit false

namespace JavaAnalysis

structure SemanticModel where
  bindings : Bindings
  declarations : Std.HashMap BindingId NodeId
  /-- The usages of each binding in the order of the text. -/
  usageTable : Std.HashMap BindingId (List NodeId)
  bindingAt : Std.HashMap NodeId BindingId
  labels : Labels
  labelAt : Std.HashMap NodeId LabelId

namespace SemanticModel

/-- Puts nodes in the order in which they start; of those that start together the first met wins. -/
def inTextOrder (t : SyntaxTree) (latestFirst : List NodeId) : List NodeId :=
  latestFirst.reverse.mergeSort fun a b => decide ((t.range a).start ≤ (t.range b).start)

/-- The model of a tree with the given occurrences. -/
def ofOccurrences (t : SyntaxTree) (bindings : Bindings) (o : Occurrences) : SemanticModel where
  bindings
  declarations := o.declarations
  usageTable := o.usages.map fun _ nodes => inTextOrder t nodes
  bindingAt := o.bindingAt
  labels := o.labels
  labelAt := o.labelAt

/-- The model of bindings that occur nowhere. -/
def ofBindings (bindings : Bindings) : SemanticModel where
  bindings
  declarations := ∅
  usageTable := ∅
  bindingAt := ∅
  labels := .empty
  labelAt := ∅

variable (m : SemanticModel)

def declaration? (id : BindingId) : Option NodeId := m.declarations[id]?

def usages (id : BindingId) : List NodeId := m.usageTable.getD id []

/-- The binding that a node declares or uses. -/
def bindingOf? (node : NodeId) : Option BindingId := m.bindingAt[node]?

/-- The label that a statement declares or a jump names. -/
def labelOf? (node : NodeId) : Option Label := (m.labelAt[node]?).map m.labels.get

/-- The bindings that are declared, with their declarations. -/
def declaredNodes : List (BindingId × NodeId) :=
  m.bindings.ids.filterMap fun id => (m.declaration? id).map fun node => (id, node)

def modifiers (id : BindingId) : ModifierSet :=
  ((m.bindings.get? id).map (·.modifiers)).getD .empty

def owner? (id : BindingId) : Option BindingId := (m.bindings.get? id).bind (·.owner)

def isBuiltIn (id : BindingId) : Bool := (m.bindings.get? id).any fun b => b.origin == .builtIn

/-- The nearest type around a binding, itself excluded. -/
def enclosingType? (id : BindingId) : Option BindingId := m.bindings.enclosingType? id

/-- All super types of a type, nearer ones first, itself excluded. -/
def supertypes (id : BindingId) : List BindingId := (m.bindings.supertypes id).tail

/-- A method of another type can be overridden by the given one. -/
def isOverridable (method member : Binding) : Bool :=
  member.kind == .method && member.name == method.name &&
    !member.modifiers.contains .private &&
    (member.origin == .builtIn || member.params == method.params)

/-- The method that a method overrides, in the nearest super type that has one. -/
def overridden? (id : BindingId) : Option BindingId := do
  let method ← m.bindings.get? id
  if method.kind != .method || method.modifiers.contains .static ||
      method.modifiers.contains .private then none
  else
    (m.supertypes (← m.enclosingType? id)).findSome? fun type =>
      (m.bindings.members type).find? fun member =>
        (m.bindings.get? member).any (isOverridable method)

/-- The sizes of the model. -/
def summary : String :=
  s!"SemanticModel \x7b declarations: {m.declarations.size}, usages: {m.usageTable.size}, " ++
    s!"labels: {m.labels.all.size}, .. \x7d"

/-- A binding as its number, its name and its kind. -/
def renderSymbol (id : BindingId) : String :=
  let name := Quoted.ofString (m.bindings.name id)
  let kind := match m.bindings.kind? id with
    | some kind => s!"Some({kind.name})"
    | none => "None"
  s!"Symbol \x7b id: BindingId({id.index}), name: {name}, kind: {kind} \x7d"

end SemanticModel

end JavaAnalysis
