import JavaAnalysis.Binding.Basic
import JavaAnalysis.Tree.Basic
import Std.Data.HashMap

/-!
# Occurrences of bindings and labels

Where the bindings of a file are declared and used in its tree. A node stands for one binding at
most, and a binding has one declaration at most; in both cases the first entry counts.

The labels around a statement are kept while the nodes of a file are built, with the jumps that name
them. A jump goes to the innermost label of its name that is open; inside the body of a class or a
lambda the labels around the body are not open.
-/

set_option autoImplicit false

namespace JavaAnalysis

/-! ## Labels of statements -/

/-- The number of a label in its file. -/
structure LabelId where
  index : Nat
deriving DecidableEq, Repr, Inhabited, Hashable

structure Label where
  name : String
  /-- The labeled statement, once it is complete. -/
  declaration : Option NodeId
  /-- The names of the label in jumps. -/
  usages : List NodeId
deriving DecidableEq, Repr, Inhabited

structure Labels where
  all : Array Label
  /-- The open labels, the innermost first. -/
  active : List LabelId
  /-- Names in jumps that are no open label, in the order in which they were met. -/
  unresolved : List NodeId
deriving DecidableEq, Repr, Inhabited

namespace Labels

def empty : Labels := ⟨#[], [], []⟩

def get (s : Labels) (id : LabelId) : Label := s.all.getD id.index default

/-- The number of open labels. -/
def depth (s : Labels) : Nat := s.active.length

/-- Opens a label. -/
def enter (s : Labels) (name : String) : LabelId × Labels :=
  let id : LabelId := ⟨s.all.size⟩
  (id, { s with all := s.all.push ⟨name, none, []⟩, active := id :: s.active })

/-- Closes the innermost label, which labels the given statement. -/
def exit (s : Labels) (declaration : NodeId) : Option LabelId × Labels :=
  match s.active with
  | [] => (none, s)
  | id :: active =>
    (some id, { s with
      all := s.all.modify id.index fun l => { l with declaration := some declaration }, active })

/-- The innermost open label of a name. -/
def find? (s : Labels) (name : String) : Option LabelId :=
  s.active.find? fun id => (s.get id).name == name

/-- Resolves the name of a label in a jump. -/
def resolve (s : Labels) (name : String) (usage : NodeId) : Option LabelId × Labels :=
  match s.find? name with
  | some id =>
    (some id, { s with
      all := s.all.modify id.index fun l => { l with usages := l.usages ++ [usage] } })
  | none => (none, { s with unresolved := s.unresolved ++ [usage] })

/-- Hides the open labels, which are to be restored behind the body. -/
def enterBody (s : Labels) : List LabelId × Labels := (s.active, { s with active := [] })

/-- Restores the labels that were open in front of a body. -/
def exitBody (s : Labels) (outer : List LabelId) : Labels := { s with active := outer }

end Labels

/-! ## Occurrences -/

structure Occurrences where
  declarations : Std.HashMap BindingId NodeId
  /-- The usages of each binding, the latest first. -/
  usages : Std.HashMap BindingId (List NodeId)
  bindingAt : Std.HashMap NodeId BindingId
  labels : Labels
  labelAt : Std.HashMap NodeId LabelId

namespace Occurrences

def empty : Occurrences := ⟨∅, ∅, ∅, .empty, ∅⟩

/-- Enters a node that stands for a binding, unless it stands for one already. -/
def claim? (o : Occurrences) (node : NodeId) (id : BindingId) : Option Occurrences :=
  if o.bindingAt.contains node then none
  else some { o with bindingAt := o.bindingAt.insert node id }

/-- Enters a node as the declaration of a binding. -/
def declare (o : Occurrences) (id : BindingId) (node : NodeId) : Occurrences :=
  match o.claim? node id with
  | none => o
  | some o => { o with declarations := o.declarations.insertIfNew id node }

/-- Enters a node as a usage of a binding. -/
def refer (o : Occurrences) (id : BindingId) (node : NodeId) : Occurrences :=
  match o.claim? node id with
  | none => o
  | some o => { o with usages := o.usages.insert id (node :: o.usages.getD id []) }

def enterLabel (o : Occurrences) (name : String) : LabelId × Occurrences :=
  let (id, labels) := o.labels.enter name
  (id, { o with labels })

/-- Closes the innermost label, which labels the given statement. -/
def exitLabel (o : Occurrences) (node : NodeId) : Option LabelId × Occurrences :=
  match o.labels.exit node with
  | (some id, labels) => (some id, { o with labels, labelAt := o.labelAt.insert node id })
  | (none, labels) => (none, { o with labels })

/-- Resolves the name of a label in a jump. -/
def resolveLabel (o : Occurrences) (name : String) (node : NodeId) :
    Option LabelId × Occurrences :=
  match o.labels.resolve name node with
  | (some id, labels) => (some id, { o with labels, labelAt := o.labelAt.insert node id })
  | (none, labels) => (none, { o with labels })

/-- Hides the open labels at the start of a body. -/
def enterBody (o : Occurrences) : List LabelId × Occurrences :=
  let (outer, labels) := o.labels.enterBody
  (outer, { o with labels })

def exitBody (o : Occurrences) (outer : List LabelId) : Occurrences :=
  { o with labels := o.labels.exitBody outer }

end Occurrences

end JavaAnalysis
