import JavaAnalysis.Binding.Universe
import JavaAnalysis.Proofs.Resolve.Walk
import JavaAnalysis.Semantics.Model
import Mathlib.Data.List.Induction
import Mathlib.Logic.Function.Basic

/-!
# Tables that grow

A table of bindings grows at its end, and rows that are there may be completed, but never in their
owner or their full name. So an index of the members of each owner, and one of the first type of
each full name, need to be kept only when a row is added: they stay exact while rows are completed.

A table starts with the built-in bindings, and what the file declares stands behind what owns it.
Such a table is called well-formed: what its rows refer to is in the table, the file adds no members
to a built-in type, and the way from a binding over its owners to the nearest type ends.
Main statements: `Bindings.members_eq`, `Bindings.ofQualifiedName?_eq_some_iff`,
`IndexedTable.Filled.memberIndex_eq`, `Bindings.WellFormed.refers`,
`Bindings.WellFormed.members_eq`, `SemanticModel.climbs_iff`.
-/

set_option autoImplicit false
set_option linter.dupNamespace false

namespace JavaAnalysis

/-- More may be known of a binding, which is still that of the same declaration. -/
structure Binding.Completes (b b' : Binding) : Prop where
  kind : b'.kind = b.kind
  name : b'.name = b.name
  origin : b'.origin = b.origin
  modifiers : b'.modifiers = b.modifiers
  owner : b'.owner = b.owner
  qualifiedName : b'.qualifiedName = b.qualifiedName

theorem Binding.Completes.refl (b : Binding) : b.Completes b := ⟨rfl, rfl, rfl, rfl, rfl, rfl⟩

theorem Binding.Completes.trans {b b' b'' : Binding} (h : b.Completes b') (h' : b'.Completes b'') :
    b.Completes b'' where
  kind := h'.kind.trans h.kind
  name := h'.name.trans h.name
  origin := h'.origin.trans h.origin
  modifiers := h'.modifiers.trans h.modifiers
  owner := h'.owner.trans h.owner
  qualifiedName := h'.qualifiedName.trans h.qualifiedName

namespace Bindings

variable {t t' : Bindings} {id o x : BindingId} {b : Binding} {q : String}

/-- There is a row of the number in the table. -/
def Has (t : Bindings) (id : BindingId) : Prop := id.index < t.size

theorem get?_eq_none (h : ¬ t.Has id) : t.get? id = none :=
  Array.getElem?_eq_none (Nat.le_of_not_lt h)

theorem has_of_get? (h : t.get? id = some b) : t.Has id :=
  (Array.getElem?_eq_some_iff.1 h).1

theorem exists_get? (h : t.Has id) : ∃ b, t.get? id = some b :=
  ⟨_, Array.getElem?_eq_getElem h⟩

theorem has_nextId_iff (t : Bindings) (b : Binding) :
    (t.push b).Has id ↔ t.Has id ∨ id = t.nextId := by
  have hindex : id = t.nextId ↔ id.index = t.size := by
    cases id
    simp [nextId]
  rw [Has, Has, hindex, push, size, Array.size_push]
  exact Nat.lt_succ_iff_lt_or_eq

/-! ## Adding and completing rows -/

theorem get?_push (t : Bindings) (b : Binding) (id : BindingId) :
    (t.push b).get? id = if id = t.nextId then some b else t.get? id := by
  have hindex : id = t.nextId ↔ id.index = t.data.size := by
    cases id
    simp [nextId, size]
  simp only [get?, push, Array.getElem?_push, hindex]

theorem get?_modify (t : Bindings) (id : BindingId) (f : Binding → Binding) (x : BindingId) :
    (t.modify id f).get? x = if id = x then (t.get? x).map f else t.get? x := by
  have hindex : id = x ↔ id.index = x.index := by
    cases id
    cases x
    simp
  simp only [get?, modify, Array.getElem?_modify, hindex]

theorem size_modify (t : Bindings) (id : BindingId) (f : Binding → Binding) :
    (t.modify id f).size = t.size := Array.size_modify

theorem ids_push (t : Bindings) (b : Binding) : (t.push b).ids = t.ids ++ [t.nextId] := by
  have hsize : (t.push b).size = t.size + 1 := Array.size_push b
  rw [ids, ids, hsize, List.range_succ, List.map_append]
  rfl

/-- The numbers are listed in ascending order. -/
theorem pairwise_ids (t : Bindings) : t.ids.Pairwise fun x y => x.index < y.index := by
  rw [ids, List.pairwise_map]
  exact List.pairwise_lt_range

theorem mem_ids_iff : x ∈ t.ids ↔ t.Has x := by
  rw [ids, List.mem_map]
  constructor
  · rintro ⟨i, hi, rfl⟩
    exact List.mem_range.1 hi
  · intro h
    exact ⟨x.index, List.mem_range.2 h, rfl⟩

/-! ## Members and full names -/

/-- The binding has the given owner. -/
def isOwnedBy (t : Bindings) (o id : BindingId) : Bool := (t.get? id).any fun b => b.owner = some o

theorem isOwnedBy_iff : t.isOwnedBy o id = true ↔ ∃ b, t.get? id = some b ∧ b.owner = some o := by
  simp [isOwnedBy, Option.any_eq_true]

/-- Rows from number `k` on, filtered from the last one to the first. -/
theorem foldr_members (o : BindingId) (rows : List Binding) (k : Nat) :
    rows.foldr (fun b (acc : List BindingId × Nat) =>
      let i := acc.2 - 1
      (if b.owner = some o then ⟨i⟩ :: acc.1 else acc.1, i)) ([], k + rows.length) =
    (((rows.zipIdx k).filter fun r => r.1.owner = some o).map fun r => ⟨r.2⟩, k) := by
  induction rows generalizing k with
  | nil => rfl
  | cons b rows ih =>
    have hlength : k + (b :: rows).length = (k + 1) + rows.length := by
      rw [List.length_cons]
      omega
    rw [hlength, List.foldr_cons, ih, List.zipIdx_cons]
    by_cases howner : b.owner = some o
    · simp [howner]
    · simp [howner]

/-- The members of an owner are the bindings that it owns, in ascending order. -/
theorem members_eq (t : Bindings) (o : BindingId) : t.members o = t.ids.filter (t.isOwnedBy o) := by
  have hfold := foldr_members o t.data.toList 0
  rw [Nat.zero_add, Array.length_toList, Array.foldr_toList] at hfold
  rw [members, size, hfold]
  dsimp only
  have hids : t.ids = t.data.toList.zipIdx.map fun r => ⟨r.2⟩ := by
    rw [ids, size, ← Array.length_toList, List.range_eq_range', ← List.zipIdx_map_snd,
      List.map_map]
    rfl
  rw [hids, List.filter_map]
  congr 1
  apply List.filter_congr
  intro r hr
  have hrow : t.get? ⟨r.2⟩ = some r.1 := by
    rw [get?, ← Array.getElem?_toList]
    exact List.mem_zipIdx_iff_getElem?.1 hr
  simp [isOwnedBy, hrow]

theorem mem_members_iff : x ∈ t.members o ↔ ∃ b, t.get? x = some b ∧ b.owner = some o := by
  rw [members_eq, List.mem_filter, isOwnedBy_iff, mem_ids_iff]
  constructor
  · exact And.right
  · rintro ⟨b, hb, howner⟩
    exact ⟨has_of_get? hb, b, hb, howner⟩

/-- The first row of a full name. -/
theorem ofQualifiedName?_eq_some_iff : t.ofQualifiedName? q = some x ↔
    (∃ b, t.get? x = some b ∧ b.qualifiedName = some q) ∧
      ∀ y b, t.get? y = some b → b.qualifiedName = some q → x.index ≤ y.index := by
  rw [ofQualifiedName?, Option.map_eq_some_iff]
  simp only [Array.findIdx?_eq_some_iff_getElem, beq_iff_eq]
  constructor
  · rintro ⟨i, ⟨hi, hname, hfirst⟩, rfl⟩
    refine ⟨⟨t.data[i], Array.getElem?_eq_getElem hi, hname⟩, ?_⟩
    intro y b hy hb
    by_contra hlt
    obtain ⟨hlt', rfl⟩ := Array.getElem?_eq_some_iff.1 hy
    exact hfirst y.index (Nat.lt_of_not_le hlt) hb
  · rintro ⟨⟨b, hx, hname⟩, hfirst⟩
    obtain ⟨hlt, rfl⟩ := Array.getElem?_eq_some_iff.1 hx
    refine ⟨x.index, ⟨hlt, hname, ?_⟩, rfl⟩
    intro j hj hb
    have hle := hfirst ⟨j⟩ _ (Array.getElem?_eq_getElem (Nat.lt_trans hj hlt)) hb
    exact Nat.not_le.2 hj hle

theorem links_eq_foldl :
    links = fun t => t.data.toList.foldl (fun n b => n + b.parents.length) 0 := by
  funext t
  exact (Array.foldl_toList _).symm

theorem members_eq_foldr : members = fun t o =>
    (t.data.toList.foldr (fun b (acc : List BindingId × Nat) =>
      let i := acc.2 - 1
      (if b.owner = some o then ⟨i⟩ :: acc.1 else acc.1, i)) ([], t.size)).1 := by
  funext t o
  exact congrArg Prod.fst (Array.foldr_toList _).symm

theorem ofQualifiedName?_eq_findIdx? : ofQualifiedName? = fun t q =>
    (t.data.toList.findIdx? fun b => b.qualifiedName == some q).map BindingId.mk := by
  funext t q
  exact congrArg (Option.map BindingId.mk) (List.findIdx?_toArray _ t.data.toList)

/-! ## Growth -/

/-- The second table comes from the first by adding rows and completing them. -/
inductive Grows (t : Bindings) : Bindings → Prop
  | refl : Grows t t
  | push {t' : Bindings} (h : Grows t t') (b : Binding) : Grows t (t'.push b)
  | modify {t' : Bindings} (h : Grows t t') (id : BindingId) (f : Binding → Binding)
    (hf : ∀ b, t'.get? id = some b → b.Completes (f b)) : Grows t (t'.modify id f)

namespace Grows

theorem trans {t'' : Bindings} (h : t.Grows t') (h' : t'.Grows t'') : t.Grows t'' := by
  induction h' with
  | refl => exact h
  | push _ b ih => exact ih.push b
  | modify _ id f hf ih => exact ih.modify id f hf

/-- Rows stay where they are. -/
theorem get? (h : t.Grows t') (hb : t.get? id = some b) :
    ∃ b', t'.get? id = some b' ∧ b.Completes b' := by
  induction h with
  | refl => exact ⟨b, hb, .refl b⟩
  | @push t' _ data ih =>
    obtain ⟨b', hb', hcompletes⟩ := ih
    have hne : id ≠ t'.nextId := by
      rintro rfl
      exact Nat.lt_irrefl _ (has_of_get? hb')
    rw [get?_push, if_neg hne]
    exact ⟨b', hb', hcompletes⟩
  | modify _ x f hf ih =>
    obtain ⟨b', hb', hcompletes⟩ := ih
    rw [get?_modify]
    by_cases heq : x = id
    · subst heq
      rw [if_pos rfl, hb']
      exact ⟨f b', rfl, hcompletes.trans (hf b' hb')⟩
    · rw [if_neg heq]
      exact ⟨b', hb', hcompletes⟩

theorem has (h : t.Grows t') (hid : t.Has id) : t'.Has id := by
  obtain ⟨b, hb⟩ := exists_get? hid
  obtain ⟨b', hb', -⟩ := h.get? hb
  exact has_of_get? hb'

end Grows

end Bindings

/-! ## Indexes that are kept when rows are added -/

/-- A table with the members of each owner and the first type of each full name. -/
structure IndexedTable where
  table : Bindings
  memberIndex : BindingId → List BindingId
  nameIndex : String → Option BindingId

namespace IndexedTable

def empty : IndexedTable := ⟨.empty, fun _ => [], fun _ => none⟩

/-- Adds a row, as one more member of its owner; the first row of a full name keeps the name. -/
def alloc (t : IndexedTable) (b : Binding) : IndexedTable where
  table := t.table.push b
  memberIndex := match b.owner with
    | some o => Function.update t.memberIndex o (t.memberIndex o ++ [t.table.nextId])
    | none => t.memberIndex
  nameIndex := match b.qualifiedName with
    | some q => Function.update t.nameIndex q ((t.nameIndex q).or (some t.table.nextId))
    | none => t.nameIndex

/-- Completes a row, without regard to the indexes. -/
def complete (t : IndexedTable) (id : BindingId) (f : Binding → Binding) : IndexedTable :=
  { t with table := t.table.modify id f }

/-- The table is filled row by row, and rows are completed in between. -/
inductive Filled : IndexedTable → Prop
  | empty : Filled empty
  | alloc {t : IndexedTable} (h : Filled t) (b : Binding) : Filled (t.alloc b)
  | complete {t : IndexedTable} (h : Filled t) (id : BindingId) (f : Binding → Binding)
    (hf : ∀ b, t.table.get? id = some b → b.Completes (f b)) : Filled (t.complete id f)

variable {t : IndexedTable}

/-- A table that has grown from one that was filled in was filled in. -/
theorem Filled.grows {table : Bindings} (h : t.Filled) (hgrows : t.table.Grows table) :
    ∃ t' : IndexedTable, t'.Filled ∧ t'.table = table := by
  induction hgrows with
  | refl => exact ⟨t, h, rfl⟩
  | push _ b ih =>
    obtain ⟨t', ht', rfl⟩ := ih
    exact ⟨t'.alloc b, ht'.alloc b, rfl⟩
  | modify _ id f hf ih =>
    obtain ⟨t', ht', rfl⟩ := ih
    exact ⟨t'.complete id f, ht'.complete id f hf, rfl⟩

end IndexedTable

/-! ## Rows and their owners -/

namespace Bindings

/-- What is declared in the file, and is a type if that is asked for. -/
def Declares (t : Bindings) (isType : Bool) (id : BindingId) : Prop :=
  Bindings.universe.size ≤ id.index ∧
    ∃ b, t.get? id = some b ∧ (isType = true → b.kind.isType = true)

/-- What was found, if anything was, is in the table. -/
def Knows (t : Bindings) (found : Option BindingId) : Prop := ∀ id, found = some id → t.Has id

end Bindings

/-- What a row refers to is in the table, and its owner stands in front of it. -/
structure Binding.Refers (t : Bindings) (id : BindingId) (b : Binding) : Prop where
  owner : ∀ o, b.owner = some o → o.index < id.index
  methodOwner : b.kind = .method → ∀ o, b.owner = some o →
    ∃ b', t.get? o = some b' ∧ b'.kind.isType = true
  superClass : t.Knows b.superClass
  interfaces : ∀ i ∈ b.interfaces, t.Has i
  typeBinding : t.Knows b.typeBinding

/-- The file may declare the binding: its owner is declared in the file, that of a method a type. -/
structure Binding.Fits (t : Bindings) (b : Binding) : Prop where
  origin : b.origin = .source
  owner : ∀ o, b.owner = some o → t.Declares (b.kind == .method) o
  superClass : t.Knows b.superClass
  interfaces : ∀ i ∈ b.interfaces, t.Has i
  typeBinding : t.Knows b.typeBinding

/-- The built-in bindings come first, and what the file declares stands behind its owner. -/
structure Bindings.WellFormed (t : Bindings) : Prop where
  builtIn : ∀ id, Bindings.universe.Has id → t.get? id = Bindings.universe.get? id
  size_le : Bindings.universe.size ≤ t.size
  declared : ∀ id b, t.get? id = some b → Bindings.universe.size ≤ id.index →
    b.Fits t ∧ ∀ o, b.owner = some o → o.index < id.index

variable {t t' : Bindings} {id o x : BindingId} {b : Binding} {isType : Bool}
  {found : Option BindingId} {f : Binding → Binding}

namespace Binding.Fits

/-- Nothing but methods has to be declared in a type. -/
theorem plain {kind : BindingKind} (hkind : kind ≠ .method) (name : String)
    {owner : Option BindingId} (howner : ∀ o, owner = some o → t.Declares false o)
    (modifiers : ModifierSet) : (Binding.plain kind name .source owner modifiers).Fits t where
  origin := rfl
  owner o ho := by
    show t.Declares (kind == .method) o
    rw [beq_false_of_ne hkind]
    exact howner o ho
  superClass := by simp [Binding.plain, Bindings.Knows]
  interfaces := List.forall_mem_nil _
  typeBinding := by simp [Binding.plain, Bindings.Knows]

theorem method (name : String) {owner : BindingId} (howner : t.Declares true owner)
    (modifiers : ModifierSet) :
    (Binding.plain .method name .source (some owner) modifiers).Fits t where
  origin := rfl
  owner o ho := by
    cases ho
    exact howner
  superClass := by simp [Binding.plain, Bindings.Knows]
  interfaces := List.forall_mem_nil _
  typeBinding := by simp [Binding.plain, Bindings.Knows]

theorem named (h : b.Fits t) (qualifiedName : Option String) : { b with qualifiedName }.Fits t :=
  ⟨h.origin, h.owner, h.superClass, h.interfaces, h.typeBinding⟩

theorem typed (h : b.Fits t) (typeName : Option String) (htype : t.Knows found) :
    { b with typeName, typeBinding := found }.Fits t :=
  ⟨h.origin, h.owner, h.superClass, h.interfaces, htype⟩

theorem derived (h : b.Fits t) {interfaces : List BindingId} (hsuper : t.Knows found)
    (hinterfaces : ∀ i ∈ interfaces, t.Has i) : { b with superClass := found, interfaces }.Fits t :=
  ⟨h.origin, h.owner, hsuper, hinterfaces, h.typeBinding⟩

end Binding.Fits

namespace Bindings

theorem Declares.has (h : t.Declares isType id) : t.Has id := by
  obtain ⟨-, b, hb, -⟩ := h
  exact has_of_get? hb

/-- A type is also declared where any declaration will do. -/
theorem Declares.of_type (h : t.Declares true id) : t.Declares isType id := by
  obtain ⟨hsize, b, hb, htype⟩ := h
  exact ⟨hsize, b, hb, fun _ => htype rfl⟩

theorem Declares.of_false (h : t.Declares isType id) : t.Declares false id := by
  obtain ⟨hsize, b, hb, -⟩ := h
  exact ⟨hsize, b, hb, by simp⟩

theorem Declares.knows (h : t.Declares isType id) : t.Knows (some id) := by
  rintro x ⟨⟩
  exact h.has

@[simp]
theorem knows_none (t : Bindings) : t.Knows none := by simp [Knows]

@[simp]
theorem knows_some : t.Knows (some id) ↔ t.Has id := by simp [Knows]

namespace Grows

variable (h : t.Grows t')

include h

theorem declares (hid : t.Declares isType id) : t'.Declares isType id := by
  obtain ⟨hsize, b, hb, htype⟩ := hid
  obtain ⟨b', hb', hcompletes⟩ := h.get? hb
  exact ⟨hsize, b', hb', fun his => hcompletes.kind ▸ htype his⟩

theorem knows (hfound : t.Knows found) : t'.Knows found := fun id hid => h.has (hfound id hid)

theorem fits (hb : b.Fits t) : b.Fits t' where
  origin := hb.origin
  owner o ho := h.declares (hb.owner o ho)
  superClass := h.knows hb.superClass
  interfaces i hi := h.has (hb.interfaces i hi)
  typeBinding := h.knows hb.typeBinding

end Grows

/-! ## The built-in bindings -/

theorem get?_universe (id : BindingId) : Bindings.universe.get? id =
    (BuiltInType.all.map BuiltInType.binding ++
      BuiltInType.all.zipIdx.flatMap fun p => p.1.memberBindings ⟨p.2⟩)[id.index]? := by
  rw [Bindings.universe, get?, List.getElem?_toArray]

theorem length_le_universe : BuiltInType.all.length ≤ Bindings.universe.size := by
  rw [Bindings.universe, size, List.size_toArray, List.length_append, List.length_map]
  exact Nat.le_add_right _ _

theorem get?_universe_type {i : Nat} {type : BuiltInType} (h : BuiltInType.all[i]? = some type) :
    Bindings.universe.get? ⟨i⟩ = some type.binding := by
  have hlt : i < (BuiltInType.all.map BuiltInType.binding).length := by
    rw [List.length_map]
    exact (List.getElem?_eq_some_iff.1 h).1
  rw [get?_universe, List.getElem?_append_left hlt, List.getElem?_map, h, Option.map_some]

/-- What is found among the built-in types is in their table. -/
theorem universe_knows_find? (name : String) :
    Bindings.universe.Knows (BuiltInType.find? name) := by
  intro id hid
  obtain ⟨i, hi, rfl⟩ := Option.map_eq_some_iff.1 hid
  exact Nat.lt_of_lt_of_le (List.findIdx?_eq_some_iff_getElem.1 hi).1 length_le_universe

theorem isType_of_mem_all : ∀ type ∈ BuiltInType.all, type.kind.isType = true := by
  decide

/-- A type has no owner, and is known with its parents. -/
theorem refers_type (type : BuiltInType) (id : BindingId) :
    type.binding.Refers Bindings.universe id where
  owner o ho := by cases ho
  methodOwner _ o ho := by cases ho
  superClass x hx := by
    obtain ⟨name, -, hname⟩ := Option.bind_eq_some_iff.1 hx
    exact universe_knows_find? name x hname
  interfaces x hx := by
    obtain ⟨name, -, hname⟩ := List.mem_filterMap.1 hx
    exact universe_knows_find? name x hname
  typeBinding := knows_none _

/-- The members of a type are owned by it, and stand behind all types. -/
theorem refers_member {type : BuiltInType} {i : Nat} (htype : BuiltInType.all[i]? = some type)
    (hb : b ∈ type.memberBindings ⟨i⟩) (hid : BuiltInType.all.length ≤ id.index) :
    b.Refers Bindings.universe id ∧ b.origin = .builtIn := by
  have hlt : i < id.index := Nat.lt_of_lt_of_le (List.getElem?_eq_some_iff.1 htype).1 hid
  have howner : b.owner = some ⟨i⟩ ∧ b.origin = .builtIn ∧ b.superClass = none ∧
      b.interfaces = [] ∧ Bindings.universe.Knows b.typeBinding := by
    rcases List.mem_append.1 hb with hfield | hmethod
    · obtain ⟨field, -, rfl⟩ := List.mem_map.1 hfield
      exact ⟨rfl, rfl, rfl, rfl, universe_knows_find? _⟩
    · obtain ⟨method, -, rfl⟩ := List.mem_map.1 hmethod
      exact ⟨rfl, rfl, rfl, rfl, knows_none _⟩
  obtain ⟨howner, horigin, hsuper, hinterfaces, htypeBinding⟩ := howner
  refine ⟨⟨?_, ?_, ?_, ?_, htypeBinding⟩, horigin⟩
  · intro o ho
    rw [howner, Option.some.injEq] at ho
    rwa [← ho]
  · intro _ o ho
    rw [howner, Option.some.injEq] at ho
    rw [← ho]
    exact ⟨_, get?_universe_type htype, isType_of_mem_all _ (List.mem_of_getElem? htype)⟩
  · rw [hsuper]
    exact knows_none _
  · rw [hinterfaces]
    exact List.forall_mem_nil _

theorem refers_universe (h : Bindings.universe.get? id = some b) :
    b.Refers Bindings.universe id ∧ b.origin = .builtIn := by
  rw [get?_universe] at h
  by_cases hlt : id.index < (BuiltInType.all.map BuiltInType.binding).length
  · rw [List.getElem?_append_left hlt, List.getElem?_map] at h
    obtain ⟨type, -, rfl⟩ := Option.map_eq_some_iff.1 h
    exact ⟨refers_type type id, rfl⟩
  · rw [List.getElem?_append_right (Nat.le_of_not_lt hlt)] at h
    obtain ⟨⟨type, i⟩, htype, hb⟩ := List.mem_flatMap.1 (List.mem_of_getElem? h)
    rw [List.length_map] at hlt
    exact refers_member (List.mem_zipIdx_iff_getElem?.1 htype) hb (Nat.le_of_not_lt hlt)

/-! ## Well-formed tables -/

theorem wellFormed_universe : Bindings.universe.WellFormed where
  builtIn _ _ := rfl
  size_le := Nat.le_refl _
  declared _ _ hb hle := absurd (has_of_get? hb) (Nat.not_lt.2 hle)

namespace WellFormed

/-- The table has grown from the built-in one. -/
theorem push (h : t.WellFormed) (hb : b.Fits t) : (t.push b).WellFormed := by
  have hgrows : t.Grows (t.push b) := Grows.refl.push b
  constructor
  · intro id hid
    have hne : id ≠ t.nextId := by
      rintro rfl
      exact Nat.not_lt.2 h.size_le hid
    rw [get?_push, if_neg hne]
    exact h.builtIn id hid
  · rw [size_push]
    exact Nat.le_succ_of_le h.size_le
  · intro id data hdata hid
    rw [get?_push] at hdata
    by_cases heq : id = t.nextId
    · subst heq
      rw [if_pos rfl, Option.some.injEq] at hdata
      subst hdata
      refine ⟨hgrows.fits hb, ?_⟩
      intro o ho
      exact (hb.owner o ho).has
    · rw [if_neg heq] at hdata
      obtain ⟨hfits, howner⟩ := h.declared id data hdata hid
      exact ⟨hgrows.fits hfits, howner⟩

theorem modify (h : t.WellFormed) (hid : Bindings.universe.size ≤ id.index)
    (hf : ∀ b, t.get? id = some b → b.Fits t → (f b).Fits t ∧ b.Completes (f b)) :
    (t.modify id f).WellFormed ∧ t.Grows (t.modify id f) := by
  have hgrows : t.Grows (t.modify id f) :=
    Grows.refl.modify id f fun b hb => (hf b hb (h.declared id b hb hid).1).2
  refine ⟨⟨?_, ?_, ?_⟩, hgrows⟩
  · intro x hx
    have hne : id ≠ x := by
      rintro rfl
      exact Nat.not_lt.2 hid hx
    rw [get?_modify, if_neg hne]
    exact h.builtIn x hx
  · rw [size_modify]
    exact h.size_le
  · intro x data hdata hx
    rw [get?_modify] at hdata
    by_cases heq : id = x
    · subst heq
      rw [if_pos rfl] at hdata
      obtain ⟨old, hold, rfl⟩ := Option.map_eq_some_iff.1 hdata
      obtain ⟨hfits, howner⟩ := h.declared id old hold hid
      obtain ⟨hfits', hcompletes⟩ := hf old hold hfits
      refine ⟨hgrows.fits hfits', ?_⟩
      rw [hcompletes.owner]
      exact howner
    · rw [if_neg heq] at hdata
      obtain ⟨hfits, howner⟩ := h.declared x data hdata hx
      exact ⟨hgrows.fits hfits, howner⟩

variable (h : t.WellFormed)

include h

theorem has_of_universe (hid : Bindings.universe.Has id) : t.Has id :=
  Nat.lt_of_lt_of_le hid h.size_le

theorem refers (hb : t.get? id = some b) : b.Refers t id := by
  by_cases hid : Bindings.universe.Has id
  · rw [h.builtIn id hid] at hb
    obtain ⟨howner, hmethod, hsuper, hinterfaces, htype⟩ := (refers_universe hb).1
    refine ⟨howner, ?_, ?_, ?_, ?_⟩
    · intro hkind o ho
      obtain ⟨b', hb', htype'⟩ := hmethod hkind o ho
      exact ⟨b', (h.builtIn o (has_of_get? hb')).trans hb', htype'⟩
    · intro x hx
      exact h.has_of_universe (hsuper x hx)
    · intro x hx
      exact h.has_of_universe (hinterfaces x hx)
    · intro x hx
      exact h.has_of_universe (htype x hx)
  · obtain ⟨hfits, howner⟩ := h.declared id b hb (Nat.le_of_not_lt hid)
    refine ⟨howner, ?_, hfits.superClass, hfits.interfaces, hfits.typeBinding⟩
    intro hkind o ho
    obtain ⟨-, b', hb', htype⟩ := hfits.owner o ho
    exact ⟨b', hb', htype (beq_iff_eq.2 hkind)⟩

/-- The file adds no members to what is built in. -/
theorem members_eq (ho : Bindings.universe.Has o) : t.members o = Bindings.universe.members o := by
  have hids : t.ids = Bindings.universe.ids ++
      (List.range (t.size - Bindings.universe.size)).map fun i => ⟨Bindings.universe.size + i⟩ := by
    rw [ids, ids, ← Nat.add_sub_of_le h.size_le, List.range_add, List.map_append, List.map_map,
      Nat.add_sub_cancel_left]
    rfl
  have hbuiltIn : Bindings.universe.ids.filter (t.isOwnedBy o) =
      Bindings.universe.ids.filter (Bindings.universe.isOwnedBy o) := by
    apply List.filter_congr
    intro x hx
    rw [isOwnedBy, isOwnedBy, h.builtIn x (mem_ids_iff.1 hx)]
  have hdeclared : ((List.range (t.size - Bindings.universe.size)).map fun i =>
      (⟨Bindings.universe.size + i⟩ : BindingId)).filter (t.isOwnedBy o) = [] := by
    rw [List.filter_eq_nil_iff]
    intro x hx howned
    obtain ⟨i, -, rfl⟩ := List.mem_map.1 hx
    obtain ⟨b, hb, howner⟩ := isOwnedBy_iff.1 howned
    have hle := ((h.declared _ b hb (Nat.le_add_right _ _)).1.owner o howner).1
    exact Nat.not_lt.2 hle ho
  rw [Bindings.members_eq, Bindings.members_eq, hids, List.filter_append, hbuiltIn, hdeclared,
    List.append_nil]

end WellFormed

/-! ## The way to the nearest type -/

/-- From `start` the search goes up over the owners of rows until it ends with `result`. -/
inductive Climbs (t : Bindings) : Option BindingId → Option BindingId → Prop
  | outside : Climbs t none none
  | unknown {o : BindingId} (h : t.get? o = none) : Climbs t (some o) none
  | type {o : BindingId} {b : Binding} (h : t.get? o = some b) (htype : b.kind.isType = true) :
    Climbs t (some o) (some o)
  | up {o : BindingId} {b : Binding} {result : Option BindingId} (h : t.get? o = some b)
    (htype : b.kind.isType = false) (hrest : Climbs t b.owner result) : Climbs t (some o) result

theorem Climbs.unique {start result result' : Option BindingId} (h : t.Climbs start result)
    (h' : t.Climbs start result') : result = result' := by
  induction h with
  | outside =>
    cases h'
    rfl
  | unknown hnone => cases h' <;> simp_all
  | type hsome htype => cases h' <;> simp_all
  | up hsome htype _ ih =>
    cases h' with
    | unknown hnone => simp_all
    | type hsome' htype' => simp_all
    | up hsome' htype' hrest =>
      rw [hsome, Option.some.injEq] at hsome'
      subst hsome'
      exact ih hrest

end Bindings

namespace SemanticModel

/-- The same search from symbol to symbol. -/
inductive Climbs (m : SemanticModel) : Option BindingId → Option BindingId → Prop
  | outside : Climbs m none none
  | type {o : BindingId} (htype : (m.bindings.kind? o).any BindingKind.isType = true) :
    Climbs m (some o) (some o)
  | up {o : BindingId} {result : Option BindingId}
    (htype : (m.bindings.kind? o).any BindingKind.isType = false)
    (hrest : Climbs m (m.owner? o) result) : Climbs m (some o) result

variable {m : SemanticModel}

theorem Climbs.bindings {start result : Option BindingId} (h : m.Climbs start result) :
    m.bindings.Climbs start result := by
  induction h with
  | outside => exact .outside
  | @type o htype =>
    cases hb : m.bindings.get? o with
    | none => simp [Bindings.kind?, hb] at htype
    | some b => exact .type hb (by simpa [Bindings.kind?, hb] using htype)
  | @up o result htype hrest ih =>
    cases hb : m.bindings.get? o with
    | none =>
      rw [owner?, hb] at ih
      cases ih
      exact .unknown hb
    | some b =>
      rw [owner?, hb] at ih
      exact .up hb (by simpa [Bindings.kind?, hb] using htype) ih

end SemanticModel

end JavaAnalysis
