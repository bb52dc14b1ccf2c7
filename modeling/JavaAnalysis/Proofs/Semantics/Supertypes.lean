import JavaAnalysis.Proofs.Binding.Table
import JavaAnalysis.Semantics.Model
import Mathlib.Algebra.BigOperators.Group.Finset.Basic
import Mathlib.Algebra.Order.BigOperators.Group.Finset
import Mathlib.Order.Lattice.Nat

/-!
# Super types in order of their distance

The search for super types goes through the types that it has found, in the order in which it found
them, and puts their new parents behind the others. In any table, cycles included, it ends with what
is reached over links from a type to a parent, nearer types first.
Main statement: `SemanticModel.supertypes_search`.
-/

set_option autoImplicit false
set_option linter.dupNamespace false

namespace JavaAnalysis

/-- Puts the parents of one type behind the types that were found, each unless it is among them. -/
def found (seen parents : List BindingId) : List BindingId :=
  parents.foldl (fun seen x => if x ∈ seen then seen else seen ++ [x]) seen

/--
The search ends with `result` when it has found `seen` and goes on with the type at `index`; without
a bound on its steps.
-/
inductive SearchEnds (parents : BindingId → List BindingId) :
    List BindingId → Nat → List BindingId → Prop
  | stop {seen : List BindingId} {index : Nat} (h : seen[index]? = none) :
    SearchEnds parents seen index seen
  | next {seen result : List BindingId} {index : Nat} {x : BindingId} (h : seen[index]? = some x)
    (hrest : SearchEnds parents (found seen (parents x)) (index + 1) result) :
    SearchEnds parents seen index result

/-- A type is reached over `n` links from a type to a parent. -/
inductive Reaches (parents : BindingId → List BindingId) (id : BindingId) : Nat → BindingId → Prop
  | self : Reaches parents id 0 id
  | parent {n : Nat} {x y : BindingId} (h : Reaches parents id n x) (hy : y ∈ parents x) :
    Reaches parents id (n + 1) y

/-- The least number of links over which a type is reached, if it is. -/
noncomputable def distance (parents : BindingId → List BindingId) (id x : BindingId) : Nat :=
  sInf {n | Reaches parents id n x}

variable {parents : BindingId → List BindingId} {id x y : BindingId} {n : Nat}

theorem SearchEnds.unique {seen result result' : List BindingId} {index : Nat}
    (h : SearchEnds parents seen index result) (h' : SearchEnds parents seen index result') :
    result = result' := by
  induction h with
  | stop hnone =>
    cases h' with
    | stop => rfl
    | next hsome => rw [hnone] at hsome; cases hsome
  | next hsome _ ih =>
    cases h' with
    | stop hnone => rw [hsome] at hnone; cases hnone
    | next hsome' hrest =>
      rw [hsome] at hsome'
      cases hsome'
      exact ih hrest

theorem Reaches.distance_le (h : Reaches parents id n x) : distance parents id x ≤ n :=
  Nat.sInf_le h

theorem Reaches.distance (h : Reaches parents id n x) :
    Reaches parents id (distance parents id x) x :=
  Nat.sInf_mem (s := {n | Reaches parents id n x}) ⟨n, h⟩

theorem distance_self : distance parents id id = 0 :=
  Nat.le_zero.1 Reaches.self.distance_le

/-! ## What is found in one step -/

theorem nodup_eraseDups (xs : List BindingId) : xs.eraseDups.Nodup := by
  induction hlen : xs.length using Nat.strong_induction_on generalizing xs with
  | _ len ih =>
    cases xs with
    | nil => simp
    | cons x xs =>
      have hlt : (xs.filter fun y => !y == x).length < len := by
        rw [← hlen, List.length_cons]
        exact Nat.lt_succ_of_le (List.length_filter_le _ _)
      rw [List.eraseDups_cons, List.nodup_cons]
      refine ⟨?_, ih _ hlt _ rfl⟩
      simp [List.mem_eraseDups]

theorem length_eraseDups_le (xs : List BindingId) : xs.eraseDups.length ≤ xs.length := by
  apply ((nodup_eraseDups xs).subperm ?_).length_le
  intro x hx
  exact List.mem_eraseDups.1 hx

theorem removeAll_eraseDups (xs ys : List BindingId) :
    xs.removeAll ys.eraseDups = xs.removeAll ys := by
  simp [List.removeAll, List.mem_eraseDups]

theorem mem_removeAll {xs ys : List BindingId} : x ∈ xs.removeAll ys ↔ x ∈ xs ∧ x ∉ ys := by
  simp [List.removeAll]

theorem addNew_eq (seen xs : List BindingId) :
    Bindings.addNew seen xs = (xs.removeAll seen).eraseDups := by
  induction xs generalizing seen with
  | nil => simp [Bindings.addNew]
  | cons x xs ih =>
    unfold Bindings.addNew
    rw [List.cons_removeAll]
    by_cases hmem : x ∈ seen
    · simp [hmem, ih]
    · simp only [hmem, if_false, ih, List.contains_eq_mem, decide_false, if_true,
        List.eraseDups_cons, List.removeAll_cons]
      simp only [List.removeAll, List.filter_filter, Bool.and_comm]

theorem found_eq (seen xs : List BindingId) : found seen xs = seen ++ Bindings.addNew seen xs := by
  induction xs generalizing seen with
  | nil => simp [found, Bindings.addNew]
  | cons x xs ih =>
    have hcons : found seen (x :: xs) = found (if x ∈ seen then seen else seen ++ [x]) xs := rfl
    rw [hcons, ih, addNew_eq, addNew_eq, List.cons_removeAll]
    by_cases hmem : x ∈ seen
    · simp [hmem]
    · simp only [hmem, List.contains_eq_mem, decide_false, if_true, if_false, List.append_assoc,
        List.eraseDups_cons, List.singleton_append, List.append_cancel_left_eq, List.cons.injEq,
        true_and]
      simp only [List.removeAll, List.filter_filter]
      congr 2
      funext y
      simp [Bool.and_comm, beq_eq_decide]

/-! ## What is found when some types are done -/

/--
The types in `done` are searched, those in `pending` are not: together they are the first type and
the parents of the searched ones, each once, in the order in which they were named.
-/
structure Searched (parents : BindingId → List BindingId) (id : BindingId)
    (done pending : List BindingId) : Prop where
  order : done ++ pending = (id :: done.flatMap parents).eraseDups
  reached : ∀ x ∈ done ++ pending, ∃ n, Reaches parents id n x
  sorted : (done ++ pending).Pairwise fun x y => distance parents id x ≤ distance parents id y

namespace Searched

variable {done pending : List BindingId}

theorem start : Searched parents id [] [id] where
  order := by simp [List.eraseDups_cons]
  reached x hx := by
    rw [List.nil_append, List.mem_singleton] at hx
    exact ⟨0, hx ▸ .self⟩
  sorted := by simp

theorem mem_iff (h : Searched parents id done pending) :
    x ∈ done ++ pending ↔ x = id ∨ ∃ y ∈ done, x ∈ parents y := by
  rw [h.order, List.mem_eraseDups, List.mem_cons, List.mem_flatMap]

theorem nodup (h : Searched parents id done pending) : (done ++ pending).Nodup := by
  rw [h.order]
  exact nodup_eraseDups _

/-- What is nearer than the types that are still to be searched is searched. -/
theorem mem_done (h : Searched parents id done (x :: pending)) (hy : Reaches parents id n y)
    (hlt : n < distance parents id x) : y ∈ done := by
  have hnear : ∀ z ∈ done ++ x :: pending, distance parents id z < distance parents id x →
      z ∈ done := by
    intro z hz hdist
    rcases List.mem_append.1 hz with hz | hz
    · exact hz
    · have hpending := (List.pairwise_append.1 h.sorted).2.1
      rcases List.mem_cons.1 hz with rfl | hz
      · exact absurd hdist (Nat.lt_irrefl _)
      · exact absurd ((List.pairwise_cons.1 hpending).1 z hz) (Nat.not_le.2 hdist)
  induction hy with
  | self => exact hnear id (h.mem_iff.2 (.inl rfl)) (Nat.lt_of_le_of_lt Reaches.self.distance_le hlt)
  | parent hz hy ih =>
    have hmem := ih (Nat.lt_of_succ_lt hlt)
    exact hnear _ (h.mem_iff.2 (.inr ⟨_, hmem, hy⟩))
      (Nat.lt_of_le_of_lt (hz.parent hy).distance_le hlt)

/-- What is new among the parents of the next type is one link further away than this type. -/
theorem distance_new (h : Searched parents id done (x :: pending)) (hy : y ∈ parents x)
    (hnew : y ∉ done ++ x :: pending) : distance parents id y = distance parents id x + 1 := by
  obtain ⟨n, hx⟩ := h.reached x (List.mem_append_right _ List.mem_cons_self)
  have hreach := hx.distance.parent hy
  apply Nat.le_antisymm hreach.distance_le
  by_contra hlt
  -- a parent of something nearer is known already
  have hdist := hreach.distance
  generalize distance parents id y = d at hdist hlt
  cases hdist with
  | self => exact hnew (h.mem_iff.2 (.inl rfl))
  | parent hz hzy =>
    have hmem := h.mem_done hz (by omega)
    exact hnew (h.mem_iff.2 (.inr ⟨_, hmem, hzy⟩))

/-- What is known is at most one link further away than the next type. -/
theorem distance_le (h : Searched parents id done (x :: pending)) (hy : y ∈ done ++ x :: pending) :
    distance parents id y ≤ distance parents id x + 1 := by
  rcases h.mem_iff.1 hy with rfl | ⟨z, hz, hzy⟩
  · rw [distance_self]
    exact Nat.zero_le _
  · obtain ⟨n, hreach⟩ := h.reached z (List.mem_append_left _ hz)
    have hle := (hreach.distance.parent hzy).distance_le
    have hsorted := (List.pairwise_append.1 h.sorted).2.2 z hz x List.mem_cons_self
    omega

/-- The search of one more type. -/
theorem next (h : Searched parents id done (x :: pending)) :
    Searched parents id (done ++ [x])
      (pending ++ Bindings.addNew (done ++ x :: pending) (parents x)) := by
  have hsplit : (done ++ [x]) ++ (pending ++ Bindings.addNew (done ++ x :: pending) (parents x)) =
      (done ++ x :: pending) ++ Bindings.addNew (done ++ x :: pending) (parents x) := by simp
  have hnew : ∀ {y}, y ∈ Bindings.addNew (done ++ x :: pending) (parents x) →
      y ∈ parents x ∧ y ∉ done ++ x :: pending := by
    intro y hy
    rw [addNew_eq, List.mem_eraseDups, mem_removeAll] at hy
    exact hy
  refine ⟨?_, ?_, ?_⟩
  · rw [hsplit, addNew_eq, List.flatMap_append, List.flatMap_singleton, ← List.cons_append,
      List.eraseDups_append, ← h.order, h.order, removeAll_eraseDups]
  · intro y hy
    rw [hsplit, List.mem_append] at hy
    rcases hy with hy | hy
    · exact h.reached y hy
    · obtain ⟨n, hx⟩ := h.reached x (List.mem_append_right _ List.mem_cons_self)
      exact ⟨_, hx.parent (hnew hy).1⟩
  · rw [hsplit, List.pairwise_append]
    refine ⟨h.sorted, ?_, ?_⟩
    · apply List.pairwise_of_forall_mem_list
      intro y hy z hz
      rw [h.distance_new (hnew hy).1 (hnew hy).2, h.distance_new (hnew hz).1 (hnew hz).2]
    · intro y hy z hz
      rw [h.distance_new (hnew hz).1 (hnew hz).2]
      exact h.distance_le hy

/-- When every type is searched, all that is reached is found. -/
theorem mem_of_reaches (h : Searched parents id done []) (hx : Reaches parents id n x) :
    x ∈ done := by
  have hclosed : ∀ {y}, (y = id ∨ ∃ z ∈ done, y ∈ parents z) → y ∈ done := by
    intro y hy
    simpa using h.mem_iff.2 hy
  induction hx with
  | self => exact hclosed (.inl rfl)
  | parent _ hy ih => exact hclosed (.inr ⟨_, ih, hy⟩)

end Searched

/-! ## The search in a table -/

namespace Bindings

variable {t : Bindings} {done pending : List BindingId}

theorem parents_of_size_le (h : t.size ≤ x.index) : t.parents x = [] := by
  have hnone : t.data[x.index]? = none := Array.getElem?_eq_none h
  simp [Bindings.parents, get?, hnone]

theorem nodup_ids (t : Bindings) : t.ids.Nodup := by
  apply t.pairwise_ids.imp
  rintro x y hlt rfl
  exact Nat.lt_irrefl _ hlt

/-- The links of the table are those of its types. -/
theorem links_eq (t : Bindings) :
    t.links = (t.ids.map fun x => (t.parents x).length).foldl (· + ·) 0 := by
  have hdata : t.ids.map (fun x => (t.parents x).length) =
      t.data.toList.map fun b => b.parents.length := by
    apply List.ext_getElem
    · simp [ids, size]
    · intro i hi hi'
      have hlt : i < t.data.size := by simpa using hi'
      simp [ids, Bindings.parents, get?, hlt]
  rw [hdata, links, ← Array.foldl_toList, List.foldl_map]

/-- Different types have no more links than the table. -/
theorem length_flatMap_le (hdone : done.Nodup) : (done.flatMap t.parents).length ≤ t.links := by
  rw [links_eq, ← List.sum_eq_foldl, List.length_flatMap, ← List.sum_toFinset _ hdone,
    ← List.sum_toFinset _ t.nodup_ids]
  apply Finset.sum_le_sum_of_ne_zero
  intro x _ hne
  rw [List.mem_toFinset, mem_ids_iff]
  by_contra hle
  rw [parents_of_size_le (Nat.le_of_not_lt hle)] at hne
  exact hne rfl

/-- Before the last type is searched, not all steps are used. -/
theorem length_done_le (h : Searched t.parents id done (x :: pending)) :
    done.length ≤ t.links := by
  have hdone : done.Nodup := h.nodup.sublist (List.sublist_append_left _ _)
  have hlen := length_eraseDups_le (id :: done.flatMap t.parents)
  rw [← h.order, List.length_append, List.length_cons, List.length_cons] at hlen
  have hlinks := length_flatMap_le (t := t) hdone
  omega

/-- The steps of the search suffice, and it ends when every type that it found is searched. -/
theorem closure_searchEnds (h : Searched t.parents id done pending)
    (hn : t.links + 1 ≤ n + done.length) :
    SearchEnds t.parents (done ++ pending) done.length (t.closure n done pending) ∧
      Searched t.parents id (t.closure n done pending) [] := by
  induction n generalizing done pending with
  | zero =>
    cases pending with
    | nil =>
      rw [closure, List.append_nil]
      exact ⟨.stop (by simp), by simpa using h⟩
    | cons x xs =>
      have hlen := length_done_le h
      omega
  | succ n ih =>
    cases pending with
    | nil =>
      rw [closure, List.append_nil]
      · exact ⟨.stop (by simp), by simpa using h⟩
      · simp
    | cons x xs =>
      rw [closure]
      have hlen : t.links + 1 ≤ n + (done ++ [x]).length := by
        rw [List.length_append, List.length_singleton]
        omega
      obtain ⟨hends, hsearched⟩ := ih h.next hlen
      refine ⟨.next (x := x) (by simp) ?_, hsearched⟩
      rw [found_eq]
      simpa using hends

/-- The search for the super types of a type. -/
theorem supertypes_searched (t : Bindings) (id : BindingId) :
    SearchEnds t.parents [id] 0 (t.supertypes id) ∧ Searched t.parents id (t.supertypes id) [] := by
  have hstart : Searched t.parents id [] [id] := .start
  exact closure_searchEnds hstart (Nat.le_refl _)

theorem supertypes_eq (t : Bindings) (id : BindingId) :
    t.supertypes id = (id :: (t.supertypes id).flatMap t.parents).eraseDups := by
  simpa using (t.supertypes_searched id).2.order

theorem mem_supertypes_iff : x ∈ t.supertypes id ↔ ∃ n, Reaches t.parents id n x := by
  have hsearched := (t.supertypes_searched id).2
  constructor
  · intro hx
    exact hsearched.reached x (List.mem_append_left _ hx)
  · rintro ⟨n, hx⟩
    exact hsearched.mem_of_reaches hx

/--
The super class of a type stands before each of its interfaces that is not a parent of a type that
stands before it.
-/
theorem superClass_first {pre post : List BindingId} {b : Binding} {s i : BindingId}
    (hsplit : t.supertypes id = pre ++ x :: post) (hb : t.get? x = some b)
    (hs : b.superClass = some s) (hi : i ∈ b.interfaces) (hne : i ≠ s)
    (hnew : i ∉ id :: pre.flatMap t.parents) : [s, i].Sublist (t.supertypes id) := by
  have hparents : t.parents x = s :: b.interfaces := by
    simp [Bindings.parents, hb, Binding.parents, hs]
  have hlist : t.supertypes id = (id :: pre.flatMap t.parents).eraseDups ++
      ((t.parents x ++ post.flatMap t.parents).removeAll
        (id :: pre.flatMap t.parents)).eraseDups := by
    rw [← List.eraseDups_append, ← List.flatMap_cons, List.cons_append, ← List.flatMap_append,
      ← hsplit]
    exact t.supertypes_eq id
  have hmem : i ∈ (t.parents x ++ post.flatMap t.parents).removeAll
      (id :: pre.flatMap t.parents) := by
    rw [mem_removeAll, hparents]
    exact ⟨List.mem_append_left _ (List.mem_cons_of_mem _ hi), hnew⟩
  by_cases hold : s ∈ id :: pre.flatMap t.parents
  · rw [hlist]
    exact List.Sublist.append (List.singleton_sublist.2 (List.mem_eraseDups.2 hold))
      (List.singleton_sublist.2 (List.mem_eraseDups.2 hmem))
  · have hcontains : (id :: pre.flatMap t.parents).contains s = false := by
      simpa using hold
    rw [hparents, List.cons_append, List.cons_removeAll, if_pos hcontains] at hmem hlist
    rw [hlist]
    apply List.Sublist.trans _ (List.sublist_append_right _ _)
    rw [List.eraseDups_cons]
    apply List.Sublist.cons_cons
    rw [List.singleton_sublist, List.mem_eraseDups, List.mem_filter]
    rcases List.mem_cons.1 hmem with heq | hmem
    · exact absurd heq hne
    · exact ⟨hmem, by simpa using hne⟩

/-! ## Members of super types -/

/-- A member of a type has a name and a property. -/
def IsMatch (t : Bindings) (name : String) (p : Binding → Bool) (type member : BindingId) : Prop :=
  member ∈ t.members type ∧ ∃ b, t.get? member = some b ∧ b.name = name ∧ p b

variable {name : String} {p : Binding → Bool} {member : BindingId}

theorem isMatch_iff {type : BindingId} : t.IsMatch name p type member ↔
    member ∈ t.members type ∧ (match t.get? member with
      | some b => b.name == name && p b
      | none => false) = true := by
  cases hb : t.get? member with
  | none => simp [IsMatch, hb]
  | some b => simp [IsMatch, hb]

/-- The first type that has a member of some kind is a nearest one, if types stand in that order. -/
theorem findSome?_nearest {types : List BindingId} {p : BindingId → Bool}
    (hsorted : types.Pairwise fun x y => distance parents id x ≤ distance parents id y)
    (h : (types.findSome? fun x => (t.members x).find? p) = some member) :
    ∃ x ∈ types, member ∈ t.members x ∧ p member = true ∧
      ∀ y ∈ types, ∀ member' ∈ t.members y, p member' = true →
        distance parents id x ≤ distance parents id y := by
  obtain ⟨front, x, rest, rfl, hfind, hfront⟩ := List.findSome?_eq_some_iff.1 h
  refine ⟨x, List.mem_append_right _ List.mem_cons_self, List.mem_of_find?_eq_some hfind,
    List.find?_some hfind, ?_⟩
  intro y hy member' hmem hp
  rw [List.mem_append, List.mem_cons] at hy
  rcases hy with hy | rfl | hy
  · exact absurd hp (List.find?_eq_none.1 (hfront y hy) member' hmem)
  · exact Nat.le_refl _
  · exact (List.pairwise_cons.1 (List.pairwise_append.1 hsorted).2.1).1 y hy

/-- A member that is found is one of a type at the least distance that has one. -/
theorem findMember?_nearest (h : t.findMember? id name p = some member) :
    ∃ x ∈ t.supertypes id, t.IsMatch name p x member ∧
      ∀ y member', y ∈ t.supertypes id → t.IsMatch name p y member' →
        distance t.parents id x ≤ distance t.parents id y := by
  have hsorted := (t.supertypes_searched id).2.sorted
  rw [List.append_nil] at hsorted
  obtain ⟨x, hx, hmem, hp, hnearest⟩ := findSome?_nearest hsorted h
  refine ⟨x, hx, isMatch_iff.2 ⟨hmem, hp⟩, ?_⟩
  intro y member' hy hmatch
  obtain ⟨hmem', hp'⟩ := isMatch_iff.1 hmatch
  exact hnearest y hy member' hmem' hp'

/-- A member is found when a super type has one. -/
theorem findMember?_ne_none (hx : x ∈ t.supertypes id) (h : t.IsMatch name p x member) :
    t.findMember? id name p ≠ none := by
  intro hnone
  obtain ⟨hmem, hp⟩ := isMatch_iff.1 h
  exact List.find?_eq_none.1 (List.findSome?_eq_none_iff.1 hnone x hx) member hmem hp

end Bindings

/-! ## The search in a model -/

namespace SemanticModel

variable (m : SemanticModel)

def superClass? (id : BindingId) : Option BindingId := (m.bindings.get? id).bind (·.superClass)

def interfaces (id : BindingId) : List BindingId :=
  ((m.bindings.get? id).map (·.interfaces)).getD []

theorem superClass?_interfaces (id : BindingId) :
    (m.superClass? id).toList ++ m.interfaces id = m.bindings.parents id := by
  cases hget : m.bindings.get? id with
  | none => simp [superClass?, interfaces, Bindings.parents, hget]
  | some b => simp [superClass?, interfaces, Bindings.parents, Binding.parents, hget]

theorem supertypes_cons (id : BindingId) :
    m.bindings.supertypes id = id :: m.supertypes id := by
  have heq := m.bindings.supertypes_eq id
  rw [List.eraseDups_cons] at heq
  rw [supertypes, heq, List.tail_cons]

/-- The super types stand in the order of their distance. -/
theorem sorted_supertypes (id : BindingId) :
    (m.supertypes id).Pairwise fun x y =>
      distance m.bindings.parents id x ≤ distance m.bindings.parents id y := by
  have hsorted := (m.bindings.supertypes_searched id).2.sorted
  rw [List.append_nil, supertypes_cons] at hsorted
  exact (List.pairwise_cons.1 hsorted).2

theorem not_mem_supertypes (id : BindingId) : id ∉ m.supertypes id := by
  have hnodup := (m.bindings.supertypes_searched id).2.nodup
  rw [List.append_nil, supertypes_cons] at hnodup
  exact (List.nodup_cons.1 hnodup).1

theorem mem_supertypes_of_parent (hy : y ∈ m.bindings.parents x) (hne : y ≠ x) :
    y ∈ m.supertypes x := by
  have hreached : y ∈ m.bindings.supertypes x :=
    Bindings.mem_supertypes_iff.2 ⟨_, .parent .self hy⟩
  rw [supertypes_cons, List.mem_cons] at hreached
  exact hreached.resolve_left hne

/--
The search for super types ends in any table, that of the model as well. It finds the type itself
first, which the model leaves out, and then every type that is reached from it, each once, nearer
ones first: behind what is found so far stand the other parents of each type in turn, its super
class before its interfaces. A member is found if a type that is reached has one, in one of those
at the least distance.
-/
theorem supertypes_search (m : SemanticModel) (id : BindingId) :
    (∀ result, SearchEnds m.bindings.parents [id] 0 result ↔
      result = m.bindings.supertypes id) ∧
    (∀ result, SearchEnds (fun x => (m.superClass? x).toList ++ m.interfaces x) [id] 0 result ↔
      result = id :: m.supertypes id) ∧
    m.bindings.supertypes id = id :: m.supertypes id ∧
    (m.bindings.supertypes id).Nodup ∧
    id ∉ m.supertypes id ∧
    (∀ x, x ∈ m.bindings.supertypes id ↔ ∃ n, Reaches m.bindings.parents id n x) ∧
    ((m.bindings.supertypes id).Pairwise fun x y =>
      distance m.bindings.parents id x ≤ distance m.bindings.parents id y) ∧
    m.bindings.supertypes id =
      (id :: (m.bindings.supertypes id).flatMap m.bindings.parents).eraseDups ∧
    (∀ pre x post s i, m.bindings.supertypes id = pre ++ x :: post →
      m.superClass? x = some s → i ∈ m.interfaces x → i ≠ s →
      i ∉ id :: pre.flatMap m.bindings.parents → [s, i].Sublist (m.bindings.supertypes id)) ∧
    (∀ name p member, m.bindings.findMember? id name p = some member →
      ∃ x ∈ m.bindings.supertypes id, m.bindings.IsMatch name p x member ∧
        ∀ y member', y ∈ m.bindings.supertypes id → m.bindings.IsMatch name p y member' →
          distance m.bindings.parents id x ≤ distance m.bindings.parents id y) ∧
    ∀ name p x member, x ∈ m.bindings.supertypes id → m.bindings.IsMatch name p x member →
      m.bindings.findMember? id name p ≠ none := by
  obtain ⟨hends, hsearched⟩ := m.bindings.supertypes_searched id
  have hcons := m.supertypes_cons id
  have hnodup : (m.bindings.supertypes id).Nodup := by
    simpa using hsearched.nodup
  have hunique : ∀ result, SearchEnds m.bindings.parents [id] 0 result ↔
      result = m.bindings.supertypes id := by
    intro result
    constructor
    · intro hresult
      exact hresult.unique hends
    · rintro rfl
      exact hends
  refine ⟨hunique, ?_, hcons, hnodup, ?_, fun x => Bindings.mem_supertypes_iff, ?_,
    m.bindings.supertypes_eq id, ?_, fun _ _ _ => Bindings.findMember?_nearest,
    fun _ _ _ _ => Bindings.findMember?_ne_none⟩
  · rw [funext m.superClass?_interfaces, ← hcons]
    exact hunique
  · exact m.not_mem_supertypes id
  · simpa using hsearched.sorted
  · intro pre x post s i hsplit hs hi hne hnew
    obtain ⟨b, hb, hs⟩ := Option.bind_eq_some_iff.1 hs
    rw [interfaces, hb] at hi
    exact Bindings.superClass_first hsplit hb hs hi hne hnew

/-! ## Overriding -/

variable {m} {member : BindingId}

theorem isOverridable_iff {method data : Binding} : isOverridable method data = true ↔
    data.kind = .method ∧ data.name = method.name ∧ data.modifiers.contains .private = false ∧
      (data.origin = .source → data.params = method.params) := by
  cases horigin : data.origin with
  | builtIn => simp [isOverridable, horigin, and_assoc]
  | source => simp [isOverridable, horigin, and_assoc]

/-- What is overridden is a member of a nearest super type that has something to override. -/
theorem overridden?_nearest (h : m.overridden? id = some member) :
    ∃ method type x, m.bindings.get? id = some method ∧ method.kind = .method ∧
      method.modifiers.contains .static = false ∧ method.modifiers.contains .private = false ∧
      m.enclosingType? id = some type ∧ x ∈ m.supertypes type ∧
      member ∈ m.bindings.members x ∧ (m.bindings.get? member).any (isOverridable method) = true ∧
      ∀ y ∈ m.supertypes type, ∀ member' ∈ m.bindings.members y,
        (m.bindings.get? member').any (isOverridable method) = true →
          distance m.bindings.parents type x ≤ distance m.bindings.parents type y := by
  obtain ⟨method, hmethod, h⟩ := Option.bind_eq_some_iff.1 h
  split at h
  · cases h
  · rename_i hmodifiers
    obtain ⟨type, htype, h⟩ := Option.bind_eq_some_iff.1 h
    obtain ⟨x, hx, hfound⟩ := Bindings.findSome?_nearest (m.sorted_supertypes type) h
    simp only [Bool.or_eq_true, bne_iff_ne, not_or, Bool.not_eq_true, ne_eq, not_not] at hmodifiers
    obtain ⟨⟨hkind, hstatic⟩, hprivate⟩ := hmodifiers
    exact ⟨method, type, x, hmethod, hkind, hstatic, hprivate, htype, hx, hfound⟩

/-- Something is overridden when a super type has something to override. -/
theorem overridden?_ne_none {method : Binding} {type : BindingId}
    (hmethod : m.bindings.get? id = some method) (hkind : method.kind = .method)
    (hstatic : method.modifiers.contains .static = false)
    (hprivate : method.modifiers.contains .private = false)
    (htype : m.enclosingType? id = some type) (hx : x ∈ m.supertypes type)
    (hmem : member ∈ m.bindings.members x)
    (hoverridable : (m.bindings.get? member).any (isOverridable method) = true) :
    m.overridden? id ≠ none := by
  intro hnone
  have hsearch : (m.supertypes type).findSome? (fun y => (m.bindings.members y).find? fun c =>
      (m.bindings.get? c).any (isOverridable method)) = none := by
    simpa [overridden?, hmethod, hkind, hstatic, hprivate, htype] using hnone
  exact List.find?_eq_none.1 (List.findSome?_eq_none_iff.1 hsearch x hx) member hmem hoverridable

/-- The enclosing type of a method is its owner. -/
theorem owner_eq_of_enclosingType? {method : Binding} {type : BindingId}
    (hm : m.bindings.WellFormed) (hmethod : m.bindings.get? id = some method)
    (hkind : method.kind = .method) (h : m.enclosingType? id = some type) :
    method.owner = some type := by
  rw [enclosingType?, Bindings.enclosingType?, hmethod] at h
  change m.bindings.enclosingFrom (m.bindings.size + 1) method.owner = some type at h
  cases howner : method.owner with
  | none =>
    rw [howner] at h
    cases h
  | some o =>
    obtain ⟨b, hb, htype⟩ := (hm.refers hmethod).methodOwner hkind o howner
    rw [howner, Bindings.enclosingFrom, hb] at h
    simpa [htype] using h

/-- A method does not override itself, since its type is not among the super types of that type. -/
theorem overridden?_ne (hm : m.bindings.WellFormed) : m.overridden? id ≠ some id := by
  intro h
  obtain ⟨method, type, x, hmethod, hkind, -, -, htype, hx, hmem, -⟩ := overridden?_nearest h
  obtain ⟨b, hb, howner⟩ := Bindings.mem_members_iff.1 hmem
  rw [hmethod, Option.some.injEq] at hb
  rw [← hb, owner_eq_of_enclosingType? hm hmethod hkind htype, Option.some.injEq] at howner
  exact m.not_mem_supertypes type (howner ▸ hx)

end SemanticModel

end JavaAnalysis
