import JavaAnalysis.Tree.Draft
import JavaAnalysis.Tree.Walk
import Mathlib.Data.List.Basic
import Mathlib.Data.List.Nodup

/-!
# The leaves of a draft

Nodes that are drafted from the leaves up have children with lower numbers, so that what is below a
node can be read off without looking at any check. Where each node but the root is a child exactly
once, the leaves of the root are the child tokens of all nodes, in another order (`leaves_perm`):
each node adds its own child tokens to what its child nodes have, and all sums but that of the root
cancel.
-/

set_option autoImplicit false
set_option linter.dupNamespace false

namespace JavaAnalysis

namespace TreeDraft

/-- What can be a child of the node numbered `n`: a node before it, or a token of the row. -/
def Available (row : TokenRow) (n : Nat) : Element → Prop
  | .node id => id.index < n
  | .token id => id.index < row.tokens.size

instance (row : TokenRow) (n : Nat) (c : Element) : Decidable (Available row n c) := by
  cases c <;> exact inferInstanceAs (Decidable (_ < _))

/-- The children of each node were there when it was drafted. -/
def BottomUp (row : TokenRow) (d : TreeDraft) : Prop :=
  ∀ i < d.nodes.size, ∀ c ∈ (d.node ⟨i⟩).children, Available row i c

instance (row : TokenRow) (d : TreeDraft) : Decidable (BottomUp row d) :=
  inferInstanceAs (Decidable (∀ i < d.nodes.size, ∀ c ∈ (d.node ⟨i⟩).children, Available row i c))

/-- The tokens below a child, down to `n` levels. -/
def leavesWithin (d : TreeDraft) : Nat → Element → List TokenId
  | _, .token id => [id]
  | 0, .node _ => []
  | n + 1, .node id => (d.node id).children.flatMap (d.leavesWithin n)

/-- The tokens below a child from left to right. -/
def leaves (d : TreeDraft) : Element → List TokenId
  | .token id => [id]
  | .node id => d.leavesWithin (id.index + 1) (.node id)

/-- The numbers of all nodes. -/
def ids (d : TreeDraft) : List NodeId := (List.range d.nodes.size).map NodeId.mk

/-- The children of all nodes, in the order of the nodes. -/
def elements (d : TreeDraft) : List Element := d.ids.flatMap fun id => (d.node id).children

variable {row : TokenRow} {d : TreeDraft}

theorem mem_ids {id : NodeId} : id ∈ d.ids ↔ id.index < d.nodes.size := by
  simp only [ids, List.mem_map, List.mem_range]
  constructor
  · rintro ⟨i, hi, rfl⟩
    exact hi
  · exact fun h => ⟨id.index, h, rfl⟩

theorem nodup_ids (d : TreeDraft) : d.ids.Nodup := by
  refine List.Pairwise.map _ (fun a b hab h => hab ?_) List.nodup_range
  exact congrArg NodeId.index h

theorem children_of_size_le {id : NodeId} (h : d.nodes.size ≤ id.index) :
    (d.node id).children = [] := by
  simp [node, Array.getD, Nat.not_lt.2 h]
  rfl

theorem size_of_mem_children {p : NodeId} {c : Element} (h : c ∈ (d.node p).children) :
    p.index < d.nodes.size := by
  refine Nat.lt_of_not_le fun hle => ?_
  rw [children_of_size_le hle] at h
  cases h

theorem BottomUp.available (h : d.BottomUp row) {id : NodeId} {c : Element}
    (hc : c ∈ (d.node id).children) : Available row id.index c :=
  h id.index (size_of_mem_children hc) c hc

theorem mem_elements {c : Element} : c ∈ d.elements ↔ ∃ id, c ∈ (d.node id).children := by
  simp only [elements, List.mem_flatMap]
  constructor
  · rintro ⟨id, -, hc⟩
    exact ⟨id, hc⟩
  · rintro ⟨id, hc⟩
    exact ⟨id, mem_ids.2 (size_of_mem_children hc), hc⟩

/-! ## The levels below a node -/

theorem leavesWithin_token (d : TreeDraft) (n : Nat) (id : TokenId) :
    d.leavesWithin n (.token id) = [id] := by
  cases n <;> rfl

theorem leavesWithin_eq (h : d.BottomUp row) {n m : Nat} {id : NodeId} (hn : id.index < n)
    (hm : id.index < m) : d.leavesWithin n (.node id) = d.leavesWithin m (.node id) := by
  induction n generalizing m id with
  | zero => omega
  | succ n ih =>
    obtain ⟨m, rfl⟩ : ∃ k, m = k + 1 := ⟨m - 1, by omega⟩
    simp only [leavesWithin]
    refine List.flatMap_congr fun c hc => ?_
    have hc' := h.available hc
    cases c with
    | token t => rw [leavesWithin_token, leavesWithin_token]
    | node j =>
      have hj : j.index < id.index := hc'
      exact ih (by omega) (by omega)

/-- The leaves of a node are those of its children, one after the other. -/
theorem leaves_node (h : d.BottomUp row) (id : NodeId) :
    d.leaves (.node id) = (d.node id).children.flatMap d.leaves := by
  simp only [leaves, leavesWithin]
  refine List.flatMap_congr fun c hc => ?_
  have hc' := h.available hc
  cases c with
  | token t => exact leavesWithin_token d _ t
  | node j =>
    have hj : j.index < id.index := hc'
    exact leavesWithin_eq h hj (Nat.lt_succ_self _)

theorem leaves_node_ne_nil (h : d.BottomUp row)
    (hchildren : ∀ id ∈ d.ids, (d.node id).children ≠ []) {id : NodeId} (hid : id ∈ d.ids) :
    d.leaves (.node id) ≠ [] := by
  obtain ⟨i⟩ := id
  induction i using Nat.strongRecOn with
  | ind i ih =>
    obtain ⟨c, cs, hcs⟩ := List.exists_cons_of_ne_nil (hchildren _ hid)
    have hmem : c ∈ (d.node ⟨i⟩).children := by
      rw [hcs]
      exact List.mem_cons_self
    have hc := h.available hmem
    rw [leaves_node h, hcs, List.flatMap_cons]
    cases c with
    | token id => simp [leaves]
    | node j =>
      have hj : j.index < i := hc
      have hsize := mem_ids.1 hid
      have hne := ih j.index hj (mem_ids.2 (Nat.lt_trans hj hsize))
      exact fun hnil => hne (List.append_eq_nil_iff.1 hnil).1

/-- What is below a child is a stretch of what is below its node. -/
theorem leaves_within_parent (h : d.BottomUp row) {id : NodeId} {c : Element}
    (hc : c ∈ (d.node id).children) : d.leaves c <:+: d.leaves (.node id) := by
  obtain ⟨before, after, hsplit⟩ := List.append_of_mem hc
  rw [leaves_node h, hsplit, List.flatMap_append, List.flatMap_cons]
  exact ⟨before.flatMap d.leaves, after.flatMap d.leaves, List.append_assoc _ _ _⟩

/-- Where each node but the root is a child, each node is below the root. -/
theorem leaves_within_root (h : d.BottomUp row) {root : NodeId}
    (hparent : ∀ id ∈ d.ids, id ≠ root → ∃ p, .node id ∈ (d.node p).children) {id : NodeId}
    (hid : id ∈ d.ids) : d.leaves (.node id) <:+: d.leaves (.node root) := by
  obtain ⟨n, hn⟩ : ∃ n, n = d.nodes.size - id.index := ⟨_, rfl⟩
  induction n using Nat.strongRecOn generalizing id with
  | ind n ih =>
    by_cases hroot : id = root
    · subst hroot
      exact List.infix_refl _
    · obtain ⟨p, hp⟩ := hparent id hid hroot
      have hlt : id.index < p.index := h.available hp
      have hpid : p ∈ d.ids := mem_ids.2 (size_of_mem_children hp)
      have hsize := mem_ids.1 hid
      exact (leaves_within_parent h hp).trans (ih _ (by omega) hpid rfl)

/-! ## The root has the child tokens of all nodes -/

/-- The child nodes among children. -/
def nodesAmong (cs : List Element) : List NodeId := cs.filterMap Element.node?

/-- The child tokens among children. -/
def tokensAmong (cs : List Element) : List TokenId := cs.filterMap Element.token?

theorem flatMap_leaves_perm (d : TreeDraft) (cs : List Element) :
    (cs.flatMap d.leaves).Perm
      (tokensAmong cs ++ (nodesAmong cs).flatMap fun id => d.leaves (.node id)) := by
  induction cs with
  | nil => exact .nil
  | cons c cs ih =>
    cases c with
    | token id => exact ih.cons id
    | node id =>
      have hswap := (List.perm_append_comm_assoc (d.leaves (.node id)) (tokensAmong cs)
        ((nodesAmong cs).flatMap fun id => d.leaves (.node id)))
      exact (ih.append_left (d.leaves (.node id))).trans hswap

/-- Where the root and the child nodes are all the nodes, the root has the child tokens below. -/
theorem leaves_perm (h : d.BottomUp row) {root : NodeId}
    (hperm : (root :: nodesAmong d.elements).Perm d.ids) :
    (d.leaves (.node root)).Perm (tokensAmong d.elements) := by
  have hall : (d.elements.flatMap d.leaves).Perm
      (d.leaves (.node root) ++ (nodesAmong d.elements).flatMap fun id => d.leaves (.node id)) := by
    have heach : d.elements.flatMap d.leaves = d.ids.flatMap fun id => d.leaves (.node id) := by
      rw [elements, List.flatMap_assoc]
      exact List.flatMap_congr fun id _ => (leaves_node h id).symm
    rw [heach]
    exact (hperm.flatMap_right _).symm
  exact (List.perm_append_right_iff _).1 (hall.symm.trans (flatMap_leaves_perm d d.elements))

end TreeDraft

end JavaAnalysis

/-!
## The tables of owners and parents

Owners of tokens and parents of nodes are entered slot by slot into a table that starts out empty,
and an entry that is there already is a fault. Both passes are one (`enter`): it succeeds if no
place is entered twice, and then the table holds what was entered and nothing else.
-/

namespace JavaAnalysis

/-! ## Entering values into a table -/

/-- Enters values at places that are free. -/
def enter {α ε : Type} (fault : Nat → ε) (table : Array (Option α)) :
    List (Nat × α) → Except ε (Array (Option α))
  | [] => .ok table
  | e :: es =>
    match table.getD e.1 none with
    | some _ => .error (fault e.1)
    | none => enter fault (table.setIfInBounds e.1 (some e.2)) es

section

variable {α ε : Type} {fault : Nat → ε} {table table' : Array (Option α)} {entries : List (Nat × α)}

theorem getD_setIfInBounds (table : Array (Option α)) (i j : Nat) (a : α) (h : i < table.size) :
    (table.setIfInBounds i (some a)).getD j none = if i = j then some a else table.getD j none := by
  by_cases hij : i = j
  · subst hij
    simp [Array.getD_eq_getD_getElem?, h]
  · simp [Array.getD_eq_getD_getElem?, hij]

/-- Entering succeeds if the places are different and free. -/
theorem enter_isOk (hin : ∀ e ∈ entries, e.1 < table.size) (hnodup : (entries.map (·.1)).Nodup)
    (hfree : ∀ e ∈ entries, table.getD e.1 none = none) :
    ∃ table', enter fault table entries = .ok table' := by
  induction entries generalizing table with
  | nil => exact ⟨table, rfl⟩
  | cons e es ih =>
    rw [List.map_cons, List.nodup_cons] at hnodup
    rw [enter, hfree e List.mem_cons_self]
    refine ih (fun f hf => ?_) hnodup.2 fun f hf => ?_
    · simpa using hin f (List.mem_cons_of_mem _ hf)
    · have hne : e.1 ≠ f.1 := fun heq => hnodup.1 (by rw [heq]; exact List.mem_map_of_mem hf)
      rw [getD_setIfInBounds _ _ _ _ (hin e List.mem_cons_self), if_neg hne]
      exact hfree f (List.mem_cons_of_mem _ hf)

/-- A table is made of what was in it and what was entered, each at a place of its own. -/
theorem enter_ok (hin : ∀ e ∈ entries, e.1 < table.size)
    (h : enter fault table entries = .ok table') :
    table'.size = table.size ∧ (entries.map (·.1)).Nodup ∧
      (∀ e ∈ entries, table.getD e.1 none = none) ∧
      ∀ i a, table'.getD i none = some a ↔ table.getD i none = some a ∨ (i, a) ∈ entries := by
  induction entries generalizing table with
  | nil =>
    cases h
    simp
  | cons e es ih =>
    unfold enter at h
    split at h
    · cases h
    · rename_i hnone
      have he := hin e List.mem_cons_self
      obtain ⟨hsize, hnodup, hfree, hvalues⟩ := ih (by
        intro f hf
        simpa using hin f (List.mem_cons_of_mem _ hf)) h
      have hlater : ∀ f ∈ es, e.1 ≠ f.1 ∧ table.getD f.1 none = none := by
        intro f hf
        have hf' := hfree f hf
        rw [getD_setIfInBounds _ _ _ _ he] at hf'
        split at hf'
        · cases hf'
        · exact ⟨‹_›, hf'⟩
      refine ⟨by simpa using hsize, ?_, ?_, fun i a => ?_⟩
      · rw [List.map_cons, List.nodup_cons]
        refine ⟨fun hmem => ?_, hnodup⟩
        obtain ⟨f, hf, heq⟩ := List.mem_map.1 hmem
        exact (hlater f hf).1 heq.symm
      · intro f hf
        rcases List.mem_cons.1 hf with rfl | hf
        · exact hnone
        · exact (hlater f hf).2
      · rw [hvalues, getD_setIfInBounds _ _ _ _ he, List.mem_cons]
        obtain ⟨j, b⟩ := e
        by_cases hij : j = i
        · subst hij
          simp only [if_true, Option.some.injEq, Prod.mk.injEq, true_and, hnone]
          constructor
          · rintro (rfl | hmem)
            · exact .inr (.inl rfl)
            · exact .inr (.inr hmem)
          · rintro (hnever | rfl | hmem)
            · cases hnever
            · exact .inl rfl
            · exact .inr hmem
        · rw [if_neg hij]
          simp only [Prod.mk.injEq, show ¬ i = j from fun h => hij h.symm, false_and, false_or]

end

/-! ## Slots -/

namespace Slot

theorem mem_ofChildren {parent : NodeId} {children : List Element} {s : Slot} :
    s ∈ ofChildren parent children ↔ s.parent = parent ∧ children[s.place]? = some s.child := by
  simp only [ofChildren, List.mem_map, List.mem_zipIdx_iff_getElem?, Prod.exists]
  constructor
  · rintro ⟨c, k, hk, rfl⟩
    exact ⟨rfl, by simpa using hk⟩
  · rintro ⟨rfl, hs⟩
    exact ⟨s.child, s.place, by simpa using hs, rfl⟩

theorem mem_ofNodes {n : Nat} {lists : List (List Element)} {s : Slot} :
    s ∈ ofNodes n lists ↔ ∃ i children, lists[i]? = some children ∧ s.parent = ⟨n + i⟩ ∧
      children[s.place]? = some s.child := by
  induction lists generalizing n with
  | nil => simp [ofNodes]
  | cons children rest ih =>
    rw [ofNodes, List.mem_append, mem_ofChildren, ih]
    constructor
    · rintro (⟨hparent, hchild⟩ | ⟨i, cs, hcs, hparent, hchild⟩)
      · exact ⟨0, children, rfl, hparent, hchild⟩
      · exact ⟨i + 1, cs, hcs, by rw [hparent]; congr 1; omega, hchild⟩
    · rintro ⟨i, cs, hcs, hparent, hchild⟩
      cases i with
      | zero =>
        cases hcs
        exact .inl ⟨hparent, hchild⟩
      | succ i => exact .inr ⟨i, cs, hcs, by rw [hparent]; congr 1; omega, hchild⟩

theorem map_child_ofNodes (n : Nat) (lists : List (List Element)) :
    (ofNodes n lists).map (·.child) = lists.flatten := by
  induction lists generalizing n with
  | nil => rfl
  | cons children rest ih =>
    rw [ofNodes, List.map_append, ih, List.flatten_cons]
    congr 1
    simp [ofChildren, List.map_map, Function.comp_def]

/-- What a slot says of the owner of a token. -/
def owner? (s : Slot) : Option (Nat × NodeId) := s.child.token?.map fun id => (id.index, s.parent)

/-- What a slot says of the parent of a node. -/
def link? (s : Slot) : Option (Nat × NodeId × Nat) :=
  s.child.node?.map fun id => (id.index, s.parent, s.place)

end Slot

namespace SyntaxTree

open TreeDraft

theorem ownersFrom_eq (row : TokenRow) (owners : Array (Option NodeId)) (slots : List Slot) :
    ownersFrom row owners slots =
      enter (fun i => .sharedToken (row.token ⟨i⟩).kind (row.token ⟨i⟩).start) owners
        (slots.filterMap Slot.owner?) := by
  induction slots generalizing owners with
  | nil => rfl
  | cons s slots ih =>
    obtain ⟨parent, place, c⟩ := s
    cases c with
    | node id => exact ih owners
    | token id =>
      have hcons : (⟨parent, place, .token id⟩ :: slots : List Slot).filterMap Slot.owner? =
          (id.index, parent) :: slots.filterMap Slot.owner? := rfl
      rw [hcons, ownersFrom, enter]
      split
      · rename_i hsome
        simp only [hsome]
      · rename_i hnone
        simp only [hnone, ih]

theorem linksFrom_eq (kind : NodeId → NodeKind) (links : Array (Option (NodeId × Nat)))
    (slots : List Slot) :
    linksFrom kind links slots =
      enter (fun i => .sharedNode (kind ⟨i⟩)) links (slots.filterMap Slot.link?) := by
  induction slots generalizing links with
  | nil => rfl
  | cons s slots ih =>
    obtain ⟨parent, place, c⟩ := s
    cases c with
    | token id => exact ih links
    | node id =>
      have hcons : (⟨parent, place, .node id⟩ :: slots : List Slot).filterMap Slot.link? =
          (id.index, parent, place) :: slots.filterMap Slot.link? := rfl
      rw [hcons, linksFrom, enter]
      split
      · rename_i hsome
        simp only [hsome]
      · rename_i hnone
        simp only [hnone, ih]

variable {row : TokenRow} {d : TreeDraft}

/-! ## The slots of a draft -/

/-- The slots of the nodes of a draft. -/
def slotsOf (d : TreeDraft) : List Slot :=
  Slot.ofNodes 0 (d.nodes.toList.map DraftNode.children)

theorem map_children_ids (d : TreeDraft) :
    d.ids.map (fun id => (d.node id).children) = d.nodes.toList.map DraftNode.children := by
  refine List.ext_getElem (by simp [ids]) fun i h _ => ?_
  have hi : i < d.nodes.size := by simpa [ids] using h
  simp [ids, TreeDraft.node, Array.getD, hi]

theorem map_child_slotsOf (d : TreeDraft) : (slotsOf d).map (·.child) = d.elements := by
  rw [slotsOf, Slot.map_child_ofNodes, ← map_children_ids, elements, List.flatMap]

theorem mem_slotsOf {s : Slot} :
    s ∈ slotsOf d ↔ (d.node s.parent).children[s.place]? = some s.child := by
  rw [slotsOf, ← map_children_ids, Slot.mem_ofNodes]
  simp only [List.getElem?_map, Option.map_eq_some_iff, Nat.zero_add]
  constructor
  · rintro ⟨i, _, ⟨id, hid, rfl⟩, hparent, hchild⟩
    have hsame : id = s.parent := by
      rw [hparent]
      simpa [ids, List.getElem?_range, eq_comm] using (List.getElem?_eq_some_iff.1 hid).2
    rw [← hsame]
    exact hchild
  · intro hchild
    have hsize := size_of_mem_children (List.mem_of_getElem? hchild)
    exact ⟨s.parent.index, _, ⟨s.parent, by simp [ids, hsize], rfl⟩, rfl, hchild⟩

theorem map_owner?_slotsOf (ss : List Slot) :
    (ss.filterMap Slot.owner?).map (·.1) = (tokensAmong (ss.map (·.child))).map (·.index) := by
  induction ss with
  | nil => rfl
  | cons s ss ih =>
    obtain ⟨parent, place, c⟩ := s
    cases c with
    | node id => exact ih
    | token id => exact congrArg (id.index :: ·) ih

theorem map_link?_slotsOf (ss : List Slot) :
    (ss.filterMap Slot.link?).map (·.1) = (nodesAmong (ss.map (·.child))).map (·.index) := by
  induction ss with
  | nil => rfl
  | cons s ss ih =>
    obtain ⟨parent, place, c⟩ := s
    cases c with
    | token id => exact ih
    | node id => exact congrArg (id.index :: ·) ih

theorem mem_tokensAmong {cs : List Element} {id : TokenId} : id ∈ tokensAmong cs ↔
    .token id ∈ cs := by
  simp only [tokensAmong, List.mem_filterMap]
  constructor
  · rintro ⟨c, hc, hid⟩
    cases c with
    | node _ => cases hid
    | token _ =>
      cases hid
      exact hc
  · exact fun h => ⟨_, h, rfl⟩

theorem mem_nodesAmong {cs : List Element} {id : NodeId} : id ∈ nodesAmong cs ↔ .node id ∈ cs := by
  simp only [nodesAmong, List.mem_filterMap]
  constructor
  · rintro ⟨c, hc, hid⟩
    cases c with
    | token _ => cases hid
    | node _ =>
      cases hid
      exact hc
  · exact fun h => ⟨_, h, rfl⟩

/-! ## The tables of a draft -/

theorem mem_owners {i : Nat} {p : NodeId} :
    (i, p) ∈ (slotsOf d).filterMap Slot.owner? ↔ .token ⟨i⟩ ∈ (d.node p).children := by
  simp only [List.mem_filterMap, Slot.owner?, Option.map_eq_some_iff, Prod.mk.injEq]
  constructor
  · rintro ⟨⟨parent, place, c⟩, hs, id, hid, rfl, rfl⟩
    cases c with
    | node _ => cases hid
    | token _ =>
      cases hid
      exact List.mem_of_getElem? (mem_slotsOf.1 hs)
  · intro h
    obtain ⟨k, hk⟩ := List.mem_iff_getElem?.1 h
    exact ⟨⟨p, k, .token ⟨i⟩⟩, mem_slotsOf.2 hk, ⟨i⟩, rfl, rfl, rfl⟩

theorem mem_links {i : Nat} {p : NodeId} {k : Nat} :
    (i, p, k) ∈ (slotsOf d).filterMap Slot.link? ↔
      (d.node p).children[k]? = some (.node ⟨i⟩) := by
  simp only [List.mem_filterMap, Slot.link?, Option.map_eq_some_iff, Prod.mk.injEq]
  constructor
  · rintro ⟨⟨parent, place, c⟩, hs, id, hid, rfl, rfl, rfl⟩
    cases c with
    | token _ => cases hid
    | node _ =>
      cases hid
      exact mem_slotsOf.1 hs
  · exact fun h => ⟨⟨p, k, .node ⟨i⟩⟩, mem_slotsOf.2 h, ⟨i⟩, rfl, rfl, rfl, rfl⟩

theorem nodup_owners : (((slotsOf d).filterMap Slot.owner?).map (·.1)).Nodup ↔
    (tokensAmong d.elements).Nodup := by
  rw [map_owner?_slotsOf, map_child_slotsOf]
  exact List.nodup_map_iff fun ⟨_⟩ ⟨_⟩ h => congrArg TokenId.mk h

theorem nodup_links : (((slotsOf d).filterMap Slot.link?).map (·.1)).Nodup ↔
    (nodesAmong d.elements).Nodup := by
  rw [map_link?_slotsOf, map_child_slotsOf]
  exact List.nodup_map_iff fun ⟨_⟩ ⟨_⟩ h => congrArg NodeId.mk h

theorem owners_inBounds (h : d.BottomUp row) :
    ∀ e ∈ (slotsOf d).filterMap Slot.owner?,
      e.1 < (Array.replicate row.tokens.size (none : Option NodeId)).size := by
  intro e he
  have hlt : e.1 < row.tokens.size := h.available (mem_owners.1 he)
  simpa using hlt

theorem links_inBounds (h : d.BottomUp row) :
    ∀ e ∈ (slotsOf d).filterMap Slot.link?,
      e.1 < (Array.replicate d.nodes.size (none : Option (NodeId × Nat))).size := by
  rintro ⟨i, p, k⟩ he
  have hmem := List.mem_of_getElem? (mem_links.1 he)
  have hlt : i < p.index := h.available hmem
  have hsize := size_of_mem_children hmem
  simp only [Array.size_replicate]
  omega

private theorem getD_replicate {α : Type} (n i : Nat) :
    (Array.replicate n (none : Option α)).getD i none = none := by
  by_cases h : i < n <;> simp [Array.getD, h]

theorem ownersOf_isOk (h : d.BottomUp row) (hnodup : (tokensAmong d.elements).Nodup) :
    ∃ owners, ownersOf row (slotsOf d) = .ok owners := by
  rw [ownersOf, ownersFrom_eq]
  exact enter_isOk (owners_inBounds h) (nodup_owners.2 hnodup) fun _ _ => getD_replicate _ _

theorem ownersOf_eq_ok (h : d.BottomUp row) {owners : Array (Option NodeId)}
    (howners : ownersOf row (slotsOf d) = .ok owners) :
    owners.size = row.tokens.size ∧ (tokensAmong d.elements).Nodup ∧
      ∀ i p, owners.getD i none = some p ↔ .token ⟨i⟩ ∈ (d.node p).children := by
  rw [ownersOf, ownersFrom_eq] at howners
  obtain ⟨hsize, hnodup, -, hvalues⟩ := enter_ok (owners_inBounds h) howners
  refine ⟨by simpa using hsize, nodup_owners.1 hnodup, fun i p => ?_⟩
  rw [hvalues, getD_replicate, mem_owners]
  simp

theorem linksFrom_isOk (h : d.BottomUp row) (kind : NodeId → NodeKind)
    (hnodup : (nodesAmong d.elements).Nodup) :
    ∃ links, linksFrom kind (Array.replicate d.nodes.size none) (slotsOf d) = .ok links := by
  rw [linksFrom_eq]
  exact enter_isOk (links_inBounds h) (nodup_links.2 hnodup) fun _ _ => getD_replicate _ _

theorem linksFrom_eq_ok (h : d.BottomUp row) {kind : NodeId → NodeKind}
    {links : Array (Option (NodeId × Nat))}
    (hlinks : linksFrom kind (Array.replicate d.nodes.size none) (slotsOf d) = .ok links) :
    (nodesAmong d.elements).Nodup ∧
      ∀ i p k, links.getD i none = some (p, k) ↔ (d.node p).children[k]? = some (.node ⟨i⟩) := by
  rw [linksFrom_eq] at hlinks
  obtain ⟨-, hnodup, -, hvalues⟩ := enter_ok (links_inBounds h) hlinks
  refine ⟨nodup_links.1 hnodup, fun i p k => ?_⟩
  rw [hvalues, getD_replicate, mem_links]
  simp

end SyntaxTree

end JavaAnalysis
