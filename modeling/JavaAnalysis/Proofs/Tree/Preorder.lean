import JavaAnalysis.Proofs.Tree.Formed
import JavaAnalysis.Tree.Walk

/-!
# The order of a walk

A walk through a finished tree meets each node before the nodes below it, and these before the node
behind it. It goes on by the links of the tree, and yet meets what a recursion over the tree meets,
wherever it starts and whichever nodes it does not go below. So the nodes of the tree, as the walk
lists them, are all its nodes, each once, and they start one after the other.
Main statements: `walk_eq`, `descendants_eq`, `preorder_perm`, `preorder_starts`.
-/

set_option autoImplicit false
set_option linter.dupNamespace false

namespace JavaAnalysis

namespace SyntaxTree

/-- A node and the nodes below it, down to `n` levels, each before those below it. -/
def nodesWithin (t : SyntaxTree) : Nat → NodeId → List NodeId
  | 0, id => [id]
  | n + 1, id => id :: (t.children id).flatMap (t.nodesWithin n)

/-- A node and all nodes below it; a node has no more levels below it than its number. -/
def nodesFrom (t : SyntaxTree) (id : NodeId) : List NodeId := t.nodesWithin id.index id

/--
What a walk meets from where it enters a node to where it leaves it, down to `n` levels, if it does
not go below nodes with a property.
-/
def eventsWithin (t : SyntaxTree) (skip : NodeId → Bool) : Nat → NodeId → List WalkEvent
  | 0, id => [.enter id, .leave id]
  | n + 1, id => .enter id ::
    ((if skip id then [] else (t.children id).flatMap (t.eventsWithin skip n)) ++ [.leave id])

/-- What a walk meets from where it enters a node to where it leaves it. -/
def eventsFrom (t : SyntaxTree) (skip : NodeId → Bool) (id : NodeId) : List WalkEvent :=
  t.eventsWithin skip id.index id

/-- The nodes that a walk enters, in order. -/
def entered (events : List WalkEvent) : List NodeId :=
  events.filterMap fun
    | .enter id => some id
    | .leave _ => none

variable {t : SyntaxTree} {skip : NodeId → Bool} {id p c start : NodeId} {n m : Nat}

namespace Formed

theorem children_eq_nil (h : t.Formed) (hid : id.index = 0) : t.children id = [] :=
  List.eq_nil_iff_forall_not_mem.2 fun c hc => by
    have hlt := h.child_lt id c hc
    omega

theorem nodesWithin_eq (h : t.Formed) (hn : id.index ≤ n) (hm : id.index ≤ m) :
    t.nodesWithin n id = t.nodesWithin m id := by
  induction n generalizing m id with
  | zero =>
    cases m with
    | zero => rfl
    | succ m => simp [nodesWithin, h.children_eq_nil (Nat.le_zero.1 hn)]
  | succ n ih =>
    cases m with
    | zero => simp [nodesWithin, h.children_eq_nil (Nat.le_zero.1 hm)]
    | succ m =>
      simp only [nodesWithin, List.cons.injEq, true_and]
      refine List.flatMap_congr fun c hc => ?_
      have hlt := h.child_lt id c hc
      exact ih (by omega) (by omega)

theorem nodesFrom_eq (h : t.Formed) (id : NodeId) :
    t.nodesFrom id = id :: (t.children id).flatMap t.nodesFrom := by
  have hunfold : t.nodesFrom id = t.nodesWithin (id.index + 1) id :=
    h.nodesWithin_eq (Nat.le_refl _) (Nat.le_succ _)
  rw [hunfold, nodesWithin, List.cons.injEq]
  refine ⟨rfl, List.flatMap_congr fun c hc => ?_⟩
  exact h.nodesWithin_eq (Nat.le_of_lt (h.child_lt id c hc)) (Nat.le_refl _)

theorem self_mem_nodesFrom (h : t.Formed) (id : NodeId) : id ∈ t.nodesFrom id := by
  rw [h.nodesFrom_eq]
  exact List.mem_cons_self

/-- What is below a child is a stretch of what is below its parent. -/
theorem nodesFrom_infix (h : t.Formed) (hc : c ∈ t.children p) :
    t.nodesFrom c <:+: t.nodesFrom p := by
  obtain ⟨before, after, hsplit⟩ := List.append_of_mem hc
  rw [h.nodesFrom_eq p, hsplit, List.flatMap_append, List.flatMap_cons]
  exact ⟨p :: before.flatMap t.nodesFrom, after.flatMap t.nodesFrom, by simp⟩

/-! ## All nodes are below the root -/

/-- Of some nodes with all below them, the nodes come first and those below their children after. -/
theorem flatMap_nodesFrom_perm (h : t.Formed) (ids : List NodeId) :
    (ids.flatMap t.nodesFrom).Perm (ids ++ (ids.flatMap t.children).flatMap t.nodesFrom) := by
  induction ids with
  | nil => exact .nil
  | cons id ids ih =>
    rw [List.flatMap_cons, h.nodesFrom_eq, List.flatMap_cons, List.flatMap_append]
    refine List.Perm.cons id ((ih.append_left _).trans ?_)
    exact List.perm_append_comm_assoc _ _ _

theorem nodesFrom_root_perm (h : t.Formed) : (t.nodesFrom t.root).Perm t.ids := by
  have hall := h.perm.flatMap_right t.nodesFrom
  rw [List.flatMap_cons] at hall
  exact (List.perm_append_right_iff _).1 (hall.trans (h.flatMap_nodesFrom_perm t.ids))

theorem exists_parent (h : t.Formed) (hid : id.index < t.nodes.size) (hroot : id ≠ t.root) :
    ∃ p, id ∈ t.children p := by
  rcases List.mem_cons.1 (h.perm.mem_iff.2 (mem_ids.2 hid)) with heq | hmem
  · exact absurd heq hroot
  · obtain ⟨p, -, hp⟩ := List.mem_flatMap.1 hmem
    exact ⟨p, hp⟩

theorem nodesFrom_infix_root (h : t.Formed) (hid : id.index < t.nodes.size) :
    t.nodesFrom id <:+: t.nodesFrom t.root := by
  obtain ⟨n, hn⟩ : ∃ n, n = t.nodes.size - id.index := ⟨_, rfl⟩
  induction n using Nat.strongRecOn generalizing id with
  | ind n ih =>
    by_cases hroot : id = t.root
    · exact hroot ▸ List.infix_refl _
    · obtain ⟨p, hp⟩ := h.exists_parent hid hroot
      have hlt := h.child_lt p id hp
      have hsize := h.lt_size p _ (mem_children.1 hp)
      exact (h.nodesFrom_infix hp).trans (ih _ (by omega) hsize rfl)

theorem nodup_nodesFrom (h : t.Formed) (hid : id.index < t.nodes.size) :
    (t.nodesFrom id).Nodup := by
  have hnodup : (t.nodesFrom t.root).Nodup := by
    refine h.nodesFrom_root_perm.nodup_iff.2 (List.Pairwise.map _ (fun a b hab heq => hab ?_)
      List.nodup_range)
    exact congrArg NodeId.index heq
  exact (h.nodesFrom_infix_root hid).sublist.nodup hnodup

theorem length_nodesFrom_le (h : t.Formed) (hid : id.index < t.nodes.size) :
    (t.nodesFrom id).length ≤ t.nodes.size := by
  have hle := (h.nodesFrom_infix_root hid).length_le
  have hall := h.nodesFrom_root_perm.length_eq
  simp only [ids, List.length_map, List.length_range] at hall
  omega

/-! ## The events of a walk -/

/-- A child finds its parent and the child behind it. -/
theorem links_of_children (h : t.Formed) {before after : List NodeId}
    (hsplit : t.children p = before ++ c :: after) :
    t.parent? c = some p ∧ t.nextSibling? c = after.head? := by
  obtain ⟨es, es', hes, -, hcs⟩ := List.filterMap_eq_append_iff.1 hsplit
  obtain ⟨ts, e, rest, rfl, -, he, rfl⟩ := List.filterMap_eq_cons_iff.1 hcs
  have hnode : e = .node c := by
    cases e with
    | token _ => cases he
    | node _ => cases he; rfl
  subst hnode
  have hslot : (t.childElements p)[(es ++ ts).length]? = some (.node c) := by
    rw [hes, ← List.append_assoc, List.getElem?_append_right (Nat.le_refl _)]
    simp
  obtain ⟨hparent, hplace⟩ := (h.slot_iff p _ c).1 hslot
  refine ⟨hparent, ?_⟩
  have hdata : (t.node c).parent = some p := hparent
  have hdrop : (t.childElements p).drop ((t.node c).place + 1) = rest := by
    have hfront : t.childElements p = (es ++ ts ++ [.node c]) ++ rest := by
      rw [hes]
      simp
    rw [hplace, hfront]
    exact List.drop_left' (by simp [Nat.add_assoc])
  simp only [nextSibling?, hdata, Option.bind_eq_bind, Option.bind_some, hdrop]
  exact (List.head?_filterMap).symm

theorem eventsWithin_eq (h : t.Formed) (hn : id.index ≤ n) (hm : id.index ≤ m) :
    t.eventsWithin skip n id = t.eventsWithin skip m id := by
  induction n generalizing m id with
  | zero =>
    cases m with
    | zero => rfl
    | succ m => simp [eventsWithin, h.children_eq_nil (Nat.le_zero.1 hn)]
  | succ n ih =>
    cases m with
    | zero => simp [eventsWithin, h.children_eq_nil (Nat.le_zero.1 hm)]
    | succ m =>
      have hbelow : (t.children id).flatMap (t.eventsWithin skip n) =
          (t.children id).flatMap (t.eventsWithin skip m) := by
        refine List.flatMap_congr fun c hc => ?_
        have hlt := h.child_lt id c hc
        exact ih (by omega) (by omega)
      rw [eventsWithin, eventsWithin, hbelow]

theorem eventsFrom_eq (h : t.Formed) (skip : NodeId → Bool) (id : NodeId) :
    t.eventsFrom skip id = .enter id ::
      ((if skip id then [] else (t.children id).flatMap (t.eventsFrom skip)) ++ [.leave id]) := by
  have hunfold : t.eventsFrom skip id = t.eventsWithin skip (id.index + 1) id :=
    h.eventsWithin_eq (Nat.le_refl _) (Nat.le_succ _)
  have hbelow : (t.children id).flatMap (t.eventsWithin skip id.index) =
      (t.children id).flatMap (t.eventsFrom skip) :=
    List.flatMap_congr fun c hc =>
      h.eventsWithin_eq (Nat.le_of_lt (h.child_lt id c hc)) (Nat.le_refl _)
  rw [hunfold, eventsWithin, hbelow]

theorem length_eventsWithin (t : SyntaxTree) (skip : NodeId → Bool) (n : Nat) (id : NodeId) :
    (t.eventsWithin skip n id).length ≤ 2 * (t.nodesWithin n id).length := by
  induction n generalizing id with
  | zero => exact Nat.le_refl _
  | succ n ih =>
    have hchildren : ∀ cs : List NodeId, (cs.flatMap (t.eventsWithin skip n)).length ≤
        2 * (cs.flatMap (t.nodesWithin n)).length := by
      intro cs
      induction cs with
      | nil => exact Nat.le_refl _
      | cons c cs ihc =>
        have hc := ih c
        simp only [List.flatMap_cons, List.length_append]
        omega
    have hall := hchildren (t.children id)
    rw [eventsWithin, nodesWithin]
    split <;> simp only [List.length_cons, List.length_append, List.length_nil] <;> omega

theorem entered_eventsWithin (n : Nat) (id : NodeId) :
    entered (t.eventsWithin (fun _ => false) n id) = t.nodesWithin n id := by
  unfold entered
  induction n generalizing id with
  | zero => rfl
  | succ n ih =>
    simp only [eventsWithin, nodesWithin, Bool.false_eq_true, if_false, List.filterMap_cons,
      List.filterMap_append, List.filterMap_flatMap, ih, List.filterMap_nil, List.append_nil]

theorem events_enter (t : SyntaxTree) (skip : NodeId → Bool) (start id : NodeId) (m : Nat) :
    Walk.events t skip (m + 1) ⟨start, some (.enter id)⟩ = .enter id ::
      Walk.events t skip m (if skip id
        then Walk.skipBelow t ⟨start, Walk.eventAfter t start (.enter id)⟩
        else ⟨start, Walk.eventAfter t start (.enter id)⟩) := by
  simp [Walk.events, Walk.advance?]

theorem events_leave (t : SyntaxTree) (skip : NodeId → Bool) (start id : NodeId) (m : Nat) :
    Walk.events t skip (m + 1) ⟨start, some (.leave id)⟩ = .leave id ::
      Walk.events t skip m ⟨start, Walk.eventAfter t start (.leave id)⟩ := by
  simp [Walk.events, Walk.advance?]

/-- Behind a node that was just entered and is not gone below, the walk leaves it. -/
theorem skipBelow_eq (h : t.Formed) (start id : NodeId) :
    Walk.skipBelow t ⟨start, Walk.eventAfter t start (.enter id)⟩ = ⟨start, some (.leave id)⟩ := by
  cases hcs : t.children id with
  | nil => simp [Walk.eventAfter, firstChild?, hcs, Walk.skipBelow]
  | cons c cs =>
    -- the event that was computed already enters the first child, whose parent is the node
    have hparent := (@links_of_children t id c h [] cs hcs).1
    simp [Walk.eventAfter, firstChild?, hcs, Walk.skipBelow, hparent]

/-- From one child on, a walk meets the children behind it and then leaves their parent. -/
theorem events_children (h : t.Formed)
    (hnode : ∀ c ∈ t.children id, ∀ m,
      Walk.events t skip ((t.eventsWithin skip n c).length + m) ⟨start, some (.enter c)⟩ =
        t.eventsWithin skip n c ++
          Walk.events t skip m ⟨start, Walk.eventAfter t start (.leave c)⟩)
    (hstart : start ∉ t.children id) (cs before : List NodeId) (m : Nat)
    (hsplit : t.children id = before ++ c :: cs) :
    Walk.events t skip (((c :: cs).flatMap (t.eventsWithin skip n)).length + m)
        ⟨start, some (.enter c)⟩ =
      (c :: cs).flatMap (t.eventsWithin skip n) ++
        Walk.events t skip m ⟨start, some (.leave id)⟩ := by
  induction cs generalizing before c m with
  | nil =>
    obtain ⟨hparent, hnext⟩ := h.links_of_children hsplit
    have hc : c ∈ t.children id := by simp [hsplit]
    have hne : c ≠ start := fun heq => hstart (heq ▸ hc)
    have hafter : Walk.eventAfter t start (.leave c) = some (.leave id) := by
      simp [Walk.eventAfter, hne, hnext, hparent]
    have hchild := hnode c hc m
    rw [hafter] at hchild
    simpa using hchild
  | cons c' cs ih =>
    obtain ⟨hparent, hnext⟩ := h.links_of_children hsplit
    have hc : c ∈ t.children id := by simp [hsplit]
    have hne : c ≠ start := fun heq => hstart (heq ▸ hc)
    have hafter : Walk.eventAfter t start (.leave c) = some (.enter c') := by
      simp [Walk.eventAfter, hne, hnext]
    have hchild := hnode c hc (((c' :: cs).flatMap (t.eventsWithin skip n)).length + m)
    rw [hafter, ih (before ++ [c]) m (by rw [hsplit]; simp)] at hchild
    rw [List.flatMap_cons, List.length_append, Nat.add_assoc, hchild, List.append_assoc]

/-- A walk that enters a node comes to leave it when it has met what is below it. -/
theorem events_node (h : t.Formed) (hn : id.index ≤ n) (hstart : id.index ≤ start.index) (m : Nat) :
    Walk.events t skip ((t.eventsWithin skip n id).length + m) ⟨start, some (.enter id)⟩ =
      t.eventsWithin skip n id ++
        Walk.events t skip m ⟨start, Walk.eventAfter t start (.leave id)⟩ := by
  induction n generalizing id m with
  | zero =>
    have hafter : Walk.eventAfter t start (.enter id) = some (.leave id) := by
      simp [Walk.eventAfter, firstChild?, h.children_eq_nil (Nat.le_zero.1 hn)]
    have hcount : (t.eventsWithin skip 0 id).length + m = m + 1 + 1 := by
      simp only [eventsWithin, List.length_cons, List.length_nil]
      omega
    rw [hcount, events_enter, h.skipBelow_eq, hafter, ite_self, events_leave]
    rfl
  | succ n ih =>
    cases hskip : skip id with
    | true =>
      have hevents : t.eventsWithin skip (n + 1) id = [.enter id, .leave id] := by
        simp [eventsWithin, hskip]
      have hcount : (t.eventsWithin skip (n + 1) id).length + m = m + 1 + 1 := by
        simp only [hevents, List.length_cons, List.length_nil]
        omega
      rw [hcount, events_enter, h.skipBelow_eq, hskip, if_pos rfl, events_leave, hevents]
      rfl
    | false =>
      have hnode := fun c (hc : c ∈ t.children id) =>
        have hlt := h.child_lt id c hc
        @ih c (by omega) (by omega)
      have hfresh : start ∉ t.children id := fun hmem => by
        have hlt := h.child_lt id start hmem
        omega
      have hevents : t.eventsWithin skip (n + 1) id = .enter id ::
          ((t.children id).flatMap (t.eventsWithin skip n) ++ [.leave id]) := by
        simp [eventsWithin, hskip]
      have hcount : (t.eventsWithin skip (n + 1) id).length + m =
          ((t.children id).flatMap (t.eventsWithin skip n)).length + (m + 1) + 1 := by
        simp only [hevents, List.length_cons, List.length_append, List.length_nil]
        omega
      rw [hcount, events_enter, hskip, if_neg Bool.false_ne_true, hevents, List.cons_append,
        List.append_assoc, List.singleton_append, ← events_leave]
      cases hcs : t.children id with
      | nil =>
        have hafter : Walk.eventAfter t start (.enter id) = some (.leave id) := by
          simp [Walk.eventAfter, firstChild?, hcs]
        simp [hafter]
      | cons c cs =>
        have hafter : Walk.eventAfter t start (.enter id) = some (.enter c) := by
          simp [Walk.eventAfter, firstChild?, hcs]
        rw [hafter, h.events_children hnode hfresh cs [] (m + 1) hcs]

/-- A walk from a node meets what is below it and is over then, however many steps it may take. -/
theorem events_ofNode (h : t.Formed) (hid : id.index < t.nodes.size) (skip : NodeId → Bool)
    (hn : 2 * t.nodes.size ≤ n) :
    Walk.events t skip n (Walk.ofNode id) = t.eventsFrom skip id := by
  have hlength := length_eventsWithin t skip id.index id
  have hle := h.length_nodesFrom_le hid
  have hfuel : n = (t.eventsWithin skip id.index id).length +
      (n - (t.eventsWithin skip id.index id).length) := by
    rw [nodesFrom] at hle
    omega
  have hover : ∀ k, Walk.events t skip k ⟨id, Walk.eventAfter t id (.leave id)⟩ = [] := by
    intro k
    cases k <;> simp [Walk.events, Walk.advance?, Walk.eventAfter]
  rw [hfuel, Walk.ofNode, h.events_node (Nat.le_refl _) (Nat.le_refl _), hover, List.append_nil]
  rfl

/-- A walk from a node meets what the recursion over the tree meets. -/
theorem walk_eq (h : t.Formed) (hid : id.index < t.nodes.size) (skip : NodeId → Bool) :
    t.walk id skip = t.eventsFrom skip id :=
  h.events_ofNode hid skip (Nat.le_refl _)

/-- A walk from a node enters that node and all below it. -/
theorem descendants_eq (h : t.Formed) (hid : id.index < t.nodes.size) :
    t.descendants id = t.nodesFrom id := by
  rw [descendants, h.walk_eq hid]
  exact entered_eventsWithin _ _

/-! ## The nodes of the tree in order -/

theorem root_lt_size (h : t.Formed) : t.root.index < t.nodes.size :=
  mem_ids.1 (h.perm.mem_iff.1 List.mem_cons_self)

theorem preorder_eq (h : t.Formed) : t.preorder = t.nodesFrom t.root :=
  h.descendants_eq h.root_lt_size

/-- A walk through the tree enters each node once. -/
theorem preorder_perm (h : t.Formed) : t.preorder.Perm t.ids := by
  rw [h.preorder_eq]
  exact h.nodesFrom_root_perm

theorem mem_preorder (h : t.Formed) : id ∈ t.preorder ↔ id.index < t.nodes.size :=
  h.preorder_perm.mem_iff.trans mem_ids

theorem nodup_preorder (h : t.Formed) : t.preorder.Nodup := by
  rw [h.preorder_eq]
  exact h.nodup_nodesFrom h.root_lt_size

theorem mem_nodesFrom_lt (h : t.Formed) (hid : start.index < t.nodes.size)
    (hmem : id ∈ t.nodesFrom start) : id.index < t.nodes.size :=
  mem_ids.1 (h.nodesFrom_root_perm.mem_iff.1 ((h.nodesFrom_infix_root hid).subset hmem))

/-- The nodes below a node are inside it, and start one after the other. -/
theorem nodesFrom_starts (h : t.Formed) (id : NodeId) :
    (∀ n ∈ t.nodesFrom id, (t.firstToken id).index ≤ (t.firstToken n).index ∧
      (t.lastToken n).index ≤ (t.lastToken id).index) ∧
    (t.nodesFrom id).Pairwise fun a b => (t.firstToken a).index ≤ (t.firstToken b).index := by
  obtain ⟨i⟩ := id
  induction i using Nat.strongRecOn with
  | ind i ih =>
    have hinside : ∀ n ∈ t.nodesFrom ⟨i⟩, (t.firstToken ⟨i⟩).index ≤ (t.firstToken n).index ∧
        (t.lastToken n).index ≤ (t.lastToken ⟨i⟩).index := by
      intro n hn
      rw [h.nodesFrom_eq] at hn
      rcases List.mem_cons.1 hn with rfl | hn
      · exact ⟨Nat.le_refl _, Nat.le_refl _⟩
      · obtain ⟨c, hc, hn⟩ := List.mem_flatMap.1 hn
        have hchild := h.inside hc
        have hbelow : (t.firstToken c).index ≤ (t.firstToken n).index ∧
            (t.lastToken n).index ≤ (t.lastToken c).index := (ih c.index (h.child_lt _ _ hc)).1 n hn
        omega
    refine ⟨hinside, ?_⟩
    rw [h.nodesFrom_eq, List.pairwise_cons, List.pairwise_flatMap]
    refine ⟨fun n hn => (hinside n ?_).1, fun c hc => (ih c.index (h.child_lt _ _ hc)).2, ?_⟩
    · rw [h.nodesFrom_eq]
      exact List.mem_cons_of_mem _ hn
    · refine (h.apart ⟨i⟩).imp_of_mem fun {a b} ha hb hab x hx y hy => ?_
      have hxa : (t.lastToken x).index ≤ (t.lastToken a).index :=
        ((ih a.index (h.child_lt _ _ ha)).1 x hx).2
      have hyb : (t.firstToken b).index ≤ (t.firstToken y).index :=
        ((ih b.index (h.child_lt _ _ hb)).1 y hy).1
      have hsize : x.index < t.nodes.size := h.mem_nodesFrom_lt (h.child_lt_size ha) hx
      have hle := h.first_le_last hsize
      omega

/-- In the order of a walk, no node starts before an earlier one. -/
theorem descendants_starts (h : t.Formed) (hid : id.index < t.nodes.size) :
    (t.descendants id).Pairwise fun a b => (t.range a).start ≤ (t.range b).start := by
  rw [h.descendants_eq hid]
  refine (h.nodesFrom_starts id).2.imp_of_mem fun {a b} _ hb hab => ?_
  have hsize := h.mem_nodesFrom_lt hid hb
  exact h.start_le_start hab (h.token_lt hsize (h.firstToken_mem hsize))

theorem preorder_starts (h : t.Formed) :
    t.preorder.Pairwise fun a b => (t.range a).start ≤ (t.range b).start :=
  h.descendants_starts h.root_lt_size

end Formed

end SyntaxTree

end JavaAnalysis
