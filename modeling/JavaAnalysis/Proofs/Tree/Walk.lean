import JavaAnalysis.Proofs.Tree.Preorder

/-!
# Walks as recursion

The walk from a node has no memory but the event that comes next. Yet what it meets is what a
recursion over the tree meets: each node it enters it leaves once, in between it meets what is below
that node, child by child, or nothing if it was told to leave that out, and no node outside.
Main statement: `walk_recursive`.
-/

set_option autoImplicit false
set_option linter.dupNamespace false

namespace JavaAnalysis

namespace SyntaxTree

/-- The node is the first one or lies below it. -/
inductive Below (t : SyntaxTree) (start : NodeId) : NodeId → Prop
  | refl : Below t start start
  | child {p c : NodeId} : Below t start p → t.parent? c = some p → Below t start c

variable {t : SyntaxTree} {skip : NodeId → Bool} {id p c start : NodeId} {n : Nat}

/-- What is below a child is below its parent. -/
theorem Below.of_child (h : t.Below c id) (hparent : t.parent? c = some p) : t.Below p id := by
  induction h with
  | refl => exact .child .refl hparent
  | child _ hp ih => exact .child ih hp

namespace Formed

theorem mem_children_iff (h : t.Formed) : c ∈ t.children p ↔ t.parent? c = some p := by
  rw [mem_children, List.mem_iff_getElem?]
  constructor
  · rintro ⟨k, hk⟩
    exact ((h.slot_iff p k c).1 hk).1
  · exact fun hp => ⟨_, (h.slot_iff p _ c).2 ⟨hp, rfl⟩⟩

/-- What is below a node that is below another one is below that one. -/
theorem nodesFrom_subset (h : t.Formed) (hid : id ∈ t.nodesFrom start) :
    t.nodesFrom id ⊆ t.nodesFrom start := by
  obtain ⟨i⟩ := start
  induction i using Nat.strongRecOn with
  | ind i ih =>
    rw [h.nodesFrom_eq] at hid
    rcases List.mem_cons.1 hid with rfl | hid
    · exact List.Subset.refl _
    · obtain ⟨c, hc, hid⟩ := List.mem_flatMap.1 hid
      exact List.Subset.trans (ih c.index (h.child_lt _ _ hc) hid) (h.nodesFrom_infix hc).subset

theorem mem_nodesFrom_iff (h : t.Formed) : id ∈ t.nodesFrom start ↔ t.Below start id := by
  constructor
  · intro hid
    obtain ⟨i⟩ := start
    induction i using Nat.strongRecOn with
    | ind i ih =>
      rw [h.nodesFrom_eq] at hid
      rcases List.mem_cons.1 hid with rfl | hid
      · exact .refl
      · obtain ⟨c, hc, hid⟩ := List.mem_flatMap.1 hid
        exact (ih c.index (h.child_lt _ _ hc) hid).of_child (h.mem_children_iff.1 hc)
  · intro hbelow
    induction hbelow with
    | refl => exact h.self_mem_nodesFrom start
    | child _ hp ih =>
      exact h.nodesFrom_subset ih ((h.nodesFrom_infix (h.mem_children_iff.2 hp)).subset
        (h.self_mem_nodesFrom _))

/-- Leaving nodes out below others takes nodes out of the order of the walk, and adds none. -/
theorem entered_sublist (t : SyntaxTree) (skip : NodeId → Bool) (n : Nat) (id : NodeId) :
    (entered (t.eventsWithin skip n id)).Sublist (t.nodesWithin n id) := by
  induction n generalizing id with
  | zero => exact List.Sublist.refl _
  | succ n ih =>
    rw [eventsWithin, nodesWithin]
    split
    · simp [entered]
    · have hbelow : ∀ cs : List NodeId, (entered (cs.flatMap (t.eventsWithin skip n))).Sublist
          (cs.flatMap (t.nodesWithin n)) := by
        intro cs
        induction cs with
        | nil => exact List.Sublist.refl _
        | cons c cs ihc =>
          simp only [entered, List.flatMap_cons, List.filterMap_append]
          exact (ih c).append ihc
      simpa [entered] using hbelow (t.children id)

theorem count_enter (events : List WalkEvent) (id : NodeId) :
    events.count (.enter id) = (entered events).count id := by
  induction events with
  | nil => rfl
  | cons e es ih =>
    cases e with
    | enter x =>
      have hcons : entered (.enter x :: es) = x :: entered es := rfl
      rw [hcons, List.count_cons, List.count_cons, ih]
      simp
    | leave x =>
      have hcons : entered (.leave x :: es) = entered es := rfl
      rw [hcons, List.count_cons, ih]
      simp

/-- Each node is left as often as it is entered. -/
theorem count_leave (t : SyntaxTree) (skip : NodeId → Bool) (n : Nat) (id x : NodeId) :
    (t.eventsWithin skip n id).count (.leave x) = (t.eventsWithin skip n id).count (.enter x) := by
  induction n generalizing id with
  | zero => simp [eventsWithin, List.count_cons]
  | succ n ih =>
    have hbelow : ∀ cs : List NodeId, (cs.flatMap (t.eventsWithin skip n)).count (.leave x) =
        (cs.flatMap (t.eventsWithin skip n)).count (.enter x) := by
      intro cs
      induction cs with
      | nil => rfl
      | cons c cs ihc => rw [List.flatMap_cons, List.count_append, List.count_append, ih, ihc]
    rw [eventsWithin]
    split <;> simp [List.count_cons, List.count_append, hbelow]

end Formed

/--
A walk from any node of a finished tree, whichever nodes it is told not to go below, enters the node
first and leaves it last. In between it meets what the walks from its children meet, in their order,
or nothing if it does not go below the node; then it is over, however many steps it may take. It
enters no node twice and leaves each as often as it enters it, and all these nodes are below the
first one. If it goes below all nodes it enters all that are below the first one, and no node starts
before an earlier one.
-/
theorem walk_recursive {text : String} {row : TokenRow} {d : TreeDraft} {root : NodeId}
    (hd : d.BottomUp row) (ht : ofDraft text row d root = .ok t)
    (hstart : start.index < t.nodes.size) (skip : NodeId → Bool) :
    t.walk start skip = .enter start ::
      ((if skip start then [] else (t.children start).flatMap fun c => t.walk c skip) ++
        [.leave start]) ∧
    (∀ n, 2 * t.nodes.size ≤ n →
      Walk.events t skip n (Walk.ofNode start) = t.walk start skip) ∧
    (∀ id, (t.walk start skip).count (.enter id) ≤ 1 ∧
      (t.walk start skip).count (.leave id) = (t.walk start skip).count (.enter id)) ∧
    (∀ id, .enter id ∈ t.walk start skip → t.Below start id) ∧
    (∀ id, t.Below start id → (t.walk start fun _ => false).count (.enter id) = 1) ∧
    (t.descendants start).Pairwise fun a b => (t.range a).start ≤ (t.range b).start := by
  have h : t.Formed := formed_of_ofDraft hd ht
  have hnodup := h.nodup_nodesFrom hstart
  have hentered : (entered (t.walk start skip)).Sublist (t.nodesFrom start) := by
    rw [h.walk_eq hstart]
    exact Formed.entered_sublist t skip _ start
  refine ⟨?_, fun n hn => ?_, fun id => ⟨?_, ?_⟩, fun id hid => ?_, fun id hid => ?_,
    h.descendants_starts hstart⟩
  · have hbelow : (t.children start).flatMap (t.eventsFrom skip) =
        (t.children start).flatMap fun c => t.walk c skip :=
      List.flatMap_congr fun c hc => (h.walk_eq (h.child_lt_size hc) skip).symm
    rw [h.walk_eq hstart, h.eventsFrom_eq, hbelow]
  · rw [h.events_ofNode hstart skip hn, h.walk_eq hstart]
  · rw [Formed.count_enter]
    exact List.nodup_iff_count_le_one.1 (hentered.nodup hnodup) id
  · rw [h.walk_eq hstart]
    exact Formed.count_leave t skip _ start id
  · refine h.mem_nodesFrom_iff.1 (hentered.subset ?_)
    exact List.mem_filterMap.2 ⟨_, hid, rfl⟩
  · rw [Formed.count_enter, h.walk_eq hstart]
    have hall : entered (t.eventsFrom (fun _ => false) start) = t.nodesFrom start :=
      Formed.entered_eventsWithin _ _
    rw [hall]
    exact List.count_eq_one_of_mem hnodup (h.mem_nodesFrom_iff.2 hid)

/-- The call of a method with an argument. -/
def callRow : TokenRow :=
  ⟨#[⟨⟨.ident, "a", 0, .start⟩, []⟩, ⟨⟨.lParen, "(", 1, ⟨1, 1⟩⟩, []⟩, ⟨⟨.ident, "b", 2, ⟨1, 2⟩⟩, []⟩,
    ⟨⟨.rParen, ")", 3, ⟨1, 3⟩⟩, []⟩, ⟨⟨.endOfFile, "", 4, ⟨1, 4⟩⟩, []⟩]⟩

def callDraft : TreeDraft :=
  ((((TreeDraft.empty.push .identifier [.token ⟨0⟩]).push .identifier [.token ⟨2⟩]).push
    .arguments [.token ⟨1⟩, .node ⟨1⟩, .token ⟨3⟩]).push
    .methodInvocation [.node ⟨0⟩, .node ⟨2⟩]).push .compilationUnit [.node ⟨3⟩, .token ⟨4⟩]

/-- From the call, which is not the root, and not below its arguments. -/
theorem walk_recursive_call : callDraft.BottomUp callRow ∧
    ∃ t, ofDraft "a(b)" callRow callDraft ⟨4⟩ = .ok t ∧ t.walk ⟨3⟩ (· == ⟨2⟩) =
      [.enter ⟨3⟩, .enter ⟨0⟩, .leave ⟨0⟩, .enter ⟨2⟩, .leave ⟨2⟩, .leave ⟨3⟩] := by
  have hbottom : callDraft.BottomUp callRow := by decide
  have hwalk := fun t ht start (hstart : start.index < t.nodes.size) =>
    (@walk_recursive t start "a(b)" callRow callDraft ⟨4⟩ hbottom ht hstart (· == ⟨2⟩)).1
  refine ⟨hbottom, _, rfl, ?_⟩
  rw [hwalk _ rfl ⟨3⟩ (by decide)]
  rfl

end SyntaxTree

end JavaAnalysis
