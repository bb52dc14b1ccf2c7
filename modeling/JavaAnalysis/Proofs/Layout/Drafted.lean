import JavaAnalysis.Layout.Basic
import JavaAnalysis.Proofs.Ensures
import JavaAnalysis.Proofs.Tree.Finish

/-!
# Drafts over tokens without gaps

While a tree is laid over tokens, each node covers a stretch of them without gaps: its children take
up the tokens of its span one behind the other. Nodes that have no parent yet are loose; each of the
others is a child once. A new node over loose nodes keeps all this, so that a root over all tokens
with nothing loose beside it makes a sound draft. Main statement: `Drafted.sound`.
-/

set_option autoImplicit false
set_option linter.dupNamespace false

namespace JavaAnalysis

namespace TreeDraft

variable {row : TokenRow} {d : TreeDraft} {kind : NodeKind} {cs : List Element}

theorem node_push_of_lt {id : NodeId} (h : id.index < d.nodes.size) :
    (d.push kind cs).node id = d.node id := by
  simp [node, push, Array.getD_eq_getD_getElem?, Array.getElem?_push_lt, h]

theorem node_push_size : (d.push kind cs).node ⟨d.nodes.size⟩ = ⟨kind, cs⟩ := by
  simp [node, push, Array.getD_eq_getD_getElem?]

theorem ids_push : (d.push kind cs).ids = d.ids ++ [d.nextId] := by
  simp [ids, push, nextId, List.range_succ]

theorem elements_push : (d.push kind cs).elements = d.elements ++ cs := by
  have hold : ∀ id ∈ d.ids, ((d.push kind cs).node id).children = (d.node id).children := by
    intro id hid
    rw [node_push_of_lt (mem_ids.1 hid)]
  rw [elements, ids_push, List.flatMap_append, List.flatMap_congr hold, elements]
  simp [nextId, node_push_size]

theorem BottomUp.push (h : d.BottomUp row) (hcs : ∀ c ∈ cs, Available row d.nodes.size c) :
    (d.push kind cs).BottomUp row := by
  intro i hi c hc
  have hsize : (d.push kind cs).nodes.size = d.nodes.size + 1 := Array.size_push _
  by_cases hlast : i = d.nodes.size
  · subst hlast
    rw [node_push_size] at hc
    exact hcs c hc
  · have hlt : i < d.nodes.size := by omega
    rw [node_push_of_lt hlt] at hc
    exact h i hlt c hc

theorem nodesAmong_append (as bs : List Element) :
    nodesAmong (as ++ bs) = nodesAmong as ++ nodesAmong bs :=
  List.filterMap_append

theorem nodesAmong_cons_node (id : NodeId) (es : List Element) :
    nodesAmong (.node id :: es) = id :: nodesAmong es := rfl

theorem nodesAmong_nodes (ids : List NodeId) : nodesAmong (ids.map .node) = ids := by
  simp [nodesAmong, List.filterMap_map, Function.comp_def, Element.node?]

theorem tokensAmong_nodes (ids : List NodeId) : tokensAmong (ids.map .node) = [] := by
  simp [tokensAmong, List.filterMap_map, Function.comp_def, Element.token?]

theorem nodesAmong_cons_token (id : TokenId) (es : List Element) :
    nodesAmong (.token id :: es) = nodesAmong es := rfl

end TreeDraft

namespace Layout

open TreeDraft

variable {row : TokenRow} {l l' l'' : Layout} {loose loose' : List NodeId} {es es' : List Element}
  {ids : List NodeId} {next stop mid : Nat}

/-- The children take up the tokens from the one numbered `next` to that before `stop`. -/
def Contiguous (l : Layout) : List Element → Nat → Nat → Prop
  | [], next, stop => next = stop
  | .token id :: es, next, stop => id.index = next ∧ Contiguous l es (next + 1) stop
  | .node id :: es, next, stop =>
    id.index < l.spans.size ∧ (l.spanOf id).1.index = next ∧ next ≤ (l.spanOf id).2.index ∧
      Contiguous l es ((l.spanOf id).2.index + 1) stop

/-- Nodes cover tokens one behind the other, from the one numbered `next` up to `stop` or less. -/
def Nested (l : Layout) : List NodeId → Nat → Nat → Prop
  | [], next, stop => next ≤ stop
  | id :: ids, next, stop =>
    id.index < l.spans.size ∧ next ≤ (l.spanOf id).1.index ∧
      (l.spanOf id).1.index ≤ (l.spanOf id).2.index ∧ Nested l ids ((l.spanOf id).2.index + 1) stop

/-- A layout over the row in which just the given nodes have no parent. -/
structure Drafted (row : TokenRow) (l : Layout) (loose : List NodeId) : Prop where
  row_eq : l.row = row
  size_eq : l.spans.size = l.draft.nodes.size
  bottomUp : l.draft.BottomUp row
  ordered : ∀ id, id.index < l.spans.size → (l.spanOf id).1.index ≤ (l.spanOf id).2.index
  contiguous : ∀ id, id.index < l.spans.size →
    Contiguous l (l.draft.node id).children (l.spanOf id).1.index ((l.spanOf id).2.index + 1)
  perm : (loose ++ nodesAmong l.draft.elements).Perm l.draft.ids

/-- The nodes that were there are still there, over the same tokens. -/
structure Extends (l l' : Layout) : Prop where
  size_le : l.spans.size ≤ l'.spans.size
  spanOf_eq : ∀ id, id.index < l.spans.size → l'.spanOf id = l.spanOf id

/-- The two layouts have the same nodes; they may differ in what is declared and used. -/
structure Alike (l l' : Layout) : Prop where
  row_eq : l'.row = l.row
  nodes_eq : l'.draft.nodes = l.draft.nodes
  spans_eq : l'.spans = l.spans

theorem Extends.refl (l : Layout) : Extends l l := ⟨Nat.le_refl _, fun _ _ => rfl⟩

theorem Extends.trans (h : Extends l l') (h' : Extends l' l'') : Extends l l'' := by
  refine ⟨Nat.le_trans h.size_le h'.size_le, fun id hid => ?_⟩
  rw [h'.spanOf_eq id (Nat.lt_of_lt_of_le hid h.size_le), h.spanOf_eq id hid]

theorem Alike.extends (h : Alike l l') : Extends l l' := by
  refine ⟨by rw [h.spans_eq], fun id _ => ?_⟩
  rw [spanOf, spanOf, h.spans_eq]

theorem Alike.trans (h : Alike l l') (h' : Alike l' l'') : Alike l l'' :=
  ⟨h'.row_eq.trans h.row_eq, h'.nodes_eq.trans h.nodes_eq, h'.spans_eq.trans h.spans_eq⟩

theorem Contiguous.extends (h : Extends l l') (hes : Contiguous l es next stop) :
    Contiguous l' es next stop := by
  induction es generalizing next with
  | nil => exact hes
  | cons e es ih =>
    cases e with
    | token id => exact ⟨hes.1, ih hes.2⟩
    | node id =>
      obtain ⟨hid, hfirst, hle, hrest⟩ := hes
      unfold Contiguous
      rw [h.spanOf_eq id hid]
      exact ⟨Nat.lt_of_lt_of_le hid h.size_le, hfirst, hle, ih hrest⟩

theorem Contiguous.append (hes : Contiguous l es next mid) (hes' : Contiguous l es' mid stop) :
    Contiguous l (es ++ es') next stop := by
  induction es generalizing next with
  | nil =>
    cases hes
    exact hes'
  | cons e es ih =>
    cases e with
    | token id => exact ⟨hes.1, ih hes.2⟩
    | node id =>
      obtain ⟨hid, hfirst, hle, hrest⟩ := hes
      exact ⟨hid, hfirst, hle, ih hrest⟩

theorem Contiguous.le (h : Contiguous l es next stop) : next ≤ stop := by
  induction es generalizing next with
  | nil => exact Nat.le_of_eq h
  | cons e es ih =>
    cases e with
    | token id =>
      have hrest := ih h.2
      omega
    | node id =>
      obtain ⟨-, -, hle, hrest⟩ := h
      have := ih hrest
      omega

theorem Contiguous.available (h : Contiguous l es next stop) (hsize : l.spans.size =
    l.draft.nodes.size)
    (hstop : stop ≤ row.tokens.size) : ∀ e ∈ es, Available row l.draft.nodes.size e := by
  induction es generalizing next with
  | nil => simp
  | cons e es ih =>
    intro e' he'
    cases e with
    | token id =>
      obtain ⟨hid, hrest⟩ := h
      rcases List.mem_cons.1 he' with rfl | he'
      · have hle := hrest.le
        simp only [Available]
        omega
      · exact ih hrest e' he'
    | node id =>
      obtain ⟨hid, -, -, hrest⟩ := h
      rcases List.mem_cons.1 he' with rfl | he'
      · simp only [Available]
        omega
      · exact ih hrest e' he'

/-- What is below children that take up tokens are just these tokens. -/
theorem Contiguous.flatMap_eq {f : Element → List TokenId} (h : Contiguous l es next stop)
    (htoken : ∀ id, f (.token id) = [id])
    (hnode : ∀ id, .node id ∈ es → f (.node id) =
      (List.range' (l.spanOf id).1.index ((l.spanOf id).2.index + 1 - (l.spanOf id).1.index)).map
        TokenId.mk) :
    es.flatMap f = (List.range' next (stop - next)).map TokenId.mk := by
  induction es generalizing next with
  | nil =>
    cases h
    simp
  | cons e es ih =>
    have hothers := fun id hid => hnode id (List.mem_cons_of_mem _ hid)
    cases e with
    | token id =>
      obtain ⟨hid, hrest⟩ := h
      have hle := hrest.le
      have hcount : stop - next = 1 + (stop - (next + 1)) := by omega
      rw [List.flatMap_cons, ih hrest hothers, hcount, ← List.range'_append_1, htoken]
      simp [← hid]
    | node id =>
      obtain ⟨-, hfirst, hspan, hrest⟩ := h
      have hle := hrest.le
      have hcount : stop - next =
          ((l.spanOf id).2.index + 1 - next) + (stop - ((l.spanOf id).2.index + 1)) := by omega
      have hmid : next + ((l.spanOf id).2.index + 1 - next) = (l.spanOf id).2.index + 1 := by omega
      rw [List.flatMap_cons, ih hrest hothers, hnode id List.mem_cons_self, hfirst, hcount,
        ← List.range'_append_1, List.map_append, hmid]

namespace Drafted

/-- The order of the loose nodes does not matter. -/
theorem congr (h : Drafted row l loose) (hcount : ∀ id, loose.count id = loose'.count id) :
    Drafted row l loose' :=
  { h with perm := ((List.perm_iff_count.2 hcount).symm.append_right _).trans h.perm }

theorem alike (h : Drafted row l loose) (ha : Alike l l') : Drafted row l' loose := by
  have hnode : ∀ id, l'.draft.node id = l.draft.node id := by
    intro id
    rw [node, node, ha.nodes_eq]
  have hids : l'.draft.ids = l.draft.ids := by rw [TreeDraft.ids, TreeDraft.ids, ha.nodes_eq]
  have hspan : ∀ id, l'.spanOf id = l.spanOf id := by
    intro id
    rw [spanOf, spanOf, ha.spans_eq]
  have helements : l'.draft.elements = l.draft.elements := by
    rw [TreeDraft.elements, TreeDraft.elements, hids]
    exact List.flatMap_congr fun id _ => by rw [hnode]
  refine ⟨ha.row_eq.trans h.row_eq, ?_, ?_, ?_, ?_, ?_⟩
  · rw [ha.spans_eq, ha.nodes_eq, h.size_eq]
  · intro i hi
    rw [ha.nodes_eq] at hi
    rw [hnode]
    exact h.bottomUp i hi
  · intro id hid
    rw [ha.spans_eq] at hid
    rw [hspan]
    exact h.ordered id hid
  · intro id hid
    rw [ha.spans_eq] at hid
    rw [hspan, hnode]
    exact (h.contiguous id hid).extends ha.extends
  · rw [helements, hids]
    exact h.perm

/-- A new node takes in loose nodes. -/
theorem allocate {kind : NodeKind} {span : TokenId × TokenId}
    (h : Drafted row l (nodesAmong es ++ loose)) (hle : span.1.index ≤ span.2.index)
    (hlt : span.2.index < row.tokens.size)
    (hes : Contiguous l es span.1.index (span.2.index + 1)) :
    Succeeds (Layout.allocate kind es span) l fun id l' =>
      Drafted row l' (id :: loose) ∧ Extends l l' ∧ id.index < l'.spans.size ∧
        l'.spanOf id = span := by
  refine ⟨_, _, rfl, ?_⟩
  have hold : ∀ id : NodeId, id.index < l.spans.size →
      (l.spans.push span).getD id.index default = l.spans.getD id.index default := by
    intro id hid
    simp [Array.getD_eq_getD_getElem?, Array.getElem?_push_lt, hid]
  have hnew : (l.spans.push span).getD l.draft.nodes.size default = span := by
    simp [Array.getD_eq_getD_getElem?, ← h.size_eq]
  have hextends : Extends l { l with draft := l.draft.push kind es, spans := l.spans.push span } :=
    ⟨by simp, hold⟩
  have hcases : ∀ id : NodeId, id.index < (l.spans.push span).size →
      id.index < l.spans.size ∨ id = l.draft.nextId := by
    intro id hid
    rw [Array.size_push] at hid
    by_cases hlt : id.index < l.spans.size
    · exact .inl hlt
    · exact .inr (congrArg NodeId.mk (by have := h.size_eq; omega))
  have hava := hes.available h.size_eq hlt
  refine ⟨⟨h.row_eq, ?_, h.bottomUp.push hava, ?_, ?_, ?_⟩, hextends, ?_, hnew⟩
  · simp [TreeDraft.push, h.size_eq]
  · intro id hid
    rcases hcases id hid with hid | rfl
    · rw [hextends.spanOf_eq id hid]
      exact h.ordered id hid
    · simp only [spanOf, nextId, hnew]
      exact hle
  · intro id hid
    rcases hcases id hid with hid | rfl
    · rw [hextends.spanOf_eq id hid, node_push_of_lt (by rw [← h.size_eq]; exact hid)]
      exact (h.contiguous id hid).extends hextends
    · simp only [spanOf, nextId, hnew, node_push_size]
      exact hes.extends hextends
  · rw [elements_push, ids_push, nodesAmong_append]
    have hperm := h.perm
    simp only [List.perm_iff_count, List.count_append, List.count_cons, List.count_nil] at hperm ⊢
    intro id
    have := hperm id
    omega
  · simp [nextId, ← h.size_eq]

/-- The leaves of a node are the tokens of its span. -/
theorem leaves_eq (h : Drafted row l loose) {id : NodeId} (hid : id.index < l.spans.size) :
    l.draft.leaves (.node id) = (List.range' (l.spanOf id).1.index
      ((l.spanOf id).2.index + 1 - (l.spanOf id).1.index)).map TokenId.mk := by
  obtain ⟨i⟩ := id
  induction i using Nat.strongRecOn with
  | ind i ih =>
    rw [leaves_node h.bottomUp]
    refine (h.contiguous _ hid).flatMap_eq (fun _ => rfl) fun id hmem => ?_
    have hlt : id.index < i := h.bottomUp.available hmem
    exact ih id.index hlt (Nat.lt_trans hlt hid)

/-- Where nothing is loose but a node over all tokens, that node is the root of a sound draft. -/
theorem sound {root : NodeId} (h : Drafted row l [root]) (hroot : root.index < l.spans.size)
    (hspan : l.spanOf root = (⟨0⟩, row.final)) (hpos : 0 < row.tokens.size)
    (htokens : SyntaxTree.TokensInOrder row) : SyntaxTree.Sound row l.draft root := by
  refine ⟨htokens, fun id hid => ?_, h.perm, ?_⟩
  · have hlt : id.index < l.spans.size := by
      rw [h.size_eq]
      exact mem_ids.1 hid
    have hcontiguous := h.contiguous id hlt
    have hordered := h.ordered id hlt
    intro hnil
    rw [hnil] at hcontiguous
    have : (l.spanOf id).1.index = (l.spanOf id).2.index + 1 := hcontiguous
    omega
  · rw [h.leaves_eq hroot, hspan, SyntaxTree.tokenIdsOf, List.range_eq_range']
    have hcount : row.final.index + 1 - 0 = row.tokens.size := by
      simp only [TokenRow.final]
      omega
    simp only [hcount]

end Drafted

end Layout

end JavaAnalysis
