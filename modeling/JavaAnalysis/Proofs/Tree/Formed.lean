import JavaAnalysis.Proofs.Tree.Finish

/-!
# Finished trees

What a draft that is finished is like, told without the draft: each node but the root has one
parent, in which it knows its slot, and its tokens are those of its children, one after the other.
So children follow each other inside their parent.
Main statements: `formed_of_ofDraft`, `Formed.inside`, `Formed.apart`.
-/

set_option autoImplicit false
set_option linter.dupNamespace false

namespace JavaAnalysis

namespace SyntaxTree

open TreeDraft

/-- The numbers of all nodes. -/
def ids (t : SyntaxTree) : List NodeId := (List.range t.nodes.size).map NodeId.mk

/-- The tokens of a child, which may be a token itself. -/
def tokensIn (t : SyntaxTree) : Element → List TokenId
  | .token id => [id]
  | .node id => t.tokensOf id

/-- The tree was finished. -/
structure Formed (t : SyntaxTree) : Prop where
  tokens : TokensInOrder t.row
  child_lt : ∀ p c, c ∈ t.children p → c.index < p.index
  lt_size : ∀ p c, c ∈ t.childElements p → p.index < t.nodes.size
  slot_iff : ∀ p k id, (t.childElements p)[k]? = some (.node id) ↔
    t.parent? id = some p ∧ (t.node id).place = k
  /-- Each node is the root or a child, and this only once. -/
  perm : (t.root :: t.ids.flatMap t.children).Perm t.ids
  childElements_ne : ∀ id, id.index < t.nodes.size → t.childElements id ≠ []
  tokensOf_eq : ∀ id, id.index < t.nodes.size →
    t.tokensOf id = (t.childElements id).flatMap t.tokensIn
  tokensOf_root : t.tokensOf t.root = tokenIdsOf t.row
  tokensOf_infix : ∀ id, id.index < t.nodes.size → t.tokensOf id <:+: tokenIdsOf t.row

variable {t : SyntaxTree} {id p c : NodeId} {x : TokenId}

theorem mem_ids : id ∈ t.ids ↔ id.index < t.nodes.size := by
  simp only [ids, List.mem_map, List.mem_range]
  constructor
  · rintro ⟨i, hi, rfl⟩
    exact hi
  · exact fun h => ⟨id.index, h, rfl⟩

theorem mem_children : c ∈ t.children p ↔ .node c ∈ t.childElements p := mem_nodesAmong

theorem formed_of_ofDraft {text : String} {row : TokenRow} {d : TreeDraft} {root : NodeId}
    (h : d.BottomUp row) (ht : ofDraft text row d root = .ok t) : t.Formed := by
  have hs := sound_of_ofDraft h ht
  have hwithin : ∀ id ∈ d.ids, d.leaves (.node id) <:+: tokenIdsOf row := fun id hid => by
    rw [← hs.leaves]
    exact leaves_within_root h (fun _ hid hroot => hs.exists_parent hid hroot) hid
  have htokens : ∀ id ∈ d.ids, t.tokensOf id = d.leaves (.node id) := fun id hid =>
    tokensOf_eq_leaves h ht hid
  have hslot := slot_iff h ht
  obtain ⟨horder, ends, -, owners, -, links, -, os, -, -, rfl⟩ := ofDraft_eq_ok.1 ht
  have hids : (finished text row d root ends links os).ids = d.ids := by
    simp [ids, TreeDraft.ids, finished]
  have hsize : (finished text row d root ends links os).nodes.size = d.nodes.size := by
    simp [finished]
  have hchildren : ∀ id, (finished text row d root ends links os).children id =
      nodesAmong (d.node id).children := fun id => by
    rw [children, childElements_finished]
    rfl
  refine ⟨horder, fun p c hc => ?_, fun p c hc => ?_, hslot, ?_, fun id hid => ?_, fun id hid => ?_,
    ?_, fun id hid => ?_⟩
  · rw [hchildren] at hc
    exact h.available (mem_nodesAmong.1 hc)
  · rw [childElements_finished] at hc
    rw [hsize]
    exact size_of_mem_children hc
  · rw [hids, funext hchildren, ← nodesAmong_elements]
    exact hs.perm
  · rw [hsize] at hid
    rw [childElements_finished]
    exact hs.children_ne id (TreeDraft.mem_ids.2 hid)
  · rw [hsize] at hid
    rw [htokens id (TreeDraft.mem_ids.2 hid), leaves_node h, childElements_finished]
    refine List.flatMap_congr fun c hc => ?_
    cases c with
    | token x => rfl
    | node c =>
      have hlt : c.index < id.index := h.available hc
      exact (htokens c (TreeDraft.mem_ids.2 (Nat.lt_trans hlt hid))).symm
  · have hroot : root ∈ d.ids := hs.perm.mem_iff.1 List.mem_cons_self
    exact (htokens root hroot).trans hs.leaves
  · rw [hsize] at hid
    rw [htokens id (TreeDraft.mem_ids.2 hid)]
    exact hwithin id (TreeDraft.mem_ids.2 hid)

/-! ## The tokens of a node -/

theorem mem_tokensOf : x ∈ t.tokensOf id ↔
    (t.firstToken id).index ≤ x.index ∧ x.index ≤ (t.lastToken id).index := by
  obtain ⟨x⟩ := x
  simp only [tokensOf, List.mem_map, List.mem_range'_1, TokenId.mk.injEq, exists_eq_right]
  omega

theorem ascending_tokensOf (t : SyntaxTree) (id : NodeId) :
    (t.tokensOf id).Pairwise fun a b => a.index < b.index :=
  List.pairwise_map.2 List.pairwise_lt_range'

namespace Formed

theorem child_lt_size (h : t.Formed) (hc : c ∈ t.children p) : c.index < t.nodes.size :=
  Nat.lt_trans (h.child_lt p c hc) (h.lt_size p _ (mem_children.1 hc))

theorem tokensOf_ne_nil (h : t.Formed) (hid : id.index < t.nodes.size) : t.tokensOf id ≠ [] := by
  obtain ⟨i⟩ := id
  induction i using Nat.strongRecOn with
  | ind i ih =>
    obtain ⟨c, cs, hcs⟩ := List.exists_cons_of_ne_nil (h.childElements_ne _ hid)
    rw [h.tokensOf_eq _ hid, hcs, List.flatMap_cons]
    cases c with
    | token x => simp [tokensIn]
    | node c =>
      have hc : c ∈ t.children ⟨i⟩ := by
        rw [mem_children, hcs]
        exact List.mem_cons_self
      have hne := ih c.index (h.child_lt _ _ hc) (h.child_lt_size hc)
      exact fun hnil => hne (List.append_eq_nil_iff.1 hnil).1

theorem first_le_last (h : t.Formed) (hid : id.index < t.nodes.size) :
    (t.firstToken id).index ≤ (t.lastToken id).index := by
  obtain ⟨x, xs, hx⟩ := List.exists_cons_of_ne_nil (h.tokensOf_ne_nil hid)
  have hmem : x ∈ t.tokensOf id := by
    rw [hx]
    exact List.mem_cons_self
  have hbounds := mem_tokensOf.1 hmem
  omega

theorem firstToken_mem (h : t.Formed) (hid : id.index < t.nodes.size) :
    t.firstToken id ∈ t.tokensOf id :=
  mem_tokensOf.2 ⟨Nat.le_refl _, h.first_le_last hid⟩

theorem lastToken_mem (h : t.Formed) (hid : id.index < t.nodes.size) :
    t.lastToken id ∈ t.tokensOf id :=
  mem_tokensOf.2 ⟨h.first_le_last hid, Nat.le_refl _⟩

/-- The tokens of a child are among those of its parent. -/
theorem mem_tokensOf_of_child (h : t.Formed) {e : Element} (he : e ∈ t.childElements p)
    (hx : x ∈ t.tokensIn e) : x ∈ t.tokensOf p := by
  rw [h.tokensOf_eq p (h.lt_size p e he)]
  exact List.mem_flatMap.2 ⟨e, he, hx⟩

/-- A child is inside its parent. -/
theorem inside (h : t.Formed) (hc : c ∈ t.children p) :
    (t.firstToken p).index ≤ (t.firstToken c).index ∧
      (t.lastToken c).index ≤ (t.lastToken p).index := by
  have hsize := h.child_lt_size hc
  have hfirst : t.firstToken c ∈ t.tokensOf p :=
    h.mem_tokensOf_of_child (mem_children.1 hc) (h.firstToken_mem hsize)
  have hlast : t.lastToken c ∈ t.tokensOf p :=
    h.mem_tokensOf_of_child (mem_children.1 hc) (h.lastToken_mem hsize)
  exact ⟨(mem_tokensOf.1 hfirst).1, (mem_tokensOf.1 hlast).2⟩

/-- Children follow each other. -/
theorem apart (h : t.Formed) (p : NodeId) :
    (t.children p).Pairwise fun a b => (t.lastToken a).index < (t.firstToken b).index := by
  by_cases hp : p.index < t.nodes.size
  · have hascending := t.ascending_tokensOf p
    rw [h.tokensOf_eq p hp, List.pairwise_flatMap] at hascending
    refine List.Pairwise.filterMap Element.node? ?_
      (hascending.2.imp_of_mem fun {a b} ha hb hab => (⟨ha, hb, hab⟩ :
        a ∈ t.childElements p ∧ b ∈ t.childElements p ∧ _))
    intro a b hab i hi j hj
    cases a with
    | token _ => cases hi
    | node a =>
      cases b with
      | token _ => cases hj
      | node b =>
        cases hi
        cases hj
        obtain ⟨ha, hb, hab⟩ := hab
        have hi := h.child_lt_size (mem_children.2 ha)
        have hj := h.child_lt_size (mem_children.2 hb)
        exact hab _ (h.lastToken_mem hi) _ (h.firstToken_mem hj)
  · have hnone : t.children p = [] := by
      refine List.eq_nil_iff_forall_not_mem.2 fun c hc => hp ?_
      exact h.lt_size p _ (mem_children.1 hc)
    rw [hnone]
    exact .nil

/-! ## Where nodes start and end -/

theorem token_lt (h : t.Formed) (hid : id.index < t.nodes.size) (hx : x ∈ t.tokensOf id) :
    x.index < t.row.tokens.size :=
  mem_tokenIdsOf.1 ((h.tokensOf_infix id hid).subset hx)

/-- A token behind another one starts where that one ends, or later. -/
theorem stop_le_start (h : t.Formed) {x y : TokenId} (hxy : x.index < y.index)
    (hy : y.index < t.row.tokens.size) : (t.token x).stop ≤ (t.token y).start := by
  have htoken : ∀ z : TokenId, (hz : z.index < t.row.tokens.size) →
      t.token z = t.row.tokens.toList.get ⟨z.index, by simpa using hz⟩ := fun z hz => by
    simp [SyntaxTree.token, TokenRow.token, Array.getD_eq_getD_getElem?, hz]
  rw [htoken x (Nat.lt_trans hxy hy), htoken y hy]
  exact List.pairwise_iff_getElem.1 h.tokens.2 _ _ _ _ hxy

theorem start_le_start (h : t.Formed) {x y : TokenId} (hxy : x.index ≤ y.index)
    (hy : y.index < t.row.tokens.size) : (t.token x).start ≤ (t.token y).start := by
  rcases Nat.lt_or_eq_of_le hxy with hlt | heq
  · exact Nat.le_trans (Nat.le_add_right _ _) (h.stop_le_start hlt hy)
  · obtain ⟨i⟩ := x
    obtain ⟨j⟩ := y
    cases heq
    exact Nat.le_refl _

end Formed

end SyntaxTree

end JavaAnalysis
