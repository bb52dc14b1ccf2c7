import JavaAnalysis.Proofs.Ensures
import JavaAnalysis.Proofs.Tree.Tables
import Mathlib.Data.List.Chain

/-!
# The checks on a draft

What each check says of the nodes and the tokens that pass it: the tokens of the row follow each
other, the ends of a node are the ends of its first and its last child, the children of a node
follow each other, all nodes but the root have a parent, and all tokens have an owner.
`ofDraft_eq_ok` and `verify_eq_ok` put the checks together as finishing and checking a tree run
them.

The ends of a node are the first and the last of its leaves, so that children that follow each
other, as far as their ends show, make the leaves of their node ascend, and the other way round.
Leaves that ascend and are all tokens are the tokens in their order, and a stretch of these is known
from its ends.
-/

set_option autoImplicit false
set_option linter.dupNamespace false

namespace JavaAnalysis

namespace SyntaxTree

open TreeDraft

/-! ## Tokens -/

/-- The tokens end with the end of the file, and each starts no earlier than the one before ends. -/
def TokensInOrder (row : TokenRow) : Prop :=
  row.tokens.back?.any Token.isEndOfFile = true ∧
    row.tokens.toList.Pairwise fun a b => a.stop ≤ b.start

theorem checkSorted_eq_ok {ts : List Token} :
    checkSorted ts = .ok () ↔ ts.IsChain fun a b => a.stop ≤ b.start := by
  induction ts with
  | nil => simp [checkSorted]
  | cons a ts ih =>
    cases ts with
    | nil => simp [checkSorted]
    | cons b ts =>
      rw [checkSorted, List.isChain_cons_cons, ← ih]
      split
      · rename_i h
        simp [Nat.not_le.2 h]
      · rename_i h
        simp [Nat.not_lt.1 h]

theorem isChain_stop_le_start {ts : List Token} :
    ts.IsChain (fun a b => a.stop ≤ b.start) ↔ ts.Pairwise fun a b => a.stop ≤ b.start := by
  constructor
  · intro h
    induction ts with
    | nil => exact .nil
    | cons a ts ih =>
      have hpair := ih h.of_cons
      refine List.pairwise_cons.2 ⟨fun c hc => ?_, hpair⟩
      cases ts with
      | nil => cases hc
      | cons b ts =>
        have hab := (List.isChain_cons_cons.1 h).1
        rcases List.mem_cons.1 hc with rfl | hc
        · exact hab
        · have hbc := (List.pairwise_cons.1 hpair).1 c hc
          have hb : b.start ≤ b.stop := by simp [Lexeme.stop]
          omega
  · exact List.Pairwise.isChain

theorem checkTokens_eq_ok {row : TokenRow} : checkTokens row = .ok () ↔ TokensInOrder row := by
  unfold checkTokens TokensInOrder
  split
  · rename_i h
    rw [checkSorted_eq_ok, isChain_stop_le_start]
    simp [h]
  · rename_i h
    simp [h]

/-! ## Ends -/

section

variable {ends ends' : Array (TokenId × TokenId)} {ns : List DraftNode}

theorem endsFrom_isOk (h : ∀ n ∈ ns, n.children ≠ []) : ∃ ends', endsFrom ends ns = .ok ends' := by
  induction ns generalizing ends with
  | nil => exact ⟨ends, rfl⟩
  | cons n ns ih =>
    obtain ⟨c, cs, hcs⟩ := List.exists_cons_of_ne_nil (h n List.mem_cons_self)
    obtain ⟨last, hlast⟩ : ∃ last, n.children.getLast? = some last :=
      ⟨_, List.getLast?_eq_some_getLast (h n List.mem_cons_self)⟩
    unfold endsFrom endsOverChildren
    rw [hlast, hcs]
    exact ih fun m hm => h m (List.mem_cons_of_mem _ hm)

theorem endsFrom_eq_ok (h : endsFrom ends ns = .ok ends') :
    ends'.size = ends.size + ns.length ∧
      (∀ j < ends.size, ends'.getD j default = ends.getD j default) ∧
      ∀ k n, ns[k]? = some n → (∀ id, .node id ∈ n.children → id.index < ends.size + k) →
        ∃ first last, n.children.head? = some first ∧ n.children.getLast? = some last ∧
          ends'.getD (ends.size + k) default = ((endsOf ends' first).1, (endsOf ends' last).2) := by
  induction ns generalizing ends with
  | nil =>
    cases h
    simp
  | cons m ns ih =>
    obtain ⟨e, he, hrest⟩ := bind_eq_ok.1 h
    obtain ⟨hsize, hold, hnew⟩ := ih hrest
    simp only [Array.size_push] at hsize hold hnew
    have hkeep : ∀ j < ends.size, ends'.getD j default = ends.getD j default := by
      intro j hj
      rw [hold j (by omega)]
      simp [Array.getD_eq_getD_getElem?, Array.getElem?_push, Nat.ne_of_lt hj]
    refine ⟨by simp only [List.length_cons]; omega, hkeep, fun k n hk hbelow => ?_⟩
    cases k with
    | zero =>
      cases hk
      unfold endsOverChildren at he
      split at he
      · rename_i first last hfirst hlast
        refine ⟨first, last, hfirst, hlast, ?_⟩
        have hat : ends'.getD ends.size default = e := by
          rw [hold _ (by omega)]
          simp [Array.getD_eq_getD_getElem?]
        have hsame : ∀ c ∈ m.children, endsOf ends c = endsOf ends' c := by
          intro c hc
          cases c with
          | token id => rfl
          | node id => exact (hkeep id.index (hbelow id hc)).symm
        cases he
        rw [Nat.add_zero, hat, hsame first (List.mem_of_mem_head? hfirst),
          hsame last (List.mem_of_getLast? hlast)]
      · cases he
    | succ k =>
      have hplace : ends.size + (k + 1) = ends.size + 1 + k := by omega
      rw [hplace] at hbelow ⊢
      exact hnew k n hk hbelow

end

/-! ## Order -/

theorem checkOrder_eq_ok {row : TokenRow} {ends : Element → TokenId × TokenId} {kind : NodeKind}
    {after : Option TokenId} {cs : List Element} :
    checkOrder row ends kind after cs = .ok () ↔
      (∀ a ∈ after, ∀ c ∈ cs.head?, a.index < (ends c).1.index) ∧
        cs.IsChain fun a b => (ends a).2.index < (ends b).1.index := by
  induction cs generalizing after with
  | nil => simp [checkOrder]
  | cons c cs ih =>
    simp only [checkOrder]
    split
    · rename_i hbad
      obtain ⟨a, ha, hle⟩ := (Option.any_eq_true _ _).1 hbad
      simp only [reduceCtorEq, false_iff, not_and]
      intro hfirst
      have := hfirst a ha c rfl
      simp only [decide_eq_true_eq] at hle
      omega
    · rename_i hgood
      rw [ih]
      have hfirst : ∀ a ∈ after, a.index < (ends c).1.index := by
        intro a ha
        refine Nat.lt_of_not_le fun hle => hgood ?_
        rw [Option.any_eq_true]
        exact ⟨a, ha, by simpa using hle⟩
      cases cs with
      | nil => simpa using hfirst
      | cons b cs => simpa using fun _ _ => hfirst

theorem checkOrders_eq_ok {t : SyntaxTree} {ns : List NodeData} :
    t.checkOrders ns = .ok () ↔
      ∀ n ∈ ns, n.children.IsChain fun a b => (t.ends a).2.index < (t.ends b).1.index := by
  induction ns with
  | nil => simp [checkOrders]
  | cons n ns ih =>
    rw [checkOrders, check_eq_ok, checkOrder_eq_ok, List.forall_mem_cons, ← ih]
    simp

/-! ## Parents and owners -/

theorem checkLinked_eq_ok {t : SyntaxTree} {links : Array (Option (NodeId × Nat))} {n : Nat}
    {ns : List NodeData} : t.checkLinked links n ns = .ok () ↔
      ∀ i, n ≤ i → i < n + ns.length → t.root ≠ ⟨i⟩ → (links.getD i none).isSome = true := by
  induction ns generalizing n with
  | nil =>
    simp only [checkLinked, List.length_nil, true_iff]
    omega
  | cons data ns ih =>
    rw [checkLinked]
    split
    · rename_i hbad
      simp only [reduceCtorEq, false_iff]
      intro hall
      have := hall n (Nat.le_refl _) (by simp) hbad.2
      rw [Option.isNone_iff_eq_none] at hbad
      simp [hbad.1] at this
    · rename_i hgood
      rw [ih]
      constructor
      · intro hall i hle hlt hroot
        rcases Nat.eq_or_lt_of_le hle with rfl | hlt'
        · cases hlink : links.getD n none with
          | none => exact absurd ⟨by rw [hlink]; rfl, hroot⟩ hgood
          | some _ => rfl
        · refine hall i hlt' ?_ hroot
          simp only [List.length_cons] at hlt
          omega
      · intro hall i hle hlt hroot
        refine hall i (by omega) ?_ hroot
        simp only [List.length_cons]
        omega

theorem allOwned_eq_ok {pairs : List (Token × Option NodeId)} {owners : List NodeId} :
    allOwned pairs = .ok owners ↔ pairs.map (·.2) = owners.map some := by
  induction pairs generalizing owners with
  | nil =>
    cases owners with
    | nil => simp [allOwned]
    | cons _ _ => simp [allOwned]
  | cons p pairs ih =>
    obtain ⟨x, owner⟩ := p
    cases owner with
    | none => cases owners <;> simp [allOwned]
    | some owner =>
      rw [allOwned, bind_eq_ok]
      cases owners with
      | nil => simp [pure, Except.pure]
      | cons o os => simp [ih, pure, Except.pure, and_comm]

end SyntaxTree

end JavaAnalysis

namespace JavaAnalysis

namespace SyntaxTree

/-! ## The order of the leaves -/

open TreeDraft

/-- The numbers of the tokens of a row. -/
def tokenIdsOf (row : TokenRow) : List TokenId := (List.range row.tokens.size).map TokenId.mk

variable {row : TokenRow} {d : TreeDraft}

theorem mem_tokenIdsOf {id : TokenId} : id ∈ tokenIdsOf row ↔ id.index < row.tokens.size := by
  simp only [tokenIdsOf, List.mem_map, List.mem_range]
  constructor
  · rintro ⟨i, hi, rfl⟩
    exact hi
  · exact fun h => ⟨id.index, h, rfl⟩

theorem nodup_tokenIdsOf (row : TokenRow) : (tokenIdsOf row).Nodup := by
  refine List.Pairwise.map _ (fun a b hab h => hab ?_) List.nodup_range
  exact congrArg TokenId.index h

theorem TokensInOrder.tokenIdsOf_ne_nil (h : TokensInOrder row) : tokenIdsOf row ≠ [] := by
  intro hnil
  have hsize : row.tokens.size = 0 := by simpa [tokenIdsOf] using hnil
  have hlast := h.1
  rw [Array.back?, hsize] at hlast
  simp [hsize] at hlast

/-! ## The ends of nodes are those of their leaves -/

/-- The ends of a child are the first and the last token below it. -/
def EndsAt (d : TreeDraft) (ends : Array (TokenId × TokenId)) (c : Element) : Prop :=
  (d.leaves c).head? = some (endsOf ends c).1 ∧ (d.leaves c).getLast? = some (endsOf ends c).2

theorem endsAt_token (d : TreeDraft) (ends : Array (TokenId × TokenId)) (id : TokenId) :
    EndsAt d ends (.token id) := ⟨rfl, rfl⟩

theorem endsAt_node (h : d.BottomUp row) {ends : Array (TokenId × TokenId)}
    (hends : endsFrom #[] d.nodes.toList = .ok ends) {id : NodeId} (hid : id ∈ d.ids) :
    EndsAt d ends (.node id) := by
  obtain ⟨i⟩ := id
  induction i using Nat.strongRecOn with
  | ind i ih =>
    have hi : i < d.nodes.size := mem_ids.1 hid
    have hnode : d.nodes.toList[i]? = some (d.node ⟨i⟩) := by
      simp [TreeDraft.node, Array.getD_eq_getD_getElem?, hi]
    have hbelow : ∀ j : NodeId, .node j ∈ (d.node ⟨i⟩).children → j.index < i := fun j hj =>
      h.available hj
    have hchild : ∀ c ∈ (d.node ⟨i⟩).children, EndsAt d ends c := by
      intro c hc
      cases c with
      | token t => exact endsAt_token d ends t
      | node j => exact ih j.index (hbelow j hc) (mem_ids.2 (Nat.lt_trans (hbelow j hc) hi))
    obtain ⟨-, -, hnew⟩ := endsFrom_eq_ok hends
    obtain ⟨first, last, hfirst, hlast, hat⟩ := hnew i _ hnode (by simpa using hbelow)
    have hat' : endsOf ends (.node ⟨i⟩) = ((endsOf ends first).1, (endsOf ends last).2) := by
      rw [← hat, List.size_toArray, List.length_nil, Nat.zero_add]
      rfl
    unfold EndsAt
    rw [hat', leaves_node h]
    constructor
    · obtain ⟨cs, hcs⟩ := List.head?_eq_some_iff.1 hfirst
      rw [hcs, List.flatMap_cons, List.head?_append,
        (hchild first (List.mem_of_mem_head? hfirst)).1]
      rfl
    · obtain ⟨cs, hcs⟩ := List.getLast?_eq_some_iff.1 hlast
      rw [hcs, List.flatMap_append, List.flatMap_singleton, List.getLast?_append,
        (hchild last (List.mem_of_getLast? hlast)).2]
      rfl

/-! ## Order -/

/-- The tokens ascend. -/
def Ascending (ids : List TokenId) : Prop := ids.IsChain fun a b => a.index < b.index

/-- The leaves of a node ascend if its children follow each other and their leaves ascend. -/
theorem ascending_leaves_iff (h : d.BottomUp row) {ends : Array (TokenId × TokenId)} {id : NodeId}
    (hends : ∀ c ∈ (d.node id).children, EndsAt d ends c) :
    Ascending (d.leaves (.node id)) ↔ (∀ c ∈ (d.node id).children, Ascending (d.leaves c)) ∧
      (d.node id).children.IsChain fun a b => (endsOf ends a).2.index <
        (endsOf ends b).1.index := by
  have hne : [] ∉ (d.node id).children.map d.leaves := by
    intro hmem
    obtain ⟨c, hc, hnil⟩ := List.mem_map.1 hmem
    have hhead := (hends c hc).1
    rw [hnil] at hhead
    cases hhead
  rw [Ascending, leaves_node h, List.flatMap, List.isChain_flatten hne, List.forall_mem_map,
    List.isChain_map]
  refine and_congr_right fun _ => List.IsChain.iff_of_mem_imp fun a b ha hb => ?_
  rw [(hends a ha).2, (hends b hb).1]
  simp

theorem endsAt_children (h : d.BottomUp row) {ends : Array (TokenId × TokenId)}
    (hends : endsFrom #[] d.nodes.toList = .ok ends) {id : NodeId} :
    ∀ c ∈ (d.node id).children, EndsAt d ends c := by
  intro c hc
  cases c with
  | token t => exact endsAt_token d ends t
  | node j =>
    have hlt : j.index < id.index := h.available hc
    exact endsAt_node h hends (mem_ids.2 (Nat.lt_trans hlt (size_of_mem_children hc)))

/-- The leaves of all nodes ascend if the children of all nodes follow each other. -/
theorem ascending_leaves (h : d.BottomUp row) {ends : Array (TokenId × TokenId)}
    (hends : endsFrom #[] d.nodes.toList = .ok ends)
    (horder : ∀ id, (d.node id).children.IsChain fun a b =>
      (endsOf ends a).2.index < (endsOf ends b).1.index) (id : NodeId) :
    Ascending (d.leaves (.node id)) := by
  obtain ⟨i⟩ := id
  induction i using Nat.strongRecOn with
  | ind i ih =>
    refine (ascending_leaves_iff h (endsAt_children h hends)).2 ⟨fun c hc => ?_, horder ⟨i⟩⟩
    cases c with
    | token t => exact .singleton t
    | node j => exact ih j.index (h.available hc)

theorem Ascending.pairwise {ids : List TokenId} (h : Ascending ids) :
    (ids.map (·.index)).Pairwise (· < ·) :=
  List.isChain_iff_pairwise.1 ((List.isChain_map _).2 h)

theorem map_index_tokenIdsOf (row : TokenRow) :
    (tokenIdsOf row).map (·.index) = List.range row.tokens.size := by
  simp [tokenIdsOf, Function.comp_def]

theorem map_mk_map_index (ids : List TokenId) : (ids.map (·.index)).map TokenId.mk = ids := by
  simp [Function.comp_def]

theorem ascending_tokenIdsOf (row : TokenRow) : Ascending (tokenIdsOf row) := by
  have hpair : ((tokenIdsOf row).map (·.index)).Pairwise (· < ·) := by
    rw [map_index_tokenIdsOf]
    exact List.pairwise_lt_range
  exact (List.pairwise_map.1 hpair).isChain

/-- Tokens that ascend are known from which they are. -/
theorem Ascending.eq_tokenIdsOf {ids : List TokenId} (h : Ascending ids)
    (hperm : ids.Perm (tokenIdsOf row)) : ids = tokenIdsOf row := by
  have heq : ids.map (·.index) = (tokenIdsOf row).map (·.index) :=
    (hperm.map _).eq_of_pairwise (fun a b _ _ hab hba => absurd hab (Nat.lt_asymm hba)) h.pairwise
      (ascending_tokenIdsOf row).pairwise
  rw [← map_mk_map_index ids, heq, map_mk_map_index]

/-- A stretch of the tokens is known from its ends. -/
theorem eq_range'_of_ends {ids : List TokenId} (h : ids <:+: tokenIdsOf row) {first last : TokenId}
    (hfirst : ids.head? = some first) (hlast : ids.getLast? = some last) :
    ids = (List.range' first.index (last.index + 1 - first.index)).map TokenId.mk := by
  obtain ⟨before, after, hsplit⟩ := h
  have hindices : ids.map (·.index) = List.range' before.length ids.length := by
    have hrange := congrArg (List.map (·.index)) hsplit
    rw [map_index_tokenIdsOf] at hrange
    refine List.ext_getElem (by simp) fun i hi _ => ?_
    simp only [List.length_map] at hi
    have hat : (List.range row.tokens.size)[before.length + i]? = some ids[i].index := by
      rw [← hrange, List.append_assoc, List.map_append, List.getElem?_append_right (by simp),
        List.map_append, List.getElem?_append_left (by simpa using hi)]
      simp [hi]
    have := (List.getElem?_eq_some_iff.1 hat).2
    simp only [List.getElem_range] at this
    simp [this.symm]
  have hne : ids ≠ [] := by
    rintro rfl
    cases hfirst
  have hlen : 0 < ids.length := List.length_pos_iff.2 hne
  have hfirst' : first.index = before.length := by
    have := congrArg List.head? hindices
    rw [List.head?_map, hfirst] at this
    simpa [List.head?_range', Nat.ne_of_gt hlen] using this
  have hlast' : last.index = before.length + ids.length - 1 := by
    have := congrArg List.getLast? hindices
    rw [List.getLast?_map, hlast] at this
    simpa [List.getLast?_range', Nat.ne_of_gt hlen] using this
  have hcount : last.index + 1 - first.index = ids.length := by omega
  rw [hcount, hfirst', ← hindices, map_mk_map_index]

end SyntaxTree

end JavaAnalysis
