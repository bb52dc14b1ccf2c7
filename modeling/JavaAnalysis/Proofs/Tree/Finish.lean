import JavaAnalysis.Proofs.Tree.Checks

/-!
# Finished trees

A draft made from the leaves up is finished exactly if its tokens are in order, each of its nodes
has a child, each node but the root is a child of exactly one node, and the leaves of the root are
all the tokens in their order. The checks look at neighbouring children and at the tables of owners
and parents only; that the tables are full and free of doubles makes the child tokens of all nodes
the leaves of the root (`TreeDraft.leaves_perm`), and the order of neighbours makes these ascend.
Finishing a draft that has all but some tokens, which are below no node, names one of these tokens
and finds no other fault. Main statements: `ofDraft_ok_iff`, `Sparse.ofDraft`.
-/

set_option autoImplicit false
set_option linter.dupNamespace false

namespace JavaAnalysis

namespace SyntaxTree

open TreeDraft

variable {text : String} {row : TokenRow} {d : TreeDraft} {root : NodeId}

/-! ## Owners -/

/-- All tokens have an owner exactly if the child tokens are the tokens of the row. -/
theorem allOwned_isOk (h : d.BottomUp row) {owners : Array (Option NodeId)}
    (howners : ownersOf row (slotsOf d) = .ok owners) :
    (∃ os, allOwned (row.tokens.toList.zip owners.toList) = .ok os) ↔
      (tokensAmong d.elements).Perm (tokenIdsOf row) := by
  obtain ⟨hsize, hnodup, hvalues⟩ := ownersOf_eq_ok h howners
  have hzip : (row.tokens.toList.zip owners.toList).map (·.2) = owners.toList :=
    List.map_snd_zip (by simp [hsize])
  have hall : (∃ os : List NodeId, owners.toList = os.map some) ↔
      ∀ i < row.tokens.size, ∃ p, owners.getD i none = some p := by
    constructor
    · rintro ⟨os, hos⟩ i hi
      have hlen : i < os.length := by
        have := congrArg List.length hos
        simp only [Array.length_toList, List.length_map] at this
        omega
      refine ⟨os[i], ?_⟩
      rw [Array.getD_eq_getD_getElem?, ← Array.getElem?_toList, hos]
      simp [hlen]
    · intro hsome
      refine ⟨owners.toList.map (·.getD default), ?_⟩
      rw [List.map_map]
      refine (List.map_id' owners.toList).symm.trans (List.map_congr_left fun o ho => ?_)
      obtain ⟨i, hi, rfl⟩ := List.mem_iff_getElem.1 ho
      simp only [Array.length_toList] at hi
      obtain ⟨p, hp⟩ := hsome i (by omega)
      rw [Array.getD_eq_getD_getElem?, Array.getElem?_eq_getElem hi] at hp
      simp only [Option.getD_some] at hp
      simp [hp]
  simp only [allOwned_eq_ok, hzip]
  rw [hall, List.perm_ext_iff_of_nodup hnodup (nodup_tokenIdsOf row)]
  constructor
  · intro hsome id
    rw [mem_tokensAmong, mem_elements, mem_tokenIdsOf]
    constructor
    · rintro ⟨p, hp⟩
      exact h.available hp
    · intro hid
      obtain ⟨p, hp⟩ := hsome id.index hid
      exact ⟨p, (hvalues _ _).1 hp⟩
  · intro hmem i hi
    obtain ⟨p, hp⟩ := mem_elements.1 (mem_tokensAmong.1 ((hmem ⟨i⟩).2 (mem_tokenIdsOf.2 hi)))
    exact ⟨p, (hvalues _ _).2 hp⟩

/-! ## Finishing a draft -/

/-- The tree of a draft once its tables are made. -/
def finished (text : String) (row : TokenRow) (d : TreeDraft) (root : NodeId)
    (ends : Array (TokenId × TokenId)) (links : Array (Option (NodeId × Nat)))
    (owners : List NodeId) : SyntaxTree :=
  ⟨text, row, owners.toArray, d.nodes.mapIdx fun i n => finishNode ends links n i, root,
    d.declaredTypes⟩

section

variable {ends : Array (TokenId × TokenId)} {links : Array (Option (NodeId × Nat))}
  {owners : List NodeId} {id : NodeId}

theorem node_mem {t : SyntaxTree} (hid : id.index < t.nodes.size) : t.node id ∈ t.nodes.toList := by
  simp [SyntaxTree.node, Array.getD_eq_getD_getElem?, hid]

theorem node_finished (hid : id.index < d.nodes.size) :
    (finished text row d root ends links owners).node id =
      finishNode ends links (d.node id) id.index := by
  simp [SyntaxTree.node, finished, TreeDraft.node, Array.getD_eq_getD_getElem?, hid]

theorem childElements_finished :
    (finished text row d root ends links owners).childElements id = (d.node id).children := by
  by_cases hid : id.index < d.nodes.size
  · rw [childElements, node_finished hid]
    rfl
  · rw [children_of_size_le (Nat.not_lt.1 hid)]
    simp [childElements, SyntaxTree.node, finished, Array.getD_eq_getD_getElem?, Nat.not_lt.1 hid]
    rfl

theorem ends_finished {c : Element} (hc : ∀ id, c = .node id → id.index < d.nodes.size) :
    (finished text row d root ends links owners).ends c = endsOf ends c := by
  cases c with
  | token t => rfl
  | node id =>
    rw [SyntaxTree.ends, firstToken, lastToken, node_finished (hc id rfl)]
    rfl

theorem slots_finished : (finished text row d root ends links owners).slots = slotsOf d := by
  unfold slots slotsOf finished
  congr 1
  refine List.ext_getElem (by simp) fun i _ _ => ?_
  simp [finishNode]

theorem orders_finished (h : d.BottomUp row) :
    (∀ n ∈ (finished text row d root ends links owners).nodes.toList,
      n.children.IsChain fun a b =>
        ((finished text row d root ends links owners).ends a).2.index <
          ((finished text row d root ends links owners).ends b).1.index) ↔
      ∀ id, (d.node id).children.IsChain fun a b =>
        (endsOf ends a).2.index < (endsOf ends b).1.index := by
  have hchain : ∀ id, ((d.node id).children.IsChain fun a b =>
      ((finished text row d root ends links owners).ends a).2.index <
        ((finished text row d root ends links owners).ends b).1.index) ↔
      (d.node id).children.IsChain fun a b =>
        (endsOf ends a).2.index < (endsOf ends b).1.index := by
    intro id
    have hsame : ∀ c ∈ (d.node id).children,
        (finished text row d root ends links owners).ends c = endsOf ends c := by
      intro c hc
      refine ends_finished fun j hj => ?_
      subst hj
      have hlt : j.index < id.index := h.available hc
      exact Nat.lt_trans hlt (size_of_mem_children hc)
    exact List.IsChain.iff_of_mem_imp fun a b ha hb => by rw [hsame a ha, hsame b hb]
  constructor
  · intro hall id
    by_cases hid : id.index < d.nodes.size
    · have hnode := hall _ (@node_mem id _ (by simpa [finished] using hid))
      rw [node_finished hid] at hnode
      exact (hchain id).1 hnode
    · rw [children_of_size_le (Nat.not_lt.1 hid)]
      exact .nil
  · intro hall n hn
    obtain ⟨i, hi, rfl⟩ := List.mem_iff_getElem.1 hn
    have hsize : i < d.nodes.size := by simpa [finished] using hi
    have hchildren : ((finished text row d root ends links owners).nodes.toList[i]).children =
        (d.node ⟨i⟩).children := by
      simp [finished, finishNode, TreeDraft.node, Array.getD_eq_getD_getElem?, hsize]
    rw [hchildren]
    exact (hchain ⟨i⟩).2 (hall ⟨i⟩)

end

theorem verify_eq_ok {t : SyntaxTree} : t.verify = .ok () ↔ TokensInOrder t.row ∧
    ∃ owners, ownersOf t.row t.slots = .ok owners ∧
      (∀ n ∈ t.nodes.toList,
        n.children.IsChain fun a b => (t.ends a).2.index < (t.ends b).1.index) ∧
      ∃ links, linksFrom t.kind (Array.replicate t.nodes.size none) t.slots = .ok links ∧
        (∀ i < t.nodes.size, t.root ≠ ⟨i⟩ → (links.getD i none).isSome = true) ∧
        ∃ os, allOwned (t.row.tokens.toList.zip owners.toList) = .ok os := by
  unfold verify
  rw [check_eq_ok, checkTokens_eq_ok]
  refine and_congr_right fun _ => ?_
  rw [bind_eq_ok]
  refine exists_congr fun owners => and_congr_right fun _ => ?_
  rw [check_eq_ok, checkOrders_eq_ok]
  refine and_congr_right fun _ => ?_
  rw [bind_eq_ok]
  refine exists_congr fun links => and_congr_right fun _ => ?_
  rw [check_eq_ok, checkLinked_eq_ok, bind_eq_ok]
  refine and_congr (by simp) (exists_congr fun os => ?_)
  simp [pure, Except.pure]

theorem ofDraft_eq_ok {t : SyntaxTree} : ofDraft text row d root = .ok t ↔ TokensInOrder row ∧
    ∃ ends, endsFrom #[] d.nodes.toList = .ok ends ∧
      ∃ owners, ownersOf row (slotsOf d) = .ok owners ∧
        ∃ links, linksFrom (fun id => (d.node id).kind) (Array.replicate d.nodes.size none)
            (slotsOf d) = .ok links ∧
          ∃ os, allOwned (row.tokens.toList.zip owners.toList) = .ok os ∧
            t.verify = .ok () ∧ t = finished text row d root ends links os := by
  unfold ofDraft
  rw [check_eq_ok, checkTokens_eq_ok]
  refine and_congr_right fun _ => ?_
  rw [bind_eq_ok]
  refine exists_congr fun ends => and_congr_right fun _ => ?_
  rw [bind_eq_ok]
  refine exists_congr fun owners => and_congr_right fun _ => ?_
  rw [bind_eq_ok]
  refine exists_congr fun links => and_congr_right fun _ => ?_
  rw [bind_eq_ok]
  refine exists_congr fun os => and_congr_right fun _ => ?_
  rw [check_eq_ok]
  constructor
  · rintro ⟨hverify, heq⟩
    cases heq
    exact ⟨hverify, rfl⟩
  · rintro ⟨hverify, rfl⟩
    exact ⟨hverify, rfl⟩

/-- The checks of a finished tree in terms of the draft. -/
theorem verify_finished (h : d.BottomUp row) {ends : Array (TokenId × TokenId)}
    {links : Array (Option (NodeId × Nat))} {owners : Array (Option NodeId)} {os : List NodeId}
    (htokens : TokensInOrder row) (howners : ownersOf row (slotsOf d) = .ok owners)
    (hlinks : linksFrom (fun id => (d.node id).kind) (Array.replicate d.nodes.size none)
      (slotsOf d) = .ok links)
    (hos : allOwned (row.tokens.toList.zip owners.toList) = .ok os) :
    (finished text row d root ends links os).verify = .ok () ↔
      (∀ id, (d.node id).children.IsChain fun a b =>
        (endsOf ends a).2.index < (endsOf ends b).1.index) ∧
      ∀ id ∈ d.ids, root ≠ id → .node id ∈ d.elements := by
  have hrow : (finished text row d root ends links os).row = row := rfl
  have hsize : (finished text row d root ends links os).nodes.size = d.nodes.size := by
    simp [finished]
  rw [verify_eq_ok, hrow, hsize, slots_finished, orders_finished h]
  constructor
  · rintro ⟨-, _, -, horders, links', hlinks', hlinked, -⟩
    refine ⟨horders, fun id hid hroot => ?_⟩
    obtain ⟨⟨p, k⟩, hlink⟩ := Option.isSome_iff_exists.1 (hlinked id.index (mem_ids.1 hid) hroot)
    have hslot := ((linksFrom_eq_ok h hlinks').2 id.index p k).1 hlink
    exact mem_elements.2 ⟨p, List.mem_of_getElem? hslot⟩
  · rintro ⟨horders, hlinked⟩
    obtain ⟨links', hlinks'⟩ := linksFrom_isOk h (finished text row d root ends links os).kind
      (linksFrom_eq_ok h hlinks).1
    refine ⟨htokens, owners, howners, horders, links', hlinks', fun i hi hroot => ?_, os, hos⟩
    obtain ⟨p, hp⟩ := mem_elements.1 (hlinked ⟨i⟩ (mem_ids.2 hi) hroot)
    obtain ⟨k, hk⟩ := List.mem_iff_getElem?.1 hp
    rw [((linksFrom_eq_ok h hlinks').2 i p k).2 hk]
    rfl

/-- The node drafted last is the only one that can be the root. -/
theorem root_perm (h : d.BottomUp row) (hne : d.nodes.size ≠ 0)
    (hnodup : (nodesAmong d.elements).Nodup)
    (hlinked : ∀ id ∈ d.ids, root ≠ id → .node id ∈ d.elements) :
    (root :: nodesAmong d.elements).Perm d.ids := by
  have hnever : Element.node ⟨d.nodes.size - 1⟩ ∉ d.elements := by
    intro hmem
    obtain ⟨p, hp⟩ := mem_elements.1 hmem
    have hlt : d.nodes.size - 1 < p.index := h.available hp
    have hsize := size_of_mem_children hp
    omega
  have hroot : root = ⟨d.nodes.size - 1⟩ := by
    by_contra hroot
    exact hnever (hlinked _ (mem_ids.2 (Nat.sub_one_lt hne)) hroot)
  have hfresh : root ∉ nodesAmong d.elements := by
    rw [mem_nodesAmong, hroot]
    exact hnever
  refine (List.perm_ext_iff_of_nodup (List.nodup_cons.2 ⟨hfresh, hnodup⟩) (nodup_ids d)).2
    fun id => ?_
  rw [List.mem_cons, mem_nodesAmong]
  constructor
  · rintro (rfl | hmem)
    · rw [hroot]
      exact mem_ids.2 (Nat.sub_one_lt hne)
    · obtain ⟨p, hp⟩ := mem_elements.1 hmem
      have hlt : id.index < p.index := h.available hp
      exact mem_ids.2 (Nat.lt_trans hlt (size_of_mem_children hp))
  · intro hid
    by_cases hroot' : root = id
    · exact .inl hroot'.symm
    · exact .inr (hlinked id hid hroot')

/-- What a draft must be like to be finished. -/
structure Sound (row : TokenRow) (d : TreeDraft) (root : NodeId) : Prop where
  tokens : TokensInOrder row
  children_ne : ∀ id ∈ d.ids, (d.node id).children ≠ []
  /-- Each node is the root or a child, and this only once. -/
  perm : (root :: nodesAmong d.elements).Perm d.ids
  leaves : d.leaves (.node root) = tokenIdsOf row

theorem Sound.exists_parent (h : Sound row d root) {id : NodeId} (hid : id ∈ d.ids)
    (hroot : id ≠ root) : ∃ p, .node id ∈ (d.node p).children := by
  have hmem := h.perm.mem_iff.2 hid
  rcases List.mem_cons.1 hmem with heq | hmem
  · exact absurd heq hroot
  · exact mem_elements.1 (mem_nodesAmong.1 hmem)

theorem sound_of_ofDraft (h : d.BottomUp row) {t : SyntaxTree}
    (ht : ofDraft text row d root = .ok t) : Sound row d root := by
  obtain ⟨htokens, ends, hends, owners, howners, links, hlinks, os, hos, hverify, rfl⟩ :=
    ofDraft_eq_ok.1 ht
  obtain ⟨horders, hlinked⟩ := (verify_finished h htokens howners hlinks hos).1 hverify
  have hperm := (allOwned_isOk h howners).1 ⟨os, hos⟩
  have hne : d.nodes.size ≠ 0 := by
    intro hzero
    have hnone : tokensAmong d.elements = [] := by simp [elements, ids, hzero, tokensAmong]
    rw [hnone] at hperm
    exact htokens.tokenIdsOf_ne_nil hperm.symm.eq_nil
  have hroot := root_perm h hne (linksFrom_eq_ok h hlinks).1 hlinked
  refine ⟨htokens, fun id hid => ?_, hroot, ?_⟩
  · intro hnil
    have hend := (endsAt_node h hends hid).1
    rw [leaves_node h, hnil] at hend
    cases hend
  · exact (ascending_leaves h hends horders root).eq_tokenIdsOf ((leaves_perm h hroot).trans hperm)

theorem Sound.ascending (hs : Sound row d root) (h : d.BottomUp row) {id : NodeId}
    (hid : id ∈ d.ids) : Ascending (d.leaves (.node id)) := by
  have hpart := leaves_within_root h (fun _ hid hroot => hs.exists_parent hid hroot) hid
  rw [hs.leaves] at hpart
  obtain ⟨before, after, hsplit⟩ := hpart
  have hall := ascending_tokenIdsOf row
  rw [Ascending, ← hsplit, List.isChain_append, List.isChain_append] at hall
  exact hall.1.2.1

/-- A draft that is as it must be is finished. -/
theorem Sound.ofDraft (hs : Sound row d root) (h : d.BottomUp row) (text : String) :
    ∃ t, ofDraft text row d root = .ok t := by
  have hnodes : ∀ n ∈ d.nodes.toList, n.children ≠ [] := by
    intro n hn
    obtain ⟨i, hi, rfl⟩ := List.mem_iff_getElem.1 hn
    have hsize : i < d.nodes.size := by simpa using hi
    have := hs.children_ne ⟨i⟩ (mem_ids.2 hsize)
    simpa [TreeDraft.node, Array.getD_eq_getD_getElem?, hsize] using this
  have hleaves := leaves_perm h hs.perm
  rw [hs.leaves] at hleaves
  obtain ⟨ends, hends⟩ := @endsFrom_isOk #[] _ hnodes
  obtain ⟨owners, howners⟩ := ownersOf_isOk h (hleaves.nodup_iff.1 (nodup_tokenIdsOf row))
  obtain ⟨links, hlinks⟩ := linksFrom_isOk h (fun id => (d.node id).kind)
    (List.nodup_cons.1 (hs.perm.nodup_iff.2 (nodup_ids d))).2
  obtain ⟨os, hos⟩ := (allOwned_isOk h howners).2 hleaves.symm
  refine ⟨_, ofDraft_eq_ok.2 ⟨hs.tokens, ends, hends, owners, howners, links, hlinks, os, hos,
    (verify_finished h hs.tokens howners hlinks hos).2 ⟨fun id => ?_, fun id hid hroot => ?_⟩, rfl⟩⟩
  · by_cases hid : id ∈ d.ids
    · exact ((ascending_leaves_iff h (endsAt_children h hends)).1 (hs.ascending h hid)).2
    · rw [children_of_size_le (Nat.not_lt.1 fun hlt => hid (mem_ids.2 hlt))]
      exact .nil
  · exact mem_elements.2 (hs.exists_parent hid fun heq => hroot heq.symm)

/-! ## Drafts that are finished -/

/-- A node that is a child twice would have its leaves among those of its parent twice. -/
theorem nodup_nodesAmong_children (h : d.BottomUp row)
    (hne : ∀ id ∈ d.ids, (d.node id).children ≠ []) {p : NodeId}
    (hnodup : (d.leaves (.node p)).Nodup) : (nodesAmong (d.node p).children).Nodup := by
  rw [leaves_node h, List.nodup_flatMap] at hnodup
  have hpair : (d.node p).children.Pairwise fun a b => ∀ id, a = .node id → b ≠ .node id := by
    refine hnodup.2.imp_of_mem fun {a b} ha _ hab id hid hid' => ?_
    subst hid hid'
    have hlt : id.index < p.index := h.available ha
    have hleaves := leaves_node_ne_nil h hne
      (mem_ids.2 (Nat.lt_trans hlt (size_of_mem_children ha)))
    obtain ⟨x, xs, hx⟩ := List.exists_cons_of_ne_nil hleaves
    have hmem : x ∈ d.leaves (.node id) := by
      rw [hx]
      exact List.mem_cons_self
    exact hab hmem hmem
  refine List.Pairwise.filterMap Element.node? (fun a b hab i hi j hj heq => ?_) hpair
  subst heq
  cases a with
  | token _ => cases hi
  | node a =>
    cases b with
    | token _ => cases hj
    | node b =>
      cases hi
      cases hj
      exact hab i rfl rfl

theorem nodesAmong_elements (d : TreeDraft) :
    nodesAmong d.elements = d.ids.flatMap fun id => nodesAmong (d.node id).children :=
  List.filterMap_flatMap

/-- The nodes of a draft are all children once exactly if each has one parent. -/
theorem nodup_nodesAmong_iff (d : TreeDraft) : (nodesAmong d.elements).Nodup ↔
    (∀ p ∈ d.ids, (nodesAmong (d.node p).children).Nodup) ∧
      ∀ id p q, .node id ∈ (d.node p).children → .node id ∈ (d.node q).children → p = q := by
  rw [nodesAmong_elements, List.nodup_flatMap]
  refine and_congr_right fun _ => ?_
  constructor
  · intro hpair id p q hp hq
    by_contra hpq
    have hsymm : Std.Symm (Function.onFun List.Disjoint fun id => nodesAmong
      (d.node id).children) :=
      ⟨fun _ _ hdisjoint _ hq hp => hdisjoint hp hq⟩
    exact hpair.forall (mem_ids.2 (size_of_mem_children hp)) (mem_ids.2 (size_of_mem_children hq))
      hpq
      (mem_nodesAmong.2 hp) (mem_nodesAmong.2 hq)
  · intro hunique
    refine (nodup_ids d).imp fun {p q} hpq id hp hq => hpq ?_
    exact hunique id p q (mem_nodesAmong.1 hp) (mem_nodesAmong.1 hq)

theorem sound_iff (h : d.BottomUp row) : Sound row d root ↔ TokensInOrder row ∧
    (∀ id ∈ d.ids, (d.node id).children ≠ []) ∧
    (∀ id ∈ d.ids, id ≠ root → ∃! p, .node id ∈ (d.node p).children) ∧
    (∀ p, .node root ∉ (d.node p).children) ∧
    d.leaves (.node root) = tokenIdsOf row := by
  constructor
  · intro hs
    obtain ⟨hfresh, hnodup⟩ := List.nodup_cons.1 (hs.perm.nodup_iff.2 (nodup_ids d))
    refine ⟨hs.tokens, hs.children_ne, fun id hid hroot => ?_, fun p hp => ?_, hs.leaves⟩
    · obtain ⟨p, hp⟩ := hs.exists_parent hid hroot
      exact ⟨p, hp, fun q hq => ((nodup_nodesAmong_iff d).1 hnodup).2 id q p hq hp⟩
    · exact hfresh (mem_nodesAmong.2 (mem_elements.2 ⟨p, hp⟩))
  · rintro ⟨htokens, hne, hparent, hfresh, hleaves⟩
    have hexists : ∀ id ∈ d.ids, id ≠ root → ∃ p, .node id ∈ (d.node p).children :=
      fun id hid hroot => (hparent id hid hroot).exists
    have hnodup : (nodesAmong d.elements).Nodup := by
      refine (nodup_nodesAmong_iff d).2 ⟨fun p hp => ?_, fun id p q hp hq => ?_⟩
      · have hpart := leaves_within_root h hexists hp
        rw [hleaves] at hpart
        exact nodup_nodesAmong_children h hne (hpart.sublist.nodup (nodup_tokenIdsOf row))
      · have hid : id ∈ d.ids := by
          have hlt : id.index < p.index := h.available hp
          exact mem_ids.2 (Nat.lt_trans hlt (size_of_mem_children hp))
        have hroot : id ≠ root := by
          rintro rfl
          exact hfresh p hp
        exact (hparent id hid hroot).unique hp hq
    have hsize : d.nodes.size ≠ 0 := by
      intro hzero
      rw [leaves_node h, children_of_size_le (by omega)] at hleaves
      exact htokens.tokenIdsOf_ne_nil hleaves.symm
    refine ⟨htokens, hne, root_perm h hsize hnodup fun id hid hroot => ?_, hleaves⟩
    exact mem_elements.2 (hexists id hid fun heq => hroot heq.symm)

/-! ## What a finished tree is like -/

theorem leavesOf_eq_flatMap (ss : List Subtree) : Subtree.leavesOf ss = ss.flatMap (·.leaves) := by
  induction ss with
  | nil => rfl
  | cons s ss ih => rw [Subtree.leavesOf, ih, List.flatMap_cons]

/-- The subtrees of a tree have the leaves that were drafted. -/
theorem leaves_ofElement {t : SyntaxTree} (h : ∀ id, t.childElements id = (d.node id).children)
    (n : Nat) (c : Element) : (Subtree.ofElement t n c).leaves = d.leavesWithin n c := by
  induction n generalizing c with
  | zero => cases c <;> rfl
  | succ n ih =>
    cases c with
    | token id => rfl
    | node id =>
      rw [Subtree.ofElement, Subtree.leaves, leavesOf_eq_flatMap, List.flatMap_map, h, leavesWithin]
      exact List.flatMap_congr fun c _ => ih c

/-- A node finds the slot that it has in its parent, and nothing else is its parent. -/
theorem slot_iff (h : d.BottomUp row) {t : SyntaxTree} (ht : ofDraft text row d root = .ok t)
    (p : NodeId) (k : Nat) (id : NodeId) : (t.childElements p)[k]? = some (.node id) ↔
      t.parent? id = some p ∧ (t.node id).place = k := by
  obtain ⟨-, ends, -, owners, -, links, hlinks, os, -, -, rfl⟩ := ofDraft_eq_ok.1 ht
  rw [childElements_finished, ← (linksFrom_eq_ok h hlinks).2 id.index p k]
  by_cases hid : id.index < d.nodes.size
  · rw [parent?, node_finished hid]
    cases hlink : links.getD id.index none with
    | none => simp [finishNode, hlink]
    | some link => simp [finishNode, hlink, Prod.ext_iff]
  · have hparent : (finished text row d root ends links os).parent? id = none := by
      simp [parent?, SyntaxTree.node, finished, Array.getD_eq_getD_getElem?, Nat.not_lt.1 hid]
      rfl
    have hlink : links.getD id.index none ≠ some (p, k) := by
      intro hlink
      have hslot := ((linksFrom_eq_ok h hlinks).2 id.index p k).1 hlink
      have hmem := List.mem_of_getElem? hslot
      have hlt : id.index < p.index := h.available hmem
      exact hid (Nat.lt_trans hlt (size_of_mem_children hmem))
    rw [hparent]
    constructor
    · exact fun hslot => absurd hslot hlink
    · rintro ⟨hsome, -⟩
      cases hsome

/-- No two nodes share a token. -/
theorem eq_of_mem_childTokens (h : d.BottomUp row) {t : SyntaxTree}
    (ht : ofDraft text row d root = .ok t) {id id' : NodeId} {token : TokenId}
    (hid : token ∈ t.childTokens id) (hid' : token ∈ t.childTokens id') : id = id' := by
  obtain ⟨-, ends, -, owners, howners, links, -, os, -, -, rfl⟩ := ofDraft_eq_ok.1 ht
  have howner : ∀ p, token ∈ (finished text row d root ends links os).childTokens p →
      owners.getD token.index none = some p := fun p hp => by
    rw [childTokens, childElements_finished] at hp
    exact ((ownersOf_eq_ok h howners).2.2 token.index p).2 (mem_tokensAmong.1 hp)
  exact Option.some.inj ((howner id hid).symm.trans (howner id' hid'))

theorem tokensOf_eq_leaves (h : d.BottomUp row) {t : SyntaxTree}
    (ht : ofDraft text row d root = .ok t) {id : NodeId} (hid : id ∈ d.ids) :
    t.tokensOf id = d.leaves (.node id) := by
  have hs := sound_of_ofDraft h ht
  obtain ⟨-, ends, hends, owners, -, links, -, os, -, -, rfl⟩ := ofDraft_eq_ok.1 ht
  have hpart := leaves_within_root h (fun _ hid hroot => hs.exists_parent hid hroot) hid
  rw [hs.leaves] at hpart
  obtain ⟨hfirst, hlast⟩ := endsAt_node h hends hid
  rw [eq_range'_of_ends hpart hfirst hlast, SyntaxTree.tokensOf, firstToken, lastToken,
    node_finished (mem_ids.1 hid)]
  rfl

/--
Which drafts are finished, and what the tree then is: it passes its own checks, its children are
those drafted, each node knows the slot that it is in, and the tokens from its first to its last are
the leaves below it.
-/
theorem ofDraft_ok_iff (text : String) (h : d.BottomUp row) (root : NodeId) :
    ((∃ t, ofDraft text row d root = .ok t) ↔ TokensInOrder row ∧
      (∀ id ∈ d.ids, (d.node id).children ≠ []) ∧
      (∀ id ∈ d.ids, id ≠ root → ∃! p, .node id ∈ (d.node p).children) ∧
      (∀ p, .node root ∉ (d.node p).children) ∧
      d.leaves (.node root) = tokenIdsOf row) ∧
    ∀ t, ofDraft text row d root = .ok t → t.verify = .ok () ∧
      (∀ id, t.childElements id = (d.node id).children) ∧
      (∀ p k id, (t.childElements p)[k]? = some (.node id) ↔
        t.parent? id = some p ∧ (t.node id).place = k) ∧
      ∀ id ∈ d.ids, t.tokensOf id = (Subtree.ofNode t id).leaves := by
  constructor
  · rw [← sound_iff h]
    exact ⟨fun ⟨t, ht⟩ => sound_of_ofDraft h ht, fun hs => hs.ofDraft h text⟩
  · intro t ht
    have hchildren : ∀ id, t.childElements id = (d.node id).children := by
      obtain ⟨-, ends, -, owners, -, links, -, os, -, -, rfl⟩ := ofDraft_eq_ok.1 ht
      exact fun id => childElements_finished
    obtain ⟨-, ends, -, owners, -, links, -, os, -, hverify, -⟩ := ofDraft_eq_ok.1 ht
    refine ⟨hverify, hchildren, slot_iff h ht, fun id hid => ?_⟩
    rw [tokensOf_eq_leaves h ht hid, Subtree.ofNode, leaves_ofElement hchildren, leaves]

/-- The name of a type in front of the end of the file. -/
def nameRow : TokenRow :=
  ⟨#[⟨⟨.ident, "x", 0, .start⟩, []⟩, ⟨⟨.endOfFile, "", 1, ⟨1, 1⟩⟩, []⟩]⟩

def nameDraft : TreeDraft :=
  (TreeDraft.empty.push .classType [.token ⟨0⟩]).push .compilationUnit [.node ⟨0⟩, .token ⟨1⟩]

theorem ofDraft_ok_iff_name : nameDraft.BottomUp nameRow ∧
    ∃ t, ofDraft "x" nameRow nameDraft ⟨1⟩ = .ok t ∧ t.verify = .ok () ∧
      t.parent? ⟨0⟩ = some ⟨1⟩ ∧ t.tokensOf ⟨1⟩ = [⟨0⟩, ⟨1⟩] := by
  have hbottom : nameDraft.BottomUp nameRow := by decide
  obtain ⟨t, ht⟩ : ∃ t, ofDraft "x" nameRow nameDraft ⟨1⟩ = .ok t := ⟨_, rfl⟩
  obtain ⟨hverify, hchildren, hslot, htokens⟩ := (ofDraft_ok_iff "x" hbottom ⟨1⟩).2 t ht
  refine ⟨hbottom, t, ht, hverify, ((hslot ⟨1⟩ 0 ⟨0⟩).1 ?_).1, ?_⟩
  · rw [hchildren]
    rfl
  · rw [htokens ⟨1⟩ (by decide), Subtree.ofNode, leaves_ofElement hchildren]
    rfl

/-! ## Drafts that leave out tokens -/

/-- What a draft must be like to be finished, except that it may leave out tokens. -/
structure Sparse (row : TokenRow) (d : TreeDraft) (root : NodeId) : Prop where
  tokens : TokensInOrder row
  children_ne : ∀ id ∈ d.ids, (d.node id).children ≠ []
  perm : (root :: nodesAmong d.elements).Perm d.ids
  leaves : Ascending (d.leaves (.node root))

theorem checkTokens_of_inOrder (h : TokensInOrder row) : checkTokens row = .ok () :=
  checkTokens_eq_ok.2 h

/-- Tokens without an owner are the only fault that looking for owners finds. -/
theorem allOwned_outcome (pairs : List (Token × Option NodeId)) :
    (∃ owners, allOwned pairs = .ok owners) ∨
      ∃ kind offset, allOwned pairs = .error (.unownedToken kind offset) := by
  induction pairs with
  | nil => exact .inl ⟨[], rfl⟩
  | cons p pairs ih =>
    obtain ⟨x, owner⟩ := p
    cases owner with
    | none => exact .inr ⟨x.kind, x.start, rfl⟩
    | some owner =>
      rcases ih with ⟨owners, hok⟩ | ⟨kind, offset, herror⟩
      · refine .inl ⟨owner :: owners, ?_⟩
        rw [allOwned, hok]
        rfl
      · refine .inr ⟨kind, offset, ?_⟩
        rw [allOwned, herror]
        rfl

namespace Sparse

theorem nodup_leaves (hs : Sparse row d root) : (d.leaves (.node root)).Nodup := by
  refine List.Nodup.of_map (·.index) ?_
  exact hs.leaves.pairwise.imp Nat.ne_of_lt

/-- With an owner for each token, nothing is left out. -/
theorem sound (hs : Sparse row d root) (h : d.BottomUp row) {owners : Array (Option NodeId)}
    {os : List NodeId} (howners : ownersOf row (slotsOf d) = .ok owners)
    (hos : allOwned (row.tokens.toList.zip owners.toList) = .ok os) : Sound row d root := by
  have hall := (allOwned_isOk h howners).1 ⟨os, hos⟩
  exact ⟨hs.tokens, hs.children_ne, hs.perm,
    hs.leaves.eq_tokenIdsOf ((leaves_perm h hs.perm).trans hall)⟩

/-- A draft that may leave out tokens is finished, or a token is named that is left out. -/
theorem ofDraft (hs : Sparse row d root) (h : d.BottomUp row) (text : String) :
    (∃ t, ofDraft text row d root = .ok t) ∨
      ∃ kind offset, ofDraft text row d root = .error (.unownedToken kind offset) := by
  have hnodes : ∀ n ∈ d.nodes.toList, n.children ≠ [] := by
    intro n hn
    obtain ⟨i, hi, rfl⟩ := List.mem_iff_getElem.1 hn
    have hsize : i < d.nodes.size := by simpa using hi
    have := hs.children_ne ⟨i⟩ (TreeDraft.mem_ids.2 hsize)
    simpa [TreeDraft.node, Array.getD_eq_getD_getElem?, hsize] using this
  obtain ⟨ends, hends⟩ := @endsFrom_isOk #[] _ hnodes
  obtain ⟨owners, howners⟩ := ownersOf_isOk h ((leaves_perm h hs.perm).nodup_iff.1 hs.nodup_leaves)
  obtain ⟨links, hlinks⟩ := linksFrom_isOk h (fun id => (d.node id).kind)
    (List.nodup_cons.1 (hs.perm.nodup_iff.2 (nodup_ids d))).2
  rcases allOwned_outcome (row.tokens.toList.zip owners.toList) with
    ⟨os, hos⟩ | ⟨kind, offset, herror⟩
  · exact .inl ((hs.sound h howners hos).ofDraft h text)
  · refine .inr ⟨kind, offset, ?_⟩
    have hslots : Slot.ofNodes 0 (d.nodes.toList.map DraftNode.children) = slotsOf d := rfl
    unfold SyntaxTree.ofDraft
    simp only [checkTokens_of_inOrder hs.tokens, hends, hslots, howners, hlinks, herror, bind,
      Except.bind]

end Sparse

end SyntaxTree

end JavaAnalysis
