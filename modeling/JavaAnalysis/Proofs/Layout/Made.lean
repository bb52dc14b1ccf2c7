import JavaAnalysis.Proofs.Layout.Nodes

/-!
# Nodes over any tokens

A node over a range of any row of tokens takes in the nodes that are to be its children wherever
they lie inside the range without overlapping, in whatever order they are given; otherwise it is not
made. Main statements: `nodeOver_ensures`, `nodeOver_holds`.
-/

set_option autoImplicit false
set_option linter.dupNamespace false

namespace JavaAnalysis

namespace Layout

open TreeDraft

variable {row : TokenRow} {l l' l'' : Layout} {loose ids : List NodeId} {es : List Element}
  {gaps : Gaps} {kind : NodeKind} {next stop n : Nat} {range : TextRange} {id : NodeId}

/-- The nodes that were there are still there, with their children and over the same tokens. -/
structure Grows (l l' : Layout) : Prop extends Extends l l' where
  node_eq : ∀ id, id.index < l.spans.size → l'.draft.node id = l.draft.node id
  boundAt?_eq : l'.boundAt? = l.boundAt?

/-- The nodes that are new are empty declarations, and nothing is entered. -/
structure Fills (l l' : Layout) : Prop extends Grows l l' where
  kind_eq : ∀ id, l.spans.size ≤ id.index → id.index < l'.spans.size →
    (l'.draft.node id).kind = .emptyDecl
  occurrences_eq : l'.occurrences = l.occurrences

/-- Nodes that are to be children are now among children that cover a stretch of the tokens. -/
structure Woven (row : TokenRow) (loose : List NodeId) (l : Layout) (next stop : Nat)
    (es : List Element) (l' : Layout) : Prop where
  drafted : Drafted row l' (nodesAmong es ++ loose)
  fills : Fills l l'
  contiguous : Contiguous l' es next stop

/-- A node of the kind was made over the tokens of the range. -/
structure Made (row : TokenRow) (loose : List NodeId) (l : Layout) (kind : NodeKind)
    (range : TextRange) (id : NodeId) (l' : Layout) : Prop where
  drafted : Drafted row l' (id :: loose)
  grows : Grows l l'
  occurrences_eq : l'.occurrences = l.occurrences
  old_le : l.spans.size ≤ id.index
  lt_size : id.index < l'.spans.size
  kind_eq : (l'.draft.node id).kind = kind
  span?_eq : row.span? range = some (l'.spanOf id)
  new : ∀ other, l.spans.size ≤ other.index → other.index < l'.spans.size →
    other = id ∨ (l'.draft.node other).kind = .emptyDecl

theorem Grows.refl (l : Layout) : Grows l l := ⟨.refl l, fun _ _ => rfl, rfl⟩

theorem Grows.trans (h : Grows l l') (h' : Grows l' l'') : Grows l l'' := by
  refine ⟨h.toExtends.trans h'.toExtends, fun id hid => ?_, h'.boundAt?_eq.trans h.boundAt?_eq⟩
  rw [h'.node_eq id (Nat.lt_of_lt_of_le hid h.size_le), h.node_eq id hid]

theorem Fills.refl (l : Layout) : Fills l l :=
  ⟨.refl l, fun _ hle hlt => absurd hlt (Nat.not_lt.2 hle), rfl⟩

theorem Fills.trans (h : Fills l l') (h' : Fills l' l'') : Fills l l'' := by
  refine ⟨h.toGrows.trans h'.toGrows, fun id hle hlt => ?_, h'.occurrences_eq.trans
    h.occurrences_eq⟩
  by_cases hold : id.index < l'.spans.size
  · rw [h'.node_eq id hold]
    exact h.kind_eq id hle hold
  · exact h'.kind_eq id (Nat.not_lt.1 hold) hlt

/-- A node was added behind the others. -/
structure Allocated (l : Layout) (kind : NodeKind) (es : List Element)
    (span : TokenId × TokenId) (id : NodeId) (l' : Layout) : Prop where
  grows : Grows l l'
  occurrences_eq : l'.occurrences = l.occurrences
  draft_eq : l'.draft = l.draft.push kind es
  index_eq : id.index = l.spans.size
  size_eq : l'.spans.size = id.index + 1
  span_eq : l'.spanOf id = span

/-! ## New nodes -/

theorem allocate_ensures {span : TokenId × TokenId} (hsize : l.spans.size = l.draft.nodes.size) :
    Ensures (allocate kind es span) l fun id l' => Allocated l kind es span id l' := by
  rintro id l' ⟨⟩
  refine ⟨⟨⟨by simp, fun id hid => ?_⟩, fun id hid => ?_, rfl⟩, rfl, rfl, hsize.symm, ?_, ?_⟩
  · simp [spanOf, Array.getD_eq_getD_getElem?, Array.getElem?_push_lt, hid]
  · exact node_push_of_lt (hsize ▸ hid)
  · simp [nextId, hsize]
  · simp [spanOf, Array.getD_eq_getD_getElem?, nextId, ← hsize]

theorem Allocated.node_eq {span : TokenId × TokenId} (h : Allocated l kind es span id l')
    (hsize : l.spans.size = l.draft.nodes.size) : l'.draft.node id = ⟨kind, es⟩ := by
  have hid : id = ⟨l.draft.nodes.size⟩ := congrArg NodeId.mk (h.index_eq.trans hsize)
  rw [h.draft_eq, hid]
  exact node_push_size

theorem gap_fills {token : TokenId} (hsize : l.spans.size = l.draft.nodes.size) :
    Ensures (gap gaps token) l fun _ l' => Fills l l' := by
  unfold gap
  cases gaps with
  | tokens => exact .pure (.refl l)
  | declarations keep =>
    refine .get ?_
    split
    · refine (allocate_ensures hsize).bind fun id l' h =>
        .pure ⟨h.grows, fun other hle hlt => ?_, h.occurrences_eq⟩
      have hindex := h.index_eq
      have hnew := h.size_eq
      have heq : other = id := congrArg NodeId.mk (by omega)
      rw [heq, h.node_eq hsize]
    · exact .pure (.refl l)

theorem gapsFrom_fills (h : Drafted row l loose) (hle : next + n ≤ row.tokens.size) :
    Ensures (gapsFrom gaps n next) l fun _ l' => Fills l l' := by
  induction n generalizing next l loose with
  | zero => exact .pure (.refl l)
  | succ n ih =>
    have hfills : Ensures (gap gaps ⟨next⟩) l fun _ l' => Fills l l' := gap_fills h.size_eq
    have hdrafts := (@gap_succeeds row l loose gaps next h (by omega)).ensures
    refine (hfills.and hdrafts).bind fun e l₁ ⟨hfirst, hdrafted, _⟩ => ?_
    exact (ih hdrafted (by omega)).bind fun es l₂ hothers => .pure (hfirst.trans hothers)

theorem gapsFrom_woven (h : Drafted row l loose) (hle : next + n ≤ row.tokens.size) :
    Ensures (gapsFrom gaps n next) l fun es l' => Woven row loose l next (next + n) es l' :=
  ((gapsFrom_fills h hle).and (gapsFrom_succeeds h hle).ensures).mono
    fun _ _ ⟨hfills, hdrafted, _, hcontiguous⟩ => ⟨hdrafted, hfills, hcontiguous⟩

/-- Without declarations among them, the tokens become children as they are. -/
theorem gapsFrom_tokens (n next : Nat) (l : Layout) :
    gapsFrom .tokens n next l =
      .ok ((List.range' next n).map fun i => .token ⟨i⟩, l) := by
  induction n generalizing next with
  | zero => rfl
  | succ n ih =>
    have hstep : gapsFrom .tokens (n + 1) next l =
        (gapsFrom .tokens n (next + 1) >>= fun es => pure (.token ⟨next⟩ :: es)) l := rfl
    rw [hstep, List.range'_succ, List.map_cons]
    exact bind_run_eq_ok.2 ⟨_, l, ih (next + 1), rfl⟩

theorem Drafted.lt_size (h : Drafted row l loose) (hid : id ∈ loose) :
    id.index < l.spans.size := by
  have hmem := h.perm.mem_iff.1 (List.mem_append_left _ hid)
  rw [h.size_eq]
  exact mem_ids.1 hmem

theorem interleave_woven {last : TokenId} (h : Drafted row l (ids ++ loose))
    (hlast : last.index < row.tokens.size) (hnext : next ≤ last.index + 1) :
    Ensures (interleave kind gaps last next ids) l fun es l' =>
      Woven row loose l next (last.index + 1) es l' := by
  induction ids generalizing next l loose with
  | nil =>
    have hcount : next + (last.index + 1 - next) = last.index + 1 := by omega
    have hgaps := @gapsFrom_woven row l loose gaps next (last.index + 1 - next) h (by omega)
    rw [hcount] at hgaps
    exact hgaps
  | cons id ids ih =>
    have hid : id.index < l.spans.size := h.lt_size List.mem_cons_self
    have hordered := h.ordered id hid
    unfold interleave
    refine .get ?_
    dsimp only
    split
    · exact .throw_bind
    · rename_i hinside
      have hcount : next + ((l.spanOf id).1.index - next) = (l.spanOf id).1.index := by omega
      have hbefore := @gapsFrom_woven row l (id :: ids ++ loose) gaps next
        ((l.spanOf id).1.index - next) h (by omega)
      rw [hcount] at hbefore
      refine hbefore.bind fun before l₁ h₁ => ?_
      have hloose : Drafted row l₁ (ids ++ (nodesAmong before ++ id :: loose)) :=
        h₁.drafted.congr fun id' => by
          simp only [List.cons_append, List.count_append, List.count_cons]
          omega
      refine (ih hloose (by omega)).bind fun rest l₂ h₂ => .pure ⟨?_, h₁.fills.trans h₂.fills, ?_⟩
      · refine h₂.drafted.congr fun id' => ?_
        rw [nodesAmong_append, nodesAmong_cons_node]
        simp only [List.count_append, List.count_cons]
        omega
      · refine (h₁.contiguous.extends h₂.fills.toExtends).append ?_
        have hkept := h₁.fills.toExtends.trans h₂.fills.toExtends
        unfold Contiguous
        rw [hkept.spanOf_eq id hid]
        exact ⟨Nat.lt_of_lt_of_le hid hkept.size_le, rfl, hordered, h₂.contiguous⟩

theorem elements_woven {span : TokenId × TokenId} (h : Drafted row l (ids ++ loose))
    (hlast : span.2.index < row.tokens.size) (hle : span.1.index ≤ span.2.index) :
    Ensures (elements kind span ids gaps) l fun es l' =>
      Woven row loose l span.1.index (span.2.index + 1) es l' := by
  unfold elements
  refine .get (interleave_woven (h.congr fun id => ?_) hlast (by omega))
  rw [List.count_append, List.count_append, (List.mergeSort_perm ids _).count_eq]

/-- The children of a node over tokens only. -/
theorem elements_tokens {first last : TokenId} (kind : NodeKind) (l : Layout) :
    elements kind (first, last) [] .tokens l =
      .ok ((List.range' first.index (last.index + 1 - first.index)).map fun i => .token ⟨i⟩, l) := by
  have hsort : elements kind (first, last) [] .tokens l =
      gapsFrom .tokens (last.index + 1 - first.index) first.index l := by
    unfold elements
    show interleave kind .tokens last first.index (List.mergeSort [] _) l = _
    rw [List.mergeSort_nil]
    rfl
  rw [hsort, gapsFrom_tokens]

/-! ## Nodes over a range -/

theorem Woven.made {span : TokenId × TokenId} (h : Woven row loose l span.1.index
    (span.2.index + 1) es l') (hspan : row.span? range = some span)
    (hle : span.1.index ≤ span.2.index) (hlt : span.2.index < row.tokens.size) :
    Ensures (allocate kind es span) l' fun id l'' => Made row loose l kind range id l'' := by
  have hnew : Succeeds (allocate kind es span) l' fun id l'' => Drafted row l'' (id :: loose) ∧
      Extends l' l'' ∧ id.index < l''.spans.size ∧ l''.spanOf id = span :=
    h.drafted.allocate hle hlt h.contiguous
  refine (hnew.ensures.and (allocate_ensures h.drafted.size_eq)).mono ?_
  rintro id l'' ⟨⟨hdrafted, -, hid, hspanOf⟩, hnew⟩
  have hkept := h.fills.size_le
  have hindex := hnew.index_eq
  have hsize := hnew.size_eq
  refine ⟨hdrafted, h.fills.toGrows.trans hnew.grows,
    hnew.occurrences_eq.trans h.fills.occurrences_eq, by omega, hid,
    by rw [hnew.node_eq h.drafted.size_eq], by rw [hspanOf, hspan], fun other hge hother => ?_⟩
  by_cases hold : other.index < l'.spans.size
  · rw [hnew.grows.node_eq other hold]
    exact .inr (h.fills.kind_eq other hge hold)
  · exact .inl (congrArg NodeId.mk (by omega))

/-- What is known of the tokens of a range in which some are found. -/
theorem span_le (ho : row.Ordered) {span : TokenId × TokenId} (h : row.span? range = some span) :
    span.1.index ≤ span.2.index ∧ span.2.index < row.tokens.size := by
  obtain ⟨first, last⟩ := span
  have hspans := ho.span?_eq_some h
  have hlt : last.index < row.count := hspans.lt
  have hsize := ho.size
  exact ⟨hspans.le, show last.index < row.tokens.size by omega⟩

theorem nodeOver_ensures {rule : GapRule} (ho : row.Ordered) (h : Drafted row l (ids ++ loose)) :
    Ensures (nodeOver kind range ids rule) l fun id l' => Made row loose l kind range id l' := by
  unfold nodeOver
  refine .get ?_
  rw [h.row_eq]
  cases hspan : row.span? range with
  | none => exact .throw
  | some span =>
    obtain ⟨hle, hlt⟩ := span_le ho hspan
    exact (elements_woven h hlt hle).bind fun es l₁ h₁ => h₁.made hspan hle hlt

/-- A node without child nodes starts with a token of its own. -/
theorem leaf_ensures (ho : row.Ordered) (h : Drafted row l loose) :
    Ensures (nodeOver kind range [] .tokens) l fun id l' =>
      Made row loose l kind range id l' ∧
        .token (l'.spanOf id).1 ∈ (l'.draft.node id).children := by
  refine (nodeOver_ensures ho h).and ?_
  unfold nodeOver
  refine .get ?_
  rw [h.row_eq]
  cases hspan : row.span? range with
  | none => exact .throw
  | some span =>
    obtain ⟨first, last⟩ := span
    obtain ⟨hle, hlt⟩ := span_le ho hspan
    have hes : Ensures (elements kind (first, last) [] (.ofRule l .tokens)) l fun es l' =>
        es = (List.range' first.index (last.index + 1 - first.index)).map (fun i => .token ⟨i⟩) ∧
          l' = l := by
      rintro es l' hrun
      have htokens := @elements_tokens first last kind l
      rw [show Gaps.ofRule l .tokens = .tokens from rfl, htokens] at hrun
      cases hrun
      exact ⟨rfl, rfl⟩
    refine hes.bind ?_
    rintro es l₁ ⟨rfl, rfl⟩
    rintro id l' ⟨⟩
    have hsize := h.size_eq
    have hspanOf : (l₁.spans.push (first, last)).getD l₁.draft.nodes.size default = (first, last)
      := by simp [Array.getD_eq_getD_getElem?, ← hsize]
    have hnode := @node_push_size l₁.draft kind
      ((List.range' first.index (last.index + 1 - first.index)).map fun i => .token ⟨i⟩)
    simp only [spanOf, nextId, hspanOf, hnode]
    refine List.mem_map.2 ⟨first.index, ?_, rfl⟩
    have hle : first.index ≤ last.index := hle
    rw [List.mem_range'_1]
    omega

/-! ## The child nodes of one node -/

theorem gapsFrom_nodes (h : Drafted row l loose) (hle : next + n ≤ row.tokens.size) :
    Ensures (gapsFrom gaps n next) l fun es _ => ∀ c, .node c ∈ es → l.spans.size ≤ c.index := by
  induction n generalizing next l loose with
  | zero => exact .pure nofun
  | succ n ih =>
    have hgap : Ensures (gap gaps ⟨next⟩) l fun e _ =>
        ∀ c, .node c = e → l.spans.size ≤ c.index := by
      unfold gap
      cases gaps with
      | tokens => exact .pure nofun
      | declarations keep =>
        refine .get ?_
        split
        · refine (allocate_ensures h.size_eq).bind fun id l' hnew => .pure ?_
          rintro _ ⟨⟩
          exact Nat.le_of_eq hnew.index_eq.symm
        · exact .pure nofun
    have hdrafts := (@gap_succeeds row l loose gaps next h (by omega)).ensures
    refine (hgap.and (hdrafts.and (gap_fills h.size_eq))).bind
      fun e l₁ ⟨hnode, ⟨hdrafted, _⟩, hfills⟩ => ?_
    refine (ih hdrafted (by omega)).bind fun es l₂ hothers => .pure fun c hc => ?_
    rcases List.mem_cons.1 hc with heq | hc
    · exact hnode c heq
    · exact Nat.le_trans hfills.size_le (hothers c hc)

theorem interleave_nodes {last : TokenId} (h : Drafted row l (ids ++ loose))
    (hlast : last.index < row.tokens.size) :
    Ensures (interleave kind gaps last next ids) l fun es _ =>
      (∀ c ∈ ids, .node c ∈ es) ∧ ∀ c, .node c ∈ es → c ∈ ids ∨ l.spans.size ≤ c.index := by
  induction ids generalizing next l loose with
  | nil =>
    unfold interleave
    by_cases hnext : next ≤ last.index + 1
    · exact (gapsFrom_nodes h (by omega)).mono fun es _ hes =>
        ⟨List.forall_mem_nil _, fun c hc => .inr (hes c hc)⟩
    · have hzero : last.index + 1 - next = 0 := by omega
      rw [hzero]
      exact .pure ⟨List.forall_mem_nil _, by simp⟩
  | cons id ids ih =>
    have hid : id.index < l.spans.size := h.lt_size List.mem_cons_self
    have hordered := h.ordered id hid
    unfold interleave
    refine .get ?_
    dsimp only
    split
    · exact .throw_bind
    · rename_i hinside
      have hle : next + ((l.spanOf id).1.index - next) ≤ row.tokens.size := by omega
      refine ((gapsFrom_nodes h hle).and (gapsFrom_woven h hle)).bind fun before l₁ hgaps => ?_
      obtain ⟨hbefore, h₁⟩ := hgaps
      have hloose : Drafted row l₁ (ids ++ (nodesAmong before ++ id :: loose)) :=
        h₁.drafted.congr fun id' => by
          simp only [List.cons_append, List.count_append, List.count_cons]
          omega
      refine (ih hloose).bind fun rest l₂ hbehind => .pure ⟨fun c hc => ?_, fun c hc => ?_⟩
      · obtain ⟨hall, -⟩ := hbehind
        rcases List.mem_cons.1 hc with rfl | hc
        · exact List.mem_append_right _ List.mem_cons_self
        · exact List.mem_append_right _ (List.mem_cons_of_mem _ (hall c hc))
      · rcases List.mem_append.1 hc with hc | hc
        · exact .inr (hbefore c hc)
        · rcases List.mem_cons.1 hc with heq | hc
          · cases heq
            exact .inl List.mem_cons_self
          · rcases hbehind.2 c hc with hc | hle
            · exact .inl (List.mem_cons_of_mem _ hc)
            · exact .inr (Nat.le_trans h₁.fills.size_le hle)

theorem elements_nodes {span : TokenId × TokenId} (h : Drafted row l (ids ++ loose))
    (hlast : span.2.index < row.tokens.size) :
    Ensures (elements kind span ids gaps) l fun es _ =>
      (∀ c ∈ ids, .node c ∈ es) ∧ ∀ c, .node c ∈ es → c ∈ ids ∨ l.spans.size ≤ c.index := by
  unfold elements
  have hsorted : Drafted row l ((ids.mergeSort fun a b =>
      decide ((l.spanOf a).1.index ≤ (l.spanOf b).1.index)) ++ loose) :=
    h.congr fun id => by
      rw [List.count_append, List.count_append, (List.mergeSort_perm ids _).count_eq]
  refine .get ((interleave_nodes hsorted hlast).mono fun es _ hmem => ?_)
  simpa only [List.mem_mergeSort] using hmem

/-- The node has just the given child nodes, and perhaps empty declarations. -/
structure Holds (l : Layout) (id : NodeId) (ids : List NodeId) : Prop where
  mem : ∀ c ∈ ids, .node c ∈ (l.draft.node id).children
  of_mem : ∀ c, .node c ∈ (l.draft.node id).children → c ∈ ids ∨ (l.draft.node c).kind = .emptyDecl

theorem nodeOver_holds {rule : GapRule} (ho : row.Ordered) (h : Drafted row l (ids ++ loose)) :
    Ensures (nodeOver kind range ids rule) l fun id l' =>
      Made row loose l kind range id l' ∧ Holds l' id ids := by
  have hnodes : Ensures (nodeOver kind range ids rule) l fun id l' =>
      (∀ c ∈ ids, .node c ∈ (l'.draft.node id).children) ∧
        ∀ c, .node c ∈ (l'.draft.node id).children → c ∈ ids ∨ l.spans.size ≤ c.index := by
    unfold nodeOver
    refine .get ?_
    rw [h.row_eq]
    cases hspan : row.span? range with
    | none => exact .throw
    | some span =>
      obtain ⟨hle, hlt⟩ := span_le ho hspan
      refine ((elements_nodes h hlt).and (elements_woven h hlt hle)).bind
        fun es l₁ ⟨hmem, hwoven⟩ => ?_
      refine (allocate_ensures hwoven.drafted.size_eq).mono fun id l₂ hnew => ?_
      rw [hnew.node_eq hwoven.drafted.size_eq]
      exact hmem
  refine ((nodeOver_ensures ho h).and hnodes).mono fun id l' ⟨hmade, hall, hsome⟩ =>
    ⟨hmade, hall, fun c hc => (hsome c hc).imp_right fun hnew => ?_⟩
  have hlt : c.index < id.index := hmade.drafted.bottomUp.available hc
  rcases hmade.new c hnew (Nat.lt_trans hlt hmade.lt_size) with rfl | hempty
  · exact absurd hlt (Nat.lt_irrefl _)
  · exact hempty

/-- A node over one token has that token as its only child. -/
theorem leaf_over_token {i : Nat} (h : Drafted row l loose)
    (hspan : row.span? range = some (⟨i⟩, ⟨i⟩)) :
    Ensures (nodeOver kind range [] .tokens) l fun id l' =>
      (l'.draft.node id).children = [.token ⟨i⟩] := by
  unfold nodeOver
  refine .get ?_
  rw [h.row_eq, hspan]
  have hes : Ensures (elements kind (⟨i⟩, ⟨i⟩) [] (.ofRule l .tokens)) l fun es l' =>
      es = [.token ⟨i⟩] ∧ l' = l := by
    rintro es l' hrun
    have htokens := @elements_tokens ⟨i⟩ ⟨i⟩ kind l
    rw [show Gaps.ofRule l .tokens = .tokens from rfl, htokens] at hrun
    cases hrun
    have hcount : i + 1 - i = 1 := by omega
    exact ⟨by rw [hcount]; rfl, rfl⟩
  refine hes.bind ?_
  rintro es l₁ ⟨rfl, rfl⟩
  exact (allocate_ensures h.size_eq).mono fun id l₂ hnew => by rw [hnew.node_eq h.size_eq]

end Layout

end JavaAnalysis
