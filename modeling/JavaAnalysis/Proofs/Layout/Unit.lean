import JavaAnalysis.Proofs.Layout.Failures
import JavaAnalysis.Proofs.Layout.Recorded

/-!
# Files over any tokens

The nodes of a file may be laid over the tokens of another text. If this does not fail, the tokens
below the root are in order and end with the last of the row, so that nothing can be wrong with the
tree but that tokens behind the end of the file are below no node.
Main statements: `layUnit_ensures`, `tree_fails`.
-/

set_option autoImplicit false
set_option linter.dupNamespace false

namespace JavaAnalysis

namespace TreeDraft

variable {row : TokenRow} {d : TreeDraft} {kind : NodeKind} {cs : List Element} {id : NodeId}

/-- A new node leaves what is below the others as it is. -/
theorem leaves_push (h : d.BottomUp row) (h' : (d.push kind cs).BottomUp row)
    (hid : id.index < d.nodes.size) :
    (d.push kind cs).leaves (.node id) = d.leaves (.node id) := by
  obtain ⟨i⟩ := id
  induction i using Nat.strongRecOn with
  | ind i ih =>
    rw [leaves_node h', leaves_node h, node_push_of_lt hid]
    refine List.flatMap_congr fun c hc => ?_
    cases c with
    | token t => rfl
    | node j =>
      have hj : j.index < i := h.available hc
      exact ih j.index hj (Nat.lt_trans hj hid)

end TreeDraft

namespace Layout

open TreeDraft Ast SyntaxTree

variable {row : TokenRow} {l l' : Layout} {loose : List NodeId} {es : List Element}
  {next stop length : Nat}

/-- A file was laid below a root; tokens behind its end may be left out. -/
structure Rooted (row : TokenRow) (l : Layout) (sites : List Site) (root : NodeId) (l' : Layout) :
    Prop where
  sparse : Sparse row l'.draft root
  bottomUp : l'.draft.BottomUp row
  recorded : Recorded row l sites l'
  size_eq : l'.spans.size = l'.draft.nodes.size
  root_span : l'.spanOf root = (⟨0⟩, row.final)
  leaves_eq : ∀ id : NodeId, id.index < l'.spans.size → id ≠ root →
    l'.draft.leaves (.node id) = (List.range' (l'.spanOf id).1.index
      ((l'.spanOf id).2.index + 1 - (l'.spanOf id).1.index)).map TokenId.mk ∧
    (l'.spanOf id).1.index ≤ (l'.spanOf id).2.index

/-- The sites were recorded before the root was made. -/
theorem Rooted.after {l₁ : Layout} {sites : List Site} {root : NodeId} (h : Rooted row l₁ [] root l')
    (hbefore : Recorded row l sites l₁) : Rooted row l sites root l' := by
  have hrecorded := hbefore.append h.recorded
  rw [List.append_nil] at hrecorded
  exact { h with recorded := hrecorded }

/-- Steps that only make empty declarations record nothing. -/
theorem Fills.recorded (h : Fills l l') : Recorded row l [] l' := by
  refine ⟨h.toGrows, ⟨[], ⟨by simp, .nil, ?_⟩, rfl⟩, fun id hle hlt hkind => ?_⟩
  · rw [h.occurrences_eq]
    exact .refl _
  · rw [h.kind_eq id hle hlt] at hkind
    cases hkind

theorem Drafted.children_ne (h : Drafted row l loose) {id : NodeId} (hid : id ∈ l.draft.ids) :
    (l.draft.node id).children ≠ [] := by
  have hlt : id.index < l.spans.size := by
    rw [h.size_eq]
    exact mem_ids.1 hid
  have hcontiguous := h.contiguous id hlt
  have hordered := h.ordered id hlt
  intro hnil
  rw [hnil] at hcontiguous
  have : (l.spanOf id).1.index = (l.spanOf id).2.index + 1 := hcontiguous
  omega

/-- The tokens from one number to another, with the last of all behind them, ascend. -/
theorem ascending_concat_final {n : Nat} (hle : next + n ≤ row.final.index) :
    Ascending ((List.range' next n).map TokenId.mk ++ [row.final]) := by
  rw [Ascending, List.isChain_iff_pairwise, List.pairwise_append]
  refine ⟨?_, List.pairwise_singleton _ _, ?_⟩
  · rw [List.pairwise_map]
    exact List.pairwise_lt_range'
  · intro a ha b hb
    obtain ⟨i, hi, rfl⟩ := List.mem_map.1 ha
    rw [List.mem_singleton.1 hb]
    have := (List.mem_range'_1.1 hi).2
    show i < row.final.index
    omega

/-- The root over children that cover a stretch of the tokens, with the last token behind them. -/
theorem allocate_root_ensures (ho : row.Ordered) (htokens : TokensInOrder row)
    (h : Drafted row l (nodesAmong es)) (hes : Contiguous l es next stop)
    (hstop : stop ≤ row.count) :
    Ensures (allocate .compilationUnit (es ++ [.token row.final]) (⟨0⟩, row.final)) l
      fun root l' => Rooted row l [] root l' := by
  refine (allocate_ensures h.size_eq).mono fun root l' hnew => ?_
  have hsize := ho.size
  have hfinal : row.final.index = row.count := by
    simp only [TokenRow.final]
    omega
  have hava : ∀ c ∈ es ++ [.token row.final], Available row l.draft.nodes.size c := by
    rw [List.forall_mem_append]
    refine ⟨hes.available h.size_eq (by omega), ?_⟩
    simp only [List.forall_mem_singleton, Available]
    omega
  have hbottomUp : l'.draft.BottomUp row := by
    rw [hnew.draft_eq]
    exact h.bottomUp.push hava
  have hroot := hnew.node_eq h.size_eq
  have hbelow : ∀ id : NodeId, id.index < l.draft.nodes.size →
      l'.draft.leaves (.node id) = l.draft.leaves (.node id) := by
    intro id hid
    rw [hnew.draft_eq] at hbottomUp ⊢
    exact leaves_push h.bottomUp hbottomUp hid
  have hstretch : es.flatMap l'.draft.leaves =
      (List.range' next (stop - next)).map TokenId.mk := by
    refine (hes.extends hnew.grows.toExtends).flatMap_eq (fun _ => rfl) fun id hmem => ?_
    have hid : id.index < l.draft.nodes.size :=
      hava (.node id) (List.mem_append_left _ hmem)
    rw [← h.size_eq] at hid
    rw [hbelow id (h.size_eq ▸ hid), hnew.grows.spanOf_eq id hid]
    exact h.leaves_eq hid
  have hleaves : l'.draft.leaves (.node root) =
      (List.range' next (stop - next)).map TokenId.mk ++ [row.final] := by
    rw [leaves_node hbottomUp, hroot, List.flatMap_append, hstretch]
    simp [leaves]
  have hpush : l'.draft.nodes.size = l.draft.nodes.size + 1 := by
    rw [hnew.draft_eq]
    exact Array.size_push _
  have hsizes := h.size_eq
  have hindex := hnew.index_eq
  have hcount := hnew.size_eq
  have hlast : ∀ id : NodeId, ¬ id.index < l.spans.size → id.index < l'.spans.size → id = root :=
    fun id hold hlt => congrArg NodeId.mk (by omega)
  refine ⟨⟨htokens, fun id hid => ?_, ?_, ?_⟩, hbottomUp, ?_, by omega, hnew.span_eq,
    fun id hlt hne => ?_⟩
  · by_cases hold : id.index < l.spans.size
    · rw [hnew.grows.node_eq id hold]
      exact h.children_ne (mem_ids.2 (h.size_eq ▸ hold))
    · have hlt : id.index < l'.spans.size := by
        have hin := mem_ids.1 hid
        omega
      rw [hlast id hold hlt, hroot]
      simp
  · have hid : root = l.draft.nextId := congrArg NodeId.mk (hnew.index_eq.trans h.size_eq)
    have htoken : nodesAmong (es ++ [.token row.final]) = nodesAmong es := by
      rw [nodesAmong_append, nodesAmong_cons_token]
      exact List.append_nil _
    have hperm := h.perm
    rw [hnew.draft_eq, elements_push, ids_push, hid, nodesAmong_append, htoken]
    simp only [List.perm_iff_count, List.count_append, List.count_cons, List.count_nil] at hperm ⊢
    intro id
    have := hperm id
    omega
  · rw [hleaves]
    refine ascending_concat_final ?_
    have hle := hes.le
    omega
  · refine ⟨hnew.grows, ⟨[], ⟨by simp, .nil, ?_⟩, rfl⟩, fun id hle hlt hkind => ?_⟩
    · rw [hnew.occurrences_eq]
      exact .refl _
    · rw [hlast id (Nat.not_lt.2 hle) hlt, hroot] at hkind
      cases hkind
  · have hold : id.index < l.spans.size := by
      by_contra hnew'
      exact hne (hlast id hnew' hlt)
    rw [hbelow id (h.size_eq ▸ hold), hnew.grows.spanOf_eq id hold]
    exact ⟨h.leaves_eq hold, h.ordered id hold⟩

/-- A node that is laid has a token inside its range. -/
theorem lay_node_inside (ho : row.Ordered) {spec : NodeSpec} {children : List Shape}
    (h : Drafted row l loose) :
    Ensures (lay (.node spec children)) l fun _ _ => ∃ span, row.span? spec.range = some span := by
  simp only [lay]
  refine (checkWord_ensures spec).bind fun _ l₁ hl => ?_
  subst hl
  refine (layAll_records ho children h).bind fun ids l₁ h₁ => ?_
  refine (nodeOver_ensures ho h₁.drafted).bind fun id l₂ h₂ => ?_
  exact (declareIf_enters spec.declares spec.kind spec.range).bind fun _ _ _ =>
    .pure ⟨_, h₂.span?_eq⟩

/-- Where a range holds tokens, so does every range around it. -/
theorem span?_mono (ho : row.Ordered) {inner outer : TextRange} {span : TokenId × TokenId}
    (h : row.span? inner = some span) (hstart : outer.start ≤ inner.start)
    (hstop : inner.stop ≤ outer.stop) : ∃ span, row.span? outer = some span := by
  obtain ⟨first, last⟩ := span
  have hspans := ho.span?_eq_some h
  have hsize := ho.size
  have hlt := hspans.lt
  have hle := ho.stop_le hspans.le (by omega)
  have hlast := hspans.le_stop
  have hfirst := hspans.start_le
  obtain ⟨first', last', hsome⟩ := @TokenRow.Ordered.span?_of_inside row outer first.index ho
    (Nat.lt_of_le_of_lt hspans.le hlt) (Nat.le_trans hstart hfirst) (by omega)
  exact ⟨_, hsome⟩

/-- The shape is that of a node that ends by the given offset. -/
def EndsBy (length : Nat) (shape : Shape) : Prop :=
  ∃ spec children, shape = .node spec children ∧ spec.range.stop ≤ length

/-- Where the whole file holds no token, none of its nodes is laid. -/
theorem layAll_nil_of_span? (ho : row.Ordered) {shapes : List Shape}
    (hshapes : ∀ s ∈ shapes, EndsBy length s) (hnone : row.span? (.upTo length) = none)
    (h : Drafted row l loose) : Ensures (layAll shapes) l fun ids _ => ids = [] := by
  cases shapes with
  | nil => exact .pure rfl
  | cons s ss =>
    obtain ⟨spec, children, rfl, hstop⟩ := hshapes s List.mem_cons_self
    have hno : Ensures (lay (.node spec children)) l fun _ _ => False := by
      refine (lay_node_inside ho h).mono fun _ _ ⟨span, hspan⟩ => ?_
      have hsome : ∃ span, row.span? (.upTo length) = some span :=
        span?_mono ho hspan (Nat.zero_le _) hstop
      rw [hnone] at hsome
      cases hsome.choose_spec
    simp only [layAll]
    exact hno.bind fun _ _ hfalse => hfalse.elim

/-- A file that is laid over tokens leaves out none but those behind it. -/
theorem layUnit_ensures (ho : row.Ordered) (htokens : TokensInOrder row) (h : Drafted row l [])
    {unit : CompilationUnit} (hrange : unit.range = .upTo length)
    (hshapes : ∀ s ∈ unit.shapes, EndsBy length s) :
    Ensures (layUnit unit) l fun root l' => Rooted row l (shapeSites unit.shapes) root l' := by
  unfold layUnit
  cases hspan : row.span? unit.range with
  | none =>
    rw [hrange] at hspan
    have hnone := layAll_nil_of_span? ho hshapes hspan h
    refine ((layAll_records ho unit.shapes h).and hnone).bind fun ids l₁ ⟨h₁, hnil⟩ => .get ?_
    subst hnil
    have hes : Contiguous l₁ [] 0 0 := rfl
    rw [hrange, h₁.drafted.row_eq, hspan]
    exact (allocate_root_ensures ho htokens h₁.drafted hes (Nat.zero_le _)).mono
      fun root l₂ hrooted => hrooted.after h₁.recorded
  | some span =>
    refine (layAll_records ho unit.shapes h).bind fun ids l₁ h₁ => .get ?_
    obtain ⟨hle, hlt⟩ := span_le ho hspan
    rw [h₁.drafted.row_eq, hspan]
    refine (elements_woven h₁.drafted hlt hle).bind fun es l₂ h₂ => ?_
    have hdrafted := h₂.drafted
    rw [List.append_nil] at hdrafted
    have hstop : span.2.index + 1 ≤ row.count := (ho.span?_eq_some (by exact hspan)).lt
    exact (allocate_root_ensures ho htokens hdrafted h₂.contiguous hstop).mono
      fun root l₃ hrooted => (hrooted.after h₂.fills.recorded).after h₁.recorded

/-- What stands between the shapes of a file and its tree. -/
theorem tree_eq_ok {text : String} {boundAt? : Nat → Option BindingId} {unit : CompilationUnit}
    {t : SyntaxTree} {o : Occurrences} : tree text row boundAt? unit = .ok (t, o) ↔
      ∃ root l, layUnit unit (start row boundAt?) = .ok (root, l) ∧
        SyntaxTree.ofDraft text row l.draft root = .ok t ∧ l.occurrences = o := by
  unfold tree
  rw [bind_eq_ok]
  constructor
  · rintro ⟨⟨root, l⟩, hrun, hdraft⟩
    refine ⟨root, l, hrun, ?_⟩
    dsimp only at hdraft
    split at hdraft
    · cases hdraft
      exact ⟨‹_›, rfl⟩
    · cases hdraft
  · rintro ⟨root, l, hrun, hdraft, rfl⟩
    refine ⟨(root, l), hrun, ?_⟩
    simp only [hdraft]
    rfl

/-- A tree is over the tokens and the text that it was made for. -/
theorem over_of_tree {text : String} {boundAt? : Nat → Option BindingId} {unit : CompilationUnit}
    {t : SyntaxTree} {o : Occurrences} (h : tree text row boundAt? unit = .ok (t, o)) :
    t.row = row ∧ t.text = text := by
  obtain ⟨root, l, -, hdraft, -⟩ := tree_eq_ok.1 h
  obtain ⟨-, ends, -, owners, -, links, -, os, -, -, rfl⟩ := SyntaxTree.ofDraft_eq_ok.1 hdraft
  exact ⟨rfl, rfl⟩

end Layout

end JavaAnalysis
