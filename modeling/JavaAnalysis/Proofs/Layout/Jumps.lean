import JavaAnalysis.Proofs.Layout.Fences
import JavaAnalysis.Proofs.Layout.Unit
import JavaAnalysis.Proofs.Semantics.Jumps
import JavaAnalysis.Proofs.Tree.Formed

/-!
# Labels while shapes are laid

While shapes are laid over tokens, labels are entered and jumps resolved. What a tree tells of a
jump agrees with that: going up from its name one meets the statement whose label it was resolved
to, or comes to a node at the top of what was laid and there sees what was open when it was begun.
Main statement: `layAll_tracks`.
-/

set_option autoImplicit false
set_option linter.dupNamespace false

namespace JavaAnalysis

namespace Layout

open TreeDraft Ast Labels

variable {row : TokenRow} {raw : List Lexeme} {l l' l'' : Layout} {loose ids ids' : List NodeId}
  {es : List Element} {id c : NodeId} {gaps : Gaps} {kind parent : NodeKind} {range : TextRange}
  {next n : Nat} {t : SyntaxTree}

/-! ## Steps that leave labels alone -/

/-- The two layouts have the same nodes and the same labels. -/
structure Quiet (l l' : Layout) : Prop extends Alike l l' where
  labels_eq : l'.occurrences.labels = l.occurrences.labels
  labelAt_eq : l'.occurrences.labelAt = l.occurrences.labelAt

theorem Quiet.refl (l : Layout) : Quiet l l := ⟨.refl l, rfl, rfl⟩

theorem Quiet.trans (h : Quiet l l') (h' : Quiet l' l'') : Quiet l l'' :=
  ⟨h.toAlike.trans h'.toAlike, h'.labels_eq.trans h.labels_eq, h'.labelAt_eq.trans h.labelAt_eq⟩

theorem record_quiet {f : Occurrences → Occurrences}
    (h : ∀ o : Occurrences, (f o).labels = o.labels ∧ (f o).labelAt = o.labelAt) :
    Ensures (record f) l fun _ l' => Quiet l l' := by
  rintro _ l' ⟨⟩
  exact ⟨⟨rfl, rfl, rfl⟩, (h _).1, (h _).2⟩

theorem declareAt_quiet (offset : Nat) :
    Ensures (declareAt offset id) l fun _ l' => Quiet l l' := by
  unfold declareAt
  refine .get ?_
  split
  · refine record_quiet fun o => ?_
    unfold Occurrences.declare Occurrences.claim?
    cases o.bindingAt.contains id <;> exact ⟨rfl, rfl⟩
  · exact .pure (.refl l)

theorem referAt_quiet (offset : Nat) : Ensures (referAt offset id) l fun _ l' => Quiet l l' := by
  unfold referAt
  refine .get ?_
  split
  · refine record_quiet fun o => ?_
    unfold Occurrences.refer Occurrences.claim?
    cases o.bindingAt.contains id <;> exact ⟨rfl, rfl⟩
  · exact .pure (.refl l)

theorem declareIf_quiet (offset : Option Nat) :
    Ensures (declareIf offset id) l fun _ l' => Quiet l l' := by
  cases offset with
  | none => exact .pure (.refl l)
  | some o => exact declareAt_quiet o

theorem setTypes_quiet (id : NodeId) (types : List NodeId) (type : TypeRef)
    (ellipsis : Option TextRange) (after : List NodeId) :
    Ensures (types.forM fun typeNode => setType id typeNode type ellipsis after) l fun _ l' =>
      Quiet l l' := by
  induction types generalizing l with
  | nil => exact .pure (.refl l)
  | cons t ts ih =>
    have hset : Ensures (setType id t type ellipsis after) l fun _ l' => Quiet l l' := by
      rintro _ l' ⟨⟩
      exact ⟨⟨rfl, rfl, rfl⟩, rfl, rfl⟩
    exact hset.bind fun _ l₁ h₁ => ih.mono fun _ l₂ h₂ => h₁.trans h₂

/-! ## What a tree tells of a layout -/

/-- The nodes of the layout are nodes of the tree. -/
structure Shows (t : SyntaxTree) (row : TokenRow) (l : Layout) : Prop where
  row_eq : t.row = row
  parent?_eq : ∀ c p, .node c ∈ t.childElements p → t.parent? c = some p
  kind_eq : ∀ id, id.index < l.spans.size → t.kind id = (l.draft.node id).kind
  childElements_eq : ∀ id, id.index < l.spans.size →
    t.childElements id = (l.draft.node id).children

theorem Shows.of_grows (h : Shows t row l') (hg : Grows l l') : Shows t row l := by
  refine ⟨h.row_eq, h.parent?_eq, fun id hid => ?_, fun id hid => ?_⟩
  · rw [h.kind_eq id (Nat.lt_of_lt_of_le hid hg.size_le), hg.node_eq id hid]
  · rw [h.childElements_eq id (Nat.lt_of_lt_of_le hid hg.size_le), hg.node_eq id hid]

theorem Shows.quiet (h : Shows t row l') (hq : Quiet l l') : Shows t row l := by
  have hnode : ∀ id, l'.draft.node id = l.draft.node id := fun id => by
    rw [node, node, hq.nodes_eq]
  refine ⟨h.row_eq, h.parent?_eq, fun id hid => ?_, fun id hid => ?_⟩
  · rw [h.kind_eq id (hq.spans_eq ▸ hid), hnode]
  · rw [h.childElements_eq id (hq.spans_eq ▸ hid), hnode]

/-- In the tree, the node has the given nodes as its children, and perhaps empty declarations. -/
structure Parents (t : SyntaxTree) (id : NodeId) (kind : NodeKind) (ids : List NodeId) : Prop where
  kind_eq : t.kind id = kind
  parent?_eq : ∀ c ∈ ids, t.parent? c = some id
  mem : ∀ c ∈ ids, .node c ∈ t.childElements id
  of_mem : ∀ c, .node c ∈ t.childElements id → c ∈ ids ∨ t.kind c = .emptyDecl

theorem Shows.parents (h : Shows t row l') (hmade : Made row loose l kind range id l')
    (hholds : Holds l' id ids) : Parents t id kind ids := by
  have hid := hmade.lt_size
  have hmem : ∀ c ∈ ids, .node c ∈ t.childElements id := fun c hc => by
    rw [h.childElements_eq id hid]
    exact hholds.mem c hc
  refine ⟨(h.kind_eq id hid).trans hmade.kind_eq, fun c hc => h.parent?_eq c id (hmem c hc), hmem,
    fun c hc => ?_⟩
  rw [h.childElements_eq id hid] at hc
  have hlt : c.index < id.index := hmade.drafted.bottomUp.available hc
  rw [h.kind_eq c (Nat.lt_trans hlt hid)]
  exact hholds.of_mem c hc

/-! ## Where jumps go -/

/--
Up from the name in a jump one meets the statement with the label that it was resolved to, and sees
what is seen from a node at the top: the label that was the innermost open one of the name, but
none if the node is a body below its parent. If it was resolved to no label, one meets none.
-/
inductive Ends (t : SyntaxTree) (parent : NodeKind) (ids : List NodeId) (s s' : Labels)
    (name : String) (j : JumpGoal) : Prop
  | closed : (∀ id, j.2 = some id → s.all.size ≤ id.index) →
    (∀ x, t.Reaches name j.1 x ↔ ∃ id, j.2 = some id ∧ (s'.get id).declaration = some x) →
    Ends t parent ids s s' name j
  | loose (r : NodeId) : r ∈ ids → (∀ x, t.Reaches name j.1 x ↔ t.Reaches name r x) →
    j.2 = (if (t.kind r).isBodyIn parent then none else s.find? name) →
    Ends t parent ids s s' name j

namespace Ends

variable {s s' s'' : Labels} {name label : String} {j : JumpGoal}

theorem nowhere (hgoal : j.2 = none) (h : ∀ x, ¬ t.Reaches name j.1 x) :
    Ends t parent ids s s' name j := by
  refine .closed (fun id hid => ?_) fun x => ⟨fun hx => absurd hx (h x), fun ⟨id, hid, _⟩ => ?_⟩
  · rw [hgoal] at hid
    cases hid
  · rw [hgoal] at hid
    cases hid

/-- Labels that are met later change nothing. -/
theorem later (h : Ends t parent ids s s' name j)
    (hkept : ∀ id, j.2 = some id → (s''.get id).declaration = (s'.get id).declaration)
    (hids : ∀ r ∈ ids, r ∈ ids') : Ends t parent ids' s s'' name j := by
  cases h with
  | closed hnew hreaches =>
    refine .closed hnew fun x => (hreaches x).trans (exists_congr fun id => ?_)
    exact and_congr_right fun hid => by rw [hkept id hid]
  | loose r hr hreaches hgoal => exact .loose r (hids r hr) hreaches hgoal

/-- Labels that were met before and are closed again change nothing. -/
theorem earlier (h : Ends t parent ids s' s'' name j) (hsize : s.all.size ≤ s'.all.size)
    (hfind : s'.find? name = s.find? name) (hids : ∀ r ∈ ids, r ∈ ids') :
    Ends t parent ids' s s'' name j := by
  cases h with
  | closed hnew hreaches =>
    exact .closed (fun id hid => Nat.le_trans hsize (hnew id hid)) hreaches
  | loose r hr hreaches hgoal => exact .loose r (hids r hr) hreaches (hfind ▸ hgoal)

/-- A node without a label takes in the nodes at the top. -/
theorem wrap (h : Ends t kind ids s s' name j) (hparents : Parents t id kind ids)
    (hlabel : kind ≠ .labeledStatement) (hin : kind.isBodyIn parent = false) :
    Ends t parent [id] s s' name j := by
  cases h with
  | closed hnew hreaches => exact .closed hnew hreaches
  | loose r hr hreaches hgoal =>
    have hparent := hparents.parent?_eq r hr
    rw [← hparents.kind_eq] at hgoal
    cases hbody : (t.kind r).isBodyIn (t.kind id) with
    | true =>
      rw [hbody, if_pos rfl] at hgoal
      refine nowhere hgoal fun x hx => ?_
      exact SyntaxTree.not_reaches_of_isBodyIn hparent hbody x ((hreaches x).1 hx)
    | false =>
      rw [hbody, if_neg nofun] at hgoal
      have hnone : ¬ t.HasLabel id name := fun ⟨hkind, _⟩ =>
        hlabel (hparents.kind_eq.symm.trans hkind)
      refine .loose id (List.mem_singleton_self id) (fun x => (hreaches x).trans ?_) ?_
      · exact SyntaxTree.reaches_iff_parent hparent hbody hnone x
      · rw [hparents.kind_eq, hin, if_neg nofun]
        exact hgoal

/-- A statement with a label takes in the nodes at the top, which see its label. -/
theorem labeled (h : Ends t .labeledStatement ids (s.enter label).2 s' name j) (hs : s.Valid)
    (hparents : Parents t id .labeledStatement ids) (hlabel : t.HasLabel id label)
    (hactive : s'.active = ⟨s.all.size⟩ :: s.active) (hlt : s.all.size < s'.all.size)
    (hin : NodeKind.labeledStatement.isBodyIn parent = false) :
    Ends t parent [id] s (s'.exit id).2 name j := by
  have hget := get_exit hactive hlt id
  cases h with
  | closed hnew hreaches =>
    have hnew' : ∀ goal, j.2 = some goal → s.all.size < goal.index := fun goal hgoal => by
      have hle := hnew goal hgoal
      simp only [Labels.enter, Array.size_push] at hle
      omega
    refine .closed (fun goal hgoal => Nat.le_of_lt (hnew' goal hgoal)) fun x =>
      (hreaches x).trans (exists_congr fun goal => and_congr_right fun hgoal => ?_)
    have hne : (⟨s.all.size⟩ : LabelId) ≠ goal := by
      rintro rfl
      exact Nat.lt_irrefl _ (hnew' _ hgoal)
    rw [hget, if_neg hne]
  | loose r hr hreaches hgoal =>
    have hparent := hparents.parent?_eq r hr
    have hbody : (t.kind r).isBodyIn (t.kind id) = false := by
      rw [hparents.kind_eq]
      rfl
    have hopen : (t.kind r).isBodyIn .labeledStatement = false := hparents.kind_eq ▸ hbody
    rw [hopen, if_neg Bool.false_ne_true, find?_enter hs] at hgoal
    by_cases hname : label = name
    · rw [if_pos hname] at hgoal
      subst hname
      refine .closed (fun goal hgoal' => ?_) fun x => (hreaches x).trans ?_
      · cases hgoal.symm.trans hgoal'
        exact Nat.le_refl _
      · rw [SyntaxTree.reaches_iff_of_hasLabel hparent hbody hlabel x, hgoal]
        have hdeclared : ((s'.exit id).2.get ⟨s.all.size⟩).declaration = some id := by
          rw [hget, if_pos rfl]
        simp [hdeclared, eq_comm]
    · rw [if_neg hname] at hgoal
      have hnone : ¬ t.HasLabel id name := fun hother =>
        hname (Option.some.inj (hlabel.2.symm.trans hother.2))
      refine .loose id (List.mem_singleton_self id) (fun x => (hreaches x).trans ?_) ?_
      · exact SyntaxTree.reaches_iff_parent hparent hbody hnone x
      · rw [hparents.kind_eq, hin, if_neg Bool.false_ne_true]
        exact hgoal

/-- In a body, nothing is seen of the labels around it. -/
theorem hidden (h : Ends t .block ids s.enterBody.2 s' name j)
    (hbody : ∀ r ∈ ids, (t.kind r).isBodyIn parent = true) :
    Ends t parent ids s (s'.exitBody s.active) name j := by
  cases h with
  | closed hnew hreaches => exact .closed hnew hreaches
  | loose r hr hreaches hgoal =>
    refine .loose r hr hreaches ?_
    have hnone : s.enterBody.2.find? name = none := rfl
    rw [hnone, ite_self] at hgoal
    rw [hbody r hr, if_pos rfl]
    exact hgoal

end Ends

/-! ## Labels and jumps between two layouts -/

/-- Labels that are open are labels of the file, and nodes to come stand for none. -/
structure Ready (l : Layout) : Prop where
  valid : l.occurrences.labels.Valid
  fresh : ∀ x : NodeId, l.spans.size ≤ x.index → l.occurrences.labelAt[x]? = none

/-- The node is new in the second layout. -/
def Between (l l' : Layout) (id : NodeId) : Prop :=
  l.spans.size ≤ id.index ∧ id.index < l'.spans.size

/-- From the first layout to the second, no labels or jumps are met. -/
structure Still (t : SyntaxTree) (l l' : Layout) : Prop where
  size_le : l.spans.size ≤ l'.spans.size
  labels_eq : l'.occurrences.labels = l.occurrences.labels
  labelAt_eq : l'.occurrences.labelAt = l.occurrences.labelAt
  unlabeled : ∀ x, Between l l' x → t.kind x ≠ .labeledStatement
  nameless : ∀ x, Between l l' x → (t.kind x).isJump = true →
    ∀ c, .node c ∈ t.childElements x → t.kind c ≠ .identifier

/--
From the first layout to the second, the statements `ls` got labels and the jumps `js` their goals,
no others were laid, and the tree tells the same of them.
-/
structure Tracked (t : SyntaxTree) (parent : NodeKind) (l : Layout) (ids : List NodeId)
    (ls : List (NodeId × String)) (js : List JumpGoal) (l' : Layout) : Prop where
  size_le : l.spans.size ≤ l'.spans.size
  leads : Leads l.occurrences.labels ls js l'.occurrences.labels
  jumps : ∀ j ∈ js, Between l l' j.1 ∧ t.isJumpName j.1 = true ∧
    l'.occurrences.labelAt[j.1]? = j.2 ∧ ∃ name, t.spelling? j.1 = some name ∧
      Ends t parent ids l.occurrences.labels l'.occurrences.labels name j
  labels : ∀ (k : Nat) (q : NodeId × String), ls[k]? = some q →
    Between l l' q.1 ∧ t.HasLabel q.1 q.2 ∧
    l'.occurrences.labelAt[q.1]? = some ⟨l.occurrences.labels.all.size + k⟩
  nodup_jumps : (js.map (·.1)).Nodup
  nodup_labels : (ls.map (·.1)).Nodup
  all_jumps : ∀ x, Between l l' x → (t.kind x).isJump = true →
    ∀ c, .node c ∈ t.childElements x → t.kind c = .identifier → c ∈ js.map (·.1)
  all_labels : ∀ x, Between l l' x → t.kind x = .labeledStatement → x ∈ ls.map (·.1)
  old : ∀ x : NodeId, x.index < l.spans.size →
    l'.occurrences.labelAt[x]? = l.occurrences.labelAt[x]?
  fresh : ∀ x : NodeId, l'.spans.size ≤ x.index → l'.occurrences.labelAt[x]? = none

theorem Between.cases {x : NodeId} (h : Between l l'' x) (l' : Layout) :
    Between l l' x ∨ Between l' l'' x := by
  by_cases hlt : x.index < l'.spans.size
  · exact .inl ⟨h.1, hlt⟩
  · exact .inr ⟨Nat.not_lt.1 hlt, h.2⟩

theorem Between.widen {x : NodeId} (h : Between l l' x) {k k' : Layout}
    (hle : k.spans.size ≤ l.spans.size) (hle' : l'.spans.size ≤ k'.spans.size) :
    Between k k' x :=
  ⟨Nat.le_trans hle h.1, Nat.lt_of_lt_of_le h.2 hle'⟩

/-- What is new when a node is made, apart from the node itself, is plain. -/
theorem Made.plain (h : Made row loose l kind range id l') (hshows : Shows t row l') {x : NodeId}
    (hx : Between l l' x) : x = id ∨ (t.kind x).isPlain = true := by
  rcases h.new x hx.1 hx.2 with rfl | hempty
  · exact .inl rfl
  · rw [hshows.kind_eq x hx.2, hempty]
    exact .inr rfl

namespace Still

theorem trans (h : Still t l l') (h' : Still t l' l'') : Still t l l'' :=
  ⟨Nat.le_trans h.size_le h'.size_le, h'.labels_eq.trans h.labels_eq,
    h'.labelAt_eq.trans h.labelAt_eq,
    fun x hx => (hx.cases l').elim (h.unlabeled x) (h'.unlabeled x),
    fun x hx => (hx.cases l').elim (h.nameless x) (h'.nameless x)⟩

theorem quiet (h : Quiet l l') : Still t l l' := by
  have hsize : l'.spans.size = l.spans.size := by rw [h.spans_eq]
  have hno : ∀ x, ¬ Between l l' x := fun x ⟨hle, hlt⟩ => by omega
  exact ⟨Nat.le_of_eq hsize.symm, h.labels_eq, h.labelAt_eq, fun x hx => absurd hx (hno x),
    fun x hx => absurd hx (hno x)⟩

/-- A node that has no label, nor a name if it is a jump. -/
theorem made (h : Made row loose l kind range id l') (hholds : Holds l' id ids)
    (hshows : Shows t row l') (hlabel : kind ≠ .labeledStatement)
    (hname : kind.isJump = true → ids = []) : Still t l l' := by
  have hparents := hshows.parents h hholds
  refine ⟨h.grows.size_le, by rw [h.occurrences_eq], by rw [h.occurrences_eq], fun x hx => ?_,
    fun x hx hjump c hc => ?_⟩
  · rcases h.plain hshows hx with rfl | hplain
    · rw [hparents.kind_eq]
      exact hlabel
    · exact (NodeKind.not_isJump_of_isPlain hplain).2
  · rcases h.plain hshows hx with rfl | hplain
    · rw [hparents.kind_eq] at hjump
      rcases hparents.of_mem c hc with hmem | hempty
      · rw [hname hjump] at hmem
        cases hmem
      · rw [hempty]
        exact nofun
    · rw [(NodeKind.not_isJump_of_isPlain hplain).1] at hjump
      cases hjump

theorem ready (h : Still t l l') (hr : Ready l) : Ready l' := by
  refine ⟨h.labels_eq.symm ▸ hr.valid, fun x hx => ?_⟩
  rw [h.labelAt_eq]
  exact hr.fresh x (Nat.le_trans h.size_le hx)

end Still

namespace Tracked

variable {ls ls' : List (NodeId × String)} {js js' : List JumpGoal}

theorem ready (h : Tracked t parent l ids ls js l') (hr : Ready l) : Ready l' :=
  ⟨h.leads.valid hr.valid, h.fresh⟩

theorem nil (hr : Ready l) : Tracked t parent l [] [] [] l :=
  ⟨Nat.le_refl _, .refl _, nofun, nofun, .nil, .nil, fun _ hx => absurd hx.2 (Nat.not_lt.2 hx.1),
    fun _ hx => absurd hx.2 (Nat.not_lt.2 hx.1), fun _ _ => rfl, hr.fresh⟩

/-- A step without labels behind the others. -/
theorem still {parent' : NodeKind} (h : Tracked t parent l ids ls js l') (hs : Still t l' l'')
    (hends : ∀ name j, Ends t parent ids l.occurrences.labels l'.occurrences.labels name j →
      Ends t parent' ids' l.occurrences.labels l'.occurrences.labels name j) :
    Tracked t parent' l ids' ls js l'' := by
  have hle := hs.size_le
  refine ⟨Nat.le_trans h.size_le hle, hs.labels_eq.symm ▸ h.leads, fun j hj => ?_, fun k q hk => ?_,
    h.nodup_jumps, h.nodup_labels, fun x hx hkind => ?_, fun x hx hkind => ?_, fun x hx => ?_,
    fun x hx => ?_⟩
  · obtain ⟨hbetween, hjump, hat, name, hname, hend⟩ := h.jumps j hj
    rw [hs.labels_eq, hs.labelAt_eq]
    exact ⟨hbetween.widen (Nat.le_refl _) hle, hjump, hat, name, hname, hends name j hend⟩
  · obtain ⟨hbetween, hlabel, hat⟩ := h.labels k q hk
    rw [hs.labelAt_eq]
    exact ⟨hbetween.widen (Nat.le_refl _) hle, hlabel, hat⟩
  · rcases hx.cases l' with hx | hx
    · exact h.all_jumps x hx hkind
    · exact fun c hc hident => absurd hident (hs.nameless x hx hkind c hc)
  · rcases hx.cases l' with hx | hx
    · exact h.all_labels x hx hkind
    · exact absurd hkind (hs.unlabeled x hx)
  · rw [hs.labelAt_eq]
    exact h.old x hx
  · rw [hs.labelAt_eq]
    exact h.fresh x (Nat.le_trans hle hx)

/-- One thing is laid behind the other. -/
theorem append (hr : Ready l) (h : Tracked t parent l ids ls js l')
    (h' : Tracked t parent l' ids' ls' js' l'') :
    Tracked t parent l (ids ++ ids') (ls ++ ls') (js ++ js') l'' := by
  have hle := h.size_le
  have hle' := h'.size_le
  have hsize := h.leads.size_eq
  have hapart : ∀ {x y : NodeId}, Between l l' x → Between l' l'' y → x ≠ y := by
    rintro x _ hx hy rfl
    exact absurd hx.2 (Nat.not_lt.2 hy.1)
  refine ⟨Nat.le_trans hle hle', h.leads.append h'.leads, ?_, fun k q hk => ?_, ?_, ?_,
    fun x hx hkind c hc hident => ?_, fun x hx hkind => ?_, fun x hx => ?_, h'.fresh⟩
  · rw [List.forall_mem_append]
    refine ⟨fun j hj => ?_, fun j hj => ?_⟩
    · obtain ⟨hbetween, hjump, hat, name, hname, hend⟩ := h.jumps j hj
      refine ⟨hbetween.widen (Nat.le_refl _) hle', hjump, ?_, name, hname,
        hend.later (fun goal hgoal => ?_) fun r hr => List.mem_append_left _ hr⟩
      · rw [h'.old _ hbetween.2]
        exact hat
      · rw [h'.leads.old goal (h.leads.goals j hj goal hgoal)]
    · obtain ⟨hbetween, hjump, hat, name, hname, hend⟩ := h'.jumps j hj
      exact ⟨hbetween.widen hle (Nat.le_refl _), hjump, hat, name, hname,
        hend.earlier (by omega) (h.leads.find?_eq hr.valid name)
          fun r hr => List.mem_append_right _ hr⟩
  · by_cases hlt : k < ls.length
    · rw [List.getElem?_append_left hlt] at hk
      obtain ⟨hbetween, hlabel, hat⟩ := h.labels k q hk
      refine ⟨hbetween.widen (Nat.le_refl _) hle', hlabel, ?_⟩
      rw [h'.old _ hbetween.2]
      exact hat
    · rw [List.getElem?_append_right (Nat.not_lt.1 hlt)] at hk
      obtain ⟨hbetween, hlabel, hat⟩ := h'.labels _ q hk
      have hindex : l'.occurrences.labels.all.size + (k - ls.length) =
          l.occurrences.labels.all.size + k := by omega
      rw [hindex] at hat
      exact ⟨hbetween.widen hle (Nat.le_refl _), hlabel, hat⟩
  · rw [List.map_append, List.nodup_append]
    refine ⟨h.nodup_jumps, h'.nodup_jumps, fun x hx y hy => ?_⟩
    obtain ⟨j, hj, rfl⟩ := List.mem_map.1 hx
    obtain ⟨j', hj', rfl⟩ := List.mem_map.1 hy
    exact hapart (h.jumps j hj).1 (h'.jumps j' hj').1
  · rw [List.map_append, List.nodup_append]
    refine ⟨h.nodup_labels, h'.nodup_labels, fun x hx y hy => ?_⟩
    obtain ⟨q, hq, rfl⟩ := List.mem_map.1 hx
    obtain ⟨q', hq', rfl⟩ := List.mem_map.1 hy
    obtain ⟨k, hk⟩ := List.getElem?_of_mem hq
    obtain ⟨k', hk'⟩ := List.getElem?_of_mem hq'
    exact hapart (h.labels k q hk).1 (h'.labels k' q' hk').1
  · rw [List.map_append, List.mem_append]
    exact (hx.cases l').imp (fun hx => h.all_jumps x hx hkind c hc hident)
      fun hx => h'.all_jumps x hx hkind c hc hident
  · rw [List.map_append, List.mem_append]
    exact (hx.cases l').imp (fun hx => h.all_labels x hx hkind) fun hx => h'.all_labels x hx hkind
  · rw [h'.old x (Nat.lt_of_lt_of_le hx hle)]
    exact h.old x hx

/-- A node without a label takes in the nodes at the top. -/
theorem wrap {made : NodeKind} (h : Tracked t made l ids ls js l')
    (hmade : Made row loose l' made range id l'') (hholds : Holds l'' id ids)
    (hshows : Shows t row l'') (hlabel : made ≠ .labeledStatement)
    (hname : made.isJump = true → ids = []) (hin : made.isBodyIn parent = false) :
    Tracked t parent l [id] ls js l'' :=
  h.still (.made hmade hholds hshows hlabel hname) fun _ _ hend =>
    hend.wrap (hshows.parents hmade hholds) hlabel hin

/-- A jump whose name was resolved. -/
theorem jump {u : NodeId} {label : String} {loose' : List NodeId} {inner : TextRange}
    {l₁ l₂ : Layout} (hr : Ready l) (h₁ : Made row loose' l .identifier inner u l₁)
    (h₂ : l₂ = { l₁ with occurrences := (l₁.occurrences.resolveLabel label u).2 })
    (h₃ : Made row loose l₂ kind range id l') (hholds : Holds l' id [u]) (hshows : Shows t row l')
    (hkind : kind.isJump = true) (hin : kind.isBodyIn parent = false)
    (hspelled : t.spelling? u = some label) :
    Tracked t parent l [id] [] [(u, l.occurrences.labels.find? label)] l' := by
  have hgrows : Grows l₁ l₂ := by
    subst h₂
    exact ⟨⟨Nat.le_refl _, fun _ _ => rfl⟩, fun _ _ => rfl, rfl⟩
  have hsize : l₂.spans.size = l₁.spans.size := by rw [h₂]
  have hle := h₁.grows.size_le
  have hle' := h₃.grows.size_le
  have hparents := hshows.parents h₃ hholds
  have hshows₁ := (hshows.of_grows h₃.grows).of_grows hgrows
  obtain ⟨hleads, hgoal⟩ := leads_resolve hr.valid label u
  have hlabels : l'.occurrences.labels = (l.occurrences.labels.resolve label u).2 := by
    rw [h₃.occurrences_eq, h₂, Occurrences.resolveLabel]
    simp only [h₁.occurrences_eq]
    split <;> rename_i heq <;> rw [heq]
  have hlabelAt : ∀ x : NodeId, l'.occurrences.labelAt[x]? =
      if x = u then l.occurrences.labels.find? label else l.occurrences.labelAt[x]? := by
    intro x
    rw [h₃.occurrences_eq, h₂, Occurrences.resolveLabel]
    simp only [h₁.occurrences_eq]
    split <;> rename_i heq <;> rw [heq] at hgoal <;> rw [← hgoal]
    · rw [Std.HashMap.getElem?_insert]
      simp only [beq_iff_eq, @eq_comm _ u x]
    · by_cases hx : x = u
      · rw [if_pos hx, hx, hr.fresh u h₁.old_le]
      · rw [if_neg hx]
  have hnew : ∀ x, Between l l' x → x = u ∨ x = id ∨ (t.kind x).isPlain = true := by
    intro x hx
    rcases hx.cases l₁ with hx | hx
    · rcases h₁.plain hshows₁ hx with rfl | hplain
      · exact .inl rfl
      · exact .inr (.inr hplain)
    · exact .inr (h₃.plain hshows ⟨hsize ▸ hx.1, hx.2⟩)
  have hu : t.kind u = .identifier := by
    rw [hshows₁.kind_eq u h₁.lt_size]
    exact h₁.kind_eq
  have hbetween : Between l l' u := ⟨h₁.old_le, by have := h₁.lt_size; omega⟩
  have hparent := hparents.parent?_eq u (List.mem_singleton_self u)
  refine ⟨by omega, hlabels ▸ hleads, ?_, nofun, List.nodup_singleton _, .nil,
    fun x hx hjump c hc hident => ?_, fun x hx hlabeled => ?_, fun x hx => ?_, fun x hx => ?_⟩
  · rw [List.forall_mem_singleton]
    refine ⟨hbetween, ?_, ?_, label, hspelled, ?_⟩
    · simp [SyntaxTree.isJumpName, hu, hparent, hparents.kind_eq, hkind]
    · rw [hlabelAt, if_pos rfl]
    · have hnone : kind ≠ .labeledStatement := by
        rintro rfl
        cases hkind
      have hbody : NodeKind.identifier.isBodyIn kind = false := by
        cases kind <;> first | rfl | cases hkind
      have hend : Ends t kind [u] l.occurrences.labels l'.occurrences.labels label
          (u, l.occurrences.labels.find? label) := by
        refine .loose u (List.mem_singleton_self u) (fun _ => Iff.rfl) ?_
        rw [hu, hbody, if_neg nofun]
      exact hend.wrap hparents hnone hin
  · rcases hnew x hx with rfl | rfl | hplain
    · rw [hu] at hjump
      cases hjump
    · rcases hparents.of_mem c hc with hmem | hempty
      · exact hmem
      · rw [hempty] at hident
        cases hident
    · rw [(NodeKind.not_isJump_of_isPlain hplain).1] at hjump
      cases hjump
  · rcases hnew x hx with rfl | rfl | hplain
    · rw [hu] at hlabeled
      cases hlabeled
    · rw [hparents.kind_eq] at hlabeled
      rw [hlabeled] at hkind
      cases hkind
    · exact absurd hlabeled (NodeKind.not_isJump_of_isPlain hplain).2
  · have hne : x ≠ u := by
      rintro rfl
      exact absurd hx (Nat.not_lt.2 h₁.old_le)
    rw [hlabelAt, if_neg hne]
  · have hne : x ≠ u := by
      rintro rfl
      exact absurd hbetween.2 (Nat.not_lt.2 hx)
    rw [hlabelAt, if_neg hne]
    exact hr.fresh x (by omega)

/-- A statement with a label, which was open while the statement behind it was laid. -/
theorem labeled {u : NodeId} {label : String} {l₁ l₂ l₃ l₄ : Layout} (hr : Ready l)
    (h₁ : Still t l l₁) (h₂ : l₂ = { l₁ with occurrences := (l₁.occurrences.enterLabel label).2 })
    (h₃ : Tracked t .labeledStatement l₂ ids ls js l₃)
    (h₄ : Made row loose l₃ .labeledStatement range id l₄) (hholds : Holds l₄ id (u :: ids))
    (h₅ : l' = { l₄ with occurrences := (l₄.occurrences.exitLabel id).2 })
    (hshows : Shows t row l') (hlabel : t.HasLabel id label)
    (hin : NodeKind.labeledStatement.isBodyIn parent = false) :
    Tracked t parent l [id] ((id, label) :: ls) js l' := by
  have hopen : l₂.occurrences.labels = (l.occurrences.labels.enter label).2 := by
    rw [h₂, ← h₁.labels_eq]
    rfl
  have hopenAt : l₂.occurrences.labelAt = l.occurrences.labelAt := by
    rw [h₂, ← h₁.labelAt_eq]
    rfl
  have hleads := h₃.leads
  rw [hopen] at hleads
  obtain ⟨hclosed, hgoal⟩ := hleads.labeled id
  obtain ⟨hactive, hlt⟩ := hleads.innermost
  have hlabels : l'.occurrences.labels = (l₃.occurrences.labels.exit id).2 := by
    rw [h₅, h₄.occurrences_eq, Occurrences.exitLabel]
    split <;> rename_i heq <;> rw [heq]
  have hlabelAt : ∀ x : NodeId, l'.occurrences.labelAt[x]? =
      if x = id then some ⟨l.occurrences.labels.all.size⟩ else l₃.occurrences.labelAt[x]? := by
    intro x
    rw [h₅, h₄.occurrences_eq, Occurrences.exitLabel]
    split <;> rename_i heq <;> rw [heq] at hgoal
    · cases hgoal
      rw [Std.HashMap.getElem?_insert]
      simp only [beq_iff_eq, @eq_comm _ id x]
    · cases hgoal
  have hshows₄ : Shows t row l₄ := by
    subst h₅
    exact ⟨hshows.row_eq, hshows.parent?_eq, hshows.kind_eq, hshows.childElements_eq⟩
  have hparents := hshows₄.parents h₄ hholds
  have hsize₂ : l₂.spans.size = l₁.spans.size := by rw [h₂]
  have hsize₅ : l'.spans.size = l₄.spans.size := by rw [h₅]
  have hle₁ := h₁.size_le
  have hle₃ := h₃.size_le
  have hle₄ := h₄.grows.size_le
  have hold := h₄.old_le
  have hid := h₄.lt_size
  have hnew : ∀ x, Between l l' x → Between l l₁ x ∨ Between l₂ l₃ x ∨ x = id ∨
      (t.kind x).isPlain = true := by
    intro x hx
    rcases hx.cases l₁ with hx | hx
    · exact .inl hx
    · rcases hx.cases l₃ with hx | hx
      · exact .inr (.inl ⟨hsize₂.symm ▸ hx.1, hx.2⟩)
      · exact .inr (.inr (h₄.plain hshows₄ ⟨hx.1, hsize₅ ▸ hx.2⟩))
  have hne : ∀ {x : NodeId}, x.index < l₃.spans.size → x ≠ id := by
    rintro x hx rfl
    omega
  have hlabel' : ∀ (k : Nat) (q : NodeId × String), ls[k]? = some q → Between l₂ l₃ q.1 :=
    fun k q hk => (h₃.labels k q hk).1
  refine ⟨by omega, hlabels ▸ hclosed, fun j hj => ?_, fun k q hk => ?_, h₃.nodup_jumps, ?_,
    fun x hx hjump c hc hident => ?_, fun x hx hlabeled => ?_, fun x hx => ?_, fun x hx => ?_⟩
  · obtain ⟨hbetween, hjump, hat, name, hname, hend⟩ := h₃.jumps j hj
    rw [hopen] at hend
    refine ⟨hbetween.widen (by omega) (by omega), hjump, ?_, name, hname, ?_⟩
    · rw [hlabelAt, if_neg (hne hbetween.2)]
      exact hat
    · rw [hlabels]
      exact (hend.later (fun _ _ => rfl) fun r hr => List.mem_cons_of_mem u hr).labeled hr.valid
        hparents hlabel hactive hlt hin
  · cases k with
    | zero =>
      cases hk
      have hbetween : Between l l' id := ⟨by omega, by omega⟩
      refine ⟨hbetween, hlabel, ?_⟩
      rw [hlabelAt, if_pos rfl]
      rfl
    | succ k =>
      obtain ⟨hbetween, hq, hat⟩ := h₃.labels k q hk
      refine ⟨hbetween.widen (by omega) (by omega), hq, ?_⟩
      have hindex : l₂.occurrences.labels.all.size + k =
          l.occurrences.labels.all.size + (k + 1) := by
        rw [hopen]
        simp only [Labels.enter, Array.size_push]
        omega
      rw [hlabelAt, if_neg (hne hbetween.2), hat, hindex]
  · rw [List.map_cons, List.nodup_cons]
    refine ⟨fun hmem => ?_, h₃.nodup_labels⟩
    obtain ⟨q, hq, heq⟩ := List.mem_map.1 hmem
    obtain ⟨k, hk⟩ := List.getElem?_of_mem hq
    exact hne (hlabel' k q hk).2 heq
  · rcases hnew x hx with hx | hx | rfl | hplain
    · exact absurd hident (h₁.nameless x hx hjump c hc)
    · exact h₃.all_jumps x hx hjump c hc hident
    · rw [hparents.kind_eq] at hjump
      cases hjump
    · rw [(NodeKind.not_isJump_of_isPlain hplain).1] at hjump
      cases hjump
  · rw [List.map_cons, List.mem_cons]
    rcases hnew x hx with hx | hx | rfl | hplain
    · exact absurd hlabeled (h₁.unlabeled x hx)
    · exact .inr (h₃.all_labels x hx hlabeled)
    · exact .inl rfl
    · exact absurd hlabeled (NodeKind.not_isJump_of_isPlain hplain).2
  · rw [hlabelAt, if_neg (hne (by omega)), h₃.old x (by omega), hopenAt]
  · have hne' : x ≠ id := by
      rintro rfl
      omega
    rw [hlabelAt, if_neg hne']
    exact h₃.fresh x (by omega)

/-- A body, in which the labels around it are not open. -/
theorem hidden {l₁ : Layout} (h₁ : l₁ = { l with occurrences := l.occurrences.enterBody.2 })
    (h₂ : Tracked t .block l₁ ids ls js l'')
    (h₃ : l' = { l'' with occurrences := l''.occurrences.exitBody l.occurrences.labels.active })
    (hbody : ∀ r ∈ ids, (t.kind r).isBodyIn parent = true) : Tracked t parent l ids ls js l' := by
  subst h₁ h₃
  refine ⟨h₂.size_le, h₂.leads.hidden, fun j hj => ?_, h₂.labels, h₂.nodup_jumps, h₂.nodup_labels,
    h₂.all_jumps, h₂.all_labels, h₂.old, h₂.fresh⟩
  obtain ⟨hbetween, hjump, hat, name, hname, hend⟩ := h₂.jumps j hj
  exact ⟨hbetween, hjump, hat, name, hname, hend.hidden hbody⟩

end Tracked

/-! ## Laying shapes -/

/-- What a tree tells of the labels and jumps among new nodes, and the kinds of those at the top. -/
def Tracks (t : SyntaxTree) (row : TokenRow) (parent : NodeKind) (l : Layout)
    (kinds : List NodeKind) (ids : List NodeId) (l' : Layout) : Prop :=
  Ready l → Shows t row l' →
    (∀ r ∈ ids, t.kind r ∈ kinds) ∧ ∃ ls js, Tracked t parent l ids ls js l'

namespace Tracks

variable {kinds kinds' : List NodeKind}

theorem nil : Tracks t row parent l kinds [] l := fun hr _ => ⟨nofun, [], [], .nil hr⟩

theorem mono (h : Tracks t row parent l kinds ids l') (hkinds : ∀ k ∈ kinds, k ∈ kinds') :
    Tracks t row parent l kinds' ids l' :=
  fun hr hs => (h hr hs).imp_left fun hids r hr => hkinds _ (hids r hr)

/-- Where there are no nodes at the top, it does not matter below what these would be. -/
theorem below (h : Tracks t row kind l kinds [] l') : Tracks t row parent l kinds' [] l' := by
  intro hr hs
  obtain ⟨-, ls, js, htracked⟩ := h hr hs
  refine ⟨nofun, ls, js, htracked.still (.quiet (.refl l')) fun name j hend => ?_⟩
  cases hend with
  | closed hnew hreaches => exact .closed hnew hreaches
  | loose r hr => cases hr

theorem quiet (h : Tracks t row parent l kinds ids l') (hq : Quiet l' l'') :
    Tracks t row parent l kinds ids l'' := by
  intro hr hs
  obtain ⟨hkinds, ls, js, htracked⟩ := h hr (hs.quiet hq)
  exact ⟨hkinds, ls, js, htracked.still (.quiet hq) fun _ _ hend => hend⟩

theorem append (h : Tracks t row parent l kinds ids l') (hg : Grows l' l'')
    (h' : Tracks t row parent l' kinds' ids' l'') :
    Tracks t row parent l (kinds ++ kinds') (ids ++ ids') l'' := by
  intro hr hs
  obtain ⟨hkinds, ls, js, htracked⟩ := h hr (hs.of_grows hg)
  obtain ⟨hkinds', ls', js', htracked'⟩ := h' (htracked.ready hr) hs
  refine ⟨?_, ls ++ ls', js ++ js', htracked.append hr htracked'⟩
  rw [List.forall_mem_append]
  exact ⟨fun r hr => List.mem_append_left _ (hkinds r hr),
    fun r hr => List.mem_append_right _ (hkinds' r hr)⟩

/-- A node that has no label, nor a name if it is a jump, takes in the nodes at the top. -/
theorem wrap (h : Tracks t row kind l kinds ids l') (hmade : Made row loose l' kind range id l'')
    (hholds : Holds l'' id ids) (hlabel : kind ≠ .labeledStatement)
    (hname : kind.isJump = true → ids = []) (hin : kind.isBodyIn parent = false) :
    Tracks t row parent l [kind] [id] l'' := by
  intro hr hs
  obtain ⟨-, ls, js, htracked⟩ := h hr (hs.of_grows hmade.grows)
  refine ⟨?_, ls, js, htracked.wrap hmade hholds hs hlabel hname hin⟩
  rw [List.forall_mem_singleton, (hs.parents hmade hholds).kind_eq]
  exact List.mem_singleton_self kind

theorem wrap_plain (h : Tracks t row kind l kinds ids l')
    (hmade : Made row loose l' kind range id l'') (hholds : Holds l'' id ids)
    (hplain : kind.isPlain = true) (hin : kind.isBodyIn parent = false) :
    Tracks t row parent l [kind] [id] l'' := by
  obtain ⟨hjump, hlabel⟩ := NodeKind.not_isJump_of_isPlain hplain
  exact h.wrap hmade hholds hlabel (fun h => absurd h (by simp [hjump])) hin

end Tracks

/-- An identifier over one token is written like that token. -/
theorem Shows.spelling? {i : Nat} (h : Shows t row l) (hid : id.index < l.spans.size)
    (hchildren : (l.draft.node id).children = [.token ⟨i⟩]) :
    t.identifierToken? id = some ⟨i⟩ ∧ t.spelling? id = some (row.token ⟨i⟩).text := by
  have htoken : t.identifierToken? id = some ⟨i⟩ := by
    rw [SyntaxTree.identifierToken?, SyntaxTree.childTokens, h.childElements_eq id hid, hchildren]
    rfl
  refine ⟨htoken, ?_⟩
  rw [SyntaxTree.spelling?, htoken, ← h.row_eq]
  rfl

/-- A statement has the label whose name is its only identifier. -/
theorem Parents.hasLabel {u : NodeId} {label : String} {kinds : List NodeKind}
    (h : Parents t id .labeledStatement (u :: ids)) (hkind : t.kind u = .identifier)
    (hkinds : ∀ r ∈ ids, t.kind r ∈ kinds) (hident : .identifier ∉ kinds)
    (hspelled : t.spelling? u = some label) : t.HasLabel id label := by
  have hfound : ∃ c, t.childOfKind? id .identifier = some c := by
    refine Option.isSome_iff_exists.1 (List.find?_isSome.2 ⟨u, ?_, ?_⟩)
    · exact SyntaxTree.mem_children.2 (h.mem u List.mem_cons_self)
    · simp [hkind]
  obtain ⟨c, hc⟩ := hfound
  have hmem := SyntaxTree.mem_children.1 (List.mem_of_find?_eq_some hc)
  have hckind : t.kind c = .identifier := by simpa using List.find?_some hc
  have heq : c = u := by
    rcases h.of_mem c hmem with hmem | hempty
    · rcases List.mem_cons.1 hmem with rfl | hmem
      · rfl
      · exact absurd (hckind ▸ hkinds c hmem) hident
    · rw [hckind] at hempty
      cases hempty
  refine ⟨h.kind_eq, ?_⟩
  rw [SyntaxTree.nameOf?, hc, heq]
  exact hspelled

/-- An identifier is made over the token that it is written with. -/
theorem leaf_holds (ho : row.Ordered) (h : Drafted row l loose) :
    Ensures (leaf kind range) l fun id l' =>
      Made row loose l kind range id l' ∧ Holds l' id [] ∧
        ∀ i, row.span? range = some (⟨i⟩, ⟨i⟩) →
          (l'.draft.node id).children = [.token ⟨i⟩] := by
  have hleaf : Ensures (leaf kind range) l fun id l' =>
      Made row loose l kind range id l' ∧ Holds l' id [] :=
    nodeOver_holds ho (h : Drafted row l ([] ++ loose))
  have htoken : Ensures (leaf kind range) l fun id l' =>
      ∀ i, row.span? range = some (⟨i⟩, ⟨i⟩) →
        (l'.draft.node id).children = [.token ⟨i⟩] := by
    intro id l' hrun i hspan
    exact leaf_over_token h hspan id l' hrun
  exact (hleaf.and htoken).mono fun id l' ⟨⟨hmade, hholds⟩, hover⟩ => ⟨hmade, hholds, hover⟩

/-- A node without child nodes that has no label. -/
theorem Tracks.leaf (hmade : Made row loose l kind range id l') (hholds : Holds l' id [])
    (hlabel : kind ≠ .labeledStatement) (hin : kind.isBodyIn parent = false) :
    Tracks t row parent l [kind] [id] l' :=
  (@Tracks.nil row l kind t []).wrap hmade hholds hlabel (fun _ => rfl) hin

theorem record_ensures (f : Occurrences → Occurrences) :
    Ensures (record f) l fun _ l' => l' = { l with occurrences := f l.occurrences } := by
  rintro _ l' ⟨⟩
  rfl

/-- A step in a body starts without open labels, and the labels around it are restored behind it. -/
theorem inBody_hides {α : Type} {step : Step α} {mid post : α → Layout → Prop}
    (hstep : Ensures step { l with occurrences := l.occurrences.enterBody.2 } mid)
    (hpost : ∀ a l', mid a l' → post a
      { l' with occurrences := l'.occurrences.exitBody l.occurrences.labels.active }) :
    Ensures (inBody step) l post := by
  unfold inBody
  refine .get ?_
  have hopen : Ensures (modify fun l' => { l' with occurrences := l.occurrences.enterBody.2 } :
      Step PUnit) l fun _ l' => l' = { l with occurrences := l.occurrences.enterBody.2 } := by
    rintro _ l' ⟨⟩
    rfl
  refine hopen.bind fun _ l₁ hl => ?_
  subst hl
  refine hstep.bind fun a l₂ h₂ => (record_ensures _).bind fun _ l₃ hl => ?_
  subst hl
  exact .pure (hpost a l₂ h₂)

mutual

theorem lay_tracks (ho : row.Ordered) (hc : row.Carries raw) :
    ∀ (shape : Shape) {l : Layout} {loose : List NodeId} {parent : NodeKind} {lo hi : Nat},
      Drafted row l loose → shape.Sits parent → shape.Fenced → Fits raw shape lo hi →
      Ensures (lay shape) l fun ids l' => Tracks t row parent l shape.kinds ids l'
  | .ident range use, l, loose, parent, lo, hi, h, hsits, _, _ => by
    simp only [Shape.Sits, Shape.kinds, List.forall_mem_singleton] at hsits ⊢
    simp only [lay]
    refine (leaf_holds ho h).bind fun id l₁ ⟨hmade, hholds, _⟩ => ?_
    have h₁ := @Tracks.leaf row l l₁ loose id _ parent range t hmade hholds nofun hsits
    cases use with
    | none => exact .pure h₁
    | some offset => exact (referAt_quiet offset).bind fun _ l₂ h₂ => .pure (h₁.quiet h₂)
  | .node spec children, l, loose, parent, lo, hi, h, hsits, hfenced, hfits => by
    simp only [Shape.Sits, Shape.kinds, List.forall_mem_singleton] at hsits ⊢
    simp only [Shape.Fenced] at hfenced
    simp only [Fits] at hfits
    simp only [lay]
    refine (checkWord_ensures spec).bind fun _ l₁ hl => ?_
    subst hl
    refine ((layAll_records ho children h).and
      (layAll_tracks ho hc children h hfenced.2 hfits.2)).bind fun ids l₁ ⟨hrecords, h₁⟩ => ?_
    refine (nodeOver_holds ho hrecords.drafted).bind fun id l₂ ⟨hmade, hholds⟩ => ?_
    exact (declareIf_quiet spec.declares).bind fun _ l₃ h₃ =>
      .pure ((h₁.wrap_plain hmade hholds hfenced.1 hsits).quiet h₃)
  | .typed spec before typeShape type ellipsis after, l, loose, parent, lo, hi, h, hsits, hfenced,
    hfits => by
    simp only [Shape.Sits, Shape.kinds, List.forall_mem_singleton] at hsits ⊢
    simp only [Shape.Fenced] at hfenced
    obtain ⟨hplain, hbefore, ⟨htypeSits, htype⟩, hafter⟩ := hfenced
    simp only [Fits] at hfits
    obtain ⟨-, _, _, -, hfitsBefore, -, hfitsType, -, hfitsAfter⟩ := hfits
    simp only [lay]
    refine ((layAll_records ho before h).and
      (layAll_tracks ho hc before h hbefore hfitsBefore)).bind fun ids₁ l₁ ⟨hrecords₁, h₁⟩ => ?_
    refine ((lay_records ho typeShape hrecords₁.drafted).and
      (lay_tracks ho hc typeShape hrecords₁.drafted htypeSits htype hfitsType)).bind
        fun ids₂ l₂ ⟨hrecords₂, h₂⟩ => ?_
    have hrecords₁₂ := hrecords₁.append hrecords₂
    refine ((layAll_records ho after hrecords₁₂.drafted).and
      (layAll_tracks ho hc after hrecords₁₂.drafted hafter hfitsAfter)).bind
        fun ids₃ l₃ ⟨hrecords₃, h₃⟩ => ?_
    have h₁₃ := (h₁.append hrecords₂.recorded.grows h₂).append hrecords₃.recorded.grows h₃
    refine (nodeOver_holds ho (hrecords₁₂.append hrecords₃).drafted).bind
      fun id l₄ ⟨hmade, hholds⟩ => ?_
    refine (setTypes_quiet id ids₂ type ellipsis ids₃).bind fun _ l₅ h₅ => ?_
    exact (declareIf_quiet spec.declares).bind fun _ l₆ h₆ =>
      .pure ((h₁₃.wrap_plain hmade hholds hplain hsits).quiet (h₅.trans h₆))
  | .clause kind word range types, l, loose, parent, lo, hi, h, hsits, hfenced, hfits => by
    simp only [Shape.Sits, Shape.kinds, List.forall_mem_singleton] at hsits ⊢
    simp only [Shape.Fenced] at hfenced
    simp only [Fits] at hfits
    obtain ⟨_, -, -, -, -, hfitsTypes⟩ := hfits
    simp only [lay]
    refine (clauseRange_ensures kind.node word range).bind fun found l₁ hl => ?_
    subst hl
    refine ((layAll_records ho types h).and
      (layAll_tracks ho hc types h hfenced hfitsTypes)).bind fun ids l₁ ⟨hrecords, h₁⟩ => ?_
    have hplain : kind.node.isPlain = true := by cases kind <;> rfl
    exact (nodeOver_holds ho hrecords.drafted).bind fun id l₂ ⟨hmade, hholds⟩ =>
      .pure (h₁.wrap_plain hmade hholds hplain hsits)
  | .variables start terminated before typeShape type fragments, l, loose, parent, lo, hi, h, hsits,
    hfenced, hfits => by
    simp only [Shape.Sits, Shape.kinds, List.forall_mem_singleton] at hsits ⊢
    simp only [Shape.Fenced] at hfenced
    obtain ⟨hbefore, ⟨htypeSits, htype⟩, hfragments⟩ := hfenced
    simp only [Fits] at hfits
    obtain ⟨-, hne, _, _, -, hfitsBefore, -, hfitsType, hfitsFragments⟩ := hfits
    simp only [lay, List.isEmpty_eq_false_iff.2 hne, Bool.false_eq_true, if_false]
    refine ((layAll_records ho before h).and
      (layAll_tracks ho hc before h hbefore hfitsBefore)).bind fun ids₁ l₁ ⟨hrecords₁, h₁⟩ => ?_
    refine ((lay_records ho typeShape hrecords₁.drafted).and
      (lay_tracks ho hc typeShape hrecords₁.drafted htypeSits htype hfitsType)).bind
        fun ids₂ l₂ ⟨hrecords₂, h₂⟩ => ?_
    exact layFragments_tracks ho hc fragments (hrecords₁.append hrecords₂).drafted
      (h₁.append hrecords₂.recorded.grows h₂) hsits hfragments hfitsFragments
      fun hnil => absurd hnil hne
  | .labeled range label body, l, loose, parent, lo, hi, h, hsits, hfenced, hfits => by
    simp only [Shape.Sits, Shape.kinds, List.forall_mem_singleton] at hsits ⊢
    simp only [Shape.Fenced] at hfenced
    obtain ⟨hident, hbody⟩ := hfenced
    simp only [Fits] at hfits
    obtain ⟨-, hspelled, _, -, -, hfitsBody⟩ := hfits
    obtain ⟨i, hspan, htext⟩ := hc.spelled hspelled
    simp only [lay]
    refine (leaf_holds ho h).bind fun u l₁ ⟨hmade₁, hholds₁, hover⟩ => ?_
    refine (record_ensures _).bind fun _ l₂ h₂ => ?_
    have halike : Alike l₁ l₂ := by
      subst h₂
      exact ⟨rfl, rfl, rfl⟩
    have hdrafted₂ := hmade₁.drafted.alike halike
    refine ((layAll_records ho body hdrafted₂).and
      (layAll_tracks ho hc body hdrafted₂ hbody hfitsBody)).bind fun ids l₃ ⟨hrecords₃, h₃⟩ => ?_
    have hdrafted₃ : Drafted row l₃ (u :: ids ++ loose) := hrecords₃.drafted.congr fun id => by
      simp only [List.cons_append, List.count_append, List.count_cons]
      omega
    refine (nodeOver_holds ho hdrafted₃).bind fun id l₄ ⟨hmade₄, hholds₄⟩ => ?_
    refine (record_ensures _).bind fun _ l₅ h₅ => .pure fun hr hs => ?_
    have hs₄ : Shows t row l₄ := by
      subst h₅
      exact ⟨hs.row_eq, hs.parent?_eq, hs.kind_eq, hs.childElements_eq⟩
    have hs₃ := hs₄.of_grows hmade₄.grows
    have hs₂ := hs₃.of_grows hrecords₃.recorded.grows
    have hs₁ := hs₂.of_grows (halike.grows (by rw [h₂]))
    have hstill : Still t l l₁ := .made hmade₁ hholds₁ hs₁ nofun nofun
    have hready : Ready l₂ := by
      subst h₂
      exact ⟨valid_enter (hstill.ready hr).valid label.text, (hstill.ready hr).fresh⟩
    obtain ⟨hkinds, ls, js, htracked⟩ := h₃ hready hs₃
    have hlabel : t.HasLabel id label.text :=
      (hs₄.parents hmade₄ hholds₄).hasLabel
        ((hs₁.kind_eq u hmade₁.lt_size).trans hmade₁.kind_eq) hkinds hident
        (htext ▸ (hs₁.spelling? hmade₁.lt_size (hover i hspan)).2)
    refine ⟨?_, _, _, htracked.labeled hr hstill h₂ hmade₄ hholds₄ h₅ hs hlabel hsits⟩
    rw [List.forall_mem_singleton, hlabel.1]
    exact List.mem_singleton_self _
  | .jump kind range none, l, loose, parent, lo, hi, h, hsits, hfenced, hfits => by
    simp only [Shape.Sits, Shape.kinds, List.forall_mem_singleton] at hsits ⊢
    simp only [lay]
    simp only [Shape.Fenced] at hfenced
    have hlabel : kind ≠ .labeledStatement := by
      rintro rfl
      cases hfenced
    exact (leaf_holds ho h).bind fun id l₁ ⟨hmade, hholds, _⟩ =>
      .pure (.leaf hmade hholds hlabel hsits)
  | .jump kind range (some label), l, loose, parent, lo, hi, h, hsits, hfenced, hfits => by
    simp only [Shape.Sits, Shape.kinds, List.forall_mem_singleton] at hsits ⊢
    simp only [Shape.Fenced] at hfenced
    simp only [Fits] at hfits
    obtain ⟨i, hspan, htext⟩ := hc.spelled hfits.2.1
    simp only [lay]
    refine (leaf_holds ho h).bind fun u l₁ ⟨hmade₁, _, hover⟩ => ?_
    refine (record_ensures _).bind fun _ l₂ h₂ => ?_
    have halike : Alike l₁ l₂ := by
      subst h₂
      exact ⟨rfl, rfl, rfl⟩
    refine (nodeOver_holds ho (hmade₁.drafted.alike halike : Drafted row l₂ ([u] ++ loose))).bind
      fun id l₃ ⟨hmade₃, hholds₃⟩ => .pure fun hr hs => ?_
    have hs₁ := (hs.of_grows hmade₃.grows).of_grows (halike.grows (by rw [h₂]))
    have hspelled : t.spelling? u = some label.text :=
      htext ▸ (hs₁.spelling? hmade₁.lt_size (hover i hspan)).2
    refine ⟨?_, _, _, .jump hr hmade₁ h₂ hmade₃ hholds₃ hs hfenced hsits hspelled⟩
    rw [List.forall_mem_singleton, (hs.parents hmade₃ hholds₃).kind_eq]
    exact List.mem_singleton_self kind
  | .body inside, l, loose, parent, lo, hi, h, hsits, hfenced, hfits => by
    simp only [Shape.Sits] at hsits
    simp only [Shape.Fenced] at hfenced
    simp only [Fits] at hfits
    simp only [lay, Shape.kinds]
    have hstart : Drafted row { l with occurrences := l.occurrences.enterBody.2 } loose :=
      h.alike ⟨rfl, rfl, rfl⟩
    refine inBody_hides (layAll_tracks ho hc inside hstart hfenced hfits) fun ids l₂ h₂ => ?_
    intro hr hs
    obtain ⟨hkinds, ls, js, htracked⟩ := h₂ ⟨nofun, hr.fresh⟩
      ⟨hs.row_eq, hs.parent?_eq, hs.kind_eq, hs.childElements_eq⟩
    exact ⟨hkinds, ls, js, htracked.hidden rfl rfl fun r hr => hsits _ (hkinds r hr)⟩

/-- Shapes that are laid leave of labels and jumps what their tree tells of them. -/
theorem layAll_tracks (ho : row.Ordered) (hc : row.Carries raw) :
    ∀ (shapes : List Shape) {l : Layout} {loose : List NodeId} {parent : NodeKind} {lo hi : Nat},
      Drafted row l loose → AllFenced parent shapes → Placed raw shapes lo hi →
      Ensures (layAll shapes) l fun ids l' => Tracks t row parent l (kindsOf shapes) ids l'
  | [], l, loose, parent, lo, hi, h, _, _ => by
    simp only [layAll]
    exact .pure .nil
  | s :: ss, l, loose, parent, lo, hi, h, hfenced, hplaced => by
    simp only [AllFenced] at hfenced
    simp only [Placed] at hplaced
    obtain ⟨_, -, -, hfits, hothers⟩ := hplaced
    simp only [layAll, kindsOf]
    refine ((lay_records ho s h).and (lay_tracks ho hc s h hfenced.1.1 hfenced.1.2 hfits)).bind
      fun ids₁ l₁ ⟨hrecords₁, h₁⟩ => ?_
    exact ((layAll_records ho ss hrecords₁.drafted).and
      (layAll_tracks ho hc ss hrecords₁.drafted hfenced.2 hothers)).bind
        fun ids₂ l₂ ⟨hrecords₂, h₂⟩ => .pure (h₁.append hrecords₂.recorded.grows h₂)

theorem layFragments_tracks (ho : row.Ordered) (hc : row.Carries raw) {terminated : Bool}
    {types : List NodeId} {type : TypeRef} :
    ∀ (fragments : List FragmentShape) {l₀ l : Layout} {loose before : List NodeId}
      {parent : NodeKind} {kinds : List NodeKind} {start first lo hi : Nat},
      Drafted row l (before ++ loose) → Tracks t row .variableDecl l₀ kinds before l →
      NodeKind.variableDecl.isBodyIn parent = false → FragmentsFenced fragments →
      FragmentsFit raw terminated fragments first lo hi → (fragments = [] → before = []) →
      Ensures (layFragments terminated start types type before fragments) l fun ids l' =>
        Tracks t row parent l₀ [.variableDecl] ids l'
  | [], l₀, l, loose, before, parent, kinds, start, first, lo, hi, h, h₀, _, _, _, hnil => by
    simp only [layFragments]
    rw [hnil rfl] at h₀
    exact .pure h₀.below
  | .mk range name inside :: fragments, l₀, l, loose, before, parent, kinds, start, first, lo, hi,
    h, h₀, hin, hfenced, hfits, _ => by
    simp only [FragmentsFenced] at hfenced
    simp only [FragmentsFit] at hfits
    obtain ⟨_, -, hend, -, ⟨_, -, -, hfitsInside⟩, -, hfitsOthers⟩ := hfits
    simp only [layFragments]
    refine (fragmentStop_succeeds hc h hend).ensures.bind fun stop l₁ ⟨hstop, hl⟩ => ?_
    subst hstop hl
    refine (leaf_holds ho h).bind fun id l₂ ⟨hmade₁, hholds₁, _⟩ => ?_
    have h₁ := @Tracks.leaf row l₁ l₂ _ id _ .variableDecl _ t hmade₁ hholds₁ nofun rfl
    have h₀₁ := h₀.append hmade₁.grows h₁
    have hdrafted₁ : Drafted row l₂ (before ++ [id] ++ loose) := hmade₁.drafted.congr fun id' => by
      simp only [List.count_append, List.count_cons, List.count_nil]
      omega
    refine ((layAll_records ho inside hdrafted₁).and
      (layAll_tracks ho hc inside hdrafted₁ hfenced.1 hfitsInside)).bind
        fun ids l₃ ⟨hrecords₂, h₂⟩ => ?_
    have h₀₂ := h₀₁.append hrecords₂.recorded.grows h₂
    have hdrafted₂ : Drafted row l₃ (before ++ id :: ids ++ loose) :=
      hrecords₂.drafted.congr fun id' => by
        simp only [List.count_append, List.count_cons, List.count_nil]
        omega
    rw [List.append_assoc before, List.singleton_append] at h₀₂
    refine (nodeOver_holds ho hdrafted₂).bind fun decl l₄ ⟨hmade₃, hholds₃⟩ => ?_
    have h₀₃ := h₀₂.wrap_plain hmade₃ hholds₃ rfl hin
    refine (setTypes_quiet decl types type none ids).bind fun _ l₅ h₄ => ?_
    refine (declareAt_quiet name.range.start).bind fun _ l₆ h₅ => ?_
    have h₀₆ := h₀₃.quiet (h₄.trans h₅)
    have hdrafted₆ := hmade₃.drafted.alike (h₄.trans h₅).toAlike
    have hnone : Records row (decl :: loose) l₆ [] [] l₆ := ⟨hdrafted₆, .idle (.refl l₆)⟩
    have hothers : Ensures (layFragments terminated (nextStart stop fragments) types type []
        fragments) l₆ fun ids l' =>
          Grows l₆ l' ∧ Tracks t row parent l₆ [.variableDecl] ids l' := by
      refine ((layFragments_records ho fragments hnone fun _ => rfl).and
        (layFragments_tracks ho hc fragments hnone.drafted (@Tracks.nil row l₆ _ t []) hin hfenced.2
          hfitsOthers fun _ => rfl)).mono fun ids l' ⟨hrecords, htracks⟩ => ⟨?_, htracks⟩
      exact hrecords.recorded.grows
    refine hothers.bind fun ids' l₇ ⟨hgrows, h₆⟩ => .pure ?_
    exact (h₀₆.append hgrows h₆).mono fun k hk => by simpa using hk

end

/-! ## The labels of a file -/

/-- Nodes that were finished are shown by the tree. -/
theorem shows_of_ofDraft {text : String} {root : NodeId} (hb : l.draft.BottomUp row)
    (hsize : l.spans.size = l.draft.nodes.size)
    (ht : SyntaxTree.ofDraft text row l.draft root = .ok t) : Shows t row l := by
  have hformed := SyntaxTree.formed_of_ofDraft hb ht
  obtain ⟨-, ends, -, owners, -, links, -, os, -, -, rfl⟩ := SyntaxTree.ofDraft_eq_ok.1 ht
  refine ⟨rfl, fun c p hc => ?_, fun id hid => ?_, fun id hid => SyntaxTree.childElements_finished⟩
  · obtain ⟨k, hk⟩ := List.getElem?_of_mem hc
    exact ((hformed.slot_iff p k c).1 hk).1
  · rw [SyntaxTree.kind, SyntaxTree.node_finished (hsize ▸ hid)]
    rfl

/-- Above the root of a file there are no labels. -/
theorem root_tracks {l₁ l₂ : Layout} {kinds : List NodeKind} {span : TokenId × TokenId}
    (hready : Ready l) (h₁ : Tracks t row .compilationUnit l kinds ids l₁) (h₂ : Fills l₁ l₂)
    (hids : ∀ r ∈ ids, .node r ∈ es) (hsize : l₂.spans.size = l₂.draft.nodes.size)
    (h₃ : Allocated l₂ .compilationUnit es span id l') (hactive : l.occurrences.labels.active = [])
    (hshows : Shows t row l') (hroot : t.parent? id = none) :
    ∃ ls js, Tracked t .compilationUnit l [] ls js l' := by
  have hid : id.index < l'.spans.size := by
    have := h₃.size_eq
    omega
  have hkind : t.kind id = .compilationUnit := by
    rw [hshows.kind_eq id hid, h₃.node_eq hsize]
  have hparent : ∀ r ∈ ids, t.parent? r = some id := fun r hr => by
    refine hshows.parent?_eq r id ?_
    rw [hshows.childElements_eq id hid, h₃.node_eq hsize]
    exact hids r hr
  have hnew : ∀ x, Between l₁ l' x → t.kind x = .compilationUnit ∨ t.kind x = .emptyDecl := by
    intro x hx
    rw [hshows.kind_eq x hx.2]
    by_cases hlt : x.index < l₂.spans.size
    · rw [h₃.grows.node_eq x hlt]
      exact .inr (h₂.kind_eq x hx.1 hlt)
    · have hlast := h₃.size_eq
      have hindex := h₃.index_eq
      have hupto := hx.2
      have heq : x = id := congrArg NodeId.mk (by omega)
      rw [heq, h₃.node_eq hsize]
      exact .inl rfl
  have hstill : Still t l₁ l' := by
    refine ⟨(h₂.toGrows.trans h₃.grows).size_le, ?_, ?_, fun x hx => ?_, fun x hx hjump => ?_⟩
    · rw [h₃.occurrences_eq, h₂.occurrences_eq]
    · rw [h₃.occurrences_eq, h₂.occurrences_eq]
    · rcases hnew x hx with hx | hx <;> simp [hx]
    · rcases hnew x hx with hx | hx <;> rw [hx] at hjump <;> cases hjump
  obtain ⟨-, ls, js, htracked⟩ := h₁ hready ((hshows.of_grows h₃.grows).of_grows h₂.toGrows)
  refine ⟨ls, js, htracked.still hstill fun name j hend => ?_⟩
  cases hend with
  | closed hnew hreaches => exact .closed hnew hreaches
  | loose r hr hreaches hgoal =>
    have hfind : l.occurrences.labels.find? name = none := by
      unfold Labels.find?
      rw [hactive]
      rfl
    rw [hfind, ite_self] at hgoal
    refine .nowhere hgoal fun x hx => ?_
    rw [hreaches] at hx
    cases hbody : (t.kind r).isBodyIn (t.kind id) with
    | true => exact SyntaxTree.not_reaches_of_isBodyIn (hparent r hr) hbody x hx
    | false =>
      have hnone : ¬ t.HasLabel id name := fun ⟨hlabeled, _⟩ => by
        rw [hkind] at hlabeled
        cases hlabeled
      rw [SyntaxTree.reaches_iff_parent (hparent r hr) hbody hnone] at hx
      exact SyntaxTree.not_reaches_of_root hroot x hx

/-- What is laid of a file agrees with its tree on labels and jumps. -/
theorem layUnit_tracks (ho : row.Ordered) (hc : row.Carries raw) {unit : CompilationUnit}
    {length : Nat} {boundAt? : Nat → Option BindingId} (t : SyntaxTree)
    (hrange : unit.range = .upTo length) (hshapes : ∀ s ∈ unit.shapes, EndsBy length s)
    (hplaced : Placed raw unit.shapes 0 length) (hfenced : AllFenced .compilationUnit unit.shapes) :
    Ensures (layUnit unit) (.start row boundAt?) fun root l' =>
      Shows t row l' → t.parent? root = none →
        ∃ ls js, Tracked t .compilationUnit (.start row boundAt?) [] ls js l' := by
  have hstart := drafted_start row boundAt?
  have hready : Ready (.start row boundAt?) := by
    refine ⟨nofun, fun x _ => ?_⟩
    simp [Layout.start, Occurrences.empty]
  have hlaid := (layAll_records ho unit.shapes hstart).and
    (@layAll_tracks row raw t ho hc unit.shapes _ _ _ _ _ hstart hfenced hplaced)
  unfold layUnit
  cases hspan : row.span? unit.range with
  | none =>
    have hnone := layAll_nil_of_span? ho hshapes (hrange ▸ hspan) hstart
    refine (hlaid.and hnone).bind fun ids l₁ ⟨⟨h₁, htracks⟩, hnil⟩ => .get ?_
    subst hnil
    rw [h₁.drafted.row_eq, hspan]
    have hsize := h₁.drafted.size_eq
    exact (allocate_ensures hsize).mono fun root l₂ h₂ =>
      root_tracks hready htracks (.refl l₁) nofun hsize h₂ rfl
  | some span =>
    refine hlaid.bind fun ids l₁ ⟨h₁, htracks⟩ => .get ?_
    obtain ⟨hle, hlt⟩ := span_le ho hspan
    rw [h₁.drafted.row_eq, hspan]
    refine ((elements_nodes h₁.drafted hlt).and (elements_woven h₁.drafted hlt hle)).bind
      fun es l₂ ⟨⟨hmem, _⟩, hwoven⟩ => ?_
    have hsize := hwoven.drafted.size_eq
    exact (allocate_ensures hsize).mono fun root l₃ h₃ =>
      root_tracks hready htracks hwoven.fills (fun r hr => List.mem_append_left _ (hmem r hr)) hsize
        h₃ rfl

end Layout

end JavaAnalysis
