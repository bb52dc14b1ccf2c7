import JavaAnalysis.Proofs.Layout.Jumps

/-!
# Declarations inside shapes

Whatever shapes are laid: each declaration of variables inside them is laid on the way, its nodes
get one parent or stay at the top together, and what is recorded as the declared type of a node
stays. Main statements: `layAll_contains`, `layUnit_contains`.
-/

set_option autoImplicit false
set_option linter.dupNamespace false

namespace JavaAnalysis

mutual

/-- The declarations of variables in a shape, each before those inside it. -/
def Shape.declarations : Shape → List Shape
  | .ident _ _ => []
  | .node _ children => declarationsAmong children
  | .typed _ before typeShape _ _ after =>
    declarationsAmong before ++ typeShape.declarations ++ declarationsAmong after
  | .clause _ _ _ types => declarationsAmong types
  | .variables start terminated before typeShape type fragments =>
    .variables start terminated before typeShape type fragments ::
      (declarationsAmong before ++ typeShape.declarations ++ declarationsInside fragments)
  | .labeled _ _ body => declarationsAmong body
  | .jump _ _ _ => []
  | .body inside => declarationsAmong inside

def declarationsAmong : List Shape → List Shape
  | [] => []
  | s :: ss => s.declarations ++ declarationsAmong ss

def declarationsInside : List FragmentShape → List Shape
  | [] => []
  | .mk _ _ inside :: fragments => declarationsAmong inside ++ declarationsInside fragments

end

@[simp]
theorem declarationsAmong_nil : declarationsAmong [] = [] := by simp only [declarationsAmong]

@[simp]
theorem declarationsAmong_cons (s : Shape) (ss : List Shape) :
    declarationsAmong (s :: ss) = s.declarations ++ declarationsAmong ss := by
  simp only [declarationsAmong]

@[simp]
theorem declarationsAmong_append (as bs : List Shape) :
    declarationsAmong (as ++ bs) = declarationsAmong as ++ declarationsAmong bs := by
  induction as with
  | nil => simp
  | cons s ss ih => simp [ih]

/-! ## Nodes as keys -/

theorem NodeId.compare_eq (a b : NodeId) : compare a b = compare a.index b.index := by
  show (compare a.index b.index).then .eq = _
  cases compare a.index b.index <;> rfl

instance : Std.TransOrd NodeId where
  eq_swap {a b} := by
    rw [NodeId.compare_eq, NodeId.compare_eq]
    exact Std.OrientedCmp.eq_swap
  isLE_trans {a b c} h h' := by
    rw [NodeId.compare_eq] at h h' ⊢
    exact Std.TransCmp.isLE_trans h h'

instance : Std.LawfulEqOrd NodeId where
  compare_self {a} := by
    rw [NodeId.compare_eq]
    exact Std.ReflCmp.compare_self
  eq_of_compare {a b} h := by
    rw [NodeId.compare_eq] at h
    exact congrArg NodeId.mk (Std.LawfulEqCmp.eq_of_compare h)

namespace Layout

open TreeDraft Ast

variable {row : TokenRow} {raw : List Lexeme} {l l' l'' : Layout} {loose ids ids' : List NodeId}
  {id : NodeId} {gaps : Gaps} {kind : NodeKind} {range : TextRange} {next n : Nat}
  {vs us : List Shape} {v : Shape}

/-! ## Declared types -/

/-- The nodes that were there are still there, with the types that they were declared with. -/
structure Keeps (l l' : Layout) : Prop extends Grows l l' where
  declaredType_eq : ∀ id : NodeId, id.index < l.spans.size →
    l'.draft.declaredTypes[id]? = l.draft.declaredTypes[id]?

theorem Keeps.refl (l : Layout) : Keeps l l := ⟨.refl l, fun _ _ => rfl⟩

theorem Keeps.trans (h : Keeps l l') (h' : Keeps l' l'') : Keeps l l'' := by
  refine ⟨h.toGrows.trans h'.toGrows, fun id hid => ?_⟩
  rw [h'.declaredType_eq id (Nat.lt_of_lt_of_le hid h.size_le), h.declaredType_eq id hid]

/-- A step that only enters what is declared and used. -/
def Enrolls (l l' : Layout) : Prop := ∃ occurrences, l' = { l with occurrences }

theorem Enrolls.keeps (h : Enrolls l l') : Keeps l l' := by
  obtain ⟨occurrences, rfl⟩ := h
  exact ⟨⟨⟨Nat.le_refl _, fun _ _ => rfl⟩, fun _ _ => rfl, rfl⟩, fun _ _ => rfl⟩

theorem record_enrolls (f : Occurrences → Occurrences) :
    Ensures (record f) l fun _ l' => Enrolls l l' :=
  (record_ensures f).mono fun _ _ h => ⟨_, h⟩

theorem declareAt_enrolls (offset : Nat) :
    Ensures (declareAt offset id) l fun _ l' => Enrolls l l' := by
  unfold declareAt
  refine .get ?_
  split
  · exact record_enrolls _
  · exact .pure ⟨_, rfl⟩

theorem referAt_enrolls (offset : Nat) :
    Ensures (referAt offset id) l fun _ l' => Enrolls l l' := by
  unfold referAt
  refine .get ?_
  split
  · exact record_enrolls _
  · exact .pure ⟨_, rfl⟩

theorem declareIf_enrolls (offset : Option Nat) :
    Ensures (declareIf offset id) l fun _ l' => Enrolls l l' := by
  cases offset with
  | none => exact .pure ⟨_, rfl⟩
  | some o => exact declareAt_enrolls o

/-- New nodes have no declared type yet, and old ones keep theirs. -/
theorem allocate_types {es : List Element} {span : TokenId × TokenId} :
    Ensures (allocate kind es span) l fun _ l' => l'.draft.declaredTypes = l.draft.declaredTypes := by
  rintro id l' ⟨⟩
  rfl

theorem gapsFrom_types : Ensures (gapsFrom gaps n next) l fun _ l' =>
    l'.draft.declaredTypes = l.draft.declaredTypes := by
  induction n generalizing next l with
  | zero => exact .pure rfl
  | succ n ih =>
    have hgap : Ensures (gap gaps ⟨next⟩) l fun _ l' =>
        l'.draft.declaredTypes = l.draft.declaredTypes := by
      unfold gap
      cases gaps with
      | tokens => exact .pure rfl
      | declarations keep =>
        refine .get ?_
        split
        · exact allocate_types.bind fun _ _ h => .pure h
        · exact .pure rfl
    exact hgap.bind fun _ _ h => ih.bind fun _ _ h' => .pure (h'.trans h)

theorem interleave_types {last : TokenId} : Ensures (interleave kind gaps last next ids) l
    fun _ l' => l'.draft.declaredTypes = l.draft.declaredTypes := by
  induction ids generalizing next l with
  | nil => exact gapsFrom_types
  | cons id ids ih =>
    unfold interleave
    refine .get ?_
    dsimp only
    split
    · exact .throw_bind
    · exact gapsFrom_types.bind fun _ _ h => ih.bind fun _ _ h' => .pure (h'.trans h)

theorem nodeOver_types {rule : GapRule} : Ensures (nodeOver kind range ids rule) l fun _ l' =>
    l'.draft.declaredTypes = l.draft.declaredTypes := by
  unfold nodeOver
  refine .get ?_
  split
  · exact .throw
  · exact (Ensures.get interleave_types).bind fun _ _ h => allocate_types.mono fun _ _ h' =>
      h'.trans h

/-- A node that is made leaves the others as they are. -/
theorem nodeOver_keeps {rule : GapRule} (ho : row.Ordered) (h : Drafted row l (ids ++ loose)) :
    Ensures (nodeOver kind range ids rule) l fun id l' =>
      Made row loose l kind range id l' ∧ Holds l' id ids ∧ Keeps l l' :=
  ((nodeOver_holds ho h).and nodeOver_types).mono fun id l' ⟨⟨hmade, hholds⟩, htypes⟩ =>
    ⟨hmade, hholds, hmade.grows, fun _ _ => by rw [htypes]⟩

/-- The type is declared of the one node, the last of the given types counting. -/
theorem setTypes_sets (id : NodeId) (types : List NodeId) (type : TypeRef)
    (ellipsis : Option TextRange) (after : List NodeId) :
    Ensures (types.forM fun typeNode => setType id typeNode type ellipsis after) l fun _ l' =>
      Alike l l' ∧ l'.boundAt? = l.boundAt? ∧
      (∀ other, other ≠ id → l'.draft.declaredTypes[other]? = l.draft.declaredTypes[other]?) ∧
      ∀ typeNode, types = [typeNode] →
        l'.draft.declaredTypes[id]? = some (l.declaredType typeNode type ellipsis after) := by
  induction types generalizing l with
  | nil => exact .pure ⟨.refl l, rfl, fun _ _ => rfl, nofun⟩
  | cons typeNode types ih =>
    have hset : Ensures (setType id typeNode type ellipsis after) l fun _ l' => Alike l l' ∧
        l'.boundAt? = l.boundAt? ∧ l'.draft.declaredTypes =
          l.draft.declaredTypes.insert id (l.declaredType typeNode type ellipsis after) := by
      rintro _ l' ⟨⟩
      exact ⟨⟨rfl, rfl, rfl⟩, rfl, rfl⟩
    refine hset.bind fun _ l₁ ⟨halike, hbound, htypes⟩ => ?_
    intro _ l₂ hrun
    obtain ⟨halike', hbound', hothers, -⟩ := ih _ l₂ hrun
    refine ⟨halike.trans halike', hbound'.trans hbound, fun other hne => ?_, fun node heq => ?_⟩
    · have hapart : ¬ compare id other = .eq := fun heq =>
        hne (Std.LawfulEqCmp.eq_of_compare heq).symm
      rw [hothers other hne, htypes, Std.TreeMap.getElem?_insert, if_neg hapart]
    · obtain ⟨rfl, rfl⟩ := List.cons.inj heq
      cases hrun
      rw [htypes, Std.TreeMap.getElem?_insert_self]

/-- A node with a declared type that is made leaves the others as they are. -/
theorem Keeps.declared {l₃ : Layout} (h : Keeps l l') (hold : l.spans.size ≤ id.index)
    (halike : Alike l' l'') (hbound : l''.boundAt? = l'.boundAt?)
    (hothers : ∀ other, other ≠ id →
      l''.draft.declaredTypes[other]? = l'.draft.declaredTypes[other]?)
    (henrolls : Enrolls l'' l₃) : Keeps l l₃ := by
  have hgrows := (h.toGrows.trans (halike.grows hbound)).trans henrolls.keeps.toGrows
  obtain ⟨occurrences, rfl⟩ := henrolls
  refine ⟨hgrows, fun other hlt => ?_⟩
  have hne : other ≠ id := by
    rintro rfl
    omega
  rw [hothers other hne, h.declaredType_eq other hlt]

/-! ## What was laid on the way -/

/--
On the way to the layout the shape was laid, which fits; the new nodes are at the top or children
of one node.
-/
def HasLaid (row : TokenRow) (raw : List Lexeme) (v : Shape) (ids : List NodeId) (l' : Layout) :
    Prop :=
  ∃ l₀ loose lo hi new l₁, Drafted row l₀ loose ∧ Fits raw v lo hi ∧ lay v l₀ = .ok (new, l₁) ∧
    Keeps l₁ l' ∧ (new ⊆ ids ∨ ∃ p : NodeId, p.index < l'.spans.size ∧
      ∀ c ∈ new, .node c ∈ (l'.draft.node p).children)

/-- From the first layout to the second the shapes were laid, among others. -/
structure Contains (row : TokenRow) (raw : List Lexeme) (l : Layout) (vs : List Shape)
    (ids : List NodeId) (l' : Layout) : Prop where
  keeps : Keeps l l'
  laid : ∀ v ∈ vs, HasLaid row raw v ids l'

theorem HasLaid.later (h : HasLaid row raw v ids l') (hkeeps : Keeps l' l'')
    (hids : ids ⊆ ids') : HasLaid row raw v ids' l'' := by
  obtain ⟨l₀, loose, lo, hi, new, l₁, hdrafted, hfits, hrun, hkept, htop⟩ := h
  refine ⟨l₀, loose, lo, hi, new, l₁, hdrafted, hfits, hrun, hkept.trans hkeeps, ?_⟩
  refine htop.imp (fun hnew => List.Subset.trans hnew hids) ?_
  rintro ⟨p, hp, hchildren⟩
  refine ⟨p, Nat.lt_of_lt_of_le hp hkeeps.size_le, fun c hc => ?_⟩
  rw [hkeeps.node_eq p hp]
  exact hchildren c hc

/-- A new node takes in what was at the top. -/
theorem HasLaid.below (h : HasLaid row raw v ids l') (hkeeps : Keeps l' l'')
    (hid : id.index < l''.spans.size)
    (hmem : ∀ c ∈ ids, .node c ∈ (l''.draft.node id).children) (top : List NodeId) :
    HasLaid row raw v top l'' := by
  obtain ⟨l₀, loose, lo, hi, new, l₁, hdrafted, hfits, hrun, hkept, htop⟩ :=
    h.later hkeeps (List.Subset.refl ids)
  refine ⟨l₀, loose, lo, hi, new, l₁, hdrafted, hfits, hrun, hkept, .inr ?_⟩
  rcases htop with hnew | hchildren
  · exact ⟨id, hid, fun c hc => hmem c (hnew hc)⟩
  · exact hchildren

namespace Contains

theorem nil (h : Keeps l l') : Contains row raw l [] ids l' := ⟨h, nofun⟩

theorem append (h : Contains row raw l vs ids l') (h' : Contains row raw l' us ids' l'') :
    Contains row raw l (vs ++ us) (ids ++ ids') l'' := by
  refine ⟨h.keeps.trans h'.keeps, ?_⟩
  rw [List.forall_mem_append]
  exact ⟨fun v hv => (h.laid v hv).later h'.keeps (List.subset_append_left _ _),
    fun v hv => (h'.laid v hv).later (.refl l'') (List.subset_append_right _ _)⟩

theorem later (h : Contains row raw l vs ids l') (hkeeps : Keeps l' l'') (hids : ids ⊆ ids') :
    Contains row raw l vs ids' l'' :=
  ⟨h.keeps.trans hkeeps, fun v hv => (h.laid v hv).later hkeeps hids⟩

/-- A new node takes in what was at the top. -/
theorem wrap (h : Contains row raw l vs ids l') (hkeeps : Keeps l' l'')
    (hid : id.index < l''.spans.size)
    (hmem : ∀ c ∈ ids, .node c ∈ (l''.draft.node id).children) (top : List NodeId) :
    Contains row raw l vs top l'' :=
  ⟨h.keeps.trans hkeeps, fun v hv => (h.laid v hv).below hkeeps hid hmem top⟩

theorem enrolls (h : Contains row raw l vs ids l') (he : Enrolls l' l'') :
    Contains row raw l vs ids l'' :=
  h.later he.keeps (List.Subset.refl ids)

/-- A node without declared type. -/
theorem node {l₃ : Layout} (h : Contains row raw l vs ids l')
    (hmade : Made row loose l' kind range id l'') (hholds : Holds l'' id ids)
    (hkeeps : Keeps l' l'') (he : Enrolls l'' l₃) : Contains row raw l vs [id] l₃ :=
  (h.wrap hkeeps hmade.lt_size hholds.mem _).enrolls he

/-- A node with a declared type. -/
theorem declared {l₃ l₄ : Layout} (h : Contains row raw l vs ids l')
    (hmade : Made row loose l' kind range id l'') (hholds : Holds l'' id ids)
    (hkeeps : Keeps l' l'') (halike : Alike l'' l₃) (hbound : l₃.boundAt? = l''.boundAt?)
    (hothers : ∀ other, other ≠ id →
      l₃.draft.declaredTypes[other]? = l''.draft.declaredTypes[other]?)
    (he : Enrolls l₃ l₄) : Contains row raw l vs [id] l₄ := by
  have hall := hkeeps.declared hmade.old_le halike hbound hothers he
  obtain ⟨occurrences, rfl⟩ := he
  refine h.wrap hall (halike.spans_eq ▸ hmade.lt_size) (fun c hc => ?_) _
  rw [TreeDraft.node, halike.nodes_eq]
  exact hholds.mem c hc

end Contains

theorem leaf_keeps (ho : row.Ordered) (h : Drafted row l loose) :
    Ensures (leaf kind range) l fun id l' => Made row loose l kind range id l' ∧ Keeps l l' :=
  (nodeOver_keeps ho (h : Drafted row l ([] ++ loose))).mono fun _ _ ⟨hmade, _, hkeeps⟩ =>
    ⟨hmade, hkeeps⟩

mutual

theorem lay_contains (ho : row.Ordered) :
    ∀ (shape : Shape) {l : Layout} {loose : List NodeId} {lo hi : Nat}, Drafted row l loose →
      Fits raw shape lo hi → Ensures (lay shape) l fun ids l' =>
        Contains row raw l shape.declarations ids l'
  | .ident range use, l, loose, lo, hi, h, _ => by
    simp only [lay, Shape.declarations]
    refine (leaf_keeps ho h).bind fun id l₁ ⟨_, hkeeps⟩ => ?_
    cases use with
    | none => exact .pure (.nil hkeeps)
    | some offset =>
      exact (referAt_enrolls offset).bind fun _ l₂ h₂ => .pure (.nil (hkeeps.trans h₂.keeps))
  | .node spec children, l, loose, lo, hi, h, hfits => by
    simp only [Fits] at hfits
    simp only [lay, Shape.declarations]
    refine (checkWord_ensures spec).bind fun _ l₁ hl => ?_
    subst hl
    refine ((layAll_records ho children h).and
      (layAll_contains ho children h hfits.2)).bind fun ids l₁ ⟨hrecords, h₁⟩ => ?_
    refine (nodeOver_keeps ho hrecords.drafted).bind fun id l₂ ⟨hmade, hholds, hkeeps⟩ => ?_
    exact (declareIf_enrolls spec.declares).bind fun _ l₃ h₃ =>
      .pure (h₁.node hmade hholds hkeeps h₃)
  | .typed spec before typeShape type ellipsis after, l, loose, lo, hi, h, hfits => by
    simp only [Fits] at hfits
    obtain ⟨-, _, _, -, hfitsBefore, -, hfitsType, -, hfitsAfter⟩ := hfits
    simp only [lay, Shape.declarations]
    refine ((layAll_records ho before h).and
      (layAll_contains ho before h hfitsBefore)).bind fun ids₁ l₁ ⟨hrecords₁, h₁⟩ => ?_
    refine ((lay_records ho typeShape hrecords₁.drafted).and
      (lay_contains ho typeShape hrecords₁.drafted hfitsType)).bind
        fun ids₂ l₂ ⟨hrecords₂, h₂⟩ => ?_
    have hrecords₁₂ := hrecords₁.append hrecords₂
    refine ((layAll_records ho after hrecords₁₂.drafted).and
      (layAll_contains ho after hrecords₁₂.drafted hfitsAfter)).bind
        fun ids₃ l₃ ⟨hrecords₃, h₃⟩ => ?_
    refine (nodeOver_keeps ho (hrecords₁₂.append hrecords₃).drafted).bind
      fun id l₄ ⟨hmade, hholds, hkeeps⟩ => ?_
    refine (setTypes_sets id ids₂ type ellipsis ids₃).bind
      fun _ l₅ ⟨halike, hbound, hothers, _⟩ => ?_
    exact (declareIf_enrolls spec.declares).bind fun _ l₆ h₆ =>
      .pure (((h₁.append h₂).append h₃).declared hmade hholds hkeeps halike hbound hothers h₆)
  | .clause kind word range types, l, loose, lo, hi, h, hfits => by
    simp only [Fits] at hfits
    obtain ⟨_, -, -, -, -, hfitsTypes⟩ := hfits
    simp only [lay, Shape.declarations]
    refine (clauseRange_ensures kind.node word range).bind fun found l₁ hl => ?_
    subst hl
    refine ((layAll_records ho types h).and
      (layAll_contains ho types h hfitsTypes)).bind fun ids l₁ ⟨hrecords, h₁⟩ => ?_
    exact (nodeOver_keeps ho hrecords.drafted).bind fun id l₂ ⟨hmade, hholds, hkeeps⟩ =>
      .pure (h₁.node hmade hholds hkeeps ⟨_, rfl⟩)
  | .variables start terminated before typeShape type fragments, l, loose, lo, hi, h, hfits => by
    have hwhole := hfits
    simp only [Fits] at hfits
    obtain ⟨-, hne, _, _, -, hfitsBefore, -, hfitsType, hfitsFragments⟩ := hfits
    have hinside : Ensures (lay (.variables start terminated before typeShape type fragments)) l
        fun ids l' => Contains row raw l (declarationsAmong before ++ typeShape.declarations ++
          declarationsInside fragments) ids l' := by
      simp only [lay, List.isEmpty_eq_false_iff.2 hne, Bool.false_eq_true, if_false]
      refine ((layAll_records ho before h).and
        (layAll_contains ho before h hfitsBefore)).bind fun ids₁ l₁ ⟨hrecords₁, h₁⟩ => ?_
      refine ((lay_records ho typeShape hrecords₁.drafted).and
        (lay_contains ho typeShape hrecords₁.drafted hfitsType)).bind
          fun ids₂ l₂ ⟨hrecords₂, h₂⟩ => ?_
      exact layFragments_contains ho fragments (hrecords₁.append hrecords₂).drafted
        (h₁.append h₂) hfitsFragments fun hnil => absurd hnil hne
    intro ids l' hrun
    have hcontains := hinside ids l' hrun
    refine ⟨hcontains.keeps, ?_⟩
    simp only [Shape.declarations, List.forall_mem_cons]
    exact ⟨⟨l, loose, lo, hi, ids, l', h, hwhole, hrun, .refl l', .inl (List.Subset.refl ids)⟩,
      hcontains.laid⟩
  | .labeled range label body, l, loose, lo, hi, h, hfits => by
    simp only [Fits] at hfits
    obtain ⟨-, -, _, -, -, hfitsBody⟩ := hfits
    simp only [lay, Shape.declarations]
    refine (leaf_keeps ho h).bind fun u l₁ ⟨hmade₁, hkeeps₁⟩ => ?_
    refine (record_enrolls _).bind fun _ l₂ h₂ => ?_
    have hdrafted₂ : Drafted row l₂ (u :: loose) := by
      obtain ⟨occurrences, rfl⟩ := h₂
      exact hmade₁.drafted.alike ⟨rfl, rfl, rfl⟩
    refine ((layAll_records ho body hdrafted₂).and
      (layAll_contains ho body hdrafted₂ hfitsBody)).bind fun ids l₃ ⟨hrecords₃, h₃⟩ => ?_
    have hdrafted₃ : Drafted row l₃ (u :: ids ++ loose) := hrecords₃.drafted.congr fun id => by
      simp only [List.cons_append, List.count_append, List.count_cons]
      omega
    have hname : Contains row raw l [] [u] l₂ := .nil (hkeeps₁.trans h₂.keeps)
    refine (nodeOver_keeps ho hdrafted₃).bind fun id l₄ ⟨hmade₄, hholds₄, hkeeps₄⟩ => ?_
    exact (record_enrolls _).bind fun _ l₅ h₅ =>
      .pure ((hname.append h₃).node hmade₄ hholds₄ hkeeps₄ h₅)
  | .jump kind range none, l, loose, lo, hi, h, _ => by
    simp only [lay, Shape.declarations]
    exact (leaf_keeps ho h).bind fun id l₁ ⟨_, hkeeps⟩ => .pure (.nil hkeeps)
  | .jump kind range (some label), l, loose, lo, hi, h, _ => by
    simp only [lay, Shape.declarations]
    refine (leaf_keeps ho h).bind fun u l₁ ⟨hmade₁, hkeeps₁⟩ => ?_
    refine (record_enrolls _).bind fun _ l₂ h₂ => ?_
    have hdrafted₂ : Drafted row l₂ ([u] ++ loose) := by
      obtain ⟨occurrences, rfl⟩ := h₂
      exact hmade₁.drafted.alike ⟨rfl, rfl, rfl⟩
    exact (nodeOver_keeps ho hdrafted₂).bind fun id l₃ ⟨_, _, hkeeps₃⟩ =>
      .pure (.nil ((hkeeps₁.trans h₂.keeps).trans hkeeps₃))
  | .body inside, l, loose, lo, hi, h, hfits => by
    simp only [Fits] at hfits
    simp only [lay, Shape.declarations]
    have hopen : Enrolls l { l with occurrences := l.occurrences.enterBody.2 } := ⟨_, rfl⟩
    have hstart : Drafted row { l with occurrences := l.occurrences.enterBody.2 } loose :=
      h.alike ⟨rfl, rfl, rfl⟩
    refine inBody_hides (layAll_contains ho inside hstart hfits) fun ids l₂ h₂ => ?_
    have hinside := h₂.enrolls
      ⟨l₂.occurrences.exitBody l.occurrences.labels.active, rfl⟩
    exact ⟨hopen.keeps.trans hinside.keeps, hinside.laid⟩

/-- Shapes that are laid contain the declarations inside them. -/
theorem layAll_contains (ho : row.Ordered) :
    ∀ (shapes : List Shape) {l : Layout} {loose : List NodeId} {lo hi : Nat}, Drafted row l loose →
      Placed raw shapes lo hi → Ensures (layAll shapes) l fun ids l' =>
        Contains row raw l (declarationsAmong shapes) ids l'
  | [], l, loose, lo, hi, h, _ => by
    simp only [layAll, declarationsAmong]
    exact .pure (.nil (.refl l))
  | s :: ss, l, loose, lo, hi, h, hplaced => by
    simp only [Placed] at hplaced
    obtain ⟨_, -, -, hfits, hothers⟩ := hplaced
    simp only [layAll, declarationsAmong]
    refine ((lay_records ho s h).and (lay_contains ho s h hfits)).bind
      fun ids₁ l₁ ⟨hrecords₁, h₁⟩ => ?_
    exact (layAll_contains ho ss hrecords₁.drafted hothers).bind fun ids₂ l₂ h₂ =>
      .pure (h₁.append h₂)

theorem layFragments_contains (ho : row.Ordered) {terminated : Bool} {types : List NodeId}
    {type : TypeRef} :
    ∀ (fragments : List FragmentShape) {l₀ l : Layout} {loose before : List NodeId}
      {vs : List Shape} {start first lo hi : Nat}, Drafted row l (before ++ loose) →
      Contains row raw l₀ vs before l → FragmentsFit raw terminated fragments first lo hi →
      (fragments = [] → before = []) →
      Ensures (layFragments terminated start types type before fragments) l fun ids l' =>
        Contains row raw l₀ (vs ++ declarationsInside fragments) ids l'
  | [], l₀, l, loose, before, vs, start, first, lo, hi, _, h₀, _, hnil => by
    simp only [layFragments, declarationsInside, List.append_nil]
    rw [hnil rfl] at h₀
    exact .pure h₀
  | .mk range name inside :: fragments, l₀, l, loose, before, vs, start, first, lo, hi, h, h₀,
    hfits, _ => by
    simp only [FragmentsFit] at hfits
    obtain ⟨_, -, -, -, ⟨_, -, -, hfitsInside⟩, -, hfitsOthers⟩ := hfits
    simp only [layFragments, declarationsInside]
    have hstop : Ensures (fragmentStop range fragments.isEmpty terminated) l fun _ l' => l' = l :=
      (fragmentStop_ensures 0 range fragments.isEmpty terminated 0 h.row_eq).mono
        fun _ _ ⟨hl, _⟩ => hl
    refine hstop.bind fun stop l₁ hl => ?_
    subst hl
    refine (leaf_keeps ho h).bind fun u l₂ ⟨hmade, hkeeps⟩ => ?_
    refine ((layAll_records ho inside hmade.drafted).and
      (layAll_contains ho inside hmade.drafted hfitsInside)).bind fun ids l₃ ⟨hrecords, h₃⟩ => ?_
    have hname : Contains row raw l₁ [] [u] l₂ := .nil hkeeps
    have hall := h₀.append (hname.append h₃)
    rw [List.nil_append, List.singleton_append] at hall
    have hdrafted : Drafted row l₃ (before ++ u :: ids ++ loose) :=
      hrecords.drafted.congr fun id => by
        simp only [List.count_append, List.count_cons]
        omega
    refine (nodeOver_keeps ho hdrafted).bind fun decl l₄ ⟨hmade₄, hholds₄, hkeeps₄⟩ => ?_
    refine (setTypes_sets decl types type none ids).bind
      fun _ l₅ ⟨halike, hbound, hothers, _⟩ => ?_
    refine (declareAt_enrolls name.range.start).bind fun _ l₆ h₆ => ?_
    have hdecl := hall.declared hmade₄ hholds₄ hkeeps₄ halike hbound hothers h₆
    have hdrafted₆ : Drafted row l₆ ([] ++ decl :: loose) := by
      obtain ⟨occurrences, rfl⟩ := h₆
      exact (hmade₄.drafted.alike halike).alike ⟨rfl, rfl, rfl⟩
    refine (layFragments_contains ho fragments hdrafted₆ (.nil (.refl l₆)) hfitsOthers
      fun _ => rfl).bind fun ids' l₇ h₇ => .pure ?_
    have hboth := hdecl.append h₇
    rwa [List.nil_append, List.append_assoc, List.singleton_append] at hboth

end

/-! ## Files -/

/-- The root of a file keeps what was there and takes in what was at the top. -/
theorem root_keeps {l₂ l₃ : Layout} {es : List Element} {span : TokenId × TokenId}
    (h : Contains row raw l vs ids l') (h₂ : Fills l' l₂)
    (htypes₂ : l₂.draft.declaredTypes = l'.draft.declaredTypes) (hids : ∀ c ∈ ids, .node c ∈ es)
    (hsize : l₂.spans.size = l₂.draft.nodes.size) (h₃ : Allocated l₂ kind es span id l₃)
    (htypes₃ : l₃.draft.declaredTypes = l₂.draft.declaredTypes) (top : List NodeId) :
    Contains row raw l vs top l₃ := by
  have hkeeps : Keeps l' l₃ :=
    ⟨h₂.toGrows.trans h₃.grows, fun c _ => by rw [htypes₃, htypes₂]⟩
  have hid : id.index < l₃.spans.size := by
    have := h₃.size_eq
    omega
  refine h.wrap hkeeps hid (fun c hc => ?_) top
  rw [h₃.node_eq hsize]
  exact hids c hc

/-- A whole file that is laid contains all its declarations, none of them at the top. -/
theorem layUnit_contains (ho : row.Ordered) {unit : CompilationUnit} {length : Nat}
    {boundAt? : Nat → Option BindingId} (hrange : unit.range = .upTo length)
    (hshapes : ∀ s ∈ unit.shapes, EndsBy length s) (hplaced : Placed raw unit.shapes 0 length) :
    Ensures (layUnit unit) (.start row boundAt?) fun _ l' =>
      Contains row raw (.start row boundAt?) (declarationsAmong unit.shapes) [] l' := by
  have hstart := drafted_start row boundAt?
  have hlaid := (layAll_records ho unit.shapes hstart).and
    (layAll_contains ho unit.shapes hstart hplaced)
  unfold layUnit
  cases hspan : row.span? unit.range with
  | none =>
    have hnone := layAll_nil_of_span? ho hshapes (hrange ▸ hspan) hstart
    refine (hlaid.and hnone).bind fun ids l₁ ⟨⟨h₁, hcontains⟩, hnil⟩ => .get ?_
    subst hnil
    rw [h₁.drafted.row_eq, hspan]
    have hsize := h₁.drafted.size_eq
    exact ((allocate_ensures hsize).and allocate_types).mono fun root l₂ ⟨h₂, htypes⟩ =>
      root_keeps hcontains (.refl l₁) rfl nofun hsize h₂ htypes []
  | some span =>
    refine hlaid.bind fun ids l₁ ⟨h₁, hcontains⟩ => .get ?_
    obtain ⟨hle, hlt⟩ := span_le ho hspan
    rw [h₁.drafted.row_eq, hspan]
    refine (((elements_nodes h₁.drafted hlt).and (elements_woven h₁.drafted hlt hle)).and
      (.get interleave_types)).bind fun es l₂ ⟨⟨⟨hmem, _⟩, hwoven⟩, htypes₂⟩ => ?_
    have hsize := hwoven.drafted.size_eq
    exact ((allocate_ensures hsize).and allocate_types).mono fun root l₃ ⟨h₃, htypes₃⟩ =>
      root_keeps hcontains hwoven.fills htypes₂ (fun c hc => List.mem_append_left _ (hmem c hc))
        hsize h₃ htypes₃ []

end Layout

end JavaAnalysis
