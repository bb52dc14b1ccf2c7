import JavaAnalysis.Proofs.Layout.Fits
import JavaAnalysis.Proofs.Layout.Recorded

/-!
# Laying with ranges checked

A range can only be formed from two ends of which the first does not lie behind the second. Here
shapes are laid with this being checked of each range, before it is looked at or a node is made over
it: of those that the shapes tell and of those that are found next to tokens. Where the shapes are
well formed, the checks never fail, whatever the tokens are. Main statement: `checkedUnit_eq`.
-/

set_option autoImplicit false
set_option linter.dupNamespace false

namespace JavaAnalysis

namespace Layout

open Ast

/-- What keeps shapes from being laid if ranges are checked. -/
inductive Fault where
  | reversed (range : TextRange)
  | file (error : FileError)

abbrev Checked (α : Type) := StateT Layout (Except Fault) α

/-- A step in which no range is formed. -/
def unchecked {α : Type} (step : Step α) : Checked α := fun l => (step l).mapError Fault.file

/-- Forms a range from its ends. -/
def form (range : TextRange) : Checked PUnit :=
  if range.start ≤ range.stop then pure ⟨⟩ else throw (.reversed range)

/-- A node over a range, with the range formed in which its separator is looked for, if any. -/
def checkedNode (kind : NodeKind) (range : TextRange) (ids : List NodeId) (rule : GapRule) :
    Checked NodeId := do
  rule.ranges.forM form
  form range
  unchecked (nodeOver kind range ids rule)

def checkedLeaf (kind : NodeKind) (range : TextRange) : Checked NodeId :=
  checkedNode kind range [] .tokens

mutual

/-- The nodes of a shape. -/
def checkedLay : Shape → Checked (List NodeId)
  | .ident range use => do
    let id ← checkedLeaf .identifier range
    match use with
    | some offset => unchecked (referAt offset id)
    | none => pure ()
    return [id]
  | .node spec children => do
    form spec.range
    unchecked (checkWord spec)
    let ids ← checkedLayAll children
    let id ← checkedNode spec.kind spec.range ids spec.gaps
    unchecked (declareIf spec.declares id)
    return [id]
  | .typed spec before typeShape type ellipsis after => do
    let before ← checkedLayAll before
    let types ← checkedLay typeShape
    let after ← checkedLayAll after
    let id ← checkedNode spec.kind spec.range (before ++ types ++ after) spec.gaps
    unchecked (types.forM fun typeNode => setType id typeNode type ellipsis after)
    unchecked (declareIf spec.declares id)
    return [id]
  | .clause kind word range types => do
    form range
    let range ← unchecked (clauseRange kind.node word range)
    let ids ← checkedLayAll types
    return [← checkedNode kind.node range ids .tokens]
  | .variables start terminated before typeShape type fragments =>
    if fragments.isEmpty then return []
    else do
      let before ← checkedLayAll before
      let types ← checkedLay typeShape
      checkedLayFragments terminated start types type (before ++ types) fragments
  | .labeled range label body => do
    let id ← checkedLeaf .identifier label.range
    unchecked (record fun o => (o.enterLabel label.text).2)
    let body ← checkedLayAll body
    let labeled ← checkedNode .labeledStatement range (id :: body) .tokens
    unchecked (record fun o => (o.exitLabel labeled).2)
    return [labeled]
  | .jump kind range none => do return [← checkedLeaf kind range]
  | .jump kind range (some label) => do
    let id ← checkedLeaf .identifier label.range
    unchecked (record fun o => (o.resolveLabel label.text id).2)
    return [← checkedNode kind range [id] .tokens]
  | .body inside => do
    let (outer, occurrences) := (← get).occurrences.enterBody
    unchecked (modify fun l => { l with occurrences })
    let ids ← checkedLayAll inside
    unchecked (record fun o => o.exitBody outer)
    return ids

def checkedLayAll : List Shape → Checked (List NodeId)
  | [] => return []
  | s :: ss => do
    let ids ← checkedLay s
    return ids ++ (← checkedLayAll ss)

/-- The nodes of variables; the first of them starts at `start` and owns the nodes `before`. -/
def checkedLayFragments (terminated : Bool) (start : Nat) (types : List NodeId) (type : TypeRef)
    (before : List NodeId) : List FragmentShape → Checked (List NodeId)
  | [] => return []
  | .mk range name inside :: fragments => do
    let stop ← unchecked (fragmentStop range fragments.isEmpty terminated)
    let id ← checkedLeaf .identifier name.range
    let inside ← checkedLayAll inside
    let decl ← checkedNode .variableDecl ⟨start, stop⟩ (before ++ id :: inside) .tokens
    unchecked (types.forM fun typeNode => setType decl typeNode type none inside)
    unchecked (declareAt name.range.start decl)
    let next := match fragments with
      | .mk r _ _ :: _ => r.start
      | [] => stop
    return decl :: (← checkedLayFragments terminated next types type [] fragments)

end

variable {α β : Type} {row : TokenRow} {l : Layout} {loose : List NodeId} {c : Checked α}
  {step : Step α} {range : TextRange}

/-! ## Checks that do not fail -/

/-- No check of the one step fails, and apart from that both do the same. -/
def Mirrors (c : Checked α) (step : Step α) (l : Layout) : Prop := c l = unchecked step l

namespace Mirrors

theorem pure (a : α) (l : Layout) : Mirrors (Pure.pure a) (Pure.pure a) l := rfl

theorem unchecked (step : Step α) (l : Layout) : Mirrors (unchecked step) step l := rfl

theorem bind {mid : α → Layout → Prop} {c' : α → Checked β} {step' : α → Step β}
    (h : Mirrors c step l) (hmid : Ensures step l mid)
    (h' : ∀ a l', mid a l' → Mirrors (c' a) (step' a) l') :
    Mirrors (c >>= c') (step >>= step') l := by
  have hchecked : (c >>= c') l = (c l >>= fun r => c' r.1 r.2) := rfl
  have hstep : (step >>= step') l = (step l >>= fun r => step' r.1 r.2) := rfl
  rw [Mirrors, Layout.unchecked, hchecked, h, hstep, Layout.unchecked]
  cases hrun : step l with
  | error e => rfl
  | ok r =>
    obtain ⟨a, l'⟩ := r
    exact h' a l' (hmid a l' hrun)

/-- What follows may rely on nothing. -/
theorem bind_any {c' : α → Checked β} {step' : α → Step β} (h : Mirrors c step l)
    (h' : ∀ a l', Mirrors (c' a) (step' a) l') : Mirrors (c >>= c') (step >>= step') l :=
  h.bind (fun _ _ _ => trivial) fun a l' (_ : True) => h' a l'

theorem get {c' : Layout → Checked α} {step' : Layout → Step α} (h : Mirrors (c' l) (step' l) l) :
    Mirrors (MonadState.get >>= c') (MonadState.get >>= step') l := h

/-- A check that does not fail changes nothing. -/
theorem after_form (hrange : range.start ≤ range.stop) {c : Checked α} (h : Mirrors c step l) :
    Mirrors (form range >>= fun _ => c) step l := by
  rw [form, if_pos hrange]
  exact h

theorem after_forms {ranges : List TextRange} (hranges : ∀ r ∈ ranges, r.start ≤ r.stop)
    {c : Checked α} (h : Mirrors c step l) :
    Mirrors (ranges.forM form >>= fun _ => c) step l := by
  induction ranges with
  | nil => exact h
  | cons r rs ih =>
    have hfirst : form r = Pure.pure ⟨⟩ := if_pos (hranges r List.mem_cons_self)
    have hcons : (r :: rs).forM form = (form r >>= fun _ => rs.forM form) := rfl
    rw [hcons, hfirst]
    exact ih fun r hr => hranges r (List.mem_cons_of_mem _ hr)

end Mirrors

theorem checkedNode_mirrors {kind : NodeKind} {ids : List NodeId} {rule : GapRule}
    (hrange : range.start ≤ range.stop) (hrule : ∀ r ∈ rule.ranges, r.start ≤ r.stop) :
    Mirrors (checkedNode kind range ids rule) (nodeOver kind range ids rule) l :=
  .after_forms hrule (.after_form hrange (.unchecked _ l))

theorem checkedLeaf_mirrors {kind : NodeKind} (hrange : range.start ≤ range.stop) :
    Mirrors (checkedLeaf kind range) (leaf kind range) l :=
  checkedNode_mirrors hrange (by simp [GapRule.ranges])

/-- The range of a clause starts with the token in front of its types. -/
theorem clauseRange_ordered (ho : row.Ordered) (hrow : l.row = row) {kind : NodeKind}
    {word : TokenKind} (hrange : range.start ≤ range.stop) :
    Ensures (clauseRange kind word range) l fun found l' => found.start ≤ found.stop ∧ l' = l := by
  unfold clauseRange
  refine (preceding_ensures _ _ _).bind fun id l₁ ⟨hfound, _, hl⟩ => .get (.pure ⟨?_, hl⟩)
  subst hl
  have hstop := ho.before?_stop_le (hrow ▸ hfound)
  have hwidth := TokenRow.start_le_stop row id
  simp only [token, hrow]
  omega

/-- A variable ends where its range does, or with a token behind it. -/
theorem fragmentStop_le (ho : row.Ordered) (hrow : l.row = row) (isLast terminated : Bool) :
    Ensures (fragmentStop range isLast terminated) l fun stop l' => range.stop ≤ stop ∧ l' = l := by
  unfold fragmentStop
  split
  · exact .pure ⟨Nat.le_refl _, rfl⟩
  · refine (following_ensures _ _ _).bind fun id l₁ ⟨hfound, _, hl⟩ => .get (.pure ⟨?_, hl⟩)
    subst hl
    have hstart := ho.le_after?_start (hrow ▸ hfound)
    have hwidth := TokenRow.start_le_stop row id
    simp only [token, hrow]
    omega

/-! ## Shapes -/

mutual

theorem checkedLay_mirrors (ho : row.Ordered) :
    ∀ (shape : Shape) {l : Layout} {loose : List NodeId}, Drafted row l loose →
      (∀ r ∈ shape.ranges, r.start ≤ r.stop) → Mirrors (checkedLay shape) (lay shape) l
  | .ident range use, l, loose, h, hranges => by
    simp only [Shape.ranges, List.forall_mem_singleton] at hranges
    simp only [checkedLay, lay]
    refine (checkedLeaf_mirrors hranges).bind_any fun id l₁ => ?_
    cases use with
    | none => exact .pure _ _
    | some offset => exact (Mirrors.unchecked _ l₁).bind_any fun _ _ => .pure _ _
  | .node spec children, l, loose, h, hranges => by
    simp only [Shape.ranges, NodeSpec.ranges, List.cons_append, List.forall_mem_cons,
      List.forall_mem_append] at hranges
    obtain ⟨hrange, hrule, hchildren⟩ := hranges
    simp only [checkedLay, lay]
    refine .after_form hrange ((Mirrors.unchecked _ l).bind (checkWord_ensures spec) ?_)
    rintro _ l₁ rfl
    refine (checkedLayAll_mirrors ho children h hchildren).bind_any fun ids l₂ => ?_
    refine (checkedNode_mirrors hrange hrule).bind_any fun id l₃ => ?_
    exact (Mirrors.unchecked _ l₃).bind_any fun _ _ => .pure _ _
  | .typed spec before typeShape type ellipsis after, l, loose, h, hranges => by
    simp only [Shape.ranges, NodeSpec.ranges, List.cons_append, List.forall_mem_cons,
      List.forall_mem_append] at hranges
    obtain ⟨hrange, ⟨⟨hrule, hbefore⟩, htype⟩, hafter⟩ := hranges
    simp only [checkedLay, lay]
    refine (checkedLayAll_mirrors ho before h hbefore).bind (layAll_records ho before h)
      fun ids₁ l₁ h₁ => ?_
    refine (checkedLay_mirrors ho typeShape h₁.drafted htype).bind
      (lay_records ho typeShape h₁.drafted) fun ids₂ l₂ h₂ => ?_
    refine (checkedLayAll_mirrors ho after (h₁.append h₂).drafted hafter).bind_any
      fun ids₃ l₃ => ?_
    refine (checkedNode_mirrors hrange hrule).bind_any fun id l₄ => ?_
    refine (Mirrors.unchecked _ l₄).bind_any fun _ l₅ => ?_
    exact (Mirrors.unchecked _ l₅).bind_any fun _ _ => .pure _ _
  | .clause kind word range types, l, loose, h, hranges => by
    simp only [Shape.ranges, List.forall_mem_cons] at hranges
    obtain ⟨hrange, htypes⟩ := hranges
    simp only [checkedLay, lay]
    refine .after_form hrange ((Mirrors.unchecked _ l).bind
      (clauseRange_ordered ho h.row_eq hrange) ?_)
    rintro found l₁ ⟨hfound, rfl⟩
    refine (checkedLayAll_mirrors ho types h htypes).bind_any fun ids l₂ => ?_
    exact (checkedNode_mirrors hfound (by simp [GapRule.ranges])).bind_any fun _ _ => .pure _ _
  | .variables start terminated before typeShape type fragments, l, loose, h, hranges => by
    simp only [Shape.ranges, List.forall_mem_append] at hranges
    obtain ⟨⟨hbefore, htype⟩, hfragments⟩ := hranges
    simp only [checkedLay, lay]
    split
    · exact .pure _ _
    rename_i hne
    refine (checkedLayAll_mirrors ho before h hbefore).bind (layAll_records ho before h)
      fun ids₁ l₁ h₁ => ?_
    refine (checkedLay_mirrors ho typeShape h₁.drafted htype).bind
      (lay_records ho typeShape h₁.drafted) fun ids₂ l₂ h₂ => ?_
    exact checkedLayFragments_mirrors ho fragments (h₁.append h₂).drafted hfragments
  | .labeled range label body, l, loose, h, hranges => by
    simp only [Shape.ranges, List.forall_mem_cons] at hranges
    obtain ⟨hrange, hlabel, hbody⟩ := hranges
    simp only [checkedLay, lay]
    refine (checkedLeaf_mirrors hlabel).bind (leaf_records ho h rfl) fun id l₁ h₁ => ?_
    have hopen : ∀ o : Occurrences, o.Agrees (o.enterLabel label.text).2 := fun _ => ⟨rfl, rfl, rfl⟩
    refine (Mirrors.unchecked _ l₁).bind (record_idle hopen) fun _ l₂ h₂ => ?_
    refine (checkedLayAll_mirrors ho body (h₁.idle h₂).drafted hbody).bind_any fun ids l₃ => ?_
    refine (checkedNode_mirrors hrange (by simp [GapRule.ranges])).bind_any fun labeled l₄ => ?_
    exact (Mirrors.unchecked _ l₄).bind_any fun _ _ => .pure _ _
  | .jump kind range none, l, loose, h, hranges => by
    simp only [Shape.ranges, Option.map_none, Option.toList_none, List.forall_mem_singleton]
      at hranges
    simp only [checkedLay, lay]
    exact (checkedLeaf_mirrors hranges).bind_any fun _ _ => .pure _ _
  | .jump kind range (some label), l, loose, h, hranges => by
    simp only [Shape.ranges, Option.map_some, Option.toList_some, List.forall_mem_cons] at hranges
    obtain ⟨hrange, hlabel, -⟩ := hranges
    simp only [checkedLay, lay]
    refine (checkedLeaf_mirrors hlabel).bind_any fun id l₁ => ?_
    refine (Mirrors.unchecked _ l₁).bind_any fun _ l₂ => ?_
    exact (checkedNode_mirrors hrange (by simp [GapRule.ranges])).bind_any fun _ _ => .pure _ _
  | .body inside, l, loose, h, hranges => by
    simp only [Shape.ranges] at hranges
    simp only [checkedLay, lay]
    have hopen : Enters l [] { l with occurrences := l.occurrences.enterBody.2 } :=
      ⟨⟨rfl, rfl, rfl⟩, rfl, ⟨rfl, rfl, rfl⟩⟩
    have hinside := checkedLayAll_mirrors ho inside (h.alike hopen.toAlike) hranges
    have hbody : Mirrors
        (checkedLayAll inside >>= fun ids =>
          unchecked (record fun o => o.exitBody l.occurrences.enterBody.1) >>= fun _ =>
            Pure.pure ids)
        (layAll inside >>= fun ids =>
          record (fun o => o.exitBody l.occurrences.enterBody.1) >>= fun _ => Pure.pure ids)
        { l with occurrences := l.occurrences.enterBody.2 } :=
      hinside.bind_any fun _ l₁ => (Mirrors.unchecked _ l₁).bind_any fun _ _ => .pure _ _
    exact hbody

theorem checkedLayAll_mirrors (ho : row.Ordered) :
    ∀ (shapes : List Shape) {l : Layout} {loose : List NodeId}, Drafted row l loose →
      WellRanged shapes → Mirrors (checkedLayAll shapes) (layAll shapes) l
  | [], l, loose, h, hranges => by
    simp only [checkedLayAll, layAll]
    exact .pure _ _
  | s :: ss, l, loose, h, hranges => by
    simp only [WellRanged, shapeRanges_cons, List.forall_mem_append] at hranges
    obtain ⟨hfirst, hothers⟩ := hranges
    simp only [checkedLayAll, layAll]
    refine (checkedLay_mirrors ho s h hfirst).bind (lay_records ho s h) fun ids₁ l₁ h₁ => ?_
    exact (checkedLayAll_mirrors ho ss h₁.drafted hothers).bind_any fun _ _ => .pure _ _

theorem checkedLayFragments_mirrors (ho : row.Ordered) {terminated : Bool} {types : List NodeId}
    {type : TypeRef} :
    ∀ (fragments : List FragmentShape) {l : Layout} {loose before : List NodeId} {start : Nat},
      Drafted row l (before ++ loose) →
      (∀ r ∈ variableRanges start fragments, r.start ≤ r.stop) →
      Mirrors (checkedLayFragments terminated start types type before fragments)
        (layFragments terminated start types type before fragments) l
  | [], l, loose, before, start, h, hranges => by
    simp only [checkedLayFragments, layFragments]
    exact .pure _ _
  | .mk range name inside :: fragments, l, loose, before, start, h, hranges => by
    simp only [variableRanges, List.cons_append, List.forall_mem_cons, List.forall_mem_append]
      at hranges
    obtain ⟨hrange, hname, hinside, hfragments⟩ := hranges
    simp only [checkedLayFragments, layFragments]
    refine (Mirrors.unchecked _ l).bind (fragmentStop_le ho h.row_eq _ _) ?_
    rintro stop l₁ ⟨hstop, rfl⟩
    refine (checkedLeaf_mirrors hname).bind (leaf_records ho h rfl) fun id l₂ h₁ => ?_
    refine (checkedLayAll_mirrors ho inside h₁.drafted hinside).bind
      (layAll_records ho inside h₁.drafted) fun ids l₃ h₂ => ?_
    have h₁₂ : Drafted row l₃ ((before ++ id :: ids) ++ loose) := h₂.drafted.congr fun other => by
      simp only [List.count_append, List.count_cons, List.count_nil]
      omega
    have hwhole : start ≤ stop := Nat.le_trans hrange hstop
    refine (checkedNode_mirrors hwhole (by simp [GapRule.ranges])).bind (nodeOver_ensures ho h₁₂)
      fun decl l₄ h₃ => ?_
    refine (Mirrors.unchecked _ l₄).bind (setTypes_enters decl types type none ids)
      fun _ l₅ h₄ => ?_
    have hrole : (Site.declaration .variableDecl range name.range.start).role =
        .declares name.range.start := rfl
    refine (Mirrors.unchecked _ l₅).bind (declareAt_enters hrole) fun _ l₆ h₅ => ?_
    have hdrafted : Drafted row l₆ ([] ++ decl :: loose) :=
      (h₃.drafted.alike h₄.toAlike).alike h₅.toAlike
    cases fragments with
    | nil =>
      exact (checkedLayFragments_mirrors ho [] hdrafted (by simp [variableRanges])).bind_any
        fun _ _ => .pure _ _
    | cons f fs =>
      obtain ⟨r, n, inner⟩ := f
      exact (checkedLayFragments_mirrors ho (.mk r n inner :: fs) hdrafted hfragments).bind_any
        fun _ _ => .pure _ _

end

end Layout

end JavaAnalysis
