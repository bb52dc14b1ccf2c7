import JavaAnalysis.Proofs.Parser.Types

/-!
# Parsed modifiers and parameters fit
-/

set_option autoImplicit false
set_option linter.dupNamespace false

namespace JavaAnalysis.Parser

open Ast Lexeme

variable {raw : List Lexeme} {g : Grammar} {s s₀ t u v : State}

/-! ## Dotted names -/

/-- The parser has taken names with one lexeme between each and the next. -/
inductive Dotted (raw : List Lexeme) : State → List Ident → State → Prop where
  | last {s t : State} {n : Ident} : Named raw s t n → Dotted raw s [n] t
  | more {s t u v : State} {n : Ident} {ns : List Ident} : Named raw s t n → Step raw t u →
    Dotted raw u ns v → Dotted raw s (n :: ns) v

theorem segmentsUpTo_ensures (hs : Significant raw) (n : Nat) (h : At raw s) :
    Ensures (segmentsUpTo n) s fun ns t => Dotted raw s ns t := by
  induction n generalizing s with
  | zero => exact exhausted_ensures
  | succ n ih =>
    unfold segmentsUpTo
    refine (ident_ensures hs h).bind ?_
    intro name t₁ h₁
    apply isAt_bind
    apply kindAt_bind
    refine .ite (fun _ => ?_) fun _ => .pure (.last h₁)
    refine (advance_step hs h₁.at_).bind ?_
    intro _ t₂ h₂
    exact (ih h₂.at_).bind fun ns t₃ h₃ => .pure (.more h₁ h₂ h₃)

/-- The parser has taken part of a dotted name, whose first identifier stands for what is to come. -/
structure Selected (raw : List Lexeme) (s t : State) (shape : Shape) : Prop where
  takes : Takes raw s t [shape]
  sites_eq : shape.sites = []
  trail : ∀ site : Site, site.key? = some s.start → Trail raw s t [site]

theorem Named.selected {n : Ident} (h : Named raw s t n) : Selected raw s t (.name n) :=
  ⟨h.name, sites_name n, fun _ => h.trail⟩

/-- The last identifier of a dotted name tells what the name uses. -/
theorem Selected.last {shape : Shape} {n : Ident} {use : Option Nat} (h : Selected raw s t shape)
    (hstep : Step raw t u) (hn : Named raw u v n) (huse : ∀ o, use = some o → o = s.start) :
    Takes raw s v [.plain .memberSelect ⟨s.start, n.range.stop⟩ [shape, .ident n.range use]] := by
  have hfront := h.takes.skip hstep
  have hwhole := hfront.append hn.name.reads
  have hstay : Trail raw t v [] := hstep.trail.append hn.step.trail
  rw [hn.stop_eq]
  refine .of_node hwhole.step hwhole.anchored ?_ rfl hwhole.anchored ⟨?_, ?_⟩
  · have hplaced := hwhole.placed
    simpa only [Shape.name, List.cons_append, List.nil_append, Placed, Fits] using hplaced
  · have hsites : shapeSites [.node (.plain .memberSelect ⟨s.start, v.previousStop⟩)
        [shape, .ident n.range use]] = (use.map (Site.reference n.range)).toList := by
      simp [h.sites_eq, Shape.sites, NodeSpec.sites, NodeSpec.plain, angledSites,
        NodeKind.isAngled]
    rw [hsites]
    cases use with
    | none => simpa [h.sites_eq] using hwhole.traced.trail
    | some o =>
      exact (h.trail (.reference n.range o) (congrArg some (huse o rfl))).append hstay
  · have hranged := hwhole.traced.ranged
    refine wellRanged_plain.2 ⟨hwhole.le, ?_⟩
    simpa only [WellRanged, Shape.name, List.cons_append, List.nil_append, shapeRanges_cons,
      Shape.ranges] using hranged

/-- Names that are selected from what was taken before. -/
theorem Dotted.select {names : List Ident} (h : Dotted raw s names t) {use : Option Nat}
    (huse : ∀ o, use = some o → o = s₀.start) {selected : Shape} {s' : State}
    (hselected : Selected raw s₀ s' selected) (hstep : Step raw s' s) :
    Takes raw s₀ t [selectShape s₀.start use selected names] := by
  induction h generalizing selected s' with
  | last hn =>
    simp only [selectShape]
    exact hselected.last hstep hn huse
  | @more s t u v n ns hn hdot hns ih =>
    have hone : Selected raw s₀ t
        (.plain .memberSelect ⟨s₀.start, n.range.stop⟩ [selected, .name n]) := by
      refine ⟨hselected.last hstep hn nofun, ?_, fun site hkey => ?_⟩
      · simp [hselected.sites_eq, angledSites, NodeKind.isAngled]
      · exact (hselected.trail site hkey).append (hstep.trail.append hn.step.trail)
    have hselect := ih hone hdot
    cases hns with
    | last _ =>
      simp only [selectShape] at hselect ⊢
      exact hselect
    | more _ _ _ =>
      simp only [selectShape] at hselect ⊢
      exact hselect

theorem qualifiedName_ensures (hs : Significant raw) (h : At raw s) :
    Ensures qualifiedName s fun name t => ∀ isUse, Takes raw s t [name.shape isUse] := by
  unfold qualifiedName
  apply Ensures.get
  refine (segmentsUpTo_ensures hs s.budget h).bind ?_
  intro names t hnames
  apply rangeFrom_bind
  apply Ensures.pure
  intro isUse
  have huse : ∀ o, (if isUse then some s.start else none) = some o → o = s.start := by
    intro o ho
    split at ho
    · exact (Option.some.inj ho).symm
    · cases ho
  unfold QualifiedName.shape
  cases hnames with
  | last hn => exact hn.takes huse
  | more hn hdot hns =>
    cases hns with
    | last hlast => exact (Dotted.last hlast).select huse hn.selected hdot
    | more hnext hdot' hns' => exact (Dotted.more hnext hdot' hns').select huse hn.selected hdot

/-! ## Annotations -/

theorem elementPair_parses (hs : Significant raw) (hg : g.Sound raw) :
    Parses raw (fun arg => elementShapes [arg]) (fun _ _ _ => True) (elementPair g) := by
  intro s h
  unfold elementPair
  apply startHere_bind
  refine (ident_ensures hs h).bind ?_
  intro name t₁ h₁
  refine (expect_step hs h₁.at_).bind ?_
  intro _ t₂ h₂
  refine (hg.elementValue t₂ h₂.at_).bind ?_
  rintro value t₃ ⟨h₃, -⟩
  refine rangeFrom_bind (.pure ⟨?_, trivial⟩)
  have htakes := (h₁.name.skip h₂).append h₃.reads
  rw [htakes.rangeFrom_eq]
  simp! only
  exact htakes.plain .assignment rfl

theorem elementValues_ensures (hs : Significant raw) (hg : g.Sound raw) (h : At raw s) :
    Ensures (elementValues g) s fun args t => Reads raw s t (elementShapes args) := by
  unfold elementValues
  refine ifAt (fun _ => .pure ?_) fun _ => isAt_bind (kindAt_bind (.ite (fun _ => ?_) fun _ => ?_))
  · simp! only
    exact .nil h
  · refine (separated_ensures hs rfl (elementPair_parses hs hg) h).mono fun args t ⟨hargs, _⟩ => ?_
    rw [← elementShapes_eq]
    exact hargs.reads
  · apply startHere_bind
    refine (hg.elementValue s h).bind ?_
    rintro value t ⟨hvalue, -⟩
    apply rangeFrom_bind
    apply Ensures.pure
    simp! only
    exact hvalue.reads

theorem marker_parses (hs : Significant raw) (hg : g.Sound raw) :
    Parses raw (fun use => [use.shape]) (fun use lo hi => use.range = ⟨lo, hi⟩) (marker g) := by
  intro s h
  unfold marker
  apply startHere_bind
  refine (expect_took hs h rfl).bind ?_
  rintro _ t₁ ⟨h₁, -⟩
  refine (qualifiedName_ensures hs h₁.step.at_).bind ?_
  intro name t₂ h₂
  have hname := h₁.takes.append (h₂ true).reads
  refine ifAt (fun hkind => ?_) fun _ => rangeFrom_bind (.pure ?_)
  · apply startHere_bind
    refine (advance_took hs hname.at_ hkind rfl).bind ?_
    rintro _ t₃ ⟨h₃, -⟩
    refine (elementValues_ensures hs hg h₃.step.at_).bind ?_
    intro args t₄ h₄
    refine (expect_step hs h₄.step.at_).bind ?_
    intro _ t₅ h₅
    apply rangeFrom_bind
    apply rangeFrom_bind
    apply Ensures.pure
    have hargs := (h₃.takes.append h₄).skip h₅
    have hwhole := hname.append (hargs.plain .arguments rfl).reads
    rw [hargs.rangeFrom_eq, hwhole.rangeFrom_eq]
    refine ⟨?_, rfl⟩
    simp! only
    exact hwhole.plain .annotationUse rfl
  · rw [hname.rangeFrom_eq]
    refine ⟨?_, rfl⟩
    simp! only
    exact hname.plain .annotationUse rfl

theorem elementValue_parses (hs : Significant raw) (hg : g.Sound raw) :
    ParsesExpr raw (elementValue g) := by
  intro s h
  unfold elementValue
  apply kindAt_bind
  split
  · refine (hg.marker s h).bind ?_
    rintro use t ⟨huse, hrange⟩
    refine .pure ⟨?_, hrange⟩
    simp! only
    exact huse
  · rename_i hkind
    apply startHere_bind
    refine (advance_took hs h hkind rfl).bind ?_
    rintro _ t₁ ⟨h₁, -⟩
    refine (terminated_reads hs rfl (fun s hat => (hg.elementValue s hat).mono fun _ _ he => he.1)
      h₁.step.at_).bind ?_
    intro items t₂ h₂
    refine (expect_step hs h₂.step.at_).bind ?_
    intro _ t₃ h₃
    apply rangeFrom_bind
    apply Ensures.pure
    rw [Expr.shapes_eq] at h₂
    exact ExprFrom.of_node ((h₁.takes.append h₂).skip h₃) (by simp! only; rfl) rfl rfl
  · exact hg.conditional s h

/-! ## Modifiers -/

theorem advanceBy_step (hs : Significant raw) (n : Nat) (h : At raw s) :
    Ensures (advanceBy n) s fun _ t => Step raw s t := by
  induction n generalizing s with
  | zero => exact .pure (.refl h)
  | succ n ih =>
    unfold advanceBy
    exact (advance_step hs h).bind fun _ t ht => (ih ht.at_).mono fun _ _ hu => ht.trans hu

theorem advanceBy_takes (hs : Significant raw) (n : Nat) (h : At raw s)
    (hfirm : (s.kind 0).isFirm = true) :
    Ensures (advanceBy (n + 1)) s fun _ t => Takes raw s t [] := by
  unfold advanceBy
  refine (advance_took hs h rfl hfirm).bind ?_
  rintro _ t ⟨ht, -⟩
  exact (advanceBy_step hs n ht.step.at_).mono fun _ u hu => ht.takes.skip hu

theorem kind_of_isWord {word : String} {n : Nat} (h : s.isWord n word = true) :
    s.kind n = .ident := by
  unfold State.isWord at h
  rw [Bool.and_eq_true, beq_iff_eq] at h
  exact h.1

theorem isFirm_of_isWord {word : String} (h : s.isWord 0 word = true) :
    (s.kind 0).isFirm = true := by
  rw [kind_of_isWord h]
  rfl

theorem isFirm_of_modifierWord (h : (ModifierWord.ofToken? (s.kind 0)).isSome = true) :
    (s.kind 0).isFirm = true := by
  revert h
  cases s.kind 0 <;> first | exact fun _ => rfl | exact nofun

theorem sealedAhead?_spec {found : ModifierWord × Nat} (h : s.sealedAhead? = some found) :
    (∃ n, found.2 = n + 1) ∧ (s.kind 0).isFirm = true := by
  unfold State.sealedAhead? at h
  split at h
  · rename_i hword
    simp only [Option.bind_eq_bind, Option.bind_some, Option.ite_none_right_eq_some] at h
    obtain ⟨-, rfl⟩ := Option.some.inj h.2
    exact ⟨⟨0, rfl⟩, isFirm_of_isWord hword⟩
  · split at h
    · rename_i hword
      rw [Bool.and_eq_true, Bool.and_eq_true] at hword
      simp only [Option.bind_eq_bind, Option.bind_some, Option.ite_none_right_eq_some] at h
      obtain ⟨-, rfl⟩ := Option.some.inj h.2
      exact ⟨⟨2, rfl⟩, isFirm_of_isWord hword.1.1⟩
    · cases h

/-- A modifier has a lexeme, and no cut can touch its first one. -/
theorem modifierAhead?_spec {found : ModifierWord × Nat} (h : s.modifierAhead? = some found) :
    (∃ n, found.2 = n + 1) ∧ (s.kind 0).isFirm = true := by
  unfold State.modifierAhead? at h
  split at h
  · rename_i hsealed
    cases h
    exact sealedAhead?_spec hsealed
  · dsimp only at h
    split at h
    · cases h
    · obtain ⟨m, hm, rfl⟩ := Option.map_eq_some_iff.1 h
      exact ⟨⟨0, rfl⟩, isFirm_of_modifierWord (by rw [hm]; rfl)⟩

theorem modifier_parses (hs : Significant raw) (hg : g.Sound raw) :
    Parses raw (fun m => markerShapes [m]) (fun m lo hi => m.range = ⟨lo, hi⟩) (modifier g) := by
  intro s h
  unfold modifier
  apply Ensures.get
  refine Ensures.ite (fun _ => ?_) fun _ => ?_
  · refine (hg.marker s h).bind ?_
    rintro use t ⟨huse, hrange⟩
    refine .pure ⟨?_, hrange⟩
    simp! only
    exact huse
  · split
    · rename_i m n hahead
      obtain ⟨⟨k, hk⟩, hfirm⟩ := modifierAhead?_spec hahead
      cases hk
      refine (advanceBy_takes hs k h hfirm).bind ?_
      intro _ t ht
      apply rangeFrom_bind
      apply Ensures.pure
      rw [ht.rangeFrom_eq]
      refine ⟨?_, rfl⟩
      simp! only
      exact ht
    · exact expected_ensures

theorem rangeOfAll?_eq {ms : List Modifier} {lo hi : Nat}
    (h : ListEnds (fun (m : Modifier) lo hi => m.range = ⟨lo, hi⟩) ms lo hi) :
    Modifier.rangeOfAll? ms = some ⟨lo, hi⟩ := by
  obtain ⟨first, last, hhead, hlast, ⟨_, hstart⟩, _, hstop⟩ := h
  cases ms with
  | nil => cases hhead
  | cons m ms =>
    cases hhead
    rw [List.getLast?_eq_some_getLast (List.cons_ne_nil _ _), Option.some.injEq] at hlast
    simp only [Modifier.rangeOfAll?, hlast, hstart, hstop]

theorem modifiers_reads (hs : Significant raw) (hg : g.Sound raw) (h : At raw s) :
    Ensures (modifiers g) s fun ms t => Reads raw s t (modifierShapes ms (markerShapes ms)) := by
  refine (many_parses (modifier_parses hs hg) h).mono ?_
  rintro ms t (⟨rfl, rfl⟩ | ⟨htakes, hends⟩)
  · exact .nil h
  · unfold modifierShapes
    rw [rangeOfAll?_eq hends, ← markerShapes_eq]
    exact (htakes.plain .modifiers rfl).reads

/-! ## Parameters -/

/-- A declaration whose type is written, perhaps with more lexemes behind the type. -/
theorem Named.typed {n : Ident} {spec : NodeSpec} {before after : List Shape} {typeShape : Shape}
    {ty : TypeRef} {ellipsis : Option TextRange} {w : State} (h : Named raw u v n)
    (hbefore : Reads raw s t before) (htype : Takes raw t u [typeShape])
    (hafter : Reads raw v w after) (hrange : spec.range = ⟨s.start, w.previousStop⟩)
    (hsites : spec.sites = [.declaration spec.kind spec.range n.range.start])
    (hgaps : spec.gaps.ranges = []) :
    Takes raw s w [.typed spec before typeShape ty ellipsis (.name n :: after)] := by
  have hback := (h.name.append hafter).reads
  have hwhole := (htype.append hback).after hbefore
  refine ⟨hwhole.step, hwhole.anchored, .singleton ?_ hwhole.le, ?_, ?_⟩
  · simp only [Fits, Ranged, hrange]
    refine ⟨⟨Nat.le_refl _, Nat.le_refl _, hwhole.anchored⟩, t.start, u.previousStop,
      hbefore.step.start_le, ?_, htype.le, htype.fits, hback.step.previousStop_le, ?_⟩
    · exact Placed.mono _ (Nat.le_refl _) hbefore.step.at_.previousStop_le hbefore.placed
    · exact Placed.mono _ htype.at_.previousStop_le (Nat.le_refl _) hback.placed
  · have hfront := (hbefore.traced.trail.leading spec.kind).append htype.traced.trail
    have hall := h.declared hfront hafter.traced.trail
      (.declaration spec.kind spec.range n.range.start) rfl
    simpa [Shape.sites, hsites] using hall
  · have hranged := hwhole.traced.ranged
    simp only [WellRanged, shapeRanges_append, shapeRanges_cons, shapeRanges_nil, Shape.ranges,
      NodeSpec.ranges, hgaps, hrange, List.append_nil, List.forall_mem_append,
      List.forall_mem_singleton] at hranged ⊢
    exact ⟨⟨⟨hwhole.le, hranged.1⟩, hranged.2.1⟩, hranged.2.2⟩

theorem formalParam_parses (hs : Significant raw) (hg : g.Sound raw) :
    Parses raw (fun p => [p.shape]) (fun _ _ _ => True) (formalParam g) := by
  intro s h
  unfold formalParam
  apply startHere_bind
  refine (modifiers_reads hs hg h).bind ?_
  intro ms t₁ h₁
  apply startHere_bind
  refine (nonArrayType_ensures hs hg h₁.step.at_).bind ?_
  intro base t₂ h₂
  refine (arrayOf_ensures hs h₂).bind ?_
  rintro ty t₃ ⟨h₃, -⟩
  refine ifAtJoin (fun _ t => Step raw t₃ t) (fun _ => ?_) (fun _ => .pure (.refl h₃.at_))
    fun ellipsis t₄ h₄ => ?_
  · exact (advance_step hs h₃.at_).map fun _ _ ht => ht
  · refine (ident_ensures hs h₄.at_).bind ?_
    intro name t₅ h₅
    refine (brackets_ensures hs h₅.at_).bind ?_
    intro pairs t₆ h₆
    apply rangeFrom_bind
    apply Ensures.pure
    have hwhole := ((h₃.skip h₄).append (h₅.name.append h₆.reads).reads).after h₁
    rw [hwhole.rangeFrom_eq]
    refine ⟨?_, trivial⟩
    simp! only [typedShape]
    exact h₅.typed h₁ (h₃.skip h₄) h₆.reads rfl rfl rfl

theorem implicitParam_takes {n : Ident} (hs : At raw s) (h : Named raw s t n) :
    Takes raw s t [(implicitParam n).shape] := by
  have hnode := h.declaring (.nil hs) (.nil h.at_) .parameter rfl
  rw [h.name.rangeFrom_eq, ← h.range_eq] at hnode
  simp! only [implicitParam, typedShape]
  exact hnode

theorem formalParams_ensures (hs : Significant raw) (hg : g.Sound raw) (h : At raw s) :
    Ensures (formalParams g) s fun p t =>
      Takes raw s t [.plain .parameterList p.1 (Param.shapes p.2)] := by
  refine (parenthesized_ensures hs (formalParam_parses hs hg) h).mono fun p t ⟨hp, hrange⟩ => ?_
  rw [hrange, ← Param.shapes_eq]
  exact hp.plain .parameterList rfl

end JavaAnalysis.Parser
