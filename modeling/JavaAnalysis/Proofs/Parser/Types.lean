import JavaAnalysis.Parser.Grammar
import JavaAnalysis.Proofs.Layout.Shapes
import JavaAnalysis.Proofs.Parser.Angles
import JavaAnalysis.Proofs.Parser.Lists

/-!
# Parsed types fit

Each production for a part of the file, given a grammar whose parsers take what fits, takes what
fits: here for types. What the parsers of a grammar must do is `Grammar.Sound`.
-/

set_option autoImplicit false
set_option linter.dupNamespace false

namespace JavaAnalysis.Parser

open Ast Lexeme

variable {raw : List Lexeme} {word : TokenKind}

def ParsesType (raw : List Lexeme) (p : Parser TypeRef) : Prop :=
  Parses raw (fun t => [t.shape]) (fun t lo hi => t.range = ⟨lo, hi⟩) p

def ParsesExpr (raw : List Lexeme) (p : Parser Expr) : Prop :=
  Parses raw (fun e => [e.shape]) (fun e lo hi => e.range = ⟨lo, hi⟩) p

/-- The body of a class was taken between two places; its brace may stand for a name. -/
structure BodyFrom (raw : List Lexeme) (s t : State) (b : ClassBody) : Prop where
  takes : Takes raw s t (bodyShapes b)
  range_eq : b.range = ⟨s.start, t.previousStop⟩
  opened : ∃ u, Took raw s u .lBrace ∧ Traced raw u t (bodyShapes b)

/-- The parsers of a grammar take what fits. -/
structure Grammar.Sound (raw : List Lexeme) (g : Grammar) : Prop where
  type : ParsesType raw g.type
  marker : Parses raw (fun use => [use.shape]) (fun use lo hi => use.range = ⟨lo, hi⟩) g.marker
  elementValue : ParsesExpr raw g.elementValue
  /-- The modifiers of a type declaration were read before, from where it starts. -/
  typeDecl : ∀ ms s₀ s, Reads raw s₀ s (modifierShapes ms (markerShapes ms)) →
    Ensures (g.typeDecl s₀.start ms) s fun d t => Takes raw s₀ t [d.shape]
  classBody : ∀ kind s, At raw s → Ensures (g.classBody kind) s fun b t => BodyFrom raw s t b
  block : Parses raw (fun b => [b.shape]) (fun b lo hi => b.range = ⟨lo, hi⟩) g.block
  stmt : Parses raw (fun s => [s.shape]) (fun _ _ _ => True) g.stmt
  expr : ParsesExpr raw g.expr
  conditional : ParsesExpr raw g.conditional
  binary : ∀ min, ParsesExpr raw (g.binary min)
  unary : ParsesExpr raw g.unary
  varInit : ParsesExpr raw g.varInit
  switchCases : Parses raw (fun p => caseShapes p.2) (fun _ _ _ => True) g.switchCases

variable {g : Grammar} {s s₀ t : State} {ty : TypeRef}

/-- A type was taken between two places. -/
def TypeFrom (raw : List Lexeme) (s t : State) (ty : TypeRef) : Prop :=
  Takes raw s t [ty.shape] ∧ ty.range = ⟨s.start, t.previousStop⟩

/-- An expression was taken between two places. -/
def ExprFrom (raw : List Lexeme) (s t : State) (e : Expr) : Prop :=
  Takes raw s t [e.shape] ∧ e.range = ⟨s.start, t.previousStop⟩

/-- A node over all that was taken; its range is the one that the parser gives it. -/
theorem ExprFrom.of_node {e : Expr} {kind : NodeKind} {as : List Shape} (h : Takes raw s t as)
    (hshape : e.shape = .plain kind (t.rangeFrom s.start) as)
    (hrange : e.range = t.rangeFrom s.start) (hangled : kind.isAngled = false) :
    ExprFrom raw s t e := by
  rw [h.rangeFrom_eq] at hshape hrange
  refine ⟨?_, hrange⟩
  rw [hshape]
  exact h.plain kind hangled

theorem TypeFrom.of_node {kind : NodeKind} {as : List Shape} (h : Takes raw s t as)
    (hshape : ty.shape = .plain kind (t.rangeFrom s.start) as)
    (hrange : ty.range = t.rangeFrom s.start) (hangled : kind.isAngled = false) :
    TypeFrom raw s t ty := by
  rw [h.rangeFrom_eq] at hshape hrange
  refine ⟨?_, hrange⟩
  rw [hshape]
  exact h.plain kind hangled

theorem TypeFrom.array (h : TypeFrom raw s₀ s ty) (hpair : Reads raw s t []) (pair : TextRange) :
    TypeFrom raw s₀ t (.array ⟨s₀.start, t.previousStop⟩ ty pair) := by
  refine ⟨?_, rfl⟩
  simp only [TypeRef.shape]
  exact (h.1.append hpair).plain .arrayType rfl

theorem arrayOf_ensures (hs : Significant raw) (h : TypeFrom raw s₀ s ty) :
    Ensures (arrayOf s₀.start ty) s fun v t => TypeFrom raw s₀ t v := by
  unfold arrayOf
  refine (brackets_ensures hs h.1.at_).bind ?_
  intro pairs t hpairs
  apply Ensures.pure
  induction hpairs generalizing ty with
  | nil => exact h
  | cons hpair _ ih =>
    exact ih (h.array hpair.reads _)

theorem typeArg_parses (hs : Significant raw) (hg : g.Sound raw) : ParsesType raw (typeArg g) := by
  intro s h
  unfold typeArg
  refine ifAt (fun hkind => ?_) fun _ => hg.type s h
  apply startHere_bind
  refine (advance_took hs h hkind rfl).bind ?_
  rintro _ t₁ ⟨h₁, -⟩
  apply kindAt_bind
  split
  · refine (advance_step hs h₁.step.at_).bind ?_
    intro _ t₂ h₂
    refine (hg.type t₂ h₂.at_).bind ?_
    rintro bound t₃ ⟨h₃, -⟩
    apply rangeFrom_bind
    apply Ensures.pure
    exact TypeFrom.of_node ((h₁.takes.skip h₂).append h₃.reads)
      (by simp only [TypeRef.shape]; rfl) rfl rfl
  · refine (advance_step hs h₁.step.at_).bind ?_
    intro _ t₂ h₂
    refine (hg.type t₂ h₂.at_).bind ?_
    rintro bound t₃ ⟨h₃, -⟩
    apply rangeFrom_bind
    apply Ensures.pure
    exact TypeFrom.of_node ((h₁.takes.skip h₂).append h₃.reads)
      (by simp only [TypeRef.shape]; rfl) rfl rfl
  · apply rangeFrom_bind
    apply Ensures.pure
    exact TypeFrom.of_node h₁.takes (by simp only [TypeRef.shape]; rfl) rfl rfl

theorem typeArgs_ensures (hs : Significant raw) (hg : g.Sound raw) (h : At raw s) :
    Ensures (typeArgs g) s fun p t =>
      Takes raw s t [.plain .typeArguments p.1 (TypeRef.shapes p.2)] := by
  unfold typeArgs
  apply startHere_bind
  refine (expect_took hs h rfl).bind ?_
  rintro _ t₁ ⟨h₁, -⟩
  apply kindAt_bind
  refine iteJoin (fun vs t => Reads raw t₁ t (TypeRef.shapes vs))
    (fun _ => .pure ?_) (fun _ => ?_) ?_
  · simp only [TypeRef.shapes]
    exact .nil h₁.step.at_
  · refine (separated_ensures hs rfl (typeArg_parses hs hg) h₁.step.at_).mono
      fun vs t ⟨hvs, _⟩ => ?_
    rw [← TypeRef.shapes_eq]
    exact hvs.reads
  · intro vs t₂ h₂
    refine (closeAngle_closes hs h₂.step.at_).bind ?_
    intro _ t₃ h₃
    apply rangeFrom_bind
    apply Ensures.pure
    have htakes := h₁.angles h₂ h₃ .typeArguments rfl
    rw [htakes.rangeFrom_eq]
    exact htakes

theorem classTypeFrom_ensures (hs : Significant raw) (hg : g.Sound raw) (n : Nat)
    {outer : Option TypeRef} (h : Reads raw s₀ s (outerShapes outer)) :
    Ensures (classTypeFrom g s₀.start n outer) s fun v t => TypeFrom raw s₀ t v := by
  induction n generalizing s outer with
  | zero => exact exhausted_ensures
  | succ n ih =>
    unfold classTypeFrom
    refine (ident_ensures hs h.step.at_).bind ?_
    intro name t₁ h₁
    have hnamed : Takes raw s₀ t₁ [.plain .classType ⟨s₀.start, t₁.previousStop⟩
        (outerShapes outer ++ [.nameUse name])] :=
      (h₁.nameUse.after h).plain .classType rfl
    apply isAt_bind
    refine Ensures.meet (fun (args : Option TextRange × List TypeRef) t => TypeFrom raw s₀ t (.named
      ⟨s₀.start, t.previousStop⟩ outer name args.1 args.2)) (fun args t ht => ?_) (fun _ => .pure
      ?_) fun _ hrest => ?_
    · apply rangeFrom_bind
      rw [ht.1.rangeFrom_eq]
      apply isAt_bind
      apply kindAt_bind
      refine Ensures.ite (fun _ => ?_) fun _ => .pure ht
      refine (advance_step hs ht.1.at_).bind ?_
      intro _ u hu
      exact ih (ht.1.skip hu).reads
    · refine ⟨?_, rfl⟩
      rw [shape_named, h₁.range_eq]
      exact hnamed
    · refine (typeArgs_ensures hs hg hnamed.at_).bind ?_
      intro p t₂ h₂
      refine hrest (some p.1, p.2) t₂ ⟨?_, rfl⟩
      rw [shape_named, h₁.range_eq]
      exact (hnamed.append h₂.reads).plain .parameterizedType rfl

theorem nonArrayType_ensures (hs : Significant raw) (hg : g.Sound raw) (h : At raw s) :
    Ensures (nonArrayType g) s fun v t => TypeFrom raw s t v := by
  unfold nonArrayType
  apply Ensures.get
  split
  · rename_i kind hkind
    have hfirm : (s.kind 0).isFirm = true := by
      revert hkind
      cases s.kind 0 <;> first | exact fun _ => rfl | exact nofun
    refine (advance_took hs h rfl hfirm).bind ?_
    rintro range t ⟨ht, hrange, -⟩
    refine .pure ⟨?_, hrange⟩
    rw [hrange]
    simp only [TypeRef.shape]
    exact ht.takes.plain .primitiveType rfl
  · exact classTypeFrom_ensures hs hg s.budget (.nil h)

theorem type_parses (hs : Significant raw) (hg : g.Sound raw) : ParsesType raw (type g) := by
  intro s h
  unfold type
  apply startHere_bind
  exact (nonArrayType_ensures hs hg h).bind fun v t ht => arrayOf_ensures hs ht

theorem typeParam_parses (hs : Significant raw) (hg : g.Sound raw) :
    Parses raw (fun p => typeParamShapes [p]) (fun _ _ _ => True) (typeParam g) := by
  intro s h
  unfold typeParam
  apply startHere_bind
  refine (many_reads (fun s hat _ => (hg.marker s hat).mono fun _ _ hm => hm.1) h).bind ?_
  intro marks t₁ h₁
  refine (ident_ensures hs h₁.step.at_).bind ?_
  intro name t₂ h₂
  refine ifEatJoin (fun bounds t => Reads raw t₂ t (TypeRef.shapes bounds))
    hs h₂.at_ rfl
    (fun t ht => ?_) (fun _ => .pure ?_) fun bounds t₃ h₃ => rangeFrom_bind (.pure ⟨?_, trivial⟩)
  · refine (separated_ensures hs rfl hg.type ht.step.at_).mono fun bounds u ⟨hbounds, _⟩ => ?_
    rw [← TypeRef.shapes_eq]
    exact (ht.takes.append hbounds.reads).reads
  · simp only [TypeRef.shapes]
    exact .nil h₂.at_
  · rw [AnnotationUse.shapes_eq] at h₁
    simp! only
    exact h₂.declaring h₁ h₃ .typeParameter rfl

theorem typeParams_ensures (hs : Significant raw) (hg : g.Sound raw) (h : At raw s) :
    Ensures (typeParams g) s fun p t =>
      Reads raw s t (listShapes .typeParameters p.1 (typeParamShapes p.2)) ∧
        (p.1 = none → p.2 = []) := by
  unfold typeParams
  refine ifAt (fun hkind => ?_) fun _ => .pure ⟨.nil h, fun _ => rfl⟩
  apply startHere_bind
  refine (advance_took hs h hkind rfl).bind ?_
  rintro _ t₁ ⟨h₁, -⟩
  refine (separated_ensures hs rfl (typeParam_parses hs hg) h₁.step.at_).bind ?_
  rintro params t₂ ⟨h₂, -⟩
  refine (closeAngle_closes hs h₂.at_).bind ?_
  intro _ t₃ h₃
  apply rangeFrom_bind
  apply Ensures.pure
  have htakes := h₁.angles h₂.reads h₃ .typeParameters rfl
  rw [htakes.rangeFrom_eq, ← typeParamShapes_eq]
  exact ⟨htakes.reads, nofun⟩

theorem typeList_ensures (hs : Significant raw) (hg : g.Sound raw) (h : At raw s) :
    Ensures (typeList g) s fun ts t => Takes raw s t (TypeRef.shapes ts) ∧
      ListEnds (fun t lo hi => t.range = ⟨lo, hi⟩) ts s.start t.previousStop := by
  simp only [← TypeRef.shapes_eq]
  exact separated_ensures hs rfl hg.type h

theorem catchType_ensures (hs : Significant raw) (hg : g.Sound raw) (h : At raw s) :
    Ensures (catchType g) s fun v t => TypeFrom raw s t v := by
  unfold catchType
  apply startHere_bind
  refine (separated_ensures hs rfl hg.type h).bind ?_
  rintro ts t ⟨hts, hends⟩
  split
  · rename_i v
    obtain ⟨_, _, hfirst, hlast, ⟨hi, hstart⟩, lo, hstop⟩ := hends
    cases hfirst
    cases hlast
    have hrange : v.range = ⟨s.start, t.previousStop⟩ := by
      have hboth := hstart.symm.trans hstop
      rw [hstart, (TextRange.mk.inj hboth).2]
    exact .pure ⟨hts, hrange⟩
  · apply rangeFrom_bind
    apply Ensures.pure
    rw [TypeRef.shapes_eq] at hts
    exact TypeFrom.of_node hts (by simp only [TypeRef.shape]; rfl) rfl rfl

/-- The word `var` in the place of a type lies where the name lies. -/
theorem inferredIfVar_ensures (h : TypeFrom raw s₀ s ty) :
    Ensures (inferredIfVar ty) s fun v t => TypeFrom raw s₀ t v := by
  unfold inferredIfVar
  split
  · rename_i range name
    apply supports_bind
    refine Ensures.ite (fun _ => .pure ?_) fun _ => .pure h
    have hrange : range = ⟨s₀.start, s.previousStop⟩ := h.2
    have hclosers : closers (shapeSites [(TypeRef.named range none name none []).shape]) = [] := by
      rw [shape_named]
      simp [outerShapes, TypeRef.shapes, closers, Site.closer?, Site.reference, angledSites,
        NodeKind.isAngled]
    refine ⟨?_, hrange⟩
    simp only [TypeRef.shape]
    rw [hrange]
    exact (h.1.bare hclosers).plain .varType rfl
  · exact .pure h

/-- A word with types behind it. -/
theorem Took.clause (h : Took raw s t word) (kind : ClauseKind) {u : State} {ts : List TypeRef}
    (hts : Takes raw t u (TypeRef.shapes ts))
    (hends : ListEnds (fun t lo hi => t.range = ⟨lo, hi⟩) ts t.start u.previousStop) :
    Takes raw s u (clauseShapes kind word ts) := by
  obtain ⟨first, last, hhead, hlast, ⟨hi, hfirst⟩, lo, hstop⟩ := hends
  obtain ⟨x, hx, hstart⟩ := h.precedes
  have hwhole := h.takes.append hts.reads
  unfold clauseShapes
  simp only [hhead, hlast, hfirst, hstop]
  refine ⟨hwhole.step, hwhole.anchored, .singleton ?_ hwhole.le, ?_, ?_⟩
  · simp only [Fits]
    exact ⟨x, hx, Nat.le_of_eq hstart.symm, hts.le, Nat.le_refl _, hts.placed⟩
  · simpa [Shape.sites] using hwhole.traced.trail
  · have hranged := hts.traced.ranged
    simp only [WellRanged, shapeRanges_cons, Shape.ranges, shapeRanges_nil, List.append_nil,
      List.forall_mem_cons] at hranged ⊢
    exact ⟨hts.le, hranged⟩

theorem clause_ensures (hs : Significant raw) (hg : g.Sound raw) (kind : ClauseKind)
    (h : Took raw s t word) :
    Ensures (typeList g) t fun ts u => Reads raw s u (clauseShapes kind word ts) := by
  refine (typeList_ensures hs hg h.step.at_).mono ?_
  rintro ts u ⟨hts, hends⟩
  exact (h.clause kind hts hends).reads

end JavaAnalysis.Parser
