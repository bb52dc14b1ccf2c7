import JavaAnalysis.Parser.Expressions
import JavaAnalysis.Proofs.Parser.Modifiers

/-!
# Parsed expressions fit

An expression that goes on with an operator, a selection or an index is read from where its first
operand starts; so the productions for what follows are told what was taken before them.
-/

set_option autoImplicit false
set_option linter.dupNamespace false

namespace JavaAnalysis.Parser

open Ast Lexeme

variable {raw : List Lexeme} {g : Grammar} {s s₀ t u : State} {e : Expr}

theorem arguments_ensures (hs : Significant raw) (hg : g.Sound raw) (h : At raw s) :
    Ensures (arguments g) s fun p t => Takes raw s t [.plain .arguments p.1 (Expr.shapes p.2)] := by
  refine (parenthesized_ensures hs hg.expr h).mono fun p t ⟨hp, hrange⟩ => ?_
  rw [hrange, ← Expr.shapes_eq]
  exact hp.plain .arguments rfl

/-- Expressions under a node of their own. -/
theorem Takes.exprList {es : List Expr} (kind : NodeKind) (h : Takes raw s t (Expr.shapes es))
    (hends : ListEnds (fun (e : Expr) lo hi => e.range = ⟨lo, hi⟩) es s.start t.previousStop)
    (hangled : kind.isAngled = false) :
    Takes raw s t (exprListShapes kind es (Expr.shapes es)) := by
  obtain ⟨first, last, hhead, hlast, ⟨hi, hfirst⟩, lo, hstop⟩ := hends
  unfold exprListShapes
  simp only [hhead, hlast, hfirst, hstop]
  exact h.plain kind hangled

theorem exprList_ensures (hs : Significant raw) (hg : g.Sound raw) (kind : NodeKind)
    (h : At raw s) (hangled : kind.isAngled = false) :
    Ensures (separated .comma g.expr) s fun es t =>
      Takes raw s t (exprListShapes kind es (Expr.shapes es)) := by
  refine (separated_ensures hs rfl hg.expr h).mono fun es t ⟨hes, hends⟩ => ?_
  rw [Expr.shapes_eq] at hes
  exact hes.exprList kind hends hangled

theorem arrayInit_ensures (hs : Significant raw) (hg : g.Sound raw) (h : At raw s) :
    Ensures (arrayInit g) s fun p t =>
      Takes raw s t (Expr.shapes p.2) ∧ p.1 = ⟨s.start, t.previousStop⟩ := by
  unfold arrayInit
  apply startHere_bind
  refine (expect_took hs h rfl).bind ?_
  rintro _ t₁ ⟨h₁, -⟩
  refine (terminated_reads hs rfl (fun s hat => (hg.varInit s hat).mono fun _ _ he => he.1)
    h₁.step.at_).bind ?_
  intro items t₂ h₂
  refine (expect_step hs h₂.step.at_).bind ?_
  intro _ t₃ h₃
  apply rangeFrom_bind
  apply Ensures.pure
  rw [Expr.shapes_eq] at h₂
  have htakes := (h₁.takes.append h₂).skip h₃
  exact ⟨htakes, htakes.rangeFrom_eq⟩

theorem varInit_parses (hs : Significant raw) (hg : g.Sound raw) : ParsesExpr raw (varInit g) := by
  intro s h
  unfold varInit
  refine ifAt (fun _ => ?_) fun _ => hg.expr s h
  refine (arrayInit_ensures hs hg h).bind ?_
  rintro p t ⟨hp, hrange⟩
  refine .pure ⟨?_, hrange⟩
  rw [hrange]
  simp! only
  exact hp.plain .arrayInitializer rfl

/-! ## Lambda expressions -/

theorem lambdaParams_ensures (hs : Significant raw) (hg : g.Sound raw) (h : At raw s) :
    Ensures (lambdaParams g) s fun p t =>
      Takes raw s t [.plain .parameterList p.1 (Param.shapes p.2)] := by
  unfold lambdaParams
  apply Ensures.get
  have hitem : Parses raw (fun (p : Param) => [p.shape]) (fun _ _ _ => True)
      (if (s.kind 1 == .ident && (s.kind 2 == .comma || s.kind 2 == .rParen)) = true then
        implicitParam <$> ident else formalParam g) := by
    intro s' h'
    refine .ite (fun _ => ?_) fun _ => formalParam_parses hs hg s' h'
    exact (ident_ensures hs h').map fun n t hn => ⟨implicitParam_takes h' hn, trivial⟩
  refine (parenthesized_ensures hs hitem h).mono fun p t ⟨hp, hrange⟩ => ?_
  rw [hrange, ← Param.shapes_eq]
  exact hp.plain .parameterList rfl

theorem lambdaRest_ensures (hs : Significant raw) (hg : g.Sound raw) {range : TextRange}
    {params : List Param} (parens : Bool)
    (h : Takes raw s₀ s [.plain .parameterList range (Param.shapes params)]) :
    Ensures (lambdaRest g s₀.start range params parens) s fun e t => ExprFrom raw s₀ t e := by
  unfold lambdaRest
  refine (expect_step hs h.at_).bind ?_
  intro _ t₁ h₁
  refine ifAt (fun _ => ?_) fun _ => ?_
  · refine (hg.block t₁ h₁.at_).bind ?_
    rintro body t₂ ⟨h₂, -⟩
    apply rangeFrom_bind
    apply Ensures.pure
    exact ExprFrom.of_node ((h.skip h₁).append h₂.body.reads) (by simp! only; rfl) rfl rfl
  · refine (hg.expr t₁ h₁.at_).bind ?_
    rintro body t₂ ⟨h₂, -⟩
    apply rangeFrom_bind
    apply Ensures.pure
    exact ExprFrom.of_node ((h.skip h₁).append h₂.body.reads) (by simp! only; rfl) rfl rfl

theorem lambda?_ensures (hs : Significant raw) (hg : g.Sound raw) (h : At raw s) :
    Ensures (lambda? g) s (Perhaps s (ExprFrom raw s)) := by
  unfold lambda?
  apply Ensures.get
  refine Ensures.ite (fun _ => ?_) fun _ => .ite (fun _ => ?_) fun _ => .pure rfl
  · refine (ident_ensures hs h).bind ?_
    intro name t₁ h₁
    have hparams : Takes raw s t₁ [.plain .parameterList name.range
        (Param.shapes [implicitParam name])] := by
      rw [← Param.shapes_eq, h₁.range_eq]
      exact (implicitParam_takes h h₁).plain .parameterList rfl
    exact (lambdaRest_ensures hs hg false hparams).map fun _ _ he => he
  · refine (lambdaParams_ensures hs hg h).bind ?_
    intro p t₁ h₁
    exact (lambdaRest_ensures hs hg true h₁).map fun _ _ he => he

/-! ## Assignments and conditions -/

theorem expr_parses (hs : Significant raw) (hg : g.Sound raw) : ParsesExpr raw (expr g) := by
  intro s h
  unfold expr
  apply startHere_bind
  refine (lambda?_ensures hs hg h).bind ?_
  intro o t ho
  cases o with
  | some e => exact .pure ho
  | none =>
    cases ho
    refine (hg.conditional s h).bind ?_
    intro target t₁ h₁
    apply kindAt_bind
    split
    · exact .pure h₁
    · refine (advance_step hs h₁.1.at_).bind ?_
      intro _ t₂ h₂
      refine (hg.expr t₂ h₂.at_).bind ?_
      rintro value t₃ ⟨h₃, -⟩
      apply rangeFrom_bind
      apply Ensures.pure
      exact ExprFrom.of_node ((h₁.1.skip h₂).append h₃.reads) (by simp! only; rfl) rfl rfl

theorem conditional_parses (hs : Significant raw) (hg : g.Sound raw) :
    ParsesExpr raw (conditional g) := by
  intro s h
  unfold conditional
  apply startHere_bind
  refine (hg.binary 0 s h).bind ?_
  intro cond t₁ h₁
  refine ifEat hs h₁.1.at_ rfl (fun t₂ h₂ => ?_) fun _ => .pure h₁
  refine (hg.expr t₂ h₂.step.at_).bind ?_
  rintro yes t₃ ⟨h₃, -⟩
  refine (expect_step hs h₃.at_).bind ?_
  intro _ t₄ h₄
  refine (lambda?_ensures hs hg h₄.at_).bind ?_
  intro o t₅ ho
  have hno : ∀ (no : Expr) t, ExprFrom raw t₄ t no →
      Ensures (rangeFrom s.start >>= fun r => pure (Expr.conditional r cond yes no)) t
        fun e u => ExprFrom raw s u e := by
    intro no t hno
    apply rangeFrom_bind
    apply Ensures.pure
    have hyes := ((h₁.1.skip h₂.step).append h₃.reads).skip h₄
    exact ExprFrom.of_node (hyes.append hno.1.reads) (by simp! only; rfl) rfl rfl
  cases o with
  | some no => exact hno no t₅ ho
  | none =>
    cases ho
    exact (hg.conditional t₄ h₄.at_).bind hno

/-! ## Operators between operands -/

theorem Takes.pattern {ms : List Modifier} {ty : TypeRef} {name : Ident} {s₁ s₂ : State}
    (hms : Reads raw s s₁ (modifierShapes ms (markerShapes ms))) (hty : Takes raw s₁ s₂ [ty.shape])
    (hname : Named raw s₂ t name) :
    Takes raw s t [(Pattern.mk (t.rangeFrom s.start) ms ty name).shape] := by
  have hwhole := (hty.append hname.name.reads).after hms
  rw [hwhole.rangeFrom_eq]
  simp! only
  exact hname.typed hms hty (.nil hname.at_) rfl rfl rfl

theorem instanceOfRest_ensures (hs : Significant raw) (hg : g.Sound raw) (h : ExprFrom raw s₀ s e)
    (hstep : Step raw s t) :
    Ensures (instanceOfRest g s₀.start e) t fun v u => ExprFrom raw s₀ u v := by
  unfold instanceOfRest
  have hleft := h.1.skip hstep
  apply startHere_bind
  refine (modifiers_reads hs hg hstep.at_).bind ?_
  intro ms t₁ h₁
  refine (type_parses hs hg t₁ h₁.step.at_).bind ?_
  rintro ty t₂ ⟨h₂, -⟩
  refine ifAt (fun _ => ?_) fun _ => .ite (fun hempty => ?_) fun _ => expected_ensures
  · refine (ident_ensures hs h₂.at_).bind ?_
    intro name t₃ h₃
    apply rangeFrom_bind
    apply rangeFrom_bind
    apply Ensures.pure
    have hpattern := Takes.pattern h₁ h₂ h₃
    exact ExprFrom.of_node (hleft.append hpattern.reads) (by simp! only; rfl) rfl rfl
  · apply rangeFrom_bind
    apply Ensures.pure
    cases List.isEmpty_iff.1 hempty
    have htype : Reads raw t t₂ [ty.shape] := h₁.append h₂.reads
    exact ExprFrom.of_node (hleft.append htype) (by simp! only; rfl) rfl rfl

theorem binaryFrom_ensures (hs : Significant raw) (hg : g.Sound raw) (min n : Nat)
    (h : ExprFrom raw s₀ s e) :
    Ensures (binaryFrom g s₀.start min n e) s fun v t => ExprFrom raw s₀ t v := by
  induction n generalizing s e with
  | zero => exact exhausted_ensures
  | succ n ih =>
    unfold binaryFrom
    refine ifAt (fun _ => .ite (fun _ => .pure h) fun _ => ?_) fun _ => kindAt_bind ?_
    · refine (advance_step hs h.1.at_).bind ?_
      intro _ t₁ h₁
      exact (instanceOfRest_ensures hs hg h h₁).bind fun v t₂ h₂ => ih h₂
    · split
      · exact .pure h
      · rename_i op _
        refine .ite (fun _ => .pure h) fun _ => ?_
        refine (advance_step hs h.1.at_).bind ?_
        intro _ t₁ h₁
        refine (hg.binary op.precedence t₁ h₁.at_).bind ?_
        rintro rhs t₂ ⟨h₂, -⟩
        apply rangeFrom_bind
        refine ih ?_
        exact ExprFrom.of_node ((h.1.skip h₁).append h₂.reads) (by simp! only; rfl) rfl rfl

theorem binary_parses (hs : Significant raw) (hg : g.Sound raw) (min : Nat) :
    ParsesExpr raw (binary g min) := by
  intro s h
  unfold binary
  apply Ensures.get
  exact (hg.unary s h).bind fun e t he => binaryFrom_ensures hs hg min s.budget he

/-! ## Casts -/

theorem castType_ensures (hs : Significant raw) (hg : g.Sound raw) (primitive : Bool)
    (h : At raw s) :
    Ensures (castType g primitive) s fun ty t => TypeFrom raw s t ty := by
  unfold castType
  refine (type_parses hs hg s h).bind ?_
  intro first t₁ h₁
  apply isAt_bind
  refine Ensures.ite (fun _ => ?_) fun _ => .pure h₁
  refine (advance_step hs h₁.1.at_).bind ?_
  intro _ t₂ h₂
  refine (separated_ensures hs rfl hg.type h₂.at_).bind ?_
  rintro others t₃ ⟨h₃, -⟩
  apply rangeFrom_bind
  apply Ensures.pure
  have htypes := (h₁.1.skip h₂).append h₃.reads
  rw [TypeRef.shapes_eq] at htypes
  have hstart : first.range.start = s.start := by rw [h₁.2]
  rw [hstart]
  exact TypeFrom.of_node htypes (by simp only [TypeRef.shape, TypeRef.shapes]; rfl) rfl rfl

theorem castTarget_ensures (hs : Significant raw) (hg : g.Sound raw) (h : At raw s)
    (hkind : s.kind 0 = .lParen) :
    Ensures (castTarget g) s fun ty t => Takes raw s t [ty.shape] := by
  unfold castTarget
  refine (advance_took hs h hkind rfl).bind ?_
  rintro _ t₁ ⟨h₁, -⟩
  apply kindAt_bind
  refine (castType_ensures hs hg _ h₁.step.at_).bind ?_
  rintro ty t₂ ⟨h₂, -⟩
  apply Ensures.get
  refine Ensures.ite (fun _ => ?_) fun _ => expected_ensures
  exact (advance_step hs h₂.at_).bind fun _ t₃ h₃ => .pure ((h₁.takes.append h₂.reads).skip h₃)

theorem cast?_ensures (hs : Significant raw) (hg : g.Sound raw) (h : At raw s)
    (hkind : s.kind 0 = .lParen) :
    Ensures (cast? g) s (Perhaps s (ExprFrom raw s)) := by
  unfold cast?
  apply startHere_bind
  refine (attempt_ensures (castTarget_ensures hs hg h hkind)).bind ?_
  intro o t₁ ho
  cases o with
  | none => exact .pure ho
  | some ty =>
    refine (lambda?_ensures hs hg ho.at_).bind ?_
    intro o t₂ ho'
    have hcast : ∀ (operand : Expr) t, ExprFrom raw t₁ t operand →
        Ensures (rangeFrom s.start >>= fun r => pure (some (Expr.cast r ty operand))) t
          (Perhaps s (ExprFrom raw s)) := by
      intro operand t hoperand
      apply rangeFrom_bind
      apply Ensures.pure
      exact ExprFrom.of_node (Takes.append ho hoperand.1.reads) (by simp! only; rfl) rfl rfl
    cases o with
    | some operand => exact hcast operand t₂ ho'
    | none =>
      cases ho'
      exact (hg.unary t₁ ho.at_).bind hcast

/-! ## Creation of objects and arrays -/

/-- A class without a name is declared by its brace. -/
theorem BodyFrom.anonymous {b : ClassBody} (h : BodyFrom raw s t b) :
    Takes raw s t (anonymousShapes (some b)) := by
  obtain ⟨u, hbrace, htraced⟩ := h.opened
  have hkey : (Site.declaration .classDecl b.range b.range.start).key? = some s.start := by
    rw [h.range_eq]
    rfl
  rw [anonymousShapes_some]
  refine .of_node h.takes.step h.takes.anchored h.takes.body.placed h.range_eq h.takes.anchored
    ⟨?_, ?_⟩
  · refine ((hbrace.named hkey).append htraced.trail).perm ?_
    simpa [Shape.sites, NodeSpec.sites, angledSites, NodeKind.isAngled] using
      @List.perm_append_comm _ [Site.declaration .classDecl b.range b.range.start]
        (shapeSites (bodyShapes b))
  · refine wellRanged_node.2 ⟨?_, h.takes.body.traced.ranged⟩
    simp only [NodeSpec.ranges, GapRule.ranges, List.forall_mem_singleton, h.range_eq]
    exact h.takes.le

theorem classBody?_ensures (hg : g.Sound raw) (h : At raw s) :
    Ensures (classBody? g) s fun b t => Reads raw s t (anonymousShapes b) := by
  unfold classBody?
  refine ifAt (fun _ => ?_) fun _ => .pure ?_
  · refine (hg.classBody .classType s h).map ?_
    intro b t hb
    exact hb.anonymous.reads
  · simp! only
    exact .nil h

theorem Reads.no_expr (h : At raw s) : Reads raw s s (optionalShapes none) := by
  simp! only
  exact .nil h

theorem Takes.some_expr (h : Takes raw s t [e.shape]) :
    Takes raw s t (optionalShapes (some e)) := by
  simp! only
  exact h

section

variable {β : Type} {kind : TokenKind} {k : Option Expr → Parser β} {post : β → State → Prop}

/-- An expression that may be left out, in front of the given kind of lexeme. -/
theorem optionalExpr_ensures (hg : g.Sound raw) (h : At raw s)
    (hk : ∀ o t, Reads raw s t (optionalShapes o) → Ensures (k o) t post) :
    Ensures (isAt kind >>= fun b =>
      if b = true then pure none >>= k else (some <$> g.expr) >>= k) s post := by
  refine ifAtJoin (fun o t => Reads raw s t (optionalShapes o)) (fun _ => .pure (.no_expr h))
    (fun _ => ?_) hk
  refine (hg.expr s h).map ?_
  rintro e t ⟨he, -⟩
  exact he.some_expr.reads

/-- An expression behind the given kind of lexeme, which may be left out together with it. -/
theorem exprBehind_ensures {p : Parser Expr} (hs : Significant raw) (h : At raw s)
    (hfirm : kind.isFirm = true) (hp : ParsesExpr raw p)
    (hk : ∀ o t, Reads raw s t (optionalShapes o) → Ensures (k o) t post) :
    Ensures (eat kind >>= fun b =>
      if b = true then (some <$> p) >>= k else pure none >>= k) s post := by
  refine ifEatJoin (fun o t => Reads raw s t (optionalShapes o)) hs h hfirm (fun t ht => ?_)
    (fun _ => .pure (.no_expr h)) hk
  refine (hp t ht.step.at_).map ?_
  rintro e u ⟨he, -⟩
  exact (ht.takes.append he.some_expr.reads).reads

end

theorem dimExpr_ensures (hs : Significant raw) (hg : g.Sound raw) (h : At raw s)
    (hkind : s.kind 0 = .lBracket) :
    Ensures (dimExpr g) s fun d t => Takes raw s t (dimShapes [d]) := by
  unfold dimExpr
  apply startHere_bind
  refine (advance_took hs h hkind rfl).bind ?_
  rintro _ t₁ ⟨h₁, -⟩
  refine optionalExpr_ensures hg h₁.step.at_ fun size t₂ h₂ => ?_
  refine (expect_step hs h₂.step.at_).bind ?_
  intro _ t₃ h₃
  apply rangeFrom_bind
  apply Ensures.pure
  have htakes := (h₁.takes.append h₂).skip h₃
  rw [htakes.rangeFrom_eq]
  simp! only
  exact htakes.plain .arrayDimension rfl

theorem creation_ensures (hs : Significant raw) (hg : g.Sound raw) {outer : Option Expr}
    (h : Reads raw s₀ s (optionalShapes outer)) :
    Ensures (creation g s₀.start outer) s fun v t => ExprFrom raw s₀ t v := by
  unfold creation
  refine (expect_took hs h.step.at_ rfl).bind ?_
  rintro _ t₁ ⟨h₁, -⟩
  have hnew := h₁.takes.after h
  rw [List.append_nil] at hnew
  refine (nonArrayType_ensures hs hg h₁.step.at_).bind ?_
  rintro ty t₂ ⟨h₂, -⟩
  apply isAt_bind
  have htype := hnew.append h₂.reads
  refine .ite (fun hcond => ?_) fun _ => ?_
  · rw [Bool.and_eq_true, Option.isNone_iff_eq_none] at hcond
    cases hcond.2
    refine (many_reads (fun s hat hmore => dimExpr_ensures hs hg hat (beq_iff_eq.1 hmore))
      h₂.at_).bind ?_
    intro dims t₃ h₃
    rw [dimShapes_eq] at h₃
    have hdims := htype.append h₃
    simp! only at hdims
    refine ifAt (fun _ => ?_) fun _ => rangeFrom_bind (.pure ?_)
    · refine (arrayInit_ensures hs hg hdims.at_).bind ?_
      rintro p t₄ ⟨h₄, hrange⟩
      apply rangeFrom_bind
      apply Ensures.pure
      have hinit := hdims.append (h₄.plain .arrayInitializer rfl).reads
      rw [← hrange] at hinit
      exact ExprFrom.of_node hinit (by simp! only; rfl) rfl rfl
    · exact ExprFrom.of_node hdims
        (by simp! only [listShapes, List.append_nil]; rfl) rfl rfl
  · refine (arguments_ensures hs hg h₂.at_).bind ?_
    intro p t₃ h₃
    refine (classBody?_ensures hg h₃.at_).bind ?_
    intro body t₄ h₄
    apply rangeFrom_bind
    apply Ensures.pure
    have hwhole := (htype.append h₃.reads).append h₄
    rw [List.append_assoc, List.append_assoc] at hwhole
    exact ExprFrom.of_node hwhole (by simp! only; rfl) rfl rfl

/-! ## Selections -/

/-- A node may end where the last of its names ends. -/
theorem anchored_of_le (hs : Significant raw) {a b c d : Nat} {word word' : Option TokenKind}
    (h : Anchored raw a b word) (h' : Anchored raw c d word') (hle : a ≤ c) :
    Anchored raw a d word := by
  obtain ⟨x, hx, hfirm, hstart, hstop, hword⟩ := h
  obtain ⟨y, hy, hfirm', hstart', hstop', -⟩ := h'
  refine ⟨x, hx, hfirm, hstart, ?_, hword⟩
  have hnonempty := hs.nonempty y hy (ne_endOfFile_of_isFirm hfirm')
  rcases hs.eq_or_apart hx hy with rfl | hxy | hyx
  · exact hstop'
  · omega
  · have : x.start ≤ x.stop := Nat.le_add_right _ _
    omega

/-- A dotted name that is read as a type takes the place of the expression. -/
theorem fits_of_typeOfExpr? (hs : Significant raw) (e : Expr) {ty : TypeRef} {lo hi : Nat}
    (hty : typeOfExpr? e = some ty) (h : Fits raw e.shape lo hi) :
    Fits raw ty.shape lo hi ∧ WellRanged [ty.shape] := by
  induction e using typeOfExpr?.induct generalizing ty lo hi with
  | case1 n =>
    unfold typeOfExpr? at hty
    cases hty
    simp! only [Shape.nameUse, Fits] at h
    have hle := h.2.2.le
    have hname : Fits raw (.nameUse n) n.range.start n.range.stop :=
      ⟨Nat.le_refl _, Nat.le_refl _, h.2.2⟩
    rw [shape_named]
    simp only [outerShapes, List.nil_append, Shape.plain, NodeSpec.plain, Fits]
    exact ⟨⟨h, .singleton hname hle⟩, wellRanged_plain.2 ⟨hle, wellRanged_nameUse.2 hle⟩⟩
  | case2 range target n ih =>
    unfold typeOfExpr? at hty
    obtain ⟨outer, houter, rfl⟩ := Option.map_eq_some_iff.1 hty
    simp! only [Shape.plain, NodeSpec.plain, Fits, Placed] at h
    obtain ⟨⟨hstart, hstop, hanchored⟩, mid, hmid, -, htarget, mid', -, hmid', hname, -⟩ := h
    simp only [Shape.nameUse, Fits] at hname
    obtain ⟨hnameStart, hnameStop, hnameAnchored⟩ := hname
    have hle := hnameAnchored.le
    have hwhole : Anchored raw range.start n.range.stop none :=
      anchored_of_le hs hanchored hnameAnchored (Nat.le_trans hmid hnameStart)
    have hhi : n.range.stop ≤ hi := by omega
    rw [shape_named]
    obtain ⟨houterFits, houterRanged⟩ := ih houter htarget
    simp only [outerShapes, Shape.plain, NodeSpec.plain, List.singleton_append, Fits, Placed]
    have hranged := wellRanged_append.2 ⟨houterRanged, wellRanged_nameUse.2 hle⟩
    exact ⟨⟨⟨hstart, hhi, hwhole⟩, mid, hmid, Nat.le_trans hnameStart hle, houterFits,
      n.range.stop, Nat.le_trans hnameStart hle, Nat.le_refl _,
      ⟨hnameStart, Nat.le_refl _, hnameAnchored⟩, trivial⟩, wellRanged_plain.2 ⟨hwhole.le, hranged⟩⟩
  | case3 e hname hfield =>
    rw [typeOfExpr?] at hty
    · cases hty
    · exact hname
    · exact hfield

/-- The type uses the same names. -/
theorem sites_of_typeOfExpr? (e : Expr) {ty : TypeRef} (hty : typeOfExpr? e = some ty) :
    ty.shape.sites = e.shape.sites := by
  induction e using typeOfExpr?.induct generalizing ty with
  | case1 n =>
    unfold typeOfExpr? at hty
    cases hty
    rw [shape_named]
    simp! [outerShapes, TypeRef.shapes, angledSites, NodeKind.isAngled]
  | case2 range target n ih =>
    unfold typeOfExpr? at hty
    obtain ⟨outer, houter, rfl⟩ := Option.map_eq_some_iff.1 hty
    rw [shape_named]
    simp! [outerShapes, TypeRef.shapes, ih houter, angledSites, NodeKind.isAngled]
  | case3 e hname hfield =>
    rw [typeOfExpr?] at hty
    · cases hty
    · exact hname
    · exact hfield

theorem memberOf_ensures (hs : Significant raw) (hg : g.Sound raw) (h : ExprFrom raw s₀ s e)
    (hstep : Step raw s t) :
    Ensures (memberOf g s₀.start e) t fun v u => ExprFrom raw s₀ u v := by
  unfold memberOf
  have hleft := h.1.skip hstep
  apply kindAt_bind
  split
  · refine (ident_ensures hs hstep.at_).bind ?_
    intro name t₁ h₁
    have hselect := hleft.append h₁.nameUse.reads
    refine ifAt (fun _ => ?_) fun _ => rangeFrom_bind (.pure ?_)
    · refine (arguments_ensures hs hg hselect.at_).bind ?_
      intro p t₂ h₂
      apply rangeFrom_bind
      apply Ensures.pure
      have hcall := (hselect.plain .memberSelect rfl).append h₂.reads
      rw [← h₁.stop_eq] at hcall
      refine ExprFrom.of_node hcall (by simp! only; rfl) rfl rfl
    · exact ExprFrom.of_node hselect (by simp! only; rfl) rfl rfl
  · refine (typeArgs_ensures hs hg hstep.at_).bind ?_
    intro p t₁ h₁
    refine (ident_ensures hs h₁.at_).bind ?_
    intro name t₂ h₂
    refine (arguments_ensures hs hg h₂.at_).bind ?_
    intro q t₃ h₃
    apply rangeFrom_bind
    apply Ensures.pure
    have hselect := (hleft.append h₁.reads).append h₂.nameUse.reads
    have hcall := (hselect.plain .memberSelect rfl).append h₃.reads
    rw [← h₂.stop_eq] at hcall
    exact ExprFrom.of_node hcall (by simp! only; rfl) rfl rfl
  · rename_i hkind
    refine (word_ensures hs hstep.at_ hkind rfl).bind ?_
    intro name t₁ h₁
    apply rangeFrom_bind
    apply Ensures.pure
    have hselect := hleft.append h₁.nameUse.reads
    exact ExprFrom.of_node hselect (by simp! only; rfl) rfl rfl
  · rename_i hkind
    refine (word_ensures hs hstep.at_ hkind rfl).bind ?_
    intro name t₁ h₁
    apply rangeFrom_bind
    apply Ensures.pure
    have hselect := hleft.append h₁.nameUse.reads
    exact ExprFrom.of_node hselect (by simp! only; rfl) rfl rfl
  · exact creation_ensures hs hg hleft.some_expr.reads
  · refine (advance_step hs hstep.at_).bind ?_
    intro _ t₁ h₁
    split
    · rename_i ty hty
      apply rangeFrom_bind
      apply Ensures.pure
      have hwhole := hleft.skip h₁
      obtain ⟨hfits, hranged⟩ := fits_of_typeOfExpr? hs e hty hwhole.fits
      have htrail : Trail raw s₀ t₁ (shapeSites [ty.shape]) := by
        simpa [sites_of_typeOfExpr? e hty] using hwhole.traced.trail
      have htype : Takes raw s₀ t₁ [ty.shape] :=
        ⟨hwhole.step, hwhole.anchored, .singleton hfits hwhole.le, htrail, hranged⟩
      exact ExprFrom.of_node htype (by simp! only; rfl) rfl rfl
    · exact fail_ensures
  · exact expected_ensures

theorem postfixFrom_ensures (hs : Significant raw) (hg : g.Sound raw) (n : Nat)
    (h : ExprFrom raw s₀ s e) :
    Ensures (postfixFrom g s₀.start n e) s fun v t => ExprFrom raw s₀ t v := by
  induction n generalizing s e with
  | zero => exact exhausted_ensures
  | succ n ih =>
    unfold postfixFrom
    apply kindAt_bind
    split
    · refine (advance_step hs h.1.at_).bind ?_
      intro _ t₁ h₁
      exact (memberOf_ensures hs hg h h₁).bind fun v t₂ h₂ => ih h₂
    · refine (advance_step hs h.1.at_).bind ?_
      intro _ t₁ h₁
      refine (hg.expr t₁ h₁.at_).bind ?_
      rintro index t₂ ⟨h₂, -⟩
      refine (expect_step hs h₂.at_).bind ?_
      intro _ t₃ h₃
      apply rangeFrom_bind
      refine ih ?_
      exact ExprFrom.of_node (((h.1.skip h₁).append h₂.reads).skip h₃)
        (by simp! only; rfl) rfl rfl
    · refine (advance_step hs h.1.at_).bind ?_
      intro _ t₁ h₁
      apply rangeFrom_bind
      refine ih ?_
      exact ExprFrom.of_node (h.1.skip h₁) (by simp! only; rfl) rfl rfl
    · refine (advance_step hs h.1.at_).bind ?_
      intro _ t₁ h₁
      apply rangeFrom_bind
      refine ih ?_
      exact ExprFrom.of_node (h.1.skip h₁) (by simp! only; rfl) rfl rfl
    · refine (advance_step hs h.1.at_).bind ?_
      intro _ t₁ h₁
      have hleft := h.1.skip h₁
      refine ifEatJoin (fun name t => ExprFrom raw s₀ t (.methodRef (t.rangeFrom s₀.start) e name))
        hs h₁.at_ rfl (fun t₂ h₂ => .pure ?_) (fun _ => ?_) fun name t₂ h₂ => rangeFrom_bind (ih h₂)
      · exact ExprFrom.of_node (hleft.skip h₂.step) (by simp! only; rfl) rfl rfl
      · refine (ident_ensures hs h₁.at_).map ?_
        intro name t₂ h₂
        exact ExprFrom.of_node (hleft.append h₂.nameUse.reads)
          (by simp! only; rfl) rfl rfl
    · exact .pure h

/-! ## Operands -/

theorem typePrimary_ensures (hs : Significant raw) (hg : g.Sound raw) (h : At raw s) :
    Ensures (typePrimary g s.start) s fun e t => ExprFrom raw s t e := by
  unfold typePrimary
  refine (type_parses hs hg s h).bind ?_
  rintro ty t₁ ⟨h₁, hrange⟩
  refine ifAt (fun _ => .pure ⟨?_, hrange⟩) fun _ => isAt_bind
    (kindAt_bind (.ite (fun _ => ?_) fun _ => ?_))
  · simp! only
    exact h₁
  · refine (advance_step hs h₁.at_).bind ?_
    intro _ t₂ h₂
    refine (advance_step hs h₂.at_).bind ?_
    intro _ t₃ h₃
    apply rangeFrom_bind
    apply Ensures.pure
    exact ExprFrom.of_node ((h₁.skip h₂).skip h₃) (by simp! only; rfl) rfl rfl
  · exact expected_ensures

theorem nameOrCall_ensures (hs : Significant raw) (hg : g.Sound raw) (h : At raw s) :
    Ensures (nameOrCall g s.start) s fun e t => ExprFrom raw s t e := by
  unfold nameOrCall
  refine (ident_ensures hs h).bind ?_
  intro name t₁ h₁
  have hname := h₁.nameUse
  refine ifAt (fun _ => ?_) fun _ => .pure ⟨?_, h₁.range_eq⟩
  · refine (arguments_ensures hs hg hname.at_).bind ?_
    intro p t₂ h₂
    apply rangeFrom_bind
    apply Ensures.pure
    exact ExprFrom.of_node (hname.append h₂.reads)
      (by simp! only [typeArgsShapes, listShapes, TypeRef.shapes]; rfl) rfl rfl
  · simp! only
    exact hname

theorem selfOrCall_ensures (hs : Significant raw) (hg : g.Sound raw) {kind : TokenKind}
    (h : At raw s) (hkind : s.kind 0 = kind) (hfirm : kind.isFirm = true) :
    Ensures (selfOrCall g s.start) s fun e t => ExprFrom raw s t e := by
  unfold selfOrCall
  apply Ensures.get
  refine (word_ensures hs h hkind hfirm).bind ?_
  intro name t₁ h₁
  have hname := h₁.nameUse
  have hleaf : Takes raw s t₁ [.leaf .identifier name.range] := by
    rw [h₁.range_eq]
    exact h₁.bare.plain .identifier rfl
  refine .ite (fun _ => ?_) fun _ => .ite (fun _ => .pure ⟨?_, h₁.range_eq⟩)
    fun _ => .pure ⟨?_, h₁.range_eq⟩
  · refine (arguments_ensures hs hg hname.at_).bind ?_
    intro p t₂ h₂
    apply rangeFrom_bind
    apply Ensures.pure
    exact ExprFrom.of_node (hname.append h₂.reads)
      (by simp! only [typeArgsShapes, listShapes, TypeRef.shapes]; rfl) rfl rfl
  · simp! only
    exact hleaf
  · simp! only
    exact hleaf

theorem isFirm_of_literal {kind : TokenKind} {literal : LiteralKind}
    (h : LiteralKind.ofToken? kind = some literal) : kind.isFirm = true := by
  revert h
  cases kind <;> first | exact fun _ => rfl | exact nofun

theorem primary_parses (hs : Significant raw) (hg : g.Sound raw) : ParsesExpr raw (primary g) := by
  intro s h
  unfold primary
  apply Ensures.get
  dsimp only
  split
  · rename_i literal hliteral
    refine (advance_took hs h rfl (isFirm_of_literal hliteral)).bind ?_
    rintro range t ⟨ht, hrange, -⟩
    refine .pure ⟨?_, hrange⟩
    rw [hrange]
    simp! only
    exact ht.takes.plain .literal rfl
  · split
    · rename_i hkind
      exact selfOrCall_ensures hs hg h hkind rfl
    · rename_i hkind
      exact selfOrCall_ensures hs hg h hkind rfl
    · refine iteJoin (Perhaps s (ExprFrom raw s))
        (fun _ => attempt_ensures (typePrimary_ensures hs hg h))
          (fun _ => .pure rfl) fun o t ho => ?_
      cases o with
      | some e => exact .pure ho
      | none =>
        cases ho
        exact nameOrCall_ensures hs hg h
    · rename_i hkind
      refine (advance_took hs h hkind rfl).bind ?_
      rintro _ t₁ ⟨h₁, -⟩
      refine (hg.expr t₁ h₁.step.at_).bind ?_
      rintro e t₂ ⟨h₂, -⟩
      refine (expect_step hs h₂.at_).bind ?_
      intro _ t₃ h₃
      apply rangeFrom_bind
      apply Ensures.pure
      exact ExprFrom.of_node ((h₁.takes.append h₂.reads).skip h₃)
        (by simp! only; rfl) rfl rfl
    · exact creation_ensures hs hg (.nil h)
    · rename_i hkind
      refine (advance_took hs h hkind rfl).bind ?_
      rintro _ t₁ ⟨h₁, -⟩
      refine (expect_step hs h₁.step.at_).bind ?_
      intro _ t₂ h₂
      refine (hg.expr t₂ h₂.at_).bind ?_
      rintro selector t₃ ⟨h₃, -⟩
      refine (expect_step hs h₃.at_).bind ?_
      intro _ t₄ h₄
      refine (hg.switchCases t₄ h₄.at_).bind ?_
      rintro ⟨casesRange, cases⟩ t₅ ⟨h₅, -⟩
      apply rangeFrom_bind
      apply Ensures.pure
      have hselector := ((h₁.takes.skip h₂).append h₃.reads).skip h₄
      exact ExprFrom.of_node (hselector.append h₅.reads) (by simp! only; rfl) rfl rfl
    · exact .ite (fun _ => typePrimary_ensures hs hg h) fun _ => expected_ensures

theorem unary_parses (hs : Significant raw) (hg : g.Sound raw) : ParsesExpr raw (unary g) := by
  intro s h
  unfold unary
  apply Ensures.get
  split
  · rename_i op hop
    have hfirm : (s.kind 0).isFirm = true := by
      revert hop
      cases s.kind 0 <;> first | exact fun _ => rfl | exact nofun
    refine (advance_took hs h rfl hfirm).bind ?_
    rintro _ t₁ ⟨h₁, -⟩
    refine (hg.unary t₁ h₁.step.at_).bind ?_
    rintro operand t₂ ⟨h₂, -⟩
    apply rangeFrom_bind
    apply Ensures.pure
    refine ExprFrom.of_node (h₁.takes.append h₂.reads) (by simp! only; rfl) rfl ?_
    cases op <;> rfl
  · refine iteJoin (Perhaps s (ExprFrom raw s))
      (fun hkind => cast?_ensures hs hg h (beq_iff_eq.1 hkind))
        (fun _ => .pure rfl) fun o t ho => ?_
    cases o with
    | some e => exact .pure ho
    | none =>
      cases ho
      exact (primary_parses hs hg s h).bind fun e t he => postfixFrom_ensures hs hg s.budget he

end JavaAnalysis.Parser
