import JavaAnalysis.Parser.Statements
import JavaAnalysis.Proofs.Parser.Declarations

/-!
# Parsed statements fit

A statement whose node must start with a word of its own is read from that word on, so it is enough
that the word was taken first.
-/

set_option autoImplicit false
set_option linter.dupNamespace false

namespace JavaAnalysis.Parser

open Ast Lexeme

variable {raw : List Lexeme} {g : Grammar} {s s₀ t u : State} {word : TokenKind}

theorem stmts_reads {more : State → Bool} (hg : g.Sound raw) (h : At raw s) :
    Ensures (many more g.stmt) s fun ss t => Reads raw s t (Stmt.shapes ss) := by
  simp only [← Stmt.shapes_eq]
  exact many_reads (fun s hat _ => (hg.stmt s hat).mono fun _ _ hst => hst.1) h

theorem block_parses (hs : Significant raw) (hg : g.Sound raw) :
    Parses raw (fun b => [b.shape]) (fun b lo hi => b.range = ⟨lo, hi⟩) (block g) := by
  intro s h
  unfold block
  apply startHere_bind
  refine (expect_took hs h rfl).bind ?_
  rintro _ t₁ ⟨h₁, -⟩
  refine (stmts_reads hg h₁.step.at_).bind ?_
  intro ss t₂ h₂
  refine (expect_step hs h₂.step.at_).bind ?_
  intro _ t₃ h₃
  apply rangeFrom_bind
  apply Ensures.pure
  have hwhole := (h₁.takes.append h₂).skip h₃
  refine ⟨?_, hwhole.rangeFrom_eq⟩
  simp! only
  exact hwhole.as_node .block rfl

theorem parenExpr_ensures (hs : Significant raw) (hg : g.Sound raw) (h : At raw s) :
    Ensures (parenExpr g) s fun e t => Takes raw s t [e.shape] := by
  unfold parenExpr
  refine (expect_took hs h rfl).bind ?_
  rintro _ t₁ ⟨h₁, -⟩
  refine (hg.expr t₁ h₁.step.at_).bind ?_
  rintro e t₂ ⟨h₂, -⟩
  exact (expect_step hs h₂.at_).bind fun _ t₃ h₃ => .pure ((h₁.takes.append h₂.reads).skip h₃)

/-! ## Local declarations -/

/-- Looking for a variable leaves the place as it is. -/
theorem isAtLocalVar_ensures : Ensures (isAtLocalVar g) s fun _ t => t = s := by
  unfold isAtLocalVar
  apply Ensures.get
  refine Ensures.ite (fun _ => .pure rfl) fun _ => .ite (fun _ => .pure rfl) fun _ => ?_
  split
  · exact .pure rfl
  · exact .pure rfl

theorem isAtVarDecl_ensures : Ensures (isAtVarDecl g) s fun _ t => t = s := by
  unfold isAtVarDecl
  exact isAt_bind (isAt_bind (.ite (fun _ => .pure rfl) fun _ => isAtLocalVar_ensures))

theorem localType_ensures (hs : Significant raw) (hg : g.Sound raw) (h : At raw s) :
    Ensures (localType g) s fun ty t => TypeFrom raw s t ty := by
  unfold localType
  exact (type_parses hs hg s h).bind fun ty t hty => inferredIfVar_ensures hty

theorem localDecl?_ensures (hs : Significant raw) (hg : g.Sound raw) (h : At raw s) :
    Ensures (localDecl? g) s (Perhaps s fun t st => Takes raw s t [st.shape]) := by
  unfold localDecl?
  apply Ensures.get
  dsimp only
  refine isAtLocalVar_ensures.bind fun b t hb => ?_
  cases hb
  refine .ite (fun _ => .pure rfl) fun _ => ?_
  refine (modifiers_reads hs hg h).bind ?_
  intro ms t₁ h₁
  apply Ensures.get
  refine Ensures.ite (fun _ => ?_) fun _ => ?_
  · refine (hg.typeDecl ms s t₁ h₁).bind ?_
    intro d t₂ h₂
    apply Ensures.pure
    simp! only [Perhaps]
    exact h₂
  · refine (localType_ensures hs hg h₁.step.at_).bind ?_
    rintro ty t₂ ⟨h₂, -⟩
    refine (ident_ensures hs h₂.at_).bind ?_
    intro name t₃ h₃
    refine (varDecl_ensures hs hg h₁ h₂ h₃).bind ?_
    intro d t₄ h₄
    apply Ensures.pure
    simp! only [Perhaps]
    exact h₄

theorem declOrExpr_ensures (hs : Significant raw) (hg : g.Sound raw) (h : At raw s) :
    Ensures (declOrExpr g s.start) s fun st t => Takes raw s t [st.shape] := by
  unfold declOrExpr
  refine (localDecl?_ensures hs hg h).bind ?_
  intro o t ho
  cases o with
  | some st => exact .pure ho
  | none =>
    cases ho
    refine (hg.expr s h).bind ?_
    rintro e t₁ ⟨h₁, -⟩
    refine (expect_step hs h₁.at_).bind ?_
    intro _ t₂ h₂
    apply rangeFrom_bind
    apply Ensures.pure
    simp! only
    exact (h₁.skip h₂).as_node .expressionStatement rfl

/-! ## Conditions and loops -/

theorem ifStmt_ensures (hs : Significant raw) (hg : g.Sound raw) (h : At raw s) :
    Ensures (ifStmt g) s fun st t => Takes raw s t [st.shape] := by
  unfold ifStmt
  apply startHere_bind
  refine (expect_took hs h rfl).bind ?_
  rintro _ t₁ ⟨h₁, -⟩
  refine (parenExpr_ensures hs hg h₁.step.at_).bind ?_
  intro cond t₂ h₂
  refine (hg.stmt t₂ h₂.at_).bind ?_
  rintro body t₃ ⟨h₃, -⟩
  have hbody := h₂.append h₃.reads
  refine ifEat hs hbody.at_ rfl (fun t₄ h₄ => ?_) fun _ => rangeFrom_bind (.pure ?_)
  · refine (hg.stmt t₄ h₄.step.at_).bind ?_
    rintro alternative t₅ ⟨h₅, -⟩
    apply rangeFrom_bind
    apply Ensures.pure
    simp! only
    exact h₁.as_headed _ rfl ((hbody.skip h₄.step).append h₅.reads).reads
  · simp! only
    exact h₁.as_headed _ rfl hbody.reads

theorem whileStmt_ensures (hs : Significant raw) (hg : g.Sound raw) (h : At raw s)
    (hkind : s.kind 0 = .whileKw) :
    Ensures (whileStmt g s.start) s fun st t => Takes raw s t [st.shape] := by
  unfold whileStmt
  refine (advance_took hs h hkind rfl).bind ?_
  rintro _ t₁ ⟨h₁, -⟩
  refine (parenExpr_ensures hs hg h₁.step.at_).bind ?_
  intro cond t₂ h₂
  refine (hg.stmt t₂ h₂.at_).bind ?_
  rintro body t₃ ⟨h₃, -⟩
  apply rangeFrom_bind
  apply Ensures.pure
  simp! only
  exact h₁.as_headed _ rfl (h₂.append h₃.reads).reads

theorem doStmt_ensures (hs : Significant raw) (hg : g.Sound raw) (h : At raw s)
    (hkind : s.kind 0 = .doKw) :
    Ensures (doStmt g s.start) s fun st t => Takes raw s t [st.shape] := by
  unfold doStmt
  refine (advance_took hs h hkind rfl).bind ?_
  rintro _ t₁ ⟨h₁, -⟩
  refine (hg.stmt t₁ h₁.step.at_).bind ?_
  rintro body t₂ ⟨h₂, -⟩
  refine (expect_step hs h₂.at_).bind ?_
  intro _ t₃ h₃
  refine (parenExpr_ensures hs hg h₃.at_).bind ?_
  intro cond t₄ h₄
  refine (expect_step hs h₄.at_).bind ?_
  intro _ t₅ h₅
  apply rangeFrom_bind
  apply Ensures.pure
  simp! only
  exact h₁.as_headed _ rfl (((h₂.skip h₃).append h₄.reads).skip h₅).reads

/-- The first part of a basic loop was read behind its first word. -/
theorem forRest_ensures (hs : Significant raw) (hg : g.Sound raw) {init : ForInit}
    (hhead : Took raw s₀ t .forKw) (h : Reads raw t s (forInitShapes init)) :
    Ensures (forRest g s₀.start init) s fun st u => Takes raw s₀ u [st.shape] := by
  unfold forRest
  refine (expect_took hs h.step.at_ rfl).bind ?_
  rintro _ t₁ ⟨h₁, -⟩
  refine optionalExpr_ensures hg h₁.step.at_ fun cond t₂ h₂ => ?_
  refine (expect_took hs h₂.step.at_ rfl).bind ?_
  rintro _ t₃ ⟨h₃, -⟩
  refine ifAtJoin (fun es t => Reads raw t₃ t (exprListShapes .forUpdate es (Expr.shapes es)))
    (fun _ => .pure (.nil h₃.step.at_)) (fun _ => ?_) fun update t₄ h₄ => ?_
  · exact (exprList_ensures hs hg .forUpdate h₃.step.at_ rfl).mono fun es t hes => hes.reads
  · refine (expect_took hs h₄.step.at_ rfl).bind ?_
    rintro _ t₅ ⟨h₅, -⟩
    refine (hg.stmt t₅ h₅.step.at_).bind ?_
    rintro body t₆ ⟨h₆, -⟩
    apply rangeFrom_bind
    apply Ensures.pure
    simp! only
    have hcond := ((h.took h₁).append h₂).took h₃
    have hupdate := (hcond.append h₄).took h₅
    exact hhead.as_headed _ rfl (hupdate.append h₆.reads)

/-- The declaration in a loop, behind the first word and the parenthesis. -/
theorem forDecl_ensures (hs : Significant raw) (hg : g.Sound raw) (hhead : Took raw s₀ t .forKw)
    (h : Took raw t s .lParen) :
    Ensures (forDecl g s₀.start) s fun st u => Takes raw s₀ u [st.shape] := by
  unfold forDecl
  apply startHere_bind
  refine (modifiers_reads hs hg h.step.at_).bind ?_
  intro ms t₁ h₁
  refine (localType_ensures hs hg h₁.step.at_).bind ?_
  rintro ty t₂ ⟨h₂, -⟩
  refine (ident_ensures hs h₂.at_).bind ?_
  intro name t₃ h₃
  apply Ensures.get
  refine Ensures.ite (fun _ => ?_) fun _ => ?_
  · refine (brackets_ensures hs h₃.at_).bind ?_
    intro pairs t₄ h₄
    apply rangeFrom_bind
    apply rangeFrom_bind
    have hinside := h₄.reads.append (.no_expr h₄.reads.step.at_)
    have hfragment : Fragments raw t₂ [.mk (t₄.rangeFrom name.range.start) name pairs none] t₄ :=
      .last (h₃.fragment (h₃.name.append hinside) hinside.traced)
    have hvar := hfragment.declares_bare h₁ h₂
    refine (expect_took hs hvar.at_ rfl).bind ?_
    rintro _ t₅ ⟨h₅, -⟩
    refine (hg.expr t₅ h₅.step.at_).bind ?_
    rintro iterable t₆ ⟨h₆, -⟩
    refine (expect_took hs h₆.at_ rfl).bind ?_
    rintro _ t₇ ⟨h₇, -⟩
    refine (hg.stmt t₇ h₇.step.at_).bind ?_
    rintro body t₈ ⟨h₈, -⟩
    apply rangeFrom_bind
    apply Ensures.pure
    rw [hvar.rangeFrom_eq]
    simp! only
    have hrest := ((hvar.skip h₅.step).append h₆.reads).skip h₇.step
    exact hhead.as_headed _ rfl (h.takes.append (hrest.append h₈.reads).reads).reads
  · refine (varFragments_ensures hs hg h₃).bind ?_
    intro fs t₄ h₄
    apply rangeFrom_bind
    have hdecl := h₄.declares_bare h₁ h₂
    rw [hdecl.rangeFrom_eq]
    refine forRest_ensures hs hg hhead ?_
    simp! only
    exact (h.takes.append (hdecl.plain .forInit rfl).reads).reads

theorem forStmt_ensures (hs : Significant raw) (hg : g.Sound raw) (h : At raw s) :
    Ensures (forStmt g) s fun st t => Takes raw s t [st.shape] := by
  unfold forStmt
  apply startHere_bind
  refine (expect_took hs h rfl).bind ?_
  rintro _ t₁ ⟨h₁, -⟩
  refine (expect_took hs h₁.step.at_ rfl).bind ?_
  rintro _ t₂ ⟨h₂, -⟩
  refine isAtVarDecl_ensures.bind fun b t₃ h₃ => ?_
  cases h₃
  refine .ite (fun _ => forDecl_ensures hs hg h₁ h₂) fun _ => ifAt (fun _ => ?_) fun _ => ?_
  · refine forRest_ensures hs hg h₁ ?_
    simp! only
    exact h₂.takes.reads
  · refine (exprList_ensures hs hg .forInit h₂.step.at_ rfl).bind ?_
    intro es t₄ h₄
    refine forRest_ensures hs hg h₁ ?_
    simp! only
    exact (h₂.takes.append h₄.reads).reads

/-! ## Exceptions -/

theorem throwStmt_ensures (hs : Significant raw) (hg : g.Sound raw) (h : At raw s) :
    Ensures (throwStmt g) s fun st t => Takes raw s t [st.shape] := by
  unfold throwStmt
  apply startHere_bind
  refine (expect_took hs h rfl).bind ?_
  rintro _ t₁ ⟨h₁, -⟩
  refine (hg.expr t₁ h₁.step.at_).bind ?_
  rintro e t₂ ⟨h₂, -⟩
  refine (expect_step hs h₂.at_).bind ?_
  intro _ t₃ h₃
  apply rangeFrom_bind
  apply Ensures.pure
  simp! only
  exact ((h₁.takes.append h₂.reads).skip h₃).as_node .throwStatement rfl

theorem resource_ensures (hs : Significant raw) (hg : g.Sound raw) (h : At raw s) :
    Ensures (resource g) s fun r t => Takes raw s t (resourceShapes [r]) := by
  unfold resource
  refine isAtVarDecl_ensures.bind fun b t hb => ?_
  cases hb
  refine .ite (fun _ => startHere_bind ?_) fun _ => ?_
  · refine (modifiers_reads hs hg h).bind ?_
    intro ms t₁ h₁
    refine (localType_ensures hs hg h₁.step.at_).bind ?_
    rintro ty t₂ ⟨h₂, -⟩
    refine (ident_ensures hs h₂.at_).bind ?_
    intro name t₃ h₃
    refine (expect_step hs h₃.at_).bind ?_
    intro _ t₄ h₄
    refine (hg.expr t₄ h₄.at_).bind ?_
    rintro init t₅ ⟨h₅, -⟩
    apply rangeFrom_bind
    apply rangeFrom_bind
    apply Ensures.pure
    have hinit := h₅.some_expr
    have hfragment : Fragments raw t₂ [.mk (t₅.rangeFrom name.range.start) name []
      (some init)] t₅ :=
      .last (h₃.fragment ((h₃.name.skip h₄).append hinit.reads) (hinit.traced.after h₄.trail))
    have hdecl := hfragment.declares_bare h₁ h₂
    rw [hdecl.rangeFrom_eq]
    simp! only
    exact hdecl
  · refine (hg.expr s h).bind ?_
    rintro e t ⟨he, -⟩
    apply Ensures.pure
    simp! only
    exact he

theorem resources_ensures (hs : Significant raw) (hg : g.Sound raw) (h : At raw s) :
    Ensures (resources g) s fun p t =>
      Reads raw s t (listShapes .resourceList p.1 (resourceShapes p.2)) := by
  unfold resources
  refine ifAt (fun hkind => startHere_bind ?_) fun _ => .pure (.nil h)
  refine (advance_took hs h hkind rfl).bind ?_
  rintro _ t₁ ⟨h₁, -⟩
  refine (terminated_reads hs rfl (fun s hat => resource_ensures hs hg hat) h₁.step.at_).bind ?_
  intro items t₂ h₂
  refine (expect_step hs h₂.step.at_).bind ?_
  intro _ t₃ h₃
  apply rangeFrom_bind
  apply Ensures.pure
  rw [resourceShapes_eq] at h₂
  exact (((h₁.takes.append h₂).skip h₃).as_node .resourceList rfl).reads

theorem catchClause_ensures (hs : Significant raw) (hg : g.Sound raw) (h : At raw s) :
    Ensures (catchClause g) s fun c t => Takes raw s t (catchShapes [c]) := by
  unfold catchClause
  apply startHere_bind
  refine (expect_took hs h rfl).bind ?_
  rintro _ t₁ ⟨h₁, -⟩
  refine (expect_took hs h₁.step.at_ rfl).bind ?_
  rintro _ t₂ ⟨h₂, -⟩
  apply startHere_bind
  refine (modifiers_reads hs hg h₂.step.at_).bind ?_
  intro ms t₃ h₃
  refine (catchType_ensures hs hg h₃.step.at_).bind ?_
  rintro ty t₄ ⟨h₄, -⟩
  refine (ident_ensures hs h₄.at_).bind ?_
  intro name t₅ h₅
  apply rangeFrom_bind
  have hparam : Takes raw t₂ t₅
      [(Param.mk (t₅.rangeFrom t₂.start) ms (some ty) none name []).shape] := by
    have htype : Perhaps t₃ (fun t ty => Takes raw t₃ t [ty.shape]) (some ty) t₄ := h₄
    simp! only
    exact h₅.typedShape h₃ htype (.nil h₅.at_) rfl
  refine (expect_took hs hparam.at_ rfl).bind ?_
  rintro _ t₆ ⟨h₆, -⟩
  refine (hg.block t₆ h₆.step.at_).bind ?_
  rintro body t₇ ⟨h₇, -⟩
  apply rangeFrom_bind
  apply Ensures.pure
  have hhead := h₁.takes.append h₂.takes.reads
  have hbody := (hparam.skip h₆.step).append h₇.reads
  simp! only
  exact (hhead.append hbody.reads).as_node .catchClause rfl

theorem tryStmt_ensures (hs : Significant raw) (hg : g.Sound raw) (h : At raw s) :
    Ensures (tryStmt g) s fun st t => Takes raw s t [st.shape] := by
  unfold tryStmt
  apply startHere_bind
  refine (expect_took hs h rfl).bind ?_
  rintro _ t₁ ⟨h₁, -⟩
  refine (resources_ensures hs hg h₁.step.at_).bind ?_
  intro p t₂ h₂
  obtain ⟨resourcesRange, resources⟩ := p
  refine (hg.block t₂ h₂.step.at_).bind ?_
  rintro body t₃ ⟨h₃, -⟩
  refine (many_reads (fun s hat _ => catchClause_ensures hs hg hat) h₃.at_).bind ?_
  intro catches t₄ h₄
  rw [catchShapes_eq] at h₄
  refine ifEatJoin (fun final t => Reads raw t₄ t (blockShapes final)) hs h₄.step.at_ rfl
    (fun u hu => ?_) (fun _ => .pure ?_) fun final t₅ h₅ => .ite (fun _ => fail_ensures) fun _ => ?_
  · refine (hg.block u hu.step.at_).map ?_
    rintro b v ⟨hb, -⟩
    simp! only
    exact (hu.takes.append hb.reads).reads
  · simp! only
    exact .nil h₄.step.at_
  · apply rangeFrom_bind
    apply Ensures.pure
    simp! only
    exact h₁.as_headed _ rfl ((h₂.append (h₃.append h₄).reads).append h₅)

/-! ## Switches -/

theorem casePattern_ensures (hs : Significant raw) (hg : g.Sound raw) (h : At raw s) :
    Ensures (casePattern g) s fun p t => Takes raw s t [p.shape] := by
  unfold casePattern
  apply startHere_bind
  refine (modifiers_reads hs hg h).bind ?_
  intro ms t₁ h₁
  refine (type_parses hs hg t₁ h₁.step.at_).bind ?_
  rintro ty t₂ ⟨h₂, -⟩
  refine (ident_ensures hs h₂.at_).bind ?_
  intro name t₃ h₃
  apply Ensures.get
  refine Ensures.ite (fun _ => ?_) fun _ => ?_
  · exact rangeFrom_bind (.pure (.pattern h₁ h₂ h₃))
  · exact expected_ensures

theorem labelEnd_step (hs : Significant raw) (h : At raw s) :
    Ensures labelEnd s fun _ t => Step raw s t := by
  unfold labelEnd
  refine ifEat hs h rfl (fun t ht => .pure ht.step) fun _ => ?_
  exact (expect_step hs h).bind fun _ t ht => .pure ht

theorem caseLabel_ensures (hs : Significant raw) (hg : g.Sound raw) (h : At raw s) :
    Ensures (caseLabel g) s fun p t => Takes raw s t (labelShapes [p.1]) := by
  unfold caseLabel
  apply startHere_bind
  refine ifEat hs h rfl (fun t₁ h₁ => ?_) fun _ => ?_
  · refine (labelEnd_step hs h₁.step.at_).bind ?_
    intro arrow t₂ h₂
    apply rangeFrom_bind
    apply Ensures.pure
    simp! only
    exact (h₁.takes.skip h₂).as_node .caseLabel rfl
  refine (expect_took hs h rfl).bind ?_
  rintro _ t₁ ⟨h₁, -⟩
  refine (attempt_ensures (casePattern_ensures hs hg h₁.step.at_)).bind ?_
  intro o t₂ ho
  cases o with
  | some pattern =>
    have hpattern : Takes raw t₁ t₂ [pattern.shape] := ho
    apply Ensures.get
    refine Ensures.meet (fun guard t => Reads raw t₂ t (optionalShapes guard))
      (fun guard t₃ h₃ => ?_) (fun _ => .pure (.no_expr hpattern.at_)) fun hwhen hrest => ?_
    · refine (labelEnd_step hs h₃.step.at_).bind ?_
      intro arrow t₄ h₄
      apply rangeFrom_bind
      apply Ensures.pure
      simp! only
      exact (h₁.takes.append ((hpattern.append h₃).skip h₄).reads).as_node .caseLabel rfl
    · refine (advance_took hs hpattern.at_ (kind_of_isWord hwhen) rfl).bind ?_
      rintro _ u ⟨hu, -⟩
      refine ((hg.conditional u hu.step.at_).map ?_).bind hrest
      rintro e v ⟨he, -⟩
      exact (hu.takes.append he.some_expr.reads).reads
  | none =>
    cases ho
    refine (separated_ensures hs rfl hg.conditional h₁.step.at_).bind ?_
    rintro values t₃ ⟨h₃, -⟩
    refine (labelEnd_step hs h₃.at_).bind ?_
    intro arrow t₄ h₄
    apply rangeFrom_bind
    apply Ensures.pure
    rw [Expr.shapes_eq] at h₃
    simp! only
    exact (h₁.takes.append (h₃.skip h₄).reads).as_node .caseLabel rfl

theorem caseLabelsUpTo_ensures (hs : Significant raw) (hg : g.Sound raw) (n : Nat) (h : At raw s) :
    Ensures (caseLabelsUpTo g n) s fun p t => Takes raw s t (labelShapes p.1) := by
  induction n generalizing s with
  | zero => exact exhausted_ensures
  | succ n ih =>
    unfold caseLabelsUpTo
    refine (caseLabel_ensures hs hg h).bind ?_
    intro p t₁ h₁
    apply Ensures.get
    refine Ensures.ite (fun _ => ?_) fun _ => .pure h₁
    refine (ih h₁.at_).bind ?_
    intro q t₂ h₂
    apply Ensures.pure
    rw [labelShapes_cons]
    exact h₁.append h₂.reads

theorem arrowBody_ensures (hs : Significant raw) (hg : g.Sound raw) (h : At raw s) :
    Ensures (arrowBody g) s fun st t => Takes raw s t [st.shape] := by
  unfold arrowBody
  apply startHere_bind
  apply kindAt_bind
  split
  · refine (hg.block s h).map ?_
    rintro b t ⟨hb, -⟩
    simp! only
    exact hb
  · exact throwStmt_ensures hs hg h
  · refine (hg.expr s h).bind ?_
    rintro e t₁ ⟨h₁, -⟩
    refine (expect_step hs h₁.at_).bind ?_
    intro _ t₂ h₂
    apply rangeFrom_bind
    apply Ensures.pure
    simp! only
    exact (h₁.skip h₂).as_node .expressionStatement rfl

theorem switchCase_ensures (hs : Significant raw) (hg : g.Sound raw) (h : At raw s) :
    Ensures (switchCase g) s fun c t => Takes raw s t (caseShapes [c]) := by
  unfold switchCase
  apply Ensures.get
  refine Ensures.ite (fun _ => expected_ensures) fun _ => ?_
  refine (caseLabelsUpTo_ensures hs hg s.budget h).bind ?_
  intro p t₁ h₁
  refine iteJoin (fun body t => Reads raw t₁ t (Stmt.shapes body)) (fun _ => ?_)
    (fun _ => stmts_reads hg h₁.at_) fun body t₂ h₂ => rangeFrom_bind (.pure ?_)
  · refine (arrowBody_ensures hs hg h₁.at_).map ?_
    intro st t hst
    rw [← Stmt.shapes_eq]
    exact hst.reads
  · simp! only
    exact (h₁.append h₂).as_node .caseGroup rfl

theorem switchCases_parses (hs : Significant raw) (hg : g.Sound raw) :
    Parses raw (fun p => caseShapes p.2) (fun _ _ _ => True) (switchCases g) := by
  intro s h
  unfold switchCases
  apply startHere_bind
  refine (expect_took hs h rfl).bind ?_
  rintro _ t₁ ⟨h₁, -⟩
  refine (many_reads (fun s hat _ => switchCase_ensures hs hg hat) h₁.step.at_).bind ?_
  intro cs t₂ h₂
  refine (expect_step hs h₂.step.at_).bind ?_
  intro _ t₃ h₃
  apply rangeFrom_bind
  refine .pure ⟨?_, trivial⟩
  rw [caseShapes_eq] at h₂
  exact (h₁.takes.append h₂).skip h₃

theorem switchStmt_ensures (hs : Significant raw) (hg : g.Sound raw) (h : At raw s)
    (hkind : s.kind 0 = .switchKw) :
    Ensures (switchStmt g s.start) s fun st t => Takes raw s t [st.shape] := by
  unfold switchStmt
  refine (advance_took hs h hkind rfl).bind ?_
  rintro _ t₁ ⟨h₁, -⟩
  refine (parenExpr_ensures hs hg h₁.step.at_).bind ?_
  intro selector t₂ h₂
  refine (hg.switchCases t₂ h₂.at_).bind ?_
  rintro ⟨casesRange, cases⟩ t₃ ⟨h₃, -⟩
  apply rangeFrom_bind
  apply Ensures.pure
  simp! only
  exact h₁.as_headed _ rfl (h₂.append h₃.reads).reads

/-! ## Jumps and labels -/

theorem jumpLabel_reads (hs : Significant raw) (h : At raw s) :
    Ensures jumpLabel s fun label t =>
      Reads raw s t (label.map Shape.name).toList ∧ ∀ n ∈ label, Spelled raw n := by
  unfold jumpLabel
  refine ifAtJoin (fun label t =>
      Reads raw s t (label.map Shape.name).toList ∧ ∀ n ∈ label, Spelled raw n)
    (fun _ => ?_) (fun _ => .pure ⟨.nil h, nofun⟩) fun label t₁ ⟨h₁, hspelled⟩ => ?_
  · refine (ident_ensures hs h).map fun n t hn => ⟨hn.name.reads, ?_⟩
    rintro _ ⟨⟩
    exact hn.spelled
  · exact (expect_took hs h₁.step.at_ rfl).bind fun _ t₂ ⟨h₂, _⟩ => .pure ⟨h₁.took h₂, hspelled⟩

/-- A jump behind its first word. -/
theorem Took.jump (h : Took raw s t word) {kind : NodeKind} (hangled : kind.isAngled = false)
    {label : Option Ident} (h' : Reads raw t u (label.map Shape.name).toList)
    (hspelled : ∀ n ∈ label, Spelled raw n) :
    Takes raw s u [.jump kind (u.rangeFrom s.start) label] := by
  have hwhole := h.takes.append h'
  rw [hwhole.rangeFrom_eq]
  have hrange : Ranged raw ⟨s.start, u.previousStop⟩ none s.start u.previousStop :=
    ⟨Nat.le_refl _, Nat.le_refl _, hwhole.anchored⟩
  have hranged := h'.traced.ranged
  have htrail : Trail raw s u [] := by
    cases label <;> simpa using hwhole.traced.trail
  cases label with
  | none =>
    refine ⟨hwhole.step, hwhole.anchored, .singleton ?_ hwhole.le, ?_, ?_⟩
    · simp only [Fits]
      exact hrange
    · simpa [Shape.sites, angledSites, hangled] using htrail
    · simpa [WellRanged, Shape.ranges] using hwhole.le
  | some n =>
    have hname := Takes.fits hwhole
    simp only [Shape.name, Fits] at hname
    refine ⟨hwhole.step, hwhole.anchored, .singleton ?_ hwhole.le, ?_, ?_⟩
    · simp only [Fits]
      exact ⟨hrange, hspelled n rfl, hname⟩
    · simpa [Shape.sites, angledSites, hangled] using htrail
    · have hlabel := wellRanged_name.1 hranged
      simpa [WellRanged, Shape.ranges] using And.intro hwhole.le hlabel

/-- A statement behind a label. -/
theorem Named.labeled {n : Ident} {shape : Shape} {t' : State} (h : Named raw s t n)
    (hstep : Step raw t t')
    (h' : Takes raw t' u [shape]) : Takes raw s u [.labeled (u.rangeFrom s.start) n [shape]] := by
  have hwhole := (h.name.skip hstep).append h'.reads
  rw [hwhole.rangeFrom_eq]
  refine ⟨hwhole.step, hwhole.anchored, .singleton ?_ hwhole.le, ?_, ?_⟩
  · have hplaced := hwhole.placed
    simp only [List.singleton_append, Placed] at hplaced
    obtain ⟨mid, -, hmid, hlabel, hbody⟩ := hplaced
    simp only [Shape.name, Fits] at hlabel
    simp only [Fits, Placed]
    exact ⟨⟨Nat.le_refl _, Nat.le_refl _, hwhole.anchored⟩, h.spelled, mid, hmid, hlabel, hbody⟩
  · simpa [Shape.sites] using hwhole.traced.trail
  · have hranged := wellRanged_append.1 hwhole.traced.ranged
    have hlabel := wellRanged_name.1 hranged.1
    simp only [WellRanged, shapeRanges_cons, shapeRanges_nil, Shape.ranges, List.append_nil,
      List.forall_mem_cons] at hranged ⊢
    exact ⟨hwhole.le, hlabel, hranged.2⟩

theorem wordStmt_ensures (hs : Significant raw) (hg : g.Sound raw) (h : At raw s) :
    Ensures (wordStmt g s.start) s fun st t => Takes raw s t [st.shape] := by
  unfold wordStmt
  apply Ensures.get
  refine Ensures.ite (fun _ => ?_) fun _ => .ite (fun hyield => ?_) fun _ => ?_
  · refine (ident_ensures hs h).bind ?_
    intro label t₁ h₁
    refine (advance_step hs h₁.at_).bind ?_
    intro _ t₂ h₂
    refine (hg.stmt t₂ h₂.at_).bind ?_
    rintro body t₃ ⟨h₃, -⟩
    apply rangeFrom_bind
    apply Ensures.pure
    simp! only
    exact h₁.labeled h₂ h₃
  · unfold State.isAtYield at hyield
    simp only [Bool.and_eq_true] at hyield
    refine (advance_took hs h (kind_of_isWord hyield.1.1) rfl).bind ?_
    rintro _ t₁ ⟨h₁, -⟩
    refine (hg.expr t₁ h₁.step.at_).bind ?_
    rintro e t₂ ⟨h₂, -⟩
    refine (expect_step hs h₂.at_).bind ?_
    intro _ t₃ h₃
    apply rangeFrom_bind
    apply Ensures.pure
    simp! only
    exact ((h₁.takes.append h₂.reads).skip h₃).as_node .yieldStatement rfl
  · exact declOrExpr_ensures hs hg h

/-! ## The rest -/

theorem returnStmt_ensures (hs : Significant raw) (hg : g.Sound raw) (h : At raw s)
    (hkind : s.kind 0 = .returnKw) :
    Ensures (returnStmt g s.start) s fun st t => Takes raw s t [st.shape] := by
  unfold returnStmt
  refine (advance_took hs h hkind rfl).bind ?_
  rintro _ t₁ ⟨h₁, -⟩
  refine optionalExpr_ensures hg h₁.step.at_ fun e t₂ h₂ => ?_
  refine (expect_step hs h₂.step.at_).bind ?_
  intro _ t₃ h₃
  apply rangeFrom_bind
  apply Ensures.pure
  simp! only
  exact ((h₁.takes.append h₂).skip h₃).as_node .returnStatement rfl

theorem synchronizedStmt_ensures (hs : Significant raw) (hg : g.Sound raw) (h : At raw s)
    (hkind : s.kind 0 = .synchronizedKw) :
    Ensures (synchronizedStmt g s.start) s fun st t => Takes raw s t [st.shape] := by
  unfold synchronizedStmt
  refine (advance_took hs h hkind rfl).bind ?_
  rintro _ t₁ ⟨h₁, -⟩
  refine (parenExpr_ensures hs hg h₁.step.at_).bind ?_
  intro lock t₂ h₂
  refine (hg.block t₂ h₂.at_).bind ?_
  rintro body t₃ ⟨h₃, -⟩
  apply rangeFrom_bind
  apply Ensures.pure
  simp! only
  exact (h₁.takes.append (h₂.append h₃.reads).reads).as_node .synchronizedStatement rfl

theorem assertStmt_ensures (hs : Significant raw) (hg : g.Sound raw) (h : At raw s)
    (hkind : s.kind 0 = .assertKw) :
    Ensures (assertStmt g s.start) s fun st t => Takes raw s t [st.shape] := by
  unfold assertStmt
  refine (advance_took hs h hkind rfl).bind ?_
  rintro _ t₁ ⟨h₁, -⟩
  refine (hg.expr t₁ h₁.step.at_).bind ?_
  rintro cond t₂ ⟨h₂, -⟩
  refine exprBehind_ensures hs h₂.at_ rfl hg.expr fun message t₃ h₃ => ?_
  refine (expect_step hs h₃.step.at_).bind ?_
  intro _ t₄ h₄
  apply rangeFrom_bind
  apply Ensures.pure
  have hcond := h₁.takes.append h₂.reads
  simp! only
  exact ((hcond.append h₃).skip h₄).as_node .assertStatement rfl

theorem stmt_ensures (hs : Significant raw) (hg : g.Sound raw) (h : At raw s) :
    Ensures (stmt g) s fun st t => Takes raw s t [st.shape] := by
  unfold stmt
  apply Ensures.get
  dsimp only
  split
  · refine (hg.block s h).map ?_
    rintro b t ⟨hb, -⟩
    simp! only
    exact hb
  · rename_i hkind
    refine (advance_took hs h hkind rfl).bind ?_
    rintro _ t ⟨ht, -⟩
    apply rangeFrom_bind
    apply Ensures.pure
    simp! only
    exact ht.takes.as_node .emptyStatement rfl
  · exact ifStmt_ensures hs hg h
  · rename_i hkind
    exact whileStmt_ensures hs hg h hkind
  · rename_i hkind
    exact doStmt_ensures hs hg h hkind
  · exact forStmt_ensures hs hg h
  · rename_i hkind
    exact returnStmt_ensures hs hg h hkind
  · rename_i hkind
    refine (advance_took hs h hkind rfl).bind ?_
    rintro _ t₁ ⟨h₁, -⟩
    refine (jumpLabel_reads hs h₁.step.at_).bind ?_
    intro label t₂ ⟨h₂, hspelled⟩
    apply rangeFrom_bind
    apply Ensures.pure
    simp! only
    exact h₁.jump rfl h₂ hspelled
  · rename_i hkind
    refine (advance_took hs h hkind rfl).bind ?_
    rintro _ t₁ ⟨h₁, -⟩
    refine (jumpLabel_reads hs h₁.step.at_).bind ?_
    intro label t₂ ⟨h₂, hspelled⟩
    apply rangeFrom_bind
    apply Ensures.pure
    simp! only
    exact h₁.jump rfl h₂ hspelled
  · exact throwStmt_ensures hs hg h
  · exact tryStmt_ensures hs hg h
  · rename_i hkind
    exact switchStmt_ensures hs hg h hkind
  · rename_i hkind
    exact .ite (fun _ => synchronizedStmt_ensures hs hg h hkind) fun _ => declOrExpr_ensures hs hg h
  · rename_i hkind
    exact assertStmt_ensures hs hg h hkind
  · exact wordStmt_ensures hs hg h
  · exact declOrExpr_ensures hs hg h

end JavaAnalysis.Parser
