import JavaAnalysis.Parser.Statements
import JavaAnalysis.Proofs.Spacing.Parser.Declarations

/-!
# Two runs over statements

What is read of a statement is the same in a tight row and elsewhere. Before a statement is read it
may be looked at how a declaration would go on from here, which tells the same of both rows.
-/

set_option autoImplicit false
set_option linter.dupNamespace false

namespace JavaAnalysis.Parser

open Ast

variable {f : Shift} {g : Grammar} {s t : State}

theorem isInBraces_eq : ∀ s t, State.Moved f s t → t.isInBraces = s.isInBraces := by
  intro s t h
  unfold State.isInBraces
  rw [h.kind_eq]

theorem block_onward (hg : g.Alike f) : Onward f (Block.shift f) (block g) (block g) := by
  intro s t h
  refine .startHere h ((expect_mirrors h (by decide)).bind fun _ u v h₁ hle₁ => ?_)
  refine (many_alike isInBraces_eq hg.stmt.alike u v h₁).bind fun stmts u₂ v₂ h₂ hle₂ => ?_
  refine (expect_mirrors h₂ (by decide)).bind fun _ u₃ v₃ h₃ hle₃ => ?_
  exact .rangeFrom h₃ (by omega) (.pure h₃ (by omega) (by simp!))

theorem parenExpr_onward (hg : g.Alike f) :
    Onward f (Expr.shift f) (parenExpr g) (parenExpr g) := by
  intro s t h
  refine (expect_mirrors h (by decide)).bind fun _ u v h₁ hle₁ => ?_
  refine (hg.expr u v h₁).bind fun e u₂ v₂ h₂ hle₂ => ?_
  exact (expect_mirrors h₂ (by decide)).bind fun _ u₃ v₃ h₃ hle₃ => .pure h₃ (by omega) rfl

/-! ## Local declarations -/

theorem isAtLocalVar_alike (hg : g.Alike f) :
    Alike f (fun x => x) (isAtLocalVar g) (isAtLocalVar g) := by
  intro s t h
  refine .get ?_
  rw [h.kind_eq, h.kind_eq]
  refine .ite Iff.rfl (fun _ => .pure h (Nat.le_refl _) rfl) fun _ =>
    .ite Iff.rfl (fun _ => .pure h (Nat.le_refl _) rfl) fun _ => ?_
  have htype := type_onward hg s t h
  unfold Mirrors at htype
  cases hrun : type g s with
  | error e =>
    rw [hrun] at htype
    rw [htype]
    exact .pure h (Nat.le_refl _) rfl
  | ok r =>
    rw [hrun] at htype
    obtain ⟨v, hrun', h₁, -⟩ := htype
    rw [hrun']
    exact .pure h (Nat.le_refl _) (by simp only [h₁.kind_eq])

theorem isAtYield_eq (h : State.Moved f s t) : t.isAtYield = s.isAtYield := by
  unfold State.isAtYield
  rw [h.isWord_eq, h.kind_eq, h.level_eq]

theorem localType_onward (hg : g.Alike f) :
    Onward f (TypeRef.shift f) (localType g) (localType g) := by
  intro s t h
  exact (type_onward hg s t h).bind fun type u v h₁ hle₁ => (inferredIfVar_mirrors h₁ type).mono hle₁

theorem localDecl?_maybe (hg : g.Alike f) :
    Maybe f (Stmt.shift f) (localDecl? g) (localDecl? g) := by
  intro s t h
  refine .get ?_
  dsimp only
  rw [h.kind_eq, typeDeclAhead?_eq h, isAtMarker_eq s t h, h.start_eq]
  refine (isAtLocalVar_alike hg s t h).bind fun found u v h₁ hle₁ => ?_
  refine .ite Iff.rfl (fun _ => .pure h₁ hle₁ rfl) fun _ => ?_
  refine (modifiers_alike hg u v h₁).bind fun ms u₂ v₂ h₂ hle₂ => .get ?_
  rw [typeDeclAhead?_eq h₂]
  refine .ite Iff.rfl (fun _ => ?_) fun _ => ?_
  · refine (hg.typeDecl u₂ v₂ s.start ms h₂ (by omega)).bind fun decl u₃ v₃ h₃ hle₃ => ?_
    refine .pure h₃ ?_ rfl
    show s.start + 1 ≤ u₃.start
    omega
  · refine (localType_onward hg u₂ v₂ h₂).bind fun type u₃ v₃ h₃ hle₃ => ?_
    refine (ident_mirrors_named h₃).bind fun name u₄ v₄ h₄ hle₄ => ?_
    refine (varDecl_mirrors hg h₄ (by omega) ms type (by omega)).bind fun decl u₅ v₅ h₅ hle₅ => ?_
    refine .pure h₅ ?_ rfl
    show s.start + 1 ≤ u₅.start
    omega

theorem isAtVarDecl_alike (hg : g.Alike f) :
    Alike f (fun x => x) (isAtVarDecl g) (isAtVarDecl g) := by
  intro s t h
  refine .isAt h (.isAt h (.ite Iff.rfl (fun _ => .pure h (Nat.le_refl _) rfl) fun _ => ?_))
  exact isAtLocalVar_alike hg s t h

/-! ## Loops -/

theorem ifStmt_onward (hg : g.Alike f) : Onward f (Stmt.shift f) (ifStmt g) (ifStmt g) := by
  intro s t h
  refine .startHere h ((expect_mirrors h (by decide)).bind fun _ u v h₁ hle₁ => ?_)
  refine (parenExpr_onward hg u v h₁).bind fun cond u₂ v₂ h₂ hle₂ => ?_
  refine (hg.stmt u₂ v₂ h₂).bind fun body u₃ v₃ h₃ hle₃ => ?_
  refine (eat_mirrors h₃).bind fun found u₄ v₄ h₄ hle₄ => .ite Iff.rfl (fun _ => ?_) fun _ => ?_
  · refine (hg.stmt u₄ v₄ h₄).bind fun alternative u₅ v₅ h₅ hle₅ => ?_
    exact .rangeFrom h₅ (by omega) (.pure h₅ (by omega) rfl)
  · exact .rangeFrom h₄ (by omega) (.pure h₄ (by omega) rfl)

theorem throwStmt_onward (hg : g.Alike f) :
    Onward f (Stmt.shift f) (throwStmt g) (throwStmt g) := by
  intro s t h
  refine .startHere h ((expect_mirrors h (by decide)).bind fun _ u v h₁ hle₁ => ?_)
  refine (hg.expr u v h₁).bind fun e u₂ v₂ h₂ hle₂ => ?_
  refine (expect_mirrors h₂ (by decide)).bind fun _ u₃ v₃ h₃ hle₃ => ?_
  exact .rangeFrom h₃ (by omega) (.pure h₃ (by omega) rfl)

/-- An expression that is left out where a lexeme of a kind stands. -/
theorem exprUnless_meet (hg : g.Alike f) {c : Prop} [Decidable c] {α : Type} {reach : α → Nat}
    {move : α → α} {a b : Option Expr → Parser α} (h : State.Moved f s t)
    (hab : ∀ e u v, State.Moved f u v → s.start ≤ u.start →
      Mirrors f reach move (a e) (b (e.map (Expr.shift f))) u v) :
    Mirrors f reach move (if c then pure none >>= a else some <$> g.expr >>= a)
      (if c then pure none >>= b else some <$> g.expr >>= b) s t :=
  .meet (fun _ => s.start) (Option.map (Expr.shift f)) Iff.rfl hab
    (fun _ hrest => .pure_bind (hrest none s t h (Nat.le_refl _)))
    fun _ => (hg.expr.alike s t h).map fun _ => rfl

theorem forRest_mirrors (hg : g.Alike f) (h : State.Moved f s t) {start : Nat}
    (hle : start ≤ s.start) (init : ForInit) :
    Mirrors f (fun _ => s.start + 1) (Stmt.shift f) (forRest g start init)
      (forRest g (f.start start) (init.shift f)) s t := by
  refine (expect_mirrors h (by decide)).bind fun _ u v h₁ hle₁ => .isAt h₁ ?_
  refine exprUnless_meet hg h₁ fun cond u₂ v₂ h₂ hle₂ => ?_
  refine (expect_mirrors h₂ (by decide)).bind fun _ u₃ v₃ h₃ hle₃ => .isAt h₃ ?_
  refine .meet (fun _ => u₃.start) (List.map (Expr.shift f)) Iff.rfl (fun update u₄ v₄ h₄ hle₄ => ?_)
    (fun _ hrest => .pure_bind (hrest [] u₃ v₃ h₃ (Nat.le_refl _)))
    fun _ => (separated_onward hg.expr).alike u₃ v₃ h₃
  refine (expect_mirrors h₄ (by decide)).bind fun _ u₅ v₅ h₅ hle₅ => ?_
  refine (hg.stmt u₅ v₅ h₅).bind fun body u₆ v₆ h₆ hle₆ => ?_
  exact .rangeFrom h₆ (by omega) (.pure h₆ (by omega) (by simp!))

theorem isColonAhead_eq {xs ys : List Lexeme} (h : List.Forall₂ (Lexeme.Moved f) xs ys) :
    isColonAhead ys = isColonAhead xs := by
  fun_induction isColonAhead xs generalizing ys with
  | case1 x y xs hbrackets ih =>
    obtain ⟨x', _, hx, ⟨⟩ | ⟨hy, hxs⟩, rfl⟩ := List.forall₂_cons_left_iff.1 h
    rw [isColonAhead, hx.kind_eq, hy.kind_eq, if_pos hbrackets, ih hxs]
  | case2 x y xs hbrackets =>
    obtain ⟨x', _, hx, ⟨⟩ | ⟨hy, hxs⟩, rfl⟩ := List.forall₂_cons_left_iff.1 h
    rw [isColonAhead, hx.kind_eq, hy.kind_eq, if_neg hbrackets]
  | case3 x =>
    obtain ⟨x', _, hx, ⟨⟩ | _, rfl⟩ := List.forall₂_cons_left_iff.1 h
    rw [isColonAhead, hx.kind_eq]
  | case4 =>
    cases h
    rfl

theorem forDecl_mirrors (hg : g.Alike f) (h : State.Moved f s t) {start : Nat}
    (hle : start ≤ s.start) :
    Mirrors f (fun _ => s.start + 1) (Stmt.shift f) (forDecl g start) (forDecl g (f.start start))
      s t := by
  refine .startHere h ((modifiers_alike hg s t h).bind fun ms u v h₁ hle₁ => ?_)
  refine (localType_onward hg u v h₁).bind fun type u₂ v₂ h₂ hle₂ => ?_
  refine (ident_mirrors_named h₂).bind fun name u₃ v₃ h₃ hle₃ => .get ?_
  rw [isColonAhead_eq h₃.rest]
  refine .ite Iff.rfl (fun _ => ?_) fun _ => ?_
  · refine (brackets_alike u₃ v₃ h₃).bind fun pairs u₄ v₄ h₄ hle₄ => ?_
    refine .rangeFrom h₄ (by omega) (.rangeFrom h₄ (by omega) ?_)
    refine (expect_mirrors h₄ (by decide)).bind fun _ u₅ v₅ h₅ hle₅ => ?_
    refine (hg.expr u₅ v₅ h₅).bind fun iterable u₆ v₆ h₆ hle₆ => ?_
    refine (expect_mirrors h₆ (by decide)).bind fun _ u₇ v₇ h₇ hle₇ => ?_
    refine (hg.stmt u₇ v₇ h₇).bind fun body u₈ v₈ h₈ hle₈ => ?_
    exact .rangeFrom h₈ (by omega)
      (.pure h₈ (by omega) (by simp!))
  · refine (varFragments_alike hg h₃ (by omega)).bind fun fragments u₄ v₄ h₄ hle₄ => ?_
    refine .rangeFrom h₄ (by omega) ?_
    have hback : start ≤ u₄.start := by omega
    have hrest := forRest_mirrors hg h₄ hback
      (.decl (.mk (u₄.rangeFrom s.start) ms type fragments))
    simp! only [Modifier.shiftAll_eq, VarFragment.shiftAll_eq] at hrest
    exact hrest.mono (by omega)

theorem forStmt_onward (hg : g.Alike f) : Onward f (Stmt.shift f) (forStmt g) (forStmt g) := by
  intro s t h
  refine .startHere h ((expect_mirrors h (by decide)).bind fun _ u v h₁ hle₁ => ?_)
  refine (expect_mirrors h₁ (by decide)).bind fun _ u₂ v₂ h₂ hle₂ => ?_
  refine (isAtVarDecl_alike hg u₂ v₂ h₂).bind fun found u₃ v₃ h₃ hle₃ =>
    .ite Iff.rfl (fun _ => ?_) fun _ => .ifAt h₃ (fun _ => ?_) fun _ => ?_
  · exact (forDecl_mirrors hg h₃ (by omega)).mono (by omega)
  · exact (forRest_mirrors hg h₃ (by omega) .absent).mono (by omega)
  · refine (separated_onward hg.expr u₃ v₃ h₃).bind fun es u₄ v₄ h₄ hle₄ => ?_
    have hback : s.start ≤ u₄.start := by omega
    have hrest := forRest_mirrors hg h₄ hback (.exprs es)
    simp! only [Expr.shiftAll_eq] at hrest
    exact hrest.mono (by omega)

/-! ## Trying -/

theorem resource_onward (hg : g.Alike f) :
    Onward f (Resource.shift f) (resource g) (resource g) := by
  intro s t h
  refine (isAtVarDecl_alike hg s t h).bind fun found u v h₁ hle₁ =>
    .ite Iff.rfl (fun _ => .startHere h₁ ?_) fun _ => ?_
  · refine (modifiers_alike hg u v h₁).bind fun ms u₂ v₂ h₂ hle₂ => ?_
    refine (localType_onward hg u₂ v₂ h₂).bind fun type u₃ v₃ h₃ hle₃ => ?_
    refine (ident_mirrors_named h₃).bind fun name u₄ v₄ h₄ hle₄ => ?_
    refine (expect_mirrors h₄ (by decide)).bind fun _ u₅ v₅ h₅ hle₅ => ?_
    refine (hg.expr u₅ v₅ h₅).bind fun init u₆ v₆ h₆ hle₆ => ?_
    refine .rangeFrom h₆ (by omega) (.rangeFrom h₆ (by omega) (.pure h₆ (by omega) ?_))
    simp!
  · exact (hg.expr u v h₁).bind fun e u₂ v₂ h₂ hle₂ => .pure h₂ (by omega) rfl

theorem catchClause_onward (hg : g.Alike f) :
    Onward f (CatchClause.shift f) (catchClause g) (catchClause g) := by
  intro s t h
  refine .startHere h ((expect_mirrors h (by decide)).bind fun _ u v h₁ hle₁ => ?_)
  refine (expect_mirrors h₁ (by decide)).bind fun _ u₂ v₂ h₂ hle₂ => .startHere h₂ ?_
  refine (modifiers_alike hg u₂ v₂ h₂).bind fun ms u₃ v₃ h₃ hle₃ => ?_
  refine (catchType_onward hg u₃ v₃ h₃).bind fun type u₄ v₄ h₄ hle₄ => ?_
  refine (ident_mirrors h₄).bind fun name u₅ v₅ h₅ hle₅ => .rangeFrom h₅ (by omega) ?_
  refine (expect_mirrors h₅ (by decide)).bind fun _ u₆ v₆ h₆ hle₆ => ?_
  refine (hg.block u₆ v₆ h₆).bind fun body u₇ v₇ h₇ hle₇ => .rangeFrom h₇ (by omega) ?_
  exact .pure h₇ (by omega) (by simp!)

theorem resources_alike (hg : g.Alike f) :
    Alike f (fun p => (p.1.map f.range, p.2.map (Resource.shift f))) (resources g)
      (resources g) := by
  intro s t h
  refine .ifAt h (fun _ => .startHere h ?_) fun _ => .pure h (Nat.le_refl _) rfl
  refine (advance_mirrors_spot h).bind fun _ u v h₁ hle₁ => ?_
  refine (terminated_alike (isAtKind_eq _) (resource_onward hg).alike u v h₁).bind
    fun items u₂ v₂ h₂ hle₂ => ?_
  refine (expect_mirrors h₂ (by decide)).bind fun _ u₃ v₃ h₃ hle₃ => ?_
  exact .rangeFrom h₃ (by omega) (.pure h₃ (by omega) rfl)

theorem tryStmt_onward (hg : g.Alike f) : Onward f (Stmt.shift f) (tryStmt g) (tryStmt g) := by
  intro s t h
  refine .startHere h ((expect_mirrors h (by decide)).bind fun _ u v h₁ hle₁ => ?_)
  refine (resources_alike hg u v h₁).bind fun p u₂ v₂ h₂ hle₂ => ?_
  refine (hg.block u₂ v₂ h₂).bind fun body u₃ v₃ h₃ hle₃ => ?_
  refine (many_alike (isAtKind_eq _) (catchClause_onward hg).alike u₃ v₃ h₃).bind
    fun catches u₄ v₄ h₄ hle₄ => ?_
  refine (eat_mirrors h₄).bind fun found u₅ v₅ h₅ hle₅ => ?_
  refine .meet (fun _ => u₅.start) (Option.map (Block.shift f)) Iff.rfl
    (fun final u₆ v₆ h₆ hle₆ => .ite (by simp) (fun _ => fail_mirrors h₆ _) fun _ => ?_)
    (fun _ hrest => (Mirrors.map (k := Option.map (Block.shift f)) (hg.block.alike u₅ v₅ h₅)
      fun _ => rfl).bind hrest) fun _ => .pure h₅ (Nat.le_refl _) rfl
  exact .rangeFrom h₆ (by omega) (.pure h₆ (by omega) (by simp!))

/-! ## Switches -/

theorem casePattern_onward (hg : g.Alike f) :
    Onward f (Pattern.shift f) (casePattern g) (casePattern g) := by
  intro s t h
  refine .startHere h ((modifiers_alike hg s t h).bind fun ms u v h₁ hle₁ => ?_)
  refine (type_onward hg u v h₁).bind fun type u₂ v₂ h₂ hle₂ => ?_
  refine (ident_mirrors h₂).bind fun name u₃ v₃ h₃ hle₃ => .get ?_
  rw [h₃.kind_eq, h₃.isWord_eq]
  refine .ite Iff.rfl (fun _ => ?_) fun _ => expected_mirrors h₃ _
  exact .rangeFrom h₃ (by omega) (.pure h₃ (by omega) (by simp!))

theorem labelEnd_onward : Onward f (fun x => x) labelEnd labelEnd := by
  intro s t h
  refine (eat_mirrors_found h (by decide)).bind fun found u v h₁ hle₁ => ?_
  cases found with
  | true => exact .pure h₁ hle₁ rfl
  | false =>
    refine (expect_mirrors h₁ (by decide)).bind fun _ u₂ v₂ h₂ hle₂ => .pure h₂ ?_ rfl
    exact Nat.le_trans (Nat.succ_le_succ hle₁) hle₂

theorem caseLabel_onward (hg : g.Alike f) :
    Onward f (fun p => (p.1.shift f, p.2)) (caseLabel g) (caseLabel g) := by
  intro s t h
  refine .startHere h ((eat_mirrors_found h (by decide)).bind fun found u v h₁ hle₁ => ?_)
  cases found with
  | true =>
    have hle : s.start + 1 ≤ u.start := hle₁
    refine (labelEnd_onward u v h₁).bind fun arrow u₂ v₂ h₂ hle₂ => ?_
    exact .rangeFrom h₂ (by omega) (.pure h₂ (by omega) rfl)
  | false =>
    have hle : s.start ≤ u.start := hle₁
    refine (expect_mirrors h₁ (by decide)).bind fun _ u₂ v₂ h₂ hle₂ => ?_
    refine (attempt_mirrors h₂ (casePattern_onward hg u₂ v₂ h₂)).bind fun o u₃ v₃ h₃ hle₃ => ?_
    cases o with
    | none =>
      have hle₃ : u₂.start ≤ u₃.start := hle₃
      refine (separated_onward hg.conditional u₃ v₃ h₃).bind fun values u₄ v₄ h₄ hle₄ => ?_
      refine (labelEnd_onward u₄ v₄ h₄).bind fun arrow u₅ v₅ h₅ hle₅ => ?_
      exact .rangeFrom h₅ (by omega) (.pure h₅ (by omega) (by simp!))
    | some pattern =>
      have hle₃ : u₂.start + 1 ≤ u₃.start := hle₃
      refine .get ?_
      rw [h₃.isWord_eq]
      refine .meet (fun _ => u₃.start) (Option.map (Expr.shift f)) Iff.rfl
        (fun guard u₄ v₄ h₄ hle₄ => ?_) (fun _ hrest => ?_) fun _ => .pure h₃ (Nat.le_refl _) rfl
      · refine (labelEnd_onward u₄ v₄ h₄).bind fun arrow u₅ v₅ h₅ hle₅ => ?_
        exact .rangeFrom h₅ (by omega) (.pure h₅ (by omega) (by simp!))
      · refine (advance_mirrors_spot h₃).bind fun _ u₄ v₄ h₄ hle₄ => ?_
        exact (Mirrors.map (k := Option.map (Expr.shift f))
          ((hg.conditional.alike u₄ v₄ h₄).mono hle₄) fun _ => rfl).bind hrest

theorem isAtLabel_eq (h : State.Moved f s t) : t.isAtLabel = s.isAtLabel := by
  unfold State.isAtLabel
  rw [h.kind_eq]

theorem caseLabelsUpTo_onward (hg : g.Alike f) (n : Nat) :
    Onward f (fun p => (p.1.map (CaseLabel.shift f), p.2)) (caseLabelsUpTo g n)
      (caseLabelsUpTo g n) := by
  induction n with
  | zero => exact fun s t h => exhausted_mirrors h
  | succ n ih =>
    intro s t h
    refine (caseLabel_onward hg s t h).bind fun p u v h₁ hle₁ => .get ?_
    rw [isAtLabel_eq h₁]
    refine .ite Iff.rfl (fun _ => ?_) fun _ => .pure h₁ hle₁ rfl
    exact (ih u v h₁).bind fun q u₂ v₂ h₂ hle₂ => .pure h₂ (by omega) rfl

theorem arrowBody_onward (hg : g.Alike f) :
    Onward f (Stmt.shift f) (arrowBody g) (arrowBody g) := by
  intro s t h
  refine .startHere h (.kindAt h ?_)
  split
  · exact (hg.block s t h).map fun _ => rfl
  · exact throwStmt_onward hg s t h
  · refine (hg.expr s t h).bind fun e u v h₁ hle₁ => ?_
    refine (expect_mirrors h₁ (by decide)).bind fun _ u₂ v₂ h₂ hle₂ => ?_
    exact .rangeFrom h₂ (by omega) (.pure h₂ (by omega) rfl)

theorem switchCase_onward (hg : g.Alike f) :
    Onward f (SwitchCase.shift f) (switchCase g) (switchCase g) := by
  intro s t h
  refine .get ?_
  rw [isAtLabel_eq h, h.start_eq, h.budget_eq]
  refine .ite Iff.rfl (fun _ => expected_mirrors h _) fun _ => ?_
  refine (caseLabelsUpTo_onward hg s.budget s t h).bind fun p u v h₁ hle₁ => ?_
  refine .meet (fun _ => u.start) (List.map (Stmt.shift f)) Iff.rfl (fun body u₂ v₂ h₂ hle₂ => ?_)
    (fun _ hrest => (Mirrors.map (k := List.map (Stmt.shift f))
      ((arrowBody_onward hg).alike u v h₁) fun _ => rfl).bind hrest)
    fun _ => many_alike (fun s t h => by rw [isInBraces_eq s t h, isAtLabel_eq h]) hg.stmt.alike
      u v h₁
  exact .rangeFrom h₂ (by omega) (.pure h₂ (by omega) (by simp!))

theorem switchCases_onward (hg : g.Alike f) :
    Onward f (Prod.map f.range (List.map (SwitchCase.shift f))) (switchCases g)
      (switchCases g) := by
  intro s t h
  refine .startHere h ((expect_mirrors h (by decide)).bind fun _ u v h₁ hle₁ => ?_)
  refine (many_alike isInBraces_eq (switchCase_onward hg).alike u v h₁).bind
    fun cases u₂ v₂ h₂ hle₂ => ?_
  refine (expect_mirrors h₂ (by decide)).bind fun _ u₃ v₃ h₃ hle₃ => ?_
  exact .rangeFrom h₃ (by omega) (.pure h₃ (by omega) rfl)

/-! ## Other statements -/

theorem jumpLabel_onward : Onward f (Option.map (Ident.shift f)) jumpLabel jumpLabel := by
  intro s t h
  refine .isAt h ?_
  refine .meet (fun _ => s.start) (Option.map (Ident.shift f)) Iff.rfl (fun label u v h₁ hle₁ => ?_)
    (fun _ hrest => (Mirrors.map (k := Option.map (Ident.shift f))
      ((ident_mirrors h).mono (Nat.le_succ _)) fun _ => rfl).bind hrest)
    fun _ => .pure h (Nat.le_refl _) rfl
  exact (expect_mirrors h₁ (by decide)).bind fun _ u₂ v₂ h₂ hle₂ => .pure h₂ (by omega) rfl

theorem declOrExpr_mirrors (hg : g.Alike f) (h : State.Moved f s t) :
    Mirrors f (fun _ => s.start + 1) (Stmt.shift f) (declOrExpr g s.start)
      (declOrExpr g (f.start s.start)) s t := by
  refine (localDecl?_maybe hg s t h).bind fun o u v h₁ hle₁ => ?_
  cases o with
  | some stmt => exact .pure h₁ hle₁ rfl
  | none =>
    have hle : s.start ≤ u.start := hle₁
    refine (hg.expr u v h₁).bind fun e u₂ v₂ h₂ hle₂ => ?_
    refine (expect_mirrors h₂ (by decide)).bind fun _ u₃ v₃ h₃ hle₃ => ?_
    exact .rangeFrom h₃ (by omega) (.pure h₃ (by omega) rfl)

theorem wordStmt_mirrors (hg : g.Alike f) (h : State.Moved f s t) :
    Mirrors f (fun _ => s.start + 1) (Stmt.shift f) (wordStmt g s.start)
      (wordStmt g (f.start s.start)) s t := by
  refine .get ?_
  rw [h.kind_eq, isAtYield_eq h]
  refine .ite Iff.rfl (fun _ => ?_) fun _ => .ite Iff.rfl (fun _ => ?_)
    fun _ => declOrExpr_mirrors hg h
  · refine (ident_mirrors h).bind fun label u v h₁ hle₁ => ?_
    refine (advance_mirrors_spot h₁).bind fun _ u₂ v₂ h₂ hle₂ => ?_
    refine (hg.stmt u₂ v₂ h₂).bind fun body u₃ v₃ h₃ hle₃ => ?_
    exact .rangeFrom h₃ (by omega) (.pure h₃ (by omega) rfl)
  · refine (advance_mirrors_spot h).bind fun _ u v h₁ hle₁ => ?_
    refine (hg.expr u v h₁).bind fun e u₂ v₂ h₂ hle₂ => ?_
    refine (expect_mirrors h₂ (by decide)).bind fun _ u₃ v₃ h₃ hle₃ => ?_
    exact .rangeFrom h₃ (by omega) (.pure h₃ (by omega) rfl)

theorem whileStmt_mirrors (hg : g.Alike f) (h : State.Moved f s t) :
    Mirrors f (fun _ => s.start + 1) (Stmt.shift f) (whileStmt g s.start)
      (whileStmt g (f.start s.start)) s t := by
  refine (advance_mirrors_spot h).bind fun _ u v h₁ hle₁ => ?_
  refine (parenExpr_onward hg u v h₁).bind fun cond u₂ v₂ h₂ hle₂ => ?_
  refine (hg.stmt u₂ v₂ h₂).bind fun body u₃ v₃ h₃ hle₃ => ?_
  exact .rangeFrom h₃ (by omega) (.pure h₃ (by omega) rfl)

theorem doStmt_mirrors (hg : g.Alike f) (h : State.Moved f s t) :
    Mirrors f (fun _ => s.start + 1) (Stmt.shift f) (doStmt g s.start)
      (doStmt g (f.start s.start)) s t := by
  refine (advance_mirrors_spot h).bind fun _ u v h₁ hle₁ => ?_
  refine (hg.stmt u v h₁).bind fun body u₂ v₂ h₂ hle₂ => ?_
  refine (expect_mirrors h₂ (by decide)).bind fun _ u₃ v₃ h₃ hle₃ => ?_
  refine (parenExpr_onward hg u₃ v₃ h₃).bind fun cond u₄ v₄ h₄ hle₄ => ?_
  refine (expect_mirrors h₄ (by decide)).bind fun _ u₅ v₅ h₅ hle₅ => ?_
  exact .rangeFrom h₅ (by omega) (.pure h₅ (by omega) rfl)

theorem returnStmt_mirrors (hg : g.Alike f) (h : State.Moved f s t) :
    Mirrors f (fun _ => s.start + 1) (Stmt.shift f) (returnStmt g s.start)
      (returnStmt g (f.start s.start)) s t := by
  refine (advance_mirrors_spot h).bind fun _ u v h₁ hle₁ => .isAt h₁ ?_
  refine exprUnless_meet hg h₁ fun e u₂ v₂ h₂ hle₂ => ?_
  refine (expect_mirrors h₂ (by decide)).bind fun _ u₃ v₃ h₃ hle₃ => ?_
  exact .rangeFrom h₃ (by omega) (.pure h₃ (by omega) (by simp!))

theorem switchStmt_mirrors (hg : g.Alike f) (h : State.Moved f s t) :
    Mirrors f (fun _ => s.start + 1) (Stmt.shift f) (switchStmt g s.start)
      (switchStmt g (f.start s.start)) s t := by
  refine (advance_mirrors_spot h).bind fun _ u v h₁ hle₁ => ?_
  refine (parenExpr_onward hg u v h₁).bind fun selector u₂ v₂ h₂ hle₂ => ?_
  refine (hg.switchCases u₂ v₂ h₂).bind fun cases u₃ v₃ h₃ hle₃ => ?_
  exact .rangeFrom h₃ (by omega) (.pure h₃ (by omega) (by simp!))

theorem synchronizedStmt_mirrors (hg : g.Alike f) (h : State.Moved f s t) :
    Mirrors f (fun _ => s.start + 1) (Stmt.shift f) (synchronizedStmt g s.start)
      (synchronizedStmt g (f.start s.start)) s t := by
  refine (advance_mirrors_spot h).bind fun _ u v h₁ hle₁ => ?_
  refine (parenExpr_onward hg u v h₁).bind fun lock u₂ v₂ h₂ hle₂ => ?_
  refine (hg.block u₂ v₂ h₂).bind fun body u₃ v₃ h₃ hle₃ => ?_
  exact .rangeFrom h₃ (by omega) (.pure h₃ (by omega) rfl)

theorem assertStmt_mirrors (hg : g.Alike f) (h : State.Moved f s t) :
    Mirrors f (fun _ => s.start + 1) (Stmt.shift f) (assertStmt g s.start)
      (assertStmt g (f.start s.start)) s t := by
  refine (advance_mirrors_spot h).bind fun _ u v h₁ hle₁ => ?_
  refine (hg.expr u v h₁).bind fun cond u₂ v₂ h₂ hle₂ => ?_
  refine (eat_mirrors h₂).bind fun found u₃ v₃ h₃ hle₃ => ?_
  refine .meet (fun _ => u₃.start) (Option.map (Expr.shift f)) Iff.rfl
    (fun message u₄ v₄ h₄ hle₄ => ?_)
    (fun _ hrest => (Mirrors.map (k := Option.map (Expr.shift f)) (hg.expr.alike u₃ v₃ h₃)
      fun _ => rfl).bind hrest) fun _ => .pure h₃ (Nat.le_refl _) rfl
  refine (expect_mirrors h₄ (by decide)).bind fun _ u₅ v₅ h₅ hle₅ => ?_
  exact .rangeFrom h₅ (by omega) (.pure h₅ (by omega) (by simp!))

theorem stmt_onward (hg : g.Alike f) : Onward f (Stmt.shift f) (stmt g) (stmt g) := by
  intro s t h
  refine .get ?_
  dsimp only
  rw [h.kind_eq, h.kind_eq, h.start_eq]
  split
  · exact (hg.block s t h).map fun _ => rfl
  · rename_i hkind
    refine (advance_mirrors h (by rw [hkind]; decide)).bind fun _ u v h₁ hle₁ => ?_
    exact .rangeFrom h₁ (by omega) (.pure h₁ (by omega) rfl)
  · exact ifStmt_onward hg s t h
  · exact whileStmt_mirrors hg h
  · exact doStmt_mirrors hg h
  · exact forStmt_onward hg s t h
  · exact returnStmt_mirrors hg h
  · refine (advance_mirrors_spot h).bind fun _ u v h₁ hle₁ => ?_
    refine (jumpLabel_onward u v h₁).bind fun label u₂ v₂ h₂ hle₂ => ?_
    exact .rangeFrom h₂ (by omega) (.pure h₂ (by omega) rfl)
  · refine (advance_mirrors_spot h).bind fun _ u v h₁ hle₁ => ?_
    refine (jumpLabel_onward u v h₁).bind fun label u₂ v₂ h₂ hle₂ => ?_
    exact .rangeFrom h₂ (by omega) (.pure h₂ (by omega) rfl)
  · exact throwStmt_onward hg s t h
  · exact tryStmt_onward hg s t h
  · exact switchStmt_mirrors hg h
  · exact .ite Iff.rfl (fun _ => synchronizedStmt_mirrors hg h) fun _ => declOrExpr_mirrors hg h
  · exact assertStmt_mirrors hg h
  · exact wordStmt_mirrors hg h
  · exact declOrExpr_mirrors hg h

end JavaAnalysis.Parser
