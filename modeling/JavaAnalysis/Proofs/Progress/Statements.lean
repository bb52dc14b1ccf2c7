import JavaAnalysis.Parser.Statements
import JavaAnalysis.Proofs.Progress.Declarations

/-!
# Progress over statements

A statement takes something, and what it contains starts behind its first lexeme, unless it is an
expression or a block. What is only looked at, to tell a declaration from an expression, is looked at
from the place of the statement, and the runs come back to it.
-/

set_option autoImplicit false
set_option linter.dupNamespace false

namespace JavaAnalysis.Parser

open Ast TwoRuns

variable {c : TwoRuns} {m : Nat} {g g' : Grammar} {s s' : State}

theorem block_settles (hg : Ready c m g g') (h : c.Twin s s') (hm : 8 * s.left ≤ m) :
    c.Settles (block g) (block g') s s' fun _ t => t.left < s.left := by
  refine .startHere h ((expect_settles h (by decide)).bind fun _ u u' h₁ hlt₁ => ?_)
  have hstmt : c.Onward s.left g.stmt g'.stmt := fun t t' ht hlt => hg.stmt ht (by omega)
  refine (many_settles (fun _ _ => rfl) hstmt h₁ hlt₁).bind fun stmts u₂ u₂' h₂ hle₂ => ?_
  refine (expect_settles h₂ (by decide)).bind fun _ u₃ u₃' h₃ hlt₃ => ?_
  exact .rangeFrom h₃ (.pure h₃ (by omega))

theorem parenExpr_settles (hg : Ready c m g g') (h : c.Twin s s') (hm : 8 * s.left ≤ m) :
    c.Settles (parenExpr g) (parenExpr g') s s' fun _ t => t.left < s.left := by
  refine (expect_settles h (by decide)).bind fun _ u u' h₁ hlt₁ => ?_
  refine (hg.expr h₁ (by omega)).bind fun e u₂ u₂' h₂ hlt₂ => ?_
  exact (expect_settles h₂ (by decide)).bind fun _ u₃ u₃' h₃ hlt₃ => .pure h₃ (by omega)

/-! ## Local declarations -/

/-- The runs look ahead and come back. -/
theorem isAtLocalVar_settles (hg : Ready c m g g') (h : c.Twin s s') (hm : 8 * s.left ≤ m) :
    c.Settles (isAtLocalVar g) (isAtLocalVar g') s s' fun _ t => t = s := by
  refine .get ?_
  rw [h.kind_eq, h.kind_eq]
  refine .ite (fun _ => .pure h rfl) fun _ => .ite (fun _ => .pure h rfl) fun _ => ?_
  have htype := type_settles hg h hm
  unfold TwoRuns.Settles TwoRuns.Agree at htype
  cases hrun : type g s with
  | error e =>
    rw [hrun] at htype
    rw [htype.1]
    exact .pure h rfl
  | ok r =>
    rw [hrun] at htype
    obtain ⟨t', hrun', h₁, -⟩ := htype
    rw [hrun']
    dsimp only
    rw [h₁.kind_eq, h₁.kind_eq]
    exact .pure h rfl

theorem localType_settles (hg : Ready c m g g') (h : c.Twin s s') (hm : 8 * s.left ≤ m) :
    c.Settles (localType g) (localType g') s s' fun _ t => t.left < s.left :=
  (type_settles hg h hm).bind fun type _ _ h₁ hlt₁ =>
    (inferredIfVar_settles h₁ type).mono fun _ _ hle => Nat.lt_of_le_of_lt hle hlt₁

theorem localDecl?_settles (hg : Ready c m g g') (h : c.Twin s s') (hm : 8 * s.left < m) :
    c.Settles (localDecl? g) (localDecl? g') s s' (taken s) := by
  refine .get ?_
  dsimp only
  rw [h.kind_eq, typeDeclAhead?_twin h, isAtMarker_twin h, h.start_eq]
  refine (isAtLocalVar_settles hg h (by omega)).bind fun found u u' h₁ hu => ?_
  subst hu
  refine .ite (fun _ => .pure h₁ rfl) fun _ => ?_
  refine (modifiers_settles hg h₁ hm).bind fun ms u₂ u₂' h₂ hle₂ => .get ?_
  rw [typeDeclAhead?_twin h₂]
  refine .ite (fun _ => ?_) fun _ => ?_
  · refine (hg.typeDecl u.start ms h₂ (by omega)).bind fun decl u₃ u₃' h₃ hlt₃ => ?_
    exact .pure h₃ (Nat.lt_of_lt_of_le hlt₃ hle₂)
  · refine (localType_settles hg h₂ (by omega)).bind fun type u₃ u₃' h₃ hlt₃ => ?_
    refine (ident_settles h₃).bind fun name u₄ u₄' h₄ hlt₄ => ?_
    refine (varDecl_settles hg h₄ (by omega) u.start ms type name).bind
      fun decl u₅ u₅' h₅ hlt₅ => .pure h₅ ?_
    show u₅.left < u.left
    omega

theorem isAtVarDecl_settles (hg : Ready c m g g') (h : c.Twin s s') (hm : 8 * s.left ≤ m) :
    c.Settles (isAtVarDecl g) (isAtVarDecl g') s s' fun _ t => t = s := by
  refine .isAt h (.isAt h (.ite (fun _ => .pure h rfl) fun _ => ?_))
  exact isAtLocalVar_settles hg h hm

/-! ## Loops -/

theorem ifStmt_settles (hg : Ready c m g g') (h : c.Twin s s') (hm : 8 * s.left ≤ m) :
    c.Settles (ifStmt g) (ifStmt g') s s' fun _ t => t.left < s.left := by
  refine .startHere h ((expect_settles h (by decide)).bind fun _ u u' h₁ hlt₁ => ?_)
  refine (parenExpr_settles hg h₁ (by omega)).bind fun cond u₂ u₂' h₂ hlt₂ => ?_
  refine (hg.stmt h₂ (by omega)).bind fun body u₃ u₃' h₃ hlt₃ => ?_
  refine (eat_settles_le h₃ (by decide)).bind fun found u₄ u₄' h₄ hle₄ => .ite (fun _ => ?_)
    fun _ => .rangeFrom h₄ (.pure h₄ (by omega))
  refine (hg.stmt h₄ (by omega)).bind fun alternative u₅ u₅' h₅ hlt₅ => ?_
  exact .rangeFrom h₅ (.pure h₅ (by omega))

theorem throwStmt_settles (hg : Ready c m g g') (h : c.Twin s s') (hm : 8 * s.left ≤ m) :
    c.Settles (throwStmt g) (throwStmt g') s s' fun _ t => t.left < s.left := by
  refine .startHere h ((expect_settles h (by decide)).bind fun _ u u' h₁ hlt₁ => ?_)
  refine (hg.expr h₁ (by omega)).bind fun e u₂ u₂' h₂ hlt₂ => ?_
  refine (expect_settles h₂ (by decide)).bind fun _ u₃ u₃' h₃ hlt₃ => ?_
  exact .rangeFrom h₃ (.pure h₃ (by omega))

/-- An expression that is left out where a lexeme of a kind stands. -/
theorem exprUnless_bind (hg : Ready c m g g') (h : c.Twin s s') (hm : 8 * s.left + 3 < m) {b : Prop}
    [Decidable b] {α : Type} {post : α → State → Prop} {a a' : Option Expr → Parser α}
    (ha : ∀ e t t', c.Twin t t' → t.left ≤ s.left → c.Settles (a e) (a' e) t t' post) :
    c.Settles (if b then pure none >>= a else some <$> g.expr >>= a)
      (if b then pure none >>= a' else some <$> g'.expr >>= a') s s' post :=
  .meet (fun _ t => t.left ≤ s.left) ha
    (fun _ hrest => .pure_bind (hrest none s s' h (Nat.le_refl _)))
    fun _ => (hg.expr h hm).map fun _ _ => Nat.le_of_lt

theorem expressions_settles (hg : Ready c m g g') (h : c.Twin s s') (hm : 8 * s.left + 3 < m) :
    c.Settles (separated .comma g.expr) (separated .comma g'.expr) s s'
      fun _ t => t.left < s.left := by
  have hexpr : c.Onward (s.left + 1) g.expr g'.expr := fun t t' ht hlt => hg.expr ht (by omega)
  exact separated_settles (by decide) hexpr h (Nat.lt_succ_self _)

theorem forRest_settles (hg : Ready c m g g') (h : c.Twin s s') (hm : 8 * s.left ≤ m) (start : Nat)
    (init : ForInit) :
    c.Settles (forRest g start init) (forRest g' start init) s s' fun _ t => t.left < s.left := by
  refine (expect_settles h (by decide)).bind fun _ u u' h₁ hlt₁ => .isAt h₁ ?_
  refine exprUnless_bind hg h₁ (by omega) fun cond u₂ u₂' h₂ hle₂ => ?_
  refine (expect_settles h₂ (by decide)).bind fun _ u₃ u₃' h₃ hlt₃ => .isAt h₃ ?_
  refine .meet (fun _ t => t.left < s.left) (fun update u₄ u₄' h₄ hlt₄ => ?_)
    (fun _ hrest => .pure_bind (hrest [] u₃ u₃' h₃ (by omega)))
    fun _ => (expressions_settles hg h₃ (by omega)).mono fun _ t hlt => by omega
  refine (expect_settles h₄ (by decide)).bind fun _ u₅ u₅' h₅ hlt₅ => ?_
  refine (hg.stmt h₅ (by omega)).bind fun body u₆ u₆' h₆ hlt₆ => ?_
  exact .rangeFrom h₆ (.pure h₆ (by omega))

theorem forDecl_settles (hg : Ready c m g g') (h : c.Twin s s') (hm : 8 * s.left < m)
    (start : Nat) :
    c.Settles (forDecl g start) (forDecl g' start) s s' fun _ t => t.left < s.left := by
  refine .startHere h ((modifiers_settles hg h hm).bind fun ms u u' h₁ hle₁ => ?_)
  refine (localType_settles hg h₁ (by omega)).bind fun type u₂ u₂' h₂ hlt₂ => ?_
  refine (ident_settles h₂).bind fun name u₃ u₃' h₃ hlt₃ => .get ?_
  rw [h₃.rest_eq]
  refine .ite (fun _ => ?_) fun _ => ?_
  · refine (brackets_settles h₃).bind fun pairs u₄ u₄' h₄ hle₄ => ?_
    refine .rangeFrom h₄ (.rangeFrom h₄ ?_)
    refine (expect_settles h₄ (by decide)).bind fun _ u₅ u₅' h₅ hlt₅ => ?_
    refine (hg.expr h₅ (by omega)).bind fun iterable u₆ u₆' h₆ hlt₆ => ?_
    refine (expect_settles h₆ (by decide)).bind fun _ u₇ u₇' h₇ hlt₇ => ?_
    refine (hg.stmt h₇ (by omega)).bind fun body u₈ u₈' h₈ hlt₈ => ?_
    exact .rangeFrom h₈ (.pure h₈ (by omega))
  · refine (varFragments_settles hg h₃ (by omega) name).bind fun fragments u₄ u₄' h₄ hle₄ => ?_
    refine .rangeFrom h₄ ((forRest_settles hg h₄ (by omega) start _).mono fun _ t hlt => ?_)
    omega

theorem forStmt_settles (hg : Ready c m g g') (h : c.Twin s s') (hm : 8 * s.left ≤ m) :
    c.Settles (forStmt g) (forStmt g') s s' fun _ t => t.left < s.left := by
  refine .startHere h ((expect_settles h (by decide)).bind fun _ u u' h₁ hlt₁ => ?_)
  refine (expect_settles h₁ (by decide)).bind fun _ u₂ u₂' h₂ hlt₂ => ?_
  refine (isAtVarDecl_settles hg h₂ (by omega)).bind fun found u₃ u₃' h₃ hu => ?_
  subst hu
  refine .ite (fun _ => ?_) fun _ => .ifAt h₃ (fun _ => ?_) fun _ => ?_
  · exact (forDecl_settles hg h₃ (by omega) s.start).mono fun _ t hlt => by omega
  · exact (forRest_settles hg h₃ (by omega) s.start .absent).mono fun _ t hlt => by omega
  · refine (expressions_settles hg h₃ (by omega)).bind fun es u₄ u₄' h₄ hlt₄ => ?_
    exact (forRest_settles hg h₄ (by omega) s.start (.exprs es)).mono fun _ t hlt => by omega

/-! ## Trying -/

theorem resource_settles (hg : Ready c m g g') (h : c.Twin s s') (hm : 8 * s.left + 3 < m) :
    c.Settles (resource g) (resource g') s s' fun _ t => t.left < s.left := by
  refine (isAtVarDecl_settles hg h (by omega)).bind fun found u u' h₁ hu => ?_
  subst hu
  refine .ite (fun _ => .startHere h₁ ?_) fun _ => ?_
  · refine (modifiers_settles hg h₁ (by omega)).bind fun ms u₂ u₂' h₂ hle₂ => ?_
    refine (localType_settles hg h₂ (by omega)).bind fun type u₃ u₃' h₃ hlt₃ => ?_
    refine (ident_settles h₃).bind fun name u₄ u₄' h₄ hlt₄ => ?_
    refine (expect_settles h₄ (by decide)).bind fun _ u₅ u₅' h₅ hlt₅ => ?_
    refine (hg.expr h₅ (by omega)).bind fun init u₆ u₆' h₆ hlt₆ => ?_
    exact .rangeFrom h₆ (.rangeFrom h₆ (.pure h₆ (by omega)))
  · exact (hg.expr h₁ hm).bind fun e u₂ u₂' h₂ hlt₂ => .pure h₂ hlt₂

theorem catchClause_settles (hg : Ready c m g g') (h : c.Twin s s') (hm : 8 * s.left ≤ m) :
    c.Settles (catchClause g) (catchClause g') s s' fun _ t => t.left < s.left := by
  refine .startHere h ((expect_settles h (by decide)).bind fun _ u u' h₁ hlt₁ => ?_)
  refine (expect_settles h₁ (by decide)).bind fun _ u₂ u₂' h₂ hlt₂ => .startHere h₂ ?_
  refine (modifiers_settles hg h₂ (by omega)).bind fun ms u₃ u₃' h₃ hle₃ => ?_
  refine (catchType_settles hg h₃ (by omega)).bind fun type u₄ u₄' h₄ hlt₄ => ?_
  refine (ident_settles h₄).bind fun name u₅ u₅' h₅ hlt₅ => .rangeFrom h₅ ?_
  refine (expect_settles h₅ (by decide)).bind fun _ u₆ u₆' h₆ hlt₆ => ?_
  refine (hg.block h₆ (by omega)).bind fun body u₇ u₇' h₇ hlt₇ => ?_
  exact .rangeFrom h₇ (.pure h₇ (by omega))

theorem resources_settles (hg : Ready c m g g') (h : c.Twin s s') (hm : 8 * s.left ≤ m) :
    c.Settles (resources g) (resources g') s s' fun _ t => t.left ≤ s.left := by
  refine .ifAt h (fun hat => .startHere h ?_) fun _ => .pure h (Nat.le_refl _)
  refine (advance_settles h (by rw [hat]; decide)).bind fun _ u u' h₁ hlt₁ => ?_
  have hresource : c.Onward s.left (resource g) (resource g') :=
    fun t t' ht hlt => resource_settles hg ht (by omega)
  refine (terminated_settles (by decide) (fun _ _ => rfl) hresource h₁ hlt₁.1).bind
    fun items u₂ u₂' h₂ hle₂ => ?_
  refine (expect_settles h₂ (by decide)).bind fun _ u₃ u₃' h₃ hlt₃ => ?_
  exact .rangeFrom h₃ (.pure h₃ (by omega))

theorem tryStmt_settles (hg : Ready c m g g') (h : c.Twin s s') (hm : 8 * s.left ≤ m) :
    c.Settles (tryStmt g) (tryStmt g') s s' fun _ t => t.left < s.left := by
  refine .startHere h ((expect_settles h (by decide)).bind fun _ u u' h₁ hlt₁ => ?_)
  refine (resources_settles hg h₁ (by omega)).bind fun p u₂ u₂' h₂ hle₂ => ?_
  refine (hg.block h₂ (by omega)).bind fun body u₃ u₃' h₃ hlt₃ => ?_
  have hcatch : c.Onward s.left (catchClause g) (catchClause g') :=
    fun t t' ht hlt => catchClause_settles hg ht (by omega)
  refine (many_settles (fun _ _ => rfl) hcatch h₃ (by omega)).bind fun catches u₄ u₄' h₄ hle₄ => ?_
  refine (eat_settles_le h₄ (by decide)).bind fun found u₅ u₅' h₅ hle₅ => ?_
  refine .meet (fun _ t => t.left < s.left)
    (fun final u₆ u₆' h₆ hlt₆ => .ite (fun _ => fail_settles h₆ (by decide)) fun _ => ?_)
    (fun _ hrest => ?_) fun _ => .pure h₅ (by omega)
  · exact .rangeFrom h₆ (.pure h₆ hlt₆)
  · have hfinal : c.Settles (some <$> g.block) (some <$> g'.block) u₅ u₅'
        fun _ t => t.left < s.left := (hg.block h₅ (by omega)).map fun _ t hlt => by omega
    exact hfinal.bind hrest

/-! ## Switches -/

theorem casePattern_settles (hg : Ready c m g g') (h : c.Twin s s') (hm : 8 * s.left < m) :
    c.Settles (casePattern g) (casePattern g') s s' fun _ t => t.left < s.left := by
  refine .startHere h ((modifiers_settles hg h hm).bind fun ms u u' h₁ hle₁ => ?_)
  refine (type_settles hg h₁ (by omega)).bind fun type u₂ u₂' h₂ hlt₂ => ?_
  refine (ident_settles h₂).bind fun name u₃ u₃' h₃ hlt₃ => .get ?_
  have hword : u₃'.isWord 0 "when" = u₃.isWord 0 "when" := by
    rw [h₃.twin_eq]
    rfl
  rw [h₃.kind_eq, hword]
  refine .ite (fun _ => ?_) fun _ => expected_settles h₃ _
  exact .rangeFrom h₃ (.pure h₃ (by omega))

theorem labelEnd_settles (h : c.Twin s s') :
    c.Settles labelEnd labelEnd s s' fun _ t => t.left < s.left := by
  refine ifEat_settles h (by decide) (fun t t' ht hlt => .pure ht hlt) ?_
  exact (expect_settles h (by decide)).bind fun _ u u' h₁ hlt₁ => .pure h₁ hlt₁

theorem caseLabel_settles (hg : Ready c m g g') (h : c.Twin s s') (hm : 8 * s.left ≤ m) :
    c.Settles (caseLabel g) (caseLabel g') s s' fun _ t => t.left < s.left := by
  refine .startHere h (ifEat_settles h (by decide) (fun t t' ht hlt => ?_) ?_)
  · refine (labelEnd_settles ht).bind fun arrow u u' h₁ hlt₁ => ?_
    exact .rangeFrom h₁ (.pure h₁ (by omega))
  · refine (expect_settles h (by decide)).bind fun _ u u' h₁ hlt₁ => ?_
    refine (attempt_settles h₁ (casePattern_settles hg h₁ (by omega))).bind
      fun o u₂ u₂' h₂ hlt₂ => ?_
    cases o with
    | none =>
      have hu : u₂ = u := hlt₂
      subst hu
      have hvalue : c.Onward s.left g.conditional g'.conditional :=
        fun t t' ht hlt => hg.conditional ht (by omega)
      refine (separated_settles (by decide) hvalue h₂ hlt₁).bind fun values u₃ u₃' h₃ hlt₃ => ?_
      refine (labelEnd_settles h₃).bind fun arrow u₄ u₄' h₄ hlt₄ => ?_
      exact .rangeFrom h₄ (.pure h₄ (by omega))
    | some pattern =>
      have hlt₂ : u₂.left < u.left := hlt₂
      refine .get ?_
      have hword : u₂'.isWord 0 "when" = u₂.isWord 0 "when" := by
        rw [h₂.twin_eq]
        rfl
      rw [hword]
      refine .meet (fun _ t => t.left < s.left) (fun guard u₃ u₃' h₃ hlt₃ => ?_)
        (fun _ hrest => ?_) fun _ => .pure h₂ (by omega)
      · refine (labelEnd_settles h₃).bind fun arrow u₄ u₄' h₄ hlt₄ => ?_
        exact .rangeFrom h₄ (.pure h₄ (by omega))
      · refine (advance_settles_le h₂).bind fun _ u₃ u₃' h₃ hle₃ => ?_
        have hguard : c.Settles (some <$> g.conditional) (some <$> g'.conditional) u₃ u₃'
            fun _ t => t.left < s.left :=
          (hg.conditional h₃ (by omega)).map fun _ t hlt => by omega
        exact hguard.bind hrest

theorem caseLabelsUpTo_turns (hg : Ready c m g g') {limit : Nat} (hm : 8 * limit ≤ m + 8) :
    Turns c (fun n (_ : Unit) => caseLabelsUpTo g n) (fun n _ => caseLabelsUpTo g' n) 0 limit := by
  intro _ s s' h hlt
  refine .bind (caseLabel_settles hg h (by omega)) fun p u u' h₁ hlt₁ => .get ?_
  have hlabel : u'.isAtLabel = u.isAtLabel := by
    rw [h₁.twin_eq]
    rfl
  rw [hlabel]
  refine .ite (fun _ => ?_) fun _ => .stop (.pure h₁ hlt₁)
  exact .againMap h₁ hlt₁ () fun q => (p.1 :: q.1, q.2)

theorem arrowBody_settles (hg : Ready c m g g') (h : c.Twin s s') (hm : 8 * s.left + 3 < m) :
    c.Settles (arrowBody g) (arrowBody g') s s' fun _ t => t.left < s.left := by
  refine .startHere h (.kindAt h ?_)
  split
  · exact (hg.block h (by omega)).map fun _ _ hlt => hlt
  · exact throwStmt_settles hg h (by omega)
  · refine (hg.expr h hm).bind fun e u u' h₁ hlt₁ => ?_
    refine (expect_settles h₁ (by decide)).bind fun _ u₂ u₂' h₂ hlt₂ => ?_
    exact .rangeFrom h₂ (.pure h₂ (by omega))

theorem switchCase_settles (hg : Ready c m g g') (h : c.Twin s s') (hm : 8 * s.left ≤ m) :
    c.Settles (switchCase g) (switchCase g') s s' fun _ t => t.left < s.left := by
  refine .get ?_
  have hlabel : s'.isAtLabel = s.isAtLabel := by
    rw [h.twin_eq]
    rfl
  rw [hlabel, h.start_eq]
  refine .ite (fun _ => expected_settles h _) fun _ => ?_
  have hturns : Turns c (fun n (_ : Unit) => caseLabelsUpTo g n) (fun n _ => caseLabelsUpTo g' n) 0
    (s.left + 1) := caseLabelsUpTo_turns hg (by omega)
  refine (hturns.settles_budget () h (Nat.lt_succ_self _)).bind fun p u u' h₁ hlt₁ => ?_
  refine .meet (fun _ t => t.left < s.left) (fun body u₂ u₂' h₂ hlt₂ => ?_)
    (fun _ hrest => ?_) fun _ => ?_
  · exact .rangeFrom h₂ (.pure h₂ hlt₂)
  · have hbody : c.Settles (List.singleton <$> arrowBody g) (List.singleton <$> arrowBody g') u u'
        fun _ t => t.left < s.left :=
      (arrowBody_settles hg h₁ (by omega)).map fun _ t hlt => by omega
    exact hbody.bind hrest
  · have hstmt : c.Onward s.left g.stmt g'.stmt := fun t t' ht hlt => hg.stmt ht (by omega)
    exact (many_settles (fun _ _ => rfl) hstmt h₁ hlt₁).mono fun _ t hle => by omega

theorem switchCases_settles (hg : Ready c m g g') (h : c.Twin s s') (hm : 8 * s.left ≤ m) :
    c.Settles (switchCases g) (switchCases g') s s' fun _ t => t.left < s.left := by
  refine .startHere h ((expect_settles h (by decide)).bind fun _ u u' h₁ hlt₁ => ?_)
  have hcase : c.Onward s.left (switchCase g) (switchCase g') :=
    fun t t' ht hlt => switchCase_settles hg ht (by omega)
  refine (many_settles (fun _ _ => rfl) hcase h₁ hlt₁).bind fun cases u₂ u₂' h₂ hle₂ => ?_
  refine (expect_settles h₂ (by decide)).bind fun _ u₃ u₃' h₃ hlt₃ => ?_
  exact .rangeFrom h₃ (.pure h₃ (by omega))

/-! ## Other statements -/

theorem jumpLabel_settles (h : c.Twin s s') :
    c.Settles jumpLabel jumpLabel s s' fun _ t => t.left < s.left := by
  refine .isAt h ?_
  refine .meet (fun _ t => t.left ≤ s.left) (fun label u u' h₁ hle₁ => ?_) (fun _ hrest => ?_)
    fun _ => .pure h (Nat.le_refl _)
  · exact (expect_settles h₁ (by decide)).bind fun _ u₂ u₂' h₂ hlt₂ => .pure h₂ (by omega)
  · have hlabel : c.Settles (some <$> ident) (some <$> ident) s s' fun _ t => t.left ≤ s.left :=
      (ident_settles h).map fun _ _ => Nat.le_of_lt
    exact hlabel.bind hrest

theorem declOrExpr_settles (hg : Ready c m g g') (h : c.Twin s s') (hm : 8 * s.left + 4 ≤ m)
    (start : Nat) :
    c.Settles (declOrExpr g start) (declOrExpr g' start) s s' fun _ t => t.left < s.left := by
  refine (localDecl?_settles hg h (by omega)).bind fun o u u' h₁ hlt₁ => ?_
  cases o with
  | some stmt => exact .pure h₁ hlt₁
  | none =>
    have hu : u = s := hlt₁
    subst hu
    refine (hg.expr h₁ (by omega)).bind fun e u₂ u₂' h₂ hlt₂ => ?_
    refine (expect_settles h₂ (by decide)).bind fun _ u₃ u₃' h₃ hlt₃ => ?_
    exact .rangeFrom h₃ (.pure h₃ (by omega))

theorem wordStmt_settles (hg : Ready c m g g') (h : c.Twin s s') (hm : 8 * s.left + 4 ≤ m)
    (start : Nat) :
    c.Settles (wordStmt g start) (wordStmt g' start) s s' fun _ t => t.left < s.left := by
  refine .get ?_
  have hyield : s'.isAtYield = s.isAtYield := by
    rw [h.twin_eq]
    rfl
  rw [h.kind_eq, hyield]
  refine .ite (fun _ => ?_) fun _ => .ite (fun _ => ?_) fun _ => declOrExpr_settles hg h hm start
  · refine (ident_settles h).bind fun label u u' h₁ hlt₁ => ?_
    refine (advance_settles_le h₁).bind fun _ u₂ u₂' h₂ hle₂ => ?_
    refine (hg.stmt h₂ (by omega)).bind fun body u₃ u₃' h₃ hlt₃ => ?_
    exact .rangeFrom h₃ (.pure h₃ (by omega))
  · refine (advance_settles_le h).bind fun _ u u' h₁ hle₁ => ?_
    refine (hg.expr h₁ (by omega)).bind fun e u₂ u₂' h₂ hlt₂ => ?_
    refine (expect_settles h₂ (by decide)).bind fun _ u₃ u₃' h₃ hlt₃ => ?_
    exact .rangeFrom h₃ (.pure h₃ (by omega))

theorem whileStmt_settles (hg : Ready c m g g') (h : c.Twin s s') (hm : 8 * s.left ≤ m)
    (start : Nat) :
    c.Settles (whileStmt g start) (whileStmt g' start) s s' fun _ t => t.left < s.left := by
  refine (advance_settles_le h).bind fun _ u u' h₁ hle₁ => ?_
  refine (parenExpr_settles hg h₁ (by omega)).bind fun cond u₂ u₂' h₂ hlt₂ => ?_
  refine (hg.stmt h₂ (by omega)).bind fun body u₃ u₃' h₃ hlt₃ => ?_
  exact .rangeFrom h₃ (.pure h₃ (by omega))

theorem doStmt_settles (hg : Ready c m g g') (h : c.Twin s s') (hm : 8 * s.left ≤ m)
    (hkind : s.kind 0 ≠ .endOfFile) (start : Nat) :
    c.Settles (doStmt g start) (doStmt g' start) s s' fun _ t => t.left < s.left := by
  refine (advance_settles h hkind).bind fun _ u u' h₁ hlt₁ => ?_
  refine (hg.stmt h₁ (by omega)).bind fun body u₂ u₂' h₂ hlt₂ => ?_
  refine (expect_settles h₂ (by decide)).bind fun _ u₃ u₃' h₃ hlt₃ => ?_
  refine (parenExpr_settles hg h₃ (by omega)).bind fun cond u₄ u₄' h₄ hlt₄ => ?_
  refine (expect_settles h₄ (by decide)).bind fun _ u₅ u₅' h₅ hlt₅ => ?_
  exact .rangeFrom h₅ (.pure h₅ (by omega))

theorem returnStmt_settles (hg : Ready c m g g') (h : c.Twin s s') (hm : 8 * s.left + 4 ≤ m)
    (start : Nat) :
    c.Settles (returnStmt g start) (returnStmt g' start) s s' fun _ t => t.left < s.left := by
  refine (advance_settles_le h).bind fun _ u u' h₁ hle₁ => .isAt h₁ ?_
  refine exprUnless_bind hg h₁ (by omega) fun e u₂ u₂' h₂ hle₂ => ?_
  refine (expect_settles h₂ (by decide)).bind fun _ u₃ u₃' h₃ hlt₃ => ?_
  exact .rangeFrom h₃ (.pure h₃ (by omega))

theorem switchStmt_settles (hg : Ready c m g g') (h : c.Twin s s') (hm : 8 * s.left ≤ m)
    (start : Nat) :
    c.Settles (switchStmt g start) (switchStmt g' start) s s' fun _ t => t.left < s.left := by
  refine (advance_settles_le h).bind fun _ u u' h₁ hle₁ => ?_
  refine (parenExpr_settles hg h₁ (by omega)).bind fun selector u₂ u₂' h₂ hlt₂ => ?_
  refine (hg.switchCases h₂ (by omega)).bind fun cases u₃ u₃' h₃ hlt₃ => ?_
  exact .rangeFrom h₃ (.pure h₃ (by omega))

theorem synchronizedStmt_settles (hg : Ready c m g g') (h : c.Twin s s') (hm : 8 * s.left ≤ m)
    (start : Nat) :
    c.Settles (synchronizedStmt g start) (synchronizedStmt g' start) s s'
      fun _ t => t.left < s.left := by
  refine (advance_settles_le h).bind fun _ u u' h₁ hle₁ => ?_
  refine (parenExpr_settles hg h₁ (by omega)).bind fun lock u₂ u₂' h₂ hlt₂ => ?_
  refine (hg.block h₂ (by omega)).bind fun body u₃ u₃' h₃ hlt₃ => ?_
  exact .rangeFrom h₃ (.pure h₃ (by omega))

theorem assertStmt_settles (hg : Ready c m g g') (h : c.Twin s s') (hm : 8 * s.left + 4 ≤ m)
    (start : Nat) :
    c.Settles (assertStmt g start) (assertStmt g' start) s s' fun _ t => t.left < s.left := by
  refine (advance_settles_le h).bind fun _ u u' h₁ hle₁ => ?_
  refine (hg.expr h₁ (by omega)).bind fun cond u₂ u₂' h₂ hlt₂ => ?_
  refine (eat_settles_le h₂ (by decide)).bind fun found u₃ u₃' h₃ hle₃ => ?_
  refine .meet (fun _ t => t.left < s.left) (fun message u₄ u₄' h₄ hlt₄ => ?_)
    (fun _ hrest => ?_) fun _ => .pure h₃ (by omega)
  · refine (expect_settles h₄ (by decide)).bind fun _ u₅ u₅' h₅ hlt₅ => ?_
    exact .rangeFrom h₅ (.pure h₅ (by omega))
  · have hmessage : c.Settles (some <$> g.expr) (some <$> g'.expr) u₃ u₃'
        fun _ t => t.left < s.left := (hg.expr h₃ (by omega)).map fun _ t hlt => by omega
    exact hmessage.bind hrest

theorem stmt_settles (hg : Ready c m g g') (h : c.Twin s s') (hm : 8 * s.left + 4 ≤ m) :
    c.Settles (stmt g) (stmt g') s s' fun _ t => t.left < s.left := by
  have hm₀ : 8 * s.left ≤ m := by omega
  refine .get ?_
  dsimp only
  rw [h.kind_eq, h.kind_eq, h.start_eq]
  split
  · exact (hg.block h (by omega)).map fun _ _ hlt => hlt
  · rename_i hkind
    refine (advance_settles h (by rw [hkind]; decide)).bind fun _ u u' h₁ hlt₁ => ?_
    exact .rangeFrom h₁ (.pure h₁ hlt₁.1)
  · exact ifStmt_settles hg h hm₀
  · exact whileStmt_settles hg h hm₀ s.start
  · rename_i hkind
    exact doStmt_settles hg h hm₀ (by rw [hkind]; decide) s.start
  · exact forStmt_settles hg h hm₀
  · exact returnStmt_settles hg h hm s.start
  · refine (advance_settles_le h).bind fun _ u u' h₁ hle₁ => ?_
    refine (jumpLabel_settles h₁).bind fun label u₂ u₂' h₂ hlt₂ => ?_
    exact .rangeFrom h₂ (.pure h₂ (by omega))
  · refine (advance_settles_le h).bind fun _ u u' h₁ hle₁ => ?_
    refine (jumpLabel_settles h₁).bind fun label u₂ u₂' h₂ hlt₂ => ?_
    exact .rangeFrom h₂ (.pure h₂ (by omega))
  · exact throwStmt_settles hg h hm₀
  · exact tryStmt_settles hg h hm₀
  · exact switchStmt_settles hg h hm₀ s.start
  · exact .ite (fun _ => synchronizedStmt_settles hg h hm₀ s.start)
      fun _ => declOrExpr_settles hg h hm s.start
  · exact assertStmt_settles hg h hm s.start
  · exact wordStmt_settles hg h hm s.start
  · exact declOrExpr_settles hg h hm s.start

end JavaAnalysis.Parser
