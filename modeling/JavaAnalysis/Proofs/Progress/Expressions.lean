import JavaAnalysis.Parser.Expressions
import JavaAnalysis.Proofs.Progress.Types

/-!
# Progress over expressions

An expression, its condition, its operands and their first parts all start at the same place, so it is
the order of the productions that falls there; behind an operator, a bracket or an arrow less is left
to read.
-/

set_option autoImplicit false
set_option linter.dupNamespace false

namespace JavaAnalysis.Parser

open Ast TwoRuns

variable {c : TwoRuns} {m : Nat} {g g' : Grammar} {s s' : State}

theorem arguments_settles (hg : Ready c m g g') (h : c.Twin s s') (hm : 8 * s.left ≤ m) :
    c.Settles (arguments g) (arguments g') s s' fun _ t => t.left < s.left :=
  parenthesized_settles (fun _ _ ht hlt => hg.expr ht (by omega)) h

theorem arrayInit_settles (hg : Ready c m g g') (h : c.Twin s s') (hm : 8 * s.left ≤ m) :
    c.Settles (arrayInit g) (arrayInit g') s s' fun _ t => t.left < s.left := by
  refine .startHere h ((expect_settles h (by decide)).bind fun _ u u' h₁ hlt₁ => ?_)
  have hinit : c.Onward s.left g.varInit g'.varInit := fun t t' ht hlt => hg.varInit ht (by omega)
  refine (terminated_settles (by decide) (fun _ _ => rfl) hinit h₁ hlt₁).bind
    fun items u₂ u₂' h₂ hle₂ => ?_
  refine (expect_settles h₂ (by decide)).bind fun _ u₃ u₃' h₃ hlt₃ => ?_
  exact .rangeFrom h₃ (.pure h₃ (by omega))

theorem varInit_settles (hg : Ready c m g g') (h : c.Twin s s') (hm : 8 * s.left + 4 ≤ m) :
    c.Settles (varInit g) (varInit g') s s' fun _ t => t.left < s.left := by
  refine .ifAt h (fun _ => ?_) fun _ => hg.expr h (by omega)
  exact (arrayInit_settles hg h (by omega)).bind fun p u u' h₁ hlt₁ => .pure h₁ hlt₁

/-! ## Lambda expressions -/

theorem lambdaParams_settles (hg : Ready c m g g') (h : c.Twin s s') (hm : 8 * s.left ≤ m) :
    c.Settles (lambdaParams g) (lambdaParams g') s s' fun _ t => t.left < s.left := by
  refine .get ?_
  dsimp only
  rw [h.kind_eq, h.kind_eq]
  refine parenthesized_settles (fun t t' ht hlt => .ite (fun _ => ?_) fun _ => ?_) h
  · exact (ident_settles ht).map fun _ _ hlt => hlt
  · exact formalParam_settles hg ht (by omega)

theorem lambdaRest_settles (hg : Ready c m g g') (h : c.Twin s s') (hm : 8 * s.left ≤ m)
    (start : Nat) (range : TextRange) (params : List Param) (parens : Bool) :
    c.Settles (lambdaRest g start range params parens) (lambdaRest g' start range params parens) s s'
      fun _ t => t.left < s.left := by
  refine (expect_settles h (by decide)).bind fun _ u u' h₁ hlt₁ => .ifAt h₁ (fun _ => ?_) fun _ => ?_
  · refine (hg.block h₁ (by omega)).bind fun body u₂ u₂' h₂ hlt₂ => ?_
    exact .rangeFrom h₂ (.pure h₂ (by omega))
  · refine (hg.expr h₁ (by omega)).bind fun body u₂ u₂' h₂ hlt₂ => ?_
    exact .rangeFrom h₂ (.pure h₂ (by omega))

/-- What two runs do that take something if they give anything. -/
def taken {α : Type} (s : State) (o : Option α) (t : State) : Prop :=
  o.elim (t = s) fun _ => t.left < s.left

theorem isAtLambdaParams_twin (h : c.Twin s s') : s'.isAtLambdaParams = s.isAtLambdaParams := by
  rw [h.twin_eq]
  rfl

theorem lambda?_settles (hg : Ready c m g g') (h : c.Twin s s') (hm : 8 * s.left ≤ m) :
    c.Settles (lambda? g) (lambda? g') s s' (taken s) := by
  refine .get ?_
  dsimp only
  rw [h.kind_eq, h.kind_eq, h.start_eq, isAtLambdaParams_twin h]
  refine .ite (fun _ => ?_) fun _ => .ite (fun _ => ?_) fun _ => .pure h rfl
  · refine (ident_settles h).bind fun name u u' h₁ hlt₁ => ?_
    refine (lambdaRest_settles hg h₁ (by omega) _ _ _ _).map fun _ t hlt => ?_
    exact Nat.lt_trans hlt hlt₁
  · refine (lambdaParams_settles hg h hm).bind fun p u u' h₁ hlt₁ => ?_
    refine (lambdaRest_settles hg h₁ (by omega) _ _ _ _).map fun _ t hlt => ?_
    exact Nat.lt_trans hlt hlt₁

/-- A lambda expression, or what else may stand in its place. -/
theorem lambda?_bind_settles (hg : Ready c m g g') {α : Type} {post : α → State → Prop}
    {p p' : Parser Expr} {a a' : Expr → Parser α} (h : c.Twin s s') (hm : 8 * s.left ≤ m)
    (hp : c.Settles p p' s s' fun _ t => t.left < s.left)
    (ha : ∀ e t t', c.Twin t t' → t.left < s.left → c.Settles (a e) (a' e) t t' post) :
    c.Settles
      (lambda? g >>= fun o => match o with
        | some e => pure e >>= a
        | none => p >>= a)
      (lambda? g' >>= fun o => match o with
        | some e => pure e >>= a'
        | none => p' >>= a') s s' post := by
  refine (lambda?_settles hg h hm).bind fun o u u' h₁ hlt₁ => ?_
  cases o with
  | some e => exact .pure_bind (ha e u u' h₁ hlt₁)
  | none =>
    have hu : u = s := hlt₁
    rw [hu, h.unique h₁ hu]
    exact hp.bind ha

theorem expr_settles (hg : Ready c m g g') (h : c.Twin s s') (hm : 8 * s.left + 3 ≤ m) :
    c.Settles (expr g) (expr g') s s' fun _ t => t.left < s.left := by
  refine .startHere h ((lambda?_settles hg h (by omega)).bind fun o u u' h₁ hlt₁ => ?_)
  cases o with
  | some e => exact .pure h₁ hlt₁
  | none =>
    have hu : u = s := hlt₁
    subst hu
    refine (hg.conditional h₁ (by omega)).bind fun target u₂ u₂' h₂ hlt₂ => .kindAt h₂ ?_
    cases hop : AssignOp.ofToken? (u₂.kind 0) with
    | none => exact .pure h₂ (by omega)
    | some op =>
      refine (advance_settles_le h₂).bind fun _ u₃ u₃' h₃ hle₃ => ?_
      refine (hg.expr h₃ (by omega)).bind fun value u₄ u₄' h₄ hlt₄ => ?_
      exact .rangeFrom h₄ (.pure h₄ (by omega))

theorem conditional_settles (hg : Ready c m g g') (h : c.Twin s s') (hm : 8 * s.left + 2 ≤ m) :
    c.Settles (conditional g) (conditional g') s s' fun _ t => t.left < s.left := by
  refine .startHere h ((hg.binary 0 h (by omega)).bind fun cond u u' h₁ hlt₁ => ?_)
  refine (eat_settles_le h₁ (by decide)).bind fun found u₂ u₂' h₂ hle₂ => ?_
  refine .ite (fun _ => ?_) fun _ => .pure h₂ (by omega)
  refine (hg.expr h₂ (by omega)).bind fun yes u₃ u₃' h₃ hlt₃ => ?_
  refine (expect_settles h₃ (by decide)).bind fun _ u₄ u₄' h₄ hlt₄ => ?_
  refine lambda?_bind_settles hg h₄ (by omega) (hg.conditional h₄ (by omega))
    fun no u₅ u₅' h₅ hlt₅ => ?_
  exact .rangeFrom h₅ (.pure h₅ (by omega))

/-! ## Operators -/

theorem instanceOfRest_settles (hg : Ready c m g g') (h : c.Twin s s') (hm : 8 * s.left < m)
    (start : Nat) (e : Expr) :
    c.Settles (instanceOfRest g start e) (instanceOfRest g' start e) s s'
      fun _ t => t.left < s.left := by
  refine .startHere h ((modifiers_settles hg h hm).bind fun ms u u' h₁ hle₁ => ?_)
  refine (type_settles hg h₁ (by omega)).bind fun type u₂ u₂' h₂ hlt₂ => .ifAt h₂ (fun _ => ?_)
    fun _ => ?_
  · refine (ident_settles h₂).bind fun name u₃ u₃' h₃ hlt₃ => .rangeFrom h₃ ?_
    exact .rangeFrom h₃ (.pure h₃ (by omega))
  · refine .ite (fun _ => ?_) fun _ => expected_settles h₂ _
    exact .rangeFrom h₂ (.pure h₂ (by omega))

theorem binaryFrom_turns (hg : Ready c m g g') {start min limit : Nat} (hm : 8 * limit ≤ m + 8) :
    Turns c (binaryFrom g start min) (binaryFrom g' start min) 1 limit := by
  intro lhs s s' h hlt
  refine .ifAt h (fun hat => ?_) fun _ => .kindAt h ?_
  · refine .ite (fun _ => .stop (.pure h (by omega))) fun _ => ?_
    refine .bind (advance_settles h (by rw [hat]; decide)) fun _ u u' h₁ hlt₁ => ?_
    refine .bind (instanceOfRest_settles hg h₁ (by omega) start lhs) fun e u₂ u₂' h₂ hlt₂ => ?_
    exact .again h₂ (by omega) e
  · cases hop : BinaryOp.ofToken? (s.kind 0) with
    | none => exact .stop (.pure h (by omega))
    | some op =>
      have hne : s.kind 0 ≠ .endOfFile := by
        intro heq
        rw [heq] at hop
        cases hop
      refine .ite (fun _ => .stop (.pure h (by omega))) fun _ => ?_
      refine .bind (advance_settles h hne) fun _ u u' h₁ hlt₁ => ?_
      refine .bind (hg.binary op.precedence h₁ (by omega)) fun rhs u₂ u₂' h₂ hlt₂ => ?_
      exact .rangeFrom h₂ (.again h₂ (by omega) _)

theorem binary_settles (hg : Ready c m g g') (h : c.Twin s s') (hm : 8 * s.left + 1 ≤ m)
    (min : Nat) : c.Settles (binary g min) (binary g' min) s s' fun _ t => t.left < s.left := by
  refine .get ?_
  rw [h.start_eq]
  refine (hg.unary h (by omega)).bind fun e u u' h₁ hlt₁ => ?_
  have hturns : Turns c (binaryFrom g s.start min) (binaryFrom g' s.start min) 1 s.left :=
    binaryFrom_turns hg (by omega)
  rw [h.budget_eq, h.budget_eq']
  exact (hturns.settles e h₁ hlt₁ h₁.left_lt h₁.left_lt').mono fun _ t ht => by omega

theorem castType_settles (hg : Ready c m g g') (h : c.Twin s s') (hm : 8 * s.left ≤ m)
    (primitive : Bool) :
    c.Settles (castType g primitive) (castType g' primitive) s s' fun _ t => t.left < s.left := by
  refine (type_settles hg h hm).bind fun first u u' h₁ hlt₁ => .isAt h₁ ?_
  refine .ite (fun _ => ?_) fun _ => .pure h₁ hlt₁
  refine (advance_settles_le h₁).bind fun _ u₂ u₂' h₂ hle₂ => ?_
  refine (separatedTypes_settles hg h₂ (by omega) (by decide)).bind fun others u₃ u₃' h₃ hlt₃ => ?_
  exact .rangeFrom h₃ (.pure h₃ (by omega))

theorem castTarget_settles (hg : Ready c m g g') (h : c.Twin s s') (hm : 8 * s.left ≤ m) :
    c.Settles (castTarget g) (castTarget g') s s' fun _ t => t.left < s.left := by
  refine (advance_settles_le h).bind fun _ u u' h₁ hle₁ => .kindAt h₁ ?_
  refine (castType_settles hg h₁ (by omega) _).bind fun type u₂ u₂' h₂ hlt₂ => .get ?_
  rw [h₂.kind_eq, h₂.kind_eq]
  refine .ite (fun _ => ?_) fun _ => expected_settles h₂ _
  exact (advance_settles_le h₂).bind fun _ u₃ u₃' h₃ hle₃ => .pure h₃ (by omega)

theorem cast?_settles (hg : Ready c m g g') (h : c.Twin s s') (hm : 8 * s.left ≤ m) :
    c.Settles (cast? g) (cast? g') s s' (taken s) := by
  refine .startHere h ((attempt_settles h (castTarget_settles hg h hm)).bind fun o u u' h₁ hlt₁ => ?_)
  cases o with
  | none => exact .pure h₁ hlt₁
  | some type =>
    have hlt : u.left < s.left := hlt₁
    refine lambda?_bind_settles hg h₁ (by omega) (hg.unary h₁ (by omega))
      fun operand u₂ u₂' h₂ hlt₂ => ?_
    exact .rangeFrom h₂ (.pure h₂ (Nat.lt_trans hlt₂ hlt))

/-! ## Creation -/

theorem classBody?_settles (hg : Ready c m g g') (h : c.Twin s s') (hm : 8 * s.left < m) :
    c.Settles (classBody? g) (classBody? g') s s' fun _ t => t.left ≤ s.left := by
  refine .ifAt h (fun _ => ?_) fun _ => .pure h (Nat.le_refl _)
  exact (hg.classBody .classType h hm).map fun _ _ => Nat.le_of_lt

theorem dimExpr_settles (hg : Ready c m g g') (h : c.Twin s s') (hm : 8 * s.left + 3 < m) :
    c.Settles (dimExpr g) (dimExpr g') s s' fun _ t => t.left < s.left := by
  refine .startHere h ((advance_settles_le h).bind fun _ u u' h₁ hle₁ => .isAt h₁ ?_)
  refine .meet (fun _ t => t.left ≤ s.left) (fun size u₂ u₂' h₂ hle₂ => ?_)
    (fun _ hrest => .pure_bind (hrest none u u' h₁ hle₁)) fun _ => ?_
  · refine (expect_settles h₂ (by decide)).bind fun _ u₃ u₃' h₃ hlt₃ => ?_
    exact .rangeFrom h₃ (.pure h₃ (by omega))
  · exact (hg.expr h₁ (by omega)).map fun _ t hlt => by omega

theorem creation_settles (hg : Ready c m g g') (h : c.Twin s s') (hm : 8 * s.left ≤ m) (start : Nat)
    (outer : Option Expr) :
    c.Settles (creation g start outer) (creation g' start outer) s s'
      fun _ t => t.left < s.left := by
  refine (expect_settles h (by decide)).bind fun _ u u' h₁ hlt₁ => ?_
  refine (nonArrayType_settles hg h₁ (by omega)).bind fun type u₂ u₂' h₂ hlt₂ => .isAt h₂ ?_
  refine .ite (fun _ => ?_) fun _ => ?_
  · have hdim : c.Onward s.left (dimExpr g) (dimExpr g') :=
      fun t t' ht hlt => dimExpr_settles hg ht (by omega)
    refine (many_settles (fun _ _ => rfl) hdim h₂ (by omega)).bind
      fun dims u₃ u₃' h₃ hle₃ => .ifAt h₃ (fun _ => ?_) fun _ => .rangeFrom h₃ (.pure h₃ (by omega))
    refine (arrayInit_settles hg h₃ (by omega)).bind fun p u₄ u₄' h₄ hlt₄ => ?_
    exact .rangeFrom h₄ (.pure h₄ (by omega))
  · refine (arguments_settles hg h₂ (by omega)).bind fun p u₃ u₃' h₃ hlt₃ => ?_
    refine (classBody?_settles hg h₃ (by omega)).bind fun body u₄ u₄' h₄ hle₄ => ?_
    exact .rangeFrom h₄ (.pure h₄ (by omega))

/-! ## Selections -/

theorem memberOf_settles (hg : Ready c m g g') (h : c.Twin s s') (hm : 8 * s.left ≤ m) (start : Nat)
    (target : Expr) :
    c.Settles (memberOf g start target) (memberOf g' start target) s s'
      fun _ t => t.left < s.left := by
  have hword : s.kind 0 ≠ .endOfFile → c.Settles
      (word >>= fun name => rangeFrom start >>= fun r => pure (Expr.fieldAccess r target name))
      (word >>= fun name => rangeFrom start >>= fun r => pure (Expr.fieldAccess r target name)) s s'
      fun _ t => t.left < s.left := fun hkind =>
    (word_settles h hkind).bind fun name u u' h₁ hlt₁ => .rangeFrom h₁ (.pure h₁ hlt₁)
  refine .kindAt h ?_
  split
  · refine (ident_settles h).bind fun name u u' h₁ hlt₁ => .ifAt h₁ (fun _ => ?_)
      fun _ => .rangeFrom h₁ (.pure h₁ hlt₁)
    refine (arguments_settles hg h₁ (by omega)).bind fun p u₂ u₂' h₂ hlt₂ => ?_
    exact .rangeFrom h₂ (.pure h₂ (by omega))
  · refine (typeArgs_settles hg h hm).bind fun p u u' h₁ hlt₁ => ?_
    refine (ident_settles h₁).bind fun name u₂ u₂' h₂ hlt₂ => ?_
    refine (arguments_settles hg h₂ (by omega)).bind fun q u₃ u₃' h₃ hlt₃ => ?_
    exact .rangeFrom h₃ (.pure h₃ (by omega))
  · rename_i hkind
    exact hword (by rw [hkind]; decide)
  · rename_i hkind
    exact hword (by rw [hkind]; decide)
  · exact creation_settles hg h hm start (some target)
  · rename_i hkind
    refine (advance_settles h (by rw [hkind]; decide)).bind fun _ u u' h₁ hlt₁ => ?_
    cases typeOfExpr? target with
    | none => exact fail_settles h₁ (by decide)
    | some type => exact .rangeFrom h₁ (.pure h₁ hlt₁.1)
  · exact expected_settles h _

theorem postfixFrom_turns (hg : Ready c m g g') {start limit : Nat} (hm : 8 * limit ≤ m + 8) :
    Turns c (postfixFrom g start) (postfixFrom g' start) 1 limit := by
  intro e s s' h hlt
  refine .kindAt h ?_
  split
  · rename_i hkind
    refine .bind (advance_settles h (by rw [hkind]; decide)) fun _ u u' h₁ hlt₁ => ?_
    refine .bind (memberOf_settles hg h₁ (by omega) start e) fun e u₂ u₂' h₂ hlt₂ => ?_
    exact .again h₂ (by omega) e
  · rename_i hkind
    refine .bind (advance_settles h (by rw [hkind]; decide)) fun _ u u' h₁ hlt₁ => ?_
    refine .bind (hg.expr h₁ (by omega)) fun index u₂ u₂' h₂ hlt₂ => ?_
    refine .bind (expect_settles h₂ (by decide)) fun _ u₃ u₃' h₃ hlt₃ => ?_
    exact .rangeFrom h₃ (.again h₃ (by omega) _)
  · rename_i hkind
    refine .bind (advance_settles h (by rw [hkind]; decide)) fun _ u u' h₁ hlt₁ => ?_
    exact .rangeFrom h₁ (.again h₁ hlt₁.1 _)
  · rename_i hkind
    refine .bind (advance_settles h (by rw [hkind]; decide)) fun _ u u' h₁ hlt₁ => ?_
    exact .rangeFrom h₁ (.again h₁ hlt₁.1 _)
  · rename_i hkind
    refine .bind (advance_settles h (by rw [hkind]; decide)) fun _ u u' h₁ hlt₁ => ?_
    refine .bind (eat_settles_le h₁ (by decide)) fun found u₂ u₂' h₂ hle₂ => ?_
    refine .meet (fun _ t => t.left < s.left) (fun name u₃ u₃' h₃ hlt₃ => ?_)
      (fun _ hrest => hrest none u₂ u₂' h₂ (by omega)) fun _ => ?_
    · exact .rangeFrom h₃ (.again h₃ hlt₃ _)
    · exact (ident_settles h₂).map fun _ t hlt => by omega
  · exact .stop (.pure h (by omega))

/-! ## Primary expressions -/

theorem typePrimary_settles (hg : Ready c m g g') (h : c.Twin s s') (hm : 8 * s.left ≤ m)
    (start : Nat) :
    c.Settles (typePrimary g start) (typePrimary g' start) s s' fun _ t => t.left < s.left := by
  refine (type_settles hg h hm).bind fun type u u' h₁ hlt₁ => .ifAt h₁ (fun _ => .pure h₁ hlt₁)
    fun _ => .isAt h₁ (.kindAt h₁ (.ite (fun _ => ?_) fun _ => expected_settles h₁ _))
  refine (advance_settles_le h₁).bind fun _ u₂ u₂' h₂ hle₂ => ?_
  refine (advance_settles_le h₂).bind fun _ u₃ u₃' h₃ hle₃ => ?_
  exact .rangeFrom h₃ (.pure h₃ (by omega))

theorem nameOrCall_settles (hg : Ready c m g g') (h : c.Twin s s') (hm : 8 * s.left ≤ m)
    (start : Nat) :
    c.Settles (nameOrCall g start) (nameOrCall g' start) s s' fun _ t => t.left < s.left := by
  refine (ident_settles h).bind fun name u u' h₁ hlt₁ => .ifAt h₁ (fun _ => ?_)
    fun _ => .pure h₁ hlt₁
  refine (arguments_settles hg h₁ (by omega)).bind fun p u₂ u₂' h₂ hlt₂ => ?_
  exact .rangeFrom h₂ (.pure h₂ (by omega))

theorem selfOrCall_settles (hg : Ready c m g g') (h : c.Twin s s') (hm : 8 * s.left ≤ m)
    (hkind : s.kind 0 ≠ .endOfFile) (start : Nat) :
    c.Settles (selfOrCall g start) (selfOrCall g' start) s s' fun _ t => t.left < s.left := by
  refine .get ?_
  rw [h.kind_eq, h.kind_eq]
  refine (word_settles h hkind).bind fun name u u' h₁ hlt₁ => .ite (fun _ => ?_) fun _ => ?_
  · refine (arguments_settles hg h₁ (by omega)).bind fun p u₂ u₂' h₂ hlt₂ => ?_
    exact .rangeFrom h₂ (.pure h₂ (by omega))
  · exact .ite (fun _ => .pure h₁ hlt₁) fun _ => .pure h₁ hlt₁

theorem primary_settles (hg : Ready c m g g') (h : c.Twin s s') (hm : 8 * s.left ≤ m) :
    c.Settles (primary g) (primary g') s s' fun _ t => t.left < s.left := by
  refine .get ?_
  dsimp only
  rw [h.kind_eq, h.kind_eq, h.kind_eq, h.start_eq]
  cases hliteral : LiteralKind.ofToken? (s.kind 0) with
  | some literal =>
    have hne : s.kind 0 ≠ .endOfFile := by
      intro heq
      rw [heq] at hliteral
      cases hliteral
    exact (advance_settles h hne).bind fun _ u u' h₁ hlt₁ => .pure h₁ hlt₁.1
  | none =>
    dsimp only
    split
    · rename_i hkind
      exact selfOrCall_settles hg h hm (by rw [hkind]; decide) s.start
    · rename_i hkind
      exact selfOrCall_settles hg h hm (by rw [hkind]; decide) s.start
    · refine .meet (taken s) (fun o u u' h₁ hlt₁ => ?_) (fun _ hrest => ?_) fun _ => .pure h rfl
      · cases o with
        | some e => exact .pure h₁ hlt₁
        | none =>
          have hu : u = s := hlt₁
          subst hu
          exact nameOrCall_settles hg h₁ hm u.start
      · exact (attempt_settles h (typePrimary_settles hg h hm s.start)).bind hrest
    · rename_i hkind
      refine (advance_settles h (by rw [hkind]; decide)).bind fun _ u u' h₁ hlt₁ => ?_
      refine (hg.expr h₁ (by omega)).bind fun e u₂ u₂' h₂ hlt₂ => ?_
      refine (expect_settles h₂ (by decide)).bind fun _ u₃ u₃' h₃ hlt₃ => ?_
      exact .rangeFrom h₃ (.pure h₃ (by omega))
    · exact creation_settles hg h hm s.start none
    · rename_i hkind
      refine (advance_settles h (by rw [hkind]; decide)).bind fun _ u u' h₁ hlt₁ => ?_
      refine (expect_settles h₁ (by decide)).bind fun _ u₂ u₂' h₂ hlt₂ => ?_
      refine (hg.expr h₂ (by omega)).bind fun selector u₃ u₃' h₃ hlt₃ => ?_
      refine (expect_settles h₃ (by decide)).bind fun _ u₄ u₄' h₄ hlt₄ => ?_
      refine (hg.switchCases h₄ (by omega)).bind fun cases u₅ u₅' h₅ hlt₅ => ?_
      exact .rangeFrom h₅ (.pure h₅ (by omega))
    · exact .ite (fun _ => typePrimary_settles hg h hm s.start) fun _ => expected_settles h _

theorem unary_settles (hg : Ready c m g g') (h : c.Twin s s') (hm : 8 * s.left ≤ m) :
    c.Settles (unary g) (unary g') s s' fun _ t => t.left < s.left := by
  refine .get ?_
  rw [h.kind_eq, h.start_eq]
  cases hop : UnaryOp.ofToken? (s.kind 0) with
  | some op =>
    have hne : s.kind 0 ≠ .endOfFile := by
      intro heq
      rw [heq] at hop
      cases hop
    refine (advance_settles h hne).bind fun _ u u' h₁ hlt₁ => ?_
    refine (hg.unary h₁ (by omega)).bind fun operand u₂ u₂' h₂ hlt₂ => ?_
    exact .rangeFrom h₂ (.pure h₂ (by omega))
  | none =>
    refine .meet (taken s) (fun o u u' h₁ hlt₁ => ?_)
      (fun _ hrest => (cast?_settles hg h hm).bind hrest) fun _ => .pure h rfl
    cases o with
    | some e => exact .pure h₁ hlt₁
    | none =>
      have hu : u = s := hlt₁
      subst hu
      refine (primary_settles hg h₁ hm).bind fun e u₂ u₂' h₂ hlt₂ => ?_
      have hturns : Turns c (postfixFrom g u.start) (postfixFrom g' u.start) 1 u.left :=
        postfixFrom_turns hg (by omega)
      rw [h.budget_eq, h.budget_eq']
      exact (hturns.settles e h₂ hlt₂ h₂.left_lt h₂.left_lt').mono fun _ t ht => by omega

end JavaAnalysis.Parser
