import JavaAnalysis.Parser.Expressions
import JavaAnalysis.Proofs.Spacing.Parser.Types

/-!
# Two runs over expressions

What is read of an expression is the same in a tight row and elsewhere. What a parser gives up when it
has tried something else first is the same as well, as both give it up at the same lexeme.
-/

set_option autoImplicit false
set_option linter.dupNamespace false

namespace JavaAnalysis.Parser

open Ast

variable {f : Shift} {g : Grammar} {s t : State}

theorem arguments_onward (hg : g.Alike f) :
    Onward f (ranged f (Expr.shift f)) (arguments g) (arguments g) :=
  parenthesized_onward hg.expr

theorem arrayInit_onward (hg : g.Alike f) :
    Onward f (ranged f (Expr.shift f)) (arrayInit g) (arrayInit g) := by
  intro s t h
  refine .startHere h ((expect_mirrors h (by decide)).bind fun _ u v h₁ hle₁ => ?_)
  refine (terminated_alike (isAtKind_eq _) hg.varInit.alike u v h₁).bind fun items u₂ v₂ h₂ hle₂ => ?_
  refine (expect_mirrors h₂ (by decide)).bind fun _ u₃ v₃ h₃ hle₃ => ?_
  exact .rangeFrom h₃ (by omega) (.pure h₃ (by omega) rfl)

theorem varInit_onward (hg : g.Alike f) :
    Onward f (Expr.shift f) (varInit g) (varInit g) := by
  intro s t h
  refine .ifAt h (fun _ => ?_) fun _ => hg.expr s t h
  refine (arrayInit_onward hg s t h).bind fun p u v h₁ hle₁ => .pure h₁ hle₁ ?_
  simp!

/-! ## Lambda expressions -/

/-- What lies behind a parenthesis consists of the same lexemes. -/
theorem behindParens?_moved {xs ys : List Lexeme} (h : List.Forall₂ (Lexeme.Moved f) xs ys)
    (depth : Nat) : Option.Rel (List.Forall₂ (Lexeme.Moved f)) (behindParens? depth xs)
      (behindParens? depth ys) := by
  induction h generalizing depth with
  | nil => exact .none
  | cons hxy hrest ih =>
    unfold behindParens?
    rw [hxy.kind_eq]
    split
    · exact .none
    · exact ih _
    · split
      · exact .some hrest
      · exact ih _
    · exact ih _

theorem isAtLambdaParams_eq (h : State.Moved f s t) :
    t.isAtLambdaParams = s.isAtLambdaParams := by
  unfold State.isAtLambdaParams
  rw [h.kind_eq]
  have hbehind := behindParens?_moved h.rest 0
  generalize behindParens? 0 s.rest = o, behindParens? 0 t.rest = o' at hbehind
  cases hbehind with
  | none => rfl
  | some hrest =>
    cases hrest with
    | nil => rfl
    | cons hxy _ => simp only [hxy.kind_eq]

theorem lambdaParams_onward (hg : g.Alike f) :
    Onward f (ranged f (Param.shift f)) (lambdaParams g) (lambdaParams g) := by
  intro s t h
  refine .get ?_
  dsimp only
  rw [h.kind_eq, h.kind_eq]
  refine parenthesized_onward (fun u v hu => .ite Iff.rfl (fun _ => ?_) fun _ => ?_) s t h
  · exact (ident_mirrors hu).map implicitParam_shift
  · exact formalParam_onward hg u v hu

theorem lambdaRest_mirrors (hg : g.Alike f) (h : State.Moved f s t) {start : Nat}
    (hle : start ≤ s.start) (range : TextRange) (params : List Param) (parens : Bool) :
    Mirrors f (fun _ => s.start + 1) (Expr.shift f) (lambdaRest g start range params parens)
      (lambdaRest g (f.start start) (f.range range) (params.map (Param.shift f)) parens) s t := by
  refine (expect_mirrors h (by decide)).bind fun _ u v h₁ hle₁ => .ifAt h₁ (fun _ => ?_) fun _ => ?_
  · refine (hg.block u v h₁).bind fun body u₂ v₂ h₂ hle₂ => ?_
    exact .rangeFrom h₂ (by omega) (.pure h₂ (by omega) (by simp!))
  · refine (hg.expr u v h₁).bind fun body u₂ v₂ h₂ hle₂ => ?_
    exact .rangeFrom h₂ (by omega) (.pure h₂ (by omega) (by simp!))

theorem lambda?_maybe (hg : g.Alike f) :
    Maybe f (Expr.shift f) (lambda? g) (lambda? g) := by
  intro s t h
  refine .get ?_
  dsimp only
  rw [h.kind_eq, h.kind_eq, h.start_eq, isAtLambdaParams_eq h]
  refine .ite Iff.rfl (fun _ => ?_) fun _ => .ite Iff.rfl (fun _ => ?_)
    fun _ => .pure h (Nat.le_refl _) rfl
  · refine (ident_mirrors h).bind fun name u v h₁ hle₁ => ?_
    have hback : s.start ≤ u.start := by omega
    have hrest := lambdaRest_mirrors hg h₁ hback name.range [implicitParam name] false
    rw [List.map_singleton, ← implicitParam_shift] at hrest
    exact (hrest.mono (by omega)).some
  · refine (lambdaParams_onward hg s t h).bind fun p u v h₁ hle₁ => ?_
    exact ((lambdaRest_mirrors hg h₁ (by omega) p.1 p.2 true).mono (by omega)).some

/-- A lambda expression, or what else may stand in its place. -/
theorem lambda?_bind (hg : g.Alike f) {α : Type} {reach : α → Nat} {move : α → α} {p : Parser Expr}
    {a b : Expr → Parser α} (hp : Onward f (Expr.shift f) p p) (h : State.Moved f s t)
    (hab : ∀ e u v, State.Moved f u v → s.start + 1 ≤ u.start →
      Mirrors f reach move (a e) (b (e.shift f)) u v) :
    Mirrors f reach move
      (lambda? g >>= fun o => match o with
        | some e => pure e >>= a
        | none => p >>= a)
      (lambda? g >>= fun o => match o with
        | some e => pure e >>= b
        | none => p >>= b) s t := by
  refine (lambda?_maybe hg s t h).bind fun o u v h₁ hle₁ => ?_
  cases o with
  | some e => exact .pure_bind (hab e u v h₁ hle₁)
  | none => exact ((hp u v h₁).mono (Nat.succ_le_succ hle₁)).bind hab

theorem expr_onward (hg : g.Alike f) : Onward f (Expr.shift f) (expr g) (expr g) := by
  intro s t h
  refine .startHere h ((lambda?_maybe hg s t h).bind fun o u v h₁ hle₁ => ?_)
  cases o with
  | some e => exact .pure h₁ hle₁ rfl
  | none =>
    have hle : s.start ≤ u.start := hle₁
    refine (hg.conditional u v h₁).bind fun target u₂ v₂ h₂ hle₂ => .kindAt h₂ ?_
    cases hop : AssignOp.ofToken? (u₂.kind 0) with
    | none => exact .pure h₂ (by omega) rfl
    | some op =>
      refine (advance_mirrors_spot h₂).bind fun _ u₃ v₃ h₃ hle₃ => ?_
      refine (hg.expr u₃ v₃ h₃).bind fun value u₄ v₄ h₄ hle₄ => ?_
      exact .rangeFrom h₄ (by omega) (.pure h₄ (by omega) rfl)

theorem conditional_onward (hg : g.Alike f) :
    Onward f (Expr.shift f) (conditional g) (conditional g) := by
  intro s t h
  refine .startHere h ((hg.binary 0 s t h).bind fun cond u v h₁ hle₁ => ?_)
  refine (eat_mirrors h₁).bind fun found u₂ v₂ h₂ hle₂ => ?_
  refine .ite Iff.rfl (fun _ => ?_) fun _ => .pure h₂ (by omega) rfl
  refine (hg.expr u₂ v₂ h₂).bind fun yes u₃ v₃ h₃ hle₃ => ?_
  refine (expect_mirrors h₃ (by decide)).bind fun _ u₄ v₄ h₄ hle₄ => ?_
  refine lambda?_bind hg hg.conditional h₄ fun no u₅ v₅ h₅ hle₅ => ?_
  exact .rangeFrom h₅ (by omega) (.pure h₅ (by omega) rfl)

/-! ## Operators -/

theorem instanceOfRest_mirrors (hg : g.Alike f) (h : State.Moved f s t) {start : Nat}
    (hlt : start < s.start) (e : Expr) :
    Mirrors f (fun _ => s.start + 1) (Expr.shift f) (instanceOfRest g start e)
      (instanceOfRest g (f.start start) (e.shift f)) s t := by
  refine .startHere h ((modifiers_alike hg s t h).bind fun ms u v h₁ hle₁ => ?_)
  refine (type_onward hg u v h₁).bind fun type u₂ v₂ h₂ hle₂ => .ifAt h₂ (fun _ => ?_) fun _ => ?_
  · refine (ident_mirrors h₂).bind fun name u₃ v₃ h₃ hle₃ => .rangeFrom h₃ (by omega) ?_
    exact .rangeFrom h₃ (by omega) (.pure h₃ (by omega) (by simp!))
  · refine .ite (by simp) (fun _ => ?_) fun _ => expected_mirrors h₂ _
    exact .rangeFrom h₂ (by omega) (.pure h₂ (by omega) rfl)

theorem binaryFrom_mirrors (hg : g.Alike f) {start min : Nat} (n : Nat) (h : State.Moved f s t)
    (hlt : start < s.start) (lhs : Expr) :
    Mirrors f (fun _ => s.start) (Expr.shift f) (binaryFrom g start min n lhs)
      (binaryFrom g (f.start start) min n (lhs.shift f)) s t := by
  induction n generalizing s t lhs with
  | zero => exact exhausted_mirrors h
  | succ n ih =>
    refine .ifAt h (fun _ => ?_) fun _ => .kindAt h ?_
    · refine .ite Iff.rfl (fun _ => .pure h (Nat.le_refl _) rfl) fun _ => ?_
      refine (advance_mirrors_spot h).bind fun _ u v h₁ hle₁ => ?_
      refine (instanceOfRest_mirrors hg h₁ (by omega) lhs).bind fun e u₂ v₂ h₂ hle₂ => ?_
      exact (ih h₂ (by omega) e).mono (by omega)
    · cases hop : BinaryOp.ofToken? (s.kind 0) with
      | none => exact .pure h (Nat.le_refl _) rfl
      | some op =>
        refine .ite Iff.rfl (fun _ => .pure h (Nat.le_refl _) rfl) fun _ => ?_
        refine (advance_mirrors_spot h).bind fun _ u v h₁ hle₁ => ?_
        refine (hg.binary op.precedence u v h₁).bind fun rhs u₂ v₂ h₂ hle₂ => ?_
        refine .rangeFrom h₂ (by omega) ?_
        exact (ih h₂ (by omega) (.binary (u₂.rangeFrom start) op lhs rhs)).mono (by omega)

theorem binary_onward (hg : g.Alike f) (min : Nat) :
    Onward f (Expr.shift f) (binary g min) (binary g min) := by
  intro s t h
  refine .get ?_
  rw [h.start_eq, h.budget_eq]
  refine (hg.unary s t h).bind fun e u v h₁ hle₁ => ?_
  exact (binaryFrom_mirrors hg s.budget h₁ (by omega) e).mono hle₁

theorem isArray_shift (type : TypeRef) : (type.shift f).isArray = type.isArray := by
  cases type <;> rfl

theorem range_start_shift (type : TypeRef) : (type.shift f).range.start = f.start type.range.start := by
  cases type <;> rfl

theorem castType_onward (hg : g.Alike f) (primitive : Bool) :
    Onward f (TypeRef.shift f) (castType g primitive) (castType g primitive) := by
  intro s t h
  refine (type_mirrors hg h).bind fun first u v h₁ hle₁ => .isAt h₁ ?_
  obtain ⟨hlt, hfirst⟩ := lt_of_past_le hle₁
  refine .ite Iff.rfl (fun _ => ?_) fun _ => .pure h₁ (by omega) rfl
  refine (advance_mirrors_spot h₁).bind fun _ u₂ v₂ h₂ hle₂ => ?_
  refine (separated_onward hg.type u₂ v₂ h₂).bind fun others u₃ v₃ h₃ hle₃ => ?_
  rw [range_start_shift]
  exact .rangeFrom h₃ (by omega) (.pure h₃ (by omega) (by simp [TypeRef.shift]))

theorem castTarget_onward (hg : g.Alike f) :
    Onward f (TypeRef.shift f) (castTarget g) (castTarget g) := by
  intro s t h
  refine (advance_mirrors_spot h).bind fun _ u v h₁ hle₁ => .kindAt h₁ ?_
  refine (castType_onward hg _ u v h₁).bind fun type u₂ v₂ h₂ hle₂ => .get ?_
  rw [h₂.kind_eq, h₂.kind_eq, isArray_shift]
  refine .ite Iff.rfl (fun _ => ?_) fun _ => expected_mirrors h₂ _
  exact (advance_mirrors_spot h₂).bind fun _ u₃ v₃ h₃ hle₃ => .pure h₃ (by omega) rfl

theorem cast?_maybe (hg : g.Alike f) : Maybe f (Expr.shift f) (cast? g) (cast? g) := by
  intro s t h
  refine .startHere h ((attempt_mirrors h (castTarget_onward hg s t h)).bind fun o u v h₁ hle₁ => ?_)
  cases o with
  | none => exact .pure h₁ hle₁ rfl
  | some type =>
    have hle : s.start + 1 ≤ u.start := hle₁
    refine lambda?_bind hg hg.unary h₁ fun operand u₂ v₂ h₂ hle₂ => ?_
    refine .rangeFrom h₂ (by omega) (.pure h₂ ?_ rfl)
    show s.start + 1 ≤ u₂.start
    omega

/-! ## Creation -/

theorem classBody?_alike (hg : g.Alike f) :
    Alike f (Option.map (ClassBody.shift f)) (classBody? g) (classBody? g) := by
  intro s t h
  refine .ifAt h (fun _ => ?_) fun _ => .pure h (Nat.le_refl _) rfl
  exact ((hg.classBody .classType).alike s t h).map fun _ => rfl

theorem dimExpr_onward (hg : g.Alike f) :
    Onward f (DimExpr.shift f) (dimExpr g) (dimExpr g) := by
  intro s t h
  refine .startHere h ((advance_mirrors_spot h).bind fun _ u v h₁ hle₁ => .isAt h₁ ?_)
  refine .meet (fun _ => u.start) (Option.map (Expr.shift f)) Iff.rfl
    (fun size u₂ v₂ h₂ hle₂ => ?_)
    (fun _ hrest => .pure_bind (hrest none u v h₁ (Nat.le_refl _)))
    fun _ => (hg.expr.alike u v h₁).map fun _ => rfl
  refine (expect_mirrors h₂ (by decide)).bind fun _ u₃ v₃ h₃ hle₃ => ?_
  exact .rangeFrom h₃ (by omega) (.pure h₃ (by omega) (by simp!))

theorem creation_mirrors (hg : g.Alike f) (h : State.Moved f s t) {start : Nat}
    (hle : start ≤ s.start) (outer : Option Expr) :
    Mirrors f (fun _ => s.start + 1) (Expr.shift f) (creation g start outer)
      (creation g (f.start start) (outer.map (Expr.shift f))) s t := by
  refine (expect_mirrors h (by decide)).bind fun _ u v h₁ hle₁ => ?_
  refine (nonArrayType_onward hg u v h₁).bind fun type u₂ v₂ h₂ hle₂ => .isAt h₂ ?_
  refine .ite (by simp) (fun _ => ?_) fun _ => ?_
  · refine (many_alike (isAtKind_eq _) (dimExpr_onward hg).alike u₂ v₂ h₂).bind
      fun dims u₃ v₃ h₃ hle₃ => .ifAt h₃ (fun _ => ?_) fun _ => ?_
    · refine (arrayInit_onward hg u₃ v₃ h₃).bind fun p u₄ v₄ h₄ hle₄ => ?_
      exact .rangeFrom h₄ (by omega) (.pure h₄ (by omega) (by simp!))
    · exact .rangeFrom h₃ (by omega) (.pure h₃ (by omega) (by simp!))
  · refine (arguments_onward hg u₂ v₂ h₂).bind fun p u₃ v₃ h₃ hle₃ => ?_
    refine (classBody?_alike hg u₃ v₃ h₃).bind fun body u₄ v₄ h₄ hle₄ => ?_
    exact .rangeFrom h₄ (by omega) (.pure h₄ (by omega) (by simp!))

/-! ## Selections -/

theorem typeOfExpr?_shift (e : Expr) :
    typeOfExpr? (e.shift f) = (typeOfExpr? e).map (TypeRef.shift f) := by
  fun_induction typeOfExpr? e with
  | case1 n => simp! [TypeRef.shift, Ident.shift]
  | case2 range target n ih =>
    simp! only [ih, Option.map_map]
    congr 1
  | case3 e hname haccess =>
    cases e <;> first | rfl | exact absurd rfl (hname _) | exact absurd rfl (haccess _ _ _)

theorem memberOf_mirrors (hg : g.Alike f) (h : State.Moved f s t) {start : Nat}
    (hle : start ≤ s.start) (target : Expr) :
    Mirrors f (fun _ => s.start + 1) (Expr.shift f) (memberOf g start target)
      (memberOf g (f.start start) (target.shift f)) s t := by
  have hword : s.kind 0 ≠ .endOfFile → Mirrors f (fun _ => s.start + 1) (Expr.shift f)
      (word >>= fun name => rangeFrom start >>= fun r => pure (.fieldAccess r target name))
      (word >>= fun name => rangeFrom (f.start start) >>= fun r =>
        pure (.fieldAccess r (target.shift f) name)) s t := fun hkind =>
    (word_mirrors h hkind).bind fun name u v h₁ hle₁ =>
      .rangeFrom h₁ (by omega) (.pure h₁ (by omega) rfl)
  refine .kindAt h ?_
  split
  · refine (ident_mirrors h).bind fun name u v h₁ hle₁ => .ifAt h₁ (fun _ => ?_) fun _ => ?_
    · refine (arguments_onward hg u v h₁).bind fun p u₂ v₂ h₂ hle₂ => ?_
      exact .rangeFrom h₂ (by omega) (.pure h₂ (by omega) (by simp!))
    · exact .rangeFrom h₁ (by omega) (.pure h₁ (by omega) rfl)
  · refine (typeArgs_onward hg s t h).bind fun p u v h₁ hle₁ => ?_
    refine (ident_mirrors h₁).bind fun name u₂ v₂ h₂ hle₂ => ?_
    refine (arguments_onward hg u₂ v₂ h₂).bind fun q u₃ v₃ h₃ hle₃ => ?_
    exact .rangeFrom h₃ (by omega) (.pure h₃ (by omega) (by simp!))
  · rename_i hkind
    exact hword (by rw [hkind]; decide)
  · rename_i hkind
    exact hword (by rw [hkind]; decide)
  · exact creation_mirrors hg h hle (some target)
  · rename_i hkind
    refine (advance_mirrors h (by rw [hkind]; decide)).bind fun _ u v h₁ hle₁ => ?_
    rw [typeOfExpr?_shift]
    cases typeOfExpr? target with
    | none => exact fail_mirrors h₁ _
    | some type => exact .rangeFrom h₁ (by omega) (.pure h₁ hle₁ rfl)
  · exact expected_mirrors h _

theorem postfixFrom_mirrors (hg : g.Alike f) {start : Nat} (n : Nat) (h : State.Moved f s t)
    (hlt : start < s.start) (e : Expr) :
    Mirrors f (fun _ => s.start) (Expr.shift f) (postfixFrom g start n e)
      (postfixFrom g (f.start start) n (e.shift f)) s t := by
  induction n generalizing s t e with
  | zero => exact exhausted_mirrors h
  | succ n ih =>
    refine .kindAt h ?_
    split
    · refine (advance_mirrors_spot h).bind fun _ u v h₁ hle₁ => ?_
      refine (memberOf_mirrors hg h₁ (by omega) e).bind fun e u₂ v₂ h₂ hle₂ => ?_
      exact (ih h₂ (by omega) e).mono (by omega)
    · refine (advance_mirrors_spot h).bind fun _ u v h₁ hle₁ => ?_
      refine (hg.expr u v h₁).bind fun index u₂ v₂ h₂ hle₂ => ?_
      refine (expect_mirrors h₂ (by decide)).bind fun _ u₃ v₃ h₃ hle₃ => .rangeFrom h₃ (by omega) ?_
      exact (ih h₃ (by omega) (.arrayAccess (u₃.rangeFrom start) e index)).mono (by omega)
    · refine (advance_mirrors_spot h).bind fun _ u v h₁ hle₁ => .rangeFrom h₁ (by omega) ?_
      exact (ih h₁ (by omega) (.unary (u.rangeFrom start) .postInc e)).mono (by omega)
    · refine (advance_mirrors_spot h).bind fun _ u v h₁ hle₁ => .rangeFrom h₁ (by omega) ?_
      exact (ih h₁ (by omega) (.unary (u.rangeFrom start) .postDec e)).mono (by omega)
    · refine (advance_mirrors_spot h).bind fun _ u v h₁ hle₁ => ?_
      refine (eat_mirrors h₁).bind fun found u₂ v₂ h₂ hle₂ => ?_
      refine .meet (fun _ => u₂.start) (Option.map (Ident.shift f)) Iff.rfl
        (fun name u₃ v₃ h₃ hle₃ => .rangeFrom h₃ (by omega) ?_)
        (fun _ hrest => .pure_bind (hrest none u₂ v₂ h₂ (Nat.le_refl _)))
        fun _ => ((ident_mirrors h₂).mono (Nat.le_succ _)).map fun _ => rfl
      exact (ih h₃ (by omega) (.methodRef (u₃.rangeFrom start) e name)).mono (by omega)
    · exact .pure h (Nat.le_refl _) rfl

/-! ## Primary expressions -/

theorem typePrimary_mirrors (hg : g.Alike f) (h : State.Moved f s t) {start : Nat}
    (hle : start ≤ s.start) :
    Mirrors f (fun _ => s.start + 1) (Expr.shift f) (typePrimary g start)
      (typePrimary g (f.start start)) s t := by
  refine (type_onward hg s t h).bind fun type u v h₁ hle₁ => .ifAt h₁ (fun _ => ?_) fun _ => ?_
  · exact .pure h₁ hle₁ rfl
  · refine .isAt h₁ (.kindAt h₁ (.ite Iff.rfl (fun _ => ?_) fun _ => expected_mirrors h₁ _))
    refine (advance_mirrors_spot h₁).bind fun _ u₂ v₂ h₂ hle₂ => ?_
    refine (advance_mirrors_spot h₂).bind fun _ u₃ v₃ h₃ hle₃ => ?_
    exact .rangeFrom h₃ (by omega) (.pure h₃ (by omega) rfl)

theorem nameOrCall_mirrors (hg : g.Alike f) (h : State.Moved f s t) {start : Nat}
    (hle : start ≤ s.start) :
    Mirrors f (fun _ => s.start + 1) (Expr.shift f) (nameOrCall g start)
      (nameOrCall g (f.start start)) s t := by
  refine (ident_mirrors h).bind fun name u v h₁ hle₁ => .ifAt h₁ (fun _ => ?_) fun _ => ?_
  · refine (arguments_onward hg u v h₁).bind fun p u₂ v₂ h₂ hle₂ => ?_
    exact .rangeFrom h₂ (by omega) (.pure h₂ (by omega) (by simp!))
  · exact .pure h₁ hle₁ rfl

theorem selfOrCall_mirrors (hg : g.Alike f) (h : State.Moved f s t) {start : Nat}
    (hle : start ≤ s.start) (hkind : s.kind 0 ≠ .endOfFile) :
    Mirrors f (fun _ => s.start + 1) (Expr.shift f) (selfOrCall g start)
      (selfOrCall g (f.start start)) s t := by
  refine .get ?_
  rw [h.kind_eq, h.kind_eq]
  refine (word_mirrors h hkind).bind fun name u v h₁ hle₁ => .ite Iff.rfl (fun _ => ?_) fun _ => ?_
  · refine (arguments_onward hg u v h₁).bind fun p u₂ v₂ h₂ hle₂ => ?_
    exact .rangeFrom h₂ (by omega) (.pure h₂ (by omega) (by simp!))
  · exact .ite Iff.rfl (fun _ => .pure h₁ hle₁ rfl) fun _ => .pure h₁ hle₁ rfl

theorem ne_endOfFile_of_literal {kind : TokenKind} {l : LiteralKind}
    (h : LiteralKind.ofToken? kind = some l) : kind ≠ .endOfFile := by
  rintro rfl
  cases h

theorem primary_onward (hg : g.Alike f) :
    Onward f (Expr.shift f) (primary g) (primary g) := by
  intro s t h
  refine .get ?_
  dsimp only
  rw [h.kind_eq, h.kind_eq, h.kind_eq, h.start_eq]
  cases hliteral : LiteralKind.ofToken? (s.kind 0) with
  | some literal =>
    exact (advance_mirrors h (ne_endOfFile_of_literal hliteral)).bind
      fun _ u v h₁ hle₁ => .pure h₁ hle₁ rfl
  | none =>
    dsimp only
    split
    · rename_i hkind
      exact selfOrCall_mirrors hg h (Nat.le_refl _) (by rw [hkind]; decide)
    · rename_i hkind
      exact selfOrCall_mirrors hg h (Nat.le_refl _) (by rw [hkind]; decide)
    · refine .meet (taking s.start) (Option.map (Expr.shift f)) Iff.rfl (fun o u v h₁ hle₁ => ?_)
        (fun _ hrest => ?_) fun _ => .pure h (Nat.le_refl _) rfl
      · cases o with
        | some e => exact .pure h₁ hle₁ rfl
        | none =>
          have hle : s.start ≤ u.start := hle₁
          exact (nameOrCall_mirrors hg h₁ hle).mono (Nat.succ_le_succ hle)
      · exact (attempt_mirrors h (typePrimary_mirrors hg h (Nat.le_refl _))).bind hrest
    · refine (advance_mirrors_spot h).bind fun _ u v h₁ hle₁ => ?_
      refine (hg.expr u v h₁).bind fun e u₂ v₂ h₂ hle₂ => ?_
      refine (expect_mirrors h₂ (by decide)).bind fun _ u₃ v₃ h₃ hle₃ => ?_
      exact .rangeFrom h₃ (by omega) (.pure h₃ (by omega) rfl)
    · exact creation_mirrors hg h (Nat.le_refl _) none
    · refine (advance_mirrors_spot h).bind fun _ u v h₁ hle₁ => ?_
      refine (expect_mirrors h₁ (by decide)).bind fun _ u₂ v₂ h₂ hle₂ => ?_
      refine (hg.expr u₂ v₂ h₂).bind fun selector u₃ v₃ h₃ hle₃ => ?_
      refine (expect_mirrors h₃ (by decide)).bind fun _ u₄ v₄ h₄ hle₄ => ?_
      refine (hg.switchCases u₄ v₄ h₄).bind fun cases u₅ v₅ h₅ hle₅ => ?_
      exact .rangeFrom h₅ (by omega) (.pure h₅ (by omega) (by simp!))
    · exact .ite Iff.rfl (fun _ => typePrimary_mirrors hg h (Nat.le_refl _))
        fun _ => expected_mirrors h _

theorem unary_onward (hg : g.Alike f) : Onward f (Expr.shift f) (unary g) (unary g) := by
  intro s t h
  refine .get ?_
  rw [h.kind_eq, h.start_eq, h.budget_eq]
  cases hop : UnaryOp.ofToken? (s.kind 0) with
  | some op =>
    refine (advance_mirrors_spot h).bind fun _ u v h₁ hle₁ => ?_
    refine (hg.unary u v h₁).bind fun operand u₂ v₂ h₂ hle₂ => ?_
    exact .rangeFrom h₂ (by omega) (.pure h₂ (by omega) rfl)
  | none =>
    refine .meet (taking s.start) (Option.map (Expr.shift f)) Iff.rfl (fun o u v h₁ hle₁ => ?_)
      (fun _ hrest => (cast?_maybe hg s t h).bind hrest) fun _ => .pure h (Nat.le_refl _) rfl
    cases o with
    | some e => exact .pure h₁ hle₁ rfl
    | none =>
      have hle : s.start ≤ u.start := hle₁
      refine (primary_onward hg u v h₁).bind fun e u₂ v₂ h₂ hle₂ => ?_
      exact (postfixFrom_mirrors hg s.budget h₂ (by omega) e).mono (by omega)

end JavaAnalysis.Parser
