import JavaAnalysis.Parser.Unit
import JavaAnalysis.Proofs.Parser.Primitives
import JavaAnalysis.Proofs.Regions.Written

/-!
# Expressions that stand for values

What the parser reads as an expression stands for a value: annotations are read as the values of
annotation elements only, and a type is read in the place of an expression only where a reference to
a method or the word `class` follows, which make it a part of a larger expression.
Main statement: `grammar_valued`.
-/

set_option autoImplicit false
set_option linter.dupNamespace false

namespace JavaAnalysis.Parser

open Ast

/-- The parsers of a grammar that read expressions read values. -/
structure Grammar.Valued (g : Grammar) : Prop where
  expr : ∀ s, Ensures g.expr s fun e _ => e.isValue = true
  conditional : ∀ s, Ensures g.conditional s fun e _ => e.isValue = true
  binary : ∀ min s, Ensures (g.binary min) s fun e _ => e.isValue = true
  unary : ∀ s, Ensures g.unary s fun e _ => e.isValue = true
  varInit : ∀ s, Ensures g.varInit s fun e _ => e.isValue = true

variable {g : Grammar} {s : State} {α β : Type} {p : Parser α} {k : α → Parser β}
  {post : β → State → Prop}

/-- Whatever was read before, what comes last is as told. -/
theorem skip_ensures (hk : ∀ a t, Ensures (k a) t post) : Ensures (p >>= k) s post := by
  have hp : Ensures p s fun _ _ => True := fun _ _ _ => trivial
  exact hp.bind fun a t _ => hk a t

/-- What is made of the last range is as told. -/
theorem rangeFrom_ensures {make : TextRange → β} {start : Nat} (h : ∀ r, post (make r) s) :
    Ensures (rangeFrom start >>= fun r => pure (make r)) s post :=
  rangeFrom_bind (.pure (h _))

theorem ifEat_ensures {p q : Parser β} {kind : TokenKind} (hp : ∀ t, Ensures p t post)
    (hq : ∀ t, Ensures q t post) :
    Ensures (eat kind >>= fun b => if b = true then p else q) s post :=
  skip_ensures fun _ t => .ite (fun _ => hp t) fun _ => hq t

/-! ## Lambda expressions, assignments and choices -/

theorem lambdaRest_isValue (start : Nat) (range : TextRange) (params : List Param) (parens : Bool) :
    Ensures (lambdaRest g start range params parens) s fun e _ => e.isValue = true := by
  unfold lambdaRest
  refine skip_ensures fun _ t => ifAt (fun _ => ?_) fun _ => ?_
  · exact skip_ensures fun _ t => rangeFrom_ensures fun _ => rfl
  · exact skip_ensures fun _ t => rangeFrom_ensures fun _ => rfl

theorem lambda?_isValue :
    Ensures (lambda? g) s fun found _ => ∀ e, found = some e → e.isValue = true := by
  have hsome : ∀ (start : Nat) (range : TextRange) (params : List Param) (parens : Bool) t,
      Ensures (some <$> lambdaRest g start range params parens) t fun found _ =>
        ∀ e, found = some e → e.isValue = true := fun start range params parens t =>
    (lambdaRest_isValue start range params parens).map fun e _ he e' heq => by
      cases heq
      exact he
  unfold lambda?
  refine .get (.ite (fun _ => ?_) fun _ => .ite (fun _ => ?_) fun _ => .pure nofun)
  · exact skip_ensures fun name t => hsome _ _ _ _ t
  · exact skip_ensures fun ⟨range, params⟩ t => hsome _ _ _ _ t

theorem expr_isValue (hg : g.Valued) : Ensures (expr g) s fun e _ => e.isValue = true := by
  unfold expr
  refine startHere_bind (lambda?_isValue.bind fun found t hfound => ?_)
  cases found with
  | some e => exact .pure (hfound e rfl)
  | none =>
    refine (hg.conditional t).bind fun target t htarget => kindAt_bind ?_
    split
    · exact .pure htarget
    · exact skip_ensures fun _ t => skip_ensures fun _ t => rangeFrom_ensures fun _ => rfl

theorem conditional_isValue (hg : g.Valued) :
    Ensures (conditional g) s fun e _ => e.isValue = true := by
  unfold conditional
  refine startHere_bind ((hg.binary 0 s).bind fun cond t hcond => ?_)
  refine ifEat_ensures (fun t => ?_) fun t => .pure hcond
  refine skip_ensures fun _ t => skip_ensures fun _ t => skip_ensures fun found t => ?_
  cases found with
  | some e => exact skip_ensures fun _ t => rangeFrom_ensures fun _ => rfl
  | none => exact skip_ensures fun _ t => rangeFrom_ensures fun _ => rfl

/-! ## Operators -/

theorem instanceOfRest_isValue (start : Nat) (e : Expr) :
    Ensures (instanceOfRest g start e) s fun e _ => e.isValue = true := by
  unfold instanceOfRest
  refine startHere_bind (skip_ensures fun ms t => skip_ensures fun ty t => ifAt (fun _ => ?_)
    fun _ => .ite (fun _ => ?_) fun _ => expected_ensures)
  · exact skip_ensures fun _ t => skip_ensures fun _ t => rangeFrom_ensures fun _ => rfl
  · exact rangeFrom_ensures fun _ => rfl

theorem binaryFrom_isValue (start min n : Nat) {lhs : Expr} (h : lhs.isValue = true) :
    Ensures (binaryFrom g start min n lhs) s fun e _ => e.isValue = true := by
  induction n generalizing s lhs with
  | zero => exact exhausted_ensures
  | succ n ih =>
    unfold binaryFrom
    refine ifAt (fun _ => .ite (fun _ => .pure h) fun _ => ?_) fun _ => kindAt_bind ?_
    · exact skip_ensures fun _ t => (instanceOfRest_isValue start lhs).bind fun e t he => ih he
    · split
      · exact .pure h
      · refine .ite (fun _ => .pure h) fun _ => ?_
        exact skip_ensures fun _ t => skip_ensures fun rhs t => rangeFrom_bind (ih rfl)

theorem binary_isValue (hg : g.Valued) (min : Nat) :
    Ensures (binary g min) s fun e _ => e.isValue = true := by
  unfold binary
  exact .get ((hg.unary s).bind fun e t he => binaryFrom_isValue _ _ _ he)

theorem cast?_isValue :
    Ensures (cast? g) s fun found _ => ∀ e, found = some e → e.isValue = true := by
  have hcast : ∀ (start : Nat) (type : TypeRef) (operand : Expr) t,
      Ensures (rangeFrom start >>= fun r => pure (some (Expr.cast r type operand))) t
        fun found _ => ∀ e, found = some e → e.isValue = true := fun start type operand t =>
    rangeFrom_ensures fun _ e heq => by
      cases heq
      rfl
  unfold cast?
  refine startHere_bind (skip_ensures fun found t => ?_)
  cases found with
  | none => exact .pure nofun
  | some type =>
    refine skip_ensures fun found t => ?_
    cases found with
    | some e => exact skip_ensures fun operand t => hcast _ _ operand t
    | none => exact skip_ensures fun operand t => hcast _ _ operand t

/-! ## Operands -/

theorem creation_isValue (start : Nat) (outer : Option Expr) :
    Ensures (creation g start outer) s fun e _ => e.isValue = true := by
  unfold creation
  refine skip_ensures fun _ t => skip_ensures fun ty t => isAt_bind (.ite (fun _ => ?_) fun _ => ?_)
  · refine skip_ensures fun dims t => ifAt (fun _ => ?_) fun _ => ?_
    · exact skip_ensures fun _ t => rangeFrom_ensures fun _ => rfl
    · exact rangeFrom_ensures fun _ => rfl
  · exact skip_ensures fun _ t => skip_ensures fun _ t => rangeFrom_ensures fun _ => rfl

theorem memberOf_isValue (start : Nat) (target : Expr) :
    Ensures (memberOf g start target) s fun e _ => e.isValue = true := by
  unfold memberOf
  refine kindAt_bind ?_
  split
  · refine skip_ensures fun name t => ifAt (fun _ => ?_) fun _ => ?_
    · exact skip_ensures fun _ t => rangeFrom_ensures fun _ => rfl
    · exact rangeFrom_ensures fun _ => rfl
  · exact skip_ensures fun _ t => skip_ensures fun _ t => skip_ensures fun _ t =>
      rangeFrom_ensures fun _ => rfl
  · exact skip_ensures fun _ t => rangeFrom_ensures fun _ => rfl
  · exact skip_ensures fun _ t => rangeFrom_ensures fun _ => rfl
  · exact creation_isValue _ _
  · refine skip_ensures fun _ t => ?_
    split
    · exact rangeFrom_ensures fun _ => rfl
    · exact fail_ensures
  · exact expected_ensures

/-- A type is no value, but the reference to a method that follows it makes it a part of one. -/
theorem postfixFrom_isValue (start n : Nat) {e : Expr}
    (h : e.isValue = true ∨ s.kind 0 = .colonColon) :
    Ensures (postfixFrom g start n e) s fun e _ => e.isValue = true := by
  induction n generalizing s e with
  | zero => exact exhausted_ensures
  | succ n ih =>
    unfold postfixFrom
    refine kindAt_bind ?_
    split
    · exact skip_ensures fun _ t => (memberOf_isValue start e).bind fun e t he => ih (.inl he)
    · exact skip_ensures fun _ t => skip_ensures fun _ t => skip_ensures fun _ t =>
        rangeFrom_bind (ih (.inl rfl))
    · exact skip_ensures fun _ t => rangeFrom_bind (ih (.inl rfl))
    · exact skip_ensures fun _ t => rangeFrom_bind (ih (.inl rfl))
    · refine skip_ensures fun _ t => ifEat_ensures (fun t => ?_) fun t => ?_
      · exact skip_ensures fun _ t => rangeFrom_bind (ih (.inl rfl))
      · exact skip_ensures fun _ t => rangeFrom_bind (ih (.inl rfl))
    · rename_i hno
      exact .pure (h.resolve_right hno)

theorem typePrimary_isValue (start : Nat) :
    Ensures (typePrimary g start) s fun e t => e.isValue = true ∨ t.kind 0 = .colonColon := by
  unfold typePrimary
  refine skip_ensures fun ty t => ifAt (fun hkind => .pure (.inr hkind)) fun _ =>
    isAt_bind (kindAt_bind (.ite (fun _ => ?_) fun _ => expected_ensures))
  exact skip_ensures fun _ t => skip_ensures fun _ t => rangeFrom_ensures fun _ => .inl rfl

theorem nameOrCall_isValue (start : Nat) :
    Ensures (nameOrCall g start) s fun e _ => e.isValue = true := by
  unfold nameOrCall
  refine skip_ensures fun name t => ifAt (fun _ => ?_) fun _ => .pure rfl
  exact skip_ensures fun _ t => rangeFrom_ensures fun _ => rfl

theorem selfOrCall_isValue (start : Nat) :
    Ensures (selfOrCall g start) s fun e _ => e.isValue = true := by
  unfold selfOrCall
  refine .get (skip_ensures fun name t => .ite (fun _ => ?_) fun _ =>
    .ite (fun _ => .pure rfl) fun _ => .pure rfl)
  exact skip_ensures fun _ t => rangeFrom_ensures fun _ => rfl

theorem foundOrCall_isValue (found : Option Expr) (t : State) :
    Perhaps s (fun t e => Expr.isValue e = true ∨ t.kind 0 = .colonColon) found t →
    Ensures (match found with
      | some e => pure e
      | none => nameOrCall g s.start : Parser Expr) t
        fun e t => e.isValue = true ∨ t.kind 0 = .colonColon := by
  intro h
  cases found with
  | some e => exact .pure h
  | none => exact (nameOrCall_isValue _).mono fun _ _ => .inl

theorem primary_isValue :
    Ensures (primary g) s fun e t => e.isValue = true ∨ t.kind 0 = .colonColon := by
  unfold primary
  refine .get ?_
  dsimp only
  split
  · exact skip_ensures fun _ t => .pure (.inl rfl)
  · split
    · exact (selfOrCall_isValue _).mono fun _ _ => .inl
    · exact (selfOrCall_isValue _).mono fun _ _ => .inl
    · refine .ite (fun _ => ?_) fun _ => ?_
      · exact (attempt_ensures (typePrimary_isValue s.start)).bind foundOrCall_isValue
      · exact foundOrCall_isValue none s rfl
    · exact skip_ensures fun _ t => skip_ensures fun _ t => skip_ensures fun _ t =>
        rangeFrom_ensures fun _ => .inl rfl
    · exact (creation_isValue _ _).mono fun _ _ => .inl
    · exact skip_ensures fun _ t => skip_ensures fun _ t => skip_ensures fun _ t =>
        skip_ensures fun _ t => skip_ensures fun _ t => rangeFrom_ensures fun _ => .inl rfl
    · exact .ite (fun _ => typePrimary_isValue _) fun _ => expected_ensures

theorem foundOrPostfix_isValue (found : Option Expr) (t : State) :
    (∀ e, found = some e → e.isValue = true) →
    Ensures (match found with
      | some e => pure e
      | none => primary g >>= fun e => postfixFrom g s.start s.budget e : Parser Expr) t
        fun e _ => e.isValue = true := by
  intro h
  cases found with
  | some e => exact .pure (h e rfl)
  | none => exact primary_isValue.bind fun e t he => postfixFrom_isValue _ _ he

theorem unary_isValue : Ensures (unary g) s fun e _ => e.isValue = true := by
  unfold unary
  refine .get ?_
  split
  · exact skip_ensures fun _ t => skip_ensures fun _ t => rangeFrom_ensures fun _ => rfl
  · exact .ite (fun _ => cast?_isValue.bind foundOrPostfix_isValue) fun _ =>
      foundOrPostfix_isValue none s (by simp)

theorem varInit_isValue (hg : g.Valued) : Ensures (varInit g) s fun e _ => e.isValue = true := by
  unfold varInit
  exact ifAt (fun _ => skip_ensures fun _ t => .pure rfl) fun _ => hg.expr s

/-- Whatever the depth, the expressions that are read stand for values. -/
theorem grammar_valued (n : Nat) : (grammar n).Valued := by
  induction n with
  | zero =>
    exact {
      expr := fun _ => exhausted_ensures
      conditional := fun _ => exhausted_ensures
      binary := fun _ _ => exhausted_ensures
      unary := fun _ => exhausted_ensures
      varInit := fun _ => exhausted_ensures
    }
  | succ n ih =>
    exact {
      expr := fun _ => expr_isValue ih
      conditional := fun _ => conditional_isValue ih
      binary := fun min _ => binary_isValue ih min
      unary := fun _ => unary_isValue
      varInit := fun _ => varInit_isValue ih
    }

end JavaAnalysis.Parser
