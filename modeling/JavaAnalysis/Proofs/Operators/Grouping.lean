import JavaAnalysis.Ast.Range
import JavaAnalysis.Lexeme
import JavaAnalysis.Parser.Expressions

/-!
# How operators group

Binary operators and type tests are written in a row behind a first operand, and the syntax tree is
one way to put brackets around them. `Grouped` says what holds of the operands of each operator, and
`regroup` makes a tree of the row by hanging one operator after the other where it belongs. A grouped
tree is what `regroup` makes of its row, so that there is no other grouped tree with the same row.
Main statements: `Grouped.regroup_eq`, `Grouped.unique`.
-/

set_option autoImplicit false

namespace JavaAnalysis.Ast

open JavaAnalysis.Parser (instanceOfPrecedence)

namespace Expr

/-! ## Operands that bind tightly enough -/

/-- The expression binds looser than any operator. -/
def isLoose : Expr → Bool
  | .conditional _ _ _ _ | .assign _ _ _ _ | .lambdaExpr _ _ _ _ _ | .lambdaBlock _ _ _ _ _ => true
  | _ => false

/-- A conditional expression or an assignment. -/
def isChoice : Expr → Bool
  | .conditional _ _ _ _ | .assign _ _ _ _ => true
  | _ => false

/-- How tightly the operator binds that is applied last, if it is binary or a type test. -/
def tightness? : Expr → Option Nat
  | .binary _ op _ _ => some op.precedence
  | .instanceOf _ _ _ | .instanceOfPattern _ _ _ => some instanceOfPrecedence
  | _ => none

/-- No operator in front of the expression or behind it could take a part of it. -/
def IsOperand (e : Expr) : Prop := e.tightness? = none ∧ e.isLoose = false

/-- The expression may stand behind the type of a cast: an operand or a lambda expression. -/
def IsCastable (e : Expr) : Prop := e.tightness? = none ∧ e.isChoice = false

/-- Every operator that the first operand of the expression is an operand of binds tighter. -/
def Tighter (min : Nat) : Expr → Prop
  | .binary _ op lhs _ => min < op.precedence ∧ lhs.Tighter min
  | .instanceOf _ e _ => min < instanceOfPrecedence ∧ e.Tighter min
  | .instanceOfPattern _ e _ => min < instanceOfPrecedence ∧ e.Tighter min
  | e => e.isLoose = false

/--
The expression may stand in front of an operator of the given precedence. A type test ends with a
type, which no operator can take from it, so that any operator may follow it.
-/
def Precedes (precedence : Nat) : Expr → Prop
  | .binary _ op _ _ => precedence ≤ op.precedence
  | e => e.isLoose = false

/-- The operands of the operators in a row bind tightly enough, and so do those of unary operators. -/
def Grouped : Expr → Prop
  | .binary range op lhs rhs =>
    lhs.Grouped ∧ rhs.Grouped ∧ lhs.Precedes op.precedence ∧ rhs.Tighter op.precedence ∧
      range = ⟨lhs.range.start, rhs.range.stop⟩
  | .instanceOf range e tested =>
    e.Grouped ∧ e.Precedes instanceOfPrecedence ∧ range = ⟨e.range.start, tested.range.stop⟩
  | .instanceOfPattern range e pattern =>
    e.Grouped ∧ e.Precedes instanceOfPrecedence ∧ range = ⟨e.range.start, pattern.range.stop⟩
  | .unary _ _ e => e.IsOperand
  | .cast _ _ e => e.IsCastable
  | _ => True

variable {e lhs rhs : Expr} {n min : Nat}

theorem IsOperand.tighter (h : e.IsOperand) : e.Tighter min := by
  cases e <;> simp_all [IsOperand, tightness?, isLoose, Tighter]

theorem IsOperand.isCastable (h : e.IsOperand) : e.IsCastable := by
  cases e <;> simp_all [IsOperand, IsCastable, isLoose, isChoice]

theorem IsOperand.precedes (h : e.IsOperand) : e.Precedes n := by
  cases e <;> simp_all [IsOperand, tightness?, isLoose, Precedes]

theorem Tighter.not_isLoose (h : e.Tighter min) : e.isLoose = false := by
  cases e <;> simp_all [Tighter, isLoose]

theorem Precedes.not_isLoose (h : e.Precedes n) : e.isLoose = false := by
  cases e <;> simp_all [Precedes, isLoose]

/-! ## Rows of operators -/

/-- What stands behind an operand: an operator with its second operand, or a type test. -/
inductive Link where
  | operation (op : BinaryOp) (operand : Expr)
  | test (tested : TypeRef)
  | patternTest (pattern : Pattern)

namespace Link

def tightness : Link → Nat
  | operation op _ => op.precedence
  | test _ => instanceOfPrecedence
  | patternTest _ => instanceOfPrecedence

/-- The operator applied to an expression as a whole. -/
def onto (e : Expr) : Link → Expr
  | operation op operand => .binary ⟨e.range.start, operand.range.stop⟩ op e operand
  | test tested => .instanceOf ⟨e.range.start, tested.range.stop⟩ e tested
  | patternTest pattern => .instanceOfPattern ⟨e.range.start, pattern.range.stop⟩ e pattern

end Link

/-- The operand that the row starts with. -/
def first : Expr → Expr
  | .binary _ _ lhs _ => lhs.first
  | .instanceOf _ e _ => e.first
  | .instanceOfPattern _ e _ => e.first
  | e => e

/-- What stands behind the first operand, from left to right. -/
def links : Expr → List Link
  | .binary _ op lhs rhs => lhs.links ++ .operation op rhs.first :: rhs.links
  | .instanceOf _ e tested => e.links ++ [.test tested]
  | .instanceOfPattern _ e pattern => e.links ++ [.patternTest pattern]
  | _ => []

/-- One more operator behind an expression: it takes the last operand, or as much as is looser. -/
def extend : Expr → Link → Expr
  | .binary range op lhs rhs, k =>
    if op.precedence < k.tightness then
      .binary ⟨lhs.range.start, (rhs.extend k).range.stop⟩ op lhs (rhs.extend k)
    else k.onto (.binary range op lhs rhs)
  | e, k => k.onto e

/-- The tree of a row of operators, which are taken from left to right. -/
def regroup (operand : Expr) (ks : List Link) : Expr := ks.foldl extend operand

theorem regroup_append (operand : Expr) (ks ls : List Link) :
    regroup operand (ks ++ ls) = regroup (regroup operand ks) ls := List.foldl_append

theorem Precedes.extend_eq {k : Link} (h : e.Precedes k.tightness) : e.extend k = k.onto e := by
  cases e with
  | binary range op lhs rhs =>
    have hle : k.tightness ≤ op.precedence := h
    rw [extend, if_neg (Nat.not_lt.2 hle)]
  | _ => rfl

/-- All operators in a grouped tree bind tighter than what its first operand is exposed to. -/
theorem Grouped.lt_tightness (h : e.Grouped) (htight : e.Tighter min) :
    ∀ k ∈ e.links, min < k.tightness := by
  fun_induction links e generalizing min with
  | case1 range op lhs rhs ihl ihr =>
    obtain ⟨hlhs, hrhs, -, hr, -⟩ := h
    intro k hk
    rcases List.mem_append.1 hk with hk | hk
    · exact ihl hlhs htight.2 k hk
    · rcases List.mem_cons.1 hk with rfl | hk
      · exact htight.1
      · exact Nat.lt_trans htight.1 (ihr hrhs hr k hk)
  | case2 range e tested ih =>
    intro k hk
    rcases List.mem_append.1 hk with hk | hk
    · exact ih h.1 htight.2 k hk
    · cases List.mem_singleton.1 hk
      exact htight.1
  | case3 range e pattern ih =>
    intro k hk
    rcases List.mem_append.1 hk with hk | hk
    · exact ih h.1 htight.2 k hk
    · cases List.mem_singleton.1 hk
      exact htight.1
  | case4 => nofun

/-- Operators that bind tighter go into the second operand. -/
theorem regroup_binary {range : TextRange} {op : BinaryOp} {ks : List Link}
    (h : ∀ k ∈ ks, op.precedence < k.tightness)
    (hrange : range = ⟨lhs.range.start, rhs.range.stop⟩) :
    regroup (.binary range op lhs rhs) ks =
      .binary ⟨lhs.range.start, (regroup rhs ks).range.stop⟩ op lhs (regroup rhs ks) := by
  induction ks generalizing range rhs with
  | nil => rw [hrange]; rfl
  | cons k ks ih =>
    have hk := h k List.mem_cons_self
    have hstep : extend (.binary range op lhs rhs) k =
        .binary ⟨lhs.range.start, (rhs.extend k).range.stop⟩ op lhs (rhs.extend k) := by
      rw [extend, if_pos hk]
    show regroup (extend _ k) ks = _
    rw [hstep]
    exact ih (fun k' hk' => h k' (List.mem_cons_of_mem _ hk')) rfl

/-- A grouped tree is the tree of its row. -/
theorem Grouped.regroup_eq (h : e.Grouped) : regroup e.first e.links = e := by
  fun_induction links e with
  | case1 range op lhs rhs ihl ihr =>
    obtain ⟨hlhs, hrhs, hl, hr, hrange⟩ := h
    have hleft : regroup (first (.binary range op lhs rhs)) lhs.links = lhs := ihl hlhs
    have hstep : extend lhs (.operation op rhs.first) =
        .binary ⟨lhs.range.start, rhs.first.range.stop⟩ op lhs rhs.first := Precedes.extend_eq hl
    rw [regroup_append, hleft]
    show regroup (extend lhs _) rhs.links = _
    rw [hstep, regroup_binary (hrhs.lt_tightness hr) rfl, ihr hrhs, hrange]
  | case2 range e tested ih =>
    obtain ⟨he, hprecedes, hrange⟩ := h
    have hleft : regroup (first (.instanceOf range e tested)) e.links = e := ih he
    rw [regroup_append, hleft, hrange]
    exact Precedes.extend_eq (k := .test tested) hprecedes
  | case3 range e pattern ih =>
    obtain ⟨he, hprecedes, hrange⟩ := h
    have hleft : regroup (first (.instanceOfPattern range e pattern)) e.links = e := ih he
    rw [regroup_append, hleft, hrange]
    exact Precedes.extend_eq (k := .patternTest pattern) hprecedes
  | case4 e hbinary htest hpattern =>
    rw [first]
    · rfl
    · exact hbinary
    · exact htest
    · exact hpattern

/-- There is only one way to group a row of operators. -/
theorem Grouped.unique {e' : Expr} (h : e.Grouped) (h' : e'.Grouped) (hfirst : e'.first = e.first)
    (hlinks : e'.links = e.links) : e' = e := by
  rw [← h'.regroup_eq, hfirst, hlinks, h.regroup_eq]

end Expr

end JavaAnalysis.Ast

/-!
## Operators over rows of lexemes

The lexemes of an expression, read from left to right, are those of its operands with its operators
between them, before them or behind them. An operand that is no operator on others lies over its
lexemes as a whole.
-/

namespace JavaAnalysis

/-- The range goes from the first of the lexemes to the last. -/
def TextRange.Covers (r : TextRange) (xs : List Lexeme) : Prop :=
  ∃ x y, xs.head? = some x ∧ xs.getLast? = some y ∧ r = ⟨x.start, y.stop⟩

namespace Ast

theorem BinaryOp.eq_token {kind : TokenKind} {op : BinaryOp} (h : ofToken? kind = some op) :
    kind = op.token := by
  unfold ofToken? at h
  split at h <;> cases h <;> rfl

theorem UnaryOp.eq_token {kind : TokenKind} {op : UnaryOp} (h : ofToken? kind = some op) :
    kind = op.token ∧ op.isPostfix = false := by
  unfold ofToken? at h
  split at h <;> cases h <;> exact ⟨rfl, rfl⟩

namespace Expr

/-- The expression is an operator with its operands, a type test or a cast. -/
def isOperation : Expr → Bool
  | .unary _ _ _ | .binary _ _ _ _ | .instanceOf _ _ _ | .instanceOfPattern _ _ _ | .cast _ _ _ => true
  | _ => false

/-- What the expression is written as. -/
inductive Reads : Expr → List Lexeme → Prop where
  | operand {e : Expr} {xs : List Lexeme} : e.isOperation = false → e.range.Covers xs → Reads e xs
  | opBefore {x : Lexeme} {xs : List Lexeme} {range : TextRange} {op : UnaryOp} {e : Expr} :
    op.isPostfix = false → x.kind = op.token → Reads e xs → Reads (.unary range op e) (x :: xs)
  | opBehind {x : Lexeme} {xs : List Lexeme} {range : TextRange} {op : UnaryOp} {e : Expr} :
    op.isPostfix = true → Reads e xs → x.kind = op.token → Reads (.unary range op e) (xs ++ [x])
  | cast {x y : Lexeme} {ts xs : List Lexeme} {range : TextRange} {target : TypeRef} {e : Expr} :
    x.kind = .lParen → target.range.Covers ts → y.kind = .rParen → Reads e xs →
    Reads (.cast range target e) (x :: (ts ++ y :: xs))
  | binary {x : Lexeme} {xs ys : List Lexeme} {range : TextRange} {op : BinaryOp} {lhs rhs : Expr} :
    Reads lhs xs → x.kind = op.token → Reads rhs ys →
    Reads (.binary range op lhs rhs) (xs ++ x :: ys)
  | test {x : Lexeme} {xs ts : List Lexeme} {range : TextRange} {e : Expr} {tested : TypeRef} :
    Reads e xs → x.kind = .instanceofKw → tested.range.Covers ts →
    Reads (.instanceOf range e tested) (xs ++ x :: ts)
  | patternTest {x : Lexeme} {xs ts : List Lexeme} {range : TextRange} {e : Expr}
    {pattern : Pattern} : Reads e xs → x.kind = .instanceofKw → pattern.range.Covers ts →
    Reads (.instanceOfPattern range e pattern) (xs ++ x :: ts)

theorem grouped_of_not_isOperation {e : Expr} (h : e.isOperation = false) : e.Grouped := by
  cases e <;> trivial

end Expr

end Ast

end JavaAnalysis
