import JavaAnalysis.Proofs.Regions.Unit

/-!
# Operators in parsed files

The operators of every expression in a parsed file are grouped by how tightly they bind, and its
lexemes are its operands and operators in the order in which they are written, so that no other tree
can be made of them. The one operator that does not take all it could is the type test: whatever
stands behind its type is applied to the test as a whole, be it tighter or not.
Main statement: `run_grouped`.
-/

set_option autoImplicit false
set_option linter.dupNamespace false

namespace JavaAnalysis.Parser

open Ast Lexeme

variable {level : LanguageLevel} {lexemes : List Lexeme} {text : String} {unit : CompilationUnit}
  {t : State}

/--
Every expression that is parsed of a text is grouped, lies over lexemes that are its operands and its
operators from left to right, and is the only grouped tree of its row of operands and operators.
-/
theorem run_grouped (hscan : scan level text = .ok lexemes) (h : run level lexemes = .ok (unit, t))
    {e : Expr} {inside : List Region}
    (he : Region.part (.expr e) inside ∈ Region.allOf unit.regions) :
    e.Grouped ∧ (∃ xs, xs <:+: t.lexemes ∧ e.range.Covers xs ∧ e.Reads xs) ∧
      ∀ e' : Expr, e'.Grouped → e'.first = e.first → e'.links = e.links → e' = e := by
  obtain ⟨xs, hall, -, -, htiled, -⟩ := run_tiled (significant_of_scan hscan) h
  obtain ⟨run, hrun, hspans⟩ := htiled.covered.spans _ he
  obtain ⟨hgrouped, hreads⟩ := hspans.reads
  refine ⟨hgrouped, ⟨run, ?_, hspans.ends, hreads⟩, fun e' => hgrouped.unique⟩
  rw [hall]
  exact hrun.trans (List.prefix_append _ _).isInfix

/-- The row of operators of an expression that is a part of the outline. -/
def rowOf? : Region → Option (List Nat)
  | .part (.expr e) _ => some (e.links.map Expr.Link.tightness)
  | _ => none

theorem rowOf?_eq_some {r : Region} {row : List Nat} (h : rowOf? r = some row) :
    ∃ e inside, r = .part (.expr e) inside ∧ e.links.map Expr.Link.tightness = row := by
  unfold rowOf? at h
  split at h
  · rename_i e inside
    exact ⟨e, inside, rfl, Option.some.inj h⟩
  · cases h

/-- A row with a cast, a sign, a step and operators of several precedences. -/
theorem run_grouped_row : ∃ lexemes unit t e inside,
    scan .standard "class A{int f(int a){return-a*(int)a+a++*2==a;}}" = .ok lexemes ∧
      run .standard lexemes = .ok (unit, t) ∧
      Region.part (.expr e) inside ∈ Region.allOf unit.regions ∧
      e.links.map Expr.Link.tightness = [10, 9, 10, 6] ∧ e.Grouped ∧
      (∃ xs, xs <:+: t.lexemes ∧ e.range.Covers xs ∧ e.Reads xs) ∧
      ∀ e' : Expr, e'.Grouped → e'.first = e.first → e'.links = e.links → e' = e := by
  have hrows : ((scan .standard "class A{int f(int a){return-a*(int)a+a++*2==a;}}").toOption.bind
      fun lexemes => (run .standard lexemes).toOption.map fun r =>
        ((Region.allOf r.1.regions).map rowOf?).contains (some [10, 9, 10, 6])) = some true := by
    decide +kernel
  obtain ⟨lexemes, hscan, hrun⟩ := Option.bind_eq_some_iff.1 hrows
  obtain ⟨⟨unit, t⟩, hrun, hrows⟩ := Option.map_eq_some_iff.1 hrun
  have hscan := toOption_eq_some.1 hscan
  have hrun := toOption_eq_some.1 hrun
  obtain ⟨r, hr, hrow⟩ := List.mem_map.1 (List.contains_iff_mem.1 hrows)
  obtain ⟨e, inside, rfl, hlinks⟩ := rowOf?_eq_some hrow
  exact ⟨lexemes, unit, t, e, inside, hscan, hrun, hr, hlinks, run_grouped hscan hrun hr⟩

/-- The test of a type as the left operand of an operator that binds tighter. -/
def isTightBehindTest : Region → Bool
  | .part (.expr (.binary _ op (.instanceOf _ _ _) _)) _ => decide (instanceOfPrecedence < op.precedence)
  | _ => false

/-- An operator that binds tighter than a type test takes the whole test as its operand. -/
theorem run_tight_behind_test : ∃ lexemes unit t range op range' e tested rhs inside,
    scan .standard "class A{Object f(Object o){return o instanceof String + 1;}}" = .ok lexemes ∧
      run .standard lexemes = .ok (unit, t) ∧
      Region.part (.expr (.binary range op (.instanceOf range' e tested) rhs)) inside ∈
        Region.allOf unit.regions ∧
      instanceOfPrecedence < op.precedence := by
  have hany : ((scan .standard
      "class A{Object f(Object o){return o instanceof String + 1;}}").toOption.bind fun lexemes =>
        (run .standard lexemes).toOption.map fun r =>
          (Region.allOf r.1.regions).any isTightBehindTest) = some true := by
    decide +kernel
  obtain ⟨lexemes, hscan, hrun⟩ := Option.bind_eq_some_iff.1 hany
  obtain ⟨⟨unit, t⟩, hrun, hany⟩ := Option.map_eq_some_iff.1 hrun
  obtain ⟨r, hr, htight⟩ := List.any_eq_true.1 hany
  unfold isTightBehindTest at htight
  split at htight
  · exact ⟨lexemes, unit, t, _, _, _, _, _, _, _, toOption_eq_some.1 hscan,
      toOption_eq_some.1 hrun, hr, of_decide_eq_true htight⟩
  · cases htight

end JavaAnalysis.Parser
