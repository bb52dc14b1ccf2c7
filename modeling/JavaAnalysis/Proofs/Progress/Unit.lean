import JavaAnalysis.Proofs.Parser.Unit
import JavaAnalysis.Proofs.Progress.Statements

/-!
# No bound is used up

The grammar of a depth is the same as a deeper one wherever the weight of a part is below that depth,
whatever stands at the bottom of both. A file starts with a weight that is below the depth its length
gives, so the result of a run is that of any run with larger bounds: it is what the productions give
when they refer to each other without end.
Main statements: `ready_grammarOver`, `parse_unbounded`.
-/

set_option autoImplicit false
set_option linter.dupNamespace false

namespace JavaAnalysis.Parser

open Ast Lexeme TwoRuns

/-- The grammar that takes its parts from another one. -/
def deeper (g : Grammar) : Grammar where
  type := type g
  marker := marker g
  elementValue := elementValue g
  typeDecl := typeDecl g
  classBody := classBody g
  block := block g
  stmt := stmt g
  expr := expr g
  conditional := conditional g
  binary := binary g
  unary := unary g
  varInit := varInit g
  switchCases := switchCases g

/-- The grammar that reaches another one behind `n` levels. -/
def grammarOver (base : Grammar) : Nat → Grammar
  | 0 => base
  | n + 1 => deeper (grammarOver base n)

theorem grammar_eq (n : Nat) : grammar n = grammarOver .none n := by
  induction n with
  | zero => rfl
  | succ n ih =>
    rw [grammarOver, ← ih]
    rfl

variable {c : TwoRuns} {m : Nat} {g g' : Grammar} {s s' : State}

/-- What settles the parts below the weight of a part settles the production of that part. -/
theorem Ready.deeper (hg : Ready c m g g') : Ready c (m + 1) (deeper g) (deeper g') where
  type _ _ h hlt := type_settles hg h (by omega)
  marker _ _ h hlt := marker_settles hg h (by omega)
  elementValue _ _ h hlt := elementValue_settles hg h (by omega)
  typeDecl start ms _ _ h hlt := typeDecl_settles hg h (by omega) start ms
  classBody kind _ _ h hlt := classBody_settles hg kind h (by omega)
  block _ _ h hlt := block_settles hg h (by omega)
  stmt _ _ h hlt := stmt_settles hg h (by omega)
  expr _ _ h hlt := expr_settles hg h (by omega)
  conditional _ _ h hlt := conditional_settles hg h (by omega)
  binary min _ _ h hlt := binary_settles hg h (by omega) min
  unary _ _ h hlt := unary_settles hg h (by omega)
  varInit _ _ h hlt := varInit_settles hg h (by omega)
  switchCases _ _ h hlt := switchCases_settles hg h (by omega)

theorem ready_zero (c : TwoRuns) (g g' : Grammar) : Ready c 0 g g' := by
  constructor
  all_goals intros
  all_goals exact fun _ _ _ hlt => absurd hlt (Nat.not_lt_zero _)

/-- It does not matter how deep two grammars are, nor what stands at their bottom. -/
theorem ready_grammarOver (c : TwoRuns) (base base' : Grammar) {m n n' : Nat} (hn : m ≤ n)
    (hn' : m ≤ n') : Ready c m (grammarOver base n) (grammarOver base' n') := by
  induction m generalizing n n' with
  | zero => exact ready_zero c _ _
  | succ m ih =>
    obtain ⟨n, rfl⟩ : ∃ k, n = k + 1 := ⟨n - 1, by omega⟩
    obtain ⟨n', rfl⟩ : ∃ k, n' = k + 1 := ⟨n' - 1, by omega⟩
    exact (ih (Nat.le_of_succ_le_succ hn) (Nat.le_of_succ_le_succ hn')).deeper

/-! ## The parts of a file -/

theorem markers_settles (hg : Ready c m g g') (h : c.Twin s s') (hm : 8 * s.left < m) :
    c.Settles (many State.isAtMarker g.marker) (many State.isAtMarker g'.marker) s s'
      fun _ t => t.left ≤ s.left := by
  have hmarker : c.Onward (s.left + 1) g.marker g'.marker :=
    fun t t' ht hlt => hg.marker ht (by omega)
  exact many_settles (fun _ _ => rfl) hmarker h (Nat.lt_succ_self _)

theorem packageDecl_settles (hg : Ready c m g g') (h : c.Twin s s') (hm : 8 * s.left < m) :
    c.Settles (packageDecl g) (packageDecl g') s s' fun _ t => t.left ≤ s.left := by
  refine .startHere h ((markers_settles hg h hm).bind fun marks u u' h₁ hle₁ => ?_)
  refine (expect_settles h₁ (by decide)).bind fun _ u₂ u₂' h₂ hlt₂ => ?_
  refine (qualifiedName_settles h₂).bind fun name u₃ u₃' h₃ hlt₃ => ?_
  refine (expect_settles h₃ (by decide)).bind fun _ u₄ u₄' h₄ hlt₄ => ?_
  exact .rangeFrom h₄ (.pure h₄ (by omega))

/-- Looking for the package leaves both runs where they stand. -/
theorem packageDecl?_settles (hg : Ready c m g g') (h : c.Twin s s') (hm : 8 * s.left < m) :
    c.Settles (packageDecl? g) (packageDecl? g') s s' fun _ t => t.left ≤ s.left := by
  refine .get ((markers_settles hg h hm).bind fun marks u u' h₁ hle₁ => .isAt h₁ ?_)
  have hback : c.Settles
      (if (u.kind 0 == .packageKw) = true then some <$> packageDecl g else pure none)
      (if (u.kind 0 == .packageKw) = true then some <$> packageDecl g' else pure none) s s'
      fun _ t => t.left ≤ s.left :=
    .ite (fun _ => (packageDecl_settles hg h hm).map fun _ _ hle => hle)
      fun _ => .pure h (Nat.le_refl _)
  exact hback

theorem importDecl_settles (h : c.Twin s s') :
    c.Settles importDecl importDecl s s' fun _ t => t.left < s.left := by
  refine .startHere h ((expect_settles h (by decide)).bind fun _ u u' h₁ hlt₁ => ?_)
  refine (eat_settles_le h₁ (by decide)).bind fun isStatic u₂ u₂' h₂ hle₂ => ?_
  refine (qualifiedName_settles h₂).bind fun name u₃ u₃' h₃ hlt₃ => .isAt h₃ (.kindAt h₃ ?_)
  have hrest : ∀ onDemand t t', c.Twin t t' → t.left ≤ u₃.left → c.Settles
      (expect .semicolon >>= fun _ => rangeFrom s.start >>= fun r =>
        pure (ImportDecl.mk r isStatic name onDemand))
      (expect .semicolon >>= fun _ => rangeFrom s.start >>= fun r =>
        pure (ImportDecl.mk r isStatic name onDemand)) t t'
      fun _ t => t.left < s.left := fun onDemand t t' ht hle => by
    refine (expect_settles ht (by decide)).bind fun _ v v' hv hlt => ?_
    exact .rangeFrom hv (.pure hv (by omega))
  refine .ite (fun _ => ?_) fun _ => hrest _ u₃ u₃' h₃ (Nat.le_refl _)
  exact (advanceBy_settles_le h₃ 2).bind fun _ t t' ht hle => hrest _ t t' ht hle

theorem importDecl?_settles (h : c.Twin s s') :
    c.Settles importDecl? importDecl? s s' fun _ t => t.left < s.left :=
  ifEat_settles h (by decide) (fun _ _ ht hlt => .pure ht hlt)
    ((importDecl_settles h).map fun _ _ hlt => hlt)

theorem topLevel?_settles (hg : Ready c m g g') (h : c.Twin s s') (hm : 8 * s.left < m) :
    c.Settles (topLevel? g) (topLevel? g') s s' fun _ t => t.left < s.left := by
  refine ifEat_settles h (by decide) (fun t t' ht hlt => .pure ht hlt) (.startHere h ?_)
  refine (modifiers_settles hg h hm).bind fun ms u u' h₁ hle₁ => ?_
  exact (hg.typeDecl s.start ms h₁ (by omega)).map fun _ t hlt => by omega

theorem compilationUnit_settles (hg : Ready c m g g') (h : c.Twin s s') (hm : 8 * s.left < m)
    (length : Nat) :
    c.Settles (compilationUnit g length) (compilationUnit g' length) s s'
      fun _ t => t.left ≤ s.left := by
  refine (packageDecl?_settles hg h hm).bind fun package u u' h₁ hle₁ => ?_
  have himport : c.Onward (u.left + 1) importDecl? importDecl? :=
    fun t t' ht _ => importDecl?_settles ht
  refine (many_settles (fun _ _ => rfl) himport h₁ (Nat.lt_succ_self _)).bind
    fun imports u₂ u₂' h₂ hle₂ => ?_
  have htop : c.Onward (u₂.left + 1) (topLevel? g) (topLevel? g') :=
    fun t t' ht hlt => topLevel?_settles hg ht (by omega)
  exact (many_settles (fun _ _ => rfl) htop h₂ (Nat.lt_succ_self _)).bind
    fun types u₃ u₃' h₃ hle₃ => .pure h₃ (by omega)

/-! ## Whole files -/

/-- The parser stands at a place in the file, and its bound exceeds what is left to read. -/
structure Place (raw : List Lexeme) (s : State) : Prop where
  at_ : At raw s
  left_lt : s.left < s.budget

theorem place_ofLexemes (level : LanguageLevel) {lexemes : List Lexeme}
    (hs : Significant (lexemes.filter fun x => !x.kind.isTrivia)) :
    Place (lexemes.filter fun x => !x.kind.isTrivia) (State.ofLexemes level lexemes) :=
  ⟨at_ofLexemes level hs, Nat.lt_succ_self _⟩

/-- The result is the one that larger bounds give, whatever lies beyond them. -/
structure Unbounded (level : LanguageLevel) (lexemes : List Lexeme) : Prop where
  outcome : ∀ (base : Grammar) (n budget : Nat),
    levelsPerCharacter * (State.ofLexemes level lexemes).budget ≤ n →
    (State.ofLexemes level lexemes).budget ≤ budget →
    (compilationUnit (grammarOver base n) (State.ofLexemes level lexemes).final.stop
      { State.ofLexemes level lexemes with budget := budget }).map (·.1) = parse level lexemes
  error : ∀ e, parse level lexemes = .error e → ¬ e.IsTooDeep

theorem parse_unbounded (level : LanguageLevel) {lexemes : List Lexeme}
    (hs : Significant (lexemes.filter fun x => !x.kind.isTrivia)) : Unbounded level lexemes := by
  obtain ⟨hat, hleft⟩ := place_ofLexemes level hs
  have hagree (base : Grammar) (n budget : Nat)
      (hn : levelsPerCharacter * (State.ofLexemes level lexemes).budget ≤ n)
      (hbudget : (State.ofLexemes level lexemes).budget ≤ budget) :
      TwoRuns.Settles ⟨_, hs, (State.ofLexemes level lexemes).budget, budget⟩
        (compilationUnit (grammar (levelsPerCharacter * (State.ofLexemes level lexemes).budget))
          (State.ofLexemes level lexemes).final.stop)
        (compilationUnit (grammarOver base n) (State.ofLexemes level lexemes).final.stop)
        (State.ofLexemes level lexemes) { State.ofLexemes level lexemes with budget := budget }
        fun _ t => t.left ≤ (State.ofLexemes level lexemes).left := by
    rw [grammar_eq]
    refine compilationUnit_settles (ready_grammarOver _ .none base (Nat.le_refl _) hn)
      ⟨hat, rfl, rfl, hleft, Nat.lt_of_lt_of_le hleft hbudget⟩ ?_ _
    unfold levelsPerCharacter
    omega
  constructor
  · intro base n budget hn hbudget
    have h := hagree base n budget hn hbudget
    unfold parse run
    unfold TwoRuns.Settles TwoRuns.Agree at h
    dsimp only
    split at h
    · rename_i hrun
      obtain ⟨t', hrun', -⟩ := h
      rw [hrun, hrun']
      rfl
    · rename_i hrun
      rw [hrun, h.1]
  · intro e he
    have h := hagree .none _ _ (Nat.le_refl _) (Nat.le_refl _)
    unfold parse run at he
    unfold TwoRuns.Settles TwoRuns.Agree at h
    dsimp only at he
    split at h
    · rename_i hrun
      rw [hrun] at he
      cases he
    · rename_i hrun
      rw [hrun] at he
      cases he
      exact h.2

end JavaAnalysis.Parser
