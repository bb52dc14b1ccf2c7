import JavaAnalysis.ParsedUnit
import JavaAnalysis.Proofs.Spacing.Composition
import JavaAnalysis.Proofs.Spacing.Parser.Unit
import JavaAnalysis.Proofs.Spacing.Unnecessary
import JavaAnalysis.SourceFile

/-!
# Parsed files that are spaced differently

What the front-end says of a file depends on its significant lexemes alone: the syntax, the names and
the problems of two files with the same lexemes are the same, and the places in the first one go
where its lexemes go. Both come from the tight row of these lexemes.
Main statement: `ParsedUnit.Spread.corresponds`.
-/

set_option autoImplicit false
set_option linter.dupNamespace false

namespace JavaAnalysis

open Ast Lexeme

variable {f g k : Shift}

/-- Two files that come from the same one correspond. -/
theorem Resolution.Moved.corresponds {r s t : Resolution} (hcomp : f.Composes k g)
    (hs : Moved f r s) (ht : Moved g r t) : Corresponds k s t where
  bindings_eq := ht.bindings_eq.trans hs.bindings_eq.symm
  problems_eq := by
    rw [ht.problems_eq, hs.problems_eq, List.map_map]
    refine List.map_congr_left fun p _ => ?_
    simp only [Function.comp_apply, Problem.shift, hcomp.range_range]
  used_eq := ht.used_eq.trans hs.used_eq.symm
  importsUsed_eq := ht.importsUsed_eq.trans hs.importsUsed_eq.symm
  bound o id := by
    rw [ht.bound]
    constructor
    · rintro ⟨o₀, rfl, hbound⟩
      exact ⟨f.start o₀, hcomp.start_start o₀, (hs.bound _ _).2 ⟨o₀, rfl, hbound⟩⟩
    · rintro ⟨o₁, rfl, hmoved⟩
      obtain ⟨o₀, rfl, hbound⟩ := (hs.bound _ _).1 hmoved
      exact ⟨o₀, (hcomp.start_start o₀).symm, hbound⟩

theorem Problem.map_shift_shift (hcomp : f.Composes k g) (problems : List Problem) :
    (problems.map (Problem.shift f)).map (Problem.shift k) = problems.map (Problem.shift g) := by
  rw [List.map_map]
  refine List.map_congr_left fun p _ => ?_
  simp only [Function.comp_apply, Problem.shift, hcomp.range_range]

/-- A place that is moved twice. -/
theorem Shift.Composes.spot_spot (hcomp : f.Composes k g) (hf : StrictMono f.start)
    (r : TextRange) : k.spot (f.spot r) = g.spot r := by
  unfold Shift.spot
  by_cases hr : r.start < r.stop
  · have hmoved : (f.range r).start < (f.range r).stop := (Shift.start_lt_stop_iff hf).2 hr
    rw [if_pos hr, if_pos hr, if_pos hmoved, hcomp.range_range]
  · have hmoved : ¬ (TextRange.empty (f.start r.start)).start <
        (TextRange.empty (f.start r.start)).stop := Nat.lt_irrefl _
    rw [if_neg hr, if_neg hr, if_neg hmoved]
    exact congrArg TextRange.empty (hcomp.start_start _)

/--
What is known of two files, the places of the first going to those of the second: either both are
parsed, or both are rejected for the same reason.
-/
inductive ParsedUnit.Corresponds (f : Shift) : ParsedUnit → ParsedUnit → Prop where
  | parsed (unit : CompilationUnit) {r s : Resolution} (h : r.Corresponds f s)
      (problems : List Problem) :
    Corresponds f ⟨unit, r, problems⟩ ⟨unit.shift f, s, problems.map (Problem.shift f)⟩
  | rejected (length : Nat) (message : String) (range : TextRange) :
    Corresponds f (.rejected length (.syntactic message range))
      (.rejected (f.start length) (.syntactic message (f.spot range)))

namespace ParsedUnit

/-- What is known of a file by its lexemes. -/
def ofLexemes (level : LanguageLevel) (length : Nat) (lexemes : List Lexeme) : ParsedUnit :=
  match Parser.parse level lexemes with
  | .error e => rejected length (.syntactic e.message e.range)
  | .ok unit =>
    let resolution := Resolution.ofUnit unit
    ⟨unit, resolution, resolution.problems ++ resolution.unnecessary unit⟩

theorem ofText_eq {level : LanguageLevel} {text : String} {lexemes : List Lexeme}
    (h : scan level text = .ok lexemes) :
    ofText level text = ofLexemes level text.utf8ByteSize lexemes := by
  cases hparse : Parser.parse level lexemes with
  | error e => simp only [ofText, ofLexemes, h, hparse]
  | ok unit => simp only [ofText, ofLexemes, h, hparse]

variable {p q : ParsedUnit}

namespace Corresponds

theorem unit_eq (h : Corresponds f p q) : q.unit = p.unit.shift f := by
  cases h <;> rfl

theorem bindings_eq (h : Corresponds f p q) : q.bindings = p.bindings := by
  cases h with
  | parsed _ h _ => exact h.bindings_eq
  | rejected => rfl

theorem boundAt?_eq (h : Corresponds f p q) (hf : StrictMono f.start) (o : Nat) :
    q.resolution.boundAt? (f.start o) = p.resolution.boundAt? o := by
  cases h with
  | parsed _ h _ => exact Resolution.Moved.boundAt?_eq ⟨h, hf⟩ o
  | rejected => rfl

/-- If a problem keeps one file from use, its counterpart keeps the other one from use. -/
theorem firstFatal? (h : Corresponds f p q) (policy : SyntaxPolicy) :
    policy.firstFatal? p.problems = none ∧ policy.firstFatal? q.problems = none ∨
      ∃ x y, policy.firstFatal? p.problems = some x ∧ policy.firstFatal? q.problems = some y ∧
        y.message = x.message ∧ (y.range = f.range x.range ∨ y.range = f.spot x.range) := by
  cases h with
  | parsed unit h problems =>
    have hfind : policy.firstFatal? (problems.map (Problem.shift f)) =
        (policy.firstFatal? problems).map (Problem.shift f) := List.find?_map ..
    simp only [hfind]
    cases hfatal : policy.firstFatal? problems with
    | none => exact .inl ⟨rfl, rfl⟩
    | some x => exact .inr ⟨x, x.shift f, rfl, rfl, rfl, .inl rfl⟩
  | rejected length message range =>
    have hone : ∀ range, policy.firstFatal? [.syntactic message range] =
        if policy.allows .syntaxError then none else some (.syntactic message range) := by
      intro range
      have hfatal : policy.isFatal (.syntactic message range) = !policy.allows .syntaxError := rfl
      unfold SyntaxPolicy.firstFatal?
      rw [List.find?_cons, hfatal]
      cases policy.allows .syntaxError <;> rfl
    simp only [ParsedUnit.rejected, hone]
    cases policy.allows .syntaxError with
    | true => exact .inl ⟨rfl, rfl⟩
    | false => exact .inr ⟨_, _, rfl, rfl, rfl, .inr rfl⟩

end Corresponds

/-! ## From the tight row -/

section

variable {level : LanguageLevel} {xs lexemes lexemes' : List Lexeme}

/-- The significant lexemes of a file come from a tight row, in order and byte by byte. -/
structure Spread (f : Shift) (xs lexemes : List Lexeme) : Prop where
  tight : Tight 0 xs
  gtText : ∀ x ∈ xs, x.kind.startsWithGt = true → TokenKind.ofGtText? x.text = some x.kind
  ascending : StrictMono f.start
  moved : List.Forall₂ (Lexeme.Moved f) xs (lexemes.filter fun x => !x.kind.isTrivia)

namespace Spread

variable {length : Nat}

/-- What is known of a file that a row is spread to, if the row cannot be parsed. -/
theorem ofLexemes_eq_rejected (h : Spread f xs lexemes) {e : SyntaxError}
    (hparse : Parser.parse level xs = .error e) :
    ofLexemes level length lexemes = rejected length (.syntactic e.message (f.spot e.range)) := by
  have hrun := Parser.parse_shift level h.ascending h.tight h.gtText h.moved
  rw [hparse] at hrun
  unfold ofLexemes
  rw [hrun]
  rfl

/-- What is known of a file that a row is spread to, if the row can be parsed. -/
theorem ofLexemes_eq_parsed (h : Spread f xs lexemes) {unit : CompilationUnit}
    (hparse : Parser.parse level xs = .ok unit) :
    ofLexemes level length lexemes = ⟨unit.shift f, .ofUnit (unit.shift f),
      ((Resolution.ofUnit unit).problems ++
        (Resolution.ofUnit unit).unnecessary unit).map (Problem.shift f)⟩ := by
  have hrun := Parser.parse_shift level h.ascending h.tight h.gtText h.moved
  rw [hparse] at hrun
  have hnames := Resolution.moved_ofUnit h.ascending unit
  unfold ofLexemes
  rw [hrun, List.map_append, ← hnames.problems_eq, ← hnames.unnecessary_eq]

/-- What is known of a file is what is known of the tight row, at other places. -/
theorem corresponds_tight (h : Spread f xs lexemes) :
    Corresponds f (ofLexemes level length xs) (ofLexemes level (f.start length) lexemes) := by
  cases hparse : Parser.parse level xs with
  | error e =>
    rw [h.ofLexemes_eq_rejected hparse]
    unfold ofLexemes
    rw [hparse]
    exact .rejected _ _ _
  | ok unit =>
    rw [h.ofLexemes_eq_parsed hparse]
    unfold ofLexemes
    rw [hparse]
    exact .parsed unit (Resolution.moved_ofUnit h.ascending unit).toCorresponds _

/-- Two files that the same tight row is spread to correspond. -/
theorem corresponds (hcomp : f.Composes k g) (h : Spread f xs lexemes)
    (h' : Spread g xs lexemes') :
    Corresponds k (ofLexemes level length lexemes)
      (ofLexemes level (k.start length) lexemes') := by
  cases hparse : Parser.parse level xs with
  | error e =>
    rw [h.ofLexemes_eq_rejected hparse, h'.ofLexemes_eq_rejected hparse,
      ← hcomp.spot_spot h.ascending]
    exact .rejected _ _ _
  | ok unit =>
    rw [h.ofLexemes_eq_parsed hparse, h'.ofLexemes_eq_parsed hparse,
      ← CompilationUnit.shift_shift hcomp, ← Problem.map_shift_shift hcomp]
    exact .parsed _ ((Resolution.moved_ofUnit h.ascending unit).corresponds hcomp
      (CompilationUnit.shift_shift hcomp unit ▸ Resolution.moved_ofUnit h'.ascending unit)) _

end Spread

end

end ParsedUnit

end JavaAnalysis
