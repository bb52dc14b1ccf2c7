import JavaAnalysis.Proofs.Layout.Lay
import JavaAnalysis.Proofs.Parser.Unit
import JavaAnalysis.SourceFile

/-!
# Which files are rejected

A file has no tree only if its text cannot be cut into lexemes or a problem is reported that is not
tolerated. What the parser says of a text always fits the tokens of that text.

Main statement: `SourceFile.ofInput_outcome`.
-/

set_option autoImplicit false
set_option linter.dupNamespace false

namespace JavaAnalysis

/-- The problem is one of syntax, is an error, and is not tolerated. -/
def SyntaxPolicy.Forbids (policy : SyntaxPolicy) (p : Problem) : Prop :=
  p.category = .syntactic ∧ p.severity = .error ∧ p.id ∉ policy.ignored

/-- The problem is the first among those reported that is not tolerated. -/
def SyntaxPolicy.FirstForbidden (policy : SyntaxPolicy) (problems : List Problem) (p : Problem) :
    Prop :=
  ∃ before after, problems = before ++ p :: after ∧ policy.Forbids p ∧
    ∀ q ∈ before, ¬ policy.Forbids q

theorem SyntaxPolicy.isFatal_iff (policy : SyntaxPolicy) (p : Problem) :
    policy.isFatal p = true ↔ policy.Forbids p := by
  unfold SyntaxPolicy.isFatal SyntaxPolicy.Forbids SyntaxPolicy.allows Problem.isError
  simp [and_assoc]

theorem SyntaxPolicy.firstFatal?_eq_some {policy : SyntaxPolicy} {problems : List Problem}
    {p : Problem} : policy.firstFatal? problems = some p ↔ policy.FirstForbidden problems p := by
  unfold SyntaxPolicy.firstFatal? SyntaxPolicy.FirstForbidden
  rw [List.find?_eq_some_iff_append]
  constructor
  · rintro ⟨hp, before, after, hproblems, hbefore⟩
    refine ⟨before, after, hproblems, policy.isFatal_iff p |>.1 hp, fun q hq hforbids => ?_⟩
    have hfatal := hbefore q hq
    rw [(policy.isFatal_iff q).2 hforbids] at hfatal
    cases hfatal
  · rintro ⟨before, after, hproblems, hp, hbefore⟩
    refine ⟨(policy.isFatal_iff p).2 hp, before, after, hproblems, fun q hq => ?_⟩
    rw [Bool.not_eq_true', Bool.eq_false_iff]
    exact fun hfatal => hbefore q hq ((policy.isFatal_iff q).1 hfatal)

theorem SyntaxPolicy.firstFatal?_eq_none {policy : SyntaxPolicy} {problems : List Problem} :
    policy.firstFatal? problems = none ↔ ∀ p ∈ problems, ¬ policy.Forbids p := by
  unfold SyntaxPolicy.firstFatal?
  rw [List.find?_eq_none]
  simp only [policy.isFatal_iff]

namespace SourceFile

open Ast Lexeme

variable {input : SourceInput} {lexemes : List Lexeme}

/-- What is parsed of a text fits the lexemes of the text; of a text that is no file, nothing is. -/
theorem placed_ofInput (h : scan input.level input.text = .ok lexemes) :
    ∃ length final, (ParsedUnit.ofInput input).unit.range = .upTo length ∧
      Placed (lexemes.filter fun x => !x.kind.isTrivia)
        (ParsedUnit.ofInput input).unit.shapes 0 length ∧
      (lexemes.filter fun x => !x.kind.isTrivia).getLast? = some final ∧ final.start ≤ length := by
  cases hparse : Parser.parse input.level lexemes with
  | error e =>
    have hunit : (ParsedUnit.ofInput input).unit = .blank input.text.utf8ByteSize := by
      unfold ParsedUnit.ofInput ParsedUnit.ofText
      simp only [h, hparse]
      rfl
    obtain ⟨before, p, rfl, -, -⟩ := scan_ok h
    rw [hunit]
    refine ⟨input.text.utf8ByteSize, endOfFile input.text.utf8ByteSize p, rfl,
      ?_, ?_, Nat.le_refl _⟩
    · show Placed _ [] _ _
      simp only [Placed]
    · have hkind : (endOfFile input.text.utf8ByteSize p).kind.isTrivia = false := rfl
      simp [List.filter_append, hkind]
  | ok unit =>
    have hunit : (ParsedUnit.ofInput input).unit = unit := by
      unfold ParsedUnit.ofInput ParsedUnit.ofText
      simp only [h, hparse]
    have hs := significant_of_scan h
    obtain ⟨hplaced, hrange⟩ := Parser.parse_placed hs hparse
    rw [hunit]
    exact ⟨_, _, hrange, hplaced, (Parser.at_ofLexemes input.level hs).final, Nat.le_add_right _ _⟩

/-- What is parsed of a text has a tree over the tokens of the text. -/
theorem tree_ofInput (h : scan input.level input.text = .ok lexemes) :
    ∃ t, Layout.tree input.text
      (TokenRow.ofLexemes lexemes (ParsedUnit.ofInput input).unit.splits)
      (ParsedUnit.ofInput input).resolution.boundAt? (ParsedUnit.ofInput input).unit = .ok t := by
  obtain ⟨length, final, hrange, hplaced, hfinal, hle⟩ := placed_ofInput h
  have hcarries := TokenRow.carries_ofLexemes (ParsedUnit.ofInput input).unit.splits h
  refine Layout.tree_isOk hcarries (significant_of_scan h) hrange hplaced ?_ _ _
  cases hfinal.symm.trans hcarries.final
  exact hle

/-- A problem of syntax tells its message and its place. -/
theorem rejection_eq (text : String) (p : Problem) :
    ∃ position, rejection text p = .syntactic p.message position p.range :=
  ⟨_, rfl⟩

theorem ofInput_of_scan_error {policy : SyntaxPolicy} {e : LexError}
    (h : scan input.level input.text = .error e) : ofInput input policy = .error (.lexical e) := by
  unfold ofInput ofParsed
  rw [h]
  rfl

/-- Where the text can be cut, only a problem that is not tolerated keeps the file from use. -/
theorem ofInput_of_scan_ok (policy : SyntaxPolicy) (h : scan input.level input.text = .ok lexemes) :
    match policy.firstFatal? (ParsedUnit.ofInput input).problems with
    | some p => ofInput input policy = .error (rejection input.text p)
    | none => ∃ f, ofInput input policy = .ok f := by
  unfold ofInput ofParsed
  rw [h]
  cases hfatal : policy.firstFatal? (ParsedUnit.ofInput input).problems with
  | some p => rfl
  | none =>
    obtain ⟨⟨tree, occurrences⟩, htree⟩ := tree_ofInput h
    simp only [Except.mapError, bind, Except.bind, htree]
    exact ⟨_, rfl⟩

/-- Where all problems are tolerated, a text that can be cut into lexemes is no error. -/
theorem exists_ofInput_of_tolerant (h : scan input.level input.text = .ok lexemes) :
    ∃ f, ofInput input ⟨ProblemId.all⟩ = .ok f := by
  have htolerant : ∀ problems, SyntaxPolicy.firstFatal? ⟨ProblemId.all⟩ problems = none := by
    intro problems
    refine SyntaxPolicy.firstFatal?_eq_none.2 fun p _ ⟨_, _, hid⟩ => hid ?_
    cases p.id <;> decide
  simpa only [htolerant] using ofInput_of_scan_ok ⟨ProblemId.all⟩ h

/-- The tree of a file is over the tokens of its text, cut where its outline has lists end. -/
theorem tree_of_ofInput {policy : SyntaxPolicy} {f : SourceFile}
    (h : ofInput input policy = .ok f) :
    ∃ lexemes o, scan input.level input.text = .ok lexemes ∧
      Layout.tree input.text (.ofLexemes lexemes (ParsedUnit.ofInput input).unit.splits)
        (ParsedUnit.ofInput input).resolution.boundAt? (ParsedUnit.ofInput input).unit =
          .ok (f.tree, o) ∧
      f.semantic = .ofOccurrences f.tree (ParsedUnit.ofInput input).bindings o := by
  unfold ofInput ofParsed at h
  cases hscan : scan input.level input.text with
  | error e =>
    rw [hscan] at h
    cases h
  | ok lexemes =>
    rw [hscan] at h
    cases hfatal : policy.firstFatal? (ParsedUnit.ofInput input).problems with
    | some p =>
      simp only [Except.mapError, bind, Except.bind, hfatal] at h
      cases h
    | none =>
      cases htree : Layout.tree input.text
        (.ofLexemes lexemes (ParsedUnit.ofInput input).unit.splits)
        (ParsedUnit.ofInput input).resolution.boundAt? (ParsedUnit.ofInput input).unit with
      | error e =>
        simp only [Except.mapError, bind, Except.bind, hfatal, htree] at h
        cases h
      | ok r =>
        obtain ⟨t, o⟩ := r
        simp only [Except.mapError, bind, Except.bind, hfatal, htree] at h
        cases h
        exact ⟨lexemes, o, rfl, htree, rfl⟩

end SourceFile

end JavaAnalysis
