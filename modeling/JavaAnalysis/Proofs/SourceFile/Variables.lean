import JavaAnalysis.Proofs.Layout.Sites
import JavaAnalysis.Proofs.Regions.Declarations
import JavaAnalysis.Proofs.Regions.Unit
import JavaAnalysis.Proofs.SourceFile.Foreign
import JavaAnalysis.Proofs.Tree.Variables

/-!
# Declarations of variables in a file

A declaration of several variables becomes a node for each of them, wherever in the file it stands:
among the members of a type, in a block, in the head of a loop, among the resources of a `try`. The
tree tells the name, the initial value, the separator and the declared type of each of them as they
were declared. Main statement: `SourceFile.ofInput_variables`.
-/

set_option autoImplicit false
set_option linter.dupNamespace false

namespace JavaAnalysis

open Ast Lexeme TokenRow SyntaxTree

/-- A tree that is finished from what was laid of a file has its nodes, tokens and types. -/
theorem Layout.Rooted.completes {row : TokenRow} {l l' : Layout} {sites : List Site} {root : NodeId}
    {t : SyntaxTree} {text : String} (h : Rooted row l sites root l')
    (ht : ofDraft text row l'.draft root = .ok t) :
    t.Completes l' ∧ t.nodes.size = l'.spans.size := by
  have hshows := shows_of_ofDraft h.bottomUp h.size_eq ht
  have hrow : t.row = row := hshows.row_eq
  have hends : ∀ id : NodeId, id.index < l'.spans.size →
      (t.firstToken id, t.lastToken id) = l'.spanOf id := fun id hid =>
    Prod.ext (h.ends_eq ht hid).1 (h.ends_eq ht hid).2
  subst hrow
  obtain ⟨-, ends, -, owners, -, links, -, os, -, -, heq⟩ := ofDraft_eq_ok.1 ht
  refine ⟨⟨hshows, hends, fun id hid => ?_⟩, ?_⟩
  · rw [heq]
    rfl
  · rw [heq, h.size_eq]
    simp [finished]

namespace SourceFile

variable {input : SourceInput} {policy : SyntaxPolicy} {f : SourceFile}

/-- Each declaration of variables in a file is split into its variables. -/
theorem ofInput_variables (h : ofInput input policy = .ok f) {d : VarDecl} {inside : List Region}
    (hd : .part (.variables d) inside ∈ Region.allOf (ParsedUnit.ofInput input).unit.regions) :
    ∃ typeNode ids, f.tree.SplitInto d typeNode ids := by
  obtain ⟨lexemes, o, hscan, htree, -⟩ := tree_of_ofInput h
  obtain ⟨length, hrange, hshapes, -⟩ := shapes_ofInput input
  obtain ⟨length', final, hrange', hplaced, -⟩ := placed_ofInput hscan
  have hlength : length' = length := congrArg TextRange.stop (hrange'.symm.trans hrange)
  subst hlength
  have hs := significant_of_scan hscan
  have hc := carries_ofLexemes (ParsedUnit.ofInput input).unit.splits hscan
  -- What the declaration is written with.
  obtain ⟨cuts, run, hxs, hfollow, hspans⟩ : ∃ cuts run,
      run <:+: (lexemes.filter fun x => !x.kind.isTrivia).flatMap (pieces cuts) ∧
      Follow ((lexemes.filter fun x => !x.kind.isTrivia).flatMap (pieces cuts)) ∧
      (Region.part (.variables d) inside).Spans run := by
    rcases ParsedUnit.ofInput_cases input with ⟨lexemes', unit, u, hscan', hrun, hunit, -⟩ |
      ⟨_, _, hrejected⟩
    · cases hscan.symm.trans hscan'
      obtain ⟨xs, hall, hfollow, -, htiled, -⟩ := Parser.run_tiled hs hrun
      obtain ⟨run, hin, hspans⟩ := htiled.covered.spans _ (hunit ▸ hd)
      have hcut := Parser.run_lexemes hs hrun
      refine ⟨_, run, ?_, hcut ▸ hfollow, hspans⟩
      rw [← hcut, hall]
      exact hin.trans (List.prefix_append _ _).isInfix
    · rw [hrejected] at hd
      cases hd
  have hwritten : d.Written run := hspans.spelled
  obtain ⟨a, b, hspan⟩ := hwritten.exists_span hs hc hfollow hxs hspans.ends
  have hterminated := hwritten.terminated_iff hs hc hfollow hxs hspans.ends hspan
  -- What was laid of it.
  have htokens := Layout.tokensInOrder hc hs
  obtain ⟨root, l, hrun, hdraft, -⟩ := Layout.tree_eq_ok.1 htree
  have hrooted := Layout.layUnit_ensures hc.ordered htokens (Layout.drafted_start _ _) hrange
    hshapes root l hrun
  have hformed := formed_of_ofDraft hrooted.bottomUp hdraft
  obtain ⟨hcompletes, hsize⟩ := hrooted.completes hdraft
  have hrow := (Layout.over_of_tree htree).1
  have hcontains := Layout.layUnit_contains hc.ordered hrange hshapes hplaced root l hrun
  obtain ⟨before, typeNode, ids, hsplit, hparent⟩ :=
    (hcontains.laid _ (CompilationUnit.shape_mem_declarations hd)).split hs hc hfollow hwritten
      hspans.ends hxs
  obtain ⟨-, body, -, -, -, hbody, -⟩ := hwritten.divided
  refine ⟨typeNode, ids, Layout.Split.splitInto hformed (hrow ▸ hc.ordered) hcompletes hsize
    (hrow ▸ hsplit) (fun v hv => ?_) (fun b hb => ?_) ⟨a, b, hrow ▸ hspan, ?_⟩ ?_⟩
  · obtain ⟨ys, hv⟩ := hbody.exists_written v hv
    exact hv.isValue
  · obtain ⟨zs, hzs, hpair⟩ := hwritten.brackets b hb
    rw [hrow]
    exact hpair.exists_span hs hc hfollow (hzs.trans hxs)
  · rwa [SyntaxTree.token, hrow]
  · exact hparent.imp_left List.eq_nil_of_subset_nil

/-- Two variables in a block and one in the head of a loop, with brackets and initial values. -/
def twoVariables : SourceInput :=
  ⟨"A.java", "class A\x7bvoid f()\x7bfinal int[] a=\x7b1\x7d,b[];for(var c:b)\x7b\x7d\x7d\x7d",
    .standard⟩

/-- The first declaration ends with its own semicolon, the second one does not. -/
theorem ofInput_variables_twoVariables : ∃ f d d',
    ofInput twoVariables ⟨ProblemId.all⟩ = .ok f ∧
      (∃ typeNode ids, f.tree.SplitInto d typeNode ids ∧ ids.length = 2) ∧ d.terminated = true ∧
      (∃ typeNode ids, f.tree.SplitInto d' typeNode ids ∧ ids.length = 1) ∧
      d'.terminated = false := by
  have hfacts : (scan twoVariables.level twoVariables.text).toOption.isSome ∧
      ((Region.allOf (ParsedUnit.ofInput twoVariables).unit.regions).filterMap
        Region.variables?).map (fun d => (d.fragments.length, d.terminated)) =
          [(2, true), (1, false)] := by decide +kernel
  obtain ⟨hcut, hall⟩ := hfacts
  obtain ⟨lexemes, hscan⟩ := Option.isSome_iff_exists.1 hcut
  rw [toOption_eq_some] at hscan
  obtain ⟨f, hf⟩ := exists_ofInput_of_tolerant hscan
  obtain ⟨d, ds, hds, hd, hrest⟩ := List.map_eq_cons_iff.1 hall
  obtain ⟨d', ds', rfl, hd', -⟩ := List.map_eq_cons_iff.1 hrest
  have hmem : ∀ v ∈ d :: d' :: ds', ∃ typeNode ids, f.tree.SplitInto v typeNode ids := by
    intro v hv
    obtain ⟨r, hr, hvariables⟩ := List.mem_filterMap.1 (hds ▸ hv)
    unfold Region.variables? at hvariables
    split at hvariables
    · cases hvariables
      exact ofInput_variables hf hr
    · cases hvariables
  obtain ⟨typeNode, ids, hsplit⟩ := hmem d (by simp)
  obtain ⟨typeNode', ids', hsplit'⟩ := hmem d' (by simp)
  simp only [Prod.mk.injEq] at hd hd'
  exact ⟨f, d, d', hf, ⟨typeNode, ids, hsplit, hsplit.length_eq.trans hd.1⟩, hd.2,
    ⟨typeNode', ids', hsplit', hsplit'.length_eq.trans hd'.1⟩, hd'.2⟩

end SourceFile

end JavaAnalysis
