import JavaAnalysis.Proofs.Layout.Sites
import JavaAnalysis.Proofs.SourceFile.Foreign
import JavaAnalysis.Proofs.Sites.Outlined

/-!
# Operators that end lists in angle brackets

The parser cuts an operator such as `>>` wherever a list in angle brackets ends inside it. The tree
of a file is over tokens that are cut where the outline of the file has the end of such a list.
Where the outline passes over no list, these are the same tokens, and each list in the tree starts
and ends with its brackets. Main statement: `ofInput_tokens`.
-/

set_option autoImplicit false
set_option linter.dupNamespace false

namespace JavaAnalysis

open Ast Lexeme TokenRow SyntaxTree

/-- The lists in angle brackets of the file are all in its outline. -/
def Ast.CompilationUnit.Outlined (unit : CompilationUnit) : Prop :=
  ∀ site ∈ unit.sites, site.role = .encloses → site.outlined = true

instance (unit : CompilationUnit) : Decidable unit.Outlined :=
  inferInstanceAs (Decidable (∀ site ∈ unit.sites, _ → _))

/-- Operators are cut where the lists in angle brackets end. -/
theorem Ast.CompilationUnit.Outlined.mem_splits {unit : CompilationUnit} (h : unit.Outlined)
    (o : Nat) : o ∈ unit.splits ↔ o ∈ Parser.closers unit.sites := by
  rw [CompilationUnit.mem_splits, Parser.closers, List.mem_filterMap]
  refine exists_congr fun site => and_congr_right fun hsite => and_iff_right_of_imp fun hcloser => ?_
  refine h site hsite ?_
  unfold Site.closer? at hcloser
  split at hcloser
  · assumption
  · cases hcloser

namespace TokenRow

variable {row : TokenRow} {x : Lexeme}

/-- A lexeme of a row other than the end of the file is among the tokens that count. -/
theorem exists_token (ho : row.Ordered) (htokens : TokensInOrder row)
    (hx : x ∈ bare row.tokens.toList) (hkind : x.kind ≠ .endOfFile) :
    ∃ i < row.count, (row.token ⟨i⟩).toLexeme = x := by
  obtain ⟨t, ht, rfl⟩ := List.mem_map.1 hx
  obtain ⟨i, hi, rfl⟩ := List.mem_iff_getElem.1 ht
  have hlt : i < row.tokens.size := by simpa using hi
  have htoken : row.token ⟨i⟩ = row.tokens.toList[i] := by
    simp [TokenRow.token, Array.getD_eq_getD_getElem?, hlt]
  refine ⟨i, ?_, congrArg Token.toLexeme htoken⟩
  have hsize := ho.size
  by_contra hge
  have hlast := htokens.1
  have hindex : row.tokens.size - 1 = i := by omega
  rw [Array.back?, hindex, Array.getElem?_eq_getElem hlt] at hlast
  exact hkind (by simpa [Token.isEndOfFile] using hlast)

/-- Where the brackets of a list are tokens, the list starts and ends with them. -/
theorem brackets_of_enclosed (ho : row.Ordered) (htokens : TokensInOrder row) {range : TextRange}
    (h : Parser.Enclosed (bare row.tokens.toList) range) {first last : TokenId}
    (hspan : row.span? range = some (first, last)) :
    (row.token first).kind = .lt ∧ (row.token last).kind = .gt ∧
      (row.token last).stop = (row.token last).start + 1 := by
  obtain ⟨⟨x, hx, hxkind, hstart⟩, y, hy, hykind, hstop, hwidth⟩ := h
  obtain ⟨i, hi, rfl⟩ := exists_token ho htokens hx (by simp [hxkind])
  obtain ⟨j, hj, rfl⟩ := exists_token ho htokens hy (by simp [hykind])
  rw [ho.first_eq hspan hi hstart, ho.last_eq hspan hj hstop]
  exact ⟨hxkind, hykind, hwidth⟩

end TokenRow

namespace SourceFile

variable {input : SourceInput} {policy : SyntaxPolicy} {f : SourceFile}

/--
In a file whose lists in angle brackets are all in its outline, the tokens of the tree are just the
lexemes that the parser ends with, which it has cut while it took closing brackets off. So each list
in angle brackets in the tree starts with `<` and ends with a `>` of its own.
-/
theorem ofInput_tokens (h : ofInput input policy = .ok f)
    (houtlined : (ParsedUnit.ofInput input).unit.Outlined) :
    (∀ lexemes unit t, scan input.level input.text = .ok lexemes →
      Parser.run input.level lexemes = .ok (unit, t) →
      bare f.tree.row.tokens.toList = t.lexemes) ∧
    ∀ id, id.index < f.tree.nodes.size →
      f.tree.kind id = .typeArguments ∨ f.tree.kind id = .typeParameters →
      (f.tree.token (f.tree.firstToken id)).kind = .lt ∧
      (f.tree.token (f.tree.lastToken id)).kind = .gt ∧
      (f.tree.token (f.tree.lastToken id)).stop =
        (f.tree.token (f.tree.lastToken id)).start + 1 := by
  obtain ⟨lexemes, o, hscan, htree, -⟩ := tree_of_ofInput h
  obtain ⟨length, hrange, hshapes, -⟩ := shapes_ofInput input
  have hs := significant_of_scan hscan
  have hc := carries_ofLexemes (ParsedUnit.ofInput input).unit.splits hscan
  have htokens := Layout.tokensInOrder hc hs
  obtain ⟨hrow, -, hangled, -⟩ := Layout.tree_sites hc.ordered htokens hrange hshapes htree
  have hwhole : ∀ unit t, Parser.run input.level lexemes = .ok (unit, t) →
      (ParsedUnit.ofInput input).unit = unit ∧ bare f.tree.row.tokens.toList = t.lexemes := by
    intro unit t hrun
    have hunit : (ParsedUnit.ofInput input).unit = unit := by
      unfold ParsedUnit.ofInput ParsedUnit.ofText Parser.parse
      rw [hscan]
      simp only [hrun, Except.map]
    refine ⟨hunit, ?_⟩
    rw [hunit] at houtlined hrow
    rw [hrow, ofLexemes, Parser.run_lexemes hs hrun, unit.sites_shapes, List.toList_toArray,
      bare_attachComments]
    exact List.flatMap_congr fun x _ => pieces_congr fun o _ _ => houtlined.mem_splits o
  refine ⟨fun lexemes' unit t hscan' hrun => ?_, fun id hid hkind => ?_⟩
  · cases hscan.symm.trans hscan'
    exact (hwhole unit t hrun).2
  · have hisAngled : (f.tree.kind id).isAngled = true := by
      rcases hkind with hkind | hkind <;> rw [hkind] <;> rfl
    obtain ⟨site, hsite, ⟨hrole, hseparator⟩, hstands⟩ := hangled id hid hisAngled
    obtain ⟨range, hextent, hspan⟩ := hstands.covers
    simp only [Site.extent?, hseparator, Option.some.injEq] at hextent
    subst hextent
    rcases ParsedUnit.ofInput_cases input with
      ⟨lexemes', unit, t, hscan', hrun, hunit, -⟩ | ⟨length, problem, hrejected⟩
    · cases hscan.symm.trans hscan'
      rw [hunit, ← unit.sites_shapes] at hsite
      have henclosed := Parser.run_enclosed hs hrun hsite hrole
      rw [← (hwhole unit t hrun).2, hrow] at henclosed
      rw [hrow] at hspan
      simp only [SyntaxTree.token, hrow]
      exact brackets_of_enclosed hc.ordered htokens henclosed hspan
    · rw [hrejected] at hsite
      cases hsite

/-- A field whose type has a list in angle brackets at the end of another. -/
def nested : SourceInput := ⟨"A.java", "class A{B<C<D>>x;}", .standard⟩

/-- Where all problems are tolerated, the tree of the file is over the lexemes of its parser. -/
theorem ofInput_tokens_nested : ∃ f lexemes unit t, ofInput nested ⟨ProblemId.all⟩ = .ok f ∧
    (ParsedUnit.ofInput nested).unit.Outlined ∧ scan .standard nested.text = .ok lexemes ∧
    Parser.run .standard lexemes = .ok (unit, t) ∧ bare f.tree.row.tokens.toList = t.lexemes ∧
    t.lexemes.map (fun x => (x.kind, x.range)) =
      [(.classKw, ⟨0, 5⟩), (.ident, ⟨6, 7⟩), (.lBrace, ⟨7, 8⟩), (.ident, ⟨8, 9⟩), (.lt, ⟨9, 10⟩),
        (.ident, ⟨10, 11⟩), (.lt, ⟨11, 12⟩), (.ident, ⟨12, 13⟩), (.gt, ⟨13, 14⟩), (.gt, ⟨14, 15⟩),
        (.ident, ⟨15, 16⟩), (.semicolon, ⟨16, 17⟩), (.rBrace, ⟨17, 18⟩), (.endOfFile, ⟨18, 18⟩)] := by
  have hfacts : (ParsedUnit.ofInput nested).unit.Outlined ∧
      ((scan .standard nested.text).toOption.bind fun lexemes =>
        (Parser.run .standard lexemes).toOption.map fun r =>
          r.2.lexemes.map fun x => (x.kind, x.range)) = some
        [(.classKw, ⟨0, 5⟩), (.ident, ⟨6, 7⟩), (.lBrace, ⟨7, 8⟩), (.ident, ⟨8, 9⟩),
          (.lt, ⟨9, 10⟩), (.ident, ⟨10, 11⟩), (.lt, ⟨11, 12⟩), (.ident, ⟨12, 13⟩),
          (.gt, ⟨13, 14⟩), (.gt, ⟨14, 15⟩), (.ident, ⟨15, 16⟩), (.semicolon, ⟨16, 17⟩),
          (.rBrace, ⟨17, 18⟩), (.endOfFile, ⟨18, 18⟩)] := by
    decide +kernel
  obtain ⟨houtlined, hlexemes⟩ := hfacts
  obtain ⟨lexemes, hscan, hrun⟩ := Option.bind_eq_some_iff.1 hlexemes
  obtain ⟨⟨unit, t⟩, hrun, hkinds⟩ := Option.map_eq_some_iff.1 hrun
  have hscan : scan .standard nested.text = .ok lexemes := toOption_eq_some.1 hscan
  have hrun : Parser.run .standard lexemes = .ok (unit, t) := toOption_eq_some.1 hrun
  obtain ⟨f, hf⟩ := @exists_ofInput_of_tolerant nested lexemes hscan
  exact ⟨f, lexemes, unit, t, hf, houtlined, hscan, hrun,
    (ofInput_tokens hf houtlined).1 lexemes unit t hscan hrun, hkinds⟩

/-- A list in angle brackets at the end of another, in an annotation of a pattern. -/
def passedOver : SourceInput :=
  ⟨"A.java", "class A{boolean f(Object o){return o instanceof @B((L<L<S>>)null)String s;}}",
    .standard⟩

/-- The parser has cut the operator into two brackets, and the tree keeps it whole. -/
theorem ofInput_tokens_passedOver : ∃ f lexemes unit t,
    ofInput passedOver ⟨ProblemId.all⟩ = .ok f ∧ scan .standard passedOver.text = .ok lexemes ∧
    Parser.run .standard lexemes = .ok (unit, t) ∧ .shr ∉ t.lexemes.map (·.kind) ∧
    .shr ∈ (bare f.tree.row.tokens.toList).map (·.kind) := by
  have hkinds : ((scan .standard passedOver.text).toOption.bind fun lexemes =>
      (Parser.run .standard lexemes).toOption.map fun r =>
        (decide (.shr ∈ r.2.lexemes.map (·.kind)), decide (.shr ∈ (bare (TokenRow.ofLexemes lexemes
          (ParsedUnit.ofInput passedOver).unit.splits).tokens.toList).map (·.kind)))) =
      some (false, true) := by decide +kernel
  obtain ⟨lexemes, hscan, hrun⟩ := Option.bind_eq_some_iff.1 hkinds
  obtain ⟨⟨unit, t⟩, hrun, hkinds⟩ := Option.map_eq_some_iff.1 hrun
  have hscan : scan .standard passedOver.text = .ok lexemes := toOption_eq_some.1 hscan
  have hrun : Parser.run .standard lexemes = .ok (unit, t) := toOption_eq_some.1 hrun
  obtain ⟨f, hf⟩ := @exists_ofInput_of_tolerant passedOver lexemes hscan
  obtain ⟨lexemes', o, hscan', htree, -⟩ := tree_of_ofInput hf
  cases hscan.symm.trans hscan'
  obtain ⟨hparser, htokens⟩ := Prod.mk.inj hkinds
  refine ⟨f, lexemes, unit, t, hf, hscan, hrun, of_decide_eq_false hparser, ?_⟩
  rw [(Layout.over_of_tree htree).1]
  exact of_decide_eq_true htokens

end SourceFile

end JavaAnalysis
