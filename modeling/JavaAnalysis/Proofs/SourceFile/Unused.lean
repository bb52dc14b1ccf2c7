import JavaAnalysis.Proofs.Binding.Table
import JavaAnalysis.Proofs.Resolve.Unneeded
import JavaAnalysis.Proofs.Resolve.Used
import JavaAnalysis.Proofs.SourceFile.EnteredNames
import JavaAnalysis.Proofs.SourceFile.Occurrences

/-!
# What is unused in a file

The name of an import stands apart from all other names of its file. So an import that is not used
can be deleted: all names that remain are bound to the same as before, and the same is reported.

A declaration is reported as unused only if no name counts as a use of it. So in the semantic model
of a file its usages are names that are assigned to, and those that stand before a dot in a type
where the name of a package may stand.
Main statements: `ofInput_withoutImport`, `SourceFile.ofInput_unused`.
-/

set_option autoImplicit false
set_option linter.dupNamespace false

namespace JavaAnalysis

/-! ## Imports -/

open Ast Lexeme

/-- The names of a file are those of one of its imports and those of the file without it. -/
theorem Parser.keys_withoutImport {unit : CompilationUnit} {i : Nat} {decl : ImportDecl}
    (hdecl : unit.imports[i]? = some decl) :
    (keys unit.sites).Perm (keys decl.sites ++ keys (unit.withoutImport i).sites) := by
  obtain ⟨hi, rfl⟩ := List.getElem?_eq_some_iff.1 hdecl
  have himports : (unit.imports.flatMap ImportDecl.sites).Perm
      (unit.imports[i].sites ++ (unit.imports.eraseIdx i).flatMap ImportDecl.sites) :=
    (List.getElem_cons_eraseIdx_perm hi).symm.flatMap_right _
  rw [← keys_append]
  refine List.Perm.filterMap _ (((himports.append_left _).append_right _).trans ?_)
  simp only [CompilationUnit.sites, CompilationUnit.withoutImport, List.append_assoc]
  exact List.perm_append_comm_assoc _ _ _

namespace ParsedUnit

variable {input : SourceInput} {i : Nat} {decl : ImportDecl}

/-- No other name of a file starts where the name of an import starts. -/
theorem key?_ne_import (hdecl : (ofInput input).unit.imports[i]? = some decl)
    (hstatic : decl.isStatic = false) {site : Site}
    (hsite : site ∈ ((ofInput input).unit.withoutImport i).sites) :
    site.key? ≠ some decl.name.range.start := by
  intro hkey
  have himport : decl.name.range.start ∈ Parser.keys decl.sites := by
    simp [Parser.keys, ImportDecl.sites, hstatic, QualifiedName.sites, Site.key?, Site.reference]
  have hnodup := (Parser.keys_withoutImport hdecl).nodup_iff.1 (nodup_keys input)
  exact (List.nodup_append.1 hnodup).2.2 _ himport _ (List.mem_filterMap.2 ⟨site, hsite, hkey⟩) rfl

/--
An import that no name needs is harmless to delete, whatever kind of import it is and wherever it
stands. The file without it has the same table of bindings and the same problems, each name that
remains is bound to the same, the same bindings are used, and each other import is used just if it
was used before.
-/
theorem ofInput_withoutImport (h : (ofInput input).resolution.importsUsed[i]? = some false) :
    let rest := (ofInput input).unit.withoutImport i
    (Resolution.ofUnit rest).bindings = (ofInput input).resolution.bindings ∧
    (Resolution.ofUnit rest).problems = (ofInput input).resolution.problems ∧
    (Resolution.ofUnit rest).used = (ofInput input).resolution.used ∧
    (Resolution.ofUnit rest).importsUsed = (ofInput input).resolution.importsUsed.eraseIdx i ∧
    ∀ site ∈ rest.sites, ∀ o, site.key? = some o →
      (Resolution.ofUnit rest).boundAt? o = (ofInput input).resolution.boundAt? o := by
  rcases ofInput_cases input with ⟨lexemes, unit, t, hscan, hrun, hunit, hresolution⟩ |
    ⟨length, problem, hrejected⟩
  · have hcovers := covers_places hscan hrun hunit
    rw [CompilationUnit.sites, Binder.covers_append] at hcovers
    rw [hresolution] at h
    obtain ⟨hi, -⟩ := List.getElem?_eq_some_iff.1 h
    rw [Resolution.length_importsUsed] at hi
    obtain ⟨decl, hdecl⟩ : ∃ decl, unit.imports[i]? = some decl :=
      ⟨_, List.getElem?_eq_getElem hi⟩
    have hother : ∀ site ∈ (unit.withoutImport i).sites, decl.isStatic = false →
        site.key? ≠ some decl.name.range.start := by
      rw [← hunit] at hdecl ⊢
      exact fun site hsite hstatic => key?_ne_import hdecl hstatic hsite
    -- Only the name of the import itself is no longer bound.
    let hidden : Nat → Prop := fun o => decl.isStatic = false ∧ o = decl.name.range.start
    have hnames : Binder.Known (fun m => ¬ hidden m.offset) (declMentions unit.types) := by
      rintro m hm ⟨hstatic, heq⟩
      obtain ⟨site, hsite, hrole⟩ :=
        (declStand unit.types).exists_site hcovers.2.ne_vacant hm
      refine hother site (List.mem_append_right _ hsite) hstatic ?_
      rw [Mention.key?_of_role hrole, heq]
    obtain ⟨hbindings, hproblems, hused, himports, hbound⟩ :=
      Resolution.ofUnit_withoutImport hdecl (fun hstatic => ⟨hstatic, rfl⟩) hnames h
    rw [hunit, hresolution]
    refine ⟨hbindings, hproblems, hused, himports, fun site hsite o hkey => hbound o ?_⟩
    rintro ⟨hstatic, rfl⟩
    exact hother site hsite hstatic hkey
  · rw [hrejected] at h
    cases h

/-- A file with an import that is used, and one that is not. -/
def twoImports : SourceInput :=
  ⟨"A.java", "import java.util.Set;import java.util.List;class A{List x;}", .standard⟩

/-- The first import can be deleted, and the other one is still used. -/
theorem ofInput_withoutImport_twoImports :
    (ofInput twoImports).resolution.importsUsed = [false, true] ∧
    (Resolution.ofUnit ((ofInput twoImports).unit.withoutImport 0)).importsUsed = [true] := by
  have hused : (ofInput twoImports).resolution.importsUsed = [false, true] := by
    -- The name is looked up among the rows of the table, which are read as a list.
    delta ofInput ofText Resolution.ofUnit Binder.resolveUnit Binder.declareAllMembers
      Binder.declareAllMembers._f Binder.declareMembers Binder.declareMembersIn._f
      Binder.declareFields Binder.resolveType Binder.resolveType._f Binder.lookupType
      Binder.typeIn? Bindings.findMember? Bindings.supertypes
    rw [Bindings.links_eq_foldl, Bindings.members_eq_foldr]
    decide +kernel
  have hfirst : (ofInput twoImports).resolution.importsUsed[0]? = some false := by rw [hused]; rfl
  have hrest := (ofInput_withoutImport hfirst).2.2.2.1
  rw [hused] at hrest
  exact ⟨hused, hrest⟩

end ParsedUnit

end JavaAnalysis

namespace JavaAnalysis

/-! ## Declarations -/

open Ast Lexeme

/-- Nothing that the walk reports is an unused declaration. -/
theorem Binder.Blames.not_isUnusedDeclaration {blamed : Mention → Prop} {p : Problem}
    (h : Blames blamed p) : ¬ p.id.IsUnusedDeclaration := by
  intro hkind
  rcases h with (hid | hid | hid) | ⟨hid | hid, -⟩
  all_goals
    rw [hid] at hkind
    exact hkind

namespace ParsedUnit

variable {input : SourceInput} {p : Problem} {o o' : Nat} {b : BindingId}

theorem mem_problems_of_unnecessary
    (h : p ∈ (ofInput input).resolution.unnecessary (ofInput input).unit) :
    p ∈ (ofInput input).problems := by
  unfold ofInput ofText at h ⊢
  split at h
  · cases List.mem_mergeSort.1 h
  dsimp only at h ⊢
  split at h
  · cases List.mem_mergeSort.1 h
  · exact List.mem_append_right _ h

/-- A declaration that is reported as unused is bound to what does not count as used. -/
theorem not_mem_used_of_reported (hp : p ∈ (ofInput input).problems)
    (hkind : p.id.IsUnusedDeclaration)
    (hb : (ofInput input).resolution.boundAt? p.range.start = some b) :
    b ∉ (ofInput input).resolution.used := by
  rcases mem_problems hp with hrejected | hbound | hneedless
  · rw [hrejected] at hkind
    exact hkind.elim
  · exact absurd hkind (blames_of_bound hbound).not_isUnusedDeclaration
  · rcases (Resolution.warned_of_mem_unnecessary hneedless).kind with hother | ⟨-, id, hid, hunused⟩
    · exact absurd hkind hother.not_isUnusedDeclaration
    · rw [hb, Option.some.injEq] at hid
      subst hid
      simpa [Resolution.isUsed] using hunused

/-- Names that use what a file declares are passive, unless it counts as used. -/
theorem passive_of_not_mem_used (ho : .declared o ∈ declMentions (ofInput input).unit.types)
    (hb : (ofInput input).resolution.boundAt? o = some b)
    (hunused : b ∉ (ofInput input).resolution.used) {site : Site}
    (hsite : site ∈ (ofInput input).unit.sites) (huse : site.used? = some o')
    (hb' : (ofInput input).resolution.boundAt? o' = some b) :
    ∃ m ∈ (ofInput input).unit.mentions, m.IsPassive ∧ m.offset = o' := by
  rcases ofInput_cases input with ⟨lexemes, unit, t, hscan, hrun, hunit, hresolution⟩ |
    ⟨length, problem, hrejected⟩
  · have hapart : (ofInput input).unit.Apart := nodup_mentions input
    have hvacant := (covers_places hscan hrun hunit).ne_vacant
    rw [← hunit] at hvacant hresolution
    rw [hresolution] at hb hb' hunused
    have hidle := (Resolution.used_of_boundAt? hapart hb').resolve_left hunused
    rcases hidle with hpassive | hdeclared | ⟨name, hname, rfl⟩
    · exact hpassive
    · obtain ⟨other, hother, hrole⟩ := (ofInput input).unit.stand.exists_site hvacant hdeclared
      have hsame := eq_of_key? input hsite hother (Site.key?_of_used? huse)
        (Mention.key?_of_role hrole)
      have hrole' := Site.role_of_used? huse
      rw [hsame, hrole] at hrole'
      cases hrole'
    · exact absurd hb' (Resolution.ne_of_imported hapart hname ho hb)
  · rw [hrejected] at hsite
    cases hsite

end ParsedUnit

namespace SourceFile

variable {input : SourceInput} {policy : SyntaxPolicy} {f : SourceFile} {p : Problem} {o : Nat}
  {b : BindingId}

/--
What is declared by a name that is reported as unused has no usages in the semantic model but names
that are passive: those that are assigned to, `this`, and those that stand before a dot in a type
where the name of a package may stand.
-/
theorem ofInput_unused (h : ofInput input policy = .ok f)
    (ho : .declared o ∈ declMentions (ParsedUnit.ofInput input).unit.types)
    (hb : (ParsedUnit.ofInput input).resolution.boundAt? o = some b)
    (hp : p ∈ (ParsedUnit.ofInput input).problems) (hkind : p.id.IsUnusedDeclaration)
    (hstart : p.range.start = o) :
    ∀ n ∈ f.semantic.usages b, ∃ m ∈ (ParsedUnit.ofInput input).unit.mentions, m.IsPassive ∧
      ∃ site ∈ (ParsedUnit.ofInput input).unit.sites, site.used? = some m.offset ∧
        f.tree.StandsFor n site := by
  intro n hn
  obtain ⟨nodes, hsites, -, hstands, -, hrecords⟩ := exists_records h
  obtain ⟨⟨site, node⟩, hnode, huses, rfl⟩ := (hrecords.mem_usages b n).1 hn
  have hnamed : site ∈ (ParsedUnit.ofInput input).unit.sites.filter Site.isNamed :=
    hsites ▸ List.mem_map_of_mem hnode
  have hsite := (List.mem_filter.1 hnamed).1
  obtain ⟨o', huse, hb'⟩ := Option.bind_eq_some_iff.1 huses
  have hunused := ParsedUnit.not_mem_used_of_reported hp hkind (hstart ▸ hb)
  obtain ⟨m, hm, hpassive, rfl⟩ :=
    ParsedUnit.passive_of_not_mem_used ho hb hunused hsite huse hb'
  exact ⟨m, hm, hpassive, site, hsite, huse, hstands _ hnode⟩

/-- A file with a private field that is only assigned to. -/
def assignedField : SourceInput := ⟨"A.java", "class A{private int x;void f(){x=1;}}", .standard⟩

/-- The field is reported, and its only usage is the target of the assignment. -/
theorem ofInput_unused_assignedField : ∃ f b, ofInput assignedField ⟨ProblemId.all⟩ = .ok f ∧
    (ParsedUnit.ofInput assignedField).resolution.boundAt? 20 = some b ∧
    (ParsedUnit.ofInput assignedField).resolution.boundAt? 31 = some b ∧
    ∀ n ∈ f.semantic.usages b, ∃ m ∈ (ParsedUnit.ofInput assignedField).unit.mentions,
      m.IsPassive ∧ ∃ site ∈ (ParsedUnit.ofInput assignedField).unit.sites,
        site.used? = some m.offset ∧ f.tree.StandsFor n site := by
  have hfacts : (scan assignedField.level assignedField.text).toOption.isSome ∧
      (∃ m ∈ declMentions (ParsedUnit.ofInput assignedField).unit.types, m.role = .declares 20) ∧
      ((ParsedUnit.ofInput assignedField).resolution.boundAt? 20).isSome ∧
      (ParsedUnit.ofInput assignedField).resolution.boundAt? 31 =
        (ParsedUnit.ofInput assignedField).resolution.boundAt? 20 ∧
      ∃ p ∈ (Outline.partsOf (ParsedUnit.ofInput assignedField).unit.outlines).flatMap
        (ParsedUnit.ofInput assignedField).resolution.unnecessaryIn,
        p.id = .unusedPrivateField ∧ p.range.start = 20 := by
    delta ParsedUnit.ofInput ParsedUnit.ofText Resolution.ofUnit Binder.resolveUnit
      Binder.resolveTypeBodies Binder.resolveTypeBodies._f Binder.resolveTypeBody
      Binder.resolveExpr._f Binder.resolveName Binder.resolveTargetName Binder.lookupVariable
      Binder.variableIn? Bindings.findMember? Bindings.supertypes
    rw [Bindings.links_eq_foldl, Bindings.members_eq_foldr]
    decide +kernel
  obtain ⟨hcut, ⟨m, hm, hrole⟩, hsome, hsame, p, hp, hid, hstart⟩ := hfacts
  obtain ⟨lexemes, hscan⟩ := Option.isSome_iff_exists.1 hcut
  rw [toOption_eq_some] at hscan
  obtain ⟨f, hf⟩ := exists_ofInput_of_tolerant hscan
  rw [Mention.eq_of_role hrole] at hm
  obtain ⟨b, hdeclared⟩ := Option.isSome_iff_exists.1 hsome
  have hreported := ParsedUnit.mem_problems_of_unnecessary
    (List.mem_mergeSort.2 (List.mem_append_right _ hp))
  have hkind : p.id.IsUnusedDeclaration := by
    rw [hid]
    trivial
  exact ⟨f, b, hf, hdeclared, hsame.trans hdeclared,
    ofInput_unused hf hm hdeclared hreported hkind hstart⟩

end SourceFile

end JavaAnalysis
