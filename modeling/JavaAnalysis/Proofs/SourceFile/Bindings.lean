import JavaAnalysis.Proofs.Resolve.SoundBodies
import JavaAnalysis.Proofs.Semantics.Supertypes
import JavaAnalysis.Proofs.SourceFile.Occurrences

/-!
# The table of a file

Whatever the text, the table of its bindings starts with the built-in ones, and each binding of the
file stands behind its owner. No pass over the file breaks that, since a name that is declared is
bound to a row of the file, and is told apart from the names that use it by where it starts.

In such a table the enclosing type of a method is its owner, so a method overrides one of another
type. The types of their parameters are spelled the same.
Main statements: `ParsedUnit.ofInput_bindings`, `SourceFile.ofInput_overridden`.
-/

set_option autoImplicit false
set_option linter.dupNamespace false

namespace JavaAnalysis

open Ast Lexeme

namespace ParsedUnit

variable (input : SourceInput)

/-- Which offsets start names that are declared in the file, and whether they name types. -/
def declaredNames (offset : Nat) : Option Bool :=
  ((ofInput input).unit.sites.find? fun site => site.declared? = some offset).map fun site =>
    site.kind.isTypeDecl

variable {input}

theorem declaredNames_eq_some {site : Site} {offset : Nat}
    (hsite : site ∈ (ofInput input).unit.sites) (h : site.declared? = some offset) :
    declaredNames input offset = some site.kind.isTypeDecl := by
  unfold declaredNames
  cases hfound : (ofInput input).unit.sites.find? fun site => site.declared? = some offset with
  | none =>
    have hnone := List.find?_eq_none.1 hfound site hsite
    simp [h] at hnone
  | some other =>
    have hother : other.declared? = some offset := by simpa using List.find?_some hfound
    have heq := eq_of_key? input (List.mem_of_find?_eq_some hfound) hsite
      (Site.key?_of_declared? hother) (Site.key?_of_declared? h)
    rw [heq, Option.map_some]

theorem declaredNames_eq_none {site : Site} {offset : Nat}
    (hsite : site ∈ (ofInput input).unit.sites) (h : site.used? = some offset) :
    declaredNames input offset = none := by
  unfold declaredNames
  rw [Option.map_eq_none_iff, List.find?_eq_none]
  intro other hother hdeclared
  have hdeclared : other.declared? = some offset := by simpa using hdeclared
  exact not_used_of_declared? hother hdeclared ⟨site, hsite, h⟩

/-- The names at the sites of a file that is parsed are told apart by where they start. -/
theorem fitAll_declaredNames {lexemes : List Lexeme} {unit : CompilationUnit} {t : Parser.State}
    (hscan : Lexeme.scan input.level input.text = .ok lexemes)
    (hrun : Parser.run input.level lexemes = .ok (unit, t)) (hunit : (ofInput input).unit = unit) :
    FitAll (declaredNames input) unit.sites := by
  intro site hsite
  have hbacked := Parser.run_backed (significant_of_scan hscan) hrun
    (unit.sites_shapes.symm ▸ hsite)
  have hsite' : site ∈ (ofInput input).unit.sites := hunit.symm ▸ hsite
  cases hrole : site.role with
  | declares offset =>
    rw [Site.Fits, hrole]
    exact declaredNames_eq_some hsite' (by rw [Site.declared?, hrole])
  | uses offset =>
    rw [Site.Fits, hrole]
    exact declaredNames_eq_none hsite' (by rw [Site.used?, hrole])
  | encloses =>
    rw [Site.Fits, hrole]
    trivial
  | vacant =>
    rw [Parser.Backed, hrole] at hbacked
    exact hbacked.elim

/-- The table of a file is well-formed, and has grown from the one of the built-in bindings. -/
theorem wellFormed_bindings (input : SourceInput) :
    (ofInput input).bindings.WellFormed ∧ Bindings.universe.Grows (ofInput input).bindings := by
  rcases ofInput_cases input with ⟨lexemes, unit, t, hscan, hrun, hunit, hresolution⟩ |
    ⟨length, problem, hrejected⟩
  · rw [bindings, hresolution]
    exact Resolution.sound_ofUnit (fitAll_declaredNames hscan hrun hunit)
  · rw [hrejected]
    exact ⟨Bindings.wellFormed_universe, .refl⟩

end ParsedUnit

/-! ## Overriding -/

namespace SourceFile

variable {input : SourceInput} {policy : SyntaxPolicy} {f : SourceFile} {id id' : BindingId}

theorem bindings_semantic (h : ofInput input policy = .ok f) :
    f.semantic.bindings = (ParsedUnit.ofInput input).bindings := by
  obtain ⟨lexemes, o, -, -, hsemantic⟩ := tree_of_ofInput h
  rw [hsemantic]
  rfl

/--
A method that is not private or static overrides another method of its name that is not private,
either, and belongs to a super type of the type around it. The parameters of both are spelled the
same, unless what is overridden is built in. There is nothing to override in a nearer super type.
-/
theorem ofInput_overridden (h : ofInput input policy = .ok f)
    (hid : f.semantic.overridden? id = some id') :
    ∃ method method' type owner,
      f.semantic.bindings.get? id = some method ∧ f.semantic.bindings.get? id' = some method' ∧
      id ≠ id' ∧ method.kind = .method ∧ method'.kind = .method ∧ method'.name = method.name ∧
      method.modifiers.contains .private = false ∧ method'.modifiers.contains .private = false ∧
      method.modifiers.contains .static = false ∧
      f.semantic.enclosingType? id = some type ∧ method.owner = some type ∧
      method'.owner = some owner ∧ owner ∈ f.semantic.supertypes type ∧ owner ≠ type ∧
      (method'.origin = .source → method'.params = method.params) ∧
      ∀ x ∈ f.semantic.supertypes type, ∀ other ∈ f.semantic.bindings.members x,
        (f.semantic.bindings.get? other).any (SemanticModel.isOverridable method) = true →
        distance f.semantic.bindings.parents type owner ≤
          distance f.semantic.bindings.parents type x := by
  have hwellFormed : f.semantic.bindings.WellFormed := by
    rw [bindings_semantic h]
    exact (ParsedUnit.wellFormed_bindings input).1
  obtain ⟨method, type, owner, hmethod, hkind, hstatic, hprivate, htype, howner, hmember,
    hoverridable, hnearest⟩ := SemanticModel.overridden?_nearest hid
  obtain ⟨method', hmethod', howner'⟩ := Bindings.mem_members_iff.1 hmember
  rw [hmethod', Option.any_some, SemanticModel.isOverridable_iff] at hoverridable
  obtain ⟨hkind', hname, hprivate', hparams⟩ := hoverridable
  have hne : id ≠ id' := by
    rintro rfl
    exact SemanticModel.overridden?_ne hwellFormed hid
  have hdistinct : owner ≠ type := by
    rintro rfl
    exact f.semantic.not_mem_supertypes owner howner
  exact ⟨method, method', type, owner, hmethod, hmethod', hne, hkind, hkind', hname, hprivate,
    hprivate', hstatic, htype,
    SemanticModel.owner_eq_of_enclosingType? hwellFormed hmethod hkind htype, howner', howner,
    hdistinct, hparams, hnearest⟩

/-- A constant of an enum with a body that has the method of the enum once more. -/
def bodyOfConstant : SourceInput := ⟨"E.java", "enum E{A{void f(){}};void f(){}}", .standard⟩

/-- The method in the body is one of a class that has the enum as its parent. -/
theorem bindings_bodyOfConstant : ∃ t method overridden,
    t = (ParsedUnit.ofInput bodyOfConstant).bindings ∧ t.get? ⟨325⟩ = some method ∧
    t.get? ⟨323⟩ = some overridden ∧ method.kind = .method ∧
    method.modifiers.contains .static = false ∧ method.modifiers.contains .private = false ∧
    SemanticModel.isOverridable method overridden = true ∧ overridden.owner = some ⟨321⟩ ∧
    t.enclosingType? ⟨325⟩ = some ⟨324⟩ ∧ t.parents ⟨324⟩ = [⟨321⟩] := by
  have hfacts : ((ParsedUnit.ofInput bodyOfConstant).bindings.get? ⟨325⟩).isSome ∧
      ((ParsedUnit.ofInput bodyOfConstant).bindings.get? ⟨323⟩).isSome ∧
      ((ParsedUnit.ofInput bodyOfConstant).bindings.get? ⟨325⟩).all (fun method =>
        ((ParsedUnit.ofInput bodyOfConstant).bindings.get? ⟨323⟩).all fun overridden =>
          decide (method.kind = .method ∧
            method.modifiers.contains .static = false ∧
            method.modifiers.contains .private = false ∧
            SemanticModel.isOverridable method overridden = true ∧
            overridden.owner = some ⟨321⟩)) = true ∧
      (ParsedUnit.ofInput bodyOfConstant).bindings.enclosingType? ⟨325⟩ = some ⟨324⟩ ∧
      (ParsedUnit.ofInput bodyOfConstant).bindings.parents ⟨324⟩ = [⟨321⟩] := by
    decide +kernel
  obtain ⟨hmethod, hoverridden, hrows, htype, hparents⟩ := hfacts
  obtain ⟨method, hmethod⟩ := Option.isSome_iff_exists.1 hmethod
  obtain ⟨overridden, hoverridden⟩ := Option.isSome_iff_exists.1 hoverridden
  rw [hmethod, hoverridden, Option.all_some, Option.all_some, decide_eq_true_eq] at hrows
  obtain ⟨hkind, hstatic, hprivate, hoverridable, howner⟩ := hrows
  exact ⟨_, method, overridden, rfl, hmethod, hoverridden, hkind, hstatic, hprivate, hoverridable,
    howner, htype, hparents⟩

/-- The method in the body overrides one of another number and the same name. -/
theorem ofInput_overridden_bodyOfConstant : ∃ f id' method method',
    ofInput bodyOfConstant ⟨ProblemId.all⟩ = .ok f ∧ f.semantic.overridden? ⟨325⟩ = some id' ∧
    f.semantic.bindings.get? ⟨325⟩ = some method ∧ f.semantic.bindings.get? id' = some method' ∧
    ⟨325⟩ ≠ id' ∧ method'.name = method.name := by
  have hcut : (scan bodyOfConstant.level bodyOfConstant.text).toOption.isSome := by
    decide +kernel
  obtain ⟨lexemes, hscan⟩ := Option.isSome_iff_exists.1 hcut
  rw [toOption_eq_some] at hscan
  obtain ⟨f, hf⟩ := exists_ofInput_of_tolerant hscan
  obtain ⟨t, method, overridden, ht, hmethod, hoverridden, hkind, hstatic, hprivate,
    hoverridable, howner, htype, hparents⟩ := bindings_bodyOfConstant
  rw [← bindings_semantic hf] at ht
  subst ht
  have hx : ⟨321⟩ ∈ f.semantic.supertypes ⟨324⟩ := by
    apply SemanticModel.mem_supertypes_of_parent
    · rw [hparents]
      exact List.mem_singleton_self _
    · decide
  have hfound := SemanticModel.overridden?_ne_none hmethod hkind hstatic hprivate htype hx
    (Bindings.mem_members_iff.2 ⟨overridden, hoverridden, howner⟩)
    (by rw [hoverridden, Option.any_some, hoverridable])
  obtain ⟨id', hid⟩ := Option.ne_none_iff_exists'.1 hfound
  obtain ⟨method, method', -, -, hmethod, hmethod', hne, -, -, hname, -⟩ :=
    ofInput_overridden hf hid
  exact ⟨f, id', method, method', hf, hid, hmethod, hmethod', hne, hname⟩

end SourceFile

end JavaAnalysis
