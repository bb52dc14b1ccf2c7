import JavaAnalysis.Proofs.Binding.Table
import JavaAnalysis.Proofs.Resolve.Entered
import JavaAnalysis.Proofs.SourceFile.Occurrences
import JavaAnalysis.Unnecessary

/-!
# What is reported as unnecessary

Each warning comes from one part of a file, and is of a kind of its own. A declaration that is
reported as unused is bound, and what it is bound to does not count as used.
Main statement: `Resolution.warned_of_mem_unnecessary`.
-/

set_option autoImplicit false
set_option linter.dupNamespace false

namespace JavaAnalysis

open Ast

/-- A declaration could be left out. -/
def ProblemId.IsUnusedDeclaration : ProblemId → Prop
  | unusedLocal => True
  | unusedPrivateField => True
  | unusedPrivateMethod => True
  | unusedPrivateType => True
  | _ => False

/-- Something else could be left out. -/
def ProblemId.IsNeedless : ProblemId → Prop
  | unusedImport => True
  | redundantCast => True
  | unusedLabel => True
  | deadCode => True
  | _ => False

theorem ProblemId.IsNeedless.not_isUnusedDeclaration {id : ProblemId} (h : id.IsNeedless) :
    ¬ id.IsUnusedDeclaration := by
  intro hunused
  cases id with
  | unusedImport | redundantCast | unusedLabel | deadCode => exact hunused
  | _ => exact h

namespace Resolution

variable {r : Resolution} {unit : CompilationUnit} {p : Problem}

/-- The warning is about the name of a declaration that is not used, or about something else. -/
structure Warned (r : Resolution) (p : Problem) : Prop where
  category : p.category = .unnecessaryCode
  kind : p.id.IsNeedless ∨ p.id.IsUnusedDeclaration ∧
    ∃ id, r.boundAt? p.range.start = some id ∧ r.isUsed id = false

/-- A declared name is reported only if what it is bound to is not used. -/
theorem unused_of_declared {name : Ident} {f : BindingId → Option Problem} (kind : ProblemId)
    (hkind : kind.IsUnusedDeclaration)
    (hf : ∀ id, f id = some p →
      r.isUsed id = false ∧ p.category = .unnecessaryCode ∧ p.id = kind ∧ p.range = name.range)
    (h : (r.declared? name).bind f = some p) : p.id.IsUnusedDeclaration ∧ r.Warned p := by
  obtain ⟨id, hid, hp⟩ := Option.bind_eq_some_iff.1 h
  obtain ⟨hunused, hcategory, rfl, hrange⟩ := hf id hp
  exact ⟨hkind, hcategory, .inr ⟨hkind, id, by rwa [hrange], hunused⟩⟩

theorem warned_of_mem_unusedImports {imports : List ImportDecl}
    (h : p ∈ r.unusedImports imports) : r.Warned p := by
  obtain ⟨⟨i, used⟩, -, hp⟩ := List.mem_filterMap.1 h
  cases used with
  | true => cases hp
  | false =>
    cases hp
    exact ⟨rfl, .inl trivial⟩

theorem unused_of_mem_unusedLocals {decl : VarDecl} (h : p ∈ r.unusedLocals decl) :
    p.id.IsUnusedDeclaration ∧ r.Warned p := by
  obtain ⟨fragment, -, hp⟩ := List.mem_filterMap.1 h
  refine unused_of_declared .unusedLocal trivial (fun id hid => ?_) hp
  obtain ⟨hunused, hsome⟩ := Option.ite_none_left_eq_some.1 hid
  cases hsome
  exact ⟨by simpa using hunused, rfl, rfl, rfl⟩

theorem unused_of_mem_unusedFields {decl : VarDecl} (h : p ∈ r.unusedFields decl) :
    p.id.IsUnusedDeclaration ∧ r.Warned p := by
  obtain ⟨fragment, -, hp⟩ := List.mem_filterMap.1 h
  refine unused_of_declared .unusedPrivateField trivial (fun id hid => ?_) hp
  obtain ⟨hunused, hsome⟩ := Option.ite_none_right_eq_some.1 hid
  cases hsome
  simp only [Bool.and_eq_true, Bool.not_eq_true'] at hunused
  exact ⟨hunused.1.2, rfl, rfl, rfl⟩

theorem unused_of_unusedMethod? {decl : MethodDecl} (h : r.unusedMethod? decl = some p) :
    p.id.IsUnusedDeclaration ∧ r.Warned p := by
  refine unused_of_declared .unusedPrivateMethod trivial (fun id hid => ?_) h
  obtain ⟨hunused, hsome⟩ := Option.ite_none_left_eq_some.1 hid
  cases hsome
  simp only [Bool.or_eq_true, not_or, Bool.not_eq_true] at hunused
  exact ⟨hunused.2, rfl, rfl, rfl⟩

theorem unused_of_unusedType? {decl : TypeDecl} (h : r.unusedType? decl = some p) :
    p.id.IsUnusedDeclaration ∧ r.Warned p := by
  refine unused_of_declared .unusedPrivateType trivial (fun id hid => ?_) h
  obtain ⟨hunused, hsome⟩ := Option.ite_none_right_eq_some.1 hid
  cases hsome
  simp only [Bool.and_eq_true, Bool.not_eq_true'] at hunused
  exact ⟨hunused.2, rfl, rfl, rfl⟩

theorem unused_of_mem_unusedMembers {m : Member} (h : p ∈ r.unusedMembers m) :
    p.id.IsUnusedDeclaration ∧ r.Warned p := by
  cases m with
  | field decl => exact unused_of_mem_unusedFields h
  | method decl => exact unused_of_unusedMethod? (Option.mem_toList.1 h)
  | type decl => exact unused_of_unusedType? (Option.mem_toList.1 h)
  | initializer _ _ _ => cases h

theorem warned_of_unusedLabel? {label : Ident} {body : Stmt}
    (h : unusedLabel? label body = some p) : r.Warned p := by
  obtain ⟨-, hp⟩ := Option.ite_none_left_eq_some.1 h
  cases hp
  exact ⟨rfl, .inl trivial⟩

theorem warned_of_deadBranch? {value : LiteralKind} {cond : Expr} {branch : Stmt}
    (h : deadBranch? value cond branch = some p) : r.Warned p := by
  unfold deadBranch? at h
  split at h
  · obtain ⟨-, hp⟩ := Option.ite_none_right_eq_some.1 h
    cases hp
    exact ⟨rfl, .inl trivial⟩
  · cases h

theorem warned_of_mem_unnecessaryInStmt {s : Stmt} (h : p ∈ r.unnecessaryInStmt s) :
    r.Warned p := by
  unfold unnecessaryInStmt at h
  split at h
  · exact (unused_of_mem_unusedLocals h).2
  · exact (unused_of_mem_unusedLocals h).2
  · exact (unused_of_mem_unusedLocals h).2
  · exact warned_of_unusedLabel? (Option.mem_toList.1 h)
  · exact warned_of_deadBranch? (Option.mem_toList.1 h)
  · rcases List.mem_append.1 h with h | h
    · exact warned_of_deadBranch? (Option.mem_toList.1 h)
    · exact warned_of_deadBranch? (Option.mem_toList.1 h)
  · cases h

theorem warned_of_redundantCast? {e : Expr} (h : r.redundantCast? e = some p) : r.Warned p := by
  unfold redundantCast? at h
  split at h
  · cases h
  · obtain ⟨-, hp⟩ := Option.ite_none_right_eq_some.1 h
    cases hp
    exact ⟨rfl, .inl trivial⟩
  · cases h

theorem warned_of_mem_unnecessaryIn {part : Part} (h : p ∈ r.unnecessaryIn part) :
    r.Warned p := by
  cases part with
  | member m => exact (unused_of_mem_unusedMembers h).2
  | stmt s => exact warned_of_mem_unnecessaryInStmt h
  | expr e => exact warned_of_redundantCast? (Option.mem_toList.1 h)
  | _ => cases h

/-- Whatever is reported as unused is a name that is bound, and not used by any other. -/
theorem warned_of_mem_unnecessary (h : p ∈ r.unnecessary unit) : r.Warned p := by
  rcases List.mem_append.1 (List.mem_mergeSort.1 h) with himport | hpart
  · exact warned_of_mem_unusedImports himport
  · obtain ⟨part, -, hp⟩ := List.mem_flatMap.1 hpart
    exact warned_of_mem_unnecessaryIn hp

end Resolution

end JavaAnalysis

/-!
## Names that a file enters

Mentioned names are told apart by where they start. So what is reported as missing at a name is
about that name, and in the types of a file no simple name is reported that the file declares at
its top level or imports.
Main statement: `ofInput_entered`.
-/

namespace JavaAnalysis

open Ast Lexeme

/-- Nothing that could be left out is reported as missing. -/
theorem not_isUnresolved_of_warned {r : Resolution} {p : Problem} (h : r.Warned p) :
    ¬ p.id.IsUnresolved := by
  have hkind := h.kind.imp_right And.left
  intro hid
  rcases hid with htype | hname
  · rw [htype] at hkind
    exact hkind.elim id id
  · rw [hname] at hkind
    exact hkind.elim id id

namespace ParsedUnit

variable {input : SourceInput} {p : Problem}

/-- What is wrong with a file was found when its names were bound, or could be left out. -/
theorem mem_problems (h : p ∈ (ofInput input).problems) :
    p.id = .syntaxError ∨ p ∈ (ofInput input).resolution.problems ∨
      p ∈ (ofInput input).resolution.unnecessary (ofInput input).unit := by
  unfold ofInput ofText at h ⊢
  split at h
  · rw [List.mem_singleton.1 h]
    exact .inl rfl
  dsimp only at h ⊢
  split at h
  · rw [List.mem_singleton.1 h]
    exact .inl rfl
  · exact .inr (List.mem_append.1 h)

theorem mem_problems_of_bound (h : p ∈ (ofInput input).resolution.problems) :
    p ∈ (ofInput input).problems := by
  unfold ofInput ofText at h ⊢
  split at h
  · cases h
  dsimp only at h ⊢
  split at h
  · cases h
  · exact List.mem_append_left _ h

/-- In a file that is accepted, each name that is mentioned starts at an offset of its own. -/
theorem nodup_mentions (input : SourceInput) :
    ((ofInput input).unit.mentions.map Mention.offset).Nodup := by
  rcases ofInput_cases input with ⟨lexemes, unit, t, hscan, hrun, hunit, -⟩ |
    ⟨length, problem, hrejected⟩
  · have hvacant := (covers_places hscan hrun hunit).ne_vacant
    have hnodup := Parser.run_nodup_keys hscan hrun
    rw [hunit]
    exact hnodup.sublist (unit.stand.sublist_keys hvacant)
  · rw [hrejected]
    exact List.nodup_nil

/-- What was found when the names of a file were bound blames names in the file, or is a remark. -/
theorem blames_of_bound (h : p ∈ (ofInput input).resolution.problems) :
    Binder.Blames (ofInput input).unit.Blamed p := by
  rcases ofInput_cases input with ⟨lexemes, unit, t, -, -, hunit, hresolution⟩ |
    ⟨length, problem, hrejected⟩
  · rw [hresolution] at h
    rw [hunit]
    exact Resolution.blames_of_mem h
  · rw [hrejected] at h
    cases h

/-- What is missing is reported of the names in the file, each of which stands where it says. -/
theorem blamed_of_mem_problems (h : p ∈ (ofInput input).problems) (hid : p.id.IsUnresolved) :
    ∃ m, (ofInput input).unit.Blamed m ∧ p.range = m.range := by
  rcases mem_problems h with hrejected | hbound | hneedless
  · rcases hid with htype | hname
    · cases hrejected.symm.trans htype
    · cases hrejected.symm.trans hname
  · rcases blames_of_bound hbound with hremark | ⟨-, hblamed⟩
    · exact absurd hid hremark.not_isUnresolved
    · exact hblamed
  · exact absurd hid (not_isUnresolved_of_warned (Resolution.warned_of_mem_unnecessary hneedless))

/--
A simple name that a file declares at its top level, or imports by that name, is never reported as
missing, wherever it stands in the types of the file: in a header, a signature, a body, a local
class, a pattern or an annotation.
-/
theorem ofInput_entered {m : Mention} {name : String}
    (hm : m ∈ declMentions (ofInput input).unit.types) (hname : m.unqualified? = some name)
    (henters : (ofInput input).unit.Enters name) :
    ¬ ∃ p ∈ (ofInput input).problems, p.range = m.range ∧
      (p.id = .unresolvedType ∨ p.id = .unresolvedName) := by
  rintro ⟨p, hp, hrange, hid⟩
  obtain ⟨m', hblamed, hrange'⟩ := blamed_of_mem_problems hp hid
  have hoffset : m'.offset = m.offset := by
    rw [Mention.offset, Mention.offset, ← hrange', hrange]
  have hnodup := nodup_mentions input
  rw [CompilationUnit.mentions, List.map_append, List.nodup_append] at hnodup
  obtain ⟨-, hdistinct, hapart⟩ := hnodup
  rcases hblamed with hpackage | ⟨hm', hfree⟩
  · have hearlier := List.mem_append_left (importMentions (ofInput input).unit.imports) hpackage
    exact hapart _ (List.mem_map_of_mem hearlier) _ (List.mem_map_of_mem hm) hoffset
  · have hsame := List.inj_on_of_nodup_map hdistinct hm' hm hoffset
    subst hsame
    exact hfree name hname henters

/-- A file that uses a type which it imports. -/
def importedField : SourceInput := ⟨"A.java", "import q.N;class A{N x;}", .standard⟩

/-- The imported type is not reported. -/
theorem ofInput_entered_importedField :
    (ofInput importedField).unit.Enters "N" ∧
    ¬ ∃ p ∈ (ofInput importedField).problems, p.range = ⟨19, 20⟩ ∧
      (p.id = .unresolvedType ∨ p.id = .unresolvedName) := by
  have hfacts : (ofInput importedField).unit.Enters "N" ∧
      (declMentions (ofInput importedField).unit.types)[0]?.map
        (fun m => (m.unqualified?, m.range)) = some (some "N", ⟨19, 20⟩) := by decide +kernel
  obtain ⟨henters, hfirst⟩ := hfacts
  obtain ⟨m, hm, hmention⟩ := Option.map_eq_some_iff.1 hfirst
  rw [Prod.mk.injEq] at hmention
  have hfound := ofInput_entered (List.mem_of_getElem? hm) hmention.1 henters
  rw [hmention.2] at hfound
  exact ⟨henters, hfound⟩

/-- A file whose package is annotated with a type of the file. -/
def annotatedPackage : SourceInput :=
  ⟨"package-info.java", "@N package p;@interface N{}", .standard⟩

/-- The annotations of a package are walked through before anything is entered. -/
theorem annotatedPackage_unresolved :
    (ofInput annotatedPackage).unit.Enters "N" ∧
    (ofInput annotatedPackage).unit.packageMentions.map (fun m => (m.unqualified?, m.range)) =
      [(some "N", ⟨1, 2⟩)] ∧
    ∃ p ∈ (ofInput annotatedPackage).problems, p.range = ⟨1, 2⟩ ∧ p.id = .unresolvedType := by
  have hfacts : (ofInput annotatedPackage).unit.Enters "N" ∧
      (ofInput annotatedPackage).unit.packageMentions.map (fun m => (m.unqualified?, m.range)) =
        [(some "N", ⟨1, 2⟩)] ∧
      ∃ p ∈ (ofInput annotatedPackage).resolution.problems,
        p.range = ⟨1, 2⟩ ∧ p.id = .unresolvedType := by
    -- The name is looked up among the rows of the table, which are read as a list.
    delta ofInput ofText Resolution.ofUnit Binder.resolveUnit Binder.resolveAnnotations
      Binder.resolveAnnotation._f Binder.resolveMarkerName Binder.lookupType Binder.builtIn?
    rw [Bindings.ofQualifiedName?_eq_findIdx?]
    decide +kernel
  obtain ⟨henters, hmentions, p, hp, hrange, hid⟩ := hfacts
  exact ⟨henters, hmentions, p, mem_problems_of_bound hp, hrange, hid⟩

end ParsedUnit

end JavaAnalysis
