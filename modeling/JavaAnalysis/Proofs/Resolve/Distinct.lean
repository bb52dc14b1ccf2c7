import JavaAnalysis.Proofs.Resolve.Bodies
import JavaAnalysis.Proofs.Resolve.Imports
import JavaAnalysis.Proofs.Sites.Mentions

/-!
# Names with bindings of their own

While the names of a file are bound, a name that is declared is bound to what was added to the table
for it, so that no two of them are bound to the same. Only names that use what is declared elsewhere
are bound to what is there already, and nothing else is bound at all. `Distinct` says so of a place
in the walk, and each step of the walk leaves it that way; so do the passes over a file. Names that
no site of a file uses are then bound to different things, and nothing is bound where no name stands.
Main statements: `Resolution.boundAt?_injective`, `Resolution.named_of_boundAt?`.
-/

set_option autoImplicit false
set_option linter.dupNamespace false

namespace JavaAnalysis

open Ast

namespace Binder

/-- The offsets at which names stand: those that are used, and those that are declared. -/
structure Places where
  used : Nat → Prop
  declared : Nat → Prop

variable {places : Places} {b : Binder} {id : BindingId} {offset : Nat}

/--
Names that are not used are bound to different things, all of them in the table, and only names are
bound.
-/
structure Distinct (places : Places) (b : Binder) : Prop where
  injective : ∀ o o' id, ¬ places.used o → ¬ places.used o' → b.boundAt? o = some id →
    b.boundAt? o' = some id → o = o'
  lt_size : ∀ o id, ¬ places.used o → b.boundAt? o = some id → id.index < b.bindings.size
  named : ∀ o id, b.boundAt? o = some id → places.used o ∨ places.declared o

/-- Nothing but uses is bound to what has been added to the table. -/
structure Fresh (places : Places) (id : BindingId) (b : Binder) : Prop where
  lt_size : id.index < b.bindings.size
  ne : ∀ o, ¬ places.used o → b.boundAt? o ≠ some id

/-- Before the walk starts, no name is bound. -/
theorem distinct_start (places : Places) (package : Option String) :
    Distinct places (start package) := by
  refine ⟨fun o o' id _ _ hid _ => ?_, fun o id _ hid => ?_, fun o id hid => ?_⟩
  all_goals
    rw [boundAt?_start] at hid
    cases hid

/-- A use may be bound to anything, any other name to what has been added. -/
theorem Distinct.insert (hb : Distinct places b)
    (h : places.used offset ∨ places.declared offset ∧ Fresh places id b) :
    Distinct places { b with bound := b.bound.insert offset id } := by
  have hat : ∀ o i, ¬ places.used o →
      boundAt? { b with bound := b.bound.insert offset id } o = some i →
      (o = offset ∧ i = id ∧ Fresh places id b) ∨ (o ≠ offset ∧ b.boundAt? o = some i) := by
    intro o i ho hi
    rw [boundAt?_insert] at hi
    split at hi
    · rename_i heq
      subst heq
      exact .inl ⟨rfl, (Option.some.inj hi).symm, (h.resolve_left ho).2⟩
    · rename_i hne
      exact .inr ⟨fun heq => hne heq.symm, hi⟩
  refine ⟨fun o o' i ho ho' hi hi' => ?_, fun o i ho hi => ?_, fun o i hi => ?_⟩
  · rcases hat o i ho hi with ⟨rfl, rfl, hfresh⟩ | ⟨-, hold⟩
    · rcases hat o' i ho' hi' with ⟨rfl, -, -⟩ | ⟨-, hold'⟩
      · rfl
      · exact absurd hold' (hfresh.ne o' ho')
    · rcases hat o' i ho' hi' with ⟨rfl, rfl, hfresh⟩ | ⟨-, hold'⟩
      · exact absurd hold (hfresh.ne o ho)
      · exact hb.injective o o' i ho ho' hold hold'
  · rcases hat o i ho hi with ⟨rfl, rfl, hfresh⟩ | ⟨-, hold⟩
    · exact hfresh.lt_size
    · exact hb.lt_size o i ho hold
  · rw [boundAt?_insert] at hi
    split at hi
    · rename_i heq
      exact heq ▸ h.imp_right And.left
    · exact hb.named o i hi

/-- What is added to the table is bound to nothing yet. -/
theorem Distinct.push (hb : Distinct places b) (data : Binding) :
    Distinct places { b with bindings := b.bindings.push data } ∧
      Fresh places b.bindings.nextId { b with bindings := b.bindings.push data } := by
  have hsize := b.bindings.size_push data
  have hnext : b.bindings.nextId.index = b.bindings.size := rfl
  refine ⟨⟨hb.injective, fun o id ho hid => ?_, hb.named⟩, ⟨?_, fun o ho hid => ?_⟩⟩
  · have := hb.lt_size o id ho hid
    show id.index < (b.bindings.push data).size
    omega
  · show b.bindings.nextId.index < (b.bindings.push data).size
    omega
  · have := hb.lt_size o _ ho hid
    omega

/-! ## The names at sites -/

/-- The names at the sites are among the names, and no declaration lacks its variables. -/
def Covers (places : Places) (sites : List Site) : Prop :=
  ∀ site ∈ sites, match site.role with
    | .uses offset => places.used offset
    | .declares offset => places.declared offset
    | .vacant => False
    | .encloses => True

variable {as bs : List Site}

@[simp]
theorem covers_append : Covers places (as ++ bs) ↔ Covers places as ∧ Covers places bs :=
  List.forall_mem_append

@[simp]
theorem covers_qualifiedName (name : QualifiedName) :
    Covers places name.sites ↔ places.used name.range.start := by
  simp [Covers, QualifiedName.sites, Site.reference]

/-! ## The walk -/

/-- The name stands at one of the offsets, as it is mentioned. -/
def Places.Has (places : Places) : Mention → Prop
  | .declared o => places.declared o
  | m => places.used m.offset

theorem Places.Has.used {m : Mention} (h : places.Has m) (hm : m.IsUse) : places.used m.offset := by
  cases m with
  | declared _ => exact hm.elim
  | _ => exact h

theorem Covers.ne_vacant {sites : List Site} (h : Covers places sites) :
    ∀ site ∈ sites, site.role ≠ .vacant := by
  intro site hsite hrole
  have hcovered := h site hsite
  rwa [hrole] at hcovered

/-- What is mentioned at sites is among the names if the sites are. -/
theorem Covers.known {ms : List Mention} {sites : List Site} (h : Covers places sites)
    (hms : StandAt ms sites) : Known places.Has ms := by
  intro m hm
  obtain ⟨site, hsite, hrole⟩ := hms.exists_site h.ne_vacant hm
  have hcovered := h site hsite
  rw [hrole] at hcovered
  cases m <;> exact hcovered

/-- That names stay distinct goes by the parts of the walk. -/
def keeping (places : Places) : Discipline places.Has where
  Answers _ _ := True
  Demands _ := True
  Holds := Stays (Distinct places)
  pure := .pure
  bind := .bind
  get _ := .get
  inScope kind h := .inScope (fun _ _ hb => ⟨hb.1, hb.2, hb.3⟩) h kind
  lookupType name h := .lookupType (fun _ _ _ hb => ⟨hb.1, hb.2, hb.3⟩) name fun _ _ =>
    h _ trivial
  lookupImported name p := .lookupImported (fun _ _ _ hb => ⟨hb.1, hb.2, hb.3⟩) name p
  refer id h hm := .bind (fun _ hb => hb.insert (.inl (h.used hm))) fun _ =>
    .markUsed (fun _ _ hb => ⟨hb.1, hb.2, hb.3⟩) id
  pass id h hm := fun _ hb => hb.insert (.inl (h.used hm.isUse))
  declare {_ _ data _} h hf := by
    intro b hb
    obtain ⟨hpushed, hfresh⟩ := hb.push data
    exact hf _ _ (hpushed.insert (.inr ⟨h, hfresh⟩))
  allocate data _ := fun _ hb => (hb.push data).1
  complete id f _ := by
    intro b hb
    refine ⟨hb.injective, fun o i ho hi => ?_, hb.named⟩
    exact Nat.lt_of_lt_of_eq (hb.lt_size o i ho hi) Array.size_modify.symm
  enter name id _ := .enter (fun _ _ hb => ⟨hb.1, hb.2, hb.3⟩) name id
  addTopLevel _ _ := fun _ hb => ⟨hb.1, hb.2, hb.3⟩
  markOpen _ := fun _ hb => ⟨hb.1, hb.2, hb.3⟩
  markUntyped _ := fun _ hb => ⟨hb.1, hb.2, hb.3⟩
  report _ _ _ _ _ _ := fun _ hb => ⟨hb.1, hb.2, hb.3⟩
  remark _ _ _ _ _ := fun _ hb => ⟨hb.1, hb.2, hb.3⟩

/-! ## Files -/

theorem Distinct.withImport {b : Binder} (hb : Distinct places b) {decl : ImportDecl}
    (h : Covers places decl.sites) : Distinct places (b.withImport decl) := by
  have hentry : Distinct places { b with imports := b.imports ++ [b.importEntry decl] } :=
    ⟨hb.1, hb.2, hb.3⟩
  unfold Binder.withImport
  cases b.importTarget decl with
  | none => exact hentry
  | some id =>
    cases hstatic : decl.isStatic with
    | true => exact hentry
    | false =>
      simp only [ImportDecl.sites, hstatic, Bool.false_eq_true, if_false, covers_qualifiedName] at h
      exact hentry.insert (.inl h)

theorem Distinct.foldl_withImport {b : Binder} (hb : Distinct places b) (imports : List ImportDecl)
    (h : Covers places (imports.flatMap ImportDecl.sites)) :
    Distinct places (imports.foldl Binder.withImport b) := by
  induction imports generalizing b with
  | nil => exact hb
  | cons i is ih =>
    simp only [List.flatMap_cons, covers_append] at h
    exact ih (hb.withImport h.1) h.2

/-- Each pass over a file leaves names distinct. -/
theorem resolveUnit_stays (unit : CompilationUnit) (h : Covers places unit.sites) :
    Stays (Distinct places) (resolveUnit unit) := by
  intro b hb
  simp only [CompilationUnit.sites, covers_append] at h
  obtain ⟨⟨hpackage, himports⟩, htypes⟩ := h
  have hstart : Distinct places (afterPackage unit b) := by
    unfold afterPackage
    cases hunit : unit.package with
    | none => exact hb
    | some package =>
      rw [hunit] at hpackage
      have hmarks := hpackage.known (annotationStand package.annotations)
      exact resolveAnnotations_holds (keeping places) package.annotations hmarks
        (Region.allMeet_of_forall (fun _ => trivial) _) b hb
  rw [resolveUnit_eq]
  exact passes_holds (keeping places) unit.types (htypes.known (declStand unit.types))
    (Region.allMeet_of_forall (fun _ => trivial) _) _ (hstart.foldl_withImport unit.imports himports)

end Binder

namespace Resolution

variable {places : Binder.Places} {unit : CompilationUnit} {o o' : Nat} {id : BindingId}

theorem distinct_ofUnit (h : Binder.Covers places unit.sites) :
    Binder.Distinct places (Binder.resolveUnit unit
      (Binder.start (unit.package.map fun p => p.name.toDotted))).2 :=
  Binder.resolveUnit_stays unit h _ (Binder.distinct_start places _)

/-- Names that no site of a file uses are bound to different things. -/
theorem boundAt?_injective (h : Binder.Covers places unit.sites) (ho : ¬ places.used o)
    (ho' : ¬ places.used o') (hid : (ofUnit unit).boundAt? o = some id)
    (hid' : (ofUnit unit).boundAt? o' = some id) : o = o' :=
  (distinct_ofUnit h).injective o o' id ho ho' hid hid'

/-- Nothing is bound but the names at sites. -/
theorem named_of_boundAt? (h : Binder.Covers places unit.sites)
    (hid : (ofUnit unit).boundAt? o = some id) : places.used o ∨ places.declared o :=
  (distinct_ofUnit h).named o id hid

end Resolution

end JavaAnalysis
