import JavaAnalysis.Proofs.Resolve.Bodies
import JavaAnalysis.Proofs.Resolve.Imports

/-!
# Names that cannot be missing

A type that is declared at the top level of a file or imported by its name is entered before the
members and the bodies of types are walked through, and stays entered. So a simple name that is
entered is never reported as missing there. The annotations of the package come before anything is
entered: what is reported of their names is told apart by where they stand.
Main statement: `Resolution.blames_of_mem`.
-/

set_option autoImplicit false
set_option linter.dupNamespace false

namespace JavaAnalysis

open Ast

namespace Ast

/-- The file declares a type of the name at its top level, or imports one by that name. -/
def CompilationUnit.Enters (unit : CompilationUnit) (name : String) : Prop :=
  (∃ decl ∈ unit.types, decl.name.text = name) ∨
    ∃ decl ∈ unit.imports, decl.isStatic = false ∧ decl.onDemand = false ∧
      decl.name.segments.getLast?.map Ident.text = some name

instance (unit : CompilationUnit) (name : String) : Decidable (unit.Enters name) :=
  inferInstanceAs (Decidable (_ ∨ _))

end Ast

namespace Binder

variable {entered : String → Prop} {blamed known : Mention → Prop} {b : Binder} {name : String}
  {e : ImportEntry} {imports imports' : List ImportEntry} {α : Type}

/-- The import brings a single type of the name. -/
def ImportsSingle (name : String) (e : ImportEntry) : Prop :=
  e.isStatic = false ∧ e.simple = some name

/-- The name is that of a type at the top level of the file, or of an imported one. -/
def Entered (name : String) (b : Binder) : Prop :=
  (b.topLevel.lookup name).isSome = true ∨ ∃ e ∈ b.imports, ImportsSingle name e

/-- Marked imports bring what they brought before. -/
theorem Marks.importsSingle (h : Marks imports imports')
    (hsingle : ∃ e ∈ imports, ImportsSingle name e) : ∃ e ∈ imports', ImportsSingle name e := by
  obtain ⟨e, he, hname⟩ := hsingle
  obtain ⟨i, hi⟩ := List.getElem?_of_mem he
  obtain ⟨hlt, rfl⟩ := List.getElem?_eq_some_iff.1 hi
  have hlt' : i < imports'.length := by rwa [h.length_eq]
  refine ⟨imports'[i], List.getElem_mem hlt', ?_⟩
  rcases h.get hlt hlt' with hsame | hmarked
  · rw [List.get_eq_getElem, List.get_eq_getElem] at hsame
    rwa [hsame]
  · rw [List.get_eq_getElem, List.get_eq_getElem] at hmarked
    rw [hmarked]
    exact hname

theorem Entered.mark (h : Entered name b) (hmarks : Marks b.imports imports) :
    Entered name { b with imports } := h.imp_right hmarks.importsSingle

/-! ## Looking a name up -/

theorem singleTarget?_ne_missing (name : String) (e : ImportEntry) :
    singleTarget? name e ≠ some .missing := by
  unfold singleTarget?
  split
  · cases e.target with
    | none => simp [Lookup.ofOption]
    | some id => simp [Lookup.ofOption]
  · simp

/-- A name that is entered is found, or it was imported from where it cannot be seen. -/
theorem lookupType_ne_missing (h : Entered name b) : (lookupType name b).1 ≠ .missing := by
  unfold lookupType
  simp only [get_bind_apply, singleImport?_eq]
  cases b.scopes.findSome? (b.typeIn? name) with
  | some id =>
    intro hmissing
    cases hmissing
  | none =>
  cases htop : b.topLevel.lookup name with
  | some id =>
    intro hmissing
    cases hmissing
  | none =>
  have hsingle := h.resolve_left (by rw [htop]; exact Bool.false_ne_true)
  obtain ⟨e, he, hstatic, hsimple⟩ := hsingle
  have hdecide : (singleTarget? name e).isSome = true := by simp [singleTarget?, hstatic, hsimple]
  obtain ⟨found, hfound⟩ := markFirst_of_decides he hdecide
  obtain ⟨e', -, hfirst⟩ := decides_of_markFirst hfound
  rw [hfound]
  intro hmissing
  exact singleTarget?_ne_missing name e' (hfirst.trans (congrArg some hmissing))

/-! ## The walk -/

/-- What the walk reports: that a mention is blamed for what is missing, or another remark. -/
def Blames (blamed : Mention → Prop) (p : Problem) : Prop :=
  p.id.IsRemark ∨ p.id.IsUnresolved ∧ ∃ m, blamed m ∧ p.range = m.range

/-- The names are entered, and the problems so far blame mentions that may be blamed. -/
structure Fair (entered : String → Prop) (blamed : Mention → Prop) (b : Binder) : Prop where
  entered : ∀ name, entered name → Entered name b
  blames : ∀ p ∈ b.problems, Blames blamed p

theorem Fair.mark (h : Fair entered blamed b) (hmarks : Marks b.imports imports) :
    Fair entered blamed { b with imports } :=
  ⟨fun name hname => (h.entered name hname).mark hmarks, h.blames⟩

theorem Fair.report (h : Fair entered blamed b) {p : Problem} (hp : Blames blamed p) :
    Fair entered blamed { b with problems := p :: b.problems } :=
  ⟨h.entered, List.forall_mem_cons.2 ⟨hp, h.blames⟩⟩

/-- That no name which is entered is blamed goes by the parts of the walk. -/
def fairness (hblamed : ∀ m, known m → (∀ name, m.unqualified? = some name → ¬ entered name) →
    blamed m) : Discipline known where
  Answers name lookup := entered name → lookup ≠ .missing
  Demands _ := True
  Holds := Stays (Fair entered blamed)
  pure := .pure
  bind := .bind
  get _ := .get
  inScope kind h := .inScope (fun _ _ hb => ⟨hb.1, hb.2⟩) h kind
  lookupType name h := .lookupType (fun _ _ hmarks hb => hb.mark hmarks) name fun _ hb =>
    h _ fun hname => lookupType_ne_missing (hb.entered name hname)
  lookupImported name p := .lookupImported (fun _ _ hmarks hb => hb.mark hmarks) name p
  refer id _ _ := .bind (fun _ hb => ⟨hb.1, hb.2⟩) fun _ =>
    .markUsed (fun _ _ hb => ⟨hb.1, hb.2⟩) id
  pass _ _ _ := fun _ hb => ⟨hb.1, hb.2⟩
  declare _ hf := fun b hb => hf _ _ ⟨hb.1, hb.2⟩
  allocate _ _ := fun _ hb => ⟨hb.1, hb.2⟩
  complete _ _ _ := fun _ hb => ⟨hb.1, hb.2⟩
  enter name id _ := .enter (fun _ _ hb => ⟨hb.1, hb.2⟩) name id
  addTopLevel name id := by
    intro b hb
    refine ⟨fun n hn => (hb.entered n hn).imp_left fun hfound => ?_, hb.blames⟩
    show ((b.topLevel ++ [(name, id)]).lookup n).isSome = true
    rw [List.lookup_append, Option.isSome_or, hfound, Bool.true_or]
  markOpen _ := fun _ hb => ⟨hb.1, hb.2⟩
  markUntyped _ := fun _ hb => ⟨hb.1, hb.2⟩
  report {m id} category message _ hid hm hanswers := by
    intro b hb
    have hfree : blamed m :=
      hblamed m hm fun name hname hentered => hanswers name hname hentered rfl
    exact hb.report (.inr ⟨hid, m, hfree, rfl⟩)
  remark category message range hid _ := fun b hb => hb.report (.inl hid)

/-! ## Names that are entered -/

theorem isSome_lookup_of_mem {entries : List (String × BindingId)}
    (h : name ∈ entries.map Prod.fst) : (entries.lookup name).isSome = true := by
  induction entries with
  | nil => cases h
  | cons entry entries ih =>
    obtain ⟨key, id⟩ := entry
    rw [List.lookup_cons]
    by_cases hname : name = key
    · rw [beq_iff_eq.2 hname]
      rfl
    · rw [beq_false_of_ne hname]
      exact ih ((List.mem_cons.1 h).resolve_left hname)

/-- Of the types that are declared, those without an owner are added at the top level. -/
structure Adds (names : List String) (b b' : Binder) : Prop where
  problems_eq : b'.problems = b.problems
  imports_eq : b'.imports = b.imports
  topLevel_eq : b'.topLevel.map Prod.fst = b.topLevel.map Prod.fst ++ names

namespace Adds

variable {names more : List String} {b' b'' : Binder}

theorem refl (b : Binder) : Adds [] b b := ⟨rfl, rfl, (List.append_nil _).symm⟩

theorem trans (h : Adds names b b') (h' : Adds more b' b'') : Adds (names ++ more) b b'' where
  problems_eq := h'.problems_eq.trans h.problems_eq
  imports_eq := h'.imports_eq.trans h.imports_eq
  topLevel_eq := by rw [h'.topLevel_eq, h.topLevel_eq, List.append_assoc]

theorem mem (h : Adds names b b') (hname : name ∈ names) :
    (b'.topLevel.lookup name).isSome = true := by
  apply isSome_lookup_of_mem
  rw [h.topLevel_eq]
  exact List.mem_append_right _ hname

end Adds

theorem declareTypeName_adds (owner : Option BindingId) (kind : TypeDeclKind)
    (modifiers : List Modifier) (name : Ident) (b : Binder) :
    Adds (if owner.isNone then [name.text] else []) b
      (declareTypeName owner kind modifiers name b).2 := by
  cases owner with
  | none => exact ⟨rfl, rfl, List.map_append⟩
  | some owner => exact ⟨rfl, rfl, (List.append_nil _).symm⟩

mutual

theorem declareType_adds : ∀ (decl : TypeDecl) (owner : Option BindingId) (b : Binder),
    Adds (if owner.isNone then [decl.name.text] else []) b (declareType owner decl b).2
  | .mk _ kind modifiers name _ _ _ _ _ _ _ (.mk _ _ members), owner, b => by
    have hname := declareTypeName_adds owner kind modifiers name b
    have hmembers := declareTypesIn_adds members (declareTypeName owner kind modifiers name b).1
      (declareTypeName owner kind modifiers name b).2
    have hboth := hname.trans hmembers
    rwa [List.append_nil] at hboth

theorem declareTypesIn_adds : ∀ (members : List Member) (owner : BindingId) (b : Binder),
    Adds [] b (declareTypesIn owner members b).2
  | [], _, b => .refl b
  | .type decl :: members, owner, b =>
    (declareType_adds decl (some owner) b).trans (declareTypesIn_adds members owner _)
  | .field _ :: members, owner, b => declareTypesIn_adds members owner b
  | .method _ :: members, owner, b => declareTypesIn_adds members owner b
  | .initializer _ _ _ :: members, owner, b => declareTypesIn_adds members owner b

end

theorem declareTypes_adds (decls : List TypeDecl) (b : Binder) :
    Adds (decls.map fun decl => decl.name.text) b (declareTypes decls b).2 := by
  induction decls generalizing b with
  | nil => exact .refl b
  | cons decl decls ih => exact (declareType_adds decl none b).trans (ih _)

theorem problems_foldl_withImport (decls : List ImportDecl) (b : Binder) :
    (decls.foldl withImport b).problems = b.problems := by
  induction decls generalizing b with
  | nil => rfl
  | cons decl decls ih => exact ih _

/-- What an import brings does not depend on the imports before it. -/
theorem importsSingle_foldl_withImport {decls : List ImportDecl} {b : Binder}
    (h : (∃ e ∈ b.imports, ImportsSingle name e) ∨
      ∃ decl ∈ decls, ImportsSingle name (b.importEntry decl)) :
    ∃ e ∈ (decls.foldl withImport b).imports, ImportsSingle name e := by
  induction decls generalizing b with
  | nil => exact h.resolve_right (by simp)
  | cons decl decls ih =>
    have himports : (b.withImport decl).imports = b.imports ++ [b.importEntry decl] := rfl
    refine ih ?_
    rcases h with ⟨e, he, hname⟩ | ⟨d, hd, hname⟩
    · exact .inl ⟨e, by rw [himports]; exact List.mem_append_left _ he, hname⟩
    · rcases List.mem_cons.1 hd with rfl | hrest
      · exact .inl ⟨_, by rw [himports]; exact List.mem_append_right _ List.mem_cons_self, hname⟩
      · exact .inr ⟨d, hrest, hname⟩

theorem importsSingle_importEntry {decl : ImportDecl} (b : Binder) (hstatic : decl.isStatic = false)
    (hdemand : decl.onDemand = false)
    (hname : decl.name.segments.getLast?.map Ident.text = some name) :
    ImportsSingle name (b.importEntry decl) := by
  refine ⟨hstatic, ?_⟩
  unfold importEntry
  simp only [hdemand, hname, Bool.false_eq_true, if_false]

/-- Before members are declared, the top level of the file and its imports are entered. -/
theorem entered_of_enters {unit : CompilationUnit} (h : unit.Enters name) (b : Binder) :
    Entered name (declareTypes unit.types (unit.imports.foldl withImport b)).2 := by
  have hadds := declareTypes_adds unit.types (unit.imports.foldl withImport b)
  rcases h with ⟨decl, hdecl, rfl⟩ | ⟨decl, hdecl, hstatic, hdemand, hname⟩
  · exact .inl (hadds.mem (List.mem_map_of_mem hdecl))
  · refine .inr ?_
    rw [hadds.imports_eq]
    exact importsSingle_foldl_withImport
      (.inr ⟨decl, hdecl, importsSingle_importEntry b hstatic hdemand hname⟩)

end Binder

/-- Where it may be reported that something is missing: never at a simple name that is entered. -/
def Ast.CompilationUnit.Blamed (unit : CompilationUnit) (m : Mention) : Prop :=
  m ∈ unit.packageMentions ∨
    m ∈ declMentions unit.types ∧ ∀ name, m.unqualified? = some name → ¬ unit.Enters name

namespace Binder

/-- The walk through a file blames nothing that is entered, the annotations of its package aside. -/
theorem fair_resolveUnit (unit : CompilationUnit) (package : Option String) :
    Fair unit.Enters unit.Blamed (resolveUnit unit (start package)).2 := by
  have hstart : Fair (fun _ => False) unit.Blamed (start package) := by
    refine ⟨fun name hname => hname.elim, fun p hp => ?_⟩
    cases hp
  have hpackage : Fair (fun _ => False) unit.Blamed (afterPackage unit (start package)) := by
    unfold afterPackage
    split
    · rename_i decl hdecl
      have hnames : Known (· ∈ unit.packageMentions) (annotationMentions decl.annotations) := by
        simp [Known, CompilationUnit.packageMentions, hdecl]
      exact resolveAnnotations_holds (fairness fun m hm _ => .inl hm) decl.annotations hnames
        (Region.allMeet_of_forall (fun _ => trivial) _) _ hstart
    · exact hstart
  have hdeclared : Fair unit.Enters unit.Blamed (declareTypes unit.types
      (unit.imports.foldl withImport (afterPackage unit (start package)))).2 := by
    refine ⟨fun name hname => entered_of_enters hname _, ?_⟩
    rw [(declareTypes_adds _ _).problems_eq, problems_foldl_withImport]
    exact hpackage.blames
  have hnames : Known (· ∈ declMentions unit.types) (declMentions unit.types) := fun _ hm => hm
  have hblamed : ∀ m ∈ declMentions unit.types,
      (∀ name, m.unqualified? = some name → ¬ unit.Enters name) → unit.Blamed m :=
    fun m hm hfree => .inr ⟨hm, hfree⟩
  let d : Discipline (· ∈ declMentions unit.types) := fairness hblamed
  have hdemands : Region.AllMeet d.Demands (unit.types.map TypeDecl.region) :=
    Region.allMeet_of_forall (fun _ => trivial) _
  have hmembers := declareAllMembers_holds d unit.types hnames hdemands _ hdeclared
  have hbodies := resolveTypeBodies_holds d unit.types hnames hdemands _ hmembers
  rw [resolveUnit_eq]
  exact hbodies

end Binder

/--
What is missing is reported at the names of the file only: in an annotation of the package, or at a
name that is selected from another or that the file neither declares at its top level nor imports.
-/
theorem Resolution.blames_of_mem {unit : CompilationUnit} {p : Problem}
    (hp : p ∈ (ofUnit unit).problems) : Binder.Blames unit.Blamed p :=
  (Binder.fair_resolveUnit unit _).blames p (List.mem_reverse.1 hp)

end JavaAnalysis
