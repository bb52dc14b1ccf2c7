import JavaAnalysis.Proofs.Resolve.Bodies
import JavaAnalysis.Proofs.Resolve.Imports

/-!
# Walks without an import

Two walks are compared, one of which lacks an import. `Forgoes` says of a step that the two come out
the same, and leave places that differ in nothing else, unless the step marks the import as used.
It goes by the parts of the walk, so a file whose import is never marked is bound the same without
it. The name of the import itself is bound in one walk only; no other name stands there.
-/

set_option autoImplicit false
set_option linter.dupNamespace false

namespace JavaAnalysis

open Ast

/-- The file without one of its imports. -/
def Ast.CompilationUnit.withoutImport (unit : CompilationUnit) (i : Nat) : CompilationUnit :=
  { unit with imports := unit.imports.eraseIdx i }

namespace Binder

variable {i : Nat} {hidden : Nat → Prop} {b b' : Binder} {α β : Type}

/--
The second place lacks the import that the first one has at the index; what names are bound to may
differ where they are hidden.
-/
structure Without (i : Nat) (hidden : Nat → Prop) (b b' : Binder) : Prop where
  eq : b' = { b with imports := b.imports.eraseIdx i, bound := b'.bound }
  boundAt?_eq : ∀ o, ¬ hidden o → b'.boundAt? o = b.boundAt? o

/--
From a place with the imports, the first outcome marks some of them; if the one at the index is not
marked, the second outcome is the same without it.
-/
structure Agree (i : Nat) (hidden : Nat → Prop) (imports : List ImportEntry)
    (r r' : α × Binder) : Prop where
  marks : Marks imports r.2.imports
  same : ¬ NeededAt r.2.imports i → r'.1 = r.1 ∧ Without i hidden r.2 r'.2

/-- The step comes out the same without the import, unless it marks it as used. -/
def Forgoes (i : Nat) (hidden : Nat → Prop) (x : Binding.Walk α) : Prop :=
  ∀ b b', Without i hidden b b' → Agree i hidden b.imports (x b) (x b')

namespace Without

/-- Of any place there is one without the import. -/
theorem leave (i : Nat) (hidden : Nat → Prop) (b : Binder) :
    Without i hidden b { b with imports := b.imports.eraseIdx i } := ⟨rfl, fun _ _ => rfl⟩

variable (h : Without i hidden b b')

include h

theorem imports_eq : b'.imports = b.imports.eraseIdx i := by rw [h.eq]

/-- Names that are not hidden are bound to the same, and all but the imports is the same. -/
theorem toMatches : Matches (fun m => ¬ hidden m.offset) b b' where
  eq := by rw [h.eq]
  boundAt?_eq m hm := h.boundAt?_eq m.offset hm

/-- What depends neither on the imports nor on what is bound comes out the same. -/
theorem blind_eq (f : Binder → α) (hf : ∀ b imports bound, f { b with imports, bound } = f b) :
    f b' = f b := Respects.of_blind hf b b' h.toMatches

end Without

/-- What is done changes neither what is imported nor what is bound, and does not depend on it. -/
def Aside (f : Binder → Binder) : Prop :=
  ∀ b imports bound, f { b with imports, bound } = { f b with imports, bound }

theorem Aside.self {f : Binder → Binder} (hf : Aside f) (b : Binder) :
    f b = { f b with imports := b.imports, bound := b.bound } := hf b b.imports b.bound

theorem Aside.imports_eq {f : Binder → Binder} (hf : Aside f) (b : Binder) :
    (f b).imports = b.imports := by rw [hf.self]

theorem Aside.bound_eq {f : Binder → Binder} (hf : Aside f) (b : Binder) :
    (f b).bound = b.bound := by rw [hf.self]

namespace Without

variable (h : Without i hidden b b')

include h

/-- Both places may change in what is neither imported nor bound. -/
theorem change {f : Binder → Binder} (hf : Aside f) : Without i hidden (f b) (f b') := by
  have heq : f b' = { f b with imports := b.imports.eraseIdx i, bound := b'.bound } := by
    rw [h.eq]
    exact hf _ _ _
  refine ⟨by rw [heq, hf.imports_eq], fun o ho => ?_⟩
  have hat := h.boundAt?_eq o ho
  rw [heq]
  show b'.bound[o]? = (f b).bound[o]?
  rw [hf.bound_eq]
  exact hat

/-- The same imports may be marked in both. -/
theorem mark (imports : List ImportEntry) :
    Without i hidden { b with imports } { b' with imports := imports.eraseIdx i } :=
  ⟨by rw [h.eq], h.boundAt?_eq⟩

/-- A name may be bound to the same in both. -/
theorem insert (offset : Nat) (id : BindingId) :
    Without i hidden { b with bound := b.bound.insert offset id }
      { b' with bound := b'.bound.insert offset id } := by
  refine ⟨by rw [h.eq], fun o ho => ?_⟩
  have hat := h.boundAt?_eq o ho
  simp only [boundAt?, Std.TreeMap.getElem?_insert] at hat ⊢
  rw [hat]

end Without

/-! ## Steps -/

theorem Agree.stay (h : Without i hidden b b') (a : α) :
    Agree i hidden b.imports (a, b) (a, b') := ⟨.refl _, fun _ => ⟨rfl, h⟩⟩

theorem Agree.mark {imports : List ImportEntry} (h : Without i hidden b b')
    (hmarks : Marks b.imports imports) (a : α) : Agree i hidden b.imports (a, { b with imports })
      (a, { b' with imports := imports.eraseIdx i }) := ⟨hmarks, fun _ => ⟨rfl, h.mark imports⟩⟩

/-- What the second walk does matters only if the import is not marked. -/
theorem Agree.of_unneeded {imports : List ImportEntry} {r r' : α × Binder}
    (hmarks : Marks imports r.2.imports)
    (h : ¬ NeededAt r.2.imports i → Agree i hidden imports r r') : Agree i hidden imports r r' :=
  ⟨hmarks, fun hi => (h hi).same hi⟩

namespace Forgoes

variable {x : Binding.Walk α} {f : α → Binding.Walk β}

theorem pure (a : α) : Forgoes i hidden (Pure.pure a : Binding.Walk α) := fun _ _ h => .stay h a

theorem bind (hx : Forgoes i hidden x) (hf : ∀ a, Forgoes i hidden (f a)) :
    Forgoes i hidden (x >>= f) := by
  intro b b' h
  have hfirst := hx b b' h
  -- What is marked in the second part shows already in the walk that has the import.
  have hrest := hf (x b).1 (x b).2
  have hmarks := (hrest _ (.leave i hidden _)).marks
  refine ⟨hfirst.marks.trans hmarks, fun hi => ?_⟩
  obtain ⟨hvalue, hplace⟩ := hfirst.same fun hneeded => hi (hmarks.neededAt hneeded)
  have hsecond := (hrest _ hplace).same hi
  show (f (x b').1 (x b').2).1 = _ ∧ Without i hidden _ (f (x b').1 (x b').2).2
  rw [hvalue]
  exact hsecond

theorem get {f : Binder → Binding.Walk α} (hf : Respects (fun m => ¬ hidden m.offset) f)
    (h : ∀ b, Forgoes i hidden (f b)) : Forgoes i hidden (MonadState.get >>= f) := by
  intro b b' hb
  show Agree i hidden b.imports (f b b) (f b' b')
  rw [hf b b' hb.toMatches]
  exact h b b b' hb

/-- A step that changes neither what is imported nor what is bound. -/
theorem modify {f : Binder → Binder} (hf : Aside f) :
    Forgoes i hidden (modify f : Binding.Walk PUnit) := by
  intro b b' h
  refine ⟨?_, fun _ => ⟨rfl, h.change hf⟩⟩
  show Marks b.imports (f b).imports
  rw [hf.imports_eq]
  exact .refl _

theorem inScope (kind : ScopeKind) (hx : Forgoes i hidden x) :
    Forgoes i hidden (Binder.inScope kind x) := by
  intro b b' h
  have hopen : Aside fun b => { b with scopes := ⟨kind, []⟩ :: b.scopes } := fun _ _ _ => rfl
  have hscopes : b'.scopes = b.scopes := h.blind_eq Binder.scopes fun _ _ _ => rfl
  have hclose : ∀ c c', Without i hidden c c' →
      Without i hidden { c with scopes := b.scopes } { c' with scopes := b'.scopes } := by
    intro c c' hc
    rw [hscopes]
    have hrestore : Aside fun c => { c with scopes := b.scopes } := fun _ _ _ => rfl
    exact hc.change hrestore
  have hinside := hx _ _ (h.change hopen)
  refine ⟨hinside.marks, fun hi => ?_⟩
  obtain ⟨hvalue, hplace⟩ := hinside.same hi
  exact ⟨hvalue, hclose _ _ hplace⟩

theorem insert (offset : Nat) (id : BindingId) : Forgoes i hidden (Binder.bind offset id) :=
  fun _ _ h => ⟨.refl _, fun _ => ⟨rfl, h.insert offset id⟩⟩

theorem allocate (data : Binding) : Forgoes i hidden (Binder.allocate data) := by
  intro b b' h
  refine ⟨.refl _, fun _ => ⟨?_, ?_⟩⟩
  · exact h.blind_eq (fun b => b.bindings.nextId) fun _ _ _ => rfl
  · have hpush : Aside fun b => { b with bindings := b.bindings.push data } := fun _ _ _ => rfl
    exact h.change hpush

end Forgoes

/-! ## Lookups -/

/-- What is found by marking an import is found by marking the same one without an unmarked one. -/
theorem Agree.markFirst {γ : Type} {decide : ImportEntry → Option γ} {r r' : α × Binder}
    (h : Without i hidden b b') {found : γ × List ImportEntry}
    (hfound : markFirst decide b.imports = some found) (a : α)
    (hr : r = (a, { b with imports := found.2 }))
    (hr' : Binder.markFirst decide (b.imports.eraseIdx i) = some (found.1, found.2.eraseIdx i) →
      r' = (a, { b' with imports := found.2.eraseIdx i })) :
    Agree i hidden b.imports r r' := by
  subst hr
  refine .of_unneeded (markFirst_marks hfound) fun hi => ?_
  have herased := markFirst_eraseIdx fun found' hfound' => by
    rw [hfound, Option.some.injEq] at hfound'
    rwa [← hfound']
  rw [hfound] at herased
  rw [hr' herased]
  exact .mark h (markFirst_marks hfound) a

theorem lookupType_forgoes (name : String) : Forgoes i hidden (lookupType name) := by
  intro b b' h
  have hscopes := h.blind_eq (fun b => b.scopes.findSome? (b.typeIn? name)) fun _ _ _ => rfl
  have htop := h.blind_eq (fun b => b.topLevel.lookup name) fun _ _ _ => rfl
  have hbuiltIn := h.blind_eq (fun b => b.builtIn?) fun _ _ _ => rfl
  have hdemand := h.blind_eq (fun b => b.demandTarget? name) fun _ _ _ => rfl
  have hunknown := h.blind_eq (fun b => b.isUnknownPackage) fun _ _ _ => rfl
  have hopen := h.blind_eq (fun b => b.inOpenType) fun _ _ _ => rfl
  unfold lookupType
  simp only [get_bind_apply, onDemandImport?_eq, singleImport?_eq, h.imports_eq] at *
  rw [hscopes]
  cases b.scopes.findSome? (b.typeIn? name) with
  | some id => exact .stay h _
  | none =>
  dsimp only
  rw [htop]
  cases b.topLevel.lookup name with
  | some id => exact .stay h _
  | none =>
  dsimp only
  cases hsingle : markFirst (singleTarget? name) b.imports with
  | some found => exact .markFirst h hsingle found.1 rfl fun herased => by rw [herased]; rfl
  | none =>
  rw [markFirst_eraseIdx (by simp [hsingle]), hsingle]
  dsimp only [Option.map_none]
  rw [hbuiltIn]
  cases b.builtIn? ("java.lang." ++ name) with
  | some id => exact .stay h _
  | none =>
  dsimp only
  rw [hdemand]
  cases hfound : markFirst (b.demandTarget? name) b.imports with
  | some found => exact .markFirst h hfound (.found found.1) rfl fun herased => by rw [herased]; rfl
  | none =>
  rw [markFirst_eraseIdx (by simp [hfound]), hfound]
  dsimp only [Option.map_none]
  rw [hunknown, hopen]
  cases hany : b.imports.any b.isUnknownPackage with
  | false =>
    rw [any_isUnknownPackage_eraseIdx b (by simp [hany]), hany]
    exact .stay h _
  | true =>
    have hmarks := markUnknownPackages_marks b.imports
    refine .of_unneeded hmarks fun hi => ?_
    rw [any_isUnknownPackage_eraseIdx b fun _ => hi, hany, markUnknownPackages_eraseIdx]
    exact .mark h hmarks Lookup.unknown

theorem lookupImported_forgoes (name : String) (p : Binding → Bool) :
    Forgoes i hidden (lookupImported name p) := by
  intro b b' h
  have hstatic : staticImport b'.bindings name p b'.imports =
      staticImport b.bindings name p (b.imports.eraseIdx i) := by rw [h.eq]
  have hopen := h.blind_eq (fun b => b.inOpenType) fun _ _ _ => rfl
  have hmarks := staticImport_marks b.bindings name p b.imports
  unfold lookupImported
  simp only [get_bind_apply, hstatic, hopen]
  refine .of_unneeded hmarks fun hi => ?_
  rw [staticImport_eraseIdx hi]
  exact .mark h hmarks _

/-! ## The walk -/

/-- That an unmarked import can be left out goes by the parts of the walk. -/
def forgoing (i : Nat) (hidden : Nat → Prop) : Discipline fun m => ¬ hidden m.offset where
  Answers _ _ := True
  Demands _ := True
  Holds := Forgoes i hidden
  pure := .pure
  bind := .bind
  get := .get
  inScope := .inScope
  lookupType name h := (lookupType_forgoes name).bind fun lookup => h lookup trivial
  lookupImported := lookupImported_forgoes
  refer id _ _ := (Forgoes.insert _ id).bind fun _ => .modify fun b _ _ => by
    show (if _ then _ else _) = _
    dsimp only
    split <;> rfl
  pass id _ _ := .insert _ id
  declare _ hf := (Forgoes.allocate _).bind fun id => (Forgoes.insert _ id).bind fun _ => hf id
  allocate data _ := .allocate data
  complete _ _ _ := .modify fun _ _ _ => rfl
  enter name id _ := .modify fun b _ _ => by
    dsimp only
    split <;> rfl
  addTopLevel _ _ := .modify fun _ _ _ => rfl
  markOpen _ := .modify fun _ _ _ => rfl
  markUntyped _ := .modify fun _ _ _ => rfl
  report _ _ _ _ _ _ := .modify fun _ _ _ => rfl
  remark _ _ _ _ _ := .modify fun _ _ _ => rfl

/-! ## Imports that are declared -/

/-- The name of an import that is bound is hidden. -/
def Hides (hidden : Nat → Prop) (decl : ImportDecl) : Prop :=
  decl.isStatic = false → hidden decl.name.range.start

theorem Without.withImport (h : Without i hidden b b') (hi : i < b.imports.length)
    (decl : ImportDecl) : Without i hidden (b.withImport decl) (b'.withImport decl) := by
  have htarget := h.blind_eq (fun b => b.importTarget decl) fun _ _ _ => rfl
  have hentry := h.blind_eq (fun b => b.importEntry decl) fun _ _ _ => rfl
  have himports : (b.imports ++ [b.importEntry decl]).eraseIdx i =
      b'.imports ++ [b'.importEntry decl] := by
    rw [List.eraseIdx_append_of_lt_length hi, h.imports_eq, hentry]
  have hadded : Without i hidden { b with imports := b.imports ++ [b.importEntry decl] }
      { b' with imports := b'.imports ++ [b'.importEntry decl] } := by
    rw [← himports]
    exact h.mark _
  unfold Binder.withImport
  rw [htarget]
  cases b.importTarget decl with
  | none => exact hadded
  | some id =>
    cases decl.isStatic with
    | true => exact hadded
    | false => exact hadded.insert _ id

/-- A place after an import differs from the one before in that import. -/
theorem without_withImport (b : Binder) {decl : ImportDecl} (h : Hides hidden decl) :
    Without b.imports.length hidden (b.withImport decl) b := by
  have himports : (b.imports ++ [b.importEntry decl]).eraseIdx b.imports.length = b.imports := by
    simp [List.eraseIdx_append_of_length_le]
  refine ⟨?_, fun o ho => ?_⟩
  · unfold Binder.withImport
    rw [himports]
  · unfold Binder.withImport
    cases b.importTarget decl with
    | none => rfl
    | some id =>
      cases hstatic : decl.isStatic with
      | true => rfl
      | false =>
        have hne : decl.name.range.start ≠ o := fun heq => ho (heq ▸ h hstatic)
        simp [boundAt?, Std.TreeMap.getElem?_insert, hne]

theorem Without.foldl_withImport (decls : List ImportDecl) (h : Without i hidden b b')
    (hi : i < b.imports.length) :
    Without i hidden (decls.foldl Binder.withImport b) (decls.foldl Binder.withImport b') := by
  induction decls generalizing b b' with
  | nil => exact h
  | cons decl decls ih =>
    refine ih (h.withImport hi decl) ?_
    rw [length_withImport]
    omega

/-- One of several imports may be left out. -/
theorem without_foldl_withImport {decls : List ImportDecl} {j : Nat} {decl : ImportDecl}
    (hdecl : decls[j]? = some decl) (h : Hides hidden decl) (b : Binder) :
    Without (b.imports.length + j) hidden (decls.foldl withImport b)
      ((decls.eraseIdx j).foldl withImport b) := by
  induction decls generalizing b j with
  | nil => cases hdecl
  | cons d decls ih =>
    cases j with
    | zero =>
      cases hdecl
      refine Without.foldl_withImport decls (without_withImport b h) ?_
      rw [length_withImport]
      omega
    | succ j =>
      have hrest := ih hdecl (b.withImport d)
      rwa [length_withImport, Nat.add_right_comm] at hrest

/-! ## Files -/

/-- Before the imports are declared, there are none. -/
theorem imports_afterPackage (unit : CompilationUnit) (package : Option String) :
    (afterPackage unit (start package)).imports = [] := by
  unfold afterPackage
  split
  · rename_i decl _
    have hmarks := resolveAnnotations_holds (forgoing 0 fun _ => False) decl.annotations
      (fun _ _ => not_false) (Region.allMeet_of_forall (fun _ => trivial) _) (start package) _
      (.leave _ _ _)
    exact List.length_eq_zero_iff.1 hmarks.marks.length_eq
  · rfl

/-- A file of which an import is never marked is bound the same without it. -/
theorem resolveUnit_without {unit : CompilationUnit} {decl : ImportDecl}
    (hdecl : unit.imports[i]? = some decl) (hhides : Hides hidden decl)
    (hnames : Known (fun m => ¬ hidden m.offset) (declMentions unit.types))
    {package : Option String}
    (hi : ¬ NeededAt (resolveUnit unit (start package)).2.imports i) :
    Without i hidden (resolveUnit unit (start package)).2
      (resolveUnit (unit.withoutImport i) (start package)).2 := by
  have hempty := imports_afterPackage unit package
  have hdeclared := without_foldl_withImport hdecl hhides (afterPackage unit (start package))
  rw [hempty, List.length_nil, Nat.zero_add] at hdeclared
  have hpasses := passes_holds (forgoing i hidden) unit.types hnames
    (Region.allMeet_of_forall (fun _ => trivial) _) _ _ hdeclared
  rw [resolveUnit_eq] at hi
  rw [resolveUnit_eq, resolveUnit_eq]
  exact (hpasses.same hi).2

/-- All imports of a file stay in their places. -/
theorem length_imports_resolveUnit (unit : CompilationUnit) (package : Option String) :
    (resolveUnit unit (start package)).2.imports.length = unit.imports.length := by
  have hpasses := passes_holds (forgoing 0 fun _ => False) unit.types (fun _ _ => not_false)
    (Region.allMeet_of_forall (fun _ => trivial) _)
    (unit.imports.foldl withImport (afterPackage unit (start package))) _ (.leave _ _ _)
  rw [resolveUnit_eq, hpasses.marks.length_eq, length_foldl_withImport, imports_afterPackage,
    List.length_nil, Nat.zero_add]

end Binder

namespace Resolution

/-- What a file is bound to does not depend on an import that no name needs. -/
theorem ofUnit_withoutImport {unit : CompilationUnit} {i : Nat} {hidden : Nat → Prop}
    {decl : ImportDecl} (hdecl : unit.imports[i]? = some decl) (hhides : Binder.Hides hidden decl)
    (hnames : Binder.Known (fun m => ¬ hidden m.offset) (declMentions unit.types))
    (hused : (ofUnit unit).importsUsed[i]? = some false) :
    (ofUnit (unit.withoutImport i)).bindings = (ofUnit unit).bindings ∧
    (ofUnit (unit.withoutImport i)).problems = (ofUnit unit).problems ∧
    (ofUnit (unit.withoutImport i)).used = (ofUnit unit).used ∧
    (ofUnit (unit.withoutImport i)).importsUsed = (ofUnit unit).importsUsed.eraseIdx i ∧
    ∀ o, ¬ hidden o → (ofUnit (unit.withoutImport i)).boundAt? o = (ofUnit unit).boundAt? o := by
  have hunneeded : ¬ Binder.NeededAt (Binder.resolveUnit unit
      (Binder.start (unit.package.map fun p => p.name.toDotted))).2.imports i := by
    rintro ⟨e, he, hneeded⟩
    have hentry : (ofUnit unit).importsUsed[i]? = some e.used :=
      (List.getElem?_map ..).trans (congrArg (Option.map _) he)
    rw [hused, hneeded] at hentry
    cases hentry
  have hwithout := Binder.resolveUnit_without hdecl hhides hnames hunneeded
  refine ⟨?_, ?_, ?_, ?_, hwithout.boundAt?_eq⟩
  · exact hwithout.blind_eq (fun b => b.bindings) fun _ _ _ => rfl
  · exact hwithout.blind_eq (fun b => b.problems.reverse) fun _ _ _ => rfl
  · exact hwithout.blind_eq (fun b => b.used) fun _ _ _ => rfl
  · exact (congrArg (List.map _) hwithout.imports_eq).trans (List.eraseIdx_map ..).symm

theorem length_importsUsed (unit : CompilationUnit) :
    (ofUnit unit).importsUsed.length = unit.imports.length :=
  (List.length_map _).trans (Binder.length_imports_resolveUnit unit _)

end Resolution

end JavaAnalysis
