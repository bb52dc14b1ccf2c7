import JavaAnalysis.Proofs.Resolve.Discipline
import JavaAnalysis.Proofs.Resolve.Walk
import Mathlib.Data.List.Forall2
import Mathlib.Data.List.InsertIdx

/-!
# Imports that decide nothing

A lookup among the imports comes from the first one that decides it, which is marked as used. So
one that is left unmarked can be taken out of the list: the lookup comes out the same, and marks
the same others.
-/

set_option autoImplicit false
set_option linter.dupNamespace false

namespace JavaAnalysis.Binder

/-- The import at the place is marked as used. -/
def NeededAt (imports : List ImportEntry) (i : Nat) : Prop :=
  ∃ e, imports[i]? = some e ∧ e.used = true

/-- Some of the imports are marked as used, beyond those that are already. -/
def Marks : List ImportEntry → List ImportEntry → Prop :=
  List.Forall₂ fun e e' => e' = e ∨ e' = { e with used := true }

variable {α : Type} {imports imports' imports'' : List ImportEntry} {e : ImportEntry} {i : Nat}

theorem neededAt_zero (h : e.used = true) : NeededAt (e :: imports) 0 := ⟨e, rfl, h⟩

theorem neededAt_succ : NeededAt (e :: imports) (i + 1) ↔ NeededAt imports i := Iff.rfl

namespace Marks

theorem refl : ∀ imports : List ImportEntry, Marks imports imports
  | [] => .nil
  | _ :: es => .cons (.inl rfl) (refl es)

theorem cons (h : Marks imports imports') : Marks (e :: imports) (e :: imports') :=
  List.Forall₂.cons (.inl rfl) h

theorem here (e : ImportEntry) (imports : List ImportEntry) :
    Marks (e :: imports) ({ e with used := true } :: imports) :=
  List.Forall₂.cons (.inr rfl) (refl imports)

theorem trans (h : Marks imports imports') (h' : Marks imports' imports'') :
    Marks imports imports'' := by
  induction h generalizing imports'' with
  | nil => exact h'
  | cons hab _ ih =>
    cases h' with
    | cons hbc hrest =>
      refine List.Forall₂.cons ?_ (ih hrest)
      rcases hab with rfl | rfl
      · exact hbc
      · exact .inr (hbc.elim id id)

theorem length_eq (h : Marks imports imports') : imports'.length = imports.length :=
  (List.Forall₂.length_eq h).symm

/-- What is used stays used. -/
theorem neededAt (h : Marks imports imports') (hi : NeededAt imports i) : NeededAt imports' i := by
  induction h generalizing i with
  | nil => exact hi
  | cons hab _ ih =>
    cases i with
    | zero =>
      obtain ⟨e, he, hused⟩ := hi
      cases he
      rcases hab with rfl | rfl
      · exact neededAt_zero hused
      · exact neededAt_zero rfl
    | succ i => exact neededAt_succ.2 (ih (neededAt_succ.1 hi))

end Marks

/-! ## The first import that decides -/

/-- What the first import decides that decides at all; it is marked as used. -/
def markFirst (decide : ImportEntry → Option α) :
    List ImportEntry → Option (α × List ImportEntry)
  | [] => none
  | e :: es =>
    match decide e with
    | some a => some (a, { e with used := true } :: es)
    | none => (markFirst decide es).map fun found => (found.1, e :: found.2)

theorem markFirst_marks {decide : ImportEntry → Option α} {found : α × List ImportEntry}
    (h : markFirst decide imports = some found) : Marks imports found.2 := by
  induction imports generalizing found with
  | nil => cases h
  | cons e es ih =>
    unfold markFirst at h
    split at h
    · cases h
      exact .here e es
    · obtain ⟨rest, hrest, rfl⟩ := Option.map_eq_some_iff.1 h
      exact (ih hrest).cons

/-- An import that is not marked decides nothing. -/
theorem markFirst_eraseIdx {decide : ImportEntry → Option α}
    (h : ∀ found, markFirst decide imports = some found → ¬ NeededAt found.2 i) :
    markFirst decide (imports.eraseIdx i) =
      (markFirst decide imports).map fun found => (found.1, found.2.eraseIdx i) := by
  induction imports generalizing i with
  | nil => rfl
  | cons e es ih =>
    cases hdecide : decide e with
    | some a =>
      have hfound : markFirst decide (e :: es) = some (a, { e with used := true } :: es) := by
        simp only [markFirst, hdecide]
      cases i with
      | zero => exact absurd (neededAt_zero rfl) (h _ hfound)
      | succ i => simp only [List.eraseIdx_cons_succ, markFirst, hdecide, Option.map_some]
    | none =>
      have hfound : markFirst decide (e :: es) =
          (markFirst decide es).map fun found => (found.1, e :: found.2) := by
        simp only [markFirst, hdecide]
      rw [hfound, Option.map_map]
      cases i with
      | zero => exact Option.map_id'.symm
      | succ i =>
        have hrest := ih fun found hes => h (found.1, e :: found.2) (by rw [hfound, hes]; rfl)
        simp only [List.eraseIdx_cons_succ, markFirst, hdecide, hrest, Option.map_map]
        rfl

theorem markFirst_of_decides {decide : ImportEntry → Option α} (he : e ∈ imports)
    (hdecide : (decide e).isSome = true) : ∃ found, markFirst decide imports = some found := by
  induction imports with
  | nil => cases he
  | cons e' es ih =>
    unfold markFirst
    cases hfirst : decide e' with
    | some a => exact ⟨_, rfl⟩
    | none =>
      rcases List.mem_cons.1 he with rfl | hmem
      · rw [hfirst] at hdecide
        cases hdecide
      · obtain ⟨found, hfound⟩ := ih hmem
        exact ⟨_, by rw [hfound]; rfl⟩

/-- What is decided is decided by one of the imports. -/
theorem decides_of_markFirst {decide : ImportEntry → Option α} {found : α × List ImportEntry}
    (h : markFirst decide imports = some found) : ∃ e ∈ imports, decide e = some found.1 := by
  induction imports generalizing found with
  | nil => cases h
  | cons e es ih =>
    unfold markFirst at h
    split at h
    · rename_i a hdecide
      cases h
      exact ⟨e, List.mem_cons_self, hdecide⟩
    · obtain ⟨rest, hrest, rfl⟩ := Option.map_eq_some_iff.1 h
      obtain ⟨e', he', hdecide⟩ := ih hrest
      exact ⟨e', List.mem_cons_of_mem _ he', hdecide⟩

/-! ## Single types and types on demand -/

/-- What an import of a single type brings, if it has the name. -/
def singleTarget? (name : String) (e : ImportEntry) : Option Lookup :=
  if !e.isStatic && e.simple == some name then some (.ofOption .unknown e.target) else none

theorem singleImport?_eq (name : String) (imports : List ImportEntry) :
    singleImport? name imports = markFirst (singleTarget? name) imports := by
  induction imports with
  | nil => rfl
  | cons e es ih =>
    unfold singleImport? markFirst
    rw [ih]
    cases hname : !e.isStatic && e.simple == some name with
    | true => simp only [singleTarget?, hname, if_true]
    | false => simp [singleTarget?, hname]

/-- What an import on demand brings, if it has a built-in type of the name. -/
def demandTarget? (b : Binder) (name : String) (e : ImportEntry) : Option BindingId :=
  if isOnDemand e then b.builtIn? (e.qualified ++ "." ++ name) else none

theorem onDemandImport?_eq (b : Binder) (name : String) (imports : List ImportEntry) :
    b.onDemandImport? name imports = markFirst (b.demandTarget? name) imports := by
  induction imports with
  | nil => rfl
  | cons e es ih =>
    unfold onDemandImport? markFirst demandTarget?
    rw [ih]
    cases if isOnDemand e then b.builtIn? (e.qualified ++ "." ++ name) else none <;> rfl

/-! ## Unknown packages -/

theorem markUnknownPackages_marks (imports : List ImportEntry) :
    Marks imports (markUnknownPackages imports) := by
  induction imports with
  | nil => exact .nil
  | cons e es ih =>
    refine List.Forall₂.cons ?_ ih
    by_cases he : (isOnDemand e && !isKnownPackage e.qualified) = true
    · exact .inr (if_pos he)
    · exact .inl (if_neg he)

theorem markUnknownPackages_eraseIdx (imports : List ImportEntry) (i : Nat) :
    markUnknownPackages (imports.eraseIdx i) = (markUnknownPackages imports).eraseIdx i :=
  (List.eraseIdx_map _ _ _).symm

/-- If a package is not known, the lookup depends on all of its imports. -/
theorem any_isUnknownPackage_eraseIdx (b : Binder)
    (h : imports.any b.isUnknownPackage = true → ¬ NeededAt (markUnknownPackages imports) i) :
    (imports.eraseIdx i).any b.isUnknownPackage = imports.any b.isUnknownPackage := by
  cases hany : imports.any b.isUnknownPackage with
  | false =>
    rw [List.any_eq_false] at hany ⊢
    exact fun e he => hany e (List.mem_of_mem_eraseIdx he)
  | true =>
    obtain ⟨e, he, hunknown⟩ := List.any_eq_true.1 hany
    obtain ⟨j, hj⟩ := List.getElem?_of_mem he
    have hmarked : (isOnDemand e && !isKnownPackage e.qualified) = true := by
      rw [isUnknownPackage, Bool.and_eq_true] at hunknown
      exact hunknown.1
    have hne : j ≠ i := by
      rintro rfl
      refine h hany ⟨{ e with used := true }, ?_, rfl⟩
      rw [markUnknownPackages, List.getElem?_map, hj, Option.map_some, if_pos hmarked]
    exact List.any_eq_true.2 ⟨e, List.mem_eraseIdx_iff_getElem?.2 ⟨j, hne, hj⟩, hunknown⟩

/-! ## Static members -/

/-- What a static import decides of a name: it is the name's, or it brings all members of a type. -/
def staticTarget? (t : Bindings) (name : String) (p : Binding → Bool) (e : ImportEntry) :
    Option Lookup :=
  if !e.isStatic then none
  else match e.simple, e.target with
    | some simple, target =>
      if simple == name then
        some (.ofOption .unknown (target.bind fun owner => t.findMember? owner name p))
      else none
    | none, some owner => (t.findMember? owner name p).map .found
    | none, none => some .unknown

theorem staticImport_cons (t : Bindings) (name : String) (p : Binding → Bool) (e : ImportEntry)
    (es : List ImportEntry) : staticImport t name p (e :: es) =
      (staticTarget? t name p e).elim
        ((staticImport t name p es).1, e :: (staticImport t name p es).2)
        fun lookup => (lookup, { e with used := true } :: es) := by
  obtain ⟨qualified, simple, isStatic, target, used⟩ := e
  unfold staticTarget?
  conv_lhs => unfold staticImport
  cases isStatic with
  | false => rfl
  | true =>
    simp only [Bool.not_true, Bool.false_eq_true, if_false]
    cases simple with
    | some simple =>
      dsimp only
      cases simple == name <;> rfl
    | none =>
      cases target with
      | none => rfl
      | some owner =>
        dsimp only
        cases t.findMember? owner name p <;> rfl

theorem staticImport_eq (t : Bindings) (name : String) (p : Binding → Bool)
    (imports : List ImportEntry) : staticImport t name p imports =
      (markFirst (staticTarget? t name p) imports).getD (.missing, imports) := by
  induction imports with
  | nil => rfl
  | cons e es ih =>
    rw [staticImport_cons, ih]
    conv_rhs => unfold markFirst
    cases staticTarget? t name p e with
    | some lookup => rfl
    | none => cases markFirst (staticTarget? t name p) es <;> rfl

theorem staticImport_marks (t : Bindings) (name : String) (p : Binding → Bool)
    (imports : List ImportEntry) : Marks imports (staticImport t name p imports).2 := by
  rw [staticImport_eq]
  cases hfound : markFirst (staticTarget? t name p) imports with
  | none => exact .refl imports
  | some found => exact markFirst_marks hfound

/-- A static import that is not used can be left out. -/
theorem staticImport_eraseIdx {t : Bindings} {name : String} {p : Binding → Bool}
    (h : ¬ NeededAt (staticImport t name p imports).2 i) :
    staticImport t name p (imports.eraseIdx i) =
      ((staticImport t name p imports).1, (staticImport t name p imports).2.eraseIdx i) := by
  rw [staticImport_eq] at h ⊢
  rw [staticImport_eq, markFirst_eraseIdx]
  · cases markFirst (staticTarget? t name p) imports <;> rfl
  · intro found hfound
    rwa [hfound] at h

/-! ## What lookups change -/

/-- A lookup may mark imports, and changes nothing else. -/
theorem lookupType_place (name : String) (b : Binder) :
    ∃ imports, Marks b.imports imports ∧ (lookupType name b).2 = { b with imports } := by
  have hstay : ∃ imports, Marks b.imports imports ∧ b = { b with imports } := ⟨_, .refl _, rfl⟩
  unfold lookupType
  simp only [get_bind_apply, onDemandImport?_eq, singleImport?_eq]
  cases b.scopes.findSome? (b.typeIn? name) with
  | some id => exact hstay
  | none =>
  cases b.topLevel.lookup name with
  | some id => exact hstay
  | none =>
  cases hsingle : markFirst (singleTarget? name) b.imports with
  | some found => exact ⟨_, markFirst_marks hsingle, rfl⟩
  | none =>
  cases b.builtIn? ("java.lang." ++ name) with
  | some id => exact hstay
  | none =>
  cases hdemand : markFirst (b.demandTarget? name) b.imports with
  | some found => exact ⟨_, markFirst_marks hdemand, rfl⟩
  | none =>
  cases b.imports.any b.isUnknownPackage with
  | true => exact ⟨_, markUnknownPackages_marks _, rfl⟩
  | false => exact hstay

theorem lookupImported_place (name : String) (p : Binding → Bool) (b : Binder) :
    ∃ imports, Marks b.imports imports ∧ (lookupImported name p b).2 = { b with imports } :=
  ⟨_, staticImport_marks _ _ _ _, rfl⟩

namespace Stays

variable {P : Binder → Prop} {f : Lookup → Binding.Walk α}

/-- A property that marked imports leave as it is, whatever a lookup may answer where it holds. -/
theorem lookupType (hmarks : ∀ b imports, Marks b.imports imports → P b → P { b with imports })
    (name : String) (hf : ∀ b, P b → Stays P (f (Binder.lookupType name b).1)) :
    Stays P (Binder.lookupType name >>= f) := by
  intro b hb
  obtain ⟨imports, hmarked, hplace⟩ := lookupType_place name b
  exact hf b hb _ (hplace ▸ hmarks b imports hmarked hb)

theorem lookupImported
    (hmarks : ∀ b imports, Marks b.imports imports → P b → P { b with imports }) (name : String)
    (p : Binding → Bool) : Stays P (Binder.lookupImported name p) := by
  intro b hb
  obtain ⟨imports, hmarked, hplace⟩ := lookupImported_place name p b
  exact hplace ▸ hmarks b imports hmarked hb

theorem enter (hscopes : ∀ b scopes, P b → P { b with scopes }) (name : String) (id : BindingId) :
    Stays P (Binder.enter name id) := by
  intro b hb
  obtain ⟨scopes, hplace⟩ := enter_place name id b
  exact hplace ▸ hscopes b scopes hb

theorem markUsed (hused : ∀ b used, P b → P { b with used }) (id : BindingId) :
    Stays P (Binder.markUsed id) := by
  intro b hb
  obtain ⟨used, hplace, -⟩ := markUsed_place id b
  exact hplace ▸ hused b used hb

end Stays

end JavaAnalysis.Binder
