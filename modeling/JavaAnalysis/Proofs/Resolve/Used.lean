import JavaAnalysis.Proofs.Resolve.Bodies
import JavaAnalysis.Proofs.Resolve.Imports
import Mathlib.Data.List.Nodup

/-!
# What counts as used

Whatever a name is bound to counts as used, unless the name is passive, is declared there, or is
that of an import. `Counted` says so of a place in the walk, and also tells what the names may be
bound to at all: a declared name to what was added to the table after the imports, an import to
what was there before them. So an import is never bound to what the types of the file declare.
Main statements: `Resolution.used_of_boundAt?`, `Resolution.ne_of_imported`.
-/

set_option autoImplicit false
set_option linter.dupNamespace false

namespace JavaAnalysis

open Ast

namespace Binder

variable {fits : Nat → BindingId → Prop} {passive : Nat → Prop} {known : Mention → Prop}
  {b : Binder} {id : BindingId} {offset size : Nat}

/--
The table has at least the size, names are bound to what fits them, and that counts as used unless
the name is passive.
-/
structure Counted (size : Nat) (fits : Nat → BindingId → Prop) (passive : Nat → Prop) (b : Binder) :
    Prop where
  size_le : size ≤ b.bindings.size
  fits : ∀ o id, b.boundAt? o = some id → fits o id
  used : ∀ o id, b.boundAt? o = some id → id ∈ b.used ∨ passive o

namespace Counted

theorem of_le {bindings : Bindings} (h : Counted size fits passive b)
    (hsize : b.bindings.size ≤ bindings.size) : Counted size fits passive { b with bindings } :=
  ⟨Nat.le_trans h.size_le hsize, h.fits, h.used⟩

/-- A name is bound to what fits it, and is passive or counts. -/
theorem insert {used : List BindingId} (h : Counted size fits passive b) (hfits : fits offset id)
    (hsub : ∀ i ∈ b.used, i ∈ used) (hused : id ∈ used ∨ passive offset) :
    Counted size fits passive { b with bound := b.bound.insert offset id, used } := by
  have hat : ∀ o i, boundAt? { b with bound := b.bound.insert offset id, used } o = some i →
      (o = offset ∧ i = id) ∨ b.boundAt? o = some i := by
    intro o i hi
    have hinsert := boundAt?_insert b offset id o
    rw [boundAt?] at hi hinsert
    rw [hinsert] at hi
    by_cases heq : offset = o
    · rw [if_pos heq] at hi
      exact .inl ⟨heq.symm, (Option.some.inj hi).symm⟩
    · rw [if_neg heq] at hi
      exact .inr hi
  refine ⟨h.size_le, fun o i hi => ?_, fun o i hi => ?_⟩
  · rcases hat o i hi with ⟨rfl, rfl⟩ | hold
    · exact hfits
    · exact h.fits o i hold
  · rcases hat o i hi with ⟨rfl, rfl⟩ | hold
    · exact hused
    · exact (h.used o i hold).imp_left (hsub i)

end Counted

/-- How the names that a part of a file mentions may be bound. -/
structure Allows (known : Mention → Prop) (size : Nat) (fits : Nat → BindingId → Prop)
    (passive : Nat → Prop) : Prop where
  use : ∀ m, known m → m.IsUse → ∀ id, fits m.offset id
  declared : ∀ o, known (.declared o) → passive o ∧ ∀ id : BindingId, size ≤ id.index → fits o id
  passive : ∀ m, known m → m.IsPassive → passive m.offset

/-- That what names are bound to counts as used goes by the parts of the walk. -/
def counting (h : Allows known size fits passive) : Discipline known where
  Answers _ _ := True
  Demands _ := True
  Holds := Stays (Counted size fits passive)
  pure := .pure
  bind := .bind
  get _ := .get
  inScope kind hx := .inScope (fun _ _ hb => ⟨hb.1, hb.2, hb.3⟩) hx kind
  lookupType name hf := .lookupType (fun _ _ _ hb => ⟨hb.1, hb.2, hb.3⟩) name fun _ _ =>
    hf _ trivial
  lookupImported name p := .lookupImported (fun _ _ _ hb => ⟨hb.1, hb.2, hb.3⟩) name p
  refer {m} id hm huse := by
    intro b hb
    obtain ⟨used, hplace, hid, hsub⟩ :=
      markUsed_place id { b with bound := b.bound.insert m.offset id }
    have hbound : Counted size fits passive
        { b with bound := b.bound.insert m.offset id, used } :=
      hb.insert (h.use m hm huse id) hsub (.inl hid)
    show Counted size fits passive (markUsed id { b with bound := b.bound.insert m.offset id }).2
    rw [hplace]
    exact hbound
  pass {m} id hm hpassive := fun b hb =>
    hb.insert (h.use m hm hpassive.isUse id) (fun _ hi => hi) (.inr (h.passive m hm hpassive))
  declare {_ o data _} ho hf := by
    intro b hb
    obtain ⟨hpassive, hfits⟩ := h.declared o ho
    have hpushed : Counted size fits passive { b with bindings := b.bindings.push data } :=
      hb.of_le (b.bindings.size_push data ▸ Nat.le_succ _)
    have hid := hfits b.bindings.nextId hb.size_le
    exact hf _ _ (hpushed.insert hid (fun _ hi => hi) (.inr hpassive))
  allocate data _ := fun b hb => hb.of_le (b.bindings.size_push data ▸ Nat.le_succ _)
  complete id f _ := fun b hb => hb.of_le (Nat.le_of_eq Array.size_modify.symm)
  enter name id _ := .enter (fun _ _ hb => ⟨hb.1, hb.2, hb.3⟩) name id
  addTopLevel _ _ := fun _ hb => ⟨hb.1, hb.2, hb.3⟩
  markOpen _ := fun _ hb => ⟨hb.1, hb.2, hb.3⟩
  markUntyped _ := fun _ hb => ⟨hb.1, hb.2, hb.3⟩
  report _ _ _ _ _ _ := fun _ hb => ⟨hb.1, hb.2, hb.3⟩
  remark _ _ _ _ _ := fun _ hb => ⟨hb.1, hb.2, hb.3⟩

end Binder

/-! ## The names of a file -/

namespace Ast.CompilationUnit

/-- The types of the file declare what is added behind the imports, which bring what is there. -/
def Fits (unit : CompilationUnit) (size o : Nat) (id : BindingId) : Prop :=
  (.declared o ∈ declMentions unit.types → size ≤ id.index) ∧
    ∀ name, .imported name ∈ importMentions unit.imports → name.range.start = o → id.index < size

/-- The name at the offset is no use that counts: it is passive, declared there, or of an import. -/
def Idle (unit : CompilationUnit) (o : Nat) : Prop :=
  (∃ m ∈ unit.mentions, m.IsPassive ∧ m.offset = o) ∨ .declared o ∈ unit.mentions ∨
    ∃ name, .imported name ∈ importMentions unit.imports ∧ name.range.start = o

/-- Each name that the file mentions starts at an offset of its own. -/
def Apart (unit : CompilationUnit) : Prop := (unit.mentions.map Mention.offset).Nodup

variable {unit : CompilationUnit} {size : Nat} {m : Mention} {id : BindingId}

namespace Apart

variable (h : unit.Apart)

include h

theorem ne_package {m' : Mention} (hm : m ∈ unit.packageMentions)
    (hm' : m' ∈ importMentions unit.imports ++ declMentions unit.types) : m.offset ≠ m'.offset := by
  rw [Apart, mentions, List.append_assoc, List.map_append, List.nodup_append] at h
  exact h.2.2 _ (List.mem_map_of_mem hm) _ (List.mem_map_of_mem hm')

theorem ne_import {m' : Mention} (hm : m ∈ importMentions unit.imports)
    (hm' : m' ∈ declMentions unit.types) : m.offset ≠ m'.offset := by
  rw [Apart, mentions, List.map_append, List.nodup_append] at h
  exact h.2.2 _ (List.mem_map_of_mem (List.mem_append_right _ hm)) _ (List.mem_map_of_mem hm')

theorem eq_of_offset {m' : Mention} (hm : m ∈ unit.mentions) (hm' : m' ∈ unit.mentions)
    (hoffset : m.offset = m'.offset) : m = m' := List.inj_on_of_nodup_map h hm hm' hoffset

theorem fits_package (hm : m ∈ unit.packageMentions) : unit.Fits size m.offset id := by
  refine ⟨fun hdeclared => ?_, fun name hname hstart => ?_⟩
  · have hne := h.ne_package hm (List.mem_append_right _ hdeclared)
    exact absurd rfl hne
  · have hne := h.ne_package hm (List.mem_append_left _ hname)
    exact absurd hstart.symm hne

theorem fits_import {name : QualifiedName} (hname : .imported name ∈ importMentions unit.imports)
    (hid : id.index < size) : unit.Fits size name.range.start id := by
  refine ⟨fun hdeclared => ?_, fun _ _ _ => hid⟩
  have hne := h.ne_import hname hdeclared
  exact absurd rfl hne

theorem fits_use (hm : m ∈ declMentions unit.types) (huse : m.IsUse) :
    unit.Fits size m.offset id := by
  refine ⟨fun hdeclared => ?_, fun name hname hstart => ?_⟩
  · have hmention := List.mem_append_right (unit.packageMentions ++ importMentions unit.imports) hm
    have hsame := h.eq_of_offset hmention (List.mem_append_right _ hdeclared) rfl
    rw [hsame] at huse
    exact huse.elim
  · have hne := h.ne_import hname hm
    exact absurd hstart hne

theorem fits_declared {o : Nat} (ho : .declared o ∈ declMentions unit.types)
    (hid : size ≤ id.index) : unit.Fits size o id := by
  refine ⟨fun _ => hid, fun name hname hstart => ?_⟩
  have hne := h.ne_import hname ho
  exact absurd hstart hne

theorem allows_package : Binder.Allows (· ∈ unit.packageMentions) 0 (unit.Fits size) unit.Idle where
  use _ hm _ _ := h.fits_package hm
  declared _ ho := by
    have hmention := List.mem_append_left (importMentions unit.imports) ho
    exact ⟨.inr (.inl (List.mem_append_left _ hmention)), fun _ _ => h.fits_package ho⟩
  passive m hm hpassive := by
    have hmention := List.mem_append_left (importMentions unit.imports) hm
    exact .inl ⟨m, List.mem_append_left _ hmention, hpassive, rfl⟩

theorem allows_types :
    Binder.Allows (· ∈ declMentions unit.types) size (unit.Fits size) unit.Idle where
  use _ hm huse _ := h.fits_use hm huse
  declared _ ho := ⟨.inr (.inl (List.mem_append_right _ ho)), fun _ hid => h.fits_declared ho hid⟩
  passive m hm hpassive := .inl ⟨m, List.mem_append_right _ hm, hpassive, rfl⟩

end Apart

end Ast.CompilationUnit

namespace Binder

variable {unit : CompilationUnit} {b : Binder} {id : BindingId}

/-- An import brings what is in the table. -/
theorem index_lt_of_importTarget {decl : ImportDecl} (h : b.importTarget decl = some id) :
    id.index < b.bindings.size := by
  have hfound : ∀ name, b.builtIn? name = some id → id.index < b.bindings.size := by
    intro name hname
    obtain ⟨i, hi, rfl⟩ := Option.map_eq_some_iff.1 hname
    exact (Array.findIdx?_eq_some_iff_getElem.1 hi).1
  simp only [importTarget] at h
  by_cases hstatic : decl.isStatic
  · rw [if_pos hstatic] at h
    exact hfound _ h
  · rw [if_neg hstatic] at h
    exact hfound _ (Option.ite_none_left_eq_some.1 h).2

theorem Counted.withImport (hunit : unit.Apart)
    (h : Counted b.bindings.size (unit.Fits b.bindings.size) unit.Idle b) {decl : ImportDecl}
    (hdecl : decl.isStatic = false → .imported decl.name ∈ importMentions unit.imports) :
    Counted b.bindings.size (unit.Fits b.bindings.size) unit.Idle (b.withImport decl) := by
  have hentry : Counted b.bindings.size (unit.Fits b.bindings.size) unit.Idle
      { b with imports := b.imports ++ [b.importEntry decl] } := ⟨h.1, h.2, h.3⟩
  unfold Binder.withImport
  cases htarget : b.importTarget decl with
  | none => exact hentry
  | some id =>
    cases hstatic : decl.isStatic with
    | true => exact hentry
    | false =>
      have hname := hdecl hstatic
      exact hentry.insert (hunit.fits_import hname (index_lt_of_importTarget htarget))
        (fun _ hi => hi) (.inr (.inr (.inr ⟨_, hname, rfl⟩)))

theorem imported_mem_importMentions {decls : List ImportDecl} {decl : ImportDecl}
    (h : decl ∈ decls) (hstatic : decl.isStatic = false) :
    .imported decl.name ∈ importMentions decls := by
  induction decls with
  | nil => cases h
  | cons d ds ih =>
    unfold importMentions
    rcases List.mem_cons.1 h with rfl | hrest
    · rw [hstatic]
      exact List.mem_cons_self
    · split
      · exact ih hrest
      · exact List.mem_cons_of_mem _ (ih hrest)

theorem Counted.foldl_withImport (hunit : unit.Apart) (decls : List ImportDecl)
    (hdecls : ∀ decl ∈ decls, decl ∈ unit.imports)
    (h : Counted b.bindings.size (unit.Fits b.bindings.size) unit.Idle b) :
    Counted b.bindings.size (unit.Fits b.bindings.size) unit.Idle
      (decls.foldl Binder.withImport b) := by
  induction decls generalizing b with
  | nil => exact h
  | cons decl decls ih =>
    rw [List.forall_mem_cons] at hdecls
    have hfirst := h.withImport hunit (imported_mem_importMentions hdecls.1)
    exact ih (b := b.withImport decl) hdecls.2 hfirst

/-- What the names of a file are bound to after the walk fits them, and counts unless they idle. -/
theorem counted_resolveUnit (hunit : unit.Apart) (package : Option String) :
    ∃ size, Counted size (unit.Fits size) unit.Idle (resolveUnit unit (start package)).2 := by
  have hstart : ∀ size, Counted 0 (unit.Fits size) unit.Idle (start package) := by
    intro size
    refine ⟨Nat.zero_le _, fun o id hid => ?_, fun o id hid => ?_⟩
    all_goals
      rw [boundAt?_start] at hid
      cases hid
  have hpackage : ∀ size,
      Counted 0 (unit.Fits size) unit.Idle (afterPackage unit (start package)) := by
    intro size
    unfold afterPackage
    split
    · rename_i decl hdecl
      have hnames : Known (· ∈ unit.packageMentions) (annotationMentions decl.annotations) := by
        simp [Known, CompilationUnit.packageMentions, hdecl]
      exact resolveAnnotations_holds (counting hunit.allows_package) decl.annotations hnames
        (Region.allMeet_of_forall (fun _ => trivial) _) _ (hstart size)
    · exact hstart size
  have hcounted := hpackage (afterPackage unit (start package)).bindings.size
  have himports := Counted.foldl_withImport hunit unit.imports (fun _ hdecl => hdecl)
    ⟨Nat.le_refl _, hcounted.fits, hcounted.used⟩
  rw [resolveUnit_eq]
  exact ⟨_, passes_holds (counting hunit.allows_types) unit.types (fun _ hm => hm)
    (Region.allMeet_of_forall (fun _ => trivial) _) _ himports⟩

end Binder

namespace Resolution

variable {unit : CompilationUnit} {id : BindingId} {o : Nat}

/-- What the names of a file are bound to counts as used, unless they are no uses that count. -/
theorem used_of_boundAt? (hunit : unit.Apart) (h : (ofUnit unit).boundAt? o = some id) :
    id ∈ (ofUnit unit).used ∨ unit.Idle o := by
  obtain ⟨size, hcounted⟩ := Binder.counted_resolveUnit hunit
    (unit.package.map fun p => p.name.toDotted)
  exact hcounted.used o id h

/-- No import is bound to what the types of the file declare. -/
theorem ne_of_imported (hunit : unit.Apart) {name : QualifiedName}
    (hname : .imported name ∈ importMentions unit.imports)
    (ho : .declared o ∈ declMentions unit.types) (h : (ofUnit unit).boundAt? o = some id) :
    (ofUnit unit).boundAt? name.range.start ≠ some id := by
  intro himport
  obtain ⟨size, hcounted⟩ := Binder.counted_resolveUnit hunit
    (unit.package.map fun p => p.name.toDotted)
  have hle := (hcounted.fits o id h).1 ho
  have hlt := (hcounted.fits _ id himport).2 name hname rfl
  omega

end Resolution

end JavaAnalysis
