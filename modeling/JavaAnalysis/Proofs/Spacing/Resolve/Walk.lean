import JavaAnalysis.Proofs.Resolve.Walk
import JavaAnalysis.Proofs.Spacing.Syntax
import Mathlib.Order.Monotone.Basic

/-!
# Two walks that bind names

The walk through a file that was moved takes the same steps as the walk through the file itself: it
knows the same names, binds them to the same things, and reports the same problems at the places to
which these were moved. `Alike` says so of two steps. This module shows it for what a walk consists
of.
-/

set_option autoImplicit false
set_option linter.dupNamespace false

namespace JavaAnalysis

/-- What is reported of a file that was moved. -/
def Problem.shift (f : Shift) (p : Problem) : Problem := { p with range := f.range p.range }

namespace Binder

open Ast

/-- The second walk knows the same as the first one, at the places where the names are now. -/
structure Moved (f : Shift) (b c : Binder) : Prop where
  ascending : StrictMono f.start
  same : c = { b with problems := b.problems.map (Problem.shift f), bound := c.bound }
  bound : ∀ o id, c.boundAt? o = some id ↔ ∃ o₀, f.start o₀ = o ∧ b.boundAt? o₀ = some id

/-- Wherever two steps are taken in two walks alike, they give the same and stay alike. -/
def Alike (f : Shift) {α : Type} (p q : Binding.Walk α) : Prop :=
  ∀ b c, Moved f b c → (q c).1 = (p b).1 ∧ Moved f (p b).2 (q c).2

variable {f : Shift} {b c : Binder} {α β : Type}

namespace Moved

variable (h : Moved f b c)
include h

/-- What a walk knows of the name at a place. -/
theorem boundAt?_eq (o : Nat) : c.boundAt? (f.start o) = b.boundAt? o := by
  ext id
  rw [h.bound]
  constructor
  · rintro ⟨o₀, heq, hbound⟩
    rwa [← h.ascending.injective heq]
  · exact fun hbound => ⟨o, rfl, hbound⟩

theorem bindings_eq : c.bindings = b.bindings := by rw [h.same]

theorem problems_eq : c.problems = b.problems.map (Problem.shift f) := by rw [h.same]

theorem used_eq : c.used = b.used := by rw [h.same]

theorem imports_eq : c.imports = b.imports := by rw [h.same]

theorem topLevel_eq : c.topLevel = b.topLevel := by rw [h.same]

theorem scopes_eq : c.scopes = b.scopes := by rw [h.same]

theorem untyped_eq : c.untyped = b.untyped := by rw [h.same]

theorem builtIn?_eq : c.builtIn? = b.builtIn? := by rw [h.same]; rfl

theorem currentType?_eq : c.currentType? = b.currentType? := by rw [h.same]; rfl

theorem currentOwner?_eq : c.currentOwner? = b.currentOwner? := by rw [h.same]; rfl

theorem superClass?_eq : c.superClass? = b.superClass? := by rw [h.same]; rfl

theorem isClosed_eq : c.isClosed = b.isClosed := by rw [h.same]; rfl

theorem inOpenType_eq : c.inOpenType = b.inOpenType := by rw [h.same]; rfl

theorem missingIn_eq : c.missingIn = b.missingIn := by rw [h.same]; rfl

theorem typeIn?_eq : c.typeIn? = b.typeIn? := by rw [h.same]; rfl

theorem variableIn?_eq : c.variableIn? = b.variableIn? := by rw [h.same]; rfl

theorem onDemandImport?_eq (name : String) (imports : List ImportEntry) :
    c.onDemandImport? name imports = b.onDemandImport? name imports := by
  induction imports with
  | nil => rfl
  | cons i is ih => rw [onDemandImport?, onDemandImport?, ih, h.builtIn?_eq]

theorem isUnknownPackage_eq : c.isUnknownPackage = b.isUnknownPackage := by rw [h.same]; rfl

theorem findMethod?_eq : c.findMethod? = b.findMethod? := by rw [h.same]; rfl

theorem qualifiedName?_eq : c.qualifiedName? = b.qualifiedName? := by rw [h.same]; rfl

theorem defaultSuperClass_eq : c.defaultSuperClass = b.defaultSuperClass := by
  funext kind
  rw [h.same]
  cases kind <;> rfl

theorem valueType?_eq : c.valueType? = b.valueType? := by rw [h.same]; rfl

/-- What changes neither the problems nor what is bound keeps the walks alike. -/
theorem update {b' c' : Binder} (hproblems : b'.problems = b.problems)
    (hbound : b'.bound = b.bound) (hbound' : c'.bound = c.bound)
    (hsame : c' = { b' with problems := c.problems, bound := c.bound }) : Moved f b' c' := by
  refine ⟨h.ascending, ?_, fun o id => ?_⟩
  · rw [hbound', hproblems, ← h.problems_eq]
    exact hsame
  · simp only [boundAt?, hbound, hbound']
    exact h.bound o id

end Moved

/-! ## Steps one after the other -/

namespace Alike

variable {p q : Binding.Walk α} {k l : α → Binding.Walk β}

theorem pure (x : α) : Alike f (Pure.pure x) (Pure.pure x) := fun _ _ h => ⟨rfl, h⟩

theorem bind (h : Alike f p q) (hkl : ∀ x, Alike f (k x) (l x)) :
    Alike f (p >>= k) (q >>= l) := by
  intro b c hbc
  obtain ⟨hresult, hnext⟩ := h b c hbc
  have hrun := hkl (p b).1 _ _ hnext
  rw [← hresult] at hrun
  have hbind : (p >>= k) b = k (p b).1 (p b).2 := rfl
  have hbind' : (q >>= l) c = l (q c).1 (q c).2 := rfl
  rw [hbind, hbind', hresult] at *
  exact hrun

theorem get {k l : Binder → Binding.Walk α} (hkl : ∀ b c, Moved f b c → Alike f (k b) (l c)) :
    Alike f (MonadState.get >>= k) (MonadState.get >>= l) :=
  fun b c h => hkl b c h b c h

theorem set (h : Moved f b c) : Alike f (MonadStateOf.set b) (MonadStateOf.set c) :=
  fun _ _ _ => ⟨rfl, h⟩

theorem change {g g' : Binder → Binder} (hg : ∀ b c, Moved f b c → Moved f (g b) (g' c)) :
    Alike f (modify g) (modify g') :=
  fun b c h => ⟨rfl, hg b c h⟩

theorem ite {P : Prop} [Decidable P] {p' q' : Binding.Walk α} (hp : P → Alike f p q)
    (hq : ¬ P → Alike f p' q') : Alike f (if P then p else p') (if P then q else q') := by
  by_cases hP : P
  · rw [if_pos hP, if_pos hP]
    exact hp hP
  · rw [if_neg hP, if_neg hP]
    exact hq hP

end Alike

/-! ## What a step may do -/

theorem bind_alike (o : Nat) (id : BindingId) : Alike f (bind o id) (bind (f.start o) id) := by
  refine .change fun b c h => ⟨h.ascending, ?_, fun o' id' => ?_⟩
  · rw [h.same]
  · rw [boundAt?_insert]
    by_cases heq : f.start o = o'
    · subst heq
      rw [if_pos rfl]
      constructor
      · exact fun hid => ⟨o, rfl, by rw [boundAt?_insert, if_pos rfl, hid]⟩
      · rintro ⟨o₀, heq, hid⟩
        rwa [h.ascending.injective heq, boundAt?_insert, if_pos rfl] at hid
    · rw [if_neg heq, h.bound]
      refine exists_congr fun o₀ => and_congr_right fun heq' => ?_
      rw [boundAt?_insert, if_neg fun hoo : o = o₀ => heq (hoo ▸ heq')]

theorem markUsed_alike (id : BindingId) : Alike f (markUsed id) (markUsed id) := by
  refine .change fun b c h => ?_
  rw [h.used_eq]
  split
  · exact h
  · exact h.update rfl rfl rfl (by rw [h.same])

theorem refer_alike (o : Nat) (id : BindingId) :
    Alike f (refer o id) (refer (f.start o) id) :=
  (bind_alike o id).bind fun _ => markUsed_alike id

theorem report_alike (id : ProblemId) (category : ProblemCategory) (message : String)
    (range : TextRange) :
    Alike f (report id category message range) (report id category message (f.range range)) := by
  refine .change fun b c h => ⟨h.ascending, ?_, h.bound⟩
  rw [h.same]
  rfl

theorem allocate_alike (data : Binding) : Alike f (allocate data) (allocate data) := by
  intro b c h
  refine ⟨?_, h.update rfl rfl rfl ?_⟩
  · show c.bindings.nextId = b.bindings.nextId
    rw [h.bindings_eq]
  · show ({ c with bindings := c.bindings.push data } : Binder) = _
    rw [h.bindings_eq, h.same]
    rfl

theorem complete_alike (id : BindingId) (g : Binding → Binding) :
    Alike f (complete id g) (complete id g) :=
  .change fun b c h => h.update rfl rfl rfl (by rw [h.bindings_eq, h.same])

theorem enter_alike (name : String) (id : BindingId) :
    Alike f (enter name id) (enter name id) := by
  refine .change fun b c h => ?_
  rw [h.scopes_eq]
  split
  · exact h.update rfl rfl rfl (by rw [h.same])
  · exact h

theorem markOpen_alike (id : BindingId) : Alike f (markOpen id) (markOpen id) :=
  .change fun b c h => h.update rfl rfl rfl (by rw [h.same])

theorem markUntyped_alike (id : BindingId) : Alike f (markUntyped id) (markUntyped id) :=
  .change fun b c h => h.update rfl rfl rfl (by rw [h.same])

theorem inScope_alike {p q : Binding.Walk α} (kind : ScopeKind) (h : Alike f p q) :
    Alike f (inScope kind p) (inScope kind q) := by
  refine .get fun b c hbc => ?_
  rw [hbc.scopes_eq]
  refine .bind (.change fun b c h => h.update rfl rfl rfl (by rw [h.same])) fun _ => ?_
  refine h.bind fun x => .bind (.change fun b c h => ?_) fun _ => .pure x
  exact h.update rfl rfl rfl (by rw [h.same])

end Binder

end JavaAnalysis
