import JavaAnalysis.Proofs.Regions.Ast
import JavaAnalysis.Proofs.Resolve.Mentions
import JavaAnalysis.Resolve

/-!
# Disciplines of the walk

A discipline is a property that the steps of the walk have when their parts have it. To set one up
is to show it for the few things that all steps are made of: looking a name up, binding it, adding
to the table, reporting. It then holds for every step of the walk at known names, however deep the
syntax; only what depends on the state has to respect that the discipline may compare two walks,
which agree on all but the imports and on the names that are not known.
-/

set_option autoImplicit false

namespace JavaAnalysis

/-- What was not found is a type, or a name that may stand for one. -/
def ProblemId.IsUnresolved (id : ProblemId) : Prop := id = .unresolvedType ∨ id = .unresolvedName

/-- A member was not found, or a case is missing. -/
def ProblemId.IsRemark (id : ProblemId) : Prop :=
  id = .unresolvedField ∨ id = .unresolvedMethod ∨ id = .switchNotExhaustive

theorem ProblemId.IsRemark.not_isUnresolved {id : ProblemId} (h : id.IsRemark) :
    ¬ id.IsUnresolved := by
  rcases h with rfl | rfl | rfl <;> simp [IsUnresolved]

end JavaAnalysis

namespace JavaAnalysis.Binder

open Ast

variable {known : Mention → Prop} {b b' : Binder} {α β : Type}

/-- All of the names are known. -/
def Known (known : Mention → Prop) (ms : List Mention) : Prop := ∀ m ∈ ms, known m

@[simp]
theorem known_nil : Known known [] := List.forall_mem_nil _

@[simp]
theorem known_cons {m : Mention} {ms : List Mention} :
    Known known (m :: ms) ↔ known m ∧ Known known ms := List.forall_mem_cons

@[simp]
theorem known_append {ms ns : List Mention} :
    Known known (ms ++ ns) ↔ Known known ms ∧ Known known ns := List.forall_mem_append

/-- Two places that differ in nothing but the imports and in what unknown names are bound to. -/
structure Matches (known : Mention → Prop) (b b' : Binder) : Prop where
  eq : b' = { b with imports := b'.imports, bound := b'.bound }
  boundAt?_eq : ∀ m, known m → b'.boundAt? m.offset = b.boundAt? m.offset

theorem Matches.declared_eq {o : Nat} (h : Matches known b b') (ho : known (.declared o)) :
    b'.boundAt? o = b.boundAt? o := h.boundAt?_eq _ ho

/-- What is done comes out the same at places that match. -/
def Respects (known : Mention → Prop) (f : Binder → α) : Prop :=
  ∀ b b', Matches known b b' → f b' = f b

/-- What depends neither on the imports nor on what is bound comes out the same. -/
theorem Respects.of_blind {f : Binder → α}
    (h : ∀ b imports bound, f { b with imports, bound } = f b) : Respects known f := by
  intro b b' hb
  rw [hb.eq]
  exact h _ _ _

/-! ## Steps that keep a property of places -/

/-- The step leaves the property as it is. -/
def Stays (P : Binder → Prop) (x : Binding.Walk α) : Prop := ∀ b, P b → P (x b).2

namespace Stays

variable {P : Binder → Prop} {x : Binding.Walk α} {f : α → Binding.Walk β}

theorem pure (a : α) : Stays P (Pure.pure a : Binding.Walk α) := fun _ hb => hb

theorem bind (hx : Stays P x) (hf : ∀ a, Stays P (f a)) : Stays P (x >>= f) :=
  fun b hb => hf _ _ (hx b hb)

theorem get {f : Binder → Binding.Walk α} (hf : ∀ b, Stays P (f b)) :
    Stays P (MonadState.get >>= f) := fun b hb => hf b b hb

/-- A property that does not depend on the scopes. -/
theorem inScope (hscopes : ∀ b scopes, P b → P { b with scopes }) (hx : Stays P x)
    (kind : ScopeKind) : Stays P (Binder.inScope kind x) :=
  fun b hb => hscopes _ b.scopes (hx _ (hscopes b _ hb))

end Stays

/-! ## Disciplines -/

/-- A property of the steps of the walk at known names that goes by their parts. -/
structure Discipline (known : Mention → Prop) where
  /-- What may come of looking a type up by its simple name. -/
  Answers : String → Lookup → Prop
  /-- What the place of a problem of syntax must be like. -/
  Demands : TextRange → Prop
  Holds : {α : Type} → Binding.Walk α → Prop
  pure {α : Type} (a : α) : Holds (Pure.pure a : Binding.Walk α)
  bind {α β : Type} {x : Binding.Walk α} {f : α → Binding.Walk β} :
    Holds x → (∀ a, Holds (f a)) → Holds (x >>= f)
  get {α : Type} {f : Binder → Binding.Walk α} :
    Respects known f → (∀ b, Holds (f b)) → Holds (MonadState.get >>= f)
  inScope {α : Type} {x : Binding.Walk α} (kind : ScopeKind) :
    Holds x → Holds (Binder.inScope kind x)
  lookupType {α : Type} {f : Lookup → Binding.Walk α} (name : String) :
    (∀ lookup, Answers name lookup → Holds (f lookup)) → Holds (Binder.lookupType name >>= f)
  lookupImported (name : String) (p : Binding → Bool) : Holds (Binder.lookupImported name p)
  /-- What a name is bound to counts as used, -/
  refer {m : Mention} (id : BindingId) : known m → m.IsUse → Holds (Binder.refer m.offset id)
  /-- unless the name is passive, -/
  pass {m : Mention} (id : BindingId) : known m → m.IsPassive → Holds (Binder.bind m.offset id)
  /-- or is declared, and bound to what is added to the table for it. -/
  declare {α : Type} {offset : Nat} {data : Binding} {f : BindingId → Binding.Walk α} :
    known (.declared offset) → (∀ id, Holds (f id)) →
    Holds (do
      let id ← Binder.allocate data
      Binder.bind offset id
      f id)
  /-- The table grows and names come into scope only where some name is declared. -/
  allocate {offset : Nat} (data : Binding) : known (.declared offset) →
    Holds (Binder.allocate data)
  complete {offset : Nat} (id : BindingId) (f : Binding → Binding) : known (.declared offset) →
    Holds (Binder.complete id f)
  enter {offset : Nat} (name : String) (id : BindingId) : known (.declared offset) →
    Holds (Binder.enter name id)
  addTopLevel (name : String) (id : BindingId) :
    Holds (modify fun b => { b with topLevel := b.topLevel ++ [(name, id)] } : Binding.Walk PUnit)
  markOpen (id : BindingId) : Holds (Binder.markOpen id)
  markUntyped (id : BindingId) : Holds (Binder.markUntyped id)
  /-- That a name is not found is reported of a simple name only if it can be missing. -/
  report {m : Mention} {id : ProblemId} (category : ProblemCategory) (message : String) :
    category ≠ .syntactic → id.IsUnresolved → known m →
    (∀ name, m.unqualified? = some name → Answers name .missing) →
    Holds (Binder.report id category message m.range)
  /-- Other problems have no bearing on simple names. -/
  remark {id : ProblemId} (category : ProblemCategory) (message : String) (range : TextRange) :
    id.IsRemark → (category = .syntactic → Demands range) →
    Holds (Binder.report id category message range)

variable (d : Discipline known)

theorem referIfFound_holds {m : Mention} (h : known m) (hm : m.IsUse) (lookup : Lookup) :
    d.Holds (referIfFound m.offset lookup) := by
  unfold referIfFound
  split
  · exact d.refer _ h hm
  · exact d.pure _

theorem bindQualifier_holds {m : Mention} (h : known m) (hm : m.IsPassive) (lookup : Lookup) :
    d.Holds (bindQualifier m.offset lookup) := by
  unfold bindQualifier
  split
  · exact d.bind (d.pass _ h hm) fun _ => d.pure _
  · exact d.pure _

/-! ## Lookups -/

theorem lookupVariable_holds (name : String) : d.Holds (lookupVariable name) := by
  unfold lookupVariable
  refine d.get (.of_blind fun _ _ _ => rfl) fun b => ?_
  split
  · exact d.pure _
  · exact d.lookupImported _ _

theorem lookupMethod_holds (name : String) (arity : Nat) : d.Holds (lookupMethod name arity) := by
  unfold lookupMethod
  refine d.get (.of_blind fun _ _ _ => rfl) fun b => ?_
  split
  · exact d.pure _
  · exact d.lookupImported _ _

theorem lookupBuiltIn_holds (name : String) : d.Holds (lookupBuiltIn name) :=
  d.get (.of_blind fun _ _ _ => rfl) fun _ => d.pure _

theorem lookupInner_holds (outer : Lookup) (name : String) : d.Holds (lookupInner outer name) := by
  unfold lookupInner
  split
  · exact d.get (.of_blind fun _ _ _ => rfl) fun _ => d.pure _
  · exact d.pure _

end JavaAnalysis.Binder
