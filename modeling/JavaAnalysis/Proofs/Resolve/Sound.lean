import JavaAnalysis.Proofs.Binding.Table
import JavaAnalysis.Proofs.Resolve.Imports
import JavaAnalysis.Proofs.Sites.Ast

/-!
# Places where all that is known is in the table

A place in the walk is sound if the table is well-formed there, and everything that the walk keeps
outside of the table is in it: what names are bound to, the scopes with what they declare, the types
of the file and what is imported. A name that is declared is bound to a row of the file.
A step that starts at a sound place ends at one, with a table that has grown. `Upkeeps` says so of a
step, for all places whose table has grown from a given one, so that what is in that table can be
used in the step; what the step comes to is in the table in which it ends.
-/

set_option autoImplicit false
set_option linter.dupNamespace false

namespace JavaAnalysis

open Ast

/-- The nodes of declarations of types. -/
def NodeKind.isTypeDecl : NodeKind → Bool
  | .classDecl => true
  | .interfaceDecl => true
  | .enumDecl => true
  | .recordDecl => true
  | _ => false

theorem TypeDeclKind.isTypeDecl_node (kind : TypeDeclKind) : kind.node.isTypeDecl = true := by
  cases kind <;> rfl

theorem BindingKind.isType_ofDecl (kind : TypeDeclKind) :
    (BindingKind.ofDecl kind).isType = true := by
  cases kind <;> rfl

variable {names : Nat → Option Bool} {t t' : Bindings} {id : BindingId} {isType : Bool}

/-! ## The names at sites -/

/--
The names at the site are as they are listed: `names` says of the offset of a declared name whether
it is that of a type.
-/
def Site.Fits (names : Nat → Option Bool) (site : Site) : Prop :=
  match site.role with
  | .declares offset => names offset = some site.kind.isTypeDecl
  | .uses offset => names offset = none
  | .encloses => True
  | .vacant => False

/-- The names at all of the sites are as they are listed. -/
def FitAll (names : Nat → Option Bool) (sites : List Site) : Prop := ∀ site ∈ sites, site.Fits names

section

variable {as bs : List Site} {site : Site}

@[simp]
theorem fitAll_nil : FitAll names [] := List.forall_mem_nil _

@[simp]
theorem fitAll_cons : FitAll names (site :: as) ↔ site.Fits names ∧ FitAll names as :=
  List.forall_mem_cons

@[simp]
theorem fitAll_append : FitAll names (as ++ bs) ↔ FitAll names as ∧ FitAll names bs :=
  List.forall_mem_append

@[simp]
theorem fits_declaration (kind : NodeKind) (range : TextRange) (offset : Nat) :
    (Site.declaration kind range offset).Fits names ↔ names offset = some kind.isTypeDecl := Iff.rfl

@[simp]
theorem fits_reference (range : TextRange) (offset : Nat) :
    (Site.reference range offset).Fits names ↔ names offset = none := Iff.rfl

@[simp]
theorem fits_fragment (range : TextRange) (separator : Option TokenKind) (offset : Nat) :
    (Site.fragment range separator offset).Fits names ↔ names offset = some false := Iff.rfl

@[simp]
theorem fits_vacancy (start : Nat) : ¬ (Site.vacancy start).Fits names := id

/-- What the outline passes over still stands there. -/
@[simp]
theorem fitAll_hide : FitAll names (as.map Site.hide) ↔ FitAll names as := List.forall_mem_map

@[simp]
theorem fitAll_qualifiedName (name : QualifiedName) :
    FitAll names name.sites ↔ names name.range.start = none := by
  simp [QualifiedName.sites]

@[simp]
theorem fitAll_angled (kind : NodeKind) (range : Option TextRange) :
    FitAll names (angled kind range) := by
  cases range with
  | none => exact fitAll_nil
  | some range => exact fitAll_cons.2 ⟨trivial, fitAll_nil⟩

/-- Variables that are declared have names. -/
theorem FitAll.varDecl {range : TextRange} {ms : List Modifier} {type : TypeRef}
    {fragments : List VarFragment} (h : FitAll names (VarDecl.mk range ms type fragments).sites) :
    FitAll names (modifierSites ms) ∧ FitAll names type.sites ∧
      ∃ terminated start, FitAll names (fragmentSites terminated start fragments) := by
  cases fragments with
  | nil => simp! at h
  | cons fragment fragments =>
    simp! only [fitAll_append] at h
    exact ⟨h.1.1, h.1.2, _, _, h.2⟩

end

/-! ## Sound places -/

/-- What a scope is made for is declared in the file. -/
def ScopeKind.Fits (t : Bindings) : ScopeKind → Prop
  | .type id => t.Declares true id
  | .method id => t.Declares false id
  | .block => True

/-- What a scope is made for is declared in the file, and what it declares is in the table. -/
structure Scope.Fits (t : Bindings) (s : Scope) : Prop where
  kind : s.kind.Fits t
  entries : ∀ e ∈ s.entries, t.Has e.2

theorem ScopeKind.Fits.grow {kind : ScopeKind} (h : kind.Fits t) (hgrows : t.Grows t') :
    kind.Fits t' := by
  cases kind with
  | type id => exact hgrows.declares h
  | method id => exact hgrows.declares h
  | block => trivial

theorem Scope.Fits.grow {s : Scope} (h : s.Fits t) (hgrows : t.Grows t') : s.Fits t' :=
  ⟨h.kind.grow hgrows, fun e he => hgrows.has (h.entries e he)⟩

theorem Scope.Fits.type {s : Scope} (h : s.Fits t) (hid : s.type? = some id) :
    t.Declares true id := by
  obtain ⟨kind, entries⟩ := s
  have hkind := h.kind
  cases kind <;> cases hid
  exact hkind

theorem Scope.Fits.owner {s : Scope} (h : s.Fits t) (hid : s.owner? = some id) :
    t.Declares false id := by
  obtain ⟨kind, entries⟩ := s
  have hkind := h.kind
  cases kind <;> cases hid
  · exact hkind.of_type
  · exact hkind

namespace Binder

variable {α β : Type} {b : Binder} {offset : Nat}

/-- All that is known at a place of the walk is in the table, which is well-formed. -/
structure Sound (names : Nat → Option Bool) (b : Binder) : Prop where
  table : b.bindings.WellFormed
  bound : ∀ o id, b.boundAt? o = some id → b.bindings.Has id
  declared : ∀ o id isType, names o = some isType → b.boundAt? o = some id →
    b.bindings.Declares isType id
  scopes : ∀ s ∈ b.scopes, s.Fits b.bindings
  topLevel : ∀ e ∈ b.topLevel, b.bindings.Has e.2
  imports : ∀ i ∈ b.imports, b.bindings.Knows i.target

theorem sound_start (names : Nat → Option Bool) (package : Option String) :
    Sound names (start package) where
  table := Bindings.wellFormed_universe
  bound o id hid := by
    rw [boundAt?_start] at hid
    cases hid
  declared o id isType _ hid := by
    rw [boundAt?_start] at hid
    cases hid
  scopes := List.forall_mem_nil _
  topLevel := List.forall_mem_nil _
  imports := List.forall_mem_nil _

/-- The table of a sound place can be replaced by a well-formed one that has grown from it. -/
theorem Sound.grow (h : Sound names b) {t : Bindings} (hgrows : b.bindings.Grows t)
    (ht : t.WellFormed) : Sound names { b with bindings := t } where
  table := ht
  bound o id hid := hgrows.has (h.bound o id hid)
  declared o id isType ho hid := hgrows.declares (h.declared o id isType ho hid)
  scopes s hs := (h.scopes s hs).grow hgrows
  topLevel e he := hgrows.has (h.topLevel e he)
  imports i hi := hgrows.knows (h.imports i hi)

/-- Marking imports as used does not change what they bring. -/
theorem Sound.mark (h : Sound names b) {imports : List ImportEntry}
    (hmarks : Marks b.imports imports) : Sound names { b with imports } := by
  have hknows : ∀ {is is' : List ImportEntry}, Marks is is' →
      (∀ i ∈ is, b.bindings.Knows i.target) → ∀ i ∈ is', b.bindings.Knows i.target := by
    intro is is' hmarks
    induction hmarks with
    | nil => exact id
    | cons hab _ ih =>
      intro his
      rw [List.forall_mem_cons] at his ⊢
      refine ⟨?_, ih his.2⟩
      rcases hab with rfl | rfl
      · exact his.1
      · exact his.1
  exact ⟨h.table, h.bound, h.declared, h.scopes, h.topLevel, hknows hmarks h.imports⟩

/-! ## What is found at a sound place -/

theorem knows_builtIn? (b : Binder) (name : String) : b.bindings.Knows (b.builtIn? name) := by
  intro id hid
  obtain ⟨⟨data, hdata, -⟩, -⟩ := Bindings.ofQualifiedName?_eq_some_iff.1 hid
  exact Bindings.has_of_get? hdata

theorem knows_findMember? (t : Bindings) (type : BindingId) (name : String) (p : Binding → Bool) :
    t.Knows (t.findMember? type name p) := by
  intro id hid
  obtain ⟨owner, -, hfound⟩ := List.exists_of_findSome?_eq_some hid
  obtain ⟨data, hdata, -⟩ := Bindings.mem_members_iff.1 (List.mem_of_find?_eq_some hfound)
  exact Bindings.has_of_get? hdata

theorem knows_findMethod? (b : Binder) (type : BindingId) (name : String) (arity : Nat) :
    b.bindings.Knows (b.findMethod? type name arity) := by
  unfold findMethod?
  split
  · rename_i id hid
    exact Bindings.knows_some.2 (knows_findMember? _ _ _ _ id hid)
  · intro id hid
    obtain ⟨root, -, hfound⟩ := Option.bind_eq_some_iff.1 hid
    exact knows_findMember? _ _ _ _ id hfound

theorem knows_assignedField? (b : Binder) (target : Expr) (name : Ident) :
    b.bindings.Knows (b.assignedField? target name) := by
  unfold assignedField?
  split
  · intro id hid
    obtain ⟨type, -, hfound⟩ := Option.bind_eq_some_iff.1 hid
    exact knows_findMember? _ _ _ _ id hfound
  · exact Bindings.knows_none _

theorem knows_ofOption {found : Option BindingId} (h : t.Knows found) {default : Lookup}
    (hdefault : default.binding? = none) : t.Knows (Lookup.ofOption default found).binding? := by
  cases found with
  | none =>
    rw [Lookup.ofOption, hdefault]
    exact Bindings.knows_none _
  | some id => exact h

/-- What is imported from a type is a member of it. -/
theorem knows_staticTarget? {name : String} {p : Binding → Bool} {i : ImportEntry} {lookup : Lookup}
    (h : staticTarget? t name p i = some lookup) : t.Knows lookup.binding? := by
  obtain ⟨qualified, simple, isStatic, target, used⟩ := i
  unfold staticTarget? at h
  cases isStatic with
  | false => cases h
  | true =>
  cases simple with
  | some simple =>
    obtain ⟨-, hlookup⟩ := Option.ite_none_right_eq_some.1 h
    cases hlookup
    apply knows_ofOption _ rfl
    intro id hid
    obtain ⟨owner, -, hfound⟩ := Option.bind_eq_some_iff.1 hid
    exact knows_findMember? _ _ _ _ id hfound
  | none =>
    cases target with
    | none =>
      cases h
      exact Bindings.knows_none _
    | some owner =>
      obtain ⟨id, hfound, rfl⟩ := Option.map_eq_some_iff.1 h
      exact Bindings.knows_some.2 (knows_findMember? _ _ _ _ id hfound)

theorem knows_lookupImported (name : String) (p : Binding → Bool) (b : Binder) :
    b.bindings.Knows (lookupImported name p b).1.binding? := by
  have hstatic : b.bindings.Knows (staticImport b.bindings name p b.imports).1.binding? := by
    rw [staticImport_eq]
    cases hfound : markFirst (staticTarget? b.bindings name p) b.imports with
    | none => exact Bindings.knows_none _
    | some found =>
      obtain ⟨i, -, htarget⟩ := decides_of_markFirst hfound
      exact knows_staticTarget? htarget
  show b.bindings.Knows (if (_ : Bool) = true then Lookup.unknown else _).binding?
  split
  · exact Bindings.knows_none _
  · exact hstatic

namespace Sound

variable (h : Sound names b)

include h

theorem currentType? (hid : b.currentType? = some id) : b.bindings.Declares true id := by
  obtain ⟨s, hs, htype⟩ := List.exists_of_findSome?_eq_some hid
  exact (h.scopes s hs).type htype

theorem currentOwner? (hid : b.currentOwner? = some id) : b.bindings.Declares false id := by
  obtain ⟨s, hs, howner⟩ := List.exists_of_findSome?_eq_some hid
  exact (h.scopes s hs).owner howner

theorem knows_currentType? : b.bindings.Knows b.currentType? :=
  fun _ hid => (h.currentType? hid).has

theorem knows_boundAt? (o : Nat) : b.bindings.Knows (b.boundAt? o) := h.bound o

theorem knows_superClass? (type : BindingId) : b.bindings.Knows (b.superClass? type) := by
  intro id hid
  obtain ⟨data, hdata, hsuper⟩ := Option.bind_eq_some_iff.1 hid
  exact (h.table.refers hdata).superClass id hsuper

theorem knows_valueType? (id : BindingId) : b.bindings.Knows (b.valueType? id) := by
  intro type htype
  obtain ⟨data, hdata, htype⟩ := Option.bind_eq_some_iff.1 htype
  by_cases his : data.kind.isType = true
  · rw [if_pos his] at htype
    cases htype
    exact Bindings.has_of_get? hdata
  · rw [if_neg his] at htype
    exact (h.table.refers hdata).typeBinding type htype

theorem knows_boundType? (name : Ident) : b.bindings.Knows (b.boundType? name) := by
  intro type htype
  obtain ⟨id, -, htype⟩ := Option.bind_eq_some_iff.1 htype
  exact h.knows_valueType? id type htype

theorem knows_boundClass? (t : TypeRef) : b.bindings.Knows (b.boundClass? t) := by
  unfold boundClass?
  split
  · exact h.knows_boundAt? _
  · exact Bindings.knows_none _

theorem knows_exprType? : ∀ e : Expr, b.bindings.Knows (b.exprType? e)
  | .name name => h.knows_boundType? name
  | .fieldAccess _ _ name => h.knows_boundType? name
  | .methodCall _ _ _ _ name _ _ => by
    intro type htype
    obtain ⟨id, -, htype⟩ := Option.bind_eq_some_iff.1 htype
    obtain ⟨data, hdata, htype⟩ := Option.bind_eq_some_iff.1 htype
    exact (h.table.refers hdata).typeBinding type htype
  | .newObject _ _ type _ _ none => h.knows_boundClass? type
  | .newObject _ _ type _ _ (some (.mk range _ _)) => by
    intro id hid
    rcases Option.or_eq_some_iff.1 hid with hbody | ⟨-, hclass⟩
    · exact h.bound _ id hbody
    · exact h.knows_boundClass? type id hclass
  | .literal _ kind => by
    cases kind with
    | string => exact knows_builtIn? b _
    | textBlock => exact knows_builtIn? b _
    | _ => exact Bindings.knows_none _
  | .paren _ e => knows_exprType? e
  | .cast _ type _ => h.knows_boundClass? type
  | .this _ => h.knows_currentType?
  | .super _ => by
    intro id hid
    obtain ⟨type, -, hsuper⟩ := Option.bind_eq_some_iff.1 hid
    exact h.knows_superClass? type id hsuper
  | .conditional _ _ yes _ => knows_exprType? yes
  | .assign _ _ target _ => knows_exprType? target
  | .newArray _ _ _ _ _ => Bindings.knows_none _
  | .arrayInit _ _ => Bindings.knows_none _
  | .arrayAccess _ _ _ => Bindings.knows_none _
  | .unary _ _ _ => Bindings.knows_none _
  | .binary _ _ _ _ => Bindings.knows_none _
  | .instanceOf _ _ _ => Bindings.knows_none _
  | .instanceOfPattern _ _ _ => Bindings.knows_none _
  | .classLiteral _ _ => Bindings.knows_none _
  | .lambdaExpr _ _ _ _ _ => Bindings.knows_none _
  | .lambdaBlock _ _ _ _ _ => Bindings.knows_none _
  | .methodRef _ _ _ => Bindings.knows_none _
  | .switching _ _ _ _ => Bindings.knows_none _
  | .annotated _ => Bindings.knows_none _
  | .type _ => Bindings.knows_none _

theorem knows_entryOf? {s : Scope} (hs : s ∈ b.scopes) (name : String) (p : BindingKind → Bool) :
    b.bindings.Knows (b.entryOf? s name p) := by
  intro id hid
  obtain ⟨e, he, rfl⟩ := Option.map_eq_some_iff.1 hid
  exact (h.scopes s hs).entries e (List.mem_of_find?_eq_some he)

theorem knows_typeIn? {s : Scope} (hs : s ∈ b.scopes) (name : String) :
    b.bindings.Knows (b.typeIn? name s) := by
  unfold typeIn?
  split
  · rename_i id hid
    exact Bindings.knows_some.2 (h.knows_entryOf? hs _ _ id hid)
  · intro id hid
    obtain ⟨type, htype, hid⟩ := Option.bind_eq_some_iff.1 hid
    by_cases hname : (b.bindings.name type == name) = true
    · rw [if_pos hname] at hid
      cases hid
      exact ((h.scopes s hs).type htype).has
    · rw [if_neg hname] at hid
      exact knows_findMember? _ _ _ _ id hid

theorem knows_variableIn? {s : Scope} (hs : s ∈ b.scopes) (name : String) :
    b.bindings.Knows (b.variableIn? name s) := by
  unfold variableIn?
  split
  · rename_i id hid
    exact Bindings.knows_some.2 (h.knows_entryOf? hs _ _ id hid)
  · intro id hid
    obtain ⟨type, -, hfound⟩ := Option.bind_eq_some_iff.1 hid
    exact knows_findMember? _ _ _ _ id hfound

/-- What a type is looked up to is in the table. -/
theorem knows_lookupType (name : String) :
    b.bindings.Knows (lookupType name b).1.binding? := by
  unfold lookupType
  simp only [get_bind_apply, onDemandImport?_eq, singleImport?_eq]
  cases hscope : b.scopes.findSome? (b.typeIn? name) with
  | some id =>
    obtain ⟨s, hs, htype⟩ := List.exists_of_findSome?_eq_some hscope
    exact Bindings.knows_some.2 (h.knows_typeIn? hs name id htype)
  | none =>
  cases htop : b.topLevel.lookup name with
  | some id =>
    obtain ⟨before, after, htypes, -⟩ := List.lookup_eq_some_iff.1 htop
    exact Bindings.knows_some.2 (h.topLevel (name, id) (by simp [htypes]))
  | none =>
  cases hsingle : markFirst (singleTarget? name) b.imports with
  | some found =>
    obtain ⟨i, hi, htarget⟩ := decides_of_markFirst hsingle
    obtain ⟨-, hfound⟩ := Option.ite_none_right_eq_some.1 htarget
    show b.bindings.Knows found.1.binding?
    rw [← Option.some.inj hfound]
    exact knows_ofOption (h.imports i hi) rfl
  | none =>
  cases hbuiltIn : b.builtIn? ("java.lang." ++ name) with
  | some id => exact Bindings.knows_some.2 (knows_builtIn? b _ id hbuiltIn)
  | none =>
  cases hdemand : markFirst (b.demandTarget? name) b.imports with
  | some found =>
    obtain ⟨i, hi, htarget⟩ := decides_of_markFirst hdemand
    obtain ⟨-, hfound⟩ := Option.ite_none_right_eq_some.1 htarget
    exact Bindings.knows_some.2 (knows_builtIn? b _ _ hfound)
  | none =>
  cases b.imports.any b.isUnknownPackage with
  | true => exact Bindings.knows_none _
  | false =>
    cases b.inOpenType with
    | true => exact Bindings.knows_none _
    | false => exact Bindings.knows_none _

end Sound

/-! ## Steps between sound places -/

/-- From sound places the step leads to sound ones; its outcome fits the table that it leaves. -/
def Upkeeps (names : Nat → Option Bool) (t : Bindings) (x : Binding.Walk α)
    (post : Bindings → α → Prop) : Prop :=
  ∀ b, Sound names b → t.Grows b.bindings → Sound names (x b).2 ∧
    b.bindings.Grows (x b).2.bindings ∧ post (x b).2.bindings (x b).1

/-- The step leads from sound places to sound ones. -/
def Keeps (names : Nat → Option Bool) (t : Bindings) (x : Binding.Walk α) : Prop :=
  Upkeeps names t x fun _ _ => True

namespace Upkeeps

variable {x : Binding.Walk α} {f : α → Binding.Walk β} {mid mid' : Bindings → α → Prop}
  {post : Bindings → β → Prop}

theorem pure {a : α} (ha : ∀ t', t.Grows t' → mid t' a) :
    Upkeeps names t (Pure.pure a : Binding.Walk α) mid := fun b hb hgrows =>
  ⟨hb, .refl, ha b.bindings hgrows⟩

theorem bind (hx : Upkeeps names t x mid)
    (hf : ∀ t', t.Grows t' → ∀ a, mid t' a → Upkeeps names t' (f a) post) :
    Upkeeps names t (x >>= f) post := by
  intro b hb hgrows
  obtain ⟨hsound, hgrows', hmid⟩ := hx b hb hgrows
  obtain ⟨hsound', hgrows'', hpost⟩ :=
    hf _ (hgrows.trans hgrows') (x b).1 hmid (x b).2 hsound .refl
  exact ⟨hsound', hgrows'.trans hgrows'', hpost⟩

/-- What is read at a place is read of a sound place, whose table may have grown. -/
theorem get {f : Binder → Binding.Walk α}
    (hf : ∀ b, Sound names b → t.Grows b.bindings → Upkeeps names b.bindings (f b) mid) :
    Upkeeps names t (MonadState.get >>= f) mid :=
  fun b hb hgrows => hf b hb hgrows b hb .refl

theorem mono (hx : Upkeeps names t x mid) (h : ∀ t' a, mid t' a → mid' t' a) :
    Upkeeps names t x mid' := by
  intro b hb hgrows
  obtain ⟨hsound, hgrows', hmid⟩ := hx b hb hgrows
  exact ⟨hsound, hgrows', h _ _ hmid⟩

theorem keeps (hx : Upkeeps names t x mid) : Keeps names t x := hx.mono fun _ _ _ => trivial

/-- The scope of a step is gone afterwards, and what it was made for may be used in it. -/
theorem inScope {kind : ScopeKind} (hkind : kind.Fits t) (hx : Upkeeps names t x mid) :
    Upkeeps names t (Binder.inScope kind x) mid := by
  intro b hb hgrows
  have hinside : Sound names { b with scopes := ⟨kind, []⟩ :: b.scopes } :=
    ⟨hb.table, hb.bound, hb.declared,
      List.forall_mem_cons.2 ⟨⟨hkind.grow hgrows, List.forall_mem_nil _⟩, hb.scopes⟩, hb.topLevel,
      hb.imports⟩
  obtain ⟨hsound, hgrows', hmid⟩ := hx _ hinside hgrows
  refine ⟨⟨hsound.table, hsound.bound, hsound.declared, ?_, hsound.topLevel, hsound.imports⟩,
    hgrows', hmid⟩
  intro s hs
  exact (hb.scopes s hs).grow hgrows'

theorem inType (hid : t.Declares true id) (hx : Upkeeps names t x mid) :
    Upkeeps names t (Binder.inScope (.type id) x) mid := inScope hid hx

theorem inMethod (hid : t.Declares false id) (hx : Upkeeps names t x mid) :
    Upkeeps names t (Binder.inScope (.method id) x) mid := inScope hid hx

theorem inBlock (hx : Upkeeps names t x mid) :
    Upkeeps names t (Binder.inScope .block x) mid := inScope trivial hx

end Upkeeps

namespace Keeps

variable {x : Binding.Walk α} {f : α → Binding.Walk β} {mid : Bindings → α → Prop}
  {post : Bindings → β → Prop}

theorem pure (a : α) : Keeps names t (Pure.pure a : Binding.Walk α) :=
  Upkeeps.pure fun _ _ => trivial

theorem bind (hx : Keeps names t x) (hf : ∀ t', t.Grows t' → ∀ a, Upkeeps names t' (f a) post) :
    Upkeeps names t (x >>= f) post := Upkeeps.bind hx fun t' hgrows a _ => hf t' hgrows a

theorem ite {p : Prop} [Decidable p] {y : Binding.Walk α} (hx : Keeps names t x)
    (hy : Keeps names t y) : Keeps names t (if p then x else y) := by
  split
  · exact hx
  · exact hy

end Keeps

/-! ## What all steps are made of -/

theorem bind_sound (hid : t.Has id)
    (hdeclared : ∀ isType, names offset = some isType → t.Declares isType id) :
    Keeps names t (bind offset id) := by
  intro b hb hgrows
  refine ⟨⟨hb.table, ?_, ?_, hb.scopes, hb.topLevel, hb.imports⟩, .refl, trivial⟩
  · intro o x hx
    rw [Binder.bind] at hx
    change boundAt? { b with bound := b.bound.insert offset id } o = some x at hx
    rw [boundAt?_insert] at hx
    by_cases heq : offset = o
    · rw [if_pos heq] at hx
      cases hx
      exact hgrows.has hid
    · rw [if_neg heq] at hx
      exact hb.bound o x hx
  · intro o x isType ho hx
    change boundAt? { b with bound := b.bound.insert offset id } o = some x at hx
    rw [boundAt?_insert] at hx
    by_cases heq : offset = o
    · rw [if_pos heq] at hx
      cases hx
      subst heq
      exact hgrows.declares (hdeclared isType ho)
    · rw [if_neg heq] at hx
      exact hb.declared o x isType ho hx

/-- A name that is declared is bound to a row of the file. -/
theorem bindDeclared_sound (hname : names offset = some isType) (hid : t.Declares isType id) :
    Keeps names t (bind offset id) := by
  apply bind_sound hid.has
  intro isType' hname'
  rw [hname, Option.some.injEq] at hname'
  exact hname' ▸ hid

/-- A name that uses a declaration may be bound to any row. -/
theorem bindUse_sound (hname : names offset = none) (hid : t.Has id) :
    Keeps names t (bind offset id) := by
  apply bind_sound hid
  intro isType hname'
  rw [hname] at hname'
  cases hname'

theorem markUsed_sound (id : BindingId) : Keeps names t (markUsed id) := by
  intro b hb _
  obtain ⟨used, hplace, -⟩ := markUsed_place id b
  rw [hplace]
  exact ⟨⟨hb.table, hb.bound, hb.declared, hb.scopes, hb.topLevel, hb.imports⟩, .refl, trivial⟩

theorem refer_sound (hname : names offset = none) (hid : t.Has id) :
    Keeps names t (refer offset id) :=
  (bindUse_sound hname hid).bind fun _ _ _ => markUsed_sound id

theorem report_sound (id : ProblemId) (category : ProblemCategory) (message : String)
    (range : TextRange) : Keeps names t (report id category message range) := fun _ hb _ =>
  ⟨⟨hb.table, hb.bound, hb.declared, hb.scopes, hb.topLevel, hb.imports⟩, .refl, trivial⟩

theorem markOpen_sound (id : BindingId) : Keeps names t (markOpen id) := fun _ hb _ =>
  ⟨⟨hb.table, hb.bound, hb.declared, hb.scopes, hb.topLevel, hb.imports⟩, .refl, trivial⟩

theorem markUntyped_sound (id : BindingId) : Keeps names t (markUntyped id) := fun _ hb _ =>
  ⟨⟨hb.table, hb.bound, hb.declared, hb.scopes, hb.topLevel, hb.imports⟩, .refl, trivial⟩

/-- A row that fits the table is added to it. -/
theorem allocate_sound {data : Binding} (hdata : data.Fits t) :
    Upkeeps names t (allocate data) fun t' id => t'.Declares data.kind.isType id := by
  intro b hb hgrows
  have hpush : b.bindings.Grows (b.bindings.push data) := Bindings.Grows.refl.push data
  refine ⟨hb.grow hpush (hb.table.push (hgrows.fits hdata)), hpush, ?_⟩
  have hget : (b.bindings.push data).get? b.bindings.nextId = some data := by
    rw [Bindings.get?_push, if_pos rfl]
  exact ⟨hb.table.size_le, data, hget, id⟩

/-- Rows of the file are completed. -/
theorem complete_sound {f : Binding → Binding} (hid : t.Declares isType id)
    (hf : ∀ t' data, t.Grows t' → data.Fits t' → (f data).Fits t' ∧ data.Completes (f data)) :
    Keeps names t (complete id f) := by
  intro b hb hgrows
  obtain ⟨htable, hmodify⟩ := hb.table.modify hid.1 fun data _ => hf _ data hgrows
  exact ⟨hb.grow hmodify htable, hmodify, trivial⟩

theorem enter_sound (name : String) (hid : t.Has id) : Keeps names t (enter name id) := by
  rintro ⟨bindings, problems, used, package, imports, topLevel, scopes, openTypes, untyped, bound⟩
    hb hgrows
  cases scopes with
  | nil => exact ⟨hb, .refl, trivial⟩
  | cons s ss =>
    obtain ⟨hs, hss⟩ := List.forall_mem_cons.1 hb.scopes
    have hentries := List.forall_mem_cons (a := (name, id)).2 ⟨hgrows.has hid, hs.entries⟩
    exact ⟨⟨hb.table, hb.bound, hb.declared, List.forall_mem_cons.2 ⟨⟨hs.kind, hentries⟩, hss⟩,
      hb.topLevel, hb.imports⟩, .refl, trivial⟩

theorem addTopLevel_sound (name : String) (hid : t.Has id) : Keeps names t
    (modify fun b => { b with topLevel := b.topLevel ++ [(name, id)] } : Binding.Walk PUnit) := by
  intro b hb hgrows
  refine ⟨⟨hb.table, hb.bound, hb.declared, hb.scopes, ?_, hb.imports⟩, .refl, trivial⟩
  exact List.forall_mem_append.2 ⟨hb.topLevel, List.forall_mem_singleton.2 (hgrows.has hid)⟩

/-- A name is declared: a row is added, and the name is bound to it. -/
theorem declare_sound {data : Binding} {f : BindingId → Binding.Walk α} {post : Bindings → α → Prop}
    (hname : names offset = some isType) (hdata : data.Fits t)
    (hkind : isType = true → data.kind.isType = true)
    (hf : ∀ t' id, t.Grows t' → t'.Declares isType id → Upkeeps names t' (f id) post) :
    Upkeeps names t (do
      let id ← allocate data
      bind offset id
      f id) post := by
  apply (allocate_sound hdata).bind
  intro t' hgrows id hid
  have hdeclares : t'.Declares isType id := by
    obtain ⟨hsize, row, hrow, htype⟩ := hid
    exact ⟨hsize, row, hrow, fun his => htype (hkind his)⟩
  apply (bindDeclared_sound hname hdeclares).bind
  intro t'' hgrows' _
  exact hf t'' id (hgrows.trans hgrows') (hgrows'.declares hdeclares)

/-! ## Lookups -/

theorem lookupType_sound (name : String) :
    Upkeeps names t (lookupType name) fun t' lookup => t'.Knows lookup.binding? := by
  intro b hb _
  have hknows := hb.knows_lookupType name
  obtain ⟨imports, hmarks, hplace⟩ := lookupType_place name b
  rw [hplace]
  exact ⟨hb.mark hmarks, .refl, hknows⟩

theorem lookupImported_sound (name : String) (p : Binding → Bool) :
    Upkeeps names t (lookupImported name p) fun t' lookup => t'.Knows lookup.binding? := by
  intro b hb _
  have hknows := knows_lookupImported name p b
  obtain ⟨imports, hmarks, hplace⟩ := lookupImported_place name p b
  rw [hplace]
  exact ⟨hb.mark hmarks, .refl, hknows⟩

theorem lookupVariable_sound (name : String) :
    Upkeeps names t (lookupVariable name) fun t' lookup => t'.Knows lookup.binding? := by
  unfold lookupVariable
  apply Upkeeps.get
  intro b hb _
  split
  · rename_i id hid
    obtain ⟨s, hs, hvariable⟩ := List.exists_of_findSome?_eq_some hid
    have hknows := Bindings.knows_some.2 (hb.knows_variableIn? hs name id hvariable)
    exact .pure fun _ hgrows => hgrows.knows hknows
  · exact lookupImported_sound _ _

theorem lookupMethod_sound (name : String) (arity : Nat) :
    Upkeeps names t (lookupMethod name arity) fun t' lookup => t'.Knows lookup.binding? := by
  unfold lookupMethod
  apply Upkeeps.get
  intro b hb _
  split
  · rename_i id hid
    obtain ⟨type, -, hmethod⟩ := List.exists_of_findSome?_eq_some hid
    have hknows := Bindings.knows_some.2 (knows_findMethod? b type name arity id hmethod)
    exact .pure fun _ hgrows => hgrows.knows hknows
  · exact lookupImported_sound _ _

theorem lookupBuiltIn_sound (name : String) :
    Upkeeps names t (lookupBuiltIn name) fun t' lookup => t'.Knows lookup.binding? := by
  apply Upkeeps.get
  intro b hb _
  have hknows : b.bindings.Knows (Lookup.ofOption .unknown (b.builtIn? name)).binding? :=
    knows_ofOption (knows_builtIn? b name) rfl
  exact .pure fun _ hgrows => hgrows.knows hknows

theorem binding?_missingIn (b : Binder) (type : BindingId) :
    (b.missingIn type).binding? = none := by
  unfold missingIn
  split
  · rfl
  · rfl

theorem lookupInner_sound (outer : Lookup) (name : String) :
    Upkeeps names t (lookupInner outer name) fun t' lookup => t'.Knows lookup.binding? := by
  unfold lookupInner
  split
  · rename_i id
    apply Upkeeps.get
    intro b hb _
    have hknows := knows_ofOption
      (knows_findMember? b.bindings id name fun data => data.kind.isType) (binding?_missingIn b id)
    exact .pure fun _ hgrows => hgrows.knows hknows
  · exact .pure fun t' _ => t'.knows_none

end Binder

end JavaAnalysis
