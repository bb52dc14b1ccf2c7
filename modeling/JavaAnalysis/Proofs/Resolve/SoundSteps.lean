import JavaAnalysis.Proofs.Resolve.Sound

/-!
# Steps between sound places

The steps that bind names in types and declare names. Once the parts of an expression are bound, its
names are bound to what is in the table: a simple name, a name that is selected by a dot, the method
of a call, the constant of a case. What then stands in front of a dot is in the table, too.
-/

set_option autoImplicit false
set_option linter.dupNamespace false

namespace JavaAnalysis.Binder

open Ast

variable {names : Nat → Option Bool} {t : Bindings} {id : BindingId} {isType : Bool}
  {offset : Nat} {name : Ident}

/-! ## Names in types -/

theorem referIfFound_sound {lookup : Lookup} (hname : names offset = none)
    (hlookup : t.Knows lookup.binding?) : Keeps names t (referIfFound offset lookup) := by
  cases lookup with
  | found id => exact refer_sound hname (Bindings.knows_some.1 hlookup)
  | unknown => exact .pure _
  | missing => exact .pure _

theorem bindQualifier_sound {lookup : Lookup} (hname : names offset = none)
    (hlookup : t.Knows lookup.binding?) :
    Upkeeps names t (bindQualifier offset lookup) fun t' lookup => t'.Knows lookup.binding? := by
  cases lookup with
  | found id =>
    apply (bindUse_sound hname (Bindings.knows_some.1 hlookup)).bind
    intro t' hgrows _
    exact .pure fun _ hgrows' => hgrows'.knows (hgrows.knows hlookup)
  | unknown => exact .pure fun t' _ => t'.knows_none
  | missing => exact .pure fun t' _ => t'.knows_none

/-- A name is bound to what was found; that nothing was found may be reported. -/
theorem referThenReport_sound {lookup : Lookup} (hname : names name.range.start = none)
    (hlookup : t.Knows lookup.binding?) :
    Upkeeps names t (do
      referIfFound name.range.start lookup
      if lookup = .missing then reportMissingType name.text name.range
      return lookup) fun t' lookup => t'.Knows lookup.binding? := by
  apply (referIfFound_sound hname hlookup).bind
  intro t' hgrows _
  have hdone : Upkeeps names t' (Pure.pure lookup) fun t' lookup => t'.Knows lookup.binding? :=
    .pure fun _ hgrows' => hgrows'.knows (hgrows.knows hlookup)
  split
  · apply (report_sound _ _ _ _).bind
    intro t'' hgrows' _
    exact .pure fun _ hgrows'' => hgrows''.knows (hgrows'.knows (hgrows.knows hlookup))
  · exact hdone

mutual

theorem resolveType_sound : ∀ (type : TypeRef) (qualifying : Bool) (t : Bindings),
    FitAll names type.sites →
    Upkeeps names t (resolveType qualifying type) fun t' lookup => t'.Knows lookup.binding?
  | .primitive _ _, _, _, _ => by
    simp only [resolveType]
    exact .pure fun t' _ => t'.knows_none
  | .inferred _, _, _, _ => by
    simp only [resolveType]
    exact .pure fun t' _ => t'.knows_none
  | .array _ element _, qualifying, t, h => by
    simp only [TypeRef.sites] at h
    simp only [resolveType]
    split
    · exact .pure fun t' _ => t'.knows_none
    · exact resolveType_sound element false t h
  | .wildcard _, _, _, _ => by
    simp only [resolveType]
    exact .pure fun t' _ => t'.knows_none
  | .bounded _ _ bound, qualifying, t, h => by
    simp only [TypeRef.sites] at h
    simp only [resolveType]
    split
    · exact .pure fun t' _ => t'.knows_none
    · exact (resolveType_sound bound false t h).keeps.bind fun _ _ _ =>
        .pure fun t' _ => t'.knows_none
  | .union _ ts, qualifying, t, h => by
    simp only [TypeRef.sites] at h
    simp only [resolveType]
    split
    · exact .pure fun t' _ => t'.knows_none
    · exact (resolveTypes_sound ts t h).bind fun _ _ _ => .pure fun t' _ => t'.knows_none
  | .intersection _ ts, qualifying, t, h => by
    simp only [TypeRef.sites] at h
    simp only [resolveType]
    split
    · exact .pure fun t' _ => t'.knows_none
    · exact (resolveTypes_sound ts t h).bind fun _ _ _ => .pure fun t' _ => t'.knows_none
  | .named _ none name _ args, qualifying, t, h => by
    simp only [TypeRef.sites, fitAll_cons, fitAll_append, fits_reference, fitAll_angled,
      and_true] at h
    obtain ⟨hname, hargs⟩ := h
    simp only [resolveType]
    split
    · exact (lookupType_sound _).bind fun _ _ _ hlookup => bindQualifier_sound hname hlookup
    split
    · rename_i hpackage
      simp at hpackage
    apply (resolveTypes_sound args t hargs).bind
    intro t' _ _
    exact (lookupType_sound _).bind fun _ _ _ hlookup => referThenReport_sound hname hlookup
  | .named _ (some q) name _ args, qualifying, t, h => by
    simp only [TypeRef.sites, fitAll_cons, fitAll_append, fits_reference, fitAll_angled,
      and_true] at h
    obtain ⟨hq, hname, hargs⟩ := h
    simp only [resolveType]
    split
    · rename_i hpassive
      simp at hpassive
    split
    · exact (lookupBuiltIn_sound _).bind fun _ _ _ hlookup => bindQualifier_sound hname hlookup
    apply (resolveTypes_sound args t hargs).bind
    intro t' _ _
    apply Upkeeps.get
    intro b hb _
    split
    · rename_i id hid
      have hfound : b.bindings.Knows (Lookup.found id).binding? :=
        Bindings.knows_some.2 (knows_builtIn? b _ id hid)
      rw [pure_bind]
      exact referThenReport_sound hname hfound
    · apply (resolveType_sound q true b.bindings hq).bind
      intro t'' _ outer _
      exact (lookupInner_sound outer _).bind fun _ _ _ hlookup =>
        referThenReport_sound hname hlookup

theorem resolveTypes_sound : ∀ (types : List TypeRef) (t : Bindings),
    FitAll names (typeSites types) → Keeps names t (resolveTypes types)
  | [], _, _ => by
    simp only [resolveTypes]
    exact .pure _
  | type :: types, t, h => by
    simp only [typeSites, fitAll_append] at h
    simp only [resolveTypes]
    exact (resolveType_sound type false t h.1).keeps.bind fun t' _ _ =>
      resolveTypes_sound types t' h.2

end

theorem resolveInnerType_sound (outer : Option BindingId) (type : TypeRef)
    (h : FitAll names type.sites) :
    Upkeeps names t (resolveInnerType outer type) fun t' lookup => t'.Knows lookup.binding? := by
  unfold resolveInnerType
  split
  · rename_i range q name argsRange args
    have hparts : names name.range.start = none ∧ FitAll names (typeSites args) := by
      cases q <;> simp_all [TypeRef.sites]
    apply (resolveTypes_sound args t hparts.2).bind
    intro t' _ _
    apply Upkeeps.get
    intro b hb _
    have hfound : b.bindings.Knows (outer.bind fun id =>
        b.bindings.findMember? id name.text fun data => data.kind.isType) := by
      intro id hid
      obtain ⟨type, -, hfound⟩ := Option.bind_eq_some_iff.1 hid
      exact knows_findMember? _ _ _ _ id hfound
    have hlookup : b.bindings.Knows (Lookup.ofOption .unknown _).binding? :=
      knows_ofOption hfound rfl
    apply (referIfFound_sound hparts.1 hlookup).bind
    intro t'' hgrows _
    exact .pure fun _ hgrows' => hgrows'.knows (hgrows.knows hlookup)
  · exact .pure fun t' _ => t'.knows_none

theorem knows_classOf? {lookup : Lookup} (h : t.Knows lookup.binding?) (type : TypeRef) :
    t.Knows (classOf? type lookup) := by
  unfold classOf?
  split
  · exact h
  · exact t.knows_none

/-! ## Types and their members -/

/-- What is owned by something that the file declares. -/
theorem owned {owner : BindingId} (h : t.Declares isType owner) :
    ∀ o, some owner = some o → t.Declares false o := by
  intro o ho
  cases ho
  exact h.of_false

theorem declareTypeName_sound {owner : Option BindingId}
    (howner : ∀ o, owner = some o → t.Declares false o) (kind : TypeDeclKind)
    (modifiers : List Modifier) {name : Ident} (hname : names name.range.start = some true) :
    Upkeeps names t (declareTypeName owner kind modifiers name) fun t' id =>
      t'.Declares true id := by
  unfold declareTypeName
  apply Upkeeps.get
  intro b _ hgrows
  have hkind : BindingKind.ofDecl kind ≠ .method := by cases kind <;> decide
  apply declare_sound hname
  · apply Binding.Fits.named
    apply Binding.Fits.plain hkind
    intro o ho
    exact hgrows.declares (howner o ho)
  · intro _
    exact BindingKind.isType_ofDecl kind
  · intro t' id _ hid
    dsimp only
    split
    · apply (addTopLevel_sound _ hid.has).bind
      intro t'' hgrows' _
      exact .pure fun _ hgrows'' => hgrows''.declares (hgrows'.declares hid)
    · exact .pure fun _ hgrows' => hgrows'.declares hid

mutual

theorem declareType_sound : ∀ (decl : TypeDecl) (owner : Option BindingId) (t : Bindings),
    FitAll names decl.sites → (∀ o, owner = some o → t.Declares false o) →
    Keeps names t (declareType owner decl)
  | .mk _ kind modifiers name _ _ _ _ _ _ _ (.mk _ _ members), owner, t, h, howner => by
    simp! only [fitAll_append, fitAll_cons, fits_declaration, TypeDeclKind.isTypeDecl_node] at h ⊢
    exact (declareTypeName_sound howner kind modifiers h.2.1).bind fun t' _ id hid =>
      declareTypesIn_sound members id t' h.1.2 hid.of_false

theorem declareTypesIn_sound : ∀ (members : List Member) (owner : BindingId) (t : Bindings),
    FitAll names (memberSites members) → t.Declares false owner →
    Keeps names t (declareTypesIn owner members)
  | [], _, _, _, _ => by
    simp! only
    exact .pure _
  | .type decl :: members, owner, t, h, howner => by
    simp! only [fitAll_append] at h ⊢
    exact (declareType_sound decl (some owner) t h.1 (owned howner)).bind fun t' hgrows _ =>
      declareTypesIn_sound members owner t' h.2 (hgrows.declares howner)
  | .field _ :: members, owner, t, h, howner => by
    simp! only [fitAll_append] at h ⊢
    exact declareTypesIn_sound members owner t h.2 howner
  | .method _ :: members, owner, t, h, howner => by
    simp! only [fitAll_append] at h ⊢
    exact declareTypesIn_sound members owner t h.2 howner
  | .initializer _ _ _ :: members, owner, t, h, howner => by
    simp! only [fitAll_append] at h ⊢
    exact declareTypesIn_sound members owner t h.2 howner

end

theorem declareTypeParamNames_sound {owner : BindingId} (params : List TypeParam)
    (h : FitAll names (typeParamSites params)) (howner : t.Declares isType owner) :
    Keeps names t (declareTypeParamNames owner params) := by
  induction params generalizing t with
  | nil => exact .pure _
  | cons param params ih =>
    obtain ⟨range, marks, name, bounds⟩ := param
    simp! only [fitAll_append, fitAll_cons, fits_declaration] at h
    unfold declareTypeParamNames
    apply declare_sound h.2.1 (.plain (by decide) _ (owned howner) _)
      (by simp)
    intro t' id hgrows hid
    exact (enter_sound _ hid.has).bind fun t'' hgrows' _ =>
      ih h.2.2 (hgrows'.declares (hgrows.declares howner))

/-- Whatever names are bound to may come into scope. -/
theorem enterAgain_sound (idents : List Ident) : Keeps names t (enterAgain idents) := by
  induction idents generalizing t with
  | nil => exact .pure _
  | cons name idents ih =>
    unfold enterAgain
    apply Upkeeps.get
    intro b hb _
    split
    · rename_i id hid
      exact (enter_sound _ (hb.bound _ id hid)).bind fun t' _ _ => ih
    · exact ih

theorem resolveParamType_sound (param : Param) (h : FitAll names param.sites) :
    Upkeeps names t (resolveParamType param) fun t' r => t'.Knows r.2.1 := by
  obtain ⟨range, ms, type, ellipsis, name, brackets⟩ := param
  simp! only [fitAll_append] at h
  cases type with
  | none => exact .pure fun t' _ => t'.knows_none
  | some type =>
    simp only [Option.toList_some, typeSites, fitAll_append] at h
    apply (resolveType_sound type false t h.1.2.1).bind
    intro t' _ lookup hlookup
    apply Upkeeps.pure
    intro t'' hgrows
    dsimp only
    split
    · exact knows_classOf? (hgrows.knows hlookup) type
    · exact t''.knows_none

/-- The name of a parameter is declared, and is not that of a type. -/
theorem FitAll.param {param : Param} (h : FitAll names param.sites) :
    names param.name.range.start = some false := by
  obtain ⟨range, ms, type, ellipsis, name, brackets⟩ := param
  simp! only [fitAll_append, fitAll_cons, fits_declaration] at h
  exact h.2.1

theorem declareComponents_sound {owner : BindingId} (components : List Param)
    (h : FitAll names (paramSites components)) (howner : t.Declares true owner) :
    Keeps names t (declareComponents owner components) := by
  induction components generalizing t with
  | nil => exact .pure _
  | cons component components ih =>
    simp! only [fitAll_append] at h
    unfold declareComponents
    apply (resolveParamType_sound component h.1).bind
    intro t' hgrows type htype
    have howner' := hgrows.declares howner
    apply declare_sound (FitAll.param h.1)
      (.typed (.plain (by decide) _ (owned howner') _) _ htype) (by simp)
    intro t'' id hgrows' _
    have howner'' := hgrows'.declares howner'
    exact (allocate_sound (.typed (.method _ howner'' _) _ (hgrows'.knows htype))).keeps.bind
      fun t₃ hgrows'' _ => ih h.2 (hgrows''.declares howner'')

theorem resolveParents_sound (id : BindingId) (types : List TypeRef)
    (h : FitAll names (typeSites types)) :
    Upkeeps names t (resolveParents id types) fun t' parents => ∀ p ∈ parents, t'.Has p := by
  induction types generalizing t with
  | nil => exact .pure fun _ _ => List.forall_mem_nil _
  | cons type types ih =>
    simp only [typeSites, fitAll_append] at h
    unfold resolveParents
    apply (resolveType_sound type false t h.1).bind
    intro t' _ lookup hlookup
    split
    · apply (ih h.2).bind
      intro t'' hgrows parents hparents
      apply Upkeeps.pure
      intro t₃ hgrows'
      refine List.forall_mem_cons.2 ⟨?_, fun p hp => hgrows'.has (hparents p hp)⟩
      exact hgrows'.has (hgrows.has (Bindings.knows_some.1 hlookup))
    · exact (markOpen_sound id).bind fun _ _ _ => ih h.2

theorem knows_defaultSuperClass (b : Binder) (kind : TypeDeclKind) :
    b.bindings.Knows (b.defaultSuperClass kind) := by
  cases kind with
  | classType => exact knows_builtIn? b _
  | enumType => exact knows_builtIn? b _
  | recordType => exact knows_builtIn? b _
  | interfaceType => exact Bindings.knows_none _
  | annotationType => exact Bindings.knows_none _

theorem declareSupertypes_sound (kind : TypeDeclKind) {supers interfaces permitted : List TypeRef}
    (hid : t.Declares isType id) (hsupers : FitAll names (typeSites supers))
    (hinterfaces : FitAll names (typeSites interfaces))
    (hpermitted : FitAll names (typeSites permitted)) :
    Keeps names t (declareSupertypes id kind supers interfaces permitted) := by
  unfold declareSupertypes
  apply (resolveParents_sound id supers hsupers).bind
  intro t₁ hgrows₁ supers' hsupers'
  apply (resolveParents_sound id interfaces hinterfaces).bind
  intro t₂ hgrows₂ interfaces' hinterfaces'
  apply (resolveTypes_sound permitted t₂ hpermitted).bind
  intro t₃ hgrows₃ _
  apply Upkeeps.get
  intro b _ hgrows
  have hgrows' := hgrows₃.trans hgrows
  have hsupers₃ : ∀ p ∈ supers', b.bindings.Has p :=
    fun p hp => hgrows'.has (hgrows₂.has (hsupers' p hp))
  have hinterfaces₃ : ∀ p ∈ interfaces', b.bindings.Has p := fun p hp =>
    hgrows'.has (hinterfaces' p hp)
  apply complete_sound (hgrows'.declares (hgrows₂.declares (hgrows₁.declares hid)))
  intro t' data hgrows'' hdata
  refine ⟨hdata.derived ?_ ?_, ⟨rfl, rfl, rfl, rfl, rfl, rfl⟩⟩
  · intro p hp
    rcases Option.or_eq_some_iff.1 hp with hsuper | ⟨-, hdefault⟩
    · obtain ⟨-, hlast⟩ := Option.ite_none_left_eq_some.1 hsuper
      exact hgrows''.has (hsupers₃ p (List.mem_of_getLast? hlast))
    · exact hgrows''.knows (knows_defaultSuperClass b kind) p hdefault
  · intro p hp
    split at hp
    · rcases List.mem_append.1 hp with hp | hp
      · exact hgrows''.has (hsupers₃ p hp)
      · exact hgrows''.has (hinterfaces₃ p hp)
    · exact hgrows''.has (hinterfaces₃ p hp)

theorem declareConstants_sound {owner : BindingId} (typeName : String)
    (constants : List EnumConstant) (h : FitAll names (constantSites constants))
    (howner : t.Declares isType owner) :
    Keeps names t (declareConstants owner typeName constants) := by
  induction constants generalizing t with
  | nil => exact .pure _
  | cons constant constants ih =>
    obtain ⟨range, ms, name, argsRange, args, body⟩ := constant
    simp! only [fitAll_append, fitAll_cons, fits_declaration] at h
    unfold declareConstants
    apply declare_sound h.2.1 (.typed (.plain (by decide) _ (owned howner) _) _ howner.knows)
      (by simp)
    intro t' id hgrows _
    exact ih h.2.2 (hgrows.declares howner)

theorem declareFieldNames_sound {owner : BindingId} (flags : ModifierSet) (type : TypeRef)
    {lookup : Lookup} (fragments : List VarFragment) {terminated : Bool} {start : Nat}
    (h : FitAll names (fragmentSites terminated start fragments))
    (howner : t.Declares isType owner) (hlookup : t.Knows lookup.binding?) :
    Keeps names t (declareFieldNames owner flags type lookup fragments) := by
  induction fragments generalizing t start with
  | nil => exact .pure _
  | cons fragment fragments ih =>
    obtain ⟨range, name, brackets, init⟩ := fragment
    simp! only [fitAll_append, fitAll_cons, fits_fragment] at h
    unfold declareFieldNames
    apply declare_sound h.2.1 _ (by simp)
    · intro t' id hgrows _
      exact ih h.2.2 (hgrows.declares howner) (hgrows.knows hlookup)
    · apply Binding.Fits.typed (.plain (by decide) _ (owned howner) _)
      split
      · exact knows_classOf? hlookup type
      · exact t.knows_none

theorem declareFields_sound {owner : BindingId} (inInterface : Bool) (decl : VarDecl)
    (h : FitAll names decl.sites) (howner : t.Declares isType owner) :
    Keeps names t (declareFields owner inInterface decl) := by
  obtain ⟨range, modifiers, type, fragments⟩ := decl
  obtain ⟨-, htype, terminated, start, hfragments⟩ := h.varDecl
  unfold declareFields
  exact (resolveType_sound type false t htype).bind fun t' hgrows lookup hlookup =>
    declareFieldNames_sound _ type fragments hfragments (hgrows.declares howner) hlookup

theorem declareParams_sound {owner : BindingId} (params : List Param)
    (h : FitAll names (paramSites params)) (howner : t.Declares isType owner) :
    Keeps names t (declareParams owner params) := by
  induction params generalizing t with
  | nil => exact .pure _
  | cons param params ih =>
    simp! only [fitAll_append] at h
    have hname := FitAll.param h.1
    unfold declareParams
    apply (resolveParamType_sound param h.1).bind
    intro t' hgrows type htype
    have howner' := hgrows.declares howner
    have hrest : ∀ t'', t'.Grows t'' → Keeps names t'' (do
        return type.1 :: (← declareParams owner params)) := fun t'' hgrows' =>
      (ih h.2 (hgrows'.declares howner')).bind fun _ _ _ => Keeps.pure _
    have hplain : (Binding.plain .parameter param.name.text .source (some owner)
        (.ofModifiers param.modifiers)).Fits t' := .plain (by decide) _ (owned howner') _
    by_cases hmissing : type.2.2 = .missing
    · simp only [hmissing, if_true]
      apply (allocate_sound (hplain.typed _ htype)).bind
      intro t'' hgrows' id hid
      apply (markUntyped_sound id).bind
      intro t₃ hgrows'' _
      apply (bindDeclared_sound hname (hgrows''.declares hid)).bind
      intro t₄ hgrows₃ _
      exact hrest t₄ (hgrows'.trans (hgrows''.trans hgrows₃))
    · simp only [hmissing, if_false]
      exact declare_sound hname (hplain.typed _ htype) (by simp) fun t'' _ hgrows' _ =>
        hrest t'' hgrows'

/-! ## Local declarations and bodies -/

theorem declareLocal_sound {kind : BindingKind} (hkind : kind ≠ .method) (modifiers : List Modifier)
    (type : Option TypeRef) {lookup : Lookup} {name : Ident} (brackets : Nat)
    (hname : names name.range.start = some false) (hlookup : t.Knows lookup.binding?) :
    Keeps names t (declareLocal kind modifiers type lookup name brackets) := by
  unfold declareLocal
  apply Upkeeps.get
  intro b hb hgrows
  have hplain : (Binding.plain kind name.text .source b.currentOwner? (.ofModifiers modifiers)).Fits
      b.bindings := .plain hkind _ (fun o ho => hb.currentOwner? ho) _
  have hbound : ∀ t' id, t'.Declares false id → Keeps names t' (do
      enter name.text id
      bind name.range.start id) := by
    intro t' id hid
    exact (enter_sound _ hid.has).bind fun t'' hgrows' _ =>
      bindDeclared_sound hname (hgrows'.declares hid)
  have hallocated : ∀ data : Binding, data.Fits b.bindings → Keeps names b.bindings (do
      let id ← allocate data
      if lookup = .missing then markUntyped id
      enter name.text id
      bind name.range.start id) := by
    intro data hdata
    apply (allocate_sound hdata).bind
    intro t' _ id hid
    split
    · exact (markUntyped_sound id).bind fun t'' hgrows' _ =>
        hbound t'' id (hgrows'.declares hid).of_false
    · exact hbound t' id hid.of_false
  cases type with
  | none => exact hallocated _ hplain
  | some type =>
    apply hallocated
    apply hplain.typed
    split
    · exact knows_classOf? (hgrows.knows hlookup) type
    · exact b.bindings.knows_none

theorem declareAnonymous_sound {parent : Option BindingId} (hname : names offset = some true)
    (hparent : t.Knows parent) :
    Upkeeps names t (declareAnonymous offset parent) fun t' id => t'.Declares true id := by
  unfold declareAnonymous
  apply Upkeeps.get
  intro b hb hgrows
  have hplain : (Binding.plain .classType "" .source b.currentOwner? .empty).Fits b.bindings :=
    .plain (by decide) _ (fun o ho => hb.currentOwner? ho) _
  have hnone : ∀ i ∈ ([] : List BindingId), b.bindings.Has i := List.forall_mem_nil _
  apply declare_sound hname
  · split
    · exact hplain.derived (knows_builtIn? b _) hnone
    · rename_i p hknown
      have hp : b.bindings.Has p := by
        obtain ⟨hparent', -⟩ := Option.filter_eq_some_iff.1 hknown
        exact hgrows.has (hparent p hparent')
      split
      · exact hplain.derived (knows_builtIn? b _) (List.forall_mem_singleton.2 hp)
      · exact hplain.derived (Bindings.knows_some.2 hp) hnone
  · intro _
    split
    · rfl
    · split
      · rfl
      · rfl
  · intro t' id _ hid
    dsimp only
    split
    · exact (markOpen_sound id).bind fun t'' hgrows' _ => .pure fun _ hgrows'' =>
        hgrows''.declares (hgrows'.declares hid)
    · exact .pure fun _ hgrows' => hgrows'.declares hid

/-- The fields of the current type may come into scope. -/
theorem enterComponents_sound : Keeps names t enterComponents := by
  unfold enterComponents
  apply Upkeeps.get
  intro b _ _
  split
  · exact Keeps.pure _
  · rename_i type _
    have hall : ∀ fields : List BindingId, (∀ m ∈ fields, b.bindings.Has m) →
        ∀ t', b.bindings.Grows t' →
        Keeps names t' (fields.forM fun m => enter (b.bindings.name m) m) := by
      intro fields
      induction fields with
      | nil =>
        intro _ t' _
        exact Keeps.pure _
      | cons m fields ih =>
        intro hfields t' hgrows
        rw [List.forall_mem_cons] at hfields
        exact (enter_sound _ (hgrows.has hfields.1)).bind fun t'' hgrows' _ =>
          ih hfields.2 t'' (hgrows.trans hgrows')
    apply hall _ _ _ .refl
    intro m hm
    obtain ⟨data, hdata, -⟩ := Bindings.mem_members_iff.1 (List.mem_filter.1 hm).1
    exact Bindings.has_of_get? hdata

theorem declareMethodName_sound {owner : BindingId} (inInterface isConstructor : Bool)
    (modifiers : List Modifier) {name : Ident} (hname : names name.range.start = some false)
    (howner : t.Declares true owner) :
    Upkeeps names t (declareMethodName owner inInterface isConstructor modifiers name) fun t' id =>
      t'.Declares false id := by
  unfold declareMethodName
  apply declare_sound hname _ (by simp)
  · intro t' id _ hid
    exact .pure fun _ hgrows => hgrows.declares hid
  · cases isConstructor with
    | true => exact .plain (by decide) _ (owned howner) _
    | false => exact .method _ howner _

theorem resolveReturnType_sound (brackets : Nat) (type : Option TypeRef)
    (h : FitAll names (typeSites type.toList)) :
    Upkeeps names t (resolveReturnType brackets type) fun t' r => t'.Knows r.2 := by
  cases type with
  | none => exact .pure fun t' _ => t'.knows_none
  | some type =>
    simp only [Option.toList_some, typeSites, fitAll_append] at h
    apply (resolveType_sound type false t h.1).bind
    intro t' _ lookup hlookup
    apply Upkeeps.pure
    intro t'' hgrows
    dsimp only
    split
    · exact knows_classOf? (hgrows.knows hlookup) type
    · exact t''.knows_none

/-! ## Names in expressions -/

theorem valueQualifier_sound (use : NameUse) (e : Expr) :
    Upkeeps names t (valueQualifier use e) fun t' q => t'.Knows q.type? := by
  apply Upkeeps.get
  intro b hb _
  apply Upkeeps.pure
  intro t' hgrows
  split
  · exact hgrows.knows (hb.knows_exprType? e)
  · exact t'.knows_none

theorem resolveSimpleName_sound (hname : names name.range.start = none) :
    Keeps names t (resolveSimpleName name) := by
  have hrest : ∀ t' (lookup : Lookup), t'.Knows lookup.binding? → Keeps names t' (do
      referIfFound name.range.start lookup
      if lookup = .missing then
        report .unresolvedName .semantic s!"{name.text} cannot be resolved to a variable"
          name.range) := by
    intro t' lookup hlookup
    apply (referIfFound_sound hname hlookup).bind
    intro t'' _ _
    exact Keeps.ite (report_sound _ _ _ _) (.pure _)
  unfold resolveSimpleName
  apply (lookupVariable_sound name.text).bind
  intro t' _ asVariable hvariable
  split
  · exact (lookupType_sound name.text).bind fun t'' _ asType htype => hrest t'' asType htype
  · rw [pure_bind]
    exact hrest t' asVariable hvariable

theorem resolveTargetName_sound (hname : names name.range.start = none) :
    Keeps names t (resolveTargetName name) := by
  unfold resolveTargetName
  apply (lookupVariable_sound name.text).bind
  intro t' _ lookup hlookup
  cases lookup with
  | found id => exact bindUse_sound hname (Bindings.knows_some.1 hlookup)
  | unknown => exact Keeps.pure _
  | missing => exact resolveSimpleName_sound hname

theorem resolveQualifierName_sound (hname : names name.range.start = none) :
    Upkeeps names t (resolveQualifierName name) fun t' q => t'.Knows q.type? := by
  unfold resolveQualifierName
  apply (lookupVariable_sound name.text).bind
  intro t' _ asVariable hvariable
  cases asVariable with
  | found id =>
    apply (refer_sound hname (Bindings.knows_some.1 hvariable)).bind
    intro t'' _ _
    apply Upkeeps.get
    intro b hb _
    exact .pure fun _ hgrows => hgrows.knows (hb.knows_valueType? id)
  | unknown => exact .pure fun t' _ => t'.knows_none
  | missing =>
    apply (lookupType_sound name.text).bind
    intro t'' _ asType htype
    cases asType with
    | found id =>
      apply (refer_sound hname (Bindings.knows_some.1 htype)).bind
      intro t₃ hgrows _
      exact .pure fun _ hgrows' => hgrows'.knows (hgrows.knows htype)
    | unknown => exact .pure fun t' _ => t'.knows_none
    | missing =>
      dsimp only
      split
      · exact .pure fun t' _ => t'.knows_none
      · exact (report_sound _ _ _ _).bind fun _ _ _ => .pure fun t' _ => t'.knows_none

theorem resolveName_sound (use : NameUse) (hname : names name.range.start = none) :
    Upkeeps names t (resolveName use name) fun t' q => t'.Knows q.type? := by
  cases use with
  | value =>
    exact (resolveSimpleName_sound hname).bind fun _ _ _ => .pure fun t' _ => t'.knows_none
  | target =>
    exact (resolveTargetName_sound hname).bind fun _ _ _ => .pure fun t' _ => t'.knows_none
  | qualifier => exact resolveQualifierName_sound hname

theorem selectFromPackage_sound (package : String) (hname : names name.range.start = none) :
    Upkeeps names t (selectFromPackage package name) fun t' q => t'.Knows q.type? := by
  unfold selectFromPackage
  apply Upkeeps.get
  intro b _ _
  split
  · rename_i id hid
    have hknows : b.bindings.Has id := knows_builtIn? b _ id hid
    apply (refer_sound hname hknows).bind
    intro t' hgrows _
    exact .pure fun _ hgrows' => Bindings.knows_some.2 (hgrows'.has (hgrows.has hknows))
  · apply Upkeeps.pure
    intro t' _
    split
    · exact t'.knows_none
    · exact t'.knows_none

theorem selectMember_sound (type : BindingId) (hname : names name.range.start = none) :
    Upkeeps names t (selectMember type name) fun t' q => t'.Knows q.type? := by
  unfold selectMember
  apply Upkeeps.get
  intro b hb _
  split
  · rename_i id hid
    apply (refer_sound hname (knows_findMember? _ _ _ _ id hid)).bind
    intro t' hgrows _
    exact .pure fun _ hgrows' => hgrows'.knows (hgrows.knows (hb.knows_valueType? id))
  split
  · rename_i id hid
    have hknows : b.bindings.Has id := knows_findMember? _ _ _ _ id hid
    apply (refer_sound hname hknows).bind
    intro t' hgrows _
    exact .pure fun _ hgrows' => Bindings.knows_some.2 (hgrows'.has (hgrows.has hknows))
  split
  · exact (report_sound _ _ _ _).bind fun _ _ _ => .pure fun t' _ => t'.knows_none
  · exact .pure fun t' _ => t'.knows_none

theorem select_sound {qualifier : Qualifier} (hqualifier : t.Knows qualifier.type?)
    (hname : names name.range.start = none) :
    Upkeeps names t (select qualifier name) fun t' q => t'.Knows q.type? := by
  unfold select
  split
  · exact selectFromPackage_sound _ hname
  · exact .pure fun t' _ => t'.knows_none
  · rename_i type _ htype
    have hhas : t.Has type := hqualifier type htype
    split
    · apply (bindUse_sound hname hhas).bind
      intro t' hgrows _
      exact .pure fun _ hgrows' => Bindings.knows_some.2 (hgrows'.has (hgrows.has hhas))
    split
    · apply Upkeeps.get
      intro b hb _
      exact .pure fun _ hgrows => hgrows.knows (hb.knows_superClass? type)
    · exact selectMember_sound type hname

/-! ## Calls, cases and annotations -/

theorem reportMissingMethod_sound (name : Ident) (args : List Expr) (owner : String) :
    Keeps names t (reportMissingMethod name args owner) := by
  apply Upkeeps.get
  intro b _ _
  exact report_sound _ _ _ _

theorem resolveConstructorCall_sound (arity : Nat) (hname : names name.range.start = none) :
    Keeps names t (resolveConstructorCall name arity) := by
  unfold resolveConstructorCall
  apply Upkeeps.get
  intro b _ _
  dsimp only
  split
  · rename_i id hid
    obtain ⟨type, -, hfound⟩ := Option.bind_eq_some_iff.1 hid
    obtain ⟨data, hdata, -⟩ := Bindings.mem_members_iff.1 (List.mem_of_find?_eq_some hfound)
    exact refer_sound hname (Bindings.has_of_get? hdata)
  · exact Keeps.pure _

theorem resolveSimpleCall_sound (args : List Expr) (hname : names name.range.start = none) :
    Keeps names t (resolveSimpleCall name args) := by
  unfold resolveSimpleCall
  split
  · exact resolveConstructorCall_sound _ hname
  · apply (lookupMethod_sound _ _).bind
    intro t' _ lookup hlookup
    apply (referIfFound_sound hname hlookup).bind
    intro t'' _ _
    split
    · apply Upkeeps.get
      intro b _ _
      exact reportMissingMethod_sound _ _ _
    · exact Keeps.pure _

theorem resolveMemberCall_sound (qualifier : Qualifier) (args : List Expr)
    (hname : names name.range.start = none) :
    Keeps names t (resolveMemberCall qualifier name args) := by
  unfold resolveMemberCall
  split
  · exact Keeps.pure _
  · apply Upkeeps.get
    intro b _ _
    split
    · rename_i id hid
      exact refer_sound hname (knows_findMethod? b _ _ _ id hid)
    split
    · exact reportMissingMethod_sound _ _ _
    · exact Keeps.pure _

theorem resolveMethodRef_sound (qualifier : Qualifier) {name : Option Ident}
    (hname : ∀ n ∈ name, names n.range.start = none) :
    Keeps names t (resolveMethodRef qualifier name) := by
  unfold resolveMethodRef
  split
  · apply Upkeeps.get
    intro b _ _
    split
    · rename_i id hid
      exact refer_sound (hname _ rfl) (knows_findMember? _ _ _ _ id hid)
    · exact Keeps.pure _
  · exact Keeps.pure _

theorem resolveCaseName_sound (enumType : Option BindingId)
    (hname : names name.range.start = none) : Keeps names t (resolveCaseName enumType name) := by
  unfold resolveCaseName
  split
  · apply Upkeeps.get
    intro b _ _
    split
    · rename_i id hid
      exact refer_sound hname (knows_findMember? _ _ _ _ id hid)
    · exact Keeps.pure _
  · exact (lookupVariable_sound _).bind fun _ _ _ hlookup => referIfFound_sound hname hlookup

theorem checkExhaustive_sound (range : TextRange) (selector : Expr) (cases : List SwitchCase) :
    Keeps names t (checkExhaustive range selector cases) := by
  unfold checkExhaustive
  apply Upkeeps.get
  intro b _ _
  exact Keeps.ite (report_sound _ _ _ _) (.pure _)

theorem resolveMarkerName_sound (name : QualifiedName) (hname : names name.range.start = none) :
    Keeps names t (resolveMarkerName name) := by
  have hrest : ∀ t' (lookup : Lookup), t'.Knows lookup.binding? → Keeps names t' (do
      referIfFound name.range.start lookup
      if lookup = .missing then reportMissingType name.toDotted name.range) := by
    intro t' lookup hlookup
    apply (referIfFound_sound hname hlookup).bind
    intro t'' _ _
    exact Keeps.ite (report_sound _ _ _ _) (.pure _)
  unfold resolveMarkerName
  split
  · exact (lookupType_sound _).bind fun t' _ lookup hlookup => hrest t' lookup hlookup
  · exact (lookupBuiltIn_sound _).bind fun t' _ lookup hlookup => hrest t' lookup hlookup

end JavaAnalysis.Binder
