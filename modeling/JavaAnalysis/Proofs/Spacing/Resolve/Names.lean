import JavaAnalysis.Proofs.Spacing.Resolve.Walk

/-!
# Looking names up in two walks

Names are looked up by their spelling among what is known, so two walks that are alike find the same.
What is declared gets the same number in both.
-/

set_option autoImplicit false
set_option linter.dupNamespace false

namespace JavaAnalysis.Binder

open Ast

variable {f : Shift} {b c : Binder}

/-! ## Looking names up -/

theorem lookupType_alike (name : String) : Alike f (lookupType name) (lookupType name) := by
  refine .get fun b c h => ?_
  simp only [h.scopes_eq, h.typeIn?_eq, h.topLevel_eq, h.imports_eq, h.builtIn?_eq,
    h.onDemandImport?_eq, h.isUnknownPackage_eq, h.inOpenType_eq]
  split
  · exact .pure _
  split
  · exact .pure _
  split
  · exact .bind (.set (h.update rfl rfl rfl (by rw [h.same]))) fun _ => .pure _
  split
  · exact .pure _
  split
  · exact .bind (.set (h.update rfl rfl rfl (by rw [h.same]))) fun _ => .pure _
  · refine .ite (fun _ => ?_) fun _ => .pure _
    exact .bind (.set (h.update rfl rfl rfl (by rw [h.same]))) fun _ => .pure _

theorem lookupImported_alike (name : String) (p : Binding → Bool) :
    Alike f (lookupImported name p) (lookupImported name p) := by
  refine .get fun b c h => ?_
  rw [h.bindings_eq, h.imports_eq, h.inOpenType_eq]
  exact .bind (.set (h.update rfl rfl rfl (by rw [h.same]))) fun _ => .pure _

theorem lookupVariable_alike (name : String) :
    Alike f (lookupVariable name) (lookupVariable name) := by
  refine .get fun b c h => ?_
  rw [h.scopes_eq, h.variableIn?_eq]
  split
  · exact .pure _
  · exact lookupImported_alike name _

theorem lookupMethod_alike (name : String) (arity : Nat) :
    Alike f (lookupMethod name arity) (lookupMethod name arity) := by
  refine .get fun b c h => ?_
  simp only [h.scopes_eq, h.findMethod?_eq]
  split
  · exact .pure _
  · exact lookupImported_alike name _

/-! ## Types -/

@[simp] theorem isPackageLike_shift (t : TypeRef) : isPackageLike (t.shift f) = isPackageLike t := by
  fun_induction isPackageLike t with
  | case1 => simp [TypeRef.shift, isPackageLike]
  | case2 _ q name argsRange args ih => simp [TypeRef.shift, isPackageLike, ih]
  | case3 t hnone hsome =>
    cases t with
    | named r q name argsRange args =>
      cases q with
      | none => exact absurd rfl (hnone _ _ _ _)
      | some q => exact absurd rfl (hsome _ _ _ _ _)
    | _ => rfl

theorem referIfFound_alike (o : Nat) (lookup : Lookup) :
    Alike f (referIfFound o lookup) (referIfFound (f.start o) lookup) := by
  cases lookup with
  | found id => exact refer_alike o id
  | unknown | missing => exact .pure ()

theorem reportMissingType_alike (name : String) (range : TextRange) :
    Alike f (reportMissingType name range) (reportMissingType name (f.range range)) :=
  report_alike _ _ _ _

theorem lookupBuiltIn_alike (name : String) :
    Alike f (lookupBuiltIn name) (lookupBuiltIn name) := by
  refine .get fun b c h => ?_
  rw [h.builtIn?_eq]
  exact .pure _

theorem lookupInner_alike (outer : Lookup) (name : String) :
    Alike f (lookupInner outer name) (lookupInner outer name) := by
  cases outer with
  | found id =>
    refine .get fun b c h => ?_
    rw [h.missingIn_eq, h.bindings_eq]
    exact .pure _
  | unknown | missing => exact .pure _

theorem bindQualifier_alike (o : Nat) (lookup : Lookup) :
    Alike f (bindQualifier o lookup) (bindQualifier (f.start o) lookup) := by
  cases lookup with
  | found id => exact (bind_alike o id).bind fun _ => .pure _
  | unknown | missing => exact .pure _

mutual

theorem resolveType_alike : ∀ (t : TypeRef) (qualifying : Bool),
    Alike f (resolveType qualifying t) (resolveType qualifying (t.shift f))
  | .primitive _ _, _ | .inferred _, _ | .wildcard _, _ => by
    rw [TypeRef.shift, resolveType, resolveType]
    exact .pure _
  | .array _ element _, qualifying => by
    rw [TypeRef.shift, resolveType, resolveType]
    exact .ite (fun _ => .pure _) fun _ => resolveType_alike element false
  | .bounded _ _ bound, qualifying => by
    rw [TypeRef.shift, resolveType, resolveType]
    refine .ite (fun _ => .pure _) fun _ => ?_
    exact (resolveType_alike bound false).bind fun _ => .pure _
  | .union _ types, qualifying => by
    rw [TypeRef.shift, TypeRef.shiftAll_eq, resolveType, resolveType]
    refine .ite (fun _ => .pure _) fun _ => ?_
    exact (resolveTypes_alike types).bind fun _ => .pure _
  | .intersection _ types, qualifying => by
    rw [TypeRef.shift, TypeRef.shiftAll_eq, resolveType, resolveType]
    refine .ite (fun _ => .pure _) fun _ => ?_
    exact (resolveTypes_alike types).bind fun _ => .pure _
  | .named range qualifier name argsRange args, qualifying => by
    have hspelled := (TypeRef.named range qualifier name argsRange args).shift_erased f
    have hlast : ∀ lookup, Alike f
        (referIfFound name.range.start lookup >>= fun _ =>
          if lookup = .missing then reportMissingType name.text name.range >>= fun _ => pure lookup
          else pure lookup)
        (referIfFound (f.start name.range.start) lookup >>= fun _ =>
          if lookup = .missing then
            reportMissingType name.text (f.range name.range) >>= fun _ => pure lookup
          else pure lookup) := fun lookup =>
      (referIfFound_alike _ lookup).bind fun _ => .ite
        (fun _ => (reportMissingType_alike _ _).bind fun _ => .pure _) fun _ => .pure _
    rw [TypeRef.shift, TypeRef.shiftAll_eq, TypeRef.shiftOption_eq] at hspelled ⊢
    rw [resolveType, resolveType, hspelled]
    cases qualifier with
    | none =>
      refine .ite (fun _ => (lookupType_alike _).bind fun _ => bindQualifier_alike _ _) fun _ => ?_
      refine .ite (fun _ => (lookupBuiltIn_alike _).bind fun _ => bindQualifier_alike _ _)
        fun _ => ?_
      exact (resolveTypes_alike args).bind fun _ => (lookupType_alike _).bind hlast
    | some q =>
      simp only [Option.map_some, Option.any_some, isPackageLike_shift, q.shift_erased,
        Ident.shift_text]
      refine .ite (fun _ => (lookupType_alike _).bind fun _ => bindQualifier_alike _ _) fun _ => ?_
      refine .ite (fun _ => (lookupBuiltIn_alike _).bind fun _ => bindQualifier_alike _ _)
        fun _ => ?_
      refine (resolveTypes_alike args).bind fun _ => .get fun b c h => ?_
      rw [h.builtIn?_eq]
      split
      · exact (Alike.pure _).bind hlast
      · exact (resolveType_alike q true).bind fun _ => (lookupInner_alike _ _).bind hlast

theorem resolveTypes_alike : ∀ types : List TypeRef,
    Alike f (resolveTypes types) (resolveTypes (types.map (TypeRef.shift f)))
  | [] => by
    rw [List.map_nil, resolveTypes]
    exact .pure _
  | t :: ts => by
    rw [List.map_cons, resolveTypes, resolveTypes]
    exact (resolveType_alike t false).bind fun _ => resolveTypes_alike ts

end

theorem resolveInnerType_alike (outer : Option BindingId) (t : TypeRef) :
    Alike f (resolveInnerType outer t) (resolveInnerType outer (t.shift f)) := by
  cases t with
  | named _ _ name _ args =>
    rw [TypeRef.shift, TypeRef.shiftAll_eq, resolveInnerType, resolveInnerType]
    refine (resolveTypes_alike args).bind fun _ => .get fun b c h => ?_
    rw [h.bindings_eq]
    exact (referIfFound_alike _ _).bind fun _ => .pure _
  | _ => exact .pure _

@[simp] theorem classOf?_shift (t : TypeRef) (lookup : Lookup) :
    classOf? (t.shift f) lookup = classOf? t lookup := by
  cases t <;> rfl

theorem Moved.boundClass?_eq (h : Moved f b c) (t : TypeRef) :
    c.boundClass? (t.shift f) = b.boundClass? t := by
  cases t with
  | named _ _ name _ _ => exact h.boundAt?_eq name.range.start
  | _ => rfl

/-! ## Declarations -/

theorem declareTypeName_alike (owner : Option BindingId) (kind : TypeDeclKind)
    (ms : List Modifier) (name : Ident) :
    Alike f (declareTypeName owner kind ms name)
      (declareTypeName owner kind (ms.map (Modifier.shift f)) (name.shift f)) := by
  refine .get fun b c h => ?_
  rw [ofModifiers_shift, h.qualifiedName?_eq]
  refine (allocate_alike _).bind fun id => (bind_alike _ id).bind fun _ => ?_
  refine .ite (fun _ => .bind (.change fun b c h => ?_) fun _ => .pure _) fun _ => .pure _
  exact h.update rfl rfl rfl (by rw [h.same]; rfl)

mutual

theorem declareType_alike : ∀ (decl : TypeDecl) (owner : Option BindingId),
    Alike f (declareType owner decl) (declareType owner (decl.shift f))
  | .mk _ kind ms name _ _ _ _ _ _ _ (.mk _ _ members), owner => by
    simp! only [Modifier.shiftAll_eq, Member.shiftAll_eq]
    exact (declareTypeName_alike owner kind ms name).bind fun id => declareTypesIn_alike members id

theorem declareTypesIn_alike : ∀ (members : List Member) (owner : BindingId),
    Alike f (declareTypesIn owner members) (declareTypesIn owner (members.map (Member.shift f)))
  | [], _ => .pure _
  | .type decl :: members, owner =>
    (declareType_alike decl (some owner)).bind fun _ => declareTypesIn_alike members owner
  | .field _ :: members, owner => declareTypesIn_alike members owner
  | .method _ :: members, owner => declareTypesIn_alike members owner
  | .initializer _ _ _ :: members, owner => declareTypesIn_alike members owner

end

theorem declareTypeParamNames_alike (owner : BindingId) (params : List TypeParam) :
    Alike f (declareTypeParamNames owner params)
      (declareTypeParamNames owner (params.map (TypeParam.shift f))) := by
  induction params with
  | nil => exact .pure _
  | cons param params ih =>
    obtain ⟨_, _, name, _⟩ := param
    refine (allocate_alike _).bind fun id => (bind_alike _ id).bind fun _ => ?_
    exact (enter_alike _ id).bind fun _ => ih

theorem enterAgain_alike (names : List Ident) :
    Alike f (enterAgain names) (enterAgain (names.map (Ident.shift f))) := by
  induction names with
  | nil => exact .pure _
  | cons name names ih =>
    refine .get fun b c h => ?_
    have hname := h.boundAt?_eq name.range.start
    simp only [Ident.shift_range, Shift.range_start, hname]
    split
    · exact (enter_alike _ _).bind fun _ => ih
    · exact ih

theorem resolveParamType_alike (param : Param) :
    Alike f (resolveParamType param) (resolveParamType (param.shift f)) := by
  obtain ⟨_, _, type, ellipsis, _, brackets⟩ := param
  cases type with
  | none => exact .pure _
  | some type =>
    simp! only [TypeRef.shiftOption_eq, Option.map_some]
    refine (resolveType_alike type false).bind fun lookup => ?_
    simp only [TypeRef.shift_display, List.length_map, List.isEmpty_map, Option.isNone_map,
      Option.isSome_map, classOf?_shift]
    exact .pure _

theorem declareComponents_alike (owner : BindingId) (components : List Param) :
    Alike f (declareComponents owner components)
      (declareComponents owner (components.map (Param.shift f))) := by
  induction components with
  | nil => exact .pure _
  | cons component components ih =>
    refine (resolveParamType_alike component).bind fun r => ?_
    simp only [Param.shift_name]
    refine (allocate_alike _).bind fun id => (bind_alike _ id).bind fun _ => ?_
    exact (allocate_alike _).bind fun _ => ih

theorem resolveParents_alike (id : BindingId) (types : List TypeRef) :
    Alike f (resolveParents id types) (resolveParents id (types.map (TypeRef.shift f))) := by
  induction types with
  | nil => exact .pure _
  | cons t ts ih =>
    refine (resolveType_alike t false).bind fun lookup => ?_
    split
    · exact ih.bind fun _ => .pure _
    · exact (markOpen_alike id).bind fun _ => ih

theorem declareSupertypes_alike (id : BindingId) (kind : TypeDeclKind)
    (supers interfaces permitted : List TypeRef) :
    Alike f (declareSupertypes id kind supers interfaces permitted)
      (declareSupertypes id kind (supers.map (TypeRef.shift f))
        (interfaces.map (TypeRef.shift f)) (permitted.map (TypeRef.shift f))) := by
  refine (resolveParents_alike id supers).bind fun supers => ?_
  refine (resolveParents_alike id interfaces).bind fun interfaces => ?_
  refine (resolveTypes_alike permitted).bind fun _ => .get fun b c h => ?_
  rw [h.defaultSuperClass_eq]
  exact complete_alike id _

theorem declareConstants_alike (owner : BindingId) (typeName : String)
    (constants : List EnumConstant) :
    Alike f (declareConstants owner typeName constants)
      (declareConstants owner typeName (constants.map (EnumConstant.shift f))) := by
  induction constants with
  | nil => exact .pure _
  | cons constant constants ih =>
    rw [List.map_cons, declareConstants, declareConstants]
    simp only [EnumConstant.shift_name]
    exact (allocate_alike _).bind fun id => (bind_alike _ id).bind fun _ => ih

theorem declareFieldNames_alike (owner : BindingId) (flags : ModifierSet) (type : TypeRef)
    (lookup : Lookup) (fragments : List VarFragment) :
    Alike f (declareFieldNames owner flags type lookup fragments)
      (declareFieldNames owner flags (type.shift f) lookup
        (fragments.map (VarFragment.shift f))) := by
  induction fragments with
  | nil => exact .pure _
  | cons fragment fragments ih =>
    obtain ⟨_, name, brackets, _⟩ := fragment
    simp! only [List.map_cons, TypeRef.shift_display, List.length_map, List.isEmpty_map,
      classOf?_shift]
    exact (allocate_alike _).bind fun id => (bind_alike _ id).bind fun _ => ih

theorem declareFields_alike (owner : BindingId) (inInterface : Bool) (decl : VarDecl) :
    Alike f (declareFields owner inInterface decl)
      (declareFields owner inInterface (decl.shift f)) := by
  obtain ⟨_, ms, type, fragments⟩ := decl
  simp! only [Modifier.shiftAll_eq, VarFragment.shiftAll_eq, ofModifiers_shift]
  exact (resolveType_alike type false).bind fun _ => declareFieldNames_alike _ _ _ _ _

theorem declareParams_alike (owner : BindingId) (params : List Param) :
    Alike f (declareParams owner params)
      (declareParams owner (params.map (Param.shift f))) := by
  induction params with
  | nil => exact .pure _
  | cons param params ih =>
    rw [List.map_cons, declareParams, declareParams]
    refine (resolveParamType_alike param).bind fun r => ?_
    simp only [Param.shift_name, Param.shift_modifiers, ofModifiers_shift]
    refine (allocate_alike _).bind fun id => ?_
    have hrest := (bind_alike (f := f) param.name.range.start id).bind fun _ =>
      ih.bind fun spellings => Alike.pure (r.1 :: spellings)
    exact .ite (fun _ => (markUntyped_alike id).bind fun _ => hrest) fun _ => hrest

theorem declareLocal_alike (kind : BindingKind) (ms : List Modifier) (type : Option TypeRef)
    (lookup : Lookup) (name : Ident) (brackets : Nat) :
    Alike f (declareLocal kind ms type lookup name brackets)
      (declareLocal kind (ms.map (Modifier.shift f)) (type.map (TypeRef.shift f)) lookup
        (name.shift f) brackets) := by
  refine .get fun b c h => ?_
  rw [h.currentOwner?_eq, ofModifiers_shift]
  have hrest : ∀ data, Alike f
      (allocate data >>= fun id =>
        if lookup = .missing then markUntyped id >>= fun _ =>
          enter name.text id >>= fun _ => bind name.range.start id
        else enter name.text id >>= fun _ => bind name.range.start id)
      (allocate data >>= fun id =>
        if lookup = .missing then markUntyped id >>= fun _ =>
          enter name.text id >>= fun _ => bind (f.start name.range.start) id
        else enter name.text id >>= fun _ => bind (f.start name.range.start) id) := fun data =>
    (allocate_alike data).bind fun id => .ite
      (fun _ => (markUntyped_alike id).bind fun _ => (enter_alike _ id).bind fun _ => bind_alike _ id)
      fun _ => (enter_alike _ id).bind fun _ => bind_alike _ id
  cases type with
  | none => exact hrest _
  | some type =>
    simp only [Option.map_some, TypeRef.shift_display, classOf?_shift]
    exact hrest _

theorem declareAnonymous_alike (o : Nat) (parent : Option BindingId) :
    Alike f (declareAnonymous o parent) (declareAnonymous (f.start o) parent) := by
  refine .get fun b c h => ?_
  rw [h.builtIn?_eq, h.currentOwner?_eq, h.bindings_eq]
  refine (allocate_alike _).bind fun id => (bind_alike o id).bind fun _ => ?_
  exact .ite (fun _ => (markOpen_alike id).bind fun _ => .pure id) fun _ => .pure id

theorem forM_alike {α : Type} {step step' : α → Binding.Walk Unit}
    (h : ∀ x, Alike f (step x) (step' x)) (xs : List α) :
    Alike f (xs.forM step) (xs.forM step') := by
  induction xs with
  | nil => exact .pure _
  | cons x xs ih => exact (h x).bind fun _ => ih

theorem enterComponents_alike : Alike f enterComponents enterComponents := by
  refine .get fun b c h => ?_
  rw [h.currentType?_eq, h.bindings_eq]
  split
  · exact .pure _
  · exact forM_alike (fun _ => enter_alike _ _) _

end JavaAnalysis.Binder
