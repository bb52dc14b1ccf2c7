import JavaAnalysis.Proofs.Resolve.Discipline

/-!
# Names in types and names that are declared

A discipline holds for what is done with the names in types, and for what declares types, fields,
parameters and local variables.
-/

set_option autoImplicit false

namespace JavaAnalysis.Binder

open Ast

variable {known : Mention → Prop} (d : Discipline known) {offset : Nat}

/-! ## Types -/

/-- A name is bound to what is found; that nothing is found may be reported. -/
theorem referThenReport_holds {m : Mention} (h : known m) (hm : m.IsUse) (lookup : Lookup)
    (hmissing : lookup = .missing → ∀ name, m.unqualified? = some name → d.Answers name .missing)
    (name : String) : d.Holds (do
      referIfFound m.offset lookup
      if lookup = .missing then reportMissingType name m.range
      return lookup) := by
  refine d.bind (referIfFound_holds d h hm lookup) fun _ => ?_
  split
  · rename_i hlookup
    exact d.bind (d.report _ _ (by decide) (.inl rfl) h (hmissing hlookup)) fun _ => d.pure _
  · exact d.pure _

mutual

theorem resolveType_holds : ∀ (t : TypeRef) (qualifying : Bool),
    Known known (t.mentions qualifying) → d.Holds (resolveType qualifying t)
  | .primitive _ _, _, _ => by
    simp only [resolveType]
    exact d.pure _
  | .inferred _, _, _ => by
    simp only [resolveType]
    exact d.pure _
  | .array _ element _, qualifying, h => by
    simp only [TypeRef.mentions] at h
    simp only [resolveType]
    split
    · exact d.pure _
    · exact resolveType_holds element false h
  | .wildcard _, _, _ => by
    simp only [resolveType]
    exact d.pure _
  | .bounded _ _ bound, qualifying, h => by
    simp only [TypeRef.mentions] at h
    simp only [resolveType]
    split
    · exact d.bind (d.pure _) fun _ => d.pure _
    · exact d.bind (resolveType_holds bound false h) fun _ => d.pure _
  | .union _ ts, qualifying, h => by
    simp only [TypeRef.mentions] at h
    simp only [resolveType]
    split
    · exact d.bind (d.pure _) fun _ => d.pure _
    · exact d.bind (resolveTypes_holds ts h) fun _ => d.pure _
  | .intersection _ ts, qualifying, h => by
    simp only [TypeRef.mentions] at h
    simp only [resolveType]
    split
    · exact d.bind (d.pure _) fun _ => d.pure _
    · exact d.bind (resolveTypes_holds ts h) fun _ => d.pure _
  | .named _ none name _ args, qualifying, h => by
    simp only [TypeRef.mentions, known_cons] at h
    obtain ⟨hname, hargs⟩ := h
    simp only [resolveType]
    split
    · rename_i hpassive
      simp only [Option.isNone_none, Bool.and_true, Bool.and_eq_true] at hpassive
      exact d.lookupType _ fun _ _ => bindQualifier_holds d hname hpassive _
    split
    · rename_i hpackage
      simp at hpackage
    refine d.bind (resolveTypes_holds args hargs) fun _ => ?_
    refine d.lookupType _ fun lookup hlookup => ?_
    refine referThenReport_holds d hname trivial lookup (fun hmissing n hn => ?_) _
    rw [Mention.unqualified?, Option.some.injEq] at hn
    rwa [← hmissing, ← hn]
  | .named _ (some q) name _ args, qualifying, h => by
    simp only [TypeRef.mentions, known_append, known_cons] at h
    obtain ⟨hq, hname, hargs⟩ := h
    have hfound : ∀ lookup : Lookup, d.Holds (do
        referIfFound name.range.start lookup
        if lookup = .missing then reportMissingType name.text name.range
        return lookup) := fun lookup =>
      referThenReport_holds d hname trivial lookup (fun _ _ hn => by cases hn) _
    simp only [resolveType]
    split
    · rename_i hpassive
      simp at hpassive
    split
    · rename_i hpackage
      simp only [Option.any_some, Bool.and_eq_true] at hpackage
      exact d.bind (lookupBuiltIn_holds d _) fun _ => bindQualifier_holds d hname hpackage _
    refine d.bind (resolveTypes_holds args hargs) fun _ => ?_
    refine d.get (.of_blind fun _ _ _ => rfl) fun b => ?_
    split
    · exact d.bind (d.pure _) fun _ => hfound _
    · refine d.bind (resolveType_holds q true hq) fun _ => ?_
      exact d.bind (lookupInner_holds d _ _) fun _ => hfound _

theorem resolveTypes_holds : ∀ ts : List TypeRef, Known known (typeMentions ts) →
    d.Holds (resolveTypes ts)
  | [], _ => by
    simp only [resolveTypes]
    exact d.pure _
  | t :: ts, h => by
    simp only [typeMentions, known_append] at h
    simp only [resolveTypes]
    exact d.bind (resolveType_holds t false h.1) fun _ => resolveTypes_holds ts h.2

end

theorem resolveInnerType_holds (outer : Option BindingId) (t : TypeRef)
    (h : Known known t.innerMentions) : d.Holds (resolveInnerType outer t) := by
  unfold resolveInnerType
  split
  · simp only [TypeRef.innerMentions, known_cons] at h
    obtain ⟨hname, hargs⟩ := h
    refine d.bind (resolveTypes_holds d _ hargs) fun _ => ?_
    refine d.get (.of_blind fun _ _ _ => rfl) fun b => ?_
    exact d.bind (referIfFound_holds d hname trivial _) fun _ => d.pure _
  · exact d.pure _

/-! ## Declarations -/

theorem declareTypeName_holds (owner : Option BindingId) (kind : TypeDeclKind)
    (modifiers : List Modifier) {name : Ident} (h : known (.declared name.range.start)) :
    d.Holds (declareTypeName owner kind modifiers name) := by
  unfold declareTypeName
  refine d.get (.of_blind fun _ _ _ => rfl) fun b => d.declare h fun id => ?_
  split
  · exact d.bind (d.addTopLevel _ id) fun _ => d.pure _
  · exact d.pure _

mutual

theorem declareType_holds : ∀ (decl : TypeDecl) (owner : Option BindingId),
    Known known decl.mentions → d.Holds (declareType owner decl)
  | .mk _ kind modifiers name _ _ _ _ _ _ _ (.mk _ _ members), owner, h => by
    simp! only [known_append, known_cons] at h ⊢
    exact d.bind (declareTypeName_holds d owner kind modifiers h.2.1) fun id =>
      declareTypesIn_holds members id h.1.2

theorem declareTypesIn_holds : ∀ (members : List Member) (owner : BindingId),
    Known known (memberMentions members) → d.Holds (declareTypesIn owner members)
  | [], _, _ => by
    simp! only
    exact d.pure _
  | .type decl :: members, owner, h => by
    simp! only [known_append] at h ⊢
    exact d.bind (declareType_holds decl (some owner) h.1) fun _ =>
      declareTypesIn_holds members owner h.2
  | .field _ :: members, owner, h => by
    simp! only [known_append] at h ⊢
    exact declareTypesIn_holds members owner h.2
  | .method _ :: members, owner, h => by
    simp! only [known_append] at h ⊢
    exact declareTypesIn_holds members owner h.2
  | .initializer _ _ _ :: members, owner, h => by
    simp! only [known_append] at h ⊢
    exact declareTypesIn_holds members owner h.2

end

theorem declareTypeParamNames_holds (owner : BindingId) (params : List TypeParam)
    (h : Known known (typeParamMentions params)) :
    d.Holds (declareTypeParamNames owner params) := by
  induction params with
  | nil => exact d.pure _
  | cons param params ih =>
    obtain ⟨range, marks, name, bounds⟩ := param
    simp! only [known_append, known_cons] at h
    unfold declareTypeParamNames
    exact d.declare h.2.1 fun id => d.bind (d.enter _ id h.2.1) fun _ => ih h.2.2

/-- Names that are known to be declared may be brought into scope again. -/
theorem enterAgain_holds (names : List Ident)
    (h : ∀ name ∈ names, known (.declared name.range.start)) : d.Holds (enterAgain names) := by
  induction names with
  | nil => exact d.pure _
  | cons name names ih =>
    rw [List.forall_mem_cons] at h
    unfold enterAgain
    refine d.get (fun b b' hb => ?_) fun b => ?_
    · simp only [hb.declared_eq h.1]
    · split
      · exact d.bind (d.enter _ _ h.1) fun _ => ih h.2
      · exact ih h.2

theorem typeParamNames_known {params : List TypeParam}
    (h : Known known (typeParamMentions params)) :
    ∀ name ∈ params.map TypeParam.name, known (.declared name.range.start) := by
  induction params with
  | nil => simp
  | cons param params ih =>
    obtain ⟨range, marks, name, bounds⟩ := param
    simp! only [known_append, known_cons] at h
    simp only [List.map_cons, List.forall_mem_cons]
    exact ⟨h.2.1, ih h.2.2⟩

/-- The name of a parameter is declared. -/
theorem Known.declared_param {p : Param} (h : Known known p.mentions) :
    known (.declared p.name.range.start) := by
  obtain ⟨range, ms, type, ellipsis, name, brackets⟩ := p
  simp! only [known_append, known_cons] at h
  exact h.2.1

theorem resolveParamType_holds (p : Param) (h : Known known p.mentions) :
    d.Holds (resolveParamType p) := by
  obtain ⟨range, ms, type, ellipsis, name, brackets⟩ := p
  simp! only [known_append] at h
  cases type with
  | none => exact d.pure _
  | some t =>
    have ht : Known known (t.mentions false) := by simpa [typeMentions] using h.1.2
    exact d.bind (resolveType_holds d t false ht) fun _ => d.pure _

theorem declareComponents_holds (owner : BindingId) (components : List Param)
    (h : Known known (paramMentions components)) :
    d.Holds (declareComponents owner components) := by
  induction components with
  | nil => exact d.pure _
  | cons component components ih =>
    simp! only [known_append] at h
    unfold declareComponents
    refine d.bind (resolveParamType_holds d component h.1) fun _ => ?_
    refine d.declare h.1.declared_param fun id => ?_
    exact d.bind (d.allocate _ h.1.declared_param) fun _ => ih h.2

theorem resolveParents_holds (id : BindingId) (ts : List TypeRef)
    (h : Known known (typeMentions ts)) : d.Holds (resolveParents id ts) := by
  induction ts with
  | nil => exact d.pure _
  | cons t ts ih =>
    simp only [typeMentions, known_append] at h
    unfold resolveParents
    refine d.bind (resolveType_holds d t false h.1) fun lookup => ?_
    split
    · exact d.bind (ih h.2) fun _ => d.pure _
    · exact d.bind (d.markOpen id) fun _ => ih h.2

theorem declareSupertypes_holds (id : BindingId) (kind : TypeDeclKind)
    {supers interfaces permitted : List TypeRef} (h : known (.declared offset))
    (hsupers : Known known (typeMentions supers))
    (hinterfaces : Known known (typeMentions interfaces))
    (hpermitted : Known known (typeMentions permitted)) :
    d.Holds (declareSupertypes id kind supers interfaces permitted) := by
  unfold declareSupertypes
  refine d.bind (resolveParents_holds d id supers hsupers) fun _ => ?_
  refine d.bind (resolveParents_holds d id interfaces hinterfaces) fun _ => ?_
  refine d.bind (resolveTypes_holds d permitted hpermitted) fun _ => ?_
  exact d.get (.of_blind fun _ _ _ => by cases kind <;> rfl) fun b => d.complete _ _ h

theorem declareConstants_holds (owner : BindingId) (typeName : String)
    (constants : List EnumConstant) (h : Known known (constantMentions constants)) :
    d.Holds (declareConstants owner typeName constants) := by
  induction constants with
  | nil => exact d.pure _
  | cons constant constants ih =>
    obtain ⟨range, ms, name, argsRange, args, body⟩ := constant
    simp! only [known_append, known_cons] at h
    unfold declareConstants
    exact d.declare h.2.1 fun id => ih h.2.2

theorem declareFieldNames_holds (owner : BindingId) (flags : ModifierSet) (type : TypeRef)
    (lookup : Lookup) (fragments : List VarFragment)
    (h : Known known (fragmentMentions fragments)) :
    d.Holds (declareFieldNames owner flags type lookup fragments) := by
  induction fragments with
  | nil => exact d.pure _
  | cons fragment fragments ih =>
    obtain ⟨range, name, brackets, init⟩ := fragment
    simp! only [known_append, known_cons] at h
    unfold declareFieldNames
    exact d.declare h.2.1 fun id => ih h.2.2

theorem declareFields_holds (owner : BindingId) (inInterface : Bool) (decl : VarDecl)
    (h : Known known decl.mentions) : d.Holds (declareFields owner inInterface decl) := by
  obtain ⟨range, modifiers, type, fragments⟩ := decl
  simp! only [known_append] at h
  unfold declareFields
  exact d.bind (resolveType_holds d type false h.1.2) fun _ =>
    declareFieldNames_holds d _ _ _ _ _ h.2

/-- A name may be brought into scope before it is bound. -/
theorem enter_bind_comm (name : String) (id : BindingId) (offset : Nat) : (do
      enter name id
      bind offset id) = (do
      bind offset id
      enter name id) := by
  funext ⟨_, _, _, _, _, _, scopes, _, _, _⟩
  cases scopes with
  | nil => rfl
  | cons s ss => rfl

theorem declareParams_holds (owner : BindingId) (params : List Param)
    (h : Known known (paramMentions params)) : d.Holds (declareParams owner params) := by
  induction params with
  | nil => exact d.pure _
  | cons param params ih =>
    simp! only [known_append] at h
    have hrest : ∀ typeName : String, d.Holds (do
        return typeName :: (← declareParams owner params)) := fun typeName =>
      d.bind (ih h.2) fun _ => d.pure _
    unfold declareParams
    refine d.bind (resolveParamType_holds d param h.1) fun type => ?_
    by_cases hmissing : type.2.2 = .missing
    · simp only [hmissing, if_true]
      exact d.declare h.1.declared_param fun id => d.bind (d.markUntyped id) fun _ => hrest _
    · simp only [hmissing, if_false]
      exact d.declare h.1.declared_param fun id => hrest _

theorem declareLocal_holds (kind : BindingKind) (modifiers : List Modifier)
    (type : Option TypeRef) (lookup : Lookup) {name : Ident} (brackets : Nat)
    (h : known (.declared name.range.start)) :
    d.Holds (declareLocal kind modifiers type lookup name brackets) := by
  unfold declareLocal
  refine d.get (.of_blind fun _ _ _ => rfl) fun b => ?_
  by_cases hmissing : lookup = .missing
  · simp only [hmissing, if_true, enter_bind_comm]
    exact d.declare h fun id => d.bind (d.markUntyped id) fun _ => d.enter _ id h
  · simp only [hmissing, if_false, enter_bind_comm]
    exact d.declare h fun id => d.enter _ id h

theorem declareAnonymous_holds (h : known (.declared offset)) (parent : Option BindingId) :
    d.Holds (declareAnonymous offset parent) := by
  unfold declareAnonymous
  refine d.get (.of_blind fun _ _ _ => rfl) fun b => d.declare h fun id => ?_
  split
  · exact d.bind (d.markOpen id) fun _ => d.pure _
  · exact d.pure _

theorem enterComponents_holds (h : known (.declared offset)) : d.Holds enterComponents := by
  unfold enterComponents
  refine d.get (.of_blind fun _ _ _ => rfl) fun b => ?_
  split
  · exact d.pure _
  · have hall : ∀ fields : List BindingId,
        d.Holds (fields.forM fun m => enter (b.bindings.name m) m) := by
      intro fields
      induction fields with
      | nil => exact d.pure _
      | cons m ms ih => exact d.bind (d.enter _ m h) fun _ => ih
    exact hall _

theorem declareMethodName_holds (owner : BindingId) (inInterface isConstructor : Bool)
    (modifiers : List Modifier) {name : Ident} (h : known (.declared name.range.start)) :
    d.Holds (declareMethodName owner inInterface isConstructor modifiers name) := by
  unfold declareMethodName
  exact d.declare h fun id => d.pure _

theorem resolveReturnType_holds (brackets : Nat) (type : Option TypeRef)
    (h : Known known (typeMentions type.toList)) : d.Holds (resolveReturnType brackets type) := by
  cases type with
  | none => exact d.pure _
  | some t =>
    have ht : Known known (t.mentions false) := by simpa [typeMentions] using h
    exact d.bind (resolveType_holds d t false ht) fun _ => d.pure _

end JavaAnalysis.Binder
