import JavaAnalysis.Proofs.Resolve.SoundSteps

/-!
# Sound places throughout a file

The walk through declarations, statements and expressions leads from sound places to sound ones:
there is one case for each function of the walk and each constructor of the syntax. So the table of
a file whose names are told apart by where they start is well-formed, and so is what its names are
bound to.
Main statement: `resolveUnit_sound`.
-/

set_option autoImplicit false
set_option linter.dupNamespace false

namespace JavaAnalysis

open Ast

namespace Binder

variable {names : Nat → Option Bool} {t : Bindings}

/-! ## Declarations, statements and expressions -/

theorem isTypeDecl_method (isConstructor : Bool) :
    (if isConstructor then NodeKind.constructor else NodeKind.method).isTypeDecl = false := by
  cases isConstructor <;> rfl

mutual

theorem resolveAnnotation_sound : ∀ (use : AnnotationUse) (t : Bindings), FitAll names use.sites →
    Keeps names t ( resolveAnnotation use)
  | .mk _ name _ args, t, h => by
    simp! only [fitAll_append, fitAll_qualifiedName] at h
    exact (resolveMarkerName_sound name h.1).bind fun t' _ _ =>
      resolveElementValues_sound args t' h.2

theorem resolveElementValues_sound : ∀ (args : List ElementValue) (t : Bindings),
    FitAll names (elementSites args) → Keeps names t (resolveElementValues args)
  | [], _, _ => Keeps.pure _
  | .mk _ _ value :: args, t, h => by
    simp! only [fitAll_append] at h
    exact (resolveExpr_sound value .value t h.1).keeps.bind fun t' _ _ =>
      resolveElementValues_sound args t' h.2

theorem resolveModifiers_sound : ∀ (ms : List Modifier) (t : Bindings),
    FitAll names (modifierSites ms) → Keeps names t (resolveModifiers ms)
  | [], _, _ => Keeps.pure _
  | .word _ _ :: ms, t, h => resolveModifiers_sound ms t h
  | .annotated use :: ms, t, h => by
    simp! only [fitAll_append] at h
    exact (resolveAnnotation_sound use t h.1).bind fun t' _ _ => resolveModifiers_sound ms t' h.2

theorem resolveAnnotations_sound : ∀ (uses : List AnnotationUse) (t : Bindings),
    FitAll names (annotationSites uses) → Keeps names t (resolveAnnotations uses)
  | [], _, _ => Keeps.pure _
  | use :: uses, t, h => by
    simp! only [fitAll_append] at h
    exact (resolveAnnotation_sound use t h.1).bind fun t' _ _ =>
      resolveAnnotations_sound uses t' h.2

theorem resolveTypeParams_sound : ∀ (params : List TypeParam) (t : Bindings),
    FitAll names (typeParamSites params) → Keeps names t (resolveTypeParams params)
  | [], _, _ => Keeps.pure _
  | .mk _ marks _ bounds :: params, t, h => by
    simp! only [fitAll_append, fitAll_cons] at h
    exact (resolveAnnotations_sound marks t h.1.1).bind fun t₁ _ _ =>
      (resolveTypes_sound bounds t₁ h.1.2).bind fun t₂ _ _ =>
        resolveTypeParams_sound params t₂ h.2.2

theorem declareMembers_sound : ∀ (decl : TypeDecl) (t : Bindings), FitAll names decl.sites →
    Keeps names t (declareMembers decl)
  | .mk _ kind _ name _ typeParams _ components supers interfaces permitted
      (.mk _ constants members), t, h => by
    simp! only [fitAll_append, fitAll_cons, fits_declaration, fitAll_angled,
      TypeDeclKind.isTypeDecl_node] at h
    obtain ⟨⟨⟨⟨⟨⟨⟨⟨⟨-, htypeParams⟩, -⟩, hcomponents⟩, hsupers⟩, hinterfaces⟩, hpermitted⟩,
      hconstants⟩, hmembers⟩, hname, -⟩ := h
    apply Upkeeps.get
    intro b hb _
    split
    · exact Keeps.pure _
    · rename_i id hid
      have hid := hb.declared _ id true hname hid
      apply Upkeeps.inType hid
      apply (declareTypeParamNames_sound typeParams htypeParams hid).bind
      intro t₁ hgrows₁ _
      have hid₁ := hgrows₁.declares hid
      apply (resolveTypeParams_sound typeParams t₁ htypeParams).bind
      intro t₂ hgrows₂ _
      have hid₂ := hgrows₂.declares hid₁
      apply (declareSupertypes_sound kind hid₂ hsupers hinterfaces hpermitted).bind
      intro t₃ hgrows₃ _
      have hid₃ := hgrows₃.declares hid₂
      apply (declareComponents_sound components hcomponents hid₃).bind
      intro t₄ hgrows₄ _
      have hid₄ := hgrows₄.declares hid₃
      apply (declareConstants_sound name.text constants hconstants hid₄).bind
      intro t₅ hgrows₅ _
      exact declareMembersIn_sound members id _ t₅ hmembers (hgrows₅.declares hid₄)

theorem declareMembersIn_sound : ∀ (members : List Member) (owner : BindingId)
    (inInterface : Bool) (t : Bindings), FitAll names (memberSites members) →
    t.Declares true owner → Keeps names t (declareMembersIn owner inInterface members)
  | [], _, _, _, _, _ => Keeps.pure _
  | .field decl :: members, owner, inInterface, t, h, howner => by
    simp! only [fitAll_append] at h
    exact (declareFields_sound inInterface decl h.1 howner).bind fun t' hgrows _ =>
      declareMembersIn_sound members owner inInterface t' h.2 (hgrows.declares howner)
  | .method decl :: members, owner, inInterface, t, h, howner => by
    simp! only [fitAll_append] at h
    exact (declareMethod_sound decl owner inInterface t h.1 howner).bind fun t' hgrows _ =>
      declareMembersIn_sound members owner inInterface t' h.2 (hgrows.declares howner)
  | .type decl :: members, owner, inInterface, t, h, howner => by
    simp! only [fitAll_append] at h
    exact (declareMembers_sound decl t h.1).bind fun t' hgrows _ =>
      declareMembersIn_sound members owner inInterface t' h.2 (hgrows.declares howner)
  | .initializer _ _ _ :: members, owner, inInterface, t, h, howner => by
    simp! only [fitAll_append] at h
    exact declareMembersIn_sound members owner inInterface t h.2 howner

theorem declareMethod_sound : ∀ (decl : MethodDecl) (owner : BindingId) (inInterface : Bool)
    (t : Bindings), FitAll names decl.sites → t.Declares true owner →
    Keeps names t (declareMethod owner inInterface decl)
  | .mk _ modifiers _ typeParams returnType name _ params brackets thrown _ _, owner, inInterface,
      t, h, howner => by
    simp! only [fitAll_append, fitAll_cons, fits_declaration, isTypeDecl_method] at h
    obtain ⟨⟨⟨⟨⟨⟨⟨⟨-, htypeParams⟩, -⟩, hreturnType⟩, hparams⟩, hthrown⟩, -⟩, -⟩, hname, -⟩ := h
    apply (declareMethodName_sound inInterface _ modifiers hname howner).bind
    intro t₀ _ id hid
    have hinside : Upkeeps names t₀ (inScope (.method id) do
        declareTypeParamNames id typeParams
        resolveTypeParams typeParams
        let returned ← resolveReturnType brackets.length returnType
        let spellings ← declareParams id params
        resolveTypes thrown
        return (returned, spellings)) fun t' r => t'.Knows r.1.2 := by
      apply Upkeeps.inMethod hid
      apply (declareTypeParamNames_sound typeParams htypeParams hid).bind
      intro t₁ hgrows₁ _
      apply (resolveTypeParams_sound typeParams t₁ htypeParams).bind
      intro t₂ hgrows₂ _
      apply (resolveReturnType_sound brackets.length returnType hreturnType).bind
      intro t₃ hgrows₃ returned hreturned
      have hid₃ := hgrows₃.declares (hgrows₂.declares (hgrows₁.declares hid))
      apply (declareParams_sound params hparams hid₃).bind
      intro t₄ hgrows₄ spellings
      apply (resolveTypes_sound thrown t₄ hthrown).bind
      intro t₅ hgrows₅ _
      exact .pure fun _ hgrows => hgrows.knows (hgrows₅.knows (hgrows₄.knows hreturned))
    apply hinside.bind
    intro t₁ hgrows₁ r htype
    obtain ⟨⟨typeName, typeBinding⟩, spellings⟩ := r
    apply complete_sound (hgrows₁.declares hid)
    intro t' data hgrows hdata
    exact ⟨⟨hdata.origin, hdata.owner, hdata.superClass, hdata.interfaces, hgrows.knows htype⟩,
      ⟨rfl, rfl, rfl, rfl, rfl, rfl⟩⟩

theorem resolveTypeBody_sound : ∀ (decl : TypeDecl) (t : Bindings), FitAll names decl.sites →
    Keeps names t (resolveTypeBody decl)
  | .mk _ _ modifiers name _ typeParams _ components _ _ _ (.mk _ constants members), t, h => by
    simp! only [fitAll_append, fitAll_cons, fits_declaration, fitAll_angled,
      TypeDeclKind.isTypeDecl_node] at h
    obtain ⟨⟨⟨⟨⟨⟨⟨⟨⟨hmodifiers, -⟩, -⟩, hcomponents⟩, -⟩, -⟩, -⟩, hconstants⟩, hmembers⟩,
      hname, -⟩ := h
    apply Upkeeps.get
    intro b hb _
    split
    · exact Keeps.pure _
    · rename_i id hid
      have hid := hb.declared _ id true hname hid
      apply Upkeeps.inType hid
      apply (enterAgain_sound _).bind
      intro t₁ hgrows₁ _
      apply (resolveModifiers_sound modifiers t₁ hmodifiers).bind
      intro t₂ hgrows₂ _
      apply (resolveComponents_sound components t₂ hcomponents).bind
      intro t₃ hgrows₃ _
      have hid₃ := hgrows₃.declares (hgrows₂.declares (hgrows₁.declares hid))
      exact (resolveConstants_sound constants id t₃ hconstants hid₃.has).bind fun t₄ _ _ =>
        resolveMembers_sound members t₄ hmembers

theorem resolveComponents_sound : ∀ (components : List Param) (t : Bindings),
    FitAll names (paramSites components) → Keeps names t (resolveComponents components)
  | [], _, _ => Keeps.pure _
  | .mk _ modifiers _ _ _ _ :: components, t, h => by
    simp! only [fitAll_append] at h
    exact (resolveModifiers_sound modifiers t h.1.1.1).bind fun t' _ _ =>
      resolveComponents_sound components t' h.2

theorem resolveConstants_sound : ∀ (constants : List EnumConstant) (owner : BindingId)
    (t : Bindings), FitAll names (constantSites constants) → t.Has owner →
    Keeps names t (resolveConstants owner constants)
  | [], _, _, _, _ => Keeps.pure _
  | .mk _ modifiers _ _ args body :: constants, owner, t, h, howner => by
    simp! only [fitAll_append, fitAll_cons] at h
    obtain ⟨⟨⟨hmodifiers, hargs⟩, hbody⟩, -, hconstants⟩ := h
    apply (resolveModifiers_sound modifiers t hmodifiers).bind
    intro t₁ hgrows₁ _
    apply (resolveExprs_sound args t₁ hargs).bind
    intro t₂ hgrows₂ _
    have howner₂ := hgrows₂.has (hgrows₁.has howner)
    apply (resolveAnonymous_sound body (some owner) t₂ hbody (Bindings.knows_some.2 howner₂)).bind
    intro t₃ hgrows₃ _
    exact resolveConstants_sound constants owner t₃ hconstants (hgrows₃.has howner₂)

theorem resolveAnonymous_sound : ∀ (body : Option ClassBody) (parent : Option BindingId)
    (t : Bindings), FitAll names (anonymousSites body) → t.Knows parent →
    Keeps names t (resolveAnonymous parent body)
  | none, _, _, _, _ => Keeps.pure _
  | some (.mk range constants members), parent, t, h, hparent => by
    simp! only [fitAll_append, fitAll_cons, fits_declaration] at h
    obtain ⟨⟨hconstants, hmembers⟩, hbrace, -⟩ := h
    apply (declareAnonymous_sound hbrace hparent).bind
    intro t₀ _ id hid
    apply (declareTypesIn_sound members id t₀ hmembers hid.of_false).bind
    intro t₁ hgrows₁ _
    have hid₁ := hgrows₁.declares hid
    apply Upkeeps.inType hid₁
    apply (declareConstants_sound "" constants hconstants hid₁).bind
    intro t₂ hgrows₂ _
    have hid₂ := hgrows₂.declares hid₁
    apply (declareMembersIn_sound members id false t₂ hmembers hid₂).bind
    intro t₃ hgrows₃ _
    exact (resolveConstants_sound constants id t₃ hconstants (hgrows₃.declares hid₂).has).bind
      fun t₄ _ _ => resolveMembers_sound members t₄ hmembers

theorem resolveMembers_sound : ∀ (members : List Member) (t : Bindings),
    FitAll names (memberSites members) → Keeps names t (resolveMembers members)
  | [], _, _ => Keeps.pure _
  | .field (.mk _ modifiers _ fragments) :: members, t, h => by
    obtain ⟨hfield, hmembers⟩ := fitAll_append.1 h
    obtain ⟨hmodifiers, -, terminated, start, hfragments⟩ := hfield.varDecl
    exact (resolveModifiers_sound modifiers t hmodifiers).bind fun t₁ _ _ =>
      (resolveInits_sound fragments terminated start t₁ hfragments).bind fun t₂ _ _ =>
        resolveMembers_sound members t₂ hmembers
  | .method decl :: members, t, h => by
    simp! only [fitAll_append] at h
    exact (resolveMethod_sound decl t h.1).bind fun t' _ _ => resolveMembers_sound members t' h.2
  | .initializer _ _ body :: members, t, h => by
    simp! only [fitAll_append] at h
    exact (Upkeeps.inBlock (resolveBlock_sound body t h.1)).bind fun t' _ _ _ =>
      resolveMembers_sound members t' h.2
  | .type decl :: members, t, h => by
    simp! only [fitAll_append] at h
    exact (resolveTypeBody_sound decl t h.1).bind fun t' _ _ => resolveMembers_sound members t' h.2

theorem resolveInits_sound : ∀ (fragments : List VarFragment) (terminated : Bool) (start : Nat)
    (t : Bindings), FitAll names (fragmentSites terminated start fragments) →
    Keeps names t (resolveInits fragments)
  | [], _, _, _, _ => Keeps.pure _
  | .mk _ _ _ init :: fragments, _, _, t, h => by
    simp! only [fitAll_append, fitAll_cons] at h
    exact (resolveOptional_sound init t h.1).bind fun t' _ _ =>
      resolveInits_sound fragments _ _ t' h.2.2

theorem resolveMethod_sound : ∀ (decl : MethodDecl) (t : Bindings), FitAll names decl.sites →
    Keeps names t (resolveMethod decl)
  | .mk _ modifiers _ typeParams returnType name paramsRange params _ _ defaultValue body,
      t, h => by
    simp! only [fitAll_append, fitAll_cons, fits_declaration, isTypeDecl_method] at h
    obtain ⟨⟨⟨⟨⟨⟨⟨⟨hmodifiers, -⟩, -⟩, -⟩, hparams⟩, -⟩, hdefault⟩, hbody⟩, hname, -⟩ := h
    have hinside : ∀ t' : Bindings, Keeps names t' (do
        resolveOptional defaultValue
        match body with
        | none => return ()
        | some block => resolveBlock block) := by
      intro t'
      apply (resolveOptional_sound defaultValue t' hdefault).bind
      intro t'' _ _
      cases body with
      | none => exact Keeps.pure _
      | some block => exact resolveBlock_sound block t'' hbody
    rw [resolveMethod_mk]
    dsimp only
    apply Upkeeps.get
    intro b hb _
    split
    · exact Keeps.pure _
    · rename_i id hid
      have hid := hb.declared _ id false hname hid
      apply (resolveModifiers_sound modifiers b.bindings hmodifiers).bind
      intro t₁ hgrows₁ _
      apply Upkeeps.inMethod (hgrows₁.declares hid)
      apply (enterAgain_sound _).bind
      intro t₂ _ _
      apply (enterParams_sound params t₂ hparams).bind
      intro t₃ _ _
      split
      · exact enterComponents_sound.bind fun t₄ _ _ => hinside t₄
      · exact hinside t₃

theorem enterParams_sound : ∀ (params : List Param) (t : Bindings),
    FitAll names (paramSites params) → Keeps names t (enterParams params)
  | [], _, _ => Keeps.pure _
  | .mk _ modifiers _ _ name _ :: params, t, h => by
    simp! only [fitAll_append] at h
    exact (resolveModifiers_sound modifiers t h.1.1.1).bind fun t₁ _ _ =>
      (enterAgain_sound [name]).bind fun t₂ _ _ => enterParams_sound params t₂ h.2

theorem declareLocals_sound : ∀ (decl : VarDecl) (t : Bindings), FitAll names decl.sites →
    Keeps names t (declareLocals decl)
  | .mk _ modifiers type fragments, t, h => by
    obtain ⟨hmodifiers, htype, terminated, start, hfragments⟩ := h.varDecl
    apply (resolveModifiers_sound modifiers t hmodifiers).bind
    intro t₁ _ _
    apply (resolveType_sound type false t₁ htype).bind
    intro t₂ _ lookup hlookup
    exact declareFragments_sound fragments modifiers type lookup terminated start t₂ hfragments
      hlookup

theorem declareFragments_sound : ∀ (fragments : List VarFragment) (modifiers : List Modifier)
    (type : TypeRef) (lookup : Lookup) (terminated : Bool) (start : Nat) (t : Bindings),
    FitAll names (fragmentSites terminated start fragments) → t.Knows lookup.binding? →
    Keeps names t (declareFragments modifiers type lookup fragments)
  | [], _, _, _, _, _, _, _, _ => Keeps.pure _
  | .mk _ name brackets init :: fragments, modifiers, type, lookup, _, _, t, h, hlookup => by
    simp! only [fitAll_append, fitAll_cons, fits_fragment] at h
    apply (resolveOptional_sound init t h.1).bind
    intro t₁ hgrows₁ _
    have hlookup₁ := hgrows₁.knows hlookup
    have hkind : BindingKind.localVariable ≠ .method := by decide
    apply (declareLocal_sound hkind modifiers (some type) brackets.length h.2.1 hlookup₁).bind
    intro t₂ hgrows₂ _
    exact declareFragments_sound fragments modifiers type lookup _ _ t₂ h.2.2
      (hgrows₂.knows hlookup₁)

theorem declareParam_sound : ∀ (param : Param) (t : Bindings), FitAll names param.sites →
    Keeps names t (declareParam param)
  | .mk _ modifiers none ellipsis name brackets, t, h => by
    simp! only [fitAll_append, fitAll_cons, fits_declaration] at h
    have hkind : BindingKind.parameter ≠ .method := by decide
    apply (resolveModifiers_sound modifiers t h.1.1).bind
    intro t₁ _ _
    have hunknown : t₁.Knows Lookup.unknown.binding? := t₁.knows_none
    exact declareLocal_sound hkind modifiers none
      (brackets.length + if ellipsis.isSome then 1 else 0) h.2.1 hunknown
  | .mk _ modifiers (some type) _ name _, t, h => by
    simp! only [Option.toList_some, typeSites, fitAll_append, fitAll_cons, fits_declaration] at h
    apply (resolveModifiers_sound modifiers t h.1.1).bind
    intro t₁ _ _
    apply (resolveType_sound type false t₁ h.1.2.1).bind
    intro t₂ _ lookup hlookup
    exact declareLocal_sound (by decide) modifiers (some type) _ h.2.1 hlookup

theorem declareLambdaParams_sound : ∀ (params : List Param) (t : Bindings),
    FitAll names (paramSites params) → Keeps names t (declareLambdaParams params)
  | [], _, _ => Keeps.pure _
  | param :: params, t, h => by
    simp! only [fitAll_append] at h
    exact (declareParam_sound param t h.1).bind fun t' _ _ =>
      declareLambdaParams_sound params t' h.2

theorem declarePattern_sound : ∀ (pattern : Pattern) (t : Bindings), FitAll names pattern.sites →
    Keeps names t (declarePattern pattern)
  | .mk _ modifiers type name, t, h => by
    simp! only [fitAll_append, fitAll_hide, fitAll_cons, fits_declaration] at h
    apply (resolveModifiers_sound modifiers t h.1.1).bind
    intro t₁ _ _
    apply (resolveType_sound type false t₁ h.1.2).bind
    intro t₂ _ lookup hlookup
    exact declareLocal_sound (by decide) modifiers (some type) 0 h.2.1 hlookup

theorem resolveBlock_sound : ∀ (block : Block) (t : Bindings), FitAll names block.sites →
    Keeps names t (resolveBlock block)
  | .mk _ stmts, t, h => Upkeeps.inBlock (resolveStmts_sound stmts t h)

theorem resolveStmts_sound : ∀ (stmts : List Stmt) (t : Bindings), FitAll names (stmtSites stmts) →
    Keeps names t (resolveStmts stmts)
  | [], _, _ => Keeps.pure _
  | s :: ss, t, h => by
    simp! only [fitAll_append] at h
    exact (resolveStmt_sound s t h.1).bind fun t' _ _ => resolveStmts_sound ss t' h.2

theorem resolveStmt_sound : ∀ (s : Stmt) (t : Bindings), FitAll names s.sites →
    Keeps names t (resolveStmt s)
  | .block body, t, h => resolveBlock_sound body t h
  | .localVar decl, t, h => declareLocals_sound decl t h
  | .localType decl, t, h => by
    apply Upkeeps.get
    intro b hb _
    apply (declareType_sound decl _ b.bindings h fun o ho => hb.currentOwner? ho).bind
    intro t₁ _ _
    exact (enterAgain_sound [decl.name]).bind fun t₂ _ _ =>
      (declareMembers_sound decl t₂ h).bind fun t₃ _ _ => resolveTypeBody_sound decl t₃ h
  | .expression _ e, t, h => (resolveExpr_sound e .value t h).keeps.bind fun _ _ _ => Keeps.pure _
  | .ifThen _ cond body, t, h => by
    simp! only [fitAll_append] at h
    exact (resolveExpr_sound cond .value t h.1).keeps.bind fun t' _ _ =>
      .inBlock (resolveStmt_sound body t' h.2)
  | .ifThenElse _ cond body alternative, t, h => by
    simp! only [fitAll_append] at h
    exact (resolveExpr_sound cond .value t h.1.1).keeps.bind fun t₁ _ _ =>
      (Upkeeps.inBlock (resolveStmt_sound body t₁ h.1.2)).bind fun t₂ _ _ _ =>
        .inBlock (resolveStmt_sound alternative t₂ h.2)
  | .whileLoop _ cond body, t, h => by
    simp! only [fitAll_append] at h
    exact (resolveExpr_sound cond .value t h.1).keeps.bind fun t' _ _ =>
      .inBlock (resolveStmt_sound body t' h.2)
  | .doLoop _ body cond, t, h => by
    simp! only [fitAll_append] at h
    exact (Upkeeps.inBlock (resolveStmt_sound body t h.1)).bind fun t₁ _ _ _ =>
      (resolveExpr_sound cond .value t₁ h.2).keeps.bind fun _ _ _ => Keeps.pure _
  | .forLoop _ init cond update body, t, h => by
    simp! only [fitAll_append] at h
    exact .inBlock <| (resolveForInit_sound init t h.1.1.1).bind fun t₁ _ _ =>
      (resolveOptional_sound cond t₁ h.1.1.2).bind fun t₂ _ _ =>
        (resolveExprs_sound update t₂ h.1.2).bind fun t₃ _ _ =>
          .inBlock (resolveStmt_sound body t₃ h.2)
  | .forEach _ var iterable body, t, h => by
    simp! only [fitAll_append] at h
    exact (resolveExpr_sound iterable .value t h.1.2).keeps.bind fun t₁ _ _ =>
      .inBlock <| (declareLocals_sound var t₁ h.1.1).bind fun t₂ _ _ =>
        .inBlock (resolveStmt_sound body t₂ h.2)
  | .returning _ e, t, h => resolveOptional_sound e t h
  | .breaking _ _, _, _ => Keeps.pure _
  | .continuing _ _, _, _ => Keeps.pure _
  | .yielding _ e, t, h => (resolveExpr_sound e .value t h).keeps.bind fun _ _ _ => Keeps.pure _
  | .labeled _ _ body, t, h => Upkeeps.inBlock (resolveStmt_sound body t h)
  | .throwing _ e, t, h => (resolveExpr_sound e .value t h).keeps.bind fun _ _ _ => Keeps.pure _
  | .trying _ _ resources body catches final, t, h => by
    simp! only [fitAll_append] at h
    have hinside : Keeps names t (inScope .block do
        resolveResources resources
        resolveBlock body) :=
      .inBlock <| (resolveResources_sound resources t h.1.1.1).bind fun t₁ _ _ =>
        resolveBlock_sound body t₁ h.1.1.2
    rw [resolveStmt_trying]
    apply hinside.bind
    intro t₁ _ _
    apply (resolveCatches_sound catches t₁ h.1.2).bind
    intro t₂ _ _
    cases final with
    | none => exact Keeps.pure _
    | some block => exact resolveBlock_sound block t₂ h.2
  | .switching _ selector _ cases, t, h => by
    simp! only [fitAll_append] at h
    apply (resolveExpr_sound selector .value t h.1).keeps.bind
    intro t₁ _ _
    apply Upkeeps.get
    intro b _ _
    exact .inBlock (resolveCases_sound cases _ b.bindings h.2)
  | .synchronizing _ lock body, t, h => by
    simp! only [fitAll_append] at h
    exact (resolveExpr_sound lock .value t h.1).keeps.bind fun t' _ _ =>
      resolveBlock_sound body t' h.2
  | .asserting _ cond message, t, h => by
    simp! only [fitAll_append] at h
    exact (resolveExpr_sound cond .value t h.1).keeps.bind fun t' _ _ =>
      resolveOptional_sound message t' h.2
  | .empty _, _, _ => Keeps.pure _

theorem resolveForInit_sound : ∀ (init : ForInit) (t : Bindings), FitAll names (forInitSites init) →
    Keeps names t (resolveForInit init)
  | .absent, _, _ => Keeps.pure _
  | .decl decl, t, h => declareLocals_sound decl t h
  | .exprs es, t, h => resolveExprs_sound es t h

theorem resolveResources_sound : ∀ (resources : List Resource) (t : Bindings),
    FitAll names (resourceSites resources) → Keeps names t (resolveResources resources)
  | [], _, _ => Keeps.pure _
  | .decl decl :: resources, t, h => by
    simp! only [fitAll_append] at h
    exact (declareLocals_sound decl t h.1).bind fun t' _ _ =>
      resolveResources_sound resources t' h.2
  | .expr e :: resources, t, h => by
    simp! only [fitAll_append] at h
    exact (resolveExpr_sound e .value t h.1).keeps.bind fun t' _ _ =>
      resolveResources_sound resources t' h.2

theorem resolveCatches_sound : ∀ (catches : List CatchClause) (t : Bindings),
    FitAll names (catchSites catches) → Keeps names t (resolveCatches catches)
  | [], _, _ => Keeps.pure _
  | .mk _ param body :: catches, t, h => by
    simp! only [fitAll_append] at h
    have hinside : Keeps names t (inScope .block do
        declareParam param
        resolveBlock body) :=
      .inBlock <| (declareParam_sound param t h.1.1).bind fun t₁ _ _ =>
        resolveBlock_sound body t₁ h.1.2
    exact hinside.bind fun t' _ _ => resolveCatches_sound catches t' h.2

theorem resolveCases_sound : ∀ (cases : List SwitchCase) (enumType : Option BindingId)
    (t : Bindings), FitAll names (caseSites cases) → Keeps names t (resolveCases enumType cases)
  | [], _, _, _ => Keeps.pure _
  | .mk _ labels arrow body :: cases, enumType, t, h => by
    simp! only [fitAll_append] at h
    have hplain : Keeps names t (do
        resolveLabels enumType labels
        resolveStmts body) :=
      (resolveLabels_sound labels enumType t h.1.1).bind fun t' _ _ =>
        resolveStmts_sound body t' h.1.2
    simp! only
    split
    · exact (Keeps.bind (.inBlock hplain)) fun t' _ _ =>
        resolveCases_sound cases enumType t' h.2
    · exact hplain.bind fun t' _ _ => resolveCases_sound cases enumType t' h.2

theorem resolveLabels_sound : ∀ (labels : List CaseLabel) (enumType : Option BindingId)
    (t : Bindings), FitAll names (labelSites labels) → Keeps names t (resolveLabels enumType labels)
  | [], _, _, _ => Keeps.pure _
  | .default _ :: labels, enumType, t, h => resolveLabels_sound labels enumType t h
  | .values _ values :: labels, enumType, t, h => by
    simp! only [fitAll_append] at h
    exact (resolveCaseValues_sound values enumType t h.1).bind fun t' _ _ =>
      resolveLabels_sound labels enumType t' h.2
  | .pattern _ pattern guard :: labels, enumType, t, h => by
    simp! only [fitAll_append] at h
    exact (declarePattern_sound pattern t h.1.1).bind fun t₁ _ _ =>
      (resolveOptional_sound guard t₁ h.1.2).bind fun t₂ _ _ =>
        resolveLabels_sound labels enumType t₂ h.2

theorem resolveCaseValues_sound : ∀ (values : List Expr) (enumType : Option BindingId)
    (t : Bindings), FitAll names (exprSites values) →
    Keeps names t (resolveCaseValues enumType values)
  | [], _, _, _ => Keeps.pure _
  | value :: values, enumType, t, h => by
    simp! only [fitAll_append] at h
    unfold resolveCaseValues
    split
    · rename_i heq
      cases heq
    · rename_i name _ heq
      cases heq
      simp! only [fitAll_cons, fits_reference, fitAll_nil, and_true] at h
      exact (resolveCaseName_sound enumType h.1).bind fun t' _ _ =>
        resolveCaseValues_sound values enumType t' h.2
    · rename_i heq
      cases heq
      exact (resolveExpr_sound value .value t h.1).keeps.bind fun t' _ _ =>
        resolveCaseValues_sound values enumType t' h.2

theorem resolveExprs_sound : ∀ (es : List Expr) (t : Bindings), FitAll names (exprSites es) →
    Keeps names t (resolveExprs es)
  | [], _, _ => Keeps.pure _
  | e :: es, t, h => by
    simp! only [fitAll_append] at h
    exact (resolveExpr_sound e .value t h.1).keeps.bind fun t' _ _ => resolveExprs_sound es t' h.2

theorem resolveOptional_sound : ∀ (e : Option Expr) (t : Bindings),
    FitAll names (optionalSites e) → Keeps names t (resolveOptional e)
  | none, _, _ => Keeps.pure _
  | some e, t, h => (resolveExpr_sound e .value t h).keeps.bind fun _ _ _ => Keeps.pure _

theorem resolveDims_sound : ∀ (dims : List DimExpr) (t : Bindings), FitAll names (dimSites dims) →
    Keeps names t (resolveDims dims)
  | [], _, _ => Keeps.pure _
  | .mk _ size :: dims, t, h => by
    simp! only [fitAll_append] at h
    exact (resolveOptional_sound size t h.1).bind fun t' _ _ => resolveDims_sound dims t' h.2

theorem resolveExpr_sound : ∀ (e : Expr) (use : NameUse) (t : Bindings), FitAll names e.sites →
    Upkeeps names t (resolveExpr use e) fun t' q => t'.Knows q.type?
  | .literal _ _, use, _, _ => valueQualifier_sound use _
  | .name _, use, _, h => by
    simp! only [fitAll_cons, fits_reference] at h
    exact resolveName_sound use h.1
  | .fieldAccess _ target name, use, t, h => by
    simp! only [fitAll_append, fitAll_cons, fits_reference] at h
    apply Upkeeps.get
    intro b hb _
    split
    · rename_i field hfield
      obtain ⟨-, hfield⟩ := Option.ite_none_right_eq_some.1 hfield
      exact (bindUse_sound h.2.1 (knows_assignedField? b target name field hfield)).bind
        fun _ _ _ => .pure fun t' _ => t'.knows_none
    · exact (resolveExpr_sound target .qualifier b.bindings h.1).bind fun t' _ q hq =>
        select_sound hq h.2.1
  | .methodCall _ none _ typeArgs name _ args, use, t, h => by
    simp! only [fitAll_append, fitAll_cons, fits_reference] at h
    exact (resolveTypes_sound typeArgs t h.1.1.2).bind fun t₁ _ _ =>
      (resolveExprs_sound args t₁ h.2.2).bind fun t₂ _ _ =>
        (resolveSimpleCall_sound args h.2.1).bind fun t₃ _ _ => valueQualifier_sound use _
  | .methodCall _ (some target) _ typeArgs name _ args, use, t, h => by
    simp! only [fitAll_append, fitAll_cons, fits_reference] at h
    exact (resolveTypes_sound typeArgs t h.1.1.2).bind fun t₁ _ _ =>
      (resolveExprs_sound args t₁ h.2.2).bind fun t₂ _ _ =>
        (resolveExpr_sound target .qualifier t₂ h.1.1.1).keeps.bind fun t₃ _ q =>
          (resolveMemberCall_sound q args h.2.1).bind fun _ _ _ => valueQualifier_sound use _
  | .newObject _ none type _ args body, use, t, h => by
    simp! only [fitAll_append] at h
    apply (resolveType_sound type false t h.1.1.2).bind
    intro t₁ _ lookup hlookup
    apply (resolveExprs_sound args t₁ h.1.2).bind
    intro t₂ hgrows₂ _
    exact (resolveAnonymous_sound body _ t₂ h.2 (hgrows₂.knows hlookup)).bind fun _ _ _ =>
      valueQualifier_sound use _
  | .newObject _ (some outer) type _ args body, use, t, h => by
    simp! only [fitAll_append] at h
    apply (resolveExpr_sound outer .value t h.1.1.1).keeps.bind
    intro t₀ _ _
    apply Upkeeps.get
    intro b _ _
    apply (resolveInnerType_sound _ type h.1.1.2).bind
    intro t₁ _ lookup hlookup
    apply (resolveExprs_sound args t₁ h.1.2).bind
    intro t₂ hgrows₂ _
    exact (resolveAnonymous_sound body _ t₂ h.2 (hgrows₂.knows hlookup)).bind fun _ _ _ =>
      valueQualifier_sound use _
  | .newArray _ element dims _ init, use, t, h => by
    simp! only [fitAll_append] at h
    exact (resolveType_sound element false t h.1.1).keeps.bind fun t₁ _ _ =>
      (resolveDims_sound dims t₁ h.1.2).bind fun t₂ _ _ =>
        (resolveExprs_sound init t₂ h.2).bind fun _ _ _ => valueQualifier_sound use _
  | .arrayInit _ items, use, t, h =>
    (resolveExprs_sound items t h).bind fun _ _ _ => valueQualifier_sound use _
  | .arrayAccess _ array index, use, t, h => by
    simp! only [fitAll_append] at h
    exact (resolveExpr_sound array .value t h.1).keeps.bind fun t₁ _ _ =>
      (resolveExpr_sound index .value t₁ h.2).keeps.bind fun _ _ _ => valueQualifier_sound use _
  | .unary _ _ operand, use, t, h =>
    (resolveExpr_sound operand .value t h).keeps.bind fun _ _ _ => valueQualifier_sound use _
  | .binary _ _ lhs rhs, use, t, h => by
    simp! only [fitAll_append] at h
    exact (resolveExpr_sound lhs .value t h.1).keeps.bind fun t₁ _ _ =>
      (resolveExpr_sound rhs .value t₁ h.2).keeps.bind fun _ _ _ => valueQualifier_sound use _
  | .assign _ _ target value, use, t, h => by
    simp! only [fitAll_append] at h
    exact (resolveExpr_sound value .value t h.2).keeps.bind fun t₁ _ _ =>
      (resolveExpr_sound target _ t₁ h.1).keeps.bind fun _ _ _ => valueQualifier_sound use _
  | .conditional _ cond yes no, use, t, h => by
    simp! only [fitAll_append] at h
    exact (resolveExpr_sound cond .value t h.1.1).keeps.bind fun t₁ _ _ =>
      (resolveExpr_sound yes .value t₁ h.1.2).keeps.bind fun t₂ _ _ =>
        (resolveExpr_sound no .value t₂ h.2).keeps.bind fun _ _ _ => valueQualifier_sound use _
  | .instanceOf _ operand type, use, t, h => by
    simp! only [fitAll_append] at h
    exact (resolveExpr_sound operand .value t h.1).keeps.bind fun t₁ _ _ =>
      (resolveType_sound type false t₁ h.2).keeps.bind fun _ _ _ => valueQualifier_sound use _
  | .instanceOfPattern _ operand pattern, use, t, h => by
    simp! only [fitAll_append] at h
    exact (resolveExpr_sound operand .value t h.1).keeps.bind fun t₁ _ _ =>
      (declarePattern_sound pattern t₁ h.2).bind fun _ _ _ => valueQualifier_sound use _
  | .cast _ type operand, use, t, h => by
    simp! only [fitAll_append] at h
    exact (resolveType_sound type false t h.1).keeps.bind fun t₁ _ _ =>
      (resolveExpr_sound operand .value t₁ h.2).keeps.bind fun _ _ _ => valueQualifier_sound use _
  | .paren _ inner, use, t, h =>
    (resolveExpr_sound inner .value t h).keeps.bind fun _ _ _ => valueQualifier_sound use _
  | .this _, _, _, _ => by
    apply Upkeeps.get
    intro b hb _
    exact .pure fun _ hgrows => hgrows.knows hb.knows_currentType?
  | .super _, use, _, _ => valueQualifier_sound use _
  | .classLiteral _ type, use, t, h =>
    (resolveType_sound type false t h).keeps.bind fun _ _ _ => valueQualifier_sound use _
  | .lambdaExpr _ _ params _ body, use, t, h => by
    simp! only [fitAll_append] at h
    have hinside : Keeps names t (inScope .block do
        declareLambdaParams params
        let _ ← resolveExpr .value body) :=
      .inBlock <| (declareLambdaParams_sound params t h.1).bind fun t₁ _ _ =>
        (resolveExpr_sound body .value t₁ h.2).keeps.bind fun _ _ _ => Keeps.pure _
    exact hinside.bind fun _ _ _ => valueQualifier_sound use _
  | .lambdaBlock _ _ params _ body, use, t, h => by
    simp! only [fitAll_append] at h
    have hinside : Keeps names t (inScope .block do
        declareLambdaParams params
        resolveBlock body) :=
      .inBlock <| (declareLambdaParams_sound params t h.1).bind fun t₁ _ _ =>
        resolveBlock_sound body t₁ h.2
    exact hinside.bind fun _ _ _ => valueQualifier_sound use _
  | .methodRef _ target name, use, t, h => by
    simp! only [fitAll_append] at h
    have hname : ∀ n ∈ name, names n.range.start = none := by
      rintro n ⟨⟩
      simpa using h.2
    exact (resolveExpr_sound target .qualifier t h.1).keeps.bind fun t₁ _ q =>
      (resolveMethodRef_sound q hname).bind fun _ _ _ => valueQualifier_sound use _
  | .switching range selector _ cases, use, t, h => by
    simp! only [fitAll_append] at h
    apply (resolveExpr_sound selector .value t h.1).keeps.bind
    intro t₁ _ _
    apply (checkExhaustive_sound range selector cases).bind
    intro t₂ _ _
    apply Upkeeps.get
    intro b _ _
    have hinside :
        Keeps names b.bindings (inScope .block (resolveCases (b.enumOf? selector) cases)) :=
      .inBlock (resolveCases_sound cases _ b.bindings h.2)
    exact hinside.bind fun _ _ _ => valueQualifier_sound use _
  | .annotated marker, use, t, h =>
    (resolveAnnotation_sound marker t h).bind fun _ _ _ => valueQualifier_sound use _
  | .type type, _, t, h => by
    apply (resolveType_sound type false t h).bind
    intro t₁ _ lookup hlookup
    split
    · apply Upkeeps.pure
      intro t₂ hgrows
      split
      · exact t₂.knows_none
      · exact hgrows.knows hlookup
    · exact .pure fun t' _ => t'.knows_none

end

/-! ## Files -/

theorem declareTypes_sound (decls : List TypeDecl) (h : FitAll names (declSites decls)) :
    Keeps names t (declareTypes decls) := by
  induction decls generalizing t with
  | nil => exact Keeps.pure _
  | cons decl decls ih =>
    simp only [declSites, fitAll_append] at h
    exact (declareType_sound decl none t h.1 (by simp)).bind fun _ _ _ => ih h.2

theorem declareAllMembers_sound (decls : List TypeDecl) (h : FitAll names (declSites decls)) :
    Keeps names t (declareAllMembers decls) := by
  induction decls generalizing t with
  | nil => exact Keeps.pure _
  | cons decl decls ih =>
    simp only [declSites, fitAll_append] at h
    exact (declareMembers_sound decl t h.1).bind fun _ _ _ => ih h.2

theorem resolveTypeBodies_sound (decls : List TypeDecl) (h : FitAll names (declSites decls)) :
    Keeps names t (resolveTypeBodies decls) := by
  induction decls generalizing t with
  | nil => exact Keeps.pure _
  | cons decl decls ih =>
    simp only [declSites, fitAll_append] at h
    exact (resolveTypeBody_sound decl t h.1).bind fun _ _ _ => ih h.2

theorem passes_sound (decls : List TypeDecl) (h : FitAll names (declSites decls)) :
    Keeps names t (passes decls) :=
  (declareTypes_sound decls h).bind fun _ _ _ =>
    (declareAllMembers_sound decls h).bind fun _ _ _ => resolveTypeBodies_sound decls h

theorem knows_importTarget (b : Binder) (decl : ImportDecl) :
    b.bindings.Knows (b.importTarget decl) := by
  unfold importTarget
  dsimp only
  split
  · exact knows_builtIn? b _
  split
  · exact Bindings.knows_none _
  · exact knows_builtIn? b _

theorem Sound.withImport {b : Binder} (hb : Sound names b) {decl : ImportDecl}
    (h : FitAll names decl.sites) : Sound names (b.withImport decl) := by
  have hentry : Sound names { b with imports := b.imports ++ [b.importEntry decl] } :=
    ⟨hb.table, hb.bound, hb.declared, hb.scopes, hb.topLevel, List.forall_mem_append.2
      ⟨hb.imports, List.forall_mem_singleton.2 (knows_importTarget b decl)⟩⟩
  have htarget := knows_importTarget b decl
  unfold Binder.withImport
  cases hid : b.importTarget decl with
  | none => exact hentry
  | some id =>
    cases hstatic : decl.isStatic with
    | true => exact hentry
    | false =>
      simp only [ImportDecl.sites, hstatic, Bool.false_eq_true, if_false, fitAll_qualifiedName] at h
      exact (bindUse_sound h (htarget id hid) _ hentry .refl).1

theorem Sound.foldl_withImport {b : Binder} (hb : Sound names b) (imports : List ImportDecl)
    (h : FitAll names (imports.flatMap ImportDecl.sites)) :
    Sound names (imports.foldl Binder.withImport b) := by
  induction imports generalizing b with
  | nil => exact hb
  | cons i is ih =>
    simp only [List.flatMap_cons, fitAll_append] at h
    exact ih (hb.withImport h.1) h.2

theorem bindings_foldl_withImport (imports : List ImportDecl) (b : Binder) :
    (imports.foldl Binder.withImport b).bindings = b.bindings := by
  induction imports generalizing b with
  | nil => rfl
  | cons i is ih => exact ih (b.withImport i)

/-- The walk through a file leads from sound places to sound ones. -/
theorem resolveUnit_sound (unit : CompilationUnit) (h : FitAll names unit.sites) {b : Binder}
    (hb : Sound names b) : Sound names (resolveUnit unit b).2 ∧
      b.bindings.Grows (resolveUnit unit b).2.bindings := by
  simp only [CompilationUnit.sites, fitAll_append] at h
  obtain ⟨⟨hpackage, himports⟩, htypes⟩ := h
  have hstart : Sound names (afterPackage unit b) ∧
      b.bindings.Grows (afterPackage unit b).bindings := by
    unfold afterPackage
    cases hunit : unit.package with
    | none => exact ⟨hb, .refl⟩
    | some package =>
      rw [hunit] at hpackage
      have hmarks := resolveAnnotations_sound package.annotations b.bindings hpackage b hb .refl
      exact ⟨hmarks.1, hmarks.2.1⟩
  have hpasses := passes_sound unit.types htypes _ (hstart.1.foldl_withImport unit.imports himports)
    .refl
  rw [resolveUnit_eq]
  rw [bindings_foldl_withImport] at hpasses
  exact ⟨hpasses.1, hstart.2.trans hpasses.2.1⟩

end Binder

/-- What a file declares whose names are told apart by where they start. -/
theorem Resolution.sound_ofUnit {names : Nat → Option Bool} {unit : CompilationUnit}
    (h : FitAll names unit.sites) : (ofUnit unit).bindings.WellFormed ∧
      Bindings.universe.Grows (ofUnit unit).bindings := by
  have hstart := Binder.sound_start names (unit.package.map fun p => p.name.toDotted)
  have hsound := Binder.resolveUnit_sound unit h hstart
  exact ⟨hsound.1.table, hsound.2⟩

end JavaAnalysis
