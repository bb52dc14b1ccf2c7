import JavaAnalysis.Proofs.Resolve.Expressions
import JavaAnalysis.Proofs.Resolve.Walk

/-!
# Names in bodies

A discipline holds for the walk through declarations, statements and expressions: there is one case
for each function of the walk and each constructor of the syntax. A part that the walk meets in
several passes is shown to keep the discipline in each of them.
-/

set_option autoImplicit false

namespace JavaAnalysis.Binder

open Ast
open Region (AllMeet meets_part meets_detail allMeet_cons allMeet_append)

variable {known : Mention → Prop} (d : Discipline known)

/-- The name of a type declaration is declared. -/
theorem Known.declared_name {decl : TypeDecl} (h : Known known decl.mentions) :
    known (.declared decl.name.range.start) := by
  obtain ⟨_, _, _, name, _, _, _, _, _, _, _, ⟨_, _, _⟩⟩ := decl
  simp! only [known_append, known_cons] at h
  exact h.2.1

/-- Only a field of `this` that is assigned to is looked up as one. -/
theorem assigned_of_assignedField? {b : Binder} {use : NameUse} {target : Expr} {name : Ident}
    {field : BindingId}
    (h : (if use = .target then b.assignedField? target name else none) = some field) :
    (use == .target && target.isThis) = true := by
  split at h
  · rename_i huse
    unfold assignedField? at h
    split at h
    · rw [huse]
      rfl
    · cases h
  · cases h

mutual

theorem resolveAnnotation_holds : ∀ use : AnnotationUse, Known known use.mentions →
    use.region.Meets d.Demands → d.Holds ( resolveAnnotation use)
  | .mk _ name _ args, h, hd => by
    simp! only [known_cons] at h
    simp! only [meets_part, allMeet_cons] at hd
    exact d.bind (resolveMarkerName_holds d name h.1) fun _ =>
      resolveElementValues_holds args h.2 hd.2.2.of_listed

theorem resolveElementValues_holds : ∀ args : List ElementValue,
    Known known (elementMentions args) →
    AllMeet d.Demands (elementRegions args) → d.Holds (resolveElementValues args)
  | [], _, _ => by
    exact d.pure _
  | .mk _ _ value :: args, h, hd => by
    simp! only [known_append] at h
    simp! only [allMeet_cons, meets_detail, allMeet_append] at hd
    exact d.bind (resolveExpr_holds value .value h.1 hd.1.2.2.1) fun _ =>
      resolveElementValues_holds args h.2 hd.2

theorem resolveModifiers_holds : ∀ modifiers : List Modifier,
    Known known (modifierMentions modifiers) →
    AllMeet d.Demands (modifierItems modifiers) → d.Holds (resolveModifiers modifiers)
  | [], _, _ => by
    exact d.pure _
  | .word _ _ :: modifiers, h, hd => by
    simp! only at h
    simp! only [allMeet_cons] at hd
    exact resolveModifiers_holds modifiers h hd.2
  | .annotated use :: modifiers, h, hd => by
    simp! only [known_append] at h
    simp! only [allMeet_cons] at hd
    exact d.bind (resolveAnnotation_holds use h.1 hd.1) fun _ =>
      resolveModifiers_holds modifiers h.2 hd.2

theorem resolveAnnotations_holds : ∀ annotations : List AnnotationUse,
    Known known (annotationMentions annotations) →
    AllMeet d.Demands (AnnotationUse.regions annotations) → d.Holds (resolveAnnotations annotations)
  | [], _, _ => by
    exact d.pure _
  | use :: annotations, h, hd => by
    simp! only [known_append] at h
    simp! only [allMeet_cons] at hd
    exact d.bind (resolveAnnotation_holds use h.1 hd.1) fun _ =>
      resolveAnnotations_holds annotations h.2 hd.2

theorem resolveTypeParams_holds : ∀ params : List TypeParam,
    Known known (typeParamMentions params) →
    AllMeet d.Demands (typeParamRegions params) → d.Holds (resolveTypeParams params)
  | [], _, _ => by
    exact d.pure _
  | .mk _ annotations _ bounds :: params, h, hd => by
    simp! only [known_append, known_cons] at h
    simp! only [allMeet_cons, meets_detail, allMeet_append] at hd
    obtain ⟨⟨hannotations, hbounds⟩, hparams⟩ := h
    refine d.bind (resolveAnnotations_holds annotations hannotations hd.1.2.1) fun _ => ?_
    exact d.bind (resolveTypes_holds d bounds hbounds) fun _ =>
      resolveTypeParams_holds params hparams.2 hd.2

theorem declareMembers_holds : ∀ decl : TypeDecl, Known known decl.mentions →
    decl.region.Meets d.Demands → d.Holds (declareMembers decl)
  | .mk _ _ _ _ _ typeParams _ components supers interfaces permitted (.mk _ constants members),
    h, hd => by
    simp! only [known_append, known_cons] at h
    simp! only [meets_part, meets_detail, allMeet_cons, allMeet_append] at hd
    obtain ⟨-, ⟨⟨⟨⟨⟨-, -, hdTypeParams⟩, -⟩, -⟩, -⟩, -⟩, ⟨-, -, hdMembers⟩, -⟩ := hd
    obtain ⟨⟨⟨⟨⟨⟨⟨⟨-, htypeParams⟩, hcomponents⟩, hsupers⟩, hinterfaces⟩, hpermitted⟩,
      hconstants⟩, hmembers⟩, hname, -⟩ := h
    refine d.get (fun b b' hb => ?_) fun b => ?_
    · simp only [hb.declared_eq hname]
    split
    · exact d.pure _
    refine d.inScope _ ?_
    refine d.bind (declareTypeParamNames_holds d _ typeParams htypeParams) fun _ => ?_
    refine d.bind (resolveTypeParams_holds typeParams htypeParams hdTypeParams.of_listed) fun _ =>
      ?_
    refine d.bind (declareSupertypes_holds d _ _ hname hsupers hinterfaces hpermitted) fun _ => ?_
    refine d.bind (declareComponents_holds d _ components hcomponents) fun _ => ?_
    exact d.bind (declareConstants_holds d _ _ constants hconstants) fun _ =>
      declareMembersIn_holds members _ _ hmembers hdMembers

theorem declareMembersIn_holds : ∀ (members : List Member) (owner : BindingId) (inInterface : Bool),
    Known known (memberMentions members) →
    AllMeet d.Demands (Member.regions members) →
    d.Holds (declareMembersIn owner inInterface members)
  | [], _, _, _, _ => by
    exact d.pure _
  | .field decl :: members, owner, inInterface, h, hd => by
    simp! only [known_append] at h
    simp! only [allMeet_cons] at hd
    exact d.bind (declareFields_holds d owner inInterface decl h.1) fun _ =>
      declareMembersIn_holds members owner inInterface h.2 hd.2
  | .method decl :: members, owner, inInterface, h, hd => by
    simp! only [known_append] at h
    simp! only [meets_part, allMeet_cons] at hd
    exact d.bind (declareMethod_holds decl owner inInterface h.1 hd.1.2.1) fun _ =>
      declareMembersIn_holds members owner inInterface h.2 hd.2
  | .type decl :: members, owner, inInterface, h, hd => by
    simp! only [known_append] at h
    simp! only [meets_part, allMeet_cons] at hd
    exact d.bind (declareMembers_holds decl h.1 hd.1.2.1) fun _ =>
      declareMembersIn_holds members owner inInterface h.2 hd.2
  | .initializer _ _ _ :: members, owner, inInterface, h, hd => by
    simp! only [known_append] at h
    simp! only [allMeet_cons] at hd
    exact declareMembersIn_holds members owner inInterface h.2 hd.2

theorem declareMethod_holds : ∀ (decl : MethodDecl) (owner : BindingId) (inInterface : Bool),
    Known known decl.mentions →
    decl.region.Meets d.Demands → d.Holds (declareMethod owner inInterface decl)
  | .mk _ _ _ typeParams returnType _ _ params _ thrown _ _, owner, inInterface, h, hd => by
    simp! only [known_append, known_cons] at h
    simp! only [meets_part, allMeet_cons, allMeet_append] at hd
    obtain ⟨-, ⟨⟨⟨⟨⟨⟨-, hdTypeParams⟩, -⟩, -⟩, -⟩, -⟩, -⟩, -⟩ := hd
    obtain ⟨⟨⟨⟨⟨⟨⟨-, htypeParams⟩, hreturnType⟩, hparams⟩, hthrown⟩, -⟩, -⟩, hname, -⟩ := h
    refine d.bind (declareMethodName_holds d _ _ _ _ hname) fun id => ?_
    refine d.bind (d.inScope _ ?_) fun _ => d.complete _ _ hname
    refine d.bind (declareTypeParamNames_holds d _ typeParams htypeParams) fun _ => ?_
    refine d.bind (resolveTypeParams_holds typeParams htypeParams hdTypeParams.of_listed) fun _ =>
      ?_
    refine d.bind (resolveReturnType_holds d _ returnType hreturnType) fun _ => ?_
    refine d.bind (declareParams_holds d _ params hparams) fun _ => ?_
    exact d.bind (resolveTypes_holds d thrown hthrown) fun _ => d.pure _

theorem resolveTypeBody_holds : ∀ decl : TypeDecl, Known known decl.mentions →
    decl.region.Meets d.Demands → d.Holds (resolveTypeBody decl)
  | .mk _ _ modifiers _ _ _ _ components _ _ _ (.mk _ constants members), h, hd => by
    simp! only [known_append, known_cons] at h
    simp! only [meets_part, meets_detail, allMeet_cons, allMeet_append] at hd
    obtain ⟨-, ⟨⟨⟨⟨⟨hdModifiers, -⟩, hdComponents⟩, -⟩, -⟩, -⟩, ⟨-, hdConstants, hdMembers⟩, -⟩ :=
      hd
    obtain ⟨⟨⟨⟨⟨⟨⟨⟨hmodifiers, htypeParams⟩, hcomponents⟩, -⟩, -⟩, -⟩, hconstants⟩, hmembers⟩,
      hname, -⟩ := h
    refine d.get (fun b b' hb => ?_) fun b => ?_
    · simp only [hb.declared_eq hname]
    split
    · exact d.pure _
    refine d.inScope _ ?_
    refine d.bind (enterAgain_holds d _ (typeParamNames_known htypeParams)) fun _ => ?_
    refine d.bind (resolveModifiers_holds modifiers hmodifiers hdModifiers.of_modifiers) fun _ => ?_
    refine d.bind (resolveComponents_holds components hcomponents hdComponents.of_listed) fun _ =>
      ?_
    exact d.bind (resolveConstants_holds constants _ hconstants hdConstants) fun _ =>
      resolveMembers_holds members hmembers hdMembers

theorem resolveComponents_holds : ∀ components : List Param,
    Known known (paramMentions components) →
    AllMeet d.Demands (Param.regions components) → d.Holds (resolveComponents components)
  | [], _, _ => by
    exact d.pure _
  | .mk _ modifiers _ _ _ _ :: components, h, hd => by
    simp! only [known_append] at h
    simp! only [meets_part, allMeet_cons, allMeet_append] at hd
    exact d.bind (resolveModifiers_holds modifiers h.1.1.1 hd.1.2.1.1.1.of_modifiers) fun _ =>
      resolveComponents_holds components h.2 hd.2

theorem resolveConstants_holds : ∀ (constants : List EnumConstant) (owner : BindingId),
    Known known (constantMentions constants) →
    AllMeet d.Demands (constantRegions constants) → d.Holds (resolveConstants owner constants)
  | [], _, _, _ => by
    exact d.pure _
  | .mk _ modifiers _ _ args body :: constants, owner, h, hd => by
    simp! only [known_append, known_cons] at h
    simp! only [meets_detail, allMeet_cons, allMeet_append] at hd
    obtain ⟨⟨⟨hmodifiers, hargs⟩, hbody⟩, hconstants⟩ := h
    refine d.bind (resolveModifiers_holds modifiers hmodifiers hd.1.2.1.1.of_modifiers) fun _ => ?_
    refine d.bind (resolveExprs_holds args hargs hd.1.2.1.2.2.of_listed) fun _ => ?_
    exact d.bind (resolveAnonymous_holds body (some owner) hbody hd.1.2.2) fun _ =>
      resolveConstants_holds constants owner hconstants.2 hd.2

theorem resolveAnonymous_holds : ∀ (body : Option ClassBody) (parent : Option BindingId),
    Known known (anonymousMentions body) →
    AllMeet d.Demands (bodyRegions body) → d.Holds (resolveAnonymous parent body)
  | none, _, _, _ => by
    exact d.pure _
  | some (.mk range constants members), parent, h, hd => by
    simp! only [known_append, known_cons] at h
    simp! only [allMeet_cons, meets_detail, allMeet_append] at hd
    obtain ⟨⟨hconstants, hmembers⟩, hbrace, -⟩ := h
    refine d.bind (declareAnonymous_holds d hbrace parent) fun id => ?_
    refine d.bind (declareTypesIn_holds d members id hmembers) fun _ => d.inScope _ ?_
    refine d.bind (declareConstants_holds d id _ constants hconstants) fun _ => ?_
    refine d.bind (declareMembersIn_holds members id false hmembers hd.1.2.2) fun _ => ?_
    exact d.bind (resolveConstants_holds constants id hconstants hd.1.2.1) fun _ =>
      resolveMembers_holds members hmembers hd.1.2.2

theorem resolveMembers_holds : ∀ members : List Member, Known known (memberMentions members) →
    AllMeet d.Demands (Member.regions members) → d.Holds (resolveMembers members)
  | [], _, _ => by
    exact d.pure _
  | .field (.mk _ modifiers _ fragments) :: members, h, hd => by
    simp! only [known_append] at h
    simp! only [meets_part, allMeet_cons, allMeet_append] at hd
    obtain ⟨⟨⟨hmodifiers, -⟩, hfragments⟩, hmembers⟩ := h
    refine d.bind (resolveModifiers_holds modifiers hmodifiers hd.1.2.1.2.1.of_modifiers) fun _ =>
      ?_
    exact d.bind (resolveInits_holds fragments hfragments hd.1.2.1.2.2.2) fun _ =>
      resolveMembers_holds members hmembers hd.2
  | .method decl :: members, h, hd => by
    simp! only [known_append] at h
    simp! only [meets_part, allMeet_cons] at hd
    exact d.bind (resolveMethod_holds decl h.1 hd.1.2.1) fun _ =>
      resolveMembers_holds members h.2 hd.2
  | .initializer _ _ body :: members, h, hd => by
    simp! only [known_append] at h
    simp! only [meets_part, allMeet_cons] at hd
    exact d.bind (d.inScope _ (resolveBlock_holds body h.1 hd.1.2.1)) fun _ =>
      resolveMembers_holds members h.2 hd.2
  | .type decl :: members, h, hd => by
    simp! only [known_append] at h
    simp! only [meets_part, allMeet_cons] at hd
    exact d.bind (resolveTypeBody_holds decl h.1 hd.1.2.1) fun _ =>
      resolveMembers_holds members h.2 hd.2

theorem resolveInits_holds : ∀ fragments : List VarFragment,
    Known known (fragmentMentions fragments) →
    AllMeet d.Demands (fragmentRegions fragments) → d.Holds (resolveInits fragments)
  | [], _, _ => by
    exact d.pure _
  | .mk _ _ _ init :: fragments, h, hd => by
    simp! only [known_append, known_cons] at h
    simp! only [meets_detail, allMeet_cons, allMeet_append] at hd
    exact d.bind (resolveOptional_holds init h.1 hd.1.2.2) fun _ =>
      resolveInits_holds fragments h.2.2 hd.2

theorem resolveMethod_holds : ∀ decl : MethodDecl, Known known decl.mentions →
    decl.region.Meets d.Demands → d.Holds (resolveMethod decl)
  | .mk _ modifiers _ _ _ _ _ params _ _ defaultValue body, h, hd => by
    simp! only [known_append, known_cons] at h
    simp! only [meets_part, allMeet_cons, allMeet_append] at hd
    obtain ⟨-, ⟨⟨⟨⟨⟨⟨hdModifiers, -⟩, -⟩, -, hdParams⟩, -⟩, -⟩, hdDefault⟩, hdBody⟩ := hd
    obtain ⟨⟨⟨⟨⟨⟨⟨hmodifiers, htypeParams⟩, -⟩, hparams⟩, -⟩, hdefault⟩, hbody⟩, hname, -⟩ := h
    have hinside : d.Holds (do
        resolveOptional defaultValue
        match body with
        | none => return ()
        | some block => resolveBlock block) := by
      refine d.bind (resolveOptional_holds defaultValue hdefault hdDefault) fun _ => ?_
      exact resolveOptionalBlock_holds body hbody hdBody
    rw [resolveMethod_mk]
    dsimp only
    refine d.get (fun b b' hb => ?_) fun b => ?_
    · simp only [hb.declared_eq hname]
    split
    · exact d.pure _
    refine d.bind (resolveModifiers_holds modifiers hmodifiers hdModifiers.of_modifiers) fun _ =>
      d.inScope _ ?_
    refine d.bind (enterAgain_holds d _ (typeParamNames_known htypeParams)) fun _ => ?_
    refine d.bind (enterParams_holds params hparams hdParams.of_listed) fun _ => ?_
    split
    · exact d.bind (enterComponents_holds d hname) fun _ => hinside
    · exact hinside

theorem resolveOptionalBlock_holds : ∀ body : Option Block,
    Known known (optionalBlockMentions body) →
    AllMeet d.Demands (blockRegions body) → d.Holds (match body with
      | none => return ()
      | some block => resolveBlock block)
  | none, _, _ => d.pure _
  | some block, h, hd => by
    simp! only at h
    simp! only [allMeet_cons] at hd
    exact resolveBlock_holds block h hd.1

theorem enterParams_holds : ∀ params : List Param, Known known (paramMentions params) →
    AllMeet d.Demands (Param.regions params) → d.Holds (enterParams params)
  | [], _, _ => by
    exact d.pure _
  | .mk _ modifiers _ _ _ _ :: params, h, hd => by
    simp! only [known_append, known_cons] at h
    simp! only [meets_part, allMeet_cons, allMeet_append] at hd
    obtain ⟨⟨⟨hmodifiers, -⟩, hname, -⟩, hparams⟩ := h
    refine d.bind (resolveModifiers_holds modifiers hmodifiers hd.1.2.1.1.1.of_modifiers) fun _ =>
      ?_
    exact d.bind (enterAgain_holds d _ (List.forall_mem_singleton.2 hname)) fun _ =>
      enterParams_holds params hparams hd.2

theorem declareLocals_holds : ∀ decl : VarDecl, Known known decl.mentions →
    decl.region.Meets d.Demands → d.Holds (declareLocals decl)
  | .mk _ modifiers type fragments, h, hd => by
    simp! only [known_append] at h
    simp! only [meets_part, allMeet_cons, allMeet_append] at hd
    refine d.bind (resolveModifiers_holds modifiers h.1.1 hd.2.1.of_modifiers) fun _ => ?_
    exact d.bind (resolveType_holds d type false h.1.2) fun lookup =>
      declareFragments_holds fragments modifiers type lookup h.2 hd.2.2.2

theorem declareFragments_holds : ∀ (fragments : List VarFragment) (modifiers : List Modifier)
    (type : TypeRef) (lookup : Lookup), Known known (fragmentMentions fragments) →
    AllMeet d.Demands (fragmentRegions fragments) →
    d.Holds (declareFragments modifiers type lookup fragments)
  | [], _, _, _, _, _ => by
    exact d.pure _
  | .mk _ _ _ init :: fragments, modifiers, type, lookup, h, hd => by
    simp! only [known_append, known_cons] at h
    simp! only [meets_detail, allMeet_cons, allMeet_append] at hd
    refine d.bind (resolveOptional_holds init h.1 hd.1.2.2) fun _ => ?_
    exact d.bind (declareLocal_holds d _ _ _ _ _ h.2.1) fun _ =>
      declareFragments_holds fragments modifiers type lookup h.2.2 hd.2

theorem declareParam_holds : ∀ param : Param, Known known param.mentions →
    param.region.Meets d.Demands → d.Holds (declareParam param)
  | .mk _ modifiers none _ _ _, h, hd => by
    simp! only [known_append, known_cons] at h
    simp! only [meets_part, allMeet_append] at hd
    refine d.bind (resolveModifiers_holds modifiers h.1.1 hd.2.1.1.1.of_modifiers) fun _ => ?_
    exact d.bind (d.pure _) fun _ => declareLocal_holds d _ _ _ _ _ h.2.1
  | .mk _ modifiers (some type) _ _ _, h, hd => by
    simp! only [known_append, known_cons, Option.toList_some, typeMentions] at h
    simp! only [meets_part, allMeet_append] at hd
    refine d.bind (resolveModifiers_holds modifiers h.1.1 hd.2.1.1.1.of_modifiers) fun _ => ?_
    exact d.bind (resolveType_holds d type false h.1.2.1) fun _ =>
      declareLocal_holds d _ _ _ _ _ h.2.1

theorem declareLambdaParams_holds : ∀ params : List Param, Known known (paramMentions params) →
    AllMeet d.Demands (Param.regions params) → d.Holds (declareLambdaParams params)
  | [], _, _ => by
    exact d.pure _
  | param :: params, h, hd => by
    simp! only [known_append] at h
    simp! only [allMeet_cons] at hd
    exact d.bind (declareParam_holds param h.1 hd.1) fun _ =>
      declareLambdaParams_holds params h.2 hd.2

theorem declarePattern_holds : ∀ pattern : Pattern, Known known pattern.mentions →
    pattern.region.Meets d.Demands → d.Holds (declarePattern pattern)
  | .mk _ modifiers type _, h, hd => by
    simp! only [known_append, known_cons] at h
    simp! only [meets_detail, allMeet_append] at hd
    refine d.bind (resolveModifiers_holds modifiers h.1.1 hd.2.1.of_patternModifiers) fun _ => ?_
    exact d.bind (resolveType_holds d type false h.1.2) fun _ =>
      declareLocal_holds d _ _ _ _ _ h.2.1

theorem resolveBlock_holds : ∀ block : Block, Known known block.mentions →
    block.region.Meets d.Demands → d.Holds (resolveBlock block)
  | .mk _ stmts, h, hd => by
    simp! only at h
    simp! only [meets_part] at hd
    exact d.inScope _ (resolveStmts_holds stmts h hd.2)

theorem resolveStmts_holds : ∀ stmts : List Stmt, Known known (stmtMentions stmts) →
    AllMeet d.Demands (Stmt.regions stmts) → d.Holds (resolveStmts stmts)
  | [], _, _ => by
    exact d.pure _
  | s :: ss, h, hd => by
    simp! only [known_append] at h
    simp! only [allMeet_cons] at hd
    exact d.bind (resolveStmt_holds s h.1 hd.1) fun _ => resolveStmts_holds ss h.2 hd.2

theorem resolveStmt_holds : ∀ s : Stmt, Known known s.mentions →
    s.region.Meets d.Demands → d.Holds (resolveStmt s)
  | .block body, h, hd => by
    simp! only at h
    simp! only [meets_part, allMeet_cons] at hd
    exact resolveBlock_holds body h hd.2.1
  | .localVar decl, h, hd => by
    simp! only at h
    simp! only [meets_part, allMeet_cons] at hd
    exact declareLocals_holds decl h hd.2.1
  | .localType decl, h, hd => by
    simp! only at h
    simp! only [meets_part, allMeet_cons] at hd
    refine d.get (.of_blind fun _ _ _ => rfl) fun b => ?_
    refine d.bind (declareType_holds d decl _ h) fun _ => ?_
    refine d.bind (enterAgain_holds d _ (List.forall_mem_singleton.2 h.declared_name)) fun _ => ?_
    exact d.bind (declareMembers_holds decl h hd.2.1) fun _ => resolveTypeBody_holds decl h hd.2.1
  | .expression _ e, h, hd => by
    simp! only at h
    simp! only [meets_part, allMeet_cons] at hd
    exact d.bind (resolveExpr_holds e .value h hd.2.1) fun _ => d.pure _
  | .ifThen _ cond body, h, hd => by
    simp! only [known_append] at h
    simp! only [meets_part, allMeet_cons] at hd
    exact d.bind (resolveExpr_holds cond .value h.1 hd.2.1) fun _ =>
      d.inScope _ (resolveStmt_holds body h.2 hd.2.2.1)
  | .ifThenElse _ cond body alternative, h, hd => by
    simp! only [known_append] at h
    simp! only [meets_part, allMeet_cons] at hd
    refine d.bind (resolveExpr_holds cond .value h.1.1 hd.2.1) fun _ => ?_
    exact d.bind (d.inScope _ (resolveStmt_holds body h.1.2 hd.2.2.1)) fun _ =>
      d.inScope _ (resolveStmt_holds alternative h.2 hd.2.2.2.1)
  | .whileLoop _ cond body, h, hd => by
    simp! only [known_append] at h
    simp! only [meets_part, allMeet_cons] at hd
    exact d.bind (resolveExpr_holds cond .value h.1 hd.2.1) fun _ =>
      d.inScope _ (resolveStmt_holds body h.2 hd.2.2.1)
  | .doLoop _ body cond, h, hd => by
    simp! only [known_append] at h
    simp! only [meets_part, allMeet_cons] at hd
    refine d.bind (d.inScope _ (resolveStmt_holds body h.1 hd.2.1)) fun _ => ?_
    exact d.bind (resolveExpr_holds cond .value h.2 hd.2.2.1) fun _ => d.pure _
  | .forLoop _ init cond update body, h, hd => by
    simp! only [known_append] at h
    simp! only [meets_part, allMeet_cons, allMeet_append] at hd
    refine d.inScope _ ?_
    refine d.bind (resolveForInit_holds init h.1.1.1 hd.2.1.1.1) fun _ => ?_
    refine d.bind (resolveOptional_holds cond h.1.1.2 hd.2.1.1.2) fun _ => ?_
    exact d.bind (resolveExprs_holds update h.1.2 hd.2.1.2) fun _ =>
      d.inScope _ (resolveStmt_holds body h.2 hd.2.2.1)
  | .forEach _ var iterable body, h, hd => by
    simp! only [known_append] at h
    simp! only [meets_part, allMeet_cons] at hd
    refine d.bind (resolveExpr_holds iterable .value h.1.2 hd.2.2.1) fun _ => d.inScope _ ?_
    exact d.bind (declareLocals_holds var h.1.1 hd.2.1) fun _ =>
      d.inScope _ (resolveStmt_holds body h.2 hd.2.2.2.1)
  | .returning _ e, h, hd => by
    simp! only at h
    simp! only [meets_part] at hd
    exact resolveOptional_holds e h hd.2
  | .breaking _ _, _, _ => by
    exact d.pure _
  | .continuing _ _, _, _ => by
    exact d.pure _
  | .yielding _ e, h, hd => by
    simp! only at h
    simp! only [meets_part, allMeet_cons] at hd
    exact d.bind (resolveExpr_holds e .value h hd.2.1) fun _ => d.pure _
  | .labeled _ _ body, h, hd => by
    simp! only at h
    simp! only [meets_part, allMeet_cons] at hd
    exact d.inScope _ (resolveStmt_holds body h hd.2.2.1)
  | .throwing _ e, h, hd => by
    simp! only at h
    simp! only [meets_part, allMeet_cons] at hd
    exact d.bind (resolveExpr_holds e .value h hd.2.1) fun _ => d.pure _
  | .trying _ _ resources body catches final, h, hd => by
    simp! only [known_append] at h
    simp! only [meets_part, allMeet_cons, allMeet_append] at hd
    rw [resolveStmt_trying]
    have hfirst : d.Holds (do
        resolveResources resources
        resolveBlock body) :=
      d.bind (resolveResources_holds resources h.1.1.1 hd.2.1.1.of_listed) fun _ =>
        resolveBlock_holds body h.1.1.2 hd.2.1.2.1
    refine d.bind (d.inScope _ hfirst) fun _ => ?_
    exact d.bind (resolveCatches_holds catches h.1.2 hd.2.1.2.2) fun _ =>
      resolveOptionalBlock_holds final h.2 hd.2.2
  | .switching _ selector _ cases, h, hd => by
    simp! only [known_append] at h
    simp! only [meets_part, meets_detail, allMeet_cons] at hd
    refine d.bind (resolveExpr_holds selector .value h.1 hd.2.1) fun _ => ?_
    refine d.get (fun b b' hb => ?_) fun b => ?_
    · simp only [hb.enumOf?_eq h.1]
    exact d.inScope _ (resolveCases_holds cases _ h.2 hd.2.2.1.2)
  | .synchronizing _ lock body, h, hd => by
    simp! only [known_append] at h
    simp! only [meets_part, allMeet_cons] at hd
    exact d.bind (resolveExpr_holds lock .value h.1 hd.2.1) fun _ =>
      resolveBlock_holds body h.2 hd.2.2.1
  | .asserting _ cond message, h, hd => by
    simp! only [known_append] at h
    simp! only [meets_part, allMeet_cons] at hd
    exact d.bind (resolveExpr_holds cond .value h.1 hd.2.1) fun _ =>
      resolveOptional_holds message h.2 hd.2.2
  | .empty _, _, _ => by
    exact d.pure _

theorem resolveForInit_holds : ∀ init : ForInit, Known known (forInitMentions init) →
    AllMeet d.Demands (forInitRegions init) → d.Holds (resolveForInit init)
  | .absent, _, _ => by
    exact d.pure _
  | .decl decl, h, hd => by
    simp! only at h
    simp! only [allMeet_cons] at hd
    exact declareLocals_holds decl h hd.1
  | .exprs es, h, hd => by
    simp! only at h
    simp! only at hd
    exact resolveExprs_holds es h hd

theorem resolveResources_holds : ∀ resources : List Resource,
    Known known (resourceMentions resources) →
    AllMeet d.Demands (resourceRegions resources) → d.Holds (resolveResources resources)
  | [], _, _ => by
    exact d.pure _
  | .decl decl :: resources, h, hd => by
    simp! only [known_append] at h
    simp! only [allMeet_cons] at hd
    exact d.bind (declareLocals_holds decl h.1 hd.1) fun _ =>
      resolveResources_holds resources h.2 hd.2
  | .expr e :: resources, h, hd => by
    simp! only [known_append] at h
    simp! only [allMeet_cons] at hd
    exact d.bind (resolveExpr_holds e .value h.1 hd.1) fun _ =>
      resolveResources_holds resources h.2 hd.2

theorem resolveCatches_holds : ∀ catches : List CatchClause, Known known (catchMentions catches) →
    AllMeet d.Demands (catchRegions catches) → d.Holds (resolveCatches catches)
  | [], _, _ => by
    exact d.pure _
  | .mk _ param body :: catches, h, hd => by
    simp! only [known_append] at h
    simp! only [meets_detail, allMeet_cons] at hd
    have hfirst : d.Holds (do
        declareParam param
        resolveBlock body) :=
      d.bind (declareParam_holds param h.1.1 hd.1.2.1) fun _ =>
        resolveBlock_holds body h.1.2 hd.1.2.2.1
    exact d.bind (d.inScope _ hfirst) fun _ => resolveCatches_holds catches h.2 hd.2

theorem resolveCases_holds : ∀ (cases : List SwitchCase) (enumType : Option BindingId),
    Known known (caseMentions cases) →
    AllMeet d.Demands (caseRegions cases) → d.Holds (resolveCases enumType cases)
  | [], _, _, _ => by
    exact d.pure _
  | .mk _ labels _ body :: cases, enumType, h, hd => by
    simp! only [known_append] at h
    simp! only [meets_detail, allMeet_cons, allMeet_append] at hd
    have hstep : d.Holds (do
        resolveLabels enumType labels
        resolveStmts body) :=
      d.bind (resolveLabels_holds labels enumType h.1.1 hd.1.2.1) fun _ =>
        resolveStmts_holds body h.1.2 hd.1.2.2
    simp! only
    split
    · exact d.bind (d.inScope _ hstep) fun _ => resolveCases_holds cases enumType h.2 hd.2
    · exact d.bind hstep fun _ => resolveCases_holds cases enumType h.2 hd.2

theorem resolveLabels_holds : ∀ (labels : List CaseLabel) (enumType : Option BindingId),
    Known known (labelMentions labels) →
    AllMeet d.Demands (labelRegions labels) → d.Holds (resolveLabels enumType labels)
  | [], _, _, _ => by
    exact d.pure _
  | .default _ :: labels, enumType, h, hd => by
    simp! only at h
    simp! only [allMeet_cons] at hd
    exact resolveLabels_holds labels enumType h hd.2
  | .values _ values :: labels, enumType, h, hd => by
    simp! only [known_append] at h
    simp! only [allMeet_cons, meets_detail] at hd
    exact d.bind (resolveCaseValues_holds values enumType h.1 hd.1.2) fun _ =>
      resolveLabels_holds labels enumType h.2 hd.2
  | .pattern _ pattern guard :: labels, enumType, h, hd => by
    simp! only [known_append] at h
    simp! only [allMeet_cons, meets_detail] at hd
    refine d.bind (declarePattern_holds pattern h.1.1 hd.1.2.1) fun _ => ?_
    exact d.bind (resolveOptional_holds guard h.1.2 hd.1.2.2) fun _ =>
      resolveLabels_holds labels enumType h.2 hd.2

theorem resolveCaseValues_holds : ∀ (values : List Expr) (enumType : Option BindingId),
    Known known (exprMentions values) →
    AllMeet d.Demands (Expr.regions values) → d.Holds (resolveCaseValues enumType values)
  | [], _, _, _ => by
    exact d.pure _
  | value :: values, enumType, h, hd => by
    simp! only [known_append] at h
    simp! only [allMeet_cons] at hd
    obtain ⟨hvalue, hvalues⟩ := h
    unfold resolveCaseValues
    split
    · exact d.pure _
    · rename_i heq
      cases heq
      simp! only [known_cons] at hvalue
      exact d.bind (resolveCaseName_holds d enumType hvalue.1) fun _ =>
        resolveCaseValues_holds values enumType hvalues hd.2
    · rename_i heq
      cases heq
      exact d.bind (resolveExpr_holds value .value hvalue hd.1) fun _ =>
        resolveCaseValues_holds values enumType hvalues hd.2

theorem resolveExprs_holds : ∀ es : List Expr, Known known (exprMentions es) →
    AllMeet d.Demands (Expr.regions es) → d.Holds (resolveExprs es)
  | [], _, _ => by
    exact d.pure _
  | e :: es, h, hd => by
    simp! only [known_append] at h
    simp! only [allMeet_cons] at hd
    exact d.bind (resolveExpr_holds e .value h.1 hd.1) fun _ => resolveExprs_holds es h.2 hd.2

theorem resolveOptional_holds : ∀ e : Option Expr, Known known (optionalMentions e) →
    AllMeet d.Demands (optionalRegions e) → d.Holds (resolveOptional e)
  | none, _, _ => by
    exact d.pure _
  | some e, h, hd => by
    simp! only at h
    simp! only [allMeet_cons] at hd
    exact d.bind (resolveExpr_holds e .value h hd.1) fun _ => d.pure _

theorem resolveDims_holds : ∀ dims : List DimExpr, Known known (dimMentions dims) →
    AllMeet d.Demands (dimRegions dims) → d.Holds (resolveDims dims)
  | [], _, _ => by
    exact d.pure _
  | .mk _ size :: dims, h, hd => by
    simp! only [known_append] at h
    simp! only [allMeet_cons, meets_detail] at hd
    exact d.bind (resolveOptional_holds size h.1 hd.1.2) fun _ => resolveDims_holds dims h.2 hd.2

theorem resolveExpr_holds : ∀ (e : Expr) (use : NameUse), Known known (e.mentions use) →
    e.region.Meets d.Demands → d.Holds (resolveExpr use e)
  | .literal _ _, use, h, _ => by
    have hvalue := valueQualifier_holds d use h
    exact hvalue
  | .name name, use, h, _ => by
    simp! only [known_cons] at h
    exact resolveName_holds d use h.1
  | .this _, _, _, _ => by
    exact d.get (.of_blind fun _ _ _ => rfl) fun b => d.pure _
  | .super _, use, h, _ => by
    have hvalue := valueQualifier_holds d use h
    exact hvalue
  | .fieldAccess _ target name, use, h, hd => by
    simp! only [known_append, known_cons] at h
    simp! only [meets_part, allMeet_cons] at hd
    obtain ⟨htarget, hname, -⟩ := h
    refine d.get (.of_blind fun _ _ _ => rfl) fun b => ?_
    split
    · rename_i field hfield
      have hassigned := assigned_of_assignedField? hfield
      exact d.bind (d.pass _ hname (.inl hassigned)) fun _ => d.pure _
    · exact d.bind (resolveExpr_holds target .qualifier htarget hd.2.1) fun _ =>
      select_holds d _ hname
  | .methodCall _ none _ typeArgs name _ args, use, h, hd => by
    have hvalue := valueQualifier_holds d use h
    simp! only [known_append, known_cons] at h
    simp! only [meets_part, meets_detail, allMeet_cons, allMeet_append] at hd
    obtain ⟨htypeArgs, hname, hargs⟩ := h
    refine d.bind (resolveTypes_holds d typeArgs htypeArgs) fun _ => ?_
    refine d.bind (resolveExprs_holds args hargs hd.2.2.2.1.2) fun _ => ?_
    exact d.bind (resolveSimpleCall_holds d hname hargs) fun _ => hvalue
  | .methodCall _ (some target) _ typeArgs name _ args, use, h, hd => by
    have hvalue := valueQualifier_holds d use h
    simp! only [known_append, known_cons] at h
    simp! only [meets_part, meets_detail, allMeet_cons, allMeet_append] at hd
    obtain ⟨⟨htarget, htypeArgs⟩, hname, hargs⟩ := h
    refine d.bind (resolveTypes_holds d typeArgs htypeArgs) fun _ => ?_
    refine d.bind (resolveExprs_holds args hargs hd.2.2.2.1.2) fun _ => ?_
    refine d.bind (resolveExpr_holds target .qualifier htarget hd.2.1.1.1) fun _ => ?_
    exact d.bind (resolveMemberCall_holds d _ hname hargs) fun _ => hvalue
  | .newObject _ none type _ args body, use, h, hd => by
    have hvalue := valueQualifier_holds d use h
    simp! only [known_append] at h
    simp! only [meets_part, meets_detail, allMeet_cons, allMeet_append] at hd
    obtain ⟨⟨htype, hargs⟩, hbody⟩ := h
    refine d.bind (resolveType_holds d type false htype) fun _ => ?_
    refine d.bind (resolveExprs_holds args hargs hd.2.2.2.1.2) fun _ => ?_
    exact d.bind (resolveAnonymous_holds body _ hbody hd.2.2.2.2) fun _ => hvalue
  | .newObject _ (some outer) type _ args body, use, h, hd => by
    have hvalue := valueQualifier_holds d use h
    simp! only [known_append] at h
    simp! only [meets_part, meets_detail, allMeet_cons, allMeet_append] at hd
    obtain ⟨⟨⟨houter, htype⟩, hargs⟩, hbody⟩ := h
    refine d.bind (resolveExpr_holds outer .value houter hd.2.1.1) fun _ => ?_
    refine d.get (fun b b' hb => ?_) fun b => ?_
    · simp only [hb.exprType?_eq outer houter]
    refine d.bind (resolveInnerType_holds d _ type htype) fun _ => ?_
    refine d.bind (resolveExprs_holds args hargs hd.2.2.2.1.2) fun _ => ?_
    exact d.bind (resolveAnonymous_holds body _ hbody hd.2.2.2.2) fun _ => hvalue
  | .newArray _ element dims _ init, use, h, hd => by
    have hvalue := valueQualifier_holds d use h
    simp! only [known_append] at h
    simp! only [meets_part, allMeet_cons, allMeet_append] at hd
    refine d.bind (resolveType_holds d element false h.1.1) fun _ => ?_
    refine d.bind (resolveDims_holds dims h.1.2 hd.2.1.2) fun _ => ?_
    exact d.bind (resolveExprs_holds init h.2 hd.2.2.of_listed) fun _ => hvalue
  | .arrayInit _ items, use, h, hd => by
    have hvalue := valueQualifier_holds d use h
    simp! only at h
    simp! only [meets_part] at hd
    exact d.bind (resolveExprs_holds items h hd.2) fun _ => hvalue
  | .arrayAccess _ array index, use, h, hd => by
    have hvalue := valueQualifier_holds d use h
    simp! only [known_append] at h
    simp! only [meets_part, allMeet_cons] at hd
    refine d.bind (resolveExpr_holds array .value h.1 hd.2.1) fun _ => ?_
    exact d.bind (resolveExpr_holds index .value h.2 hd.2.2.1) fun _ => hvalue
  | .unary _ _ operand, use, h, hd => by
    have hvalue := valueQualifier_holds d use h
    simp! only at h
    simp! only [meets_part, allMeet_cons] at hd
    exact d.bind (resolveExpr_holds operand .value h hd.2.1) fun _ => hvalue
  | .binary _ _ lhs rhs, use, h, hd => by
    have hvalue := valueQualifier_holds d use h
    simp! only [known_append] at h
    simp! only [meets_part, allMeet_cons] at hd
    refine d.bind (resolveExpr_holds lhs .value h.1 hd.2.1) fun _ => ?_
    exact d.bind (resolveExpr_holds rhs .value h.2 hd.2.2.1) fun _ => hvalue
  | .assign _ _ target value, use, h, hd => by
    have hvalue := valueQualifier_holds d use h
    simp! only [known_append] at h
    simp! only [meets_part, allMeet_cons] at hd
    refine d.bind (resolveExpr_holds value .value h.2 hd.2.2.1) fun _ => ?_
    exact d.bind (resolveExpr_holds target _ h.1 hd.2.1) fun _ => hvalue
  | .conditional _ cond yes no, use, h, hd => by
    have hvalue := valueQualifier_holds d use h
    simp! only [known_append] at h
    simp! only [meets_part, allMeet_cons] at hd
    refine d.bind (resolveExpr_holds cond .value h.1.1 hd.2.1) fun _ => ?_
    refine d.bind (resolveExpr_holds yes .value h.1.2 hd.2.2.1) fun _ => ?_
    exact d.bind (resolveExpr_holds no .value h.2 hd.2.2.2.1) fun _ => hvalue
  | .instanceOf _ operand type, use, h, hd => by
    have hvalue := valueQualifier_holds d use h
    simp! only [known_append] at h
    simp! only [meets_part, allMeet_cons] at hd
    refine d.bind (resolveExpr_holds operand .value h.1 hd.2.1) fun _ => ?_
    exact d.bind (resolveType_holds d type false h.2) fun _ => hvalue
  | .instanceOfPattern _ operand pattern, use, h, hd => by
    have hvalue := valueQualifier_holds d use h
    simp! only [known_append] at h
    simp! only [meets_part, allMeet_cons] at hd
    refine d.bind (resolveExpr_holds operand .value h.1 hd.2.1) fun _ => ?_
    exact d.bind (declarePattern_holds pattern h.2 hd.2.2.1) fun _ => hvalue
  | .cast _ type operand, use, h, hd => by
    have hvalue := valueQualifier_holds d use h
    simp! only [known_append] at h
    simp! only [meets_part, allMeet_cons] at hd
    refine d.bind (resolveType_holds d type false h.1) fun _ => ?_
    exact d.bind (resolveExpr_holds operand .value h.2 hd.2.2.1) fun _ => hvalue
  | .paren _ inner, use, h, hd => by
    have hvalue := valueQualifier_holds d use h
    simp! only at h
    simp! only [meets_part, allMeet_cons] at hd
    exact d.bind (resolveExpr_holds inner .value h hd.2.1) fun _ => hvalue
  | .classLiteral _ type, use, h, _ => by
    have hvalue := valueQualifier_holds d use h
    simp! only at h
    exact d.bind (resolveType_holds d type false h) fun _ => hvalue
  | .lambdaExpr _ _ params _ body, use, h, hd => by
    have hvalue := valueQualifier_holds d use h
    simp! only [known_append] at h
    simp! only [meets_part, meets_detail, allMeet_cons] at hd
    have hinside : d.Holds (do
        declareLambdaParams params
        let _ ← resolveExpr .value body) :=
      d.bind (declareLambdaParams_holds params h.1 hd.2.1.2) fun _ =>
        d.bind (resolveExpr_holds body .value h.2 hd.2.2.1) fun _ => d.pure _
    exact d.bind (d.inScope _ hinside) fun _ => hvalue
  | .lambdaBlock _ _ params _ body, use, h, hd => by
    have hvalue := valueQualifier_holds d use h
    simp! only [known_append] at h
    simp! only [meets_part, meets_detail, allMeet_cons] at hd
    have hinside : d.Holds (do
        declareLambdaParams params
        resolveBlock body) :=
      d.bind (declareLambdaParams_holds params h.1 hd.2.1.2) fun _ =>
        resolveBlock_holds body h.2 hd.2.2.1
    exact d.bind (d.inScope _ hinside) fun _ => hvalue
  | .methodRef _ target name, use, h, hd => by
    have hvalue := valueQualifier_holds d use h
    simp! only [known_append] at h
    simp! only [meets_part, allMeet_cons] at hd
    have hname : ∀ n ∈ name, known (.member false n) := by
      rintro n rfl
      simpa using h.2
    refine d.bind (resolveExpr_holds target .qualifier h.1 hd.2.1) fun _ => ?_
    exact d.bind (resolveMethodRef_holds d _ hname) fun _ => hvalue
  | .switching range selector _ cases, use, h, hd => by
    have hvalue := valueQualifier_holds d use h
    simp! only [known_append] at h
    simp! only [meets_part, meets_detail, allMeet_cons] at hd
    refine d.bind (resolveExpr_holds selector .value h.1 hd.2.1) fun _ => ?_
    refine d.bind (checkExhaustive_holds d range cases h.1 hd.1) fun _ => ?_
    refine d.get (fun b b' hb => ?_) fun b => ?_
    · simp only [hb.enumOf?_eq h.1]
    exact d.bind (d.inScope _ (resolveCases_holds cases _ h.2 hd.2.2.1.2)) fun _ =>
      hvalue
  | .annotated marker, use, h, hd => by
    have hvalue := valueQualifier_holds d use h
    simp! only at h
    simp! only [meets_part, allMeet_cons] at hd
    exact d.bind (resolveAnnotation_holds marker h hd.2.1) fun _ => hvalue
  | .type type, use, h, _ => by
    simp! only at h
    refine d.bind (resolveType_holds d type false h) fun lookup => ?_
    split
    · exact d.pure _
    · exact d.pure _

end

/-! ## The passes over a file -/

theorem declareTypes_holds (decls : List TypeDecl) (h : Known known (declMentions decls)) :
    d.Holds (declareTypes decls) := by
  induction decls with
  | nil => exact d.pure _
  | cons decl decls ih =>
    simp only [declMentions, known_append] at h
    exact d.bind (declareType_holds d decl none h.1) fun _ => ih h.2

theorem declareAllMembers_holds (decls : List TypeDecl) (h : Known known (declMentions decls))
    (hd : AllMeet d.Demands (decls.map TypeDecl.region)) : d.Holds (declareAllMembers decls) := by
  induction decls with
  | nil => exact d.pure _
  | cons decl decls ih =>
    simp only [declMentions, known_append] at h
    simp only [List.map_cons, allMeet_cons] at hd
    exact d.bind (declareMembers_holds d decl h.1 hd.1) fun _ => ih h.2 hd.2

theorem resolveTypeBodies_holds (decls : List TypeDecl) (h : Known known (declMentions decls))
    (hd : AllMeet d.Demands (decls.map TypeDecl.region)) : d.Holds (resolveTypeBodies decls) := by
  induction decls with
  | nil => exact d.pure _
  | cons decl decls ih =>
    simp only [declMentions, known_append] at h
    simp only [List.map_cons, allMeet_cons] at hd
    exact d.bind (resolveTypeBody_holds d decl h.1 hd.1) fun _ => ih h.2 hd.2

/-- A discipline holds for all that comes after the imports. -/
theorem passes_holds (decls : List TypeDecl) (h : Known known (declMentions decls))
    (hd : AllMeet d.Demands (decls.map TypeDecl.region)) : d.Holds (passes decls) := by
  refine d.bind (declareTypes_holds d decls h) fun _ => ?_
  refine d.bind (declareAllMembers_holds d decls h hd) fun _ => ?_
  exact resolveTypeBodies_holds d decls h hd

end JavaAnalysis.Binder
