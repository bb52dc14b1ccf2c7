import JavaAnalysis.Proofs.Spacing.Resolve.Expressions

/-!
# Names in bodies in two walks

The walk through a file that was moved is like the walk through the file itself: there is one case for
each function of the walk and each constructor of the syntax. So what the names of a file are bound
to, and which problems they have, is the same when the file is moved.
Main statement: `Resolution.moved_ofUnit`.
-/

set_option autoImplicit false
set_option linter.dupNamespace false

namespace JavaAnalysis.Binder

open Ast

variable {f : Shift} {b c : Binder}

theorem declareMethodName_alike (owner : BindingId) (inInterface isConstructor : Bool)
    (ms : List Modifier) (name : Ident) :
    Alike f (declareMethodName owner inInterface isConstructor ms name)
      (declareMethodName owner inInterface isConstructor (ms.map (Modifier.shift f))
        (name.shift f)) := by
  unfold declareMethodName
  rw [ofModifiers_shift]
  exact (allocate_alike _).bind fun id => (bind_alike _ id).bind fun _ => .pure id

theorem resolveReturnType_alike (brackets : Nat) (type : Option TypeRef) :
    Alike f (resolveReturnType brackets type)
      (resolveReturnType brackets (type.map (TypeRef.shift f))) := by
  cases type with
  | none => exact .pure _
  | some type =>
    rw [Option.map_some, resolveReturnType, resolveReturnType]
    refine (resolveType_alike type false).bind fun lookup => ?_
    simp only [TypeRef.shift_display, classOf?_shift]
    exact .pure _

mutual

theorem resolveAnnotation_alike : ∀ use : AnnotationUse,
    Alike f ( resolveAnnotation use) ( resolveAnnotation (use.shift f))
  | .mk _ name _ args => by
    simp! only [ElementValue.shiftAll_eq]
    exact (resolveMarkerName_alike name).bind fun _ => resolveElementValues_alike args

theorem resolveElementValues_alike : ∀ args : List ElementValue,
    Alike f (resolveElementValues args) (resolveElementValues (args.map (ElementValue.shift f)))
  | [] => .pure _
  | .mk _ _ value :: args => by
    exact (resolveExpr_alike value .value).bind fun _ => resolveElementValues_alike args

theorem resolveModifiers_alike : ∀ ms : List Modifier,
    Alike f (resolveModifiers ms) (resolveModifiers (ms.map (Modifier.shift f)))
  | [] => .pure _
  | .word _ _ :: ms => by
    exact resolveModifiers_alike ms
  | .annotated use :: ms => by
    exact (resolveAnnotation_alike use).bind fun _ => resolveModifiers_alike ms

theorem resolveAnnotations_alike : ∀ uses : List AnnotationUse,
    Alike f (resolveAnnotations uses) (resolveAnnotations (uses.map (AnnotationUse.shift f)))
  | [] => .pure _
  | use :: uses => by
    exact (resolveAnnotation_alike use).bind fun _ => resolveAnnotations_alike uses

theorem resolveTypeParams_alike : ∀ params : List TypeParam,
    Alike f (resolveTypeParams params) (resolveTypeParams (params.map (TypeParam.shift f)))
  | [] => .pure _
  | .mk _ uses _ bounds :: params => by
    simp! only [List.map_cons, AnnotationUse.shiftAll_eq, TypeRef.shiftAll_eq]
    refine (resolveAnnotations_alike uses).bind fun _ => ?_
    exact (resolveTypes_alike bounds).bind fun _ => resolveTypeParams_alike params

theorem declareMembers_alike : ∀ decl : TypeDecl,
    Alike f (declareMembers decl) (declareMembers (decl.shift f))
  | .mk _ kind _ name _ typeParams _ components supers interfaces permitted
      (.mk _ constants members) => by
    simp! only [Modifier.shiftAll_eq, TypeParam.shiftAll_eq, Param.shiftAll_eq, TypeRef.shiftAll_eq,
      EnumConstant.shiftAll_eq, Member.shiftAll_eq]
    refine .get fun b c h => ?_
    have hname := h.boundAt?_eq name.range.start
    simp only [Ident.shift_range, Shift.range_start, hname]
    split
    · exact .pure _
    refine inScope_alike _ ?_
    refine (declareTypeParamNames_alike _ typeParams).bind fun _ => ?_
    refine (resolveTypeParams_alike typeParams).bind fun _ => ?_
    refine (declareSupertypes_alike _ kind supers interfaces permitted).bind fun _ => ?_
    refine (declareComponents_alike _ components).bind fun _ => ?_
    exact (declareConstants_alike _ _ constants).bind fun _ => declareMembersIn_alike members _ _

theorem declareMembersIn_alike : ∀ (members : List Member) (owner : BindingId) (inInterface : Bool),
    Alike f (declareMembersIn owner inInterface members)
      (declareMembersIn owner inInterface (members.map (Member.shift f)))
  | [], _, _ => .pure _
  | .field decl :: members, owner, inInterface => by
    exact (declareFields_alike owner inInterface decl).bind fun _ =>
      declareMembersIn_alike members owner inInterface
  | .method decl :: members, owner, inInterface => by
    exact (declareMethod_alike decl owner inInterface).bind fun _ =>
      declareMembersIn_alike members owner inInterface
  | .type decl :: members, owner, inInterface => by
    exact (declareMembers_alike decl).bind fun _ => declareMembersIn_alike members owner inInterface
  | .initializer _ _ _ :: members, owner, inInterface => by
    exact declareMembersIn_alike members owner inInterface

theorem declareMethod_alike : ∀ (decl : MethodDecl) (owner : BindingId) (inInterface : Bool),
    Alike f (declareMethod owner inInterface decl) (declareMethod owner inInterface (decl.shift f))
  | .mk _ ms _ typeParams returnType name _ params brackets thrown _ _, owner, inInterface => by
    have hvarargs : (params.map (Param.shift f)).any Param.isVarargs = params.any Param.isVarargs := by
      simp only [List.any_map, Function.comp_def, Param.shift_isVarargs]
    simp! only [Modifier.shiftAll_eq, TypeParam.shiftAll_eq, TypeRef.shiftOption_eq,
      Param.shiftAll_eq, TypeRef.shiftAll_eq, Option.isNone_map, List.length_map, hvarargs]
    refine (declareMethodName_alike owner inInterface _ ms name).bind fun id => ?_
    refine (inScope_alike _ ?_).bind fun _ => complete_alike id _
    refine (declareTypeParamNames_alike id typeParams).bind fun _ => ?_
    refine (resolveTypeParams_alike typeParams).bind fun _ => ?_
    refine (resolveReturnType_alike _ returnType).bind fun _ => ?_
    refine (declareParams_alike id params).bind fun _ => ?_
    exact (resolveTypes_alike thrown).bind fun _ => .pure _

theorem resolveTypeBody_alike : ∀ decl : TypeDecl,
    Alike f (resolveTypeBody decl) (resolveTypeBody (decl.shift f))
  | .mk _ _ ms name _ typeParams _ components _ _ _ (.mk _ constants members) => by
    have hnames : (typeParams.map (TypeParam.shift f)).map TypeParam.name =
        (typeParams.map TypeParam.name).map (Ident.shift f) := by
      simp only [List.map_map, Function.comp_def, TypeParam.shift_name]
    simp! only [Modifier.shiftAll_eq, TypeParam.shiftAll_eq, hnames, Param.shiftAll_eq,
      EnumConstant.shiftAll_eq, Member.shiftAll_eq]
    refine .get fun b c h => ?_
    have hname := h.boundAt?_eq name.range.start
    simp only [Ident.shift_range, Shift.range_start, hname]
    split
    · exact .pure _
    refine inScope_alike _ ?_
    refine (enterAgain_alike _).bind fun _ => (resolveModifiers_alike ms).bind fun _ => ?_
    refine (resolveComponents_alike components).bind fun _ => ?_
    exact (resolveConstants_alike constants _).bind fun _ => resolveMembers_alike members

theorem resolveComponents_alike : ∀ components : List Param,
    Alike f (resolveComponents components) (resolveComponents (components.map (Param.shift f)))
  | [] => .pure _
  | .mk _ ms _ _ _ _ :: components => by
    simp! only [List.map_cons, Modifier.shiftAll_eq]
    exact (resolveModifiers_alike ms).bind fun _ => resolveComponents_alike components

theorem resolveConstants_alike : ∀ (constants : List EnumConstant) (owner : BindingId),
    Alike f (resolveConstants owner constants)
      (resolveConstants owner (constants.map (EnumConstant.shift f)))
  | [], _ => .pure _
  | .mk _ ms _ _ args body :: constants, owner => by
    simp! only [List.map_cons, Modifier.shiftAll_eq, Expr.shiftAll_eq, ClassBody.shiftOption_eq]
    refine (resolveModifiers_alike ms).bind fun _ => (resolveExprs_alike args).bind fun _ => ?_
    exact (resolveAnonymous_alike body (some owner)).bind fun _ =>
      resolveConstants_alike constants owner

theorem resolveAnonymous_alike : ∀ (body : Option ClassBody) (parent : Option BindingId),
    Alike f (resolveAnonymous parent body)
      (resolveAnonymous parent (body.map (ClassBody.shift f)))
  | none, _ => .pure _
  | some (.mk range constants members), parent => by
    simp! only [Option.map_some, EnumConstant.shiftAll_eq, Member.shiftAll_eq]
    refine (declareAnonymous_alike range.start parent).bind fun id => ?_
    refine (declareTypesIn_alike members id).bind fun _ => inScope_alike _ ?_
    refine (declareConstants_alike id _ constants).bind fun _ => ?_
    refine (declareMembersIn_alike members id false).bind fun _ => ?_
    exact (resolveConstants_alike constants id).bind fun _ => resolveMembers_alike members

theorem resolveMembers_alike : ∀ members : List Member,
    Alike f (resolveMembers members) (resolveMembers (members.map (Member.shift f)))
  | [] => .pure _
  | .field (.mk _ ms _ fragments) :: members => by
    simp! only [List.map_cons, Modifier.shiftAll_eq, VarFragment.shiftAll_eq]
    refine (resolveModifiers_alike ms).bind fun _ => ?_
    exact (resolveInits_alike fragments).bind fun _ => resolveMembers_alike members
  | .method decl :: members => by
    exact (resolveMethod_alike decl).bind fun _ => resolveMembers_alike members
  | .initializer _ _ body :: members => by
    exact (inScope_alike _ (resolveBlock_alike body)).bind fun _ => resolveMembers_alike members
  | .type decl :: members => by
    exact (resolveTypeBody_alike decl).bind fun _ => resolveMembers_alike members

theorem resolveInits_alike : ∀ fragments : List VarFragment,
    Alike f (resolveInits fragments) (resolveInits (fragments.map (VarFragment.shift f)))
  | [] => .pure _
  | .mk _ _ _ init :: fragments => by
    simp! only [List.map_cons, Expr.shiftOption_eq]
    exact (resolveOptional_alike init).bind fun _ => resolveInits_alike fragments

theorem resolveMethod_alike : ∀ decl : MethodDecl,
    Alike f (resolveMethod decl) (resolveMethod (decl.shift f))
  | .mk _ ms _ typeParams _ name paramsRange params _ _ defaultValue body => by
    have hnames : (typeParams.map (TypeParam.shift f)).map TypeParam.name =
        (typeParams.map TypeParam.name).map (Ident.shift f) := by
      simp only [List.map_map, Function.comp_def, TypeParam.shift_name]
    have hinside : Alike f
        (do
          resolveOptional defaultValue
          match body with
          | none => return ()
          | some block => resolveBlock block)
        (do
          resolveOptional (defaultValue.map (Expr.shift f))
          match body.map (Block.shift f) with
          | none => return ()
          | some block => resolveBlock block) :=
      (resolveOptional_alike defaultValue).bind fun _ => resolveOptionalBlock_alike body
    show Alike f _ (resolveMethod (.mk _ _ _ _ _ _ _ _ _ _ _ _))
    rw [resolveMethod_mk, resolveMethod_mk, Modifier.shiftAll_eq, TypeParam.shiftAll_eq, hnames,
      Param.shiftAll_eq, Option.isNone_map, Expr.shiftOption_eq, Block.shiftOption_eq]
    refine .get fun b c h => ?_
    have hname := h.boundAt?_eq name.range.start
    simp only [Ident.shift_range, Shift.range_start, hname]
    split
    · exact .pure _
    refine (resolveModifiers_alike ms).bind fun _ => inScope_alike _ ?_
    refine (enterAgain_alike _).bind fun _ => (enterParams_alike params).bind fun _ => ?_
    exact .ite (fun _ => enterComponents_alike.bind fun _ => hinside) fun _ => hinside

theorem resolveOptionalBlock_alike : ∀ body : Option Block,
    Alike f
      (match body with
        | none => return ()
        | some block => resolveBlock block)
      (match body.map (Block.shift f) with
        | none => return ()
        | some block => resolveBlock block)
  | none => .pure _
  | some block => resolveBlock_alike block

theorem enterParams_alike : ∀ params : List Param,
    Alike f (enterParams params) (enterParams (params.map (Param.shift f)))
  | [] => .pure _
  | .mk _ ms _ _ name _ :: params => by
    simp! only [List.map_cons, Modifier.shiftAll_eq]
    refine (resolveModifiers_alike ms).bind fun _ => ?_
    exact (enterAgain_alike [name]).bind fun _ => enterParams_alike params

theorem declareLocals_alike : ∀ decl : VarDecl,
    Alike f (declareLocals decl) (declareLocals (decl.shift f))
  | .mk _ ms type fragments => by
    simp! only [Modifier.shiftAll_eq, VarFragment.shiftAll_eq]
    refine (resolveModifiers_alike ms).bind fun _ => ?_
    exact (resolveType_alike type false).bind fun lookup =>
      declareFragments_alike fragments ms type lookup

theorem declareFragments_alike : ∀ (fragments : List VarFragment) (ms : List Modifier)
    (type : TypeRef) (lookup : Lookup),
    Alike f (declareFragments ms type lookup fragments)
      (declareFragments (ms.map (Modifier.shift f)) (type.shift f) lookup
        (fragments.map (VarFragment.shift f)))
  | [], _, _, _ => .pure _
  | .mk _ name brackets init :: fragments, ms, type, lookup => by
    simp! only [List.map_cons, Expr.shiftOption_eq, List.length_map]
    refine (resolveOptional_alike init).bind fun _ => ?_
    exact (declareLocal_alike _ ms (some type) lookup name _).bind fun _ =>
      declareFragments_alike fragments ms type lookup

theorem declareParam_alike : ∀ param : Param,
    Alike f (declareParam param) (declareParam (param.shift f))
  | .mk _ ms none ellipsis name brackets => by
    simp! only [Modifier.shiftAll_eq, List.length_map, Option.isSome_map]
    refine (resolveModifiers_alike ms).bind fun _ => ?_
    exact (Alike.pure Lookup.unknown).bind fun lookup => declareLocal_alike _ ms none lookup name _
  | .mk _ ms (some type) ellipsis name brackets => by
    simp! only [Modifier.shiftAll_eq, List.length_map, Option.isSome_map]
    refine (resolveModifiers_alike ms).bind fun _ => ?_
    exact (resolveType_alike type false).bind fun lookup =>
      declareLocal_alike _ ms (some type) lookup name _

theorem declareLambdaParams_alike : ∀ params : List Param,
    Alike f (declareLambdaParams params) (declareLambdaParams (params.map (Param.shift f)))
  | [] => .pure _
  | param :: params => by
    exact (declareParam_alike param).bind fun _ => declareLambdaParams_alike params

theorem declarePattern_alike : ∀ pattern : Pattern,
    Alike f (declarePattern pattern) (declarePattern (pattern.shift f))
  | .mk _ ms type name => by
    simp! only [Modifier.shiftAll_eq]
    refine (resolveModifiers_alike ms).bind fun _ => ?_
    exact (resolveType_alike type false).bind fun lookup =>
      declareLocal_alike _ ms (some type) lookup name 0

theorem resolveBlock_alike : ∀ block : Block,
    Alike f (resolveBlock block) (resolveBlock (block.shift f))
  | .mk _ stmts => by
    simp! only [Stmt.shiftAll_eq]
    exact inScope_alike _ (resolveStmts_alike stmts)

theorem resolveStmts_alike : ∀ stmts : List Stmt,
    Alike f (resolveStmts stmts) (resolveStmts (stmts.map (Stmt.shift f)))
  | [] => .pure _
  | s :: ss => by
    exact (resolveStmt_alike s).bind fun _ => resolveStmts_alike ss

theorem resolveStmt_alike : ∀ s : Stmt, Alike f (resolveStmt s) (resolveStmt (s.shift f))
  | .block body => by
    exact resolveBlock_alike body
  | .localVar decl => by
    exact declareLocals_alike decl
  | .localType decl => by
    simp! only [TypeDecl.shift_name]
    refine .get fun b c h => ?_
    rw [h.currentOwner?_eq]
    refine (declareType_alike decl _).bind fun _ => (enterAgain_alike [decl.name]).bind fun _ => ?_
    exact (declareMembers_alike decl).bind fun _ => resolveTypeBody_alike decl
  | .expression _ e => by
    exact (resolveExpr_alike e .value).bind fun _ => .pure _
  | .ifThen _ cond body => by
    exact (resolveExpr_alike cond .value).bind fun _ => inScope_alike _ (resolveStmt_alike body)
  | .ifThenElse _ cond body alternative => by
    refine (resolveExpr_alike cond .value).bind fun _ => ?_
    exact (inScope_alike _ (resolveStmt_alike body)).bind fun _ =>
      inScope_alike _ (resolveStmt_alike alternative)
  | .whileLoop _ cond body => by
    exact (resolveExpr_alike cond .value).bind fun _ => inScope_alike _ (resolveStmt_alike body)
  | .doLoop _ body cond => by
    refine (inScope_alike _ (resolveStmt_alike body)).bind fun _ => ?_
    exact (resolveExpr_alike cond .value).bind fun _ => .pure _
  | .forLoop _ init cond update body => by
    simp! only [Expr.shiftOption_eq, Expr.shiftAll_eq]
    refine inScope_alike _ ((resolveForInit_alike init).bind fun _ => ?_)
    refine (resolveOptional_alike cond).bind fun _ => (resolveExprs_alike update).bind fun _ => ?_
    exact inScope_alike _ (resolveStmt_alike body)
  | .forEach _ var iterable body => by
    refine (resolveExpr_alike iterable .value).bind fun _ => inScope_alike _ ?_
    exact (declareLocals_alike var).bind fun _ => inScope_alike _ (resolveStmt_alike body)
  | .returning _ e => by
    simp! only [Expr.shiftOption_eq]
    exact resolveOptional_alike e
  | .breaking _ _ => by
    exact .pure _
  | .continuing _ _ => by
    exact .pure _
  | .yielding _ e => by
    exact (resolveExpr_alike e .value).bind fun _ => .pure _
  | .labeled _ _ body => by
    exact inScope_alike _ (resolveStmt_alike body)
  | .throwing _ e => by
    exact (resolveExpr_alike e .value).bind fun _ => .pure _
  | .trying _ _ resources body catches final => by
    show Alike f _ (resolveStmt (.trying _ _ _ _ _ _))
    rw [resolveStmt_trying, resolveStmt_trying, Resource.shiftAll_eq, CatchClause.shiftAll_eq,
      Block.shiftOption_eq]
    have hfirst : Alike f
        (do
          resolveResources resources
          resolveBlock body)
        (do
          resolveResources (resources.map (Resource.shift f))
          resolveBlock (body.shift f)) :=
      (resolveResources_alike resources).bind fun _ => resolveBlock_alike body
    refine (inScope_alike _ hfirst).bind fun _ => ?_
    exact (resolveCatches_alike catches).bind fun _ => resolveOptionalBlock_alike final
  | .switching _ selector _ cases => by
    simp! only [SwitchCase.shiftAll_eq]
    refine (resolveExpr_alike selector .value).bind fun _ => .get fun b c h => ?_
    rw [h.enumOf?_eq]
    exact inScope_alike _ (resolveCases_alike cases _)
  | .synchronizing _ lock body => by
    exact (resolveExpr_alike lock .value).bind fun _ => resolveBlock_alike body
  | .asserting _ cond message => by
    simp! only [Expr.shiftOption_eq]
    exact (resolveExpr_alike cond .value).bind fun _ => resolveOptional_alike message
  | .empty _ => by
    exact .pure _

theorem resolveForInit_alike : ∀ init : ForInit,
    Alike f (resolveForInit init) (resolveForInit (init.shift f))
  | .absent => .pure _
  | .decl decl => by
    exact declareLocals_alike decl
  | .exprs es => by
    simp! only [Expr.shiftAll_eq]
    exact resolveExprs_alike es

theorem resolveResources_alike : ∀ resources : List Resource,
    Alike f (resolveResources resources) (resolveResources (resources.map (Resource.shift f)))
  | [] => .pure _
  | .decl decl :: resources => by
    exact (declareLocals_alike decl).bind fun _ => resolveResources_alike resources
  | .expr e :: resources => by
    exact (resolveExpr_alike e .value).bind fun _ => resolveResources_alike resources

theorem resolveCatches_alike : ∀ catches : List CatchClause,
    Alike f (resolveCatches catches) (resolveCatches (catches.map (CatchClause.shift f)))
  | [] => .pure _
  | .mk _ param body :: catches => by
    have hfirst : Alike f
        (do
          declareParam param
          resolveBlock body)
        (do
          declareParam (param.shift f)
          resolveBlock (body.shift f)) :=
      (declareParam_alike param).bind fun _ => resolveBlock_alike body
    exact (inScope_alike _ hfirst).bind fun _ => resolveCatches_alike catches

theorem resolveCases_alike : ∀ (cases : List SwitchCase) (enumType : Option BindingId),
    Alike f (resolveCases enumType cases)
      (resolveCases enumType (cases.map (SwitchCase.shift f)))
  | [], _ => .pure _
  | .mk _ labels arrow body :: cases, enumType => by
    have hstep : Alike f
        (do
          resolveLabels enumType labels
          resolveStmts body)
        (do
          resolveLabels enumType (labels.map (CaseLabel.shift f))
          resolveStmts (body.map (Stmt.shift f))) :=
      (resolveLabels_alike labels enumType).bind fun _ => resolveStmts_alike body
    have hpattern : (labels.map (CaseLabel.shift f)).any CaseLabel.isPattern =
        labels.any CaseLabel.isPattern := by
      simp only [List.any_map, Function.comp_def, CaseLabel.shift_isPattern]
    simp! only [List.map_cons, CaseLabel.shiftAll_eq, Stmt.shiftAll_eq, hpattern]
    exact .ite (fun _ => (inScope_alike _ hstep).bind fun _ => resolveCases_alike cases enumType)
      fun _ => hstep.bind fun _ => resolveCases_alike cases enumType

theorem resolveLabels_alike : ∀ (labels : List CaseLabel) (enumType : Option BindingId),
    Alike f (resolveLabels enumType labels)
      (resolveLabels enumType (labels.map (CaseLabel.shift f)))
  | [], _ => .pure _
  | .default _ :: labels, enumType => by
    exact resolveLabels_alike labels enumType
  | .values _ values :: labels, enumType => by
    simp! only [List.map_cons, Expr.shiftAll_eq]
    exact (resolveCaseValues_alike values enumType).bind fun _ =>
      resolveLabels_alike labels enumType
  | .pattern _ pattern guard :: labels, enumType => by
    simp! only [List.map_cons, Expr.shiftOption_eq]
    refine (declarePattern_alike pattern).bind fun _ => ?_
    exact (resolveOptional_alike guard).bind fun _ => resolveLabels_alike labels enumType

theorem resolveCaseValues_alike : ∀ (values : List Expr) (enumType : Option BindingId),
    Alike f (resolveCaseValues enumType values)
      (resolveCaseValues enumType (values.map (Expr.shift f)))
  | [], _ => .pure _
  | value :: values, enumType => by
    have hvalue : Alike f
        (resolveExpr .value value >>= fun _ => resolveCaseValues enumType values)
        (resolveExpr .value (value.shift f) >>= fun _ =>
          resolveCaseValues enumType (values.map (Expr.shift f))) :=
      (resolveExpr_alike value .value).bind fun _ => resolveCaseValues_alike values enumType
    cases value with
    | name name =>
      exact (resolveCaseName_alike enumType name).bind fun _ =>
        resolveCaseValues_alike values enumType
    | _ => exact hvalue

theorem resolveExprs_alike : ∀ es : List Expr,
    Alike f (resolveExprs es) (resolveExprs (es.map (Expr.shift f)))
  | [] => .pure _
  | e :: es => by
    exact (resolveExpr_alike e .value).bind fun _ => resolveExprs_alike es

theorem resolveOptional_alike : ∀ e : Option Expr,
    Alike f (resolveOptional e) (resolveOptional (e.map (Expr.shift f)))
  | none => .pure _
  | some e => by
    exact (resolveExpr_alike e .value).bind fun _ => .pure _

theorem resolveDims_alike : ∀ dims : List DimExpr,
    Alike f (resolveDims dims) (resolveDims (dims.map (DimExpr.shift f)))
  | [] => .pure _
  | .mk _ size :: dims => by
    simp! only [List.map_cons, Expr.shiftOption_eq]
    exact (resolveOptional_alike size).bind fun _ => resolveDims_alike dims

theorem resolveExpr_alike : ∀ (e : Expr) (use : NameUse),
    Alike f (resolveExpr use e) (resolveExpr use (e.shift f))
  | .literal _ _, use => by
    exact valueQualifier_alike use _
  | .name name, use => by
    exact resolveName_alike use name
  | .this _, _ => by
    refine .get fun b c h => ?_
    rw [h.currentType?_eq]
    exact .pure _
  | .super _, use => by
    exact valueQualifier_alike use _
  | .fieldAccess _ target name, use => by
    simp! only
    refine .get fun b c h => ?_
    rw [h.assignedField?_eq]
    split
    · exact (bind_alike _ _).bind fun _ => .pure _
    · exact (resolveExpr_alike target .qualifier).bind fun _ => select_alike _ name
  | .methodCall range none typeArgsRange typeArgs name argsRange args, use => by
    have hvalue := valueQualifier_alike (f := f) use
      (.methodCall range none typeArgsRange typeArgs name argsRange args)
    simp! only [TypeRef.shiftAll_eq, Expr.shiftAll_eq, Expr.shiftOption_eq] at hvalue ⊢
    refine (resolveTypes_alike typeArgs).bind fun _ => (resolveExprs_alike args).bind fun _ => ?_
    exact (resolveSimpleCall_alike name args).bind fun _ => hvalue
  | .methodCall range (some target) typeArgsRange typeArgs name argsRange args, use => by
    have hvalue := valueQualifier_alike (f := f) use
      (.methodCall range (some target) typeArgsRange typeArgs name argsRange args)
    simp! only [TypeRef.shiftAll_eq, Expr.shiftAll_eq, Expr.shiftOption_eq] at hvalue ⊢
    refine (resolveTypes_alike typeArgs).bind fun _ => (resolveExprs_alike args).bind fun _ => ?_
    refine (resolveExpr_alike target .qualifier).bind fun _ => ?_
    exact (resolveMemberCall_alike _ name args).bind fun _ => hvalue
  | .newObject range none type argsRange args body, use => by
    have hvalue := valueQualifier_alike (f := f) use (.newObject range none type argsRange args body)
    simp! only [Expr.shiftAll_eq, Expr.shiftOption_eq, ClassBody.shiftOption_eq] at hvalue ⊢
    refine (resolveType_alike type false).bind fun _ => (resolveExprs_alike args).bind fun _ => ?_
    exact (resolveAnonymous_alike body _).bind fun _ => hvalue
  | .newObject range (some outer) type argsRange args body, use => by
    have hvalue := valueQualifier_alike (f := f) use
      (.newObject range (some outer) type argsRange args body)
    simp! only [Expr.shiftAll_eq, Expr.shiftOption_eq, ClassBody.shiftOption_eq] at hvalue ⊢
    refine (resolveExpr_alike outer .value).bind fun _ => .get fun b c h => ?_
    rw [h.exprType?_eq]
    refine (resolveInnerType_alike _ type).bind fun _ => (resolveExprs_alike args).bind fun _ => ?_
    exact (resolveAnonymous_alike body _).bind fun _ => hvalue
  | .newArray range element dims initRange init, use => by
    have hvalue := valueQualifier_alike (f := f) use (.newArray range element dims initRange init)
    simp! only [DimExpr.shiftAll_eq, Expr.shiftAll_eq] at hvalue ⊢
    refine (resolveType_alike element false).bind fun _ => (resolveDims_alike dims).bind fun _ => ?_
    exact (resolveExprs_alike init).bind fun _ => hvalue
  | .arrayInit range items, use => by
    have hvalue := valueQualifier_alike (f := f) use (.arrayInit range items)
    simp! only [Expr.shiftAll_eq] at hvalue ⊢
    exact (resolveExprs_alike items).bind fun _ => hvalue
  | .arrayAccess _ array index, use => by
    refine (resolveExpr_alike array .value).bind fun _ => ?_
    exact (resolveExpr_alike index .value).bind fun _ => valueQualifier_alike use _
  | .unary _ _ operand, use => by
    exact (resolveExpr_alike operand .value).bind fun _ => valueQualifier_alike use _
  | .binary _ _ lhs rhs, use => by
    refine (resolveExpr_alike lhs .value).bind fun _ => ?_
    exact (resolveExpr_alike rhs .value).bind fun _ => valueQualifier_alike use _
  | .assign _ _ target value, use => by
    refine (resolveExpr_alike value .value).bind fun _ => ?_
    exact (resolveExpr_alike target _).bind fun _ => valueQualifier_alike use _
  | .conditional _ cond yes no, use => by
    refine (resolveExpr_alike cond .value).bind fun _ => ?_
    refine (resolveExpr_alike yes .value).bind fun _ => ?_
    exact (resolveExpr_alike no .value).bind fun _ => valueQualifier_alike use _
  | .instanceOf _ operand type, use => by
    refine (resolveExpr_alike operand .value).bind fun _ => ?_
    exact (resolveType_alike type false).bind fun _ => valueQualifier_alike use _
  | .instanceOfPattern _ operand pattern, use => by
    refine (resolveExpr_alike operand .value).bind fun _ => ?_
    exact (declarePattern_alike pattern).bind fun _ => valueQualifier_alike use _
  | .cast _ type operand, use => by
    refine (resolveType_alike type false).bind fun _ => ?_
    exact (resolveExpr_alike operand .value).bind fun _ => valueQualifier_alike use _
  | .paren _ inner, use => by
    exact (resolveExpr_alike inner .value).bind fun _ => valueQualifier_alike use _
  | .classLiteral _ type, use => by
    exact (resolveType_alike type false).bind fun _ => valueQualifier_alike use _
  | .lambdaExpr range paramsRange params parens body, use => by
    have hvalue := valueQualifier_alike (f := f) use
      (.lambdaExpr range paramsRange params parens body)
    have hinside : Alike f
        (do
          declareLambdaParams params
          let _ ← resolveExpr .value body)
        (do
          declareLambdaParams (params.map (Param.shift f))
          let _ ← resolveExpr .value (body.shift f)) :=
      (declareLambdaParams_alike params).bind fun _ =>
        (resolveExpr_alike body .value).bind fun _ => .pure _
    simp! only [Param.shiftAll_eq] at hvalue ⊢
    exact (inScope_alike _ hinside).bind fun _ => hvalue
  | .lambdaBlock range paramsRange params parens body, use => by
    have hvalue := valueQualifier_alike (f := f) use
      (.lambdaBlock range paramsRange params parens body)
    have hinside : Alike f
        (do
          declareLambdaParams params
          resolveBlock body)
        (do
          declareLambdaParams (params.map (Param.shift f))
          resolveBlock (body.shift f)) :=
      (declareLambdaParams_alike params).bind fun _ => resolveBlock_alike body
    simp! only [Param.shiftAll_eq] at hvalue ⊢
    exact (inScope_alike _ hinside).bind fun _ => hvalue
  | .methodRef _ target name, use => by
    refine (resolveExpr_alike target .qualifier).bind fun _ => ?_
    exact (resolveMethodRef_alike _ name).bind fun _ => valueQualifier_alike use _
  | .switching range selector casesRange cases, use => by
    have hvalue := valueQualifier_alike (f := f) use
      (.switching range selector casesRange cases)
    simp! only [SwitchCase.shiftAll_eq] at hvalue ⊢
    refine (resolveExpr_alike selector .value).bind fun _ => ?_
    refine (checkExhaustive_alike range selector cases).bind fun _ => .get fun b c h => ?_
    rw [h.enumOf?_eq]
    exact (inScope_alike _ (resolveCases_alike cases _)).bind fun _ => hvalue
  | .annotated marker, use => by
    exact (resolveAnnotation_alike marker).bind fun _ => valueQualifier_alike use _
  | .type type, use => by
    simp! only [TypeRef.shift_isArray]
    refine (resolveType_alike type false).bind fun lookup => ?_
    split
    · exact .pure _
    · exact .pure _

end

end JavaAnalysis.Binder

namespace JavaAnalysis

/-! ## Files -/

open Ast

variable {f : Shift}

namespace Binder

theorem ownerName_shift (names : List Ident) :
    ownerName (names.map (Ident.shift f)) = ownerName names := by
  unfold ownerName
  rw [← List.map_dropLast, map_text_shift]

theorem Moved.importTarget_eq {b c : Binder} (h : Moved f b c) (i : ImportDecl) :
    c.importTarget (i.shift f) = b.importTarget i := by
  obtain ⟨_, isStatic, name, onDemand⟩ := i
  simp only [importTarget, ImportDecl.shift, QualifiedName.shift_toDotted,
    QualifiedName.shift_segments, ownerName_shift, h.builtIn?_eq]

theorem declareImports_alike (imports : List ImportDecl) :
    Alike f (declareImports imports) (declareImports (imports.map (ImportDecl.shift f))) := by
  induction imports with
  | nil => exact .pure _
  | cons i is ih =>
    have hsimple : ((i.shift f).name.segments.getLast?).map Ident.text =
        i.name.segments.getLast?.map Ident.text := by
      simp only [ImportDecl.shift, QualifiedName.shift_segments, List.getLast?_map, Option.map_map,
        Function.comp_def, Ident.shift_text]
    have hdotted : (i.shift f).name.toDotted = i.name.toDotted := i.name.shift_toDotted f
    have hstatic : (i.shift f).isStatic = i.isStatic := rfl
    have hdemand : (i.shift f).onDemand = i.onDemand := rfl
    have hrange : (i.shift f).name.range.start = f.start i.name.range.start := rfl
    rw [List.map_cons]
    unfold declareImports
    refine .get fun b c h => ?_
    simp only [h.importTarget_eq, hsimple, hdotted, hstatic, hdemand, hrange, h.imports_eq]
    refine .bind (.set (h.update rfl rfl rfl (by rw [h.same]))) fun _ => ?_
    split
    · exact .ite (fun _ => ih) fun _ => (bind_alike _ _).bind fun _ => ih
    · exact ih

theorem declareTypes_alike (decls : List TypeDecl) :
    Alike f (declareTypes decls) (declareTypes (decls.map (TypeDecl.shift f))) := by
  induction decls with
  | nil => exact .pure _
  | cons decl decls ih => exact (declareType_alike decl none).bind fun _ => ih

theorem declareAllMembers_alike (decls : List TypeDecl) :
    Alike f (declareAllMembers decls) (declareAllMembers (decls.map (TypeDecl.shift f))) := by
  induction decls with
  | nil => exact .pure _
  | cons decl decls ih => exact (declareMembers_alike decl).bind fun _ => ih

theorem resolveTypeBodies_alike (decls : List TypeDecl) :
    Alike f (resolveTypeBodies decls) (resolveTypeBodies (decls.map (TypeDecl.shift f))) := by
  induction decls with
  | nil => exact .pure _
  | cons decl decls ih => exact (resolveTypeBody_alike decl).bind fun _ => ih

theorem resolveUnit_alike (unit : CompilationUnit) :
    Alike f (resolveUnit unit) (resolveUnit (unit.shift f)) := by
  obtain ⟨range, package, imports, types⟩ := unit
  have hrest : Alike f
      (declareImports imports >>= fun _ => declareTypes types >>= fun _ =>
        declareAllMembers types >>= fun _ => resolveTypeBodies types)
      (declareImports (imports.map (ImportDecl.shift f)) >>= fun _ =>
        declareTypes (types.map (TypeDecl.shift f)) >>= fun _ =>
        declareAllMembers (types.map (TypeDecl.shift f)) >>= fun _ =>
        resolveTypeBodies (types.map (TypeDecl.shift f))) :=
    (declareImports_alike imports).bind fun _ => (declareTypes_alike types).bind fun _ =>
      (declareAllMembers_alike types).bind fun _ => resolveTypeBodies_alike types
  cases package with
  | none => exact hrest
  | some package =>
    have huses := resolveAnnotations_alike (f := f) package.annotations
    rw [← AnnotationUse.shiftAll_eq] at huses
    exact huses.bind fun _ => hrest

end Binder

/-- What the names of two files are bound to, the places of the first going to those of the second. -/
structure Resolution.Corresponds (f : Shift) (r s : Resolution) : Prop where
  bindings_eq : s.bindings = r.bindings
  problems_eq : s.problems = r.problems.map (Problem.shift f)
  used_eq : s.used = r.used
  importsUsed_eq : s.importsUsed = r.importsUsed
  bound : ∀ o id, s.boundAt? o = some id ↔ ∃ o₀, f.start o₀ = o ∧ r.boundAt? o₀ = some id

/-- What the names of a file are bound to where it was moved to, with nothing changing its order. -/
structure Resolution.Moved (f : Shift) (r s : Resolution) : Prop extends Corresponds f r s where
  ascending : StrictMono f.start

namespace Resolution

theorem Moved.boundAt?_eq {r s : Resolution} (h : Moved f r s) (o : Nat) :
    s.boundAt? (f.start o) = r.boundAt? o := by
  ext id
  rw [h.bound]
  constructor
  · rintro ⟨o₀, heq, hbound⟩
    rwa [← h.ascending.injective heq]
  · exact fun hbound => ⟨o, rfl, hbound⟩

/-- The names of a file that was moved are bound as before. -/
theorem moved_ofUnit (hf : StrictMono f.start) (unit : CompilationUnit) :
    Moved f (ofUnit unit) (ofUnit (unit.shift f)) := by
  have hpackage : (unit.shift f).package.map (fun p => p.name.toDotted) =
      unit.package.map fun p => p.name.toDotted := by
    simp only [CompilationUnit.shift, Option.map_map, Function.comp_def, PackageDecl.shift,
      QualifiedName.shift_toDotted]
  have hstart : Binder.Moved f (.start (unit.package.map fun p => p.name.toDotted))
      (.start ((unit.shift f).package.map fun p => p.name.toDotted)) :=
    ⟨hf, by rw [hpackage]; rfl, fun o id => by simp [Binder.boundAt?_start]⟩
  obtain ⟨-, h⟩ := Binder.resolveUnit_alike unit _ _ hstart
  refine ⟨⟨h.bindings_eq, ?_, h.used_eq, ?_, h.bound⟩, hf⟩
  · show List.reverse _ = List.map _ (List.reverse _)
    rw [List.map_reverse]
    exact congrArg List.reverse h.problems_eq
  · exact congrArg (List.map ImportEntry.used) h.imports_eq

end Resolution

end JavaAnalysis
