import JavaAnalysis.Proofs.Sites.Ast

/-!
# The sites of shapes

The shapes of a file have just the sites of the file. Main statement:
`CompilationUnit.sites_shapes`.
-/

set_option autoImplicit false
set_option linter.dupNamespace false

namespace JavaAnalysis.Ast

/-! ## Lists -/

theorem sites_listShapes (kind : NodeKind) (range : Option TextRange) (items : List Shape) :
    shapeSites (listShapes kind range items) =
      shapeSites items ++ if kind.isAngled then angled kind range else [] := by
  cases range with
  | none => simp [listShapes, angled]
  | some r => simp [listShapes, angled, angledSites]

@[simp]
theorem sites_typeParameters (range : Option TextRange) (items : List Shape) :
    shapeSites (listShapes .typeParameters range items) =
      shapeSites items ++ angled .typeParameters range :=
  sites_listShapes .typeParameters range items

@[simp]
theorem sites_typeArguments (range : Option TextRange) (items : List Shape) :
    shapeSites (listShapes .typeArguments range items) =
      shapeSites items ++ angled .typeArguments range :=
  sites_listShapes .typeArguments range items

/-- Other lists are not in angle brackets. -/
theorem sites_plainList {kind : NodeKind} (hkind : kind.isAngled = false)
    (range : Option TextRange) (items : List Shape) :
    shapeSites (listShapes kind range items) = shapeSites items := by
  rw [sites_listShapes, hkind]
  exact List.append_nil _

@[simp]
theorem sites_parameterList (range : Option TextRange) (items : List Shape) :
    shapeSites (listShapes .parameterList range items) = shapeSites items :=
  sites_plainList rfl range items

@[simp]
theorem sites_arguments (range : Option TextRange) (items : List Shape) :
    shapeSites (listShapes .arguments range items) = shapeSites items :=
  sites_plainList rfl range items

@[simp]
theorem sites_modifierShapes (ms : List Modifier) (markers : List Shape) :
    shapeSites (modifierShapes ms markers) = shapeSites markers :=
  sites_plainList rfl _ markers

@[simp]
theorem sites_clauseShapes (kind : ClauseKind) (word : TokenKind) (ts : List TypeRef) :
    shapeSites (clauseShapes kind word ts) = shapeSites (TypeRef.shapes ts) := by
  cases ts with
  | nil => simp [clauseShapes, TypeRef.shapes]
  | cons t ts => simp [clauseShapes, Shape.sites, List.getLast?_cons]

theorem sites_exprListShapes {kind : NodeKind} (hkind : kind.isAngled = false) (es : List Expr) :
    shapeSites (exprListShapes kind es (Expr.shapes es)) = shapeSites (Expr.shapes es) := by
  cases es with
  | nil => simp! [exprListShapes]
  | cons e es => simp [exprListShapes, List.getLast?_cons, hkind]

@[simp]
theorem sites_bracketShapes (brackets : List TextRange) :
    shapeSites (bracketShapes brackets) = [] := by
  induction brackets with
  | nil => rfl
  | cons b bs ih =>
    have hcons : bracketShapes (b :: bs) = .leaf .arrayDimension b :: bracketShapes bs := rfl
    simp [hcons, ih]

/-! ## Names and types -/

theorem angledSites_typeArguments (range : TextRange) :
    angledSites .typeArguments range = [.enclosing .typeArguments range] := rfl

theorem sites_selectShape {start : Nat} {use : Option Nat} {selected : Shape}
    (hselected : selected.sites = []) {names : List Ident} {last : Ident}
    (hlast : names.getLast? = some last) :
    (selectShape start use selected names).sites =
      (use.map (Site.reference last.range)).toList := by
  induction names generalizing selected with
  | nil => cases hlast
  | cons name names ih =>
    cases names with
    | nil =>
      cases hlast
      simp [selectShape, hselected, Shape.sites]
    | cons next names =>
      rw [List.getLast?_cons_cons] at hlast
      simp only [selectShape]
      exact ih (by simp [hselected]) hlast

theorem QualifiedName.sites_shape (name : QualifiedName) (isUse : Bool) :
    (name.shape isUse).sites = if isUse then name.sites else [] := by
  obtain ⟨range, segments⟩ := name
  match segments with
  | [] => cases isUse <;> simp [shape, sites, Shape.sites]
  | [first] => cases isUse <;> simp [shape, sites, Shape.sites]
  | first :: second :: rest =>
    obtain ⟨last, hlast⟩ : ∃ last, (second :: rest).getLast? = some last :=
      Option.isSome_iff_exists.1 (List.getLast?_isSome.2 (List.cons_ne_nil _ _))
    simp only [shape, sites, sites_selectShape (sites_name first) hlast, List.getLast?_cons_cons,
      hlast]
    cases isUse <;> simp

mutual

theorem TypeRef.sites_shape : ∀ t : TypeRef, t.shape.sites = t.sites
  | .primitive _ _ => by simp [TypeRef.shape, TypeRef.sites]
  | .inferred _ => by simp [TypeRef.shape, TypeRef.sites]
  | .named _ none name none args => by
    simp [TypeRef.shape, TypeRef.sites, angled, TypeRef.sites_shapes args]
  | .named _ none name (some r) args => by
    simp [TypeRef.shape, TypeRef.sites, angled, angledSites_typeArguments, TypeRef.sites_shapes args]
  | .named _ (some q) name none args => by
    simp [TypeRef.shape, TypeRef.sites, angled, q.sites_shape, TypeRef.sites_shapes args]
  | .named _ (some q) name (some r) args => by
    simp [TypeRef.shape, TypeRef.sites, angled, angledSites_typeArguments, q.sites_shape,
      TypeRef.sites_shapes args]
  | .array _ element _ => by simp [TypeRef.shape, TypeRef.sites, element.sites_shape]
  | .wildcard _ => by simp [TypeRef.shape, TypeRef.sites]
  | .bounded _ _ bound => by simp [TypeRef.shape, TypeRef.sites, bound.sites_shape]
  | .union _ ts => by simp [TypeRef.shape, TypeRef.sites, TypeRef.sites_shapes ts]
  | .intersection _ ts => by simp [TypeRef.shape, TypeRef.sites, TypeRef.sites_shapes ts]

theorem TypeRef.sites_shapes : ∀ ts : List TypeRef, shapeSites (TypeRef.shapes ts) = typeSites ts
  | [] => by simp [TypeRef.shapes, typeSites]
  | t :: ts => by simp [TypeRef.shapes, typeSites, t.sites_shape, TypeRef.sites_shapes ts]

end

/-- The sites of a node that declares a name. -/
@[simp]
theorem sites_declaring {kind : NodeKind} (hkind : kind.isAngled = false) (range : TextRange)
    (offset : Nat) : (NodeSpec.declaring kind range offset).sites =
      [.declaration kind range offset] := by
  simp [NodeSpec.declaring, NodeSpec.plain, NodeSpec.sites, hkind]

/-- Only in front of a pattern does the outline pass anything over. -/
theorem sites_typedShape {kind : NodeKind} (hpattern : kind ≠ .pattern)
    (hkind : kind.isAngled = false) (range : TextRange) (offset : Nat) (before : List Shape)
    (type : Option TypeRef) (ellipsis : Option TextRange) (after : List Shape) :
    (typedShape (.declaring kind range offset) before type ellipsis after).sites =
      shapeSites before ++ typeSites type.toList ++ shapeSites after ++
        [.declaration kind range offset] := by
  have hleading : leadingSites (NodeSpec.declaring kind range offset).kind (shapeSites before) =
      shapeSites before := if_neg hpattern
  cases type with
  | none => simp [typedShape, Shape.sites, typeSites, hkind]
  | some t =>
    simp [typedShape, Shape.sites, typeSites, hkind, hleading,
      TypeRef.sites_shape]

/-! ## Declarations, statements and expressions -/

mutual

theorem AnnotationUse.sites_shape : ∀ use : AnnotationUse, use.shape.sites = use.sites
  | .mk _ name _ args => by
    simp! [name.sites_shape, sites_elementShapes args]

theorem sites_elementShapes :
    ∀ args : List ElementValue, shapeSites (elementShapes args) = elementSites args
  | [] => by simp!
  | .mk _ (some _) value :: args => by
    simp! [value.sites_shape, sites_elementShapes args]
  | .mk _ none value :: args => by
    simp! [value.sites_shape, sites_elementShapes args]

theorem AnnotationUse.sites_shapes :
    ∀ uses : List AnnotationUse, shapeSites (AnnotationUse.shapes uses) = annotationSites uses
  | [] => by simp!
  | use :: uses => by
    simp! [use.sites_shape, AnnotationUse.sites_shapes uses]

theorem sites_markerShapes : ∀ ms : List Modifier, shapeSites (markerShapes ms) = modifierSites ms
  | [] => by simp!
  | .word _ _ :: ms => by simp! [sites_markerShapes ms]
  | .annotated use :: ms => by
    simp! [use.sites_shape, sites_markerShapes ms]

theorem TypeDecl.sites_shape : ∀ decl : TypeDecl, decl.shape.sites = decl.sites
  | .mk range kind ms name _ typeParams _ components supers interfaces permitted
      (.mk _ constants members) => by
    have hspec : ∀ gaps, NodeSpec.sites ⟨kind.node, range, none, gaps, some name.range.start⟩ =
        [.declaration kind.node range name.range.start] := by
      intro gaps
      cases kind <;> rfl
    simp! [Shape.sites, hspec, sites_markerShapes ms, sites_typeParamShapes typeParams,
      Param.sites_shapes components, TypeRef.sites_shapes, sites_constantShapes constants,
      Member.sites_shapes members]

theorem sites_anonymousShapes :
    ∀ body : Option ClassBody, shapeSites (anonymousShapes body) = anonymousSites body
  | none => by simp!
  | some (.mk _ constants members) => by
    simp! [Shape.sites, NodeSpec.sites, sites_constantShapes constants, Member.sites_shapes members]

theorem sites_constantShapes :
    ∀ constants : List EnumConstant, shapeSites (constantShapes constants) = constantSites constants
  | [] => by simp!
  | .mk _ ms name _ args body :: constants => by
    simp! [Shape.sites, sites_markerShapes ms, Expr.sites_shapes args, sites_anonymousShapes body,
      sites_constantShapes constants]

theorem Member.sites_shapes :
    ∀ members : List Member, shapeSites (Member.shapes members) = memberSites members
  | [] => by simp!
  | .field decl :: members => by
    simp! [decl.sites_shape, Member.sites_shapes members]
  | .method decl :: members => by
    simp! [decl.sites_shape, Member.sites_shapes members]
  | .type decl :: members => by
    simp! [decl.sites_shape, Member.sites_shapes members]
  | .initializer _ true body :: members => by
    simp! [body.sites_shape, Member.sites_shapes members]
  | .initializer _ false body :: members => by
    simp! [body.sites_shape, Member.sites_shapes members]

theorem MethodDecl.sites_shape : ∀ decl : MethodDecl, decl.shape.sites = decl.sites
  | .mk _ ms _ typeParams none _ _ params _ thrown defaultValue body => by
    simp! [sites_typedShape, typeSites, sites_markerShapes ms, sites_typeParamShapes typeParams,
      Param.sites_shapes params, TypeRef.sites_shapes, sites_optionalShapes defaultValue,
      sites_blockShapes body]
  | .mk range ms _ typeParams (some _) name _ params _ thrown defaultValue body => by
    have hleading : ∀ before : List Site,
        leadingSites (NodeSpec.declaring .method range name.range.start).kind before = before :=
      fun _ => rfl
    simp! [hleading, TypeRef.sites_shape, sites_markerShapes ms, sites_typeParamShapes typeParams,
      Param.sites_shapes params, TypeRef.sites_shapes, sites_optionalShapes defaultValue,
      sites_blockShapes body]

theorem sites_typeParamShapes :
    ∀ params : List TypeParam, shapeSites (typeParamShapes params) = typeParamSites params
  | [] => by simp!
  | .mk _ marks name bounds :: params => by
    simp! [Shape.sites, AnnotationUse.sites_shapes marks, TypeRef.sites_shapes,
      sites_typeParamShapes params]

theorem Param.sites_shapes : ∀ ps : List Param, shapeSites (Param.shapes ps) = paramSites ps
  | [] => by simp!
  | p :: ps => by simp! [p.sites_shape, Param.sites_shapes ps]

theorem Param.sites_shape : ∀ p : Param, p.shape.sites = p.sites
  | .mk _ ms type _ name _ => by
    simp! [sites_typedShape, sites_markerShapes ms]

theorem VarDecl.sites_shape : ∀ decl : VarDecl, decl.shape.sites = decl.sites
  | .mk _ ms _ [] => by
    simp! [Shape.sites, sites_markerShapes ms, TypeRef.sites_shape]
  | .mk _ ms type (fragment :: fragments) => by
    have hne : (fragmentShapes (fragment :: fragments)).isEmpty = false := by
      cases fragment
      simp!
    simp! [Shape.sites, hne, sites_markerShapes ms, TypeRef.sites_shape,
      sites_fragmentShapes (fragment :: fragments)]

theorem sites_fragmentShapes : ∀ (fragments : List VarFragment) (terminated : Bool) (start : Nat),
    variableSites terminated start (fragmentShapes fragments) =
      fragmentSites terminated start fragments
  | [], _, _ => by simp! [variableSites]
  | [.mk _ _ _ init], _, _ => by
    simp! [variableSites, sites_optionalShapes init]
  | .mk _ _ _ init :: .mk r n b i :: fragments, _, _ => by
    have hothers := sites_fragmentShapes (.mk r n b i :: fragments)
    simp! only at hothers
    simp! only [variableSites, sites_optionalShapes init, shapeSites_append, sites_bracketShapes,
      nextStart] at hothers ⊢
    simp only [← hothers]
    simp

theorem Block.sites_shape : ∀ block : Block, block.shape.sites = block.sites
  | .mk _ ss => by simp! [Stmt.sites_shapes ss]

theorem sites_blockShapes : ∀ block : Option Block, shapeSites (blockShapes block) = blockSites block
  | none => by simp!
  | some block => by simp! [block.sites_shape]

theorem Stmt.sites_shapes : ∀ ss : List Stmt, shapeSites (Stmt.shapes ss) = stmtSites ss
  | [] => by simp!
  | s :: ss => by simp! [s.sites_shape, Stmt.sites_shapes ss]

theorem Stmt.sites_shape : ∀ s : Stmt, s.shape.sites = s.sites
  | .localVar decl => by simp! [decl.sites_shape]
  | .block body => by simp! [body.sites_shape]
  | .localType decl => by simp! [decl.sites_shape]
  | .expression _ e => by simp! [e.sites_shape]
  | .ifThen _ cond body => by simp! [cond.sites_shape, body.sites_shape]
  | .ifThenElse _ cond body alternative => by
    simp! [cond.sites_shape, body.sites_shape, alternative.sites_shape]
  | .whileLoop _ cond body => by simp! [cond.sites_shape, body.sites_shape]
  | .doLoop _ body cond => by simp! [body.sites_shape, cond.sites_shape]
  | .forLoop _ init cond update body => by
    simp! [sites_forInitShapes init, sites_optionalShapes cond, sites_exprListShapes,
      Expr.sites_shapes update, body.sites_shape]
  | .forEach _ var iterable body => by
    simp! [var.sites_shape, iterable.sites_shape, body.sites_shape]
  | .returning _ e => by simp! [sites_optionalShapes e]
  | .breaking _ _ => by simp! [Shape.sites]
  | .continuing _ _ => by simp! [Shape.sites]
  | .yielding _ e => by simp! [e.sites_shape]
  | .labeled _ _ body => by simp! [Shape.sites, body.sites_shape]
  | .throwing _ e => by simp! [e.sites_shape]
  | .trying _ _ resources body catches final => by
    simp! [sites_plainList, sites_resourceShapes resources, body.sites_shape,
      sites_catchShapes catches, sites_blockShapes final]
  | .switching _ selector _ cases => by
    simp! [selector.sites_shape, sites_caseShapes cases]
  | .synchronizing _ lock body => by
    simp! [lock.sites_shape, body.sites_shape]
  | .asserting _ cond message => by
    simp! [cond.sites_shape, sites_optionalShapes message]
  | .empty _ => by simp!

theorem sites_forInitShapes : ∀ init : ForInit, shapeSites (forInitShapes init) = forInitSites init
  | .absent => by simp!
  | .decl decl => by simp! [decl.sites_shape]
  | .exprs es => by simp! [sites_exprListShapes, Expr.sites_shapes es]

theorem sites_resourceShapes :
    ∀ rs : List Resource, shapeSites (resourceShapes rs) = resourceSites rs
  | [] => by simp!
  | .decl decl :: rs => by
    simp! [decl.sites_shape, sites_resourceShapes rs]
  | .expr e :: rs => by simp! [e.sites_shape, sites_resourceShapes rs]

theorem sites_catchShapes :
    ∀ catches : List CatchClause, shapeSites (catchShapes catches) = catchSites catches
  | [] => by simp!
  | .mk _ param body :: catches => by
    simp! [param.sites_shape, body.sites_shape, sites_catchShapes catches]

theorem sites_caseShapes :
    ∀ cases : List SwitchCase, shapeSites (caseShapes cases) = caseSites cases
  | [] => by simp!
  | .mk _ labels _ body :: cases => by
    simp! [sites_labelShapes labels, Stmt.sites_shapes body, sites_caseShapes cases]

theorem sites_labelShapes :
    ∀ labels : List CaseLabel, shapeSites (labelShapes labels) = labelSites labels
  | [] => by simp!
  | .default _ :: labels => by simp! [sites_labelShapes labels]
  | .values _ values :: labels => by
    simp! [Expr.sites_shapes values, sites_labelShapes labels]
  | .pattern _ pattern guard :: labels => by
    simp! [pattern.sites_shape, sites_optionalShapes guard, sites_labelShapes labels]

theorem Pattern.sites_shape : ∀ pattern : Pattern, pattern.shape.sites = pattern.sites
  | .mk _ ms type _ => by
    have hleading : leadingSites .pattern (modifierSites ms) = (modifierSites ms).map .hide := rfl
    simp! [Shape.sites, NodeSpec.declaring, NodeSpec.plain, NodeSpec.sites, hleading,
      sites_markerShapes ms, TypeRef.sites_shape]

theorem Expr.sites_shapes : ∀ es : List Expr, shapeSites (Expr.shapes es) = exprSites es
  | [] => by simp!
  | e :: es => by simp! [e.sites_shape, Expr.sites_shapes es]

theorem sites_optionalShapes : ∀ e : Option Expr, shapeSites (optionalShapes e) = optionalSites e
  | none => by simp!
  | some e => by simp! [e.sites_shape]

theorem sites_dimShapes : ∀ dims : List DimExpr, shapeSites (dimShapes dims) = dimSites dims
  | [] => by simp!
  | .mk _ size :: dims => by
    simp! [sites_optionalShapes size, sites_dimShapes dims]

theorem Expr.sites_shape : ∀ e : Expr, e.shape.sites = e.sites
  | .literal _ _ => by simp!
  | .name _ => by simp!
  | .this _ => by simp!
  | .super _ => by simp!
  | .fieldAccess _ target _ => by simp! [target.sites_shape]
  | .methodCall _ none _ _ _ _ args => by
    simp! [typeArgsShapes, TypeRef.sites_shapes, Expr.sites_shapes args]
  | .methodCall _ (some target) _ _ _ _ args => by
    simp! [typeArgsShapes, target.sites_shape, TypeRef.sites_shapes, Expr.sites_shapes args]
  | .newObject _ outer _ _ args body => by
    simp! [sites_optionalShapes outer, TypeRef.sites_shape, Expr.sites_shapes args,
      sites_anonymousShapes body]
  | .newArray _ _ dims _ init => by
    simp! [sites_plainList, TypeRef.sites_shape, sites_dimShapes dims, Expr.sites_shapes init]
  | .arrayInit _ items => by simp! [Expr.sites_shapes items]
  | .arrayAccess _ array index => by
    simp! [array.sites_shape, index.sites_shape]
  | .unary _ op operand => by
    by_cases hop : op.isPostfix <;> simp! [hop, operand.sites_shape]
  | .binary _ _ lhs rhs => by simp! [lhs.sites_shape, rhs.sites_shape]
  | .assign _ _ target value => by
    simp! [target.sites_shape, value.sites_shape]
  | .conditional _ cond yes no => by
    simp! [cond.sites_shape, yes.sites_shape, no.sites_shape]
  | .instanceOf _ operand _ => by
    simp! [operand.sites_shape, TypeRef.sites_shape]
  | .instanceOfPattern _ operand pattern => by
    simp! [operand.sites_shape, pattern.sites_shape]
  | .cast _ _ operand => by simp! [operand.sites_shape, TypeRef.sites_shape]
  | .paren _ inner => by simp! [inner.sites_shape]
  | .classLiteral _ _ => by simp! [TypeRef.sites_shape]
  | .lambdaExpr _ _ params _ body => by
    simp! [Shape.sites, Param.sites_shapes params, body.sites_shape]
  | .lambdaBlock _ _ params _ body => by
    simp! [Shape.sites, Param.sites_shapes params, body.sites_shape]
  | .methodRef _ target none => by simp! [target.sites_shape]
  | .methodRef _ target (some _) => by simp! [target.sites_shape]
  | .switching _ selector _ cases => by
    simp! [selector.sites_shape, sites_caseShapes cases]
  | .annotated use => by simp! [use.sites_shape]
  | .type _ => by simp! [TypeRef.sites_shape]

end

/-- The shapes of a file have just its sites. -/
theorem CompilationUnit.sites_shapes (unit : CompilationUnit) :
    shapeSites unit.shapes = unit.sites := by
  have himports : ∀ is : List ImportDecl,
      shapeSites (is.map ImportDecl.shape) = is.flatMap ImportDecl.sites := by
    intro is
    induction is with
    | nil => rfl
    | cons i is ih =>
      simp [ih, ImportDecl.shape, ImportDecl.sites, QualifiedName.sites_shape]
      cases i.isStatic <;> rfl
  have htypes : ∀ decls : List TypeDecl,
      shapeSites (decls.map TypeDecl.shape) = declSites decls := by
    intro decls
    induction decls with
    | nil => rfl
    | cons decl decls ih => simp [ih, declSites, decl.sites_shape]
  obtain ⟨range, package, imports, types⟩ := unit
  cases package with
  | none => simp [CompilationUnit.shapes, CompilationUnit.sites, himports, htypes]
  | some p =>
    simp [CompilationUnit.shapes, CompilationUnit.sites, himports, htypes, PackageDecl.shape,
      PackageDecl.sites, AnnotationUse.sites_shapes, QualifiedName.sites_shape]

end JavaAnalysis.Ast
