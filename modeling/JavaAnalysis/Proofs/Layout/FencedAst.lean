import JavaAnalysis.Proofs.Layout.Fences

/-!
# Bodies in abstract syntax

What the parts of a file become is fenced: in front of the members of a type stand no members, the
parameters of a lambda are no body, and a label stands in front of a statement. By induction over
the syntax. Main statement: `CompilationUnit.fenced`.
-/

set_option autoImplicit false
set_option linter.dupNamespace false

namespace JavaAnalysis

namespace Ast

attribute [local simp] Shape.plain Shape.leaf Shape.headed Shape.name Shape.nameUse NodeSpec.plain
  NodeSpec.headed NodeSpec.declaring

theorem whole_selectShape {start : Nat} {use : Option Nat} (names : List Ident) {selected : Shape}
    (h : selected.Whole) : (selectShape start use selected names).Whole := by
  induction names generalizing selected with
  | nil => exact h
  | cons name names ih =>
    cases names with
    | nil => simp +decide [selectShape, h]
    | cons _ _ => exact ih (by simp +decide [h])

@[simp]
theorem QualifiedName.whole_shape (name : QualifiedName) (isUse : Bool) :
    (name.shape isUse).Whole := by
  unfold QualifiedName.shape
  dsimp only
  split
  · exact whole_ident _ _
  · exact whole_ident _ _
  · exact whole_selectShape _ (whole_ident _ _)

mutual

theorem TypeRef.whole_shape : ∀ type : TypeRef, type.shape.Whole
  | .primitive _ _ => by simp +decide [TypeRef.shape]
  | .inferred _ => by simp +decide [TypeRef.shape]
  | .named _ none _ none args => by simp +decide [TypeRef.shape, TypeRef.whole_shapes args]
  | .named _ none _ (some _) args => by simp +decide [TypeRef.shape, TypeRef.whole_shapes args]
  | .named _ (some q) _ none args => by
    simp +decide [TypeRef.shape, q.whole_shape, TypeRef.whole_shapes args]
  | .named _ (some q) _ (some _) args => by
    simp +decide [TypeRef.shape, q.whole_shape, TypeRef.whole_shapes args]
  | .array _ element _ => by simp +decide [TypeRef.shape, element.whole_shape]
  | .wildcard _ => by simp +decide [TypeRef.shape]
  | .bounded _ _ bound => by simp +decide [TypeRef.shape, bound.whole_shape]
  | .union _ alternatives => by simp +decide [TypeRef.shape, TypeRef.whole_shapes alternatives]
  | .intersection _ bounds => by simp +decide [TypeRef.shape, TypeRef.whole_shapes bounds]

theorem TypeRef.whole_shapes : ∀ types : List TypeRef, AllWhole (TypeRef.shapes types)
  | [] => by simp +decide [TypeRef.shapes]
  | t :: ts => by simp +decide [TypeRef.shapes, t.whole_shape, TypeRef.whole_shapes ts]

end

@[simp]
theorem allWhole_listShapes {kind : NodeKind} (hkind : kind.isOrdinary = true)
    (range : Option TextRange) {items : List Shape} (h : AllWhole items) :
    AllWhole (listShapes kind range items) := by
  cases range <;> simp [listShapes, hkind, h]

@[simp]
theorem allWhole_modifierShapes (ms : List Modifier) {markers : List Shape}
    (h : AllWhole markers) : AllWhole (modifierShapes ms markers) :=
  allWhole_listShapes rfl _ h

@[simp]
theorem allWhole_typeArgsShapes (range : Option TextRange) (args : List TypeRef) :
    AllWhole (typeArgsShapes range args) :=
  allWhole_listShapes rfl range (TypeRef.whole_shapes args)

@[simp]
theorem allWhole_clauseShapes (kind : ClauseKind) (word : TokenKind) (ts : List TypeRef) :
    AllWhole (clauseShapes kind word ts) := by
  unfold clauseShapes
  split
  · simp [TypeRef.whole_shapes]
  · exact allWhole_nil

@[simp]
theorem allWhole_bracketShapes (brackets : List TextRange) : AllWhole (bracketShapes brackets) := by
  induction brackets with
  | nil => exact allWhole_nil
  | cons b bs ih =>
    rw [bracketShapes, List.map_cons, allWhole_cons]
    exact ⟨by simp +decide, ih⟩

@[simp]
theorem allWhole_exprListShapes {kind : NodeKind} (hkind : kind.isOrdinary = true) (es : List Expr)
    {items : List Shape} (h : AllWhole items) : AllWhole (exprListShapes kind es items) := by
  unfold exprListShapes
  split
  · simp [hkind, h]
  · exact allWhole_nil

@[simp]
theorem whole_typedShape {spec : NodeSpec} (hkind : spec.kind.isOrdinary = true)
    {before after : List Shape} (hbefore : AllWhole before) (type : Option TypeRef)
    (ellipsis : Option TextRange) (hafter : AllWhole after) :
    (typedShape spec before type ellipsis after).Whole := by
  cases type with
  | none => simp [typedShape, hkind, hbefore, hafter]
  | some t => simp [typedShape, hkind, hbefore, hafter, t.whole_shape]

/-! ### Kinds of nodes -/

section

attribute [local simp] Shape.kinds

theorem kinds_typedShape (spec : NodeSpec) (before : List Shape) (type : Option TypeRef)
    (ellipsis : Option TextRange) (after : List Shape) :
    (typedShape spec before type ellipsis after).kinds = [spec.kind] := by
  cases type <;> simp [typedShape]

theorem kindsOf_listShapes {kind : NodeKind} (hkind : (MemberView.ofKind? kind).isSome = false)
    (range : Option TextRange) {items : List Shape}
    (h : ∀ k ∈ kindsOf items, (MemberView.ofKind? k).isSome = false) :
    ∀ k ∈ kindsOf (listShapes kind range items), (MemberView.ofKind? k).isSome = false := by
  cases range with
  | none => exact h
  | some r => simpa [listShapes, kindsOf] using hkind

theorem AnnotationUse.kinds_shape (use : AnnotationUse) : use.shape.kinds = [.annotationUse] := by
  cases use
  simp!

theorem TypeDecl.kinds_shape (decl : TypeDecl) : ∃ kind : TypeDeclKind,
    decl.shape.kinds = [kind.node] := by
  obtain ⟨_, kind, _, _, _, _, _, _, _, _, _, ⟨_, _, _⟩⟩ := decl
  exact ⟨kind, by simp!⟩

/-- What stands in front of the body of a type is no member. -/
theorem kindsOf_markerShapes (ms : List Modifier) :
    ∀ k ∈ kindsOf (markerShapes ms), k = .annotationUse := by
  induction ms with
  | nil => simp! [kindsOf]
  | cons m ms ih =>
    cases m with
    | word => simpa! using ih
    | annotated use => simpa! [kindsOf, use.kinds_shape] using ih

theorem kindsOf_typeParamShapes (params : List TypeParam) :
    ∀ k ∈ kindsOf (typeParamShapes params), k = .typeParameter := by
  induction params with
  | nil => simp! [kindsOf]
  | cons p ps ih =>
    cases p
    simpa! [kindsOf] using ih

theorem kindsOf_paramShapes (params : List Param) :
    ∀ k ∈ kindsOf (Param.shapes params), k = .parameter := by
  induction params with
  | nil => simp! [kindsOf]
  | cons p ps ih =>
    cases p
    simpa! [kinds_typedShape, kindsOf] using ih

theorem kindsOf_clauseShapes (kind : ClauseKind) (word : TokenKind) (ts : List TypeRef) :
    ∀ k ∈ kindsOf (clauseShapes kind word ts), k = kind.node := by
  unfold clauseShapes
  split <;> simp [kindsOf]

/-- What stands in the body of a type becomes a member. -/
theorem kindsOf_constantShapes (constants : List EnumConstant) :
    ∀ k ∈ kindsOf (constantShapes constants), (MemberView.ofKind? k).isSome := by
  induction constants with
  | nil => simp! [kindsOf]
  | cons c cs ih =>
    cases c
    simpa! [kindsOf, MemberView.ofKind?] using ih

theorem kindsOf_memberShapes (members : List Member) :
    ∀ k ∈ kindsOf (Member.shapes members), (MemberView.ofKind? k).isSome := by
  induction members with
  | nil => simp! [kindsOf]
  | cons m ms ih =>
    cases m with
    | field decl =>
      cases decl
      simpa! [kindsOf, MemberView.ofKind?] using ih
    | method decl =>
      obtain ⟨_, _, _, _, returnType, _, _, _, _, _, _, _⟩ := decl
      cases returnType <;>
        simpa! [kinds_typedShape, kindsOf, MemberView.ofKind?] using
          ih
    | initializer _ isStatic _ =>
      cases isStatic <;> simpa! [kindsOf, MemberView.ofKind?] using ih
    | type decl =>
      obtain ⟨kind, hkind⟩ := decl.kinds_shape
      cases kind <;> simpa! [kindsOf, hkind, TypeDeclKind.node, MemberView.ofKind?]
        using ih

theorem kindsOf_append (as bs : List Shape) : kindsOf (as ++ bs) = kindsOf as ++ kindsOf bs := by
  induction as with
  | nil => rfl
  | cons a as ih => simp [kindsOf, ih]

theorem kinds_members (constants : List EnumConstant) (members : List Member) :
    ∀ k ∈ kindsOf (constantShapes constants ++ Member.shapes members),
      (MemberView.ofKind? k).isSome := by
  rw [kindsOf_append, List.forall_mem_append]
  exact ⟨kindsOf_constantShapes constants, kindsOf_memberShapes members⟩

theorem kinds_header (ms : List Modifier) (name : Ident) (typeParamsRange : Option TextRange)
    (typeParams : List TypeParam) (componentsRange : Option TextRange) (components : List Param)
    (supers interfaces permitted : List TypeRef) :
    ∀ k ∈ kindsOf (modifierShapes ms (markerShapes ms) ++ .name name ::
        listShapes .typeParameters typeParamsRange (typeParamShapes typeParams) ++
        listShapes .parameterList componentsRange (Param.shapes components) ++
        clauseShapes .extending .extendsKw supers ++
        clauseShapes .implementing .implementsKw interfaces ++
        clauseShapes .permitting .ident permitted), (MemberView.ofKind? k).isSome = false := by
  simp only [kindsOf_append, kindsOf, List.forall_mem_append]
  refine ⟨⟨⟨⟨⟨?_, ?_, ?_⟩, ?_⟩, ?_⟩, ?_⟩, ?_⟩
  · refine kindsOf_listShapes rfl _ fun k hk => ?_
    rw [kindsOf_markerShapes ms k hk]
    rfl
  · simp [Shape.name, MemberView.ofKind?]
  · refine kindsOf_listShapes rfl _ fun k hk => ?_
    rw [kindsOf_typeParamShapes typeParams k hk]
    rfl
  · refine kindsOf_listShapes rfl _ fun k hk => ?_
    rw [kindsOf_paramShapes components k hk]
    rfl
  all_goals
    intro k hk
    rw [kindsOf_clauseShapes _ _ _ k hk]
    rfl

/-- The body of a lambda is no list of parameters. -/
theorem Expr.kinds_shape (e : Expr) : .parameterList ∉ e.shape.kinds := by
  cases e with
  | unary _ op _ => cases hop : op.isPostfix <;> simp! [hop]
  | methodCall _ target _ _ _ _ _ => cases target <;> simp!
  | annotated use => simp! [use.kinds_shape]
  | type type =>
    cases type with
    | named _ q _ r _ => cases q <;> cases r <;> simp! [TypeRef.shape]
    | _ => simp! [TypeRef.shape]
  | _ => simp!

/-- What a label stands in front of is no identifier. -/
theorem Stmt.kinds_shape (s : Stmt) : .identifier ∉ s.shape.kinds := by
  cases s with
  | localVar decl =>
    cases decl
    simp!
  | block b =>
    cases b
    simp!
  | localType decl =>
    obtain ⟨kind, hkind⟩ := decl.kinds_shape
    cases kind <;> simp! [hkind, TypeDeclKind.node]
  | _ => simp!

end

/-- The header of a type, and its members. -/
theorem TypeDecl.whole_of_header {spec : NodeSpec} {kind : TypeDeclKind}
    {header members : List Shape} (hkind : spec.kind = kind.node) (hheader : AllWhole header)
    (hkinds : ∀ k ∈ kindsOf header, (MemberView.ofKind? k).isSome = false)
    (hmembers : AllWhole members)
    (hmember : ∀ k ∈ kindsOf members, (MemberView.ofKind? k).isSome) :
    (Shape.node spec (header ++ [.body members])).Whole := by
  have hplain : kind.node.isPlain = true := by cases kind <;> rfl
  have hbody : ∀ k : NodeKind, k.isBodyIn kind.node = (MemberView.ofKind? k).isSome := by
    intro k
    cases kind <;> rfl
  refine ⟨rfl, ?_⟩
  simp only [Shape.Fenced, hkind]
  refine ⟨hplain, allFenced_body (allFenced_of_kinds hheader fun k hk => ?_) hmembers
    fun k hk => ?_⟩
  · rw [hbody]
    exact hkinds k hk
  · rw [hbody]
    exact hmember k hk

/-- The body of a lambda, behind its parameters. -/
theorem whole_lambda {range paramsRange : TextRange} {params : List Shape} {body : Shape}
    (hparams : AllWhole params) (hbody : body.Whole) (hkinds : .parameterList ∉ body.kinds) :
    (Shape.plain .lambdaExpression range
      [.plain .parameterList paramsRange params, .body [body]]).Whole := by
  refine ⟨rfl, ?_⟩
  simp only [Shape.plain, NodeSpec.plain, Shape.Fenced]
  have hlist : (Shape.plain .parameterList paramsRange params).Whole := whole_node rfl hparams
  refine ⟨rfl, @allFenced_body .lambdaExpression [_] [body]
    (@allFenced_of_kinds .lambdaExpression [_] (by simpa using hlist) ?_) (by simpa using hbody) ?_⟩
  · simp [kindsOf, Shape.kinds, NodeKind.isBodyIn, TypeView.ofKind?]
  · intro k hk
    have hne : k ≠ .parameterList := by
      rintro rfl
      exact hkinds (by simpa [kindsOf] using hk)
    simp [NodeKind.isBodyIn, hne]

theorem whole_labeled {range : TextRange} {label : Ident} {body : Shape} (hbody : body.Whole)
    (hkinds : .identifier ∉ body.kinds) : (Shape.labeled range label [body]).Whole := by
  have hfenced : AllFenced .labeledStatement [body] :=
    @allFenced_of_kinds .labeledStatement [body] (by simpa using hbody) fun _ _ => rfl
  refine ⟨rfl, ?_⟩
  simpa [Shape.Fenced, kindsOf, hkinds] using hfenced

theorem whole_jump {kind : NodeKind} {range : TextRange} {label : Option Ident}
    (hkind : kind.isJump = true) : (Shape.jump kind range label).Whole := by
  refine ⟨rfl, ?_⟩
  simpa only [Shape.Fenced] using hkind

mutual

theorem AnnotationUse.whole_shape : ∀ use : AnnotationUse, use.shape.Whole
  | .mk _ _ _ args => by
    simp! only
    simp +decide [allWhole_elementShapes args]

theorem allWhole_elementShapes : ∀ args : List ElementValue, AllWhole (elementShapes args)
  | [] => by simp!
  | .mk _ (some _) value :: args => by
    simp! only
    simp +decide [value.whole_shape, allWhole_elementShapes args]
  | .mk _ none value :: args => by simp! [value.whole_shape, allWhole_elementShapes args]

theorem AnnotationUse.allWhole_shapes :
    ∀ uses : List AnnotationUse, AllWhole (AnnotationUse.shapes uses)
  | [] => by simp!
  | use :: uses => by simp! [use.whole_shape, AnnotationUse.allWhole_shapes uses]

theorem allWhole_markerShapes : ∀ ms : List Modifier, AllWhole (markerShapes ms)
  | [] => by simp!
  | .word _ _ :: ms => by simp! [allWhole_markerShapes ms]
  | .annotated use :: ms => by simp! [use.whole_shape, allWhole_markerShapes ms]

theorem TypeDecl.whole_shape : ∀ decl : TypeDecl, decl.shape.Whole
  | .mk range kind ms name typeParamsRange typeParams componentsRange components supers interfaces
      permitted (.mk _ constants members) => by
    simp! only
    refine TypeDecl.whole_of_header rfl ?_ ?_ ?_ fun k hk => ?_
    · simp +decide [allWhole_markerShapes ms, allWhole_typeParamShapes typeParams,
        Param.allWhole_shapes components]
    · exact kinds_header ms name typeParamsRange typeParams componentsRange components supers
        interfaces permitted
    · simp [allWhole_constantShapes constants, Member.allWhole_shapes members]
    · exact kinds_members constants members k hk

theorem allWhole_anonymousShapes : ∀ body : Option ClassBody, AllWhole (anonymousShapes body)
  | none => by simp!
  | some (.mk _ constants members) => by
    simp! only [allWhole_cons, allWhole_nil, and_true]
    refine @TypeDecl.whole_of_header _ .classType [] _ rfl allWhole_nil (List.forall_mem_nil _) ?_
      fun k hk => ?_
    · simp [allWhole_constantShapes constants, Member.allWhole_shapes members]
    · exact kinds_members constants members k hk

theorem allWhole_constantShapes :
    ∀ constants : List EnumConstant, AllWhole (constantShapes constants)
  | [] => by simp!
  | .mk _ ms _ _ args body :: constants => by
    simp! only
    simp +decide [allWhole_markerShapes ms, Expr.allWhole_shapes args,
      allWhole_anonymousShapes body, allWhole_constantShapes constants]

theorem Member.allWhole_shapes : ∀ members : List Member, AllWhole (Member.shapes members)
  | [] => by simp!
  | .field decl :: members => by simp! [decl.whole_shape, Member.allWhole_shapes members]
  | .method decl :: members => by simp! [decl.whole_shape, Member.allWhole_shapes members]
  | .type decl :: members => by simp! [decl.whole_shape, Member.allWhole_shapes members]
  | .initializer _ isStatic body :: members => by
    simp! only
    cases isStatic <;> simp +decide [body.whole_shape, Member.allWhole_shapes members]

theorem MethodDecl.whole_shape : ∀ decl : MethodDecl, decl.shape.Whole
  | .mk _ ms _ typeParams returnType _ _ params _ thrown defaultValue body => by
    simp! only
    refine whole_typedShape (by cases returnType <;> rfl) ?_ _ _ ?_
    · simp +decide [allWhole_markerShapes ms, allWhole_typeParamShapes typeParams]
    · simp +decide [Param.allWhole_shapes params, allWhole_optionalShapes defaultValue,
        allWhole_blockShapes body]

theorem allWhole_typeParamShapes :
    ∀ params : List TypeParam, AllWhole (typeParamShapes params)
  | [] => by simp!
  | .mk _ marks _ bounds :: params => by
    simp! only
    simp +decide [AnnotationUse.allWhole_shapes marks, TypeRef.whole_shapes bounds,
      allWhole_typeParamShapes params]

theorem Param.allWhole_shapes : ∀ ps : List Param, AllWhole (Param.shapes ps)
  | [] => by simp!
  | p :: ps => by simp! [p.whole_shape, Param.allWhole_shapes ps]

theorem Param.whole_shape : ∀ p : Param, p.shape.Whole
  | .mk _ ms _ _ _ _ => by
    simp! only
    simp +decide [allWhole_markerShapes ms]

theorem VarDecl.whole_shape : ∀ decl : VarDecl, decl.shape.Whole
  | .mk _ ms type fragments => by
    simp! [allWhole_markerShapes ms, type.whole_shape, fragmentsFenced fragments]

theorem fragmentsFenced :
    ∀ fragments : List VarFragment, FragmentsFenced (fragmentShapes fragments)
  | [] => by simp! [FragmentsFenced]
  | .mk _ _ _ init :: fragments => by
    simp! only [FragmentsFenced]
    refine ⟨allFenced_of_whole rfl ?_, fragmentsFenced fragments⟩
    simp [allWhole_optionalShapes init]

theorem Block.whole_shape : ∀ block : Block, block.shape.Whole
  | .mk _ ss => by
    simp! only
    simp +decide [Stmt.allWhole_shapes ss]

theorem allWhole_blockShapes : ∀ block : Option Block, AllWhole (blockShapes block)
  | none => by simp!
  | some block => by simp! [block.whole_shape]

theorem Stmt.allWhole_shapes : ∀ ss : List Stmt, AllWhole (Stmt.shapes ss)
  | [] => by simp!
  | s :: ss => by simp! [s.whole_shape, Stmt.allWhole_shapes ss]

theorem Stmt.whole_shape : ∀ s : Stmt, s.shape.Whole
  | .localVar decl => by simp! [decl.whole_shape]
  | .block body => by simp! [body.whole_shape]
  | .localType decl => by simp! [decl.whole_shape]
  | .expression _ e => by
    simp! only
    simp +decide [e.whole_shape]
  | .ifThen _ cond body => by
    simp! only
    simp +decide [cond.whole_shape, body.whole_shape]
  | .ifThenElse _ cond body alternative => by
    simp! only
    simp +decide [cond.whole_shape, body.whole_shape, alternative.whole_shape]
  | .whileLoop _ cond body => by
    simp! only
    simp +decide [cond.whole_shape, body.whole_shape]
  | .doLoop _ body cond => by
    simp! only
    simp +decide [body.whole_shape, cond.whole_shape]
  | .forLoop _ init cond update body => by
    simp! only
    simp +decide [allWhole_forInitShapes init, allWhole_optionalShapes cond,
      Expr.allWhole_shapes update, body.whole_shape]
  | .forEach _ var iterable body => by
    simp! only
    simp +decide [var.whole_shape, iterable.whole_shape, body.whole_shape]
  | .returning _ e => by
    simp! only
    simp +decide [allWhole_optionalShapes e]
  | .breaking _ _ => by simpa! only using whole_jump rfl
  | .continuing _ _ => by simpa! only using whole_jump rfl
  | .yielding _ e => by
    simp! only
    simp +decide [e.whole_shape]
  | .labeled _ _ body => by simpa! only using whole_labeled body.whole_shape body.kinds_shape
  | .throwing _ e => by
    simp! only
    simp +decide [e.whole_shape]
  | .trying _ _ resources body catches final => by
    simp! only
    simp +decide [allWhole_resourceShapes resources, body.whole_shape,
      allWhole_catchShapes catches, allWhole_blockShapes final]
  | .switching _ selector _ cases => by
    simp! only
    simp +decide [selector.whole_shape, allWhole_caseShapes cases]
  | .synchronizing _ lock body => by
    simp! only
    simp +decide [lock.whole_shape, body.whole_shape]
  | .asserting _ cond message => by
    simp! only
    simp +decide [cond.whole_shape, allWhole_optionalShapes message]
  | .empty _ => by
    simp! only
    simp +decide

theorem allWhole_forInitShapes : ∀ init : ForInit, AllWhole (forInitShapes init)
  | .absent => by simp!
  | .decl decl => by
    simp! only
    simp +decide [decl.whole_shape]
  | .exprs es => by
    simp! only
    simp +decide [Expr.allWhole_shapes es]

theorem allWhole_resourceShapes : ∀ rs : List Resource, AllWhole (resourceShapes rs)
  | [] => by simp!
  | .decl decl :: rs => by simp! [decl.whole_shape, allWhole_resourceShapes rs]
  | .expr e :: rs => by simp! [e.whole_shape, allWhole_resourceShapes rs]

theorem allWhole_catchShapes : ∀ catches : List CatchClause, AllWhole (catchShapes catches)
  | [] => by simp!
  | .mk _ param body :: catches => by
    simp! only
    simp +decide [param.whole_shape, body.whole_shape, allWhole_catchShapes catches]

theorem allWhole_caseShapes : ∀ cases : List SwitchCase, AllWhole (caseShapes cases)
  | [] => by simp!
  | .mk _ labels _ body :: cases => by
    simp! only
    simp +decide [allWhole_labelShapes labels, Stmt.allWhole_shapes body,
      allWhole_caseShapes cases]

theorem allWhole_labelShapes : ∀ labels : List CaseLabel, AllWhole (labelShapes labels)
  | [] => by simp!
  | .default _ :: labels => by
    simp! only
    simp +decide [allWhole_labelShapes labels]
  | .values _ values :: labels => by
    simp! only
    simp +decide [Expr.allWhole_shapes values, allWhole_labelShapes labels]
  | .pattern _ pattern guard :: labels => by
    simp! only
    simp +decide [pattern.whole_shape, allWhole_optionalShapes guard, allWhole_labelShapes labels]

theorem Pattern.whole_shape : ∀ pattern : Pattern, pattern.shape.Whole
  | .mk _ ms type _ => by
    simp! only
    simp +decide [allWhole_markerShapes ms, type.whole_shape]

theorem Expr.allWhole_shapes : ∀ es : List Expr, AllWhole (Expr.shapes es)
  | [] => by simp!
  | e :: es => by simp! [e.whole_shape, Expr.allWhole_shapes es]

theorem allWhole_optionalShapes : ∀ e : Option Expr, AllWhole (optionalShapes e)
  | none => by simp!
  | some e => by simp! [e.whole_shape]

theorem allWhole_dimShapes : ∀ dims : List DimExpr, AllWhole (dimShapes dims)
  | [] => by simp!
  | .mk _ size :: dims => by
    simp! only
    simp +decide [allWhole_optionalShapes size, allWhole_dimShapes dims]

theorem Expr.whole_shape : ∀ e : Expr, e.shape.Whole
  | .literal _ _ => by
    simp! only
    simp +decide
  | .name _ => by simp!
  | .this _ => by
    simp! only
    simp +decide
  | .super _ => by
    simp! only
    simp +decide
  | .fieldAccess _ target _ => by
    simp! only
    simp +decide [target.whole_shape]
  | .methodCall _ none _ _ _ _ args => by
    simp! only
    simp +decide [Expr.allWhole_shapes args]
  | .methodCall _ (some target) _ _ _ _ args => by
    simp! only
    simp +decide [target.whole_shape, Expr.allWhole_shapes args]
  | .newObject _ outer type _ args body => by
    simp! only
    simp +decide [allWhole_optionalShapes outer, type.whole_shape, Expr.allWhole_shapes args,
      allWhole_anonymousShapes body]
  | .newArray _ element dims _ init => by
    simp! only
    simp +decide [element.whole_shape, allWhole_dimShapes dims, Expr.allWhole_shapes init]
  | .arrayInit _ items => by
    simp! only
    simp +decide [Expr.allWhole_shapes items]
  | .arrayAccess _ array index => by
    simp! only
    simp +decide [array.whole_shape, index.whole_shape]
  | .unary _ op operand => by
    cases hop : op.isPostfix <;> simp! only <;> simp +decide [hop, operand.whole_shape]
  | .binary _ _ lhs rhs => by
    simp! only
    simp +decide [lhs.whole_shape, rhs.whole_shape]
  | .assign _ _ target value => by
    simp! only
    simp +decide [target.whole_shape, value.whole_shape]
  | .conditional _ cond yes no => by
    simp! only
    simp +decide [cond.whole_shape, yes.whole_shape, no.whole_shape]
  | .instanceOf _ operand type => by
    simp! only
    simp +decide [operand.whole_shape, type.whole_shape]
  | .instanceOfPattern _ operand pattern => by
    simp! only
    simp +decide [operand.whole_shape, pattern.whole_shape]
  | .cast _ type operand => by
    simp! only
    simp +decide [operand.whole_shape, type.whole_shape]
  | .paren _ inner => by
    simp! only
    simp +decide [inner.whole_shape]
  | .classLiteral _ type => by
    simp! only
    simp +decide [type.whole_shape]
  | .lambdaExpr _ _ params _ body => by
    simpa! only using
      whole_lambda (Param.allWhole_shapes params) body.whole_shape body.kinds_shape
  | .lambdaBlock _ _ params _ (.mk r ss) => by
    simpa! only using whole_lambda (Param.allWhole_shapes params)
      (Block.whole_shape (.mk r ss)) (by simp! [Shape.kinds])
  | .methodRef _ target none => by
    simp! only
    simp +decide [target.whole_shape]
  | .methodRef _ target (some _) => by
    simp! only
    simp +decide [target.whole_shape]
  | .switching _ selector _ cases => by
    simp! only
    simp +decide [selector.whole_shape, allWhole_caseShapes cases]
  | .annotated use => by simp! [use.whole_shape]
  | .type type => by simp! [type.whole_shape]

end

/-- In the shapes of a file all bodies are those of lambdas and types. -/
theorem CompilationUnit.fenced (unit : CompilationUnit) :
    AllFenced .compilationUnit unit.shapes := by
  refine allFenced_of_whole rfl ?_
  unfold CompilationUnit.shapes
  rw [allWhole_append, allWhole_append]
  refine ⟨⟨?_, ?_⟩, ?_⟩
  · cases unit.package with
    | none => exact allWhole_nil
    | some p =>
      simp +decide [PackageDecl.shape, AnnotationUse.allWhole_shapes]
  · intro s hs
    obtain ⟨i, -, rfl⟩ := List.mem_map.1 hs
    simp +decide [ImportDecl.shape]
  · intro s hs
    obtain ⟨decl, -, rfl⟩ := List.mem_map.1 hs
    exact decl.whole_shape

end Ast

end JavaAnalysis
