import JavaAnalysis.Proofs.Spacing.Shift

/-!
# Moving syntax twice

Moving a piece of syntax by one shift and then by another is moving it once by what the two do
together.
-/

set_option autoImplicit false

namespace JavaAnalysis

/-- Moving by the first shift and then by the second is moving by the third. -/
structure Shift.Composes (f g k : Shift) : Prop where
  start_start : ∀ n, g.start (f.start n) = k.start n

variable {f g k : Shift}

namespace Shift.Composes

theorem stop_stop (h : f.Composes g k) : ∀ n, g.stop (f.stop n) = k.stop n
  | 0 => rfl
  | n + 1 => congrArg (· + 1) (h.start_start n)

theorem range_range (h : f.Composes g k) (r : TextRange) : g.range (f.range r) = k.range r := by
  simp only [Shift.range, h.start_start, h.stop_stop]

theorem option_map_range (h : f.Composes g k) (o : Option TextRange) :
    (o.map f.range).map g.range = o.map k.range := by
  rw [Option.map_map]
  exact congrArg (Option.map · o) (funext h.range_range)

theorem list_map_range (h : f.Composes g k) (rs : List TextRange) :
    (rs.map f.range).map g.range = rs.map k.range := by
  rw [List.map_map]
  exact congrArg (List.map · rs) (funext h.range_range)

end Shift.Composes

namespace Ast

theorem Ident.shift_shift (h : f.Composes g k) (n : Ident) :
    (n.shift f).shift g = n.shift k := by
  simp only [Ident.shift, h.range_range]

theorem Ident.option_map_shift (h : f.Composes g k) (o : Option Ident) :
    (o.map (Ident.shift f)).map (Ident.shift g) = o.map (Ident.shift k) := by
  rw [Option.map_map]
  exact congrArg (Option.map · o) (funext (Ident.shift_shift h))

theorem QualifiedName.shift_shift (h : f.Composes g k) (n : QualifiedName) :
    (n.shift f).shift g = n.shift k := by
  have hsegment : Ident.shift g ∘ Ident.shift f = Ident.shift k := funext (Ident.shift_shift h)
  simp only [QualifiedName.shift, h.range_range, List.map_map, hsegment]

mutual

theorem TypeRef.shift_shift (h : f.Composes g k) :
    ∀ x : TypeRef, (x.shift f).shift g = x.shift k
  | .primitive r kind => by simp only [TypeRef.shift, h.range_range]
  | .inferred r => by simp only [TypeRef.shift, h.range_range]
  | .named r qualifier name argsRange args => by
    simp only [TypeRef.shift, h.range_range, h.option_map_range,
      TypeRef.shiftOption_shiftOption h qualifier, name.shift_shift h,
      TypeRef.shiftAll_shiftAll h args]
  | .array r element brackets => by simp only [TypeRef.shift, h.range_range, element.shift_shift h]
  | .wildcard r => by simp only [TypeRef.shift, h.range_range]
  | .bounded r kind bound => by simp only [TypeRef.shift, h.range_range, bound.shift_shift h]
  | .union r alternatives => by
    simp only [TypeRef.shift, h.range_range, TypeRef.shiftAll_shiftAll h alternatives]
  | .intersection r bounds => by
    simp only [TypeRef.shift, h.range_range, TypeRef.shiftAll_shiftAll h bounds]

theorem TypeRef.shiftOption_shiftOption (h : f.Composes g k) :
    ∀ o : Option TypeRef, TypeRef.shiftOption g (TypeRef.shiftOption f o) = TypeRef.shiftOption k o
  | none => rfl
  | some t => by simp only [TypeRef.shiftOption, t.shift_shift h]

theorem TypeRef.shiftAll_shiftAll (h : f.Composes g k) :
    ∀ xs : List TypeRef, TypeRef.shiftAll g (TypeRef.shiftAll f xs) = TypeRef.shiftAll k xs
  | [] => rfl
  | t :: ts => by simp only [TypeRef.shiftAll, t.shift_shift h, TypeRef.shiftAll_shiftAll h ts]

end

mutual

theorem AnnotationUse.shift_shift (h : f.Composes g k) :
    ∀ x : AnnotationUse, (x.shift f).shift g = x.shift k
  | .mk r name argsRange args => by
    simp! only [h.range_range, h.option_map_range, name.shift_shift h,
      ElementValue.shiftAll_shiftAll h args]

theorem AnnotationUse.shiftAll_shiftAll (h : f.Composes g k) :
    ∀ xs : List AnnotationUse,
      AnnotationUse.shiftAll g (AnnotationUse.shiftAll f xs) = AnnotationUse.shiftAll k xs
  | [] => rfl
  | use :: uses => by simp! only [use.shift_shift h, AnnotationUse.shiftAll_shiftAll h uses]

theorem ElementValue.shift_shift (h : f.Composes g k) :
    ∀ x : ElementValue, (x.shift f).shift g = x.shift k
  | .mk r name value => by simp! only [h.range_range, Ident.option_map_shift h, value.shift_shift h]

theorem ElementValue.shiftAll_shiftAll (h : f.Composes g k) :
    ∀ xs : List ElementValue,
      ElementValue.shiftAll g (ElementValue.shiftAll f xs) = ElementValue.shiftAll k xs
  | [] => rfl
  | v :: vs => by simp! only [v.shift_shift h, ElementValue.shiftAll_shiftAll h vs]

theorem Modifier.shift_shift (h : f.Composes g k) :
    ∀ x : Modifier, (x.shift f).shift g = x.shift k
  | .word r word => by simp! only [h.range_range]
  | .annotated use => by simp! only [use.shift_shift h]

theorem Modifier.shiftAll_shiftAll (h : f.Composes g k) :
    ∀ xs : List Modifier, Modifier.shiftAll g (Modifier.shiftAll f xs) = Modifier.shiftAll k xs
  | [] => rfl
  | m :: ms => by simp! only [m.shift_shift h, Modifier.shiftAll_shiftAll h ms]

theorem TypeDecl.shift_shift (h : f.Composes g k) :
    ∀ x : TypeDecl, (x.shift f).shift g = x.shift k
  | .mk r kind ms name typeParamsRange typeParams componentsRange components supers interfaces
      permitted body => by
    simp! only [h.range_range, h.option_map_range, Modifier.shiftAll_shiftAll h ms,
      name.shift_shift h, TypeParam.shiftAll_shiftAll h typeParams,
      Param.shiftAll_shiftAll h components, TypeRef.shiftAll_shiftAll h supers,
      TypeRef.shiftAll_shiftAll h interfaces, TypeRef.shiftAll_shiftAll h permitted,
      body.shift_shift h]

theorem ClassBody.shift_shift (h : f.Composes g k) :
    ∀ x : ClassBody, (x.shift f).shift g = x.shift k
  | .mk r constants members => by
    simp! only [h.range_range, EnumConstant.shiftAll_shiftAll h constants,
      Member.shiftAll_shiftAll h members]

theorem ClassBody.shiftOption_shiftOption (h : f.Composes g k) :
    ∀ o : Option ClassBody,
      ClassBody.shiftOption g (ClassBody.shiftOption f o) = ClassBody.shiftOption k o
  | none => rfl
  | some b => by simp! only [b.shift_shift h]

theorem EnumConstant.shift_shift (h : f.Composes g k) :
    ∀ x : EnumConstant, (x.shift f).shift g = x.shift k
  | .mk r ms name argsRange args body => by
    simp! only [h.range_range, h.option_map_range, Modifier.shiftAll_shiftAll h ms,
      name.shift_shift h, Expr.shiftAll_shiftAll h args, ClassBody.shiftOption_shiftOption h body]

theorem EnumConstant.shiftAll_shiftAll (h : f.Composes g k) :
    ∀ xs : List EnumConstant,
      EnumConstant.shiftAll g (EnumConstant.shiftAll f xs) = EnumConstant.shiftAll k xs
  | [] => rfl
  | c :: cs => by simp! only [c.shift_shift h, EnumConstant.shiftAll_shiftAll h cs]

theorem Member.shift_shift (h : f.Composes g k) :
    ∀ x : Member, (x.shift f).shift g = x.shift k
  | .field decl => by simp! only [decl.shift_shift h]
  | .method decl => by simp! only [decl.shift_shift h]
  | .initializer r isStatic body => by simp! only [h.range_range, body.shift_shift h]
  | .type decl => by simp! only [decl.shift_shift h]

theorem Member.shiftAll_shiftAll (h : f.Composes g k) :
    ∀ xs : List Member, Member.shiftAll g (Member.shiftAll f xs) = Member.shiftAll k xs
  | [] => rfl
  | m :: ms => by simp! only [m.shift_shift h, Member.shiftAll_shiftAll h ms]

theorem VarDecl.shift_shift (h : f.Composes g k) :
    ∀ x : VarDecl, (x.shift f).shift g = x.shift k
  | .mk r ms type fragments => by
    simp! only [h.range_range, Modifier.shiftAll_shiftAll h ms, type.shift_shift h,
      VarFragment.shiftAll_shiftAll h fragments]

theorem VarFragment.shift_shift (h : f.Composes g k) :
    ∀ x : VarFragment, (x.shift f).shift g = x.shift k
  | .mk r name brackets init => by
    simp! only [h.range_range, h.list_map_range, name.shift_shift h,
      Expr.shiftOption_shiftOption h init]

theorem VarFragment.shiftAll_shiftAll (h : f.Composes g k) :
    ∀ xs : List VarFragment,
      VarFragment.shiftAll g (VarFragment.shiftAll f xs) = VarFragment.shiftAll k xs
  | [] => rfl
  | v :: vs => by simp! only [v.shift_shift h, VarFragment.shiftAll_shiftAll h vs]

theorem MethodDecl.shift_shift (h : f.Composes g k) :
    ∀ x : MethodDecl, (x.shift f).shift g = x.shift k
  | .mk r ms typeParamsRange typeParams returnType name paramsRange params brackets thrown
      defaultValue body => by
    simp! only [h.range_range, h.option_map_range, h.list_map_range,
      Modifier.shiftAll_shiftAll h ms, TypeParam.shiftAll_shiftAll h typeParams,
      TypeRef.shiftOption_shiftOption h returnType, name.shift_shift h,
      Param.shiftAll_shiftAll h params, TypeRef.shiftAll_shiftAll h thrown,
      Expr.shiftOption_shiftOption h defaultValue, Block.shiftOption_shiftOption h body]

theorem Param.shift_shift (h : f.Composes g k) :
    ∀ x : Param, (x.shift f).shift g = x.shift k
  | .mk r ms type ellipsis name brackets => by
    simp! only [h.range_range, h.option_map_range, h.list_map_range,
      Modifier.shiftAll_shiftAll h ms, TypeRef.shiftOption_shiftOption h type, name.shift_shift h]

theorem Param.shiftAll_shiftAll (h : f.Composes g k) :
    ∀ xs : List Param, Param.shiftAll g (Param.shiftAll f xs) = Param.shiftAll k xs
  | [] => rfl
  | p :: ps => by simp! only [p.shift_shift h, Param.shiftAll_shiftAll h ps]

theorem TypeParam.shift_shift (h : f.Composes g k) :
    ∀ x : TypeParam, (x.shift f).shift g = x.shift k
  | .mk r marks name bounds => by
    simp! only [h.range_range, AnnotationUse.shiftAll_shiftAll h marks, name.shift_shift h,
      TypeRef.shiftAll_shiftAll h bounds]

theorem TypeParam.shiftAll_shiftAll (h : f.Composes g k) :
    ∀ xs : List TypeParam, TypeParam.shiftAll g (TypeParam.shiftAll f xs) = TypeParam.shiftAll k xs
  | [] => rfl
  | p :: ps => by simp! only [p.shift_shift h, TypeParam.shiftAll_shiftAll h ps]

theorem Block.shift_shift (h : f.Composes g k) :
    ∀ x : Block, (x.shift f).shift g = x.shift k
  | .mk r stmts => by simp! only [h.range_range, Stmt.shiftAll_shiftAll h stmts]

theorem Block.shiftOption_shiftOption (h : f.Composes g k) :
    ∀ o : Option Block, Block.shiftOption g (Block.shiftOption f o) = Block.shiftOption k o
  | none => rfl
  | some b => by simp! only [b.shift_shift h]

theorem ForInit.shift_shift (h : f.Composes g k) :
    ∀ x : ForInit, (x.shift f).shift g = x.shift k
  | .absent => rfl
  | .decl decl => by simp! only [decl.shift_shift h]
  | .exprs es => by simp! only [Expr.shiftAll_shiftAll h es]

theorem Resource.shift_shift (h : f.Composes g k) :
    ∀ x : Resource, (x.shift f).shift g = x.shift k
  | .decl decl => by simp! only [decl.shift_shift h]
  | .expr e => by simp! only [e.shift_shift h]

theorem Resource.shiftAll_shiftAll (h : f.Composes g k) :
    ∀ xs : List Resource, Resource.shiftAll g (Resource.shiftAll f xs) = Resource.shiftAll k xs
  | [] => rfl
  | x :: xs => by simp! only [x.shift_shift h, Resource.shiftAll_shiftAll h xs]

theorem CatchClause.shift_shift (h : f.Composes g k) :
    ∀ x : CatchClause, (x.shift f).shift g = x.shift k
  | .mk r param body => by simp! only [h.range_range, param.shift_shift h, body.shift_shift h]

theorem CatchClause.shiftAll_shiftAll (h : f.Composes g k) :
    ∀ xs : List CatchClause,
      CatchClause.shiftAll g (CatchClause.shiftAll f xs) = CatchClause.shiftAll k xs
  | [] => rfl
  | c :: cs => by simp! only [c.shift_shift h, CatchClause.shiftAll_shiftAll h cs]

theorem SwitchCase.shift_shift (h : f.Composes g k) :
    ∀ x : SwitchCase, (x.shift f).shift g = x.shift k
  | .mk r labels arrow body => by
    simp! only [h.range_range, CaseLabel.shiftAll_shiftAll h labels, Stmt.shiftAll_shiftAll h body]

theorem SwitchCase.shiftAll_shiftAll (h : f.Composes g k) :
    ∀ xs : List SwitchCase,
      SwitchCase.shiftAll g (SwitchCase.shiftAll f xs) = SwitchCase.shiftAll k xs
  | [] => rfl
  | c :: cs => by simp! only [c.shift_shift h, SwitchCase.shiftAll_shiftAll h cs]

theorem CaseLabel.shift_shift (h : f.Composes g k) :
    ∀ x : CaseLabel, (x.shift f).shift g = x.shift k
  | .default r => by simp! only [h.range_range]
  | .values r values => by simp! only [h.range_range, Expr.shiftAll_shiftAll h values]
  | .pattern r pattern guard => by
    simp! only [h.range_range, pattern.shift_shift h, Expr.shiftOption_shiftOption h guard]

theorem CaseLabel.shiftAll_shiftAll (h : f.Composes g k) :
    ∀ xs : List CaseLabel, CaseLabel.shiftAll g (CaseLabel.shiftAll f xs) = CaseLabel.shiftAll k xs
  | [] => rfl
  | l :: ls => by simp! only [l.shift_shift h, CaseLabel.shiftAll_shiftAll h ls]

theorem Pattern.shift_shift (h : f.Composes g k) :
    ∀ x : Pattern, (x.shift f).shift g = x.shift k
  | .mk r ms type name => by
    simp! only [h.range_range, Modifier.shiftAll_shiftAll h ms, type.shift_shift h,
      name.shift_shift h]

theorem Stmt.shift_shift (h : f.Composes g k) :
    ∀ x : Stmt, (x.shift f).shift g = x.shift k
  | .block body => by simp! only [body.shift_shift h]
  | .localVar decl => by simp! only [decl.shift_shift h]
  | .localType decl => by simp! only [decl.shift_shift h]
  | .expression r e => by simp! only [h.range_range, e.shift_shift h]
  | .ifThen r cond body => by simp! only [h.range_range, cond.shift_shift h, body.shift_shift h]
  | .ifThenElse r cond body alternative => by
    simp! only [h.range_range, cond.shift_shift h, body.shift_shift h, alternative.shift_shift h]
  | .whileLoop r cond body => by simp! only [h.range_range, cond.shift_shift h, body.shift_shift h]
  | .doLoop r body cond => by simp! only [h.range_range, body.shift_shift h, cond.shift_shift h]
  | .forLoop r init cond update body => by
    simp! only [h.range_range, init.shift_shift h, Expr.shiftOption_shiftOption h cond,
      Expr.shiftAll_shiftAll h update, body.shift_shift h]
  | .forEach r var iterable body => by
    simp! only [h.range_range, var.shift_shift h, iterable.shift_shift h, body.shift_shift h]
  | .returning r e => by simp! only [h.range_range, Expr.shiftOption_shiftOption h e]
  | .breaking r label => by simp! only [h.range_range, Ident.option_map_shift h]
  | .continuing r label => by simp! only [h.range_range, Ident.option_map_shift h]
  | .yielding r e => by simp! only [h.range_range, e.shift_shift h]
  | .labeled r label body => by simp! only [h.range_range, label.shift_shift h, body.shift_shift h]
  | .throwing r e => by simp! only [h.range_range, e.shift_shift h]
  | .trying r resourcesRange resources body catches final => by
    simp! only [h.range_range, h.option_map_range, Resource.shiftAll_shiftAll h resources,
      body.shift_shift h, CatchClause.shiftAll_shiftAll h catches,
      Block.shiftOption_shiftOption h final]
  | .switching r selector casesRange cases => by
    simp! only [h.range_range, selector.shift_shift h, SwitchCase.shiftAll_shiftAll h cases]
  | .synchronizing r lock body => by
    simp! only [h.range_range, lock.shift_shift h, body.shift_shift h]
  | .asserting r cond message => by
    simp! only [h.range_range, cond.shift_shift h, Expr.shiftOption_shiftOption h message]
  | .empty r => by simp! only [h.range_range]

theorem Stmt.shiftAll_shiftAll (h : f.Composes g k) :
    ∀ xs : List Stmt, Stmt.shiftAll g (Stmt.shiftAll f xs) = Stmt.shiftAll k xs
  | [] => rfl
  | s :: ss => by simp! only [s.shift_shift h, Stmt.shiftAll_shiftAll h ss]

theorem Expr.shift_shift (h : f.Composes g k) :
    ∀ x : Expr, (x.shift f).shift g = x.shift k
  | .literal r kind => by simp! only [h.range_range]
  | .name name => by simp! only [name.shift_shift h]
  | .fieldAccess r target name => by
    simp! only [h.range_range, target.shift_shift h, name.shift_shift h]
  | .methodCall r target typeArgsRange typeArgs name argsRange args => by
    simp! only [h.range_range, h.option_map_range, Expr.shiftOption_shiftOption h target,
      TypeRef.shiftAll_shiftAll h typeArgs, name.shift_shift h, Expr.shiftAll_shiftAll h args]
  | .newObject r outer type argsRange args body => by
    simp! only [h.range_range, Expr.shiftOption_shiftOption h outer, type.shift_shift h,
      Expr.shiftAll_shiftAll h args, ClassBody.shiftOption_shiftOption h body]
  | .newArray r element dims initRange init => by
    simp! only [h.range_range, h.option_map_range, element.shift_shift h,
      DimExpr.shiftAll_shiftAll h dims, Expr.shiftAll_shiftAll h init]
  | .arrayInit r items => by simp! only [h.range_range, Expr.shiftAll_shiftAll h items]
  | .arrayAccess r array index => by
    simp! only [h.range_range, array.shift_shift h, index.shift_shift h]
  | .unary r op operand => by simp! only [h.range_range, operand.shift_shift h]
  | .binary r op lhs rhs => by simp! only [h.range_range, lhs.shift_shift h, rhs.shift_shift h]
  | .assign r op target value => by
    simp! only [h.range_range, target.shift_shift h, value.shift_shift h]
  | .conditional r cond yes no => by
    simp! only [h.range_range, cond.shift_shift h, yes.shift_shift h, no.shift_shift h]
  | .instanceOf r e type => by simp! only [h.range_range, e.shift_shift h, type.shift_shift h]
  | .instanceOfPattern r e pattern => by
    simp! only [h.range_range, e.shift_shift h, pattern.shift_shift h]
  | .cast r type e => by simp! only [h.range_range, type.shift_shift h, e.shift_shift h]
  | .paren r e => by simp! only [h.range_range, e.shift_shift h]
  | .this r => by simp! only [h.range_range]
  | .super r => by simp! only [h.range_range]
  | .classLiteral r type => by simp! only [h.range_range, type.shift_shift h]
  | .lambdaExpr r paramsRange params parenthesized body => by
    simp! only [h.range_range, Param.shiftAll_shiftAll h params, body.shift_shift h]
  | .lambdaBlock r paramsRange params parenthesized body => by
    simp! only [h.range_range, Param.shiftAll_shiftAll h params, body.shift_shift h]
  | .methodRef r target name => by
    simp! only [h.range_range, Ident.option_map_shift h, target.shift_shift h]
  | .switching r selector casesRange cases => by
    simp! only [h.range_range, selector.shift_shift h, SwitchCase.shiftAll_shiftAll h cases]
  | .annotated use => by simp! only [use.shift_shift h]
  | .type type => by simp! only [type.shift_shift h]

theorem Expr.shiftOption_shiftOption (h : f.Composes g k) :
    ∀ o : Option Expr, Expr.shiftOption g (Expr.shiftOption f o) = Expr.shiftOption k o
  | none => rfl
  | some e => by simp! only [e.shift_shift h]

theorem Expr.shiftAll_shiftAll (h : f.Composes g k) :
    ∀ xs : List Expr, Expr.shiftAll g (Expr.shiftAll f xs) = Expr.shiftAll k xs
  | [] => rfl
  | e :: es => by simp! only [e.shift_shift h, Expr.shiftAll_shiftAll h es]

theorem DimExpr.shift_shift (h : f.Composes g k) :
    ∀ x : DimExpr, (x.shift f).shift g = x.shift k
  | .mk r size => by simp! only [h.range_range, Expr.shiftOption_shiftOption h size]

theorem DimExpr.shiftAll_shiftAll (h : f.Composes g k) :
    ∀ xs : List DimExpr, DimExpr.shiftAll g (DimExpr.shiftAll f xs) = DimExpr.shiftAll k xs
  | [] => rfl
  | d :: ds => by simp! only [d.shift_shift h, DimExpr.shiftAll_shiftAll h ds]

end

theorem PackageDecl.shift_shift (h : f.Composes g k) (p : PackageDecl) :
    (p.shift f).shift g = p.shift k := by
  simp only [PackageDecl.shift, h.range_range, AnnotationUse.shiftAll_shiftAll h,
    p.name.shift_shift h]

theorem ImportDecl.shift_shift (h : f.Composes g k) (i : ImportDecl) :
    (i.shift f).shift g = i.shift k := by
  simp only [ImportDecl.shift, h.range_range, i.name.shift_shift h]

theorem CompilationUnit.shift_shift (h : f.Composes g k) (u : CompilationUnit) :
    (u.shift f).shift g = u.shift k := by
  have hpackage : PackageDecl.shift g ∘ PackageDecl.shift f = PackageDecl.shift k :=
    funext (PackageDecl.shift_shift h)
  have himport : ImportDecl.shift g ∘ ImportDecl.shift f = ImportDecl.shift k :=
    funext (ImportDecl.shift_shift h)
  have htype : TypeDecl.shift g ∘ TypeDecl.shift f = TypeDecl.shift k :=
    funext (TypeDecl.shift_shift h)
  simp only [CompilationUnit.shift, TextRange.upTo, h.start_start, Option.map_map, List.map_map,
    hpackage, himport, htype]

end Ast

end JavaAnalysis
