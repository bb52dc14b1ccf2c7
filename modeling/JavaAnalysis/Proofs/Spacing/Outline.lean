import JavaAnalysis.Proofs.Spacing.Syntax

/-!
# The outline of a moved file

Moving a file moves each part of its outline.
-/

set_option autoImplicit false

namespace JavaAnalysis.Ast

variable (f : Shift)

def Part.shift : Part → Part
  | .type decl => .type (decl.shift f)
  | .member m => .member (m.shift f)
  | .variables decl => .variables (decl.shift f)
  | .method decl => .method (decl.shift f)
  | .param p => .param (p.shift f)
  | .annotated use => .annotated (use.shift f)
  | .block b => .block (b.shift f)
  | .stmt s => .stmt (s.shift f)
  | .expr e => .expr (e.shift f)
  | .typeRef t => .typeRef (t.shift f)

mutual

def Outline.shift : Outline → Outline
  | .mk part inside => .mk (part.shift f) (Outline.shiftAll inside)

def Outline.shiftAll : List Outline → List Outline
  | [] => []
  | o :: os => o.shift :: Outline.shiftAll os

end

@[simp] theorem Outline.shiftAll_eq : Outline.shiftAll f = List.map (Outline.shift f) := by
  funext os
  induction os with
  | nil => rfl
  | cons o os ih => rw [Outline.shiftAll, ih, List.map_cons]

@[simp] theorem Outline.shift_mk (part : Part) (inside : List Outline) :
    (Outline.mk part inside).shift f = .mk (part.shift f) (inside.map (Outline.shift f)) := by
  rw [Outline.shift, Outline.shiftAll_eq]

mutual

@[simp] theorem TypeRef.outline_shift : ∀ t : TypeRef, (t.shift f).outline = t.outline.shift f
  | .primitive _ _ | .inferred _ | .wildcard _ => by
    simp [TypeRef.shift, TypeRef.outline, Part.shift]
  | .named _ none _ _ args => by
    simp [TypeRef.shift, TypeRef.outline, Part.shift, TypeRef.outlines_shift args]
  | .named _ (some q) _ _ args => by
    simp [TypeRef.shift, TypeRef.outline, Part.shift, q.outline_shift, TypeRef.outlines_shift args]
  | .array _ element _ => by
    simp [TypeRef.shift, TypeRef.outline, Part.shift, element.outline_shift]
  | .bounded _ _ bound => by
    simp [TypeRef.shift, TypeRef.outline, Part.shift, bound.outline_shift]
  | .union _ types => by
    simp [TypeRef.shift, TypeRef.outline, Part.shift, TypeRef.outlines_shift types]
  | .intersection _ types => by
    simp [TypeRef.shift, TypeRef.outline, Part.shift, TypeRef.outlines_shift types]

@[simp] theorem TypeRef.outlines_shift : ∀ ts : List TypeRef,
    TypeRef.outlines (ts.map (TypeRef.shift f)) = (TypeRef.outlines ts).map (Outline.shift f)
  | [] => rfl
  | t :: ts => by simp [TypeRef.outlines, t.outline_shift, TypeRef.outlines_shift ts]

end

theorem optionList_shift (t : Option TypeRef) :
    (t.map (TypeRef.shift f)).toList = t.toList.map (TypeRef.shift f) := by
  cases t <;> rfl

mutual

theorem AnnotationUse.outline_shift : ∀ use : AnnotationUse,
    (use.shift f).outline = use.outline.shift f
  | .mk _ _ _ args => by simp! [Part.shift, elementOutlines_shift args]

theorem elementOutlines_shift : ∀ args : List ElementValue,
    elementOutlines (args.map (ElementValue.shift f)) = (elementOutlines args).map (Outline.shift f)
  | [] => rfl
  | .mk _ _ value :: args => by simp! [value.outline_shift, elementOutlines_shift args]

theorem AnnotationUse.outlines_shift : ∀ uses : List AnnotationUse,
    AnnotationUse.outlines (uses.map (AnnotationUse.shift f)) =
      (AnnotationUse.outlines uses).map (Outline.shift f)
  | [] => rfl
  | use :: uses => by simp! [use.outline_shift, AnnotationUse.outlines_shift uses]

theorem modifierOutlines_shift : ∀ ms : List Modifier,
    modifierOutlines (ms.map (Modifier.shift f)) = (modifierOutlines ms).map (Outline.shift f)
  | [] => rfl
  | .word _ _ :: ms => by simp! [modifierOutlines_shift ms]
  | .annotated use :: ms => by simp! [use.outline_shift, modifierOutlines_shift ms]

theorem typeParamOutlines_shift : ∀ params : List TypeParam,
    typeParamOutlines (params.map (TypeParam.shift f)) =
      (typeParamOutlines params).map (Outline.shift f)
  | [] => rfl
  | .mk _ uses _ bounds :: params => by
    simp! [AnnotationUse.outlines_shift uses, typeParamOutlines_shift params]

theorem TypeDecl.outline_shift : ∀ decl : TypeDecl, (decl.shift f).outline = decl.outline.shift f
  | .mk _ _ ms _ _ typeParams _ components supers interfaces permitted (.mk _ constants members) => by
    simp! [Part.shift, modifierOutlines_shift ms, typeParamOutlines_shift typeParams,
      Param.outlines_shift components, constantOutlines_shift constants,
      Member.outlines_shift members]

theorem constantOutlines_shift : ∀ constants : List EnumConstant,
    constantOutlines (constants.map (EnumConstant.shift f)) =
      (constantOutlines constants).map (Outline.shift f)
  | [] => rfl
  | .mk _ ms _ _ args body :: constants => by
    simp! [modifierOutlines_shift ms, Expr.outlines_shift args, bodyOutlines_shift body,
      constantOutlines_shift constants]

theorem bodyOutlines_shift : ∀ body : Option ClassBody,
    bodyOutlines (body.map (ClassBody.shift f)) = (bodyOutlines body).map (Outline.shift f)
  | none => rfl
  | some (.mk _ constants members) => by
    simp! [constantOutlines_shift constants, Member.outlines_shift members]

theorem Member.outline_shift : ∀ m : Member, (m.shift f).outline = m.outline.shift f
  | .field decl => by simp! [Part.shift, decl.outline_shift]
  | .method decl => by simp! [Part.shift, decl.outline_shift]
  | .initializer _ _ body => by simp! [Part.shift, body.outline_shift]
  | .type decl => by simp! [Part.shift, decl.outline_shift]

theorem Member.outlines_shift : ∀ ms : List Member,
    Member.outlines (ms.map (Member.shift f)) = (Member.outlines ms).map (Outline.shift f)
  | [] => rfl
  | m :: ms => by simp! [m.outline_shift, Member.outlines_shift ms]

theorem VarDecl.outline_shift : ∀ decl : VarDecl, (decl.shift f).outline = decl.outline.shift f
  | .mk _ ms type fragments => by
    simp! [Part.shift, modifierOutlines_shift ms, initOutlines_shift fragments]

theorem initOutlines_shift : ∀ fragments : List VarFragment,
    initOutlines (fragments.map (VarFragment.shift f)) =
      (initOutlines fragments).map (Outline.shift f)
  | [] => rfl
  | .mk _ _ _ init :: fragments => by
    simp! [optionalOutlines_shift init, initOutlines_shift fragments]

theorem MethodDecl.outline_shift : ∀ decl : MethodDecl,
    (decl.shift f).outline = decl.outline.shift f
  | .mk _ ms _ typeParams returnType _ _ params _ thrown defaultValue body => by
    simp! [Part.shift, modifierOutlines_shift ms, typeParamOutlines_shift typeParams,
      optionList_shift, Param.outlines_shift params, optionalOutlines_shift defaultValue,
      blockOutlines_shift body]

theorem Param.outline_shift : ∀ p : Param, (p.shift f).outline = p.outline.shift f
  | .mk _ ms type _ _ _ => by simp! [Part.shift, modifierOutlines_shift ms, optionList_shift]

theorem Param.outlines_shift : ∀ ps : List Param,
    Param.outlines (ps.map (Param.shift f)) = (Param.outlines ps).map (Outline.shift f)
  | [] => rfl
  | p :: ps => by simp! [p.outline_shift, Param.outlines_shift ps]

theorem Block.outline_shift : ∀ b : Block, (b.shift f).outline = b.outline.shift f
  | .mk _ stmts => by simp! [Part.shift, Stmt.outlines_shift stmts]

theorem blockOutlines_shift : ∀ b : Option Block,
    blockOutlines (b.map (Block.shift f)) = (blockOutlines b).map (Outline.shift f)
  | none => rfl
  | some block => by simp! [block.outline_shift]

theorem Stmt.outlines_shift : ∀ ss : List Stmt,
    Stmt.outlines (ss.map (Stmt.shift f)) = (Stmt.outlines ss).map (Outline.shift f)
  | [] => rfl
  | s :: ss => by simp! [s.outline_shift, Stmt.outlines_shift ss]

theorem Stmt.outline_shift : ∀ s : Stmt, (s.shift f).outline = s.outline.shift f
  | .block body => by simp! [Part.shift, body.outline_shift]
  | .localVar decl => by simp! [Part.shift, decl.outline_shift]
  | .localType decl => by simp! [Part.shift, decl.outline_shift]
  | .expression _ e => by simp! [Part.shift, e.outline_shift]
  | .ifThen _ cond body => by simp! [Part.shift, cond.outline_shift, body.outline_shift]
  | .ifThenElse _ cond body alternative => by
    simp! [Part.shift, cond.outline_shift, body.outline_shift, alternative.outline_shift]
  | .whileLoop _ cond body => by simp! [Part.shift, cond.outline_shift, body.outline_shift]
  | .doLoop _ body cond => by simp! [Part.shift, cond.outline_shift, body.outline_shift]
  | .forLoop _ init cond update body => by
    simp! [Part.shift, forInitOutlines_shift init, optionalOutlines_shift cond,
      Expr.outlines_shift update, body.outline_shift]
  | .forEach _ var iterable body => by
    simp! [Part.shift, var.outline_shift, iterable.outline_shift, body.outline_shift]
  | .returning _ e => by simp! [Part.shift, optionalOutlines_shift e]
  | .breaking _ _ => by simp! [Part.shift]
  | .continuing _ _ => by simp! [Part.shift]
  | .yielding _ e => by simp! [Part.shift, e.outline_shift]
  | .labeled _ _ body => by simp! [Part.shift, body.outline_shift]
  | .throwing _ e => by simp! [Part.shift, e.outline_shift]
  | .trying _ _ resources body catches final => by
    simp! [Part.shift, resourceOutlines_shift resources, body.outline_shift,
      catchOutlines_shift catches, blockOutlines_shift final]
  | .switching _ selector _ cases => by
    simp! [Part.shift, selector.outline_shift, caseOutlines_shift cases]
  | .synchronizing _ lock body => by simp! [Part.shift, lock.outline_shift, body.outline_shift]
  | .asserting _ cond message => by
    simp! [Part.shift, cond.outline_shift, optionalOutlines_shift message]
  | .empty _ => by simp! [Part.shift]

theorem forInitOutlines_shift : ∀ init : ForInit,
    forInitOutlines (init.shift f) = (forInitOutlines init).map (Outline.shift f)
  | .absent => rfl
  | .decl decl => by simp! [decl.outline_shift]
  | .exprs es => by simp! [Expr.outlines_shift es]

theorem resourceOutlines_shift : ∀ rs : List Resource,
    resourceOutlines (rs.map (Resource.shift f)) = (resourceOutlines rs).map (Outline.shift f)
  | [] => rfl
  | .decl decl :: rs => by simp! [decl.outline_shift, resourceOutlines_shift rs]
  | .expr e :: rs => by simp! [e.outline_shift, resourceOutlines_shift rs]

theorem catchOutlines_shift : ∀ catches : List CatchClause,
    catchOutlines (catches.map (CatchClause.shift f)) =
      (catchOutlines catches).map (Outline.shift f)
  | [] => rfl
  | .mk _ param body :: catches => by
    simp! [param.outline_shift, body.outline_shift, catchOutlines_shift catches]

theorem caseOutlines_shift : ∀ cases : List SwitchCase,
    caseOutlines (cases.map (SwitchCase.shift f)) = (caseOutlines cases).map (Outline.shift f)
  | [] => rfl
  | .mk _ labels _ body :: cases => by
    simp! [labelOutlines_shift labels, Stmt.outlines_shift body, caseOutlines_shift cases]

theorem labelOutlines_shift : ∀ labels : List CaseLabel,
    labelOutlines (labels.map (CaseLabel.shift f)) = (labelOutlines labels).map (Outline.shift f)
  | [] => rfl
  | .default _ :: labels => by simp! [labelOutlines_shift labels]
  | .values _ values :: labels => by simp! [Expr.outlines_shift values, labelOutlines_shift labels]
  | .pattern _ (.mk _ _ type _) guard :: labels => by
    simp! [optionalOutlines_shift guard, labelOutlines_shift labels]

theorem optionalOutlines_shift : ∀ e : Option Expr,
    optionalOutlines (e.map (Expr.shift f)) = (optionalOutlines e).map (Outline.shift f)
  | none => rfl
  | some e => by simp! [e.outline_shift]

theorem dimOutlines_shift : ∀ dims : List DimExpr,
    dimOutlines (dims.map (DimExpr.shift f)) = (dimOutlines dims).map (Outline.shift f)
  | [] => rfl
  | .mk _ size :: dims => by simp! [optionalOutlines_shift size, dimOutlines_shift dims]

theorem Expr.outlines_shift : ∀ es : List Expr,
    Expr.outlines (es.map (Expr.shift f)) = (Expr.outlines es).map (Outline.shift f)
  | [] => rfl
  | e :: es => by simp! [e.outline_shift, Expr.outlines_shift es]

theorem Expr.outline_shift : ∀ e : Expr, (e.shift f).outline = e.outline.shift f
  | .literal _ _ | .name _ | .this _ | .super _ => by simp! [Part.shift]
  | .fieldAccess _ target _ => by simp! [Part.shift, target.outline_shift]
  | .methodCall _ target _ typeArgs _ _ args => by
    simp! [Part.shift, optionalOutlines_shift target, Expr.outlines_shift args]
  | .newObject _ outer type _ args body => by
    simp! [Part.shift, optionalOutlines_shift outer, Expr.outlines_shift args,
      bodyOutlines_shift body]
  | .newArray _ element dims _ init => by
    simp! [Part.shift, dimOutlines_shift dims, Expr.outlines_shift init]
  | .arrayInit _ items => by simp! [Part.shift, Expr.outlines_shift items]
  | .arrayAccess _ array index => by simp! [Part.shift, array.outline_shift, index.outline_shift]
  | .unary _ _ operand => by simp! [Part.shift, operand.outline_shift]
  | .binary _ _ lhs rhs => by simp! [Part.shift, lhs.outline_shift, rhs.outline_shift]
  | .assign _ _ target value => by simp! [Part.shift, target.outline_shift, value.outline_shift]
  | .conditional _ cond yes no => by
    simp! [Part.shift, cond.outline_shift, yes.outline_shift, no.outline_shift]
  | .instanceOf _ operand _ => by simp! [Part.shift, operand.outline_shift]
  | .instanceOfPattern _ operand (.mk _ _ _ _) => by simp! [Part.shift, operand.outline_shift]
  | .cast _ _ operand => by simp! [Part.shift, operand.outline_shift]
  | .paren _ inner => by simp! [Part.shift, inner.outline_shift]
  | .classLiteral _ _ => by simp! [Part.shift]
  | .lambdaExpr _ _ params _ body => by
    simp! [Part.shift, Param.outlines_shift params, body.outline_shift]
  | .lambdaBlock _ _ params _ body => by
    simp! [Part.shift, Param.outlines_shift params, body.outline_shift]
  | .methodRef _ target _ => by simp! [Part.shift, target.outline_shift]
  | .switching _ selector _ cases => by
    simp! [Part.shift, selector.outline_shift, caseOutlines_shift cases]
  | .annotated use => by simp! [Part.shift, use.outline_shift]
  | .type _ => by simp! [Part.shift]

end

theorem CompilationUnit.outlines_shift (unit : CompilationUnit) :
    (unit.shift f).outlines = unit.outlines.map (Outline.shift f) := by
  obtain ⟨_, package, _, types⟩ := unit
  cases package with
  | none => simp [CompilationUnit.shift, CompilationUnit.outlines, TypeDecl.outline_shift]
  | some package =>
    simp [CompilationUnit.shift, CompilationUnit.outlines, PackageDecl.shift,
      AnnotationUse.outlines_shift, TypeDecl.outline_shift]

mutual

theorem Outline.parts_shift : ∀ o : Outline, (o.shift f).parts = o.parts.map (Part.shift f)
  | .mk part inside => by simp [Outline.parts, Outline.partsOf_shift inside]

theorem Outline.partsOf_shift : ∀ os : List Outline,
    Outline.partsOf (os.map (Outline.shift f)) = (Outline.partsOf os).map (Part.shift f)
  | [] => rfl
  | o :: os => by simp [Outline.partsOf, o.parts_shift, Outline.partsOf_shift os]

end

end JavaAnalysis.Ast
