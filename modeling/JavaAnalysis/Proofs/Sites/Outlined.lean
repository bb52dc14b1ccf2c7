import JavaAnalysis.Proofs.Sites.OfAst
import JavaAnalysis.SourceFile

/-!
# Where operators are cut

Operators are cut where the lists in angle brackets end that the outline of a file has. These are
all lists but those in front of the types of patterns. Main statement:
`CompilationUnit.mem_splits`.
-/

set_option autoImplicit false
set_option linter.dupNamespace false

namespace JavaAnalysis

/-- The site is a list in angle brackets that the outline has, and ends at the offset. -/
def Site.endsAt (offset : Nat) (site : Site) : Bool :=
  site.outlined && site.closer? == some offset

namespace Ast

def Part.endsAt (offset : Nat) (part : Part) : Bool := part.split? == some offset

/-- A list in angle brackets ends at the offset somewhere in an outline. -/
def Outline.endsAt (offset : Nat) (o : Outline) : Bool := o.parts.any (Part.endsAt offset)

def outlinesEndAt (offset : Nat) (os : List Outline) : Bool :=
  (Outline.partsOf os).any (Part.endsAt offset)

def sitesEndAt (offset : Nat) (sites : List Site) : Bool := sites.any (Site.endsAt offset)

variable {offset : Nat}

/-! ## Lists -/

@[simp]
theorem outlinesEndAt_nil : outlinesEndAt offset [] = false := rfl

@[simp]
theorem outlinesEndAt_cons (o : Outline) (os : List Outline) :
    outlinesEndAt offset (o :: os) = (o.endsAt offset || outlinesEndAt offset os) := by
  simp [outlinesEndAt, Outline.endsAt, Outline.partsOf]

@[simp]
theorem outlinesEndAt_append (as bs : List Outline) :
    outlinesEndAt offset (as ++ bs) = (outlinesEndAt offset as || outlinesEndAt offset bs) := by
  induction as with
  | nil => simp
  | cons o os ih => simp [ih, Bool.or_assoc]

@[simp]
theorem endsAt_mk (part : Part) (inside : List Outline) :
    (Outline.mk part inside).endsAt offset =
      (part.endsAt offset || outlinesEndAt offset inside) := by
  simp [Outline.endsAt, outlinesEndAt, Outline.parts]

@[simp]
theorem sitesEndAt_nil : sitesEndAt offset [] = false := rfl

@[simp]
theorem sitesEndAt_cons (site : Site) (sites : List Site) :
    sitesEndAt offset (site :: sites) = (site.endsAt offset || sitesEndAt offset sites) := rfl

@[simp]
theorem sitesEndAt_append (as bs : List Site) :
    sitesEndAt offset (as ++ bs) = (sitesEndAt offset as || sitesEndAt offset bs) :=
  List.any_append

/-- No operator is cut for a list that the outline passes over. -/
@[simp]
theorem sitesEndAt_hide (sites : List Site) : sitesEndAt offset (sites.map .hide) = false := by
  simp [sitesEndAt, Site.endsAt, Site.hide]

@[simp]
theorem sitesEndAt_nameless (sites : List Site) :
    sitesEndAt offset (nameless sites) = sitesEndAt offset sites := by
  induction sites with
  | nil => rfl
  | cons site sites ih =>
    obtain ⟨kind, range, separator, role, outlined⟩ := site
    cases role <;> simp_all [nameless, Site.isNamed, Site.key?, Site.endsAt, Site.closer?]

@[simp]
theorem endsAt_vacancy (start : Nat) : (Site.vacancy start).endsAt offset = false := rfl

@[simp]
theorem endsAt_declaration (kind : NodeKind) (range : TextRange) (name : Nat) :
    (Site.declaration kind range name).endsAt offset = false := rfl

@[simp]
theorem endsAt_reference (range : TextRange) (name : Nat) :
    (Site.reference range name).endsAt offset = false := rfl

@[simp]
theorem endsAt_fragment (range : TextRange) (separator : Option TokenKind) (name : Nat) :
    (Site.fragment range separator name).endsAt offset = false := rfl

@[simp]
theorem sitesEndAt_qualifiedName (name : QualifiedName) :
    sitesEndAt offset name.sites = false := rfl

@[simp]
theorem sitesEndAt_angled (kind : NodeKind) (range : Option TextRange) :
    sitesEndAt offset (angled kind range) = (range.map (·.stop) == some offset) := by
  cases range <;> simp [angled, Site.enclosing, Site.endsAt, Site.closer?]

attribute [local simp] Part.endsAt Part.split?

attribute [local simp] Bool.or_assoc Bool.or_comm Bool.or_left_comm

/-! ## Types -/

mutual

theorem TypeRef.endsAt_outline : ∀ t : TypeRef, t.outline.endsAt offset = sitesEndAt offset t.sites
  | .primitive _ _ => by simp [TypeRef.outline, TypeRef.sites]
  | .inferred _ => by simp [TypeRef.outline, TypeRef.sites]
  | .named _ none _ _ args => by
    simp [TypeRef.outline, TypeRef.sites, TypeRef.endsAt_outlines args]
  | .named _ (some q) _ _ args => by
    simp [TypeRef.outline, TypeRef.sites, q.endsAt_outline, TypeRef.endsAt_outlines args]
  | .array _ element _ => by simp [TypeRef.outline, TypeRef.sites, element.endsAt_outline]
  | .wildcard _ => by simp [TypeRef.outline, TypeRef.sites]
  | .bounded _ _ bound => by simp [TypeRef.outline, TypeRef.sites, bound.endsAt_outline]
  | .union _ ts => by simp [TypeRef.outline, TypeRef.sites, TypeRef.endsAt_outlines ts]
  | .intersection _ ts => by simp [TypeRef.outline, TypeRef.sites, TypeRef.endsAt_outlines ts]

theorem TypeRef.endsAt_outlines :
    ∀ ts : List TypeRef, outlinesEndAt offset (TypeRef.outlines ts) = sitesEndAt offset (typeSites ts)
  | [] => by simp [TypeRef.outlines, typeSites]
  | t :: ts => by
    simp [TypeRef.outlines, typeSites, t.endsAt_outline, TypeRef.endsAt_outlines ts]

end

/-! ## Declarations, statements and expressions -/

mutual

theorem AnnotationUse.endsAt_outline :
    ∀ use : AnnotationUse, use.outline.endsAt offset = sitesEndAt offset use.sites
  | .mk _ _ _ args => by simp! [endsAt_elementOutlines args]

theorem endsAt_elementOutlines : ∀ args : List ElementValue,
    outlinesEndAt offset (elementOutlines args) = sitesEndAt offset (elementSites args)
  | [] => by simp!
  | .mk _ _ value :: args => by simp! [value.endsAt_outline, endsAt_elementOutlines args]

theorem AnnotationUse.endsAt_outlines : ∀ uses : List AnnotationUse,
    outlinesEndAt offset (AnnotationUse.outlines uses) = sitesEndAt offset (annotationSites uses)
  | [] => by simp!
  | use :: uses => by simp! [use.endsAt_outline, AnnotationUse.endsAt_outlines uses]

theorem endsAt_modifierOutlines : ∀ ms : List Modifier,
    outlinesEndAt offset (modifierOutlines ms) = sitesEndAt offset (modifierSites ms)
  | [] => by simp!
  | .word _ _ :: ms => by simp! [endsAt_modifierOutlines ms]
  | .annotated use :: ms => by simp! [use.endsAt_outline, endsAt_modifierOutlines ms]

theorem endsAt_typeParamOutlines : ∀ params : List TypeParam,
    outlinesEndAt offset (typeParamOutlines params) = sitesEndAt offset (typeParamSites params)
  | [] => by simp!
  | .mk _ marks _ bounds :: params => by
    simp! [AnnotationUse.endsAt_outlines marks, TypeRef.endsAt_outlines,
      endsAt_typeParamOutlines params]

theorem TypeDecl.endsAt_outline :
    ∀ decl : TypeDecl, decl.outline.endsAt offset = sitesEndAt offset decl.sites
  | .mk _ _ ms _ _ typeParams _ components _ _ _ (.mk _ constants members) => by
    simp! [endsAt_modifierOutlines ms, endsAt_typeParamOutlines typeParams,
      Param.endsAt_outlines components, TypeRef.endsAt_outlines, endsAt_constantOutlines constants,
      Member.endsAt_outlines members]

theorem endsAt_constantOutlines : ∀ constants : List EnumConstant,
    outlinesEndAt offset (constantOutlines constants) = sitesEndAt offset (constantSites constants)
  | [] => by simp!
  | .mk _ ms _ _ args body :: constants => by
    simp! [endsAt_modifierOutlines ms, Expr.endsAt_outlines args, endsAt_bodyOutlines body,
      endsAt_constantOutlines constants]

theorem endsAt_bodyOutlines : ∀ body : Option ClassBody,
    outlinesEndAt offset (bodyOutlines body) = sitesEndAt offset (anonymousSites body)
  | none => by simp!
  | some (.mk _ constants members) => by
    simp! [endsAt_constantOutlines constants, Member.endsAt_outlines members]

theorem Member.endsAt_outlines : ∀ members : List Member,
    outlinesEndAt offset (Member.outlines members) = sitesEndAt offset (memberSites members)
  | [] => by simp!
  | .field decl :: members => by simp! [decl.endsAt_outline, Member.endsAt_outlines members]
  | .method decl :: members => by simp! [decl.endsAt_outline, Member.endsAt_outlines members]
  | .initializer _ _ body :: members => by
    simp! [body.endsAt_outline, Member.endsAt_outlines members]
  | .type decl :: members => by simp! [decl.endsAt_outline, Member.endsAt_outlines members]

theorem VarDecl.endsAt_outline :
    ∀ decl : VarDecl, decl.outline.endsAt offset = sitesEndAt offset decl.sites
  | .mk _ ms _ [] => by simp! [endsAt_modifierOutlines ms, TypeRef.endsAt_outline]
  | .mk range ms _ (fragment :: fragments) => by
    have hfragments := endsAt_initOutlines (fragment :: fragments)
      (isTerminated range (fragment :: fragments)) range.start
    simp! [endsAt_modifierOutlines ms, TypeRef.endsAt_outline, hfragments]

theorem endsAt_initOutlines : ∀ (fragments : List VarFragment) (terminated : Bool) (start : Nat),
    outlinesEndAt offset (initOutlines fragments) =
      sitesEndAt offset (fragmentSites terminated start fragments)
  | [], _, _ => by simp!
  | .mk _ _ _ init :: fragments, terminated, _ => by
    simp! only [outlinesEndAt_append, sitesEndAt_append, sitesEndAt_cons, endsAt_fragment,
      Bool.false_or, endsAt_optionalOutlines init]
    rw [endsAt_initOutlines fragments]

theorem MethodDecl.endsAt_outline :
    ∀ decl : MethodDecl, decl.outline.endsAt offset = sitesEndAt offset decl.sites
  | .mk _ ms _ typeParams _ _ _ params _ _ defaultValue body => by
    simp! [endsAt_modifierOutlines ms, endsAt_typeParamOutlines typeParams,
      Param.endsAt_outlines params, TypeRef.endsAt_outlines, endsAt_optionalOutlines defaultValue,
      endsAt_blockOutlines body]

theorem Param.endsAt_outlines :
    ∀ ps : List Param, outlinesEndAt offset (Param.outlines ps) = sitesEndAt offset (paramSites ps)
  | [] => by simp!
  | p :: ps => by simp! [p.endsAt_outline, Param.endsAt_outlines ps]

theorem Param.endsAt_outline : ∀ p : Param, p.outline.endsAt offset = sitesEndAt offset p.sites
  | .mk _ ms _ _ _ _ => by simp! [endsAt_modifierOutlines ms, TypeRef.endsAt_outlines]

theorem Block.endsAt_outline :
    ∀ block : Block, block.outline.endsAt offset = sitesEndAt offset block.sites
  | .mk _ ss => by simp! [Stmt.endsAt_outlines ss]

theorem endsAt_blockOutlines : ∀ block : Option Block,
    outlinesEndAt offset (blockOutlines block) = sitesEndAt offset (blockSites block)
  | none => by simp!
  | some block => by simp! [block.endsAt_outline]

theorem Stmt.endsAt_outlines :
    ∀ ss : List Stmt, outlinesEndAt offset (Stmt.outlines ss) = sitesEndAt offset (stmtSites ss)
  | [] => by simp!
  | s :: ss => by simp! [s.endsAt_outline, Stmt.endsAt_outlines ss]

theorem Stmt.endsAt_outline : ∀ s : Stmt, s.outline.endsAt offset = sitesEndAt offset s.sites
  | .localVar decl => by simp! [decl.endsAt_outline]
  | .block body => by simp! [body.endsAt_outline]
  | .localType decl => by simp! [decl.endsAt_outline]
  | .expression _ e => by simp! [e.endsAt_outline]
  | .ifThen _ cond body => by simp! [cond.endsAt_outline, body.endsAt_outline]
  | .ifThenElse _ cond body alternative => by
    simp! [cond.endsAt_outline, body.endsAt_outline, alternative.endsAt_outline]
  | .whileLoop _ cond body => by simp! [cond.endsAt_outline, body.endsAt_outline]
  | .doLoop _ body cond => by simp! [body.endsAt_outline, cond.endsAt_outline]
  | .forLoop _ init cond update body => by
    simp! [endsAt_forInitOutlines init, endsAt_optionalOutlines cond, Expr.endsAt_outlines update,
      body.endsAt_outline]
  | .forEach _ var iterable body => by
    simp! [var.endsAt_outline, iterable.endsAt_outline, body.endsAt_outline]
  | .returning _ e => by simp! [endsAt_optionalOutlines e]
  | .breaking _ _ => by simp!
  | .continuing _ _ => by simp!
  | .yielding _ e => by simp! [e.endsAt_outline]
  | .labeled _ _ body => by simp! [body.endsAt_outline]
  | .throwing _ e => by simp! [e.endsAt_outline]
  | .trying _ _ resources body catches final => by
    simp! [endsAt_resourceOutlines resources, body.endsAt_outline, endsAt_catchOutlines catches,
      endsAt_blockOutlines final]
  | .switching _ selector _ cases => by simp! [selector.endsAt_outline, endsAt_caseOutlines cases]
  | .synchronizing _ lock body => by simp! [lock.endsAt_outline, body.endsAt_outline]
  | .asserting _ cond message => by simp! [cond.endsAt_outline, endsAt_optionalOutlines message]
  | .empty _ => by simp!

theorem endsAt_forInitOutlines :
    ∀ init : ForInit, outlinesEndAt offset (forInitOutlines init) = sitesEndAt offset (forInitSites init)
  | .absent => by simp!
  | .decl decl => by simp! [decl.endsAt_outline]
  | .exprs es => by simp! [Expr.endsAt_outlines es]

theorem endsAt_resourceOutlines : ∀ rs : List Resource,
    outlinesEndAt offset (resourceOutlines rs) = sitesEndAt offset (resourceSites rs)
  | [] => by simp!
  | .decl decl :: rs => by simp! [decl.endsAt_outline, endsAt_resourceOutlines rs]
  | .expr e :: rs => by simp! [e.endsAt_outline, endsAt_resourceOutlines rs]

theorem endsAt_catchOutlines : ∀ catches : List CatchClause,
    outlinesEndAt offset (catchOutlines catches) = sitesEndAt offset (catchSites catches)
  | [] => by simp!
  | .mk _ param body :: catches => by
    simp! [param.endsAt_outline, body.endsAt_outline, endsAt_catchOutlines catches]

theorem endsAt_caseOutlines : ∀ cases : List SwitchCase,
    outlinesEndAt offset (caseOutlines cases) = sitesEndAt offset (caseSites cases)
  | [] => by simp!
  | .mk _ labels _ body :: cases => by
    simp! [endsAt_labelOutlines labels, Stmt.endsAt_outlines body, endsAt_caseOutlines cases]

theorem endsAt_labelOutlines : ∀ labels : List CaseLabel,
    outlinesEndAt offset (labelOutlines labels) = sitesEndAt offset (labelSites labels)
  | [] => by simp!
  | .default _ :: labels => by simp! [endsAt_labelOutlines labels]
  | .values _ values :: labels => by
    simp! [Expr.endsAt_outlines values, endsAt_labelOutlines labels]
  | .pattern _ (.mk _ _ _ _) guard :: labels => by
    simp! [TypeRef.endsAt_outline, endsAt_optionalOutlines guard, endsAt_labelOutlines labels]

theorem Expr.endsAt_outlines :
    ∀ es : List Expr, outlinesEndAt offset (Expr.outlines es) = sitesEndAt offset (exprSites es)
  | [] => by simp!
  | e :: es => by simp! [e.endsAt_outline, Expr.endsAt_outlines es]

theorem endsAt_optionalOutlines : ∀ e : Option Expr,
    outlinesEndAt offset (optionalOutlines e) = sitesEndAt offset (optionalSites e)
  | none => by simp!
  | some e => by simp! [e.endsAt_outline]

theorem endsAt_dimOutlines : ∀ dims : List DimExpr,
    outlinesEndAt offset (dimOutlines dims) = sitesEndAt offset (dimSites dims)
  | [] => by simp!
  | .mk _ size :: dims => by simp! [endsAt_optionalOutlines size, endsAt_dimOutlines dims]

theorem Expr.endsAt_outline : ∀ e : Expr, e.outline.endsAt offset = sitesEndAt offset e.sites
  | .literal _ _ => by simp!
  | .name _ => by simp!
  | .this _ => by simp!
  | .super _ => by simp!
  | .fieldAccess _ target _ => by simp! [target.endsAt_outline]
  | .methodCall _ target _ _ _ _ args => by
    simp! [endsAt_optionalOutlines target, TypeRef.endsAt_outlines, Expr.endsAt_outlines args]
  | .newObject _ outer _ _ args body => by
    simp! [endsAt_optionalOutlines outer, TypeRef.endsAt_outline, Expr.endsAt_outlines args,
      endsAt_bodyOutlines body]
  | .newArray _ _ dims _ init => by
    simp! [TypeRef.endsAt_outline, endsAt_dimOutlines dims, Expr.endsAt_outlines init]
  | .arrayInit _ items => by simp! [Expr.endsAt_outlines items]
  | .arrayAccess _ array index => by simp! [array.endsAt_outline, index.endsAt_outline]
  | .unary _ _ operand => by simp! [operand.endsAt_outline]
  | .binary _ _ lhs rhs => by simp! [lhs.endsAt_outline, rhs.endsAt_outline]
  | .assign _ _ target value => by simp! [target.endsAt_outline, value.endsAt_outline]
  | .conditional _ cond yes no => by
    simp! [cond.endsAt_outline, yes.endsAt_outline, no.endsAt_outline]
  | .instanceOf _ operand _ => by simp! [operand.endsAt_outline, TypeRef.endsAt_outline]
  | .instanceOfPattern _ operand (.mk _ _ _ _) => by
    simp! [operand.endsAt_outline, TypeRef.endsAt_outline]
  | .cast _ _ operand => by simp! [operand.endsAt_outline, TypeRef.endsAt_outline]
  | .paren _ inner => by simp! [inner.endsAt_outline]
  | .classLiteral _ _ => by simp! [TypeRef.endsAt_outline]
  | .lambdaExpr _ _ params _ body => by simp! [Param.endsAt_outlines params, body.endsAt_outline]
  | .lambdaBlock _ _ params _ body => by simp! [Param.endsAt_outlines params, body.endsAt_outline]
  | .methodRef _ target none => by simp! [target.endsAt_outline]
  | .methodRef _ target (some _) => by simp! [target.endsAt_outline]
  | .switching _ selector _ cases => by simp! [selector.endsAt_outline, endsAt_caseOutlines cases]
  | .annotated use => by simp! [use.endsAt_outline]
  | .type _ => by simp! [TypeRef.endsAt_outline]

end

/-- Operators are cut where a list in angle brackets ends that the outline of the file has. -/
theorem CompilationUnit.mem_splits {unit : CompilationUnit} :
    offset ∈ unit.splits ↔ ∃ site ∈ unit.sites, site.outlined = true ∧
      site.closer? = some offset := by
  have htypes : ∀ decls : List TypeDecl,
      outlinesEndAt offset (decls.map TypeDecl.outline) = sitesEndAt offset (declSites decls) := by
    intro decls
    induction decls with
    | nil => rfl
    | cons decl decls ih => simp [declSites, ih, decl.endsAt_outline]
  have himports : ∀ is : List ImportDecl,
      sitesEndAt offset (is.flatMap ImportDecl.sites) = false := by
    intro is
    induction is with
    | nil => rfl
    | cons i is ih =>
      rw [List.flatMap_cons, sitesEndAt_append, ih, ImportDecl.sites]
      split <;> rfl
  have hends : outlinesEndAt offset unit.outlines = sitesEndAt offset unit.sites := by
    obtain ⟨range, package, imports, types⟩ := unit
    cases package with
    | none => simp [CompilationUnit.outlines, CompilationUnit.sites, himports, htypes]
    | some p =>
      simp [CompilationUnit.outlines, CompilationUnit.sites, PackageDecl.sites, himports, htypes,
        AnnotationUse.endsAt_outlines]
  have hsplits : offset ∈ unit.splits ↔ outlinesEndAt offset unit.outlines = true := by
    simp [CompilationUnit.splits, outlinesEndAt, Part.endsAt]
  rw [hsplits, hends]
  simp [sitesEndAt, Site.endsAt]

end Ast

end JavaAnalysis
