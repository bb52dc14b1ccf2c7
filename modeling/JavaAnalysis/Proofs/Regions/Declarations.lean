import JavaAnalysis.Proofs.Layout.Contained
import JavaAnalysis.Proofs.Regions.Ast

/-!
# Declarations among regions and shapes

The declarations of variables among the regions of a file are those that are laid when its nodes are
made. Main statement: `CompilationUnit.declared_regions`.
-/

set_option autoImplicit false
set_option linter.dupNamespace false

namespace JavaAnalysis

namespace Shape

@[simp] theorem declarations_ident (r : TextRange) (use : Option Nat) :
    (ident r use).declarations = [] := by simp only [declarations]

@[simp] theorem declarations_node (spec : NodeSpec) (children : List Shape) :
    (node spec children).declarations = declarationsAmong children := by simp only [declarations]

@[simp] theorem declarations_plain (kind : NodeKind) (r : TextRange) (children : List Shape) :
    (plain kind r children).declarations = declarationsAmong children := by simp [plain]

@[simp] theorem declarations_leaf (kind : NodeKind) (r : TextRange) :
    (leaf kind r).declarations = [] := by simp [leaf]

@[simp] theorem declarations_headed (kind : NodeKind) (r : TextRange) (word : TokenKind)
    (children : List Shape) :
    (headed kind r word children).declarations = declarationsAmong children := by simp [headed]

@[simp] theorem declarations_name (n : Ast.Ident) : (name n).declarations = [] := by simp [name]

@[simp] theorem declarations_nameUse (n : Ast.Ident) : (nameUse n).declarations = [] := by
  simp [nameUse]

@[simp] theorem declarations_labeled (r : TextRange) (label : Ast.Ident) (inside : List Shape) :
    (labeled r label inside).declarations = declarationsAmong inside := by simp only [declarations]

@[simp] theorem declarations_jump (kind : NodeKind) (r : TextRange) (label : Option Ast.Ident) :
    (jump kind r label).declarations = [] := by simp only [declarations]

end Shape

namespace Ast

/-! ## Shapes without declarations -/

theorem declarations_selectShape (names : List Ident) (start : Nat) (use : Option Nat) :
    ∀ selected : Shape, selected.declarations = [] →
      (selectShape start use selected names).declarations = [] := by
  induction names with
  | nil => exact fun _ h => h
  | cons name names ih =>
    intro selected h
    cases names with
    | nil => simp [selectShape, h]
    | cons next names => exact ih _ (by simp [h])

@[simp] theorem QualifiedName.declarations_shape (name : QualifiedName) (isUse : Bool) :
    (name.shape isUse).declarations = [] := by
  unfold QualifiedName.shape
  dsimp only
  split
  · simp
  · simp
  · exact declarations_selectShape _ _ _ _ (by simp)

mutual

@[simp] theorem TypeRef.declarations_shape : ∀ t : TypeRef, t.shape.declarations = []
  | .primitive _ _ => by simp [TypeRef.shape]
  | .inferred _ => by simp [TypeRef.shape]
  | .named _ none _ none args => by simp [TypeRef.shape, TypeRef.declarations_shapes args]
  | .named _ none _ (some _) args => by simp [TypeRef.shape, TypeRef.declarations_shapes args]
  | .named _ (some q) _ none args => by
    simp [TypeRef.shape, q.declarations_shape, TypeRef.declarations_shapes args]
  | .named _ (some q) _ (some _) args => by
    simp [TypeRef.shape, q.declarations_shape, TypeRef.declarations_shapes args]
  | .array _ element _ => by simp [TypeRef.shape, element.declarations_shape]
  | .wildcard _ => by simp [TypeRef.shape]
  | .bounded _ _ bound => by simp [TypeRef.shape, bound.declarations_shape]
  | .union _ ts => by simp [TypeRef.shape, TypeRef.declarations_shapes ts]
  | .intersection _ ts => by simp [TypeRef.shape, TypeRef.declarations_shapes ts]

@[simp] theorem TypeRef.declarations_shapes :
    ∀ ts : List TypeRef, declarationsAmong (TypeRef.shapes ts) = []
  | [] => by simp [TypeRef.shapes]
  | t :: ts => by simp [TypeRef.shapes, t.declarations_shape, TypeRef.declarations_shapes ts]

end

@[simp] theorem declarations_listShapes (kind : NodeKind) (r : Option TextRange)
    (items : List Shape) :
    declarationsAmong (listShapes kind r items) = declarationsAmong items := by
  cases r <;> simp [listShapes]

@[simp] theorem declarations_typeArgsShapes (r : Option TextRange) (args : List TypeRef) :
    declarationsAmong (typeArgsShapes r args) = [] := by simp [typeArgsShapes]

@[simp] theorem declarations_clauseShapes (kind : ClauseKind) (word : TokenKind)
    (ts : List TypeRef) : declarationsAmong (clauseShapes kind word ts) = [] := by
  unfold clauseShapes
  split <;> simp [Shape.declarations]

@[simp] theorem declarations_bracketShapes (brackets : List TextRange) :
    declarationsAmong (bracketShapes brackets) = [] := by
  induction brackets with
  | nil => simp [bracketShapes]
  | cons b bs ih => simpa [bracketShapes] using ih

@[simp] theorem declarations_modifierShapes (ms : List Modifier) (markers : List Shape) :
    declarationsAmong (modifierShapes ms markers) = declarationsAmong markers := by
  simp [modifierShapes]

@[simp] theorem declarations_exprListShapes (kind : NodeKind) (es : List Expr) :
    declarationsAmong (exprListShapes kind es (Expr.shapes es)) =
      declarationsAmong (Expr.shapes es) := by
  cases es with
  | nil => simp! [exprListShapes]
  | cons e es => simp [exprListShapes, List.getLast?_cons]

@[simp] theorem declarations_typedShape (spec : NodeSpec) (before : List Shape)
    (type : Option TypeRef) (ellipsis : Option TextRange) (after : List Shape) :
    (typedShape spec before type ellipsis after).declarations =
      declarationsAmong before ++ declarationsAmong after := by
  cases type <;> simp [typedShape, Shape.declarations]

/-- The shape of a part that is a declaration of variables. -/
@[simp] def Part.declared : Part → List Shape
  | .variables d => [d.shape]
  | _ => []

namespace Region

/-- The declaration of variables that a region is, if it is one. -/
def variables? : Region → Option VarDecl
  | part (.variables d) _ => some d
  | _ => none

/-- The shapes of the declarations among a region and those inside it. -/
def declared (r : Region) : List Shape := (r.all.filterMap variables?).map VarDecl.shape

def declaredOf (rs : List Region) : List Shape :=
  ((allOf rs).filterMap variables?).map VarDecl.shape

@[simp] theorem declaredOf_nil : declaredOf [] = [] := by simp [declaredOf, allOf]

@[simp] theorem declaredOf_cons (r : Region) (rs : List Region) :
    declaredOf (r :: rs) = r.declared ++ declaredOf rs := by
  simp [declaredOf, declared, allOf]

@[simp] theorem declaredOf_append (as bs : List Region) :
    declaredOf (as ++ bs) = declaredOf as ++ declaredOf bs := by
  induction as with
  | nil => simp
  | cons a as ih => simp [ih]

@[simp] theorem declared_part (p : Part) (rs : List Region) :
    (part p rs).declared = p.declared ++ declaredOf rs := by
  cases p <;> simp [declared, all, variables?, declaredOf, List.filterMap_cons]

@[simp] theorem declared_detail (r : TextRange) (rs : List Region) :
    (detail r rs).declared = declaredOf rs := by
  rw [declared, all, List.filterMap_cons_none rfl, declaredOf]

@[simp] theorem declared_patternModifiers (r : TextRange) (rs : List Region) :
    (patternModifiers r rs).declared = declaredOf rs := by
  rw [declared, all, List.filterMap_cons_none rfl, declaredOf]

@[simp] theorem declared_leaf (r : TextRange) : (leaf r).declared = [] := by simp [leaf]

@[simp] theorem declaredOf_map_leaf (ranges : List TextRange) :
    declaredOf (ranges.map leaf) = [] := by
  induction ranges with
  | nil => simp
  | cons r rs ih => simp [ih]

@[simp] theorem declaredOf_listed (range? : Option TextRange) (rs : List Region) :
    declaredOf (listed range? rs) = declaredOf rs := by
  cases range? <;> simp [listed]

@[simp] theorem declaredOf_modifierRegions (ms : List Modifier) (rs : List Region) :
    declaredOf (modifierRegions ms rs) = declaredOf rs := by
  simp [modifierRegions]

@[simp] theorem declaredOf_patternModifierRegions (ms : List Modifier) :
    declaredOf (patternModifierRegions ms (modifierItems ms)) = declaredOf (modifierItems ms) := by
  cases ms with
  | nil => simp! [patternModifierRegions, Modifier.rangeOfAll?]
  | cons m ms => simp [patternModifierRegions, Modifier.rangeOfAll?]

@[simp] theorem declared_ident (name : Ident) : name.region.declared = [] := by
  simp [Ident.region]

@[simp] theorem declaredOf_idents (names : List Ident) :
    declaredOf (names.map Ident.region) = [] := by
  induction names with
  | nil => simp
  | cons n ns ih => simp [ih]

@[simp] theorem declared_qualifiedName (name : QualifiedName) : name.region.declared = [] := by
  simp [QualifiedName.region]

end Region

mutual

@[simp] theorem TypeRef.declared_region : ∀ t : TypeRef, t.region.declared = []
  | .primitive _ _ => by simp [TypeRef.region]
  | .inferred _ => by simp [TypeRef.region]
  | .named _ none _ _ args => by simp [TypeRef.region, TypeRef.declared_regions args]
  | .named _ (some q) _ _ args => by
    simp [TypeRef.region, q.declared_region, TypeRef.declared_regions args]
  | .array _ element _ => by simp [TypeRef.region, element.declared_region]
  | .wildcard _ => by simp [TypeRef.region]
  | .bounded _ _ bound => by simp [TypeRef.region, bound.declared_region]
  | .union _ ts => by simp [TypeRef.region, TypeRef.declared_regions ts]
  | .intersection _ ts => by simp [TypeRef.region, TypeRef.declared_regions ts]

@[simp] theorem TypeRef.declared_regions :
    ∀ ts : List TypeRef, Region.declaredOf (TypeRef.regions ts) = []
  | [] => by simp [TypeRef.regions]
  | t :: ts => by simp [TypeRef.regions, t.declared_region, TypeRef.declared_regions ts]

end

/-! ## Declarations, statements and expressions -/

mutual

theorem AnnotationUse.declared_region :
    ∀ use : AnnotationUse, use.region.declared = use.shape.declarations
  | .mk _ _ _ args => by simp! [declared_elementRegions args]

theorem declared_elementRegions :
    ∀ args : List ElementValue, Region.declaredOf (elementRegions args) =
      declarationsAmong (elementShapes args)
  | [] => by simp!
  | .mk _ none value :: args => by simp! [value.declared_region, declared_elementRegions args]
  | .mk _ (some _) value :: args => by simp! [value.declared_region, declared_elementRegions args]

theorem AnnotationUse.declared_regions :
    ∀ uses : List AnnotationUse, Region.declaredOf (AnnotationUse.regions uses) =
      declarationsAmong (AnnotationUse.shapes uses)
  | [] => by simp!
  | use :: uses => by simp! [use.declared_region, AnnotationUse.declared_regions uses]

theorem declared_modifierItems :
    ∀ ms : List Modifier, Region.declaredOf (modifierItems ms) =
      declarationsAmong (markerShapes ms)
  | [] => by simp!
  | .word _ _ :: ms => by simp! [declared_modifierItems ms]
  | .annotated use :: ms => by simp! [use.declared_region, declared_modifierItems ms]

theorem declared_typeParamRegions :
    ∀ params : List TypeParam, Region.declaredOf (typeParamRegions params) =
      declarationsAmong (typeParamShapes params)
  | [] => by simp!
  | .mk _ marks _ bounds :: params => by
    simp! [AnnotationUse.declared_regions marks, TypeRef.declared_regions,
      declared_typeParamRegions params]

theorem TypeDecl.declared_region :
    ∀ decl : TypeDecl, decl.region.declared = decl.shape.declarations
  | .mk _ _ ms _ _ typeParams _ components _ _ _ (.mk _ constants members) => by
    simp! [declared_modifierItems ms, declared_typeParamRegions typeParams,
      Param.declared_regions components, TypeRef.declared_regions,
      declared_constantRegions constants, Member.declared_regions members]

theorem declared_constantRegions :
    ∀ constants : List EnumConstant, Region.declaredOf (constantRegions constants) =
      declarationsAmong (constantShapes constants)
  | [] => by simp!
  | .mk _ ms _ _ args body :: constants => by
    simp! [declared_modifierItems ms, Expr.declared_regions args, declared_bodyRegions body,
      declared_constantRegions constants]

theorem declared_bodyRegions :
    ∀ body : Option ClassBody, Region.declaredOf (bodyRegions body) =
      declarationsAmong (anonymousShapes body)
  | none => by simp!
  | some (.mk _ constants members) => by
    simp! [declared_constantRegions constants, Member.declared_regions members]

theorem Member.declared_regions :
    ∀ ms : List Member, Region.declaredOf (Member.regions ms) =
      declarationsAmong (Member.shapes ms)
  | [] => by simp!
  | .field decl :: ms => by simp! [decl.declared_region, Member.declared_regions ms]
  | .method decl :: ms => by simp! [decl.declared_region, Member.declared_regions ms]
  | .initializer _ _ body :: ms => by simp! [body.declared_region, Member.declared_regions ms]
  | .type decl :: ms => by simp! [decl.declared_region, Member.declared_regions ms]

theorem VarDecl.declared_region : ∀ decl : VarDecl, decl.region.declared = decl.shape.declarations
  | .mk _ ms type fragments => by
    simp! [Shape.declarations, declared_modifierItems ms, declared_fragmentRegions fragments]

theorem declared_fragmentRegions :
    ∀ fragments : List VarFragment, Region.declaredOf (fragmentRegions fragments) =
      declarationsInside (fragmentShapes fragments)
  | [] => by simp! [declarationsInside]
  | .mk _ _ _ init :: fragments => by
    simp! [declarationsInside, declared_optionalRegions init, declared_fragmentRegions fragments]

theorem MethodDecl.declared_region :
    ∀ decl : MethodDecl, decl.region.declared = decl.shape.declarations
  | .mk _ ms _ typeParams _ _ _ params _ _ value body => by
    simp! [declared_modifierItems ms, declared_typeParamRegions typeParams,
      TypeRef.declared_regions, Param.declared_regions params, declared_optionalRegions value,
      declared_blockRegions body]

theorem Param.declared_region :
    ∀ p : Param, p.region.declared = p.shape.declarations
  | .mk _ ms _ ellipsis _ _ => by simp! [declared_modifierItems ms, TypeRef.declared_regions]

theorem Param.declared_regions :
    ∀ ps : List Param, Region.declaredOf (Param.regions ps) =
      declarationsAmong (Param.shapes ps)
  | [] => by simp!
  | p :: ps => by simp! [p.declared_region, Param.declared_regions ps]

theorem Block.declared_region :
    ∀ b : Block, b.region.declared = b.shape.declarations
  | .mk _ stmts => by simp! [Stmt.declared_regions stmts]

theorem declared_blockRegions :
    ∀ b : Option Block, Region.declaredOf (blockRegions b) =
      declarationsAmong (blockShapes b)
  | none => by simp!
  | some b => by simp! [b.declared_region]

theorem Stmt.declared_regions :
    ∀ ss : List Stmt, Region.declaredOf (Stmt.regions ss) =
      declarationsAmong (Stmt.shapes ss)
  | [] => by simp!
  | s :: ss => by simp! [s.declared_region, Stmt.declared_regions ss]

theorem Stmt.declared_region :
    ∀ s : Stmt, s.region.declared = s.shape.declarations
  | .block body => by simp! [body.declared_region]
  | .localVar decl => by simp! [decl.declared_region]
  | .localType decl => by simp! [decl.declared_region]
  | .expression _ e => by simp! [e.declared_region]
  | .ifThen _ cond body => by simp! [cond.declared_region, body.declared_region]
  | .ifThenElse _ cond body alternative => by
    simp! [cond.declared_region, body.declared_region, alternative.declared_region]
  | .whileLoop _ cond body => by simp! [cond.declared_region, body.declared_region]
  | .doLoop _ body cond => by simp! [body.declared_region, cond.declared_region]
  | .forLoop _ init cond update body => by
    simp! [declared_forInitRegions init, declared_optionalRegions cond,
      Expr.declared_regions update, body.declared_region]
  | .forEach _ var iterable body => by
    simp! [var.declared_region, iterable.declared_region, body.declared_region]
  | .returning _ e => by simp! [declared_optionalRegions e]
  | .breaking _ _ => by simp!
  | .continuing _ _ => by simp!
  | .yielding _ e => by simp! [e.declared_region]
  | .labeled _ _ body => by simp! [body.declared_region]
  | .throwing _ e => by simp! [e.declared_region]
  | .trying _ _ resources body catches final => by
    simp! [declared_resourceRegions resources, body.declared_region, declared_catchRegions catches,
      declared_blockRegions final]
  | .switching _ selector _ cases => by simp! [selector.declared_region, declared_caseRegions cases]
  | .synchronizing _ lock body => by simp! [lock.declared_region, body.declared_region]
  | .asserting _ cond message => by simp! [cond.declared_region, declared_optionalRegions message]
  | .empty _ => by simp!

theorem declared_forInitRegions :
    ∀ init : ForInit, Region.declaredOf (forInitRegions init) =
      declarationsAmong (forInitShapes init)
  | .absent => by simp!
  | .decl decl => by simp! [decl.declared_region]
  | .exprs es => by simp! [Expr.declared_regions es]

theorem declared_resourceRegions :
    ∀ rs : List Resource, Region.declaredOf (resourceRegions rs) =
      declarationsAmong (resourceShapes rs)
  | [] => by simp!
  | .decl decl :: rs => by simp! [decl.declared_region, declared_resourceRegions rs]
  | .expr e :: rs => by simp! [e.declared_region, declared_resourceRegions rs]

theorem declared_catchRegions :
    ∀ catches : List CatchClause, Region.declaredOf (catchRegions catches) =
      declarationsAmong (catchShapes catches)
  | [] => by simp!
  | .mk _ param body :: catches => by
    simp! [param.declared_region, body.declared_region, declared_catchRegions catches]

theorem declared_caseRegions :
    ∀ cases : List SwitchCase, Region.declaredOf (caseRegions cases) =
      declarationsAmong (caseShapes cases)
  | [] => by simp!
  | .mk _ labels _ body :: cases => by
    simp! [declared_labelRegions labels, Stmt.declared_regions body, declared_caseRegions cases]

theorem declared_labelRegions :
    ∀ labels : List CaseLabel, Region.declaredOf (labelRegions labels) =
      declarationsAmong (labelShapes labels)
  | [] => by simp!
  | .default _ :: labels => by simp! [declared_labelRegions labels]
  | .values _ values :: labels => by
    simp! [Expr.declared_regions values, declared_labelRegions labels]
  | .pattern _ p guard :: labels => by
    simp! [p.declared_region, declared_optionalRegions guard, declared_labelRegions labels]

theorem Pattern.declared_region : ∀ p : Pattern, p.region.declared = p.shape.declarations
  | .mk _ ms type _ => by simp! [Shape.declarations, declared_modifierItems ms]

theorem declared_optionalRegions :
    ∀ e : Option Expr, Region.declaredOf (optionalRegions e) =
      declarationsAmong (optionalShapes e)
  | none => by simp!
  | some e => by simp! [e.declared_region]

theorem declared_dimRegions :
    ∀ dims : List DimExpr, Region.declaredOf (dimRegions dims) =
      declarationsAmong (dimShapes dims)
  | [] => by simp!
  | .mk _ size :: dims => by simp! [declared_optionalRegions size, declared_dimRegions dims]

theorem Expr.declared_regions :
    ∀ es : List Expr, Region.declaredOf (Expr.regions es) =
      declarationsAmong (Expr.shapes es)
  | [] => by simp!
  | e :: es => by simp! [e.declared_region, Expr.declared_regions es]

theorem Expr.declared_region :
    ∀ e : Expr, e.region.declared = e.shape.declarations
  | .literal _ _ => by simp!
  | .name _ => by simp!
  | .fieldAccess _ target _ => by simp! [target.declared_region]
  | .methodCall _ none _ _ _ _ args => by simp! [Expr.declared_regions args]
  | .methodCall _ (some target) _ _ _ _ args => by
    simp! [target.declared_region, Expr.declared_regions args]
  | .newObject _ outer type _ args body => by
    simp! [declared_optionalRegions outer, type.declared_region, Expr.declared_regions args,
      declared_bodyRegions body]
  | .newArray _ element dims _ init => by
    simp! [declared_dimRegions dims, Expr.declared_regions init]
  | .arrayInit _ items => by simp! [Expr.declared_regions items]
  | .arrayAccess _ array index => by simp! [array.declared_region, index.declared_region]
  | .unary _ _ operand => by simp! [operand.declared_region]
  | .binary _ _ lhs rhs => by simp! [lhs.declared_region, rhs.declared_region]
  | .assign _ _ target value => by simp! [target.declared_region, value.declared_region]
  | .conditional _ cond yes no => by
    simp! [cond.declared_region, yes.declared_region, no.declared_region]
  | .instanceOf _ operand type => by simp! [operand.declared_region]
  | .instanceOfPattern _ operand p => by simp! [operand.declared_region, p.declared_region]
  | .cast _ type operand => by simp! [operand.declared_region]
  | .paren _ inner => by simp! [inner.declared_region]
  | .this _ => by simp!
  | .super _ => by simp!
  | .classLiteral _ type => by simp!
  | .lambdaExpr _ _ params _ body => by simp! [Param.declared_regions params, body.declared_region]
  | .lambdaBlock _ _ params _ body => by simp! [Param.declared_regions params, body.declared_region]
  | .methodRef _ target none => by simp! [target.declared_region]
  | .methodRef _ target (some _) => by simp! [target.declared_region]
  | .switching _ selector _ cases => by simp! [selector.declared_region, declared_caseRegions cases]
  | .annotated use => by simp! [use.declared_region]
  | .type type => by simp!

end

theorem TypeDecl.declared_all (types : List TypeDecl) :
    Region.declaredOf (types.map TypeDecl.region) = declarationsAmong (types.map TypeDecl.shape) := by
  induction types with
  | nil => simp
  | cons t ts ih => simp [t.declared_region, ih]

theorem ImportDecl.declared_all (imports : List ImportDecl) :
    Region.declaredOf (imports.map ImportDecl.region) = [] ∧
      declarationsAmong (imports.map ImportDecl.shape) = [] := by
  induction imports with
  | nil => simp
  | cons i is ih => simp [ImportDecl.region, ImportDecl.shape, ih]

/-- The declarations of variables in a file are those that are laid with it. -/
theorem CompilationUnit.declared_regions (unit : CompilationUnit) :
    Region.declaredOf unit.regions = declarationsAmong unit.shapes := by
  obtain ⟨range, package, imports, types⟩ := unit
  have himports := ImportDecl.declared_all imports
  cases package with
  | none =>
    simp [CompilationUnit.regions, CompilationUnit.shapes, himports, TypeDecl.declared_all]
  | some p =>
    simp [CompilationUnit.regions, CompilationUnit.shapes, PackageDecl.region, PackageDecl.shape,
      himports, TypeDecl.declared_all, AnnotationUse.declared_regions]

theorem CompilationUnit.shape_mem_declarations {unit : CompilationUnit} {d : VarDecl}
    {inside : List Region} (h : .part (.variables d) inside ∈ Region.allOf unit.regions) :
    d.shape ∈ declarationsAmong unit.shapes := by
  rw [← unit.declared_regions]
  exact List.mem_map_of_mem (List.mem_filterMap.2 ⟨_, h, rfl⟩)

end Ast

end JavaAnalysis
