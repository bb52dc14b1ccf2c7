import JavaAnalysis.Ast.Range

/-!
# The outline of a file

The larger parts of the abstract syntax as one tree, in the order in which they are written where
there is one. Analyses that look at every part of a file are folds over its outline.
-/

set_option autoImplicit false

namespace JavaAnalysis.Ast

/-- A part of a file that an analysis may look at. -/
inductive Part where
  | type (decl : TypeDecl)
  | member (member : Member)
  | variables (decl : VarDecl)
  | method (decl : MethodDecl)
  | param (param : Param)
  | annotated (use : AnnotationUse)
  | block (block : Block)
  | stmt (stmt : Stmt)
  | expr (expr : Expr)
  | typeRef (type : TypeRef)

/-- A part with the parts inside it. -/
inductive Outline where
  | mk (part : Part) (inside : List Outline)

mutual

def TypeRef.outline (t : TypeRef) : Outline :=
  match t with
  | .primitive _ _ => .mk (.typeRef t) []
  | .inferred _ => .mk (.typeRef t) []
  | .named _ none _ _ args => .mk (.typeRef t) (TypeRef.outlines args)
  | .named _ (some q) _ _ args => .mk (.typeRef t) (q.outline :: TypeRef.outlines args)
  | .array _ element _ => .mk (.typeRef t) [element.outline]
  | .wildcard _ => .mk (.typeRef t) []
  | .bounded _ _ bound => .mk (.typeRef t) [bound.outline]
  | .union _ types => .mk (.typeRef t) (TypeRef.outlines types)
  | .intersection _ types => .mk (.typeRef t) (TypeRef.outlines types)

def TypeRef.outlines : List TypeRef → List Outline
  | [] => []
  | t :: ts => t.outline :: TypeRef.outlines ts

end

mutual

def AnnotationUse.outline (use : AnnotationUse) : Outline :=
  match use with
  | .mk _ _ _ args => .mk (.annotated use) (elementOutlines args)

def elementOutlines : List ElementValue → List Outline
  | [] => []
  | .mk _ _ value :: args => value.outline :: elementOutlines args

def AnnotationUse.outlines : List AnnotationUse → List Outline
  | [] => []
  | use :: uses => use.outline :: AnnotationUse.outlines uses

def modifierOutlines : List Modifier → List Outline
  | [] => []
  | .word _ _ :: modifiers => modifierOutlines modifiers
  | .annotated use :: modifiers => use.outline :: modifierOutlines modifiers

def typeParamOutlines : List TypeParam → List Outline
  | [] => []
  | .mk _ annotations _ bounds :: params =>
    AnnotationUse.outlines annotations ++ TypeRef.outlines bounds ++ typeParamOutlines params

def TypeDecl.outline (decl : TypeDecl) : Outline :=
  match decl with
  | .mk _ _ modifiers _ _ typeParams _ components supers interfaces permitted
      (.mk _ constants members) =>
    .mk (.type decl) (modifierOutlines modifiers ++ typeParamOutlines typeParams ++
      Param.outlines components ++ TypeRef.outlines supers ++ TypeRef.outlines interfaces ++
      TypeRef.outlines permitted ++ constantOutlines constants ++ Member.outlines members)

def constantOutlines : List EnumConstant → List Outline
  | [] => []
  | .mk _ modifiers _ _ args body :: constants =>
    modifierOutlines modifiers ++ Expr.outlines args ++ bodyOutlines body ++
      constantOutlines constants

def bodyOutlines : Option ClassBody → List Outline
  | none => []
  | some (.mk _ constants members) => constantOutlines constants ++ Member.outlines members

def Member.outline (member : Member) : Outline :=
  match member with
  | .field decl => .mk (.member member) [decl.outline]
  | .method decl => .mk (.member member) [decl.outline]
  | .initializer _ _ body => .mk (.member member) [body.outline]
  | .type decl => .mk (.member member) [decl.outline]

def Member.outlines : List Member → List Outline
  | [] => []
  | m :: ms => m.outline :: Member.outlines ms

def VarDecl.outline (decl : VarDecl) : Outline :=
  match decl with
  | .mk _ modifiers type fragments =>
    .mk (.variables decl) (modifierOutlines modifiers ++ type.outline :: initOutlines fragments)

def initOutlines : List VarFragment → List Outline
  | [] => []
  | .mk _ _ _ init :: fragments => optionalOutlines init ++ initOutlines fragments

def MethodDecl.outline (decl : MethodDecl) : Outline :=
  match decl with
  | .mk _ modifiers _ typeParams returnType _ _ params _ thrown defaultValue body =>
    .mk (.method decl) (modifierOutlines modifiers ++ typeParamOutlines typeParams ++
      TypeRef.outlines returnType.toList ++ Param.outlines params ++ TypeRef.outlines thrown ++
      optionalOutlines defaultValue ++ blockOutlines body)

def Param.outline (param : Param) : Outline :=
  match param with
  | .mk _ modifiers type _ _ _ =>
    .mk (.param param) (modifierOutlines modifiers ++ TypeRef.outlines type.toList)

def Param.outlines : List Param → List Outline
  | [] => []
  | p :: ps => p.outline :: Param.outlines ps

def Block.outline (block : Block) : Outline :=
  match block with
  | .mk _ stmts => .mk (.block block) (Stmt.outlines stmts)

def blockOutlines : Option Block → List Outline
  | none => []
  | some block => [block.outline]

def Stmt.outlines : List Stmt → List Outline
  | [] => []
  | s :: ss => s.outline :: Stmt.outlines ss

def Stmt.outline (s : Stmt) : Outline :=
  match s with
  | .block body => .mk (.stmt s) [body.outline]
  | .localVar decl => .mk (.stmt s) [decl.outline]
  | .localType decl => .mk (.stmt s) [decl.outline]
  | .expression _ e => .mk (.stmt s) [e.outline]
  | .ifThen _ cond body => .mk (.stmt s) [cond.outline, body.outline]
  | .ifThenElse _ cond body alternative =>
    .mk (.stmt s) [cond.outline, body.outline, alternative.outline]
  | .whileLoop _ cond body => .mk (.stmt s) [cond.outline, body.outline]
  | .doLoop _ body cond => .mk (.stmt s) [body.outline, cond.outline]
  | .forLoop _ init cond update body =>
    .mk (.stmt s) (forInitOutlines init ++ optionalOutlines cond ++ Expr.outlines update ++
      [body.outline])
  | .forEach _ var iterable body => .mk (.stmt s) [var.outline, iterable.outline, body.outline]
  | .returning _ e => .mk (.stmt s) (optionalOutlines e)
  | .breaking _ _ => .mk (.stmt s) []
  | .continuing _ _ => .mk (.stmt s) []
  | .yielding _ e => .mk (.stmt s) [e.outline]
  | .labeled _ _ body => .mk (.stmt s) [body.outline]
  | .throwing _ e => .mk (.stmt s) [e.outline]
  | .trying _ _ resources body catches final =>
    .mk (.stmt s) (resourceOutlines resources ++ body.outline :: catchOutlines catches ++
      blockOutlines final)
  | .switching _ selector _ cases => .mk (.stmt s) (selector.outline :: caseOutlines cases)
  | .synchronizing _ lock body => .mk (.stmt s) [lock.outline, body.outline]
  | .asserting _ cond message => .mk (.stmt s) (cond.outline :: optionalOutlines message)
  | .empty _ => .mk (.stmt s) []

def forInitOutlines : ForInit → List Outline
  | .absent => []
  | .decl decl => [decl.outline]
  | .exprs es => Expr.outlines es

def resourceOutlines : List Resource → List Outline
  | [] => []
  | .decl decl :: resources => decl.outline :: resourceOutlines resources
  | .expr e :: resources => e.outline :: resourceOutlines resources

def catchOutlines : List CatchClause → List Outline
  | [] => []
  | .mk _ param body :: catches => param.outline :: body.outline :: catchOutlines catches

def caseOutlines : List SwitchCase → List Outline
  | [] => []
  | .mk _ labels _ body :: cases =>
    labelOutlines labels ++ Stmt.outlines body ++ caseOutlines cases

def labelOutlines : List CaseLabel → List Outline
  | [] => []
  | .default _ :: labels => labelOutlines labels
  | .values _ values :: labels => Expr.outlines values ++ labelOutlines labels
  | .pattern _ (.mk _ _ type _) guard :: labels =>
    type.outline :: optionalOutlines guard ++ labelOutlines labels

def optionalOutlines : Option Expr → List Outline
  | none => []
  | some e => [e.outline]

def dimOutlines : List DimExpr → List Outline
  | [] => []
  | .mk _ size :: dims => optionalOutlines size ++ dimOutlines dims

def Expr.outlines : List Expr → List Outline
  | [] => []
  | e :: es => e.outline :: Expr.outlines es

def Expr.outline (e : Expr) : Outline :=
  match e with
  | .literal _ _ => .mk (.expr e) []
  | .name _ => .mk (.expr e) []
  | .fieldAccess _ target _ => .mk (.expr e) [target.outline]
  | .methodCall _ target _ typeArgs _ _ args =>
    .mk (.expr e) (optionalOutlines target ++ TypeRef.outlines typeArgs ++ Expr.outlines args)
  | .newObject _ outer type _ args body =>
    .mk (.expr e) (optionalOutlines outer ++ type.outline :: Expr.outlines args ++
      bodyOutlines body)
  | .newArray _ element dims _ init =>
    .mk (.expr e) (element.outline :: dimOutlines dims ++ Expr.outlines init)
  | .arrayInit _ items => .mk (.expr e) (Expr.outlines items)
  | .arrayAccess _ array index => .mk (.expr e) [array.outline, index.outline]
  | .unary _ _ operand => .mk (.expr e) [operand.outline]
  | .binary _ _ lhs rhs => .mk (.expr e) [lhs.outline, rhs.outline]
  | .assign _ _ target value => .mk (.expr e) [target.outline, value.outline]
  | .conditional _ cond yes no => .mk (.expr e) [cond.outline, yes.outline, no.outline]
  | .instanceOf _ operand type => .mk (.expr e) [operand.outline, type.outline]
  | .instanceOfPattern _ operand (.mk _ _ type _) =>
    .mk (.expr e) [operand.outline, type.outline]
  | .cast _ type operand => .mk (.expr e) [type.outline, operand.outline]
  | .paren _ inner => .mk (.expr e) [inner.outline]
  | .this _ => .mk (.expr e) []
  | .super _ => .mk (.expr e) []
  | .classLiteral _ type => .mk (.expr e) [type.outline]
  | .lambdaExpr _ _ params _ body => .mk (.expr e) (Param.outlines params ++ [body.outline])
  | .lambdaBlock _ _ params _ body => .mk (.expr e) (Param.outlines params ++ [body.outline])
  | .methodRef _ target _ => .mk (.expr e) [target.outline]
  | .switching _ selector _ cases => .mk (.expr e) (selector.outline :: caseOutlines cases)
  | .annotated use => .mk (.expr e) [use.outline]
  | .type type => .mk (.expr e) [type.outline]

end

/-- The outline of what a file declares, with the annotations of its package in front. -/
def CompilationUnit.outlines (unit : CompilationUnit) : List Outline :=
  (match unit.package with
    | some package => AnnotationUse.outlines package.annotations
    | none => []) ++ unit.types.map TypeDecl.outline

namespace Outline

def part : Outline → Part
  | mk p _ => p

mutual

/-- A part and all parts inside it, each before those inside it. -/
def parts : Outline → List Part
  | mk p inside => p :: partsOf inside

def partsOf : List Outline → List Part
  | [] => []
  | o :: os => o.parts ++ partsOf os

end

end Outline

end JavaAnalysis.Ast
