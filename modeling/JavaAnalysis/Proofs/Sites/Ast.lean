import JavaAnalysis.Layout.OfAst
import JavaAnalysis.Proofs.Sites.Shape

/-!
# The sites of a file

All that declares or uses a name in a file and all its lists in angle brackets, in the order in
which their nodes are made.
-/

set_option autoImplicit false
set_option linter.dupNamespace false

namespace JavaAnalysis.Ast

/-- A dotted name that is used; its last identifier stands for all of it. -/
def QualifiedName.sites (name : QualifiedName) : List Site :=
  [.reference ((name.segments.getLast?.map Ident.range).getD (.empty name.range.start))
    name.range.start]

/-- A list in angle brackets, if the brackets are written. -/
def angled (kind : NodeKind) (range : Option TextRange) : List Site :=
  (range.map (Site.enclosing kind)).toList

mutual

def TypeRef.sites : TypeRef → List Site
  | .primitive _ _ => []
  | .inferred _ => []
  | .named _ none name argsRange args =>
    .reference name.range name.range.start :: typeSites args ++ angled .typeArguments argsRange
  | .named _ (some q) name argsRange args =>
    q.sites ++ .reference name.range name.range.start :: typeSites args ++
      angled .typeArguments argsRange
  | .array _ element _ => element.sites
  | .wildcard _ => []
  | .bounded _ _ bound => bound.sites
  | .union _ alternatives => typeSites alternatives
  | .intersection _ bounds => typeSites bounds

def typeSites : List TypeRef → List Site
  | [] => []
  | t :: ts => t.sites ++ typeSites ts

end

mutual

def AnnotationUse.sites : AnnotationUse → List Site
  | .mk _ name _ args => name.sites ++ elementSites args

def elementSites : List ElementValue → List Site
  | [] => []
  | .mk _ _ value :: args => value.sites ++ elementSites args

def annotationSites : List AnnotationUse → List Site
  | [] => []
  | use :: uses => use.sites ++ annotationSites uses

def modifierSites : List Modifier → List Site
  | [] => []
  | .word _ _ :: ms => modifierSites ms
  | .annotated use :: ms => use.sites ++ modifierSites ms

def TypeDecl.sites : TypeDecl → List Site
  | .mk range kind ms name typeParamsRange typeParams _ components supers interfaces permitted
      (.mk _ constants members) =>
    modifierSites ms ++ typeParamSites typeParams ++ angled .typeParameters typeParamsRange ++
      paramSites components ++ typeSites supers ++ typeSites interfaces ++ typeSites permitted ++
      constantSites constants ++ memberSites members ++
      [.declaration kind.node range name.range.start]

/-- The body of a class without a name, which is declared by its opening brace. -/
def anonymousSites : Option ClassBody → List Site
  | none => []
  | some (.mk range constants members) =>
    constantSites constants ++ memberSites members ++ [.declaration .classDecl range range.start]

def constantSites : List EnumConstant → List Site
  | [] => []
  | .mk range ms name _ args body :: constants =>
    modifierSites ms ++ exprSites args ++ anonymousSites body ++
      .declaration .enumConstant range name.range.start :: constantSites constants

def memberSites : List Member → List Site
  | [] => []
  | .field decl :: members => decl.sites ++ memberSites members
  | .method decl :: members => decl.sites ++ memberSites members
  | .initializer _ _ body :: members => body.sites ++ memberSites members
  | .type decl :: members => decl.sites ++ memberSites members

def MethodDecl.sites : MethodDecl → List Site
  | .mk range ms typeParamsRange typeParams returnType name _ params _ thrown defaultValue body =>
    modifierSites ms ++ typeParamSites typeParams ++ angled .typeParameters typeParamsRange ++
      typeSites returnType.toList ++ paramSites params ++ typeSites thrown ++
      optionalSites defaultValue ++ blockSites body ++
      [.declaration (if returnType.isNone then .constructor else .method) range name.range.start]

def typeParamSites : List TypeParam → List Site
  | [] => []
  | .mk range marks name bounds :: params =>
    annotationSites marks ++ typeSites bounds ++
      .declaration .typeParameter range name.range.start :: typeParamSites params

def paramSites : List Param → List Site
  | [] => []
  | p :: ps => p.sites ++ paramSites ps

def Param.sites : Param → List Site
  | .mk range ms type _ name _ =>
    modifierSites ms ++ typeSites type.toList ++ [.declaration .parameter range name.range.start]

def VarDecl.sites : VarDecl → List Site
  | .mk range ms type [] => nameless (modifierSites ms ++ type.sites) ++ [.vacancy range.start]
  | .mk range ms type (fragment :: fragments) =>
    modifierSites ms ++ type.sites ++
      fragmentSites (isTerminated range (fragment :: fragments)) range.start (fragment :: fragments)

/-- Variables with one type, the first of which starts at `start`. -/
def fragmentSites (terminated : Bool) (start : Nat) : List VarFragment → List Site
  | [] => []
  | .mk range name _ init :: fragments =>
    optionalSites init ++
      .fragment ⟨start, range.stop⟩ (separatorOf fragments.isEmpty terminated) name.range.start ::
      fragmentSites terminated ((fragments.head?.map fun f => f.range.start).getD range.stop)
        fragments

def Block.sites : Block → List Site
  | .mk _ stmts => stmtSites stmts

def blockSites : Option Block → List Site
  | none => []
  | some block => block.sites

def stmtSites : List Stmt → List Site
  | [] => []
  | s :: ss => s.sites ++ stmtSites ss

def Stmt.sites : Stmt → List Site
  | .localVar decl => decl.sites
  | .block body => body.sites
  | .localType decl => decl.sites
  | .expression _ e => e.sites
  | .ifThen _ cond body => cond.sites ++ body.sites
  | .ifThenElse _ cond body alternative => cond.sites ++ body.sites ++ alternative.sites
  | .whileLoop _ cond body => cond.sites ++ body.sites
  | .doLoop _ body cond => body.sites ++ cond.sites
  | .forLoop _ init cond update body =>
    forInitSites init ++ optionalSites cond ++ exprSites update ++ body.sites
  | .forEach _ var iterable body => var.sites ++ iterable.sites ++ body.sites
  | .returning _ e => optionalSites e
  | .breaking _ _ => []
  | .continuing _ _ => []
  | .yielding _ e => e.sites
  | .labeled _ _ body => body.sites
  | .throwing _ e => e.sites
  | .trying _ _ resources body catches final =>
    resourceSites resources ++ body.sites ++ catchSites catches ++ blockSites final
  | .switching _ selector _ cases => selector.sites ++ caseSites cases
  | .synchronizing _ lock body => lock.sites ++ body.sites
  | .asserting _ cond message => cond.sites ++ optionalSites message
  | .empty _ => []

def forInitSites : ForInit → List Site
  | .absent => []
  | .decl decl => decl.sites
  | .exprs es => exprSites es

def resourceSites : List Resource → List Site
  | [] => []
  | .decl decl :: resources => decl.sites ++ resourceSites resources
  | .expr e :: resources => e.sites ++ resourceSites resources

def catchSites : List CatchClause → List Site
  | [] => []
  | .mk _ param body :: catches => param.sites ++ body.sites ++ catchSites catches

def caseSites : List SwitchCase → List Site
  | [] => []
  | .mk _ labels _ body :: cases => labelSites labels ++ stmtSites body ++ caseSites cases

def labelSites : List CaseLabel → List Site
  | [] => []
  | .default _ :: labels => labelSites labels
  | .values _ values :: labels => exprSites values ++ labelSites labels
  | .pattern _ pattern guard :: labels => pattern.sites ++ optionalSites guard ++ labelSites labels

/-- A pattern, whose modifiers the outline of the file passes over. -/
def Pattern.sites : Pattern → List Site
  | .mk range ms type name =>
    (modifierSites ms).map .hide ++ type.sites ++ [.declaration .pattern range name.range.start]

def exprSites : List Expr → List Site
  | [] => []
  | e :: es => e.sites ++ exprSites es

def optionalSites : Option Expr → List Site
  | none => []
  | some e => e.sites

def dimSites : List DimExpr → List Site
  | [] => []
  | .mk _ size :: dims => optionalSites size ++ dimSites dims

def Expr.sites : Expr → List Site
  | .literal _ _ => []
  | .name name => [.reference name.range name.range.start]
  | .this _ => []
  | .super _ => []
  | .fieldAccess _ target name => target.sites ++ [.reference name.range name.range.start]
  | .methodCall _ target typeArgsRange typeArgs name _ args =>
    optionalSites target ++ typeSites typeArgs ++ angled .typeArguments typeArgsRange ++
      .reference name.range name.range.start :: exprSites args
  | .newObject _ outer type _ args body =>
    optionalSites outer ++ type.sites ++ exprSites args ++ anonymousSites body
  | .newArray _ element dims _ init => element.sites ++ dimSites dims ++ exprSites init
  | .arrayInit _ items => exprSites items
  | .arrayAccess _ array index => array.sites ++ index.sites
  | .unary _ _ operand => operand.sites
  | .binary _ _ lhs rhs => lhs.sites ++ rhs.sites
  | .assign _ _ target value => target.sites ++ value.sites
  | .conditional _ cond yes no => cond.sites ++ yes.sites ++ no.sites
  | .instanceOf _ operand type => operand.sites ++ type.sites
  | .instanceOfPattern _ operand pattern => operand.sites ++ pattern.sites
  | .cast _ type operand => type.sites ++ operand.sites
  | .paren _ inner => inner.sites
  | .classLiteral _ type => type.sites
  | .lambdaExpr _ _ params _ body => paramSites params ++ body.sites
  | .lambdaBlock _ _ params _ body => paramSites params ++ body.sites
  | .methodRef _ target name =>
    target.sites ++ (name.map fun n => Site.reference n.range n.range.start).toList
  | .switching _ selector _ cases => selector.sites ++ caseSites cases
  | .annotated use => use.sites
  | .type type => type.sites

end

def PackageDecl.sites (p : PackageDecl) : List Site := annotationSites p.annotations

/-- The name of an import; what a static import names is not bound. -/
def ImportDecl.sites (i : ImportDecl) : List Site := if i.isStatic then [] else i.name.sites

def declSites : List TypeDecl → List Site
  | [] => []
  | decl :: decls => decl.sites ++ declSites decls

/-- The sites of a whole file. -/
def CompilationUnit.sites (unit : CompilationUnit) : List Site :=
  (unit.package.map PackageDecl.sites).getD [] ++ unit.imports.flatMap ImportDecl.sites ++
    declSites unit.types

end JavaAnalysis.Ast
