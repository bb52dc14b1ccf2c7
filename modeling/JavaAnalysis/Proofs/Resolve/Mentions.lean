import JavaAnalysis.Resolve.Expr

/-!
# The names that a part of a file mentions

Each part of a file mentions names: those that it declares, and those that stand for something
declared elsewhere. A mention keeps what decides how the name is looked up, and where it stands.
-/

set_option autoImplicit false

namespace JavaAnalysis.Ast

open Binder (NameUse isPackageLike)

/-- A name with the role in which it is met. -/
inductive Mention where
  /-- A declared name, or the brace that opens the body of a class without a name. -/
  | declared (offset : Nat)
  /-- The name of an import. -/
  | imported (name : QualifiedName)
  /-- The name of an annotation. -/
  | marker (name : QualifiedName)
  /-- A name in a type, with the outer type or the package before it; it may stand before a dot. -/
  | type (qualifying : Bool) (qualifier : Option TypeRef) (name : Ident)
  /-- A name in an expression that nothing stands before. -/
  | simple (use : NameUse) (name : Ident)
  /-- A name that is selected from what stands before it, or called. -/
  | member (assigned : Bool) (name : Ident)

namespace Mention

/-- Where the name stands; of a declared name this is where it starts. -/
def range : Mention → TextRange
  | declared o => .empty o
  | imported name => name.range
  | marker name => name.range
  | type _ _ name => name.range
  | simple _ name => name.range
  | member _ name => name.range

/-- Where the name starts. -/
def offset (m : Mention) : Nat := m.range.start

/-- The name stands for something that is declared elsewhere. -/
def IsUse : Mention → Prop
  | declared _ => False
  | _ => True

/-- A name of a type or in an expression that stands alone. -/
def unqualified? : Mention → Option String
  | declared _ => none
  | imported _ => none
  | marker name =>
    match name.segments with
    | [segment] => some segment.text
    | _ => none
  | type _ none name => some name.text
  | type _ (some _) _ => none
  | simple _ name => some name.text
  | member _ _ => none

/--
What the name is bound to does not count as used for it: the name is assigned to, or it is `this`,
or it stands before a dot in a type where the name of a package may stand.
-/
def IsPassive : Mention → Prop
  | declared _ => False
  | imported _ => False
  | marker _ => False
  | type qualifying none name => qualifying = true ∧ startsLowercase name.text = true
  | type qualifying (some q) _ => qualifying = true ∧ isPackageLike q = true
  | simple use _ => use = .target
  | member assigned name => assigned = true ∨ name.text = "this"

theorem IsPassive.isUse {m : Mention} (h : m.IsPassive) : m.IsUse := by
  cases m with
  | declared _ => exact h
  | _ => trivial

end Mention

mutual

def TypeRef.mentions (qualifying : Bool) : TypeRef → List Mention
  | .primitive _ _ => []
  | .inferred _ => []
  | .named _ none name _ args => .type qualifying none name :: typeMentions args
  | .named _ (some q) name _ args =>
    q.mentions true ++ .type qualifying (some q) name :: typeMentions args
  | .array _ element _ => element.mentions false
  | .wildcard _ => []
  | .bounded _ _ bound => bound.mentions false
  | .union _ alternatives => typeMentions alternatives
  | .intersection _ bounds => typeMentions bounds

def typeMentions : List TypeRef → List Mention
  | [] => []
  | t :: ts => t.mentions false ++ typeMentions ts

end

/-- What the type of an object mentions that belongs to another one: it is a member of its type. -/
def TypeRef.innerMentions : TypeRef → List Mention
  | .named _ _ name _ args => .member false name :: typeMentions args
  | _ => []

def Expr.isThis : Expr → Bool
  | .this _ => true
  | _ => false

mutual

def AnnotationUse.mentions : AnnotationUse → List Mention
  | .mk _ name _ args => .marker name :: elementMentions args

def elementMentions : List ElementValue → List Mention
  | [] => []
  | .mk _ _ value :: args => value.mentions .value ++ elementMentions args

def annotationMentions : List AnnotationUse → List Mention
  | [] => []
  | use :: uses => use.mentions ++ annotationMentions uses

def modifierMentions : List Modifier → List Mention
  | [] => []
  | .word _ _ :: ms => modifierMentions ms
  | .annotated use :: ms => use.mentions ++ modifierMentions ms

def TypeDecl.mentions : TypeDecl → List Mention
  | .mk _ _ ms name _ typeParams _ components supers interfaces permitted
      (.mk _ constants members) =>
    modifierMentions ms ++ typeParamMentions typeParams ++ paramMentions components ++
      typeMentions supers ++ typeMentions interfaces ++ typeMentions permitted ++
      constantMentions constants ++ memberMentions members ++ [.declared name.range.start]

/-- The body of a class without a name, which is declared by its opening brace. -/
def anonymousMentions : Option ClassBody → List Mention
  | none => []
  | some (.mk range constants members) =>
    constantMentions constants ++ memberMentions members ++ [.declared range.start]

def constantMentions : List EnumConstant → List Mention
  | [] => []
  | .mk _ ms name _ args body :: constants =>
    modifierMentions ms ++ exprMentions args ++ anonymousMentions body ++
      .declared name.range.start :: constantMentions constants

def memberMentions : List Member → List Mention
  | [] => []
  | .field decl :: members => decl.mentions ++ memberMentions members
  | .method decl :: members => decl.mentions ++ memberMentions members
  | .initializer _ _ body :: members => body.mentions ++ memberMentions members
  | .type decl :: members => decl.mentions ++ memberMentions members

def MethodDecl.mentions : MethodDecl → List Mention
  | .mk _ ms _ typeParams returnType name _ params _ thrown defaultValue body =>
    modifierMentions ms ++ typeParamMentions typeParams ++ typeMentions returnType.toList ++
      paramMentions params ++ typeMentions thrown ++ optionalMentions defaultValue ++
      optionalBlockMentions body ++ [.declared name.range.start]

def typeParamMentions : List TypeParam → List Mention
  | [] => []
  | .mk _ marks name bounds :: params =>
    annotationMentions marks ++ typeMentions bounds ++
      .declared name.range.start :: typeParamMentions params

def paramMentions : List Param → List Mention
  | [] => []
  | p :: ps => p.mentions ++ paramMentions ps

def Param.mentions : Param → List Mention
  | .mk _ ms type _ name _ =>
    modifierMentions ms ++ typeMentions type.toList ++ [.declared name.range.start]

def VarDecl.mentions : VarDecl → List Mention
  | .mk _ ms type fragments =>
    modifierMentions ms ++ type.mentions false ++ fragmentMentions fragments

def fragmentMentions : List VarFragment → List Mention
  | [] => []
  | .mk _ name _ init :: fragments =>
    optionalMentions init ++ .declared name.range.start :: fragmentMentions fragments

def Block.mentions : Block → List Mention
  | .mk _ stmts => stmtMentions stmts

def optionalBlockMentions : Option Block → List Mention
  | none => []
  | some block => block.mentions

def stmtMentions : List Stmt → List Mention
  | [] => []
  | s :: ss => s.mentions ++ stmtMentions ss

def Stmt.mentions : Stmt → List Mention
  | .localVar decl => decl.mentions
  | .block body => body.mentions
  | .localType decl => decl.mentions
  | .expression _ e => e.mentions .value
  | .ifThen _ cond body => cond.mentions .value ++ body.mentions
  | .ifThenElse _ cond body alternative =>
    cond.mentions .value ++ body.mentions ++ alternative.mentions
  | .whileLoop _ cond body => cond.mentions .value ++ body.mentions
  | .doLoop _ body cond => body.mentions ++ cond.mentions .value
  | .forLoop _ init cond update body =>
    forInitMentions init ++ optionalMentions cond ++ exprMentions update ++ body.mentions
  | .forEach _ var iterable body => var.mentions ++ iterable.mentions .value ++ body.mentions
  | .returning _ e => optionalMentions e
  | .breaking _ _ => []
  | .continuing _ _ => []
  | .yielding _ e => e.mentions .value
  | .labeled _ _ body => body.mentions
  | .throwing _ e => e.mentions .value
  | .trying _ _ resources body catches final =>
    resourceMentions resources ++ body.mentions ++ catchMentions catches ++
      optionalBlockMentions final
  | .switching _ selector _ cases => selector.mentions .value ++ caseMentions cases
  | .synchronizing _ lock body => lock.mentions .value ++ body.mentions
  | .asserting _ cond message => cond.mentions .value ++ optionalMentions message
  | .empty _ => []

def forInitMentions : ForInit → List Mention
  | .absent => []
  | .decl decl => decl.mentions
  | .exprs es => exprMentions es

def resourceMentions : List Resource → List Mention
  | [] => []
  | .decl decl :: resources => decl.mentions ++ resourceMentions resources
  | .expr e :: resources => e.mentions .value ++ resourceMentions resources

def catchMentions : List CatchClause → List Mention
  | [] => []
  | .mk _ param body :: catches => param.mentions ++ body.mentions ++ catchMentions catches

def caseMentions : List SwitchCase → List Mention
  | [] => []
  | .mk _ labels _ body :: cases => labelMentions labels ++ stmtMentions body ++ caseMentions cases

def labelMentions : List CaseLabel → List Mention
  | [] => []
  | .default _ :: labels => labelMentions labels
  | .values _ values :: labels => exprMentions values ++ labelMentions labels
  | .pattern _ pattern guard :: labels =>
    pattern.mentions ++ optionalMentions guard ++ labelMentions labels

def Pattern.mentions : Pattern → List Mention
  | .mk _ ms type name => modifierMentions ms ++ type.mentions false ++ [.declared name.range.start]

def exprMentions : List Expr → List Mention
  | [] => []
  | e :: es => e.mentions .value ++ exprMentions es

def optionalMentions : Option Expr → List Mention
  | none => []
  | some e => e.mentions .value

def dimMentions : List DimExpr → List Mention
  | [] => []
  | .mk _ size :: dims => optionalMentions size ++ dimMentions dims

def Expr.mentions (use : NameUse) : Expr → List Mention
  | .literal _ _ => []
  | .name name => [.simple use name]
  | .this _ => []
  | .super _ => []
  | .fieldAccess _ target name =>
    target.mentions .qualifier ++ [.member (use == .target && target.isThis) name]
  | .methodCall _ none _ typeArgs name _ args =>
    typeMentions typeArgs ++ .member false name :: exprMentions args
  | .methodCall _ (some target) _ typeArgs name _ args =>
    target.mentions .qualifier ++ typeMentions typeArgs ++ .member false name :: exprMentions args
  | .newObject _ none type _ args body =>
    type.mentions false ++ exprMentions args ++ anonymousMentions body
  | .newObject _ (some outer) type _ args body =>
    outer.mentions .value ++ type.innerMentions ++ exprMentions args ++ anonymousMentions body
  | .newArray _ element dims _ init =>
    element.mentions false ++ dimMentions dims ++ exprMentions init
  | .arrayInit _ items => exprMentions items
  | .arrayAccess _ array index => array.mentions .value ++ index.mentions .value
  | .unary _ _ operand => operand.mentions .value
  | .binary _ _ lhs rhs => lhs.mentions .value ++ rhs.mentions .value
  | .assign _ op target value =>
    target.mentions (if op = .assign then .target else .value) ++ value.mentions .value
  | .conditional _ cond yes no =>
    cond.mentions .value ++ yes.mentions .value ++ no.mentions .value
  | .instanceOf _ operand type => operand.mentions .value ++ type.mentions false
  | .instanceOfPattern _ operand pattern => operand.mentions .value ++ pattern.mentions
  | .cast _ type operand => type.mentions false ++ operand.mentions .value
  | .paren _ inner => inner.mentions .value
  | .classLiteral _ type => type.mentions false
  | .lambdaExpr _ _ params _ body => paramMentions params ++ body.mentions .value
  | .lambdaBlock _ _ params _ body => paramMentions params ++ body.mentions
  | .methodRef _ target name =>
    target.mentions .qualifier ++ (name.map (Mention.member false)).toList
  | .switching _ selector _ cases => selector.mentions .value ++ caseMentions cases
  | .annotated use => use.mentions
  | .type type => type.mentions false

end

def declMentions : List TypeDecl → List Mention
  | [] => []
  | decl :: decls => decl.mentions ++ declMentions decls

/-- What the annotations of the package mention. -/
def CompilationUnit.packageMentions (unit : CompilationUnit) : List Mention :=
  (unit.package.map fun p => annotationMentions p.annotations).getD []

/-- Imports of static members have no name that is bound. -/
def importMentions : List ImportDecl → List Mention
  | [] => []
  | decl :: decls =>
    if decl.isStatic then importMentions decls
    else .imported decl.name :: importMentions decls

/-- All names that a file mentions. -/
def CompilationUnit.mentions (unit : CompilationUnit) : List Mention :=
  unit.packageMentions ++ importMentions unit.imports ++ declMentions unit.types

end JavaAnalysis.Ast
