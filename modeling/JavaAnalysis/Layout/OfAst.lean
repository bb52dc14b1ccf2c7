import JavaAnalysis.Ast.Range
import JavaAnalysis.Layout.Shape

/-!
# The shapes of abstract syntax

What nodes the parts of a file become. A declaration of several variables becomes a node for each
of them; all else becomes one node or, where it is left out, none.
-/

set_option autoImplicit false

namespace JavaAnalysis.Ast

/-- A dotted name; what it is bound to, if anything, is a usage at its last identifier. -/
def selectShape (start : Nat) (use : Option Nat) (selected : Shape) : List Ident → Shape
  | [] => selected
  | [last] =>
    .plain .memberSelect ⟨start, last.range.stop⟩ [selected, .ident last.range use]
  | name :: names =>
    selectShape start use
      (.plain .memberSelect ⟨start, name.range.stop⟩ [selected, .name name]) names

/-- The nodes of a dotted name, which may be a use of what it is bound to. -/
def QualifiedName.shape (name : QualifiedName) (isUse : Bool) : Shape :=
  let use := if isUse then some name.range.start else none
  match name.segments with
  | [] => .ident (.empty name.range.start) use
  | [first] => .ident first.range use
  | first :: rest => selectShape name.range.start use (.name first) rest

mutual

def TypeRef.shape : TypeRef → Shape
  | .primitive range _ => .leaf .primitiveType range
  | .inferred range => .leaf .varType range
  | .named range qualifier name argsRange args =>
    let outer := match qualifier with
      | some q => [q.shape]
      | none => []
    let named := Shape.plain .classType ⟨range.start, name.range.stop⟩
    match argsRange with
    | some r =>
      .plain .parameterizedType range
        [named (outer ++ [.nameUse name]), .plain .typeArguments r (shapes args)]
    | none => named (outer ++ .nameUse name :: shapes args)
  | .array range element _ => .plain .arrayType range [element.shape]
  | .wildcard range => .leaf .wildcardType range
  | .bounded range _ bound => .plain .wildcardType range [bound.shape]
  | .union range alternatives => .plain .unionType range (shapes alternatives)
  | .intersection range bounds => .plain .intersectionType range (shapes bounds)

def TypeRef.shapes : List TypeRef → List Shape
  | [] => []
  | t :: ts => t.shape :: TypeRef.shapes ts

end

/-- A node over a list with its brackets; without brackets there is no node, and no items either. -/
def listShapes (kind : NodeKind) (range : Option TextRange) (items : List Shape) : List Shape :=
  match range with
  | some r => [.plain kind r items]
  | none => items

def typeArgsShapes (range : Option TextRange) (args : List TypeRef) : List Shape :=
  listShapes .typeArguments range (TypeRef.shapes args)

/-- A word with types behind it; without types there is no such clause. -/
def clauseShapes (kind : ClauseKind) (word : TokenKind) (ts : List TypeRef) : List Shape :=
  match ts.head?, ts.getLast? with
  | some first, some last =>
    [.clause kind word ⟨first.range.start, last.range.stop⟩ (TypeRef.shapes ts)]
  | _, _ => []

/-- The shape of a declaration with its type, if the type is written. -/
def typedShape (spec : NodeSpec) (before : List Shape) (type : Option TypeRef)
    (ellipsis : Option TextRange) (after : List Shape) : Shape :=
  match type with
  | some t => .typed spec before t.shape t ellipsis after
  | none => .node spec (before ++ after)

def bracketShapes (brackets : List TextRange) : List Shape :=
  brackets.map (Shape.leaf .arrayDimension)

/-- Modifiers, some of them annotations, unless there are none. -/
def modifierShapes (ms : List Modifier) (markers : List Shape) : List Shape :=
  listShapes .modifiers (Modifier.rangeOfAll? ms) markers

/-- A list of expressions under a node of its own, unless it is empty. -/
def exprListShapes (kind : NodeKind) (es : List Expr) (items : List Shape) : List Shape :=
  match es.head?, es.getLast? with
  | some first, some last => [.plain kind ⟨first.range.start, last.range.stop⟩ items]
  | _, _ => []

def TypeDeclKind.node : TypeDeclKind → NodeKind
  | .classType => .classDecl
  | .interfaceType => .interfaceDecl
  | .annotationType => .interfaceDecl
  | .enumType => .enumDecl
  | .recordType => .recordDecl

/-- In an enum, the semicolon behind the constants is no empty declaration. -/
def bodyGaps (kind : TypeDeclKind) (range : TextRange) (constants : List EnumConstant)
    (members : List Member) : GapRule :=
  if kind = .enumType then
    let start := ((constants.getLast?).map fun c => c.range.stop).getD range.start
    .enumBody ⟨start, range.stop⟩ (members.head?.map fun m => m.range.start)
  else .declarations

/-- The variables of a declaration end with a token of their own. -/
def isTerminated (range : TextRange) (fragments : List VarFragment) : Bool :=
  (fragments.getLast?).any fun f => decide (f.range.stop < range.stop)

mutual

def AnnotationUse.shape : AnnotationUse → Shape
  | .mk range name argsRange args =>
    .plain .annotationUse range
      (name.shape true :: listShapes .arguments argsRange (elementShapes args))

def elementShapes : List ElementValue → List Shape
  | [] => []
  | .mk range (some name) value :: args =>
    .plain .assignment range [.name name, value.shape] :: elementShapes args
  | .mk _ none value :: args => value.shape :: elementShapes args

def AnnotationUse.shapes : List AnnotationUse → List Shape
  | [] => []
  | use :: uses => use.shape :: AnnotationUse.shapes uses

/-- The annotations among modifiers. -/
def markerShapes : List Modifier → List Shape
  | [] => []
  | .word _ _ :: ms => markerShapes ms
  | .annotated use :: ms => use.shape :: markerShapes ms

def TypeDecl.shape : TypeDecl → Shape
  | .mk range kind ms name typeParamsRange typeParams componentsRange components supers interfaces
      permitted (.mk bodyRange constants members) =>
    .node ⟨kind.node, range, none, bodyGaps kind bodyRange constants members, some name.range.start⟩
      (modifierShapes ms (markerShapes ms) ++ .name name ::
        listShapes .typeParameters typeParamsRange (typeParamShapes typeParams) ++
        listShapes .parameterList componentsRange (Param.shapes components) ++
        clauseShapes .extending .extendsKw supers ++
        clauseShapes .implementing .implementsKw interfaces ++
        clauseShapes .permitting .ident permitted ++
        [.body (constantShapes constants ++ Member.shapes members)])

/-- The body of a class without a name. -/
def anonymousShapes : Option ClassBody → List Shape
  | none => []
  | some (.mk range constants members) =>
    [.node ⟨.classDecl, range, none, .declarations, some range.start⟩
      [.body (constantShapes constants ++ Member.shapes members)]]

def constantShapes : List EnumConstant → List Shape
  | [] => []
  | .mk range ms name argsRange args body :: constants =>
    .node (.declaring .enumConstant range name.range.start)
      (modifierShapes ms (markerShapes ms) ++ .name name ::
        listShapes .arguments argsRange (Expr.shapes args) ++ anonymousShapes body) ::
      constantShapes constants

def Member.shapes : List Member → List Shape
  | [] => []
  | .field decl :: members => decl.shape :: Member.shapes members
  | .method decl :: members => decl.shape :: Member.shapes members
  | .initializer range isStatic body :: members =>
    .plain (if isStatic then .staticInitializer else .initializer) range [body.shape] ::
      Member.shapes members
  | .type decl :: members => decl.shape :: Member.shapes members

def MethodDecl.shape : MethodDecl → Shape
  | .mk range ms typeParamsRange typeParams returnType name paramsRange params brackets thrown
      defaultValue body =>
    let kind := if returnType.isNone then NodeKind.constructor else NodeKind.method
    typedShape (.declaring kind range name.range.start)
      (modifierShapes ms (markerShapes ms) ++
        listShapes .typeParameters typeParamsRange (typeParamShapes typeParams))
      returnType none
      (.name name :: listShapes .parameterList paramsRange (Param.shapes params) ++
        bracketShapes brackets ++ clauseShapes .throwing .throwsKw thrown ++
        optionalShapes defaultValue ++ blockShapes body)

def typeParamShapes : List TypeParam → List Shape
  | [] => []
  | .mk range marks name bounds :: params =>
    .node (.declaring .typeParameter range name.range.start)
      (AnnotationUse.shapes marks ++ .name name :: TypeRef.shapes bounds) :: typeParamShapes params

def Param.shapes : List Param → List Shape
  | [] => []
  | p :: ps => p.shape :: Param.shapes ps

def Param.shape : Param → Shape
  | .mk range ms type ellipsis name brackets =>
    typedShape (.declaring .parameter range name.range.start)
      (modifierShapes ms (markerShapes ms)) type ellipsis (.name name :: bracketShapes brackets)

def VarDecl.shape : VarDecl → Shape
  | .mk range ms type fragments =>
    .variables range.start (isTerminated range fragments) (modifierShapes ms (markerShapes ms))
      type.shape type (fragmentShapes fragments)

def fragmentShapes : List VarFragment → List FragmentShape
  | [] => []
  | .mk range name brackets init :: fragments =>
    .mk range name (bracketShapes brackets ++ optionalShapes init) :: fragmentShapes fragments

def Block.shape : Block → Shape
  | .mk range ss => .plain .block range (Stmt.shapes ss)

def blockShapes : Option Block → List Shape
  | none => []
  | some b => [b.shape]

def Stmt.shapes : List Stmt → List Shape
  | [] => []
  | s :: ss => s.shape :: Stmt.shapes ss

def Stmt.shape : Stmt → Shape
  | .localVar decl => decl.shape
  | .block b => b.shape
  | .localType decl => decl.shape
  | .expression range e => .plain .expressionStatement range [e.shape]
  | .ifThen range cond body => .headed .ifStatement range .ifKw [cond.shape, body.shape]
  | .ifThenElse range cond body alternative =>
    .headed .ifStatement range .ifKw [cond.shape, body.shape, alternative.shape]
  | .whileLoop range cond body => .headed .whileStatement range .whileKw [cond.shape, body.shape]
  | .doLoop range body cond => .headed .doStatement range .doKw [body.shape, cond.shape]
  | .forLoop range init cond update body =>
    .headed .forStatement range .forKw (forInitShapes init ++ optionalShapes cond ++
      exprListShapes .forUpdate update (Expr.shapes update) ++ [body.shape])
  | .forEach range var iterable body =>
    .headed .foreachStatement range .forKw [var.shape, iterable.shape, body.shape]
  | .returning range e => .plain .returnStatement range (optionalShapes e)
  | .breaking range label => .jump .breakStatement range label
  | .continuing range label => .jump .continueStatement range label
  | .yielding range e => .plain .yieldStatement range [e.shape]
  | .labeled range label body => .labeled range label [body.shape]
  | .throwing range e => .plain .throwStatement range [e.shape]
  | .trying range resourcesRange resources body catches final =>
    .headed .tryStatement range .tryKw
      (listShapes .resourceList resourcesRange (resourceShapes resources) ++ body.shape ::
        catchShapes catches ++ blockShapes final)
  | .switching range selector _ cases =>
    .headed .switchStatement range .switchKw (selector.shape :: caseShapes cases)
  | .synchronizing range lock body =>
    .plain .synchronizedStatement range [lock.shape, body.shape]
  | .asserting range cond message =>
    .plain .assertStatement range (cond.shape :: optionalShapes message)
  | .empty range => .leaf .emptyStatement range

def forInitShapes : ForInit → List Shape
  | .absent => []
  | .decl decl => [.plain .forInit decl.range [decl.shape]]
  | .exprs es => exprListShapes .forInit es (Expr.shapes es)

def resourceShapes : List Resource → List Shape
  | [] => []
  | .decl decl :: resources => decl.shape :: resourceShapes resources
  | .expr e :: resources => e.shape :: resourceShapes resources

def catchShapes : List CatchClause → List Shape
  | [] => []
  | .mk range p body :: catches =>
    .plain .catchClause range [p.shape, body.shape] :: catchShapes catches

def caseShapes : List SwitchCase → List Shape
  | [] => []
  | .mk range labels _ body :: cases =>
    .plain .caseGroup range (labelShapes labels ++ Stmt.shapes body) :: caseShapes cases

def labelShapes : List CaseLabel → List Shape
  | [] => []
  | .default range :: labels => .leaf .caseLabel range :: labelShapes labels
  | .values range values :: labels =>
    .plain .caseLabel range (Expr.shapes values) :: labelShapes labels
  | .pattern range p guard :: labels =>
    .plain .caseLabel range (p.shape :: optionalShapes guard) :: labelShapes labels

def Pattern.shape : Pattern → Shape
  | .mk range ms type name =>
    .typed (.declaring .pattern range name.range.start) (modifierShapes ms (markerShapes ms))
      type.shape type none [.name name]

def Expr.shapes : List Expr → List Shape
  | [] => []
  | e :: es => e.shape :: Expr.shapes es

def optionalShapes : Option Expr → List Shape
  | none => []
  | some e => [e.shape]

def dimShapes : List DimExpr → List Shape
  | [] => []
  | .mk range size :: dims => .plain .arrayDimension range (optionalShapes size) :: dimShapes dims

def Expr.shape : Expr → Shape
  | .literal range _ => .leaf .literal range
  | .name name => .nameUse name
  | .this range => .leaf .identifier range
  | .super range => .leaf .identifier range
  | .fieldAccess range target name => .plain .memberSelect range [target.shape, .nameUse name]
  | .methodCall range (some target) typeArgsRange typeArgs name argsRange args =>
    .plain .methodInvocation range
      [.plain .memberSelect ⟨range.start, name.range.stop⟩
        (target.shape :: typeArgsShapes typeArgsRange typeArgs ++ [.nameUse name]),
      .plain .arguments argsRange (Expr.shapes args)]
  | .methodCall range none typeArgsRange typeArgs name argsRange args =>
    .plain .methodInvocation range (typeArgsShapes typeArgsRange typeArgs ++
      [.nameUse name, .plain .arguments argsRange (Expr.shapes args)])
  | .newObject range outer type argsRange args body =>
    .plain .newClass range (optionalShapes outer ++ type.shape ::
      .plain .arguments argsRange (Expr.shapes args) :: anonymousShapes body)
  | .newArray range element dims initRange init =>
    .plain .newArray range (element.shape :: dimShapes dims ++
      listShapes .arrayInitializer initRange (Expr.shapes init))
  | .arrayInit range items => .plain .arrayInitializer range (Expr.shapes items)
  | .arrayAccess range array index => .plain .arrayAccess range [array.shape, index.shape]
  | .unary range op operand =>
    .plain (if op.isPostfix then .postfixExpression else .prefixExpression) range [operand.shape]
  | .binary range _ lhs rhs => .plain .binaryExpression range [lhs.shape, rhs.shape]
  | .assign range _ target value => .plain .assignment range [target.shape, value.shape]
  | .conditional range cond yes no =>
    .plain .conditionalExpression range [cond.shape, yes.shape, no.shape]
  | .instanceOf range operand type =>
    .plain .instanceofExpression range [operand.shape, type.shape]
  | .instanceOfPattern range operand pattern =>
    .plain .instanceofExpression range [operand.shape, pattern.shape]
  | .cast range type operand => .plain .typeCast range [type.shape, operand.shape]
  | .paren range inner => .plain .parenthesizedExpression range [inner.shape]
  | .classLiteral range type => .plain .classLiteral range [type.shape]
  | .lambdaExpr range paramsRange params _ body =>
    .plain .lambdaExpression range
      [.plain .parameterList paramsRange (Param.shapes params), .body [body.shape]]
  | .lambdaBlock range paramsRange params _ body =>
    .plain .lambdaExpression range
      [.plain .parameterList paramsRange (Param.shapes params), .body [body.shape]]
  | .methodRef range target name =>
    .plain .methodReference range (target.shape :: (name.map Shape.nameUse).toList)
  | .switching range selector _ cases =>
    .plain .switchExpression range (selector.shape :: caseShapes cases)
  | .annotated use => use.shape
  | .type type => type.shape

end

def PackageDecl.shape (p : PackageDecl) : Shape :=
  .plain .packageDecl p.range (AnnotationUse.shapes p.annotations ++ [p.name.shape false])

def ImportDecl.shape (i : ImportDecl) : Shape :=
  .plain .importDecl i.range [i.name.shape (!i.isStatic)]

/-- The shapes of all that a file consists of. -/
def CompilationUnit.shapes (unit : CompilationUnit) : List Shape :=
  (unit.package.map PackageDecl.shape).toList ++ unit.imports.map ImportDecl.shape ++
    unit.types.map TypeDecl.shape

end JavaAnalysis.Ast
