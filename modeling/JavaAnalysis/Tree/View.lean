import JavaAnalysis.Tree.Walk

/-!
# Views of nodes

What the nodes of the larger kinds consist of: the parts of declarations, and which nodes are
statements, expressions and types. A view reads the children of a node when it is asked.
-/

set_option autoImplicit false

namespace JavaAnalysis

/-- A kind of type declaration; annotation types are interfaces, bodies without name classes. -/
inductive TypeView where
  | classType
  | interfaceType
  | enumType
  | recordType
deriving DecidableEq, Repr, Inhabited

namespace TypeView

def ofKind? : NodeKind → Option TypeView
  | .classDecl => some classType
  | .interfaceDecl => some interfaceType
  | .enumDecl => some enumType
  | .recordDecl => some recordType
  | _ => none

def name : TypeView → String
  | classType => "Class"
  | interfaceType => "Interface"
  | enumType => "Enum"
  | recordType => "Record"

end TypeView

/-- A kind of member of a type. -/
inductive MemberView where
  | field
  | method
  | constructor
  | initializer
  | enumConstant
  | type
  | empty
deriving DecidableEq, Repr, Inhabited

namespace MemberView

def ofKind? : NodeKind → Option MemberView
  | .variableDecl => some field
  | .method => some method
  | .constructor => some constructor
  | .initializer => some initializer
  | .staticInitializer => some initializer
  | .enumConstant => some enumConstant
  | .classDecl => some type
  | .interfaceDecl => some type
  | .enumDecl => some type
  | .recordDecl => some type
  | .emptyDecl => some empty
  | _ => none

def name : MemberView → String
  | field => "Field"
  | method => "Method"
  | constructor => "Constructor"
  | initializer => "Initializer"
  | enumConstant => "EnumConstant"
  | type => "Type"
  | empty => "Empty"

end MemberView

/-- How a node is called that is a statement. -/
def NodeKind.statementName? : NodeKind → Option String
  | .block => some "Block"
  | .emptyStatement => some "Empty"
  | .expressionStatement => some "Expr"
  | .variableDecl => some "LocalVariable"
  | .classDecl => some "LocalType"
  | .ifStatement => some "If"
  | .whileStatement => some "While"
  | .doStatement => some "Do"
  | .forStatement => some "For"
  | .foreachStatement => some "ForEach"
  | .returnStatement => some "Return"
  | .breakStatement => some "Break"
  | .continueStatement => some "Continue"
  | .yieldStatement => some "Yield"
  | .labeledStatement => some "Labeled"
  | .throwStatement => some "Throw"
  | .tryStatement => some "Try"
  | .switchStatement => some "Switch"
  | .synchronizedStatement => some "Synchronized"
  | .assertStatement => some "Assert"
  | _ => none

/-- How a node is called that is an expression. -/
def NodeKind.expressionName? : NodeKind → Option String
  | .literal => some "Literal"
  | .identifier => some "Name"
  | .memberSelect => some "MemberSelect"
  | .methodInvocation => some "MethodCall"
  | .newClass => some "New"
  | .newArray => some "NewArray"
  | .arrayInitializer => some "ArrayInit"
  | .arrayAccess => some "ArrayAccess"
  | .prefixExpression => some "Prefix"
  | .postfixExpression => some "Postfix"
  | .binaryExpression => some "Binary"
  | .assignment => some "Assign"
  | .conditionalExpression => some "Conditional"
  | .instanceofExpression => some "InstanceOf"
  | .typeCast => some "Cast"
  | .parenthesizedExpression => some "Paren"
  | .classLiteral => some "ClassLiteral"
  | .lambdaExpression => some "Lambda"
  | .methodReference => some "MethodRef"
  | .switchExpression => some "Switch"
  | _ => none

/-- How a node is called that is a type. -/
def NodeKind.typeName? : NodeKind → Option String
  | .primitiveType => some "Primitive"
  | .varType => some "Var"
  | .classType => some "Class"
  | .parameterizedType => some "Parameterized"
  | .arrayType => some "Array"
  | .wildcardType => some "Wildcard"
  | .unionType => some "Union"
  | .intersectionType => some "Intersection"
  | _ => none

def NodeKind.isStatement (k : NodeKind) : Bool := k.statementName?.isSome

def NodeKind.isExpression (k : NodeKind) : Bool := k.expressionName?.isSome

def NodeKind.isType (k : NodeKind) : Bool := k.typeName?.isSome

namespace SyntaxTree

variable (t : SyntaxTree)

/-- The child nodes of some kind of syntax. -/
def childrenOf (id : NodeId) (p : NodeKind → Bool) : List NodeId :=
  (t.children id).filter fun c => p (t.kind c)

/-- The token of an identifier, which may be `this` or `super`. -/
def identifierToken? (id : NodeId) : Option TokenId := (t.childTokens id).head?

/-- The name among the children of a node. -/
def nameOf? (id : NodeId) : Option TokenId := do
  t.identifierToken? (← t.childOfKind? id .identifier)

def tokenText (id : TokenId) : String := (t.token id).text

/-- The imports of a file. -/
def importsOf (id : NodeId) : List NodeId := t.childrenOf id (· == .importDecl)

/-- The types that are declared directly in a file. -/
def typesOf (id : NodeId) : List NodeId := t.childrenOf id fun k => (TypeView.ofKind? k).isSome

def isStaticImport (id : NodeId) : Bool := (t.tokenOfKind? id .staticKw).isSome

/-- The import names all members of a package or type. -/
def isOnDemandImport (id : NodeId) : Bool := (t.tokenOfKind? id .star).isSome

/-- The type is created together with an object and has no name. -/
def isAnonymous (id : NodeId) : Bool := (t.parent? id).any fun p => t.kind p == .newClass

/-- The members of a type, each with what it is. -/
def membersOf (id : NodeId) : List (MemberView × NodeId) :=
  (t.children id).filterMap fun c => (MemberView.ofKind? (t.kind c)).map fun view => (view, c)

/-- The parameters of a method. -/
def parametersOf (id : NodeId) : List NodeId :=
  match t.childOfKind? id .parameterList with
  | some list => t.childrenOf list (· == .parameter)
  | none => []

/-- The parameter takes any number of arguments. -/
def isVarargs (id : NodeId) : Bool :=
  (t.descendants id).any fun d => (t.tokenOfKind? d .ellipsis).isSome

/-- The variable is the first of its declaration, which owns the modifiers and the type. -/
def ownsType (id : NodeId) : Bool :=
  (t.declaredType? id).any fun d => t.parent? d.typeNode == some id

/-- The brackets behind the name of a variable. -/
def dimensionsOf (id : NodeId) : List NodeId := t.childrenOf id (· == .arrayDimension)

/-- The initial value of a variable. -/
def initializerOf? (id : NodeId) : Option NodeId := do
  let eq ← t.tokenOfKind? id .eq
  let behind := (t.children id).dropWhile fun c => decide ((t.firstToken c).index < eq.index)
  behind.find? fun c => (t.kind c).isExpression

/-- The comma or semicolon behind a variable. -/
def separatorOf? (id : NodeId) : Option TokenId :=
  ((t.childTokens id).getLast?).filter fun x =>
    (t.token x).kind == .comma || (t.token x).kind == .semicolon

/-- The statement that a label labels. -/
def labeledBody? (id : NodeId) : Option NodeId :=
  (t.children id).find? fun c => (t.kind c).isStatement

def castType? (id : NodeId) : Option NodeId := (t.children id).find? fun c => (t.kind c).isType

def castOperand? (id : NodeId) : Option NodeId := (t.childrenOf id NodeKind.isExpression).getLast?

def statementsOf (id : NodeId) : List NodeId := t.childrenOf id NodeKind.isStatement

/-- The label that a jump names. -/
def jumpLabel? (id : NodeId) : Option TokenId :=
  match t.kind id with
  | .breakStatement => t.nameOf? id
  | .continueStatement => t.nameOf? id
  | _ => none

end SyntaxTree

end JavaAnalysis
