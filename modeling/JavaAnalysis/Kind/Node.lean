/-!
# Kinds of syntax nodes

The grammatical categories of the inner nodes of a syntax tree, in the order in which sets of
kinds are listed.
-/

set_option autoImplicit false

namespace JavaAnalysis

inductive NodeKind where
  | compilationUnit
  | packageDecl
  | importDecl
  | classDecl
  | interfaceDecl
  | enumDecl
  | recordDecl
  | enumConstant
  | method
  | constructor
  | initializer
  | staticInitializer
  | variableDecl
  | parameter
  | parameterList
  | emptyDecl
  | modifiers
  | annotationUse
  | typeParameters
  | typeParameter
  | extendsClause
  | implementsClause
  | permitsClause
  | throwsClause
  | primitiveType
  | varType
  | classType
  | parameterizedType
  | typeArguments
  | arrayType
  | wildcardType
  | unionType
  | intersectionType
  | arrayDimension
  | block
  | emptyStatement
  | expressionStatement
  | ifStatement
  | whileStatement
  | doStatement
  | forStatement
  | forInit
  | forUpdate
  | foreachStatement
  | returnStatement
  | breakStatement
  | continueStatement
  | yieldStatement
  | labeledStatement
  | throwStatement
  | tryStatement
  | resourceList
  | catchClause
  | switchStatement
  | caseGroup
  | caseLabel
  | synchronizedStatement
  | assertStatement
  | literal
  | identifier
  | memberSelect
  | methodInvocation
  | arguments
  | newClass
  | newArray
  | arrayInitializer
  | arrayAccess
  | prefixExpression
  | postfixExpression
  | binaryExpression
  | assignment
  | conditionalExpression
  | instanceofExpression
  | pattern
  | typeCast
  | parenthesizedExpression
  | classLiteral
  | lambdaExpression
  | methodReference
  | switchExpression
deriving DecidableEq, Repr, Inhabited

/-- The name under which dumps and messages show the kind. -/
def NodeKind.name : NodeKind → String
  | .compilationUnit => "COMPILATION_UNIT"
  | .packageDecl => "PACKAGE_DECLARATION"
  | .importDecl => "IMPORT_DECLARATION"
  | .classDecl => "CLASS"
  | .interfaceDecl => "INTERFACE"
  | .enumDecl => "ENUM"
  | .recordDecl => "RECORD"
  | .enumConstant => "ENUM_CONSTANT"
  | .method => "METHOD"
  | .constructor => "CONSTRUCTOR"
  | .initializer => "INITIALIZER"
  | .staticInitializer => "STATIC_INITIALIZER"
  | .variableDecl => "VARIABLE"
  | .parameter => "PARAMETER"
  | .parameterList => "PARAMETER_LIST"
  | .emptyDecl => "EMPTY_DECLARATION"
  | .modifiers => "MODIFIERS"
  | .annotationUse => "ANNOTATION"
  | .typeParameters => "TYPE_PARAMETERS"
  | .typeParameter => "TYPE_PARAMETER"
  | .extendsClause => "EXTENDS_CLAUSE"
  | .implementsClause => "IMPLEMENTS_CLAUSE"
  | .permitsClause => "PERMITS_CLAUSE"
  | .throwsClause => "THROWS_CLAUSE"
  | .primitiveType => "PRIMITIVE_TYPE"
  | .varType => "VAR_TYPE"
  | .classType => "CLASS_TYPE"
  | .parameterizedType => "PARAMETERIZED_TYPE"
  | .typeArguments => "TYPE_ARGUMENTS"
  | .arrayType => "ARRAY_TYPE"
  | .wildcardType => "WILDCARD_TYPE"
  | .unionType => "UNION_TYPE"
  | .intersectionType => "INTERSECTION_TYPE"
  | .arrayDimension => "ARRAY_DIMENSION"
  | .block => "BLOCK"
  | .emptyStatement => "EMPTY_STATEMENT"
  | .expressionStatement => "EXPRESSION_STATEMENT"
  | .ifStatement => "IF_STATEMENT"
  | .whileStatement => "WHILE_STATEMENT"
  | .doStatement => "DO_STATEMENT"
  | .forStatement => "FOR_STATEMENT"
  | .forInit => "FOR_INIT"
  | .forUpdate => "FOR_UPDATE"
  | .foreachStatement => "FOREACH_STATEMENT"
  | .returnStatement => "RETURN_STATEMENT"
  | .breakStatement => "BREAK_STATEMENT"
  | .continueStatement => "CONTINUE_STATEMENT"
  | .yieldStatement => "YIELD_STATEMENT"
  | .labeledStatement => "LABELED_STATEMENT"
  | .throwStatement => "THROW_STATEMENT"
  | .tryStatement => "TRY_STATEMENT"
  | .resourceList => "RESOURCE_LIST"
  | .catchClause => "CATCH_CLAUSE"
  | .switchStatement => "SWITCH_STATEMENT"
  | .caseGroup => "CASE_GROUP"
  | .caseLabel => "CASE_LABEL"
  | .synchronizedStatement => "SYNCHRONIZED_STATEMENT"
  | .assertStatement => "ASSERT_STATEMENT"
  | .literal => "LITERAL"
  | .identifier => "IDENTIFIER"
  | .memberSelect => "MEMBER_SELECT"
  | .methodInvocation => "METHOD_INVOCATION"
  | .arguments => "ARGUMENTS"
  | .newClass => "NEW_CLASS"
  | .newArray => "NEW_ARRAY"
  | .arrayInitializer => "ARRAY_INITIALIZER"
  | .arrayAccess => "ARRAY_ACCESS"
  | .prefixExpression => "PREFIX_EXPRESSION"
  | .postfixExpression => "POSTFIX_EXPRESSION"
  | .binaryExpression => "BINARY_EXPRESSION"
  | .assignment => "ASSIGNMENT"
  | .conditionalExpression => "CONDITIONAL_EXPRESSION"
  | .instanceofExpression => "INSTANCEOF_EXPRESSION"
  | .pattern => "PATTERN"
  | .typeCast => "TYPE_CAST"
  | .parenthesizedExpression => "PARENTHESIZED_EXPRESSION"
  | .classLiteral => "CLASS_LITERAL"
  | .lambdaExpression => "LAMBDA_EXPRESSION"
  | .methodReference => "METHOD_REFERENCE"
  | .switchExpression => "SWITCH_EXPRESSION"

/-- All kinds of nodes in order. -/
def NodeKind.all : List NodeKind := [
  .compilationUnit, .packageDecl, .importDecl, .classDecl, .interfaceDecl, .enumDecl, .recordDecl,
  .enumConstant, .method, .constructor, .initializer, .staticInitializer, .variableDecl,
  .parameter, .parameterList, .emptyDecl, .modifiers, .annotationUse, .typeParameters,
  .typeParameter, .extendsClause, .implementsClause, .permitsClause, .throwsClause,
  .primitiveType, .varType, .classType, .parameterizedType, .typeArguments, .arrayType,
  .wildcardType, .unionType, .intersectionType, .arrayDimension, .block, .emptyStatement,
  .expressionStatement, .ifStatement, .whileStatement, .doStatement, .forStatement, .forInit,
  .forUpdate, .foreachStatement, .returnStatement, .breakStatement, .continueStatement,
  .yieldStatement, .labeledStatement, .throwStatement, .tryStatement, .resourceList, .catchClause,
  .switchStatement, .caseGroup, .caseLabel, .synchronizedStatement, .assertStatement, .literal,
  .identifier, .memberSelect, .methodInvocation, .arguments, .newClass, .newArray,
  .arrayInitializer, .arrayAccess, .prefixExpression, .postfixExpression, .binaryExpression,
  .assignment, .conditionalExpression, .instanceofExpression, .pattern, .typeCast,
  .parenthesizedExpression, .classLiteral, .lambdaExpression, .methodReference, .switchExpression]

end JavaAnalysis
