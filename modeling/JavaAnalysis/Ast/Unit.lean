import JavaAnalysis.Ast.Basic

/-!
# Abstract syntax of a source file

Declarations, statements and expressions, each with the range of the text it was parsed from.
Ranges of bracketed lists include the brackets; a list whose brackets may be left out has an
optional range beside it.
-/

set_option autoImplicit false

namespace JavaAnalysis.Ast

mutual

/-- An annotation, `@Name` or `@Name(...)`. -/
inductive AnnotationUse where
  | mk (range : TextRange) (name : QualifiedName) (argsRange : Option TextRange)
      (args : List ElementValue)

/-- An argument of an annotation; a lone value has no name. -/
inductive ElementValue where
  | mk (range : TextRange) (name : Option Ident) (value : Expr)

inductive Modifier where
  | word (range : TextRange) (word : ModifierWord)
  | annotated (use : AnnotationUse)

inductive TypeDecl where
  | mk (range : TextRange) (kind : TypeDeclKind) (modifiers : List Modifier) (name : Ident)
      (typeParamsRange : Option TextRange) (typeParams : List TypeParam)
      (componentsRange : Option TextRange) (components : List Param)
      (supers interfaces permitted : List TypeRef) (body : ClassBody)

inductive ClassBody where
  | mk (range : TextRange) (constants : List EnumConstant) (members : List Member)

inductive EnumConstant where
  | mk (range : TextRange) (modifiers : List Modifier) (name : Ident)
      (argsRange : Option TextRange) (args : List Expr) (body : Option ClassBody)

inductive Member where
  | field (decl : VarDecl)
  | method (decl : MethodDecl)
  | initializer (range : TextRange) (isStatic : Bool) (body : Block)
  | type (decl : TypeDecl)

/-- A declaration of variables that share modifiers and a type. -/
inductive VarDecl where
  | mk (range : TextRange) (modifiers : List Modifier) (type : TypeRef)
      (fragments : List VarFragment)

/-- One declared variable, from its name to the end of its initial value. -/
inductive VarFragment where
  | mk (range : TextRange) (name : Ident) (brackets : List TextRange) (init : Option Expr)

/--
A method or, without a return type, a constructor. The compact constructor of a record has no
parameter list.
-/
inductive MethodDecl where
  | mk (range : TextRange) (modifiers : List Modifier) (typeParamsRange : Option TextRange)
      (typeParams : List TypeParam) (returnType : Option TypeRef) (name : Ident)
      (paramsRange : Option TextRange) (params : List Param) (brackets : List TextRange)
      (thrown : List TypeRef) (defaultValue : Option Expr) (body : Option Block)

/-- A parameter; an implicitly typed one of a lambda has no type. -/
inductive Param where
  | mk (range : TextRange) (modifiers : List Modifier) (type : Option TypeRef)
      (ellipsis : Option TextRange) (name : Ident) (brackets : List TextRange)

inductive TypeParam where
  | mk (range : TextRange) (annotations : List AnnotationUse) (name : Ident)
      (bounds : List TypeRef)

inductive Block where
  | mk (range : TextRange) (stmts : List Stmt)

/-- What a `for` loop starts with. -/
inductive ForInit where
  | absent
  | decl (decl : VarDecl)
  | exprs (exprs : List Expr)

/-- What a `try` statement closes. -/
inductive Resource where
  | decl (decl : VarDecl)
  | expr (expr : Expr)

inductive CatchClause where
  | mk (range : TextRange) (param : Param) (body : Block)

/-- Labels of a switch with the statements they lead to. -/
inductive SwitchCase where
  | mk (range : TextRange) (labels : List CaseLabel) (arrow : Bool) (body : List Stmt)

/-- A label of a switch, from its first word through the colon or the arrow. -/
inductive CaseLabel where
  | default (range : TextRange)
  | values (range : TextRange) (values : List Expr)
  | pattern (range : TextRange) (pattern : Pattern) (guard : Option Expr)

/-- A type test that names what it has tested. -/
inductive Pattern where
  | mk (range : TextRange) (modifiers : List Modifier) (type : TypeRef) (name : Ident)

inductive Stmt where
  | block (block : Block)
  | localVar (decl : VarDecl)
  | localType (decl : TypeDecl)
  | expression (range : TextRange) (expr : Expr)
  | ifThen (range : TextRange) (cond : Expr) (body : Stmt)
  | ifThenElse (range : TextRange) (cond : Expr) (body alternative : Stmt)
  | whileLoop (range : TextRange) (cond : Expr) (body : Stmt)
  | doLoop (range : TextRange) (body : Stmt) (cond : Expr)
  | forLoop (range : TextRange) (init : ForInit) (cond : Option Expr) (update : List Expr)
      (body : Stmt)
  | forEach (range : TextRange) (var : VarDecl) (iterable : Expr) (body : Stmt)
  | returning (range : TextRange) (expr : Option Expr)
  | breaking (range : TextRange) (label : Option Ident)
  | continuing (range : TextRange) (label : Option Ident)
  | yielding (range : TextRange) (expr : Expr)
  | labeled (range : TextRange) (label : Ident) (body : Stmt)
  | throwing (range : TextRange) (expr : Expr)
  | trying (range : TextRange) (resourcesRange : Option TextRange) (resources : List Resource)
      (body : Block) (catches : List CatchClause) (final : Option Block)
  | switching (range : TextRange) (selector : Expr) (casesRange : TextRange)
      (cases : List SwitchCase)
  | synchronizing (range : TextRange) (lock : Expr) (body : Block)
  | asserting (range : TextRange) (cond : Expr) (message : Option Expr)
  | empty (range : TextRange)

inductive Expr where
  | literal (range : TextRange) (kind : LiteralKind)
  | name (name : Ident)
  | fieldAccess (range : TextRange) (target : Expr) (name : Ident)
  | methodCall (range : TextRange) (target : Option Expr) (typeArgsRange : Option TextRange)
      (typeArgs : List TypeRef) (name : Ident) (argsRange : TextRange) (args : List Expr)
  /-- The creation of an object, of an inner class if there is an outer object before it. -/
  | newObject (range : TextRange) (outer : Option Expr) (type : TypeRef) (argsRange : TextRange)
      (args : List Expr) (body : Option ClassBody)
  | newArray (range : TextRange) (element : TypeRef) (dims : List DimExpr)
      (initRange : Option TextRange) (init : List Expr)
  | arrayInit (range : TextRange) (items : List Expr)
  | arrayAccess (range : TextRange) (array index : Expr)
  | unary (range : TextRange) (op : UnaryOp) (operand : Expr)
  | binary (range : TextRange) (op : BinaryOp) (lhs rhs : Expr)
  | assign (range : TextRange) (op : AssignOp) (target value : Expr)
  | conditional (range : TextRange) (cond yes no : Expr)
  | instanceOf (range : TextRange) (expr : Expr) (type : TypeRef)
  | instanceOfPattern (range : TextRange) (expr : Expr) (pattern : Pattern)
  | cast (range : TextRange) (type : TypeRef) (expr : Expr)
  | paren (range : TextRange) (expr : Expr)
  | this (range : TextRange)
  | super (range : TextRange)
  | classLiteral (range : TextRange) (type : TypeRef)
  | lambdaExpr (range : TextRange) (paramsRange : TextRange) (params : List Param)
      (parenthesized : Bool) (body : Expr)
  | lambdaBlock (range : TextRange) (paramsRange : TextRange) (params : List Param)
      (parenthesized : Bool) (body : Block)
  /-- A method reference; without a name it refers to a constructor. -/
  | methodRef (range : TextRange) (target : Expr) (name : Option Ident)
  | switching (range : TextRange) (selector : Expr) (casesRange : TextRange)
      (cases : List SwitchCase)
  /-- An annotation as the value of an annotation element. -/
  | annotated (use : AnnotationUse)
  /-- A type as the target of a method reference. -/
  | type (type : TypeRef)

/-- A dimension of a new array, with its size if it is given. -/
inductive DimExpr where
  | mk (range : TextRange) (size : Option Expr)

end

/-- The package a file belongs to. -/
structure PackageDecl where
  range : TextRange
  annotations : List AnnotationUse
  name : QualifiedName

structure ImportDecl where
  range : TextRange
  isStatic : Bool
  name : QualifiedName
  /-- All members of the name are imported, by a star behind it. -/
  onDemand : Bool

/-- A source file. -/
structure CompilationUnit where
  range : TextRange
  package : Option PackageDecl
  imports : List ImportDecl
  types : List TypeDecl

/-- The file that declares nothing, of a text of the given length. -/
def CompilationUnit.blank (length : Nat) : CompilationUnit := ⟨.upTo length, none, [], []⟩

end JavaAnalysis.Ast
