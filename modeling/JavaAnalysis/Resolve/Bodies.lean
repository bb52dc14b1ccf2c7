import JavaAnalysis.Resolve.Expr

/-!
# Binding names in bodies

The walk through declarations, statements and expressions. The members of a type are declared
before any body is entered, so that a body can refer to what is declared after it.
-/

set_option autoImplicit false

namespace JavaAnalysis.Binder

open Ast

/-- Declares the name of a method or constructor; methods of an interface are public. -/
def declareMethodName (owner : BindingId) (inInterface : Bool) (isConstructor : Bool)
    (modifiers : List Modifier) (name : Ident) : Binding.Walk BindingId := do
  let flags := ModifierSet.ofModifiers modifiers
  let flags := if inInterface && !flags.contains .private then flags.insert .public else flags
  let kind : BindingKind := if isConstructor then .constructor else .method
  let id ← allocate (.plain kind name.text .source (some owner) flags)
  bind name.range.start id
  return id

/-- The spelling and the class of the type that a method returns. -/
def resolveReturnType (brackets : Nat) :
    Option TypeRef → Binding.Walk (Option String × Option BindingId)
  | none => return (none, none)
  | some type => do
    let lookup ← resolveType false type
    return (some (TypeRef.withBrackets type.display brackets),
      if brackets = 0 then classOf? type lookup else none)

/-- The names of parameters. -/
def paramNames (params : Option (List Param)) : List Ident := (params.getD []).map Param.name

mutual

def resolveAnnotation : AnnotationUse → Binding.Walk Unit
  | .mk _ name _ args => do
    resolveMarkerName name
    resolveElementValues args

def resolveElementValues : List ElementValue → Binding.Walk Unit
  | [] => return ()
  | .mk _ _ value :: args => do
    let _ ← resolveExpr .value value
    resolveElementValues args

def resolveModifiers : List Modifier → Binding.Walk Unit
  | [] => return ()
  | .word _ _ :: modifiers => resolveModifiers modifiers
  | .annotated use :: modifiers => do
    resolveAnnotation use
    resolveModifiers modifiers

def resolveAnnotations : List AnnotationUse → Binding.Walk Unit
  | [] => return ()
  | use :: uses => do
    resolveAnnotation use
    resolveAnnotations uses

/-- Binds the annotations and the bounds of type parameters that are declared. -/
def resolveTypeParams : List TypeParam → Binding.Walk Unit
  | [] => return ()
  | .mk _ annotations _ bounds :: params => do
    resolveAnnotations annotations
    resolveTypes bounds
    resolveTypeParams params

/-- Declares the members of a type whose name is declared, and those of the types inside it. -/
def declareMembers : TypeDecl → Binding.Walk Unit
  | .mk _ kind _ name _ typeParams _ components supers interfaces permitted
      (.mk _ constants members) => do
    match (← get).boundAt? name.range.start with
    | none => return ()
    | some id =>
      inScope (.type id) do
        declareTypeParamNames id typeParams
        resolveTypeParams typeParams
        declareSupertypes id kind supers interfaces permitted
        declareComponents id components
        declareConstants id name.text constants
        declareMembersIn id (kind == .interfaceType || kind == .annotationType) members

def declareMembersIn (owner : BindingId) (inInterface : Bool) :
    List Member → Binding.Walk Unit
  | [] => return ()
  | .field decl :: members => do
    declareFields owner inInterface decl
    declareMembersIn owner inInterface members
  | .method decl :: members => do
    declareMethod owner inInterface decl
    declareMembersIn owner inInterface members
  | .type decl :: members => do
    declareMembers decl
    declareMembersIn owner inInterface members
  | .initializer _ _ _ :: members => declareMembersIn owner inInterface members

/-- Declares a method with its type parameters and parameters. -/
def declareMethod (owner : BindingId) (inInterface : Bool) : MethodDecl → Binding.Walk Unit
  | .mk _ modifiers _ typeParams returnType name _ params brackets thrown _ _ => do
    let id ← declareMethodName owner inInterface returnType.isNone modifiers name
    let ((typeName, typeBinding), spellings) ← inScope (.method id) do
      declareTypeParamNames id typeParams
      resolveTypeParams typeParams
      let returned ← resolveReturnType brackets.length returnType
      let spellings ← declareParams id params
      resolveTypes thrown
      return (returned, spellings)
    let varargs := params.any Param.isVarargs
    complete id fun data => { data with params := spellings, varargs, typeName, typeBinding }

/-- Binds the names in the body of a type whose members are declared. -/
def resolveTypeBody : TypeDecl → Binding.Walk Unit
  | .mk _ _ modifiers name _ typeParams _ components _ _ _ (.mk _ constants members) => do
    match (← get).boundAt? name.range.start with
    | none => return ()
    | some id =>
      inScope (.type id) do
        enterAgain (typeParams.map TypeParam.name)
        resolveModifiers modifiers
        resolveComponents components
        resolveConstants id constants
        resolveMembers members

def resolveComponents : List Param → Binding.Walk Unit
  | [] => return ()
  | .mk _ modifiers _ _ _ _ :: components => do
    resolveModifiers modifiers
    resolveComponents components

def resolveConstants (owner : BindingId) : List EnumConstant → Binding.Walk Unit
  | [] => return ()
  | .mk _ modifiers _ _ args body :: constants => do
    resolveModifiers modifiers
    resolveExprs args
    resolveAnonymous (some owner) body
    resolveConstants owner constants

/-- Declares and binds the body of a class without a name. -/
def resolveAnonymous (parent : Option BindingId) : Option ClassBody → Binding.Walk Unit
  | none => return ()
  | some (.mk range constants members) => do
    let id ← declareAnonymous range.start parent
    declareTypesIn id members
    inScope (.type id) do
      declareConstants id "" constants
      declareMembersIn id false members
      resolveConstants id constants
      resolveMembers members

def resolveMembers : List Member → Binding.Walk Unit
  | [] => return ()
  | .field (.mk _ modifiers _ fragments) :: members => do
    resolveModifiers modifiers
    resolveInits fragments
    resolveMembers members
  | .method decl :: members => do
    resolveMethod decl
    resolveMembers members
  | .initializer _ _ body :: members => do
    inScope .block (resolveBlock body)
    resolveMembers members
  | .type decl :: members => do
    resolveTypeBody decl
    resolveMembers members

/-- Binds the names in the initial values of fields. -/
def resolveInits : List VarFragment → Binding.Walk Unit
  | [] => return ()
  | .mk _ _ _ init :: fragments => do
    resolveOptional init
    resolveInits fragments

/-- Binds the names in a method that is declared. -/
def resolveMethod : MethodDecl → Binding.Walk Unit
  | .mk _ modifiers _ typeParams _ name paramsRange params _ _ defaultValue body => do
    match (← get).boundAt? name.range.start with
    | none => return ()
    | some id =>
      resolveModifiers modifiers
      inScope (.method id) do
        enterAgain (typeParams.map TypeParam.name)
        enterParams params
        if paramsRange.isNone then enterComponents
        resolveOptional defaultValue
        match body with
        | none => return ()
        | some block => resolveBlock block

/-- Brings declared parameters into scope. -/
def enterParams : List Param → Binding.Walk Unit
  | [] => return ()
  | .mk _ modifiers _ _ name _ :: params => do
    resolveModifiers modifiers
    enterAgain [name]
    enterParams params

/-- Declares local variables, each of which is in scope after its initial value. -/
def declareLocals : VarDecl → Binding.Walk Unit
  | .mk _ modifiers type fragments => do
    resolveModifiers modifiers
    let lookup ← resolveType false type
    declareFragments modifiers type lookup fragments

def declareFragments (modifiers : List Modifier) (type : TypeRef) (lookup : Lookup) :
    List VarFragment → Binding.Walk Unit
  | [] => return ()
  | .mk _ name brackets init :: fragments => do
    resolveOptional init
    declareLocal .localVariable modifiers (some type) lookup name brackets.length
    declareFragments modifiers type lookup fragments

/-- Declares the parameter of a lambda or a catch clause. -/
def declareParam : Param → Binding.Walk Unit
  | .mk _ modifiers type ellipsis name brackets => do
    resolveModifiers modifiers
    let lookup ← match type with
      | none => pure .unknown
      | some t => resolveType false t
    let dims := brackets.length + if ellipsis.isSome then 1 else 0
    declareLocal .parameter modifiers type lookup name dims

def declareLambdaParams : List Param → Binding.Walk Unit
  | [] => return ()
  | param :: params => do
    declareParam param
    declareLambdaParams params

/-- Declares the variable of a pattern. -/
def declarePattern : Pattern → Binding.Walk Unit
  | .mk _ modifiers type name => do
    resolveModifiers modifiers
    let lookup ← resolveType false type
    declareLocal .localVariable modifiers (some type) lookup name 0

def resolveBlock : Block → Binding.Walk Unit
  | .mk _ stmts => inScope .block (resolveStmts stmts)

def resolveStmts : List Stmt → Binding.Walk Unit
  | [] => return ()
  | s :: ss => do
    resolveStmt s
    resolveStmts ss

def resolveStmt : Stmt → Binding.Walk Unit
  | .block body => resolveBlock body
  | .localVar decl => declareLocals decl
  | .localType decl => do
    declareType (← get).currentOwner? decl
    enterAgain [decl.name]
    declareMembers decl
    resolveTypeBody decl
  | .expression _ e => do
    let _ ← resolveExpr .value e
  | .ifThen _ cond body => do
    let _ ← resolveExpr .value cond
    inScope .block (resolveStmt body)
  | .ifThenElse _ cond body alternative => do
    let _ ← resolveExpr .value cond
    inScope .block (resolveStmt body)
    inScope .block (resolveStmt alternative)
  | .whileLoop _ cond body => do
    let _ ← resolveExpr .value cond
    inScope .block (resolveStmt body)
  | .doLoop _ body cond => do
    inScope .block (resolveStmt body)
    let _ ← resolveExpr .value cond
  | .forLoop _ init cond update body =>
    inScope .block do
      resolveForInit init
      resolveOptional cond
      resolveExprs update
      inScope .block (resolveStmt body)
  | .forEach _ var iterable body => do
    let _ ← resolveExpr .value iterable
    inScope .block do
      declareLocals var
      inScope .block (resolveStmt body)
  | .returning _ e => resolveOptional e
  | .breaking _ _ => return ()
  | .continuing _ _ => return ()
  | .yielding _ e => do
    let _ ← resolveExpr .value e
  | .labeled _ _ body => inScope .block (resolveStmt body)
  | .throwing _ e => do
    let _ ← resolveExpr .value e
  | .trying _ _ resources body catches final => do
    inScope .block do
      resolveResources resources
      resolveBlock body
    resolveCatches catches
    match final with
    | none => return ()
    | some block => resolveBlock block
  | .switching _ selector _ cases => do
    let _ ← resolveExpr .value selector
    let enumType := (← get).enumOf? selector
    inScope .block (resolveCases enumType cases)
  | .synchronizing _ lock body => do
    let _ ← resolveExpr .value lock
    resolveBlock body
  | .asserting _ cond message => do
    let _ ← resolveExpr .value cond
    resolveOptional message
  | .empty _ => return ()

def resolveForInit : ForInit → Binding.Walk Unit
  | .absent => return ()
  | .decl decl => declareLocals decl
  | .exprs es => resolveExprs es

def resolveResources : List Resource → Binding.Walk Unit
  | [] => return ()
  | .decl decl :: resources => do
    declareLocals decl
    resolveResources resources
  | .expr e :: resources => do
    let _ ← resolveExpr .value e
    resolveResources resources

def resolveCatches : List CatchClause → Binding.Walk Unit
  | [] => return ()
  | .mk _ param body :: catches => do
    inScope .block do
      declareParam param
      resolveBlock body
    resolveCatches catches

/-- Binds the cases of a switch; what a pattern declares stays within its case. -/
def resolveCases (enumType : Option BindingId) : List SwitchCase → Binding.Walk Unit
  | [] => return ()
  | .mk _ labels arrow body :: cases => do
    let step : Binding.Walk Unit := do
      resolveLabels enumType labels
      resolveStmts body
    if arrow || labels.any CaseLabel.isPattern then inScope .block step else step
    resolveCases enumType cases

def resolveLabels (enumType : Option BindingId) : List CaseLabel → Binding.Walk Unit
  | [] => return ()
  | .default _ :: labels => resolveLabels enumType labels
  | .values _ values :: labels => do
    resolveCaseValues enumType values
    resolveLabels enumType labels
  | .pattern _ pattern guard :: labels => do
    declarePattern pattern
    resolveOptional guard
    resolveLabels enumType labels

def resolveCaseValues (enumType : Option BindingId) : List Expr → Binding.Walk Unit
  | [] => return ()
  | .name name :: values => do
    resolveCaseName enumType name
    resolveCaseValues enumType values
  | value :: values => do
    let _ ← resolveExpr .value value
    resolveCaseValues enumType values

def resolveExprs : List Expr → Binding.Walk Unit
  | [] => return ()
  | e :: es => do
    let _ ← resolveExpr .value e
    resolveExprs es

def resolveOptional : Option Expr → Binding.Walk Unit
  | none => return ()
  | some e => do
    let _ ← resolveExpr .value e

def resolveDims : List DimExpr → Binding.Walk Unit
  | [] => return ()
  | .mk _ size :: dims => do
    resolveOptional size
    resolveDims dims

/-- Binds the names in an expression; what the expression is if it stands in front of a dot. -/
def resolveExpr (use : NameUse) (e : Expr) : Binding.Walk Qualifier := do
  match e with
  | .literal _ _ => valueQualifier use e
  | .name name => resolveName use name
  | .fieldAccess _ target name =>
    let b ← get
    match if use = .target then b.assignedField? target name else none with
    | some field =>
      bind name.range.start field
      return .unknown
    | none => select (← resolveExpr .qualifier target) name
  | .methodCall _ target _ typeArgs name _ args =>
    resolveTypes typeArgs
    resolveExprs args
    match target with
    | none => resolveSimpleCall name args
    | some t => resolveMemberCall (← resolveExpr .qualifier t) name args
    valueQualifier use e
  | .newObject _ outer type _ args body =>
    let lookup ← match outer with
      | none => resolveType false type
      | some o => do
        let _ ← resolveExpr .value o
        resolveInnerType ((← get).exprType? o) type
    resolveExprs args
    resolveAnonymous lookup.binding? body
    valueQualifier use e
  | .newArray _ element dims _ init =>
    let _ ← resolveType false element
    resolveDims dims
    resolveExprs init
    valueQualifier use e
  | .arrayInit _ items =>
    resolveExprs items
    valueQualifier use e
  | .arrayAccess _ array index =>
    let _ ← resolveExpr .value array
    let _ ← resolveExpr .value index
    valueQualifier use e
  | .unary _ _ operand =>
    let _ ← resolveExpr .value operand
    valueQualifier use e
  | .binary _ _ lhs rhs =>
    let _ ← resolveExpr .value lhs
    let _ ← resolveExpr .value rhs
    valueQualifier use e
  | .assign _ op target value =>
    let _ ← resolveExpr .value value
    let _ ← resolveExpr (if op = .assign then .target else .value) target
    valueQualifier use e
  | .conditional _ cond yes no =>
    let _ ← resolveExpr .value cond
    let _ ← resolveExpr .value yes
    let _ ← resolveExpr .value no
    valueQualifier use e
  | .instanceOf _ operand type =>
    let _ ← resolveExpr .value operand
    let _ ← resolveType false type
    valueQualifier use e
  | .instanceOfPattern _ operand pattern =>
    let _ ← resolveExpr .value operand
    declarePattern pattern
    valueQualifier use e
  | .cast _ type operand =>
    let _ ← resolveType false type
    let _ ← resolveExpr .value operand
    valueQualifier use e
  | .paren _ inner =>
    let _ ← resolveExpr .value inner
    valueQualifier use e
  | .this _ => return .value (← get).currentType?
  | .super _ => valueQualifier use e
  | .classLiteral _ type =>
    let _ ← resolveType false type
    valueQualifier use e
  | .lambdaExpr _ _ params _ body =>
    inScope .block do
      declareLambdaParams params
      let _ ← resolveExpr .value body
    valueQualifier use e
  | .lambdaBlock _ _ params _ body =>
    inScope .block do
      declareLambdaParams params
      resolveBlock body
    valueQualifier use e
  | .methodRef _ target name =>
    resolveMethodRef (← resolveExpr .qualifier target) name
    valueQualifier use e
  | .switching range selector _ cases =>
    let _ ← resolveExpr .value selector
    checkExhaustive range selector cases
    let enumType := (← get).enumOf? selector
    inScope .block (resolveCases enumType cases)
    valueQualifier use e
  | .annotated marker =>
    resolveAnnotation marker
    valueQualifier use e
  | .type type =>
    match ← resolveType false type with
    | .found id => return if type.isArray then .unknown else .type id
    | _ => return .unknown

end

end JavaAnalysis.Binder
