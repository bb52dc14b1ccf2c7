import JavaAnalysis.Parser.Expressions

/-!
# Parsing declarations
-/

set_option autoImplicit false

namespace JavaAnalysis.Parser

open Ast

/-- The word that starts a record declaration, which is no keyword. -/
def State.isAtRecord (s : State) : Bool :=
  s.isWord 0 "record" && s.kind 1 == .ident && (s.kind 2 == .lParen || s.kind 2 == .lt)

/-- What kind of type is declared here, with the number of lexemes that say so. -/
def State.typeDeclAhead? (s : State) : Option (TypeDeclKind × Nat) :=
  match s.kind 0 with
  | .classKw => some (.classType, 1)
  | .interfaceKw => some (.interfaceType, 1)
  | .enumKw => some (.enumType, 1)
  | .atSign => if s.kind 1 == .interfaceKw then some (.annotationType, 2) else none
  | .ident => if s.isAtRecord then some (.recordType, 1) else none
  | _ => none

/-- One declared variable from behind its name on. -/
def varFragment (g : Grammar) (name : Ident) : Parser VarFragment := do
  let pairs ← brackets
  let init ← if ← eat .eq then some <$> g.varInit else pure none
  return .mk (← rangeFrom name.range.start) name pairs init

/-- Further declared variables of a declaration. -/
def moreFragments (g : Grammar) : Parser (List VarFragment) := do
  if ← eat .comma then separated .comma (do varFragment g (← ident)) else return []

/-- The variables of a declaration from behind the name of the first one on. -/
def varFragments (g : Grammar) (first : Ident) : Parser (List VarFragment) := do
  let fragment ← varFragment g first
  return fragment :: (← moreFragments g)

/-- A declaration of variables, with its semicolon, from behind the first name on. -/
def varDecl (g : Grammar) (start : Nat) (modifiers : List Modifier) (type : TypeRef)
    (first : Ident) : Parser VarDecl := do
  let fragments ← varFragments g first
  let _ ← expect .semicolon
  return .mk (← rangeFrom start) modifiers type fragments

/-- A method or constructor from behind its name on. -/
def methodRest (g : Grammar) (start : Nat) (modifiers : List Modifier)
    (typeParams : Option TextRange × List TypeParam) (returnType : Option TypeRef)
    (name : Ident) : Parser MethodDecl := do
  let (paramsRange, params) ← formalParams g
  let pairs ← brackets
  let thrown ← if ← eat .throwsKw then typeList g else pure []
  let defaultValue ← if ← eat .defaultKw then some <$> g.elementValue else pure none
  if ← isAt .lBrace then
    let body ← g.block
    return .mk (← rangeFrom start) modifiers typeParams.1 typeParams.2 returnType name
      (some paramsRange) params pairs thrown defaultValue (some body)
  else
    let _ ← expect .semicolon
    return .mk (← rangeFrom start) modifiers typeParams.1 typeParams.2 returnType name
      (some paramsRange) params pairs thrown defaultValue none

/-- A method, constructor or field from behind its modifiers and type parameters on. -/
def memberRest (g : Grammar) (owner : TypeDeclKind) (start : Nat) (modifiers : List Modifier)
    (typeParams : Option TextRange × List TypeParam) : Parser Member := do
  let s ← get
  if s.kind 0 == .ident && s.kind 1 == .lParen then
    .method <$> methodRest g start modifiers typeParams none (← ident)
  else if owner == .recordType && s.kind 0 == .ident && s.kind 1 == .lBrace then
    let name ← ident
    let body ← g.block
    return .method (.mk (← rangeFrom start) modifiers typeParams.1 typeParams.2 none name none []
      [] [] none (some body))
  else
    let type ← type g
    let name ← ident
    if ← isAt .lParen then
      .method <$> methodRest g start modifiers typeParams (some type) name
    else if typeParams.1.isSome then expected "\"(\""
    else .field <$> varDecl g start modifiers type name

/-- A member of a type of kind `owner`; a stray semicolon is none. -/
def member? (g : Grammar) (owner : TypeDeclKind) : Parser (Option Member) := do
  let s ← get
  let start := s.start
  if ← eat .semicolon then return none
  else if s.kind 0 == .lBrace || (s.kind 0 == .staticKw && s.kind 1 == .lBrace) then
    let isStatic ← eat .staticKw
    let body ← g.block
    return some (.initializer (← rangeFrom start) isStatic body)
  else
    let modifiers ← modifiers g
    if (← get).typeDeclAhead?.isSome then
      return some (.type (← g.typeDecl start modifiers))
    else
      let typeParams ← typeParams g
      some <$> memberRest g owner start modifiers typeParams

/-- The members of a type of kind `owner`, up to its closing brace. -/
def members (g : Grammar) (owner : TypeDeclKind) : Parser (List Member) := do
  let all ← many (fun s => s.kind 0 != .rBrace && s.kind 0 != .endOfFile) (member? g owner)
  return all.filterMap id

/-- The body of a type of the given kind, which has no enum constants. -/
def classBody (g : Grammar) (kind : TypeDeclKind) : Parser ClassBody := do
  let start ← startHere
  let _ ← expect .lBrace
  let members ← members g kind
  let _ ← expect .rBrace
  return .mk (← rangeFrom start) [] members

def enumConstant (g : Grammar) : Parser EnumConstant := do
  let start ← startHere
  let modifiers ← modifiers g
  let name ← ident
  let (argsRange, args) ← if ← isAt .lParen then
      let (range, args) ← arguments g
      pure (some range, args)
    else pure (none, [])
  let body ← classBody? g
  return .mk (← rangeFrom start) modifiers name argsRange args body

/-- The body of an enum: its constants, then perhaps a semicolon and members. -/
def enumBody (g : Grammar) : Parser ClassBody := do
  let start ← startHere
  let _ ← expect .lBrace
  let stop (s : State) := s.kind 0 == .semicolon || s.kind 0 == .rBrace
  let constants ← terminated .comma stop (enumConstant g)
  let members ← if ← eat .semicolon then members g .enumType else pure []
  let _ ← expect .rBrace
  return .mk (← rangeFrom start) constants members

/-- A type declaration behind its modifiers, which start at `start`. -/
def typeDecl (g : Grammar) (start : Nat) (modifiers : List Modifier) : Parser TypeDecl := do
  match (← get).typeDeclAhead? with
  | none => expected "class, interface, enum, or record"
  | some (kind, n) =>
    advanceBy n
    let name ← ident
    let (typeParamsRange, typeParams) ← typeParams g
    let (componentsRange, components) ← if kind == .recordType then
        let (range, params) ← formalParams g
        pure (some range, params)
      else pure (none, [])
    let supers ← if ← eat .extendsKw then
        if kind == .interfaceType then typeList g else List.singleton <$> g.type
      else pure []
    let interfaces ← if ← eat .implementsKw then typeList g else pure []
    let sealable := kind == .classType || kind == .interfaceType
    let permitted ← if sealable && (← get).isWord 0 "permits" then
        let _ ← advance
        typeList g
      else pure []
    let body ← if kind == .enumType then enumBody g else classBody g kind
    return .mk (← rangeFrom start) kind modifiers name typeParamsRange typeParams componentsRange
      components supers interfaces permitted body

end JavaAnalysis.Parser
