import JavaAnalysis.Ast.Outline

/-!
# The regions of a file

All that the abstract syntax gives a range to, as one tree: declarations, statements, expressions
and types, but also names, lists in brackets, pairs of brackets, modifiers and labels. The regions
inside a region are told in the order in which they are written. A region knows which part of the
outline it is, if it is one.
-/

set_option autoImplicit false

namespace JavaAnalysis.Ast

/-- The range of a part. -/
@[simp]
def Part.range : Part → TextRange
  | type decl => decl.range
  | member m => m.range
  | .variables decl => decl.range
  | method decl => decl.range
  | param p => p.range
  | annotated use => use.range
  | block b => b.range
  | stmt s => s.range
  | expr e => e.range
  | typeRef t => t.range

/-- A piece of syntax with the pieces inside it. -/
inductive Region where
  /-- A part of the outline. -/
  | part (part : Part) (inside : List Region)
  /-- Something inside a part, or around parts. -/
  | detail (range : TextRange) (inside : List Region)
  /-- The row of modifiers of a pattern. -/
  | patternModifiers (range : TextRange) (inside : List Region)

namespace Region

def range : Region → TextRange
  | part p _ => p.range
  | detail r _ => r
  | patternModifiers r _ => r

/-- The regions directly inside a region. -/
def inside : Region → List Region
  | part _ rs => rs
  | detail _ rs => rs
  | patternModifiers _ rs => rs

/-- A region without anything inside it. -/
def leaf (range : TextRange) : Region := detail range []

section

variable (p : Part) (r : TextRange) (rs : List Region)

@[simp] theorem range_part : (part p rs).range = p.range := rfl

@[simp] theorem inside_part : (part p rs).inside = rs := rfl

@[simp] theorem range_detail : (detail r rs).range = r := rfl

@[simp] theorem inside_detail : (detail r rs).inside = rs := rfl

@[simp] theorem range_leaf : (leaf r).range = r := rfl

@[simp] theorem inside_leaf : (leaf r).inside = [] := rfl

end

/-- A list in brackets, if it has brackets; one without them leaves its items. -/
def listed (range? : Option TextRange) (items : List Region) : List Region :=
  match range? with
  | some range => [detail range items]
  | none => items

mutual

/-- A region and all regions inside it, each before those inside it. -/
def all : Region → List Region
  | part p rs => part p rs :: allOf rs
  | detail r rs => detail r rs :: allOf rs
  | patternModifiers r rs => patternModifiers r rs :: allOf rs

def allOf : List Region → List Region
  | [] => []
  | r :: rs => r.all ++ allOf rs

end

end Region

open Region (part detail leaf listed)

def Ident.region (name : Ident) : Region := leaf name.range

def QualifiedName.region (name : QualifiedName) : Region :=
  detail name.range (name.segments.map Ident.region)

mutual

def TypeRef.region (t : TypeRef) : Region :=
  match t with
  | .primitive _ _ => part (.typeRef t) []
  | .inferred _ => part (.typeRef t) []
  | .named _ none name argsRange args =>
    part (.typeRef t) (name.region :: listed argsRange (TypeRef.regions args))
  | .named _ (some q) name argsRange args =>
    part (.typeRef t) (q.region :: name.region :: listed argsRange (TypeRef.regions args))
  | .array _ element brackets => part (.typeRef t) [element.region, leaf brackets]
  | .wildcard _ => part (.typeRef t) []
  | .bounded _ _ bound => part (.typeRef t) [bound.region]
  | .union _ types => part (.typeRef t) (TypeRef.regions types)
  | .intersection _ types => part (.typeRef t) (TypeRef.regions types)

def TypeRef.regions : List TypeRef → List Region
  | [] => []
  | t :: ts => t.region :: TypeRef.regions ts

end

/-- The row of modifiers, if there are any, with what each of them leaves. -/
def modifierRegions (ms : List Modifier) (items : List Region) : List Region :=
  listed (Modifier.rangeOfAll? ms) items

/-- The row of modifiers of a pattern, if there are any. -/
def patternModifierRegions (ms : List Modifier) (items : List Region) : List Region :=
  match Modifier.rangeOfAll? ms with
  | some range => [.patternModifiers range items]
  | none => []

mutual

def AnnotationUse.region (use : AnnotationUse) : Region :=
  match use with
  | .mk _ name argsRange args =>
    part (.annotated use) (name.region :: listed argsRange (elementRegions args))

def elementRegions : List ElementValue → List Region
  | [] => []
  | .mk r name value :: args =>
    detail r (name.toList.map Ident.region ++ [value.region]) :: elementRegions args

def AnnotationUse.regions : List AnnotationUse → List Region
  | [] => []
  | use :: uses => use.region :: AnnotationUse.regions uses

/-- Each modifier of a row. -/
def modifierItems : List Modifier → List Region
  | [] => []
  | .word r _ :: ms => leaf r :: modifierItems ms
  | .annotated use :: ms => use.region :: modifierItems ms

def typeParamRegions : List TypeParam → List Region
  | [] => []
  | .mk r annotations name bounds :: params =>
    detail r (AnnotationUse.regions annotations ++ name.region :: TypeRef.regions bounds) ::
      typeParamRegions params

def TypeDecl.region (decl : TypeDecl) : Region :=
  match decl with
  | .mk _ _ ms name typeParamsRange typeParams componentsRange components supers interfaces
      permitted body =>
    part (.type decl) (modifierRegions ms (modifierItems ms) ++ name.region ::
      listed typeParamsRange (typeParamRegions typeParams) ++
      listed componentsRange (Param.regions components) ++ TypeRef.regions supers ++
      TypeRef.regions interfaces ++ TypeRef.regions permitted ++ [body.region])

def ClassBody.region : ClassBody → Region
  | .mk r constants members => detail r (constantRegions constants ++ Member.regions members)

def bodyRegions : Option ClassBody → List Region
  | none => []
  | some body => [body.region]

def constantRegions : List EnumConstant → List Region
  | [] => []
  | .mk r ms name argsRange args body :: constants =>
    detail r (modifierRegions ms (modifierItems ms) ++ name.region ::
      listed argsRange (Expr.regions args) ++ bodyRegions body) :: constantRegions constants

def Member.region (member : Member) : Region :=
  match member with
  | .field decl => part (.member member) [decl.region]
  | .method decl => part (.member member) [decl.region]
  | .initializer _ _ body => part (.member member) [body.region]
  | .type decl => part (.member member) [decl.region]

def Member.regions : List Member → List Region
  | [] => []
  | m :: ms => m.region :: Member.regions ms

def VarDecl.region (decl : VarDecl) : Region :=
  match decl with
  | .mk _ ms type fragments =>
    part (.variables decl)
      (modifierRegions ms (modifierItems ms) ++ type.region :: fragmentRegions fragments)

def fragmentRegions : List VarFragment → List Region
  | [] => []
  | .mk r name brackets init :: fragments =>
    detail r (name.region :: brackets.map leaf ++ optionalRegions init) ::
      fragmentRegions fragments

def MethodDecl.region (decl : MethodDecl) : Region :=
  match decl with
  | .mk _ ms typeParamsRange typeParams returnType name paramsRange params brackets thrown
      defaultValue body =>
    part (.method decl) (modifierRegions ms (modifierItems ms) ++
      listed typeParamsRange (typeParamRegions typeParams) ++
      TypeRef.regions returnType.toList ++ name.region ::
      listed paramsRange (Param.regions params) ++ brackets.map leaf ++
      TypeRef.regions thrown ++ optionalRegions defaultValue ++ blockRegions body)

def Param.region (param : Param) : Region :=
  match param with
  | .mk _ ms type ellipsis name brackets =>
    part (.param param) (modifierRegions ms (modifierItems ms) ++
      TypeRef.regions type.toList ++ ellipsis.toList.map leaf ++ name.region :: brackets.map leaf)

def Param.regions : List Param → List Region
  | [] => []
  | p :: ps => p.region :: Param.regions ps

def Block.region (block : Block) : Region :=
  match block with
  | .mk _ stmts => part (.block block) (Stmt.regions stmts)

def blockRegions : Option Block → List Region
  | none => []
  | some block => [block.region]

def Stmt.regions : List Stmt → List Region
  | [] => []
  | s :: ss => s.region :: Stmt.regions ss

def Stmt.region (s : Stmt) : Region :=
  match s with
  | .block body => part (.stmt s) [body.region]
  | .localVar decl => part (.stmt s) [decl.region]
  | .localType decl => part (.stmt s) [decl.region]
  | .expression _ e => part (.stmt s) [e.region]
  | .ifThen _ cond body => part (.stmt s) [cond.region, body.region]
  | .ifThenElse _ cond body alternative =>
    part (.stmt s) [cond.region, body.region, alternative.region]
  | .whileLoop _ cond body => part (.stmt s) [cond.region, body.region]
  | .doLoop _ body cond => part (.stmt s) [body.region, cond.region]
  | .forLoop _ init cond update body =>
    part (.stmt s) (forInitRegions init ++ optionalRegions cond ++ Expr.regions update ++
      [body.region])
  | .forEach _ var iterable body =>
    part (.stmt s) [var.region, iterable.region, body.region]
  | .returning _ e => part (.stmt s) (optionalRegions e)
  | .breaking _ label => part (.stmt s) (label.toList.map Ident.region)
  | .continuing _ label => part (.stmt s) (label.toList.map Ident.region)
  | .yielding _ e => part (.stmt s) [e.region]
  | .labeled _ label body => part (.stmt s) [label.region, body.region]
  | .throwing _ e => part (.stmt s) [e.region]
  | .trying _ resourcesRange resources body catches final =>
    part (.stmt s) (listed resourcesRange (resourceRegions resources) ++
      body.region :: catchRegions catches ++ blockRegions final)
  | .switching _ selector casesRange cases =>
    part (.stmt s) [selector.region, detail casesRange (caseRegions cases)]
  | .synchronizing _ lock body => part (.stmt s) [lock.region, body.region]
  | .asserting _ cond message =>
    part (.stmt s) (cond.region :: optionalRegions message)
  | .empty _ => part (.stmt s) []

def forInitRegions : ForInit → List Region
  | .absent => []
  | .decl decl => [decl.region]
  | .exprs es => Expr.regions es

def resourceRegions : List Resource → List Region
  | [] => []
  | .decl decl :: resources => decl.region :: resourceRegions resources
  | .expr e :: resources => e.region :: resourceRegions resources

def catchRegions : List CatchClause → List Region
  | [] => []
  | .mk r param body :: catches =>
    detail r [param.region, body.region] :: catchRegions catches

def caseRegions : List SwitchCase → List Region
  | [] => []
  | .mk r labels _ body :: cases =>
    detail r (labelRegions labels ++ Stmt.regions body) :: caseRegions cases

def labelRegions : List CaseLabel → List Region
  | [] => []
  | .default r :: labels => leaf r :: labelRegions labels
  | .values r values :: labels => detail r (Expr.regions values) :: labelRegions labels
  | .pattern r pattern guard :: labels =>
    detail r (pattern.region :: optionalRegions guard) :: labelRegions labels

def Pattern.region : Pattern → Region
  | .mk r ms type name =>
    detail r (patternModifierRegions ms (modifierItems ms) ++ [type.region, name.region])

def optionalRegions : Option Expr → List Region
  | none => []
  | some e => [e.region]

def dimRegions : List DimExpr → List Region
  | [] => []
  | .mk r size :: dims => detail r (optionalRegions size) :: dimRegions dims

def Expr.regions : List Expr → List Region
  | [] => []
  | e :: es => e.region :: Expr.regions es

def Expr.region (e : Expr) : Region :=
  match e with
  | .literal _ _ => part (.expr e) []
  | .name name => part (.expr e) [name.region]
  | .fieldAccess _ target name => part (.expr e) [target.region, name.region]
  | .methodCall _ target typeArgsRange typeArgs name argsRange args =>
    part (.expr e) (optionalRegions target ++
      listed typeArgsRange (TypeRef.regions typeArgs) ++
      [name.region, detail argsRange (Expr.regions args)])
  | .newObject _ outer type argsRange args body =>
    part (.expr e) (optionalRegions outer ++ type.region ::
      detail argsRange (Expr.regions args) :: bodyRegions body)
  | .newArray _ element dims initRange init =>
    part (.expr e) (element.region :: dimRegions dims ++
      listed initRange (Expr.regions init))
  | .arrayInit _ items => part (.expr e) (Expr.regions items)
  | .arrayAccess _ array index => part (.expr e) [array.region, index.region]
  | .unary _ _ operand => part (.expr e) [operand.region]
  | .binary _ _ lhs rhs => part (.expr e) [lhs.region, rhs.region]
  | .assign _ _ target value => part (.expr e) [target.region, value.region]
  | .conditional _ cond yes no => part (.expr e) [cond.region, yes.region, no.region]
  | .instanceOf _ operand type => part (.expr e) [operand.region, type.region]
  | .instanceOfPattern _ operand pattern =>
    part (.expr e) [operand.region, pattern.region]
  | .cast _ type operand => part (.expr e) [type.region, operand.region]
  | .paren _ inner => part (.expr e) [inner.region]
  | .this _ => part (.expr e) []
  | .super _ => part (.expr e) []
  | .classLiteral _ type => part (.expr e) [type.region]
  | .lambdaExpr _ paramsRange params _ body =>
    part (.expr e) [detail paramsRange (Param.regions params), body.region]
  | .lambdaBlock _ paramsRange params _ body =>
    part (.expr e) [detail paramsRange (Param.regions params), body.region]
  | .methodRef _ target name =>
    part (.expr e) (target.region :: name.toList.map Ident.region)
  | .switching _ selector casesRange cases =>
    part (.expr e) [selector.region, detail casesRange (caseRegions cases)]
  | .annotated use => part (.expr e) [use.region]
  | .type type => part (.expr e) [type.region]

end

def PackageDecl.region (package : PackageDecl) : Region :=
  detail package.range (AnnotationUse.regions package.annotations ++ [package.name.region])

def ImportDecl.region (decl : ImportDecl) : Region := detail decl.range [decl.name.region]

/-- The package, the imports and the types of a file. -/
def CompilationUnit.regions (unit : CompilationUnit) : List Region :=
  unit.package.toList.map PackageDecl.region ++ unit.imports.map ImportDecl.region ++
    unit.types.map TypeDecl.region

def CompilationUnit.region (unit : CompilationUnit) : Region := detail unit.range unit.regions

/-! ## The range of the region of a node is the range of the node -/

@[simp] theorem TypeRef.range_region (t : TypeRef) : t.region.range = t.range := by
  rcases t with _ | _ | ⟨_, _ | _, _⟩ | _ | _ | _ | _ | _ <;> simp [TypeRef.region, TypeRef.range]

@[simp] theorem AnnotationUse.range_region (use : AnnotationUse) : use.region.range = use.range := by
  cases use
  simp! [AnnotationUse.range]

@[simp] theorem VarDecl.range_region (decl : VarDecl) : decl.region.range = decl.range := by
  cases decl
  simp! [VarDecl.range]

@[simp] theorem MethodDecl.range_region (decl : MethodDecl) : decl.region.range = decl.range := by
  cases decl
  simp! [MethodDecl.range]

@[simp] theorem TypeDecl.range_region (decl : TypeDecl) : decl.region.range = decl.range := by
  cases decl
  simp! [TypeDecl.range]

@[simp] theorem Block.range_region (block : Block) : block.region.range = block.range := by
  cases block
  simp! [Block.range]

@[simp] theorem Param.range_region (p : Param) : p.region.range = p.range := by
  cases p
  simp! [Param.range]

@[simp] theorem ClassBody.range_region (body : ClassBody) : body.region.range = body.range := by
  cases body
  simp! [ClassBody.range]

@[simp] theorem Pattern.range_region (p : Pattern) : p.region.range = p.range := by
  cases p
  simp! [Pattern.range]

@[simp] theorem Member.range_region (m : Member) : m.region.range = m.range := by
  cases m <;> simp! [Member.range]

@[simp] theorem Stmt.range_region (s : Stmt) : s.region.range = s.range := by
  cases s <;> simp! [Stmt.range]

@[simp] theorem Expr.range_region (e : Expr) : e.region.range = e.range := by
  cases e <;> simp! [Expr.range]

/-! ## Properties of regions and their ranges -/

namespace Region

/-- The region has the property, and so has each region inside it. -/
def Every (Q : Region → Prop) (r : Region) : Prop := ∀ a ∈ r.all, Q a

/-- The regions have the property, and so has each region inside them. -/
def EveryOf (Q : Region → Prop) (rs : List Region) : Prop := ∀ a ∈ allOf rs, Q a

section

variable {Q : Region → Prop} {r : TextRange} {rs ss : List Region}

@[simp] theorem every_part {p : Part} :
    (part p rs).Every Q ↔ Q (part p rs) ∧ EveryOf Q rs := by
  simp only [Every, all, List.forall_mem_cons, EveryOf]

@[simp] theorem every_detail : (detail r rs).Every Q ↔ Q (detail r rs) ∧ EveryOf Q rs := by
  simp only [Every, all, List.forall_mem_cons, EveryOf]

@[simp] theorem every_patternModifiers :
    (patternModifiers r rs).Every Q ↔ Q (patternModifiers r rs) ∧ EveryOf Q rs := by
  simp only [Every, all, List.forall_mem_cons, EveryOf]

@[simp] theorem everyOf_nil : EveryOf Q [] := by simp [EveryOf, allOf]

@[simp] theorem everyOf_cons {a : Region} : EveryOf Q (a :: rs) ↔ a.Every Q ∧ EveryOf Q rs := by
  simp only [EveryOf, allOf, List.forall_mem_append, Every]

@[simp] theorem everyOf_append : EveryOf Q (rs ++ ss) ↔ EveryOf Q rs ∧ EveryOf Q ss := by
  induction rs with
  | nil => simp
  | cons a rs ih => simp [ih, and_assoc]

theorem EveryOf.of_listed {range? : Option TextRange} (h : EveryOf Q (listed range? rs)) :
    EveryOf Q rs := by
  cases range? with
  | none => exact h
  | some r =>
    simp only [listed, everyOf_cons, every_detail] at h
    exact h.1.2

end

/-- The range of a region, and that of each region inside it, has the property. -/
def Meets (P : TextRange → Prop) : Region → Prop := Every fun a => P a.range

/-- The ranges of the regions, and those of all regions inside them, have the property. -/
def AllMeet (P : TextRange → Prop) : List Region → Prop := EveryOf fun a => P a.range

variable {P : TextRange → Prop} {r : TextRange} {rs ss : List Region}

@[simp] theorem meets_part {p : Part} : (part p rs).Meets P ↔ P p.range ∧ AllMeet P rs := every_part

@[simp] theorem meets_detail : (detail r rs).Meets P ↔ P r ∧ AllMeet P rs := every_detail

@[simp] theorem meets_patternModifiers :
    (patternModifiers r rs).Meets P ↔ P r ∧ AllMeet P rs := every_patternModifiers

@[simp] theorem allMeet_nil : AllMeet P [] := everyOf_nil

@[simp] theorem allMeet_cons {a : Region} : AllMeet P (a :: rs) ↔ a.Meets P ∧ AllMeet P rs :=
  everyOf_cons

@[simp] theorem allMeet_append : AllMeet P (rs ++ ss) ↔ AllMeet P rs ∧ AllMeet P ss := everyOf_append

theorem allMeet_of_forall (h : ∀ r, P r) (rs : List Region) : AllMeet P rs := fun _ _ => h _

theorem AllMeet.of_listed {range? : Option TextRange} (h : AllMeet P (listed range? rs)) :
    AllMeet P rs := EveryOf.of_listed h

end Region

theorem Region.AllMeet.of_modifiers {P : TextRange → Prop} {ms : List Modifier}
    (h : AllMeet P (modifierRegions ms (modifierItems ms))) : AllMeet P (modifierItems ms) :=
  h.of_listed

theorem Region.AllMeet.of_patternModifiers {P : TextRange → Prop} {ms : List Modifier}
    (h : AllMeet P (patternModifierRegions ms (modifierItems ms))) :
    AllMeet P (modifierItems ms) := by
  cases ms with
  | nil => simp!
  | cons m ms =>
    simp only [patternModifierRegions, Modifier.rangeOfAll?, allMeet_cons,
      meets_patternModifiers] at h
    exact h.1.2

/-! ## Lists of regions -/

theorem flatMap_regions {α : Type} {f : List α → List Region} (hnil : f [] = [])
    (hcons : ∀ a as, f (a :: as) = f [a] ++ f as) (as : List α) :
    as.flatMap (fun a => f [a]) = f as := by
  induction as with
  | nil => exact hnil.symm
  | cons a as ih => rw [List.flatMap_cons, ih, hcons a as]

/-- What is there of each leaves its regions. -/
theorem flatMap_toList {α : Type} {f : List α → List Region} (hnil : f [] = [])
    (hcons : ∀ a as, f (a :: as) = f [a] ++ f as) (all : List (Option α)) :
    all.flatMap (fun o => f o.toList) = f (all.filterMap id) := by
  induction all with
  | nil => exact hnil.symm
  | cons o all ih =>
    rw [List.flatMap_cons, ih]
    cases o with
    | none => rw [Option.toList_none, hnil, List.nil_append, List.filterMap_cons_none rfl]
    | some a => exact (hcons a _).symm

theorem TypeRef.regions_eq (ts : List TypeRef) :
    ts.flatMap (fun t => [t.region]) = TypeRef.regions ts := by
  induction ts with
  | nil => simp [TypeRef.regions]
  | cons t ts ih => simp [TypeRef.regions, ih]

theorem AnnotationUse.regions_eq (uses : List AnnotationUse) :
    uses.flatMap (fun u => [u.region]) = AnnotationUse.regions uses := by
  induction uses with
  | nil => simp!
  | cons u us ih => simp! [ih]

theorem Param.regions_eq (ps : List Param) :
    ps.flatMap (fun p => [p.region]) = Param.regions ps := by
  induction ps with
  | nil => simp!
  | cons p ps ih => simp! [ih]

theorem Expr.regions_eq (es : List Expr) :
    es.flatMap (fun e => [e.region]) = Expr.regions es := by
  induction es with
  | nil => simp!
  | cons e es ih => simp! [ih]

theorem elementRegions_eq (args : List ElementValue) :
    args.flatMap (fun a => elementRegions [a]) = elementRegions args := by
  refine flatMap_regions (by simp!) ?_ args
  rintro ⟨_, _, _⟩ args
  simp!

theorem typeParamRegions_eq (params : List TypeParam) :
    params.flatMap (fun p => typeParamRegions [p]) = typeParamRegions params := by
  refine flatMap_regions (by simp!) ?_ params
  rintro ⟨_, _, _, _⟩ params
  simp!

theorem dimRegions_eq (dims : List DimExpr) :
    dims.flatMap (fun d => dimRegions [d]) = dimRegions dims := by
  refine flatMap_regions (by simp!) ?_ dims
  rintro ⟨_, _⟩ dims
  simp!

theorem fragmentRegions_eq (fragments : List VarFragment) :
    fragments.flatMap (fun f => fragmentRegions [f]) = fragmentRegions fragments := by
  refine flatMap_regions (by simp!) ?_ fragments
  rintro ⟨_, _, _, _⟩ fragments
  simp!

theorem constantRegions_eq (constants : List EnumConstant) :
    constants.flatMap (fun c => constantRegions [c]) = constantRegions constants := by
  refine flatMap_regions (by simp!) ?_ constants
  rintro ⟨_, _, _, _, _, _⟩ constants
  simp!

theorem Member.regions_eq (members : List Member) :
    members.flatMap (fun m => [m.region]) = Member.regions members := by
  induction members with
  | nil => simp!
  | cons m ms ih => simp! [ih]

theorem Stmt.regions_eq (stmts : List Stmt) :
    stmts.flatMap (fun s => [s.region]) = Stmt.regions stmts := by
  induction stmts with
  | nil => simp!
  | cons s ss ih => simp! [ih]

theorem resourceRegions_eq (resources : List Resource) :
    resources.flatMap (fun r => resourceRegions [r]) = resourceRegions resources := by
  refine flatMap_regions (by simp!) ?_ resources
  rintro (_ | _) resources <;> simp!

theorem catchRegions_eq (catches : List CatchClause) :
    catches.flatMap (fun c => catchRegions [c]) = catchRegions catches := by
  refine flatMap_regions (by simp!) ?_ catches
  rintro ⟨_, _, _⟩ catches
  simp!

theorem caseRegions_eq (cases : List SwitchCase) :
    cases.flatMap (fun c => caseRegions [c]) = caseRegions cases := by
  refine flatMap_regions (by simp!) ?_ cases
  rintro ⟨_, _, _, _⟩ cases
  simp!

theorem labelRegions_cons (label : CaseLabel) (labels : List CaseLabel) :
    labelRegions (label :: labels) = labelRegions [label] ++ labelRegions labels := by
  cases label <;> simp!

end JavaAnalysis.Ast
