import JavaAnalysis.Ast.Range

/-!
# Moving syntax

When blanks are put between the tokens of a text or taken away, all that is said of the text moves
with the tokens. Two tokens may touch, so that the end of one is the start of the other, and come
apart; what ends at an offset therefore goes with the byte before it, and what starts there with the
byte behind it. Moving a piece of syntax changes its ranges and nothing else.
-/

set_option autoImplicit false

namespace JavaAnalysis

/-- Where the bytes of a text go. -/
structure Shift where
  /-- Where the byte at an offset goes. -/
  start : Nat → Nat

namespace Shift

/-- Where what ends at an offset ends afterwards: behind its last byte. -/
def stop (f : Shift) : Nat → Nat
  | 0 => 0
  | n + 1 => f.start n + 1

def range (f : Shift) (r : TextRange) : TextRange := ⟨f.start r.start, f.stop r.stop⟩

end Shift

namespace Ast

def Ident.shift (f : Shift) (n : Ident) : Ident := ⟨f.range n.range, n.text⟩

def QualifiedName.shift (f : Shift) (n : QualifiedName) : QualifiedName :=
  ⟨f.range n.range, n.segments.map (Ident.shift f)⟩

mutual

def TypeRef.shift (f : Shift) : TypeRef → TypeRef
  | .primitive r kind => .primitive (f.range r) kind
  | .inferred r => .inferred (f.range r)
  | .named r qualifier name argsRange args =>
    .named (f.range r) (TypeRef.shiftOption f qualifier) (name.shift f) (argsRange.map f.range)
      (TypeRef.shiftAll f args)
  | .array r element brackets => .array (f.range r) (element.shift f) (f.range brackets)
  | .wildcard r => .wildcard (f.range r)
  | .bounded r kind bound => .bounded (f.range r) kind (bound.shift f)
  | .union r alternatives => .union (f.range r) (TypeRef.shiftAll f alternatives)
  | .intersection r bounds => .intersection (f.range r) (TypeRef.shiftAll f bounds)

def TypeRef.shiftOption (f : Shift) : Option TypeRef → Option TypeRef
  | none => none
  | some t => some (t.shift f)

def TypeRef.shiftAll (f : Shift) : List TypeRef → List TypeRef
  | [] => []
  | t :: ts => t.shift f :: TypeRef.shiftAll f ts

end

mutual

def AnnotationUse.shift (f : Shift) : AnnotationUse → AnnotationUse
  | .mk r name argsRange args =>
    .mk (f.range r) (name.shift f) (argsRange.map f.range) (ElementValue.shiftAll f args)

def AnnotationUse.shiftAll (f : Shift) : List AnnotationUse → List AnnotationUse
  | [] => []
  | use :: uses => use.shift f :: AnnotationUse.shiftAll f uses

def ElementValue.shift (f : Shift) : ElementValue → ElementValue
  | .mk r name value => .mk (f.range r) (name.map (Ident.shift f)) (value.shift f)

def ElementValue.shiftAll (f : Shift) : List ElementValue → List ElementValue
  | [] => []
  | v :: vs => v.shift f :: ElementValue.shiftAll f vs

def Modifier.shift (f : Shift) : Modifier → Modifier
  | .word r word => .word (f.range r) word
  | .annotated use => .annotated (use.shift f)

def Modifier.shiftAll (f : Shift) : List Modifier → List Modifier
  | [] => []
  | m :: ms => m.shift f :: Modifier.shiftAll f ms

def TypeDecl.shift (f : Shift) : TypeDecl → TypeDecl
  | .mk r kind ms name typeParamsRange typeParams componentsRange components supers interfaces
      permitted body =>
    .mk (f.range r) kind (Modifier.shiftAll f ms) (name.shift f) (typeParamsRange.map f.range)
      (TypeParam.shiftAll f typeParams) (componentsRange.map f.range)
      (Param.shiftAll f components) (TypeRef.shiftAll f supers) (TypeRef.shiftAll f interfaces)
      (TypeRef.shiftAll f permitted) (body.shift f)

def ClassBody.shift (f : Shift) : ClassBody → ClassBody
  | .mk r constants members =>
    .mk (f.range r) (EnumConstant.shiftAll f constants) (Member.shiftAll f members)

def ClassBody.shiftOption (f : Shift) : Option ClassBody → Option ClassBody
  | none => none
  | some b => some (b.shift f)

def EnumConstant.shift (f : Shift) : EnumConstant → EnumConstant
  | .mk r ms name argsRange args body =>
    .mk (f.range r) (Modifier.shiftAll f ms) (name.shift f) (argsRange.map f.range)
      (Expr.shiftAll f args) (ClassBody.shiftOption f body)

def EnumConstant.shiftAll (f : Shift) : List EnumConstant → List EnumConstant
  | [] => []
  | c :: cs => c.shift f :: EnumConstant.shiftAll f cs

def Member.shift (f : Shift) : Member → Member
  | .field decl => .field (decl.shift f)
  | .method decl => .method (decl.shift f)
  | .initializer r isStatic body => .initializer (f.range r) isStatic (body.shift f)
  | .type decl => .type (decl.shift f)

def Member.shiftAll (f : Shift) : List Member → List Member
  | [] => []
  | m :: ms => m.shift f :: Member.shiftAll f ms

def VarDecl.shift (f : Shift) : VarDecl → VarDecl
  | .mk r ms type fragments =>
    .mk (f.range r) (Modifier.shiftAll f ms) (type.shift f) (VarFragment.shiftAll f fragments)

def VarFragment.shift (f : Shift) : VarFragment → VarFragment
  | .mk r name brackets init =>
    .mk (f.range r) (name.shift f) (brackets.map f.range) (Expr.shiftOption f init)

def VarFragment.shiftAll (f : Shift) : List VarFragment → List VarFragment
  | [] => []
  | v :: vs => v.shift f :: VarFragment.shiftAll f vs

def MethodDecl.shift (f : Shift) : MethodDecl → MethodDecl
  | .mk r ms typeParamsRange typeParams returnType name paramsRange params brackets thrown
      defaultValue body =>
    .mk (f.range r) (Modifier.shiftAll f ms) (typeParamsRange.map f.range)
      (TypeParam.shiftAll f typeParams) (TypeRef.shiftOption f returnType) (name.shift f)
      (paramsRange.map f.range) (Param.shiftAll f params) (brackets.map f.range)
      (TypeRef.shiftAll f thrown) (Expr.shiftOption f defaultValue) (Block.shiftOption f body)

def Param.shift (f : Shift) : Param → Param
  | .mk r ms type ellipsis name brackets =>
    .mk (f.range r) (Modifier.shiftAll f ms) (TypeRef.shiftOption f type)
      (ellipsis.map f.range) (name.shift f) (brackets.map f.range)

def Param.shiftAll (f : Shift) : List Param → List Param
  | [] => []
  | p :: ps => p.shift f :: Param.shiftAll f ps

def TypeParam.shift (f : Shift) : TypeParam → TypeParam
  | .mk r marks name bounds =>
    .mk (f.range r) (AnnotationUse.shiftAll f marks) (name.shift f) (TypeRef.shiftAll f bounds)

def TypeParam.shiftAll (f : Shift) : List TypeParam → List TypeParam
  | [] => []
  | p :: ps => p.shift f :: TypeParam.shiftAll f ps

def Block.shift (f : Shift) : Block → Block
  | .mk r stmts => .mk (f.range r) (Stmt.shiftAll f stmts)

def Block.shiftOption (f : Shift) : Option Block → Option Block
  | none => none
  | some b => some (b.shift f)

def ForInit.shift (f : Shift) : ForInit → ForInit
  | .absent => .absent
  | .decl decl => .decl (decl.shift f)
  | .exprs es => .exprs (Expr.shiftAll f es)

def Resource.shift (f : Shift) : Resource → Resource
  | .decl decl => .decl (decl.shift f)
  | .expr e => .expr (e.shift f)

def Resource.shiftAll (f : Shift) : List Resource → List Resource
  | [] => []
  | x :: xs => x.shift f :: Resource.shiftAll f xs

def CatchClause.shift (f : Shift) : CatchClause → CatchClause
  | .mk r param body => .mk (f.range r) (param.shift f) (body.shift f)

def CatchClause.shiftAll (f : Shift) : List CatchClause → List CatchClause
  | [] => []
  | c :: cs => c.shift f :: CatchClause.shiftAll f cs

def SwitchCase.shift (f : Shift) : SwitchCase → SwitchCase
  | .mk r labels arrow body =>
    .mk (f.range r) (CaseLabel.shiftAll f labels) arrow (Stmt.shiftAll f body)

def SwitchCase.shiftAll (f : Shift) : List SwitchCase → List SwitchCase
  | [] => []
  | c :: cs => c.shift f :: SwitchCase.shiftAll f cs

def CaseLabel.shift (f : Shift) : CaseLabel → CaseLabel
  | .default r => .default (f.range r)
  | .values r values => .values (f.range r) (Expr.shiftAll f values)
  | .pattern r pattern guard =>
    .pattern (f.range r) (pattern.shift f) (Expr.shiftOption f guard)

def CaseLabel.shiftAll (f : Shift) : List CaseLabel → List CaseLabel
  | [] => []
  | l :: ls => l.shift f :: CaseLabel.shiftAll f ls

def Pattern.shift (f : Shift) : Pattern → Pattern
  | .mk r ms type name =>
    .mk (f.range r) (Modifier.shiftAll f ms) (type.shift f) (name.shift f)

def Stmt.shift (f : Shift) : Stmt → Stmt
  | .block body => .block (body.shift f)
  | .localVar decl => .localVar (decl.shift f)
  | .localType decl => .localType (decl.shift f)
  | .expression r e => .expression (f.range r) (e.shift f)
  | .ifThen r cond body => .ifThen (f.range r) (cond.shift f) (body.shift f)
  | .ifThenElse r cond body alternative =>
    .ifThenElse (f.range r) (cond.shift f) (body.shift f) (alternative.shift f)
  | .whileLoop r cond body => .whileLoop (f.range r) (cond.shift f) (body.shift f)
  | .doLoop r body cond => .doLoop (f.range r) (body.shift f) (cond.shift f)
  | .forLoop r init cond update body =>
    .forLoop (f.range r) (init.shift f) (Expr.shiftOption f cond) (Expr.shiftAll f update)
      (body.shift f)
  | .forEach r var iterable body =>
    .forEach (f.range r) (var.shift f) (iterable.shift f) (body.shift f)
  | .returning r e => .returning (f.range r) (Expr.shiftOption f e)
  | .breaking r label => .breaking (f.range r) (label.map (Ident.shift f))
  | .continuing r label => .continuing (f.range r) (label.map (Ident.shift f))
  | .yielding r e => .yielding (f.range r) (e.shift f)
  | .labeled r label body => .labeled (f.range r) (label.shift f) (body.shift f)
  | .throwing r e => .throwing (f.range r) (e.shift f)
  | .trying r resourcesRange resources body catches final =>
    .trying (f.range r) (resourcesRange.map f.range) (Resource.shiftAll f resources)
      (body.shift f) (CatchClause.shiftAll f catches) (Block.shiftOption f final)
  | .switching r selector casesRange cases =>
    .switching (f.range r) (selector.shift f) (f.range casesRange) (SwitchCase.shiftAll f cases)
  | .synchronizing r lock body => .synchronizing (f.range r) (lock.shift f) (body.shift f)
  | .asserting r cond message =>
    .asserting (f.range r) (cond.shift f) (Expr.shiftOption f message)
  | .empty r => .empty (f.range r)

def Stmt.shiftAll (f : Shift) : List Stmt → List Stmt
  | [] => []
  | s :: ss => s.shift f :: Stmt.shiftAll f ss

def Expr.shift (f : Shift) : Expr → Expr
  | .literal r kind => .literal (f.range r) kind
  | .name name => .name (name.shift f)
  | .fieldAccess r target name => .fieldAccess (f.range r) (target.shift f) (name.shift f)
  | .methodCall r target typeArgsRange typeArgs name argsRange args =>
    .methodCall (f.range r) (Expr.shiftOption f target) (typeArgsRange.map f.range)
      (TypeRef.shiftAll f typeArgs) (name.shift f) (f.range argsRange) (Expr.shiftAll f args)
  | .newObject r outer type argsRange args body =>
    .newObject (f.range r) (Expr.shiftOption f outer) (type.shift f) (f.range argsRange)
      (Expr.shiftAll f args) (ClassBody.shiftOption f body)
  | .newArray r element dims initRange init =>
    .newArray (f.range r) (element.shift f) (DimExpr.shiftAll f dims) (initRange.map f.range)
      (Expr.shiftAll f init)
  | .arrayInit r items => .arrayInit (f.range r) (Expr.shiftAll f items)
  | .arrayAccess r array index => .arrayAccess (f.range r) (array.shift f) (index.shift f)
  | .unary r op operand => .unary (f.range r) op (operand.shift f)
  | .binary r op lhs rhs => .binary (f.range r) op (lhs.shift f) (rhs.shift f)
  | .assign r op target value => .assign (f.range r) op (target.shift f) (value.shift f)
  | .conditional r cond yes no =>
    .conditional (f.range r) (cond.shift f) (yes.shift f) (no.shift f)
  | .instanceOf r e type => .instanceOf (f.range r) (e.shift f) (type.shift f)
  | .instanceOfPattern r e pattern =>
    .instanceOfPattern (f.range r) (e.shift f) (pattern.shift f)
  | .cast r type e => .cast (f.range r) (type.shift f) (e.shift f)
  | .paren r e => .paren (f.range r) (e.shift f)
  | .this r => .this (f.range r)
  | .super r => .super (f.range r)
  | .classLiteral r type => .classLiteral (f.range r) (type.shift f)
  | .lambdaExpr r paramsRange params parenthesized body =>
    .lambdaExpr (f.range r) (f.range paramsRange) (Param.shiftAll f params) parenthesized
      (body.shift f)
  | .lambdaBlock r paramsRange params parenthesized body =>
    .lambdaBlock (f.range r) (f.range paramsRange) (Param.shiftAll f params) parenthesized
      (body.shift f)
  | .methodRef r target name => .methodRef (f.range r) (target.shift f) (name.map (Ident.shift f))
  | .switching r selector casesRange cases =>
    .switching (f.range r) (selector.shift f) (f.range casesRange) (SwitchCase.shiftAll f cases)
  | .annotated use => .annotated (use.shift f)
  | .type type => .type (type.shift f)

def Expr.shiftOption (f : Shift) : Option Expr → Option Expr
  | none => none
  | some e => some (e.shift f)

def Expr.shiftAll (f : Shift) : List Expr → List Expr
  | [] => []
  | e :: es => e.shift f :: Expr.shiftAll f es

def DimExpr.shift (f : Shift) : DimExpr → DimExpr
  | .mk r size => .mk (f.range r) (Expr.shiftOption f size)

def DimExpr.shiftAll (f : Shift) : List DimExpr → List DimExpr
  | [] => []
  | d :: ds => d.shift f :: DimExpr.shiftAll f ds

end

/-! ## Lists and what may be missing -/

section

/-- What goes through a list entry by entry is the map of what it does to one. -/
theorem eq_map {α β : Type} {one : α → β} {all : List α → List β} (hnil : all [] = [])
    (hcons : ∀ x xs, all (x :: xs) = one x :: all xs) : all = List.map one := by
  funext xs
  induction xs with
  | nil => exact hnil
  | cons x xs ih => rw [hcons, ih, List.map_cons]

variable (f : Shift)

@[simp] theorem TypeRef.shiftAll_eq : TypeRef.shiftAll f = List.map (TypeRef.shift f) :=
  eq_map rfl fun _ _ => rfl

@[simp] theorem AnnotationUse.shiftAll_eq :
    AnnotationUse.shiftAll f = List.map (AnnotationUse.shift f) :=
  eq_map rfl fun _ _ => rfl

@[simp] theorem ElementValue.shiftAll_eq :
    ElementValue.shiftAll f = List.map (ElementValue.shift f) :=
  eq_map rfl fun _ _ => rfl

@[simp] theorem Modifier.shiftAll_eq : Modifier.shiftAll f = List.map (Modifier.shift f) :=
  eq_map rfl fun _ _ => rfl

@[simp] theorem EnumConstant.shiftAll_eq :
    EnumConstant.shiftAll f = List.map (EnumConstant.shift f) :=
  eq_map rfl fun _ _ => rfl

@[simp] theorem Member.shiftAll_eq : Member.shiftAll f = List.map (Member.shift f) :=
  eq_map rfl fun _ _ => rfl

@[simp] theorem VarFragment.shiftAll_eq : VarFragment.shiftAll f = List.map (VarFragment.shift f) :=
  eq_map rfl fun _ _ => rfl

@[simp] theorem Param.shiftAll_eq : Param.shiftAll f = List.map (Param.shift f) :=
  eq_map rfl fun _ _ => rfl

@[simp] theorem TypeParam.shiftAll_eq : TypeParam.shiftAll f = List.map (TypeParam.shift f) :=
  eq_map rfl fun _ _ => rfl

@[simp] theorem Resource.shiftAll_eq : Resource.shiftAll f = List.map (Resource.shift f) :=
  eq_map rfl fun _ _ => rfl

@[simp] theorem CatchClause.shiftAll_eq : CatchClause.shiftAll f = List.map (CatchClause.shift f) :=
  eq_map rfl fun _ _ => rfl

@[simp] theorem SwitchCase.shiftAll_eq : SwitchCase.shiftAll f = List.map (SwitchCase.shift f) :=
  eq_map rfl fun _ _ => rfl

@[simp] theorem CaseLabel.shiftAll_eq : CaseLabel.shiftAll f = List.map (CaseLabel.shift f) :=
  eq_map rfl fun _ _ => rfl

@[simp] theorem Stmt.shiftAll_eq : Stmt.shiftAll f = List.map (Stmt.shift f) :=
  eq_map rfl fun _ _ => rfl

@[simp] theorem Expr.shiftAll_eq : Expr.shiftAll f = List.map (Expr.shift f) :=
  eq_map rfl fun _ _ => rfl

@[simp] theorem DimExpr.shiftAll_eq : DimExpr.shiftAll f = List.map (DimExpr.shift f) :=
  eq_map rfl fun _ _ => rfl

@[simp] theorem TypeRef.shiftOption_eq : TypeRef.shiftOption f = Option.map (TypeRef.shift f) := by
  funext o
  cases o <;> rfl

@[simp] theorem ClassBody.shiftOption_eq :
    ClassBody.shiftOption f = Option.map (ClassBody.shift f) := by
  funext o
  cases o <;> rfl

@[simp] theorem Block.shiftOption_eq : Block.shiftOption f = Option.map (Block.shift f) := by
  funext o
  cases o <;> rfl

@[simp] theorem Expr.shiftOption_eq : Expr.shiftOption f = Option.map (Expr.shift f) := by
  funext o
  cases o <;> rfl

end

def PackageDecl.shift (f : Shift) (p : PackageDecl) : PackageDecl :=
  ⟨f.range p.range, AnnotationUse.shiftAll f p.annotations, p.name.shift f⟩

def ImportDecl.shift (f : Shift) (i : ImportDecl) : ImportDecl :=
  ⟨f.range i.range, i.isStatic, i.name.shift f, i.onDemand⟩

/-- The range of a whole file starts with the text, and ends where the end of the file goes. -/
def CompilationUnit.shift (f : Shift) (u : CompilationUnit) : CompilationUnit :=
  ⟨.upTo (f.start u.range.stop), u.package.map (PackageDecl.shift f),
    u.imports.map (ImportDecl.shift f), u.types.map (TypeDecl.shift f)⟩

end Ast

end JavaAnalysis
