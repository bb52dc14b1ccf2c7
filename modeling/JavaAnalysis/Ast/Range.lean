import JavaAnalysis.Ast.Unit

/-!
# Parts of the abstract syntax

The ranges and names of the larger kinds of syntax.
-/

set_option autoImplicit false

namespace JavaAnalysis.Ast

namespace AnnotationUse

def range : AnnotationUse → TextRange
  | mk r _ _ _ => r

def name : AnnotationUse → QualifiedName
  | mk _ n _ _ => n

end AnnotationUse

namespace Modifier

def range : Modifier → TextRange
  | word r _ => r
  | annotated use => use.range

/-- The range of a row of modifiers. -/
def rangeOfAll? : List Modifier → Option TextRange
  | [] => none
  | m :: ms => some ⟨m.range.start, ((m :: ms).getLast (by simp)).range.stop⟩

end Modifier

namespace TypeDecl

def range : TypeDecl → TextRange
  | mk r _ _ _ _ _ _ _ _ _ _ _ => r

def kind : TypeDecl → TypeDeclKind
  | mk _ k _ _ _ _ _ _ _ _ _ _ => k

def modifiers : TypeDecl → List Modifier
  | mk _ _ ms _ _ _ _ _ _ _ _ _ => ms

def name : TypeDecl → Ident
  | mk _ _ _ n _ _ _ _ _ _ _ _ => n

def body : TypeDecl → ClassBody
  | mk _ _ _ _ _ _ _ _ _ _ _ b => b

end TypeDecl

namespace ClassBody

def range : ClassBody → TextRange
  | mk r _ _ => r

def constants : ClassBody → List EnumConstant
  | mk _ cs _ => cs

def members : ClassBody → List Member
  | mk _ _ ms => ms

end ClassBody

namespace EnumConstant

def range : EnumConstant → TextRange
  | mk r _ _ _ _ _ => r

def name : EnumConstant → Ident
  | mk _ _ n _ _ _ => n

def body? : EnumConstant → Option ClassBody
  | mk _ _ _ _ _ b => b

end EnumConstant

namespace VarFragment

def range : VarFragment → TextRange
  | mk r _ _ _ => r

def name : VarFragment → Ident
  | mk _ n _ _ => n

def brackets : VarFragment → List TextRange
  | mk _ _ bs _ => bs

end VarFragment

namespace VarDecl

def range : VarDecl → TextRange
  | mk r _ _ _ => r

def modifiers : VarDecl → List Modifier
  | mk _ ms _ _ => ms

def fragments : VarDecl → List VarFragment
  | mk _ _ _ fs => fs

end VarDecl

namespace MethodDecl

def range : MethodDecl → TextRange
  | mk r _ _ _ _ _ _ _ _ _ _ _ => r

def name : MethodDecl → Ident
  | mk _ _ _ _ _ n _ _ _ _ _ _ => n

def brackets : MethodDecl → List TextRange
  | mk _ _ _ _ _ _ _ _ bs _ _ _ => bs

/-- Constructors have no return type. -/
def isConstructor : MethodDecl → Bool
  | mk _ _ _ _ t _ _ _ _ _ _ _ => t.isNone

/-- The compact constructor of a record has no parameter list. -/
def isCompact : MethodDecl → Bool
  | mk _ _ _ _ _ _ ps _ _ _ _ _ => ps.isNone

end MethodDecl

namespace Param

def range : Param → TextRange
  | mk r _ _ _ _ _ => r

def modifiers : Param → List Modifier
  | mk _ ms _ _ _ _ => ms

def type? : Param → Option TypeRef
  | mk _ _ t _ _ _ => t

def isVarargs : Param → Bool
  | mk _ _ _ e _ _ => e.isSome

def name : Param → Ident
  | mk _ _ _ _ n _ => n

def brackets : Param → List TextRange
  | mk _ _ _ _ _ bs => bs

end Param

namespace TypeParam

def name : TypeParam → Ident
  | mk _ _ n _ => n

end TypeParam

namespace Block

def range : Block → TextRange
  | mk r _ => r

end Block

namespace Pattern

def range : Pattern → TextRange
  | mk r _ _ _ => r

def type : Pattern → TypeRef
  | mk _ _ t _ => t

def name : Pattern → Ident
  | mk _ _ _ n => n

end Pattern

namespace CaseLabel

def range : CaseLabel → TextRange
  | default r | values r _ | pattern r _ _ => r

def isDefault : CaseLabel → Bool
  | default _ => true
  | _ => false

def isPattern : CaseLabel → Bool
  | pattern .. => true
  | _ => false

end CaseLabel

namespace SwitchCase

def labels : SwitchCase → List CaseLabel
  | mk _ ls _ _ => ls

/-- One of the cases is the default. -/
def anyDefault (cases : List SwitchCase) : Bool :=
  cases.any fun c => c.labels.any (·.isDefault)

end SwitchCase

namespace Member

def range : Member → TextRange
  | field d => d.range
  | method d => d.range
  | initializer r _ _ => r
  | type d => d.range

end Member

namespace Stmt

def range : Stmt → TextRange
  | block b => b.range
  | localVar d => d.range
  | localType d => d.range
  | expression r _ | ifThen r _ _ | ifThenElse r _ _ _ | whileLoop r _ _ | doLoop r _ _
  | forLoop r _ _ _ _ | forEach r _ _ _ | returning r _ | breaking r _ | continuing r _
  | yielding r _ | labeled r _ _ | throwing r _ | trying r _ _ _ _ _ | switching r _ _ _
  | synchronizing r _ _ | asserting r _ _ | empty r => r

end Stmt

namespace Expr

def range : Expr → TextRange
  | name n => n.range
  | annotated use => use.range
  | type t => t.range
  | literal r _ | fieldAccess r _ _ | methodCall r _ _ _ _ _ _ | newObject r _ _ _ _ _
  | newArray r _ _ _ _ | arrayInit r _ | arrayAccess r _ _ | unary r _ _ | binary r _ _ _
  | assign r _ _ _ | conditional r _ _ _ | instanceOf r _ _ | instanceOfPattern r _ _
  | cast r _ _ | paren r _ | this r | super r | classLiteral r _ | lambdaExpr r _ _ _ _
  | lambdaBlock r _ _ _ _ | methodRef r _ _ | switching r _ _ _ => r

/-- An expression without the parentheses around it. -/
def stripParens : Expr → Expr
  | paren _ e => e.stripParens
  | e => e

end Expr

end JavaAnalysis.Ast
