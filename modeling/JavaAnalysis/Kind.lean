import JavaAnalysis.Kind.Token
import JavaAnalysis.Kind.Node

/-!
# Kinds of syntax

A syntax element is a token or a node. A set of kinds is a bit mask over their common numbering,
in which all tokens come before all nodes.
-/

set_option autoImplicit false

namespace JavaAnalysis

inductive SyntaxKind where
  | token (kind : TokenKind)
  | node (kind : NodeKind)
deriving DecidableEq, Repr, Inhabited

instance : Coe TokenKind SyntaxKind := ⟨.token⟩

instance : Coe NodeKind SyntaxKind := ⟨.node⟩

namespace SyntaxKind

def name : SyntaxKind → String
  | token k => k.name
  | node k => k.name

/-- All kinds in order. -/
def all : List SyntaxKind := TokenKind.all.map token ++ NodeKind.all.map node

/-- The place of a kind in the list of all kinds. -/
def index : SyntaxKind → Nat
  | token k => k.ctorIdx
  | node k => TokenKind.all.length + k.ctorIdx

def ofName? (name : String) : Option SyntaxKind := all.find? (·.name == name)

def isTrivia : SyntaxKind → Bool
  | token k => k.isTrivia
  | node _ => false

def isComment : SyntaxKind → Bool
  | token k => k.isComment
  | node _ => false

def isKeyword : SyntaxKind → Bool
  | token k => k.isKeyword
  | node _ => false

def isLiteral : SyntaxKind → Bool
  | token k => k.isLiteral
  | node _ => false

def isToken : SyntaxKind → Bool
  | token _ => true
  | node _ => false

def isNode : SyntaxKind → Bool
  | token _ => false
  | node _ => true

def startsWithGt : SyntaxKind → Bool
  | token k => k.startsWithGt
  | node _ => false

end SyntaxKind

/-- A set of kinds; the bit at a kind's index says whether it is a member. -/
structure KindSet where
  bits : Nat
deriving DecidableEq, Repr, Inhabited

namespace KindSet

def empty : KindSet := ⟨0⟩

def contains (s : KindSet) (k : SyntaxKind) : Bool := s.bits.testBit k.index

def insert (s : KindSet) (k : SyntaxKind) : KindSet := ⟨s.bits ||| 1 <<< k.index⟩

def union (s t : KindSet) : KindSet := ⟨s.bits ||| t.bits⟩

def ofList (kinds : List SyntaxKind) : KindSet := kinds.foldl insert empty

/-- The members in the order of all kinds. -/
def toList (s : KindSet) : List SyntaxKind := SyntaxKind.all.filter s.contains

def isEmpty (s : KindSet) : Bool := s == empty

/-- Nodes that declare a type. -/
def typeDeclarations : KindSet :=
  ofList [.node .classDecl, .node .interfaceDecl, .node .enumDecl, .node .recordDecl]

/-- Nodes that are statements. -/
def statements : KindSet :=
  ofList [.node .block, .node .emptyStatement, .node .expressionStatement, .node .ifStatement,
    .node .whileStatement, .node .doStatement, .node .forStatement, .node .foreachStatement,
    .node .returnStatement, .node .breakStatement, .node .continueStatement, .node .yieldStatement,
    .node .labeledStatement, .node .throwStatement, .node .tryStatement, .node .switchStatement,
    .node .synchronizedStatement, .node .assertStatement, .node .variableDecl, .node .classDecl]

@[simp] theorem contains_empty (k : SyntaxKind) : empty.contains k = false := by
  simp [empty, contains]

@[simp] theorem contains_union (s t : KindSet) (k : SyntaxKind) :
    (s.union t).contains k = (s.contains k || t.contains k) := by
  simp [union, contains]

end KindSet

end JavaAnalysis
