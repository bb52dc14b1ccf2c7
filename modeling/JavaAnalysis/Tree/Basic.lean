import JavaAnalysis.Text.Quoted
import JavaAnalysis.Token.Row
import Std.Data.TreeMap

/-!
# Syntax trees

The syntax tree of a file: nodes over the tokens of the file, each token a child of exactly one
node. Nodes are numbered, and a node has a higher number than its children. Beside the tree a table
holds the declared types of variables, parameters and methods.
-/

set_option autoImplicit false

namespace JavaAnalysis

/-- The number of a node in its tree. -/
structure NodeId where
  index : Nat
deriving DecidableEq, Repr, Inhabited, Hashable, Ord

/-- A child of a node. -/
inductive Element where
  | node (id : NodeId)
  | token (id : TokenId)
deriving DecidableEq, Repr, Inhabited

namespace Element

def node? : Element → Option NodeId
  | node id => some id
  | token _ => none

def token? : Element → Option TokenId
  | node _ => none
  | token id => some id

end Element

/-- Whether brackets stand behind a type or behind a name. -/
inductive DimensionSide where
  | afterType
  | afterName
deriving DecidableEq, Repr, Inhabited

/-- A pair of brackets; an ellipsis is its own closing bracket. -/
structure Dimension where
  opening : TokenId
  closing : TokenId
  side : DimensionSide
deriving DecidableEq, Repr, Inhabited

/--
The type of a variable, parameter or method. Brackets stay where they are written, and this record
puts them together: those behind the type, then those behind the name.
-/
structure DeclaredType where
  /-- The type in front of the name; names that share it refer to the same node. -/
  typeNode : NodeId
  /-- The innermost type that is no array. -/
  base : NodeId
  dimensions : List Dimension
deriving DecidableEq, Repr, Inhabited

structure NodeData where
  kind : NodeKind
  children : List Element
  parent : Option NodeId
  /-- The place among the children of the parent. -/
  place : Nat
  first : TokenId
  last : TokenId
deriving DecidableEq, Repr, Inhabited

structure SyntaxTree where
  text : String
  row : TokenRow
  /-- For each token the node that has it as a child. -/
  owners : Array NodeId
  nodes : Array NodeData
  root : NodeId
  declaredTypes : Std.TreeMap NodeId DeclaredType

namespace SyntaxTree

variable (t : SyntaxTree)

def node (id : NodeId) : NodeData := t.nodes.getD id.index default

def token (id : TokenId) : Token := t.row.token id

def tokenIds : List TokenId := (List.range t.row.tokens.size).map TokenId.mk

def kind (id : NodeId) : NodeKind := (t.node id).kind

def parent? (id : NodeId) : Option NodeId := (t.node id).parent

def childElements (id : NodeId) : List Element := (t.node id).children

/-- The child nodes of a node. -/
def children (id : NodeId) : List NodeId := (t.childElements id).filterMap Element.node?

/-- The tokens that are children of a node. -/
def childTokens (id : NodeId) : List TokenId := (t.childElements id).filterMap Element.token?

def firstToken (id : NodeId) : TokenId := (t.node id).first

def lastToken (id : NodeId) : TokenId := (t.node id).last

/-- The tokens of a node and of all nodes below it. -/
def tokensOf (id : NodeId) : List TokenId :=
  let first := (t.firstToken id).index
  (List.range' first ((t.lastToken id).index + 1 - first)).map TokenId.mk

/-- The node that has a token as a child. -/
def owner (id : TokenId) : NodeId := t.owners.getD id.index default

/-- From the start of the first token to the end of the last. -/
def range (id : NodeId) : TextRange :=
  ⟨(t.token (t.firstToken id)).start, (t.token (t.lastToken id)).stop⟩

/-- The text of a node, with the blanks and comments between its tokens. -/
def textOf (id : NodeId) : String :=
  String.ofList ((slice? t.text.toList (t.range id)).getD [])

def firstChild? (id : NodeId) : Option NodeId := (t.children id).head?

def nextSibling? (id : NodeId) : Option NodeId := do
  let data := t.node id
  ((t.childElements (← data.parent)).drop (data.place + 1)).findSome? Element.node?

def previousSibling? (id : NodeId) : Option NodeId := do
  let data := t.node id
  ((t.childElements (← data.parent)).take data.place).reverse.findSome? Element.node?

/-- The first child node of a kind. -/
def childOfKind? (id : NodeId) (kind : NodeKind) : Option NodeId :=
  (t.children id).find? fun c => t.kind c == kind

/-- The first child token of a kind. -/
def tokenOfKind? (id : NodeId) (kind : TokenKind) : Option TokenId :=
  (t.childTokens id).find? fun c => (t.token c).kind == kind

def declaredType? (id : NodeId) : Option DeclaredType := t.declaredTypes[id]?

/-- The number of nodes above a node, counting at most `n`. -/
def depthWithin : Nat → NodeId → Nat
  | 0, _ => 0
  | n + 1, id =>
    match t.parent? id with
    | some p => depthWithin n p + 1
    | none => 0

def depth (id : NodeId) : Nat := t.depthWithin t.nodes.size id

/-- How a node is shown: its kind and its range. -/
def render (id : NodeId) : String := (t.kind id).name ++ "@" ++ (t.range id).render

/-- The positions at which a node starts and ends. -/
def position (id : NodeId) : Position × Position :=
  ((t.token (t.firstToken id)).position, (t.token (t.lastToken id)).stopPosition)

def renderPosition (id : NodeId) : String :=
  (t.position id).1.render ++ "-" ++ (t.position id).2.render

/-- How a token is shown: its kind, its range and its text. -/
def renderToken (id : TokenId) : String :=
  let x := t.token id
  x.kind.name ++ "@" ++ x.range.render ++ " " ++ Quoted.ofString x.text

/-- How a child is shown: its kind and its range. -/
def renderElement : Element → String
  | .node id => t.render id
  | .token id => (t.token id).kind.name ++ "@" ++ (t.token id).range.render

end SyntaxTree

end JavaAnalysis
