import JavaAnalysis.Ast.Basic
import JavaAnalysis.Kind.Node

/-!
# Shapes

The shape of a part of a file tells what nodes it becomes: their kinds, the ranges of their tokens,
their order, and what they declare or use. Tokens are left out; they follow from the ranges.
-/

set_option autoImplicit false

namespace JavaAnalysis

open Ast

/-- What becomes of the tokens of a node that none of its child nodes takes. -/
inductive GapRule where
  | tokens
  /-- Semicolons become empty declarations. -/
  | declarations
  /--
  Semicolons become empty declarations, except for the first one inside the range, unless it
  stands behind the place where the members start.
  -/
  | enumBody (range : TextRange) (members : Option Nat)
deriving DecidableEq, Repr, Inhabited

/-- What is told of a node itself. -/
structure NodeSpec where
  kind : NodeKind
  range : TextRange
  /-- What the first token must be. -/
  word : Option TokenKind
  gaps : GapRule
  /-- Where the name starts that the node declares. -/
  declares : Option Nat
deriving DecidableEq, Repr, Inhabited

namespace NodeSpec

def plain (kind : NodeKind) (range : TextRange) : NodeSpec := ⟨kind, range, none, .tokens, none⟩

/-- A node that declares the name that starts at an offset. -/
def declaring (kind : NodeKind) (range : TextRange) (offset : Nat) : NodeSpec :=
  { plain kind range with declares := some offset }

/-- A node whose first token must be of a kind. -/
def headed (kind : NodeKind) (range : TextRange) (word : TokenKind) : NodeSpec :=
  { plain kind range with word := some word }

end NodeSpec

/-- What a word says of the types behind it. -/
inductive ClauseKind where
  | extending
  | implementing
  | permitting
  | throwing
deriving DecidableEq, Repr, Inhabited

/-- The kind of node that a clause becomes. -/
def ClauseKind.node : ClauseKind → NodeKind
  | extending => .extendsClause
  | implementing => .implementsClause
  | permitting => .permitsClause
  | throwing => .throwsClause

mutual

inductive Shape where
  /-- An identifier, which may use what the name that starts at an offset is bound to. -/
  | ident (range : TextRange) (use : Option Nat)
  | node (spec : NodeSpec) (children : List Shape)
  /-- A node with a declared type, which is one of its children. -/
  | typed (spec : NodeSpec) (before : List Shape) (typeShape : Shape) (type : TypeRef)
      (ellipsis : Option TextRange) (after : List Shape)
  /-- A word with a list of types behind it that lies inside the range. -/
  | clause (kind : ClauseKind) (word : TokenKind) (range : TextRange) (types : List Shape)
  /-- Variables with one type; `start` is where the first of them starts. -/
  | variables (start : Nat) (terminated : Bool) (before : List Shape) (typeShape : Shape)
      (type : TypeRef) (fragments : List FragmentShape)
  /-- A statement with a label. -/
  | labeled (range : TextRange) (label : Ident) (body : List Shape)
  | jump (kind : NodeKind) (range : TextRange) (label : Option Ident)
  /-- The body of a class or a lambda, in which the labels around it are not open. -/
  | body (inside : List Shape)

/-- One of several variables, with the brackets and the initial value behind its name. -/
inductive FragmentShape where
  | mk (range : TextRange) (name : Ident) (inside : List Shape)

end

namespace Shape

/-- A node of which nothing but kind and range is told. -/
def plain (kind : NodeKind) (range : TextRange) (children : List Shape) : Shape :=
  node (.plain kind range) children

def leaf (kind : NodeKind) (range : TextRange) : Shape := plain kind range []

/-- A name where it is declared. -/
def name (n : Ident) : Shape := ident n.range none

/-- A name where it is used. -/
def nameUse (n : Ident) : Shape := ident n.range (some n.range.start)

/-- A node whose first token must be of a kind. -/
def headed (kind : NodeKind) (range : TextRange) (word : TokenKind) (children : List Shape) :
    Shape :=
  node (.headed kind range word) children

end Shape

end JavaAnalysis
