import JavaAnalysis.Proofs.Operators.Grouping

/-!
# How declarations of variables are written

The lexemes of a declaration from left to right: its modifiers and its type, then the variables with
a comma between each two of them, and perhaps a semicolon. A variable is written as its name with
pairs of brackets behind it and, if it has an initial value, an equals sign in front of that value.
-/

set_option autoImplicit false

namespace JavaAnalysis.Ast

/-- A part of a declaration that is written in one run of lexemes. -/
inductive Piece where
  /-- One lexeme that the abstract syntax gives no range to, such as a comma. -/
  | word (kind : TokenKind)
  | name (name : Ident)
  /-- A pair of brackets. -/
  | pair (range : TextRange)
  /-- Anything else that has a range. -/
  | span (range : TextRange)
deriving DecidableEq, Repr, Inhabited

/-- The lexemes that a piece is written with. -/
def Piece.Written : Piece → List Lexeme → Prop
  | word kind, xs => ∃ x, xs = [x] ∧ x.kind = kind
  | name n, xs => ∃ x, xs = [x] ∧ x.kind = .ident ∧ n = ⟨x.range, x.text⟩
  | pair r, xs => ∃ x y, xs = [x, y] ∧ x.kind = .lBracket ∧ y.kind = .rBracket ∧
    r = ⟨x.start, y.stop⟩
  | span r, xs => r.Covers xs

/-- The pieces are written one right behind the other. -/
inductive Composed : List Piece → List Lexeme → Prop where
  | nil : Composed [] []
  | cons {p : Piece} {ps : List Piece} {xs ys : List Lexeme} : p.Written xs → Composed ps ys →
    Composed (p :: ps) (xs ++ ys)

/-- The expression stands for a value; an annotation and a type do not. -/
def Expr.isValue : Expr → Bool
  | .annotated _ => false
  | .type _ => false
  | _ => true

/-- An initial value with the equals sign in front of it. -/
def initPieces : Option Expr → List Piece
  | none => []
  | some e => [.word .eq, .span e.range]

/-- The row of modifiers, if there are any. -/
def modifierPieces (ms : List Modifier) : List Piece :=
  (Modifier.rangeOfAll? ms).toList.map .span

def VarFragment.init? : VarFragment → Option Expr
  | mk _ _ _ init => init

def VarFragment.pieces (f : VarFragment) : List Piece :=
  .name f.name :: f.brackets.map .pair ++ initPieces f.init?

/-- A variable is written with its name, its brackets and its initial value, which is a value. -/
structure VarFragment.Written (f : VarFragment) (xs : List Lexeme) : Prop where
  ends : f.range.Covers xs
  composed : Composed f.pieces xs
  isValue : ∀ e, f.init? = some e → e.isValue = true

/-- Variables are written one behind the other, with a comma between each two. -/
inductive Joined : List VarFragment → List Lexeme → Prop where
  | last {f : VarFragment} {xs : List Lexeme} : f.Written xs → Joined [f] xs
  | comma {f : VarFragment} {fs : List VarFragment} {x : Lexeme} {xs ys : List Lexeme} :
    f.Written xs → x.kind = .comma → Joined fs ys → Joined (f :: fs) (xs ++ x :: ys)

def VarDecl.type : VarDecl → TypeRef
  | mk _ _ type _ => type

/-- The range of the node that a type becomes, which leaves out what may stand behind a name. -/
def TypeRef.nodeRange : TypeRef → TextRange
  | named range _ name none _ => ⟨range.start, name.range.stop⟩
  | t => t.range

/-- The pairs of brackets of an array type, the innermost first. -/
def TypeRef.brackets : TypeRef → List TextRange
  | .array _ element pair => element.brackets ++ [pair]
  | _ => []

/--
A declaration is written with modifiers, a type, variables and perhaps a semicolon; the brackets of
an array type are among them.
-/
structure VarDecl.Written (d : VarDecl) (xs : List Lexeme) : Prop where
  nodeRange_eq : d.type.nodeRange = d.type.range
  brackets : ∀ b ∈ d.type.brackets, ∃ zs, zs <:+: xs ∧ (Piece.pair b).Written zs
  divided : ∃ head body tail, xs = head ++ body ++ tail ∧
    Composed (modifierPieces d.modifiers ++ [.span d.type.range]) head ∧ Joined d.fragments body ∧
    (tail = [] ∨ (Piece.word .semicolon).Written tail)

/-- An array type ends with its pair of brackets. -/
def TypeRef.Written : TypeRef → List Lexeme → Prop
  | .array _ _ pair, xs => ∃ ys zs, xs = ys ++ zs ∧ (Piece.pair pair).Written zs
  | _, _ => True

variable {ps qs : List Piece} {p : Piece} {xs ys : List Lexeme}

theorem Composed.append (h : Composed ps xs) (h' : Composed qs ys) :
    Composed (ps ++ qs) (xs ++ ys) := by
  induction h with
  | nil => exact h'
  | cons hp _ ih =>
    rw [List.append_assoc]
    exact .cons hp ih

theorem Composed.single (h : p.Written xs) : Composed [p] xs := by
  have hone := Composed.cons h .nil
  rwa [List.append_nil] at hone

end JavaAnalysis.Ast
