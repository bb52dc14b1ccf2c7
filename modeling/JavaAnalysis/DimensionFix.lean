import JavaAnalysis.Lexeme.Scan
import JavaAnalysis.Text.Edit
import JavaAnalysis.Tree.View
import JavaAnalysis.Tree.Walk

/-!
# Moving brackets to the type

A declared type is its base with a pair of brackets for each dimension, wherever the brackets are
written. The edits turn `int a[]` into `int[] a`. A variable that shares its type with others is
taken out of their declaration and declared right behind it.
-/

set_option autoImplicit false

namespace JavaAnalysis

/-! ## Shapes of declared types -/

/-- An array type as it is nested around the type that is no array. -/
inductive TypeShape where
  | base (node : NodeId)
  | array (element : TypeShape)
deriving DecidableEq, Repr, Inhabited

namespace TypeShape

def baseNode : TypeShape → NodeId
  | base node => node
  | array element => element.baseNode

/-- The number of dimensions. -/
def rank : TypeShape → Nat
  | base _ => 0
  | array element => element.rank + 1

end TypeShape

namespace DeclaredType

def shape (d : DeclaredType) : TypeShape := d.dimensions.foldl (fun s _ => .array s) (.base d.base)

/-- The brackets behind the name. -/
def nameSide (d : DeclaredType) : List Dimension :=
  d.dimensions.filter fun dim => dim.side == .afterName

def hasNameSide (d : DeclaredType) : Bool := !d.nameSide.isEmpty

/-- The texts of tokens, with a blank wherever the next one does not follow at once. -/
def spaced : List Token → String
  | [] => ""
  | [x] => x.text
  | x :: y :: xs => x.text ++ (if x.stop < y.start then " " else "") ++ spaced (y :: xs)

/-- The type as text, with all brackets behind it. -/
def display (t : SyntaxTree) (d : DeclaredType) : String :=
  spaced ((t.tokensOf d.base).map t.token) ++ String.join (d.dimensions.map fun _ => "[]")

end DeclaredType

end JavaAnalysis

namespace JavaAnalysis.DimensionFix

/-! ## Edits -/

/-- The brackets of a declaration leave its name and go behind its type. -/
def inPlace (dims : List TextRange) (typeStop : Nat) (brackets : String) : List TextEdit :=
  dims.map TextEdit.deletion ++ [.insertion typeStop brackets]

/-- The text of a range, which ends where it must. -/
def textOf (text : List Char) (range : TextRange) : String :=
  String.ofList ((slice? text range).getD [])

/-- The text from `start` to `stop` without the brackets, which ascend. -/
def withoutDimensions (text : List Char) (start stop : Nat) : List TextRange → String
  | [] => textOf text ⟨start, stop⟩
  | dim :: dims => textOf text ⟨start, dim.start⟩ ++ withoutDimensions text dim.stop stop dims

/--
The blanks in front of an offset, if there is nothing else on its line. In front of a declaration
the only blanks are those that separate lexemes.
-/
def indentation (text : List Char) (offset : Nat) : String :=
  let before := ((splitAtOffset? text offset).map (·.1)).getD []
  let line := (before.reverse.takeWhile (· != '\n')).reverse
  if line.all Lexeme.isBlank then String.ofList line else ""

/-- What leaves the declaration with a variable: its text, and a comma beside it. -/
def removal? (t : SyntaxTree) (before : Option NodeId) (after : List NodeId) (nameStart : Nat)
    (contentStop : Nat) : Option TextRange := do
  match before with
  | none => return ⟨nameStart, (t.range (← after.head?)).start⟩
  | some neighbour => return ⟨(t.token (← t.separatorOf? neighbour)).start, contentStop⟩

/-- Takes a variable out of its declaration, and declares it right behind. -/
def splitOff? (t : SyntaxTree) (group : List NodeId) (id : NodeId) (dims : List TextRange)
    (typeStop : Nat) (brackets : String) : Option (List TextEdit) := do
  let text := t.text.toList
  let place ← group.idxOf? id
  let first ← group.head?
  let last ← group.getLast?
  let name ← t.nameOf? id
  let separator := t.separatorOf? id
  let final ← (t.tokensOf id).reverse.find? fun x => some x != separator
  let nameStart := (t.token name).start
  let contentStop := (t.token final).stop
  let removed ← removal? t ((group.take place).getLast?) (group.drop (place + 1)) nameStart
    contentStop
  let start := (t.range first).start
  let head := textOf text ⟨start, typeStop⟩
  let declarator := withoutDimensions text nameStart contentStop dims
  let declaration := "\n" ++ indentation text start ++ head ++ brackets ++ " " ++ declarator ++ ";"
  return [.deletion removed, .insertion (t.range last).stop declaration]

/-- The variables that share a type, among the children of a node. -/
def groupOf (t : SyntaxTree) (parent : NodeId) (type : DeclaredType) : List NodeId :=
  (t.children parent).filter fun c =>
    (t.declaredType? c).any fun other => other.typeNode == type.typeNode

/-- The fix for a variable, which shares its type with those in its group. -/
def variableFix? (t : SyntaxTree) (id : NodeId) (type : DeclaredType) (dims : List TextRange)
    (typeStop : Nat) (brackets : String) : Option (List TextEdit) := do
  let parent ← t.parent? id
  let group := groupOf t parent type
  if group.length = 1 then some (inPlace dims typeStop brackets)
  else if t.kind parent = .forInit then none
  else splitOff? t group id dims typeStop brackets

/--
The edits that move the brackets behind a name to its type. There are none if there are no such
brackets, and for one of several variables that a `for` loop starts with.
-/
def edits? (t : SyntaxTree) (id : NodeId) : Option (List TextEdit) := do
  let type ← (t.declaredType? id).filter DeclaredType.hasNameSide
  let dims := t.dimensionsOf id
  let ranges := dims.map t.range
  let brackets := String.join (dims.map t.textOf)
  let typeStop := (t.range type.typeNode).stop
  match t.kind id with
  | .parameter => some (inPlace ranges typeStop brackets)
  | .variableDecl => variableFix? t id type ranges typeStop brackets
  | _ => none

end JavaAnalysis.DimensionFix
