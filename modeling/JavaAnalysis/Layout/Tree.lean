import JavaAnalysis.Layout.Basic
import JavaAnalysis.Layout.OfAst

/-!
# The tree of a file

The shapes of a file are laid over its tokens from the leaves up. On the way the tree learns its
declared types, and the occurrences of bindings and labels are entered.
-/

set_option autoImplicit false

namespace JavaAnalysis.Layout

open Ast

/-- The brackets of an array type, the innermost first. -/
def typeDimensions (l : Layout) : TypeRef → List Dimension
  | .array _ element brackets =>
    typeDimensions l element ++
      ((l.row.span? brackets).map fun p => Dimension.mk p.1 p.2 .afterType).toList
  | _ => []

/-- What an array type is made of, at most `n` levels down. -/
def baseWithin (l : Layout) : Nat → NodeId → NodeId
  | 0, id => id
  | n + 1, id =>
    let drafted := l.draft.node id
    if drafted.kind = .arrayType then
      match drafted.children.findSome? Element.node? with
      | some element => baseWithin l n element
      | none => id
    else id

/-- An ellipsis as a pair of brackets. -/
def ellipsisDimensions (l : Layout) (ellipsis : Option TextRange) : List Dimension :=
  ((ellipsis.bind l.row.firstInside?).map fun id => Dimension.mk id id .afterType).toList

/-- The brackets among the nodes behind a type. -/
def nameDimensions (l : Layout) (after : List NodeId) : List Dimension :=
  (after.filter fun id => (l.draft.node id).kind == .arrayDimension).map fun id =>
    ⟨(l.spanOf id).1, (l.spanOf id).2, .afterName⟩

/-- The declared type of a name with the given nodes behind its type. -/
def declaredType (l : Layout) (typeNode : NodeId) (type : TypeRef) (ellipsis : Option TextRange)
    (after : List NodeId) : DeclaredType :=
  ⟨typeNode, l.baseWithin (typeNode.index + 1) typeNode,
    l.typeDimensions type ++ l.ellipsisDimensions ellipsis ++ l.nameDimensions after⟩

/-- Records the declared type of a node. -/
def setType (id typeNode : NodeId) (type : TypeRef) (ellipsis : Option TextRange)
    (after : List NodeId) : Step Unit :=
  modify fun l =>
    let declared := l.declaredType typeNode type ellipsis after
    { l with draft := l.draft.setDeclaredType id declared }

/-- Makes sure that a node starts with the word that it should start with. -/
def checkWord (spec : NodeSpec) : Step Unit := do
  match spec.word with
  | some word => leading spec.kind spec.range word
  | none => return ()

def declareIf (offset : Option Nat) (node : NodeId) : Step Unit := do
  match offset with
  | some o => declareAt o node
  | none => return ()

def leaf (kind : NodeKind) (range : TextRange) : Step NodeId := nodeOver kind range [] .tokens

/-- Where a variable ends, with the token behind it. -/
def fragmentStop (range : TextRange) (isLast terminated : Bool) : Step Nat := do
  if isLast && !terminated then return range.stop
  else
    let id ← following .variableDecl range.stop (if isLast then .semicolon else .comma)
    return ((← get).token id).stop

/-- The range of a clause, which starts with the word in front of its types. -/
def clauseRange (kind : NodeKind) (word : TokenKind) (range : TextRange) : Step TextRange := do
  let id ← preceding kind range.start word
  return ⟨((← get).token id).start, range.stop⟩

mutual

/-- The nodes of a shape. -/
def lay : Shape → Step (List NodeId)
  | .ident range use => do
    let id ← leaf .identifier range
    match use with
    | some offset => referAt offset id
    | none => pure ()
    return [id]
  | .node spec children => do
    checkWord spec
    let ids ← layAll children
    let id ← nodeOver spec.kind spec.range ids spec.gaps
    declareIf spec.declares id
    return [id]
  | .typed spec before typeShape type ellipsis after => do
    let before ← layAll before
    let types ← lay typeShape
    let after ← layAll after
    let id ← nodeOver spec.kind spec.range (before ++ types ++ after) spec.gaps
    types.forM fun typeNode => setType id typeNode type ellipsis after
    declareIf spec.declares id
    return [id]
  | .clause kind word range types => do
    let range ← clauseRange kind.node word range
    let ids ← layAll types
    return [← nodeOver kind.node range ids .tokens]
  | .variables start terminated before typeShape type fragments =>
    if fragments.isEmpty then return []
    else do
      let before ← layAll before
      let types ← lay typeShape
      layFragments terminated start types type (before ++ types) fragments
  | .labeled range label body => do
    let id ← leaf .identifier label.range
    record fun o => (o.enterLabel label.text).2
    let body ← layAll body
    let labeled ← nodeOver .labeledStatement range (id :: body) .tokens
    record fun o => (o.exitLabel labeled).2
    return [labeled]
  | .jump kind range none => do return [← leaf kind range]
  | .jump kind range (some label) => do
    let id ← leaf .identifier label.range
    record fun o => (o.resolveLabel label.text id).2
    return [← nodeOver kind range [id] .tokens]
  | .body inside => inBody (layAll inside)

def layAll : List Shape → Step (List NodeId)
  | [] => return []
  | s :: ss => do
    let ids ← lay s
    return ids ++ (← layAll ss)

/-- The nodes of variables; the first of them starts at `start` and owns the nodes `before`. -/
def layFragments (terminated : Bool) (start : Nat) (types : List NodeId) (type : TypeRef)
    (before : List NodeId) : List FragmentShape → Step (List NodeId)
  | [] => return []
  | .mk range name inside :: fragments => do
    let stop ← fragmentStop range fragments.isEmpty terminated
    let id ← leaf .identifier name.range
    let inside ← layAll inside
    let decl ← nodeOver .variableDecl ⟨start, stop⟩ (before ++ id :: inside) .tokens
    types.forM fun typeNode => setType decl typeNode type none inside
    declareAt name.range.start decl
    let next := match fragments with
      | .mk r _ _ :: _ => r.start
      | [] => stop
    return decl :: (← layFragments terminated next types type [] fragments)

end

/-- The root: all of the file, with the token at its end. -/
def layUnit (unit : CompilationUnit) : Step NodeId := do
  let children ← layAll unit.shapes
  let l ← get
  let inside ← match l.row.span? unit.range with
    | some span => elements .compilationUnit span children (.declarations none)
    | none => pure []
  let final := l.row.final
  allocate .compilationUnit (inside ++ [.token final]) (⟨0⟩, final)

/-- The tree of a file and the occurrences of its bindings in it. -/
def tree (text : String) (row : TokenRow) (boundAt? : Nat → Option BindingId)
    (unit : CompilationUnit) : Except FileError (SyntaxTree × Occurrences) := do
  let (root, l) ← layUnit unit (start row boundAt?)
  match SyntaxTree.ofDraft text row l.draft root with
  | .ok t => return (t, l.occurrences)
  | .error e => .error (.ofTree e)

end JavaAnalysis.Layout
