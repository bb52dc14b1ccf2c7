import JavaAnalysis.Kind.Node
import JavaAnalysis.Kind.Token
import JavaAnalysis.Tree.Basic

/-!
# Building syntax trees

Nodes are drafted from the leaves up, each over children that are drafted already. Finishing a
draft finds the tokens at the ends of each node, links children to their parents, and makes sure
that each token and each node but the root has exactly one parent, that nothing lies outside the
root, and that the tokens are in order.
-/

set_option autoImplicit false

namespace JavaAnalysis

/-! ## Faults of syntax trees -/

/-- What keeps nodes over tokens from being a tree; an offset is that of a token. -/
inductive TreeError where
  | emptyNode (kind : NodeKind)
  | orphanNode (kind : NodeKind)
  | sharedNode (kind : NodeKind)
  | unownedToken (kind : TokenKind) (offset : Nat)
  | sharedToken (kind : TokenKind) (offset : Nat)
  | outOfOrder (kind : NodeKind) (offset : Nat)
  | unsortedTokens (offset : Nat)
  | missingEndOfFile
deriving DecidableEq, Repr, Inhabited

namespace TreeError

def message : TreeError → String
  | emptyNode kind => s!"{kind.name} node owns no token"
  | orphanNode kind => s!"{kind.name} node is not reachable from the root"
  | sharedNode kind => s!"{kind.name} node has more than one parent"
  | unownedToken kind offset => s!"token {kind.name} at {offset} is not owned by any node"
  | sharedToken kind offset => s!"token {kind.name} at {offset} is owned twice"
  | outOfOrder kind offset => s!"children of {kind.name} overlap or are out of order at {offset}"
  | unsortedTokens offset => s!"token stream is not sorted at {offset}"
  | missingEndOfFile => "token stream does not end with EOF"

/-- The place that the fault can be reported at, if it has one. -/
def offset? : TreeError → Option Nat
  | unownedToken _ offset | sharedToken _ offset | outOfOrder _ offset
  | unsortedTokens offset => some offset
  | emptyNode _ | orphanNode _ | sharedNode _ | missingEndOfFile => none

/-- The kind of node that the fault concerns. -/
def nodeKind : TreeError → NodeKind
  | emptyNode kind | orphanNode kind | sharedNode kind | outOfOrder kind _ => kind
  | unownedToken _ _ | sharedToken _ _ | unsortedTokens _ | missingEndOfFile => .compilationUnit

end TreeError

/-! ## Drafts -/

structure DraftNode where
  kind : NodeKind
  children : List Element
deriving DecidableEq, Repr, Inhabited

/-- The nodes of a tree that is not finished. -/
structure TreeDraft where
  nodes : Array DraftNode
  declaredTypes : Std.TreeMap NodeId DeclaredType

namespace TreeDraft

def empty : TreeDraft := ⟨#[], ∅⟩

/-- The number that the next node gets. -/
def nextId (d : TreeDraft) : NodeId := ⟨d.nodes.size⟩

def push (d : TreeDraft) (kind : NodeKind) (children : List Element) : TreeDraft :=
  { d with nodes := d.nodes.push ⟨kind, children⟩ }

def setDeclaredType (d : TreeDraft) (node : NodeId) (type : DeclaredType) : TreeDraft :=
  { d with declaredTypes := d.declaredTypes.insert node type }

def node (d : TreeDraft) (id : NodeId) : DraftNode := d.nodes.getD id.index default

end TreeDraft

/-- A child with the node and the place that it has there. -/
structure Slot where
  parent : NodeId
  place : Nat
  child : Element
deriving DecidableEq, Repr, Inhabited

namespace Slot

/-- The slots of the children of a node. -/
def ofChildren (parent : NodeId) (children : List Element) : List Slot :=
  children.zipIdx.map fun p => ⟨parent, p.2, p.1⟩

/-- The slots of all nodes, the first node being the one numbered `n`. -/
def ofNodes (n : Nat) : List (List Element) → List Slot
  | [] => []
  | children :: rest => ofChildren ⟨n⟩ children ++ ofNodes (n + 1) rest

end Slot

namespace SyntaxTree

/-- Each token starts where the one before it has ended, or later. -/
def checkSorted : List Token → Except TreeError Unit
  | a :: b :: ts =>
    if b.start < a.stop then .error (.unsortedTokens b.start) else checkSorted (b :: ts)
  | _ => .ok ()

/-- The tokens are in order, with the end of the file behind them. -/
def checkTokens (row : TokenRow) : Except TreeError Unit :=
  if row.tokens.back?.any Token.isEndOfFile then checkSorted row.tokens.toList
  else .error .missingEndOfFile

/-- The first and the last token of a child, given those of the nodes. -/
def endsOf (ends : Array (TokenId × TokenId)) : Element → TokenId × TokenId
  | .token id => (id, id)
  | .node id => ends.getD id.index default

/-- The first and the last token of a node over the given children. -/
def endsOverChildren (ends : Array (TokenId × TokenId)) (kind : NodeKind)
    (children : List Element) : Except TreeError (TokenId × TokenId) :=
  match children.head?, children.getLast? with
  | some first, some last => .ok ((endsOf ends first).1, (endsOf ends last).2)
  | _, _ => .error (.emptyNode kind)

/-- Adds the ends of nodes to those of the nodes before them. -/
def endsFrom (ends : Array (TokenId × TokenId)) :
    List DraftNode → Except TreeError (Array (TokenId × TokenId))
  | [] => .ok ends
  | n :: ns => do endsFrom (ends.push (← endsOverChildren ends n.kind n.children)) ns

/-- Enters the owners of the tokens in slots. -/
def ownersFrom (row : TokenRow) (owners : Array (Option NodeId)) :
    List Slot → Except TreeError (Array (Option NodeId))
  | [] => .ok owners
  | ⟨parent, _, .token id⟩ :: slots =>
    match owners.getD id.index none with
    | some _ => .error (.sharedToken (row.token id).kind (row.token id).start)
    | none => ownersFrom row (owners.setIfInBounds id.index (some parent)) slots
  | ⟨_, _, .node _⟩ :: slots => ownersFrom row owners slots

/-- The owners of the tokens, as far as they have one. -/
def ownersOf (row : TokenRow) (slots : List Slot) : Except TreeError (Array (Option NodeId)) :=
  ownersFrom row (Array.replicate row.tokens.size none) slots

/-- Enters the parents of the nodes in slots. -/
def linksFrom (kind : NodeId → NodeKind) (links : Array (Option (NodeId × Nat))) :
    List Slot → Except TreeError (Array (Option (NodeId × Nat)))
  | [] => .ok links
  | ⟨parent, place, .node id⟩ :: slots =>
    match links.getD id.index none with
    | some _ => .error (.sharedNode (kind id))
    | none => linksFrom kind (links.setIfInBounds id.index (some (parent, place))) slots
  | ⟨_, _, .token _⟩ :: slots => linksFrom kind links slots

/-- All tokens of a row have an owner. -/
def allOwned : List (Token × Option NodeId) → Except TreeError (List NodeId)
  | [] => .ok []
  | (_, some owner) :: rest => do return owner :: (← allOwned rest)
  | (x, none) :: _ => .error (.unownedToken x.kind x.start)

/-- The children of a node follow each other, behind the token `after`. -/
def checkOrder (row : TokenRow) (ends : Element → TokenId × TokenId) (kind : NodeKind)
    (after : Option TokenId) : List Element → Except TreeError Unit
  | [] => .ok ()
  | c :: cs =>
    let (first, last) := ends c
    if after.any fun a => decide (first.index ≤ a.index) then
      .error (.outOfOrder kind (row.token first).start)
    else checkOrder row ends kind (some last) cs

variable (t : SyntaxTree)

def slots : List Slot := Slot.ofNodes 0 (t.nodes.toList.map NodeData.children)

/-- The first and the last token of a child. -/
def ends : Element → TokenId × TokenId
  | .token id => (id, id)
  | .node id => (t.firstToken id, t.lastToken id)

/-- The children of each node follow each other. -/
def checkOrders : List NodeData → Except TreeError Unit
  | [] => .ok ()
  | n :: ns => do
    checkOrder t.row t.ends n.kind none n.children
    checkOrders ns

/-- All nodes but the root have a parent, from the node numbered `n` on. -/
def checkLinked (links : Array (Option (NodeId × Nat))) : Nat → List NodeData →
    Except TreeError Unit
  | _, [] => .ok ()
  | n, data :: rest =>
    if (links.getD n none).isNone ∧ t.root ≠ ⟨n⟩ then .error (.orphanNode data.kind)
    else checkLinked links (n + 1) rest

/-- Checks the whole tree again, without relying on its links. -/
def verify : Except TreeError Unit := do
  checkTokens t.row
  let owners ← ownersOf t.row t.slots
  t.checkOrders t.nodes.toList
  let links ← linksFrom t.kind (Array.replicate t.nodes.size none) t.slots
  t.checkLinked links 0 t.nodes.toList
  let _ ← allOwned (t.row.tokens.toList.zip owners.toList)
  return ()

/-- A node with its ends and its parent filled in. -/
def finishNode (ends : Array (TokenId × TokenId)) (links : Array (Option (NodeId × Nat)))
    (n : DraftNode) (i : Nat) : NodeData :=
  let link := links.getD i none
  let tokens := ends.getD i default
  { kind := n.kind, children := n.children, parent := link.map (·.1)
    place := (link.map (·.2)).getD 0, first := tokens.1, last := tokens.2 }

/-- Finishes a draft whose root is the given node. -/
def ofDraft (text : String) (row : TokenRow) (draft : TreeDraft) (root : NodeId) :
    Except TreeError SyntaxTree := do
  checkTokens row
  let drafted := draft.nodes.toList
  let ends ← endsFrom #[] drafted
  let slots := Slot.ofNodes 0 (drafted.map DraftNode.children)
  let owners ← ownersOf row slots
  let links ← linksFrom (fun id => (draft.node id).kind)
    (Array.replicate draft.nodes.size none) slots
  let owners ← allOwned (row.tokens.toList.zip owners.toList)
  let nodes := draft.nodes.mapIdx fun i n => finishNode ends links n i
  let tree : SyntaxTree :=
    ⟨text, row, owners.toArray, nodes, root, draft.declaredTypes⟩
  tree.verify
  return tree

end SyntaxTree

end JavaAnalysis
