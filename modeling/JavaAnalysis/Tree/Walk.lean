import JavaAnalysis.Tree.Basic

/-!
# Walking syntax trees

A walk enters a node, walks its child nodes in order, and leaves the node again. It goes on from
event to event by the links of the tree, and can be told to leave out what is below the node that
was just entered. The same tree can also be taken apart into nested subtrees.
-/

set_option autoImplicit false

namespace JavaAnalysis

inductive WalkEvent where
  | enter (id : NodeId)
  | leave (id : NodeId)
deriving DecidableEq, Repr, Inhabited

/-- A walk through the nodes below a node, itself included. -/
structure Walk where
  start : NodeId
  /-- What comes next, unless the walk is over. -/
  next : Option WalkEvent
deriving DecidableEq, Repr, Inhabited

namespace Walk

def ofNode (start : NodeId) : Walk := ⟨start, some (.enter start)⟩

/-- The event after another one. -/
def eventAfter (t : SyntaxTree) (start : NodeId) : WalkEvent → Option WalkEvent
  | .enter id =>
    match t.firstChild? id with
    | some child => some (.enter child)
    | none => some (.leave id)
  | .leave id =>
    if id = start then none
    else
      match t.nextSibling? id with
      | some sibling => some (.enter sibling)
      | none => (t.parent? id).map .leave

/-- Takes one step, and tells what was met. -/
def advance? (t : SyntaxTree) (w : Walk) : Option (WalkEvent × Walk) :=
  w.next.map fun event => (event, { w with next := eventAfter t w.start event })

/-- Leaves out the nodes below the node that was just entered. -/
def skipBelow (t : SyntaxTree) (w : Walk) : Walk :=
  match w.next with
  | some (.enter child) => { w with next := (t.parent? child).map .leave }
  | _ => w

/-- The next `n` events of a walk that does not go below nodes with a property. -/
def events (t : SyntaxTree) (skip : NodeId → Bool) : Nat → Walk → List WalkEvent
  | 0, _ => []
  | n + 1, w =>
    match w.advance? t with
    | none => []
    | some (event, w) =>
      let w := match event with
        | .enter id => if skip id then w.skipBelow t else w
        | .leave _ => w
      event :: events t skip n w

end Walk

namespace SyntaxTree

variable (t : SyntaxTree)

/-- All events of a walk from a node that does not go below nodes with a property. -/
def walk (start : NodeId) (skip : NodeId → Bool) : List WalkEvent :=
  Walk.events t skip (2 * t.nodes.size) (Walk.ofNode start)

/-- A node and all nodes below it, each before those below it. -/
def descendants (start : NodeId) : List NodeId :=
  (t.walk start fun _ => false).filterMap fun
    | .enter id => some id
    | .leave _ => none

/-- All nodes of the tree, each before those below it. -/
def preorder : List NodeId := t.descendants t.root

end SyntaxTree

/-- A token, or a node with all that is below it. -/
inductive Subtree where
  | token (id : TokenId)
  | node (id : NodeId) (children : List Subtree)
deriving Inhabited

namespace Subtree

/-- What is below a child, down to `n` levels. -/
def ofElement (t : SyntaxTree) : Nat → Element → Subtree
  | _, .token id => token id
  | 0, .node id => node id []
  | n + 1, .node id => node id ((t.childElements id).map (ofElement t n))

/-- A node with all that is below it; a node has fewer levels below it than its number. -/
def ofNode (t : SyntaxTree) (id : NodeId) : Subtree := ofElement t (id.index + 1) (.node id)

mutual

/-- The tokens of a subtree in order. -/
def leaves : Subtree → List TokenId
  | token id => [id]
  | node _ children => leavesOf children

def leavesOf : List Subtree → List TokenId
  | [] => []
  | s :: ss => s.leaves ++ leavesOf ss

end

def indent (depth : Nat) : String := String.ofList (List.replicate (2 * depth) ' ')

/-- The lines of a token: one for each comment in front of it, and its own. -/
def tokenLines (t : SyntaxTree) (depth : Nat) (id : TokenId) : List String :=
  ((t.token id).comments.map fun c =>
    indent depth ++ c.kind.name ++ " " ++ Quoted.ofString c.text) ++
  [indent depth ++ t.renderToken id]

mutual

/-- The subtree as lines of text, one for each node, comment and token. -/
def lines (t : SyntaxTree) (depth : Nat) : Subtree → List String
  | token id => tokenLines t depth id
  | node id children => (indent depth ++ t.render id) :: linesOf t (depth + 1) children

def linesOf (t : SyntaxTree) (depth : Nat) : List Subtree → List String
  | [] => []
  | s :: ss => lines t depth s ++ linesOf t depth ss

end

end Subtree

/-- The whole tree as lines of text. -/
def SyntaxTree.dump (t : SyntaxTree) : List String := (Subtree.ofNode t t.root).lines t 0

end JavaAnalysis
