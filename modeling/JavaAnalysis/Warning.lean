import JavaAnalysis.Kind
import JavaAnalysis.Problem
import JavaAnalysis.Tree.Walk

/-!
# Warnings

A warning is reported for a range of text, and belongs to a node of the tree: the narrowest one
around the range whose kind fits the warning. A warning that no node fits is dropped. The nodes for
all warnings of a file are found in one walk through its tree, on which those warnings are kept
pending for which a better node may still come.
-/

set_option autoImplicit false

namespace JavaAnalysis

inductive WarningCategory where
  | unusedImport
  | unusedLocalVariable
  | unusedPrivateField
  | unusedPrivateMethod
  | unusedPrivateType
  | redundantCast
  | unusedLabel
  | deadCode
deriving DecidableEq, Repr, Inhabited

namespace WarningCategory

def ofProblem? : ProblemId → Option WarningCategory
  | .unusedImport => some unusedImport
  | .unusedLocal => some unusedLocalVariable
  | .unusedPrivateField => some unusedPrivateField
  | .unusedPrivateMethod => some unusedPrivateMethod
  | .unusedPrivateType => some unusedPrivateType
  | .redundantCast => some redundantCast
  | .unusedLabel => some unusedLabel
  | .deadCode => some deadCode
  | .syntaxError | .switchNotExhaustive | .unresolvedType | .unresolvedName | .unresolvedMethod
  | .unresolvedField => none

def name : WarningCategory → String
  | unusedImport => "unused-import"
  | unusedLocalVariable => "unused-local-variable"
  | unusedPrivateField => "unused-private-field"
  | unusedPrivateMethod => "unused-private-method"
  | unusedPrivateType => "unused-private-type"
  | redundantCast => "redundant-cast"
  | unusedLabel => "unused-label"
  | deadCode => "dead-code"

/-- The kinds of nodes that a warning can belong to. -/
def kinds : WarningCategory → KindSet
  | unusedImport => .ofList [NodeKind.importDecl]
  | unusedLocalVariable => .ofList [NodeKind.variableDecl]
  | unusedPrivateField => .ofList [NodeKind.variableDecl]
  | unusedPrivateMethod => .ofList [NodeKind.method, NodeKind.constructor]
  | unusedPrivateType => .typeDeclarations
  | redundantCast => .ofList [NodeKind.typeCast]
  | unusedLabel => .ofList [NodeKind.labeledStatement]
  | deadCode => .statements

def admits (c : WarningCategory) (kind : NodeKind) : Bool := c.kinds.contains kind

end WarningCategory

structure Warning where
  message : String
  category : WarningCategory
  range : TextRange
  /-- The node that the warning belongs to. -/
  attached : NodeId
deriving DecidableEq, Repr, Inhabited

/-- A warning for which a node is looked for. -/
structure Candidate where
  /-- The place among the warnings of the file. -/
  number : Nat
  message : String
  category : WarningCategory
  range : TextRange
  /-- The best node so far. -/
  best : Option NodeId
deriving DecidableEq, Repr, Inhabited

namespace Candidate

variable (t : SyntaxTree)

/-- A problem as a warning for which no node has been found, if it is one. -/
def ofProblem? (number : Nat) (p : Problem) : Option Candidate := do
  let category ← WarningCategory.ofProblem? p.id
  if p.severity = .warning then return ⟨number, p.message, category, p.range, none⟩ else none

/-- Warnings in the order in which they are kept pending: by their ranges, then by their places. -/
def le (a b : Candidate) : Bool :=
  decide (a.range.start < b.range.start) || decide (a.range.start = b.range.start) &&
    (decide (a.range.stop < b.range.stop) || decide (a.range.stop = b.range.stop) &&
      decide (a.number ≤ b.number))

/-- The node is around the range of the warning, and its kind fits. -/
def fits (c : Candidate) (n : NodeId) : Bool :=
  (t.range n).contains c.range && c.category.admits (t.kind n)

/-- Takes a node that fits, unless a narrower one was found before. -/
def visit (n : NodeId) (c : Candidate) : Candidate :=
  if c.fits t n && c.best.all fun b => decide ((t.range n).length ≤ (t.range b).length) then
    { c with best := some n }
  else c

/-- The node is over just the range of the warning, so that no better one comes. -/
def isSettledBy (n : NodeId) (c : Candidate) : Bool := c.fits t n && t.range n == c.range

/-- The warning with its node, if one was found. -/
def attached? (c : Candidate) : Option Warning :=
  c.best.map fun n => ⟨c.message, c.category, c.range, n⟩

end Candidate

/-- Warnings during the walk: those for which better nodes may come, in order, and the others. -/
structure Pending where
  queue : List Candidate
  settled : List Candidate
deriving DecidableEq, Repr, Inhabited

namespace Pending

variable (t : SyntaxTree)

/--
Comes to the next node. What starts before it also starts before all nodes behind it, and what
starts behind its end is not inside it.
-/
def step (n : NodeId) (p : Pending) : Pending :=
  let r := t.range n
  let (passed, rest) := p.queue.span fun c => decide (c.range.start < r.start)
  let (near, far) := rest.span fun c => decide (c.range.start ≤ r.stop)
  let (exact, others) := (near.map (Candidate.visit t n)).partition (Candidate.isSettledBy t n)
  ⟨others ++ far, passed ++ exact ++ p.settled⟩

/-- Comes to one node after the other, until no warning is pending. -/
def walk (p : Pending) : List NodeId → Pending
  | [] => p
  | n :: ns => if p.queue.isEmpty then p else walk (p.step t n) ns

/-- All warnings in the order of the file. -/
def inOrder (p : Pending) : List Candidate :=
  (p.queue ++ p.settled).mergeSort fun a b => decide (a.number ≤ b.number)

end Pending

namespace Warning

/-- The problems that are warnings, numbered in their order. -/
def candidates (problems : List Problem) : List Candidate :=
  (problems.zipIdx).filterMap fun (p, number) => Candidate.ofProblem? number p

/-- The warnings among problems that belong to a node, in one walk through the tree. -/
def ofProblems (t : SyntaxTree) (problems : List Problem) : List Warning :=
  let queue := (candidates problems).mergeSort Candidate.le
  ((Pending.walk t ⟨queue, []⟩ t.preorder).inOrder).filterMap Candidate.attached?

end Warning

/-- Something in the file is not known, so that what follows from types may be wrong. -/
def Problem.isSemanticError (p : Problem) : Bool :=
  p.severity == .error && (p.category == .typing || p.category == .semantic)

end JavaAnalysis
