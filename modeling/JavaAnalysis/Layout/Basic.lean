import JavaAnalysis.FileError
import JavaAnalysis.Layout.Shape
import JavaAnalysis.Semantics.Occurrences
import JavaAnalysis.Tree.Draft

/-!
# Laying nodes over tokens

A node takes the tokens inside its range. Tokens that no node inside it takes become children of
the node itself, so that words, punctuation and brackets belong to the innermost node around them.
-/

set_option autoImplicit false

namespace JavaAnalysis

/-- A tree while it is laid over the tokens of its file. -/
structure Layout where
  row : TokenRow
  draft : TreeDraft
  /-- The first and the last token of each node. -/
  spans : Array (TokenId × TokenId)
  occurrences : Occurrences
  /-- What the name that starts at an offset is bound to. -/
  boundAt? : Nat → Option BindingId

namespace Layout

abbrev Step (α : Type) := StateT Layout (Except FileError) α

def start (row : TokenRow) (boundAt? : Nat → Option BindingId) : Layout :=
  ⟨row, .empty, #[], .empty, boundAt?⟩

def token (l : Layout) (id : TokenId) : Token := l.row.token id

/-- The first and the last token of a node. -/
def spanOf (l : Layout) (id : NodeId) : TokenId × TokenId := l.spans.getD id.index default

/-- A new node over tokens that belong to its children. -/
def allocate (kind : NodeKind) (elements : List Element) (span : TokenId × TokenId) :
    Step NodeId :=
  modifyGet fun l => (l.draft.nextId,
    { l with draft := l.draft.push kind elements, spans := l.spans.push span })

/-- What becomes of tokens that no child node takes, the separator of an enum being found. -/
inductive Gaps where
  | tokens
  /-- Semicolons become empty declarations, except for the one to keep. -/
  | declarations (keep : Option TokenId)
deriving DecidableEq, Repr, Inhabited

/-- The semicolon behind the constants of an enum, which stands in front of the members. -/
def separator? (l : Layout) (range : TextRange) (members : Option Nat) : Option TokenId :=
  (l.row.firstOfKind? range TokenKind.semicolon).filter fun id =>
    members.all fun start => decide ((l.token id).stop ≤ start)

def Gaps.ofRule (l : Layout) : GapRule → Gaps
  | .tokens => tokens
  | .declarations => declarations none
  | .enumBody range members => declarations (l.separator? range members)

/-- What becomes of a token that no child node takes. -/
def gap (gaps : Gaps) (id : TokenId) : Step Element := do
  match gaps with
  | .tokens => return .token id
  | .declarations keep =>
    if keep ≠ some id ∧ ((← get).token id).kind = .semicolon then
      return .node (← allocate .emptyDecl [.token id] (id, id))
    else return .token id

/-- What becomes of the next `n` tokens from the one numbered `i`. -/
def gapsFrom (gaps : Gaps) : Nat → Nat → Step (List Element)
  | 0, _ => return []
  | n + 1, i => do
    let e ← gap gaps ⟨i⟩
    return e :: (← gapsFrom gaps n (i + 1))

/-- Child nodes in order and the tokens around them, from the token numbered `next` to `last`. -/
def interleave (kind : NodeKind) (gaps : Gaps) (last : TokenId) :
    Nat → List NodeId → Step (List Element)
  | next, [] => gapsFrom gaps (last.index + 1 - next) next
  | next, child :: children => do
    let l ← get
    let (first, final) := l.spanOf child
    if first.index < next ∨ last.index < final.index then
      throw (.mismatch kind (l.token first).start .overlap)
    let before ← gapsFrom gaps (first.index - next) next
    let rest ← interleave kind gaps last (final.index + 1) children
    return before ++ .node child :: rest

/-- The children of a node over a span of tokens. -/
def elements (kind : NodeKind) (span : TokenId × TokenId) (children : List NodeId) (gaps : Gaps) :
    Step (List Element) := do
  let l ← get
  let sorted := children.mergeSort fun a b =>
    decide ((l.spanOf a).1.index ≤ (l.spanOf b).1.index)
  interleave kind gaps span.2 span.1.index sorted

/-- A node over the tokens inside a range, some of them in child nodes. -/
def nodeOver (kind : NodeKind) (range : TextRange) (children : List NodeId) (rule : GapRule) :
    Step NodeId := do
  let l ← get
  match l.row.span? range with
  | none => throw (.mismatch kind range.start .noTokens)
  | some span => allocate kind (← elements kind span children (.ofRule l rule)) span

/-- The token that was found, which must be of a kind. -/
def expectKind (node : NodeKind) (offset : Nat) (kind : TokenKind) (found : Option TokenId) :
    Step TokenId := do
  let l ← get
  match found.filter fun id => (l.token id).kind == kind with
  | some id => return id
  | none => throw (.missing node offset kind)

/-- The first token inside the range must be of a kind. -/
def leading (node : NodeKind) (range : TextRange) (kind : TokenKind) : Step Unit := do
  let _ ← expectKind node range.start kind ((← get).row.firstInside? range)

/-- The token in front of the offset, which must be of a kind. -/
def preceding (node : NodeKind) (offset : Nat) (kind : TokenKind) : Step TokenId := do
  expectKind node offset kind ((← get).row.before? offset)

/-- The token behind the offset, which must be of a kind. -/
def following (node : NodeKind) (offset : Nat) (kind : TokenKind) : Step TokenId := do
  expectKind node offset kind ((← get).row.after? offset)

def record (f : Occurrences → Occurrences) : Step Unit :=
  modify fun l => { l with occurrences := f l.occurrences }

/-- Enters a node as the declaration of what the name at the offset is bound to. -/
def declareAt (offset : Nat) (node : NodeId) : Step Unit := do
  match (← get).boundAt? offset with
  | some id => record fun o => o.declare id node
  | none => return ()

/-- Enters a node as a usage of what the name at the offset is bound to. -/
def referAt (offset : Nat) (node : NodeId) : Step Unit := do
  match (← get).boundAt? offset with
  | some id => record fun o => o.refer id node
  | none => return ()

/-- Runs a step in the body of a class or a lambda, where the labels around it are not open. -/
def inBody {α : Type} (step : Step α) : Step α := do
  let (outer, occurrences) := (← get).occurrences.enterBody
  modify fun l => { l with occurrences }
  let x ← step
  record fun o => o.exitBody outer
  return x

end Layout

end JavaAnalysis
