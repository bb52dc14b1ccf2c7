import JavaAnalysis.Kind
import JavaAnalysis.Lexeme

/-!
# Tokens

A token is a significant lexeme together with the comments in front of it. With the blanks between
them, the tokens of a file hold all of its text.
-/

set_option autoImplicit false

namespace JavaAnalysis

inductive CommentKind where
  | line
  | block
  | doc
  | markdownDoc
deriving DecidableEq, Repr, Inhabited

namespace CommentKind

def ofToken? : TokenKind → Option CommentKind
  | .lineComment => some line
  | .blockComment => some block
  | .docComment => some doc
  | .markdownComment => some markdownDoc
  | _ => none

def name : CommentKind → String
  | line => "Line"
  | block => "Block"
  | doc => "Doc"
  | markdownDoc => "MarkdownDoc"

end CommentKind

structure Comment where
  kind : CommentKind
  text : String
  /-- Byte offset of the first character. -/
  start : Nat
  position : Position
deriving DecidableEq, Repr, Inhabited

namespace Comment

def range (c : Comment) : TextRange := ⟨c.start, c.start + c.text.utf8ByteSize⟩

/-- A lexeme that is a comment. -/
def ofLexeme? (x : Lexeme) : Option Comment :=
  (CommentKind.ofToken? x.kind).map fun kind => ⟨kind, x.text, x.start, x.position⟩

end Comment

/-- A significant lexeme with the comments in front of it. -/
structure Token extends Lexeme where
  comments : List Comment
deriving DecidableEq, Repr, Inhabited

namespace Token

def isEndOfFile (t : Token) : Bool := t.kind == .endOfFile

/-- The position just past the last character. -/
def stopPosition (t : Token) : Position := t.position.advance t.text.toList

end Token

/-- The number of a token in its file. -/
structure TokenId where
  index : Nat
deriving DecidableEq, Repr, Inhabited, Hashable

end JavaAnalysis

/-!
## The tokens of a file

The significant lexemes of a file in a row, each with the comments before it. An operator such as
`>>` is cut where a list of type arguments ends inside it. Tokens can be looked for by offset, by
bisection; the token at the end of the file is only found by looking for what follows an offset.
-/

namespace JavaAnalysis

/-! ## Bisection -/

/-- The first number from `lo` on, and below `hi`, that fails a test; `hi` if all pass. -/
def bisect (p : Nat → Bool) (lo hi : Nat) : Nat :=
  if lo < hi then
    let mid := (lo + hi) / 2
    if p mid then bisect p (mid + 1) hi else bisect p lo mid
  else lo
termination_by hi - lo

theorem bisect_eq {p : Nat → Bool} {lo hi n : Nat} (hlo : lo ≤ n) (hhi : n ≤ hi)
    (below : ∀ i, lo ≤ i → i < n → p i = true) (above : ∀ i, n ≤ i → i < hi → p i = false) :
    bisect p lo hi = n := by
  fun_induction bisect p lo hi with
  | case1 lo hi h mid hp ih =>
    have : ¬ n ≤ mid := fun hn => by simp [above mid hn (by omega)] at hp
    exact ih (by omega) hhi (fun i hi' => below i (by omega)) above
  | case2 lo hi h mid hp ih =>
    have : n ≤ mid := by
      apply Nat.le_of_not_lt
      intro hn
      exact hp (below mid (by omega) hn)
    exact ih hlo this below (fun i hi' hm => above i hi' (by omega))
  | case3 lo hi h => omega

/-! ## Rows of tokens -/

structure TokenRow where
  tokens : Array Token
deriving Inhabited

namespace TokenRow

/-- The parts of a text that starts at `start`, cut at offsets that ascend. -/
def cutAt (start : Nat) (text : List Char) : List Nat → List (Nat × List Char)
  | [] => [(start, text)]
  | o :: os => (start, text.take (o - start)) :: cutAt o (text.drop (o - start)) os

/-- The places at which an operator is cut, in ascending order. -/
def cutsIn (splits : List Nat) (x : Lexeme) : List Nat :=
  if x.kind.startsWithGt then
    ((splits.filter fun o => decide (x.start < o) && decide (o < x.stop)).mergeSort
      fun a b => decide (a ≤ b)).eraseReps
  else []

/-- A part of an operator. -/
def pieceOf? (x : Lexeme) (part : Nat × List Char) : Option Token :=
  let text := String.ofList part.2
  (TokenKind.ofGtText? text).map fun kind =>
    { kind, text, start := part.1, comments := []
      position := { x.position with column := x.position.column + (part.1 - x.start) } }

/-- The tokens that a lexeme gives; the first of them has the comments. -/
def tokensOf (splits : List Nat) (comments : List Comment) (x : Lexeme) : List Token :=
  match (cutAt x.start x.text.toList (cutsIn splits x)).mapM (pieceOf? x) with
  | some (piece :: pieces) => { piece with comments } :: pieces
  | _ => [{ x with comments }]

/-- The tokens of lexemes that follow the given comments. -/
def attachComments (splits : List Nat) : List Comment → List Lexeme → List Token
  | _, [] => []
  | comments, x :: xs =>
    if x.kind.isTrivia then
      attachComments splits (comments ++ (Comment.ofLexeme? x).toList) xs
    else tokensOf splits comments x ++ attachComments splits [] xs

/-- The tokens of a file, with its operators cut at the offsets in `splits`. -/
def ofLexemes (lexemes : List Lexeme) (splits : List Nat) : TokenRow :=
  ⟨(attachComments splits [] lexemes).toArray⟩

variable (r : TokenRow)

def token (id : TokenId) : Token := r.tokens.getD id.index default

/-- The last token. -/
def final : TokenId := ⟨r.tokens.size - 1⟩

/-- The number of tokens before the end of the file. -/
def count : Nat :=
  match r.tokens.back? with
  | some t => if t.isEndOfFile then r.tokens.size - 1 else r.tokens.size
  | none => 0

/-- The first token that starts at or after the offset, among the first `n`. -/
def firstFrom (n offset : Nat) : Nat :=
  bisect (fun i => decide ((r.token ⟨i⟩).start < offset)) 0 n

/-- The number of tokens that end at or before the offset, the end of the file aside. -/
def countUpTo (offset : Nat) : Nat :=
  bisect (fun i => decide ((r.token ⟨i⟩).stop ≤ offset)) 0 r.count

/-- The first token inside the range. -/
def firstInside? (range : TextRange) : Option TokenId :=
  let i := r.firstFrom r.count range.start
  if i < r.count ∧ (r.token ⟨i⟩).stop ≤ range.stop then some ⟨i⟩ else none

/-- The last token inside the range. -/
def lastInside? (range : TextRange) : Option TokenId :=
  let n := r.countUpTo range.stop
  if 0 < n ∧ range.start ≤ (r.token ⟨n - 1⟩).start then some ⟨n - 1⟩ else none

/-- The nearest token that ends at or before the offset. -/
def before? (offset : Nat) : Option TokenId :=
  let n := r.countUpTo offset
  if 0 < n then some ⟨n - 1⟩ else none

/-- The nearest token that starts at or after the offset, which may be the end of the file. -/
def after? (offset : Nat) : Option TokenId :=
  let i := r.firstFrom r.tokens.size offset
  if i < r.tokens.size then some ⟨i⟩ else none

/-- The token that covers the offset. -/
def at? (offset : Nat) : Option TokenId :=
  let i := r.countUpTo offset
  if i < r.count ∧ (r.token ⟨i⟩).start ≤ offset then some ⟨i⟩ else none

/-- The first of the next `n` tokens from `i` on that is of a kind and ends by `stop`. -/
def scanUp (kind : SyntaxKind) (stop : Nat) : Nat → Nat → Option TokenId
  | 0, _ => none
  | n + 1, i =>
    let t := r.token ⟨i⟩
    if stop < t.stop then none
    else if t.kind = kind then some ⟨i⟩
    else scanUp kind stop n (i + 1)

/-- The last of the first `n` tokens that is of a kind and starts at `start` or later. -/
def scanDown (kind : SyntaxKind) (start : Nat) : Nat → Option TokenId
  | 0 => none
  | n + 1 =>
    let t := r.token ⟨n⟩
    if t.start < start then none
    else if t.kind = kind then some ⟨n⟩
    else scanDown kind start n

/-- The first token of a kind inside the range. -/
def firstOfKind? (range : TextRange) (kind : SyntaxKind) : Option TokenId :=
  let i := r.firstFrom r.count range.start
  r.scanUp kind range.stop (r.count - i) i

/-- The last token of a kind inside the range. -/
def lastOfKind? (range : TextRange) (kind : SyntaxKind) : Option TokenId :=
  r.scanDown kind range.start (r.countUpTo range.stop)

/-- The first and the last token inside the range. -/
def span? (range : TextRange) : Option (TokenId × TokenId) := do
  let first ← r.firstInside? range
  let last ← r.lastInside? range
  if first.index ≤ last.index then some (first, last) else none

end TokenRow

end JavaAnalysis
