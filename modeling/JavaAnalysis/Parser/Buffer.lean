import JavaAnalysis.Parser.Expressions

/-!
# Parsing in place

The significant tokens of a file stand in one buffer, and a parser steps through it. Where a closing
angle bracket is taken off the front of an operator, the operator is cut in two in the buffer itself,
and a log tells of the cut. To try something, the parser takes note of where it stands; to come back,
it undoes the cuts that were made since, the latest first, and each of them by joining a token and its
neighbour again.

The productions of the grammar are written over rows of lexemes that nothing changes, where coming
back is to use an old place again. This module is how the same is done in place.
-/

set_option autoImplicit false

namespace JavaAnalysis.Parser

open Ast

/-- A token in a buffer, which holds the text. -/
structure Buffer.Tok where
  kind : TokenKind
  range : TextRange
deriving DecidableEq, Repr, Inhabited

/-- The tokens of a file and a place among them. -/
structure Buffer where
  text : String
  tokens : List Buffer.Tok
  pos : Nat
  /-- Byte offset of the end of the last token stepped over. -/
  previousStop : Nat
  /-- Where operators were cut in two, the latest cut first. -/
  cuts : List Nat
deriving DecidableEq, Repr

namespace Buffer

def Tok.ofLexeme (x : Lexeme) : Tok := ⟨x.kind, x.range⟩

/-- What it takes to come back. -/
structure Checkpoint where
  pos : Nat
  previousStop : Nat
  /-- How many cuts had been made. -/
  cuts : Nat
deriving DecidableEq, Repr

def ofLexemes (text : String) (lexemes : List Lexeme) : Buffer where
  text := text
  tokens := (lexemes.filter fun x => !x.kind.isTrivia).map Tok.ofLexeme
  pos := 0
  previousStop := 0
  cuts := []

/-- The token `n` places ahead; the last one is seen at and beyond the end. -/
def token (b : Buffer) (n : Nat) : Tok :=
  b.tokens[min (b.pos + n) (b.tokens.length - 1)]?.getD
    ⟨.endOfFile, .empty b.text.utf8ByteSize⟩

def kind (b : Buffer) (n : Nat) : TokenKind := (b.token n).kind

/-- Byte offset of the next token. -/
def start (b : Buffer) : Nat := (b.token 0).range.start

def textOf (b : Buffer) (r : TextRange) : String :=
  String.ofList ((slice? b.text.toList r).getD [])

/-- The range from `start` to the last token stepped over. -/
def rangeFrom (b : Buffer) (start : Nat) : TextRange := ⟨start, max b.previousStop start⟩

/-- The place behind the next token, unless the file ends here. -/
def advanced (b : Buffer) : Buffer :=
  let t := b.token 0
  if t.kind = .endOfFile then b
  else { b with pos := b.pos + 1, previousStop := t.range.stop }

/-- The next token cut in two behind its first character, if the rest is an operator. -/
def cut? (b : Buffer) : Option Buffer :=
  let t := b.token 0
  let middle := t.range.start + 1
  let rest : TextRange := ⟨middle, t.range.stop⟩
  (TokenKind.ofGtText? (b.textOf rest)).map fun kind =>
    let tokens := b.tokens.set b.pos ⟨.gt, ⟨t.range.start, middle⟩⟩
    { b with tokens := tokens.insertIdx (b.pos + 1) ⟨kind, rest⟩, cuts := b.pos :: b.cuts }

/-- The tokens with the one at `i` and its neighbour joined to one operator. -/
def joinAt (b : Buffer) (tokens : List Tok) (i : Nat) : List Tok :=
  match tokens[i]?, tokens[i + 1]? with
  | some first, some second =>
    let range := first.range.cover second.range
    let kind := (TokenKind.ofGtText? (b.textOf range)).getD first.kind
    (tokens.eraseIdx (i + 1)).set i ⟨kind, range⟩
  | _, _ => tokens

def checkpoint (b : Buffer) : Checkpoint := ⟨b.pos, b.previousStop, b.cuts.length⟩

/-- Comes back: undoes the cuts made since, the latest first. -/
def restore (b : Buffer) (c : Checkpoint) : Buffer :=
  let since := b.cuts.length - c.cuts
  { b with
    tokens := (b.cuts.take since).foldl b.joinAt b.tokens
    cuts := b.cuts.drop since
    pos := c.pos
    previousStop := c.previousStop }

/-- What is wrong when something else than the next token should stand here. -/
def expected (b : Buffer) (what : String) : SyntaxError :=
  let t := b.token 0
  if t.kind = .endOfFile then ⟨s!"Syntax error, insert {what} to complete the file", t.range⟩
  else ⟨s!"Syntax error on token \"{b.textOf t.range}\", {what} expected", t.range⟩

end Buffer

/-- A parser that works in place. Where it fails, the buffer stays as it is then. -/
abbrev InPlace (α : Type) := ExceptT SyntaxError (StateM Buffer) α

namespace InPlace

variable {α : Type}

def expected (what : String) : InPlace α := do throw ((← get).expected what)

/-- Steps over the next token, unless the file ends here. -/
def advance : InPlace TextRange := do
  let b ← get
  set b.advanced
  return (b.token 0).range

/-- A closing angle bracket, taken off the front of a longer operator if need be. -/
def closeAngle : InPlace TextRange := do
  let b ← get
  if b.kind 0 = .gt then advance
  else if (b.kind 0).startsWithGt then
    match b.cut? with
    | some b' =>
      set b'
      advance
    | none => expected "'>'"
  else expected "'>'"

def restore (c : Buffer.Checkpoint) : InPlace Unit := modify (·.restore c)

/-- Tries a parser and comes back if it fails. -/
def speculate (p : InPlace α) : InPlace (Option α) := do
  let c := (← get).checkpoint
  try some <$> p
  catch _ =>
    restore c
    pure none

/-- A type and then a declared name start here; the parser comes back in any case. -/
def isAtLocalVar (type : InPlace TypeRef) : InPlace Bool := do
  let b ← get
  if (PrimitiveKind.ofToken? (b.kind 0)).isSome then return b.kind 1 != .dot
  else if b.kind 0 != .ident then return false
  else
    let found ←
      try
        let _ ← type
        let t ← get
        let next := t.kind 1
        pure (t.kind 0 == .ident && (next == .eq || next == .semicolon || next == .comma ||
          next == .lBracket || next == .colon))
      catch _ => pure false
    restore b.checkpoint
    return found

/-- The type between the parentheses of a cast, if it stands in front of one. -/
def castTarget? (castType : Bool → InPlace TypeRef) : InPlace (Option TypeRef) := do
  let primitive := (PrimitiveKind.ofToken? ((← get).kind 1)).isSome
  let _ ← advance
  let type? ← try some <$> castType primitive catch _ => pure none
  let b ← get
  return type?.filter fun type => b.kind 0 == .rParen &&
    ((primitive && !type.isArray) || startsCastOperand (b.kind 1))

/-- A cast, if one starts here; if not, the parser comes back. -/
def cast? (castType : Bool → InPlace TypeRef) (operand : InPlace Expr) :
    InPlace (Option Expr) := do
  let b ← get
  match ← castTarget? castType with
  | none =>
    restore b.checkpoint
    return none
  | some type =>
    let _ ← advance
    let operand ← operand
    return some (.cast ((← get).rangeFrom b.start) type operand)

end InPlace

end JavaAnalysis.Parser
