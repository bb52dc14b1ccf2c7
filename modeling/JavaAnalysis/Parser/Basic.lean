import JavaAnalysis.Ast.Basic
import JavaAnalysis.Level
import JavaAnalysis.Lexeme

/-!
# Parsers over lexemes

A parser is a function on a place in the row of significant lexemes of a file. It may look ahead,
step forward, and fail with a message; to try something and come back is to use the old place
again. A closing angle bracket is taken off the front of a longer operator such as `>>`, which
leaves the rest of that operator in front.
-/

set_option autoImplicit false

namespace JavaAnalysis

structure SyntaxError where
  message : String
  range : TextRange
deriving DecidableEq, Repr, Inhabited

namespace Parser

/-- A place in the row of significant lexemes of a file. -/
structure State where
  level : LanguageLevel
  /-- What lies ahead. -/
  rest : List Lexeme
  /-- What has been stepped over, the latest first. -/
  consumed : List Lexeme
  /-- The lexeme that is seen at and beyond the end. -/
  final : Lexeme
  /-- No repetition takes more steps than this; it exceeds the number of characters to read. -/
  budget : Nat
deriving Inhabited

namespace State

/-- The start of a file with the given lexemes, of which only the significant ones count. -/
def ofLexemes (level : LanguageLevel) (lexemes : List Lexeme) : State :=
  let significant := lexemes.filter fun x => !x.kind.isTrivia
  let final := significant.getLast?.getD (.endOfFile 0 .start)
  let bytes := (significant.map fun x => x.text.utf8ByteSize).foldr (· + ·) 0
  { level, rest := significant, consumed := [], final, budget := bytes + 1 }

/-- The lexeme `n` places ahead. -/
def lexeme (s : State) (n : Nat) : Lexeme := s.rest[n]?.getD s.final

def kind (s : State) (n : Nat) : TokenKind := (s.lexeme n).kind

/-- Byte offset of the next lexeme. -/
def start (s : State) : Nat := (s.lexeme 0).start

/-- Byte offset of the end of the last lexeme stepped over. -/
def previousStop (s : State) : Nat :=
  match s.consumed with
  | x :: _ => x.stop
  | [] => 0

/-- The range from `start` to the last lexeme stepped over. -/
def rangeFrom (s : State) (start : Nat) : TextRange := ⟨start, max s.previousStop start⟩

/-- The lexeme `n` places ahead is the given word, which is no keyword everywhere. -/
def isWord (s : State) (n : Nat) (word : String) : Bool :=
  s.kind n == .ident && (s.lexeme n).text == word

/-- All lexemes of the file, with operators cut where a closing angle bracket was taken off. -/
def lexemes (s : State) : List Lexeme := s.consumed.reverse ++ s.rest

end State

end Parser

/-- A parser reads from a place and moves on, or fails. -/
abbrev Parser (α : Type) := StateT Parser.State (Except SyntaxError) α

namespace Parser

def kindAt (n : Nat) : Parser TokenKind := return (← get).kind n

def isAt (kind : TokenKind) : Parser Bool := return (← get).kind 0 == kind

def startHere : Parser Nat := return (← get).start

def rangeFrom (start : Nat) : Parser TextRange := return (← get).rangeFrom start

def supports (feature : Feature) : Parser Bool := return (← get).level.supports feature

/-- Fails at the next lexeme. -/
def fail {α : Type} (message : String) : Parser α := do
  throw ⟨message, ((← get).lexeme 0).range⟩

/-- Fails because something else than the next lexeme should stand here. -/
def expected {α : Type} (what : String) : Parser α := do
  let x := (← get).lexeme 0
  if x.kind = .endOfFile then fail s!"Syntax error, insert {what} to complete the file"
  else fail s!"Syntax error on token \"{x.text}\", {what} expected"

/-- Steps over the next lexeme, unless the file ends here. -/
def advance : Parser TextRange := do
  let s ← get
  match s.rest with
  | x :: xs =>
    if x.kind ≠ .endOfFile then set { s with rest := xs, consumed := x :: s.consumed }
    return x.range
  | [] => return s.final.range

/-- Steps over the next lexeme if it is of the given kind. -/
def eat (kind : TokenKind) : Parser Bool := do
  if ← isAt kind then
    let _ ← advance
    return true
  else return false

/-- How a message names a kind of token that is missing. -/
def describe : TokenKind → String
  | .ident => "identifier"
  | .lParen => "\"(\""
  | .rParen => "\")\""
  | .lBrace => "\"\x7b\""
  | .rBrace => "\"\x7d\""
  | .lBracket => "\"[\""
  | .rBracket => "\"]\""
  | .semicolon => "\";\""
  | .comma => "\",\""
  | .dot => "\".\""
  | .colon => "\":\""
  | .arrow => "\"->\""
  | .eq => "\"=\""
  | .lt => "\"<\""
  | .gt => "\">\""
  | .whileKw => "\"while\""
  | .catchKw => "\"catch\""
  | .classKw => "\"class\""
  | .interfaceKw => "\"interface\""
  | _ => "token"

/-- Steps over a lexeme that must be of the given kind. -/
def expect (kind : TokenKind) : Parser TextRange := do
  if ← isAt kind then advance else expected (describe kind)

/-- The next lexeme as a name, whatever its kind. -/
def word : Parser Ast.Ident := do
  let text := ((← get).lexeme 0).text
  return ⟨← advance, text⟩

/-- A name. -/
def ident : Parser Ast.Ident := do
  if ← isAt .ident then word else expected "identifier"

/-- A closing angle bracket, taken off the front of a longer operator if need be. -/
def closeAngle : Parser Unit := do
  let s ← get
  let x := s.lexeme 0
  if x.kind = .gt then
    let _ ← advance
  else match x.afterGt? with
    | some y => set { s with rest := y :: s.rest.drop 1, consumed := x.headGt :: s.consumed }
    | none => expected "'>'"

/-- Tries a parser and stays here if it fails. -/
def attempt {α : Type} (p : Parser α) : Parser (Option α) := fun s =>
  match p s with
  | .ok (x, s') => .ok (some x, s')
  | .error _ => .ok (none, s)

/-- The parser that stands where a repetition or a nesting has used up its bound. -/
def exhausted {α : Type} : Parser α := fail "Syntax error, the file is nested too deeply"

/-- Repeats a parser as long as the place ahead asks for more, at most `n` times. -/
def repeatWhile {α : Type} (more : State → Bool) (item : Parser α) : Nat → Parser (List α)
  | 0 => exhausted
  | n + 1 => do
    if more (← get) then
      let x ← item
      return x :: (← repeatWhile more item n)
    else return []

/-- Items as long as the place ahead asks for more. -/
def many {α : Type} (more : State → Bool) (item : Parser α) : Parser (List α) := do
  repeatWhile more item (← get).budget

/-- One item, then further items as long as a separator follows, at most `n` in all. -/
def separatedUpTo {α : Type} (separator : TokenKind) (item : Parser α) : Nat → Parser (List α)
  | 0 => exhausted
  | n + 1 => do
    let x ← item
    if ← eat separator then return x :: (← separatedUpTo separator item n) else return [x]

/-- One or more items between separators. -/
def separated {α : Type} (separator : TokenKind) (item : Parser α) : Parser (List α) := do
  separatedUpTo separator item (← get).budget

/-- Items with separators between them and perhaps one behind the last, at most `n` in all. -/
def terminatedUpTo {α : Type} (separator : TokenKind) (stop : State → Bool) (item : Parser α) :
    Nat → Parser (List α)
  | 0 => exhausted
  | n + 1 => do
    if stop (← get) then return []
    else
      let x ← item
      if ← eat separator then return x :: (← terminatedUpTo separator stop item n) else return [x]

/-- Items with separators between them and perhaps one behind the last, up to a place to stop. -/
def terminated {α : Type} (separator : TokenKind) (stop : State → Bool) (item : Parser α) :
    Parser (List α) := do
  terminatedUpTo separator stop item (← get).budget

/-- Pairs of brackets without anything between them, at most `n`. -/
def bracketsUpTo : Nat → Parser (List TextRange)
  | 0 => return []
  | n + 1 => do
    let s ← get
    if s.kind 0 == .lBracket && s.kind 1 == .rBracket then
      let first ← advance
      let last ← advance
      return first.cover last :: (← bracketsUpTo n)
    else return []

/-- Pairs of brackets without anything between them. -/
def brackets : Parser (List TextRange) := do bracketsUpTo (← get).budget

end Parser

end JavaAnalysis
