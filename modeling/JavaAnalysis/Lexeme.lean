import JavaAnalysis.Kind.Token
import JavaAnalysis.Text.Quoted
import JavaAnalysis.Text.Range

/-!
# Lexemes

A lexeme is a piece of source text with its kind and its place. The lexemes of a text, blanks and
comments included, follow each other without gaps and end with an empty end-of-file lexeme.
-/

set_option autoImplicit false

namespace JavaAnalysis

structure Lexeme where
  kind : TokenKind
  text : String
  /-- Byte offset of the first character. -/
  start : Nat
  position : Position
deriving DecidableEq, Repr, Inhabited

namespace Lexeme

/-- Byte offset just past the last character. -/
def stop (x : Lexeme) : Nat := x.start + x.text.utf8ByteSize

def range (x : Lexeme) : TextRange := ⟨x.start, x.stop⟩

/-- The empty lexeme at the end of a text. -/
def endOfFile (start : Nat) (position : Position) : Lexeme := ⟨.endOfFile, "", start, position⟩

/-- The kind and the text that are left of an operator when its first `>` is cut off. -/
def afterGt? (x : Lexeme) : Option Lexeme :=
  if x.kind.startsWithGt then
    let rest := String.ofList (x.text.toList.drop 1)
    (TokenKind.ofGtText? rest).map fun kind =>
      { kind, text := rest, start := x.start + 1, position := x.position.nextColumn }
  else none

/-- The `>` at the head of an operator. -/
def headGt (x : Lexeme) : Lexeme := { x with kind := .gt, text := ">" }

end Lexeme

/-- What keeps a text from being cut into lexemes. -/
inductive LexFault where
  | unterminatedBlockComment
  | unterminatedString
  | unterminatedChar
  | unterminatedTextBlock
  | unexpectedCharacter (c : Char)
deriving DecidableEq, Repr, Inhabited

/-- A fault and where the lexeme starts that has it. -/
structure LexError where
  fault : LexFault
  offset : Nat
  position : Position
deriving DecidableEq, Repr, Inhabited

/-! ## Reports of lexical errors -/

def LexFault.message : LexFault → String
  | .unterminatedBlockComment => "unterminated block comment"
  | .unterminatedString => "unterminated string literal"
  | .unterminatedChar => "unterminated character literal"
  | .unterminatedTextBlock => "unterminated text block"
  | .unexpectedCharacter c => "unexpected character " ++ Quoted.ofChar c

def LexError.message (e : LexError) : String := e.fault.message ++ " at " ++ e.position.render

end JavaAnalysis
