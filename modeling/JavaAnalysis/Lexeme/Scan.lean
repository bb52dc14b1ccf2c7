import JavaAnalysis.Level
import JavaAnalysis.Lexeme
import JavaAnalysis.Text.Identifier

/-!
# Cutting a text into lexemes

`Lexeme.next` says how far the lexeme reaches that starts with a given character, and
`Lexeme.scan` cuts a whole text. At each place the longest operator wins, comments win over
operators, and a number may start with a decimal point.
-/

set_option autoImplicit false

namespace JavaAnalysis

namespace Lexeme

def isBlank (c : Char) : Bool :=
  c == ' ' || c == '\t' || c == '\n' || c == '\r' || c == '\x0c'

def isLineEnd (c : Char) : Bool := c == '\n' || c == '\r'

/-- How many characters from the front satisfy `p`. -/
def countWhile (p : Char → Bool) (cs : List Char) : Nat := (cs.takeWhile p).length

/-- Length of a comment from behind its `/*` up to and with its `*/`. -/
def blockCommentLength? : List Char → Option Nat
  | [] => none
  | '*' :: '/' :: _ => some 2
  | _ :: cs => (blockCommentLength? cs).map (· + 1)

/--
Length of a quoted literal from behind its opening quote up to and with the closing one. It ends on
its line, and a backslash takes the next character with it.
-/
def quotedLength? (quote : Char) : List Char → Option Nat
  | [] => none
  | '\\' :: [] => none
  | '\\' :: c :: cs => if isLineEnd c then none else (quotedLength? quote cs).map (· + 2)
  | c :: cs =>
    if isLineEnd c then none
    else if c = quote then some 1
    else (quotedLength? quote cs).map (· + 1)

/-- Length of a text block from behind its opening quotes up to and with the closing ones. -/
def textBlockLength? : List Char → Option Nat
  | [] => none
  | '\\' :: [] => none
  | '\\' :: _ :: cs => (textBlockLength? cs).map (· + 2)
  | '"' :: '"' :: '"' :: _ => some 3
  | _ :: cs => (textBlockLength? cs).map (· + 1)

/-- Reserved words with the level from which they are reserved. -/
def keywords : List (String × TokenKind × Option Feature) := [
  ("abstract", .abstractKw, none), ("assert", .assertKw, some .assertKeyword),
  ("boolean", .booleanKw, none), ("break", .breakKw, none), ("byte", .byteKw, none),
  ("case", .caseKw, none), ("catch", .catchKw, none), ("char", .charKw, none),
  ("class", .classKw, none), ("const", .constKw, none), ("continue", .continueKw, none),
  ("default", .defaultKw, none), ("do", .doKw, none), ("double", .doubleKw, none),
  ("else", .elseKw, none), ("enum", .enumKw, some .enumKeyword), ("extends", .extendsKw, none),
  ("final", .finalKw, none), ("finally", .finallyKw, none), ("float", .floatKw, none),
  ("for", .forKw, none), ("goto", .gotoKw, none), ("if", .ifKw, none),
  ("implements", .implementsKw, none), ("import", .importKw, none),
  ("instanceof", .instanceofKw, none), ("int", .intKw, none), ("interface", .interfaceKw, none),
  ("long", .longKw, none), ("native", .nativeKw, none), ("new", .newKw, none),
  ("package", .packageKw, none), ("private", .privateKw, none), ("protected", .protectedKw, none),
  ("public", .publicKw, none), ("return", .returnKw, none), ("short", .shortKw, none),
  ("static", .staticKw, none), ("strictfp", .strictfpKw, none), ("super", .superKw, none),
  ("switch", .switchKw, none), ("synchronized", .synchronizedKw, none), ("this", .thisKw, none),
  ("throw", .throwKw, none), ("throws", .throwsKw, none), ("transient", .transientKw, none),
  ("try", .tryKw, none), ("void", .voidKw, none), ("volatile", .volatileKw, none),
  ("while", .whileKw, none), ("_", .underscoreKw, some .underscoreKeyword),
  ("true", .trueKw, none), ("false", .falseKw, none), ("null", .nullKw, none)]

/-- The kind of a word: a keyword of the level or a name. -/
def wordKind (level : LanguageLevel) (word : String) : TokenKind :=
  match keywords.find? fun entry => entry.1 == word with
  | some (_, kind, none) => kind
  | some (_, kind, some feature) => if level.supports feature then kind else .ident
  | none => .ident

/-- Separators and operators, longer ones first. -/
def operators : List (List Char × TokenKind) := [
  (['>', '>', '>', '='], .ushrEq),
  (['>', '>', '>'], .ushr), (['>', '>', '='], .shrEq), (['<', '<', '='], .shlEq),
  (['.', '.', '.'], .ellipsis),
  ([':', ':'], .colonColon), (['=', '='], .eqEq), (['!', '='], .bangEq), (['<', '<'], .shl),
  (['<', '='], .ltEq), (['>', '>'], .shr), (['>', '='], .gtEq), (['&', '&'], .ampAmp),
  (['&', '='], .ampEq), (['|', '|'], .pipePipe), (['|', '='], .pipeEq), (['+', '+'], .plusPlus),
  (['+', '='], .plusEq), (['-', '-'], .minusMinus), (['-', '='], .minusEq), (['-', '>'], .arrow),
  (['*', '='], .starEq), (['/', '='], .slashEq), (['^', '='], .caretEq), (['%', '='], .percentEq),
  (['('], .lParen), ([')'], .rParen), (['{'], .lBrace), (['}'], .rBrace), (['['], .lBracket),
  ([']'], .rBracket), ([';'], .semicolon), ([','], .comma), (['@'], .atSign), (['~'], .tilde),
  (['?'], .question), (['.'], .dot), ([':'], .colon), (['='], .eq), (['!'], .bang), (['<'], .lt),
  (['>'], .gt), (['&'], .amp), (['|'], .pipe), (['+'], .plus), (['-'], .minus), (['*'], .star),
  (['/'], .slash), (['^'], .caret), (['%'], .percent)]

/-- The longest operator at the front of a text. -/
def operatorAt? (cs : List Char) : Option (List Char × TokenKind) :=
  operators.find? fun entry => entry.1.isPrefixOf cs

def isDigitPart (c : Char) : Bool := c.isDigit || c == '_'

def isHexDigitPart (c : Char) : Bool :=
  isDigitPart c || (decide ('a' ≤ c) && decide (c ≤ 'f')) || (decide ('A' ≤ c) && decide (c ≤ 'F'))

/-- Length of an exponent, or zero if `marker` does not introduce one here. -/
def exponentLength (marker : Char) : List Char → Nat
  | [] => 0
  | c :: cs =>
    if c.toLower = marker then
      match cs with
      | '+' :: ds => 2 + countWhile isDigitPart ds
      | '-' :: ds => 2 + countWhile isDigitPart ds
      | ds => 1 + countWhile isDigitPart ds
    else 0

/-- Kind and length of what may follow the digits of an integer literal. -/
def intSuffix : List Char → TokenKind × Nat
  | 'l' :: _ => (.longLiteral, 1)
  | 'L' :: _ => (.longLiteral, 1)
  | _ => (.intLiteral, 0)

/-- Kind and length of what may follow the digits of a floating-point literal. -/
def floatSuffix : List Char → TokenKind × Nat
  | 'f' :: _ => (.floatLiteral, 1)
  | 'F' :: _ => (.floatLiteral, 1)
  | 'd' :: _ => (.doubleLiteral, 1)
  | 'D' :: _ => (.doubleLiteral, 1)
  | _ => (.doubleLiteral, 0)

/-- Adds the suffix that follows the first `n` characters to a number of that length. -/
def endNumber (floating : Bool) (n : Nat) (cs : List Char) : TokenKind × Nat :=
  let (kind, suffix) := if floating then floatSuffix (cs.drop n) else intSuffix (cs.drop n)
  (kind, n + suffix)

/-- Kind and length of a number behind its leading decimal point. -/
def fraction (cs : List Char) : TokenKind × Nat :=
  let n := countWhile isDigitPart cs
  endNumber true (n + exponentLength 'e' (cs.drop n)) cs

/-- Kind and length of a hexadecimal number behind its `0x`. -/
def hexNumber (cs : List Char) : TokenKind × Nat :=
  let n := countWhile isHexDigitPart cs
  let (n, pointed) := match cs.drop n with
    | '.' :: ds => (n + 1 + countWhile isHexDigitPart ds, true)
    | _ => (n, false)
  let e := exponentLength 'p' (cs.drop n)
  endNumber (pointed || e != 0) (n + e) cs

/-- Kind and length of a decimal number behind its first digit. -/
def decimalNumber (cs : List Char) : TokenKind × Nat :=
  let n := countWhile isDigitPart cs
  let (n, pointed) := match cs.drop n with
    | '.' :: '.' :: _ => (n, false)
    | '.' :: ds => (n + 1 + countWhile isDigitPart ds, true)
    | _ => (n, false)
  let e := exponentLength 'e' (cs.drop n)
  let suffixed := match cs.drop (n + e) with
    | c :: _ => c == 'f' || c == 'F' || c == 'd' || c == 'D'
    | [] => false
  endNumber (pointed || e != 0 || suffixed) (n + e) cs

/-- Kind and length of a number behind its first digit. -/
def number (first : Char) (cs : List Char) : TokenKind × Nat :=
  if first = '0' then
    match cs with
    | 'x' :: ds => let (kind, n) := hexNumber ds; (kind, n + 1)
    | 'X' :: ds => let (kind, n) := hexNumber ds; (kind, n + 1)
    | 'b' :: ds => endNumber false (1 + countWhile isDigitPart ds) cs
    | 'B' :: ds => endNumber false (1 + countWhile isDigitPart ds) cs
    | _ => decimalNumber cs
  else decimalNumber cs

/-- A comment that starts with a slash, if one does here. -/
def comment? (level : LanguageLevel) : List Char → Option (Except LexFault (TokenKind × Nat))
  | '/' :: cs =>
    let kind := match cs with
      | '/' :: _ => if level.supports .markdownDocComments then .markdownComment else .lineComment
      | _ => .lineComment
    some (.ok (kind, 1 + countWhile (fun c => !isLineEnd c) cs))
  | '*' :: cs =>
    let kind := match cs with
      | '*' :: '/' :: _ => .blockComment
      | '*' :: _ => .docComment
      | _ => .blockComment
    some <| match blockCommentLength? cs with
      | some n => .ok (kind, 1 + n)
      | none => .error .unterminatedBlockComment
  | _ => none

/-- A string literal or text block behind its first quote. -/
def string (level : LanguageLevel) (cs : List Char) : Except LexFault (TokenKind × Nat) :=
  let line := match quotedLength? '"' cs with
    | some n => .ok (.stringLiteral, n)
    | none => .error .unterminatedString
  match cs with
  | '"' :: '"' :: rest =>
    if level.supports .textBlocks then
      match textBlockLength? rest with
      | some n => .ok (.textBlock, n + 2)
      | none => .error .unterminatedTextBlock
    else line
  | _ => line

/-- A separator, operator or word that starts with `c`. -/
def operatorOrWord (level : LanguageLevel) (c : Char) (cs : List Char) :
    Except LexFault (TokenKind × Nat) :=
  match operatorAt? (c :: cs) with
  | some (operator, kind) => .ok (kind, operator.length - 1)
  | none =>
    if isIdentifierStart c then
      let n := countWhile isIdentifierPart cs
      .ok (wordKind level (String.ofList (c :: cs.take n)), n)
    else .error (.unexpectedCharacter c)

/--
The kind of the lexeme that starts with `c`, and how many of the characters `cs` behind `c` belong
to it.
-/
def next (level : LanguageLevel) (c : Char) (cs : List Char) :
    Except LexFault (TokenKind × Nat) :=
  if isBlank c then .ok (.whitespace, countWhile isBlank cs)
  else if c.isDigit then .ok (number c cs)
  else match c with
    | '/' => (comment? level cs).getD (operatorOrWord level c cs)
    | '.' =>
      match cs with
      | d :: _ => if d.isDigit then .ok (fraction cs) else operatorOrWord level c cs
      | [] => operatorOrWord level c cs
    | '\'' =>
      match quotedLength? '\'' cs with
      | some n => .ok (.charLiteral, n)
      | none => .error .unterminatedChar
    | '"' => string level cs
    | _ => operatorOrWord level c cs

/-- The lexemes of the rest of a text that starts at the given place. -/
def scanFrom (level : LanguageLevel) (start : Nat) (position : Position) (cs : List Char) :
    Except LexError (List Lexeme) :=
  match cs with
  | [] => .ok [endOfFile start position]
  | c :: cs =>
    match next level c cs with
    | .error fault => .error ⟨fault, start, position⟩
    | .ok (kind, n) =>
      let text := c :: cs.take n
      let lexeme := ⟨kind, String.ofList text, start, position⟩
      let rest := scanFrom level (start + utf8Length text) (position.advance text) (cs.drop n)
      rest.map (lexeme :: ·)
termination_by cs.length
decreasing_by simp only [List.length_drop, List.length_cons]; omega

/-- The lexemes of a text at a language level. -/
def scan (level : LanguageLevel) (text : String) : Except LexError (List Lexeme) :=
  scanFrom level 0 .start text.toList

end Lexeme

end JavaAnalysis
