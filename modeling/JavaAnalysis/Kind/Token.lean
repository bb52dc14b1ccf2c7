/-!
# Kinds of tokens

The lexical categories of a source text: blanks and comments (together called trivia), names,
literals, keywords, separators, operators, and the end of the file. The order of the constructors
is the order in which sets of kinds are listed.
-/

set_option autoImplicit false

namespace JavaAnalysis

inductive TokenKind where
  | whitespace
  | lineComment
  | blockComment
  | docComment
  | markdownComment
  | ident
  | intLiteral
  | longLiteral
  | floatLiteral
  | doubleLiteral
  | charLiteral
  | stringLiteral
  | textBlock
  | abstractKw
  | assertKw
  | booleanKw
  | breakKw
  | byteKw
  | caseKw
  | catchKw
  | charKw
  | classKw
  | constKw
  | continueKw
  | defaultKw
  | doKw
  | doubleKw
  | elseKw
  | enumKw
  | extendsKw
  | finalKw
  | finallyKw
  | floatKw
  | forKw
  | gotoKw
  | ifKw
  | implementsKw
  | importKw
  | instanceofKw
  | intKw
  | interfaceKw
  | longKw
  | nativeKw
  | newKw
  | packageKw
  | privateKw
  | protectedKw
  | publicKw
  | returnKw
  | shortKw
  | staticKw
  | strictfpKw
  | superKw
  | switchKw
  | synchronizedKw
  | thisKw
  | throwKw
  | throwsKw
  | transientKw
  | tryKw
  | voidKw
  | volatileKw
  | whileKw
  | underscoreKw
  | trueKw
  | falseKw
  | nullKw
  | lParen
  | rParen
  | lBrace
  | rBrace
  | lBracket
  | rBracket
  | semicolon
  | comma
  | dot
  | ellipsis
  | atSign
  | colonColon
  | eq
  | gt
  | lt
  | bang
  | tilde
  | question
  | colon
  | arrow
  | eqEq
  | ltEq
  | gtEq
  | bangEq
  | ampAmp
  | pipePipe
  | plusPlus
  | minusMinus
  | plus
  | minus
  | star
  | slash
  | amp
  | pipe
  | caret
  | percent
  | shl
  | shr
  | ushr
  | plusEq
  | minusEq
  | starEq
  | slashEq
  | ampEq
  | pipeEq
  | caretEq
  | percentEq
  | shlEq
  | shrEq
  | ushrEq
  | endOfFile
deriving DecidableEq, Repr, Inhabited

/-- The name under which dumps and messages show the kind. -/
def TokenKind.name : TokenKind → String
  | .whitespace => "WHITESPACE"
  | .lineComment => "LINE_COMMENT"
  | .blockComment => "BLOCK_COMMENT"
  | .docComment => "DOC_COMMENT"
  | .markdownComment => "MARKDOWN_DOC_COMMENT"
  | .ident => "IDENT"
  | .intLiteral => "INT_LITERAL"
  | .longLiteral => "LONG_LITERAL"
  | .floatLiteral => "FLOAT_LITERAL"
  | .doubleLiteral => "DOUBLE_LITERAL"
  | .charLiteral => "CHAR_LITERAL"
  | .stringLiteral => "STRING_LITERAL"
  | .textBlock => "TEXT_BLOCK"
  | .abstractKw => "ABSTRACT_KW"
  | .assertKw => "ASSERT_KW"
  | .booleanKw => "BOOLEAN_KW"
  | .breakKw => "BREAK_KW"
  | .byteKw => "BYTE_KW"
  | .caseKw => "CASE_KW"
  | .catchKw => "CATCH_KW"
  | .charKw => "CHAR_KW"
  | .classKw => "CLASS_KW"
  | .constKw => "CONST_KW"
  | .continueKw => "CONTINUE_KW"
  | .defaultKw => "DEFAULT_KW"
  | .doKw => "DO_KW"
  | .doubleKw => "DOUBLE_KW"
  | .elseKw => "ELSE_KW"
  | .enumKw => "ENUM_KW"
  | .extendsKw => "EXTENDS_KW"
  | .finalKw => "FINAL_KW"
  | .finallyKw => "FINALLY_KW"
  | .floatKw => "FLOAT_KW"
  | .forKw => "FOR_KW"
  | .gotoKw => "GOTO_KW"
  | .ifKw => "IF_KW"
  | .implementsKw => "IMPLEMENTS_KW"
  | .importKw => "IMPORT_KW"
  | .instanceofKw => "INSTANCEOF_KW"
  | .intKw => "INT_KW"
  | .interfaceKw => "INTERFACE_KW"
  | .longKw => "LONG_KW"
  | .nativeKw => "NATIVE_KW"
  | .newKw => "NEW_KW"
  | .packageKw => "PACKAGE_KW"
  | .privateKw => "PRIVATE_KW"
  | .protectedKw => "PROTECTED_KW"
  | .publicKw => "PUBLIC_KW"
  | .returnKw => "RETURN_KW"
  | .shortKw => "SHORT_KW"
  | .staticKw => "STATIC_KW"
  | .strictfpKw => "STRICTFP_KW"
  | .superKw => "SUPER_KW"
  | .switchKw => "SWITCH_KW"
  | .synchronizedKw => "SYNCHRONIZED_KW"
  | .thisKw => "THIS_KW"
  | .throwKw => "THROW_KW"
  | .throwsKw => "THROWS_KW"
  | .transientKw => "TRANSIENT_KW"
  | .tryKw => "TRY_KW"
  | .voidKw => "VOID_KW"
  | .volatileKw => "VOLATILE_KW"
  | .whileKw => "WHILE_KW"
  | .underscoreKw => "UNDERSCORE_KW"
  | .trueKw => "TRUE_KW"
  | .falseKw => "FALSE_KW"
  | .nullKw => "NULL_KW"
  | .lParen => "L_PAREN"
  | .rParen => "R_PAREN"
  | .lBrace => "L_BRACE"
  | .rBrace => "R_BRACE"
  | .lBracket => "L_BRACKET"
  | .rBracket => "R_BRACKET"
  | .semicolon => "SEMICOLON"
  | .comma => "COMMA"
  | .dot => "DOT"
  | .ellipsis => "ELLIPSIS"
  | .atSign => "AT"
  | .colonColon => "COLON_COLON"
  | .eq => "EQ"
  | .gt => "GT"
  | .lt => "LT"
  | .bang => "BANG"
  | .tilde => "TILDE"
  | .question => "QUESTION"
  | .colon => "COLON"
  | .arrow => "ARROW"
  | .eqEq => "EQ2"
  | .ltEq => "LT_EQ"
  | .gtEq => "GT_EQ"
  | .bangEq => "BANG_EQ"
  | .ampAmp => "AMP2"
  | .pipePipe => "PIPE2"
  | .plusPlus => "PLUS2"
  | .minusMinus => "MINUS2"
  | .plus => "PLUS"
  | .minus => "MINUS"
  | .star => "STAR"
  | .slash => "SLASH"
  | .amp => "AMP"
  | .pipe => "PIPE"
  | .caret => "CARET"
  | .percent => "PERCENT"
  | .shl => "SHL"
  | .shr => "SHR"
  | .ushr => "USHR"
  | .plusEq => "PLUS_EQ"
  | .minusEq => "MINUS_EQ"
  | .starEq => "STAR_EQ"
  | .slashEq => "SLASH_EQ"
  | .ampEq => "AMP_EQ"
  | .pipeEq => "PIPE_EQ"
  | .caretEq => "CARET_EQ"
  | .percentEq => "PERCENT_EQ"
  | .shlEq => "SHL_EQ"
  | .shrEq => "SHR_EQ"
  | .ushrEq => "USHR_EQ"
  | .endOfFile => "EOF"

/-- All kinds of tokens in order. -/
def TokenKind.all : List TokenKind := [
  .whitespace, .lineComment, .blockComment, .docComment, .markdownComment, .ident, .intLiteral,
  .longLiteral, .floatLiteral, .doubleLiteral, .charLiteral, .stringLiteral, .textBlock,
  .abstractKw, .assertKw, .booleanKw, .breakKw, .byteKw, .caseKw, .catchKw, .charKw, .classKw,
  .constKw, .continueKw, .defaultKw, .doKw, .doubleKw, .elseKw, .enumKw, .extendsKw, .finalKw,
  .finallyKw, .floatKw, .forKw, .gotoKw, .ifKw, .implementsKw, .importKw, .instanceofKw, .intKw,
  .interfaceKw, .longKw, .nativeKw, .newKw, .packageKw, .privateKw, .protectedKw, .publicKw,
  .returnKw, .shortKw, .staticKw, .strictfpKw, .superKw, .switchKw, .synchronizedKw, .thisKw,
  .throwKw, .throwsKw, .transientKw, .tryKw, .voidKw, .volatileKw, .whileKw, .underscoreKw,
  .trueKw, .falseKw, .nullKw, .lParen, .rParen, .lBrace, .rBrace, .lBracket, .rBracket,
  .semicolon, .comma, .dot, .ellipsis, .atSign, .colonColon, .eq, .gt, .lt, .bang, .tilde,
  .question, .colon, .arrow, .eqEq, .ltEq, .gtEq, .bangEq, .ampAmp, .pipePipe, .plusPlus,
  .minusMinus, .plus, .minus, .star, .slash, .amp, .pipe, .caret, .percent, .shl, .shr, .ushr,
  .plusEq, .minusEq, .starEq, .slashEq, .ampEq, .pipeEq, .caretEq, .percentEq, .shlEq, .shrEq,
  .ushrEq, .endOfFile]

namespace TokenKind

/-- Blanks and comments, which the grammar does not see. -/
def isTrivia : TokenKind → Bool
  | .whitespace | .lineComment | .blockComment | .docComment | .markdownComment => true
  | _ => false

def isComment (k : TokenKind) : Bool := k.isTrivia && k != .whitespace

/-- Reserved words, the three word literals included. -/
def isKeyword (k : TokenKind) : Bool :=
  decide (abstractKw.ctorIdx ≤ k.ctorIdx) && decide (k.ctorIdx ≤ nullKw.ctorIdx)

def isLiteral : TokenKind → Bool
  | .intLiteral | .longLiteral | .floatLiteral | .doubleLiteral | .charLiteral | .stringLiteral
  | .textBlock | .trueKw | .falseKw | .nullKw => true
  | _ => false

/-- Operators whose first character can close a type argument list. -/
def startsWithGt : TokenKind → Bool
  | .gt | .gtEq | .shr | .ushr | .shrEq | .ushrEq => true
  | _ => false

/-- The kind of an operator made of `>` and `=` only, as it is left over when a `>` is cut off. -/
def ofGtText? (text : String) : Option TokenKind :=
  if text = ">" then some .gt
  else if text = ">=" then some .gtEq
  else if text = ">>" then some .shr
  else if text = ">>=" then some .shrEq
  else if text = ">>>" then some .ushr
  else if text = ">>>=" then some .ushrEq
  else if text = "=" then some .eq
  else none

end TokenKind

end JavaAnalysis
