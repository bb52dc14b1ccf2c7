import JavaAnalysis.Kind.Token
import JavaAnalysis.Text.Range

/-!
# Words, operators and types of the abstract syntax

The leaves of the abstract syntax tree: names with their place, modifier words, kinds of types,
literals and operators, and the tokens that stand for them. A type reference keeps the place of each
of its parts; its normalized spelling, as in `Map<String, int[]>`, is what messages and symbol
tables show.
-/

set_option autoImplicit false

namespace JavaAnalysis.Ast

/-- A name where it is written. -/
structure Ident where
  range : TextRange
  text : String
deriving DecidableEq, Repr, Inhabited

/-- Names joined by dots. -/
structure QualifiedName where
  range : TextRange
  segments : List Ident
deriving DecidableEq, Repr, Inhabited

namespace QualifiedName

def last? (name : QualifiedName) : Option Ident := name.segments.getLast?

/-- The spelling without blanks. -/
def toDotted (name : QualifiedName) : String :=
  String.intercalate "." (name.segments.map (·.text))

end QualifiedName

inductive ModifierWord where
  | «public»
  | «protected»
  | «private»
  | static
  | abstract
  | final
  | native
  | synchronized
  | transient
  | volatile
  | strictfp
  | default
  | sealed
  | nonSealed
deriving DecidableEq, Repr, Inhabited

/-- Modifiers that are reserved words; `sealed` and `non-sealed` are known by their context. -/
def ModifierWord.ofToken? : TokenKind → Option ModifierWord
  | .publicKw => some .public
  | .protectedKw => some .protected
  | .privateKw => some .private
  | .staticKw => some .static
  | .abstractKw => some .abstract
  | .finalKw => some .final
  | .nativeKw => some .native
  | .synchronizedKw => some .synchronized
  | .transientKw => some .transient
  | .volatileKw => some .volatile
  | .strictfpKw => some .strictfp
  | .defaultKw => some .default
  | _ => none

/-- What a type declaration declares. -/
inductive TypeDeclKind where
  | classType
  | interfaceType
  | annotationType
  | enumType
  | recordType
deriving DecidableEq, Repr, Inhabited

inductive PrimitiveKind where
  | boolean
  | byte
  | short
  | int
  | long
  | char
  | float
  | double
  | void
deriving DecidableEq, Repr, Inhabited

namespace PrimitiveKind

def ofToken? : TokenKind → Option PrimitiveKind
  | .booleanKw => some .boolean
  | .byteKw => some .byte
  | .shortKw => some .short
  | .intKw => some .int
  | .longKw => some .long
  | .charKw => some .char
  | .floatKw => some .float
  | .doubleKw => some .double
  | .voidKw => some .void
  | _ => none

def token : PrimitiveKind → TokenKind
  | boolean => .booleanKw
  | byte => .byteKw
  | short => .shortKw
  | int => .intKw
  | long => .longKw
  | char => .charKw
  | float => .floatKw
  | double => .doubleKw
  | void => .voidKw

def name : PrimitiveKind → String
  | boolean => "boolean"
  | byte => "byte"
  | short => "short"
  | int => "int"
  | long => "long"
  | char => "char"
  | float => "float"
  | double => "double"
  | void => "void"

end PrimitiveKind

/-- Whether a wildcard is bounded from above or from below. -/
inductive BoundKind where
  | upper
  | lower
deriving DecidableEq, Repr, Inhabited

inductive LiteralKind where
  | int
  | long
  | float
  | double
  | char
  | string
  | textBlock
  | true
  | false
  | null
deriving DecidableEq, Repr, Inhabited

def LiteralKind.ofToken? : TokenKind → Option LiteralKind
  | .intLiteral => some .int
  | .longLiteral => some .long
  | .floatLiteral => some .float
  | .doubleLiteral => some .double
  | .charLiteral => some .char
  | .stringLiteral => some .string
  | .textBlock => some .textBlock
  | .trueKw => some .true
  | .falseKw => some .false
  | .nullKw => some .null
  | _ => none

inductive UnaryOp where
  | plus
  | minus
  | not
  | bitNot
  | preInc
  | preDec
  | postInc
  | postDec
deriving DecidableEq, Repr, Inhabited

namespace UnaryOp

/-- The operators that are written before their operand. -/
def ofToken? : TokenKind → Option UnaryOp
  | .plus => some .plus
  | .minus => some .minus
  | .bang => some .not
  | .tilde => some .bitNot
  | .plusPlus => some .preInc
  | .minusMinus => some .preDec
  | _ => none

def isPostfix : UnaryOp → Bool
  | postInc | postDec => true
  | _ => false

def token : UnaryOp → TokenKind
  | plus => .plus
  | minus => .minus
  | not => .bang
  | bitNot => .tilde
  | preInc | postInc => .plusPlus
  | preDec | postDec => .minusMinus

end UnaryOp

inductive BinaryOp where
  | or
  | and
  | bitOr
  | bitXor
  | bitAnd
  | eq
  | ne
  | lt
  | gt
  | le
  | ge
  | shl
  | shr
  | ushr
  | add
  | sub
  | mul
  | div
  | rem
deriving DecidableEq, Repr, Inhabited

namespace BinaryOp

def ofToken? : TokenKind → Option BinaryOp
  | .pipePipe => some .or
  | .ampAmp => some .and
  | .pipe => some .bitOr
  | .caret => some .bitXor
  | .amp => some .bitAnd
  | .eqEq => some .eq
  | .bangEq => some .ne
  | .lt => some .lt
  | .gt => some .gt
  | .ltEq => some .le
  | .gtEq => some .ge
  | .shl => some .shl
  | .shr => some .shr
  | .ushr => some .ushr
  | .plus => some .add
  | .minus => some .sub
  | .star => some .mul
  | .slash => some .div
  | .percent => some .rem
  | _ => none

def token : BinaryOp → TokenKind
  | or => .pipePipe
  | and => .ampAmp
  | bitOr => .pipe
  | bitXor => .caret
  | bitAnd => .amp
  | eq => .eqEq
  | ne => .bangEq
  | lt => .lt
  | gt => .gt
  | le => .ltEq
  | ge => .gtEq
  | shl => .shl
  | shr => .shr
  | ushr => .ushr
  | add => .plus
  | sub => .minus
  | mul => .star
  | div => .slash
  | rem => .percent

/-- How tightly the operator binds; the tightest has the highest number. -/
def precedence : BinaryOp → Nat
  | or => 1
  | and => 2
  | bitOr => 3
  | bitXor => 4
  | bitAnd => 5
  | eq | ne => 6
  | lt | gt | le | ge => 7
  | shl | shr | ushr => 8
  | add | sub => 9
  | mul | div | rem => 10

end BinaryOp

inductive AssignOp where
  | assign
  | add
  | sub
  | mul
  | div
  | rem
  | bitAnd
  | bitOr
  | bitXor
  | shl
  | shr
  | ushr
deriving DecidableEq, Repr, Inhabited

namespace AssignOp

def ofToken? : TokenKind → Option AssignOp
  | .eq => some .assign
  | .plusEq => some .add
  | .minusEq => some .sub
  | .starEq => some .mul
  | .slashEq => some .div
  | .percentEq => some .rem
  | .ampEq => some .bitAnd
  | .pipeEq => some .bitOr
  | .caretEq => some .bitXor
  | .shlEq => some .shl
  | .shrEq => some .shr
  | .ushrEq => some .ushr
  | _ => none

def token : AssignOp → TokenKind
  | assign => .eq
  | add => .plusEq
  | sub => .minusEq
  | mul => .starEq
  | div => .slashEq
  | rem => .percentEq
  | bitAnd => .ampEq
  | bitOr => .pipeEq
  | bitXor => .caretEq
  | shl => .shlEq
  | shr => .shrEq
  | ushr => .ushrEq

end AssignOp

/-! ## Types as they are written -/

inductive TypeRef where
  | primitive (range : TextRange) (kind : PrimitiveKind)
  /-- The word `var` in the place of the type of a local variable. -/
  | inferred (range : TextRange)
  /--
  A named type. The qualifier is an outer type or a package; the range of the type arguments
  includes their angle brackets.
  -/
  | named (range : TextRange) (qualifier : Option TypeRef) (name : Ident)
      (argsRange : Option TextRange) (args : List TypeRef)
  /-- An array type by its element type and the range of its pair of brackets. -/
  | array (range : TextRange) (element : TypeRef) (brackets : TextRange)
  | wildcard (range : TextRange)
  | bounded (range : TextRange) (kind : BoundKind) (bound : TypeRef)
  /-- The alternatives of a catch clause. -/
  | union (range : TextRange) (alternatives : List TypeRef)
  /-- The target of a cast to several types at once. -/
  | intersection (range : TextRange) (bounds : List TypeRef)
deriving Inhabited

namespace TypeRef

def range : TypeRef → TextRange
  | primitive r _ | inferred r | named r _ _ _ _ | array r _ _ | wildcard r | bounded r _ _
  | union r _ | intersection r _ => r

/-- What an array of arrays is made of; a type that is no array itself. -/
def base : TypeRef → TypeRef
  | array _ element _ => element.base
  | t => t

def isArray : TypeRef → Bool
  | array .. => true
  | _ => false

mutual

/-- The normalized spelling of a type. -/
def display : TypeRef → String
  | primitive _ kind => kind.name
  | inferred _ => "var"
  | named _ qualifier name argsRange args =>
    let outer := match qualifier with
      | none => ""
      | some q => q.display ++ "."
    let inner := if argsRange.isSome then "<" ++ ", ".intercalate (displayAll args) ++ ">" else ""
    outer ++ name.text ++ inner
  | array _ element _ => element.display ++ "[]"
  | wildcard _ => "?"
  | bounded _ .upper bound => "? extends " ++ bound.display
  | bounded _ .lower bound => "? super " ++ bound.display
  | union _ alternatives => " | ".intercalate (displayAll alternatives)
  | intersection _ bounds => " & ".intercalate (displayAll bounds)

def displayAll : List TypeRef → List String
  | [] => []
  | t :: ts => t.display :: displayAll ts

end

/-- The dotted name of a type without its type arguments. -/
def erased : TypeRef → String
  | named _ (some q) name _ _ => q.erased ++ "." ++ name.text
  | named _ none name _ _ => name.text
  | t => t.display

/-- A name with `n` pairs of brackets behind it. -/
def withBrackets (name : String) (n : Nat) : String :=
  name ++ String.join (List.replicate n "[]")

end TypeRef

end JavaAnalysis.Ast
