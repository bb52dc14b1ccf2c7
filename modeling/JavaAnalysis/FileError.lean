import JavaAnalysis.Kind
import JavaAnalysis.Lexeme
import JavaAnalysis.Tree.Draft

/-!
# Why a file has no tree

A file has no tree if its text cannot be cut into lexemes, if it has a problem that is not
tolerated, if what the front-end says of it does not fit its tokens, or if the front-end fails.
-/

set_option autoImplicit false

namespace JavaAnalysis

/-- Why a front-end could not read its files. -/
inductive FrontEndError where
  | failed (path message : String)
  | batchAborted (accepted : Nat) (message : String)
deriving DecidableEq, Repr, Inhabited

def FrontEndError.message : FrontEndError → String
  | failed path message => s!"front-end failed on {path}: {message}"
  | batchAborted accepted message => s!"batch aborted after {accepted} files: {message}"

/-- How the abstract syntax of a file and its tokens disagree. -/
inductive Mismatch where
  | missingToken (kind : SyntaxKind)
  | noTokens
  | overlap
  | tree (error : TreeError)
deriving DecidableEq, Repr, Inhabited

def Mismatch.message : Mismatch → String
  | missingToken kind => s!"expected {kind.name}"
  | noTokens => "the range holds no token"
  | overlap => "children overlap or leave the parent range"
  | tree error => error.message

inductive FileError where
  | lexical (error : LexError)
  | syntactic (message : String) (position : Position) (range : TextRange)
  /-- A node of the given kind cannot be made. -/
  | mismatch (node : SyntaxKind) (offset : Nat) (reason : Mismatch)
  | frontEnd (error : FrontEndError)
deriving DecidableEq, Repr, Inhabited

namespace FileError

/-- A node lacks a token of some kind. -/
def missing (node : SyntaxKind) (offset : Nat) (expected : SyntaxKind) : FileError :=
  mismatch node offset (.missingToken expected)

def ofTree (error : TreeError) : FileError :=
  mismatch error.nodeKind (error.offset?.getD 0) (.tree error)

def message : FileError → String
  | lexical error => s!"lexical error: {error.message}"
  | syntactic message position _ => s!"{message} at {position.render}"
  | mismatch node offset reason => s!"cannot build {node.name} at {offset}: {reason.message}"
  | frontEnd error => error.message

/-- Where in the file the error is, if anywhere. -/
def range? : FileError → Option TextRange
  | lexical error => some (.empty error.offset)
  | syntactic _ _ range => some range
  | mismatch _ offset _ => some (.empty offset)
  | frontEnd _ => none

end FileError

end JavaAnalysis
