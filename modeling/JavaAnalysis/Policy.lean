import JavaAnalysis.FrontEnd.Name
import JavaAnalysis.Problem

/-!
# Tolerated problems

Some front-ends report gaps in what they know of types as if the text were wrong. Exception tables
say which problems are tolerated, for each front-end and version.
-/

set_option autoImplicit false

namespace JavaAnalysis

/-- Problems that one front-end may report without a file being rejected. -/
structure ExceptionTable where
  frontEnd : String
  /-- The version of the front-end, or a star for any. -/
  version : String
  ignored : List ProblemId
deriving DecidableEq, Repr, Inhabited

namespace ExceptionTable

/-- The version that stands for all. -/
def anyVersion : String := "*"

/-- The exceptions of the standard front-end. -/
def standard : ExceptionTable :=
  ⟨FrontEndName.standard.name, anyVersion, [.switchNotExhaustive]⟩

def fits (t : ExceptionTable) (f : FrontEndName) : Bool :=
  t.frontEnd == f.name && (t.version == anyVersion || t.version == f.version)

end ExceptionTable

/-- The problems that do not keep a file from being used. -/
structure SyntaxPolicy where
  ignored : List ProblemId
deriving DecidableEq, Repr, Inhabited

namespace SyntaxPolicy

/-- Nothing is tolerated. -/
def strict : SyntaxPolicy := ⟨[]⟩

/-- What the tables that fit a front-end tolerate together. -/
def ofTables (tables : List ExceptionTable) (f : FrontEndName) : SyntaxPolicy :=
  ⟨(tables.filter fun t => t.fits f).flatMap (·.ignored)⟩

/-- What is tolerated of the standard front-end unless other tables are given. -/
def standard : SyntaxPolicy := ofTables [.standard] .standard

def allows (p : SyntaxPolicy) (id : ProblemId) : Bool := p.ignored.contains id

/-- The problem keeps its file from being used. -/
def isFatal (p : SyntaxPolicy) (problem : Problem) : Bool :=
  problem.category == .syntactic && problem.isError && !p.allows problem.id

def firstFatal? (p : SyntaxPolicy) (problems : List Problem) : Option Problem :=
  problems.find? p.isFatal

end SyntaxPolicy

end JavaAnalysis
