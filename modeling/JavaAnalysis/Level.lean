/-!
# Language levels

A language level is a release of the language. Words become keywords and literal forms appear at
certain levels, and a few more programs are accepted.
-/

set_option autoImplicit false

namespace JavaAnalysis

/-- What depends on the language level. -/
inductive Feature where
  | assertKeyword
  | enumKeyword
  | underscoreKeyword
  | localVarInference
  | switchExpressions
  | textBlocks
  | records
  | patternInstanceof
  | markdownDocComments
deriving DecidableEq, Repr, Inhabited

namespace Feature

/-- The first level that has the feature. -/
def since : Feature → Nat
  | assertKeyword => 4
  | enumKeyword => 5
  | underscoreKeyword => 9
  | localVarInference => 10
  | switchExpressions => 14
  | textBlocks => 15
  | records => 16
  | patternInstanceof => 16
  | markdownDocComments => 23

def name : Feature → String
  | assertKeyword => "AssertKeyword"
  | enumKeyword => "EnumKeyword"
  | underscoreKeyword => "UnderscoreKeyword"
  | localVarInference => "LocalVarInference"
  | switchExpressions => "SwitchExpressions"
  | textBlocks => "TextBlocks"
  | records => "Records"
  | patternInstanceof => "PatternInstanceof"
  | markdownDocComments => "MarkdownDocComments"

def all : List Feature :=
  [assertKeyword, enumKeyword, underscoreKeyword, localVarInference, switchExpressions, textBlocks,
    records, patternInstanceof, markdownDocComments]

end Feature

/-- A release by its number; releases before the fifth are known by `1.` and their number. -/
structure LanguageLevel where
  major : Nat
deriving DecidableEq, Repr

namespace LanguageLevel

/-- The level of a text for which none is given. -/
def standard : LanguageLevel := ⟨21⟩

instance : Inhabited LanguageLevel := ⟨standard⟩

def supports (level : LanguageLevel) (feature : Feature) : Bool :=
  decide (feature.since ≤ level.major)

def render (level : LanguageLevel) : String :=
  if level.major < 5 then s!"1.{level.major}" else toString level.major

/-- The value of a row of decimal digits; `none` if there is none or one of them is no digit. -/
def digitsValue? : List Char → Option Nat
  | [] => none
  | cs => cs.foldlM (fun n c => if c.isDigit then some (10 * n + (c.toNat - '0'.toNat)) else none) 0

/-- A release number has at most sixteen bits. -/
def maxMajor : Nat := 65535

/-- Reads a release number, with or without a plus sign or the old `1.` before it. -/
def ofString? (s : String) : Option LanguageLevel :=
  let digits := match s.toList with
    | '1' :: '.' :: rest => rest
    | cs => cs
  let digits := match digits with
    | '+' :: rest => rest
    | cs => cs
  match digitsValue? digits with
  | some n => if n ≤ maxMajor then some ⟨n⟩ else none
  | none => none

/-- What is reported of a text that names no level. -/
def invalidMessage (s : String) : String := s!"invalid language level `{s}`"

end LanguageLevel

end JavaAnalysis
