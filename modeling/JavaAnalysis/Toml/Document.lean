import JavaAnalysis.Toml

/-!
# Reading TOML documents

A document is read line by line; each line is blank, a header, or a key with its value. What the
lines say is then put together into one table. Every reader returns what is left of the text.
-/

set_option autoImplicit false

namespace JavaAnalysis.Toml

abbrev Reader (α : Type) := StateT (List Char) Option α

namespace Reader

def fail {α : Type} : Reader α := fun _ => none

/-- The characters from here on that have a property. -/
def takeWhile (p : Char → Bool) : Reader (List Char) :=
  modifyGet fun cs => (cs.takeWhile p, cs.dropWhile p)

def nextIs (c : Char) : Reader Bool := return (← get).head? == some c

/-- Steps over a character that must be next. -/
def step (c : Char) : Reader Unit := do
  match ← get with
  | d :: cs => if d = c then set cs else fail
  | [] => fail

def blanks : Reader Unit := do
  let _ ← takeWhile isBlank

/-- A comment, up to the end of its line. -/
def comment : Reader Unit := do
  if ← nextIs '#' then
    step '#'
    let _ ← takeWhile isPlain

/-- Steps over the end of a line. -/
def newline : Reader Unit := do
  let cs ← get
  if startsWithNewline cs then set (withoutNewline cs) else fail

/-- What may follow on the line of a header or a value. -/
def lineRest : Reader Unit := do
  blanks
  comment
  if !(← get).isEmpty then newline

/-- Blanks, comments and ends of lines, of which there are at most `n`. -/
def gapWithin : Nat → Reader Unit
  | 0 => return ()
  | n + 1 => do
    blanks
    if ← nextIs '#' then
      comment
      newline
      gapWithin n
    else if startsWithNewline (← get) then
      newline
      gapWithin n

/-- Blanks, comments and ends of lines. -/
def gap : Reader Unit := do gapWithin (← get).length

def isBareKey (c : Char) : Bool := c.isAlphanum || c == '_' || c == '-'

/-- A key without dots, or a part of one with dots. -/
def simpleKey : Reader String := do
  match ← get with
  | c :: cs =>
    if c = '"' then finish (quoted? cs)
    else if c = '\'' then finish (literal? cs)
    else
      let key ← takeWhile isBareKey
      if key.isEmpty then fail else return String.ofList key
  | [] => fail
where
  finish : Option (List Char × List Char) → Reader String
    | some (key, rest) => do
      set rest
      return String.ofList key
    | none => fail

/-- A key with at most `n` parts. -/
def keyWithin : Nat → Reader (List String)
  | 0 => fail
  | n + 1 => do
    blanks
    let part ← simpleKey
    blanks
    if ← nextIs '.' then
      step '.'
      return part :: (← keyWithin n)
    else return [part]

/-- No value is nested deeper than this, and no key has more parts. -/
def maxDepth : Nat := 79

/-- A key, as the parts before its last dot and the part behind it. -/
def key : Reader (List String × String) := do
  let parts ← keyWithin maxDepth
  match parts.getLast? with
  | some last => return (parts.dropLast, last)
  | none => fail

def isWordChar (c : Char) : Bool :=
  c.isAlphanum || c == '+' || c == '-' || c == '_' || c == '.' || c == ':'

/-- A value without quotes or brackets; a blank may stand between a date and a time. -/
def scalar : Reader Toml := do
  let word ← takeWhile isWordChar
  let word ← match afterDate? word, ← get with
    | some [], ' ' :: c :: _ =>
      if c.isDigit then
        step ' '
        let time ← takeWhile isWordChar
        pure (word ++ ' ' :: time)
      else pure word
    | _, _ => pure word
  match scalar? word with
  | some value => return value
  | none => fail

/-- At most `n` items up to the closing bracket, with commas between them. -/
def arrayItems (item : Reader Toml) : Nat → Reader (List Toml)
  | 0 => fail
  | n + 1 => do
    gap
    if ← nextIs ']' then
      step ']'
      return []
    else
      let first ← item
      gap
      if ← nextIs ',' then
        step ','
        return first :: (← arrayItems item n)
      else
        step ']'
        return [first]

/-- At most `n` keys with values up to the closing brace, with commas between them. -/
def inlineEntries (item : Reader Toml) : Nat → Entries → Reader Entries
  | 0, _ => fail
  | n + 1, entries => do
    let (path, last) ← key
    step '='
    blanks
    let value ← item
    blanks
    let entries ← (addKey value last path entries : Option Entries)
    if ← nextIs ',' then
      step ','
      inlineEntries item n entries
    else
      step '}'
      return entries

/-- A value with at most `n` brackets and braces around its innermost parts. -/
def value : Nat → Reader Toml
  | 0 => atom
  | n + 1 => do
    let cs ← get
    match cs with
    | '[' :: rest =>
      set rest
      return array (← arrayItems (value n) cs.length)
    | '{' :: rest =>
      set rest
      blanks
      if ← nextIs '}' then
        step '}'
        return table .inline []
      else return table .inline (← inlineEntries (value n) cs.length [])
    | _ => atom
where
  atom : Reader Toml := do
    match text? (← get) with
    | some (text, rest) =>
      set rest
      return string (String.ofList text)
    | none => scalar

/-- What one line says. -/
inductive Line where
  | blank
  | entry (path : List String) (last : String) (value : Toml)
  | header (path : List String) (last : String)
  | nextHeader (path : List String) (last : String)

/-- One line and its end. -/
def line : Reader Line := do
  blanks
  match ← get with
  | '[' :: '[' :: rest =>
    set rest
    let (path, last) ← key
    step ']'
    step ']'
    lineRest
    return .nextHeader path last
  | '[' :: rest =>
    set rest
    let (path, last) ← key
    step ']'
    lineRest
    return .header path last
  | cs =>
    if cs.isEmpty || cs.head? == some '#' || startsWithNewline cs then
      lineRest
      return .blank
    else
      let (path, last) ← key
      step '='
      blanks
      let v ← value maxDepth
      lineRest
      return .entry path last v

/-- At most `n` lines up to the end of the text. -/
def lines : Nat → Reader (List Line)
  | 0 => return []
  | n + 1 => do
    if (← get).isEmpty then return []
    else
      let first ← line
      return first :: (← lines n)

end Reader

/-- What the lines of a document said so far. -/
structure Document where
  entries : Entries
  /-- The path of the last header. -/
  current : List String

namespace Document

/-- Adds what a line says. -/
def add (d : Document) : Reader.Line → Option Document
  | .blank => some d
  | .entry path last value => do
    return { d with entries := ← changeAt (addKey value last path) d.current d.entries }
  | .header path last => do
    return ⟨← changeAt (startTable last) path d.entries, path ++ [last]⟩
  | .nextHeader path last => do
    return ⟨← changeAt (startNext last) path d.entries, path ++ [last]⟩

end Document

/-- The table of a whole document; a byte order mark in front does not matter. -/
def ofString? (s : String) : Option Entries := do
  let cs := match s.toList with
    | '\ufeff' :: cs => cs
    | cs => cs
  let (lines, _) ← (Reader.lines (cs.length + 1)).run cs
  return (← lines.foldlM Document.add ⟨[], []⟩).entries

end JavaAnalysis.Toml
