import JavaAnalysis.Files

/-!
# Files in memory

A file system given by the paths and texts of its files. Its directories are those that files are
in, and a path is looked up from the directory at its root.
-/

set_option autoImplicit false

namespace JavaAnalysis

/-- Files by the names of the directories they are in and their own name. -/
structure InMemoryFiles where
  files : List (List String × String)
deriving Repr, Inhabited

namespace InMemoryFiles

/-- The names in a path; empty ones and single dots do not matter. -/
def names (path : String) : List String :=
  (path.splitOn "/").filter fun name => name != "" && name != "."

/-- The files of the given paths; a later file takes the place of an earlier one. -/
def ofList (files : List (String × String)) : InMemoryFiles :=
  ⟨(files.map fun f => (names f.1, f.2)).reverse⟩

variable (t : InMemoryFiles)

def text? (place : List String) : Option String := t.files.lookup place

def hasDirectory (place : List String) : Bool :=
  place.isEmpty || t.files.any fun f => place.isPrefixOf f.1 && place != f.1

/-- Follows names from a place, which must be a directory unless no name follows. -/
def follow (place : List String) : List String → Except FileFault (List String)
  | [] => .ok place
  | name :: rest =>
    if (t.text? place).isSome then .error .notDirectory
    else if !t.hasDirectory place then .error .notFound
    else if name = "" ∨ name = "." then follow place rest
    else if name = ".." then
      if place.isEmpty then .error .notFound else follow place.dropLast rest
    else follow (place ++ [name]) rest

/-- The place of a path. An absolute path leads nowhere. -/
def locate (path : String) : Except FileFault (List String) :=
  if path.startsWith "/" || path.isEmpty then .error .notFound else t.follow [] (path.splitOn "/")

def isFile (path : String) : Bool :=
  match t.locate path with
  | .ok place => (t.text? place).isSome
  | .error _ => false

def isDirectory (path : String) : Bool :=
  match t.locate path with
  | .ok place => (t.text? place).isNone && t.hasDirectory place
  | .error _ => false

def read (path : String) : Except FileFault String := do
  let place ← t.locate path
  match t.text? place with
  | some text => return text
  | none => throw (if t.hasDirectory place then .isDirectory else .notFound)

/-- The entry of a directory that a file is, or is below. -/
def entryIn? (place file : List String) : Option DirectoryEntry :=
  if place.isPrefixOf file then
    match file.drop place.length with
    | [] => none
    | [name] => some ⟨name, .file⟩
    | name :: _ => some ⟨name, .directory⟩
  else none

def list (path : String) : Except FileFault (List DirectoryEntry) := do
  let place ← t.locate path
  if (t.text? place).isSome then throw .notDirectory
  else if t.hasDirectory place then return (t.files.filterMap fun f => entryIn? place f.1).eraseDups
  else throw .notFound

def fileSystem : FileSystem Id where
  isFile path := t.isFile path
  isDirectory path := t.isDirectory path
  read path := t.read path
  list path := t.list path

end InMemoryFiles

end JavaAnalysis
