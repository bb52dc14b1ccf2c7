/-!
# Files

What a program needs of the files around it: which paths are files or directories, the text of a
file, and what is in a directory. All of it may fail the way a file system fails.
-/

set_option autoImplicit false

namespace JavaAnalysis

/-- Why a file or directory cannot be read. -/
inductive FileFault where
  | notFound
  | notDirectory
  | isDirectory
  | notText
  | other (message : String)
deriving DecidableEq, Repr, Inhabited

def FileFault.message : FileFault → String
  | notFound => "No such file or directory (os error 2)"
  | notDirectory => "Not a directory (os error 20)"
  | isDirectory => "Is a directory (os error 21)"
  | notText => "stream did not contain valid UTF-8"
  | other message => message

/-- What is found in a directory. -/
inductive EntryKind where
  | file
  | directory
  | other
deriving DecidableEq, Repr, Inhabited

structure DirectoryEntry where
  name : String
  kind : EntryKind
deriving DecidableEq, Repr, Inhabited

structure FileSystem (m : Type → Type) where
  isFile : String → m Bool
  isDirectory : String → m Bool
  read : String → m (Except FileFault String)
  /-- What is in a directory, in any order. -/
  list : String → m (Except FileFault (List DirectoryEntry))

namespace FileSystem

variable {m : Type → Type} [Monad m]

/-- The path of an entry of a directory. -/
def join (directory name : String) : String :=
  if directory.endsWith "/" then directory ++ name else directory ++ "/" ++ name

/-- A name with the given extension, which is not all of the name. -/
def hasExtension (name extension : String) : Bool :=
  name.endsWith ("." ++ extension) && extension.length + 1 < name.length

/-- A path and why it cannot be read. -/
abbrev Fault := String × FileFault

/-- The files with an extension among the entries of a directory and below them. -/
def gather (below : String → ExceptT Fault m (List String)) (extension directory : String) :
    List DirectoryEntry → ExceptT Fault m (List String)
  | [] => return []
  | e :: entries => do
    let path := join directory e.name
    let found ← match e.kind with
      | .directory => below path
      | .file => pure (if hasExtension e.name extension then [path] else [])
      | .other => pure []
    return found ++ (← gather below extension directory entries)

/-- The files with an extension at most `n` directories deep, the entries of each by name. -/
def filesWithin (fs : FileSystem m) (extension : String) :
    Nat → String → ExceptT Fault m (List String)
  | 0, _ => return []
  | n + 1, directory => do
    match ← fs.list directory with
    | .error fault => throw (directory, fault)
    | .ok entries =>
      gather (filesWithin fs extension n) extension directory
        (entries.mergeSort fun a b => decide (a.name ≤ b.name))

/-- No directory is deeper than this, since a path has at most 4096 bytes. -/
def maxDepth : Nat := 2048

/-- All files with an extension in a directory and below it. -/
def filesBelow (fs : FileSystem m) (extension directory : String) :
    ExceptT Fault m (List String) :=
  filesWithin fs extension maxDepth directory

end FileSystem

end JavaAnalysis
