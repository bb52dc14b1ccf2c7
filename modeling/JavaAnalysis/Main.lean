import JavaAnalysis.Command

/-!
# The program

The command line on the files of the machine.
-/

set_option autoImplicit false

namespace JavaAnalysis.Disk

/-- Why the machine could not read a file or directory. -/
def fault : IO.Error → FileFault
  | .noFileOrDirectory _ _ _ => .notFound
  | .inappropriateType _ 20 _ => .notDirectory
  | .inappropriateType _ 21 _ => .isDirectory
  | e => .other (toString e)

/-- A path, taken from the working directory if it is relative. -/
def entry (path : String) : IO.FS.DirEntry := ⟨".", path⟩

def isFile (path : String) : IO Bool := do
  match ← (entry path).path.metadata.toBaseIO with
  | .ok data => return data.type == .file
  | .error _ => return false

def isDirectory (path : String) : IO Bool := do
  if path.isEmpty then return false else (entry path).path.isDir

def read (path : String) : IO (Except FileFault String) := do
  match ← (IO.FS.readBinFile path).toBaseIO with
  | .ok bytes =>
    match String.fromUTF8? bytes with
    | some text => return .ok text
    | none => return .error .notText
  | .error e => return .error (fault e)

/-- What an entry of a directory is, links not being followed. -/
def kindOf (e : IO.FS.DirEntry) : IO EntryKind := do
  match ← e.path.symlinkMetadata.toBaseIO with
  | .ok data =>
    match data.type with
    | .file => return .file
    | .dir => return .directory
    | _ => return .other
  | .error _ => return .other

def list (path : String) : IO (Except FileFault (List DirectoryEntry)) := do
  match ← (entry path).path.readDir.toBaseIO with
  | .ok entries =>
    let found ← entries.toList.mapM fun e => return ⟨e.fileName, ← kindOf e⟩
    return .ok found
  | .error e => return .error (fault e)

/-- The files of the machine. -/
def fileSystem : FileSystem IO := { isFile, isDirectory, read, list }

end JavaAnalysis.Disk

def main (arguments : List String) : IO UInt32 := do
  let output ← JavaAnalysis.Command.run JavaAnalysis.Disk.fileSystem arguments
  output.out.forM IO.println
  output.err.forM IO.eprintln
  return output.exitCode.toUInt32
