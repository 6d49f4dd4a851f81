import ScopedConfig.Command

/-!
# The program

Reads from the machine what the command needs, prints what it answers and ends with its code. What
the command does is decided in `Command`; here are only the reading and the printing.
-/

namespace ScopedConfig.Disk

/-- The reason that is reported for an error of the machine. -/
def reason : IO.Error → String
  | .noFileOrDirectory .. => "No such file or directory (os error 2)"
  | .permissionDenied .. => "Permission denied (os error 13)"
  | e => toString e

/-- The file at a path. -/
def readFile (path : String) : IO FileTree :=
  try return .file (← IO.FS.readBinFile path)
  catch e => return .unreadable (reason e)

mutual

/-- An entry of a directory. Links are not followed, and a file that is no document stays
unread. -/
partial def readEntry (path name : String) : IO FileTree := do
  match (← (System.mkFilePath [path]).symlinkMetadata).type with
  | .dir => readDirectory path
  | .file => if FileTree.isDocumentName name then readFile path else return .special
  | _ => return .special

/-- A directory with all that is below it. -/
partial def readDirectory (path : String) : IO FileTree := do
  let mut entries : Table FileTree := []
  for entry in ← (System.mkFilePath [path]).readDir do
    let below := Request.joinPath path entry.fileName
    entries := entries.insert entry.fileName (← readEntry below entry.fileName)
  return .directory entries

end

/-- What a path leads to. A directory is read only if a request asks for its documents. -/
def find? (r : Request) (path : String) : IO (Option FileTree) := do
  try
    match (← (System.mkFilePath [path]).metadata).type, r with
    | .dir, .batch _ => some <$> readDirectory path
    | .dir, .run _ => return some (.directory [])
    | .file, .run _ => some <$> readFile path
    | _, _ => return some .special
  catch _ => return none

/-- The working directory, or why it cannot be found. -/
def workingDirectory : IO (Except String String) := do
  try return .ok (toString (← IO.currentDir))
  catch e => return .error (reason e)

/-- The answer to arguments. -/
def answer (args : List String) : IO Outcome := do
  match Request.ofArgs? args with
  | none =>
    IO.eprintln "usage: run --file FILE [--verbose] | batch --scripts-dir DIRECTORY [--verbose]"
    return Request.usage
  | some r =>
    match r.path (← workingDirectory) with
    | .error e => return Request.failure e.report
    | .ok path => return r.answer path (← find? r path)

end ScopedConfig.Disk

/-- Runs the command with the arguments of the program. -/
def main (args : List String) : IO UInt32 := do
  let outcome ← ScopedConfig.Disk.answer args
  IO.print outcome.stdout
  return UInt32.ofNat outcome.code
