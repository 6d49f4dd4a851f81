import ScopedConfig.Arena.Table
import ScopedConfig.Document.Run

/-!
# File trees

A tree of files and directories, the entries of a directory in the order of their names. A path is
followed from the root directory; `.` and an empty name stay where they are, `..` goes back up, and
each of them needs a directory to do so. The documents of a tree are the files with the document
ending, named by their path from the top of the tree with every backslash turned into a slash, in
the order of these names; documents with the same name stay in the order of the tree.

Key definitions: `FileTree`, `FileTree.find?`, `FileTree.documents`.
-/

namespace ScopedConfig

/-- A file or a directory. -/
inductive FileTree
  /-- A file with its bytes. -/
  | file (content : ByteArray)
  /-- A file that cannot be read. -/
  | unreadable (reason : String)
  /-- Something else that exists, such as a device or a link that is not followed. -/
  | special
  /-- A directory, its entries in the order of their names. -/
  | directory (entries : List (String × FileTree))

namespace FileTree

/-! ### Following paths -/

/-- Follows names from a tree, below the trees that lead to it. -/
def follow (above : List FileTree) (t : FileTree) : List String → Option FileTree
  | [] => some t
  | name :: rest =>
    match t with
    | directory entries =>
      if name = "" ∨ name = "." then follow above t rest
      else if name = ".." then
        match above with
        | [] => follow [] t rest
        | up :: above => follow above up rest
      else
        match Table.find? name entries with
        | some child => follow (t :: above) child rest
        | none => none
    | _ => none

/-- What an absolute path leads to from the root directory. -/
def find? (root : FileTree) (path : String) : Option FileTree :=
  follow [] root (path.splitOn "/")

/-! ### Documents -/

/-- The reason given for bytes that are no text. -/
def notText : String :=
  "stream did not contain valid UTF-8"

/-- The text that bytes encode. -/
def decode (content : ByteArray) : Except Fault String :=
  match String.fromUTF8? content with
  | some text => .ok text
  | none => .error (.unreadable notText)

/-- The text of a file. What is no file has none. -/
def text? : FileTree → Option (Except Fault String)
  | file content => some (decode content)
  | unreadable reason => some (.error (.unreadable reason))
  | special | directory _ => none

/-- The ending of a document's file name. -/
def isDocumentName (name : String) : Bool :=
  ".stml".toList.isSuffixOf name.toList

/-- A path with slashes alone. -/
def slashed (path : String) : String :=
  String.ofList (path.toList.map fun c => if c = '\\' then '/' else c)

/-- The document that a path, a name and a text give, if the name is one of a document. -/
def document (path name : String) (text : Except Fault String) : Except Fault (List Document) :=
  if isDocumentName name then text.map fun source => [⟨slashed (path ++ name), source⟩]
  else .ok []

mutual

/-- The documents of an entry with a name, below a path, in the order of the tree. -/
def collect (path name : String) : FileTree → Except Fault (List Document)
  | directory entries => collectAll (path ++ name ++ "/") entries
  | file content => document path name (decode content)
  | unreadable reason => document path name (.error (.unreadable reason))
  | special => .ok []

/-- The documents of the entries of a directory, in order. The first file that cannot be read
refuses them all. -/
def collectAll (path : String) : List (String × FileTree) → Except Fault (List Document)
  | [] => .ok []
  | (name, t) :: rest =>
    match collect path name t with
    | .error e => .error e
    | .ok found => (collectAll path rest).map (found ++ ·)

end

/-- The documents below a directory with entries, in the order of their names. -/
def documents (entries : List (String × FileTree)) : Except Fault (List Document) :=
  (collectAll "" entries).map (·.mergeSort fun d e => decide (d.name ≤ e.name))

end FileTree

end ScopedConfig
