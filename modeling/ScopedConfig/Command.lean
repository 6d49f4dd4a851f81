import ScopedConfig.FileTree

/-!
# The command

The command runs one document, or all documents of a directory. Its arguments are read first; what
they ask for is then answered from the working directory and from what the path leads to, by an
exit code and the text that is printed. Code zero comes with the output, one with the report of a
fault, and two, without a text, with arguments that ask for nothing.

Key definitions: `Request`, `Request.ofArgs?`, `Request.path`, `Request.answer`, `Machine.run`.
-/

namespace ScopedConfig

/-- What the arguments ask for. -/
inductive Request
  /-- Run the document in a file. -/
  | run (file : String)
  /-- Run the documents of a directory. -/
  | batch (directory : String)
  deriving DecidableEq

/-- What a command leaves behind. -/
structure Outcome where
  code : Nat
  stdout : String
  deriving DecidableEq

namespace Request

/-! ### Arguments -/

/-- The text can stand behind an option as its value: options cannot. -/
def isOptionValue (arg : String) : Bool :=
  arg = "-" || arg.toList.head? != some '-'

/-- The value that an argument gives to an option behind an equals sign. -/
def attached? (option arg : String) : Option String :=
  let lead := option.toList ++ ['=']
  if lead.isPrefixOf arg.toList then some (String.ofList (arg.toList.drop lead.length)) else none

/-- The value of an option that must be given once. The flag for more logging may be given once,
and two dashes may end the arguments. -/
def optionValue? (option : String) (given : Option String) (isVerbose : Bool) :
    List String → Option String
  | [] => given
  | arg :: rest =>
    if arg = "--" then if rest = [] then given else none
    else if arg = "--verbose" then
      if isVerbose then none else optionValue? option given true rest
    else if given.isSome then none
    else if arg = option then
      match rest with
      | [] => none
      | value :: rest =>
        if isOptionValue value then optionValue? option (some value) isVerbose rest else none
    else
      match attached? option arg with
      | some value => optionValue? option (some value) isVerbose rest
      | none => none

/-- What arguments ask for, if they can be understood. -/
def ofArgs? : List String → Option Request
  | [] => none
  | word :: args =>
    if word = "run" then (optionValue? "--file" none false args).map run
    else if word = "batch" then (optionValue? "--scripts-dir" none false args).map batch
    else none

/-! ### Paths -/

/-- The path as it was given. -/
def givenPath : Request → String
  | run file => file
  | batch directory => directory

/-- A path from a directory, unless it is absolute. -/
def joinPath (directory path : String) : String :=
  if path.toList.head? = some '/' then path
  else if directory.toList.getLast? = some '/' then directory ++ path
  else directory ++ "/" ++ path

/-- The absolute path that is meant. The working directory, or the reason why it cannot be found,
counts only for a path that is not absolute. -/
def path (r : Request) (workingDirectory : Except String String) : Except Fault String :=
  if r.givenPath.toList.head? = some '/' then .ok r.givenPath
  else
    match workingDirectory with
    | .ok directory => .ok (joinPath directory r.givenPath)
    | .error reason => .error (.noWorkingDirectory reason)

/-! ### Answers -/

/-- Lines, each ended by a line feed. -/
def printed (lines : List String) : String :=
  String.join (lines.map (· ++ "\n"))

/-- The outcome of a run that went well. -/
def success (lines : List String) : Outcome :=
  ⟨0, printed ("RESULT:OK" :: lines)⟩

/-- The outcome of a fault. -/
def failure (d : Diagnostic) : Outcome :=
  let place :=
    match d.span? with
    | some span => ["ERROR_LINE:" ++ toString span.start.line]
    | none => []
  ⟨1, printed (["RESULT:ERROR", "ERROR_CODE:" ++ d.code] ++ place ++
    ["ERROR_MSG_JSON:" ++ Json.quoted d.message])⟩

/-- The outcome of arguments that ask for nothing. -/
def usage : Outcome :=
  ⟨2, ""⟩

/-- Runs the document in a file. -/
def runFile (path : String) (found : Option FileTree) : Except Diagnostic (List String) :=
  match found.bind FileTree.text? with
  | none => .error (Fault.noSuchFile path).report
  | some (.error e) => .error e.report
  | some (.ok source) => Document.runSource source

/-- Runs the documents of a directory, which has to hold one at least. -/
def runDirectory (path : String) : Option FileTree → Except Diagnostic (List String)
  | none => .error (Fault.noSuchDirectory path).report
  | some (.directory entries) =>
    match FileTree.documents entries with
    | .error e => .error e.report
    | .ok documents =>
      if documents = [] then .error (Fault.noDocuments path).report
      else Document.runAll documents
  | some _ => .error (Fault.notDirectory path).report

/-- The outcome of a run. -/
def outcome : Except Diagnostic (List String) → Outcome
  | .error d => failure d
  | .ok lines => success lines

/-- The answer to a request, given what its path leads to. -/
def answer (r : Request) (path : String) (found : Option FileTree) : Outcome :=
  match r with
  | run _ => outcome (runFile path found)
  | batch _ => outcome (runDirectory path found)

end Request

/-- What the command sees of the machine it runs on. -/
structure Machine where
  /-- The path of the working directory, or why it cannot be found. -/
  workingDirectory : Except String String
  /-- All files, from the root directory. -/
  root : FileTree

/-- Runs the command with arguments. -/
def Machine.run (m : Machine) (args : List String) : Outcome :=
  match Request.ofArgs? args with
  | none => Request.usage
  | some r =>
    match r.path m.workingDirectory with
    | .error e => Request.failure e.report
    | .ok path => r.answer path (m.root.find? path)

end ScopedConfig
