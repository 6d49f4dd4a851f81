import ScopedConfig.Address.Step

/-!
# Faults

Everything that can be refused, by its cause. A fault has a code, the code has a kind, and the
wording of the message is fixed here and nowhere else. A fault that names a scope carries the
address the scope is described by.

Key definitions: `Kind`, `Code`, `Fault`, `Fault.code`, `Fault.message`.
-/

namespace ScopedConfig

/-- The broad class of a fault. -/
inductive Kind
  /-- The text itself cannot be read. -/
  | malformed
  /-- The state of the scopes forbids what was asked. -/
  | violation
  /-- A document cannot be loaded. -/
  | io
  deriving DecidableEq

/-- The name a kind is reported by. -/
def Kind.name : Kind → String
  | .malformed => "malformed"
  | .violation => "violation"
  | .io => "io"

/-- What a fault is known by to other programs. -/
inductive Code
  | valueUnsupported
  | nameTooManyDots
  | nameMisplacedDot
  | nameEmptySegment
  | nameIndexSyntax
  | nameIndexInvalid
  | nameIndexTarget
  | nameAnonymousTarget
  | nameLocalKey
  | scopeFinalOverride
  | scopeClosedAdd
  | scopeNotAScope
  | scopeNotFound
  | scopeIndexOutOfRange
  | scopeConsistency
  | statementInvalid
  | sourcePath
  | sourceNotFound
  | sourceNotDirectory
  | sourceEmpty
  | sourceRead
  deriving DecidableEq

/-- The written form of a code. -/
def Code.name : Code → String
  | .valueUnsupported => "VALUE_UNSUPPORTED"
  | .nameTooManyDots => "NAME_TOO_MANY_DOTS"
  | .nameMisplacedDot => "NAME_MISPLACED_DOT"
  | .nameEmptySegment => "NAME_EMPTY_SEGMENT"
  | .nameIndexSyntax => "NAME_INDEX_SYNTAX"
  | .nameIndexInvalid => "NAME_INDEX_INVALID"
  | .nameIndexTarget => "NAME_INDEX_TARGET"
  | .nameAnonymousTarget => "NAME_ANONYMOUS_TARGET"
  | .nameLocalKey => "NAME_LOCAL_KEY"
  | .scopeFinalOverride => "SCOPE_FINAL_OVERRIDE"
  | .scopeClosedAdd => "SCOPE_CLOSED_ADD"
  | .scopeNotAScope => "SCOPE_NOT_A_SCOPE"
  | .scopeNotFound => "SCOPE_NOT_FOUND"
  | .scopeIndexOutOfRange => "SCOPE_INDEX_OUT_OF_RANGE"
  | .scopeConsistency => "SCOPE_CONSISTENCY"
  | .statementInvalid => "CLI_STATEMENT_INVALID"
  | .sourcePath => "CLI_SOURCE_PATH"
  | .sourceNotFound => "CLI_SOURCE_NOT_FOUND"
  | .sourceNotDirectory => "CLI_SOURCE_NOT_DIR"
  | .sourceEmpty => "CLI_SOURCE_EMPTY"
  | .sourceRead => "CLI_SOURCE_READ"

/-- The kind of a code: texts are malformed, scopes are violated, sources fail to load. -/
def Code.kind : Code → Kind
  | .valueUnsupported | .nameTooManyDots | .nameMisplacedDot | .nameEmptySegment
  | .nameIndexSyntax | .nameIndexInvalid | .nameIndexTarget | .nameAnonymousTarget
  | .nameLocalKey | .statementInvalid => .malformed
  | .scopeFinalOverride | .scopeClosedAdd | .scopeNotAScope | .scopeNotFound
  | .scopeIndexOutOfRange | .scopeConsistency => .violation
  | .sourcePath | .sourceNotFound | .sourceNotDirectory | .sourceEmpty | .sourceRead => .io

/-- The cause of a refusal. -/
inductive Fault
  /-- A literal in braces. -/
  | objectLiteral (text : String)
  /-- A name with more leading dots than remembered segments. -/
  | tooManyDots (name : String) (remembered : Nat)
  /-- A dot behind a dot, after the first character of a name that is not a dot. -/
  | misplacedDot (name : String)
  /-- A segment in front of a dot that is empty. -/
  | emptySegment (address : String)
  /-- Brackets in a segment that do not form one index at its end. -/
  | indexSyntax (segment : String)
  /-- An index that is not a number below `2 ^ 64`. -/
  | indexInvalid (index segment : String)
  /-- A value assigned to an index. -/
  | indexTarget (address : String)
  /-- A name that ends in a dot where an existing entry is meant. -/
  | anonymousTarget (address : String)
  /-- An empty segment inside a path. -/
  | anonymousInside
  /-- A text that is not one plain or quoted key. -/
  | notLocalKey (text : String)
  /-- A value written over an entry of a final scope. -/
  | overwriteFinal (key scope : String)
  /-- A scope made in the place of a value of a final scope. -/
  | replaceFinal (key scope : String)
  /-- A value added to a closed scope. -/
  | addToClosed (key scope : String)
  /-- A scope added under a new key to a closed scope. -/
  | addScopeToClosed (key scope : String)
  /-- A scope appended to a closed scope. -/
  | appendToClosed (scope : String)
  /-- An index into a value, on the way to a write. -/
  | indexOnValue (key : String) (index : Nat)
  /-- An index into a value, on the way of a look-up. -/
  | indexOnValueIn (key address : String)
  /-- An index under a key that does not exist. -/
  | nothingAppended (scope key : String)
  /-- An index past the end of a list of appended scopes. -/
  | indexOutOfRange (index : Nat) (scope : String) (size : Nat)
  /-- A scope was asked for, and the name holds a value. -/
  | valueNotScope (name : String)
  /-- A scope was asked for, and the name holds nothing. -/
  | noSuchScope (name : String)
  /-- A scope that the arena does not hold. -/
  | unknownScope (id : Nat)
  /-- The root scope among the appended ones. -/
  | rootAppended
  /-- A second anonymous scope opened inside an open one. -/
  | alreadyOpen
  /-- A sibling of the open anonymous scope, when none is open. -/
  | nothingOpen
  /-- The open anonymous scope has another parent than its path leads to. -/
  | parentChanged (scope : String)
  /-- A step of the path to the open scope that leads nowhere. -/
  | staleStep (step : Step) (scope : String)
  /-- An assignment with nothing in front of its sign. -/
  | missingTarget (line : String)
  /-- An assignment without its sign. -/
  | missingAssignment (line : String)
  /-- A line that starts with no known word. -/
  | unknownStatement (word line : String)
  /-- The working directory cannot be found. -/
  | noWorkingDirectory (reason : String)
  /-- There is no such file. -/
  | noSuchFile (path : String)
  /-- There is no such directory. -/
  | noSuchDirectory (path : String)
  /-- What should be a directory is none. -/
  | notDirectory (path : String)
  /-- A directory holds no document. -/
  | noDocuments (path : String)
  /-- A file cannot be read as text. -/
  | unreadable (reason : String)
  deriving DecidableEq

namespace Fault

/-- The code of a fault. -/
def code : Fault → Code
  | objectLiteral _ => .valueUnsupported
  | tooManyDots _ _ => .nameTooManyDots
  | misplacedDot _ => .nameMisplacedDot
  | emptySegment _ => .nameEmptySegment
  | indexSyntax _ => .nameIndexSyntax
  | indexInvalid _ _ => .nameIndexInvalid
  | indexTarget _ => .nameIndexTarget
  | anonymousTarget _ | anonymousInside => .nameAnonymousTarget
  | notLocalKey _ => .nameLocalKey
  | overwriteFinal _ _ | replaceFinal _ _ => .scopeFinalOverride
  | addToClosed _ _ | addScopeToClosed _ _ | appendToClosed _ => .scopeClosedAdd
  | indexOnValue _ _ | indexOnValueIn _ _ | valueNotScope _ => .scopeNotAScope
  | nothingAppended _ _ | indexOutOfRange _ _ _ => .scopeIndexOutOfRange
  | noSuchScope _ => .scopeNotFound
  | unknownScope _ | rootAppended | alreadyOpen | nothingOpen | parentChanged _
  | staleStep _ _ => .scopeConsistency
  | missingTarget _ | missingAssignment _ | unknownStatement _ _ => .statementInvalid
  | noWorkingDirectory _ => .sourcePath
  | noSuchFile _ | noSuchDirectory _ => .sourceNotFound
  | notDirectory _ => .sourceNotDirectory
  | noDocuments _ => .sourceEmpty
  | unreadable _ => .sourceRead

/-- The kind of a fault is the kind of its code. -/
def kind (f : Fault) : Kind :=
  f.code.kind

/-- The wording of a fault. -/
def message : Fault → String
  | objectLiteral text => s!"Object literal \"{text}\" is not supported."
  | tooManyDots name remembered =>
    s!"Too many leading dots in name \"{name}\": only {remembered} segment(s) remembered."
  | misplacedDot name =>
    "Cannot use leading/trailing/multiple dots after non-dot characters in name " ++
      s!"\"{name}\"."
  | emptySegment address => s!"Empty segment before dot in name \"{address}\"."
  | indexSyntax segment => s!"Invalid index syntax in segment \"{segment}\"."
  | indexInvalid index segment =>
    s!"Index \"{index}\" in segment \"{segment}\" is not a non-negative integer."
  | indexTarget address =>
    s!"Cannot assign to indexed address \"{address}\"; anonymous scopes are not values."
  | anonymousTarget address =>
    s!"Address \"{address}\" ends with an anonymous marker; " ++
      "anonymous scopes are addressed by index."
  | anonymousInside => "An anonymous marker can only end an address."
  | notLocalKey text => s!"\"{text}\" is not a single local key."
  | overwriteFinal key scope => s!"Cannot overwrite \"{key}\" in final scope \"{scope}\"."
  | replaceFinal key scope =>
    s!"Cannot replace value \"{key}\" with a scope in final scope \"{scope}\"."
  | addToClosed key scope => s!"Cannot add \"{key}\" to closed scope \"{scope}\"."
  | addScopeToClosed key scope => s!"Cannot add scope \"{key}\" to closed scope \"{scope}\"."
  | appendToClosed scope => s!"Cannot append an anonymous scope to closed scope \"{scope}\"."
  | indexOnValue key index => s!"Cannot index value \"{key}\" with [{index}]."
  | indexOnValueIn key address => s!"Cannot index value \"{key}\" in \"{address}\"."
  | nothingAppended scope key => s!"Scope \"{scope}\" has no anonymous scopes under \"{key}\"."
  | indexOutOfRange index scope size =>
    s!"Index {index} is out of range for \"{scope}\" with {size} anonymous scope(s)."
  | valueNotScope name => s!"\"{name}\" holds a value, not a scope."
  | noSuchScope name => s!"Scope \"{name}\" does not exist."
  | unknownScope id => s!"Scope id {id} does not belong to this tree."
  | rootAppended => "The root scope cannot be appended to a parent."
  | alreadyOpen => "Cannot enter an anonymous scope while another one is open."
  | nothingOpen => "Cannot reenter an anonymous scope from the global position."
  | parentChanged scope => s!"Anonymous scope no longer belongs to \"{scope}\"."
  | staleStep step scope =>
    "Cursor path step " ++ step.shown ++ s!" under \"{scope}\" no longer leads to a scope."
  | missingTarget line => s!"Missing target in line \"{line}\"."
  | missingAssignment line => s!"Expected \"<target> = <literal>\" in line \"{line}\"."
  | unknownStatement word line => s!"Unknown statement \"{word}\" in line \"{line}\"."
  | noWorkingDirectory reason => reason
  | noSuchFile path => s!"file does not exist: {path}"
  | noSuchDirectory path => s!"scripts-dir does not exist: {path}"
  | notDirectory path => s!"scripts-dir is not a directory: {path}"
  | noDocuments path => s!"No .stml files under {path}"
  | unreadable reason => reason

end Fault

end ScopedConfig
