import ScopedConfig.Workspace.Basic

/-!
# Creating scopes

A name leads to a scope that is created if it does not exist. A name that ends in a dot opens a new
anonymous scope in the one it leads to; when the open anonymous scope already belongs there, the
new one becomes its sibling without a walk. The segments of the address are remembered before the
walk, so a walk that is refused still moves the base of later shorthand names.

Key definitions: `Workspace.createNamed`, `Workspace.createPath`, `Workspace.createAnonymous`.
-/

namespace ScopedConfig.Workspace

variable {V : Type}

/-- Remembers the segments of an address. -/
def remember (w : Workspace V) (address : Address) : Workspace V :=
  { w with remembered := Address.remembered address.text }

/-- Creates the scopes on the way along segments from the root. -/
def createPath (w : Workspace V) (segments : List Segment) : Except Fault Unit × Workspace V :=
  let (result, arena) := w.arena.walk .root segments
  (result.map fun _ => (), { w with arena := arena })

/-- Opens the anonymous scope that the cursor gives. -/
def openWith (w : Workspace V) (opened : Except Fault (ScopeId × Cursor × Arena V)) :
    Except Fault Unit × Workspace V :=
  match opened with
  | .error e => (.error e, w)
  | .ok (_, cursor, arena) =>
    (.ok (), { w with arena := arena, cursor := cursor, isUsingArray := true })

/-- Opens an anonymous scope in the scope that segments lead to, which is created if need be. -/
def openAt (w : Workspace V) (segments : List Segment) : Except Fault Unit × Workspace V :=
  match w.createPath segments with
  | (.error e, w) => (.error e, w)
  | (.ok (), w) => w.openWith (w.cursor.enter w.arena (Address.path segments))

/-- The open scope belongs to the scope that segments lead to. -/
def isOpenUnder (w : Workspace V) (segments : List Segment) : Except Fault Bool :=
  (w.cursor.parent? w.arena).map fun parent =>
    parent.isSome && parent == w.arena.peek? .root segments

/-- Opens an anonymous scope at an address. It is a sibling of the open one if that belongs there;
otherwise the open one is left first. -/
def createAnonymous (w : Workspace V) (address : Address) : Except Fault Unit × Workspace V :=
  let segments := address.segments.dropLast
  match w.isOpenUnder segments with
  | .error e => (.error e, w)
  | .ok true =>
    let w := w.remember address
    w.openWith (w.cursor.reenter w.arena)
  | .ok false =>
    match w.popAnonymous with
    | .error e => (.error e, w)
    | .ok w => (w.remember address).openAt segments

/-- Creates the scope that a name leads to, or opens an anonymous one in it when the name ends in a
dot. -/
def createNamed (w : Workspace V) (name : String) : Except Fault Unit × Workspace V :=
  match w.address name with
  | .error e => (.error e, w)
  | .ok address =>
    if address.isAnonymous then w.createAnonymous address
    else
      match w.popAnonymous with
      | .error e => (.error e, w)
      | .ok w => (w.remember address).createPath address.segments

end ScopedConfig.Workspace
