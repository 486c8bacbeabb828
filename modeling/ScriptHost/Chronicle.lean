import ScriptHost.Activity
import ScriptHost.Blob
import ScriptHost.HostId
/-!
# The chronicle

What has happened to the global state of apps, in the order in which it happened: root hosts that
come and go, states that are replaced, accepted and read, ticks, and requests to the store.  The
journal holds what can be seen from outside; the chronicle also holds what stays in memory.  Nothing
that a server does depends on it.
-/

namespace ScriptHost

/-- What the store is asked to make of the blob under a key. -/
inductive StoreRequest where
  | write (blob : Blob)
  | append (lines : List String)
  | delete

namespace StoreRequest

/-- The kind of change that is asked for. -/
def change : StoreRequest → StoreChange
  | write _ => .write
  | append _ => .append
  | delete => .delete

/-- The request that saves a global state: the absence of a state is saved by removing the old
one. -/
def ofState : Option Blob → StoreRequest
  | some blob => write blob
  | none => delete

end StoreRequest

/-- Something that has happened to the global state of an app. -/
inductive StateEvent where
  /-- A root host of a module began, holding the saved state. -/
  | begun (root : HostId) (module : String) (state : Option Blob)
  /-- A host was removed from the server. -/
  | ended (id : HostId)
  /-- A host of a module that is no root was made to hold a state. -/
  | misplaced (id : HostId) (module : Option String)
  /-- The state that a root holds was replaced when `left` ticks of its window were left. -/
  | replaced (root : HostId) (state : Option Blob) (left : Nat)
  /-- Code was told that a state is accepted that it gave when `left` ticks were left. -/
  | accepted (root : HostId) (state : Option Blob) (left : Nat)
  /-- The state that a root holds was read. -/
  | answered (root : HostId) (state : Option Blob)
  /-- A tick reached a host. -/
  | ticked (id : HostId)
  /-- A host that serves no single user was closed. -/
  | closed (id : HostId)
  /-- The store was asked for a change, whether or not it came about. -/
  | stored (request : StoreRequest) (key : ResourceKey)

namespace StateEvent

/-- Whether the event is a tick that reaches a host. -/
def isTickOf (id : HostId) : StateEvent → Bool
  | ticked i => i == id
  | _ => false

/-- Whether the event is a request to the store that concerns a key. -/
def isRequestOn (key : ResourceKey) : StateEvent → Bool
  | stored _ k => k == key
  | _ => false

end StateEvent

end ScriptHost
