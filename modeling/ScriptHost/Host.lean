import Std.Data.ExtTreeMap
import ScriptHost.Actor
import ScriptHost.Binding
import ScriptHost.Blob
import ScriptHost.CommandArgument
import ScriptHost.HostId
import ScriptHost.Module
import ScriptHost.StoredFunction
/-!
# Hosts

A host is what the code of one app runs under: it holds the functions and variables that the code
defines.  A root host stands for a loaded app.  An app with a host for each player has further
hosts, one for each user of the app, which belong to its root.  Only roots hold global state.

## Main definitions

* `Host`: a host, with the definitions of each module under the module's key.
* `Host.ofModule`, `Host.forUser`: new hosts.
* `Host.function?`, `Host.global?`: what the main module has defined.
-/

namespace ScriptHost

/-- What one module has defined under a host. -/
structure Definitions (β : Type) where
  functions : Std.ExtTreeMap String (StoredFunction β) := ∅
  globals : Std.ExtTreeMap String Binding := ∅

instance {β : Type} : Inhabited (Definitions β) := ⟨{}⟩

/-- Whose host a user host is. -/
structure Ownership where
  parent : HostId
  user : String
deriving DecidableEq, Repr

/-- What the code of an app runs under. -/
structure Host (β : Type) where
  id : HostId
  /-- The app, or nothing for code that belongs to no app. -/
  module : Option Module
  /-- The player that the host serves, if it serves one. -/
  owner : Option Ownership := none
  /-- Whether the app has a host for each player. -/
  perUser : Bool := false
  /-- The hosts of the users. -/
  users : Std.ExtTreeMap String HostId := ∅
  config : Entries := []
  argTypes : Std.ExtTreeMap String CommandArgument := ∅
  globalState : Option Blob := none
  /-- The ticks left until global state that has changed meanwhile is saved. -/
  saveTimeout : Nat := 0
  /-- Whether the host stays when all apps are loaded anew. -/
  persistenceRequired : Bool := false
  /-- Who failures are reported to. -/
  sink : Option Actor := none
  definitions : Std.ExtTreeMap String (Definitions β) := ∅
  /-- The libraries whose code has been run. -/
  imported : List String := []
  producers : List Producer := []

/-- The key under which the definitions of a module are kept; code without a module has the empty
key. -/
def moduleKey (module : Option String) : String := module.getD ""

namespace Host

variable {β : Type}

/-! ## New hosts -/

/-- A root host for a module with its saved global state.  The host without a module stays when all
apps are loaded anew. -/
def ofModule (id : HostId) (module : Option Module) (perUser : Bool) (globalState : Option Blob) :
    Host β :=
  { id, module, perUser, globalState, persistenceRequired := module.isNone }

/-- The host of one user of an app: the same app with the same configuration, and no definitions. -/
def forUser (root : Host β) (id : HostId) (user : String) (sink : Actor) : Host β :=
  { id
    module := root.module
    owner := some { parent := root.id, user }
    config := root.config
    argTypes := root.argTypes
    persistenceRequired := root.persistenceRequired
    sink := some sink }

/-! ## Reading a host -/

/-- The name of the app. -/
def name? (h : Host β) : Option String := h.module.map (·.name)

/-- The host that a user host belongs to. -/
def parent? (h : Host β) : Option HostId := h.owner.map (·.parent)

/-- The user that the host serves. -/
def user? (h : Host β) : Option String := h.owner.map (·.user)

/-- Whether the host belongs to no other. -/
def isRoot (h : Host β) : Bool := h.owner.isNone

/-- The hosts of the users, in the order of the names of the users. -/
def userIds (h : Host β) : List HostId := h.users.toList.map (·.2)

/-- The key of the main module, the one that the host was made for. -/
def mainKey (h : Host β) : String := moduleKey h.name?

/-- What a module has defined. -/
def definitionsOf (h : Host β) (key : String) : Definitions β := h.definitions.getD key {}

/-- The function of that name that the main module has defined. -/
def function? (h : Host β) (name : String) : Option (StoredFunction β) :=
  (h.definitionsOf h.mainKey).functions[name]?

/-- The names of the functions that the main module has defined, in order. -/
def functionNames (h : Host β) : List String := (h.definitionsOf h.mainKey).functions.keys

/-- The variable of that name that the main module has set. -/
def global? (h : Host β) (name : String) : Option Binding :=
  (h.definitionsOf h.mainKey).globals[name]?

/-! ## Changing a host -/

/-- Changes what a module has defined. -/
def modifyDefinitions (h : Host β) (module : Option String)
    (f : Definitions β → Definitions β) : Host β :=
  let key := moduleKey module
  { h with definitions := h.definitions.insert key (f (h.definitionsOf key)) }

/-- Defines a function for its module. -/
def insertFunction (h : Host β) (f : StoredFunction β) : Host β :=
  h.modifyDefinitions f.module fun d => { d with functions := d.functions.insert f.name f }

/-- Removes a function of a module. -/
def eraseFunction (h : Host β) (module : Option String) (name : String) : Host β :=
  h.modifyDefinitions module fun d => { d with functions := d.functions.erase name }

/-- Sets a variable of a module. -/
def setGlobal (h : Host β) (module : Option String) (name : String) (b : Binding) : Host β :=
  h.modifyDefinitions module fun d => { d with globals := d.globals.insert name b }

/-- Adds a producer; the answer is the binding that stands for it. -/
def addProducer (h : Host β) (label : String) : Binding × Host β :=
  (.deferred h.producers.length, { h with producers := h.producers ++ [{ label }] })

/-- Marks a library as imported. -/
def markImported (h : Host β) (module : String) : Host β :=
  { h with imported := module :: h.imported }

/-- Replaces the global state that the host holds in memory. -/
def hold (h : Host β) (state : Option Blob) : Host β := { h with globalState := state }

/-- Sets the ticks that are left until global state is saved. -/
def setTimeout (h : Host β) (ticks : Nat) : Host β := { h with saveTimeout := ticks }

/-- Binds the sink to an actor unless it is bound already. -/
def bindSink (h : Host β) (actor : Actor) : Host β :=
  { h with sink := h.sink <|> some actor }

end Host

end ScriptHost
