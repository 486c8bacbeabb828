import ScriptHost.Server.Invocation
/-!
# Hosts come and go

Loading and unloading apps, and making the hosts of users.  A host is torn down in two steps.  It is
closed, which calls its close hook and saves its global state; then it is discarded, which removes
it from the server.  The hosts of its users go with it, and are closed before it.

## Main definitions

* `Server.family`: a host with the hosts of its users, in the order in which they are closed.
* `ServerM.close`, `ServerM.discard`: the two steps of a teardown.
* `ServerM.createApplication`, `ServerM.duplicateForUser`: new hosts.
* `ServerM.addApp`, `ServerM.removeApp`, `ServerM.reloadApps`, `ServerM.autoload`,
  `ServerM.shutdown`: the apps of a server.
* `ServerM.retrieveForExecution`, `ServerM.retrieveForTarget`: the host that serves an actor.
-/

namespace ScriptHost

namespace Server

variable {σ β : Type}

/-- A host with the hosts of its users, down to a depth, the users in the order of their names and
each host after those that belong to it. -/
def familyTo (s : Server σ β) : Nat → HostId → List HostId
  | 0, _ => []
  | depth + 1, id =>
    match s.host? id with
    | none => []
    | some h => h.userIds.flatMap (s.familyTo depth) ++ [id]

/-- A host with the hosts of its users.  A user host has a higher number than the host that it
belongs to, so the numbers bound the depth. -/
def family (s : Server σ β) (id : HostId) : List HostId := s.familyTo s.nextId id

/-- The server without some of its hosts. -/
def eraseHosts (s : Server σ β) (ids : List HostId) : Server σ β :=
  { s with
    hosts := s.hosts.filter fun id _ => !ids.contains id
    dispatch := s.dispatch.unbindHosts ids
    chronicle := ids.map .ended ++ s.chronicle }

/-- The tag of the markers that an app has put into the world. -/
def markerTag (app : Option String) : String := "__tickscript_marker_" ++ app.getD ""

end Server

namespace ServerM

variable {σ β : Type} [StateStore σ]

/-! ## Teardown -/

/-- For a host that serves no single user, has its markers removed from the world and its global
state saved. -/
def sweep (id : HostId) : ServerM σ β Unit := do
  if let some h ← host? id then
    if h.user?.isNone then
      record (.swept (Server.markerTag h.name?))
      flushPending id

/-- Closes a single host: calls its close hook, and sweeps up after it. -/
def closeOne (co : Collaborators β) (id : HostId) : ServerM σ β Unit := do
  if let some hook := (← host? id).bind (·.function? HookKind.closeName) then
    let actor := (← get).actorFor co.world id
    let _ ← callHook co { host := id, actor } hook []
  sweep id

/-- Closes a host after the hosts of its users. -/
def close (co : Collaborators β) (id : HostId) : ServerM σ β Unit := do
  ((← get).family id).forM (closeOne co)

/-- Removes a host and the hosts of its users from the server. -/
def discard (id : HostId) : ServerM σ β Unit := do
  if let some h ← host? id then
    modify fun s => s.eraseHosts (s.family id)
    if let some owner := h.owner then
      modifyHost owner.parent fun p => { p with users := p.users.erase owner.user }

/-! ## New hosts -/

/-- Runs the code of a new host.  If it fails, the failure is reported and the host is discarded. -/
def start (co : Collaborators β) (id : HostId) (module : Module) (actor : Actor) :
    ServerM σ β (Except ScriptError HostId) := do
  match ← runModule co (runner co) { host := id, actor } module with
  | .ok _ => return .ok id
  | .error cause =>
    let e := ScriptError.ofEval cause
    reportFailure co id (intro "Error while evaluating expression" e) e
    discard id
    return .error e

/-- The failure to load an app, which is reported to an actor. -/
def loadFailure (co : Collaborators β) (actor : Actor) (module : String) (reason : LoadReason) :
    ServerM σ β (Except ScriptError HostId) := do
  let e := ScriptError.loadFailure module reason
  reportText co actor e.message
  return .error e

/-- Makes a root host for a module and runs the code of the module under it. -/
def createApplication (co : Collaborators β) (module : Option Module) (perUser : Bool)
    (actor : Actor) : ServerM σ β (Except ScriptError HostId) := do
  let id ← freshId
  match module with
  | none =>
    insertHost (Host.ofModule id none perUser none)
    return .ok id
  | some m =>
    let state ← loadState m
    if m.code.isNone then loadFailure co actor m.name .codeNotFound
    else
      remember (.begun id m.name state)
      insertHost { Host.ofModule id module perUser state with sink := some actor }
      start co id m actor

/-- The host of a user under a root host; it is made if there is none yet. -/
def duplicateForUser (co : Collaborators β) (root : HostId) (user : String) (actor : Actor) :
    ServerM σ β (Except ScriptError HostId) := do
  match ← host? root with
  | none => return .error (.contract (.unknownHost root))
  | some h =>
    match h.users[user]? with
    | some id => return .ok id
    | none =>
      let id ← freshId
      insertHost (h.forUser id user actor)
      modifyHost root fun h => { h with users := h.users.insert user id }
      match h.module with
      | none => return .ok id
      | some module => start co id module actor

/-! ## The host that serves an actor -/

/-- Binds a host to an actor for its reports, unless it is bound already. -/
def serve (actor : Actor) (id : HostId) : ServerM σ β HostId := do
  modifyHost id (·.bindSink actor)
  return id

/-- The host that runs a command of an actor.  An app with a host for each player serves only users,
each with a host of their own. -/
def retrieveForExecution (co : Collaborators β) (root : HostId) (actor : Actor) :
    ServerM σ β (Except ScriptError (Option HostId)) := do
  match ← host? root with
  | none => return .ok none
  | some h =>
    if h.perUser then
      match actor.user? with
      | none => return .ok none
      | some user =>
        match ← duplicateForUser co root user actor with
        | .error e => return .error e
        | .ok id => return .ok (some (← serve actor id))
    else return .ok (some (← serve actor root))

/-- The host that an event is meant for.  An event that concerns a player is only for apps with a
host for each player, and one that concerns nobody only for the others. -/
def retrieveForTarget (co : Collaborators β) (root : HostId) (target : Option Actor) :
    ServerM σ β (Except ScriptError (Option HostId)) := do
  match ← host? root with
  | none => return .ok none
  | some h =>
    match target with
    | none =>
      if h.perUser then return .ok none
      else return .ok (some (← serve co.world.serverActor root))
    | some actor =>
      match h.perUser, actor.user? with
      | true, some user =>
        match ← duplicateForUser co root user actor with
        | .error e => return .error e
        | .ok id => return .ok (some (← serve actor id))
      | _, _ => return .ok none

/-! ## Apps -/

/-- Closes and discards an app.  The answer tells whether it was loaded. -/
def removeApp (co : Collaborators β) (name : String) : ServerM σ β Bool := do
  match (← get).app? name with
  | none => return false
  | some id =>
    modify fun s => { s with apps := s.apps.erase name }
    close co id
    discard id
    log .info s!"Unloaded app {name}"
    return true

/-- Loads an app by its name in small letters, in place of a loaded app of that name. -/
def addApp (co : Collaborators β) (name : String) (actor : Actor) :
    ServerM σ β (Except ScriptError HostId) := do
  let name := Text.lowercase name
  match ← findModule co name false with
  | none => loadFailure co actor name .appNotFound
  | some module =>
    let _ ← removeApp co name
    match ← createApplication co (some module) false actor with
    | .error e => return .error e
    | .ok id =>
      modify fun s => { s with apps := s.apps.insert name id }
      log .info s!"Loaded app {name}"
      return .ok id

/-- Loads apps one after the other and counts those that loaded; the others are noted in the log. -/
def addApps (co : Collaborators β) (doing : String) (actor : Actor) :
    List String → ServerM σ β Nat
  | [] => return 0
  | name :: rest => do
    match ← addApp co name actor with
    | .ok _ => return 1 + (← addApps co doing actor rest)
    | .error e =>
      log .warn s!"Failed to {doing} app {name}: {e.message}"
      addApps co doing actor rest

/-- Loads every app anew that does not ask to stay. -/
def reloadApps (co : Collaborators β) (actor : Actor) : ServerM σ β Nat := do
  let s ← get
  let names := s.apps.toList.filterMap fun (name, id) =>
    if (s.host? id).any (!·.persistenceRequired) then some name else none
  let count ← addApps co "reload" actor names
  if 0 < count then log .info s!"Reloaded {count} app(s)"
  return count

/-- Loads the apps that the settings name. -/
def autoload (co : Collaborators β) : ServerM σ β Nat := do
  addApps co "autoload" co.world.serverActor (← get).settings.autoload

/-- Tears down every app, every other root host, and closes the host that belongs to no app. -/
def shutdown (co : Collaborators β) : ServerM σ β Unit := do
  (← get).apps.keys.forM fun name => do
    let _ ← removeApp co name
  ((← get).roots.filter (· != HostId.unnamed)).forM fun id => do
    close co id
    discard id
  close co HostId.unnamed

end ServerM

end ScriptHost
