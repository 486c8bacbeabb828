import ScriptHost.Activity
import ScriptHost.Catalogue
import ScriptHost.Chronicle
import ScriptHost.Dispatch
import ScriptHost.Hook
import ScriptHost.Report.Failure
import ScriptHost.Resource.Store
import ScriptHost.Settings
/-!
# Servers

The state of a server and the steps that all its operations are made of.  A server holds every host
under its number, the apps that are loaded, and the subscriptions to events.  Its collaborators are
given from outside: the evaluator and the tokenizer, the catalogue of modules, and the world.

## Main definitions

* `Server`, `Collaborators`, `ServerM`: the state, its surroundings, and operations on it.
* `ServerM.record`, `ServerM.log`, `ServerM.report`: what is done is written into the journal.
* `ServerM.remember`: what happens to global state is written into the chronicle.
* `ServerM.reportFailure`: a failure is reported to whom the host serves.
-/

namespace ScriptHost

/-- The game world: the actor that hooks run for, and the players who are there. -/
structure World where
  serverActor : Actor
  findPlayer : String → Option Actor

/-- What a server works with. -/
structure Collaborators (β : Type) where
  evaluator : Evaluator β
  tokenize : String → Except EvalError (List Token)
  catalogue : Catalogue
  world : World
  /-- Whether messages to an outbox arrive. -/
  isOpen : Outbox → Bool

/-- The state of a server whose data is kept in a store of type `σ`. -/
structure Server (σ β : Type) where
  hosts : Std.ExtTreeMap HostId (Host β)
  /-- The number of the next host. -/
  nextId : HostId
  /-- The root hosts of the loaded apps, under the names of the apps. -/
  apps : Std.ExtTreeMap String HostId
  dispatch : EventDispatch
  /-- Whether execution is halted. -/
  isStopped : Bool
  settings : Settings
  store : σ
  /-- What the server has done, latest first. -/
  journal : List (Activity β)
  /-- What has happened to global state, latest first. -/
  chronicle : List StateEvent

namespace Server

variable {σ β : Type}

/-- A server with only the host that belongs to no app. -/
def new (store : σ) (settings : Settings) : Server σ β where
  hosts := (∅ : Std.ExtTreeMap HostId (Host β)).insert HostId.unnamed
    (Host.ofModule HostId.unnamed none false none)
  nextId := HostId.unnamed + 1
  apps := ∅
  dispatch := ∅
  isStopped := false
  settings := settings
  store := store
  journal := []
  chronicle := []

/-- The host with a number. -/
def host? (s : Server σ β) (id : HostId) : Option (Host β) := s.hosts[id]?

/-- The root host of a loaded app. -/
def app? (s : Server σ β) (name : String) : Option HostId := s.apps[name]?

/-- The host that holds the global state for a host: its parent if it has one. -/
def rootOf (s : Server σ β) (id : HostId) : HostId := ((s.host? id).bind (·.parent?)).getD id

/-- The hosts that belong to no other, in the order of their numbers. -/
def roots (s : Server σ β) : List HostId :=
  s.hosts.toList.filterMap fun (id, h) => if h.isRoot then some id else none

/-- The server after a change to one of its hosts. -/
def modifyHost (s : Server σ β) (id : HostId) (f : Host β → Host β) : Server σ β :=
  { s with hosts := s.hosts.modify id f }

/-- The server with one more activity in its journal. -/
def record (s : Server σ β) (a : Activity β) : Server σ β := { s with journal := a :: s.journal }

/-- The server with one more event in its chronicle. -/
def remember (s : Server σ β) (e : StateEvent) : Server σ β :=
  { s with chronicle := e :: s.chronicle }

/-- The actor that hooks of a host run for: the user whom the host serves, if in the world, and
otherwise the server. -/
def actorFor (s : Server σ β) (world : World) (id : HostId) : Actor :=
  (((s.host? id).bind (·.user?)).bind world.findPlayer).getD world.serverActor

end Server

/-- An operation on a server. -/
abbrev ServerM (σ β : Type) := StateM (Server σ β)

namespace ServerM

variable {σ β : Type}

/-! ## Hosts -/

/-- The host with a number. -/
def host? (id : HostId) : ServerM σ β (Option (Host β)) := return (← get).host? id

/-- Changes a host. -/
def modifyHost (id : HostId) (f : Host β → Host β) : ServerM σ β Unit :=
  modify (·.modifyHost id f)

/-- Puts a new host in place. -/
def insertHost (h : Host β) : ServerM σ β Unit :=
  modify fun s => { s with hosts := s.hosts.insert h.id h }

/-- The number for a new host; no two hosts get the same. -/
def freshId : ServerM σ β HostId := do
  let s ← get
  set { s with nextId := s.nextId + 1 }
  return s.nextId

/-! ## The journal -/

/-- Writes an activity into the journal. -/
def record (a : Activity β) : ServerM σ β Unit := modify (·.record a)

/-- Writes an event into the chronicle. -/
def remember (e : StateEvent) : ServerM σ β Unit := modify (·.remember e)

/-- Logs a line. -/
def log (level : LogLevel) (text : String) : ServerM σ β Unit := record (.logged level text)

/-- Delivers a message to an actor, or logs it for an actor without an outbox. -/
def deliver (co : Collaborators β) (actor : Actor) (message : Message) : ServerM σ β Unit :=
  match Report.deliver co.isOpen actor message with
  | .sent outbox message => record (.sent outbox message)
  | .logged text => log .error text
  | .lost => return ()

/-- Reports a failure to an actor. -/
def report (co : Collaborators β) (actor : Actor) (intro : String) (error : ScriptError) :
    ServerM σ β Unit :=
  (Report.failure actor intro error).forM (deliver co actor)

/-- Sends an actor a plain line in the tone of an error. -/
def reportText (co : Collaborators β) (actor : Actor) (text : String) : ServerM σ β Unit :=
  deliver co actor (.error text)

/-- Reports a failure under a host to whom the host serves, or to the log. -/
def reportFailure (co : Collaborators β) (id : HostId) (intro : String) (error : ScriptError) :
    ServerM σ β Unit := do
  match (← host? id).bind (·.sink) with
  | some actor => report co actor intro error
  | none => log .error (Report.headline intro error.message)

/-! ## Stopping -/

/-- Halts or resumes the execution of all scripts. -/
def setStopped (stop : Bool) : ServerM σ β Unit := do
  if (← get).isStopped != stop then
    log .info ("Script execution " ++ if stop then "paused" else "resumed")
  modify ({ · with isStopped := stop })

/-- Unbinds a host from whom it serves. -/
def resetSink (id : HostId) : ServerM σ β Unit := modifyHost id ({ · with sink := none })

end ServerM

end ScriptHost
