import Mathlib
import ScriptHost.Proofs.Lifecycle
/-!
# Operations and reachable servers

All that can be asked of a server from outside, and the servers that can come about by it.  An
operation may work with other collaborators than the one before: nothing is assumed of evaluators,
of the world or of tokenizers, and of catalogues only what a theorem asks for.

## Main statements

* `Invocation`, `Operation`: requests to run code, and all requests.
* `Server.Reachable`: the servers that come about from a new one.
* `Server.Leads`: one operation after the other.
* `Operation.keeps`: the operations that make no host and remove none.
* `Operation.IsOrderly`, `Operation.walks`, `Server.Leads.moves`: operations are made of moves.
* `Server.Reachable.induction`, `Server.Reachable.arena`: moves are made of steps, so the arena of a
  reachable server is in order.
-/

namespace ScriptHost

variable {σ β : Type}

/-! ## Requests -/

/-- A request to run code under a host. -/
inductive Invocation (β : Type) where
  | call (actor : Actor) (f : StoredFunction β) (values : List Value)
  | callText (actor : Actor) (name : String) (coords : List Int) (text : String)
  | callHook (actor : Actor) (origin : BlockPos) (f : StoredFunction β) (values : List Value)
  | command (actor : Actor) (f : StoredFunction β) (values : List Value)
  | commandText (actor : Actor) (name : String) (coords : List Int) (text : String)

/-- The answer to a request to run code. -/
inductive Reply where
  | result (r : Except ScriptError Value)
  | accepted (r : Except InvalidCallback Value)
  | value (v : Value)

/-- A request to a server. -/
inductive Operation (β : Type) where
  | setStopped (stop : Bool)
  | invoke (id : HostId) (i : Invocation β)
  | define (id : HostId) (f : StoredFunction β)
  | delete (id : HostId) (module : Option String) (name : String)
  | addApp (name : String) (actor : Actor)
  | removeApp (name : String)
  | createApplication (module : Option Module) (perUser : Bool) (actor : Actor)
  | duplicateForUser (root : HostId) (user : String) (actor : Actor)
  | retrieveForExecution (root : HostId) (actor : Actor)
  | retrieveForTarget (root : HostId) (target : Option Actor)
  | close (id : HostId)
  | reloadApps (actor : Actor)
  | autoload
  | shutdown
  | fireEvent (event : Event) (arguments : List Value)
  | tick
  | tickHost (id : HostId)
  | reportFailure (id : HostId) (intro : String) (error : ScriptError)
  | resetSink (id : HostId)
  | writeGlobalState (id : HostId) (blob : Option Blob)
  | readTag (id : HostId) (file : Option String) (shared : Bool)
  | writeTag (id : HostId) (blob : Blob) (file : Option String) (shared : Bool)
  | appendLog (id : HostId) (file : String) (shared : Bool) (typeName : String)
      (lines : List String)
  | readText (id : HostId) (file : String) (shared : Bool)
  | remove (id : HostId) (file : String) (shared : Bool) (typeName : String)

variable [StateStore σ]

/-- Runs code under a host. -/
def Invocation.run (co : Collaborators β) (id : HostId) : Invocation β → ServerM σ β Reply
  | call actor f values => .result <$> ServerM.call co id actor f values
  | callText actor name coords text => .result <$> ServerM.callText co id actor name coords text
  | callHook actor origin f values =>
    .accepted <$> ServerM.callHook co { host := id, actor, origin } f values
  | command actor f values => .value <$> ServerM.command co id actor f values
  | commandText actor name coords text =>
    .value <$> ServerM.commandText co id actor name coords text

/-- Does what is asked, and leaves the answer away. -/
def Operation.run (co : Collaborators β) : Operation β → ServerM σ β Unit
  | setStopped stop => ServerM.setStopped stop
  | invoke id i => do let _ ← i.run co id
  | define id f => do let _ ← ServerM.define co id f
  | delete id module name => ServerM.delete id module name
  | addApp name actor => do let _ ← ServerM.addApp co name actor
  | removeApp name => do let _ ← ServerM.removeApp co name
  | createApplication module perUser actor => do
    let _ ← ServerM.createApplication co module perUser actor
  | duplicateForUser root user actor => do let _ ← ServerM.duplicateForUser co root user actor
  | retrieveForExecution root actor => do let _ ← ServerM.retrieveForExecution co root actor
  | retrieveForTarget root target => do let _ ← ServerM.retrieveForTarget co root target
  | close id => ServerM.close co id
  | reloadApps actor => do let _ ← ServerM.reloadApps co actor
  | autoload => do let _ ← ServerM.autoload co
  | shutdown => ServerM.shutdown co
  | fireEvent event arguments => do let _ ← ServerM.fireEvent co event arguments
  | tick => ServerM.tick co
  | tickHost id => ServerM.tickHost id
  | reportFailure id intro error => ServerM.reportFailure co id intro error
  | resetSink id => ServerM.resetSink id
  | writeGlobalState id blob => do let _ ← ServerM.writeGlobalState id blob
  | readTag id file shared => do let _ ← ServerM.readTag id file shared
  | writeTag id blob file shared => do let _ ← ServerM.writeTag id blob file shared
  | appendLog id file shared typeName lines => do
    let _ ← ServerM.appendLog id file shared typeName lines
  | readText id file shared => do let _ ← ServerM.readText id file shared
  | remove id file shared typeName => do let _ ← ServerM.remove id file shared typeName

/-- A server that comes about from a new one by operations that work with catalogues of some
kind. -/
inductive Server.Reachable (allowed : Catalogue → Prop) : Server σ β → Prop where
  | new (store : σ) (settings : Settings) : Reachable allowed (Server.new store settings)
  | step {s : Server σ β} (hs : Reachable allowed s) (co : Collaborators β)
      (hco : allowed co.catalogue) (op : Operation β) : Reachable allowed ((op.run co).exec s)

/-- One operation after the other. -/
def Operation.runAll (co : Collaborators β) (ops : List (Operation β)) (s : Server σ β) :
    Server σ β :=
  ops.foldl (fun s op => (op.run co).exec s) s

theorem Server.Reachable.runAll {allowed : Catalogue → Prop} {co : Collaborators β}
    (hco : allowed co.catalogue) (ops : List (Operation β)) {s : Server σ β}
    (hs : Reachable allowed s) : Reachable allowed (Operation.runAll co ops s) := by
  induction ops generalizing s with
  | nil => exact hs
  | cons op ops ih => exact ih (hs.step co hco op)

/-- A server leads to another by operations of some kind that work with catalogues of some kind. -/
abbrev Server.Leads (allowed : Catalogue → Prop) (kind : Operation β → Prop) :
    Server σ β → Server σ β → Prop :=
  Relation.ReflTransGen fun s t =>
    ∃ (co : Collaborators β) (op : Operation β),
      allowed co.catalogue ∧ kind op ∧ t = (op.run co).exec s

theorem Server.Leads.runAll {allowed : Catalogue → Prop} {kind : Operation β → Prop}
    {co : Collaborators β} (hco : allowed co.catalogue) {ops : List (Operation β)}
    (hops : ∀ op ∈ ops, kind op) (s : Server σ β) :
    Leads allowed kind s (Operation.runAll co ops s) := by
  induction ops generalizing s with
  | nil => exact .refl
  | cons op ops ih =>
      have hfirst : kind op := hops op List.mem_cons_self
      have hrest : ∀ o ∈ ops, kind o := fun o ho => hops o (List.mem_cons_of_mem op ho)
      exact .head ⟨co, op, hco, hfirst, rfl⟩ (ih hrest _)

/-! ## Operations are made of steps -/

open ServerM

variable {co : Collaborators β} {id : HostId} {suits : String → Module → Prop}

/-- All that is run for a request under a host is done by actions of code under that host. -/
theorem Invocation.relates {R : Server σ β → Server σ β → Prop} (hR : CodeRelation id R)
    (i : Invocation β) (co : Collaborators β) : Relates R (i.run co id : ServerM σ β Reply) := by
  have hrun : RunsBy id R (runner co) := runsBy_runner hR
  cases i with
  | call actor f values => exact (relates_callWith hR hrun actor f values).map _
  | callText actor name coords text =>
      exact (relates_callTextWith hR hrun actor name coords text).map _
  | callHook actor origin f values => exact (relates_callHook hR rfl f values).map _
  | command actor f values => exact (relates_command hR actor f values).map _
  | commandText actor name coords text =>
      exact (relates_commandText hR actor name coords text).map _

/-- All that is run for a request under a host is code under that host. -/
theorem Invocation.actsUnder (i : Invocation β) (co : Collaborators β) (id : HostId) :
    ActsUnder id (i.run co id : ServerM σ β Reply) :=
  i.relates (codeRelation_codeSteps id) co

theorem keeps_setStopped (stop : Bool) :
    Keeps suits (ServerM.setStopped stop : ServerM σ β Unit) := by
  unfold ServerM.setStopped
  apply keeps_get_bind
  intro s ha
  have hset : Keeps suits (modify ({ · with isStopped := stop }) : ServerM σ β PUnit) :=
    fun _ _ => .of_step (.setStopped stop) (fun _ => rfl) rfl rfl
  dsimp only
  split
  · exact ((keeps_log _ _).bind fun _ => hset) ha
  · exact hset ha

/-- The operation makes no host and removes none. -/
def Operation.IsIdle : Operation β → Prop
  | addApp _ _ => False
  | removeApp _ => False
  | createApplication _ _ _ => False
  | duplicateForUser _ _ _ => False
  | retrieveForExecution _ _ => False
  | retrieveForTarget _ _ => False
  | reloadApps _ => False
  | autoload => False
  | shutdown => False
  | _ => True

/-- An operation that makes no host and removes none keeps all hosts in their places. -/
theorem Operation.keeps {op : Operation β} (h : op.IsIdle) :
    Keeps suits (op.run co : ServerM σ β Unit) := by
  cases op with
  | setStopped stop => exact keeps_setStopped stop
  | invoke id i => exact (i.actsUnder co id).keeps.bind fun _ => keeps_pure _
  | define id f =>
      exact (actsUnder_defineWith (runsUnder_runner co) f).keeps.bind fun _ => keeps_pure _
  | delete id module name => exact (actsUnder_delete module name).keeps
  | close id => exact keeps_close co id
  | fireEvent event arguments =>
      exact (keeps_fireEvent event arguments).bind fun _ => keeps_pure _
  | tick => exact keeps_tick
  | tickHost id => exact keeps_tickHost id
  | reportFailure id intro error =>
      have hact : ActsUnder id (ServerM.reportFailure co id intro error : ServerM σ β Unit) :=
        actsUnder_reportFailure co id intro error
      exact hact.keeps
  | resetSink id =>
      exact fun s _ => .of_step (.setSink id fun _ => none)
        (Server.samePlaces_modifyHost s id fun _ => rfl) rfl rfl
  | writeGlobalState id blob =>
      exact (actsUnder_writeGlobalState blob).keeps.bind fun _ => keeps_pure _
  | readTag id file shared =>
      exact (actsUnder_readTag file shared).keeps.bind fun _ => keeps_pure _
  | writeTag id blob file shared =>
      exact (actsUnder_writeTag blob file shared).keeps.bind fun _ => keeps_pure _
  | appendLog id file shared typeName lines =>
      exact (actsUnder_appendLog file shared typeName lines).keeps.bind
        fun _ => keeps_pure _
  | readText id file shared =>
      exact (actsUnder_readText file shared).keeps.bind fun _ => keeps_pure _
  | remove id file shared typeName =>
      exact (actsUnder_remove file shared typeName).keeps.bind fun _ => keeps_pure _
  | _ => exact h.elim

/-- The operation makes hosts only for apps that are loaded and for users who are served. -/
def Operation.IsOrderly : Operation β → Prop
  | createApplication _ _ _ => False
  | duplicateForUser _ _ _ => False
  | _ => True

/-- Every operation is made of moves, and an orderly one of orderly moves. -/
theorem Operation.walks {orderly : Prop} (hco : co.catalogue.Follows suits) (op : Operation β)
    (hop : orderly → op.IsOrderly) : Walks suits orderly (op.run co : ServerM σ β Unit) := by
  by_cases hidle : op.IsIdle
  · exact (Operation.keeps hidle).walks
  cases op with
  | addApp name actor => exact (walks_addApp hco name actor).bind fun _ => walks_pure _
  | removeApp name => exact (walks_removeApp co name).bind fun _ => walks_pure _
  | createApplication module perUser actor =>
      exact (walks_createApplication co hop module perUser actor).bind fun _ => walks_pure _
  | duplicateForUser root user actor =>
      have hduplicate : Walks suits orderly (ServerM.duplicateForUser co root user actor :
          ServerM σ β _) :=
        fun s ha => moves_duplicateForUser co ha root user actor fun ho => absurd ho hop
      exact hduplicate.bind fun _ => walks_pure _
  | retrieveForExecution root actor =>
      exact (walks_retrieveForExecution root actor).bind fun _ => walks_pure _
  | retrieveForTarget root target =>
      exact (walks_retrieveForTarget root target).bind fun _ => walks_pure _
  | reloadApps actor => exact (walks_reloadApps hco actor).bind fun _ => walks_pure _
  | autoload => exact (walks_autoload hco).bind fun _ => walks_pure _
  | shutdown => exact walks_shutdown
  | _ => exact absurd trivial hidle

/-- Every operation is made of steps. -/
theorem Operation.steps (hco : co.catalogue.Follows suits) (op : Operation β) {s : Server σ β}
    (ha : Server.Arena suits s) : Steps suits s ((op.run co).exec s) :=
  Moves.steps ha (op.walks hco (fun h : False => h.elim) ha)

namespace Server

variable {allowed : Catalogue → Prop} {s : Server σ β}

/-- What a new server has and every step keeps, all reachable servers have. -/
theorem Reachable.induction {P : Server σ β → Prop}
    (hallowed : ∀ c, allowed c → c.Follows suits)
    (hnew : ∀ store settings, P (Server.new store settings))
    (hstep : ∀ s t, Arena suits s → P s → Step suits s t → P t) (h : Reachable allowed s) :
    Arena suits s ∧ P s := by
  induction h with
  | new store settings => exact ⟨arena_new store settings, hnew store settings⟩
  | step hs co hco op ih =>
      obtain ⟨ha, hp⟩ := ih
      have hsteps := op.steps (hallowed co.catalogue hco) ha
      exact ⟨Steps.arena ha hsteps, Steps.induction hstep ha hp hsteps⟩

/-- Operations are made of moves, and orderly operations of orderly moves. -/
theorem Leads.moves {orderly : Prop} {kind : Operation β → Prop} {t : Server σ β}
    (hallowed : ∀ c, allowed c → c.Follows suits) (hkind : orderly → ∀ op, kind op → op.IsOrderly)
    (ha : Arena suits s) (h : Leads allowed kind s t) : Moves suits orderly s t := by
  induction h with
  | refl => exact .refl
  | tail _ hlast ih =>
      obtain ⟨co, op, hco, hop, rfl⟩ := hlast
      exact ih.trans (op.walks (hallowed co.catalogue hco) (fun ho => hkind ho op hop)
        (Moves.arena ha ih))

/-- Operations are made of steps, of whatever kind they are. -/
theorem Leads.steps {kind : Operation β → Prop} {t : Server σ β}
    (hallowed : ∀ c, allowed c → c.Follows suits) (ha : Arena suits s)
    (h : Leads allowed kind s t) : Steps suits s t :=
  Moves.steps ha (h.moves hallowed (fun h : False => h.elim) ha)

/-- The arena of a reachable server is in order. -/
theorem Reachable.arena (hallowed : ∀ c, allowed c → c.Follows suits)
    (h : Reachable allowed s) : Arena suits s :=
  (h.induction (P := fun _ => True) hallowed (fun _ _ => trivial)
    fun _ _ _ _ _ => trivial).1

end Server

/-! ## Plain collaborators -/

/-- An evaluator for which every function stands for the same script, and modules for nothing. -/
def Evaluator.always (script : Script β (Except EvalError Value)) : Evaluator β where
  runModule _ _ := .done (.ok .null)
  callFunction _ _ _ := script
  accepts f arguments := f.acceptsArity arguments
  produce _ _ := .null

/-- Collaborators in a world without players, where texts have no tokens and no outbox is open. -/
def Collaborators.plain (evaluator : Evaluator β) (catalogue : Catalogue) : Collaborators β where
  evaluator
  tokenize _ := .ok []
  catalogue
  world := { serverActor := .server, findPlayer := fun _ => none }
  isOpen _ := false

/-- A market in which each of two users has a host: the app has the number 1, and the hosts of the
users have the numbers 2 and 3. -/
def marketOperations : List (Operation Unit) :=
  [.createApplication (some { name := "market", code := some "" }) true .server,
    .duplicateForUser 1 "ann" (.player "ann" 1), .duplicateForUser 1 "bob" (.player "bob" 2)]

/-- The catalogue with the market. -/
def marketCatalogue : Catalogue :=
  (MemoryModules.ofList [{ name := "market", code := some "" }]).catalogue

end ScriptHost
