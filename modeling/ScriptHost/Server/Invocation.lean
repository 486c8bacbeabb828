import ScriptHost.Configuration
import ScriptHost.Server.Storage
import ScriptHost.TextArguments
/-!
# Calls and evaluations

The three ways into the functions of an app: a call with values, a call with arguments as text, and
a hook that the server itself calls.  All of them do nothing while execution is halted.  Code that
runs asks for more by queries, which are answered here; some of the answers run code in turn.

## Main definitions

* `ServerM.call`, `ServerM.callText`, `ServerM.callHook`: the three ways.
* `ServerM.define`, `ServerM.delete`: what happens when a function is defined or removed.
* `ServerM.answer`: the answers to queries.
* `ServerM.runScript`: the evaluation of a script, with a bound on how deep evaluations may nest.

The operations take the way to run a script as an argument, since some of them are used while
answering the queries of a script.
-/

namespace ScriptHost

/-- A way to run the script of an evaluation. -/
abbrev Runner (σ β : Type) :=
  Frame → Script β (Except EvalError Value) → ServerM σ β (Except EvalError Value)

namespace ServerM

variable {σ β : Type}

/-! ## Asking the evaluator -/

/-- Has the code of a module run. -/
def runModule (co : Collaborators β) (run : Runner σ β) (frame : Frame) (module : Module) :
    ServerM σ β (Except EvalError Value) := do
  record (.asked frame (.runModule module))
  run frame (co.evaluator.runModule frame module)

/-- Has a function of a host called. -/
def evaluate (co : Collaborators β) (run : Runner σ β) (frame : Frame) (f : StoredFunction β)
    (arguments : List Binding) : ServerM σ β (Except ScriptError Value) := do
  match ← host? frame.host with
  | none => return .error (.contract (.unknownHost frame.host))
  | some _ =>
    record (.asked frame (.call f arguments))
    return (← run frame (co.evaluator.callFunction frame f arguments)).mapError .ofEval

/-- The value that a binding stands for under a host. -/
def force (co : Collaborators β) (id : HostId) : Binding → ServerM σ β Value
  | .value v => return v
  | .deferred index => do
    match (← host? id).bind (·.producers[index]?) with
    | none => return .null
    | some producer =>
      let producer := { producer with evaluations := producer.evaluations + 1 }
      modifyHost id fun h => { h with producers := h.producers.set index producer }
      record (.forced producer.label)
      return co.evaluator.produce producer.label producer.evaluations

/-! ## Ways into a function -/

/-- Checks the number of arguments.  Only to explain a mismatch are the arguments looked at. -/
def checkArity (co : Collaborators β) (id : HostId) (head : String) (f : StoredFunction β)
    (arguments : List Binding) : ServerM σ β (Except ScriptError Unit) := do
  if arguments.length = f.arity then return .ok ()
  let values ← arguments.mapM (force co id)
  return .error (.invocation (.wrongArity head f.parameters values))

/-- Calls a function after a check of its arguments. -/
def callChecked (co : Collaborators β) (run : Runner σ β) (frame : Frame) (head : String)
    (f : StoredFunction β) (arguments : List Binding) : ServerM σ β (Except ScriptError Value) := do
  match ← checkArity co frame.host head f arguments with
  | .error e => return .error e
  | .ok () => evaluate co run frame f arguments

/-- Calls a function with values. -/
def callWith (co : Collaborators β) (run : Runner σ β) (id : HostId) (actor : Actor)
    (f : StoredFunction β) (values : List Value) : ServerM σ β (Except ScriptError Value) := do
  if (← get).isStopped then return .error .paused
  callChecked co run { host := id, actor } f.pretty f (values.map .value)

/-- Calls a function of a host by name, with coordinates and a text as arguments. -/
def callTextWith (co : Collaborators β) (run : Runner σ β) (id : HostId) (actor : Actor)
    (name : String) (coords : List Int) (text : String) :
    ServerM σ β (Except ScriptError Value) := do
  if (← get).isStopped then return .error .paused
  let h ← host? id
  match h.bind (·.function? name) with
  | none => return .error (.invocation (.undefinedFunction name))
  | some f =>
    match co.tokenize text with
    | .error e => return .error (.ofEval e)
    | .ok tokens =>
      match TextArguments.bind (fun v => h.bind (·.global? v)) coords tokens with
      | .error e => return .error (.invocation e)
      | .ok arguments => callChecked co run { host := id, actor } name f arguments

/-- Calls a hook.  The function itself says whether it accepts the arguments.  A failure of its code
is reported and counts as null. -/
def callHookWith (co : Collaborators β) (run : Runner σ β) (frame : Frame) (f : StoredFunction β)
    (values : List Value) : ServerM σ β (Except InvalidCallback Value) := do
  if (← get).isStopped then return .ok .null
  match co.evaluator.accepts f values with
  | .error reason => return .error { function := f.name, reason }
  | .ok () =>
    match ← evaluate co run frame f (values.map .value) with
    | .ok value => return .ok value
    | .error e =>
      reportFailure co frame.host "Callback failed" e
      return .ok .null

/-! ## Definitions -/

/-- Calls the configuration function of a host, and takes over its answer. -/
def readConfig (co : Collaborators β) (run : Runner σ β) (id : HostId) :
    ServerM σ β (Except ScriptError Unit) := do
  match (← host? id).bind (·.function? HookKind.configName) with
  | none => return .ok ()
  | some hook =>
    match ← callHookWith co run { host := id, actor := co.world.serverActor } hook [] with
    | .error _ => return .error (.contract .invalidConfig)
    | .ok value =>
      match Configuration.ofValue value with
      | .error e => return .error (.contract e)
      | .ok configuration =>
        modifyHost id (·.configure configuration)
        return .ok ()

/-- Defines a function under a host.  In the main module the names of hooks have an effect: the
configuration function of a root is called at once, and event hooks are bound to their events. -/
def defineWith (co : Collaborators β) (run : Runner σ β) (id : HostId) (f : StoredFunction β) :
    ServerM σ β (Except ScriptError Unit) := do
  match ← host? id with
  | none => return .error (.contract (.unknownHost id))
  | some h =>
    modifyHost id (·.insertFunction f)
    if moduleKey f.module ≠ h.mainKey then return .ok ()
    match HookKind.ofName f.name with
    | .event event =>
      let binding : EventBinding := { host := id, function := f.name }
      modify fun s => { s with dispatch := s.dispatch.bind event binding }
      return .ok ()
    | .config => if h.isRoot then readConfig co run id else return .ok ()
    | .close | .reserved | .plain => return .ok ()

/-- Removes a function of a module under a host.  The name of an event hook is taken back from its
event. -/
def delete (id : HostId) (module : Option String) (name : String) : ServerM σ β Unit := do
  if let some _ ← host? id then
    modifyHost id (·.eraseFunction module name)
    if let .event event := HookKind.ofName name then
      let binding : EventBinding := { host := id, function := name }
      modify fun s => { s with dispatch := s.dispatch.unbind event binding }

/-- The module of a name in the catalogue.  A source that cannot be read is noted in the log. -/
def findModule (co : Collaborators β) (name : String) (allowLibrary : Bool) :
    ServerM σ β (Option Module) := do
  let finding := co.catalogue.find name allowLibrary
  finding.warning.forM (log .warn)
  return finding.found

/-- Runs the code of a library under a host, unless that has been done before. -/
def importModule (co : Collaborators β) (run : Runner σ β) (frame : Frame) (name : String) :
    ServerM σ β (Except EvalError Unit) := do
  match (← findModule co name true).filter (·.code.isSome) with
  | none => return .error (.internal s!"Unable to locate package: {name}")
  | some module =>
    match ← host? frame.host with
    | none => return .error (.internal "host is gone")
    | some h =>
      if h.imported.contains module.name then return .ok ()
      modifyHost frame.host (·.markImported module.name)
      return (← runModule co run frame module).map fun _ => ()

/-! ## Scripts -/

/-- A failure of storage as a failure of script code. -/
def storeFailure (e : StoreError) : EvalError := .runtime e.chainText

variable [StateStore σ]

/-- Answers a query of code that runs under a host. -/
def answer (co : Collaborators β) (run : Runner σ β) (frame : Frame) :
    (q : Query β) → ServerM σ β q.Answer
  | .host => host? frame.host
  | .isStopped => return (← get).isStopped
  | .define f =>
    return (← defineWith co run frame.host f).mapError fun e => EvalError.internal e.message
  | .delete module name => delete frame.host module name
  | .setGlobal module name binding => modifyHost frame.host (·.setGlobal module name binding)
  | .defer label => do
    match ← host? frame.host with
    | none => return .value .null
    | some h =>
      let (binding, h) := h.addProducer label
      insertHost h
      return binding
  | .force binding => force co frame.host binding
  | .importModule name => importModule co run frame name
  | .writeState blob => return (← writeGlobalState frame.host blob).mapError storeFailure
  | .readTag file shared => return (← readTag frame.host file shared).mapError storeFailure
  | .writeTag blob file shared =>
    return (← writeTag frame.host blob file shared).mapError storeFailure
  | .appendLog file shared typeName lines =>
    return (← appendLog frame.host file shared typeName lines).mapError storeFailure
  | .readText file shared => return (← readText frame.host file shared).mapError storeFailure
  | .remove file shared typeName =>
    return (← remove frame.host file shared typeName).mapError storeFailure
  | .note text => record (.noted text)

/-- Runs a script whose evaluations nest at most `depth` deep. -/
def runScript (co : Collaborators β) : Nat → Runner σ β
  | 0 => fun _ _ => return .error (.internal "evaluations are nested too deeply")
  | depth + 1 => fun frame script => script.interpret (answer co (runScript co depth) frame)

/-- How deep evaluations may nest. -/
def maxDepth : Nat := 1000

/-- The way in which operations on a server run scripts. -/
def runner (co : Collaborators β) : Runner σ β := runScript co maxDepth

/-! ## Calls from outside -/

/-- Calls a function with values. -/
def call (co : Collaborators β) (id : HostId) (actor : Actor) (f : StoredFunction β)
    (values : List Value) : ServerM σ β (Except ScriptError Value) :=
  callWith co (runner co) id actor f values

/-- Calls a function of a host by name, with coordinates and a text as arguments. -/
def callText (co : Collaborators β) (id : HostId) (actor : Actor) (name : String)
    (coords : List Int) (text : String) : ServerM σ β (Except ScriptError Value) :=
  callTextWith co (runner co) id actor name coords text

/-- Calls a hook. -/
def callHook (co : Collaborators β) (frame : Frame) (f : StoredFunction β) (values : List Value) :
    ServerM σ β (Except InvalidCallback Value) :=
  callHookWith co (runner co) frame f values

/-- Defines a function under a host. -/
def define (co : Collaborators β) (id : HostId) (f : StoredFunction β) :
    ServerM σ β (Except ScriptError Unit) :=
  defineWith co (runner co) id f

/-- What a report on a failure says was going on. -/
def intro (usual : String) (e : ScriptError) : String :=
  if e.isArithmetic then "Math doesn\x27t compute" else usual

/-- The value of a command, or null after its failure has been reported. -/
def reportCommand (co : Collaborators β) (id : HostId) (result : Except ScriptError Value) :
    ServerM σ β Value := do
  match result with
  | .ok value => return value
  | .error e =>
    reportFailure co id (intro "Error while running custom command" e) e
    return .null

/-- Calls a function with values for a command. -/
def command (co : Collaborators β) (id : HostId) (actor : Actor) (f : StoredFunction β)
    (values : List Value) : ServerM σ β Value := do
  reportCommand co id (← call co id actor f values)

/-- Calls a function of a host by name for a command. -/
def commandText (co : Collaborators β) (id : HostId) (actor : Actor) (name : String)
    (coords : List Int) (text : String) : ServerM σ β Value := do
  reportCommand co id (← callText co id actor name coords text)

end ServerM

end ScriptHost
