import Mathlib
import ScriptHost.Proofs.Operations
/-!
# What a refused hook says shows nowhere

A hook that does not accept a call is refused with a reason.  The reason is part of the answer to
who asked for the call, and the server itself never passes it on: not to an actor, not to the log,
not to the state of a host.  This is said by comparing two servers that work with evaluators which
refuse the same calls but give other reasons.  Every operation does the same on both.

## Main definitions

* `Collaborators.reworded`: collaborators whose evaluator gives other reasons.

## Main statements

* `ServerM.callHookWith_reworded`: another reason shows in the answer to the call of a hook.
* `ServerM.runner_reworded`: it does not show in what code does.
* `Operation.run_reworded`: it shows in nothing that an operation does.
-/

namespace ScriptHost

variable {σ β : Type}

/-- Other reasons for the refusals of hooks. -/
abbrev Rewording (β : Type) := StoredFunction β → List Value → String → String

/-- Collaborators whose evaluator refuses the same calls of hooks, but gives other reasons. -/
def Collaborators.reworded (co : Collaborators β) (reword : Rewording β) : Collaborators β :=
  { co with
    evaluator := { co.evaluator with
      accepts := fun f values => (co.evaluator.accepts f values).mapError (reword f values) } }

namespace ServerM

variable (co : Collaborators β) (reword : Rewording β) (run : Runner σ β)

/-! ## Hooks -/

/-- The refusal of a hook with another reason. -/
def rewordRefusal (f : StoredFunction β) (values : List Value) (x : InvalidCallback) :
    InvalidCallback :=
  { x with reason := reword f values x.reason }

/-- A hook whose refusal has another reason answers with that reason, and does the same. -/
theorem callHookWith_reworded (frame : Frame) (f : StoredFunction β) (values : List Value) :
    callHookWith (co.reworded reword) run frame f values =
      Except.mapError (rewordRefusal reword f values) <$> callHookWith co run frame f values := by
  have haccepts : (co.reworded reword).evaluator.accepts f values =
      (co.evaluator.accepts f values).mapError (reword f values) := rfl
  unfold callHookWith
  rw [map_bind, haccepts]
  refine congrArg (get >>= ·) (funext fun s => ?_)
  cases s.isStopped with
  | true => rfl
  | false =>
    cases co.evaluator.accepts f values with
    | error reason => rfl
    | ok _ =>
      show (evaluate co run frame f (values.map .value) >>= _) =
        _ <$> (evaluate co run frame f (values.map .value) >>= _)
      rw [map_bind]
      refine congrArg (evaluate co run frame f (values.map .value) >>= ·) (funext fun r => ?_)
      cases r <;> rfl

/-- The configuration function is called by the server, which only looks at whether it was
refused. -/
@[simp] theorem readConfig_reworded (id : HostId) :
    readConfig (co.reworded reword) run id = readConfig co run id := by
  unfold readConfig
  refine congrArg (host? id >>= ·) (funext fun h => ?_)
  cases h.bind (·.function? HookKind.configName) with
  | none => rfl
  | some hook =>
    dsimp only
    rw [callHookWith_reworded, bind_map_left]
    refine congrArg (callHookWith co run _ hook [] >>= ·) (funext fun r => ?_)
    cases r <;> rfl

@[simp] theorem defineWith_reworded (id : HostId) (f : StoredFunction β) :
    defineWith (co.reworded reword) run id f = defineWith co run id f := by
  simp only [defineWith, readConfig_reworded]

/-! ## Code -/

variable [StateStore σ]

@[simp] theorem answer_reworded (frame : Frame) :
    answer (co.reworded reword) run frame = answer co run frame := by
  funext q
  cases q with
  | define f => simp only [answer, defineWith_reworded]
  | _ => rfl

/-- Code does the same whatever hooks are refused with, however deep evaluations nest. -/
theorem runScript_reworded (depth : Nat) :
    (runScript (co.reworded reword) depth : Runner σ β) = runScript co depth := by
  induction depth with
  | zero => rfl
  | succ depth ih =>
    funext frame script
    show script.interpret (answer (co.reworded reword) _ frame) =
      script.interpret (answer co (runScript co depth) frame)
    -- code that is run to answer a query nests one level less deep
    rw [ih, answer_reworded]

@[simp] theorem runner_reworded : (runner (co.reworded reword) : Runner σ β) = runner co :=
  runScript_reworded co reword maxDepth

/-- A hook answers with the other reason, and does the same. -/
theorem callHook_reworded (frame : Frame) (f : StoredFunction β) (values : List Value) :
    (callHook (co.reworded reword) frame f values : ServerM σ β _) =
      Except.mapError (rewordRefusal reword f values) <$> callHook co frame f values := by
  unfold callHook
  rw [callHookWith_reworded, runner_reworded]

theorem call_reworded : (call (co.reworded reword) : _ → _ → _ → _ → ServerM σ β _) = call co := by
  unfold call
  rw [runner_reworded]
  rfl

theorem callText_reworded :
    (callText (co.reworded reword) : _ → _ → _ → _ → _ → ServerM σ β _) = callText co := by
  unfold callText
  rw [runner_reworded]
  rfl

/-! ## Hosts and apps -/

/-- The answer of a close hook is left aside. -/
@[simp] theorem closeOne_reworded (id : HostId) :
    (closeOne (co.reworded reword) id : ServerM σ β Unit) = closeOne co id := by
  unfold closeOne
  simp only [callHook_reworded, bind_map_left]
  rfl

@[simp] theorem close_reworded (id : HostId) :
    (close (co.reworded reword) id : ServerM σ β Unit) = close co id := by
  have hclose : (closeOne (co.reworded reword) : HostId → ServerM σ β Unit) = closeOne co :=
    funext (closeOne_reworded co reword)
  unfold close
  rw [hclose]

@[simp] theorem start_reworded (id : HostId) (module : Module) (actor : Actor) :
    (start (co.reworded reword) id module actor : ServerM σ β _) = start co id module actor := by
  unfold start
  rw [runner_reworded]
  rfl

@[simp] theorem createApplication_reworded (module : Option Module) (perUser : Bool)
    (actor : Actor) :
    (createApplication (co.reworded reword) module perUser actor : ServerM σ β _) =
      createApplication co module perUser actor := by
  unfold createApplication
  simp only [start_reworded]
  rfl

@[simp] theorem duplicateForUser_reworded (root : HostId) (user : String) (actor : Actor) :
    (duplicateForUser (co.reworded reword) root user actor : ServerM σ β _) =
      duplicateForUser co root user actor := by
  unfold duplicateForUser
  simp only [start_reworded]

theorem retrieveForExecution_reworded (root : HostId) (actor : Actor) :
    (retrieveForExecution (co.reworded reword) root actor : ServerM σ β _) =
      retrieveForExecution co root actor := by
  unfold retrieveForExecution
  simp only [duplicateForUser_reworded]

theorem retrieveForTarget_reworded (root : HostId) (target : Option Actor) :
    (retrieveForTarget (co.reworded reword) root target : ServerM σ β _) =
      retrieveForTarget co root target := by
  unfold retrieveForTarget
  simp only [duplicateForUser_reworded]
  rfl

@[simp] theorem removeApp_reworded (name : String) :
    (removeApp (co.reworded reword) name : ServerM σ β Bool) = removeApp co name := by
  unfold removeApp
  simp only [close_reworded]

@[simp] theorem addApp_reworded (name : String) (actor : Actor) :
    (addApp (co.reworded reword) name actor : ServerM σ β _) = addApp co name actor := by
  unfold addApp
  simp only [removeApp_reworded, createApplication_reworded]
  rfl

@[simp] theorem addApps_reworded (doing : String) (actor : Actor) (names : List String) :
    (addApps (co.reworded reword) doing actor names : ServerM σ β Nat) =
      addApps co doing actor names := by
  induction names with
  | nil => rfl
  | cons name rest ih =>
    unfold addApps
    rw [addApp_reworded, ih]

theorem shutdown_reworded :
    (shutdown (co.reworded reword) : ServerM σ β Unit) = shutdown co := by
  unfold shutdown
  simp only [removeApp_reworded, close_reworded]

/-! ## Events -/

/-- Only whether an event hook was refused is looked at. -/
@[simp] theorem notify_reworded (arguments : List Value) (binding : EventBinding) :
    (notify (co.reworded reword) arguments binding : ServerM σ β Bool) =
      notify co arguments binding := by
  have htoBool : ∀ (x : Except InvalidCallback Value) (g : InvalidCallback → InvalidCallback),
      (x.mapError g).toBool = x.toBool := by
    intro x g
    cases x <;> rfl
  unfold notify
  simp only [callHook_reworded, bind_map_left, htoBool]
  rfl

@[simp] theorem notifyAll_reworded (arguments : List Value) (bindings : List EventBinding) :
    (notifyAll (co.reworded reword) arguments bindings : ServerM σ β Nat) =
      notifyAll co arguments bindings := by
  induction bindings with
  | nil => rfl
  | cons binding rest ih =>
    unfold notifyAll
    rw [notify_reworded, ih]

@[simp] theorem fireEvent_reworded (event : Event) (arguments : List Value) :
    (fireEvent (co.reworded reword) event arguments : ServerM σ β Nat) =
      fireEvent co event arguments := by
  unfold fireEvent
  simp only [notifyAll_reworded]

end ServerM

/-! ## All operations -/

variable [StateStore σ]

open ServerM

/-- What a hook is refused with shows in nothing that an operation does. -/
theorem Operation.run_reworded (co : Collaborators β) (reword : Rewording β) (op : Operation β) :
    (op.run (co.reworded reword) : ServerM σ β Unit) = op.run co := by
  cases op with
  | invoke id i =>
    cases i with
    | call actor f values => simp only [Operation.run, Invocation.run, call_reworded]
    | callText actor name coords text =>
      simp only [Operation.run, Invocation.run, callText_reworded]
    | callHook actor origin f values =>
      simp only [Operation.run, Invocation.run, callHook_reworded, bind_map_left]
    | command actor f values =>
      simp only [Operation.run, Invocation.run, ServerM.command, call_reworded]
      rfl
    | commandText actor name coords text =>
      simp only [Operation.run, Invocation.run, ServerM.commandText, callText_reworded]
      rfl
  | define id f => simp only [Operation.run, ServerM.define, runner_reworded, defineWith_reworded]
  | addApp name actor => simp only [Operation.run, addApp_reworded]
  | removeApp name => simp only [Operation.run, removeApp_reworded]
  | createApplication module perUser actor =>
    simp only [Operation.run, createApplication_reworded]
  | duplicateForUser root user actor => simp only [Operation.run, duplicateForUser_reworded]
  | retrieveForExecution root actor => simp only [Operation.run, retrieveForExecution_reworded]
  | retrieveForTarget root target => simp only [Operation.run, retrieveForTarget_reworded]
  | close id => simp only [Operation.run, close_reworded]
  | reloadApps actor => simp only [Operation.run, ServerM.reloadApps, addApps_reworded]
  | autoload =>
    simp only [Operation.run, ServerM.autoload, addApps_reworded]
    rfl
  | shutdown => simp only [Operation.run, shutdown_reworded]
  | fireEvent event arguments => simp only [Operation.run, fireEvent_reworded]
  | tick => simp only [Operation.run, ServerM.tick, fireEvent_reworded]
  | _ => rfl

end ScriptHost
