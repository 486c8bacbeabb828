import ScriptHost.Server.Lifecycle
/-!
# Events and ticks

Firing an event calls every function that was bound to it when it fired.  A tick of the server fires
the tick event and then moves the save windows of all root hosts on.
-/

namespace ScriptHost.ServerM

variable {σ β : Type} [StateStore σ]

/-- Calls a function that is bound to an event.  The answer tells whether the function accepted the
call; one that is no longer defined did not. -/
def notify (co : Collaborators β) (arguments : List Value) (binding : EventBinding) :
    ServerM σ β Bool := do
  match (← host? binding.host).bind (·.function? binding.function) with
  | none => return false
  | some f =>
    let actor := (← get).actorFor co.world binding.host
    return (← callHook co { host := binding.host, actor } f arguments).toBool

/-- Calls the functions that are bound to an event, one after the other, and counts those that
accepted the call. -/
def notifyAll (co : Collaborators β) (arguments : List Value) :
    List EventBinding → ServerM σ β Nat
  | [] => return 0
  | binding :: rest => do
    let accepted ← notify co arguments binding
    return (if accepted then 1 else 0) + (← notifyAll co arguments rest)

/-- Fires an event.  Nothing is called while execution is halted. -/
def fireEvent (co : Collaborators β) (event : Event) (arguments : List Value) :
    ServerM σ β Nat := do
  let s ← get
  if s.isStopped then return 0
  notifyAll co arguments (s.dispatch.bindings event)

/-- Moves the server on by a tick. -/
def tick (co : Collaborators β) : ServerM σ β Unit := do
  let _ ← fireEvent co .tick []
  (← get).roots.forM tickHost

end ScriptHost.ServerM
