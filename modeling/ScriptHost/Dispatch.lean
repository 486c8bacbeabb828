import ScriptHost.Event
import ScriptHost.HostId
/-!
# Event subscriptions

Which functions of which hosts are called when an event fires.  The subscriptions to an event form a
set that keeps the order in which they were made: binding again neither repeats nor moves one.
-/

namespace ScriptHost

/-- A function of a host that is to be called. -/
structure EventBinding where
  host : HostId
  function : String
deriving DecidableEq, Repr

/-- The subscriptions to all events, oldest first. -/
structure EventDispatch where
  subscriptions : List (Event × EventBinding)
deriving DecidableEq, Repr

namespace EventDispatch

/-- No subscriptions. -/
def empty : EventDispatch := ⟨[]⟩

instance : EmptyCollection EventDispatch := ⟨empty⟩

instance : Inhabited EventDispatch := ⟨empty⟩

/-- The functions bound to an event, in the order in which they are called. -/
def bindings (d : EventDispatch) (event : Event) : List EventBinding :=
  (d.subscriptions.filter fun s => s.1 == event).map (·.2)

/-- Whether a function is bound to an event. -/
def isBound (d : EventDispatch) (event : Event) (binding : EventBinding) : Bool :=
  d.subscriptions.contains (event, binding)

/-- Binds a function to an event, after all others, unless it is bound already. -/
def bind (d : EventDispatch) (event : Event) (binding : EventBinding) : EventDispatch :=
  if d.isBound event binding then d else ⟨d.subscriptions ++ [(event, binding)]⟩

/-- Takes back the binding of a function to an event. -/
def unbind (d : EventDispatch) (event : Event) (binding : EventBinding) : EventDispatch :=
  ⟨d.subscriptions.filter fun s => s != (event, binding)⟩

/-- Whether there is a binding to take back. -/
def unbinds (d : EventDispatch) (event : Event) (binding : EventBinding) : Bool :=
  (d.unbind event binding).subscriptions.length != d.subscriptions.length

/-- Takes back all bindings of functions of the given hosts. -/
def unbindHosts (d : EventDispatch) (hosts : List HostId) : EventDispatch :=
  ⟨d.subscriptions.filter fun s => !hosts.contains s.2.host⟩

variable {d : EventDispatch} {event e : Event} {binding b : EventBinding}

@[simp] theorem bindings_empty : (∅ : EventDispatch).bindings event = [] := rfl

theorem mem_bindings : b ∈ d.bindings e ↔ (e, b) ∈ d.subscriptions := by
  simp only [bindings, List.mem_map, List.mem_filter, beq_iff_eq]
  constructor
  · rintro ⟨⟨e', b'⟩, ⟨hmem, rfl⟩, rfl⟩
    exact hmem
  · intro hmem
    exact ⟨(e, b), ⟨hmem, rfl⟩, rfl⟩

theorem isBound_iff : d.isBound e b = true ↔ b ∈ d.bindings e := by
  simp [isBound, mem_bindings]

end EventDispatch

end ScriptHost
