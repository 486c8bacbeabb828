import ScriptHost.Event
/-!
# Hooks

Names of functions that mean something to the host.  A name that begins with two underscores is
reserved; of the reserved names, one is the configuration function, one is called when a host is
torn down, and those made from the name of a built-in event are called when the event fires.
-/

namespace ScriptHost

/-- What the host makes of the name of a function. -/
inductive HookKind where
  | config
  | event (e : Event)
  | close
  /-- A reserved name without a meaning. -/
  | reserved
  | plain
deriving DecidableEq, Repr

namespace HookKind

/-- The name of the configuration function. -/
def configName : String := "__config"

/-- The name of the function that is called when a host is torn down. -/
def closeName : String := "__on_close"

/-- The name of the function that is called when an event fires. -/
def eventHookName (e : Event) : String := "__on_" ++ e.name

/-- Whether a name is reserved for the host. -/
def isReserved (name : String) : Bool := "__".toList.isPrefixOf name.toList

/-- What the host makes of the name of a function. -/
def ofName (name : String) : HookKind :=
  if name = configName then config
  else if name = closeName then close
  else
    match Event.all.find? fun e => eventHookName e == name with
    | some e => event e
    | none => if isReserved name then reserved else plain

end HookKind

end ScriptHost
