import ScriptHost.Message
import ScriptHost.Resource.Key
import ScriptHost.Script
/-!
# The journal

What a server does that can be seen from outside: what it asks of the evaluator and of the store,
the messages that it sends, the lines that it logs.
-/

namespace ScriptHost

/-- What the evaluator is asked to do. -/
inductive Request (β : Type) where
  | runModule (module : Module)
  | call (function : StoredFunction β) (arguments : List Binding)

/-- A change that the store is asked for. -/
inductive StoreChange where
  | write
  | append
  | delete
deriving DecidableEq, Repr

/-- How serious a line of the log is. -/
inductive LogLevel where
  | error
  | warn
  | info
deriving DecidableEq, Repr

/-- Something that a server has done. -/
inductive Activity (β : Type) where
  /-- Asked the evaluator. -/
  | asked (frame : Frame) (request : Request β)
  /-- Asked a producer for a value. -/
  | forced (label : String)
  /-- Took a note from a script. -/
  | noted (text : String)
  /-- Asked the store for a change, whether or not it came about. -/
  | stored (change : StoreChange) (key : ResourceKey)
  /-- Had the markers with a tag removed from the world. -/
  | swept (tag : String)
  | logged (level : LogLevel) (text : String)
  | sent (outbox : Outbox) (message : Message)

end ScriptHost
