import ScriptHost.Actor
import ScriptHost.Report.Position
/-!
# Reports of failures

What is sent to an actor when something has failed on its behalf, and by which way.  A report goes
to the actor's outbox.  An actor without one is the server itself, whose reports are logged; if the
outbox has been closed the report is lost.
-/

namespace ScriptHost.Report

/-- The last line of a report: what was going on, and what went wrong. -/
def headline (intro message : String) : String :=
  if message.isEmpty then intro else intro ++ ": " ++ message

/-- A line for a function that was active. -/
def frameLine (frame : StackFrame) : Message :=
  match frame.token with
  | some token => .trace s!"  ... in {frame.function} (line {token.line + 1})"
  | none => .trace s!"  ... in {frame.function}"

/-- The report of a failure to an actor: for a player the quoted source, then the active functions,
then the headline.  Only failures of script code have a source and a stack. -/
def failure (actor : Actor) (intro : String) (error : ScriptError) : List Message :=
  let context :=
    match error.evaluation? with
    | some e =>
      (if actor.isPlayer then position e.message e.source e.token else [])
        ++ e.stack.map frameLine
    | none => []
  context ++ [Message.error (headline intro error.message)]

/-- What becomes of a message to an actor. -/
inductive Delivery where
  | sent (outbox : Outbox) (message : Message)
  | logged (text : String)
  | lost
deriving DecidableEq, Repr

/-- Delivers a message, given which outboxes are open. -/
def deliver (isOpen : Outbox → Bool) (actor : Actor) (message : Message) : Delivery :=
  match actor.outbox? with
  | none => .logged message.text
  | some outbox => if isOpen outbox then .sent outbox message else .lost

end ScriptHost.Report
