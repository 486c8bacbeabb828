/-!
# Actors

Whoever a script runs for: the server itself, its console, or a player.  The console and players
have an outbox, through which messages reach them as long as it is open.
-/

namespace ScriptHost

/-- A place in the world, in whole blocks. -/
structure BlockPos where
  x : Int
  y : Int
  z : Int
deriving DecidableEq, Repr

/-- The place that calls without a place of their own are made from. -/
def BlockPos.origin : BlockPos := ⟨0, 0, 0⟩

/-- The number of an outbox. -/
abbrev Outbox := Nat

/-- Whoever a script runs for. -/
inductive Actor where
  | server
  | console (outbox : Outbox)
  | player (name : String) (outbox : Outbox)
deriving DecidableEq, Repr

namespace Actor

/-- The name that others see.  The console speaks as the server. -/
def name : Actor → String
  | server => "Server"
  | console _ => "Server"
  | player name _ => name

/-- Whether the actor is a player. -/
def isPlayer : Actor → Bool
  | player _ _ => true
  | _ => false

/-- The user that an actor is: only players are users. -/
def user? : Actor → Option String
  | player name _ => some name
  | _ => none

/-- The way to send the actor a message. -/
def outbox? : Actor → Option Outbox
  | server => none
  | console outbox => some outbox
  | player _ outbox => some outbox

/-- Whether a message to the actor arrives, given which outboxes are open. -/
def isReachable (isOpen : Outbox → Bool) (a : Actor) : Bool := a.outbox?.any isOpen

/-- Whether two actors are the same to others, whatever their outboxes. -/
def sameIdentity (a b : Actor) : Bool := a.name == b.name && a.isPlayer == b.isPlayer

end Actor

end ScriptHost
