import ScriptHost.Error
import ScriptHost.Host
/-!
# Scripts

What the code of an app does, as the host sees it.  The host never looks into code.  An evaluation
is a tree of queries: the code asks the host for something, goes on with the answer, and ends with a
value or a failure.  Nothing else of the host can be reached, so what a query may read and change is
all that code may read and change.

## Main definitions

* `Frame`: on whose behalf code runs, and where.
* `Query`, `Query.Answer`: what code may ask, and the type of the answer.
* `Script`: an evaluation.
* `Evaluator`: the evaluations that modules and functions stand for.
-/

namespace ScriptHost

/-- On whose behalf code runs: the host that its definitions go to, the actor who asked for it, and
the place it was asked from. -/
structure Frame where
  host : HostId
  actor : Actor
  origin : BlockPos := .origin
deriving DecidableEq, Repr

/-- What code may ask of the host that it runs under. -/
inductive Query (β : Type) where
  /-- The host itself. -/
  | host
  /-- Whether execution is halted. -/
  | isStopped
  /-- To define a function. -/
  | define (function : StoredFunction β)
  /-- To remove a function of a module. -/
  | delete (module : Option String) (name : String)
  /-- To set a variable of a module. -/
  | setGlobal (module : Option String) (name : String) (binding : Binding)
  /-- A binding that stands for a new producer. -/
  | defer (label : String)
  /-- The value that a binding stands for. -/
  | force (binding : Binding)
  /-- To run the code of a library, once. -/
  | importModule (name : String)
  /-- To replace the app's global state. -/
  | writeState (blob : Option Blob)
  /-- The blob of a file, or global state when no file is named. -/
  | readTag (file : Option String) (shared : Bool)
  /-- To replace the blob of a file, or global state when no file is named. -/
  | writeTag (blob : Blob) (file : Option String) (shared : Bool)
  /-- To add lines to a file. -/
  | appendLog (file : String) (shared : Bool) (typeName : String) (lines : List String)
  /-- The lines of a file. -/
  | readText (file : String) (shared : Bool)
  /-- To remove a file. -/
  | remove (file : String) (shared : Bool) (typeName : String)
  /-- To leave a note in the journal. -/
  | note (text : String)

/-- The type of the answer to a query. -/
abbrev Query.Answer {β : Type} : Query β → Type
  | .host => Option (Host β)
  | .isStopped => Bool
  | .define _ => Except EvalError Unit
  | .delete _ _ => Unit
  | .setGlobal _ _ _ => Unit
  | .defer _ => Binding
  | .force _ => Value
  | .importModule _ => Except EvalError Unit
  | .writeState _ => Except EvalError Bool
  | .readTag _ _ => Except EvalError (Option Blob)
  | .writeTag _ _ _ => Except EvalError Bool
  | .appendLog _ _ _ _ => Except EvalError Bool
  | .readText _ _ => Except EvalError (Option (List String))
  | .remove _ _ _ => Except EvalError Bool
  | .note _ => Unit

/-- An evaluation: a result, or a query and how to go on with its answer. -/
inductive Script (β α : Type) where
  | done (a : α)
  | ask (q : Query β) (next : q.Answer → Script β α)

namespace Script

variable {β α γ : Type}

/-- Goes on with the result of a script. -/
def bind (s : Script β α) (f : α → Script β γ) : Script β γ :=
  match s with
  | done a => f a
  | ask q next => ask q fun a => (next a).bind f

instance : Monad (Script β) where
  pure := done
  bind := bind

/-- The script of a single query. -/
def query (q : Query β) : Script β q.Answer := ask q done

/-- Runs a script by answering its queries one after the other. -/
def interpret {m : Type → Type} [Monad m] (answer : (q : Query β) → m q.Answer) :
    Script β α → m α
  | done a => pure a
  | ask q next => do
    let a ← answer q
    (next a).interpret answer

end Script

/-- Gives code its meaning. -/
structure Evaluator (β : Type) where
  /-- The evaluation of the code of a module. -/
  runModule : Frame → Module → Script β (Except EvalError Value)
  /-- The evaluation of a function with its arguments. -/
  callFunction : Frame → StoredFunction β → List Binding → Script β (Except EvalError Value)
  /-- Whether a function may be called back with some arguments. -/
  accepts : StoredFunction β → List Value → Except String Unit
  /-- The value that a producer gives when it is asked for the `n`-th time. -/
  produce : String → Nat → Value

/-- The plainest rule for callbacks: as many arguments as parameters. -/
def StoredFunction.acceptsArity {β : Type} (f : StoredFunction β) (arguments : List Value) :
    Except String Unit :=
  if arguments.length = f.arity then .ok ()
  else .error s!"{f.pretty} takes {f.arity} arguments, not {arguments.length}"

end ScriptHost
