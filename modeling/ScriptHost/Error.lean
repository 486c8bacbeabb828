import ScriptHost.CommandArgument
import ScriptHost.HostId
import ScriptHost.Token
/-!
# What can go wrong

Two kinds of failure.  An `EvalError` is raised while script code runs; it may know the place in the
source and the functions that were active.  A `ScriptError` is what the host's own operations
answer: an evaluation failure among others.

## Main definitions

* `EvalError`, `ScriptError`: the failures, with one constructor per cause.
* `ScriptError.message`: their wording.
* `InvocationError.arityRows`: parameters and arguments side by side, for a call with the wrong
  number of arguments.
-/

namespace ScriptHost

/-! ## Failures of script code -/

/-- The kind of failure that an evaluation ended with. -/
inductive EvalErrorKind where
  /-- A failure of the script itself. -/
  | runtime
  /-- The script broke a rule of the host. -/
  | internal
  /-- A numeric operation outside its domain. -/
  | arithmetic
deriving DecidableEq, Repr

/-- The source text that an error points into; code typed by hand belongs to no module. -/
structure SourceText where
  module : Option String
  code : String
deriving DecidableEq, Repr

/-- A function that was active when an error was raised. -/
structure StackFrame where
  function : String
  token : Option Token
deriving DecidableEq, Repr

/-- A failure of script code. -/
structure EvalError where
  kind : EvalErrorKind
  message : String
  source : Option SourceText := none
  token : Option Token := none
  /-- The active functions, innermost first. -/
  stack : List StackFrame := []
deriving DecidableEq, Repr

namespace EvalError

/-- A failure of the script itself. -/
def runtime (message : String) : EvalError := { kind := .runtime, message }

/-- A breach of a rule of the host. -/
def internal (message : String) : EvalError := { kind := .internal, message }

end EvalError

/-! ## Failures of the host's operations -/

/-- Why an app did not load. -/
inductive LoadReason where
  | appNotFound
  | codeNotFound
  | other (text : String)
deriving DecidableEq, Repr

namespace LoadReason

/-- The wording of the reason. -/
def message : LoadReason → String
  | appNotFound => "app not found"
  | codeNotFound => "code not found"
  | other text => text

end LoadReason

/-- A rule of the host that was broken. -/
inductive ContractError where
  | unknownHost (id : HostId)
  /-- The configuration function refused the call or did not answer with a map. -/
  | invalidConfig
  /-- The configured arguments are not a map. -/
  | argumentsNotMap
  /-- The description of an argument type is not a map. -/
  | specNotMap (name : String)
  | invalidArgument (cause : ArgumentError)
  | other (text : String)

namespace ContractError

/-- The wording of the error. -/
def message : ContractError → String
  | unknownHost id => s!"unknown host {id.text}"
  | invalidConfig => "Invalid app config (via \x27__config()\x27 function)"
  | argumentsNotMap => "\x27arguments\x27 element in config should be a map"
  | specNotMap name => s!"Spec for \x27{name}\x27 should be a map"
  | invalidArgument cause => cause.message
  | other text => text

end ContractError

/-- What is wrong with a call that a user has asked for. -/
inductive InvocationError where
  /-- A call of a function, shown as `head`, with the wrong number of arguments. -/
  | wrongArity (head : String) (parameters : List String) (arguments : List Value)
  | undefinedFunction (name : String)
  | notANumber (text : String)
  | operatorRefused (surface : String)
  | functionRefused (surface : String)
  | tokenRefused (surface : String)
  | other (text : String)

namespace InvocationError

/-- What stands in for a parameter or an argument that is missing. -/
def missing : String := "??"

/-- Pairs each parameter with its argument; the shorter list is filled up. -/
def arityRows : List String → List String → List (String × String)
  | [], [] => []
  | p :: ps, [] => (p, missing) :: arityRows ps []
  | [], v :: vs => (missing, v) :: arityRows [] vs
  | p :: ps, v :: vs => (p, v) :: arityRows ps vs

/-- One row of the report on a wrong number of arguments. -/
def rowText (row : String × String) : String := row.1 ++ " => " ++ row.2 ++ "\n"

/-- The report on a wrong number of arguments: a headline and one row for each parameter or
argument. -/
def arityReport (head : String) (parameters : List String) (arguments : List Value) : String :=
  s!"Fail: stored function {head} takes {parameters.length} arguments, not {arguments.length}:\n"
    ++ String.join ((arityRows parameters (arguments.map Value.text)).map rowText)

/-- The wording of the error. -/
def message : InvocationError → String
  | wrongArity head parameters arguments => arityReport head parameters arguments
  | undefinedFunction name => s!"Fail: function {name} is undefined"
  | notANumber text =>
    s!"Fail: {text} seems like a number but it is not a number. Use quotes to ensure its a string"
  | operatorRefused surface => s!"Fail: operators, like {surface} are not allowed in invoke"
  | functionRefused surface => s!"Fail: passing functions like {surface}() to invoke is not allowed"
  | tokenRefused surface => s!"Fail: {surface} is not allowed in invoke"
  | other text => text

/-- A report on the arity has as many rows as the longer of the two lists. -/
theorem length_arityRows (ps vs : List String) :
    (arityRows ps vs).length = max ps.length vs.length := by
  fun_induction arityRows ps vs <;> simp_all

end InvocationError

/-- A hook that does not accept the arguments it was called with. -/
structure InvalidCallback where
  function : String
  reason : String
deriving DecidableEq, Repr

/-- The wording of the refusal. -/
def InvalidCallback.message (e : InvalidCallback) : String :=
  s!"Invalid callback {e.function}: {e.reason}"

/-- A failure of one of the host's operations. -/
inductive ScriptError where
  | loadFailure (module : String) (reason : LoadReason)
  | evaluation (cause : EvalError)
  | contract (cause : ContractError)
  | arithmetic (text : String)
  | invocation (cause : InvocationError)
  | invalidCallback (cause : InvalidCallback)
  /-- Script execution is halted. -/
  | paused

namespace ScriptError

/-- The failure of an operation whose script code failed. -/
def ofEval (e : EvalError) : ScriptError :=
  match e.kind with
  | .arithmetic => arithmetic e.message
  | .runtime | .internal => evaluation e

/-- The wording of the failure. -/
def message : ScriptError → String
  | loadFailure module reason => s!"Unable to load {module} app - {reason.message}"
  | evaluation cause => cause.message
  | contract cause => cause.message
  | arithmetic text => text
  | invocation cause => cause.message
  | invalidCallback cause => cause.message
  | paused => "SCRIPTS PAUSED"

/-- The failure of script code behind this failure, with its place and stack. -/
def evaluation? : ScriptError → Option EvalError
  | evaluation cause => some cause
  | _ => none

/-- Whether the failure is a numeric operation outside its domain. -/
def isArithmetic : ScriptError → Bool
  | arithmetic _ => true
  | _ => false

end ScriptError

end ScriptHost
