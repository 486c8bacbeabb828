import ScriptHost.Error
import ScriptHost.Host
/-!
# The configuration of an app

What the configuration function of an app answers: a map whose `scope` says whether each player has
a host of its own, whose `stay_loaded` keeps the app when all are loaded anew, and whose `arguments`
declare argument types for commands.  A configuration is taken over as a whole or not at all.
-/

namespace ScriptHost

/-- The configuration of an app. -/
structure Configuration where
  perUser : Bool
  stayLoaded : Bool
  argTypes : List (String × CommandArgument)
  /-- The whole map. -/
  entries : Entries

namespace Configuration

/-- The scope of an app with a host for each player. -/
def playerScope : String := "player"

/-- The argument types that a list of descriptions declares. -/
def argTypesOf : Entries → Except ContractError (List (String × CommandArgument))
  | [] => .ok []
  | (name, .map spec) :: rest =>
    match CommandArgument.ofSpec name spec with
    | .ok argument => return (name, argument) :: (← argTypesOf rest)
    | .error cause => .error (.invalidArgument cause)
  | (name, _) :: _ => .error (.specNotMap name)

/-- The argument types that a configuration declares. -/
def argTypes? (entries : Entries) : Except ContractError (List (String × CommandArgument)) :=
  match entries.lookup "arguments" with
  | none => .ok []
  | some (.map arguments) => argTypesOf arguments
  | some _ => .error .argumentsNotMap

/-- Reads the answer of a configuration function. -/
def ofValue : Value → Except ContractError Configuration
  | .map entries => do
    let argTypes ← argTypes? entries
    let scope := ((entries.lookup "scope").map Value.text).getD playerScope
    return {
      perUser := Text.equalIgnoringCase scope playerScope
      stayLoaded := (entries.lookup "stay_loaded").any Value.isTrue
      argTypes
      entries }
  | _ => .error .invalidConfig

end Configuration

/-- Takes over a configuration.  Argument types that were declared before stay. -/
def Host.configure {β : Type} (h : Host β) (c : Configuration) : Host β :=
  { h with
    perUser := c.perUser
    persistenceRequired := c.stayLoaded
    argTypes := h.argTypes.insertMany c.argTypes
    config := c.entries }

end ScriptHost
