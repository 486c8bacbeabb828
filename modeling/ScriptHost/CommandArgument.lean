import ScriptHost.Value
import ScriptHost.Text.Lowercase
/-!
# Command arguments

An app may declare argument types of its own in its configuration.  Each is based on one of the
known types and is described by a map: `type` names the base type, `suggest` lists suggestions, and
the other keys are options of the base type.
-/

namespace ScriptHost

/-- An argument type that an app has declared. -/
structure CommandArgument where
  name : String
  baseType : String
  suggestions : List Value
  options : Entries

/-- Why a description of an argument type is refused. -/
inductive ArgumentError where
  | missingType (name : String)
  | invalidType (name : String) (given : Value)
  | unknownType (name baseType : String)
  | invalidSuggestions (name : String)

namespace ArgumentError

/-- The wording of the error. -/
def message : ArgumentError → String
  | missingType name => s!"Custom type \x27{name}\x27 should define \x27type\x27"
  | invalidType name given =>
    s!"Custom type \x27{name}\x27 has an invalid \x27type\x27: {given.text}"
  | unknownType name baseType =>
    s!"Unknown base type \x27{baseType}\x27 for custom type \x27{name}\x27"
  | invalidSuggestions name => s!"\x27suggest\x27 for custom type \x27{name}\x27 should be a list"

end ArgumentError

namespace CommandArgument

/-- The types that an argument can be based on. -/
def knownTypes : List String :=
  ["bool", "int", "float", "string", "term", "text", "pos", "block", "entities", "players", "item",
    "dimension", "identifier", "uuid", "message"]

/-- The base type that a description names, in small letters. -/
def baseType? (name : String) (spec : Entries) : Except ArgumentError String :=
  match spec.lookup "type" with
  | none => .error (.missingType name)
  | some (.str t) =>
    let base := Text.lowercase t
    if base ∈ knownTypes then .ok base else .error (.unknownType name base)
  | some other => .error (.invalidType name other)

/-- The suggestions that a description lists; none unless it has the key. -/
def suggestions? (name : String) (spec : Entries) : Except ArgumentError (List Value) :=
  match spec.lookup "suggest" with
  | none => .ok []
  | some (.list items) => .ok items
  | some _ => .error (.invalidSuggestions name)

/-- The argument type that a description declares. -/
def ofSpec (name : String) (spec : Entries) : Except ArgumentError CommandArgument := do
  let baseType ← baseType? name spec
  let suggestions ← suggestions? name spec
  return {
    name, baseType, suggestions
    options := spec.filter fun entry => entry.1 != "type" && entry.1 != "suggest" }

end CommandArgument

end ScriptHost
