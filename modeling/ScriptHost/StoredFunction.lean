import ScriptHost.Token
/-!
# Stored functions

A function that a script has defined.  The host knows its name, its parameters and the module that
defined it; the body belongs to the evaluator, which is why its type is a parameter.
-/

namespace ScriptHost

/-- A user-defined function with a body of type `β`. -/
structure StoredFunction (β : Type) where
  name : String
  /-- The module whose code defined the function, or `none` for code typed by hand. -/
  module : Option String
  /-- The names of the parameters. -/
  parameters : List String
  token : Option Token := none
  body : β

namespace StoredFunction

variable {β : Type}

/-- The number of parameters. -/
def arity (f : StoredFunction β) : Nat := f.parameters.length

/-- The function's head, `name(a, b)`, as reports show it. -/
def pretty (f : StoredFunction β) : String :=
  f.name ++ "(" ++ ", ".intercalate f.parameters ++ ")"

/-- The name with the defining module before it, as stack traces show it. -/
def fullName (f : StoredFunction β) : String :=
  match f.module with
  | some m => m ++ "." ++ f.name
  | none => f.name

end StoredFunction

end ScriptHost
