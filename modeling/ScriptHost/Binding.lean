import ScriptHost.Value
/-!
# Bindings

What a variable or a parameter stands for: a value, or a producer that is asked for a value each
time one is needed.  Producers are kept by the host that defined them, in the order of their
definition, and a binding names its producer by its place there.
-/

namespace ScriptHost

/-- What a variable or a parameter stands for. -/
inductive Binding where
  | value (v : Value)
  /-- The host's producer with this index. -/
  | deferred (index : Nat)
deriving Inhabited

/-- A source of values, known by its label, that has been asked `evaluations` times. -/
structure Producer where
  label : String
  evaluations : Nat := 0
deriving DecidableEq, Repr

end ScriptHost
