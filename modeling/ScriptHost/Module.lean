/-!
# Modules

A module is a named piece of script source.  An app is loaded by its name; a library is only ever
imported by other modules.
-/

namespace ScriptHost

/-- A piece of script source under a name.  The code is absent when the module is known but its
source could not be had. -/
structure Module where
  name : String
  code : Option String
  isLibrary : Bool := false
deriving DecidableEq, Repr

end ScriptHost
