import Std.Data.ExtTreeMap
import ScriptHost.Text.Lowercase
/-!
# Resource keys

What names a piece of stored data: the module that owns it, its name, the form it is kept in, and
whether every app may use it.  A key without a name is the slot of a module's global state.
-/

namespace ScriptHost

/-- The form of a resource: opaque data, or lines of text. -/
inductive ResourceKind where
  | tag
  | text
deriving DecidableEq, Repr

namespace ResourceKind

/-- The form that scripts ask for by a type name: only `nbt`, in any case, is opaque data. -/
def ofTypeName (name : String) : ResourceKind :=
  if Text.equalIgnoringCase name "nbt" then tag else text

/-- The extension of the file of a resource. -/
def extension : ResourceKind → String
  | tag => "nbt"
  | text => "txt"

/-- The place of a form in the order of keys. -/
def rank : ResourceKind → Nat
  | tag => 0
  | text => 1

theorem rank_inj {a b : ResourceKind} : a.rank = b.rank ↔ a = b := by
  cases a <;> cases b <;> decide

end ResourceKind

/-- The name of a piece of stored data. -/
structure ResourceKey where
  module : Option String
  file : Option String
  kind : ResourceKind
  shared : Bool
deriving DecidableEq, Repr

namespace ResourceKey

/-- The slot of a module's global state. -/
def globalState (module : String) : ResourceKey :=
  { module := some module, file := none, kind := .tag, shared := false }

/-- A named resource.  Shared resources belong to no module. -/
def resource (module : Option String) (file : String) (kind : ResourceKind) (shared : Bool) :
    ResourceKey :=
  { module := if shared then none else module, file := some file, kind, shared }

/-- Each module has a slot of its own. -/
theorem globalState_inj {m n : String} : globalState m = globalState n ↔ m = n :=
  ⟨fun h => Option.some.inj (congrArg ResourceKey.module h), congrArg globalState⟩

/-- A named resource is not the slot of a module. -/
theorem resource_ne_globalState (module : Option String) (file : String) (kind : ResourceKind)
    (shared : Bool) (m : String) : resource module file kind shared ≠ globalState m := by
  intro h
  cases congrArg ResourceKey.file h

/-- The order of keys: by module, name, form and scope, an absent part first. -/
def cmp : ResourceKey → ResourceKey → Ordering :=
  compareLex (compareOn (·.module))
    (compareLex (compareOn (·.file))
      (compareLex (compareOn (·.kind.rank)) (compareOn (·.shared))))

instance : Std.TransCmp cmp := inferInstanceAs (Std.TransCmp (compareLex _ _))

theorem cmp_eq_eq_iff {a b : ResourceKey} : cmp a b = .eq ↔ a = b := by
  obtain ⟨am, af, ak, as⟩ := a
  obtain ⟨bm, bf, bk, bs⟩ := b
  simp [cmp, compareLex, compareOn, Ordering.then_eq_eq, ResourceKind.rank_inj]

instance : Std.LawfulEqCmp cmp where
  compare_self := cmp_eq_eq_iff.2 rfl
  eq_of_compare h := cmp_eq_eq_iff.1 h

end ResourceKey

end ScriptHost
