import ScriptHost.Decimal.Shortest
/-!
# Script values

The part of a script's values that the host looks into: it reads configuration maps, builds command
arguments from them, and writes values into reports.

## Main definitions

* `Value`: null, booleans, floats, texts, lists, and maps with texts as keys.
* `Value.isTrue`, `Value.toNumber?`, `Value.entries?`: how a value is read as a flag, a number, a
  map.
* `Value.text`: how a value is written.
* `Value.same`: equality, under which a NaN differs from itself.
-/

namespace ScriptHost

/-- A script value.  The entries of a map stand in the order of their keys, which differ. -/
inductive Value where
  | null
  | bool (b : Bool)
  | number (x : Float)
  | str (s : String)
  | list (items : List Value)
  | map (entries : List (String × Value))
deriving Inhabited

/-- The entries of a map of values. -/
abbrev Entries := List (String × Value)

namespace Entries

/-- Sets a key, keeping the keys in order. -/
def insert (key : String) (value : Value) : Entries → Entries
  | [] => [(key, value)]
  | (k, v) :: rest =>
    if key < k then (key, value) :: (k, v) :: rest
    else if key = k then (key, value) :: rest
    else (k, v) :: insert key value rest

/-- The map with the given entries; of several under one key the last counts. -/
def ofList (pairs : List (String × Value)) : Entries :=
  pairs.foldl (fun entries p => entries.insert p.1 p.2) []

end Entries

namespace Value

/-! ## Reading a value -/

/-- Whether the value is null. -/
def isNull : Value → Bool
  | null => true
  | _ => false

/-- How a value counts as a flag: null, false, zero and everything empty are false. -/
def isTrue : Value → Bool
  | null => false
  | bool b => b
  | number x => x != 0.0
  | str s => !s.isEmpty
  | list items => !items.isEmpty
  | map entries => !entries.isEmpty

/-- A number, or a boolean as one or zero. -/
def toNumber? : Value → Option Float
  | number x => some x
  | bool b => some (if b then 1.0 else 0.0)
  | _ => none

/-- The entries of a map. -/
def entries? : Value → Option Entries
  | map entries => some entries
  | _ => none

/-- A signed integer as a value. -/
def ofInt (n : Int) : Value := number (Float.ofInt n)

/-! ## Writing a value -/

mutual

/-- The text of a value, the one that scripts see when they print it. -/
def text : Value → String
  | null => "null"
  | bool b => if b then "true" else "false"
  | number x => floatText x
  | str s => s
  | list items => "[" ++ itemsText items ++ "]"
  | map entries => "\x7b" ++ entriesText entries ++ "\x7d"

/-- The texts of the items of a list. -/
def itemsText : List Value → String
  | [] => ""
  | [v] => v.text
  | v :: rest => v.text ++ ", " ++ itemsText rest

/-- The texts of the entries of a map. -/
def entriesText : List (String × Value) → String
  | [] => ""
  | [(key, v)] => key ++ " -> " ++ v.text
  | (key, v) :: rest => key ++ " -> " ++ v.text ++ ", " ++ entriesText rest

end

/-! ## Equality -/

mutual

/-- Equality of values.  Numbers are compared as floats: the two zeros are equal, and a NaN differs
from everything. -/
def same : Value → Value → Bool
  | null, null => true
  | bool a, bool b => a == b
  | number x, number y => x == y
  | str s, str t => s == t
  | list vs, list ws => sameItems vs ws
  | map es, map fs => sameEntries es fs
  | _, _ => false

/-- Equality of lists of values. -/
def sameItems : List Value → List Value → Bool
  | [], [] => true
  | v :: vs, w :: ws => same v w && sameItems vs ws
  | _, _ => false

/-- Equality of entries. -/
def sameEntries : List (String × Value) → List (String × Value) → Bool
  | [], [] => true
  | (k, v) :: es, (l, w) :: fs => k == l && same v w && sameEntries es fs
  | _, _ => false

end

instance : BEq Value := ⟨same⟩

end Value

end ScriptHost
