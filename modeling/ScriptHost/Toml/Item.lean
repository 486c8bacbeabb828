/-!
# Documents of key-value lines

The tree that a settings document describes, and the rules by which the lines of the document build
it.  A table may be opened by its own header, or come into being because a longer header or a dotted
key passes through it; what may still be added to it depends on which of these it was.

## Main definitions

* `Toml.Item`: what stands under a key.
* `Toml.Table.define`: a line with a key and a value.
* `Toml.Table.openTable`, `Toml.Table.openElement`: a header of a table, and of an element of an
  array of tables.
-/

namespace ScriptHost.Toml

/-- How a table came into being. -/
inductive TableForm where
  /-- By its own header. -/
  | headed
  /-- On the way of a header of a table below it. -/
  | implied
  /-- On the way of a dotted key. -/
  | dotted
  /-- As a value between braces, to which nothing can be added. -/
  | closed
deriving DecidableEq, Repr

/-- What stands under a key. -/
inductive Item where
  | str (s : String)
  | int (n : Int)
  | float (x : Float)
  | bool (b : Bool)
  /-- A date, a time of day, or both. -/
  | time
  | array (items : List Item)
  | table (form : TableForm) (entries : List (String × Item))
  /-- An array of tables with headers, whose last element may still grow. -/
  | tables (elements : List (List (String × Item)))

/-- A table with its entries, in the order of their definition. -/
structure Table where
  form : TableForm
  entries : List (String × Item)

namespace Table

/-- The table that a document begins with. -/
def root : Table := ⟨.headed, []⟩

/-- Replaces what stands under a key, or adds it at the end. -/
def set (entries : List (String × Item)) (key : String) (item : Item) : List (String × Item) :=
  if entries.any (·.1 == key) then
    entries.map fun e => if e.1 == key then (key, item) else e
  else entries ++ [(key, item)]

/-- Changes the table at the end of a path.  Tables that are missing on the way come into being.  A
path through an array of tables goes on in its last element.  A dotted key does not pass through a
table with a header of its own, and nothing passes through a value. -/
def descend (dotted : Bool) (change : Table → Option Table) : List String → Table → Option Table
  | [], t => change t
  | key :: path, t => do
    let item ←
      match t.entries.lookup key with
      | none => do
        let new : Table := ⟨if dotted then .dotted else .implied, []⟩
        let sub ← descend dotted change path new
        some (.table sub.form sub.entries)
      | some (.table form entries) => do
        if form = .closed ∨ (dotted ∧ form = .headed) then none
        else
          let sub ← descend dotted change path ⟨form, entries⟩
          some (.table sub.form sub.entries)
      | some (.tables elements) => do
        let last ← elements.getLast?
        let sub ← descend dotted change path ⟨.headed, last⟩
        some (.tables (elements.dropLast ++ [sub.entries]))
      | some _ => none
    some { t with entries := set t.entries key item }

/-- Defines a key once.  A plain key belongs to a table that no dotted key has made, and the last
part of a dotted key to a table that dotted keys have made. -/
def define (path : List String) (key : String) (item : Item) (t : Table) : Option Table :=
  t.descend true
    (fun target =>
      if (target.form == .dotted) == path.isEmpty then none
      else if target.entries.any (·.1 == key) then none
      else some { target with entries := target.entries ++ [(key, item)] })
    path

/-- Opens a table by its header.  It must not exist yet, unless only headers below it have brought
it into being. -/
def openTable (path : List String) (key : String) (t : Table) : Option Table :=
  t.descend false
    (fun parent =>
      match parent.entries.lookup key with
      | none => some { parent with entries := parent.entries ++ [(key, .table .headed [])] }
      | some (.table .implied entries) =>
        some { parent with entries := set parent.entries key (.table .headed entries) }
      | some _ => none)
    path

/-- Opens a new element of an array of tables by its header. -/
def openElement (path : List String) (key : String) (t : Table) : Option Table :=
  t.descend false
    (fun parent =>
      match parent.entries.lookup key with
      | none => some { parent with entries := parent.entries ++ [(key, .tables [[]])] }
      | some (.tables elements) =>
        some { parent with entries := set parent.entries key (.tables (elements ++ [[]])) }
      | some _ => none)
    path

/-- Changes the table that the last header has opened. -/
def within (header : List String) (change : Table → Option Table) (t : Table) : Option Table :=
  t.descend false change header

end Table

end ScriptHost.Toml
