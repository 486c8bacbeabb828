import ScriptHost.Resource.FileTree
import ScriptHost.Text.Utf8
import ScriptHost.Toml.Document
/-!
# Settings

What the operator of a server may set, read from a document of keys and values.  Keys that mean
nothing are passed over; a key that has a meaning must have a value of its kind.
-/

namespace ScriptHost

/-- The settings of a server. -/
structure Settings where
  /-- The folder of module sources, if one is set. -/
  appsDir : Option String := none
  /-- The folder of stored data, if one is set. -/
  dataDir : Option String := none
  /-- For how many ticks after a save global state stays in memory only. -/
  saveDebounceTicks : Nat := 200
  /-- The apps that are loaded when the server starts. -/
  autoload : List String := []
deriving DecidableEq, Repr

/-- Why settings could not be had. -/
inductive SettingsError where
  | notFound
  | unreadable (reason : String)
  | malformed
deriving DecidableEq, Repr

/-- The wording of the error. -/
def SettingsError.message : SettingsError → String
  | notFound => "Config file not found"
  | unreadable reason => "IO error reading config: " ++ reason
  | malformed => "Failed to parse config: not a settings document"

/-- The folders that the surroundings of a server name for its user. -/
structure Surroundings where
  home : Option String
  dataHome : Option String

namespace Surroundings

/-- The folder for data when none is set: below the user's folder for data, which only counts when
it is absolute, or else in the usual place below the user's home. -/
def baseDir (s : Surroundings) : String :=
  match s.dataHome.filter FileTree.isAbsolute, s.home with
  | some folder, _ => FileTree.below folder "tickscript"
  | none, some home => FileTree.below home ".local/share/tickscript"
  | none, none => ".tickscript"

end Surroundings

namespace Settings

/-- The folder of module sources. -/
def appsPath (s : Settings) (around : Surroundings) : String :=
  s.appsDir.getD (FileTree.below around.baseDir "scripts")

/-- The folder of stored data. -/
def dataPath (s : Settings) (around : Surroundings) : String :=
  s.dataDir.getD (FileTree.below around.baseDir "data")

/-- A value that has to be a string. -/
def asText : Toml.Item → Option String
  | .str s => some s
  | _ => none

/-- A value that has to be a count of at most 32 bits. -/
def asCount : Toml.Item → Option Nat
  | .int n => if 0 ≤ n ∧ n < 0x100000000 then some n.toNat else none
  | _ => none

/-- A value that has to be a list of strings. -/
def asTexts : Toml.Item → Option (List String)
  | .array items => items.mapM asText
  | _ => none

/-- The settings in a table.  Each key that is missing keeps its default. -/
def ofTable? (t : Toml.Table) : Option Settings := do
  let item (key : String) : Option Toml.Item := t.entries.lookup key
  return {
    appsDir := ← (item "apps_dir").mapM asText
    dataDir := ← (item "data_dir").mapM asText
    saveDebounceTicks :=
      ← ((item "save_debounce_ticks").map asCount).getD (some ({} : Settings).saveDebounceTicks)
    autoload := ← ((item "autoload").map asTexts).getD (some []) }

/-- The settings in the text of a document. -/
def parse (text : String) : Except SettingsError Settings :=
  match (Toml.parse? text).bind ofTable? with
  | some settings => .ok settings
  | none => .error .malformed

/-- The settings in the file under a path. -/
def load (tree : FileTree) (path : List String) : Except SettingsError Settings :=
  match tree.find path with
  | .error _ => .error .notFound
  | .ok .folder => .error (.unreadable FileError.isFolder.message)
  | .ok (.file content) =>
    match Text.decode content with
    | .ok text => parse text
    | .error fault => .error (.unreadable fault.message)

end Settings

end ScriptHost
