import Std.Data.ExtTreeMap
import ScriptHost.Module
import ScriptHost.Resource.FileTree
import ScriptHost.Text.Lowercase
import ScriptHost.Text.Utf8
/-!
# Catalogues of modules

Where the source of modules comes from: a set of modules in memory, or a folder with a file for each
module.  A library is found only by those who ask for one.
-/

namespace ScriptHost

/-- What a search for a module came to. -/
structure Finding where
  found : Option Module
  /-- A note for the log about a source that could not be read. -/
  warning : Option String := none
deriving DecidableEq, Repr

/-- A catalogue: how to find a module by name, with libraries or without, and the names of the apps
that are in it. -/
structure Catalogue where
  find : String → Bool → Finding
  appNames : List String

/-! ## Modules in memory -/

/-- Modules under their names. -/
structure MemoryModules where
  modules : Std.ExtTreeMap String Module

namespace MemoryModules

/-- No modules. -/
def empty : MemoryModules := ⟨∅⟩

instance : EmptyCollection MemoryModules := ⟨empty⟩

/-- Adds a module, in place of one of the same name. -/
def insert (ms : MemoryModules) (m : Module) : MemoryModules := ⟨ms.modules.insert m.name m⟩

/-- Modules added one after the other. -/
def ofList (l : List Module) : MemoryModules := l.foldl insert empty

/-- The module of exactly that name. -/
def find? (ms : MemoryModules) (name : String) (allowLibrary : Bool) : Option Module :=
  ms.modules[name]?.filter fun m => allowLibrary || !m.isLibrary

/-- The names of the apps, in order. -/
def appNames (ms : MemoryModules) : List String :=
  ms.modules.toList.filterMap fun (name, m) => if m.isLibrary then none else some name

/-- The catalogue of these modules. -/
def catalogue (ms : MemoryModules) : Catalogue where
  find name allowLibrary := { found := ms.find? name allowLibrary }
  appNames := ms.appNames

end MemoryModules

/-! ## Modules in a folder -/

/-- A folder of module sources, in the tree of the whole file system. -/
structure ModuleFolder where
  tree : FileTree
  /-- The path of the folder in the tree. -/
  root : List String
  /-- How reports write the path of the folder. -/
  displayRoot : String

namespace ModuleFolder

/-- The extension of the source of an app. -/
def appExtension : String := "sc"

/-- The extension of the source of a library. -/
def libraryExtension : String := "scl"

/-- The module whose source is at a file name, if something is there.  Its code is absent when it is
not the text of a file. -/
def moduleAt? (folder : ModuleFolder) (name ext : String) (isLibrary : Bool) : Option Finding :=
  let fileName := name ++ "." ++ ext
  let unreadable (reason : String) : Finding :=
    { found := some { name, code := none, isLibrary }
      warning := some
        ("Failed to read " ++ FileTree.below folder.displayRoot fileName ++ ": " ++ reason) }
  match folder.tree.find (FileTree.pathIn folder.root fileName) with
  | .error _ => none
  | .ok .folder => some (unreadable FileError.isFolder.message)
  | .ok (.file content) =>
    match Text.decode content with
    | .ok code => some { found := some { name, code := some code, isLibrary } }
    | .error fault => some (unreadable fault.message)

/-- The module of that name, whatever its case: an app, or else a library. -/
def find (folder : ModuleFolder) (name : String) (allowLibrary : Bool) : Finding :=
  let name := Text.lowercase name
  let library := if allowLibrary then folder.moduleAt? name libraryExtension true else none
  (folder.moduleAt? name appExtension false <|> library).getD { found := none }

/-- The name of the app whose source has the given file name.  A name that only has a dot at its
beginning has no extension. -/
def appName? (fileName : String) : Option String :=
  match (fileName.toList.splitOn '.').reverse with
  | ext :: stem :: more =>
    let stem := ".".intercalate ((stem :: more).reverse.map String.ofList)
    if String.ofList ext = appExtension ∧ stem ≠ "" then some stem else none
  | _ => none

/-- The names of the apps, in order; none if the folder cannot be read. -/
def appNames (folder : ModuleFolder) : List String :=
  match folder.tree.children folder.root with
  | .ok names => (names.filterMap appName?).mergeSort fun a b => a ≤ b
  | .error _ => []

/-- The catalogue of the folder. -/
def catalogue (folder : ModuleFolder) : Catalogue where
  find := folder.find
  appNames := folder.appNames

end ModuleFolder

end ScriptHost
