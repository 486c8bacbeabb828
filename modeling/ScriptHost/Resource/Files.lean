import ScriptHost.Resource.FileTree
import ScriptHost.Resource.Store
/-!
# Storage in files

A store that keeps every resource in a file of its own below one folder:

* the global state of a module in `<module>.data.<ext>`,
* a private resource in `<module>.data/<file>.<ext>`,
* a shared resource in `shared/<file>.<ext>`.

Names may contain slashes, but no name leads out of the folder: `ResourceKey.path?` refuses a name
with an empty part, a part that is `.` or `..`, or a backslash.
-/

namespace ScriptHost

namespace ResourceKey

/-- The parts of a resource's name, if it is one that may be used. -/
def nameParts (name : String) : Except StoreError (List String) :=
  let parts := FileTree.splitPath name
  if name.toList.contains '\\' || parts.any (fun p => p == "" || p == "." || p == "..") then
    .error { outermost := "invalid resource name: " ++ name }
  else .ok parts

/-- Adds an ending to the last name of a path. -/
def withEnding (ending : String) : List String → List String
  | [] => []
  | [name] => [name ++ ending]
  | name :: rest => name :: withEnding ending rest

/-- The path of a resource's file below the store's folder. -/
def path? (key : ResourceKey) : Except StoreError (List String) :=
  let ext := "." ++ key.kind.extension
  if key.shared then
    match key.file with
    | none => .error { outermost := "shared resources need a name" }
    | some file => return "shared" :: withEnding ext (← nameParts file)
  else
    match key.module with
    | none => .error { outermost := "private resources need an owning module" }
    | some module => do
      let folder := withEnding ".data" (← nameParts module)
      match key.file with
      | none => return withEnding ext folder
      | some file => return folder ++ withEnding ext (← nameParts file)

end ResourceKey

/-- A store in a folder of a file tree. -/
structure FileStore where
  tree : FileTree
  /-- The path of the store's folder in the tree. -/
  root : List String
  /-- How reports write the path of the store's folder. -/
  displayRoot : String

namespace FileStore

/-- How reports write the path of something below the store's folder. -/
def display (s : FileStore) (path : List String) : String :=
  path.foldl FileTree.below s.displayRoot

/-- A failure to do something to a path. -/
def failure (s : FileStore) (action : String) (path : List String) (cause : FileError) :
    StoreError :=
  { outermost := action ++ " " ++ s.display path, causes := [cause.message] }

/-- The content of the file of a resource, if it exists. -/
def readAt (s : FileStore) (path : List String) : Except StoreError (Option Blob) :=
  match s.tree.readFile (s.root ++ path) with
  | .ok content => .ok (some content)
  | .error .notFound => .ok none
  | .error e => .error (s.failure "failed to read" path e)

/-- Changes a file after its folders have been created. -/
def changeAt (s : FileStore) (path : List String) (action : String)
    (change : FileTree → Except FileError FileTree) : Except StoreError Unit × FileStore :=
  match s.tree.createFolders (s.root ++ path.dropLast) with
  | (.error e, tree) => (.error (s.failure "failed to create" path.dropLast e), { s with tree })
  | (.ok (), tree) =>
    match change tree with
    | .ok tree => (.ok (), { s with tree })
    | .error e => (.error (s.failure action path e), { s with tree })

/-- Removes the file of a resource, if it exists. -/
def deleteAt (s : FileStore) (path : List String) : Except StoreError Bool × FileStore :=
  match s.tree.removeFile (s.root ++ path) with
  | .ok tree => (.ok true, { s with tree })
  | .error .notFound => (.ok false, s)
  | .error e => (.error (s.failure "failed to delete" path e), s)

instance : StateStore FileStore where
  read s key := do s.readAt (← key.path?)
  write s key blob :=
    match key.path? with
    | .error e => (.error e, s)
    | .ok path => s.changeAt path "failed to write" (·.writeFile (s.root ++ path) blob)
  appendLines s key lines :=
    match key.path? with
    | .error e => (.error e, s)
    | .ok path =>
      s.changeAt path "failed to open" (·.appendFile (s.root ++ path) (Text.unlines lines).toUTF8)
  delete s key :=
    match key.path? with
    | .error e => (.error e, s)
    | .ok path => s.deleteAt path

end FileStore

end ScriptHost
