import Std.Data.ExtTreeMap
import ScriptHost.Blob
/-!
# Folders and files

A tree of folders and files, addressed by the names on the way from the top.  The top itself is
always a folder.  Looking a path up goes name by name, so that what lies in the way decides the
outcome: an absent name, a file where a folder is needed, or a name that no folder can hold.

## Main definitions

* `FileTree.pathIn`: what a written path names when it is used in a folder.
* `FileTree.resolve`, `FileTree.find`: where a path leads to, and what stands there.
* `FileTree.createFolders`, `FileTree.writeFile`, `FileTree.removeFile`: changes.
* `FileTree.files`: all files with their paths.
-/

namespace ScriptHost

/-- What stands under a path. -/
inductive FileNode where
  | folder
  | file (content : Blob)

/-- Why a path could not be used. -/
inductive FileError where
  | notFound
  /-- A file stands where a folder is needed. -/
  | notFolder
  /-- A folder stands where a file is needed. -/
  | isFolder
  | nameTooLong
  /-- A name contains a character that no name may have. -/
  | invalidName
deriving DecidableEq, Repr

/-- The wording of the error. -/
def FileError.message : FileError → String
  | notFound => "no such file or folder"
  | notFolder => "not a folder"
  | isFolder => "is a folder"
  | nameTooLong => "name too long"
  | invalidName => "invalid name"

/-- A tree of folders and files. -/
structure FileTree where
  nodes : Std.ExtTreeMap (List String) FileNode

namespace FileTree

/-- A tree with nothing below the top. -/
def empty : FileTree := ⟨∅⟩

instance : EmptyCollection FileTree := ⟨empty⟩

instance : Inhabited FileTree := ⟨empty⟩

/-- The number of bytes that a name may have. -/
def maxNameSize : Nat := 255

/-- What stands under a path of plain names; the top is a folder. -/
def node? (t : FileTree) (path : List String) : Option FileNode :=
  if path = [] then some .folder else t.nodes[path]?

/-- Follows names from a place in the tree.  Empty names and `.` stay in place, and `..` goes up,
unless the place is the top; to use any of them the place has to be a folder. -/
def follow (t : FileTree) (place : List String) : List String → Except FileError (List String)
  | [] => .ok place
  | name :: rest =>
    match t.node? place with
    | none => .error .notFound
    | some (.file _) => .error .notFolder
    | some .folder =>
      if name = "" ∨ name = "." then t.follow place rest
      else if name = ".." then t.follow place.dropLast rest
      else if maxNameSize < name.utf8ByteSize then .error .nameTooLong
      else t.follow (place ++ [name]) rest

/-- The number of bytes that a whole path may have. -/
def maxPathSize : Nat := 4095

/-- The number of bytes of a path in writing, with a slash before each name. -/
def pathSize (path : List String) : Nat :=
  path.foldl (fun size name => size + name.utf8ByteSize + 1) 0

/-- Whether a name can be handed to the file system at all. -/
def isUsable (name : String) : Bool := !name.toList.contains '\x00'

/-- Refuses a path that cannot be handed to the file system at all. -/
def checkPath (path : List String) : Except FileError Unit :=
  if !path.all isUsable then .error .invalidName
  else if maxPathSize < pathSize path then .error .nameTooLong
  else .ok ()

/-- The place that a path leads to, and what stands there. -/
def resolve (t : FileTree) (path : List String) : Except FileError (List String × FileNode) := do
  checkPath path
  let place ← t.follow [] path
  match t.node? place with
  | some node => return (place, node)
  | none => throw .notFound

/-- What a path leads to. -/
def find (t : FileTree) (path : List String) : Except FileError FileNode :=
  (t.resolve path).map (·.2)

/-- The content of the file that a path leads to. -/
def readFile (t : FileTree) (path : List String) : Except FileError Blob := do
  match ← t.find path with
  | .file content => return content
  | .folder => throw .isFolder

/-- Creates the missing folders on the way from `place` along the given names.  Those that were
created stay when a later name fails. -/
def createFoldersFrom (t : FileTree) (place : List String) :
    List String → Except FileError Unit × FileTree
  | [] => (.ok (), t)
  | name :: rest =>
    let next := place ++ [name]
    match t.node? next with
    | some .folder => t.createFoldersFrom next rest
    | some (.file _) => (.error .notFolder, t)
    | none =>
      if maxNameSize < name.utf8ByteSize then (.error .nameTooLong, t)
      else createFoldersFrom ⟨t.nodes.insert next .folder⟩ next rest

/-- Creates the missing folders of a path of plain names. -/
def createFolders (t : FileTree) (path : List String) : Except FileError Unit × FileTree :=
  match checkPath path with
  | .error e => (.error e, t)
  | .ok () => t.createFoldersFrom [] path

/-- Gives the file under a path of plain names the content made from its present content, if any.
Its folder has to exist. -/
def modifyFile (t : FileTree) (path : List String) (content : Option Blob → Blob) :
    Except FileError FileTree :=
  match t.find path with
  | .ok (.file old) => .ok ⟨t.nodes.insert path (.file (content (some old)))⟩
  | .ok .folder => .error .isFolder
  | .error .notFound =>
    match t.find path.dropLast with
    | .ok .folder => .ok ⟨t.nodes.insert path (.file (content none))⟩
    | .ok (.file _) => .error .notFolder
    | .error e => .error e
  | .error e => .error e

/-- Replaces or creates the file under a path of plain names. -/
def writeFile (t : FileTree) (path : List String) (content : Blob) : Except FileError FileTree :=
  t.modifyFile path fun _ => content

/-- Adds to the end of the file under a path of plain names, which is created if need be. -/
def appendFile (t : FileTree) (path : List String) (content : Blob) : Except FileError FileTree :=
  t.modifyFile path fun old => old.getD ByteArray.empty ++ content

/-- Removes the file under a path of plain names. -/
def removeFile (t : FileTree) (path : List String) : Except FileError FileTree := do
  match ← t.find path with
  | .file _ => return ⟨t.nodes.erase path⟩
  | .folder => throw .isFolder

/-- A file with the folders on its way, whatever stood there before. -/
def putFile (t : FileTree) (path : List String) (content : Blob) : FileTree :=
  let t := (t.createFolders path.dropLast).2
  match t.writeFile path content with
  | .ok t => t
  | .error _ => t

/-- A folder with the folders on its way. -/
def putFolder (t : FileTree) (path : List String) : FileTree := (t.createFolders path).2

/-- The names directly below the folder that a path leads to. -/
def children (t : FileTree) (path : List String) : Except FileError (List String) := do
  match ← t.resolve path with
  | (_, .file _) => throw .notFolder
  | (place, .folder) =>
    return t.nodes.keys.filterMap fun p => if p.dropLast = place then p.getLast? else none

/-- The names of a path with slashes between them. -/
def joinPath (path : List String) : String := "/".intercalate path

/-- The names of a path written with slashes. -/
def splitPath (path : String) : List String :=
  (path.toList.splitOn '/').map String.ofList

/-- Whether a written path begins at the top, wherever it is used. -/
def isAbsolute (path : String) : Bool := path.toList.head? = some '/'

/-- The path of what a written path names when it is used in a folder. -/
def pathIn (folder : List String) (path : String) : List String :=
  if isAbsolute path then splitPath path else folder ++ splitPath path

/-- The written path of what a path names when it is used in a folder whose path is given in
writing. -/
def below (folder path : String) : String :=
  if isAbsolute path ∨ folder.isEmpty then path
  else if folder.toList.getLast? = some '/' then folder ++ path
  else folder ++ "/" ++ path

/-- Every file with its path, in the order of the paths' texts. -/
def files (t : FileTree) : List (String × Blob) :=
  (t.nodes.toList.filterMap fun (path, node) =>
    match node with
    | .file content => some (joinPath path, content)
    | .folder => none).mergeSort fun a b => a.1 ≤ b.1

end FileTree

end ScriptHost
