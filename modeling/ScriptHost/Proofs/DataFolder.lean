import Mathlib
import ScriptHost.Proofs.FileRefinement
import ScriptHost.Proofs.Layout
import ScriptHost.Proofs.Lines
/-!
# Resources stay in the data folder

Whatever a script calls a resource, its file lies below the folder of the store: the names that its
path is made of are those between the slashes of the names it was given, with endings on some of
them, and none of them leads to another place.  A use of the store changes the one file under that
path and creates no folder but those on the way to it.  What it reads is said by comparing two
trees: if the same stands under the path in both, and folders, files and gaps lie at the same places
on the way, then the use is answered in the same way and leaves the trees alike.

## Main definitions

* `ResourceKey.Placed`: a key whose names may all be used.
* `FileTree.AlikeAlong`: two trees that a path does not tell apart.

## Main statements

* `ResourceKey.path?_eq_error_iff`, `ResourceKey.path?_below`: which keys have a path, and what the
  path is made of.
* `StoreUse.run_alike`: what a use reads.
* `StoreUse.run_changedWithin`, `StoreUse.after_changedWithin`: what uses change.
* `FileStore.confined_to_folder`: resources stay in the data folder.
-/

namespace ScriptHost

open FileTree

/-! ## The path of a key -/

namespace ResourceKey

variable {name : String} {key : ResourceKey} {path : List String}

/-- A name that may be used: its parts between the slashes stand for themselves, and it has no
backslash. -/
structure NameAllowed (name : String) : Prop where
  parts : ∀ part ∈ splitPath name, IsPlain part
  backslash : '\\' ∉ name.toList

/-- The names that a key is filed under: a shared resource is filed under its own name, and what
belongs to a module under the name of the module first. -/
def names? (key : ResourceKey) : Option (List String) :=
  if key.shared then key.file.map fun file => [file]
  else key.module.map fun module => module :: key.file.toList

/-- A key that has names to be filed under, which may all be used. -/
def Placed (key : ResourceKey) : Prop :=
  ∃ names, key.names? = some names ∧ ∀ name ∈ names, NameAllowed name

theorem nameAllowed_iff : NameAllowed name ↔ nameParts name = .ok (splitPath name) := by
  constructor
  · intro h
    unfold nameParts
    rw [if_neg]
    rintro hrefused
    rcases Bool.or_eq_true_iff.1 hrefused with hbackslash | hpart
    · exact h.backslash (List.contains_iff_mem.1 hbackslash)
    · obtain ⟨part, hmem, hpart⟩ := List.any_eq_true.1 hpart
      obtain ⟨hempty, hdot, hdots⟩ := h.parts part hmem
      simp [hempty, hdot, hdots] at hpart
  · intro h
    refine ⟨(nameParts_eq_ok h).2, fun hbackslash => ?_⟩
    unfold nameParts at h
    rw [if_pos (by simp [hbackslash])] at h
    cases h

/-- A key has a path just if it is placed. -/
theorem path?_isOk_iff : (∃ path, key.path? = .ok path) ↔ key.Placed := by
  constructor
  · rintro ⟨path, h⟩
    obtain ⟨file, hshared, hfile, hparts, -⟩ | ⟨module, hshared, hmodule, hfile, hparts, -⟩ |
      ⟨module, file, hshared, hmodule, hfile, hmparts, hfparts, -⟩ := path?_cases h
    · refine ⟨[file], by simp [names?, hshared, hfile], ?_⟩
      intro name hname
      rw [List.mem_singleton.1 hname]
      exact nameAllowed_iff.2 hparts
    · refine ⟨[module], by simp [names?, hshared, hmodule, hfile], ?_⟩
      intro name hname
      rw [List.mem_singleton.1 hname]
      exact nameAllowed_iff.2 hparts
    · refine ⟨[module, file], by simp [names?, hshared, hmodule, hfile], ?_⟩
      intro name hname
      rcases List.mem_cons.1 hname with rfl | hname
      · exact nameAllowed_iff.2 hmparts
      · rw [List.mem_singleton.1 hname]
        exact nameAllowed_iff.2 hfparts
  · rintro ⟨names, hnames, hallowed⟩
    obtain ⟨module, file, kind, shared⟩ := key
    cases shared with
    | true =>
      obtain ⟨file, rfl, rfl⟩ := Option.map_eq_some_iff.1 hnames
      have hparts := nameAllowed_iff.1 (hallowed file List.mem_cons_self)
      simp [path?, hparts, bind, Except.bind, pure, Except.pure]
    | false =>
      obtain ⟨module, rfl, rfl⟩ := Option.map_eq_some_iff.1 hnames
      have hparts := nameAllowed_iff.1 (hallowed module List.mem_cons_self)
      cases file with
      | none => simp [path?, hparts, bind, Except.bind, pure, Except.pure]
      | some file =>
        have hfile := nameAllowed_iff.1 (hallowed file (by simp))
        simp [path?, hparts, hfile, bind, Except.bind, pure, Except.pure]

/-- A key is refused just if it is not placed. -/
theorem path?_eq_error_iff : (∃ e, key.path? = .error e) ↔ ¬ key.Placed := by
  rw [← path?_isOk_iff]
  cases key.path? <;> simp

/-- The names between the slashes of a text have no slash. -/
theorem not_mem_of_mem_splitPath {text : String} (h : name ∈ splitPath text) :
    '/' ∉ name.toList := by
  obtain ⟨piece, hpiece, rfl⟩ := List.mem_map.1 h
  rw [String.toList_ofList]
  exact Text.not_mem_of_mem_splitOn hpiece

/-- The path of a key has at least one name, and each of its names stands for an entry of a folder,
also where an ending was added to it. -/
theorem path?_below (h : key.path? = .ok path) :
    path ≠ [] ∧ ∀ n ∈ path, IsPlain n ∧ '/' ∉ n.toList := by
  obtain ⟨folder, last, hpath, hplain⟩ := path?_eq_ok h
  have hslash : ∀ n ∈ path, '/' ∉ n.toList := by
    have hdata : '/' ∉ ".data".toList := by decide
    obtain ⟨file, -, -, -, rfl⟩ | ⟨module, -, -, -, -, rfl⟩ |
      ⟨module, file, -, -, -, -, -, rfl⟩ := path?_cases h
    · rw [withEnding_splitPath (not_mem_fileEnding key)]
      intro n hn
      rcases List.mem_cons.1 hn with rfl | hn
      · decide
      · exact not_mem_of_mem_splitPath hn
    · rw [withEnding_splitPath hdata, withEnding_splitPath (not_mem_fileEnding key)]
      exact fun n hn => not_mem_of_mem_splitPath hn
    · rw [withEnding_splitPath hdata, withEnding_splitPath (not_mem_fileEnding key)]
      intro n hn
      rcases List.mem_append.1 hn with hn | hn <;> exact not_mem_of_mem_splitPath hn
  exact ⟨by simp [hpath], fun n hn => ⟨hplain n hn, hslash n hn⟩⟩

end ResourceKey

/-! ## What a path does not tell apart -/

namespace FileTree

variable {t u : FileTree} {path place names p : List String}

/-- Whether what stands under a path is a folder, if anything stands there. -/
def isFolder? (t : FileTree) (path : List String) : Option Bool :=
  (t.node? path).map fun
    | .folder => true
    | .file _ => false

/-- Two trees that a path does not tell apart: the same stands under the path, and on the way to it
folders, files and gaps lie at the same places.  The contents of files on the way may differ. -/
structure AlikeAlong (t u : FileTree) (path : List String) : Prop where
  node : t.node? path = u.node? path
  way : ∀ p, p <+: path → t.isFolder? p = u.isFolder? p

/-- The kinds of things that stand at one place in two trees that have the same kind there. -/
theorem node?_cases_of_isFolder? (h : t.isFolder? p = u.isFolder? p) :
    (t.node? p = none ∧ u.node? p = none) ∨
      (t.node? p = some .folder ∧ u.node? p = some .folder) ∨
        ∃ a b, t.node? p = some (.file a) ∧ u.node? p = some (.file b) := by
  unfold isFolder? at h
  rcases ht : t.node? p with _ | _ | a <;> rcases hu : u.node? p with _ | _ | b <;>
    rw [ht, hu] at h <;> simp_all

/-- What is put at the same place of two trees does not tell them apart. -/
theorem AlikeAlong.insert (h : AlikeAlong t u path) (hp : p ≠ []) (node : FileNode) :
    AlikeAlong ⟨t.nodes.insert p node⟩ ⟨u.nodes.insert p node⟩ path where
  node := by rw [node?_insert hp, node?_insert hp, h.node]
  way q hq := by
    have hway := h.way q hq
    unfold isFolder? at hway ⊢
    rw [node?_insert hp, node?_insert hp]
    split
    · rfl
    · exact hway

/-- What is removed at the same place of two trees does not tell them apart. -/
theorem AlikeAlong.erase (h : AlikeAlong t u path) (hp : p ≠ []) :
    AlikeAlong ⟨t.nodes.erase p⟩ ⟨u.nodes.erase p⟩ path where
  node := by rw [node?_erase hp, node?_erase hp, h.node]
  way q hq := by
    have hway := h.way q hq
    unfold isFolder? at hway ⊢
    rw [node?_erase hp, node?_erase hp]
    split
    · rfl
    · exact hway

/-- Plain names are followed in the same way through folders, files and gaps at the same places. -/
theorem follow_congr (hplain : ∀ n ∈ names, IsPlain n)
    (h : ∀ p, p <+: place ++ names → t.isFolder? p = u.isFolder? p) :
    t.follow place names = u.follow place names := by
  -- the place moves along the path, and only its own kind is looked at on the way
  induction names generalizing place with
  | nil => rfl
  | cons name names ih =>
    obtain ⟨hempty, hdot, hdots⟩ := hplain name List.mem_cons_self
    have hrest : t.follow (place ++ [name]) names = u.follow (place ++ [name]) names := by
      refine ih (fun n hn => hplain n (List.mem_cons_of_mem _ hn)) fun p hp => h p ?_
      rwa [List.append_assoc] at hp
    rw [follow, follow]
    rcases node?_cases_of_isFolder? (h place (List.prefix_append _ _)) with
      ⟨ht, hu⟩ | ⟨ht, hu⟩ | ⟨a, b, ht, hu⟩
    · rw [ht, hu]
    · have hstay : ¬ (name = "" ∨ name = ".") := not_or.2 ⟨hempty, hdot⟩
      rw [ht, hu]
      dsimp only
      rw [if_neg hstay, if_neg hstay, if_neg hdots, if_neg hdots, hrest]
    · rw [ht, hu]

section

variable (h : AlikeAlong t u path) (hplain : ∀ n ∈ path, IsPlain n)

include h hplain

theorem AlikeAlong.follow_eq (hp : p <+: path) : t.follow [] p = u.follow [] p :=
  follow_congr (fun n hn => hplain n (hp.subset hn)) fun q hq => h.way q (hq.trans hp)

/-- What a path leads to is the same in two trees that it does not tell apart. -/
theorem AlikeAlong.find_eq : t.find path = u.find path := by
  rw [find_plain hplain, find_plain hplain, h.node, h.follow_eq hplain (List.prefix_refl path)]

/-- Whether a place on the way leads to a folder or a file is the same as well. -/
theorem AlikeAlong.find_way (hp : p <+: path) :
    (∃ e, t.find p = .error e ∧ u.find p = .error e) ∨
      (t.find p = .ok .folder ∧ u.find p = .ok .folder) ∨
        ∃ a b, t.find p = .ok (.file a) ∧ u.find p = .ok (.file b) := by
  have hplain' : ∀ n ∈ p, IsPlain n := fun n hn => hplain n (hp.subset hn)
  rw [find_plain hplain', find_plain hplain', h.follow_eq hplain hp]
  cases checkPath p with
  | error e => exact .inl ⟨e, rfl, rfl⟩
  | ok _ =>
    cases u.follow [] p with
    | error e => exact .inl ⟨e, rfl, rfl⟩
    | ok q =>
      rcases node?_cases_of_isFolder? (h.way p hp) with ⟨ht, hu⟩ | ⟨ht, hu⟩ | ⟨a, b, ht, hu⟩
      · exact .inl ⟨.notFound, by rw [ht]; rfl, by rw [hu]; rfl⟩
      · exact .inr (.inl ⟨by rw [ht]; rfl, by rw [hu]; rfl⟩)
      · exact .inr (.inr ⟨a, b, by rw [ht]; rfl, by rw [hu]; rfl⟩)

/-- A file is read in the same way. -/
theorem AlikeAlong.readFile_eq : t.readFile path = u.readFile path := by
  unfold readFile
  rw [h.find_eq hplain]

/-- A file gets the same content, or the same error is met. -/
theorem AlikeAlong.modifyFile_eq (change : Option Blob → Blob) :
    ∃ r : Except FileError Blob,
      t.modifyFile path change = r.map (fun content => ⟨t.nodes.insert path (.file content)⟩) ∧
      u.modifyFile path change = r.map (fun content => ⟨u.nodes.insert path (.file content)⟩) := by
  unfold modifyFile
  rw [h.find_eq hplain]
  cases u.find path with
  | ok node =>
    cases node with
    | folder => exact ⟨.error .isFolder, rfl, rfl⟩
    | file old => exact ⟨.ok (change (some old)), rfl, rfl⟩
  | error e =>
    cases e with
    | notFound =>
      -- a new file needs its folder
      rcases h.find_way hplain path.dropLast_prefix with ⟨e, ht, hu⟩ | ⟨ht, hu⟩ | ⟨a, b, ht, hu⟩
      · exact ⟨.error e, by rw [ht]; rfl, by rw [hu]; rfl⟩
      · exact ⟨.ok (change none), by rw [ht]; rfl, by rw [hu]; rfl⟩
      · exact ⟨.error .notFolder, by rw [ht]; rfl, by rw [hu]; rfl⟩
    | notFolder => exact ⟨.error .notFolder, rfl, rfl⟩
    | isFolder => exact ⟨.error .isFolder, rfl, rfl⟩
    | nameTooLong => exact ⟨.error .nameTooLong, rfl, rfl⟩
    | invalidName => exact ⟨.error .invalidName, rfl, rfl⟩

/-- A file is removed, or the same error is met. -/
theorem AlikeAlong.removeFile_eq :
    ∃ r : Except FileError Unit,
      t.removeFile path = r.map (fun _ => ⟨t.nodes.erase path⟩) ∧
      u.removeFile path = r.map (fun _ => ⟨u.nodes.erase path⟩) := by
  unfold removeFile
  rw [h.find_eq hplain]
  rcases u.find path with e | _ | old
  · exact ⟨.error e, rfl, rfl⟩
  · exact ⟨.error .isFolder, rfl, rfl⟩
  · exact ⟨.ok (), rfl, rfl⟩

end

/-- The same folders are created on the way from a place, or the same error is met. -/
theorem AlikeAlong.createFoldersFrom (h : AlikeAlong t u path) (hway : place ++ names <+: path) :
    (t.createFoldersFrom place names).1 = (u.createFoldersFrom place names).1 ∧
      AlikeAlong (t.createFoldersFrom place names).2 (u.createFoldersFrom place names).2 path := by
  induction names generalizing t u place with
  | nil => exact ⟨rfl, h⟩
  | cons name names ih =>
    have hrest : place ++ [name] ++ names <+: path := by rwa [List.append_assoc]
    have hnext := h.way (place ++ [name]) ((List.prefix_append _ _).trans hrest)
    rw [FileTree.createFoldersFrom, FileTree.createFoldersFrom]
    rcases node?_cases_of_isFolder? hnext with ⟨ht, hu⟩ | ⟨ht, hu⟩ | ⟨a, b, ht, hu⟩
    · -- what is missing in one tree is missing in the other, and is put in both
      rw [ht, hu]
      dsimp only
      split
      · exact ⟨rfl, h⟩
      · exact ih (h.insert (by simp) .folder) hrest
    · rw [ht, hu]
      exact ih h hrest
    · rw [ht, hu]
      exact ⟨rfl, h⟩

theorem AlikeAlong.createFolders (h : AlikeAlong t u path) (hp : p <+: path) :
    (t.createFolders p).1 = (u.createFolders p).1 ∧
      AlikeAlong (t.createFolders p).2 (u.createFolders p).2 path := by
  unfold FileTree.createFolders
  cases checkPath p with
  | error e => exact ⟨rfl, h⟩
  | ok _ => exact h.createFoldersFrom hp

end FileTree

/-! ## What a use of a store reads -/

namespace FileStore

variable {s u : FileStore} {path : List String}

/-- Two stores in one folder that the path of a resource does not tell apart. -/
structure AlikeAlong (s u : FileStore) (path : List String) : Prop where
  root : u.root = s.root
  display : u.displayRoot = s.displayRoot
  tree : s.tree.AlikeAlong u.tree (s.root ++ path)

theorem AlikeAlong.failure_eq (h : AlikeAlong s u path) : u.failure = s.failure := by
  funext action p cause
  unfold failure FileStore.display
  rw [h.display]

section

variable (h : AlikeAlong s u path) (hplain : ∀ n ∈ s.root ++ path, IsPlain n)

include h hplain

theorem AlikeAlong.readAt_eq : s.readAt path = u.readAt path := by
  unfold readAt
  rw [h.root, h.failure_eq, h.tree.readFile_eq hplain]

/-- A file is changed in the same way, its folders included. -/
theorem AlikeAlong.changeAt (hne : path ≠ []) (action : String) (change : Option Blob → Blob) :
    (s.changeAt path action (·.modifyFile (s.root ++ path) change)).1 =
        (u.changeAt path action (·.modifyFile (u.root ++ path) change)).1 ∧
      AlikeAlong (s.changeAt path action (·.modifyFile (s.root ++ path) change)).2
        (u.changeAt path action (·.modifyFile (u.root ++ path) change)).2 path := by
  have hne : s.root ++ path ≠ [] := by simp [hne]
  obtain ⟨hcreated, htree⟩ :=
    h.tree.createFolders ((List.prefix_append_right_inj s.root).2 path.dropLast_prefix)
  unfold FileStore.changeAt
  rw [h.root, h.failure_eq]
  generalize s.tree.createFolders (s.root ++ path.dropLast) = a at hcreated htree
  generalize u.tree.createFolders (s.root ++ path.dropLast) = b at hcreated htree
  obtain ⟨result, t⟩ := a
  obtain ⟨_, v⟩ := b
  dsimp only at hcreated htree
  subst hcreated
  cases result with
  | error e => exact ⟨rfl, ⟨rfl, h.display, htree⟩⟩
  | ok _ =>
    -- the trees with the new folders are still alike along the path
    obtain ⟨r, ht, hv⟩ := htree.modifyFile_eq hplain change
    dsimp only
    rw [ht, hv]
    cases r with
    | error e => exact ⟨rfl, ⟨rfl, h.display, htree⟩⟩
    | ok content => exact ⟨rfl, ⟨rfl, h.display, htree.insert hne (.file content)⟩⟩

/-- A file is removed in the same way. -/
theorem AlikeAlong.deleteAt (hne : path ≠ []) :
    (s.deleteAt path).1 = (u.deleteAt path).1 ∧
      AlikeAlong (s.deleteAt path).2 (u.deleteAt path).2 path := by
  have hne : s.root ++ path ≠ [] := by simp [hne]
  obtain ⟨r, ht, hu⟩ := h.tree.removeFile_eq hplain
  unfold FileStore.deleteAt
  rw [h.root, h.failure_eq, ht, hu]
  cases r with
  | ok _ => exact ⟨rfl, ⟨rfl, h.display, h.tree.erase hne⟩⟩
  | error e => cases e <;> exact ⟨rfl, h⟩

end

end FileStore

namespace StoreUse

variable {s u : FileStore} {path : List String} {use : StoreUse}

/-- The answer to a use whose key is refused. -/
def refusal (e : StoreError) : StoreUse → StoreAnswer
  | read _ => .blob (.error e)
  | readLines _ => .text (.error e)
  | write _ _ | append _ _ => .done (.error e)
  | delete _ => .removed (.error e)

/-- Whatever is in the tree, a use whose key is refused is answered by the refusal, and leaves the
store as it is. -/
theorem run_of_path?_eq_error {e : StoreError} (h : use.key.path? = .error e) (s : FileStore) :
    use.run s = (use.refusal e, s) := by
  have hread : ∀ key : ResourceKey, key.path? = .error e → StateStore.read s key = .error e := by
    intro key h
    simp only [StateStore.read, h, bind, Except.bind]
  cases use with
  | read key => rw [run, hread key h, refusal]
  | readLines key =>
    rw [run, StateStore.readLines, hread key h]
    rfl
  | write key blob =>
    dsimp only [StoreUse.key] at h
    simp only [run, StateStore.write, h, refusal, Prod.map, id]
  | append key lines =>
    dsimp only [StoreUse.key] at h
    simp only [run, StateStore.appendLines, h, refusal, Prod.map, id]
  | delete key =>
    dsimp only [StoreUse.key] at h
    simp only [run, StateStore.delete, h, refusal, Prod.map, id]

/-- A use does not tell two stores apart that the path of its key does not tell apart: it is
answered in the same way, and leaves two such stores. -/
theorem run_alike (hs : s.Sound) (hpath : use.key.path? = .ok path)
    (h : FileStore.AlikeAlong s u path) :
    (use.run s).1 = (use.run u).1 ∧ FileStore.AlikeAlong (use.run s).2 (use.run u).2 path := by
  obtain ⟨hne, hbelow⟩ := ResourceKey.path?_below hpath
  have hplain := hs.plain fun n hn => (hbelow n hn).1
  cases use with
  | read key =>
    dsimp only [StoreUse.key] at hpath
    rw [run, run, FileStore.read_eq hpath, FileStore.read_eq hpath, h.readAt_eq hplain]
    exact ⟨rfl, h⟩
  | readLines key =>
    dsimp only [StoreUse.key] at hpath
    rw [run, run, StateStore.readLines, StateStore.readLines, FileStore.read_eq hpath,
      FileStore.read_eq hpath, h.readAt_eq hplain]
    exact ⟨rfl, h⟩
  | write key blob =>
    dsimp only [StoreUse.key] at hpath
    rw [run, run, FileStore.write_eq hpath, FileStore.write_eq hpath]
    obtain ⟨hanswer, halike⟩ := h.changeAt hplain hne "failed to write" fun _ => blob
    exact ⟨congrArg StoreAnswer.done hanswer, halike⟩
  | append key lines =>
    dsimp only [StoreUse.key] at hpath
    rw [run, run, FileStore.appendLines_eq hpath, FileStore.appendLines_eq hpath]
    obtain ⟨hanswer, halike⟩ := h.changeAt hplain hne "failed to open" fun old =>
      old.getD ByteArray.empty ++ (Text.unlines lines).toUTF8
    exact ⟨congrArg StoreAnswer.done hanswer, halike⟩
  | delete key =>
    dsimp only [StoreUse.key] at hpath
    rw [run, run, FileStore.delete_eq hpath, FileStore.delete_eq hpath]
    obtain ⟨hanswer, halike⟩ := h.deleteAt hplain hne
    exact ⟨congrArg StoreAnswer.removed hanswer, halike⟩

end StoreUse

/-! ## What uses of a store change -/

namespace FileStore

variable {s u : FileStore} {paths : List String → Prop} {q : List String}

/-- Outside its folder a store leaves everything as it is, but for the folders on the way to its own
folder, which may have been missing. -/
theorem ChangedWithin.node?_outside (h : ChangedWithin s u paths) (hq : ¬ s.root <+: q) :
    u.tree.node? q = s.tree.node? q ∨
      s.tree.node? q = none ∧ u.tree.node? q = some .folder ∧ q <+: s.root := by
  have hother : ∀ p, paths p → q ≠ s.root ++ p := by
    rintro p - rfl
    exact hq (List.prefix_append _ _)
  cases hs : s.tree.node? q with
  | some node =>
    cases node with
    | folder => exact .inl (h.folders q hs)
    | file content => exact .inl ((h.files q content hother).2 hs)
  | none =>
    cases hu : u.tree.node? q with
    | none => exact .inl rfl
    | some node =>
      cases node with
      | file content =>
        rw [(h.files q content hother).1 hu] at hs
        cases hs
      | folder =>
        rcases h.created q hu with hold | ⟨p, -, hway, -⟩
        · rw [hold] at hs
          cases hs
        · have hway := List.prefix_or_prefix_of_prefix hway (List.prefix_append s.root p)
          exact .inr ⟨rfl, rfl, hway.resolve_right hq⟩

end FileStore

namespace StoreUse

variable {s : FileStore}

/-- The store after some uses. -/
def after {σ : Type} [StateStore σ] (uses : List StoreUse) (a : σ) : σ :=
  uses.foldl (fun a use => (use.run a).2) a

/-- A use changes nothing but the file under the path of its key, and the folders on the way. -/
theorem run_changedWithin (hs : s.Sound) (use : StoreUse) :
    FileStore.ChangedWithin s (use.run s).2 fun path => use.key.path? = .ok path := by
  cases hpath : use.key.path? with
  | error e =>
    rw [run_of_path?_eq_error hpath]
    exact .refl hs
  | ok path =>
    suffices h : FileStore.ChangedWithin s (use.run s).2 (· = path) from
      h.mono fun p hp => by rw [hp]
    cases use with
    | read key => exact .refl hs
    | readLines key => exact .refl hs
    | write key blob => exact FileStore.apply_changedWithin hs hpath (.write blob)
    | append key lines => exact FileStore.apply_changedWithin hs hpath (.append lines)
    | delete key => exact FileStore.apply_changedWithin hs hpath .delete

/-- Any uses change nothing but the files under the paths of their keys, and the folders on the
way. -/
theorem after_changedWithin (hs : s.Sound) (uses : List StoreUse) :
    FileStore.ChangedWithin s (after uses s) fun path =>
      ∃ use ∈ uses, use.key.path? = .ok path := by
  induction uses generalizing s with
  | nil => exact .refl hs
  | cons use uses ih =>
    have hfirst := run_changedWithin hs use
    have hrest := ih hfirst.sound
    -- the first use and the others each keep to some of the paths of all
    refine (hfirst.mono fun path hpath => ⟨use, List.mem_cons_self, hpath⟩).trans
      (hrest.mono ?_)
    rintro path ⟨later, hlater, hpath⟩
    exact ⟨later, List.mem_cons_of_mem _ hlater, hpath⟩

end StoreUse

/-! ## Resources stay in the data folder -/

/-- The file of a resource stays in the data folder.  A key is refused just if it is not placed, and
then nothing is looked at and nothing done.  Otherwise its path goes down from the folder, by names
that stand for entries of folders, and a use of the key reads and changes the file under that path
and no other, and creates no folder but those on the way.  So whatever is asked of the store,
nothing outside its folder is changed, but for the missing folders on the way to it. -/
theorem FileStore.confined_to_folder {s : FileStore} (hs : s.Sound) :
    (∀ use : StoreUse,
      ((∃ e, use.key.path? = .error e) ↔ ¬ use.key.Placed) ∧
      (∀ e, use.key.path? = .error e → use.run s = (use.refusal e, s)) ∧
      ∀ path, use.key.path? = .ok path →
        (path ≠ [] ∧ ∀ n ∈ path, IsPlain n ∧ '/' ∉ n.toList) ∧
        ChangedWithin s (use.run s).2 (· = path) ∧
        ∀ u, AlikeAlong s u path →
          (use.run s).1 = (use.run u).1 ∧ AlikeAlong (use.run s).2 (use.run u).2 path) ∧
    ∀ uses : List StoreUse,
      ChangedWithin s (StoreUse.after uses s) (fun p => ∃ use ∈ uses, use.key.path? = .ok p) ∧
      ∀ q, ¬ s.root <+: q →
        (StoreUse.after uses s).tree.node? q = s.tree.node? q ∨
          s.tree.node? q = none ∧ (StoreUse.after uses s).tree.node? q = some .folder ∧
            q <+: s.root := by
  refine ⟨fun use => ⟨ResourceKey.path?_eq_error_iff, ?_, ?_⟩, fun uses => ⟨?_, ?_⟩⟩
  · exact fun e he => StoreUse.run_of_path?_eq_error he s
  · intro path hpath
    refine ⟨ResourceKey.path?_below hpath, ?_, fun u hu => StoreUse.run_alike hs hpath hu⟩
    refine (StoreUse.run_changedWithin hs use).mono fun p hp => ?_
    rw [hpath] at hp
    cases hp
    rfl
  · exact StoreUse.after_changedWithin hs uses
  · exact fun q hq => (StoreUse.after_changedWithin hs uses).node?_outside hq

/-- A file beside the data folder, which is yet to be created. -/
def houseFiles : FileStore :=
  { tree := ⟨((∅ : FileTree).nodes.insert ["etc"] .folder).insert ["etc", "keys"]
      (.file "gate".toUTF8)⟩
    root := ["var", "data"]
    displayRoot := "/var/data" }

/-- Uses that ask for the file beside the data folder, by the name of a resource, by that of a
module and from the top. -/
def intrusions : List StoreUse :=
  [.write (.resource (some "camera") "log/../../../../etc/keys" .text false) ⟨#[]⟩,
    .append (.globalState "../../etc/keys") ["back door"],
    .delete (.resource none "/etc/keys" .text true)]

/-- The file beside the data folder is not reached, while the log of the camera is kept. -/
theorem FileStore.confined_houseFiles :
    houseFiles.Sound ∧
      (∀ use ∈ intrusions, ∃ e, use.run houseFiles = (use.refusal e, houseFiles)) ∧
      let log := ResourceKey.resource (some "camera") "log/day" .text false
      (StoreUse.after (intrusions ++ [.append log ["on"]]) houseFiles).tree.node? ["etc", "keys"] =
        some (.file "gate".toUTF8) := by
  have hgrown : Grown ⟨(∅ : FileTree).nodes.insert ([] ++ ["etc"]) .folder⟩ :=
    grown_empty.insert rfl (.inl rfl)
  have hplace : (⟨(∅ : FileTree).nodes.insert ["etc"] .folder⟩ : FileTree).node? ["etc"] =
      some .folder := by
    rw [node?_insert (by simp), if_pos rfl]
  have hfree : (⟨(∅ : FileTree).nodes.insert ["etc"] .folder⟩ : FileTree).node?
      (["etc"] ++ ["keys"]) ≠ some .folder := by
    rw [node?_insert (by simp), if_neg (by simp), node?_empty (by simp)]
    simp
  have hkeys : houseFiles.tree.node? ["etc", "keys"] = some (.file "gate".toUTF8) :=
    (node?_insert (by simp)).trans (if_pos rfl)
  have hs : houseFiles.Sound :=
    { root := by
        show ∀ n ∈ ["var", "data"], n ≠ "" ∧ n ≠ "." ∧ n ≠ ".."
        decide
      grown := hgrown.insert hplace (.inr hfree) }
  obtain ⟨huse, huses⟩ := confined_to_folder hs
  refine ⟨hs, ?_, ?_⟩
  · intro use hmem
    have hrefused : ∀ use ∈ intrusions, ∃ e, use.key.path? = .error e := by
      have herror : ∀ use ∈ intrusions, use.key.path?.toOption = none := by decide +kernel
      intro use hmem
      cases hpath : use.key.path? with
      | error e => exact ⟨e, rfl⟩
      | ok path =>
        have hnone := herror use hmem
        rw [hpath] at hnone
        cases hnone
    obtain ⟨e, he⟩ := hrefused use hmem
    exact ⟨e, (huse use).2.1 e he⟩
  · intro log
    rcases (huses (intrusions ++ [.append log ["on"]])).2 ["etc", "keys"] (by decide) with
      hsame | ⟨hnone, -⟩
    · rw [hsame, hkeys]
    · rw [hkeys] at hnone
      cases hnone

end ScriptHost
