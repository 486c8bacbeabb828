import ScriptHost.Proofs.FileTrees
import ScriptHost.Proofs.Requests
import ScriptHost.Resource.Files
/-!
# Requests to storage in files

The path of a resource's file consists of plain names, so a request concerns the one file under
that path: no other file is changed, and no folder is created but those on the way, whether the
request succeeds or not.  If the file system can hold the path and neither a folder stands under it
nor a file on the way to it, the request succeeds.

## Main statements

* `ResourceKey.path?_eq_ok`: the names of a resource's path are plain.
* `FileStore.Sound`: a store whose folder has a plain path in a tree without gaps.
* `FileStore.read_eq_some_iff`, `FileStore.read_apply_iff`: what is read, and what a request leaves.
* `FileStore.ChangedWithin`, `FileStore.apply_changedWithin`: what a request may change.
* `FileStore.changeAt_eq`: a request that succeeds.
-/

namespace ScriptHost

open FileTree

/-! ## The path of a resource -/

namespace ResourceKey

variable {name ending : String} {parts path : List String} {key : ResourceKey}

/-- The parts of a name that may be used are plain. -/
theorem nameParts_eq_ok (h : nameParts name = .ok parts) :
    parts = splitPath name ∧ ∀ n ∈ parts, IsPlain n := by
  unfold nameParts at h
  dsimp only at h
  split at h
  · cases h
  · rename_i hname
    cases h
    refine ⟨rfl, fun n hn => ?_⟩
    simp only [Bool.or_eq_true, List.any_eq_true, beq_iff_eq, not_or, not_exists, not_and] at hname
    obtain ⟨⟨hempty, hdot⟩, hdots⟩ := hname.2 n hn
    exact ⟨hempty, hdot, hdots⟩

theorem withEnding_concat (ending : String) (names : List String) (name : String) :
    withEnding ending (names ++ [name]) = names ++ [name ++ ending] := by
  induction names with
  | nil => rfl
  | cons n names ih =>
    cases names with
    | nil => rfl
    | cons m names => exact congrArg (n :: ·) ih

/-- A name is plain with an ending that is longer than two characters. -/
theorem isPlain_append (name : String) (h : 2 < ending.length) : IsPlain (name ++ ending) := by
  have hlength := String.length_append name ending
  refine ⟨?_, ?_, ?_⟩ <;> intro heq
  · have hempty : (name ++ ending).length = 0 := by rw [heq]; rfl
    omega
  · have hdot : (name ++ ending).length = 1 := by rw [heq]; rfl
    omega
  · have hdots : (name ++ ending).length = 2 := by rw [heq]; rfl
    omega

/-- Plain names stay plain when the last of them gets an ending. -/
theorem withEnding_plain (h : 2 < ending.length) (hplain : ∀ n ∈ parts, IsPlain n) :
    ∀ n ∈ withEnding ending parts, IsPlain n := by
  rcases List.eq_nil_or_concat' parts with rfl | ⟨names, name, rfl⟩
  · exact hplain
  · rw [withEnding_concat]
    intro n hn
    rcases List.mem_append.1 hn with hn | hn
    · exact hplain n (List.mem_append_left _ hn)
    · rw [List.mem_singleton.1 hn]
      exact isPlain_append name h

theorem withEnding_ne_nil (h : parts ≠ []) : withEnding ending parts ≠ [] := by
  obtain ⟨names, name, rfl⟩ := (List.eq_nil_or_concat' parts).resolve_left h
  rw [withEnding_concat]
  simp

theorem splitPath_ne_nil (text : String) : splitPath text ≠ [] := by
  unfold splitPath
  simp

/-- The ending of the file of a resource. -/
def fileEnding (key : ResourceKey) : String := "." ++ key.kind.extension

theorem length_fileEnding (key : ResourceKey) : key.fileEnding.length = 4 := by
  unfold fileEnding
  cases key.kind <;> rfl

/-- The three places of resources: below the shared folder, in the folder of a module, and beside
that folder. -/
theorem path?_cases (h : key.path? = .ok path) :
    (∃ file, key.shared = true ∧ key.file = some file ∧ nameParts file = .ok (splitPath file) ∧
      path = "shared" :: withEnding key.fileEnding (splitPath file)) ∨
    (∃ module, key.shared = false ∧ key.module = some module ∧ key.file = none ∧
      nameParts module = .ok (splitPath module) ∧
      path = withEnding key.fileEnding (withEnding ".data" (splitPath module))) ∨
    (∃ module file, key.shared = false ∧ key.module = some module ∧ key.file = some file ∧
      nameParts module = .ok (splitPath module) ∧ nameParts file = .ok (splitPath file) ∧
      path = withEnding ".data" (splitPath module) ++
        withEnding key.fileEnding (splitPath file)) := by
  unfold path? at h
  dsimp only at h
  split at h
  · rename_i hshared
    split at h
    · cases h
    · rename_i file hfile
      cases hparts : nameParts file with
      | error e => rw [hparts] at h; cases h
      | ok parts =>
        rw [hparts] at h
        cases h
        obtain ⟨rfl, -⟩ := nameParts_eq_ok hparts
        exact .inl ⟨file, hshared, hfile, hparts, rfl⟩
  · rename_i hshared
    rw [Bool.not_eq_true] at hshared
    split at h
    · cases h
    · rename_i module hmodule
      cases hfolder : nameParts module with
      | error e => rw [hfolder] at h; cases h
      | ok folder =>
        rw [hfolder] at h
        obtain ⟨rfl, -⟩ := nameParts_eq_ok hfolder
        cases hfile : key.file with
        | none =>
          simp only [hfile, bind, Except.bind] at h
          cases h
          exact .inr (.inl ⟨module, hshared, hmodule, rfl, hfolder, rfl⟩)
        | some file =>
          simp only [hfile, bind, Except.bind] at h
          cases hparts : nameParts file with
          | error e => rw [hparts] at h; cases h
          | ok parts =>
            rw [hparts] at h
            cases h
            obtain ⟨rfl, -⟩ := nameParts_eq_ok hparts
            exact .inr (.inr ⟨module, file, hshared, hmodule, rfl, hfolder, hparts, rfl⟩)

/-- The path of a resource has a last name, and all its names are plain. -/
theorem path?_eq_ok (h : key.path? = .ok path) :
    ∃ folder name, path = folder ++ [name] ∧ ∀ n ∈ path, IsPlain n := by
  have hending : 2 < key.fileEnding.length := by
    rw [length_fileEnding]
    omega
  have hdata : 2 < ".data".length := by decide
  have hplain : path ≠ [] ∧ ∀ n ∈ path, IsPlain n := by
    obtain ⟨file, -, -, hfile, rfl⟩ | ⟨module, -, -, -, hmodule, rfl⟩ |
      ⟨module, file, -, -, -, hmodule, hfile, rfl⟩ := path?_cases h
    · refine ⟨by simp, fun n hn => ?_⟩
      rcases List.mem_cons.1 hn with rfl | hn
      · unfold IsPlain
        decide
      · exact withEnding_plain hending (nameParts_eq_ok hfile).2 n hn
    · exact ⟨withEnding_ne_nil (withEnding_ne_nil (splitPath_ne_nil module)),
        withEnding_plain hending (withEnding_plain hdata (nameParts_eq_ok hmodule).2)⟩
    · refine ⟨by simp [withEnding_ne_nil (splitPath_ne_nil module)], fun n hn => ?_⟩
      rcases List.mem_append.1 hn with hn | hn
      · exact withEnding_plain hdata (nameParts_eq_ok hmodule).2 n hn
      · exact withEnding_plain hending (nameParts_eq_ok hfile).2 n hn
  obtain ⟨folder, name, rfl⟩ := (List.eq_nil_or_concat' path).resolve_left hplain.1
  exact ⟨folder, name, rfl, hplain.2⟩

end ResourceKey

/-! ## Requests -/

namespace FileStore

/-- A store whose folder has a plain path, in a tree without gaps. -/
structure Sound (s : FileStore) : Prop where
  root : ∀ n ∈ s.root, IsPlain n
  grown : s.tree.Grown

variable {s u v : FileStore} {key : ResourceKey} {path folder q : List String} {name : String}
  {content : Blob} {paths others : List String → Prop}

theorem Sound.plain (hs : s.Sound) (hpath : ∀ n ∈ path, IsPlain n) :
    ∀ n ∈ s.root ++ path, IsPlain n := by
  intro n hn
  rcases List.mem_append.1 hn with hn | hn
  · exact hs.root n hn
  · exact hpath n hn

section

variable (hpath : key.path? = .ok path)

include hpath

theorem read_eq : StateStore.read s key = s.readAt path := by
  simp only [StateStore.read, hpath, bind, Except.bind]

theorem write_eq (blob : Blob) :
    StateStore.write s key blob =
      s.changeAt path "failed to write" (·.modifyFile (s.root ++ path) fun _ => blob) := by
  simp only [StateStore.write, hpath, writeFile]

theorem appendLines_eq (lines : List String) :
    StateStore.appendLines s key lines =
      s.changeAt path "failed to open" (·.modifyFile (s.root ++ path) fun old =>
        old.getD ByteArray.empty ++ (Text.unlines lines).toUTF8) := by
  simp only [StateStore.appendLines, hpath, appendFile]

theorem delete_eq : StateStore.delete s key = s.deleteAt path := by
  simp only [StateStore.delete, hpath]

end

/-- What is read under a key is the file that stands under its path. -/
theorem read_eq_some_iff (hs : s.Sound) (hpath : key.path? = .ok path) :
    StateStore.read s key = .ok (some content) ↔
      Holds (s.root ++ path) ∧ s.tree.node? (s.root ++ path) = some (.file content) := by
  obtain ⟨_, _, _, hplain⟩ := ResourceKey.path?_eq_ok hpath
  rw [← readFile_eq_ok_iff hs.grown (hs.plain hplain)]
  rw [read_eq hpath]
  unfold readAt
  split <;> simp_all

/-! ## What a request may change -/

/-- What uses of the files under some paths may leave behind: the other files are as they were, no
folder is lost, and each new folder lies on the way to one of the paths. -/
structure ChangedWithin (s u : FileStore) (paths : List String → Prop) : Prop where
  root : u.root = s.root
  sound : u.Sound
  files : ∀ q content, (∀ p, paths p → q ≠ s.root ++ p) →
    (u.tree.node? q = some (.file content) ↔ s.tree.node? q = some (.file content))
  folders : ∀ q, s.tree.node? q = some .folder → u.tree.node? q = some .folder
  created : ∀ q, u.tree.node? q = some .folder →
    s.tree.node? q = some .folder ∨ ∃ p, paths p ∧ q <+: s.root ++ p ∧ q ≠ s.root ++ p

namespace ChangedWithin

theorem refl (hs : s.Sound) : ChangedWithin s s paths :=
  ⟨rfl, hs, fun _ _ _ => Iff.rfl, fun _ h => h, fun _ h => .inl h⟩

theorem mono (h : ChangedWithin s u paths) (hpaths : ∀ p, paths p → others p) :
    ChangedWithin s u others where
  root := h.root
  sound := h.sound
  files q content hq := h.files q content fun p hp => hq p (hpaths p hp)
  folders := h.folders
  created q hq := by
    rcases h.created q hq with hold | ⟨p, hp, hway⟩
    · exact .inl hold
    · exact .inr ⟨p, hpaths p hp, hway⟩

theorem trans (h : ChangedWithin s u paths) (h' : ChangedWithin u v paths) :
    ChangedWithin s v paths where
  root := h'.root.trans h.root
  sound := h'.sound
  files q content hq := by
    have hq' : ∀ p, paths p → q ≠ u.root ++ p := by rwa [h.root]
    exact (h'.files q content hq').trans (h.files q content hq)
  folders q hq := h'.folders q (h.folders q hq)
  created q hq := by
    rcases h'.created q hq with hold | hnew
    · exact h.created q hold
    · rw [h.root] at hnew
      exact .inr hnew

end ChangedWithin

/-- A folder on the way to a file does not lie where the file does. -/
theorem ne_of_prefix_folder (h : q <+: s.root ++ folder) : q ≠ s.root ++ (folder ++ [name]) := by
  rintro rfl
  have hlength := h.length_le
  simp only [List.length_append, List.length_singleton] at hlength
  omega

/-- The creation of the folders of a file, whether it succeeds or not. -/
theorem createFolders_changedWithin (hs : s.Sound) (folder : List String) (name : String) :
    ChangedWithin s { s with tree := (s.tree.createFolders (s.root ++ folder)).2 }
      (· = folder ++ [name]) := by
  obtain ⟨hadded, hgrown⟩ := createFolders_added hs.grown (s.root ++ folder)
  refine ⟨rfl, ⟨hs.root, hgrown⟩, fun q content _ => hadded.file_iff,
    fun q hq => hadded.node?_eq hq, fun q hq => ?_⟩
  rcases hadded q with heq | ⟨-, -, hway⟩
  · exact .inl (heq ▸ hq)
  · have hlonger : s.root ++ folder <+: s.root ++ (folder ++ [name]) :=
      (List.prefix_append_right_inj s.root).2 (List.prefix_append _ _)
    exact .inr ⟨_, rfl, hway.trans hlonger, ne_of_prefix_folder hway⟩

/-- A file that is given a content. -/
theorem insert_changedWithin (hs : s.Sound) (content : Blob)
    (hplace : s.tree.node? (s.root ++ folder) = some .folder)
    (hnode : s.tree.node? (s.root ++ folder ++ [name]) ≠ some .folder) :
    ChangedWithin s
      { s with tree := ⟨s.tree.nodes.insert (s.root ++ folder ++ [name]) (.file content)⟩ }
      (· = folder ++ [name]) := by
  have hne : s.root ++ folder ++ [name] ≠ [] := by simp
  refine ⟨rfl, ⟨hs.root, hs.grown.insert hplace (.inr hnode)⟩, fun q c hq => ?_, fun q hq => ?_,
    fun q hq => ?_⟩
  · have hother : s.root ++ folder ++ [name] ≠ q := by
      rw [List.append_assoc]
      exact (hq _ rfl).symm
    rw [node?_insert hne, if_neg hother]
  · rw [node?_insert hne, if_neg, hq]
    rintro rfl
    exact hnode hq
  · rw [node?_insert hne] at hq
    split at hq
    · cases hq
    · exact .inl hq

/-- A file that is changed after the creation of its folders, whether it succeeds or not. -/
theorem changeAt_changedWithin (hs : s.Sound) (hplain : ∀ n ∈ folder ++ [name], IsPlain n)
    (action : String) (change : Option Blob → Blob) :
    ChangedWithin s (s.changeAt (folder ++ [name]) action
      fun t => t.modifyFile (s.root ++ (folder ++ [name])) change).2 (· = folder ++ [name]) := by
  have hcreated := createFolders_changedWithin hs folder name
  unfold changeAt
  rw [List.dropLast_concat]
  generalize s.tree.createFolders (s.root ++ folder) = created at hcreated
  obtain ⟨_ | _, t⟩ := created
  · exact hcreated
  · dsimp only
    split
    · rename_i u hmodify
      rw [← List.append_assoc] at hmodify
      obtain ⟨hplace, hnode, rfl⟩ := modifyFile_cases hcreated.sound.grown
        (by rw [List.append_assoc]; exact hs.plain hplain) hmodify
      exact hcreated.trans (insert_changedWithin hcreated.sound _ hplace hnode)
    · exact hcreated

/-- A file that is removed, whether it succeeds or not. -/
theorem deleteAt_changedWithin (hs : s.Sound) (hplain : ∀ n ∈ folder ++ [name], IsPlain n) :
    ChangedWithin s (s.deleteAt (folder ++ [name])).2 (· = folder ++ [name]) := by
  unfold deleteAt
  split
  · rename_i u hremove
    obtain ⟨old, hfile, rfl⟩ := removeFile_cases hs.grown (hs.plain hplain) hremove
    have hne : s.root ++ (folder ++ [name]) ≠ [] := by simp
    refine ⟨rfl, ⟨hs.root, hs.grown.erase hne hfile⟩, fun q c hq => ?_, fun q hq => ?_,
      fun q hq => ?_⟩
    · rw [node?_erase hne, if_neg (hq _ rfl).symm]
    · rw [node?_erase hne, if_neg, hq]
      rintro rfl
      rw [hq] at hfile
      cases hfile
    · rw [node?_erase hne] at hq
      split at hq
      · cases hq
      · exact .inl hq
  · exact .refl hs
  · exact .refl hs

/-- A request changes at most the file under the path of its key, and the folders on the way,
whether it succeeds or not. -/
theorem apply_changedWithin (hs : s.Sound) (hpath : key.path? = .ok path) (r : StoreRequest) :
    ChangedWithin s (r.apply key s) (· = path) := by
  obtain ⟨folder, name, rfl, hplain⟩ := ResourceKey.path?_eq_ok hpath
  cases r with
  | write blob =>
    rw [StoreRequest.apply, write_eq hpath]
    exact changeAt_changedWithin hs hplain _ _
  | append lines =>
    rw [StoreRequest.apply, appendLines_eq hpath]
    exact changeAt_changedWithin hs hplain _ _
  | delete =>
    rw [StoreRequest.apply, delete_eq hpath]
    exact deleteAt_changedWithin hs hplain

/-- One store is another after a change of the file under one path: the folder of the store stays
the same, and so does every other file. -/
structure ChangedAt (s u : FileStore) (path : List String) : Prop where
  root : u.root = s.root
  sound : u.Sound
  files : ∀ q content, q ≠ s.root ++ path →
    (u.tree.node? q = some (.file content) ↔ s.tree.node? q = some (.file content))

/-- A request changes at most the file under the path of its key, whether it succeeds or not. -/
theorem apply_changedAt (hs : s.Sound) (hpath : key.path? = .ok path) (r : StoreRequest) :
    ChangedAt s (r.apply key s) path := by
  have hchanged := apply_changedWithin hs hpath r
  refine ⟨hchanged.root, hchanged.sound, fun q content hq => hchanged.files q content ?_⟩
  rintro p rfl
  exact hq

/-- A request under one path is not seen under another. -/
theorem read_apply_iff {a b : ResourceKey} {p q : List String} (hs : s.Sound)
    (hp : a.path? = .ok p) (hq : b.path? = .ok q) (hne : p ≠ q) (r : StoreRequest) :
    StateStore.read (r.apply a s) b = .ok (some content) ↔
      StateStore.read s b = .ok (some content) := by
  have hchanged := apply_changedAt hs hp r
  rw [read_eq_some_iff hchanged.sound hq, read_eq_some_iff hs hq, hchanged.root,
    hchanged.files _ _ fun heq => hne (List.append_cancel_left heq).symm]

/-! ## Requests that succeed -/

/-- One store is another after the file under one path was given a content: its folders may have
been created, and nothing else is changed. -/
structure WrittenAt (s u : FileStore) (path : List String) (content : Blob) : Prop where
  root : u.root = s.root
  sound : u.Sound
  file : u.tree.node? (s.root ++ path) = some (.file content)
  others : ∀ q, q ≠ s.root ++ path →
    u.tree.node? q = s.tree.node? q ∨
      s.tree.node? q = none ∧ u.tree.node? q = some .folder ∧ q <+: s.root ++ path

/-- A file is changed if the file system can hold its path, and neither a folder stands under it nor
a file on the way. -/
theorem changeAt_eq (hs : s.Sound) (hplain : ∀ n ∈ folder ++ [name], IsPlain n)
    (hholds : Holds (s.root ++ (folder ++ [name])))
    (hway : s.tree.OnWay [] (s.root ++ (folder ++ [name])))
    (hnode : s.tree.node? (s.root ++ (folder ++ [name])) ≠ some .folder) (action : String)
    (change : Option Blob → Blob) :
    ∃ u, s.changeAt (folder ++ [name]) action
        (fun t => t.modifyFile (s.root ++ (folder ++ [name])) change) = (.ok (), u) ∧
      WrittenAt s u (folder ++ [name]) (change (s.tree.file? (s.root ++ (folder ++ [name])))) := by
  have hne : s.root ++ folder ++ [name] ≠ [] := by simp
  have hplain := hs.plain hplain
  rw [← List.append_assoc] at hholds hway hnode hplain ⊢
  obtain ⟨hadded, hgrown⟩ := createFolders_added hs.grown (s.root ++ folder)
  obtain ⟨hok, hfolder⟩ := createFolders_eq hs.grown hholds.of_append hway
  unfold changeAt
  rw [List.dropLast_concat]
  generalize s.tree.createFolders (s.root ++ folder) = created at hadded hgrown hok hfolder
  obtain ⟨result, t⟩ := created
  dsimp only at hadded hgrown hok hfolder
  subst hok
  have hnode' : t.node? (s.root ++ folder ++ [name]) ≠ some .folder := by
    rcases hadded (s.root ++ folder ++ [name]) with heq | ⟨-, -, hprefix⟩
    · rwa [heq]
    · have hlength := hprefix.length_le
      rw [List.length_append, List.length_singleton] at hlength
      omega
  dsimp only
  rw [modifyFile_eq hgrown hplain hholds hfolder hnode', hadded.file?_eq]
  refine ⟨_, rfl, rfl, ⟨hs.root, hgrown.insert hfolder (.inr hnode')⟩, ?_, fun q hq => ?_⟩
  · dsimp only
    rw [← List.append_assoc, node?_insert hne, if_pos rfl]
  · dsimp only
    rw [← List.append_assoc] at hq ⊢
    rw [node?_insert hne, if_neg (Ne.symm hq)]
    rcases hadded q with heq | ⟨hnone, hadd, hprefix⟩
    · exact .inl heq
    · exact .inr ⟨hnone, hadd, hprefix.trans (List.prefix_append _ _)⟩

end FileStore

end ScriptHost
