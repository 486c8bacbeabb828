import ScriptHost.Proofs.Files
/-!
# Storage in files refines storage in memory

A store in files that starts below an empty folder gives the same answers as a store in memory, as
long as the keys in use have paths that the file system can hold and no path is another one or a
folder on the way to it.  The reason is that the two mirror each other: under the path of each key
stands a file with the blob that lies in memory under the key, or nothing, and no file stands on the
way.  Folders that earlier operations have left behind do no harm, since none of them stands under a
path in use.

## Main definitions

* `StoreUse`, `StoreUse.run`, `StoreUse.runAll`: uses of a store with their answers.
* `FileStore.Bare`: a store below an empty folder, which need not even exist.
* `FilesApart`: keys whose files do not get in each other's way.
* `Mirrors`: a store in files that holds what a store in memory holds.

## Main statements

* `Mirrors.run`: one use is answered in the same way and keeps the stores alike.
* `FileStore.answersAsMemory_of_bare`: any uses are answered in the same way.
-/

namespace ScriptHost

open FileTree

/-! ## Uses of a store -/

/-- One operation on a store. -/
inductive StoreUse where
  | read (key : ResourceKey)
  | readLines (key : ResourceKey)
  | write (key : ResourceKey) (blob : Blob)
  | append (key : ResourceKey) (lines : List String)
  | delete (key : ResourceKey)

/-- The answer of a store to an operation. -/
inductive StoreAnswer where
  | blob (r : Except StoreError (Option Blob))
  | text (r : Except StoreError (Option (List String)))
  | done (r : Except StoreError Unit)
  | removed (r : Except StoreError Bool)

namespace StoreUse

variable {σ : Type} [StateStore σ]

/-- The key that an operation is about. -/
def key : StoreUse → ResourceKey
  | read key | readLines key | write key _ | append key _ | delete key => key

/-- The answer to an operation, and the store after it. -/
def run : StoreUse → σ → StoreAnswer × σ
  | read key, a => (.blob (StateStore.read a key), a)
  | readLines key, a => (.text (StateStore.readLines a key), a)
  | write key blob, a => (StateStore.write a key blob).map .done id
  | append key lines, a => (StateStore.appendLines a key lines).map .done id
  | delete key, a => (StateStore.delete a key).map .removed id

/-- The answers to operations that are done one after the other. -/
def runAll : List StoreUse → σ → List StoreAnswer
  | [], _ => []
  | use :: uses, a => (use.run a).1 :: runAll uses (use.run a).2

end StoreUse

/-! ## The assumptions -/

/-- A store below a folder that is empty or missing, in a tree without gaps. -/
structure FileStore.Bare (s : FileStore) : Prop extends s.Sound where
  way : ∀ p q content, s.root = p ++ q → s.tree.node? p ≠ some (.file content)
  below : ∀ q, q ≠ [] → s.tree.node? (s.root ++ q) = none

/-- Keys whose files below a folder do not get in each other's way: each has a path that is within
the limits of the file system, and no path is that of another key or a folder on the way to it. -/
structure FilesApart (root : List String) (keys : ResourceKey → Prop) : Prop where
  held : ∀ key, keys key → ∃ path, key.path? = .ok path ∧ Holds (root ++ path)
  apart : ∀ k l p q, keys k → keys l → k.path? = .ok p → l.path? = .ok q → p <+: q → k = l

/-- A store in files holds, under the paths of some keys, what a store in memory holds under the
keys, and no file stands on the way. -/
structure Mirrors (keys : ResourceKey → Prop) (s : FileStore) (m : MemoryStore) : Prop where
  sound : s.Sound
  way : ∀ key path, keys key → key.path? = .ok path → s.tree.OnWay [] (s.root ++ path)
  node : ∀ key path, keys key → key.path? = .ok path →
    s.tree.node? (s.root ++ path) = (m.get? key).map .file

section

variable {keys : ResourceKey → Prop} {s u : FileStore} {m : MemoryStore} {key : ResourceKey}
  {path : List String}

/-- A store below an empty folder holds what an empty store in memory holds. -/
theorem FileStore.Bare.mirrors (h : s.Bare) : Mirrors keys s ∅ where
  sound := h.toSound
  way key path hkey hpath := by
    intro p q content hpq hq
    rw [List.nil_append]
    rcases List.append_eq_append_iff.1 hpq with ⟨below, rfl, hbelow⟩ | ⟨rest, hroot, -⟩
    · intro hfile
      rcases eq_or_ne below [] with rfl | hne
      · rw [List.append_nil] at hfile
        exact h.way _ [] content (List.append_nil _).symm hfile
      · rw [h.below below hne] at hfile
        cases hfile
    · exact h.way p rest content hroot
  node key path hkey hpath := by
    obtain ⟨folder, name, rfl, -⟩ := ResourceKey.path?_eq_ok hpath
    rw [h.below _ (by simp)]
    rfl

namespace Mirrors

variable (hmirrors : Mirrors keys s m) (hkeys : FilesApart s.root keys) (hkey : keys key)

include hmirrors hkeys hkey

/-- What is read from files is what is read from memory. -/
theorem read_eq : StateStore.read s key = StateStore.read m key := by
  obtain ⟨path, hpath, hholds⟩ := hkeys.held key hkey
  obtain ⟨_, _, _, hplain⟩ := ResourceKey.path?_eq_ok hpath
  have hplain := hmirrors.sound.plain hplain
  have hnode := hmirrors.node key path hkey hpath
  rw [FileStore.read_eq hpath]
  show _ = Except.ok (m.get? key)
  unfold FileStore.readAt
  cases hblob : m.get? key with
  | none =>
    rw [hblob] at hnode
    have hfind := find_eq_notFound hplain hholds (hmirrors.way key path hkey hpath) hnode
    unfold readFile
    rw [hfind]
    rfl
  | some blob =>
    rw [hblob] at hnode
    rw [(readFile_eq_ok_iff hmirrors.sound.grown hplain).2 ⟨hholds, hnode⟩]

/-- Lines that are read from files are the lines that are read from memory. -/
theorem readLines_eq : StateStore.readLines s key = StateStore.readLines m key := by
  unfold StateStore.readLines
  rw [hmirrors.read_eq hkeys hkey]

/-- The file of a key that is given a content mirrors the blob that is put under the key. -/
theorem written {m' : MemoryStore} {content : Blob} (hpath : key.path? = .ok path)
    (hwritten : FileStore.WrittenAt s u path content)
    (hput : ∀ l, m'.get? l = if key = l then some content else m.get? l) : Mirrors keys u m' where
  sound := hwritten.sound
  way l q hl hq := by
    rw [hwritten.root]
    intro before after c hsplit hafter hfile
    rw [List.nil_append] at hfile
    by_cases hbefore : before = s.root ++ path
    · -- the path would be that of a folder on the way to the path of another key
      rw [hbefore, List.append_assoc] at hsplit
      have hcut := List.append_cancel_left hsplit
      obtain rfl := hkeys.apart key l path q hkey hl hpath hq (hcut ▸ List.prefix_append _ _)
      rw [hpath] at hq
      cases hq
      exact hafter (List.append_cancel_left ((List.append_nil _).trans hcut)).symm
    · rcases hwritten.others before hbefore with heq | ⟨-, hfolder, -⟩
      · rw [heq] at hfile
        exact hmirrors.way l q hl hq before after c hsplit hafter hfile
      · rw [hfolder] at hfile
        cases hfile
  node l q hl hq := by
    rw [hwritten.root, hput]
    by_cases hkl : key = l
    · subst hkl
      rw [hpath] at hq
      cases hq
      rw [if_pos rfl, hwritten.file]
      rfl
    · rw [if_neg hkl, ← hmirrors.node l q hl hq]
      have hne : s.root ++ q ≠ s.root ++ path := by
        intro heq
        obtain rfl := List.append_cancel_left heq
        exact hkl (hkeys.apart key l q q hkey hl hpath hq (List.prefix_refl _))
      rcases hwritten.others _ hne with heq | ⟨-, -, hprefix⟩
      · exact heq
      · have hprefix := (List.prefix_append_right_inj s.root).1 hprefix
        exact absurd (hkeys.apart l key q path hl hkey hq hpath hprefix).symm hkl

/-- The change of a file mirrors the change of the blob under its key. -/
theorem changeAt_eq {m' : MemoryStore} (hpath : key.path? = .ok path) (action : String)
    (change : Option Blob → Blob)
    (hput : ∀ l, m'.get? l = if key = l then some (change (m.get? key)) else m.get? l) :
    ∃ u, s.changeAt path action (fun t => t.modifyFile (s.root ++ path) change) = (.ok (), u) ∧
      u.root = s.root ∧ Mirrors keys u m' := by
  obtain ⟨_, hpath', hholds⟩ := hkeys.held key hkey
  rw [hpath] at hpath'
  cases hpath'
  obtain ⟨folder, name, rfl, hplain⟩ := ResourceKey.path?_eq_ok hpath
  have hnode := hmirrors.node key _ hkey hpath
  have hfile : s.tree.file? (s.root ++ (folder ++ [name])) = m.get? key := by
    apply Option.ext
    intro blob
    rw [file?_eq_some_iff, hnode]
    cases m.get? key <;> simp
  have hfolder : s.tree.node? (s.root ++ (folder ++ [name])) ≠ some .folder := by
    rw [hnode]
    cases m.get? key <;> simp
  obtain ⟨u, hu, hwritten⟩ := FileStore.changeAt_eq hmirrors.sound hplain hholds
    (hmirrors.way key _ hkey hpath) hfolder action change
  rw [hfile] at hwritten
  exact ⟨u, hu, hwritten.root, hmirrors.written hkeys hkey hpath hwritten hput⟩

/-- The removal of a file mirrors the removal of the blob under its key. -/
theorem deleteAt_eq (hpath : key.path? = .ok path) :
    ∃ u, s.deleteAt path = (.ok (m.get? key).isSome, u) ∧ u.root = s.root ∧
      Mirrors keys u (m.erase key) := by
  obtain ⟨_, hpath', hholds⟩ := hkeys.held key hkey
  rw [hpath] at hpath'
  cases hpath'
  obtain ⟨folder, name, rfl, hplain⟩ := ResourceKey.path?_eq_ok hpath
  have hplain := hmirrors.sound.plain hplain
  have hnode := hmirrors.node key _ hkey hpath
  unfold FileStore.deleteAt
  cases hblob : m.get? key with
  | none =>
    rw [hblob] at hnode
    rw [removeFile_eq_notFound hplain hholds (hmirrors.way key _ hkey hpath) hnode]
    refine ⟨s, rfl, rfl, hmirrors.sound, hmirrors.way, fun l q hl hq => ?_⟩
    rw [hmirrors.node l q hl hq, MemoryStore.get?_erase]
    split
    · rename_i hkl
      rw [← hkl, hblob]
    · rfl
  | some blob =>
    rw [hblob] at hnode
    rw [removeFile_eq hmirrors.sound.grown hplain hholds hnode]
    have hne : s.root ++ (folder ++ [name]) ≠ [] := by simp
    refine ⟨_, rfl, rfl, ⟨hmirrors.sound.root, hmirrors.sound.grown.erase hne hnode⟩, ?_, ?_⟩
    · intro l q hl hq before after c hsplit hafter hfile
      dsimp only at hsplit hfile
      rw [node?_erase hne] at hfile
      split at hfile
      · cases hfile
      · exact hmirrors.way l q hl hq before after c hsplit hafter hfile
    · intro l q hl hq
      dsimp only
      rw [node?_erase hne, MemoryStore.get?_erase, hmirrors.node l q hl hq]
      by_cases hkl : key = l
      · subst hkl
        rw [hpath] at hq
        cases hq
        rw [if_pos rfl, if_pos rfl]
        rfl
      · rw [if_neg hkl, if_neg]
        intro heq
        obtain rfl := List.append_cancel_left heq
        exact hkl (hkeys.apart key l _ _ hkey hl hpath hq (List.prefix_refl _))

end Mirrors

/-- One operation is answered in the same way by stores that mirror each other, and they still do
afterwards. -/
theorem Mirrors.run (hmirrors : Mirrors keys s m) (hkeys : FilesApart s.root keys) (use : StoreUse)
    (hkey : keys use.key) :
    (use.run s).1 = (use.run m).1 ∧ (use.run s).2.root = s.root ∧
      Mirrors keys (use.run s).2 (use.run m).2 := by
  obtain ⟨path, hpath, -⟩ := hkeys.held use.key hkey
  cases use with
  | read key =>
    exact ⟨congrArg StoreAnswer.blob (hmirrors.read_eq hkeys hkey), rfl, hmirrors⟩
  | readLines key =>
    exact ⟨congrArg StoreAnswer.text (hmirrors.readLines_eq hkeys hkey), rfl, hmirrors⟩
  | write key blob =>
    dsimp only [StoreUse.key] at hkey hpath
    obtain ⟨u, hu, hroot, hmirrors⟩ := hmirrors.changeAt_eq hkeys hkey hpath "failed to write"
      (fun _ => blob) fun _ => MemoryStore.get?_insert
    rw [StoreUse.run, StoreUse.run, FileStore.write_eq hpath, hu]
    exact ⟨rfl, hroot, hmirrors⟩
  | append key lines =>
    dsimp only [StoreUse.key] at hkey hpath
    obtain ⟨u, hu, hroot, hmirrors⟩ := hmirrors.changeAt_eq hkeys hkey hpath "failed to open"
      (fun old => old.getD ByteArray.empty ++ (Text.unlines lines).toUTF8)
      fun _ => MemoryStore.get?_append
    rw [StoreUse.run, StoreUse.run, FileStore.appendLines_eq hpath, hu]
    exact ⟨rfl, hroot, hmirrors⟩
  | delete key =>
    dsimp only [StoreUse.key] at hkey hpath
    obtain ⟨u, hu, hroot, hmirrors⟩ := hmirrors.deleteAt_eq hkeys hkey hpath
    rw [StoreUse.run, StoreUse.run, FileStore.delete_eq hpath, hu]
    exact ⟨rfl, hroot, hmirrors⟩

/-- Any operations are answered in the same way by stores that mirror each other. -/
theorem Mirrors.runAll (hmirrors : Mirrors keys s m) (hkeys : FilesApart s.root keys)
    {uses : List StoreUse} (huses : ∀ use ∈ uses, keys use.key) :
    StoreUse.runAll uses s = StoreUse.runAll uses m := by
  induction uses generalizing s m with
  | nil => rfl
  | cons use uses ih =>
    obtain ⟨hanswer, hroot, hmirrors⟩ := hmirrors.run hkeys use (huses use List.mem_cons_self)
    unfold StoreUse.runAll
    rw [hanswer, ih hmirrors (by rw [hroot]; exact hkeys) fun v hv =>
      huses v (List.mem_cons_of_mem _ hv)]

/-- Any operations on keys with paths that do not get in each other's way are answered by a store in
files, below a folder that is empty at first, as they are by a store in memory. -/
theorem FileStore.answersAsMemory_of_bare (hs : s.Bare) {uses : List StoreUse}
    (hkeys : FilesApart s.root fun key => ∃ use ∈ uses, use.key = key) :
    StoreUse.runAll uses s = StoreUse.runAll uses (∅ : MemoryStore) :=
  hs.mirrors.runAll hkeys fun use huse => ⟨use, huse, rfl⟩

end

/-- The state of a camera, a log of its own and a map that is no text, each with its path. -/
def cameraFiles : List (ResourceKey × List String) :=
  [(.globalState "camera", ["camera.data.nbt"]),
    (.resource (some "camera") "log/day" .text false, ["camera.data", "log", "day.txt"]),
    (.resource none "map" .text true, ["shared", "map.txt"])]

/-- The camera keeps its log, removes it while the folders stay, and begins it again. -/
def cameraUses : List StoreUse :=
  let log := .resource (some "camera") "log/day" .text false
  let map := .resource none "map" .text true
  [.readLines log, .append log [], .readLines log, .append log ["on", "off"],
    .write (.globalState "camera") "1".toUTF8, .delete map, .write map ⟨#[0x6d, 0xff]⟩,
    .readLines map, .readLines log, .delete log, .delete log, .read log, .append log ["on"],
    .readLines log, .read (.globalState "camera")]

/-- The camera is answered by files below a new folder as it is by memory. -/
theorem FileStore.answersAsMemory_camera :
    let s : FileStore := { tree := ∅, root := ["var", "data"], displayRoot := "/var/data" }
    s.Bare ∧ FilesApart s.root (fun key => ∃ use ∈ cameraUses, use.key = key) ∧
      StoreUse.runAll cameraUses s = StoreUse.runAll cameraUses (∅ : MemoryStore) := by
  intro s
  have hs : s.Bare :=
    { root := by
        show ∀ n ∈ ["var", "data"], n ≠ "" ∧ n ≠ "." ∧ n ≠ ".."
        decide
      grown := grown_empty
      way := by
        intro p q content _
        show (∅ : FileTree).node? p ≠ _
        rcases eq_or_ne p [] with rfl | hp
        · simp
        · rw [node?_empty hp]
          simp
      below := fun q hq => node?_empty (by simp [hq]) }
  have hlisted : ∀ use ∈ cameraUses, ∃ file ∈ cameraFiles, file.1 = use.key := by decide +kernel
  have hpaths : ∀ file ∈ cameraFiles, file.1.path? = .ok file.2 := by decide +kernel
  have hkeys : FilesApart s.root fun key => ∃ use ∈ cameraUses, use.key = key :=
    { held := by
        rintro _ ⟨use, huse, rfl⟩
        obtain ⟨file, hfile, hkey⟩ := hlisted use huse
        have hcheck : ∀ file ∈ cameraFiles, checkPath (["var", "data"] ++ file.2) = .ok () := by
          decide +kernel
        have hshort : ∀ file ∈ cameraFiles, ∀ n ∈ ["var", "data"] ++ file.2,
            n.utf8ByteSize ≤ maxNameSize := by decide +kernel
        exact ⟨file.2, by rw [← hkey, hpaths file hfile], hcheck file hfile, hshort file hfile⟩
      apart := by
        rintro _ _ p q ⟨use, huse, rfl⟩ ⟨other, hother, rfl⟩ hp hq hprefix
        obtain ⟨a, ha, hakey⟩ := hlisted use huse
        obtain ⟨b, hb, hbkey⟩ := hlisted other hother
        rw [← hakey, hpaths a ha] at hp
        rw [← hbkey, hpaths b hb] at hq
        cases hp
        cases hq
        have hfiles : ∀ a ∈ cameraFiles, ∀ b ∈ cameraFiles, a.2 <+: b.2 → a.1 = b.1 := by
          decide +kernel
        rw [← hakey, ← hbkey, hfiles a ha b hb hprefix] }
  exact ⟨hs, hkeys, answersAsMemory_of_bare hs hkeys⟩

end ScriptHost
