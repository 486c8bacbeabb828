import Mathlib
import ScriptHost.Proofs.Agreement
import ScriptHost.Proofs.Layout
/-!
# Listed apps and found apps

A catalogue lists its apps under the names of their sources, as these are written.  An app is looked
up under its name in small letters, and without libraries.  Listing and looking up take different
ways: the first goes through all that is there, and the second asks for one name.  Both come to the
same: what is listed under a name in small letters is found, and nothing else that is listed leads
to anything, unless a source of the same name in small letters is there too.

For a folder the comparison goes through what it contains.  A file name is that of an app just if it
is the name, which is not empty, with the extension of apps; and a name without a slash leads to a
file of the folder just if the folder contains it, since no step goes to another place.

## Main definitions

* `ModuleFolder.Contains`: an entry of the folder.
* `ModuleFolder.IsProper`: a folder that a file system can hold.
* `Catalogue.Lists`: what listing and looking up have in common.

## Main statements

* `ModuleFolder.appName?_eq_some_iff`: the file name of an app.
* `ModuleFolder.mem_appNames`, `ModuleFolder.exists_moduleAt?_iff`: both ways for a folder.
* `Catalogue.lists_of_isProper`: catalogues in memory and in a folder list what is found.
* `Catalogue.hidden_camera`: an app under a capital letter is listed, and not found.
-/

namespace ScriptHost

/-! ## Modules in memory -/

namespace MemoryModules

variable {ms : MemoryModules} {name : String} {m : Module}

/-- The apps in memory are listed under the names under which they are found. -/
theorem mem_appNames : name ∈ ms.appNames ↔ ∃ m, ms.find? name false = some m := by
  unfold appNames find?
  simp only [List.mem_filterMap, Option.filter_eq_some_iff]
  constructor
  · rintro ⟨⟨n, m⟩, hmem, h⟩
    dsimp only at h
    split at h
    · cases h
    · rename_i happ
      obtain rfl := Option.some.inj h
      exact ⟨m, Std.ExtTreeMap.mem_toList_iff_getElem?_eq_some.1 hmem, by simp [happ]⟩
  · rintro ⟨m, hm, happ⟩
    have hnot : m.isLibrary = false := by simpa using happ
    exact ⟨(name, m), Std.ExtTreeMap.mem_toList_iff_getElem?_eq_some.2 hm, by simp [hnot]⟩

theorem isLibrary_of_find? (h : ms.find? name false = some m) : m.isLibrary = false := by
  unfold find? at h
  rw [Option.filter_eq_some_iff] at h
  simpa using h.2

/-- A library in memory is not found by those who do not ask for one. -/
theorem find?_eq_none_of_library (h : ms.find? name true = some m) (hlibrary : m.isLibrary = true) :
    ms.find? name false = none := by
  unfold find? at h ⊢
  rw [Option.filter_eq_some_iff] at h
  rw [h.1]
  simp [Option.filter, hlibrary]

end MemoryModules

/-! ## Modules in a folder -/

namespace ModuleFolder

open FileTree

variable {folder : ModuleFolder} {name fileName ext : String} {isLibrary : Bool} {m : Module}

/-! ### The file names of apps -/

/-- A file name with a dot, cut at the last one. -/
theorem appName?_append (stem : String) (hext : '.' ∉ ext.toList) :
    appName? (stem ++ "." ++ ext) =
      if ext = appExtension ∧ stem ≠ "" then some stem else none := by
  have hsplit : (stem ++ "." ++ ext).toList.splitOn '.' =
      stem.toList.splitOn '.' ++ [ext.toList] := by
    rw [String.toList_append, String.toList_append, List.append_assoc]
    show List.splitOn '.' (stem.toList ++ '.' :: ext.toList) = _
    rw [List.splitOn_append_cons_self, List.splitOn_eq_singleton hext]
  have hstem : ".".intercalate ((stem.toList.splitOn '.').map String.ofList) = stem := by
    rw [← String.toList_inj, String.toList_intercalate, List.map_map]
    have hmap : String.toList ∘ String.ofList = id := by
      funext l
      exact String.toList_ofList
    rw [hmap, List.map_id]
    exact List.intercalate_splitOn '.'
  obtain ⟨last, more, hmore⟩ : ∃ last more, (stem.toList.splitOn '.').reverse = last :: more :=
    List.exists_cons_of_ne_nil fun h =>
      List.splitOn_ne_nil '.' stem.toList (List.reverse_eq_nil_iff.1 h)
  unfold appName?
  rw [hsplit, List.reverse_append, List.reverse_singleton, List.singleton_append, hmore]
  dsimp only
  rw [← hmore, List.reverse_reverse, hstem, String.ofList_toList]

theorem appName?_of_not_mem (h : '.' ∉ fileName.toList) : appName? fileName = none := by
  unfold appName?
  rw [List.splitOn_eq_singleton h]
  rfl

/-- The app of a file is named by the part of the file name before the extension. -/
theorem appName?_eq_some_iff :
    appName? fileName = some name ↔ name ≠ "" ∧ fileName = name ++ "." ++ appExtension := by
  have hext : '.' ∉ appExtension.toList := by decide
  constructor
  · intro h
    by_cases hdot : '.' ∈ fileName.toList
    · obtain ⟨last, front, hrev, hlast⟩ := List.eq_append_cons_of_mem (List.mem_reverse.2 hdot)
      have hcut : fileName =
          String.ofList front.reverse ++ "." ++ String.ofList last.reverse := by
        rw [← String.toList_inj, ← List.reverse_inj, hrev]
        simp
      have hno : '.' ∉ (String.ofList last.reverse).toList := by
        rwa [String.toList_ofList, List.mem_reverse]
      rw [hcut, appName?_append _ hno] at h
      split at h
      · rename_i hparts
        rw [hcut, hparts.1, ← Option.some.inj h]
        exact ⟨hparts.2, rfl⟩
      · cases h
    · rw [appName?_of_not_mem hdot] at h
      cases h
  · rintro ⟨hname, rfl⟩
    rw [appName?_append name hext, if_pos ⟨rfl, hname⟩]

/-! ### What a folder contains -/

/-- The folder can be read, and has an entry of that name. -/
def Contains (folder : ModuleFolder) (fileName : String) : Prop :=
  ∃ names, folder.tree.children folder.root = .ok names ∧ fileName ∈ names

/-- A folder as a file system has it: names have no slash, and every entry can be held. -/
def IsProper (folder : ModuleFolder) : Prop :=
  ∀ fileName, folder.Contains fileName →
    '/' ∉ fileName.toList ∧ checkPath (folder.root ++ [fileName]) = .ok () ∧
      fileName.utf8ByteSize ≤ maxNameSize

/-- The apps of a folder are listed under the names of their sources. -/
theorem mem_appNames :
    name ∈ folder.appNames ↔ name ≠ "" ∧ folder.Contains (name ++ "." ++ appExtension) := by
  unfold appNames Contains
  cases folder.tree.children folder.root with
  | error e => simp
  | ok names =>
    dsimp only
    rw [List.mem_mergeSort, List.mem_filterMap]
    simp only [appName?_eq_some_iff, Except.ok.injEq, exists_eq_left']
    constructor
    · rintro ⟨fileName, hmem, hname, rfl⟩
      exact ⟨hname, hmem⟩
    · rintro ⟨hname, hmem⟩
      exact ⟨_, hmem, hname, rfl⟩

/-- An entry stands at the place to which the folder leads. -/
theorem contains_iff :
    folder.Contains fileName ↔
      ∃ place, folder.tree.resolve folder.root = .ok (place, .folder) ∧
        (folder.tree.node? (place ++ [fileName])).isSome := by
  have hkey : ∀ place : List String,
      (folder.tree.node? (place ++ [fileName])).isSome ↔
        place ++ [fileName] ∈ folder.tree.nodes := by
    intro place
    unfold node?
    rw [if_neg (by simp), Std.ExtTreeMap.isSome_getElem?_iff_mem]
  unfold Contains children
  cases folder.tree.resolve folder.root with
  | error e => simp [bind, Except.bind]
  | ok found =>
    obtain ⟨place, node⟩ := found
    cases node with
    | file content => simp [bind, Except.bind, throw, throwThe, MonadExceptOf.throw]
    | folder =>
      simp only [bind, Except.bind, pure, Except.pure, Except.ok.injEq, exists_eq_left',
        List.mem_filterMap, Std.ExtTreeMap.mem_keys, Prod.mk.injEq, and_true, hkey]
      constructor
      · rintro ⟨p, hp, hlast⟩
        split at hlast
        · rename_i hplace
          rwa [← hplace, List.dropLast_append_getLast? fileName hlast]
        · cases hlast
      · intro hmem
        refine ⟨_, hmem, ?_⟩
        rw [List.dropLast_concat, if_pos rfl, List.getLast?_concat]

/-- A plain name below a folder leads to something just if the folder contains it. -/
theorem find_concat (hplain : IsPlain fileName) :
    (∃ node, folder.tree.find (folder.root ++ [fileName]) = .ok node) ↔
      folder.Contains fileName ∧ checkPath (folder.root ++ [fileName]) = .ok () ∧
        fileName.utf8ByteSize ≤ maxNameSize := by
  rw [exists_find_iff, contains_iff]
  simp only [resolve_eq_ok_iff, follow_append]
  constructor
  · rintro ⟨p, node, hcheck, hfollow, hnode⟩
    cases hroot : folder.tree.follow [] folder.root with
    | error e =>
      rw [hroot] at hfollow
      cases hfollow
    | ok place =>
      rw [hroot] at hfollow
      obtain ⟨hfolder, hsize, rfl⟩ := (follow_singleton hplain).1 hfollow
      have hsome : (folder.tree.node? (place ++ [fileName])).isSome := by
        rw [hnode]
        rfl
      exact ⟨⟨place, ⟨checkPath_of_append hcheck, rfl, hfolder⟩, hsome⟩, hcheck, hsize⟩
  · rintro ⟨⟨place, ⟨-, hroot, hfolder⟩, hsome⟩, hcheck, hsize⟩
    obtain ⟨node, hnode⟩ := Option.isSome_iff_exists.1 hsome
    refine ⟨_, node, hcheck, ?_, hnode⟩
    rw [hroot]
    exact (follow_singleton hplain).2 ⟨hfolder, hsize, rfl⟩

/-! ### What is found in a folder -/

/-- Something is found at a file name just if the name leads to something. -/
theorem exists_moduleAt?_iff_find :
    (∃ f, folder.moduleAt? name ext isLibrary = some f) ↔
      ∃ node, folder.tree.find (pathIn folder.root (name ++ "." ++ ext)) = .ok node := by
  unfold moduleAt?
  dsimp only
  cases folder.tree.find (pathIn folder.root (name ++ "." ++ ext)) with
  | error e => simp
  | ok node =>
    cases node with
    | folder => simp
    | file content =>
      dsimp only
      cases Text.decode content <;> simp

/-- A module whose name has no slash is found just if the folder contains its source. -/
theorem exists_moduleAt?_iff (hfolder : folder.IsProper) (hname : '/' ∉ name.toList)
    (hext : ext = appExtension ∨ ext = libraryExtension) :
    (∃ f, folder.moduleAt? name ext isLibrary = some f) ↔
      folder.Contains (name ++ "." ++ ext) := by
  have hending : '/' ∉ ("." ++ ext).toList ∧ 2 < ("." ++ ext).length := by
    rcases hext with rfl | rfl <;> decide
  have hslash : '/' ∉ (name ++ "." ++ ext).toList := by
    rw [String.append_assoc, String.toList_append, List.mem_append]
    exact not_or.2 ⟨hname, hending.1⟩
  have hplain : IsPlain (name ++ "." ++ ext) := by
    rw [String.append_assoc]
    exact ResourceKey.isPlain_append name hending.2
  have hpath : pathIn folder.root (name ++ "." ++ ext) =
      folder.root ++ [name ++ "." ++ ext] := by
    have hhead : isAbsolute (name ++ "." ++ ext) = false :=
      decide_eq_false fun h => hslash (List.mem_of_head? h)
    unfold pathIn
    rw [hhead, if_neg Bool.false_ne_true, splitPath_of_not_mem hslash]
  rw [exists_moduleAt?_iff_find, hpath, find_concat hplain]
  exact ⟨fun h => h.1, fun h => ⟨h, (hfolder _ h).2⟩⟩

/-- A listed app has a name without a slash. -/
theorem slash_not_mem_of_mem_appNames (hfolder : folder.IsProper) (h : name ∈ folder.appNames) :
    '/' ∉ name.toList := by
  intro hslash
  apply (hfolder _ (mem_appNames.1 h).2).1
  rw [String.append_assoc, String.toList_append]
  exact List.mem_append_left _ hslash

/-- A name without a slash, as apps are looked up, is found just if it is listed. -/
theorem exists_app_iff (hfolder : folder.IsProper) (hempty : name ≠ "")
    (hname : '/' ∉ name.toList) :
    (∃ f, folder.moduleAt? (Text.lowercase name) appExtension false = some f) ↔
      Text.lowercase name ∈ folder.appNames := by
  have hslash : '/' ∉ (Text.lowercase name).toList :=
    fun h => hname (Text.slash_mem_of_mem_lowercase h)
  rw [exists_moduleAt?_iff hfolder hslash (.inl rfl), mem_appNames]
  exact (and_iff_right (Text.lowercase_ne_empty hempty)).symm

theorem find_false_eq_none_iff :
    (folder.find name false).found = none ↔
      folder.moduleAt? (Text.lowercase name) appExtension false = none := by
  unfold find
  dsimp only
  cases happ : folder.moduleAt? (Text.lowercase name) appExtension false with
  | none => simp
  | some f =>
    obtain ⟨code, hf⟩ := found_of_moduleAt? happ
    simp [hf]

/-- A library is found in a folder where there is no app of the name. -/
theorem library_of_find (h : (folder.find name true).found = some m)
    (hlibrary : m.isLibrary = true) :
    m.name = Text.lowercase name ∧
      folder.moduleAt? (Text.lowercase name) appExtension false = none := by
  unfold find at h
  dsimp only at h
  cases happ : folder.moduleAt? (Text.lowercase name) appExtension false with
  | some f =>
    obtain ⟨code, hf⟩ := found_of_moduleAt? happ
    rw [happ] at h
    obtain rfl := Option.some.inj (hf.symm.trans h)
    cases hlibrary
  | none =>
    rw [happ] at h
    cases hlib : folder.moduleAt? (Text.lowercase name) libraryExtension true with
    | none =>
      rw [hlib] at h
      cases h
    | some f =>
      obtain ⟨code, hf⟩ := found_of_moduleAt? hlib
      rw [hlib] at h
      obtain rfl := Option.some.inj (hf.symm.trans h)
      exact ⟨rfl, rfl⟩

end ModuleFolder

/-! ## Catalogues -/

namespace Catalogue

/-- A catalogue of modules in memory, or in a folder as a file system has it. -/
inductive IsProper : Catalogue → Prop where
  | memory (l : List Module) : IsProper (MemoryModules.ofList l).catalogue
  | folder (folder : ModuleFolder) (h : folder.IsProper) : IsProper folder.catalogue

/-- What the list of apps says of the search for an app, which is made under its name in small
letters.  A name with a slash may lead out of a folder, and is not listed there. -/
structure Lists (c : Catalogue) : Prop where
  found : ∀ name, Text.lowercase name ∈ c.appNames →
    ∃ code, (c.find (Text.lowercase name) false).found =
      some { name := Text.lowercase name, code, isLibrary := false }
  missing : ∀ name, name ∈ c.appNames ∨ (name ≠ "" ∧ '/' ∉ name.toList) →
    Text.lowercase name ∉ c.appNames → (c.find (Text.lowercase name) false).found = none
  app : ∀ name m, (c.find name false).found = some m → m.isLibrary = false
  library : ∀ name m, (c.find name true).found = some m → m.isLibrary = true →
    m.name ∉ c.appNames ∧ (c.find m.name false).found = none

end Catalogue

theorem MemoryModules.lists (l : List Module) : (ofList l).catalogue.Lists where
  found name h := by
    obtain ⟨m, hm⟩ := mem_appNames.1 h
    obtain ⟨-, hname⟩ := of_find? hm
    refine ⟨m.code, ?_⟩
    show (ofList l).find? _ false = _
    rw [hm, ← hname, ← isLibrary_of_find? hm]
  missing name _ h := by
    show (ofList l).find? _ false = none
    rw [← Option.not_isSome_iff_eq_none, Option.isSome_iff_exists]
    exact fun hfound => h (mem_appNames.2 hfound)
  app _ _ h := isLibrary_of_find? h
  library name m h hlibrary := by
    have hnone := find?_eq_none_of_library h hlibrary
    have hname : m.name = name := (of_find? h).2
    rw [hname]
    refine ⟨fun hlisted => ?_, hnone⟩
    obtain ⟨n, hn⟩ := mem_appNames.1 hlisted
    rw [hnone] at hn
    cases hn

theorem ModuleFolder.lists {folder : ModuleFolder} (hfolder : folder.IsProper) :
    folder.catalogue.Lists where
  found name h := by
    have hlisted : Text.lowercase name ∈ folder.appNames := h
    have hslash := slash_not_mem_of_mem_appNames hfolder hlisted
    obtain ⟨f, hf⟩ := (exists_app_iff hfolder (mem_appNames.1 hlisted).1 hslash).2
      (by rwa [Text.lowercase_lowercase])
    obtain ⟨code, hfound⟩ := found_of_moduleAt? hf
    refine ⟨code, ?_⟩
    show (folder.find (Text.lowercase name) false).found = _
    rw [find_false_eq_some_iff]
    rw [Text.lowercase_lowercase] at hfound
    exact ⟨f, hf, hfound⟩
  missing name hname h := by
    have hplain : name ≠ "" ∧ '/' ∉ name.toList := by
      rcases hname with hlisted | hplain
      · exact ⟨(mem_appNames.1 hlisted).1, slash_not_mem_of_mem_appNames hfolder hlisted⟩
      · exact hplain
    show (folder.find (Text.lowercase name) false).found = none
    rw [find_false_eq_none_iff, Text.lowercase_lowercase, ← Option.not_isSome_iff_eq_none,
      Option.isSome_iff_exists]
    exact fun hfound => h ((exists_app_iff hfolder hplain.1 hplain.2).1 hfound)
  app name m h := by
    have hm : (folder.find name false).found = some m := h
    obtain ⟨f, hf, hfound⟩ := find_false_eq_some_iff.1 hm
    obtain ⟨code, hcode⟩ := found_of_moduleAt? hf
    rw [← Option.some.inj (hcode.symm.trans hfound)]
  library name m h hlibrary := by
    have hm : (folder.find name true).found = some m := h
    obtain ⟨hname, hnone⟩ := library_of_find hm hlibrary
    show m.name ∉ folder.appNames ∧ (folder.find m.name false).found = none
    rw [hname, find_false_eq_none_iff, Text.lowercase_lowercase]
    refine ⟨fun hlisted => ?_, hnone⟩
    have hslash := slash_not_mem_of_mem_appNames hfolder hlisted
    obtain ⟨f, hf⟩ := (exists_app_iff hfolder (mem_appNames.1 hlisted).1 hslash).2
      (by rwa [Text.lowercase_lowercase])
    rw [Text.lowercase_lowercase, hnone] at hf
    cases hf

namespace Catalogue

/-- Modules in memory or in a folder: an app that is listed is found if its name in small letters is
listed, under that name and as an app, and not otherwise; libraries are neither listed nor found
without being asked for. -/
theorem lists_of_isProper {c : Catalogue} (h : c.IsProper) : c.Lists := by
  cases h with
  | memory l => exact MemoryModules.lists l
  | folder folder hfolder => exact ModuleFolder.lists hfolder

/-- The sources in a folder: an app in two letter cases, another under capitals only, a library of
the name of an app and one of its own, and a file that is no source. -/
def studioFolder : ModuleFolder where
  tree := ["Studio.sc", "studio.sc", "Camera.sc", "studio.scl", "math.scl", "notes.txt"].foldl
    (fun t name => t.putFile ["apps", name] "x".toUTF8) ∅
  root := ["apps"]
  displayRoot := "apps"

theorem children_studioFolder : studioFolder.tree.children studioFolder.root = .ok
    ["Camera.sc", "Studio.sc", "math.scl", "notes.txt", "studio.sc", "studio.scl"] := by
  decide +kernel

theorem isProper_studioFolder : studioFolder.IsProper := by
  rintro fileName ⟨names, hnames, hmem⟩
  obtain rfl := Except.ok.inj (children_studioFolder.symm.trans hnames)
  revert fileName
  decide +kernel

theorem mem_appNames_studioFolder : ∀ name ∈ ["Camera", "Studio", "studio"],
    name ∈ studioFolder.appNames := by
  intro name hname
  refine ModuleFolder.mem_appNames.2 ⟨?_, _, children_studioFolder, ?_⟩ <;> revert name <;>
    decide +kernel

/-- In a folder with sources under capitals too. -/
theorem lists_studioFolder :
    studioFolder.catalogue.IsProper ∧ "Studio" ∈ studioFolder.catalogue.appNames ∧
      studioFolder.catalogue.Lists :=
  ⟨.folder _ isProper_studioFolder, mem_appNames_studioFolder _ (by simp),
    lists_of_isProper (.folder _ isProper_studioFolder)⟩

/-- An app whose source has a capital letter in its name is listed, in a folder and in memory, and
not found as apps are looked up. -/
theorem hidden_camera :
    let memory := (MemoryModules.ofList [{ name := "Camera", code := some "" }]).catalogue
    ("Camera" ∈ studioFolder.catalogue.appNames ∧
      (studioFolder.catalogue.find (Text.lowercase "Camera") false).found = none) ∧
    "Camera" ∈ memory.appNames ∧ (memory.find (Text.lowercase "Camera") false).found = none := by
  refine ⟨⟨mem_appNames_studioFolder _ (by simp), ?_⟩, ?_, ?_⟩ <;> decide +kernel

end Catalogue

end ScriptHost
