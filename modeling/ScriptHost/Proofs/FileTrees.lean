import Mathlib
import ScriptHost.Resource.FileTree
/-!
# Trees that have grown

A tree of folders and files that is made by creating folders and files has no gap: what stands in
it stands in a folder.  In such a tree a path of plain names leads to what stands under it, and a
change of one file or the creation of folders leaves every other file as it is.

## Main definitions

* `FileTree.IsPlain`: a name that stands for itself.
* `FileTree.Grown`: a tree in which everything stands in a folder.
* `FileTree.Holds`: a path of names that the file system can hold.
* `FileTree.OnWay`: no file stands on the way to a path.

## Main statements

* `FileTree.find_eq_ok_iff`, `FileTree.find_eq_notFound`: what a path leads to.
* `FileTree.createFolders_added`, `FileTree.createFolders_eq`: the creation of folders.
* `FileTree.modifyFile_cases`, `FileTree.modifyFile_eq`: the change of a file.
* `FileTree.removeFile_cases`, `FileTree.removeFile_eq`: the removal of a file.
-/

namespace ScriptHost

namespace FileTree

/-! ## Names and paths -/

/-- A name that stands for an entry of a folder, and for no step to another place. -/
def IsPlain (name : String) : Prop := name ≠ "" ∧ name ≠ "." ∧ name ≠ ".."

/-- A path that the file system can hold: its names are not too long, and neither is the path. -/
structure Holds (path : List String) : Prop where
  check : checkPath path = .ok ()
  short : ∀ name ∈ path, name.utf8ByteSize ≤ maxNameSize

variable {t u : FileTree} {path place names q : List String} {name : String} {node : FileNode}

theorem pathSize_append (p q : List String) : pathSize (p ++ q) = pathSize p + pathSize q := by
  unfold pathSize
  rw [List.foldl_append]
  generalize p.foldl (fun size name => size + name.utf8ByteSize + 1) 0 = n
  induction q generalizing n with
  | nil => rfl
  | cons name q ih =>
    rw [List.foldl_cons, List.foldl_cons, ih, ih (0 + name.utf8ByteSize + 1)]
    omega

theorem checkPath_eq_ok_iff :
    checkPath path = .ok () ↔ path.all isUsable = true ∧ pathSize path ≤ maxPathSize := by
  unfold checkPath
  split
  · simp_all
  · split <;> simp_all

theorem checkPath_of_append (h : checkPath (path ++ q) = .ok ()) : checkPath path = .ok () := by
  obtain ⟨husable, hsize⟩ := checkPath_eq_ok_iff.1 h
  rw [List.all_append, Bool.and_eq_true] at husable
  rw [pathSize_append] at hsize
  exact checkPath_eq_ok_iff.2 ⟨husable.1, by omega⟩

/-- The file system can hold the folders of a path that it can hold. -/
theorem Holds.of_append (h : Holds (path ++ q)) : Holds path where
  check := checkPath_of_append h.check
  short name hmem := h.short name (List.mem_append_left _ hmem)

/-! ## What stands in a tree -/

@[simp] theorem node?_nil (t : FileTree) : t.node? [] = some .folder := rfl

theorem node?_empty (h : path ≠ []) : (∅ : FileTree).node? path = none := by
  unfold node?
  rw [if_neg h]
  exact Std.ExtTreeMap.getElem?_empty

theorem node?_insert (h : path ≠ []) :
    (⟨t.nodes.insert path node⟩ : FileTree).node? q =
      if path = q then some node else t.node? q := by
  unfold node?
  by_cases hq : q = []
  · rw [if_pos hq, if_pos hq, if_neg fun hpq => h (hpq.trans hq)]
  · rw [if_neg hq, if_neg hq]
    simp [Std.ExtTreeMap.getElem?_insert]

theorem node?_erase (h : path ≠ []) :
    (⟨t.nodes.erase path⟩ : FileTree).node? q = if path = q then none else t.node? q := by
  unfold node?
  by_cases hq : q = []
  · rw [if_pos hq, if_pos hq, if_neg fun hpq => h (hpq.trans hq)]
  · rw [if_neg hq, if_neg hq]
    simp [Std.ExtTreeMap.getElem?_erase]

/-- A tree without gaps: what stands in it stands in a folder. -/
def Grown (t : FileTree) : Prop :=
  ∀ ⦃place : List String⦄ ⦃name : String⦄, (t.node? (place ++ [name])).isSome →
    t.node? place = some .folder

theorem grown_empty : Grown ∅ := by
  intro place name h
  rw [node?_empty (by simp)] at h
  cases h

namespace Grown

/-- Every place on the way to something is a folder. -/
theorem folder_of_append (ht : t.Grown) (hnames : names ≠ [])
    (h : (t.node? (place ++ names)).isSome) : t.node? place = some .folder := by
  induction names using List.reverseRecOn with
  | nil => exact absurd rfl hnames
  | append_singleton names name ih =>
    rw [← List.append_assoc] at h
    have hfolder := ht h
    rcases eq_or_ne names [] with rfl | hne
    · rwa [List.append_nil] at hfolder
    · exact ih hne (by rw [hfolder]; rfl)

/-- Nothing stands below a file. -/
theorem node?_below_file (ht : t.Grown) {content : Blob} (hnames : names ≠ [])
    (h : t.node? place = some (.file content)) : t.node? (place ++ names) = none := by
  rw [← Option.not_isSome_iff_eq_none]
  intro hsome
  rw [ht.folder_of_append hnames hsome] at h
  cases h

/-- A tree has no gap after something was put in a folder, unless a file replaced a folder. -/
theorem insert (ht : t.Grown) (hplace : t.node? place = some .folder)
    (h : node = .folder ∨ t.node? (place ++ [name]) ≠ some .folder) :
    Grown ⟨t.nodes.insert (place ++ [name]) node⟩ := by
  intro p n hsome
  have hne : place ++ [name] ≠ [] := by simp
  rw [node?_insert hne] at hsome ⊢
  by_cases hp : place ++ [name] = p ++ [n]
  · obtain ⟨rfl, -⟩ := List.append_inj' hp rfl
    rw [if_neg (by simp), hplace]
  · rw [if_neg hp] at hsome
    have hfolder := ht hsome
    by_cases hpn : place ++ [name] = p
    · rw [if_pos hpn]
      rcases h with rfl | h
      · rfl
      · rw [hpn] at h
        exact absurd hfolder h
    · rw [if_neg hpn, hfolder]

/-- A tree has no gap after a file was removed. -/
theorem erase (ht : t.Grown) {content : Blob} (hpath : path ≠ [])
    (h : t.node? path = some (.file content)) : Grown ⟨t.nodes.erase path⟩ := by
  intro p n hsome
  rw [node?_erase hpath] at hsome ⊢
  split at hsome
  · cases hsome
  · have hfolder := ht hsome
    rw [if_neg, hfolder]
    rintro rfl
    rw [hfolder] at h
    cases h

end Grown

/-! ## What a path leads to -/

/-- No file stands on the way from a place along the given names. -/
def OnWay (t : FileTree) (place names : List String) : Prop :=
  ∀ p q content, names = p ++ q → q ≠ [] → t.node? (place ++ p) ≠ some (.file content)

theorem OnWay.tail (h : t.OnWay place (name :: names)) : t.OnWay (place ++ [name]) names := by
  intro p q content hnames hq
  rw [List.append_assoc]
  exact h (name :: p) q content (by rw [hnames]; rfl) hq

/-- Names can be followed part by part. -/
theorem follow_append (names rest : List String) :
    t.follow place (names ++ rest) =
      (t.follow place names).bind fun next => t.follow next rest := by
  induction names generalizing place with
  | nil => rfl
  | cons name names ih =>
    rw [List.cons_append, follow, follow]
    cases t.node? place with
    | none => rfl
    | some node =>
      cases node with
      | file content => rfl
      | folder =>
        dsimp only
        split
        · exact ih
        · split
          · exact ih
          · split
            · rfl
            · exact ih

/-- A step to a plain name is made from a folder, if the name can be held. -/
theorem follow_singleton (hplain : IsPlain name) :
    t.follow place [name] = .ok q ↔
      t.node? place = some .folder ∧ name.utf8ByteSize ≤ maxNameSize ∧ q = place ++ [name] := by
  rw [follow]
  split
  · simp_all
  · simp_all
  · rw [if_neg (not_or.2 ⟨hplain.1, hplain.2.1⟩), if_neg hplain.2.2]
    split
    · simp_all
    · simp_all [follow, eq_comm]

/-- Following plain names leads to the place that they name, through folders only. -/
theorem follow_eq_ok (hplain : ∀ n ∈ names, IsPlain n) (h : t.follow place names = .ok q) :
    q = place ++ names ∧ ∀ n ∈ names, n.utf8ByteSize ≤ maxNameSize := by
  induction names generalizing place with
  | nil =>
    cases h
    exact ⟨(List.append_nil _).symm, by simp⟩
  | cons name names ih =>
    obtain ⟨hempty, hdot, hdots⟩ := hplain name List.mem_cons_self
    rw [follow] at h
    split at h
    · cases h
    · cases h
    · rw [if_neg (by simp [hempty, hdot]), if_neg hdots] at h
      split at h
      · cases h
      · rename_i hshort
        obtain ⟨rfl, hrest⟩ := ih (fun n hn => hplain n (List.mem_cons_of_mem _ hn)) h
        refine ⟨by rw [List.append_assoc]; rfl, fun n hn => ?_⟩
        rcases List.mem_cons.1 hn with rfl | hn
        · omega
        · exact hrest n hn

/-- Following plain names that are not too long, past no file, leads to the place that they name
unless a folder is missing. -/
theorem follow_of_onWay (hplain : ∀ n ∈ names, IsPlain n)
    (hshort : ∀ n ∈ names, n.utf8ByteSize ≤ maxNameSize) (hway : t.OnWay place names) :
    t.follow place names = .ok (place ++ names) ∨
      t.follow place names = .error .notFound ∧
        ∃ p q, names = p ++ q ∧ q ≠ [] ∧ t.node? (place ++ p) = none := by
  induction names generalizing place with
  | nil => exact .inl (by rw [follow, List.append_nil])
  | cons name names ih =>
    obtain ⟨hempty, hdot, hdots⟩ := hplain name List.mem_cons_self
    have hname := hshort name List.mem_cons_self
    rw [follow]
    cases hnode : t.node? place with
    | none => exact .inr ⟨rfl, [], _, rfl, by simp, by rw [List.append_nil, hnode]⟩
    | some node =>
      cases node with
      | file content =>
        refine absurd ?_ (hway [] _ content rfl (by simp))
        rw [List.append_nil, hnode]
      | folder =>
        dsimp only
        rw [if_neg (by simp [hempty, hdot]), if_neg hdots, if_neg (by omega)]
        rcases ih (fun n hn => hplain n (List.mem_cons_of_mem _ hn))
            (fun n hn => hshort n (List.mem_cons_of_mem _ hn)) hway.tail with
          hok | ⟨herr, p, q, rfl, hq, hnone⟩
        · exact .inl (by rw [hok, List.append_assoc]; rfl)
        · exact .inr ⟨herr, name :: p, q, rfl, hq, by rw [← hnone, List.append_assoc]; rfl⟩

/-- If plain names cannot be followed because nothing is found, then a folder is missing. -/
theorem missing_of_follow (hplain : ∀ n ∈ names, IsPlain n)
    (h : t.follow place names = .error .notFound) :
    ∃ p q, names = p ++ q ∧ q ≠ [] ∧ t.node? (place ++ p) = none := by
  induction names generalizing place with
  | nil => cases h
  | cons name names ih =>
    obtain ⟨hempty, hdot, hdots⟩ := hplain name List.mem_cons_self
    rw [follow] at h
    split at h
    · rename_i hnone
      exact ⟨[], _, rfl, by simp, by rw [List.append_nil, hnone]⟩
    · cases h
    · rw [if_neg (by simp [hempty, hdot]), if_neg hdots] at h
      split at h
      · cases h
      · obtain ⟨p, q, rfl, hq, hnone⟩ := ih (fun n hn => hplain n (List.mem_cons_of_mem _ hn)) h
        exact ⟨name :: p, q, rfl, hq, by rw [← hnone, List.append_assoc]; rfl⟩

/-- A path to something that stands in a tree passes no file. -/
theorem Grown.onWay (ht : t.Grown) (h : (t.node? (place ++ names)).isSome) :
    t.OnWay place names := by
  rintro p q content rfl hq hfile
  rw [← List.append_assoc, ht.node?_below_file hq hfile] at h
  cases h

/-- A path to something in a folder passes no file. -/
theorem Grown.onWay_concat (ht : t.Grown) (hplace : t.node? place = some .folder) :
    t.OnWay [] (place ++ [name]) := by
  intro p q content hpq hq hfile
  rw [List.nil_append] at hfile
  rcases List.eq_nil_or_concat' q with rfl | ⟨names, n, rfl⟩
  · exact hq rfl
  · rw [← List.append_assoc] at hpq
    obtain ⟨rfl, -⟩ := List.append_inj' hpq rfl
    rcases eq_or_ne names [] with rfl | hnames
    · rw [List.append_nil, hfile] at hplace
      cases hplace
    · rw [ht.node?_below_file hnames hfile] at hplace
      cases hplace

/-- A path of plain names leads to what stands under it, if it can be followed. -/
theorem find_plain (hplain : ∀ n ∈ path, IsPlain n) :
    t.find path = (checkPath path).bind fun _ => (t.follow [] path).bind fun _ =>
      match t.node? path with
      | some node => .ok node
      | none => .error .notFound := by
  unfold find resolve
  cases checkPath path with
  | error e => rfl
  | ok _ =>
    cases hfollow : t.follow [] path with
    | error e => rfl
    | ok q =>
      obtain ⟨hq, -⟩ := follow_eq_ok hplain hfollow
      rw [List.nil_append] at hq
      subst hq
      simp only [bind, Except.bind]
      cases t.node? q <;> rfl

/-- A path leads to a place if it can be handed to the file system, its names can be followed to the
place, and something stands there. -/
theorem resolve_eq_ok_iff :
    t.resolve path = .ok (place, node) ↔
      checkPath path = .ok () ∧ t.follow [] path = .ok place ∧ t.node? place = some node := by
  unfold resolve
  cases hcheck : checkPath path with
  | error e => simp [bind, Except.bind]
  | ok _ =>
    cases hfollow : t.follow [] path with
    | error e => simp [bind, Except.bind]
    | ok q =>
      simp only [bind, Except.bind, true_and]
      constructor
      · intro h
        split at h
        · rename_i hnode
          cases h
          exact ⟨rfl, hnode⟩
        · cases h
      · rintro ⟨hq, hnode⟩
        cases hq
        rw [hnode]
        rfl

theorem exists_find_iff :
    (∃ node, t.find path = .ok node) ↔ ∃ place node, t.resolve path = .ok (place, node) := by
  unfold find
  cases t.resolve path with
  | error e => simp [Except.map]
  | ok found => exact ⟨fun _ => ⟨found.1, found.2, rfl⟩, fun _ => ⟨found.2, rfl⟩⟩

/-- In a tree without gaps a path of plain names leads to what stands under it. -/
theorem find_eq_ok_iff (ht : t.Grown) (hplain : ∀ n ∈ path, IsPlain n) :
    t.find path = .ok node ↔ Holds path ∧ t.node? path = some node := by
  unfold find resolve
  constructor
  · intro h
    cases hcheck : checkPath path with
    | error e => rw [hcheck] at h; cases h
    | ok _ =>
      rw [hcheck] at h
      cases hfollow : t.follow [] path with
      | error e => simp only [hfollow, bind, Except.bind, Except.map] at h; cases h
      | ok q =>
        obtain ⟨hq, hshort⟩ := follow_eq_ok hplain hfollow
        rw [List.nil_append] at hq
        subst hq
        simp only [hfollow, bind, Except.bind] at h
        cases hnode : t.node? q with
        | none => simp only [hnode] at h; cases h
        | some n =>
          simp only [hnode] at h
          cases h
          exact ⟨⟨hcheck, hshort⟩, rfl⟩
  · rintro ⟨hholds, hnode⟩
    have hsome : (t.node? path).isSome := by rw [hnode]; rfl
    have hway : t.OnWay [] path := ht.onWay hsome
    rcases follow_of_onWay hplain hholds.short hway with hok | ⟨-, p, q, rfl, hq, hnone⟩
    · simp only [hholds.check, hok, bind, Except.bind, List.nil_append, hnode]
      rfl
    · rw [List.nil_append, ht.folder_of_append hq hsome] at hnone
      cases hnone

/-- A path of plain names that passes no file, and under which nothing stands, is not found. -/
theorem find_eq_notFound (hplain : ∀ n ∈ path, IsPlain n) (hholds : Holds path)
    (hway : t.OnWay [] path) (hnone : t.node? path = none) : t.find path = .error .notFound := by
  unfold find resolve
  rcases follow_of_onWay hplain hholds.short hway with hok | ⟨herr, -⟩
  · simp only [hholds.check, hok, bind, Except.bind, List.nil_append, hnone]
    rfl
  · simp only [hholds.check, herr, bind, Except.bind]
    rfl

theorem checkPath_ne_notFound (path : List String) : checkPath path ≠ .error .notFound := by
  unfold checkPath
  split
  · simp
  · split <;> simp

/-- Nothing stands under a path of plain names that is not found in a tree without gaps. -/
theorem node?_of_notFound (ht : t.Grown) (hplain : ∀ n ∈ path, IsPlain n)
    (h : t.find path = .error .notFound) : t.node? path = none := by
  by_contra hsome
  rw [← Ne, Option.ne_none_iff_isSome] at hsome
  rw [find_plain hplain] at h
  cases hcheck : checkPath path with
  | error e =>
    rw [hcheck] at h
    cases h
    exact checkPath_ne_notFound path hcheck
  | ok _ =>
    rw [hcheck] at h
    cases hfollow : t.follow [] path with
    | error e =>
      rw [hfollow] at h
      cases h
      obtain ⟨p, q, rfl, hq, hnone⟩ := missing_of_follow hplain hfollow
      rw [List.nil_append, ht.folder_of_append hq hsome] at hnone
      cases hnone
    | ok q =>
      obtain ⟨node, hnode⟩ := Option.isSome_iff_exists.1 hsome
      rw [hfollow, hnode] at h
      cases h

/-- A path that is not found, in a folder that is, is one that the file system can hold. -/
theorem holds_of_notFound (ht : t.Grown) (hplain : ∀ n ∈ place ++ [name], IsPlain n)
    (hplace : t.find place = .ok .folder) (h : t.find (place ++ [name]) = .error .notFound) :
    Holds (place ++ [name]) := by
  have hfront : ∀ n ∈ place, IsPlain n := fun n hn => hplain n (List.mem_append_left _ hn)
  obtain ⟨hempty, hdot, hdots⟩ := hplain name (by simp)
  obtain ⟨hholds, hfolder⟩ := (find_eq_ok_iff ht hfront).1 hplace
  have hfollow : t.follow [] place = .ok place := by
    have hway : t.OnWay [] place := ht.onWay (by rw [List.nil_append, hfolder]; rfl)
    rcases follow_of_onWay hfront hholds.short hway with hok | ⟨herr, -⟩
    · exact hok
    · rw [find_plain hfront, hholds.check, herr] at hplace
      cases hplace
  rw [find_plain hplain] at h
  cases hcheck : checkPath (place ++ [name]) with
  | error e =>
    rw [hcheck] at h
    cases h
    exact absurd hcheck (checkPath_ne_notFound _)
  | ok _ =>
    refine ⟨hcheck, fun n hn => ?_⟩
    rcases List.mem_append.1 hn with hn | hn
    · exact hholds.short n hn
    · obtain rfl := List.mem_singleton.1 hn
      by_contra hlong
      have hstay : ¬ (n = "" ∨ n = ".") := not_or.2 ⟨hempty, hdot⟩
      have htoo : t.follow [] (place ++ [n]) = .error .nameTooLong := by
        rw [follow_append, hfollow]
        show t.follow place [n] = _
        rw [follow, hfolder]
        dsimp only
        rw [if_neg hstay, if_neg hdots, if_pos (Nat.lt_of_not_le hlong)]
      rw [hcheck, htoo] at h
      cases h

/-- In a tree without gaps a path of plain names leads to the file that stands under it. -/
theorem readFile_eq_ok_iff (ht : t.Grown) (hplain : ∀ n ∈ path, IsPlain n) {content : Blob} :
    t.readFile path = .ok content ↔ Holds path ∧ t.node? path = some (.file content) := by
  rw [← find_eq_ok_iff ht hplain]
  unfold readFile
  cases hfind : t.find path with
  | error e => simp [bind, Except.bind]
  | ok node => cases node <;> simp [bind, Except.bind, pure, Except.pure, throw, throwThe,
      MonadExceptOf.throw]

/-! ## The creation of folders -/

/-- One tree is another with some folders more on the way to a path. -/
def FoldersAdded (t u : FileTree) (path : List String) : Prop :=
  ∀ q, u.node? q = t.node? q ∨ t.node? q = none ∧ u.node? q = some .folder ∧ q <+: path

theorem FoldersAdded.refl (t : FileTree) (path : List String) : FoldersAdded t t path :=
  fun _ => .inl rfl

/-- Added folders change nothing that stands in the tree. -/
theorem FoldersAdded.node?_eq (h : FoldersAdded t u path) (hnode : t.node? q = some node) :
    u.node? q = some node := by
  rcases h q with heq | ⟨hnone, -, -⟩
  · rw [heq, hnode]
  · rw [hnone] at hnode
    cases hnode

/-- Added folders are no files. -/
theorem FoldersAdded.file_iff (h : FoldersAdded t u path) {content : Blob} :
    u.node? q = some (.file content) ↔ t.node? q = some (.file content) := by
  refine ⟨fun hfile => ?_, h.node?_eq⟩
  rcases h q with heq | ⟨-, hfolder, -⟩
  · rw [← heq, hfile]
  · rw [hfolder] at hfile
    cases hfile

theorem FoldersAdded.onWay (h : FoldersAdded t u path) (hway : t.OnWay place names) :
    u.OnWay place names :=
  fun p q content hnames hq hfile => hway p q content hnames hq (h.file_iff.1 hfile)

/-- Folders are created in folders, and nothing else is changed. -/
theorem createFoldersFrom_added (ht : t.Grown) (hplace : t.node? place = some .folder)
    (names : List String) :
    FoldersAdded t (t.createFoldersFrom place names).2 (place ++ names) ∧
      (t.createFoldersFrom place names).2.Grown := by
  induction names generalizing t place with
  | nil => exact ⟨.refl t _, ht⟩
  | cons name names ih =>
    have hassoc : place ++ name :: names = place ++ [name] ++ names := by
      rw [List.append_assoc]
      rfl
    rw [createFoldersFrom]
    cases hnext : t.node? (place ++ [name]) with
    | some node =>
      cases node with
      | folder =>
        rw [hassoc]
        exact ih ht hnext
      | file content => exact ⟨.refl t _, ht⟩
    | none =>
      dsimp only
      split
      · exact ⟨.refl t _, ht⟩
      · have hgrown : Grown ⟨t.nodes.insert (place ++ [name]) .folder⟩ :=
          ht.insert hplace (.inl rfl)
        have hne : place ++ [name] ≠ [] := by simp
        obtain ⟨hadded, hgrown⟩ := ih hgrown (by rw [node?_insert hne, if_pos rfl])
        refine ⟨fun q => ?_, hgrown⟩
        rw [hassoc]
        by_cases hq : place ++ [name] = q
        · subst hq
          exact .inr ⟨hnext, hadded.node?_eq (by rw [node?_insert hne, if_pos rfl]),
            List.prefix_append _ _⟩
        · have hq' := hadded q
          rwa [node?_insert hne, if_neg hq] at hq'

/-- Folders with names that are not too long are created where no file stands in the way. -/
theorem createFoldersFrom_eq (ht : t.Grown) (hplace : t.node? place = some .folder)
    (hshort : ∀ n ∈ names, n.utf8ByteSize ≤ maxNameSize) (hway : t.OnWay place (names ++ [name])) :
    (t.createFoldersFrom place names).1 = .ok () ∧
      (t.createFoldersFrom place names).2.node? (place ++ names) = some .folder := by
  induction names generalizing t place with
  | nil => exact ⟨rfl, by rwa [List.append_nil]⟩
  | cons n names ih =>
    have hassoc : place ++ n :: names = place ++ [n] ++ names := by
      rw [List.append_assoc]
      rfl
    have hrest : ∀ m ∈ names, m.utf8ByteSize ≤ maxNameSize :=
      fun m hm => hshort m (List.mem_cons_of_mem _ hm)
    rw [createFoldersFrom, hassoc]
    cases hnext : t.node? (place ++ [n]) with
    | some node =>
      cases node with
      | folder => exact ih ht hnext hrest hway.tail
      | file content =>
        exact absurd hnext (hway [n] (names ++ [name]) content rfl (by simp))
    | none =>
      dsimp only
      rw [if_neg (Nat.not_lt.2 (hshort n List.mem_cons_self))]
      have hne : place ++ [n] ≠ [] := by simp
      have hadded : FoldersAdded t ⟨t.nodes.insert (place ++ [n]) .folder⟩ (place ++ [n]) := by
        intro q
        rw [node?_insert hne]
        by_cases hq : place ++ [n] = q
        · rw [if_pos hq, ← hq]
          exact .inr ⟨hnext, rfl, List.prefix_refl _⟩
        · exact .inl (if_neg hq)
      exact ih (ht.insert hplace (.inl rfl)) (by rw [node?_insert hne, if_pos rfl]) hrest
        (hadded.onWay hway.tail)

/-- The creation of folders changes nothing else. -/
theorem createFolders_added (ht : t.Grown) (path : List String) :
    FoldersAdded t (t.createFolders path).2 path ∧ (t.createFolders path).2.Grown := by
  unfold createFolders
  split
  · exact ⟨.refl t _, ht⟩
  · exact createFoldersFrom_added ht (node?_nil t) path

/-- The folders of a path that the file system can hold are created if it passes no file. -/
theorem createFolders_eq (ht : t.Grown) (hholds : Holds path)
    (hway : t.OnWay [] (path ++ [name])) :
    (t.createFolders path).1 = .ok () ∧ (t.createFolders path).2.node? path = some .folder := by
  unfold createFolders
  rw [hholds.check]
  exact createFoldersFrom_eq ht (node?_nil t) hholds.short hway

/-! ## The change of a file -/

/-- The content of the file under a path, if one stands there. -/
def file? (t : FileTree) (path : List String) : Option Blob :=
  match t.node? path with
  | some (.file content) => some content
  | _ => none

theorem file?_eq_some_iff {content : Blob} :
    t.file? path = some content ↔ t.node? path = some (.file content) := by
  unfold file?
  split <;> simp_all

/-- Added folders leave every file as it is. -/
theorem FoldersAdded.file?_eq (h : FoldersAdded t u path) : u.file? q = t.file? q := by
  apply Option.ext
  intro content
  rw [file?_eq_some_iff, file?_eq_some_iff, h.file_iff]

variable {change : Option Blob → Blob}

/-- A file that is changed stands in a folder before and after, and nothing else is changed. -/
theorem modifyFile_cases (ht : t.Grown) (hplain : ∀ n ∈ place ++ [name], IsPlain n)
    (h : t.modifyFile (place ++ [name]) change = .ok u) :
    t.node? place = some .folder ∧ t.node? (place ++ [name]) ≠ some .folder ∧
      u = ⟨t.nodes.insert (place ++ [name]) (.file (change (t.file? (place ++ [name]))))⟩ := by
  unfold modifyFile at h
  rw [List.dropLast_concat] at h
  split at h
  · rename_i old hfind
    obtain ⟨-, hfile⟩ := (find_eq_ok_iff ht hplain).1 hfind
    cases h
    exact ⟨ht (by rw [hfile]; rfl), by rw [hfile]; simp, by rw [file?_eq_some_iff.2 hfile]⟩
  · cases h
  · rename_i hfind
    split at h
    · rename_i hfolder
      obtain ⟨-, hplace⟩ :=
        (find_eq_ok_iff ht fun n hn => hplain n (List.mem_append_left _ hn)).1 hfolder
      have hnone := node?_of_notFound ht hplain hfind
      have hfile : t.file? (place ++ [name]) = none := by
        unfold file?
        rw [hnone]
      cases h
      exact ⟨hplace, by rw [hnone]; simp, by rw [hfile]⟩
    · cases h
    · cases h
  · cases h

/-- The file under a path that the file system can hold is changed if its folder is there. -/
theorem modifyFile_eq (ht : t.Grown) (hplain : ∀ n ∈ place ++ [name], IsPlain n)
    (hholds : Holds (place ++ [name])) (hplace : t.node? place = some .folder)
    (hnode : t.node? (place ++ [name]) ≠ some .folder) :
    t.modifyFile (place ++ [name]) change =
      .ok ⟨t.nodes.insert (place ++ [name]) (.file (change (t.file? (place ++ [name]))))⟩ := by
  unfold modifyFile file?
  rw [List.dropLast_concat]
  cases hpath : t.node? (place ++ [name]) with
  | none =>
    rw [find_eq_notFound hplain hholds (ht.onWay_concat hplace) hpath]
    dsimp only
    rw [(find_eq_ok_iff ht fun n hn => hplain n (List.mem_append_left _ hn)).2
      ⟨hholds.of_append, hplace⟩]
  | some node =>
    cases node with
    | folder => exact absurd hpath hnode
    | file content => rw [(find_eq_ok_iff ht hplain).2 ⟨hholds, hpath⟩]

/-- A path under which a file could be changed is one that the file system can hold. -/
theorem holds_of_modifyFile (ht : t.Grown) (hplain : ∀ n ∈ place ++ [name], IsPlain n)
    (h : t.modifyFile (place ++ [name]) change = .ok u) : Holds (place ++ [name]) := by
  unfold modifyFile at h
  rw [List.dropLast_concat] at h
  split at h
  · rename_i old hfind
    exact ((find_eq_ok_iff ht hplain).1 hfind).1
  · cases h
  · rename_i hfind
    split at h
    · rename_i hfolder
      exact holds_of_notFound ht hplain hfolder hfind
    · cases h
    · cases h
  · cases h

/-! ## The removal of a file -/

/-- A file that is removed was there, and nothing else is removed. -/
theorem removeFile_cases (ht : t.Grown) (hplain : ∀ n ∈ path, IsPlain n)
    (h : t.removeFile path = .ok u) :
    ∃ content, t.node? path = some (.file content) ∧ u = ⟨t.nodes.erase path⟩ := by
  unfold removeFile at h
  cases hfind : t.find path with
  | error e =>
    rw [hfind] at h
    cases h
  | ok node =>
    rw [hfind] at h
    cases node with
    | folder => cases h
    | file content =>
      cases h
      exact ⟨content, ((find_eq_ok_iff ht hplain).1 hfind).2, rfl⟩

/-- A file under a path that the file system can hold is removed. -/
theorem removeFile_eq (ht : t.Grown) (hplain : ∀ n ∈ path, IsPlain n) (hholds : Holds path)
    {content : Blob} (h : t.node? path = some (.file content)) :
    t.removeFile path = .ok ⟨t.nodes.erase path⟩ := by
  unfold removeFile
  rw [(find_eq_ok_iff ht hplain).2 ⟨hholds, h⟩]
  rfl

/-- A file that is not there is not removed. -/
theorem removeFile_eq_notFound (hplain : ∀ n ∈ path, IsPlain n) (hholds : Holds path)
    (hway : t.OnWay [] path) (hnone : t.node? path = none) :
    t.removeFile path = .error .notFound := by
  unfold removeFile
  rw [find_eq_notFound hplain hholds hway hnone]
  rfl

end FileTree

end ScriptHost
