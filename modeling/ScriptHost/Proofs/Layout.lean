import ScriptHost.Proofs.Files
/-!
# Which resources have a file of their own

The path of a resource is its written form cut at the slashes, so two resources share a file just
when their written forms are equal.  The name of a module may contain slashes, and then its files
lie within the folder of another module, or within the shared folder, where that folder's own
resources are.  These are the only clashes: all other resources are kept apart, whatever is asked of
the store.

## Main definitions

* `ResourceKey.Made`: the keys that name pieces of data.
* `ResourceKey.Area`: the shared folder, and the folder of a module.
* `ResourceKey.Clashes`: a key of a module whose name leads into an area, and a key of the area.

## Main statements

* `ResourceKey.samePath_iff`: two keys have the same path just if they are equal or clash.
* `ResourceKey.path?_inj`: modules without a slash in their names do not clash.
* `FileStore.keptApart_of_made`: what requests leave alone.
-/

namespace ScriptHost

open FileTree

/-! ## Written paths -/

namespace FileTree

/-- The names of a path, with slashes between them, are the path as it was written. -/
theorem joinPath_splitPath (text : String) : joinPath (splitPath text) = text := by
  unfold joinPath splitPath
  rw [← String.toList_inj, String.toList_intercalate, List.map_map]
  have hmap : String.toList ∘ String.ofList = id := by
    funext l
    exact String.toList_ofList
  rw [hmap, List.map_id]
  exact List.intercalate_splitOn '/'

theorem splitPath_inj {a b : String} : splitPath a = splitPath b ↔ a = b := by
  refine ⟨fun h => ?_, congrArg splitPath⟩
  rw [← joinPath_splitPath a, h, joinPath_splitPath]

theorem splitPath_slash (a b : String) : splitPath (a ++ "/" ++ b) = splitPath a ++ splitPath b := by
  unfold splitPath
  rw [String.toList_append, String.toList_append, List.append_assoc]
  show (List.splitOn '/' (a.toList ++ '/' :: b.toList)).map _ = _
  rw [List.splitOn_append_cons_self, List.map_append]

theorem splitPath_of_not_mem {text : String} (h : '/' ∉ text.toList) : splitPath text = [text] := by
  unfold splitPath
  rw [List.splitOn_eq_singleton h, List.map_singleton, String.ofList_toList]

end FileTree

namespace ResourceKey

theorem withEnding_cons {ending name : String} {names : List String} (h : names ≠ []) :
    withEnding ending (name :: names) = name :: withEnding ending names := by
  cases names with
  | nil => exact absurd rfl h
  | cons n names => rfl

/-- An ending without a slash can be added before or after a name is cut. -/
theorem withEnding_splitPath {ending : String} (h : '/' ∉ ending.toList) (name : String) :
    withEnding ending (splitPath name) = splitPath (name ++ ending) := by
  induction hn : name.toList.length using Nat.strong_induction_on generalizing name with
  | _ n ih =>
    by_cases hslash : '/' ∈ name.toList
    · -- the first part stays as it is, and the ending goes to the rest
      obtain ⟨first, rest, hsplit, hfirst⟩ := List.eq_append_cons_of_mem hslash
      have hname : name = String.ofList first ++ "/" ++ String.ofList rest := by
        rw [← String.toList_inj, hsplit]
        simp
      have hrest : (String.ofList rest).toList.length < n := by
        rw [← hn, hsplit, String.toList_ofList, List.length_append, List.length_cons]
        omega
      have hpart : splitPath (String.ofList first) = [String.ofList first] :=
        splitPath_of_not_mem (by rwa [String.toList_ofList])
      rw [hname, splitPath_slash, String.append_assoc, splitPath_slash, hpart,
        List.singleton_append, List.singleton_append, withEnding_cons (splitPath_ne_nil _),
        ih _ hrest _ rfl]
    · have hboth : '/' ∉ (name ++ ending).toList := by
        rw [String.toList_append, List.mem_append]
        exact not_or.2 ⟨hslash, h⟩
      rw [splitPath_of_not_mem hslash, splitPath_of_not_mem hboth]
      rfl

/-! ## Areas -/

/-- Where named resources are: all the shared ones, or the private ones of a module. -/
inductive Area where
  | shared
  | own (module : String)

namespace Area

/-- The folder of an area, as it is written. -/
def folder : Area → String
  | shared => "shared"
  | own module => module ++ ".data"

/-- The key of a resource in an area. -/
def key : Area → String → ResourceKind → ResourceKey
  | shared, file, kind => .resource none file kind true
  | own module, file, kind => .resource (some module) file kind false

end Area

/-- The keys that name pieces of data: the slots of modules, and named resources. -/
inductive Made : ResourceKey → Prop
  | globalState (module : String) : Made (.globalState module)
  | resource (module : Option String) (file : String) (kind : ResourceKind) (shared : Bool) :
      Made (.resource module file kind shared)

variable {a b : ResourceKey} {p q : List String} {m : String} {area : Area} {file : String}
  {kind : ResourceKind}

/-- A key with a path names a slot or a resource in an area. -/
theorem Made.cases_of_path? (ha : a.Made) (hp : a.path? = .ok p) :
    (∃ m, a = .globalState m) ∨ ∃ area file kind, a = Area.key area file kind := by
  cases ha with
  | globalState m => exact .inl ⟨m, rfl⟩
  | resource module file kind shared =>
    cases shared with
    | true => exact .inr ⟨.shared, file, kind, rfl⟩
    | false =>
      cases module with
      | none => cases hp
      | some module => exact .inr ⟨.own module, file, kind, rfl⟩

theorem not_mem_fileEnding (key : ResourceKey) : '/' ∉ key.fileEnding.toList := by
  unfold fileEnding
  cases key.kind <;> decide

/-- The slot of a module as it is written. -/
theorem path?_globalState (h : (globalState m).path? = .ok p) :
    p = splitPath (m ++ ".data" ++ ("." ++ ResourceKind.tag.extension)) := by
  obtain ⟨_, hshared, -⟩ | ⟨module, -, hmodule, -, -, rfl⟩ | ⟨_, _, -, -, hfile, -⟩ := path?_cases h
  · cases hshared
  · cases hmodule
    rw [withEnding_splitPath (by decide), withEnding_splitPath (not_mem_fileEnding _)]
    rfl
  · cases hfile

/-- A resource in an area as it is written. -/
theorem path?_key (h : (area.key file kind).path? = .ok p) :
    p = splitPath (area.folder ++ "/" ++ file ++ ("." ++ kind.extension)) := by
  have hending := not_mem_fileEnding (area.key file kind)
  cases area with
  | shared =>
    obtain ⟨f, -, hfile, -, rfl⟩ | ⟨_, hshared, -⟩ | ⟨_, _, hshared, -⟩ := path?_cases h
    · cases hfile
      rw [withEnding_splitPath hending, String.append_assoc, splitPath_slash]
      rfl
    · cases hshared
    · cases hshared
  | own m =>
    obtain ⟨_, hshared, -⟩ | ⟨_, -, -, hfile, -⟩ | ⟨module, f, -, hmodule, hfile, -, -, rfl⟩ :=
      path?_cases h
    · cases hshared
    · cases hfile
    · cases hmodule
      cases hfile
      rw [withEnding_splitPath hending, withEnding_splitPath (by decide), ← splitPath_slash,
        ← String.append_assoc]
      rfl

/-! ## Equal paths -/

/-- Equal texts in two parts: one of the first parts goes on where the other ends. -/
theorem append_eq_cases {x y f g : String} (h : x ++ f = y ++ g) :
    (∃ e, y = x ++ e ∧ f = e ++ g) ∨ ∃ e, x = y ++ e ∧ g = e ++ f := by
  have hlists := congrArg String.toList h
  rw [String.toList_append, String.toList_append] at hlists
  rcases List.append_eq_append_iff.1 hlists with ⟨e, hy, hf⟩ | ⟨e, hx, hg⟩
  · exact .inl ⟨String.ofList e, by rw [← String.toList_inj, hy]; simp,
      by rw [← String.toList_inj, hf]; simp⟩
  · exact .inr ⟨String.ofList e, by rw [← String.toList_inj, hx]; simp,
      by rw [← String.toList_inj, hg]; simp⟩

/-- A text that begins with a slash and has a slash after a beginning. -/
theorem slash_append_eq {e f g : String} (h : "/" ++ f = e ++ ("/" ++ g)) :
    e = "" ∧ f = g ∨ ∃ n, e = "/" ++ n ∧ f = n ++ "/" ++ g := by
  have hlists := congrArg String.toList h
  rw [String.toList_append, String.toList_append, String.toList_append] at hlists
  cases he : e.toList with
  | nil =>
    rw [he] at hlists
    exact .inl ⟨String.toList_inj.1 he, String.toList_inj.1 (List.append_cancel_left hlists)⟩
  | cons c n =>
    rw [he] at hlists
    obtain ⟨rfl, hf⟩ : '/' = c ∧ f.toList = n ++ '/' :: g.toList := List.cons.inj hlists
    exact .inr ⟨String.ofList n, by rw [← String.toList_inj, he]; simp,
      by rw [← String.toList_inj, hf]; simp⟩

/-- Two texts with slashes are equal if they agree on both sides of the slashes, or if one slash is
further to the right than the other. -/
theorem append_slash_eq_cases {x y f g : String} (h : x ++ "/" ++ f = y ++ "/" ++ g) :
    x = y ∧ f = g ∨ (∃ n, y = x ++ "/" ++ n ∧ f = n ++ "/" ++ g) ∨
      ∃ n, x = y ++ "/" ++ n ∧ g = n ++ "/" ++ f := by
  rw [String.append_assoc, String.append_assoc] at h
  rcases append_eq_cases h with ⟨e, rfl, he⟩ | ⟨e, rfl, he⟩
  · rcases slash_append_eq he with ⟨rfl, rfl⟩ | ⟨n, rfl, rfl⟩
    · exact .inl ⟨String.append_empty.symm, rfl⟩
    · exact .inr (.inl ⟨n, String.append_assoc.symm, rfl⟩)
  · rcases slash_append_eq he with ⟨rfl, rfl⟩ | ⟨n, rfl, rfl⟩
    · exact .inl ⟨String.append_empty, rfl⟩
    · exact .inr (.inr ⟨n, String.append_assoc.symm, rfl⟩)

/-- A text that ends in `.data` and has a slash has it before the ending. -/
theorem append_data_eq {x y m : String} (h : m ++ ".data" = x ++ "/" ++ y) :
    ∃ n, y = n ++ ".data" ∧ m = x ++ "/" ++ n := by
  rcases append_eq_cases h with ⟨e, he, hdata⟩ | ⟨n, hm, hy⟩
  · have hlists := congrArg String.toList he
    rw [String.toList_append, String.toList_append] at hlists
    rcases List.eq_nil_or_concat' e.toList with hempty | ⟨before, c, hconcat⟩
    · obtain rfl : e = "" := String.toList_inj.1 hempty
      exact ⟨"", hdata.symm, by rw [String.append_empty, he, String.append_empty]⟩
    · -- the slash would be in the ending
      rw [hconcat, ← List.append_assoc] at hlists
      obtain ⟨-, hc⟩ : _ ∧ ['/'] = [c] := List.append_inj' hlists rfl
      have hmem : '/' ∈ ".data".toList := by
        rw [hdata, String.toList_append, hconcat, ← hc]
        simp
      exact absurd hmem (by decide)
  · exact ⟨n, hy, hm⟩

/-- Two keys whose data are in one file: the name of a module leads into an area, where a resource
of the area has the path of the module's slot, or of a resource of the module. -/
inductive Clashes : ResourceKey → ResourceKey → Prop
  | slot (area : Area) (name : String) :
      Clashes (.globalState (area.folder ++ "/" ++ name)) (area.key (name ++ ".data") .tag)
  | file (area : Area) (name file : String) (kind : ResourceKind) :
      Clashes ((Area.own (area.folder ++ "/" ++ name)).key file kind)
        (area.key (name ++ ".data" ++ "/" ++ file) kind)

/-- The endings of files tell the forms of resources apart. -/
theorem append_extension_inj {x y : String} {k l : ResourceKind} :
    x ++ ("." ++ k.extension) = y ++ ("." ++ l.extension) ↔ x = y ∧ k = l := by
  constructor
  · intro h
    have hlists : x.toList ++ ("." ++ k.extension).toList = y.toList ++ ("." ++ l.extension).toList := by
      rw [← String.toList_append, h, String.toList_append]
    have hlength : ∀ k : ResourceKind, ("." ++ k.extension).toList.length = 4 := by
      intro k
      cases k <;> rfl
    obtain ⟨hx, hending⟩ := List.append_inj' hlists ((hlength k).trans (hlength l).symm)
    refine ⟨String.toList_inj.1 hx, ?_⟩
    cases k <;> cases l <;> first | rfl | exact absurd hending (by decide)
  · rintro ⟨rfl, rfl⟩
    rfl

/-- Each area has a folder of its own. -/
theorem Area.folder_inj {area other : Area} : area.folder = other.folder ↔ area = other := by
  refine ⟨fun h => ?_, congrArg folder⟩
  have hshared : ∀ m : String, "shared" ≠ m ++ ".data" := by
    intro m heq
    have hlists := congrArg String.toList heq
    rw [String.toList_append] at hlists
    have hsuffix : ".data".toList <:+ "shared".toList := ⟨_, hlists.symm⟩
    exact absurd hsuffix (by decide)
  cases area with
  | shared =>
    cases other with
    | shared => rfl
    | own m => exact absurd h (hshared m)
  | own m =>
    cases other with
    | shared => exact absurd h.symm (hshared m)
    | own n => exact congrArg own ((String.append_left_inj ".data").1 h)

/-- A folder of an area within another area's folder is that of a module. -/
theorem Area.eq_own_of_folder {area other : Area} {n : String}
    (h : other.folder = area.folder ++ "/" ++ n) :
    ∃ name, n = name ++ ".data" ∧ other = own (area.folder ++ "/" ++ name) := by
  cases other with
  | shared =>
    have hmem : '/' ∈ "shared".toList := by
      rw [show "shared" = _ from h]
      simp
    exact absurd hmem (by decide)
  | own m =>
    obtain ⟨name, rfl, rfl⟩ := append_data_eq h
    exact ⟨name, rfl, rfl⟩

/-- Keys that clash have the same path. -/
theorem Clashes.samePath (h : a.Clashes b) (hp : a.path? = .ok p) (hq : b.path? = .ok q) :
    p = q := by
  cases h with
  | slot area name =>
    rw [path?_globalState hp, path?_key hq]
    simp only [String.append_assoc]
  | file area name file kind =>
    rw [path?_key hp, path?_key hq]
    simp only [Area.folder, String.append_assoc]

/-- The slot of a module has the path of a resource just if the two clash. -/
theorem clashes_of_slot (hp : (globalState m).path? = .ok p)
    (hq : (area.key file kind).path? = .ok p) : (globalState m).Clashes (area.key file kind) := by
  have htexts := (path?_globalState hp).symm.trans (path?_key hq)
  obtain ⟨htext, rfl⟩ := append_extension_inj.1 (splitPath_inj.1 htexts)
  obtain ⟨name, rfl, rfl⟩ := append_data_eq htext
  exact .slot area name

/-- Two resources have the same path just if they are the same or clash. -/
theorem eq_or_clashes_of_key {other : Area} {file' : String} {kind' : ResourceKind}
    (hp : (area.key file kind).path? = .ok p) (hq : (other.key file' kind').path? = .ok p) :
    area.key file kind = other.key file' kind' ∨
      (area.key file kind).Clashes (other.key file' kind') ∨
      (other.key file' kind').Clashes (area.key file kind) := by
  have htexts := (path?_key hp).symm.trans (path?_key hq)
  obtain ⟨htext, rfl⟩ := append_extension_inj.1 (splitPath_inj.1 htexts)
  rcases append_slash_eq_cases htext with ⟨hfolder, rfl⟩ | ⟨n, hfolder, rfl⟩ | ⟨n, hfolder, rfl⟩
  · exact .inl (by rw [Area.folder_inj.1 hfolder])
  · obtain ⟨name, rfl, rfl⟩ := Area.eq_own_of_folder hfolder
    exact .inr (.inr (.file area name file' kind))
  · obtain ⟨name, rfl, rfl⟩ := Area.eq_own_of_folder hfolder
    exact .inr (.inl (.file other name file kind))

/-- Two keys have the same path just if they are equal or clash. -/
theorem samePath_iff (ha : a.Made) (hb : b.Made) (hp : a.path? = .ok p) (hq : b.path? = .ok q) :
    p = q ↔ a = b ∨ a.Clashes b ∨ b.Clashes a := by
  constructor
  · rintro rfl
    rcases ha.cases_of_path? hp with ⟨m, rfl⟩ | ⟨area, file, kind, rfl⟩ <;>
      rcases hb.cases_of_path? hq with ⟨n, rfl⟩ | ⟨other, file', kind', rfl⟩
    · have htexts := (path?_globalState hp).symm.trans (path?_globalState hq)
      obtain ⟨htext, -⟩ := append_extension_inj.1 (splitPath_inj.1 htexts)
      exact .inl (globalState_inj.2 ((String.append_left_inj ".data").1 htext))
    · exact .inr (.inl (clashes_of_slot hp hq))
    · exact .inr (.inr (clashes_of_slot hq hp))
    · exact eq_or_clashes_of_key hp hq
  · rintro (rfl | hclashes | hclashes)
    · rw [hp] at hq
      cases hq
      rfl
    · exact hclashes.samePath hp hq
    · exact (hclashes.samePath hq hp).symm

/-- The name of a module that clashes with other data has a slash. -/
theorem Clashes.slash_mem (h : a.Clashes b) : ∃ m, a.module = some m ∧ '/' ∈ m.toList := by
  cases h with
  | slot area name => exact ⟨_, rfl, by simp⟩
  | file area name file kind => exact ⟨_, rfl, by simp⟩

/-- Keys of modules without a slash in their names have paths of their own. -/
theorem path?_inj (ha : a.Made) (hb : b.Made) (hflat : ∀ m, a.module = some m → '/' ∉ m.toList)
    (hflat' : ∀ m, b.module = some m → '/' ∉ m.toList) (hp : a.path? = .ok p)
    (hq : b.path? = .ok p) : a = b := by
  rcases (samePath_iff ha hb hp hq).1 rfl with rfl | h | h
  · rfl
  · obtain ⟨m, hm, hslash⟩ := h.slash_mem
    exact absurd hslash (hflat m hm)
  · obtain ⟨m, hm, hslash⟩ := h.slash_mem
    exact absurd hslash (hflat' m hm)

end ResourceKey

/-! ## Requests to other resources -/

namespace FileStore

open ResourceKey

variable {s t : FileStore} {a b : ResourceKey} {q : List String} {content : Blob}

/-- Nothing is done under a key without a path. -/
theorem apply_of_path?_eq_error {e : StoreError} (h : a.path? = .error e) (r : StoreRequest) :
    r.apply a s = s := by
  cases r with
  | write blob => simp only [StoreRequest.apply, StateStore.write, h]
  | append lines => simp only [StoreRequest.apply, StateStore.appendLines, h]
  | delete => simp only [StoreRequest.apply, StateStore.delete, h]

/-- Requests under other paths leave the content of a file, and do not make the file. -/
theorem read_steps_iff (hs : s.Sound) (hq : b.path? = .ok q)
    (h : StoreSteps (fun a => a.path? ≠ .ok q) s t) :
    t.Sound ∧ (StateStore.read t b = .ok (some content) ↔
      StateStore.read s b = .ok (some content)) := by
  induction h with
  | refl => exact ⟨hs, Iff.rfl⟩
  | tail _ hstep ih =>
    obtain ⟨r, a, ha, rfl⟩ := hstep
    cases hp : a.path? with
    | error e => rwa [apply_of_path?_eq_error hp]
    | ok p =>
      have hne : p ≠ q := by
        rintro rfl
        exact ha hp
      exact ⟨(apply_changedAt ih.1 hp r).sound, (read_apply_iff ih.1 hp hq hne r).trans ih.2⟩

/-- The file of a resource is that of no other resource except for those that it clashes with, and
requests for resources that are neither it nor clash with it leave its content, and do not make it. -/
theorem keptApart_of_made (hb : b.Made) (hq : b.path? = .ok q) :
    (∀ a p, a.Made → a.path? = .ok p → (p = q ↔ a = b ∨ a.Clashes b ∨ b.Clashes a)) ∧
      ∀ s t : FileStore, s.Sound →
        StoreSteps (fun a => a.Made ∧ a ≠ b ∧ ¬ a.Clashes b ∧ ¬ b.Clashes a) s t →
          ∀ content, StateStore.read t b = .ok (some content) ↔
            StateStore.read s b = .ok (some content) := by
  refine ⟨fun a p ha hp => samePath_iff ha hb hp hq, fun s t hs h content => ?_⟩
  refine (read_steps_iff hs hq (Relation.ReflTransGen.mono ?_ _ _ h)).2
  intro u v hstep
  obtain ⟨r, a, ⟨ha, hne, hab, hba⟩, rfl⟩ := hstep
  refine ⟨r, a, fun hp => ?_, rfl⟩
  rcases (samePath_iff ha hb hp hq).1 rfl with heq | hclashes | hclashes
  · exact hne heq
  · exact hab hclashes
  · exact hba hclashes

/-- The shared notes of all apps are still there after a camera has saved its state. -/
theorem keptApart_notes :
    let notes : ResourceKey := .resource (some "camera") "notes" .text true
    let slot : ResourceKey := .globalState "camera"
    let s : FileStore :=
      StoreRequest.apply (.append ["hi"]) notes { tree := ∅, root := ["data"], displayRoot := "data" }
    let t : FileStore := StoreRequest.apply (.write "1".toUTF8) slot s
    notes.Made ∧ notes.path? = .ok ["shared", "notes.txt"] ∧ s.Sound ∧
      StoreSteps (fun a => a.Made ∧ a ≠ notes ∧ ¬ a.Clashes notes ∧ ¬ notes.Clashes a) s t ∧
      StateStore.read t notes = .ok (some "hi\n".toUTF8) := by
  intro notes slot s t
  have hnotes : notes.Made := .resource _ _ _ _
  have hpath : notes.path? = .ok ["shared", "notes.txt"] := by decide +kernel
  have hempty : Sound { tree := ∅, root := ["data"], displayRoot := "data" } :=
    { root := by
        unfold IsPlain
        decide
      grown := grown_empty }
  have hs : s.Sound := (apply_changedAt hempty hpath _).sound
  have hflat : ¬ slot.Clashes notes ∧ ¬ notes.Clashes slot := by
    constructor
    · intro h
      obtain ⟨m, hm, hslash⟩ := h.slash_mem
      cases hm
      exact absurd hslash (by decide)
    · intro h
      obtain ⟨m, hm, -⟩ := h.slash_mem
      cases hm
  have hne : slot ≠ notes := by decide
  have hsteps : StoreSteps (fun a => a.Made ∧ a ≠ notes ∧ ¬ a.Clashes notes ∧ ¬ notes.Clashes a) s t :=
    .single ⟨_, slot, ⟨.globalState _, hne, hflat.1, hflat.2⟩, rfl⟩
  have hread : StateStore.read s notes = .ok (some "hi\n".toUTF8) := by decide +kernel
  exact ⟨hnotes, hpath, hs, hsteps, ((keptApart_of_made hnotes hpath).2 s t hs hsteps _).2 hread⟩

/-- The state of an app whose name leads into the shared folder is removed with a shared resource. -/
theorem overwritten_shared :
    let slot : ResourceKey := .globalState "shared/x"
    let data : ResourceKey := .resource none "x.data" .tag true
    let s : FileStore := { tree := ∅, root := [], displayRoot := "" }
    let t := (StateStore.write s slot "a".toUTF8).2
    slot.Made ∧ data.Made ∧ slot ≠ data ∧ slot.path? = .ok ["shared", "x.data.nbt"] ∧
      data.path? = .ok ["shared", "x.data.nbt"] ∧
      StateStore.read t slot = .ok (some "a".toUTF8) ∧ (StateStore.delete t data).1 = .ok true ∧
      StateStore.read (StateStore.delete t data).2 slot = .ok none := by
  intro slot data s t
  refine ⟨.globalState _, .resource _ _ _ _, ?_⟩
  decide +kernel

end FileStore

end ScriptHost
