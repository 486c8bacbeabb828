import Mathlib
import ScriptHost.Proofs.Confinement
import ScriptHost.Proofs.FileRefinement
import ScriptHost.Proofs.Lines
/-!
# Logs are read back in order

A log is a text that scripts append to.  Each call adds its lines at the end, each with a newline,
so that what is stored is the text of all lines so far; and as such a text is read part by part,
what is read are the lines of all the parts, in order.  Nothing is said here about how the lines
were shared out among the calls, since the stored text does not depend on it.

That a store keeps the text is one fact about it, `KeepsText`, from which the rest follows for any
number of calls.  It holds of storage in memory.  It holds of storage in files as soon as one call
has not failed: then the file system can hold the path, and no file lies in the way.

## Main definitions

* `LogCall`, `Server.Logs`: calls that append to a log.
* `KeepsText`: a store that keeps a text as it is appended to.
* `Server.ReadsBack`: the lines of all calls are read back.

## Main statements

* `KeepsText.readsBack`: what is read after any calls.
* `FileStore.keepsText`, `FileStore.held_of_append`: files keep a text if one call has not failed.
* `Server.logs_readBack`: logs are read back from memory, and from files if no call fails.
-/

namespace ScriptHost

open Server ServerM FileTree

/-! ## Calls that append to a log -/

/-- A call that appends to a log: the host that makes it, the type by which it names the log, and
the lines. -/
structure LogCall where
  host : HostId
  typeName : String
  lines : List String

namespace LogCall

/-- The texts that calls append, in their order. -/
def lineTexts (calls : List LogCall) : List String := calls.flatMap (·.lines)

/-- What lies under the key of a log after calls, if anything does. -/
def textAfter (text : Option String) (calls : List LogCall) : Option String :=
  calls.foldl (fun text call => some (text.getD "" ++ Text.unlines call.lines)) text

theorem textAfter_some (text : String) (calls : List LogCall) :
    textAfter (some text) calls = some (text ++ Text.unlines (lineTexts calls)) := by
  induction calls generalizing text with
  | nil => exact congrArg some String.append_empty.symm
  | cons call calls ih =>
    rw [textAfter, List.foldl_cons]
    refine (ih _).trans ?_
    rw [lineTexts, lineTexts, List.flatMap_cons, Text.unlines_append, Option.getD_some,
      String.append_assoc]

/-- A log that did not exist holds all the lines just if there was a call. -/
theorem textAfter_none (calls : List LogCall) :
    textAfter none calls = if calls = [] then none else some (Text.unlines (lineTexts calls)) := by
  cases calls with
  | nil => rfl
  | cons call calls =>
    rw [if_neg (List.cons_ne_nil _ _), textAfter, List.foldl_cons]
    refine (textAfter_some _ calls).trans ?_
    rw [lineTexts, lineTexts, List.flatMap_cons, Text.unlines_append, Option.getD_none,
      String.empty_append]

variable {σ β : Type} [StateStore σ]

/-- Makes the call. -/
def run (file : String) (shared : Bool) (call : LogCall) : ServerM σ β (Except StoreError Bool) :=
  appendLog call.host file shared call.typeName call.lines

/-- Makes calls one after the other. -/
def runAll (file : String) (shared : Bool) (calls : List LogCall) :
    ServerM σ β (List (Except StoreError Bool)) :=
  calls.mapM (run file shared)

end LogCall

/-! ## What the calls do -/

namespace Server

variable {σ β : Type} {s t : Server σ β} {file : String} {shared : Bool} {key : ResourceKey}
  {id : HostId} {calls : List LogCall} {call : LogCall}

/-- A host may use the text under a key by the name of the file. -/
def MayUse (s : Server σ β) (file : String) (shared : Bool) (key : ResourceKey) (id : HostId) :
    Prop :=
  ∃ h, s.host? id = some h ∧ (h.name? ≠ none ∨ shared = true) ∧
    key = .resource h.name? file .text shared

/-- All the calls append to the text under a key: they are made by hosts that may use it, and do not
name opaque data. -/
def Logs (s : Server σ β) (file : String) (shared : Bool) (key : ResourceKey)
    (calls : List LogCall) : Prop :=
  ∀ call ∈ calls, s.MayUse file shared key call.host ∧
    Text.equalIgnoringCase call.typeName "nbt" = false

theorem MayUse.of_host? (h : s.MayUse file shared key id) (hhosts : ∀ k, t.host? k = s.host? k) :
    t.MayUse file shared key id := by
  obtain ⟨x, hx, hmay⟩ := h
  exact ⟨x, (hhosts id).trans hx, hmay⟩

theorem Logs.of_host? (h : s.Logs file shared key calls) (hhosts : ∀ k, t.host? k = s.host? k) :
    t.Logs file shared key calls :=
  fun call hcall => ⟨(h call hcall).1.of_host? hhosts, (h call hcall).2⟩

variable [StateStore σ]

/-- A call is one request to append to the text. -/
theorem run_logCall (huse : s.MayUse file shared key call.host)
    (htype : Text.equalIgnoringCase call.typeName "nbt" = false) :
    (call.run file shared).eval s =
        (StateStore.appendLines s.store key call.lines).1.map (fun _ => true) ∧
      (call.run file shared).exec s = s.request (.append call.lines) key := by
  obtain ⟨h, hh, hscope, rfl⟩ := huse
  have hkind : ResourceKind.ofTypeName call.typeName = .text := by
    unfold ResourceKind.ofTypeName
    rw [htype]
    rfl
  unfold LogCall.run appendLog
  rw [eval_withScope hh hscope, exec_withScope hh hscope, hkind]
  exact ⟨rfl, rfl⟩

/-- What a host reads is what lies under the key. -/
theorem eval_readText (huse : s.MayUse file shared key id) :
    (readText id file shared).eval s = StateStore.readLines s.store key := by
  obtain ⟨h, hh, hscope, rfl⟩ := huse
  unfold readText
  rw [eval_withScope hh hscope]
  rfl

end Server

/-! ## Stores that keep a text -/

section

variable {σ : Type} [StateStore σ]

/-- A store of a given kind keeps the text under a key: it is read as it is, nothing that is
appended to it is refused, and then the store keeps the longer text. -/
structure KeepsText (key : ResourceKey) (kept : σ → Option String → Prop) : Prop where
  read : ∀ {a text}, kept a text → StateStore.read a key = .ok (text.map String.toUTF8)
  append : ∀ {a text} (lines : List String), kept a text →
    (StateStore.appendLines a key lines).1 = .ok () ∧
      kept (StateStore.appendLines a key lines).2 (some (text.getD "" ++ Text.unlines lines))

variable {β : Type} {key : ResourceKey} {kept : σ → Option String → Prop} {s : Server σ β}
  {file : String} {shared : Bool} {calls : List LogCall} {text : Option String}

/-- No call is refused, and after the calls the store keeps the text with all their lines. -/
theorem KeepsText.runAll (h : KeepsText key kept) (hlogs : s.Logs file shared key calls)
    (hkept : kept s.store text) :
    (∀ r ∈ (LogCall.runAll file shared calls).eval s, r = .ok true) ∧
      kept ((LogCall.runAll file shared calls).exec s).store (LogCall.textAfter text calls) ∧
        ∀ k, ((LogCall.runAll file shared calls).exec s).host? k = s.host? k := by
  -- for any text kept so far: a call makes it longer, and leaves the hosts as they are
  induction calls generalizing s text with
  | nil => exact ⟨by simp [LogCall.runAll], hkept, fun _ => rfl⟩
  | cons call calls ih =>
    obtain ⟨huse, htype⟩ := hlogs call List.mem_cons_self
    obtain ⟨hanswer, hnext⟩ := run_logCall huse htype
    obtain ⟨hok, hlonger⟩ := h.append call.lines hkept
    have hrest : (s.request (.append call.lines) key).Logs file shared key calls :=
      Logs.of_host? (fun c hc => hlogs c (List.mem_cons_of_mem _ hc)) fun k => host?_request s _ _ k
    obtain ⟨hanswers, hafter, hhosts⟩ := ih hrest hlonger
    have hexec : (LogCall.runAll file shared (call :: calls)).exec s =
        (LogCall.runAll file shared calls).exec (s.request (.append call.lines) key) := by
      rw [← hnext]
      unfold LogCall.runAll
      rw [List.mapM_cons]
      rfl
    have heval : (LogCall.runAll file shared (call :: calls)).eval s = (.ok true) ::
        (LogCall.runAll file shared calls).eval (s.request (.append call.lines) key) := by
      rw [← hnext]
      rw [hok] at hanswer
      unfold LogCall.runAll
      rw [List.mapM_cons, eval_bind, hanswer]
      rfl
    rw [heval, hexec]
    refine ⟨fun r hr => ?_, hafter, hhosts⟩
    rcases List.mem_cons.1 hr with rfl | hr
    · rfl
    · exact hanswers r hr

/-- A text that a store keeps is read line by line. -/
theorem KeepsText.readLines (h : KeepsText key kept) {a : σ} (hkept : kept a text) :
    StateStore.readLines a key = .ok (text.map Text.lines) := by
  unfold StateStore.readLines
  rw [h.read hkept]
  cases text with
  | none => rfl
  | some text =>
    show (StateStore.blobLines text.toUTF8).bind _ = _
    unfold StateStore.blobLines
    rw [Text.decode_toUTF8]
    rfl

end

/-! ## What is read back -/

section

variable {σ β : Type} [StateStore σ]

/-- After some calls that append to a log, none of which fails, the log is read back. -/
structure Server.ReadsBack (s : Server σ β) (file : String) (shared : Bool) (calls : List LogCall)
    (reader : HostId) : Prop where
  answers : ∀ r ∈ (LogCall.runAll file shared calls).eval s, r = .ok true
  /-- What is read are the lines of all texts, each of which was ended by a newline; if nothing was
  ever appended there is nothing to read. -/
  lines : (readText reader file shared).eval ((LogCall.runAll file shared calls).exec s) =
    .ok (if calls = [] then none
      else some ((LogCall.lineTexts calls).flatMap fun text => Text.lines (text ++ "\n")))
  /-- These are the texts themselves if each is a single line. -/
  texts : (∀ text ∈ LogCall.lineTexts calls,
      '\n' ∉ text.toList ∧ text.toList.getLast? ≠ some '\r') →
    (readText reader file shared).eval ((LogCall.runAll file shared calls).exec s) =
      .ok (if calls = [] then none else some (LogCall.lineTexts calls))

variable {key : ResourceKey} {kept : σ → Option String → Prop} {s : Server σ β} {file : String}
  {shared : Bool} {calls : List LogCall} {reader : HostId}

theorem Server.ReadsBack.of_lines
    (hanswers : ∀ r ∈ (LogCall.runAll file shared calls).eval s, r = .ok true)
    (hlines : (readText reader file shared).eval ((LogCall.runAll file shared calls).exec s) =
      .ok (if calls = [] then none
        else some ((LogCall.lineTexts calls).flatMap fun text => Text.lines (text ++ "\n")))) :
    s.ReadsBack file shared calls reader where
  answers := hanswers
  lines := hlines
  texts hsingle := by rw [hlines, Text.flatMap_lines_of_single hsingle]

/-- A log that does not exist at first is read back from a store that keeps it. -/
theorem KeepsText.readsBack (h : KeepsText key kept) (hlogs : s.Logs file shared key calls)
    (hreader : s.MayUse file shared key reader) (hkept : kept s.store none) :
    s.ReadsBack file shared calls reader := by
  obtain ⟨hanswers, hafter, hhosts⟩ := h.runAll hlogs hkept
  refine .of_lines hanswers ?_
  rw [eval_readText (hreader.of_host? hhosts), h.readLines hafter, LogCall.textAfter_none]
  split
  · rfl
  · rw [Option.map_some, Text.lines_unlines]

end

/-! ## Stores in memory and in files -/

theorem getD_toUTF8 (text : Option String) (more : String) :
    (text.map String.toUTF8).getD ByteArray.empty ++ more.toUTF8 =
      (text.getD "" ++ more).toUTF8 := by
  rw [Text.toUTF8_append]
  cases text <;> rfl

/-- Storage in memory keeps a text. -/
theorem MemoryStore.keepsText (key : ResourceKey) :
    KeepsText key fun (m : MemoryStore) text => m.get? key = text.map String.toUTF8 where
  read h := congrArg Except.ok h
  append {m text} lines h := by
    refine ⟨rfl, ?_⟩
    show (m.append key lines).get? key = _
    rw [MemoryStore.get?_append, if_pos rfl, h, getD_toUTF8]
    rfl

namespace FileStore

variable {s : FileStore} {key : ResourceKey} {path : List String} {lines : List String}

/-- The file of a single key gets in no other's way. -/
theorem filesApart_singleton {root : List String} (hpath : key.path? = .ok path)
    (hholds : Holds (root ++ path)) : FilesApart root (· = key) where
  held := by
    rintro _ rfl
    exact ⟨path, hpath, hholds⟩
  apart := by
    rintro _ _ _ _ rfl rfl - - -
    rfl

/-- Storage in files keeps a text whose path the file system can hold, as storage in memory does. -/
theorem keepsText (key : ResourceKey) :
    KeepsText key fun (s : FileStore) text => FilesApart s.root (· = key) ∧
      ∃ m, Mirrors (· = key) s m ∧ m.get? key = text.map String.toUTF8 where
  read := by
    rintro s text ⟨hkeys, m, hmirrors, htext⟩
    rw [hmirrors.read_eq hkeys rfl]
    exact congrArg Except.ok htext
  append := by
    -- the store in memory that the files mirror says what the file will hold
    rintro s text lines ⟨hkeys, m, hmirrors, htext⟩
    obtain ⟨-, hlonger⟩ := (MemoryStore.keepsText key).append lines htext
    obtain ⟨hanswer, hroot, hmirrors⟩ := hmirrors.run hkeys (.append key lines) rfl
    have hdone : (StateStore.appendLines s key lines).1 = .ok () := StoreAnswer.done.inj hanswer
    refine ⟨hdone, ?_, _, hmirrors, hlonger⟩
    show FilesApart ((StoreUse.append key lines).run s).2.root _
    rw [hroot]
    exact hkeys

/-- A text that does not exist can be kept if the file system can hold its path, and no file lies
in the way. -/
theorem mirrors_of_absent (hs : s.Sound) (habsent : StateStore.read s key = .ok none)
    (hpath : key.path? = .ok path) (hway : s.tree.OnWay [] (s.root ++ path)) :
    Mirrors (· = key) s ∅ where
  sound := hs
  way := by
    rintro _ q rfl hq
    rw [hpath] at hq
    cases hq
    exact hway
  node := by
    rintro _ q rfl hq
    rw [hpath] at hq
    cases hq
    obtain ⟨_, _, _, hplain⟩ := ResourceKey.path?_eq_ok hpath
    rw [read_eq hpath, readAt] at habsent
    have hfind : s.tree.find (s.root ++ path) = .error .notFound := by
      unfold readFile at habsent
      cases hfind : s.tree.find (s.root ++ path) with
      | error e =>
        rw [hfind] at habsent
        cases e with
        | notFound => rfl
        | _ => cases habsent
      | ok node =>
        rw [hfind] at habsent
        cases node <;> cases habsent
    rw [node?_of_notFound hs.grown (hs.plain hplain) hfind]
    rfl

/-- The file system can hold the path of a file that could be appended to, and no file lies in the
way. -/
theorem held_of_append (hs : s.Sound) (h : (StateStore.appendLines s key lines).1 = .ok ()) :
    ∃ path, key.path? = .ok path ∧ Holds (s.root ++ path) ∧ s.tree.OnWay [] (s.root ++ path) := by
  cases hpath : key.path? with
  | error e =>
    simp only [StateStore.appendLines, hpath] at h
    cases h
  | ok path =>
    obtain ⟨folder, name, rfl, hplain⟩ := ResourceKey.path?_eq_ok hpath
    have hplain := hs.plain hplain
    obtain ⟨hadded, hgrown⟩ := createFolders_added hs.grown (s.root ++ folder)
    rw [appendLines_eq hpath, changeAt, List.dropLast_concat] at h
    generalize s.tree.createFolders (s.root ++ folder) = created at hadded hgrown h
    obtain ⟨_ | _, t⟩ := created
    · cases h
    · dsimp only at h hadded hgrown
      split at h
      · rename_i u hmodify
        rw [← List.append_assoc] at hmodify hplain
        obtain ⟨hplace, -, -⟩ := modifyFile_cases hgrown hplain hmodify
        refine ⟨_, rfl, ?_, ?_⟩
        · rw [← List.append_assoc]
          exact holds_of_modifyFile hgrown hplain hmodify
        · rw [← List.append_assoc]
          exact fun p q content hsplit hq hfile =>
            hgrown.onWay_concat hplace p q content hsplit hq (hadded.file_iff.2 hfile)
      · cases h

end FileStore

/-! ## Logs are read back -/

namespace Server

variable {β : Type} {file : String} {shared : Bool} {key : ResourceKey} {calls : List LogCall}
  {reader : HostId}

/-- A log in a file is read back if the file system can hold its path, and no file lies in the
way. -/
theorem readsBack_of_held {s : Server FileStore β} {path : List String} (hs : s.store.Sound)
    (hlogs : s.Logs file shared key calls) (hreader : s.MayUse file shared key reader)
    (habsent : StateStore.read s.store key = .ok none) (hpath : key.path? = .ok path)
    (hholds : Holds (s.store.root ++ path)) (hway : s.store.tree.OnWay [] (s.store.root ++ path)) :
    s.ReadsBack file shared calls reader :=
  (FileStore.keepsText key).readsBack hlogs hreader
    ⟨FileStore.filesApart_singleton hpath hholds, ∅,
      FileStore.mirrors_of_absent hs habsent hpath hway, rfl⟩

/-- A log that does not exist at first is read back in order after any number of calls: the lines
of each appended text in turn, however the texts were shared out among the calls, and nothing at all
if there was no call.  In memory no call fails.  In files the log is read back if no call fails, and
none does if the file system can hold the path and no file lies in the way. -/
theorem logs_readBack (key : ResourceKey) (file : String) (shared : Bool) (calls : List LogCall)
    (reader : HostId) :
    (∀ s : Server MemoryStore β, s.Logs file shared key calls → s.MayUse file shared key reader →
      StateStore.read s.store key = .ok none → s.ReadsBack file shared calls reader) ∧
    ∀ s : Server FileStore β, s.store.Sound →
      s.Logs file shared key calls → s.MayUse file shared key reader →
      StateStore.read s.store key = .ok none →
      ((∀ r ∈ (LogCall.runAll file shared calls).eval s, ∃ b, r = .ok b) →
        s.ReadsBack file shared calls reader) ∧
      ∀ path, key.path? = .ok path → Holds (s.store.root ++ path) →
        s.store.tree.OnWay [] (s.store.root ++ path) → s.ReadsBack file shared calls reader := by
  refine ⟨fun s hlogs hreader habsent => ?_, fun s hs hlogs hreader habsent => ⟨fun hok => ?_, ?_⟩⟩
  · exact (MemoryStore.keepsText key).readsBack hlogs hreader (Except.ok.inj habsent)
  · cases calls with
    | nil =>
      refine .of_lines (by simp [LogCall.runAll]) ?_
      show (readText reader file shared).eval s = _
      rw [eval_readText hreader, StateStore.readLines, habsent]
      rfl
    | cons call rest =>
      -- the first call says that the file can be kept
      obtain ⟨huse, htype⟩ := hlogs call List.mem_cons_self
      obtain ⟨hanswer, -⟩ := run_logCall huse htype
      have hmem : (call.run file shared).eval s ∈
          (LogCall.runAll file shared (call :: rest)).eval s := by
        unfold LogCall.runAll
        rw [List.mapM_cons]
        exact List.mem_cons_self
      obtain ⟨b, hb⟩ := hok _ hmem
      rw [hanswer] at hb
      have happend : (StateStore.appendLines s.store key call.lines).1 = .ok () := by
        cases hresult : (StateStore.appendLines s.store key call.lines).1 with
        | error e =>
          rw [hresult] at hb
          cases hb
        | ok _ => rfl
      obtain ⟨path, hpath, hholds, hway⟩ := FileStore.held_of_append hs happend
      exact readsBack_of_held hs hlogs hreader habsent hpath hholds hway
  · intro path hpath hholds hway
    exact readsBack_of_held hs hlogs hreader habsent hpath hholds hway

/-- The app of a camera, which keeps a log of its own. -/
def cameraHost : Host Unit := .ofModule 1 (some { name := "camera", code := some "" }) false none

/-- What the camera appends to its log: among other lines an empty one, one that ends in a carriage
return, and two in one text. -/
def cameraLog : List LogCall :=
  [⟨1, "log", ["on", ""]⟩, ⟨1, "Text", []⟩, ⟨1, "NB", ["a\r", "two\nlines"]⟩]

/-- The log of the camera is read back from memory, and from a file below a new folder. -/
theorem logs_readBack_camera :
    let key := ResourceKey.resource (some "camera") "log/day" .text false
    let lines := ["on", "", "a", "two", "lines"]
    let m : Server MemoryStore Unit := (Server.new ∅ {}).insertHost cameraHost
    let f : Server FileStore Unit :=
      (Server.new { tree := ∅, root := ["var", "data"], displayRoot := "/var/data" } {}).insertHost
        cameraHost
    (m.Logs "log/day" false key cameraLog ∧ m.MayUse "log/day" false key 1 ∧
      StateStore.read m.store key = .ok none ∧ f.store.Sound ∧
      f.Logs "log/day" false key cameraLog ∧ f.MayUse "log/day" false key 1 ∧
      StateStore.read f.store key = .ok none) ∧
    (readText 1 "log/day" false).eval ((LogCall.runAll "log/day" false cameraLog).exec m) =
        .ok (some lines) ∧
      (readText 1 "log/day" false).eval ((LogCall.runAll "log/day" false cameraLog).exec f) =
        .ok (some lines) := by
  intro key lines m f
  have huse : ∀ {σ : Type} (s : Server σ Unit),
      (s.insertHost cameraHost).MayUse "log/day" false key 1 := by
    intro σ s
    exact ⟨cameraHost, (host?_insertHost s cameraHost 1).trans (if_pos rfl),
      .inl (Option.some_ne_none _), rfl⟩
  have hlogs : ∀ {σ : Type} (s : Server σ Unit),
      (s.insertHost cameraHost).Logs "log/day" false key cameraLog := by
    intro σ s call hcall
    have htypes : ∀ call ∈ cameraLog,
        call.host = 1 ∧ Text.equalIgnoringCase call.typeName "nbt" = false := by decide +kernel
    obtain ⟨hhost, htype⟩ := htypes call hcall
    exact ⟨hhost ▸ huse s, htype⟩
  have hpath : key.path? = .ok ["camera.data", "log", "day.txt"] := by decide +kernel
  have hholds : Holds (["var", "data"] ++ ["camera.data", "log", "day.txt"]) :=
    { check := by decide +kernel
      short := by decide +kernel }
  have hs : f.store.Sound :=
    { root := by
        show ∀ n ∈ ["var", "data"], n ≠ "" ∧ n ≠ "." ∧ n ≠ ".."
        decide
      grown := grown_empty }
  have hway : f.store.tree.OnWay []
      (["var", "data"] ++ ["camera.data", "log", "day.txt"]) := by
    intro p q content _ _
    show (∅ : FileTree).node? p ≠ _
    rcases eq_or_ne p [] with rfl | hp
    · simp
    · rw [node?_empty hp]
      simp
  have habsent : StateStore.read f.store key = .ok none := by
    have hnone : (StateStore.read f.store key).toOption = some none := by decide +kernel
    cases hread : StateStore.read f.store key with
    | error e =>
      rw [hread] at hnone
      cases hnone
    | ok blob =>
      rw [hread] at hnone
      rw [Option.some.inj hnone]
  obtain ⟨hmemory, hfiles⟩ := logs_readBack (β := Unit) key "log/day" false cameraLog 1
  have hlines : (LogCall.lineTexts cameraLog).flatMap (fun text => Text.lines (text ++ "\n")) =
      lines := by decide +kernel
  refine ⟨⟨hlogs _, huse _, rfl, hs, hlogs _, huse _, habsent⟩, ?_, ?_⟩
  · rw [(hmemory m (hlogs _) (huse _) rfl).lines, hlines]
    rfl
  · rw [((hfiles f hs (hlogs _) (huse _) habsent).2 _ hpath hholds hway).lines, hlines]
    rfl

end Server

end ScriptHost
