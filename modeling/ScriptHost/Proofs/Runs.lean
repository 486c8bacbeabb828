import Mathlib
import ScriptHost.Proofs.RunSteps
/-!
# How often modules are run under a host

When the host of a module is made, the module is run.  Afterwards code may import libraries, and
what is imported is marked and not run again.  So under every host the host's own module has been
run, if it has one, and after it each of its imports once.

Since the host's own module is not marked when it is run, code that imports it has it run a second
time.  Nothing else is ever run twice.

## Main statements

* `Server.Ran`, `Server.Recounted`: what has been run under each host.
* `RunStep.recounted`, `Server.Reachable.recounted`: every step keeps the account right.
* `Server.runsUnder_of_reachable`: how often each module has been run under a host.
-/

namespace ScriptHost

open Server

variable {σ β : Type} {s t : Server σ β} {id : HostId}

/-! ## The account of what has been run -/

namespace Server

/-- What has been run under a host: its own module, if it has one, and then its imports, each of
them once.  While the host is there, that is what it takes for imported. -/
structure Ran (s : Server σ β) (id : HostId) (main : Option String) (imports : List String) :
    Prop where
  runs : s.runsUnder id = imports ++ main.toList
  nodup : imports.Nodup
  host : ∀ {h : Host β}, s.host? id = some h → h.name? = main ∧ h.imported = imports

/-- Under numbers that have not been given away nothing has been run, and under the others what
belongs there. -/
structure Recounted (s : Server σ β) : Prop where
  numbered : s.Numbered
  fresh : ∀ {id}, s.nextId ≤ id → s.runsUnder id = []
  ran : ∀ id, ∃ main imports, s.Ran id main imports

theorem recounted_new (store : σ) (settings : Settings) :
    (Server.new store settings : Server σ β).Recounted where
  numbered :=
    have ha : Arena (fun _ _ => True) (Server.new store settings : Server σ β) :=
      arena_new store settings
    ha.numbered
  fresh _ := rfl
  ran id := by
    refine ⟨none, [], rfl, List.nodup_nil, fun {h} hh => ?_⟩
    rw [(eq_of_host?_new hh).2]
    exact ⟨rfl, rfl⟩

/-- Hosts that are kept with their sources have been run what they had. -/
theorem Ran.of_admits {news : HostId → Option Module → Prop} {main : Option String}
    {imports : List String} (h : s.Ran id main imports) (hid : id < s.nextId)
    (hadmits : s.Admits news t) : t.Ran id main imports where
  runs := (hadmits.runs id).trans h.runs
  nodup := h.nodup
  host {y} hy := by
    rcases hadmits.host hy with ⟨x, hx, hsources⟩ | ⟨hle, _⟩
    · obtain ⟨hname, himported⟩ := Host.eq_of_sources hsources
      obtain ⟨hmain, himports⟩ := h.host hx
      exact ⟨hname.trans hmain, himported.trans himports⟩
    · exact absurd hid (Nat.not_lt.2 hle)

/-- Nothing has been run under a new host, if it is not among those whose code is run. -/
theorem Recounted.ran_of_admits {news : HostId → Option Module → Prop} (hs : s.Recounted)
    (hadmits : s.Admits news t) (hnew : ∀ module, ¬ news id (some module)) :
    ∃ main imports, t.Ran id main imports := by
  by_cases hid : id < s.nextId
  · obtain ⟨main, imports, h⟩ := hs.ran id
    exact ⟨main, imports, h.of_admits hid hadmits⟩
  · refine ⟨none, [], ?_, List.nodup_nil, fun {y} hy => ?_⟩
    · rw [hadmits.runs, hs.fresh (Nat.not_lt.1 hid)]
      rfl
    · rcases hadmits.host hy with ⟨x, hx, _⟩ | ⟨_, _, module, hmodule, hsources⟩
      · exact absurd (hs.numbered.lt_nextId hx) hid
      · cases module with
        | none => exact Host.eq_of_sources hsources
        | some m => exact absurd hmodule (hnew m)

end Server

/-- Every step keeps the account right. -/
theorem RunStep.recounted (hs : s.Recounted) (h : RunStep s t) : t.Recounted := by
  have hnumbered := h.numbered hs.numbered
  cases h with
  | rest h =>
      refine ⟨hnumbered, fun hid => ?_, fun id => hs.ran_of_admits h fun _ => nofun⟩
      rw [h.runs]
      exact hs.fresh (h.nextId.trans hid)
  | @load b module hlt hb actor =>
      have hruns := b.runsUnder_record_runModule { host := s.nextId, actor } module
      refine ⟨hnumbered, fun {id} hid => ?_, fun id => ?_⟩
      · have hne : s.nextId ≠ id := Nat.ne_of_lt (hlt.trans_le hid)
        rw [hruns, if_neg hne, hb.runs]
        exact hs.fresh (hlt.le.trans hid)
      · by_cases hid : s.nextId = id
        · subst hid
          refine ⟨some module.name, [], ?_, List.nodup_nil, fun {y} hy => ?_⟩
          · rw [hruns, if_pos rfl, hb.runs, hs.fresh (Nat.le_refl _)]
            rfl
          · rcases hb.host hy with ⟨x, hx, _⟩ | ⟨_, _, _, ⟨_, rfl⟩, hsources⟩
            · exact absurd (hs.numbered.lt_nextId hx) (Nat.lt_irrefl _)
            · exact Host.eq_of_sources hsources
        · obtain ⟨main, imports, h⟩ := hs.ran_of_admits hb fun _ hnew => hid hnew.1.symm
          refine ⟨main, imports, ?_, h.nodup, h.host⟩
          rw [hruns, if_neg hid]
          exact h.runs
  | @importModule k h hh frame hf module hm =>
      subst hf
      have hruns :=
        (s.modifyHost frame.host (·.markImported module.name)).runsUnder_record_runModule frame
          module
      refine ⟨hnumbered, fun {id} hid => ?_, fun id => ?_⟩
      · have hne : frame.host ≠ id := Nat.ne_of_lt ((hs.numbered.lt_nextId hh).trans_le hid)
        rw [hruns, if_neg hne]
        exact hs.fresh hid
      · obtain ⟨main, imports, h⟩ := hs.ran id
        have hhost := s.host?_modifyHost frame.host id (·.markImported module.name)
        by_cases hid : frame.host = id
        · subst hid
          obtain ⟨hmain, himports⟩ := h.host hh
          refine ⟨main, module.name :: imports, ?_, ?_, fun {y} hy => ?_⟩
          · rw [hruns, if_pos rfl]
            exact congrArg (module.name :: ·) h.runs
          · exact List.nodup_cons.2 ⟨himports ▸ hm, h.nodup⟩
          · have hy' := hhost.symm.trans hy
            rw [if_pos rfl, hh, Option.map_some] at hy'
            obtain rfl := Option.some.inj hy'
            exact ⟨hmain, congrArg (module.name :: ·) himports⟩
        · refine ⟨main, imports, ?_, h.nodup, fun {y} hy => ?_⟩
          · rw [hruns, if_neg hid]
            exact h.runs
          · have hy' := hhost.symm.trans hy
            rw [if_neg hid] at hy'
            exact h.host hy'

theorem RunSteps.recounted (hs : s.Recounted) (h : RunSteps s t) : t.Recounted := by
  induction h with
  | refl => exact hs
  | tail _ hstep ih => exact hstep.recounted ih

/-! ## How often modules are run -/

namespace Server

variable [StateStore σ] {allowed : Catalogue → Prop}

/-- In every run of a server the account of what has been run is right. -/
theorem Reachable.recounted (hs : Reachable allowed s) : s.Recounted := by
  induction hs with
  | new store settings => exact recounted_new store settings
  | step _ co _ op ih => exact RunSteps.recounted ih (op.proceeds ih.numbered)

omit [StateStore σ] in
/-- A module is run once for being the host's own, and once for being imported. -/
theorem Ran.count {main : Option String} {imports : List String} (h : s.Ran id main imports)
    (name : String) :
    (s.runsUnder id).count name =
      (if name ∈ imports then 1 else 0) + if main = some name then 1 else 0 := by
  rw [h.runs, List.count_append, h.nodup.count]
  congr 1
  cases main with
  | none => simp
  | some m =>
      simp only [Option.toList_some, List.count_singleton, beq_iff_eq, Option.some.injEq]

omit [StateStore σ] in
/-- No module is run twice, unless the host's own module is imported. -/
theorem Ran.nodup_iff {main : Option String} {imports : List String} (h : s.Ran id main imports) :
    (s.runsUnder id).Nodup ↔ ∀ name, main = some name → name ∉ imports := by
  rw [h.runs, List.nodup_append_comm]
  cases main <;> simp [h.nodup]

/-- In every run of a server, whatever evaluators do and however catalogues change, the code of the
host's own module is run first under a host, and after it each import once.  So no module is run
twice under a host, unless code of the host imports the host's own module, which is run once more
for the first such import.  This holds for hosts that have gone as for those that are there. -/
theorem runsUnder_of_reachable (hs : Reachable allowed s) (id : HostId) :
    ∃ (main : Option String) (imports : List String),
      s.runsUnder id = imports ++ main.toList ∧ imports.Nodup ∧
      (∀ h, s.host? id = some h → h.name? = main ∧ h.imported = imports) ∧
      (∀ name, (s.runsUnder id).count name =
        (if name ∈ imports then 1 else 0) + if main = some name then 1 else 0) ∧
      ((s.runsUnder id).Nodup ↔ ∀ name, main = some name → name ∉ imports) := by
  obtain ⟨main, imports, h⟩ := hs.recounted.ran id
  exact ⟨main, imports, h.runs, h.nodup, fun _ hh => h.host hh, h.count, h.nodup_iff⟩

/-- An evaluator for which the code of a module imports other modules, one after the other. -/
def importing (imports : String → List String) : Evaluator Unit :=
  { Evaluator.always (.done (.ok .null)) with
    runModule := fun _ module =>
      (imports module.name).foldr
        (fun name rest => .ask (.importModule name) fun _ => rest) (.done (.ok .null)) }

/-- An app and two libraries. -/
def libraryCatalogue : Catalogue :=
  (MemoryModules.ofList [{ name := "app", code := some "" },
    { name := "colors", code := some "", isLibrary := true },
    { name := "shapes", code := some "", isLibrary := true }]).catalogue

/-- The app imports two libraries that import each other and themselves.  Each is run once. -/
theorem runsUnder_library :
    let co := Collaborators.plain
      (importing fun name => if name = "app" then ["shapes", "colors"] else ["colors", "shapes"])
      libraryCatalogue
    let s : Server MemoryStore Unit := Operation.runAll co [.addApp "app" .server] (.new ∅ {})
    Reachable (fun _ => True) s ∧ s.runsUnder 1 = ["colors", "shapes", "app"] ∧
      ∃ (main : Option String) (imports : List String),
        s.runsUnder 1 = imports ++ main.toList ∧ imports.Nodup ∧
        (∀ h, s.host? 1 = some h → h.name? = main ∧ h.imported = imports) ∧
        (∀ name, (s.runsUnder 1).count name =
          (if name ∈ imports then 1 else 0) + if main = some name then 1 else 0) ∧
        ((s.runsUnder 1).Nodup ↔ ∀ name, main = some name → name ∉ imports) := by
  intro co s
  have hs : Reachable (fun _ => True) s := .runAll trivial _ (.new _ _)
  exact ⟨hs, by decide +kernel, runsUnder_of_reachable hs 1⟩

/-- An app whose code imports the app itself is run twice when it is loaded. -/
theorem rerun_app :
    let co := Collaborators.plain (importing fun _ => ["app"]) libraryCatalogue
    let s : Server MemoryStore Unit := Operation.runAll co [.addApp "app" .server] (.new ∅ {})
    Reachable (fun _ => True) s ∧ s.runsUnder 1 = ["app", "app"] ∧ ¬ (s.runsUnder 1).Nodup := by
  intro co s
  have hs : Reachable (fun _ => True) s := .runAll trivial _ (.new _ _)
  have hruns : s.runsUnder 1 = ["app", "app"] := by decide +kernel
  refine ⟨hs, hruns, ?_⟩
  rw [hruns]
  decide

end Server

end ScriptHost
