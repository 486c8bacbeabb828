import Mathlib
import ScriptHost.Proofs.Loading
import ScriptHost.Proofs.Replacing
/-!
# Imports that fail

A library is marked as imported before its code is run, so that libraries which import each other in
circles are run once.  If the code fails, and with it each import around it, the marks stay: no
later import has any of these libraries run again, and each of them succeeds at once.  So an import
that succeeds tells only that the run of the library has begun under the host, not that it has been
completed or is still going on.

## Main definitions

* `Server.StandsStill`: nothing is run, and no host changes.
* `Server.PassesOver`: imports of a module succeed without a run.
* `Server.HasBegun`: the run of a module has begun, and so it is passed over.

## Main statements

* `ServerM.importModule_of_absent`, `ServerM.importModule_of_library?`: what an import comes to.
* `ServerM.eval_importModule_eq_ok_iff`: when an import succeeds.
* `RunSteps.hasBegun`: a module whose run has begun is passed over for good.
* `unretried_of_reachable`: what an import comes to at every moment of every run.
* `passedOver_app`: an import that succeeds after it has failed.
-/

namespace ScriptHost

open Server ServerM

variable {σ β : Type}

/-! ## What an import comes to -/

/-- Nothing is run, and no host changes. -/
def Server.StandsStill (s t : Server σ β) : Prop :=
  ∀ k, t.host? k = s.host? k ∧ t.runsUnder k = s.runsUnder k

theorem standsStill_warn (s : Server σ β) (warning : Option String) :
    s.StandsStill (s.warn warning) := by
  intro k
  cases warning <;> exact ⟨rfl, rfl⟩

/-- The module that an import looks for: it must have code. -/
def Collaborators.library? (co : Collaborators β) (name : String) : Option Module :=
  (co.catalogue.find name true).found.filter (·.code.isSome)

namespace ServerM

variable {co : Collaborators β} {run : Runner σ β} {frame : Frame} {name : String}
  {s : Server σ β} {m : Module}

/-- An import of a module that cannot be located fails, and nothing happens. -/
theorem importModule_of_absent (run : Runner σ β) (frame : Frame) (s : Server σ β)
    (hm : co.library? name = none) :
    (∃ e, (importModule co run frame name).eval s = .error e) ∧
      (importModule co run frame name).exec s =
        s.warn (co.catalogue.find name true).warning := by
  have hfound : (findModule co name true : ServerM σ β _).eval s =
      (co.catalogue.find name true).found := rfl
  unfold Collaborators.library? at hm
  unfold importModule
  rw [eval_bind, exec_bind, hfound, hm, exec_findModule]
  exact ⟨⟨_, rfl⟩, rfl⟩

/-- An import of a module with code looks at the host. -/
theorem importModule_of_library? (run : Runner σ β) (frame : Frame) (s : Server σ β)
    (hm : co.library? name = some m) :
    let warned := s.warn (co.catalogue.find name true).warning
    (s.host? frame.host = none ∧ (∃ e, (importModule co run frame name).eval s = .error e) ∧
      (importModule co run frame name).exec s = warned) ∨
    (∃ h, s.host? frame.host = some h ∧ m.name ∈ h.imported ∧
      (importModule co run frame name).eval s = .ok () ∧
      (importModule co run frame name).exec s = warned) ∨
    ∃ h, s.host? frame.host = some h ∧ m.name ∉ h.imported ∧
      let marked := warned.modifyHost frame.host (·.markImported m.name)
      (importModule co run frame name).eval s =
        ((runModule co run frame m).eval marked).map (fun _ => ()) ∧
      (importModule co run frame name).exec s = (runModule co run frame m).exec marked := by
  intro warned
  have hfound : (findModule co name true : ServerM σ β _).eval s =
      (co.catalogue.find name true).found := rfl
  have hhost : warned.host? frame.host = s.host? frame.host := (standsStill_warn s _ _).1
  unfold Collaborators.library? at hm
  unfold importModule
  rw [eval_bind, exec_bind, hfound, hm, exec_findModule]
  dsimp only
  rw [eval_bind, exec_bind, eval_host?, exec_host?, hhost]
  cases hh : s.host? frame.host with
  | none => exact .inl ⟨rfl, ⟨_, rfl⟩, rfl⟩
  | some h =>
      dsimp only
      rw [eval_ite, exec_ite]
      by_cases himported : m.name ∈ h.imported
      · have hpassed : h.imported.contains m.name = true := by simpa using himported
        rw [if_pos hpassed, if_pos hpassed]
        exact .inr (.inl ⟨h, rfl, himported, rfl, rfl⟩)
      · have hnew : ¬ h.imported.contains m.name = true := by simpa using himported
        rw [if_neg hnew, if_neg hnew]
        exact .inr (.inr ⟨h, rfl, himported, rfl, rfl⟩)

/-- An import succeeds just if its module has been marked before, or the run of it is completed. -/
theorem eval_importModule_eq_ok_iff (run : Runner σ β) (frame : Frame) (s : Server σ β) :
    (importModule co run frame name).eval s = .ok () ↔
      ∃ m h, co.library? name = some m ∧ s.host? frame.host = some h ∧
        (m.name ∈ h.imported ∨ ∃ v, (runModule co run frame m).eval
          ((s.warn (co.catalogue.find name true).warning).modifyHost frame.host
            (·.markImported m.name)) = .ok v) := by
  cases hm : co.library? name with
  | none =>
      obtain ⟨⟨e, he⟩, _⟩ := importModule_of_absent run frame s hm
      rw [he]
      exact ⟨fun h => (by cases h), fun ⟨_, _, h, _⟩ => (by cases h)⟩
  | some m =>
      rcases importModule_of_library? run frame s hm with
        ⟨hnone, ⟨e, he⟩, _⟩ | ⟨h, hh, himported, hok, _⟩ | ⟨h, hh, hnew, heval, _⟩
      · rw [he, hnone]
        exact ⟨fun h => (by cases h), fun ⟨_, _, _, h, _⟩ => (by cases h)⟩
      · exact iff_of_true hok ⟨m, h, rfl, hh, .inl himported⟩
      · rw [heval]
        cases hv : (runModule co run frame m).eval
            ((s.warn (co.catalogue.find name true).warning).modifyHost frame.host
              (·.markImported m.name)) with
        | ok v => exact iff_of_true rfl ⟨m, h, rfl, hh, .inr ⟨v, hv⟩⟩
        | error e =>
            refine ⟨fun h => (by cases h), ?_⟩
            rintro ⟨m', h', hm', hh', hcase⟩
            obtain rfl := Option.some.inj hm'
            obtain rfl := Option.some.inj (hh.symm.trans hh')
            rcases hcase with himported | ⟨v, hv'⟩
            · exact absurd himported hnew
            · rw [hv] at hv'
              cases hv'

end ServerM

/-! ## Modules whose run has begun -/

/-- Every import of a module under a host succeeds, and nothing is run. -/
def Server.PassesOver (s : Server σ β) (id : HostId) (module : String) : Prop :=
  ∀ (co : Collaborators β) (run : Runner σ β) (frame : Frame) (name : String) (m : Module),
    frame.host = id → co.library? name = some m → m.name = module →
      (importModule co run frame name).eval s = .ok () ∧
        s.StandsStill ((importModule co run frame name).exec s)

/-- The run of a module has begun under a host, and so the module is passed over. -/
structure Server.HasBegun (s : Server σ β) (id : HostId) (module : String) : Prop where
  ran : module ∈ s.runsUnder id
  passed : s.PassesOver id module

section

variable {s t : Server σ β} {id : HostId} {h : Host β} {module : String}

/-- A module that is marked as imported has been run, and is passed over. -/
theorem Server.Recounted.hasBegun (hs : s.Recounted) (hh : s.host? id = some h)
    (hm : module ∈ h.imported) : s.HasBegun id module where
  ran := by
    obtain ⟨main, imports, hran⟩ := hs.ran id
    obtain ⟨_, himports⟩ := hran.host hh
    rw [hran.runs, ← himports]
    exact List.mem_append_left _ hm
  passed := by
    rintro co run frame name m rfl hlibrary rfl
    rcases importModule_of_library? run frame s hlibrary with
      ⟨hnone, _⟩ | ⟨_, _, _, heval, hexec⟩ | ⟨x, hx, hnew, _⟩
    · rw [hh] at hnone
      cases hnone
    · rw [hexec]
      exact ⟨heval, standsStill_warn s _⟩
    · obtain rfl : h = x := Option.some.inj (hh.symm.trans hx)
      exact absurd hm hnew

/-- A module that is marked stays so as long as the host is there, and is passed over. -/
theorem RunSteps.hasBegun (hs : s.Recounted) (hst : RunSteps s t) (hh : s.host? id = some h)
    (hm : module ∈ h.imported) (hlive : (t.host? id).isSome) : t.HasBegun id module := by
  obtain ⟨y, hy⟩ := Option.isSome_iff_exists.1 hlive
  obtain ⟨x, hx, hsuffix⟩ := hst.imported_suffix (hs.numbered.lt_nextId hh) hy
  obtain rfl : h = x := Option.some.inj (hh.symm.trans hx)
  exact (RunSteps.recounted hs hst).hasBegun hy (hsuffix.subset hm)

end

/-! ## Imports at every moment -/

section

variable [StateStore σ] {frame : Frame} {m : Module} {s : Server σ β}

/-- When the code of a module is run for an import, the module is marked by then, and whatever the
code does the host is there afterwards. -/
theorem runSteps_of_marked (co : Collaborators β) (hs : s.Recounted) {h : Host β}
    (hh : s.host? frame.host = some h) (hnew : m.name ∉ h.imported) (warning : Option String)
    (depth : Nat) :
    let marked := (s.warn warning).modifyHost frame.host (·.markImported m.name)
    let t := (runModule co (runScript co depth) frame m).exec marked
    ∃ b : Server σ β, RunSteps s b ∧ b.host? frame.host = some (h.markImported m.name) ∧
      RunSteps b t ∧ (t.host? frame.host).isSome := by
  intro marked t
  have hwarned : (s.warn warning).host? frame.host = some h :=
    (standsStill_warn s warning frame.host).1.trans hh
  have hwarn : RunSteps s (s.warn warning) := by
    cases warning with
    | none => exact .refl
    | some text => exact .single (.rest (.record fun _ => rfl))
  have hmarked : marked.host? frame.host = some (h.markImported m.name) := by
    rw [host?_modifyHost_self, hwarned, Option.map_some]
  have hbegin : RunSteps s (marked.record (.asked frame (.runModule m))) :=
    hwarn.tail (.importModule hwarned rfl m hnew)
  have hR : CodeRelation frame.host (Actions frame.host : Server σ β → Server σ β → Prop) :=
    codeRelation_actions frame.host
  have hrun : Actions frame.host (marked.record (.asked frame (.runModule m))) t :=
    runsBy_runScript hR depth frame _ rfl (hbegin.numbered hs.numbered).keyed
  refine ⟨_, hbegin, hmarked, hrun.runSteps, ?_⟩
  rw [hrun.codeSteps.frame.isSome_host?_eq, host?_record, hmarked]
  rfl

/-- At every moment of every run, also while code runs that other imports have started: an import
fails without having anything run if there is no such package or the host is gone.  Otherwise, when
it fails, the run of the module has begun, and at every later moment, whatever is done meanwhile,
the host's next import of the module succeeds and has nothing run, as long as the host is there.
Just those imports succeed whose module has been marked before or whose run is completed, and what
is marked are modules whose runs have begun.  A request from outside is made at the depth
`maxDepth`. -/
theorem unretried_of_reachable {allowed : Catalogue → Prop} {r : Server σ β}
    (hr : Reachable allowed r) (hrs : RunSteps r s) (co : Collaborators β) (depth : Nat)
    (frame : Frame) (name : String) :
    let run := runScript co depth
    let attempt := importModule co run frame name
    (∀ e, attempt.eval s = .error e →
      ((co.library? name = none ∨ s.host? frame.host = none) ∧ s.StandsStill (attempt.exec s)) ∨
      ∃ m, co.library? name = some m ∧ ((attempt.exec s).host? frame.host).isSome ∧
        ∀ u, RunSteps (attempt.exec s) u → (u.host? frame.host).isSome →
          u.HasBegun frame.host m.name) ∧
    (attempt.eval s = .ok () ↔ ∃ m h, co.library? name = some m ∧ s.host? frame.host = some h ∧
      (m.name ∈ h.imported ∨ ∃ v, (runModule co run frame m).eval
        ((s.warn (co.catalogue.find name true).warning).modifyHost frame.host
          (·.markImported m.name)) = .ok v)) ∧
    ∀ h, s.host? frame.host = some h → ∀ module ∈ h.imported, s.HasBegun frame.host module := by
  intro run attempt
  have hs : s.Recounted := RunSteps.recounted hr.recounted hrs
  refine ⟨fun e he => ?_, eval_importModule_eq_ok_iff run frame s,
    fun h hh module hm => hs.hasBegun hh hm⟩
  cases hm : co.library? name with
  | none =>
      left
      rw [(importModule_of_absent run frame s hm).2]
      exact ⟨.inl rfl, standsStill_warn s _⟩
  | some m =>
      rcases importModule_of_library? run frame s hm with
        ⟨hnone, _, hexec⟩ | ⟨_, _, _, hok, _⟩ | ⟨h, hh, hnew, _, hexec⟩
      · left
        rw [hexec]
        exact ⟨.inr hnone, standsStill_warn s _⟩
      · rw [hok] at he
        cases he
      · -- the mark is set before the run, and the run has failed: nothing takes the mark back
        obtain ⟨b, hsb, hb, hbt, hlive⟩ :=
          runSteps_of_marked co hs hh hnew (co.catalogue.find name true).warning depth
        refine .inr ⟨m, rfl, by rw [hexec]; exact hlive, fun u hu hulive => ?_⟩
        rw [hexec] at hu
        exact RunSteps.hasBegun (RunSteps.recounted hs hsb) (hbt.trans hu) hb
          List.mem_cons_self hulive

end

/-- Two libraries, of which the one cannot be run without the other, and the other not at all. -/
def brokenProgram : String → Code
  | "shapes" => .importModule "colors" (.define "area" .done .done)
  | "colors" => .importModule "missing" .done
  | _ => .done

/-- An app that imports neither of the libraries when it is loaded. -/
def brokenApp : Server MemoryStore Code :=
  Operation.runAll (.plain (Code.evaluator brokenProgram) libraryCatalogue)
    [.addApp "app" .server] (.new ∅ {})

/-- Under the app an import of a library fails, and so does the import that it makes itself.  The
runs of both have begun. -/
theorem unretried_app :
    let co := Collaborators.plain (Code.evaluator brokenProgram) libraryCatalogue
    let frame : Frame := { host := 1, actor := .server }
    let attempt := importModule co (runScript co 10) frame "shapes"
    let t := attempt.exec brokenApp
    Reachable (fun _ => True) brokenApp ∧ (∃ e, attempt.eval brokenApp = .error e) ∧
      t.runsUnder 1 = ["colors", "shapes", "app"] ∧ t.HasBegun 1 "shapes" ∧
      t.HasBegun 1 "colors" := by
  intro co frame attempt t
  have hs : Reachable (fun _ => True) brokenApp := .runAll trivial _ (.new _ _)
  obtain ⟨e, he⟩ : ∃ e, attempt.eval brokenApp = .error e := by
    have hfails : (attempt.eval brokenApp).toOption = none := by decide +kernel
    cases hanswer : attempt.eval brokenApp with
    | error e => exact ⟨e, rfl⟩
    | ok u =>
        rw [hanswer] at hfails
        cases hfails
  have hruns : t.runsUnder 1 = ["colors", "shapes", "app"] := by decide +kernel
  have hhost : (t.host? 1).map (·.imported) = some ["colors", "shapes"] := by decide +kernel
  obtain ⟨h, hh, himported⟩ := Option.map_eq_some_iff.1 hhost
  have hsteps : RunSteps brokenApp t := by
    have hR : CodeRelation 1
        (Actions 1 : Server MemoryStore Code → Server MemoryStore Code → Prop) :=
      codeRelation_actions 1
    exact (relates_importModule hR (runsBy_runScript hR 10) rfl "shapes"
      hs.recounted.numbered.keyed).runSteps
  refine ⟨hs, ⟨e, he⟩, hruns, ?_, ?_⟩
  · -- what the failed import has left
    rcases (unretried_of_reachable hs .refl co 10 frame "shapes").1 e he with
      ⟨_, hstill⟩ | ⟨m, hm, hlive, hbegun⟩
    · have hbefore : brokenApp.runsUnder 1 = ["app"] := by decide +kernel
      have hsame : t.runsUnder 1 = brokenApp.runsUnder 1 := (hstill 1).2
      rw [hruns, hbefore] at hsame
      exact absurd hsame (by decide)
    · have hname : (co.library? "shapes").map (·.name) = some "shapes" := by decide +kernel
      rw [hm, Option.map_some] at hname
      have hshapes := hbegun t .refl hlive
      rwa [Option.some.inj hname] at hshapes
  · have hmarked : "colors" ∈ h.imported := by
      rw [himported]
      decide
    exact (unretried_of_reachable hs hsteps co 10 frame "colors").2.2 h hh "colors" hmarked

/-- A function of the app imports a library whose code fails, and its call fails.  The next call
succeeds: nothing is run for its import, and the function that the library defines is missing. -/
theorem passedOver_app :
    let co := Collaborators.plain (Code.evaluator brokenProgram) libraryCatalogue
    let draw : StoredFunction Code :=
      { name := "draw", module := some "app", parameters := []
        body := .importModule "shapes" .done }
    let callDraw : ServerM MemoryStore Code _ := call co 1 .server draw []
    let failed := callDraw.exec brokenApp
    let passed := callDraw.exec failed
    Reachable (fun _ => True) failed ∧ (callDraw.eval brokenApp).toOption.isNone ∧
      (callDraw.eval failed).toOption.isSome ∧
      failed.runsUnder 1 = ["colors", "shapes", "app"] ∧
      passed.runsUnder 1 = ["colors", "shapes", "app"] ∧
      ((passed.host? 1).bind fun h => (h.definitionsOf "").functions["area"]?).isNone := by
  intro co draw callDraw failed passed
  have hs : Reachable (fun _ => True) brokenApp := .runAll trivial _ (.new _ _)
  exact ⟨hs.step co trivial (.invoke 1 (.call .server draw [])), by decide +kernel,
    by decide +kernel, by decide +kernel, by decide +kernel, by decide +kernel⟩

end ScriptHost
