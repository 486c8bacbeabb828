import Mathlib
import ScriptHost.Proofs.Discretion
/-!
# What a server runs

The journal tells whose code the evaluator has been asked to run.  Code is run in two places: that
of a new host's own module when the host is made, and that of a library when it is imported.  A
library is marked as imported before it is run.  What a server does is therefore put together from
three kinds of steps: loads, imports, and all the rest, which runs nothing.  Operations are gone
through once to show this.

## Main definitions

* `Server.runsUnder`: the modules that have been run under a host.
* `Server.Admits`, `Server.Rests`: what runs nothing.
* `RunStep`, `RunSteps`: what a server does, sorted by what is run.

## Main statements

* `Action.runStep`: what code does in one go is such a step.
* `ServerM.runSteps_start`: the code of a new host is run first of all.
* `Operation.proceeds`: every operation is made of such steps.
-/

namespace ScriptHost

variable {σ β α γ : Type}

/-! ## What has been run -/

/-- The module whose code an activity has run under a host. -/
def Activity.ran? (id : HostId) : Activity β → Option String
  | asked frame (.runModule module) => if frame.host = id then some module.name else none
  | _ => none

/-- Nothing is run in silence. -/
theorem Activity.IsSilent.ran?_eq_none {a : Activity β} (h : a.IsSilent) (id : HostId) :
    a.ran? id = none := by
  cases a with
  | asked frame request => exact h.elim
  | _ => rfl

/-- What a host runs and has imported, with its number. -/
def Host.sources (h : Host β) : HostId × Option Module × List String := (h.id, h.module, h.imported)

theorem Host.eq_of_sources {h : Host β} {id : HostId} {module : Option Module}
    {imports : List String} (hh : h.sources = (id, module, imports)) :
    h.name? = module.map (·.name) ∧ h.imported = imports := by
  obtain ⟨_, hrest⟩ := Prod.mk.inj hh
  obtain ⟨hmodule, himported⟩ := Prod.mk.inj hrest
  exact ⟨congrArg (Option.map Module.name) hmodule, himported⟩

theorem Host.SameButUsers.sources_eq {h k : Host β} (hk : h.SameButUsers k) :
    h.sources = k.sources := by rw [hk]; rfl

namespace Server

/-- The names of the modules whose code has been run under a host, latest first. -/
def runsUnder (s : Server σ β) (id : HostId) : List String := s.journal.filterMap (Activity.ran? id)

variable {s t u : Server σ β} {id k : HostId}

theorem runsUnder_record (s : Server σ β) (a : Activity β) (id : HostId) :
    (s.record a).runsUnder id = (a.ran? id).toList ++ s.runsUnder id := by
  show (a :: s.journal).filterMap (Activity.ran? id) = _
  rw [List.filterMap_cons]
  cases a.ran? id <;> rfl

/-- When the code of a module is run under a host, it is the latest to be run there. -/
theorem runsUnder_record_runModule (s : Server σ β) (frame : Frame) (module : Module)
    (id : HostId) :
    (s.record (.asked frame (.runModule module))).runsUnder id =
      if frame.host = id then module.name :: s.runsUnder id else s.runsUnder id := by
  rw [runsUnder_record, Activity.ran?]
  split <;> rfl

theorem Writes.runsUnder_eq (h : s.Writes Activity.IsSilent t) (id : HostId) :
    t.runsUnder id = s.runsUnder id := by
  obtain ⟨new, hnew, hsilent⟩ := h
  have hnone : new.filterMap (Activity.ran? id) = [] :=
    List.filterMap_eq_nil_iff.2 fun a ha => (hsilent a ha).ran?_eq_none id
  rw [runsUnder, hnew, List.filterMap_append, hnone, List.nil_append]
  rfl

/-! ## Hosts under their numbers -/

/-- Every host is kept under its number, and the next number is above them all. -/
structure Numbered (s : Server σ β) : Prop where
  keyed : s.Keyed
  lt_nextId : ∀ {id : HostId} {h : Host β}, s.host? id = some h → id < s.nextId

theorem Arena.numbered {suits : String → Module → Prop} (ha : Arena suits s) : s.Numbered :=
  ⟨ha.keyed, ha.lt_nextId⟩

theorem Numbered.record (hs : s.Numbered) (a : Activity β) : (s.record a).Numbered :=
  ⟨hs.keyed, hs.lt_nextId⟩

theorem Numbered.modifyHost (hs : s.Numbered) (id : HostId) {f : Host β → Host β}
    (hf : ∀ h, (f h).id = h.id) : (s.modifyHost id f).Numbered := by
  have hold : ∀ {k y}, (s.modifyHost id f).host? k = some y →
      ∃ x, s.host? k = some x ∧ y.id = x.id := by
    intro k y hy
    rw [host?_modifyHost] at hy
    split at hy
    · obtain ⟨x, hx, rfl⟩ := Option.map_eq_some_iff.1 hy
      exact ⟨x, hx, hf x⟩
    · exact ⟨y, hy, rfl⟩
  refine ⟨fun k y hy => ?_, fun hy => ?_⟩
  · obtain ⟨x, hx, hid⟩ := hold hy
    exact hid.trans (hs.keyed hx)
  · obtain ⟨x, hx, _⟩ := hold hy
    exact hs.lt_nextId hx

/-- Nothing is run, and hosts have imported what they had.  Hosts may go, and may be new if the
module that they are made for is a certain one. -/
structure Admits (news : HostId → Option Module → Prop) (s t : Server σ β) : Prop where
  nextId : s.nextId ≤ t.nextId
  runs : ∀ k, t.runsUnder k = s.runsUnder k
  host : ∀ {k : HostId} {y : Host β}, t.host? k = some y →
    (∃ x, s.host? k = some x ∧ y.sources = x.sources) ∨
      s.nextId ≤ k ∧ k < t.nextId ∧ ∃ module, news k module ∧ y.sources = (k, module, [])

/-- Nothing is run, and new hosts have no module. -/
abbrev Rests (s t : Server σ β) : Prop := s.Admits (fun _ module => module = none) t

namespace Admits

variable {news : HostId → Option Module → Prop}

theorem numbered (h : s.Admits news t) (hs : s.Numbered) : t.Numbered where
  keyed k y hy := by
    rcases h.host hy with ⟨x, hx, hsources⟩ | ⟨_, _, module, _, hsources⟩
    · have hid : y.id = x.id := congrArg Prod.fst hsources
      exact hid.trans (hs.keyed hx)
    · exact congrArg Prod.fst hsources
  lt_nextId hy := by
    rcases h.host hy with ⟨x, hx, _⟩ | ⟨_, hlt, _⟩
    · exact (hs.lt_nextId hx).trans_le h.nextId
    · exact hlt

theorem mono {news' : HostId → Option Module → Prop} (h : s.Admits news t)
    (hnews : ∀ k module, news k module → news' k module) : s.Admits news' t where
  nextId := h.nextId
  runs := h.runs
  host hy := (h.host hy).imp_right fun ⟨hle, hlt, module, hnew, hsources⟩ =>
    ⟨hle, hlt, module, hnews _ _ hnew, hsources⟩

/-- Hosts that were there are kept or go. -/
theorem of_sources (hnext : t.nextId = s.nextId) (hruns : ∀ k, t.runsUnder k = s.runsUnder k)
    (hhost : ∀ {k y}, t.host? k = some y → ∃ x, s.host? k = some x ∧ y.sources = x.sources) :
    s.Admits news t where
  nextId := Nat.le_of_eq hnext.symm
  runs := hruns
  host hy := .inl (hhost hy)

theorem of_host?_eq (hnext : t.nextId = s.nextId) (hruns : ∀ k, t.runsUnder k = s.runsUnder k)
    (hhost : ∀ k, t.host? k = s.host? k) : s.Admits news t :=
  of_sources hnext hruns fun {k y} hy => ⟨y, (hhost k).symm.trans hy, rfl⟩

theorem record {a : Activity β} (ha : ∀ k, a.ran? k = none) : s.Admits news (s.record a) :=
  of_host?_eq rfl (fun k => by rw [runsUnder_record, ha k]; rfl) fun _ => rfl

/-- A change to one host that concerns neither its module nor what it has imported. -/
theorem of_modifyHost (id : HostId) (f : Host β → Host β) (hf : ∀ h, (f h).sources = h.sources)
    (hnext : t.nextId = s.nextId) (hruns : ∀ k, t.runsUnder k = s.runsUnder k)
    (hhost : ∀ k, t.host? k = (s.modifyHost id f).host? k) : s.Admits news t := by
  refine of_sources hnext hruns fun {k y} hy => ?_
  rw [hhost, host?_modifyHost] at hy
  split at hy
  · obtain ⟨x, hx, rfl⟩ := Option.map_eq_some_iff.1 hy
    exact ⟨x, hx, hf x⟩
  · exact ⟨y, hy, rfl⟩

theorem modifyHost (s : Server σ β) (id : HostId) {f : Host β → Host β}
    (hf : ∀ h, (f h).sources = h.sources) : s.Admits news (s.modifyHost id f) :=
  of_modifyHost id f hf rfl (fun _ => rfl) fun _ => rfl

/-- What follows brings no new hosts. -/
theorem trans_eq (h : s.Admits news t) (g : t.Rests u) (hnext : u.nextId = t.nextId) :
    s.Admits news u where
  nextId := h.nextId.trans g.nextId
  runs k := (g.runs k).trans (h.runs k)
  host hy := by
    rcases g.host hy with ⟨x, hx, hsources⟩ | ⟨hle, hlt, _⟩
    · rw [hsources, hnext]
      exact h.host hx
    · rw [hnext] at hlt
      exact absurd hlt (Nat.not_lt.2 hle)

theorem of_windowsOnly (h : s.WindowsOnly t) (hruns : ∀ k, t.runsUnder k = s.runsUnder k) :
    s.Admits news t := by
  refine of_sources h.nextId hruns fun {k y} hy => ?_
  have hk := h.host k
  rw [hy, Option.map_some] at hk
  obtain ⟨x, hx, heq⟩ := Option.map_eq_some_iff.1 hk.symm
  have hsources : (x.setTimeout 0).sources = (y.setTimeout 0).sources := by rw [heq]
  exact ⟨x, hx, hsources.symm⟩

end Admits

/-- A new root is new, and its module is the one that it is made for. -/
theorem admits_beginRoot (s : Server σ β) (module : Option Module) (perUser : Bool)
    (state : Option Blob) (sink : Option Actor) :
    s.Admits (fun k m => k = s.nextId ∧ m = module) (s.beginRoot module perUser state sink) where
  nextId := Nat.le_succ _
  runs _ := rfl
  host {k y} hy := by
    rw [host?_beginRoot] at hy
    split at hy
    · rename_i hk
      subst hk
      obtain rfl := Option.some.inj hy
      exact .inr ⟨Nat.le_refl _, Nat.lt_succ_self _, module, ⟨rfl, rfl⟩, rfl⟩
    · exact .inl ⟨y, hy, rfl⟩

/-- The host of a user is new, and its module is that of the root. -/
theorem admits_beginUser (s : Server σ β) (root : HostId) (h : Host β) (user : String)
    (sink : Actor) :
    s.Admits (fun k m => k = s.nextId ∧ m = h.module) (s.beginUser root h user sink) := by
  have hmade : s.Admits (fun k m => k = s.nextId ∧ m = h.module)
      (s.insertHost (h.forUser s.nextId user sink)).skipId :=
    { nextId := Nat.le_succ _
      runs := fun _ => rfl
      host := fun {k y} hy => by
        have hy' : (s.insertHost (h.forUser s.nextId user sink)).host? k = some y := hy
        rw [host?_insertHost] at hy'
        split at hy'
        · rename_i hk
          subst hk
          obtain rfl := Option.some.inj hy'
          exact .inr ⟨Nat.le_refl _, Nat.lt_succ_self _, h.module, ⟨rfl, rfl⟩, rfl⟩
        · exact .inl ⟨y, hy', rfl⟩ }
  exact hmade.trans_eq (.of_modifyHost root (·.addUser user s.nextId) (fun _ => rfl) rfl
    (fun _ => rfl) fun _ => rfl) rfl

end Server

open Server ServerM

variable {s t u : Server σ β} {id k : HostId}

/-- Discarding a host runs nothing. -/
theorem Server.rests_discard (s : Server σ β) (id : HostId) :
    s.Rests ((ServerM.discard id).exec s) := by
  have hsilent : TellsNobody (ServerM.discard id : ServerM σ β Unit) := tellsNobody_discard id
  refine .of_sources (nextId_exec_discard s id) (hsilent s).runsUnder_eq fun {k y} hy => ?_
  cases hh : s.host? id with
  | none =>
      rw [exec_discard_of_host?_eq_none hh] at hy
      exact ⟨y, hy, rfl⟩
  | some h =>
      rw [exec_discard hh] at hy
      obtain ⟨_, x, hx, hsame, _⟩ := host?_of_host?_discard hy
      exact ⟨x, hx, hsame.sources_eq⟩

/-! ## Steps -/

/-- A step of a server, sorted by what it runs.  The code of a host's own module is run when the
host is made, a library is run when it has been marked as imported, and nothing else runs the code
of modules. -/
inductive RunStep (s : Server σ β) : Server σ β → Prop where
  | rest {t : Server σ β} (h : s.Rests t) : RunStep s t
  | load {b : Server σ β} {module : Module} (hlt : s.nextId < b.nextId)
      (hb : s.Admits (fun k m => k = s.nextId ∧ m = some module) b) (actor : Actor) :
      RunStep s (b.record (.asked { host := s.nextId, actor } (.runModule module)))
  | importModule {id : HostId} {h : Host β} (hh : s.host? id = some h) {frame : Frame}
      (hf : frame.host = id) (module : Module) (hm : module.name ∉ h.imported) :
      RunStep s ((s.modifyHost id (·.markImported module.name)).record
        (.asked frame (.runModule module)))

/-- Any number of such steps. -/
abbrev RunSteps : Server σ β → Server σ β → Prop := Relation.ReflTransGen RunStep

/-- Such steps keep hosts under their numbers. -/
theorem RunStep.numbered (hs : s.Numbered) (h : RunStep s t) : t.Numbered := by
  cases h with
  | rest h => exact h.numbered hs
  | load hlt hb actor => exact (hb.numbered hs).record _
  | importModule hh hf module hm =>
      exact Numbered.record (hs.modifyHost _ (f := (·.markImported module.name)) fun _ => rfl) _

theorem RunSteps.numbered (hs : s.Numbered) (h : RunSteps s t) : t.Numbered := by
  induction h with
  | refl => exact hs
  | tail _ hstep ih => exact hstep.numbered ih

/-! ## Operations are made of such steps -/

namespace ServerM

/-- The operation is made of such steps. -/
def Proceeds (m : ServerM σ β α) : Prop := ∀ ⦃s : Server σ β⦄, s.Numbered → RunSteps s (m.exec s)

/-! ### Sequencing -/

theorem proceeds_pure (a : α) : Proceeds (pure a : ServerM σ β α) := fun _ _ => .refl

theorem Proceeds.bind {m : ServerM σ β α} {f : α → ServerM σ β γ} (hm : Proceeds m)
    (hf : ∀ a, Proceeds (f a)) : Proceeds (m >>= f) :=
  fun _ hs => (hm hs).trans (hf _ ((hm hs).numbered hs))

theorem Proceeds.ite {c : Prop} [Decidable c] {m n : ServerM σ β α} (hm : Proceeds m)
    (hn : Proceeds n) : Proceeds (if c then m else n) := by
  split
  · exact hm
  · exact hn

theorem proceeds_listForM {f : α → ServerM σ β PUnit} (l : List α) (hf : ∀ a, Proceeds (f a)) :
    Proceeds (l.forM f) := by
  induction l with
  | nil => exact proceeds_pure _
  | cons a l ih => exact (hf a).bind fun _ => ih

/-- What follows a look at the server may use what was seen. -/
theorem proceeds_get_bind {f : Server σ β → ServerM σ β α}
    (h : ∀ s : Server σ β, s.Numbered → RunSteps s ((f s).exec s)) : Proceeds (get >>= f) := h

/-- What follows a look at a host may use whether the host is there. -/
theorem proceeds_host?_bind {f : Option (Host β) → ServerM σ β α}
    (h : ∀ s : Server σ β, s.Numbered → RunSteps s ((f (s.host? id)).exec s)) :
    Proceeds (host? id >>= f) := h

/-- An operation that runs nothing. -/
theorem proceeds_rest {m : ServerM σ β α} (h : ∀ s : Server σ β, s.Numbered → s.Rests (m.exec s)) :
    Proceeds m := fun s hs => .single (.rest (h s hs))

/-! ### What runs nothing -/

theorem proceeds_log (level : LogLevel) (text : String) :
    Proceeds (log level text : ServerM σ β Unit) := proceeds_rest fun _ _ => .record fun _ => rfl

theorem proceeds_loadFailure (co : Collaborators β) (actor : Actor) (module : String)
    (reason : LoadReason) :
    Proceeds (loadFailure co actor module reason : ServerM σ β _) := by
  refine proceeds_rest fun s _ => ?_
  unfold loadFailure reportText deliver
  dsimp only
  rw [exec_bind]
  split <;> exact .of_host?_eq rfl (fun _ => rfl) fun _ => rfl

theorem proceeds_discard (id : HostId) : Proceeds (ServerM.discard id : ServerM σ β Unit) :=
  proceeds_rest fun s _ => s.rests_discard id

theorem proceeds_serve (actor : Actor) (id : HostId) :
    Proceeds (serve actor id : ServerM σ β HostId) :=
  proceeds_rest fun s _ => .modifyHost s id fun _ => rfl

theorem proceeds_setStopped (stop : Bool) :
    Proceeds (ServerM.setStopped stop : ServerM σ β Unit) := by
  have hset : Proceeds (modify ({ · with isStopped := stop }) : ServerM σ β PUnit) :=
    proceeds_rest fun _ _ => .of_host?_eq rfl (fun _ => rfl) fun _ => rfl
  unfold ServerM.setStopped
  apply proceeds_get_bind
  intro s hs
  dsimp only
  split
  · exact ((proceeds_log _ _).bind fun _ => hset) hs
  · exact hset hs

end ServerM

/-! ### Code -/

variable [StateStore σ] {co : Collaborators β}

/-- What code does with the data of an app runs nothing. -/
theorem StorageStep.rests (h : StorageStep id s t) : s.Rests t := by
  have hruns := h.writes.runsUnder_eq
  cases h with
  | request => exact .of_host?_eq rfl hruns fun _ => rfl
  | answer => exact .of_host?_eq rfl hruns fun _ => rfl
  | keep hh hn hw blob =>
      exact .of_modifyHost _ (·.hold blob) (fun _ => rfl) rfl hruns fun _ => rfl
  | @save h name hh hn hw blob hr =>
      have hheld : s.Rests (s.hold (s.rootOf id) h blob) :=
        .of_modifyHost _ (·.hold blob) (fun _ => rfl) rfl (fun _ => rfl) fun _ => rfl
      exact hheld.trans_eq (.of_modifyHost _ (·.setTimeout s.settings.saveDebounceTicks)
        (fun _ => rfl) rfl hruns fun _ => rfl) rfl
  | refuse hh hn hw blob hr =>
      exact .of_modifyHost _ (·.hold blob) (fun _ => rfl) rfl hruns fun _ => rfl

/-- What code does in one go is such a step. -/
theorem Action.runStep (h : Action id s t) : RunStep s t := by
  have hmodify : ∀ f : Host β → Host β, (∀ h, (f h).sources = h.sources) →
      RunStep s (s.modifyHost id f) := fun f hf => .rest (.modifyHost s id hf)
  cases h with
  | record ha => exact .rest (.record fun k => ha.ran?_eq_none k)
  | send hsink message => exact .rest (.record fun _ => rfl)
  | call hh hf f arguments => exact .rest (.record fun _ => rfl)
  | importModule hh hf module hm => exact .importModule hh hf module hm
  | define hh f =>
      exact .rest (.of_modifyHost id (·.insertFunction f) (fun _ => rfl) rfl (fun _ => rfl)
        fun _ => rfl)
  | delete hh module name =>
      exact .rest (.of_modifyHost id (·.eraseFunction module name) (fun _ => rfl) rfl
        (fun _ => rfl) fun _ => rfl)
  | setGlobal module name b => exact hmodify _ fun _ => rfl
  | defer label => exact hmodify _ fun _ => rfl
  | force index producer => exact hmodify _ fun _ => rfl
  | configure hh hr c => exact hmodify _ fun _ => rfl
  | storage h => exact .rest h.rests

theorem Actions.runSteps (h : Actions id s t) : RunSteps s t := by
  induction h with
  | refl => exact .refl
  | tail _ haction ih => exact ih.tail haction.runStep

namespace ServerM

/-- Code under a host. -/
theorem Relates.proceeds {m : ServerM σ β α} (h : Relates (Actions id) m) : Proceeds m :=
  fun _ hs => (h hs.keyed).runSteps

/-! ### Teardown -/

theorem proceeds_sweep (id : HostId) : Proceeds (sweep id : ServerM σ β Unit) :=
  proceeds_rest fun s hs =>
    have hsweep : TellsNobody (sweep id : ServerM σ β Unit) := tellsNobody_sweep id
    .of_windowsOnly (windowsOnly_sweep hs.keyed id) (hsweep s).runsUnder_eq

/-- Closing a single host runs its close hook, and nothing else. -/
theorem proceeds_closeOne (id : HostId) : Proceeds (closeOne co id : ServerM σ β Unit) := by
  unfold closeOne
  apply proceeds_host?_bind
  intro s hs
  split
  · rename_i hook _
    have hhook : Proceeds
        (callHook co { host := id, actor := s.actorFor co.world id } hook [] : ServerM σ β _) :=
      (relates_callHook (codeRelation_actions id) rfl hook []).proceeds
    exact (hhook hs).trans (proceeds_sweep id ((hhook hs).numbered hs))
  · exact proceeds_sweep id hs

theorem proceeds_close (id : HostId) : Proceeds (close co id : ServerM σ β Unit) :=
  proceeds_get_bind fun s hs => proceeds_listForM (s.family id) proceeds_closeOne hs

theorem proceeds_removeApp (name : String) : Proceeds (removeApp co name : ServerM σ β Bool) := by
  unfold removeApp
  apply proceeds_get_bind
  intro s hs
  cases s.app? name with
  | none => exact .refl
  | some id =>
      have herase : Proceeds (modify (·.eraseApp name) : ServerM σ β PUnit) :=
        proceeds_rest fun _ _ => .of_host?_eq rfl (fun _ => rfl) fun _ => rfl
      exact (herase.bind fun _ => (proceeds_close id).bind fun _ => (proceeds_discard id).bind
        fun _ => (proceeds_log _ _).bind fun _ => proceeds_pure _) hs

/-! ### New hosts -/

/-- The code of a new host is run first of all, and what it imports after it. -/
theorem runSteps_start {b : Server σ β} {module : Module} (hs : s.Numbered)
    (hlt : s.nextId < b.nextId)
    (hb : s.Admits (fun k m => k = s.nextId ∧ m = some module) b) (actor : Actor) :
    RunSteps s ((start co s.nextId module actor).exec b) := by
  have hload : RunStep s (b.record (.asked { host := s.nextId, actor } (.runModule module))) :=
    .load hlt hb actor
  have hR : CodeRelation s.nextId (Actions s.nextId : Server σ β → Server σ β → Prop) :=
    codeRelation_actions s.nextId
  have hcode : Actions s.nextId _
      ((runModule co (runner co) { host := s.nextId, actor } module).exec b) :=
    runsBy_runner hR _ _ rfl (hload.numbered hs).keyed
  have hrun : RunSteps s ((runModule co (runner co) { host := s.nextId, actor } module).exec b) :=
    .head hload hcode.runSteps
  unfold start
  rw [exec_bind]
  split
  · exact hrun
  · rename_i cause _
    have hreport : Proceeds (reportFailure co s.nextId
        (intro "Error while evaluating expression" (.ofEval cause)) (.ofEval cause)) :=
      (relates_reportFailure hR _ _).proceeds
    exact hrun.trans ((hreport.bind fun _ => proceeds_discard s.nextId) (hrun.numbered hs))

theorem proceeds_createApplication (module : Option Module) (perUser : Bool) (actor : Actor) :
    Proceeds (createApplication co module perUser actor : ServerM σ β _) := by
  intro s hs
  cases module with
  | none =>
      have hnew := s.admits_beginRoot none perUser none none
      exact .single (.rest (hnew.mono fun _ _ h => h.2))
  | some m =>
      obtain ⟨t, ht, hcases⟩ := createApplication_cases co s m perUser actor
      have hnote : RunSteps s t := by
        rcases ht with rfl | ⟨text, rfl⟩
        · exact .refl
        · exact proceeds_log .warn text hs
      have hnext : s.nextId = t.nextId := by
        rcases ht with rfl | ⟨text, rfl⟩ <;> rfl
      refine hnote.trans ?_
      rcases hcases with ⟨_, hexec⟩ | ⟨_, hexec⟩
      · have hskip : RunStep t t.skipId := .rest
          { nextId := Nat.le_succ _
            runs := fun _ => rfl
            host := fun {_ y} hy => .inl ⟨y, hy, rfl⟩ }
        rw [hexec]
        exact .head hskip
          (proceeds_loadFailure co actor m.name .codeNotFound (hskip.numbered (hnote.numbered hs)))
      · rw [hexec, hnext]
        exact runSteps_start (hnote.numbered hs) (Nat.lt_succ_self _)
          (t.admits_beginRoot _ _ _ _) actor

theorem proceeds_duplicateForUser (root : HostId) (user : String) (actor : Actor) :
    Proceeds (duplicateForUser co root user actor : ServerM σ β _) := by
  intro s hs
  rcases duplicateForUser_cases co s root user actor with
    ⟨_, _, hexec⟩ | ⟨h, _, ⟨_, _, _, hexec⟩ | ⟨_, hnew⟩⟩
  · rw [hexec]
  · rw [hexec]
  have hbegun := s.admits_beginUser root h user actor
  rcases hnew with ⟨hm, _, hexec⟩ | ⟨m, hm, _, hexec⟩
  · rw [hexec]
    exact .single (.rest (hbegun.mono fun _ _ h => h.2.trans hm))
  · rw [hexec]
    rw [hm] at hbegun
    exact runSteps_start hs (Nat.lt_succ_self _) hbegun actor

theorem proceeds_duplicateForUser_serve (root : HostId) (user : String) (actor : Actor) :
    Proceeds (do
      match ← duplicateForUser co root user actor with
      | .error e => return .error e
      | .ok id => return .ok (some (← serve actor id)) :
        ServerM σ β (Except ScriptError (Option HostId))) := by
  refine (proceeds_duplicateForUser root user actor).bind fun made => ?_
  cases made with
  | error e => exact proceeds_pure _
  | ok id => exact (proceeds_serve actor id).bind fun _ => proceeds_pure _

theorem proceeds_retrieveForExecution (root : HostId) (actor : Actor) :
    Proceeds (retrieveForExecution co root actor : ServerM σ β _) := by
  unfold retrieveForExecution
  apply proceeds_host?_bind
  intro s hs
  cases s.host? root with
  | none => exact .refl
  | some h =>
      dsimp only
      split
      · cases actor.user? with
        | none => exact .refl
        | some user => exact proceeds_duplicateForUser_serve root user actor hs
      · exact proceeds_serve actor root hs

theorem proceeds_retrieveForTarget (root : HostId) (target : Option Actor) :
    Proceeds (retrieveForTarget co root target : ServerM σ β _) := by
  unfold retrieveForTarget
  apply proceeds_host?_bind
  intro s hs
  cases s.host? root with
  | none => exact .refl
  | some h =>
      cases target with
      | none =>
          dsimp only
          split
          · exact .refl
          · exact proceeds_serve co.world.serverActor root hs
      | some actor =>
          dsimp only
          split
          · exact proceeds_duplicateForUser_serve root _ actor hs
          · exact .refl

/-! ### Apps -/

theorem proceeds_findModule (name : String) (allowLibrary : Bool) :
    Proceeds (findModule co name allowLibrary : ServerM σ β (Option Module)) :=
  (relates_findModule (codeRelation_actions HostId.unnamed) name allowLibrary).proceeds

theorem proceeds_addApp (name : String) (actor : Actor) :
    Proceeds (addApp co name actor : ServerM σ β _) := by
  unfold addApp
  apply (proceeds_findModule _ _).bind
  intro found
  cases found with
  | none => exact proceeds_loadFailure co actor _ .appNotFound
  | some m =>
      apply (proceeds_removeApp _).bind
      intro _
      apply (proceeds_createApplication (some m) false actor).bind
      intro made
      cases made with
      | error e => exact proceeds_pure _
      | ok id =>
          have hinsert : Proceeds
              (modify (·.insertApp (Text.lowercase name) id) : ServerM σ β PUnit) :=
            proceeds_rest fun _ _ => .of_host?_eq rfl (fun _ => rfl) fun _ => rfl
          exact hinsert.bind fun _ => (proceeds_log _ _).bind fun _ => proceeds_pure _

theorem proceeds_addApps (doing : String) (actor : Actor) (names : List String) :
    Proceeds (addApps co doing actor names : ServerM σ β _) := by
  induction names with
  | nil => exact proceeds_pure _
  | cons name rest ih =>
      apply (proceeds_addApp name actor).bind
      intro added
      cases added with
      | ok id => exact ih.bind fun _ => proceeds_pure _
      | error e => exact (proceeds_log _ _).bind fun _ => ih

theorem proceeds_reloadApps (actor : Actor) :
    Proceeds (reloadApps co actor : ServerM σ β _) := by
  unfold reloadApps
  apply proceeds_get_bind
  intro s hs
  refine ((proceeds_addApps _ actor _).bind fun count => ?_) hs
  exact Proceeds.ite (m := do log .info _; return count) (proceeds_log _ _) (proceeds_pure _)

theorem proceeds_autoload : Proceeds (autoload co : ServerM σ β _) :=
  proceeds_get_bind fun _ hs => proceeds_addApps _ _ _ hs

theorem proceeds_shutdown : Proceeds (shutdown co : ServerM σ β Unit) := by
  have hdrop : ∀ id : HostId,
      Proceeds (do close co id; ServerM.discard id : ServerM σ β Unit) := fun id =>
    (proceeds_close id).bind fun _ => proceeds_discard id
  unfold shutdown
  apply proceeds_get_bind
  intro s hs
  refine (Proceeds.bind (proceeds_listForM _ proceeds_removeApp) fun _ => ?_) hs
  exact proceeds_get_bind fun _ ht =>
    ((proceeds_listForM _ hdrop).bind fun _ => proceeds_close HostId.unnamed) ht

/-! ### Events and ticks -/

theorem proceeds_notifyAll (arguments : List Value) (bindings : List EventBinding) :
    Proceeds (notifyAll co arguments bindings : ServerM σ β Nat) := by
  induction bindings with
  | nil => exact proceeds_pure _
  | cons binding rest ih =>
      have hnotify : Proceeds (notify co arguments binding : ServerM σ β Bool) :=
        (relates_notify (codeRelation_actions binding.host) arguments rfl).proceeds
      exact hnotify.bind fun _ => ih.bind fun _ => proceeds_pure _

theorem proceeds_fireEvent (event : Event) (arguments : List Value) :
    Proceeds (fireEvent co event arguments : ServerM σ β Nat) := by
  unfold fireEvent
  apply proceeds_get_bind
  intro s hs
  cases s.isStopped with
  | true => exact .refl
  | false => exact proceeds_notifyAll arguments _ hs

theorem proceeds_tickHost (id : HostId) : Proceeds (tickHost id : ServerM σ β Unit) :=
  proceeds_rest fun s hs =>
    have htick : TellsNobody (tickHost id : ServerM σ β Unit) := tellsNobody_tickHost id
    .of_windowsOnly (windowsOnly_tickHost hs.keyed id) (htick s).runsUnder_eq

theorem proceeds_tick : Proceeds (tick co : ServerM σ β Unit) :=
  (proceeds_fireEvent .tick []).bind fun _ =>
    proceeds_get_bind fun _ hs => proceeds_listForM _ proceeds_tickHost hs

end ServerM

/-- Every operation is made of such steps. -/
theorem Operation.proceeds (op : Operation β) : Proceeds (op.run co : ServerM σ β Unit) := by
  have hR : ∀ id : HostId, CodeRelation id (Actions id : Server σ β → Server σ β → Prop) :=
    codeRelation_actions
  cases op with
  | setStopped stop => exact proceeds_setStopped stop
  | invoke id i => exact (i.relates (hR id) co).proceeds
  | define id f => exact (relates_defineWith (hR id) (runsBy_runner (hR id)) f).proceeds
  | delete id module name => exact (relates_delete (hR id) module name).proceeds
  | addApp name actor => exact proceeds_addApp name actor
  | removeApp name => exact proceeds_removeApp name
  | createApplication module perUser actor => exact proceeds_createApplication module perUser actor
  | duplicateForUser root user actor => exact proceeds_duplicateForUser root user actor
  | retrieveForExecution root actor => exact proceeds_retrieveForExecution root actor
  | retrieveForTarget root target => exact proceeds_retrieveForTarget root target
  | close id => exact proceeds_close id
  | reloadApps actor => exact proceeds_reloadApps actor
  | autoload => exact proceeds_autoload
  | shutdown => exact proceeds_shutdown
  | fireEvent event arguments => exact proceeds_fireEvent event arguments
  | tick => exact proceeds_tick
  | tickHost id => exact proceeds_tickHost id
  | reportFailure id intro error => exact (relates_reportFailure (hR id) intro error).proceeds
  | resetSink id => exact proceeds_rest fun s _ => .modifyHost s id fun _ => rfl
  | writeGlobalState id blob => exact (relates_writeGlobalState (hR id) blob).proceeds
  | readTag id file shared => exact (relates_readTag (hR id) file shared).proceeds
  | writeTag id blob file shared => exact (relates_writeTag (hR id) blob file shared).proceeds
  | appendLog id file shared typeName lines =>
      exact (relates_appendLog (hR id) file shared typeName lines).proceeds
  | readText id file shared => exact (relates_readText (hR id) file shared).proceeds
  | remove id file shared typeName =>
      exact (relates_remove (hR id) file shared typeName).proceeds

end ScriptHost
