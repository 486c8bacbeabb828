import Mathlib
import ScriptHost.Proofs.Firing
import ScriptHost.Proofs.Removal
import ScriptHost.Proofs.Replacing
/-!
# Shutting down twice

A server that is dropped is shut down, even if it has been shut down before.  Every root that goes
has its family closed and discarded, so that the close hooks of the family cannot be called again.
The host that belongs to no app never goes: it is closed in the end, with the hosts of users below
it, and a second shutdown closes it once more.

How often close hooks are called is read off the journal.  Together with the call that is still due,
the calls of the close hook of a host stay the same in number while roots go: a hook that is due is
called before its host goes, and nothing that is done under other hosts has a say in what is due.
So the last root is closed on a server where each hook has been called or is due, and after that
each has been called.

In the second shutdown the hooks of the last family have a turn each.  Code of no app has no global
state to change and changes only the host that it runs under; no window is open that could be shut.
If no hook is due there, nothing happens but that the markers of the host are removed again.

## Main definitions

* `Server.closings`, `Server.closeDue`: the calls of a close hook, and whether one is due.
* `Server.closingsInAll`: what stays the same while roots go.
* `Server.closeHooks`: the turns of close hooks when a host is closed.
* `Server.IsShut`: what the first shutdown leaves.
* `Server.ShutTwice`: what a second shutdown makes of a server.

## Main statements

* `ServerM.closings_close`: closing a host calls the hooks that are due to its family.
* `ServerM.exists_cleared_closingsInAll`: what has been called before the last root is closed.
* `CodeSteps.nameless`, `Server.Firing.nameless`: what code of no app can change.
* `ServerM.firing_close_unnamed`: closing the host that belongs to no app.
* `ServerM.isShut_shutdown`: the first shutdown.
* `shutTwice_of_reachable`: reachable servers.
-/

namespace ScriptHost

variable {σ β : Type} {suits : String → Module → Prop}

open Server ServerM

/-! ## Calls of close hooks -/

/-- The turn of a host when hosts are closed: the name of its close hook. -/
def EventBinding.closing (id : HostId) : EventBinding :=
  { host := id, function := HookKind.closeName }

namespace Server

/-- How often the close hook of a host has been called. -/
def closings (s : Server σ β) (k : HostId) : Nat :=
  (s.journal.filterMap Activity.handlerCall?).countP fun call =>
    call.1.host = k ∧ call.2.1.name = HookKind.closeName

/-- Whether the close hook of a host is called if the host is closed now. -/
def closeDue (co : Collaborators β) (s : Server σ β) (k : HostId) : Bool :=
  !s.isStopped && (s.due? co [] (.closing k)).isSome

variable {co : Collaborators β} {s t u : Server σ β} {id k : HostId}

theorem closings_append {new : List (Activity β)} (h : t.journal = new ++ s.journal) (k : HostId) :
    t.closings k = s.closings k + (new.filterMap Activity.handlerCall?).countP fun call =>
      call.1.host = k ∧ call.2.1.name = HookKind.closeName := by
  unfold closings
  rw [h, List.filterMap_append, List.countP_append, Nat.add_comm]

/-- Where no function is called no close hook is called. -/
theorem Does.closings {P : Deed β → Prop} (h : Does P s t) (hP : ∀ f, ¬ P (.call f)) (k : HostId) :
    t.closings k = s.closings k := by
  obtain ⟨new, hnew, hdeeds⟩ := h.journal
  have hnone : new.filterMap Activity.handlerCall? = [] := by
    rw [List.filterMap_eq_nil_iff]
    intro a ha
    cases a with
    | asked frame request =>
      cases request with
      | call f arguments => exact absurd (hdeeds _ ha _ rfl).1 (hP f)
      | runModule module => rfl
    | _ => rfl
  rw [closings_append hnew, hnone, List.countP_nil, Nat.add_zero]

/-- A call of a close hook is one call. -/
theorem Asks.closings {frame : Frame} {f : StoredFunction β} {values : List Value}
    (h : Asks frame f values s t) (hf : f.name = HookKind.closeName) (k : HostId) :
    t.closings k = s.closings k + if frame.host = k then 1 else 0 := by
  obtain ⟨new, hnew, hcalls⟩ := h.filterMap_handlerCall? (by rw [hf]; decide)
  rw [closings_append hnew, hcalls, List.countP_singleton]
  simp [hf]

/-- Hosts that are as they were, on a server that is as paused as it was, have the same due. -/
theorem closeDue_congr (hhost : t.host? k = s.host? k) (hstopped : t.isStopped = s.isStopped) :
    t.closeDue co k = s.closeDue co k := by
  have hdue : t.due? co [] (.closing k) = s.due? co [] (.closing k) := by
    unfold due? actorFor EventBinding.closing
    rw [hhost]
  unfold closeDue
  rw [hdue, hstopped]

theorem closeDue_of_host?_eq_none (h : s.host? k = none) : s.closeDue co k = false := by
  have hdue : s.due? co [] (.closing k) = none := by
    unfold due? EventBinding.closing
    rw [h]
    rfl
  unfold closeDue
  rw [hdue]
  exact Bool.and_false _

theorem isSome_of_closeDue (h : s.closeDue co k = true) : (s.host? k).isSome := by
  rw [← Option.ne_none_iff_isSome]
  intro hnone
  rw [closeDue_of_host?_eq_none hnone] at h
  cases h

end Server

/-! ## Closing one host -/

namespace ServerM

variable [StateStore σ] {co : Collaborators β} {s t : Server σ β} {id k : HostId}

/-- Sweeping up after a host calls nothing. -/
theorem closings_sweep (id k : HostId) (s : Server σ β) :
    ((sweep id).exec s).closings k = s.closings k := by
  have hsweep : Does (fun d => ∃ tag, d = .sweep tag) s ((sweep id).exec s) :=
    doesOnly_sweep (fun tag => ⟨tag, rfl⟩) id s
  exact hsweep.closings (by simp) k

/-- Closing a single host: its close hook has a turn, and then the host is swept up after. -/
theorem exec_closeOne (co : Collaborators β) (s : Server σ β) (id : HostId) :
    (closeOne co id).exec s = (sweep id).exec ((notify co [] (.closing id)).exec s) := by
  unfold closeOne notify EventBinding.closing
  rw [exec_bind, exec_bind, eval_host?, exec_host?]
  cases (s.host? id).bind (·.function? HookKind.closeName) with
  | none => rfl
  | some f => rfl

/-- The turn of a close hook on a server that is not paused. -/
theorem turn_closing (co : Collaborators β) (hrunning : s.isStopped = false) (ha : Arena suits s)
    (hn : s.Named) (id : HostId) :
    HandlerTurn co [] (.closing id) s ((notify co [] (.closing id)).exec s) :=
  (turn_notify hrunning ha.keyed hn (.closing id)).1

theorem codeSteps_notify (co : Collaborators β) (ha : Arena suits s) (b : EventBinding) :
    CodeSteps b.host s ((notify co [] b).exec s) :=
  relates_notify (codeRelation_codeSteps b.host) [] rfl ha.keyed

/-- While the server is paused, nothing is notified. -/
theorem exec_notify_of_isStopped (hs : s.isStopped = true) (b : EventBinding) :
    (notify co [] b).exec s = s := by
  unfold notify
  rw [exec_bind, eval_host?, exec_host?]
  cases (s.host? b.host).bind (·.function? b.function) with
  | none => rfl
  | some f =>
    dsimp only
    rw [exec_bind, eval_get, exec_get, exec_bind, exec_callHook_of_isStopped hs]
    rfl

/-- The turn of a close hook calls it, if that is due. -/
theorem closings_notify (ha : Arena suits s) (hn : s.Named) (id k : HostId) :
    ((notify co [] (.closing id)).exec s).closings k =
      s.closings k + if k = id ∧ s.closeDue co id = true then 1 else 0 := by
  cases hs : s.isStopped with
  | true => simp [exec_notify_of_isStopped hs, closeDue, hs]
  | false =>
    have hturn := turn_closing co hs ha hn id
    generalize (notify co [] (.closing id)).exec s = t at hturn ⊢
    cases hturn with
    | passed hdue => simp [closeDue, hdue]
    | called hdue hname hasks hcode =>
      obtain ⟨_, _, _, _, rfl⟩ := due?_eq_some_iff.1 hdue
      have hclose : s.closeDue co id = true := by simp [closeDue, hdue, hs]
      rw [hasks.closings hname k]
      by_cases hk : k = id
      · subst hk
        simp [EventBinding.closing, hclose]
      · simp [EventBinding.closing, hk, Ne.symm hk]

theorem closings_closeOne (ha : Arena suits s) (hn : s.Named) (id k : HostId) :
    ((closeOne co id).exec s).closings k =
      s.closings k + if k = id ∧ s.closeDue co id = true then 1 else 0 := by
  rw [exec_closeOne, closings_sweep, closings_notify ha hn]

/-- Closing a host has no say in what is due to others. -/
theorem closeDue_closeOne (ha : Arena suits s) (hk : k ≠ id) :
    ((closeOne co id).exec s).closeDue co k = s.closeDue co k := by
  have hcode := codeSteps_notify co ha (.closing id)
  have hsweep : Within [id] _ ((sweep id).exec _) :=
    within_sweep (Steps.arena ha hcode.steps) List.mem_cons_self
  rw [exec_closeOne]
  rw [closeDue_congr (hsweep.others k (by simpa using hk)) hsweep.isStopped]
  unfold closeDue
  rw [hcode.frame.due?_eq hk, hcode.frame.isStopped]

/-- Closing hosts one after the other calls the hooks that are due to them at the beginning. -/
theorem closings_forM {ids : List HostId} (ha : Arena suits s) (hn : s.Named) (hids : ids.Nodup)
    (k : HostId) :
    ((ids.forM (closeOne co)).exec s).closings k =
      s.closings k + if k ∈ ids ∧ s.closeDue co k = true then 1 else 0 := by
  induction ids generalizing s with
  | nil => simp
  | cons id ids ih =>
    obtain ⟨hid, hids⟩ := List.nodup_cons.1 hids
    have hidle : Idles suits s ((closeOne co id).exec s) := keeps_closeOne id ha
    have hn' : ((closeOne co id).exec s).Named :=
      Steps.induction (fun _ _ ha hs h => h.named ha hs) ha hn hidle.steps
    rw [exec_forM_cons, ih (Steps.arena ha hidle.steps) hn' hids, closings_closeOne ha hn]
    by_cases hk : k = id
    · subst hk
      simp [hid]
    · rw [closeDue_closeOne ha hk]
      simp [hk]

/-- Closing a host calls the hooks that are due to its family. -/
theorem closings_close (co : Collaborators β) (ha : Arena suits s) (hn : s.Named)
    (id k : HostId) :
    ((close co id).exec s).closings k =
      s.closings k + if k ∈ s.family id ∧ s.closeDue co k = true then 1 else 0 := by
  unfold close
  rw [exec_bind, eval_get, exec_get]
  exact closings_forM ha hn (ha.nodup_family id) k

end ServerM

/-! ## Roots that go -/

/-- The calls of the close hook of a host, with the one that is still due. -/
def Server.closingsInAll (co : Collaborators β) (s : Server σ β) (k : HostId) : Nat :=
  s.closings k + if s.closeDue co k = true then 1 else 0

section

variable {co : Collaborators β} {s t : Server σ β} {id k : HostId}

/-- When a root has gone, the hooks of its family have been called that were due, and are due no
more.  Nothing else has changed about close hooks. -/
theorem Server.Removed.closingsInAll (h : Removed id s t)
    (hcalls : t.closings k =
      s.closings k + if k ∈ s.family id ∧ s.closeDue co k = true then 1 else 0) :
    t.closingsInAll co k = s.closingsInAll co k := by
  unfold Server.closingsInAll
  rw [hcalls]
  by_cases hk : k ∈ s.family id
  · have hgone : t.host? k = none := h.gone k ((h.mem_family k).1 hk)
    rw [closeDue_of_host?_eq_none hgone]
    simp [hk]
  · have hother := h.others k fun hdescends => hk ((h.mem_family k).2 hdescends)
    rw [closeDue_congr hother h.isStopped]
    simp [hk]

namespace ServerM

theorem closings_discard (id k : HostId) (s : Server σ β) :
    ((discard id).exec s).closings k = s.closings k := by
  cases hh : s.host? id with
  | none => rw [exec_discard_of_host?_eq_none hh]
  | some h =>
    rw [exec_discard hh, discard_eq]
    rfl

end ServerM

end

section

variable [StateStore σ] {co : Collaborators β} {s t u v : Server σ β} {id k : HostId}

namespace ServerM

theorem closingsInAll_close_discard (ha : Arena suits s) (hn : s.Named) (hroot : s.IsRoot id)
    (k : HostId) :
    ((discard id).exec ((close co id).exec s)).closingsInAll co k = s.closingsInAll co k := by
  apply (removed_close_discard ha hroot co).closingsInAll
  rw [closings_discard, closings_close co ha hn]

theorem closingsInAll_removeApp (ha : Arena suits s) (hn : s.Named) (name : String) (k : HostId) :
    ((removeApp co name).exec s).closingsInAll co k = s.closingsInAll co k := by
  cases hid : s.app? name with
  | none =>
    unfold removeApp
    rw [exec_bind, eval_get, exec_get, hid]
    rfl
  | some id =>
    apply (removed_removeApp ha hid co).closingsInAll
    -- that the app has been struck off concerns no host
    have hplaces : SamePlaces s (s.eraseApp name) := fun _ => rfl
    have hclosed := closings_close co (ha.eraseApp name) hn id k
    rw [hplaces.family_eq rfl] at hclosed
    unfold removeApp
    rw [exec_bind, eval_get, exec_get, hid]
    dsimp only
    rw [exec_bind, exec_modify, exec_bind, exec_bind, exec_bind, exec_log]
    exact (closings_discard id k _).trans hclosed

end ServerM

omit [StateStore σ] in
/-- Hosts that stay when another goes keep their functions under their names. -/
theorem Server.Named.exec_discard (hn : s.Named) (id : HostId) :
    ((ServerM.discard id).exec s).Named := by
  cases hh : s.host? id with
  | none =>
    rw [exec_discard_of_host?_eq_none hh]
    exact hn
  | some h =>
    rw [Server.exec_discard hh]
    intro k x hx
    obtain ⟨_, y, hy, hxy, _⟩ := host?_of_host?_discard hx
    exact (hn hy).of_definitions_eq (by rw [hxy])

/-- Before the last root is closed, the close hooks have been called that were due when shutting
down began, but for those that are still due. -/
theorem ServerM.exists_cleared_closingsInAll (co : Collaborators β) (ha : Arena suits s)
    (hn : s.Named) :
    ∃ w, Arena suits w ∧ (w.Named ∧ ∀ k, w.closingsInAll co k = s.closingsInAll co k) ∧
      Cleared s w ∧ (shutdown co).exec s = (close co HostId.unnamed).exec w := by
  refine exists_cleared co ?_ ?_ ha ⟨hn, fun _ => rfl⟩
  · rintro u name hau ⟨hnu, hu⟩
    have hmoves : Moves suits True u ((removeApp co name).exec u) := walks_removeApp co name hau
    refine ⟨Steps.named hau hnu (Moves.steps hau hmoves), fun k => ?_⟩
    rw [closingsInAll_removeApp hau hnu, hu]
  · rintro u id hau hroot ⟨hnu, hu⟩
    refine ⟨(Steps.named hau hnu (keeps_close co id hau).steps).exec_discard id, fun k => ?_⟩
    rw [closingsInAll_close_discard hau hnu hroot, hu]

/-! ## The last root -/

omit [StateStore σ] in
/-- The family of the host that belongs to no app is all there is, if that is the only root. -/
theorem Server.Arena.mem_family_unnamed (ha : Arena suits s)
    (honly : ∀ r, s.IsRoot r → r = HostId.unnamed) :
    k ∈ s.family HostId.unnamed ↔ (s.host? k).isSome := by
  obtain ⟨h, hh, _⟩ := ha.unnamed
  rw [ha.mem_family_iff, hh, ha.isSome_host?_iff honly]
  exact and_iff_right rfl

/-- Closing the only root calls all hooks that are due. -/
theorem ServerM.closings_close_of_only (ha : Arena suits s) (hn : s.Named)
    (honly : ∀ r, s.IsRoot r → r = HostId.unnamed) (k : HostId) :
    ((close co HostId.unnamed).exec s).closings k = s.closingsInAll co k := by
  have hall : k ∈ s.family HostId.unnamed ∧ s.closeDue co k = true ↔ s.closeDue co k = true := by
    refine and_iff_right_iff_imp.2 fun hdue => ?_
    rw [ha.mem_family_unnamed honly]
    exact isSome_of_closeDue hdue
  rw [closings_close co ha hn, closingsInAll]
  simp only [hall]

/-- Without apps, and with no other root, shutting down is closing that root. -/
theorem ServerM.exec_shutdown_of_only (happ : ∀ n, s.app? n = none)
    (honly : ∀ r, s.IsRoot r → r = HostId.unnamed) :
    (shutdown co).exec s = (close co HostId.unnamed).exec s := by
  have hnames : s.apps.keys = [] := by
    rw [List.eq_nil_iff_forall_not_mem]
    intro n hn
    rw [Std.ExtTreeMap.mem_keys, Std.ExtTreeMap.mem_iff_isSome_getElem?] at hn
    have hnone : s.apps[n]? = none := happ n
    rw [hnone] at hn
    cases hn
  have hroots : s.roots.filter (· != HostId.unnamed) = [] := by
    rw [List.filter_eq_nil_iff]
    intro r hr
    simpa using honly r (mem_roots.1 hr)
  unfold shutdown
  rw [exec_bind, eval_get, exec_get, exec_bind, hnames, exec_forM_nil, exec_bind, eval_get,
    exec_get, exec_bind, hroots, exec_forM_nil]

/-! ## Code of no app -/

omit [StateStore σ] in
/-- What hangs below the host that belongs to no app belongs to none. -/
theorem Server.Arena.appOf_of_descends (ha : Arena suits s) (h : s.Descends HostId.unnamed k) :
    s.appOf k = none := by
  cases hroot : s.host? k with
  | none =>
    unfold appOf
    rw [hroot]
    rfl
  | some x =>
    rw [appOf_of_host? hroot]
    induction h generalizing x with
    | self =>
      obtain ⟨y, hy, hmodule, _⟩ := ha.unnamed
      obtain rfl := Option.some.inj (hy.symm.trans hroot)
      rw [Host.name?, hmodule]
      rfl
    | user _ hp hu ih =>
      obtain ⟨y, hy, howner⟩ := ha.user hp hu
      obtain rfl := Option.some.inj (hy.symm.trans hroot)
      obtain ⟨z, hz, _, _, hmodule⟩ := ha.owner hy howner
      have hname := ih z hz
      rw [Host.name?, hmodule] at hname
      exact hname

omit [StateStore σ] in
theorem Server.Arena.appOf_rootOf_of_mem_family (ha : Arena suits s)
    (hk : k ∈ s.family HostId.unnamed) : s.appOf (s.rootOf k) = none := by
  obtain ⟨x, hx⟩ := Option.isSome_iff_exists.1 (isSome_of_mem_familyTo hk)
  rw [ha.appOf_rootOf hx, ha.appOf_of_descends (ha.mem_family_iff.1 hk).2]

/-- Code of no app has no global state to change: it changes no host but the one that it runs
under. -/
theorem CodeStep.nameless (h : CodeStep id s t) (hname : s.appOf (s.rootOf id) = none) :
    (∀ c, t.held c = s.held c) ∧ ∀ k, k ≠ id → t.host? k = s.host? k := by
  have hheld : ∀ c, t.held c = s.held c := by
    have hnamed : ∀ {x : Host β} {n : String}, s.host? (s.rootOf id) = some x →
        x.name? ≠ some n := by
      intro x n hx hn
      rw [appOf_of_host? hx, hn] at hname
      cases hname
    rcases h.storage_or_silent with hstorage | ⟨hheld, -⟩
    · cases hstorage with
      | request hh r file kind shared hs => exact fun _ => rfl
      | answer => exact fun _ => rfl
      | keep hh hn hw blob => exact absurd hn (hnamed hh)
      | save hh hn hw blob hr => exact absurd hn (hnamed hh)
      | refuse hh hn hw blob hr => exact absurd hn (hnamed hh)
    · exact hheld
  refine ⟨hheld, fun k hk => ?_⟩
  by_cases hroot : k = s.rootOf id
  · -- of the root only the global state could have changed
    subst hroot
    have hstateless := h.frame.root hk
    have hstate := hheld (s.rootOf id)
    unfold Server.held at hstate
    cases hx : t.host? (s.rootOf id) <;> cases hy : s.host? (s.rootOf id) <;>
      rw [hx, hy] at hstateless hstate
    · cases hstateless
    · cases hstateless
    · rename_i x y
      obtain ⟨hglobal, htimeout⟩ := Prod.mk.inj (Option.some.inj hstate)
      have hrest := Option.some.inj hstateless
      cases x
      cases y
      simp_all [Host.stateless]
  · exact h.frame.others k hk hroot

theorem CodeSteps.nameless (h : CodeSteps id s t) (hname : s.appOf (s.rootOf id) = none) :
    (∀ c, t.held c = s.held c) ∧ ∀ k, k ≠ id → t.host? k = s.host? k := by
  induction h with
  | refl => exact ⟨fun _ => rfl, fun _ _ => rfl⟩
  | tail hsteps hstep ih =>
    have hframe := CodeSteps.frame hsteps
    have hlast := hstep.nameless (by rw [hframe.rootOf_eq, hframe.appOf_rootOf_eq, hname])
    exact ⟨fun c => (hlast.1 c).trans (ih.1 c),
      fun k hk => (hlast.2 k hk).trans (ih.2 k hk)⟩

/-! ## Turns under hosts of no app -/

omit [StateStore σ] in
theorem Server.SamePlaces.appOf_eq (h : SamePlaces s t) (k : HostId) : t.appOf k = s.appOf k := by
  have hplace := congrArg (Option.bind · fun x : Host β => x.name?) (h k)
  simp only [Option.bind_map] at hplace
  exact hplace

namespace Server

variable {arguments : List Value} {b : EventBinding} {bs : List EventBinding}
  {calls : List (Frame × StoredFunction β)}

/-- Turns under hosts of no app change those hosts only under which a call is made, and no global
state. -/
theorem Firing.nameless (h : Firing co arguments bs calls s t)
    (hbs : ∀ b ∈ bs, s.appOf (s.rootOf b.host) = none) :
    (∀ c, t.held c = s.held c) ∧ SamePlaces s t ∧ Within (calls.map (·.1.host)) s t := by
  induction h with
  | nil s => exact ⟨fun _ => rfl, fun _ => rfl, .refl _ s⟩
  | @cons b bs calls s t u hturn hrest ih =>
    have hname := hbs b List.mem_cons_self
    have hcode := hturn.codeSteps
    have hplaces := hcode.frame.samePlaces
    obtain ⟨hheld, hrestPlaces, hwithin⟩ := ih fun b' hb' => by
      rw [hplaces.rootOf_eq, hplaces.appOf_eq]
      exact hbs b' (List.mem_cons_of_mem b hb')
    have hfirst : Within ((s.due? co arguments b).toList.map (·.1.host)) s t := by
      cases hturn with
      | passed hdue => exact .refl _ s
      | called hdue _ _ hcode =>
        obtain ⟨_, _, _, _, rfl⟩ := due?_eq_some_iff.1 hdue
        rw [hdue]
        exact .of_frame hcode.frame List.mem_cons_self fun k hk =>
          (hcode.nameless hname).2 k (by simpa using hk)
    rw [List.map_append]
    exact ⟨fun c => (hheld c).trans ((hcode.nameless hname).1 c), hplaces.trans hrestPlaces,
      (hfirst.mono (List.subset_append_left _ _)).trans
        (hwithin.mono (List.subset_append_right _ _))⟩

/-- The close hooks that have a turn when a host is closed: those of its family, unless the server
is paused. -/
def closeHooks (s : Server σ β) (id : HostId) : List EventBinding :=
  if s.isStopped then [] else (s.family id).map .closing

omit [StateStore σ] in
theorem host_mem_family_of_mem_closeHooks (hb : b ∈ s.closeHooks id) : b.host ∈ s.family id := by
  unfold closeHooks at hb
  split at hb
  · cases hb
  · obtain ⟨c, hc, rfl⟩ := List.mem_map.1 hb
    exact hc

omit [StateStore σ] in
theorem nodup_closeHooks (ha : Arena suits s) (id : HostId) :
    ((s.closeHooks id).map (·.host)).Nodup := by
  unfold closeHooks
  split
  · exact List.nodup_nil
  · have hhosts : ((s.family id).map EventBinding.closing).map (·.host) = s.family id := by
      rw [List.map_map]
      exact List.map_id' _
    rw [hhosts]
    exact ha.nodup_family id

omit [StateStore σ] in
/-- The calls that are due at these turns are those of the family that are due. -/
theorem mem_filterMap_closeHooks :
    k ∈ ((s.closeHooks id).filterMap (s.due? co [])).map (·.1.host) ↔
      k ∈ s.family id ∧ s.closeDue co k = true := by
  unfold closeHooks closeDue
  cases s.isStopped with
  | true => simp
  | false =>
    simp only [List.mem_map, List.mem_filterMap]
    constructor
    · rintro ⟨⟨frame, f⟩, ⟨b, hb, hdue⟩, rfl⟩
      obtain ⟨c, hc, rfl⟩ := List.mem_map.1 hb
      obtain ⟨_, _, _, _, rfl⟩ := due?_eq_some_iff.1 hdue
      exact ⟨hc, Option.isSome_iff_exists.2 ⟨_, hdue⟩⟩
    · rintro ⟨hk, hdue⟩
      obtain ⟨call, hcall⟩ := Option.isSome_iff_exists.1 hdue
      obtain ⟨_, _, _, _, hframe⟩ := due?_eq_some_iff.1 hcall
      exact ⟨call, ⟨_, List.mem_map_of_mem hk, hcall⟩, by rw [hframe]; rfl⟩

end Server

namespace ServerM

/-- Closing the hosts of users: their close hooks have a turn each, and that is all. -/
theorem firing_forM (co : Collaborators β) {ids : List HostId} (hrunning : s.isStopped = false)
    (ha : Arena suits s) (hn : s.Named)
    (hids : ∀ c ∈ ids, ∃ x, s.host? c = some x ∧ x.owner ≠ none) :
    ∃ calls, Firing co [] (ids.map .closing) calls s ((ids.forM (closeOne co)).exec s) := by
  induction ids generalizing s with
  | nil => exact ⟨[], .nil s⟩
  | cons id ids ih =>
    have hturn := turn_closing co hrunning ha hn id
    have hcode := hturn.codeSteps
    have hplaces := hcode.frame.samePlaces
    have howned : ∀ c ∈ id :: ids, ∃ x,
        ((notify co [] (.closing id)).exec s).host? c = some x ∧ x.owner ≠ none := by
      intro c hc
      obtain ⟨x, hx, ho⟩ := hids c hc
      obtain ⟨y, hy, hplace⟩ := hplaces.symm.host? hx
      exact ⟨y, hy, (Host.owner_of_place_eq hplace).symm.trans_ne ho⟩
    obtain ⟨x, hx, ho⟩ := howned id List.mem_cons_self
    rw [exec_forM_cons, exec_closeOne, exec_sweep_of_owner_ne_none hx ho]
    obtain ⟨calls, hfiring⟩ := ih (hcode.frame.isStopped.trans hrunning)
      (Steps.arena ha hcode.steps) (hcode.named hn) fun c hc =>
        howned c (List.mem_cons_of_mem id hc)
    exact ⟨_, .cons hturn hfiring⟩

/-- While the server is paused, closing the hosts of users does nothing. -/
theorem exec_forM_of_isStopped {ids : List HostId} (hs : s.isStopped = true)
    (hids : ∀ c ∈ ids, ∃ x, s.host? c = some x ∧ x.owner ≠ none) :
    (ids.forM (closeOne co)).exec s = s := by
  induction ids with
  | nil => rfl
  | cons id ids ih =>
    obtain ⟨x, hx, ho⟩ := hids id List.mem_cons_self
    rw [exec_forM_cons, exec_closeOne_of_isStopped hs, exec_sweep_of_owner_ne_none hx ho]
    exact ih fun c hc => hids c (List.mem_cons_of_mem id hc)

/-- Sweeping up after the host that belongs to no app, with its window shut, removes its markers. -/
theorem exec_sweep_unnamed (ha : Arena suits s)
    (hshut : ∀ v w, s.held HostId.unnamed = some (v, w) → w = 0) :
    (sweep HostId.unnamed).exec s =
      (s.record (.swept (markerTag none))).remember (.closed HostId.unnamed) := by
  obtain ⟨h, hh, hmodule, ho⟩ := ha.unnamed
  have hname : h.name? = none := by rw [Host.name?, hmodule]; rfl
  rcases sweep_cases ha.keyed hh ho with ⟨_, hexec⟩ | ⟨hopen, _⟩
  · rw [hexec, hname]
  · have hzero := hshut _ _ (held_of_host? hh)
    omega

/-- Closing the host that belongs to no app: the close hooks of its family have a turn each, and
then its markers are removed. -/
theorem firing_close_unnamed (co : Collaborators β) (ha : Arena suits s) (hn : s.Named)
    (hshut : ∀ v w, s.held HostId.unnamed = some (v, w) → w = 0) :
    ∃ calls v, Firing co [] (s.closeHooks HostId.unnamed) calls s v ∧
      (close co HostId.unnamed).exec s =
        (v.record (.swept (markerTag none))).remember (.closed HostId.unnamed) := by
  obtain ⟨h, hh, _, _⟩ := ha.unnamed
  obtain ⟨ids, hfamily, hids⟩ := ha.exists_family_eq hh
  have howned := fun c hc => (hids c hc).2
  unfold close closeHooks
  rw [exec_bind, eval_get, exec_get]
  cases hs : s.isStopped with
  | true =>
    refine ⟨[], s, .nil s, ?_⟩
    rw [hfamily, exec_forM_append, exec_forM_of_isStopped hs howned, exec_forM_cons, exec_closeOne,
      exec_notify_of_isStopped hs, exec_sweep_unnamed ha hshut, exec_forM_nil]
  | false =>
    obtain ⟨calls, hfirst⟩ := firing_forM co hs ha hn howned
    have hidle : Idles suits s ((ids.forM (closeOne co)).exec s) :=
      keeps_listForM _ keeps_closeOne ha
    have hat := Steps.arena ha hidle.steps
    have hstopped : ((ids.forM (closeOne co)).exec s).isStopped = false :=
      (doesOnly_listForM _ heeds_closeOne s).isStopped.trans hs
    have hlast := turn_closing co hstopped hat (Steps.named ha hn hidle.steps) HostId.unnamed
    have hall := hfirst.append (.cons hlast (.nil _))
    rw [← List.map_singleton, ← List.map_append, ← hfamily] at hall
    have hheld := (hall.nameless fun b hb => by
      obtain ⟨c, hc, rfl⟩ := List.mem_map.1 hb
      exact ha.appOf_rootOf_of_mem_family hc).1 HostId.unnamed
    refine ⟨_, _, hall, ?_⟩
    rw [hfamily, exec_forM_append, exec_forM_cons, exec_closeOne, exec_forM_nil]
    exact exec_sweep_unnamed (Steps.arena hat hlast.codeSteps.steps) fun v w hv =>
      hshut v w (hheld ▸ hv)

end ServerM

/-! ## What the first shutdown leaves -/

/-- A server that has been shut down: no app, and a single root, whose window is shut. -/
structure Server.IsShut (s : Server σ β) : Prop where
  app : ∀ n, s.app? n = none
  isRoot : ∀ r, s.IsRoot r → r = HostId.unnamed
  window : ∀ v w, s.held HostId.unnamed = some (v, w) → w = 0

/-- Shutting down leaves the host that belongs to no app and the users below it, and has called each
close hook that was due. -/
theorem ServerM.isShut_shutdown (co : Collaborators β) (ha : Arena suits s) (hn : s.Named) :
    let t := (shutdown co).exec s
    Arena suits t ∧ t.Named ∧ s.ShutDown t ∧ t.IsShut ∧
      ∀ k, t.closings k = s.closingsInAll co k := by
  intro t
  obtain ⟨w, haw, ⟨hnw, hcounts⟩, hw, hexec⟩ := exists_cleared_closingsInAll co ha hn
  have ht : t = (close co HostId.unnamed).exec w := hexec
  have hidle : Idles suits w t := by
    rw [ht]
    exact keeps_close co HostId.unnamed haw
  have hshutDown : s.ShutDown t := by
    rw [ht]
    exact hw.shutDown haw co
  refine ⟨Steps.arena haw hidle.steps, Steps.named haw hnw hidle.steps, hshutDown, ?_, ?_⟩
  · exact
      { app := hshutDown.app
        isRoot := fun r hr => hw.isRoot r (hr.of_samePlaces hidle.places.symm)
        window := by
          obtain ⟨h, hh, _, ho⟩ := haw.unnamed
          obtain ⟨x, hx, hshut⟩ := shut_close co haw hh ho
          rw [← ht] at hx
          intro v n hv
          rw [held_of_host? hx] at hv
          cases hv
          exact hshut }
  · intro k
    rw [ht, closings_close_of_only haw hnw hw.isRoot, hcounts]

/-! ## Shutting down twice -/

/-- What a second shutdown makes of a server that has been shut down.  The first one has called each
close hook that was due then once.  Of all hosts only the one that belongs to no app, which stays,
and what hangs below it are left, and their close hooks have a turn each in the second one as well.
Besides the calls that are made then, whatever their code does, the second one only has the markers
of that host removed again. -/
structure Server.ShutTwice (co co' : Collaborators β) (s t u : Server σ β)
    (calls : List (Frame × StoredFunction β)) : Prop where
  shutDown : s.ShutDown t
  first : ∀ k, t.closings k = s.closings k + if s.closeDue co k = true then 1 else 0
  again : ∃ v, Firing co' [] (t.closeHooks HostId.unnamed) calls t v ∧
    u = (v.record (.swept (markerTag none))).remember (.closed HostId.unnamed)
  calls_eq : calls = (t.closeHooks HostId.unnamed).filterMap (t.due? co' [])
  mem_calls : ∀ k, k ∈ calls.map (·.1.host) ↔ t.closeDue co' k = true
  within : Within (calls.map (·.1.host)) t u
  places : SamePlaces t u
  apps : u.apps = t.apps
  once : ∀ k, ¬ s.Descends HostId.unnamed k →
    u.closings k = s.closings k + if s.closeDue co k = true then 1 else 0
  quiet : calls = [] →
    u = (t.record (.swept (markerTag none))).remember (.closed HostId.unnamed)

/-- Shutting down a reachable server a second time calls the close hooks that are due then, all of
them under hosts that are never discarded, and does nothing else to hosts, apps, bindings and the
store. -/
theorem shutTwice_of_reachable {allowed : Catalogue → Prop} (hs : Reachable allowed s)
    (co co' : Collaborators β) :
    let t := (shutdown co).exec s
    ∃ calls, ShutTwice co co' s t ((shutdown co').exec t) calls := by
  have hfollows : ∀ c, allowed c → c.Follows fun _ _ => True := fun _ _ _ _ _ => trivial
  obtain ⟨ha, hn⟩ := hs.induction (P := Server.Named) hfollows named_new
    fun _ _ ha hs h => h.named ha hs
  intro t
  obtain ⟨hat, hnt, hshutDown, hshut, hfirst⟩ := isShut_shutdown co ha hn
  have hsecond : (shutdown co').exec t = (close co' HostId.unnamed).exec t :=
    exec_shutdown_of_only hshut.app hshut.isRoot
  obtain ⟨calls, v, hfiring, hclosed⟩ := firing_close_unnamed co' hat hnt hshut.window
  have hcalls := hfiring.calls_eq (nodup_closeHooks hat HostId.unnamed)
  obtain ⟨-, -, hwithin⟩ := hfiring.nameless fun b hb =>
    hat.appOf_rootOf_of_mem_family (host_mem_family_of_mem_closeHooks hb)
  have hagain := keeps_close co' HostId.unnamed hat
  rw [hsecond]
  refine ⟨calls, ?_⟩
  exact
    { shutDown := hshutDown
      first := hfirst
      again := ⟨v, hfiring, hclosed⟩
      calls_eq := hcalls
      mem_calls := by
        intro k
        rw [hcalls, mem_filterMap_closeHooks, hat.mem_family_unnamed hshut.isRoot]
        exact and_iff_right_of_imp isSome_of_closeDue
      within := by
        rw [hclosed]
        exact hwithin.trans ⟨fun _ _ => rfl, rfl, rfl, rfl⟩
      places := hagain.places
      apps := hagain.apps
      once := by
        intro k hk
        have hgone : t.host? k = none := by
          rw [← Option.not_isSome_iff_eq_none, hshutDown.live_iff]
          exact hk
        rw [closings_close_of_only hat hnt hshut.isRoot, closingsInAll,
          closeDue_of_host?_eq_none hgone]
        exact hfirst k
      quiet := by
        intro hnil
        rw [hclosed, hfiring.eq_of_nil hnil] }

/-- An evaluator for which modules define a close hook, and every function adds a line to a shared
file. -/
def guestbookEvaluator : Evaluator Unit where
  runModule _ m :=
    .ask (.define { name := "__on_close", module := some m.name, parameters := [], body := () })
      fun _ => .done (.ok .null)
  callFunction _ _ _ :=
    .ask (.appendLog "guests" true "text" ["goodbye"]) fun _ => .done (.ok .null)
  accepts f arguments := f.acceptsArity arguments
  produce _ _ := .null

/-- The shop, the host that belongs to no app and a host of a user below the latter; the first two
have close hooks. -/
def guestbookOperations : List (Operation Unit) :=
  [.define 0 { name := "__on_close", module := none, parameters := [], body := () },
    .duplicateForUser 0 "ann" (.player "ann" 1), .addApp "shop" .server]

/-- The host that belongs to no app is called again, and the shop is not. -/
theorem shutTwice_guestbook :
    let co := Collaborators.plain guestbookEvaluator shopCatalogue
    let s : Server MemoryStore Unit := Operation.runAll co guestbookOperations (.new ∅ {})
    let t := (shutdown co).exec s
    Reachable (fun _ => True) s ∧ s.closeDue co 0 = true ∧ s.closeDue co 2 = true ∧
      ∃ calls, calls.map (·.1.host) = [0] ∧ ShutTwice co co s t ((shutdown co).exec t) calls := by
  intro co s t
  have hs : Reachable (fun _ => True) s := .runAll trivial _ (.new _ _)
  obtain ⟨calls, hcalls⟩ := shutTwice_of_reachable hs co co
  refine ⟨hs, by decide +kernel, by decide +kernel, calls, ?_, hcalls⟩
  rw [hcalls.calls_eq]
  decide +kernel

/-- When the server is shut down a second time, the close hook of the host that belongs to no app is
called once more, and adds another line to the file. -/
theorem repeated_guestbook :
    let co := Collaborators.plain guestbookEvaluator shopCatalogue
    let s : Server MemoryStore Unit := Operation.runAll co guestbookOperations (.new ∅ {})
    let t := (shutdown co).exec s
    let u := (shutdown co).exec t
    let guests := ResourceKey.resource none "guests" .text true
    Reachable (fun _ => True) s ∧ t.closings 0 = 1 ∧ u.closings 0 = 2 ∧
      StateStore.readLines t.store guests = .ok (some ["goodbye", "goodbye"]) ∧
      StateStore.readLines u.store guests = .ok (some ["goodbye", "goodbye", "goodbye"]) := by
  refine ⟨.runAll trivial _ (.new _ _), ?_⟩
  decide +kernel

end

end ScriptHost
