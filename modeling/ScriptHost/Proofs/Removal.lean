import Mathlib
import ScriptHost.Proofs.Family
import ScriptHost.Proofs.Keeping
import ScriptHost.Proofs.Pausing
import ScriptHost.Proofs.Subscriptions
/-!
# Removing apps

When an app is removed its root goes, and with it all that hangs below the root.  Close hooks run
before, but what they can do stays within the family of the root: code under a host changes that
host and the one that holds its global state, and the latter is in the family too.  So every other
host stays as it is, and the bindings of the others stay in their order.

When a server is shut down, all roots go in this way but the host that belongs to no app.  Since
every host hangs below a root, only that host and what hangs below it are left.

## Main statements

* `Server.Within`, `Server.Arena.within_close`: closing a root concerns its family only.
* `Server.Removed`, `Server.Within.removed`: what is left when a root has gone.
* `Server.Removed.isRoot_iff`, `Server.Removed.descends_iff`: the other trees.
* `Server.Clears`, `ServerM.clears_roots`: what is left when several roots have gone.
* `Server.Cleared`, `ServerM.exists_cleared`: shutting down closes the last root in the end.
* `Server.ShutDown`, `Server.Arena.shutDown`: what is left when the server is shut down.
* `removed_of_reachable`: what removing an app and shutting down make of a reachable server.
-/

namespace ScriptHost

variable {σ β : Type} {suits : String → Module → Prop}

open Server

namespace EventDispatch

variable {d : EventDispatch} {ids : List HostId}

/-- When more bindings are taken back, it does not matter whether some of them have been taken back
before. -/
theorem unbindHosts_filter {id : HostId} (hid : id ∈ ids) :
    unbindHosts ⟨d.subscriptions.filter (·.2.host != id)⟩ ids = d.unbindHosts ids := by
  unfold unbindHosts
  rw [List.filter_filter]
  congr 1
  apply List.filter_congr
  intro b _
  by_cases hb : b.2.host = id
  · simp [hb, hid]
  · simp [hb]

theorem unbindHosts_unbindHosts {ids' : List HostId} (hids : ids ⊆ ids') :
    (d.unbindHosts ids).unbindHosts ids' = d.unbindHosts ids' := by
  unfold unbindHosts
  rw [List.filter_filter]
  congr 1
  apply List.filter_congr
  intro b _
  by_cases hb : b.2.host ∈ ids
  · simp [hids hb]
  · simp [hb]

end EventDispatch

/-! ## What stays within a family -/

section

variable {s t u : Server σ β} {id k r : HostId} {h : Host β} {ids : List HostId}

/-- What has happened concerns some hosts only: the others and their bindings are as they were, and
so are the settings and whether the server is paused. -/
structure Server.Within (ids : List HostId) (s t : Server σ β) : Prop where
  others : ∀ k, k ∉ ids → t.host? k = s.host? k
  dispatch : t.dispatch.unbindHosts ids = s.dispatch.unbindHosts ids
  isStopped : t.isStopped = s.isStopped
  settings : t.settings = s.settings

namespace Server.Within

protected theorem refl (ids : List HostId) (s : Server σ β) : Within ids s s where
  others _ _ := rfl
  dispatch := rfl
  isStopped := rfl
  settings := rfl

protected theorem trans (h : Within ids s t) (g : Within ids t u) : Within ids s u where
  others k hk := (g.others k hk).trans (h.others k hk)
  dispatch := g.dispatch.trans h.dispatch
  isStopped := g.isStopped.trans h.isStopped
  settings := g.settings.trans h.settings

/-- What concerns some hosts only concerns no others than more of them. -/
theorem mono {ids' : List HostId} (h : Within ids s t) (hids : ids ⊆ ids') : Within ids' s t where
  others k hk := h.others k fun hmem => hk (hids hmem)
  dispatch := by
    rw [← EventDispatch.unbindHosts_unbindHosts hids, h.dispatch,
      EventDispatch.unbindHosts_unbindHosts hids]
  isStopped := h.isStopped
  settings := h.settings

theorem record (s : Server σ β) (a : Activity β) : Within ids s (s.record a) where
  others _ _ := rfl
  dispatch := rfl
  isStopped := rfl
  settings := rfl

theorem noted (h : Within ids s t) (hnoted : t.Noted u) : Within ids s u := by
  rcases hnoted with rfl | ⟨text, rfl⟩
  · exact h
  · exact h.trans (.record t _)

theorem setWindow (hid : id ∈ ids) (ticks : Nat) (e : StateEvent) :
    Within ids s (s.setWindow id ticks e) where
  others k hk := by
    have hne : id ≠ k := by
      rintro rfl
      exact hk hid
    rw [Server.setWindow, host?_modifyHost, if_neg hne, host?_remember]
  dispatch := rfl
  isStopped := rfl
  settings := rfl

/-- Code that runs under a host concerns that host, and the others that it changes. -/
theorem of_frame (hframe : CodeFrame id s t) (hid : id ∈ ids)
    (hothers : ∀ k, k ∉ ids → t.host? k = s.host? k) : Within ids s t where
  others := hothers
  dispatch := by
    rw [← EventDispatch.unbindHosts_filter hid, hframe.bindings,
      EventDispatch.unbindHosts_filter hid]
  isStopped := hframe.isStopped
  settings := hframe.settings

variable [StateStore σ]

theorem save (h : Within ids s t) (x : Host β) : Within ids s (t.save x) where
  others k hk := by
    rw [host?_save]
    exact h.others k hk
  dispatch := by
    rw [save_eq]
    exact h.dispatch
  isStopped := by
    rw [save_eq]
    exact h.isStopped
  settings := by
    rw [save_eq]
    exact h.settings

/-- Code that runs under a host concerns that host and the one that holds its global state. -/
theorem of_codeSteps (hcode : CodeSteps id s t) (hid : id ∈ ids) (hroot : s.rootOf id ∈ ids) :
    Within ids s t := by
  refine of_frame hcode.frame hid fun k hk => hcode.frame.others k ?_ ?_
  · rintro rfl
    exact hk hid
  · rintro rfl
    exact hk hroot

end Server.Within

namespace ServerM

variable [StateStore σ] (co : Collaborators β)

/-- Sweeping up after a host concerns that host only. -/
theorem within_sweep (ha : Arena suits s) (hid : id ∈ ids) :
    Within ids s ((sweep id).exec s) := by
  cases hh : s.host? id with
  | none =>
      unfold sweep
      rw [exec_bind, eval_host?, exec_host?, hh]
      exact .refl ids s
  | some h =>
      cases ho : h.owner with
      | some o =>
          rw [exec_sweep_of_owner_ne_none hh (by simp [ho])]
          exact .refl ids s
      | none =>
          have hfirst : Within ids s (s.record (.swept (markerTag h.name?))) := .record s _
          rcases sweep_cases ha.keyed hh ho with ⟨_, hexec⟩ | ⟨_, hnoted⟩
          · rw [hexec]
            exact hfirst.trans ⟨fun _ _ => rfl, rfl, rfl, rfl⟩
          · exact ((hfirst.trans (.setWindow hid 0 _)).save h).noted hnoted

/-- Closing a single host concerns that host and the one that holds its global state. -/
theorem within_closeOne (ha : Arena suits s) (hid : id ∈ ids) (hroot : s.rootOf id ∈ ids) :
    Within ids s ((closeOne co id).exec s) := by
  obtain ⟨u, hcode, hexec⟩ := closeOne_cases co ha id
  rw [hexec]
  exact (Within.of_codeSteps hcode hid hroot).trans
    (within_sweep (Steps.arena ha hcode.steps) hid)

theorem within_forM {l : List HostId} (ha : Arena suits s)
    (hl : ∀ k ∈ l, k ∈ ids ∧ s.rootOf k ∈ ids) : Within ids s ((l.forM (closeOne co)).exec s) := by
  induction l generalizing s with
  | nil => exact .refl ids s
  | cons k l ih =>
      obtain ⟨hk, hroot⟩ := hl k List.mem_cons_self
      have hidle : Idles suits s ((closeOne co k).exec s) := keeps_closeOne k ha
      rw [exec_forM_cons]
      refine (within_closeOne co ha hk hroot).trans (ih (Steps.arena ha hidle.steps) ?_)
      intro c hc
      rw [hidle.places.rootOf_eq]
      exact hl c (List.mem_cons_of_mem k hc)

end ServerM

/-- The global state of a family is held within the family. -/
theorem Server.Arena.rootOf_mem_family (ha : Arena suits s) (hroot : s.IsRoot id)
    (hk : k ∈ s.family id) : s.rootOf k ∈ s.family id := by
  rcases user_of_mem_familyTo hk with rfl | ⟨q, x, hq, hx, u, hu⟩
  · obtain ⟨h, hh, ho⟩ := hroot
    rw [rootOf_eq_self_of_owner_eq_none hh ho]
    exact hk
  · obtain ⟨y, hy, hyo⟩ := ha.user hx hu
    rw [rootOf_eq_of_owner_eq_some hy hyo]
    exact hq

/-- Closing a root concerns its family only. -/
theorem Server.Arena.within_close [StateStore σ] (ha : Arena suits s) (hroot : s.IsRoot id)
    (co : Collaborators β) : Within (s.family id) s ((ServerM.close co id).exec s) :=
  ServerM.within_forM co ha fun _ hk => ⟨hk, ha.rootOf_mem_family hroot hk⟩

/-! ## A root that has gone -/

/-- A root has gone with its family, which is all that hangs below it.  Other hosts are as they
were, no binding names a host that has gone, and the other bindings are those from before, in the
same order. -/
structure Server.Removed (id : HostId) (s t : Server σ β) : Prop where
  mem_family : ∀ k, k ∈ s.family id ↔ s.Descends id k
  gone : ∀ k, s.Descends id k → t.host? k = none
  others : ∀ k, ¬ s.Descends id k → t.host? k = s.host? k
  unbound : ∀ e, ∀ b ∈ t.dispatch.bindings e, ¬ s.Descends id b.host
  bindings : ∀ e, t.dispatch.bindings e = (s.dispatch.bindings e).filter (·.host ∉ s.family id)
  isStopped : t.isStopped = s.isStopped
  settings : t.settings = s.settings

/-- A root is removed when its family has been closed and it is discarded. -/
theorem Server.Within.removed (hw : Within (s.family id) s u) (ha : Arena suits s)
    (hroot : s.IsRoot id) (hp : SamePlaces s u) (hnext : u.nextId = s.nextId) :
    Removed id s ((ServerM.discard id).exec u) := by
  obtain ⟨h, hh, ho⟩ := hroot.of_samePlaces hp
  obtain ⟨x, hx, _⟩ := hroot
  have hfamily : u.family id = s.family id := hp.family_eq hnext id
  have hmem : ∀ k, k ∈ s.family id ↔ s.Descends id k := by
    intro k
    rw [ha.mem_family_iff, hx]
    exact and_iff_right rfl
  have hdispatch : (u.discard id h).dispatch = s.dispatch.unbindHosts (s.family id) := by
    rw [dispatch_discard, hfamily, hw.dispatch]
  rw [exec_discard hh]
  exact
    { mem_family := hmem
      gone := by
        intro k hk
        rw [host?_discard, hfamily, if_pos ((hmem k).2 hk)]
      others := by
        intro k hk
        have hout : k ∉ s.family id := fun hin => hk ((hmem k).1 hin)
        rw [host?_discard, hfamily, if_neg hout, ho, hw.others k hout]
        exact Option.map_id'
      unbound := by
        intro e b hb
        rw [hdispatch, EventDispatch.bindings_unbindHosts] at hb
        rw [← hmem]
        exact of_decide_eq_true (List.mem_filter.1 hb).2
      bindings := by
        intro e
        rw [hdispatch, EventDispatch.bindings_unbindHosts]
      isStopped := by
        rw [discard_eq]
        exact hw.isStopped
      settings := by
        rw [discard_eq]
        exact hw.settings }

theorem Server.Removed.record (h : Removed id s t) (a : Activity β) :
    Removed id s (t.record a) :=
  ⟨h.mem_family, h.gone, h.others, h.unbound, h.bindings, h.isStopped, h.settings⟩

/-! ## The other trees -/

namespace Server

/-- A root hangs below no other host. -/
theorem IsRoot.not_descends (ha : Arena suits s) (hr : s.IsRoot r) (hne : r ≠ id) :
    ¬ s.Descends id r := by
  intro hdescends
  obtain ⟨h, hh, ho⟩ := hr
  cases hdescends with
  | self => exact hne rfl
  | user _ hx hu =>
      obtain ⟨y, hy, hyo⟩ := ha.user hx hu
      obtain rfl : h = y := Option.some.inj (hh.symm.trans hy)
      rw [ho] at hyo
      cases hyo

/-- Nothing hangs below two roots. -/
theorem IsRoot.not_descends_of_descends (ha : Arena suits s) (hid : s.IsRoot id) (hr : s.IsRoot r)
    (hne : r ≠ id) (hk : s.Descends r k) : ¬ s.Descends id k := by
  intro hk'
  rcases ha.descends_total hk hk' with habove | habove
  · exact hid.not_descends ha hne.symm habove
  · exact hr.not_descends ha hne habove

/-- Every live host hangs below a root. -/
theorem Arena.exists_isRoot (ha : Arena suits s) {x : Host β} (hx : s.host? k = some x) :
    ∃ r, s.IsRoot r ∧ s.Descends r k := by
  refine ha.host_induction (P := fun k _ => ∃ r, s.IsRoot r ∧ s.Descends r k) ?_ ?_ hx
  · intro k x hx ho
    exact ⟨k, ⟨x, hx, ho⟩, .self⟩
  · rintro k x o p _ _ hp hu _ ⟨r, hr, hdescends⟩
    exact ⟨r, hr, .user hdescends hp hu⟩

/-- No root goes but the one that is removed. -/
theorem Removed.isRoot_iff (h : Removed id s t) (ha : Arena suits s) :
    t.IsRoot r ↔ s.IsRoot r ∧ r ≠ id := by
  constructor
  · rintro ⟨x, hx, ho⟩
    have hr : ¬ s.Descends id r := by
      intro hr
      rw [h.gone r hr] at hx
      cases hx
    refine ⟨⟨x, (h.others r hr).symm.trans hx, ho⟩, ?_⟩
    rintro rfl
    exact hr .self
  · rintro ⟨hr, hne⟩
    have hother := h.others r (hr.not_descends ha hne)
    obtain ⟨x, hx, ho⟩ := hr
    exact ⟨x, hother.trans hx, ho⟩

/-- What hangs below the other roots stays there. -/
theorem Removed.descends_iff (h : Removed id s t) (ha : Arena suits s) (hid : s.IsRoot id)
    (hr : s.IsRoot r) (hne : r ≠ id) : t.Descends r k ↔ s.Descends r k :=
  descends_iff_of_host?_eq fun _ hp => h.others _ (hid.not_descends_of_descends ha hr hne hp)

end Server

/-! ## Removing an app -/

namespace ServerM

variable [StateStore σ] {name : String}

/-- Closing a root and discarding it removes it. -/
theorem removed_close_discard (ha : Arena suits s) (hroot : s.IsRoot id) (co : Collaborators β) :
    Removed id s ((ServerM.discard id).exec ((close co id).exec s)) := by
  have hidle := keeps_close co id ha
  exact (ha.within_close hroot co).removed ha hroot hidle.places hidle.nextId

theorem eval_removeApp (co : Collaborators β) (s : Server σ β) (name : String) :
    (removeApp co name).eval s = (s.app? name).isSome := by
  unfold removeApp
  rw [eval_bind, eval_get, exec_get]
  cases s.app? name with
  | none => rfl
  | some id => rfl

/-- Removing an app that is loaded removes its root. -/
theorem removed_removeApp (ha : Arena suits s) (hid : s.app? name = some id)
    (co : Collaborators β) : Removed id s ((removeApp co name).exec s) := by
  have hroot : s.IsRoot id := by
    obtain ⟨h, _, hh, ho, _⟩ := ha.app hid
    exact ⟨h, hh, ho⟩
  -- that the app has been struck off concerns no host
  have ha' := ha.eraseApp name
  have hplaces : SamePlaces s (s.eraseApp name) := fun _ => rfl
  have hfamily : (s.eraseApp name).family id = s.family id := hplaces.family_eq rfl id
  have hclosed := ha'.within_close hroot co
  rw [hfamily] at hclosed
  have hwithin : Within (s.family id) s ((close co id).exec (s.eraseApp name)) :=
    ⟨hclosed.others, hclosed.dispatch, hclosed.isStopped, hclosed.settings⟩
  have hidle := keeps_close co id ha'
  unfold removeApp
  rw [exec_bind, eval_get, exec_get, hid]
  dsimp only
  rw [exec_bind, exec_modify, exec_bind, exec_bind, exec_bind, exec_log]
  exact (hwithin.removed ha hroot hidle.places hidle.nextId).record _

end ServerM

/-! ## Shutting down -/

theorem Server.Arena.isRoot_unnamed (ha : Arena suits s) : s.IsRoot HostId.unnamed := by
  obtain ⟨h, hh, _, ho⟩ := ha.unnamed
  exact ⟨h, hh, ho⟩

/-- Some roots have gone, and what hangs below the host that belongs to no app is there. -/
structure Server.Clears (ids : List HostId) (s t : Server σ β) : Prop where
  isRoot_iff : ∀ r, t.IsRoot r ↔ s.IsRoot r ∧ r ∉ ids
  unnamed : ∀ k, t.Descends HostId.unnamed k ↔ s.Descends HostId.unnamed k

/-- One more root goes after others. -/
theorem Server.Clears.cons (h : Clears ids t u) (hremoved : Removed id s t) (ha : Arena suits s)
    (hid : s.IsRoot id) (hunnamed : id ≠ HostId.unnamed) : Clears (id :: ids) s u where
  isRoot_iff r := by
    rw [h.isRoot_iff, hremoved.isRoot_iff ha, List.mem_cons, not_or, and_assoc]
  unnamed k := by
    rw [h.unnamed, hremoved.descends_iff ha hid ha.isRoot_unnamed hunnamed.symm]

namespace ServerM

variable [StateStore σ] (co : Collaborators β)

/-- Removing apps leaves what hangs below the host that belongs to no app.  With it stays what each
removal keeps. -/
theorem descends_removeApps {P : Server σ β → Prop}
    (happ : ∀ u name, Arena suits u → P u → P ((removeApp co name).exec u)) (ha : Arena suits s)
    (hp : P s) (names : List String) :
    let t := (names.forM fun name => do let _ ← removeApp co name).exec s
    P t ∧ ∀ k, t.Descends HostId.unnamed k ↔ s.Descends HostId.unnamed k := by
  have hall := exec_forM_induction
    (P := fun u => Arena suits u ∧ P u ∧
      ∀ k, u.Descends HostId.unnamed k ↔ s.Descends HostId.unnamed k)
    (fun name => do let _ ← removeApp co name) names
    (by
      rintro name _ u ⟨hau, hpu, hu⟩
      have hmoves : Moves suits True u ((removeApp co name).exec u) := walks_removeApp co name hau
      refine ⟨Moves.arena hau hmoves, happ u name hau hpu, fun k => ?_⟩
      rcases removeApp_cases co hau name with ⟨_, hexec⟩ | ⟨id, _, _, _, hid, _⟩
      · rw [exec_bind, hexec]
        exact hu k
      · have hremoved := removed_removeApp hau hid co
        obtain ⟨h, _, hh, ho, _⟩ := hau.app hid
        exact (hremoved.descends_iff hau ⟨h, hh, ho⟩ hau.isRoot_unnamed
          (hau.ne_unnamed_of_app? hid).symm).trans (hu k))
    ⟨ha, hp, fun _ => Iff.rfl⟩
  exact hall.2

/-- Closing and discarding roots one by one removes them.  What each removal keeps stays. -/
theorem clears_roots {P : Server σ β → Prop}
    (hgo : ∀ u id, Arena suits u → u.IsRoot id → P u →
      P ((ServerM.discard id).exec ((close co id).exec u)))
    (ha : Arena suits s) (hp : P s) (hnone : ∀ n, s.app? n = none) (hnodup : ids.Nodup)
    (hids : ∀ id ∈ ids, s.IsRoot id ∧ id ≠ HostId.unnamed) :
    let t := (ids.forM fun id => do close co id; ServerM.discard id).exec s
    Arena suits t ∧ P t ∧ (∀ n, t.app? n = none) ∧ Clears ids s t := by
  induction ids generalizing s with
  | nil =>
      refine ⟨ha, hp, hnone, fun r => ?_, fun _ => Iff.rfl⟩
      exact (and_iff_left List.not_mem_nil).symm
  | cons id ids ih =>
      obtain ⟨hroot, hunnamed⟩ := hids id List.mem_cons_self
      obtain ⟨hmoves, hnone'⟩ := moves_close_discard co True ha hnone hunnamed
      have hremoved := removed_close_discard ha hroot co
      obtain ⟨hid, hrest⟩ := List.nodup_cons.1 hnodup
      rw [exec_forM_cons]
      obtain ⟨hat, hpt, happ, hclears⟩ :=
        ih (Moves.arena ha hmoves) (hgo s id ha hroot hp) hnone' hrest fun c hc => by
          obtain ⟨hc', hne⟩ := hids c (List.mem_cons_of_mem id hc)
          refine ⟨(hremoved.isRoot_iff ha).2 ⟨hc', ?_⟩, hne⟩
          rintro rfl
          exact hid hc
      exact ⟨hat, hpt, happ, hclears.cons hremoved ha hroot hunnamed⟩

end ServerM

/-- Only the host that belongs to no app is left to be closed: no app is there, and no other root. -/
structure Server.Cleared (s w : Server σ β) : Prop where
  app : ∀ n, w.app? n = none
  isRoot : ∀ r, w.IsRoot r → r = HostId.unnamed
  unnamed : ∀ k, w.Descends HostId.unnamed k ↔ s.Descends HostId.unnamed k

/-- Shutting down removes all roots but one, which is closed in the end.  What removing apps and
other roots keeps stays until then. -/
theorem ServerM.exists_cleared [StateStore σ] {P : Server σ β → Prop} (co : Collaborators β)
    (happ : ∀ u name, Arena suits u → P u → P ((removeApp co name).exec u))
    (hgo : ∀ u id, Arena suits u → u.IsRoot id → P u →
      P ((ServerM.discard id).exec ((close co id).exec u)))
    (ha : Arena suits s) (hp : P s) :
    ∃ w, Arena suits w ∧ P w ∧ Cleared s w ∧
      (shutdown co).exec s = (close co HostId.unnamed).exec w := by
  unfold shutdown
  rw [exec_bind, eval_get, exec_get, exec_bind, exec_bind, eval_get, exec_get, exec_bind]
  -- the apps go
  obtain ⟨hmoves, hnone⟩ := walks_removeApps co True ha s.apps.keys fun _ => mem_keys_apps
  obtain ⟨hpu, hunnamed⟩ := descends_removeApps co happ ha hp s.apps.keys
  have hau := Moves.arena ha hmoves
  generalize (s.apps.keys.forM fun name => do
    let _ ← removeApp co name).exec s = u at hnone hpu hunnamed hau ⊢
  -- the other roots go
  have hnodup : (u.roots.filter (· != HostId.unnamed)).Nodup :=
    ((pairwise_roots u).imp Nat.ne_of_lt).filter _
  have hroots : ∀ id ∈ u.roots.filter (· != HostId.unnamed), u.IsRoot id ∧ id ≠ HostId.unnamed := by
    intro id hid
    obtain ⟨hmem, hne⟩ := List.mem_filter.1 hid
    exact ⟨mem_roots.1 hmem, by simpa using hne⟩
  obtain ⟨hat, hpt, happ, hclears⟩ := clears_roots co hgo hau hpu hnone hnodup hroots
  refine ⟨_, hat, hpt, ⟨happ, fun r hr => ?_, fun k => ?_⟩, rfl⟩
  · obtain ⟨hru, hout⟩ := (hclears.isRoot_iff r).1 hr
    by_contra hne
    exact hout (List.mem_filter.2 ⟨mem_roots.2 hru, by simpa using hne⟩)
  · rw [hclears.unnamed, hunnamed]

/-- Every live host hangs below the host that belongs to no app, if that is the only root. -/
theorem Server.Arena.isSome_host?_iff (ha : Arena suits s)
    (honly : ∀ r, s.IsRoot r → r = HostId.unnamed) (k : HostId) :
    (s.host? k).isSome ↔ s.Descends HostId.unnamed k := by
  constructor
  · intro hlive
    obtain ⟨x, hx⟩ := Option.isSome_iff_exists.1 hlive
    obtain ⟨r, hr, hk⟩ := ha.exists_isRoot hx
    rwa [honly r hr] at hk
  · intro hk
    obtain ⟨h, hh, _⟩ := ha.unnamed
    obtain ⟨x, hx⟩ := ha.host?_of_descends hh hk
    rw [hx]
    rfl

/-- No app is left, and of all hosts only the one that belongs to no app and what hangs below it. -/
structure Server.ShutDown (s t : Server σ β) : Prop where
  app : ∀ n, t.app? n = none
  live_iff : ∀ k, (t.host? k).isSome ↔ s.Descends HostId.unnamed k

/-- Closing the host that belongs to no app, when there is nothing else left, shuts down. -/
theorem Server.Cleared.shutDown [StateStore σ] {w : Server σ β} (h : Cleared s w)
    (ha : Arena suits w) (co : Collaborators β) :
    s.ShutDown ((ServerM.close co HostId.unnamed).exec w) := by
  have hidle := ServerM.keeps_close co HostId.unnamed ha
  refine ⟨fun n => ?_, fun k => ?_⟩
  · rw [app?, hidle.apps]
    exact h.app n
  · have hplace := congrArg Option.isSome (hidle.places k)
    rw [Option.isSome_map, Option.isSome_map] at hplace
    rw [hplace, ha.isSome_host?_iff h.isRoot, h.unnamed]

/-- Shutting down leaves no app, and no root but the host that belongs to no app. -/
theorem Server.Arena.shutDown [StateStore σ] (ha : Arena suits s) (co : Collaborators β) :
    s.ShutDown ((ServerM.shutdown co).exec s) := by
  obtain ⟨w, haw, -, hw, hexec⟩ := ServerM.exists_cleared (P := fun _ => True) co
    (fun _ _ _ _ => trivial) (fun _ _ _ _ _ => trivial) ha trivial
  rw [hexec]
  exact hw.shutDown haw co

/-! ## Reachable servers -/

variable [StateStore σ]

/-- What removing an app makes of a server: the answer tells whether the app was loaded, and its
name is gone.  If it was not loaded nothing happens, and otherwise its root is removed. -/
structure Server.Unloads (co : Collaborators β) (name : String) (s t : Server σ β) : Prop where
  answer : (ServerM.removeApp co name).eval s = (s.app? name).isSome
  app? : ∀ n, t.app? n = if name = n then none else s.app? n
  absent : s.app? name = none → t = s
  removed : ∀ id, s.app? name = some id → Removed id s t

/-- On every reachable server, removing an app removes all hosts of its tree with their bindings and
nothing else, and shutting down leaves only the host that belongs to no app and what hangs below
it. -/
theorem removed_of_reachable {allowed : Catalogue → Prop} (hs : Reachable allowed s)
    (co : Collaborators β) :
    (∀ name, s.Unloads co name ((ServerM.removeApp co name).exec s)) ∧
      s.ShutDown ((ServerM.shutdown co).exec s) := by
  have ha : Arena (fun _ _ => True) s := hs.arena fun _ _ _ _ _ => trivial
  refine ⟨fun name => ?_, ha.shutDown co⟩
  exact
    { answer := ServerM.eval_removeApp co s name
      app? := ServerM.app?_removeApp co ha name
      absent := by
        intro hnone
        rcases ServerM.removeApp_cases co ha name with ⟨_, hexec⟩ | ⟨id, _, _, _, hid, _⟩
        · exact hexec
        · rw [hnone] at hid
          cases hid
      removed := fun id hid => ServerM.removed_removeApp ha hid co }

/-- The shop has a host for each of two users, and besides it there is a market that is no app. -/
theorem removed_shop :
    let co := Collaborators.plain shopEvaluator shopCatalogue
    let s : Server MemoryStore Unit := Operation.runAll co
      [.addApp "shop" .server, .duplicateForUser 1 "ann" (.player "ann" 1),
        .duplicateForUser 1 "bob" (.player "bob" 2),
        .createApplication (some { name := "market", code := some "" }) true .server]
      (.new ∅ {})
    s.app? "shop" = some 1 ∧ s.family 1 = [2, 3, 1] ∧ (s.host? 4).isSome ∧
      s.Unloads co "shop" ((ServerM.removeApp co "shop").exec s) ∧
      s.ShutDown ((ServerM.shutdown co).exec s) := by
  intro co s
  have hs : Reachable (fun _ => True) s := .runAll trivial _ (.new _ _)
  have happ : s.app? "shop" = some 1 := by decide +kernel
  have hfamily : s.family 1 = [2, 3, 1] := by decide +kernel
  have hmarket : (s.host? 4).isSome := by decide +kernel
  obtain ⟨hunloads, hshut⟩ := removed_of_reachable hs co
  exact ⟨happ, hfamily, hmarket, hunloads "shop", hshut⟩

end

end ScriptHost
