import Mathlib
import ScriptHost.Proofs.Records
/-!
# Moves of a server

Most steps only make sense together: a root that begins has its code run under it and stays or is
discarded, and an app is struck off, closed and discarded.  `Move s t` lists what operations do at a
time, so that what concerns whole operations is proved by looking at one move after the other.

## Main statements

* `Server.Idles`: steps in which no host comes or goes.
* `Server.WindowsOnly`: hosts change in their windows only.
* `Move`, `Moves`: one move of a server, and any number of them.
* `Move.steps`, `Moves.arena`: moves are made of steps, so they keep the arena.
* `Moves.retires`: a root goes only after its window has been shut.
-/

namespace ScriptHost

variable {σ β : Type} [StateStore σ] {suits : String → Module → Prop}

open Server

/-! ## Hosts that stay -/

/-- Writing into the journal is a step of code, under whatever host. -/
theorem step_record (s : Server σ β) (a : Activity β) : Step suits s (s.record a) := by
  have hcode : CodeStep HostId.unnamed s (s.record a) := .record a
  exact .code hcode

/-- One server leads to another by steps in which no host comes or goes, and the apps stay as they
are. -/
structure Server.Idles (suits : String → Module → Prop) (s t : Server σ β) : Prop where
  steps : Steps suits s t
  places : SamePlaces s t
  apps : t.apps = s.apps
  nextId : t.nextId = s.nextId

namespace Server.Idles

variable {s t u : Server σ β}

theorem refl (s : Server σ β) : Idles suits s s := ⟨.refl, fun _ => rfl, rfl, rfl⟩

theorem trans (h : Idles suits s t) (g : Idles suits t u) : Idles suits s u where
  steps := h.steps.trans g.steps
  places := h.places.trans g.places
  apps := g.apps.trans h.apps
  nextId := g.nextId.trans h.nextId

/-- A step that changes neither hosts nor apps nor numbers. -/
theorem of_step (h : Step suits s t) (hp : SamePlaces s t) (happs : t.apps = s.apps)
    (hnext : t.nextId = s.nextId) : Idles suits s t := ⟨.single h, hp, happs, hnext⟩

theorem of_codeSteps {id : HostId} (h : CodeSteps id s t) : Idles suits s t :=
  ⟨h.steps, h.frame.samePlaces, h.frame.apps, h.frame.nextId⟩

theorem record (s : Server σ β) (a : Activity β) : Idles suits s (s.record a) :=
  of_step (step_record s a) (fun _ => rfl) rfl rfl

theorem setWindow {id : HostId} {ticks : Nat} {e : StateEvent}
    (h : Step suits s (s.setWindow id ticks e)) : Idles suits s (s.setWindow id ticks e) :=
  of_step h (samePlaces_setWindow s id ticks e) rfl rfl

/-- A window is shut, and the state of its host is given to the store. -/
theorem save {id : HostId} {ticks : Nat} {e : StateEvent} {h : Host β}
    (hstep : Step suits s ((s.setWindow id ticks e).save h)) :
    Idles suits s ((s.setWindow id ticks e).save h) where
  steps := .single hstep
  places := (samePlaces_setWindow s id ticks e).trans (samePlaces_save _ h)
  apps := by
    rw [Server.save_eq]
    rfl
  nextId := by
    rw [Server.save_eq]
    rfl

end Server.Idles

/-! ## Notes -/

/-- The server is the same, but for a warning that may have come into its log. -/
def Server.Noted (s t : Server σ β) : Prop := t = s ∨ ∃ text, t = s.record (.logged .warn text)

section

variable {s t u : Server σ β}

omit [StateStore σ] in
theorem Server.Noted.host?_eq (h : s.Noted t) (k : HostId) : t.host? k = s.host? k := by
  rcases h with rfl | ⟨text, rfl⟩ <;> rfl

theorem Server.Idles.noted (h : Idles suits s t) (hnoted : t.Noted u) : Idles suits s u := by
  rcases hnoted with rfl | ⟨text, rfl⟩
  · exact h
  · exact h.trans (.record t _)

end

/-! ## Windows -/

section

variable {s t u : Server σ β}

omit [StateStore σ] in
/-- The hosts are the same, but for their windows. -/
structure Server.WindowsOnly (s t : Server σ β) : Prop where
  nextId : t.nextId = s.nextId
  host : ∀ k, (t.host? k).map (·.setTimeout 0) = (s.host? k).map (·.setTimeout 0)

omit [StateStore σ] in
theorem Server.windowsOnly_setWindow (s : Server σ β) (id : HostId) (ticks : Nat)
    (e : StateEvent) : WindowsOnly s (s.setWindow id ticks e) where
  nextId := rfl
  host k := by
    rw [setWindow, host?_modifyHost]
    split
    · rw [Option.map_map]
      rfl
    · rfl

/-- To save a state, and to note that it was refused, is not to touch hosts. -/
theorem Server.WindowsOnly.save (h : WindowsOnly s t) {x : Host β} (hu : (t.save x).Noted u) :
    WindowsOnly s u where
  nextId := by
    have hsave : (t.save x).nextId = t.nextId := by
      rw [save_eq]
    rcases hu with rfl | ⟨text, rfl⟩ <;> exact hsave.trans h.nextId
  host k := by
    rw [hu.host?_eq, host?_save]
    exact h.host k

end

/-! ## Moves -/

/-- One move of a server.  A root either stays, and is entered as an app if it is loaded as one, or
it is discarded because its code has failed.  In an orderly move a root is only loaded, for a name
that no app has, and user hosts begin only under hosts that have one for each player. -/
inductive Move (suits : String → Module → Prop) (orderly : Prop) (s : Server σ β) :
    Server σ β → Prop where
  | idle {t : Server σ β} (h : Idles suits s t) : Move suits orderly s t
  | skipId : Move suits orderly s s.skipId
  | root {module : Option Module} {perUser : Bool} {sink : Option Actor} {t : Server σ β}
      (hdisorderly : ¬ orderly)
      (hcode : CodeSteps s.nextId (s.beginRoot module perUser (s.savedState module) sink) t) :
      Move suits orderly s t
  | load {m : Module} {name : String} {perUser : Bool} {sink : Option Actor} {t : Server σ β}
      (hsuits : suits name m) (hfree : s.app? name = none)
      (hcode : CodeSteps s.nextId (s.beginRoot (some m) perUser (s.savedState (some m)) sink) t) :
      Move suits orderly s (t.insertApp name s.nextId)
  | lostRoot {m : Module} {perUser : Bool} {sink : Option Actor} {u : Server σ β}
      (hfree : orderly → ∃ name, suits name m ∧ s.app? name = none)
      (hcode : CodeSteps s.nextId (s.beginRoot (some m) perUser (s.savedState (some m)) sink) u) :
      Move suits orderly s ((ServerM.discard s.nextId).exec u)
  | user {root : HostId} {h : Host β} {user : String} {sink : Actor} {t : Server σ β}
      (hh : s.host? root = some h) (hu : h.users[user]? = none) (hperUser : orderly → h.perUser)
      (hcode : CodeSteps s.nextId (s.beginUser root h user sink) t) : Move suits orderly s t
  | lostUser {root : HostId} {h : Host β} {user : String} {sink : Actor} {u : Server σ β}
      (hh : s.host? root = some h) (hu : h.users[user]? = none) (hperUser : orderly → h.perUser)
      (hcode : CodeSteps s.nextId (s.beginUser root h user sink) u) :
      Move suits orderly s ((ServerM.discard s.nextId).exec u)
  | unload {name : String} {id : HostId} {u : Server σ β} {h : Host β}
      (hid : s.app? name = some id) (hidle : Idles suits (s.eraseApp name) u)
      (hh : u.host? id = some h) (hw : h.saveTimeout = 0) : Move suits orderly s (u.discard id h)
  | drop {id : HostId} {u : Server σ β} {h : Host β} (hnone : ∀ n, s.app? n = none)
      (hid : id ≠ HostId.unnamed) (hidle : Idles suits s u) (hh : u.host? id = some h)
      (hw : h.owner = none → h.saveTimeout = 0) : Move suits orderly s (u.discard id h)

/-- Any number of moves of a server. -/
abbrev Moves (suits : String → Module → Prop) (orderly : Prop) :
    Server σ β → Server σ β → Prop :=
  Relation.ReflTransGen (Move suits orderly)

variable {orderly : Prop} {s t u : Server σ β} {id : HostId} {name : String}

/-! ## Moves are made of steps -/

omit [StateStore σ] in
theorem Server.Arena.nextId_ne_unnamed (ha : Arena suits s) : s.nextId ≠ HostId.unnamed := by
  obtain ⟨h, hh, _⟩ := ha.unnamed
  exact Nat.ne_of_gt (ha.lt_nextId hh)

omit [StateStore σ] in
/-- The next number is not that of an app. -/
theorem Server.Arena.app?_ne_nextId (ha : Arena suits s) (name : String) :
    s.app? name ≠ some s.nextId := by
  intro hname
  obtain ⟨h, _, hh, _⟩ := ha.app hname
  rw [ha.host?_nextId] at hh
  cases hh

omit [StateStore σ] in
/-- The host that belongs to no app is no app. -/
theorem Server.Arena.ne_unnamed_of_app? (ha : Arena suits s) (hid : s.app? name = some id) :
    id ≠ HostId.unnamed := by
  rintro rfl
  obtain ⟨h, hh, hm, _⟩ := ha.unnamed
  obtain ⟨h', m, hh', _, hm', _⟩ := ha.app hid
  obtain rfl : h = h' := Option.some.inj (hh.symm.trans hh')
  rw [hm] at hm'
  cases hm'

omit [StateStore σ] in
/-- An app that has been struck off is no app under another name. -/
theorem Server.Arena.app?_eraseApp_ne (ha : Arena suits s) (hid : s.app? name = some id)
    (n : String) : (s.eraseApp name).app? n ≠ some id := by
  intro hn
  rw [app?_eraseApp] at hn
  split at hn
  · cases hn
  · rename_i hne
    exact hne (ha.app_inj hid hn)

omit [StateStore σ] in
/-- A host that goes is gone. -/
theorem Server.Arena.host?_discard_self (ha : Arena suits s) {h : Host β}
    (hh : s.host? id = some h) : (s.discard id h).host? id = none := by
  rw [host?_discard, if_pos (ha.mem_family_self hh)]

omit [StateStore σ] in
theorem Server.Arena.host?_exec_discard_self (ha : Arena suits s) (id : HostId) :
    ((ServerM.discard id).exec s).host? id = none := by
  cases hh : s.host? id with
  | none => rw [exec_discard_of_host?_eq_none hh, hh]
  | some h => rw [Server.exec_discard hh, ha.host?_discard_self hh]

/-- Discarding a host that is no app, and not the one that belongs to none, is at most one step. -/
theorem steps_discard (hid : id ≠ HostId.unnamed) (happ : ∀ name, s.app? name ≠ some id) :
    Steps suits s ((ServerM.discard id : ServerM σ β Unit).exec s) := by
  cases hh : s.host? id with
  | none =>
      rw [exec_discard_of_host?_eq_none hh]
  | some h =>
      rw [exec_discard hh]
      exact .single (.discard hh hid happ)

/-- Discarding a new host is at most one step, whatever its code has done. -/
theorem steps_discard_new (ha : Arena suits s) (hcode : CodeSteps s.nextId t u)
    (happs : t.apps = s.apps) : Steps suits u ((ServerM.discard s.nextId).exec u) := by
  apply steps_discard ha.nextId_ne_unnamed
  intro name hname
  rw [app?, hcode.frame.apps, happs] at hname
  exact ha.app?_ne_nextId name hname

/-- The step in which an app that has been struck off is discarded. -/
theorem step_unload (ha : Arena suits s) (hid : s.app? name = some id)
    (hidle : Idles suits (s.eraseApp name) u) {h : Host β} (hh : u.host? id = some h) :
    Step suits u (u.discard id h) := by
  apply Step.discard hh (ha.ne_unnamed_of_app? hid)
  intro n hn
  rw [app?, hidle.apps] at hn
  exact ha.app?_eraseApp_ne hid n hn

/-- With no app left, every host but the one that belongs to no app may be discarded. -/
theorem step_drop (hnone : ∀ n, s.app? n = none) (hid : id ≠ HostId.unnamed)
    (hidle : Idles suits s u) {h : Host β} (hh : u.host? id = some h) :
    Step suits u (u.discard id h) := by
  apply Step.discard hh hid
  intro n hn
  have hnone' := hnone n
  rw [app?, ← hidle.apps, ← app?, hn] at hnone'
  cases hnone'

/-- The step in which a new root is entered as an app. -/
theorem step_load (ha : Arena suits s) {m : Module} {perUser : Bool} {sink : Option Actor}
    {state : Option Blob} (hsuits : suits name m)
    (hcode : CodeSteps s.nextId (s.beginRoot (some m) perUser state sink) t) :
    Step suits t (t.insertApp name s.nextId) := by
  have hnew : (s.beginRoot (some m) perUser state sink).host? s.nextId =
      some (s.newRoot (some m) perUser state sink) := by
    rw [host?_beginRoot, if_pos rfl]
  obtain ⟨x, hx, hplace⟩ := hcode.frame.samePlaces.symm.host? hnew
  apply Step.insertApp hx (Host.owner_of_place_eq hplace).symm
    (Host.module_of_place_eq hplace).symm hsuits
  intro n hn
  rw [app?, hcode.frame.apps] at hn
  exact ha.app?_ne_nextId n hn

/-- A move is made of steps. -/
theorem Move.steps (ha : Arena suits s) (h : Move suits orderly s t) : Steps suits s t := by
  cases h with
  | idle h => exact h.steps
  | skipId => exact .single .skipId
  | root hdisorderly hcode => exact hcode.steps.head (.beginRoot _ _ _)
  | load hsuits hfree hcode =>
      exact (hcode.steps.head (.beginRoot _ _ _)).tail (step_load ha hsuits hcode)
  | lostRoot hfree hcode =>
      exact (hcode.steps.head (.beginRoot _ _ _)).trans (steps_discard_new ha hcode rfl)
  | user hh hu hperUser hcode => exact hcode.steps.head (.beginUser hh hu _)
  | lostUser hh hu hperUser hcode =>
      exact (hcode.steps.head (.beginUser hh hu _)).trans (steps_discard_new ha hcode rfl)
  | unload hid hidle hh hw =>
      exact (hidle.steps.head (.eraseApp _)).tail (step_unload ha hid hidle hh)
  | drop hnone hid hidle hh hw => exact hidle.steps.tail (step_drop hnone hid hidle hh)

/-- Moves are made of steps. -/
theorem Moves.steps (ha : Arena suits s) (h : Moves suits orderly s t) : Steps suits s t := by
  induction h with
  | refl => exact .refl
  | tail _ hmove ih => exact ih.trans (hmove.steps (Steps.arena ha ih))

theorem Moves.arena (ha : Arena suits s) (h : Moves suits orderly s t) : Arena suits t :=
  Steps.arena ha (h.steps ha)

/-! ## Roots that stay -/

/-- The host is there and belongs to no other. -/
def Server.IsRoot (s : Server σ β) (id : HostId) : Prop :=
  ∃ h, s.host? id = some h ∧ h.owner = none

namespace Server.IsRoot

instance (s : Server σ β) (id : HostId) : Decidable (s.IsRoot id) :=
  match hh : s.host? id with
  | none => .isFalse fun ⟨_, hx, _⟩ => by rw [hh] at hx; cases hx
  | some h => decidable_of_iff (h.owner = none)
    ⟨fun ho => ⟨h, hh, ho⟩, fun ⟨_, hx, ho⟩ => Option.some.inj (hh.symm.trans hx) ▸ ho⟩

omit [StateStore σ] in
theorem of_samePlaces (h : s.IsRoot id) (hp : SamePlaces s t) : t.IsRoot id := by
  obtain ⟨x, hx, ho⟩ := h
  obtain ⟨y, hy, hplace⟩ := hp.symm.host? hx
  exact ⟨y, hy, (Host.owner_of_place_eq hplace).symm.trans ho⟩

omit [StateStore σ] in
theorem beginRoot (ha : Arena suits s) (h : s.IsRoot id) (module : Option Module) (perUser : Bool)
    (state : Option Blob) (sink : Option Actor) :
    (s.beginRoot module perUser state sink).IsRoot id := by
  obtain ⟨x, hx, ho⟩ := h
  refine ⟨x, ?_, ho⟩
  rw [host?_beginRoot, if_neg (Nat.ne_of_gt (ha.lt_nextId hx)), hx]

omit [StateStore σ] in
theorem beginUser (ha : Arena suits s) (h : s.IsRoot id) {parent : HostId} {p : Host β}
    {user : String} (hp : s.host? parent = some p) (hu : p.users[user]? = none) (sink : Actor) :
    (s.beginUser parent p user sink).IsRoot id := by
  obtain ⟨x, hx, ho⟩ := h
  obtain ⟨y, hy, hyx, _⟩ := ha.host?_beginUser_of_host? hp hu sink hx
  exact ⟨y, hy, hyx.owner_eq.trans ho⟩

omit [StateStore σ] in
/-- A root is in no other family. -/
theorem discard (ha : Arena suits s) (h : s.IsRoot id) {k : HostId} (hk : id ≠ k) (x : Host β) :
    (s.discard k x).IsRoot id := by
  obtain ⟨y, hy, ho⟩ := h
  have hfamily : id ∉ s.family k := fun hmem => hk (ha.eq_of_mem_family hmem hy ho)
  exact ⟨y.without id x.owner, host?_discard_of_not_mem hy hfamily,
    (Host.sameButUsers_without y id x.owner).owner_eq.trans ho⟩

omit [StateStore σ] in
theorem exec_discard (ha : Arena suits s) (h : s.IsRoot id) {k : HostId} (hk : id ≠ k) :
    ((ServerM.discard k).exec s).IsRoot id := by
  cases hx : s.host? k with
  | none =>
      rw [exec_discard_of_host?_eq_none hx]
      exact h
  | some x =>
      rw [Server.exec_discard hx]
      exact h.discard ha hk x

end Server.IsRoot

/-- A host goes by steps, and its window is shut when it does. -/
def Server.Retires (suits : String → Module → Prop) (id : HostId) (s t : Server σ β) : Prop :=
  ∃ u h, Steps suits s u ∧ u.host? id = some h ∧ h.owner = none ∧ h.saveTimeout = 0 ∧
    Step suits u (u.discard id h) ∧ Steps suits (u.discard id h) t

namespace Server.Retires

theorem of_steps (h : Retires suits id t u) (hst : Steps suits s t) : Retires suits id s u := by
  obtain ⟨v, x, hv, hx, ho, hw, hstep, hrest⟩ := h
  exact ⟨v, x, hst.trans hv, hx, ho, hw, hstep, hrest⟩

theorem trans_steps (h : Retires suits id s t) (htu : Steps suits t u) : Retires suits id s u := by
  obtain ⟨v, x, hv, hx, ho, hw, hstep, hrest⟩ := h
  exact ⟨v, x, hv, hx, ho, hw, hstep, hrest.trans htu⟩

end Server.Retires

/-- In a move a root stays, or it goes with its window shut. -/
theorem Move.retires (ha : Arena suits s) (h : Move suits orderly s t) (hroot : s.IsRoot id) :
    t.IsRoot id ∨ Retires suits id s t := by
  have hne : id ≠ s.nextId := by
    obtain ⟨x, hx, _⟩ := hroot
    exact Nat.ne_of_lt (ha.lt_nextId hx)
  cases h with
  | idle h => exact .inl (hroot.of_samePlaces h.places)
  | skipId => exact .inl (hroot.of_samePlaces fun _ => rfl)
  | root hdisorderly hcode =>
      exact .inl ((hroot.beginRoot ha _ _ _ _).of_samePlaces hcode.frame.samePlaces)
  | load hsuits hfree hcode =>
      exact .inl ((hroot.beginRoot ha _ _ _ _).of_samePlaces hcode.frame.samePlaces)
  | lostRoot hfree hcode =>
      have ha' := Steps.arena ha (hcode.steps.head (.beginRoot _ _ _))
      have hstays := (hroot.beginRoot ha _ _ _ _).of_samePlaces hcode.frame.samePlaces
      exact .inl (hstays.exec_discard ha' hne)
  | user hh hu hperUser hcode =>
      exact .inl ((hroot.beginUser ha hh hu _).of_samePlaces hcode.frame.samePlaces)
  | lostUser hh hu hperUser hcode =>
      have ha' := Steps.arena ha (hcode.steps.head (.beginUser hh hu _))
      have hstays := (hroot.beginUser ha hh hu _).of_samePlaces hcode.frame.samePlaces
      exact .inl (hstays.exec_discard ha' hne)
  | @unload name k u x hid hidle hh hw =>
      have hsteps : Steps suits s u := hidle.steps.head (.eraseApp name)
      have hstays : u.IsRoot id := hroot.of_samePlaces hidle.places
      by_cases hk : id = k
      · subst hk
        obtain ⟨y, hy, ho⟩ := hstays
        obtain rfl : x = y := Option.some.inj (hh.symm.trans hy)
        exact .inr ⟨u, x, hsteps, hh, ho, hw, step_unload ha hid hidle hh, .refl⟩
      · exact .inl (hstays.discard (Steps.arena ha hsteps) hk x)
  | @drop k u x hnone hid hidle hh hw =>
      have hstays : u.IsRoot id := hroot.of_samePlaces hidle.places
      by_cases hk : id = k
      · subst hk
        obtain ⟨y, hy, ho⟩ := hstays
        obtain rfl : x = y := Option.some.inj (hh.symm.trans hy)
        exact .inr ⟨u, x, hidle.steps, hh, ho, hw ho, step_drop hnone hid hidle hh, .refl⟩
      · exact .inl (hstays.discard (Steps.arena ha hidle.steps) hk x)

/-- After any number of moves a root is still there, or it has gone with its window shut. -/
theorem Moves.retires (ha : Arena suits s) (h : Moves suits orderly s t) (hroot : s.IsRoot id) :
    t.IsRoot id ∨ Retires suits id s t := by
  induction h with
  | refl => exact .inl hroot
  | @tail u v hbefore hmove ih =>
      have ha' := Moves.arena ha hbefore
      rcases ih with hroot' | hretires
      · exact (hmove.retires ha' hroot').imp_right fun hretires =>
          hretires.of_steps (Moves.steps ha hbefore)
      · exact .inr (hretires.trans_steps (hmove.steps ha'))

end ScriptHost
