import Mathlib
import ScriptHost.Proofs.Agreement
import ScriptHost.Proofs.Persistence
/-!
# Orderly servers

On a server whose hosts are made only for apps that are loaded and for users who are served, every
root with a module is the app of that name, and user hosts belong to roots.  So a root is the only
one of its module for as long as it is there, and no user host is ever made to hold state.

## Main statements

* `Server.Flat`, `Steps.quiet`: user hosts that belong to roots, and what follows for the chronicle.
* `Server.Orderly`, `Moves.orderly`: what orderly moves keep.
* `Server.Orderly.sole`: a root that is there is the only one of its module.
-/

namespace ScriptHost

variable {σ β : Type} [StateStore σ] {suits : String → Module → Prop}

open Server

/-! ## User hosts that belong to roots -/

/-- Every host that belongs to another belongs to a root. -/
def Server.Flat (s : Server σ β) : Prop :=
  ∀ c x o, s.host? c = some x → x.owner = some o → s.IsRoot o.parent

/-- The event tells of no root that begins and of no state that is misplaced. -/
def StateEvent.IsQuiet : StateEvent → Prop
  | begun _ _ _ => False
  | misplaced _ _ => False
  | _ => True

section

variable {s t : Server σ β} {events : List StateEvent}

omit [StateStore σ] in
/-- Where user hosts belong to roots, the state of an app is held by a root. -/
theorem Server.Flat.isQuiet (hf : s.Flat) {e : StateEvent} (he : e.Fits s)
    (hbegun : ∀ id name st, e ≠ .begun id name st) : e.IsQuiet := by
  cases e with
  | begun id name st => exact absurd rfl (hbegun id name st)
  | misplaced k n =>
      obtain ⟨c, x, hc, hx, hown⟩ := he
      cases hy : s.host? c with
      | none =>
          rw [rootOf, hy] at hc
          obtain rfl : c = k := hc
          rw [hy] at hx
          cases hx
      | some y =>
          cases ho : y.owner with
          | none =>
              rw [rootOf_eq_self_of_owner_eq_none hy ho] at hc
              subst hc
              obtain rfl : x = y := Option.some.inj (hx.symm.trans hy)
              exact absurd ho hown
          | some o =>
              rw [rootOf_eq_of_owner_eq_some hy ho] at hc
              subst hc
              obtain ⟨z, hz, hroot⟩ := hf c y o hy ho
              obtain rfl : x = z := Option.some.inj (hx.symm.trans hz)
              exact absurd hroot hown
  | _ => trivial

/-- Steps after which no new host is there leave user hosts belonging to roots. -/
theorem Steps.flat (ha : Arena suits s) (hf : s.Flat) (h : Steps suits s t)
    (hold : ∀ {k : HostId} {z : Host β}, t.host? k = some z → k < s.nextId) : t.Flat := by
  intro c x o hx ho
  obtain ⟨y, hy, hxy, _⟩ := Steps.host?_of_lt ha h (hold hx) hx
  obtain ⟨p, hp, hroot⟩ := hf c y o hy (hxy.symm.trans ho)
  obtain ⟨q, hq, _⟩ := (Steps.arena ha h).owner hx ho
  obtain ⟨p', hp', hqp, _⟩ := Steps.host?_of_lt ha h (hold hq) hq
  obtain rfl : p = p' := Option.some.inj (hp.symm.trans hp')
  exact ⟨q, hq, hqp.trans hroot⟩

/-- Steps that give no number away are quiet where user hosts belong to roots. -/
theorem Steps.quiet (ha : Arena suits s) (hf : s.Flat) (h : Steps suits s t)
    (hnext : t.nextId = s.nextId) :
    t.Flat ∧ ∃ events, t.chronicle = events ++ s.chronicle ∧ ∀ e ∈ events, e.IsQuiet := by
  induction h with
  | refl => exact ⟨hf, [], rfl, fun e he => absurd he List.not_mem_nil⟩
  | @tail u v hbefore hstep ih =>
      have hfirst : u.nextId = s.nextId :=
        le_antisymm (hstep.nextId_le.trans_eq hnext) (Steps.nextId_le hbefore)
      have hsame : v.nextId = u.nextId := hnext.trans hfirst.symm
      obtain ⟨hf', earlier, hearlier, hquiet⟩ := ih hfirst
      obtain ⟨later, hlater, _⟩ := hstep.store_eq
      have ha' := Steps.arena ha hbefore
      have hold : ∀ {k : HostId} {z : Host β}, v.host? k = some z → k < u.nextId :=
        fun hz => lt_of_lt_of_eq ((hstep.arena ha').lt_nextId hz) hsame
      refine ⟨Steps.flat ha' hf' (.single hstep) hold, later ++ earlier, ?_, ?_⟩
      · rw [hlater, hearlier, List.append_assoc]
      · intro e he
        rcases List.mem_append.1 he with he | he
        · refine hf'.isQuiet (hstep.fits hlater e he) ?_
          rintro id name st rfl
          rcases hstep.begins_or with ⟨m, perUser, sink, rfl⟩ | ⟨es, hes, hnone⟩
          · exact absurd hsame (Nat.succ_ne_self _)
          · obtain rfl : es = later := List.append_cancel_right (hes.symm.trans hlater)
            exact hnone id name st he
        · exact hquiet e he

end

/-! ## How an orderly move begins -/

section

variable {s t u : Server σ β}

/-- An orderly move starts with at most one new host: a root for a name that no app has, or the host
of a user of a root. -/
inductive Server.Opens (suits : String → Module → Prop) (s : Server σ β) : Server σ β → Prop where
  | same : Opens suits s s
  | skipId : Opens suits s s.skipId
  | root {m : Module} {name : String} (perUser : Bool) (sink : Option Actor) (hsuits : suits name m)
      (hfree : s.app? name = none) :
      Opens suits s (s.beginRoot (some m) perUser (s.savedState (some m)) sink)
  | user {root : HostId} {h : Host β} {user : String} (sink : Actor) (hh : s.host? root = some h)
      (hu : h.users[user]? = none) (hperUser : h.perUser) :
      Opens suits s (s.beginUser root h user sink)

/-- After a move has started it gives no more numbers away. -/
theorem Move.opens (ha : Arena suits s) (h : Move suits True s t) :
    ∃ u, Opens suits s u ∧ Steps suits u t ∧ t.nextId = u.nextId := by
  cases h with
  | idle h => exact ⟨s, .same, h.steps, h.nextId⟩
  | skipId => exact ⟨_, .skipId, .refl, rfl⟩
  | root hdisorderly hcode => exact absurd trivial hdisorderly
  | load hsuits hfree hcode =>
      exact ⟨_, .root _ _ hsuits hfree, hcode.steps.tail (step_load ha hsuits hcode),
        hcode.frame.nextId⟩
  | lostRoot hfree hcode =>
      obtain ⟨name, hsuits, hnone⟩ := hfree trivial
      refine ⟨_, .root _ _ hsuits hnone, hcode.steps.trans (steps_discard_new ha hcode rfl), ?_⟩
      rw [nextId_exec_discard]
      exact hcode.frame.nextId
  | user hh hu hperUser hcode =>
      exact ⟨_, .user _ hh hu (hperUser trivial), hcode.steps, hcode.frame.nextId⟩
  | lostUser hh hu hperUser hcode =>
      refine ⟨_, .user _ hh hu (hperUser trivial),
        hcode.steps.trans (steps_discard_new ha hcode rfl), ?_⟩
      rw [nextId_exec_discard]
      exact hcode.frame.nextId
  | unload hid hidle hh hw =>
      refine ⟨s, .same, (hidle.steps.head (.eraseApp _)).tail (step_unload ha hid hidle hh), ?_⟩
      rw [discard_eq]
      exact hidle.nextId
  | drop hnone hid hidle hh hw =>
      refine ⟨s, .same, hidle.steps.tail (step_drop hnone hid hidle hh), ?_⟩
      rw [discard_eq]
      exact hidle.nextId

omit [StateStore σ] in
/-- A new root belongs to no other host. -/
theorem Server.Flat.beginRoot (ha : Arena suits s) (hf : s.Flat) (module : Option Module)
    (perUser : Bool) (state : Option Blob) (sink : Option Actor) :
    (s.beginRoot module perUser state sink).Flat := by
  intro c x o hx ho
  rw [host?_beginRoot] at hx
  split at hx
  · rw [← Option.some.inj hx] at ho
    cases ho
  · exact (hf c x o hx ho).beginRoot ha _ _ _ _

omit [StateStore σ] in
/-- The host of a user of a root belongs to that root. -/
theorem Server.Flat.beginUser (ha : Arena suits s) (hf : s.Flat) {root : HostId} {h : Host β}
    {user : String} (hh : s.host? root = some h) (ho : h.owner = none)
    (hu : h.users[user]? = none) (sink : Actor) : (s.beginUser root h user sink).Flat := by
  intro c x o hx hown
  rcases ha.host?_of_host?_beginUser hh hx with ⟨_, rfl⟩ | ⟨y, hy, hxy, _⟩
  · have hparent : h.id = o.parent := congrArg Ownership.parent (Option.some.inj hown)
    have hroot : s.IsRoot root := ⟨h, hh, ho⟩
    rw [← hparent, ha.keyed hh]
    exact hroot.beginUser ha hh hu sink
  · exact (hf c y o hy (hxy.owner_eq.symm.trans hown)).beginUser ha hh hu sink

/-- A host with one for each player is a root, so its users' hosts belong to a root. -/
theorem Server.Opens.flat (ha : Arena suits s) (hf : s.Flat) (h : Opens suits s u) : u.Flat := by
  cases h with
  | same => exact hf
  | skipId => exact hf
  | root perUser sink hsuits hfree => exact hf.beginRoot ha _ _ _ _
  | @user root h user sink hh hu hperUser =>
      have ho : h.owner = none := by
        by_contra ho
        rw [ha.perUser hh ho] at hperUser
        cases hperUser
      exact hf.beginUser ha hh ho hu sink

theorem Server.Opens.steps (h : Opens suits s u) : Steps suits s u := by
  cases h with
  | same => exact .refl
  | skipId => exact .single .skipId
  | root perUser sink hsuits hfree => exact .single (.beginRoot _ _ _)
  | user sink hh hu hperUser => exact .single (.beginUser hh hu sink)

end

/-! ## The invariant -/

/-- User hosts belong to roots, the roots with a module are the apps, no state has ever been
misplaced, and no root has begun while another of its module was there. -/
structure Server.Orderly (s : Server σ β) : Prop where
  flat : s.Flat
  listed : ∀ id h m, s.host? id = some h → h.owner = none → h.module = some m →
    s.app? m.name = some id
  placed : ∀ k n, .misplaced k n ∉ s.chronicle
  alone : ∀ {since past : List StateEvent} {root : HostId} {name : String} {state : Option Blob},
    s.chronicle = since ++ .begun root name state :: past →
      ∀ id st, .begun id name st ∈ past → .ended id ∈ past

section

variable {s t u : Server σ β}

omit [StateStore σ] in
/-- A new server has only the host that belongs to no app. -/
theorem orderly_new (store : σ) (settings : Settings) :
    (new store settings : Server σ β).Orderly where
  flat := by
    have ha : Arena Module.HasName (new store settings : Server σ β) := arena_new store settings
    intro c x o hx ho
    have hc : c = HostId.unnamed := Nat.lt_one_iff.1 (ha.lt_nextId hx)
    subst hc
    obtain ⟨y, hy, _, hroot⟩ := ha.unnamed
    rw [Option.some.inj (hx.symm.trans hy), hroot] at ho
    cases ho
  listed := by
    have ha : Arena Module.HasName (new store settings : Server σ β) := arena_new store settings
    intro id h m hh _ hm
    have hid : id = HostId.unnamed := Nat.lt_one_iff.1 (ha.lt_nextId hh)
    subst hid
    obtain ⟨y, hy, hnone, _⟩ := ha.unnamed
    rw [Option.some.inj (hh.symm.trans hy), hnone] at hm
    cases hm
  placed k n := List.not_mem_nil
  alone := by
    intro since past root name state hchronicle
    have hlength := congrArg List.length hchronicle
    simp [new] at hlength

/-- After an orderly move the roots with a module are the apps. -/
theorem Move.listed (ha : Arena Module.HasName s) (ho : s.Orderly)
    (h : Move Module.HasName True s t) :
    ∀ id x m, t.host? id = some x → x.owner = none → x.module = some m →
      t.app? m.name = some id := by
  intro id x m hx hroot hm
  have hsteps := h.steps ha
  have hold : id < s.nextId → s.app? m.name = some id := by
    intro hid
    obtain ⟨y, hy, howner, hmodule⟩ := Steps.host?_of_lt ha hsteps hid hx
    exact ho.listed id y m hy (howner.symm.trans hroot) (hmodule.symm.trans hm)
  have ha' := Moves.arena ha (.single h)
  -- a new host that has been discarded is not the one that is looked at
  have hlost : ∀ {v w : Server σ β}, Steps Module.HasName s v → CodeSteps s.nextId w v →
      w.nextId = s.nextId + 1 → t = (ServerM.discard s.nextId).exec v → id < s.nextId := by
    rintro v w hv hcode hw rfl
    have hne : id ≠ s.nextId := by
      rintro rfl
      rw [(Steps.arena ha hv).host?_exec_discard_self] at hx
      cases hx
    have hlt := ha'.lt_nextId hx
    rw [nextId_exec_discard, hcode.frame.nextId, hw] at hlt
    exact lt_of_le_of_ne (Nat.lt_succ_iff.1 hlt) hne
  -- where an old host has been discarded, no number has been given away
  have hkept : ∀ {v : Server σ β} {k : HostId} {y : Host β}, v.nextId = s.nextId →
      t = v.discard k y → id < s.nextId := by
    rintro v k y hv rfl
    have hlt := ha'.lt_nextId hx
    rw [discard_eq] at hlt
    exact lt_of_lt_of_eq hlt hv
  cases h with
  | idle h =>
      rw [app?, h.apps]
      exact hold (lt_of_lt_of_eq (ha'.lt_nextId hx) h.nextId)
  | skipId =>
      have hx' : s.host? id = some x := hx
      exact hold (ha.lt_nextId hx')
  | root hdisorderly hcode => exact absurd trivial hdisorderly
  | @load m' name perUser sink v hname hfree hcode =>
      obtain ⟨y, hy, hplace⟩ := hcode.frame.samePlaces.host? (k := id) hx
      rw [host?_beginRoot] at hy
      rw [app?_insertApp]
      split at hy
      · rename_i hid
        rw [Host.module_of_place_eq hplace, ← Option.some.inj hy] at hm
        obtain rfl : m' = m := Option.some.inj hm
        rw [if_pos hname.symm, hid]
      · have hlisted := hold (ha.lt_nextId hy)
        rw [if_neg, app?, hcode.frame.apps]
        · exact hlisted
        · rintro rfl
          rw [hfree] at hlisted
          cases hlisted
  | lostRoot hfree hcode =>
      rw [app?, apps_exec_discard, hcode.frame.apps]
      exact hold (hlost (hcode.steps.head (.beginRoot _ _ _)) hcode rfl rfl)
  | user hh hu hperUser hcode =>
      obtain ⟨y, hy, hplace⟩ := hcode.frame.samePlaces.host? hx
      rw [Host.owner_of_place_eq hplace] at hroot
      rw [app?, hcode.frame.apps]
      rcases ha.host?_of_host?_beginUser hh hy with ⟨_, rfl⟩ | ⟨z, hz, _⟩
      · cases hroot
      · exact hold (ha.lt_nextId hz)
  | lostUser hh hu hperUser hcode =>
      rw [app?, apps_exec_discard, hcode.frame.apps]
      exact hold (hlost (hcode.steps.head (.beginUser hh hu _)) hcode rfl rfl)
  | @unload name k v y hid hidle hh hw =>
      have hlisted := hold (hkept hidle.nextId rfl)
      have happ : (s.eraseApp name).app? m.name = some id := by
        rw [app?_eraseApp, if_neg, hlisted]
        rintro rfl
        obtain rfl : k = id := Option.some.inj (hid.symm.trans hlisted)
        have hgone := (Steps.arena ha (hidle.steps.head (.eraseApp _))).host?_discard_self hh
        rw [hgone] at hx
        cases hx
      rw [discard_eq]
      show v.app? m.name = some id
      rw [app?, hidle.apps]
      exact happ
  | drop hnone hid hidle hh hw =>
      have hlisted := hold (hkept hidle.nextId rfl)
      rw [hnone] at hlisted
      cases hlisted

omit [StateStore σ] in
/-- When a root begins in an orderly move, all others of its module have ended. -/
theorem Server.Orderly.ended (hr : Recorded s) (ho : s.Orderly) {m : Module}
    (hfree : s.app? m.name = none) (id : HostId) (st : Option Blob)
    (hmem : .begun id m.name st ∈ s.chronicle) : .ended id ∈ s.chronicle := by
  by_contra hnot
  obtain ⟨x, hx, hroot, hn⟩ := hr.live hmem hnot
  obtain ⟨m', hm', hname⟩ := Option.map_eq_some_iff.1 hn
  have hlisted := ho.listed id x m' hx hroot hm'
  rw [hname, hfree] at hlisted
  cases hlisted

/-- An orderly move keeps the server orderly. -/
theorem Move.orderly (ha : Arena Module.HasName s) (hr : Recorded s) (ho : s.Orderly)
    (h : Move Module.HasName True s t) : t.Orderly := by
  obtain ⟨u, hopens, hsteps, hnext⟩ := h.opens ha
  obtain ⟨hflat, events, hevents, hquiet⟩ :=
    Steps.quiet (Steps.arena ha hopens.steps) (hopens.flat ha ho.flat) hsteps hnext
  -- when a move starts nothing is written down, or that a root begins
  have hopened : u.chronicle = s.chronicle ∨
      ∃ (m : Module) (st : Option Blob), s.app? m.name = none ∧
        u.chronicle = .begun s.nextId m.name st :: s.chronicle := by
    cases hopens with
    | same => exact .inl rfl
    | skipId => exact .inl rfl
    | @root m name perUser sink hname hfree =>
        have hname' : m.name = name := hname
        rw [← hname'] at hfree
        exact .inr ⟨m, _, hfree, rfl⟩
    | user sink hh hu hperUser => exact .inl rfl
  exact
    { flat := hflat
      listed := h.listed ha ho
      placed := by
        intro k n hmem
        rw [hevents] at hmem
        rcases List.mem_append.1 hmem with hmem | hmem
        · exact hquiet _ hmem
        · rcases hopened with hsame | ⟨m, st, _, hbegun⟩
          · rw [hsame] at hmem
            exact ho.placed k n hmem
          · rw [hbegun] at hmem
            rcases List.mem_cons.1 hmem with heq | hmem
            · cases heq
            · exact ho.placed k n hmem
      alone := by
        intro since past root name state hchronicle
        obtain ⟨mid, _, hu⟩ := exists_append_of_not_mem (hevents.symm.trans hchronicle)
          fun hmem => hquiet _ hmem
        rcases hopened with hsame | ⟨m, st, hfree, hbegun⟩
        · exact ho.alone (hsame.symm.trans hu)
        · have hcons := hbegun.symm.trans hu
          cases mid with
          | nil =>
              obtain ⟨heq, rfl⟩ := List.cons.inj hcons
              obtain ⟨_, rfl, _⟩ := StateEvent.begun.inj heq
              exact ho.ended hr hfree
          | cons e mid => exact ho.alone (List.cons.inj hcons).2 }

/-- Orderly moves keep the server orderly. -/
theorem Moves.orderly (ha : Arena Module.HasName s) (hr : Recorded s) (ho : s.Orderly)
    (h : Moves Module.HasName True s t) : Recorded t ∧ t.Orderly := by
  induction h with
  | refl => exact ⟨hr, ho⟩
  | tail hbefore hmove ih =>
      obtain ⟨hr', ho'⟩ := ih
      have ha' := Moves.arena ha hbefore
      refine ⟨?_, hmove.orderly ha' hr' ho'⟩
      exact Steps.induction (fun _ _ ha hr hstep => hstep.recorded ha hr) ha' hr' (hmove.steps ha')

omit [StateStore σ] in
/-- A root that is there is the only one of its module, if the server is orderly later on. -/
theorem Server.Orderly.sole (ho : t.Orderly) (hr : Recorded s)
    {events since past : List StateEvent} (hevents : t.chronicle = events ++ s.chronicle)
    {root : HostId} {name : String} {state : Option Blob}
    (hchronicle : s.chronicle = since ++ .begun root name state :: past)
    (hlive : (s.host? root).isSome) : Sole name since past where
  begun := by
    intro id st hmem
    obtain ⟨later, earlier, rfl⟩ := List.append_of_mem hmem
    have ht : t.chronicle = events ++ later ++
        .begun id name st :: (earlier ++ .begun root name state :: past) := by
      rw [hevents, hchronicle]
      simp only [List.append_assoc, List.cons_append]
    -- the root would have ended before the other one began
    have hended := ho.alone ht root state (List.mem_append_right _ List.mem_cons_self)
    have hended' : .ended root ∈ s.chronicle := by
      rw [hchronicle, List.append_assoc]
      exact List.mem_append_right _ (List.mem_cons_of_mem _ hended)
    rw [(hr.ended hended').1] at hlive
    cases hlive
  ended := by
    have ht : t.chronicle = events ++ since ++ .begun root name state :: past := by
      rw [hevents, hchronicle, List.append_assoc]
    exact ho.alone ht
  misplaced := by
    intro k hmem
    apply ho.placed k (some name)
    rw [hevents, hchronicle]
    exact List.mem_append_right _ (List.mem_append_left _ hmem)

end

end ScriptHost
