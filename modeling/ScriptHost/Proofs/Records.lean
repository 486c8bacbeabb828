import Mathlib
import ScriptHost.Proofs.Arena
/-!
# What the chronicle knows

A root with a module is in the chronicle from its beginning on, and a host that has ended never
comes back.  All that is ever made of the store is in the chronicle too.

## Main statements

* `Step.places_or`: the steps in which hosts come or go, and the others.
* `Server.Recorded`, `Step.recorded`: what the chronicle says of roots.
* `Step.begins_or`, `Step.begun_cases`, `Steps.begun_split`, `Steps.begun_root`: when a root begins.
* `Steps.host?_of_lt`: numbers are not used again.
* `StateEvent.applyTo`, `Step.store_eq`: the store comes about by what is in the chronicle.
* `StateEvent.Fits`, `Step.fits`, `Steps.not_mem_of_gone`: what can be written down, and when.
-/

namespace ScriptHost

variable {σ β : Type} {suits : String → Module → Prop}

open Server

/-! ## Steps in which hosts come or go -/

/-- The hosts stay in their places, and what is remembered is that something else happened. -/
structure Server.StayInPlace (s t : Server σ β) : Prop where
  places : SamePlaces s t
  nextId : s.nextId ≤ t.nextId
  chronicle : ∃ events, t.chronicle = events ++ s.chronicle ∧ ∀ e ∈ events, ¬ e.ComesOrGoes

section

variable {s t : Server σ β}

theorem stayInPlace_of_chronicle_eq (hp : SamePlaces s t) (hnext : s.nextId ≤ t.nextId)
    (hchronicle : t.chronicle = s.chronicle) : StayInPlace s t :=
  ⟨hp, hnext, [], hchronicle, fun _ he => absurd he List.not_mem_nil⟩

/-- Something is written down, and all hosts stay in their places. -/
theorem stayInPlace_remember (s : Server σ β) {e : StateEvent} (he : ¬ e.ComesOrGoes) :
    StayInPlace s (s.remember e) where
  places _ := rfl
  nextId := le_rfl
  chronicle := ⟨[e], rfl, List.forall_mem_singleton.2 he⟩

/-- A window moves, and all hosts stay in their places. -/
theorem stayInPlace_setWindow (s : Server σ β) (id : HostId) (ticks : Nat) {e : StateEvent}
    (he : ¬ e.ComesOrGoes) : StayInPlace s (s.setWindow id ticks e) where
  places := samePlaces_setWindow s id ticks e
  nextId := le_rfl
  chronicle := ⟨[e], rfl, List.forall_mem_singleton.2 he⟩

variable [StateStore σ]

/-- A state is given to the store, and all hosts stay in their places. -/
theorem Server.StayInPlace.save (h : StayInPlace s t) (x : Host β) : StayInPlace s (t.save x) := by
  unfold Server.save
  split
  · exact h
  · obtain ⟨events, hevents, hnone⟩ := h.chronicle
    exact
      { places := h.places
        nextId := h.nextId
        chronicle := ⟨_ :: events, congrArg (List.cons _) hevents,
          List.forall_mem_cons.2 ⟨fun h => h, hnone⟩⟩ }

/-- In a step the hosts stay in their places, or a root begins, or the host of a user begins, or a
host goes with its family. -/
theorem Step.places_or (h : Step suits s t) :
    StayInPlace s t ∨
      (∃ module perUser sink, t = s.beginRoot module perUser (s.savedState module) sink) ∨
      (∃ root h user sink, s.host? root = some h ∧ h.users[user]? = none ∧
        t = s.beginUser root h user sink) ∨
      ∃ id h, t = s.discard id h := by
  cases h with
  | code h =>
      left
      rcases h.storage_or_silent with hstorage | ⟨_, _, hchronicle⟩
      · exact ⟨h.frame.samePlaces, le_of_eq h.frame.nextId.symm, hstorage.chronicle_eq⟩
      · exact stayInPlace_of_chronicle_eq h.frame.samePlaces (le_of_eq h.frame.nextId.symm)
          hchronicle
  | skipId => exact .inl (stayInPlace_of_chronicle_eq (fun _ => rfl) (Nat.le_succ _) rfl)
  | setStopped stop => exact .inl (stayInPlace_of_chronicle_eq (fun _ => rfl) le_rfl rfl)
  | setSink id f =>
      exact .inl (stayInPlace_of_chronicle_eq (samePlaces_modifyHost s id fun _ => rfl) le_rfl rfl)
  | eraseApp name => exact .inl (stayInPlace_of_chronicle_eq (fun _ => rfl) le_rfl rfl)
  | insertApp hh ho hm hsuits happ =>
      exact .inl (stayInPlace_of_chronicle_eq (fun _ => rfl) le_rfl rfl)
  | beginRoot module perUser sink => exact .inr (.inl ⟨module, perUser, sink, rfl⟩)
  | @beginUser root h user hh hu sink => exact .inr (.inr (.inl ⟨root, h, user, sink, hh, hu, rfl⟩))
  | @discard id h hh hid happ => exact .inr (.inr (.inr ⟨id, h, rfl⟩))
  | tickIdle hh hw => exact .inl (stayInPlace_remember s (e := .ticked _) fun h => h)
  | tickWait hh hw => exact .inl (stayInPlace_setWindow s _ _ (e := .ticked _) fun h => h)
  | tickSave hh hw =>
      exact .inl ((stayInPlace_setWindow s _ _ (e := .ticked _) fun h => h).save _)
  | closeIdle hh hw => exact .inl (stayInPlace_remember s (e := .closed _) fun h => h)
  | closeSave hh hw =>
      exact .inl ((stayInPlace_setWindow s _ _ (e := .closed _) fun h => h).save _)

end

/-! ## What the chronicle says of roots -/

namespace Server

/-- What the chronicle says of roots is true of a server. -/
structure Recorded (s : Server σ β) : Prop where
  begun_lt : ∀ {id : HostId} {name : String} {state : Option Blob},
    .begun id name state ∈ s.chronicle → id < s.nextId
  begun : ∀ {id : HostId} {h : Host β} {name : String}, s.host? id = some h → h.owner = none →
    h.name? = some name → ∃ state, .begun id name state ∈ s.chronicle
  ended : ∀ {id : HostId}, .ended id ∈ s.chronicle → s.host? id = none ∧ id < s.nextId
  live : ∀ {id : HostId} {name : String} {state : Option Blob}, .begun id name state ∈ s.chronicle →
    .ended id ∉ s.chronicle → ∃ h, s.host? id = some h ∧ h.owner = none ∧ h.name? = some name

variable {s t : Server σ β}

/-- A new server has only the host that belongs to no app. -/
theorem recorded_new (store : σ) (settings : Settings) :
    Recorded (new store settings : Server σ β) where
  begun_lt h := absurd h List.not_mem_nil
  begun := by
    intro id h name hh _ hn
    rw [(eq_of_host?_new hh).2] at hn
    cases hn
  ended h := absurd h List.not_mem_nil
  live h := absurd h List.not_mem_nil

theorem StayInPlace.recorded (hr : Recorded s) (h : StayInPlace s t) : Recorded t := by
  obtain ⟨events, hevents, hnone⟩ := h.chronicle
  have hold : ∀ {e : StateEvent}, e.ComesOrGoes → e ∈ t.chronicle → e ∈ s.chronicle := by
    intro e he hmem
    rw [hevents] at hmem
    exact (List.mem_append.1 hmem).resolve_left fun hmem => hnone e hmem he
  exact
    { begun_lt := fun hmem => lt_of_lt_of_le (hr.begun_lt (hold trivial hmem)) h.nextId
      begun := by
        intro id x name hx ho hn
        obtain ⟨y, hy, hplace⟩ := h.places.host? hx
        obtain ⟨state, hmem⟩ := hr.begun hy ((Host.owner_of_place_eq hplace).symm.trans ho)
          (by rw [← hn, Host.name?_of_place_eq hplace])
        refine ⟨state, ?_⟩
        rw [hevents]
        exact List.mem_append_right _ hmem
      ended := by
        intro id hmem
        obtain ⟨hgone, hlt⟩ := hr.ended (hold trivial hmem)
        refine ⟨?_, lt_of_lt_of_le hlt h.nextId⟩
        have hplace := h.places id
        rw [hgone, Option.map_none, Option.map_eq_none_iff] at hplace
        exact hplace
      live := by
        intro id name state hmem hnot
        have hnot' : .ended id ∉ s.chronicle := by
          intro hended
          rw [hevents] at hnot
          exact hnot (List.mem_append_right _ hended)
        obtain ⟨x, hx, ho, hn⟩ := hr.live (hold trivial hmem) hnot'
        obtain ⟨y, hy, hplace⟩ := h.places.symm.host? hx
        refine ⟨y, hy, (Host.owner_of_place_eq hplace).symm.trans ho, ?_⟩
        rw [← hn, Host.name?_of_place_eq hplace] }

/-- A root that begins is recorded, if it has a module. -/
theorem Recorded.beginRoot (hr : Recorded s) (module : Option Module) (perUser : Bool)
    (state : Option Blob) (sink : Option Actor) :
    Recorded (s.beginRoot module perUser state sink) := by
  have hcases : ∀ {e : StateEvent}, e ∈ (s.beginRoot module perUser state sink).chronicle →
      (∃ m, module = some m ∧ e = .begun s.nextId m.name state) ∨ e ∈ s.chronicle := by
    intro e he
    cases module with
    | none => exact .inr he
    | some m =>
        rcases List.mem_cons.1 he with rfl | he
        · exact .inl ⟨m, rfl, rfl⟩
        · exact .inr he
  exact
    { begun_lt := by
        intro id name st hmem
        rcases hcases hmem with ⟨m, _, heq⟩ | hold
        · obtain ⟨rfl, _⟩ := StateEvent.begun.inj heq
          exact Nat.lt_succ_self _
        · exact Nat.lt_succ_of_lt (hr.begun_lt hold)
      begun := by
        intro id x name hx ho hn
        rw [host?_beginRoot] at hx
        split at hx
        · rename_i hid
          subst hid
          obtain rfl := Option.some.inj hx
          obtain ⟨m, rfl, rfl⟩ := Option.map_eq_some_iff.1 hn
          exact ⟨state, List.mem_cons_self⟩
        · obtain ⟨st, hmem⟩ := hr.begun hx ho hn
          refine ⟨st, ?_⟩
          cases module with
          | none => exact hmem
          | some m => exact List.mem_cons_of_mem _ hmem
      ended := by
        intro id hmem
        rcases hcases hmem with ⟨m, _, heq⟩ | hold
        · cases heq
        · obtain ⟨hgone, hlt⟩ := hr.ended hold
          rw [host?_beginRoot, if_neg (Nat.ne_of_gt hlt)]
          exact ⟨hgone, Nat.lt_succ_of_lt hlt⟩
      live := by
        intro id name st hmem hnot
        rw [host?_beginRoot]
        rcases hcases hmem with ⟨m, rfl, heq⟩ | hold
        · obtain ⟨rfl, rfl, _⟩ := StateEvent.begun.inj heq
          exact ⟨_, if_pos rfl, rfl, rfl⟩
        · have hnot' : .ended id ∉ s.chronicle := by
            intro hended
            apply hnot
            cases module with
            | none => exact hended
            | some m => exact List.mem_cons_of_mem _ hended
          rw [if_neg (Nat.ne_of_gt (hr.begun_lt hold))]
          exact hr.live hold hnot' }

/-- The host of a user is no root. -/
theorem Recorded.beginUser (ha : Arena suits s) (hr : Recorded s) {root : HostId} {h : Host β}
    {user : String} (hh : s.host? root = some h) (hu : h.users[user]? = none) (sink : Actor) :
    Recorded (s.beginUser root h user sink) where
  begun_lt hmem := Nat.lt_succ_of_lt (hr.begun_lt hmem)
  begun := by
    intro id x name hx ho hn
    rcases ha.host?_of_host?_beginUser hh hx with ⟨_, rfl⟩ | ⟨y, hy, hxy, _⟩
    · cases ho
    · exact hr.begun hy (hxy.owner_eq.symm.trans ho) (hxy.name?_eq.symm.trans hn)
  ended := by
    intro id hmem
    obtain ⟨hgone, hlt⟩ := hr.ended hmem
    refine ⟨?_, Nat.lt_succ_of_lt hlt⟩
    have hroot : root ≠ id := by
      rintro rfl
      rw [hh] at hgone
      cases hgone
    rw [ha.host?_beginUser hh, if_neg hroot, if_neg (Nat.ne_of_gt hlt)]
    exact hgone
  live := by
    intro id name state hmem hnot
    obtain ⟨x, hx, ho, hn⟩ := hr.live hmem hnot
    obtain ⟨y, hy, hyx, _⟩ := ha.host?_beginUser_of_host? hh hu sink hx
    exact ⟨y, hy, hyx.owner_eq.trans ho, hyx.name?_eq.trans hn⟩

/-- The members of a family are live. -/
theorem isSome_of_mem_familyTo {depth : Nat} {id k : HostId} (hk : k ∈ s.familyTo depth id) :
    (s.host? k).isSome := by
  induction depth generalizing id with
  | zero => exact absurd hk List.not_mem_nil
  | succ depth ih =>
      obtain ⟨h, hh, ⟨c, _, hmem⟩ | rfl⟩ := mem_familyTo_succ.1 hk
      · exact ih hmem
      · rw [hh]
        rfl

/-- The end of a host and of its family is recorded. -/
theorem Recorded.discard (ha : Arena suits s) (hr : Recorded s) (id : HostId) (h : Host β) :
    Recorded (s.discard id h) := by
  have hnext : (s.discard id h).nextId = s.nextId := by rw [discard_eq]
  exact
    { begun_lt := by
        intro k name st hmem
        rw [chronicle_discard] at hmem
        rcases List.mem_append.1 hmem with hended | hold
        · obtain ⟨_, _, heq⟩ := List.mem_map.1 hended
          cases heq
        · rw [hnext]
          exact hr.begun_lt hold
      begun := by
        intro k x name hx ho hn
        obtain ⟨_, y, hy, hxy, _⟩ := host?_of_host?_discard hx
        obtain ⟨st, hmem⟩ := hr.begun hy (hxy.owner_eq.symm.trans ho) (hxy.name?_eq.symm.trans hn)
        rw [chronicle_discard]
        exact ⟨st, List.mem_append_right _ hmem⟩
      ended := by
        intro k hmem
        rw [chronicle_discard] at hmem
        rw [hnext, host?_discard]
        rcases List.mem_append.1 hmem with hended | hold
        · obtain ⟨_, hfamily, heq⟩ := List.mem_map.1 hended
          obtain rfl := StateEvent.ended.inj heq
          obtain ⟨x, hx⟩ := Option.isSome_iff_exists.1 (isSome_of_mem_familyTo hfamily)
          exact ⟨if_pos hfamily, ha.lt_nextId hx⟩
        · obtain ⟨hgone, hlt⟩ := hr.ended hold
          refine ⟨?_, hlt⟩
          rw [hgone, Option.map_none, ite_self]
      live := by
        intro k name st hmem hnot
        rw [chronicle_discard] at hmem hnot
        rcases List.mem_append.1 hmem with hended | hold
        · obtain ⟨_, _, heq⟩ := List.mem_map.1 hended
          cases heq
        · have hfamily : k ∉ s.family id := fun hk =>
            hnot (List.mem_append_left _ (List.mem_map.2 ⟨k, hk, rfl⟩))
          obtain ⟨x, hx, ho, hn⟩ := hr.live hold fun hmem => hnot (List.mem_append_right _ hmem)
          have hsame := x.sameButUsers_without k h.owner
          refine ⟨x.without k h.owner, host?_discard_of_not_mem hx hfamily, ?_, ?_⟩
          · exact hsame.owner_eq.trans ho
          · exact hsame.name?_eq.trans hn }

end Server

/-- Every step keeps what the chronicle says of roots true. -/
theorem Step.recorded [StateStore σ] {s t : Server σ β} (ha : Arena suits s) (hr : Recorded s)
    (h : Step suits s t) : Recorded t := by
  rcases h.places_or with
    hstay | ⟨module, perUser, sink, rfl⟩ | ⟨root, x, user, sink, hx, hu, rfl⟩ | ⟨id, x, rfl⟩
  · exact hstay.recorded hr
  · exact hr.beginRoot module perUser _ sink
  · exact hr.beginUser ha hx hu sink
  · exact hr.discard ha id x

/-! ## Roots in the chronicle -/

variable [StateStore σ] {s t : Server σ β}

/-- In a step a root with a module begins, or no root does. -/
theorem Step.begins_or (h : Step suits s t) :
    (∃ m perUser sink,
      t = s.beginRoot (some m) perUser (s.savedState (some m)) sink) ∨
      ∃ events, t.chronicle = events ++ s.chronicle ∧
        ∀ id name state, .begun id name state ∉ events := by
  rcases h.places_or with hstay | ⟨module, perUser, sink, rfl⟩ | ⟨root, x, user, sink, _, _, rfl⟩ |
    ⟨id, x, rfl⟩
  · obtain ⟨events, hevents, hnone⟩ := hstay.chronicle
    exact .inr ⟨events, hevents, fun _ _ _ hmem => hnone _ hmem trivial⟩
  · cases module with
    | none => exact .inr ⟨[], rfl, fun _ _ _ => List.not_mem_nil⟩
    | some m => exact .inl ⟨m, perUser, sink, rfl⟩
  · exact .inr ⟨[], rfl, fun _ _ _ => List.not_mem_nil⟩
  · refine .inr ⟨(s.family id).map .ended, chronicle_discard s id x, ?_⟩
    intro k name state hmem
    obtain ⟨_, _, heq⟩ := List.mem_map.1 hmem
    cases heq

/-- Numbers only grow. -/
theorem Step.nextId_le (h : Step suits s t) : s.nextId ≤ t.nextId := by
  rcases h.places_or with hstay | ⟨module, perUser, sink, rfl⟩ | ⟨root, x, user, sink, _, _, rfl⟩ |
    ⟨id, x, rfl⟩
  · exact hstay.nextId
  · exact Nat.le_succ _
  · exact Nat.le_succ _
  · rw [discard_eq]

/-- Numbers are not used again: a host with an old number has been there before, and was for the
same module and the same user. -/
theorem Step.host?_of_lt (ha : Arena suits s) (h : Step suits s t) {k : HostId}
    (hk : k < s.nextId) {x : Host β} (hx : t.host? k = some x) :
    ∃ y, s.host? k = some y ∧ x.owner = y.owner ∧ x.module = y.module := by
  rcases h.places_or with hstay | ⟨module, perUser, sink, rfl⟩ | ⟨root, z, user, sink, hz, _, rfl⟩ |
    ⟨id, z, rfl⟩
  · obtain ⟨y, hy, hplace⟩ := hstay.places.host? hx
    exact ⟨y, hy, Host.owner_of_place_eq hplace, Host.module_of_place_eq hplace⟩
  · rw [host?_beginRoot, if_neg (Nat.ne_of_gt hk)] at hx
    exact ⟨x, hx, rfl, rfl⟩
  · rcases ha.host?_of_host?_beginUser hz hx with ⟨rfl, _⟩ | ⟨y, hy, hxy, _⟩
    · exact absurd hk (lt_irrefl _)
    · exact ⟨y, hy, hxy.owner_eq, hxy.module_eq⟩
  · obtain ⟨_, y, hy, hxy, _⟩ := host?_of_host?_discard hx
    exact ⟨y, hy, hxy.owner_eq, hxy.module_eq⟩

/-- Numbers are not used again, after any number of steps. -/
theorem Steps.host?_of_lt (ha : Arena suits s) (h : Steps suits s t) {k : HostId}
    (hk : k < s.nextId) {x : Host β} (hx : t.host? k = some x) :
    ∃ y, s.host? k = some y ∧ x.owner = y.owner ∧ x.module = y.module := by
  have hall := Steps.induction (P := fun u => s.nextId ≤ u.nextId ∧
      ∀ x, u.host? k = some x →
        ∃ y, s.host? k = some y ∧ x.owner = y.owner ∧ x.module = y.module)
    (by
      rintro u v ha' ⟨hle, hold⟩ hstep
      refine ⟨hle.trans hstep.nextId_le, fun x hx => ?_⟩
      obtain ⟨y, hy, howner, hmodule⟩ := hstep.host?_of_lt ha' (hk.trans_le hle) hx
      obtain ⟨z, hz, howner', hmodule'⟩ := hold y hy
      exact ⟨z, hz, howner.trans howner', hmodule.trans hmodule'⟩)
    ha ⟨le_rfl, fun x hx => ⟨x, hx, rfl, rfl⟩⟩ h
  exact hall.2 x hx

theorem Steps.nextId_le (h : Steps suits s t) : s.nextId ≤ t.nextId := by
  induction h with
  | refl => exact le_rfl
  | tail _ hstep ih => exact ih.trans hstep.nextId_le

/-- What is in a list, but not in its first part, is in the second part. -/
theorem exists_append_of_not_mem {α : Type} {a : α} {later earlier since past : List α}
    (h : later ++ earlier = since ++ a :: past) (ha : a ∉ later) :
    ∃ mid, since = later ++ mid ∧ earlier = mid ++ a :: past := by
  rcases List.append_eq_append_iff.1 h with ⟨mid, hsince, hearlier⟩ | ⟨mid, hlater, hcons⟩
  · exact ⟨mid, hsince, hearlier⟩
  · cases mid with
    | nil =>
        rw [List.append_nil] at hlater
        exact ⟨[], by rw [hlater, List.append_nil], hcons.symm⟩
    | cons e mid =>
        obtain ⟨rfl, _⟩ := List.cons.inj hcons
        rw [hlater] at ha
        exact absurd (List.mem_append_right _ List.mem_cons_self) ha

/-- What is in a list, but not in its second part, is in the first part. -/
theorem exists_append_of_not_mem_right {α : Type} {a : α} {later earlier since past : List α}
    (h : later ++ earlier = since ++ a :: past) (ha : a ∉ earlier) :
    ∃ mid, later = since ++ a :: mid ∧ past = mid ++ earlier := by
  rcases List.append_eq_append_iff.1 h with ⟨mid, _, hearlier⟩ | ⟨mid, hlater, hcons⟩
  · rw [hearlier] at ha
    exact absurd (List.mem_append_right _ List.mem_cons_self) ha
  · cases mid with
    | nil =>
        rw [List.nil_append] at hcons
        rw [← hcons] at ha
        exact absurd List.mem_cons_self ha
    | cons e mid =>
        obtain ⟨rfl, hpast⟩ := List.cons.inj hcons
        exact ⟨mid, hlater, hpast⟩

/-- After a step the beginning of a root is found in the chronicle as the one thing that is new, or
with all that is new after it. -/
theorem Step.begun_cases (h : Step suits s t) {root : HostId} {name : String}
    {state : Option Blob} {since past : List StateEvent}
    (hchronicle : t.chronicle = since ++ .begun root name state :: past) :
    (since = [] ∧ past = s.chronicle ∧ root = s.nextId ∧ ∃ m perUser sink,
        name = m.name ∧ state = s.savedState (some m) ∧
          t = s.beginRoot (some m) perUser (s.savedState (some m)) sink) ∨
      ∃ events later, t.chronicle = events ++ s.chronicle ∧ since = events ++ later ∧
        s.chronicle = later ++ .begun root name state :: past := by
  rcases h.begins_or with ⟨m, perUser, sink, rfl⟩ | ⟨events, hevents, hnone⟩
  · have hbegun : (s.beginRoot (some m) perUser (s.savedState (some m)) sink).chronicle =
        .begun s.nextId m.name (s.savedState (some m)) :: s.chronicle := rfl
    rw [hbegun] at hchronicle
    cases since with
    | nil =>
        obtain ⟨heq, rfl⟩ := List.cons.inj hchronicle
        obtain ⟨rfl, rfl, rfl⟩ := StateEvent.begun.inj heq
        exact .inl ⟨rfl, rfl, rfl, m, perUser, sink, rfl, rfl, rfl⟩
    | cons e later =>
        obtain ⟨rfl, hs⟩ := List.cons.inj hchronicle
        exact .inr ⟨[_], later, hbegun, rfl, hs⟩
  · -- no root begins in the step, so its events all come after the beginning
    obtain ⟨later, hsince, hs⟩ :=
      exists_append_of_not_mem (hevents.symm.trans hchronicle) (hnone root name state)
    exact .inr ⟨events, later, hevents, hsince, hs⟩

/-- The beginning of a root that is there before some steps is found in the chronicle with all that
is new after it. -/
theorem Steps.begun_split (h : Steps suits s t) {root : HostId} {name : String}
    {state : Option Blob} {since past : List StateEvent} (hroot : root < s.nextId)
    (hchronicle : t.chronicle = since ++ .begun root name state :: past) :
    ∃ events later, t.chronicle = events ++ s.chronicle ∧ since = events ++ later ∧
      s.chronicle = later ++ .begun root name state :: past := by
  induction h generalizing since with
  | refl => exact ⟨[], since, rfl, rfl, hchronicle⟩
  | @tail u v hbefore hstep ih =>
      rcases hstep.begun_cases hchronicle with ⟨_, _, rfl, _⟩ | ⟨new, later, hnew, rfl, hu⟩
      · exact absurd (Steps.nextId_le hbefore) (Nat.not_le.2 hroot)
      · obtain ⟨events, earlier, hevents, rfl, hs⟩ := ih hu
        refine ⟨new ++ events, earlier, ?_, by rw [List.append_assoc], hs⟩
        rw [hnew, hevents, List.append_assoc]

/-- A root that is in the chronicle after some steps, and was not before, has begun on the way. -/
theorem Steps.begun_root (h : Steps suits s t) {id : HostId} {name : String} {state : Option Blob}
    {later between : List StateEvent}
    (hchronicle : t.chronicle = later ++ .begun id name state :: (between ++ s.chronicle)) :
    ∃ u m perUser sink, Steps suits s u ∧ u.chronicle = between ++ s.chronicle ∧ id = u.nextId ∧
      name = m.name ∧ state = u.savedState (some m) ∧
        Steps suits (u.beginRoot (some m) perUser (u.savedState (some m)) sink) t := by
  induction h generalizing later with
  | refl =>
      have hlength := congrArg List.length hchronicle
      simp only [List.length_append, List.length_cons] at hlength
      omega
  | @tail v w hbefore hstep ih =>
      rcases hstep.begun_cases hchronicle with
        ⟨_, hpast, hid, m, perUser, sink, hname, hstate, rfl⟩ | ⟨_, rest, _, _, hv⟩
      · exact ⟨v, m, perUser, sink, hbefore, hpast.symm, hid, hname, hstate, .refl⟩
      · obtain ⟨u, m, perUser, sink, hu, hchron, hid, hname, hstate, hrest⟩ := ih hv
        exact ⟨u, m, perUser, sink, hu, hchron, hid, hname, hstate, hrest.tail hstep⟩

/-! ## The store in the chronicle -/

/-- What an event makes of a store. -/
def StateEvent.applyTo : StateEvent → σ → σ
  | stored r key, a => r.apply key a
  | _, a => a

/-- Taking a state into memory makes nothing of a store. -/
theorem foldr_holdEvents (id : HostId) (h : Host β) (blob : Option Blob) (a : σ) :
    (holdEvents id h blob).foldr StateEvent.applyTo a = a := by
  unfold holdEvents
  cases h.isRoot <;> rfl

/-- The end of hosts makes nothing of a store. -/
theorem foldr_ended (ids : List HostId) (a : σ) :
    (ids.map StateEvent.ended).foldr StateEvent.applyTo a = a := by
  induction ids with
  | nil => rfl
  | cons id ids ih => exact ih

/-- What is written down when the state of a host is given to the store: a request on the slot of
its module, if it has one. -/
def Host.saveEvents (h : Host β) : List StateEvent :=
  match h.name? with
  | none => []
  | some name => [.stored (.ofState h.globalState) (.globalState name)]

theorem chronicle_save (s : Server σ β) (h : Host β) :
    (s.save h).chronicle = h.saveEvents ++ s.chronicle := by
  unfold Server.save Host.saveEvents
  cases h.name? <;> rfl

theorem store_save (s : Server σ β) (h : Host β) :
    (s.save h).store = h.saveEvents.foldr StateEvent.applyTo s.store := by
  unfold Server.save Host.saveEvents
  cases h.name? <;> rfl

/-- Code changes the store only by requests that are written down. -/
theorem StorageStep.store_eq {id : HostId} (h : StorageStep id s t) :
    ∃ events, t.chronicle = events ++ s.chronicle ∧
      t.store = events.foldr StateEvent.applyTo s.store := by
  cases h with
  | request hh r file kind shared hs => exact ⟨[_], rfl, rfl⟩
  | answer => exact ⟨[_], rfl, rfl⟩
  | @keep x n hh hn hw blob =>
      refine ⟨_ :: holdEvents (s.rootOf id) x blob, rfl, ?_⟩
      exact (foldr_holdEvents (s.rootOf id) x blob s.store).symm
  | @save x n hh hn hw blob hr =>
      refine ⟨_ :: _ :: holdEvents (s.rootOf id) x blob, rfl, ?_⟩
      exact congrArg ((StoreRequest.ofState blob).apply (.globalState n))
        (foldr_holdEvents (s.rootOf id) x blob s.store).symm
  | @refuse x n hh hn hw blob e hr =>
      refine ⟨_ :: holdEvents (s.rootOf id) x blob, rfl, ?_⟩
      exact congrArg ((StoreRequest.ofState blob).apply (.globalState n))
        (foldr_holdEvents (s.rootOf id) x blob s.store).symm

/-- Every step changes the store only by requests that are written down. -/
theorem Step.store_eq (h : Step suits s t) :
    ∃ events, t.chronicle = events ++ s.chronicle ∧
      t.store = events.foldr StateEvent.applyTo s.store := by
  have hsaved : ∀ (u : Server σ β) (e : StateEvent) (x : Host β), u.store = s.store →
      u.chronicle = e :: s.chronicle → (∀ a : σ, e.applyTo a = a) →
        ∃ events, (u.save x).chronicle = events ++ s.chronicle ∧
          (u.save x).store = events.foldr StateEvent.applyTo s.store := by
    intro u e x hstore hchronicle he
    refine ⟨x.saveEvents ++ [e], ?_, ?_⟩
    · rw [chronicle_save, hchronicle, List.append_assoc]
      rfl
    · rw [store_save, hstore, List.foldr_append, List.foldr_cons, List.foldr_nil, he]
  cases h with
  | code h =>
      rcases h.storage_or_silent with hstorage | ⟨_, hstore, hchronicle⟩
      · exact hstorage.store_eq
      · exact ⟨[], hchronicle, hstore⟩
  | beginRoot module perUser sink =>
      cases module with
      | none => exact ⟨[], rfl, rfl⟩
      | some m => exact ⟨[_], rfl, rfl⟩
  | @discard id h hh hid happ =>
      refine ⟨_, chronicle_discard s id h, ?_⟩
      rw [foldr_ended, discard_eq]
  | tickIdle hh hw => exact ⟨[_], rfl, rfl⟩
  | tickWait hh hw => exact ⟨[_], rfl, rfl⟩
  | closeIdle hh hw => exact ⟨[_], rfl, rfl⟩
  | tickSave hh hw => exact hsaved (s.setWindow _ 0 (.ticked _)) _ _ rfl rfl fun _ => rfl
  | closeSave hh hw => exact hsaved (s.setWindow _ 0 (.closed _)) _ _ rfl rfl fun _ => rfl
  | _ => exact ⟨[], rfl, rfl⟩

/-! ## What can be written down -/

/-- The event can come about in a step of a server. -/
def StateEvent.Fits (s : Server σ β) : StateEvent → Prop
  | .begun id _ _ => id = s.nextId
  | .ended id => (s.host? id).isSome
  | .misplaced id _ => ∃ c h, s.rootOf c = id ∧ s.host? id = some h ∧ h.owner ≠ none
  | .accepted id _ _ => (s.host? id).isSome
  | .stored _ key => ∀ n, key = .globalState n → ∃ c h, s.host? c = some h ∧ h.name? = some n
  | _ => True

omit [StateStore σ] in
theorem fits_holdEvents {c id : HostId} {h : Host β} (hc : s.rootOf c = id)
    (hh : s.host? id = some h) (blob : Option Blob) : ∀ e ∈ holdEvents id h blob, e.Fits s := by
  intro e he
  unfold holdEvents at he
  rcases List.mem_cons.1 he with rfl | he
  · trivial
  · split at he
    · exact absurd he List.not_mem_nil
    · rename_i hroot
      rw [List.mem_singleton.1 he]
      refine ⟨c, h, hc, hh, fun ho => hroot ?_⟩
      rw [Host.isRoot, ho]
      rfl

/-- What code writes down fits. -/
theorem StorageStep.fits {id : HostId} {events : List StateEvent} (h : StorageStep id s t)
    (hevents : t.chronicle = events ++ s.chronicle) : ∀ e ∈ events, e.Fits s := by
  have hread : ∀ es : List StateEvent, t.chronicle = es ++ s.chronicle → events = es :=
    fun _ hes => List.append_cancel_right (hevents.symm.trans hes)
  have hlive : ∀ {x : Host β} {n : String}, s.host? (s.rootOf id) = some x → x.name? = some n →
      ∀ k, ResourceKey.globalState n = .globalState k →
        ∃ c h, s.host? c = some h ∧ h.name? = some k := by
    intro x n hx hn k hkey
    exact ⟨_, x, hx, hn.trans (congrArg some (ResourceKey.globalState_inj.1 hkey))⟩
  cases h with
  | request hh r file kind shared hs =>
      rw [hread [_] rfl]
      refine List.forall_mem_singleton.2 fun n hkey => ?_
      exact absurd hkey (ResourceKey.resource_ne_globalState _ file kind shared n)
  | answer =>
      rw [hread [_] rfl]
      exact List.forall_mem_singleton.2 trivial
  | @keep x n hh hn hw blob =>
      rw [hread (_ :: holdEvents _ _ _) rfl]
      refine List.forall_mem_cons.2 ⟨?_, fits_holdEvents rfl hh blob⟩
      show (s.host? _).isSome
      rw [hh]
      rfl
  | @save x n hh hn hw blob hr =>
      rw [hread (_ :: _ :: holdEvents _ _ _) rfl]
      refine List.forall_mem_cons.2 ⟨?_, List.forall_mem_cons.2 ⟨hlive hh hn,
        fits_holdEvents rfl hh blob⟩⟩
      show (s.host? _).isSome
      rw [hh]
      rfl
  | @refuse x n hh hn hw blob e hr =>
      rw [hread (_ :: holdEvents _ _ _) rfl]
      exact List.forall_mem_cons.2 ⟨hlive hh hn, fits_holdEvents rfl hh blob⟩

/-- All that a step writes down fits. -/
theorem Step.fits {events : List StateEvent} (h : Step suits s t)
    (hevents : t.chronicle = events ++ s.chronicle) : ∀ e ∈ events, e.Fits s := by
  have hread : ∀ es : List StateEvent, t.chronicle = es ++ s.chronicle → events = es :=
    fun _ hes => List.append_cancel_right (hevents.symm.trans hes)
  have hnil : t.chronicle = s.chronicle → ∀ e ∈ events, e.Fits s := by
    intro hsame e he
    rw [hread [] hsame] at he
    exact absurd he List.not_mem_nil
  -- a window that is shut is written down, and then what the host saves
  have hsave : ∀ {c : HostId} {x : Host β} {w : StateEvent}, s.host? c = some x → w.Fits s →
      t = (s.setWindow c 0 w).save x → ∀ e ∈ events, e.Fits s := by
    rintro c x w hx hw rfl
    cases hn : x.name? with
    | none =>
        have hes : ((s.setWindow c 0 w).save x).chronicle = [w] ++ s.chronicle := by
          rw [save_of_name?_eq_none _ hn]
          rfl
        rw [hread _ hes]
        exact List.forall_mem_singleton.2 hw
    | some n =>
        have hes : ((s.setWindow c 0 w).save x).chronicle =
            [.stored (.ofState x.globalState) (.globalState n), w] ++ s.chronicle := by
          rw [save_of_name? _ hn]
          rfl
        rw [hread _ hes]
        refine List.forall_mem_cons.2 ⟨fun k hkey => ?_, List.forall_mem_singleton.2 hw⟩
        exact ⟨c, x, hx, hn.trans (congrArg some (ResourceKey.globalState_inj.1 hkey))⟩
  cases h with
  | code h =>
      rcases h.storage_or_silent with hstorage | ⟨_, _, hchronicle⟩
      · exact hstorage.fits hevents
      · exact hnil hchronicle
  | beginRoot module perUser sink =>
      cases module with
      | none => exact hnil rfl
      | some m =>
          rw [hread [_] rfl]
          exact List.forall_mem_singleton.2 rfl
  | @discard id h hh hid happ =>
      rw [hread _ (chronicle_discard s id h)]
      intro e he
      obtain ⟨k, hk, rfl⟩ := List.mem_map.1 he
      exact isSome_of_mem_familyTo hk
  | tickIdle hh hw =>
      rw [hread [_] rfl]
      exact List.forall_mem_singleton.2 trivial
  | tickWait hh hw =>
      rw [hread [_] rfl]
      exact List.forall_mem_singleton.2 trivial
  | closeIdle hh hw =>
      rw [hread [_] rfl]
      exact List.forall_mem_singleton.2 trivial
  | tickSave hh hw => exact hsave (w := .ticked _) hh trivial rfl
  | closeSave hh hw => exact hsave (w := .closed _) hh trivial rfl
  | _ => exact hnil rfl

/-- The chronicle only grows. -/
theorem Steps.chronicle_eq (h : Steps suits s t) :
    ∃ events, t.chronicle = events ++ s.chronicle := by
  induction h with
  | refl => exact ⟨[], rfl⟩
  | tail _ hstep ih =>
      obtain ⟨events, hevents⟩ := ih
      obtain ⟨later, hlater, _⟩ := hstep.store_eq
      exact ⟨later ++ events, by rw [hlater, hevents, List.append_assoc]⟩

/-- What steps write down fits one of the servers on the way. -/
theorem Steps.fits {events : List StateEvent} (h : Steps suits s t)
    (hevents : t.chronicle = events ++ s.chronicle) {e : StateEvent} (he : e ∈ events) :
    ∃ u, Steps suits s u ∧ e.Fits u := by
  induction h generalizing events with
  | refl =>
      obtain rfl : [] = events := List.append_cancel_right hevents
      exact absurd he List.not_mem_nil
  | @tail u v hbefore hstep ih =>
      obtain ⟨earlier, hearlier⟩ := Steps.chronicle_eq hbefore
      obtain ⟨later, hlater, _⟩ := hstep.store_eq
      have hsame : later ++ earlier ++ s.chronicle = events ++ s.chronicle := by
        rw [← hevents, hlater, hearlier, List.append_assoc]
      obtain rfl := List.append_cancel_right hsame
      rcases List.mem_append.1 he with he | he
      · exact ⟨u, hbefore, hstep.fits hlater e he⟩
      · exact ih hearlier he

/-- What only happens to a host that is there does not happen any more once it is gone. -/
theorem Steps.not_mem_of_gone (ha : Arena suits s) (h : Steps suits s t) {events : List StateEvent}
    (hevents : t.chronicle = events ++ s.chronicle) {id : HostId} (hid : id < s.nextId)
    (hgone : s.host? id = none) {e : StateEvent}
    (he : ∀ u : Server σ β, e.Fits u → (u.host? id).isSome) : e ∉ events := by
  intro hmem
  obtain ⟨u, hu, hfits⟩ := Steps.fits h hevents hmem
  obtain ⟨x, hx⟩ := Option.isSome_iff_exists.1 (he u hfits)
  obtain ⟨y, hy, _⟩ := Steps.host?_of_lt ha hu hid hx
  rw [hgone] at hy
  cases hy

end ScriptHost
