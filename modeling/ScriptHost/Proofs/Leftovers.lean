import Mathlib
import ScriptHost.Proofs.Faults
import ScriptHost.Proofs.Replacing
/-!
# What a failed load leaves in the store

The code of a new root may write global state before it fails.  The first state that is accepted is
saved at once and opens a window; the states after it stay in memory.  When the code fails the root
is discarded without being closed, and no tick has passed meanwhile, so the window is never shut and
what is in memory is lost.  Of the states that the code was told are accepted the slot of the module
keeps the first one, or the last one on a server without windows, where each state is saved at once.

## Main definitions

* `acceptedAt`: the states that were accepted at a root, latest first.
* `survivor`: which of them the slot keeps.
* `Underway`: where a root stands whose code is running for the first time.
* `Load`: the ways to load a module.

## Main statements

* `Underway.codeStep`, `Underway.codeSteps`: what one step of the code and any number of them keep.
* `leftover_of_reachable`: what a failed load leaves in the slot of the module.
* `earlier_state_left`: it may be neither the state from before nor the one that was accepted last.
-/

namespace ScriptHost

open Server ServerM FaultyStore

variable {σ β : Type}

/-! ## Accepted states -/

/-- The state that was accepted at a root, if that is what the event tells. -/
def StateEvent.acceptedAt? (root : HostId) : StateEvent → Option (Option Blob)
  | accepted id blob _ => if id = root then some blob else none
  | _ => none

/-- The states that were accepted at a root, latest first. -/
def acceptedAt (root : HostId) (events : List StateEvent) : List (Option Blob) :=
  events.filterMap (·.acceptedAt? root)

theorem acceptedAt_append (root : HostId) (later earlier : List StateEvent) :
    acceptedAt root (later ++ earlier) = acceptedAt root later ++ acceptedAt root earlier :=
  List.filterMap_append

theorem acceptedAt_cons_accepted (root : HostId) (blob : Option Blob) (left : Nat)
    (events : List StateEvent) :
    acceptedAt root (.accepted root blob left :: events) = blob :: acceptedAt root events := by
  have hblob : (StateEvent.accepted root blob left).acceptedAt? root = some blob := if_pos rfl
  exact List.filterMap_cons_some hblob

/-- Taking a state into memory is not yet accepting it. -/
theorem acceptedAt_holdEvents (root id : HostId) (h : Host β) (blob : Option Blob) :
    acceptedAt root (holdEvents id h blob) = [] := by
  unfold holdEvents
  cases h.isRoot <;> rfl

/-- No state is accepted by hosts that go. -/
theorem acceptedAt_ended (root : HostId) (ids : List HostId) :
    acceptedAt root (ids.map .ended) = [] := by
  induction ids with
  | nil => rfl
  | cons id ids ih => exact ih

/-- The state that was accepted last is the latest of those that were accepted. -/
theorem head?_acceptedAt (root : HostId) (state : Option Blob) (events : List StateEvent) :
    (acceptedAt root events).head?.getD state = lastAccepted root state events := by
  induction events with
  | nil => rfl
  | cons e events ih =>
      cases e with
      | accepted id blob left =>
          by_cases hid : id = root
          · subst hid
            rw [acceptedAt_cons_accepted, lastAccepted, if_pos rfl]
            rfl
          · have hnone : (StateEvent.accepted id blob left).acceptedAt? root = none := if_neg hid
            rw [lastAccepted, if_neg hid, ← ih, acceptedAt, List.filterMap_cons_none hnone]
            rfl
      | _ => exact ih

/-- What the slot of a module keeps of the states that were accepted, latest first, while the code
of a new root ran: the first one if there are windows, and the last one otherwise. -/
def survivor (window : Nat) (before : Option Blob) (accepted : List (Option Blob)) : Option Blob :=
  (if window = 0 then accepted.head? else accepted.getLast?).getD before

/-- A state that is saved survives: without windows, and if it is the first. -/
theorem survivor_cons_saved {window : Nat} {accepted : List (Option Blob)}
    (h : window = 0 ∨ accepted = []) (before blob : Option Blob) :
    survivor window before (blob :: accepted) = blob := by
  unfold survivor
  rcases h with rfl | rfl
  · rfl
  · split <;> rfl

/-- A state that is accepted within a window does not survive. -/
theorem survivor_cons_kept {window : Nat} {accepted : List (Option Blob)} (hwindow : window ≠ 0)
    (hfirst : accepted ≠ []) (before blob : Option Blob) :
    survivor window before (blob :: accepted) = survivor window before accepted := by
  obtain ⟨first, rest, rfl⟩ := List.exists_cons_of_ne_nil hfirst
  unfold survivor
  rw [if_neg hwindow, if_neg hwindow, List.getLast?_cons_cons]

/-! ## The code of a new root -/

variable [StateStore σ] [FaultyStore σ]

/-- Where a root stands whose code is running for the first time, by the states that were accepted
since, latest first: a window is open if there are any, and the slot has what survives of them. -/
structure Underway (root : HostId) (name : String) (window : Nat) (before : Option Blob)
    (s : Server σ β) (accepted : List (Option Blob)) : Prop where
  settings : s.settings.saveDebounceTicks = window
  live : ∃ h, s.host? root = some h ∧ h.owner = none ∧ h.name? = some name ∧
    h.saveTimeout = if accepted = [] then 0 else window
  slot : content s.store (.globalState name) = survivor window before accepted

namespace Underway

variable {root : HostId} {name : String} {window : Nat} {before : Option Blob} {s t : Server σ β}
  {accepted accepted' : List (Option Blob)}

/-- What code leaves as it was need not be looked at again: only the window and the slot. -/
theorem of_frame (hu : Underway root name window before s accepted) (hf : CodeFrame root s t)
    (state : Option Blob)
    (hheld : t.held root = some (state, if accepted' = [] then 0 else window))
    (hslot : content t.store (.globalState name) = survivor window before accepted') :
    Underway root name window before t accepted' where
  settings := by rw [hf.settings, hu.settings]
  live := by
    obtain ⟨h, hh, ho, hn, _⟩ := hu.live
    have hown := hf.own
    rw [hh, Option.map_some] at hown
    obtain ⟨x, hx, hshape⟩ := Option.map_eq_some_iff.1 hown
    have howner : x.shape.owner = h.shape.owner := by rw [hshape]
    have hname : x.shape.name? = h.shape.name? := by rw [hshape]
    exact ⟨x, hx, howner.trans ho, hname.trans hn, (eq_of_held hx hheld).2⟩
  slot := hslot

/-- A step that concerns neither the window nor the slot. -/
theorem of_held_eq (hu : Underway root name window before s accepted) (hf : CodeFrame root s t)
    (hheld : t.held root = s.held root)
    (hslot : content t.store (.globalState name) = content s.store (.globalState name)) :
    Underway root name window before t accepted := by
  obtain ⟨h, hh, _, _, hleft⟩ := hu.live
  have hbefore := held_of_host? hh
  rw [hleft] at hbefore
  exact hu.of_frame hf _ (hheld.trans hbefore) (hslot.trans hu.slot)

/-- A state that is given within the window is kept in memory, and does not survive. -/
theorem keep (hu : Underway root name window before s accepted) {h : Host β}
    (hh : s.host? root = some h) (hw : 0 < h.saveTimeout) (blob : Option Blob)
    (hf : CodeFrame root s ((s.hold root h blob).remember (.accepted root blob h.saveTimeout))) :
    Underway root name window before
      ((s.hold root h blob).remember (.accepted root blob h.saveTimeout)) (blob :: accepted) := by
  obtain ⟨x, hx, _, _, hleft⟩ := hu.live
  obtain rfl : h = x := Option.some.inj (hh.symm.trans hx)
  -- a window is open only after a state has been accepted, and only on a server with windows
  have hfirst : accepted ≠ [] := by
    rintro rfl
    rw [if_pos rfl] at hleft
    omega
  rw [if_neg hfirst] at hleft
  have hheld : (s.hold root h blob).held root = some (blob, h.saveTimeout) :=
    held_of_host? (host?_hold hh blob)
  refine hu.of_frame hf blob ?_ ?_
  · rw [if_neg (List.cons_ne_nil _ _), ← hleft]
    exact hheld
  · rw [survivor_cons_kept (by omega) hfirst]
    exact hu.slot

/-- Outside of a window nothing has been accepted yet, or nothing is ever kept in memory. -/
theorem eq_zero_or_eq_nil (hu : Underway root name window before s accepted) {h : Host β}
    (hh : s.host? root = some h) (hw : h.saveTimeout = 0) : window = 0 ∨ accepted = [] := by
  obtain ⟨x, hx, _, _, hleft⟩ := hu.live
  obtain rfl : h = x := Option.some.inj (hh.symm.trans hx)
  by_cases hfirst : accepted = []
  · exact .inr hfirst
  · rw [if_neg hfirst] at hleft
    exact .inl (hleft.symm.trans hw)

/-- A state that is given outside of a window is saved, and the window opens. -/
theorem save (hu : Underway root name window before s accepted) {h : Host β}
    (hh : s.host? root = some h) (hw : h.saveTimeout = 0) (blob : Option Blob)
    (hr : (StoreRequest.ofState blob).result (.globalState name) s.store = .ok ())
    (hf : CodeFrame root s ((((s.hold root h blob).request (.ofState blob)
      (.globalState name)).openWindow root).remember (.accepted root blob h.saveTimeout))) :
    Underway root name window before ((((s.hold root h blob).request (.ofState blob)
      (.globalState name)).openWindow root).remember (.accepted root blob h.saveTimeout))
      (blob :: accepted) := by
  have hhold : ((s.hold root h blob).request (.ofState blob) (.globalState name)).host? root =
      some (h.hold blob) := host?_hold hh blob
  have hheld := held_of_host? (host?_openWindow hhold)
  have hwindow : (((s.hold root h blob).request (.ofState blob)
      (.globalState name)).settings.saveDebounceTicks) = window := hu.settings
  rw [hwindow] at hheld
  refine hu.of_frame hf blob ?_ ?_
  · rw [if_neg (List.cons_ne_nil _ _)]
    exact hheld
  · rw [survivor_cons_saved (hu.eq_zero_or_eq_nil hh hw)]
    exact content_apply_ofState blob s.store _ hr

/-- A state that the store refuses is not accepted, and leaves the slot and the window alone. -/
theorem refuse (hu : Underway root name window before s accepted) {h : Host β}
    (hh : s.host? root = some h) (blob : Option Blob) {e : StoreError}
    (hr : (StoreRequest.ofState blob).result (.globalState name) s.store = .error e)
    (hf : CodeFrame root s ((s.hold root h blob).request (.ofState blob) (.globalState name))) :
    Underway root name window before
      ((s.hold root h blob).request (.ofState blob) (.globalState name)) accepted := by
  obtain ⟨x, hx, _, _, hleft⟩ := hu.live
  obtain rfl : h = x := Option.some.inj (hh.symm.trans hx)
  have hheld : (s.hold root h blob).held root = some (blob, h.saveTimeout) :=
    held_of_host? (host?_hold hh blob)
  refine hu.of_frame hf blob ?_ ?_
  · rw [← hleft]
    exact hheld
  · rw [← hu.slot]
    exact content_apply_of_error _ s.store _ e hr

/-- A step of the code that concerns the data of the app. -/
theorem storageStep (hu : Underway root name window before s accepted)
    (h : StorageStep root s t) :
    ∃ events, t.chronicle = events ++ s.chronicle ∧
      Underway root name window before t (acceptedAt root events ++ accepted) := by
  have hf := h.frame
  obtain ⟨x, hx, ho, hn, _⟩ := hu.live
  have hroot : s.rootOf root = root := rootOf_eq_self_of_owner_eq_none hx ho
  cases h with
  | @request k hk r file kind shared hs =>
      have hne := ResourceKey.resource_ne_globalState k.name? file kind shared name
      exact ⟨[.stored r (.resource k.name? file kind shared)], rfl,
        hu.of_held_eq hf rfl (content_apply_of_ne r s.store hne)⟩
  | answer =>
      exact ⟨[.answered (s.rootOf root) (s.stateSeenBy root)], rfl, hu.of_held_eq hf rfl rfl⟩
  | @keep k n hk hnk hw blob =>
      rw [hroot] at hk hf ⊢
      refine ⟨.accepted root blob k.saveTimeout :: holdEvents root k blob, rfl, ?_⟩
      rw [acceptedAt_cons_accepted, acceptedAt_holdEvents]
      exact hu.keep hk hw blob hf
  | @save k n hk hnk hw blob hr =>
      rw [hroot] at hk hf ⊢
      obtain rfl : k = x := Option.some.inj (hk.symm.trans hx)
      obtain rfl : n = name := Option.some.inj (hnk.symm.trans hn)
      refine ⟨.accepted root blob k.saveTimeout :: .stored (.ofState blob) (.globalState n) ::
        holdEvents root k blob, rfl, ?_⟩
      have hstored : acceptedAt root (.stored (.ofState blob) (.globalState n) ::
          holdEvents root k blob) = [] := acceptedAt_holdEvents root root k blob
      rw [acceptedAt_cons_accepted, hstored]
      exact hu.save hk hw blob hr hf
  | @refuse k n hk hnk hw blob e hr =>
      rw [hroot] at hk hf ⊢
      obtain rfl : k = x := Option.some.inj (hk.symm.trans hx)
      obtain rfl : n = name := Option.some.inj (hnk.symm.trans hn)
      refine ⟨.stored (.ofState blob) (.globalState n) :: holdEvents root k blob, rfl, ?_⟩
      have hstored : acceptedAt root (.stored (.ofState blob) (.globalState n) ::
          holdEvents root k blob) = [] := acceptedAt_holdEvents root root k blob
      rw [hstored]
      exact hu.refuse hk blob hr hf

/-- One step of the code. -/
theorem codeStep (hu : Underway root name window before s accepted) (h : CodeStep root s t) :
    ∃ events, t.chronicle = events ++ s.chronicle ∧
      Underway root name window before t (acceptedAt root events ++ accepted) := by
  rcases h.storage_or_silent with hstorage | ⟨hheld, hstore, hchronicle⟩
  · exact hu.storageStep hstorage
  · exact ⟨[], hchronicle, hu.of_held_eq h.frame (hheld root) (by rw [hstore])⟩

/-- Any number of steps of the code. -/
theorem codeSteps (hu : Underway root name window before s accepted) (h : CodeSteps root s t) :
    ∃ events, t.chronicle = events ++ s.chronicle ∧
      Underway root name window before t (acceptedAt root events ++ accepted) := by
  induction h with
  | refl => exact ⟨[], rfl, hu⟩
  | tail _ hstep ih =>
      obtain ⟨earlier, hearlier, hu'⟩ := ih
      obtain ⟨later, hlater, hu''⟩ := hu'.codeStep hstep
      refine ⟨later ++ earlier, by rw [hlater, hearlier, List.append_assoc], ?_⟩
      rw [acceptedAt_append, List.append_assoc]
      exact hu''

/-- At the beginning of a root nothing has been accepted and no window is open. -/
theorem of_beginRoot (s : Server σ β) (m : Module) (perUser : Bool) (state : Option Blob)
    (sink : Option Actor) :
    Underway s.nextId m.name s.settings.saveDebounceTicks
      (content s.store (.globalState m.name)) (s.beginRoot (some m) perUser state sink) [] where
  settings := rfl
  live := by
    refine ⟨s.newRoot (some m) perUser state sink, ?_, rfl, rfl, rfl⟩
    rw [host?_beginRoot, if_pos rfl]
  slot := by
    unfold survivor
    split <;> rfl

end Underway

/-! ## Loads -/

section

variable {co : Collaborators β} {suits : String → Module → Prop} {s : Server σ β} {m : Module}
  {load : ServerM σ β (Except ScriptError HostId)} {e : ScriptError}

omit [FaultyStore σ] in
/-- The ways to load a module: by making a root for it, and by the name of an app that is not
loaded. -/
inductive Load (co : Collaborators β) (s : Server σ β) :
    Module → ServerM σ β (Except ScriptError HostId) → Prop where
  | create (m : Module) (perUser : Bool) (actor : Actor) :
      Load co s m (createApplication co (some m) perUser actor)
  | add {m : Module} {name : String}
      (hm : (co.catalogue.find (Text.lowercase name) false).found = some m)
      (happ : s.app? (Text.lowercase name) = none) (actor : Actor) :
      Load co s m (addApp co name actor)

/-- What is left in the slot of a module after its load: what survives of the states that were
accepted at the new root. -/
def LeavesSurvivor (m : Module) (s t : Server σ β) (events : List StateEvent) : Prop :=
  t.chronicle = events ++ s.chronicle ∧
    content t.store (.globalState m.name) =
      survivor s.settings.saveDebounceTicks (content s.store (.globalState m.name))
        (acceptedAt s.nextId events)

/-- Where nothing but the journal has changed, nothing was accepted and the slot is as it was. -/
theorem leavesSurvivor_nil {t : Server σ β} (hchronicle : t.chronicle = s.chronicle)
    (hstore : t.store = s.store) : LeavesSurvivor m s t [] := by
  refine ⟨hchronicle, ?_⟩
  rw [hstore]
  unfold survivor
  split <;> rfl

/-- A root is discarded with its window open, and so the store keeps what survives. -/
theorem leavesSurvivor_discard {t : Server σ β} {perUser : Bool} {state : Option Blob}
    {sink : Option Actor}
    (hcode : CodeSteps s.nextId (s.beginRoot (some m) perUser state sink) t) :
    ∃ events, LeavesSurvivor m s ((ServerM.discard s.nextId).exec t) events := by
  obtain ⟨events, hevents, hu⟩ :=
    (Underway.of_beginRoot s m perUser state sink).codeSteps hcode
  obtain ⟨h, hh, _⟩ := hu.live
  rw [exec_discard hh]
  refine ⟨(t.family s.nextId).map .ended ++ (events ++ [.begun s.nextId m.name state]), ?_, ?_⟩
  · rw [chronicle_discard, hevents, List.append_assoc, List.append_assoc]
    rfl
  · have hbegun : acceptedAt s.nextId [.begun s.nextId m.name state] = [] := rfl
    rw [discard_eq, acceptedAt_append, acceptedAt_append, acceptedAt_ended, hbegun, List.nil_append]
    exact hu.slot

/-- A root that cannot be made leaves what survives. -/
theorem leavesSurvivor_createApplication (ha : Arena suits s) {perUser : Bool} {actor : Actor}
    (he : (createApplication co (some m) perUser actor).eval s = .error e) :
    ∃ events, LeavesSurvivor m s ((createApplication co (some m) perUser actor).exec s) events := by
  obtain ⟨t, ht, hcases⟩ := createApplication_cases co s m perUser actor
  -- a note is not part of the chronicle, and changes nothing that is spoken of
  obtain ⟨hat, hnext, hsame⟩ : Arena suits t ∧ t.nextId = s.nextId ∧
      ∀ u events, LeavesSurvivor m t u events → LeavesSurvivor m s u events := by
    have hidle : Idles suits s t := (Idles.refl s).noted ht
    refine ⟨Steps.arena ha hidle.steps, hidle.nextId, ?_⟩
    rcases ht with rfl | ⟨text, rfl⟩ <;> exact fun _ _ h => h
  rcases hcases with ⟨_, hexec⟩ | ⟨heval, hexec⟩
  · obtain ⟨journal, hjournal⟩ := exec_loadFailure co actor m.name .codeNotFound t.skipId
    rw [hexec, hjournal]
    exact ⟨[], hsame _ _ (leavesSurvivor_nil rfl rfl)⟩
  · rw [← hnext] at heval hexec
    obtain ⟨u, hu, ⟨hok, _⟩ | ⟨_, hdiscard⟩⟩ := start_cases co
      (hat.beginRoot (some m) perUser (t.savedState (some m)) (some actor)).keyed t.nextId m actor
    · rw [← heval, he] at hok
      cases hok
    · obtain ⟨events, hleaves⟩ := leavesSurvivor_discard hu
      rw [hexec, hdiscard]
      exact ⟨events, hsame _ _ hleaves⟩

/-- A load that has failed leaves what survives. -/
theorem Load.leavesSurvivor (ha : Arena suits s) (hload : Load co s m load)
    (he : load.eval s = .error e) : ∃ events, LeavesSurvivor m s (load.exec s) events := by
  cases hload with
  | create perUser actor => exact leavesSurvivor_createApplication ha he
  | @add name hm happ actor =>
      have hfound :
          (findModule co (Text.lowercase name) false : ServerM σ β _).eval s = some m := hm
      obtain ⟨w, hw⟩ : ∃ w, w = (findModule co (Text.lowercase name) false).exec s := ⟨_, rfl⟩
      obtain ⟨haw, hsame, happw⟩ : Arena suits w ∧
          (∀ u events, LeavesSurvivor m w u events → LeavesSurvivor m s u events) ∧
          w.app? (Text.lowercase name) = none := by
        rw [exec_findModule] at hw
        subst hw
        cases (co.catalogue.find (Text.lowercase name) false).warning with
        | none => exact ⟨ha, fun _ _ h => h, happ⟩
        | some text => exact ⟨(step_record s _).arena ha, fun _ _ h => h, happ⟩
      -- no app of the name is loaded, so none is unloaded
      have hremove : (removeApp co (Text.lowercase name)).exec w = w := by
        rcases removeApp_cases co haw (Text.lowercase name) with ⟨_, h⟩ | ⟨_, _, _, _, h, _⟩
        · exact h
        · rw [happw] at h
          cases h
      unfold addApp at he ⊢
      dsimp only at he ⊢
      rw [eval_bind, hfound, ← hw] at he
      rw [exec_bind, hfound, ← hw]
      dsimp only at he ⊢
      rw [eval_bind, hremove, eval_bind] at he
      rw [exec_bind, hremove, exec_bind]
      cases hmade : (createApplication co (some m) false actor).eval w with
      | error e' =>
          obtain ⟨events, hleaves⟩ := leavesSurvivor_createApplication haw hmade
          exact ⟨events, hsame _ _ hleaves⟩
      | ok id =>
          rw [hmade] at he
          cases he

end

/-- On every reachable server, whatever its window and whatever the code of the module writes before
it fails: a failed load leaves in the slot of the module the state that was accepted first, or last
if there are no windows, or the state from before if none was accepted.  So it leaves the state from
before or the one that was accepted last just if there are no windows, or if the state that was
accepted first is one of these. -/
theorem leftover_of_reachable {allowed : Catalogue → Prop} {s : Server σ β}
    (hs : Reachable allowed s) {co : Collaborators β} {m : Module}
    {load : ServerM σ β (Except ScriptError HostId)} (hload : Load co s m load) {e : ScriptError}
    (he : load.eval s = .error e) :
    ∃ events, (load.exec s).chronicle = events ++ s.chronicle ∧
      let window := s.settings.saveDebounceTicks
      let before := content s.store (.globalState m.name)
      let after := content (load.exec s).store (.globalState m.name)
      let first := (acceptedAt s.nextId events).getLast?.getD before
      let last := lastAccepted s.nextId before events
      after = (if window = 0 then last else first) ∧
        (after = before ∨ after = last ↔ window = 0 ∨ first = before ∨ first = last) := by
  have ha : Arena (fun _ _ => True) s := hs.arena fun _ _ _ _ _ => trivial
  obtain ⟨events, hchronicle, hslot⟩ := hload.leavesSurvivor ha he
  refine ⟨events, hchronicle, ?_⟩
  intro window before after first last
  have hafter : after = if window = 0 then last else first := by
    have hlast := head?_acceptedAt s.nextId before events
    refine hslot.trans ?_
    unfold survivor
    by_cases hw : window = 0
    · rw [if_pos hw, if_pos hw]
      exact hlast
    · rw [if_neg hw, if_neg hw]
  refine ⟨hafter, ?_⟩
  by_cases hw : window = 0
  · rw [if_pos hw] at hafter
    exact iff_of_true (.inr hafter) (.inl hw)
  · rw [if_neg hw] at hafter
    rw [hafter, or_iff_right hw]

/-- An evaluator for which the code of a module writes states, one after the other, and fails. -/
def writing (states : List String) : Evaluator Unit :=
  { Evaluator.always (.done (.ok .null)) with
    runModule := fun _ _ =>
      states.foldr (fun state rest => .ask (.writeState (some state.toUTF8)) fun _ => rest)
        (.done (.error (.runtime "closed"))) }

/-- The market writes a state and fails, and this state is left. -/
theorem leftover_market :
    let co := Collaborators.plain (writing ["a"]) marketCatalogue
    let s : Server FlakyMemory Unit :=
      .new { store := ∅, refusals := [] } { saveDebounceTicks := 2 }
    let load : ServerM FlakyMemory Unit _ := addApp co "Market" .server
    let m : Module := { name := "market", code := some "" }
    Reachable (fun _ => True) s ∧ Load co s m load ∧ (∃ e, load.eval s = .error e) ∧
      content (load.exec s).store (.globalState "market") = some "a".toUTF8 ∧
      ∃ events, (load.exec s).chronicle = events ++ s.chronicle ∧
        let window := s.settings.saveDebounceTicks
        let before := content s.store (.globalState m.name)
        let after := content (load.exec s).store (.globalState m.name)
        let first := (acceptedAt s.nextId events).getLast?.getD before
        let last := lastAccepted s.nextId before events
        after = (if window = 0 then last else first) ∧
          (after = before ∨ after = last ↔ window = 0 ∨ first = before ∨ first = last) := by
  intro co s load m
  have hs : Reachable (fun _ => True) s := .new _ _
  have hload : Load co s m load := .add (by decide +kernel) (by decide +kernel) .server
  obtain ⟨e, he⟩ : ∃ e, load.eval s = .error e := by
    have hfails : (load.eval s).toOption = none := by decide +kernel
    cases hanswer : load.eval s with
    | error e => exact ⟨e, rfl⟩
    | ok id =>
        rw [hanswer] at hfails
        cases hfails
  exact ⟨hs, hload, ⟨e, he⟩, by decide +kernel, leftover_of_reachable hs hload he⟩

/-- The market writes two states within one window and fails.  All requests to the store succeed,
and yet the slot is left with the state that was accepted first: neither nothing, as before, nor the
state that was accepted last. -/
theorem earlier_state_left :
    let co := Collaborators.plain (writing ["a", "b"]) marketCatalogue
    let s : Server MemoryStore Unit := .new ∅ { saveDebounceTicks := 2 }
    let load : ServerM MemoryStore Unit _ := addApp co "market" .server
    let t := load.exec s
    let slot := ResourceKey.globalState "market"
    Reachable (fun _ => True) s ∧ Load co s { name := "market", code := some "" } load ∧
      (load.eval s).toOption = none ∧ s.chronicle = [] ∧
      s.store.get? slot = none ∧ t.store.get? slot = some "a".toUTF8 ∧
      acceptedAt s.nextId t.chronicle = [some "b".toUTF8, some "a".toUTF8] ∧
      ¬ (t.store.get? slot = s.store.get? slot ∨
        t.store.get? slot = lastAccepted s.nextId (s.store.get? slot) t.chronicle) := by
  intro co s load t slot
  have hload : Load co s { name := "market", code := some "" } load :=
    .add (by decide +kernel) (by decide +kernel) .server
  exact ⟨.new _ _, hload, by decide +kernel, rfl, by decide +kernel, by decide +kernel,
    by decide +kernel, by decide +kernel⟩

end ScriptHost
