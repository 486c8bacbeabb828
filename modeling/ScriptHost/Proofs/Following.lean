import Mathlib
import ScriptHost.Proofs.Arena
import ScriptHost.Proofs.Window
/-!
# A root that follows the rules

The global state of an app whose root is the only one for its module, over a store that keeps its
keys apart and never fails.  Between the steps of a server the root follows the rules of
`Monitor.Replay`, and whenever no window is open the store holds what memory holds.

## Main statements

* `Follows`: how memory, window and store stand to the chronicle.
* `StorageStep.follows`: code keeps them in step.
* `Step.follows`: every step of a server keeps them in step.
-/

namespace ScriptHost

variable {σ β : Type} [StateStore σ] {suits : String → Module → Prop}

open Server

/-! ## Settings -/

omit [StateStore σ] in
theorem Server.settings_discard (s : Server σ β) (id : HostId) (h : Host β) :
    (s.discard id h).settings = s.settings := by
  rw [discard_eq]

theorem Server.settings_save (s : Server σ β) (h : Host β) : (s.save h).settings = s.settings := by
  rw [Server.save_eq]

/-! ## Following the rules -/

/-- Memory, window and store of a root stand as the events since its beginning say, and the other
hosts of its module are user hosts that hold no state. -/
structure Follows (root : HostId) (name : String) (state : Option Blob) (s : Server σ β)
    (since : List StateEvent) : Prop where
  live : ∃ h, s.host? root = some h ∧ h.owner = none ∧ h.name? = some name
  others : ∀ c x, s.host? c = some x → x.name? = some name → c ≠ root →
    x.owner ≠ none ∧ x.globalState = none ∧ x.saveTimeout = 0
  replay : ∃ v k, s.held root = some (v, k) ∧
    Monitor.Replay s.settings.saveDebounceTicks root (.globalState name) ⟨state, 0, .idle⟩ since
      ⟨v, k, .idle⟩ ∧
    (k = 0 → StateStore.read s.store (.globalState name) = .ok v)

section

variable {root : HostId} {name : String} {state : Option Blob} {s t : Server σ β}
  {since events : List StateEvent}

/-- The hosts stay in their places, and the root moves on by some events. -/
theorem Follows.of_replay (hf : Follows root name state s since) (hp : SamePlaces s t)
    (hsettings : t.settings = s.settings)
    (hothers : ∀ c x, s.host? c = some x → x.name? = some name → c ≠ root → t.held c = s.held c)
    (hroot : ∀ v k, s.held root = some (v, k) →
      (k = 0 → StateStore.read s.store (.globalState name) = .ok v) →
      ∃ v' k', t.held root = some (v', k') ∧
        Monitor.Replay s.settings.saveDebounceTicks root (.globalState name) ⟨v, k, .idle⟩ events
          ⟨v', k', .idle⟩ ∧
        (k' = 0 → StateStore.read t.store (.globalState name) = .ok v')) :
    Follows root name state t (events ++ since) where
  live := by
    obtain ⟨h, hh, ho, hn⟩ := hf.live
    obtain ⟨x, hx, hplace⟩ := hp.symm.host? hh
    refine ⟨x, hx, (Host.owner_of_place_eq hplace).symm.trans ho, ?_⟩
    rw [← hn, Host.name?_of_place_eq hplace]
  others := by
    intro c x hx hn hc
    obtain ⟨y, hy, hplace⟩ := hp.host? hx
    have hny : y.name? = some name := by
      rw [← hn, Host.name?_of_place_eq hplace]
    obtain ⟨ho, hstate, hleft⟩ := hf.others c y hy hny hc
    have hheld := hothers c y hy hny hc
    rw [held_of_host? hx, held_of_host? hy] at hheld
    obtain ⟨hstate', hleft'⟩ := Prod.mk.inj (Option.some.inj hheld)
    rw [Host.owner_of_place_eq hplace, hstate', hleft']
    exact ⟨ho, hstate, hleft⟩
  replay := by
    obtain ⟨v, k, hheld, hreplay, hread⟩ := hf.replay
    obtain ⟨v', k', hheld', hreplay', hread'⟩ := hroot v k hheld hread
    rw [hsettings]
    exact ⟨v', k', hheld', hreplay.append hreplay', hread'⟩

/-- The hosts stay in their places, and the events have nothing to do with the root. -/
theorem Follows.of_others (hf : Follows root name state s since) (hp : SamePlaces s t)
    (hsettings : t.settings = s.settings)
    (hheld : ∀ c x, s.host? c = some x → x.name? = some name → t.held c = s.held c)
    (hread : StateStore.read t.store (.globalState name) =
      StateStore.read s.store (.globalState name))
    (hevents : ∀ e ∈ events, ¬ e.Concerns root (.globalState name)) :
    Follows root name state t (events ++ since) := by
  apply hf.of_replay hp hsettings fun c x hx hn _ => hheld c x hx hn
  intro v k hv hstored
  obtain ⟨h, hh, _, hn⟩ := hf.live
  refine ⟨v, k, ?_, .others hevents, ?_⟩
  · rw [hheld root h hh hn, hv]
  · rw [hread]
    exact hstored

/-- The hosts stay in their places, and no state, no data and no event is new. -/
theorem Follows.of_silent (hf : Follows root name state s since) (hp : SamePlaces s t)
    (hsettings : t.settings = s.settings) (hheld : ∀ c, t.held c = s.held c)
    (hstore : t.store = s.store) : Follows root name state t since := by
  have hnone : ∀ e ∈ ([] : List StateEvent), ¬ e.Concerns root (.globalState name) :=
    fun e he => absurd he List.not_mem_nil
  refine hf.of_others hp hsettings (fun c _ _ _ => hheld c) ?_ hnone
  rw [hstore]

/-! ## Code -/

omit [StateStore σ] in
/-- What another host takes into memory has nothing to do with the root. -/
theorem not_concerns_holdEvents {k : HostId} (hk : k ≠ root) (h : Host β) (blob : Option Blob)
    (slot : ResourceKey) : ∀ e ∈ holdEvents k h blob, ¬ e.Concerns root slot := by
  intro e he
  unfold holdEvents at he
  rcases List.mem_cons.1 he with rfl | he
  · exact hk
  · split at he
    · exact absurd he List.not_mem_nil
    · rw [List.mem_singleton.1 he]
      exact id

/-- Of the hosts of the module only the root takes a state into memory, unless one is misplaced. -/
theorem Follows.eq_root (hf : Follows root name state s since) {k : HostId} {x : Host β}
    {blob : Option Blob} (hx : s.host? k = some x) (hn : x.name? = some name)
    (hmis : .misplaced k (some name) ∉ holdEvents k x blob) : k = root := by
  by_contra hk
  obtain ⟨ho, _⟩ := hf.others k x hx hn hk
  apply hmis
  rw [← hn]
  exact misplaced_mem_holdEvents ho k blob

omit [StateStore σ] in
/-- Hosts of different modules are different. -/
theorem ne_of_name? {k c : HostId} {x y : Host β} {n : String} (hx : s.host? k = some x)
    (hy : s.host? c = some y) (hnx : x.name? = some n) (hny : y.name? = some name)
    (hne : n ≠ name) : k ≠ c := by
  rintro rfl
  obtain rfl : x = y := Option.some.inj (hx.symm.trans hy)
  exact hne (Option.some.inj (hnx.symm.trans hny))

theorem Follows.ne_root (hf : Follows root name state s since) {k : HostId} {x : Host β}
    {n : String} (hx : s.host? k = some x) (hn : x.name? = some n) (hne : n ≠ name) :
    k ≠ root := by
  obtain ⟨h, hh, _, hname⟩ := hf.live
  exact ne_of_name? hx hh hn hname hne

/-- The root itself is not misplaced. -/
theorem Follows.holdEvents_eq (hf : Follows root name state s since) {x : Host β}
    {blob : Option Blob} (hx : s.host? root = some x) :
    holdEvents root x blob = [.replaced root blob x.saveTimeout] := by
  obtain ⟨h, hh, ho, _⟩ := hf.live
  obtain rfl : x = h := Option.some.inj (hx.symm.trans hh)
  simp [holdEvents, Host.isRoot, ho]

/-- The store is asked about a resource. -/
theorem Follows.requestResource [IndependentKeys σ] (hf : Follows root name state s since)
    (r : StoreRequest) (module : Option String) (file : String) (kind : ResourceKind)
    (shared : Bool) :
    Follows root name state (s.request r (.resource module file kind shared))
      ([.stored r (.resource module file kind shared)] ++ since) := by
  have hne := ResourceKey.resource_ne_globalState module file kind shared name
  refine hf.of_others (t := s.request r _) (fun _ => rfl) rfl (fun _ _ _ _ => rfl) ?_ ?_
  · exact r.read_apply_of_ne _ hne
  · intro e he
    rw [List.mem_singleton.1 he]
    exact hne

/-- Global state is read. -/
theorem Follows.answer (hf : Follows root name state s since) (id : HostId) :
    Follows root name state (s.remember (.answered (s.rootOf id) (s.stateSeenBy id)))
      ([.answered (s.rootOf id) (s.stateSeenBy id)] ++ since) := by
  by_cases hk : s.rootOf id = root
  · refine hf.of_replay (t := s.remember _) (fun _ => rfl) rfl (fun _ _ _ _ _ => rfl) ?_
    intro v k hv hread
    have hseen : s.stateSeenBy id = v := by
      obtain ⟨x, hx, hxv⟩ := Option.map_eq_some_iff.1 hv
      rw [Server.stateSeenBy, hk, hx]
      exact congrArg Prod.fst hxv
    rw [hk, hseen]
    exact ⟨v, k, hv, Monitor.Replay.nil.cons .answer, hread⟩
  · refine hf.of_others (t := s.remember _) (fun _ => rfl) rfl (fun _ _ _ _ => rfl) rfl ?_
    intro e he
    rw [List.mem_singleton.1 he]
    exact hk

/-- A state is accepted while a window is open, and stays in memory. -/
theorem Follows.keep (hf : Follows root name state s since) {k : HostId} {x : Host β} {n : String}
    (hx : s.host? k = some x) (hn : x.name? = some n) (hw : 0 < x.saveTimeout)
    (blob : Option Blob) (hmis : .misplaced k (some name) ∉ holdEvents k x blob) :
    Follows root name state ((s.hold k x blob).remember (.accepted k blob x.saveTimeout))
      (.accepted k blob x.saveTimeout :: holdEvents k x blob ++ since) := by
  have hplaces := samePlaces_hold s k x blob
  by_cases hname : n = name
  · subst hname
    obtain rfl := hf.eq_root hx hn hmis
    rw [hf.holdEvents_eq hx]
    refine hf.of_replay (t := (s.hold k x blob).remember _) hplaces rfl
      (fun c _ _ _ hc => held_hold_of_ne (Ne.symm hc) x blob) ?_
    intro v j hv _
    obtain ⟨rfl, rfl⟩ := eq_of_held hx hv
    refine ⟨blob, x.saveTimeout, held_of_host? (host?_hold hx blob), ?_, ?_⟩
    · exact (Monitor.Replay.nil.cons (.hold hw)).cons .accept
    · intro hzero
      omega
  · have hne := hf.ne_root hx hn hname
    refine hf.of_others (t := (s.hold k x blob).remember _) hplaces rfl
      (fun c y hy hny => held_hold_of_ne (ne_of_name? hx hy hn hny hname) x blob) rfl ?_
    intro e he
    rcases List.mem_cons.1 he with rfl | he
    · exact hne
    · exact not_concerns_holdEvents hne x blob _ e he

/-- A state is accepted outside of a window: it is saved at once, and a window opens. -/
theorem Follows.saveNow [ReliableStore σ] (hf : Follows root name state s since) {k : HostId}
    {x : Host β} {n : String} (hx : s.host? k = some x) (hn : x.name? = some n)
    (hw : x.saveTimeout = 0) (blob : Option Blob)
    (hmis : .misplaced k (some name) ∉ holdEvents k x blob) :
    Follows root name state ((((s.hold k x blob).request (.ofState blob)
        (.globalState n)).openWindow k).remember (.accepted k blob x.saveTimeout))
      (.accepted k blob x.saveTimeout :: .stored (.ofState blob) (.globalState n) ::
        holdEvents k x blob ++ since) := by
  have hplaces : SamePlaces s
      (((s.hold k x blob).request (.ofState blob) (.globalState n)).openWindow k) :=
    (samePlaces_hold s k x blob).trans (samePlaces_openWindow _ k)
  -- only the host itself is concerned, by the state and by the window
  have hheld : ∀ c, k ≠ c →
      (((s.hold k x blob).request (.ofState blob) (.globalState n)).openWindow k).held c =
        s.held c :=
    fun c hc => (held_openWindow_of_ne hc).trans (held_hold_of_ne hc x blob)
  by_cases hname : n = name
  · subst hname
    obtain rfl := hf.eq_root hx hn hmis
    rw [hf.holdEvents_eq hx]
    refine hf.of_replay (t := (((s.hold k x blob).request (.ofState blob)
      (.globalState n)).openWindow k).remember _) hplaces rfl
        (fun c _ _ _ hc => hheld c (Ne.symm hc)) ?_
    intro v j hv _
    obtain ⟨rfl, rfl⟩ := eq_of_held hx hv
    have hopen : (((s.hold k x blob).request (.ofState blob)
        (.globalState n)).openWindow k).host? k =
        some ((x.hold blob).setTimeout s.settings.saveDebounceTicks) :=
      host?_openWindow (host?_hold hx blob)
    refine ⟨blob, s.settings.saveDebounceTicks, held_of_host? hopen, ?_, ?_⟩
    · rw [hw]
      exact ((Monitor.Replay.nil.cons .replace).cons .save).cons .settle
    · intro _
      exact StoreRequest.read_apply_ofState blob _ _
  · have hne := hf.ne_root hx hn hname
    have hslot : ResourceKey.globalState n ≠ .globalState name :=
      fun hkey => hname (ResourceKey.globalState_inj.1 hkey)
    refine hf.of_others (t := (((s.hold k x blob).request (.ofState blob)
      (.globalState n)).openWindow k).remember _) hplaces rfl
        (fun c y hy hny => hheld c (ne_of_name? hx hy hn hny hname)) ?_ ?_
    · exact StoreRequest.read_apply_of_ne _ _ hslot
    · intro e he
      rcases List.mem_cons.1 he with rfl | he
      · exact hne
      · rcases List.mem_cons.1 he with rfl | he
        · exact hslot
        · exact not_concerns_holdEvents hne x blob _ e he

/-- Code that concerns the data of an app keeps memory, window and store in step. -/
theorem StorageStep.follows [ReliableStore σ] {id : HostId}
    (hf : Follows root name state s since) (h : StorageStep id s t)
    (hevents : t.chronicle = events ++ s.chronicle)
    (hmis : ∀ k, .misplaced k (some name) ∉ events) :
    Follows root name state t (events ++ since) := by
  cases h with
  | @request x hx r file kind shared hs =>
      obtain rfl : [.stored r (.resource x.name? file kind shared)] = events :=
        List.append_cancel_right hevents
      exact hf.requestResource r x.name? file kind shared
  | answer =>
      obtain rfl : [.answered (s.rootOf id) (s.stateSeenBy id)] = events :=
        List.append_cancel_right hevents
      exact hf.answer id
  | @keep x n hx hn hw blob =>
      obtain rfl : .accepted (s.rootOf id) blob x.saveTimeout :: holdEvents (s.rootOf id) x blob =
          events := List.append_cancel_right hevents
      exact hf.keep hx hn hw blob fun hmem => hmis _ (List.mem_cons_of_mem _ hmem)
  | @save x n hx hn hw blob hr =>
      obtain rfl : .accepted (s.rootOf id) blob x.saveTimeout ::
          .stored (.ofState blob) (.globalState n) :: holdEvents (s.rootOf id) x blob = events :=
        List.append_cancel_right hevents
      exact hf.saveNow hx hn hw blob fun hmem =>
        hmis _ (List.mem_cons_of_mem _ (List.mem_cons_of_mem _ hmem))
  | refuse hh hn hw blob hr =>
      -- a reliable store refuses nothing
      rw [StoreRequest.result_eq_ok] at hr
      cases hr

/-! ## Windows -/

/-- Only the root has a window among the hosts of its module. -/
theorem Follows.name?_ne (hf : Follows root name state s since) {c : HostId} {h : Host β}
    (hh : s.host? c = some h) (hw : 0 < h.saveTimeout) (hc : c ≠ root) : h.name? ≠ some name := by
  intro hn
  obtain ⟨_, _, hleft⟩ := hf.others c h hh hn hc
  omega

/-- The window of another host is moved. -/
theorem Follows.setWindow_other (hf : Follows root name state s since) {c : HostId} {h : Host β}
    (hh : s.host? c = some h) (hw : 0 < h.saveTimeout) (hc : c ≠ root) {e : StateEvent}
    (he : ¬ e.Concerns root (.globalState name)) (ticks : Nat) :
    Follows root name state (s.setWindow c ticks e) ([e] ++ since) := by
  apply hf.of_others (samePlaces_setWindow s c ticks e) rfl _ rfl
  · intro d hd
    rw [List.mem_singleton.1 hd]
    exact he
  · intro d x hx hn
    have hcd : c ≠ d := by
      rintro rfl
      obtain rfl : h = x := Option.some.inj (hh.symm.trans hx)
      exact hf.name?_ne hh hw hc hn
    exact held_setWindow_of_ne hcd ticks e

/-- The state of a host of another module is given to the store. -/
theorem Follows.save_other [ReliableStore σ] (hf : Follows root name state s since) {h : Host β}
    (hn : h.name? ≠ some name) :
    ∃ es, (s.save h).chronicle = es ++ s.chronicle ∧
      Follows root name state (s.save h) (es ++ since) := by
  cases hname : h.name? with
  | none =>
      rw [save_of_name?_eq_none s hname]
      exact ⟨[], rfl, hf⟩
  | some n =>
      have hslot : ResourceKey.globalState n ≠ .globalState name := by
        intro hkey
        exact hn (hname.trans (congrArg some (ResourceKey.globalState_inj.1 hkey)))
      rw [save_of_name? s hname]
      refine ⟨[.stored (.ofState h.globalState) (.globalState n)], rfl, ?_⟩
      apply hf.of_others (t := s.request (.ofState h.globalState) (.globalState n)) (fun _ => rfl)
        rfl fun _ _ _ _ => rfl
      · exact StoreRequest.read_apply_of_ne _ _ hslot
      · intro e he
        rw [List.mem_singleton.1 he]
        exact hslot

/-- The window of the root is moved, and stays open. -/
theorem Follows.setWindow_root (hf : Follows root name state s since) {h : Host β}
    (hh : s.host? root = some h) {e : StateEvent} {ticks : Nat} (hticks : 0 < ticks)
    (hnext : Monitor.Next s.settings.saveDebounceTicks root (.globalState name)
      ⟨h.globalState, h.saveTimeout, .idle⟩ e ⟨h.globalState, ticks, .idle⟩) :
    Follows root name state (s.setWindow root ticks e) ([e] ++ since) := by
  apply hf.of_replay (samePlaces_setWindow s root ticks e) rfl
    fun c _ _ _ hc => held_setWindow_of_ne (Ne.symm hc) ticks e
  intro v k hv _
  obtain ⟨rfl, rfl⟩ := eq_of_held hh hv
  refine ⟨h.globalState, ticks, held_of_host? (host?_setWindow hh ticks e),
    Monitor.Replay.nil.cons hnext, ?_⟩
  intro hzero
  omega

/-- The window of the root is closed, and its state is given to the store. -/
theorem Follows.save_root [ReliableStore σ] (hf : Follows root name state s since) {h : Host β}
    (hh : s.host? root = some h) {e : StateEvent}
    (hnext : Monitor.Next s.settings.saveDebounceTicks root (.globalState name)
      ⟨h.globalState, h.saveTimeout, .idle⟩ e ⟨h.globalState, 0, .due⟩) :
    Follows root name state ((s.setWindow root 0 e).save h)
      ([.stored (.ofState h.globalState) (.globalState name), e] ++ since) := by
  have hn : h.name? = some name := by
    obtain ⟨x, hx, _, hn⟩ := hf.live
    obtain rfl : h = x := Option.some.inj (hh.symm.trans hx)
    exact hn
  have hplaces : SamePlaces s ((s.setWindow root 0 e).save h) :=
    (samePlaces_setWindow s root 0 e).trans (samePlaces_save _ h)
  apply hf.of_replay hplaces (settings_save _ _)
  · intro c _ _ _ hc
    rw [held_save]
    exact held_setWindow_of_ne (Ne.symm hc) 0 e
  · intro v k hv _
    obtain ⟨rfl, rfl⟩ := eq_of_held hh hv
    refine ⟨h.globalState, 0, ?_, (Monitor.Replay.nil.cons hnext).cons .flush, ?_⟩
    · rw [held_save]
      exact held_of_host? (host?_setWindow hh 0 e)
    · intro _
      rw [save_of_name? _ hn]
      exact StoreRequest.read_apply_ofState h.globalState _ _

/-- Something happens to a host that leaves its window as it is. -/
theorem Follows.remember (hf : Follows root name state s since) {c : HostId} {h : Host β}
    (hh : s.host? c = some h) {e : StateEvent}
    (hroot : c = root → Monitor.Next s.settings.saveDebounceTicks root (.globalState name)
      ⟨h.globalState, h.saveTimeout, .idle⟩ e ⟨h.globalState, h.saveTimeout, .idle⟩)
    (hother : c ≠ root → ¬ e.Concerns root (.globalState name)) :
    Follows root name state (s.remember e) ([e] ++ since) := by
  by_cases hc : c = root
  · have hnext := hroot hc
    subst hc
    refine hf.of_replay (t := s.remember e) (fun _ => rfl) rfl (fun _ _ _ _ _ => rfl) ?_
    intro v k hv hread
    obtain ⟨rfl, rfl⟩ := eq_of_held hh hv
    exact ⟨h.globalState, h.saveTimeout, hv, Monitor.Replay.nil.cons hnext, hread⟩
  · refine hf.of_others (t := s.remember e) (fun _ => rfl) rfl (fun _ _ _ _ => rfl) rfl ?_
    intro d hd
    rw [List.mem_singleton.1 hd]
    exact hother hc

/-- The window of a host is closed, and its state is given to the store. -/
theorem Follows.save [ReliableStore σ] (hf : Follows root name state s since) {c : HostId}
    {h : Host β} (hh : s.host? c = some h) (hw : 0 < h.saveTimeout) {e : StateEvent}
    (hroot : c = root → Monitor.Next s.settings.saveDebounceTicks root (.globalState name)
      ⟨h.globalState, h.saveTimeout, .idle⟩ e ⟨h.globalState, 0, .due⟩)
    (hother : c ≠ root → ¬ e.Concerns root (.globalState name)) :
    ∃ es, ((s.setWindow c 0 e).save h).chronicle = es ++ s.chronicle ∧
      Follows root name state ((s.setWindow c 0 e).save h) (es ++ since) := by
  by_cases hc : c = root
  · have hnext := hroot hc
    subst hc
    refine ⟨_, ?_, hf.save_root hh hnext⟩
    obtain ⟨x, hx, _, hn⟩ := hf.live
    obtain rfl : h = x := Option.some.inj (hh.symm.trans hx)
    rw [save_of_name? _ hn]
    rfl
  · have hmoved := hf.setWindow_other hh hw hc (hother hc) 0
    obtain ⟨es, hes, hsaved⟩ := hmoved.save_other (hf.name?_ne hh hw hc)
    refine ⟨es ++ [e], ?_, ?_⟩
    · rw [hes, List.append_assoc]
      rfl
    · rw [List.append_assoc]
      exact hsaved

/-! ## Hosts come and go -/

/-- Hosts come and go, and those of the module that stay differ in their users at most. -/
theorem Follows.of_users (hf : Follows root name state s since)
    (hsettings : t.settings = s.settings) (hstore : t.store = s.store)
    (hroot : ∀ h, s.host? root = some h → ∃ x, t.host? root = some x ∧ x.SameButUsers h)
    (hothers : ∀ c x, t.host? c = some x → x.name? = some name → c ≠ root →
      (x.owner ≠ none ∧ x.globalState = none ∧ x.saveTimeout = 0) ∨
        ∃ y, s.host? c = some y ∧ x.SameButUsers y)
    (hevents : ∀ e ∈ events, ¬ e.Concerns root (.globalState name)) :
    Follows root name state t (events ++ since) where
  live := by
    obtain ⟨h, hh, ho, hn⟩ := hf.live
    obtain ⟨x, hx, hxh⟩ := hroot h hh
    exact ⟨x, hx, hxh.owner_eq.trans ho, hxh.name?_eq.trans hn⟩
  others := by
    intro c x hx hn hc
    rcases hothers c x hx hn hc with hnew | ⟨y, hy, hxy⟩
    · exact hnew
    · rw [hxy.owner_eq, hxy.globalState_eq, hxy.saveTimeout_eq]
      exact hf.others c y hy (hxy.name?_eq.symm.trans hn) hc
  replay := by
    obtain ⟨v, k, hheld, hreplay, hread⟩ := hf.replay
    obtain ⟨h, hh, hv⟩ := Option.map_eq_some_iff.1 hheld
    obtain ⟨x, hx, hxh⟩ := hroot h hh
    rw [hsettings, hstore]
    refine ⟨v, k, ?_, hreplay.append (.others hevents), hread⟩
    rw [held_of_host? hx, hxh.globalState_eq, hxh.saveTimeout_eq]
    exact congrArg some hv

/-- A root of another module begins. -/
theorem Follows.beginRoot (ha : Arena suits s) (hf : Follows root name state s since)
    (module : Option Module) (perUser : Bool) (saved : Option Blob) (sink : Option Actor)
    (hname : module.map (·.name) ≠ some name) :
    ∃ es, (s.beginRoot module perUser saved sink).chronicle = es ++ s.chronicle ∧
      Follows root name state (s.beginRoot module perUser saved sink) (es ++ since) := by
  have hroot : ∀ h, s.host? root = some h →
      ∃ x, (s.beginRoot module perUser saved sink).host? root = some x ∧ x.SameButUsers h := by
    intro h hh
    rw [host?_beginRoot, if_neg (Nat.ne_of_gt (ha.lt_nextId hh))]
    exact ⟨h, hh, .refl h⟩
  have hothers : ∀ c x, (s.beginRoot module perUser saved sink).host? c = some x →
      x.name? = some name → ∃ y, s.host? c = some y ∧ x.SameButUsers y := by
    intro c x hx hn
    rw [host?_beginRoot] at hx
    split at hx
    · rw [← Option.some.inj hx] at hn
      exact absurd hn hname
    · exact ⟨x, hx, .refl x⟩
  cases module with
  | none =>
      refine ⟨[], rfl, hf.of_users rfl rfl hroot (fun c x hx hn _ => .inr (hothers c x hx hn)) ?_⟩
      exact fun e he => absurd he List.not_mem_nil
  | some m =>
      refine ⟨[.begun s.nextId m.name saved], rfl,
        hf.of_users rfl rfl hroot (fun c x hx hn _ => .inr (hothers c x hx hn)) ?_⟩
      intro e he
      rw [List.mem_singleton.1 he]
      exact id

/-- The host of a user begins, and holds no state. -/
theorem Follows.beginUser (ha : Arena suits s) (hf : Follows root name state s since)
    {parent : HostId} {h : Host β} {user : String} (hh : s.host? parent = some h)
    (hu : h.users[user]? = none) (sink : Actor) :
    Follows root name state (s.beginUser parent h user sink) since := by
  have hnone : ∀ e ∈ ([] : List StateEvent), ¬ e.Concerns root (.globalState name) :=
    fun e he => absurd he List.not_mem_nil
  refine hf.of_users (t := s.beginUser parent h user sink) rfl rfl ?_ ?_ hnone
  · intro y hy
    obtain ⟨x, hx, hxy, _⟩ := ha.host?_beginUser_of_host? hh hu sink hy
    exact ⟨x, hx, hxy⟩
  · intro c x hx _ _
    rcases ha.host?_of_host?_beginUser hh hx with ⟨_, rfl⟩ | ⟨y, hy, hxy, _⟩
    · exact .inl ⟨Option.some_ne_none _, rfl, rfl⟩
    · exact .inr ⟨y, hy, hxy⟩

/-- Another host goes. -/
theorem Follows.discard (hf : Follows root name state s since) (id : HostId) (h : Host β)
    (hlive : ((s.discard id h).host? root).isSome) :
    Follows root name state (s.discard id h) ((s.family id).map .ended ++ since) := by
  obtain ⟨x, hx⟩ := Option.isSome_iff_exists.1 hlive
  apply hf.of_users (settings_discard s id h) (by rw [discard_eq])
  · intro y hy
    obtain ⟨_, z, hz, hxz, _⟩ := host?_of_host?_discard hx
    obtain rfl : z = y := Option.some.inj (hz.symm.trans hy)
    exact ⟨x, hx, hxz⟩
  · intro c w hw _ _
    obtain ⟨_, y, hy, hwy, _⟩ := host?_of_host?_discard hw
    exact .inr ⟨y, hy, hwy⟩
  · intro e he
    obtain ⟨k, _, rfl⟩ := List.mem_map.1 he
    exact fun hended => hended

/-! ## Steps -/

/-- Every step of a server keeps memory, window and store of the root in step, as long as the root
stays, no other root of its module begins and no host of its module is misplaced. -/
theorem Step.follows [ReliableStore σ] (ha : Arena suits s) (hf : Follows root name state s since)
    (h : Step suits s t) (hevents : t.chronicle = events ++ s.chronicle)
    (hbegun : ∀ id st, .begun id name st ∉ events) (hmis : ∀ k, .misplaced k (some name) ∉ events)
    (hlive : (t.host? root).isSome) : Follows root name state t (events ++ since) := by
  -- the events of each step are read off the server that it leads to
  have hread : ∀ es : List StateEvent, t.chronicle = es ++ s.chronicle → events = es :=
    fun _ hes => List.append_cancel_right (hevents.symm.trans hes)
  cases h with
  | code h =>
      rcases h.storage_or_silent with hstorage | ⟨hheld, hstore, hchronicle⟩
      · exact hstorage.follows hf hevents hmis
      · rw [hread [] hchronicle]
        exact hf.of_silent h.frame.samePlaces h.frame.settings hheld hstore
  | skipId =>
      rw [hread [] rfl]
      exact hf.of_silent (t := s.skipId) (fun _ => rfl) rfl (fun _ => rfl) rfl
  | setStopped stop =>
      rw [hread [] rfl]
      exact hf.of_silent (t := { s with isStopped := stop }) (fun _ => rfl) rfl (fun _ => rfl) rfl
  | setSink id f =>
      rw [hread [] rfl]
      exact hf.of_silent (samePlaces_modifyHost s id fun _ => rfl) rfl
        (fun c => s.held_modifyHost id c fun _ => rfl) rfl
  | eraseApp n =>
      rw [hread [] rfl]
      exact hf.of_silent (t := s.eraseApp n) (fun _ => rfl) rfl (fun _ => rfl) rfl
  | @insertApp id h m n hh ho hm hsuits happ =>
      rw [hread [] rfl]
      exact hf.of_silent (t := s.insertApp n id) (fun _ => rfl) rfl (fun _ => rfl) rfl
  | beginRoot module perUser sink =>
      have hname : module.map (·.name) ≠ some name := by
        intro hn
        obtain ⟨m, rfl, hmn⟩ := Option.map_eq_some_iff.1 hn
        rw [hread [.begun s.nextId m.name (s.savedState (some m))] rfl, hmn] at hbegun
        exact hbegun _ _ (List.mem_singleton.2 rfl)
      obtain ⟨es, hes, hnext⟩ := hf.beginRoot ha module perUser (s.savedState module) sink hname
      rw [hread es hes]
      exact hnext
  | beginUser hh hu sink =>
      rw [hread [] rfl]
      exact hf.beginUser ha hh hu sink
  | @discard id h hh hid happ =>
      rw [hread _ (chronicle_discard s id h)]
      exact hf.discard id h hlive
  | @tickIdle c h hh hw =>
      rw [hread [.ticked c] rfl]
      apply hf.remember hh
      · rintro rfl
        rw [hw]
        exact .tickIdle
      · exact fun hc => hc
  | @tickWait c h n hh hw =>
      rw [hread [.ticked c] rfl]
      by_cases hc : c = root
      · subst hc
        apply hf.setWindow_root hh (Nat.succ_pos n)
        rw [hw]
        exact .tickWait
      · exact hf.setWindow_other (e := .ticked c) hh (by omega) hc hc (n + 1)
  | @tickSave c h hh hw =>
      obtain ⟨es, hes, hsaved⟩ := hf.save (e := .ticked c) hh (by omega) (by
        rintro rfl
        rw [hw]
        exact .tickLast) fun hc => hc
      rw [hread es hes]
      exact hsaved
  | @closeIdle c h hh hw =>
      rw [hread [.closed c] rfl]
      apply hf.remember hh
      · rintro rfl
        rw [hw]
        exact .closeIdle
      · exact fun hc => hc
  | @closeSave c h hh hw =>
      obtain ⟨es, hes, hsaved⟩ := hf.save (e := .closed c) hh hw (by
        rintro rfl
        exact .closeLast hw) fun hc => hc
      rw [hread es hes]
      exact hsaved

end

end ScriptHost
