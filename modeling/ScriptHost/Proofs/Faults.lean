import Mathlib
import ScriptHost.Proofs.Persistence
/-!
# Stores that refuse requests

A store may refuse a request, and accept the same request later.  As long as a window is open the
state that was accepted last is in memory; once it is shut the store holds that state, because what
a window is opened for has been saved and what is in memory when it is shut is saved then.  There is
one way to lose a state: a window is shut before its state is given to the store, and if the store
refuses the state then, nothing tells that it is still to be saved.

## Main statements

* `FaultyStore`, `FlakyMemory`: stores that may refuse requests.
* `Covered`, `Step.covered`: the state that was accepted last is in memory or in the store, unless
  the store has refused a flush.
* `RefusedFlush`, `Loses`: a flush that is refused, in a step and in a chronicle.
* `Server.Covers`, `Step.covers`: the same of whole runs.
* `Server.Covers.settled`: what that says of a root that is there.
-/

namespace ScriptHost

variable {σ β : Type} [StateStore σ] {suits : String → Module → Prop}

open Server

/-! ## Stores -/

/-- A store that may refuse requests.  What is under a key changes by requests on that key only: a
state that is saved is there afterwards, and a request that is refused changes nothing. -/
class FaultyStore (σ : Type) [StateStore σ] where
  content : σ → ResourceKey → Option Blob
  eq_content_of_read : ∀ (a : σ) (k : ResourceKey) (v : Option Blob),
    StateStore.read a k = .ok v → v = content a k
  content_apply_of_ne : ∀ (r : StoreRequest) (a : σ) {k l : ResourceKey}, k ≠ l →
    content (r.apply k a) l = content a l
  content_apply_ofState : ∀ (v : Option Blob) (a : σ) (k : ResourceKey),
    (StoreRequest.ofState v).result k a = .ok () →
      content ((StoreRequest.ofState v).apply k a) k = v
  content_apply_of_error : ∀ (r : StoreRequest) (a : σ) (k : ResourceKey) (e : StoreError),
    r.result k a = .error e → content (r.apply k a) k = content a k

open FaultyStore

/-- A reliable store refuses nothing. -/
@[reducible] def ReliableStore.faulty [ReliableStore σ] : FaultyStore σ where
  content a k := ((StateStore.read a k).toOption).join
  eq_content_of_read a k v h := by
    rw [h]
    rfl
  content_apply_of_ne r a k l h := by rw [r.read_apply_of_ne a h]
  content_apply_ofState v a k _ := by
    rw [StoreRequest.read_apply_ofState]
    rfl
  content_apply_of_error r a k e h := by
    rw [r.result_eq_ok] at h
    cases h

/-- Blobs in memory, with the refusals of the next requests. -/
structure FlakyMemory where
  store : MemoryStore
  refusals : List Bool

namespace FlakyMemory

/-- Does what is asked for, unless it is to be refused. -/
def attempt {α : Type} (s : FlakyMemory) (f : MemoryStore → α × MemoryStore) :
    Except StoreError α × FlakyMemory :=
  match s.refusals with
  | true :: rest => (.error { outermost := "disk full" }, { s with refusals := rest })
  | refusals => (.ok (f s.store).1, { store := (f s.store).2, refusals := refusals.tail })

instance : StateStore FlakyMemory where
  read s key := .ok (s.store.get? key)
  write s key blob := s.attempt fun m => ((), m.insert key blob)
  appendLines s key lines := s.attempt fun m => ((), m.append key lines)
  delete s key := s.attempt fun m => ((m.get? key).isSome, m.erase key)

/-- A request is refused and changes nothing, or does what it does in memory. -/
theorem apply_cases (r : StoreRequest) (k : ResourceKey) (s : FlakyMemory) :
    (∃ e, r.result k s = .error e) ∧ (r.apply k s).store = s.store ∨
      r.result k s = .ok () ∧ (r.apply k s).store = r.apply k s.store := by
  obtain ⟨m, refusals⟩ := s
  match refusals with
  | true :: rest => exact .inl (by cases r <;> exact ⟨⟨_, rfl⟩, rfl⟩)
  | false :: rest => exact .inr (by cases r <;> exact ⟨rfl, rfl⟩)
  | [] => exact .inr (by cases r <;> exact ⟨rfl, rfl⟩)

instance : FaultyStore FlakyMemory where
  content s k := s.store.get? k
  eq_content_of_read s k v h := (Except.ok.inj h).symm
  content_apply_of_ne r s k l h := by
    have hread : StateStore.read (r.apply k s.store) l = StateStore.read s.store l :=
      r.read_apply_of_ne s.store h
    rcases apply_cases r k s with ⟨_, hsame⟩ | ⟨_, hdone⟩
    · rw [hsame]
    · rw [hdone]
      exact Except.ok.inj hread
  content_apply_ofState v s k h := by
    rcases apply_cases (.ofState v) k s with ⟨⟨e, he⟩, _⟩ | ⟨_, hdone⟩
    · rw [he] at h
      cases h
    · rw [hdone]
      exact Except.ok.inj (StoreRequest.read_apply_ofState v k s.store)
  content_apply_of_error r s k e h := by
    rcases apply_cases r k s with ⟨_, hsame⟩ | ⟨hok, _⟩
    · rw [hsame]
    · rw [hok] at h
      cases h

end FlakyMemory

/-! ## Where the last state is -/

variable [FaultyStore σ]

/-- Of the hosts of a module a root is the only one that holds a state, and the state that was
accepted last is in memory as long as a window is open, and in the store otherwise.  If none has
been accepted since the root began, it is known what the store holds only if it was known then. -/
structure Covered (root : HostId) (name : String) (known : Prop) (state : Option Blob)
    (s : Server σ β) (since : List StateEvent) : Prop where
  live : ∃ h, s.host? root = some h ∧ h.owner = none ∧ h.name? = some name
  others : ∀ c x, s.host? c = some x → x.name? = some name → c ≠ root →
    x.owner ≠ none ∧ x.saveTimeout = 0
  pending : ∀ v k, s.held root = some (v, k) → 0 < k → v = lastAccepted root state since
  saved : ∀ v, s.held root = some (v, 0) → (known ∨ ∃ w k, .accepted root w k ∈ since) →
    content s.store (.globalState name) = lastAccepted root state since

namespace Covered

variable {root : HostId} {name : String} {known : Prop} {state : Option Blob} {s t : Server σ β}
  {since events : List StateEvent}

/-- The hosts stay in their places, and something happens to the root. -/
theorem of_root {known' : Prop} {state' : Option Blob} {since' : List StateEvent}
    (hc : Covered root name known state s since) (hp : SamePlaces s t)
    (hothers : ∀ c x, s.host? c = some x → x.name? = some name → c ≠ root → t.held c = s.held c)
    (hpending : ∀ v k, t.held root = some (v, k) → 0 < k → v = lastAccepted root state' since')
    (hsaved : ∀ v, t.held root = some (v, 0) → (known' ∨ ∃ w k, .accepted root w k ∈ since') →
      content t.store (.globalState name) = lastAccepted root state' since') :
    Covered root name known' state' t since' where
  live := by
    obtain ⟨h, hh, ho, hn⟩ := hc.live
    obtain ⟨x, hx, hplace⟩ := hp.symm.host? hh
    refine ⟨x, hx, (Host.owner_of_place_eq hplace).symm.trans ho, ?_⟩
    rw [← hn, Host.name?_of_place_eq hplace]
  others := by
    intro c x hx hn hcr
    obtain ⟨y, hy, hplace⟩ := hp.host? hx
    have hny : y.name? = some name := by
      rw [← hn, Host.name?_of_place_eq hplace]
    obtain ⟨ho, hleft⟩ := hc.others c y hy hny hcr
    have hheld := hothers c y hy hny hcr
    rw [held_of_host? hx, held_of_host? hy] at hheld
    rw [Host.owner_of_place_eq hplace, (Prod.mk.inj (Option.some.inj hheld)).2]
    exact ⟨ho, hleft⟩
  pending := hpending
  saved := hsaved

/-- Nothing happens to the root: it holds what it held, the store holds what it held, and no state
is accepted. -/
theorem state_of_others (hc : Covered root name known state s since)
    (hheld : t.held root = s.held root)
    (hcontent : content t.store (.globalState name) = content s.store (.globalState name))
    (hevents : ∀ v k, .accepted root v k ∉ events) :
    (∀ v k, t.held root = some (v, k) → 0 < k → v = lastAccepted root state (events ++ since)) ∧
      ∀ v, t.held root = some (v, 0) → (known ∨ ∃ w k, .accepted root w k ∈ events ++ since) →
        content t.store (.globalState name) = lastAccepted root state (events ++ since) := by
  rw [lastAccepted_append, lastAccepted_of_forall hevents, hheld, hcontent]
  refine ⟨hc.pending, fun v hv hknown => hc.saved v hv ?_⟩
  rcases hknown with hknown | ⟨w, k, hmem⟩
  · exact .inl hknown
  · exact .inr ⟨w, k, (List.mem_append.1 hmem).resolve_left (hevents w k)⟩

/-- The hosts stay in their places, and nothing happens to the root. -/
theorem of_others (hc : Covered root name known state s since) (hp : SamePlaces s t)
    (hheld : ∀ c x, s.host? c = some x → x.name? = some name → t.held c = s.held c)
    (hcontent : content t.store (.globalState name) = content s.store (.globalState name))
    (hevents : ∀ v k, .accepted root v k ∉ events) :
    Covered root name known state t (events ++ since) := by
  obtain ⟨h, hh, _, hn⟩ := hc.live
  obtain ⟨hpending, hsaved⟩ := hc.state_of_others (hheld root h hh hn) hcontent hevents
  exact hc.of_root hp (fun c x hx hn _ => hheld c x hx hn) hpending hsaved

/-- The hosts stay in their places, and no state, no data and no event is new. -/
theorem of_silent (hc : Covered root name known state s since) (hp : SamePlaces s t)
    (hheld : ∀ c, t.held c = s.held c) (hstore : t.store = s.store) :
    Covered root name known state t since := by
  have hnone : ∀ v k, (.accepted root v k : StateEvent) ∉ [] := fun _ _ => List.not_mem_nil
  rw [← List.nil_append since]
  exact hc.of_others hp (fun c _ _ _ => hheld c) (by rw [hstore]) hnone

/-! ## Code -/

/-- Of the hosts of the module only the root takes a state into memory, unless one is misplaced. -/
theorem eq_root (hc : Covered root name known state s since) {k : HostId} {x : Host β}
    {blob : Option Blob} (hx : s.host? k = some x) (hn : x.name? = some name)
    (hmis : .misplaced k (some name) ∉ holdEvents k x blob) : k = root := by
  by_contra hk
  obtain ⟨ho, _⟩ := hc.others k x hx hn hk
  apply hmis
  rw [← hn]
  exact misplaced_mem_holdEvents ho k blob

theorem ne_root (hc : Covered root name known state s since) {k : HostId} {x : Host β}
    {n : String} (hx : s.host? k = some x) (hn : x.name? = some n) (hne : n ≠ name) :
    k ≠ root := by
  obtain ⟨h, hh, _, hname⟩ := hc.live
  exact ne_of_name? hx hh hn hname hne

/-- A state is accepted while a window is open, and stays in memory. -/
theorem keep (hc : Covered root name known state s since) {k : HostId} {x : Host β} {n : String}
    (hx : s.host? k = some x) (hn : x.name? = some n) (hw : 0 < x.saveTimeout)
    (blob : Option Blob) (hmis : .misplaced k (some name) ∉ holdEvents k x blob) :
    Covered root name known state ((s.hold k x blob).remember (.accepted k blob x.saveTimeout))
      (.accepted k blob x.saveTimeout :: holdEvents k x blob ++ since) := by
  have hplaces := samePlaces_hold s k x blob
  by_cases hname : n = name
  · subst hname
    obtain rfl := hc.eq_root hx hn hmis
    have hhost : ((s.hold k x blob).remember (.accepted k blob x.saveTimeout)).host? k =
        some (x.hold blob) := host?_hold hx blob
    refine hc.of_root (t := (s.hold k x blob).remember _) hplaces
      (fun c _ _ _ hck => held_hold_of_ne (Ne.symm hck) x blob) ?_ ?_
    · intro v j hv _
      obtain ⟨rfl, _⟩ := eq_of_held hhost hv
      rw [List.cons_append, lastAccepted, if_pos rfl]
      rfl
    · intro v hv
      obtain ⟨_, hleft⟩ := eq_of_held hhost hv
      exact absurd hleft (Nat.ne_of_gt hw)
  · have hne := hc.ne_root hx hn hname
    refine hc.of_others (t := (s.hold k x blob).remember _) hplaces
      (fun c y hy hny => held_hold_of_ne (ne_of_name? hx hy hn hny hname) x blob) rfl ?_
    intro v j hmem
    rcases List.mem_cons.1 hmem with heq | hmem
    · exact hne (StateEvent.accepted.inj heq).1.symm
    · exact accepted_not_mem_holdEvents _ _ _ _ v j hmem

/-- A state is given to the store outside of a window: it is saved, and a window opens. -/
theorem saveNow (hc : Covered root name known state s since) {k : HostId}
    {x : Host β} {n : String} (hx : s.host? k = some x) (hn : x.name? = some n)
    (blob : Option Blob)
    (hr : (StoreRequest.ofState blob).result (.globalState n) s.store = .ok ())
    (hmis : .misplaced k (some name) ∉ holdEvents k x blob) :
    Covered root name known state ((((s.hold k x blob).request (.ofState blob)
        (.globalState n)).openWindow k).remember (.accepted k blob x.saveTimeout))
      (.accepted k blob x.saveTimeout :: .stored (.ofState blob) (.globalState n) ::
        holdEvents k x blob ++ since) := by
  have hplaces : SamePlaces s
      (((s.hold k x blob).request (.ofState blob) (.globalState n)).openWindow k) :=
    (samePlaces_hold s k x blob).trans (samePlaces_openWindow _ k)
  -- only the host itself is concerned, by the state and by the window
  have hheld : ∀ c, k ≠ c →
      (((s.hold k x blob).request (.ofState blob) (.globalState n)).openWindow k).held c =
        s.held c :=
    fun c hck => (held_openWindow_of_ne hck).trans (held_hold_of_ne hck x blob)
  by_cases hname : n = name
  · subst hname
    obtain rfl := hc.eq_root hx hn hmis
    have hopen : (((s.hold k x blob).request (.ofState blob)
        (.globalState n)).openWindow k).host? k =
        some ((x.hold blob).setTimeout s.settings.saveDebounceTicks) :=
      host?_openWindow (host?_hold hx blob)
    have hlast : lastAccepted k state (.accepted k blob x.saveTimeout ::
        .stored (.ofState blob) (.globalState n) :: holdEvents k x blob ++ since) = blob := by
      rw [List.cons_append, lastAccepted, if_pos rfl]
    refine hc.of_root (t := (((s.hold k x blob).request (.ofState blob)
      (.globalState n)).openWindow k).remember _) hplaces
        (fun c _ _ _ hck => hheld c (Ne.symm hck)) ?_ ?_
    · intro v j hv _
      obtain ⟨rfl, _⟩ := eq_of_held hopen hv
      exact hlast.symm
    · intro _ _ _
      rw [hlast]
      exact content_apply_ofState blob s.store _ hr
  · have hne := hc.ne_root hx hn hname
    have hslot : ResourceKey.globalState n ≠ .globalState name :=
      fun hkey => hname (ResourceKey.globalState_inj.1 hkey)
    refine hc.of_others (t := (((s.hold k x blob).request (.ofState blob)
      (.globalState n)).openWindow k).remember _) hplaces
        (fun c y hy hny => hheld c (ne_of_name? hx hy hn hny hname)) ?_ ?_
    · exact content_apply_of_ne _ s.store hslot
    · intro v j hmem
      rcases List.mem_cons.1 hmem with heq | hmem
      · exact hne (StateEvent.accepted.inj heq).1.symm
      · rcases List.mem_cons.1 hmem with heq | hmem
        · cases heq
        · exact accepted_not_mem_holdEvents _ _ _ _ v j hmem

/-- A state is given to the store outside of a window, and refused: what the store holds stays, and
the state is not accepted. -/
theorem refuse (hc : Covered root name known state s since) {k : HostId}
    {x : Host β} {n : String} (hx : s.host? k = some x) (hn : x.name? = some n)
    (hw : x.saveTimeout = 0) (blob : Option Blob) {e : StoreError}
    (hr : (StoreRequest.ofState blob).result (.globalState n) s.store = .error e)
    (hmis : .misplaced k (some name) ∉ holdEvents k x blob) :
    Covered root name known state ((s.hold k x blob).request (.ofState blob) (.globalState n))
      (.stored (.ofState blob) (.globalState n) :: holdEvents k x blob ++ since) := by
  have hplaces := samePlaces_hold s k x blob
  have hnone : ∀ v j, .accepted root v j ∉
      .stored (.ofState blob) (.globalState n) :: holdEvents k x blob := by
    intro v j hmem
    rcases List.mem_cons.1 hmem with heq | hmem
    · cases heq
    · exact accepted_not_mem_holdEvents _ _ _ _ v j hmem
  have hcontent : content ((StoreRequest.ofState blob).apply (.globalState n) s.store)
      (.globalState name) = content s.store (.globalState name) := by
    by_cases hname : n = name
    · subst hname
      exact content_apply_of_error _ _ _ e hr
    · exact content_apply_of_ne _ _ fun hkey => hname (ResourceKey.globalState_inj.1 hkey)
  by_cases hname : n = name
  · subst hname
    obtain rfl := hc.eq_root hx hn hmis
    refine hc.of_root (t := (s.hold k x blob).request _ _) hplaces
      (fun c _ _ _ hck => held_hold_of_ne (Ne.symm hck) x blob) ?_ ?_
    · intro v j hv hj
      have hhost : ((s.hold k x blob).request (.ofState blob) (.globalState n)).host? k =
          some (x.hold blob) := host?_hold hx blob
      obtain ⟨_, hleft⟩ := eq_of_held hhost hv
      have hopen : 0 < x.saveTimeout := lt_of_lt_of_eq hj hleft.symm
      omega
    · intro v _ hknown
      rw [lastAccepted_append, lastAccepted_of_forall hnone]
      refine hcontent.trans (hc.saved x.globalState ?_ ?_)
      · rw [held_of_host? hx, hw]
      · rcases hknown with hknown | ⟨w, j, hmem⟩
        · exact .inl hknown
        · exact .inr ⟨w, j, (List.mem_append.1 hmem).resolve_left (hnone w j)⟩
  · exact hc.of_others (t := (s.hold k x blob).request _ _) hplaces
      (fun c y hy hny => held_hold_of_ne (ne_of_name? hx hy hn hny hname) x blob) hcontent hnone

/-- Code that concerns the data of an app keeps its last state covered, whatever the store
refuses. -/
theorem storageStep {id : HostId} (hc : Covered root name known state s since)
    (h : StorageStep id s t) (hevents : t.chronicle = events ++ s.chronicle)
    (hmis : ∀ k, .misplaced k (some name) ∉ events) :
    Covered root name known state t (events ++ since) := by
  cases h with
  | @request x hx r file kind shared hs =>
      obtain rfl : [.stored r (.resource x.name? file kind shared)] = events :=
        List.append_cancel_right hevents
      have hne := ResourceKey.resource_ne_globalState x.name? file kind shared name
      refine hc.of_others (t := s.request r _) (fun _ => rfl) (fun _ _ _ _ => rfl)
        (content_apply_of_ne r s.store hne) ?_
      intro v k hmem
      cases List.mem_singleton.1 hmem
  | answer =>
      obtain rfl : [.answered (s.rootOf id) (s.stateSeenBy id)] = events :=
        List.append_cancel_right hevents
      refine hc.of_others (t := s.remember _) (fun _ => rfl) (fun _ _ _ _ => rfl) rfl ?_
      intro v k hmem
      cases List.mem_singleton.1 hmem
  | @keep x n hx hn hw blob =>
      obtain rfl : .accepted (s.rootOf id) blob x.saveTimeout :: holdEvents (s.rootOf id) x blob =
          events := List.append_cancel_right hevents
      exact hc.keep hx hn hw blob fun hmem => hmis _ (List.mem_cons_of_mem _ hmem)
  | @save x n hx hn hw blob hr =>
      obtain rfl : .accepted (s.rootOf id) blob x.saveTimeout ::
          .stored (.ofState blob) (.globalState n) :: holdEvents (s.rootOf id) x blob = events :=
        List.append_cancel_right hevents
      exact hc.saveNow hx hn blob hr fun hmem =>
        hmis _ (List.mem_cons_of_mem _ (List.mem_cons_of_mem _ hmem))
  | @refuse x n hx hn hw blob e hr =>
      obtain rfl : .stored (.ofState blob) (.globalState n) :: holdEvents (s.rootOf id) x blob =
          events := List.append_cancel_right hevents
      exact hc.refuse hx hn hw blob hr fun hmem => hmis _ (List.mem_cons_of_mem _ hmem)

/-! ## Windows -/

/-- Only the root has a window among the hosts of its module. -/
theorem name?_ne (hc : Covered root name known state s since) {c : HostId} {h : Host β}
    (hh : s.host? c = some h) (hw : 0 < h.saveTimeout) (hcr : c ≠ root) :
    h.name? ≠ some name := by
  intro hn
  obtain ⟨_, hleft⟩ := hc.others c h hh hn hcr
  omega

/-- Something is written down, and no state is accepted. -/
theorem remember (hc : Covered root name known state s since) {e : StateEvent}
    (he : ∀ v k, e ≠ .accepted root v k) :
    Covered root name known state (s.remember e) ([e] ++ since) := by
  refine hc.of_others (t := s.remember e) (fun _ => rfl) (fun _ _ _ _ => rfl) rfl ?_
  intro v k hmem
  exact he v k (List.mem_singleton.1 hmem).symm

/-- A window is moved. -/
theorem setWindow (hc : Covered root name known state s since) {c : HostId} {h : Host β}
    (hh : s.host? c = some h) (hw : 0 < h.saveTimeout) {ticks : Nat} (hticks : 0 < ticks)
    {e : StateEvent} (he : ∀ v k, e ≠ .accepted root v k) :
    Covered root name known state (s.setWindow c ticks e) ([e] ++ since) := by
  have hplaces := samePlaces_setWindow s c ticks e
  have hnone : ∀ v k, .accepted root v k ∉ [e] := by
    intro v k hmem
    exact he v k (List.mem_singleton.1 hmem).symm
  by_cases hcr : c = root
  · subst hcr
    have hhost := host?_setWindow hh ticks e
    refine hc.of_root hplaces
      (fun d _ _ _ hdc => held_setWindow_of_ne (Ne.symm hdc) ticks e) ?_ ?_
    · intro v k hv _
      obtain ⟨hstate, _⟩ := eq_of_held hhost hv
      have hmemory : h.globalState = v := hstate
      rw [lastAccepted_append, lastAccepted_of_forall hnone, ← hmemory]
      exact hc.pending _ _ (held_of_host? hh) hw
    · intro v hv
      obtain ⟨_, hleft⟩ := eq_of_held hhost hv
      have hzero : ticks = 0 := hleft
      omega
  · refine hc.of_others hplaces (fun d x hx hn => held_setWindow_of_ne ?_ ticks e) rfl hnone
    rintro rfl
    obtain rfl : h = x := Option.some.inj (hh.symm.trans hx)
    exact hc.name?_ne hh hw hcr hn

end Covered

/-- The window of a root is shut, by a tick or a closing, and the store refuses what it is to save
then. -/
def RefusedFlush (root : HostId) (name : String) (a : σ) (events : List StateEvent) : Prop :=
  ∃ r e err, events = [.stored r (.globalState name), e] ∧ (e = .ticked root ∨ e = .closed root) ∧
    r.result (.globalState name) a = .error err

namespace Covered

variable {root : HostId} {name : String} {known : Prop} {state : Option Blob} {s t : Server σ β}
  {since events : List StateEvent}

omit [FaultyStore σ] in
/-- A window is shut, and all that changes is at its host. -/
theorem held_shut_of_ne {c d : HostId} (hcd : c ≠ d) (e : StateEvent) (h : Host β) :
    ((s.setWindow c 0 e).save h).held d = s.held d := by
  rw [held_save, held_setWindow_of_ne hcd]

/-- The window of another host is shut, and the state of that host is given to the store. -/
theorem save_other (hc : Covered root name known state s since) {c : HostId} {h : Host β}
    (hh : s.host? c = some h) (hw : 0 < h.saveTimeout) (hcr : c ≠ root) {e : StateEvent}
    (he : ∀ v k, .accepted root v k ≠ e)
    (hevents : ((s.setWindow c 0 e).save h).chronicle = events ++ s.chronicle) :
    Covered root name known state ((s.setWindow c 0 e).save h) (events ++ since) := by
  have hplaces : SamePlaces s ((s.setWindow c 0 e).save h) :=
    (samePlaces_setWindow s c 0 e).trans (samePlaces_save _ h)
  have hn := hc.name?_ne hh hw hcr
  have hheld : ∀ d x, s.host? d = some x → x.name? = some name →
      ((s.setWindow c 0 e).save h).held d = s.held d := by
    intro d x hx hnx
    apply held_shut_of_ne
    rintro rfl
    obtain rfl : h = x := Option.some.inj (hh.symm.trans hx)
    exact hn hnx
  cases hname : h.name? with
  | none =>
      have hsave := save_of_name?_eq_none (s.setWindow c 0 e) hname
      obtain rfl : [e] = events := by
        rw [hsave] at hevents
        exact List.append_cancel_right hevents
      refine hc.of_others hplaces hheld (by rw [hsave]; rfl) ?_
      exact fun v k hmem => he v k (List.mem_singleton.1 hmem)
  | some n =>
      have hsave := save_of_name? (s.setWindow c 0 e) hname
      obtain rfl : [.stored (.ofState h.globalState) (.globalState n), e] = events := by
        rw [hsave] at hevents
        exact List.append_cancel_right hevents
      have hslot : ResourceKey.globalState n ≠ .globalState name := by
        intro hkey
        exact hn (hname.trans (congrArg some (ResourceKey.globalState_inj.1 hkey)))
      refine hc.of_others hplaces hheld ?_ ?_
      · rw [hsave]
        exact content_apply_of_ne _ s.store hslot
      · intro v k hmem
        rcases List.mem_cons.1 hmem with heq | hmem
        · cases heq
        · exact he v k (List.mem_singleton.1 hmem)

/-- The window of the root is shut, and its state is given to the store. -/
theorem save_root (hc : Covered root name known state s since) {h : Host β}
    (hh : s.host? root = some h) (hw : 0 < h.saveTimeout) {e : StateEvent}
    (he : e = .ticked root ∨ e = .closed root)
    (hevents : ((s.setWindow root 0 e).save h).chronicle = events ++ s.chronicle) :
    Covered root name known state ((s.setWindow root 0 e).save h) (events ++ since) ∨
      RefusedFlush root name s.store events ∧
        Covered root name False none ((s.setWindow root 0 e).save h) [] := by
  have hplaces : SamePlaces s ((s.setWindow root 0 e).save h) :=
    (samePlaces_setWindow s root 0 e).trans (samePlaces_save _ h)
  have hheld : ∀ c x, s.host? c = some x → x.name? = some name → c ≠ root →
      ((s.setWindow root 0 e).save h).held c = s.held c :=
    fun c _ _ _ hcr => held_shut_of_ne (Ne.symm hcr) e h
  have hn : h.name? = some name := by
    obtain ⟨x, hx, _, hn⟩ := hc.live
    obtain rfl : h = x := Option.some.inj (hh.symm.trans hx)
    exact hn
  have hsave := save_of_name? (s.setWindow root 0 e) hn
  obtain rfl : [.stored (.ofState h.globalState) (.globalState name), e] = events := by
    rw [hsave] at hevents
    exact List.append_cancel_right hevents
  have hshut : ∀ v k, ((s.setWindow root 0 e).save h).held root = some (v, k) → ¬ 0 < k := by
    intro v k hv hk
    have hhost : ((s.setWindow root 0 e).save h).host? root = some (h.setTimeout 0) := by
      rw [host?_save, host?_setWindow hh]
    exact absurd (eq_of_held hhost hv).2.symm (Nat.ne_of_gt hk)
  cases hr : (StoreRequest.ofState h.globalState).result (.globalState name) s.store with
  | error err =>
      refine .inr ⟨⟨_, e, err, rfl, he, hr⟩, ?_⟩
      refine hc.of_root hplaces hheld (fun v k hv hk => absurd hk (hshut v k hv)) ?_
      rintro v _ (hknown | ⟨w, k, hmem⟩)
      · exact hknown.elim
      · exact absurd hmem List.not_mem_nil
  | ok u =>
      left
      have hnone : ∀ v k, .accepted root v k ∉
          [.stored (.ofState h.globalState) (.globalState name), e] := by
        rcases he with rfl | rfl <;> simp
      refine hc.of_root hplaces hheld (fun v k hv hk => absurd hk (hshut v k hv)) ?_
      intro _ _ _
      -- memory held the last state, and now the store does
      rw [lastAccepted_append, lastAccepted_of_forall hnone, hsave,
        ← hc.pending _ _ (held_of_host? hh) hw]
      exact content_apply_ofState h.globalState s.store _ hr

/-- A window is shut and the state of its host is given to the store.  If that is refused for the
root, what happens next counts as if nothing had been known before. -/
theorem save (hc : Covered root name known state s since) {c : HostId} {h : Host β}
    (hh : s.host? c = some h) (hw : 0 < h.saveTimeout) {e : StateEvent}
    (he : e = .ticked c ∨ e = .closed c)
    (hevents : ((s.setWindow c 0 e).save h).chronicle = events ++ s.chronicle) :
    Covered root name known state ((s.setWindow c 0 e).save h) (events ++ since) ∨
      RefusedFlush root name s.store events ∧
        Covered root name False none ((s.setWindow c 0 e).save h) [] := by
  by_cases hcr : c = root
  · subst hcr
    exact hc.save_root hh hw he hevents
  · refine .inl (hc.save_other hh hw hcr ?_ hevents)
    rintro v k rfl
    rcases he with he | he <;> cases he

/-! ## Hosts come and go -/

/-- Hosts come and go, and those of the module that stay differ in their users at most. -/
theorem of_users (hc : Covered root name known state s since) (hstore : t.store = s.store)
    (hroot : ∀ h, s.host? root = some h → ∃ x, t.host? root = some x ∧ x.SameButUsers h)
    (hothers : ∀ c x, t.host? c = some x → x.name? = some name → c ≠ root →
      (x.owner ≠ none ∧ x.saveTimeout = 0) ∨ ∃ y, s.host? c = some y ∧ x.SameButUsers y)
    (hevents : ∀ v k, .accepted root v k ∉ events) :
    Covered root name known state t (events ++ since) := by
  obtain ⟨h, hh, ho, hn⟩ := hc.live
  obtain ⟨x, hx, hxh⟩ := hroot h hh
  have hheld : t.held root = s.held root := by
    rw [held_of_host? hx, held_of_host? hh, hxh.globalState_eq, hxh.saveTimeout_eq]
  obtain ⟨hpending, hsaved⟩ := hc.state_of_others hheld (by rw [hstore]) hevents
  exact
    { live := ⟨x, hx, hxh.owner_eq.trans ho, hxh.name?_eq.trans hn⟩
      others := by
        intro c z hz hnz hcr
        rcases hothers c z hz hnz hcr with hnew | ⟨y, hy, hzy⟩
        · exact hnew
        · rw [hzy.owner_eq, hzy.saveTimeout_eq]
          exact hc.others c y hy (hzy.name?_eq.symm.trans hnz) hcr
      pending := hpending
      saved := hsaved }

/-- A root of another module begins. -/
theorem beginRoot (ha : Arena suits s) (hc : Covered root name known state s since)
    (module : Option Module) (perUser : Bool) (saved : Option Blob) (sink : Option Actor)
    (hevents : (s.beginRoot module perUser saved sink).chronicle = events ++ s.chronicle)
    (hbegun : ∀ id st, .begun id name st ∉ events) :
    Covered root name known state (s.beginRoot module perUser saved sink) (events ++ since) := by
  have hevents' : events = match module with
      | some m => [.begun s.nextId m.name saved]
      | none => [] := by
    apply List.append_cancel_right (hevents.symm.trans _)
    cases module <;> rfl
  have hname : module.map (·.name) ≠ some name := by
    intro hn
    obtain ⟨m, rfl, rfl⟩ := Option.map_eq_some_iff.1 hn
    apply hbegun s.nextId saved
    rw [hevents']
    exact List.mem_singleton.2 rfl
  refine hc.of_users (t := s.beginRoot module perUser saved sink) rfl ?_ ?_ ?_
  · intro h hh
    rw [host?_beginRoot, if_neg (Nat.ne_of_gt (ha.lt_nextId hh))]
    exact ⟨h, hh, .refl h⟩
  · intro c x hx hn _
    rw [host?_beginRoot] at hx
    split at hx
    · rw [← Option.some.inj hx] at hn
      exact absurd hn hname
    · exact .inr ⟨x, hx, .refl x⟩
  · intro v k hmem
    rw [hevents'] at hmem
    cases module with
    | none => exact absurd hmem List.not_mem_nil
    | some m => cases List.mem_singleton.1 hmem

/-- The host of a user begins, and holds no state. -/
theorem beginUser (ha : Arena suits s) (hc : Covered root name known state s since)
    {parent : HostId} {h : Host β} {user : String} (hh : s.host? parent = some h)
    (hu : h.users[user]? = none) (sink : Actor) :
    Covered root name known state (s.beginUser parent h user sink) since := by
  have hnone : ∀ v k, (.accepted root v k : StateEvent) ∉ [] := fun _ _ => List.not_mem_nil
  rw [← List.nil_append since]
  refine hc.of_users (t := s.beginUser parent h user sink) rfl ?_ ?_ hnone
  · intro y hy
    obtain ⟨x, hx, hxy, _⟩ := ha.host?_beginUser_of_host? hh hu sink hy
    exact ⟨x, hx, hxy⟩
  · intro c x hx _ _
    rcases ha.host?_of_host?_beginUser hh hx with ⟨_, rfl⟩ | ⟨y, hy, hxy, _⟩
    · exact .inl ⟨Option.some_ne_none _, rfl⟩
    · exact .inr ⟨y, hy, hxy⟩

/-- Another host goes. -/
theorem discard (hc : Covered root name known state s since) (id : HostId) (h : Host β)
    (hlive : ((s.discard id h).host? root).isSome) :
    Covered root name known state (s.discard id h) ((s.family id).map .ended ++ since) := by
  obtain ⟨x, hx⟩ := Option.isSome_iff_exists.1 hlive
  apply hc.of_users (by rw [discard_eq])
  · intro y hy
    obtain ⟨_, z, hz, hxz, _⟩ := host?_of_host?_discard hx
    obtain rfl : z = y := Option.some.inj (hz.symm.trans hy)
    exact ⟨x, hx, hxz⟩
  · intro c w hw _ _
    obtain ⟨_, y, hy, hwy, _⟩ := host?_of_host?_discard hw
    exact .inr ⟨y, hy, hwy⟩
  · intro v k hmem
    obtain ⟨_, _, heq⟩ := List.mem_map.1 hmem
    cases heq

end Covered

/-! ## Steps -/

section

variable {root : HostId} {name : String} {known : Prop} {state : Option Blob} {s t : Server σ β}
  {since events : List StateEvent}

/-- Every step of a server keeps the last state of a root covered, as long as the root stays, no
other root of its module begins and no host of its module is misplaced.  If the store refuses a
flush of the root, what happens next counts as if nothing had been known before. -/
theorem Step.covered (ha : Arena suits s) (hc : Covered root name known state s since)
    (h : Step suits s t) (hevents : t.chronicle = events ++ s.chronicle)
    (hbegun : ∀ id st, .begun id name st ∉ events) (hmis : ∀ k, .misplaced k (some name) ∉ events)
    (hlive : (t.host? root).isSome) :
    Covered root name known state t (events ++ since) ∨
      RefusedFlush root name s.store events ∧ Covered root name False none t [] := by
  have hread : ∀ es : List StateEvent, t.chronicle = es ++ s.chronicle → events = es :=
    fun _ hes => List.append_cancel_right (hevents.symm.trans hes)
  cases h with
  | code h =>
      left
      rcases h.storage_or_silent with hstorage | ⟨hheld, hstore, hchronicle⟩
      · exact hc.storageStep hstorage hevents hmis
      · rw [hread [] hchronicle]
        exact hc.of_silent h.frame.samePlaces hheld hstore
  | skipId =>
      rw [hread [] rfl]
      exact .inl (hc.of_silent (t := s.skipId) (fun _ => rfl) (fun _ => rfl) rfl)
  | setStopped stop =>
      rw [hread [] rfl]
      left
      exact hc.of_silent (t := { s with isStopped := stop }) (fun _ => rfl) (fun _ => rfl) rfl
  | setSink id f =>
      rw [hread [] rfl]
      exact .inl (hc.of_silent (samePlaces_modifyHost s id fun _ => rfl)
        (fun c => s.held_modifyHost id c fun _ => rfl) rfl)
  | eraseApp n =>
      rw [hread [] rfl]
      exact .inl (hc.of_silent (t := s.eraseApp n) (fun _ => rfl) (fun _ => rfl) rfl)
  | @insertApp id h m n hh ho hm hsuits happ =>
      rw [hread [] rfl]
      exact .inl (hc.of_silent (t := s.insertApp n id) (fun _ => rfl) (fun _ => rfl) rfl)
  | beginRoot module perUser sink =>
      exact .inl (hc.beginRoot ha module perUser _ sink hevents hbegun)
  | beginUser hh hu sink =>
      rw [hread [] rfl]
      exact .inl (hc.beginUser ha hh hu sink)
  | @discard id h hh hid happ =>
      rw [hread _ (chronicle_discard s id h)]
      exact .inl (hc.discard id h hlive)
  | tickIdle hh hw =>
      rw [hread [.ticked _] rfl]
      exact .inl (hc.remember fun _ _ heq => by cases heq)
  | tickWait hh hw =>
      rw [hread [.ticked _] rfl]
      exact .inl (hc.setWindow hh (by omega) (Nat.succ_pos _) fun _ _ heq => by cases heq)
  | tickSave hh hw => exact hc.save hh (by omega) (.inl rfl) hevents
  | closeIdle hh hw =>
      rw [hread [.closed _] rfl]
      exact .inl (hc.remember fun _ _ heq => by cases heq)
  | closeSave hh hw => exact hc.save hh hw (.inr rfl) hevents

/-- The state of a root that begins is covered by the store that it has been read from. -/
theorem covered_beginRoot (ha : Arena suits s) (hr : Recorded s) (m : Module) (perUser : Bool)
    (sink : Option Actor)
    (hended : ∀ id st, .begun id m.name st ∈ s.chronicle → .ended id ∈ s.chronicle) :
    Covered s.nextId m.name
      (StateStore.read s.store (.globalState m.name) = .ok (s.savedState (some m)))
      (s.savedState (some m)) (s.beginRoot (some m) perUser (s.savedState (some m)) sink) [] := by
  have hnew : (s.beginRoot (some m) perUser (s.savedState (some m)) sink).host? s.nextId =
      some (s.newRoot (some m) perUser (s.savedState (some m)) sink) := by
    rw [host?_beginRoot, if_pos rfl]
  exact
    { live := ⟨_, hnew, rfl, rfl⟩
      others := by
        intro c x hx hn hc
        rw [host?_beginRoot, if_neg (Ne.symm hc)] at hx
        exact absurd hn (ha.name?_ne_of_ended hr hended hx)
      pending := by
        intro v k hv hk
        obtain ⟨_, hleft⟩ := eq_of_held hnew hv
        have hzero : 0 = k := hleft
        omega
      saved := by
        rintro v _ (hread | ⟨w, k, hmem⟩)
        · exact (eq_content_of_read s.store _ _ hread).symm
        · exact absurd hmem List.not_mem_nil }

end

/-! ## Runs -/

/-- In a chronicle that began with a store, the store has refused a flush of a root, and no state
has been accepted since. -/
def Loses (root : HostId) (name : String) (start : σ) (chronicle : List StateEvent) : Prop :=
  ∃ later flush earlier, chronicle = later ++ flush ++ earlier ∧
    RefusedFlush root name (earlier.foldr StateEvent.applyTo start) flush ∧
      ∀ v k, .accepted root v k ∉ later

omit [FaultyStore σ] in
/-- A state is not found again by events among which none is accepted. -/
theorem Loses.append {root : HostId} {name : String} {start : σ}
    {chronicle events : List StateEvent} (h : Loses root name start chronicle)
    (hnone : ∀ v k, .accepted root v k ∉ events) :
    Loses root name start (events ++ chronicle) := by
  obtain ⟨later, flush, earlier, rfl, hrefused, hlater⟩ := h
  refine ⟨events ++ later, flush, earlier, by simp only [List.append_assoc], hrefused, ?_⟩
  intro v k hmem
  exact (List.mem_append.1 hmem).elim (hnone v k) (hlater v k)

/-- Among some events the store has refused a flush of a root, and the states that have been
accepted since are covered. -/
def Recovers (root : HostId) (name : String) (start : σ) (s : Server σ β)
    (since before : List StateEvent) : Prop :=
  ∃ later flush earlier, since = later ++ flush ++ earlier ∧
    RefusedFlush root name ((earlier ++ before).foldr StateEvent.applyTo start) flush ∧
      Covered root name False none s later

/-- The store is what the chronicle has made of the one at the start, and of every live root that is
the only one of its module the last state is covered, from its beginning on or from the last time
that a flush has been refused. -/
structure Server.Covers (start : σ) (s : Server σ β) : Prop where
  store : s.store = s.chronicle.foldr StateEvent.applyTo start
  covered : ∀ {root : HostId} {name : String} {state : Option Blob} {since past : List StateEvent},
    s.chronicle = since ++ .begun root name state :: past → Sole name since past →
      (s.host? root).isSome →
        Covered root name (StateStore.read (past.foldr StateEvent.applyTo start)
            (.globalState name) = .ok state) state s since ∨
          Recovers root name start s since (.begun root name state :: past)

theorem covers_new (start : σ) (settings : Settings) :
    (new start settings : Server σ β).Covers start where
  store := rfl
  covered := by
    intro root name state since past hchronicle
    have hlength := congrArg List.length hchronicle
    simp [new] at hlength

section

variable {start : σ} {s t : Server σ β} {root : HostId} {name : String} {state : Option Blob}
  {since past events : List StateEvent}

/-- A step after a flush has been refused. -/
theorem Recovers.step {before : List StateEvent} (ha : Arena suits s)
    (hc : Recovers root name start s since before)
    (hstore : s.store = (since ++ before).foldr StateEvent.applyTo start) (h : Step suits s t)
    (hevents : t.chronicle = events ++ s.chronicle) (hbegun : ∀ id st, .begun id name st ∉ events)
    (hmis : ∀ k, .misplaced k (some name) ∉ events) (hlive : (t.host? root).isSome) :
    Recovers root name start t (events ++ since) before := by
  obtain ⟨later, flush, earlier, rfl, hrefused, hcovered⟩ := hc
  rcases h.covered ha hcovered hevents hbegun hmis hlive with hnext | ⟨hflush, hnext⟩
  · exact ⟨events ++ later, flush, earlier, by simp only [List.append_assoc], hrefused, hnext⟩
  · rw [hstore] at hflush
    exact ⟨[], events, later ++ flush ++ earlier, rfl, hflush, hnext⟩

/-- Every step keeps the last states covered. -/
theorem Step.covers (ha : Arena suits s) (hr : Recorded s) (hc : s.Covers start)
    (h : Step suits s t) : t.Covers start where
  store := by
    obtain ⟨events, hevents, hstore⟩ := h.store_eq
    rw [hevents, List.foldr_append, ← hc.store, hstore]
  covered := by
    intro root name state since past hchronicle hsole hlive
    rcases h.begun_cases hchronicle with
      ⟨rfl, rfl, rfl, m, perUser, sink, rfl, rfl, rfl⟩ | ⟨events, later, hevents, rfl, hs⟩
    · rw [← hc.store]
      exact .inl (covered_beginRoot ha hr m perUser sink hsole.ended)
    · -- a root that has begun before the step goes on by the events of the step
      have hlt : root < s.nextId := by
        have hmem : .begun root name state ∈ s.chronicle := by
          rw [hs]
          exact List.mem_append_right _ List.mem_cons_self
        exact hr.begun_lt hmem
      obtain ⟨x, hx⟩ := Option.isSome_iff_exists.1 hlive
      obtain ⟨y, hy, _⟩ := h.host?_of_lt ha hlt hx
      have hbegun : ∀ id st, .begun id name st ∉ events :=
        fun id st hmem => hsole.begun id st (List.mem_append_left _ hmem)
      have hmis : ∀ k, .misplaced k (some name) ∉ events :=
        fun k hmem => hsole.misplaced k (List.mem_append_left _ hmem)
      rcases hc.covered hs hsole.of_append (by rw [hy]; rfl) with hcovered | hrecovers
      · rcases h.covered ha hcovered hevents hbegun hmis hlive with hnext | ⟨hflush, hnext⟩
        · exact .inl hnext
        · rw [hc.store, hs] at hflush
          exact .inr ⟨[], events, later, rfl, hflush, hnext⟩
      · have hstore := hc.store
        rw [hs] at hstore
        exact .inr (hrecovers.step ha hstore h hevents hbegun hmis hlive)

theorem Steps.covers (ha : Arena suits s) (hr : Recorded s) (hc : s.Covers start)
    (h : Steps suits s t) : Recorded t ∧ t.Covers start := by
  refine Steps.induction (P := fun u => Recorded u ∧ u.Covers start) ?_ ha ⟨hr, hc⟩ h
  exact fun _ _ ha hp hstep => ⟨hstep.recorded ha hp.1, hstep.covers ha hp.1 hp.2⟩

/-- What is known of a server that comes about from a new one. -/
theorem Steps.known {settings : Settings} (h : Steps suits (new start settings) s) :
    Arena suits s ∧ Recorded s ∧ s.Covers start :=
  ⟨Steps.arena (arena_new start settings) h, Steps.covers (arena_new start settings)
    (recorded_new start settings) (covers_new start settings) h⟩

/-- A state that has been accepted is in memory as long as a window is open, and in the store
otherwise, unless the store has refused to save it when the window was shut. -/
theorem Server.Covers.settled (hc : s.Covers start)
    (hchronicle : s.chronicle = since ++ .begun root name state :: past)
    (hsole : Sole name since past) {h : Host β} (hh : s.host? root = some h)
    (hknown :
      StateStore.read (past.foldr StateEvent.applyTo start) (.globalState name) = .ok state ∨
        ∃ v k, .accepted root v k ∈ since) :
    Loses root name start s.chronicle ∨
      (0 < h.saveTimeout → h.globalState = lastAccepted root state since) ∧
        (h.saveTimeout = 0 →
          content s.store (.globalState name) = lastAccepted root state since) := by
  have hlive : (s.host? root).isSome := by
    rw [hh]
    rfl
  rcases hc.covered hchronicle hsole hlive with
    hcovered | ⟨later, flush, earlier, rfl, hrefused, hcovered⟩
  · refine .inr ⟨fun hw => hcovered.pending _ _ (held_of_host? hh) hw, fun hw => ?_⟩
    have hheld := held_of_host? hh
    rw [hw] at hheld
    exact hcovered.saved _ hheld hknown
  · by_cases haccepted : ∃ v k, .accepted root v k ∈ later
    · -- the state that was accepted last has been accepted since the refusal
      right
      have hlast : lastAccepted root none later =
          lastAccepted root state (later ++ flush ++ earlier) := by
        obtain ⟨v, k, hmem⟩ := haccepted
        rw [List.append_assoc, lastAccepted_append]
        exact lastAccepted_eq_of_mem hmem _ _
      refine ⟨fun hw => ?_, fun hw => ?_⟩
      · rw [← hlast]
        exact hcovered.pending _ _ (held_of_host? hh) hw
      · have hheld := held_of_host? hh
        rw [hw] at hheld
        rw [← hlast]
        exact hcovered.saved _ hheld (.inr haccepted)
    · refine .inl ⟨later, flush, earlier ++ .begun root name state :: past, ?_, hrefused,
        fun v k hmem => haccepted ⟨v, k, hmem⟩⟩
      rw [hchronicle, List.append_assoc (later ++ flush)]

end

end ScriptHost
