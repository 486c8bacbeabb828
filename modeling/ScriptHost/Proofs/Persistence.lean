import Mathlib
import ScriptHost.Proofs.Following
import ScriptHost.Proofs.Operations
import ScriptHost.Proofs.Records
/-!
# Debounced persistence

In a reachable server with a reliable store, each root that has been the only one of its module
since it began follows the rules of `Monitor.Replay`.  So its state is saved when it should be, and
no more often than that.

## Main statements

* `Sole`, `Server.Persists`: the roots that are the only ones of their modules, and what they do.
* `Step.persists`: every step of a server keeps them at it.
* `Server.Reachable.store_eq`: the chronicle tells all that is made of the store.
* `Debounced`, `Follows.debounced`: how such a root saves its state.
-/

namespace ScriptHost

variable {σ β : Type} [StateStore σ] {suits : String → Module → Prop}

open Server

section

variable {root : HostId} {name : String} {state : Option Blob} {s t : Server σ β}
  {since events past : List StateEvent}

/-! ## Roots that are the only ones of their modules -/

/-- Between the events before a root began and those after it, no other root of its module was or
came to be, and since then no user host of the module was made to hold state. -/
structure Sole (name : String) (since past : List StateEvent) : Prop where
  begun : ∀ id state, .begun id name state ∉ since
  ended : ∀ id state, .begun id name state ∈ past → .ended id ∈ past
  misplaced : ∀ id, .misplaced id (some name) ∉ since

/-! ## From the beginning of the root on -/

omit [StateStore σ] in
/-- Where all roots of a module have ended, no host of the module is there. -/
theorem Server.Arena.name?_ne_of_ended (ha : Arena suits s) (hr : Recorded s)
    (hended : ∀ id st, .begun id name st ∈ s.chronicle → .ended id ∈ s.chronicle) {c : HostId}
    {x : Host β} (hx : s.host? c = some x) : x.name? ≠ some name := by
  intro hn
  obtain ⟨r, y, hy, ho, hny⟩ := ha.exists_root hx
  obtain ⟨st, hmem⟩ := hr.begun hy ho (hny.trans hn)
  obtain ⟨hgone, _⟩ := hr.ended (hended r st hmem)
  rw [hy] at hgone
  cases hgone

/-- A reliable store lets the saved state of a module be read. -/
theorem read_eq_savedState [ReliableStore σ] (s : Server σ β) (m : Module) :
    StateStore.read s.store (.globalState m.name) = .ok (s.savedState (some m)) := by
  obtain ⟨v, hv⟩ := ReliableStore.read_isOk s.store (.globalState m.name)
  unfold savedState
  dsimp only
  rw [hv]

/-- A root that begins while no other root of its module is there holds what the store holds. -/
theorem follows_beginRoot [ReliableStore σ] (ha : Arena suits s) (hr : Recorded s) (m : Module)
    (perUser : Bool) (sink : Option Actor)
    (hended : ∀ id st, .begun id m.name st ∈ s.chronicle → .ended id ∈ s.chronicle) :
    Follows s.nextId m.name (s.savedState (some m))
      (s.beginRoot (some m) perUser (s.savedState (some m)) sink) [] := by
  have hnew : (s.beginRoot (some m) perUser (s.savedState (some m)) sink).host? s.nextId =
      some (s.newRoot (some m) perUser (s.savedState (some m)) sink) := by
    rw [host?_beginRoot, if_pos rfl]
  exact
    { live := ⟨_, hnew, rfl, rfl⟩
      others := by
        intro c x hx hn hc
        rw [host?_beginRoot, if_neg (Ne.symm hc)] at hx
        exact absurd hn (ha.name?_ne_of_ended hr hended hx)
      replay := ⟨_, 0, held_of_host? hnew, .nil, fun _ => read_eq_savedState s m⟩ }

/-- Every live root that is the only one of its module has followed the rules since it began. -/
def Server.Persists (s : Server σ β) : Prop :=
  ∀ {root : HostId} {name : String} {state : Option Blob} {since past : List StateEvent},
    s.chronicle = since ++ .begun root name state :: past → Sole name since past →
      (s.host? root).isSome → Follows root name state s since

/-- In a new server no root has begun. -/
theorem persists_new (store : σ) (settings : Settings) :
    (new store settings : Server σ β).Persists := by
  intro root name state since past hchronicle
  have hlength := congrArg List.length hchronicle
  simp [new] at hlength

/-- A root that is the only one for a while is so from the beginning. -/
theorem Sole.of_append {past : List StateEvent} (h : Sole name (events ++ since) past) :
    Sole name since past where
  begun id st hmem := h.begun id st (List.mem_append_right _ hmem)
  ended := h.ended
  misplaced id hmem := h.misplaced id (List.mem_append_right _ hmem)

/-- Every step keeps the roots that are there in step. -/
theorem Step.persists [ReliableStore σ] (ha : Arena suits s) (hr : Recorded s) (hp : s.Persists)
    (h : Step suits s t) : t.Persists := by
  intro root name state since past hchronicle hsole hlive
  rcases h.begun_cases hchronicle with
    ⟨rfl, rfl, rfl, m, perUser, sink, rfl, rfl, rfl⟩ | ⟨events, later, hevents, rfl, hs⟩
  · exact follows_beginRoot ha hr m perUser sink hsole.ended
  · -- a root that has begun before the step goes on by the events of the step
    have hlt : root < s.nextId := by
      have hmem : .begun root name state ∈ s.chronicle := by
        rw [hs]
        exact List.mem_append_right _ List.mem_cons_self
      exact hr.begun_lt hmem
    obtain ⟨x, hx⟩ := Option.isSome_iff_exists.1 hlive
    obtain ⟨y, hy, _⟩ := h.host?_of_lt ha hlt hx
    have hf := hp hs hsole.of_append (by rw [hy]; rfl)
    exact h.follows ha hf hevents
      (fun id st hmem => hsole.begun id st (List.mem_append_left _ hmem))
      (fun k hmem => hsole.misplaced k (List.mem_append_left _ hmem)) hlive

end

/-! ## Answers to writes and reads -/

namespace ServerM

variable {s : Server σ β} {id : HostId} {h : Host β} {name : String}

/-- A new state is accepted within a window, and otherwise if the store takes it. -/
theorem eval_storeState_of_name? (hn : h.name? = some name) (blob : Option Blob) :
    (storeState h blob).eval s =
      if 0 < h.saveTimeout then .ok ()
      else (StoreRequest.ofState blob).result (.globalState name) s.store := by
  have hstore : ((holdState h blob).exec s).store = s.store := by
    unfold holdState
    cases h.isRoot <;> rfl
  have hname : (h.hold blob).name? = some name := hn
  unfold storeState
  rw [eval_bind, eval_holdState, eval_ite, eval_saveAndOpen _ hname rfl, hstore]
  rfl

/-- The state of an app is replaced at its root; if the new state is accepted, that is remembered
last. -/
theorem writeGlobalState_of_name? (hh : s.host? (s.rootOf id) = some h) (hn : h.name? = some name)
    (blob : Option Blob) :
    (writeGlobalState id blob).eval s = ((storeState h blob).eval s).map (fun _ => true) ∧
      (writeGlobalState id blob).exec s =
        match (storeState h blob).eval s with
        | .ok () => ((storeState h blob).exec s).remember (.accepted h.id blob h.saveTimeout)
        | .error _ => (storeState h blob).exec s := by
  unfold writeGlobalState
  rw [eval_bind, exec_bind, eval_get, exec_get, eval_bind, exec_bind, eval_host?, exec_host?, hh]
  dsimp only
  rw [eval_ite, exec_ite, if_neg (by simp [hn]), if_neg (by simp [hn]), eval_bind, exec_bind]
  cases (storeState h blob).eval s <;> exact ⟨rfl, rfl⟩

end ServerM

/-! ## Reachable servers -/

section

variable [ReliableStore σ] {s : Server σ β} {id root : HostId} {h : Host β} {name : String}

namespace ServerM

/-- A reliable store lets every root of an app replace its state. -/
theorem eval_storeState (hn : h.name? = some name) (blob : Option Blob) :
    (storeState h blob).eval s = .ok () := by
  rw [eval_storeState_of_name? hn, StoreRequest.result_eq_ok, ite_self]

/-- A state given through a host of an app is accepted. -/
theorem eval_writeGlobalState (hroot : s.rootOf id = root) (hh : s.host? root = some h)
    (hn : h.name? = some name) (blob : Option Blob) :
    (writeGlobalState id blob).eval s = .ok true := by
  subst hroot
  rw [(writeGlobalState_of_name? hh hn blob).1, eval_storeState hn]
  rfl

/-- That a state has been accepted is the last thing that is remembered. -/
theorem chronicle_writeGlobalState (hs : s.Keyed) (hroot : s.rootOf id = root)
    (hh : s.host? root = some h) (hn : h.name? = some name) (blob : Option Blob) :
    ((writeGlobalState id blob).exec s).chronicle =
      .accepted root blob h.saveTimeout :: ((storeState h blob).exec s).chronicle := by
  subst hroot
  have hid : h.id = s.rootOf id := hs hh
  rw [(writeGlobalState_of_name? hh hn blob).2, eval_storeState hn, hid]
  rfl

omit [ReliableStore σ] in
/-- What is read through a host of an app is the state that its root holds. -/
theorem eval_readTag_none {x : Host β} (hx : s.host? id = some x) (hn : x.name? = some name)
    (hroot : s.rootOf id = root) (hh : s.host? root = some h) (shared : Bool) :
    (readTag id none shared).eval s = .ok h.globalState := by
  unfold readTag withScope
  rw [eval_bind, eval_host?, exec_host?, hx]
  dsimp only
  rw [eval_ite, if_neg (by simp [hn]), eval_bind, eval_get, exec_get, eval_bind, eval_bind,
    eval_host?, hroot, hh]
  rfl

end ServerM

omit [ReliableStore σ] in
/-- The store of a reachable server is what the requests in its chronicle have made of the store
that it began with: nothing else touches the store. -/
theorem Server.Reachable.store_eq {allowed : Catalogue → Prop} (hs : Reachable allowed s) :
    ∃ store, s.store = s.chronicle.foldr StateEvent.applyTo store := by
  have hfollows : ∀ c, allowed c → c.Follows fun _ _ => True := fun _ _ _ _ _ => trivial
  refine (hs.induction (P := fun s => ∃ store, s.store = s.chronicle.foldr StateEvent.applyTo store)
    hfollows (fun store _ => ⟨store, rfl⟩) ?_).2
  rintro s t _ ⟨store, hstore⟩ hstep
  obtain ⟨events, hevents, hfold⟩ := hstep.store_eq
  exact ⟨store, by rw [hevents, List.foldr_append, ← hstore, hfold]⟩

/-- How a root saves its global state, from the events since it began, latest first.

The window stays within its bound, and the slot holds the state in memory whenever no window is
open.  A state that is accepted within a window leaves the slot alone until the last tick of the
window, which saves, once, the state that was accepted last.  What is read, now or earlier, is the
state that was accepted last.  If the root is never closed, the store is asked at most once, and
twice more for each window that the ticks have room for. -/
structure Debounced (root : HostId) (name : String) (state : Option Blob) (s : Server σ β)
    (h : Host β) (since : List StateEvent) : Prop where
  window : h.saveTimeout ≤ s.settings.saveDebounceTicks
  saved : h.saveTimeout = 0 → StateStore.read s.store (.globalState name) = .ok h.globalState
  accepts : ∀ id blob, s.rootOf id = root →
    (ServerM.writeGlobalState id blob).eval s = .ok true ∧
      ∃ events, ((ServerM.writeGlobalState id blob).exec s).chronicle =
        .accepted root blob h.saveTimeout :: events
  undisturbed : ∀ {later before earlier : List StateEvent} {v : Option Blob} {k : Nat}, 0 < k →
    since = later ++ before ++ .accepted root v k :: earlier → .closed root ∉ before →
      before.countP (·.isTickOf root) < k → ∀ e ∈ before, ¬ e.isRequestOn (.globalState name)
  flushed : ∀ {later before earlier : List StateEvent} {v : Option Blob} {k : Nat}, 0 < k →
    since = later ++ .ticked root :: before ++ .accepted root v k :: earlier →
      .closed root ∉ before → before.countP (·.isTickOf root) + 1 = k →
        ∃ after, later =
            after ++ [.stored (.ofState (lastAccepted root v before)) (.globalState name)] ∧
          ∀ first last, after = last ++ first → (∀ w j, .replaced root w j ∉ first) →
            ∀ e ∈ first, ¬ e.isRequestOn (.globalState name)
  reads : ∀ id shared, s.rootOf id = root → (s.host? id).isSome →
    (ServerM.readTag id none shared).eval s = .ok (lastAccepted root state since)
  answered : ∀ {later earlier : List StateEvent} {v : Option Blob},
    since = later ++ .answered root v :: earlier → v = lastAccepted root state earlier
  requests : 0 < s.settings.saveDebounceTicks → .closed root ∉ since →
    since.countP (·.isRequestOn (.globalState name)) ≤
      1 + 2 * (since.countP (·.isTickOf root) / s.settings.saveDebounceTicks)

variable {state : Option Blob} {since past : List StateEvent}

/-- A root that follows the rules saves its state as it should. -/
theorem Follows.debounced (ha : Arena suits s) (hf : Follows root name state s since)
    (hh : s.host? root = some h) : Debounced root name state s h since := by
  obtain ⟨v, k, hheld, hreplay, hread⟩ := hf.replay
  obtain ⟨rfl, rfl⟩ := eq_of_held hh hheld
  have hn : h.name? = some name := by
    obtain ⟨x, hx, _, hn⟩ := hf.live
    obtain rfl : h = x := Option.some.inj (hh.symm.trans hx)
    exact hn
  have hmemory : h.globalState = lastAccepted root state since := hreplay.memory_eq
  exact
    { window := hreplay.left_le (Nat.zero_le _)
      saved := hread
      accepts := fun id blob hid =>
        ⟨ServerM.eval_writeGlobalState hid hh hn blob, _,
          ServerM.chronicle_writeGlobalState ha.keyed hid hh hn blob⟩
      undisturbed := by
        rintro later before earlier v k hk rfl hclosed hticks
        rw [List.append_assoc] at hreplay
        obtain ⟨n, hn, _⟩ := hreplay.of_append
        have hwithin := Monitor.Replay.of_accepted hk hn
        exact (hwithin.within hclosed hticks).2.2
      flushed := by
        rintro later before earlier v k hk rfl hclosed hticks
        exact (hreplay.of_accepted hk).flushed hclosed hticks rfl
      reads := by
        intro id shared hid hlive
        obtain ⟨x, hx⟩ := Option.isSome_iff_exists.1 hlive
        have happ := ha.appOf_rootOf hx
        rw [hid, appOf_of_host? hh, appOf_of_host? hx, hn] at happ
        have hnx : x.name? = some name := happ.symm
        rw [ServerM.eval_readTag_none hx hnx hid hh shared, hmemory]
      answered := by
        rintro later earlier v rfl
        exact hreplay.answered_eq
      requests := fun hw hclosed => hreplay.countP_le hw hclosed }

/-- In every reachable server with a reliable store, each live root that has been the only one of
its module since it began saves its state as it should. -/
theorem debounced_of_reachable {allowed : Catalogue → Prop} (hs : Reachable allowed s)
    (hchronicle : s.chronicle = since ++ .begun root name state :: past) (hsole : Sole name since past)
    (hh : s.host? root = some h) : Debounced root name state s h since := by
  have hfollows : ∀ c, allowed c → c.Follows fun _ _ => True := fun _ _ _ _ _ => trivial
  obtain ⟨ha, _, hpersists⟩ := hs.induction (P := fun s => Recorded s ∧ s.Persists) hfollows
    (fun store settings => ⟨recorded_new store settings, persists_new store settings⟩)
    fun _ _ ha hp hstep => ⟨hstep.recorded ha hp.1, hstep.persists ha hp.1 hp.2⟩
  have hlive : (s.host? root).isSome := by rw [hh]; rfl
  exact (hpersists hchronicle hsole hlive).debounced ha hh

/-- States are traded in the market through the hosts of both users and through the root, within
windows of two ticks and outside of them. -/
def marketTrade : List (Operation Unit) :=
  [.writeGlobalState 2 (some "1".toUTF8), .writeGlobalState 1 (some "2".toUTF8), .tick,
    .writeGlobalState 3 none, .tickHost 1, .readTag 3 none false]

/-- The root of the market saves its state as it should: the first state at once, and that there is
none after the window. -/
theorem debounced_marketTrade :
    let co := Collaborators.plain (.always (.done (.ok .null))) marketCatalogue
    let s : Server MemoryStore Unit :=
      Operation.runAll co (marketOperations ++ marketTrade) (.new ∅ { saveDebounceTicks := 2 })
    let since : List StateEvent :=
      [.answered 1 none, .stored .delete (.globalState "market"), .ticked 1, .accepted 1 none 1,
        .replaced 1 none 1, .ticked 1, .ticked 0, .accepted 1 (some "2".toUTF8) 2,
        .replaced 1 (some "2".toUTF8) 2, .accepted 1 (some "1".toUTF8) 0,
        .stored (.write "1".toUTF8) (.globalState "market"), .replaced 1 (some "1".toUTF8) 0]
    Reachable (fun _ => True) s ∧ s.chronicle = since ++ [.begun 1 "market" none] ∧
      Sole "market" since [] ∧ ∃ h, s.host? 1 = some h ∧ Debounced 1 "market" none s h since := by
  intro co s since
  have hs : Reachable (fun _ => True) s := .runAll trivial _ (.new _ _)
  have hchronicle : s.chronicle = since ++ [.begun 1 "market" none] := by decide +kernel
  have hsole : Sole "market" since [] :=
    { begun := by simp [since]
      ended := by simp
      misplaced := by simp [since] }
  have hlive : (s.host? 1).isSome := by decide +kernel
  obtain ⟨h, hh⟩ := Option.isSome_iff_exists.1 hlive
  exact ⟨hs, hchronicle, hsole, h, hh, debounced_of_reachable hs hchronicle hsole hh⟩

end

end ScriptHost
