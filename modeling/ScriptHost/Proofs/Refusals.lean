import Mathlib
import ScriptHost.Proofs.Shallow
import ScriptHost.Proofs.Teardown
/-!
# Global states that the store refuses

Outside of a window a new global state is given to the store at once.  It is in memory by then, so
if the store refuses it the request fails, and yet the state that was to be replaced is gone: what
is read from now on is the refused state, which nothing has saved and for which no window is open.

## Main statements

* `IsStateWrite`: the requests that replace a global state.
* `eval_writeGlobalState_of_name?`, `exec_writeGlobalState_of_refused`: what such a request answers,
  and what it does when the store refuses.
* `StateKept`, `Server.Refused`: that a failure changes nothing, and what it changes.
* `refused_of_reachable`: all of this of reachable servers.
* `unkept_market`: a failure that does change what is read.
-/

namespace ScriptHost

open Server

variable {σ β : Type} [StateStore σ] {s t : Server σ β} {id root : HostId} {h : Host β}
  {name : String} {blob : Option Blob} {e : StoreError}

/-! ## A single request -/

namespace ServerM

/-- There is no state to replace for the host that belongs to no app. -/
theorem eval_writeGlobalState_of_unnamed (hh : s.host? (s.rootOf id) = some h)
    (hn : h.name? = none) (blob : Option Blob) : (writeGlobalState id blob).eval s = .ok false := by
  unfold writeGlobalState
  rw [eval_bind, eval_get, exec_get, eval_bind, eval_host?, exec_host?, hh]
  dsimp only
  rw [eval_ite, if_pos (by simp [hn])]
  rfl

/-- The answer to a request to replace a state tells whether the state has been accepted. -/
theorem eval_writeGlobalState_of_name? (hh : s.host? (s.rootOf id) = some h)
    (hn : h.name? = some name) (blob : Option Blob) :
    (writeGlobalState id blob).eval s =
      if 0 < h.saveTimeout then .ok true
      else ((StoreRequest.ofState blob).result (.globalState name) s.store).map fun _ => true := by
  rw [(writeGlobalState_of_name? hh hn blob).1, eval_storeState_of_name? hn]
  split <;> rfl

/-- A state that the store refuses is in memory nevertheless. -/
theorem exec_writeGlobalState_of_refused (hs : s.Keyed) (hh : s.host? (s.rootOf id) = some h)
    (hn : h.name? = some name) (hw : h.saveTimeout = 0)
    (hr : (StoreRequest.ofState blob).result (.globalState name) s.store = .error e) :
    (writeGlobalState id blob).exec s =
      (s.hold (s.rootOf id) h blob).request (.ofState blob) (.globalState name) := by
  have hkeyed : (s.hold (s.rootOf id) h blob).Keyed := (CodeFrame.of_hold h blob).keyed hs
  have hname : (h.hold blob).name? = some name := hn
  have hstate : (h.hold blob).globalState = blob := rfl
  have hclosed : ¬ 0 < h.saveTimeout := by omega
  rw [(writeGlobalState_of_name? hh hn blob).2, eval_storeState_of_name? hn, if_neg hclosed, hr]
  dsimp only
  -- no window is open, so the state goes to the store, and no window opens
  unfold storeState
  rw [exec_bind, eval_holdState, exec_holdState hs hh, exec_ite,
    exec_saveAndOpen hkeyed (Server.host?_hold hh blob) hname hstate, Server.store_hold, hr]
  exact if_neg hclosed

/-- A tag without a file is the global state, for a host that may use resources of the scope. -/
theorem writeTag_none {x : Host β} (hx : s.host? id = some x) (blob : Blob) (shared : Bool) :
    ((writeTag id blob none shared).eval s = .ok false ∧ x.name? = none) ∨
    ((writeTag id blob none shared).eval s = (writeGlobalState id (some blob)).eval s ∧
      (writeTag id blob none shared).exec s = (writeGlobalState id (some blob)).exec s) := by
  unfold writeTag withScope
  rw [eval_bind, exec_bind, eval_host?, exec_host?, hx]
  dsimp only
  rw [eval_ite, exec_ite]
  split
  · rename_i hdenied
    exact .inl ⟨rfl, Option.isNone_iff_eq_none.1 hdenied.1⟩
  · exact .inr ⟨rfl, rfl⟩

/-- What is read of global state, through a host that there may be or not. -/
theorem eval_readTag_none_eq (k : HostId) (shared : Bool) :
    (readTag k none shared).eval s =
      match (s.host? k).map (·.name?) with
      | none => .error (unknownHost k)
      | some n => if n.isNone ∧ !shared then .ok none else .ok (s.stateSeenBy k) := by
  unfold readTag withScope
  rw [eval_bind, eval_host?, exec_host?]
  cases s.host? k with
  | none => rfl
  | some x =>
      rw [Option.map_some]
      dsimp only
      rw [eval_ite]
      rfl

end ServerM

open ServerM

/-- A request to replace the global state of an app: as such, or as the tag without a file. -/
inductive IsStateWrite (id : HostId) : Option Blob → ServerM σ β (Except StoreError Bool) → Prop where
  | state (blob : Option Blob) : IsStateWrite id blob (writeGlobalState id blob)
  | tag (blob : Blob) (shared : Bool) : IsStateWrite id (some blob) (writeTag id blob none shared)

/-- A failure has left the state and the window of a root as they were, and whatever is read of
global state through any host. -/
structure StateKept (s t : Server σ β) (root : HostId) : Prop where
  held : t.held root = s.held root
  reads : ∀ k shared, (readTag k none shared).eval t = (readTag k none shared).eval s

/-- What a failure comes to whose reason is that the store has refused a state. -/
structure Server.Refused (s t : Server σ β) (root : HostId) (h : Host β) (name : String)
    (blob : Option Blob) : Prop where
  /-- The root holds the refused state.  Its window is as it was: shut. -/
  taken : t.host? root = some (h.hold blob) ∧ h.saveTimeout = 0
  /-- There is nothing else that has changed in memory. -/
  others : ∀ k, k ≠ root → t.host? k = s.host? k
  frame : t.apps = s.apps ∧ t.dispatch = s.dispatch ∧ t.nextId = s.nextId ∧
    t.settings = s.settings ∧ t.isStopped = s.isStopped
  /-- The store has had that one request. -/
  store : t.store = (StoreRequest.ofState blob).apply (.globalState name) s.store
  /-- What is read through the hosts of the root is the refused state. -/
  reads : ∀ k x shared, s.host? k = some x → s.rootOf k = root →
    (readTag k none shared).eval t = .ok blob
  /-- Where a refused request changes nothing, what is saved is as it was. -/
  saved : ∀ [FaultyStore σ] key, FaultyStore.content t.store key = FaultyStore.content s.store key
  /-- No number of ticks makes up for the save, nor does the end of the root after them. -/
  forgotten : ∀ n, (((tickHost root).exec)^[n] t).store = t.store ∧
    ((flushPending root).exec (((tickHost root).exec)^[n] t)).store = t.store
  /-- Hence something has changed unless the refused state is the old one. -/
  kept_iff : StateKept s t root ↔ blob = h.globalState

omit [StateStore σ] in
/-- What is read through each host once a root has taken a state: the hosts of the root read that
state, all others what they read before. -/
theorem Server.stateSeenBy_hold (hh : s.host? root = some h) (blob : Option Blob) (k : HostId) :
    (s.hold root h blob).stateSeenBy k = if s.rootOf k = root then blob else s.stateSeenBy k := by
  have hroot : (s.hold root h blob).rootOf k = s.rootOf k := by
    unfold rootOf
    rw [show (s.hold root h blob).host? k = (s.modifyHost root (·.hold blob)).host? k from rfl,
      host?_modifyHost]
    split
    · cases s.host? k <;> rfl
    · rfl
  unfold stateSeenBy
  rw [hroot]
  split
  · rename_i hk
    rw [hk, host?_hold hh]
    rfl
  · rename_i hk
    rw [show (s.hold root h blob).host? (s.rootOf k) =
      (s.modifyHost root (·.hold blob)).host? (s.rootOf k) from rfl, host?_modifyHost,
      if_neg (Ne.symm hk)]

variable {suits : String → Module → Prop}

/-- While no window is open, ticks and the end of a host do not reach the store. -/
theorem store_iterate_tickHost (hh : s.host? root = some h) (hw : h.saveTimeout = 0) (n : Nat) :
    (((tickHost root).exec)^[n] s).store = s.store ∧
      ((flushPending root).exec (((tickHost root).exec)^[n] s)).store = s.store := by
  have hclosed : ¬ 0 < h.saveTimeout := by omega
  have hticks : (((tickHost root).exec)^[n] s).host? root = some h ∧
      (((tickHost root).exec)^[n] s).store = s.store := by
    induction n with
    | zero => exact ⟨hh, rfl⟩
    | succ n ih =>
        obtain ⟨hhost, hstore⟩ := ih
        rw [Function.iterate_succ_apply']
        generalize ((tickHost root).exec)^[n] s = u at hhost hstore ⊢
        unfold tickHost
        rw [exec_bind, eval_host?, exec_host?, hhost]
        dsimp only
        rw [exec_bind, exec_ite, if_neg hclosed]
        exact ⟨hhost, hstore⟩
  obtain ⟨hhost, hstore⟩ := hticks
  refine ⟨hstore, ?_⟩
  unfold flushPending
  rw [exec_bind, eval_host?, exec_host?, hhost]
  dsimp only
  rw [exec_bind, exec_ite, if_neg hclosed]
  exact hstore

/-- A root that has taken a state which the store refuses. -/
theorem Server.Arena.refused (ha : Arena suits s) (hh : s.host? root = some h)
    (hn : h.name? = some name) (hw : h.saveTimeout = 0)
    (hr : (StoreRequest.ofState blob).result (.globalState name) s.store = .error e) :
    s.Refused ((s.hold root h blob).request (.ofState blob) (.globalState name)) root h name
      blob := by
  set t := (s.hold root h blob).request (.ofState blob) (.globalState name) with ht
  have hhosts : ∀ k, t.host? k = (s.modifyHost root (·.hold blob)).host? k := fun _ => rfl
  have htaken : t.host? root = some (h.hold blob) := host?_hold hh blob
  have hseen : ∀ k, t.stateSeenBy k = if s.rootOf k = root then blob else s.stateSeenBy k :=
    stateSeenBy_hold hh blob
  have hnames : ∀ k, (t.host? k).map (·.name?) = (s.host? k).map (·.name?) := fun k => by
    rw [hhosts, host?_modifyHost]
    split
    · cases s.host? k <;> rfl
    · rfl
  have hreads : ∀ k x shared, s.host? k = some x → s.rootOf k = root →
      (readTag k none shared).eval t = .ok blob := fun k x shared hx hk => by
    have hname : x.name? = some name := by
      rw [← appOf_of_host? hx, ← ha.appOf_rootOf hx, hk, appOf_of_host? hh, hn]
    rw [eval_readTag_none_eq, hnames, hx, hseen, if_pos hk]
    simp [hname]
  exact
    { taken := ⟨htaken, hw⟩
      others := fun k hk => by rw [hhosts, host?_modifyHost, if_neg (Ne.symm hk)]
      frame := ⟨rfl, rfl, rfl, rfl, rfl⟩
      store := rfl
      reads := hreads
      saved := fun key => by
        by_cases hkey : ResourceKey.globalState name = key
        · subst hkey
          exact FaultyStore.content_apply_of_error _ _ _ e hr
        · exact FaultyStore.content_apply_of_ne _ _ hkey
      forgotten := store_iterate_tickHost htaken hw
      kept_iff := by
        constructor
        · intro hkept
          have hheld := hkept.held
          rw [held_of_host? htaken, held_of_host? hh] at hheld
          exact (Prod.mk.inj (Option.some.inj hheld)).1
        · rintro rfl
          refine ⟨?_, fun k shared => ?_⟩
          · rw [held_of_host? htaken, held_of_host? hh]
            rfl
          · have hsame : t.stateSeenBy k = s.stateSeenBy k := by
              rw [hseen]
              split
              · rename_i hk
                rw [stateSeenBy, hk, hh]
                rfl
              · rfl
            rw [eval_readTag_none_eq, eval_readTag_none_eq, hnames, hsame] }

/-! ## Reachable servers -/

/-- It makes no difference how a request to replace the state of an app is put.  Nothing is
replaced for the host that belongs to no app, and nothing fails there. -/
theorem IsStateWrite.cases {m : ServerM σ β (Except StoreError Bool)} (hm : IsStateWrite id blob m)
    (ha : Arena suits s) (hh : s.host? (s.rootOf id) = some h) :
    (h.name? = none ∧ m.eval s = .ok false) ∨
    ∃ name, h.name? = some name ∧ m.eval s = (writeGlobalState id blob).eval s ∧
      m.exec s = (writeGlobalState id blob).exec s := by
  obtain ⟨x, hx⟩ : ∃ x, s.host? id = some x := by
    cases hx : s.host? id with
    | some x => exact ⟨x, rfl⟩
    | none =>
        have hself : s.rootOf id = id := by simp [rootOf, hx]
        rw [hself, hx] at hh
        cases hh
  have hname : x.name? = h.name? := by
    rw [← appOf_of_host? hx, ← ha.appOf_rootOf hx, appOf_of_host? hh]
  cases hn : h.name? with
  | none =>
      refine .inl ⟨rfl, ?_⟩
      cases hm with
      | state => exact eval_writeGlobalState_of_unnamed hh hn blob
      | tag b shared =>
          rcases writeTag_none hx b shared with ⟨hdenied, _⟩ | ⟨hsame, _⟩
          · exact hdenied
          · rw [hsame, eval_writeGlobalState_of_unnamed hh hn]
  | some name =>
      refine .inr ⟨name, rfl, ?_⟩
      cases hm with
      | state => exact ⟨rfl, rfl⟩
      | tag b shared =>
          rcases writeTag_none hx b shared with ⟨_, hnone⟩ | hsame
          · rw [hname, hn] at hnone
            cases hnone
          · exact hsame

/-- In every reachable server, a request to replace the state of an app fails just if no window is
open and the store refuses the new state.  The window of the root is then as it was; but the new
state is in memory, and is what is read through every host of the root from then on, with nothing
left to save it.  So the failure changes nothing just if the state is the old one. -/
theorem refused_of_reachable {allowed : Catalogue → Prop} (hs : Reachable allowed s)
    {m : ServerM σ β (Except StoreError Bool)} (hm : IsStateWrite id blob m)
    (hh : s.host? (s.rootOf id) = some h) :
    (m.eval s = .error e ↔ ∃ name, h.name? = some name ∧ h.saveTimeout = 0 ∧
      (StoreRequest.ofState blob).result (.globalState name) s.store = .error e) ∧
    (m.eval s = .error e →
      ∃ name, h.name? = some name ∧ s.Refused (m.exec s) (s.rootOf id) h name blob) := by
  have ha : Arena (fun _ _ => True) s := hs.arena fun _ _ _ _ _ => trivial
  rcases hm.cases ha hh with ⟨hnone, heval⟩ | ⟨name, hn, heval, hexec⟩
  · rw [heval]
    refine ⟨⟨fun h => (by cases h), ?_⟩, fun h => (by cases h)⟩
    rintro ⟨name, hn, _⟩
    rw [hnone] at hn
    cases hn
  · have hiff : m.eval s = .error e ↔ h.saveTimeout = 0 ∧
        (StoreRequest.ofState blob).result (.globalState name) s.store = .error e := by
      rw [heval, eval_writeGlobalState_of_name? hh hn]
      by_cases hw : 0 < h.saveTimeout
      · rw [if_pos hw]
        exact ⟨fun h => (by cases h), fun ⟨hz, _⟩ => absurd hz (by omega)⟩
      · rw [if_neg hw, and_iff_right (by omega)]
        cases (StoreRequest.ofState blob).result (.globalState name) s.store <;>
          simp [Except.map]
    constructor
    · rw [hiff]
      refine ⟨fun h => ⟨name, hn, h⟩, ?_⟩
      rintro ⟨name', hn', h⟩
      obtain rfl := Option.some.inj (hn.symm.trans hn')
      exact h
    · intro herror
      obtain ⟨hw, hr⟩ := hiff.1 herror
      rw [hexec, exec_writeGlobalState_of_refused ha.keyed hh hn hw hr]
      exact ⟨name, hn, ha.refused hh hn hw hr⟩

/-- The market takes a state, and when its window is over the store refuses the next one. -/
def marketRefusals : FlakyMemory := { store := ∅, refusals := [false, false, true] }

/-- The store refuses the state that a user gives to the market. -/
theorem refused_market :
    let co := Collaborators.plain (.always (.done (.ok .null))) marketCatalogue
    let s : Server FlakyMemory Unit := Operation.runAll co
      (marketOperations ++ [.writeGlobalState 1 (some "a".toUTF8), .tick, .tick])
      (.new marketRefusals { saveDebounceTicks := 2 })
    let m := writeTag 2 "b".toUTF8 none false
    Reachable (fun _ => True) s ∧ IsStateWrite 2 (some "b".toUTF8) m ∧
      ∃ h e, s.host? (s.rootOf 2) = some h ∧ m.eval s = .error e ∧
        ∃ name, h.name? = some name ∧
          s.Refused (m.exec s) (s.rootOf 2) h name (some "b".toUTF8) := by
  intro co s m
  have hs : Reachable (fun _ => True) s := .runAll trivial _ (.new _ _)
  have hm : IsStateWrite 2 (some "b".toUTF8) m := .tag _ _
  have hlive : (s.host? (s.rootOf 2)).isSome := by decide +kernel
  obtain ⟨h, hh⟩ := Option.isSome_iff_exists.1 hlive
  have hfails : (m.eval s).toOption = none := by decide +kernel
  obtain ⟨e, he⟩ : ∃ e, m.eval s = .error e := by
    cases hanswer : m.eval s with
    | error e => exact ⟨e, rfl⟩
    | ok b =>
        rw [hanswer] at hfails
        cases hfails
  exact ⟨hs, hm, h, e, hh, he, (refused_of_reachable hs hm hh).2 he⟩

/-- The request of the user fails.  Yet the refused state is then read through the host of another
user, where the state before was read, and which the store still holds. -/
theorem unkept_market :
    let co := Collaborators.plain (.always (.done (.ok .null))) marketCatalogue
    let s : Server FlakyMemory Unit := Operation.runAll co
      (marketOperations ++ [.writeGlobalState 1 (some "a".toUTF8), .tick, .tick])
      (.new marketRefusals { saveDebounceTicks := 2 })
    let m := writeTag 2 "b".toUTF8 none false
    let t := m.exec s
    Reachable (fun _ => True) s ∧ (m.eval s).toOption = none ∧
      s.held 1 = some (some "a".toUTF8, 0) ∧ t.held 1 = some (some "b".toUTF8, 0) ∧
      ((readTag 3 none false).eval s).toOption = some (some "a".toUTF8) ∧
      ((readTag 3 none false).eval t).toOption = some (some "b".toUTF8) ∧
      FaultyStore.content t.store (.globalState "market") = some "a".toUTF8 ∧
      t.store.refusals = [] ∧ ¬ StateKept s t 1 := by
  intro co s m t
  have hbefore : s.held 1 = some (some "a".toUTF8, 0) := by decide +kernel
  have hafter : t.held 1 = some (some "b".toUTF8, 0) := by decide +kernel
  refine ⟨.runAll trivial _ (.new _ _), by decide +kernel, hbefore, hafter, by decide +kernel,
    by decide +kernel, by decide +kernel, by decide +kernel, fun hkept => ?_⟩
  have hheld := hkept.held
  rw [hbefore, hafter] at hheld
  exact absurd hheld (by decide +kernel)

end ScriptHost
