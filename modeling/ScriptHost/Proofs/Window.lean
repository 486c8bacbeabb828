import Mathlib
import ScriptHost.Chronicle
/-!
# The window of a root

What may happen to the global state of one root, event by event.  A state that is given outside of
a window is saved and opens a window; one that is given within a window stays in memory; the last
tick of a window saves what memory holds then.  `Replay` says that a chronicle, latest event first,
goes by these rules, and the results of this file are read off such chronicles.

## Main statements

* `StateEvent.Concerns`, `Monitor`, `Monitor.Next`, `Monitor.Replay`: the rules.
* `Monitor.Replay.left_le`, `Monitor.Replay.memory_eq`: windows are bounded, and memory holds the
  state that was accepted last.
* `Monitor.Replay.within`, `Monitor.Replay.flushed`: when the store is asked.
* `Monitor.Replay.countP_le`: how often the store is asked.
-/

namespace ScriptHost

deriving instance DecidableEq for StoreRequest, StateEvent

/-- The state that a root holds after a chronicle, latest event first: the one that was accepted
last, or else the one that it began with. -/
def lastAccepted (root : HostId) (state : Option Blob) : List StateEvent → Option Blob
  | [] => state
  | .accepted id blob _ :: events => if id = root then blob else lastAccepted root state events
  | _ :: events => lastAccepted root state events

/-- What was accepted last after some events and then some more. -/
theorem lastAccepted_append (root : HostId) (state : Option Blob)
    (later earlier : List StateEvent) :
    lastAccepted root state (later ++ earlier) =
      lastAccepted root (lastAccepted root state earlier) later := by
  induction later with
  | nil => rfl
  | cons e later ih =>
      cases e with
      | accepted id blob left =>
          rw [List.cons_append, lastAccepted, lastAccepted, ih]
      | _ => exact ih

/-- Where nothing is accepted, the state from before is the one that was accepted last. -/
theorem lastAccepted_of_forall {root : HostId} {state : Option Blob} {events : List StateEvent}
    (h : ∀ v k, .accepted root v k ∉ events) : lastAccepted root state events = state := by
  induction events with
  | nil => rfl
  | cons e events ih =>
      have htail := ih fun v k hmem => h v k (List.mem_cons_of_mem e hmem)
      cases e with
      | accepted id blob left =>
          have hid : id ≠ root := by
            rintro rfl
            exact h blob left List.mem_cons_self
          rw [lastAccepted, if_neg hid, htail]
      | _ => exact htail

/-- After a state has been accepted it does not matter what was there before. -/
theorem lastAccepted_eq_of_mem {root : HostId} {v : Option Blob} {k : Nat}
    {events : List StateEvent} (h : .accepted root v k ∈ events) (a b : Option Blob) :
    lastAccepted root a events = lastAccepted root b events := by
  induction events with
  | nil => exact absurd h List.not_mem_nil
  | cons e events ih =>
      have htail : e ≠ .accepted root v k →
          lastAccepted root a events = lastAccepted root b events :=
        fun he => ih ((List.mem_cons.1 h).resolve_left (Ne.symm he))
      cases e with
      | accepted id blob left =>
          rw [lastAccepted, lastAccepted]
          split
          · rfl
          · rename_i hid
            apply htail
            intro heq
            exact hid (StateEvent.accepted.inj heq).1
      | _ => exact htail (by simp)

namespace StateEvent

/-- The event has to do with the state of a root or with the slot in which it is saved. -/
def Concerns (root : HostId) (slot : ResourceKey) : StateEvent → Prop
  | replaced id _ _ => id = root
  | accepted id _ _ => id = root
  | answered id _ => id = root
  | ticked id => id = root
  | closed id => id = root
  | stored _ key => key = slot
  | _ => False

variable {root : HostId} {slot : ResourceKey} {e : StateEvent}

theorem isTickOf_of_not_concerns (h : ¬ e.Concerns root slot) : e.isTickOf root = false := by
  cases e with
  | ticked id =>
      have hid : id ≠ root := h
      simp [isTickOf, hid]
  | _ => rfl

theorem isRequestOn_of_not_concerns (h : ¬ e.Concerns root slot) : e.isRequestOn slot = false := by
  cases e with
  | stored request key =>
      have hkey : key ≠ slot := h
      simp [isRequestOn, hkey]
  | _ => rfl

/-- The store is left alone by more events if it is left alone by one more. -/
theorem forall_not_isRequestOn_cons {events : List StateEvent}
    (h : ∀ d ∈ events, ¬ d.isRequestOn slot) (he : e.isRequestOn slot = false) :
    ∀ d ∈ e :: events, ¬ d.isRequestOn slot := by
  intro d hd
  rcases List.mem_cons.1 hd with rfl | hd
  · rw [he]
    exact Bool.false_ne_true
  · exact h d hd

@[simp] theorem isTickOf_ticked : (ticked root).isTickOf root = true := by simp [isTickOf]

@[simp] theorem isRequestOn_stored (r : StoreRequest) :
    (stored r slot).isRequestOn slot = true := by
  simp [isRequestOn]

end StateEvent

/-! ## The rules -/

/-- What is due after an event: nothing, that a state which memory is to hold is accepted, that it
is saved, that it is accepted after it has been saved, or that memory is saved. -/
inductive Monitor.Phase where
  | idle
  | held (blob : Option Blob)
  | fresh (blob : Option Blob)
  | saved (blob : Option Blob)
  | due

/-- Where a root stands: the state that was accepted last, the ticks that are left of its window,
and what is due. -/
structure Monitor where
  memory : Option Blob
  left : Nat
  phase : Monitor.Phase

namespace Monitor

variable {window : Nat} {root : HostId} {slot : ResourceKey}

/-- One event moves a monitor on. -/
inductive Next (window : Nat) (root : HostId) (slot : ResourceKey) :
    Monitor → StateEvent → Monitor → Prop where
  | other {v : Option Blob} {k : Nat} {e : StateEvent} (he : ¬ e.Concerns root slot) :
      Next window root slot ⟨v, k, .idle⟩ e ⟨v, k, .idle⟩
  | answer {v : Option Blob} {k : Nat} :
      Next window root slot ⟨v, k, .idle⟩ (.answered root v) ⟨v, k, .idle⟩
  | hold {v w : Option Blob} {k : Nat} (hk : 0 < k) :
      Next window root slot ⟨v, k, .idle⟩ (.replaced root w k) ⟨v, k, .held w⟩
  | accept {v w : Option Blob} {k : Nat} :
      Next window root slot ⟨v, k, .held w⟩ (.accepted root w k) ⟨w, k, .idle⟩
  | replace {v w : Option Blob} :
      Next window root slot ⟨v, 0, .idle⟩ (.replaced root w 0) ⟨v, 0, .fresh w⟩
  | save {v w : Option Blob} :
      Next window root slot ⟨v, 0, .fresh w⟩ (.stored (.ofState w) slot) ⟨v, 0, .saved w⟩
  | settle {v w : Option Blob} :
      Next window root slot ⟨v, 0, .saved w⟩ (.accepted root w 0) ⟨w, window, .idle⟩
  | tickIdle {v : Option Blob} :
      Next window root slot ⟨v, 0, .idle⟩ (.ticked root) ⟨v, 0, .idle⟩
  | tickWait {v : Option Blob} {k : Nat} :
      Next window root slot ⟨v, k + 2, .idle⟩ (.ticked root) ⟨v, k + 1, .idle⟩
  | tickLast {v : Option Blob} :
      Next window root slot ⟨v, 1, .idle⟩ (.ticked root) ⟨v, 0, .due⟩
  | closeIdle {v : Option Blob} :
      Next window root slot ⟨v, 0, .idle⟩ (.closed root) ⟨v, 0, .idle⟩
  | closeLast {v : Option Blob} {k : Nat} (hk : 0 < k) :
      Next window root slot ⟨v, k, .idle⟩ (.closed root) ⟨v, 0, .due⟩
  | flush {v : Option Blob} :
      Next window root slot ⟨v, 0, .due⟩ (.stored (.ofState v) slot) ⟨v, 0, .idle⟩

/-- The events of a chronicle, latest first, move a monitor on. -/
inductive Replay (window : Nat) (root : HostId) (slot : ResourceKey) (m : Monitor) :
    List StateEvent → Monitor → Prop where
  | nil : Replay window root slot m [] m
  | cons {events : List StateEvent} {n n' : Monitor} {e : StateEvent}
      (h : Replay window root slot m events n) (hn : Next window root slot n e n') :
      Replay window root slot m (e :: events) n'

/-- A replay of some events after others passes through a monitor in between. -/
theorem Replay.of_append {m n : Monitor} {later earlier : List StateEvent}
    (h : Replay window root slot m (later ++ earlier) n) :
    ∃ k, Replay window root slot m earlier k ∧ Replay window root slot k later n := by
  induction later generalizing n with
  | nil => exact ⟨n, h, .nil⟩
  | cons e later ih =>
      cases h with
      | cons h hn =>
          obtain ⟨k, hk, hlater⟩ := ih h
          exact ⟨k, hk, hlater.cons hn⟩

theorem Replay.append {m k n : Monitor} {later earlier : List StateEvent}
    (hearlier : Replay window root slot m earlier k) (hlater : Replay window root slot k later n) :
    Replay window root slot m (later ++ earlier) n := by
  induction hlater with
  | nil => exact hearlier
  | cons _ hn ih => exact ih.cons hn

/-- Events that have nothing to do with a root leave it where it is. -/
theorem Replay.others {v : Option Blob} {k : Nat} {events : List StateEvent}
    (h : ∀ e ∈ events, ¬ e.Concerns root slot) :
    Replay window root slot ⟨v, k, .idle⟩ events ⟨v, k, .idle⟩ := by
  induction events with
  | nil => exact .nil
  | cons e events ih =>
      have htail := ih fun d hd => h d (List.mem_cons_of_mem e hd)
      exact htail.cons (.other (h e List.mem_cons_self))

/-! ## Windows and memory -/

/-- No window is longer than it was when it opened. -/
theorem Replay.left_le {m n : Monitor} {events : List StateEvent}
    (h : Replay window root slot m events n) (hm : m.left ≤ window) : n.left ≤ window := by
  induction h with
  | nil => exact hm
  | cons _ hn ih =>
      cases hn with
      | settle => exact le_rfl
      | tickWait =>
          dsimp only at ih ⊢
          omega
      | tickLast => exact Nat.zero_le _
      | closeLast => exact Nat.zero_le _
      | _ => exact ih

/-- Memory holds the state that was accepted last. -/
theorem Replay.memory_eq {m n : Monitor} {events : List StateEvent}
    (h : Replay window root slot m events n) : n.memory = lastAccepted root m.memory events := by
  induction h with
  | nil => rfl
  | @cons events n n' e _ hn ih =>
      cases hn with
      | other he =>
          rw [ih]
          cases e with
          | accepted id blob left =>
              have hid : id ≠ root := he
              rw [lastAccepted, if_neg hid]
          | _ => rfl
      | accept => rw [lastAccepted, if_pos rfl]
      | settle => rw [lastAccepted, if_pos rfl]
      | _ => exact ih

/-- What is read is the state that was accepted last. -/
theorem Replay.answered_eq {m n : Monitor} {later earlier : List StateEvent} {v : Option Blob}
    (h : Replay window root slot m (later ++ .answered root v :: earlier) n) :
    v = lastAccepted root m.memory earlier := by
  obtain ⟨k, hk, _⟩ := h.of_append
  cases hk with
  | cons hearlier hn =>
      cases hn with
      | other he => exact absurd rfl he
      | answer => exact hearlier.memory_eq

/-- A state that is accepted is in memory, and no window has passed since. -/
theorem Replay.of_accepted {m n : Monitor} {later earlier : List StateEvent} {v : Option Blob}
    {k : Nat} (hk : 0 < k)
    (h : Replay window root slot m (later ++ .accepted root v k :: earlier) n) :
    Replay window root slot ⟨v, k, .idle⟩ later n := by
  obtain ⟨j, hj, hlater⟩ := h.of_append
  cases hj with
  | cons _ hn =>
      cases hn with
      | other he => exact absurd rfl he
      | accept => exact hlater
      | settle => exact absurd hk (lt_irrefl 0)

/-! ## When the store is asked -/

/-- As long as a window has ticks left, each tick takes one, and the store is not asked. -/
theorem Replay.within {v : Option Blob} {k : Nat} {n : Monitor} {events : List StateEvent}
    (h : Replay window root slot ⟨v, k, .idle⟩ events n) (hclosed : .closed root ∉ events)
    (hticks : events.countP (·.isTickOf root) < k) :
    n.left + events.countP (·.isTickOf root) = k ∧
      (n.phase = .idle ∨ ∃ w, n.phase = .held w) ∧ ∀ e ∈ events, ¬ e.isRequestOn slot := by
  induction h with
  | nil => exact ⟨rfl, .inl rfl, fun e he => absurd he List.not_mem_nil⟩
  | @cons events n n' e _ hn ih =>
      rw [List.countP_cons] at hticks ⊢
      obtain ⟨hleft, hphase, hquiet⟩ := ih (fun hmem => hclosed (List.mem_cons_of_mem e hmem))
        (lt_of_le_of_lt (Nat.le_add_right _ _) hticks)
      have hmem := StateEvent.forall_not_isRequestOn_cons (e := e) hquiet
      cases hn with
      | other he =>
          rw [StateEvent.isTickOf_of_not_concerns he]
          exact ⟨hleft, hphase, hmem (StateEvent.isRequestOn_of_not_concerns he)⟩
      | answer => exact ⟨hleft, hphase, hmem rfl⟩
      | hold hk => exact ⟨hleft, .inr ⟨_, rfl⟩, hmem rfl⟩
      | accept => exact ⟨hleft, .inl rfl, hmem rfl⟩
      | tickWait =>
          rw [StateEvent.isTickOf_ticked, if_pos rfl]
          dsimp only at hleft ⊢
          exact ⟨by omega, .inl rfl, hmem rfl⟩
      | tickLast =>
          -- the last tick of the window is not among so few
          rw [StateEvent.isTickOf_ticked, if_pos rfl] at hticks
          dsimp only at hleft
          omega
      | closeIdle => exact absurd List.mem_cons_self hclosed
      | closeLast hk => exact absurd List.mem_cons_self hclosed
      | _ =>
          dsimp only at hleft
          omega

/-- Outside of a window the store is not asked before a state is given. -/
theorem Replay.outside {v : Option Blob} {n : Monitor} {events : List StateEvent}
    (h : Replay window root slot ⟨v, 0, .idle⟩ events n)
    (hreplaced : ∀ w k, .replaced root w k ∉ events) :
    n.left = 0 ∧ n.phase = .idle ∧ ∀ e ∈ events, ¬ e.isRequestOn slot := by
  induction h with
  | nil => exact ⟨rfl, rfl, fun e he => absurd he List.not_mem_nil⟩
  | @cons events n n' e _ hn ih =>
      obtain ⟨hleft, hphase, hquiet⟩ :=
        ih fun w k hmem => hreplaced w k (List.mem_cons_of_mem e hmem)
      have hmem := StateEvent.forall_not_isRequestOn_cons (e := e) hquiet
      cases hn with
      | other he => exact ⟨hleft, hphase, hmem (StateEvent.isRequestOn_of_not_concerns he)⟩
      | answer => exact ⟨hleft, hphase, hmem rfl⟩
      | tickIdle => exact ⟨rfl, rfl, hmem rfl⟩
      | closeIdle => exact ⟨rfl, rfl, hmem rfl⟩
      | hold hk => exact absurd List.mem_cons_self (hreplaced _ _)
      | replace => exact absurd List.mem_cons_self (hreplaced _ _)
      | accept => cases hphase
      | save => cases hphase
      | settle => cases hphase
      | flush => cases hphase
      | tickWait => cases hleft
      | tickLast => cases hleft
      | closeLast hk => exact absurd hleft (Nat.ne_of_gt hk)

/-- What is due to be saved is saved before anything else happens. -/
theorem Replay.of_due {v : Option Blob} {n : Monitor} {events : List StateEvent}
    (h : Replay window root slot ⟨v, 0, .due⟩ events n) (hn : n.phase = .idle) :
    ∃ after, events = after ++ [.stored (.ofState v) slot] ∧
      Replay window root slot ⟨v, 0, .idle⟩ after n := by
  rcases List.eq_nil_or_concat' events with rfl | ⟨after, e, rfl⟩
  · cases h
    cases hn
  · obtain ⟨k, hk, hafter⟩ := h.of_append
    cases hk with
    | cons hnil hnext =>
        cases hnil
        cases hnext
        exact ⟨after, rfl, hafter⟩

/-- The last tick of a window has the store asked to save the state that was accepted last, and no
more than that before another state is given. -/
theorem Replay.flushed {v : Option Blob} {k : Nat} {n : Monitor} {later before : List StateEvent}
    (h : Replay window root slot ⟨v, k, .idle⟩ (later ++ .ticked root :: before) n)
    (hclosed : .closed root ∉ before) (hticks : before.countP (·.isTickOf root) + 1 = k)
    (hn : n.phase = .idle) :
    ∃ after, later = after ++ [.stored (.ofState (lastAccepted root v before)) slot] ∧
      ∀ first last, after = last ++ first → (∀ w j, .replaced root w j ∉ first) →
        ∀ e ∈ first, ¬ e.isRequestOn slot := by
  obtain ⟨j, hj, hlater⟩ := h.of_append
  cases hj with
  | @cons _ i _ _ hbefore hnext =>
      obtain ⟨hleft, hphase, _⟩ := hbefore.within hclosed (by omega)
      have hmemory := hbefore.memory_eq
      have hone : i.left = 1 := by omega
      cases hnext with
      | other he => exact absurd rfl he
      | tickIdle => cases hone
      | tickWait =>
          dsimp only at hone
          omega
      | @tickLast w =>
          dsimp only at hmemory
          subst hmemory
          obtain ⟨after, rfl, hafter⟩ := hlater.of_due hn
          refine ⟨after, rfl, ?_⟩
          rintro first last rfl hreplaced
          obtain ⟨i, hfirst, _⟩ := hafter.of_append
          exact (hfirst.outside hreplaced).2.2

/-! ## How often the store is asked -/

/-- How often the store has been asked after a number of ticks.  With `w` windows that are over it
has been asked twice for each of them, and once more for a window that is open; each window that is
over has taken as many ticks as a window has. -/
inductive Tally (window : Nat) : Monitor → Nat → Nat → Prop where
  | shut {v : Option Blob} {w q t : Nat} (hq : q = 2 * w) (ht : window * w ≤ t) :
      Tally window ⟨v, 0, .idle⟩ q t
  | fresh {v x : Option Blob} {w q t : Nat} (hq : q = 2 * w) (ht : window * w ≤ t) :
      Tally window ⟨v, 0, .fresh x⟩ q t
  | saved {v x : Option Blob} {w q t : Nat} (hq : q = 2 * w + 1) (ht : window * w ≤ t) :
      Tally window ⟨v, 0, .saved x⟩ q t
  | within {v : Option Blob} {k w q t : Nat} (hk : 0 < k) (hq : q = 2 * w + 1)
      (ht : window * w ≤ t) (hleft : window * w + window ≤ t + k) : Tally window ⟨v, k, .idle⟩ q t
  | held {v x : Option Blob} {k w q t : Nat} (hk : 0 < k) (hq : q = 2 * w + 1)
      (ht : window * w ≤ t) (hleft : window * w + window ≤ t + k) :
      Tally window ⟨v, k, .held x⟩ q t
  | due {v : Option Blob} {w q t : Nat} (hq : q = 2 * w + 1) (ht : window * w + window ≤ t) :
      Tally window ⟨v, 0, .due⟩ q t

/-- Every event but a closing keeps the tally. -/
theorem Tally.next {n n' : Monitor} {e : StateEvent} {q t : Nat} (hw : 0 < window)
    (h : Tally window n q t) (hn : Next window root slot n e n') (hclosed : e ≠ .closed root) :
    Tally window n' (q + if e.isRequestOn slot = true then 1 else 0)
      (t + if e.isTickOf root = true then 1 else 0) := by
  cases hn with
  | other he =>
      rw [StateEvent.isRequestOn_of_not_concerns he, StateEvent.isTickOf_of_not_concerns he]
      exact h
  | answer => exact h
  | hold hk =>
      cases h with
      | shut => exact absurd hk (lt_irrefl 0)
      | within hk hq ht hleft => exact .held hk hq ht hleft
  | accept =>
      cases h with
      | held hk hq ht hleft => exact .within hk hq ht hleft
  | replace =>
      cases h with
      | shut hq ht => exact .fresh hq ht
      | within hk => exact absurd hk (lt_irrefl 0)
  | save =>
      cases h with
      | fresh hq ht =>
          rw [StateEvent.isRequestOn_stored, if_pos rfl, hq]
          exact .saved rfl ht
  | settle =>
      -- a window opens with all of its ticks left
      cases h with
      | saved hq ht => exact .within hw hq ht (Nat.add_le_add_right ht window)
  | tickIdle =>
      rw [StateEvent.isTickOf_ticked, if_pos rfl]
      cases h with
      | shut hq ht => exact .shut hq (Nat.le_succ_of_le ht)
      | within hk => exact absurd hk (lt_irrefl 0)
  | tickWait =>
      rw [StateEvent.isTickOf_ticked, if_pos rfl]
      cases h with
      | within hk hq ht hleft =>
          exact .within (Nat.succ_pos _) hq (Nat.le_succ_of_le ht) (by omega)
  | tickLast =>
      rw [StateEvent.isTickOf_ticked, if_pos rfl]
      cases h with
      | within hk hq ht hleft => exact .due hq hleft
  | closeIdle => exact absurd rfl hclosed
  | closeLast hk => exact absurd rfl hclosed
  | @flush v =>
      rw [StateEvent.isRequestOn_stored, if_pos rfl]
      cases h with
      | @due _ w _ _ hq ht =>
          -- one more window is over
          refine .shut (w := w + 1) (by omega) ?_
          rw [Nat.mul_add, Nat.mul_one]
          exact ht

/-- The store is asked at most twice for each window that has gone by, and once more. -/
theorem Replay.countP_le {v : Option Blob} {n : Monitor} {events : List StateEvent}
    (hw : 0 < window) (h : Replay window root slot ⟨v, 0, .idle⟩ events n)
    (hclosed : .closed root ∉ events) :
    events.countP (·.isRequestOn slot) ≤ 1 + 2 * (events.countP (·.isTickOf root) / window) := by
  have htally : Tally window n (events.countP (·.isRequestOn slot))
      (events.countP (·.isTickOf root)) := by
    induction h with
    | nil => exact .shut (w := 0) rfl (Nat.zero_le _)
    | @cons events n n' e _ hn ih =>
        rw [List.countP_cons, List.countP_cons]
        apply (ih fun hmem => hclosed (List.mem_cons_of_mem e hmem)).next hw hn
        rintro rfl
        exact hclosed List.mem_cons_self
  -- the windows that are over are no more than the ticks have room for
  have hover : ∀ {w t : Nat}, window * w ≤ t → w ≤ t / window := by
    intro w t ht
    rw [Nat.le_div_iff_mul_le hw, Nat.mul_comm]
    exact ht
  cases htally with
  | shut hq ht =>
      have := hover ht
      omega
  | fresh hq ht =>
      have := hover ht
      omega
  | saved hq ht =>
      have := hover ht
      omega
  | within hk hq ht hleft =>
      have := hover ht
      omega
  | held hk hq ht hleft =>
      have := hover ht
      omega
  | due hq ht =>
      have := hover (le_trans (Nat.le_add_right _ _) ht)
      omega

end Monitor

end ScriptHost
