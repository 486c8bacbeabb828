import Mathlib
import ScriptHost.Proofs.Faults
/-!
# Roots that go

A root goes with its window shut, so the store has been given the state that was accepted last.
With the root all hosts of its module are gone.  From then on nobody asks the store for anything
that concerns the state of the module, until a root of the module begins anew.

## Main statements

* `Server.Resting`, `Steps.resting`: a module without hosts, whose state lies in the store.
* `Server.Covers.resting`, `Server.Retires.resting`: a root that goes leaves its state in the store.
* `Settles`, `settles_of_leads`: where the state that was accepted last is found, as long as the
  root is there and after it has gone.
* `lost_market`: how a state is lost.
-/

namespace ScriptHost

variable {σ β : Type} [StateStore σ] [FaultyStore σ] {suits : String → Module → Prop}

open Server FaultyStore

section

variable {root : HostId} {name : String} {state v : Option Blob} {s t u : Server σ β}
  {since events past before : List StateEvent} {start : σ}

/-! ## Modules without hosts -/

/-- No host of a module is there, and the store holds a state for the module. -/
structure Server.Resting (name : String) (v : Option Blob) (s : Server σ β) : Prop where
  gone : ∀ c x, s.host? c = some x → x.name? ≠ some name
  stored : content s.store (.globalState name) = v

/-- Where the store is not asked under a key, it holds what it held. -/
theorem content_foldr_of_forall {key : ResourceKey} (h : ∀ r, .stored r key ∉ events) (a : σ) :
    content (events.foldr StateEvent.applyTo a) key = content a key := by
  induction events with
  | nil => rfl
  | cons e events ih =>
      have htail := ih fun r hmem => h r (List.mem_cons_of_mem e hmem)
      rw [List.foldr_cons]
      cases e with
      | stored r k =>
          have hk : k ≠ key := by
            rintro rfl
            exact h r List.mem_cons_self
          exact (content_apply_of_ne r _ hk).trans htail
      | _ => exact htail

omit [FaultyStore σ] in
/-- A module whose hosts are gone has none after a step in which no root of it begins. -/
theorem Step.gone (ha : Arena suits s) (h : Step suits s t)
    (hgone : ∀ c x, s.host? c = some x → x.name? ≠ some name)
    (hevents : t.chronicle = events ++ s.chronicle) (hbegun : ∀ id st, .begun id name st ∉ events) :
    ∀ c x, t.host? c = some x → x.name? ≠ some name := by
  intro c x hx hn
  rcases h.places_or with
    hstay | ⟨module, perUser, sink, rfl⟩ | ⟨parent, p, user, sink, hp, _, rfl⟩ | ⟨id, y, rfl⟩
  · obtain ⟨y, hy, hplace⟩ := hstay.places.host? hx
    exact hgone c y hy ((Host.name?_of_place_eq hplace).symm.trans hn)
  · rw [host?_beginRoot] at hx
    split at hx
    · obtain rfl := Option.some.inj hx
      obtain ⟨m, rfl, rfl⟩ := Option.map_eq_some_iff.1 hn
      have hsame : [.begun s.nextId m.name (s.savedState (some m))] = events :=
        List.append_cancel_right hevents
      rw [← hsame] at hbegun
      exact hbegun _ _ (List.mem_singleton.2 rfl)
    · exact hgone c x hx hn
  · rcases ha.host?_of_host?_beginUser hp hx with ⟨_, rfl⟩ | ⟨y, hy, hxy, _⟩
    · exact hgone parent p hp hn
    · exact hgone c y hy (hxy.name?_eq.symm.trans hn)
  · obtain ⟨_, y, hy, hxy, _⟩ := host?_of_host?_discard hx
    exact hgone c y hy (hxy.name?_eq.symm.trans hn)

/-- A module without hosts stays as it is until a root of it begins. -/
theorem Step.resting (ha : Arena suits s) (hr : s.Resting name v) (h : Step suits s t)
    (hevents : t.chronicle = events ++ s.chronicle) (hbegun : ∀ id st, .begun id name st ∉ events) :
    t.Resting name v where
  gone := h.gone ha hr.gone hevents hbegun
  stored := by
    obtain ⟨es, hes, hstore⟩ := h.store_eq
    obtain rfl : es = events := List.append_cancel_right (hes.symm.trans hevents)
    rw [hstore, content_foldr_of_forall, hr.stored]
    intro r hmem
    obtain ⟨c, x, hx, hn⟩ := h.fits hevents _ hmem name rfl
    exact hr.gone c x hx hn

theorem Steps.resting (ha : Arena suits s) (hr : s.Resting name v) (h : Steps suits s t)
    (hevents : t.chronicle = events ++ s.chronicle) (hbegun : ∀ id st, .begun id name st ∉ events) :
    t.Resting name v := by
  induction h generalizing events with
  | refl => exact hr
  | @tail u w hbefore hstep ih =>
      obtain ⟨earlier, hearlier⟩ := Steps.chronicle_eq hbefore
      obtain ⟨later, hlater, _⟩ := hstep.store_eq
      have hsame : later ++ earlier ++ s.chronicle = events ++ s.chronicle := by
        rw [← hevents, hlater, hearlier, List.append_assoc]
      obtain rfl := List.append_cancel_right hsame
      have hu := ih hearlier fun id st hmem => hbegun id st (List.mem_append_right _ hmem)
      exact hstep.resting (Steps.arena ha hbefore) hu hlater
        fun id st hmem => hbegun id st (List.mem_append_left _ hmem)

/-! ## A root goes -/

/-- Of the hosts of a module only the one root that is there belongs to no other. -/
theorem Server.Covers.owner_ne_none (hc : s.Covers start)
    (hchronicle : s.chronicle = since ++ .begun root name state :: past)
    (hsole : Sole name since past) (hlive : (s.host? root).isSome) {c : HostId} {x : Host β}
    (hx : s.host? c = some x) (hn : x.name? = some name) (hcr : c ≠ root) : x.owner ≠ none := by
  rcases hc.covered hchronicle hsole hlive with hcovered | ⟨_, _, _, _, _, hcovered⟩
  · exact (hcovered.others c x hx hn hcr).1
  · exact (hcovered.others c x hx hn hcr).1

/-- A root that goes with its window shut takes the hosts of its module along, and leaves the state
that was accepted last in the store, unless the store has refused to save it. -/
theorem Server.Covers.resting (ha : Arena suits s) (hc : s.Covers start)
    (hchronicle : s.chronicle = since ++ .begun root name state :: past)
    (hsole : Sole name since past) {h : Host β} (hh : s.host? root = some h)
    (hw : h.saveTimeout = 0) (hstep : Step suits s (s.discard root h))
    (hknown :
      StateStore.read (past.foldr StateEvent.applyTo start) (.globalState name) = .ok state ∨
        ∃ v k, .accepted root v k ∈ since) :
    Loses root name start s.chronicle ∨
      (s.discard root h).Resting name (lastAccepted root state since) := by
  have hlive : (s.host? root).isSome := by
    rw [hh]
    rfl
  refine (hc.settled hchronicle hsole hh hknown).imp_right fun hsettled => ?_
  exact
    { gone := by
        intro c x hx hn
        -- the host belongs to a root that would have been there before, beside the one that went
        obtain ⟨r, y, hy, ho, hny⟩ := (hstep.arena ha).exists_root hx
        obtain ⟨hfamily, z, hz, hyz, _⟩ := host?_of_host?_discard hy
        have hr : r ≠ root := by
          rintro rfl
          exact hfamily (ha.mem_family_self hh)
        exact hc.owner_ne_none hchronicle hsole hlive hz
          (hyz.name?_eq.symm.trans (hny.trans hn)) hr (hyz.owner_eq.symm.trans ho)
      stored := by
        rw [discard_eq]
        exact hsettled.2 hw }

/-- After a root has gone its last state is in the store until a root of its module begins, unless
the store has refused to save it. -/
theorem Server.Retires.resting (ha : Arena suits s) (hr : Recorded s) (hc : s.Covers start)
    (h : Retires suits root s t)
    (hchronicle : t.chronicle = since ++ .begun root name state :: past)
    (hsole : Sole name since past) {w : Option Blob} {k : Nat}
    (haccepted : .accepted root w k ∈ since) :
    Loses root name start t.chronicle ∨ t.Resting name (lastAccepted root state since) := by
  obtain ⟨u, x, hsu, hx, _, hw, hstep, hrest⟩ := h
  have hau := Steps.arena ha hsu
  have hu := Steps.covers ha hr hc hsu
  have hgone := hau.host?_discard_self hx
  have hlt := hau.lt_nextId hx
  have hlt' : root < (u.discard root x).nextId := by
    rw [discard_eq]
    exact hlt
  -- what has happened since the root went
  obtain ⟨later, middle, hlater, rfl, hmiddle⟩ := Steps.begun_split hrest hlt' hchronicle
  obtain ⟨ended, earlier, hended, rfl, hearlier⟩ :=
    Steps.begun_split (.single hstep) hlt hmiddle
  have hended' : ended = (u.family root).map .ended :=
    List.append_cancel_right (hended.symm.trans (chronicle_discard u root x))
  have hnone : ∀ v j, .accepted root v j ∉ later :=
    fun v j => Steps.not_mem_of_gone (hstep.arena hau) hrest hlater hlt' hgone fun _ hfits => hfits
  have hnone' : ∀ v j, .accepted root v j ∉ ended := by
    intro v j hmem
    rw [hended'] at hmem
    obtain ⟨_, _, heq⟩ := List.mem_map.1 hmem
    cases heq
  have hmem : .accepted root w k ∈ earlier := by
    have hmem' := (List.mem_append.1 haccepted).resolve_left (hnone w k)
    exact (List.mem_append.1 hmem').resolve_left (hnone' w k)
  rw [lastAccepted_append, lastAccepted_append, lastAccepted_of_forall hnone,
    lastAccepted_of_forall hnone']
  rcases hu.2.resting hau hearlier hsole.of_append.of_append hx hw hstep (.inr ⟨w, k, hmem⟩) with
    hloses | hresting
  · left
    rw [hlater, hended]
    exact (hloses.append hnone').append hnone
  · exact .inr (Steps.resting (hstep.arena hau) hresting hrest hlater
      fun id st hmem => hsole.begun id st (List.mem_append_left _ hmem))

/-- As long as a root is there, the state is in the store, or it is in memory and a window is open
that saves it when it is shut.  After the root has gone the state is in the store. -/
structure Settles (root : HostId) (name : String) (v : Option Blob) (s : Server σ β) : Prop where
  live : ∀ h, s.host? root = some h →
    0 < h.saveTimeout ∧ h.globalState = v ∨ content s.store (.globalState name) = v
  gone : s.host? root = none → content s.store (.globalState name) = v

end

/-! ## Runs -/

section

variable {allowed : Catalogue → Prop} {root : HostId} {name : String} {state w : Option Blob}
  {s t : Server σ β} {since past : List StateEvent} {start : σ} {settings : Settings} {k : Nat}

/-- Of a root that has been the only one of its module since it began, the state that was accepted
last is not lost when the store refuses requests, whatever runs: unless the store has refused to
save that very state when a window was shut, it is in the store, or it is in memory and still to be
saved; and once the root has been closed and has gone, it is in the store. -/
theorem settles_of_leads (hs : Leads allowed (fun _ => True) (new start settings) s)
    (hroot : s.IsRoot root) (hst : Leads allowed (fun _ => True) s t)
    (hchronicle : t.chronicle = since ++ .begun root name state :: past)
    (hsole : Sole name since past) (haccepted : .accepted root w k ∈ since) :
    Loses root name start t.chronicle ∨ Settles root name (lastAccepted root state since) t := by
  have hfollows : ∀ c, allowed c → c.Follows fun _ _ => True := fun _ _ _ _ _ => trivial
  have hs' : Steps (fun _ _ => True) (new start settings) s :=
    hs.steps hfollows (arena_new start settings)
  obtain ⟨ha, hr, hc⟩ := Steps.known hs'
  obtain ⟨_, _, hc'⟩ := Steps.known (hs'.trans (hst.steps hfollows ha))
  have hmoves := hst.moves hfollows (fun h : False => h.elim) ha
  rcases Moves.retires ha hmoves hroot with ⟨h, hh, _⟩ | hretires
  · refine (hc'.settled hchronicle hsole hh (.inr ⟨w, k, haccepted⟩)).imp_right fun hsettled => ?_
    refine ⟨fun x hx => ?_, fun hgone => ?_⟩
    · obtain rfl : h = x := Option.some.inj (hh.symm.trans hx)
      rcases Nat.eq_zero_or_pos h.saveTimeout with hw | hw
      · exact .inr (hsettled.2 hw)
      · exact .inl ⟨hw, hsettled.1 hw⟩
    · rw [hh] at hgone
      cases hgone
  · refine (hretires.resting ha hr hc hchronicle hsole haccepted).imp_right fun hresting => ?_
    exact ⟨fun _ _ => .inr hresting.stored, fun _ => hresting.stored⟩

/-- The market takes two states within a window, after the store has refused one, and is
unloaded. -/
theorem settles_market :
    let co := Collaborators.plain (.always (.done (.ok .null))) marketCatalogue
    let start : FlakyMemory := { store := ∅, refusals := [true] }
    let s : Server FlakyMemory Unit :=
      Operation.runAll co [.addApp "market" .server] (.new start { saveDebounceTicks := 2 })
    let t : Server FlakyMemory Unit := Operation.runAll co
      [.writeGlobalState 1 (some "a".toUTF8), .writeGlobalState 1 (some "b".toUTF8),
        .writeGlobalState 1 (some "c".toUTF8), .removeApp "market"] s
    let since : List StateEvent :=
      [.ended 1, .stored (.write "c".toUTF8) (.globalState "market"), .closed 1,
        .accepted 1 (some "c".toUTF8) 2, .replaced 1 (some "c".toUTF8) 2,
        .accepted 1 (some "b".toUTF8) 0, .stored (.write "b".toUTF8) (.globalState "market"),
        .replaced 1 (some "b".toUTF8) 0, .stored (.write "a".toUTF8) (.globalState "market"),
        .replaced 1 (some "a".toUTF8) 0]
    t.chronicle = since ++ [.begun 1 "market" none] ∧ Sole "market" since [] ∧
      content t.store (.globalState "market") = some "c".toUTF8 ∧
      (Loses 1 "market" start t.chronicle ∨ Settles 1 "market" (some "c".toUTF8) t) := by
  intro co start s t since
  have hs : Leads (fun _ => True) (fun _ => True) (new start { saveDebounceTicks := 2 }) s :=
    .runAll trivial (fun _ _ => trivial) _
  have hst : Leads (fun _ => True) (fun _ => True) s t := .runAll trivial (fun _ _ => trivial) _
  have hlive : (s.host? 1).any fun h => h.owner = none := by decide +kernel
  have hchronicle : t.chronicle = since ++ [.begun 1 "market" none] := by decide +kernel
  have hsole : Sole "market" since [] :=
    { begun := by simp [since]
      ended := by simp
      misplaced := by simp [since] }
  have hroot : s.IsRoot 1 := by
    cases hh : s.host? 1 with
    | none => simp [hh] at hlive
    | some h => exact ⟨h, hh, by simpa [hh] using hlive⟩
  have hmem : .accepted 1 (some "c".toUTF8) 2 ∈ since := by simp [since]
  exact ⟨hchronicle, hsole, by decide +kernel,
    settles_of_leads hs hroot hst hchronicle hsole hmem⟩

/-- The market takes two states within a window, and the store refuses the second when the window
runs out.  From then on no window is open although memory and store differ, so the second state is
lost when the market is unloaded, with a store that refuses nothing any more. -/
theorem lost_market :
    let co := Collaborators.plain (.always (.done (.ok .null))) marketCatalogue
    let start : FlakyMemory := { store := ∅, refusals := [false, true] }
    let s : Server FlakyMemory Unit := Operation.runAll co
      [.addApp "market" .server, .writeGlobalState 1 (some "a".toUTF8),
        .writeGlobalState 1 (some "b".toUTF8), .tick, .tick] (.new start { saveDebounceTicks := 2 })
    let t : Server FlakyMemory Unit := Operation.runAll co [.removeApp "market"] s
    let since : List StateEvent :=
      [.stored (.write "b".toUTF8) (.globalState "market"), .ticked 1, .ticked 0, .ticked 1,
        .ticked 0, .accepted 1 (some "b".toUTF8) 2, .replaced 1 (some "b".toUTF8) 2,
        .accepted 1 (some "a".toUTF8) 0, .stored (.write "a".toUTF8) (.globalState "market"),
        .replaced 1 (some "a".toUTF8) 0]
    Leads (fun _ => True) (fun _ => True) (new start { saveDebounceTicks := 2 }) s ∧
      s.chronicle = since ++ [.begun 1 "market" none] ∧ Sole "market" since [] ∧
      lastAccepted 1 none since = some "b".toUTF8 ∧ s.app? "market" = some 1 ∧
      s.held 1 = some (some "b".toUTF8, 0) ∧
      content s.store (.globalState "market") = some "a".toUTF8 ∧ s.store.refusals = [] ∧
      t.host? 1 = none ∧ content t.store (.globalState "market") = some "a".toUTF8 := by
  intro co start s t since
  have hs : Leads (fun _ => True) (fun _ => True) (new start { saveDebounceTicks := 2 }) s :=
    .runAll trivial (fun _ _ => trivial) _
  have hchronicle : s.chronicle = since ++ [.begun 1 "market" none] := by decide +kernel
  have hsole : Sole "market" since [] :=
    { begun := by simp [since]
      ended := by simp
      misplaced := by simp [since] }
  have hgone : (t.host? 1).isNone := by decide +kernel
  exact ⟨hs, hchronicle, hsole, by decide +kernel, by decide +kernel, by decide +kernel,
    by decide +kernel, by decide +kernel, Option.isNone_iff_eq_none.1 hgone, by decide +kernel⟩

end

end ScriptHost
