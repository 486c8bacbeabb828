import Mathlib
import ScriptHost.Proofs.Orderly
import ScriptHost.Proofs.Teardown
/-!
# No state is lost

An orderly server with a reliable store.  When the root of an app goes, the store holds the state
that was accepted last, and the next root of the app begins with it, on the same server or on
another one that works with the store.

## Main statements

* `Server.Retires.ended_split`: what the chronicle says at the moment when a root goes.
* `Server.HasStarted`, `Server.Resting.hasStarted`: a root that begins with the state that is left.
* `Kept`, `kept_of_orderly`: what becomes of the state of an app whose root goes.
-/

namespace ScriptHost

variable {σ β : Type} [StateStore σ] {suits : String → Module → Prop}

open Server FaultyStore

section

variable {root : HostId} {name : String} {state : Option Blob} {s t : Server σ β}
  {after before since past : List StateEvent} {start : σ}

/-! ## The moment when a root goes -/

/-- A root that goes is the last host of its family to be closed, and all that is written down when
it goes is that its family has ended. -/
theorem Server.Retires.ended_split (ha : Arena suits s) (hr : Recorded s)
    (h : Retires suits root s t) (hended : t.chronicle = after ++ .ended root :: before) :
    ∃ u x, Steps suits s u ∧ u.host? root = some x ∧ x.saveTimeout = 0 ∧
      Step suits u (u.discard root x) ∧ Steps suits (u.discard root x) t ∧
      ∃ later ended ended', after = later ++ ended ∧
        t.chronicle = later ++ (u.discard root x).chronicle ∧
        (u.discard root x).chronicle = ended ++ .ended root :: before ∧
        before = ended' ++ u.chronicle ∧
        (∀ e ∈ ended, ∃ k, e = .ended k) ∧ ∀ e ∈ ended', ∃ k, e = .ended k := by
  obtain ⟨u, x, hsu, hx, _, hw, hstep, hrest⟩ := h
  refine ⟨u, x, hsu, hx, hw, hstep, hrest, ?_⟩
  have hau := Steps.arena ha hsu
  have hru : Recorded u :=
    Steps.induction (fun _ _ ha hr hstep => hstep.recorded ha hr) ha hr hsu
  have hlt : root < (u.discard root x).nextId := by
    rw [discard_eq]
    exact hau.lt_nextId hx
  obtain ⟨later, hlater⟩ := Steps.chronicle_eq hrest
  -- the root ends once: not before, since it is there, and not afterwards, since it is gone
  have hnone : .ended root ∉ later := Steps.not_mem_of_gone (hstep.arena hau) hrest hlater hlt
    (hau.host?_discard_self hx) fun _ hfits => hfits
  have hnone' : .ended root ∉ u.chronicle := by
    intro hmem
    rw [(hru.ended hmem).1] at hx
    cases hx
  obtain ⟨ended, hafter, hmiddle⟩ := exists_append_of_not_mem (hlater.symm.trans hended) hnone
  obtain ⟨ended', hfamily, hbefore⟩ := exists_append_of_not_mem_right
    ((chronicle_discard u root x).symm.trans hmiddle) hnone'
  have hall : ∀ e ∈ ended ++ .ended root :: ended', ∃ k, e = .ended k := by
    intro e he
    rw [← hfamily] at he
    obtain ⟨k, _, rfl⟩ := List.mem_map.1 he
    exact ⟨k, rfl⟩
  exact ⟨later, ended, ended', hafter, hlater, hmiddle, hbefore,
    fun e he => hall e (List.mem_append_left _ he),
    fun e he => hall e (List.mem_append_right _ (List.mem_cons_of_mem _ he))⟩

/-! ## The next root -/

/-- On the way to a server a root of a module has just begun: it holds a state, and no code has
defined anything under it yet. -/
def Server.HasStarted (id : HostId) (name : String) (state : Option Blob)
    (earlier : List StateEvent) (t : Server σ β) : Prop :=
  ∃ u h, u.chronicle = .begun id name state :: earlier ∧ u.host? id = some h ∧ h.owner = none ∧
    h.name? = some name ∧ h.globalState = state ∧ h.definitions = ∅ ∧
      Steps (fun _ _ => True) u t

/-- The first root of a module that begins holds the state that is left in the store. -/
theorem Server.Resting.hasStarted [ReliableStore σ] [FaultyStore σ] {v : Option Blob}
    (ha : Arena (fun _ _ => True) s) (hr : s.Resting name v) (h : Steps (fun _ _ => True) s t)
    {later between : List StateEvent} {id : HostId} {st : Option Blob}
    (hchronicle : t.chronicle = later ++ .begun id name st :: (between ++ s.chronicle))
    (hfirst : ∀ k w, .begun k name w ∉ between) :
    st = v ∧ HasStarted id name v (between ++ s.chronicle) t := by
  obtain ⟨u, m, perUser, sink, hsu, hu, rfl, rfl, rfl, hrest⟩ := Steps.begun_root h hchronicle
  have hresting := Steps.resting ha hr hsu hu hfirst
  have hsaved : u.savedState (some m) = v :=
    (eq_content_of_read u.store _ _ (read_eq_savedState u m)).trans hresting.stored
  refine ⟨hsaved, u.beginRoot (some m) perUser (u.savedState (some m)) sink,
    u.newRoot (some m) perUser (u.savedState (some m)) sink, ?_, ?_, rfl, rfl, hsaved, rfl, hrest⟩
  · rw [← hu, ← hsaved]
    rfl
  · rw [host?_beginRoot, if_pos rfl]

/-- A new server has no hosts of a module, and works with what the store holds. -/
theorem resting_new [FaultyStore σ] (store : σ) (settings : Settings) (name : String) :
    (new store settings : Server σ β).Resting name (content store (.globalState name)) where
  gone := by
    intro c x hx hn
    have ha : Arena (fun _ _ => True) (new store settings : Server σ β) := arena_new store settings
    have hr : Recorded (new store settings : Server σ β) := recorded_new store settings
    exact ha.name?_ne_of_ended hr (fun _ _ hmem => absurd hmem List.not_mem_nil) hx hn
  stored := rfl

/-! ## Reliable stores -/

theorem read_eq_content [ReliableStore σ] [FaultyStore σ] (a : σ) (k : ResourceKey) :
    StateStore.read a k = .ok (content a k) := by
  obtain ⟨v, hv⟩ := ReliableStore.read_isOk a k
  rw [hv, eq_content_of_read a k v hv]

/-- A reliable store refuses no flush. -/
theorem ReliableStore.not_loses [ReliableStore σ] {chronicle : List StateEvent} :
    ¬ Loses root name start chronicle := by
  rintro ⟨_, _, _, _, ⟨r, _, e, _, _, hr⟩, _⟩
  rw [r.result_eq_ok] at hr
  cases hr

/-- The state that a root begins with is the one that the store held then. -/
theorem read_of_begun [ReliableStore σ] [FaultyStore σ] {settings : Settings}
    (h : Steps suits (new start settings : Server σ β) t)
    (hchronicle : t.chronicle = since ++ .begun root name state :: past) :
    StateStore.read (past.foldr StateEvent.applyTo start) (.globalState name) = .ok state := by
  have hpast : past = past ++ (new start settings : Server σ β).chronicle :=
    (List.append_nil past).symm
  rw [hpast] at hchronicle
  obtain ⟨u, m, _, _, hu, huc, _, rfl, rfl, _⟩ := Steps.begun_root h hchronicle
  obtain ⟨_, _, hc⟩ := Steps.known hu
  have hstore := hc.store
  rw [huc, ← hpast] at hstore
  rw [← hstore]
  exact read_eq_savedState u m

end

/-! ## Runs -/

/-- What becomes of a state that is left when a root goes, after some events and before others: the
store holds it, the next root of the module begins with it, and so does the first root of the module
on a new server, if the store is handed on before. -/
structure Kept (start : σ) (t : Server σ β) (name : String) (v : Option Blob)
    (after before : List StateEvent) : Prop where
  stored : StateStore.read (before.foldr StateEvent.applyTo start) (.globalState name) = .ok v
  next : ∀ {later between : List StateEvent} {id : HostId} {st : Option Blob},
    after = later ++ .begun id name st :: between → (∀ k w, .begun k name w ∉ between) →
      st = v ∧ HasStarted id name v (between ++ before) t
  anew : (∀ k w, .begun k name w ∉ after) → ∀ (settings : Settings) (t' : Server σ β),
    Leads (fun _ => True) (fun _ => True) (new t.store settings) t' →
      ∀ {later earlier : List StateEvent} {id : HostId} {st : Option Blob},
        t'.chronicle = later ++ .begun id name st :: earlier →
          (∀ k w, .begun k name w ∉ earlier) → st = v ∧ HasStarted id name v earlier t'

section

variable [ReliableStore σ] {allowed : Catalogue → Prop} {root : HostId} {name : String}
  {state : Option Blob} {s t : Server σ β} {after since past : List StateEvent} {start : σ}
  {settings : Settings}

/-- Once a root has gone from an orderly server its last state rests in the store. -/
theorem Server.Orderly.resting [FaultyStore σ] {u : Server σ β} {x : Host β}
    {events : List StateEvent} (ho : t.Orderly)
    (hu : Steps (fun _ _ => True) (new start settings) u)
    (hevents : t.chronicle = events ++ u.chronicle)
    (hchronicle : u.chronicle = since ++ .begun root name state :: past)
    (hx : u.host? root = some x) (hw : x.saveTimeout = 0)
    (hstep : Step (fun _ _ => True) u (u.discard root x)) :
    (u.discard root x).Resting name (lastAccepted root state since) := by
  obtain ⟨ha, hr, hc⟩ := Steps.known hu
  have hlive : (u.host? root).isSome := by
    rw [hx]
    rfl
  have hsole := ho.sole hr hevents hchronicle hlive
  have hresting := hc.resting ha hchronicle hsole hx hw hstep (.inl (read_of_begun hu hchronicle))
  exact hresting.resolve_left ReliableStore.not_loses

/-- A state that rests in the store from the moment on when a root has gone is kept. -/
theorem Server.Resting.kept [FaultyStore σ] {u : Server σ β} {v : Option Blob}
    {later ended before : List StateEvent} (ha : Arena (fun _ _ => True) u) (hr : u.Resting name v)
    (hstore : u.store = u.chronicle.foldr StateEvent.applyTo start)
    (hu : u.chronicle = ended ++ before) (hnone : ∀ e ∈ ended, ∃ k, e = .ended k)
    (hsteps : Steps (fun _ _ => True) u t) (ht : t.chronicle = later ++ u.chronicle) :
    Kept start t name v (later ++ ended) before where
  stored := by
    have hrest := hr.stored
    rw [hstore, hu, List.foldr_append, content_foldr_of_forall] at hrest
    · rw [read_eq_content, hrest]
    · intro r hmem
      obtain ⟨_, heq⟩ := hnone _ hmem
      cases heq
  next := by
    intro last between id st hafter hfirst
    have hbegun : .begun id name st ∉ ended := by
      intro hmem
      obtain ⟨_, heq⟩ := hnone _ hmem
      cases heq
    obtain ⟨first, rfl, rfl⟩ := exists_append_of_not_mem_right hafter hbegun
    have hchronicle : t.chronicle = last ++ .begun id name st :: (first ++ u.chronicle) := by
      rw [ht, List.append_assoc, List.cons_append]
    have hstarted := hr.hasStarted ha hsteps hchronicle
      fun k w hmem => hfirst k w (List.mem_append_left _ hmem)
    rw [hu, ← List.append_assoc] at hstarted
    exact hstarted
  anew := by
    intro hnone settings t' ht' last earlier id st hchronicle hfirst
    have hresting := Steps.resting ha hr hsteps ht
      fun k w hmem => hnone k w (List.mem_append_left _ hmem)
    have hnew := resting_new (β := β) t.store settings name
    rw [hresting.stored] at hnew
    have ha' : Arena (fun _ _ => True) (new t.store settings : Server σ β) :=
      arena_new t.store settings
    have hstart : earlier = earlier ++ (new t.store settings : Server σ β).chronicle :=
      (List.append_nil earlier).symm
    rw [hstart] at hchronicle ⊢
    exact hnew.hasStarted ha' (ht'.steps (fun _ _ _ _ _ => trivial) ha') hchronicle hfirst

/-- On a server with a reliable store whose hosts are made only for apps that are loaded and for
users who are served, no state is lost when the root of an app goes, whichever operation closes it:
the one that is kept is the one that was accepted last, and that includes what close hooks give. -/
theorem kept_of_orderly (hallowed : ∀ c, allowed c → c.Follows Module.HasName)
    (hs : Leads allowed Operation.IsOrderly (new start settings) s) (happ : s.app? name = some root)
    (hst : Leads allowed Operation.IsOrderly s t)
    (hended : t.chronicle = after ++ .ended root :: (since ++ .begun root name state :: past)) :
    Kept start t name (lastAccepted root state since) after
      (.ended root :: (since ++ .begun root name state :: past)) := by
  let _ : FaultyStore σ := ReliableStore.faulty
  have hfollows : ∀ c, allowed c → c.Follows fun _ _ => True := fun _ _ _ _ _ => trivial
  have hs' : Steps (fun _ _ => True) (new start settings) s :=
    hs.steps hfollows (arena_new start settings)
  obtain ⟨ha, hr, _⟩ := Steps.known hs'
  obtain ⟨_, hrt, _⟩ := Steps.known (hs'.trans (hst.steps hfollows ha))
  -- the root has gone, and its window was shut
  have hretires : Retires (fun _ _ => True) root s t := by
    obtain ⟨x, _, hx, hroot, _⟩ := ha.app happ
    have hmoves := hst.moves hfollows (fun h : False => h.elim) ha
    refine (Moves.retires ha hmoves ⟨x, hx, hroot⟩).resolve_left ?_
    rintro ⟨y, hy, _⟩
    have hmem : .ended root ∈ t.chronicle := by
      rw [hended]
      exact List.mem_append_right _ List.mem_cons_self
    rw [(hrt.ended hmem).1] at hy
    cases hy
  obtain ⟨u, x, hsu, hx, hw, hstep, hrest, later, ended, ended', rfl, hlater, hmiddle, hbefore,
    hall, hall'⟩ := hretires.ended_split ha hr hended
  have hu := hs'.trans hsu
  -- what was accepted until then was accepted before the family ended
  have hbegun : .begun root name state ∉ ended' := by
    intro hmem
    obtain ⟨_, heq⟩ := hall' _ hmem
    cases heq
  have hnone : ∀ v k, .accepted root v k ∉ ended' := by
    intro v k hmem
    obtain ⟨_, heq⟩ := hall' _ hmem
    cases heq
  obtain ⟨earlier, rfl, hearlier⟩ := exists_append_of_not_mem hbefore.symm hbegun
  rw [lastAccepted_append, lastAccepted_of_forall hnone]
  have horderly : t.Orderly := by
    have ht : Leads allowed Operation.IsOrderly (new start settings) t := hs.trans hst
    have hmoves : Moves Module.HasName True (new start settings) t :=
      ht.moves hallowed (fun _ _ hop => hop) (arena_new start settings)
    exact (Moves.orderly (arena_new start settings) (recorded_new start settings)
      (orderly_new start settings) hmoves).2
  have hevents : t.chronicle = (later ++ ended ++ .ended root :: ended') ++ u.chronicle := by
    rw [hended, hbefore]
    simp only [List.append_assoc, List.cons_append]
  have hresting := horderly.resting hu hevents hearlier hx hw hstep
  obtain ⟨ha', _, hc'⟩ := Steps.known (hu.tail hstep)
  exact hresting.kept ha' hc'.store hmiddle hall hrest hlater

end

/-- A shop that gives a state when it is closed. -/
def shopEvaluator : Evaluator Unit where
  runModule _ _ :=
    .ask (.define { name := "__on_close", module := some "shop", parameters := [], body := () })
      fun _ => .done (.ok .null)
  callFunction _ _ _ := .ask (.writeState (some "c".toUTF8)) fun _ => .done (.ok .null)
  accepts f arguments := f.acceptsArity arguments
  produce _ _ := .null

/-- The catalogue with the shop. -/
def shopCatalogue : Catalogue :=
  (MemoryModules.ofList [{ name := "shop", code := some "" }]).catalogue

/-- The shop is given two states, gives a third when it is unloaded within the window, and is loaded
again. -/
theorem kept_shop :
    let co := Collaborators.plain shopEvaluator shopCatalogue
    let settings : Settings := { saveDebounceTicks := 2 }
    let s : Server MemoryStore Unit :=
      Operation.runAll co [.addApp "shop" .server] (.new ∅ settings)
    let t : Server MemoryStore Unit := Operation.runAll co
      [.writeGlobalState 1 (some "a".toUTF8), .writeGlobalState 1 (some "b".toUTF8),
        .removeApp "shop", .addApp "shop" .server] s
    let since : List StateEvent :=
      [.stored (.write "c".toUTF8) (.globalState "shop"), .closed 1, .accepted 1 (some "c".toUTF8) 2,
        .replaced 1 (some "c".toUTF8) 2, .accepted 1 (some "b".toUTF8) 2,
        .replaced 1 (some "b".toUTF8) 2, .accepted 1 (some "a".toUTF8) 0,
        .stored (.write "a".toUTF8) (.globalState "shop"), .replaced 1 (some "a".toUTF8) 0]
    let before : List StateEvent := .ended 1 :: (since ++ [.begun 1 "shop" none])
    Leads Catalogue.IsSource Operation.IsOrderly (new ∅ settings) s ∧ s.app? "shop" = some 1 ∧
      Leads Catalogue.IsSource Operation.IsOrderly s t ∧
      t.chronicle = [.begun 2 "shop" (some "c".toUTF8)] ++ before ∧
      Kept ∅ t "shop" (some "c".toUTF8) [.begun 2 "shop" (some "c".toUTF8)] before := by
  intro co settings s t since before
  have hs : Leads Catalogue.IsSource Operation.IsOrderly (new ∅ settings) s :=
    .runAll (.memory _) (by simp [Operation.IsOrderly]) _
  have happ : s.app? "shop" = some 1 := by decide +kernel
  have hst : Leads Catalogue.IsSource Operation.IsOrderly s t :=
    .runAll (.memory _) (by simp [Operation.IsOrderly]) _
  have hchronicle : t.chronicle = [.begun 2 "shop" (some "c".toUTF8)] ++ before := by decide +kernel
  have hkept := kept_of_orderly (fun _ hc => hc.follows) hs happ hst hchronicle
  exact ⟨hs, happ, hst, hchronicle, hkept⟩

end ScriptHost
