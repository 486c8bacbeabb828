import Mathlib
import ScriptHost.Proofs.HaltedTwin
import ScriptHost.Proofs.Replacing
/-!
# Loading all apps anew while execution is halted

Loading an app runs the code of its module, whether or not execution is halted.  So one would expect
that apps which load anew on a running server also do so while it is halted.  Their close hooks are
not called then, but this makes no difference if these leave alone what is kept: whatever else they
do concerns hosts that are about to go.

There is one more difference.  A configuration function is called as soon as it is defined, and a
hook answers null while execution is halted.  That null is taken for the configuration, which has to
be a map, so the definition fails.  Code that gives up then is not loaded, but by that time the app
that had the name has been torn down.

## Main statements

* `Server.KeepsAlike`, `ServerM.keepsAlike_closeOne`: what is kept, while hosts are closed on a
  server and on its halted twin.
* `ServerM.twins_removeApp`, `ServerM.sameOutcome_addApp`, `ServerM.sameOutcome_reloadApps`: to
  remove an app, to load one, and to load all anew comes to the same on both.
* `Server.RefusesConfig`: no configuration function can be defined while execution is halted.
* `reloaded_of_reachable`: if no configuration function is called, apps that a running server would
  load anew are loaded anew by a halted one.
* `vanished_booth`: if one is called, an app can disappear.
-/

namespace ScriptHost

variable {σ β : Type} {suits : String → Module → Prop}

open Server ServerM

/-! ## What is kept while hosts are closed -/

section

variable {s t s' t' : Server σ β} {id : HostId} {x y : Host β}

/-- The same hosts are live in the same places and hold the same states, and the stores are the
same. -/
structure Server.KeepsAlike (s t : Server σ β) : Prop where
  places : SamePlaces s t
  held : ∀ k, t.held k = s.held k
  store : t.store = s.store

theorem Server.Twins.keepsAlike (h : Twins s t) : KeepsAlike s t := by
  obtain ⟨_, journal, chronicle, rfl⟩ := h
  exact ⟨fun _ => rfl, fun _ => rfl, rfl⟩

namespace Server.KeepsAlike

/-- Notes are not kept. -/
theorem noted (h : KeepsAlike s t) (hs : s.Noted s') (ht : t.Noted t') : KeepsAlike s' t' := by
  rcases hs with rfl | ⟨text, rfl⟩
  · rcases ht with rfl | ⟨text, rfl⟩
    · exact h
    · exact ⟨h.places, h.held, h.store⟩
  · rcases ht with rfl | ⟨text', rfl⟩
    · exact ⟨h.places, h.held, h.store⟩
    · exact ⟨h.places, h.held, h.store⟩

variable [StateStore σ]

/-- The same state is given to stores that are the same. -/
theorem flush (h : KeepsAlike s t) (hx : s.host? id = some x) (hy : t.host? id = some y)
    (hname : y.name? = x.name?) (hstate : y.globalState = x.globalState) (e : StateEvent) :
    KeepsAlike ((s.setWindow id 0 e).save x) ((t.setWindow id 0 e).save y) where
  places := by
    have hs : SamePlaces s ((s.setWindow id 0 e).save x) :=
      (samePlaces_setWindow s id 0 e).trans (samePlaces_save _ x)
    exact hs.symm.trans (h.places.trans
      ((samePlaces_setWindow t id 0 e).trans (samePlaces_save _ y)))
  held k := by
    rw [held_save, held_save]
    by_cases hk : id = k
    · subst hk
      rw [held_of_host? (host?_setWindow hx 0 e), held_of_host? (host?_setWindow hy 0 e)]
      exact congrArg (fun v => some (v, 0)) hstate
    · rw [held_setWindow_of_ne hk, held_setWindow_of_ne hk]
      exact h.held k
  store := by
    have hevents : y.saveEvents = x.saveEvents := by
      unfold Host.saveEvents
      rw [hname, hstate]
    have hstore : (t.setWindow id 0 e).store = (s.setWindow id 0 e).store := h.store
    rw [store_save, store_save, hevents, hstore]

end Server.KeepsAlike

variable [StateStore σ] {co : Collaborators β}

/-- Close hooks leave alone what is kept: the store, and the states that hosts hold. -/
def Collaborators.ClosesQuietly (σ : Type) [StateStore σ] (co : Collaborators β) : Prop :=
  ∀ (s : Server σ β) (id : HostId) (h : Host β) (f : StoredFunction β), s.host? id = some h →
    h.function? HookKind.closeName = some f →
      let t := (callHook co { host := id, actor := s.actorFor co.world id } f []).exec s
      t.store = s.store ∧ ∀ k, t.held k = s.held k

namespace ServerM

/-- Sweeping up does the same on servers that keep the same. -/
theorem keepsAlike_sweep (ha : Arena suits s) (hat : Arena suits t) (h : KeepsAlike s t)
    (id : HostId) : KeepsAlike ((sweep id).exec s) ((sweep id).exec t) := by
  cases hx : s.host? id with
  | none =>
      have hy : t.host? id = none := by
        have hplace := h.places id
        rw [hx, Option.map_none] at hplace
        exact Option.map_eq_none_iff.1 hplace
      unfold sweep
      rw [exec_bind, exec_bind, eval_host?, eval_host?, exec_host?, exec_host?, hx, hy]
      exact h
  | some x =>
      obtain ⟨y, hy, hplace⟩ := h.places.symm.host? hx
      have howner : y.owner = x.owner := (Host.owner_of_place_eq hplace).symm
      have hname : y.name? = x.name? := (Host.name?_of_place_eq hplace).symm
      have hheld : (y.globalState, y.saveTimeout) = (x.globalState, x.saveTimeout) := by
        have hid := h.held id
        rw [held_of_host? hx, held_of_host? hy] at hid
        exact Option.some.inj hid
      obtain ⟨hstate, hwindow⟩ := Prod.mk.inj hheld
      by_cases ho : x.owner = none
      · have hx' : (s.record (.swept (markerTag x.name?))).host? id = some x := hx
        have hy' : (t.record (.swept (markerTag y.name?))).host? id = some y := hy
        have h' : KeepsAlike (s.record (.swept (markerTag x.name?)))
            (t.record (.swept (markerTag y.name?))) := ⟨h.places, h.held, h.store⟩
        rcases sweep_cases ha.keyed hx ho with ⟨hw, hexec⟩ | ⟨hw, hnoted⟩
        · rcases sweep_cases hat.keyed hy (howner.trans ho) with ⟨_, hexec'⟩ | ⟨hw', _⟩
          · rw [hexec, hexec']
            exact ⟨h.places, h.held, h.store⟩
          · omega
        · rcases sweep_cases hat.keyed hy (howner.trans ho) with ⟨hw', _⟩ | ⟨_, hnoted'⟩
          · omega
          · exact (h'.flush hx' hy' hname hstate _).noted hnoted hnoted'
      · rw [exec_sweep_of_owner_ne_none hx ho,
          exec_sweep_of_owner_ne_none hy (by rw [howner]; exact ho)]
        exact h

/-- Closing a single host does the same to what is kept, whether or not its close hook is called. -/
theorem keepsAlike_closeOne (hcloses : co.ClosesQuietly σ) (ha : Arena suits s)
    (hat : Arena suits t) (ht : t.isStopped = true) (h : KeepsAlike s t) (id : HostId) :
    KeepsAlike ((closeOne co id).exec s) ((closeOne co id).exec t) := by
  rw [exec_closeOne_of_isStopped ht]
  unfold closeOne
  rw [exec_bind, eval_host?, exec_host?]
  cases hx : s.host? id with
  | none => exact keepsAlike_sweep ha hat h id
  | some x =>
      rw [Option.bind_some]
      cases hf : x.function? HookKind.closeName with
      | none => exact keepsAlike_sweep ha hat h id
      | some f =>
          have hcode : CodeSteps id s _ := actsUnder_callHook co
            { host := id, actor := s.actorFor co.world id } f [] ha.keyed
          obtain ⟨hstore, hheld⟩ := hcloses s id x f hx hf
          have hcalled := KeepsAlike.mk (hcode.frame.samePlaces.symm.trans h.places)
            (fun k => (h.held k).trans (hheld k).symm) (h.store.trans hstore.symm)
          exact keepsAlike_sweep (Steps.arena ha hcode.steps) hat hcalled id

theorem keepsAlike_forM (hcloses : co.ClosesQuietly σ) (ids : List HostId) (ha : Arena suits s)
    (hat : Arena suits t) (ht : t.isStopped = true) (h : KeepsAlike s t) :
    KeepsAlike ((ids.forM (closeOne co)).exec s) ((ids.forM (closeOne co)).exec t) := by
  induction ids generalizing s t with
  | nil => exact h
  | cons id ids ih =>
      have hidle : Idles suits s ((closeOne co id).exec s) := keeps_closeOne id ha
      have hidle' : Idles suits t ((closeOne co id).exec t) := keeps_closeOne id hat
      rw [exec_forM_cons, exec_forM_cons]
      exact ih (Steps.arena ha hidle.steps) (Steps.arena hat hidle'.steps)
        ((heeds_closeOne id t).isStopped.trans ht) (keepsAlike_closeOne hcloses ha hat ht h id)

end ServerM

/-! ## Removing an app -/

/-- When the family of a root has been closed on twins, and the stores are the same, the servers are
twins again once the family has gone: nothing else was concerned. -/
theorem Server.Twins.discard (h : Twins s t) {u v : Server σ β} (hroot : s.IsRoot id)
    (hu : Within (s.family id) s u) (hv : Within (t.family id) t v) (hidle : Idles suits s u)
    (hidle' : Idles suits t v) (hstore : v.store = u.store) :
    Twins ((ServerM.discard id).exec u) ((ServerM.discard id).exec v) := by
  obtain ⟨hrunning, journal, chronicle, rfl⟩ := h
  have hplaces : SamePlaces s (s.halt journal chronicle) := fun _ => rfl
  have hfamily : (s.halt journal chronicle).family id = s.family id := hplaces.family_eq rfl id
  have hroot' : (s.halt journal chronicle).IsRoot id := hroot
  obtain ⟨x, hx, hox⟩ := hroot.of_samePlaces hidle.places
  obtain ⟨y, hy, hoy⟩ := hroot'.of_samePlaces hidle'.places
  have hfamily_u : u.family id = s.family id := hidle.places.family_eq hidle.nextId id
  have hfamily_v : v.family id = s.family id :=
    (hidle'.places.family_eq hidle'.nextId id).trans hfamily
  rw [hfamily] at hv
  rw [exec_discard hx, exec_discard hy, discard_eq u, discard_eq v]
  refine .of_eq (hu.isStopped.trans hrunning) hv.isStopped (fun k => ?_)
    (hidle'.nextId.trans hidle.nextId.symm) (hidle'.apps.trans hidle.apps.symm) ?_
    (hv.settings.trans hu.settings.symm) hstore
  · change (v.discard id y).host? k = (u.discard id x).host? k
    rw [host?_discard, host?_discard, hfamily_u, hfamily_v, hox, hoy]
    split
    · rfl
    · rename_i hk
      rw [hu.others k hk, hv.others k hk]
      rfl
  · change (v.discard id y).dispatch = (u.discard id x).dispatch
    rw [dispatch_discard, dispatch_discard, hfamily_u, hfamily_v, hu.dispatch, hv.dispatch]
    rfl

namespace ServerM

/-- Removing an app comes to the same: its close hooks make no difference. -/
theorem twins_removeApp (hcloses : co.ClosesQuietly σ) (ha : Arena suits s) (hat : Arena suits t)
    (h : Twins s t) (name : String) :
    Twins ((removeApp co name).exec s) ((removeApp co name).exec t) := by
  unfold removeApp
  rw [exec_bind, exec_bind, eval_get, eval_get, exec_get, exec_get, h.app?_eq]
  cases hid : s.app? name with
  | none => exact h
  | some id =>
      have htwins := h.eraseApp name
      have hroot : (s.eraseApp name).IsRoot id := by
        obtain ⟨x, _, hx, ho, _⟩ := ha.app hid
        exact ⟨x, hx, ho⟩
      have hroot' := hroot.of_samePlaces htwins.keepsAlike.places
      have ha' := ha.eraseApp name
      have hat' := hat.eraseApp name
      have hclosed := keepsAlike_forM hcloses ((s.eraseApp name).family id) ha' hat'
        htwins.isStopped htwins.keepsAlike
      have hstore : ((close co id).exec (t.eraseApp name)).store =
          ((close co id).exec (s.eraseApp name)).store := by
        unfold close
        rw [exec_bind, exec_bind, eval_get, eval_get, exec_get, exec_get, htwins.family_eq]
        exact hclosed.store
      exact (htwins.discard hroot (ha'.within_close hroot co) (hat'.within_close hroot' co)
        (keeps_close co id ha') (keeps_close co id hat') hstore).record _ _

/-! ## Loading apps -/

omit [StateStore σ] in
/-- A root that has been made is entered under its name, and a failure is passed on. -/
theorem overlooks_enter (name : String) (result : Except ScriptError HostId) :
    Overlooks (match result with
      | .error e => return .error e
      | .ok id => do
        modify fun s => { s with apps := s.apps.insert name id }
        log .info s!"Loaded app {name}"
        return .ok id : ServerM σ β (Except ScriptError HostId)) := by
  cases result with
  | error e => exact overlooks_pure _
  | ok id =>
      have hinsert : Overlooks (modify fun s => { s with apps := s.apps.insert name id } :
          ServerM σ β PUnit) :=
        overlooks_modify (fun _ => .of_eq rfl rfl) fun _ journal chronicle =>
          ⟨journal, chronicle, rfl⟩
      exact hinsert.bind fun _ => (overlooks_log _ _).bind fun _ => overlooks_pure _

/-- Loading an app comes to the same, unless a configuration function is called. -/
theorem sameOutcome_addApp (hco : co.LoadsUnaware) (hcloses : co.ClosesQuietly σ)
    (ha : Arena suits s) (hat : Arena suits t) (h : Twins s t) (name : String) (actor : Actor)
    (hquiet : Unconfigured s ((addApp co name actor).exec s)) :
    SameOutcome (addApp co name actor) s t := by
  unfold addApp at hquiet ⊢
  dsimp only at hquiet ⊢
  generalize Text.lowercase name = name at hquiet ⊢
  have hfind : Overlooks (findModule co name false : ServerM σ β _) := overlooks_findModule _ _
  have hact : ActsUnder HostId.unnamed (findModule co name false : ServerM σ β _) :=
    actsUnder_findModule _ _
  have hfound : (findModule co name false : ServerM σ β _).eval s =
      (co.catalogue.find name false).found := rfl
  rw [exec_bind, hfound] at hquiet
  cases hm : (co.catalogue.find name false).found with
  | none =>
      rw [hm] at hquiet
      have hfail : Overlooks (loadFailure co actor name .appNotFound : ServerM σ β _) :=
        overlooks_loadFailure actor name .appNotFound
      obtain ⟨hfirst, hsecond⟩ := hquiet.split (hfind.heeds s) (hfail.heeds _)
      have hsame := hfind.same h hfirst
      apply hsame.bind
      rw [hfound, hm]
      exact hfail.same hsame.twins hsecond
  | some m =>
      rw [hm] at hquiet
      have hload := (overlooks_createApplication (σ := σ) hco m false actor).bind fun result =>
        overlooks_enter name result
      have hremove : Heeds (removeApp co name : ServerM σ β Bool) := heeds_removeApp name
      obtain ⟨hfirst, hquiet⟩ := hquiet.split (hfind.heeds s)
        ((hremove.bind fun _ => hload.heeds) _)
      have hsame := hfind.same h hfirst
      have hremoved : SameOutcome (removeApp co name) ((findModule co name false).exec s)
          ((findModule co name false).exec t) := by
        refine ⟨?_, twins_removeApp hcloses (Steps.arena ha (hact ha.keyed).steps)
          (Steps.arena hat (hact hat.keyed).steps) hsame.twins name⟩
        rw [eval_removeApp, eval_removeApp, hsame.twins.app?_eq]
      apply hsame.bind
      rw [hfound, hm]
      exact hremoved.bind
        (hload.same hremoved.twins (hquiet.split (hremove _) (hload.heeds _)).2)

/-- So does loading apps one after the other. -/
theorem sameOutcome_addApps (hco : co.LoadsUnaware) (hcloses : co.ClosesQuietly σ)
    (hfollows : co.catalogue.Follows suits) (ha : Arena suits s) (hat : Arena suits t)
    (h : Twins s t) (doing : String) (actor : Actor) (names : List String)
    (hquiet : Unconfigured s ((addApps co doing actor names).exec s)) :
    SameOutcome (addApps co doing actor names) s t := by
  induction names generalizing s t with
  | nil => exact ⟨rfl, h⟩
  | cons name rest ih =>
      have hmoves : Moves suits True s ((addApp co name actor).exec s) :=
        walks_addApp hfollows name actor ha
      have hmoves' : Moves suits True t ((addApp co name actor).exec t) :=
        walks_addApp hfollows name actor hat
      have hloads : Heeds (addApp co name actor : ServerM σ β _) := heeds_addApp name actor
      have hrest : Heeds (addApps co doing actor rest : ServerM σ β Nat) :=
        heeds_addApps doing actor rest
      unfold addApps at hquiet ⊢
      rw [exec_bind] at hquiet
      cases hadded : (addApp co name actor).eval s with
      | ok id =>
          rw [hadded] at hquiet
          obtain ⟨hfirst, hsecond⟩ := hquiet.split (hloads s)
            ((hrest.bind fun _ => doesOnly_pure _) _)
          have hsame := sameOutcome_addApp hco hcloses ha hat h name actor hfirst
          have hall := ih (Moves.arena ha hmoves) (Moves.arena hat hmoves') hsame.twins hsecond
          apply hsame.bind
          rw [hadded]
          exact hall.bind ⟨rfl, hall.twins⟩
      | error e =>
          rw [hadded] at hquiet
          let note : Activity β := .logged .warn s!"Failed to {doing} app {name}: {e.message}"
          have hnote : Overlooks (record note : ServerM σ β Unit) := overlooks_record rfl
          obtain ⟨hfirst, hquiet⟩ := hquiet.split (hloads s)
            ((hnote.heeds.bind fun _ => hrest) _)
          obtain ⟨hsecond, hthird⟩ := hquiet.split (hnote.heeds _) (hrest _)
          have hsame := sameOutcome_addApp hco hcloses ha hat h name actor hfirst
          have hnoted := hnote.same hsame.twins hsecond
          apply hsame.bind
          rw [hadded]
          exact hnoted.bind (ih ((step_record _ note).arena (Moves.arena ha hmoves))
            ((step_record _ note).arena (Moves.arena hat hmoves')) hnoted.twins hthird)

/-- And so does loading all apps anew: the same apps ask to stay. -/
theorem sameOutcome_reloadApps (hco : co.LoadsUnaware) (hcloses : co.ClosesQuietly σ)
    (hfollows : co.catalogue.Follows suits) (ha : Arena suits s) (hat : Arena suits t)
    (h : Twins s t) (actor : Actor)
    (hquiet : Unconfigured s ((reloadApps co actor).exec s)) :
    SameOutcome (reloadApps co actor) s t := by
  have htwins := h
  obtain ⟨_, journal, chronicle, rfl⟩ := h
  let note (count : Nat) : ServerM σ β Nat := do
    if 0 < count then log .info s!"Reloaded {count} app(s)"
    return count
  have hnote : ∀ count, Overlooks (note count) := fun count =>
    Overlooks.ite (m := do log .info _; return count)
      ((overlooks_log _ _).bind fun _ => overlooks_pure _) (overlooks_pure _)
  have hloads : Heeds (addApps co "reload" actor s.unpinned : ServerM σ β Nat) :=
    heeds_addApps "reload" actor _
  obtain ⟨hfirst, hsecond⟩ := hquiet.split (hloads s) ((hnote _).heeds _)
  have hall := sameOutcome_addApps hco hcloses hfollows ha hat htwins "reload" actor _ hfirst
  have hrest := hall.bind (f := note) ((hnote _).same hall.twins hsecond)
  exact ⟨hrest.eval, hrest.twins⟩

end ServerM

/-! ## Halted servers -/

/-- No configuration function can be defined: its definition under a root fails like that of a
function that gives no map, and the function is not called. -/
def Server.RefusesConfig (co : Collaborators β) (t : Server σ β) : Prop :=
  ∀ (id : HostId) (h : Host β) (f : StoredFunction β), t.host? id = some h → h.owner = none →
    moduleKey f.module = h.mainKey → f.name = HookKind.configName →
      (ServerM.define co id f).eval t = .error (.contract .invalidConfig) ∧
        (ServerM.define co id f).exec t = t.modifyHost id (·.insertFunction f)

theorem Server.refusesConfig_of_isStopped (ht : t.isStopped = true) (co : Collaborators β) :
    t.RefusesConfig co := by
  intro id h f hh ho hmain hname
  have hroot : h.isRoot = true := by rw [Host.isRoot, ho]; rfl
  have hkind : HookKind.ofName f.name = .config := by
    rw [hname]
    rfl
  obtain ⟨hown, hfun⟩ := config_insertFunction hh hmain hname
  have hinserted : (t.modifyHost id (·.insertFunction f)).isStopped = true := ht
  unfold ServerM.define defineWith
  rw [eval_bind, exec_bind, eval_host?, exec_host?, hh]
  dsimp only
  rw [eval_bind, exec_bind, exec_modifyHost, if_neg (not_not.2 hmain), hkind]
  dsimp only
  rw [if_pos hroot]
  exact readConfig_of_isStopped hinserted hown hfun

omit [StateStore σ] in
/-- Halting the execution of a running server makes its halted twin. -/
theorem ServerM.twins_setStopped (hs : s.isStopped = false) :
    Twins s ((setStopped true).exec s) := by
  refine ⟨hs, .logged .info "Script execution paused" :: s.journal, s.chronicle, ?_⟩
  unfold setStopped
  rw [exec_bind, eval_get, exec_get, hs]
  rfl

/-- What loading all apps anew comes to on a running server and on its halted twin.  It comes to the
same, and if all apps that do not ask to stay would load on the running server, they do so on the
halted one. -/
structure Server.ReloadsHalted (co : Collaborators β) (actor : Actor) (s t : Server σ β) :
    Prop where
  twins : Twins s t
  same : SameOutcome (reloadApps co actor) s t
  loaded : (reloadApps co actor).eval s = s.unpinned.length → ∀ name ∈ s.unpinned,
    ∃ id x, ((reloadApps co actor).exec t).app? name = some id ∧
      ((reloadApps co actor).exec t).host? id = some x ∧ x.owner = none

/-- When a reachable server is halted, no configuration function can be defined any more.  Apart
from that, loading all apps anew comes to what it would have come to on the running server: so it is
if no configuration function would have been called there, code does not ask whether execution is
halted, and close hooks leave alone what is kept. -/
theorem reloaded_of_reachable {allowed : Catalogue → Prop} (hs : Reachable allowed s)
    (hrunning : s.isStopped = false) (co : Collaborators β) (actor : Actor) :
    ((setStopped true).exec s).RefusesConfig co ∧
      (co.LoadsUnaware → co.ClosesQuietly σ → Unconfigured s ((reloadApps co actor).exec s) →
        ReloadsHalted co actor s ((setStopped true).exec s)) := by
  let suits : String → Module → Prop := fun name _ => Text.lowercase name = name
  have hfollows : ∀ c : Catalogue, c.Follows suits := fun _ name _ _ =>
    Text.lowercase_lowercase name
  obtain ⟨ha, hn⟩ := hs.induction (P := Server.Named) (fun c _ => hfollows c) named_new
    fun _ _ ha hs h => h.named ha hs
  have htwins := twins_setStopped hrunning
  have hat : Arena suits ((setStopped true).exec s) :=
    Steps.arena ha (keeps_setStopped true ha).steps
  refine ⟨refusesConfig_of_isStopped (isStopped_setStopped true s) co,
    fun hco hcloses hquiet => ?_⟩
  have hsame := sameOutcome_reloadApps hco hcloses (hfollows _) ha hat htwins actor hquiet
  refine ⟨htwins, hsame, fun hcount name hname => ?_⟩
  obtain ⟨u, hall, hexec⟩ :=
    (reloads_reloadApps co actor (fun _ _ h => h) (hfollows _) ha hn).loads
  obtain ⟨id, hid⟩ := hall.app?_of_length hcount (s.pairwise_unpinned.imp ne_of_lt) name hname
  have happ : ((reloadApps co actor).exec s).app? name = some id := by
    rw [hexec]
    split <;> exact hid
  have happ' : ((reloadApps co actor).exec ((setStopped true).exec s)).app? name = some id :=
    (hsame.twins.app?_eq name).trans happ
  have hmoves : Moves suits True _ ((reloadApps co actor).exec ((setStopped true).exec s)) :=
    walks_reloadApps (hfollows _) actor hat
  obtain ⟨x, _, hx, ho, _⟩ := (Moves.arena hat hmoves).app happ'
  exact ⟨id, x, happ', hx, ho⟩

/-- A kiosk with a close hook that gives no state. -/
def kioskEvaluator : Evaluator Unit where
  runModule _ m :=
    let hook := HookKind.closeName
    .ask (.define { name := hook, module := some m.name, parameters := [], body := () })
      fun _ => .done (.ok .null)
  callFunction _ _ _ := .done (.ok .null)
  accepts f arguments := f.acceptsArity arguments
  produce _ _ := .null

/-- The catalogue with the kiosk. -/
def kioskCatalogue : Catalogue :=
  (MemoryModules.ofList [{ name := "kiosk", code := some "" }]).catalogue

/-- A hook of the kiosk leaves alone what is kept. -/
theorem closesQuietly_kiosk :
    (Collaborators.plain kioskEvaluator kioskCatalogue).ClosesQuietly MemoryStore := by
  intro s id h f hh _
  unfold callHook callHookWith
  dsimp only
  rw [exec_bind, eval_get, exec_get, exec_ite]
  split
  · exact ⟨rfl, fun _ => rfl⟩
  · split
    · exact ⟨rfl, fun _ => rfl⟩
    · unfold evaluate
      rw [exec_bind, exec_bind, eval_bind, eval_host?, exec_host?, hh]
      exact ⟨rfl, fun _ => rfl⟩

/-- The kiosk is loaded anew while execution is halted, as it would have been before. -/
theorem reloaded_kiosk :
    let co := Collaborators.plain kioskEvaluator kioskCatalogue
    let s : Server MemoryStore Unit := Operation.runAll co [.addApp "kiosk" .server] (.new ∅ {})
    let reload : ServerM MemoryStore Unit Nat := reloadApps co .server
    let t := (setStopped true).exec s
    s.isStopped = false ∧ s.unpinned = ["kiosk"] ∧ reload.eval s = 1 ∧
      (reload.exec t).app? "kiosk" = some 2 ∧ t.RefusesConfig co ∧
      ReloadsHalted co .server s t := by
  intro co s reload t
  have hs : Reachable (fun _ => True) s := .runAll trivial _ (.new _ _)
  have hrunning : s.isStopped = false := by decide +kernel
  have hunaware : co.LoadsUnaware := fun _ _ => .ask (fun h => nomatch h) fun _ => .done _
  have hquiet : Unconfigured s (reload.exec s) := by
    have hnone : ∀ a ∈ (reload.exec s).journal, ∀ d ∈ a.deed?, ¬ d.IsConfigCall := by
      decide +kernel
    obtain ⟨new, hnew, _⟩ := (heeds_reloadApps .server s : Does _ s (reload.exec s)).journal
    refine ⟨new, hnew, fun a ha => hnone a ?_⟩
    rw [hnew]
    exact List.mem_append_left _ ha
  obtain ⟨hrefuses, hreloads⟩ := reloaded_of_reachable hs hrunning co .server
  exact ⟨hrunning, by decide +kernel, by decide +kernel, by decide +kernel, hrefuses,
    hreloads hunaware closesQuietly_kiosk hquiet⟩

-- The conditions on code cannot be left out, as the next two evaluators show.

/-- Code that asks whether execution is halted may itself refuse to load. -/
example :
    let evaluator : Evaluator Unit :=
      { runModule := fun _ _ => .ask .isStopped fun stopped =>
          .done (if stopped then .error (.runtime "closed") else .ok .null)
        callFunction := fun _ _ _ => .done (.ok .null)
        accepts := fun f arguments => f.acceptsArity arguments
        produce := fun _ _ => .null }
    let co := Collaborators.plain evaluator
      (MemoryModules.ofList [{ name := "shop", code := some "" }]).catalogue
    let s : Server MemoryStore Unit := Operation.runAll co [.addApp "shop" .server] (.new ∅ {})
    let reload : ServerM MemoryStore Unit Nat := reloadApps co .server
    reload.eval s = 1 ∧ reload.eval ((setStopped true).exec s) = 0 := by
  decide +kernel

/-- Code may look for what a close hook would have left in the store. -/
example :
    let evaluator : Evaluator Unit :=
      { runModule := fun _ m => .ask (.remove "seat" true "text") fun
          | .ok true =>
            let hook := HookKind.closeName
            .ask (.define { name := hook, module := some m.name, parameters := [], body := () })
              fun _ => .done (.ok .null)
          | _ => .done (.error (.runtime "taken"))
        callFunction := fun _ _ _ => .ask (.appendLog "seat" true "text" ["free"])
          fun _ => .done (.ok .null)
        accepts := fun f arguments => f.acceptsArity arguments
        produce := fun _ _ => .null }
    let co := Collaborators.plain evaluator
      (MemoryModules.ofList [{ name := "shop", code := some "" }]).catalogue
    let s : Server MemoryStore Unit := Operation.runAll co
      [.appendLog 0 "seat" true "text" ["free"], .addApp "shop" .server] (.new ∅ {})
    let reload : ServerM MemoryStore Unit Nat := reloadApps co .server
    reload.eval s = 1 ∧ reload.eval ((setStopped true).exec s) = 0 := by
  decide +kernel

/-- An app with a configuration function, which gives up when it cannot be defined. -/
def boothEvaluator : Evaluator Unit where
  runModule _ m :=
    let hook := HookKind.configName
    .ask (.define { name := hook, module := some m.name, parameters := [], body := () })
      fun
        | .ok () => .done (.ok .null)
        | .error e => .done (.error e)
  callFunction _ _ _ := .done (.ok (.map []))
  accepts f arguments := f.acceptsArity arguments
  produce _ _ := .null

/-- The catalogue with that app. -/
def boothCatalogue : Catalogue :=
  (MemoryModules.ofList [{ name := "booth", code := some "" }]).catalogue

/-- The app would be loaded anew by the running server, but it disappears from the halted one. -/
theorem vanished_booth :
    let co := Collaborators.plain boothEvaluator boothCatalogue
    let s : Server MemoryStore Unit := Operation.runAll co [.addApp "booth" .server] (.new ∅ {})
    let reload : ServerM MemoryStore Unit Nat := reloadApps co .server
    let t := (setStopped true).exec s
    Reachable (fun _ => True) s ∧ s.isStopped = false ∧ s.unpinned = ["booth"] ∧
      reload.eval s = s.unpinned.length ∧ (reload.exec s).app? "booth" = some 2 ∧
      t.app? "booth" = some 1 ∧ reload.eval t = 0 ∧
      ¬ ∀ name ∈ s.unpinned, (reload.exec t).app? name ≠ none := by
  intro co s reload t
  refine ⟨.runAll trivial _ (.new _ _), by decide +kernel, by decide +kernel, by decide +kernel,
    by decide +kernel, by decide +kernel, by decide +kernel, by decide +kernel⟩

end

end ScriptHost
