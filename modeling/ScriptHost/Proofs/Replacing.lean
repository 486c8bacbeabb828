import Mathlib
import ScriptHost.Proofs.Closing
import ScriptHost.Proofs.Creation
import ScriptHost.Proofs.Lowercase
import ScriptHost.Proofs.Removal
/-!
# Loading and replacing apps

An app is loaded in stages, and each of them can be the last one.  First its module is looked up; if
there is none, a report is all that comes of it.  Then an app that is loaded under the name is
closed and discarded.  Then the new root begins and its code is run; if the code fails the root goes
again, and no app is left under the name.  Otherwise the root is entered under the name.

Each stage concerns the tree of one root only: closing and discarding concern that of the old root,
and the code of the new root is bound to its host, which has no users yet.  So the trees of all
other roots stay as they are, and when all apps are loaded anew, those that ask to stay are left
alone.

## Main statements

* `Server.Spares`: some hosts are as they were, with their bindings.
* `Server.Shuts`, `Server.TornDown`, `Server.Freed`: what becomes of the app that had the name.
* `Server.Loading`, `ServerM.loading_addApp`: what loading an app comes to.
* `Server.SparesOthers`, `Server.Loading.sparesOthers`: it concerns no other tree.
* `Server.LoadsAll`, `ServerM.loadsAll_addApps`: apps are loaded one after the other.
* `Server.LoadsAll.app?_of_length`: if as many have loaded as there are names, all are loaded.
* `Server.Reloads`, `ServerM.reloads_reloadApps`: all apps are loaded anew.
* `replaced_of_reachable`: what loading an app and loading all apps anew make of a reachable server.
-/

namespace ScriptHost

variable {σ β : Type} {suits : String → Module → Prop}

open Server ServerM

/-! ## Hosts that are spared -/

section

variable {s t u : Server σ β} {id r : HostId} {ids : List HostId}

/-- Some hosts are as they were, and so are the bindings of them. -/
structure Server.Spares (ids : List HostId) (s t : Server σ β) : Prop where
  hosts : ∀ k ∈ ids, t.host? k = s.host? k
  bindings : ∀ e, (t.dispatch.bindings e).filter (·.host ∈ ids) =
    (s.dispatch.bindings e).filter (·.host ∈ ids)

namespace Server.Spares

/-- Hosts and bindings are what they were, whatever else has happened. -/
theorem of_eq (hhosts : t.hosts = s.hosts) (hdispatch : t.dispatch = s.dispatch) :
    Spares ids s t where
  hosts k _ := by rw [host?, hhosts, host?]
  bindings e := by rw [hdispatch]

protected theorem refl (ids : List HostId) (s : Server σ β) : Spares ids s s := .of_eq rfl rfl

protected theorem trans (h : Spares ids s t) (g : Spares ids t u) : Spares ids s u where
  hosts k hk := (g.hosts k hk).trans (h.hosts k hk)
  bindings e := (g.bindings e).trans (h.bindings e)

/-- Only which hosts are spared counts, and not in which order they are listed. -/
theorem congr {ids' : List HostId} (h : Spares ids s t) (hids : ∀ k, k ∈ ids' ↔ k ∈ ids) :
    Spares ids' s t where
  hosts k hk := h.hosts k ((hids k).1 hk)
  bindings e := by
    simp only [hids]
    exact h.bindings e

/-- The family of a root is the same hosts as before if it is spared. -/
theorem mem_family_iff (h : Spares (s.family r) s t) (ha : Arena suits s) (hat : Arena suits t)
    (hr : s.IsRoot r) (k : HostId) : k ∈ t.family r ↔ k ∈ s.family r := by
  obtain ⟨x, hx, _⟩ := hr
  have hsame : ∀ p, s.Descends r p → t.host? p = s.host? p := fun p hp =>
    h.hosts p (ha.mem_family_iff.2 ⟨by rw [hx]; rfl, hp⟩)
  rw [hat.mem_family_iff, ha.mem_family_iff, hsame r .self, descends_iff_of_host?_eq hsame]

theorem isRoot (h : Spares (s.family r) s t) (ha : Arena suits s) (hr : s.IsRoot r) :
    t.IsRoot r := by
  obtain ⟨x, hx, ho⟩ := hr
  exact ⟨x, (h.hosts r (ha.mem_family_self hx)).trans hx, ho⟩

end Server.Spares

/-- When a root goes, the families of the other roots are spared. -/
theorem Server.Removed.spares (h : Removed id s t) (ha : Arena suits s) (hid : s.IsRoot id)
    (hr : s.IsRoot r) (hne : r ≠ id) : Spares (s.family r) s t where
  hosts k hk :=
    h.others k (hid.not_descends_of_descends ha hr hne (ha.mem_family_iff.1 hk).2)
  bindings e := by
    rw [h.bindings, List.filter_filter]
    apply List.filter_congr
    intro b _
    by_cases hb : b.host ∈ s.family r
    · have hout : b.host ∉ s.family id := by
        rw [h.mem_family]
        exact hid.not_descends_of_descends ha hr hne (ha.mem_family_iff.1 hb).2
      simp [hb, hout]
    · simp [hb]

/-- When a root begins and its code is run, all other hosts are spared. -/
theorem Server.spares_beginRoot [StateStore σ] {module : Option Module} {perUser : Bool}
    {state : Option Blob} {sink : Option Actor}
    (hcode : CodeSteps s.nextId (s.beginRoot module perUser state sink) t)
    (hids : s.nextId ∉ ids) : Spares ids s t := by
  have hf := hcode.frame
  have hroot : (s.beginRoot module perUser state sink).rootOf s.nextId = s.nextId := by
    apply rootOf_eq_self_of_owner_eq_none (h := s.newRoot module perUser state sink)
    · rw [host?_beginRoot, if_pos rfl]
    · rfl
  refine ⟨fun k hk => ?_, fun e => ?_⟩
  · have hne : s.nextId ≠ k := fun heq => hids (heq ▸ hk)
    rw [hf.others k hne.symm (by rw [hroot]; exact hne.symm), host?_beginRoot, if_neg hne]
  · -- new bindings are bindings of the new root
    have hold : ∀ d : EventDispatch, (d.bindings e).filter (·.host ∈ ids) =
        ((EventDispatch.mk (d.subscriptions.filter (·.2.host != s.nextId))).bindings e).filter
          (·.host ∈ ids) := by
      intro d
      unfold EventDispatch.bindings
      rw [List.filter_map, List.filter_map, List.filter_filter, List.filter_filter,
        List.filter_filter]
      congr 1
      apply List.filter_congr
      intro b _
      by_cases hb : b.2.host = s.nextId
      · simp [hb, hids]
      · simp [hb]
    rw [hold, hf.bindings, ← hold]
    rfl

end

/-! ## The app that had the name -/

section

variable [StateStore σ] {co : Collaborators β} {s t u : Server σ β} {id : HostId} {name : String}
  {ids : List HostId}

/-- Hosts are swept up after one after the other. -/
inductive Server.Sweeping : List HostId → Server σ β → Server σ β → Prop where
  | nil (s : Server σ β) : Sweeping [] s s
  | cons {id : HostId} {ids : List HostId} {s t u : Server σ β} (hsweep : SweepTurn id s t)
      (hrest : Sweeping ids t u) : Sweeping (id :: ids) s u

/-- Hosts are closed one after the other.  While the server is paused no close hook is called. -/
def Server.Shuts (co : Collaborators β) (ids : List HostId) (s t : Server σ β) : Prop :=
  s.isStopped = false ∧ Closing co ids s t ∨ s.isStopped = true ∧ Sweeping ids s t

/-- The app of a name has been torn down.  Every host of its tree has been closed once, after the
name had been struck off, and then the tree has been discarded. -/
structure Server.TornDown (co : Collaborators β) (name : String) (id : HostId)
    (s t : Server σ β) : Prop where
  nodup : (s.family id).Nodup
  closed : ∃ u, Shuts co (s.family id) (s.eraseApp name) u ∧
    t = ((ServerM.discard id).exec u).record (.logged .info s!"Unloaded app {name}")
  removed : Removed id s t

/-- No app has the name any more.  If one had it, it has been torn down. -/
structure Server.Freed (co : Collaborators β) (name : String) (s t : Server σ β) : Prop where
  app? : ∀ n, t.app? n = if name = n then none else s.app? n
  nextId : t.nextId = s.nextId
  absent : s.app? name = none → t = s
  tornDown : ∀ id, s.app? name = some id → TornDown co name id s t

namespace ServerM

/-- While the server is paused, no hook is called. -/
theorem exec_callHook_of_isStopped (hs : s.isStopped = true) (id : HostId) (actor : Actor)
    (f : StoredFunction β) (values : List Value) :
    (callHook co { host := id, actor } f values).exec s = s :=
  Operation.exec_eq_of_isGated (.invoke id (.callHook actor .origin f values)) trivial co hs

/-- While the server is paused, closing a single host is sweeping up after it. -/
theorem exec_closeOne_of_isStopped (hs : s.isStopped = true) (id : HostId) :
    (closeOne co id).exec s = (sweep id).exec s := by
  unfold closeOne
  rw [exec_bind, eval_host?, exec_host?]
  cases (s.host? id).bind (·.function? HookKind.closeName) with
  | none => rfl
  | some hook =>
      dsimp only
      rw [exec_bind, eval_get, exec_get, exec_bind, exec_callHook_of_isStopped hs]

/-- While the server is paused, closing live hosts is sweeping up after them. -/
theorem sweeping_forM (hs : s.isStopped = true) (ha : Arena suits s)
    (hlive : ∀ k ∈ ids, (s.host? k).isSome) : Sweeping ids s ((ids.forM (closeOne co)).exec s) := by
  induction ids generalizing s with
  | nil => exact .nil s
  | cons id ids ih =>
      obtain ⟨h, hh⟩ := Option.isSome_iff_exists.1 (hlive id List.mem_cons_self)
      have hidle : Idles suits s ((closeOne co id).exec s) := keeps_closeOne id ha
      rw [exec_forM_cons]
      refine .cons (t := (closeOne co id).exec s) ?_ (ih ?_ (Steps.arena ha hidle.steps) ?_)
      · rw [exec_closeOne_of_isStopped hs]
        exact sweepTurn_sweep ha hh
      · exact (heeds_closeOne id s).isStopped.trans hs
      · intro k hk
        have hplace := congrArg Option.isSome (hidle.places k)
        rw [Option.isSome_map, Option.isSome_map] at hplace
        rw [hplace]
        exact hlive k (List.mem_cons_of_mem id hk)

/-- Closing a host closes its family. -/
theorem shuts_close (co : Collaborators β) (ha : Arena suits s) (hn : s.Named) (id : HostId) :
    Shuts co (s.family id) s ((close co id).exec s) := by
  have hlive : ∀ k ∈ s.family id, (s.host? k).isSome := fun k hk => isSome_of_mem_familyTo hk
  unfold close
  rw [exec_bind, eval_get, exec_get]
  cases hs : s.isStopped with
  | false => exact .inl ⟨hs, closing_forM hs ha hn hlive⟩
  | true => exact .inr ⟨hs, sweeping_forM hs ha hlive⟩

/-- Removing an app frees its name. -/
theorem freed_removeApp (co : Collaborators β) (ha : Arena suits s) (hn : s.Named)
    (name : String) : Freed co name s ((removeApp co name).exec s) where
  app? := app?_removeApp co ha name
  nextId := by
    rcases removeApp_cases co ha name with ⟨_, hexec⟩ | ⟨id, u, h, a, _, hidle, _, _, hexec⟩
    · rw [hexec]
    · rw [hexec, discard_eq]
      exact hidle.nextId
  absent hnone := by
    rcases removeApp_cases co ha name with ⟨_, hexec⟩ | ⟨id, _, _, _, hid, _⟩
    · exact hexec
    · rw [hnone] at hid
      cases hid
  tornDown id hid :=
    { nodup := ha.nodup_family id
      closed := by
        have hplaces : SamePlaces s (s.eraseApp name) := fun _ => rfl
        have hshuts := shuts_close co (ha.eraseApp name) hn id
        rw [hplaces.family_eq rfl] at hshuts
        refine ⟨_, hshuts, ?_⟩
        unfold removeApp
        rw [exec_bind, eval_get, exec_get, hid]
        rfl
      removed := removed_removeApp ha hid co }

end ServerM

/-! ## The new app -/

/-- The activity tells the actor something, or the log. -/
def Activity.Tells (actor : Actor) : Activity β → Prop
  | .logged _ _ => True
  | .sent outbox _ => actor.outbox? = some outbox
  | _ => False

/-- The server after a warning, if there is one, has been logged. -/
def Server.warn (s : Server σ β) : Option String → Server σ β
  | none => s
  | some text => s.record (.logged .warn text)

/-- A root for a module has begun with the state that was saved, and its code has been run without
failure.  Its number has not been given away before. -/
structure Server.Begun (co : Collaborators β) (m : Module) (actor : Actor) (id : HostId)
    (s t : Server σ β) : Prop where
  fresh : id = s.nextId
  absent : s.host? id = none
  ran : ∃ u value, (u = s ∨ ∃ a, u = s.record a) ∧
    let begun := u.beginRoot (some m) false (u.savedState (some m)) (some actor)
    (runModule co (runner co) { host := id, actor } m).eval begun = .ok value ∧
      t = (runModule co (runner co) { host := id, actor } m).exec begun ∧ CodeSteps id begun t
  root : ∃ x, t.host? id = some x ∧ x.owner = none ∧ x.module = some m

/-- What loading an app comes to: its answer and the server that it leaves behind.  If the module is
not found nothing is done but to report it.  Otherwise the name is freed first.  A module whose code
fails leaves nothing behind, and else the new root is entered under the name. -/
inductive Server.Loading (co : Collaborators β) (name : String) (actor : Actor) (s : Server σ β) :
    Except ScriptError HostId → Server σ β → Prop where
  | absent {warning : Option String} {new : List (Activity β)}
      (hfind : co.catalogue.find name false = { found := none, warning })
      (hnew : ∀ a ∈ new, a.Tells actor) :
      Loading co name actor s (.error (.loadFailure name .appNotFound))
        { s.warn warning with journal := new ++ (s.warn warning).journal }
  | failed {m : Module} {warning : Option String} {u t : Server σ β} {e : ScriptError}
      (hfind : co.catalogue.find name false = { found := some m, warning })
      (hfreed : Freed co name (s.warn warning) u)
      (hfails : (createApplication co (some m) false actor).eval u = .error e)
      (hundone : Undone u t) (happ : ∀ n, t.app? n = if name = n then none else s.app? n) :
      Loading co name actor s (.error e) t
  | loaded {m : Module} {warning : Option String} {u t : Server σ β}
      (hfind : co.catalogue.find name false = { found := some m, warning })
      (hfreed : Freed co name (s.warn warning) u) (hbegun : Begun co m actor s.nextId u t)
      (happ : ∀ n, (t.insertApp name s.nextId).app? n =
        if name = n then some s.nextId else s.app? n) :
      Loading co name actor s (.ok s.nextId)
        ((t.insertApp name s.nextId).record (.logged .info s!"Loaded app {name}"))

namespace ServerM

omit [StateStore σ] in
/-- A failure to load is told the actor, or the log. -/
theorem exec_loadFailure_tells (co : Collaborators β) (actor : Actor) (name : String)
    (reason : LoadReason) (s : Server σ β) :
    ∃ new, (∀ a ∈ new, a.Tells actor) ∧
      (loadFailure co actor name reason).exec s = { s with journal := new ++ s.journal } := by
  unfold loadFailure reportText deliver Report.deliver
  dsimp only
  rw [exec_bind]
  cases ho : actor.outbox? with
  | none => exact ⟨[.logged .error _], List.forall_mem_singleton.2 trivial, rfl⟩
  | some outbox =>
      dsimp only
      cases co.isOpen outbox with
      | true => exact ⟨[.sent outbox _], List.forall_mem_singleton.2 ho, rfl⟩
      | false => exact ⟨[], fun _ h => absurd h List.not_mem_nil, rfl⟩

/-- A root that has been made for a module has begun, and its code has been run. -/
theorem begun_createApplication (ha : Arena suits s) {m : Module} {actor : Actor}
    (hok : (createApplication co (some m) false actor).eval s = .ok id) :
    Begun co m actor id s ((createApplication co (some m) false actor).exec s) := by
  obtain ⟨u, hu, ⟨⟨e, he⟩, _⟩ | ⟨heval, hexec⟩⟩ := createApplication_cases co s m false actor
  · rw [hok] at he
    cases he
  have hsu : Idles suits s u := (Idles.refl s).noted hu
  have hnext := hsu.nextId
  have hau := Steps.arena ha hsu.steps
  rw [hok] at heval
  obtain ⟨rfl, value, hvalue, hran⟩ := start_of_ok heval.symm
  have hkeyed := (hau.beginRoot (some m) false (u.savedState (some m)) (some actor)).keyed
  have hact : ActsUnder s.nextId
      (runModule co (runner co) { host := s.nextId, actor } m : ServerM σ β _) := by
    apply actsUnder_runModule (runsUnder_runner co)
    rfl
  have hcode := hact hkeyed
  have hnew : (u.beginRoot (some m) false (u.savedState (some m)) (some actor)).host? s.nextId =
      some (u.newRoot (some m) false (u.savedState (some m)) (some actor)) := by
    rw [host?_beginRoot, if_pos hnext]
  obtain ⟨x, hx, hplace⟩ := hcode.frame.samePlaces.symm.host? hnew
  rw [hexec, hran]
  exact
    { fresh := rfl
      absent := ha.host?_nextId
      ran := ⟨u, value, Or.imp_right (fun ⟨_, htext⟩ => ⟨_, htext⟩) hu, hvalue, rfl, hcode⟩
      root := ⟨x, hx, (Host.owner_of_place_eq hplace).symm, (Host.module_of_place_eq hplace).symm⟩ }

omit [StateStore σ] in
theorem exec_findModule (co : Collaborators β) (name : String) (allowLibrary : Bool)
    (s : Server σ β) : (findModule co name allowLibrary).exec s =
      s.warn (co.catalogue.find name allowLibrary).warning := by
  unfold findModule
  dsimp only
  rw [exec_bind]
  cases (co.catalogue.find name allowLibrary).warning <;> rfl

/-- Loading an app has one of three outcomes. -/
theorem loading_addApp (co : Collaborators β) (ha : Arena suits s) (hn : s.Named) (name : String)
    (actor : Actor) :
    Loading co (Text.lowercase name) actor s ((addApp co name actor).eval s)
      ((addApp co name actor).exec s) := by
  have hfound : (findModule co (Text.lowercase name) false : ServerM σ β _).eval s =
      (co.catalogue.find (Text.lowercase name) false).found := rfl
  unfold addApp
  dsimp only
  rw [eval_bind, exec_bind, hfound, exec_findModule]
  generalize Text.lowercase name = name
  obtain ⟨⟨found, warning⟩, hfind⟩ :
      ∃ finding, co.catalogue.find name false = finding := ⟨_, rfl⟩
  rw [hfind]
  -- the warning changes nothing that is spoken of
  obtain ⟨haw, hnw, happw, hnextw⟩ : Arena suits (s.warn warning) ∧ (s.warn warning).Named ∧
      (∀ n, (s.warn warning).app? n = s.app? n) ∧ (s.warn warning).nextId = s.nextId := by
    cases warning with
    | none => exact ⟨ha, hn, fun _ => rfl, rfl⟩
    | some text => exact ⟨(step_record s _).arena ha, hn, fun _ => rfl, rfl⟩
  cases found with
  | none =>
      obtain ⟨new, hnew, hexec⟩ :=
        exec_loadFailure_tells co actor name .appNotFound (s.warn warning)
      dsimp only
      rw [hexec]
      exact .absent hfind hnew
  | some m =>
      dsimp only
      rw [eval_bind, exec_bind, eval_bind, exec_bind]
      have hfreed := freed_removeApp co haw hnw name
      have hremove : Moves suits True _ _ := walks_removeApp co name haw
      have hau := Moves.arena haw hremove
      generalize (removeApp co name).exec (s.warn warning) = u at hfreed hau ⊢
      have happ : ∀ n, u.app? n = if name = n then none else s.app? n := by
        intro n
        rw [hfreed.app?, happw]
      cases hmade : (createApplication co (some m) false actor).eval u with
      | error e =>
          have hundone := hau.undone_createApplication hmade
          have happs : ∀ n, ((createApplication co (some m) false actor).exec u).app? n =
              u.app? n := by
            intro n
            rw [app?, hundone.apps, app?]
          exact .failed hfind hfreed hmade hundone fun n => (happs n).trans (happ n)
      | ok id =>
          have hbegun := begun_createApplication hau hmade
          obtain rfl : id = s.nextId := hbegun.fresh.trans (hfreed.nextId.trans hnextw)
          refine .loaded hfind hfreed hbegun fun n => ?_
          obtain ⟨v, _, hv, _, _, hcode⟩ := hbegun.ran
          have happs : ((createApplication co (some m) false actor).exec u).app? n = u.app? n := by
            rw [app?, hcode.frame.apps]
            rcases hv with rfl | ⟨a, rfl⟩ <;> rfl
          rw [app?_insertApp, happs, happ]
          split <;> rfl

end ServerM

/-! ## What is spared when an app is loaded -/

/-- When an app is loaded, the families of all roots but the one that had the name are spared. -/
theorem Server.Loading.spares {actor : Actor} {answer : Except ScriptError HostId}
    (h : Loading co name actor s answer t) (ha : Arena suits s) {r : HostId} (hr : s.IsRoot r)
    (hne : s.app? name ≠ some r) : Spares (s.family r) s t := by
  have hwarn : ∀ warning, Spares (s.family r) s (s.warn warning) := by
    rintro (_ | text)
    · exact .refl _ s
    · exact .of_eq rfl rfl
  -- freeing the name concerns the family of the root that had it
  have hfree : ∀ {warning u}, Freed co name (s.warn warning) u → Spares (s.family r) s u := by
    intro warning u hfreed
    refine (hwarn warning).trans ?_
    obtain ⟨haw, hrw, happ, hfamily⟩ : Arena suits (s.warn warning) ∧ (s.warn warning).IsRoot r ∧
        (s.warn warning).app? name = s.app? name ∧ (s.warn warning).family r = s.family r := by
      cases warning with
      | none => exact ⟨ha, hr, rfl, rfl⟩
      | some text =>
          have hplaces : SamePlaces s (s.record (.logged .warn text)) := fun _ => rfl
          exact ⟨(step_record s _).arena ha, hr, rfl, hplaces.family_eq rfl r⟩
    cases hid : s.app? name with
    | none =>
        rw [hfreed.absent (happ.trans hid)]
        exact .refl _ _
    | some id =>
        have hremoved := (hfreed.tornDown id (happ.trans hid)).removed
        obtain ⟨x, _, hx, ho, _⟩ := haw.app (happ.trans hid)
        have hne' : r ≠ id := fun heq => hne (by rw [hid, heq])
        rw [← hfamily]
        exact hremoved.spares haw ⟨x, hx, ho⟩ hrw hne'
  have hnew : s.nextId ∉ s.family r := by
    intro hmem
    have hlive := isSome_of_mem_familyTo hmem
    rw [ha.host?_nextId] at hlive
    cases hlive
  cases h with
  | @absent warning new hfind hnew => exact (hwarn warning).trans (.of_eq rfl rfl)
  | failed hfind hfreed hfails hundone happ =>
      exact (hfree hfreed).trans (.of_eq hundone.hosts hundone.dispatch)
  | @loaded m warning u w hfind hfreed hbegun happ =>
      obtain ⟨v, _, hv, _, _, hcode⟩ := hbegun.ran
      have hnext : s.nextId = v.nextId := by
        rw [hbegun.fresh]
        rcases hv with rfl | ⟨a, rfl⟩ <;> rfl
      have huv : Spares (s.family r) u v := by
        rcases hv with rfl | ⟨a, rfl⟩
        · exact .refl _ _
        · exact .of_eq rfl rfl
      rw [hnext] at hnew hcode
      have hvw : Spares (s.family r) v w := spares_beginRoot hcode hnew
      exact (((hfree hfreed).trans huv).trans hvw).trans (.of_eq rfl rfl)

/-- When an app is loaded, all roots but the one that had the name keep theirs. -/
theorem Server.Loading.app?_iff {actor : Actor} {answer : Except ScriptError HostId}
    (h : Loading co name actor s answer t) (ha : Arena suits s) {r : HostId} (hr : s.IsRoot r)
    (hne : s.app? name ≠ some r) (n : String) : t.app? n = some r ↔ s.app? n = some r := by
  have hnext : s.nextId ≠ r := by
    obtain ⟨x, hx, _⟩ := hr
    exact Nat.ne_of_gt (ha.lt_nextId hx)
  cases h with
  | @absent warning new hfind hnew => cases warning <;> exact Iff.rfl
  | failed hfind hfreed hfails hundone happ =>
      rw [happ]
      split
      · rename_i hn
        rw [← hn]
        exact ⟨fun h => (Option.some_ne_none r h.symm).elim, fun h => absurd h hne⟩
      · exact Iff.rfl
  | loaded hfind hfreed hbegun happ =>
      have hn := happ n
      refine Iff.trans (Iff.of_eq (congrArg (· = some r) hn)) ?_
      split
      · rename_i hn
        rw [← hn]
        exact ⟨fun h => absurd (Option.some.inj h) hnext, fun h => absurd h hne⟩
      · exact Iff.rfl

/-- The families of all roots that have none of some names are spared, and these roots keep their
names. -/
def Server.SparesOthers (names : List String) (s t : Server σ β) : Prop :=
  ∀ r, s.IsRoot r → (∀ n ∈ names, s.app? n ≠ some r) →
    Spares (s.family r) s t ∧ ∀ n, t.app? n = some r ↔ s.app? n = some r

namespace Server.SparesOthers

variable {names : List String}

omit [StateStore σ]

protected theorem refl (names : List String) (s : Server σ β) : SparesOthers names s s :=
  fun _ _ _ => ⟨.refl _ s, fun _ => Iff.rfl⟩

theorem record (h : SparesOthers names s t) (a : Activity β) : SparesOthers names s (t.record a) :=
  fun r hr hne => ⟨(h r hr hne).1.trans (.of_eq rfl rfl), (h r hr hne).2⟩

/-- First those are spared that do not have one name, and then those that have none of others. -/
theorem cons (h : SparesOthers [name] s t) (g : SparesOthers names t u) (ha : Arena suits s)
    (hat : Arena suits t) : SparesOthers (name :: names) s u := by
  intro r hr hne
  obtain ⟨hspares, happ⟩ := h r hr (List.forall_mem_singleton.2 (hne name List.mem_cons_self))
  have hne' : ∀ n ∈ names, t.app? n ≠ some r := by
    intro n hn
    rw [Ne, happ]
    exact hne n (List.mem_cons_of_mem name hn)
  obtain ⟨hspares', happ'⟩ := g r (hspares.isRoot ha hr) hne'
  refine ⟨hspares.trans (hspares'.congr fun k => ?_), fun n => (happ' n).trans (happ n)⟩
  exact (hspares.mem_family_iff ha hat hr k).symm

end Server.SparesOthers

theorem Server.Loading.sparesOthers {actor : Actor} {answer : Except ScriptError HostId}
    (h : Loading co name actor s answer t) (ha : Arena suits s) : SparesOthers [name] s t := by
  intro r hr hne
  have hname := hne name (List.mem_singleton_self name)
  exact ⟨h.spares ha hr hname, h.app?_iff ha hr hname⟩

/-! ## Loading apps one after the other -/

/-- Apps are loaded one after the other.  Those that load are counted, and the others are noted. -/
inductive Server.LoadsAll (co : Collaborators β) (doing : String) (actor : Actor) :
    List String → Nat → Server σ β → Server σ β → Prop where
  | nil (s : Server σ β) : LoadsAll co doing actor [] 0 s s
  | ok {name : String} {names : List String} {id : HostId} {n : Nat} {s t u : Server σ β}
      (hload : Loading co name actor s (.ok id) t) (hrest : LoadsAll co doing actor names n t u) :
      LoadsAll co doing actor (name :: names) (n + 1) s u
  | error {name : String} {names : List String} {e : ScriptError} {n : Nat} {s t u : Server σ β}
      (hload : Loading co name actor s (.error e) t)
      (hrest : LoadsAll co doing actor names n
        (t.record (.logged .warn s!"Failed to {doing} app {name}: {e.message}")) u) :
      LoadsAll co doing actor (name :: names) n s u

/-- Loading an app concerns no other name. -/
theorem Server.Loading.app?_of_ne {actor : Actor} {answer : Except ScriptError HostId}
    (h : Loading co name actor s answer t) {n : String} (hne : name ≠ n) :
    t.app? n = s.app? n := by
  cases h with
  | @absent warning new hfind hnew => cases warning <;> rfl
  | failed hfind hfreed hfails hundone happ => rw [happ, if_neg hne]
  | loaded hfind hfreed hbegun happ => exact (happ n).trans (if_neg hne)

theorem Server.LoadsAll.app?_of_not_mem {doing : String} {actor : Actor} {names : List String}
    {count : Nat} (h : LoadsAll co doing actor names count s t) {n : String} (hn : n ∉ names) :
    t.app? n = s.app? n := by
  induction h with
  | nil s => rfl
  | ok hload hrest ih =>
      exact (ih (List.not_mem_of_not_mem_cons hn)).trans
        (hload.app?_of_ne (List.ne_of_not_mem_cons hn).symm)
  | error hload hrest ih =>
      exact (ih (List.not_mem_of_not_mem_cons hn)).trans
        (hload.app?_of_ne (List.ne_of_not_mem_cons hn).symm)

theorem Server.LoadsAll.count_le {doing : String} {actor : Actor} {names : List String}
    {count : Nat} (h : LoadsAll co doing actor names count s t) : count ≤ names.length := by
  induction h with
  | nil s => exact Nat.le_refl 0
  | ok _ _ ih => exact Nat.succ_le_succ ih
  | error _ _ ih => exact Nat.le_succ_of_le ih

/-- If as many apps have loaded as there are names, an app is loaded under each name. -/
theorem Server.LoadsAll.app?_of_length {doing : String} {actor : Actor} {names : List String}
    {count : Nat} (h : LoadsAll co doing actor names count s t) (hcount : count = names.length)
    (hnodup : names.Nodup) : ∀ n ∈ names, ∃ id, t.app? n = some id := by
  induction h with
  | nil s => exact fun _ hn => absurd hn List.not_mem_nil
  | @ok name names id count s t u hload hrest ih =>
      obtain ⟨hout, hnodup⟩ := List.nodup_cons.1 hnodup
      refine List.forall_mem_cons.2 ⟨?_, ih (Nat.succ.inj hcount) hnodup⟩
      rw [hrest.app?_of_not_mem hout]
      cases hload with
      | loaded hfind hfreed hbegun happ => exact ⟨_, (happ name).trans (if_pos rfl)⟩
  | error hload hrest ih =>
      have hle := hrest.count_le
      rw [hcount, List.length_cons] at hle
      omega

/-- Loading apps by names in small letters: one app after the other is loaded, and the roots that
have none of the names are spared. -/
theorem ServerM.loadsAll_addApps (co : Collaborators β) (doing : String) (actor : Actor)
    {names : List String} (hnames : ∀ n ∈ names, Text.lowercase n = n)
    (hfollows : co.catalogue.Follows suits) (ha : Arena suits s) (hn : s.Named) :
    LoadsAll co doing actor names ((addApps co doing actor names).eval s) s
        ((addApps co doing actor names).exec s) ∧
      SparesOthers names s ((addApps co doing actor names).exec s) := by
  induction names generalizing s with
  | nil => exact ⟨.nil s, .refl _ s⟩
  | cons name rest ih =>
      have hload := loading_addApp co ha hn name actor
      rw [hnames name List.mem_cons_self] at hload
      have hspares := hload.sparesOthers ha
      have hmoves : Moves suits True s _ := walks_addApp hfollows name actor ha
      have hat := Moves.arena ha hmoves
      have hnt : ((addApp co name actor).exec s).Named :=
        Steps.named ha hn (Moves.steps ha hmoves)
      have hrest : ∀ n ∈ rest, Text.lowercase n = n := fun n h =>
        hnames n (List.mem_cons_of_mem name h)
      unfold addApps
      rw [eval_bind, exec_bind]
      generalize (addApp co name actor).exec s = t at hload hspares hat hnt ⊢
      cases hmade : (addApp co name actor).eval s with
      | ok id =>
          rw [hmade] at hload
          obtain ⟨hall, hothers⟩ := ih hrest hat hnt
          refine ⟨?_, hspares.cons hothers ha hat⟩
          dsimp only
          rw [eval_bind, eval_pure, Nat.add_comm]
          exact .ok hload hall
      | error e =>
          rw [hmade] at hload
          let note : Activity β := .logged .warn s!"Failed to {doing} app {name}: {e.message}"
          have hat' : Arena suits (t.record note) := (step_record t note).arena hat
          obtain ⟨hall, hothers⟩ := ih hrest hat' hnt
          exact ⟨.error hload hall, (hspares.record note).cons hothers ha hat'⟩

/-! ## Loading all apps anew -/

/-- The names of the apps whose roots do not ask to stay. -/
def Server.unpinned (s : Server σ β) : List String :=
  s.apps.toList.filterMap fun (name, id) =>
    if (s.host? id).any (!·.persistenceRequired) then some name else none

omit [StateStore σ] in
theorem Server.mem_unpinned : name ∈ s.unpinned ↔
    ∃ id h, s.app? name = some id ∧ s.host? id = some h ∧ h.persistenceRequired = false := by
  unfold unpinned
  rw [List.mem_filterMap]
  constructor
  · rintro ⟨⟨n, id⟩, hmem, hname⟩
    dsimp only at hname
    split at hname
    · rename_i hany
      obtain rfl : n = name := Option.some.inj hname
      obtain ⟨h, hh, hp⟩ := (Option.any_eq_true _ _).1 hany
      exact ⟨id, h, Std.ExtTreeMap.mem_toList_iff_getElem?_eq_some.1 hmem, hh, by simpa using hp⟩
    · cases hname
  · rintro ⟨id, h, hid, hh, hp⟩
    refine ⟨(name, id), Std.ExtTreeMap.mem_toList_iff_getElem?_eq_some.2 hid, ?_⟩
    dsimp only
    rw [hh, Option.any_some, hp]
    rfl

omit [StateStore σ] in
/-- The names come in their order. -/
theorem Server.pairwise_unpinned (s : Server σ β) : s.unpinned.Pairwise (· < ·) := by
  unfold unpinned
  rw [List.pairwise_filterMap]
  have hname : ∀ (x : String × HostId) (n : String),
      (if (s.host? x.2).any (!·.persistenceRequired) then some x.1 else none) = some n →
        x.1 = n := by
    intro x n hn
    split at hn
    · exact Option.some.inj hn
    · cases hn
  apply s.apps.ordered_keys_toList.imp
  intro a b hab n hn l hl
  rw [← hname a n hn, ← hname b l hl]
  exact compareOfLessAndEq_eq_lt.1 hab

/-- What loading all apps anew makes of a server.  The apps whose roots do not ask to stay are
loaded one after the other, each once, and those that load are counted.  The apps whose roots ask to
stay have the roots that they had, with the same hosts below them and the same bindings, and so have
all roots that are no apps. -/
structure Server.Reloads (co : Collaborators β) (actor : Actor) (count : Nat)
    (s t : Server σ β) : Prop where
  mem_unpinned : ∀ name, name ∈ s.unpinned ↔
    ∃ id h, s.app? name = some id ∧ s.host? id = some h ∧ h.persistenceRequired = false
  pairwise_unpinned : s.unpinned.Pairwise (· < ·)
  loads : ∃ u, LoadsAll co "reload" actor s.unpinned count s u ∧
    t = if 0 < count then u.record (.logged .info s!"Reloaded {count} app(s)") else u
  pinned : ∀ name id h, s.app? name = some id → s.host? id = some h →
    h.persistenceRequired = true →
      t.app? name = some id ∧ (∀ k, k ∈ t.family id ↔ k ∈ s.family id) ∧
        Spares (s.family id) s t
  others : SparesOthers s.unpinned s t

/-- Loading all apps anew loads those whose names are in small letters, and that is all of them. -/
theorem ServerM.reloads_reloadApps (co : Collaborators β) (actor : Actor)
    (hsmall : ∀ name m, suits name m → Text.lowercase name = name)
    (hfollows : co.catalogue.Follows suits) (ha : Arena suits s) (hn : s.Named) :
    Reloads co actor ((reloadApps co actor).eval s) s ((reloadApps co actor).exec s) := by
  have hnames : ∀ n ∈ s.unpinned, Text.lowercase n = n := by
    intro n hmem
    obtain ⟨id, _, hid, _⟩ := Server.mem_unpinned.1 hmem
    obtain ⟨_, m, _, _, _, hsuits⟩ := ha.app hid
    exact hsmall n m hsuits
  obtain ⟨hall, hothers⟩ := loadsAll_addApps co "reload" actor hnames hfollows ha hn
  have heval : (reloadApps co actor).eval s = (addApps co "reload" actor s.unpinned).eval s := by
    unfold reloadApps
    rw [eval_bind, eval_get, exec_get, eval_bind, eval_ite]
    split <;> rfl
  have hexec : (reloadApps co actor).exec s =
      let count := (addApps co "reload" actor s.unpinned).eval s
      let t := (addApps co "reload" actor s.unpinned).exec s
      if 0 < count then t.record (.logged .info s!"Reloaded {count} app(s)") else t := by
    unfold reloadApps
    rw [exec_bind, eval_get, exec_get, exec_bind, exec_ite]
    rfl
  have hothers' : SparesOthers s.unpinned s ((reloadApps co actor).exec s) := by
    rw [hexec]
    dsimp only
    split
    · exact hothers.record _
    · exact hothers
  have hmoves : Moves suits True s _ := walks_reloadApps hfollows actor ha
  have hat := Moves.arena ha hmoves
  rw [heval]
  exact
    { mem_unpinned := fun _ => Server.mem_unpinned
      pairwise_unpinned := s.pairwise_unpinned
      loads := ⟨_, hall, hexec⟩
      pinned := by
        intro name id h hid hh hp
        obtain ⟨x, _, hx, ho, _⟩ := ha.app hid
        have hroot : s.IsRoot id := ⟨x, hx, ho⟩
        have hout : ∀ n ∈ s.unpinned, s.app? n ≠ some id := by
          intro n hmem hn
          obtain ⟨id', h', hid', hh', hp'⟩ := Server.mem_unpinned.1 hmem
          obtain rfl : id' = id := Option.some.inj (hid'.symm.trans hn)
          obtain rfl : h' = h := Option.some.inj (hh'.symm.trans hh)
          rw [hp] at hp'
          cases hp'
        obtain ⟨hspares, happ⟩ := hothers' id hroot hout
        exact ⟨(happ name).2 hid, hspares.mem_family_iff ha hat hroot, hspares⟩
      others := hothers' }

/-! ## Reachable servers -/

/-- On every reachable server, loading an app has one of three outcomes and concerns no other tree,
and loading all apps anew does the same for the apps that do not ask to stay, and nothing to the
others. -/
theorem replaced_of_reachable {allowed : Catalogue → Prop} (hs : Reachable allowed s)
    (co : Collaborators β) (actor : Actor) :
    (∀ name, Loading co (Text.lowercase name) actor s ((addApp co name actor).eval s)
          ((addApp co name actor).exec s) ∧
        SparesOthers [Text.lowercase name] s ((addApp co name actor).exec s)) ∧
      Reloads co actor ((reloadApps co actor).eval s) s ((reloadApps co actor).exec s) := by
  -- all apps have names in small letters, whatever the catalogues are
  let suits : String → Module → Prop := fun name _ => Text.lowercase name = name
  have hfollows : ∀ c : Catalogue, c.Follows suits := fun _ name _ _ =>
    Text.lowercase_lowercase name
  obtain ⟨ha, hn⟩ := hs.induction (P := Server.Named) (fun c _ => hfollows c) named_new
    fun _ _ ha hs h => h.named ha hs
  refine ⟨fun name => ?_, reloads_reloadApps co actor (fun _ _ h => h) (hfollows _) ha hn⟩
  have hload := loading_addApp co ha hn name actor
  exact ⟨hload, hload.sparesOthers ha⟩

/-- A shop that gives a state when it is closed, and a stand that asks to stay. -/
def bazaarEvaluator : Evaluator Unit where
  runModule _ m :=
    let hook := if m.name = "stand" then HookKind.configName else HookKind.closeName
    .ask (.define { name := hook, module := some m.name, parameters := [], body := () })
      fun _ => .done (.ok .null)
  callFunction _ f _ :=
    if f.name = HookKind.configName then .done (.ok (.map [("stay_loaded", .bool true)]))
    else .ask (.writeState (some "c".toUTF8)) fun _ => .done (.ok .null)
  accepts f arguments := f.acceptsArity arguments
  produce _ _ := .null

/-- The catalogue with the shop and the stand. -/
def bazaarCatalogue : Catalogue :=
  (MemoryModules.ofList [{ name := "shop", code := some "" },
    { name := "stand", code := some "" }]).catalogue

/-- The shop is loaded anew, also under a name in capitals, and the stand stays with its user. -/
theorem replaced_bazaar :
    let co := Collaborators.plain bazaarEvaluator bazaarCatalogue
    let s : Server MemoryStore Unit := Operation.runAll co
      [.addApp "shop" .server, .addApp "Stand" .server,
        .duplicateForUser 2 "ann" (.player "ann" 1)] (.new ∅ {})
    let reload : ServerM MemoryStore Unit Nat := reloadApps co .server
    s.app? "shop" = some 1 ∧ s.app? "stand" = some 2 ∧ s.family 2 = [3, 2] ∧
      s.unpinned = ["shop"] ∧ reload.eval s = 1 ∧ (reload.exec s).app? "shop" = some 4 ∧
      Loading co (Text.lowercase "SHOP") .server s ((addApp co "SHOP" .server).eval s)
        ((addApp co "SHOP" .server).exec s) ∧
      Reloads co .server (reload.eval s) s (reload.exec s) := by
  intro co s reload
  have hs : Reachable (fun _ => True) s := .runAll trivial _ (.new _ _)
  obtain ⟨hload, hreload⟩ := replaced_of_reachable hs co .server
  exact ⟨by decide +kernel, by decide +kernel, by decide +kernel, by decide +kernel,
    by decide +kernel, by decide +kernel, (hload "SHOP").1, hreload⟩

end

end ScriptHost
