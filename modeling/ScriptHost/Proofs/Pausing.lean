import Mathlib
import ScriptHost.Proofs.Calls
import ScriptHost.Proofs.Operations
/-!
# Servers that are paused

While execution is halted no operation has a function called.  The ways into a function refuse
before they look at anything else, so that requests to call and to fire events are as if they had
never been made.  The windows of the roots move on with every tick all the same.

## Main statements

* `ServerM.Heeds`, `Operation.heeds`: no operation has a function called while execution is halted.
* `Operation.IsGated`, `Leads.eq_of_isGated`: requests that are as if they had never been made.
* `Server.Ticked`, `Server.ticked_forM`: what the second half of a tick makes of a server.
* `Server.Halted`, `paused_of_reachable`: what operations come to on a server that is paused.
-/

namespace ScriptHost

variable {σ β α γ : Type} [StateStore σ] {suits : String → Module → Prop}

open Server

/-! ## Operations look first whether execution is halted -/

namespace ServerM

/-- The operation has no function called while execution is halted. -/
abbrev Heeds (m : ServerM σ β α) : Prop := DoesOnly (fun _ => True) m

variable {co : Collaborators β} {id : HostId}

theorem heeds_runner : RunsOnly (fun _ => True) (runner co : Runner σ β) :=
  runsOnly_runner (fun _ _ => trivial) co

theorem heeds_callHook (frame : Frame) (f : StoredFunction β) (values : List Value) :
    Heeds (callHook co frame f values : ServerM σ β _) :=
  doesOnly_callHookWith heeds_runner frame trivial values

omit [StateStore σ] in
theorem heeds_reportCommand (result : Except ScriptError Value) :
    Heeds (reportCommand co id result : ServerM σ β Value) := by
  unfold reportCommand
  cases result with
  | ok value => exact doesOnly_pure _
  | error e => exact (doesOnly_reportFailure id _ e).bind fun _ => doesOnly_pure _

/-! ### Teardown -/

/-- Sweeping up after a host removes markers, and calls nothing. -/
theorem doesOnly_sweep {P : Deed β → Prop} (hP : ∀ tag, P (.sweep tag)) (id : HostId) :
    DoesOnly P (sweep id : ServerM σ β Unit) := by
  unfold sweep
  apply doesOnly_host?_bind
  intro s
  cases s.host? id with
  | none => exact .refl s
  | some h =>
      have hsweep : DoesOnly P (do
          record (.swept (Server.markerTag h.name?))
          flushPending id : ServerM σ β Unit) :=
        (doesOnly_record_swept (hP _)).bind fun _ => doesOnly_flushPending id
      exact DoesOnly.ite hsweep (doesOnly_pure _) s

theorem heeds_sweep (id : HostId) : Heeds (sweep id : ServerM σ β Unit) :=
  doesOnly_sweep (fun _ => trivial) id

theorem heeds_closeOne (id : HostId) : Heeds (closeOne co id : ServerM σ β Unit) := by
  unfold closeOne
  apply doesOnly_host?_bind
  intro s
  cases (s.host? id).bind (·.function? HookKind.closeName) with
  | none => exact heeds_sweep id s
  | some hook =>
      refine doesOnly_get_bind (fun s => ?_) s
      exact ((heeds_callHook _ hook []).bind fun _ => heeds_sweep id) s

theorem heeds_close (id : HostId) : Heeds (close co id : ServerM σ β Unit) :=
  doesOnly_get_bind fun s => doesOnly_listForM (s.family id) heeds_closeOne s

omit [StateStore σ] in
/-- Hosts that are discarded are discarded in silence. -/
theorem heeds_discard (id : HostId) : Heeds (discard id : ServerM σ β Unit) := by
  intro s
  cases hh : s.host? id with
  | none =>
      rw [exec_discard_of_host?_eq_none hh]
      exact .refl s
  | some h =>
      rw [exec_discard hh, discard_eq]
      exact .of_eq rfl rfl

/-! ### New hosts -/

theorem heeds_start (id : HostId) (module : Module) (actor : Actor) :
    Heeds (start co id module actor : ServerM σ β _) := by
  apply (doesOnly_runModule heeds_runner _ module).bind
  intro result
  cases result with
  | ok value => exact doesOnly_pure _
  | error cause =>
      exact (doesOnly_reportFailure id _ _).bind fun _ =>
        (heeds_discard id).bind fun _ => doesOnly_pure _

omit [StateStore σ] in
theorem heeds_loadFailure (actor : Actor) (module : String) (reason : LoadReason) :
    Heeds (loadFailure co actor module reason : ServerM σ β _) :=
  (doesOnly_deliver actor _).bind fun _ => doesOnly_pure _

omit [StateStore σ] in
theorem heeds_freshId : Heeds (freshId : ServerM σ β HostId) := fun _ => .of_eq rfl rfl

theorem heeds_loadState (module : Module) :
    Heeds (loadState module : ServerM σ β (Option Blob)) := by
  have hread : Heeds (readBlob (.globalState module.name) : ServerM σ β _) := fun s => .refl s
  apply hread.bind
  intro result
  cases result with
  | ok state => exact doesOnly_pure _
  | error e => exact (doesOnly_log _ _).bind fun _ => doesOnly_pure _

theorem heeds_createApplication (module : Option Module) (perUser : Bool) (actor : Actor) :
    Heeds (createApplication co module perUser actor : ServerM σ β _) := by
  apply heeds_freshId.bind
  intro id
  cases module with
  | none => exact (doesOnly_insertHost _).bind fun _ => doesOnly_pure _
  | some m =>
      apply (heeds_loadState m).bind
      intro state
      apply DoesOnly.ite
      · exact heeds_loadFailure actor m.name .codeNotFound
      · exact (doesOnly_remember _).bind fun _ =>
          (doesOnly_insertHost _).bind fun _ => heeds_start id m actor

theorem heeds_duplicateForUser (root : HostId) (user : String) (actor : Actor) :
    Heeds (duplicateForUser co root user actor : ServerM σ β _) := by
  unfold duplicateForUser
  apply doesOnly_host?_bind
  intro s
  cases s.host? root with
  | none => exact .refl s
  | some h =>
      dsimp only
      cases h.users[user]? with
      | some id => exact .refl s
      | none =>
          refine (heeds_freshId.bind fun id => (doesOnly_insertHost _).bind fun _ =>
            (doesOnly_modifyHost root _).bind fun _ => ?_) s
          cases h.module with
          | none => exact doesOnly_pure _
          | some module => exact heeds_start id module actor

/-! ### The host that serves an actor -/

omit [StateStore σ] in
theorem heeds_serve (actor : Actor) (id : HostId) :
    Heeds (serve actor id : ServerM σ β HostId) :=
  (doesOnly_modifyHost id _).bind fun _ => doesOnly_pure _

theorem heeds_duplicateForUser_serve (root : HostId) (user : String) (actor : Actor) :
    Heeds (do
      match ← duplicateForUser co root user actor with
      | .error e => return .error e
      | .ok id => return .ok (some (← serve actor id)) :
        ServerM σ β (Except ScriptError (Option HostId))) := by
  apply (heeds_duplicateForUser root user actor).bind
  intro result
  cases result with
  | error e => exact doesOnly_pure _
  | ok id => exact (heeds_serve actor id).bind fun _ => doesOnly_pure _

theorem heeds_retrieveForExecution (root : HostId) (actor : Actor) :
    Heeds (retrieveForExecution co root actor : ServerM σ β _) := by
  unfold retrieveForExecution
  apply doesOnly_host?_bind
  intro s
  cases s.host? root with
  | none => exact .refl s
  | some h =>
      dsimp only
      split
      · cases actor.user? with
        | none => exact .refl s
        | some user => exact heeds_duplicateForUser_serve root user actor s
      · exact ((heeds_serve actor root).bind fun _ => doesOnly_pure _) s

theorem heeds_retrieveForTarget (root : HostId) (target : Option Actor) :
    Heeds (retrieveForTarget co root target : ServerM σ β _) := by
  unfold retrieveForTarget
  apply doesOnly_host?_bind
  intro s
  cases s.host? root with
  | none => exact .refl s
  | some h =>
      dsimp only
      cases target with
      | none =>
          dsimp only
          split
          · exact .refl s
          · exact ((heeds_serve co.world.serverActor root).bind fun _ => doesOnly_pure _) s
      | some actor =>
          dsimp only
          split
          · exact heeds_duplicateForUser_serve root _ actor s
          · exact .refl s

/-! ### Apps -/

theorem heeds_removeApp (name : String) : Heeds (removeApp co name : ServerM σ β Bool) := by
  unfold removeApp
  apply doesOnly_get_bind
  intro s
  cases s.app? name with
  | none => exact .refl s
  | some id =>
      have herase : Heeds (modify (·.eraseApp name) : ServerM σ β PUnit) :=
        doesOnly_modify fun _ => ⟨rfl, rfl⟩
      exact (herase.bind fun _ => (heeds_close id).bind fun _ => (heeds_discard id).bind fun _ =>
        (doesOnly_log _ _).bind fun _ => doesOnly_pure _) s

theorem heeds_addApp (name : String) (actor : Actor) :
    Heeds (addApp co name actor : ServerM σ β _) := by
  unfold addApp
  apply (doesOnly_findModule _ false).bind
  intro found
  cases found with
  | none => exact heeds_loadFailure actor _ .appNotFound
  | some module =>
      apply (heeds_removeApp _).bind
      intro _
      apply (heeds_createApplication (some module) false actor).bind
      intro result
      cases result with
      | error e => exact doesOnly_pure _
      | ok id =>
          have hinsert : Heeds (modify (·.insertApp (Text.lowercase name) id) :
              ServerM σ β PUnit) :=
            doesOnly_modify fun _ => ⟨rfl, rfl⟩
          exact hinsert.bind fun _ => (doesOnly_log _ _).bind fun _ => doesOnly_pure _

theorem heeds_addApps (doing : String) (actor : Actor) (names : List String) :
    Heeds (addApps co doing actor names : ServerM σ β Nat) := by
  induction names with
  | nil => exact doesOnly_pure _
  | cons name rest ih =>
      apply (heeds_addApp name actor).bind
      intro result
      cases result with
      | ok id => exact ih.bind fun _ => doesOnly_pure _
      | error e => exact (doesOnly_log _ _).bind fun _ => ih

theorem heeds_reloadApps (actor : Actor) : Heeds (reloadApps co actor : ServerM σ β Nat) := by
  unfold reloadApps
  apply doesOnly_get_bind
  intro s
  refine ((heeds_addApps _ actor _).bind fun count => ?_) s
  exact DoesOnly.ite (m := do log .info _; return count)
    ((doesOnly_log _ _).bind fun _ => doesOnly_pure _) (doesOnly_pure _)

theorem heeds_autoload : Heeds (autoload co : ServerM σ β Nat) :=
  doesOnly_get_bind fun s => heeds_addApps _ _ _ s

theorem heeds_shutdown : Heeds (shutdown co : ServerM σ β Unit) := by
  unfold shutdown
  apply doesOnly_get_bind
  intro s
  refine ((doesOnly_listForM s.apps.keys fun name =>
    (heeds_removeApp name).bind fun _ => doesOnly_pure _).bind fun _ => ?_) s
  apply doesOnly_get_bind
  intro s
  exact ((doesOnly_listForM _ fun id =>
    (heeds_close id).bind fun _ => heeds_discard id).bind fun _ => heeds_close HostId.unnamed) s

/-! ### Events and ticks -/

theorem heeds_notifyAll (arguments : List Value) (bindings : List EventBinding) :
    Heeds (notifyAll co arguments bindings : ServerM σ β Nat) := by
  have hnotify : ∀ binding, Heeds (notify co arguments binding : ServerM σ β Bool) := by
    intro binding
    unfold notify
    apply doesOnly_host?_bind
    intro s
    cases (s.host? binding.host).bind (·.function? binding.function) with
    | none => exact .refl s
    | some f =>
        refine doesOnly_get_bind (fun s => ?_) s
        exact ((heeds_callHook _ f arguments).bind fun _ => doesOnly_pure _) s
  induction bindings with
  | nil => exact doesOnly_pure _
  | cons binding rest ih => exact (hnotify binding).bind fun _ => ih.bind fun _ => doesOnly_pure _

theorem heeds_fireEvent (event : Event) (arguments : List Value) :
    Heeds (fireEvent co event arguments : ServerM σ β Nat) := by
  unfold fireEvent
  apply doesOnly_get_bind
  intro s
  cases s.isStopped with
  | true => exact .refl s
  | false => exact heeds_notifyAll arguments _ s

theorem heeds_tick : Heeds (tick co : ServerM σ β Unit) :=
  (heeds_fireEvent .tick []).bind fun _ =>
    doesOnly_get_bind fun s => doesOnly_listForM s.roots doesOnly_tickHost s

end ServerM

open ServerM

variable {co : Collaborators β} {id : HostId} {s t : Server σ β}

theorem Invocation.heeds (i : Invocation β) (co : Collaborators β) (id : HostId) :
    Heeds (i.run co id : ServerM σ β Reply) := by
  cases i with
  | call actor f values => exact (doesOnly_callWith heeds_runner actor trivial values).map _
  | callText actor name coords text =>
      exact (doesOnly_callTextWith heeds_runner (fun _ => trivial) actor name coords text).map _
  | callHook actor origin f values => exact (heeds_callHook _ f values).map _
  | command actor f values =>
      exact ((doesOnly_callWith heeds_runner actor trivial values).bind heeds_reportCommand).map _
  | commandText actor name coords text =>
      exact ((doesOnly_callTextWith heeds_runner (fun _ => trivial) actor name coords text).bind
        heeds_reportCommand).map _

/-- Every operation that does not itself halt or resume execution heeds a halt. -/
theorem Operation.heeds {op : Operation β} (hop : ∀ stop, op ≠ .setStopped stop)
    (co : Collaborators β) : Heeds (op.run co : ServerM σ β Unit) := by
  cases op with
  | setStopped stop => exact absurd rfl (hop stop)
  | invoke id i => exact (i.heeds co id).bind fun _ => doesOnly_pure _
  | define id f =>
      exact (doesOnly_defineWith heeds_runner (fun _ _ => trivial) f).bind fun _ => doesOnly_pure _
  | delete id module name => exact doesOnly_delete module name
  | addApp name actor => exact (heeds_addApp name actor).bind fun _ => doesOnly_pure _
  | removeApp name => exact (heeds_removeApp name).bind fun _ => doesOnly_pure _
  | createApplication module perUser actor =>
      exact (heeds_createApplication module perUser actor).bind fun _ => doesOnly_pure _
  | duplicateForUser root user actor =>
      exact (heeds_duplicateForUser root user actor).bind fun _ => doesOnly_pure _
  | retrieveForExecution root actor =>
      exact (heeds_retrieveForExecution root actor).bind fun _ => doesOnly_pure _
  | retrieveForTarget root target =>
      exact (heeds_retrieveForTarget root target).bind fun _ => doesOnly_pure _
  | close id => exact heeds_close id
  | reloadApps actor => exact (heeds_reloadApps actor).bind fun _ => doesOnly_pure _
  | autoload => exact heeds_autoload.bind fun _ => doesOnly_pure _
  | shutdown => exact heeds_shutdown
  | fireEvent event arguments =>
      exact (heeds_fireEvent event arguments).bind fun _ => doesOnly_pure _
  | tick => exact heeds_tick
  | tickHost id => exact doesOnly_tickHost id
  | reportFailure id intro error => exact doesOnly_reportFailure id intro error
  | resetSink id => exact doesOnly_modifyHost id _
  | writeGlobalState id blob => exact (doesOnly_writeGlobalState blob).bind fun _ => doesOnly_pure _
  | readTag id file shared => exact (doesOnly_readTag file shared).bind fun _ => doesOnly_pure _
  | writeTag id blob file shared =>
      exact (doesOnly_writeTag blob file shared).bind fun _ => doesOnly_pure _
  | appendLog id file shared typeName lines =>
      exact (doesOnly_appendLog file shared typeName lines).bind fun _ => doesOnly_pure _
  | readText id file shared => exact (doesOnly_readText file shared).bind fun _ => doesOnly_pure _
  | remove id file shared typeName =>
      exact (doesOnly_remove file shared typeName).bind fun _ => doesOnly_pure _

/-- No function is called on the way from one server to another. -/
def Server.Silent (s t : Server σ β) : Prop :=
  ∃ new, t.journal = new ++ s.journal ∧ ∀ a ∈ new, ∀ f, a.deed? ≠ some (.call f)

omit [StateStore σ] in
theorem Server.Silent.trans {u : Server σ β} (h : Silent s t) (g : Silent t u) : Silent s u := by
  obtain ⟨new, hnew, hnone⟩ := h
  obtain ⟨new', hnew', hnone'⟩ := g
  refine ⟨new' ++ new, ?_, fun a ha => ?_⟩
  · rw [hnew', hnew, List.append_assoc]
  · exact (List.mem_append.1 ha).elim (hnone' a) (hnone a)

omit [StateStore σ] in
theorem ServerM.isStopped_setStopped (stop : Bool) (s : Server σ β) :
    ((setStopped stop).exec s).isStopped = stop := by
  unfold setStopped
  rw [exec_bind, eval_get, exec_get]
  dsimp only
  split <;> rfl

/-- No operation has a function called while execution is halted. -/
theorem Operation.silent (op : Operation β) (co : Collaborators β) (hs : s.isStopped = true) :
    Silent s ((op.run co).exec s) := by
  by_cases hop : ∀ stop, op ≠ .setStopped stop
  · exact (op.heeds hop co s).not_call hs
  · obtain ⟨stop, hstop⟩ := not_forall.1 hop
    obtain rfl := not_not.1 hstop
    show Silent s ((ServerM.setStopped stop).exec s)
    unfold ServerM.setStopped
    rw [exec_bind, eval_get, exec_get]
    dsimp only
    split
    · exact ⟨[_], rfl, List.forall_mem_singleton.2 fun _ hf => nomatch hf⟩
    · exact ⟨[], rfl, fun _ ha => absurd ha List.not_mem_nil⟩

/-- Execution stays halted until it is resumed. -/
theorem Operation.isStopped_eq_true {op : Operation β} (hop : op ≠ .setStopped false)
    (co : Collaborators β) (hs : s.isStopped = true) : ((op.run co).exec s).isStopped = true := by
  by_cases hset : ∀ stop, op ≠ .setStopped stop
  · exact (op.heeds hset co s).isStopped.trans hs
  · obtain ⟨stop, hstop⟩ := not_forall.1 hset
    obtain rfl := not_not.1 hstop
    cases stop with
    | true => exact isStopped_setStopped true s
    | false => exact absurd rfl hop

/-- As long as execution is not resumed no function is called. -/
theorem Server.Leads.silent {allowed : Catalogue → Prop}
    (h : Leads allowed (· ≠ .setStopped false) s t) (hs : s.isStopped = true) :
    t.isStopped = true ∧ Silent s t := by
  induction h with
  | refl => exact ⟨hs, [], rfl, fun _ ha => absurd ha List.not_mem_nil⟩
  | tail _ hlast ih =>
      obtain ⟨co, op, _, hop, rfl⟩ := hlast
      obtain ⟨hstopped, hsilent⟩ := ih
      exact ⟨op.isStopped_eq_true hop co hstopped, hsilent.trans (op.silent co hstopped)⟩

/-! ## Requests that are refused -/

/-- The request is one to call a function or to fire an event. -/
def Operation.IsGated : Operation β → Prop
  | invoke _ (.call _ _ _) => True
  | invoke _ (.callText _ _ _ _) => True
  | invoke _ (.callHook _ _ _ _) => True
  | fireEvent _ _ => True
  | _ => False

/-- While execution is halted requests to call functions and to fire events do nothing at all. -/
theorem Operation.exec_eq_of_isGated (op : Operation β) (hop : op.IsGated) (co : Collaborators β)
    (hs : s.isStopped = true) : (op.run co).exec s = s := by
  cases op with
  | invoke id i =>
      cases i with
      | call actor f values =>
          show (callWith co (runner co) id actor f values).exec s = s
          unfold callWith
          rw [exec_bind, eval_get, exec_get, if_pos hs, exec_pure]
      | callText actor name coords text =>
          show (callTextWith co (runner co) id actor name coords text).exec s = s
          unfold callTextWith
          rw [exec_bind, eval_get, exec_get, if_pos hs, exec_pure]
      | callHook actor origin f values =>
          show (callHookWith co (runner co) _ f values).exec s = s
          unfold callHookWith
          rw [exec_bind, eval_get, exec_get, if_pos hs, exec_pure]
      | _ => exact hop.elim
  | fireEvent event arguments =>
      show (ServerM.fireEvent co event arguments).exec s = s
      unfold ServerM.fireEvent
      rw [exec_bind, eval_get, exec_get, if_pos hs, exec_pure]
  | _ => exact hop.elim

/-- Requests of that kind may as well not have been made. -/
theorem Server.Leads.eq_of_isGated {allowed : Catalogue → Prop}
    (h : Leads allowed Operation.IsGated s t) (hs : s.isStopped = true) : t = s := by
  induction h with
  | refl => rfl
  | tail _ hlast ih =>
      obtain ⟨co, op, _, hop, rfl⟩ := hlast
      subst ih
      exact op.exec_eq_of_isGated hop co hs

/-! ## Ticks -/

namespace Server

omit [StateStore σ] in
/-- The roots are the hosts that belong to no other. -/
theorem mem_roots : id ∈ s.roots ↔ s.IsRoot id := by
  unfold roots
  rw [List.mem_filterMap]
  constructor
  · rintro ⟨⟨k, h⟩, hmem, hk⟩
    dsimp only at hk
    split at hk
    · rename_i hroot
      obtain rfl := Option.some.inj hk
      exact ⟨h, Std.ExtTreeMap.mem_toList_iff_getElem?_eq_some.1 hmem,
        Option.isNone_iff_eq_none.1 hroot⟩
    · cases hk
  · rintro ⟨h, hh, ho⟩
    refine ⟨(id, h), Std.ExtTreeMap.mem_toList_iff_getElem?_eq_some.2 hh, ?_⟩
    have hroot : h.isRoot = true := Option.isNone_iff_eq_none.2 ho
    dsimp only
    rw [if_pos hroot]

omit [StateStore σ] in
/-- The roots come in the order of their numbers. -/
theorem pairwise_roots (s : Server σ β) : s.roots.Pairwise (· < ·) := by
  unfold roots
  rw [List.pairwise_filterMap]
  have hroot : ∀ (x : HostId × Host β) (k : HostId),
      (if x.2.isRoot then some x.1 else none) = some k → x.1 = k := by
    intro x k hk
    split at hk
    · exact Option.some.inj hk
    · cases hk
  apply s.hosts.ordered_keys_toList.imp
  intro a b hab k hk l hl
  rw [← hroot a k hk, ← hroot b l hl]
  exact Nat.compare_eq_lt.1 hab

/-- What is written down when a tick reaches a host, latest first. -/
def tickEvents (s : Server σ β) (id : HostId) : List StateEvent :=
  match s.host? id with
  | none => []
  | some h => (if h.saveTimeout = 1 then h.saveEvents else []) ++ [.ticked id]

/-- A tick has reached some hosts, one after the other: their windows have moved on, the state of
those whose window has run out has been given to the store, and nothing else has changed. -/
structure Ticked (ids : List HostId) (s t : Server σ β) : Prop where
  host? : ∀ k, t.host? k =
    if k ∈ ids then (s.host? k).map fun h => h.setTimeout (h.saveTimeout - 1) else s.host? k
  chronicle : t.chronicle = ids.reverse.flatMap s.tickEvents ++ s.chronicle
  store : t.store = (ids.reverse.flatMap s.tickEvents).foldr StateEvent.applyTo s.store
  apps : t.apps = s.apps
  nextId : t.nextId = s.nextId
  dispatch : t.dispatch = s.dispatch
  isStopped : t.isStopped = s.isStopped
  settings : t.settings = s.settings

variable {k : HostId} {h : Host β} {ids : List HostId} {u : Server σ β}

omit [StateStore σ] in
theorem tickEvents_of_host? (hh : s.host? k = some h) :
    s.tickEvents k = (if h.saveTimeout = 1 then h.saveEvents else []) ++ [.ticked k] := by
  rw [tickEvents, hh]

omit [StateStore σ] in
theorem tickEvents_of_host?_eq_none (hh : s.host? k = none) : s.tickEvents k = [] := by
  rw [tickEvents, hh]

theorem Ticked.nil (s : Server σ β) : Ticked [] s s where
  host? _ := (if_neg List.not_mem_nil).symm
  chronicle := rfl
  store := rfl
  apps := rfl
  nextId := rfl
  dispatch := rfl
  isStopped := rfl
  settings := rfl

/-- A tick that reaches a host after others finds it as it was. -/
theorem Ticked.cons (h : Ticked [k] s t) (g : Ticked ids t u) (hk : k ∉ ids) :
    Ticked (k :: ids) s u := by
  have hother : ∀ l ∈ ids, t.host? l = s.host? l := by
    intro l hl
    rw [h.host?, if_neg]
    intro hmem
    rw [List.mem_singleton] at hmem
    exact hk (hmem ▸ hl)
  have hevents : ids.reverse.flatMap t.tickEvents = ids.reverse.flatMap s.tickEvents := by
    apply List.flatMap_congr
    intro l hl
    rw [tickEvents, tickEvents, hother l (List.mem_reverse.1 hl)]
  have hall : (k :: ids).reverse.flatMap s.tickEvents =
      ids.reverse.flatMap s.tickEvents ++ s.tickEvents k := by
    rw [List.reverse_cons, List.flatMap_append, List.flatMap_singleton]
  have hfirst : [k].reverse.flatMap s.tickEvents = s.tickEvents k := by
    rw [List.reverse_singleton, List.flatMap_singleton]
  exact
    { host? := by
        intro l
        rw [g.host?]
        by_cases hl : l ∈ ids
        · rw [if_pos hl, if_pos (List.mem_cons_of_mem k hl), hother l hl]
        · rw [if_neg hl, h.host?]
          simp [hl]
      chronicle := by
        rw [g.chronicle, h.chronicle, hevents, hall, hfirst, List.append_assoc]
      store := by
        rw [g.store, h.store, hevents, hall, hfirst, List.foldr_append]
      apps := g.apps.trans h.apps
      nextId := g.nextId.trans h.nextId
      dispatch := g.dispatch.trans h.dispatch
      isStopped := g.isStopped.trans h.isStopped
      settings := g.settings.trans h.settings }

/-- A warning in the log is no matter. -/
theorem Ticked.noted (h : Ticked ids s t) (hnoted : t.Noted u) : Ticked ids s u := by
  rcases hnoted with rfl | ⟨text, rfl⟩
  · exact h
  · exact ⟨h.host?, h.chronicle, h.store, h.apps, h.nextId, h.dispatch, h.isStopped, h.settings⟩

/-- A tick that reaches one host concerns that host, the store, and what is written down. -/
theorem ticked_singleton (hh : s.host? k = some h)
    (hhost : ∀ l, t.host? l =
      if k = l then some (h.setTimeout (h.saveTimeout - 1)) else s.host? l)
    (hchronicle : t.chronicle =
      (if h.saveTimeout = 1 then h.saveEvents else []) ++ .ticked k :: s.chronicle)
    (hstore : t.store =
      (if h.saveTimeout = 1 then h.saveEvents else []).foldr StateEvent.applyTo s.store)
    (heq : t = { s with
      hosts := t.hosts, journal := t.journal, chronicle := t.chronicle, store := t.store }) :
    Ticked [k] s t where
  host? l := by
    rw [hhost]
    by_cases hl : k = l
    · rw [if_pos hl, if_pos (List.mem_singleton.2 hl.symm), ← hl, hh, Option.map_some]
    · rw [if_neg hl, if_neg fun hmem => hl (List.mem_singleton.1 hmem).symm]
  chronicle := by
    rw [hchronicle, List.reverse_singleton, List.flatMap_singleton, tickEvents_of_host? hh,
      List.append_assoc, List.singleton_append]
  store := by
    rw [hstore, List.reverse_singleton, List.flatMap_singleton, tickEvents_of_host? hh,
      List.foldr_append]
    rfl
  apps := by rw [heq]
  nextId := by rw [heq]
  dispatch := by rw [heq]
  isStopped := by rw [heq]
  settings := by rw [heq]

/-- What a tick does to the host that it reaches. -/
theorem ticked_tickHost (ha : Arena suits s) (id : HostId) :
    Ticked [id] s ((ServerM.tickHost id).exec s) := by
  have hwindow : ∀ {h : Host β} (ticks : Nat) (e : StateEvent) (l : HostId),
      s.host? id = some h → (s.setWindow id ticks e).host? l =
        if id = l then some (h.setTimeout ticks) else s.host? l := by
    intro h ticks e l hh
    rw [setWindow, host?_modifyHost, host?_remember]
    split
    · rename_i hl
      rw [← hl, hh, Option.map_some]
    · rfl
  cases hh : s.host? id with
  | none =>
      have hexec : (ServerM.tickHost id).exec s = s := by
        unfold ServerM.tickHost
        rw [exec_bind, eval_host?, exec_host?, hh]
        rfl
      have hevents : [id].reverse.flatMap s.tickEvents = [] := by
        rw [List.reverse_singleton, List.flatMap_singleton, tickEvents_of_host?_eq_none hh]
      rw [hexec]
      refine ⟨fun l => ?_, ?_, ?_, rfl, rfl, rfl, rfl, rfl⟩
      · split
        · rename_i hl
          rw [List.mem_singleton.1 hl, hh]
          rfl
        · rfl
      · rw [hevents, List.nil_append]
      · rw [hevents, List.foldr_nil]
  | some h =>
      rcases tickHost_cases ha.keyed hh with ⟨hw, hexec⟩ | ⟨n, hw, hexec⟩ | ⟨hw, hnoted⟩
      · have hsame : h.setTimeout (h.saveTimeout - 1) = h := by
          have hzero : h.saveTimeout - 1 = h.saveTimeout := by omega
          rw [hzero]
          rfl
        rw [hexec]
        apply ticked_singleton hh
        · intro l
          rw [hsame]
          split
          · rename_i hl
            rw [host?_remember, ← hl, hh]
          · rfl
        · rw [if_neg (by omega)]
          rfl
        · rw [if_neg (by omega)]
          rfl
        · rfl
      · rw [hexec]
        apply ticked_singleton hh
        · intro l
          rw [hwindow (n + 1) _ l hh, hw]
          rfl
        · rw [if_neg (by omega)]
          rfl
        · rw [if_neg (by omega)]
          rfl
        · rfl
      · refine Ticked.noted ?_ hnoted
        apply ticked_singleton hh
        · intro l
          rw [host?_save, hwindow 0 _ l hh, hw]
        · rw [chronicle_save, if_pos hw]
          rfl
        · rw [store_save, if_pos hw]
          rfl
        · rw [save_eq]
          rfl

/-- A tick reaches hosts one after the other. -/
theorem ticked_forM (ha : Arena suits s) (hids : ids.Nodup) :
    Ticked ids s ((ids.forM ServerM.tickHost).exec s) := by
  induction ids generalizing s with
  | nil => exact .nil s
  | cons id ids ih =>
      have ha' := Steps.arena ha (keeps_tickHost id ha).steps
      rw [exec_forM_cons]
      exact (ticked_tickHost ha id).cons (ih ha' hids.of_cons) (List.nodup_cons.1 hids).1

/-! ## What operations come to -/

/-- What operations come to on a server on which execution is halted.  The requests that are refused
are refused whatever the tokenizer, the check of a callback and the evaluator would do, and without
a trace, so none of these is asked and no producer is forced. -/
structure Halted (s : Server σ β) : Prop where
  silent : ∀ (co : Collaborators β) (op : Operation β), Silent s ((op.run co).exec s)
  run : ∀ t, Leads (fun _ => True) (· ≠ .setStopped false) s t → t.isStopped = true ∧ Silent s t
  call : ∀ (co : Collaborators β) id actor f values,
    (ServerM.call co id actor f values).eval s = .error .paused ∧
      (ServerM.call co id actor f values).exec s = s
  callText : ∀ (co : Collaborators β) id actor name coords text,
    (ServerM.callText co id actor name coords text).eval s = .error .paused ∧
      (ServerM.callText co id actor name coords text).exec s = s
  callHook : ∀ (co : Collaborators β) frame f values,
    (ServerM.callHook co frame f values).eval s = .ok .null ∧
      (ServerM.callHook co frame f values).exec s = s
  fireEvent : ∀ (co : Collaborators β) event arguments,
    (ServerM.fireEvent co event arguments).eval s = 0 ∧
      (ServerM.fireEvent co event arguments).exec s = s
  tick : ∀ co : Collaborators β, (ServerM.tick co).exec s = (s.roots.forM ServerM.tickHost).exec s
  ticked : ∀ co : Collaborators β, Ticked s.roots s ((ServerM.tick co).exec s)
  roots_pairwise : s.roots.Pairwise (· < ·)
  mem_roots : ∀ k, k ∈ s.roots ↔ s.IsRoot k

/-- While execution is halted an event calls nothing, so a tick only moves the windows on. -/
theorem exec_tick_of_isStopped (co : Collaborators β) (hs : s.isStopped = true) :
    (ServerM.tick co).exec s = (s.roots.forM ServerM.tickHost).exec s := by
  have hfire : (ServerM.fireEvent co .tick []).exec s = s :=
    Operation.exec_eq_of_isGated (.fireEvent .tick []) trivial co hs
  unfold ServerM.tick
  rw [exec_bind, hfire, exec_bind, eval_get, exec_get]

theorem Arena.halted (ha : Arena suits s) (hs : s.isStopped = true) : Halted s where
  silent co op := op.silent co hs
  run _ h := h.silent hs
  call co id actor f values := by
    refine ⟨?_, Operation.exec_eq_of_isGated (.invoke id (.call actor f values)) trivial co hs⟩
    unfold ServerM.call callWith
    rw [eval_bind, eval_get, exec_get, if_pos hs, eval_pure]
  callText co id actor name coords text := by
    refine ⟨?_, Operation.exec_eq_of_isGated (.invoke id (.callText actor name coords text))
      trivial co hs⟩
    unfold ServerM.callText callTextWith
    rw [eval_bind, eval_get, exec_get, if_pos hs, eval_pure]
  callHook co frame f values := by
    refine ⟨?_, Operation.exec_eq_of_isGated
      (.invoke frame.host (.callHook frame.actor frame.origin f values)) trivial co hs⟩
    unfold ServerM.callHook callHookWith
    rw [eval_bind, eval_get, exec_get, if_pos hs, eval_pure]
  fireEvent co event arguments := by
    refine ⟨?_, Operation.exec_eq_of_isGated (.fireEvent event arguments) trivial co hs⟩
    unfold ServerM.fireEvent
    rw [eval_bind, eval_get, exec_get, if_pos hs, eval_pure]
  tick co := exec_tick_of_isStopped co hs
  ticked co := by
    have hnodup : s.roots.Nodup := s.pairwise_roots.imp Nat.ne_of_lt
    rw [exec_tick_of_isStopped co hs]
    exact ticked_forM ha hnodup
  roots_pairwise := s.pairwise_roots
  mem_roots _ := Server.mem_roots

end Server

/-- While a reachable server is paused no operation has a function called, requests to call
functions and to fire events do nothing, and ticks move the windows on; and from the moment on when
a server is paused to that when it is resumed such requests may as well not have been made. -/
theorem paused_of_reachable {allowed : Catalogue → Prop} (hs : Reachable allowed s) :
    (s.isStopped = true → Halted s) ∧
      ∀ t, Leads (fun _ => True) Operation.IsGated ((setStopped true).exec s) t →
        (setStopped false).exec t = (setStopped false).exec ((setStopped true).exec s) := by
  have ha : Arena (fun _ _ => True) s := hs.arena fun _ _ _ _ _ => trivial
  refine ⟨ha.halted, fun t ht => ?_⟩
  rw [ht.eq_of_isGated (isStopped_setStopped true s)]

/-- The market is paused within a window.  An event is fired, and the window runs out. -/
theorem paused_market :
    let co := Collaborators.plain (.always (.done (.ok .null))) marketCatalogue
    let s : Server MemoryStore Unit := Operation.runAll co
      (marketOperations ++ [.writeGlobalState 1 (some "a".toUTF8),
        .writeGlobalState 1 (some "b".toUTF8), .setStopped true])
      (.new ∅ { saveDebounceTicks := 1 })
    let t : Server MemoryStore Unit := Operation.runAll co [.fireEvent .tick []]
      ((setStopped true).exec s)
    let b : Option Blob := some "b".toUTF8
    s.isStopped = true ∧ s.held 1 = some (b, 1) ∧ s.roots = [0, 1] ∧
      ((tick co).exec s).held 1 = some (b, 0) ∧
      ((tick co).exec s).store.get? (.globalState "market") = b ∧ Halted s ∧
      (setStopped false).exec t = (setStopped false).exec ((setStopped true).exec s) := by
  intro co s t b
  have hs : Reachable (fun _ => True) s := .runAll trivial _ (.new _ _)
  have hstopped : s.isStopped = true := by decide +kernel
  have hgated : Leads (fun _ => True) Operation.IsGated ((setStopped true).exec s) t :=
    .runAll trivial (List.forall_mem_singleton.2 trivial) _
  exact ⟨hstopped, by decide +kernel, by decide +kernel, by decide +kernel, by decide +kernel,
    (paused_of_reachable hs).1 hstopped, (paused_of_reachable hs).2 t hgated⟩

end ScriptHost
