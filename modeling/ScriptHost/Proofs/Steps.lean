import Mathlib
import ScriptHost.Proofs.Evaluation
/-!
# Steps of a server

Every operation on a server is made of steps of code and of the steps by which hosts and apps come
and go, ticks pass and windows close.  `Step s t` lists them, each with the state it leads to, so
that an invariant of servers is proved by looking at one step after the other.

## Main statements

* `Server.beginRoot`, `Server.beginUser`, `Server.save`: what the steps make of a server.
* `Step`, `Steps`: one step of a server, and any number of them.
-/

namespace ScriptHost

variable {σ β : Type}

/-! ## What the steps make of a server -/

namespace Host

/-- A user's host is one of the user hosts. -/
theorem mem_userIds {h : Host β} {c : HostId} :
    c ∈ h.userIds ↔ ∃ u : String, h.users[u]? = some c := by
  unfold userIds
  rw [List.mem_map]
  constructor
  · rintro ⟨⟨u, c'⟩, hmem, rfl⟩
    exact ⟨u, Std.ExtTreeMap.mem_toList_iff_getElem?_eq_some.1 hmem⟩
  · rintro ⟨u, hu⟩
    exact ⟨(u, c), Std.ExtTreeMap.mem_toList_iff_getElem?_eq_some.2 hu, rfl⟩

/-- Adds the host of a user. -/
def addUser (h : Host β) (user : String) (id : HostId) : Host β :=
  { h with users := h.users.insert user id }

/-- Removes the host of a user. -/
def eraseUser (h : Host β) (user : String) : Host β := { h with users := h.users.erase user }

theorem users_addUser (h : Host β) (user u : String) (id : HostId) :
    (h.addUser user id).users[u]? = if user = u then some id else h.users[u]? := by
  simp [addUser, Std.ExtTreeMap.getElem?_insert]

theorem users_eraseUser (h : Host β) (user u : String) :
    (h.eraseUser user).users[u]? = if user = u then none else h.users[u]? := by
  simp [eraseUser, Std.ExtTreeMap.getElem?_erase]

/-- The host under a number after one with the given owner has gone. -/
def without (h : Host β) (id : HostId) : Option Ownership → Host β
  | none => h
  | some o => if o.parent = id then h.eraseUser o.user else h

/-- Two hosts differ in their users at most. -/
def SameButUsers (h k : Host β) : Prop := h = { k with users := h.users }

theorem SameButUsers.refl (h : Host β) : h.SameButUsers h := rfl

theorem sameButUsers_addUser (h : Host β) (user : String) (id : HostId) :
    (h.addUser user id).SameButUsers h := rfl

/-- Only users are lost. -/
theorem sameButUsers_without (h : Host β) (id : HostId) (owner : Option Ownership) :
    (h.without id owner).SameButUsers h := by
  unfold without SameButUsers
  split
  · rfl
  · split <;> rfl

namespace SameButUsers

variable {h k : Host β}

theorem id_eq (hk : h.SameButUsers k) : h.id = k.id := by rw [hk]

theorem module_eq (hk : h.SameButUsers k) : h.module = k.module := by rw [hk]

theorem owner_eq (hk : h.SameButUsers k) : h.owner = k.owner := by rw [hk]

theorem perUser_eq (hk : h.SameButUsers k) : h.perUser = k.perUser := by rw [hk]

theorem globalState_eq (hk : h.SameButUsers k) : h.globalState = k.globalState := by rw [hk]

theorem saveTimeout_eq (hk : h.SameButUsers k) : h.saveTimeout = k.saveTimeout := by rw [hk]

theorem name?_eq (hk : h.SameButUsers k) : h.name? = k.name? := by
  rw [name?, name?, hk.module_eq]

end SameButUsers

/-- Only the user whose host has gone is lost. -/
theorem users_without {h : Host β} {id : HostId} {owner : Option Ownership} {u : String}
    {c : HostId} :
    (h.without id owner).users[u]? = some c ↔
      owner ≠ some { parent := id, user := u } ∧ h.users[u]? = some c := by
  unfold without
  cases owner with
  | none => simp
  | some o =>
      obtain ⟨p, v⟩ := o
      by_cases hp : p = id
      · subst hp
        by_cases hv : v = u
        · simp [users_eraseUser, hv]
        · simp [users_eraseUser, hv]
      · simp [hp]

end Host

namespace Server

/-- The server after the app of a name has been struck off. -/
def eraseApp (s : Server σ β) (name : String) : Server σ β := { s with apps := s.apps.erase name }

/-- The server after an app has been entered under a name. -/
def insertApp (s : Server σ β) (name : String) (id : HostId) : Server σ β :=
  { s with apps := s.apps.insert name id }

theorem app?_eraseApp (s : Server σ β) (name n : String) :
    (s.eraseApp name).app? n = if name = n then none else s.app? n := by
  simp [app?, eraseApp, Std.ExtTreeMap.getElem?_erase]

theorem app?_insertApp (s : Server σ β) (name n : String) (id : HostId) :
    (s.insertApp name id).app? n = if name = n then some id else s.app? n := by
  simp [app?, insertApp, Std.ExtTreeMap.getElem?_insert]

/-- The server after some hosts have been removed. -/
theorem host?_eraseHosts (s : Server σ β) (ids : List HostId) (k : HostId) :
    (s.eraseHosts ids).host? k = if k ∈ ids then none else s.host? k := by
  unfold host? eraseHosts
  rw [Std.ExtTreeMap.getElem?_filter']
  by_cases h : k ∈ ids
  · simp [h]
  · cases s.hosts[k]? <;> simp [h]

/-- The server without a host and the hosts of its users. -/
def discard (s : Server σ β) (id : HostId) (h : Host β) : Server σ β :=
  match h.owner with
  | none => s.eraseHosts (s.family id)
  | some o => (s.eraseHosts (s.family id)).modifyHost o.parent (·.eraseUser o.user)

/-- After a host has gone its family is not there, and the others have lost at most it. -/
theorem host?_discard (s : Server σ β) (id : HostId) (h : Host β) (k : HostId) :
    (s.discard id h).host? k =
      if k ∈ s.family id then none else (s.host? k).map (·.without k h.owner) := by
  unfold discard Host.without
  cases h.owner with
  | none =>
      dsimp only
      rw [host?_eraseHosts]
      simp
  | some o =>
      dsimp only
      rw [host?_modifyHost, host?_eraseHosts]
      by_cases hk : k ∈ s.family id
      · simp [hk]
      · by_cases hp : o.parent = k
        · simp [hk, hp]
        · simp [hk, hp]

theorem chronicle_discard (s : Server σ β) (id : HostId) (h : Host β) :
    (s.discard id h).chronicle = (s.family id).map .ended ++ s.chronicle := by
  unfold discard
  cases h.owner <;> rfl

theorem dispatch_discard (s : Server σ β) (id : HostId) (h : Host β) :
    (s.discard id h).dispatch = s.dispatch.unbindHosts (s.family id) := by
  unfold discard
  cases h.owner <;> rfl

/-- Apps, numbers, settings and the store are not concerned when a host goes. -/
theorem discard_eq (s : Server σ β) (id : HostId) (h : Host β) :
    s.discard id h = { s with
      hosts := (s.discard id h).hosts
      dispatch := (s.discard id h).dispatch
      chronicle := (s.discard id h).chronicle } := by
  unfold discard
  cases h.owner <;> rfl

/-- Discarding a host that is there. -/
theorem exec_discard {s : Server σ β} {id : HostId} {h : Host β} (hh : s.host? id = some h) :
    (ServerM.discard id).exec s = s.discard id h := by
  unfold ServerM.discard discard
  rw [ServerM.exec_bind, ServerM.eval_host?, ServerM.exec_host?, hh]
  dsimp only
  rw [ServerM.exec_bind, ServerM.exec_modify]
  cases h.owner <;> rfl

/-- Discarding a host that is not there. -/
theorem exec_discard_of_host?_eq_none {s : Server σ β} {id : HostId} (hh : s.host? id = none) :
    (ServerM.discard id).exec s = s := by
  unfold ServerM.discard
  rw [ServerM.exec_bind, ServerM.eval_host?, ServerM.exec_host?, hh]
  rfl

/-- No app is struck off when a host is discarded. -/
theorem apps_exec_discard (s : Server σ β) (id : HostId) :
    ((ServerM.discard id).exec s).apps = s.apps := by
  cases hh : s.host? id with
  | none => rw [exec_discard_of_host?_eq_none hh]
  | some h => rw [exec_discard hh, discard_eq]

theorem nextId_exec_discard (s : Server σ β) (id : HostId) :
    ((ServerM.discard id).exec s).nextId = s.nextId := by
  cases hh : s.host? id with
  | none => rw [exec_discard_of_host?_eq_none hh]
  | some h => rw [exec_discard hh, discard_eq]

/-- A new root host, under the next number. -/
def newRoot (s : Server σ β) (module : Option Module) (perUser : Bool) (state : Option Blob)
    (sink : Option Actor) : Host β :=
  { Host.ofModule s.nextId module perUser state with sink }

/-- The server after a root host has begun.  That of a host with a module is remembered. -/
def beginRoot (s : Server σ β) (module : Option Module) (perUser : Bool) (state : Option Blob)
    (sink : Option Actor) : Server σ β :=
  { (s.insertHost (s.newRoot module perUser state sink)).skipId with
    chronicle := match module with
      | some m => .begun s.nextId m.name state :: s.chronicle
      | none => s.chronicle }

/-- The server after the host of a user has begun. -/
def beginUser (s : Server σ β) (root : HostId) (h : Host β) (user : String) (sink : Actor) :
    Server σ β :=
  ((s.insertHost (h.forUser s.nextId user sink)).modifyHost root (·.addUser user s.nextId)).skipId

variable [StateStore σ]

/-- The state that a store holds for a module, if it can be read. -/
def savedState (s : Server σ β) (module : Option Module) : Option Blob :=
  match module with
  | none => none
  | some m =>
    match StateStore.read s.store (.globalState m.name) with
    | .ok state => state
    | .error _ => none

/-- The server after the state of a host has been given to the store.  A host that belongs to no app
has no place to save to. -/
def save (s : Server σ β) (h : Host β) : Server σ β :=
  match h.name? with
  | none => s
  | some name => s.request (.ofState h.globalState) (.globalState name)

theorem save_of_name? (s : Server σ β) {h : Host β} {name : String} (hn : h.name? = some name) :
    s.save h = s.request (.ofState h.globalState) (.globalState name) := by
  rw [save, hn]

theorem save_of_name?_eq_none (s : Server σ β) {h : Host β} (hn : h.name? = none) :
    s.save h = s := by
  rw [save, hn]

/-- Hosts, apps, numbers and settings are not concerned when a state is given to the store. -/
theorem save_eq (s : Server σ β) (h : Host β) :
    s.save h = { s with
      store := (s.save h).store
      journal := (s.save h).journal
      chronicle := (s.save h).chronicle } := by
  unfold save
  split <;> rfl

theorem host?_save (s : Server σ β) (h : Host β) (k : HostId) :
    (s.save h).host? k = s.host? k := by
  rw [save_eq]
  rfl

/-- The server after a host has been given a sink that may depend on the host. -/
def setSink (s : Server σ β) (id : HostId) (f : Host β → Option Actor) : Server σ β :=
  s.modifyHost id fun h => { h with sink := f h }

/-- The server after an event on a host that leaves so many ticks of its window. -/
def setWindow (s : Server σ β) (id : HostId) (ticks : Nat) (e : StateEvent) : Server σ β :=
  (s.remember e).modifyHost id (·.setTimeout ticks)

omit [StateStore σ] in
theorem host?_setWindow {s : Server σ β} {id : HostId} {h : Host β} (hh : s.host? id = some h)
    (ticks : Nat) (e : StateEvent) :
    (s.setWindow id ticks e).host? id = some (h.setTimeout ticks) := by
  rw [setWindow, host?_modifyHost_self, host?_remember, hh, Option.map_some]

end Server

/-! ## The steps -/

variable [StateStore σ]

/-- One step of a server, on which apps are loaded under names that suit their modules. -/
inductive Step (suits : String → Module → Prop) (s : Server σ β) : Server σ β → Prop where
  | code {id : HostId} {t : Server σ β} (h : CodeStep id s t) : Step suits s t
  | skipId : Step suits s s.skipId
  | setStopped (stop : Bool) : Step suits s { s with isStopped := stop }
  | setSink (id : HostId) (f : Host β → Option Actor) : Step suits s (s.setSink id f)
  | beginRoot (module : Option Module) (perUser : Bool) (sink : Option Actor) :
      Step suits s (s.beginRoot module perUser (s.savedState module) sink)
  | beginUser {root : HostId} {h : Host β} {user : String} (hh : s.host? root = some h)
      (hu : h.users[user]? = none) (sink : Actor) : Step suits s (s.beginUser root h user sink)
  | discard {id : HostId} {h : Host β} (hh : s.host? id = some h) (hid : id ≠ HostId.unnamed)
      (happ : ∀ name, s.app? name ≠ some id) : Step suits s (s.discard id h)
  | eraseApp (name : String) : Step suits s (s.eraseApp name)
  | insertApp {id : HostId} {h : Host β} {m : Module} {name : String} (hh : s.host? id = some h)
      (ho : h.owner = none) (hm : h.module = some m) (hsuits : suits name m)
      (happ : ∀ n, s.app? n ≠ some id) : Step suits s (s.insertApp name id)
  | tickIdle {id : HostId} {h : Host β} (hh : s.host? id = some h) (hw : h.saveTimeout = 0) :
      Step suits s (s.remember (.ticked id))
  | tickWait {id : HostId} {h : Host β} {n : Nat} (hh : s.host? id = some h)
      (hw : h.saveTimeout = n + 2) : Step suits s (s.setWindow id (n + 1) (.ticked id))
  | tickSave {id : HostId} {h : Host β} (hh : s.host? id = some h) (hw : h.saveTimeout = 1) :
      Step suits s ((s.setWindow id 0 (.ticked id)).save h)
  | closeIdle {id : HostId} {h : Host β} (hh : s.host? id = some h) (hw : h.saveTimeout = 0) :
      Step suits s (s.remember (.closed id))
  | closeSave {id : HostId} {h : Host β} (hh : s.host? id = some h) (hw : 0 < h.saveTimeout) :
      Step suits s ((s.setWindow id 0 (.closed id)).save h)

/-- Any number of steps of a server. -/
abbrev Steps (suits : String → Module → Prop) : Server σ β → Server σ β → Prop :=
  Relation.ReflTransGen (Step suits)

/-- Steps of code are steps of the server that the code runs on. -/
theorem CodeSteps.steps {suits : String → Module → Prop} {id : HostId} {s t : Server σ β}
    (h : CodeSteps id s t) : Steps suits s t := by
  induction h with
  | refl => exact .refl
  | tail _ hstep ih => exact ih.tail (.code hstep)

end ScriptHost
