import Mathlib
import ScriptHost.Proofs.Requests
/-!
# Steps of code

An evaluation changes a server only through the queries that its code makes, and every query comes
down to a few steps.  `CodeStep id s t` says that code which runs under the host `id` can lead from
`s` to `t` in one step, and says all of what the step does: properties of evaluations are proved by
looking at one step after the other.

## Main statements

* `CodeStep`: one step of code, `CodeSteps`: any number of them.
* `CodeFrame`, `CodeSteps.frame`: what code leaves as it was.
* `CodeSteps.store`: the keys that code may ask the store about.
-/

namespace ScriptHost

namespace EventDispatch

/-- The bindings after a host has defined a function of its main module: a name that stands for an
event is bound to the event. -/
def bindName (d : EventDispatch) (id : HostId) (name : String) : EventDispatch :=
  match HookKind.ofName name with
  | .event e => d.bind e { host := id, function := name }
  | _ => d

/-- The bindings after a host has removed a function: a name that stands for an event is unbound
from the event. -/
def unbindName (d : EventDispatch) (id : HostId) (name : String) : EventDispatch :=
  match HookKind.ofName name with
  | .event e => d.unbind e { host := id, function := name }
  | _ => d

variable (d : EventDispatch) (id : HostId) (name : String)

/-- A binding is new only if it is a binding of the host that has defined a function. -/
theorem mem_bindName {b : Event × EventBinding} (h : b ∈ (d.bindName id name).subscriptions) :
    b ∈ d.subscriptions ∨ b.2.host = id := by
  unfold bindName bind at h
  split at h
  · split at h
    · exact .inl h
    · rcases List.mem_append.1 h with hmem | hmem
      · exact .inl hmem
      · rw [List.mem_singleton.1 hmem]
        exact .inr rfl
  · exact .inl h

/-- Unbinding adds nothing. -/
theorem mem_unbindName {b : Event × EventBinding} (h : b ∈ (d.unbindName id name).subscriptions) :
    b ∈ d.subscriptions := by
  unfold unbindName unbind at h
  split at h
  · exact (List.mem_filter.1 h).1
  · exact h

/-- The bindings of other hosts stay when a function is defined. -/
theorem filter_bindName :
    (d.bindName id name).subscriptions.filter (·.2.host != id) =
      d.subscriptions.filter (·.2.host != id) := by
  unfold bindName bind
  split
  · split
    · rfl
    · simp
  · rfl

/-- The bindings of other hosts stay when a function is removed. -/
theorem filter_unbindName :
    (d.unbindName id name).subscriptions.filter (·.2.host != id) =
      d.subscriptions.filter (·.2.host != id) := by
  unfold unbindName unbind
  split
  · rename_i e _
    rw [List.filter_filter]
    apply List.filter_congr
    intro b _
    by_cases h : b.2.host = id
    · simp [h]
    · have hne : b ≠ (e, { host := id, function := name }) := by
        intro hb
        exact h (by rw [hb])
      simp [h, hne]
  · rfl

end EventDispatch

namespace Server

variable {σ β : Type}

/-- The server after a host has defined a function. -/
def define (s : Server σ β) (id : HostId) (h : Host β) (f : StoredFunction β) : Server σ β :=
  { s.modifyHost id (·.insertFunction f) with
    dispatch := if moduleKey f.module = h.mainKey then s.dispatch.bindName id f.name
      else s.dispatch }

/-- The server after a host has removed a function. -/
def delete (s : Server σ β) (id : HostId) (module : Option String) (name : String) : Server σ β :=
  { s.modifyHost id (·.eraseFunction module name) with dispatch := s.dispatch.unbindName id name }

/-- What is remembered when a host takes a state into memory: a host that is no root is
misplaced. -/
def holdEvents (id : HostId) (h : Host β) (blob : Option Blob) : List StateEvent :=
  .replaced id blob h.saveTimeout :: if h.isRoot then [] else [.misplaced id h.name?]

/-- Taking a state into memory is not yet accepting it. -/
theorem accepted_not_mem_holdEvents (id : HostId) (h : Host β) (blob : Option Blob) (k : HostId)
    (v : Option Blob) (left : Nat) : .accepted k v left ∉ holdEvents id h blob := by
  unfold holdEvents
  cases h.isRoot <;> simp

/-- A host that is no root and takes a state into memory is misplaced. -/
theorem misplaced_mem_holdEvents {h : Host β} (ho : h.owner ≠ none) (id : HostId)
    (blob : Option Blob) : .misplaced id h.name? ∈ holdEvents id h blob := by
  have hroot : h.isRoot = false := Option.isNone_eq_false_iff.2 (Option.isSome_iff_ne_none.2 ho)
  simp [holdEvents, hroot]

/-- The server after a host has taken a state into memory. -/
def hold (s : Server σ β) (id : HostId) (h : Host β) (blob : Option Blob) : Server σ β :=
  { s.modifyHost id (·.hold blob) with chronicle := holdEvents id h blob ++ s.chronicle }

@[simp] theorem store_hold (s : Server σ β) (id : HostId) (h : Host β) (blob : Option Blob) :
    (s.hold id h blob).store = s.store := rfl

theorem host?_hold {s : Server σ β} {id : HostId} {h : Host β} (hh : s.host? id = some h)
    (blob : Option Blob) : (s.hold id h blob).host? id = some (h.hold blob) := by
  show (s.modifyHost id (·.hold blob)).host? id = _
  rw [host?_modifyHost_self, hh, Option.map_some]

/-- The server after the window of a host has been opened. -/
def openWindow (s : Server σ β) (id : HostId) : Server σ β :=
  s.modifyHost id (·.setTimeout s.settings.saveDebounceTicks)

theorem host?_openWindow {s : Server σ β} {id : HostId} {h : Host β} (hh : s.host? id = some h) :
    (s.openWindow id).host? id = some (h.setTimeout s.settings.saveDebounceTicks) := by
  rw [openWindow, host?_modifyHost_self, hh, Option.map_some]

/-- The state that is read through a host. -/
def stateSeenBy (s : Server σ β) (id : HostId) : Option Blob :=
  (s.host? (s.rootOf id)).bind (·.globalState)

/-- The app that a host belongs to. -/
def appOf (s : Server σ β) (id : HostId) : Option String := (s.host? id).bind (·.name?)

theorem appOf_of_host? {s : Server σ β} {id : HostId} {h : Host β} (hh : s.host? id = some h) :
    s.appOf id = h.name? := by
  rw [appOf, hh, Option.bind_some]

end Server

/-! ## What code leaves as it was -/

variable {σ β : Type}

namespace Host

/-- A host apart from its global state. -/
def stateless (h : Host β) : Host β := { h with globalState := none, saveTimeout := 0 }

/-- What code cannot change of the host that it runs under: number, module, owner, users and sink,
and whether a user host has hosts for each player, which it never has. -/
def shape (h : Host β) : Host β :=
  { id := h.id, module := h.module, owner := h.owner, perUser := h.owner.isSome && h.perUser
    users := h.users, sink := h.sink }

theorem shape_stateless (h : Host β) : h.stateless.shape = h.shape := rfl

/-- A change to what one module has defined leaves what the others have defined. -/
theorem definitionsOf_modifyDefinitions (h : Host β) (module : Option String)
    (f : Definitions β → Definitions β) (key : String) :
    (h.modifyDefinitions module f).definitionsOf key =
      if moduleKey module = key then f (h.definitionsOf key) else h.definitionsOf key := by
  unfold modifyDefinitions definitionsOf
  dsimp only
  rw [Std.ExtTreeMap.getD_insert]
  by_cases hkey : moduleKey module = key
  · rw [if_pos (compare_eq_iff_eq.2 hkey), if_pos hkey, hkey]
  · rw [if_neg fun heq => hkey (compare_eq_iff_eq.1 heq), if_neg hkey]

end Host

/-- Code that runs under the host `id` leaves everything as it was but that host, the global state
of its root, its own bindings, the store, and what is written down. -/
structure CodeFrame (id : HostId) (s t : Server σ β) : Prop where
  nextId : t.nextId = s.nextId
  apps : t.apps = s.apps
  isStopped : t.isStopped = s.isStopped
  settings : t.settings = s.settings
  own : (t.host? id).map Host.shape = (s.host? id).map Host.shape
  root : s.rootOf id ≠ id →
    (t.host? (s.rootOf id)).map Host.stateless = (s.host? (s.rootOf id)).map Host.stateless
  others : ∀ k, k ≠ id → k ≠ s.rootOf id → t.host? k = s.host? k
  bindings : t.dispatch.subscriptions.filter (·.2.host != id) =
    s.dispatch.subscriptions.filter (·.2.host != id)

namespace CodeFrame

open Host

variable {id : HostId} {s t u : Server σ β}

/-- Which host holds the global state stays the same. -/
theorem rootOf_eq (h : CodeFrame id s t) : t.rootOf id = s.rootOf id := by
  have hown := congrArg (Option.bind · fun x : Host β => x.owner.map (·.parent)) h.own
  simp only [Option.bind_map] at hown
  unfold Server.rootOf
  exact congrArg (Option.getD · id) hown

protected theorem refl (id : HostId) (s : Server σ β) : CodeFrame id s s where
  nextId := rfl
  apps := rfl
  isStopped := rfl
  settings := rfl
  own := rfl
  root _ := rfl
  others _ _ _ := rfl
  bindings := rfl

protected theorem trans (h : CodeFrame id s t) (g : CodeFrame id t u) : CodeFrame id s u where
  nextId := g.nextId.trans h.nextId
  apps := g.apps.trans h.apps
  isStopped := g.isStopped.trans h.isStopped
  settings := g.settings.trans h.settings
  own := g.own.trans h.own
  root hne := by
    have hg := g.root
    rw [h.rootOf_eq] at hg
    exact (hg hne).trans (h.root hne)
  others k hk hr := by
    have hg := g.others k hk
    rw [h.rootOf_eq] at hg
    exact (hg hr).trans (h.others k hk hr)
  bindings := g.bindings.trans h.bindings

/-- The app of the host stays the same. -/
theorem appOf_eq (h : CodeFrame id s t) : t.appOf id = s.appOf id := by
  have hown := congrArg (Option.bind · fun x : Host β => x.name?) h.own
  simp only [Option.bind_map] at hown
  exact hown

/-- The app of the root stays the same. -/
theorem appOf_rootOf_eq (h : CodeFrame id s t) :
    t.appOf (s.rootOf id) = s.appOf (s.rootOf id) := by
  by_cases hne : s.rootOf id = id
  · rw [hne]
    exact h.appOf_eq
  · have hroot := congrArg (Option.bind · fun x : Host β => x.name?) (h.root hne)
    simp only [Option.bind_map] at hroot
    exact hroot

/-- Code neither makes hosts nor removes them. -/
theorem isSome_host?_eq (h : CodeFrame id s t) (k : HostId) :
    (t.host? k).isSome = (s.host? k).isSome := by
  by_cases hk : k = id
  · subst hk
    have := congrArg Option.isSome h.own
    simpa only [Option.isSome_map] using this
  by_cases hr : k = s.rootOf id
  · subst hr
    have := congrArg Option.isSome (h.root hk)
    simpa only [Option.isSome_map] using this
  · rw [h.others k hk hr]

/-- Writing something down changes none of what a frame speaks about. -/
theorem of_eq (hhosts : t.hosts = s.hosts) (hnext : t.nextId = s.nextId) (happs : t.apps = s.apps)
    (hdispatch : t.dispatch = s.dispatch) (hstopped : t.isStopped = s.isStopped)
    (hsettings : t.settings = s.settings) : CodeFrame id s t where
  nextId := hnext
  apps := happs
  isStopped := hstopped
  settings := hsettings
  own := by simp only [Server.host?, hhosts]
  root _ := by simp only [Server.host?, hhosts]
  others k _ _ := by simp only [Server.host?, hhosts]
  bindings := by rw [hdispatch]

/-- A change to the host itself that keeps its shape. -/
theorem modifyHost_own (f : Host β → Host β)
    (hf : ∀ h, s.host? id = some h → (f h).shape = h.shape) :
    CodeFrame id s (s.modifyHost id f) where
  nextId := rfl
  apps := rfl
  isStopped := rfl
  settings := rfl
  own := by
    rw [Server.host?_modifyHost_self, Option.map_map]
    exact Option.map_congr hf
  root hne := by rw [Server.host?_modifyHost, if_neg hne.symm]
  others k hk _ := by rw [Server.host?_modifyHost, if_neg hk.symm]
  bindings := rfl

/-- A change to the global state of the root. -/
theorem modifyHost_root (f : Host β → Host β) (hf : ∀ h, (f h).stateless = h.stateless) :
    CodeFrame id s (s.modifyHost (s.rootOf id) f) where
  nextId := rfl
  apps := rfl
  isStopped := rfl
  settings := rfl
  own := by
    have hshape : ∀ h, (f h).shape = h.shape := by
      intro h
      rw [← shape_stateless (f h), hf, shape_stateless]
    rw [Server.host?_modifyHost]
    split
    · rw [Option.map_map]
      exact congrArg (Option.map · (s.host? id)) (funext hshape)
    · rfl
  root _ := by
    rw [Server.host?_modifyHost_self, Option.map_map]
    exact congrArg (Option.map · (s.host? (s.rootOf id))) (funext hf)
  others k _ hr := by rw [Server.host?_modifyHost, if_neg hr.symm]
  bindings := rfl

/-- A change to the bindings of the host itself. -/
theorem of_dispatch (d : EventDispatch)
    (hd : d.subscriptions.filter (·.2.host != id) =
      s.dispatch.subscriptions.filter (·.2.host != id)) :
    CodeFrame id s { s with dispatch := d } where
  nextId := rfl
  apps := rfl
  isStopped := rfl
  settings := rfl
  own := rfl
  root _ := rfl
  others _ _ _ := rfl
  bindings := hd

/-- A definition changes the host itself and its own bindings. -/
theorem of_define (h : Host β) (f : StoredFunction β) : CodeFrame id s (s.define id h f) := by
  have hown : CodeFrame id s (s.modifyHost id (·.insertFunction f)) :=
    .modifyHost_own _ fun _ _ => rfl
  apply hown.trans
  apply of_dispatch
  split
  · exact EventDispatch.filter_bindName _ _ _
  · rfl

/-- A removal changes the host itself and its own bindings. -/
theorem of_delete (module : Option String) (name : String) :
    CodeFrame id s (s.delete id module name) := by
  have hown : CodeFrame id s (s.modifyHost id (·.eraseFunction module name)) :=
    .modifyHost_own _ fun _ _ => rfl
  exact hown.trans (.of_dispatch _ (EventDispatch.filter_unbindName _ _ _))

theorem of_remember (e : StateEvent) : CodeFrame id s (s.remember e) :=
  .of_eq rfl rfl rfl rfl rfl rfl

/-- Taking a state into memory changes the global state of the root. -/
theorem of_hold (h : Host β) (blob : Option Blob) :
    CodeFrame id s (s.hold (s.rootOf id) h blob) := by
  have hroot : CodeFrame id s (s.modifyHost (s.rootOf id) (·.hold blob)) :=
    .modifyHost_root _ fun _ => rfl
  exact hroot.trans (.of_eq rfl rfl rfl rfl rfl rfl)

/-- Opening the window changes the root only. -/
theorem of_openWindow : CodeFrame id s (s.openWindow (s.rootOf id)) :=
  .modifyHost_root _ fun _ => rfl

end CodeFrame

/-! ## What code may ask of the store -/

/-- The keys that the code of an app may ask the store about: the slot of the app's global state,
the resources of the app, and shared resources.  Code of no app may use shared resources only. -/
inductive ResourceKey.OpenTo (app : Option String) : ResourceKey → Prop where
  | slot {name : String} (h : app = some name) : OpenTo app (.globalState name)
  | own {name : String} (h : app = some name) (file : String) (kind : ResourceKind) :
      OpenTo app (.resource (some name) file kind false)
  | shared (file : String) (kind : ResourceKind) : OpenTo app (.resource none file kind true)

namespace Server

/-- The keys that code under a host may ask the store about: those of its app and of its root's. -/
def MayAsk (s : Server σ β) (id : HostId) (key : ResourceKey) : Prop :=
  key.OpenTo (s.appOf id) ∨ key.OpenTo (s.appOf (s.rootOf id))

/-- A host that may use a resource has a key for it that is open to its app. -/
theorem mayAsk_resource {s : Server σ β} {id : HostId} {h : Host β} (hh : s.host? id = some h)
    (file : String) (kind : ResourceKind) {shared : Bool} (hs : h.name? ≠ none ∨ shared = true) :
    s.MayAsk id (.resource h.name? file kind shared) := by
  left
  have happ : s.appOf id = h.name? := appOf_of_host? hh
  cases shared with
  | true => exact .shared file kind
  | false =>
      obtain ⟨name, hn⟩ := Option.ne_none_iff_exists'.1 (hs.resolve_right (by simp))
      rw [hn]
      exact .own (happ.trans hn) file kind

/-- The slot of the root is open to code under each of its hosts. -/
theorem mayAsk_slot {s : Server σ β} {id : HostId} {h : Host β} {name : String}
    (hh : s.host? (s.rootOf id) = some h) (hn : h.name? = some name) :
    s.MayAsk id (.globalState name) :=
  .inr (.slot (by simp [appOf, hh, hn]))

end Server

/-! ## The steps -/

variable [StateStore σ]

/-- One step of code that concerns the data of an app.  The constructors `keep`, `save` and `refuse`
are the three outcomes of a change of global state: the window is open, the state is saved at once,
and the store refuses to save it. -/
inductive StorageStep (id : HostId) (s : Server σ β) : Server σ β → Prop where
  | request {h : Host β} (hh : s.host? id = some h) (r : StoreRequest) (file : String)
      (kind : ResourceKind) (shared : Bool) (hs : h.name? ≠ none ∨ shared = true) :
      StorageStep id s (s.request r (.resource h.name? file kind shared))
  | answer : StorageStep id s (s.remember (.answered (s.rootOf id) (s.stateSeenBy id)))
  | keep {h : Host β} {name : String} (hh : s.host? (s.rootOf id) = some h)
      (hn : h.name? = some name) (hw : 0 < h.saveTimeout) (blob : Option Blob) :
      StorageStep id s ((s.hold (s.rootOf id) h blob).remember
        (.accepted (s.rootOf id) blob h.saveTimeout))
  | save {h : Host β} {name : String} (hh : s.host? (s.rootOf id) = some h)
      (hn : h.name? = some name) (hw : h.saveTimeout = 0) (blob : Option Blob)
      (hr : (StoreRequest.ofState blob).result (.globalState name) s.store = .ok ()) :
      StorageStep id s ((((s.hold (s.rootOf id) h blob).request (.ofState blob)
        (.globalState name)).openWindow (s.rootOf id)).remember
        (.accepted (s.rootOf id) blob h.saveTimeout))
  | refuse {h : Host β} {name : String} (hh : s.host? (s.rootOf id) = some h)
      (hn : h.name? = some name) (hw : h.saveTimeout = 0) (blob : Option Blob) {e : StoreError}
      (hr : (StoreRequest.ofState blob).result (.globalState name) s.store = .error e) :
      StorageStep id s ((s.hold (s.rootOf id) h blob).request (.ofState blob) (.globalState name))

/-- One step of code that runs under a host. -/
inductive CodeStep (id : HostId) (s : Server σ β) : Server σ β → Prop where
  | record (a : Activity β) : CodeStep id s (s.record a)
  | define {h : Host β} (hh : s.host? id = some h) (f : StoredFunction β) :
      CodeStep id s (s.define id h f)
  | delete {h : Host β} (hh : s.host? id = some h) (module : Option String) (name : String) :
      CodeStep id s (s.delete id module name)
  | setGlobal (module : Option String) (name : String) (b : Binding) :
      CodeStep id s (s.modifyHost id (·.setGlobal module name b))
  | defer (label : String) : CodeStep id s (s.modifyHost id fun h => (h.addProducer label).2)
  | force (index : Nat) (producer : Producer) :
      CodeStep id s (s.modifyHost id fun h =>
        { h with producers := h.producers.set index producer })
  | markImported {h : Host β} (hh : s.host? id = some h) (module : String)
      (hm : module ∉ h.imported) : CodeStep id s (s.modifyHost id (·.markImported module))
  | configure {h : Host β} (hh : s.host? id = some h) (hr : h.owner = none) (c : Configuration) :
      CodeStep id s (s.modifyHost id (·.configure c))
  | storage {t : Server σ β} (h : StorageStep id s t) : CodeStep id s t

/-- Any number of steps of code that runs under a host. -/
abbrev CodeSteps (id : HostId) : Server σ β → Server σ β → Prop :=
  Relation.ReflTransGen (CodeStep id)

variable {id : HostId} {s t : Server σ β}

/-- A request to the store leaves all but the store as it was. -/
theorem CodeFrame.of_request (r : StoreRequest) (key : ResourceKey) :
    CodeFrame id s (s.request r key) :=
  .of_eq rfl rfl rfl rfl rfl rfl

/-- A step that concerns the data of an app leaves as it was what code must leave. -/
theorem StorageStep.frame (h : StorageStep id s t) : CodeFrame id s t := by
  cases h with
  | request hh r file kind shared hs => exact .of_request r _
  | answer => exact .of_remember _
  | keep hh hn hw blob => exact (CodeFrame.of_hold _ blob).trans (.of_remember _)
  | @save h name hh hn hw blob hr =>
      have hhold : CodeFrame id s (s.hold (s.rootOf id) h blob) := .of_hold h blob
      have hheld := hhold.trans (.of_request (.ofState blob) (.globalState name))
      have hopen := @CodeFrame.of_openWindow σ β id
        ((s.hold (s.rootOf id) h blob).request (.ofState blob) (.globalState name))
      rw [hheld.rootOf_eq] at hopen
      exact (hheld.trans hopen).trans (.of_remember _)
  | refuse hh hn hw blob hr => exact (CodeFrame.of_hold _ blob).trans (.of_request _ _)

/-- One step of code leaves as it was what code must leave. -/
theorem CodeStep.frame (h : CodeStep id s t) : CodeFrame id s t := by
  cases h with
  | record a => exact .of_eq rfl rfl rfl rfl rfl rfl
  | define hh f => exact .of_define _ f
  | delete hh module name => exact .of_delete module name
  | setGlobal module name b => exact .modifyHost_own _ fun _ _ => rfl
  | defer label => exact .modifyHost_own _ fun _ _ => rfl
  | force index producer => exact .modifyHost_own _ fun _ _ => rfl
  | markImported hh module hm => exact .modifyHost_own _ fun _ _ => rfl
  | configure hh hr c =>
      apply CodeFrame.modifyHost_own
      intro h hh'
      obtain rfl : _ = h := Option.some.inj (hh.symm.trans hh')
      simp [Host.shape, Host.configure, hr]
  | storage h => exact h.frame

/-- Code leaves as it was what one step of it leaves. -/
theorem CodeSteps.frame (h : CodeSteps id s t) : CodeFrame id s t := by
  induction h with
  | refl => exact .refl id s
  | tail _ hstep ih => exact ih.trans hstep.frame

/-- The store is only asked about keys that are open to the code. -/
theorem StorageStep.store (h : StorageStep id s t) :
    StoreSteps (s.MayAsk id) s.store t.store := by
  cases h with
  | request hh r file kind shared hs =>
      exact .single ⟨r, _, Server.mayAsk_resource hh file kind hs, rfl⟩
  | save hh hn hw blob hr => exact .single ⟨.ofState blob, _, Server.mayAsk_slot hh hn, rfl⟩
  | refuse hh hn hw blob hr => exact .single ⟨.ofState blob, _, Server.mayAsk_slot hh hn, rfl⟩
  | _ => exact .refl

/-- One step of code asks the store only about keys that are open to it. -/
theorem CodeStep.store (h : CodeStep id s t) : StoreSteps (s.MayAsk id) s.store t.store := by
  cases h with
  | storage h => exact h.store
  | _ => exact .refl

/-- Code asks the store only about keys that are open to it. -/
theorem CodeSteps.store (h : CodeSteps id s t) : StoreSteps (s.MayAsk id) s.store t.store := by
  induction h with
  | refl => exact .refl
  | @tail u v hsteps hstep ih =>
      -- the host and its root keep their apps, so the same keys stay open
      have hopen : u.MayAsk id = s.MayAsk id := by
        have hframe := CodeSteps.frame hsteps
        funext key
        unfold Server.MayAsk
        rw [hframe.rootOf_eq, hframe.appOf_eq, hframe.appOf_rootOf_eq]
      have hv := hstep.store
      rw [hopen] at hv
      exact ih.trans hv

/-- A binding that code adds is a binding of the host that it runs under, which is there. -/
theorem CodeStep.mem_subscriptions (h : CodeStep id s t) {b : Event × EventBinding}
    (hb : b ∈ t.dispatch.subscriptions) :
    b ∈ s.dispatch.subscriptions ∨ b.2.host = id ∧ (s.host? id).isSome := by
  cases h with
  | define hh f =>
      have hlive : (s.host? id).isSome := by simp [hh]
      unfold Server.define at hb
      dsimp only at hb
      split at hb
      · exact (EventDispatch.mem_bindName _ _ _ hb).imp_right fun h => ⟨h, hlive⟩
      · exact .inl hb
  | delete hh module name => exact .inl (EventDispatch.mem_unbindName _ _ _ hb)
  | storage h =>
      left
      cases h <;> exact hb
  | _ => exact .inl hb

end ScriptHost
