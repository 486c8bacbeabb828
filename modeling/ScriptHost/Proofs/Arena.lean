import Mathlib
import ScriptHost.Proofs.Steps
/-!
# The arena of hosts

Hosts refer to each other by number: a root knows the hosts of its users, a user host knows its
root, apps are entered under names, and events are bound to hosts.  `Arena s` says that all of this
agrees.  Every step of a server keeps it, and because the host of a user always has a higher number
than the host that it belongs to, the hosts form a forest.

## Main statements

* `Server.Arena`: the invariant.
* `Server.arena_new`, `Step.arena`, `Steps.arena`: it holds at first, and every step keeps it.
* `Server.Arena.mem_familyTo_of_user`, `Server.user_of_mem_familyTo`: a family is closed.
-/

namespace ScriptHost

variable {σ β : Type}

/-! ## The place of a host among the others -/

namespace Host

/-- The place of a host among the others: its number, module, owner and users.  Whether it has hosts
for each player counts only for user hosts, which never have. -/
def place (h : Host β) : Host β := { h.shape with sink := none }

variable {h k : Host β}

theorem id_of_place_eq (hp : h.place = k.place) : h.id = k.id := by
  have hid : h.place.id = k.place.id := by rw [hp]
  exact hid

theorem module_of_place_eq (hp : h.place = k.place) : h.module = k.module := by
  have hmodule : h.place.module = k.place.module := by rw [hp]
  exact hmodule

theorem name?_of_place_eq (hp : h.place = k.place) : h.name? = k.name? := by
  rw [name?, name?, module_of_place_eq hp]

theorem owner_of_place_eq (hp : h.place = k.place) : h.owner = k.owner := by
  have howner : h.place.owner = k.place.owner := by rw [hp]
  exact howner

theorem users_of_place_eq (hp : h.place = k.place) : h.users = k.users := by
  have husers : h.place.users = k.place.users := by rw [hp]
  exact husers

theorem perUser_of_place_eq (hp : h.place = k.place) (ho : h.owner ≠ none) :
    h.perUser = k.perUser := by
  have hperUser : h.place.perUser = k.place.perUser := by rw [hp]
  have hk : k.owner ≠ none := by rwa [← owner_of_place_eq hp]
  have hh' : h.owner.isSome = true := Option.isSome_iff_ne_none.2 ho
  have hk' : k.owner.isSome = true := Option.isSome_iff_ne_none.2 hk
  unfold place shape at hperUser
  simpa only [hh', hk', Bool.true_and] using hperUser

end Host

namespace Server

/-- The same hosts are live, and each has its place. -/
def SamePlaces (s t : Server σ β) : Prop :=
  ∀ k, (t.host? k).map Host.place = (s.host? k).map Host.place

theorem SamePlaces.symm {s t : Server σ β} (h : SamePlaces s t) : SamePlaces t s :=
  fun k => (h k).symm

theorem SamePlaces.trans {s t u : Server σ β} (h : SamePlaces s t) (g : SamePlaces t u) :
    SamePlaces s u := fun k => (g k).trans (h k)

/-- A host has the place that it had before. -/
theorem SamePlaces.host? {s t : Server σ β} (h : SamePlaces s t) {k : HostId} {x : Host β}
    (hx : t.host? k = some x) : ∃ y, s.host? k = some y ∧ x.place = y.place := by
  have hk := h k
  rw [hx, Option.map_some] at hk
  obtain ⟨y, hy, hplace⟩ := Option.map_eq_some_iff.1 hk.symm
  exact ⟨y, hy, hplace.symm⟩

/-- A change to one host that keeps its place. -/
theorem samePlaces_modifyHost (s : Server σ β) (id : HostId) {f : Host β → Host β}
    (hf : ∀ h, (f h).place = h.place) : SamePlaces s (s.modifyHost id f) := by
  intro k
  rw [host?_modifyHost]
  split
  · rw [Option.map_map]
    exact congrArg (Option.map · (s.host? k)) (funext hf)
  · rfl

theorem samePlaces_hold (s : Server σ β) (id : HostId) (h : Host β) (blob : Option Blob) :
    SamePlaces s (s.hold id h blob) := samePlaces_modifyHost s id fun _ => rfl

theorem samePlaces_openWindow (s : Server σ β) (id : HostId) : SamePlaces s (s.openWindow id) :=
  samePlaces_modifyHost s id fun _ => rfl

theorem samePlaces_setWindow (s : Server σ β) (id : HostId) (ticks : Nat) (e : StateEvent) :
    SamePlaces s (s.setWindow id ticks e) :=
  samePlaces_modifyHost (s.remember e) id fun _ => rfl

theorem samePlaces_save [StateStore σ] (s : Server σ β) (h : Host β) : SamePlaces s (s.save h) := by
  intro k
  rw [host?_save]

end Server

/-- Code leaves every host in its place. -/
theorem CodeFrame.samePlaces {id : HostId} {s t : Server σ β} (h : CodeFrame id s t) :
    s.SamePlaces t := by
  intro k
  by_cases hk : k = id
  · subst hk
    have hown := congrArg (Option.map fun x : Host β => { x with sink := none }) h.own
    rw [Option.map_map, Option.map_map] at hown
    exact hown
  by_cases hr : k = s.rootOf id
  · subst hr
    have hroot := congrArg (Option.map Host.place) (h.root hk)
    rw [Option.map_map, Option.map_map] at hroot
    exact hroot
  · rw [h.others k hk hr]

/-! ## The state that hosts hold -/

/-- The event tells that a root begins or that a host ends. -/
def StateEvent.ComesOrGoes : StateEvent → Prop
  | begun _ _ _ => True
  | ended _ => True
  | _ => False

namespace Server

/-- The state that a host holds, and the ticks that are left of its window. -/
def held (s : Server σ β) (id : HostId) : Option (Option Blob × Nat) :=
  (s.host? id).map fun h => (h.globalState, h.saveTimeout)

theorem held_of_host? {s : Server σ β} {id : HostId} {h : Host β} (hh : s.host? id = some h) :
    s.held id = some (h.globalState, h.saveTimeout) := by
  rw [held, hh, Option.map_some]

/-- What is held under a number is what the host there holds. -/
theorem eq_of_held {s : Server σ β} {id : HostId} {h : Host β} {v : Option Blob} {k : Nat}
    (hh : s.host? id = some h) (hv : s.held id = some (v, k)) :
    h.globalState = v ∧ h.saveTimeout = k := by
  rw [held_of_host? hh] at hv
  exact Prod.mk.inj (Option.some.inj hv)

/-- A change to a host that does not concern its state. -/
theorem held_modifyHost (s : Server σ β) (id k : HostId) {f : Host β → Host β}
    (hf : ∀ h, ((f h).globalState, (f h).saveTimeout) = (h.globalState, h.saveTimeout)) :
    (s.modifyHost id f).held k = s.held k := by
  unfold held
  rw [host?_modifyHost]
  split
  · rw [Option.map_map]
    exact congrArg (Option.map · (s.host? k)) (funext hf)
  · rfl

/-- A change to one host does not concern the state of another. -/
theorem held_modifyHost_of_ne (s : Server σ β) {id k : HostId} (f : Host β → Host β) (h : id ≠ k) :
    (s.modifyHost id f).held k = s.held k := by
  unfold held
  rw [host?_modifyHost, if_neg h]

variable {s : Server σ β} {k c : HostId}

theorem held_hold_of_ne (hc : k ≠ c) (h : Host β) (blob : Option Blob) :
    (s.hold k h blob).held c = s.held c :=
  held_modifyHost_of_ne s _ hc

theorem held_openWindow_of_ne (hc : k ≠ c) : (s.openWindow k).held c = s.held c :=
  held_modifyHost_of_ne s _ hc

theorem held_setWindow_of_ne (hc : k ≠ c) (ticks : Nat) (e : StateEvent) :
    (s.setWindow k ticks e).held c = s.held c :=
  held_modifyHost_of_ne (s.remember e) _ hc

theorem held_save [StateStore σ] (s : Server σ β) (h : Host β) (c : HostId) :
    (s.save h).held c = s.held c := by
  rw [held, host?_save, ← held]

end Server

section

variable [StateStore σ] {id c : HostId} {s t : Server σ β}

/-- The data of an app is that of the root that the host belongs to. -/
theorem StorageStep.held_eq_of_ne (h : StorageStep id s t) (hc : s.rootOf id ≠ c) :
    t.held c = s.held c := by
  cases h with
  | request hh r file kind shared hs => rfl
  | answer => rfl
  | @keep h name hh hn hw blob => exact Server.held_hold_of_ne hc h blob
  | @save h name hh hn hw blob hr =>
      have hopen := Server.held_openWindow_of_ne
        (s := (s.hold (s.rootOf id) h blob).request (.ofState blob) (.globalState name)) hc
      exact hopen.trans (Server.held_hold_of_ne hc h blob)
  | @refuse h name hh hn hw blob e hr => exact Server.held_hold_of_ne hc h blob

/-- A change of the state of a host that is no root is remembered. -/
theorem StorageStep.held_eq_or_misplaced (h : StorageStep id s t) {k : Host β}
    (hk : s.host? c = some k) (ho : k.owner ≠ none) :
    t.held c = s.held c ∨
      ∃ events, t.chronicle = events ++ s.chronicle ∧ .misplaced c k.name? ∈ events := by
  by_cases hc : s.rootOf id = c
  · subst hc
    have hmem : ∀ {x : Host β} (blob : Option Blob), s.host? (s.rootOf id) = some x →
        .misplaced (s.rootOf id) k.name? ∈ Server.holdEvents (s.rootOf id) x blob := by
      intro x blob hx
      obtain rfl : k = x := Option.some.inj (hk.symm.trans hx)
      exact Server.misplaced_mem_holdEvents ho _ blob
    cases h with
    | request hh r file kind shared hs => exact .inl rfl
    | answer => exact .inl rfl
    | keep hh hn hw blob =>
        exact .inr ⟨_ :: Server.holdEvents _ _ _, rfl, List.mem_cons_of_mem _ (hmem blob hh)⟩
    | save hh hn hw blob hr =>
        exact .inr ⟨_ :: _ :: Server.holdEvents _ _ _, rfl,
          List.mem_cons_of_mem _ (List.mem_cons_of_mem _ (hmem blob hh))⟩
    | refuse hh hn hw blob hr =>
        exact .inr ⟨_ :: Server.holdEvents _ _ _, rfl, List.mem_cons_of_mem _ (hmem blob hh)⟩
  · exact .inl (h.held_eq_of_ne hc)

/-- What code does to the data of an app is remembered after what was done before; no host comes or
goes. -/
theorem StorageStep.chronicle_eq (h : StorageStep id s t) :
    ∃ events, t.chronicle = events ++ s.chronicle ∧ ∀ e ∈ events, ¬ e.ComesOrGoes := by
  have hhold : ∀ (x : Host β) (blob : Option Blob),
      ∀ e ∈ Server.holdEvents (s.rootOf id) x blob, ¬ e.ComesOrGoes := by
    intro x blob e he
    unfold Server.holdEvents at he
    rcases List.mem_cons.1 he with rfl | he
    · exact fun h => h
    · split at he
      · exact absurd he List.not_mem_nil
      · rw [List.mem_singleton.1 he]
        exact fun h => h
  cases h with
  | request hh r file kind shared hs => exact ⟨[_], rfl, by simp [StateEvent.ComesOrGoes]⟩
  | answer => exact ⟨[_], rfl, by simp [StateEvent.ComesOrGoes]⟩
  | @keep x _ hh hn hw blob =>
      refine ⟨_ :: Server.holdEvents _ _ _, rfl, ?_⟩
      exact List.forall_mem_cons.2 ⟨fun h => h, hhold x blob⟩
  | @save x _ hh hn hw blob hr =>
      refine ⟨_ :: _ :: Server.holdEvents _ _ _, rfl, ?_⟩
      exact List.forall_mem_cons.2 ⟨fun h => h, List.forall_mem_cons.2 ⟨fun h => h, hhold x blob⟩⟩
  | @refuse x _ hh hn hw blob e hr =>
      refine ⟨_ :: Server.holdEvents _ _ _, rfl, ?_⟩
      exact List.forall_mem_cons.2 ⟨fun h => h, hhold x blob⟩

/-- A step of code concerns the data of an app, or it leaves that data, the store and the chronicle
as they are. -/
theorem CodeStep.storage_or_silent (h : CodeStep id s t) :
    StorageStep id s t ∨
      (∀ c, t.held c = s.held c) ∧ t.store = s.store ∧ t.chronicle = s.chronicle := by
  cases h with
  | record a => exact .inr ⟨fun _ => rfl, rfl, rfl⟩
  | define hh f => exact .inr ⟨fun c => s.held_modifyHost id c fun _ => rfl, rfl, rfl⟩
  | delete hh module name => exact .inr ⟨fun c => s.held_modifyHost id c fun _ => rfl, rfl, rfl⟩
  | setGlobal module name b => exact .inr ⟨fun c => s.held_modifyHost id c fun _ => rfl, rfl, rfl⟩
  | defer label => exact .inr ⟨fun c => s.held_modifyHost id c fun _ => rfl, rfl, rfl⟩
  | force index producer => exact .inr ⟨fun c => s.held_modifyHost id c fun _ => rfl, rfl, rfl⟩
  | markImported hh module hm =>
      exact .inr ⟨fun c => s.held_modifyHost id c fun _ => rfl, rfl, rfl⟩
  | configure hh hr x => exact .inr ⟨fun c => s.held_modifyHost id c fun _ => rfl, rfl, rfl⟩
  | storage h => exact .inl h

end

/-! ## The invariant -/

namespace Server

/-- What hosts, apps and bindings say of each other agrees. -/
structure Arena (suits : String → Module → Prop) (s : Server σ β) : Prop where
  keyed : s.Keyed
  lt_nextId : ∀ {id : HostId} {h : Host β}, s.host? id = some h → id < s.nextId
  unnamed : ∃ h, s.host? HostId.unnamed = some h ∧ h.module = none ∧ h.owner = none
  app : ∀ {name : String} {id : HostId}, s.app? name = some id →
    ∃ h m, s.host? id = some h ∧ h.owner = none ∧ h.module = some m ∧ suits name m
  app_inj : ∀ {name name' : String} {id : HostId}, s.app? name = some id →
    s.app? name' = some id → name = name'
  user : ∀ {id : HostId} {h : Host β} {u : String} {c : HostId}, s.host? id = some h →
    h.users[u]? = some c → ∃ k, s.host? c = some k ∧ k.owner = some { parent := id, user := u }
  owner : ∀ {c : HostId} {k : Host β} {o : Ownership}, s.host? c = some k → k.owner = some o →
    ∃ h, s.host? o.parent = some h ∧ h.users[o.user]? = some c ∧ o.parent < c ∧
      h.module = k.module
  perUser : ∀ {c : HostId} {k : Host β}, s.host? c = some k → k.owner ≠ none → k.perUser = false
  quiet : ∀ {c : HostId} {k : Host β}, s.host? c = some k → k.owner ≠ none →
    .misplaced c k.name? ∉ s.chronicle → k.globalState = none ∧ k.saveTimeout = 0
  bound : ∀ {b : Event × EventBinding}, b ∈ s.dispatch.subscriptions → (s.host? b.2.host).isSome

variable {suits : String → Module → Prop} {s t : Server σ β}

/-- A new server has one host, the one that belongs to no app. -/
theorem eq_of_host?_new {store : σ} {settings : Settings} {id : HostId} {h : Host β}
    (hh : (new store settings : Server σ β).host? id = some h) :
    id = HostId.unnamed ∧ h = Host.ofModule HostId.unnamed none false none := by
  unfold new host? at hh
  dsimp only at hh
  rw [Std.ExtTreeMap.getElem?_insert] at hh
  split at hh
  · rename_i hid
    exact ⟨(compare_eq_iff_eq.1 hid).symm, (Option.some.inj hh).symm⟩
  · simp at hh

/-- A new server has one host, no apps and no bindings. -/
theorem arena_new (store : σ) (settings : Settings) :
    Arena suits (new store settings : Server σ β) := by
  have hhost : ∀ {id : HostId} {h : Host β}, (new store settings : Server σ β).host? id = some h →
      id = HostId.unnamed ∧ h = Host.ofModule HostId.unnamed none false none := eq_of_host?_new
  exact
    { keyed := by
        intro id h hh
        obtain ⟨rfl, rfl⟩ := hhost hh
        rfl
      lt_nextId := by
        intro id h hh
        obtain ⟨rfl, rfl⟩ := hhost hh
        exact Nat.zero_lt_one
      unnamed := ⟨Host.ofModule HostId.unnamed none false none,
        by simp [new, host?], rfl, rfl⟩
      app := by
        intro name id h
        simp [new, app?] at h
      app_inj := by
        intro name name' id h
        simp [new, app?] at h
      user := by
        intro id h u c hh hu
        obtain ⟨rfl, rfl⟩ := hhost hh
        simp [Host.ofModule] at hu
      owner := by
        intro c k o hk ho
        obtain ⟨rfl, rfl⟩ := hhost hk
        simp [Host.ofModule] at ho
      perUser := by
        intro c k hk ho
        obtain ⟨rfl, rfl⟩ := hhost hk
        rfl
      quiet := by
        intro c k hk ho
        obtain ⟨rfl, rfl⟩ := hhost hk
        exact absurd rfl ho
      bound := by
        intro b hb
        exact absurd hb List.not_mem_nil }

/-- The arena depends on the places of hosts, on the state of those that are no roots, and on what
is bound. -/
theorem Arena.of_samePlaces (ha : Arena suits s) (hp : SamePlaces s t) (hnext : s.nextId ≤ t.nextId)
    (happs : t.apps = s.apps) (hsuffix : s.chronicle <:+ t.chronicle)
    (hheld : ∀ {c : HostId} {k : Host β}, s.host? c = some k → k.owner ≠ none →
      t.held c = s.held c ∨ .misplaced c k.name? ∈ t.chronicle)
    (hbound : ∀ {b : Event × EventBinding}, b ∈ t.dispatch.subscriptions →
      (s.host? b.2.host).isSome) : Arena suits t where
  keyed := by
    intro id h hh
    obtain ⟨h', hh', hplace⟩ := hp.host? hh
    exact (Host.id_of_place_eq hplace).trans (ha.keyed hh')
  lt_nextId := by
    intro id h hh
    obtain ⟨h', hh', _⟩ := hp.host? hh
    exact lt_of_lt_of_le (ha.lt_nextId hh') hnext
  unnamed := by
    obtain ⟨h, hh, hm, ho⟩ := ha.unnamed
    obtain ⟨h', hh', hplace⟩ := hp.symm.host? hh
    exact ⟨h', hh', (Host.module_of_place_eq hplace).symm.trans hm,
      (Host.owner_of_place_eq hplace).symm.trans ho⟩
  app := by
    intro name id h
    obtain ⟨h, m, hh, ho, hm, hs⟩ := ha.app (by simpa only [app?, happs] using h)
    obtain ⟨h', hh', hplace⟩ := hp.symm.host? hh
    exact ⟨h', m, hh', (Host.owner_of_place_eq hplace).symm.trans ho,
      (Host.module_of_place_eq hplace).symm.trans hm, hs⟩
  app_inj := by
    intro name name' id h h'
    exact ha.app_inj (by simpa only [app?, happs] using h) (by simpa only [app?, happs] using h')
  user := by
    intro id h u c hh hu
    obtain ⟨h', hh', hplace⟩ := hp.host? hh
    rw [Host.users_of_place_eq hplace] at hu
    obtain ⟨k, hk, ho⟩ := ha.user hh' hu
    obtain ⟨k', hk', hplace'⟩ := hp.symm.host? hk
    exact ⟨k', hk', (Host.owner_of_place_eq hplace').symm.trans ho⟩
  owner := by
    intro c k o hk ho
    obtain ⟨k', hk', hplace⟩ := hp.host? hk
    rw [Host.owner_of_place_eq hplace] at ho
    obtain ⟨h, hh, hu, hlt, hm⟩ := ha.owner hk' ho
    obtain ⟨h', hh', hplace'⟩ := hp.symm.host? hh
    refine ⟨h', hh', ?_, hlt, ?_⟩
    · rw [← Host.users_of_place_eq hplace']
      exact hu
    · rw [← Host.module_of_place_eq hplace', hm, Host.module_of_place_eq hplace]
  perUser := by
    intro c k hk ho
    obtain ⟨k', hk', hplace⟩ := hp.host? hk
    rw [Host.perUser_of_place_eq hplace ho]
    exact ha.perUser hk' (by rwa [← Host.owner_of_place_eq hplace])
  quiet := by
    intro c k hk ho hnot
    obtain ⟨k', hk', hplace⟩ := hp.host? hk
    rw [Host.owner_of_place_eq hplace] at ho
    rw [Host.name?_of_place_eq hplace] at hnot
    have hsame := (hheld hk' ho).resolve_right hnot
    rw [held_of_host? hk, held_of_host? hk'] at hsame
    obtain ⟨hstate, hleft⟩ := Prod.mk.inj (Option.some.inj hsame)
    rw [hstate, hleft]
    exact ha.quiet hk' ho fun hmem => hnot (hsuffix.subset hmem)
  bound := by
    intro b hb
    have hlive := hbound hb
    obtain ⟨h, hh⟩ := Option.isSome_iff_exists.1 hlive
    obtain ⟨h', hh', _⟩ := hp.symm.host? hh
    rw [hh']
    rfl

/-! ## Families -/

variable {id k : HostId} {depth : Nat}

/-- A host is in the family of another if it is that host or in the family of one of its user
hosts. -/
theorem mem_familyTo_succ :
    k ∈ s.familyTo (depth + 1) id ↔
      ∃ h, s.host? id = some h ∧ ((∃ c ∈ h.userIds, k ∈ s.familyTo depth c) ∨ k = id) := by
  rw [familyTo]
  cases hh : s.host? id with
  | none => simp
  | some h => simp [List.mem_flatMap]

/-- A live host is in its own family. -/
theorem Arena.mem_family_self (ha : Arena suits s) {h : Host β} (hh : s.host? id = some h) :
    id ∈ s.family id := by
  obtain ⟨n, hn⟩ := Nat.exists_eq_add_of_lt (ha.lt_nextId hh)
  unfold family
  rw [hn, mem_familyTo_succ]
  exact ⟨h, hh, .inr rfl⟩

/-- A host comes into a family as one of the user hosts of a member. -/
theorem user_of_mem_familyTo (hk : k ∈ s.familyTo depth id) :
    k = id ∨ ∃ q h, q ∈ s.familyTo depth id ∧ s.host? q = some h ∧
      ∃ u : String, h.users[u]? = some k := by
  induction depth generalizing id with
  | zero => exact absurd hk List.not_mem_nil
  | succ depth ih =>
      obtain ⟨h, hh, ⟨c, hc, hmem⟩ | rfl⟩ := mem_familyTo_succ.1 hk
      · right
        rcases ih hmem with rfl | ⟨q, h', hq, hh', hu⟩
        · exact ⟨id, h, mem_familyTo_succ.2 ⟨h, hh, .inr rfl⟩, hh, Host.mem_userIds.1 hc⟩
        · exact ⟨q, h', mem_familyTo_succ.2 ⟨h, hh, .inl ⟨c, hc, hq⟩⟩, hh', hu⟩
      · exact .inl rfl

/-- With a host all the hosts of its users are in a family.  Numbers grow from a host to the hosts
of its users, so a depth that reaches up to the next number is enough. -/
theorem Arena.mem_familyTo_of_user (ha : Arena suits s) (hdepth : s.nextId ≤ id + depth)
    (hk : k ∈ s.familyTo depth id) {h : Host β} (hh : s.host? k = some h) {u : String} {c : HostId}
    (hu : h.users[u]? = some c) : c ∈ s.familyTo depth id := by
  induction depth generalizing id with
  | zero => exact absurd hk List.not_mem_nil
  | succ depth ih =>
      have hlt : ∀ {p q : HostId} {x : Host β} {v : String}, s.host? p = some x →
          x.users[v]? = some q → p < q ∧ ∃ y, s.host? q = some y := by
        intro p q x v hx hv
        obtain ⟨y, hy, hown⟩ := ha.user hx hv
        obtain ⟨_, _, _, hlt, _⟩ := ha.owner hy hown
        exact ⟨hlt, y, hy⟩
      obtain ⟨x, hx, ⟨d, hd, hmem⟩ | rfl⟩ := mem_familyTo_succ.1 hk
      · obtain ⟨v, hv⟩ := Host.mem_userIds.1 hd
        have hdeep : s.nextId ≤ d + depth :=
          calc s.nextId ≤ id + (depth + 1) := hdepth
            _ = id + 1 + depth := by rw [Nat.add_right_comm, Nat.add_assoc]
            _ ≤ d + depth := Nat.add_le_add_right (hlt hx hv).1 depth
        exact mem_familyTo_succ.2 ⟨x, hx, .inl ⟨d, hd, ih hdeep hmem⟩⟩
      · obtain rfl : h = x := Option.some.inj (hh.symm.trans hx)
        obtain ⟨hkc, y, hy⟩ := hlt hh hu
        cases depth with
        | zero => exact absurd (Nat.lt_of_lt_of_le (ha.lt_nextId hy) hdepth) (Nat.not_lt.2 hkc)
        | succ depth =>
            exact mem_familyTo_succ.2 ⟨h, hh, .inl ⟨c, Host.mem_userIds.2 ⟨u, hu⟩,
              mem_familyTo_succ.2 ⟨y, hy, .inr rfl⟩⟩⟩

/-- A host that belongs to no other is only in its own family. -/
theorem Arena.eq_of_mem_family (ha : Arena suits s) (hk : k ∈ s.family id) {h : Host β}
    (hh : s.host? k = some h) (ho : h.owner = none) : k = id := by
  rcases user_of_mem_familyTo hk with hself | ⟨q, x, _, hx, u, hu⟩
  · exact hself
  · obtain ⟨y, hy, hown⟩ := ha.user hx hu
    obtain rfl : h = y := Option.some.inj (hh.symm.trans hy)
    rw [ho] at hown
    cases hown

/-- A host and its root belong to the same app. -/
theorem Arena.appOf_rootOf (ha : Arena suits s) {h : Host β} (hh : s.host? id = some h) :
    s.appOf (s.rootOf id) = s.appOf id := by
  cases ho : h.owner with
  | none => rw [rootOf_eq_self_of_owner_eq_none hh ho]
  | some o =>
      obtain ⟨p, hp, _, _, hm⟩ := ha.owner hh ho
      rw [rootOf_eq_of_owner_eq_some hh ho, appOf_of_host? hp, appOf_of_host? hh, Host.name?,
        Host.name?, hm]

/-- What holds of roots, and of the hosts of their users with them, holds of all live hosts. -/
theorem Arena.host_induction (ha : Arena suits s) {P : HostId → Host β → Prop}
    (root : ∀ {c x}, s.host? c = some x → x.owner = none → P c x)
    (user : ∀ {c x o p}, s.host? c = some x → x.owner = some o → s.host? o.parent = some p →
      p.users[o.user]? = some c → p.module = x.module → P o.parent p → P c x)
    {c : HostId} {x : Host β} (hx : s.host? c = some x) : P c x := by
  -- the host that another belongs to has a lower number
  induction c using Nat.strongRecOn generalizing x with
  | ind c ih =>
      cases ho : x.owner with
      | none => exact root hx ho
      | some o =>
          obtain ⟨p, hp, hu, hlt, hm⟩ := ha.owner hx ho
          exact user hx ho hp hu hm (ih o.parent hlt hp)

/-- Every live host is a root of its module, or belongs to one. -/
theorem Arena.exists_root (ha : Arena suits s) {c : HostId} {x : Host β}
    (hx : s.host? c = some x) :
    ∃ r y, s.host? r = some y ∧ y.owner = none ∧ y.name? = x.name? := by
  refine ha.host_induction
    (P := fun _ x => ∃ r y, s.host? r = some y ∧ y.owner = none ∧ y.name? = x.name?) ?_ ?_ hx
  · intro c x hx ho
    exact ⟨c, x, hx, ho, rfl⟩
  · rintro c x o p _ _ _ _ hm ⟨r, y, hy, hroot, hn⟩
    refine ⟨r, y, hy, hroot, ?_⟩
    rw [hn, Host.name?, Host.name?, hm]

/-! ## Hosts come and go -/

/-- The new numbers of a server are not in use. -/
theorem Arena.host?_nextId (ha : Arena suits s) : s.host? s.nextId = none := by
  cases hh : s.host? s.nextId with
  | none => rfl
  | some h => exact absurd (ha.lt_nextId hh) (lt_irrefl _)

/-- A new root host is apart from the others. -/
theorem host?_beginRoot (s : Server σ β) (module : Option Module) (perUser : Bool)
    (state : Option Blob) (sink : Option Actor) (k : HostId) :
    (s.beginRoot module perUser state sink).host? k =
      if s.nextId = k then some (s.newRoot module perUser state sink) else s.host? k :=
  s.host?_insertHost (s.newRoot module perUser state sink) k

/-- A new root host keeps the arena. -/
theorem Arena.beginRoot (ha : Arena suits s) (module : Option Module) (perUser : Bool)
    (state : Option Blob) (sink : Option Actor) :
    Arena suits (s.beginRoot module perUser state sink) := by
  have hnew := ha.host?_nextId
  have hhost := s.host?_beginRoot module perUser state sink
  have hold : ∀ {k : HostId} {h : Host β}, s.host? k = some h →
      (s.beginRoot module perUser state sink).host? k = some h := by
    intro k h hh
    rw [hhost, if_neg (Nat.ne_of_gt (ha.lt_nextId hh)), hh]
  -- a host that is there afterwards is the new one, or was there before
  have hcases : ∀ {k : HostId} {h : Host β},
      (s.beginRoot module perUser state sink).host? k = some h →
      (k = s.nextId ∧ h = s.newRoot module perUser state sink) ∨ s.host? k = some h := by
    intro k h hh
    rw [hhost] at hh
    split at hh
    · rename_i hk
      exact .inl ⟨hk.symm, (Option.some.inj hh).symm⟩
    · exact .inr hh
  exact
    { keyed := by
        intro k h hh
        rcases hcases hh with ⟨rfl, rfl⟩ | hh'
        · rfl
        · exact ha.keyed hh'
      lt_nextId := by
        intro k h hh
        rcases hcases hh with ⟨rfl, rfl⟩ | hh'
        · exact Nat.lt_succ_self _
        · exact Nat.lt_succ_of_lt (ha.lt_nextId hh')
      unnamed := by
        obtain ⟨h, hh, hm, ho⟩ := ha.unnamed
        exact ⟨h, hold hh, hm, ho⟩
      app := by
        intro name k h
        obtain ⟨x, m, hx, hrest⟩ := ha.app h
        exact ⟨x, m, hold hx, hrest⟩
      app_inj := ha.app_inj
      user := by
        intro k h u c hh hu
        rcases hcases hh with ⟨rfl, rfl⟩ | hh'
        · simp [newRoot, Host.ofModule] at hu
        · obtain ⟨x, hx, ho⟩ := ha.user hh' hu
          exact ⟨x, hold hx, ho⟩
      owner := by
        intro c k o hk ho
        rcases hcases hk with ⟨rfl, rfl⟩ | hk'
        · simp [newRoot, Host.ofModule] at ho
        · obtain ⟨x, hx, hrest⟩ := ha.owner hk' ho
          exact ⟨x, hold hx, hrest⟩
      perUser := by
        intro c k hk ho
        rcases hcases hk with ⟨rfl, rfl⟩ | hk'
        · exact absurd rfl ho
        · exact ha.perUser hk' ho
      quiet := by
        intro c k hk ho hnot
        rcases hcases hk with ⟨rfl, rfl⟩ | hk'
        · exact absurd rfl ho
        · apply ha.quiet hk' ho
          intro hmem
          apply hnot
          unfold Server.beginRoot
          cases module with
          | none => exact hmem
          | some m => exact List.mem_cons_of_mem _ hmem
      bound := by
        intro b hb
        obtain ⟨h, hh⟩ := Option.isSome_iff_exists.1 (ha.bound hb)
        rw [hold hh]
        rfl }

/-- The host that a server has for a user is apart from the others of the same root. -/
theorem Arena.host?_beginUser (ha : Arena suits s) {root : HostId} {h : Host β}
    (hh : s.host? root = some h) (user : String) (sink : Actor) (k : HostId) :
    (s.beginUser root h user sink).host? k =
      if root = k then some (h.addUser user s.nextId)
      else if s.nextId = k then some (h.forUser s.nextId user sink) else s.host? k := by
  have hne : s.nextId ≠ root := Nat.ne_of_gt (ha.lt_nextId hh)
  have hfirst := s.host?_insertHost (h.forUser s.nextId user sink)
  have hsecond := (s.insertHost (h.forUser s.nextId user sink)).host?_modifyHost root k
    (·.addUser user s.nextId)
  show ((s.insertHost (h.forUser s.nextId user sink)).modifyHost root
    (·.addUser user s.nextId)).host? k = _
  rw [hsecond, hfirst]
  by_cases hk : root = k
  · subst hk
    have hid : (h.forUser s.nextId user sink).id ≠ root := hne
    rw [if_pos rfl, if_pos rfl, if_neg hid, hh, Option.map_some]
  · rw [if_neg hk, if_neg hk]
    rfl

/-- A host that was there stays when the host of a user begins, and loses no user. -/
theorem Arena.host?_beginUser_of_host? (ha : Arena suits s) {root : HostId} {h x : Host β}
    {user : String} (hh : s.host? root = some h) (hnew : h.users[user]? = none) (sink : Actor)
    (hx : s.host? k = some x) :
    ∃ y, (s.beginUser root h user sink).host? k = some y ∧ y.SameButUsers x ∧
      ∀ {u : String} {c : HostId}, x.users[u]? = some c → y.users[u]? = some c := by
  rw [ha.host?_beginUser hh]
  by_cases hk : root = k
  · subst hk
    obtain rfl : h = x := Option.some.inj (hh.symm.trans hx)
    refine ⟨_, if_pos rfl, h.sameButUsers_addUser user s.nextId, ?_⟩
    intro u c hu
    rw [Host.users_addUser, if_neg, hu]
    rintro rfl
    rw [hnew] at hu
    cases hu
  · rw [if_neg hk, if_neg (Nat.ne_of_gt (ha.lt_nextId hx))]
    exact ⟨x, hx, .refl x, fun hu => hu⟩

/-- A host that is there after the host of a user has begun is the new one, or was there before with
the same users but one. -/
theorem Arena.host?_of_host?_beginUser (ha : Arena suits s) {root : HostId} {h x : Host β}
    {user : String} {sink : Actor} (hh : s.host? root = some h)
    (hx : (s.beginUser root h user sink).host? k = some x) :
    (k = s.nextId ∧ x = h.forUser s.nextId user sink) ∨
      ∃ y, s.host? k = some y ∧ x.SameButUsers y ∧
        ∀ {u : String} {c : HostId}, x.users[u]? = some c →
          y.users[u]? = some c ∨ k = root ∧ u = user ∧ c = s.nextId := by
  rw [ha.host?_beginUser hh] at hx
  split at hx
  · rename_i hk
    subst hk
    obtain rfl := Option.some.inj hx
    refine .inr ⟨h, hh, h.sameButUsers_addUser user s.nextId, ?_⟩
    intro u c hu
    rw [Host.users_addUser] at hu
    split at hu
    · rename_i hu'
      exact .inr ⟨rfl, hu'.symm, (Option.some.inj hu).symm⟩
    · exact .inl hu
  · split at hx
    · rename_i hk
      exact .inl ⟨hk.symm, (Option.some.inj hx).symm⟩
    · exact .inr ⟨x, hx, .refl x, fun hu => .inl hu⟩

/-- A new user host keeps the arena. -/
theorem Arena.beginUser (ha : Arena suits s) {root : HostId} {h : Host β} {user : String}
    (hh : s.host? root = some h) (hnew : h.users[user]? = none) (sink : Actor) :
    Arena suits (s.beginUser root h user sink) where
  keyed := by
    intro k x hx
    rcases ha.host?_of_host?_beginUser hh hx with ⟨rfl, rfl⟩ | ⟨y, hy, hxy, _⟩
    · rfl
    · exact hxy.id_eq.trans (ha.keyed hy)
  lt_nextId := by
    intro k x hx
    rcases ha.host?_of_host?_beginUser hh hx with ⟨rfl, rfl⟩ | ⟨y, hy, _⟩
    · exact Nat.lt_succ_self _
    · exact Nat.lt_succ_of_lt (ha.lt_nextId hy)
  unnamed := by
    obtain ⟨x, hx, hm, ho⟩ := ha.unnamed
    obtain ⟨y, hy, hyx, _⟩ := ha.host?_beginUser_of_host? hh hnew sink hx
    exact ⟨y, hy, hyx.module_eq.trans hm, hyx.owner_eq.trans ho⟩
  app := by
    intro name k hk
    obtain ⟨x, m, hx, ho, hm, hs⟩ := ha.app hk
    obtain ⟨y, hy, hyx, _⟩ := ha.host?_beginUser_of_host? hh hnew sink hx
    exact ⟨y, m, hy, hyx.owner_eq.trans ho, hyx.module_eq.trans hm, hs⟩
  app_inj := ha.app_inj
  user := by
    intro k x u c hx hu
    rcases ha.host?_of_host?_beginUser hh hx with ⟨rfl, rfl⟩ | ⟨y, hy, _, husers⟩
    · simp [Host.forUser] at hu
    · rcases husers hu with hu' | ⟨rfl, rfl, rfl⟩
      · obtain ⟨z, hz, ho⟩ := ha.user hy hu'
        obtain ⟨z', hz', hzz, _⟩ := ha.host?_beginUser_of_host? hh hnew sink hz
        exact ⟨z', hz', hzz.owner_eq.trans ho⟩
      · -- the new user
        have hid : h.id = k := ha.keyed hh
        refine ⟨h.forUser s.nextId u sink, ?_, ?_⟩
        · rw [ha.host?_beginUser hh, if_neg (Nat.ne_of_lt (ha.lt_nextId hh)), if_pos rfl]
        · simp [Host.forUser, hid]
  owner := by
    intro c k o hk ho
    rcases ha.host?_of_host?_beginUser hh hk with ⟨rfl, rfl⟩ | ⟨y, hy, hky, _⟩
    · -- the new host belongs to the one that its user has been added to
      have hid : h.id = root := ha.keyed hh
      obtain rfl : { parent := root, user } = o := by
        simpa [Host.forUser, hid] using ho
      refine ⟨h.addUser user s.nextId, ?_, ?_, ha.lt_nextId hh, rfl⟩
      · rw [ha.host?_beginUser hh, if_pos rfl]
      · rw [Host.users_addUser, if_pos rfl]
    · obtain ⟨z, hz, hu, hlt, hm⟩ := ha.owner hy (hky.owner_eq.symm.trans ho)
      obtain ⟨z', hz', hzz, husers⟩ := ha.host?_beginUser_of_host? hh hnew sink hz
      refine ⟨z', hz', husers hu, hlt, ?_⟩
      rw [hzz.module_eq, hky.module_eq, hm]
  perUser := by
    intro c k hk ho
    rcases ha.host?_of_host?_beginUser hh hk with ⟨rfl, rfl⟩ | ⟨y, hy, hky, _⟩
    · rfl
    · rw [hky.owner_eq] at ho
      exact hky.perUser_eq.trans (ha.perUser hy ho)
  quiet := by
    intro c k hk ho hnot
    rcases ha.host?_of_host?_beginUser hh hk with ⟨rfl, rfl⟩ | ⟨y, hy, hky, _⟩
    · exact ⟨rfl, rfl⟩
    · rw [hky.owner_eq] at ho
      rw [hky.name?_eq] at hnot
      rw [hky.globalState_eq, hky.saveTimeout_eq]
      exact ha.quiet hy ho hnot
  bound := by
    intro b hb
    obtain ⟨x, hx⟩ := Option.isSome_iff_exists.1 (ha.bound hb)
    obtain ⟨y, hy, _⟩ := ha.host?_beginUser_of_host? hh hnew sink hx
    rw [hy]
    rfl

/-- A host that is there after another has gone was there before, with the same users but the one
who has gone, and is not in the family that has gone. -/
theorem host?_of_host?_discard {h x : Host β} (hx : (s.discard id h).host? k = some x) :
    k ∉ s.family id ∧ ∃ y, s.host? k = some y ∧ x.SameButUsers y ∧
      ∀ {u : String} {c : HostId}, x.users[u]? = some c →
        h.owner ≠ some { parent := k, user := u } ∧ y.users[u]? = some c := by
  rw [host?_discard] at hx
  split at hx
  · cases hx
  · rename_i hk
    obtain ⟨y, hy, rfl⟩ := Option.map_eq_some_iff.1 hx
    exact ⟨hk, y, hy, y.sameButUsers_without k h.owner, Host.users_without.1⟩

/-- A host out of the family that goes stays. -/
theorem host?_discard_of_not_mem {h y : Host β} (hy : s.host? k = some y) (hk : k ∉ s.family id) :
    (s.discard id h).host? k = some (y.without k h.owner) := by
  rw [host?_discard, if_neg hk, hy, Option.map_some]

/-- A user who stays has a host that stays: it is neither the one that goes nor in its family. -/
theorem Arena.user_not_mem_family (ha : Arena suits s) {h y : Host β} {u : String} {c : HostId}
    (hh : s.host? id = some h) (hy : s.host? k = some y) (hu : y.users[u]? = some c)
    (hk : k ∉ s.family id) (hne : h.owner ≠ some { parent := k, user := u }) :
    c ∉ s.family id := by
  intro hmem
  obtain ⟨z, hz, ho⟩ := ha.user hy hu
  rcases user_of_mem_familyTo hmem with rfl | ⟨q, w, hq, hw, v, hv⟩
  · obtain rfl : h = z := Option.some.inj (hh.symm.trans hz)
    exact hne ho
  · obtain ⟨z', hz', ho'⟩ := ha.user hw hv
    obtain rfl : z = z' := Option.some.inj (hz.symm.trans hz')
    rw [ho] at ho'
    obtain ⟨rfl, rfl⟩ := Ownership.mk.inj (Option.some.inj ho')
    exact hk hq

/-- Removing a host with its family keeps the arena. -/
theorem Arena.discard (ha : Arena suits s) {h : Host β} (hh : s.host? id = some h)
    (hid : id ≠ HostId.unnamed) (happ : ∀ name, s.app? name ≠ some id) :
    Arena suits (s.discard id h) := by
  have happs : ∀ name, (s.discard id h).app? name = s.app? name := by
    intro name
    rw [discard_eq]
    rfl
  exact
    { keyed := by
        intro k x hx
        obtain ⟨_, y, hy, hxy, _⟩ := host?_of_host?_discard hx
        exact hxy.id_eq.trans (ha.keyed hy)
      lt_nextId := by
        intro k x hx
        obtain ⟨_, y, hy, _⟩ := host?_of_host?_discard hx
        rw [discard_eq]
        exact ha.lt_nextId hy
      unnamed := by
        obtain ⟨x, hx, hm, ho⟩ := ha.unnamed
        have hout : HostId.unnamed ∉ s.family id := fun hmem =>
          hid (ha.eq_of_mem_family hmem hx ho).symm
        have hsame := x.sameButUsers_without HostId.unnamed h.owner
        exact ⟨_, host?_discard_of_not_mem hx hout, hsame.module_eq.trans hm,
          hsame.owner_eq.trans ho⟩
      app := by
        intro name k hk
        rw [happs] at hk
        obtain ⟨x, m, hx, ho, hm, hs⟩ := ha.app hk
        have hout : k ∉ s.family id := by
          intro hmem
          rw [ha.eq_of_mem_family hmem hx ho] at hk
          exact happ name hk
        have hsame := x.sameButUsers_without k h.owner
        exact ⟨_, m, host?_discard_of_not_mem hx hout, hsame.owner_eq.trans ho,
          hsame.module_eq.trans hm, hs⟩
      app_inj := by
        intro name name' k hk hk'
        rw [happs] at hk hk'
        exact ha.app_inj hk hk'
      user := by
        intro k x u c hx hu
        obtain ⟨hout, y, hy, _, husers⟩ := host?_of_host?_discard hx
        obtain ⟨hne, hu'⟩ := husers hu
        obtain ⟨z, hz, ho⟩ := ha.user hy hu'
        have hcout := ha.user_not_mem_family hh hy hu' hout hne
        exact ⟨_, host?_discard_of_not_mem hz hcout,
          (z.sameButUsers_without c h.owner).owner_eq.trans ho⟩
      owner := by
        intro c k o hk ho
        obtain ⟨hout, y, hy, hky, _⟩ := host?_of_host?_discard hk
        obtain ⟨z, hz, hu, hlt, hm⟩ := ha.owner hy (hky.owner_eq.symm.trans ho)
        have hparent : o.parent ∉ s.family id := by
          intro hmem
          exact hout (ha.mem_familyTo_of_user (Nat.le_add_left _ _) hmem hz hu)
        have hne : h.owner ≠ some { parent := o.parent, user := o.user } := by
          intro hown
          obtain ⟨z', hz', hu', _⟩ := ha.owner hh hown
          obtain rfl : z = z' := Option.some.inj (hz.symm.trans hz')
          obtain rfl : c = id := Option.some.inj (hu.symm.trans hu')
          exact hout (ha.mem_family_self hh)
        refine ⟨_, host?_discard_of_not_mem hz hparent, Host.users_without.2 ⟨hne, hu⟩, hlt, ?_⟩
        rw [(z.sameButUsers_without o.parent h.owner).module_eq, hky.module_eq, hm]
      perUser := by
        intro c k hk ho
        obtain ⟨_, y, hy, hky, _⟩ := host?_of_host?_discard hk
        rw [hky.owner_eq] at ho
        exact hky.perUser_eq.trans (ha.perUser hy ho)
      quiet := by
        intro c k hk ho hnot
        obtain ⟨_, y, hy, hky, _⟩ := host?_of_host?_discard hk
        rw [hky.owner_eq] at ho
        rw [chronicle_discard, hky.name?_eq] at hnot
        rw [hky.globalState_eq, hky.saveTimeout_eq]
        exact ha.quiet hy ho fun hmem => hnot (List.mem_append_right _ hmem)
      bound := by
        intro b hb
        rw [dispatch_discard] at hb
        obtain ⟨hmem, hout⟩ := List.mem_filter.1 hb
        obtain ⟨x, hx⟩ := Option.isSome_iff_exists.1 (ha.bound hmem)
        have hout' : b.2.host ∉ s.family id := by simpa using hout
        rw [host?_discard_of_not_mem hx hout']
        rfl }

/-- Striking an app off keeps the arena. -/
theorem Arena.eraseApp (ha : Arena suits s) (name : String) : Arena suits (s.eraseApp name) where
  keyed := ha.keyed
  lt_nextId := ha.lt_nextId
  unnamed := ha.unnamed
  app := by
    intro n k hk
    rw [app?_eraseApp] at hk
    split at hk
    · cases hk
    · exact ha.app hk
  app_inj := by
    intro n n' k hk hk'
    rw [app?_eraseApp] at hk hk'
    split at hk
    · cases hk
    · split at hk'
      · cases hk'
      · exact ha.app_inj hk hk'
  user := ha.user
  owner := ha.owner
  perUser := ha.perUser
  quiet := ha.quiet
  bound := ha.bound

/-- Entering a root host as an app keeps the arena, if it is no app already. -/
theorem Arena.insertApp (ha : Arena suits s) {h : Host β} {m : Module} {name : String}
    (hh : s.host? id = some h) (ho : h.owner = none) (hm : h.module = some m)
    (hsuits : suits name m) (happ : ∀ n, s.app? n ≠ some id) :
    Arena suits (s.insertApp name id) where
  keyed := ha.keyed
  lt_nextId := ha.lt_nextId
  unnamed := ha.unnamed
  app := by
    intro n k hk
    rw [app?_insertApp] at hk
    split at hk
    · rename_i hn
      subst hn
      obtain rfl := Option.some.inj hk
      exact ⟨h, m, hh, ho, hm, hsuits⟩
    · exact ha.app hk
  app_inj := by
    intro n n' k hk hk'
    rw [app?_insertApp] at hk hk'
    by_cases hn : name = n
    · by_cases hn' : name = n'
      · exact hn.symm.trans hn'
      · rw [if_pos hn] at hk
        rw [if_neg hn', ← Option.some.inj hk] at hk'
        exact absurd hk' (happ n')
    · by_cases hn' : name = n'
      · rw [if_pos hn'] at hk'
        rw [if_neg hn, ← Option.some.inj hk'] at hk
        exact absurd hk (happ n)
      · rw [if_neg hn] at hk
        rw [if_neg hn'] at hk'
        exact ha.app_inj hk hk'
  user := ha.user
  owner := ha.owner
  perUser := ha.perUser
  quiet := ha.quiet
  bound := ha.bound

/-! ## Windows -/

/-- Writing an event down keeps the arena. -/
theorem Arena.remember (ha : Arena suits s) (e : StateEvent) : Arena suits (s.remember e) :=
  ha.of_samePlaces (fun _ => rfl) le_rfl rfl (List.suffix_cons _ _) (fun _ _ => .inl rfl) ha.bound

/-- Moving a window that is open keeps the arena: a window is open only at a root, or at a host that
has been misplaced. -/
theorem Arena.setWindow (ha : Arena suits s) {h : Host β} (hh : s.host? id = some h)
    (hw : 0 < h.saveTimeout) (ticks : Nat) (e : StateEvent) :
    Arena suits (s.setWindow id ticks e) := by
  have hplaces : SamePlaces (s.remember e) (s.setWindow id ticks e) :=
    samePlaces_setWindow s id ticks e
  apply (ha.remember e).of_samePlaces hplaces le_rfl rfl List.suffix_rfl
  · intro c k hk ho
    by_cases hc : id = c
    · subst hc
      right
      obtain rfl : h = k := Option.some.inj (hh.symm.trans hk)
      by_contra hnot
      have hclosed := ((ha.remember e).quiet hk ho hnot).2
      omega
    · exact .inl (held_setWindow_of_ne hc ticks e)
  · exact ha.bound

/-- Giving the state of a host to the store keeps the arena. -/
theorem Arena.save [StateStore σ] (ha : Arena suits s) (h : Host β) : Arena suits (s.save h) := by
  unfold Server.save
  split
  · exact ha
  · exact ha.of_samePlaces (fun _ => rfl) le_rfl rfl (List.suffix_cons _ _) (fun _ _ => .inl rfl)
      ha.bound

end Server

/-! ## Steps keep the arena -/

variable [StateStore σ] {suits : String → Module → Prop} {id : HostId} {s t : Server σ β}

open Server

theorem CodeStep.arena (ha : Arena suits s) (h : CodeStep id s t) : Arena suits t := by
  have hframe := h.frame
  have hbound : ∀ {b : Event × EventBinding}, b ∈ t.dispatch.subscriptions →
      (s.host? b.2.host).isSome := by
    intro b hb
    rcases h.mem_subscriptions hb with hmem | ⟨hid, hlive⟩
    · exact ha.bound hmem
    · rw [hid]
      exact hlive
  rcases h.storage_or_silent with hstorage | ⟨hheld, _, hchronicle⟩
  · obtain ⟨_, hchronicle, _⟩ := hstorage.chronicle_eq
    apply ha.of_samePlaces hframe.samePlaces (le_of_eq hframe.nextId.symm) hframe.apps
      ⟨_, hchronicle.symm⟩ ?_ hbound
    intro c k hk ho
    rcases hstorage.held_eq_or_misplaced hk ho with hheld | ⟨events, hevents, hmem⟩
    · exact .inl hheld
    · right
      rw [hevents]
      exact List.mem_append_left _ hmem
  · apply ha.of_samePlaces hframe.samePlaces (le_of_eq hframe.nextId.symm) hframe.apps ?_
      (fun _ _ => .inl (hheld _)) hbound
    rw [hchronicle]

/-- Every step of a server keeps the arena. -/
theorem Step.arena (ha : Arena suits s) (h : Step suits s t) : Arena suits t := by
  cases h with
  | code h => exact h.arena ha
  | skipId =>
      exact ha.of_samePlaces (fun _ => rfl) (Nat.le_succ _) rfl List.suffix_rfl
        (fun _ _ => .inl rfl) ha.bound
  | setStopped stop =>
      exact ha.of_samePlaces (fun _ => rfl) le_rfl rfl List.suffix_rfl (fun _ _ => .inl rfl)
        ha.bound
  | setSink id f =>
      exact ha.of_samePlaces (samePlaces_modifyHost s id fun _ => rfl) le_rfl rfl List.suffix_rfl
        (fun _ _ => .inl (s.held_modifyHost id _ fun _ => rfl)) ha.bound
  | beginRoot module perUser sink => exact ha.beginRoot module perUser _ sink
  | beginUser hh hu sink => exact ha.beginUser hh hu sink
  | discard hh hid happ => exact ha.discard hh hid happ
  | eraseApp name => exact ha.eraseApp name
  | insertApp hh ho hm hsuits happ => exact ha.insertApp hh ho hm hsuits happ
  | tickIdle hh hw => exact ha.remember _
  | tickWait hh hw => exact ha.setWindow hh (by omega) _ _
  | tickSave hh hw => exact (ha.setWindow hh (by omega) _ _).save _
  | closeIdle hh hw => exact ha.remember _
  | closeSave hh hw => exact (ha.setWindow hh hw _ _).save _

/-- Any number of steps of a server keep the arena. -/
theorem Steps.arena (ha : Arena suits s) (h : Steps suits s t) : Arena suits t := by
  induction h with
  | refl => exact ha
  | tail _ hstep ih => exact hstep.arena ih

/-- What every step in an arena keeps, any number of steps keep. -/
theorem Steps.induction {P : Server σ β → Prop}
    (hstep : ∀ s t, Arena suits s → P s → Step suits s t → P t) (ha : Arena suits s) (hp : P s)
    (h : Steps suits s t) : P t := by
  induction h with
  | refl => exact hp
  | tail hbefore hlast ih => exact hstep _ _ (Steps.arena ha hbefore) ih hlast

end ScriptHost
