import Mathlib
import ScriptHost.Proofs.Operations
/-!
# Bindings and definitions

An event hook is bound to its event when the main module of a host defines it, and unbound when it
is removed or when the host goes.  So every binding stands for a function that is defined.  The
converse holds except for one thing: removing a function of another module takes the binding of the
main module's function of the same name with it.

## Main statements

* `Server.Justified`, `Step.justified`: every binding stands for a function that is defined.
* `Server.Mirrors`: the bindings of a host are its event hooks, each of them once.
* `Server.StrayDelete`: the removal that leaves an event hook unbound.
* `Server.mirrors_or_strayed_of_reachable`: only such a removal parts bindings and definitions.
-/

namespace ScriptHost

variable {σ β : Type}

open Server

/-! ## Definitions -/

namespace Host

variable {h : Host β}

/-- What the main module has defined after a definition. -/
theorem isSome_function?_insertFunction (h : Host β) (g : StoredFunction β) (f : String) :
    ((h.insertFunction g).function? f).isSome ↔
      (moduleKey g.module = h.mainKey ∧ g.name = f) ∨ (h.function? f).isSome := by
  show (((h.insertFunction g).definitionsOf h.mainKey).functions[f]?).isSome ↔ _
  unfold insertFunction function?
  rw [definitionsOf_modifyDefinitions]
  by_cases hkey : moduleKey g.module = h.mainKey
  · rw [if_pos hkey]
    dsimp only
    rw [Std.ExtTreeMap.getElem?_insert]
    by_cases hname : g.name = f
    · simp [hkey, hname]
    · simp [hname]
  · simp [hkey]

/-- What the main module has defined after a removal. -/
theorem isSome_function?_eraseFunction (h : Host β) (module : Option String) (name f : String) :
    ((h.eraseFunction module name).function? f).isSome ↔
      ¬ (moduleKey module = h.mainKey ∧ name = f) ∧ (h.function? f).isSome := by
  show (((h.eraseFunction module name).definitionsOf h.mainKey).functions[f]?).isSome ↔ _
  unfold eraseFunction function?
  rw [definitionsOf_modifyDefinitions]
  by_cases hkey : moduleKey module = h.mainKey
  · rw [if_pos hkey]
    dsimp only
    rw [Std.ExtTreeMap.getElem?_erase]
    by_cases hname : name = f
    · simp [hkey, hname]
    · simp [hname]
  · simp [hkey]

/-- Variables are not functions. -/
theorem function?_setGlobal (h : Host β) (module : Option String) (name : String) (b : Binding)
    (f : String) : (h.setGlobal module name b).function? f = h.function? f := by
  show ((h.setGlobal module name b).definitionsOf h.mainKey).functions[f]? = _
  unfold setGlobal function?
  rw [definitionsOf_modifyDefinitions]
  split <;> rfl

end Host

namespace Server

variable {s : Server σ β} {id k : HostId} {f : String}

/-- The main module of a host has defined a function of a name. -/
def Defines (s : Server σ β) (id : HostId) (f : String) : Prop :=
  ∃ h, s.host? id = some h ∧ (h.function? f).isSome

theorem defines_of_host? {h : Host β} (hh : s.host? id = some h) :
    s.Defines id f ↔ (h.function? f).isSome := by
  constructor
  · rintro ⟨x, hx, hf⟩
    obtain rfl : h = x := Option.some.inj (hh.symm.trans hx)
    exact hf
  · exact fun hf => ⟨h, hh, hf⟩

/-- A change to a host that is about other things than functions. -/
theorem defines_modifyHost {g : Host β → Host β}
    (hg : ∀ h f, ((g h).function? f) = h.function? f) :
    (s.modifyHost id g).Defines k f ↔ s.Defines k f := by
  unfold Defines
  rw [host?_modifyHost]
  split
  · constructor
    · rintro ⟨x, hx, hf⟩
      obtain ⟨y, hy, rfl⟩ := Option.map_eq_some_iff.1 hx
      rw [hg] at hf
      exact ⟨y, hy, hf⟩
    · rintro ⟨y, hy, hf⟩
      refine ⟨g y, by rw [hy, Option.map_some], ?_⟩
      rw [hg]
      exact hf
  · rfl

theorem defines_define {h : Host β} (hh : s.host? id = some h) (g : StoredFunction β) :
    (s.define id h g).Defines k f ↔
      (k = id ∧ moduleKey g.module = h.mainKey ∧ g.name = f) ∨ s.Defines k f := by
  have hhost : (s.define id h g).host? k = (s.modifyHost id (·.insertFunction g)).host? k := rfl
  by_cases hk : k = id
  · subst hk
    rw [host?_modifyHost_self, hh, Option.map_some] at hhost
    rw [defines_of_host? hhost, defines_of_host? hh, Host.isSome_function?_insertFunction]
    simp
  · rw [host?_modifyHost, if_neg (Ne.symm hk)] at hhost
    unfold Defines
    rw [hhost]
    simp [hk]

theorem defines_delete {h : Host β} (hh : s.host? id = some h) (module : Option String)
    (name : String) :
    (s.delete id module name).Defines k f ↔
      ¬ (k = id ∧ moduleKey module = h.mainKey ∧ name = f) ∧ s.Defines k f := by
  have hhost : (s.delete id module name).host? k =
      (s.modifyHost id (·.eraseFunction module name)).host? k := rfl
  by_cases hk : k = id
  · subst hk
    rw [host?_modifyHost_self, hh, Option.map_some] at hhost
    rw [defines_of_host? hhost, defines_of_host? hh, Host.isSome_function?_eraseFunction]
    simp
  · rw [host?_modifyHost, if_neg (Ne.symm hk)] at hhost
    unfold Defines
    rw [hhost]
    simp [hk]

theorem defines_discard (s : Server σ β) (id : HostId) (h : Host β) :
    (s.discard id h).Defines k f ↔ k ∉ s.family id ∧ s.Defines k f := by
  unfold Defines
  rw [host?_discard]
  by_cases hk : k ∈ s.family id
  · simp [hk]
  · have hsame : ∀ x : Host β, (x.without k h.owner).function? f = x.function? f := by
      intro x
      unfold Host.without
      split
      · rfl
      · split <;> rfl
    rw [if_neg hk]
    constructor
    · rintro ⟨x, hx, hf⟩
      obtain ⟨y, hy, rfl⟩ := Option.map_eq_some_iff.1 hx
      rw [hsame] at hf
      exact ⟨hk, y, hy, hf⟩
    · rintro ⟨_, y, hy, hf⟩
      refine ⟨_, by rw [hy, Option.map_some], ?_⟩
      rw [hsame]
      exact hf

end Server

/-! ## Subscriptions -/

namespace EventDispatch

variable {d : EventDispatch} {id : HostId} {name : String} {b : Event × EventBinding}

theorem mem_bindName_iff : b ∈ (d.bindName id name).subscriptions ↔
    b ∈ d.subscriptions ∨
      HookKind.ofName name = .event b.1 ∧ b.2 = { host := id, function := name } := by
  obtain ⟨e, x⟩ := b
  unfold bindName bind
  split
  · rename_i e' he
    rw [he]
    split
    · rename_i hbound
      constructor
      · exact .inl
      · rintro (hmem | ⟨he', rfl⟩)
        · exact hmem
        · obtain rfl := HookKind.event.inj he'
          exact mem_bindings.1 (isBound_iff.1 hbound)
    · simp only [List.mem_append, List.mem_singleton, Prod.mk.injEq, HookKind.event.injEq]
      exact or_congr_right (and_congr_left fun _ => eq_comm)
  · rename_i hno
    constructor
    · exact .inl
    · rintro (hmem | ⟨he, _⟩)
      · exact hmem
      · exact absurd he (hno e)

theorem mem_unbindName_iff : b ∈ (d.unbindName id name).subscriptions ↔
    b ∈ d.subscriptions ∧
      ¬ (HookKind.ofName name = .event b.1 ∧ b.2 = { host := id, function := name }) := by
  obtain ⟨e, x⟩ := b
  unfold unbindName unbind
  split
  · rename_i e' he
    rw [he, List.mem_filter, bne_iff_ne, Ne, Prod.mk.injEq, HookKind.event.injEq]
    exact and_congr_right fun _ => not_congr (and_congr_left fun _ => eq_comm)
  · rename_i hno
    constructor
    · exact fun hmem => ⟨hmem, fun h => hno e h.1⟩
    · exact fun h => h.1

theorem nodup_bindName (hd : d.subscriptions.Nodup) : (d.bindName id name).subscriptions.Nodup := by
  unfold bindName bind
  split
  · split
    · exact hd
    · rename_i e _ hbound
      have hnot : (e, { host := id, function := name }) ∉ d.subscriptions := by
        intro hmem
        exact hbound (isBound_iff.2 (mem_bindings.2 hmem))
      rw [List.nodup_append]
      refine ⟨hd, List.nodup_singleton _, ?_⟩
      rintro a ha c hc rfl
      rw [List.mem_singleton.1 hc] at ha
      exact hnot ha
  · exact hd

theorem nodup_unbindName (hd : d.subscriptions.Nodup) :
    (d.unbindName id name).subscriptions.Nodup := by
  unfold unbindName unbind
  split
  · exact hd.filter _
  · exact hd

end EventDispatch

/-! ## What a step does to definitions and bindings -/

variable [StateStore σ] {suits : String → Module → Prop} {s t : Server σ β} {id : HostId}

omit [StateStore σ] in
/-- New hosts have defined nothing. -/
theorem Server.Arena.defines_beginRoot (ha : Arena suits s) (module : Option Module)
    (perUser : Bool) (state : Option Blob) (sink : Option Actor) (k : HostId) (f : String) :
    (s.beginRoot module perUser state sink).Defines k f ↔ s.Defines k f := by
  unfold Defines
  rw [host?_beginRoot]
  by_cases hk : s.nextId = k
  · subst hk
    rw [if_pos rfl, ha.host?_nextId]
    simp [newRoot, Host.ofModule, Host.function?, Host.definitionsOf]
  · rw [if_neg hk]

omit [StateStore σ] in
theorem Server.Arena.defines_beginUser (ha : Arena suits s) {root : HostId} {h : Host β}
    (hh : s.host? root = some h) (user : String) (sink : Actor) (k : HostId) (f : String) :
    (s.beginUser root h user sink).Defines k f ↔ s.Defines k f := by
  unfold Defines
  rw [ha.host?_beginUser hh]
  by_cases hroot : root = k
  · subst hroot
    rw [if_pos rfl, hh]
    constructor
    · rintro ⟨x, hx, hf⟩
      obtain rfl := Option.some.inj hx
      exact ⟨h, rfl, hf⟩
    · rintro ⟨x, hx, hf⟩
      obtain rfl := Option.some.inj hx
      exact ⟨h.addUser user s.nextId, rfl, hf⟩
  · by_cases hk : s.nextId = k
    · subst hk
      rw [if_neg hroot, if_pos rfl, ha.host?_nextId]
      simp [Host.forUser, Host.function?, Host.definitionsOf]
    · rw [if_neg hroot, if_neg hk]

omit [StateStore σ] in
theorem Server.defines_setWindow (e : StateEvent) (ticks : Nat) (k : HostId) (f : String) :
    (s.setWindow id ticks e).Defines k f ↔ s.Defines k f :=
  defines_modifyHost (s := s.remember e) fun _ _ => rfl

theorem Server.defines_save (x : Host β) (k : HostId) (f : String) :
    (s.save x).Defines k f ↔ s.Defines k f := by
  unfold Defines
  rw [host?_save]

theorem Server.dispatch_save (s : Server σ β) (x : Host β) : (s.save x).dispatch = s.dispatch := by
  rw [Server.save_eq]

/-- A server with the definitions and the bindings of another. -/
def Server.SameHooks (s t : Server σ β) : Prop :=
  t.dispatch = s.dispatch ∧ ∀ k f, t.Defines k f ↔ s.Defines k f

/-- Data of an app has nothing to do with its hooks. -/
theorem StorageStep.sameHooks (h : StorageStep id s t) : SameHooks s t := by
  have hhold : ∀ (k : HostId) (x : Host β) (blob : Option Blob), SameHooks s (s.hold k x blob) :=
    fun k x blob =>
      ⟨rfl, fun _ _ => defines_modifyHost (s := s) (g := (·.hold blob)) fun _ _ => rfl⟩
  cases h with
  | request hh r file kind shared hs => exact ⟨rfl, fun _ _ => Iff.rfl⟩
  | answer => exact ⟨rfl, fun _ _ => Iff.rfl⟩
  | @keep x n hh hn hw blob => exact hhold _ x blob
  | @save x n hh hn hw blob hr =>
      refine ⟨rfl, fun k f => ?_⟩
      let u := (s.hold (s.rootOf id) x blob).request (.ofState blob) (.globalState n)
      have hopen : (u.openWindow (s.rootOf id)).Defines k f ↔ u.Defines k f :=
        defines_modifyHost (g := (·.setTimeout u.settings.saveDebounceTicks)) fun _ _ => rfl
      exact hopen.trans ((hhold _ x blob).2 k f)
  | @refuse x n hh hn hw blob e hr => exact hhold _ x blob

/-- In a step a function is defined, or one is removed, or a host goes, or all hooks stay. -/
theorem Step.hooks_or (ha : Arena suits s) (h : Step suits s t) :
    (∃ id h g, s.host? id = some h ∧ t = s.define id h g) ∨
      (∃ id h module name, s.host? id = some h ∧ t = s.delete id module name) ∨
      (∃ id h, t = s.discard id h) ∨ SameHooks s t := by
  have hmodify : ∀ (id : HostId) (g : Host β → Host β),
      (∀ x f, (g x).function? f = x.function? f) → SameHooks s (s.modifyHost id g) :=
    fun id g hg => ⟨rfl, fun _ _ => defines_modifyHost hg⟩
  cases h with
  | @code id _ h =>
      cases h with
      | define hh f => exact .inl ⟨id, _, f, hh, rfl⟩
      | delete hh module name => exact .inr (.inl ⟨id, _, module, name, hh, rfl⟩)
      | record a => exact .inr (.inr (.inr ⟨rfl, fun _ _ => Iff.rfl⟩))
      | setGlobal module name b =>
          exact .inr (.inr (.inr (hmodify id _ fun x f => x.function?_setGlobal module name b f)))
      | defer label => exact .inr (.inr (.inr (hmodify id _ fun _ _ => rfl)))
      | force index producer => exact .inr (.inr (.inr (hmodify id _ fun _ _ => rfl)))
      | markImported hh module hm => exact .inr (.inr (.inr (hmodify id _ fun _ _ => rfl)))
      | configure hh hr c => exact .inr (.inr (.inr (hmodify id _ fun _ _ => rfl)))
      | storage h => exact .inr (.inr (.inr h.sameHooks))
  | @discard id h hh hid happ => exact .inr (.inr (.inl ⟨id, h, rfl⟩))
  | beginRoot module perUser sink =>
      exact .inr (.inr (.inr ⟨rfl, ha.defines_beginRoot module perUser _ sink⟩))
  | beginUser hh hu sink => exact .inr (.inr (.inr ⟨rfl, ha.defines_beginUser hh _ sink⟩))
  | setSink id f => exact .inr (.inr (.inr (hmodify id _ fun _ _ => rfl)))
  | tickWait hh hw => exact .inr (.inr (.inr ⟨rfl, defines_setWindow _ _⟩))
  | tickSave hh hw =>
      exact .inr (.inr (.inr ⟨dispatch_save _ _,
        fun k f => (defines_save _ k f).trans (defines_setWindow _ _ k f)⟩))
  | closeSave hh hw =>
      exact .inr (.inr (.inr ⟨dispatch_save _ _,
        fun k f => (defines_save _ k f).trans (defines_setWindow _ _ k f)⟩))
  | _ => exact .inr (.inr (.inr ⟨rfl, fun _ _ => Iff.rfl⟩))

/-! ## Every binding stands for a hook -/

namespace Server

/-- Every binding is made once, and stands for a function that is defined and whose name is that of
a hook for the event. -/
structure Justified (s : Server σ β) : Prop where
  nodup : s.dispatch.subscriptions.Nodup
  hook : ∀ b ∈ s.dispatch.subscriptions,
    s.Defines b.2.host b.2.function ∧ HookKind.ofName b.2.function = .event b.1

omit [StateStore σ] in
theorem justified_new (store : σ) (settings : Settings) :
    Justified (new store settings : Server σ β) where
  nodup := List.nodup_nil
  hook _ hb := absurd hb List.not_mem_nil

omit [StateStore σ] in
/-- The bindings after a definition. -/
theorem mem_subscriptions_define {h : Host β} {g : StoredFunction β} {b : Event × EventBinding} :
    b ∈ (s.define id h g).dispatch.subscriptions ↔
      b ∈ s.dispatch.subscriptions ∨ moduleKey g.module = h.mainKey ∧
        HookKind.ofName g.name = .event b.1 ∧ b.2 = { host := id, function := g.name } := by
  unfold Server.define
  dsimp only
  split
  · rename_i hkey
    rw [EventDispatch.mem_bindName_iff]
    simp [hkey]
  · rename_i hkey
    simp [hkey]

omit [StateStore σ] in
/-- The bindings after a removal. -/
theorem mem_subscriptions_delete {module : Option String} {name : String}
    {b : Event × EventBinding} :
    b ∈ (s.delete id module name).dispatch.subscriptions ↔
      b ∈ s.dispatch.subscriptions ∧
        ¬ (HookKind.ofName name = .event b.1 ∧ b.2 = { host := id, function := name }) :=
  EventDispatch.mem_unbindName_iff

omit [StateStore σ] in
/-- The bindings after a host has gone. -/
theorem mem_subscriptions_discard {h : Host β} {b : Event × EventBinding} :
    b ∈ (s.discard id h).dispatch.subscriptions ↔
      b ∈ s.dispatch.subscriptions ∧ b.2.host ∉ s.family id := by
  rw [dispatch_discard]
  unfold EventDispatch.unbindHosts
  rw [List.mem_filter]
  simp

end Server

/-- Every step keeps every binding justified. -/
theorem Step.justified (ha : Arena suits s) (hj : Justified s) (h : Step suits s t) :
    Justified t := by
  rcases h.hooks_or ha with ⟨id, x, g, hx, rfl⟩ | ⟨id, x, module, name, hx, rfl⟩ | ⟨id, x, rfl⟩ |
    ⟨hdispatch, hdefines⟩
  · exact
      { nodup := by
          unfold Server.define
          dsimp only
          split
          · exact EventDispatch.nodup_bindName hj.nodup
          · exact hj.nodup
        hook := by
          intro b hb
          rw [defines_define hx]
          rcases mem_subscriptions_define.1 hb with hold | ⟨hkey, hname, hb'⟩
          · exact ⟨.inr (hj.hook b hold).1, (hj.hook b hold).2⟩
          · rw [hb']
            exact ⟨.inl ⟨rfl, hkey, rfl⟩, hname⟩ }
  · exact
      { nodup := EventDispatch.nodup_unbindName hj.nodup
        hook := by
          intro b hb
          obtain ⟨hold, hkept⟩ := mem_subscriptions_delete.1 hb
          obtain ⟨hdefined, hname⟩ := hj.hook b hold
          rw [defines_delete hx]
          refine ⟨⟨?_, hdefined⟩, hname⟩
          -- the binding of what has been removed is gone
          rintro ⟨hid, _, rfl⟩
          exact hkept ⟨hname, by rw [← hid]⟩ }
  · exact
      { nodup := by
          rw [dispatch_discard]
          exact hj.nodup.filter _
        hook := by
          intro b hb
          obtain ⟨hold, hout⟩ := mem_subscriptions_discard.1 hb
          rw [defines_discard]
          exact ⟨⟨hout, (hj.hook b hold).1⟩, (hj.hook b hold).2⟩ }
  · exact
      { nodup := by rw [hdispatch]; exact hj.nodup
        hook := by
          intro b hb
          rw [hdispatch] at hb
          rw [hdefines]
          exact hj.hook b hb }

/-! ## Every hook is bound -/

namespace Server

/-- For every live host, the functions that are bound to an event are those that the main module has
defined and whose names are those of hooks for the event; each is bound once. -/
def Mirrors (s : Server σ β) : Prop :=
  ∀ id h f e, s.host? id = some h →
    (s.dispatch.bindings e).count { host := id, function := f } =
      if (h.function? f).isSome ∧ HookKind.ofName f = .event e then 1 else 0

omit [StateStore σ] in
/-- No function is bound to an event twice. -/
theorem Justified.nodup_bindings (hj : Justified s) (e : Event) :
    (s.dispatch.bindings e).Nodup := by
  unfold EventDispatch.bindings
  apply List.Nodup.map_on _ (hj.nodup.filter _)
  rintro ⟨e₁, b₁⟩ h₁ ⟨e₂, b₂⟩ h₂ hb
  have he₁ := (List.mem_filter.1 h₁).2
  have he₂ := (List.mem_filter.1 h₂).2
  rw [beq_iff_eq] at he₁ he₂
  exact Prod.ext (he₁.trans he₂.symm) hb

omit [StateStore σ] in
/-- A binding is made at most once. -/
theorem Justified.count_bindings (hj : Justified s) (e : Event) (b : EventBinding) :
    (s.dispatch.bindings e).count b = if (e, b) ∈ s.dispatch.subscriptions then 1 else 0 := by
  by_cases hmem : (e, b) ∈ s.dispatch.subscriptions
  · rw [if_pos hmem]
    exact List.count_eq_one_of_mem (hj.nodup_bindings e) (EventDispatch.mem_bindings.2 hmem)
  · rw [if_neg hmem]
    exact List.count_eq_zero.2 fun hb => hmem (EventDispatch.mem_bindings.1 hb)

omit [StateStore σ] in
/-- Bindings mirror definitions if every hook that is defined is bound. -/
theorem Justified.mirrors_iff (hj : Justified s) :
    s.Mirrors ↔ ∀ id f e, s.Defines id f → HookKind.ofName f = .event e →
      (e, { host := id, function := f }) ∈ s.dispatch.subscriptions := by
  constructor
  · rintro hm id f e ⟨h, hh, hf⟩ hname
    have hone := hm id h f e hh
    rw [if_pos ⟨hf, hname⟩, hj.count_bindings] at hone
    by_contra hnot
    rw [if_neg hnot] at hone
    cases hone
  · intro hbound id h f e hh
    rw [hj.count_bindings]
    by_cases hmem : (e, { host := id, function := f }) ∈ s.dispatch.subscriptions
    · obtain ⟨hf, hname⟩ := hj.hook _ hmem
      rw [if_pos hmem, if_pos ⟨(defines_of_host? hh).1 hf, hname⟩]
    · rw [if_neg hmem, if_neg]
      rintro ⟨hf, hname⟩
      exact hmem (hbound id f e ((defines_of_host? hh).2 hf) hname)

/-- A function of another module is removed that has the name of a hook which the main module has
defined. -/
def StrayDelete (s t : Server σ β) : Prop :=
  ∃ id h module f e, s.host? id = some h ∧ (h.function? f).isSome ∧
    HookKind.ofName f = .event e ∧ moduleKey module ≠ h.mainKey ∧ t = s.delete id module f

omit [StateStore σ] in
/-- Such a removal leaves the hook unbound. -/
theorem StrayDelete.not_mirrors (hj : Justified t) (h : StrayDelete s t) : ¬ t.Mirrors := by
  obtain ⟨id, x, module, f, e, hx, hf, hname, hkey, rfl⟩ := h
  intro hm
  have hdefined : (s.delete id module f).Defines id f := by
    rw [defines_delete hx]
    exact ⟨fun hmain => hkey hmain.2.1, x, hx, hf⟩
  have hbound := hj.mirrors_iff.1 hm id f e hdefined hname
  exact (mem_subscriptions_delete.1 hbound).2 ⟨hname, rfl⟩

end Server

/-- Bindings go on mirroring definitions in every step but such a removal. -/
theorem Step.mirrors (ha : Arena suits s) (hj : Justified s) (hm : s.Mirrors) (h : Step suits s t)
    (hstray : ¬ StrayDelete s t) : t.Mirrors := by
  rw [(h.justified ha hj).mirrors_iff]
  intro id f e hf hname
  have hold := hj.mirrors_iff.1 hm
  rcases h.hooks_or ha with ⟨id', x, g, hx, rfl⟩ | ⟨id', x, module, name, hx, rfl⟩ |
    ⟨id', x, rfl⟩ | ⟨hdispatch, hdefines⟩
  · rw [mem_subscriptions_define]
    rcases (defines_define hx g).1 hf with ⟨rfl, hkey, rfl⟩ | hf
    · exact .inr ⟨hkey, hname, rfl⟩
    · exact .inl (hold id f e hf hname)
  · obtain ⟨hmain, hdefined⟩ := (defines_delete hx module name).1 hf
    rw [mem_subscriptions_delete]
    refine ⟨hold id f e hdefined hname, ?_⟩
    rintro ⟨_, hb⟩
    obtain ⟨rfl, rfl⟩ := EventBinding.mk.inj hb
    -- either the hook itself has been removed, or the removal was a stray one
    by_cases hkey : moduleKey module = x.mainKey
    · exact hmain ⟨rfl, hkey, rfl⟩
    · exact hstray ⟨id, x, module, f, e, hx, (defines_of_host? hx).1 hdefined, hname, hkey, rfl⟩
  · obtain ⟨hout, hf⟩ := (defines_discard s id' x).1 hf
    exact mem_subscriptions_discard.2 ⟨hold id f e hf hname, hout⟩
  · rw [hdispatch]
    exact hold id f e ((hdefines id f).1 hf) hname

namespace Server

/-- Whenever a hook is found unbound after some steps, a stray removal was among them. -/
theorem mirrors_or_strayed (ha : Arena suits s) (hj : Justified s) (hm : s.Mirrors)
    (h : Steps suits s t) :
    Justified t ∧ (t.Mirrors ∨ ∃ u v, Steps suits s u ∧ StrayDelete u v ∧ Steps suits v t) := by
  induction h with
  | refl => exact ⟨hj, .inl hm⟩
  | @tail u v hbefore hstep ih =>
      obtain ⟨hj', hcases⟩ := ih
      have ha' := Steps.arena ha hbefore
      refine ⟨hstep.justified ha' hj', ?_⟩
      by_cases hstray : StrayDelete u v
      · exact .inr ⟨u, v, hbefore, hstray, .refl⟩
      · rcases hcases with hm' | ⟨x, y, hx, hxy, hy⟩
        · exact .inl (hstep.mirrors ha' hj' hm' hstray)
        · exact .inr ⟨x, y, hx, hxy, hy.tail hstep⟩

/-- In every reachable server each binding is made once and stands for a hook that is defined.
Where bindings mirror definitions, they still do so after a step just if the step is no stray
removal, and an operation that parts them has made such a removal. -/
theorem mirrors_or_strayed_of_reachable {allowed : Catalogue → Prop} (hs : Reachable allowed s) :
    (∀ e, ∀ b ∈ s.dispatch.bindings e, (s.dispatch.bindings e).count b = 1 ∧
      s.Defines b.host b.function ∧ HookKind.ofName b.function = .event e) ∧
    (s.Mirrors → ∀ t, Step (fun _ _ => True) s t → (t.Mirrors ↔ ¬ StrayDelete s t)) ∧
    (s.Mirrors → ∀ (co : Collaborators β) (op : Operation β), ((op.run co).exec s).Mirrors ∨
      ∃ u v, Steps (fun _ _ => True) s u ∧ StrayDelete u v ∧
        Steps (fun _ _ => True) v ((op.run co).exec s)) := by
  have hfollows : ∀ c, allowed c → c.Follows fun _ _ => True := fun _ _ _ _ _ => trivial
  obtain ⟨ha, hj⟩ := hs.induction (P := Justified) hfollows justified_new
    fun _ _ ha hj hstep => hstep.justified ha hj
  refine ⟨?_, ?_, ?_⟩
  · intro e b hb
    have hmem := EventDispatch.mem_bindings.1 hb
    obtain ⟨hdefined, hname⟩ := hj.hook _ hmem
    exact ⟨by rw [hj.count_bindings, if_pos hmem], hdefined, hname⟩
  · intro hm t hstep
    exact ⟨fun hm' hstray => hstray.not_mirrors (hstep.justified ha hj) hm',
      hstep.mirrors ha hj hm⟩
  · intro hm co op
    have hco : co.catalogue.Follows fun _ _ => True := fun _ _ _ => trivial
    exact (mirrors_or_strayed ha hj hm (op.steps hco ha)).2

/-- An evaluator for which every module defines a hook for ticks in the module `app`. -/
def hookEvaluator : Evaluator Unit where
  runModule _ _ :=
    .ask (.define { name := "__on_tick", module := some "app", parameters := [], body := () })
      fun _ => .done (.ok .null)
  callFunction _ _ _ := .done (.ok .null)
  accepts f arguments := f.acceptsArity arguments
  produce _ _ := .null

/-- The catalogue of one app. -/
def appCatalogue : Catalogue :=
  (MemoryModules.ofList [{ name := "app", code := some "" }]).catalogue

/-- The hook of the app is bound. -/
theorem mirrors_app :
    let co := Collaborators.plain hookEvaluator appCatalogue
    let s : Server MemoryStore Unit := Operation.runAll co [.addApp "app" .server] (.new ∅ {})
    Reachable (fun _ => True) s ∧ (s.dispatch.bindings .tick).count ⟨1, "__on_tick"⟩ = 1 ∧
      s.Defines 1 "__on_tick" ∧ HookKind.ofName "__on_tick" = .event .tick := by
  intro co s
  have hs : Reachable (fun _ => True) s := .runAll trivial _ (.new _ _)
  have hb : (⟨1, "__on_tick"⟩ : EventBinding) ∈ s.dispatch.bindings .tick := by decide +kernel
  exact ⟨hs, (mirrors_or_strayed_of_reachable hs).1 .tick _ hb⟩

/-- After the hook's name has been removed from a library that the app does not even have, the hook
is defined as before, but not bound. -/
theorem strayed_app :
    let co := Collaborators.plain hookEvaluator appCatalogue
    let s : Server MemoryStore Unit := Operation.runAll co
      [.addApp "app" .server, .delete 1 (some "lib") "__on_tick"] (.new ∅ {})
    Reachable (fun _ => True) s ∧ s.Defines 1 "__on_tick" ∧
      HookKind.ofName "__on_tick" = .event .tick ∧ s.dispatch.bindings .tick = [] ∧
      ¬ s.Mirrors := by
  intro co s
  have hs : Reachable (fun _ => True) s := .runAll trivial _ (.new _ _)
  have hlive : (s.host? 1).isSome := by decide +kernel
  have hdefined : (s.host? 1).any fun h => (h.function? "__on_tick").isSome := by decide +kernel
  have hname : HookKind.ofName "__on_tick" = .event .tick := by decide +kernel
  have hnone : s.dispatch.bindings .tick = [] := by decide +kernel
  obtain ⟨h, hh⟩ := Option.isSome_iff_exists.1 hlive
  have hf : (h.function? "__on_tick").isSome := by rwa [hh] at hdefined
  refine ⟨hs, ⟨h, hh, hf⟩, hname, hnone, ?_⟩
  intro hm
  have hone := hm 1 h "__on_tick" .tick hh
  rw [hnone, if_pos ⟨hf, hname⟩] at hone
  cases hone

end Server

end ScriptHost
