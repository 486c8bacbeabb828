import Mathlib
import ScriptHost.Proofs.CallPaths
import ScriptHost.Proofs.Family
import ScriptHost.Proofs.Keeping
import ScriptHost.Proofs.Pausing
/-!
# Closing a host

Closing a host goes through its family, each host after the hosts of its users.  At the turn of a
host its close hook is called, if the host has one then and the hook accepts no arguments.  Then the
host is swept up after, unless it serves a user: its markers are removed, and if its window is open
it is shut and the state is saved.

Code may do anything meanwhile, but hosts neither come nor go, so that the family stays the one that
it was at first.  A root is the last one of its family, so that whatever hooks of the family have
given as the state of the app has been given to the store when its turn is over.

## Main statements

* `Server.Named`, `Step.named`: functions are kept under their names.
* `Server.HookTurn`, `Server.SweepTurn`, `Server.Closing`: the turns of the hosts that are closed.
* `ServerM.closeOne_turn`, `ServerM.closing_forM`: what closing comes to.
* `Server.Carries`, `Server.Closing.carries`: states that were accepted are in memory and still to be
  saved, or saved.
* `Server.Delivers`, `Server.Arena.closing_delivers`: in the end they are saved.
* `Server.Closes`, `closes_of_reachable`: what closing makes of a reachable server.
-/

namespace ScriptHost

variable {σ β : Type} {suits : String → Module → Prop}

open Server ServerM

/-! ## Functions and their names -/

/-- The functions of a host are kept under their names. -/
def Host.Named (h : Host β) : Prop :=
  ∀ key (name : String) (f : StoredFunction β),
    (h.definitionsOf key).functions[name]? = some f → f.name = name

namespace Host.Named

variable {h : Host β}

theorem function?_eq (hn : h.Named) {name : String} {f : StoredFunction β}
    (hf : h.function? name = some f) : f.name = name :=
  hn h.mainKey name f hf

/-- A host that has defined nothing. -/
theorem of_definitions_eq_empty (hd : h.definitions = ∅) : h.Named := by
  intro key name f hf
  unfold Host.definitionsOf at hf
  rw [hd] at hf
  simp at hf

theorem of_definitions_eq {k : Host β} (hk : k.Named) (hd : h.definitions = k.definitions) :
    h.Named := by
  intro key name f hf
  unfold Host.definitionsOf at hf
  rw [hd] at hf
  exact hk key name f hf

/-- A change to what one module has defined. -/
theorem modifyDefinitions (hn : h.Named) (module : Option String)
    {g : Definitions β → Definitions β}
    (hg : ∀ d : Definitions β, (∀ (name : String) f, d.functions[name]? = some f → f.name = name) →
      ∀ (name : String) f, (g d).functions[name]? = some f → f.name = name) :
    (h.modifyDefinitions module g).Named := by
  intro key name f hf
  rw [definitionsOf_modifyDefinitions] at hf
  split at hf
  · exact hg _ (hn key) name f hf
  · exact hn key name f hf

theorem insertFunction (hn : h.Named) (g : StoredFunction β) : (h.insertFunction g).Named := by
  apply hn.modifyDefinitions
  intro d hd name f hf
  dsimp only at hf
  rw [Std.ExtTreeMap.getElem?_insert] at hf
  split at hf
  · rename_i hname
    rw [← Option.some.inj hf]
    exact compare_eq_iff_eq.1 hname
  · exact hd name f hf

theorem eraseFunction (hn : h.Named) (module : Option String) (name : String) :
    (h.eraseFunction module name).Named := by
  apply hn.modifyDefinitions
  intro d hd n f hf
  dsimp only at hf
  rw [Std.ExtTreeMap.getElem?_erase] at hf
  split at hf
  · cases hf
  · exact hd n f hf

theorem setGlobal (hn : h.Named) (module : Option String) (name : String) (b : Binding) :
    (h.setGlobal module name b).Named :=
  hn.modifyDefinitions module fun _ hd => hd

end Host.Named

namespace Server

variable {s t : Server σ β} {id : HostId}

/-- The functions of all hosts are kept under their names. -/
def Named (s : Server σ β) : Prop := ∀ ⦃k : HostId⦄ ⦃x : Host β⦄, s.host? k = some x → x.Named

theorem Named.modifyHost (hs : s.Named) (id : HostId) {g : Host β → Host β}
    (hg : ∀ x, x.Named → (g x).Named) : (s.modifyHost id g).Named := by
  intro k x hx
  rw [host?_modifyHost] at hx
  split at hx
  · obtain ⟨y, hy, rfl⟩ := Option.map_eq_some_iff.1 hx
    exact hg y (hs hy)
  · exact hs hx

/-- A change to a host that is about other things than what it has defined. -/
theorem Named.modifyHost_rest (hs : s.Named) (id : HostId) {g : Host β → Host β}
    (hg : ∀ x, (g x).definitions = x.definitions) : (s.modifyHost id g).Named :=
  hs.modifyHost id fun x hx => hx.of_definitions_eq (hg x)

theorem Named.save [StateStore σ] (hs : s.Named) (h : Host β) : (s.save h).Named := by
  intro k x hx
  rw [host?_save] at hx
  exact hs hx

theorem named_new (store : σ) (settings : Settings) : (new store settings : Server σ β).Named := by
  intro k x hx
  rw [(eq_of_host?_new hx).2]
  exact .of_definitions_eq_empty rfl

end Server

section

variable [StateStore σ] {s t : Server σ β} {id : HostId}

/-- Code defines functions under their names. -/
theorem CodeStep.named (hs : s.Named) (h : CodeStep id s t) : t.Named := by
  cases h with
  | record a => exact hs
  | @define x hh f => exact hs.modifyHost id fun _ hx => hx.insertFunction f
  | delete hh module name => exact hs.modifyHost id fun _ hx => hx.eraseFunction module name
  | setGlobal module name b => exact hs.modifyHost id fun _ hx => hx.setGlobal module name b
  | defer label => exact hs.modifyHost_rest id fun _ => rfl
  | force index producer => exact hs.modifyHost_rest id fun _ => rfl
  | markImported hh module hm => exact hs.modifyHost_rest id fun _ => rfl
  | configure hh hr c => exact hs.modifyHost_rest id fun _ => rfl
  | storage h =>
      have hhold : ∀ (k : HostId) (blob : Option Blob), (s.modifyHost k (·.hold blob)).Named :=
        fun k blob => hs.modifyHost_rest k fun _ => rfl
      cases h with
      | request hh r file kind shared hs' => exact hs
      | answer => exact hs
      | keep hh hn hw blob => exact hhold _ blob
      | save hh hn hw blob hr => exact (hhold _ blob).modifyHost_rest _ fun _ => rfl
      | refuse hh hn hw blob hr => exact hhold _ blob

theorem CodeSteps.named (hs : s.Named) (h : CodeSteps id s t) : t.Named := by
  induction h with
  | refl => exact hs
  | tail _ hstep ih => exact hstep.named ih

/-- Every step keeps functions under their names. -/
theorem Step.named (ha : Arena suits s) (hs : s.Named) (h : Step suits s t) : t.Named := by
  have hwindow : ∀ (id : HostId) (ticks : Nat) (e : StateEvent), (s.setWindow id ticks e).Named :=
    fun id ticks e => Named.modifyHost_rest (s := s.remember e) hs id fun _ => rfl
  cases h with
  | code h => exact h.named hs
  | skipId => exact hs
  | setStopped stop => exact hs
  | setSink id f => exact hs.modifyHost_rest id fun _ => rfl
  | beginRoot module perUser sink =>
      intro k x hx
      rw [host?_beginRoot] at hx
      split at hx
      · rw [← Option.some.inj hx]
        exact .of_definitions_eq_empty rfl
      · exact hs hx
  | beginUser hh hu sink =>
      intro k x hx
      rcases ha.host?_of_host?_beginUser hh hx with ⟨_, rfl⟩ | ⟨y, hy, hxy, _⟩
      · exact .of_definitions_eq_empty rfl
      · exact (hs hy).of_definitions_eq (by rw [hxy])
  | discard hh hid happ =>
      intro k x hx
      obtain ⟨_, y, hy, hxy, _⟩ := host?_of_host?_discard hx
      exact (hs hy).of_definitions_eq (by rw [hxy])
  | eraseApp name => exact hs
  | insertApp hh ho hm hsuits happ => exact hs
  | tickIdle hh hw => exact hs
  | tickWait hh hw => exact hwindow _ _ _
  | tickSave hh hw => exact (hwindow _ _ _).save _
  | closeIdle hh hw => exact hs
  | closeSave hh hw => exact (hwindow _ _ _).save _

theorem Steps.named (ha : Arena suits s) (hs : s.Named) (h : Steps suits s t) : t.Named :=
  Steps.induction (fun _ _ ha hs h => h.named ha hs) ha hs h

end

/-! ## Turns -/

section

variable [StateStore σ] {co : Collaborators β} {s t u : Server σ β} {id k : HostId} {h : Host β}
  {ids : List HostId}

/-- The first part of the turn of a host.  Its close hook is called if it has one and the hook
accepts no arguments: for the player whom the host serves, if in the world, and otherwise for the
server.  The hook is called once, since calls that its code brings about are calls of configuration
functions.  What becomes of the call does not matter. -/
inductive Server.HookTurn (co : Collaborators β) (id : HostId) (s : Server σ β) :
    Server σ β → Prop where
  | undefined {h : Host β} (hh : s.host? id = some h) (hf : h.function? HookKind.closeName = none) :
      HookTurn co id s s
  | rejected {h : Host β} {f : StoredFunction β} {reason : String} (hh : s.host? id = some h)
      (hf : h.function? HookKind.closeName = some f)
      (hrejects : co.evaluator.accepts f [] = .error reason) : HookTurn co id s s
  | called {h : Host β} {f : StoredFunction β} {actor : Actor} {t : Server σ β}
      (hh : s.host? id = some h) (hf : h.function? HookKind.closeName = some f)
      (hname : f.name = HookKind.closeName) (haccepts : co.evaluator.accepts f [] = .ok ())
      (hactor : actor = (h.user?.bind co.world.findPlayer).getD co.world.serverActor)
      (hasks : Asks { host := id, actor } f [] s t) (hcode : CodeSteps id s t) :
      HookTurn co id s t

/-- The second part of the turn of a host.  Unless it serves a user, its markers are removed, and
then its window is shut, and if it was open the state that is in memory is given to the store. -/
inductive Server.SweepTurn (id : HostId) (s : Server σ β) : Server σ β → Prop where
  | served {h : Host β} (hh : s.host? id = some h) (hu : h.user? ≠ none) : SweepTurn id s s
  | idle {h : Host β} (hh : s.host? id = some h) (hu : h.user? = none) (hw : h.saveTimeout = 0) :
      SweepTurn id s ((s.record (.swept (markerTag h.name?))).remember (.closed id))
  | flushed {h : Host β} {t : Server σ β} (hh : s.host? id = some h) (hu : h.user? = none)
      (hw : 0 < h.saveTimeout)
      (hsaved : (((s.record (.swept (markerTag h.name?))).setWindow id 0 (.closed id)).save h).Noted
        t) : SweepTurn id s t

/-- Hosts have their turns one after the other. -/
inductive Server.Closing (co : Collaborators β) : List HostId → Server σ β → Server σ β → Prop where
  | nil (s : Server σ β) : Closing co [] s s
  | cons {id : HostId} {ids : List HostId} {s t u v : Server σ β} (hhook : HookTurn co id s t)
      (hsweep : SweepTurn id t u) (hrest : Closing co ids u v) : Closing co (id :: ids) s v

theorem Server.Closing.of_append {ids' : List HostId} (h : Closing co (ids ++ ids') s u) :
    ∃ t, Closing co ids s t ∧ Closing co ids' t u := by
  induction ids generalizing s with
  | nil => exact ⟨s, .nil s, h⟩
  | cons id ids ih =>
      cases h with
      | cons hhook hsweep hrest =>
          obtain ⟨t, hfirst, hlast⟩ := ih hrest
          exact ⟨t, .cons hhook hsweep hfirst, hlast⟩

namespace ServerM

/-- What calling the close hook of a host comes to. -/
theorem hookTurn_callHook (hrunning : s.isStopped = false) (ha : Arena suits s) (hn : s.Named)
    (hh : s.host? id = some h) {f : StoredFunction β}
    (hf : h.function? HookKind.closeName = some f) :
    HookTurn co id s
      ((callHook co { host := id, actor := s.actorFor co.world id } f []).exec s) := by
  have hactor : s.actorFor co.world id =
      (h.user?.bind co.world.findPlayer).getD co.world.serverActor := by
    unfold Server.actorFor
    rw [hh, Option.bind_some]
  cases haccepts : co.evaluator.accepts f [] with
  | error reason =>
      obtain ⟨_, hexec⟩ := callHook_of_rejects { host := id, actor := s.actorFor co.world id }
        hrunning haccepts
      rw [hexec]
      exact .rejected hh hf haccepts
  | ok u =>
      have hcode : CodeSteps id s _ := actsUnder_callHook co
        { host := id, actor := s.actorFor co.world id } f [] ha.keyed
      refine .called hh hf ((hn hh).function?_eq hf) haccepts hactor ?_ hcode
      have hlive : s.host? (Frame.host { host := id, actor := s.actorFor co.world id }) = some h := hh
      exact (asks_callHook hlive hrunning haccepts).2

/-- What sweeping up after a host comes to. -/
theorem sweepTurn_sweep (ha : Arena suits s) (hh : s.host? id = some h) :
    SweepTurn id s ((sweep id).exec s) := by
  cases hu : h.user? with
  | some user =>
      have ho : h.owner ≠ none := fun ho => by simp [Host.user?, ho] at hu
      rw [exec_sweep_of_owner_ne_none hh ho]
      exact .served hh (by simp [hu])
  | none =>
      have ho : h.owner = none := Option.map_eq_none_iff.1 hu
      rcases sweep_cases ha.keyed hh ho with ⟨hw, hexec⟩ | ⟨hw, hnoted⟩
      · rw [hexec]
        exact .idle hh hu hw
      · exact .flushed hh hu hw hnoted

/-- The turn of a host. -/
theorem closeOne_turn (co : Collaborators β) (hrunning : s.isStopped = false)
    (ha : Arena suits s) (hn : s.Named) (hh : s.host? id = some h) :
    ∃ t, HookTurn co id s t ∧ SweepTurn id t ((closeOne co id).exec s) := by
  unfold closeOne
  rw [exec_bind, eval_host?, exec_host?, hh, Option.bind_some]
  cases hf : h.function? HookKind.closeName with
  | none => exact ⟨s, .undefined hh hf, sweepTurn_sweep ha hh⟩
  | some f =>
      have hhook : ActsUnder id (_ : ServerM σ β _) :=
        actsUnder_callHook co { host := id, actor := s.actorFor co.world id } f []
      have hidle := hhook.keeps ha
      obtain ⟨x, hx, _⟩ := hidle.places.symm.host? hh
      refine ⟨_, hookTurn_callHook hrunning ha hn hh hf, ?_⟩
      dsimp only
      rw [exec_bind, eval_get, exec_get, exec_bind]
      exact sweepTurn_sweep (Steps.arena ha hidle.steps) hx

/-- Closing live hosts one after the other. -/
theorem closing_forM (hrunning : s.isStopped = false) (ha : Arena suits s) (hn : s.Named)
    (hlive : ∀ k ∈ ids, (s.host? k).isSome) :
    Closing co ids s ((ids.forM (closeOne co)).exec s) := by
  induction ids generalizing s with
  | nil => exact .nil s
  | cons id ids ih =>
      obtain ⟨h, hh⟩ := Option.isSome_iff_exists.1 (hlive id List.mem_cons_self)
      obtain ⟨t, hhook, hsweep⟩ := closeOne_turn co hrunning ha hn hh
      have hidle : Idles suits s ((closeOne co id).exec s) := keeps_closeOne id ha
      rw [exec_forM_cons]
      refine .cons hhook hsweep (ih ?_ (Steps.arena ha hidle.steps) ?_ ?_)
      · exact (heeds_closeOne id s).isStopped.trans hrunning
      · exact Steps.named ha hn hidle.steps
      · intro k hk
        have hplace := congrArg Option.isSome (hidle.places k)
        rw [Option.isSome_map, Option.isSome_map] at hplace
        rw [hplace]
        exact hlive k (List.mem_cons_of_mem id hk)

end ServerM

end

/-! ## States that were accepted -/

section

variable [StateStore σ] {s t u : Server σ β} {id c : HostId} {name : String} {v : Option Blob}
  {new events : List StateEvent}

/-- A state has been given to the store meanwhile, under the slot of a module; a reliable store
still holds it, if no host but a root was made to hold state. -/
structure Server.Saved (name : String) (v : Option Blob) (new : List StateEvent)
    (u : Server σ β) : Prop where
  stored : .stored (.ofState v) (.globalState name) ∈ new
  read : ReliableStore σ → (∀ r m, .misplaced r m ∉ new) →
    StateStore.read u.store (.globalState name) = .ok v

/-- All states that were accepted meanwhile were given to a root, unless another host was made to
hold state.  The one that the root was given last is in memory while its window is open, and has
been saved when it is shut. -/
structure Server.Carries (id : HostId) (name : String) (new : List StateEvent)
    (u : Server σ β) : Prop where
  toRoot : ∀ {r v k}, .accepted r v k ∈ new → r = id ∨ ∃ m, .misplaced r m ∈ new
  memory : ∀ {w k}, .accepted id w k ∈ new → ∀ {v left}, u.held id = some (v, left) → 0 < left →
    v = lastAccepted id none new
  saved : ∀ {w k}, .accepted id w k ∈ new → ∀ {v}, u.held id = some (v, 0) →
    Saved name (lastAccepted id none new) new u

/-- A state that was saved stays so as long as the store keeps it. -/
theorem Server.Saved.append (h : Saved name v new u)
    (hread : ReliableStore σ → (∀ r m, .misplaced r m ∉ events) →
      StateStore.read t.store (.globalState name) = StateStore.read u.store (.globalState name)) :
    Saved name v (events ++ new) t where
  stored := List.mem_append_right _ h.stored
  read hreliable hnone := by
    rw [hread hreliable fun r m hmem => hnone r m (List.mem_append_left _ hmem)]
    exact h.read hreliable fun r m hmem => hnone r m (List.mem_append_right _ hmem)

theorem Server.Carries.nil (u : Server σ β) : Carries id name [] u where
  toRoot hmem := absurd hmem List.not_mem_nil
  memory hmem := absurd hmem List.not_mem_nil
  saved hmem := absurd hmem List.not_mem_nil

/-- Nothing is accepted by the root, and it holds what it held, or its window is shut all the
time. -/
theorem Server.Carries.append (h : Carries id name new u)
    (hheld : t.held id = u.held id ∨ ∃ v w, t.held id = some (v, 0) ∧ u.held id = some (w, 0))
    (hnone : ∀ w k, .accepted id w k ∉ events)
    (hto : ∀ r w k, .accepted r w k ∈ events → ∃ m, .misplaced r m ∈ events)
    (hread : ReliableStore σ → (∀ r m, .misplaced r m ∉ events) →
      StateStore.read t.store (.globalState name) = StateStore.read u.store (.globalState name)) :
    Carries id name (events ++ new) t := by
  have hold : ∀ {w k}, .accepted id w k ∈ events ++ new → .accepted id w k ∈ new :=
    fun hmem => (List.mem_append.1 hmem).resolve_left (hnone _ _)
  have hlast : lastAccepted id none (events ++ new) = lastAccepted id none new := by
    rw [lastAccepted_append, lastAccepted_of_forall hnone]
  refine { toRoot := ?_, memory := ?_, saved := ?_ }
  · intro r v k hmem
    rcases List.mem_append.1 hmem with hmem | hmem
    · obtain ⟨m, hm⟩ := hto _ _ _ hmem
      exact .inr ⟨m, List.mem_append_left _ hm⟩
    · exact (h.toRoot hmem).imp_right (Exists.imp fun _ hm => List.mem_append_right _ hm)
  · intro w k hmem v left hv hleft
    rw [hlast]
    rcases hheld with heq | ⟨v', _, hshut, _⟩
    · exact h.memory (hold hmem) (heq.symm.trans hv) hleft
    · obtain ⟨_, rfl⟩ := Prod.mk.inj (Option.some.inj (hshut.symm.trans hv))
      exact absurd hleft (lt_irrefl 0)
  · intro w k hmem v hv
    rw [hlast]
    rcases hheld with heq | ⟨_, v', _, hshut⟩
    · exact (h.saved (hold hmem) (heq.symm.trans hv)).append hread
    · exact (h.saved (hold hmem) hshut).append hread

/-- A state that is given to another host than the root: that host is misplaced. -/
theorem Server.Carries.misplaced (h : Carries id name new u) (hheld : t.held id = u.held id)
    {k : HostId} {x : Host β} {blob : Option Blob} (later : List StateEvent) (hk : k ≠ id)
    (ho : x.owner ≠ none) (hlater : ∀ r w left, .accepted r w left ∈ later → r = k) :
    Carries id name ((later ++ holdEvents k x blob) ++ new) t := by
  have hmem : .misplaced k x.name? ∈ later ++ holdEvents k x blob :=
    List.mem_append_right _ (misplaced_mem_holdEvents ho k blob)
  have hfrom : ∀ r w left, .accepted r w left ∈ later ++ holdEvents k x blob → r = k := by
    intro r w left haccepted
    rcases List.mem_append.1 haccepted with haccepted | haccepted
    · exact hlater r w left haccepted
    · exact absurd haccepted (accepted_not_mem_holdEvents k x blob r w left)
  refine h.append (.inl hheld) (fun w left haccepted => hk (hfrom _ w left haccepted).symm) ?_ ?_
  · intro r w left haccepted
    rw [hfrom r w left haccepted]
    exact ⟨_, hmem⟩
  · exact fun _ hnone => absurd hmem (hnone _ _)

/-- A state that is given to the root, which saves it or keeps it in memory while its window is
open. -/
theorem Server.Carries.accept (h : Carries id name new u) {blob : Option Blob} {left k : Nat}
    {middle : List StateEvent} (hmiddle : ∀ r w k, .accepted r w k ∉ middle)
    (hheld : t.held id = some (blob, k))
    (hsaved : k = 0 → Saved name blob ((.accepted id blob left :: middle) ++ new) t) :
    Carries id name ((.accepted id blob left :: middle) ++ new) t := by
  have hlast : lastAccepted id none ((.accepted id blob left :: middle) ++ new) = blob := by
    rw [List.cons_append, lastAccepted, if_pos rfl]
  refine { toRoot := ?_, memory := ?_, saved := ?_ }
  · intro r v j hmem
    rw [List.cons_append] at hmem ⊢
    rcases List.mem_cons.1 hmem with heq | hmem
    · exact .inl (StateEvent.accepted.inj heq).1
    · have hold := (List.mem_append.1 hmem).resolve_left (hmiddle _ _ _)
      refine (h.toRoot hold).imp_right (Exists.imp fun m hm => ?_)
      exact List.mem_cons_of_mem _ (List.mem_append_right _ hm)
  · intro w j _ v i hv _
    rw [hlast]
    exact (Prod.mk.inj (Option.some.inj (hv.symm.trans hheld))).1
  · intro w j _ v hv
    rw [hlast]
    exact hsaved (Prod.mk.inj (Option.some.inj (hv.symm.trans hheld))).2.symm

/-- What a host gives as the state of the app goes to the root of the app, or to a host that is no
root. -/
structure Server.GivesTo (s : Server σ β) (id : HostId) (name : String) (c : HostId) : Prop where
  root : ∃ h, s.host? id = some h ∧ h.owner = none ∧ h.name? = some name
  gives : s.rootOf c = id ∨ ∃ x, s.host? (s.rootOf c) = some x ∧ x.owner ≠ none

omit [StateStore σ] in
/-- Where a host gives state to depends on the places of hosts only. -/
theorem Server.GivesTo.of_samePlaces (hs : s.GivesTo id name c) (hp : SamePlaces s t) :
    t.GivesTo id name c where
  root := by
    obtain ⟨h, hh, ho, hn⟩ := hs.root
    obtain ⟨x, hx, hplace⟩ := hp.symm.host? hh
    exact ⟨x, hx, (Host.owner_of_place_eq hplace).symm.trans ho,
      (Host.name?_of_place_eq hplace).symm.trans hn⟩
  gives := by
    rw [hp.rootOf_eq]
    refine hs.gives.imp_right ?_
    rintro ⟨h, hh, ho⟩
    obtain ⟨x, hx, hplace⟩ := hp.symm.host? hh
    exact ⟨x, hx, (Host.owner_of_place_eq hplace).symm.trans_ne ho⟩

omit [StateStore σ] in
/-- What hangs below a root gives state to it, or to a host in between. -/
theorem Server.Arena.givesTo (ha : Arena suits s) {h : Host β} (hh : s.host? id = some h)
    (ho : h.owner = none) (hn : h.name? = some name) (hc : s.Descends id c) :
    s.GivesTo id name c where
  root := ⟨h, hh, ho, hn⟩
  gives := by
    cases hc with
    | self => exact .inl (rootOf_eq_self_of_owner_eq_none hh ho)
    | @user p _ x u hp hx hu =>
        obtain ⟨y, hy, hyo⟩ := ha.user hx hu
        rw [rootOf_eq_of_owner_eq_some hy hyo]
        cases hp with
        | self => exact .inl rfl
        | user _ hz hv =>
            obtain ⟨x', hx', hxo⟩ := ha.user hz hv
            exact .inr ⟨x', hx', by simp [hxo]⟩

/-- Code that runs under a host of the root, or under a host of one that is no root, leaves states
that were accepted in memory and still to be saved, or saved. -/
theorem StorageStep.carries (hstep : StorageStep c u t) (hu : Carries id name new u)
    (hgives : u.GivesTo id name c) :
    ∃ events, t.chronicle = events ++ u.chronicle ∧ Carries id name (events ++ new) t := by
  obtain ⟨⟨h, hh, ho, hn⟩, hroot⟩ := hgives
  have hother : ∀ {x : Host β}, u.host? (u.rootOf c) = some x → x.owner ≠ none →
      u.rootOf c ≠ id := by
    rintro x hx hxo heq
    rw [heq, hh] at hx
    exact hxo (Option.some.inj hx ▸ ho)
  have hheld : u.rootOf c ≠ id → t.held id = u.held id := hstep.held_eq_of_ne
  cases hstep with
  | @request x hx r file kind shared hs =>
      refine ⟨[_], rfl, hu.append (t := u.request r _) (.inl rfl) (by simp) (by simp)
        fun hreliable _ => ?_⟩
      exact r.read_apply_of_ne _ (ResourceKey.resource_ne_globalState _ file kind shared name)
  | answer =>
      exact ⟨[_], rfl, hu.append (t := u.remember _) (.inl rfl) (by simp) (by simp)
        fun _ _ => rfl⟩
  | @keep x n hx hxn hw blob =>
      refine ⟨.accepted (u.rootOf c) blob x.saveTimeout :: holdEvents (u.rootOf c) x blob, rfl, ?_⟩
      rcases hroot with hroot | ⟨y, hy, hyo⟩
      · rw [hroot] at hx ⊢
        exact hu.accept (t := (u.hold id x blob).remember _) (accepted_not_mem_holdEvents id x blob)
          (held_of_host? (host?_hold hx blob)) fun hzero => absurd hzero (Nat.ne_of_gt hw)
      · obtain rfl : x = y := Option.some.inj (hx.symm.trans hy)
        have hk := hother hx hyo
        exact hu.misplaced (hheld hk) [.accepted (u.rootOf c) blob x.saveTimeout] hk hyo
          (by simp +contextual)
  | @save x n hx hxn hw blob hr =>
      refine ⟨.accepted (u.rootOf c) blob x.saveTimeout ::
        .stored (.ofState blob) (.globalState n) :: holdEvents (u.rootOf c) x blob, rfl, ?_⟩
      rcases hroot with hroot | ⟨y, hy, hyo⟩
      · rw [hroot] at hx ⊢
        obtain rfl : x = h := Option.some.inj (hx.symm.trans hh)
        obtain rfl : n = name := Option.some.inj (hxn.symm.trans hn)
        have hopen : (((u.hold id x blob).request (.ofState blob)
            (.globalState n)).openWindow id).host? id =
              some ((x.hold blob).setTimeout u.settings.saveDebounceTicks) :=
          host?_openWindow (host?_hold hx blob)
        have hmiddle : ∀ r w left, .accepted r w left ∉
            .stored (.ofState blob) (.globalState n) :: holdEvents id x blob := by
          intro r w left hmem
          rcases List.mem_cons.1 hmem with heq | hmem
          · cases heq
          · exact accepted_not_mem_holdEvents id x blob r w left hmem
        refine hu.accept hmiddle (held_of_host? hopen) fun _ => ⟨?_, ?_⟩
        · exact List.mem_cons_of_mem _ List.mem_cons_self
        · exact fun hreliable _ => StoreRequest.read_apply_ofState blob _ _
      · obtain rfl : x = y := Option.some.inj (hx.symm.trans hy)
        have hk := hother hx hyo
        exact hu.misplaced (hheld hk) [.accepted (u.rootOf c) blob x.saveTimeout,
          .stored (.ofState blob) (.globalState n)] hk hyo (by simp +contextual)
  | @refuse x n hx hxn hw blob e hr =>
      refine ⟨.stored (.ofState blob) (.globalState n) :: holdEvents (u.rootOf c) x blob, rfl, ?_⟩
      rcases hroot with hroot | ⟨y, hy, hyo⟩
      · -- the window is shut, so that nothing is left to be saved
        rw [hroot] at hx ⊢
        have hw' : (x.hold blob).saveTimeout = 0 := hw
        have hshut := held_of_host? hx
        have hshut' := held_of_host? (host?_hold hx blob)
        rw [hw] at hshut
        rw [hw'] at hshut'
        refine hu.append (t := (u.hold id x blob).request _ _) (.inr ⟨_, _, hshut', hshut⟩) ?_ ?_ ?_
        · intro w left hmem
          rcases List.mem_cons.1 hmem with heq | hmem
          · cases heq
          · exact accepted_not_mem_holdEvents id x blob _ w left hmem
        · intro r w left hmem
          rcases List.mem_cons.1 hmem with heq | hmem
          · cases heq
          · exact absurd hmem (accepted_not_mem_holdEvents id x blob r w left)
        · intro hreliable _
          rw [StoreRequest.result_eq_ok] at hr
          cases hr
      · obtain rfl : x = y := Option.some.inj (hx.symm.trans hy)
        have hk := hother hx hyo
        exact hu.misplaced (hheld hk) [.stored (.ofState blob) (.globalState n)] hk hyo (by simp)

theorem CodeSteps.carries (hsteps : CodeSteps c s t) (hs : Carries id name new s)
    (hgives : s.GivesTo id name c) :
    ∃ events, t.chronicle = events ++ s.chronicle ∧ Carries id name (events ++ new) t := by
  induction hsteps with
  | refl => exact ⟨[], rfl, hs⟩
  | @tail u t hsteps hstep ih =>
      obtain ⟨earlier, hearlier, hu⟩ := ih
      rcases hstep.storage_or_silent with hstorage | ⟨hheld, hstore, hchronicle⟩
      · have hp := (CodeSteps.frame hsteps).samePlaces
        obtain ⟨later, hlater, ht⟩ := hstorage.carries hu (hgives.of_samePlaces hp)
        refine ⟨later ++ earlier, ?_, ?_⟩
        · rw [hlater, hearlier, List.append_assoc]
        · rw [List.append_assoc]
          exact ht
      · have ht : Carries id name ([] ++ (earlier ++ new)) t :=
          hu.append (.inl (hheld id)) (by simp) (by simp) fun _ _ => by rw [hstore]
        exact ⟨earlier, hchronicle.trans hearlier, ht⟩

/-! ## The last turn -/

/-- All states that were accepted meanwhile were given to a root and saved, unless another host was
made to hold state. -/
structure Server.Delivers (id : HostId) (name : String) (new : List StateEvent)
    (u : Server σ β) : Prop where
  toRoot : ∀ {r v k}, .accepted r v k ∈ new → r = id ∨ ∃ m, .misplaced r m ∈ new
  saved : ∀ {w k}, .accepted id w k ∈ new → Saved name (lastAccepted id none new) new u

variable {co : Collaborators β} {ids : List HostId} {h : Host β}

theorem Server.HookTurn.codeSteps (hturn : HookTurn co c s t) : CodeSteps c s t := by
  cases hturn with
  | undefined hh hf => exact .refl
  | rejected hh hf hrejects => exact .refl
  | called hh hf hname haccepts hactor hasks hcode => exact hcode

/-- The turns of hosts that serve users. -/
theorem Server.Closing.carries (hclosing : Closing co ids s t) (hs : Carries id name new s)
    (hids : ∀ k ∈ ids, s.GivesTo id name k ∧ ∃ x, s.host? k = some x ∧ x.owner ≠ none) :
    ∃ events, t.chronicle = events ++ s.chronicle ∧ SamePlaces s t ∧
      Carries id name (events ++ new) t := by
  induction hclosing generalizing new with
  | nil s => exact ⟨[], rfl, fun _ => rfl, hs⟩
  | @cons k ids s t u v hhook hsweep _ ih =>
      obtain ⟨hgives, x, hx, ho⟩ := hids k List.mem_cons_self
      have hp := (CodeSteps.frame hhook.codeSteps).samePlaces
      obtain ⟨earlier, hearlier, ht⟩ := hhook.codeSteps.carries hs hgives
      obtain ⟨y, hy, hplace⟩ := hp.symm.host? hx
      have hyo : y.owner ≠ none := (Host.owner_of_place_eq hplace).symm.trans_ne ho
      -- nothing is swept up after the host
      have hu : u = t := by
        have hnone : ∀ {z : Host β}, t.host? k = some z → z.user? ≠ none := by
          intro z hz huser
          obtain rfl : y = z := Option.some.inj (hy.symm.trans hz)
          exact hyo (Option.map_eq_none_iff.1 huser)
        cases hsweep with
        | served hh hu => rfl
        | idle hh hu hw => exact absurd hu (hnone hh)
        | flushed hh hu hw hsaved => exact absurd hu (hnone hh)
      subst hu
      obtain ⟨later, hlater, hplaces, hv⟩ := ih ht fun c hc => by
        obtain ⟨hcgives, z, hz, hzo⟩ := hids c (List.mem_cons_of_mem k hc)
        obtain ⟨z', hz', hzplace⟩ := hp.symm.host? hz
        exact ⟨hcgives.of_samePlaces hp, z', hz',
          (Host.owner_of_place_eq hzplace).symm.trans_ne hzo⟩
      refine ⟨later ++ earlier, ?_, hp.trans hplaces, ?_⟩
      · rw [hlater, hearlier, List.append_assoc]
      · rw [List.append_assoc]
        exact hv

/-- Sweeping up after a root has the state in memory saved that is still to be saved. -/
theorem Server.SweepTurn.delivers (hsweep : SweepTurn id s t) (hs : Carries id name new s)
    (hh : s.host? id = some h) (ho : h.owner = none) (hn : h.name? = some name) :
    ∃ events, t.chronicle = events ++ s.chronicle ∧ Delivers id name (events ++ new) t := by
  have heq : ∀ {x : Host β}, s.host? id = some x → x = h :=
    fun hx => Option.some.inj (hx.symm.trans hh)
  cases hsweep with
  | served hx hu =>
      obtain rfl := heq hx
      exact absurd (Option.map_eq_none_iff.2 ho) hu
  | @idle x hx hu hw =>
      obtain rfl := heq hx
      have hshut := held_of_host? hx
      rw [hw] at hshut
      have ht : Carries id name ([.closed id] ++ new)
          ((s.record (.swept (markerTag x.name?))).remember (.closed id)) :=
        hs.append (.inl rfl) (by simp) (by simp) fun _ _ => rfl
      exact ⟨[.closed id], rfl, ht.toRoot, fun hmem => ht.saved hmem hshut⟩
  | @flushed x _ hx hu hw hnoted =>
      obtain rfl := heq hx
      rw [save_of_name? _ hn] at hnoted
      have hchronicle : t.chronicle =
          [.stored (.ofState x.globalState) (.globalState name), .closed id] ++ s.chronicle := by
        rcases hnoted with rfl | ⟨text, rfl⟩ <;> rfl
      have hstore : t.store =
          (StoreRequest.ofState x.globalState).apply (.globalState name) s.store := by
        rcases hnoted with rfl | ⟨text, rfl⟩ <;> rfl
      refine ⟨_, hchronicle, ?_, ?_⟩
      · intro r w left hmem
        have hold : .accepted r w left ∈ new := by simpa using hmem
        exact (hs.toRoot hold).imp_right (Exists.imp fun _ hm => List.mem_append_right _ hm)
      · intro w left hmem
        have hold : .accepted id w left ∈ new := by simpa using hmem
        have hlast : lastAccepted id none ([.stored (.ofState x.globalState) (.globalState name),
            .closed id] ++ new) = x.globalState := (hs.memory hold (held_of_host? hx) hw).symm
        rw [hlast]
        refine ⟨List.mem_append_left _ List.mem_cons_self, fun _ _ => ?_⟩
        rw [hstore]
        exact StoreRequest.read_apply_ofState _ _ _

/-- The turns of a family, in which the root of an app has the last one. -/
theorem Server.Closing.delivers (hclosing : Closing co (ids ++ [id]) s t) (hh : s.host? id = some h)
    (ho : h.owner = none) (hn : h.name? = some name)
    (hids : ∀ k ∈ ids, s.GivesTo id name k ∧ ∃ x, s.host? k = some x ∧ x.owner ≠ none) :
    ∃ new, t.chronicle = new ++ s.chronicle ∧ Delivers id name new t := by
  obtain ⟨u, hfirst, hlast⟩ := hclosing.of_append
  obtain ⟨earlier, hearlier, hp, hu⟩ := hfirst.carries (.nil s) hids
  have hgives : s.GivesTo id name id :=
    ⟨⟨h, hh, ho, hn⟩, .inl (rootOf_eq_self_of_owner_eq_none hh ho)⟩
  cases hlast with
  | @cons _ _ _ v w _ hhook hsweep hrest =>
      cases hrest with
      | nil =>
          obtain ⟨middle, hmiddle, hv⟩ := hhook.codeSteps.carries hu (hgives.of_samePlaces hp)
          have hpv := hp.trans (CodeSteps.frame hhook.codeSteps).samePlaces
          obtain ⟨x, hx, hplace⟩ := hpv.symm.host? hh
          obtain ⟨later, hlater, ht⟩ := hsweep.delivers hv hx
            ((Host.owner_of_place_eq hplace).symm.trans ho)
            ((Host.name?_of_place_eq hplace).symm.trans hn)
          refine ⟨later ++ (middle ++ (earlier ++ [])), ?_, ht⟩
          rw [hlater, hmiddle, hearlier]
          simp only [List.append_assoc, List.nil_append]

/-! ## Closing -/

/-- What closing a host makes of a server.  The host and all that hangs below it have one turn each,
every host after the hosts of its users, which come in the order of the names of the users.  Hosts
stay in their places.  If the host is the root of an app, then the state that it was given last
meanwhile has been saved, no matter through which of its hosts it was given. -/
structure Server.Closes (co : Collaborators β) (id : HostId) (s t : Server σ β) : Prop where
  mem_family : ∀ k, k ∈ s.family id ↔ s.Descends id k
  nodup : (s.family id).Nodup
  order : ∀ k ∈ s.family id, ∀ x, s.host? k = some x → ∃ children, Children x children ∧
    s.family k = children.flatMap (fun child => s.family child.2) ++ [k]
  turns : Closing co (s.family id) s t
  places : SamePlaces s t
  delivers : ∀ x name, s.host? id = some x → x.owner = none → x.name? = some name →
    ∃ new, t.chronicle = new ++ s.chronicle ∧ Delivers id name new t

omit [StateStore σ] in
/-- A host is the last one of its family, after hosts of users. -/
theorem Server.Arena.exists_family_eq (ha : Arena suits s) (hh : s.host? id = some h) :
    ∃ ids, s.family id = ids ++ [id] ∧
      ∀ k ∈ ids, s.Descends id k ∧ ∃ x, s.host? k = some x ∧ x.owner ≠ none := by
  have hfamily := ha.family_eq hh
  have hnodup := ha.nodup_family id
  rw [hfamily] at hnodup
  refine ⟨_, hfamily, fun k hk => ?_⟩
  have hmem : k ∈ s.family id := by
    rw [hfamily]
    exact List.mem_append_left _ hk
  have hdescends := (ha.mem_family_iff.1 hmem).2
  refine ⟨hdescends, ?_⟩
  cases hdescends with
  | self => exact (List.disjoint_of_nodup_append hnodup hk List.mem_cons_self).elim
  | user _ hx hu =>
      obtain ⟨y, hy, hyo⟩ := ha.user hx hu
      exact ⟨y, hy, by simp [hyo]⟩

/-- The families of the users of a root make up what is closed before it. -/
theorem Server.Arena.closing_delivers (ha : Arena suits s) (hh : s.host? id = some h)
    (ho : h.owner = none) (hn : h.name? = some name) (hclosing : Closing co (s.family id) s t) :
    ∃ new, t.chronicle = new ++ s.chronicle ∧ Delivers id name new t := by
  obtain ⟨ids, hfamily, hids⟩ := ha.exists_family_eq hh
  rw [hfamily] at hclosing
  refine hclosing.delivers hh ho hn fun k hk => ?_
  obtain ⟨hdescends, howned⟩ := hids k hk
  exact ⟨ha.givesTo hh ho hn hdescends, howned⟩

/-- Closing a live host of a reachable server that is not paused: all hosts that hang below it have
their turns, in order, and what their hooks give as the state of the app is saved in the end. -/
theorem closes_of_reachable {allowed : Catalogue → Prop} (hs : Reachable allowed s)
    (hrunning : s.isStopped = false) (hh : s.host? id = some h) (co : Collaborators β) :
    Closes co id s ((ServerM.close co id).exec s) := by
  have hfollows : ∀ c, allowed c → c.Follows fun _ _ => True := fun _ _ _ _ _ => trivial
  obtain ⟨ha, hn⟩ := hs.induction (P := Server.Named) hfollows named_new
    fun _ _ ha hs h => h.named ha hs
  have hlive : ∀ k ∈ s.family id, (s.host? k).isSome := fun k hk => isSome_of_mem_familyTo hk
  have hturns : Closing co (s.family id) s ((ServerM.close co id).exec s) := by
    unfold close
    rw [exec_bind, eval_get, exec_get]
    exact closing_forM hrunning ha hn hlive
  exact
    { mem_family := by
        intro k
        rw [ha.mem_family_iff, hh]
        exact and_iff_right rfl
      nodup := ha.nodup_family id
      order := fun k _ x hx => ha.exists_children hx
      turns := hturns
      places := (keeps_close co id ha).places
      delivers := fun x name hx ho hn => ha.closing_delivers hx ho hn hturns }

/-- The shop is open to two users and gives a state whenever one of its hosts is closed.  The one
that the root gives comes last. -/
theorem closes_shop :
    let co := Collaborators.plain shopEvaluator shopCatalogue
    let s : Server MemoryStore Unit := Operation.runAll co
      [.createApplication (some { name := "shop", code := some "" }) true .server,
        .duplicateForUser 1 "bob" (.player "bob" 2), .duplicateForUser 1 "ann" (.player "ann" 1)]
      (.new ∅ {})
    s.family 1 = [3, 2, 1] ∧ Closes co 1 s ((ServerM.close co 1).exec s) := by
  intro co s
  have hs : Reachable (fun _ => True) s := .runAll trivial _ (.new _ _)
  have hrunning : s.isStopped = false := by decide +kernel
  have hlive : (s.host? 1).isSome := by decide +kernel
  obtain ⟨h, hh⟩ := Option.isSome_iff_exists.1 hlive
  exact ⟨by decide +kernel, closes_of_reachable hs hrunning hh co⟩

end

end ScriptHost
