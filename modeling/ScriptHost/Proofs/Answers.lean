import Mathlib
import ScriptHost.Proofs.CodeSteps
/-!
# What code does, one answer after the other

An evaluation goes on by queries, and each of them is answered by a few actions.  `Action id s t`
lists them: it says what may be done in one go by code that runs under the host `id`.  A relation
between servers that every action is in, and that is kept when one thing is done after another,
holds between the server before an evaluation and the server after it.  The model is gone through
once to show this, from the answers to queries up to whole evaluations: runs that nest are started
for the same host, and the induction is on how deep they nest.

## Main statements

* `Action`, `Actions`: what code does in one go, and any number of times.
* `CodeRelation`, `ServerM.Relates`: relations that actions are in, and operations that stay in
  them.
* `ServerM.relates_answer`: the answer to a query.
* `ServerM.runsBy_runScript`: a whole evaluation.
* `ServerM.relates_notify`, `ServerM.relates_command`: the ways from outside to the code of a host.
-/

namespace ScriptHost

variable {σ β α γ : Type}

/-! ## What an action may write down -/

/-- The activity is no evaluation and no message. -/
def Activity.IsSilent : Activity β → Prop
  | asked _ _ | sent _ _ => False
  | _ => True

/-- The activity is one of code under a host that serves an actor: evaluations are for the host, and
messages are for the actor. -/
def Activity.IsUnder (id : HostId) (sink : Option Actor) : Activity β → Prop
  | asked frame _ => frame.host = id
  | sent outbox _ => sink.bind (·.outbox?) = some outbox
  | _ => True

/-- A silent activity may be one of code under any host. -/
theorem Activity.IsSilent.isUnder {a : Activity β} (h : a.IsSilent) (id : HostId)
    (sink : Option Actor) : a.IsUnder id sink := by
  cases a with
  | asked frame request => exact h.elim
  | sent outbox message => exact h.elim
  | _ => trivial

namespace Server

/-- The actor whom a host serves. -/
def sinkOf (s : Server σ β) (id : HostId) : Option Actor := (s.host? id).bind (·.sink)

/-- Every host is kept under the number that it has. -/
def Keyed (s : Server σ β) : Prop := ∀ ⦃id : HostId⦄ ⦃h : Host β⦄, s.host? id = some h → h.id = id

/-- Putting back a host that has been changed is the same as changing it in place. -/
theorem insertHost_eq_modifyHost {s : Server σ β} {id : HostId} {h h' : Host β}
    (f : Host β → Host β) (hh : s.host? id = some h) (hf : f h = h') (hid : h'.id = id) :
    s.insertHost h' = s.modifyHost id f := by
  have hhosts : (s.insertHost h').hosts = (s.modifyHost id f).hosts := by
    apply Std.ExtTreeMap.ext_getElem?
    intro k
    show (s.insertHost h').host? k = (s.modifyHost id f).host? k
    rw [host?_insertHost, host?_modifyHost, hid]
    by_cases hk : id = k
    · subst hk
      simp [hh, hf]
    · simp [hk]
  unfold insertHost modifyHost at hhosts ⊢
  dsimp only at hhosts
  rw [hhosts]

end Server

/-- Code keeps every host under the number that it has. -/
theorem CodeFrame.keyed {id : HostId} {s t : Server σ β} (h : CodeFrame id s t) (hs : s.Keyed) :
    t.Keyed := by
  intro k x hx
  by_cases hk : k = id
  · subst hk
    have hown := h.own
    rw [hx, Option.map_some] at hown
    obtain ⟨y, hy, hshape⟩ := Option.map_eq_some_iff.1 hown.symm
    have hid : y.shape.id = x.shape.id := by rw [hshape]
    have hkey : y.id = _ := hs hy
    exact hid.symm.trans hkey
  by_cases hr : k = s.rootOf id
  · subst hr
    have hroot := h.root hk
    rw [hx, Option.map_some] at hroot
    obtain ⟨y, hy, hstateless⟩ := Option.map_eq_some_iff.1 hroot.symm
    have hid : y.stateless.id = x.stateless.id := by rw [hstateless]
    have hkey : y.id = _ := hs hy
    exact hid.symm.trans hkey
  · rw [h.others k hk hr] at hx
    exact hs hx

section

variable {id : HostId} {s t : Server σ β}

/-- Code changes neither whom a host belongs to nor whom it serves. -/
theorem CodeFrame.sink_eq (h : CodeFrame id s t) (k : HostId) :
    (t.host? k).map (fun x => (x.owner, x.sink)) =
      (s.host? k).map fun x => (x.owner, x.sink) := by
  by_cases hk : k = id
  · subst hk
    have hown := congrArg (Option.map fun x : Host β => (x.owner, x.sink)) h.own
    rwa [Option.map_map, Option.map_map] at hown
  by_cases hr : k = s.rootOf id
  · subst hr
    have hroot := congrArg (Option.map fun x : Host β => (x.owner, x.sink)) (h.root hk)
    rwa [Option.map_map, Option.map_map] at hroot
  · rw [h.others k hk hr]

theorem CodeFrame.sinkOf_eq (h : CodeFrame id s t) (k : HostId) : t.sinkOf k = s.sinkOf k := by
  have hsink := congrArg (Option.bind · Prod.snd) (h.sink_eq k)
  simp only [Option.bind_map] at hsink
  exact hsink

end

/-! ## Actions -/

variable [StateStore σ]

/-- What code that runs under a host does in one go.  A function may be called that the host's code
has defined or that was handed in, and a library is run when it has been marked as imported.  The
code of the host's own module is not among the actions: nothing that code asks for runs it. -/
inductive Action (id : HostId) (s : Server σ β) : Server σ β → Prop where
  | record {a : Activity β} (ha : a.IsSilent) : Action id s (s.record a)
  | send {outbox : Outbox} (hsink : (s.sinkOf id).bind (·.outbox?) = some outbox)
      (message : Message) : Action id s (s.record (.sent outbox message))
  | call {h : Host β} (hh : s.host? id = some h) {frame : Frame} (hf : frame.host = id)
      (f : StoredFunction β) (arguments : List Binding) :
      Action id s (s.record (.asked frame (.call f arguments)))
  | importModule {h : Host β} (hh : s.host? id = some h) {frame : Frame} (hf : frame.host = id)
      (module : Module) (hm : module.name ∉ h.imported) :
      Action id s ((s.modifyHost id (·.markImported module.name)).record
        (.asked frame (.runModule module)))
  | define {h : Host β} (hh : s.host? id = some h) (f : StoredFunction β) :
      Action id s (s.define id h f)
  | delete {h : Host β} (hh : s.host? id = some h) (module : Option String) (name : String) :
      Action id s (s.delete id module name)
  | setGlobal (module : Option String) (name : String) (b : Binding) :
      Action id s (s.modifyHost id (·.setGlobal module name b))
  | defer (label : String) : Action id s (s.modifyHost id fun h => (h.addProducer label).2)
  | force (index : Nat) (producer : Producer) :
      Action id s (s.modifyHost id fun h =>
        { h with producers := h.producers.set index producer })
  | configure {h : Host β} (hh : s.host? id = some h) (hr : h.owner = none) (c : Configuration) :
      Action id s (s.modifyHost id (·.configure c))
  | storage {t : Server σ β} (h : StorageStep id s t) : Action id s t

/-- A relation that servers are in when one comes from the other by actions of code under a host. -/
structure CodeRelation (id : HostId) (R : Server σ β → Server σ β → Prop) : Prop where
  refl : ∀ s, R s s
  trans : ∀ {s t u}, R s t → R t u → R s u
  frame : ∀ {s t}, R s t → CodeFrame id s t
  action : ∀ {s t}, Action id s t → R s t

/-- An action is made of steps of code. -/
theorem Action.codeSteps {id : HostId} {s t : Server σ β} (h : Action id s t) :
    CodeSteps id s t := by
  cases h with
  | record ha => exact .single (.record _)
  | send hsink message => exact .single (.record _)
  | call hh hf f arguments => exact .single (.record _)
  | importModule hh hf module hm => exact .tail (.single (.markImported hh _ hm)) (.record _)
  | define hh f => exact .single (.define hh f)
  | delete hh module name => exact .single (.delete hh module name)
  | setGlobal module name b => exact .single (.setGlobal module name b)
  | defer label => exact .single (.defer label)
  | force index producer => exact .single (.force index producer)
  | configure hh hr c => exact .single (.configure hh hr c)
  | storage h => exact .single (.storage h)

/-- Steps of code are such a relation. -/
theorem codeRelation_codeSteps (id : HostId) :
    CodeRelation id (CodeSteps id : Server σ β → Server σ β → Prop) where
  refl _ := .refl
  trans h g := h.trans g
  frame h := h.frame
  action h := h.codeSteps

/-- Any number of actions of code that runs under a host. -/
abbrev Actions (id : HostId) : Server σ β → Server σ β → Prop := Relation.ReflTransGen (Action id)

theorem Actions.codeSteps {id : HostId} {s t : Server σ β} (h : Actions id s t) :
    CodeSteps id s t := by
  induction h with
  | refl => exact .refl
  | tail _ haction ih => exact ih.trans haction.codeSteps

/-- Nothing but actions is done. -/
theorem codeRelation_actions (id : HostId) :
    CodeRelation id (Actions id : Server σ β → Server σ β → Prop) where
  refl _ := .refl
  trans h g := h.trans g
  frame h := h.codeSteps.frame
  action h := .single h

namespace ServerM

/-- The operation leads to a server that is related to the one before. -/
def Relates (R : Server σ β → Server σ β → Prop) (m : ServerM σ β α) : Prop :=
  ∀ ⦃s : Server σ β⦄, s.Keyed → R s (m.exec s)

/-- A way to run scripts that leads to related servers. -/
def RunsBy (id : HostId) (R : Server σ β → Server σ β → Prop) (run : Runner σ β) : Prop :=
  ∀ (frame : Frame) (script : Script β (Except EvalError Value)), frame.host = id →
    Relates R (run frame script)

variable {co : Collaborators β} {id : HostId} {R : Server σ β → Server σ β → Prop}
  {run : Runner σ β}

section

omit [StateStore σ]

/-- What follows a look at the server may use what was seen. -/
theorem relates_get_bind {f : Server σ β → ServerM σ β α}
    (h : ∀ s : Server σ β, s.Keyed → R s ((f s).exec s)) : Relates R (get >>= f) := h

/-- What follows a look at a host may use that the host is there. -/
theorem relates_host?_bind {k : HostId} {f : Option (Host β) → ServerM σ β α}
    (h : ∀ s : Server σ β, s.Keyed → R s ((f (s.host? k)).exec s)) :
    Relates R (host? k >>= f) := h

/-- The answer may be changed afterwards. -/
theorem Relates.map {m : ServerM σ β α} (hm : Relates R m) (f : α → γ) : Relates R (f <$> m) := hm

theorem Relates.ite {c : Prop} [Decidable c] {m n : ServerM σ β α} (hm : Relates R m)
    (hn : Relates R n) : Relates R (if c then m else n) := by
  split
  · exact hm
  · exact hn

end

section

variable (hR : CodeRelation id R)

include hR

/-! ### Sequencing -/

theorem relates_pure (a : α) : Relates R (pure a : ServerM σ β α) := fun s _ => hR.refl s

theorem Relates.bind {m : ServerM σ β α} {f : α → ServerM σ β γ} (hm : Relates R m)
    (hf : ∀ a, Relates R (f a)) : Relates R (m >>= f) :=
  fun _ hs => hR.trans (hm hs) (hf _ ((hR.frame (hm hs)).keyed hs))

theorem relates_listMapM {f : α → ServerM σ β γ} (l : List α) (hf : ∀ a, Relates R (f a)) :
    Relates R (l.mapM f) := by
  induction l with
  | nil =>
      rw [List.mapM_nil]
      exact relates_pure hR _
  | cons a l ih =>
      rw [List.mapM_cons]
      exact (hf a).bind hR fun _ => ih.bind hR fun _ => relates_pure hR _

theorem relates_action {m : ServerM σ β α} (h : ∀ s : Server σ β, Action id s (m.exec s)) :
    Relates R m := fun s _ => hR.action (h s)

/-! ### Reports -/

theorem relates_record {a : Activity β} (ha : a.IsSilent) :
    Relates R (record a : ServerM σ β Unit) := relates_action hR fun _ => .record ha

theorem relates_log (level : LogLevel) (text : String) :
    Relates R (log level text : ServerM σ β Unit) := relates_record hR trivial

/-- A message for the actor whom the host serves is sent, logged, or lost. -/
theorem deliver_of_sinkOf {s : Server σ β} {actor : Actor} (hsink : s.sinkOf id = some actor)
    (message : Message) : R s ((deliver co actor message).exec s) := by
  unfold deliver Report.deliver
  cases houtbox : actor.outbox? with
  | none => exact hR.action (.record trivial)
  | some outbox =>
      dsimp only
      cases co.isOpen outbox with
      | true =>
          refine hR.action (.send ?_ message)
          rw [hsink, Option.bind_some, houtbox]
      | false => exact hR.refl s

theorem forM_deliver_of_sinkOf (messages : List Message) {s : Server σ β} {actor : Actor}
    (hsink : s.sinkOf id = some actor) : R s ((messages.forM (deliver co actor)).exec s) := by
  induction messages generalizing s with
  | nil => exact hR.refl s
  | cons message messages ih =>
      have hfirst : R s ((deliver co actor message).exec s) := deliver_of_sinkOf hR hsink message
      rw [exec_forM_cons]
      exact hR.trans hfirst (ih ((hR.frame hfirst).sinkOf_eq id ▸ hsink))

/-- A failure under the host is reported to the actor whom the host serves. -/
theorem relates_reportFailure (intro : String) (error : ScriptError) :
    Relates R (reportFailure co id intro error : ServerM σ β Unit) := by
  apply relates_host?_bind
  intro s hs
  cases hsink : (s.host? id).bind (·.sink) with
  | none => exact relates_log hR _ _ hs
  | some actor => exact forM_deliver_of_sinkOf hR _ hsink

/-! ### Ways into a function -/

theorem relates_evaluate (hrun : RunsBy id R run) {frame : Frame} (hf : frame.host = id)
    (f : StoredFunction β) (arguments : List Binding) :
    Relates R (evaluate co run frame f arguments) := by
  unfold evaluate
  apply relates_host?_bind
  intro s hs
  cases hh : s.host? frame.host with
  | none => exact hR.refl s
  | some h =>
      rw [hf] at hh
      have hcall : R s (s.record (.asked frame (.call f arguments))) :=
        hR.action (.call hh hf f arguments)
      exact hR.trans hcall (hrun frame _ hf ((hR.frame hcall).keyed hs))

/-- Asking a producer for a value changes the producer. -/
theorem relates_force (b : Binding) : Relates R (force co id b : ServerM σ β Value) := by
  unfold force
  split
  · exact relates_pure hR _
  · rename_i index
    apply relates_host?_bind
    intro s hs
    cases (s.host? id).bind (·.producers[index]?) with
    | none => exact hR.refl s
    | some producer =>
        have hforce : Action id s _ :=
          .force index { producer with evaluations := producer.evaluations + 1 }
        exact hR.trans (hR.action hforce) (hR.action (.record trivial))

theorem relates_checkArity (head : String) (f : StoredFunction β) (arguments : List Binding) :
    Relates R (checkArity co id head f arguments : ServerM σ β (Except ScriptError Unit)) := by
  have hforce : Relates R (arguments.mapM (force co id) : ServerM σ β (List Value)) :=
    relates_listMapM hR arguments fun b => relates_force hR b
  unfold checkArity
  exact .ite (relates_pure hR _) (hforce.bind hR fun _ => relates_pure hR _)

theorem relates_callChecked (hrun : RunsBy id R run) {frame : Frame} (hf : frame.host = id)
    (head : String) (f : StoredFunction β) (arguments : List Binding) :
    Relates R (callChecked co run frame head f arguments) := by
  subst hf
  unfold callChecked
  apply (relates_checkArity hR head f arguments).bind hR
  intro result
  cases result with
  | error e => exact relates_pure hR _
  | ok u => exact relates_evaluate hR hrun rfl f arguments

theorem relates_callWith (hrun : RunsBy id R run) (actor : Actor) (f : StoredFunction β)
    (values : List Value) : Relates R (callWith co run id actor f values) := by
  unfold callWith
  apply relates_get_bind
  intro s hs
  exact Relates.ite (relates_pure hR _) (relates_callChecked hR hrun rfl _ f _) hs

theorem relates_callTextWith (hrun : RunsBy id R run) (actor : Actor) (name : String)
    (coords : List Int) (text : String) :
    Relates R (callTextWith co run id actor name coords text) := by
  unfold callTextWith
  apply relates_get_bind
  intro s hs
  refine Relates.ite (relates_pure hR _) ?_ hs
  apply relates_host?_bind
  intro s hs
  cases (s.host? id).bind (·.function? name) with
  | none => exact hR.refl s
  | some f =>
      dsimp only
      split
      · exact hR.refl s
      · split
        · exact hR.refl s
        · exact relates_callChecked hR hrun rfl _ f _ hs

theorem relates_callHookWith (hrun : RunsBy id R run) {frame : Frame} (hf : frame.host = id)
    (f : StoredFunction β) (values : List Value) :
    Relates R (callHookWith co run frame f values) := by
  subst hf
  unfold callHookWith
  apply relates_get_bind
  intro s hs
  refine Relates.ite (relates_pure hR _) ?_ hs
  split
  · exact relates_pure hR _
  · apply (relates_evaluate hR hrun rfl f _).bind hR
    intro result
    cases result with
    | ok value => exact relates_pure hR _
    | error e => exact (relates_reportFailure hR _ e).bind hR fun _ => relates_pure hR _

/-! ### Definitions -/

/-- The configuration of a root is taken over when its function has been called. -/
theorem relates_readConfig (hrun : RunsBy id R run) {s : Server σ β} (hs : s.Keyed) {h : Host β}
    (hh : s.host? id = some h) (hroot : h.owner = none) : R s ((readConfig co run id).exec s) := by
  unfold readConfig
  rw [exec_bind, eval_host?, exec_host?, hh, Option.bind_some]
  cases h.function? HookKind.configName with
  | none => exact hR.refl s
  | some hook =>
      have hframe : ({ host := id, actor := co.world.serverActor } : Frame).host = id := rfl
      have hcall : R s ((callHookWith co run _ hook []).exec s) :=
        relates_callHookWith hR hrun hframe hook [] hs
      dsimp only
      rw [exec_bind]
      split
      · exact hcall
      · split
        · exact hcall
        · rename_i configuration _
          -- the call leaves the host in place, and it is still a root
          have hown := (hR.frame hcall).own
          rw [hh, Option.map_some] at hown
          obtain ⟨h', hh', hshape⟩ := Option.map_eq_some_iff.1 hown
          have howner : h'.owner = none := by
            have hsame : h'.shape.owner = h.shape.owner := by rw [hshape]
            exact hsame.trans hroot
          exact hR.trans hcall (hR.action (.configure hh' howner configuration))

theorem relates_defineWith (hrun : RunsBy id R run) (f : StoredFunction β) :
    Relates R (defineWith co run id f) := by
  unfold defineWith
  apply relates_host?_bind
  intro s hs
  cases hh : s.host? id with
  | none => exact hR.refl s
  | some h =>
      have hdefine : R s (s.define id h f) := hR.action (.define hh f)
      dsimp only
      rw [exec_bind, exec_modifyHost, exec_ite]
      unfold Server.define at hdefine
      split
      · rename_i hmain
        rw [if_neg hmain] at hdefine
        exact hdefine
      · rename_i hmain
        rw [if_pos (not_not.1 hmain)] at hdefine
        unfold EventDispatch.bindName at hdefine
        cases hk : HookKind.ofName f.name with
        | config =>
            rw [hk] at hdefine
            dsimp only
            rw [exec_ite]
            split
            · rename_i hroot
              have hown : (s.modifyHost id (·.insertFunction f)).host? id =
                  some (h.insertFunction f) := by
                rw [Server.host?_modifyHost_self, hh, Option.map_some]
              exact hR.trans hdefine (relates_readConfig hR hrun ((hR.frame hdefine).keyed hs) hown
                (Option.isNone_iff_eq_none.1 hroot))
            · exact hdefine
        | _ =>
            rw [hk] at hdefine
            exact hdefine

theorem relates_delete (module : Option String) (name : String) :
    Relates R (delete id module name : ServerM σ β Unit) := by
  unfold delete
  apply relates_host?_bind
  intro s hs
  cases hh : s.host? id with
  | none => exact hR.refl s
  | some h =>
      have hdelete : R s (s.delete id module name) := hR.action (.delete hh module name)
      unfold Server.delete EventDispatch.unbindName at hdelete
      dsimp only
      rw [exec_bind, exec_modifyHost]
      cases hn : HookKind.ofName name with
      | _ =>
          rw [hn] at hdelete
          exact hdelete

/-! ### Libraries -/

theorem relates_findModule (name : String) (allowLibrary : Bool) :
    Relates R (findModule co name allowLibrary : ServerM σ β (Option Module)) := by
  unfold findModule
  dsimp only
  cases (co.catalogue.find name allowLibrary).warning with
  | none => exact relates_pure hR _
  | some warning => exact (relates_log hR _ _).bind hR fun _ => relates_pure hR _

/-- A library is run if it has not been imported yet, and marked before. -/
theorem relates_importModule (hrun : RunsBy id R run) {frame : Frame} (hf : frame.host = id)
    (name : String) : Relates R (importModule co run frame name) := by
  subst hf
  intro s hs
  have hfind : R s ((findModule co name true : ServerM σ β (Option Module)).exec s) :=
    relates_findModule hR name true hs
  have hs' := (hR.frame hfind).keyed hs
  unfold importModule
  rw [exec_bind]
  refine hR.trans hfind ?_
  split
  · exact hR.refl _
  · rename_i module _
    rw [exec_bind, eval_host?, exec_host?]
    split
    · exact hR.refl _
    · rename_i h hh
      rw [exec_ite]
      split
      · exact hR.refl _
      · rename_i hfresh
        have hnew : module.name ∉ h.imported := by simpa using hfresh
        have hmark := hR.action (.importModule hh (rfl : frame.host = frame.host) module hnew)
        exact hR.trans hmark (hrun frame _ rfl ((hR.frame hmark).keyed hs'))

end

/-! ### Global state -/

omit [StateStore σ] in
theorem eval_holdState (s : Server σ β) (h : Host β) (blob : Option Blob) :
    (holdState h blob).eval s = h.hold blob := by
  unfold holdState
  cases h.isRoot <;> rfl

omit [StateStore σ] in
/-- What a change of the state in memory comes to. -/
theorem exec_holdState {s : Server σ β} (hs : s.Keyed) {k : HostId} {h : Host β}
    (hh : s.host? k = some h) (blob : Option Blob) :
    (holdState h blob).exec s = s.hold k h blob := by
  have hkey : h.id = k := hs hh
  have hinsert : s.insertHost (h.hold blob) = s.modifyHost k (·.hold blob) :=
    Server.insertHost_eq_modifyHost _ hh rfl hkey
  unfold holdState Server.hold Server.holdEvents
  rw [← hinsert, ← hkey]
  cases hroot : h.isRoot <;> rfl

theorem eval_saveAndOpen (s : Server σ β) {h : Host β} {name : String} {blob : Option Blob}
    (hn : h.name? = some name) (hg : h.globalState = blob) :
    (saveAndOpen h).eval s = (StoreRequest.ofState blob).result (.globalState name) s.store := by
  subst hg
  unfold saveAndOpen
  rw [eval_bind, eval_saveState s hn]
  cases (StoreRequest.ofState h.globalState).result (.globalState name) s.store <;> rfl

/-- Saving a host that is in place is a request on its slot, and opens its window if that
succeeds. -/
theorem exec_saveAndOpen {s : Server σ β} (hs : s.Keyed) {k : HostId} {h : Host β} {name : String}
    {blob : Option Blob} (hh : s.host? k = some h) (hn : h.name? = some name)
    (hg : h.globalState = blob) :
    (saveAndOpen h).exec s =
      match (StoreRequest.ofState blob).result (.globalState name) s.store with
      | .ok () => (s.request (.ofState blob) (.globalState name)).openWindow k
      | .error _ => s.request (.ofState blob) (.globalState name) := by
  subst hg
  unfold saveAndOpen
  rw [exec_bind, eval_saveState s hn, exec_saveState s hn]
  cases (StoreRequest.ofState h.globalState).result (.globalState name) s.store with
  | error e => rfl
  | ok u =>
      have hkey : h.id = k := hs hh
      exact Server.insertHost_eq_modifyHost
        (s := s.request (.ofState h.globalState) (.globalState name)) _ hh rfl hkey

/-- A change of the global state of an app is a single step, with one of three outcomes.  The root
holds the new state in any case. -/
theorem storageStep_writeGlobalState (id : HostId) {s : Server σ β} (hs : s.Keyed) {h : Host β}
    {name : String} (hh : s.host? (s.rootOf id) = some h) (hn : h.name? = some name)
    (blob : Option Blob) :
    StorageStep id s ((writeGlobalState id blob).exec s) ∧
      ∃ x, ((writeGlobalState id blob).exec s).host? (s.rootOf id) = some x ∧
        x.globalState = blob := by
  have hheld := Server.host?_hold hh blob
  have hhold : CodeFrame id s (s.hold (s.rootOf id) h blob) := .of_hold h blob
  have hkeyed := hhold.keyed hs
  have hid : h.id = s.rootOf id := hs hh
  unfold writeGlobalState
  rw [exec_bind, eval_get, exec_get, exec_bind, eval_host?, exec_host?, hh]
  dsimp only
  rw [exec_ite, if_neg (by simp [hn]), hid]
  unfold storeState
  rw [exec_bind, eval_bind, exec_bind, eval_holdState, exec_holdState hs hh, eval_ite, exec_ite]
  rcases Nat.eq_zero_or_pos h.saveTimeout with hw | hw
  · have hclosed : ¬ 0 < (h.hold blob).saveTimeout := by
      show ¬ 0 < h.saveTimeout
      omega
    have hname : (h.hold blob).name? = some name := hn
    have hstate : (h.hold blob).globalState = blob := rfl
    rw [if_neg hclosed, if_neg hclosed, exec_saveAndOpen hkeyed hheld hname hstate,
      eval_saveAndOpen _ hname hstate, Server.store_hold]
    cases hr : (StoreRequest.ofState blob).result (.globalState name) s.store with
    | ok u => exact ⟨.save hh hn hw blob hr, _, Server.host?_openWindow hheld, rfl⟩
    | error e => exact ⟨.refuse hh hn hw blob hr, _, hheld, rfl⟩
  · have hopen : 0 < (h.hold blob).saveTimeout := hw
    rw [if_pos hopen, if_pos hopen]
    exact ⟨.keep hh hn hw blob, _, hheld, rfl⟩

section

variable (hR : CodeRelation id R)

include hR

theorem relates_writeGlobalState (blob : Option Blob) :
    Relates R (writeGlobalState id blob : ServerM σ β (Except StoreError Bool)) := by
  intro s hs
  cases hh : s.host? (s.rootOf id) with
  | none =>
      unfold writeGlobalState
      rw [exec_bind, eval_get, exec_get, exec_bind, eval_host?, exec_host?, hh]
      exact hR.refl s
  | some h =>
      cases hn : h.name? with
      | none =>
          unfold writeGlobalState
          rw [exec_bind, eval_get, exec_get, exec_bind, eval_host?, exec_host?, hh]
          dsimp only
          rw [exec_ite, if_pos (by simp [hn])]
          exact hR.refl s
      | some name =>
          exact hR.action (.storage (storageStep_writeGlobalState id hs hh hn blob).1)

/-! ### Resources -/

/-- A host that may use resources goes on with them. -/
theorem relates_withScope {shared : Bool} {denied : α}
    {use : Host β → ServerM σ β (Except StoreError α)}
    (h : ∀ s : Server σ β, s.Keyed → ∀ h, s.host? id = some h → (h.name? ≠ none ∨ shared = true) →
      R s ((use h).exec s)) : Relates R (withScope id shared denied use) := by
  unfold withScope
  apply relates_host?_bind
  intro s hs
  cases hh : s.host? id with
  | none => exact hR.refl s
  | some x =>
      dsimp only
      rw [exec_ite]
      split
      · exact hR.refl s
      · rename_i hdenied
        apply h s hs x hh
        rw [not_and_or] at hdenied
        rcases hdenied with hn | hshared
        · left
          simpa [Option.isNone_iff_eq_none] using hn
        · right
          simpa using hshared

theorem relates_readTag (file : Option String) (shared : Bool) :
    Relates R (readTag id file shared : ServerM σ β (Except StoreError (Option Blob))) := by
  apply relates_withScope hR
  intro s _ h _ _
  cases file with
  | some file => exact hR.refl s
  | none => exact hR.action (.storage .answer)

theorem relates_writeTag (blob : Blob) (file : Option String) (shared : Bool) :
    Relates R (writeTag id blob file shared : ServerM σ β (Except StoreError Bool)) := by
  apply relates_withScope hR
  intro s hs h hh hscope
  cases file with
  | some file => exact hR.action (.storage (.request hh (.write blob) file .tag shared hscope))
  | none => exact relates_writeGlobalState hR (some blob) hs

theorem relates_appendLog (file : String) (shared : Bool) (typeName : String)
    (lines : List String) :
    Relates R (appendLog id file shared typeName lines :
      ServerM σ β (Except StoreError Bool)) := by
  apply relates_withScope hR
  intro s _ h hh hscope
  exact hR.action (.storage (.request hh (.append lines) file _ shared hscope))

theorem relates_readText (file : String) (shared : Bool) :
    Relates R (readText id file shared :
      ServerM σ β (Except StoreError (Option (List String)))) :=
  relates_withScope hR fun s _ _ _ _ => hR.refl s

theorem relates_remove (file : String) (shared : Bool) (typeName : String) :
    Relates R (remove id file shared typeName : ServerM σ β (Except StoreError Bool)) := by
  apply relates_withScope hR
  intro s _ h hh hscope
  exact hR.action (.storage (.request hh .delete file _ shared hscope))

/-! ### Scripts -/

/-- The answer to a query of code. -/
theorem relates_answer (hrun : RunsBy id R run) {frame : Frame} (hf : frame.host = id)
    (q : Query β) : Relates R (answer co run frame q) := by
  subst hf
  have hpure : ∀ {α : Type} (a : α), Relates R (pure a : ServerM σ β α) := relates_pure hR
  cases q with
  | host => exact fun s _ => hR.refl s
  | isStopped => exact fun s _ => hR.refl s
  | define f => exact (relates_defineWith hR hrun f).bind hR fun _ => hpure _
  | delete module name => exact relates_delete hR module name
  | setGlobal module name b => exact relates_action hR fun _ => .setGlobal module name b
  | defer label =>
      apply relates_host?_bind
      intro s hs
      cases hh : s.host? frame.host with
      | none => exact hR.refl s
      | some h =>
          have hkey : h.id = frame.host := hs hh
          have hdefer : R s (s.modifyHost frame.host fun h => (h.addProducer label).2) :=
            hR.action (.defer label)
          rw [← Server.insertHost_eq_modifyHost (fun h => (h.addProducer label).2) hh rfl hkey]
            at hdefer
          exact hdefer
  | force b => exact relates_force hR b
  | importModule name => exact relates_importModule hR hrun rfl name
  | writeState blob => exact (relates_writeGlobalState hR blob).bind hR fun _ => hpure _
  | readTag file shared => exact (relates_readTag hR file shared).bind hR fun _ => hpure _
  | writeTag blob file shared =>
      exact (relates_writeTag hR blob file shared).bind hR fun _ => hpure _
  | appendLog file shared typeName lines =>
      exact (relates_appendLog hR file shared typeName lines).bind hR fun _ => hpure _
  | readText file shared => exact (relates_readText hR file shared).bind hR fun _ => hpure _
  | remove file shared typeName =>
      exact (relates_remove hR file shared typeName).bind hR fun _ => hpure _
  | note text => exact relates_record hR trivial

/-- A script does what the answers to its queries do. -/
theorem relates_interpret {handle : (q : Query β) → ServerM σ β q.Answer}
    (h : ∀ q, Relates R (handle q)) (script : Script β α) :
    Relates R (script.interpret handle) := by
  induction script with
  | done a => exact relates_pure hR a
  | ask q next ih => exact (h q).bind hR fun a => ih a

/-- Scripts stay in the relation for the host that they are run for, however deep evaluations
nest. -/
theorem runsBy_runScript (depth : Nat) : RunsBy id R (runScript co depth) := by
  induction depth with
  | zero => exact fun _ _ _ => relates_pure hR _
  | succ depth ih => exact fun _ script hf => relates_interpret hR (relates_answer hR ih hf) script

theorem runsBy_runner : RunsBy id R (runner co) := runsBy_runScript hR maxDepth

/-! ### Ways to the code of a host -/

theorem relates_callHook {frame : Frame} (hf : frame.host = id) (f : StoredFunction β)
    (values : List Value) : Relates R (callHook co frame f values) :=
  relates_callHookWith hR (runsBy_runner hR) hf f values

/-- A function that is bound to an event runs under the host that it is bound for. -/
theorem relates_notify (arguments : List Value) {binding : EventBinding} (hb : binding.host = id) :
    Relates R (notify co arguments binding) := by
  subst hb
  unfold notify
  apply relates_host?_bind
  intro s hs
  cases (s.host? binding.host).bind (·.function? binding.function) with
  | none => exact hR.refl s
  | some f => exact relates_callHook hR rfl f arguments hs

/-- A failed command is reported. -/
theorem relates_reportCommand (result : Except ScriptError Value) :
    Relates R (reportCommand co id result : ServerM σ β Value) := by
  unfold reportCommand
  cases result with
  | ok value => exact relates_pure hR _
  | error e => exact (relates_reportFailure hR _ e).bind hR fun _ => relates_pure hR _

theorem relates_command (actor : Actor) (f : StoredFunction β) (values : List Value) :
    Relates R (command co id actor f values) :=
  (relates_callWith hR (runsBy_runner hR) actor f values).bind hR fun result =>
    relates_reportCommand hR result

theorem relates_commandText (actor : Actor) (name : String) (coords : List Int) (text : String) :
    Relates R (commandText co id actor name coords text) :=
  (relates_callTextWith hR (runsBy_runner hR) actor name coords text).bind hR fun result =>
    relates_reportCommand hR result

end

end ServerM

end ScriptHost
