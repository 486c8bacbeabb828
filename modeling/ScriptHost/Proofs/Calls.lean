import Mathlib
import ScriptHost.Proofs.CodeSteps
/-!
# Calls and sweeps

What a server does to others: it has functions called, and it has markers removed from the world.
Functions are called when a call from outside, an event or the teardown of a host asks for it, and
when code defines the configuration function of a root; code has no other way to a call, and none to
the markers.  Every way to a call looks first whether execution is halted, and code neither halts
nor resumes it.

`Does P s t` says that on the way from `s` to `t` only deeds of some kind were done, and no function
was called while execution was halted.  As in the proof that evaluations are made of steps of code,
the model is gone through from the answers to queries up to whole evaluations.

## Main statements

* `Deed`, `Activity.deed?`: what a server does to others.
* `Server.Does`, `ServerM.DoesOnly`: which deeds were done.
* `Server.Asks`: one call, and what its code does.
* `ServerM.doesOnly_callHookWith`, `ServerM.doesOnly_callWith`, `ServerM.doesOnly_callTextWith`:
  a way into a function calls that function.
* `ServerM.runsOnly_runner`: code only has configuration functions called.
-/

namespace ScriptHost

variable {σ β α γ : Type}

/-- What a server does to others. -/
inductive Deed (β : Type) where
  /-- Has a function called. -/
  | call (f : StoredFunction β)
  /-- Has the markers with a tag removed from the world. -/
  | sweep (tag : String)

/-- What the activity does to others, if it does anything to them. -/
def Activity.deed? : Activity β → Option (Deed β)
  | asked _ (.call f _) => some (.call f)
  | swept tag => some (.sweep tag)
  | _ => none

/-- The deed is a call of a configuration function, the only one that code can ask for. -/
def Deed.IsConfigCall : Deed β → Prop
  | call f => f.name = HookKind.configName
  | sweep _ => False

instance (d : Deed β) : Decidable d.IsConfigCall :=
  match d with
  | .call f => inferInstanceAs (Decidable (f.name = HookKind.configName))
  | .sweep _ => inferInstanceAs (Decidable False)

/-! ## Deeds on the way from one server to another -/

/-- On the way from one server to another execution is neither halted nor resumed, deeds of some
kind are done, and no function is called if execution is halted. -/
structure Server.Does (P : Deed β → Prop) (s t : Server σ β) : Prop where
  isStopped : t.isStopped = s.isStopped
  journal : ∃ new, t.journal = new ++ s.journal ∧
    ∀ a ∈ new, ∀ d, a.deed? = some d → P d ∧ ∀ f, d = .call f → s.isStopped = false

namespace Server.Does

variable {P : Deed β → Prop} {s t u : Server σ β}

/-- Nothing is done that the journal would tell. -/
theorem of_eq (hstopped : t.isStopped = s.isStopped) (hjournal : t.journal = s.journal) :
    Does P s t :=
  ⟨hstopped, [], hjournal, fun _ ha => absurd ha List.not_mem_nil⟩

theorem refl (s : Server σ β) : Does P s s := of_eq rfl rfl

theorem trans (h : Does P s t) (g : Does P t u) : Does P s u := by
  obtain ⟨new, hnew, hdeeds⟩ := h.journal
  obtain ⟨new', hnew', hdeeds'⟩ := g.journal
  refine ⟨g.isStopped.trans h.isStopped, new' ++ new, ?_, ?_⟩
  · rw [hnew', hnew, List.append_assoc]
  · intro a ha d hd
    rcases List.mem_append.1 ha with hmem | hmem
    · rw [← h.isStopped]
      exact hdeeds' a hmem d hd
    · exact hdeeds a hmem d hd

/-- What is written into the journal is no deed. -/
theorem record {a : Activity β} (ha : a.deed? = none) : Does P s (s.record a) := by
  refine ⟨rfl, [a], rfl, List.forall_mem_singleton.2 ?_⟩
  intro d hd
  rw [ha] at hd
  cases hd

/-- A call is written into the journal. -/
theorem record_call {f : StoredFunction β} (hs : s.isStopped = false) (hf : P (.call f))
    (frame : Frame) (arguments : List Binding) :
    Does P s (s.record (.asked frame (.call f arguments))) := by
  refine ⟨rfl, [_], rfl, List.forall_mem_singleton.2 ?_⟩
  intro d hd
  obtain rfl : .call f = d := Option.some.inj hd
  exact ⟨hf, fun _ _ => hs⟩

/-- A sweep is written into the journal. -/
theorem record_sweep {tag : String} (hP : P (.sweep tag)) : Does P s (s.record (.swept tag)) := by
  refine ⟨rfl, [_], rfl, List.forall_mem_singleton.2 ?_⟩
  intro d hd
  obtain rfl : .sweep tag = d := Option.some.inj hd
  exact ⟨hP, fun _ hf => nomatch hf⟩

theorem request [StateStore σ] (r : StoreRequest) (key : ResourceKey) :
    Does P s (s.request r key) :=
  ⟨rfl, [.stored r.change key], rfl, List.forall_mem_singleton.2 fun _ hd => nomatch hd⟩

/-- While execution is halted no function is called. -/
theorem not_call (h : Does P s t) (hs : s.isStopped = true) :
    ∃ new, t.journal = new ++ s.journal ∧ ∀ a ∈ new, ∀ f, a.deed? ≠ some (.call f) := by
  obtain ⟨new, hnew, hdeeds⟩ := h.journal
  refine ⟨new, hnew, fun a ha f hf => ?_⟩
  have hfalse := (hdeeds a ha _ hf).2 f rfl
  rw [hs] at hfalse
  cases hfalse

end Server.Does

/-- The evaluator was asked to call a function with some values, and after that only what code has
called by defining it. -/
def Server.Asks (frame : Frame) (f : StoredFunction β) (values : List Value) (s t : Server σ β) :
    Prop :=
  ∃ new, t.journal = new ++ .asked frame (.call f (values.map .value)) :: s.journal ∧
    ∀ a ∈ new, ∀ d, a.deed? = some d → d.IsConfigCall

theorem Server.Asks.trans_does {frame : Frame} {f : StoredFunction β} {values : List Value}
    {s t u : Server σ β} (h : Asks frame f values s t) (g : Does Deed.IsConfigCall t u) :
    Asks frame f values s u := by
  obtain ⟨new, hnew, hdeeds⟩ := h
  obtain ⟨new', hnew', hdeeds'⟩ := g.journal
  refine ⟨new' ++ new, ?_, ?_⟩
  · rw [hnew', hnew, List.append_assoc]
  · intro a ha d hd
    rcases List.mem_append.1 ha with hmem | hmem
    · exact (hdeeds' a hmem d hd).1
    · exact hdeeds a hmem d hd

namespace ServerM

/-- The operation only does deeds of some kind, and has no function called while execution is
halted. -/
def DoesOnly (P : Deed β → Prop) (m : ServerM σ β α) : Prop :=
  ∀ s : Server σ β, s.Does P (m.exec s)

variable {P : Deed β → Prop}

/-! ## Sequencing -/

theorem doesOnly_pure (a : α) : DoesOnly P (pure a : ServerM σ β α) := fun s => .refl s

theorem DoesOnly.bind {m : ServerM σ β α} {f : α → ServerM σ β γ} (hm : DoesOnly P m)
    (hf : ∀ a, DoesOnly P (f a)) : DoesOnly P (m >>= f) :=
  fun s => (hm s).trans (hf _ _)

theorem DoesOnly.map {m : ServerM σ β α} (hm : DoesOnly P m) (f : α → γ) :
    DoesOnly P (f <$> m) :=
  hm

theorem DoesOnly.ite {c : Prop} [Decidable c] {m n : ServerM σ β α} (hm : DoesOnly P m)
    (hn : DoesOnly P n) : DoesOnly P (if c then m else n) := by
  split
  · exact hm
  · exact hn

/-- What follows a look at the server may use what was seen. -/
theorem doesOnly_get_bind {f : Server σ β → ServerM σ β α}
    (h : ∀ s : Server σ β, s.Does P ((f s).exec s)) : DoesOnly P (get >>= f) := h

/-- What follows a look at a host may use whether the host is there. -/
theorem doesOnly_host?_bind {id : HostId} {f : Option (Host β) → ServerM σ β α}
    (h : ∀ s : Server σ β, s.Does P ((f (s.host? id)).exec s)) :
    DoesOnly P (host? id >>= f) := h

/-- A change that the journal does not tell. -/
theorem doesOnly_modify {f : Server σ β → Server σ β}
    (hf : ∀ s, (f s).isStopped = s.isStopped ∧ (f s).journal = s.journal) :
    DoesOnly P (modify f : ServerM σ β PUnit) :=
  fun s => .of_eq (hf s).1 (hf s).2

theorem doesOnly_modifyHost (id : HostId) (f : Host β → Host β) :
    DoesOnly P (modifyHost id f : ServerM σ β Unit) := fun _ => .of_eq rfl rfl

theorem doesOnly_insertHost (h : Host β) : DoesOnly P (insertHost h : ServerM σ β Unit) :=
  fun _ => .of_eq rfl rfl

theorem doesOnly_remember (e : StateEvent) : DoesOnly P (remember e : ServerM σ β Unit) :=
  fun _ => .of_eq rfl rfl

theorem doesOnly_listForM {f : α → ServerM σ β PUnit} (l : List α)
    (hf : ∀ a, DoesOnly P (f a)) : DoesOnly P (l.forM f) := by
  induction l with
  | nil => exact doesOnly_pure _
  | cons a l ih => exact (hf a).bind fun _ => ih

theorem doesOnly_optionForM {f : α → ServerM σ β PUnit} (o : Option α)
    (hf : ∀ a, DoesOnly P (f a)) : DoesOnly P (o.forM f) := by
  cases o with
  | none => exact doesOnly_pure _
  | some a => exact hf a

theorem doesOnly_listMapM {f : α → ServerM σ β γ} (l : List α)
    (hf : ∀ a, DoesOnly P (f a)) : DoesOnly P (l.mapM f) := by
  induction l with
  | nil =>
      rw [List.mapM_nil]
      exact doesOnly_pure _
  | cons a l ih =>
      rw [List.mapM_cons]
      exact (hf a).bind fun _ => ih.bind fun _ => doesOnly_pure _

/-! ## Reports -/

variable {co : Collaborators β} {id : HostId}

theorem doesOnly_record {a : Activity β} (ha : a.deed? = none) :
    DoesOnly P (record a : ServerM σ β Unit) := fun _ => .record ha

theorem doesOnly_record_swept {tag : String} (hP : P (.sweep tag)) :
    DoesOnly P (record (.swept tag) : ServerM σ β Unit) := fun _ => .record_sweep hP

theorem doesOnly_log (level : LogLevel) (text : String) :
    DoesOnly P (log level text : ServerM σ β Unit) := doesOnly_record rfl

theorem doesOnly_deliver (actor : Actor) (message : Message) :
    DoesOnly P (deliver co actor message : ServerM σ β Unit) := by
  unfold deliver
  split
  · exact doesOnly_record rfl
  · exact doesOnly_log _ _
  · exact doesOnly_pure _

theorem doesOnly_report (actor : Actor) (intro : String) (error : ScriptError) :
    DoesOnly P (report co actor intro error : ServerM σ β Unit) :=
  doesOnly_listForM _ fun _ => doesOnly_deliver actor _

theorem doesOnly_reportFailure (id : HostId) (intro : String) (error : ScriptError) :
    DoesOnly P (reportFailure co id intro error : ServerM σ β Unit) := by
  unfold reportFailure
  apply doesOnly_host?_bind
  intro s
  cases (s.host? id).bind (·.sink) with
  | some actor => exact doesOnly_report actor intro error s
  | none => exact doesOnly_log _ _ s

/-! ## Ways into a function -/

/-- A way to run scripts that only does deeds of some kind. -/
def RunsOnly (P : Deed β → Prop) (run : Runner σ β) : Prop :=
  ∀ (frame : Frame) (script : Script β (Except EvalError Value)), DoesOnly P (run frame script)

variable {run : Runner σ β}

theorem doesOnly_runModule (hrun : RunsOnly P run) (frame : Frame) (module : Module) :
    DoesOnly P (runModule co run frame module) :=
  (doesOnly_record rfl).bind fun _ => hrun frame _

/-- A function is called when it is evaluated; whether execution is halted is not looked at here. -/
theorem does_evaluate (hrun : RunsOnly P run) {s : Server σ β} (hs : s.isStopped = false)
    {f : StoredFunction β} (hf : P (.call f)) (frame : Frame) (arguments : List Binding) :
    s.Does P ((evaluate co run frame f arguments).exec s) := by
  unfold evaluate
  rw [exec_bind, eval_host?, exec_host?]
  cases s.host? frame.host with
  | none => exact .refl s
  | some h =>
      have hcall : s.Does P (s.record (.asked frame (.call f arguments))) :=
        .record_call hs hf frame arguments
      exact hcall.trans (hrun frame _ _)

theorem doesOnly_force (b : Binding) : DoesOnly P (force co id b : ServerM σ β Value) := by
  unfold force
  split
  · exact doesOnly_pure _
  · rename_i index
    apply doesOnly_host?_bind
    intro s
    cases (s.host? id).bind (·.producers[index]?) with
    | none => exact .refl s
    | some producer =>
        exact ((doesOnly_modifyHost id _).bind fun _ =>
          (doesOnly_record rfl).bind fun _ => doesOnly_pure _) s

theorem doesOnly_checkArity (head : String) (f : StoredFunction β) (arguments : List Binding) :
    DoesOnly P (checkArity co id head f arguments : ServerM σ β (Except ScriptError Unit)) := by
  unfold checkArity
  apply DoesOnly.ite
  · exact doesOnly_pure _
  · exact (doesOnly_listMapM _ fun b => doesOnly_force b).bind fun _ => doesOnly_pure _

theorem does_callChecked (hrun : RunsOnly P run) {s : Server σ β} (hs : s.isStopped = false)
    {f : StoredFunction β} (hf : P (.call f)) (frame : Frame) (head : String)
    (arguments : List Binding) :
    s.Does P ((callChecked co run frame head f arguments).exec s) := by
  have hcheck : s.Does P ((checkArity co frame.host head f arguments).exec s) :=
    doesOnly_checkArity head f arguments s
  unfold callChecked
  rw [exec_bind]
  cases (checkArity co frame.host head f arguments).eval s with
  | error e => exact hcheck
  | ok u => exact hcheck.trans (does_evaluate hrun (hcheck.isStopped.trans hs) hf frame arguments)

/-- A call with values calls the function. -/
theorem doesOnly_callWith (hrun : RunsOnly P run) (actor : Actor) {f : StoredFunction β}
    (hf : P (.call f)) (values : List Value) : DoesOnly P (callWith co run id actor f values) := by
  unfold callWith
  apply doesOnly_get_bind
  intro s
  cases hs : s.isStopped with
  | true => exact .refl s
  | false => exact does_callChecked hrun hs hf _ _ _

/-- A call with a text calls a function of the host. -/
theorem doesOnly_callTextWith (hrun : RunsOnly P run) (hf : ∀ f, P (.call f)) (actor : Actor)
    (name : String) (coords : List Int) (text : String) :
    DoesOnly P (callTextWith co run id actor name coords text) := by
  unfold callTextWith
  apply doesOnly_get_bind
  intro s
  cases hs : s.isStopped with
  | true => exact .refl s
  | false =>
      rw [if_neg Bool.false_ne_true, exec_bind, eval_host?, exec_host?]
      split
      · exact .refl s
      · split
        · exact .refl s
        · split
          · exact .refl s
          · exact does_callChecked hrun hs (hf _) _ _ _

/-- A hook is called if it accepts the arguments. -/
theorem doesOnly_callHookWith (hrun : RunsOnly P run) (frame : Frame) {f : StoredFunction β}
    (hf : P (.call f)) (values : List Value) : DoesOnly P (callHookWith co run frame f values) := by
  unfold callHookWith
  apply doesOnly_get_bind
  intro s
  cases hs : s.isStopped with
  | true => exact .refl s
  | false =>
      rw [if_neg Bool.false_ne_true]
      split
      · exact .refl s
      · have hcall : s.Does P ((evaluate co run frame f (values.map .value)).exec s) :=
          does_evaluate hrun hs hf frame _
        rw [exec_bind]
        split
        · exact hcall
        · exact hcall.trans (((doesOnly_reportFailure frame.host _ _).bind
            fun _ => doesOnly_pure _) _)

/-! ## Definitions -/

end ServerM

/-- A function that the main module has just defined is the one of that name. -/
theorem Host.function?_insertFunction_self {h : Host β} {g : StoredFunction β}
    (hmain : moduleKey g.module = h.mainKey) :
    (h.insertFunction g).function? g.name = some g := by
  have hkey : (h.insertFunction g).mainKey = h.mainKey := rfl
  unfold function?
  rw [hkey]
  unfold insertFunction
  rw [definitionsOf_modifyDefinitions, if_pos hmain]
  simp

/-- A configuration function that the main module has just defined is the one of the host. -/
theorem Server.config_insertFunction {s : Server σ β} {id : HostId} {h : Host β}
    {f : StoredFunction β} (hh : s.host? id = some h) (hmain : moduleKey f.module = h.mainKey)
    (hname : f.name = HookKind.configName) :
    (s.modifyHost id (·.insertFunction f)).host? id = some (h.insertFunction f) ∧
      (h.insertFunction f).function? HookKind.configName = some f := by
  refine ⟨?_, ?_⟩
  · rw [Server.host?_modifyHost_self, hh, Option.map_some]
  · rw [← hname]
    exact Host.function?_insertFunction_self hmain

/-- The name of the configuration function stands for nothing else. -/
theorem HookKind.ofName_eq_config {name : String} (h : ofName name = .config) :
    name = configName := by
  unfold ofName at h
  split at h
  · assumption
  · split at h
    · cases h
    · split at h
      · cases h
      · split at h <;> cases h

namespace ServerM

variable {P : Deed β → Prop} {co : Collaborators β} {run : Runner σ β} {id : HostId}

/-- The configuration function of a root is called. -/
theorem does_readConfig (hrun : RunsOnly P run) {s : Server σ β} {h : Host β}
    {f : StoredFunction β} (hh : s.host? id = some h)
    (hfun : h.function? HookKind.configName = some f) (hf : P (.call f)) :
    s.Does P ((readConfig co run id).exec s) := by
  unfold readConfig
  rw [exec_bind, eval_host?, exec_host?, hh, Option.bind_some, hfun]
  have hhook : DoesOnly P
      (callHookWith co run { host := id, actor := co.world.serverActor } f []) :=
    doesOnly_callHookWith hrun _ hf []
  dsimp only
  rw [exec_bind]
  split
  · exact hhook s
  · split
    · exact hhook s
    · exact (hhook s).trans (doesOnly_modifyHost id _ _)

/-- To define a function has it called if it is the configuration function of a root. -/
theorem doesOnly_defineWith (hrun : RunsOnly P run) (hP : ∀ d : Deed β, d.IsConfigCall → P d)
    (f : StoredFunction β) : DoesOnly P (defineWith co run id f) := by
  unfold defineWith
  apply doesOnly_host?_bind
  intro s
  cases hh : s.host? id with
  | none => exact .refl s
  | some h =>
      dsimp only
      have hinsert : s.Does P (s.modifyHost id (·.insertFunction f)) := .of_eq rfl rfl
      rw [exec_bind, exec_modifyHost, exec_ite]
      split
      · exact hinsert
      · rename_i hmain
        cases hk : HookKind.ofName f.name with
        | event e => exact hinsert.trans (.of_eq rfl rfl)
        | config =>
            dsimp only
            rw [exec_ite]
            split
            · have hname : f.name = HookKind.configName := HookKind.ofName_eq_config hk
              obtain ⟨hown, hfun⟩ := Server.config_insertFunction hh (not_not.1 hmain) hname
              exact hinsert.trans (does_readConfig hrun hown hfun (hP (.call f) hname))
            · exact hinsert
        | close => exact hinsert
        | reserved => exact hinsert
        | plain => exact hinsert

theorem doesOnly_delete (module : Option String) (name : String) :
    DoesOnly P (delete id module name : ServerM σ β Unit) := by
  unfold delete
  apply doesOnly_host?_bind
  intro s
  cases s.host? id with
  | none => exact .refl s
  | some h =>
      have herase : s.Does P (s.modifyHost id (·.eraseFunction module name)) := .of_eq rfl rfl
      dsimp only
      rw [exec_bind, exec_modifyHost]
      split
      · exact herase.trans (.of_eq rfl rfl)
      · exact herase

/-! ## Libraries -/

theorem doesOnly_findModule (name : String) (allowLibrary : Bool) :
    DoesOnly P (findModule co name allowLibrary : ServerM σ β (Option Module)) :=
  (doesOnly_optionForM _ fun _ => doesOnly_log _ _).bind fun _ => doesOnly_pure _

/-- The code of a library is run; that is no call. -/
theorem doesOnly_importModule (hrun : RunsOnly P run) (frame : Frame) (name : String) :
    DoesOnly P (importModule co run frame name) := by
  unfold importModule
  apply (doesOnly_findModule name true).bind
  intro found
  split
  · exact doesOnly_pure _
  · rename_i module _
    apply doesOnly_host?_bind
    intro s
    cases s.host? frame.host with
    | none => exact .refl s
    | some h =>
        dsimp only
        rw [exec_ite]
        split
        · exact .refl s
        · exact ((doesOnly_modifyHost frame.host _).bind fun _ =>
            (doesOnly_runModule hrun frame module).bind fun _ => doesOnly_pure _) s

/-! ## Storage -/

section

variable [StateStore σ]

theorem doesOnly_writeBlob (key : ResourceKey) (blob : Blob) :
    DoesOnly P (writeBlob key blob : ServerM σ β _) := fun _ => .request (.write blob) key

theorem doesOnly_appendBlob (key : ResourceKey) (lines : List String) :
    DoesOnly P (appendBlob key lines : ServerM σ β _) := fun _ => .request (.append lines) key

theorem doesOnly_deleteBlob (key : ResourceKey) :
    DoesOnly P (deleteBlob key : ServerM σ β _) := fun _ => .request .delete key

theorem doesOnly_saveState (h : Host β) : DoesOnly P (saveState h : ServerM σ β _) := by
  intro s
  cases hn : h.name? with
  | none =>
      rw [exec_saveState_of_name?_eq_none s hn]
      exact .refl s
  | some name =>
      rw [exec_saveState s hn]
      exact .request _ _

theorem doesOnly_saveStateOrLog (h : Host β) :
    DoesOnly P (saveStateOrLog h : ServerM σ β Unit) := by
  apply (doesOnly_saveState h).bind
  intro result
  cases result with
  | ok u => exact doesOnly_pure _
  | error e => exact doesOnly_log _ _

omit [StateStore σ] in
theorem doesOnly_holdState (h : Host β) (blob : Option Blob) :
    DoesOnly P (holdState h blob : ServerM σ β (Host β)) := by
  unfold holdState
  have hrest : DoesOnly P (do
      insertHost (h.hold blob)
      remember (.replaced h.id blob h.saveTimeout)
      return h.hold blob : ServerM σ β (Host β)) :=
    (doesOnly_insertHost _).bind fun _ => (doesOnly_remember _).bind fun _ => doesOnly_pure _
  cases h.isRoot with
  | true => exact hrest
  | false => exact (doesOnly_remember _).bind fun _ => hrest

theorem doesOnly_storeState (h : Host β) (blob : Option Blob) :
    DoesOnly P (storeState h blob : ServerM σ β _) := by
  apply (doesOnly_holdState h blob).bind
  intro h
  apply DoesOnly.ite (doesOnly_pure _)
  apply (doesOnly_saveState h).bind
  intro result
  cases result with
  | ok u =>
      exact doesOnly_get_bind fun s =>
        ((doesOnly_insertHost _).bind fun _ => doesOnly_pure _) s
  | error e => exact doesOnly_pure _

theorem doesOnly_writeGlobalState (blob : Option Blob) :
    DoesOnly P (writeGlobalState id blob : ServerM σ β (Except StoreError Bool)) := by
  unfold writeGlobalState
  apply doesOnly_get_bind
  intro s
  refine doesOnly_host?_bind (fun s => ?_) s
  cases s.host? _ with
  | none => exact .refl s
  | some root =>
      dsimp only
      rw [exec_ite]
      split
      · exact .refl s
      · refine ((doesOnly_storeState root blob).bind fun result => ?_) s
        cases result with
        | error e => exact doesOnly_pure _
        | ok u => exact (doesOnly_remember _).bind fun _ => doesOnly_pure _

/-- A tick that reaches a host calls nothing. -/
theorem doesOnly_tickHost (id : HostId) : DoesOnly P (tickHost id : ServerM σ β Unit) := by
  unfold tickHost
  apply doesOnly_host?_bind
  intro s
  cases s.host? id with
  | none => exact .refl s
  | some h =>
      have hopen : DoesOnly P (do
          insertHost (h.setTimeout (h.saveTimeout - 1))
          if (h.setTimeout (h.saveTimeout - 1)).saveTimeout = 0 then
            saveStateOrLog (h.setTimeout (h.saveTimeout - 1)) : ServerM σ β Unit) :=
        (doesOnly_insertHost _).bind fun _ =>
          .ite (doesOnly_saveStateOrLog _) (doesOnly_pure _)
      exact ((doesOnly_remember _).bind fun _ => .ite hopen (doesOnly_pure _)) s

theorem doesOnly_flushPending (id : HostId) :
    DoesOnly P (flushPending id : ServerM σ β Unit) := by
  unfold flushPending
  apply doesOnly_host?_bind
  intro s
  cases s.host? id with
  | none => exact .refl s
  | some h =>
      have hopen : DoesOnly P (do
          insertHost (h.setTimeout 0)
          saveStateOrLog (h.setTimeout 0) : ServerM σ β Unit) :=
        (doesOnly_insertHost _).bind fun _ => doesOnly_saveStateOrLog _
      exact ((doesOnly_remember _).bind fun _ => .ite hopen (doesOnly_pure _)) s

omit [StateStore σ] in
theorem doesOnly_withScope {shared : Bool} {denied : α}
    {use : Host β → ServerM σ β (Except StoreError α)} (h : ∀ h, DoesOnly P (use h)) :
    DoesOnly P (withScope id shared denied use) := by
  unfold withScope
  apply doesOnly_host?_bind
  intro s
  cases s.host? id with
  | none => exact .refl s
  | some x => exact DoesOnly.ite (doesOnly_pure _) (h x) s

theorem doesOnly_readTag (file : Option String) (shared : Bool) :
    DoesOnly P (readTag id file shared : ServerM σ β (Except StoreError (Option Blob))) := by
  apply doesOnly_withScope
  intro h
  cases file with
  | some file => exact fun s => .refl s
  | none => exact fun _ => .of_eq rfl rfl

theorem doesOnly_writeTag (blob : Blob) (file : Option String) (shared : Bool) :
    DoesOnly P (writeTag id blob file shared : ServerM σ β (Except StoreError Bool)) := by
  apply doesOnly_withScope
  intro h
  cases file with
  | some file => exact (doesOnly_writeBlob _ blob).bind fun _ => doesOnly_pure _
  | none => exact doesOnly_writeGlobalState (some blob)

theorem doesOnly_appendLog (file : String) (shared : Bool) (typeName : String)
    (lines : List String) :
    DoesOnly P (appendLog id file shared typeName lines :
      ServerM σ β (Except StoreError Bool)) :=
  doesOnly_withScope fun _ => (doesOnly_appendBlob _ lines).bind fun _ => doesOnly_pure _

theorem doesOnly_readText (file : String) (shared : Bool) :
    DoesOnly P (readText id file shared :
      ServerM σ β (Except StoreError (Option (List String)))) :=
  doesOnly_withScope fun _ s => .refl s

theorem doesOnly_remove (file : String) (shared : Bool) (typeName : String) :
    DoesOnly P (remove id file shared typeName : ServerM σ β (Except StoreError Bool)) :=
  doesOnly_withScope fun _ => doesOnly_deleteBlob _

/-! ## Scripts -/

variable (hP : ∀ d : Deed β, d.IsConfigCall → P d)

include hP

/-- The answer to a query of code. -/
theorem doesOnly_answer (hrun : RunsOnly P run) (frame : Frame) (q : Query β) :
    DoesOnly P (answer co run frame q) := by
  cases q with
  | host => exact fun s => .refl s
  | isStopped => exact fun s => .refl s
  | define f => exact (doesOnly_defineWith hrun hP f).bind fun _ => doesOnly_pure _
  | delete module name => exact doesOnly_delete module name
  | setGlobal module name b => exact doesOnly_modifyHost _ _
  | defer label =>
      apply doesOnly_host?_bind
      intro s
      cases s.host? frame.host with
      | none => exact .refl s
      | some h => exact ((doesOnly_insertHost _).bind fun _ => doesOnly_pure _) s
  | force b => exact doesOnly_force b
  | importModule name => exact doesOnly_importModule hrun frame name
  | writeState blob => exact (doesOnly_writeGlobalState blob).bind fun _ => doesOnly_pure _
  | readTag file shared => exact (doesOnly_readTag file shared).bind fun _ => doesOnly_pure _
  | writeTag blob file shared =>
      exact (doesOnly_writeTag blob file shared).bind fun _ => doesOnly_pure _
  | appendLog file shared typeName lines =>
      exact (doesOnly_appendLog file shared typeName lines).bind fun _ => doesOnly_pure _
  | readText file shared => exact (doesOnly_readText file shared).bind fun _ => doesOnly_pure _
  | remove file shared typeName =>
      exact (doesOnly_remove file shared typeName).bind fun _ => doesOnly_pure _
  | note text => exact doesOnly_record rfl

omit hP [StateStore σ] in
/-- A script does what the answers to its queries do. -/
theorem doesOnly_interpret {handle : (q : Query β) → ServerM σ β q.Answer}
    (h : ∀ q, DoesOnly P (handle q)) (script : Script β α) :
    DoesOnly P (script.interpret handle) := by
  induction script with
  | done a => exact doesOnly_pure a
  | ask q next ih => exact (h q).bind fun a => ih a

/-- Scripts only have configuration functions called, however deep evaluations nest. -/
theorem runsOnly_runScript (co : Collaborators β) (depth : Nat) :
    RunsOnly P (runScript co depth : Runner σ β) := by
  induction depth with
  | zero => exact fun frame script => doesOnly_pure _
  | succ depth ih =>
      intro frame script
      exact doesOnly_interpret (doesOnly_answer hP ih frame) script

theorem runsOnly_runner (co : Collaborators β) : RunsOnly P (runner co : Runner σ β) :=
  runsOnly_runScript hP co maxDepth

end

end ServerM

end ScriptHost
