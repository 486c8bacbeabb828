import Mathlib
import ScriptHost.Proofs.CallPaths
import ScriptHost.Proofs.Creation
import ScriptHost.Proofs.Family
import ScriptHost.Proofs.Pausing
/-!
# A server and its halted twin

Two servers that differ in whether execution is halted, and in what they have done so far, but in
nothing else.  That execution is halted is looked at in few places: by the ways into a function, and
by code that asks for it.  So code that never asks for it runs alike on both servers, as long as it
has nothing called; and the only functions that code has called are configuration functions.

That none is called is read off the journal of the running server.  A configuration function that
does not accept a call without arguments is not called there either; its definition then fails on
both servers, and in the same way.

## Main statements

* `Server.halt`, `Server.Twins`: a server and its halted twin.
* `Server.Unconfigured`: no configuration function is called on the way.
* `Script.Unaware`: code that never asks whether execution is halted.
* `ServerM.Overlooks`: an operation that comes to the same on both servers.
* `ServerM.overlooks_runScript`, `ServerM.overlooks_createApplication`: running unaware code, and
  making a root for it.
-/

namespace ScriptHost

variable {σ β α γ : Type}

open Server

/-! ## Twins -/

/-- The server with execution halted, after other things have been done. -/
def Server.halt (s : Server σ β) (journal : List (Activity β)) (chronicle : List StateEvent) :
    Server σ β :=
  { s with isStopped := true, journal, chronicle }

/-- The first server is running, and the second one is halted and otherwise the same, but for what
it has done. -/
structure Server.Twins (s t : Server σ β) : Prop where
  running : s.isStopped = false
  halted : ∃ journal chronicle, t = s.halt journal chronicle

section

variable {s t : Server σ β}

namespace Server.Twins

/-- Servers are twins if they only differ in whether execution is halted and in what they have
done. -/
theorem of_eq (hs : s.isStopped = false) (ht : t.isStopped = true)
    (hhosts : ∀ k, t.host? k = s.host? k) (hnext : t.nextId = s.nextId) (happs : t.apps = s.apps)
    (hdispatch : t.dispatch = s.dispatch) (hsettings : t.settings = s.settings)
    (hstore : t.store = s.store) : Twins s t where
  running := hs
  halted := by
    have hmap : t.hosts = s.hosts := hosts_ext hhosts
    refine ⟨t.journal, t.chronicle, ?_⟩
    unfold halt
    rw [← hmap, ← hnext, ← happs, ← hdispatch, ← hsettings, ← hstore, ← ht]

theorem record (h : Twins s t) (a b : Activity β) : Twins (s.record a) (t.record b) := by
  obtain ⟨hrunning, journal, chronicle, rfl⟩ := h
  exact ⟨hrunning, b :: journal, chronicle, rfl⟩

theorem eraseApp (h : Twins s t) (name : String) : Twins (s.eraseApp name) (t.eraseApp name) := by
  obtain ⟨hrunning, journal, chronicle, rfl⟩ := h
  exact ⟨hrunning, journal, chronicle, rfl⟩

theorem isStopped (h : Twins s t) : t.isStopped = true := by
  obtain ⟨_, journal, chronicle, rfl⟩ := h
  rfl

theorem app?_eq (h : Twins s t) (name : String) : t.app? name = s.app? name := by
  obtain ⟨_, journal, chronicle, rfl⟩ := h
  rfl

theorem family_eq (h : Twins s t) (id : HostId) : t.family id = s.family id := by
  obtain ⟨_, journal, chronicle, rfl⟩ := h
  have hplaces : SamePlaces s (s.halt journal chronicle) := fun _ => rfl
  exact hplaces.family_eq rfl id

end Server.Twins

end

/-- On the way from one server to another no configuration function is called. -/
def Server.Unconfigured (s t : Server σ β) : Prop :=
  ∃ new, t.journal = new ++ s.journal ∧
    ∀ a ∈ new, ∀ d, a.deed? = some d → ¬ d.IsConfigCall

/-- If none is called on the whole way, none is called on its parts. -/
theorem Server.Unconfigured.split {P Q : Deed β → Prop} {s t u : Server σ β}
    (h : Unconfigured s u) (hst : Does P s t) (htu : Does Q t u) :
    Unconfigured s t ∧ Unconfigured t u := by
  obtain ⟨new, hnew, hdeeds⟩ := h
  obtain ⟨first, hfirst, _⟩ := hst.journal
  obtain ⟨second, hsecond, _⟩ := htu.journal
  have happend : new = second ++ first := by
    rw [hsecond, hfirst, ← List.append_assoc] at hnew
    exact (List.append_cancel_right hnew).symm
  rw [happend, List.forall_mem_append] at hdeeds
  exact ⟨⟨first, hfirst, hdeeds.2⟩, second, hsecond, hdeeds.1⟩

/-- A call of a configuration function is told by the journal. -/
theorem Server.not_unconfigured_of_asked {frame : Frame} {f : StoredFunction β}
    {arguments : List Binding} {s t : Server σ β} {P : Deed β → Prop}
    (hname : f.name = HookKind.configName)
    (h : Does P (s.record (.asked frame (.call f arguments))) t) : ¬ Unconfigured s t := by
  rintro ⟨new, hnew, hdeeds⟩
  obtain ⟨later, hlater, _⟩ := h.journal
  have happend : new = later ++ [.asked frame (.call f arguments)] := by
    rw [hlater, Server.record, List.append_cons] at hnew
    exact (List.append_cancel_right hnew).symm
  have hmem : .asked frame (.call f arguments) ∈ new := by
    rw [happend]
    exact List.mem_append_right _ (List.mem_singleton_self _)
  exact hdeeds _ hmem (.call f) rfl hname

/-! ## Unaware code -/

/-- Code that never asks whether execution is halted, whatever the host answers. -/
inductive Script.Unaware : Script β α → Prop where
  | done (a : α) : Unaware (.done a)
  | ask {q : Query β} {next : q.Answer → Script β α} (hq : q ≠ .isStopped)
      (hnext : ∀ a, (next a).Unaware) : Unaware (.ask q next)

/-- The code of all modules is unaware. -/
def Collaborators.LoadsUnaware (co : Collaborators β) : Prop :=
  ∀ (frame : Frame) (m : Module), (co.evaluator.runModule frame m).Unaware

/-! ## Operations that come to the same -/

/-- An operation has the same answer on two servers, and leaves twins behind. -/
structure SameOutcome (m : ServerM σ β α) (s t : Server σ β) : Prop where
  eval : m.eval t = m.eval s
  twins : Twins (m.exec s) (m.exec t)

theorem SameOutcome.bind {s t : Server σ β} {m : ServerM σ β α} {f : α → ServerM σ β γ}
    (hm : SameOutcome m s t) (hf : SameOutcome (f (m.eval s)) (m.exec s) (m.exec t)) :
    SameOutcome (m >>= f) s t where
  eval := by
    rw [ServerM.eval_bind, ServerM.eval_bind, hm.eval]
    exact hf.eval
  twins := by
    rw [ServerM.exec_bind, ServerM.exec_bind, hm.eval]
    exact hf.twins

namespace ServerM

/-- The operation overlooks whether execution is halted: it comes to the same on a server and on
its halted twin, unless it has a configuration function called. -/
structure Overlooks (m : ServerM σ β α) : Prop where
  heeds : Heeds m
  same : ∀ {s t : Server σ β}, Twins s t → Unconfigured s (m.exec s) → SameOutcome m s t

/-! ### Sequencing -/

theorem overlooks_pure (a : α) : Overlooks (pure a : ServerM σ β α) where
  heeds := doesOnly_pure a
  same h _ := ⟨rfl, h⟩

theorem Overlooks.bind {m : ServerM σ β α} {f : α → ServerM σ β γ} (hm : Overlooks m)
    (hf : ∀ a, Overlooks (f a)) : Overlooks (m >>= f) where
  heeds := hm.heeds.bind fun a => (hf a).heeds
  same := by
    intro s t h hquiet
    rw [exec_bind] at hquiet
    obtain ⟨hfirst, hsecond⟩ := hquiet.split (hm.heeds s) ((hf _).heeds _)
    have hsame := hm.same h hfirst
    exact hsame.bind ((hf _).same hsame.twins hsecond)

theorem Overlooks.ite {c : Prop} [Decidable c] {m n : ServerM σ β α} (hm : Overlooks m)
    (hn : Overlooks n) : Overlooks (if c then m else n) := by
  split
  · exact hm
  · exact hn

/-- What follows a look at the server may use nothing that twins differ in. -/
theorem overlooks_get_bind {f : Server σ β → ServerM σ β α}
    (hsame : ∀ s journal chronicle, f (s.halt journal chronicle) = f s)
    (hf : ∀ s, Overlooks (f s)) : Overlooks (get >>= f) where
  heeds := doesOnly_get_bind fun s => (hf s).heeds s
  same := by
    rintro s t ⟨hrunning, journal, chronicle, rfl⟩ hquiet
    have hout := (hf s).same ⟨hrunning, journal, chronicle, rfl⟩ hquiet
    refine ⟨?_, ?_⟩
    · rw [eval_bind, eval_bind, eval_get, eval_get, exec_get, exec_get, hsame]
      exact hout.eval
    · rw [exec_bind, exec_bind, eval_get, eval_get, exec_get, exec_get, hsame]
      exact hout.twins

theorem overlooks_host? (id : HostId) : Overlooks (host? id : ServerM σ β (Option (Host β))) where
  heeds s := .refl s
  same := by
    rintro s t ⟨hrunning, journal, chronicle, rfl⟩ _
    exact ⟨rfl, hrunning, journal, chronicle, rfl⟩

theorem overlooks_listForM {f : α → ServerM σ β PUnit} (l : List α)
    (hf : ∀ a, Overlooks (f a)) : Overlooks (l.forM f) := by
  induction l with
  | nil => exact overlooks_pure _
  | cons a l ih => exact (hf a).bind fun _ => ih

theorem overlooks_optionForM {f : α → ServerM σ β PUnit} (o : Option α)
    (hf : ∀ a, Overlooks (f a)) : Overlooks (o.forM f) := by
  cases o with
  | none => exact overlooks_pure _
  | some a => exact hf a

/-! ### Changes -/

/-- A change that concerns neither whether execution is halted nor what has been done. -/
theorem overlooks_modify {f : Server σ β → Server σ β} (hdoes : ∀ s, Does (fun _ => True) s (f s))
    (hf : ∀ s journal chronicle, ∃ journal' chronicle',
      f (s.halt journal chronicle) = (f s).halt journal' chronicle') :
    Overlooks (modify f : ServerM σ β PUnit) where
  heeds := hdoes
  same := by
    rintro s t ⟨hrunning, journal, chronicle, rfl⟩ _
    exact ⟨rfl, (hdoes s).isStopped.trans hrunning, hf s journal chronicle⟩

theorem overlooks_modifyHost (id : HostId) (f : Host β → Host β) :
    Overlooks (modifyHost id f : ServerM σ β Unit) :=
  overlooks_modify (fun _ => .of_eq rfl rfl) fun _ journal chronicle => ⟨journal, chronicle, rfl⟩

theorem overlooks_insertHost (h : Host β) : Overlooks (insertHost h : ServerM σ β Unit) :=
  overlooks_modify (fun _ => .of_eq rfl rfl) fun _ journal chronicle => ⟨journal, chronicle, rfl⟩

theorem overlooks_modify_dispatch (f : EventDispatch → EventDispatch) :
    Overlooks (modify fun s => { s with dispatch := f s.dispatch } : ServerM σ β PUnit) :=
  overlooks_modify (fun _ => .of_eq rfl rfl) fun _ journal chronicle => ⟨journal, chronicle, rfl⟩

theorem overlooks_remember (e : StateEvent) : Overlooks (remember e : ServerM σ β Unit) :=
  overlooks_modify (fun _ => .of_eq rfl rfl) fun _ journal chronicle =>
    ⟨journal, e :: chronicle, rfl⟩

/-- What is written into the journal is no deed. -/
theorem overlooks_record {a : Activity β} (ha : a.deed? = none) :
    Overlooks (record a : ServerM σ β Unit) :=
  overlooks_modify (fun _ => .record ha) fun _ journal chronicle => ⟨a :: journal, chronicle, rfl⟩

theorem overlooks_log (level : LogLevel) (text : String) :
    Overlooks (log level text : ServerM σ β Unit) :=
  overlooks_record rfl

theorem overlooks_freshId : Overlooks (freshId : ServerM σ β HostId) where
  heeds := heeds_freshId
  same := by
    rintro s t ⟨hrunning, journal, chronicle, rfl⟩ _
    exact ⟨rfl, hrunning, journal, chronicle, rfl⟩

/-! ### Reports -/

variable {co : Collaborators β} {run : Runner σ β} {id : HostId} {frame : Frame}

theorem overlooks_deliver (actor : Actor) (message : Message) :
    Overlooks (deliver co actor message : ServerM σ β Unit) := by
  unfold deliver
  split
  · exact overlooks_record rfl
  · exact overlooks_log _ _
  · exact overlooks_pure _

theorem overlooks_reportFailure (id : HostId) (intro : String) (error : ScriptError) :
    Overlooks (reportFailure co id intro error : ServerM σ β Unit) := by
  apply (overlooks_host? id).bind
  intro o
  cases o.bind (·.sink) with
  | some actor => exact overlooks_listForM _ fun _ => overlooks_deliver actor _
  | none => exact overlooks_log _ _

/-! ### Global state and resources -/

section

theorem overlooks_changeStore (request : StoreRequest) (key : ResourceKey)
    (change : σ → Except StoreError α × σ) :
    Overlooks (changeStore request key change : ServerM σ β (Except StoreError α)) where
  heeds _ := ⟨rfl, [_], rfl, List.forall_mem_singleton.2 fun _ hd => nomatch hd⟩
  same := by
    rintro s t ⟨hrunning, journal, chronicle, rfl⟩ _
    exact ⟨rfl, hrunning, .stored request.change key :: journal,
      .stored request key :: chronicle, rfl⟩

variable [StateStore σ]

theorem overlooks_readBlob (key : ResourceKey) :
    Overlooks (readBlob key : ServerM σ β (Except StoreError (Option Blob))) :=
  overlooks_get_bind (fun _ _ _ => rfl) fun _ => overlooks_pure _

theorem overlooks_saveState (h : Host β) : Overlooks (saveState h : ServerM σ β _) := by
  unfold saveState
  split
  · exact overlooks_pure _
  · exact overlooks_changeStore _ _ _
  · exact (overlooks_changeStore _ _ _).bind fun _ => overlooks_pure _

theorem overlooks_loadState (module : Module) :
    Overlooks (loadState module : ServerM σ β (Option Blob)) := by
  apply (overlooks_readBlob _).bind
  intro result
  cases result with
  | ok state => exact overlooks_pure _
  | error e => exact (overlooks_log _ _).bind fun _ => overlooks_pure _

omit [StateStore σ] in
theorem overlooks_holdState (h : Host β) (blob : Option Blob) :
    Overlooks (holdState h blob : ServerM σ β (Host β)) := by
  have hrest : Overlooks (do
      insertHost (h.hold blob)
      remember (.replaced h.id blob h.saveTimeout)
      return h.hold blob : ServerM σ β (Host β)) :=
    (overlooks_insertHost _).bind fun _ => (overlooks_remember _).bind fun _ => overlooks_pure _
  unfold holdState
  cases h.isRoot with
  | true => exact hrest
  | false => exact (overlooks_remember _).bind fun _ => hrest

theorem overlooks_storeState (h : Host β) (blob : Option Blob) :
    Overlooks (storeState h blob : ServerM σ β _) := by
  apply (overlooks_holdState h blob).bind
  intro h
  apply Overlooks.ite (overlooks_pure _)
  apply (overlooks_saveState h).bind
  intro result
  cases result with
  | ok u =>
      exact overlooks_get_bind (fun _ _ _ => rfl) fun _ =>
        (overlooks_insertHost _).bind fun _ => overlooks_pure _
  | error e => exact overlooks_pure _

theorem overlooks_writeGlobalState (blob : Option Blob) :
    Overlooks (writeGlobalState id blob : ServerM σ β (Except StoreError Bool)) := by
  apply overlooks_get_bind (fun _ _ _ => rfl)
  intro s
  apply (overlooks_host? _).bind
  intro o
  cases o with
  | none => exact overlooks_pure _
  | some root =>
      apply Overlooks.ite (overlooks_pure _)
      apply (overlooks_storeState root blob).bind
      intro result
      cases result with
      | error e => exact overlooks_pure _
      | ok u => exact (overlooks_remember _).bind fun _ => overlooks_pure _

omit [StateStore σ] in
theorem overlooks_withScope {shared : Bool} {denied : α}
    {use : Host β → ServerM σ β (Except StoreError α)} (h : ∀ h, Overlooks (use h)) :
    Overlooks (withScope id shared denied use) := by
  apply (overlooks_host? id).bind
  intro o
  cases o with
  | none => exact overlooks_pure _
  | some x => exact Overlooks.ite (overlooks_pure _) (h x)

theorem overlooks_readTag (file : Option String) (shared : Bool) :
    Overlooks (readTag id file shared : ServerM σ β (Except StoreError (Option Blob))) := by
  apply overlooks_withScope
  intro h
  cases file with
  | some file => exact overlooks_readBlob _
  | none =>
      exact overlooks_get_bind (fun _ _ _ => rfl) fun _ =>
        (overlooks_host? _).bind fun _ => (overlooks_remember _).bind fun _ => overlooks_pure _

theorem overlooks_writeTag (blob : Blob) (file : Option String) (shared : Bool) :
    Overlooks (writeTag id blob file shared : ServerM σ β (Except StoreError Bool)) := by
  apply overlooks_withScope
  intro h
  cases file with
  | some file => exact (overlooks_changeStore _ _ _).bind fun _ => overlooks_pure _
  | none => exact overlooks_writeGlobalState (some blob)

theorem overlooks_appendLog (file : String) (shared : Bool) (typeName : String)
    (lines : List String) :
    Overlooks (appendLog id file shared typeName lines : ServerM σ β (Except StoreError Bool)) :=
  overlooks_withScope fun _ => (overlooks_changeStore _ _ _).bind fun _ => overlooks_pure _

theorem overlooks_readText (file : String) (shared : Bool) :
    Overlooks (readText id file shared :
      ServerM σ β (Except StoreError (Option (List String)))) :=
  overlooks_withScope fun _ => overlooks_get_bind (fun _ _ _ => rfl) fun _ => overlooks_pure _

theorem overlooks_remove (file : String) (shared : Bool) (typeName : String) :
    Overlooks (remove id file shared typeName : ServerM σ β (Except StoreError Bool)) :=
  overlooks_withScope fun _ => overlooks_changeStore _ _ _

end

/-! ### Definitions -/

theorem overlooks_force (b : Binding) : Overlooks (force co id b : ServerM σ β Value) := by
  cases b with
  | value v => exact overlooks_pure v
  | deferred index =>
      apply (overlooks_host? id).bind
      intro o
      cases o.bind (·.producers[index]?) with
      | none => exact overlooks_pure _
      | some producer =>
          exact (overlooks_modifyHost id _).bind fun _ =>
            (overlooks_record rfl).bind fun _ => overlooks_pure _

theorem overlooks_delete (module : Option String) (name : String) :
    Overlooks (delete id module name : ServerM σ β Unit) := by
  apply (overlooks_host? id).bind
  intro o
  cases o with
  | none => exact overlooks_pure _
  | some h =>
      apply (overlooks_modifyHost id _).bind
      intro _
      cases HookKind.ofName name with
      | event e => exact overlooks_modify_dispatch (·.unbind e { host := id, function := name })
      | _ => exact overlooks_pure _

/-- While execution is halted a hook answers null. -/
theorem callHookWith_of_isStopped {s : Server σ β} (hs : s.isStopped = true)
    (f : StoredFunction β) (values : List Value) :
    (callHookWith co run frame f values).eval s = .ok .null ∧
      (callHookWith co run frame f values).exec s = s := by
  unfold callHookWith
  rw [eval_bind, exec_bind, eval_get, exec_get, if_pos hs]
  exact ⟨rfl, rfl⟩

/-- A configuration function that gives no map, and leaves no trace, is invalid. -/
theorem readConfig_of_invalid {s : Server σ β} {h : Host β} {f : StoredFunction β}
    (hh : s.host? id = some h) (hfun : h.function? HookKind.configName = some f)
    (hexec : (callHookWith co run { host := id, actor := co.world.serverActor } f []).exec s = s)
    (hvalue : ∀ v,
      (callHookWith co run { host := id, actor := co.world.serverActor } f []).eval s = .ok v →
        v = .null) :
    (readConfig co run id).eval s = .error (.contract .invalidConfig) ∧
      (readConfig co run id).exec s = s := by
  unfold readConfig
  rw [eval_bind, exec_bind, eval_host?, exec_host?, hh, Option.bind_some, hfun]
  dsimp only
  rw [eval_bind, exec_bind, hexec]
  cases hv : (callHookWith co run { host := id, actor := co.world.serverActor } f []).eval s with
  | error e => exact ⟨rfl, rfl⟩
  | ok v =>
      rw [hvalue v hv]
      exact ⟨rfl, rfl⟩

/-- While execution is halted every configuration function is invalid, and none is called. -/
theorem readConfig_of_isStopped {s : Server σ β} {h : Host β} {f : StoredFunction β}
    (hs : s.isStopped = true) (hh : s.host? id = some h)
    (hfun : h.function? HookKind.configName = some f) :
    (readConfig co run id).eval s = .error (.contract .invalidConfig) ∧
      (readConfig co run id).exec s = s := by
  let frame : Frame := { host := id, actor := co.world.serverActor }
  have hnull : (callHookWith co run frame f []).eval s = .ok .null ∧
      (callHookWith co run frame f []).exec s = s := callHookWith_of_isStopped hs f []
  exact readConfig_of_invalid hh hfun hnull.2 fun v hv =>
    (Except.ok.inj (hnull.1.symm.trans hv)).symm

/-- A configuration function that accepts the call is called. -/
theorem does_readConfig_asked (hrun : RunsOnly (fun _ => True) run) {s : Server σ β} {h : Host β}
    {f : StoredFunction β} (hs : s.isStopped = false) (hh : s.host? id = some h)
    (hfun : h.function? HookKind.configName = some f)
    (haccepts : co.evaluator.accepts f [] = .ok ()) :
    Does (fun _ => True)
      (s.record (.asked { host := id, actor := co.world.serverActor } (.call f [])))
      ((readConfig co run id).exec s) := by
  have hgo : ¬ s.isStopped = true := by simp [hs]
  let frame : Frame := { host := id, actor := co.world.serverActor }
  have hlive : s.host? frame.host = some h := hh
  have heval : Does (fun _ => True) (s.record (.asked frame (.call f [])))
      ((evaluate co run frame f []).exec s) := by
    rw [exec_evaluate hlive]
    exact hrun frame _ _
  have hhook : Does (fun _ => True) (s.record (.asked frame (.call f [])))
      ((callHookWith co run frame f []).exec s) := by
    unfold callHookWith
    rw [exec_bind, eval_get, exec_get, if_neg hgo, haccepts]
    dsimp only
    rw [exec_bind, List.map_nil]
    split
    · exact heval
    · exact heval.trans (((doesOnly_reportFailure frame.host _ _).bind fun _ =>
        doesOnly_pure _) _)
  unfold readConfig
  rw [exec_bind, eval_host?, exec_host?, hh, Option.bind_some, hfun]
  dsimp only
  rw [exec_bind]
  split
  · exact hhook
  · split
    · exact hhook
    · exact hhook.trans (doesOnly_modifyHost id _ _)

/-- A configuration function that does not accept the call is as invalid as the null that stands for
its answer while execution is halted. -/
theorem sameOutcome_readConfig (hrun : RunsOnly (fun _ => True) run) {s t : Server σ β}
    {h : Host β} {f : StoredFunction β} (hh : s.host? id = some h)
    (hfun : h.function? HookKind.configName = some f) (hname : f.name = HookKind.configName)
    (hst : Twins s t) (hquiet : Unconfigured s ((readConfig co run id).exec s)) :
    SameOutcome (readConfig co run id) s t := by
  cases haccepts : co.evaluator.accepts f [] with
  | ok u =>
      have hasked := does_readConfig_asked hrun hst.running hh hfun haccepts
      exact absurd hquiet (not_unconfigured_of_asked hname hasked)
  | error reason =>
      obtain ⟨hrunning, journal, chronicle, rfl⟩ := hst
      have hgo : ¬ s.isStopped = true := by simp [hrunning]
      let frame : Frame := { host := id, actor := co.world.serverActor }
      have hrejects :
          (callHookWith co run frame f []).eval s = .error { function := f.name, reason } ∧
            (callHookWith co run frame f []).exec s = s := by
        unfold callHookWith
        rw [eval_bind, exec_bind, eval_get, exec_get, if_neg hgo, haccepts]
        exact ⟨rfl, rfl⟩
      obtain ⟨heval, hexec⟩ := readConfig_of_invalid hh hfun hrejects.2
        fun v hv => by rw [hrejects.1] at hv; cases hv
      have hh' : (s.halt journal chronicle).host? id = some h := hh
      obtain ⟨heval', hexec'⟩ := readConfig_of_isStopped rfl hh' hfun
      refine ⟨heval'.trans heval.symm, ?_⟩
      rw [hexec, hexec']
      exact ⟨hrunning, journal, chronicle, rfl⟩

/-- To define a function has it called if it is the configuration function of a root. -/
theorem overlooks_defineWith (hrun : RunsOnly (fun _ => True) run) (f : StoredFunction β) :
    Overlooks (defineWith co run id f) where
  heeds := doesOnly_defineWith hrun (fun _ _ => trivial) f
  same := by
    rintro s t ⟨hrunning, journal, chronicle, rfl⟩ hquiet
    have hlook : SameOutcome (host? id) s (s.halt journal chronicle) :=
      ⟨rfl, hrunning, journal, chronicle, rfl⟩
    have hinsert : SameOutcome (modifyHost id (·.insertFunction f)) s (s.halt journal chronicle) :=
      ⟨rfl, hrunning, journal, chronicle, rfl⟩
    unfold defineWith at hquiet ⊢
    apply hlook.bind
    rw [exec_bind] at hquiet
    rw [eval_host?, exec_host?] at hquiet ⊢
    cases hh : s.host? id with
    | none => exact ⟨rfl, hlook.twins⟩
    | some h =>
        rw [hh] at hquiet
        dsimp only at hquiet ⊢
        apply hinsert.bind
        rw [exec_bind] at hquiet
        by_cases hmain : moduleKey f.module ≠ h.mainKey
        · rw [if_pos hmain]
          exact ⟨rfl, hinsert.twins⟩
        rw [if_neg hmain] at hquiet ⊢
        cases hk : HookKind.ofName f.name with
        | event e =>
            have hbind : Overlooks (_ : ServerM σ β PUnit) :=
              overlooks_modify_dispatch (·.bind e { host := id, function := f.name })
            rw [hk] at hquiet
            exact (hbind.bind fun _ => overlooks_pure _).same hinsert.twins hquiet
        | config =>
            rw [hk] at hquiet
            dsimp only at hquiet ⊢
            by_cases hroot : h.isRoot = true
            · rw [if_pos hroot] at hquiet ⊢
              have hname : f.name = HookKind.configName := HookKind.ofName_eq_config hk
              obtain ⟨hown, hfun⟩ := config_insertFunction hh (not_not.1 hmain) hname
              exact sameOutcome_readConfig hrun hown hfun hname hinsert.twins hquiet
            · rw [if_neg hroot]
              exact ⟨rfl, hinsert.twins⟩
        | close => exact ⟨rfl, hinsert.twins⟩
        | reserved => exact ⟨rfl, hinsert.twins⟩
        | plain => exact ⟨rfl, hinsert.twins⟩

theorem overlooks_findModule (name : String) (allowLibrary : Bool) :
    Overlooks (findModule co name allowLibrary : ServerM σ β (Option Module)) :=
  (overlooks_optionForM _ fun _ => overlooks_log _ _).bind fun _ => overlooks_pure _

/-! ### Running code -/

/-- A way to run scripts that overlooks for unaware scripts whether execution is halted. -/
structure RunsUnaware (run : Runner σ β) : Prop where
  heeds : RunsOnly (fun _ => True) run
  overlooks : ∀ (frame : Frame) {script : Script β (Except EvalError Value)},
    script.Unaware → Overlooks (run frame script)

theorem overlooks_runModule (hco : co.LoadsUnaware) (hrun : RunsUnaware run) (frame : Frame)
    (module : Module) : Overlooks (runModule co run frame module) :=
  (overlooks_record rfl).bind fun _ => hrun.overlooks frame (hco frame module)

theorem overlooks_importModule (hco : co.LoadsUnaware) (hrun : RunsUnaware run) (frame : Frame)
    (name : String) : Overlooks (importModule co run frame name) := by
  apply (overlooks_findModule name true).bind
  intro found
  split
  · exact overlooks_pure _
  · apply (overlooks_host? frame.host).bind
    intro o
    cases o with
    | none => exact overlooks_pure _
    | some h =>
        apply Overlooks.ite (overlooks_pure _)
        exact (overlooks_modifyHost frame.host _).bind fun _ =>
          (overlooks_runModule hco hrun frame _).bind fun _ => overlooks_pure _

section

variable [StateStore σ]

theorem overlooks_answer (hco : co.LoadsUnaware) (hrun : RunsUnaware run) (frame : Frame)
    {q : Query β} (hq : q ≠ .isStopped) : Overlooks (answer co run frame q) := by
  cases q with
  | host => exact overlooks_host? frame.host
  | isStopped => exact absurd rfl hq
  | define f => exact (overlooks_defineWith hrun.heeds f).bind fun _ => overlooks_pure _
  | delete module name => exact overlooks_delete module name
  | setGlobal module name b => exact overlooks_modifyHost frame.host _
  | defer label =>
      apply (overlooks_host? frame.host).bind
      intro o
      cases o with
      | none => exact overlooks_pure _
      | some h => exact (overlooks_insertHost _).bind fun _ => overlooks_pure _
  | force b => exact overlooks_force b
  | importModule name => exact overlooks_importModule hco hrun frame name
  | writeState blob => exact (overlooks_writeGlobalState blob).bind fun _ => overlooks_pure _
  | readTag file shared => exact (overlooks_readTag file shared).bind fun _ => overlooks_pure _
  | writeTag blob file shared =>
      exact (overlooks_writeTag blob file shared).bind fun _ => overlooks_pure _
  | appendLog file shared typeName lines =>
      exact (overlooks_appendLog file shared typeName lines).bind fun _ => overlooks_pure _
  | readText file shared => exact (overlooks_readText file shared).bind fun _ => overlooks_pure _
  | remove file shared typeName =>
      exact (overlooks_remove file shared typeName).bind fun _ => overlooks_pure _
  | note text => exact overlooks_record rfl

theorem overlooks_interpret (hco : co.LoadsUnaware) (hrun : RunsUnaware run) (frame : Frame)
    {script : Script β α} (hs : script.Unaware) :
    Overlooks (script.interpret (answer co run frame) : ServerM σ β α) := by
  induction hs with
  | done a => exact overlooks_pure a
  | ask hq _ ih => exact (overlooks_answer hco hrun frame hq).bind ih

/-- Unaware code runs alike, however deep evaluations nest. -/
theorem runsUnaware_runScript (hco : co.LoadsUnaware) (depth : Nat) :
    RunsUnaware (runScript co depth : Runner σ β) where
  heeds := runsOnly_runScript (fun _ _ => trivial) co depth
  overlooks := by
    induction depth with
    | zero => exact fun _ _ _ => overlooks_pure _
    | succ depth ih =>
        have hrun : RunsUnaware (runScript co depth : Runner σ β) :=
          ⟨runsOnly_runScript (fun _ _ => trivial) co depth, ih⟩
        exact fun frame _ hs => overlooks_interpret hco hrun frame hs

theorem runsUnaware_runner (hco : co.LoadsUnaware) : RunsUnaware (runner co : Runner σ β) :=
  runsUnaware_runScript hco maxDepth

end

/-! ### New roots -/

/-- Which hosts are discarded depends on the places of hosts only. -/
theorem overlooks_discard (id : HostId) : Overlooks (discard id : ServerM σ β Unit) := by
  have herase : Overlooks (modify fun s => s.eraseHosts (s.family id) : ServerM σ β PUnit) := by
    refine overlooks_modify (fun _ => .of_eq rfl rfl) fun s journal chronicle => ?_
    have hplaces : SamePlaces s (s.halt journal chronicle) := fun _ => rfl
    rw [hplaces.family_eq rfl]
    exact ⟨journal, (s.family id).map .ended ++ chronicle, rfl⟩
  apply (overlooks_host? id).bind
  intro o
  cases o with
  | none => exact overlooks_pure _
  | some h =>
      apply herase.bind
      intro _
      cases h.owner with
      | none => exact overlooks_pure _
      | some owner => exact overlooks_modifyHost owner.parent _

variable [StateStore σ]

theorem overlooks_start (hco : co.LoadsUnaware) (id : HostId) (module : Module) (actor : Actor) :
    Overlooks (start co id module actor : ServerM σ β _) := by
  apply (overlooks_runModule hco (runsUnaware_runner hco) _ module).bind
  intro result
  cases result with
  | ok value => exact overlooks_pure _
  | error cause =>
      exact (overlooks_reportFailure id _ _).bind fun _ =>
        (overlooks_discard id).bind fun _ => overlooks_pure _

omit [StateStore σ] in
theorem overlooks_loadFailure (actor : Actor) (module : String) (reason : LoadReason) :
    Overlooks (loadFailure co actor module reason : ServerM σ β _) :=
  (overlooks_deliver actor _).bind fun _ => overlooks_pure _

/-- A root that is made for a module with unaware code is made alike. -/
theorem overlooks_createApplication (hco : co.LoadsUnaware) (m : Module) (perUser : Bool)
    (actor : Actor) :
    Overlooks (createApplication co (some m) perUser actor : ServerM σ β _) := by
  apply overlooks_freshId.bind
  intro id
  apply (overlooks_loadState m).bind
  intro state
  apply Overlooks.ite
  · exact overlooks_loadFailure actor m.name .codeNotFound
  · exact (overlooks_remember _).bind fun _ =>
      (overlooks_insertHost _).bind fun _ => overlooks_start hco id m actor

end ServerM

end ScriptHost
