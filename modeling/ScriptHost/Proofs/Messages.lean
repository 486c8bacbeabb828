import Mathlib
import ScriptHost.Proofs.Answers
/-!
# Whom code speaks to

The journal tells whom messages were sent to.  Most of what a server does is told to nobody.  Code
that runs under a host speaks to one actor at most, the one whom the host serves, and every
evaluation that it starts is for the same host: the only way to a message is the report of a
failure, which looks up whom the host serves, and code cannot change that.

## Main statements

* `Server.Writes`, `ServerM.WritesOnly`: what is written into the journal.
* `Server.Speaks`, `ServerM.SpeaksUnder`: steps of code that speak to whom the host serves.
* `ServerM.speaksUnder_reportFailure`: a failure is reported to whom the host serves.
* `ServerM.speaking_runner`: so do whole evaluations.
-/

namespace ScriptHost

variable {σ β α γ : Type}

/-! ## The journal on the way from one server to another -/

namespace Server

/-- Only activities of some kind are added to the journal. -/
def Writes (P : Activity β → Prop) (s t : Server σ β) : Prop :=
  ∃ new, t.journal = new ++ s.journal ∧ ∀ a ∈ new, P a

namespace Writes

variable {P Q : Activity β → Prop} {s t u : Server σ β}

theorem of_journal_eq (h : t.journal = s.journal) : Writes P s t :=
  ⟨[], h, fun _ ha => absurd ha List.not_mem_nil⟩

theorem refl (s : Server σ β) : Writes P s s := of_journal_eq rfl

theorem trans (h : Writes P s t) (g : Writes P t u) : Writes P s u := by
  obtain ⟨new, hnew, hP⟩ := h
  obtain ⟨new', hnew', hP'⟩ := g
  refine ⟨new' ++ new, ?_, ?_⟩
  · rw [hnew', hnew, List.append_assoc]
  · intro a ha
    rcases List.mem_append.1 ha with hmem | hmem
    · exact hP' a hmem
    · exact hP a hmem

theorem record {a : Activity β} (ha : P a) : Writes P s (s.record a) :=
  ⟨[a], rfl, List.forall_mem_singleton.2 ha⟩

theorem mono (h : Writes P s t) (hPQ : ∀ a, P a → Q a) : Writes Q s t := by
  obtain ⟨new, hnew, hP⟩ := h
  exact ⟨new, hnew, fun a ha => hPQ a (hP a ha)⟩

end Writes

end Server

namespace ServerM

/-- The operation adds only activities of some kind to the journal. -/
def WritesOnly (P : Activity β → Prop) (m : ServerM σ β α) : Prop :=
  ∀ s : Server σ β, s.Writes P (m.exec s)

/-- The operation runs nothing, and nobody is told of it. -/
abbrev TellsNobody (m : ServerM σ β α) : Prop := WritesOnly Activity.IsSilent m

variable {P : Activity β → Prop}

/-! ## Sequencing -/

/-- An operation that the journal does not tell of. -/
theorem writesOnly_of_journal_eq {m : ServerM σ β α}
    (h : ∀ s : Server σ β, (m.exec s).journal = s.journal) : WritesOnly P m :=
  fun s => .of_journal_eq (h s)

theorem writesOnly_pure (a : α) : WritesOnly P (pure a : ServerM σ β α) := fun s => .refl s

theorem WritesOnly.bind {m : ServerM σ β α} {f : α → ServerM σ β γ} (hm : WritesOnly P m)
    (hf : ∀ a, WritesOnly P (f a)) : WritesOnly P (m >>= f) :=
  fun s => (hm s).trans (hf _ _)

theorem WritesOnly.ite {c : Prop} [Decidable c] {m n : ServerM σ β α} (hm : WritesOnly P m)
    (hn : WritesOnly P n) : WritesOnly P (if c then m else n) := by
  split
  · exact hm
  · exact hn

/-- What follows a look at the server may use what was seen. -/
theorem writesOnly_get_bind {f : Server σ β → ServerM σ β α} (h : ∀ s, WritesOnly P (f s)) :
    WritesOnly P (get >>= f) := fun s => h s s

/-- What follows a look at a host may use whether the host is there. -/
theorem writesOnly_host?_bind {id : HostId} {f : Option (Host β) → ServerM σ β α}
    (h : ∀ h?, WritesOnly P (f h?)) : WritesOnly P (host? id >>= f) := fun s => h (s.host? id) s

theorem writesOnly_record {a : Activity β} (ha : P a) :
    WritesOnly P (record a : ServerM σ β Unit) := fun _ => .record ha

theorem writesOnly_modifyHost (id : HostId) (f : Host β → Host β) :
    WritesOnly P (modifyHost id f : ServerM σ β Unit) := writesOnly_of_journal_eq fun _ => rfl

theorem writesOnly_insertHost (h : Host β) : WritesOnly P (insertHost h : ServerM σ β Unit) :=
  writesOnly_of_journal_eq fun _ => rfl

theorem writesOnly_remember (e : StateEvent) : WritesOnly P (remember e : ServerM σ β Unit) :=
  writesOnly_of_journal_eq fun _ => rfl

/-! ## What nobody is told of -/

variable {co : Collaborators β} {id : HostId}

theorem tellsNobody_log (level : LogLevel) (text : String) :
    TellsNobody (log level text : ServerM σ β Unit) := writesOnly_record trivial

theorem tellsNobody_delete (module : Option String) (name : String) :
    TellsNobody (delete id module name : ServerM σ β Unit) := by
  unfold delete
  apply writesOnly_host?_bind
  intro h?
  cases h? with
  | none => exact writesOnly_pure _
  | some h =>
      apply (writesOnly_modifyHost id _).bind
      intro _
      split
      · exact writesOnly_of_journal_eq fun _ => rfl
      · exact writesOnly_pure _

theorem tellsNobody_findModule (name : String) (allowLibrary : Bool) :
    TellsNobody (findModule co name allowLibrary : ServerM σ β (Option Module)) := by
  unfold findModule
  dsimp only
  cases (co.catalogue.find name allowLibrary).warning with
  | none => exact writesOnly_pure _
  | some warning => exact (tellsNobody_log _ _).bind fun _ => writesOnly_pure _

theorem tellsNobody_changeStore (request : StoreRequest) (key : ResourceKey)
    (run : σ → Except StoreError α × σ) :
    TellsNobody (changeStore request key run : ServerM σ β (Except StoreError α)) := by
  have hstored : (Activity.stored (β := β) request.change key).IsSilent := trivial
  exact (writesOnly_record hstored).bind fun _ => (writesOnly_remember _).bind fun _ =>
    writesOnly_of_journal_eq fun _ => rfl

section

variable [StateStore σ]

theorem tellsNobody_saveState (h : Host β) :
    TellsNobody (saveState h : ServerM σ β (Except StoreError Unit)) := by
  unfold saveState
  split
  · exact writesOnly_pure _
  · exact tellsNobody_changeStore _ _ _
  · exact (tellsNobody_changeStore _ _ _).bind fun _ => writesOnly_pure _

theorem tellsNobody_saveStateOrLog (h : Host β) :
    TellsNobody (saveStateOrLog h : ServerM σ β Unit) := by
  apply (tellsNobody_saveState h).bind
  intro result
  cases result with
  | ok u => exact writesOnly_pure _
  | error e => exact tellsNobody_log _ _

theorem tellsNobody_storeState (h : Host β) (blob : Option Blob) :
    TellsNobody (storeState h blob : ServerM σ β (Except StoreError Unit)) := by
  have hhold : TellsNobody (holdState h blob : ServerM σ β (Host β)) := by
    apply writesOnly_of_journal_eq
    intro s
    unfold holdState
    cases h.isRoot <;> rfl
  apply hhold.bind
  intro h
  apply WritesOnly.ite (writesOnly_pure _)
  apply (tellsNobody_saveState h).bind
  intro result
  cases result with
  | ok u => exact writesOnly_of_journal_eq fun _ => rfl
  | error e => exact writesOnly_pure _

theorem tellsNobody_writeGlobalState (blob : Option Blob) :
    TellsNobody (writeGlobalState id blob : ServerM σ β (Except StoreError Bool)) := by
  unfold writeGlobalState
  apply writesOnly_get_bind
  intro s
  apply writesOnly_host?_bind
  intro h?
  cases h? with
  | none => exact writesOnly_pure _
  | some root =>
      apply WritesOnly.ite (writesOnly_pure _)
      apply (tellsNobody_storeState root blob).bind
      intro result
      cases result with
      | error e => exact writesOnly_pure _
      | ok u => exact (writesOnly_remember _).bind fun _ => writesOnly_pure _

theorem tellsNobody_tickHost (id : HostId) : TellsNobody (tickHost id : ServerM σ β Unit) := by
  unfold tickHost
  apply writesOnly_host?_bind
  intro h?
  cases h? with
  | none => exact writesOnly_pure _
  | some h =>
      apply (writesOnly_remember _).bind
      intro _
      apply WritesOnly.ite _ (writesOnly_pure _)
      exact (writesOnly_insertHost _).bind fun _ =>
        .ite (tellsNobody_saveStateOrLog _) (writesOnly_pure _)

theorem tellsNobody_flushPending (id : HostId) :
    TellsNobody (flushPending id : ServerM σ β Unit) := by
  unfold flushPending
  apply writesOnly_host?_bind
  intro h?
  cases h? with
  | none => exact writesOnly_pure _
  | some h =>
      apply (writesOnly_remember _).bind
      intro _
      apply WritesOnly.ite _ (writesOnly_pure _)
      exact (writesOnly_insertHost _).bind fun _ => tellsNobody_saveStateOrLog _

/-- Nobody is told of the markers and the state of a host that are swept up. -/
theorem tellsNobody_sweep (id : HostId) : TellsNobody (sweep id : ServerM σ β Unit) := by
  unfold sweep
  apply writesOnly_host?_bind
  intro h?
  cases h? with
  | none => exact writesOnly_pure _
  | some h =>
      apply WritesOnly.ite _ (writesOnly_pure _)
      exact (writesOnly_record trivial).bind fun _ => tellsNobody_flushPending id

omit [StateStore σ] in
theorem tellsNobody_withScope {shared : Bool} {denied : α}
    {use : Host β → ServerM σ β (Except StoreError α)} (h : ∀ h, TellsNobody (use h)) :
    TellsNobody (withScope id shared denied use) := by
  unfold withScope
  apply writesOnly_host?_bind
  intro h?
  cases h? with
  | none => exact writesOnly_pure _
  | some x => exact .ite (writesOnly_pure _) (h x)

theorem tellsNobody_readTag (file : Option String) (shared : Bool) :
    TellsNobody (readTag id file shared : ServerM σ β (Except StoreError (Option Blob))) := by
  apply tellsNobody_withScope
  intro h
  cases file <;> exact writesOnly_of_journal_eq fun _ => rfl

theorem tellsNobody_writeTag (blob : Blob) (file : Option String) (shared : Bool) :
    TellsNobody (writeTag id blob file shared : ServerM σ β (Except StoreError Bool)) := by
  apply tellsNobody_withScope
  intro h
  cases file with
  | some file => exact (tellsNobody_changeStore _ _ _).bind fun _ => writesOnly_pure _
  | none => exact tellsNobody_writeGlobalState (some blob)

theorem tellsNobody_appendLog (file : String) (shared : Bool) (typeName : String)
    (lines : List String) :
    TellsNobody (appendLog id file shared typeName lines :
      ServerM σ β (Except StoreError Bool)) :=
  tellsNobody_withScope fun _ => (tellsNobody_changeStore _ _ _).bind fun _ => writesOnly_pure _

theorem tellsNobody_readText (file : String) (shared : Bool) :
    TellsNobody (readText id file shared :
      ServerM σ β (Except StoreError (Option (List String)))) :=
  tellsNobody_withScope fun _ => writesOnly_of_journal_eq fun _ => rfl

theorem tellsNobody_remove (file : String) (shared : Bool) (typeName : String) :
    TellsNobody (remove id file shared typeName : ServerM σ β (Except StoreError Bool)) :=
  tellsNobody_withScope fun _ => tellsNobody_changeStore _ _ _

end

end ServerM

/-! ## Code speaks to whom its host serves -/

variable {id : HostId} {s t u : Server σ β}

variable [StateStore σ]

/-- Steps of code under a host, in which it speaks to nobody but the actor whom the host serves. -/
structure Server.Speaks (id : HostId) (s t : Server σ β) : Prop where
  code : CodeSteps id s t
  writes : s.Writes (Activity.IsUnder id (s.sinkOf id)) t

namespace Server.Speaks

theorem refl (s : Server σ β) : Speaks id s s := ⟨.refl, .refl s⟩

theorem trans (h : Speaks id s t) (g : Speaks id t u) : Speaks id s u where
  code := h.code.trans g.code
  writes := by
    have hwrites := g.writes
    rw [h.code.frame.sinkOf_eq] at hwrites
    exact h.writes.trans hwrites

end Server.Speaks

/-- What code does with the data of an app is told to nobody. -/
theorem StorageStep.writes (h : StorageStep id s t) : s.Writes Activity.IsSilent t := by
  cases h with
  | answer | keep => exact .of_journal_eq rfl
  | request | save | refuse => exact .record (a := .stored _ _) trivial

/-- What code does in one go is told to nobody but whom the host serves. -/
theorem Action.writes (h : Action id s t) : s.Writes (Activity.IsUnder id (s.sinkOf id)) t := by
  cases h with
  | record ha => exact .record (ha.isUnder id _)
  | send hsink message => exact .record hsink
  | call hh hf f arguments => exact .record hf
  | importModule hh hf module hm =>
      exact ⟨[.asked _ (.runModule module)], rfl, List.forall_mem_singleton.2 hf⟩
  | storage h => exact h.writes.mono fun _ ha => ha.isUnder id _
  | _ => exact .of_journal_eq rfl

/-- Code that speaks to whom its host serves does so when it goes on. -/
theorem codeRelation_speaks (id : HostId) :
    CodeRelation id (Server.Speaks id : Server σ β → Server σ β → Prop) where
  refl := .refl
  trans h g := h.trans g
  frame h := h.code.frame
  action h := ⟨h.codeSteps, h.writes⟩

namespace ServerM

/-- The operation is made of steps of code under a host that speaks to whom the host serves. -/
def SpeaksUnder (id : HostId) (m : ServerM σ β α) : Prop :=
  ∀ ⦃s : Server σ β⦄, s.Keyed → s.Speaks id (m.exec s)

/-! ### Sequencing -/

theorem speaksUnder_pure (a : α) : SpeaksUnder id (pure a : ServerM σ β α) := fun s _ => .refl s

theorem SpeaksUnder.bind {m : ServerM σ β α} {f : α → ServerM σ β γ} (hm : SpeaksUnder id m)
    (hf : ∀ a, SpeaksUnder id (f a)) : SpeaksUnder id (m >>= f) :=
  fun _ hs => (hm hs).trans (hf _ ((hm hs).code.frame.keyed hs))

/-! ### Reports and evaluations -/

variable {co : Collaborators β} {run : Runner σ β}

/-- A failure under a host is reported to whom the host serves. -/
theorem speaksUnder_reportFailure (co : Collaborators β) (intro : String) (error : ScriptError) :
    SpeaksUnder id (reportFailure co id intro error : ServerM σ β Unit) :=
  relates_reportFailure (codeRelation_speaks id) intro error

/-- A way to run scripts that speak to whom the host serves. -/
def Speaking (id : HostId) (run : Runner σ β) : Prop :=
  ∀ (frame : Frame) (script : Script β (Except EvalError Value)), frame.host = id →
    SpeaksUnder id (run frame script)

/-- A module that is run for a host speaks to whom the host serves. -/
theorem speaksUnder_runModule (hrun : Speaking id run) {frame : Frame} (hf : frame.host = id)
    (module : Module) : SpeaksUnder id (runModule co run frame module) := by
  have hrecord : SpeaksUnder id (record (.asked frame (.runModule module)) : ServerM σ β Unit) :=
    fun _ _ => ⟨.single (.record _), .record hf⟩
  exact hrecord.bind fun _ => hrun frame _ hf

theorem speaksUnder_callHookWith (hrun : Speaking id run) {frame : Frame} (hf : frame.host = id)
    (f : StoredFunction β) (values : List Value) :
    SpeaksUnder id (callHookWith co run frame f values) :=
  relates_callHookWith (codeRelation_speaks id) hrun hf f values

/-- A definition is told to nobody, except for what the configuration function of a root says. -/
theorem speaksUnder_defineWith (hrun : Speaking id run) (f : StoredFunction β) :
    SpeaksUnder id (defineWith co run id f) :=
  relates_defineWith (codeRelation_speaks id) hrun f

/-- Scripts speak to whom the host serves that they are run for, however deep evaluations nest. -/
theorem speaking_runner (co : Collaborators β) : Speaking id (runner co : Runner σ β) :=
  runsBy_runner (codeRelation_speaks id)

end ServerM

end ScriptHost
