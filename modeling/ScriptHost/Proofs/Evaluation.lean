import Mathlib
import ScriptHost.Proofs.Answers
/-!
# Evaluations are made of steps of code

Whatever an evaluation does, it does by steps of code under the host that it was started for: each
of the actions that answer its queries is made of such steps.  The code of the host's own module is
run in the same way when the host is made.

## Main statements

* `ServerM.ActsUnder`: an operation that is made of steps of code.
* `ServerM.actsUnder_runModule`: so is the run of a module.
* `ServerM.runsUnder_runner`: a whole evaluation.
-/

namespace ScriptHost

variable {σ β α γ : Type} [StateStore σ]

namespace ServerM

/-- The operation is made of steps of code under a host. -/
def ActsUnder (id : HostId) (m : ServerM σ β α) : Prop :=
  ∀ ⦃s : Server σ β⦄, s.Keyed → CodeSteps id s (m.exec s)

variable {id : HostId}

/-! ## Sequencing -/

theorem actsUnder_pure (a : α) : ActsUnder id (pure a : ServerM σ β α) :=
  fun _ _ => .refl

theorem ActsUnder.bind {m : ServerM σ β α} {f : α → ServerM σ β γ} (hm : ActsUnder id m)
    (hf : ∀ a, ActsUnder id (f a)) : ActsUnder id (m >>= f) := by
  intro s hs
  have hfirst := hm hs
  exact hfirst.trans (hf _ (hfirst.frame.keyed hs))

theorem ActsUnder.map {m : ServerM σ β α} (hm : ActsUnder id m) (f : α → γ) :
    ActsUnder id (f <$> m) :=
  hm

/-- What follows a look at a host may use that the host is there. -/
theorem actsUnder_host?_bind {k : HostId} {f : Option (Host β) → ServerM σ β α}
    (h : ∀ s : Server σ β, s.Keyed → CodeSteps id s ((f (s.host? k)).exec s)) :
    ActsUnder id (host? k >>= f) := by
  intro s hs
  exact h s hs

theorem actsUnder_listForM {f : α → ServerM σ β PUnit} (l : List α)
    (hf : ∀ a, ActsUnder id (f a)) : ActsUnder id (l.forM f) := by
  induction l with
  | nil => exact actsUnder_pure _
  | cons a l ih => exact (hf a).bind fun _ => ih

/-! ## Reports -/

theorem actsUnder_record (a : Activity β) : ActsUnder id (record a : ServerM σ β Unit) :=
  fun _ _ => .single (.record a)

theorem actsUnder_log (level : LogLevel) (text : String) :
    ActsUnder id (log level text : ServerM σ β Unit) :=
  actsUnder_record _

/-- A message is delivered by writing it into the journal. -/
theorem actsUnder_deliver (co : Collaborators β) (actor : Actor) (message : Message) :
    ActsUnder id (deliver co actor message : ServerM σ β Unit) := by
  unfold deliver
  split
  · exact actsUnder_record _
  · exact actsUnder_log _ _
  · exact actsUnder_pure _

theorem actsUnder_report (co : Collaborators β) (actor : Actor) (intro : String)
    (error : ScriptError) : ActsUnder id (report co actor intro error : ServerM σ β Unit) :=
  actsUnder_listForM _ fun _ => actsUnder_deliver co actor _

/-- A failure is reported by writing into the journal. -/
theorem actsUnder_reportFailure (co : Collaborators β) (k : HostId) (intro : String)
    (error : ScriptError) : ActsUnder id (reportFailure co k intro error : ServerM σ β Unit) := by
  unfold reportFailure
  apply actsUnder_host?_bind
  intro s hs
  cases (s.host? k).bind (·.sink) with
  | some actor => exact actsUnder_report co actor intro error hs
  | none => exact actsUnder_log _ _ hs

/-! ## Asking the evaluator -/

/-- A way to run scripts that are made of steps of code under a host. -/
def RunsUnder (id : HostId) (run : Runner σ β) : Prop :=
  ∀ (frame : Frame) (script : Script β (Except EvalError Value)), frame.host = id →
    ActsUnder id (run frame script)

variable {co : Collaborators β} {run : Runner σ β}

theorem actsUnder_runModule (hrun : RunsUnder id run) {frame : Frame} (hf : frame.host = id)
    (module : Module) : ActsUnder id (runModule co run frame module) :=
  (actsUnder_record _).bind fun _ => hrun frame _ hf

theorem actsUnder_evaluate (hrun : RunsUnder id run) {frame : Frame} (hf : frame.host = id)
    (f : StoredFunction β) (arguments : List Binding) :
    ActsUnder id (evaluate co run frame f arguments) :=
  relates_evaluate (codeRelation_codeSteps id) hrun hf f arguments

/-! ## Definitions -/

theorem actsUnder_defineWith (hrun : RunsUnder id run) (f : StoredFunction β) :
    ActsUnder id (defineWith co run id f) :=
  relates_defineWith (codeRelation_codeSteps id) hrun f

theorem actsUnder_delete (module : Option String) (name : String) :
    ActsUnder id (delete id module name : ServerM σ β Unit) :=
  relates_delete (codeRelation_codeSteps id) module name

/-! ## Libraries -/

theorem actsUnder_findModule (name : String) (allowLibrary : Bool) :
    ActsUnder id (findModule co name allowLibrary : ServerM σ β (Option Module)) :=
  relates_findModule (codeRelation_codeSteps id) name allowLibrary

/-! ## Storage -/

theorem actsUnder_writeGlobalState (blob : Option Blob) :
    ActsUnder id (writeGlobalState id blob : ServerM σ β (Except StoreError Bool)) :=
  relates_writeGlobalState (codeRelation_codeSteps id) blob

theorem actsUnder_readTag (file : Option String) (shared : Bool) :
    ActsUnder id (readTag id file shared : ServerM σ β (Except StoreError (Option Blob))) :=
  relates_readTag (codeRelation_codeSteps id) file shared

theorem actsUnder_writeTag (blob : Blob) (file : Option String) (shared : Bool) :
    ActsUnder id (writeTag id blob file shared : ServerM σ β (Except StoreError Bool)) :=
  relates_writeTag (codeRelation_codeSteps id) blob file shared

theorem actsUnder_appendLog (file : String) (shared : Bool) (typeName : String)
    (lines : List String) :
    ActsUnder id (appendLog id file shared typeName lines :
      ServerM σ β (Except StoreError Bool)) :=
  relates_appendLog (codeRelation_codeSteps id) file shared typeName lines

theorem actsUnder_readText (file : String) (shared : Bool) :
    ActsUnder id (readText id file shared :
      ServerM σ β (Except StoreError (Option (List String)))) :=
  relates_readText (codeRelation_codeSteps id) file shared

theorem actsUnder_remove (file : String) (shared : Bool) (typeName : String) :
    ActsUnder id (remove id file shared typeName : ServerM σ β (Except StoreError Bool)) :=
  relates_remove (codeRelation_codeSteps id) file shared typeName

/-! ## Scripts -/

/-- Scripts act under the host that they are run for, however deep evaluations nest. -/
theorem runsUnder_runner (co : Collaborators β) : RunsUnder id (runner co : Runner σ β) :=
  runsBy_runner (codeRelation_codeSteps id)

end ServerM

end ScriptHost
