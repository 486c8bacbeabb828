import Mathlib
import ScriptHost.Proofs.Evaluation
/-!
# Two runs side by side

Code that runs under the host of a user, and that keeps away from global state and resources, sees
of a server that host and whether execution is halted, and nothing else.  So on two servers that
agree in these, the same code gives the same answers, writes the same activities into the journal,
and leaves the host in the same state.  The proof follows the model as the one for a single run
does.

## Main statements

* `Codebase`, `Script.StaysIn`: the code of an app that keeps to its host.
* `Server.Alike`: servers that are alike when seen from a host.
* `ServerM.Agrees`, `ServerM.runsAlike_runner`: running code on servers that are alike.
-/

namespace ScriptHost

variable {σ β α γ : Type}

/-! ## Code that keeps to its host -/

/-- The code of an app: its functions, and the libraries that it imports. -/
structure Codebase (β : Type) where
  functions : StoredFunction β → Prop
  libraries : Module → Prop

variable {code : Codebase β} {catalogue : Catalogue} {id : HostId}

/-- All functions that are defined under a host belong to an app. -/
def Host.StaysIn (code : Codebase β) (h : Host β) : Prop :=
  ∀ {key name : String} {f : StoredFunction β},
    (h.definitionsOf key).functions[name]? = some f → code.functions f

/-- A query of code of an app that asks neither for global state nor for resources. -/
def Query.StaysIn (code : Codebase β) (catalogue : Catalogue) : Query β → Prop
  | define f => code.functions f
  | importModule name => ∀ m, (catalogue.find name true).found = some m → code.libraries m
  | writeState _ => False
  | readTag _ _ => False
  | writeTag _ _ _ => False
  | appendLog _ _ _ _ => False
  | readText _ _ => False
  | remove _ _ _ => False
  | _ => True

/-- An answer that code of an app may get: only functions of the app are found under the host. -/
def Query.Fits (code : Codebase β) : (q : Query β) → q.Answer → Prop
  | .host, a => ∀ h, a = some h → h.StaysIn code
  | _, _ => True

/-- A script all of whose queries keep to the code of an app, whatever the host answers. -/
inductive Script.StaysIn (code : Codebase β) (catalogue : Catalogue) : Script β α → Prop where
  | done (a : α) : StaysIn code catalogue (.done a)
  | ask {q : Query β} {next : q.Answer → Script β α} (hq : q.StaysIn code catalogue)
      (hnext : ∀ a, q.Fits code a → (next a).StaysIn code catalogue) :
      StaysIn code catalogue (.ask q next)

/-- The code of an app, when it runs under a host, keeps away from global state and resources. -/
structure Codebase.RunsUnder (code : Codebase β) (co : Collaborators β) (id : HostId) : Prop where
  function : ∀ (frame : Frame) (f : StoredFunction β) (arguments : List Binding), frame.host = id →
    code.functions f → (co.evaluator.callFunction frame f arguments).StaysIn code co.catalogue
  library : ∀ (frame : Frame) (m : Module), frame.host = id → code.libraries m →
    (co.evaluator.runModule frame m).StaysIn code co.catalogue

namespace Host

variable {h : Host β}

/-- Definitions stay in an app if none is added that does not belong to it. -/
theorem StaysIn.modifyDefinitions (hs : h.StaysIn code) (module : Option String)
    {f : Definitions β → Definitions β}
    (hf : ∀ (d : Definitions β) (name : String) (g : StoredFunction β),
      (f d).functions[name]? = some g → d.functions[name]? = some g ∨ code.functions g) :
    (h.modifyDefinitions module f).StaysIn code := by
  intro key name g hg
  rw [definitionsOf_modifyDefinitions] at hg
  split at hg
  · rcases hf _ _ _ hg with hold | hnew
    · exact hs hold
    · exact hnew
  · exact hs hg

theorem StaysIn.insertFunction (hs : h.StaysIn code) {f : StoredFunction β}
    (hf : code.functions f) : (h.insertFunction f).StaysIn code := by
  apply hs.modifyDefinitions
  intro d name g hg
  dsimp only at hg
  rw [Std.ExtTreeMap.getElem?_insert] at hg
  split at hg
  · rw [← Option.some.inj hg]
    exact .inr hf
  · exact .inl hg

theorem StaysIn.eraseFunction (hs : h.StaysIn code) (module : Option String) (name : String) :
    (h.eraseFunction module name).StaysIn code := by
  apply hs.modifyDefinitions
  intro d n g hg
  dsimp only at hg
  rw [Std.ExtTreeMap.getElem?_erase] at hg
  split at hg
  · cases hg
  · exact .inl hg

theorem StaysIn.setGlobal (hs : h.StaysIn code) (module : Option String) (name : String)
    (b : Binding) : (h.setGlobal module name b).StaysIn code := by
  apply hs.modifyDefinitions
  intro d n g hg
  exact .inl hg

end Host

/-! ## Servers that are alike -/

/-- Seen from the host of a user, under which only code of an app is defined, two servers are
alike. -/
structure Server.Alike (code : Codebase β) (id : HostId) (s t : Server σ β) : Prop where
  host : ∃ h, s.host? id = some h ∧ t.host? id = some h ∧ h.id = id ∧ h.owner ≠ none ∧
    h.StaysIn code
  isStopped : t.isStopped = s.isStopped

open Server

/-- Running an operation on two servers gives the same answer and the same new activities, and
leaves servers behind that are alike. -/
structure SameRun (code : Codebase β) (id : HostId) (m : ServerM σ β α) (s t : Server σ β) :
    Prop where
  eval : m.eval t = m.eval s
  alike : Alike code id (m.exec s) (m.exec t)
  journal : ∃ new, (m.exec s).journal = new ++ s.journal ∧ (m.exec t).journal = new ++ t.journal

theorem SameRun.bind {s t : Server σ β} {m : ServerM σ β α} {f : α → ServerM σ β γ}
    (hm : SameRun code id m s t) (hf : SameRun code id (f (m.eval s)) (m.exec s) (m.exec t)) :
    SameRun code id (m >>= f) s t where
  eval := by
    rw [ServerM.eval_bind, ServerM.eval_bind, hm.eval]
    exact hf.eval
  alike := by
    rw [ServerM.exec_bind, ServerM.exec_bind, hm.eval]
    exact hf.alike
  journal := by
    obtain ⟨first, hs, ht⟩ := hm.journal
    obtain ⟨second, hs', ht'⟩ := hf.journal
    rw [ServerM.exec_bind, ServerM.exec_bind, hm.eval, hs', ht', hs, ht]
    exact ⟨second ++ first, (List.append_assoc ..).symm, (List.append_assoc ..).symm⟩

namespace ServerM

/-- The operation runs in the same way on servers that are alike. -/
def Agrees (code : Codebase β) (id : HostId) (m : ServerM σ β α) : Prop :=
  ∀ ⦃s t : Server σ β⦄, Alike code id s t → SameRun code id m s t

/-! ## Sequencing -/

theorem agrees_pure (a : α) : Agrees code id (pure a : ServerM σ β α) :=
  fun _ _ h => ⟨rfl, h, [], rfl, rfl⟩

theorem Agrees.bind {m : ServerM σ β α} {f : α → ServerM σ β γ} (hm : Agrees code id m)
    (hf : ∀ a, Agrees code id (f a)) : Agrees code id (m >>= f) := by
  intro s t h
  have hfirst := hm h
  exact hfirst.bind (hf _ hfirst.alike)

theorem Agrees.map {m : ServerM σ β α} (hm : Agrees code id m) (f : α → γ) :
    Agrees code id (f <$> m) := by
  intro s t h
  obtain ⟨heval, halike, hjournal⟩ := hm h
  exact ⟨congrArg f heval, halike, hjournal⟩

theorem Agrees.ite {c : Prop} [Decidable c] {m n : ServerM σ β α} (hm : Agrees code id m)
    (hn : Agrees code id n) : Agrees code id (if c then m else n) := by
  split
  · exact hm
  · exact hn

/-- What follows a look at the host may use that the host is there. -/
theorem agrees_host?_bind {f : Option (Host β) → ServerM σ β α}
    (hf : ∀ h : Host β, h.id = id → h.owner ≠ none → h.StaysIn code → Agrees code id (f (some h))) :
    Agrees code id (host? id >>= f) := by
  intro s t h
  obtain ⟨x, hs, ht, hid, ho, hstays⟩ := h.host
  have hlook : SameRun code id (host? id) s t :=
    ⟨ht.trans hs.symm, h, [], rfl, rfl⟩
  apply hlook.bind
  rw [eval_host?, hs]
  exact hf x hid ho hstays h

/-- What follows a look at the server may depend on whether execution is halted. -/
theorem agrees_get_bind {f : Server σ β → ServerM σ β α}
    (hsame : ∀ s t : Server σ β, t.isStopped = s.isStopped → f t = f s)
    (hf : ∀ s, Agrees code id (f s)) : Agrees code id (get >>= f) := by
  intro s t h
  have hrun := hf s h
  refine ⟨?_, ?_, ?_⟩
  · rw [eval_bind, eval_bind, eval_get, eval_get, exec_get, exec_get, hsame s t h.isStopped]
    exact hrun.eval
  · rw [exec_bind, exec_bind, eval_get, eval_get, exec_get, exec_get, hsame s t h.isStopped]
    exact hrun.alike
  · rw [exec_bind, exec_bind, eval_get, eval_get, exec_get, exec_get, hsame s t h.isStopped]
    exact hrun.journal

theorem agrees_listForM {f : α → ServerM σ β PUnit} (l : List α)
    (hf : ∀ a, Agrees code id (f a)) : Agrees code id (l.forM f) := by
  induction l with
  | nil => exact agrees_pure _
  | cons a l ih => exact (hf a).bind fun _ => ih

theorem agrees_optionForM {f : α → ServerM σ β PUnit} (o : Option α)
    (hf : ∀ a, Agrees code id (f a)) : Agrees code id (o.forM f) := by
  cases o with
  | none => exact agrees_pure _
  | some a => exact hf a

theorem agrees_listMapM {f : α → ServerM σ β γ} (l : List α)
    (hf : ∀ a, Agrees code id (f a)) : Agrees code id (l.mapM f) := by
  induction l with
  | nil =>
      rw [List.mapM_nil]
      exact agrees_pure _
  | cons a l ih =>
      rw [List.mapM_cons]
      exact (hf a).bind fun _ => ih.bind fun _ => agrees_pure _

/-! ## Changes -/

theorem agrees_record (a : Activity β) : Agrees code id (record a : ServerM σ β Unit) :=
  fun _ _ h => ⟨rfl, ⟨h.host, h.isStopped⟩, [a], rfl, rfl⟩

theorem agrees_log (level : LogLevel) (text : String) :
    Agrees code id (log level text : ServerM σ β Unit) :=
  agrees_record _

/-- The host is changed in the same way. -/
theorem agrees_modifyHost {f : Host β → Host β} (hid : ∀ h, (f h).id = h.id)
    (ho : ∀ h, (f h).owner = h.owner) (hf : ∀ h, h.StaysIn code → (f h).StaysIn code) :
    Agrees code id (modifyHost id f : ServerM σ β Unit) := by
  intro s t h
  obtain ⟨x, hs, ht, hx, hown, hstays⟩ := h.host
  refine ⟨rfl, ⟨⟨f x, ?_, ?_, ?_, ?_, hf x hstays⟩, h.isStopped⟩, [], rfl, rfl⟩
  · rw [exec_modifyHost, host?_modifyHost_self, hs, Option.map_some]
  · rw [exec_modifyHost, host?_modifyHost_self, ht, Option.map_some]
  · rw [hid, hx]
  · rw [ho]
    exact hown

/-- The host is put in place in the same state. -/
theorem agrees_insertHost {h : Host β} (hid : h.id = id) (ho : h.owner ≠ none)
    (hstays : h.StaysIn code) : Agrees code id (insertHost h : ServerM σ β Unit) := by
  intro s t hst
  refine ⟨rfl, ⟨⟨h, ?_, ?_, hid, ho, hstays⟩, hst.isStopped⟩, [], rfl, rfl⟩
  · rw [exec_insertHost, host?_insertHost, if_pos hid]
  · rw [exec_insertHost, host?_insertHost, if_pos hid]

/-- Bindings to events are not seen. -/
theorem agrees_modify_dispatch (f : EventDispatch → EventDispatch) :
    Agrees code id (modify fun s => { s with dispatch := f s.dispatch } : ServerM σ β PUnit) :=
  fun _ _ h => ⟨rfl, ⟨h.host, h.isStopped⟩, [], rfl, rfl⟩

/-! ## Reports -/

theorem agrees_deliver (co : Collaborators β) (actor : Actor) (message : Message) :
    Agrees code id (deliver co actor message : ServerM σ β Unit) := by
  unfold deliver
  split
  · exact agrees_record _
  · exact agrees_log _ _
  · exact agrees_pure _

/-- Failures are reported to whom the host serves. -/
theorem agrees_reportFailure (co : Collaborators β) (intro : String) (error : ScriptError) :
    Agrees code id (reportFailure co id intro error : ServerM σ β Unit) := by
  unfold reportFailure
  apply agrees_host?_bind
  intro h _ _ _
  rw [Option.bind_some]
  cases h.sink with
  | some actor => exact agrees_listForM _ fun _ => agrees_deliver co actor _
  | none => exact agrees_log _ _

/-! ## Asking the evaluator -/

/-- A way to run scripts that agrees on servers that are alike, for code of an app. -/
def RunsAlike (code : Codebase β) (co : Collaborators β) (id : HostId) (run : Runner σ β) : Prop :=
  ∀ (frame : Frame) (script : Script β (Except EvalError Value)), frame.host = id →
    script.StaysIn code co.catalogue → Agrees code id (run frame script)

variable {co : Collaborators β} {run : Runner σ β} {frame : Frame}

theorem agrees_runModule (hcode : code.RunsUnder co id) (hrun : RunsAlike code co id run)
    (hf : frame.host = id) {module : Module} (hm : code.libraries module) :
    Agrees code id (runModule co run frame module) :=
  (agrees_record _).bind fun _ => hrun frame _ hf (hcode.library frame module hf hm)

theorem agrees_evaluate (hcode : code.RunsUnder co id) (hrun : RunsAlike code co id run)
    (hf : frame.host = id) {f : StoredFunction β} (hfun : code.functions f)
    (arguments : List Binding) : Agrees code id (evaluate co run frame f arguments) := by
  subst hf
  unfold evaluate
  apply agrees_host?_bind
  intro h _ _ _
  have hscript := hcode.function frame f arguments rfl hfun
  exact (agrees_record _).bind fun _ => (hrun frame _ rfl hscript).bind fun _ => agrees_pure _

/-- Producers belong to the host. -/
theorem agrees_force (b : Binding) : Agrees code id (force co id b : ServerM σ β Value) := by
  unfold force
  split
  · exact agrees_pure _
  · rename_i index
    apply agrees_host?_bind
    intro h _ _ _
    rw [Option.bind_some]
    cases h.producers[index]? with
    | none => exact agrees_pure _
    | some producer =>
        have hchange : ∀ p : Producer, Agrees code id (modifyHost id fun h =>
            { h with producers := h.producers.set index p } : ServerM σ β Unit) :=
          fun _ => agrees_modifyHost (fun _ => rfl) (fun _ => rfl) fun _ h => h
        exact (hchange _).bind fun _ => (agrees_record _).bind fun _ => agrees_pure _

/-! ## Ways into a function -/

theorem agrees_checkArity (head : String) (f : StoredFunction β) (arguments : List Binding) :
    Agrees code id (checkArity co id head f arguments : ServerM σ β (Except ScriptError Unit)) := by
  unfold checkArity
  apply Agrees.ite
  · exact agrees_pure _
  · exact (agrees_listMapM _ fun b => agrees_force b).bind fun _ => agrees_pure _

theorem agrees_callChecked (hcode : code.RunsUnder co id) (hrun : RunsAlike code co id run)
    (hf : frame.host = id) (head : String) {f : StoredFunction β} (hfun : code.functions f)
    (arguments : List Binding) : Agrees code id (callChecked co run frame head f arguments) := by
  subst hf
  unfold callChecked
  apply (agrees_checkArity head f arguments).bind
  intro result
  cases result with
  | error e => exact agrees_pure _
  | ok u => exact agrees_evaluate hcode hrun rfl hfun arguments

theorem agrees_callWith (hcode : code.RunsUnder co id) (hrun : RunsAlike code co id run)
    (actor : Actor) {f : StoredFunction β} (hfun : code.functions f) (values : List Value) :
    Agrees code id (callWith co run id actor f values) := by
  unfold callWith
  apply agrees_get_bind
  · intro s t h
    rw [h]
  · intro s
    cases s.isStopped with
    | true => exact agrees_pure _
    | false => exact agrees_callChecked hcode hrun rfl _ hfun _

/-- A function that is called by name is one that is defined under the host. -/
theorem agrees_callTextWith (hcode : code.RunsUnder co id) (hrun : RunsAlike code co id run)
    (actor : Actor) (name : String) (coords : List Int) (text : String) :
    Agrees code id (callTextWith co run id actor name coords text) := by
  unfold callTextWith
  apply agrees_get_bind
  · intro s t h
    rw [h]
  · intro s
    cases s.isStopped with
    | true => exact agrees_pure _
    | false =>
        apply agrees_host?_bind
        intro h _ _ hstays
        rw [Option.bind_some]
        cases hfun : h.function? name with
        | none => exact agrees_pure _
        | some f =>
            dsimp only
            split
            · exact agrees_pure _
            · split
              · exact agrees_pure _
              · exact agrees_callChecked hcode hrun rfl _ (hstays hfun) _

theorem agrees_callHookWith (hcode : code.RunsUnder co id) (hrun : RunsAlike code co id run)
    (hf : frame.host = id) {f : StoredFunction β} (hfun : code.functions f) (values : List Value) :
    Agrees code id (callHookWith co run frame f values) := by
  subst hf
  unfold callHookWith
  apply agrees_get_bind
  · intro s t h
    rw [h]
  · intro s
    cases s.isStopped with
    | true => exact agrees_pure _
    | false =>
        simp only [Bool.false_eq_true, if_false]
        split
        · exact agrees_pure _
        · apply (agrees_evaluate hcode hrun rfl hfun _).bind
          intro result
          cases result with
          | ok value => exact agrees_pure _
          | error e => exact (agrees_reportFailure co _ e).bind fun _ => agrees_pure _

/-! ## Definitions -/

/-- The configuration of an app is read when its root defines the function for it, so here a
definition runs no code. -/
theorem agrees_defineWith {f : StoredFunction β} (hfun : code.functions f) :
    Agrees code id (defineWith co run id f) := by
  unfold defineWith
  apply agrees_host?_bind
  intro h _ ho _
  have hinsert : Agrees code id (modifyHost id (·.insertFunction f) : ServerM σ β Unit) :=
    agrees_modifyHost (fun _ => rfl) (fun _ => rfl) fun _ h => h.insertFunction hfun
  have hroot : h.isRoot = false := Option.isNone_eq_false_iff.2 (Option.isSome_iff_ne_none.2 ho)
  apply hinsert.bind
  intro _
  apply Agrees.ite
  · exact agrees_pure _
  · cases HookKind.ofName f.name with
    | event e =>
        have hbind : Agrees code id (_ : ServerM σ β PUnit) :=
          agrees_modify_dispatch (·.bind e { host := id, function := f.name })
        exact hbind.bind fun _ => agrees_pure _
    | config =>
        -- the host of a user is no root
        dsimp only
        rw [hroot]
        exact agrees_pure _
    | _ => exact agrees_pure _

theorem agrees_delete (module : Option String) (name : String) :
    Agrees code id (delete id module name : ServerM σ β Unit) := by
  unfold delete
  apply agrees_host?_bind
  intro h _ _ _
  have herase : Agrees code id (modifyHost id (·.eraseFunction module name) : ServerM σ β Unit) :=
    agrees_modifyHost (fun _ => rfl) (fun _ => rfl) fun _ h => h.eraseFunction module name
  apply herase.bind
  intro _
  cases HookKind.ofName name with
  | event e =>
      exact agrees_modify_dispatch (·.unbind e { host := id, function := name })
  | _ => exact agrees_pure _

theorem agrees_findModule (name : String) (allowLibrary : Bool) :
    Agrees code id (findModule co name allowLibrary : ServerM σ β (Option Module)) :=
  (agrees_optionForM _ fun _ => agrees_log _ _).bind fun _ => agrees_pure _

theorem agrees_importModule (hcode : code.RunsUnder co id) (hrun : RunsAlike code co id run)
    (hf : frame.host = id) {name : String}
    (hname : ∀ m, (co.catalogue.find name true).found = some m → code.libraries m) :
    Agrees code id (importModule co run frame name) := by
  subst hf
  have hfind : Agrees code frame.host (findModule co name true : ServerM σ β _) :=
    agrees_findModule name true
  unfold importModule
  intro s t h
  -- what is found has to be kept in sight, to see that it is a library of the app
  apply (hfind h).bind
  have hfound : (findModule co name true).eval s = (co.catalogue.find name true).found := rfl
  rw [hfound]
  have hafter := (hfind h).alike
  revert hafter
  cases hm : (co.catalogue.find name true).found.filter (·.code.isSome) with
  | none => exact fun hafter => agrees_pure _ hafter
  | some module =>
      have hlibrary := hname module (Option.filter_eq_some_iff.1 hm).1
      intro hafter
      refine agrees_host?_bind (fun x _ _ _ => ?_) hafter
      apply Agrees.ite
      · exact agrees_pure _
      · have hmark : Agrees code frame.host
            (modifyHost frame.host (·.markImported module.name) : ServerM σ β Unit) :=
          agrees_modifyHost (fun _ => rfl) (fun _ => rfl) fun _ h => h
        exact hmark.bind fun _ =>
          (agrees_runModule hcode hrun rfl hlibrary).bind fun _ => agrees_pure _

/-! ## Scripts -/

variable [StateStore σ]

/-- A query that keeps to the code of an app is answered alike. -/
theorem agrees_answer (hcode : code.RunsUnder co id) (hrun : RunsAlike code co id run)
    (hf : frame.host = id) {q : Query β} (hq : q.StaysIn code co.catalogue) :
    Agrees code id (answer co run frame q) := by
  subst hf
  cases q with
  | host => exact agrees_host?_bind fun h _ _ _ => agrees_pure _
  | isStopped =>
      apply agrees_get_bind
      · intro s t h
        rw [h]
      · exact fun _ => agrees_pure _
  | define f => exact (agrees_defineWith hq).bind fun _ => agrees_pure _
  | delete module name => exact agrees_delete module name
  | setGlobal module name b =>
      exact agrees_modifyHost (fun _ => rfl) (fun _ => rfl) fun _ h => h.setGlobal module name b
  | defer label =>
      apply agrees_host?_bind
      intro h hid ho hstays
      have hinsert : Agrees code frame.host
          (insertHost (h.addProducer label).2 : ServerM σ β Unit) :=
        agrees_insertHost hid ho hstays
      exact hinsert.bind fun _ => agrees_pure _
  | force b => exact agrees_force b
  | importModule name => exact agrees_importModule hcode hrun rfl hq
  | note text => exact agrees_record _
  | writeState blob => exact hq.elim
  | readTag file shared => exact hq.elim
  | writeTag blob file shared => exact hq.elim
  | appendLog file shared typeName lines => exact hq.elim
  | readText file shared => exact hq.elim
  | remove file shared typeName => exact hq.elim

/-- An answer is one that code of an app may get. -/
theorem fits_answer {s t : Server σ β} (h : Alike code id s t) (hf : frame.host = id)
    (q : Query β) : q.Fits code ((answer co run frame q).eval s) := by
  subst hf
  cases q with
  | host =>
      obtain ⟨x, hs, _, _, _, hstays⟩ := h.host
      intro y hy
      obtain rfl : x = y := Option.some.inj (hs.symm.trans hy)
      exact hstays
  | _ => trivial

/-- A script runs alike if its queries are answered alike.  The script goes on with an answer that
it may get, so it keeps to the code of the app. -/
theorem agrees_interpret (hcode : code.RunsUnder co id) (hrun : RunsAlike code co id run)
    (hf : frame.host = id) {script : Script β α} (hs : script.StaysIn code co.catalogue) :
    Agrees code id (script.interpret (answer co run frame) : ServerM σ β α) := by
  induction hs with
  | done a => exact agrees_pure a
  | ask hq hnext ih =>
      intro s t h
      have hfirst := agrees_answer (σ := σ) hcode hrun hf hq h
      exact hfirst.bind (ih _ (fits_answer h hf _) hfirst.alike)

/-- Scripts run alike, however deep evaluations nest. -/
theorem runsAlike_runScript (hcode : code.RunsUnder co id) (depth : Nat) :
    RunsAlike code co id (runScript co depth : Runner σ β) := by
  induction depth with
  | zero =>
      intro frame script _ _
      exact agrees_pure _
  | succ depth ih =>
      intro frame script hf hs
      exact agrees_interpret hcode ih hf hs

theorem runsAlike_runner (hcode : code.RunsUnder co id) :
    RunsAlike code co id (runner co : Runner σ β) :=
  runsAlike_runScript hcode maxDepth

end ServerM

end ScriptHost
