import Mathlib
import ScriptHost.Proofs.Family
import ScriptHost.Proofs.Operations
import ScriptHost.Proofs.Records
import ScriptHost.Proofs.Window
/-!
# Numbers of hosts that are gone

Whoever has asked for a host keeps its number, and the host may be gone when the number is used.  A
number is given away once: new hosts get higher numbers than all hosts before them, so an old number
never comes to stand for another host.  And a request with a number that stands for no host comes to
nothing: no code runs, and nothing changes but the log.

## Main statements

* `LogsOnly`, `Inert`: operations that come to nothing unless a host is there.
* `Operation.target?`, `Operation.inert`: no request does anything with a number that stands for no
  host.
* `GivesNumbers`, `GivesNumbers.increasing`: the numbers that are given away in a run increase.
* `NumbersKept`, `Steps.numbersKept`: no number comes to stand for another host.
* `stale_of_reachable`: both for all reachable servers.
-/

namespace ScriptHost

open Server

variable {σ β α γ : Type}

/-! ## Operations that come to nothing -/

/-- The second server is the first one with more lines in its log. -/
def LogsOnly (s t : Server σ β) : Prop :=
  ∃ lines : List (LogLevel × String),
    t = { s with journal := lines.map (fun l => .logged l.1 l.2) ++ s.journal }

namespace LogsOnly

variable {s t u : Server σ β}

protected theorem refl (s : Server σ β) : LogsOnly s s := ⟨[], rfl⟩

protected theorem trans (h : LogsOnly s t) (g : LogsOnly t u) : LogsOnly s u := by
  obtain ⟨first, rfl⟩ := h
  obtain ⟨second, rfl⟩ := g
  exact ⟨second ++ first, by rw [List.map_append, List.append_assoc]⟩

theorem host?_eq (h : LogsOnly s t) (k : HostId) : t.host? k = s.host? k := by
  obtain ⟨_, rfl⟩ := h
  rfl

end LogsOnly

/-- If there is no host of a number, the operation does nothing but log. -/
def Inert (id : HostId) (m : ServerM σ β α) : Prop :=
  ∀ s, s.host? id = none → LogsOnly s (m.exec s)

section

open ServerM

variable {id : HostId}

theorem inert_pure (a : α) : Inert id (pure a : ServerM σ β α) := fun _ _ => .refl _

theorem Inert.bind {m : ServerM σ β α} {f : α → ServerM σ β γ} (hm : Inert id m)
    (hf : ∀ a, Inert id (f a)) : Inert id (m >>= f) := by
  intro s hs
  have hfirst := hm s hs
  exact hfirst.trans (hf _ _ ((hfirst.host?_eq id).trans hs))

theorem Inert.map {m : ServerM σ β α} (hm : Inert id m) (f : α → γ) : Inert id (f <$> m) := hm

theorem Inert.ite {c : Prop} [Decidable c] {m n : ServerM σ β α} (hm : Inert id m)
    (hn : Inert id n) : Inert id (if c then m else n) := by
  split
  · exact hm
  · exact hn

theorem inert_get_bind {f : Server σ β → ServerM σ β α} (h : ∀ s, Inert id (f s)) :
    Inert id (get >>= f) := fun s => h s s

/-- Only what is done without the host counts. -/
theorem inert_host?_bind {f : Option (Host β) → ServerM σ β α} (h : Inert id (f none)) :
    Inert id (ServerM.host? id >>= f) := by
  intro s hs
  rw [exec_bind, eval_host?, exec_host?, hs]
  exact h s hs

theorem inert_log (level : LogLevel) (text : String) :
    Inert id (log level text : ServerM σ β Unit) := fun _ _ => ⟨[(level, text)], rfl⟩

/-- There is nothing to change where no host is. -/
theorem inert_modifyHost (f : Host β → Host β) :
    Inert id (modifyHost id f : ServerM σ β Unit) := by
  intro s hs
  have hhosts : s.hosts.modify id f = s.hosts := by
    apply Std.ExtTreeMap.ext_getElem?
    intro k
    refine (host?_modifyHost s id k f).trans ?_
    split
    · rename_i hid
      subst hid
      rw [hs]
      exact hs.symm
    · rfl
  have hsame : s.modifyHost id f = s := by
    rw [Server.modifyHost, hhosts]
  rw [exec_modifyHost, hsame]
  exact .refl s

theorem inert_listMapM {f : α → ServerM σ β γ} (l : List α) (hf : ∀ a, Inert id (f a)) :
    Inert id (l.mapM f) := by
  induction l with
  | nil => exact inert_pure []
  | cons a l ih =>
      rw [List.mapM_cons]
      exact (hf a).bind fun b => ih.bind fun bs => inert_pure _

/-! ## Requests to run code -/

variable {co : Collaborators β} {run : Runner σ β}

theorem inert_reportFailure (intro : String) (error : ScriptError) :
    Inert id (reportFailure co id intro error : ServerM σ β Unit) :=
  inert_host?_bind (inert_log _ _)

theorem inert_force (b : Binding) : Inert id (force co id b : ServerM σ β Value) := by
  cases b with
  | value v => exact inert_pure v
  | deferred index => exact inert_host?_bind (inert_pure _)

theorem inert_checkArity (head : String) (f : StoredFunction β) (arguments : List Binding) :
    Inert id (checkArity co id head f arguments : ServerM σ β (Except ScriptError Unit)) :=
  (inert_pure _).ite ((inert_listMapM arguments inert_force).bind fun _ => inert_pure _)

/-- No code runs without the host that it would run under. -/
theorem inert_evaluate (frame : Frame) (f : StoredFunction β) (arguments : List Binding) :
    Inert frame.host (evaluate co run frame f arguments) :=
  inert_host?_bind (inert_pure _)

theorem inert_callChecked (frame : Frame) (head : String) (f : StoredFunction β)
    (arguments : List Binding) :
    Inert frame.host (callChecked co run frame head f arguments) := by
  refine (inert_checkArity head f arguments).bind fun checked => ?_
  cases checked with
  | error e => exact inert_pure _
  | ok u => exact inert_evaluate frame f arguments

theorem inert_callWith (actor : Actor) (f : StoredFunction β) (values : List Value) :
    Inert id (callWith co run id actor f values) :=
  inert_get_bind fun _ => (inert_pure _).ite
    (inert_callChecked { host := id, actor } _ f _)

/-- A host that is not there has no functions. -/
theorem inert_callTextWith (actor : Actor) (name : String) (coords : List Int) (text : String) :
    Inert id (callTextWith co run id actor name coords text) :=
  inert_get_bind fun _ => (inert_pure _).ite (inert_host?_bind (inert_pure _))

theorem inert_callHookWith (frame : Frame) (f : StoredFunction β) (values : List Value) :
    Inert frame.host (callHookWith co run frame f values) := by
  refine inert_get_bind fun _ => (inert_pure _).ite ?_
  cases co.evaluator.accepts f values with
  | error reason => exact inert_pure _
  | ok u =>
      refine (inert_evaluate frame f _).bind fun answer => ?_
      cases answer with
      | ok value => exact inert_pure _
      | error e => exact (inert_reportFailure _ e).bind fun _ => inert_pure _

theorem inert_reportCommand (result : Except ScriptError Value) :
    Inert id (reportCommand co id result : ServerM σ β Value) := by
  cases result with
  | ok value => exact inert_pure value
  | error e => exact (inert_reportFailure _ e).bind fun _ => inert_pure _

theorem inert_defineWith (f : StoredFunction β) : Inert id (defineWith co run id f) :=
  inert_host?_bind (inert_pure _)

theorem inert_delete (module : Option String) (name : String) :
    Inert id (delete id module name : ServerM σ β Unit) :=
  inert_host?_bind (inert_pure _)

/-! ## Requests for hosts and for what they keep -/

variable [StateStore σ]

theorem inert_duplicateForUser (user : String) (actor : Actor) :
    Inert id (duplicateForUser co id user actor : ServerM σ β (Except ScriptError HostId)) :=
  inert_host?_bind (inert_pure _)

theorem inert_retrieveForExecution (actor : Actor) :
    Inert id (retrieveForExecution co id actor :
      ServerM σ β (Except ScriptError (Option HostId))) :=
  inert_host?_bind (inert_pure _)

theorem inert_retrieveForTarget (target : Option Actor) :
    Inert id (retrieveForTarget co id target :
      ServerM σ β (Except ScriptError (Option HostId))) :=
  inert_host?_bind (inert_pure _)

/-- A host that is not there has no family to be closed. -/
theorem inert_close : Inert id (close co id : ServerM σ β Unit) := by
  intro s hs
  unfold close
  rw [exec_bind, eval_get, exec_get, family_of_host?_eq_none hs]
  exact .refl s

theorem inert_tickHost : Inert id (tickHost id : ServerM σ β Unit) :=
  inert_host?_bind (inert_pure _)

/-- A host that is not there has no root but itself. -/
theorem inert_writeGlobalState (blob : Option Blob) :
    Inert id (writeGlobalState id blob : ServerM σ β (Except StoreError Bool)) := by
  intro s hs
  have hself : s.rootOf id = id := by simp [rootOf, hs]
  unfold writeGlobalState
  rw [exec_bind, eval_get, exec_get, hself, exec_bind, eval_host?, exec_host?, hs]
  exact .refl s

omit [StateStore σ] in
theorem inert_withScope {shared : Bool} {denied : α}
    {use : Host β → ServerM σ β (Except StoreError α)} :
    Inert id (withScope id shared denied use) :=
  inert_host?_bind (inert_pure _)

end

/-! ## All requests -/

/-- The number that a request is about, if it is about a single host. -/
def Operation.target? : Operation β → Option HostId
  | invoke id _ | define id _ | delete id _ _ | duplicateForUser id _ _
  | retrieveForExecution id _ | retrieveForTarget id _ | close id | tickHost id
  | reportFailure id _ _ | resetSink id | writeGlobalState id _ | readTag id _ _
  | writeTag id _ _ _ | appendLog id _ _ _ _ | readText id _ _ | remove id _ _ _ => some id
  | setStopped _ | addApp _ _ | removeApp _ | createApplication _ _ _ | reloadApps _ | autoload
  | shutdown | fireEvent _ _ | tick => none

variable [StateStore σ]

theorem Invocation.inert (co : Collaborators β) (id : HostId) (i : Invocation β) :
    Inert id (i.run co id : ServerM σ β Reply) := by
  cases i with
  | call actor f values => exact (inert_callWith actor f values).map _
  | callText actor name coords text => exact (inert_callTextWith actor name coords text).map _
  | callHook actor origin f values =>
      exact (inert_callHookWith { host := id, actor, origin } f values).map _
  | command actor f values =>
      exact ((inert_callWith actor f values).bind inert_reportCommand).map _
  | commandText actor name coords text =>
      exact ((inert_callTextWith actor name coords text).bind inert_reportCommand).map _

/-- A request about a host that is not there does nothing but log. -/
theorem Operation.inert (co : Collaborators β) {op : Operation β} {id : HostId}
    (h : op.target? = some id) : Inert id (op.run co : ServerM σ β Unit) := by
  -- only the requests about a single host are left
  cases op <;> obtain ⟨⟩ := h
  case invoke i => exact (i.inert co _).bind fun _ => inert_pure _
  case define f => exact (inert_defineWith f).bind fun _ => inert_pure _
  case delete module name => exact inert_delete module name
  case duplicateForUser user actor =>
    exact (inert_duplicateForUser user actor).bind fun _ => inert_pure _
  case retrieveForExecution actor =>
    exact (inert_retrieveForExecution actor).bind fun _ => inert_pure _
  case retrieveForTarget target =>
    exact (inert_retrieveForTarget target).bind fun _ => inert_pure _
  case close => exact inert_close
  case tickHost => exact inert_tickHost
  case reportFailure intro error => exact inert_reportFailure intro error
  case resetSink => exact inert_modifyHost _
  case writeGlobalState blob => exact (inert_writeGlobalState blob).bind fun _ => inert_pure _
  case readTag file shared => exact inert_withScope.bind fun _ => inert_pure _
  case writeTag blob file shared => exact inert_withScope.bind fun _ => inert_pure _
  case appendLog file shared typeName lines => exact inert_withScope.bind fun _ => inert_pure _
  case readText file shared => exact inert_withScope.bind fun _ => inert_pure _
  case remove file shared typeName => exact inert_withScope.bind fun _ => inert_pure _

/-! ## Numbers that are given away -/

section

variable {suits : String → Module → Prop} {s t u : Server σ β}

/-- A step gives the next number away, or none. -/
theorem Step.nextId_eq_or (h : Step suits s t) :
    t.nextId = s.nextId ∨ t.nextId = s.nextId + 1 := by
  have hsave : ∀ (u : Server σ β) (x : Host β), (u.save x).nextId = u.nextId := fun u x => by
    unfold Server.save
    split <;> rfl
  cases h with
  | code h => exact .inl h.frame.nextId
  | skipId | beginRoot | beginUser => exact .inr rfl
  | discard => exact .inl (by rw [discard_eq])
  | tickSave | closeSave => exact .inl (hsave _ _)
  | setStopped | setSink | eraseApp | insertApp | tickIdle | tickWait | closeIdle => exact .inl rfl

/-- A run, with the numbers that are given away on the way, first to last. -/
inductive GivesNumbers (suits : String → Module → Prop) (s : Server σ β) :
    List HostId → Server σ β → Prop where
  | refl : GivesNumbers suits s [] s
  | keep {ids : List HostId} {t u : Server σ β} (h : GivesNumbers suits s ids t)
      (hstep : Step suits t u) (hnext : u.nextId = t.nextId) : GivesNumbers suits s ids u
  | give {ids : List HostId} {t u : Server σ β} (h : GivesNumbers suits s ids t)
      (hstep : Step suits t u) (hnext : u.nextId = t.nextId + 1) :
      GivesNumbers suits s (ids ++ [t.nextId]) u

namespace GivesNumbers

variable {ids : List HostId}

theorem steps (h : GivesNumbers suits s ids t) : Steps suits s t := by
  induction h with
  | refl => exact .refl
  | keep _ hstep _ ih => exact ih.tail hstep
  | give _ hstep _ ih => exact ih.tail hstep

/-- The numbers that are given away are those between the next numbers, in their order. -/
theorem eq_range' (h : GivesNumbers suits s ids t) :
    ids = List.range' s.nextId (t.nextId - s.nextId) := by
  induction h with
  | refl => rw [Nat.sub_self]; rfl
  | keep _ _ hnext ih => rw [hnext, ih]
  | @give ids t u h _ hnext ih =>
      have hle : s.nextId ≤ t.nextId := h.steps.nextId_le
      have hcount : u.nextId - s.nextId = (t.nextId - s.nextId) + 1 := by
        rw [hnext]
        exact Nat.sub_add_comm hle
      rw [hcount, List.range'_concat, ← ih, Nat.one_mul, Nat.add_sub_cancel' hle]

/-- The numbers that are given away increase. -/
theorem increasing (h : GivesNumbers suits s ids t) : ids.Pairwise (· < ·) := by
  rw [h.eq_range']
  exact List.pairwise_lt_range'

end GivesNumbers

theorem Steps.exists_givesNumbers (h : Steps suits s t) : ∃ ids, GivesNumbers suits s ids t := by
  induction h with
  | refl => exact ⟨[], .refl⟩
  | tail _ hstep ih =>
      obtain ⟨ids, hids⟩ := ih
      rcases hstep.nextId_eq_or with hnext | hnext
      · exact ⟨ids, hids.keep hstep hnext⟩
      · exact ⟨_, hids.give hstep hnext⟩

/-- From one server to a later one, numbers keep their meaning. -/
structure NumbersKept (s t : Server σ β) : Prop where
  /-- The later server comes about in a run that gives numbers away, -/
  given : ∃ ids, GivesNumbers (fun _ _ => True) s ids t
  /-- and in every such run they increase, and every new host has got one of them. -/
  increasing : ∀ ids, GivesNumbers (fun _ _ => True) s ids t → ids.Pairwise (· < ·) ∧
    (∀ k ∈ ids, s.nextId ≤ k) ∧ ∀ k, s.host? k = none → (t.host? k).isSome → k ∈ ids
  /-- A number that stands for no host, though it has been given away, will never stand for one. -/
  gone : ∀ k, k < s.nextId → s.host? k = none → t.host? k = none
  /-- A number that stands for a host stands for the host of that app and that user for good. -/
  same : ∀ k x y, s.host? k = some x → t.host? k = some y →
    y.owner = x.owner ∧ y.module = x.module
  /-- The number of a host that has been discarded stands for no host. -/
  ended : ∀ k, .ended k ∈ s.chronicle → t.host? k = none

theorem Steps.numbersKept (ha : Arena (fun _ _ => True) s) (hr : Recorded s)
    (h : Steps (fun _ _ => True) s t) : NumbersKept s t := by
  have hgone : ∀ k, k < s.nextId → s.host? k = none → t.host? k = none := fun k hk hdead => by
    cases hx : t.host? k with
    | none => rfl
    | some x =>
        obtain ⟨y, hy, _⟩ := h.host?_of_lt ha hk hx
        rw [hdead] at hy
        cases hy
  refine ⟨h.exists_givesNumbers, fun ids hids => ?_, hgone, fun k x y hx hy => ?_, fun k hk => ?_⟩
  · refine ⟨hids.increasing, fun k hk => ?_, fun k hdead hlive => ?_⟩
    · rw [hids.eq_range'] at hk
      exact (List.mem_range'_1.1 hk).1
    · obtain ⟨x, hx⟩ := Option.isSome_iff_exists.1 hlive
      have hlt : k < t.nextId := (Steps.arena ha h).lt_nextId hx
      have hle : s.nextId ≤ k := by
        by_contra hk
        rw [hgone k (Nat.lt_of_not_le hk) hdead] at hx
        cases hx
      rw [hids.eq_range', List.mem_range'_1]
      exact ⟨hle, by rwa [Nat.add_sub_cancel' h.nextId_le]⟩
  · obtain ⟨z, hz, howner, hmodule⟩ := h.host?_of_lt ha (ha.lt_nextId hx) hy
    obtain rfl : x = z := Option.some.inj (hx.symm.trans hz)
    exact ⟨howner, hmodule⟩
  · obtain ⟨hdead, hlt⟩ := hr.ended hk
    exact hgone k hlt hdead

end

/-! ## Reachable servers -/

/-- From every reachable server on, numbers are given away in increasing order and never stand for
another host than the first one; and a request about a number that stands for no host runs no code
and changes nothing but the log. -/
theorem stale_of_reachable {allowed : Catalogue → Prop} {s : Server σ β}
    (hs : Reachable allowed s) :
    (∀ t, Leads allowed (fun _ => True) s t → NumbersKept s t) ∧
    ∀ (co : Collaborators β) (op : Operation β) (id : HostId), op.target? = some id →
      s.host? id = none → LogsOnly s ((op.run co).exec s) := by
  have hfollows : ∀ c, allowed c → c.Follows fun _ _ => True := fun _ _ _ _ _ => trivial
  obtain ⟨ha, hr⟩ := hs.induction (P := Recorded) hfollows recorded_new
    fun _ _ ha hr hstep => hstep.recorded ha hr
  exact ⟨fun t ht => (ht.steps hfollows ha).numbersKept ha hr,
    fun co op id hop hdead => Operation.inert co hop s hdead⟩

/-- The market is loaded, unloaded, and loaded again.  Whoever still has the number of the first
host cannot reach the second one by it. -/
theorem stale_market :
    let co := Collaborators.plain (.always (.done (.ok .null))) marketCatalogue
    let s : Server MemoryStore Unit :=
      Operation.runAll co [.addApp "market" .server, .removeApp "market"] (.new ∅ {})
    let t := Operation.runAll co [.addApp "market" .server] s
    let op : Operation Unit := .writeGlobalState 1 (some "1".toUTF8)
    Reachable (fun _ => True) s ∧
      s.chronicle = [.ended 1, .closed 1, .begun 1 "market" none] ∧ t.app? "market" = some 2 ∧
      NumbersKept s t ∧ op.target? = some 1 ∧ t.host? 1 = none ∧
      LogsOnly t ((op.run co).exec t) := by
  intro co s t op
  have hs : Reachable (fun _ => True) s := .runAll trivial _ (.new _ _)
  have hst : Leads (fun _ => True) (fun _ => True) s t := .runAll trivial (fun _ _ => trivial) _
  have ht : Reachable (fun _ => True) t := .runAll trivial _ hs
  have hgone : (t.host? 1).isNone := by decide +kernel
  have hdead := Option.isNone_iff_eq_none.1 hgone
  exact ⟨hs, by decide +kernel, by decide +kernel, (stale_of_reachable hs).1 t hst, rfl, hdead,
    (stale_of_reachable ht).2 co op 1 rfl hdead⟩

end ScriptHost
