import Mathlib
import ScriptHost.Proofs.Messages
import ScriptHost.Proofs.Operations
/-!
# Whom user hosts serve

A user host should serve the user whose host it is, or nobody.  Here are the changes that keep it
so, and what follows for the messages that are sent while code runs: code comes to run under a host
in turns, and all that is said in a turn is said to whom its host serves.

## Main definitions

* `Server.OwnSinks`: every user host serves its user or nobody.
* `Server.KeepsSinks`: hosts are served as before, and there are no new ones.
* `Turn`, `Turn.run`: the ways in which code comes to run under a host.
* `Server.Confides`: what is said in a turn is said to whom the host serves.

## Main statements

* `Server.OwnSinks.beginUser`, `Server.OwnSinks.serve`: the changes by which a user host comes to
  serve somebody.
* `Turn.confides`: every turn on a server whose user hosts serve their users.
-/

namespace ScriptHost

variable {σ β α γ : Type} {suits : String → Module → Prop}

/-! ## Whom user hosts serve -/

namespace Server

/-- Every user host serves the user whose host it is, or nobody. -/
def OwnSinks (s : Server σ β) : Prop :=
  ∀ ⦃id : HostId⦄ ⦃h : Host β⦄ ⦃owner : Ownership⦄ ⦃actor : Actor⦄, s.host? id = some h →
    h.owner = some owner → h.sink = some actor → actor.user? = some owner.user

/-- Every host was there before, belonged to the same user and served the same actor. -/
def KeepsSinks (s t : Server σ β) : Prop :=
  ∀ ⦃k : HostId⦄ ⦃x : Host β⦄, t.host? k = some x →
    ∃ y, s.host? k = some y ∧ y.owner = x.owner ∧ y.sink = x.sink

namespace KeepsSinks

variable {s t u : Server σ β}

theorem of_host?_eq (h : ∀ k, t.host? k = s.host? k) : KeepsSinks s t :=
  fun k x hx => ⟨x, by rw [← h k, hx], rfl, rfl⟩

theorem refl (s : Server σ β) : KeepsSinks s s := of_host?_eq fun _ => rfl

theorem trans (h : KeepsSinks s t) (g : KeepsSinks t u) : KeepsSinks s u := by
  intro k x hx
  obtain ⟨y, hy, howner, hsink⟩ := g hx
  obtain ⟨z, hz, howner', hsink'⟩ := h hy
  exact ⟨z, hz, howner'.trans howner, hsink'.trans hsink⟩

/-- Code leaves alone whom hosts serve. -/
theorem of_frame {id : HostId} (h : CodeFrame id s t) : KeepsSinks s t := by
  intro k x hx
  have hsink := h.sink_eq k
  rw [hx, Option.map_some] at hsink
  obtain ⟨y, hy, heq⟩ := Option.map_eq_some_iff.1 hsink.symm
  obtain ⟨howner, hsink⟩ := Prod.mk.inj heq
  exact ⟨y, hy, howner, hsink⟩

/-- A host that changes in its window only serves whom it served. -/
theorem of_windowsOnly (h : WindowsOnly s t) : KeepsSinks s t := by
  intro k x hx
  have hk := h.host k
  rw [hx, Option.map_some] at hk
  obtain ⟨y, hy, heq⟩ := Option.map_eq_some_iff.1 hk.symm
  have howner : (y.setTimeout 0).owner = (x.setTimeout 0).owner := by rw [heq]
  have hsink : (y.setTimeout 0).sink = (x.setTimeout 0).sink := by rw [heq]
  exact ⟨y, hy, howner, hsink⟩

/-- The hosts that are left when one is discarded serve whom they served. -/
theorem exec_discard (s : Server σ β) (id : HostId) :
    KeepsSinks s ((ServerM.discard id).exec s) := by
  cases hh : s.host? id with
  | none =>
      rw [exec_discard_of_host?_eq_none hh]
      exact .refl s
  | some h =>
      rw [Server.exec_discard hh]
      intro k x hx
      obtain ⟨_, y, hy, hsame, _⟩ := host?_of_host?_discard hx
      have hsink : x.sink = y.sink := by rw [hsame]
      exact ⟨y, hy, hsame.owner_eq.symm, hsink.symm⟩

theorem ownSinks (h : KeepsSinks s t) (hs : s.OwnSinks) : t.OwnSinks := by
  intro id x owner actor hx howner hsink
  obtain ⟨y, hy, howner', hsink'⟩ := h hx
  exact hs hy (howner'.trans howner) (hsink'.trans hsink)

end KeepsSinks

/-- Where hosts are as before, user hosts serve their users as before. -/
theorem OwnSinks.of_host?_eq {s t : Server σ β} (hs : s.OwnSinks)
    (h : ∀ k, t.host? k = s.host? k) : t.OwnSinks :=
  (KeepsSinks.of_host?_eq h).ownSinks hs

end Server

open Server ServerM

variable [StateStore σ] {co : Collaborators β} {id : HostId} {s t u : Server σ β}

omit [StateStore σ] in
/-- In a new server there is no user host. -/
theorem ownSinks_new (store : σ) (settings : Settings) :
    (Server.new store settings : Server σ β).OwnSinks := by
  intro id h owner actor hh howner _
  rw [(eq_of_host?_new hh).2] at howner
  cases howner

omit [StateStore σ] in
/-- A new root is no user host. -/
theorem Server.OwnSinks.beginRoot (hs : s.OwnSinks) (module : Option Module) (perUser : Bool)
    (state : Option Blob) (sink : Option Actor) :
    (s.beginRoot module perUser state sink).OwnSinks := by
  intro k x owner actor hx howner hsink
  rw [host?_beginRoot] at hx
  split at hx
  · obtain rfl := Option.some.inj hx
    cases howner
  · exact hs hx howner hsink

omit [StateStore σ] in
/-- A new user host serves the actor who has asked for it, which has to be the user. -/
theorem Server.OwnSinks.beginUser (hs : s.OwnSinks) (ha : Arena suits s) {root : HostId}
    {h : Host β} {user : String} {actor : Actor} (hh : s.host? root = some h)
    (huser : actor.user? = some user) : (s.beginUser root h user actor).OwnSinks := by
  intro k x owner sink hx howner hsink
  rcases ha.host?_of_host?_beginUser hh hx with ⟨_, rfl⟩ | ⟨y, hy, hsame, _⟩
  · cases howner
    cases hsink
    exact huser
  · rw [hsame.owner_eq] at howner
    have hsame' : x.sink = y.sink := by rw [hsame]
    exact hs hy howner (hsame'.symm.trans hsink)

omit [StateStore σ] in
/-- A host may be bound to an actor if it is no user host or if the actor is its user. -/
theorem Server.OwnSinks.serve (hs : s.OwnSinks) {actor : Actor}
    (hactor : ∀ h owner, s.host? id = some h → h.owner = some owner →
      actor.user? = some owner.user) :
    ((ServerM.serve actor id : ServerM σ β HostId).exec s).OwnSinks := by
  intro k x owner sink hx howner hsink
  have hx' : (s.modifyHost id (·.bindSink actor)).host? k = some x := hx
  rw [host?_modifyHost] at hx'
  split at hx'
  · rename_i hk
    subst hk
    obtain ⟨y, hy, rfl⟩ := Option.map_eq_some_iff.1 hx'
    unfold Host.bindSink at hsink
    dsimp only at hsink
    cases hbound : y.sink with
    | some bound =>
        rw [hbound] at hsink
        cases hsink
        exact hs hy howner hbound
    | none =>
        rw [hbound] at hsink
        cases hsink
        exact hactor y owner hy howner
  · exact hs hx' howner hsink

/-! ## Turns -/

/-- A way in which code comes to run under a host, with the report of its failure. -/
inductive Turn (β : Type) where
  /-- The code of a module is run under its new host, which is discarded if that fails. -/
  | load (module : Module) (actor : Actor)
  | invoke (i : Invocation β)
  | define (f : StoredFunction β)
  /-- A function that is bound to an event is called. -/
  | notify (arguments : List Value) (function : String)
  /-- The close hook is called, and its host is swept up after. -/
  | close
  | report (intro : String) (error : ScriptError)

/-- Has code run under a host. -/
def Turn.run (co : Collaborators β) (id : HostId) : Turn β → ServerM σ β Unit
  | load module actor => do let _ ← start co id module actor
  | invoke i => do let _ ← i.run co id
  | define f => do let _ ← ServerM.define co id f
  | notify arguments function => do
    let _ ← ServerM.notify co arguments { host := id, function }
  | close => closeOne co id
  | report intro error => ServerM.reportFailure co id intro error

/-- Between two servers, every evaluation was for one host, and every message was sent to the actor
whom that host serves, who is the user if it is a user host. -/
def Server.Confides (id : HostId) (s t : Server σ β) : Prop :=
  ∃ new, t.journal = new ++ s.journal ∧
    (∀ frame request, .asked frame request ∈ new → frame.host = id) ∧
    ∀ outbox message, .sent outbox message ∈ new →
      ∃ h actor, s.host? id = some h ∧ h.sink = some actor ∧ actor.outbox? = some outbox ∧
        ∀ owner, h.owner = some owner → actor.user? = some owner.user

omit [StateStore σ] in
/-- What is said to whom a host serves is said to its user. -/
theorem Server.OwnSinks.confides (hs : s.OwnSinks)
    (h : s.Writes (Activity.IsUnder id (s.sinkOf id)) t) : s.Confides id t := by
  obtain ⟨new, hnew, hunder⟩ := h
  refine ⟨new, hnew, fun frame request hmem => hunder _ hmem, fun outbox message hmem => ?_⟩
  obtain ⟨actor, hactor, houtbox⟩ := Option.bind_eq_some_iff.1 (hunder _ hmem)
  obtain ⟨h, hh, hsink⟩ := Option.bind_eq_some_iff.1 hactor
  exact ⟨h, actor, hh, hsink, houtbox, fun owner howner => hs hh howner hsink⟩

/-- All that is run for a request under a host speaks to whom the host serves. -/
theorem Invocation.speaksUnder (i : Invocation β) (co : Collaborators β) (id : HostId) :
    SpeaksUnder id (i.run co id : ServerM σ β Reply) :=
  i.relates (codeRelation_speaks id) co

theorem speaksUnder_notify (arguments : List Value) (function : String) :
    SpeaksUnder id (notify co arguments { host := id, function } : ServerM σ β Bool) := by
  apply relates_notify (codeRelation_speaks id)
  rfl

omit [StateStore σ] in
/-- Nobody is told that hosts are discarded. -/
theorem ServerM.tellsNobody_discard (id : HostId) :
    TellsNobody (ServerM.discard id : ServerM σ β Unit) := by
  apply writesOnly_of_journal_eq
  intro s
  cases hh : s.host? id with
  | none => rw [exec_discard_of_host?_eq_none hh]
  | some h => rw [exec_discard hh, discard_eq]

/-- When the code of a new host fails, whom the host serves is told before the host is
discarded. -/
theorem start_confides (hs : s.Keyed) (module : Module) (actor : Actor) :
    s.Writes (Activity.IsUnder id (s.sinkOf id)) ((start co id module actor).exec s) ∧
      s.KeepsSinks ((start co id module actor).exec s) := by
  have hmodule : SpeaksUnder id
      (runModule co (runner co) { host := id, actor } module : ServerM σ β _) := by
    apply speaksUnder_runModule (speaking_runner co)
    rfl
  have hrun := hmodule hs
  unfold start
  rw [exec_bind]
  cases (runModule co (runner co) { host := id, actor } module).eval s with
  | ok value => exact ⟨hrun.writes, .of_frame hrun.code.frame⟩
  | error cause =>
      -- the failure is reported while the host is still there, so it is known whom the host serves
      have hreport : s.Speaks id _ := hrun.trans (speaksUnder_reportFailure co
        (intro "Error while evaluating expression" (.ofEval cause)) (.ofEval cause)
        (hrun.code.frame.keyed hs))
      have hsilent : TellsNobody (ServerM.discard id : ServerM σ β Unit) := tellsNobody_discard id
      exact ⟨hreport.writes.trans ((hsilent _).mono fun _ ha => ha.isUnder id _),
        (KeepsSinks.of_frame hreport.code.frame).trans (.exec_discard _ id)⟩

/-- The close hook of a host speaks to whom the host serves, and sweeping up is told to nobody. -/
theorem closeOne_confides (ha : Arena suits s) (id : HostId) :
    s.Writes (Activity.IsUnder id (s.sinkOf id)) ((closeOne co id).exec s) ∧
      s.KeepsSinks ((closeOne co id).exec s) := by
  have hsweep : TellsNobody (sweep id : ServerM σ β Unit) := tellsNobody_sweep id
  unfold closeOne
  rw [exec_bind, eval_host?, exec_host?]
  split
  · rename_i hook _
    have hhook : SpeaksUnder id
        (callHook co { host := id, actor := s.actorFor co.world id } hook [] : ServerM σ β _) := by
      apply speaksUnder_callHookWith (speaking_runner co)
      rfl
    have hcall := hhook ha.keyed
    exact ⟨hcall.writes.trans ((hsweep _).mono fun _ h => h.isUnder id _),
      (KeepsSinks.of_frame hcall.code.frame).trans
        (.of_windowsOnly (windowsOnly_sweep (hcall.code.frame.keyed ha.keyed) id))⟩
  · exact ⟨(hsweep s).mono fun _ h => h.isUnder id _,
      .of_windowsOnly (windowsOnly_sweep ha.keyed id)⟩

/-- A turn speaks to whom its host serves, and leaves alone whom hosts serve. -/
theorem Turn.speaks (ha : Arena suits s) (co : Collaborators β) (id : HostId) (turn : Turn β) :
    s.Writes (Activity.IsUnder id (s.sinkOf id)) ((turn.run co id).exec s) ∧
      s.KeepsSinks ((turn.run co id).exec s) := by
  have hspeaks : ∀ {m : ServerM σ β Unit}, SpeaksUnder id m →
      s.Writes (Activity.IsUnder id (s.sinkOf id)) (m.exec s) ∧ s.KeepsSinks (m.exec s) :=
    fun hm => ⟨(hm ha.keyed).writes, .of_frame (hm ha.keyed).code.frame⟩
  cases turn with
  | load module actor => exact start_confides ha.keyed module actor
  | invoke i => exact hspeaks ((i.speaksUnder co id).bind fun _ => speaksUnder_pure _)
  | define f =>
      exact hspeaks ((speaksUnder_defineWith (speaking_runner co) f).bind fun _ =>
        speaksUnder_pure _)
  | notify arguments function =>
      exact hspeaks ((speaksUnder_notify arguments function).bind fun _ => speaksUnder_pure _)
  | close => exact closeOne_confides ha id
  | report intro error => exact hspeaks (speaksUnder_reportFailure co intro error)

/-- In every turn, all that is said is said to whom the host serves, who is its user if it is a user
host. -/
theorem Turn.confides (ha : Arena suits s) (hs : s.OwnSinks) (co : Collaborators β) (id : HostId)
    (turn : Turn β) :
    s.Confides id ((turn.run co id).exec s) ∧ ((turn.run co id).exec s).OwnSinks := by
  obtain ⟨hwrites, hkeeps⟩ := turn.speaks ha co id
  exact ⟨hs.confides hwrites, hkeeps.ownSinks hs⟩

end ScriptHost
