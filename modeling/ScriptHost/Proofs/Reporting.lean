import Mathlib
import ScriptHost.Proofs.CallPaths
import ScriptHost.Proofs.Rewording
/-!
# Reports go to one place

The report of a failure is a sequence of lines: for a player the quoted source, then the active
functions, then the headline.  All of it goes the same way, since the way depends only on the actor:
to the actor's outbox if there is one, or to the log of errors.  What others have received and what
stands elsewhere in the log stays as it is, and so does all the rest of the server.

A hook that is refused is a failure that is not reported at all.  Where the server calls a hook of
its own accord, as a handler of an event or on closing a host, a refusal leaves nothing behind, and
what a hook is refused with shows in nothing that any operation does.

## Main definitions

* `Report.Tells`: the lines of a report.
* `Server.received`, `Server.logged`: what has been received and logged, read off the journal.
* `Server.Reported`: lines have been reported to an actor, and nothing else has happened.

## Main statements

* `ServerM.reported_report`: a report goes to one place.
* `ServerM.exec_notify_of_rejects`, `ServerM.exec_closeOne_of_rejects`: refused hooks of the server.
* `ServerM.reported_in_one_place`: reports go to one place, and refused hooks are not reported.
-/

namespace ScriptHost

variable {σ β : Type}

/-! ## The lines of a report -/

namespace Report

/-- The lines of a report of a failure to an actor. -/
inductive Tells (actor : Actor) (intro : String) : ScriptError → List Message → Prop
  /-- A player is shown where script code failed, and which functions were active. -/
  | toPlayer (cause : EvalError) (h : actor.isPlayer = true) :
      Tells actor intro (.evaluation cause)
        (position cause.message cause.source cause.token ++ cause.stack.map frameLine ++
          [.error (headline intro cause.message)])
  /-- Others are shown which functions were active. -/
  | toOther (cause : EvalError) (h : actor.isPlayer = false) :
      Tells actor intro (.evaluation cause)
        (cause.stack.map frameLine ++ [.error (headline intro cause.message)])
  /-- Failures that are not of script code have no place and no active functions. -/
  | plain (error : ScriptError) (h : error.evaluation? = none) :
      Tells actor intro error [.error (headline intro error.message)]

/-- A report tells what it should. -/
theorem tells_failure (actor : Actor) (intro : String) (error : ScriptError) :
    Tells actor intro error (failure actor intro error) := by
  cases herror : error.evaluation? with
  | none =>
    unfold failure
    rw [herror]
    exact .plain error herror
  | some cause =>
    obtain rfl : error = .evaluation cause := by
      cases error with
      | evaluation e => rw [Option.some.inj herror]
      | _ => cases herror
    cases hplayer : actor.isPlayer with
    | true =>
      have htells : Tells actor intro (.evaluation cause) _ := .toPlayer cause hplayer
      unfold failure
      rw [hplayer]
      exact htells
    | false =>
      unfold failure
      rw [hplayer]
      exact .toOther cause hplayer

end Report

/-! ## What has been received and logged -/

namespace Activity

/-- The message that an activity sends to an outbox. -/
def messageTo? (outbox : Outbox) : Activity β → Option Message
  | sent o message => if o = outbox then some message else none
  | _ => none

/-- The line that an activity adds to a level of the log. -/
def lineAt? (level : LogLevel) : Activity β → Option String
  | logged l text => if l = level then some text else none
  | _ => none

/-- Whether an activity neither sends a message nor adds to the log. -/
def isMute : Activity β → Bool
  | sent _ _ | logged _ _ => false
  | _ => true

end Activity

namespace Server

/-- The messages that have been sent to an outbox, in the order in which they were sent. -/
def received (s : Server σ β) (outbox : Outbox) : List Message :=
  (s.journal.filterMap (·.messageTo? outbox)).reverse

/-- The lines of a level of the log, in their order. -/
def logged (s : Server σ β) (level : LogLevel) : List String :=
  (s.journal.filterMap (·.lineAt? level)).reverse

/-- The rest of what the server has done. -/
def muted (s : Server σ β) : List (Activity β) := s.journal.filter (·.isMute)

variable {s t u : Server σ β} {co : Collaborators β} {actor : Actor} {lines more : List Message}

theorem received_record (s : Server σ β) (a : Activity β) (outbox : Outbox) :
    (s.record a).received outbox = s.received outbox ++ (a.messageTo? outbox).toList := by
  unfold received record
  dsimp only
  rw [List.filterMap_cons]
  cases a.messageTo? outbox with
  | none => exact (List.append_nil _).symm
  | some message => exact List.reverse_cons

theorem logged_record (s : Server σ β) (a : Activity β) (level : LogLevel) :
    (s.record a).logged level = s.logged level ++ (a.lineAt? level).toList := by
  unfold logged record
  dsimp only
  rw [List.filterMap_cons]
  cases a.lineAt? level with
  | none => exact (List.append_nil _).symm
  | some text => exact List.reverse_cons

/-- Lines have been reported to an actor: an actor with an outbox has received all of them if the
outbox is open and none if it is not, for an actor without one they stand in the log of errors, and
nothing else has happened. -/
structure Reported (co : Collaborators β) (actor : Actor) (lines : List Message)
    (s t : Server σ β) : Prop where
  received : ∀ outbox, t.received outbox = s.received outbox ++
    if actor.outbox? = some outbox ∧ co.isOpen outbox = true then lines else []
  logged : ∀ level, t.logged level = s.logged level ++
    if actor.outbox? = none ∧ level = .error then lines.map Message.text else []
  muted : t.muted = s.muted
  rest : t = { s with journal := t.journal }

namespace Reported

theorem refl (s : Server σ β) : Reported co actor [] s s where
  received outbox := by simp
  logged level := by simp
  muted := rfl
  rest := rfl

theorem trans (h : Reported co actor lines s t) (h' : Reported co actor more t u) :
    Reported co actor (lines ++ more) s u where
  received outbox := by
    rw [h'.received, h.received, List.append_assoc]
    split <;> rfl
  logged level := by
    rw [h'.logged, h.logged, List.append_assoc, List.map_append]
    split <;> rfl
  muted := h'.muted.trans h.muted
  rest := by rw [h'.rest, h.rest]

end Reported

end Server

namespace ServerM

open Server Report

variable {co : Collaborators β} {s : Server σ β}

/-- A message is reported. -/
theorem reported_deliver (co : Collaborators β) (actor : Actor) (message : Message)
    (s : Server σ β) : Reported co actor [message] s ((deliver co actor message).exec s) := by
  unfold deliver Report.deliver
  cases hactor : actor.outbox? with
  | none =>
    show Reported co actor [message] s (s.record (.logged .error message.text))
    refine ⟨fun outbox => ?_, fun level => ?_, rfl, rfl⟩
    · rw [received_record, if_neg (by simp [hactor])]
      rfl
    · rw [logged_record]
      cases level <;> simp [Activity.lineAt?, hactor]
  | some address =>
    have hlog : ∀ level, ¬ (actor.outbox? = none ∧ level = LogLevel.error) := by simp [hactor]
    cases hopen : co.isOpen address with
    | false =>
      -- the outbox is closed, so that nothing is written down
      dsimp only
      rw [hopen]
      show Reported co actor [message] s s
      refine ⟨fun outbox => ?_, fun level => ?_, rfl, rfl⟩
      · have hclosed : ¬ (actor.outbox? = some outbox ∧ co.isOpen outbox = true) := by
          rintro ⟨hsame, hreach⟩
          obtain rfl : address = outbox := Option.some.inj (hactor.symm.trans hsame)
          rw [hopen] at hreach
          cases hreach
        rw [if_neg hclosed, List.append_nil]
      · rw [if_neg (hlog level), List.append_nil]
    | true =>
      dsimp only
      rw [hopen]
      show Reported co actor [message] s (s.record (.sent address message))
      refine ⟨fun outbox => ?_, fun level => ?_, rfl, rfl⟩
      · -- the actor's own outbox gets the message, and another one nothing
        rw [received_record, Activity.messageTo?]
        by_cases hsame : address = outbox
        · subst hsame
          rw [if_pos rfl, if_pos ⟨hactor, hopen⟩]
          rfl
        · have hother : ¬ (actor.outbox? = some outbox ∧ co.isOpen outbox = true) :=
            fun h => hsame (Option.some.inj (hactor.symm.trans h.1))
          rw [if_neg hsame, if_neg hother]
          rfl
      · rw [logged_record, if_neg (hlog level)]
        rfl

/-- Messages that are delivered one after the other are reported. -/
theorem reported_forM (co : Collaborators β) (actor : Actor) (lines : List Message)
    (s : Server σ β) : Reported co actor lines s ((lines.forM (deliver co actor)).exec s) := by
  induction lines generalizing s with
  | nil => exact .refl s
  | cons message lines ih =>
    rw [exec_forM_cons]
    exact (reported_deliver co actor message s).trans (ih _)

/-- The report of a failure goes to one place. -/
theorem reported_report (co : Collaborators β) (actor : Actor) (intro : String)
    (error : ScriptError) (s : Server σ β) :
    Reported co actor (failure actor intro error) s ((report co actor intro error).exec s) :=
  reported_forM co actor (failure actor intro error) s

/-! ## Refused hooks -/

variable [StateStore σ] {f : StoredFunction β} {values : List Value} {reason : String}

/-- A refused hook leaves nothing behind, whether or not execution is halted. -/
theorem exec_callHook_of_rejects (frame : Frame)
    (hrejects : co.evaluator.accepts f values = .error reason) (s : Server σ β) :
    (callHook co frame f values).exec s = s := by
  cases hstopped : s.isStopped with
  | true =>
    unfold callHook callHookWith
    rw [exec_bind, eval_get, exec_get, if_pos hstopped]
    rfl
  | false => exact (callHook_of_rejects frame hstopped hrejects).2

/-- A handler of an event that is refused leaves nothing behind. -/
theorem exec_notify_of_rejects {binding : EventBinding}
    (hf : (s.host? binding.host).bind (·.function? binding.function) = some f)
    (hrejects : co.evaluator.accepts f values = .error reason) :
    (notify co values binding).exec s = s := by
  unfold notify
  rw [exec_bind, eval_host?, exec_host?, hf]
  dsimp only
  rw [exec_bind, eval_get, exec_get, exec_bind, exec_callHook_of_rejects _ hrejects]
  rfl

theorem exec_notifyAll_cons (co : Collaborators β) (values : List Value) (binding : EventBinding)
    (rest : List EventBinding) (s : Server σ β) :
    (notifyAll co values (binding :: rest)).exec s =
      (notifyAll co values rest).exec ((notify co values binding).exec s) := by
  rfl

/-- The handlers of an event are called part by part. -/
theorem exec_notifyAll_append (co : Collaborators β) (values : List Value)
    (before after : List EventBinding) (s : Server σ β) :
    (notifyAll co values (before ++ after)).exec s =
      (notifyAll co values after).exec ((notifyAll co values before).exec s) := by
  induction before generalizing s with
  | nil => rfl
  | cons binding before ih =>
    rw [List.cons_append, exec_notifyAll_cons, exec_notifyAll_cons, ih]

/-- An event is fired past a handler that is refused when its turn has come. -/
theorem exec_notifyAll_of_rejects {binding : EventBinding} {before after : List EventBinding}
    (hf : (((notifyAll co values before).exec s).host? binding.host).bind
      (·.function? binding.function) = some f)
    (hrejects : co.evaluator.accepts f values = .error reason) :
    (notifyAll co values (before ++ binding :: after)).exec s =
      (notifyAll co values (before ++ after)).exec s := by
  rw [exec_notifyAll_append, exec_notifyAll_cons, exec_notify_of_rejects hf hrejects,
    exec_notifyAll_append]

/-- A host whose close hook is refused is only swept up after. -/
theorem exec_closeOne_of_rejects {id : HostId}
    (hf : (s.host? id).bind (·.function? HookKind.closeName) = some f)
    (hrejects : co.evaluator.accepts f [] = .error reason) :
    (closeOne co id).exec s = (sweep id).exec s := by
  unfold closeOne
  rw [exec_bind, eval_host?, exec_host?, hf]
  dsimp only
  rw [exec_bind, eval_get, exec_get, exec_bind, exec_callHook_of_rejects _ hrejects]

/-! ## Reports go to one place -/

/-- A report tells what it should, and all of it goes to one place.  A refused hook is not
reported: an event is fired past a handler that is refused, a host whose close hook is refused is
only swept up after, and what hooks are refused with shows in nothing that an operation does. -/
theorem reported_in_one_place (co : Collaborators β) :
    (∀ (s : Server σ β) (actor : Actor) (intro : String) (error : ScriptError),
      ∃ lines, Tells actor intro error lines ∧
        Reported co actor lines s ((report co actor intro error).exec s)) ∧
    (∀ (s : Server σ β) (values : List Value) (before after : List EventBinding)
        (binding : EventBinding) (f : StoredFunction β) (reason : String),
      (((notifyAll co values before).exec s).host? binding.host).bind
        (·.function? binding.function) = some f →
      co.evaluator.accepts f values = .error reason →
      (notifyAll co values (before ++ binding :: after)).exec s =
        (notifyAll co values (before ++ after)).exec s) ∧
    (∀ (s : Server σ β) (id : HostId) (f : StoredFunction β) (reason : String),
      (s.host? id).bind (·.function? HookKind.closeName) = some f →
      co.evaluator.accepts f [] = .error reason →
      (closeOne co id).exec s = (sweep id).exec s) ∧
    ∀ (reword : Rewording β) (op : Operation β),
      (op.run (co.reworded reword) : ServerM σ β Unit) = op.run co := by
  refine ⟨fun s actor intro error => ?_, ?_, ?_, ?_⟩
  · exact ⟨_, tells_failure actor intro error, reported_report co actor intro error s⟩
  · exact fun s values before after binding f reason => exec_notifyAll_of_rejects
  · exact fun s id f reason => exec_closeOne_of_rejects
  · exact fun reword op => op.run_reworded co reword

/-- A failure in the second line of the market, in a function that another one has called. -/
def marketFailure : EvalError :=
  { kind := .runtime
    message := "bad price"
    source := some { module := some "market", code := "a = 1;\nb = é + c" }
    token := some { kind := .variable, surface := "c", pos := 15, line := 1, linePos := 8 }
    stack := [⟨"price", none⟩,
      ⟨"sell", some { kind := .function, surface := "price", line := 6 }⟩] }

/-- Ann is shown a failure and nobody else is, while hooks of the market that do not accept being
called without arguments are passed over. -/
theorem reported_in_one_place_market :
    let co : Collaborators Unit :=
      { Collaborators.plain (.always (.done (.ok .null))) marketCatalogue with
        isOpen := fun outbox => outbox == 7 || outbox == 8 }
    let hook (name : String) : StoredFunction Unit :=
      { name, module := some "market", parameters := ["x"], body := () }
    let s : Server MemoryStore Unit := Operation.runAll co
      [.createApplication (some { name := "market", code := some "" }) false .server,
        .define 1 (hook "__on_tick"), .define 1 (hook "__on_close")] (.new ∅ {})
    let t := (report co (.player "ann" 7) "Oops" (.evaluation marketFailure)).exec s
    (t.received 7 = [.error "bad price in market at line 2, pos 9", .detail "a = 1;",
        ⟨[(.detail, "b = é + "), (.error, " HERE>> "), (.detail, "c")]⟩, .trace "  ... in price",
        .trace "  ... in sell (line 7)", .error "Oops: bad price"] ∧
      t.received 8 = [] ∧ t.logged .error = []) ∧
    (notifyAll co [] [⟨1, "__on_tick"⟩]).exec s = s ∧
      (closeOne co 1).exec s = (sweep 1).exec s := by
  intro co hook s t
  obtain ⟨hreports, hevents, hcloses, -⟩ := reported_in_one_place (σ := MemoryStore) co
  have hrefused : ∀ name ∈ ["__on_tick", "__on_close"], ∃ f reason,
      (s.host? 1).bind (·.function? name) = some f ∧
        co.evaluator.accepts f [] = .error reason := by
    have hdefined : ∀ name ∈ ["__on_tick", "__on_close"],
        ((s.host? 1).bind (·.function? name)).any fun f => f.arity = 1 := by decide +kernel
    intro name hname
    obtain ⟨f, hf, harity⟩ := Option.any_eq_true _ _ |>.1 (hdefined name hname)
    have hone : ([] : List Value).length ≠ f.arity := by
      rw [of_decide_eq_true harity]
      decide
    exact ⟨f, _, hf, if_neg hone⟩
  refine ⟨?_, ?_, ?_⟩
  · obtain ⟨lines, htells, hreported⟩ :=
      hreports s (.player "ann" 7) "Oops" (.evaluation marketFailure)
    have hquiet : s.received 7 = [] ∧ s.received 8 = [] ∧ s.logged .error = [] := by
      decide +kernel
    cases htells with
    | toPlayer cause h =>
      refine ⟨(hreported.received 7).trans ?_, (hreported.received 8).trans ?_,
        (hreported.logged .error).trans ?_⟩
      · rw [hquiet.1]
        decide +kernel
      · rw [hquiet.2.1]
        rfl
      · rw [hquiet.2.2]
        rfl
    | toOther cause h => cases h
    | plain error h => cases h
  · obtain ⟨f, reason, hf, hrejects⟩ := hrefused "__on_tick" (by simp)
    exact hevents s [] [] [] ⟨1, "__on_tick"⟩ f reason hf hrejects
  · obtain ⟨f, reason, hf, hrejects⟩ := hrefused "__on_close" (by simp)
    exact hcloses s 1 f reason hf hrejects

end ServerM

end ScriptHost
