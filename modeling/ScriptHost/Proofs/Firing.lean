import Mathlib
import ScriptHost.Proofs.Bindings
import ScriptHost.Proofs.Closing
/-!
# Firing an event

Firing an event goes through the bindings that the event has when it is fired.  Each of them has one
turn, in which the function that is bound is called, as it is defined then, if its host is there and
the function accepts the arguments.

Handlers run code, and code may change what is bound and what is defined while the event is fired.
But it does so under its own host only, and a host has at most one binding to an event, since the
name of a hook is made from the name of the event.  So no handler has a say in whether others are
called: which calls are made is settled when the event is fired.

## Main definitions

* `Server.due?`: the call that is made at the turn of a binding.
* `Server.HandlerTurn`, `Server.Firing`: the turns of bindings, one after the other.
* `Server.Fires`: what firing an event comes to.

## Main statements

* `Server.Justified.nodup_hosts`: a host has at most one binding to an event.
* `ServerM.firing_notifyAll`: firing is made of turns.
* `Server.Firing.calls_eq`: the calls are those that are due at the beginning.
* `fires_of_reachable`: firing an event on a reachable server that is not paused.
-/

namespace ScriptHost

variable {σ β : Type}

open Server ServerM

/-! ## Names of hooks -/

namespace HookKind

/-- The only name of a hook for an event is the one that is made from the name of the event. -/
theorem eq_eventHookName_of_ofName_eq {name : String} {e : Event} (h : ofName name = .event e) :
    name = eventHookName e := by
  unfold ofName at h
  split at h
  · cases h
  · split at h
    · cases h
    · split at h
      · rename_i e' hfind
        cases h
        have hname : eventHookName e = name := by simpa using List.find?_some hfind
        exact hname.symm
      · split at h <;> cases h

theorem ne_configName_of_ofName_eq {name : String} {e : Event} (h : ofName name = .event e) :
    name ≠ configName := by
  rintro rfl
  simp [ofName] at h

end HookKind

namespace Server.Justified

variable {s : Server σ β}

theorem function_eq (hs : s.Justified) {e : Event} {b : EventBinding}
    (hb : b ∈ s.dispatch.bindings e) : b.function = HookKind.eventHookName e :=
  HookKind.eq_eventHookName_of_ofName_eq (hs.hook _ (EventDispatch.mem_bindings.1 hb)).2

/-- A host has at most one binding to an event. -/
theorem nodup_hosts (hs : s.Justified) (e : Event) :
    ((s.dispatch.bindings e).map (·.host)).Nodup := by
  apply List.Nodup.map_on _ (hs.nodup_bindings e)
  rintro ⟨host, function⟩ hb ⟨host', function'⟩ hb' heq
  have hfunction := (hs.function_eq hb).trans (hs.function_eq hb').symm
  exact congrArg₂ EventBinding.mk heq hfunction

end Server.Justified

/-! ## Calls of handlers -/

/-- The call that the evaluator has been asked for, with the frame and the arguments, unless it is a
call of a configuration function. -/
def Activity.handlerCall? : Activity β → Option (Frame × StoredFunction β × List Binding)
  | asked frame (.call f arguments) =>
    if f.name = HookKind.configName then none else some (frame, f, arguments)
  | _ => none

/-- The call of a handler is the only one that its turn tells of. -/
theorem Server.Asks.filterMap_handlerCall? {frame : Frame} {f : StoredFunction β}
    {values : List Value} {s t : Server σ β} (h : Asks frame f values s t)
    (hf : f.name ≠ HookKind.configName) :
    ∃ new, t.journal = new ++ s.journal ∧
      new.filterMap Activity.handlerCall? = [(frame, f, values.map .value)] := by
  obtain ⟨new, hnew, hdeeds⟩ := h
  refine ⟨new ++ [.asked frame (.call f (values.map .value))], by simp [hnew], ?_⟩
  have hnone : new.filterMap Activity.handlerCall? = [] := by
    rw [List.filterMap_eq_nil_iff]
    intro a ha
    cases a with
    | asked frame' request =>
        cases request with
        | call g arguments =>
            have hg : g.name = HookKind.configName := hdeeds _ ha (.call g) rfl
            simp [Activity.handlerCall?, hg]
        | runModule module => rfl
    | _ => rfl
  rw [List.filterMap_append, hnone]
  simp [Activity.handlerCall?, hf]

/-! ## What is due -/

section

variable (co : Collaborators β) (arguments : List Value)

/-- The call that is due at the turn of a binding.  The function is the one that the main module of
the host has under the name that is bound, if the host is there and has it.  It has to accept the
arguments, and it is called for whom hooks of the host run. -/
def Server.due? (s : Server σ β) (b : EventBinding) : Option (Frame × StoredFunction β) :=
  match (s.host? b.host).bind (·.function? b.function) with
  | none => none
  | some f =>
    match co.evaluator.accepts f arguments with
    | .error _ => none
    | .ok () => some ({ host := b.host, actor := s.actorFor co.world b.host }, f)

variable {co arguments} {s t u : Server σ β} {b : EventBinding} {k : HostId}

/-- When a call is due, and which. -/
theorem Server.due?_eq_some_iff {frame : Frame} {f : StoredFunction β} :
    s.due? co arguments b = some (frame, f) ↔
      ∃ h, s.host? b.host = some h ∧ h.function? b.function = some f ∧
        co.evaluator.accepts f arguments = .ok () ∧
        frame = { host := b.host, actor := s.actorFor co.world b.host } := by
  unfold due?
  constructor
  · intro h
    split at h
    · cases h
    · rename_i g hg
      obtain ⟨x, hx, hfun⟩ := Option.bind_eq_some_iff.1 hg
      split at h
      · cases h
      · rename_i haccepts
        cases h
        exact ⟨x, hx, hfun, haccepts, rfl⟩
  · rintro ⟨x, hx, hfun, haccepts, rfl⟩
    simp [hx, hfun, haccepts]

/-- Code under another host has no say in what is due. -/
theorem CodeFrame.due?_eq (h : CodeFrame k s t) (hb : b.host ≠ k) :
    t.due? co arguments b = s.due? co arguments b := by
  have hfunction : (t.host? b.host).bind (·.function? b.function) =
      (s.host? b.host).bind (·.function? b.function) := by
    -- of the root only the global state may have changed
    by_cases hroot : b.host = s.rootOf k
    · have hstateless := congrArg (Option.bind · (·.function? b.function))
        (h.root (hroot ▸ hb))
      simp only [Option.bind_map] at hstateless
      rw [hroot]
      exact hstateless
    · rw [h.others b.host hb hroot]
  have hactor : t.actorFor co.world b.host = s.actorFor co.world b.host := by
    have howner := congrArg (Option.bind · fun x => x.1.map Ownership.user) (h.sink_eq b.host)
    simp only [Option.bind_map] at howner
    unfold Server.actorFor
    exact congrArg (fun user => (Option.bind user co.world.findPlayer).getD _) howner
  unfold due?
  rw [hfunction, hactor]

end

/-! ## Turns -/

section

variable [StateStore σ] {co : Collaborators β} {arguments : List Value} {s t u : Server σ β}
  {b : EventBinding} {bs : List EventBinding} {calls : List (Frame × StoredFunction β)}

/-- The turn of a binding.  If no call is due nothing happens.  Otherwise the evaluator is asked for
the call, and what follows is the code of the function; what becomes of it does not matter. -/
inductive Server.HandlerTurn (co : Collaborators β) (arguments : List Value) (b : EventBinding)
    (s : Server σ β) : Server σ β → Prop where
  | passed (hdue : s.due? co arguments b = none) : HandlerTurn co arguments b s s
  | called {frame : Frame} {f : StoredFunction β} {t : Server σ β}
      (hdue : s.due? co arguments b = some (frame, f)) (hname : f.name = b.function)
      (hasks : Asks frame f arguments s t) (hcode : CodeSteps b.host s t) :
      HandlerTurn co arguments b s t

/-- Bindings have their turns one after the other, and at each turn the call is made that is due
then. -/
inductive Server.Firing (co : Collaborators β) (arguments : List Value) :
    List EventBinding → List (Frame × StoredFunction β) → Server σ β → Server σ β → Prop where
  | nil (s : Server σ β) : Firing co arguments [] [] s s
  | cons {b : EventBinding} {bs : List EventBinding} {calls : List (Frame × StoredFunction β)}
      {s t u : Server σ β} (hturn : HandlerTurn co arguments b s t)
      (hrest : Firing co arguments bs calls t u) :
      Firing co arguments (b :: bs) ((s.due? co arguments b).toList ++ calls) s u

namespace Server

theorem HandlerTurn.codeSteps (h : HandlerTurn co arguments b s t) : CodeSteps b.host s t := by
  cases h with
  | passed hdue => exact .refl
  | called hdue hname hasks hcode => exact hcode

/-- A turn tells of the call that is due, and of no other call of a handler. -/
theorem HandlerTurn.journal (h : HandlerTurn co arguments b s t)
    (hb : b.function ≠ HookKind.configName) :
    ∃ new, t.journal = new ++ s.journal ∧ new.filterMap Activity.handlerCall? =
      (s.due? co arguments b).toList.map fun call => (call.1, call.2, arguments.map .value) := by
  cases h with
  | passed hdue => exact ⟨[], rfl, by rw [hdue]; rfl⟩
  | called hdue hname hasks hcode =>
      rw [hdue]
      exact hasks.filterMap_handlerCall? (hname ▸ hb)

/-- The calls that are made are those that are due at the beginning, if all hosts are different. -/
theorem Firing.calls_eq (h : Firing co arguments bs calls s t) (hbs : (bs.map (·.host)).Nodup) :
    calls = bs.filterMap (s.due? co arguments) := by
  induction h with
  | nil s => rfl
  | @cons b bs calls s t u hturn hrest ih =>
      rw [List.map_cons, List.nodup_cons] at hbs
      -- the first turn has changed nothing about the hosts that are still to come
      have hsame : bs.filterMap (t.due? co arguments) = bs.filterMap (s.due? co arguments) := by
        apply List.filterMap_congr
        intro b' hb'
        apply hturn.codeSteps.frame.due?_eq
        intro hhost
        exact hbs.1 (hhost ▸ List.mem_map_of_mem hb')
      rw [ih hbs.2, hsame, List.filterMap_cons]
      cases s.due? co arguments b <;> rfl

/-- The journal tells of the calls that are made, and of no others of handlers. -/
theorem Firing.journal (h : Firing co arguments bs calls s t)
    (hbs : ∀ b ∈ bs, b.function ≠ HookKind.configName) :
    ∃ new, t.journal = new ++ s.journal ∧ new.filterMap Activity.handlerCall? =
      (calls.map fun call => (call.1, call.2, arguments.map .value)).reverse := by
  induction h with
  | nil s => exact ⟨[], rfl, rfl⟩
  | @cons b bs calls s t u hturn hrest ih =>
      -- the journal has the latest first, so later turns stand before earlier ones
      obtain ⟨new, hnew, hcall⟩ := hturn.journal (hbs b List.mem_cons_self)
      obtain ⟨new', hnew', hcalls⟩ := ih fun b' hb' => hbs b' (List.mem_cons_of_mem b hb')
      refine ⟨new' ++ new, by rw [hnew', hnew, List.append_assoc], ?_⟩
      rw [List.filterMap_append, hcall, hcalls, List.map_append, List.reverse_append]
      cases s.due? co arguments b <;> rfl

/-- Turns after turns are turns. -/
theorem Firing.append {cs : List EventBinding} {more : List (Frame × StoredFunction β)}
    (h : Firing co arguments bs calls s t)
    (g : Firing co arguments cs more t u) :
    Firing co arguments (bs ++ cs) (calls ++ more) s u := by
  induction h with
  | nil s => exact g
  | cons hturn hrest ih =>
    rw [List.append_assoc]
    exact .cons hturn (ih g)

/-- If no call is due at any turn, nothing happens. -/
theorem Firing.eq_of_nil (h : Firing co arguments bs calls s t) (hcalls : calls = []) : t = s := by
  induction h with
  | nil s => rfl
  | cons hturn hrest ih =>
    obtain ⟨hdue, hmore⟩ := List.append_eq_nil_iff.1 hcalls
    rw [ih hmore]
    cases hturn with
    | passed _ => rfl
    | called hcall hname hasks hcode =>
      rw [hcall] at hdue
      cases hdue

end Server

/-! ## Firing is made of turns -/

namespace ServerM

/-- The answer tells whether a call was due. -/
theorem turn_notify (hrunning : s.isStopped = false) (hs : s.Keyed) (hn : s.Named)
    (b : EventBinding) :
    HandlerTurn co arguments b s ((notify co arguments b).exec s) ∧
      (notify co arguments b).eval s = (s.due? co arguments b).isSome := by
  have hcode : CodeSteps b.host s ((notify co arguments b).exec s) :=
    relates_notify (codeRelation_codeSteps b.host) arguments rfl hs
  -- what is known of the whole turn is kept while the turn is gone through
  revert hcode
  unfold notify
  rw [eval_bind, exec_bind, eval_host?, exec_host?]
  cases hf : (s.host? b.host).bind (·.function? b.function) with
  | none =>
      have hdue : s.due? co arguments b = none := by simp [due?, hf]
      intro _
      exact ⟨.passed hdue, by rw [hdue]; rfl⟩
  | some f =>
      obtain ⟨h, hh, hfun⟩ := Option.bind_eq_some_iff.1 hf
      dsimp only
      rw [eval_bind, exec_bind, eval_get, exec_get, eval_bind, exec_bind]
      intro hcode
      cases haccepts : co.evaluator.accepts f arguments with
      | error reason =>
          have hdue : s.due? co arguments b = none := by simp [due?, hf, haccepts]
          obtain ⟨heval, hexec⟩ := callHook_of_rejects
            { host := b.host, actor := s.actorFor co.world b.host } hrunning haccepts
          rw [heval, hexec, hdue]
          exact ⟨.passed hdue, rfl⟩
      | ok u =>
          have hdue : s.due? co arguments b =
              some ({ host := b.host, actor := s.actorFor co.world b.host }, f) := by
            simp [due?, hf, haccepts]
          have hlive : s.host?
              (Frame.host { host := b.host, actor := s.actorFor co.world b.host }) = some h := hh
          obtain ⟨⟨v, hv⟩, hasks⟩ := asks_callHook hlive hrunning haccepts
          rw [hv, hdue]
          exact ⟨.called hdue ((hn hh).function?_eq hfun) hasks hcode, rfl⟩

/-- Bindings have their turns one after the other, and the calls are counted. -/
theorem firing_notifyAll (hrunning : s.isStopped = false) (hs : s.Keyed) (hn : s.Named)
    (bs : List EventBinding) :
    ∃ calls, Firing co arguments bs calls s ((notifyAll co arguments bs).exec s) ∧
      (notifyAll co arguments bs).eval s = calls.length := by
  induction bs generalizing s with
  | nil => exact ⟨[], .nil s, rfl⟩
  | cons b bs ih =>
      obtain ⟨hturn, hanswer⟩ : HandlerTurn co arguments b s _ ∧ _ := turn_notify hrunning hs hn b
      have hcode := hturn.codeSteps
      obtain ⟨calls, hfiring, hcount⟩ := ih (hcode.frame.isStopped.trans hrunning)
        (hcode.frame.keyed hs) (hcode.named hn)
      refine ⟨_, .cons hturn hfiring, ?_⟩
      unfold notifyAll
      rw [eval_bind, eval_bind, eval_pure, hcount, hanswer, List.length_append]
      cases s.due? co arguments b <;> simp

end ServerM

/-! ## Firing an event -/

/-- What firing an event with some arguments comes to.  Each binding that the event has at the
beginning has one turn, in order, and the number that is returned is that of the calls which are
made.  A call is made at each turn at which one is due, and it does not matter for that what the
handlers before have done and whether they have failed: the calls are those that are due at the
beginning, of functions that the main modules of live hosts have and that accept the arguments.  No
other calls are made, except of configuration functions that handlers define. -/
structure Server.Fires (co : Collaborators β) (e : Event) (arguments : List Value)
    (s t : Server σ β) (count : Nat) (calls : List (Frame × StoredFunction β)) : Prop where
  nodup : (s.dispatch.bindings e).Nodup
  firing : Firing co arguments (s.dispatch.bindings e) calls s t
  count_eq : count = calls.length
  calls_eq : calls = (s.dispatch.bindings e).filterMap (s.due? co arguments)
  mem_calls : ∀ frame f, (frame, f) ∈ calls ↔ ∃ b ∈ s.dispatch.bindings e, ∃ h,
    s.host? b.host = some h ∧ h.function? b.function = some f ∧
    co.evaluator.accepts f arguments = .ok () ∧
    frame = { host := b.host, actor := s.actorFor co.world b.host }
  journal : ∃ new, t.journal = new ++ s.journal ∧ new.filterMap Activity.handlerCall? =
    (calls.map fun call => (call.1, call.2, arguments.map .value)).reverse

/-- Firing an event on a reachable server that is not paused: the handlers that are bound are called
in turn, each if its host is there, has the function and the function accepts the arguments, and
nothing that handlers do keeps others from being called. -/
theorem fires_of_reachable {allowed : Catalogue → Prop} (hs : Reachable allowed s)
    (hrunning : s.isStopped = false) (co : Collaborators β) (e : Event) (arguments : List Value) :
    ∃ calls, Fires co e arguments s ((fireEvent co e arguments).exec s)
      ((fireEvent co e arguments).eval s) calls := by
  have hfollows : ∀ c, allowed c → c.Follows fun _ _ => True := fun _ _ _ _ _ => trivial
  obtain ⟨ha, hj, hn⟩ := hs.induction (P := fun s => s.Justified ∧ s.Named) hfollows
    (fun store settings => ⟨justified_new store settings, named_new store settings⟩)
    fun _ _ ha hp h => ⟨h.justified ha hp.1, h.named ha hp.2⟩
  obtain ⟨calls, hfiring, hcount⟩ : ∃ calls, Firing co arguments _ calls s _ ∧ _ :=
    firing_notifyAll hrunning ha.keyed hn (s.dispatch.bindings e)
  have hconfig : ∀ b ∈ s.dispatch.bindings e, b.function ≠ HookKind.configName := fun b hb =>
    HookKind.ne_configName_of_ofName_eq (hj.hook _ (EventDispatch.mem_bindings.1 hb)).2
  have hgo : ¬ s.isStopped = true := by simp [hrunning]
  have hcalls : calls = (s.dispatch.bindings e).filterMap (s.due? co arguments) :=
    hfiring.calls_eq (hj.nodup_hosts e)
  refine ⟨calls, ?_⟩
  unfold fireEvent
  rw [exec_bind, eval_bind, eval_get, exec_get, if_neg hgo]
  exact
    { nodup := hj.nodup_bindings e
      firing := hfiring
      count_eq := hcount
      calls_eq := hcalls
      mem_calls := by simp only [hcalls, List.mem_filterMap, due?_eq_some_iff, implies_true]
      journal := hfiring.journal hconfig }

/-- An evaluator for which the body of a function tells what the function does.  If it is true, the
function takes itself back and is defined again, as one that fails; otherwise the function fails. -/
def restlessEvaluator : Evaluator Bool where
  runModule _ _ := .done (.ok .null)
  callFunction _ f _ :=
    if f.body then
      .ask (.delete none f.name) fun _ =>
        .ask (.define { f with body := false }) fun _ => .done (.ok .null)
    else .done (.error (.runtime "out of order"))
  accepts f arguments := f.acceptsArity arguments
  produce _ _ := .null

/-- Three hosts listen to ticks.  The first handler takes itself back and is bound again, after the
others; the second one wants an argument and is not called; the third one is called and fails. -/
theorem fires_tick :
    let co := Collaborators.plain restlessEvaluator
      { find := fun _ _ => { found := none }, appNames := [] }
    let hook : StoredFunction Bool :=
      { name := "__on_tick", module := none, parameters := [], body := false }
    let s : Server MemoryStore Bool := Operation.runAll co
      [.createApplication none false .server, .createApplication none false .server,
        .createApplication none false .server, .define 1 { hook with body := true },
        .define 2 { hook with parameters := ["x"] }, .define 3 hook] (.new ∅ {})
    let t := (fireEvent co .tick []).exec s
    s.dispatch.bindings .tick = [⟨1, "__on_tick"⟩, ⟨2, "__on_tick"⟩, ⟨3, "__on_tick"⟩] ∧
      t.dispatch.bindings .tick = [⟨2, "__on_tick"⟩, ⟨3, "__on_tick"⟩, ⟨1, "__on_tick"⟩] ∧
      ∃ calls, calls.map (·.1.host) = [1, 3] ∧ Fires co .tick [] s t 2 calls := by
  intro co hook s t
  have hs : Reachable (fun _ => True) s := .runAll trivial _ (.new _ _)
  have hrunning : s.isStopped = false := by decide +kernel
  obtain ⟨calls, hfires⟩ := fires_of_reachable hs hrunning co .tick []
  have hcount : (fireEvent co .tick []).eval s = 2 := by decide +kernel
  rw [hcount] at hfires
  refine ⟨by decide +kernel, by decide +kernel, calls, ?_, hfires⟩
  rw [hfires.calls_eq]
  decide +kernel

end

end ScriptHost
