import Mathlib
import ScriptHost.Proofs.Calls
import ScriptHost.Proofs.Operations
/-!
# The ways into a function agree

A call with values, a call with a text that stands for the same values, and a hook that is called
with them ask the evaluator for the same, and differ only in what they make of its answer: a hook
turns a failure into a report and null.  The number of arguments is checked before anything happens.

## Main statements

* `ServerM.callChecked_of_length_eq`, `ServerM.callChecked_of_length_ne`: what the check of the
  number of arguments comes to.
* `ServerM.asks_evaluate`, `ServerM.eval_evaluate_ne_invocation`: the evaluator is asked once, and
  its failures are failures of script code.
* `Server.TextAgrees`, `Server.HookAgrees`: what it means that the ways agree.
* `sameCall_of_reachable`: they do, on every reachable server that is not paused.
-/

namespace ScriptHost

variable {σ β : Type}

namespace ServerM

variable {co : Collaborators β} {run : Runner σ β} {frame : Frame} {head : String}
  {f : StoredFunction β} {values : List Value} {id : HostId} {s : Server σ β}

/-! ## The number of arguments -/

/-- Values are looked at without asking a producer. -/
theorem mapM_force_value (co : Collaborators β) (id : HostId) (values : List Value) :
    ((values.map .value).mapM (force co id) : ServerM σ β (List Value)) = pure values := by
  induction values with
  | nil => rfl
  | cons v values ih => rw [List.map_cons, List.mapM_cons, ih]; rfl

/-- With as many arguments as parameters the function is evaluated. -/
theorem callChecked_of_arity {arguments : List Binding} (h : arguments.length = f.arity) :
    callChecked co run frame head f arguments = evaluate co run frame f arguments := by
  unfold callChecked checkArity
  rw [if_pos h]
  rfl

/-- With another number of arguments they are looked at, and the call is refused. -/
theorem callChecked_of_ne_arity {arguments : List Binding} (h : arguments.length ≠ f.arity) :
    callChecked co run frame head f arguments = (do
      let values ← arguments.mapM (force co frame.host)
      return .error (.invocation (.wrongArity head f.parameters values))) := by
  unfold callChecked checkArity
  rw [if_neg h]
  rfl

/-- With as many values as parameters the function is evaluated. -/
theorem callChecked_of_length_eq (h : values.length = f.arity) :
    callChecked co run frame head f (values.map .value) =
      evaluate co run frame f (values.map .value) :=
  callChecked_of_arity (by rw [List.length_map, h])

/-- With another number of values the call is refused, and nothing happens. -/
theorem callChecked_of_length_ne (h : values.length ≠ f.arity) :
    callChecked co run frame head f (values.map .value) =
      pure (.error (.invocation (.wrongArity head f.parameters values))) := by
  have hlength : (values.map Binding.value).length ≠ f.arity := by rwa [List.length_map]
  rw [callChecked_of_ne_arity hlength, mapM_force_value]
  rfl

/-! ## Evaluation -/

theorem eval_evaluate {h : Host β} (hh : s.host? frame.host = some h) (arguments : List Binding) :
    (evaluate co run frame f arguments).eval s =
      ((run frame (co.evaluator.callFunction frame f arguments)).eval
        (s.record (.asked frame (.call f arguments)))).mapError .ofEval := by
  unfold evaluate
  rw [eval_bind, eval_host?, exec_host?, hh]
  rfl

theorem exec_evaluate {h : Host β} (hh : s.host? frame.host = some h) (arguments : List Binding) :
    (evaluate co run frame f arguments).exec s =
      (run frame (co.evaluator.callFunction frame f arguments)).exec
        (s.record (.asked frame (.call f arguments))) := by
  unfold evaluate
  rw [exec_bind, eval_host?, exec_host?, hh]
  rfl

/-- A failure of script code is no complaint about a call. -/
theorem eval_evaluate_ne_invocation (co : Collaborators β) (run : Runner σ β)
    (f : StoredFunction β) {h : Host β} (hh : s.host? frame.host = some h)
    (arguments : List Binding) (e : InvocationError) :
    (evaluate co run frame f arguments).eval s ≠ .error (.invocation e) := by
  rw [eval_evaluate hh]
  cases (run frame (co.evaluator.callFunction frame f arguments)).eval
      (s.record (.asked frame (.call f arguments))) with
  | ok value => exact fun hv => nomatch hv
  | error cause =>
      intro he
      have he' : ScriptError.ofEval cause = .invocation e := Except.error.inj he
      unfold ScriptError.ofEval at he'
      split at he' <;> cases he'

variable [StateStore σ]

/-- The evaluator is asked for the call, and after that only for what code has called by defining
it. -/
theorem asks_evaluate (co : Collaborators β) (f : StoredFunction β) {h : Host β}
    (hh : s.host? frame.host = some h) (values : List Value) :
    s.Asks frame f values
      ((evaluate co (runner co) frame f (values.map .value)).exec s) := by
  rw [exec_evaluate hh]
  have hrun : RunsOnly Deed.IsConfigCall (runner co : Runner σ β) :=
    runsOnly_runner (fun _ hg => hg) co
  refine Server.Asks.trans_does ⟨[], rfl, fun _ ha => absurd ha List.not_mem_nil⟩
    (hrun frame _ _)

/-- Whom a host serves stays the same while its code runs. -/
theorem sink_evaluate (co : Collaborators β) (f : StoredFunction β) (hs : s.Keyed) {h : Host β}
    (hh : s.host? frame.host = some h)
    (arguments : List Binding) :
    (((evaluate co (runner co) frame f arguments).exec s).host? frame.host).bind (·.sink) =
      h.sink := by
  have hact : ActsUnder frame.host
      (evaluate co (runner co) frame f arguments : ServerM σ β _) :=
    actsUnder_evaluate (runsUnder_runner co) rfl f arguments
  have hown := congrArg (Option.bind · fun x : Host β => x.sink) (hact hs).frame.own
  simp only [Option.bind_map] at hown
  rw [hh, Option.bind_some] at hown
  exact hown

/-! ## The ways into a function -/

omit [StateStore σ] in
/-- Reports a failure to an actor, or to the log. -/
def reportTo (co : Collaborators β) (sink : Option Actor) (intro : String) (error : ScriptError) :
    ServerM σ β Unit :=
  match sink with
  | some actor => report co actor intro error
  | none => log .error (Report.headline intro error.message)

omit [StateStore σ] in
theorem exec_reportFailure (co : Collaborators β) (id : HostId) (intro : String)
    (error : ScriptError) (s : Server σ β) :
    (reportFailure co id intro error).exec s =
      (reportTo co ((s.host? id).bind (·.sink)) intro error).exec s := by
  unfold reportFailure
  rw [exec_bind, eval_host?, exec_host?]
  unfold reportTo
  cases (s.host? id).bind (·.sink) <;> rfl

/-- A call with values checks their number and evaluates the function. -/
theorem call_of_running (co : Collaborators β) (id : HostId) (actor : Actor)
    (f : StoredFunction β) (values : List Value) (hrunning : s.isStopped = false) :
    let checked : ServerM σ β _ :=
      callChecked co (runner co) { host := id, actor } f.pretty f (values.map .value)
    (call co id actor f values).eval s = checked.eval s ∧
      (call co id actor f values).exec s = checked.exec s := by
  have hgo : ¬ s.isStopped = true := by simp [hrunning]
  unfold call callWith
  rw [eval_bind, exec_bind, eval_get, exec_get, if_neg hgo]
  exact ⟨rfl, rfl⟩

/-- A call with a text that stands for values does the same. -/
theorem callText_of_running (hrunning : s.isStopped = false) {h : Host β}
    (hh : s.host? id = some h) {name : String} (hf : h.function? name = some f) {text : String}
    {tokens : List Token} (htokens : co.tokenize text = .ok tokens) {coords : List Int}
    (hbind : TextArguments.bind (h.global? ·) coords tokens = .ok (values.map .value))
    (actor : Actor) :
    let checked : ServerM σ β _ :=
      callChecked co (runner co) { host := id, actor } name f (values.map .value)
    (callText co id actor name coords text).eval s = checked.eval s ∧
      (callText co id actor name coords text).exec s = checked.exec s := by
  have hgo : ¬ s.isStopped = true := by simp [hrunning]
  unfold callText callTextWith
  rw [eval_bind, exec_bind, eval_get, exec_get, if_neg hgo, eval_bind, exec_bind, eval_host?,
    exec_host?, hh]
  simp only [Option.bind_some, hf, htokens, hbind]
  exact ⟨trivial, trivial⟩

omit [StateStore σ] in
/-- A hook that is accepted is evaluated, and a failure is reported, whatever runs its code. -/
theorem callHookWith_of_accepts (frame : Frame) (hrunning : s.isStopped = false)
    (haccepts : co.evaluator.accepts f values = .ok ()) :
    let evaluated : ServerM σ β _ := evaluate co run frame f (values.map .value)
    (∀ v, evaluated.eval s = .ok v →
      (callHookWith co run frame f values).eval s = .ok v ∧
        (callHookWith co run frame f values).exec s = evaluated.exec s) ∧
      ∀ e, evaluated.eval s = .error e →
        (callHookWith co run frame f values).eval s = .ok .null ∧
          (callHookWith co run frame f values).exec s =
            (reportFailure co frame.host "Callback failed" e).exec (evaluated.exec s) := by
  have hgo : ¬ s.isStopped = true := by simp [hrunning]
  unfold callHookWith
  rw [eval_bind, exec_bind, eval_get, exec_get, if_neg hgo, haccepts]
  dsimp only
  refine ⟨fun v hv => ?_, fun e he => ?_⟩
  · rw [eval_bind, exec_bind, hv]
    exact ⟨rfl, rfl⟩
  · rw [eval_bind, exec_bind, he]
    exact ⟨rfl, rfl⟩

/-- A hook that is accepted is evaluated, and a failure is reported. -/
theorem callHook_of_accepts (frame : Frame) (hrunning : s.isStopped = false)
    (haccepts : co.evaluator.accepts f values = .ok ()) :
    let evaluated : ServerM σ β _ := evaluate co (runner co) frame f (values.map .value)
    (∀ v, evaluated.eval s = .ok v →
      (callHook co frame f values).eval s = .ok v ∧
        (callHook co frame f values).exec s = evaluated.exec s) ∧
      ∀ e, evaluated.eval s = .error e →
        (callHook co frame f values).eval s = .ok .null ∧
          (callHook co frame f values).exec s =
            (reportFailure co frame.host "Callback failed" e).exec (evaluated.exec s) :=
  callHookWith_of_accepts frame hrunning haccepts

/-- A hook that is not accepted is refused, and nothing happens. -/
theorem callHook_of_rejects (frame : Frame) (hrunning : s.isStopped = false) {reason : String}
    (hrejects : co.evaluator.accepts f values = .error reason) :
    (callHook co frame f values).eval s = .error { function := f.name, reason } ∧
      (callHook co frame f values).exec s = s := by
  have hgo : ¬ s.isStopped = true := by simp [hrunning]
  unfold callHook callHookWith
  rw [eval_bind, exec_bind, eval_get, exec_get, if_neg hgo, hrejects]
  exact ⟨rfl, rfl⟩

/-- A hook that is accepted answers with a value, and the evaluator is asked for the call.  What has
become of the evaluation shows in neither. -/
theorem asks_callHook {h : Host β} (hh : s.host? frame.host = some h)
    (hrunning : s.isStopped = false) (haccepts : co.evaluator.accepts f values = .ok ()) :
    (∃ v, (callHook co frame f values).eval s = .ok v) ∧
      s.Asks frame f values ((callHook co frame f values).exec s) := by
  have hasks := asks_evaluate co f hh values
  obtain ⟨hok, herror⟩ := callHook_of_accepts frame hrunning haccepts
  cases hv : (evaluate co (runner co) frame f (values.map .value)).eval s with
  | ok v =>
      obtain ⟨heval, hexec⟩ := hok v hv
      exact ⟨⟨v, heval⟩, hexec ▸ hasks⟩
  | error e =>
      obtain ⟨heval, hexec⟩ := herror e hv
      exact ⟨⟨.null, heval⟩, hexec ▸ hasks.trans_does (doesOnly_reportFailure _ _ e _)⟩

end ServerM

/-! ## The ways agree -/

open Server ServerM

variable [StateStore σ]

/-- A call with values and a call by name with a text that stands for them agree: with as many
values as parameters they ask for the same, with the same result, and with another number both are
refused, by reports that only show the function in different ways. -/
structure Server.TextAgrees (co : Collaborators β) (s : Server σ β) (id : HostId) (actor : Actor)
    (f : StoredFunction β) (values : List Value) (name : String) (coords : List Int)
    (text : String) : Prop where
  same : values.length = f.arity →
    (callText co id actor name coords text).eval s = (call co id actor f values).eval s ∧
      (callText co id actor name coords text).exec s = (call co id actor f values).exec s
  asked : values.length = f.arity →
    Asks { host := id, actor } f values s ((call co id actor f values).exec s)
  refused : values.length ≠ f.arity →
    (call co id actor f values).eval s =
        .error (.invocation (.wrongArity f.pretty f.parameters values)) ∧
      (callText co id actor name coords text).eval s =
        .error (.invocation (.wrongArity name f.parameters values)) ∧
      (call co id actor f values).exec s = s ∧
      (callText co id actor name coords text).exec s = s
  rows : ∃ rest, ∀ head, (InvocationError.wrongArity head f.parameters values).message =
    "Fail: stored function " ++ head ++ rest

/-- A call with values and a hook that is called with them agree: the hook is refused when the call
is, asks for the same otherwise, and reports a failure once, to whom the host serves. -/
structure Server.HookAgrees (co : Collaborators β) (s : Server σ β) (id : HostId) (actor : Actor)
    (f : StoredFunction β) (values : List Value) (sink : Option Actor) : Prop where
  asked : values.length = f.arity →
    Asks { host := id, actor } f values s ((callHook co { host := id, actor } f values).exec s)
  returned : ∀ v, (call co id actor f values).eval s = .ok v →
    (callHook co { host := id, actor } f values).eval s = .ok v ∧
      (callHook co { host := id, actor } f values).exec s = (call co id actor f values).exec s
  reported : values.length = f.arity → ∀ e, (call co id actor f values).eval s = .error e →
    (callHook co { host := id, actor } f values).eval s = .ok .null ∧
      (callHook co { host := id, actor } f values).exec s =
        (reportTo co sink "Callback failed" e).exec ((call co id actor f values).exec s)
  refused_iff : (∃ x, (callHook co { host := id, actor } f values).eval s = .error x) ↔
    ∃ e, (call co id actor f values).eval s = .error (.invocation e)
  refused_iff_length : (∃ x, (callHook co { host := id, actor } f values).eval s = .error x) ↔
    values.length ≠ f.arity
  silent : values.length ≠ f.arity → (callHook co { host := id, actor } f values).exec s = s

variable {co : Collaborators β} {s : Server σ β} {id : HostId} {h : Host β}
  {f : StoredFunction β} {values : List Value}

theorem textAgrees_of_bind (hrunning : s.isStopped = false) (hh : s.host? id = some h)
    {name : String} (hf : h.function? name = some f) {text : String} {tokens : List Token}
    (htokens : co.tokenize text = .ok tokens) {coords : List Int}
    (hbind : TextArguments.bind (h.global? ·) coords tokens = .ok (values.map .value))
    (actor : Actor) : s.TextAgrees co id actor f values name coords text := by
  obtain ⟨hcall, hcall'⟩ := call_of_running co id actor f values hrunning
  obtain ⟨htext, htext'⟩ := callText_of_running hrunning hh hf htokens hbind actor
  exact
    { same := by
        intro hlength
        rw [callChecked_of_length_eq hlength] at hcall hcall' htext htext'
        rw [hcall, hcall', htext, htext']
        exact ⟨rfl, rfl⟩
      asked := by
        intro hlength
        rw [hcall', callChecked_of_length_eq hlength]
        exact asks_evaluate co f hh values
      refused := by
        intro hlength
        rw [callChecked_of_length_ne hlength] at hcall hcall' htext htext'
        rw [hcall, hcall', htext, htext']
        exact ⟨rfl, rfl, rfl, rfl⟩
      rows := by
        refine ⟨s!" takes {f.parameters.length} arguments, not {values.length}:\n" ++
          String.join ((InvocationError.arityRows f.parameters
            (values.map Value.text)).map InvocationError.rowText), fun head => ?_⟩
        unfold InvocationError.message InvocationError.arityReport
        simp only [String.append_assoc]
        rfl }

theorem hookAgrees_of_accepts (hs : s.Keyed) (hrunning : s.isStopped = false)
    (hh : s.host? id = some h) (haccepts : co.evaluator.accepts f values = f.acceptsArity values)
    (actor : Actor) : s.HookAgrees co id actor f values h.sink := by
  obtain ⟨hcall, hcall'⟩ := call_of_running co id actor f values hrunning
  by_cases hlength : values.length = f.arity
  · rw [StoredFunction.acceptsArity, if_pos hlength] at haccepts
    rw [callChecked_of_length_eq hlength] at hcall hcall'
    have hframe : s.host? ({ host := id, actor } : Frame).host = some h := hh
    obtain ⟨hok, herror⟩ :=
      callHook_of_accepts { host := id, actor } hrunning haccepts
    have hasks := asks_evaluate co f hframe values
    have hsink := sink_evaluate co f hs hframe (values.map .value)
    have hinvocation := eval_evaluate_ne_invocation co (runner co) f hframe (values.map .value)
    have hreported : ∀ e, (call co id actor f values).eval s = .error e →
        (callHook co { host := id, actor } f values).eval s = .ok .null ∧
          (callHook co { host := id, actor } f values).exec s =
            (reportTo co h.sink "Callback failed" e).exec ((call co id actor f values).exec s) := by
      intro e he
      rw [hcall] at he
      obtain ⟨hnull, hexec⟩ := herror e he
      rw [exec_reportFailure, hsink] at hexec
      rw [hcall']
      exact ⟨hnull, hexec⟩
    -- whatever the evaluation answers, the hook is not refused
    have haccepted : ¬ ∃ x, (callHook co { host := id, actor } f values).eval s = .error x := by
      rintro ⟨x, hx⟩
      cases hv : (call co id actor f values).eval s with
      | ok v =>
          rw [(hok v (hcall ▸ hv)).1] at hx
          cases hx
      | error e =>
          rw [(hreported e hv).1] at hx
          cases hx
    exact
      { asked := by
          intro _
          cases hv : (call co id actor f values).eval s with
          | ok v =>
              rw [(hok v (hcall ▸ hv)).2]
              exact hasks
          | error e =>
              rw [(herror e (hcall ▸ hv)).2]
              exact hasks.trans_does (doesOnly_reportFailure _ _ e _)
        returned := by
          intro v hv
          rw [hcall']
          exact hok v (hcall ▸ hv)
        reported := fun _ => hreported
        refused_iff := by
          refine ⟨fun hx => absurd hx haccepted, ?_⟩
          rintro ⟨e, he⟩
          exact absurd (hcall ▸ he) (hinvocation e)
        refused_iff_length := ⟨fun hx => absurd hx haccepted, fun hne => absurd hlength hne⟩
        silent := fun hne => absurd hlength hne }
  · rw [StoredFunction.acceptsArity, if_neg hlength] at haccepts
    rw [callChecked_of_length_ne hlength] at hcall hcall'
    obtain ⟨hrefused, hexec⟩ :=
      callHook_of_rejects { host := id, actor } hrunning haccepts
    exact
      { asked := fun h => absurd h hlength
        returned := by
          intro v hv
          rw [hcall] at hv
          cases hv
        reported := fun h => absurd h hlength
        refused_iff := ⟨fun _ => ⟨_, hcall⟩, fun _ => ⟨_, hrefused⟩⟩
        refused_iff_length := ⟨fun _ => hlength, fun _ => ⟨_, hrefused⟩⟩
        silent := fun _ => hexec }

/-- On every reachable server that is not paused, a call of a function of a host with values and one
by its name with a text that stands for the values agree; and so does a hook that is called with
them, if callbacks are accepted by the number of arguments. -/
theorem sameCall_of_reachable {allowed : Catalogue → Prop} (hs : Reachable allowed s)
    (hrunning : s.isStopped = false) (hh : s.host? id = some h) {name : String}
    (hf : h.function? name = some f) {text : String} {tokens : List Token}
    (htokens : co.tokenize text = .ok tokens) {coords : List Int}
    (hbind : TextArguments.bind (h.global? ·) coords tokens = .ok (values.map .value))
    (actor : Actor) :
    s.TextAgrees co id actor f values name coords text ∧
      (co.evaluator.accepts f values = f.acceptsArity values →
        s.HookAgrees co id actor f values h.sink) := by
  have ha : Arena (fun _ _ => True) s := hs.arena fun _ _ _ _ _ => trivial
  exact ⟨textAgrees_of_bind hrunning hh hf htokens hbind actor,
    fun haccepts => hookAgrees_of_accepts ha.keyed hrunning hh haccepts actor⟩

/-- A function of the market is called with a coordinate and a text of four tokens: a minus, a
number, a word that names no variable and a piece of text. -/
theorem sameCall_greeting :
    let tokens : List Token :=
      [{ kind := .unaryOperator, surface := "-" }, { kind := .literal, surface := "3.5", pos := 1 },
        { kind := .variable, surface := "everyone", pos := 5 },
        { kind := .stringParam, surface := "today", pos := 14 }]
    let text := "-3.5 everyone today"
    let co : Collaborators Unit :=
      { Collaborators.plain (.always (.done (.ok (.str "hello")))) marketCatalogue with
        tokenize := fun t => .ok (if t = text then tokens else []) }
    let greet : StoredFunction Unit :=
      { name := "greet", module := some "market", parameters := ["x", "mood", "who", "words"]
        body := () }
    let s : Server MemoryStore Unit :=
      Operation.runAll co (marketOperations ++ [.define 1 greet]) (.new ∅ {})
    let values : List Value := [.ofInt 4, .number (-3.5), .str "everyone", .str "today"]
    ∃ h f, s.host? 1 = some h ∧ h.function? "greet" = some f ∧ f.arity = values.length ∧
      s.TextAgrees co 1 .server f values "greet" [4] text ∧
      s.HookAgrees co 1 .server f values h.sink := by
  intro tokens text co greet s values
  have hs : Reachable (fun _ => True) s := .runAll trivial _ (.new _ _)
  have hrunning : s.isStopped = false := by decide +kernel
  have hdefined : (s.host? 1).any fun h =>
      (h.global? "everyone").isNone && (h.function? "greet").any fun f => f.arity = 4 := by
    decide +kernel
  obtain ⟨h, hh, hboth⟩ := Option.any_eq_true _ _ |>.1 hdefined
  rw [Bool.and_eq_true] at hboth
  obtain ⟨hword, hfun⟩ := hboth
  obtain ⟨f, hf, harity⟩ := Option.any_eq_true _ _ |>.1 hfun
  have hbind : TextArguments.bind (h.global? ·) [4] tokens = .ok (values.map .value) := by
    have hnone := Option.isNone_iff_eq_none.1 hword
    simp only [TextArguments.bind, TextArguments.ofTokens, tokens, hnone]
    rfl
  have hsame : s.TextAgrees co 1 .server f values "greet" [4] text ∧
      (co.evaluator.accepts f values = f.acceptsArity values →
        s.HookAgrees co 1 .server f values h.sink) :=
    sameCall_of_reachable hs hrunning hh hf rfl hbind .server
  exact ⟨h, f, hh, hf, of_decide_eq_true harity, hsame.1, hsame.2 rfl⟩

end ScriptHost
