import Mathlib
import ScriptHost.Proofs.CallPaths
/-!
# Arguments are looked at to explain a mismatch only

The arguments of a call are bindings, and a binding may stand for a producer that does something
each time it is asked for a value.  The host asks the producers of a call only when the number of
arguments is wrong, to show what was given: each argument once, in the order of their positions.  In
all other cases it leaves the producers alone, and the evaluator gets the bindings as they are.

## Main definitions

* `Server.Materialized`: the arguments of a call have been evaluated, and nothing else has happened.
* `IsArityReport`: the text that explains a wrong number of arguments.
* `Server.Checked`: what becomes of a call whose arguments have been bound.
* `Server.CallResult`, `Server.TextCallResult`: all the ways in which a call comes out.

## Main statements

* `ServerM.materialized_mapM_force`: looking at all arguments evaluates each of them once.
* `ServerM.checked_callChecked`: what becomes of a call after its arguments have been bound.
* `forced_only_to_explain`: whatever the state, arguments are looked at only to explain a mismatch.
-/

namespace ScriptHost

open ServerM

variable {σ β : Type}

/-! ## Producers -/

namespace Binding

/-- Whether a binding stands for the producer with an index. -/
def refersTo (index : Nat) : Binding → Bool
  | value _ => false
  | deferred i => i == index

theorem refersTo_iff {b : Binding} {index : Nat} :
    b.refersTo index = true ↔ b = deferred index := by
  cases b with
  | value v => exact iff_of_false Bool.false_ne_true (nomatch ·)
  | deferred i => exact beq_iff_eq.trans (by rw [deferred.injEq])

/-- How many of some bindings stand for the producer that this one stands for. -/
def timesIn (l : List Binding) : Binding → Nat
  | value _ => 0
  | deferred index => l.countP (·.refersTo index)

theorem timesIn_append (b : Binding) (l l' : List Binding) :
    b.timesIn (l ++ l') = b.timesIn l + b.timesIn l' := by
  cases b with
  | value v => rfl
  | deferred index => exact List.countP_append

theorem timesIn_nil (b : Binding) : b.timesIn [] = 0 := by cases b <;> rfl

end Binding

namespace Server

variable {co : Collaborators β} {id : HostId} {s t u : Server σ β} {b : Binding}

/-- The producer that a binding stands for under a host, if it stands for one that is there. -/
def producer? (s : Server σ β) (id : HostId) : Binding → Option Producer
  | .value _ => none
  | .deferred index => (s.host? id).bind (·.producers[index]?)

/-- The label of the producer that a binding stands for. -/
def label? (s : Server σ β) (id : HostId) (b : Binding) : Option String :=
  (s.producer? id b).map (·.label)

/-- The value that a binding gives under a host when its producer has been asked so many times
since.  A producer that is not there gives null. -/
def valueAfter (s : Server σ β) (co : Collaborators β) (id : HostId) (times : Nat)
    (b : Binding) : Value :=
  match b with
  | .value v => v
  | .deferred _ =>
    match s.producer? id b with
    | none => .null
    | some p => co.evaluator.produce p.label (p.evaluations + times + 1)

/-- Every argument has been evaluated once under a host, in the order of their positions, and
nothing else has happened. -/
structure Materialized (co : Collaborators β) (id : HostId) (arguments : List Binding)
    (s t : Server σ β) (values : List Value) : Prop where
  /-- The producers of the arguments have been asked, the last one latest. -/
  journal : t.journal = ((arguments.filterMap (s.label? id)).map .forced).reverse ++ s.journal
  length : values.length = arguments.length
  /-- Each value is the one that its argument gives after the arguments before it. -/
  values : ∀ k b, arguments[k]? = some b →
    values[k]? = some (s.valueAfter co id (b.timesIn (arguments.take k)) b)
  /-- Each producer has been asked once for each argument that stands for it. -/
  asked : ∀ b, t.producer? id b = (s.producer? id b).map fun p =>
    { p with evaluations := p.evaluations + b.timesIn arguments }
  own : (t.host? id).map (fun h => { h with producers := [] }) =
    (s.host? id).map fun h => { h with producers := [] }
  others : ∀ k, k ≠ id → t.host? k = s.host? k
  rest : t = { s with hosts := t.hosts, journal := t.journal }

namespace Materialized

variable {arguments later : List Binding} {values given : List Value}

/-- No arguments, nothing happens. -/
theorem nil (co : Collaborators β) (id : HostId) (s : Server σ β) :
    s.Materialized co id [] s [] where
  journal := rfl
  length := rfl
  values _ _ h := by cases h
  asked b := by
    rw [Binding.timesIn_nil]
    exact Option.map_id'.symm
  own := rfl
  others _ _ := rfl
  rest := rfl

/-- The producers keep their labels. -/
theorem label?_eq (h : s.Materialized co id arguments t values) : t.label? id = s.label? id := by
  funext b
  unfold label?
  rw [h.asked, Option.map_map]
  rfl

/-- What a binding gives later counts what has been asked before. -/
theorem valueAfter_eq (h : s.Materialized co id arguments t values) (times : Nat) (b : Binding) :
    t.valueAfter co id times b = s.valueAfter co id (b.timesIn arguments + times) b := by
  cases b with
  | value v => rfl
  | deferred index =>
      unfold valueAfter
      dsimp only
      rw [h.asked]
      cases s.producer? id (.deferred index) with
      | none => rfl
      | some p =>
          rw [Option.map_some]
          dsimp only
          rw [Nat.add_assoc p.evaluations]

/-- Some arguments after others. -/
theorem append (h : s.Materialized co id arguments t values)
    (g : t.Materialized co id later u given) :
    s.Materialized co id (arguments ++ later) u (values ++ given) where
  journal := by
    rw [g.journal, h.label?_eq, h.journal, List.filterMap_append, List.map_append,
      List.reverse_append, List.append_assoc]
  length := by rw [List.length_append, List.length_append, h.length, g.length]
  values := by
    intro k b hk
    rw [List.getElem?_append] at hk ⊢
    rw [h.length]
    by_cases hlt : k < arguments.length
    · rw [if_pos hlt] at hk ⊢
      rw [List.take_append_of_le_length (Nat.le_of_lt hlt)]
      exact h.values k b hk
    · rw [if_neg hlt] at hk ⊢
      have htake : (arguments ++ later).take k =
          arguments ++ later.take (k - arguments.length) := by
        rw [List.take_append, List.take_of_length_le (Nat.not_lt.1 hlt)]
      rw [g.values _ b hk, h.valueAfter_eq, htake, Binding.timesIn_append]
  asked := by
    intro b
    rw [g.asked, h.asked, Option.map_map, Binding.timesIn_append]
    apply Option.map_congr
    intro p _
    show Producer.mk _ _ = Producer.mk _ _
    rw [Nat.add_assoc]
  own := g.own.trans h.own
  others k hk := (g.others k hk).trans (h.others k hk)
  rest := by rw [g.rest, h.rest]

end Materialized

end Server

/-! ## Looking at arguments -/

namespace ServerM

open Server

variable (co : Collaborators β) (id : HostId) (s : Server σ β)

theorem eval_force (b : Binding) : (force co id b).eval s = s.valueAfter co id 0 b := by
  cases b with
  | value v => rfl
  | deferred index =>
      unfold force valueAfter producer?
      dsimp only
      rw [eval_bind, eval_host?, exec_host?]
      cases (s.host? id).bind (·.producers[index]?) <;> rfl

/-- A binding without a producer that is there gives its value, and nothing happens. -/
theorem exec_force_of_none {b : Binding} (hb : s.producer? id b = none) :
    (force co id b).exec s = s := by
  cases b with
  | value v => rfl
  | deferred index =>
      have hnone : (s.host? id).bind (·.producers[index]?) = none := hb
      unfold force
      rw [exec_bind, eval_host?, exec_host?, hnone]
      rfl

/-- A producer that is asked counts that, and it is written down. -/
theorem exec_force_of_some {index : Nat} {p : Producer}
    (hp : s.producer? id (.deferred index) = some p) :
    (force co id (.deferred index)).exec s =
      (s.modifyHost id fun h => { h with
        producers := h.producers.set index { p with evaluations := p.evaluations + 1 } }).record
          (.forced p.label) := by
  have hsome : (s.host? id).bind (·.producers[index]?) = some p := hp
  unfold force
  rw [exec_bind, eval_host?, exec_host?, hsome]
  rfl

/-- Only a deferred binding has a producer. -/
theorem deferred_of_producer? {b : Binding} {p : Producer} (hp : s.producer? id b = some p) :
    ∃ index, b = .deferred index := by
  cases b with
  | value v => cases hp
  | deferred index => exact ⟨index, rfl⟩

/-- A producer that is there is one of a host that is there. -/
theorem host?_of_producer? {index : Nat} {p : Producer}
    (hp : s.producer? id (.deferred index) = some p) :
    ∃ h, s.host? id = some h ∧ h.producers[index]? = some p :=
  Option.bind_eq_some_iff.1 hp

/-- The producers after one of them has been asked. -/
theorem producer?_force (b c : Binding) :
    ((force co id b).exec s).producer? id c = (s.producer? id c).map fun p =>
      { p with evaluations := p.evaluations + c.timesIn [b] } := by
  cases c with
  | value v => rfl
  | deferred i =>
      cases hb : s.producer? id b with
      | none =>
          rw [exec_force_of_none co id s hb]
          cases hc : s.producer? id (.deferred i) with
          | none => rfl
          | some p =>
              -- the binding has no producer, so it is not the one that has
              have hother : b.refersTo i = false := by
                refine Bool.eq_false_iff.2 fun h => ?_
                rw [Binding.refersTo_iff.1 h, hc] at hb
                cases hb
              simp [Binding.timesIn, hother]
      | some q =>
          obtain ⟨j, rfl⟩ := deferred_of_producer? id s hb
          obtain ⟨h, hh, hq⟩ := host?_of_producer? id s hb
          rw [exec_force_of_some co id s hb]
          simp only [producer?, host?_record, host?_modifyHost_self, hh, Option.map_some,
            Option.bind_some, List.getElem?_set, Binding.timesIn, List.countP_singleton,
            Binding.refersTo, beq_iff_eq]
          by_cases hji : j = i
          · subst hji
            obtain ⟨hlt, rfl⟩ := List.getElem?_eq_some_iff.1 hq
            simp [hlt]
          · simp [hji]

/-- A single argument that is looked at is evaluated once. -/
theorem materialized_force (b : Binding) :
    s.Materialized co id [b] ((force co id b).exec s) [(force co id b).eval s] := by
  have hvalues : ∀ k c, [b][k]? = some c →
      [(force co id b).eval s][k]? =
        some (s.valueAfter co id (c.timesIn ([b].take k)) c) := by
    intro k c hk
    obtain ⟨rfl, rfl⟩ : k = 0 ∧ b = c := by
      cases k with
      | zero => exact ⟨rfl, Option.some.inj hk⟩
      | succ k => cases hk
    rw [List.getElem?_cons_zero, eval_force, List.take_zero, Binding.timesIn_nil]
  have hasked := producer?_force co id s b
  cases hb : s.producer? id b with
  | none =>
      have hlabel : s.label? id b = none := by
        rw [label?, hb]
        rfl
      rw [exec_force_of_none co id s hb] at hasked ⊢
      exact
        { journal := by
            rw [List.filterMap_cons_none hlabel]
            rfl
          length := rfl
          values := hvalues
          asked := hasked
          own := rfl
          others := fun _ _ => rfl
          rest := rfl }
  | some p =>
      obtain ⟨i, rfl⟩ := deferred_of_producer? id s hb
      have hlabel : s.label? id (.deferred i) = some p.label := by
        rw [label?, hb]
        rfl
      rw [exec_force_of_some co id s hb] at hasked ⊢
      exact
        { journal := by
            rw [List.filterMap_cons_some hlabel]
            rfl
          length := rfl
          values := hvalues
          asked := hasked
          own := by
            rw [host?_record, host?_modifyHost_self, Option.map_map]
            rfl
          others := fun k hk => by rw [host?_record, host?_modifyHost, if_neg (Ne.symm hk)]
          rest := rfl }

/-- Looking at all arguments evaluates each of them once. -/
theorem materialized_mapM_force (arguments : List Binding) :
    s.Materialized co id arguments ((arguments.mapM (force co id)).exec s)
      ((arguments.mapM (force co id)).eval s) := by
  induction arguments generalizing s with
  | nil => exact .nil co id s
  | cons b rest ih =>
      rw [List.mapM_cons]
      exact (materialized_force co id s b).append (ih _)

end ServerM

/-! ## The report -/

/-- A text explains a wrong number of arguments: below a headline there is one row for each
parameter or argument, with the parameter and the text of the argument at its place.  Two question
marks stand for one that is missing. -/
def IsArityReport (head : String) (params : List String) (args : List Value) (text : String) :
    Prop :=
  ∃ rows : List (String × String),
    rows.length = max params.length args.length ∧
    (∀ i < rows.length,
      rows[i]? = some (params[i]?.getD "??", (args[i]?.map Value.text).getD "??")) ∧
    text = s!"Fail: stored function {head} takes {params.length} arguments, not {args.length}:\n" ++
      String.join (rows.map fun row => row.1 ++ " => " ++ row.2 ++ "\n")

namespace InvocationError

/-- A row pairs the parameter and the argument at its place. -/
theorem getElem?_arityRows (ps vs : List String) {i : Nat} (hi : i < max ps.length vs.length) :
    (arityRows ps vs)[i]? = some (ps[i]?.getD missing, vs[i]?.getD missing) := by
  fun_induction arityRows ps vs generalizing i with
  | case1 => exact absurd hi (Nat.not_lt_zero i)
  | case2 p ps ih =>
      cases i with
      | zero => rfl
      | succ i => exact ih (by simpa using hi)
  | case3 v vs ih =>
      cases i with
      | zero => rfl
      | succ i => exact ih (by simpa using hi)
  | case4 p ps v vs ih =>
      cases i with
      | zero => rfl
      | succ i => exact ih (by simpa using hi)

/-- The wording of a refused call is such a report. -/
theorem isArityReport_message (head : String) (params : List String) (args : List Value) :
    IsArityReport head params args (wrongArity head params args).message := by
  have hlength : (arityRows params (args.map Value.text)).length =
      max params.length args.length := by
    rw [length_arityRows, List.length_map]
  refine ⟨arityRows params (args.map Value.text), hlength, fun i hi => ?_, rfl⟩
  rw [getElem?_arityRows _ _ (length_arityRows .. ▸ hi), List.getElem?_map]
  rfl

end InvocationError

/-! ## Ways a call comes out -/

namespace Server

variable [StateStore σ]

/-- What becomes of a call whose arguments have been bound.  Only if their number is wrong are they
looked at, each of them once, and then the evaluator is not asked.  Otherwise it is handed the
bindings themselves, at once, or nothing happens because the host is gone. -/
structure Checked (co : Collaborators β) (frame : Frame) (head : String) (f : StoredFunction β)
    (arguments : List Binding) (s t : Server σ β) (answer : Except ScriptError Value) : Prop where
  explained : arguments.length ≠ f.arity → ∃ values,
    s.Materialized co frame.host arguments t values ∧
      answer = .error (.invocation (.wrongArity head f.parameters values)) ∧
      IsArityReport head f.parameters values
        (ScriptError.invocation (.wrongArity head f.parameters values)).message
  gone : arguments.length = f.arity → s.host? frame.host = none →
    answer = .error (.contract (.unknownHost frame.host)) ∧ t = s
  handed : arguments.length = f.arity → (s.host? frame.host).isSome →
    let asked := s.record (.asked frame (.call f arguments))
    let evaluation : ServerM σ β _ :=
      ServerM.runner co frame (co.evaluator.callFunction frame f arguments)
    answer = (evaluation.eval asked).mapError .ofEval ∧ t = evaluation.exec asked

/-- What becomes of a call with values. -/
structure CallResult (co : Collaborators β) (frame : Frame) (f : StoredFunction β)
    (values : List Value) (s t : Server σ β) (answer : Except ScriptError Value) : Prop where
  paused : s.isStopped = true → answer = .error .paused ∧ t = s
  bound : s.isStopped = false → s.Checked co frame f.pretty f (values.map .value) t answer

/-- What becomes of a call by name with coordinates and a text. -/
structure TextCallResult (co : Collaborators β) (frame : Frame) (name : String)
    (coords : List Int) (text : String) (s t : Server σ β) (answer : Except ScriptError Value) :
    Prop where
  paused : s.isStopped = true → answer = .error .paused ∧ t = s
  undefined : s.isStopped = false → (s.host? frame.host).bind (·.function? name) = none →
    answer = .error (.invocation (.undefinedFunction name)) ∧ t = s
  /-- The text cannot be taken apart. -/
  garbled : s.isStopped = false → ∀ f, (s.host? frame.host).bind (·.function? name) = some f →
    ∀ e, co.tokenize text = .error e → answer = .error (.ofEval e) ∧ t = s
  /-- One of the tokens cannot be an argument. -/
  rejected : s.isStopped = false → ∀ f, (s.host? frame.host).bind (·.function? name) = some f →
    ∀ tokens, co.tokenize text = .ok tokens →
    ∀ e, TextArguments.bind (fun v => (s.host? frame.host).bind (·.global? v)) coords tokens =
        .error e →
      answer = .error (.invocation e) ∧ t = s
  bound : s.isStopped = false → ∀ f, (s.host? frame.host).bind (·.function? name) = some f →
    ∀ tokens, co.tokenize text = .ok tokens →
    ∀ arguments,
      TextArguments.bind (fun v => (s.host? frame.host).bind (·.global? v)) coords tokens =
        .ok arguments →
      s.Checked co frame name f arguments t answer

end Server

section

open Server ServerM

variable [StateStore σ] (co : Collaborators β) (s : Server σ β)

/-- What becomes of a call after its arguments have been bound. -/
theorem ServerM.checked_callChecked (frame : Frame) (head : String) (f : StoredFunction β)
    (arguments : List Binding) :
    let call : ServerM σ β _ := callChecked co (runner co) frame head f arguments
    s.Checked co frame head f arguments (call.exec s) (call.eval s) where
  explained := by
    intro hne
    rw [callChecked_of_ne_arity hne]
    exact ⟨_, materialized_mapM_force co frame.host s arguments, rfl,
      InvocationError.isArityReport_message ..⟩
  gone := by
    intro heq hnone
    rw [callChecked_of_arity heq]
    unfold evaluate
    rw [eval_bind, exec_bind, eval_host?, exec_host?, hnone]
    exact ⟨rfl, rfl⟩
  handed := by
    intro heq hsome asked evaluation
    obtain ⟨h, hh⟩ := Option.isSome_iff_exists.1 hsome
    rw [callChecked_of_arity heq]
    exact ⟨eval_evaluate hh arguments, exec_evaluate hh arguments⟩

/-- What becomes of a call by name, whatever the name and the text. -/
theorem ServerM.textCallResult_callText (id : HostId) (actor : Actor) (name : String)
    (coords : List Int) (text : String) :
    TextCallResult co { host := id, actor } name coords text s
      ((callText co id actor name coords text).exec s)
      ((callText co id actor name coords text).eval s) := by
  cases hstopped : s.isStopped with
  | true =>
      have hresult : (callText co id actor name coords text).eval s = .error .paused ∧
          (callText co id actor name coords text).exec s = s := by
        unfold callText callTextWith
        rw [eval_bind, exec_bind, eval_get, exec_get, if_pos hstopped]
        exact ⟨rfl, rfl⟩
      have hno : ¬ s.isStopped = false := by simp [hstopped]
      exact
        { paused := fun _ => hresult
          undefined := fun h => absurd h hno
          garbled := fun h => absurd h hno
          rejected := fun h => absurd h hno
          bound := fun h => absurd h hno }
  | false =>
      have hgo : ¬ s.isStopped = true := by simp [hstopped]
      unfold callText callTextWith
      rw [eval_bind, exec_bind, eval_get, exec_get, if_neg hgo, eval_bind, exec_bind, eval_host?,
        exec_host?]
      exact
        { paused := fun h => absurd h hgo
          undefined := by
            intro _ hnone
            rw [hnone]
            exact ⟨rfl, rfl⟩
          garbled := by
            intro _ f hf e he
            simp only [hf, he]
            exact ⟨rfl, rfl⟩
          rejected := by
            intro _ f hf tokens htokens e he
            simp only [hf, htokens, he]
            exact ⟨rfl, rfl⟩
          bound := by
            intro _ f hf tokens htokens arguments hbind
            simp only [hf, htokens, hbind]
            exact checked_callChecked co s { host := id, actor } name f arguments }

/-- Whatever the state, the arguments of a call are looked at only to explain that their number is
wrong, each of them once and in order; in all other cases they are handed on as they are, or not at
all. -/
theorem forced_only_to_explain (id : HostId) (actor : Actor) :
    (∀ f values, CallResult co { host := id, actor } f values s
      ((call co id actor f values).exec s) ((call co id actor f values).eval s)) ∧
    ∀ name coords text, TextCallResult co { host := id, actor } name coords text s
      ((callText co id actor name coords text).exec s)
      ((callText co id actor name coords text).eval s) := by
  refine ⟨fun f values => ⟨fun hstopped => ?_, fun hrunning => ?_⟩, fun name coords text => ?_⟩
  · unfold call callWith
    rw [eval_bind, exec_bind, eval_get, exec_get, if_pos hstopped]
    exact ⟨rfl, rfl⟩
  · obtain ⟨heval, hexec⟩ := call_of_running co id actor f values hrunning
    rw [heval, hexec]
    exact checked_callChecked co s { host := id, actor } f.pretty f (values.map .value)
  · exact textCallResult_callText co s id actor name coords text

end

/-- A function with one parameter is called with a clock, a word and the clock again.  The clock is
asked twice, and the report shows what it has answered each time. -/
theorem forced_market :
    let evaluator : Evaluator Unit :=
      { Evaluator.always (.done (.ok .null)) with produce := fun label n => .str s!"{label} {n}" }
    let tokens : List Token :=
      [{ kind := .variable, surface := "now" }, { kind := .stringParam, surface := "x" },
        { kind := .variable, surface := "now" }]
    let co : Collaborators Unit :=
      { Collaborators.plain evaluator marketCatalogue with tokenize := fun _ => .ok tokens }
    let greet : StoredFunction Unit :=
      { name := "greet", module := some "market", parameters := ["who"], body := () }
    let s : Server MemoryStore Unit :=
      (Operation.runAll co (marketOperations ++ [.define 1 greet]) (.new ∅ {})).modifyHost 1
        fun h => (h.addProducer "clock").2.setGlobal (some "market") "now" (h.addProducer "clock").1
    let called : ServerM MemoryStore Unit _ := callText co 1 .server "greet" [] "now x now"
    ∃ values, s.Materialized co 1 [.deferred 0, .value (.str "x"), .deferred 0] (called.exec s)
        values ∧
      called.eval s = .error (.invocation (.wrongArity "greet" ["who"] values)) ∧
      values.map Value.text = ["clock 1", "x", "clock 2"] ∧
      (InvocationError.wrongArity "greet" ["who"] values).message =
        "Fail: stored function greet takes 1 arguments, not 3:\n" ++
          "who => clock 1\n?? => x\n?? => clock 2\n" := by
  intro evaluator tokens co greet s called
  have hrunning : s.isStopped = false := by decide +kernel
  have hdefined : ((s.host? 1).bind (·.function? "greet")).any fun f => f.parameters = ["who"] := by
    decide +kernel
  obtain ⟨f, hf, hparameters⟩ := Option.any_eq_true _ _ |>.1 hdefined
  have hbound : ((s.host? 1).bind (·.global? "now")).any (·.refersTo 0) := by decide +kernel
  obtain ⟨b, hb, hclock⟩ := Option.any_eq_true _ _ |>.1 hbound
  obtain rfl := Binding.refersTo_iff.1 hclock
  have hbind : TextArguments.bind (fun v => (s.host? 1).bind (·.global? v)) [] tokens =
      .ok [.deferred 0, .value (.str "x"), .deferred 0] := by
    simp only [TextArguments.bind, tokens, TextArguments.ofTokens, hb]
    rfl
  have hresult := (forced_only_to_explain co s 1 .server).2 "greet" [] "now x now"
  have hchecked := hresult.bound hrunning f hf tokens rfl _ hbind
  have hparams : f.parameters = ["who"] := of_decide_eq_true hparameters
  obtain ⟨values, hmaterialized, hanswer, -⟩ := hchecked.explained (by
    rw [StoredFunction.arity, hparams]
    decide)
  rw [hparams] at hanswer
  have hproducer : s.producer? 1 (.deferred 0) = some { label := "clock" } := by decide +kernel
  have hvalue : ∀ times, s.valueAfter co 1 times (.deferred 0) =
      .str s!"clock {0 + times + 1}" := by
    intro times
    unfold Server.valueAfter
    rw [hproducer]
    rfl
  have hvalues : values = [.str "clock 1", .str "x", .str "clock 2"] := by
    refine List.ext_getElem? fun k => ?_
    rcases k with _ | _ | _ | k
    · exact (hmaterialized.values 0 _ rfl).trans (congrArg some (hvalue 0))
    · exact hmaterialized.values 1 _ rfl
    · exact (hmaterialized.values 2 _ rfl).trans (congrArg some (hvalue 1))
    · rw [List.getElem?_eq_none (by rw [hmaterialized.length]; exact Nat.le_add_left 3 k)]
      rfl
  subst hvalues
  have hrows : InvocationError.arityRows ["who"] ["clock 1", "x", "clock 2"] =
      [("who", "clock 1"), ("??", "x"), ("??", "clock 2")] := by
    simp only [InvocationError.arityRows, InvocationError.missing]
  refine ⟨_, hmaterialized, hanswer, rfl, ?_⟩
  show InvocationError.arityReport "greet" ["who"] _ = _
  unfold InvocationError.arityReport
  rw [show List.map Value.text _ = ["clock 1", "x", "clock 2"] from rfl, hrows]
  decide +kernel

end ScriptHost
