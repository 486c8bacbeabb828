import Mathlib
import ScriptHost.Proofs.Configuring
import ScriptHost.Proofs.Loading
/-!
# Definitions that fail

The configuration function is looked up among the functions of the host when it is called, and so
it is entered there before it is known whether it answers with a configuration.  If it does not, the
definition fails, and nothing takes the entry back: the new function is the one that is looked up
from then on, although the configuration of the host is still that of the old one.

## Main definitions

* `Host.registry`: what is looked up under the key of a module and a name.
* `Query.MayDefine`: the queries by which a script may change what is looked up.

## Main statements

* `ServerM.sameRegistries_answer`, `ServerM.sameRegistries_runScript`: other queries, and scripts
  that make no others, leave what is looked up.
* `ServerM.defineWith_fails_iff`: when a definition fails.
* `halfDefined_of_reachable`: what a failed definition leaves behind.
* `replaced_market`: a function that is replaced by one whose definition has failed, and a name that
  is undefined until then.
-/

namespace ScriptHost

open Server ServerM

variable {σ β α : Type}

/-! ## What is looked up -/

namespace Host

/-- The function that a module has defined under a name, by the key of the module and the name. -/
def registry (h : Host β) (key name : String) : Option (StoredFunction β) :=
  (h.definitionsOf key).functions[name]?

theorem function?_eq_registry (h : Host β) (name : String) :
    h.function? name = h.registry h.mainKey name := rfl

/-- A definition changes what is looked up under the name of the function, for its module. -/
theorem registry_insertFunction (h : Host β) (f : StoredFunction β) (key name : String) :
    (h.insertFunction f).registry key name =
      if moduleKey f.module = key ∧ f.name = name then some f else h.registry key name := by
  unfold registry insertFunction
  rw [definitionsOf_modifyDefinitions]
  by_cases hkey : moduleKey f.module = key
  · rw [if_pos hkey]
    dsimp only
    rw [Std.ExtTreeMap.getElem?_insert]
    by_cases hname : f.name = name
    · simp [hkey, hname]
    · simp [hname]
  · rw [if_neg hkey, if_neg fun h => hkey h.1]

/-- Variables are not functions. -/
theorem registry_setGlobal (h : Host β) (module : Option String) (name : String) (b : Binding) :
    (h.setGlobal module name b).registry = h.registry := by
  funext key other
  unfold registry setGlobal
  rw [definitionsOf_modifyDefinitions]
  split <;> rfl

end Host

/-- On both servers the same functions are looked up, and the hosts are configured alike. -/
def Server.SameRegistries (s t : Server σ β) : Prop :=
  ∀ k, (t.host? k).map (fun h => (h.registry, h.setup)) =
    (s.host? k).map fun h => (h.registry, h.setup)

namespace Server.SameRegistries

variable {s t u : Server σ β}

theorem refl (s : Server σ β) : SameRegistries s s := fun _ => rfl

theorem trans (h : SameRegistries s t) (g : SameRegistries t u) : SameRegistries s u :=
  fun k => (g k).trans (h k)

/-- A change to a host that concerns neither its functions nor its configuration. -/
theorem modifyHost (s : Server σ β) (id : HostId) {g : Host β → Host β}
    (hg : ∀ h, ((g h).registry, (g h).setup) = (h.registry, h.setup)) :
    SameRegistries s (s.modifyHost id g) := by
  intro k
  rw [host?_modifyHost]
  split
  · rw [Option.map_map]
    exact congrArg (Option.map · (s.host? k)) (funext hg)
  · rfl

/-- What a host is on the one server says what is looked up and configured on the other. -/
theorem exists_host? (h : SameRegistries s t) {k : HostId} {x y : Host β}
    (hx : s.host? k = some x) (hy : t.host? k = some y) :
    y.registry = x.registry ∧ y.setup = x.setup := by
  have hk := h k
  rw [hx, hy, Option.map_some, Option.map_some] at hk
  exact Prod.mk.inj (Option.some.inj hk)

end Server.SameRegistries

/-! ## Scripts that make no definitions -/

/-- The query may change what is looked up: it defines or removes a function, or has a library run,
which may do so. -/
def Query.MayDefine : Query β → Prop
  | define _ | delete _ _ | importModule _ => True
  | _ => False

section

variable [StateStore σ] {s t : Server σ β} {id : HostId}

/-- Data of an app has nothing to do with its functions. -/
theorem StorageStep.sameRegistries (h : StorageStep id s t) : SameRegistries s t := by
  have hhold : ∀ (k : HostId) (x : Host β) (blob : Option Blob),
      SameRegistries s (s.hold k x blob) :=
    fun k _ blob => .modifyHost s k (g := (·.hold blob)) fun _ => rfl
  cases h with
  | request hh r file kind shared hs => exact .refl s
  | answer => exact .refl s
  | @keep x n hh hn hw blob => exact hhold _ x blob
  | @save x n hh hn hw blob hr =>
      let u := (s.hold (s.rootOf id) x blob).request (.ofState blob) (.globalState n)
      have hopen : SameRegistries u (u.openWindow (s.rootOf id)) :=
        .modifyHost u _ (g := (·.setTimeout u.settings.saveDebounceTicks)) fun _ => rfl
      have hheld : SameRegistries s u := hhold _ x blob
      exact hheld.trans hopen
  | @refuse x n hh hn hw blob e hr => exact hhold _ x blob

end

namespace ServerM

variable [StateStore σ] {co : Collaborators β} {run : Runner σ β} {frame : Frame} {id : HostId}
  {s : Server σ β}

theorem sameRegistries_writeGlobalState (hs : s.Keyed) (id : HostId) (blob : Option Blob) :
    SameRegistries s ((writeGlobalState id blob).exec s) := by
  cases hh : s.host? (s.rootOf id) with
  | none =>
      unfold writeGlobalState
      rw [exec_bind, eval_get, exec_get, exec_bind, eval_host?, exec_host?, hh]
      exact .refl s
  | some h =>
      cases hn : h.name? with
      | none =>
          unfold writeGlobalState
          rw [exec_bind, eval_get, exec_get, exec_bind, eval_host?, exec_host?, hh]
          dsimp only
          rw [exec_ite, if_pos (by simp [hn])]
          exact .refl s
      | some name => exact (storageStep_writeGlobalState id hs hh hn blob).1.sameRegistries

omit [StateStore σ] in
/-- A use of resources leaves what is looked up if it does so for each host that may use them. -/
theorem sameRegistries_withScope {shared : Bool} {denied : α}
    {use : Host β → ServerM σ β (Except StoreError α)}
    (huse : ∀ h, SameRegistries s ((use h).exec s)) :
    SameRegistries s ((withScope id shared denied use).exec s) := by
  unfold withScope
  rw [exec_bind, eval_host?, exec_host?]
  cases s.host? id with
  | none => exact .refl s
  | some h =>
      dsimp only
      rw [exec_ite]
      split
      · exact .refl s
      · exact huse h

/-- A query that defines and removes nothing, and runs no library, leaves what is looked up. -/
theorem sameRegistries_answer (hs : s.Keyed) {q : Query β} (hq : ¬ q.MayDefine) :
    SameRegistries s ((answer co run frame q).exec s) := by
  cases q with
  | define f => exact absurd trivial hq
  | delete module name => exact absurd trivial hq
  | importModule name => exact absurd trivial hq
  | host => exact .refl s
  | isStopped => exact .refl s
  | note text => exact .refl s
  | setGlobal module name b =>
      exact .modifyHost s frame.host fun h => by rw [Host.registry_setGlobal]; rfl
  | defer label =>
      unfold answer
      rw [exec_bind, eval_host?, exec_host?]
      cases hh : s.host? frame.host with
      | none => exact .refl s
      | some h =>
          have hkey : h.id = frame.host := hs hh
          have hdefer : SameRegistries s
              (s.modifyHost frame.host fun h => (h.addProducer label).2) :=
            .modifyHost s frame.host fun _ => rfl
          rw [← Server.insertHost_eq_modifyHost (fun h => (h.addProducer label).2) hh rfl hkey]
            at hdefer
          exact hdefer
  | force b =>
      cases b with
      | value v => exact .refl s
      | deferred index =>
          unfold answer force
          rw [exec_bind, eval_host?, exec_host?]
          cases (s.host? frame.host).bind (·.producers[index]?) with
          | none => exact .refl s
          | some producer => exact .modifyHost s frame.host fun _ => rfl
  | writeState blob => exact sameRegistries_writeGlobalState hs frame.host blob
  | readTag file shared =>
      refine sameRegistries_withScope fun h => ?_
      cases file <;> exact .refl s
  | writeTag blob file shared =>
      refine sameRegistries_withScope fun h => ?_
      cases file with
      | some file => exact .refl s
      | none => exact sameRegistries_writeGlobalState hs frame.host (some blob)
  | appendLog file shared typeName lines => exact sameRegistries_withScope fun h => .refl s
  | readText file shared => exact sameRegistries_withScope fun h => .refl s
  | remove file shared typeName => exact sameRegistries_withScope fun h => .refl s

/-- A script that makes only such queries leaves what is looked up. -/
theorem sameRegistries_runScript (hs : s.Keyed) (frame : Frame) (depth : Nat)
    {script : Script β (Except EvalError Value)} (hscript : script.Every fun q => ¬ q.MayDefine) :
    SameRegistries s ((runScript co depth frame script).exec s) := by
  cases depth with
  | zero => exact .refl s
  | succ depth =>
      show SameRegistries s ((script.interpret (answer co (runScript co depth) frame)).exec s)
      induction script generalizing s with
      | done a => exact .refl s
      | ask q next ih =>
          have hR : CodeRelation frame.host
              (CodeSteps frame.host : Server σ β → Server σ β → Prop) :=
            codeRelation_codeSteps frame.host
          have hsteps : CodeSteps frame.host s ((answer co (runScript co depth) frame q).exec s) :=
            relates_answer hR (runsBy_runScript hR depth) rfl q hs
          exact (sameRegistries_answer hs hscript.1).trans
            (ih _ (hsteps.frame.keyed hs) (hscript.2 _))

/-- A hook whose script makes only such queries leaves what is looked up, whatever becomes of it. -/
theorem sameRegistries_callHookWith (hs : s.Keyed) (frame : Frame) (f : StoredFunction β)
    (depth : Nat)
    (hscript : (co.evaluator.callFunction frame f []).Every fun q => ¬ q.MayDefine) :
    SameRegistries s ((callHookWith co (runScript co depth) frame f []).exec s) := by
  have hcalled : SameRegistries s ((evaluate co (runScript co depth) frame f []).exec s) := by
    unfold evaluate
    rw [exec_bind, eval_host?, exec_host?]
    cases s.host? frame.host with
    | none => exact .refl s
    | some h =>
        have hkeyed : (s.record (.asked frame (.call f []))).Keyed := hs
        exact sameRegistries_runScript hkeyed frame depth hscript
  unfold callHookWith
  rw [exec_bind, eval_get, exec_get, exec_ite]
  split
  · exact .refl s
  · cases co.evaluator.accepts f [] with
    | error reason => exact .refl s
    | ok u =>
        dsimp only
        rw [exec_bind]
        cases (evaluate co (runScript co depth) frame f (([] : List Value).map .value)).eval s with
        | ok v => exact hcalled
        | error e =>
            obtain ⟨new, hreport⟩ := exec_reportFailure_eq co frame.host "Callback failed" e
              (s := (evaluate co (runScript co depth) frame f []).exec s)
            dsimp only
            rw [exec_bind]
            show SameRegistries s ((reportFailure co frame.host "Callback failed" e).exec
              ((evaluate co (runScript co depth) frame f []).exec s))
            rw [hreport]
            exact hcalled

end ServerM

/-! ## When a definition fails -/

namespace ServerM

variable {co : Collaborators β} {run : Runner σ β} {s : Server σ β} {id : HostId} {h : Host β}
  {f : StoredFunction β}

/-- The configuration function answers with a configuration, or the server is left as the function
has left it. -/
theorem readConfig_cases (co : Collaborators β) (run : Runner σ β) (hh : s.host? id = some h)
    (hfun : h.function? HookKind.configName = some f) :
    let hook := callHookWith co run (configFrame co id) f []
    (∃ v, hook.eval s = .ok v ∧ v.IsConfig ∧ (readConfig co run id).eval s = .ok ()) ∨
      (∀ v, hook.eval s = .ok v → ¬ v.IsConfig) ∧
        (∃ e, (readConfig co run id).eval s = .error e) ∧
          (readConfig co run id).exec s = hook.exec s := by
  intro hook
  have hhook : callHookWith co run { host := id, actor := co.world.serverActor } f [] = hook := rfl
  unfold readConfig
  rw [eval_bind, exec_bind, eval_host?, exec_host?, hh, Option.bind_some, hfun]
  dsimp only
  rw [eval_bind, exec_bind, hhook]
  cases hv : hook.eval s with
  | error x => exact .inr ⟨fun v h => (by cases h), ⟨_, rfl⟩, rfl⟩
  | ok v =>
      dsimp only
      cases hc : Configuration.ofValue v with
      | error e =>
          refine .inr ⟨fun w hw => ?_, ⟨_, rfl⟩, rfl⟩
          obtain rfl := Except.ok.inj hw
          rw [← Configuration.exists_ofValue_iff, hc]
          exact fun ⟨_, h⟩ => (by cases h)
      | ok c => exact .inl ⟨v, rfl, Configuration.exists_ofValue_iff.1 ⟨c, hc⟩, rfl⟩

/-- A definition that does not have a configuration read succeeds. -/
theorem eval_defineWith_of_not_config (hh : s.host? id = some h)
    (hnot : ¬ (f.name = HookKind.configName ∧ h.owner = none ∧ moduleKey f.module = h.mainKey)) :
    (defineWith co run id f).eval s = .ok () := by
  by_cases hname : f.name = HookKind.configName
  · refine (defineWith_config_elsewhere hh hname ?_).1
    by_contra helse
    rw [not_or, not_not, not_not] at helse
    exact hnot ⟨hname, helse⟩
  · unfold defineWith
    rw [eval_bind, eval_host?, exec_host?, hh]
    dsimp only
    rw [eval_bind, eval_ite]
    split
    · rfl
    · cases hkind : HookKind.ofName f.name with
      | config => exact absurd (HookKind.ofName_eq_config hkind) hname
      | _ => rfl

/-- A definition fails just if it is that of the configuration function in the main module of a root
and the function does not answer with a configuration.  What it leaves then is what the function has
left, and that has been called on a server where it was entered already. -/
theorem defineWith_fails_iff (co : Collaborators β) (run : Runner σ β) (hh : s.host? id = some h)
    (f : StoredFunction β) :
    let hook := callHookWith co run (configFrame co id) f []
    let called := s.modifyHost id (·.insertFunction f)
    ((∃ e, (defineWith co run id f).eval s = .error e) ↔
      f.name = HookKind.configName ∧ h.owner = none ∧ moduleKey f.module = h.mainKey ∧
        ∀ v, hook.eval called = .ok v → ¬ v.IsConfig) ∧
    ∀ e, (defineWith co run id f).eval s = .error e →
      (defineWith co run id f).exec s = hook.exec called := by
  intro hook called
  by_cases hconfig :
      f.name = HookKind.configName ∧ h.owner = none ∧ moduleKey f.module = h.mainKey
  · obtain ⟨hname, hroot, hmain⟩ := hconfig
    obtain ⟨hown, hfun⟩ := config_insertFunction hh hmain hname
    obtain ⟨heval, hexec⟩ : (defineWith co run id f).eval s = (readConfig co run id).eval called ∧
        (defineWith co run id f).exec s = (readConfig co run id).exec called :=
      defineWith_config_root hh hname hroot hmain
    rw [heval, hexec]
    rcases readConfig_cases co run hown hfun with
      ⟨v, hv, hconfig, hok⟩ | ⟨hno, hfails, hleft⟩
    · rw [hok]
      exact ⟨⟨fun ⟨_, h⟩ => (by cases h), fun h => absurd hconfig (h.2.2.2 v hv)⟩,
        fun _ h => (by cases h)⟩
    · exact ⟨iff_of_true hfails ⟨hname, hroot, hmain, hno⟩, fun _ _ => hleft⟩
  · rw [eval_defineWith_of_not_config hh hconfig]
    exact ⟨⟨fun ⟨_, h⟩ => (by cases h), fun h => absurd ⟨h.1, h.2.1, h.2.2.1⟩ hconfig⟩,
      fun _ h => (by cases h)⟩

end ServerM

/-! ## What a failed definition leaves -/

/-- What the definition of a function leaves of a host when it has failed: the function is the one
that is looked up, and that is all that is different. -/
structure Host.HalfDefined (x y : Host β) (f : StoredFunction β) : Prop where
  entered : y.function? HookKind.configName = some f
  others : ∀ key name, (key, name) ≠ (x.mainKey, HookKind.configName) →
    y.registry key name = x.registry key name
  /-- Nothing looked up is different just if the function was looked up before. -/
  unchanged_iff : y.registry = x.registry ↔ x.function? HookKind.configName = some f

/-- A function that has been entered and not taken back. -/
theorem Host.halfDefined_of_registry_eq {x y : Host β} {f : StoredFunction β}
    (hmain : moduleKey f.module = x.mainKey) (hname : f.name = HookKind.configName)
    (hkey : y.mainKey = x.mainKey) (hy : y.registry = (x.insertFunction f).registry) :
    x.HalfDefined y f := by
  have hself : y.registry x.mainKey HookKind.configName = some f := by
    rw [hy, registry_insertFunction, if_pos ⟨hmain, hname⟩]
  have hothers : ∀ key name, (key, name) ≠ (x.mainKey, HookKind.configName) →
      y.registry key name = x.registry key name := by
    intro key name hne
    rw [hy, registry_insertFunction, hmain, hname, if_neg]
    rintro ⟨rfl, rfl⟩
    exact hne rfl
  refine ⟨by rw [function?_eq_registry, hkey, hself], hothers, ?_⟩
  rw [function?_eq_registry]
  constructor
  · intro hsame
    rw [← hsame, hself]
  · intro hbefore
    funext key name
    by_cases hat : (key, name) = (x.mainKey, HookKind.configName)
    · obtain ⟨rfl, rfl⟩ := Prod.mk.inj hat
      rw [hself, hbefore]
    · exact hothers key name hat

variable [StateStore σ] {r s : Server σ β} {id : HostId} {h : Host β}

/-- At every moment of every run, also while code runs: a definition under a live host fails just if
the host is a root, the function is the configuration function of its main module, and it does not
answer with a configuration.  A failed definition leaves the server as the function has left it, the
function entered.  If the function has left what is looked up as it was when it was called, which it
does if its script makes no definitions, the failed definition is in place, and has replaced any
definition from before; the configuration of the host is the one from before. -/
theorem halfDefined_of_reachable {allowed : Catalogue → Prop} (hr : Reachable allowed r)
    (hrs : Steps (fun _ _ => True) r s) (hh : s.host? id = some h) (f : StoredFunction β)
    (co : Collaborators β) (depth : Nat) :
    let define := defineWith co (runScript co depth) id f
    let hook := callHookWith co (runScript co depth) (configFrame co id) f []
    let called := s.modifyHost id (·.insertFunction f)
    ((∃ e, define.eval s = .error e) ↔
      f.name = HookKind.configName ∧ h.owner = none ∧ moduleKey f.module = h.mainKey ∧
        ∀ v, hook.eval called = .ok v → ¬ v.IsConfig) ∧
    ∀ e, define.eval s = .error e →
      define.exec s = hook.exec called ∧
      ∃ x, (define.exec s).host? id = some x ∧
        (x.registry = (h.insertFunction f).registry → h.HalfDefined x f) ∧
        (((co.evaluator.callFunction (configFrame co id) f []).Every fun q => ¬ q.MayDefine) →
          h.HalfDefined x f ∧ x.setup = h.setup) := by
  intro define hook called
  have ha : Arena (fun _ _ => True) s := Steps.arena (hr.arena fun _ _ _ _ _ => trivial) hrs
  obtain ⟨hiff, hleft⟩ := defineWith_fails_iff co (runScript co depth) hh f
  refine ⟨hiff, fun e he => ?_⟩
  obtain ⟨hname, _, hmain, _⟩ := hiff.1 ⟨e, he⟩
  obtain ⟨hown, _⟩ := config_insertFunction hh hmain hname
  have hdone : define.exec s = hook.exec called := hleft e he
  have hkeyed : called.Keyed := ha.keyed.modifyHost id fun _ => rfl
  -- the hook leaves the host in place, with the same main module
  have hR : CodeRelation id (CodeSteps id : Server σ β → Server σ β → Prop) :=
    codeRelation_codeSteps id
  have hsteps : CodeSteps id called (hook.exec called) :=
    relates_callHookWith hR (runsBy_runScript hR depth) rfl f [] hkeyed
  obtain ⟨x, hx, hplace⟩ := hsteps.frame.samePlaces.symm.host? hown
  have hkey : x.mainKey = h.mainKey := by
    have hn := Host.name?_of_place_eq hplace
    rw [Host.mainKey, ← hn]
    rfl
  refine ⟨hdone, x, by rw [hdone, hx], fun hregistry => ?_, fun hscript => ?_⟩
  · exact Host.halfDefined_of_registry_eq hmain hname hkey hregistry
  · obtain ⟨hregistry, hsetup⟩ :=
      (sameRegistries_callHookWith hkeyed (configFrame co id) f depth hscript).exists_host? hown hx
    exact ⟨Host.halfDefined_of_registry_eq hmain hname hkey hregistry, hsetup⟩

/-- An evaluator for which the body of a function says whether it answers with a configuration. -/
def answering : Evaluator Bool where
  runModule _ _ := .done (.ok .null)
  callFunction _ f _ := .done (.ok (if f.body then .map [] else .null))
  accepts f arguments := f.acceptsArity arguments
  produce _ _ := .null

/-- A configuration function for the market. -/
def marketHook (answers : Bool) : StoredFunction Bool :=
  { name := "__config", module := some "market", parameters := [], body := answers }

/-- The market with the number 1. -/
def beginMarket : Operation Bool :=
  .createApplication (some { name := "market", code := some "" }) true .server

/-- The market is configured, and then defines a function that does not answer with a
configuration. -/
theorem halfDefined_market :
    let co := Collaborators.plain answering marketCatalogue
    let s : Server MemoryStore Bool :=
      Operation.runAll co [beginMarket, .define 1 (marketHook true)] (.new ∅ {})
    let define : ServerM MemoryStore Bool _ := ServerM.define co 1 (marketHook false)
    Reachable (fun _ => True) s ∧ ∃ h e x, s.host? 1 = some h ∧ define.eval s = .error e ∧
      (define.exec s).host? 1 = some x ∧ h.HalfDefined x (marketHook false) ∧
      x.setup = h.setup := by
  intro co s define
  have hs : Reachable (fun _ => True) s := .runAll trivial _ (.new _ _)
  have hlive : (s.host? 1).isSome := by decide +kernel
  obtain ⟨h, hh⟩ := Option.isSome_iff_exists.1 hlive
  obtain ⟨e, he⟩ : ∃ e, define.eval s = .error e := by
    have hfails : (define.eval s).toOption = none := by decide +kernel
    cases hanswer : define.eval s with
    | error e => exact ⟨e, rfl⟩
    | ok u =>
        rw [hanswer] at hfails
        cases hfails
  obtain ⟨-, x, hx, -, hquiet⟩ :=
    (halfDefined_of_reachable hs .refl hh (marketHook false) co maxDepth).2 e he
  exact ⟨hs, h, e, x, hh, he, hx, hquiet trivial⟩

/-- The definition of a function that makes no definitions itself fails, and yet the function has
replaced the one that was looked up before, if there was one, and is looked up now if there was
none. -/
theorem replaced_market :
    let co := Collaborators.plain answering marketCatalogue
    let fresh : Server MemoryStore Bool := Operation.runAll co [beginMarket] (.new ∅ {})
    let configured : Server MemoryStore Bool :=
      ((Operation.define 1 (marketHook true)).run co).exec fresh
    let define : ServerM MemoryStore Bool _ := ServerM.define co 1 (marketHook false)
    let lookedUp (s : Server MemoryStore Bool) : Option Bool :=
      ((s.host? 1).bind (·.function? "__config")).map (·.body)
    Reachable (fun _ => True) fresh ∧ Reachable (fun _ => True) configured ∧
      (∀ frame arguments, (co.evaluator.callFunction frame (marketHook false) arguments).Every
        fun q => ¬ q.MayDefine) ∧
      (define.eval configured).toOption = none ∧ lookedUp configured = some true ∧
      lookedUp (define.exec configured) = some false ∧
      (define.eval fresh).toOption = none ∧ lookedUp fresh = none ∧
      lookedUp (define.exec fresh) = some false := by
  intro co fresh configured define lookedUp
  have hfresh : Reachable (fun _ => True) fresh := .runAll trivial _ (.new _ _)
  exact ⟨hfresh, hfresh.step co trivial _, fun _ _ => trivial, by decide +kernel, by decide +kernel,
    by decide +kernel, by decide +kernel, by decide +kernel, by decide +kernel⟩

end ScriptHost
