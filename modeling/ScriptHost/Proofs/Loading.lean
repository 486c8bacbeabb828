import Mathlib
import ScriptHost.Proofs.Agreement
import ScriptHost.Proofs.Calls
import ScriptHost.Proofs.Runs
/-!
# Loading ends

Code that runs may have more code run: an import runs a library, and the configuration function of a
root is called when it is defined.  Both can nest, and libraries may import each other in circles.
Still the run of a module ends.  A library is marked before it is run, so that the runs which
imports start can nest no deeper than there are modules in the source.  Between two such runs only
calls of configuration functions nest, and a function has a smaller body than the code that defines
it.

How deep evaluations may nest is limited in `ServerM.runScript`.  That a run ends is to say that it
does not come near the limit: it is the same for every limit from some number on, and it is the same
when code that would nest deeper is run in any other way.

## Main definitions

* `Evaluator.Literal`: code is finite text that carries the functions it defines.
* `ServerM.nestImports`: runs in which imports nest only so deep, and calls between two imports.
* `Server.unimported`: how many modules are left to import under a host.
* `ServerM.Agree`: two ways to run scripts that do the same.

## Main statements

* `RunSteps.imported_suffix`: what has been imported stays imported.
* `ServerM.importModule_cases`: what an import has run, it has marked before.
* `ServerM.runModule_nestImports`: the run of a module ends.
-/

namespace ScriptHost

variable {σ β α γ : Type}

/-! ## Code as text -/

/-- Every query that a script may come to is of some kind. -/
def Script.Every (P : Query β → Prop) : Script β α → Prop
  | .done _ => True
  | .ask q next => P q ∧ ∀ a, (next a).Every P

theorem Script.Every.mono {P Q : Query β → Prop} (hPQ : ∀ q, P q → Q q) {script : Script β α}
    (h : script.Every P) : script.Every Q := by
  induction script with
  | done a => trivial
  | ask q next ih => exact ⟨hPQ q h.1, fun a => ih a (h.2 a)⟩

/-- A function that the query defines has a body below a certain size. -/
def Query.DefinesBelow (size : β → Nat) (n : Nat) : Query β → Prop
  | define f => size f.body < n
  | _ => True

theorem Query.DefinesBelow.mono {size : β → Nat} {m n : Nat} (hmn : m ≤ n) {q : Query β}
    (h : q.DefinesBelow size m) : q.DefinesBelow size n := by
  cases q with
  | define f => exact Nat.lt_of_lt_of_le h hmn
  | _ => trivial

/-- Code is finite text, and what it defines is part of it: the body of a function is smaller than
the code that defines the function. -/
structure Evaluator.Literal (e : Evaluator β) (moduleSize : Module → Nat) (size : β → Nat) :
    Prop where
  runModule : ∀ frame module,
    (e.runModule frame module).Every (Query.DefinesBelow size (moduleSize module))
  callFunction : ∀ frame f arguments,
    (e.callFunction frame f arguments).Every (Query.DefinesBelow size (size f.body))

/-! ## What has been imported -/

section

variable {s t : Server σ β} {id : HostId}

theorem RunStep.nextId_le (h : RunStep s t) : s.nextId ≤ t.nextId := by
  cases h with
  | rest h => exact h.nextId
  | load hlt hb actor => exact hb.nextId
  | importModule hh hf module hm => exact Nat.le_refl _

/-- A step leaves what has been imported under a host, and may add to it. -/
theorem RunStep.imported_suffix (h : RunStep s t) (hid : id < s.nextId) {y : Host β}
    (hy : t.host? id = some y) : ∃ x, s.host? id = some x ∧ x.imported <:+ y.imported := by
  have hkept : ∀ {news : HostId → Option Module → Prop} {b : Server σ β}, s.Admits news b →
      b.host? id = some y → ∃ x, s.host? id = some x ∧ x.imported <:+ y.imported := by
    intro news b hb hy
    rcases hb.host hy with ⟨x, hx, hsources⟩ | ⟨hle, _⟩
    · exact ⟨x, hx, (Host.eq_of_sources hsources).2 ▸ List.suffix_refl _⟩
    · exact absurd hid (Nat.not_lt.2 hle)
  cases h with
  | rest h => exact hkept h hy
  | load hlt hb actor => exact hkept hb hy
  | @importModule k h hh frame hf module hm =>
      have hhost := s.host?_modifyHost k id (·.markImported module.name)
      have hy' := hhost.symm.trans hy
      split at hy'
      · obtain ⟨x, hx, rfl⟩ := Option.map_eq_some_iff.1 hy'
        exact ⟨x, hx, List.suffix_cons _ _⟩
      · exact ⟨y, hy', List.suffix_refl _⟩

/-- What has been imported under a host stays imported as long as the host is there. -/
theorem RunSteps.imported_suffix (h : RunSteps s t) (hid : id < s.nextId) {y : Host β}
    (hy : t.host? id = some y) : ∃ x, s.host? id = some x ∧ x.imported <:+ y.imported := by
  have hnext : ∀ {b}, RunSteps s b → s.nextId ≤ b.nextId := by
    intro b hb
    induction hb with
    | refl => exact Nat.le_refl _
    | tail _ hstep ih => exact ih.trans hstep.nextId_le
  induction h generalizing y with
  | refl => exact ⟨y, hy, List.suffix_refl _⟩
  | tail hsteps hstep ih =>
      obtain ⟨x, hx, hsuffix⟩ := hstep.imported_suffix (hid.trans_le (hnext hsteps)) hy
      obtain ⟨w, hw, hsuffix'⟩ := ih hx
      exact ⟨w, hw, hsuffix'.trans hsuffix⟩

/-- How many of some modules have not been imported under a host. -/
def Server.unimported (s : Server σ β) (names : Finset String) (id : HostId) : Nat :=
  ((s.host? id).map fun h => (names \ h.imported.toFinset).card).getD 0

namespace Server

variable {names : Finset String}

theorem unimported_of_host? {h : Host β} (hh : s.host? id = some h) :
    s.unimported names id = (names \ h.imported.toFinset).card := by
  rw [unimported, hh]
  rfl

theorem unimported_le_card (s : Server σ β) (names : Finset String) (id : HostId) :
    s.unimported names id ≤ names.card := by
  cases hh : s.host? id with
  | none =>
      rw [unimported, hh]
      exact Nat.zero_le _
  | some h =>
      rw [unimported_of_host? hh]
      exact Finset.card_le_card Finset.sdiff_subset

/-- To mark a module leaves fewer. -/
theorem unimported_markImported_lt {h : Host β} {name : String} (hh : s.host? id = some h)
    (hname : name ∈ names) (hnew : name ∉ h.imported) :
    (s.modifyHost id (·.markImported name)).unimported names id < s.unimported names id := by
  have hmarked : (s.modifyHost id (·.markImported name)).host? id = some (h.markImported name) := by
    rw [host?_modifyHost_self, hh, Option.map_some]
  rw [unimported_of_host? hmarked, unimported_of_host? hh]
  apply Finset.card_lt_card
  refine Finset.ssubset_iff_of_subset ?_ |>.2 ⟨name, ?_, ?_⟩
  · intro n hn
    simp only [Finset.mem_sdiff, Host.markImported, List.toFinset_cons, Finset.mem_insert] at hn ⊢
    exact ⟨hn.1, fun hmem => hn.2 (.inr hmem)⟩
  · simp [hname, hnew]
  · simp [Host.markImported]

/-- Code does not make it more. -/
theorem unimported_le_of_actions [StateStore σ] (hs : s.Numbered) (h : Actions id s t) :
    t.unimported names id ≤ s.unimported names id := by
  cases hy : t.host? id with
  | none =>
      rw [unimported, hy]
      exact Nat.zero_le _
  | some y =>
      have hown := h.codeSteps.frame.own
      rw [hy, Option.map_some] at hown
      obtain ⟨x, hx, _⟩ := Option.map_eq_some_iff.1 hown.symm
      obtain ⟨x', hx', hsuffix⟩ := h.runSteps.imported_suffix (hs.lt_nextId hx) hy
      rw [unimported_of_host? hy, unimported_of_host? hx']
      refine Finset.card_le_card (Finset.sdiff_subset_sdiff (Finset.Subset.refl _) fun n hn => ?_)
      exact List.mem_toFinset.2 (hsuffix.subset (List.mem_toFinset.1 hn))

end Server

end

namespace ServerM

/-! ## Ways to run that tell imports from calls -/

section

variable [StateStore σ]

/-- Answers a query of code; a library is run in one way, and a function is called in another. -/
def answerWith (co : Collaborators β) (runImport runCall : Runner σ β) (frame : Frame) :
    (q : Query β) → ServerM σ β q.Answer
  | .importModule name => importModule co runImport frame name
  | q => answer co runCall frame q

/-- Runs a script in which calls of functions nest less than `calls` deep.  Libraries are run in a
way of their own, and what nests deeper is left to `rest`. -/
def nestCalls (co : Collaborators β) (runImport rest : Runner σ β) : Nat → Runner σ β
  | 0 => rest
  | calls + 1 => fun frame script =>
    script.interpret (answerWith co runImport (nestCalls co runImport rest calls) frame)

/-- Runs a script from which runs of libraries nest less than `imports` deep, and calls of functions
less than `calls` deep in each of them.  What nests deeper is left to `rest`. -/
def nestImports (co : Collaborators β) (calls : Nat) (rest : Runner σ β) : Nat → Runner σ β
  | 0 => rest
  | imports + 1 => nestCalls co (nestImports co calls rest imports) rest calls

end

/-! ## Ways to run that do the same -/

section

variable {s : Server σ β}

/-- Operations that begin with the same and go on with the same do the same. -/
theorem run_bind_congr {m m' : ServerM σ β α} {f f' : α → ServerM σ β γ} (hm : m.run s = m'.run s)
    (hf : (f (m.eval s)).run (m.exec s) = (f' (m.eval s)).run (m.exec s)) :
    (m >>= f).run s = (m' >>= f').run s := by
  have heval : m.eval s = m'.eval s := congrArg Prod.fst hm
  have hexec : m.exec s = m'.exec s := congrArg Prod.snd hm
  rw [run_bind, run_bind, hf, heval, hexec]

theorem run_map_congr {m m' : ServerM σ β α} (f : α → γ) (hm : m.run s = m'.run s) :
    (f <$> m).run s = (f <$> m').run s := by
  rw [StateT.run_map, StateT.run_map, hm]

theorem exec_congr {m m' : ServerM σ β α} (hm : m.run s = m'.run s) : m.exec s = m'.exec s :=
  congrArg Prod.snd hm

/-- Scripts do the same when their queries are answered in the same way, as long as a property that
the answers keep holds of the server. -/
theorem run_interpret_congr {P : Query β → Prop} {I : Server σ β → Prop}
    {handle handle' : (q : Query β) → ServerM σ β q.Answer}
    (hkeep : ∀ q s, I s → I ((handle' q).exec s))
    (hsame : ∀ q s, P q → I s → (handle q).run s = (handle' q).run s) {script : Script β α}
    (hscript : script.Every P) (hs : I s) :
    (script.interpret handle).run s = (script.interpret handle').run s := by
  induction script generalizing s with
  | done a => rfl
  | ask q next ih =>
      have hfirst := hsame q s hscript.1 hs
      refine run_bind_congr hfirst (ih _ (hscript.2 _) ?_)
      rw [exec_congr hfirst]
      exact hkeep q s hs

end

/-- Two ways to run scripts do the same for scripts under a host that define only functions below a
certain size, as long as only so many modules are left to import there. -/
def Agree (size : β → Nat) (names : Finset String) (id : HostId) (left n : Nat)
    (run run' : Runner σ β) : Prop :=
  ∀ ⦃frame : Frame⦄ ⦃script : Script β (Except EvalError Value)⦄ ⦃s : Server σ β⦄,
    frame.host = id → script.Every (Query.DefinesBelow size n) → s.Numbered →
    s.unimported names id ≤ left → (run frame script).run s = (run' frame script).run s

section

variable {co : Collaborators β} {moduleSize : Module → Nat} {size : β → Nat}
  {names : Finset String} {id : HostId} {left n : Nat} {run run' : Runner σ β} {s : Server σ β}

theorem Agree.mono {left' n' : Nat} (h : Agree size names id left n run run') (hleft : left' ≤ left)
    (hn : n' ≤ n) : Agree size names id left' n' run run' :=
  fun _ _ _ hf hscript hs hunimported =>
    h hf (hscript.mono fun _ => .mono hn) hs (hunimported.trans hleft)

/-! ### Calls of configuration functions -/

variable (hliteral : co.evaluator.Literal moduleSize size) (hs : s.Numbered)
  (hleft : s.unimported names id ≤ left)

include hliteral hs hleft

theorem run_evaluate_congr {f : StoredFunction β}
    (h : Agree size names id left (size f.body) run run') {frame : Frame} (hf : frame.host = id)
    (arguments : List Binding) :
    (evaluate co run frame f arguments).run s = (evaluate co run' frame f arguments).run s := by
  unfold evaluate
  refine run_bind_congr rfl ?_
  rw [eval_host?, exec_host?]
  cases s.host? frame.host with
  | none => rfl
  | some x =>
      refine run_bind_congr rfl (run_map_congr _ ?_)
      exact h hf (hliteral.callFunction frame f arguments) (hs.record _) hleft

theorem run_callHookWith_congr {f : StoredFunction β}
    (h : Agree size names id left (size f.body) run run') {frame : Frame} (hf : frame.host = id)
    (values : List Value) :
    (callHookWith co run frame f values).run s = (callHookWith co run' frame f values).run s := by
  unfold callHookWith
  refine run_bind_congr rfl ?_
  rw [eval_get, exec_get]
  split
  · rfl
  · split
    · rfl
    · exact run_bind_congr (run_evaluate_congr hliteral hs hleft h hf _) rfl

/-- The only function that is called when code defines one is the function that is defined. -/
theorem run_defineWith_congr {f : StoredFunction β}
    (h : Agree size names id left (size f.body) run run') :
    (defineWith co run id f).run s = (defineWith co run' id f).run s := by
  unfold defineWith
  refine run_bind_congr rfl ?_
  rw [eval_host?, exec_host?]
  cases hh : s.host? id with
  | none => rfl
  | some x =>
      refine run_bind_congr rfl ?_
      rw [exec_modifyHost]
      split
      · rfl
      · rename_i hmain
        cases hk : HookKind.ofName f.name with
        | config =>
            dsimp only
            split
            · obtain ⟨hown, hfun⟩ := Server.config_insertFunction hh (not_not.1 hmain)
                (HookKind.ofName_eq_config hk)
              have hleft' : (s.modifyHost id (·.insertFunction f)).unimported names id ≤ left := by
                rw [Server.unimported_of_host? hown]
                rw [Server.unimported_of_host? hh] at hleft
                exact hleft
              unfold readConfig
              refine run_bind_congr rfl ?_
              rw [eval_host?, exec_host?, hown, Option.bind_some, hfun]
              exact run_bind_congr (run_callHookWith_congr hliteral
                (hs.modifyHost id (f := (·.insertFunction f)) fun _ => rfl) hleft' h rfl []) rfl
            · rfl
        | _ => rfl

end

/-! ### Imports -/

/-- What an import amounts to.  Either nothing is run, in whatever way libraries are run; or a
library that has not been imported yet is marked, and then it is run. -/
theorem importModule_cases (co : Collaborators β) (frame : Frame) (name : String)
    (s : Server σ β) :
    (∃ result t, ∀ run : Runner σ β, (importModule co run frame name).run s = (result, t)) ∨
    ∃ (module : Module) (h : Host β) (t : Server σ β),
      (co.catalogue.find name true).found = some module ∧ t = (findModule co name true).exec s ∧
      t.host? frame.host = some h ∧ module.name ∉ h.imported ∧
      ∀ run : Runner σ β, (importModule co run frame name).run s =
        ((fun result => result.map fun _ => ()) <$> runModule co run frame module).run
          (t.modifyHost frame.host (·.markImported module.name)) := by
  have heval : (findModule co name true : ServerM σ β _).eval s =
      (co.catalogue.find name true).found := rfl
  have hopen : ∀ run : Runner σ β, (importModule co run frame name).run s = _ := fun run => by
    unfold importModule
    rw [run_bind, heval]
  obtain ⟨t, ht⟩ : ∃ t, t = (findModule co name true : ServerM σ β _).exec s := ⟨_, rfl⟩
  cases hfound : (co.catalogue.find name true).found.filter (·.code.isSome) with
  | none =>
      refine .inl ⟨.error (.internal s!"Unable to locate package: {name}"), t, fun run => ?_⟩
      rw [hopen, hfound, ← ht]
      rfl
  | some module =>
      have hmodule : (co.catalogue.find name true).found = some module :=
        (Option.filter_eq_some_iff.1 hfound).1
      cases hh : t.host? frame.host with
      | none =>
          refine .inl ⟨.error (.internal "host is gone"), t, fun run => ?_⟩
          rw [hopen, hfound, ← ht]
          dsimp only
          rw [run_bind, eval_host?, exec_host?, hh]
          rfl
      | some h =>
          by_cases himported : h.imported.contains module.name = true
          · refine .inl ⟨.ok (), t, fun run => ?_⟩
            rw [hopen, hfound, ← ht]
            dsimp only
            rw [run_bind, eval_host?, exec_host?, hh]
            dsimp only
            rw [if_pos himported]
            rfl
          · refine .inr ⟨module, h, t, hmodule, ht, hh, by simpa using himported, fun run => ?_⟩
            rw [hopen, hfound, ← ht]
            dsimp only
            rw [run_bind, eval_host?, exec_host?, hh]
            dsimp only
            rw [if_neg himported]
            rfl

section

variable [StateStore σ] {co : Collaborators β} {moduleSize : Module → Nat} {size : β → Nat}
  {names : Finset String} {id : HostId} {left n top : Nat}
  {run run' runImport runCall rest : Runner σ β} {s : Server σ β}
  (hliteral : co.evaluator.Literal moduleSize size)
  (hmodules : ∀ name module, (co.catalogue.find name true).found = some module →
    module.name ∈ names ∧ moduleSize module ≤ top)

include hliteral hmodules

/-- Libraries are run when there are fewer left to import than before. -/
theorem run_importModule_congr (hs : s.Numbered) (hleft : s.unimported names id ≤ left)
    (h : ∀ left' < left, Agree size names id left' top run run') {frame : Frame}
    (hf : frame.host = id) (name : String) :
    (importModule co run frame name).run s = (importModule co run' frame name).run s := by
  subst hf
  rcases importModule_cases co frame name s with ⟨result, t, hnone⟩ |
    ⟨module, x, t, hmodule, ht, hx, hnew, hrun⟩
  · rw [hnone, hnone]
  · have hfind : Actions frame.host s t :=
      ht ▸ relates_findModule (codeRelation_actions frame.host) name true hs.keyed
    have hfound := hfind.runSteps.numbered hs
    obtain ⟨hname, hsize⟩ := hmodules name module hmodule
    -- the mark is set before the library is run, and nothing before has taken marks away
    have hfewer := (Server.unimported_markImported_lt hx hname hnew).trans_le
      ((Server.unimported_le_of_actions hs hfind).trans hleft)
    rw [hrun, hrun]
    refine run_map_congr _ (run_bind_congr rfl ?_)
    apply h _ hfewer rfl ((hliteral.runModule frame module).mono fun _ => .mono hsize)
    · exact (hfound.modifyHost frame.host (f := (·.markImported module.name)) fun _ => rfl).record _
    · exact Nat.le_refl _

/-- Queries are answered in the same way. -/
theorem run_answerWith_congr (hs : s.Numbered) (hleft : s.unimported names id ≤ left)
    (himport : ∀ left' < left, Agree size names id left' top runImport run)
    (hcall : ∀ n' < n, Agree size names id left n' runCall run) {frame : Frame}
    (hf : frame.host = id) {q : Query β} (hq : q.DefinesBelow size n) :
    (answerWith co runImport runCall frame q).run s = (answer co run frame q).run s := by
  subst hf
  cases q with
  | define f => exact run_map_congr _ (run_defineWith_congr hliteral hs hleft (hcall _ hq))
  | importModule name => exact run_importModule_congr hliteral hmodules hs hleft himport rfl name
  | _ => rfl

/-! ### Bounds -/

/-- Between two imports calls nest no deeper than the code is large. -/
theorem agree_nestCalls
    (himport : ∀ left' < left, ∀ depth, left * (top + 1) ≤ depth →
      Agree size names id left' top runImport (runScript co depth)) :
    ∀ calls n depth, n < calls → left * (top + 1) + n < depth →
      Agree size names id left n (nestCalls co runImport rest calls) (runScript co depth) := by
  intro calls
  induction calls with
  | zero => exact fun n depth hn => absurd hn (Nat.not_lt_zero n)
  | succ calls ih =>
      intro n depth hn hdepth
      obtain ⟨depth, rfl⟩ := Nat.exists_eq_succ_of_ne_zero (Nat.ne_zero_of_lt hdepth)
      intro frame script s hf hscript hs hleft
      -- the answers keep what is assumed of the server; this is known of the runs under a limit only,
      -- since `rest` may do anything
      have hkeep : ∀ q (t : Server σ β), t.Numbered ∧ t.unimported names id ≤ left →
          ((answer co (runScript co depth) frame q).exec t).Numbered ∧
          ((answer co (runScript co depth) frame q).exec t).unimported names id ≤ left := by
        intro q t ⟨ht, hleft⟩
        have hR : CodeRelation id (Actions id : Server σ β → Server σ β → Prop) :=
          codeRelation_actions id
        have hanswer : Actions id t ((answer co (runScript co depth) frame q).exec t) :=
          relates_answer hR (runsBy_runScript hR depth) hf q ht.keyed
        exact ⟨hanswer.runSteps.numbered ht,
          (Server.unimported_le_of_actions ht hanswer).trans hleft⟩
      refine run_interpret_congr hkeep ?_ hscript ⟨hs, hleft⟩
      intro q t hq ⟨ht, hleft⟩
      refine run_answerWith_congr hliteral hmodules ht hleft ?_ ?_ hf hq
      · exact fun left' hless => himport left' hless depth (by omega)
      · -- what is called is smaller than the code that has defined it
        exact fun n' hless => ih n' depth (by omega) (by omega)

/-- Runs of libraries nest no deeper than there are modules left to import. -/
theorem agree_nestImports (left depth : Nat) (hdepth : (left + 1) * (top + 1) ≤ depth) :
    Agree size names id left top (nestImports co (top + 1) rest (left + 1))
      (runScript co depth) := by
  -- by induction on the modules that are left; calls may nest anew in the run of a library
  induction left generalizing depth with
  | zero =>
      refine agree_nestCalls hliteral hmodules ?_ (top + 1) top depth (Nat.lt_succ_self _)
        (by omega)
      exact fun left' hless => absurd hless (Nat.not_lt_zero _)
  | succ left ih =>
      refine agree_nestCalls hliteral hmodules ?_ (top + 1) top depth (Nat.lt_succ_self _) ?_
      · exact fun left' hless depth hdepth =>
          (ih depth hdepth).mono (Nat.le_of_lt_succ hless) (Nat.le_refl _)
      · rw [Nat.succ_mul] at hdepth
        omega

end

theorem host?_findModule (co : Collaborators β) (name : String) (allowLibrary : Bool)
    (s : Server σ β) (id : HostId) :
    ((findModule co name allowLibrary).exec s).host? id = s.host? id := by
  unfold findModule
  dsimp only
  rw [exec_bind]
  cases (co.catalogue.find name allowLibrary).warning <;> rfl

variable [StateStore σ]

/-- The run of a module ends, however the modules of a finite source import each other and wherever
the imports are, if code is finite text that carries the functions it defines.

Runs that imports start nest no deeper than there are names of modules, and calls of configuration
functions nest no deeper between two of them than the code is large.  So the run is the same however
code that nests deeper would be run, and it is the same under every limit that is not below these
bounds.  For each run that an import starts, the module was not among the imports of the host before
and is so when it is run; and whatever is done to a server, a host that stays keeps its imports. -/
theorem runModule_nestImports {co : Collaborators β} {s : Server σ β} (hs : s.Numbered)
    {moduleSize : Module → Nat} {size : β → Nat}
    (hliteral : co.evaluator.Literal moduleSize size) (source : Finset Module)
    (hsource : ∀ name module, (co.catalogue.find name true).found = some module → module ∈ source)
    (frame : Frame) (main : Module) :
    let names := source.image (·.name)
    let calls := max (moduleSize main) (source.sup moduleSize) + 1
    (∀ (rest : Runner σ β) (depth : Nat), (names.card + 1) * calls ≤ depth →
      (runModule co (nestImports co calls rest (names.card + 1)) frame main).run s =
        (runModule co (runScript co depth) frame main).run s) ∧
    (∀ (name : String) (t : Server σ β),
      (∃ result u, ∀ run : Runner σ β, (importModule co run frame name).run t = (result, u)) ∨
      ∃ module ∈ source, ∃ (h : Host β) (u : Server σ β),
        t.host? frame.host = some h ∧ module.name ∉ h.imported ∧
        u.host? frame.host = some { h with imported := module.name :: h.imported } ∧
        ∀ run : Runner σ β, (importModule co run frame name).run t =
          ((fun result => result.map fun _ => ()) <$> runModule co run frame module).run u) ∧
    ∀ (co' : Collaborators β) (op : Operation β) (id : HostId) {h h' : Host β},
      s.host? id = some h → ((op.run co').exec s).host? id = some h' →
        h.imported <:+ h'.imported := by
  intro names calls
  have hmodules : ∀ name module, (co.catalogue.find name true).found = some module →
      module.name ∈ names ∧ moduleSize module ≤ max (moduleSize main) (source.sup moduleSize) := by
    intro name module hfound
    have hmem := hsource name module hfound
    exact ⟨Finset.mem_image_of_mem _ hmem, le_max_of_le_right (Finset.le_sup hmem)⟩
  refine ⟨fun rest depth hdepth => ?_, fun name t => ?_, fun co' op id h h' hh hh' => ?_⟩
  · have hagree : Agree size names frame.host names.card _
        (nestImports co calls rest (names.card + 1)) (runScript co depth) :=
      agree_nestImports hliteral hmodules names.card depth hdepth
    exact run_bind_congr rfl (hagree rfl
      ((hliteral.runModule frame main).mono fun _ => .mono (le_max_left _ _)) (hs.record _)
      (Server.unimported_le_card _ _ _))
  · rcases importModule_cases co frame name t with hnone |
      ⟨module, h, u, hfound, hu, hh, hnew, hrun⟩
    · exact .inl hnone
    · refine .inr ⟨module, hsource name module hfound, h, _, ?_, hnew, ?_, hrun⟩
      · rw [← hh, hu, host?_findModule]
      · rw [Server.host?_modifyHost_self, hh]
        rfl
  · obtain ⟨x, hx, hsuffix⟩ := (op.proceeds hs).imported_suffix (hs.lt_nextId hh) hh'
    rw [hh] at hx
    rwa [Option.some.inj hx]

end ServerM

/-! ## Statements -/

/-- Statements of a small language: they import modules and define functions. -/
inductive Code where
  | done
  | importModule (name : String) (next : Code)
  | define (name : String) (body next : Code)

namespace Code

/-- The evaluation of statements; the first one that fails ends it. -/
def script : Code → Script Code (Except EvalError Value)
  | done => .done (.ok .null)
  | importModule name next => .ask (.importModule name) fun
    | .ok () => next.script
    | .error e => .done (.error e)
  | define name body next =>
    .ask (.define { name, module := none, parameters := [], body }) fun
      | .ok () => next.script
      | .error e => .done (.error e)

/-- How deep definitions nest. -/
def depth : Code → Nat
  | done => 0
  | importModule _ next => next.depth
  | define _ body next => max (body.depth + 1) next.depth

/-- The evaluator for modules that are written in this language. -/
def evaluator (program : String → Code) : Evaluator Code :=
  { Evaluator.always (.done (.ok .null)) with
    runModule := fun _ module => (program module.name).script
    callFunction := fun _ f _ => f.body.script }

theorem every_script (code : Code) {n : Nat} (hn : code.depth ≤ n) :
    code.script.Every (Query.DefinesBelow depth n) := by
  induction code with
  | done => trivial
  | importModule name next ih =>
      refine ⟨trivial, fun result => ?_⟩
      cases result with
      | ok u => exact ih hn
      | error e => trivial
  | define name body next _ ih =>
      obtain ⟨hbody, hnext⟩ := max_le_iff.1 hn
      refine ⟨hbody, fun result => ?_⟩
      cases result with
      | ok u => exact ih hnext
      | error e => trivial

/-- Such code is finite text that carries the functions it defines. -/
theorem literal_evaluator (program : String → Code) :
    (evaluator program).Literal (fun module => (program module.name).depth) depth where
  runModule _ module := every_script (program module.name) (Nat.le_refl _)
  callFunction _ f _ := every_script f.body (Nat.le_refl _)

end Code

/-- An app and two libraries. -/
def ringModules : List Module :=
  [{ name := "app", code := some "" }, { name := "colors", code := some "", isLibrary := true },
    { name := "shapes", code := some "", isLibrary := true }]

/-- The app imports both libraries, one of them when it is configured.  The libraries import each
other, themselves and the app. -/
def ringProgram : String → Code
  | "app" => .define "__config" (.importModule "colors" .done) (.importModule "shapes" .done)
  | "colors" => .importModule "colors" (.importModule "shapes" .done)
  | "shapes" => .define "__config" (.importModule "app" .done) (.importModule "shapes" .done)
  | _ => .done

namespace ServerM

/-- In the ring three runs that imports start nest in each other, as many as there are modules, and
configuration functions start two of them.  The run ends, and it would be cut off if only two such
runs were to nest. -/
theorem runModule_ring :
    let co := Collaborators.plain (Code.evaluator ringProgram)
      (MemoryModules.ofList ringModules).catalogue
    let s : Server MemoryStore Code := .new ∅ {}
    let frame : Frame := { host := .unnamed, actor := .server }
    let app : Module := { name := "app", code := some "" }
    let stuck : Runner MemoryStore Code := fun _ _ => return .error (.internal "too deep")
    s.Numbered ∧
    co.evaluator.Literal (fun module => (ringProgram module.name).depth) Code.depth ∧
    (∀ name module, (co.catalogue.find name true).found = some module →
      module ∈ ringModules.toFinset) ∧
    ((runModule co (nestImports co 2 stuck 4) frame app).exec s).runsUnder .unnamed =
      ["app", "shapes", "colors", "app"] ∧
    ((runModule co (nestImports co 2 stuck 3) frame app).exec s).journal.length <
      ((runModule co (nestImports co 2 stuck 4) frame app).exec s).journal.length ∧
    ∀ (rest : Runner MemoryStore Code) (depth : Nat), 8 ≤ depth →
      (runModule co (nestImports co 2 rest 4) frame app).run s =
        (runModule co (runScript co depth) frame app).run s := by
  intro co s frame app stuck
  have hs : s.Numbered := (Server.recounted_new ∅ {}).numbered
  have hliteral := Code.literal_evaluator ringProgram
  have hsource : ∀ name module, (co.catalogue.find name true).found = some module →
      module ∈ ringModules.toFinset := fun name module hfound =>
    List.mem_toFinset.2 (MemoryModules.of_find? hfound).1
  have hruns : ((runModule co (nestImports co 2 stuck 4) frame app).exec s).runsUnder .unnamed =
      ["app", "shapes", "colors", "app"] := by decide +kernel
  refine ⟨hs, hliteral, hsource, hruns, by decide +kernel, ?_⟩
  exact (runModule_nestImports hs hliteral ringModules.toFinset hsource frame app).1

end ServerM

end ScriptHost
