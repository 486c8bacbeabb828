import Mathlib
import ScriptHost.Proofs.Operations
import ScriptHost.Proofs.TwoRuns
/-!
# Users do not observe each other

The users of an app with a host for each of them make requests in any order, and the code of each
runs under the user's own host.  If the code that runs for one user keeps away from global state and
resources, then what becomes of this user's requests does not depend on the requests of the others:
it is the same as if nobody else had asked for anything.

## Main statements

* `Visit`, `Visit.outcomes`: requests by users, and what becomes of them.
* `Visit.agrees_outcomes`: leaving out the visits of others, by induction on the visits.
-/

namespace ScriptHost

variable {σ β : Type} {code : Codebase β} {id : HostId}

open Server

/-! ## Requests that keep to a host -/

/-- The function that a request is for belongs to the code of an app.  A function that is named is
one that is defined under the host. -/
def Invocation.StaysIn (code : Codebase β) : Invocation β → Prop
  | call _ f _ => code.functions f
  | callText _ _ _ _ => True
  | callHook _ _ f _ => code.functions f
  | command _ f _ => code.functions f
  | commandText _ _ _ _ => True

theorem ServerM.agrees_reportCommand (co : Collaborators β) (result : Except ScriptError Value) :
    Agrees code id (reportCommand co id result : ServerM σ β Value) := by
  unfold reportCommand
  cases result with
  | ok value => exact agrees_pure _
  | error e => exact (agrees_reportFailure co _ e).bind fun _ => agrees_pure _

variable [StateStore σ]

/-- A request for code of an app runs alike on servers that are alike. -/
theorem Invocation.agrees {co : Collaborators β} (hcode : code.RunsUnder co id) {i : Invocation β}
    (hi : i.StaysIn code) : ServerM.Agrees code id (i.run co id : ServerM σ β Reply) := by
  have hrun := ServerM.runsAlike_runner (σ := σ) hcode
  cases i with
  | call actor f values => exact (ServerM.agrees_callWith hcode hrun actor hi values).map _
  | callText actor name coords text =>
      exact (ServerM.agrees_callTextWith hcode hrun actor name coords text).map _
  | callHook actor origin f values =>
      exact (ServerM.agrees_callHookWith hcode hrun rfl hi values).map _
  | command actor f values =>
      exact ((ServerM.agrees_callWith hcode hrun actor hi values).bind
        (ServerM.agrees_reportCommand co)).map _
  | commandText actor name coords text =>
      exact ((ServerM.agrees_callTextWith hcode hrun actor name coords text).bind
        (ServerM.agrees_reportCommand co)).map _

/-! ## Visits -/

/-- A request that a user makes of an app. -/
structure Visit (β : Type) where
  user : String
  invocation : Invocation β

/-- What becomes of a visit: the answer, if the user has a host, and what is written into the
journal meanwhile, latest first. -/
structure Outcome (β : Type) where
  user : String
  reply : Option Reply
  activities : List (Activity β)

/-- What is new in the journal of a later server. -/
def Server.newIn (s t : Server σ β) : List (Activity β) :=
  t.journal.take (t.journal.length - s.journal.length)

omit [StateStore σ] in
theorem Server.newIn_eq {s t : Server σ β} {new : List (Activity β)}
    (h : t.journal = new ++ s.journal) : s.newIn t = new := by
  rw [newIn, h, List.length_append, Nat.add_sub_cancel, List.take_left]

namespace Visit

/-- Runs code for a user of the app with the given root, under the user's own host. -/
def run (co : Collaborators β) (root : HostId) (v : Visit β) : ServerM σ β (Option Reply) := do
  match (← ServerM.host? root).bind (·.users[v.user]?) with
  | none => return none
  | some id => some <$> v.invocation.run co id

/-- The server after one visit after the other. -/
def runAll (co : Collaborators β) (root : HostId) (visits : List (Visit β)) (s : Server σ β) :
    Server σ β :=
  visits.foldl (fun s v => (v.run co root).exec s) s

/-- What becomes of one visit after the other. -/
def outcomes (co : Collaborators β) (root : HostId) :
    List (Visit β) → Server σ β → List (Outcome β)
  | [], _ => []
  | v :: rest, s =>
    let t := (v.run co root).exec s
    { user := v.user, reply := (v.run co root).eval s, activities := s.newIn t } ::
      outcomes co root rest t

end Visit

/-! ## One visit -/

/-- In an arena that is in order, the users of an app are those who have a host. -/
structure Server.Serves (root : HostId) (users : Std.ExtTreeMap String HostId) (s : Server σ β) :
    Prop where
  arena : Arena (fun _ _ => True) s
  root : ∃ h, s.host? root = some h ∧ h.users = users

section

variable {co : Collaborators β} {root : HostId} {users : Std.ExtTreeMap String HostId}
  {s t : Server σ β} {u : String} {v : Visit β}

theorem Visit.eval_run (hs : s.Serves root users) (hu : users[v.user]? = some id) :
    (v.run co root).eval s = some ((v.invocation.run co id).eval s) := by
  obtain ⟨h, hh, rfl⟩ := hs.root
  unfold Visit.run
  rw [ServerM.eval_bind, ServerM.eval_host?, ServerM.exec_host?, hh, Option.bind_some, hu]
  rfl

theorem Visit.exec_run (hs : s.Serves root users) (hu : users[v.user]? = some id) :
    (v.run co root).exec s = (v.invocation.run co id).exec s := by
  obtain ⟨h, hh, rfl⟩ := hs.root
  unfold Visit.run
  rw [ServerM.exec_bind, ServerM.eval_host?, ServerM.exec_host?, hh, Option.bind_some, hu]
  rfl

/-- Nothing is done for a user without a host. -/
theorem Visit.exec_run_of_none (hs : s.Serves root users) (hu : users[v.user]? = none) :
    (v.run co root).exec s = s := by
  obtain ⟨h, hh, rfl⟩ := hs.root
  unfold Visit.run
  rw [ServerM.exec_bind, ServerM.eval_host?, ServerM.exec_host?, hh, Option.bind_some, hu]
  rfl

/-- A visit makes no hosts and removes none. -/
theorem Visit.serves (hs : s.Serves root users) : ((v.run co root).exec s).Serves root users := by
  cases hu : users[v.user]? with
  | none =>
      rw [Visit.exec_run_of_none hs hu]
      exact hs
  | some id =>
      rw [Visit.exec_run hs hu]
      have hsteps := v.invocation.actsUnder co id hs.arena.keyed
      obtain ⟨h, hh, rfl⟩ := hs.root
      obtain ⟨x, hx, hplace⟩ := hsteps.frame.samePlaces.symm.host? hh
      exact
        { arena := Steps.arena hs.arena hsteps.steps
          root := ⟨x, hx, (Host.users_of_place_eq hplace).symm⟩ }

/-- A visit of one user is not noticed under the host of another: the hosts of users are different
from each other and from the root that they belong to. -/
theorem Visit.alike_exec_run (hs : s.Serves root users) (hu : users[u]? = some id)
    (hv : v.user ≠ u) (h : Alike code id s t) : Alike code id ((v.run co root).exec s) t := by
  cases hother : users[v.user]? with
  | none =>
      rw [Visit.exec_run_of_none hs hother]
      exact h
  | some k =>
      rw [Visit.exec_run hs hother]
      have hframe := (v.invocation.actsUnder co k hs.arena.keyed).frame
      obtain ⟨r, hr, rfl⟩ := hs.root
      obtain ⟨x, hx, hox⟩ := hs.arena.user hr hu
      obtain ⟨y, hy, hoy⟩ := hs.arena.user hr hother
      obtain ⟨_, _, _, hlt, _⟩ := hs.arena.owner hx hox
      have hne : id ≠ k := by
        rintro rfl
        obtain rfl : x = y := Option.some.inj (hx.symm.trans hy)
        rw [hox] at hoy
        exact hv (Ownership.mk.inj (Option.some.inj hoy)).2.symm
      have hroot : id ≠ s.rootOf k := by
        rw [rootOf_eq_of_owner_eq_some hy hoy]
        exact Nat.ne_of_gt hlt
      obtain ⟨z, hz, hzt, hrest⟩ := h.host
      exact
        { host := ⟨z, (hframe.others id hne hroot).trans hz, hzt, hrest⟩
          isStopped := h.isStopped.trans hframe.isStopped.symm }

/-- A visit of the user whose host it is runs alike. -/
theorem Visit.sameRun (hcode : code.RunsUnder co id) (hs : s.Serves root users)
    (ht : t.Serves root users) (hu : users[v.user]? = some id) (hv : v.invocation.StaysIn code)
    (h : Alike code id s t) : SameRun code id (v.run co root) s t := by
  have hrun := v.invocation.agrees (σ := σ) hcode hv h
  exact
    { eval := by
        rw [Visit.eval_run hs hu, Visit.eval_run ht hu, hrun.eval]
      alike := by
        rw [Visit.exec_run hs hu, Visit.exec_run ht hu]
        exact hrun.alike
      journal := by
        rw [Visit.exec_run hs hu, Visit.exec_run ht hu]
        exact hrun.journal }

/-! ## Any number of visits -/

/-- Leaving out the visits of others changes nothing for a user: neither what becomes of the user's
own visits, nor what is seen from the user's host afterwards. -/
theorem Visit.agrees_outcomes (hcode : code.RunsUnder co id) (hu : users[u]? = some id)
    (visits : List (Visit β)) (hvisits : ∀ v ∈ visits, v.user = u → v.invocation.StaysIn code)
    (hs : s.Serves root users) (ht : t.Serves root users) (h : Alike code id s t) :
    (Visit.outcomes co root visits s).filter (·.user == u) =
        Visit.outcomes co root (visits.filter (·.user == u)) t ∧
      Alike code id (Visit.runAll co root visits s)
        (Visit.runAll co root (visits.filter (·.user == u)) t) := by
  induction visits generalizing s t with
  | nil => exact ⟨rfl, h⟩
  | cons v rest ih =>
      have hrest : ∀ w ∈ rest, w.user = u → w.invocation.StaysIn code :=
        fun w hw => hvisits w (List.mem_cons_of_mem v hw)
      by_cases hv : v.user = u
      · -- both runs make the visit, with the same outcome
        have hrun := Visit.sameRun hcode hs ht (hv ▸ hu) (hvisits v List.mem_cons_self hv) h
        obtain ⟨new, hnew, hnew'⟩ := hrun.journal
        obtain ⟨houtcomes, halike⟩ :=
          ih hrest (Visit.serves hs) (Visit.serves ht) hrun.alike
        rw [List.filter_cons_of_pos (by simp [hv])]
        refine ⟨?_, halike⟩
        rw [Visit.outcomes, Visit.outcomes, List.filter_cons_of_pos (by simp [hv]), houtcomes,
          newIn_eq hnew, newIn_eq hnew', hrun.eval]
      · -- only the first run makes the visit, and the user's host does not notice
        obtain ⟨houtcomes, halike⟩ :=
          ih hrest (Visit.serves (v := v) hs) ht (Visit.alike_exec_run hs hu hv h)
        rw [List.filter_cons_of_neg (by simp [hv])]
        refine ⟨?_, halike⟩
        rw [Visit.outcomes, List.filter_cons_of_neg (by simp [hv]), houtcomes]

end

/-! ## Reachable servers -/

/-- What a user of an app can see does not depend on the visits of others, if the code that runs for
the user keeps away from global state and resources: the user's visits have the same answers and the
same activities as without the visits of others, and the user's host ends in the same state. -/
theorem unobserved_of_reachable {allowed : Catalogue → Prop} {s : Server σ β}
    (hs : Reachable allowed s) (co : Collaborators β) {root : HostId} {h x : Host β} {u : String}
    (hh : s.host? root = some h) (hu : h.users[u]? = some id) (hx : s.host? id = some x)
    (hstays : x.StaysIn code) (hcode : code.RunsUnder co id) (visits : List (Visit β))
    (hvisits : ∀ v ∈ visits, v.user = u → v.invocation.StaysIn code) :
    (Visit.outcomes co root visits s).filter (·.user == u) =
        Visit.outcomes co root (visits.filter (·.user == u)) s ∧
      ∃ y, (Visit.runAll co root visits s).host? id = some y ∧
        (Visit.runAll co root (visits.filter (·.user == u)) s).host? id = some y := by
  have ha : Arena (fun _ _ => True) s := hs.arena fun _ _ _ _ _ => trivial
  have hserves : s.Serves root h.users := ⟨ha, h, hh, rfl⟩
  obtain ⟨k, hk, ho⟩ := ha.user hh hu
  obtain rfl : x = k := Option.some.inj (hx.symm.trans hk)
  have howned : x.owner ≠ none := by
    rw [ho]
    exact Option.some_ne_none _
  have halike : Alike code id s s := ⟨⟨x, hx, hx, ha.keyed hx, howned, hstays⟩, rfl⟩
  obtain ⟨houtcomes, hafter⟩ :=
    Visit.agrees_outcomes hcode hu visits hvisits hserves hserves halike
  obtain ⟨y, hy, hy', _⟩ := hafter.host
  exact ⟨houtcomes, y, hy, hy'⟩

/-- Code that keeps a tally of its runs in a variable, defines its function anew, removes another
one, and answers with the tally. -/
def tallyScript : Script Unit (Except EvalError Value) :=
  .ask .host fun h =>
    let tally := match h.bind (·.global? "tally") with
      | some (.value (.str text)) => text ++ "|"
      | _ => "|"
    .ask (.define { name := "sell", module := some "market", parameters := [], body := () }) fun _ =>
      .ask (.setGlobal (some "market") "tally" (.value (.str tally))) fun _ =>
        .ask (.delete (some "market") "lend") fun _ => .done (.ok (.str tally))

/-- The users of the market take turns: what becomes of the visits of the first user is the same
without those of the second. -/
theorem unobserved_tallyScript :
    let co := Collaborators.plain (.always tallyScript) marketCatalogue
    let s : Server MemoryStore Unit := Operation.runAll co marketOperations (.new ∅ {})
    let code : Codebase Unit := ⟨fun _ => True, fun _ => False⟩
    let sell : Invocation Unit :=
      .call .server { name := "sell", module := some "market", parameters := [], body := () } []
    let visits : List (Visit Unit) :=
      [⟨"ann", sell⟩, ⟨"bob", sell⟩, ⟨"ann", .callText .server "sell" [] ""⟩,
        ⟨"bob", .callText .server "lend" [] ""⟩, ⟨"ann", sell⟩]
    Reachable (fun _ => True) s ∧ code.RunsUnder co 2 ∧
      (Visit.outcomes co 1 visits s).filter (·.user == "ann") =
        Visit.outcomes co 1 (visits.filter (·.user == "ann")) s ∧
      ∃ y, (Visit.runAll co 1 visits s).host? 2 = some y ∧
        (Visit.runAll co 1 (visits.filter (·.user == "ann")) s).host? 2 = some y := by
  intro co s code sell visits
  have hs : Reachable (fun _ => True) s := .runAll trivial _ (.new _ _)
  have htally : tallyScript.StaysIn code co.catalogue := by
    refine .ask trivial fun h _ => ?_
    exact .ask trivial fun _ _ => .ask trivial fun _ _ => .ask trivial fun _ _ => .done _
  have hcode : code.RunsUnder co 2 :=
    { function := fun _ _ _ _ _ => htally
      library := fun _ _ _ hm => hm.elim }
  have hroot : ((s.host? 1).bind (·.users["ann"]?)) = some 2 := by decide +kernel
  obtain ⟨h, hh, hu⟩ := Option.bind_eq_some_iff.1 hroot
  have hlive : (s.host? 2).isSome := by decide +kernel
  obtain ⟨x, hx⟩ := Option.isSome_iff_exists.1 hlive
  refine ⟨hs, hcode, unobserved_of_reachable hs co hh hu hx (fun _ => trivial) hcode visits ?_⟩
  intro v hv _
  simp only [visits, List.mem_cons, List.not_mem_nil, or_false] at hv
  rcases hv with rfl | rfl | rfl | rfl | rfl <;> trivial

end ScriptHost
