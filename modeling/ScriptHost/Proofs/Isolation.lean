import Mathlib
import ScriptHost.Proofs.Operations
/-!
# Running code concerns one host

Whatever code does, and whether it succeeds or fails, it changes the host that it runs under and the
global state of that host's root.  No host comes or goes, no app is loaded or unloaded, execution is
neither halted nor resumed, the bindings of other hosts stay as they are, and the store is asked
only about keys that are open to the host's app.

## Main statements

* `Isolated`, `CodeSteps.isolated`: what code leaves alone.
-/

namespace ScriptHost

variable {σ β : Type}

open Server

variable [StateStore σ]

/-- What has happened between two servers concerns one host, the global state of its root, and data
that is open to its app.  For every store, requests have been made about such data only.  What is
stored under other keys is untouched where keys are independent, as they are in memory.  In a folder
two keys may lead to one file, so that `blobs` says nothing there, and only `requests` counts. -/
structure Isolated (id : HostId) (h : Host β) (s t : Server σ β) : Prop where
  live : ∀ k, (t.host? k).isSome = (s.host? k).isSome
  apps : t.apps = s.apps
  isStopped : t.isStopped = s.isStopped
  root : s.rootOf id ≠ id →
    (t.host? (s.rootOf id)).map Host.stateless = (s.host? (s.rootOf id)).map Host.stateless
  others : ∀ k, k ≠ id → k ≠ s.rootOf id → t.host? k = s.host? k
  bindings : t.dispatch.subscriptions.filter (·.2.host != id) =
    s.dispatch.subscriptions.filter (·.2.host != id)
  requests : StoreSteps (ResourceKey.OpenTo h.name?) s.store t.store
  blobs : IndependentKeys σ → ∀ key, ¬ key.OpenTo h.name? →
    StateStore.read t.store key = StateStore.read s.store key

/-- Code under a live host in an arena is isolated. -/
theorem CodeSteps.isolated {suits : String → Module → Prop} {s t : Server σ β} {id : HostId}
    {h : Host β} (ha : Arena suits s) (hh : s.host? id = some h) (hsteps : CodeSteps id s t) :
    Isolated id h s t := by
  have hframe := hsteps.frame
  have happ : s.appOf id = h.name? := appOf_of_host? hh
  -- the keys that are open to the host's app are those that are open to its root's
  have hopen : s.MayAsk id = ResourceKey.OpenTo h.name? := by
    funext key
    unfold MayAsk
    rw [ha.appOf_rootOf hh, happ, or_self]
  have hrequests := hsteps.store
  rw [hopen] at hrequests
  exact
    { live := hframe.isSome_host?_eq
      apps := hframe.apps
      isStopped := hframe.isStopped
      root := hframe.root
      others := hframe.others
      bindings := hframe.bindings
      requests := hrequests
      blobs := fun _ _ hkey => hrequests.read_eq hkey }

/-- Running code under a live host of a reachable server leaves all other hosts alone, but for the
global state of the host's root, and all data but that of the host's app and shared data. -/
theorem isolated_of_reachable {allowed : Catalogue → Prop} {s : Server σ β}
    (hs : Reachable allowed s) {id : HostId} {h : Host β} (hh : s.host? id = some h)
    (co : Collaborators β) (i : Invocation β) : Isolated id h s ((i.run co id).exec s) := by
  have ha : Arena (fun _ _ => True) s := hs.arena fun _ _ _ _ _ => trivial
  exact CodeSteps.isolated ha hh (i.actsUnder co id ha.keyed)

/-- Code that defines a hook, replaces global state, writes into a shared log, and then fails. -/
def busyScript : Script Unit (Except EvalError Value) :=
  .ask (.define { name := "__on_tick", module := some "market", parameters := [], body := () })
    fun _ => .ask (.writeState (some "42".toUTF8))
      fun _ => .ask (.appendLog "log" true "text" ["sold"])
        fun _ => .done (.error (.runtime "out of stock"))

/-- The user host 2 runs such code: its neighbour 3 is left alone. -/
theorem isolated_busyScript :
    let co := Collaborators.plain (.always busyScript) marketCatalogue
    let s : Server MemoryStore Unit := Operation.runAll co marketOperations (.new ∅ {})
    let i : Invocation Unit :=
      .call .server { name := "sell", module := some "market", parameters := [], body := () } []
    Reachable (fun _ => True) s ∧
      ∃ h, s.host? 2 = some h ∧ Isolated 2 h s ((i.run co 2).exec s) := by
  intro co s i
  have hs : Reachable (fun _ => True) s := .runAll trivial _ (.new _ _)
  have hlive : (s.host? 2).isSome := by decide +kernel
  obtain ⟨h, hh⟩ := Option.isSome_iff_exists.1 hlive
  exact ⟨hs, h, hh, isolated_of_reachable hs hh co i⟩

end ScriptHost
