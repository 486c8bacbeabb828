import Mathlib
import ScriptHost.Proofs.Execution
import ScriptHost.Resource.Memory
/-!
# Requests to the store

All that an operation does to the store is made of single requests, each of which concerns one key.
This file says what a request makes of a store and of a server, and what each storage operation of a
server comes to.  It also names the two promises that a store may give: that keys are independent of
each other, and that nothing fails.

## Main statements

* `StoreRequest.apply`, `Server.request`: a request to the store.
* `IndependentKeys`, `ReliableStore`: what a store may promise; storage in memory promises both.
* `ServerM.exec_saveState`: saving the state of a host is one request on the slot of its module.
-/

namespace ScriptHost

/-! ## What a store may promise -/

/-- A store in which a change under one key is not seen under another. -/
class IndependentKeys (σ : Type) [StateStore σ] : Prop where
  read_write_of_ne : ∀ (a : σ) {k l : ResourceKey} (b : Blob), k ≠ l →
    StateStore.read (StateStore.write a k b).2 l = StateStore.read a l
  read_append_of_ne : ∀ (a : σ) {k l : ResourceKey} (lines : List String), k ≠ l →
    StateStore.read (StateStore.appendLines a k lines).2 l = StateStore.read a l
  read_delete_of_ne : ∀ (a : σ) {k l : ResourceKey}, k ≠ l →
    StateStore.read (StateStore.delete a k).2 l = StateStore.read a l

/-- A store with independent keys in which nothing fails, and which holds what it was last given. -/
class ReliableStore (σ : Type) [StateStore σ] : Prop extends IndependentKeys σ where
  read_isOk : ∀ (a : σ) (k : ResourceKey), ∃ v, StateStore.read a k = .ok v
  write_isOk : ∀ (a : σ) (k : ResourceKey) (b : Blob), (StateStore.write a k b).1 = .ok ()
  appendLines_isOk : ∀ (a : σ) (k : ResourceKey) (lines : List String),
    (StateStore.appendLines a k lines).1 = .ok ()
  delete_isOk : ∀ (a : σ) (k : ResourceKey), ∃ v, (StateStore.delete a k).1 = .ok v
  read_write : ∀ (a : σ) (k : ResourceKey) (b : Blob),
    StateStore.read (StateStore.write a k b).2 k = .ok (some b)
  read_delete : ∀ (a : σ) (k : ResourceKey),
    StateStore.read (StateStore.delete a k).2 k = .ok none

/-- Storage in memory keeps keys apart and never fails. -/
instance : ReliableStore MemoryStore where
  read_write_of_ne a k l b h := by
    show Except.ok ((a.insert k b).get? l) = .ok (a.get? l)
    rw [MemoryStore.get?_insert, if_neg h]
  read_append_of_ne a k l lines h := by
    show Except.ok ((a.append k lines).get? l) = .ok (a.get? l)
    rw [MemoryStore.get?_append, if_neg h]
  read_delete_of_ne a k l h := by
    show Except.ok ((a.erase k).get? l) = .ok (a.get? l)
    rw [MemoryStore.get?_erase, if_neg h]
  read_isOk a k := ⟨a.get? k, rfl⟩
  write_isOk _ _ _ := rfl
  appendLines_isOk _ _ _ := rfl
  delete_isOk a k := ⟨(a.get? k).isSome, rfl⟩
  read_write a k b := by
    show Except.ok ((a.insert k b).get? k) = .ok (some b)
    rw [MemoryStore.get?_insert, if_pos rfl]
  read_delete a k := by
    show Except.ok ((a.erase k).get? k) = .ok none
    rw [MemoryStore.get?_erase, if_pos rfl]

/-! ## A request -/

namespace StoreRequest

variable {σ : Type} [StateStore σ]

/-- The store after a request. -/
def apply : StoreRequest → ResourceKey → σ → σ
  | write blob, key, a => (StateStore.write a key blob).2
  | append lines, key, a => (StateStore.appendLines a key lines).2
  | delete, key, a => (StateStore.delete a key).2

/-- Whether the store does what it is asked for. -/
def result : StoreRequest → ResourceKey → σ → Except StoreError Unit
  | write blob, key, a => (StateStore.write a key blob).1
  | append lines, key, a => (StateStore.appendLines a key lines).1
  | delete, key, a => (StateStore.delete a key).1.map fun _ => ()

/-- A request on one key is not seen under another. -/
theorem read_apply_of_ne [IndependentKeys σ] (r : StoreRequest) (a : σ) {k l : ResourceKey}
    (h : k ≠ l) : StateStore.read (r.apply k a) l = StateStore.read a l := by
  cases r with
  | write b => exact IndependentKeys.read_write_of_ne a b h
  | append lines => exact IndependentKeys.read_append_of_ne a lines h
  | delete => exact IndependentKeys.read_delete_of_ne a h

/-- A reliable store does what it is asked for. -/
theorem result_eq_ok [ReliableStore σ] (r : StoreRequest) (k : ResourceKey) (a : σ) :
    r.result k a = .ok () := by
  cases r with
  | write b => exact ReliableStore.write_isOk a k b
  | append lines => exact ReliableStore.appendLines_isOk a k lines
  | delete =>
      obtain ⟨v, hv⟩ := ReliableStore.delete_isOk a k
      rw [result, hv]
      rfl

/-- A saved state is read back from a reliable store. -/
theorem read_apply_ofState [ReliableStore σ] (state : Option Blob) (k : ResourceKey) (a : σ) :
    StateStore.read ((ofState state).apply k a) k = .ok state := by
  cases state with
  | none => exact ReliableStore.read_delete a k
  | some b => exact ReliableStore.read_write a k b

end StoreRequest

/-- A store after any number of requests on keys of some kind. -/
abbrev StoreSteps {σ : Type} [StateStore σ] (P : ResourceKey → Prop) : σ → σ → Prop :=
  Relation.ReflTransGen fun a b =>
    ∃ (r : StoreRequest) (key : ResourceKey), P key ∧ b = r.apply key a

/-- Where keys are independent, only what lies under the keys of requests can change. -/
theorem StoreSteps.read_eq {σ : Type} [StateStore σ] [IndependentKeys σ] {P : ResourceKey → Prop}
    {a b : σ} (h : StoreSteps P a b) {key : ResourceKey} (hkey : ¬ P key) :
    StateStore.read b key = StateStore.read a key := by
  induction h with
  | refl => rfl
  | tail _ hstep ih =>
      obtain ⟨r, k, hk, rfl⟩ := hstep
      have hne : k ≠ key := by
        rintro rfl
        exact hkey hk
      rw [r.read_apply_of_ne _ hne, ih]

namespace Server

variable {σ β : Type} [StateStore σ]

/-- The server after a request to its store. -/
def request (s : Server σ β) (r : StoreRequest) (key : ResourceKey) : Server σ β :=
  { s with
    journal := .stored r.change key :: s.journal
    chronicle := .stored r key :: s.chronicle
    store := r.apply key s.store }

@[simp] theorem host?_request (s : Server σ β) (r : StoreRequest) (key : ResourceKey)
    (k : HostId) : (s.request r key).host? k = s.host? k := rfl

end Server

/-! ## Storage operations of a server -/

namespace ServerM

variable {σ β : Type} [StateStore σ] (s : Server σ β)

@[simp] theorem exec_writeBlob (key : ResourceKey) (blob : Blob) :
    (writeBlob key blob).exec s = s.request (.write blob) key := rfl

@[simp] theorem exec_appendBlob (key : ResourceKey) (lines : List String) :
    (appendBlob key lines).exec s = s.request (.append lines) key := rfl

@[simp] theorem exec_deleteBlob (key : ResourceKey) :
    (deleteBlob key).exec s = s.request .delete key := rfl

@[simp] theorem exec_readBlob (key : ResourceKey) : (readBlob key).exec s = s := rfl

@[simp] theorem eval_readBlob (key : ResourceKey) :
    (readBlob key).eval s = StateStore.read s.store key := rfl

variable {h : Host β} {name : String}

/-- The host that belongs to no app has nothing to save. -/
theorem exec_saveState_of_name?_eq_none (hn : h.name? = none) : (saveState h).exec s = s := by
  simp [saveState, hn]

/-- Saving the state of a host is one request on the slot of its module. -/
theorem exec_saveState (hn : h.name? = some name) :
    (saveState h).exec s = s.request (.ofState h.globalState) (.globalState name) := by
  cases hg : h.globalState with
  | none => simp [saveState, hn, hg, StoreRequest.ofState]
  | some blob => simp [saveState, hn, hg, StoreRequest.ofState]

/-- Saving the state of a host succeeds when the request does. -/
theorem eval_saveState (hn : h.name? = some name) :
    (saveState h).eval s =
      (StoreRequest.ofState h.globalState).result (.globalState name) s.store := by
  cases hg : h.globalState with
  | none =>
      simp only [saveState, hn, hg, StoreRequest.ofState, StoreRequest.result]
      rfl
  | some blob =>
      simp only [saveState, hn, hg, StoreRequest.ofState, StoreRequest.result]
      rfl

end ServerM

end ScriptHost
