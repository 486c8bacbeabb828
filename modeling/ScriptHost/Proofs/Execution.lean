import Mathlib
import ScriptHost.Server.Ticking
/-!
# Running operations on a server

An operation on a server has an answer, `ServerM.eval`, and leaves a server behind, `ServerM.exec`.
Both pass through sequencing, so that an operation can be run symbolically, one request at a time.
The second half says what the elementary operations make of the hosts of a server.

## Main statements

* `ServerM.exec_bind`, `ServerM.eval_bind`: one operation after another.
* `Server.host?_modifyHost`, `Server.host?_insertHost`: the hosts after a change to one of them.
* `ServerM.exec_forM_induction`: a property that every round of a loop keeps.
-/

namespace ScriptHost

namespace ServerM

variable {σ β α γ : Type}

/-- The answer of an operation on a server. -/
def eval (m : ServerM σ β α) (s : Server σ β) : α := (Id.run (m.run s)).1

/-- The server that an operation leaves behind. -/
def exec (m : ServerM σ β α) (s : Server σ β) : Server σ β := (Id.run (m.run s)).2

variable (s : Server σ β)

/-! ## Sequencing -/

@[simp] theorem eval_pure (a : α) : (pure a : ServerM σ β α).eval s = a := rfl

@[simp] theorem exec_pure (a : α) : (pure a : ServerM σ β α).exec s = s := rfl

/-- The second operation answers from what the first one leaves behind. -/
@[simp] theorem eval_bind (m : ServerM σ β α) (f : α → ServerM σ β γ) :
    (m >>= f).eval s = (f (m.eval s)).eval (m.exec s) := rfl

/-- The second operation goes on from what the first one leaves behind. -/
@[simp] theorem exec_bind (m : ServerM σ β α) (f : α → ServerM σ β γ) :
    (m >>= f).exec s = (f (m.eval s)).exec (m.exec s) := rfl

theorem run_bind (m : ServerM σ β α) (f : α → ServerM σ β γ) :
    (m >>= f).run s = (f (m.eval s)).run (m.exec s) := rfl

@[simp] theorem eval_map (m : ServerM σ β α) (f : α → γ) : (f <$> m).eval s = f (m.eval s) := rfl

@[simp] theorem exec_map (m : ServerM σ β α) (f : α → γ) : (f <$> m).exec s = m.exec s := rfl

@[simp] theorem eval_get : (get : ServerM σ β (Server σ β)).eval s = s := rfl

@[simp] theorem exec_get : (get : ServerM σ β (Server σ β)).exec s = s := rfl

@[simp] theorem exec_set (t : Server σ β) : (set t : ServerM σ β PUnit).exec s = t := rfl

@[simp] theorem exec_modify (f : Server σ β → Server σ β) :
    (modify f : ServerM σ β PUnit).exec s = f s := rfl

theorem eval_ite {c : Prop} [Decidable c] (m n : ServerM σ β α) :
    (if c then m else n).eval s = if c then m.eval s else n.eval s := by
  split <;> rfl

theorem exec_ite {c : Prop} [Decidable c] (m n : ServerM σ β α) :
    (if c then m else n).exec s = if c then m.exec s else n.exec s := by
  split <;> rfl

/-! ## Loops -/

@[simp] theorem exec_forM_nil (f : α → ServerM σ β PUnit) : (([] : List α).forM f).exec s = s := rfl

@[simp] theorem exec_forM_cons (f : α → ServerM σ β PUnit) (a : α) (l : List α) :
    ((a :: l).forM f).exec s = (l.forM f).exec ((f a).exec s) := rfl

theorem exec_forM_append (f : α → ServerM σ β PUnit) (l l' : List α) :
    ((l ++ l').forM f).exec s = (l'.forM f).exec ((l.forM f).exec s) := by
  induction l generalizing s with
  | nil => rfl
  | cons a l ih => exact ih ((f a).exec s)

/-- A property that every round of a loop keeps holds after the loop. -/
theorem exec_forM_induction {P : Server σ β → Prop} (f : α → ServerM σ β PUnit) (l : List α)
    (hstep : ∀ a ∈ l, ∀ s, P s → P ((f a).exec s)) {s : Server σ β} (hs : P s) :
    P ((l.forM f).exec s) := by
  induction l generalizing s with
  | nil => exact hs
  | cons a l ih =>
      rw [exec_forM_cons]
      apply ih
      · intro b hb
        exact hstep b (List.mem_cons_of_mem a hb)
      · exact hstep a List.mem_cons_self s hs

/-! ## Elementary operations -/

@[simp] theorem eval_host? (id : HostId) :
    (host? id : ServerM σ β (Option (Host β))).eval s = s.host? id := rfl

@[simp] theorem exec_host? (id : HostId) :
    (host? id : ServerM σ β (Option (Host β))).exec s = s := rfl

@[simp] theorem exec_modifyHost (id : HostId) (f : Host β → Host β) :
    (modifyHost id f).exec s = s.modifyHost id f := rfl

@[simp] theorem exec_record (a : Activity β) : (record a).exec s = s.record a := rfl

@[simp] theorem exec_remember (e : StateEvent) : (remember e).exec s = s.remember e := rfl

@[simp] theorem exec_log (level : LogLevel) (text : String) :
    (log level text).exec s = s.record (.logged level text) := rfl

@[simp] theorem eval_freshId : (freshId : ServerM σ β HostId).eval s = s.nextId := rfl

end ServerM

namespace Server

variable {σ β : Type} (s : Server σ β)

/-- The server with a host in place under the number that the host has. -/
def insertHost (h : Host β) : Server σ β := { s with hosts := s.hosts.insert h.id h }

/-- The server after the next number has been given away. -/
def skipId : Server σ β := { s with nextId := s.nextId + 1 }

/-! ## Hosts after a change -/

/-- A change to one host leaves the others as they are. -/
theorem host?_modifyHost (id k : HostId) (f : Host β → Host β) :
    (s.modifyHost id f).host? k = if id = k then (s.host? k).map f else s.host? k := by
  simp only [host?, modifyHost, Std.ExtTreeMap.getElem?_modify, compare_eq_iff_eq]
  by_cases h : id = k
  · subst h
    simp
  · simp [h]

@[simp] theorem host?_modifyHost_self (id : HostId) (f : Host β → Host β) :
    (s.modifyHost id f).host? id = (s.host? id).map f := by
  simp [host?_modifyHost]

/-- Putting a host in place leaves the hosts with other numbers as they are. -/
theorem host?_insertHost (h : Host β) (k : HostId) :
    (s.insertHost h).host? k = if h.id = k then some h else s.host? k := by
  simp [host?, insertHost, Std.ExtTreeMap.getElem?_insert]

@[simp] theorem host?_record (a : Activity β) (k : HostId) : (s.record a).host? k = s.host? k := rfl

@[simp] theorem host?_remember (e : StateEvent) (k : HostId) :
    (s.remember e).host? k = s.host? k := rfl

@[simp] theorem host?_skipId (k : HostId) : s.skipId.host? k = s.host? k := rfl

theorem rootOf_eq_self_of_owner_eq_none {s : Server σ β} {id : HostId} {h : Host β}
    (hh : s.host? id = some h) (ho : h.owner = none) : s.rootOf id = id := by
  simp [rootOf, hh, Host.parent?, ho]

theorem rootOf_eq_of_owner_eq_some {s : Server σ β} {id : HostId} {h : Host β} {o : Ownership}
    (hh : s.host? id = some h) (ho : h.owner = some o) : s.rootOf id = o.parent := by
  simp [rootOf, hh, Host.parent?, ho]

end Server

namespace ServerM

variable {σ β : Type} (s : Server σ β)

@[simp] theorem exec_insertHost (h : Host β) : (insertHost h).exec s = s.insertHost h := rfl

@[simp] theorem exec_freshId : (freshId : ServerM σ β HostId).exec s = s.skipId := rfl

end ServerM

end ScriptHost
