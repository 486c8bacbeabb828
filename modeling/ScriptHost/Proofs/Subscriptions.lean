import Mathlib
import ScriptHost.Dispatch
/-!
# Subscriptions keep their order

The functions that are bound to an event form a set that keeps the order in which it came about.  A
function enters at the end when it is bound, stays where it is when it is bound once more, and
leaves when its binding is taken back, alone or together with all bindings of its host.

Whatever has been bound and taken back, the place of a function tells when it was bound: the first
time since its binding was taken back the last time.

## Main statements

* `EventDispatch.bindings_bind`, `EventDispatch.bindings_unbind`,
  `EventDispatch.bindings_unbindHosts`: what each change makes of the bindings of every event.
* `EventDispatch.Stands`, `EventDispatch.StandsSince`: bindings that have not been taken back.
* `EventDispatch.Ordered`, `EventDispatch.ordered_after`: the subscriptions after any changes.
-/

namespace ScriptHost.EventDispatch

variable {d : EventDispatch} {e event : Event} {b binding : EventBinding} {id : HostId}

/-! ## Single changes -/

/-- The binding is added at the end for its event, unless it is there. -/
theorem bindings_bind : (d.bind event binding).bindings e =
    if e = event ∧ binding ∉ d.bindings e then d.bindings e ++ [binding] else d.bindings e := by
  unfold bind
  by_cases hbound : d.isBound event binding = true
  · rw [if_pos hbound, if_neg]
    rintro ⟨rfl, hnot⟩
    exact hnot (isBound_iff.1 hbound)
  · rw [if_neg hbound]
    have hsplit : EventDispatch.bindings ⟨d.subscriptions ++ [(event, binding)]⟩ e =
        d.bindings e ++ if e = event then [binding] else [] := by
      unfold bindings
      rw [List.filter_append, List.map_append]
      congr 1
      by_cases he : e = event
      · simp [he]
      · simp [he, Ne.symm he]
    rw [hsplit]
    by_cases he : e = event
    · subst he
      rw [if_pos rfl, if_pos ⟨rfl, fun hmem => hbound (isBound_iff.2 hmem)⟩]
    · rw [if_neg he, if_neg fun h => he h.1, List.append_nil]

/-- The binding goes from its event, and the others stay in their order. -/
theorem bindings_unbind : (d.unbind event binding).bindings e =
    if e = event then (d.bindings e).filter (· ≠ binding) else d.bindings e := by
  unfold bindings unbind
  rw [List.filter_filter]
  by_cases he : e = event
  · subst he
    rw [if_pos rfl, List.filter_map, List.filter_filter]
    congr 1
    apply List.filter_congr
    rintro ⟨e', b'⟩ _
    rw [Bool.eq_iff_iff]
    simp only [Bool.and_eq_true, beq_iff_eq, bne_iff_ne, Ne, Prod.mk.injEq, Function.comp_apply,
      decide_eq_true_eq]
    tauto
  · rw [if_neg he]
    congr 1
    apply List.filter_congr
    rintro ⟨e', b'⟩ _
    rw [Bool.eq_iff_iff]
    simp only [Bool.and_eq_true, beq_iff_eq, bne_iff_ne, Ne, Prod.mk.injEq]
    refine ⟨fun h => h.1, fun h => ⟨h, fun hsame => he ?_⟩⟩
    rw [← h, hsame.1]

/-- The bindings of other hosts stay in their order when those of some hosts are taken back. -/
theorem bindings_unbindHosts {ids : List HostId} :
    (d.unbindHosts ids).bindings e = (d.bindings e).filter (·.host ∉ ids) := by
  unfold bindings unbindHosts
  rw [List.filter_map, List.filter_filter, List.filter_filter]
  congr 1
  apply List.filter_congr
  intro b _
  simp [Bool.and_comm]

/-- There is a binding to take back if the function is bound. -/
theorem unbinds_iff : d.unbinds e b = true ↔ b ∈ d.bindings e := by
  unfold unbinds unbind
  rw [bne_iff_ne, mem_bindings]
  constructor
  · intro hshorter
    by_contra hnot
    apply hshorter
    rw [List.filter_eq_self.2]
    intro s hs
    rw [bne_iff_ne]
    rintro rfl
    exact hnot hs
  · intro hmem hsame
    have hall := List.length_filter_eq_length_iff.1 hsame (e, b) hmem
    simp at hall

/-! ## Changes one after the other -/

/-- A change of the subscriptions. -/
inductive Change where
  | bind (event : Event) (binding : EventBinding)
  | unbind (event : Event) (binding : EventBinding)
  | unbindHost (host : HostId)

namespace Change

/-- Makes the change. -/
def apply (d : EventDispatch) : Change → EventDispatch
  | bind event binding => d.bind event binding
  | unbind event binding => d.unbind event binding
  | unbindHost host => d.unbindHosts [host]

/-- The change takes back the binding of a function to an event. -/
def TakesBack (e : Event) (b : EventBinding) : Change → Prop
  | bind _ _ => False
  | unbind event binding => event = e ∧ binding = b
  | unbindHost host => host = b.host

/-- What is bound to an event after a change: what the change binds, and what was bound before and
is not taken back. -/
theorem mem_bindings_apply {c : Change} :
    b ∈ (c.apply d).bindings e ↔ c = .bind e b ∨ b ∈ d.bindings e ∧ ¬ c.TakesBack e b := by
  cases c with
  | bind event binding =>
      unfold apply TakesBack
      rw [bindings_bind, Change.bind.injEq]
      split
      · rename_i h
        rw [List.mem_append, List.mem_singleton, or_comm, not_false_iff, and_true, h.1]
        exact or_congr_left ⟨fun hb => ⟨rfl, hb.symm⟩, fun hb => hb.2.symm⟩
      · rename_i h
        rw [not_false_iff, and_true]
        refine ⟨.inr, ?_⟩
        rintro (⟨rfl, rfl⟩ | hmem)
        · by_contra hnot
          exact h ⟨rfl, hnot⟩
        · exact hmem
  | unbind event binding =>
      unfold apply TakesBack
      rw [bindings_unbind]
      by_cases he : e = event
      · rw [if_pos he, List.mem_filter, decide_eq_true_eq]
        constructor
        · exact fun h => .inr ⟨h.1, fun hback => h.2 hback.2.symm⟩
        · rintro (hbind | ⟨hmem, hback⟩)
          · cases hbind
          · exact ⟨hmem, fun hb => hback ⟨he.symm, hb.symm⟩⟩
      · rw [if_neg he]
        constructor
        · exact fun h => .inr ⟨h, fun hback => he hback.1.symm⟩
        · rintro (hbind | ⟨hmem, _⟩)
          · cases hbind
          · exact hmem
  | unbindHost host =>
      unfold apply TakesBack
      rw [bindings_unbindHosts, List.mem_filter, decide_eq_true_eq, List.mem_singleton]
      constructor
      · exact fun h => .inr ⟨h.1, fun hback => h.2 hback.symm⟩
      · rintro (hbind | ⟨hmem, hback⟩)
        · cases hbind
        · exact ⟨hmem, fun hb => hback hb.symm⟩

end Change

/-- The subscriptions after changes, one after the other, when there were none at first. -/
def after (changes : List Change) : EventDispatch := changes.foldl Change.apply ∅

theorem after_concat (changes : List Change) (c : Change) :
    after (changes ++ [c]) = c.apply (after changes) := by
  unfold after
  rw [List.foldl_append]
  rfl

/-- A change has bound a function to an event, and no later one has taken the binding back. -/
structure Stands (changes : List Change) (e : Event) (b : EventBinding) (n : Nat) : Prop where
  bound : changes[n]? = some (.bind e b)
  kept : ∀ m c, n < m → changes[m]? = some c → ¬ c.TakesBack e b

/-- The change is the first of those: the earliest to bind the function after its binding was taken
back the last time. -/
def StandsSince (changes : List Change) (e : Event) (b : EventBinding) (n : Nat) : Prop :=
  Stands changes e b n ∧ ∀ m < n, ¬ Stands changes e b m

variable {changes : List Change} {c : Change} {n : Nat}

theorem Stands.lt_length (h : Stands changes e b n) : n < changes.length :=
  (List.getElem?_eq_some_iff.1 h.bound).1

/-- Of the changes that have bound a function one is the first. -/
theorem Stands.exists_since (h : Stands changes e b n) : ∃ m, StandsSince changes e b m := by
  classical
  exact ⟨Nat.find ⟨n, h⟩, Nat.find_spec ⟨n, h⟩, fun _ => Nat.find_min ⟨n, h⟩⟩

/-- What one more change does to the changes that have bound a function. -/
theorem stands_concat : Stands (changes ++ [c]) e b n ↔
    Stands changes e b n ∧ ¬ c.TakesBack e b ∨ n = changes.length ∧ c = .bind e b := by
  constructor
  · intro h
    rcases Nat.lt_or_ge n changes.length with hn | hn
    · have hbefore : ∀ (m : Nat) c', changes[m]? = some c' → (changes ++ [c])[m]? = some c' := by
        intro m c' hm
        rw [List.getElem?_append_left (List.getElem?_eq_some_iff.1 hm).1, hm]
      refine .inl ⟨⟨?_, fun m c' hm hc' => h.kept m c' hm (hbefore m c' hc')⟩, ?_⟩
      · rw [← List.getElem?_append_left hn]
        exact h.bound
      · exact h.kept changes.length c hn List.getElem?_concat_length
    · have hlast : n = changes.length := by
        have hlt := h.lt_length
        rw [List.length_append, List.length_singleton] at hlt
        omega
      have hbound := h.bound
      rw [hlast, List.getElem?_concat_length] at hbound
      exact .inr ⟨hlast, Option.some.inj hbound⟩
  · rintro (⟨h, hc⟩ | ⟨rfl, rfl⟩)
    · refine ⟨?_, fun m c' hm hc' => ?_⟩
      · rw [List.getElem?_append_left h.lt_length]
        exact h.bound
      · rcases Nat.lt_or_ge m changes.length with hlt | hge
        · rw [List.getElem?_append_left hlt] at hc'
          exact h.kept m c' hm hc'
        · rw [List.getElem?_append_right hge] at hc'
          rw [List.mem_singleton.1 (List.mem_of_getElem? hc')]
          exact hc
    · refine ⟨List.getElem?_concat_length, fun m c' hm hc' => ?_⟩
      rw [List.getElem?_eq_none] at hc'
      · cases hc'
      · rw [List.length_append, List.length_singleton]
        exact hm

/-- A function that is bound stays bound since the same change, unless its binding is taken back. -/
theorem StandsSince.concat (h : StandsSince changes e b n) (hc : ¬ c.TakesBack e b) :
    StandsSince (changes ++ [c]) e b n := by
  refine ⟨stands_concat.2 (.inl ⟨h.1, hc⟩), fun m hm hstands => ?_⟩
  rcases stands_concat.1 hstands with ⟨hbefore, _⟩ | ⟨rfl, _⟩
  · exact h.2 m hm hbefore
  · exact absurd h.1.lt_length (Nat.not_lt.2 (Nat.le_of_lt hm))

/-- A function that was not bound is bound since it is bound. -/
theorem standsSince_bind (h : ∀ m, ¬ Stands changes e b m) :
    StandsSince (changes ++ [.bind e b]) e b changes.length := by
  refine ⟨stands_concat.2 (.inr ⟨rfl, rfl⟩), fun m hm hstands => ?_⟩
  rcases stands_concat.1 hstands with ⟨hbefore, _⟩ | ⟨rfl, _⟩
  · exact h m hbefore
  · exact Nat.lt_irrefl _ hm

/-- What is bound after changes is what was bound and not taken back since. -/
theorem mem_bindings_after : b ∈ (after changes).bindings e ↔ ∃ n, Stands changes e b n := by
  induction changes using List.reverseRecOn with
  | nil =>
      constructor
      · exact fun hmem => absurd hmem List.not_mem_nil
      · rintro ⟨n, h⟩
        exact absurd h.lt_length (Nat.not_lt_zero n)
  | append_singleton changes c ih =>
      rw [after_concat, Change.mem_bindings_apply, ih]
      constructor
      · rintro (rfl | ⟨⟨n, h⟩, hc⟩)
        · exact ⟨_, stands_concat.2 (.inr ⟨rfl, rfl⟩)⟩
        · exact ⟨n, stands_concat.2 (.inl ⟨h, hc⟩)⟩
      · rintro ⟨n, h⟩
        rcases stands_concat.1 h with ⟨h, hc⟩ | ⟨_, rfl⟩
        · exact .inr ⟨⟨n, h⟩, hc⟩
        · exact .inl rfl

/-! ## The order of the bindings -/

/-- One function was bound to an event before another. -/
def BoundBefore (changes : List Change) (e : Event) (b b' : EventBinding) : Prop :=
  ∃ n n', StandsSince changes e b n ∧ StandsSince changes e b' n' ∧ n < n'

theorem BoundBefore.concat {b' : EventBinding} (h : BoundBefore changes e b b')
    (hb : ¬ c.TakesBack e b) (hb' : ¬ c.TakesBack e b') : BoundBefore (changes ++ [c]) e b b' := by
  obtain ⟨n, n', hn, hn', hlt⟩ := h
  exact ⟨n, n', hn.concat hb, hn'.concat hb', hlt⟩

/-- The bindings of an event after one more change that binds nothing to it: some of those before,
in the same order. -/
theorem bindings_apply_sublist (h : ∀ b, c ≠ .bind e b) :
    ((c.apply d).bindings e).Sublist (d.bindings e) := by
  cases c with
  | bind event binding =>
      unfold Change.apply
      rw [bindings_bind, if_neg]
      rintro ⟨rfl, _⟩
      exact h binding rfl
  | unbind event binding =>
      unfold Change.apply
      rw [bindings_unbind]
      split
      · exact List.filter_sublist
      · exact .refl _
  | unbindHost host =>
      unfold Change.apply
      rw [bindings_unbindHosts]
      exact List.filter_sublist

/-- The functions that are bound to an event are in the order in which they were bound. -/
theorem pairwise_bindings_after (changes : List Change) (e : Event) :
    ((after changes).bindings e).Pairwise (BoundBefore changes e) := by
  induction changes using List.reverseRecOn with
  | nil => exact .nil
  | append_singleton changes c ih =>
      rw [after_concat]
      by_cases hbind : ∃ b, c = .bind e b
      · obtain ⟨b, rfl⟩ := hbind
        have hold := ih.imp fun h => h.concat (c := .bind e b) id id
        unfold Change.apply
        rw [bindings_bind]
        split
        · rename_i hnew
          rw [List.pairwise_append]
          refine ⟨hold, List.pairwise_singleton _ b, fun b' hb' x hx => ?_⟩
          rw [List.mem_singleton.1 hx]
          obtain ⟨n, hn⟩ := mem_bindings_after.1 hb'
          obtain ⟨m, hm⟩ := hn.exists_since
          have hlast := standsSince_bind fun k hk => hnew.2 (mem_bindings_after.2 ⟨k, hk⟩)
          exact ⟨m, _, hm.concat id, hlast, hm.1.lt_length⟩
        · exact hold
      · -- only what the change leaves is compared, so that nothing compared is taken back
        have hrest := ih.sublist (bindings_apply_sublist fun b hb => hbind ⟨b, hb⟩)
        refine hrest.imp_of_mem fun hb hb' h => ?_
        have hstays : ∀ {x}, x ∈ (c.apply (after changes)).bindings e → ¬ c.TakesBack e x := by
          intro x hx
          exact ((Change.mem_bindings_apply.1 hx).resolve_left fun hc => hbind ⟨x, hc⟩).2
        exact h.concat (hstays hb) (hstays hb')

/-- A function that is bound is bound since one change. -/
theorem BoundBefore.irrefl : ¬ BoundBefore changes e b b := by
  rintro ⟨n, n', hn, hn', hlt⟩
  exact hn'.2 n hlt hn.1

/-- Subscriptions that have come about by changes form a set for each event that keeps its order.  A
function is bound if it was bound and its binding has not been taken back since; it is bound once,
and comes after those that were bound before it and have stayed since.  Binding and taking back
answer by what is bound.  They concern one event, and taking back the bindings of a host concerns
this host. -/
structure Ordered (changes : List Change) (d : EventDispatch) : Prop where
  mem_iff : ∀ e b, b ∈ d.bindings e ↔ ∃ n, Stands changes e b n
  nodup : ∀ e, (d.bindings e).Nodup
  order : ∀ e, (d.bindings e).Pairwise (BoundBefore changes e)
  isBound_iff : ∀ e b, d.isBound e b = true ↔ b ∈ d.bindings e
  unbinds_iff : ∀ e b, d.unbinds e b = true ↔ b ∈ d.bindings e
  bind : ∀ e b, (d.bind e b).bindings e =
    if b ∈ d.bindings e then d.bindings e else d.bindings e ++ [b]
  unbind : ∀ e b, (d.unbind e b).bindings e = (d.bindings e).filter (· ≠ b)
  others : ∀ e b e', e' ≠ e →
    (d.bind e b).bindings e' = d.bindings e' ∧ (d.unbind e b).bindings e' = d.bindings e'
  unbindHost : ∀ id e, (d.unbindHosts [id]).bindings e = (d.bindings e).filter (·.host ≠ id)

/-- Whatever has been bound and taken back, the subscriptions to each event are a set in the order
in which it came about. -/
theorem ordered_after (changes : List Change) : Ordered changes (after changes) where
  mem_iff _ _ := mem_bindings_after
  nodup e := by
    refine (pairwise_bindings_after changes e).imp ?_
    rintro b _ h rfl
    exact h.irrefl
  order := pairwise_bindings_after changes
  isBound_iff _ _ := EventDispatch.isBound_iff
  unbinds_iff _ _ := EventDispatch.unbinds_iff
  bind e b := by
    rw [bindings_bind]
    by_cases hmem : b ∈ (after changes).bindings e <;> simp [hmem]
  unbind e b := by
    rw [bindings_unbind, if_pos rfl]
  others e b e' he := by
    rw [bindings_bind, bindings_unbind, if_neg fun h => he h.1, if_neg he]
    exact ⟨rfl, rfl⟩
  unbindHost id e := by
    rw [bindings_unbindHosts]
    simp

end ScriptHost.EventDispatch
