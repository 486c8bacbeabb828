import Mathlib
import ScriptHost.Proofs.Creation
import ScriptHost.Proofs.Orderly
/-!
# The tree of hosts

A host knows only the host that it belongs to, so the state of an app is found by going up once.
That leads to a root as long as every host belongs to a root.  One request breaks this: the host of
a user may be asked for under a host that itself belongs to another, and nothing refuses to make it.
Every other request, and that one if the code of the new host fails, leaves a shallow tree shallow.

## Main statements

* `Operation.Nests`, `Operation.Deepens`: such a request, and one that leaves a host behind.
* `Operation.flatSince`: every other request leaves user hosts belonging to roots, and no state is
  misplaced while it is served.
* `Server.RoutesToRoots`, `Server.Flat.routesToRoots`: in a shallow tree all that is read and
  written of global state is that of a root.
* `Server.flat_or_deepened_of_reachable`: the tree is shallow until a request deepens it.
-/

namespace ScriptHost

variable {σ β : Type} [StateStore σ] {suits : String → Module → Prop}

open Server

/-! ## Servers that stay shallow -/

/-- User hosts belong to roots, and since an earlier server no state has been misplaced. -/
structure Server.FlatSince (s t : Server σ β) : Prop where
  flat : t.Flat
  placed : ∃ events, t.chronicle = events ++ s.chronicle ∧ ∀ k n, .misplaced k n ∉ events

section

variable {s t u : Server σ β}

namespace Server.FlatSince

omit [StateStore σ] in
theorem of_chronicle_eq (hf : t.Flat) (h : t.chronicle = s.chronicle) : FlatSince s t :=
  ⟨hf, [], h, fun _ _ => List.not_mem_nil⟩

omit [StateStore σ] in
theorem trans (h : FlatSince s t) (g : FlatSince t u) : FlatSince s u where
  flat := g.flat
  placed := by
    obtain ⟨before, hbefore, hnone⟩ := h.placed
    obtain ⟨after, hafter, hnone'⟩ := g.placed
    refine ⟨after ++ before, by rw [hafter, hbefore, List.append_assoc], fun k n hmem => ?_⟩
    rcases List.mem_append.1 hmem with hmem | hmem
    · exact hnone' k n hmem
    · exact hnone k n hmem

end Server.FlatSince

/-- Steps that give no number away leave a shallow tree shallow. -/
theorem Steps.flatSince (ha : Arena suits s) (hf : s.Flat) (h : Steps suits s t)
    (hnext : t.nextId = s.nextId) : FlatSince s t := by
  obtain ⟨hflat, events, hevents, hquiet⟩ := Steps.quiet ha hf h hnext
  exact ⟨hflat, events, hevents, fun k n hmem => hquiet _ hmem⟩

omit [StateStore σ] in
/-- That a root begins misplaces no state. -/
theorem Server.FlatSince.beginRoot {module : Option Module} {perUser : Bool}
    {state : Option Blob} {sink : Option Actor}
    (hf : (s.beginRoot module perUser state sink).Flat) :
    FlatSince s (s.beginRoot module perUser state sink) := by
  cases module with
  | none => exact .of_chronicle_eq hf rfl
  | some m => exact ⟨hf, [_], rfl, fun k n hmem => by cases List.mem_singleton.1 hmem⟩

/-- An orderly move leaves a shallow tree shallow. -/
theorem Move.flatSince (ha : Arena suits s) (hf : s.Flat) (h : Move suits True s t) :
    FlatSince s t := by
  obtain ⟨u, hopens, hsteps, hnext⟩ := h.opens ha
  have hopened : FlatSince s u := by
    have hu := hopens.flat ha hf
    cases hopens with
    | same => exact .of_chronicle_eq hu rfl
    | skipId => exact .of_chronicle_eq hu rfl
    | root perUser sink hsuits hfree => exact .beginRoot hu
    | user sink hh hu' hperUser => exact .of_chronicle_eq hu rfl
  exact hopened.trans
    (Steps.flatSince (Steps.arena ha hopens.steps) hopened.flat hsteps hnext)

theorem Moves.flatSince (ha : Arena suits s) (hf : s.Flat) (h : Moves suits True s t) :
    FlatSince s t := by
  induction h with
  | refl => exact .of_chronicle_eq hf rfl
  | tail hbefore hmove ih => exact ih.trans (hmove.flatSince (Moves.arena ha hbefore) ih.flat)

end

/-! ## New hosts -/

section

variable {s u : Server σ β} {co : Collaborators β} {root : HostId} {user : String} {actor : Actor}

namespace ServerM

/-- The code of a new host is run by steps that give no number away, and so is the host discarded if
its code fails. -/
theorem flatSince_start (ha : Arena suits s) (hau : Arena suits u) (hf : u.Flat)
    (happs : u.apps = s.apps) (m : Module) :
    FlatSince u ((start co s.nextId m actor).exec u) := by
  obtain ⟨t, hcode, ⟨_, hdone⟩ | ⟨_, hdone⟩⟩ := start_cases co hau.keyed s.nextId m actor
  · rw [hdone]
    exact Steps.flatSince hau hf hcode.steps hcode.frame.nextId
  · rw [hdone]
    apply Steps.flatSince hau hf (hcode.steps.trans (steps_discard_new ha hcode happs))
    rw [nextId_exec_discard, hcode.frame.nextId]

/-- A new root leaves a shallow tree shallow, whatever becomes of it. -/
theorem flatSince_createApplication (ha : Arena suits s) (hf : s.Flat) (module : Option Module)
    (perUser : Bool) : FlatSince s ((createApplication co module perUser actor).exec s) := by
  cases module with
  | none => exact .beginRoot (hf.beginRoot ha none perUser none none)
  | some m =>
      obtain ⟨t, ht, ⟨_, hexec⟩ | ⟨_, hexec⟩⟩ := createApplication_cases co s m perUser actor
      all_goals
        have hst : Idles suits s t := (Idles.refl s).noted ht
        have hat := Steps.arena ha hst.steps
        have hflat := Steps.flatSince ha hf hst.steps hst.nextId
        rw [hexec]
      · have hskip : Arena suits t.skipId := Step.arena hat .skipId
        have hfail := keeps_loadFailure co actor m.name .codeNotFound hskip
        have hskipped : FlatSince t t.skipId := .of_chronicle_eq hflat.flat rfl
        exact (hflat.trans hskipped).trans
          (Steps.flatSince hskip hskipped.flat hfail.steps hfail.nextId)
      · have hbegun :
            FlatSince t (t.beginRoot (some m) perUser (t.savedState (some m)) (some actor)) :=
          .beginRoot (hflat.flat.beginRoot hat _ _ _ _)
        rw [← hst.nextId]
        exact (hflat.trans hbegun).trans
          (flatSince_start hat (hat.beginRoot _ _ _ _) hbegun.flat rfl m)

/-- The host of a user of a root leaves a shallow tree shallow. -/
theorem flatSince_duplicateForUser (ha : Arena suits s) (hf : s.Flat)
    (hroot : (s.host? root).isSome → s.IsRoot root) :
    FlatSince s ((duplicateForUser co root user actor).exec s) := by
  rcases duplicateForUser_cases co s root user actor with
    ⟨_, _, hexec⟩ | ⟨h, hh, ⟨_, _, _, hexec⟩ | ⟨hu, hcases⟩⟩
  · rw [hexec]
    exact .of_chronicle_eq hf rfl
  · rw [hexec]
    exact .of_chronicle_eq hf rfl
  · obtain ⟨x, hx, ho⟩ := hroot (by rw [hh]; rfl)
    obtain rfl : h = x := Option.some.inj (hh.symm.trans hx)
    have hbegun : FlatSince s (s.beginUser root h user actor) :=
      .of_chronicle_eq (hf.beginUser ha hh ho hu actor) rfl
    rcases hcases with ⟨_, _, hexec⟩ | ⟨m, _, _, hexec⟩
    · rw [hexec]
      exact hbegun
    · rw [hexec]
      exact hbegun.trans (flatSince_start ha (ha.beginUser hh hu actor) hbegun.flat rfl m)

end ServerM

/-! ## Requests that deepen the tree -/

/-- The request asks for the host of a user under a host that itself belongs to another. -/
def Operation.Nests (s : Server σ β) (op : Operation β) : Prop :=
  ∃ id user actor, op = .duplicateForUser id user actor ∧ (s.host? id).isSome ∧ ¬ s.IsRoot id

/-- The request asks for the host of a user under a host that itself belongs to another, and gets
it. -/
def Operation.Deepens (co : Collaborators β) (s : Server σ β) (op : Operation β) : Prop :=
  ∃ id user actor, op = .duplicateForUser id user actor ∧ (s.host? id).isSome ∧ ¬ s.IsRoot id ∧
    ∃ new, (ServerM.duplicateForUser co id user actor).eval s = .ok new

/-- Every request that does not nest hosts leaves a shallow tree shallow. -/
theorem Operation.flatSince (hco : co.catalogue.Follows suits) (ha : Arena suits s) (hf : s.Flat)
    {op : Operation β} (hop : ¬ op.Nests s) : FlatSince s ((op.run co).exec s) := by
  by_cases horderly : op.IsOrderly
  · exact Moves.flatSince ha hf (op.walks hco (fun _ => horderly) ha)
  cases op with
  | createApplication module perUser actor =>
      exact ServerM.flatSince_createApplication ha hf module perUser
  | duplicateForUser id user actor =>
      have hroot : (s.host? id).isSome → s.IsRoot id := by
        intro hlive
        by_contra hchild
        exact hop ⟨id, user, actor, rfl, hlive, hchild⟩
      exact ServerM.flatSince_duplicateForUser ha hf hroot
  | _ => exact absurd trivial horderly

omit [StateStore σ] in
/-- The host of a user of a child belongs to a host that is no root. -/
theorem Server.not_flat_of_samePlaces {t : Server σ β} (ha : Arena suits s) {h : Host β}
    (hh : s.host? root = some h) (hu : h.users[user]? = none) (hchild : ¬ s.IsRoot root)
    (actor : Actor) (hplaces : SamePlaces (s.beginUser root h user actor) t) : ¬ t.Flat := by
  intro hflat
  have hbegun : (s.beginUser root h user actor).host? s.nextId =
      some (h.forUser s.nextId user actor) := by
    rw [ha.host?_beginUser hh, if_neg (Nat.ne_of_lt (ha.lt_nextId hh)), if_pos rfl]
  obtain ⟨x, hx, hplace⟩ := hplaces.symm.host? hbegun
  have hid : h.id = root := ha.keyed hh
  have howner : x.owner = some { parent := root, user } := by
    rw [← Host.owner_of_place_eq hplace, ← hid]
    rfl
  have hroot : (s.beginUser root h user actor).IsRoot root :=
    (hflat s.nextId x _ hx howner).of_samePlaces hplaces.symm
  obtain ⟨y, hy, ho⟩ := hroot
  obtain ⟨z, hz, hyz⟩ := ha.host?_beginUser_of_host? hh hu actor hh
  obtain rfl : y = z := Option.some.inj (hy.symm.trans hz)
  exact hchild ⟨h, hh, hyz.1.owner_eq.symm.trans ho⟩

/-- A nested host leaves the tree as it was just if its code has failed and it is gone again. -/
theorem ServerM.flat_duplicateForUser_iff (ha : Arena suits s) (hf : s.Flat)
    (hlive : (s.host? root).isSome) (hchild : ¬ s.IsRoot root) :
    ((duplicateForUser co root user actor).exec s).Flat ↔
      ¬ ∃ new, (duplicateForUser co root user actor).eval s = .ok new := by
  rcases duplicateForUser_cases co s root user actor with
    ⟨hnone, _, _⟩ | ⟨h, hh, ⟨k, hk, _, _⟩ | ⟨hu, hcases⟩⟩
  · rw [hnone] at hlive
    cases hlive
  · -- a child has no users as yet
    obtain ⟨x, hx, ho⟩ := ha.user hh hk
    exact absurd (hf k x _ hx ho) hchild
  · have hau := ha.beginUser hh hu actor
    have hdeep : ∀ {t}, SamePlaces (s.beginUser root h user actor) t → ¬ t.Flat :=
      fun hplaces => not_flat_of_samePlaces ha hh hu hchild actor hplaces
    rcases hcases with ⟨_, heval, hexec⟩ | ⟨m, _, heval, hexec⟩
    · rw [hexec, heval]
      exact iff_of_false (hdeep fun _ => rfl) (not_not_intro ⟨_, rfl⟩)
    · obtain ⟨t, hcode, ⟨hok, hdone⟩ | ⟨⟨e, he⟩, hdone⟩⟩ :=
        start_cases co hau.keyed s.nextId m actor
      · rw [hexec, heval, hok, hdone]
        exact iff_of_false (hdeep hcode.frame.samePlaces) (not_not_intro ⟨_, rfl⟩)
      · rw [hexec, heval, he, hdone]
        refine iff_of_true ?_ fun ⟨_, hok⟩ => by cases hok
        have hsteps : Steps suits s t := hcode.steps.head (.beginUser hh hu actor)
        have hall := hsteps.trans (steps_discard_new ha hcode rfl)
        -- the new host is gone, so all that are there were there before
        refine Steps.flat ha hf hall fun {k z} hz => ?_
        have hlt := (Steps.arena ha hall).lt_nextId hz
        rw [nextId_exec_discard, hcode.frame.nextId] at hlt
        have hne : k ≠ s.nextId := by
          rintro rfl
          rw [(Steps.arena ha hsteps).host?_exec_discard_self] at hz
          cases hz
        exact lt_of_le_of_ne (Nat.lt_succ_iff.1 hlt) hne

end

/-! ## Reading and writing in a shallow tree -/

/-- If the event tells of the state that a host holds, that host is the given root. -/
def StateEvent.StaysAt (root : HostId) : StateEvent → Prop
  | replaced k _ _ => k = root
  | accepted k _ _ => k = root
  | answered k _ => k = root
  | misplaced _ _ => False
  | _ => True

section

variable {s t : Server σ β} {id : HostId}

omit [StateStore σ] in
/-- A root that takes a state into memory is not misplaced. -/
theorem staysAt_holdEvents {h : Host β} (ho : h.owner = none) (root : HostId)
    (blob : Option Blob) : ∀ e ∈ holdEvents root h blob, e.StaysAt root := by
  have hroot : h.isRoot = true := Option.isNone_iff_eq_none.2 ho
  unfold holdEvents
  rw [if_pos hroot]
  exact List.forall_mem_singleton.2 rfl

/-- Where the host that holds the state is a root, a step that concerns the data of an app tells of
no other host. -/
theorem StorageStep.staysAt (hroot : s.IsRoot (s.rootOf id)) (h : StorageStep id s t) :
    ∃ events, t.chronicle = events ++ s.chronicle ∧ ∀ e ∈ events, e.StaysAt (s.rootOf id) := by
  obtain ⟨r, hr, ho⟩ := hroot
  have hheld : ∀ {x : Host β}, s.host? (s.rootOf id) = some x → ∀ blob,
      ∀ e ∈ holdEvents (s.rootOf id) x blob, e.StaysAt (s.rootOf id) := by
    intro x hx blob
    obtain rfl : r = x := Option.some.inj (hr.symm.trans hx)
    exact staysAt_holdEvents ho _ blob
  cases h with
  | request hh r file kind shared hs => exact ⟨[_], rfl, List.forall_mem_singleton.2 trivial⟩
  | answer => exact ⟨[_], rfl, List.forall_mem_singleton.2 rfl⟩
  | keep hh hn hw blob =>
      exact ⟨_ :: holdEvents _ _ _, rfl, List.forall_mem_cons.2 ⟨rfl, hheld hh blob⟩⟩
  | save hh hn hw blob hr =>
      exact ⟨_ :: _ :: holdEvents _ _ _, rfl,
        List.forall_mem_cons.2 ⟨rfl, List.forall_mem_cons.2 ⟨trivial, hheld hh blob⟩⟩⟩
  | refuse hh hn hw blob hr =>
      exact ⟨_ :: holdEvents _ _ _, rfl, List.forall_mem_cons.2 ⟨trivial, hheld hh blob⟩⟩

/-- Whatever code does, it tells of no other host that holds a state than the root. -/
theorem CodeSteps.staysAt (hroot : s.IsRoot (s.rootOf id)) (h : CodeSteps id s t) :
    ∃ events, t.chronicle = events ++ s.chronicle ∧ ∀ e ∈ events, e.StaysAt (s.rootOf id) := by
  induction h with
  | refl => exact ⟨[], rfl, fun e he => absurd he List.not_mem_nil⟩
  | @tail u v hbefore hstep ih =>
      obtain ⟨before, hbefore', hstays⟩ := ih
      have hframe := CodeSteps.frame hbefore
      have hroot' : u.IsRoot (u.rootOf id) := by
        rw [hframe.rootOf_eq]
        exact hroot.of_samePlaces hframe.samePlaces
      obtain ⟨events, hevents, hnew⟩ : ∃ events, v.chronicle = events ++ u.chronicle ∧
          ∀ e ∈ events, e.StaysAt (s.rootOf id) := by
        rcases hstep.storage_or_silent with hstorage | ⟨_, _, hchronicle⟩
        · rw [← hframe.rootOf_eq]
          exact hstorage.staysAt hroot'
        · exact ⟨[], hchronicle, fun e he => absurd he List.not_mem_nil⟩
      refine ⟨events ++ before, by rw [hevents, hbefore', List.append_assoc], fun e he => ?_⟩
      exact (List.mem_append.1 he).elim (hnew e) (hstays e)

/-- The states of all other hosts than the root stay as they are. -/
theorem CodeSteps.held_eq_of_isRoot (hroot : s.IsRoot (s.rootOf id)) (h : CodeSteps id s t)
    {c : HostId} (hc : c ≠ s.rootOf id) : t.held c = s.held c := by
  obtain ⟨events, hevents, hstays⟩ := CodeSteps.staysAt hroot h
  obtain ⟨events', hevents', hheld | ⟨state, left, hmem⟩⟩ :=
    CodeSteps.held_eq_or_replaced (c := c) h
  · exact hheld
  · obtain rfl : events = events' := List.append_cancel_right (hevents.symm.trans hevents')
    exact absurd (hstays _ hmem) hc

end

/-- Going up once from any host leads to a root, and going up again leads nowhere else.  What is
read through the host is what that root holds, what is written through it is held by that root, and
no code under it makes another host hold a state. -/
structure Server.RoutesToRoots (s : Server σ β) : Prop where
  isRoot : ∀ id, (s.host? id).isSome → s.IsRoot (s.rootOf id)
  rootOf_rootOf : ∀ id, (s.host? id).isSome → s.rootOf (s.rootOf id) = s.rootOf id
  read : ∀ id h shared, s.host? id = some h → (h.name? ≠ none ∨ shared = true) →
    ∃ r, s.host? (s.rootOf id) = some r ∧ r.owner = none ∧
      (ServerM.readTag id none shared).eval s = .ok r.globalState
  write : ∀ id h blob, s.host? id = some h → h.name? ≠ none →
    ∃ r, ((ServerM.writeGlobalState id blob).exec s).host? (s.rootOf id) = some r ∧
      r.owner = none ∧ r.globalState = blob
  code : ∀ id t, (s.host? id).isSome → CodeSteps id s t →
    (∀ c, c ≠ s.rootOf id → t.held c = s.held c) ∧
      ∃ events, t.chronicle = events ++ s.chronicle ∧ ∀ e ∈ events, e.StaysAt (s.rootOf id)

section

variable {s : Server σ β} {id : HostId} {h : Host β}

omit [StateStore σ] in
/-- In a shallow tree going up once leads to a root. -/
theorem Server.Flat.isRoot_rootOf (hf : s.Flat) (hh : s.host? id = some h) :
    s.IsRoot (s.rootOf id) := by
  cases ho : h.owner with
  | none =>
      rw [rootOf_eq_self_of_owner_eq_none hh ho]
      exact ⟨h, hh, ho⟩
  | some o =>
      rw [rootOf_eq_of_owner_eq_some hh ho]
      exact hf id h o hh ho

/-- Whether or not the host belongs to an app, what is read of global state is what its root
holds. -/
theorem ServerM.eval_readTag_none_of_scope {r : Host β} {shared : Bool} (hh : s.host? id = some h)
    (hscope : h.name? ≠ none ∨ shared = true) (hr : s.host? (s.rootOf id) = some r) :
    (readTag id none shared).eval s = .ok r.globalState := by
  have hopen : ¬ (h.name?.isNone ∧ !shared) := by
    rintro ⟨hn, hshared⟩
    rcases hscope with hn' | rfl
    · exact hn' (Option.isNone_iff_eq_none.1 hn)
    · cases hshared
  unfold readTag withScope
  rw [eval_bind, eval_host?, exec_host?, hh]
  dsimp only
  rw [eval_ite, if_neg hopen, eval_bind, eval_get, exec_get, eval_bind, eval_bind, eval_host?, hr]
  rfl

theorem Server.Flat.routesToRoots (ha : Arena suits s) (hf : s.Flat) : s.RoutesToRoots where
  isRoot id hlive := by
    obtain ⟨h, hh⟩ := Option.isSome_iff_exists.1 hlive
    exact hf.isRoot_rootOf hh
  rootOf_rootOf id hlive := by
    obtain ⟨h, hh⟩ := Option.isSome_iff_exists.1 hlive
    obtain ⟨r, hr, ho⟩ := hf.isRoot_rootOf hh
    exact rootOf_eq_self_of_owner_eq_none hr ho
  read id h shared hh hscope := by
    obtain ⟨r, hr, ho⟩ := hf.isRoot_rootOf hh
    exact ⟨r, hr, ho, ServerM.eval_readTag_none_of_scope hh hscope hr⟩
  write id h blob hh hn := by
    obtain ⟨r, hr, _⟩ := hf.isRoot_rootOf hh
    obtain ⟨name, hname⟩ := Option.ne_none_iff_exists'.1 hn
    have hr' : r.name? = some name := by
      rw [← appOf_of_host? hr, ha.appOf_rootOf hh, appOf_of_host? hh, hname]
    obtain ⟨hstep, x, hx, hstate⟩ :=
      ServerM.storageStep_writeGlobalState id ha.keyed hr hr' blob
    obtain ⟨y, hy, ho⟩ := (hf.isRoot_rootOf hh).of_samePlaces hstep.frame.samePlaces
    obtain rfl : x = y := Option.some.inj (hx.symm.trans hy)
    exact ⟨x, hx, ho, hstate⟩
  code id t hlive hsteps := by
    obtain ⟨h, hh⟩ := Option.isSome_iff_exists.1 hlive
    have hroot := hf.isRoot_rootOf hh
    exact ⟨fun c hc => CodeSteps.held_eq_of_isRoot hroot hsteps hc, CodeSteps.staysAt hroot hsteps⟩

end

/-! ## Reachable servers -/

namespace Server

variable {allowed : Catalogue → Prop} {s : Server σ β}

/-- In a shallow tree a request deepens the tree just if the tree is not shallow after it. -/
theorem Flat.exec_iff_not_deepens (ha : Arena (fun _ _ => True) s) (hf : s.Flat)
    (co : Collaborators β) (op : Operation β) :
    ((op.run co).exec s).Flat ↔ ¬ op.Deepens co s := by
  by_cases hop : op.Nests s
  · obtain ⟨id, user, actor, rfl, hlive, hchild⟩ := hop
    have hdeepens : (Operation.duplicateForUser id user actor).Deepens co s ↔
        ∃ new, (ServerM.duplicateForUser co id user actor).eval s = .ok new := by
      constructor
      · rintro ⟨_, _, _, heq, _, _, hok⟩
        obtain ⟨rfl, rfl, rfl⟩ := Operation.duplicateForUser.inj heq
        exact hok
      · exact fun hok => ⟨id, user, actor, rfl, hlive, hchild, hok⟩
    rw [hdeepens]
    exact ServerM.flat_duplicateForUser_iff ha hf hlive hchild
  · have hnot : ¬ op.Deepens co s := fun ⟨id, user, actor, hid, hlive, hchild, _⟩ =>
      hop ⟨id, user, actor, hid, hlive, hchild⟩
    exact iff_of_true (Operation.flatSince (fun _ _ _ => trivial) ha hf hop).flat hnot

/-- The tree of hosts of a reachable server is shallow, unless an earlier request has deepened it.
In a shallow tree every host is one step from its root, and all that is read and written of global
state is that of a root.  Requests leave the tree shallow, all but those that deepen it, and unless
hosts are nested no state is misplaced. -/
theorem flat_or_deepened_of_reachable (hs : Reachable allowed s) :
    (s.Flat ∨ ∃ (u : Server σ β) (co : Collaborators β) (op : Operation β),
      Reachable allowed u ∧ u.Flat ∧ allowed co.catalogue ∧ op.Deepens co u ∧
        Leads allowed (fun _ => True) ((op.run co).exec u) s) ∧
    (s.Flat → s.RoutesToRoots ∧ ∀ (co : Collaborators β) (op : Operation β),
      (((op.run co).exec s).Flat ↔ ¬ op.Deepens co s) ∧
        (¬ op.Nests s → FlatSince s ((op.run co).exec s))) := by
  have hfollows : ∀ c, allowed c → c.Follows fun _ _ => True := fun _ _ _ _ _ => trivial
  refine ⟨?_, fun hf => ?_⟩
  · induction hs with
    | new store settings => exact .inl (orderly_new store settings).flat
    | @step s hs co hco op ih =>
        rcases ih with hf | ⟨u, co', op', hu, hfu, hco', hdeepens, hleads⟩
        · by_cases hdeepens : op.Deepens co s
          · exact .inr ⟨s, co, op, hs, hf, hco, hdeepens, .refl⟩
          · exact .inl ((hf.exec_iff_not_deepens (hs.arena hfollows) co op).2 hdeepens)
        · exact .inr ⟨u, co', op', hu, hfu, hco', hdeepens, hleads.tail ⟨co, op, hco, trivial, rfl⟩⟩
  · have ha := hs.arena hfollows
    exact ⟨hf.routesToRoots ha, fun co op => ⟨hf.exec_iff_not_deepens ha co op,
      Operation.flatSince (fun _ _ _ => trivial) ha hf⟩⟩

omit [StateStore σ] in
/-- The request asks for the host of a user under a root. -/
theorem not_nests_of_isRoot {id : HostId} (hroot : s.IsRoot id) (user : String) (actor : Actor) :
    ¬ (Operation.duplicateForUser id user actor : Operation β).Nests s := by
  rintro ⟨k, _, _, heq, _, hchild⟩
  obtain ⟨rfl, _, _⟩ := Operation.duplicateForUser.inj heq
  exact hchild hroot

/-- In the market each user's host belongs to the root, and so does that of a third user who comes
later. -/
theorem flat_market :
    let co := Collaborators.plain (.always (.done (.ok .null))) marketCatalogue
    let s : Server MemoryStore Unit := Operation.runAll co marketOperations (.new ∅ {})
    let op : Operation Unit := .duplicateForUser 1 "carl" (.player "carl" 3)
    let t := (op.run co).exec s
    Reachable (fun _ => True) s ∧ s.Flat ∧ (s.host? 3).isSome ∧ s.RoutesToRoots ∧
      ¬ op.Nests s ∧ (t.host? 4).isSome ∧ t.Flat ∧ FlatSince s t := by
  intro co s op t
  have hkeeps : ∀ {u : Server MemoryStore Unit}, Reachable (fun _ => True) u → u.Flat →
      ∀ op : Operation Unit, ¬ op.Nests u → ((op.run co).exec u).Flat :=
    fun hu hf op hop => ((((flat_or_deepened_of_reachable hu).2 hf).2 co op).2 hop).flat
  have hreaches : ∀ ops, Reachable (fun _ => True)
      (Operation.runAll co ops (.new ∅ {}) : Server MemoryStore Unit) :=
    fun ops => .runAll trivial ops (.new _ _)
  have hfirst := hkeeps (hreaches []) (orderly_new _ _).flat
    (.createApplication (some { name := "market", code := some "" }) true .server)
    (by rintro ⟨_, _, _, heq, _⟩; cases heq)
  have hsecond := hkeeps (hreaches (marketOperations.take 1)) hfirst
    (.duplicateForUser 1 "ann" (.player "ann" 1)) (not_nests_of_isRoot (by decide +kernel) _ _)
  have hs : s.Flat := hkeeps (hreaches (marketOperations.take 2)) hsecond
    (.duplicateForUser 1 "bob" (.player "bob" 2)) (not_nests_of_isRoot (by decide +kernel) _ _)
  have hroutes := (flat_or_deepened_of_reachable (hreaches marketOperations)).2 hs
  have hop : ¬ op.Nests s := not_nests_of_isRoot (by decide +kernel) _ _
  exact ⟨hreaches _, hs, by decide +kernel, hroutes.1, hop, by decide +kernel,
    hkeeps (hreaches _) hs op hop, (hroutes.2 co op).2 hop⟩

/-- The host of a third user is asked for under the host of the first.  The new host belongs to a
host that is no root, and reads no state where its app has one. -/
theorem deepened_market :
    let co := Collaborators.plain (.always (.done (.ok .null))) marketCatalogue
    let s : Server MemoryStore Unit := Operation.runAll co
      (marketOperations ++ [.writeGlobalState 1 (some "1".toUTF8)]) (.new ∅ {})
    let op : Operation Unit := .duplicateForUser 2 "carl" (.player "carl" 3)
    let t := (op.run co).exec s
    Reachable (fun _ => True) t ∧ op.Deepens co s ∧ (t.host? 4).isSome ∧ t.rootOf 4 = 2 ∧
      t.rootOf (t.rootOf 4) = 1 ∧ ¬ t.IsRoot (t.rootOf 4) ∧ ¬ t.Flat ∧
      ((ServerM.readTag 4 none false).eval t).toOption = some none ∧
      ((ServerM.readTag 2 none false).eval t).toOption = some (some "1".toUTF8) := by
  intro co s op t
  have hs : Reachable (fun _ => True) s := .runAll trivial _ (.new _ _)
  have hchild : ¬ t.IsRoot (t.rootOf 4) := by decide +kernel
  have hlive : (t.host? 4).isSome := by decide +kernel
  have hok :
      ((ServerM.duplicateForUser co 2 "carl" (.player "carl" 3)).eval s).toOption = some 4 := by
    decide +kernel
  refine ⟨hs.step co trivial op, ⟨2, "carl", _, rfl, by decide +kernel, by decide +kernel, 4, ?_⟩,
    hlive, by decide +kernel, by decide +kernel, hchild, ?_, by decide +kernel, by decide +kernel⟩
  · cases hmade : (ServerM.duplicateForUser co 2 "carl" (.player "carl" 3)).eval s with
    | error e =>
        rw [hmade] at hok
        cases hok
    | ok id =>
        rw [hmade] at hok
        rw [Option.some.inj hok]
  · intro hf
    obtain ⟨h, hh⟩ := Option.isSome_iff_exists.1 hlive
    exact hchild (hf.isRoot_rootOf hh)

end Server

end ScriptHost
