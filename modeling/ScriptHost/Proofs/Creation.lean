import Mathlib
import ScriptHost.Proofs.Operations
import ScriptHost.Proofs.Records
/-!
# A failed creation is undone

A new host is put in place, linked to its root and filled by its code before it is known whether the
code succeeds.  If the code fails the host is discarded, and that takes back all that was done: the
hosts, the apps and the bindings are those from before.  The data that the code has given to the app
remains, and the number of the host is never used again.

## Main statements

* `Server.Undone`, `Server.UserUndone`: what is left of a creation that has failed.
* `Server.undone_of_reachable`: every failed creation in a reachable server is undone.
-/

namespace ScriptHost

variable {σ β : Type}

open Server

/-! ## What a refusal leaves -/

namespace ServerM

/-- A failure to load is at most written into the journal. -/
theorem exec_loadFailure (co : Collaborators β) (actor : Actor) (name : String)
    (reason : LoadReason) (s : Server σ β) :
    ∃ journal, (loadFailure co actor name reason).exec s = { s with journal } := by
  unfold loadFailure reportText deliver
  dsimp only
  rw [exec_bind]
  split
  · exact ⟨_, rfl⟩
  · exact ⟨_, rfl⟩
  · exact ⟨_, rfl⟩

end ServerM

/-! ## What a discarded host leaves -/

namespace Server

open ServerM

variable {suits : String → Module → Prop} {s t u : Server σ β} {id root : HostId}

/-- A host without users is a family of its own. -/
theorem family_eq_singleton {h : Host β} (hh : s.host? id = some h) (hu : h.users = ∅)
    (hlt : id < s.nextId) : s.family id = [id] := by
  obtain ⟨n, hn⟩ := Nat.exists_eq_succ_of_ne_zero (Nat.ne_of_gt (Nat.zero_lt_of_lt hlt))
  unfold family
  rw [hn, familyTo, hh]
  simp [Host.userIds, hu]

/-- A host without users goes alone. -/
theorem host?_discard_alone {h : Host β} (hh : s.host? id = some h) (hu : h.users = ∅)
    (hlt : id < s.nextId) (k : HostId) :
    (s.discard id h).host? k =
      if k = id then none else (s.host? k).map (·.without k h.owner) := by
  rw [host?_discard]
  simp only [family_eq_singleton hh hu hlt, List.mem_singleton]

/-- A server has the same hosts as another if each host is the same. -/
theorem hosts_ext (h : ∀ k, t.host? k = s.host? k) : t.hosts = s.hosts :=
  Std.ExtTreeMap.ext_getElem? fun {k} => h k

/-- In an arena no binding is one of the next host. -/
theorem Arena.filter_subscriptions (ha : Arena suits s) :
    s.dispatch.subscriptions.filter (·.2.host != s.nextId) = s.dispatch.subscriptions := by
  rw [List.filter_eq_self]
  intro b hb
  have hlive := ha.bound hb
  have hne : b.2.host ≠ s.nextId := by
    intro h
    rw [h, ha.host?_nextId] at hlive
    cases hlive
  simpa using hne

/-- Taking back the bindings of the next host takes back all that its code has bound. -/
theorem Arena.unbindHosts_eq (ha : Arena suits s)
    (hu : u.dispatch.subscriptions.filter (·.2.host != s.nextId) =
      s.dispatch.subscriptions.filter (·.2.host != s.nextId)) :
    u.dispatch.unbindHosts [s.nextId] = s.dispatch := by
  have hfilter : u.dispatch.subscriptions.filter (fun b => !([s.nextId].contains b.2.host)) =
      s.dispatch.subscriptions := by
    rw [← ha.filter_subscriptions, ← hu]
    apply List.filter_congr
    intro b _
    rw [List.contains_eq_mem, bne, Bool.beq_eq_decide_eq]
    simp
  unfold EventDispatch.unbindHosts
  rw [hfilter]

/-! ### Roots -/

/-- A server is as it was, but for the next number and for what is written down or stored. -/
structure Undone (s t : Server σ β) : Prop where
  hosts : t.hosts = s.hosts
  apps : t.apps = s.apps
  dispatch : t.dispatch = s.dispatch
  isStopped : t.isStopped = s.isStopped
  settings : t.settings = s.settings
  nextId : t.nextId = s.nextId + 1

/-- A new root is as if it had never been once it has been discarded, whatever its code has done. -/
theorem Arena.undone [StateStore σ] (ha : Arena suits s) {m : Option Module} {perUser : Bool}
    {state : Option Blob} {sink : Option Actor}
    (hu : CodeSteps s.nextId (s.beginRoot m perUser state sink) u) :
    Undone s ((ServerM.discard s.nextId).exec u) := by
  have hf := hu.frame
  have hnew : (s.beginRoot m perUser state sink).host? s.nextId =
      some (s.newRoot m perUser state sink) := by
    rw [host?_beginRoot, if_pos rfl]
  have hroot : (s.beginRoot m perUser state sink).rootOf s.nextId = s.nextId :=
    rootOf_eq_self_of_owner_eq_none hnew rfl
  have hown := hf.own
  rw [hnew, Option.map_some] at hown
  obtain ⟨x, hx, hshape⟩ := Option.map_eq_some_iff.1 hown
  have howner : x.owner = none := congrArg Host.owner hshape
  have husers : x.users = ∅ := congrArg Host.users hshape
  have hlt : s.nextId < u.nextId := by
    rw [hf.nextId]
    exact Nat.lt_succ_self _
  rw [exec_discard hx]
  exact
    { hosts := by
        apply hosts_ext
        intro k
        rw [host?_discard_alone hx husers hlt, howner]
        by_cases hk : k = s.nextId
        · rw [if_pos hk, hk, ha.host?_nextId]
        · have hold := hf.others k hk (by rwa [hroot])
          rw [host?_beginRoot, if_neg (Ne.symm hk)] at hold
          rw [if_neg hk, hold]
          exact Option.map_id'
      apps := by
        rw [discard_eq]
        exact hf.apps
      dispatch := by
        rw [dispatch_discard, family_eq_singleton hx husers hlt]
        exact ha.unbindHosts_eq hf.bindings
      isStopped := by
        rw [discard_eq]
        exact hf.isStopped
      settings := by
        rw [discard_eq]
        exact hf.settings
      nextId := by
        rw [discard_eq]
        exact hf.nextId }

end Server

/-! ### Data of the root -/

section

variable [StateStore σ] {s t : Server σ β} {id c : HostId}

/-- That the state of a host is replaced is written down. -/
theorem StorageStep.held_eq_or_replaced (h : StorageStep id s t) :
    ∃ events, t.chronicle = events ++ s.chronicle ∧
      (t.held c = s.held c ∨ ∃ state left, .replaced c state left ∈ events) := by
  by_cases hc : s.rootOf id = c
  · subst hc
    have hmem : ∀ (x : Host β) (blob : Option Blob),
        .replaced (s.rootOf id) blob x.saveTimeout ∈ holdEvents (s.rootOf id) x blob :=
      fun x blob => List.mem_cons_self
    cases h with
    | request hh r file kind shared hs => exact ⟨[_], rfl, .inl rfl⟩
    | answer => exact ⟨[_], rfl, .inl rfl⟩
    | keep hh hn hw blob =>
        exact ⟨_ :: holdEvents _ _ _, rfl, .inr ⟨_, _, List.mem_cons_of_mem _ (hmem _ blob)⟩⟩
    | save hh hn hw blob hr =>
        exact ⟨_ :: _ :: holdEvents _ _ _, rfl,
          .inr ⟨_, _, List.mem_cons_of_mem _ (List.mem_cons_of_mem _ (hmem _ blob))⟩⟩
    | refuse hh hn hw blob hr =>
        exact ⟨_ :: holdEvents _ _ _, rfl, .inr ⟨_, _, List.mem_cons_of_mem _ (hmem _ blob)⟩⟩
  · obtain ⟨events, hevents, _⟩ := h.chronicle_eq
    exact ⟨events, hevents, .inl (h.held_eq_of_ne hc)⟩

/-- Code changes the state of a host only by replacing it, which is written down. -/
theorem CodeSteps.held_eq_or_replaced (h : CodeSteps id s t) :
    ∃ events, t.chronicle = events ++ s.chronicle ∧
      (t.held c = s.held c ∨ ∃ state left, .replaced c state left ∈ events) := by
  induction h with
  | refl => exact ⟨[], rfl, .inl rfl⟩
  | @tail u v _ hstep ih =>
      obtain ⟨before, hbefore, hold⟩ := ih
      obtain ⟨events, hevents, hnew⟩ : ∃ events, v.chronicle = events ++ u.chronicle ∧
          (v.held c = u.held c ∨ ∃ state left, .replaced c state left ∈ events) := by
        rcases hstep.storage_or_silent with hstorage | ⟨hheld, _, hchronicle⟩
        · exact hstorage.held_eq_or_replaced
        · exact ⟨[], hchronicle, .inl (hheld c)⟩
      refine ⟨events ++ before, by rw [hevents, hbefore, List.append_assoc], ?_⟩
      rcases hnew with hsame | ⟨state, left, hmem⟩
      · rcases hold with hsame' | ⟨state, left, hmem⟩
        · exact .inl (hsame.trans hsame')
        · exact .inr ⟨state, left, List.mem_append_right _ hmem⟩
      · exact .inr ⟨state, left, List.mem_append_left _ hmem⟩

end

/-! ### Users -/

namespace Host

/-- Adding the host of a new user is taken back by removing it. -/
theorem eraseUser_addUser {h : Host β} {user : String} (hu : h.users[user]? = none) (id : HostId) :
    (h.addUser user id).eraseUser user = h := by
  have husers : (h.users.insert user id).erase user = h.users := by
    apply Std.ExtTreeMap.ext_getElem?
    intro u
    rw [Std.ExtTreeMap.getElem?_erase, Std.ExtTreeMap.getElem?_insert]
    split
    · rename_i hcmp
      rw [← compare_eq_iff_eq.1 hcmp, hu]
    · rfl
  unfold addUser eraseUser
  dsimp only
  rw [husers]

/-- A host is known by its state and by what it is apart from that. -/
theorem eq_of_stateless_eq {h k : Host β} (hs : h.stateless = k.stateless)
    (hheld : (h.globalState, h.saveTimeout) = (k.globalState, k.saveTimeout)) : h = k := by
  obtain ⟨hg, hw⟩ := Prod.mk.inj hheld
  have hh : h = { h.stateless with globalState := h.globalState, saveTimeout := h.saveTimeout } :=
    rfl
  rw [hh, hs, hg, hw]
  rfl

end Host

namespace Server

open ServerM

variable [StateStore σ] {suits : String → Module → Prop} {s t u : Server σ β} {root : HostId}

/-- A server is as it was before the host of a user was asked for, but for the next number, for what
is written down or stored, and for the state of the root, if code has replaced it.  Whatever host
the user is given later has been made since. -/
structure UserUndone (root : HostId) (user : String) (s t : Server σ β) : Prop where
  others : ∀ k, k ≠ root → t.host? k = s.host? k
  stateless : (t.host? root).map Host.stateless = (s.host? root).map Host.stateless
  state : ∃ events, t.chronicle = events ++ s.chronicle ∧
    (t.host? root = s.host? root ∨ ∃ state left, .replaced root state left ∈ events)
  apps : t.apps = s.apps
  dispatch : t.dispatch = s.dispatch
  isStopped : t.isStopped = s.isStopped
  settings : t.settings = s.settings
  nextId : t.nextId = if (s.host? root).isSome then s.nextId + 1 else s.nextId
  afresh : ∀ v, Leads (fun _ => True) (fun _ => True) t v → ∀ co actor id,
    (duplicateForUser co root user actor).eval v = .ok id → t.nextId ≤ id

/-- A user who has no host is given one that has been made since. -/
theorem Arena.le_of_eval_duplicateForUser (ha : Arena suits s) (hst : Steps suits s t)
    {user : String} (hnone : ∀ h, s.host? root = some h → h.users[user]? = none)
    {co : Collaborators β} {actor : Actor} {id : HostId}
    (hid : (duplicateForUser co root user actor).eval t = .ok id) : s.nextId ≤ id := by
  have ha' := Steps.arena ha hst
  rcases duplicateForUser_cases co t root user actor with
    ⟨_, ⟨e, he⟩, _⟩ | ⟨h, hh, ⟨k, hk, hok, _⟩ | ⟨hu, ⟨_, hok, _⟩ | ⟨m, _, hstart, _⟩⟩⟩
  · rw [he] at hid
    cases hid
  · -- a host that was there before would have been one of the user then
    obtain rfl : k = id := Except.ok.inj (hok.symm.trans hid)
    by_contra hlt
    obtain ⟨x, hx, hown⟩ := ha'.user hh hk
    obtain ⟨y, hy, hxy, _⟩ := Steps.host?_of_lt ha hst (Nat.lt_of_not_le hlt) hx
    obtain ⟨p, hp, hpu, _⟩ := ha.owner hy (hxy.symm.trans hown)
    rw [hnone p hp] at hpu
    cases hpu
  · obtain rfl : t.nextId = id := Except.ok.inj (hok.symm.trans hid)
    exact Steps.nextId_le hst
  · obtain ⟨v, _, hcases⟩ := start_cases co (ha'.beginUser hh hu actor).keyed t.nextId m actor
    rcases hcases with ⟨hok, _⟩ | ⟨⟨e, he⟩, _⟩
    · obtain rfl : t.nextId = id := Except.ok.inj (hok.symm.trans (hstart.symm.trans hid))
      exact Steps.nextId_le hst
    · rw [hstart, he] at hid
      cases hid

/-- The host of a user is as if it had never been once it has been discarded, whatever its code has
done, but for the state of its root. -/
theorem Arena.userUndone (ha : Arena suits s) (hsuits : ∀ c : Catalogue, True → c.Follows suits)
    {h : Host β} {user : String} {sink : Actor} (hh : s.host? root = some h)
    (hnew : h.users[user]? = none) (hu : CodeSteps s.nextId (s.beginUser root h user sink) u)
    (ht : t = (ServerM.discard s.nextId).exec u) (ha' : Arena suits t) :
    UserUndone root user s t := by
  have hf := hu.frame
  have hid : h.id = root := ha.keyed hh
  have hne : s.nextId ≠ root := Nat.ne_of_gt (ha.lt_nextId hh)
  have hbegun := ha.host?_beginUser hh user sink
  -- the new host goes, and it goes alone
  have hchild : (s.beginUser root h user sink).host? s.nextId =
      some (h.forUser s.nextId user sink) := by
    rw [hbegun, if_neg hne.symm, if_pos rfl]
  have hrootOf : (s.beginUser root h user sink).rootOf s.nextId = root :=
    (rootOf_eq_of_owner_eq_some hchild rfl).trans hid
  have hown := hf.own
  rw [hchild, Option.map_some] at hown
  obtain ⟨x, hx, hshape⟩ := Option.map_eq_some_iff.1 hown
  have howner : x.owner = some { parent := root, user } := by
    rw [← hid]
    exact congrArg Host.owner hshape
  have husers : x.users = ∅ := congrArg Host.users hshape
  have hlt : s.nextId < u.nextId := by
    rw [hf.nextId]
    exact Nat.lt_succ_self _
  have halone := host?_discard_alone hx husers hlt
  rw [exec_discard hx] at ht
  -- the root loses the new user, and nothing else but its state can have changed
  have hroot := hf.root (by rw [hrootOf]; exact hne.symm)
  rw [hrootOf, hbegun, if_pos rfl, Option.map_some] at hroot
  obtain ⟨y, hy, hyh⟩ := Option.map_eq_some_iff.1 hroot
  have hty : t.host? root = some (y.eraseUser user) := by
    rw [ht, halone, if_neg hne.symm, hy, Option.map_some, howner]
    simp [Host.without]
  have hsame : (y.eraseUser user).stateless = h.stateless :=
    calc (y.eraseUser user).stateless = y.stateless.eraseUser user := rfl
      _ = ((h.addUser user s.nextId).eraseUser user).stateless := by rw [hyh]; rfl
      _ = h.stateless := by rw [Host.eraseUser_addUser hnew]
  exact
    { others := by
        intro k hk
        rw [ht, halone, howner]
        by_cases hkn : k = s.nextId
        · rw [if_pos hkn, hkn, ha.host?_nextId]
        · have hold := hf.others k hkn (by rwa [hrootOf])
          rw [hbegun, if_neg (Ne.symm hk), if_neg (Ne.symm hkn)] at hold
          rw [if_neg hkn, hold]
          have hstay : (fun z : Host β => z.without k (some { parent := root, user })) = id := by
            funext z
            simp [Host.without, Ne.symm hk]
          rw [hstay, Option.map_id]
          rfl
      stateless := by
        rw [hty, hh, Option.map_some, Option.map_some, hsame]
      state := by
        obtain ⟨events, hevents, hheld⟩ := CodeSteps.held_eq_or_replaced (c := root) hu
        refine ⟨(u.family s.nextId).map .ended ++ events, ?_, ?_⟩
        · rw [ht, chronicle_discard, hevents, List.append_assoc]
          rfl
        · rcases hheld with hheld | ⟨state, left, hmem⟩
          · left
            have hbegin : (s.beginUser root h user sink).host? root =
                some (h.addUser user s.nextId) := by
              rw [hbegun, if_pos rfl]
            rw [held_of_host? hy, held_of_host? hbegin] at hheld
            rw [hty, hh, Host.eq_of_stateless_eq hsame (Option.some.inj hheld)]
          · exact .inr ⟨state, left, List.mem_append_right _ hmem⟩
      apps := by
        rw [ht, discard_eq]
        exact hf.apps
      dispatch := by
        rw [ht, dispatch_discard, family_eq_singleton hx husers hlt]
        exact ha.unbindHosts_eq hf.bindings
      isStopped := by
        rw [ht, discard_eq]
        exact hf.isStopped
      settings := by
        rw [ht, discard_eq]
        exact hf.settings
      nextId := by
        rw [ht, discard_eq, hh]
        exact hf.nextId
      afresh := by
        intro v hv co actor id hid'
        refine ha'.le_of_eval_duplicateForUser (Leads.steps hsuits ha' hv) ?_ hid'
        intro z hz
        obtain rfl : y.eraseUser user = z := Option.some.inj (hty.symm.trans hz)
        rw [Host.users_eraseUser, if_pos rfl] }

/-! ## Failed creations -/

variable {co : Collaborators β} {actor : Actor} {e : ScriptError}

/-- A root that cannot be made leaves nothing behind. -/
theorem Arena.undone_createApplication (ha : Arena suits s) {module : Option Module}
    {perUser : Bool} (he : (createApplication co module perUser actor).eval s = .error e) :
    Undone s ((createApplication co module perUser actor).exec s) := by
  cases module with
  | none => cases he
  | some m =>
      obtain ⟨t, ht, hcases⟩ := createApplication_cases co s m perUser actor
      -- a note changes nothing that is spoken of
      have hst : Idles suits s t := (Idles.refl s).noted ht
      have hat := Steps.arena ha hst.steps
      have htn := hst.nextId
      suffices hundone : Undone t ((createApplication co (some m) perUser actor).exec s) by
        rcases ht with rfl | ⟨text, rfl⟩
        · exact hundone
        · exact ⟨hundone.hosts, hundone.apps, hundone.dispatch, hundone.isStopped,
            hundone.settings, hundone.nextId⟩
      rcases hcases with ⟨_, hexec⟩ | ⟨heval, hexec⟩
      · obtain ⟨journal, hjournal⟩ := exec_loadFailure co actor m.name .codeNotFound t.skipId
        rw [hexec, hjournal]
        exact ⟨rfl, rfl, rfl, rfl, rfl, rfl⟩
      · rw [← htn] at heval hexec
        obtain ⟨u, hu, ⟨hok, _⟩ | ⟨_, hdiscard⟩⟩ := start_cases co
          (hat.beginRoot (some m) perUser (t.savedState (some m)) (some actor)).keyed t.nextId m
          actor
        · rw [← heval, he] at hok
          cases hok
        · rw [hexec, hdiscard]
          exact hat.undone hu

/-- The host of a user that cannot be made leaves nothing behind but the state of the root. -/
theorem Arena.userUndone_duplicateForUser (ha : Arena suits s)
    (hsuits : ∀ c : Catalogue, True → c.Follows suits) {user : String}
    (he : (duplicateForUser co root user actor).eval s = .error e) :
    UserUndone root user s ((duplicateForUser co root user actor).exec s) := by
  have ha' := Moves.arena ha (moves_duplicateForUser co ha root user actor fun h : False => h.elim)
  rcases duplicateForUser_cases co s root user actor with
    ⟨hnone, _, hexec⟩ | ⟨h, hh, ⟨k, _, hok, _⟩ | ⟨hu, ⟨_, hok, _⟩ | ⟨m, _, hstart, hexec⟩⟩⟩
  · rw [hexec] at ha' ⊢
    exact
      { others := fun _ _ => rfl
        stateless := rfl
        state := ⟨[], rfl, .inl rfl⟩
        apps := rfl
        dispatch := rfl
        isStopped := rfl
        settings := rfl
        nextId := by simp [hnone]
        afresh := by
          intro v hv co actor id hid
          refine ha.le_of_eval_duplicateForUser (Leads.steps hsuits ha hv) ?_ hid
          intro z hz
          rw [hnone] at hz
          cases hz }
  · rw [hok] at he
    cases he
  · rw [hok] at he
    cases he
  · obtain ⟨u, hsteps, ⟨hok, _⟩ | ⟨_, hdiscard⟩⟩ := start_cases co
      (ha.beginUser hh hu actor).keyed s.nextId m actor
    · rw [← hstart, he] at hok
      cases hok
    · exact ha.userUndone hsuits hh hu hsteps (hexec.trans hdiscard) ha'

/-- A user who is not served has no host that is left behind. -/
theorem Arena.userUndone_serve (ha : Arena suits s)
    (hsuits : ∀ c : Catalogue, True → c.Follows suits) {user : String}
    (he : (do
      match ← duplicateForUser co root user actor with
      | .error e => return .error e
      | .ok id => return .ok (some (← serve actor id)) :
        ServerM σ β (Except ScriptError (Option HostId))).eval s = .error e) :
    UserUndone root user s
      ((do
        match ← duplicateForUser co root user actor with
        | .error e => return .error e
        | .ok id => return .ok (some (← serve actor id)) :
          ServerM σ β (Except ScriptError (Option HostId))).exec s) := by
  rw [eval_bind] at he
  rw [exec_bind]
  cases hmade : (duplicateForUser co root user actor).eval s with
  | ok id =>
      rw [hmade] at he
      cases he
  | error e' => exact ha.userUndone_duplicateForUser hsuits hmade

theorem Arena.userUndone_retrieveForExecution (ha : Arena suits s)
    (hsuits : ∀ c : Catalogue, True → c.Follows suits)
    (he : (retrieveForExecution co root actor).eval s = .error e) :
    ∃ user, actor.user? = some user ∧
      UserUndone root user s ((retrieveForExecution co root actor).exec s) := by
  unfold retrieveForExecution at he ⊢
  rw [eval_bind, eval_host?, exec_host?] at he
  rw [exec_bind, eval_host?, exec_host?]
  cases hh : s.host? root with
  | none =>
      rw [hh] at he
      cases he
  | some h =>
      rw [hh] at he
      dsimp only at he ⊢
      cases hp : h.perUser with
      | false =>
          rw [hp] at he
          cases he
      | true =>
          rw [hp, if_pos rfl] at he
          rw [if_pos rfl]
          cases hactor : actor.user? with
          | none =>
              rw [hactor] at he
              cases he
          | some user =>
              rw [hactor] at he
              exact ⟨user, rfl, ha.userUndone_serve hsuits he⟩

theorem Arena.userUndone_retrieveForTarget (ha : Arena suits s)
    (hsuits : ∀ c : Catalogue, True → c.Follows suits) {target : Option Actor}
    (he : (retrieveForTarget co root target).eval s = .error e) :
    ∃ actor user, target = some actor ∧ actor.user? = some user ∧
      UserUndone root user s ((retrieveForTarget co root target).exec s) := by
  unfold retrieveForTarget at he ⊢
  rw [eval_bind, eval_host?, exec_host?] at he
  rw [exec_bind, eval_host?, exec_host?]
  cases hh : s.host? root with
  | none =>
      rw [hh] at he
      cases he
  | some h =>
      rw [hh] at he
      dsimp only at he ⊢
      cases target with
      | none =>
          cases hp : h.perUser with
          | false =>
              rw [hp] at he
              cases he
          | true =>
              rw [hp] at he
              cases he
      | some actor =>
          dsimp only at he ⊢
          cases hp : h.perUser with
          | false =>
              rw [hp] at he
              cases he
          | true =>
              rw [hp] at he
              cases hactor : actor.user? with
              | none =>
                  rw [hactor] at he
                  cases he
              | some user =>
                  rw [hactor] at he
                  exact ⟨actor, user, rfl, hactor, ha.userUndone_serve hsuits he⟩

/-- Whatever the code of a new host does before it fails, the server is left as it was: for a root
entirely, and for the host of a user but for the state of the root. -/
theorem undone_of_reachable {allowed : Catalogue → Prop} (hs : Reachable allowed s)
    (co : Collaborators β) :
    (∀ module perUser actor e, (createApplication co module perUser actor).eval s = .error e →
      Undone s ((createApplication co module perUser actor).exec s)) ∧
    (∀ root user actor e, (duplicateForUser co root user actor).eval s = .error e →
      UserUndone root user s ((duplicateForUser co root user actor).exec s)) ∧
    (∀ root actor e, (retrieveForExecution co root actor).eval s = .error e →
      ∃ user, actor.user? = some user ∧
        UserUndone root user s ((retrieveForExecution co root actor).exec s)) ∧
    (∀ root target e, (retrieveForTarget co root target).eval s = .error e →
      ∃ actor user, target = some actor ∧ actor.user? = some user ∧
        UserUndone root user s ((retrieveForTarget co root target).exec s)) := by
  have hsuits : ∀ c : Catalogue, True → c.Follows fun _ _ => True := fun _ _ _ _ _ => trivial
  have ha : Arena _ s := hs.arena fun c _ => hsuits c trivial
  exact ⟨fun _ _ _ _ he => ha.undone_createApplication he,
    fun _ _ _ _ he => ha.userUndone_duplicateForUser hsuits he,
    fun _ _ _ he => ha.userUndone_retrieveForExecution hsuits he,
    fun _ _ _ he => ha.userUndone_retrieveForTarget hsuits he⟩

/-- The module of a stall for which hooks are defined, a library is run and a state is written
before the stall turns out to be for the server only. -/
def stallEvaluator : Evaluator Unit where
  runModule frame _ :=
    .ask (.define { name := "__on_tick", module := some "stall", parameters := [], body := () })
      fun _ =>
        .ask (.define { name := "__config", module := some "stall", parameters := [], body := () })
          fun _ => .ask (.importModule "scales")
            fun _ => .ask (.writeState (some "1".toUTF8))
              fun _ => .done (if frame.actor = .server then .ok .null else .error (.runtime "closed"))
  callFunction _ _ _ := .done (.ok (.map []))
  accepts f arguments := f.acceptsArity arguments
  produce _ _ := .null

/-- The stall and its library. -/
def stallCatalogue : Catalogue :=
  (MemoryModules.ofList [{ name := "stall", code := some "" },
    { name := "scales", code := some "", isLibrary := true }]).catalogue

/-- Neither a second stall nor the stall's host for a player can be made by a player, and what has
been done for them is undone. -/
theorem undone_stall :
    let co := Collaborators.plain stallEvaluator stallCatalogue
    let s : Server MemoryStore Unit := Operation.runAll co [.addApp "stall" .server] (.new ∅ {})
    let second : ServerM MemoryStore Unit _ :=
      createApplication co (some { name := "stall", code := some "" }) true (.player "ann" 1)
    let user : ServerM MemoryStore Unit _ := duplicateForUser co 1 "ann" (.player "ann" 1)
    let served : ServerM MemoryStore Unit _ := retrieveForExecution co 1 (.player "ann" 1)
    Reachable (fun _ => True) s ∧
      (∃ e, second.eval s = .error e) ∧ Undone s (second.exec s) ∧
      (∃ e, user.eval s = .error e) ∧ UserUndone 1 "ann" s (user.exec s) ∧
      (∃ e, served.eval s = .error e) ∧ UserUndone 1 "ann" s (served.exec s) := by
  intro co s second user served
  have hs : Reachable (fun _ => True) s := .runAll trivial _ (.new _ _)
  have hfails : ∀ {α : Type} {r : Except ScriptError α}, r.toBool = false → ∃ e, r = .error e := by
    rintro α (e | a) h
    · exact ⟨e, rfl⟩
    · cases h
  obtain ⟨e, he⟩ := hfails (r := second.eval s) (by decide +kernel)
  obtain ⟨e', he'⟩ := hfails (r := user.eval s) (by decide +kernel)
  obtain ⟨e'', he''⟩ := hfails (r := served.eval s) (by decide +kernel)
  obtain ⟨hroot, huser, hserved, _⟩ := undone_of_reachable hs co
  obtain ⟨u, hu, hundone⟩ := hserved _ _ _ he''
  obtain rfl : "ann" = u := Option.some.inj hu
  exact ⟨hs, ⟨e, he⟩, hroot _ _ _ _ he, ⟨e', he'⟩, huser _ _ _ _ he', ⟨e'', he''⟩, hundone⟩

end Server

end ScriptHost
