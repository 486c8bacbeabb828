import Mathlib
import ScriptHost.Proofs.Creation
import ScriptHost.Proofs.Removal
/-!
# The hosts that serve users

A user has at most one host under a root.  It is made when the user is served for the first time,
and found again from then on.  It goes only together with the root: a host that is discarded alone
is a new one whose code has failed.  So it is enough to know that the host of a user is there as
long as its root is.  Since numbers are not used again it is then the same host, and since hosts and
users agree, it is the one that the root has for the user.

What the host has been made with it keeps: code can configure roots only.

## Main statements

* `Host.terms`, `Steps.sameTerms`: what the host of a user has been made with, it keeps.
* `Server.Together`, `ServerM.Joins`, `Operation.joins`: the host of a user goes with its root only.
* `Retrieval`, `Retrieval.run_cases`: the ways to the host of a user.
* `Server.ServedBy`, `Server.Arena.servedBy`: the host of a user is found again.
* `Server.Gives`, `Server.Arena.gives`: what a retrieval gives, and which hosts it makes.
* `served_of_reachable`: a user has one host under a root, for as long as the root is there.
-/

namespace ScriptHost

variable {σ β α γ : Type} [StateStore σ] {suits : String → Module → Prop}

open Server ServerM

/-! ## What the host of a user has been made with -/

/-- The terms on which the host of a user serves: whose host it is, and what it has taken over from
its root. -/
def Host.terms (h : Host β) :
    Option Ownership × Entries × Std.ExtTreeMap String CommandArgument × Bool :=
  (h.owner, h.config, h.argTypes, h.persistenceRequired)

/-- The terms on which a new host of a user serves under a root. -/
def Host.termsFor (h : Host β) (user : String) :
    Option Ownership × Entries × Std.ExtTreeMap String CommandArgument × Bool :=
  (some { parent := h.id, user }, h.config, h.argTypes, h.persistenceRequired)

section

variable {s t u : Server σ β} {id k : HostId}

/-- The host of a user has the same terms as before. -/
def Server.SameTerms (s t : Server σ β) (k : HostId) : Prop :=
  ∀ x, t.host? k = some x → x.owner ≠ none → ∃ y, s.host? k = some y ∧ x.terms = y.terms

omit [StateStore σ] in
/-- A change to a host that is not about terms. -/
theorem Server.sameTerms_modifyHost (s : Server σ β) (id k : HostId) {g : Host β → Host β}
    (hg : ∀ x, s.host? id = some x → (g x).owner ≠ none → (g x).terms = x.terms) :
    SameTerms s (s.modifyHost id g) k := by
  intro x hx ho
  rw [host?_modifyHost] at hx
  split at hx
  · rename_i hk
    obtain ⟨y, hy, rfl⟩ := Option.map_eq_some_iff.1 hx
    exact ⟨y, hy, hg y (hk ▸ hy) ho⟩
  · exact ⟨x, hx, rfl⟩

omit [StateStore σ] in
theorem Server.SameTerms.trans (h : SameTerms s t k) (g : SameTerms t u k) : SameTerms s u k := by
  intro x hx ho
  obtain ⟨y, hy, hxy⟩ := g x hx ho
  obtain ⟨z, hz, hyz⟩ := h y hy ((congrArg Prod.fst hxy).symm.trans_ne ho)
  exact ⟨z, hz, hxy.trans hyz⟩

/-- Code changes no terms, since only roots can be configured. -/
theorem CodeStep.sameTerms (h : CodeStep id s t) (k : HostId) : SameTerms s t k := by
  have hsame : ∀ {v : Server σ β}, v.hosts = s.hosts → SameTerms s v k := by
    intro v hv x hx _
    exact ⟨x, by rw [Server.host?, ← hv]; exact hx, rfl⟩
  have hhold : ∀ (c : HostId) (blob : Option Blob),
      SameTerms s (s.modifyHost c (·.hold blob)) k := fun c blob =>
    s.sameTerms_modifyHost c k fun _ _ _ => rfl
  cases h with
  | record a => exact hsame rfl
  | define hh f => exact s.sameTerms_modifyHost id k fun _ _ _ => rfl
  | delete hh module name => exact s.sameTerms_modifyHost id k fun _ _ _ => rfl
  | setGlobal module name b => exact s.sameTerms_modifyHost id k fun _ _ _ => rfl
  | defer label => exact s.sameTerms_modifyHost id k fun _ _ _ => rfl
  | force index producer => exact s.sameTerms_modifyHost id k fun _ _ _ => rfl
  | markImported hh module hm => exact s.sameTerms_modifyHost id k fun _ _ _ => rfl
  | @configure h hh hr c =>
      refine s.sameTerms_modifyHost id k fun x hx ho => ?_
      obtain rfl : x = h := Option.some.inj (hx.symm.trans hh)
      exact absurd hr ho
  | storage h =>
      cases h with
      | request hh r file kind shared hs => exact hsame rfl
      | answer => exact hsame rfl
      | keep hh hn hw blob => exact hhold _ blob
      | save hh hn hw blob hr =>
          exact (hhold _ blob).trans
            (Server.sameTerms_modifyHost (s.modifyHost _ (·.hold blob)) _ k fun _ _ _ => rfl)
      | refuse hh hn hw blob hr => exact hhold _ blob

/-- In a step the host of a user keeps its terms. -/
theorem Step.sameTerms (ha : Arena suits s) (h : Step suits s t) (hk : k < s.nextId) :
    SameTerms s t k := by
  have hsame : ∀ {v : Server σ β}, v.hosts = s.hosts → SameTerms s v k := by
    intro v hv x hx _
    exact ⟨x, by rw [Server.host?, ← hv]; exact hx, rfl⟩
  have hwindow : ∀ (c : HostId) (ticks : Nat) (e : StateEvent),
      SameTerms s (s.setWindow c ticks e) k := fun c ticks e =>
    Server.sameTerms_modifyHost (s.remember e) c k fun _ _ _ => rfl
  have hsave : ∀ (c : HostId) (ticks : Nat) (e : StateEvent) (x : Host β),
      SameTerms s ((s.setWindow c ticks e).save x) k := by
    intro c ticks e x y hy ho
    rw [host?_save] at hy
    exact hwindow c ticks e y hy ho
  cases h with
  | code h => exact h.sameTerms k
  | skipId => exact hsame rfl
  | setStopped stop => exact hsame rfl
  | setSink id f => exact s.sameTerms_modifyHost id k fun _ _ _ => rfl
  | beginRoot module perUser sink =>
      intro x hx _
      rw [host?_beginRoot, if_neg (Nat.ne_of_gt hk)] at hx
      exact ⟨x, hx, rfl⟩
  | beginUser hh hu sink =>
      intro x hx _
      rcases ha.host?_of_host?_beginUser hh hx with ⟨rfl, _⟩ | ⟨y, hy, hxy, _⟩
      · exact absurd hk (lt_irrefl _)
      · exact ⟨y, hy, by rw [hxy]; rfl⟩
  | discard hh hid happ =>
      intro x hx _
      obtain ⟨_, y, hy, hxy, _⟩ := host?_of_host?_discard hx
      exact ⟨y, hy, by rw [hxy]; rfl⟩
  | eraseApp name => exact hsame rfl
  | insertApp hh ho hm hsuits happ => exact hsame rfl
  | tickIdle hh hw => exact hsame rfl
  | tickWait hh hw => exact hwindow _ _ _
  | tickSave hh hw => exact hsave _ _ _ _
  | closeIdle hh hw => exact hsame rfl
  | closeSave hh hw => exact hsave _ _ _ _

/-- Code keeps all terms. -/
theorem CodeSteps.sameTerms (h : CodeSteps id s t) (k : HostId) : SameTerms s t k := by
  induction h with
  | refl => exact fun x hx _ => ⟨x, hx, rfl⟩
  | tail _ hstep ih => exact ih.trans (hstep.sameTerms k)

/-- The host of a user keeps its terms after any number of steps. -/
theorem Steps.sameTerms (ha : Arena suits s) (h : Steps suits s t) (hk : k < s.nextId) :
    SameTerms s t k := by
  induction h with
  | refl => exact fun x hx _ => ⟨x, hx, rfl⟩
  | @tail u v hsteps hstep ih =>
      have hk' : k < u.nextId := hk.trans_le (Steps.nextId_le hsteps)
      exact ih.trans (hstep.sameTerms (Steps.arena ha hsteps) hk')

/-- Every host of a user began under its parent when there was none for the user, with the terms of
that moment. -/
def Server.Originated (suits : String → Module → Prop) (s : Server σ β) : Prop :=
  ∀ k x o, s.host? k = some x → x.owner = some o →
    ∃ v h, v.host? o.parent = some h ∧ h.users[o.user]? = none ∧ v.nextId = k ∧
      Steps suits v s ∧ x.terms = h.termsFor o.user

theorem originated_new (store : σ) (settings : Settings) :
    Originated suits (new store settings : Server σ β) := by
  intro k x o hx ho
  have ha : Arena suits (new store settings : Server σ β) := arena_new store settings
  obtain ⟨y, hy, _, hyo⟩ := ha.unnamed
  -- there is one host only
  have hlt : k < HostId.unnamed + 1 := ha.lt_nextId hx
  obtain rfl : k = HostId.unnamed := Nat.le_zero.1 (Nat.le_of_lt_succ hlt)
  obtain rfl : x = y := Option.some.inj (hx.symm.trans hy)
  rw [hyo] at ho
  cases ho

theorem Step.originated (ha : Arena suits s) (hs : Originated suits s) (h : Step suits s t) :
    Originated suits t := by
  intro k x o hx ho
  -- a host that was there before has kept its terms
  have hold : k < s.nextId → ∃ v r, v.host? o.parent = some r ∧ r.users[o.user]? = none ∧
      v.nextId = k ∧ Steps suits v t ∧ x.terms = r.termsFor o.user := by
    intro hk
    obtain ⟨y, hy, hxy⟩ := h.sameTerms ha hk x hx (by simp [ho])
    obtain ⟨v, r, hr, hu, hnext, hsteps, hterms⟩ :=
      hs k y o hy ((congrArg Prod.fst hxy).symm.trans ho)
    exact ⟨v, r, hr, hu, hnext, hsteps.tail h, hxy.trans hterms⟩
  by_cases hk : k < s.nextId
  · exact hold hk
  rcases h.places_or with hstay | ⟨module, perUser, sink, rfl⟩ |
    ⟨root, z, user, sink, hz, hu, rfl⟩ |
    ⟨id, z, rfl⟩
  · obtain ⟨y, hy, _⟩ := hstay.places.host? hx
    exact absurd (ha.lt_nextId hy) hk
  · rw [host?_beginRoot] at hx
    split at hx
    · rw [← Option.some.inj hx] at ho
      cases ho
    · exact absurd (ha.lt_nextId hx) hk
  · rcases ha.host?_of_host?_beginUser hz hx with ⟨rfl, rfl⟩ | ⟨y, hy, _⟩
    · obtain rfl := Option.some.inj ho
      rw [← ha.keyed hz] at hz
      exact ⟨s, z, hz, hu, rfl, .single h, rfl⟩
    · exact absurd (ha.lt_nextId hy) hk
  · obtain ⟨_, y, hy, _⟩ := host?_of_host?_discard hx
    exact absurd (ha.lt_nextId hy) hk

end

/-! ## Users' hosts stay with their roots -/

section

variable {s t u : Server σ β} {id k : HostId} {h : Host β} {co : Collaborators β}

/-- The host of a user goes only when the host goes that it belongs to. -/
def Server.Together (s t : Server σ β) : Prop :=
  ∀ k x o, s.host? k = some x → x.owner = some o → (t.host? o.parent).isSome → (t.host? k).isSome

namespace Server.Together

omit [StateStore σ] in
/-- Where no host goes that was there. -/
theorem of_live (h : ∀ k, (s.host? k).isSome → (t.host? k).isSome) : Together s t := by
  intro k x o hx _ _
  exact h k (by rw [hx]; rfl)

omit [StateStore σ] in
theorem of_samePlaces (hp : SamePlaces s t) : Together s t := by
  apply of_live
  intro k hlive
  have hplace := congrArg Option.isSome (hp k)
  rw [Option.isSome_map, Option.isSome_map] at hplace
  rwa [hplace]

theorem trans (h : Together s t) (g : Together t u) (ha : Arena suits s)
    (hst : Steps suits s t) (htu : Steps suits t u) : Together s u := by
  intro k x o hx ho hlive
  obtain ⟨p, hp, _⟩ := ha.owner hx ho
  -- the parent has been there all the time
  have hparent : (t.host? o.parent).isSome := by
    obtain ⟨q, hq⟩ := Option.isSome_iff_exists.1 hlive
    have hlt : o.parent < t.nextId := (ha.lt_nextId hp).trans_le (Steps.nextId_le hst)
    obtain ⟨r, hr, _⟩ := Steps.host?_of_lt (Steps.arena ha hst) htu hlt hq
    rw [hr]
    rfl
  obtain ⟨y, hy⟩ := Option.isSome_iff_exists.1 (h k x o hx ho hparent)
  obtain ⟨z, hz, howner, _⟩ := Steps.host?_of_lt ha hst (ha.lt_nextId hx) hy
  obtain rfl : z = x := Option.some.inj (hz.symm.trans hx)
  exact g k y o hy (howner.trans ho) hlive

end Server.Together

omit [StateStore σ] in
/-- When a root is discarded, the hosts of users that go with it belong to hosts that go. -/
theorem Server.Arena.together_discard (ha : Arena suits s) (hh : s.host? id = some h)
    (ho : h.owner = none) : Together s (s.discard id h) := by
  intro k x o hx hxo hlive
  by_contra hgone
  have hk : k ∈ s.family id := by
    by_contra hk
    rw [host?_discard_of_not_mem hx hk] at hgone
    exact hgone rfl
  rcases user_of_mem_familyTo hk with rfl | ⟨q, y, hq, hy, v, hv⟩
  · obtain rfl : h = x := Option.some.inj (hh.symm.trans hx)
    rw [ho] at hxo
    cases hxo
  · obtain ⟨z, hz, hzo⟩ := ha.user hy hv
    obtain rfl : x = z := Option.some.inj (hx.symm.trans hz)
    obtain rfl : o = { parent := q, user := v } := Option.some.inj (hxo.symm.trans hzo)
    have hparent : (s.discard id h).host? q = none := by
      have hq' : q ∈ s.family id := hq
      rw [host?_discard, if_pos hq']
    dsimp only at hlive
    rw [hparent] at hlive
    cases hlive

namespace ServerM

/-- The operation is made of steps, and the host of a user goes only with the host that it belongs
to. -/
def Joins (suits : String → Module → Prop) (m : ServerM σ β α) : Prop :=
  ∀ ⦃s : Server σ β⦄, Arena suits s → Steps suits s (m.exec s) ∧ Together s (m.exec s)

theorem joins_pure (a : α) : Joins suits (pure a : ServerM σ β α) :=
  fun _ _ => ⟨.refl, .of_live fun _ h => h⟩

theorem Joins.bind {m : ServerM σ β α} {f : α → ServerM σ β γ} (hm : Joins suits m)
    (hf : ∀ a, Joins suits (f a)) : Joins suits (m >>= f) := by
  intro s ha
  obtain ⟨hst, htogether⟩ := hm ha
  obtain ⟨htu, htogether'⟩ := hf (m.eval s) (Steps.arena ha hst)
  exact ⟨hst.trans htu, htogether.trans htogether' ha hst htu⟩

theorem Joins.ite {c : Prop} [Decidable c] {m n : ServerM σ β α} (hm : Joins suits m)
    (hn : Joins suits n) : Joins suits (if c then m else n) := by
  split
  · exact hm
  · exact hn

theorem joins_get_bind {f : Server σ β → ServerM σ β α} (h : ∀ s, Joins suits (f s)) :
    Joins suits (get >>= f) := fun s ha => h s ha

theorem joins_host?_bind {id : HostId} {f : Option (Host β) → ServerM σ β α}
    (h : ∀ o, Joins suits (f o)) : Joins suits (host? id >>= f) := fun s ha => h (s.host? id) ha

theorem joins_listForM {f : α → ServerM σ β PUnit} (l : List α) (hf : ∀ a, Joins suits (f a)) :
    Joins suits (l.forM f) := by
  induction l with
  | nil => exact joins_pure _
  | cons a l ih => exact (hf a).bind fun _ => ih

/-- Where hosts neither come nor go. -/
theorem Keeps.joins {m : ServerM σ β α} (h : Keeps suits m) : Joins suits m :=
  fun _ ha => ⟨(h ha).steps, .of_samePlaces (h ha).places⟩

/-- A new host whose code fails goes alone. -/
theorem joined_start (co : Collaborators β) (ha : Arena suits s) {b : Server σ β}
    (hstep : Step suits s b) (hlive : ∀ k, (s.host? k).isSome → (b.host? k).isSome)
    (happs : b.apps = s.apps) (m : Module) (actor : Actor) :
    Steps suits s ((start co s.nextId m actor).exec b) ∧
      Together s ((start co s.nextId m actor).exec b) := by
  have hab := hstep.arena ha
  obtain ⟨t, hcode, ⟨_, hexec⟩ | ⟨_, hexec⟩⟩ := start_cases co hab.keyed s.nextId m actor
  · rw [hexec]
    refine ⟨hcode.steps.head hstep, .of_live fun k hk => ?_⟩
    rw [hcode.frame.isSome_host?_eq]
    exact hlive k hk
  · have hst : Steps suits s t := hcode.steps.head hstep
    rw [hexec]
    refine ⟨hst.trans (steps_discard_new ha hcode happs), .of_live fun k hk => ?_⟩
    have hkt : (t.host? k).isSome := by
      rw [hcode.frame.isSome_host?_eq]
      exact hlive k hk
    obtain ⟨x, hx⟩ := Option.isSome_iff_exists.1 hk
    obtain ⟨y, hy⟩ := Option.isSome_iff_exists.1 hkt
    cases hz : t.host? s.nextId with
    | none =>
        rw [exec_discard_of_host?_eq_none hz]
        exact hkt
    | some z =>
        have hout : k ∉ t.family s.nextId := fun hmem =>
          absurd ((Steps.arena ha hst).le_of_descends (descends_of_mem_familyTo hmem))
            (Nat.not_le.2 (ha.lt_nextId hx))
        rw [Server.exec_discard hz, host?_discard_of_not_mem hy hout]
        rfl

theorem joins_createApplication (module : Option Module) (perUser : Bool) (actor : Actor) :
    Joins suits (createApplication co module perUser actor : ServerM σ β _) := by
  intro s ha
  have hlive : ∀ (v : Server σ β) (module : Option Module) (state : Option Blob)
      (sink : Option Actor) k, (v.host? k).isSome →
        ((v.beginRoot module perUser state sink).host? k).isSome := by
    intro v module state sink k hk
    rw [host?_beginRoot]
    split
    · rfl
    · exact hk
  cases module with
  | none => exact ⟨.single (.beginRoot none perUser none), .of_live (hlive s none none none)⟩
  | some m =>
      obtain ⟨t, ht, hcases⟩ := createApplication_cases co s m perUser actor
      have hst : Idles suits s t := (Idles.refl s).noted ht
      have hat := Steps.arena ha hst.steps
      rcases hcases with ⟨_, hexec⟩ | ⟨_, hexec⟩
      · have hskip : Step suits t t.skipId := .skipId
        have hfail := keeps_loadFailure co actor m.name .codeNotFound (hskip.arena hat)
        have hplaces : SamePlaces t t.skipId := fun _ => rfl
        rw [hexec]
        exact ⟨(hst.steps.tail hskip).trans hfail.steps,
          .of_samePlaces ((hst.places.trans hplaces).trans hfail.places)⟩
      · rw [← hst.nextId] at hexec
        obtain ⟨hsteps, htogether⟩ := joined_start co hat (.beginRoot (some m) perUser (some actor))
          (hlive t (some m) _ _) rfl m actor
        rw [hexec]
        exact ⟨hst.steps.trans hsteps,
          (Together.of_samePlaces hst.places).trans htogether ha hst.steps hsteps⟩

theorem joins_duplicateForUser (root : HostId) (user : String) (actor : Actor) :
    Joins suits (duplicateForUser co root user actor : ServerM σ β _) := by
  intro s ha
  rcases duplicateForUser_cases co s root user actor with
    ⟨_, _, hexec⟩ | ⟨h, hh, ⟨_, _, _, hexec⟩ | ⟨hu, hnew⟩⟩
  · rw [hexec]
    exact joins_pure () ha
  · rw [hexec]
    exact joins_pure () ha
  have hlive : ∀ k, (s.host? k).isSome → ((s.beginUser root h user actor).host? k).isSome := by
    intro k hk
    obtain ⟨x, hx⟩ := Option.isSome_iff_exists.1 hk
    obtain ⟨y, hy, _⟩ := ha.host?_beginUser_of_host? hh hu actor hx
    rw [hy]
    rfl
  rcases hnew with ⟨_, _, hexec⟩ | ⟨m, _, _, hexec⟩
  · rw [hexec]
    exact ⟨.single (.beginUser hh hu actor), .of_live hlive⟩
  · rw [hexec]
    exact joined_start co ha (.beginUser hh hu actor) hlive rfl m actor

theorem joins_serve (actor : Actor) (id : HostId) : Joins suits (serve actor id : ServerM σ β _) :=
  (keeps_serve actor id).joins

theorem joins_duplicateForUser_serve (root : HostId) (user : String) (actor : Actor) :
    Joins suits (do
      match ← duplicateForUser co root user actor with
      | .error e => return .error e
      | .ok id => return .ok (some (← serve actor id)) :
        ServerM σ β (Except ScriptError (Option HostId))) := by
  refine (joins_duplicateForUser root user actor).bind fun made => ?_
  cases made with
  | error e => exact joins_pure _
  | ok id => exact (joins_serve actor id).bind fun _ => joins_pure _

theorem joins_retrieveForExecution (root : HostId) (actor : Actor) :
    Joins suits (retrieveForExecution co root actor : ServerM σ β _) := by
  unfold retrieveForExecution
  apply joins_host?_bind
  rintro (_ | h)
  · exact joins_pure _
  · apply Joins.ite
    · cases actor.user? with
      | none => exact joins_pure _
      | some user => exact joins_duplicateForUser_serve root user actor
    · exact (joins_serve actor root).bind fun _ => joins_pure _

theorem joins_retrieveForTarget (root : HostId) (target : Option Actor) :
    Joins suits (retrieveForTarget co root target : ServerM σ β _) := by
  unfold retrieveForTarget
  apply joins_host?_bind
  rintro (_ | h)
  · exact joins_pure _
  · cases target with
    | none =>
        exact (joins_pure _).ite
          ((joins_serve co.world.serverActor root).bind fun _ => joins_pure _)
    | some actor =>
        dsimp only
        split
        · exact joins_duplicateForUser_serve root _ actor
        · exact joins_pure _

theorem joins_removeApp (co : Collaborators β) (name : String) :
    Joins suits (removeApp co name : ServerM σ β Bool) := by
  intro s ha
  have hmoves : Moves suits True s ((removeApp co name).exec s) := walks_removeApp co name ha
  refine ⟨Moves.steps ha hmoves, ?_⟩
  rcases removeApp_cases co ha name with ⟨_, hexec⟩ | ⟨id, u, h, a, hid, hidle, hh, _, hexec⟩
  · rw [hexec]
    exact .of_live fun _ h => h
  · have hsu : Steps suits s u := hidle.steps.head (.eraseApp name)
    have hplaces : SamePlaces s u := hidle.places
    obtain ⟨x, _, hx, ho, _⟩ := ha.app hid
    obtain ⟨y, hy, hplace⟩ := hplaces.symm.host? hx
    obtain rfl : h = y := Option.some.inj (hh.symm.trans hy)
    have hroot : h.owner = none := (Host.owner_of_place_eq hplace).symm.trans ho
    have hgoes := (Steps.arena ha hsu).together_discard hh hroot
    have hstep : Steps suits u (u.discard id h) := .single (step_unload ha hid hidle hh)
    have htogether : Together s (u.discard id h) :=
      (Together.of_samePlaces hplaces).trans hgoes ha hsu hstep
    rw [hexec]
    exact htogether

theorem joins_addApp (hco : co.catalogue.Follows suits) (name : String) (actor : Actor) :
    Joins suits (addApp co name actor : ServerM σ β _) := by
  intro s ha
  have hmoves : Moves suits True s ((addApp co name actor).exec s) := walks_addApp hco name actor ha
  refine ⟨Moves.steps ha hmoves, ?_⟩
  have hact : ActsUnder HostId.unnamed
      (findModule co (Text.lowercase name) false : ServerM σ β _) := actsUnder_findModule _ _
  have hfind : Joins suits (findModule co (Text.lowercase name) false : ServerM σ β _) :=
    hact.keeps.joins
  unfold addApp
  dsimp only
  rw [exec_bind]
  cases (findModule co (Text.lowercase name) false).eval s with
  | none =>
      have hfail := hfind.bind fun _ =>
        (keeps_loadFailure co actor (Text.lowercase name) .appNotFound).joins
      exact (hfail ha).2
  | some m =>
      -- that the new root is entered under the name concerns no host
      have hnew : Joins suits (createApplication co (some m) false actor : ServerM σ β _) :=
        joins_createApplication _ _ _
      have hmade :=
        hfind.bind fun _ => (joins_removeApp co (Text.lowercase name)).bind fun _ => hnew
      dsimp only
      rw [exec_bind, exec_bind]
      split
      · exact (hmade ha).2
      · exact (hmade ha).2

theorem joins_addApps (hco : co.catalogue.Follows suits) (doing : String) (actor : Actor)
    (names : List String) : Joins suits (addApps co doing actor names : ServerM σ β _) := by
  induction names with
  | nil => exact joins_pure _
  | cons name rest ih =>
      refine (joins_addApp hco name actor).bind fun added => ?_
      cases added with
      | ok id => exact ih.bind fun _ => joins_pure _
      | error e => exact (keeps_log _ _).joins.bind fun _ => ih

theorem joins_reloadApps (hco : co.catalogue.Follows suits) (actor : Actor) :
    Joins suits (reloadApps co actor : ServerM σ β _) := by
  unfold reloadApps
  apply joins_get_bind
  intro s
  refine (joins_addApps hco _ actor _).bind fun count => ?_
  exact Joins.ite (m := do log .info _; return count)
    ((keeps_log _ _).joins.bind fun _ => joins_pure _) (joins_pure _)

theorem joins_autoload (hco : co.catalogue.Follows suits) :
    Joins suits (autoload co : ServerM σ β _) :=
  joins_get_bind fun _ => joins_addApps hco _ _ _

/-- With no app left, roots that are closed and discarded take the hosts of their users with
them. -/
theorem together_close_discard (ha : Arena suits s) (hnone : ∀ n, s.app? n = none)
    (hid : id ≠ HostId.unnamed) (hroot : ∀ h, s.host? id = some h → h.owner = none) :
    Together s ((do close co id; ServerM.discard id : ServerM σ β Unit).exec s) := by
  have hclose := keeps_close co id ha
  rw [exec_bind]
  cases hh : ((close co id).exec s).host? id with
  | none =>
      rw [exec_discard_of_host?_eq_none hh]
      exact .of_samePlaces hclose.places
  | some h =>
      obtain ⟨x, hx, hplace⟩ := hclose.places.host? hh
      have ho : h.owner = none := (Host.owner_of_place_eq hplace).trans (hroot x hx)
      have hau := Steps.arena ha hclose.steps
      have hstep := step_drop hnone hid hclose hh
      rw [Server.exec_discard hh]
      exact (Together.of_samePlaces hclose.places).trans (hau.together_discard hh ho) ha
        hclose.steps (.single hstep)

theorem joins_shutdown : Joins suits (shutdown co : ServerM σ β Unit) := by
  intro s ha
  have hmoves : Moves suits True s ((shutdown co).exec s) := walks_shutdown ha
  refine ⟨Moves.steps ha hmoves, ?_⟩
  unfold shutdown
  rw [exec_bind, eval_get, exec_get, exec_bind, exec_bind, eval_get, exec_get, exec_bind]
  -- the apps go
  have hremove : Joins suits (s.apps.keys.forM fun name => do let _ ← removeApp co name :
      ServerM σ β PUnit) :=
    joins_listForM _ fun name => (joins_removeApp co name).bind fun _ => joins_pure _
  obtain ⟨hsu, htogether⟩ := hremove ha
  have hnone := (walks_removeApps co True ha s.apps.keys fun _ => mem_keys_apps).2
  have hau := Steps.arena ha hsu
  generalize (s.apps.keys.forM fun name => do let _ ← removeApp co name).exec s = u
    at hsu htogether hnone hau ⊢
  -- the other roots go: each of them is still a root when its turn comes, or not there
  have hroots := exec_forM_induction
    (P := fun t => Arena suits t ∧ (∀ n, t.app? n = none) ∧ Steps suits u t ∧ Together u t)
    (fun id => do close co id; ServerM.discard id) (u.roots.filter (· != HostId.unnamed))
    (by
      rintro id hid t ⟨hat, hnone', hut, htogether'⟩
      obtain ⟨hmem, hne⟩ := List.mem_filter.1 hid
      have hunnamed : id ≠ HostId.unnamed := by simpa using hne
      obtain ⟨x, hx, ho⟩ := Server.mem_roots.1 hmem
      have hroot : ∀ h, t.host? id = some h → h.owner = none := by
        intro h hh
        obtain ⟨y, hy, howner, _⟩ := Steps.host?_of_lt hau hut (hau.lt_nextId hx) hh
        obtain rfl : x = y := Option.some.inj (hx.symm.trans hy)
        exact howner.trans ho
      obtain ⟨hmoves', hnone''⟩ := moves_close_discard co True hat hnone' hunnamed
      have hstep := Moves.steps hat hmoves'
      exact ⟨Moves.arena hat hmoves', hnone'', hut.trans hstep, htogether'.trans
        (together_close_discard hat hnone' hunnamed hroot) hau hut hstep⟩)
    ⟨hau, hnone, .refl, .of_live fun _ h => h⟩
  generalize ((u.roots.filter (· != HostId.unnamed)).forM fun id => do
    close co id; ServerM.discard id).exec u = t at hroots ⊢
  obtain ⟨hat, _, hut, htogether'⟩ := hroots
  have hclose := keeps_close co HostId.unnamed hat
  have hst : Together s t := htogether.trans htogether' ha hsu hut
  exact hst.trans (.of_samePlaces hclose.places) ha (hsu.trans hut) hclose.steps

end ServerM

/-- Whatever is done, the host of a user goes only with the host that it belongs to. -/
theorem Operation.joins (hco : co.catalogue.Follows suits) (op : Operation β) :
    Joins suits (op.run co : ServerM σ β Unit) := by
  by_cases hidle : op.IsIdle
  · exact (Operation.keeps hidle).joins
  cases op with
  | addApp name actor => exact (joins_addApp hco name actor).bind fun _ => joins_pure _
  | removeApp name => exact (joins_removeApp co name).bind fun _ => joins_pure _
  | createApplication module perUser actor =>
      exact (joins_createApplication module perUser actor).bind fun _ => joins_pure _
  | duplicateForUser root user actor =>
      exact (joins_duplicateForUser root user actor).bind fun _ => joins_pure _
  | retrieveForExecution root actor =>
      exact (joins_retrieveForExecution root actor).bind fun _ => joins_pure _
  | retrieveForTarget root target =>
      exact (joins_retrieveForTarget root target).bind fun _ => joins_pure _
  | reloadApps actor => exact (joins_reloadApps hco actor).bind fun _ => joins_pure _
  | autoload => exact (joins_autoload hco).bind fun _ => joins_pure _
  | shutdown => exact joins_shutdown
  | _ => exact absurd trivial hidle

/-- One operation after the other. -/
theorem Server.Leads.joined {allowed : Catalogue → Prop} {kind : Operation β → Prop}
    (hallowed : ∀ c, allowed c → c.Follows suits) (ha : Arena suits s)
    (h : Leads allowed kind s t) : Steps suits s t ∧ Together s t := by
  induction h with
  | refl => exact ⟨.refl, .of_live fun _ h => h⟩
  | tail _ hlast ih =>
      obtain ⟨co, op, hco, _, rfl⟩ := hlast
      obtain ⟨hst, htogether⟩ := ih
      obtain ⟨htu, htogether'⟩ := op.joins (hallowed co.catalogue hco) (Steps.arena ha hst)
      exact ⟨hst.trans htu, htogether.trans htogether' ha hst htu⟩

/-! ## The ways to the host of a user -/

/-- A way to get the host of a user under a root. -/
inductive Retrieval where
  | execution (actor : Actor)
  | target (actor? : Option Actor)
  | duplicate (user : String) (actor : Actor)

namespace Retrieval

/-- The user who is to be served. -/
def user? : Retrieval → Option String
  | execution actor => actor.user?
  | target actor? => actor?.bind (·.user?)
  | duplicate user _ => some user

/-- Gets the host. -/
def run (co : Collaborators β) (root : HostId) :
    Retrieval → ServerM σ β (Except ScriptError (Option HostId))
  | execution actor => retrieveForExecution co root actor
  | target actor? => retrieveForTarget co root actor?
  | duplicate user actor => (·.map some) <$> duplicateForUser co root user actor

variable {root : HostId}

/-- All ways to the host of a user go through `ServerM.duplicateForUser`, and nothing is done for an
actor that is no user. -/
theorem run_cases (co : Collaborators β) (hh : s.host? root = some h) (hp : h.perUser = true)
    (q : Retrieval) :
    (q.user? = none ∧ (q.run co root).eval s = .ok none ∧ (q.run co root).exec s = s) ∨
      ∃ user actor, q.user? = some user ∧
        (q.run co root).eval s = ((duplicateForUser co root user actor).eval s).map some ∧
        ((q.run co root).exec s = (duplicateForUser co root user actor).exec s ∨
          ∃ id f, (duplicateForUser co root user actor).eval s = .ok id ∧
            (q.run co root).exec s =
              ((duplicateForUser co root user actor).exec s).setSink id f) := by
  -- the host is bound to the actor when it has been found or made
  have hserve : ∀ user actor,
      let made : ServerM σ β (Except ScriptError HostId) := duplicateForUser co root user actor
      let served : ServerM σ β (Except ScriptError (Option HostId)) := do
        match ← made with
        | .error e => return .error e
        | .ok id => return .ok (some (← serve actor id))
      served.eval s = (made.eval s).map some ∧
        (served.exec s = made.exec s ∨
          ∃ id f, made.eval s = .ok id ∧ served.exec s = (made.exec s).setSink id f) := by
    intro user actor made served
    have heval : served.eval s = _ := eval_bind s made _
    have hexec : served.exec s = _ := exec_bind s made _
    rw [heval, hexec]
    cases made.eval s with
    | error e => exact ⟨rfl, .inl rfl⟩
    | ok id => exact ⟨rfl, .inr ⟨id, fun h => h.sink <|> some actor, rfl, rfl⟩⟩
  cases q with
  | duplicate user actor => exact .inr ⟨user, actor, rfl, rfl, .inl rfl⟩
  | execution actor =>
      unfold run retrieveForExecution user?
      dsimp only
      rw [eval_bind, exec_bind, eval_host?, exec_host?, hh]
      dsimp only
      rw [if_pos hp]
      cases actor.user? with
      | none => exact .inl ⟨rfl, rfl, rfl⟩
      | some user => exact .inr ⟨user, actor, rfl, hserve user actor⟩
  | target actor? =>
      unfold run retrieveForTarget user?
      dsimp only
      rw [eval_bind, exec_bind, eval_host?, exec_host?, hh]
      dsimp only
      cases actor? with
      | none =>
          dsimp only
          rw [if_pos hp]
          exact .inl ⟨rfl, rfl, rfl⟩
      | some actor =>
          rw [Option.bind_some, hp]
          dsimp only
          cases actor.user? with
          | none => exact .inl ⟨rfl, rfl, rfl⟩
          | some user => exact .inr ⟨user, actor, rfl, hserve user actor⟩

end Retrieval

/-! ## One host for each user -/

section

variable {s t u : Server σ β} {root id k : HostId} {h x : Host β} {user : String}
  {co : Collaborators β}

/-- A user is served by one host under a root.  The host has the terms that it had, all ways to the
host of the user find it, nothing new is made for it, and no other user is served by it. -/
structure Server.ServedBy (root : HostId) (user : String) (id : HostId) (x : Host β)
    (s : Server σ β) : Prop where
  host : ∃ y, s.host? id = some y ∧ y.terms = x.terms
  found : ∀ (co : Collaborators β) (q : Retrieval), q.user? = some user →
    (q.run co root).eval s = .ok (some id) ∧
      ((q.run co root).exec s = s ∨ ∃ f, (q.run co root).exec s = s.setSink id f)
  only : ∀ (co : Collaborators β) (q : Retrieval) (k : HostId),
    (q.run co root).eval s = .ok (some k) → (q.user? = some user ↔ k = id)

/-- What `ServerM.duplicateForUser` answers is the host that the user has, or a new one. -/
theorem ServerM.duplicateForUser_of_ok {actor : Actor} (hh : s.host? root = some h)
    (hok : (duplicateForUser co root user actor).eval s = .ok id) :
    (h.users[user]? = some id ∧ (duplicateForUser co root user actor).exec s = s) ∨
      (h.users[user]? = none ∧ id = s.nextId) := by
  rcases duplicateForUser_cases co s root user actor with
    ⟨hnone, _⟩ | ⟨y, hy, hcases⟩
  · rw [hnone] at hh
    cases hh
  obtain rfl : y = h := Option.some.inj (hy.symm.trans hh)
  rcases hcases with ⟨k, hk, heval, hexec⟩ | ⟨hnone, ⟨_, heval, _⟩ | ⟨m, _, heval, _⟩⟩
  · obtain rfl : k = id := Except.ok.inj (heval.symm.trans hok)
    exact .inl ⟨hk, hexec⟩
  · exact .inr ⟨hnone, (Except.ok.inj (heval.symm.trans hok)).symm⟩
  · exact .inr ⟨hnone, (start_of_ok (heval.symm.trans hok)).1⟩

/-- The host that a user has is found, and nothing is done. -/
theorem ServerM.eval_duplicateForUser_of_user (co : Collaborators β) (hh : s.host? root = some h)
    (hu : h.users[user]? = some id) (actor : Actor) :
    (duplicateForUser co root user actor).eval s = .ok id ∧
      (duplicateForUser co root user actor).exec s = s := by
  unfold duplicateForUser
  rw [eval_bind, exec_bind, eval_host?, exec_host?, hh]
  dsimp only
  rw [hu]
  exact ⟨rfl, rfl⟩

/-- A user who has a host is served by it. -/
theorem Server.Arena.servedBy (ha : Arena suits s) (hh : s.host? root = some h)
    (hp : h.perUser = true) (hx : s.host? id = some x)
    (ho : x.owner = some { parent := root, user }) : ServedBy root user id x s := by
  obtain ⟨y, hy, hu, _⟩ := ha.owner hx ho
  obtain rfl : y = h := Option.some.inj (hy.symm.trans hh)
  have hfound : ∀ co (q : Retrieval), q.user? = some user →
      (q.run co root).eval s = .ok (some id) ∧
        ((q.run co root).exec s = s ∨ ∃ f, (q.run co root).exec s = s.setSink id f) := by
    intro co q hq
    rcases q.run_cases co hh hp with ⟨hnone, _⟩ | ⟨v, actor, hv, heval, hexec⟩
    · rw [hq] at hnone
      cases hnone
    obtain rfl : v = user := Option.some.inj (hv.symm.trans hq)
    obtain ⟨hok, hsame⟩ := eval_duplicateForUser_of_user co hh hu actor
    rw [hok] at heval
    refine ⟨heval, ?_⟩
    rcases hexec with hexec | ⟨k, f, hk, hexec⟩
    · exact .inl (hexec.trans hsame)
    · obtain rfl : id = k := Except.ok.inj (hok.symm.trans hk)
      rw [hsame] at hexec
      exact .inr ⟨f, hexec⟩
  refine ⟨⟨x, hx, rfl⟩, hfound, fun co q k hk => ⟨fun hq => ?_, ?_⟩⟩
  · have heq := (hfound co q hq).1.symm.trans hk
    exact (Option.some.inj (Except.ok.inj heq)).symm
  · rintro rfl
    rcases q.run_cases co hh hp with ⟨_, hnone, _⟩ | ⟨v, actor, hv, heval, _⟩
    · have heq := hnone.symm.trans hk
      cases heq
    have hmade : (duplicateForUser co root v actor).eval s = .ok k := by
      cases hmade : (duplicateForUser co root v actor).eval s with
      | error e =>
          rw [hk, hmade] at heval
          cases heval
      | ok l =>
          rw [hk, hmade] at heval
          obtain rfl : k = l := Option.some.inj (Except.ok.inj heval)
          rfl
    rcases duplicateForUser_of_ok hh hmade with ⟨hkv, _⟩ | ⟨_, rfl⟩
    · rw [hv, (ha.eq_of_user hh hkv hh hu).2]
    · rw [ha.host?_nextId] at hx
      cases hx

/-- What a way to the host of a user answers: the host that the user has, or a new one, which has
been made on the terms of the root. -/
structure Server.Gives (suits : String → Module → Prop) (root : HostId) (h : Host β) (user : String)
    (id : HostId) (x : Host β) (s t : Server σ β) : Prop where
  host : t.host? id = some x
  owner : x.owner = some { parent := root, user }
  had_or_new : h.users[user]? = some id ∨
    h.users[user]? = none ∧ id = s.nextId ∧ x.terms = h.termsFor user
  origin : ∃ v r, v.host? root = some r ∧ r.users[user]? = none ∧ v.nextId = id ∧
    Steps suits v t ∧ x.terms = r.termsFor user

/-- The new host of a user is there when its code has been run, on the terms of the root. -/
theorem Server.Arena.new_of_ok (ha : Arena suits s) (hh : s.host? root = some h)
    (hu : h.users[user]? = none) {actor : Actor}
    (hok : (duplicateForUser co root user actor).eval s = .ok id) :
    ∃ x, ((duplicateForUser co root user actor).exec s).host? id = some x ∧
      x.terms = h.termsFor user := by
  have hbegun : (s.beginUser root h user actor).host? s.nextId =
      some (h.forUser s.nextId user actor) := by
    rw [ha.host?_beginUser hh, if_neg (Nat.ne_of_lt (ha.lt_nextId hh)), if_pos rfl]
  rcases duplicateForUser_cases co s root user actor with ⟨hnone, _⟩ | ⟨y, hy, hcases⟩
  · rw [hnone] at hh
    cases hh
  obtain rfl : y = h := Option.some.inj (hy.symm.trans hh)
  rcases hcases with ⟨k, hk, _⟩ | ⟨_, ⟨_, heval, hexec⟩ | ⟨m, _, heval, hexec⟩⟩
  · rw [hu] at hk
    cases hk
  · obtain rfl : s.nextId = id := Except.ok.inj (heval.symm.trans hok)
    rw [hexec]
    exact ⟨_, hbegun, rfl⟩
  · obtain ⟨rfl, _⟩ := start_of_ok (heval.symm.trans hok)
    have hab := ha.beginUser hh hu actor
    obtain ⟨t, hcode, ⟨_, hdone⟩ | ⟨⟨e, he⟩, _⟩⟩ := start_cases co hab.keyed s.nextId m actor
    · obtain ⟨x, hx, hplace⟩ := hcode.frame.samePlaces.symm.host? hbegun
      have howner := (Host.owner_of_place_eq hplace).symm
      have hserves : x.owner ≠ none := by
        rw [howner]
        exact Option.some_ne_none _
      obtain ⟨z, hz, hterms⟩ := hcode.sameTerms s.nextId x hx hserves
      obtain rfl : z = _ := Option.some.inj (hz.symm.trans hbegun)
      rw [hexec, hdone]
      exact ⟨x, hx, hterms⟩
    · rw [← heval, hok] at he
      cases he

theorem Retrieval.joins (co : Collaborators β) (root : HostId) (q : Retrieval) :
    Joins suits (q.run co root : ServerM σ β (Except ScriptError (Option HostId))) := by
  cases q with
  | execution actor => exact joins_retrieveForExecution root actor
  | target actor? => exact joins_retrieveForTarget root actor?
  | duplicate user actor => exact fun s ha => joins_duplicateForUser root user actor ha

/-- A host that is answered is that of the user, whom it had or has been made for. -/
theorem Server.Arena.gives (ha : Arena suits s) (horigin : Originated suits s)
    (hh : s.host? root = some h) (hp : h.perUser = true) {q : Retrieval}
    (hok : (q.run co root).eval s = .ok (some id)) :
    ∃ user x, q.user? = some user ∧
      Gives suits root h user id x s ((q.run co root).exec s) := by
  have hsteps := (q.joins co root ha).1
  have horigin' : Originated suits ((q.run co root).exec s) :=
    Steps.induction (fun _ _ ha hs h => h.originated ha hs) ha horigin hsteps
  rcases q.run_cases co hh hp with ⟨_, hnone, _⟩ | ⟨user, actor, hq, heval, hexec⟩
  · rw [hok] at hnone
    cases hnone
  have hmade : (duplicateForUser co root user actor).eval s = .ok id := by
    cases hmade : (duplicateForUser co root user actor).eval s with
    | error e =>
        rw [hok, hmade] at heval
        cases heval
    | ok k =>
        rw [hok, hmade] at heval
        obtain rfl : id = k := Option.some.inj (Except.ok.inj heval)
        rfl
  -- the host before it is bound to the actor
  obtain ⟨x, hx, ho, hor⟩ : ∃ x,
      ((duplicateForUser co root user actor).exec s).host? id = some x ∧
        x.owner = some { parent := root, user } ∧ (h.users[user]? = some id ∨
          h.users[user]? = none ∧ id = s.nextId ∧ x.terms = h.termsFor user) := by
    rcases duplicateForUser_of_ok hh hmade with ⟨hu, hsame⟩ | ⟨hu, hnext⟩
    · obtain ⟨x, hx, ho⟩ := ha.user hh hu
      rw [hsame]
      exact ⟨x, hx, ho, .inl hu⟩
    · obtain ⟨x, hx, hterms⟩ := ha.new_of_ok hh hu hmade
      have ho : x.owner = some { parent := h.id, user } := congrArg Prod.fst hterms
      rw [ha.keyed hh] at ho
      exact ⟨x, hx, ho, .inr ⟨hu, hnext, hterms⟩⟩
  obtain ⟨y, hy, hterms⟩ : ∃ y, ((q.run co root).exec s).host? id = some y ∧
      y.terms = x.terms := by
    rcases hexec with hexec | ⟨k, f, _, hexec⟩
    · rw [hexec]
      exact ⟨x, hx, rfl⟩
    · rw [hexec, setSink, host?_modifyHost, hx]
      split
      · exact ⟨_, rfl, rfl⟩
      · exact ⟨x, rfl, rfl⟩
  have hyo : y.owner = some { parent := root, user } := (congrArg Prod.fst hterms).trans ho
  refine ⟨user, y, hq, ⟨hy, hyo, ?_, horigin' id y _ hy hyo⟩⟩
  rcases hor with hu | ⟨hu, hnext, hnew⟩
  · exact .inl hu
  · exact .inr ⟨hu, hnext, hterms.trans hnew⟩

/-- The host of a user serves the user for as long as its root is there and has one for each
player. -/
theorem Server.Arena.servedBy_of_joined (ha : Arena suits s) (hx : s.host? id = some x)
    (ho : x.owner = some { parent := root, user }) (hst : Steps suits s t)
    (htogether : Together s t) (hh : t.host? root = some h) (hp : h.perUser = true) :
    ServedBy root user id x t := by
  have hlive : (t.host? id).isSome := htogether id x _ hx ho (by rw [hh]; rfl)
  obtain ⟨y, hy⟩ := Option.isSome_iff_exists.1 hlive
  obtain ⟨z, hz, howner, _⟩ := Steps.host?_of_lt ha hst (ha.lt_nextId hx) hy
  obtain rfl : x = z := Option.some.inj (hx.symm.trans hz)
  have hyo : y.owner = some { parent := root, user } := howner.trans ho
  obtain ⟨z, hz, hterms⟩ := Steps.sameTerms ha hst (ha.lt_nextId hx) y hy (by simp [hyo])
  obtain rfl : x = z := Option.some.inj (hx.symm.trans hz)
  have hserved := (Steps.arena ha hst).servedBy hh hp hy hyo
  exact ⟨⟨y, hy, hterms⟩, hserved.found, hserved.only⟩

/-- On every reachable server, an actor that is no user gets no host of a root that has one for each
player.  A user who gets one is served by that host from then on, and by no other, for as long as
the root is there and has one for each player.  A root that has not serves everybody itself, and is
no target for an event that concerns a player. -/
theorem served_of_reachable {allowed : Catalogue → Prop} (hs : Reachable allowed s)
    (hh : s.host? root = some h) (co : Collaborators β) :
    (h.perUser = true → ∀ q : Retrieval,
      (q.user? = none → (q.run co root).eval s = .ok none ∧ (q.run co root).exec s = s) ∧
      ∀ id, (q.run co root).eval s = .ok (some id) → ∃ user x, q.user? = some user ∧
        Gives (fun _ _ => True) root h user id x s ((q.run co root).exec s) ∧
        ∀ t r, Leads (fun _ => True) (fun _ => True) ((q.run co root).exec s) t →
          t.host? root = some r → r.perUser = true → ServedBy root user id x t) ∧
    (h.perUser = false → ∀ actor,
      ((Retrieval.execution actor).run co root).eval s = .ok (some root) ∧
        ((Retrieval.target (some actor)).run co root).eval s = .ok none) := by
  have hfollows : ∀ c : Catalogue, c.Follows fun _ _ => True := fun _ _ _ _ => trivial
  obtain ⟨ha, horigin⟩ := hs.induction (fun c _ => hfollows c) originated_new
    fun _ _ ha hs h => h.originated ha hs
  refine ⟨fun hp q => ⟨fun hnone => ?_, fun id hok => ?_⟩, fun hp actor => ⟨?_, ?_⟩⟩
  · rcases q.run_cases co hh hp with ⟨_, heval, hexec⟩ | ⟨user, _, hq, _⟩
    · exact ⟨heval, hexec⟩
    · rw [hnone] at hq
      cases hq
  · obtain ⟨user, x, hq, hgives⟩ := ha.gives horigin hh hp hok
    refine ⟨user, x, hq, hgives, fun t r ht hr hrp => ?_⟩
    have hau := Steps.arena ha (q.joins co root ha).1
    obtain ⟨hsteps, htogether⟩ := ht.joined (fun c _ => hfollows c) hau
    exact hau.servedBy_of_joined hgives.host hgives.owner hsteps htogether hr hrp
  · unfold Retrieval.run retrieveForExecution
    dsimp only
    rw [eval_bind, eval_host?, exec_host?, hh]
    dsimp only
    rw [hp]
    rfl
  · unfold Retrieval.run retrieveForTarget
    dsimp only
    rw [eval_bind, eval_host?, exec_host?, hh]
    dsimp only
    rw [hp]
    rfl

/-- In the market ann is served by the host with the number 2, also after bob has been given one,
after ticks and after a pause. -/
theorem served_market :
    let co := Collaborators.plain (.always (.done (.ok .null))) marketCatalogue
    let s : Server MemoryStore Unit := Operation.runAll co
      [.createApplication (some { name := "market", code := some "" }) true .server] (.new ∅ {})
    let q : Retrieval := .execution (.player "ann" 1)
    let t : Server MemoryStore Unit := Operation.runAll co
      [.retrieveForTarget 1 (some (.player "bob" 2)), .tick, .setStopped true, .setStopped false,
        .duplicateForUser 1 "ann" (.player "ann" 3)] ((q.run co 1).exec s)
    ∃ h x, s.host? 1 = some h ∧ h.perUser = true ∧
      ((q.run co 1).eval s).toOption = some (some 2) ∧ (t.host? 3).isSome ∧
      Gives (fun _ _ => True) 1 h "ann" 2 x s ((q.run co 1).exec s) ∧ ServedBy 1 "ann" 2 x t := by
  intro co s q t
  have hs : Reachable (fun _ => True) s := .runAll trivial _ (.new _ _)
  have hroot : (s.host? 1).any (·.perUser) := by decide +kernel
  have hanswer : ((q.run co 1).eval s).toOption = some (some 2) := by decide +kernel
  have hroot' : (t.host? 1).any (·.perUser) := by decide +kernel
  obtain ⟨h, hh, hp⟩ := (Option.any_eq_true _ _).1 hroot
  obtain ⟨r, hr, hrp⟩ := (Option.any_eq_true _ _).1 hroot'
  have hok : (q.run co 1).eval s = .ok (some 2) := by
    cases hretrieved : (q.run co 1).eval s with
    | error e =>
        rw [hretrieved] at hanswer
        cases hanswer
    | ok id =>
        rw [hretrieved] at hanswer
        rw [Option.some.inj hanswer]
  obtain ⟨user, x, hq, hgives, hserved⟩ := ((served_of_reachable hs hh co).1 hp q).2 2 hok
  obtain rfl : "ann" = user := Option.some.inj hq
  exact ⟨h, x, hh, hp, hanswer, by decide +kernel, hgives,
    hserved t r (.runAll trivial (fun _ _ => trivial) _) hr hrp⟩

end

end

end ScriptHost
