import Mathlib
import ScriptHost.Proofs.Discretion
import ScriptHost.Proofs.Serving
/-!
# A user's failures reach only that user

A user host is made for the actor who asks for it, and that is the user.  Later requests of the user
bind it again after it has been unbound, and the host of another user is never what a request is
given.  So user hosts serve their users as long as they are asked for through roots.

An operation, however many hosts it concerns, is a sequence of turns: in each turn code runs under
one host, and all that is said in the turn is said to whom that host serves.  What happens between
turns is told to nobody, except that whoever asks for an app that cannot be loaded is told so.

## Main definitions

* `Stage`, `Server.Unfolds`: how an operation goes on.
* `Operation.AsksRoots`, `Server.Attended`: the runs in which users are served through roots.

## Main statements

* `ServerM.attends_createApplication`, `ServerM.attends_duplicateForUser`,
  `ServerM.attends_shutdown`, and so on: what servers do unfolds into turns.
* `Operation.attends`: so does every operation that asks roots for the hosts of users.
* `Server.discreet_of_attended`: in every run user hosts serve their users, and what is said under
  a user host is said to its user.
-/

namespace ScriptHost

variable {σ β α γ : Type} [StateStore σ] {suits : String → Module → Prop} {co : Collaborators β}
  {asker : Option Actor} {s t u : Server σ β} {id : HostId}

open Server ServerM

/-! ## How operations unfold -/

/-- One stage of an operation: something that nobody is told of, the answer to whoever asks for an
app that cannot be loaded, or a turn of a host. -/
inductive Stage (co : Collaborators β) (asker : Option Actor) (s : Server σ β) :
    Server σ β → Prop where
  | silent {t : Server σ β} (h : s.Writes Activity.IsSilent t) : Stage co asker s t
  | refuse {actor : Actor} (hactor : asker = some actor) (module : String) (reason : LoadReason) :
      Stage co asker s ((loadFailure co actor module reason).exec s)
  | turn (id : HostId) (turn : Turn β) (h : s.Confides id ((turn.run co id).exec s)) :
      Stage co asker s ((turn.run co id).exec s)

/-- A server goes on to another in stages, and after each of them user hosts serve their users. -/
abbrev Server.Unfolds (co : Collaborators β) (asker : Option Actor) :
    Server σ β → Server σ β → Prop :=
  Relation.ReflTransGen fun s t => Stage co asker s t ∧ t.OwnSinks

theorem Server.Unfolds.ownSinks (h : Unfolds co asker s t) (hs : s.OwnSinks) : t.OwnSinks := by
  cases h with
  | refl => exact hs
  | tail _ hlast => exact hlast.2

theorem Server.Unfolds.of_silent (h : s.Writes Activity.IsSilent t) (ht : t.OwnSinks) :
    Unfolds co asker s t :=
  .single ⟨.silent h, ht⟩

/-- A note is told to nobody. -/
theorem Server.Unfolds.of_noted (h : s.Noted t) (hs : s.OwnSinks) : Unfolds co asker s t := by
  refine .of_silent ?_ (hs.of_host?_eq h.host?_eq)
  rcases h with rfl | ⟨text, rfl⟩
  · exact .refl _
  · exact .record trivial

/-- Activities that nobody is told of may follow. -/
theorem Server.Unfolds.silent (h : Unfolds co asker s t) (hw : t.Writes Activity.IsSilent u)
    (hu : u.OwnSinks) : Unfolds co asker s u :=
  .tail h ⟨.silent hw, hu⟩

namespace ServerM

/-- The operation goes on in stages, and user hosts serve their users all the time. -/
def Attends (suits : String → Module → Prop) (co : Collaborators β) (asker : Option Actor)
    (m : ServerM σ β α) : Prop :=
  ∀ ⦃s : Server σ β⦄, Arena suits s → s.OwnSinks → s.Unfolds co asker (m.exec s)

/-! ### Sequencing -/

theorem attends_pure (a : α) : Attends suits co asker (pure a : ServerM σ β α) :=
  fun _ _ _ => .refl

/-- What follows an operation finds the arena in order, since the operation is made of moves. -/
theorem Attends.bind {m : ServerM σ β α} {f : α → ServerM σ β γ} (hm : Attends suits co asker m)
    (hwalks : Walks suits False m) (hf : ∀ a, Attends suits co asker (f a)) :
    Attends suits co asker (m >>= f) := by
  intro s ha hs
  have hfirst := hm ha hs
  exact hfirst.trans (hf _ (Moves.arena ha (hwalks ha)) (hfirst.ownSinks hs))

theorem Attends.ite {c : Prop} [Decidable c] {m n : ServerM σ β α} (hm : Attends suits co asker m)
    (hn : Attends suits co asker n) : Attends suits co asker (if c then m else n) := by
  split
  · exact hm
  · exact hn

theorem attends_listForM {f : α → ServerM σ β PUnit} (l : List α)
    (hwalks : ∀ a, Walks suits False (f a)) (hf : ∀ a, Attends suits co asker (f a)) :
    Attends suits co asker (l.forM f) := by
  induction l with
  | nil => exact attends_pure _
  | cons a l ih => exact (hf a).bind (hwalks a) fun _ => ih

/-- What follows a look at the server may use what was seen. -/
theorem attends_get_bind {f : Server σ β → ServerM σ β α}
    (h : ∀ s : Server σ β, Arena suits s → s.OwnSinks → s.Unfolds co asker ((f s).exec s)) :
    Attends suits co asker (get >>= f) := fun s ha hs => h s ha hs

/-! ### Single stages -/

theorem attends_of_tellsNobody {m : ServerM σ β α} (htells : TellsNobody m)
    (hkeeps : ∀ ⦃s : Server σ β⦄, Arena suits s → s.KeepsSinks (m.exec s)) :
    Attends suits co asker m :=
  fun s ha hs => .of_silent (htells s) ((hkeeps ha).ownSinks hs)

/-- Code that nobody is told of. -/
theorem attends_of_actsUnder {m : ServerM σ β α} (hacts : ActsUnder id m) (htells : TellsNobody m) :
    Attends suits co asker m :=
  attends_of_tellsNobody htells fun _ ha => .of_frame (hacts ha.keyed).frame

theorem attends_turn (id : HostId) (turn : Turn β) :
    Attends suits co asker (turn.run co id : ServerM σ β Unit) := by
  intro s ha hs
  obtain ⟨hconfides, hown⟩ := turn.confides ha hs co id
  exact .single ⟨.turn id turn hconfides, hown⟩

theorem attends_log (level : LogLevel) (text : String) :
    Attends suits co asker (log level text : ServerM σ β Unit) :=
  attends_of_tellsNobody (tellsNobody_log level text) fun _ _ => .of_host?_eq fun _ => rfl

theorem attends_loadFailure (actor : Actor) (module : String) (reason : LoadReason) :
    Attends suits co (some actor) (loadFailure co actor module reason : ServerM σ β _) := by
  intro s _ hs
  have hsame : s.KeepsSinks ((loadFailure co actor module reason).exec s) := by
    unfold loadFailure reportText deliver
    dsimp only
    rw [exec_bind]
    split <;> exact .of_host?_eq fun _ => rfl
  exact .single ⟨.refuse rfl module reason, hsame.ownSinks hs⟩

/-- The code of a new host is run in a turn of that host. -/
theorem attends_start (id : HostId) (module : Module) (actor : Actor) :
    Attends suits co asker (start co id module actor : ServerM σ β _) :=
  attends_turn id (.load module actor)

/-! ### Teardown -/

theorem attends_closeOne (id : HostId) :
    Attends suits co asker (closeOne co id : ServerM σ β Unit) :=
  attends_turn id .close

/-- Each host of a family is closed in a turn of its own. -/
theorem attends_close (id : HostId) : Attends suits co asker (close co id : ServerM σ β Unit) :=
  attends_get_bind fun s ha hs =>
    attends_listForM (s.family id) (fun k => (keeps_closeOne k).walks) attends_closeOne ha hs

theorem attends_discard (id : HostId) :
    Attends suits co asker (ServerM.discard id : ServerM σ β Unit) :=
  attends_of_tellsNobody (tellsNobody_discard id) fun s _ => .exec_discard s id

theorem attends_close_discard (id : HostId) :
    Attends suits co asker (do close co id; ServerM.discard id : ServerM σ β Unit) :=
  (attends_close id).bind (keeps_close co id).walks fun _ => attends_discard id

theorem attends_removeApp (name : String) :
    Attends suits co asker (removeApp co name : ServerM σ β Bool) := by
  unfold removeApp
  apply attends_get_bind
  intro s ha hs
  cases s.app? name with
  | none => exact .refl
  | some id =>
      have herase : Step suits s (s.eraseApp name) := .eraseApp name
      have hown : (s.eraseApp name).OwnSinks := hs.of_host?_eq fun _ => rfl
      have hfirst : Unfolds co asker s (s.eraseApp name) := .of_silent (.of_journal_eq rfl) hown
      have hgone : Unfolds co asker s _ :=
        hfirst.trans (attends_close_discard id (herase.arena ha) hown)
      exact hgone.silent (.record trivial) ((hgone.ownSinks hs).of_host?_eq fun _ => rfl)

/-! ### New hosts -/

/-- A root is made for nobody or for the one who asks for it, who is told if there is no code. -/
theorem attends_createApplication (module : Option Module) (perUser : Bool) (actor : Actor) :
    Attends suits co (some actor) (createApplication co module perUser actor : ServerM σ β _) := by
  intro s ha hs
  cases module with
  | none => exact .of_silent (.of_journal_eq rfl) (hs.beginRoot none perUser none none)
  | some m =>
      obtain ⟨t, ht, hcases⟩ := createApplication_cases co s m perUser actor
      have hst : Idles suits s t := (Idles.refl s).noted ht
      have hat := Steps.arena ha hst.steps
      have hnote : Unfolds co (some actor) s t := .of_noted ht hs
      have hown := hnote.ownSinks hs
      rcases hcases with ⟨_, hexec⟩ | ⟨_, hexec⟩
      · have hskip : Step suits t t.skipId := .skipId
        have hskipped : Unfolds co (some actor) s t.skipId :=
          hnote.silent (.of_journal_eq rfl) (hown.of_host?_eq fun _ => rfl)
        rw [hexec]
        exact hskipped.trans
          (attends_loadFailure actor m.name .codeNotFound (hskip.arena hat) (hskipped.ownSinks hs))
      · have hroot := hown.beginRoot (some m) perUser (t.savedState (some m)) (some actor)
        have hsilent : t.Writes Activity.IsSilent
            (t.beginRoot (some m) perUser (t.savedState (some m)) (some actor)) :=
          .of_journal_eq rfl
        rw [hexec]
        exact (hnote.silent hsilent hroot).trans
          (attends_start s.nextId m actor (hat.beginRoot _ _ _ _) hroot)

/-- The host of a user is made for the user. -/
theorem attends_duplicateForUser (root : HostId) {user : String} {actor : Actor}
    (huser : actor.user? = some user) :
    Attends suits co asker (duplicateForUser co root user actor : ServerM σ β _) := by
  intro s ha hs
  rcases duplicateForUser_cases co s root user actor with
    ⟨_, _, hexec⟩ | ⟨h, hh, ⟨_, _, _, hexec⟩ | ⟨hu, hnew⟩⟩
  · rw [hexec]
  · rw [hexec]
  have hown := hs.beginUser ha hh huser
  have hbegun : Unfolds co asker s (s.beginUser root h user actor) :=
    .of_silent (.of_journal_eq rfl) hown
  rcases hnew with ⟨_, _, hexec⟩ | ⟨m, _, _, hexec⟩
  · rw [hexec]
    exact hbegun
  · rw [hexec]
    exact hbegun.trans (attends_start s.nextId m actor (ha.beginUser hh hu actor) hown)

/-! ### The host that serves an actor -/

/-- A host is bound to an actor if it is no user host, or if the actor is its user. -/
theorem unfolds_serve (hs : s.OwnSinks) {actor : Actor}
    (hactor : ∀ h owner, s.host? id = some h → h.owner = some owner →
      actor.user? = some owner.user) :
    s.Unfolds co asker ((serve actor id : ServerM σ β HostId).exec s) :=
  .of_silent (.of_journal_eq rfl) (hs.serve hactor)

/-- A root may be bound to anybody. -/
theorem unfolds_serve_root (hs : s.OwnSinks) {root : HostId}
    (hroot : ∀ h, s.host? root = some h → h.owner = none) (actor : Actor) :
    s.Unfolds co asker ((serve actor root : ServerM σ β HostId).exec s) := by
  apply unfolds_serve hs
  intro h owner hh howner
  rw [hroot h hh] at howner
  cases howner

/-- The host that a user is given belongs to the user. -/
theorem owner_of_duplicateForUser (ha : Arena suits s) {root : HostId} {user : String}
    {actor : Actor} (hok : (duplicateForUser co root user actor).eval s = .ok id) :
    ∃ x owner, ((duplicateForUser co root user actor).exec s).host? id = some x ∧
      x.owner = some owner ∧ owner.user = user := by
  obtain ⟨h, hh⟩ : ∃ h, s.host? root = some h := by
    rcases duplicateForUser_cases co s root user actor with ⟨_, ⟨e, he⟩, _⟩ | ⟨h, hh, _⟩
    · rw [hok] at he
      cases he
    · exact ⟨h, hh⟩
  rcases duplicateForUser_of_ok hh hok with ⟨hu, hexec⟩ | ⟨hu, _⟩
  · obtain ⟨x, hx, howner⟩ := ha.user hh hu
    rw [hexec]
    exact ⟨x, _, hx, howner, rfl⟩
  · obtain ⟨x, hx, hterms⟩ := ha.new_of_ok hh hu hok
    exact ⟨x, _, hx, congrArg Prod.fst hterms, rfl⟩

/-- A user is given a host of their own, and it is bound to them. -/
theorem attends_duplicateForUser_serve (root : HostId) {user : String} {actor : Actor}
    (huser : actor.user? = some user) :
    Attends suits co asker (do
      match ← duplicateForUser co root user actor with
      | .error e => return .error e
      | .ok id => return .ok (some (← serve actor id)) :
        ServerM σ β (Except ScriptError (Option HostId))) := by
  intro s ha hs
  have hmade : Unfolds co asker s ((duplicateForUser co root user actor).exec s) :=
    attends_duplicateForUser root huser ha hs
  rw [exec_bind]
  refine hmade.trans ?_
  split
  · exact .refl
  · rename_i k hk
    -- the host may be new or have served the user before: it is the user's in either case
    obtain ⟨x, owner, hx, howner, hsame⟩ := owner_of_duplicateForUser ha hk
    apply unfolds_serve (hmade.ownSinks hs)
    intro h o hh ho
    obtain rfl : x = h := Option.some.inj (hx.symm.trans hh)
    obtain rfl : owner = o := Option.some.inj (howner.symm.trans ho)
    rw [huser, hsame]

theorem unfolds_retrieveForExecution (ha : Arena suits s) (hs : s.OwnSinks) {root : HostId}
    (hroot : ∀ h, s.host? root = some h → h.owner = none) (actor : Actor) :
    s.Unfolds co asker ((retrieveForExecution co root actor).exec s) := by
  unfold retrieveForExecution
  rw [exec_bind, eval_host?, exec_host?]
  cases hh : s.host? root with
  | none => exact .refl
  | some h =>
      dsimp only
      split
      · cases huser : actor.user? with
        | none => exact .refl
        | some user => exact attends_duplicateForUser_serve root huser ha hs
      · exact unfolds_serve_root hs hroot actor

theorem unfolds_retrieveForTarget (ha : Arena suits s) (hs : s.OwnSinks) {root : HostId}
    (hroot : ∀ h, s.host? root = some h → h.owner = none) (target : Option Actor) :
    s.Unfolds co asker ((retrieveForTarget co root target).exec s) := by
  unfold retrieveForTarget
  rw [exec_bind, eval_host?, exec_host?]
  cases hh : s.host? root with
  | none => exact .refl
  | some h =>
      cases target with
      | none =>
          dsimp only
          split
          · exact .refl
          · exact unfolds_serve_root hs hroot co.world.serverActor
      | some actor =>
          dsimp only
          split
          · rename_i user _ huser
            exact attends_duplicateForUser_serve root huser ha hs
          · exact .refl

/-! ### Apps -/

/-- An app is found, another of the name is removed, and its root is made.  Whoever asks for it is
told if it is not found. -/
theorem attends_addApp (name : String) (actor : Actor) :
    Attends suits co (some actor) (addApp co name actor : ServerM σ β _) := by
  have hacts : ActsUnder HostId.unnamed
      (findModule co (Text.lowercase name) false : ServerM σ β _) := actsUnder_findModule _ _
  unfold addApp
  dsimp only
  apply Attends.bind (attends_of_actsUnder hacts (tellsNobody_findModule _ _)) hacts.keeps.walks
  intro found
  cases found with
  | none => exact attends_loadFailure actor _ .appNotFound
  | some m =>
      apply Attends.bind (attends_removeApp _) (walks_removeApp co _)
      intro _
      apply Attends.bind (attends_createApplication (some m) false actor)
        (walks_createApplication co not_false (some m) false actor)
      intro made
      cases made with
      | error e => exact attends_pure _
      | ok id =>
          -- that the root is entered under the name is no step of its own, but it concerns no host
          have hsilent : TellsNobody (do
              modify fun s => { s with apps := s.apps.insert (Text.lowercase name) id }
              log .info s!"Loaded app {Text.lowercase name}"
              return .ok id : ServerM σ β (Except ScriptError HostId)) :=
            (writesOnly_of_journal_eq fun _ => rfl).bind fun _ =>
              (tellsNobody_log _ _).bind fun _ => writesOnly_pure _
          exact attends_of_tellsNobody hsilent fun _ _ => .of_host?_eq fun _ => rfl

theorem attends_addApps (hco : co.catalogue.Follows suits) (doing : String) (actor : Actor)
    (names : List String) :
    Attends suits co (some actor) (addApps co doing actor names : ServerM σ β _) := by
  induction names with
  | nil => exact attends_pure _
  | cons name rest ih =>
      apply Attends.bind (attends_addApp name actor) (walks_addApp hco name actor)
      intro added
      cases added with
      | ok id => exact ih
      | error e => exact (attends_log _ _).bind (keeps_log _ _).walks fun _ => ih

theorem attends_reloadApps (hco : co.catalogue.Follows suits) (actor : Actor) :
    Attends suits co (some actor) (reloadApps co actor : ServerM σ β _) := by
  unfold reloadApps
  apply attends_get_bind
  intro s ha hs
  refine ((attends_addApps hco _ actor _).bind (walks_addApps hco _ actor _) fun count => ?_) ha hs
  exact Attends.ite (m := do log .info _; return count) (attends_log _ _) (attends_pure _)

theorem attends_autoload (hco : co.catalogue.Follows suits) :
    Attends suits co (some co.world.serverActor) (autoload co : ServerM σ β _) :=
  attends_get_bind fun _ ha hs => attends_addApps hco _ _ _ ha hs

/-- The apps go, then the other roots, and the host that belongs to no app is closed. -/
theorem attends_shutdown : Attends suits co asker (shutdown co : ServerM σ β Unit) := by
  intro s ha hs
  unfold shutdown
  rw [exec_bind, eval_get, exec_get, exec_bind, exec_bind, eval_get, exec_get, exec_bind]
  have hremove : Attends suits co asker (s.apps.keys.forM fun name => do
      let _ ← removeApp co name : ServerM σ β PUnit) :=
    attends_listForM _ (fun name => walks_removeApp co name) attends_removeApp
  obtain ⟨hmoves, hnone⟩ := walks_removeApps co False ha s.apps.keys fun _ => mem_keys_apps
  have hgone : Unfolds co asker s _ := hremove ha hs
  have hau := Moves.arena ha hmoves
  generalize (s.apps.keys.forM fun name => do let _ ← removeApp co name).exec s = u
    at hgone hnone hau ⊢
  -- a root may be discarded only while no app is left, which is carried along for the arena
  have hroots := exec_forM_induction
    (P := fun t => Arena suits t ∧ (∀ n, t.app? n = none) ∧ Unfolds co asker s t)
    (fun id => do close co id; ServerM.discard id) (u.roots.filter (· != HostId.unnamed))
    (by
      rintro id hid t ⟨hat, hnone', hunfolds⟩
      have hunnamed : id ≠ HostId.unnamed := by simpa using (List.mem_filter.1 hid).2
      obtain ⟨hmoves', hnone''⟩ := moves_close_discard co False hat hnone' hunnamed
      exact ⟨Moves.arena hat hmoves', hnone'',
        hunfolds.trans (attends_close_discard id hat (hunfolds.ownSinks hs))⟩)
    ⟨hau, hnone, hgone⟩
  obtain ⟨hat, _, hunfolds⟩ := hroots
  exact hunfolds.trans (attends_close HostId.unnamed hat (hunfolds.ownSinks hs))

/-! ### Events and ticks -/

theorem attends_notifyAll (arguments : List Value) (bindings : List EventBinding) :
    Attends suits co asker (notifyAll co arguments bindings : ServerM σ β Nat) := by
  induction bindings with
  | nil => exact attends_pure _
  | cons binding rest ih =>
      have hnotify : Attends suits co asker (notify co arguments binding : ServerM σ β Bool) :=
        attends_turn binding.host (.notify arguments binding.function)
      exact hnotify.bind (keeps_notify arguments binding).walks fun _ => ih

/-- Each function that an event is bound to is called in a turn of its own. -/
theorem attends_fireEvent (event : Event) (arguments : List Value) :
    Attends suits co asker (fireEvent co event arguments : ServerM σ β Nat) := by
  unfold fireEvent
  apply attends_get_bind
  intro s ha hs
  cases s.isStopped with
  | true => exact .refl
  | false => exact attends_notifyAll arguments _ ha hs

theorem attends_tickHost (id : HostId) : Attends suits co asker (tickHost id : ServerM σ β Unit) :=
  attends_of_tellsNobody (tellsNobody_tickHost id) fun _ ha =>
    .of_windowsOnly (windowsOnly_tickHost ha.keyed id)

theorem attends_tick : Attends suits co asker (tick co : ServerM σ β Unit) :=
  (attends_fireEvent .tick []).bind (keeps_fireEvent .tick []).walks fun _ =>
    attends_get_bind fun _ ha hs =>
      attends_listForM _ (fun id => (keeps_tickHost id).walks) attends_tickHost ha hs

/-! ### Switches -/

theorem attends_setStopped (stop : Bool) :
    Attends suits co asker (ServerM.setStopped stop : ServerM σ β Unit) := by
  have hset : Attends suits co asker
      (modify ({ · with isStopped := stop }) : ServerM σ β PUnit) :=
    attends_of_tellsNobody (writesOnly_of_journal_eq fun _ => rfl)
      fun _ _ => .of_host?_eq fun _ => rfl
  unfold ServerM.setStopped
  apply attends_get_bind
  intro s ha hs
  dsimp only
  split
  · exact ((attends_log _ _).bind (keeps_log _ _).walks fun _ => hset) ha hs
  · exact hset ha hs

/-- A host that is unbound serves nobody. -/
theorem attends_resetSink (id : HostId) :
    Attends suits co asker (resetSink id : ServerM σ β Unit) := by
  intro s _ hs
  refine .of_silent (.of_journal_eq rfl) fun k x owner actor hx howner hsink => ?_
  have hx' : (s.modifyHost id ({ · with sink := none })).host? k = some x := hx
  rw [host?_modifyHost] at hx'
  split at hx'
  · obtain ⟨y, _, rfl⟩ := Option.map_eq_some_iff.1 hx'
    cases hsink
  · exact hs hx' howner hsink

end ServerM

/-! ## Operations -/

/-- Whoever has asked for an app to be loaded. -/
def Operation.requester (co : Collaborators β) : Operation β → Option Actor
  | addApp _ actor => some actor
  | createApplication _ _ actor => some actor
  | reloadApps actor => some actor
  | autoload => some co.world.serverActor
  | _ => none

/-- Users are given their hosts by roots, and only so are hosts of users made. -/
def Operation.AsksRoots (s : Server σ β) : Operation β → Prop
  | duplicateForUser root user _ => ∀ h, s.host? root = some h → h.users[user]? ≠ none
  | retrieveForExecution root _ => ∀ h, s.host? root = some h → h.owner = none
  | retrieveForTarget root _ => ∀ h, s.host? root = some h → h.owner = none
  | _ => True

omit [StateStore σ] in
/-- Whether a host is a root can be computed. -/
theorem asksRoots_of_all {root : HostId} (h : (s.host? root).all (·.isRoot)) :
    ∀ x, s.host? root = some x → x.owner = none := by
  intro x hx
  rw [hx] at h
  exact Option.isNone_iff_eq_none.1 h

/-- Every operation that asks roots for the hosts of users goes on in stages. -/
theorem Operation.attends (hco : co.catalogue.Follows suits) (ha : Arena suits s)
    (hs : s.OwnSinks) {op : Operation β} (hop : op.AsksRoots s) :
    s.Unfolds co (op.requester co) ((op.run co).exec s) := by
  cases op with
  | setStopped stop => exact attends_setStopped stop ha hs
  | invoke id i => exact attends_turn id (.invoke i) ha hs
  | define id f => exact attends_turn id (.define f) ha hs
  | delete id module name =>
      exact attends_of_actsUnder (actsUnder_delete module name) (tellsNobody_delete module name)
        ha hs
  | addApp name actor => exact attends_addApp name actor ha hs
  | removeApp name => exact attends_removeApp name ha hs
  | createApplication module perUser actor =>
      exact attends_createApplication module perUser actor ha hs
  | duplicateForUser root user actor =>
      have hsame : (ServerM.duplicateForUser co root user actor).exec s = s := by
        rcases duplicateForUser_cases co s root user actor with
          ⟨_, _, hexec⟩ | ⟨h, hh, ⟨_, _, _, hexec⟩ | ⟨hu, _⟩⟩
        · exact hexec
        · exact hexec
        · exact absurd hu (hop h hh)
      have hexec : (Operation.run co (.duplicateForUser root user actor)).exec s = s := hsame
      rw [hexec]
  | retrieveForExecution root actor => exact unfolds_retrieveForExecution ha hs hop actor
  | retrieveForTarget root target => exact unfolds_retrieveForTarget ha hs hop target
  | close id => exact attends_close id ha hs
  | reloadApps actor => exact attends_reloadApps hco actor ha hs
  | autoload => exact attends_autoload hco ha hs
  | shutdown => exact attends_shutdown ha hs
  | fireEvent event arguments => exact attends_fireEvent event arguments ha hs
  | tick => exact attends_tick ha hs
  | tickHost id => exact attends_tickHost id ha hs
  | reportFailure id intro error => exact attends_turn id (.report intro error) ha hs
  | resetSink id => exact attends_resetSink id ha hs
  | writeGlobalState id blob =>
      exact attends_of_actsUnder (actsUnder_writeGlobalState blob)
        (tellsNobody_writeGlobalState blob) ha hs
  | readTag id file shared =>
      exact attends_of_actsUnder (actsUnder_readTag file shared) (tellsNobody_readTag file shared)
        ha hs
  | writeTag id blob file shared =>
      exact attends_of_actsUnder (actsUnder_writeTag blob file shared)
        (tellsNobody_writeTag blob file shared) ha hs
  | appendLog id file shared typeName lines =>
      exact attends_of_actsUnder (actsUnder_appendLog file shared typeName lines)
        (tellsNobody_appendLog file shared typeName lines) ha hs
  | readText id file shared =>
      exact attends_of_actsUnder (actsUnder_readText file shared)
        (tellsNobody_readText file shared) ha hs
  | remove id file shared typeName =>
      exact attends_of_actsUnder (actsUnder_remove file shared typeName)
        (tellsNobody_remove file shared typeName) ha hs

/-! ## Runs -/

/-- A server that comes about from a new one by operations that ask roots for the hosts of users,
with whatever collaborators. -/
inductive Server.Attended : Server σ β → Prop where
  | new (store : σ) (settings : Settings) : Attended (Server.new store settings)
  | step {s : Server σ β} (hs : Attended s) (co : Collaborators β) (op : Operation β)
      (hop : op.AsksRoots s) : Attended ((op.run co).exec s)

/-- In such a run the arena is in order, and user hosts serve their users. -/
theorem Server.Attended.arena_ownSinks (h : Attended s) :
    Arena (fun _ _ => True) s ∧ s.OwnSinks := by
  induction h with
  | new store settings => exact ⟨arena_new store settings, ownSinks_new store settings⟩
  | step _ co op hop ih =>
      obtain ⟨ha, hs⟩ := ih
      have hco : co.catalogue.Follows fun _ _ => True := fun _ _ _ => trivial
      exact ⟨Steps.arena ha (op.steps hco ha), (Operation.attends hco ha hs hop).ownSinks hs⟩

/-- In every run in which users are given their hosts by roots, every user host serves its user or
nobody.  So all that is said in a turn of a host is said to whom it serves, and if it is a user host
to its user; and every operation that may come next goes on in such turns. -/
theorem Server.discreet_of_attended (hs : Attended s) :
    s.OwnSinks ∧
      (∀ (co : Collaborators β) (id : HostId) (turn : Turn β),
        s.Confides id ((turn.run co id).exec s)) ∧
      ∀ (co : Collaborators β) (op : Operation β), op.AsksRoots s →
        s.Unfolds co (op.requester co) ((op.run co).exec s) := by
  obtain ⟨ha, hown⟩ := hs.arena_ownSinks
  refine ⟨hown, fun co id turn => (turn.confides ha hown co id).1, fun co op hop => ?_⟩
  exact Operation.attends (fun _ _ _ => trivial) ha hown hop

/-- In the market ann's host is unbound and bound to ann again.  What fails when bob has it run a
command is told to ann, whose outbox has the number 1. -/
theorem Server.discreet_market :
    let co : Collaborators Unit :=
      { Collaborators.plain (.always (.done (.error (.runtime "boom")))) marketCatalogue with
        isOpen := fun _ => true }
    let opened : Server MemoryStore Unit := Operation.runAll co
      [.createApplication (some { name := "market", code := some "" }) true .server] (.new ∅ {})
    let ann : Server MemoryStore Unit :=
      ((Operation.retrieveForExecution 1 (.player "ann" 1)).run co).exec opened
    let bob : Server MemoryStore Unit :=
      ((Operation.retrieveForTarget 1 (some (.player "bob" 2))).run co).exec ann
    let unbound : Server MemoryStore Unit := ((Operation.resetSink 2).run co).exec bob
    let s : Server MemoryStore Unit :=
      ((Operation.retrieveForExecution 1 (.player "ann" 1)).run co).exec unbound
    let boom : StoredFunction Unit :=
      { name := "boom", module := some "market", parameters := [], body := () }
    let command : Turn Unit := .invoke (.command (.player "bob" 2) boom [])
    s.Attended ∧ s.OwnSinks ∧ s.sinkOf 2 = some (.player "ann" 1) ∧
      s.sinkOf 3 = some (.player "bob" 2) ∧ s.Confides 2 ((command.run co 2).exec s) ∧
      ((command.run co 2).exec s).journal.filterMap
        (fun | .sent outbox _ => some outbox | _ => none) = [1, 1] := by
  intro co opened ann bob unbound s boom command
  have hopened : opened.Attended := .step (.new _ _) co _ trivial
  have hann : ann.Attended := .step hopened co _ (asksRoots_of_all (by decide +kernel))
  have hbob : bob.Attended := .step hann co _ (asksRoots_of_all (by decide +kernel))
  have hs : s.Attended :=
    .step (.step hbob co (.resetSink 2) trivial) co _ (asksRoots_of_all (by decide +kernel))
  obtain ⟨hown, hturns, _⟩ := discreet_of_attended hs
  exact ⟨hs, hown, by decide +kernel, by decide +kernel, hturns co 2 command, by decide +kernel⟩

end ScriptHost
