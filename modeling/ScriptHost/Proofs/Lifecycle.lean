import Mathlib
import ScriptHost.Proofs.Moves
/-!
# Operations are made of moves

In a server whose arena is in order every operation is made of the moves that `Move` lists.  The
proof follows the model from the bottom: code, teardown, new hosts, apps, events and ticks.

## Main statements

* `ServerM.Walks`, `ServerM.Keeps`: an operation that is made of moves, and one that makes no host
  and removes none.
* `ServerM.start_cases`, `ServerM.createApplication_cases`, `ServerM.duplicateForUser_cases`: how a
  host is made.
* `ServerM.shut_close`: a root that is closed has its window shut.
* `ServerM.removeApp_cases`, `ServerM.walks_addApp`, `ServerM.walks_shutdown`: what the operations
  on apps come to.
* `Catalogue.Follows`: a catalogue whose modules suit the names that they are found under.
-/

namespace ScriptHost

variable {σ β α γ : Type} [StateStore σ] {suits : String → Module → Prop} {orderly : Prop}

open Server

namespace ServerM

/-- The operation is made of moves of the server. -/
def Walks (suits : String → Module → Prop) (orderly : Prop) (m : ServerM σ β α) : Prop :=
  ∀ ⦃s : Server σ β⦄, Arena suits s → Moves suits orderly s (m.exec s)

/-- The operation makes no host and removes none, and leaves the apps as they are. -/
def Keeps (suits : String → Module → Prop) (m : ServerM σ β α) : Prop :=
  ∀ ⦃s : Server σ β⦄, Arena suits s → Idles suits s (m.exec s)

/-! ## Sequencing -/

theorem walks_pure (a : α) : Walks suits orderly (pure a : ServerM σ β α) := fun _ _ => .refl

theorem Walks.bind {m : ServerM σ β α} {f : α → ServerM σ β γ} (hm : Walks suits orderly m)
    (hf : ∀ a, Walks suits orderly (f a)) : Walks suits orderly (m >>= f) := by
  intro s ha
  have hfirst := hm ha
  exact hfirst.trans (hf _ (Moves.arena ha hfirst))

theorem Walks.ite {c : Prop} [Decidable c] {m n : ServerM σ β α} (hm : Walks suits orderly m)
    (hn : Walks suits orderly n) : Walks suits orderly (if c then m else n) := by
  split
  · exact hm
  · exact hn

/-- What follows a look at the server may use what was seen. -/
theorem walks_get_bind {f : Server σ β → ServerM σ β α}
    (h : ∀ s : Server σ β, Arena suits s → Moves suits orderly s ((f s).exec s)) :
    Walks suits orderly (get >>= f) := fun s ha => h s ha

/-- What follows a look at a host may use that the host is there. -/
theorem walks_host?_bind {id : HostId} {f : Option (Host β) → ServerM σ β α}
    (h : ∀ s : Server σ β, Arena suits s → Moves suits orderly s ((f (s.host? id)).exec s)) :
    Walks suits orderly (host? id >>= f) := fun s ha => h s ha

theorem keeps_pure (a : α) : Keeps suits (pure a : ServerM σ β α) := fun s _ => .refl s

theorem Keeps.bind {m : ServerM σ β α} {f : α → ServerM σ β γ} (hm : Keeps suits m)
    (hf : ∀ a, Keeps suits (f a)) : Keeps suits (m >>= f) := by
  intro s ha
  have hfirst := hm ha
  exact hfirst.trans (hf (m.eval s) (Steps.arena ha hfirst.steps))

theorem keeps_listForM {f : α → ServerM σ β PUnit} (l : List α) (hf : ∀ a, Keeps suits (f a)) :
    Keeps suits (l.forM f) := by
  induction l with
  | nil => exact keeps_pure _
  | cons a l ih => exact (hf a).bind fun _ => ih

theorem keeps_get_bind {f : Server σ β → ServerM σ β α}
    (h : ∀ s : Server σ β, Arena suits s → Idles suits s ((f s).exec s)) :
    Keeps suits (get >>= f) := fun s ha => h s ha

/-- To make no host and to remove none is one move. -/
theorem Keeps.walks {m : ServerM σ β α} (h : Keeps suits m) : Walks suits orderly m :=
  fun _ ha => .single (.idle (h ha))

/-- Code that runs under a host makes no host and removes none. -/
theorem ActsUnder.keeps {id : HostId} {m : ServerM σ β α} (h : ActsUnder id m) :
    Keeps suits m := fun _ ha => .of_codeSteps (h ha.keyed)

theorem keeps_log (level : LogLevel) (text : String) :
    Keeps suits (log level text : ServerM σ β Unit) := fun s _ => .record s _

/-! ## Windows -/

variable {s : Server σ β} {id : HostId} {h : Host β}

omit [StateStore σ] in
/-- A host that has been looked up is put back with another window. -/
theorem insertHost_setTimeout (hs : s.Keyed) (hh : s.host? id = some h) (e : StateEvent)
    (ticks : Nat) : (s.remember e).insertHost (h.setTimeout ticks) = s.setWindow id ticks e :=
  have hkey : h.id = id := hs hh
  insertHost_eq_modifyHost (s := s.remember e) _ hh rfl hkey

/-- The state of a host is given to the store, and a refusal is noted. -/
theorem noted_saveStateOrLog (t : Server σ β) (h : Host β) :
    (t.save h).Noted ((saveStateOrLog h).exec t) := by
  have hsave : (saveState h).exec t = t.save h := by
    cases hn : h.name? with
    | none => rw [save_of_name?_eq_none t hn, exec_saveState_of_name?_eq_none t hn]
    | some name => rw [save_of_name? t hn, exec_saveState t hn]
  unfold saveStateOrLog
  rw [exec_bind, hsave]
  split
  · exact .inl rfl
  · exact .inr ⟨_, rfl⟩

/-- What a tick makes of a host: its window moves on, and when it runs out the state is saved. -/
theorem tickHost_cases (hs : s.Keyed) (hh : s.host? id = some h) :
    h.saveTimeout = 0 ∧ (tickHost id).exec s = s.remember (.ticked id) ∨
      (∃ n, h.saveTimeout = n + 2 ∧
        (tickHost id).exec s = s.setWindow id (n + 1) (.ticked id)) ∨
      h.saveTimeout = 1 ∧
        ((s.setWindow id 0 (.ticked id)).save h).Noted ((tickHost id).exec s) := by
  unfold tickHost
  rw [exec_bind, eval_host?, exec_host?, hh]
  dsimp only
  rw [exec_bind, exec_remember, exec_ite]
  match hw : h.saveTimeout with
  | 0 => exact .inl ⟨rfl, rfl⟩
  | 1 =>
      have hdone : (h.setTimeout (1 - 1)).saveTimeout = 0 := rfl
      rw [if_pos Nat.zero_lt_one, exec_bind, exec_insertHost, insertHost_setTimeout hs hh,
        exec_ite, if_pos hdone]
      exact .inr (.inr ⟨rfl, noted_saveStateOrLog _ _⟩)
  | n + 2 =>
      have hopen : (h.setTimeout (n + 2 - 1)).saveTimeout ≠ 0 := Nat.succ_ne_zero n
      rw [if_pos (Nat.succ_pos _), exec_bind, exec_insertHost, insertHost_setTimeout hs hh,
        exec_ite, if_neg hopen]
      exact .inr (.inl ⟨n, rfl, rfl⟩)

/-- What closing a window makes of a host: if it was open the state is saved. -/
theorem flushPending_cases (hs : s.Keyed) (hh : s.host? id = some h) :
    h.saveTimeout = 0 ∧ (flushPending id).exec s = s.remember (.closed id) ∨
      0 < h.saveTimeout ∧
        ((s.setWindow id 0 (.closed id)).save h).Noted ((flushPending id).exec s) := by
  unfold flushPending
  rw [exec_bind, eval_host?, exec_host?, hh]
  dsimp only
  rw [exec_bind, exec_remember, exec_ite]
  rcases Nat.eq_zero_or_pos h.saveTimeout with hw | hw
  · rw [if_neg (by omega)]
    exact .inl ⟨hw, rfl⟩
  · rw [if_pos hw, exec_bind, exec_insertHost, insertHost_setTimeout hs hh]
    exact .inr ⟨hw, noted_saveStateOrLog _ _⟩

/-- A tick is one step, and a note if the store refuses to save the state. -/
theorem keeps_tickHost (id : HostId) : Keeps suits (tickHost id : ServerM σ β Unit) := by
  intro s ha
  cases hh : s.host? id with
  | none =>
      unfold tickHost
      rw [exec_bind, eval_host?, exec_host?, hh]
      exact .refl s
  | some h =>
      rcases tickHost_cases ha.keyed hh with ⟨hw, hexec⟩ | ⟨n, hw, hexec⟩ | ⟨hw, hnoted⟩
      · rw [hexec]
        exact .of_step (.tickIdle hh hw) (fun _ => rfl) rfl rfl
      · rw [hexec]
        exact .setWindow (.tickWait hh hw)
      · exact (Idles.save (.tickSave hh hw)).noted hnoted

/-- Closing the window of a host is one step, and a note if the store refuses to save the state. -/
theorem keeps_flushPending (id : HostId) : Keeps suits (flushPending id : ServerM σ β Unit) := by
  intro s ha
  cases hh : s.host? id with
  | none =>
      unfold flushPending
      rw [exec_bind, eval_host?, exec_host?, hh]
      exact .refl s
  | some h =>
      rcases flushPending_cases ha.keyed hh with ⟨hw, hexec⟩ | ⟨hw, hnoted⟩
      · rw [hexec]
        exact .of_step (.closeIdle hh hw) (fun _ => rfl) rfl rfl
      · exact (Idles.save (.closeSave hh hw)).noted hnoted

/-! ## Teardown -/

variable {co : Collaborators β}

theorem actsUnder_callHook (co : Collaborators β) (frame : Frame) (f : StoredFunction β)
    (values : List Value) :
    ActsUnder frame.host (callHook co frame f values : ServerM σ β _) :=
  relates_callHook (codeRelation_codeSteps frame.host) rfl f values

/-- Sweeping up after a host closes its window. -/
theorem keeps_sweep (id : HostId) : Keeps suits (sweep id : ServerM σ β Unit) := by
  intro s ha
  unfold sweep
  rw [exec_bind, eval_host?, exec_host?]
  cases s.host? id with
  | none => exact keeps_pure _ ha
  | some h =>
      dsimp only
      split
      · have hrecord : ActsUnder id
            (record (.swept (Server.markerTag h.name?)) : ServerM σ β Unit) :=
          actsUnder_record _
        exact (hrecord.keeps.bind fun _ => keeps_flushPending id) ha
      · exact keeps_pure _ ha

/-- Closing a single host runs code under it, if it has a close hook, and sweeps up after it. -/
theorem closeOne_cases (co : Collaborators β) (ha : Arena suits s) (id : HostId) :
    ∃ u, CodeSteps id s u ∧ (closeOne co id).exec s = (sweep id).exec u := by
  unfold closeOne
  rw [exec_bind, eval_host?, exec_host?]
  split
  · rename_i hook _
    have hhook : CodeSteps id s _ :=
      actsUnder_callHook co { host := id, actor := s.actorFor co.world id } hook [] ha.keyed
    exact ⟨_, hhook, rfl⟩
  · exact ⟨s, .refl, rfl⟩

/-- Closing a single host runs its close hook and closes its window. -/
theorem keeps_closeOne (id : HostId) : Keeps suits (closeOne co id : ServerM σ β Unit) := by
  intro s ha
  obtain ⟨u, hcode, hexec⟩ := closeOne_cases co ha id
  rw [hexec]
  exact (Idles.of_codeSteps hcode).trans (keeps_sweep id (Steps.arena ha hcode.steps))

/-- Closing a host closes its family, one host after the other. -/
theorem keeps_close (co : Collaborators β) (id : HostId) :
    Keeps suits (close co id : ServerM σ β Unit) :=
  fun s ha => keeps_listForM (s.family id) keeps_closeOne ha

/-- Sweeping up after a root closes its window. -/
theorem exec_sweep_of_owner_eq_none (hh : s.host? id = some h) (ho : h.owner = none) :
    (sweep id).exec s =
      (flushPending id).exec (s.record (.swept (Server.markerTag h.name?))) := by
  have huser : h.user?.isNone = true := by
    rw [Host.user?, ho]
    rfl
  unfold sweep
  rw [exec_bind, eval_host?, exec_host?, hh]
  dsimp only
  rw [if_pos huser, exec_bind, exec_record]

/-- What sweeping up after a root comes to: its window is closed. -/
theorem sweep_cases (hs : s.Keyed) (hh : s.host? id = some h) (ho : h.owner = none) :
    h.saveTimeout = 0 ∧ (sweep id).exec s =
        (s.record (.swept (Server.markerTag h.name?))).remember (.closed id) ∨
      0 < h.saveTimeout ∧ (((s.record (.swept (Server.markerTag h.name?))).setWindow id 0
        (.closed id)).save h).Noted ((sweep id).exec s) := by
  have hh' : (s.record (.swept (Server.markerTag h.name?))).host? id = some h := hh
  rw [exec_sweep_of_owner_eq_none hh ho]
  exact flushPending_cases hs hh'

/-- There is nothing to be swept up after the host of a user. -/
theorem exec_sweep_of_owner_ne_none (hh : s.host? id = some h) (ho : h.owner ≠ none) :
    (sweep id).exec s = s := by
  have huser : h.user?.isNone = false := by
    rw [Option.isNone_eq_false_iff, Host.user?, Option.isSome_map]
    exact Option.isSome_iff_ne_none.2 ho
  unfold sweep
  rw [exec_bind, eval_host?, exec_host?, hh]
  dsimp only
  rw [huser]
  rfl

/-- A tick of a host moves its window on. -/
theorem windowsOnly_tickHost (hs : s.Keyed) (id : HostId) :
    s.WindowsOnly ((tickHost id).exec s) := by
  cases hh : s.host? id with
  | none =>
      unfold tickHost
      rw [exec_bind, eval_host?, exec_host?, hh]
      exact ⟨rfl, fun _ => rfl⟩
  | some h =>
      rcases tickHost_cases hs hh with ⟨_, hexec⟩ | ⟨n, _, hexec⟩ | ⟨_, hnoted⟩
      · rw [hexec]
        exact ⟨rfl, fun _ => rfl⟩
      · rw [hexec]
        exact s.windowsOnly_setWindow id _ _
      · exact (s.windowsOnly_setWindow id _ _).save hnoted

/-- Sweeping up after a host closes its window. -/
theorem windowsOnly_sweep (hs : s.Keyed) (id : HostId) : s.WindowsOnly ((sweep id).exec s) := by
  cases hh : s.host? id with
  | none =>
      unfold sweep
      rw [exec_bind, eval_host?, exec_host?, hh]
      exact ⟨rfl, fun _ => rfl⟩
  | some h =>
      by_cases ho : h.owner = none
      · rcases sweep_cases hs hh ho with ⟨_, hexec⟩ | ⟨_, hnoted⟩
        · rw [hexec]
          exact ⟨rfl, fun _ => rfl⟩
        · have hsaved := ((s.record _).windowsOnly_setWindow id _ _).save hnoted
          exact ⟨hsaved.nextId, hsaved.host⟩
      · rw [exec_sweep_of_owner_ne_none hh ho]
        exact ⟨rfl, fun _ => rfl⟩

/-- Sweeping up after a root shuts its window. -/
theorem shut_sweep (ha : Arena suits s) (hh : s.host? id = some h) (ho : h.owner = none) :
    ∃ x, ((sweep id).exec s).host? id = some x ∧ x.saveTimeout = 0 := by
  rcases sweep_cases ha.keyed hh ho with ⟨hw, hexec⟩ | ⟨hw, hnoted⟩
  · rw [hexec]
    exact ⟨h, hh, hw⟩
  · refine ⟨h.setTimeout 0, ?_, rfl⟩
    rw [hnoted.host?_eq, host?_save]
    exact host?_setWindow hh 0 (.closed id)

/-- Closing a single root shuts its window, whatever its close hook has done. -/
theorem shut_closeOne (co : Collaborators β) (ha : Arena suits s) (hh : s.host? id = some h)
    (ho : h.owner = none) :
    ∃ x, ((closeOne co id).exec s).host? id = some x ∧ x.saveTimeout = 0 := by
  obtain ⟨u, hcode, hexec⟩ := closeOne_cases co ha id
  obtain ⟨x, hx, hplace⟩ := hcode.frame.samePlaces.symm.host? hh
  rw [hexec]
  exact shut_sweep (Steps.arena ha hcode.steps) hx ((Host.owner_of_place_eq hplace).symm.trans ho)

/-- Closing a root shuts its window: it is closed after the hosts of its users. -/
theorem shut_close (co : Collaborators β) (ha : Arena suits s) (hh : s.host? id = some h)
    (ho : h.owner = none) : ∃ x, ((close co id).exec s).host? id = some x ∧ x.saveTimeout = 0 := by
  obtain ⟨n, hn⟩ := Nat.exists_eq_succ_of_ne_zero
    (Nat.ne_of_gt (Nat.zero_lt_of_lt (ha.lt_nextId hh)))
  have hfamily : s.family id = h.userIds.flatMap (s.familyTo n) ++ [id] := by
    unfold family
    rw [hn, familyTo, hh]
  have hidle : Idles suits s (((h.userIds.flatMap (s.familyTo n)).forM (closeOne co)).exec s) :=
    keeps_listForM _ keeps_closeOne ha
  obtain ⟨x, hx, hplace⟩ := hidle.places.symm.host? hh
  unfold close
  rw [exec_bind, eval_get, exec_get, hfamily, exec_forM_append]
  exact shut_closeOne co (Steps.arena ha hidle.steps) hx
    ((Host.owner_of_place_eq hplace).symm.trans ho)

/-- An app is unloaded in one move, but for a line in the log. -/
theorem removeApp_cases (co : Collaborators β) (ha : Arena suits s) (name : String) :
    (s.app? name = none ∧ (removeApp co name).exec s = s) ∨
      ∃ id u h a, s.app? name = some id ∧ Idles suits (s.eraseApp name) u ∧ u.host? id = some h ∧
        h.saveTimeout = 0 ∧ (removeApp co name).exec s = (u.discard id h).record a := by
  unfold removeApp
  rw [exec_bind, eval_get, exec_get]
  cases hid : s.app? name with
  | none => exact .inl ⟨rfl, rfl⟩
  | some id =>
      right
      dsimp only
      rw [exec_bind, exec_modify, exec_bind, exec_bind, exec_bind, exec_log]
      have herase : Step suits s (s.eraseApp name) := .eraseApp name
      have ha' := herase.arena ha
      obtain ⟨x, _, hx, ho, _⟩ := ha.app hid
      have hx' : (s.eraseApp name).host? id = some x := hx
      obtain ⟨y, hy, hw⟩ := shut_close co ha' hx' ho
      refine ⟨id, (close co id).exec (s.eraseApp name), y,
        .logged .info s!"Unloaded app {name}", rfl,
        keeps_close co id ha', hy, hw, ?_⟩
      rw [← exec_discard hy]
      rfl

theorem walks_removeApp (co : Collaborators β) (name : String) :
    Walks suits orderly (removeApp co name : ServerM σ β Bool) := by
  intro s ha
  rcases removeApp_cases co ha name with ⟨_, hexec⟩ | ⟨id, u, h, a, hid, hidle, hh, hw, hexec⟩
  · rw [hexec]
  · rw [hexec]
    exact .tail (.single (.unload hid hidle hh hw)) (.idle (.record _ _))

/-- Unloading an app strikes it off, and nothing else. -/
theorem app?_removeApp (co : Collaborators β) (ha : Arena suits s) (name n : String) :
    ((removeApp co name).exec s).app? n = if name = n then none else s.app? n := by
  rcases removeApp_cases co ha name with ⟨hnone, hexec⟩ | ⟨id, u, h, a, _, hidle, _, _, hexec⟩
  · rw [hexec]
    split
    · rename_i hn
      rw [← hn, hnone]
    · rfl
  · rw [hexec, ← app?_eraseApp, discard_eq]
    unfold app?
    rw [← hidle.apps]
    rfl

/-! ## New hosts -/

/-- The saved state of a module is looked up, and a failure is noted. -/
theorem loadState_cases (s : Server σ β) (m : Module) :
    (loadState m).eval s = s.savedState (some m) ∧ s.Noted ((loadState m).exec s) := by
  unfold loadState savedState
  rw [exec_bind, eval_bind, eval_readBlob, exec_readBlob]
  dsimp only
  cases StateStore.read s.store (.globalState m.name) with
  | ok state => exact ⟨rfl, .inl rfl⟩
  | error e => exact ⟨rfl, .inr ⟨_, rfl⟩⟩

/-- The code of a new host is run by steps of code under that host, and then the host stays or is
discarded. -/
theorem start_cases (co : Collaborators β) (hs : s.Keyed) (id : HostId) (m : Module)
    (actor : Actor) :
    ∃ t, CodeSteps id s t ∧
      ((start co id m actor).eval s = .ok id ∧ (start co id m actor).exec s = t ∨
        (∃ e, (start co id m actor).eval s = .error e) ∧
          (start co id m actor).exec s = (ServerM.discard id).exec t) := by
  have hact : ActsUnder id (runModule co (runner co) { host := id, actor } m : ServerM σ β _) := by
    apply actsUnder_runModule (runsUnder_runner co)
    rfl
  have hrun := hact hs
  unfold start
  rw [exec_bind, eval_bind]
  cases (runModule co (runner co) { host := id, actor } m).eval s with
  | ok value => exact ⟨_, hrun, .inl ⟨rfl, rfl⟩⟩
  | error cause =>
      have hreport : CodeSteps id s _ := hrun.trans (actsUnder_reportFailure co id
        (intro "Error while evaluating expression" (.ofEval cause)) (.ofEval cause)
        (hrun.frame.keyed hs))
      exact ⟨_, hreport, .inr ⟨⟨_, rfl⟩, rfl⟩⟩

/-- The code of a new host that stays has been run without failure, and nothing else has been
done. -/
theorem start_of_ok {m : Module} {actor : Actor} {k : HostId}
    (hok : (start co id m actor).eval s = .ok k) :
    k = id ∧ ∃ value,
      (runModule co (runner co) { host := id, actor } m).eval s = .ok value ∧
        (start co id m actor).exec s =
          (runModule co (runner co) { host := id, actor } m).exec s := by
  unfold start at hok ⊢
  rw [eval_bind] at hok
  rw [exec_bind]
  cases hrun : (runModule co (runner co) { host := id, actor } m).eval s with
  | ok value =>
      rw [hrun] at hok
      exact ⟨(Except.ok.inj hok).symm, value, rfl, rfl⟩
  | error cause =>
      rw [hrun] at hok
      cases hok

/-- A new root begins with the saved state of its module, and its code is run.  A module without
code is refused. -/
theorem createApplication_cases (co : Collaborators β) (s : Server σ β) (m : Module)
    (perUser : Bool) (actor : Actor) :
    ∃ t : Server σ β, s.Noted t ∧
      ((∃ e, (createApplication co (some m) perUser actor).eval s = .error e) ∧
          (createApplication co (some m) perUser actor).exec s =
            (loadFailure co actor m.name .codeNotFound).exec t.skipId ∨
        (createApplication co (some m) perUser actor).eval s = (start co s.nextId m actor).eval
            (t.beginRoot (some m) perUser (t.savedState (some m)) (some actor)) ∧
          (createApplication co (some m) perUser actor).exec s = (start co s.nextId m actor).exec
            (t.beginRoot (some m) perUser (t.savedState (some m)) (some actor))) := by
  obtain ⟨hstate, hload⟩ := loadState_cases s.skipId m
  -- the note about a saved state that cannot be read comes before everything else
  obtain ⟨t, ht, hload⟩ : ∃ t : Server σ β, s.Noted t ∧
      (loadState m).exec s.skipId = t.skipId := by
    rcases hload with hload | ⟨text, hload⟩
    · exact ⟨s, .inl rfl, hload⟩
    · exact ⟨s.record (.logged .warn text), .inr ⟨text, rfl⟩, hload⟩
  have hsaved : s.skipId.savedState (some m) = t.savedState (some m) := by
    rcases ht with rfl | ⟨a, rfl⟩ <;> rfl
  have hnext : s.nextId = t.nextId := by
    rcases ht with rfl | ⟨a, rfl⟩ <;> rfl
  refine ⟨t, ht, ?_⟩
  unfold createApplication
  rw [exec_bind, eval_bind, exec_freshId, eval_freshId]
  dsimp only
  rw [exec_bind, eval_bind, hstate, hload, hsaved, hnext]
  cases m.code.isNone with
  | true => exact .inl ⟨⟨_, rfl⟩, rfl⟩
  | false => exact .inr ⟨rfl, rfl⟩

/-- The host of a user is found, or it begins and its code is run. -/
theorem duplicateForUser_cases (co : Collaborators β) (s : Server σ β) (root : HostId)
    (user : String) (actor : Actor) :
    (s.host? root = none ∧ (∃ e, (duplicateForUser co root user actor).eval s = .error e) ∧
      (duplicateForUser co root user actor).exec s = s) ∨
    ∃ h, s.host? root = some h ∧
      ((∃ id, h.users[user]? = some id ∧
          (duplicateForUser co root user actor).eval s = .ok id ∧
          (duplicateForUser co root user actor).exec s = s) ∨
        h.users[user]? = none ∧
          ((h.module = none ∧ (duplicateForUser co root user actor).eval s = .ok s.nextId ∧
              (duplicateForUser co root user actor).exec s = s.beginUser root h user actor) ∨
            ∃ m, h.module = some m ∧
              (duplicateForUser co root user actor).eval s =
                (start co s.nextId m actor).eval (s.beginUser root h user actor) ∧
              (duplicateForUser co root user actor).exec s =
                (start co s.nextId m actor).exec (s.beginUser root h user actor))) := by
  unfold duplicateForUser
  rw [exec_bind, eval_bind, eval_host?, exec_host?]
  cases hh : s.host? root with
  | none => exact .inl ⟨rfl, ⟨_, rfl⟩, rfl⟩
  | some h =>
      right
      refine ⟨h, rfl, ?_⟩
      dsimp only
      cases hu : h.users[user]? with
      | some id => exact .inl ⟨id, rfl, rfl, rfl⟩
      | none =>
          right
          refine ⟨rfl, ?_⟩
          cases hm : h.module with
          | none => exact .inl ⟨rfl, rfl, rfl⟩
          | some m => exact .inr ⟨m, rfl, rfl, rfl⟩

theorem keeps_loadFailure (co : Collaborators β) (actor : Actor) (name : String)
    (reason : LoadReason) :
    Keeps suits (loadFailure co actor name reason : ServerM σ β _) := by
  have hact : ActsUnder HostId.unnamed (loadFailure co actor name reason : ServerM σ β _) :=
    (actsUnder_deliver co actor _).bind fun _ => actsUnder_pure _
  exact hact.keeps

/-- A root that cannot be made is gone after some moves.  Otherwise it has begun, and its code has
been run. -/
theorem createApplication_moves (co : Collaborators β) (ha : Arena suits s) (m : Module)
    (perUser : Bool) (actor : Actor)
    (hfree : orderly → ∃ name, suits name m ∧ s.app? name = none) :
    ((∃ e, (createApplication co (some m) perUser actor).eval s = .error e) ∧
        Moves suits orderly s ((createApplication co (some m) perUser actor).exec s)) ∨
      ∃ t, Idles suits s t ∧
        (createApplication co (some m) perUser actor).eval s = .ok t.nextId ∧
        CodeSteps t.nextId (t.beginRoot (some m) perUser (t.savedState (some m)) (some actor))
          ((createApplication co (some m) perUser actor).exec s) := by
  obtain ⟨t, ht, hcases⟩ := createApplication_cases co s m perUser actor
  have hst : Idles suits s t := (Idles.refl s).noted ht
  have ha' := Steps.arena ha hst.steps
  rcases hcases with ⟨he, hexec⟩ | ⟨heval, hexec⟩
  · left
    refine ⟨he, ?_⟩
    rw [hexec]
    have hskip : Step suits t t.skipId := .skipId
    have hfail := keeps_loadFailure co actor m.name .codeNotFound (hskip.arena ha')
    exact ((Relation.ReflTransGen.single (.idle hst)).tail .skipId).tail (.idle hfail)
  · rw [← hst.nextId] at heval hexec
    have hkeyed := (ha'.beginRoot (some m) perUser (t.savedState (some m)) (some actor)).keyed
    rw [heval, hexec]
    obtain ⟨u, hu, ⟨hok, hdone⟩ | ⟨he, hdone⟩⟩ := start_cases co hkeyed t.nextId m actor
    · right
      refine ⟨t, hst, hok, ?_⟩
      rw [hdone]
      exact hu
    · left
      refine ⟨he, ?_⟩
      have hfree' : orderly → ∃ name, suits name m ∧ t.app? name = none := by
        intro ho
        obtain ⟨name, hsuits, hnone⟩ := hfree ho
        refine ⟨name, hsuits, ?_⟩
        rw [app?, hst.apps]
        exact hnone
      rw [hdone]
      exact (Relation.ReflTransGen.single (.idle hst)).tail (.lostRoot hfree' hu)

/-- Where anything goes, a root is made by moves. -/
theorem walks_createApplication (co : Collaborators β) (hdisorderly : ¬ orderly)
    (module : Option Module) (perUser : Bool) (actor : Actor) :
    Walks suits orderly (createApplication co module perUser actor : ServerM σ β _) := by
  intro s ha
  cases module with
  | none =>
      have hbegin : Move suits orderly s (s.beginRoot none perUser none none) :=
        .root hdisorderly .refl
      exact .single hbegin
  | some m =>
      rcases createApplication_moves co ha m perUser actor (absurd · hdisorderly) with
        ⟨_, hmoves⟩ | ⟨t, hst, _, hcode⟩
      · exact hmoves
      · exact (Relation.ReflTransGen.single (.idle hst)).tail (.root hdisorderly hcode)

/-- The host of a user is made by a move. -/
theorem moves_duplicateForUser (co : Collaborators β) (ha : Arena suits s) (root : HostId)
    (user : String) (actor : Actor)
    (hperUser : orderly → ∀ h, s.host? root = some h → h.perUser) :
    Moves suits orderly s ((duplicateForUser co root user actor).exec s) := by
  rcases duplicateForUser_cases co s root user actor with
    ⟨_, _, hexec⟩ | ⟨h, hh, ⟨_, _, _, hexec⟩ | ⟨hu, ⟨_, _, hexec⟩ | ⟨m, _, _, hexec⟩⟩⟩
  · rw [hexec]
  · rw [hexec]
  · rw [hexec]
    exact .single (.user hh hu (fun ho => hperUser ho h hh) .refl)
  · rw [hexec]
    obtain ⟨u, hcode, ⟨_, hdone⟩ | ⟨_, hdone⟩⟩ :=
      start_cases co (ha.beginUser hh hu actor).keyed s.nextId m actor
    · rw [hdone]
      exact .single (.user hh hu (fun ho => hperUser ho h hh) hcode)
    · rw [hdone]
      exact .single (.lostUser hh hu (fun ho => hperUser ho h hh) hcode)

/-- Binding a host to an actor is a step. -/
theorem keeps_serve (actor : Actor) (id : HostId) : Keeps suits (serve actor id : ServerM σ β _) :=
  fun s _ => .of_step (.setSink id fun h => h.sink <|> some actor)
    (samePlaces_modifyHost s id fun _ => rfl) rfl rfl

/-- The host of a user is made if need be, and bound to the actor. -/
theorem moves_duplicateForUser_serve (co : Collaborators β) (ha : Arena suits s) (root : HostId)
    (user : String) (actor : Actor)
    (hperUser : orderly → ∀ h, s.host? root = some h → h.perUser) :
    Moves suits orderly s ((do
      match ← duplicateForUser co root user actor with
      | .error e => return .error e
      | .ok id => return .ok (some (← serve actor id)) :
        ServerM σ β (Except ScriptError (Option HostId))).exec s) := by
  have hmade := moves_duplicateForUser co ha root user actor hperUser
  rw [exec_bind]
  refine hmade.trans ?_
  split
  · exact .refl
  · exact ((keeps_serve actor _).bind fun _ => keeps_pure _).walks (Moves.arena ha hmade)

theorem walks_retrieveForExecution (root : HostId) (actor : Actor) :
    Walks suits orderly (retrieveForExecution co root actor : ServerM σ β _) := by
  unfold retrieveForExecution
  apply walks_host?_bind
  intro s ha
  cases hh : s.host? root with
  | none => exact .refl
  | some h =>
      dsimp only
      split
      · rename_i hp
        cases actor.user? with
        | none => exact .refl
        | some user =>
            apply moves_duplicateForUser_serve co ha
            intro _ x hx
            rwa [← Option.some.inj (hh.symm.trans hx)]
      · exact ((keeps_serve actor root).bind fun _ => keeps_pure _).walks ha

theorem walks_retrieveForTarget (root : HostId) (target : Option Actor) :
    Walks suits orderly (retrieveForTarget co root target : ServerM σ β _) := by
  unfold retrieveForTarget
  apply walks_host?_bind
  intro s ha
  cases hh : s.host? root with
  | none => exact .refl
  | some h =>
      dsimp only
      cases target with
      | none =>
          dsimp only
          split
          · exact .refl
          · exact ((keeps_serve co.world.serverActor root).bind fun _ => keeps_pure _).walks ha
      | some actor =>
          dsimp only
          split
          · rename_i hp _
            apply moves_duplicateForUser_serve co ha
            intro _ x hx
            rw [← Option.some.inj (hh.symm.trans hx)]
            exact hp
          · exact .refl

end ServerM

/-! ## Apps -/

/-- The modules of the catalogue suit the names that they are found under. -/
def Catalogue.Follows (c : Catalogue) (suits : String → Module → Prop) : Prop :=
  ∀ (name : String) (m : Module), (c.find (Text.lowercase name) false).found = some m →
    suits (Text.lowercase name) m

namespace ServerM

variable {co : Collaborators β} {s : Server σ β}

/-- Loading an app is made of moves. -/
theorem walks_addApp (hco : co.catalogue.Follows suits) (name : String) (actor : Actor) :
    Walks suits orderly (addApp co name actor : ServerM σ β _) := by
  intro s ha
  unfold addApp
  dsimp only
  have hact : ActsUnder HostId.unnamed
      (findModule co (Text.lowercase name) false : ServerM σ β _) := actsUnder_findModule _ _
  have hfind : Idles suits s _ := hact.keeps ha
  have hfound : (findModule co (Text.lowercase name) false : ServerM σ β _).eval s =
      (co.catalogue.find (Text.lowercase name) false).found := rfl
  rw [exec_bind, hfound]
  have ha₁ := Steps.arena ha hfind.steps
  refine .head (.idle hfind) ?_
  cases hm : (co.catalogue.find (Text.lowercase name) false).found with
  | none => exact (keeps_loadFailure co actor _ .appNotFound).walks ha₁
  | some m =>
      dsimp only
      rw [exec_bind]
      have hremove : Moves suits orderly _ _ := walks_removeApp co (Text.lowercase name) ha₁
      refine hremove.trans ?_
      have ha₂ := Moves.arena ha₁ hremove
      -- no app has the name any more
      have hfree := app?_removeApp co ha₁ (Text.lowercase name) (Text.lowercase name)
      rw [if_pos rfl] at hfree
      have hsuits : suits (Text.lowercase name) m := hco name m hm
      rw [exec_bind]
      rcases createApplication_moves co ha₂ m false actor
          (fun _ : orderly => ⟨Text.lowercase name, hsuits, hfree⟩) with
        ⟨⟨e, he⟩, hmoves⟩ | ⟨t, hst, hok, hcode⟩
      · rw [he]
        exact hmoves
      · have hfree' : t.app? (Text.lowercase name) = none := by
          rw [app?, hst.apps]
          exact hfree
        rw [hok]
        exact .tail (.tail (.single (.idle hst)) (.load hsuits hfree' hcode)) (.idle (.record _ _))

theorem walks_addApps (hco : co.catalogue.Follows suits) (doing : String) (actor : Actor)
    (names : List String) : Walks suits orderly (addApps co doing actor names : ServerM σ β _) := by
  induction names with
  | nil => exact walks_pure _
  | cons name rest ih =>
      refine (walks_addApp hco name actor).bind fun added => ?_
      cases added with
      | ok id => exact ih.bind fun _ => walks_pure _
      | error e => exact (keeps_log _ _).walks.bind fun _ => ih

theorem walks_reloadApps (hco : co.catalogue.Follows suits) (actor : Actor) :
    Walks suits orderly (reloadApps co actor : ServerM σ β _) := by
  unfold reloadApps
  apply walks_get_bind
  intro s ha
  refine ((walks_addApps hco _ actor _).bind fun count => ?_) ha
  exact Walks.ite (m := do log .info _; return count)
    ((keeps_log _ _).walks.bind fun _ => walks_pure _) (walks_pure _)

theorem walks_autoload (hco : co.catalogue.Follows suits) :
    Walks suits orderly (autoload co : ServerM σ β _) :=
  walks_get_bind fun _ ha => walks_addApps hco _ _ _ ha

omit [StateStore σ] in
theorem mem_keys_apps {n : String} (hn : s.app? n ≠ none) : n ∈ s.apps.keys := by
  rw [Std.ExtTreeMap.mem_keys, Std.ExtTreeMap.mem_iff_isSome_getElem?]
  exact Option.isSome_iff_ne_none.2 hn

/-- Once all names of apps have been gone through, no app is left. -/
theorem walks_removeApps (co : Collaborators β) (orderly : Prop) (ha : Arena suits s)
    (names : List String) (hnames : ∀ n, s.app? n ≠ none → n ∈ names) :
    Moves suits orderly s ((names.forM fun name => do let _ ← removeApp co name).exec s) ∧
      ∀ n, ((names.forM fun name => do let _ ← removeApp co name).exec s).app? n = none := by
  induction names generalizing s with
  | nil =>
      refine ⟨.refl, ?_⟩
      intro n
      by_contra hn
      exact List.not_mem_nil (hnames n hn)
  | cons name rest ih =>
      have hremove : Moves suits orderly s _ := walks_removeApp co name ha
      rw [exec_forM_cons]
      have hrest : ∀ n, ((removeApp co name).exec s).app? n ≠ none → n ∈ rest := by
        intro n hn
        rw [app?_removeApp co ha] at hn
        split at hn
        · exact absurd rfl hn
        · rename_i hne
          exact (List.mem_cons.1 (hnames n hn)).resolve_left (Ne.symm hne)
      obtain ⟨hmoves, hnone⟩ := ih (Moves.arena ha hremove) hrest
      exact ⟨hremove.trans hmoves, hnone⟩

/-- With no app left, every other host is closed and discarded in one move. -/
theorem moves_close_discard (co : Collaborators β) (orderly : Prop) (ha : Arena suits s)
    (hnone : ∀ n, s.app? n = none) {id : HostId} (hid : id ≠ HostId.unnamed) :
    Moves suits orderly s ((do close co id; ServerM.discard id : ServerM σ β Unit).exec s) ∧
      ∀ n, ((do close co id; ServerM.discard id : ServerM σ β Unit).exec s).app? n = none := by
  have hclose := keeps_close co id ha
  rw [exec_bind]
  refine ⟨?_, ?_⟩
  · cases hh : ((close co id).exec s).host? id with
    | none =>
        rw [exec_discard_of_host?_eq_none hh]
        exact .single (.idle hclose)
    | some h =>
        have hw : h.owner = none → h.saveTimeout = 0 := by
          intro ho
          obtain ⟨x, hx, hplace⟩ := hclose.places.host? hh
          have hroot : x.owner = none := (Host.owner_of_place_eq hplace).symm.trans ho
          obtain ⟨y, hy, hshut⟩ := shut_close co ha hx hroot
          rw [Option.some.inj (hh.symm.trans hy)]
          exact hshut
        rw [exec_discard hh]
        exact .single (.drop hnone hid hclose hh hw)
  · intro n
    rw [app?, apps_exec_discard, hclose.apps]
    exact hnone n

theorem walks_shutdown : Walks suits orderly (shutdown co : ServerM σ β Unit) := by
  unfold shutdown
  apply walks_get_bind
  intro s ha
  obtain ⟨hremoved, hnone⟩ := walks_removeApps co orderly ha s.apps.keys fun _ => mem_keys_apps
  rw [exec_bind, exec_bind, eval_get, exec_get, exec_bind]
  have hroots := exec_forM_induction
    (P := fun t => Moves suits orderly s t ∧ ∀ n, t.app? n = none)
    (fun id => do close co id; ServerM.discard id)
    ((((s.apps.keys.forM fun name => do let _ ← removeApp co name).exec s).roots).filter
      (· != HostId.unnamed))
    (by
      intro id hid t ht
      have hunnamed : id ≠ HostId.unnamed := by simpa using (List.mem_filter.1 hid).2
      obtain ⟨hmoves, hnone'⟩ :=
        moves_close_discard co orderly (Moves.arena ha ht.1) ht.2 hunnamed
      exact ⟨ht.1.trans hmoves, hnone'⟩)
    ⟨hremoved, hnone⟩
  exact hroots.1.tail (.idle (keeps_close co HostId.unnamed (Moves.arena ha hroots.1)))

/-! ## Events and ticks -/

theorem keeps_notify (arguments : List Value) (binding : EventBinding) :
    Keeps suits (notify co arguments binding : ServerM σ β Bool) :=
  have hnotify : ActsUnder binding.host (notify co arguments binding : ServerM σ β Bool) :=
    relates_notify (codeRelation_codeSteps binding.host) arguments rfl
  hnotify.keeps

theorem keeps_notifyAll (arguments : List Value) (bindings : List EventBinding) :
    Keeps suits (notifyAll co arguments bindings : ServerM σ β Nat) := by
  induction bindings with
  | nil => exact keeps_pure _
  | cons binding rest ih =>
      exact (keeps_notify arguments binding).bind fun _ => ih.bind fun _ => keeps_pure _

theorem keeps_fireEvent (event : Event) (arguments : List Value) :
    Keeps suits (fireEvent co event arguments : ServerM σ β Nat) := by
  unfold fireEvent
  apply keeps_get_bind
  intro s ha
  cases s.isStopped with
  | true => exact .refl s
  | false => exact keeps_notifyAll arguments _ ha

theorem keeps_tick : Keeps suits (tick co : ServerM σ β Unit) :=
  (keeps_fireEvent .tick []).bind fun _ =>
    keeps_get_bind fun _ ha => keeps_listForM _ keeps_tickHost ha

end ServerM

end ScriptHost
