import Mathlib
import ScriptHost.Proofs.Family
import ScriptHost.Proofs.Isolation
/-!
# Private data is private

A host reaches the data of its app and shared data, and nothing else.  A use of a named resource is
a use of one key of the store: the host's app is part of the key of a private resource, and of no
part of the key of a shared one.  What one app is asked to do with its data is therefore not seen
by the hosts of another app, and the host that belongs to no app leaves all private data as it is.

## Main statements

* `ResourceUse`, `ResourceUse.run_eq`: a use of a resource is a use of its key.
* `DataUse`, `DataUse.runAll`: any uses of data through one host, one after the other.
* `Server.Confines`, `confined_of_reachable`: what uses of data leave alone.
-/

namespace ScriptHost

variable {σ β : Type} [StateStore σ]

open Server ServerM

/-! ## Uses of a named resource -/

/-- What may be asked of a named resource. -/
inductive ResourceUse where
  | readTag (file : String)
  | writeTag (file : String) (blob : Blob)
  | appendLog (file typeName : String) (lines : List String)
  | readText (file : String)
  | remove (file typeName : String)

/-- The answer to a use of a named resource. -/
inductive ResourceAnswer where
  | blob (r : Except StoreError (Option Blob))
  | text (r : Except StoreError (Option (List String)))
  | done (r : Except StoreError Bool)

namespace ResourceUse

/-- The name of the resource. -/
def file : ResourceUse → String
  | readTag file | writeTag file _ | appendLog file _ _ | readText file | remove file _ => file

/-- The form of the resource. -/
def kind : ResourceUse → ResourceKind
  | readTag _ | writeTag _ _ => .tag
  | readText _ => .text
  | appendLog _ typeName _ | remove _ typeName => .ofTypeName typeName

/-- Uses a resource through a host. -/
def run (id : HostId) (shared : Bool) : ResourceUse → ServerM σ β ResourceAnswer
  | readTag file => .blob <$> ServerM.readTag id (some file) shared
  | writeTag file blob => .done <$> ServerM.writeTag id blob (some file) shared
  | appendLog file typeName lines => .done <$> ServerM.appendLog id file shared typeName lines
  | readText file => .text <$> ServerM.readText id file shared
  | remove file typeName => .done <$> ServerM.remove id file shared typeName

/-- Uses what lies under a key. -/
def onKey (key : ResourceKey) : ResourceUse → ServerM σ β ResourceAnswer
  | readTag _ => .blob <$> readBlob key
  | writeTag _ blob => (fun r => .done (r.map fun _ => true)) <$> writeBlob key blob
  | appendLog _ _ lines => (fun r => .done (r.map fun _ => true)) <$> appendBlob key lines
  | readText _ => (fun s => .text (StateStore.readLines s.store key)) <$> get
  | remove _ _ => .done <$> deleteBlob key

end ResourceUse

section

variable {s : Server σ β} {id : HostId} {h : Host β} {shared : Bool}

omit [StateStore σ] in
/-- A host that may use resources of a scope goes on with them. -/
theorem ServerM.run_withScope {α : Type} (hh : s.host? id = some h)
    (hscope : h.name? ≠ none ∨ shared = true) (denied : α)
    (use : Host β → ServerM σ β (Except StoreError α)) :
    (withScope id shared denied use).run s = (use h).run s := by
  have hmay : ¬ (h.name?.isNone ∧ !shared) := by
    rcases hscope with hn | hs
    · simp [hn]
    · simp [hs]
  unfold withScope
  rw [run_bind, eval_host?, exec_host?, hh]
  dsimp only
  rw [if_neg hmay]

omit [StateStore σ] in
theorem ServerM.exec_withScope {α : Type} (hh : s.host? id = some h)
    (hscope : h.name? ≠ none ∨ shared = true) (denied : α)
    (use : Host β → ServerM σ β (Except StoreError α)) :
    (withScope id shared denied use).exec s = (use h).exec s :=
  congrArg (fun r => (Id.run r).2) (run_withScope hh hscope denied use)

omit [StateStore σ] in
theorem ServerM.eval_withScope {α : Type} (hh : s.host? id = some h)
    (hscope : h.name? ≠ none ∨ shared = true) (denied : α)
    (use : Host β → ServerM σ β (Except StoreError α)) :
    (withScope id shared denied use).eval s = (use h).eval s :=
  congrArg (fun r => (Id.run r).1) (run_withScope hh hscope denied use)

omit [StateStore σ] in
/-- The host that belongs to no app is denied private resources. -/
theorem ServerM.eval_withScope_denied {α : Type} (hh : s.host? id = some h) (hn : h.name? = none)
    (denied : α) (use : Host β → ServerM σ β (Except StoreError α)) :
    (withScope id false denied use).eval s = .ok denied := by
  unfold withScope
  rw [eval_bind, eval_host?, exec_host?, hh]
  dsimp only
  rw [eval_ite, if_pos (by simp [hn]), eval_pure]

omit [StateStore σ] in
/-- Nothing is done for a host that may not use resources of a scope. -/
theorem ServerM.exec_withScope_of_not {α : Type}
    (hnot : ¬ ∃ h, s.host? id = some h ∧ (h.name? ≠ none ∨ shared = true)) (denied : α)
    (use : Host β → ServerM σ β (Except StoreError α)) :
    (withScope id shared denied use).exec s = s := by
  unfold withScope
  rw [exec_bind, eval_host?, exec_host?]
  cases hh : s.host? id with
  | none => rfl
  | some h =>
      have hdenied : h.name?.isNone ∧ !shared := by
        simp only [hh, Option.some.injEq, exists_eq_left', not_or, ne_eq, not_not] at hnot
        simp [hnot]
      dsimp only
      rw [if_pos hdenied]
      rfl

/-- A use of a resource is a use of its key. -/
theorem ResourceUse.run_eq (hh : s.host? id = some h) (hscope : h.name? ≠ none ∨ shared = true)
    (u : ResourceUse) :
    (u.run id shared).run s = (u.onKey (.resource h.name? u.file u.kind shared)).run s := by
  cases u with
  | readTag file =>
      unfold run ServerM.readTag
      rw [StateT.run_map, run_withScope hh hscope]
      rfl
  | writeTag file blob =>
      unfold run ServerM.writeTag
      rw [StateT.run_map, run_withScope hh hscope]
      rfl
  | appendLog file typeName lines =>
      unfold run ServerM.appendLog
      rw [StateT.run_map, run_withScope hh hscope]
      rfl
  | readText file =>
      unfold run ServerM.readText
      rw [StateT.run_map, run_withScope hh hscope]
      rfl
  | remove file typeName =>
      unfold run ServerM.remove
      rw [StateT.run_map, run_withScope hh hscope]
      rfl

/-- A use of what lies under a key is at most one request on that key. -/
theorem ResourceUse.exec_onKey (s : Server σ β) (key : ResourceKey) (u : ResourceUse) :
    (u.onKey key).exec s = s ∨ ∃ r : StoreRequest, (u.onKey key).exec s = s.request r key := by
  cases u with
  | readTag file => exact .inl rfl
  | writeTag file blob => exact .inr ⟨.write blob, rfl⟩
  | appendLog file typeName lines => exact .inr ⟨.append lines, rfl⟩
  | readText file => exact .inl rfl
  | remove file typeName => exact .inr ⟨.delete, rfl⟩

/-- A use of a resource through a host is at most one request on the key of a resource. -/
theorem ResourceUse.exec_run (s : Server σ β) (id : HostId) (shared : Bool) (u : ResourceUse) :
    (u.run id shared).exec s = s ∨
      ∃ (r : StoreRequest) (module : Option String),
        (u.run id shared).exec s = s.request r (.resource module u.file u.kind shared) := by
  by_cases hmay : ∃ h, s.host? id = some h ∧ (h.name? ≠ none ∨ shared = true)
  · obtain ⟨h, hh, hscope⟩ := hmay
    have hexec : (u.run id shared).exec s = _ :=
      congrArg (fun r => (Id.run r).2) (u.run_eq hh hscope)
    rcases u.exec_onKey s (.resource h.name? u.file u.kind shared) with hsame | ⟨r, hr⟩
    · exact .inl (hexec.trans hsame)
    · exact .inr ⟨r, h.name?, hexec.trans hr⟩
  · left
    cases u with
    | readTag file => exact exec_withScope_of_not hmay _ _
    | writeTag file blob => exact exec_withScope_of_not hmay _ _
    | appendLog file typeName lines => exact exec_withScope_of_not hmay _ _
    | readText file => exact exec_withScope_of_not hmay _ _
    | remove file typeName => exact exec_withScope_of_not hmay _ _

end

/-! ## Uses of all data -/

/-- What may be asked of data: to replace global state, by itself or as the resource without a name,
and to use named resources. -/
inductive DataUse where
  | writeState (blob : Option Blob)
  | writeUnnamed (blob : Blob) (shared : Bool)
  | resource (u : ResourceUse) (shared : Bool)

namespace DataUse

/-- Uses data through a host, and leaves the answer away. -/
def run (id : HostId) : DataUse → ServerM σ β Unit
  | writeState blob => do let _ ← writeGlobalState id blob
  | writeUnnamed blob shared => do let _ ← writeTag id blob none shared
  | resource u shared => do let _ ← u.run id shared

/-- Uses data through a host, time after time. -/
def runAll (id : HostId) (uses : List DataUse) (s : Server σ β) : Server σ β :=
  uses.foldl (fun s u => (u.run id).exec s) s

variable {id : HostId} {s : Server σ β}

/-- Uses of data through a host are steps of code under it. -/
theorem actsUnder (u : DataUse) (id : HostId) : ActsUnder id (u.run id : ServerM σ β Unit) := by
  cases u with
  | writeState blob => exact (actsUnder_writeGlobalState blob).bind fun _ => actsUnder_pure _
  | writeUnnamed blob shared =>
      exact (actsUnder_writeTag blob none shared).bind fun _ => actsUnder_pure _
  | resource u shared =>
      have hrun : ActsUnder id (u.run id shared : ServerM σ β ResourceAnswer) := by
        cases u with
        | readTag file => exact (actsUnder_readTag (some file) shared).map _
        | writeTag file blob => exact (actsUnder_writeTag blob (some file) shared).map _
        | appendLog file typeName lines =>
            exact (actsUnder_appendLog file shared typeName lines).map _
        | readText file => exact (actsUnder_readText file shared).map _
        | remove file typeName => exact (actsUnder_remove file shared typeName).map _
      exact hrun.bind fun _ => actsUnder_pure _

theorem codeSteps_runAll (hs : s.Keyed) (uses : List DataUse) :
    CodeSteps id s (runAll id uses s) := by
  induction uses generalizing s with
  | nil => exact .refl
  | cons u uses ih =>
      have hfirst := u.actsUnder id hs
      exact hfirst.trans (ih (hfirst.frame.keyed hs))

/-- Through the host that belongs to no app no host is changed. -/
theorem host?_run_of_unnamed {h : Host β} (hh : s.host? (s.rootOf id) = some h)
    (hn : h.name? = none) (u : DataUse) (k : HostId) :
    ((u.run id).exec s).host? k = s.host? k := by
  have hwrite : ∀ blob, (writeGlobalState id blob).exec s = s := by
    intro blob
    unfold writeGlobalState
    rw [exec_bind, eval_get, exec_get, exec_bind, eval_host?, exec_host?, hh]
    dsimp only
    rw [hn]
    rfl
  cases u with
  | writeState blob => exact congrArg (Server.host? · k) (hwrite blob)
  | writeUnnamed blob shared =>
      show ((writeTag id blob none shared).exec s).host? k = s.host? k
      by_cases hmay : ∃ h, s.host? id = some h ∧ (h.name? ≠ none ∨ shared = true)
      · obtain ⟨x, hx, hscope⟩ := hmay
        unfold writeTag
        rw [exec_withScope hx hscope]
        exact congrArg (Server.host? · k) (hwrite (some blob))
      · exact congrArg (Server.host? · k) (exec_withScope_of_not hmay _ _)
  | resource u shared =>
      show ((u.run id shared).exec s).host? k = s.host? k
      rcases u.exec_run s id shared with hsame | ⟨r, module, hr⟩
      · rw [hsame]
      · rw [hr, host?_request]

theorem host?_runAll_of_unnamed {h : Host β} (hh : s.host? (s.rootOf id) = some h)
    (hn : h.name? = none) (uses : List DataUse) (k : HostId) :
    (runAll id uses s).host? k = s.host? k := by
  induction uses generalizing s with
  | nil => rfl
  | cons u uses ih =>
      have hsame := host?_run_of_unnamed hh hn u
      have hroot : ((u.run id).exec s).rootOf id = s.rootOf id := by
        unfold rootOf
        rw [hsame]
      have hh' : ((u.run id).exec s).host? (((u.run id).exec s).rootOf id) = some h := by
        rw [hroot, hsame, hh]
      exact (ih hh').trans (hsame k)

end DataUse

/-! ## What other hosts read -/

/-- A private key is open to the app that is part of it, and to no other. -/
theorem ResourceKey.OpenTo.module_eq {app : Option String} {key : ResourceKey}
    (h : key.OpenTo app) (hkey : key.shared = false) : key.module = app ∧ app ≠ none := by
  cases h with
  | slot happ => exact ⟨happ.symm, by simp [happ]⟩
  | own happ file kind => exact ⟨happ.symm, by simp [happ]⟩
  | shared file kind => cases hkey

/-- Uses of data through one host are not seen by the hosts of another app.  Through the host that
belongs to no app no private data is changed, through no host does a named resource change global
state, and a shared resource is the same one through all hosts. -/
structure Server.Confines (s : Server σ β) : Prop where
  apart : ∀ {id k : HostId} {h x : Host β} (uses : List DataUse), s.host? id = some h →
    s.host? k = some x → (h.name? ≠ x.name? ∨ x.name? = none) →
    let t := DataUse.runAll id uses s
    (∀ shared, (readTag k none shared).eval t = (readTag k none shared).eval s) ∧
      ∀ file, (readTag k (some file) false).eval t = (readTag k (some file) false).eval s ∧
        (readText k file false).eval t = (readText k file false).eval s
  unnamed : ∀ {id : HostId} {h : Host β} (uses : List DataUse), s.host? id = some h →
    h.name? = none →
    let t := DataUse.runAll id uses s
    (∀ k, t.host? k = s.host? k) ∧
      ∀ key : ResourceKey, key.shared = false →
        StateStore.read t.store key = StateStore.read s.store key
  slots : ∀ (id : HostId) (shared : Bool) (u : ResourceUse),
    let t := (u.run id shared).exec s
    (∀ k, t.host? k = s.host? k) ∧
      ∀ name, StateStore.read t.store (.globalState name) =
        StateStore.read s.store (.globalState name)
  shared : ∀ {id : HostId} {h : Host β} (u : ResourceUse), s.host? id = some h →
    (u.run id true).eval s = (u.onKey (.resource none u.file u.kind true)).eval s ∧
      (u.run id true).exec s = (u.onKey (.resource none u.file u.kind true)).exec s

namespace Server

variable {suits : String → Module → Prop} {s t : Server σ β} {id k : HostId} {h x y : Host β}

omit [StateStore σ] in
/-- The root of a host is there, and it is of the same app. -/
theorem Arena.host?_rootOf (ha : Arena suits s) (hh : s.host? id = some h) :
    ∃ r, s.host? (s.rootOf id) = some r ∧ r.name? = h.name? := by
  cases ho : h.owner with
  | none =>
      rw [rootOf_eq_self_of_owner_eq_none hh ho]
      exact ⟨h, hh, rfl⟩
  | some o =>
      obtain ⟨p, hp, _, _, hm⟩ := ha.owner hh ho
      rw [rootOf_eq_of_owner_eq_some hh ho]
      exact ⟨p, hp, by rw [Host.name?, Host.name?, hm]⟩

/-- The state that another app sees is not the one that code changes. -/
theorem stateSeenBy_eq_of_ne (ha : Arena suits s) (hsteps : CodeSteps id s t)
    (hh : s.host? id = some h) (hx : s.host? k = some x) (hne : h.name? ≠ x.name?) :
    t.stateSeenBy k = s.stateSeenBy k := by
  have happ : s.appOf (s.rootOf k) = x.name? := (ha.appOf_rootOf hx).trans (appOf_of_host? hx)
  have hown : s.rootOf k ≠ id := by
    intro heq
    rw [heq, appOf_of_host? hh] at happ
    exact hne happ
  have hroot : s.rootOf k ≠ s.rootOf id := by
    intro heq
    rw [heq, ha.appOf_rootOf hh, appOf_of_host? hh] at happ
    exact hne happ
  unfold stateSeenBy
  rw [hsteps.frame.samePlaces.rootOf_eq, hsteps.frame.others _ hown hroot]

/-- What a host reads is the state of its root and what lies under the keys of its app. -/
theorem reads_eq (hx : s.host? k = some x) (hy : t.host? k = some y) (hname : y.name? = x.name?)
    (hseen : t.stateSeenBy k = s.stateSeenBy k)
    (hblobs : ∀ name, x.name? = some name → ∀ file kind,
      StateStore.read t.store (.resource (some name) file kind false) =
        StateStore.read s.store (.resource (some name) file kind false)) :
    (∀ shared, (readTag k none shared).eval t = (readTag k none shared).eval s) ∧
      ∀ file, (readTag k (some file) false).eval t = (readTag k (some file) false).eval s ∧
        (readText k file false).eval t = (readText k file false).eval s := by
  unfold readTag readText
  cases hn : x.name? with
  | none =>
      have hyn : y.name? = none := hname.trans hn
      refine ⟨fun shared => ?_, fun file => ⟨?_, ?_⟩⟩
      · cases shared with
        | true =>
            rw [eval_withScope hx (.inr rfl), eval_withScope hy (.inr rfl)]
            exact congrArg Except.ok hseen
        | false => rw [eval_withScope_denied hx hn, eval_withScope_denied hy hyn]
      · rw [eval_withScope_denied hx hn, eval_withScope_denied hy hyn]
      · rw [eval_withScope_denied hx hn, eval_withScope_denied hy hyn]
  | some name =>
      have hyn : y.name? = some name := hname.trans hn
      have hmay : ∀ shared, x.name? ≠ none ∨ shared = true := fun _ => .inl (by simp [hn])
      have hmay' : ∀ shared, y.name? ≠ none ∨ shared = true := fun _ => .inl (by simp [hyn])
      refine ⟨fun shared => ?_, fun file => ⟨?_, ?_⟩⟩
      · rw [eval_withScope hx (hmay shared), eval_withScope hy (hmay' shared)]
        exact congrArg Except.ok hseen
      · rw [eval_withScope hx (hmay false), eval_withScope hy (hmay' false), hn, hyn]
        exact hblobs name hn file .tag
      · rw [eval_withScope hx (hmay false), eval_withScope hy (hmay' false), hn, hyn]
        show StateStore.readLines t.store _ = StateStore.readLines s.store _
        unfold StateStore.readLines
        rw [hblobs name hn]

/-- In an arena whose store keeps keys apart, uses of data are not seen where they should not be. -/
theorem Arena.confines [IndependentKeys σ] (ha : Arena suits s) : Confines s where
  apart := by
    intro id k h x uses hh hx hne t
    have hsteps : CodeSteps id s t := DataUse.codeSteps_runAll ha.keyed uses
    obtain ⟨y, hy, hplace⟩ := hsteps.frame.samePlaces.symm.host? hx
    refine reads_eq hx hy (Host.name?_of_place_eq hplace).symm ?_ ?_
    · by_cases happ : h.name? = x.name?
      · -- both belong to no app, and nothing is changed through such a host
        have hn : h.name? = none := happ.trans (hne.resolve_left fun hne => hne happ)
        obtain ⟨r, hr, hrn⟩ := ha.host?_rootOf hh
        have hsame := DataUse.host?_runAll_of_unnamed hr (hrn.trans hn) uses
        unfold stateSeenBy
        rw [hsteps.frame.samePlaces.rootOf_eq, hsame]
      · exact stateSeenBy_eq_of_ne ha hsteps hh hx happ
    · intro name hn file kind
      have hclosed : ¬ (ResourceKey.resource (some name) file kind false).OpenTo h.name? := by
        intro hopen
        have hown : some name = h.name? := (hopen.module_eq rfl).1
        rcases hne with hne | hnone
        · exact hne (hown.symm.trans hn.symm)
        · rw [hn] at hnone
          cases hnone
      exact (hsteps.isolated ha hh).blobs inferInstance _ hclosed
  unnamed := by
    intro id h uses hh hn t
    obtain ⟨r, hr, hrn⟩ := ha.host?_rootOf hh
    have hsteps : CodeSteps id s t := DataUse.codeSteps_runAll ha.keyed uses
    refine ⟨DataUse.host?_runAll_of_unnamed hr (hrn.trans hn) uses, fun key hkey => ?_⟩
    apply (hsteps.isolated ha hh).blobs inferInstance
    intro hopen
    exact (hopen.module_eq hkey).2 hn
  slots := by
    intro id shared u t
    rcases u.exec_run s id shared with hsame | ⟨r, module, hr⟩
    · exact ⟨fun k => congrArg (Server.host? · k) hsame,
        fun name => by rw [show t = s from hsame]⟩
    · have ht : t = s.request r (.resource module u.file u.kind shared) := hr
      refine ⟨fun k => by rw [ht, host?_request], fun name => ?_⟩
      rw [ht]
      exact r.read_apply_of_ne s.store (ResourceKey.resource_ne_globalState _ _ _ _ _)
  shared := by
    intro id h u hh
    have hrun := u.run_eq hh (.inr rfl : h.name? ≠ none ∨ true = true)
    have hkey : ResourceKey.resource h.name? u.file u.kind true =
        .resource none u.file u.kind true := rfl
    rw [hkey] at hrun
    exact ⟨congrArg (fun r => (Id.run r).1) hrun, congrArg (fun r => (Id.run r).2) hrun⟩

/-- In every reachable server whose store keeps keys apart, as storage in memory does, private data
is private. -/
theorem confined_of_reachable [IndependentKeys σ] {allowed : Catalogue → Prop}
    (hs : Reachable allowed s) : Confines s := by
  have ha : Arena (fun _ _ => True) s := hs.arena fun _ _ _ _ _ => trivial
  exact ha.confines

/-- The market and a bank keep a vault each, and there is a shared one: what the market does with
its own and with the shared one is not seen by the bank. -/
theorem confined_vaults :
    let co := Collaborators.plain (.always (.done (.ok .null))) marketCatalogue
    let s : Server MemoryStore Unit := Operation.runAll co
      [.createApplication (some { name := "market", code := some "" }) false .server,
        .createApplication (some { name := "bank", code := some "" }) false .server,
        .writeTag 2 "gold".toUTF8 (some "vault") false] (.new ∅ {})
    let uses : List DataUse :=
      [.resource (.writeTag "vault" "lead".toUTF8) false, .resource (.remove "vault" "nbt") true,
        .resource (.remove "vault" "nbt") false, .writeState none]
    Reachable (fun _ => True) s ∧ Confines s ∧
      ((readTag 2 (some "vault") false).eval (DataUse.runAll 1 uses s)).toOption =
        some (some "gold".toUTF8) := by
  intro co s uses
  have hs : Reachable (fun _ => True) s := .runAll trivial _ (.new _ _)
  have hconfines : Confines s := confined_of_reachable hs
  have hnames : (s.host? 1).map (·.name?) = some (some "market") ∧
      (s.host? 2).map (·.name?) = some (some "bank") := by decide +kernel
  obtain ⟨h, hh, hn⟩ := Option.map_eq_some_iff.1 hnames.1
  obtain ⟨x, hx, hm⟩ := Option.map_eq_some_iff.1 hnames.2
  have hne : h.name? ≠ x.name? ∨ x.name? = none := .inl (by rw [hn, hm]; decide)
  refine ⟨hs, hconfines, ?_⟩
  rw [((hconfines.apart uses hh hx hne).2 "vault").1]
  decide +kernel

end Server

end ScriptHost
