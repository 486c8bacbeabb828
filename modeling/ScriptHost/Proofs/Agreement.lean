import Mathlib
import ScriptHost.Proofs.Lowercase
import ScriptHost.Proofs.Operations
/-!
# Hosts, apps and bindings agree

Servers find the source of their apps in memory or in a folder.  Both kinds of catalogue give a
module the name under which an app is loaded.  With that, the arena of a reachable server says of
every app which module its host is for.

## Main statements

* `Catalogue.IsSource`, `Catalogue.IsSource.follows`: catalogues in memory and in a folder.
* `Server.InOrder`, `Server.Arena.inOrder`: what hosts, apps and bindings say of each other.
-/

namespace ScriptHost

/-! ## The names of modules -/

namespace MemoryModules

/-- Modules in memory are those that have been put there, each under its own name. -/
theorem of_getElem?_foldl {l : List Module} {ms : MemoryModules} {name : String} {m : Module}
    (h : (l.foldl insert ms).modules[name]? = some m) :
    m ∈ l ∧ m.name = name ∨ ms.modules[name]? = some m := by
  induction l generalizing ms with
  | nil => exact .inr h
  | cons x rest ih =>
      rcases ih h with ⟨hmem, hname⟩ | hm
      · exact .inl ⟨List.mem_cons_of_mem x hmem, hname⟩
      · unfold insert at hm
        dsimp only at hm
        rw [Std.ExtTreeMap.getElem?_insert] at hm
        split at hm
        · rename_i hname
          obtain rfl := Option.some.inj hm
          exact .inl ⟨List.mem_cons_self, compare_eq_iff_eq.1 hname⟩
        · exact .inr hm

/-- A module that is found in memory is one of those that have been put there, and has the name that
was asked for. -/
theorem of_find? {l : List Module} {name : String} {allowLibrary : Bool} {m : Module}
    (h : (ofList l).find? name allowLibrary = some m) : m ∈ l ∧ m.name = name := by
  unfold find? at h
  rw [Option.filter_eq_some_iff] at h
  rcases of_getElem?_foldl h.1 with hm | hm
  · exact hm
  · simp [empty] at hm

end MemoryModules

namespace ModuleFolder

/-- What is found at a file name is a module of the name that was asked for, of the given kind. -/
theorem found_of_moduleAt? {folder : ModuleFolder} {name ext : String} {isLibrary : Bool}
    {f : Finding} (h : folder.moduleAt? name ext isLibrary = some f) :
    ∃ code, f.found = some { name, code, isLibrary } := by
  unfold moduleAt? at h
  dsimp only at h
  split at h
  · cases h
  · obtain rfl := Option.some.inj h
    exact ⟨none, rfl⟩
  · split at h
    · rename_i code _
      obtain rfl := Option.some.inj h
      exact ⟨some code, rfl⟩
    · obtain rfl := Option.some.inj h
      exact ⟨none, rfl⟩

/-- An app is found in a folder just if its source is there. -/
theorem find_false_eq_some_iff {folder : ModuleFolder} {name : String} {m : Module} :
    (folder.find name false).found = some m ↔
      ∃ f, folder.moduleAt? (Text.lowercase name) appExtension false = some f ∧
        f.found = some m := by
  unfold find
  dsimp only
  cases folder.moduleAt? (Text.lowercase name) appExtension false with
  | none => simp
  | some f => simp

/-- An app that is found in a folder has the name that was asked for, in small letters. -/
theorem name_of_find {folder : ModuleFolder} {name : String} {m : Module}
    (h : (folder.find name false).found = some m) : m.name = Text.lowercase name := by
  obtain ⟨f, hat, hfound⟩ := find_false_eq_some_iff.1 h
  obtain ⟨code, hf⟩ := found_of_moduleAt? hat
  rw [hf] at hfound
  rw [← Option.some.inj hfound]

end ModuleFolder

/-- A catalogue of modules in memory or in a folder. -/
inductive Catalogue.IsSource : Catalogue → Prop where
  | memory (l : List Module) : IsSource (MemoryModules.ofList l).catalogue
  | folder (folder : ModuleFolder) : IsSource folder.catalogue

/-- An app has the name of its module. -/
def Module.HasName (name : String) (m : Module) : Prop := m.name = name

/-- Both kinds of catalogue give a module the name under which an app is loaded. -/
theorem Catalogue.IsSource.follows {c : Catalogue} (h : c.IsSource) : c.Follows Module.HasName := by
  intro name m hm
  cases h with
  | memory l =>
      have hfound : (MemoryModules.ofList l).find? (Text.lowercase name) false = some m := hm
      exact (MemoryModules.of_find? hfound).2
  | folder folder =>
      have hfound : (folder.find (Text.lowercase name) false).found = some m := hm
      have hname := ModuleFolder.name_of_find hfound
      rw [Text.lowercase_lowercase] at hname
      exact hname

/-! ## Reachable servers -/

namespace Server

variable {σ β : Type}

/-- What hosts, apps and bindings say of each other agrees.  Global state is held by roots only,
except that nothing stops the host of a user of a user host from writing state into the user
host. -/
structure InOrder (s : Server σ β) : Prop where
  keyed : ∀ id h, s.host? id = some h → h.id = id ∧ id < s.nextId
  unnamed : ∃ h, s.host? HostId.unnamed = some h ∧ h.module = none ∧ h.parent? = none
  app : ∀ name id, s.app? name = some id →
    ∃ h, s.host? id = some h ∧ h.isRoot ∧ h.name? = some name
  app_inj : ∀ name name' id, s.app? name = some id → s.app? name' = some id → name = name'
  user_iff_parent : ∀ id h, s.host? id = some h → (h.user?.isSome ↔ h.parent?.isSome)
  users : ∀ p u c, (∃ h, s.host? p = some h ∧ h.users[u]? = some c) ↔
    ∃ k, s.host? c = some k ∧ k.parent? = some p ∧ k.user? = some u
  parent : ∀ c k p, s.host? c = some k → k.parent? = some p → (s.host? p).isSome ∧ p < c
  perUser : ∀ c k, s.host? c = some k → k.parent?.isSome → k.perUser = false
  state : ∀ c k, s.host? c = some k → k.parent?.isSome → .misplaced c k.name? ∉ s.chronicle →
    k.globalState = none ∧ k.saveTimeout = 0
  bound : ∀ e b, b ∈ s.dispatch.bindings e → (s.host? b.host).isSome

/-- In an arena whose apps have the names of their modules all is in order. -/
theorem Arena.inOrder {s : Server σ β} (ha : Arena Module.HasName s) : InOrder s where
  keyed id h hh := ⟨ha.keyed hh, ha.lt_nextId hh⟩
  unnamed := by
    obtain ⟨h, hh, hm, ho⟩ := ha.unnamed
    exact ⟨h, hh, hm, by rw [Host.parent?, ho]; rfl⟩
  app name id hid := by
    obtain ⟨h, m, hh, ho, hm, hname⟩ := ha.app hid
    refine ⟨h, hh, ?_, ?_⟩
    · rw [Host.isRoot, ho]
      rfl
    · rw [Host.name?, hm, Option.map_some, hname]
  app_inj name name' id h h' := ha.app_inj h h'
  user_iff_parent id h _ := by
    unfold Host.user? Host.parent?
    rw [Option.isSome_map, Option.isSome_map]
  users p u c := by
    constructor
    · rintro ⟨h, hh, hu⟩
      obtain ⟨k, hk, ho⟩ := ha.user hh hu
      exact ⟨k, hk, by rw [Host.parent?, ho]; rfl, by rw [Host.user?, ho]; rfl⟩
    · rintro ⟨k, hk, hp, hu⟩
      unfold Host.parent? at hp
      unfold Host.user? at hu
      obtain ⟨o, ho, rfl⟩ := Option.map_eq_some_iff.1 hp
      rw [ho, Option.map_some] at hu
      obtain rfl := Option.some.inj hu
      obtain ⟨h, hh, hu', _⟩ := ha.owner hk ho
      exact ⟨h, hh, hu'⟩
  parent c k p hk hp := by
    obtain ⟨o, ho, rfl⟩ := Option.map_eq_some_iff.1 hp
    obtain ⟨h, hh, _, hlt, _⟩ := ha.owner hk ho
    rw [hh]
    exact ⟨rfl, hlt⟩
  perUser c k hk hp := by
    apply ha.perUser hk
    intro ho
    rw [Host.parent?, ho] at hp
    cases hp
  state c k hk hp hnot := by
    apply ha.quiet hk _ hnot
    intro ho
    rw [Host.parent?, ho] at hp
    cases hp
  bound e b hb := ha.bound (EventDispatch.mem_bindings.1 hb)

variable [StateStore σ]

/-- In every reachable server hosts, apps and bindings agree. -/
theorem inOrder_of_reachable {s : Server σ β} (hs : Reachable Catalogue.IsSource s) : InOrder s :=
  (hs.arena fun _ hc => hc.follows).inOrder

/-- The market with the hosts of two users is in order. -/
theorem inOrder_market :
    let co := Collaborators.plain (.always (.done (.ok .null))) marketCatalogue
    let s : Server MemoryStore Unit := Operation.runAll co marketOperations (.new ∅ {})
    Reachable Catalogue.IsSource s ∧ InOrder s := by
  intro co s
  have hs : Reachable Catalogue.IsSource s := .runAll (.memory _) _ (.new _ _)
  exact ⟨hs, inOrder_of_reachable hs⟩

end Server

end ScriptHost
