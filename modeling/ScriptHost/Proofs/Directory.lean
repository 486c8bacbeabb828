import Mathlib
import ScriptHost.Proofs.Replacing
/-!
# The directory of apps

Names of apps mean the same in whatever case they are written, so that the apps of a server make up
a directory under names in small letters.  Loading an app puts its name in small letters first, and
whatever is asked under such a name is answered as the directory answers it.

Looking an app up and removing it take a name as it is written.  A name that is not in small letters
is nobody's name then: the directory would find an app that has been loaded under it, and the server
does not.  This is the only way in which the two differ.

## Main statements

* `Directory`, `Directory.Answers`, `Directory.Runs`: how a directory answers requests.
* `AppRequest`: the requests that are about names of apps.
* `answers_iff_fits`: the requests that a server answers as its directory does.
* `runs_of_isSmall`: requests one after the other under names in small letters.
* `Moves.app?_or_gone`: an app keeps its name as long as its root is there.
* `Server.Knows`, `directory_of_reachable`: under which names the app is known that has been loaded.
-/

namespace ScriptHost

variable {σ β : Type} {suits : String → Module → Prop}

open Server ServerM

/-! ## Directories -/

/-- The apps under their names in small letters. -/
abbrev Directory := String → Option HostId

/-- A request that is about the names of apps. -/
inductive AppRequest where
  | add (name : String) (actor : Actor)
  | remove (name : String)
  | look (name : String)
  | reload (actor : Actor)

/-- The answer to a request that is about the names of apps. -/
inductive AppAnswer where
  | added (r : Except ScriptError HostId)
  | removed (wasLoaded : Bool)
  | found (id : Option HostId)
  | reloaded (count : Nat)

namespace Directory

variable {σ β : Type} (co : Collaborators β)

/-- The app of a name, in whatever case it is written. -/
def find (d : Directory) (name : String) : Option HostId := d (Text.lowercase name)

/-- The directory after a name, in whatever case it is written, has been given to an app or to
none. -/
def set (d : Directory) (name : String) (id : Option HostId) : Directory :=
  fun n => if Text.lowercase name = n then id else d n

/-- What loading an app makes of a directory.  If there is a module the app that has the name loses
it, whether or not there is another that gets it. -/
inductive Adds (d : Directory) (name : String) : Except ScriptError HostId → Directory → Prop where
  | absent {e : ScriptError}
      (hfind : (co.catalogue.find (Text.lowercase name) false).found = none) :
      Adds d name (.error e) d
  | failed {m : Module} {e : ScriptError}
      (hfind : (co.catalogue.find (Text.lowercase name) false).found = some m) :
      Adds d name (.error e) (d.set name none)
  | loaded {m : Module} {id : HostId}
      (hfind : (co.catalogue.find (Text.lowercase name) false).found = some m) :
      Adds d name (.ok id) (d.set name (some id))

/-- What loading apps one after the other makes of a directory, and how many of them load. -/
inductive AddsAll : List String → Directory → Nat → Directory → Prop where
  | nil (d : Directory) : AddsAll [] d 0 d
  | ok {name : String} {names : List String} {id : HostId} {n : Nat} {d d' d'' : Directory}
      (h : Adds co d name (.ok id) d') (hrest : AddsAll names d' n d'') :
      AddsAll (name :: names) d (n + 1) d''
  | error {name : String} {names : List String} {e : ScriptError} {n : Nat}
      {d d' d'' : Directory} (h : Adds co d name (.error e) d') (hrest : AddsAll names d' n d'') :
      AddsAll (name :: names) d n d''

/-- How a directory answers a request, and what becomes of it.  Which apps are loaded anew is not
for the directory to say, but they are in it and each comes once. -/
inductive Answers (d : Directory) : AppRequest → AppAnswer → Directory → Prop where
  | look {name : String} : Answers d (.look name) (.found (d.find name)) d
  | remove {name : String} :
      Answers d (.remove name) (.removed (d.find name).isSome) (d.set name none)
  | add {name : String} {actor : Actor} {r : Except ScriptError HostId} {d' : Directory}
      (h : Adds co d name r d') : Answers d (.add name actor) (.added r) d'
  | reload {actor : Actor} {names : List String} {count : Nat} {d' : Directory}
      (hnames : ∀ n ∈ names, d.find n ≠ none) (hnodup : names.Nodup)
      (h : AddsAll co names d count d') : Answers d (.reload actor) (.reloaded count) d'

theorem Answers.look_eq {d d' : Directory} {name : String} {id : Option HostId}
    (h : Answers co d (.look name) (.found id) d') : id = d.find name := by
  cases h
  rfl

theorem Answers.remove_eq {d d' : Directory} {name : String} {wasLoaded : Bool}
    (h : Answers co d (.remove name) (.removed wasLoaded) d') :
    wasLoaded = (d.find name).isSome := by
  cases h
  rfl

/-- How a directory answers requests one after the other. -/
inductive Runs : List AppRequest → Directory → List AppAnswer → Directory → Prop where
  | nil (d : Directory) : Runs [] d [] d
  | cons {q : AppRequest} {qs : List AppRequest} {r : AppAnswer} {rs : List AppAnswer}
      {d d' d'' : Directory} (h : Answers co d q r d') (hrest : Runs qs d' rs d'') :
      Runs (q :: qs) d (r :: rs) d''

end Directory

/-! ## Requests -/

namespace AppRequest

variable [StateStore σ]

/-- Does what is asked. -/
def run (co : Collaborators β) : AppRequest → ServerM σ β AppAnswer
  | add name actor => .added <$> addApp co name actor
  | remove name => .removed <$> removeApp co name
  | look name => return .found ((← get).app? name)
  | reload actor => .reloaded <$> reloadApps co actor

/-- Does what is asked, one request after the other. -/
def runAll (co : Collaborators β) : List AppRequest → ServerM σ β (List AppAnswer)
  | [] => return []
  | q :: qs => return (← q.run co) :: (← runAll co qs)

/-- A name that is taken as it is written is in small letters. -/
def IsSmall : AppRequest → Prop
  | remove name => Text.lowercase name = name
  | look name => Text.lowercase name = name
  | add _ _ => True
  | reload _ => True

/-- A name that is taken as it is written is in small letters, or that of no app. -/
def Fits (d : Directory) : AppRequest → Prop
  | remove name => Text.lowercase name = name ∨ d.find name = none
  | look name => Text.lowercase name = name ∨ d.find name = none
  | add _ _ => True
  | reload _ => True

theorem IsSmall.fits {q : AppRequest} (h : q.IsSmall) (d : Directory) : q.Fits d := by
  cases q with
  | add name actor => trivial
  | remove name => exact .inl h
  | look name => exact .inl h
  | reload actor => trivial

end AppRequest

/-! ## The directory of a server -/

section

variable [StateStore σ] {co : Collaborators β} {s t : Server σ β} {name : String} {actor : Actor}
  {id : HostId}

/-- The apps of a server have names in small letters. -/
def Server.Small (s : Server σ β) : Prop := ∀ n, s.app? n ≠ none → Text.lowercase n = n

omit [StateStore σ] in
theorem Server.Arena.small (ha : Arena (fun name _ => Text.lowercase name = name) s) : s.Small := by
  intro n hn
  obtain ⟨id, hid⟩ := Option.ne_none_iff_exists'.1 hn
  obtain ⟨_, _, _, _, _, hsmall⟩ := ha.app hid
  exact hsmall

/-- Loading an app makes of the directory what it should. -/
theorem Server.Loading.adds {r : Except ScriptError HostId}
    (h : Loading co (Text.lowercase name) actor s r t) :
    Directory.Adds co s.app? name r t.app? := by
  cases h with
  | @absent warning new hfind hnew =>
      have hsame : Server.app? { s.warn warning with
          journal := new ++ (s.warn warning).journal } = s.app? := by
        cases warning <;> rfl
      rw [hsame]
      exact .absent (by rw [hfind])
  | failed hfind hfreed hfails hundone happ =>
      have hset : t.app? = Directory.set s.app? name none := funext happ
      rw [hset]
      exact .failed (by rw [hfind])
  | @loaded m warning u w hfind hfreed hbegun happ =>
      have hset : ((w.insertApp (Text.lowercase name) s.nextId).record
          (.logged .info s!"Loaded app {Text.lowercase name}")).app? =
            Directory.set s.app? name (some s.nextId) := funext happ
      rw [hset]
      exact .loaded (by rw [hfind])

/-- Loading apps one after the other makes of the directory what it should. -/
theorem Server.LoadsAll.addsAll {doing : String} {names : List String} {n : Nat}
    (h : LoadsAll co doing actor names n s t) (hnames : ∀ n ∈ names, Text.lowercase n = n) :
    Directory.AddsAll co names s.app? n t.app? := by
  induction h with
  | nil s => exact .nil _
  | ok hload hrest ih =>
      rw [← hnames _ List.mem_cons_self] at hload
      exact .ok hload.adds (ih fun n hn => hnames n (List.mem_cons_of_mem _ hn))
  | error hload hrest ih =>
      rw [← hnames _ List.mem_cons_self] at hload
      exact .error hload.adds (ih fun n hn => hnames n (List.mem_cons_of_mem _ hn))

omit [StateStore σ] in
/-- A name that is not in small letters is nobody's name. -/
theorem Server.Small.app?_eq_none (hs : s.Small) (hname : Text.lowercase name ≠ name) :
    s.app? name = none := by
  by_contra hn
  exact hname (hs name hn)

omit [StateStore σ] in
/-- The server looks a name up as its directory does if and only if the name is in small letters or
that of no app. -/
theorem Server.Small.app?_eq_find_iff (hs : s.Small) :
    s.app? name = Directory.find s.app? name ↔
      Text.lowercase name = name ∨ Directory.find s.app? name = none := by
  constructor
  · intro heq
    by_cases hname : Text.lowercase name = name
    · exact .inl hname
    · rw [hs.app?_eq_none hname] at heq
      exact .inr heq.symm
  · rintro (hname | hnone)
    · rw [Directory.find, hname]
    · by_cases hname : Text.lowercase name = name
      · rw [Directory.find, hname]
      · rw [hs.app?_eq_none hname, hnone]

/-- Removing an app makes of the directory what it should if the name is looked up as it should
be. -/
theorem ServerM.app?_removeApp_eq_set (ha : Arena suits s)
    (hfound : s.app? name = Directory.find s.app? name)
    (hfits : Text.lowercase name = name ∨ Directory.find s.app? name = none) :
    ((removeApp co name).exec s).app? = Directory.set s.app? name none := by
  funext n
  rw [app?_removeApp co ha, Directory.set]
  rcases hfits with hname | hnone
  · rw [hname]
  · have hname : ∀ m, s.app? m = none → (if m = n then none else s.app? n) = s.app? n := by
      intro m hm
      split
      · rename_i heq
        rw [← heq, hm]
      · rfl
    rw [hname name (hfound.trans hnone), hname _ hnone]

/-- A server answers a request as its directory does if and only if a name that is taken as it is
written is in small letters, or that of no app. -/
theorem answers_iff_fits (hfollows : co.catalogue.Follows fun name _ => Text.lowercase name = name)
    (ha : Arena (fun name _ => Text.lowercase name = name) s) (hn : s.Named) (q : AppRequest) :
    Directory.Answers co s.app? q ((q.run co).eval s) ((q.run co).exec s).app? ↔
      q.Fits s.app? := by
  have hsmall := ha.small
  cases q with
  | add name actor =>
      refine iff_of_true ?_ trivial
      exact .add (loading_addApp co ha hn name actor).adds
  | reload actor =>
      refine iff_of_true ?_ trivial
      have hreload := reloads_reloadApps co actor (fun _ _ h => h) hfollows ha hn
      obtain ⟨u, hloads, hexec⟩ := hreload.loads
      have happs : ((reloadApps co actor).exec s).app? = u.app? := by
        rw [hexec]
        split <;> rfl
      have hnames : ∀ n ∈ s.unpinned, Text.lowercase n = n ∧ s.app? n ≠ none := by
        intro n hmem
        obtain ⟨id, _, hid, _⟩ := mem_unpinned.1 hmem
        have hne : s.app? n ≠ none := by simp [hid]
        exact ⟨hsmall n hne, hne⟩
      have hfound : ∀ n ∈ s.unpinned, Directory.find s.app? n ≠ none := by
        intro n hmem
        rw [Directory.find, (hnames n hmem).1]
        exact (hnames n hmem).2
      have hnodup : s.unpinned.Nodup := s.pairwise_unpinned.imp fun h => ne_of_lt h
      show Directory.Answers co s.app? _ _ ((reloadApps co actor).exec s).app?
      rw [happs]
      exact .reload hfound hnodup (hloads.addsAll fun n hmem => (hnames n hmem).1)
  | look name =>
      have hrun : ((AppRequest.look name).run co).eval s = .found (s.app? name) := rfl
      rw [hrun]
      refine Iff.trans ⟨fun h => h.look_eq, fun heq => ?_⟩ hsmall.app?_eq_find_iff
      rw [heq]
      exact .look
  | remove name =>
      have hrun : ((AppRequest.remove name).run co).eval s = .removed (s.app? name).isSome :=
        congrArg AppAnswer.removed (eval_removeApp co s name)
      rw [hrun]
      constructor
      · intro h
        by_cases hname : Text.lowercase name = name
        · exact .inl hname
        · have hsome := h.remove_eq
          rw [hsmall.app?_eq_none hname] at hsome
          exact .inr (Option.isNone_iff_eq_none.1 (Option.isSome_eq_false_iff.1 hsome.symm))
      · intro hfits
        have hfound := hsmall.app?_eq_find_iff.2 hfits
        show Directory.Answers co s.app? _ _ ((removeApp co name).exec s).app?
        rw [app?_removeApp_eq_set ha hfound hfits, hfound]
        exact .remove

/-! ## Requests one after the other -/

/-- Requests that are about the names of apps are made of moves. -/
theorem AppRequest.walks (hfollows : co.catalogue.Follows suits) (q : AppRequest) :
    Walks suits True (q.run co : ServerM σ β AppAnswer) := by
  cases q with
  | add name actor => exact walks_addApp hfollows name actor
  | remove name => exact walks_removeApp co name
  | look name => exact fun s _ => .refl
  | reload actor => exact walks_reloadApps hfollows actor

/-- A server answers requests under names in small letters as its directory does. -/
theorem runs_of_isSmall (hfollows : co.catalogue.Follows fun name _ => Text.lowercase name = name)
    (ha : Arena (fun name _ => Text.lowercase name = name) s) (hn : s.Named)
    {qs : List AppRequest} (hqs : ∀ q ∈ qs, q.IsSmall) :
    Directory.Runs co qs s.app? ((AppRequest.runAll co qs).eval s)
      ((AppRequest.runAll co qs).exec s).app? := by
  induction qs generalizing s with
  | nil => exact .nil _
  | cons q qs ih =>
      have hfirst := (answers_iff_fits hfollows ha hn q).2 ((hqs q List.mem_cons_self).fits _)
      have hmoves := q.walks hfollows ha
      have hnt : ((q.run co).exec s).Named :=
        Steps.named ha hn (Moves.steps ha hmoves)
      exact .cons hfirst (ih (Moves.arena ha hmoves) hnt fun p hp =>
        hqs p (List.mem_cons_of_mem q hp))

/-! ## Apps keep their names -/

/-- In a move an app keeps its name, or its root goes. -/
theorem Move.app?_or_gone {orderly : Prop} (ha : Arena suits s) (h : Move suits orderly s t)
    (hid : s.app? name = some id) : t.app? name = some id ∨ t.host? id = none := by
  cases h with
  | idle h => exact .inl (by rw [app?, h.apps]; exact hid)
  | skipId => exact .inl hid
  | root hdisorderly hcode => exact .inl (by rw [app?, hcode.frame.apps]; exact hid)
  | @load m n perUser sink u hsuits hfree hcode =>
      left
      rw [app?_insertApp, if_neg, app?, hcode.frame.apps]
      · exact hid
      · rintro rfl
        rw [hfree] at hid
        cases hid
  | lostRoot hfree hcode =>
      exact .inl (by rw [app?, apps_exec_discard, hcode.frame.apps]; exact hid)
  | user hh hu hperUser hcode => exact .inl (by rw [app?, hcode.frame.apps]; exact hid)
  | lostUser hh hu hperUser hcode =>
      exact .inl (by rw [app?, apps_exec_discard, hcode.frame.apps]; exact hid)
  | @unload n k u x hk hidle hx hw =>
      by_cases hn : n = name
      · subst hn
        obtain rfl : k = id := Option.some.inj (hk.symm.trans hid)
        have hau : Arena suits u := Steps.arena ha (hidle.steps.head (.eraseApp n))
        exact .inr (hau.host?_discard_self hx)
      · left
        have happs : (u.discard k x).app? name = (s.eraseApp n).app? name := by
          rw [discard_eq]
          exact congrArg (·[name]?) hidle.apps
        rw [happs, app?_eraseApp, if_neg hn]
        exact hid
  | drop hnone hk hidle hx hw =>
      rw [hnone] at hid
      cases hid

/-- An app keeps its name for as long as its root is there. -/
theorem Moves.app?_or_gone {orderly : Prop} (ha : Arena suits s) (h : Moves suits orderly s t)
    (hid : s.app? name = some id) : t.app? name = some id ∨ t.host? id = none := by
  induction h with
  | refl => exact .inl hid
  | @tail u v hbefore hmove ih =>
      have hau := Moves.arena ha hbefore
      rcases ih with happ | hgone
      · exact hmove.app?_or_gone hau happ
      · right
        -- numbers are not used again
        obtain ⟨x, _, hx, _⟩ := ha.app hid
        have hlt : id < u.nextId :=
          (ha.lt_nextId hx).trans_le (Steps.nextId_le (Moves.steps ha hbefore))
        by_contra hlive
        obtain ⟨y, hy⟩ := Option.ne_none_iff_exists'.1 hlive
        obtain ⟨z, hz, _⟩ := Steps.host?_of_lt hau (hmove.steps hau) hlt hy
        rw [hgone] at hz
        cases hz

/-! ## Reachable servers -/

/-- The app that has been loaded under a name is known under the name in small letters, and can be
removed under it.  Under another spelling of the name there is no app. -/
structure Server.Knows (co : Collaborators β) (name : String) (id : HostId) (s : Server σ β) :
    Prop where
  found : s.app? (Text.lowercase name) = some id
  answer : (removeApp co (Text.lowercase name)).eval s = true
  removed : Removed id s ((removeApp co (Text.lowercase name)).exec s)
  missed : ∀ m, Text.lowercase m = Text.lowercase name → m ≠ Text.lowercase name →
    s.app? m = none ∧ (removeApp co m).eval s = false ∧ (removeApp co m).exec s = s

theorem Server.Arena.knows (ha : Arena (fun name _ => Text.lowercase name = name) s)
    (co : Collaborators β) (hid : s.app? (Text.lowercase name) = some id) :
    s.Knows co name id where
  found := hid
  answer := by rw [eval_removeApp, hid, Option.isSome_some]
  removed := removed_removeApp ha hid co
  missed m hm hne := by
    have hnone : s.app? m = none := ha.small.app?_eq_none fun heq => hne (heq.symm.trans hm)
    refine ⟨hnone, by rw [eval_removeApp, hnone, Option.isSome_none], ?_⟩
    rcases removeApp_cases co ha m with ⟨_, hexec⟩ | ⟨k, _, _, _, hk, _⟩
    · exact hexec
    · rw [hnone] at hk
      cases hk

/-- On every reachable server the apps make up a directory under names in small letters.  Requests
are answered as the directory answers them if and only if the names that are taken as they are
written are in small letters or of no app.  An app that has been loaded is known under its name in
small letters for as long as its root is there, whatever is done meanwhile. -/
theorem directory_of_reachable {allowed : Catalogue → Prop} (hs : Reachable allowed s)
    (co : Collaborators β) :
    (∀ q : AppRequest, Directory.Answers co s.app? q ((q.run co).eval s) ((q.run co).exec s).app? ↔
      q.Fits s.app?) ∧
    (∀ qs : List AppRequest, (∀ q ∈ qs, q.IsSmall) →
      Directory.Runs co qs s.app? ((AppRequest.runAll co qs).eval s)
        ((AppRequest.runAll co qs).exec s).app?) ∧
    ∀ name actor id t, (addApp co name actor).eval s = .ok id →
      Leads (fun _ => True) (fun _ => True) ((addApp co name actor).exec s) t →
        t.host? id ≠ none → ∀ co' : Collaborators β, t.Knows co' name id := by
  let suits : String → Module → Prop := fun name _ => Text.lowercase name = name
  have hfollows : ∀ c : Catalogue, c.Follows suits := fun _ name _ _ =>
    Text.lowercase_lowercase name
  obtain ⟨ha, hn⟩ := hs.induction (P := Server.Named) (fun c _ => hfollows c) named_new
    fun _ _ ha hs h => h.named ha hs
  refine ⟨answers_iff_fits (hfollows _) ha hn, fun qs hqs => runs_of_isSmall (hfollows _) ha hn hqs,
    fun name actor id t hok ht hlive co' => ?_⟩
  have hmoves : Moves suits False s ((addApp co name actor).exec s) :=
    walks_addApp (hfollows _) name actor ha
  have hau := Moves.arena ha hmoves
  have hload := loading_addApp co ha hn name actor
  rw [hok] at hload
  have hid : ((addApp co name actor).exec s).app? (Text.lowercase name) = some id := by
    generalize (addApp co name actor).exec s = u at hload
    cases hload with
    | loaded hfind hfreed hbegun happ => exact (happ _).trans (if_pos rfl)
  have hlater : Moves suits False _ t := ht.moves (fun c _ => hfollows c) False.elim hau
  rcases hlater.app?_or_gone hau hid with happ | hgone
  · exact (Moves.arena hau hlater).knows co' happ
  · exact absurd hgone hlive

/-- The catalogue with the camera. -/
def cameraCatalogue : Catalogue :=
  (MemoryModules.ofList [{ name := "camera", code := some "" }]).catalogue

/-- The camera is loaded under a name with a capital and known under the name in small letters, also
after other requests. -/
theorem directory_camera :
    let co := Collaborators.plain (.always (.done (.ok .null))) cameraCatalogue
    let s : Server MemoryStore Unit := .new ∅ {}
    let t : Server MemoryStore Unit :=
      Operation.runAll co [.removeApp "Camera", .tick] ((addApp co "Camera" .server).exec s)
    let qs : List AppRequest := [.add "CAMERA" .server, .look "camera", .reload .server]
    t.Knows co "Camera" 1 ∧ (∀ q ∈ qs, q.IsSmall) ∧
      Directory.Runs co qs t.app? ((AppRequest.runAll co qs).eval t)
        ((AppRequest.runAll co qs).exec t).app? := by
  intro co s t qs
  have hs : Reachable (fun _ => True) s := .new _ _
  have ht : Reachable (fun _ => True) t :=
    .runAll trivial _ (hs.step co trivial (.addApp "Camera" .server))
  have hok : ((addApp co "Camera" .server).eval s).toOption = some 1 := by decide +kernel
  have hlive : (t.host? 1).isSome := by decide +kernel
  have hname : Text.lowercase "camera" = "camera" := by decide +kernel
  have hsmall : ∀ q ∈ qs, q.IsSmall := by
    simp only [qs, List.forall_mem_cons]
    exact ⟨trivial, hname, trivial, fun q hq => absurd hq List.not_mem_nil⟩
  refine ⟨?_, hsmall, (directory_of_reachable ht co).2.1 qs hsmall⟩
  cases hadded : (addApp co "Camera" .server).eval s with
  | error e =>
      rw [hadded] at hok
      cases hok
  | ok id =>
      rw [hadded] at hok
      obtain rfl : id = 1 := Option.some.inj hok
      exact (directory_of_reachable hs co).2.2 "Camera" .server 1 t hadded
        (.runAll trivial (fun _ _ => trivial) _) (Option.isSome_iff_ne_none.1 hlive) co

/-- The camera has been loaded under a name with a capital.  Under that same name it is neither
found nor removed, where the directory finds it. -/
theorem missed_camera :
    let co := Collaborators.plain (.always (.done (.ok .null))) cameraCatalogue
    let s : Server MemoryStore Unit := .new ∅ {}
    let t : Server MemoryStore Unit := (addApp co "Camera" .server).exec s
    let u : Server MemoryStore Unit := (removeApp co "Camera").exec t
    Reachable (fun _ => True) s ∧ ((addApp co "Camera" .server).eval s).toOption = some 1 ∧
      Directory.find t.app? "Camera" = some 1 ∧ t.app? "Camera" = none ∧
      (removeApp co "Camera").eval t = false ∧ (u.host? 1).isSome ∧
      ¬ Directory.Answers co t.app? (.look "Camera") (.found (t.app? "Camera")) t.app? ∧
      ¬ Directory.Answers co t.app? (.remove "Camera")
        (.removed ((removeApp co "Camera").eval t)) u.app? := by
  intro co s t u
  have hfound : Directory.find t.app? "Camera" = some 1 := by decide +kernel
  have hmissed : t.app? "Camera" = none := by decide +kernel
  have hanswer : (removeApp co "Camera").eval t = false := by decide +kernel
  refine ⟨.new _ _, by decide +kernel, hfound, hmissed, hanswer, by decide +kernel, ?_, ?_⟩
  · intro h
    have heq := h.look_eq
    rw [hmissed, hfound] at heq
    cases heq
  · intro h
    have heq := h.remove_eq
    rw [hanswer, hfound] at heq
    cases heq

end

end ScriptHost
