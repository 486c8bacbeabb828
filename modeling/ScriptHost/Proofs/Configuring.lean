import Mathlib
import ScriptHost.Proofs.CallPaths
import ScriptHost.Proofs.Operations
/-!
# Configuring an app

When the main module of an app defines the configuration function under the root, the function is
called and its answer is taken over.  A configuration is taken over as a whole or not at all: the
answer is checked down to the last description of an argument type before the host is touched, and
if anything is wrong with it the server is left as the function has left it.

## Main statements

* `CommandArgument.SpecSound`, `CommandArgument.Describes`, `Value.IsConfig`: which values are
  configurations, and what the descriptions in them declare.
* `CommandArgument.exists_ofSpec_iff`, `Configuration.exists_argTypesOf_iff`,
  `Configuration.exists_ofValue_iff`: what is asked of a value is what is checked.
* `Host.ConfiguredBy`, `Host.configuredBy_configure`: what a host makes of a configuration.
* `ServerM.defineWith_config_root`, `ServerM.defineWith_config_elsewhere`: a definition of the
  configuration function.
* `configured_of_reachable`: all of this at every moment of every run.
-/

namespace ScriptHost

/-! ## Descriptions of argument types -/

namespace CommandArgument

/-- What is asked of a description: it names a known type, in letters of any case, and the
suggestions are a list if there are any. -/
structure SpecSound (spec : Entries) : Prop where
  type : ∃ t, spec.lookup "type" = some (.str t) ∧ Text.lowercase t ∈ knownTypes
  suggest : ∀ v, spec.lookup "suggest" = some v → ∃ items, v = .list items

/-- The argument type is the one that a description declares under a name. -/
structure Describes (name : String) (spec : Entries) (a : CommandArgument) : Prop where
  name : a.name = name
  baseType : ∃ t, spec.lookup "type" = some (.str t) ∧ a.baseType = Text.lowercase t
  known : a.baseType ∈ knownTypes
  /-- The suggestions are those of the description in their order, or none. -/
  suggestions : (spec.lookup "suggest").getD (.list []) = .list a.suggestions
  /-- All other entries of the description are options. -/
  options : ∀ entry, entry ∈ a.options ↔
    entry ∈ spec ∧ entry.1 ≠ "type" ∧ entry.1 ≠ "suggest"
  order : a.options.Sublist spec

variable {name : String} {spec : Entries} {a : CommandArgument}

theorem baseType?_eq_ok_iff {base : String} :
    baseType? name spec = .ok base ↔
      ∃ t, spec.lookup "type" = some (.str t) ∧ Text.lowercase t ∈ knownTypes ∧
        Text.lowercase t = base := by
  unfold baseType?
  cases spec.lookup "type" with
  | none => simp
  | some v =>
      cases v with
      | str t =>
          dsimp only
          split <;> simp_all
      | _ => simp

theorem suggestions?_eq_ok_iff {items : List Value} :
    suggestions? name spec = .ok items ↔
      (spec.lookup "suggest").getD (.list []) = .list items := by
  unfold suggestions?
  cases spec.lookup "suggest" with
  | none => simp
  | some v => cases v <;> simp

/-- A description that is accepted declares an argument type. -/
theorem describes_of_ofSpec (h : ofSpec name spec = .ok a) : Describes name spec a := by
  unfold ofSpec at h
  cases hbase : baseType? name spec with
  | error e =>
      rw [hbase] at h
      cases h
  | ok base =>
      cases hitems : suggestions? name spec with
      | error e =>
          rw [hbase, hitems] at h
          cases h
      | ok items =>
          rw [hbase, hitems] at h
          obtain rfl := Except.ok.inj h
          obtain ⟨t, ht, hknown, rfl⟩ := baseType?_eq_ok_iff.1 hbase
          exact
            { name := rfl
              baseType := ⟨t, ht, rfl⟩
              known := hknown
              suggestions := suggestions?_eq_ok_iff.1 hitems
              options := fun entry => by simp [List.mem_filter]
              order := List.filter_sublist }

/-- A description is accepted just if it is sound. -/
theorem exists_ofSpec_iff : (∃ a, ofSpec name spec = .ok a) ↔ SpecSound spec := by
  constructor
  · rintro ⟨a, ha⟩
    have hd := describes_of_ofSpec ha
    obtain ⟨t, ht, hbase⟩ := hd.baseType
    refine ⟨⟨t, ht, hbase ▸ hd.known⟩, fun v hv => ⟨a.suggestions, ?_⟩⟩
    have hs := hd.suggestions
    rwa [hv, Option.getD_some] at hs
  · rintro ⟨⟨t, ht, hknown⟩, hsuggest⟩
    have hbase : baseType? name spec = .ok (Text.lowercase t) :=
      baseType?_eq_ok_iff.2 ⟨t, ht, hknown, rfl⟩
    obtain ⟨items, hitems⟩ : ∃ items, suggestions? name spec = .ok items := by
      cases hv : spec.lookup "suggest" with
      | none => exact ⟨[], suggestions?_eq_ok_iff.2 (by rw [hv]; rfl)⟩
      | some v =>
          obtain ⟨items, rfl⟩ := hsuggest v hv
          exact ⟨items, suggestions?_eq_ok_iff.2 (by rw [hv]; rfl)⟩
    unfold ofSpec
    rw [hbase, hitems]
    exact ⟨_, rfl⟩

end CommandArgument

/-! ## Configurations -/

namespace Configuration

open CommandArgument

variable {arguments : Entries} {declared : List (String × CommandArgument)}

/-- The first description is accepted, and so are the others. -/
theorem argTypesOf_cons_eq_ok_iff {p : String × Value} :
    argTypesOf (p :: arguments) = .ok declared ↔
      ∃ spec a others, p.2 = .map spec ∧ ofSpec p.1 spec = .ok a ∧
        argTypesOf arguments = .ok others ∧ declared = (p.1, a) :: others := by
  obtain ⟨name, value⟩ := p
  cases value with
  | map spec =>
      rw [argTypesOf]
      cases ha : ofSpec name spec with
      | error e => simp [ha]
      | ok a =>
          cases hothers : argTypesOf arguments with
          | error e =>
              refine ⟨fun h => (by cases h), ?_⟩
              rintro ⟨_, _, others, -, -, h, -⟩
              cases h
          | ok others =>
              constructor
              · intro h
                exact ⟨spec, a, others, rfl, ha, rfl, (Except.ok.inj h).symm⟩
              · rintro ⟨_, b, others', hspec, hb, hsame, rfl⟩
                obtain rfl := Value.map.inj hspec
                obtain rfl := Except.ok.inj (ha.symm.trans hb)
                obtain rfl := Except.ok.inj hsame
                rfl
  | _ => simp [argTypesOf]

/-- Descriptions are accepted just if each of them is a map and sound. -/
theorem exists_argTypesOf_iff :
    (∃ declared, argTypesOf arguments = .ok declared) ↔
      ∀ p ∈ arguments, ∃ spec, p.2 = .map spec ∧ SpecSound spec := by
  induction arguments with
  | nil => exact ⟨fun _ _ h => absurd h List.not_mem_nil, fun _ => ⟨[], rfl⟩⟩
  | cons p arguments ih =>
      rw [List.forall_mem_cons, ← ih]
      constructor
      · rintro ⟨declared, h⟩
        obtain ⟨spec, a, others, hspec, ha, hothers, -⟩ := argTypesOf_cons_eq_ok_iff.1 h
        exact ⟨⟨spec, hspec, exists_ofSpec_iff.1 ⟨a, ha⟩⟩, others, hothers⟩
      · rintro ⟨⟨spec, hspec, hsound⟩, others, hothers⟩
        obtain ⟨a, ha⟩ := exists_ofSpec_iff.2 hsound
        exact ⟨_, argTypesOf_cons_eq_ok_iff.2 ⟨spec, a, others, hspec, ha, hothers, rfl⟩⟩

/-- Descriptions that are accepted declare an argument type each, under the same names. -/
theorem describes_of_argTypesOf (h : argTypesOf arguments = .ok declared) :
    declared.map (·.1) = arguments.map (·.1) ∧
      ∀ d ∈ declared, ∃ spec, (d.1, .map spec) ∈ arguments ∧ Describes d.1 spec d.2 := by
  induction arguments generalizing declared with
  | nil =>
      obtain rfl := Except.ok.inj h
      exact ⟨rfl, fun _ hd => absurd hd List.not_mem_nil⟩
  | cons p arguments ih =>
      obtain ⟨spec, a, others, hspec, ha, hothers, rfl⟩ := argTypesOf_cons_eq_ok_iff.1 h
      obtain ⟨hnames, hdescribes⟩ := ih hothers
      refine ⟨by rw [List.map_cons, List.map_cons, hnames], List.forall_mem_cons.2 ⟨?_, ?_⟩⟩
      · exact ⟨spec, hspec ▸ List.mem_cons_self, describes_of_ofSpec ha⟩
      · intro d hd
        obtain ⟨spec', hmem, hd'⟩ := hdescribes d hd
        exact ⟨spec', List.mem_cons_of_mem p hmem, hd'⟩

end Configuration

/-- The descriptions of argument types in a configuration; none unless it has the key. -/
def Entries.descriptions (entries : Entries) : Entries :=
  match entries.lookup "arguments" with
  | some (.map arguments) => arguments
  | _ => []

/-- A configuration is a map.  If it has arguments they are a map from names to sound
descriptions. -/
def Value.IsConfig (v : Value) : Prop :=
  ∃ entries, v = .map entries ∧ ∀ a, entries.lookup "arguments" = some a →
    ∃ arguments, a = .map arguments ∧
      ∀ p ∈ arguments, ∃ spec, p.2 = .map spec ∧ CommandArgument.SpecSound spec

namespace Configuration

/-- The argument types of a configuration are read just if it has none or they are in order. -/
theorem exists_argTypes?_iff {entries : Entries} :
    (∃ declared, argTypes? entries = .ok declared) ↔ (Value.map entries).IsConfig := by
  unfold Value.IsConfig argTypes?
  cases h : entries.lookup "arguments" with
  | none => simp [h]
  | some a => cases a <;> simp [h, exists_argTypesOf_iff]

/-- What is read of the argument types are those that the descriptions declare. -/
theorem argTypesOf_descriptions {entries : Entries} {declared : List (String × CommandArgument)}
    (h : argTypes? entries = .ok declared) : argTypesOf (Entries.descriptions entries) = .ok declared := by
  unfold argTypes? at h
  unfold Entries.descriptions
  split at h
  · rename_i hnone
    rw [hnone]
    exact h
  · rename_i hsome
    rw [hsome]
    exact h
  · cases h

/-- The parts of a configuration that has been read. -/
theorem ofValue_eq_ok {v : Value} {c : Configuration} (h : ofValue v = .ok c) :
    ∃ entries, v = .map entries ∧ c.entries = entries ∧
      argTypesOf (Entries.descriptions entries) = .ok c.argTypes ∧
      c.perUser =
        Text.equalIgnoringCase (((entries.lookup "scope").map Value.text).getD playerScope)
          playerScope ∧
      c.stayLoaded = (entries.lookup "stay_loaded").any Value.isTrue := by
  cases v with
  | map entries =>
      unfold ofValue at h
      dsimp only at h
      cases hdeclared : argTypes? entries with
      | error e =>
          rw [hdeclared] at h
          cases h
      | ok declared =>
          rw [hdeclared] at h
          obtain rfl := Except.ok.inj h
          exact ⟨entries, rfl, rfl, argTypesOf_descriptions hdeclared, rfl, rfl⟩
  | _ => cases h

/-- A value is accepted just if it is a configuration. -/
theorem exists_ofValue_iff {v : Value} : (∃ c, ofValue v = .ok c) ↔ v.IsConfig := by
  cases v with
  | map entries =>
      rw [← exists_argTypes?_iff]
      unfold ofValue
      dsimp only
      cases argTypes? entries with
      | error e => exact ⟨fun ⟨_, h⟩ => (by cases h), fun ⟨_, h⟩ => (by cases h)⟩
      | ok declared => exact ⟨fun _ => ⟨_, rfl⟩, fun _ => ⟨_, rfl⟩⟩
  | _ => exact ⟨fun ⟨_, h⟩ => (by cases h), fun ⟨_, h, _⟩ => (by cases h)⟩

end Configuration

/-! ## What a host makes of a configuration -/

/-- What is inserted under a name, and what is left there. -/
theorem getElem?_insertMany_cases {α : Type} (m : Std.ExtTreeMap String α)
    (l : List (String × α)) (k : String) :
    ((∀ p ∈ l, p.1 ≠ k) ∧ (m.insertMany l)[k]? = m[k]?) ∨
      ∃ p ∈ l, p.1 = k ∧ (m.insertMany l)[k]? = some p.2 := by
  induction l generalizing m with
  | nil => exact .inl ⟨fun _ h => absurd h List.not_mem_nil, by simp⟩
  | cons p l ih =>
      rw [Std.ExtTreeMap.insertMany_cons]
      rcases ih (m.insert p.1 p.2) with ⟨hnone, hkept⟩ | ⟨q, hq, hqk, htaken⟩
      · by_cases hp : p.1 = k
        · refine .inr ⟨p, List.mem_cons_self, hp, ?_⟩
          rw [hkept, hp]
          simp
        · refine .inl ⟨List.forall_mem_cons.2 ⟨hp, hnone⟩, ?_⟩
          rw [hkept, Std.ExtTreeMap.getElem?_insert, if_neg (by simpa using hp)]
      · exact .inr ⟨q, List.mem_cons_of_mem p hq, hqk, htaken⟩

variable {β : Type}

/-- The second host is the first one after it has taken over a configuration. -/
structure Host.ConfiguredBy (entries : Entries) (x y : Host β) : Prop where
  /-- There is a host for each player if no scope is given, or that of a player. -/
  perUser : y.perUser = true ↔ entries.lookup "scope" = none ∨
    ∃ v, entries.lookup "scope" = some v ∧
      Text.equalIgnoringCase v.text Configuration.playerScope = true
  stays : y.persistenceRequired = true ↔
    ∃ v, entries.lookup "stay_loaded" = some v ∧ v.isTrue = true
  config : y.config = entries
  /-- The argument types that are described are declared. -/
  taken : ∀ p ∈ entries.descriptions, ∃ spec a, (p.1, .map spec) ∈ entries.descriptions ∧
    CommandArgument.Describes p.1 spec a ∧ y.argTypes[p.1]? = some a
  /-- All other argument types are as they were. -/
  kept : ∀ name, (∀ p ∈ entries.descriptions, p.1 ≠ name) → y.argTypes[name]? = x.argTypes[name]?
  /-- All the rest of the host is as it was. -/
  rest : y = { x with
    perUser := y.perUser, persistenceRequired := y.persistenceRequired
    config := y.config, argTypes := y.argTypes }

theorem Host.configuredBy_configure {v : Value} {c : Configuration}
    (h : Configuration.ofValue v = .ok c) (x : Host β) :
    ∃ entries, v = .map entries ∧ Host.ConfiguredBy entries x (x.configure c) := by
  obtain ⟨entries, rfl, hentries, hdeclared, hperUser, hstays⟩ := Configuration.ofValue_eq_ok h
  obtain ⟨hnames, hdescribes⟩ := Configuration.describes_of_argTypesOf hdeclared
  refine ⟨entries, rfl, ?_, ?_, hentries, fun p hp => ?_, fun name hnone => ?_, rfl⟩
  · show c.perUser = true ↔ _
    rw [hperUser]
    cases entries.lookup "scope" with
    | none => simp; decide
    | some v => simp
  · show c.stayLoaded = true ↔ _
    rw [hstays]
    cases entries.lookup "stay_loaded" <;> simp
  · rcases getElem?_insertMany_cases x.argTypes c.argTypes p.1 with
      ⟨hnone, _⟩ | ⟨d, hd, hdp, htaken⟩
    · have hmem : p.1 ∈ c.argTypes.map (·.1) := hnames ▸ List.mem_map_of_mem hp
      obtain ⟨d, hd, hdp⟩ := List.mem_map.1 hmem
      exact absurd hdp (hnone d hd)
    · obtain ⟨spec, hspec, hd'⟩ := hdescribes d hd
      rw [hdp] at hspec hd'
      exact ⟨spec, d.2, hspec, hd', htaken⟩
  · rcases getElem?_insertMany_cases x.argTypes c.argTypes name with
      ⟨_, hkept⟩ | ⟨d, hd, hdname, _⟩
    · exact hkept
    · obtain ⟨spec, hspec, _⟩ := hdescribes d hd
      exact absurd hdname (hnone _ hspec)

/-! ## Defining the configuration function -/

variable {σ : Type} {s : Server σ β} {id : HostId} {h : Host β} {f : StoredFunction β}

namespace ServerM

variable {co : Collaborators β} {run : Runner σ β}

/-- The frame in which the configuration function of a host is called. -/
def configFrame (co : Collaborators β) (id : HostId) : Frame :=
  { host := id, actor := co.world.serverActor }

/-- The answer of the configuration function decides: it is taken over, or the server is left as
the function has left it. -/
theorem readConfig_of_ok (hrunning : s.isStopped = false) (hh : s.host? id = some h)
    (hfun : h.function? HookKind.configName = some f)
    (haccepts : co.evaluator.accepts f [] = .ok ()) {v : Value}
    (hv : (evaluate co run (configFrame co id) f []).eval s = .ok v) :
    let left := (evaluate co run (configFrame co id) f []).exec s
    ((readConfig co run id).eval s = .ok () ∧ ∃ c, Configuration.ofValue v = .ok c ∧
      (readConfig co run id).exec s = left.modifyHost id (·.configure c)) ∨
    ∃ e, Configuration.ofValue v = .error e ∧
      (readConfig co run id).eval s = .error (.contract e) ∧
        (readConfig co run id).exec s = left := by
  obtain ⟨heval, hexec⟩ := (callHookWith_of_accepts (configFrame co id) hrunning haccepts).1 v hv
  unfold configFrame at heval hexec
  unfold readConfig
  rw [eval_bind, exec_bind, eval_host?, exec_host?, hh, Option.bind_some, hfun]
  dsimp only
  rw [eval_bind, exec_bind, heval, hexec]
  dsimp only
  cases Configuration.ofValue v with
  | error e => exact .inr ⟨e, rfl, rfl, rfl⟩
  | ok c => exact .inl ⟨rfl, c, rfl, rfl⟩

/-- A configuration function that fails is reported, and there is no configuration. -/
theorem readConfig_of_error (hrunning : s.isStopped = false) (hh : s.host? id = some h)
    (hfun : h.function? HookKind.configName = some f)
    (haccepts : co.evaluator.accepts f [] = .ok ()) {e : ScriptError}
    (he : (evaluate co run (configFrame co id) f []).eval s = .error e) :
    (readConfig co run id).eval s = .error (.contract .invalidConfig) ∧
      (readConfig co run id).exec s = (reportFailure co id "Callback failed" e).exec
        ((evaluate co run (configFrame co id) f []).exec s) := by
  obtain ⟨heval, hexec⟩ := (callHookWith_of_accepts (configFrame co id) hrunning haccepts).2 e he
  unfold configFrame at heval hexec
  unfold readConfig
  rw [eval_bind, exec_bind, eval_host?, exec_host?, hh, Option.bind_some, hfun]
  dsimp only
  rw [eval_bind, exec_bind, heval, hexec]
  exact ⟨rfl, rfl⟩

/-- In the main module of a root the configuration function is read as soon as it is defined. -/
theorem defineWith_config_root (hh : s.host? id = some h) (hname : f.name = HookKind.configName)
    (hroot : h.owner = none) (hmain : moduleKey f.module = h.mainKey) :
    let called := s.modifyHost id (·.insertFunction f)
    (defineWith co run id f).eval s = (readConfig co run id).eval called ∧
      (defineWith co run id f).exec s = (readConfig co run id).exec called := by
  have hkind : HookKind.ofName f.name = .config := by rw [hname]; rfl
  have hisRoot : h.isRoot = true := by rw [Host.isRoot, hroot]; rfl
  unfold defineWith
  rw [eval_bind, exec_bind, eval_host?, exec_host?, hh]
  dsimp only
  rw [eval_bind, exec_bind, exec_modifyHost, if_neg (not_not.2 hmain), hkind]
  dsimp only
  rw [if_pos hisRoot]
  exact ⟨rfl, rfl⟩

/-- Under the host of a user, and in another module, it is a function like any other. -/
theorem defineWith_config_elsewhere (hh : s.host? id = some h)
    (hname : f.name = HookKind.configName)
    (helse : h.owner ≠ none ∨ moduleKey f.module ≠ h.mainKey) :
    (defineWith co run id f).eval s = .ok () ∧
      (defineWith co run id f).exec s = s.modifyHost id (·.insertFunction f) := by
  have hkind : HookKind.ofName f.name = .config := by rw [hname]; rfl
  unfold defineWith
  rw [eval_bind, exec_bind, eval_host?, exec_host?, hh]
  dsimp only
  rw [eval_bind, exec_bind, exec_modifyHost]
  by_cases hmain : moduleKey f.module = h.mainKey
  · have hisRoot : ¬ h.isRoot = true := by
      rw [Host.isRoot, Option.isNone_iff_eq_none]
      exact helse.resolve_right (not_not.2 hmain)
    rw [if_neg (not_not.2 hmain), hkind]
    dsimp only
    rw [if_neg hisRoot]
    exact ⟨rfl, rfl⟩
  · rw [if_pos hmain]
    exact ⟨rfl, rfl⟩

/-- A message is written into the journal, and nothing else happens. -/
theorem exec_deliver (co : Collaborators β) (actor : Actor) (message : Message) :
    ∃ new, (deliver co actor message).exec s = { s with journal := new ++ s.journal } := by
  unfold deliver
  split
  · exact ⟨[_], rfl⟩
  · exact ⟨[_], rfl⟩
  · exact ⟨[], rfl⟩

/-- A report is written into the journal, and nothing else happens. -/
theorem exec_reportFailure_eq (co : Collaborators β) (k : HostId) (intro : String)
    (error : ScriptError) :
    ∃ new, (reportFailure co k intro error).exec s = { s with journal := new ++ s.journal } := by
  rw [exec_reportFailure]
  unfold reportTo
  cases (s.host? k).bind (·.sink) with
  | none => exact ⟨[_], rfl⟩
  | some actor =>
      refine exec_forM_induction (P := fun t : Server σ β =>
        ∃ new, t = { s with journal := new ++ s.journal }) _ _ ?_ ⟨[], rfl⟩
      rintro message - t ⟨first, rfl⟩
      obtain ⟨second, hsecond⟩ := exec_deliver co actor message
      exact ⟨second ++ first, by rw [hsecond, List.append_assoc]⟩

end ServerM

open Server ServerM

/-- What a configuration determines of a host. -/
def Host.setup (h : Host β) :
    Bool × Bool × Entries × Std.ExtTreeMap String CommandArgument :=
  (h.perUser, h.persistenceRequired, h.config, h.argTypes)

/-- What a definition has made of the answer of the configuration function: it succeeds just if the
answer is a configuration, and then the host has taken the configuration over; otherwise the server
is left as the function has left it. -/
structure Server.Settles (left done : Server σ β) (id : HostId) (v : Value)
    (answer : Except ScriptError Unit) : Prop where
  succeeds_iff : answer = .ok () ↔ v.IsConfig
  applied : v.IsConfig → ∃ entries x y, v = .map entries ∧ left.host? id = some x ∧
    Host.ConfiguredBy entries x y ∧ done.host? id = some y ∧ done = left.modifyHost id fun _ => y
  refused : ¬ v.IsConfig → (∃ e, answer = .error (.contract e)) ∧ done = left

/-- A change to a host that keeps its number. -/
theorem Server.Keyed.modifyHost (hs : s.Keyed) (id : HostId) {g : Host β → Host β}
    (hg : ∀ x, (g x).id = x.id) : (s.modifyHost id g).Keyed := by
  intro k y hy
  rw [host?_modifyHost] at hy
  split at hy
  · obtain ⟨x, hx, rfl⟩ := Option.map_eq_some_iff.1 hy
    exact (hg x).trans (hs hx)
  · exact hs hy

/-- Taking over a configuration, or leaving the server as it is, settles the answer. -/
theorem settles_of_ok {left done : Server σ β} (hkeyed : left.Keyed) {x : Host β}
    (hx : left.host? id = some x) {v : Value} {answer : Except ScriptError Unit}
    (hread : (answer = .ok () ∧ ∃ c, Configuration.ofValue v = .ok c ∧
        done = left.modifyHost id (·.configure c)) ∨
      ∃ e, Configuration.ofValue v = .error e ∧ answer = .error (.contract e) ∧ done = left) :
    Settles left done id v answer := by
  rcases hread with ⟨rfl, c, hc, rfl⟩ | ⟨e, he, rfl, rfl⟩
  · have hconfig : v.IsConfig := Configuration.exists_ofValue_iff.1 ⟨c, hc⟩
    refine ⟨iff_of_true rfl hconfig, fun _ => ?_, fun hnot => absurd hconfig hnot⟩
    obtain ⟨entries, hv, hconfigured⟩ := Host.configuredBy_configure hc x
    refine ⟨entries, x, x.configure c, hv, hx, hconfigured, ?_, ?_⟩
    · rw [host?_modifyHost_self, hx, Option.map_some]
    · have hxid : x.id = id := hkeyed hx
      have hkey : (x.configure c).id = id := hxid
      exact (insertHost_eq_modifyHost _ hx rfl hkey).symm.trans
        (insertHost_eq_modifyHost _ hx rfl hkey)
  · have hnot : ¬ v.IsConfig := by
      rw [← Configuration.exists_ofValue_iff]
      rintro ⟨c, hc⟩
      rw [he] at hc
      cases hc
    exact ⟨iff_of_false (fun h => by cases h) hnot, fun h => absurd h hnot, fun _ => ⟨⟨e, rfl⟩, rfl⟩⟩

variable [StateStore σ]

/-- At every moment of every run, also while code runs, a definition of the configuration function
in the main module of a root settles what the function answers.  If the function fails, there is no
configuration.  Under the host of a user, and in another module, the function is only defined.  A
request from outside is made at the depth `maxDepth`. -/
theorem configured_of_reachable {allowed : Catalogue → Prop} {r : Server σ β}
    (hr : Reachable allowed r) (hrs : Steps (fun _ _ => True) r s) (hh : s.host? id = some h)
    (hname : f.name = HookKind.configName) (co : Collaborators β) (depth : Nat) :
    let define := defineWith co (runScript co depth) id f
    let hook := evaluate co (runScript co depth) (configFrame co id) f []
    let called := s.modifyHost id (·.insertFunction f)
    (h.owner = none → moduleKey f.module = h.mainKey → s.isStopped = false →
      co.evaluator.accepts f [] = .ok () →
        (∀ v, hook.eval called = .ok v →
          Server.Settles (hook.exec called) (define.exec s) id v (define.eval s)) ∧
        ∀ e, hook.eval called = .error e →
          define.eval s = .error (.contract .invalidConfig) ∧
            ∃ new, define.exec s =
              { hook.exec called with journal := new ++ (hook.exec called).journal }) ∧
    (h.owner ≠ none ∨ moduleKey f.module ≠ h.mainKey →
      define.eval s = .ok () ∧ define.exec s = called ∧ (define.exec s).journal = s.journal ∧
        ((define.exec s).host? id).map Host.setup = some h.setup) := by
  intro define hook called
  have ha : Arena (fun _ _ => True) s := Steps.arena (hr.arena fun _ _ _ _ _ => trivial) hrs
  refine ⟨fun hroot hmain hrunning haccepts => ?_, fun helse => ?_⟩
  · obtain ⟨hown, hfun⟩ := config_insertFunction hh hmain hname
    obtain ⟨heval, hexec⟩ : define.eval s = (readConfig co (runScript co depth) id).eval called ∧
        define.exec s = (readConfig co (runScript co depth) id).exec called :=
      defineWith_config_root hh hname hroot hmain
    have hgoing : called.isStopped = false := hrunning
    have hkeyed : called.Keyed := ha.keyed.modifyHost id fun _ => rfl
    rw [heval, hexec]
    refine ⟨fun v hv => ?_, fun e he => ?_⟩
    · have hsteps : CodeSteps id called (hook.exec called) :=
        actsUnder_evaluate (runsBy_runScript (codeRelation_codeSteps id) depth) rfl f [] hkeyed
      have hlive : ((hook.exec called).host? id).isSome := by
        rw [hsteps.frame.isSome_host?_eq, hown]
        rfl
      obtain ⟨x, hx⟩ := Option.isSome_iff_exists.1 hlive
      exact settles_of_ok (hsteps.frame.keyed hkeyed) hx
        (readConfig_of_ok hgoing hown hfun haccepts hv)
    · obtain ⟨hfails, hreported⟩ := readConfig_of_error hgoing hown hfun haccepts he
      rw [hfails, hreported]
      exact ⟨rfl, exec_reportFailure_eq co id "Callback failed" e⟩
  · have hdefined : define.eval s = .ok () ∧ define.exec s = called :=
      defineWith_config_elsewhere hh hname helse
    obtain ⟨heval, hexec⟩ := hdefined
    rw [hexec]
    refine ⟨heval, rfl, rfl, ?_⟩
    rw [host?_modifyHost_self, hh]
    rfl

/-- A configuration for the market: one host for all, and one argument type. -/
def marketConfig : Value :=
  .map [("arguments", .map [("count", .map [("min", .str "1"), ("suggest", .list [.str "7"]),
    ("type", .str "INT")])]), ("scope", .str "all")]

theorem isConfig_marketConfig : marketConfig.IsConfig := by
  refine ⟨_, rfl, fun a ha => ?_⟩
  obtain rfl := Option.some.inj ha
  refine ⟨_, rfl, List.forall_mem_singleton.2 ⟨_, rfl, ⟨"INT", rfl, by decide +kernel⟩, ?_⟩⟩
  intro v hv
  exact ⟨[.str "7"], (Option.some.inj hv).symm⟩

/-- The market defines its configuration function.  It has been made for a host for each player, and
is configured to have one host for all, with the argument type declared. -/
theorem configured_market :
    let co := Collaborators.plain (.always (.done (.ok marketConfig))) marketCatalogue
    let s : Server MemoryStore Unit := Operation.runAll co (marketOperations.take 1) (.new ∅ {})
    let f : StoredFunction Unit :=
      { name := "__config", module := some "market", parameters := [], body := () }
    let t := (ServerM.define co 1 f).exec s
    Reachable (fun _ => True) s ∧
      (s.host? 1).map (fun h => (h.owner, h.mainKey, h.perUser)) = some (none, "market", true) ∧
      (ServerM.define co 1 f).eval s = .ok () ∧
      ∃ entries x y, marketConfig = .map entries ∧ t.host? 1 = some y ∧
        Host.ConfiguredBy entries x y ∧ y.perUser = false ∧ (y.argTypes["count"]?).isSome := by
  intro co s f t
  have hs : Reachable (fun _ => True) s := .runAll trivial _ (.new _ _)
  have hhost : (s.host? 1).map (fun h => (h.owner, h.mainKey, h.perUser)) =
      some (none, "market", true) := by decide +kernel
  obtain ⟨h, hh, hfacts⟩ := Option.map_eq_some_iff.1 hhost
  have hroot : h.owner = none := congrArg (·.1) hfacts
  have hkey : h.mainKey = "market" := congrArg (·.2.1) hfacts
  have hmain : moduleKey f.module = h.mainKey := hkey.symm
  have hframe : (s.modifyHost 1 (·.insertFunction f)).host? (configFrame co 1).host =
      some (h.insertFunction f) := (config_insertFunction hh hmain rfl).1
  have hhook : (evaluate co (runScript co maxDepth) (configFrame co 1) f []).eval
      (s.modifyHost 1 (·.insertFunction f)) = .ok marketConfig := by
    rw [eval_evaluate hframe]
    rfl
  have hsettles := ((configured_of_reachable hs .refl hh rfl co maxDepth).1 hroot hmain
    (by decide +kernel) rfl).1 marketConfig hhook
  obtain ⟨entries, x, y, hentries, -, hconfigured, hy, -⟩ :=
    hsettles.applied isConfig_marketConfig
  have hy' : t.host? 1 = some y := hy
  have hperUser : (t.host? 1).map (·.perUser) = some false := by decide +kernel
  have hcount : (t.host? 1).any (fun y => (y.argTypes["count"]?).isSome) = true := by
    decide +kernel
  rw [hy'] at hperUser hcount
  exact ⟨hs, hhost, hsettles.succeeds_iff.2 isConfig_marketConfig, entries, x, y, hentries, hy',
    hconfigured, Option.some.inj hperUser, hcount⟩

end ScriptHost
