import Mathlib
import ScriptHost.Proofs.Arena
/-!
# Families of hosts

In an arena that is in order the hosts form a forest.  The family of a host is what hangs below it,
each host once, after the hosts of its users, which come in the order of the names of the users.

Families are computed down to a depth.  Since numbers grow from a host to the hosts of its users,
every depth that reaches up to the next number gives the same family, so that the recursion can be
read without it.

## Main statements

* `Server.Descends`: what hangs below a host.
* `Server.Arena.mem_family_iff`, `Server.Arena.family_eq`, `Server.Arena.nodup_family`: what a
  family is.
* `Server.Children`, `Server.Arena.exists_children`: the order of a family.
* `Server.SamePlaces.family_eq`: families depend on the places of hosts only.
-/

namespace ScriptHost

variable {σ β : Type} {suits : String → Module → Prop} {s t : Server σ β} {id k c d p : HostId}

namespace Server

/-! ## What hangs below a host -/

/-- A host hangs below another if it is that host, or the host of a user of one that hangs below
it. -/
inductive Descends (s : Server σ β) (id : HostId) : HostId → Prop where
  | self : Descends s id id
  | user {p c : HostId} {h : Host β} {u : String} (hp : Descends s id p)
      (hh : s.host? p = some h) (hu : h.users[u]? = some c) : Descends s id c

theorem Descends.trans (hk : s.Descends k c) (hid : s.Descends id k) : s.Descends id c := by
  induction hk with
  | self => exact hid
  | user _ hh hu ih => exact .user ih hh hu

/-- The members of a family hang below its host. -/
theorem descends_of_mem_familyTo {depth : Nat} (hk : k ∈ s.familyTo depth id) :
    s.Descends id k := by
  induction depth generalizing id with
  | zero => exact absurd hk List.not_mem_nil
  | succ depth ih =>
      obtain ⟨h, hh, ⟨c, hc, hmem⟩ | rfl⟩ := mem_familyTo_succ.1 hk
      · obtain ⟨u, hu⟩ := Host.mem_userIds.1 hc
        exact (ih hmem).trans (.user .self hh hu)
      · exact .self

/-- What hangs below a host depends only on the hosts that hang below it. -/
theorem descends_iff_of_host?_eq (hsame : ∀ p, s.Descends id p → t.host? p = s.host? p) :
    t.Descends id k ↔ s.Descends id k := by
  constructor
  · intro hk
    induction hk with
    | self => exact .self
    | user _ hx hu ih => exact .user ih ((hsame _ ih).symm.trans hx) hu
  · intro hk
    induction hk with
    | self => exact .self
    | user hp hx hu ih => exact .user ih ((hsame _ hp).trans hx) hu

/-- The host of a user has a higher number than the host that it belongs to. -/
theorem Arena.lt_of_user (ha : Arena suits s) {h : Host β} {u : String} (hh : s.host? p = some h)
    (hu : h.users[u]? = some c) : p < c := by
  obtain ⟨k, hk, ho⟩ := ha.user hh hu
  obtain ⟨_, _, _, hlt, _⟩ := ha.owner hk ho
  exact hlt

/-- A host belongs to one other host only, and serves one user of it only. -/
theorem Arena.eq_of_user (ha : Arena suits s) {h h' : Host β} {u u' : String}
    (hh : s.host? p = some h) (hu : h.users[u]? = some c) (hh' : s.host? d = some h')
    (hu' : h'.users[u']? = some c) : p = d ∧ u = u' := by
  obtain ⟨k, hk, ho⟩ := ha.user hh hu
  obtain ⟨k', hk', ho'⟩ := ha.user hh' hu'
  obtain rfl : k = k' := Option.some.inj (hk.symm.trans hk')
  exact Ownership.mk.inj (Option.some.inj (ho.symm.trans ho'))

theorem Arena.le_of_descends (ha : Arena suits s) (h : s.Descends id k) : id ≤ k := by
  induction h with
  | self => exact Nat.le_refl _
  | user _ hh hu ih => exact Nat.le_trans ih (Nat.le_of_lt (ha.lt_of_user hh hu))

/-- What hangs below a live host is live. -/
theorem Arena.host?_of_descends (ha : Arena suits s) {h : Host β} (hh : s.host? id = some h)
    (hk : s.Descends id k) : ∃ x, s.host? k = some x := by
  cases hk with
  | self => exact ⟨h, hh⟩
  | user _ hh' hu =>
      obtain ⟨x, hx, _⟩ := ha.user hh' hu
      exact ⟨x, hx⟩

/-- Of two hosts above the same host one is above the other. -/
theorem Arena.descends_total (ha : Arena suits s) (hc : s.Descends c k) (hd : s.Descends d k) :
    s.Descends c d ∨ s.Descends d c := by
  induction hc with
  | self => exact .inr hd
  | user hp hh hu ih =>
      cases hd with
      | self => exact .inl (.user hp hh hu)
      | user hp' hh' hu' =>
          obtain ⟨rfl, _⟩ := ha.eq_of_user hh hu hh' hu'
          exact ih hp'

/-- Nothing hangs below the hosts of two users of a host. -/
theorem Arena.not_descends_of_users (ha : Arena suits s) {h : Host β} {u v : String}
    (hh : s.host? id = some h) (hu : h.users[u]? = some c) (hv : h.users[v]? = some d)
    (hne : c ≠ d) : ¬ s.Descends c d := by
  intro hcd
  cases hcd with
  | self => exact hne rfl
  | user hp hh' hu' =>
      obtain ⟨rfl, _⟩ := ha.eq_of_user hh' hu' hh hv
      exact absurd (ha.le_of_descends hp) (Nat.not_le.2 (ha.lt_of_user hh hu))

/-! ## Families without depth -/

/-- A host with a higher number needs less depth to reach up to a number. -/
theorem le_add_of_lt {n depth : Nat} (hdepth : n ≤ id + (depth + 1)) (hlt : id < c) :
    n ≤ c + depth := by
  unfold HostId at *
  omega

/-- Under a number that is not given away yet there is no family. -/
theorem Arena.familyTo_of_nextId_le (ha : Arena suits s) (hid : s.nextId ≤ id) (depth : Nat) :
    s.familyTo depth id = [] := by
  cases depth with
  | zero => rfl
  | succ depth =>
      cases hh : s.host? id with
      | none => rw [familyTo, hh]
      | some h => exact absurd (ha.lt_nextId hh) (Nat.not_lt.2 hid)

/-- Every depth that reaches up to the next number gives the same family. -/
theorem Arena.familyTo_eq_familyTo (ha : Arena suits s) {depth depth' : Nat}
    (hdepth : s.nextId ≤ id + depth) (hdepth' : s.nextId ≤ id + depth') :
    s.familyTo depth id = s.familyTo depth' id := by
  induction depth generalizing id depth' with
  | zero =>
      have hid : s.nextId ≤ id := hdepth
      rw [ha.familyTo_of_nextId_le hid, ha.familyTo_of_nextId_le hid]
  | succ depth ih =>
      cases depth' with
      | zero =>
          have hid : s.nextId ≤ id := hdepth'
          rw [ha.familyTo_of_nextId_le hid, ha.familyTo_of_nextId_le hid]
      | succ depth' =>
          cases hh : s.host? id with
          | none => rw [familyTo, familyTo, hh]
          | some h =>
              rw [familyTo, familyTo, hh]
              dsimp only
              congr 1
              apply List.flatMap_congr
              intro c hc
              obtain ⟨u, hu⟩ := Host.mem_userIds.1 hc
              have hlt : id < c := ha.lt_of_user hh hu
              exact ih (le_add_of_lt hdepth hlt) (le_add_of_lt hdepth' hlt)

/-- The family of a live host: the families of the hosts of its users, and then the host. -/
theorem Arena.family_eq (ha : Arena suits s) {h : Host β} (hh : s.host? id = some h) :
    s.family id = h.userIds.flatMap s.family ++ [id] := by
  obtain ⟨n, hn⟩ := Nat.exists_eq_succ_of_ne_zero
    (Nat.ne_of_gt (Nat.zero_lt_of_lt (ha.lt_nextId hh)))
  have hfamily : s.family id = h.userIds.flatMap (s.familyTo n) ++ [id] := by
    unfold family
    rw [hn, familyTo, hh]
  rw [hfamily]
  congr 1
  apply List.flatMap_congr
  intro c hc
  obtain ⟨u, hu⟩ := Host.mem_userIds.1 hc
  have hlt : id < c := ha.lt_of_user hh hu
  apply ha.familyTo_eq_familyTo
  · have hdepth : s.nextId ≤ id + (n + 1) := Nat.le_trans (Nat.le_of_eq hn) (Nat.le_add_left _ _)
    exact le_add_of_lt hdepth hlt
  · exact Nat.le_add_left _ _

theorem family_of_host?_eq_none (hh : s.host? id = none) : s.family id = [] := by
  unfold family
  cases s.nextId with
  | zero => rfl
  | succ n => rw [familyTo, hh]

/-- The family of a host is what hangs below it. -/
theorem Arena.mem_family_iff (ha : Arena suits s) :
    k ∈ s.family id ↔ (s.host? id).isSome ∧ s.Descends id k := by
  constructor
  · intro hk
    refine ⟨?_, descends_of_mem_familyTo hk⟩
    cases hh : s.host? id with
    | none =>
        rw [family_of_host?_eq_none hh] at hk
        exact absurd hk List.not_mem_nil
    | some h => rfl
  · rintro ⟨hlive, hk⟩
    obtain ⟨h, hh⟩ := Option.isSome_iff_exists.1 hlive
    induction hk with
    | self => exact ha.mem_family_self hh
    | user _ hh' hu ih => exact ha.mem_familyTo_of_user (Nat.le_add_left _ _) ih hh' hu

/-! ## The order of a family -/

/-- The users of a host with their hosts, in the order of the names of the users. -/
structure Children (h : Host β) (children : List (String × HostId)) : Prop where
  pairwise : children.Pairwise fun a b => a.1 < b.1
  mem : ∀ u c, (u, c) ∈ children ↔ h.users[u]? = some c

theorem children_toList (h : Host β) : Children h h.users.toList where
  pairwise := by
    apply h.users.ordered_keys_toList.imp
    intro a b hab
    exact compareOfLessAndEq_eq_lt.1 hab
  mem u c := Std.ExtTreeMap.mem_toList_iff_getElem?_eq_some

/-- No host is twice among the hosts of the users of a host. -/
theorem Arena.nodup_userIds (ha : Arena suits s) {h : Host β} (hh : s.host? id = some h) :
    h.userIds.Nodup := by
  unfold Host.userIds
  rw [List.Nodup, List.pairwise_map]
  apply (children_toList h).pairwise.imp_of_mem
  intro a b hmema hmemb hlt heq
  have hu := ((children_toList h).mem a.1 a.2).1 hmema
  have hv := ((children_toList h).mem b.1 b.2).1 hmemb
  rw [← heq] at hv
  exact (ne_of_lt hlt) (ha.eq_of_user hh hu hh hv).2

/-- No host is twice in a family. -/
theorem Arena.nodup_familyTo (ha : Arena suits s) (depth : Nat) (id : HostId) :
    (s.familyTo depth id).Nodup := by
  induction depth generalizing id with
  | zero => exact List.nodup_nil
  | succ depth ih =>
      rw [familyTo]
      cases hh : s.host? id with
      | none => exact List.nodup_nil
      | some h =>
          dsimp only
          rw [List.nodup_append]
          refine ⟨?_, List.nodup_singleton id, ?_⟩
          · rw [List.nodup_flatMap]
            refine ⟨fun c _ => ih c, ?_⟩
            -- a host below two of them would put one of the two below the other
            apply (ha.nodup_userIds hh).imp_of_mem
            intro c d hc hd hne k hk hk'
            obtain ⟨u, hu⟩ := Host.mem_userIds.1 hc
            obtain ⟨v, hv⟩ := Host.mem_userIds.1 hd
            rcases ha.descends_total (descends_of_mem_familyTo hk)
                (descends_of_mem_familyTo hk') with hcd | hdc
            · exact ha.not_descends_of_users hh hu hv hne hcd
            · exact ha.not_descends_of_users hh hv hu hne.symm hdc
          · intro k hk l hl hkl
            obtain ⟨c, hc, hmem⟩ := List.mem_flatMap.1 hk
            obtain ⟨u, hu⟩ := Host.mem_userIds.1 hc
            have hle : c ≤ k := ha.le_of_descends (descends_of_mem_familyTo hmem)
            rw [hkl, List.mem_singleton.1 hl] at hle
            exact absurd hle (Nat.not_le.2 (ha.lt_of_user hh hu))

theorem Arena.nodup_family (ha : Arena suits s) (id : HostId) : (s.family id).Nodup :=
  ha.nodup_familyTo s.nextId id

/-- The family of a live host: the families of the hosts of its users in the order of the names of
the users, and then the host. -/
theorem Arena.exists_children (ha : Arena suits s) {h : Host β} (hh : s.host? id = some h) :
    ∃ children, Children h children ∧
      s.family id = children.flatMap (fun child => s.family child.2) ++ [id] := by
  refine ⟨h.users.toList, children_toList h, ?_⟩
  rw [ha.family_eq hh, Host.userIds, List.flatMap_map]

/-! ## Hosts that stay in their places -/

/-- Which host holds the global state depends on the places of hosts only. -/
theorem SamePlaces.rootOf_eq (hp : SamePlaces s t) (id : HostId) : t.rootOf id = s.rootOf id := by
  have howner := congrArg (Option.bind · fun x : Host β => x.owner.map (·.parent)) (hp id)
  simp only [Option.bind_map] at howner
  exact congrArg (Option.getD · id) howner

/-- A family depends on the places of hosts only. -/
theorem SamePlaces.family_eq (hp : SamePlaces s t) (hnext : t.nextId = s.nextId) (id : HostId) :
    t.family id = s.family id := by
  unfold family
  rw [hnext]
  generalize s.nextId = depth
  induction depth generalizing id with
  | zero => rfl
  | succ depth ih =>
      rw [familyTo, familyTo]
      cases hh : t.host? id with
      | none =>
          have hnone := hp id
          rw [hh, Option.map_none] at hnone
          rw [Option.map_eq_none_iff.1 hnone.symm]
      | some h =>
          obtain ⟨h', hh', hplace⟩ := hp.host? hh
          rw [hh']
          dsimp only
          rw [Host.userIds, Host.userIds, Host.users_of_place_eq hplace, funext ih]

end Server

end ScriptHost
