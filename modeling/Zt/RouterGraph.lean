import Zt.RouterView

namespace Zt.RouterGraph

open Tables EdgeCtrl RouterModel RouterHandlers RouterView
open Function (update_apply)
open View (memberServices switches memberChecks onMembers setPolicy)
open Option (map_eq_some_iff isSome_map isSome_some)

def members (t : RelatedEntityType) (policy : ServicePolicy) : IdSet :=
  match t with
  | .relatedIdentity => policy.identities
  | .relatedService => policy.services
  | .relatedPostureCheck => policy.postureChecks
  | .invalidRelatedType => ∅

/-- What is there and which policy has which entity, without how either side
stores it. -/
@[ext]
structure Graph where
  present : RelatedEntityType → Id → Prop
  policy : Id → Prop
  link : RelatedEntityType → Id → Id → Prop

namespace Graph

def empty : Graph := ⟨fun _ _ => False, fun _ => False, fun _ _ _ => False⟩

/-- Only a link to an identity needs the entity to be there. -/
def Linkable (present : RelatedEntityType → Id → Prop) (t : RelatedEntityType) (id : Id) : Prop :=
  match t with
  | .relatedIdentity => present .relatedIdentity id
  | .relatedService => True
  | .relatedPostureCheck => True
  | .invalidRelatedType => False

variable (g : Graph) {p : Id} {ids : List Id} {t : RelatedEntityType}

def change (c : DataStateServicePolicyChange) : Graph :=
  { g with
    link := fun t p id =>
      (c.relatedEntityType = t ∧ c.policyId = p ∧ id ∈ c.relatedEntityIds ∧ c.add = true ∧ g.policy p ∧
          Linkable g.present t id) ∨
        (g.link t p id ∧ ¬ (c.relatedEntityType = t ∧ c.policyId = p ∧ id ∈ c.relatedEntityIds ∧ c.add = false)) }

def add (t : RelatedEntityType) (id : Id) : Graph :=
  { g with present := fun t' id' => (t' = t ∧ id' = id) ∨ g.present t' id' }

def drop (t : RelatedEntityType) (id : Id) : Graph :=
  { g with
    present := fun t' id' => g.present t' id' ∧ ¬ (t' = t ∧ id' = id)
    link := fun t' p id' => g.link t' p id' ∧ ¬ (t' = t ∧ id' = id) }

def addPolicy (p : Id) : Graph := { g with policy := fun q => q = p ∨ g.policy q }

def dropPolicy (p : Id) : Graph :=
  { g with policy := fun q => g.policy q ∧ q ≠ p, link := fun t q id => g.link t q id ∧ q ≠ p }

def set (action : Action) (t : RelatedEntityType) (id : Id) : Graph :=
  if action = .delete then g.drop t id else g.add t id

/-- What an event means for the links: deleting an entity or a policy also
removes its links. -/
def apply (event : Event) : Graph :=
  match event.model with
  | .identity model => g.set event.action .relatedIdentity model.id
  | .service model => g.set event.action .relatedService model.id
  | .postureCheck model => g.set event.action .relatedPostureCheck model.id
  | .servicePolicy model => if event.action = .delete then g.dropPolicy model.id else g.addPolicy model.id
  | .servicePolicyChange model => g.change model
  | .publicKey _ => g
  | .revocation _ => g
  | .configType _ => g
  | .config _ => g

theorem eq_of_link {g g' : Graph} (hpres : g.present = g'.present) (hpol : g.policy = g'.policy)
    (hlink : ∀ t p id, g.link t p id ↔ g'.link t p id) : g = g' := by
  apply Graph.ext hpres hpol
  funext t p id
  exact propext (hlink t p id)

theorem change_cons {add : Bool} {id : Id} :
    (g.change ⟨p, [id], t, add⟩).change ⟨p, ids, t, add⟩ = g.change ⟨p, id :: ids, t, add⟩ := by
  refine eq_of_link rfl rfl fun t' p' id' => ?_
  simp only [change]
  cases add <;> simp <;> tauto

theorem change_eq_self {g : Graph}
    (hnew : ∀ id ∈ ids, g.policy p → ¬ Linkable g.present t id) (hold : ∀ id ∈ ids, ¬ g.link t p id) {add : Bool} :
    g.change ⟨p, ids, t, add⟩ = g := by
  refine eq_of_link rfl rfl fun t' q id => ⟨?_, fun hlink => .inr ⟨hlink, ?_⟩⟩
  · rintro (⟨rfl, rfl, hid, -, hp, hlink⟩ | ⟨hlink, -⟩)
    · exact absurd hlink (hnew id hid hp)
    · exact hlink
  · rintro ⟨rfl, rfl, hid, -⟩
    exact hold id hid hlink

end Graph

def present (v : View) (t : RelatedEntityType) (id : Id) : Prop :=
  match t with
  | .relatedIdentity => (v.identity id).isSome
  | .relatedService => (v.service id).isSome
  | .relatedPostureCheck => (v.check id).isSome
  | .invalidRelatedType => False

def graph (v : View) : Graph where
  present := present v
  policy p := (v.policy p).isSome
  link t p id := ∃ policy, v.policy p = some policy ∧ id ∈ members t policy

/-- A policy lists an identity exactly if the identity is there and lists the
policy. -/
structure Consistent (v : View) : Prop where
  named : ∀ {p policy}, v.policy p = some policy → policy.id = p
  linked : ∀ {p policy}, v.policy p = some policy → ∀ i,
    (i ∈ policy.identities ↔ ∃ m, v.identity i = some m ∧ p ∈ m.servicePolicies)
  known : ∀ {i m p}, v.identity i = some m → p ∈ m.servicePolicies → ∃ policy, v.policy p = some policy

theorem consistent_empty : Consistent View.empty where
  named h := by cases h
  linked h := by cases h
  known h := by cases h

variable {v v' : View} {p i : Id} {add : Bool} {m m' : Membership} {policy : ServicePolicy} {ids : List Id}
  {index : UInt64} {rdm : RouterDataModel} {f : Membership → Option Membership}
  {c : DataStateServicePolicyChange}

theorem Consistent.link_iff (h : Consistent v) :
    (graph v).link .relatedIdentity p i ↔ ∃ m, v.identity i = some m ∧ p ∈ m.servicePolicies := by
  constructor
  · rintro ⟨policy, hp, hi⟩
    exact (h.linked hp i).mp hi
  · rintro ⟨m, hm, hp⟩
    obtain ⟨policy, hpol⟩ := h.known hm hp
    exact ⟨policy, hpol, (h.linked hpol i).mpr ⟨m, hm, hp⟩⟩

def roles (m : Membership) : Set Id := {p | p ∈ m.servicePolicies}

/-- The policies that an identity lists. -/
def held (v : View) (i : Id) : Set Id := ((v.identity i).map roles).getD ∅

theorem mem_held : p ∈ held v i ↔ ∃ m, v.identity i = some m ∧ p ∈ m.servicePolicies := by
  cases h : v.identity i <;> simp [held, h, roles]

theorem Consistent.congr (h : Consistent v) (hheld : ∀ i, held v' i = held v i) (hpol : v'.policy = v.policy) :
    Consistent v' := by
  constructor
  · intro p policy hp
    rw [hpol] at hp
    exact h.named hp
  · intro p policy hp i
    rw [hpol] at hp
    rw [h.linked hp i, ← mem_held, ← mem_held, hheld]
  · intro i m p hm hmem
    rw [hpol]
    have hp := mem_held.mpr ⟨m, hm, hmem⟩
    rw [hheld] at hp
    obtain ⟨m₀, hm₀, hmem₀⟩ := mem_held.mp hp
    exact h.known hm₀ hmem₀

theorem Consistent.update {policy' : Option ServicePolicy} (h : Consistent v)
    (hpol : v'.policy = Function.update v.policy p policy')
    (hother : ∀ i q, q ≠ p → (q ∈ held v' i ↔ q ∈ held v i)) (hnone : policy' = none → ∀ i, p ∉ held v' i)
    (hsome : ∀ policy, policy' = some policy → policy.id = p ∧ ∀ i, i ∈ policy.identities ↔ p ∈ held v' i) :
    Consistent v' := by
  constructor
  · intro q policy hq
    rw [hpol, update_apply] at hq
    split at hq
    · rename_i heq
      exact (hsome policy hq).1.trans heq.symm
    · exact h.named hq
  · intro q policy hq i
    rw [hpol, update_apply] at hq
    rw [← mem_held]
    split at hq
    · rename_i heq
      rw [heq]
      exact (hsome policy hq).2 i
    · rename_i hne
      rw [hother i q hne, h.linked hq i, mem_held]
  · intro i m q hm hq
    have hheld := mem_held.mpr ⟨m, hm, hq⟩
    rw [hpol, update_apply]
    split
    · rename_i heq
      cases hp : policy' with
      | none => exact absurd (heq ▸ hheld) (hnone hp i)
      | some policy => exact ⟨policy, rfl⟩
    · rename_i hne
      obtain ⟨m₀, hm₀, hq₀⟩ := mem_held.mp ((hother i q hne).mp hheld)
      exact h.known hm₀ hq₀

/-- What no operation on the counts of a membership touches. -/
def Frame (m m' : Membership) : Prop :=
  m'.servicePolicies = m.servicePolicies ∧ m'.serviceAccessTrackingEnabled = m.serviceAccessTrackingEnabled

theorem frame_servicesChanged (add : Bool) (m : Membership) (policy : ServicePolicy) (ids : List Id)
    (index : UInt64) : Frame m (m.servicesChangedInPolicy add policy ids index) := by
  unfold Membership.servicesChangedInPolicy
  split
  · exact ⟨rfl, rfl⟩
  · exact ⟨rfl, rfl⟩

theorem frame_postureChecksChanged (h : m.postureChecksChangedInPolicy add policy ids index = some m') :
    Frame m m' := by
  unfold Membership.postureChecksChangedInPolicy at h
  by_cases hp : policy.id ∈ m.servicePolicies
  · simp only [hp, if_true] at h
    split at h
    · obtain ⟨-, -, rfl⟩ := map_eq_some_iff.mp h
      exact ⟨rfl, rfl⟩
    · cases h
      exact ⟨rfl, rfl⟩
  · simp only [hp, if_false] at h
    split at h
    · obtain ⟨-, -, rfl⟩ := map_eq_some_iff.mp h
      exact ⟨rfl, rfl⟩
    · cases h
      exact ⟨rfl, rfl⟩

theorem frame_memberServices (h : memberServices index policy ids add m = some m') : Frame m m' := by
  have hs := frame_servicesChanged add m policy ids index
  unfold memberServices at h
  by_cases hsw : switches policy ids add
  · simp only [hsw] at h
    have hc := frame_postureChecksChanged h
    exact ⟨hc.1.trans hs.1, hc.2.trans hs.2⟩
  · simp only [hsw] at h
    cases h
    exact hs

theorem frame_memberChecks (h : memberChecks index policy ids add m = some m') : Frame m m' := by
  unfold memberChecks at h
  split at h
  · cases h
    exact ⟨rfl, rfl⟩
  · exact frame_postureChecksChanged h

/-- An identity joins a policy or leaves it. -/
abbrev toggled (m : Membership) (policy : ServicePolicy) (index : UInt64) (add : Bool) : Membership :=
  if add then m.addedToPolicy policy index else m.removedFromPolicy policy index

theorem toggled_of_done (h : policy.id ∈ m.servicePolicies ↔ add = true) (index : UInt64) :
    toggled m policy index add = m := by
  cases add
  · exact if_neg (by simpa using h)
  · exact if_pos (h.mpr rfl)

theorem toggled_eq (h : ¬ (policy.id ∈ m.servicePolicies ↔ add = true)) (index : UInt64) :
    toggled m policy index add =
      { servicePolicies := if add then m.servicePolicies.insert policy.id () else m.servicePolicies.erase policy.id
        serviceAccess := if m.serviceAccessTrackingEnabled then
            policy.services.keys.foldl (fun access s => updateServiceCount access policy s index add) m.serviceAccess
          else m.serviceAccess
        postureChecks := if isEmpty policy.services then m.postureChecks
          else policy.postureChecks.keys.foldl (if add then incrementUseCount else decrementUseCount) m.postureChecks
        serviceAccessTrackingEnabled := m.serviceAccessTrackingEnabled } := by
  have hmem : policy.id ∈ m.servicePolicies ↔ add = false := by
    cases add <;> simpa using h
  cases add <;> cases ht : m.serviceAccessTrackingEnabled <;> cases he : isEmpty policy.services <;>
    simp [toggled, Membership.addedToPolicy, Membership.removedFromPolicy, Membership.updateServiceCounts, hmem, ht, he]

theorem mem_toggled {s : IdSet} {j : Id} :
    j ∈ (if add then s.insert i () else s.erase i) ↔ (j = i ∧ add = true) ∨ (j ∈ s ∧ ¬ (j = i ∧ add = false)) := by
  cases add
  · simp [and_comm]
  · simp

theorem mem_membership : p ∈ (toggled m policy index add).servicePolicies ↔
    (p = policy.id ∧ add = true) ∨ (p ∈ m.servicePolicies ∧ ¬ (p = policy.id ∧ add = false)) := by
  by_cases hdone : policy.id ∈ m.servicePolicies ↔ add = true
  · rw [toggled_of_done hdone]
    by_cases hp : p = policy.id
    · cases add <;> simp [hp, hdone]
    · simp [hp]
  · rw [toggled_eq hdone]
    exact mem_toggled

theorem mem_addedToPolicy :
    p ∈ (m.addedToPolicy policy index).servicePolicies ↔ p = policy.id ∨ p ∈ m.servicePolicies := by
  have h : p ∈ (toggled m policy index true).servicePolicies ↔ _ := mem_membership
  simpa [toggled] using h

theorem mem_removedFromPolicy :
    p ∈ (m.removedFromPolicy policy index).servicePolicies ↔ p ≠ policy.id ∧ p ∈ m.servicePolicies := by
  have h : p ∈ (toggled m policy index false).servicePolicies ↔ _ := mem_membership
  simpa [toggled, and_comm] using h

theorem tracking_toggled (m : Membership) (index : UInt64) (add : Bool) :
    (toggled m policy index add).serviceAccessTrackingEnabled = m.serviceAccessTrackingEnabled := by
  by_cases hdone : policy.id ∈ m.servicePolicies ↔ add = true
  · rw [toggled_of_done hdone]
  · rw [toggled_eq hdone]

def memberChange (index : UInt64) (policy : ServicePolicy) (c : DataStateServicePolicyChange) :
    Membership → Option Membership :=
  match c.relatedEntityType with
  | .relatedService => memberServices index policy c.relatedEntityIds c.add
  | .relatedPostureCheck => memberChecks index policy c.relatedEntityIds c.add
  | _ => some

/-- No identity of the policy misses an access entry that the change uses. -/
def Returns (index : UInt64) (v : View) (c : DataStateServicePolicyChange) : Prop :=
  ∀ policy, v.policy c.policyId = some policy → ∀ i ∈ policy.identities, ∀ m, v.identity i = some m →
    ∃ m', memberChange index policy c m = some m'

theorem eachIdentity_returns (h : ∀ i ∈ policy.identities, ∀ m, (view rdm).identity i = some m → ∃ m', f m = some m') :
    ∃ rdm', eachIdentity rdm policy f = some rdm' := by
  have hsome : ∃ t, adjustEachM rdm.identities policy.identities.keys (fun identity =>
      (f identity.toMembership).map (fun m => { identity with toMembership := m })) = some t := by
    apply adjustEachM_isSome policy.identities.keys_nodup
    intro i hi identity hlook
    obtain ⟨m', hm'⟩ := h i (AList.mem_keys.mpr hi) identity.toMembership (by simp [view, hlook])
    exact ⟨_, map_eq_some_iff.mpr ⟨m', hm', rfl⟩⟩
  obtain ⟨t, ht⟩ := hsome
  exact ⟨_, map_eq_some_iff.mpr ⟨t, ht, rfl⟩⟩

theorem changeServices_returns (h : ∀ i ∈ policy.identities, ∀ m, (view rdm).identity i = some m →
      ∃ m', memberServices index policy ids add m = some m') :
    ∃ rdm', changeServices index p ids add rdm policy = some rdm' := by
  obtain ⟨rdm₁, h₁⟩ : ∃ rdm₁, eachIdentity rdm policy
      (fun m => some (m.servicesChangedInPolicy add policy ids index)) = some rdm₁ :=
    eachIdentity_returns (fun _ _ _ _ => ⟨_, rfl⟩)
  rw [changeServices_eq h₁]
  by_cases hsw : switches policy ids add
  · rw [if_pos hsw]
    apply eachIdentity_returns
    intro i hi m hm
    have hview : (view rdm₁).identity i = some m := hm
    have hmember : i ∈ policy.identities := hi
    rw [(view_eachIdentity h₁).1, onMembers] at hview
    simp only [hmember] at hview
    obtain ⟨m₀, hm₀, heq⟩ := Option.bind_eq_some_iff.mp hview
    cases heq
    obtain ⟨m', hm'⟩ := h i hi m₀ hm₀
    simp only [memberServices, hsw] at hm'
    exact ⟨m', hm'⟩
  · rw [if_neg hsw]
    exact ⟨_, rfl⟩

theorem handleServicePolicyChange_returns (h : Returns index (view rdm) c) :
    ∃ rdm', handleServicePolicyChange index rdm c = some rdm' := by
  unfold handleServicePolicyChange
  cases hp : rdm.servicePolicies.lookup c.policyId with
  | none => exact ⟨rdm, rfl⟩
  | some policy =>
    have hm := h (bare policy) (by simp [view, hp])
    obtain ⟨p, ids, t, add⟩ := c
    suffices hs : ∃ rdm', changeMembers index ⟨p, ids, t, add⟩ rdm policy = some rdm' by
      obtain ⟨rdm', hrdm'⟩ := hs
      exact ⟨_, map_eq_some_iff.mpr ⟨rdm', hrdm', rfl⟩⟩
    cases t with
    | invalidRelatedType => exact ⟨rdm, rfl⟩
    | relatedIdentity => exact ⟨_, rfl⟩
    | relatedService => exact changeServices_returns hm
    | relatedPostureCheck =>
      suffices hs : ∃ rdm', countPostureChecks index ids add rdm policy = some rdm' by
        obtain ⟨rdm', hrdm'⟩ := hs
        exact ⟨_, map_eq_some_iff.mpr ⟨rdm', hrdm', rfl⟩⟩
      rw [countPostureChecks, countChecks_eq]
      by_cases he : isEmpty policy.services
      · rw [if_pos he]
        exact ⟨rdm, rfl⟩
      · rw [if_neg he]
        apply eachIdentity_returns
        intro i hi m hmi
        obtain ⟨m', hm'⟩ := hm i hi m hmi
        unfold memberChange memberChecks at hm'
        have he' : ¬ isEmpty (bare policy).services := he
        simp only [he'] at hm'
        exact ⟨m', hm'⟩

theorem mem_setAll {s : IdSet} {id : Id} :
    id ∈ setAll s ids add ↔ (id ∈ ids ∧ add = true) ∨ (id ∈ s ∧ ¬ (id ∈ ids ∧ add = false)) := by
  cases add
  · simp [setAll, mem_removeAll]
  · simp [setAll, mem_addAll, or_comm]

theorem isSome_backLinks (back : Id → Option (Set Id)) {x : Id} :
    (backLinks p ids add back x).isSome = (back x).isSome := by
  unfold backLinks
  split
  · exact isSome_map
  · rfl

theorem map_onMembers {β : Type} {g : Membership → β} {members : IdSet}
    (h : ∀ i ∈ members, ∀ m, v.identity i = some m → ∃ m', f m = some m') (hf : ∀ m m', f m = some m' → g m' = g m)
    (i : Id) : ((v.onMembers members f).identity i).map g = (v.identity i).map g := by
  simp only [onMembers]
  split
  · rename_i hi
    cases hm : v.identity i with
    | none => rfl
    | some m =>
      obtain ⟨m', hm'⟩ := h i hi m hm
      simp [hm', hf m m' hm']
  · rfl

theorem isSome_onMembers {members : IdSet} (h : ∀ i ∈ members, ∀ m, v.identity i = some m → ∃ m', f m = some m')
    (i : Id) : ((v.onMembers members f).identity i).isSome = (v.identity i).isSome := by
  have hmap := congrArg Option.isSome (map_onMembers (g := fun _ => ()) h (fun _ _ _ => rfl) i)
  rwa [isSome_map, isSome_map] at hmap

theorem held_onMembers {members : IdSet} (hr : ∀ i ∈ members, ∀ m, v.identity i = some m → ∃ m', f m = some m')
    (hf : ∀ m m', f m = some m' → Frame m m') (hid : v'.identity = (v.onMembers members f).identity) (i : Id) :
    held v' i = held v i := by
  have hroles := map_onMembers (g := roles) hr (fun m m' hm => by rw [roles, (hf m m' hm).1, roles]) i
  rw [held, hid, hroles, held]

theorem Consistent.replace {policy' : ServicePolicy} {t : RelatedEntityType} (h : Consistent v)
    (hp : v.policy p = some policy) (hr : ∀ i ∈ policy.identities, ∀ m, v.identity i = some m → ∃ m', f m = some m')
    (hf : ∀ m m', f m = some m' → Frame m m') (hid : v'.identity = (v.onMembers policy.identities f).identity)
    (hpol : v'.policy = Function.update v.policy p (some policy')) (hsame : policy'.id = policy.id)
    (hpres : ∀ t' id, t' ≠ .relatedIdentity → (present v' t' id ↔ present v t' id)) (ht : t ≠ .relatedIdentity)
    (hlink : ∀ id, Graph.Linkable (present v) t id)
    (hmembers : ∀ t', members t' policy' = if t' = t then setAll (members t policy) ids add else members t' policy) :
    Consistent v' ∧ graph v' = (graph v).change ⟨p, ids, t, add⟩ := by
  have hheld := held_onMembers hr hf hid
  constructor
  · refine h.update hpol (fun i q _ => by rw [hheld]) (fun hnone => by cases hnone) fun x hx => ?_
    cases hx
    refine ⟨hsame.trans (h.named hp), fun i => ?_⟩
    have hids : policy'.identities = policy.identities := (hmembers .relatedIdentity).trans (if_neg ht.symm)
    rw [hids, h.linked hp i, hheld, mem_held]
  · apply Graph.ext
    · funext t' id
      by_cases ht' : t' = .relatedIdentity
      · rw [ht']
        have hsome := isSome_onMembers hr id
        rw [← hid] at hsome
        exact congrArg (· = true) hsome
      · exact propext (hpres t' id ht')
    · funext q
      simp only [graph, Graph.change, hpol, update_apply]
      split
      · rename_i heq
        simp [heq, hp]
      · rfl
    · funext t' q id
      simp only [graph, Graph.change, hpol, update_apply]
      by_cases hq : q = p
      · subst hq
        simp only [if_true, Option.some.injEq, exists_eq_left', hp, hmembers]
        by_cases ht : t' = t
        · subst ht
          simp [hlink, mem_setAll]
        · simp [ht, Ne.symm ht]
      · simp [hq, Ne.symm hq]

theorem linkIdentity_eq (hi : v.identity i = some m) (hp : v.policy p = some policy) :
    v.linkIdentity index p add i =
      (v.setIdentity i (some (toggled m policy index add))).setPolicy p (some { policy with
          identities := if add then policy.identities.insert i () else policy.identities.erase i }) := by
  unfold View.linkIdentity
  simp only [hi, hp]
  cases add <;> rfl

theorem linkIdentity_cases :
    (v.linkIdentity index p add i = v ∧ (v.identity i = none ∨ v.policy p = none)) ∨
      ∃ m policy, v.identity i = some m ∧ v.policy p = some policy := by
  unfold View.linkIdentity
  cases hi : v.identity i <;> cases hp : v.policy p <;> simp

theorem present_linkIdentity : present (v.linkIdentity index p add i) = present v := by
  unfold View.linkIdentity
  split
  · rename_i m policy hm hp
    funext t id
    cases t with
    | relatedIdentity =>
      simp only [present, setPolicy, View.setIdentity, update_apply]
      split
      · rename_i heq
        simp [heq, hm]
      · rfl
    | _ => rfl
  · rfl

theorem Consistent.linkIdentity (h : Consistent v) (index : UInt64) (p : Id) (add : Bool) (i : Id) :
    Consistent (v.linkIdentity index p add i) := by
  obtain ⟨hsame, -⟩ | ⟨m, policy, hi, hp⟩ := linkIdentity_cases
  · rwa [hsame]
  · rw [linkIdentity_eq hi hp]
    have hid := h.named hp
    refine h.update rfl (fun j q hq => ?_) (fun hnone => by cases hnone) fun policy' heq => ?_
    · rw [mem_held, mem_held]
      simp only [setPolicy, View.setIdentity]
      by_cases hj : j = i
      · simp [hj, hi, mem_membership, hid, hq]
      · simp [hj]
    · cases heq
      refine ⟨hid, fun j => ?_⟩
      rw [mem_held]
      have hlinked := h.linked hp j
      simp only [setPolicy, View.setIdentity]
      by_cases hj : j = i
      · subst hj
        simp only [hi] at hlinked
        simp [mem_toggled, mem_membership, hid, hlinked]
      · simp [mem_toggled, hj, hlinked]

theorem graph_linkIdentity (h : Consistent v) (index : UInt64) (p : Id) (add : Bool) (i : Id) :
    graph (v.linkIdentity index p add i) = (graph v).change ⟨p, [i], .relatedIdentity, add⟩ := by
  obtain ⟨hsame, hnone⟩ | ⟨m, policy, hi, hp⟩ := linkIdentity_cases
  · rw [hsame, Graph.change_eq_self]
    · intro id hid
      rw [List.mem_singleton.mp hid]
      rcases hnone with hnone | hnone <;> simp [graph, Graph.Linkable, present, hnone]
    · intro id hid hlink
      rw [List.mem_singleton.mp hid] at hlink
      obtain ⟨m, hm, -⟩ := h.link_iff.mp hlink
      obtain ⟨policy, hp, -⟩ := hlink
      rcases hnone with hnone | hnone
      · cases hnone.symm.trans hm
      · cases hnone.symm.trans hp
  · apply Graph.ext
    · exact present_linkIdentity
    · rw [linkIdentity_eq hi hp]
      funext q
      simp only [graph, Graph.change, setPolicy, update_apply]
      split
      · rename_i heq
        simp [heq, hp]
      · rfl
    · rw [linkIdentity_eq hi hp]
      funext t q id
      simp only [graph, Graph.change, setPolicy, View.setIdentity, update_apply]
      by_cases hq : q = p
      · subst hq
        cases t with
        | relatedIdentity =>
          simp only [if_true, Option.some.injEq, exists_eq_left', members, mem_toggled, hp]
          by_cases hid : id = i
          · subst hid
            simp [Graph.Linkable, present, hi]
          · simp [hid]
        | _ => simp [hp, members]
      · simp [hq, Ne.symm hq]

theorem foldl_linkIdentity (h : Consistent v) :
    Consistent (ids.foldl (View.linkIdentity index p add) v) ∧
      graph (ids.foldl (View.linkIdentity index p add) v) = (graph v).change ⟨p, ids, .relatedIdentity, add⟩ := by
  induction ids generalizing v with
  | nil => exact ⟨h, (Graph.change_eq_self (by simp) (by simp)).symm⟩
  | cons i ids ih =>
    obtain ⟨hc, hg⟩ := ih (h.linkIdentity index p add i)
    refine ⟨hc, ?_⟩
    rw [List.foldl_cons, hg, graph_linkIdentity h, Graph.change_cons]

/-- A policy change does to the links what it says, and keeps the two sides of
a link together. -/
theorem Consistent.change (h : Consistent v) (hr : Returns index v c) :
    Consistent (v.change index c) ∧ graph (v.change index c) = (graph v).change c := by
  obtain ⟨p, ids, t, add⟩ := c
  unfold View.change
  cases hp : v.policy p with
  | none => exact ⟨h, (Graph.change_eq_self (by simp [graph, hp]) (by simp [graph, hp])).symm⟩
  | some policy =>
    have hm := hr policy hp
    cases t with
    | relatedIdentity => exact foldl_linkIdentity h
    | relatedService =>
      refine h.replace hp hm (fun _ _ => frame_memberServices) rfl rfl rfl ?_ (by simp) (fun _ => trivial) ?_
      · intro t' id ht'
        cases t' <;> simp_all [present, View.changeServices, onMembers, isSome_backLinks]
      · intro t'
        cases t' <;> rfl
    | relatedPostureCheck =>
      refine h.replace hp hm (fun _ _ => frame_memberChecks) rfl rfl rfl ?_ (by simp) (fun _ => trivial) ?_
      · intro t' id ht'
        cases t' <;> simp_all [present, View.changeChecks, onMembers, isSome_backLinks]
      · intro t'
        cases t' <;> rfl
    | invalidRelatedType =>
      exact ⟨h, (Graph.change_eq_self (by simp [Graph.Linkable]) (by simp [graph, members])).symm⟩

end Zt.RouterGraph
