import Zt.AccessCounts
import Zt.RouterServices

namespace Zt.ServiceLists

open Tables Tally EdgeCtrl RouterModel RouterServices AccessCounts
open Grants (allows)
open ServicePolicy (isDial isBind)

def policyGrants (rdm : RouterDataModel) (p : Id) : Option Grants := (rdm.servicePolicies.lookup p).map grantsOf

/-- A service as its subscribers see it, without the indexes that only decide
about notifications. -/
def exported (identityService : IdentityService) : IdentityService :=
  { identityService with dialPoliciesIndex := 0, bindPoliciesIndex := 0 }

def gives (s : Id) (g : Grants) : Bool := decide (s ∈ g.services)

/-- What the given policies grant an identity on a service. -/
def granted (rdm : RouterDataModel) (identity : Identity) (policyIds : List Id) (s : Id) : Option IdentityService :=
  (rdm.services.lookup s).bind (fun service =>
    if policyIds.any (fun p => (policyGrants rdm p).any (gives s)) then
      some {
        service := service
        configs := loadServiceConfigs rdm identity service
        dialAllowed := policyIds.any (fun p => (policyGrants rdm p).any (allows .dialPolicy s))
        bindAllowed := policyIds.any (fun p => (policyGrants rdm p).any (allows .bindPolicy s)) }
    else none)

variable {rdm : RouterDataModel} {identity : Identity} {services : IdTable IdentityService}
  {policy : ServicePolicy} {s : Id} {t : PolicyType} {done : List Id} {typed : Prop}

def grant (rdm : RouterDataModel) (identity : Identity) (policy : ServicePolicy) (s : Id)
    (current : Option IdentityService) : Option IdentityService :=
  (rdm.services.lookup s).elim current (fun service =>
    some (allow policy (current.getD { service := service, configs := loadServiceConfigs rdm identity service })))

theorem lookup_addService {j : Id} : (addService rdm identity policy services s).lookup j =
    if j = s then grant rdm identity policy j (services.lookup j) else services.lookup j := by
  unfold addService grant
  by_cases hj : j = s
  · subst hj
    cases rdm.services.lookup j <;> simp
  · cases rdm.services.lookup s with
    | none => simp [hj]
    | some service =>
      rw [if_neg hj]
      exact AList.lookup_insert_ne hj

theorem exported_allow {x : IdentityService} : exported (allow policy x) =
    { exported x with
      dialAllowed := x.dialAllowed || policy.isDial
      bindAllowed := x.bindAllowed || policy.isBind } := by
  unfold allow isDial isBind
  cases policy.policyType <;> simp [exported]

theorem lookup_addPolicyServices {p : Id} : (addPolicyServices rdm identity services p).lookup s =
    (rdm.servicePolicies.lookup p).elim (services.lookup s) (fun policy =>
      if s ∈ policy.services then grant rdm identity policy s (services.lookup s) else services.lookup s) := by
  unfold addPolicyServices
  cases rdm.servicePolicies.lookup p with
  | none => rfl
  | some policy =>
    have hfold := lookup_foldl_local (h := grant rdm identity policy) (fun t k j => lookup_addService)
      services policy.services.keys_nodup s
    simpa [← AList.mem_keys] using hfold

theorem not_allows_of_not_gives {policyIds : List Id}
    (h : policyIds.any (fun p => (policyGrants rdm p).any (gives s)) = false) :
    policyIds.any (fun p => (policyGrants rdm p).any (allows t s)) = false := by
  simp only [List.any_eq_false, Bool.not_eq_true] at h ⊢
  intro p hp
  have hnot := h p hp
  cases hg : policyGrants rdm p with
  | none => rfl
  | some g =>
    rw [hg] at hnot
    have hs : s ∉ g.services := by simpa [gives] using hnot
    simp [allows, hs]

theorem granted_snoc (h : (services.lookup s).map exported = granted rdm identity done s) (p : Id) :
    ((addPolicyServices rdm identity services p).lookup s).map exported = granted rdm identity (done ++ [p]) s := by
  rw [lookup_addPolicyServices]
  unfold granted at h ⊢
  cases hs : rdm.services.lookup s with
  | none =>
    rw [hs] at h
    have hnone : services.lookup s = none := by simpa using h
    cases rdm.servicePolicies.lookup p <;> simp [hnone, grant, hs]
  | some service =>
    rw [hs] at h
    cases hp : rdm.servicePolicies.lookup p with
    | none => simpa [policyGrants, hp] using h
    | some policy =>
      by_cases hmem : s ∈ policy.services
      · have hg : (policyGrants rdm p).any (gives s) = true := by
          simp [policyGrants, hp, gives, grantsOf, hmem]
        have hd : (policyGrants rdm p).any (allows .dialPolicy s) = policy.isDial := by
          simp [policyGrants, hp, allows, grantsOf, hmem, isDial]
        have hb : (policyGrants rdm p).any (allows .bindPolicy s) = policy.isBind := by
          simp [policyGrants, hp, allows, grantsOf, hmem, isBind]
        simp only [Option.elim_some, hmem, if_true, grant, hs, Option.map_some, exported_allow,
          List.any_append, List.any_cons, hg, hd, hb]
        cases hany : done.any (fun p => (policyGrants rdm p).any (gives s)) with
        | false =>
          have hnone : services.lookup s = none := by simpa [hany] using h
          simp [hnone, exported, not_allows_of_not_gives hany]
        | true =>
          rw [hany] at h
          obtain ⟨x, hx, hexp⟩ := Option.map_eq_some_iff.mp h
          have hd₁ : x.dialAllowed = (exported x).dialAllowed := rfl
          have hb₁ : x.bindAllowed = (exported x).bindAllowed := rfl
          simp [hx, hd₁, hb₁, hexp]
      · have hg : (policyGrants rdm p).any (gives s) = false := by
          simp [policyGrants, hp, gives, grantsOf, hmem]
        have ha : ∀ t, (policyGrants rdm p).any (allows t s) = false := by
          simp [policyGrants, hp, allows, grantsOf, hmem]
        simpa [hmem, hg, ha] using h

theorem granted_foldl (h : (services.lookup s).map exported = granted rdm identity done s) (policyIds : List Id) :
    ((policyIds.foldl (addPolicyServices rdm identity) services).lookup s).map exported =
      granted rdm identity (done ++ policyIds) s := by
  induction policyIds generalizing services done with
  | nil => simpa using h
  | cons p policyIds ih =>
    have hstep := ih (granted_snoc h p)
    simpa using hstep

theorem lookup_buildServiceList :
    ((buildServiceList rdm identity).1.lookup s).map exported =
      granted rdm identity identity.servicePolicies.keys s := by
  have hstart : ((∅ : IdTable IdentityService).lookup s).map exported = granted rdm identity [] s := by
    cases hs : rdm.services.lookup s <;> simp [granted]
  have hfold := granted_foldl hstart identity.servicePolicies.keys
  simpa [buildServiceList] using hfold

theorem any_allows_iff {policyIds : IdSet} :
    policyIds.keys.any (fun p => (policyGrants rdm p).any (allows t s)) = true ↔
      0 < tally (policyGrants rdm) policyIds (allows t s) := by
  rw [tally_pos]
  simp [Option.any_eq_true, AList.mem_keys]

theorem gives_iff {g : Grants} (ht : g.policyType = .dialPolicy ∨ g.policyType = .bindPolicy) :
    gives s g = true ↔ g.allows .dialPolicy s = true ∨ g.allows .bindPolicy s = true := by
  rcases ht with ht | ht <;> simp [gives, allows, ht]

theorem lookup_buildServiceListUsingDenormalizedData {i : Id} (hi : rdm.identities.lookup i = some identity)
    (htypes : ∀ p g, policyGrants rdm p = some g → g.policyType = .dialPolicy ∨ g.policyType = .bindPolicy)
    (htrack : identity.serviceAccessTrackingEnabled = true)
    (hc : AccessCounted True (policyGrants rdm) identity.toMembership) :
    ((buildServiceListUsingDenormalizedData rdm i identity).1.lookup s).map exported =
      granted rdm identity identity.servicePolicies.keys s := by
  obtain ⟨hdial, hbind, hentry⟩ := hc htrack s
  have hany : identity.servicePolicies.keys.any (fun p => (policyGrants rdm p).any (gives s)) = true ↔
      0 < tally (policyGrants rdm) identity.servicePolicies (allows .dialPolicy s) ∨
        0 < tally (policyGrants rdm) identity.servicePolicies (allows .bindPolicy s) := by
    rw [← any_allows_iff, ← any_allows_iff]
    simp only [List.any_eq_true, Option.any_eq_true]
    constructor
    · rintro ⟨p, hp, g, hg, hgive⟩
      rcases (gives_iff (htypes p g hg)).mp hgive with h | h
      · exact .inl ⟨p, hp, g, hg, h⟩
      · exact .inr ⟨p, hp, g, hg, h⟩
    · rintro (⟨p, hp, g, hg, h⟩ | ⟨p, hp, g, hg, h⟩)
      · exact ⟨p, hp, g, hg, (gives_iff (htypes p g hg)).mpr (.inl h)⟩
      · exact ⟨p, hp, g, hg, (gives_iff (htypes p g hg)).mpr (.inr h)⟩
  unfold buildServiceListUsingDenormalizedData granted
  rw [hi]
  simp only [lookup_collect]
  cases hs : rdm.services.lookup s with
  | none => cases identity.serviceAccess.lookup s <;> simp
  | some service =>
    cases ha : identity.serviceAccess.lookup s with
    | none =>
      have hzero : ¬ (0 < tally (policyGrants rdm) identity.servicePolicies (allows .dialPolicy s) ∨
          0 < tally (policyGrants rdm) identity.servicePolicies (allows .bindPolicy s)) := by
        simp [ha] at hdial hbind
        omega
      rw [← hany] at hzero
      simp [hzero]
    | some access =>
      have hacc := hentry trivial access ha
      rw [hasAccess_iff] at hacc
      simp only [ha, Option.getD_some] at hdial hbind
      have htrue := hany.mpr (by omega)
      have hd : access.isDialAllowed =
          identity.servicePolicies.keys.any (fun p => (policyGrants rdm p).any (allows .dialPolicy s)) := by
        rw [Bool.eq_iff_iff, any_allows_iff]
        simp [ServiceAccess.isDialAllowed, hdial]
      have hb : access.isBindAllowed =
          identity.servicePolicies.keys.any (fun p => (policyGrants rdm p).any (allows .bindPolicy s)) := by
        rw [Bool.eq_iff_iff, any_allows_iff]
        simp [ServiceAccess.isBindAllowed, hbind]
      simp [htrue, exported, hd, hb]

theorem lookup_addAccess {services : IdTable ServiceAccess} {j : Id} : (addAccess policy services s).lookup j =
    if j = s then some (((services.lookup j).getD {}).updateServicePolicies policy
      (max policy.postureChecksIndex policy.servicesIndex) true) else services.lookup j := by
  unfold addAccess
  rw [lookup_insert_eq]
  by_cases hj : j = s
  · rw [if_pos hj, if_pos hj, hj]
  · rw [if_neg hj, if_neg hj]

theorem accessIs_addPolicyAccess {services : IdTable ServiceAccess} {p : Id} {dial bind : Nat}
    (htypes : typed → ∀ g, policyGrants rdm p = some g → g.policyType = .dialPolicy ∨ g.policyType = .bindPolicy)
    (h : AccessIs typed (services.lookup s) dial bind) :
    AccessIs typed ((addPolicyAccess rdm services p).lookup s)
      (dial + weight (policyGrants rdm p) (allows .dialPolicy s))
      (bind + weight (policyGrants rdm p) (allows .bindPolicy s)) := by
  unfold addPolicyAccess
  cases hp : rdm.servicePolicies.lookup p with
  | none => simpa [policyGrants, hp, weight] using h
  | some policy =>
    have hg : policyGrants rdm p = some (grantsOf policy) := by simp [policyGrants, hp]
    have hfold := lookup_foldl_local (h := fun _ o => some ((o.getD {}).updateServicePolicies policy
      (max policy.postureChecksIndex policy.servicesIndex) true)) (fun t k j => lookup_addAccess)
      services policy.services.keys_nodup s
    simp only [← AList.mem_keys] at hfold
    simp only [hfold, hg, weight_allows]
    by_cases hs : s ∈ policy.services
    · obtain ⟨hd, hb, -⟩ := h
      obtain ⟨hd₁, hb₁⟩ := counts_updateServicePolicies
      rw [hd] at hd₁
      rw [hb] at hb₁
      simp only [hs, if_true, and_true]
      refine ⟨?_, ?_, ?_⟩
      · rw [Option.getD_some, hd₁]
        split <;> simp
      · rw [Option.getD_some, hb₁]
        split <;> simp
      · intro ht a ha
        cases ha
        rw [hasAccess_iff, hd₁, hb₁]
        have hknown := htypes ht (grantsOf policy) hg
        rcases hknown with hk | hk
        · have hk' : policy.policyType = .dialPolicy := hk
          simp only [hk', if_true]
          omega
        · have hk' : policy.policyType = .bindPolicy := hk
          simp only [hk', if_true]
          omega
    · simpa [hs] using h

theorem accessIs_foldl
    (htypes : typed → ∀ p g, policyGrants rdm p = some g → g.policyType = .dialPolicy ∨ g.policyType = .bindPolicy)
    (s : Id) (policyIds : List Id) {services : IdTable ServiceAccess} {dial bind : Nat}
    (h : AccessIs typed (services.lookup s) dial bind) :
    AccessIs typed ((policyIds.foldl (addPolicyAccess rdm) services).lookup s)
      (dial + (policyIds.filter (fun p => (policyGrants rdm p).any (allows .dialPolicy s))).length)
      (bind + (policyIds.filter (fun p => (policyGrants rdm p).any (allows .bindPolicy s))).length) := by
  induction policyIds generalizing services dial bind with
  | nil => exact h
  | cons p policyIds ih =>
    have hstep := ih (accessIs_addPolicyAccess (fun ht => htypes ht p) h)
    have hcomm : ∀ a b c : Nat, a + b + c = a + (c + b) := by omega
    rw [hcomm, hcomm] at hstep
    rw [length_filter_cons, length_filter_cons]
    exact hstep

/-- The access list built when tracking starts has the right counts. -/
theorem accessIs_buildServiceAccessList
    (htypes : typed → ∀ p g, policyGrants rdm p = some g → g.policyType = .dialPolicy ∨ g.policyType = .bindPolicy)
    : AccessIs typed ((buildServiceAccessList rdm identity).lookup s)
      (tally (policyGrants rdm) identity.servicePolicies (allows .dialPolicy s))
      (tally (policyGrants rdm) identity.servicePolicies (allows .bindPolicy s)) := by
  have hstart : AccessIs typed ((∅ : IdTable ServiceAccess).lookup s) 0 0 :=
    ⟨by simp, by simp, fun _ a ha => by simp at ha⟩
  have hfold := accessIs_foldl htypes s identity.servicePolicies.keys hstart
  rw [Nat.zero_add, zero_add] at hfold
  exact hfold

end Zt.ServiceLists
