import Mathlib.Data.List.Nodup
import Zt.PostureChecks
import Zt.RouterContents

namespace Zt.PostureAccess

open Tables Trials EdgeCtrl RouterModel RouterHandlers RouterContents PostureChecks
open Option (map_eq_some_iff bind_eq_some_iff any_eq_true)
open AList (mem_insert mem_keys)

/-- The orders in which maps are iterated, which no map promises. -/
structure Orders where
  policies : List Id → List Id
  collected : Id → List Id → List Id
  evaluated : Id → List Id → List Id
  policies_perm : ∀ ids, (policies ids).Perm ids
  collected_perm : ∀ p ids, (collected p ids).Perm ids
  evaluated_perm : ∀ p ids, (evaluated p ids).Perm ids

structure AccessPolicies where
  identity : Identity
  service : Service
  policies : List ServicePolicy
  postureChecks : IdTable DataStatePostureCheck

/-- A check that is not in the model is dereferenced all the same. -/
def collectCheck (rdm : RouterDataModel) (postureChecks : IdTable DataStatePostureCheck) (postureCheckId : Id) :
    Option (IdTable DataStatePostureCheck) :=
  if postureCheckId ∈ postureChecks then some postureChecks
  else (rdm.postureChecks.lookup postureCheckId).map (fun check => postureChecks.insert postureCheckId check.data)

def collectPolicy (orders : Orders) (rdm : RouterDataModel) (policyType : PolicyType)
    (found : List ServicePolicy × IdTable DataStatePostureCheck) (servicePolicyId : Id) :
    Option (List ServicePolicy × IdTable DataStatePostureCheck) :=
  match rdm.servicePolicies.lookup servicePolicyId with
  | none => some found
  | some policy =>
    if policy.policyType = policyType then
      ((orders.collected servicePolicyId policy.postureChecks.keys).foldlM (collectCheck rdm) found.2).map
        (fun postureChecks => (found.1 ++ [policy], postureChecks))
    else some found

def getServiceAccessPolicies (orders : Orders) (rdm : RouterDataModel) (identityId serviceId : Id)
    (policyType : PolicyType) : Option (Except String AccessPolicies) :=
  match rdm.identities.lookup identityId with
  | none => some (.error "identity not found by id")
  | some identity =>
    match rdm.services.lookup serviceId with
    | none => some (.error "service not found by id")
    | some service =>
      ((orders.policies identity.servicePolicies.keys).foldlM (collectPolicy orders rdm policyType) ([], ∅)).map
        (fun found => .ok ⟨identity, service, found.1, found.2⟩)

inductive PostureError
  | message (text : String)
  | check (err : CheckError)

structure PolicyAccessError where
  id : Id
  name : String
  errors : List PostureError

inductive AccessError
  | message (text : String)
  | noPolicies
  | policies (errs : List PolicyAccessError)

variable (platform : Platform)

def evaluateCheck (postureChecks : IdTable DataStatePostureCheck) :
    Test (Option InstanceData) Id PostureError := fun postureCheckId data =>
  match postureChecks.lookup postureCheckId with
  | none => some (some (.message ("posture check id " ++ postureCheckId ++ " not found model")), data)
  | some postureCheck =>
    (evaluatePostureCheck platform postureCheck data).map (fun r => (r.1.map PostureError.check, r.2))

def isPassing (orders : Orders) (accessPolicies : AccessPolicies) (data : Option InstanceData) :
    Option (Except (List PolicyAccessError) ServicePolicy × Option InstanceData) :=
  (firstPassing (evaluateCheck platform accessPolicies.postureChecks)
    (fun policy => orders.evaluated policy.id policy.postureChecks.keys) accessPolicies.policies data).map (fun r =>
      (r.1.mapError (fun errs => errs.map (fun e => ⟨e.1.id, e.1.name, e.2⟩)), r.2))

/-- None is a panic. The data is returned because a check may change it. -/
def hasAccess (orders : Orders) (rdm : RouterDataModel) (identityId serviceId : Id)
    (policyType : PolicyType) (data : Option InstanceData) :
    Option (Except AccessError ServicePolicy × Option InstanceData) :=
  match getServiceAccessPolicies orders rdm identityId serviceId policyType with
  | none => none
  | some (.error err) => some (.error (.message err), data)
  | some (.ok accessPolicies) =>
    if accessPolicies.policies.isEmpty then some (.error .noPolicies, data)
    else
      match isPassing platform orders accessPolicies data with
      | none => none
      | some (.error [], _) => none
      | some (.error errs, data) => some (.error (.policies errs), data)
      | some (.ok grantingPolicy, data) => some (.ok grantingPolicy, data)

variable (rdm : RouterDataModel)

def EveryCheck (P : DataStatePostureCheck → Prop) (policy : ServicePolicy) : Prop :=
  ∀ c ∈ policy.postureChecks, ∃ check, rdm.postureChecks.lookup c = some check ∧ P check.data

/-- The policy lets the identity have the service with this data. -/
structure Grants (identityId serviceId : Id) (policyType : PolicyType)
    (data : Option InstanceData) (policy : ServicePolicy) : Prop where
  identity : ∃ identity, rdm.identities.lookup identityId = some identity ∧ policy.id ∈ identity.servicePolicies
  service : serviceId ∈ rdm.services
  stored : rdm.servicePolicies.lookup policy.id = some policy
  type : policy.policyType = policyType
  covers : serviceId ∈ policy.services
  checks : EveryCheck rdm (Passes (evaluatePostureCheck platform) data) policy

/-- Only a policy that grants access is returned, and one is if there is one. -/
def Authorises (orders : Orders) (rdm : RouterDataModel) (identityId serviceId : Id)
    (policyType : PolicyType) (data : Option InstanceData) : Prop :=
  (∀ policy data', hasAccess platform orders rdm identityId serviceId policyType data = some (.ok policy, data') →
    Grants platform rdm identityId serviceId policyType data policy) ∧
  ((∃ policy, Grants platform rdm identityId serviceId policyType data policy) →
    ∃ policy data', hasAccess platform orders rdm identityId serviceId policyType data = some (.ok policy, data') ∧
      Grants platform rdm identityId serviceId policyType data policy)

def candidate (policyType : PolicyType) (servicePolicyId : Id) : Option ServicePolicy :=
  (rdm.servicePolicies.lookup servicePolicyId).filter (fun policy => decide (policy.policyType = policyType))

/-- The policies of the identity that have the type, whatever their services. -/
def candidates (identityId : Id) (policyType : PolicyType) : List ServicePolicy :=
  match rdm.identities.lookup identityId with
  | none => []
  | some identity => identity.servicePolicies.keys.filterMap (candidate rdm policyType)

def fill (data : Option InstanceData) : Option InstanceData := data.map fillProcessList

/-- What the decision relies on: a candidate whose checks pass has the service,
none passes only because the checks of another have filled in the process list,
and where one of them grants access the checks of all of them can be evaluated. -/
structure Clear (identityId serviceId : Id) (policyType : PolicyType)
    (data : Option InstanceData) : Prop where
  covers : (∀ p ∈ candidates rdm identityId policyType, EveryCheck rdm (fun _ => True) p) →
    ∀ p ∈ candidates rdm identityId policyType, EveryCheck rdm (Passes (evaluatePostureCheck platform) data) p →
      serviceId ∈ p.services
  unfilled : (∀ p ∈ candidates rdm identityId policyType, EveryCheck rdm (fun _ => True) p) →
    ∀ p ∈ candidates rdm identityId policyType,
      EveryCheck rdm (Passes (evaluatePostureCheck platform) (fill data)) p →
      EveryCheck rdm (Passes (evaluatePostureCheck platform) data) p ∨
      ∀ q ∈ candidates rdm identityId policyType, q ≠ p →
        EveryCheck rdm (Answers (evaluatePostureCheck platform) (fill data)) q →
        EveryCheck rdm (fun check => ¬ Moves (evaluatePostureCheck platform) fill data check) q
  answers : ∀ g ∈ candidates rdm identityId policyType, serviceId ∈ g.services →
    EveryCheck rdm (Passes (evaluatePostureCheck platform) data) g →
    ∀ p ∈ candidates rdm identityId policyType, EveryCheck rdm (Answers (evaluatePostureCheck platform) data) p

variable {c id : Id} {ids : List Id} {check : DataStatePostureCheck} {accessPolicies : AccessPolicies}

section Collecting

variable {rdm : RouterDataModel} {orders : Orders} {policyType : PolicyType}
  {checks checks' : IdTable DataStatePostureCheck} {policy : ServicePolicy}

def Agrees (rdm : RouterDataModel) (checks : IdTable DataStatePostureCheck) : Prop :=
  ∀ c check, checks.lookup c = some check → (rdm.postureChecks.lookup c).map (·.data) = some check

theorem Agrees.known (h : Agrees rdm checks) (hc : c ∈ checks) :
    ∃ check, rdm.postureChecks.lookup c = some check ∧ checks.lookup c = some check.data := by
  obtain ⟨data, hlook⟩ := mem_iff_lookup.mp hc
  obtain ⟨check, hcheck, rfl⟩ := map_eq_some_iff.mp (h c data hlook)
  exact ⟨check, hcheck, hlook⟩

theorem collectCheck_spec (h : Agrees rdm checks) (hs : collectCheck rdm checks c = some checks') :
    Agrees rdm checks' ∧ (∀ c' ∈ checks, c' ∈ checks') ∧ c ∈ checks' := by
  unfold collectCheck at hs
  split at hs
  · rename_i hc
    cases hs
    exact ⟨h, fun _ hc' => hc', hc⟩
  · obtain ⟨check, hcheck, rfl⟩ := map_eq_some_iff.mp hs
    refine ⟨forall_insert h (by rw [hcheck]; rfl), fun c' hc' => ?_, ?_⟩
    · exact mem_insert _ |>.mpr (.inr hc')
    · exact mem_insert _ |>.mpr (.inl rfl)

theorem collectChecks_spec (h : Agrees rdm checks) (hs : ids.foldlM (collectCheck rdm) checks = some checks') :
    Agrees rdm checks' ∧ (∀ c ∈ checks, c ∈ checks') ∧ ∀ c ∈ ids, c ∈ checks' := by
  induction ids generalizing checks with
  | nil =>
    cases hs
    exact ⟨h, fun _ hc => hc, fun _ hc => absurd hc List.not_mem_nil⟩
  | cons c ids ih =>
    obtain ⟨checks₁, hfirst, hrest⟩ := bind_eq_some_iff.mp hs
    obtain ⟨h₁, hkept₁, hc⟩ := collectCheck_spec h hfirst
    obtain ⟨h', hkept, hids⟩ := ih h₁ hrest
    exact ⟨h', fun c' hc' => hkept c' (hkept₁ c' hc'), List.forall_mem_cons.mpr ⟨hkept c hc, hids⟩⟩

theorem collectChecks_returns (hk : ∀ c ∈ ids, c ∈ rdm.postureChecks)
    (checks : IdTable DataStatePostureCheck) : ∃ checks', ids.foldlM (collectCheck rdm) checks = some checks' := by
  induction ids generalizing checks with
  | nil => exact ⟨checks, rfl⟩
  | cons c ids ih =>
    obtain ⟨hc, hids⟩ := List.forall_mem_cons.mp hk
    have hfirst : ∃ checks₁, collectCheck rdm checks c = some checks₁ := by
      unfold collectCheck
      split
      · exact ⟨checks, rfl⟩
      · obtain ⟨check, hcheck⟩ := mem_iff_lookup.mp hc
        exact ⟨_, map_eq_some_iff.mpr ⟨check, hcheck, rfl⟩⟩
    obtain ⟨checks₁, hfirst⟩ := hfirst
    obtain ⟨checks', hrest⟩ := ih hids checks₁
    exact ⟨checks', by rw [List.foldlM_cons, hfirst]; exact hrest⟩

theorem candidate_eq_some : candidate rdm policyType id = some policy ↔
    rdm.servicePolicies.lookup id = some policy ∧ policy.policyType = policyType := by
  rw [candidate, Option.filter_eq_some_iff, decide_eq_true_eq]

theorem collectPolicy_none (h : candidate rdm policyType id = none)
    (found : List ServicePolicy × IdTable DataStatePostureCheck) :
    collectPolicy orders rdm policyType found id = some found := by
  unfold collectPolicy
  cases hp : rdm.servicePolicies.lookup id with
  | none => rfl
  | some policy =>
    have htype : policy.policyType ≠ policyType := by
      intro ht
      rw [candidate_eq_some.mpr ⟨hp, ht⟩] at h
      cases h
    simp [htype]

theorem collectPolicy_some (h : candidate rdm policyType id = some policy)
    (found : List ServicePolicy × IdTable DataStatePostureCheck) :
    collectPolicy orders rdm policyType found id =
      ((orders.collected id policy.postureChecks.keys).foldlM (collectCheck rdm) found.2).map
        (fun checks => (found.1 ++ [policy], checks)) := by
  obtain ⟨hp, htype⟩ := candidate_eq_some.mp h
  simp [collectPolicy, hp, htype]

/-- What is collected are the candidates, with a check for each id they list. -/
theorem collectPolicies_spec {policies policies' : List ServicePolicy} (h : Agrees rdm checks)
    (hs : ids.foldlM (collectPolicy orders rdm policyType) (policies, checks) = some (policies', checks')) :
    policies' = policies ++ ids.filterMap (candidate rdm policyType) ∧ Agrees rdm checks' ∧
      (∀ c ∈ checks, c ∈ checks') ∧
      ∀ policy ∈ ids.filterMap (candidate rdm policyType), ∀ c ∈ policy.postureChecks, c ∈ checks' := by
  induction ids generalizing policies checks with
  | nil =>
    cases hs
    exact ⟨(List.append_nil _).symm, h, fun _ hc => hc, fun _ hp => absurd hp List.not_mem_nil⟩
  | cons id ids ih =>
    obtain ⟨found, hfirst, hrest⟩ := bind_eq_some_iff.mp hs
    cases hc : candidate rdm policyType id with
    | none =>
      rw [collectPolicy_none hc] at hfirst
      cases hfirst
      rw [List.filterMap_cons_none hc]
      exact ih h hrest
    | some policy =>
      rw [collectPolicy_some hc] at hfirst
      obtain ⟨checks₁, hchecks, rfl⟩ := map_eq_some_iff.mp hfirst
      obtain ⟨h₁, hkept₁, hids⟩ := collectChecks_spec h hchecks
      obtain ⟨hpols, h', hkept, hall⟩ := ih h₁ hrest
      rw [List.filterMap_cons_some hc]
      refine ⟨by rw [hpols]; simp, h', fun c hc' => hkept c (hkept₁ c hc'),
        List.forall_mem_cons.mpr ⟨fun c hc' => hkept c (hids c ?_), hall⟩⟩
      exact (orders.collected_perm id _).mem_iff.mpr (mem_keys.mp hc')

theorem collectPolicies_returns
    (hk : ∀ policy ∈ ids.filterMap (candidate rdm policyType), ∀ c ∈ policy.postureChecks, c ∈ rdm.postureChecks)
    (found : List ServicePolicy × IdTable DataStatePostureCheck) :
    ∃ found', ids.foldlM (collectPolicy orders rdm policyType) found = some found' := by
  induction ids generalizing found with
  | nil => exact ⟨found, rfl⟩
  | cons id ids ih =>
    rw [List.foldlM_cons]
    cases hc : candidate rdm policyType id with
    | none =>
      rw [List.filterMap_cons_none hc] at hk
      obtain ⟨found', hrest⟩ := ih hk found
      exact ⟨found', by rw [collectPolicy_none hc]; exact hrest⟩
    | some policy =>
      rw [List.filterMap_cons_some hc] at hk
      obtain ⟨hpol, hids⟩ := List.forall_mem_cons.mp hk
      obtain ⟨checks', hchecks⟩ := collectChecks_returns
        (fun c hc' => hpol c (mem_keys.mpr ((orders.collected_perm id _).mem_iff.mp hc'))) found.2
      obtain ⟨found', hrest⟩ := ih hids (found.1 ++ [policy], checks')
      exact ⟨found', by rw [collectPolicy_some hc, hchecks]; exact hrest⟩

end Collecting

section Deciding

variable {platform : Platform} {orders : Orders} {rdm : RouterDataModel} {identityId serviceId : Id}
  {policyType : PolicyType} {data data' : Option InstanceData} {policy q : ServicePolicy}
  {checks : IdTable DataStatePostureCheck} {identity : Identity} {service : Service}

theorem settling_evaluateCheck (platform : Platform) (checks : IdTable DataStatePostureCheck) :
    Settling (evaluateCheck platform checks) fill := by
  have hfill : ∀ data, fill (fill data) = fill data := fun data => by cases data <;> rfl
  refine ⟨hfill, ?_, ?_, ?_⟩
  · intro c s e s' h
    unfold evaluateCheck at h
    cases hc : checks.lookup c with
    | none =>
      simp only [hc, Option.some.injEq, Prod.mk.injEq] at h
      exact .inl h.2.symm
    | some check =>
      simp only [hc] at h
      obtain ⟨⟨err, s₁⟩, heval, heq⟩ := map_eq_some_iff.mp h
      cases heq
      exact evaluated_evaluatePostureCheck.moves heval
  · intro c s e s' h
    unfold evaluateCheck at h ⊢
    cases hc : checks.lookup c with
    | none =>
      simp only [hc, Option.some.injEq, Prod.mk.injEq] at h
      exact ⟨e, by simp [h.1], .rfl⟩
    | some check =>
      simp only [hc] at h
      obtain ⟨⟨err, s₁⟩, heval, heq⟩ := map_eq_some_iff.mp h
      cases heq
      have hagain := evaluated_evaluatePostureCheck.again heval
      exact ⟨_, map_eq_some_iff.mpr ⟨_, hagain, rfl⟩, .rfl⟩
  · intro c s s' h
    unfold evaluateCheck at h
    cases hc : checks.lookup c with
    | none => simp [hc] at h
    | some check =>
      simp only [hc] at h
      obtain ⟨⟨err, s₁⟩, heval, heq⟩ := map_eq_some_iff.mp h
      obtain ⟨hnone, rfl⟩ := Prod.mk.inj heq
      have herr : err = none := Option.map_eq_none_iff.mp hnone
      subst herr
      exact evaluated_evaluatePostureCheck.passed heval

section

variable (h : checks.lookup c = some check)
include h

theorem evaluateCheck_known (data : Option InstanceData) : evaluateCheck platform checks c data =
    (evaluatePostureCheck platform check data).map (fun r => (r.1.map PostureError.check, r.2)) := by
  simp [evaluateCheck, h]

theorem passes_known :
    Passes (evaluateCheck platform checks) data c ↔ Passes (evaluatePostureCheck platform) data check := by
  simp only [Passes, evaluateCheck_known h, map_eq_some_iff, Prod.exists, Prod.mk.injEq, Option.map_eq_none_iff]
  constructor
  · rintro ⟨_, -, s', heval, rfl, rfl⟩
    exact ⟨s', heval⟩
  · rintro ⟨s', heval⟩
    exact ⟨s', none, s', heval, rfl, rfl⟩

theorem answers_known :
    Answers (evaluateCheck platform checks) data c ↔ Answers (evaluatePostureCheck platform) data check := by
  simp only [Answers, evaluateCheck_known h, map_eq_some_iff, Prod.exists, Prod.mk.injEq]
  constructor
  · rintro ⟨_, _, err, s', heval, -⟩
    exact ⟨err, s', heval⟩
  · rintro ⟨err, s', heval⟩
    exact ⟨_, _, err, s', heval, rfl, rfl⟩

theorem moves_known :
    Moves (evaluateCheck platform checks) fill data c ↔ Moves (evaluatePostureCheck platform) fill data check := by
  simp only [Moves, evaluateCheck_known h, map_eq_some_iff, Prod.exists, Prod.mk.injEq]
  refine and_congr_right (fun _ => ?_)
  constructor
  · rintro ⟨_, err, -, heval, -, rfl⟩
    exact ⟨err, heval⟩
  · rintro ⟨err, heval⟩
    exact ⟨_, err, _, heval, rfl, rfl⟩

end

/-- The collected checks are those of the model. -/
def Collected (rdm : RouterDataModel) (checks : IdTable DataStatePostureCheck) (policy : ServicePolicy) : Prop :=
  ∀ c ∈ policy.postureChecks, ∃ check, rdm.postureChecks.lookup c = some check ∧ checks.lookup c = some check.data

def testsOf (orders : Orders) (policy : ServicePolicy) : List Id :=
  orders.evaluated policy.id policy.postureChecks.keys

theorem mem_testsOf : c ∈ testsOf orders policy ↔ c ∈ policy.postureChecks := by
  rw [testsOf, (orders.evaluated_perm _ _).mem_iff, mem_keys]

theorem everyCheck_iff (orders : Orders) {P : DataStatePostureCheck → Prop} {Q : Id → Prop}
    (hc : Collected rdm checks policy) (hPQ : ∀ {c check}, checks.lookup c = some check → (Q c ↔ P check)) :
    (∀ c ∈ testsOf orders policy, Q c) ↔ EveryCheck rdm P policy := by
  constructor
  · intro h c hmem
    obtain ⟨check, hcheck, hlook⟩ := hc c hmem
    exact ⟨check, hcheck, (hPQ hlook).mp (h c (mem_testsOf.mpr hmem))⟩
  · intro h c hmem
    obtain ⟨check, hcheck, hlook⟩ := hc c (mem_testsOf.mp hmem)
    obtain ⟨check', hcheck', hP⟩ := h c (mem_testsOf.mp hmem)
    rw [hcheck] at hcheck'
    cases hcheck'
    exact (hPQ hlook).mpr hP

theorem isPassing_ok_iff : isPassing platform orders accessPolicies data = some (.ok policy, data') ↔
    firstPassing (evaluateCheck platform accessPolicies.postureChecks) (testsOf orders) accessPolicies.policies data =
      some (.ok policy, data') := by
  change (firstPassing _ (testsOf orders) _ _).map _ = _ ↔ _
  cases firstPassing (evaluateCheck platform accessPolicies.postureChecks) (testsOf orders) accessPolicies.policies
      data with
  | none => simp
  | some r =>
    obtain ⟨res, d⟩ := r
    cases res <;> simp [Except.mapError]

theorem hasAccess_ok_iff
    (h : getServiceAccessPolicies orders rdm identityId serviceId policyType = some (.ok accessPolicies)) :
    hasAccess platform orders rdm identityId serviceId policyType data = some (.ok policy, data') ↔
      firstPassing (evaluateCheck platform accessPolicies.postureChecks) (testsOf orders) accessPolicies.policies data =
        some (.ok policy, data') := by
  rw [← isPassing_ok_iff]
  unfold hasAccess
  simp only [h]
  by_cases hempty : accessPolicies.policies = []
  · simp [isPassing, hempty, firstPassing, Except.mapError]
  · rw [if_neg (by simpa using hempty)]
    cases isPassing platform orders accessPolicies data with
    | none => simp
    | some r =>
      obtain ⟨res, d⟩ := r
      cases res with
      | ok g => simp
      | error errs => cases errs <;> simp

def foundPolicies (orders : Orders) (rdm : RouterDataModel) (policyType : PolicyType) (identity : Identity) :
    List ServicePolicy :=
  (orders.policies identity.servicePolicies.keys).filterMap (candidate rdm policyType)

theorem mem_foundPolicies (hi : rdm.identities.lookup identityId = some identity) :
    policy ∈ foundPolicies orders rdm policyType identity ↔ policy ∈ candidates rdm identityId policyType := by
  simp [foundPolicies, candidates, hi, (orders.policies_perm _).mem_iff]

/-- A panic while collecting, or the first of the found policies that passes. -/
theorem hasAccess_cases (hi : rdm.identities.lookup identityId = some identity)
    (hs : rdm.services.lookup serviceId = some service) :
    (hasAccess platform orders rdm identityId serviceId policyType data = none ∧
      ¬ ∀ p ∈ candidates rdm identityId policyType, EveryCheck rdm (fun _ => True) p) ∨
    ∃ checks, (∀ p ∈ candidates rdm identityId policyType, Collected rdm checks p) ∧ ∀ policy data',
      hasAccess platform orders rdm identityId serviceId policyType data = some (.ok policy, data') ↔
        firstPassing (evaluateCheck platform checks) (testsOf orders) (foundPolicies orders rdm policyType identity)
          data = some (.ok policy, data') := by
  cases hf : (orders.policies identity.servicePolicies.keys).foldlM (collectPolicy orders rdm policyType) ([], ∅) with
  | none =>
    refine .inl ⟨by simp [hasAccess, getServiceAccessPolicies, hi, hs, hf], fun hall => ?_⟩
    have hknown : ∀ policy ∈ foundPolicies orders rdm policyType identity, ∀ c ∈ policy.postureChecks,
        c ∈ rdm.postureChecks := by
      intro policy hp c hc
      obtain ⟨check, hcheck, -⟩ := hall policy ((mem_foundPolicies hi).mp hp) c hc
      exact mem_of_lookup hcheck
    obtain ⟨found, hfound⟩ := collectPolicies_returns hknown ([], ∅)
    rw [hf] at hfound
    cases hfound
  | some found =>
    obtain ⟨policies, checks⟩ := found
    have hempty : Agrees rdm ∅ := fun c check hlook => by simp at hlook
    obtain ⟨hpols, hagrees, -, hall⟩ := collectPolicies_spec hempty hf
    subst hpols
    have hget : getServiceAccessPolicies orders rdm identityId serviceId policyType =
        some (.ok ⟨identity, service, foundPolicies orders rdm policyType identity, checks⟩) := by
      simp only [getServiceAccessPolicies, hi, hs, hf]
      rfl
    refine .inr ⟨checks, fun p hp c hc => ?_, fun policy data' => hasAccess_ok_iff hget⟩
    exact hagrees.known (hall p ((mem_foundPolicies hi).mpr hp) c hc)

section

variable (hk : Keyed (contents rdm))
include hk

theorem mem_candidates : policy ∈ candidates rdm identityId policyType ↔
    (∃ identity, rdm.identities.lookup identityId = some identity ∧ policy.id ∈ identity.servicePolicies) ∧
      rdm.servicePolicies.lookup policy.id = some policy ∧ policy.policyType = policyType := by
  unfold candidates
  cases hi : rdm.identities.lookup identityId with
  | none => simp
  | some identity =>
    simp only [List.mem_filterMap, Option.some.injEq, exists_eq_left', candidate_eq_some]
    constructor
    · rintro ⟨id, hid, hp, htype⟩
      have hname : policy.id = id := hk.policy id policy.toProtobuf (by simp [contents, hp])
      subst hname
      exact ⟨hid, hp, htype⟩
    · rintro ⟨hid, hp, htype⟩
      exact ⟨policy.id, hid, hp, htype⟩

theorem grants_iff : Grants platform rdm identityId serviceId policyType data policy ↔
    serviceId ∈ rdm.services ∧ policy ∈ candidates rdm identityId policyType ∧ serviceId ∈ policy.services ∧
      EveryCheck rdm (Passes (evaluatePostureCheck platform) data) policy := by
  rw [mem_candidates hk]
  constructor
  · rintro ⟨hid, hs, hp, htype, hcovers, hchecks⟩
    exact ⟨hs, ⟨hid, hp, htype⟩, hcovers, hchecks⟩
  · rintro ⟨hs, ⟨hid, hp, htype⟩, hcovers, hchecks⟩
    exact ⟨hid, hs, hp, htype, hcovers, hchecks⟩

theorem nodup_foundPolicies : (foundPolicies orders rdm policyType identity).Nodup := by
  have hkeys : (orders.policies identity.servicePolicies.keys).Nodup :=
    (orders.policies_perm _).nodup_iff.mpr (AList.keys_nodup _)
  apply hkeys.filterMap
  intro a b policy ha hb
  obtain ⟨hpa, -⟩ := candidate_eq_some.mp ha
  obtain ⟨hpb, -⟩ := candidate_eq_some.mp hb
  have hna : policy.id = a := hk.policy a policy.toProtobuf (by simp [contents, hpa])
  have hnb : policy.id = b := hk.policy b policy.toProtobuf (by simp [contents, hpb])
  exact hna.symm.trans hnb

omit hk in
theorem EveryCheck.mono {P Q : DataStatePostureCheck → Prop} (h : EveryCheck rdm P policy)
    (hPQ : ∀ check, P check → Q check) : EveryCheck rdm Q policy := by
  intro c hc
  obtain ⟨check, hcheck, hP⟩ := h c hc
  exact ⟨check, hcheck, hPQ _ hP⟩

/-- Under the condition the decision is right in every order. -/
theorem authorises_of_clear
    (hi : rdm.identities.lookup identityId = some identity) (hs : rdm.services.lookup serviceId = some service)
    (h : Clear platform rdm identityId serviceId policyType data) :
    Authorises platform orders rdm identityId serviceId policyType data := by
  have hsettling := settling_evaluateCheck platform
  have hsound : ∀ policy data',
      hasAccess platform orders rdm identityId serviceId policyType data = some (.ok policy, data') →
        Grants platform rdm identityId serviceId policyType data policy := by
    intro policy data' hok
    rcases hasAccess_cases hi hs with ⟨hnone, -⟩ | ⟨checks, hcoll, hiff⟩
    · rw [hnone] at hok
      cases hok
    · have hcompl : ∀ p ∈ candidates rdm identityId policyType, EveryCheck rdm (fun _ => True) p := by
        intro p hp c hc
        obtain ⟨check, hcheck, -⟩ := hcoll p hp c hc
        exact ⟨check, hcheck, trivial⟩
      obtain ⟨hmem, hcase⟩ := (hsettling checks).firstPassing_sound (nodup_foundPolicies hk)
        ((hiff policy data').mp hok)
      have hp := (mem_foundPolicies hi).mp hmem
      have hpass : EveryCheck rdm (Passes (evaluatePostureCheck platform) data) policy := by
        rcases hcase with hpass | ⟨hpass, q, hq, hne, hans, c, hc, hmoves⟩
        · exact (everyCheck_iff orders (hcoll policy hp) passes_known).mp hpass
        · -- another policy would have filled in the process list
          have hq' := (mem_foundPolicies hi).mp hq
          have hfilled := (everyCheck_iff orders (hcoll policy hp) passes_known).mp hpass
          rcases h.unfilled hcompl policy hp hfilled with hpass' | hno
          · exact hpass'
          · have hstill := hno q hq' hne ((everyCheck_iff orders (hcoll q hq') answers_known).mp hans)
            have hall := (everyCheck_iff orders (hcoll q hq')
              (fun hlook => not_congr (moves_known hlook))).mpr hstill
            exact absurd hmoves (hall c hc)
      exact (grants_iff hk).mpr ⟨mem_of_lookup hs, hp, h.covers hcompl policy hp hpass, hpass⟩
  refine ⟨hsound, fun ⟨g, hg⟩ => ?_⟩
  obtain ⟨-, hgmem, hgcovers, hgpass⟩ := (grants_iff hk).mp hg
  have hanswers := h.answers g hgmem hgcovers hgpass
  rcases hasAccess_cases hi hs with ⟨-, hmissing⟩ | ⟨checks, hcoll, hiff⟩
  · exact absurd (fun p hp => (hanswers p hp).mono (fun _ _ => trivial)) hmissing
  · obtain ⟨policy, data', hfound⟩ := (hsettling checks).firstPassing_complete
      (fun p hp => (everyCheck_iff orders (hcoll p ((mem_foundPolicies hi).mp hp)) answers_known).mpr
        (hanswers p ((mem_foundPolicies hi).mp hp)))
      ⟨g, (mem_foundPolicies hi).mpr hgmem, (everyCheck_iff orders (hcoll g hgmem) passes_known).mpr hgpass⟩
    have hok := (hiff policy data').mpr hfound
    exact ⟨policy, data', hok, hsound policy data' hok⟩

end

/-- Move an id to the front. -/
def front (x : Id) (ids : List Id) : List Id := if x ∈ ids then x :: ids.erase x else ids

theorem front_of_mem {x : Id} (h : x ∈ ids) : front x ids = x :: ids.erase x := if_pos h

theorem front_perm {x : Id} : (front x ids).Perm ids := by
  unfold front
  split
  · rename_i h
    exact (List.perm_cons_erase h).symm
  · exact List.Perm.refl ids

/-- Two policies first, and in each policy one check first. -/
def frontOrders (first second check : Id) : Orders where
  policies ids := front first (front second ids)
  collected _ ids := ids
  evaluated _ ids := front check ids
  policies_perm _ := front_perm.trans front_perm
  collected_perm _ := List.Perm.refl
  evaluated_perm _ _ := front_perm

theorem testsOf_front {first second : Id} (hc : c ∈ policy.postureChecks) :
    testsOf (frontOrders first second c) policy = c :: policy.postureChecks.keys.erase c :=
  front_of_mem (mem_keys.mp hc)

section

variable {service : Service} (hk : Keyed (contents rdm)) (hi : rdm.identities.lookup identityId = some identity)
  (hp : policy ∈ candidates rdm identityId policyType)
include hk hi hp

theorem mem_keys_of_candidate :
    policy.id ∈ identity.servicePolicies.keys ∧ candidate rdm policyType policy.id = some policy := by
  obtain ⟨⟨identity', hi', hid⟩, hstored, htype⟩ := (mem_candidates hk).mp hp
  rw [hi] at hi'
  cases hi'
  exact ⟨mem_keys.mp hid, candidate_eq_some.mpr ⟨hstored, htype⟩⟩

theorem foundPolicies_first {second check : Id} :
    ∃ rest, foundPolicies (frontOrders policy.id second check) rdm policyType identity = policy :: rest := by
  obtain ⟨hkey, hcand⟩ := mem_keys_of_candidate hk hi hp
  have hids : (frontOrders policy.id second check).policies identity.servicePolicies.keys =
      policy.id :: (front second identity.servicePolicies.keys).erase policy.id :=
    front_of_mem (front_perm.mem_iff.mpr hkey)
  exact ⟨_, by rw [foundPolicies, hids, List.filterMap_cons_some hcand]⟩

theorem foundPolicies_second (hq : q ∈ candidates rdm identityId policyType) (hne : q ≠ policy) {check : Id} :
    ∃ rest, foundPolicies (frontOrders q.id policy.id check) rdm policyType identity = q :: policy :: rest := by
  obtain ⟨hkeyp, hcandp⟩ := mem_keys_of_candidate hk hi hp
  obtain ⟨hkeyq, hcandq⟩ := mem_keys_of_candidate hk hi hq
  have hids : policy.id ≠ q.id := by
    intro heq
    rw [heq, hcandq] at hcandp
    cases hcandp
    exact hne rfl
  have hlist : (frontOrders q.id policy.id check).policies identity.servicePolicies.keys =
      q.id :: policy.id :: (identity.servicePolicies.keys.erase policy.id).erase q.id := by
    have hfront : (frontOrders q.id policy.id check).policies identity.servicePolicies.keys =
        q.id :: (front policy.id identity.servicePolicies.keys).erase q.id :=
      front_of_mem (front_perm.mem_iff.mpr hkeyq)
    rw [hfront, front_of_mem hkeyp, List.erase_cons_tail (by simpa using hids)]
  exact ⟨_, by rw [foundPolicies, hlist, List.filterMap_cons_some hcandq, List.filterMap_cons_some hcandp]⟩

variable (hs : rdm.services.lookup serviceId = some service)
include hs

/-- A candidate that passes is returned if it comes first. -/
theorem returned_of_passes (hcompl : ∀ p ∈ candidates rdm identityId policyType, EveryCheck rdm (fun _ => True) p)
    (hpass : EveryCheck rdm (Passes (evaluatePostureCheck platform) data) policy) :
    ∃ orders data', hasAccess platform orders rdm identityId serviceId policyType data = some (.ok policy, data') := by
  obtain ⟨rest, hrest⟩ := foundPolicies_first hk hi hp
  refine ⟨frontOrders policy.id policy.id policy.id, data, ?_⟩
  rcases hasAccess_cases hi hs with ⟨-, hmissing⟩ | ⟨checks, hcoll, hiff⟩
  · exact absurd hcompl hmissing
  · rw [hiff, hrest]
    exact (settling_evaluateCheck platform checks).firstPassing_head
      ((everyCheck_iff _ (hcoll policy hp) passes_known).mpr hpass)

/-- A candidate that passes on the filled data is returned if it comes after
one whose first check fills it. -/
theorem returned_of_filled (hcompl : ∀ p ∈ candidates rdm identityId policyType, EveryCheck rdm (fun _ => True) p)
    (hpass : EveryCheck rdm (Passes (evaluatePostureCheck platform) (fill data)) policy)
    (hq : q ∈ candidates rdm identityId policyType) (hne : q ≠ policy)
    (hans : EveryCheck rdm (Answers (evaluatePostureCheck platform) (fill data)) q) (hc : c ∈ q.postureChecks)
    {check : PostureCheck} (hcheck : rdm.postureChecks.lookup c = some check)
    (hmoves : Moves (evaluatePostureCheck platform) fill data check.data) :
    ∃ orders data', hasAccess platform orders rdm identityId serviceId policyType data = some (.ok policy, data') := by
  obtain ⟨rest, hrest⟩ := foundPolicies_second hk hi hp hq hne
  refine ⟨frontOrders q.id policy.id c, fill data, ?_⟩
  rcases hasAccess_cases hi hs with ⟨-, hmissing⟩ | ⟨checks, hcoll, hiff⟩
  · exact absurd hcompl hmissing
  · obtain ⟨check', hcheck', hlook⟩ := hcoll q hq c hc
    rw [hcheck] at hcheck'
    cases hcheck'
    have hanswers := (everyCheck_iff (frontOrders q.id policy.id c) (hcoll q hq) answers_known).mpr hans
    rw [testsOf_front hc] at hanswers
    rw [hiff, hrest]
    exact (settling_evaluateCheck platform checks).firstPassing_moved (testsOf_front hc)
      ((moves_known hlook).mpr hmoves) (List.forall_mem_cons.mp hanswers).2
      ((everyCheck_iff _ (hcoll policy hp) passes_known).mpr hpass)

/-- A check that cannot be evaluated stops the decision if it comes first. -/
theorem stuck_of_unanswered
    (hans : ¬ EveryCheck rdm (Answers (evaluatePostureCheck platform) data) policy) : ∃ orders, ∀ p data',
      hasAccess platform orders rdm identityId serviceId policyType data ≠ some (.ok p, data') := by
  unfold EveryCheck at hans
  push Not at hans
  obtain ⟨c, hc, hno⟩ := hans
  obtain ⟨rest, hrest⟩ := foundPolicies_first hk hi hp
  refine ⟨frontOrders policy.id policy.id c, fun p data' hok => ?_⟩
  rcases hasAccess_cases hi hs with ⟨hnone, -⟩ | ⟨checks, hcoll, hiff⟩
  · rw [hnone] at hok
    cases hok
  · obtain ⟨check, hcheck, hlook⟩ := hcoll policy hp c hc
    rw [hiff, hrest, firstPassing_stuck (testsOf_front hc)
      (fun ha => hno check hcheck ((answers_known hlook).mp ha))] at hok
    cases hok

end

/-- A decision that is right in every order needs the condition. -/
theorem clear_of_authorises (hk : Keyed (contents rdm)) (hs : rdm.services.lookup serviceId = some service)
    (h : ∀ orders, Authorises platform orders rdm identityId serviceId policyType data) :
    Clear platform rdm identityId serviceId policyType data := by
  have hident : ∀ p ∈ candidates rdm identityId policyType,
      ∃ identity, rdm.identities.lookup identityId = some identity := by
    intro p hp
    obtain ⟨⟨identity, hi, -⟩, -⟩ := (mem_candidates hk).mp hp
    exact ⟨identity, hi⟩
  constructor
  · intro hcompl p hp hpass
    obtain ⟨identity, hi⟩ := hident p hp
    obtain ⟨orders, data', hok⟩ := returned_of_passes hk hi hp hs hcompl hpass
    exact ((h orders).1 p data' hok).covers
  · intro hcompl p hp hpass
    by_contra hboth
    push Not at hboth
    obtain ⟨hnot, q, hq, hne, hans, hmove⟩ := hboth
    obtain ⟨identity, hi⟩ := hident p hp
    have hmover : ∃ c ∈ q.postureChecks, ∃ check, rdm.postureChecks.lookup c = some check ∧
        Moves (evaluatePostureCheck platform) fill data check.data := by
      by_contra hno
      push Not at hno
      refine hmove (fun c hc => ?_)
      obtain ⟨check, hcheck, -⟩ := hcompl q hq c hc
      exact ⟨check, hcheck, hno c hc check hcheck⟩
    obtain ⟨c, hc, check, hcheck, hmoves⟩ := hmover
    obtain ⟨orders, data', hok⟩ := returned_of_filled hk hi hp hs hcompl hpass hq hne hans hc hcheck hmoves
    exact hnot ((h orders).1 p data' hok).checks
  · intro g hg hcovers hpass p hp
    by_contra hans
    obtain ⟨identity, hi⟩ := hident p hp
    obtain ⟨orders, hstuck⟩ := stuck_of_unanswered hk hi hp hs hans
    obtain ⟨q, data', hok, -⟩ := (h orders).2 ⟨g, (grants_iff hk).mpr ⟨mem_of_lookup hs, hg, hcovers, hpass⟩⟩
    exact hstuck q data' hok

/-- The authorisation decision is right, in whatever order the maps are
iterated, exactly if the candidates leave no doubt. -/
theorem has_access_right_iff (platform : Platform) {rdm : RouterDataModel} (hk : Keyed (contents rdm))
    (identityId serviceId : Id) (policyType : PolicyType) (data : Option InstanceData) :
    (∀ orders, Authorises platform orders rdm identityId serviceId policyType data) ↔
      (serviceId ∈ rdm.services → Clear platform rdm identityId serviceId policyType data) := by
  constructor
  · intro h hservice
    obtain ⟨service, hs⟩ := mem_iff_lookup.mp hservice
    exact clear_of_authorises hk hs h
  · intro h orders
    cases hi : rdm.identities.lookup identityId with
    | none =>
      refine ⟨fun policy data' hok => ?_, fun ⟨policy, hg⟩ => ?_⟩
      · simp [hasAccess, getServiceAccessPolicies, hi] at hok
      · obtain ⟨identity, hi', -⟩ := hg.identity
        rw [hi] at hi'
        cases hi'
    | some identity =>
      cases hs : rdm.services.lookup serviceId with
      | none =>
        refine ⟨fun policy data' hok => ?_, fun ⟨policy, hg⟩ => ?_⟩
        · simp [hasAccess, getServiceAccessPolicies, hi, hs] at hok
        · exact absurd hg.service (AList.lookup_eq_none.mp hs)
      | some service => exact authorises_of_clear hk hi hs (h (mem_of_lookup hs))

end Deciding

def plainPlatform : Platform where
  Version := Unit
  make _ := .ok ()
  parseRange _ := .ok (fun _ => true)
  toLower s := s
  equalFold a b := decide (a = b)
  now := 0
  checkedAt := 0
  timeString _ := ""
  durationString _ := ""

/-- One policy that gives an identity one of two services, in the office. -/
def officeEvents : List Event :=
  [ { model := .identity { id := "i" } }, { model := .service { id := "s" } },
    { model := .service { id := "other" } },
    { model := .postureCheck { id := "c", subtype := some (.domains ["office"]) } },
    { model := .servicePolicy { id := "p", policyType := .dialPolicy } },
    { model := .servicePolicyChange ⟨"p", ["i"], .relatedIdentity, true⟩ },
    { model := .servicePolicyChange ⟨"p", ["s"], .relatedService, true⟩ },
    { model := .servicePolicyChange ⟨"p", ["c"], .relatedPostureCheck, true⟩ } ]

def office : RouterDataModel :=
  (officeEvents.foldlM (handle 1) (newReceiverRouterDataModel "db" 0)).getD (newReceiverRouterDataModel "db" 0)

theorem keyed_foldlM (index : UInt64) (events : List Event) {rdm rdm' : RouterDataModel} (h : Keyed (contents rdm))
    (hs : events.foldlM (handle index) rdm = some rdm') : Keyed (contents rdm') := by
  induction events generalizing rdm with
  | nil =>
    cases hs
    exact h
  | cons event events ih =>
    obtain ⟨rdm₁, hfirst, hrest⟩ := bind_eq_some_iff.mp hs
    exact ih (keyed_handle h hfirst) hrest

theorem keyed_office : Keyed (contents office) :=
  keyed_foldlM 1 officeEvents keyed_new rfl

theorem clear_office : Clear plainPlatform office "i" "s" .dialPolicy (some { domain := some "office" }) := by
  have hcovers : ∀ p ∈ candidates office "i" .dialPolicy, "s" ∈ p.services := by decide
  have hans : ∀ p ∈ candidates office "i" .dialPolicy,
      EveryCheck office (Answers (evaluatePostureCheck plainPlatform) (some { domain := some "office" })) p := by
    have hall : ∀ p ∈ candidates office "i" .dialPolicy, ∀ c ∈ p.postureChecks.keys,
        (office.postureChecks.lookup c).any (fun check =>
          (evaluatePostureCheck plainPlatform check.data (some { domain := some "office" })).isSome) = true := by
      decide
    intro p hp c hc
    obtain ⟨check, hcheck, hsome⟩ := (any_eq_true _ _).mp (hall p hp c (mem_keys.mp hc))
    obtain ⟨r, hr⟩ := Option.isSome_iff_exists.mp hsome
    exact ⟨check, hcheck, r.1, r.2, hr⟩
  obtain ⟨only, honly⟩ : ∃ only, candidates office "i" .dialPolicy = [only] := List.length_eq_one_iff.mp (by decide)
  refine ⟨fun _ p hp _ => hcovers p hp, fun _ p hp _ => .inr (fun q hq hne => ?_), fun _ _ _ _ p hp => hans p hp⟩
  rw [honly, List.mem_singleton] at hp hq
  exact absurd (hq.trans hp.symm) hne

theorem has_access_right_in_office :
    Keyed (contents office) ∧ ∀ orders,
      Authorises plainPlatform orders office "i" "s" .dialPolicy (some { domain := some "office" }) :=
  ⟨keyed_office, (has_access_right_iff plainPlatform keyed_office "i" "s" .dialPolicy _).mpr (fun _ => clear_office)⟩

/-- The policy is returned for the service that it does not have. -/
theorem access_without_service : ∃ policy data',
    hasAccess plainPlatform (frontOrders "p" "p" "c") office "i" "other" .dialPolicy
        (some { domain := some "office" }) = some (.ok policy, data') ∧
      ¬ Grants plainPlatform office "i" "other" .dialPolicy (some { domain := some "office" }) policy := by
  have hrun : (hasAccess plainPlatform (frontOrders "p" "p" "c") office "i" "other" .dialPolicy
      (some { domain := some "office" })).any (fun r => r.1.toOption.any (fun policy =>
        !decide ("other" ∈ policy.services))) = true := by decide
  obtain ⟨⟨result, data'⟩, hr, hany⟩ := (any_eq_true _ _).mp hrun
  cases result with
  | error err => cases hany
  | ok policy =>
    have hno : "other" ∉ policy.services := by simpa [Except.toOption] using hany
    exact ⟨policy, data', hr, fun hg => hno hg.covers⟩

end Zt.PostureAccess
