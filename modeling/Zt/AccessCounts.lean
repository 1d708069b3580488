import Zt.Tally
import Zt.RouterEvents

namespace Zt.AccessCounts

open Tables Tally EdgeCtrl RouterModel RouterHandlers RouterView RouterGraph
open ServicePolicy (isDial isBind)

/-- What a policy gives to those it has. -/
structure Grants where
  policyType : PolicyType
  services : IdSet
  postureChecks : IdSet

def grantsOf (policy : ServicePolicy) : Grants := ⟨policy.policyType, policy.services, policy.postureChecks⟩

variable {s : Id} {add : Bool} {n n' dial bind : Nat} {access : Option ServiceAccess} {ids : List Id}
  {index : UInt64} {policy : ServicePolicy} {a : ServiceAccess}

namespace Grants

def allows (t : PolicyType) (s : Id) (g : Grants) : Bool := decide (g.policyType = t) && decide (s ∈ g.services)

theorem services_of_allows {t : PolicyType} {g : Grants} (h : g.allows t s = true) : s ∈ g.services := by
  simp only [allows, Bool.and_eq_true, decide_eq_true_eq] at h
  exact h.2

/-- A check of a policy counts only while the policy has services. -/
def requires (c : Id) (g : Grants) : Bool := !isEmpty g.services && decide (c ∈ g.postureChecks)

end Grants

open Grants (allows requires)

/-- The counts of an access entry; a missing entry counts nothing. If all
policies are of a known type then no entry is kept for nothing. -/
def AccessIs (typed : Prop) (access : Option ServiceAccess) (dial bind : Nat) : Prop :=
  (access.getD {}).dialPoliciesCount = dial ∧ (access.getD {}).bindPoliciesCount = bind ∧
    (typed → ∀ a, access = some a → a.hasAccess = true)

def useCount (n : Nat) : Option Int := if n = 0 then none else some n

def AccessCounted (typed : Prop) (vals : Id → Option Grants) (m : Membership) : Prop :=
  m.serviceAccessTrackingEnabled = true → ∀ s, AccessIs typed (m.serviceAccess.lookup s)
    (tally vals m.servicePolicies (allows .dialPolicy s))
    (tally vals m.servicePolicies (allows .bindPolicy s))

/-- The access of an identity agrees with one reading of what its policies give,
its checks with another. -/
structure CountedAs (typed : Prop) (given used : Id → Option Grants) (m : Membership) : Prop where
  access : AccessCounted typed given m
  uses : ∀ c, m.postureChecks.lookup c = useCount (tally used m.servicePolicies (requires c))

/-- The denormalised data of an identity agree with what its policies give. -/
abbrev Counted (typed : Prop) (vals : Id → Option Grants) (m : Membership) : Prop := CountedAs typed vals vals m

def bump (policy : ServicePolicy) (index : UInt64) (add : Bool) (access : Option ServiceAccess) :
    Option ServiceAccess :=
  let current := (access.getD {}).updateServicePolicies policy index add
  if current.hasAccess then some current else none

theorem lookup_updateServiceCount
    {access : IdTable ServiceAccess} {j : Id} : (updateServiceCount access policy s index add).lookup j =
      if j = s then bump policy index add (access.lookup j) else access.lookup j := by
  unfold updateServiceCount bump
  by_cases hj : j = s
  · subst hj
    simp only [if_true]
    split <;> simp
  · simp only [hj]
    split
    · exact AList.lookup_insert_ne hj
    · exact AList.lookup_erase_ne hj

/-- A count goes up or down by one where the condition holds. -/
def Moved (add : Bool) (here : Prop) [Decidable here] (n n' : Nat) : Prop :=
  n' + (if here ∧ add = false then 1 else 0) = n + if here ∧ add = true then 1 else 0

theorem counts_updateServicePolicies :
    (a.updateServicePolicies policy index add).dialPoliciesCount =
        a.dialPoliciesCount + (if policy.policyType = .dialPolicy then (if add then 1 else -1) else 0) ∧
      (a.updateServicePolicies policy index add).bindPoliciesCount =
        a.bindPoliciesCount + (if policy.policyType = .bindPolicy then (if add then 1 else -1) else 0) := by
  unfold ServiceAccess.updateServicePolicies isDial isBind
  cases policy.policyType <;> simp

theorem hasAccess_iff : a.hasAccess = true ↔ 0 < a.dialPoliciesCount ∨ 0 < a.bindPoliciesCount := by
  simp [ServiceAccess.hasAccess, ServiceAccess.isDialAllowed, ServiceAccess.isBindAllowed]

theorem Moved.count {here : Prop} [Decidable here] (h : Moved add here n n') :
    (n : Int) + (if here then (if add then 1 else -1) else 0) = n' := by
  unfold Moved at h
  by_cases hh : here
  · cases add
    · simp [hh] at h ⊢
      omega
    · simp [hh] at h ⊢
      omega
  · simp [hh] at h ⊢
    omega

variable {policy : ServicePolicy}

theorem AccessIs.bump {typed : Prop} {dial' bind' : Nat} (h : AccessIs typed access dial bind) (index : UInt64)
    (hd : Moved add (policy.policyType = .dialPolicy) dial dial')
    (hb : Moved add (policy.policyType = .bindPolicy) bind bind') :
    AccessIs typed (AccessCounts.bump policy index add access) dial' bind' := by
  obtain ⟨hdial, hbind, -⟩ := h
  obtain ⟨hd₁, hb₁⟩ := counts_updateServicePolicies
  rw [hdial, hd.count] at hd₁
  rw [hbind, hb.count] at hb₁
  unfold AccessCounts.bump
  simp only
  split
  · rename_i hsome
    refine ⟨hd₁, hb₁, fun _ a ha => ?_⟩
    cases ha
    exact hsome
  · rename_i hnone
    rw [hasAccess_iff] at hnone
    have hzero : dial' = 0 ∧ bind' = 0 := by omega
    exact ⟨by simp [hzero.1], by simp [hzero.2], fun _ a ha => by cases ha⟩

theorem lookup_incrementUseCount (m : IdTable Int) (c j : Id) :
    (incrementUseCount m c).lookup j = if j = c then some ((m.lookup j).getD 0 + 1) else m.lookup j := by
  rw [incrementUseCount, lookup_insert_eq]
  by_cases hj : j = c
  · subst hj; rfl
  · simp [hj]

def lower (count : Option Int) : Option Int := count.bind (fun x => if x - 1 < 1 then none else some (x - 1))

theorem lookup_decrementUseCount (m : IdTable Int) (c j : Id) :
    (decrementUseCount m c).lookup j = if j = c then lower (m.lookup j) else m.lookup j := by
  unfold decrementUseCount lower
  by_cases hj : j = c
  · subst hj
    cases h : m.lookup j with
    | none => simp [h]
    | some x =>
      simp only [Option.bind_some]
      split <;> simp
  · cases h : m.lookup c with
    | none => simp [hj]
    | some x =>
      simp only [hj]
      split <;> simp [hj]

theorem raise_useCount : some ((useCount n).getD 0 + 1) = useCount (n + 1) := by
  cases n <;> simp [useCount]

theorem lower_useCount : lower (useCount (n + 1)) = useCount n := by
  unfold useCount lower
  cases n with
  | zero => rfl
  | succ n =>
    have hn : ¬ ((n + 1 + 1 : Nat) : Int) - 1 < 1 := by omega
    have hm : ((n + 1 + 1 : Nat) : Int) - 1 = (n + 1 : Nat) := by omega
    rw [if_neg (Nat.succ_ne_zero _), if_neg (Nat.succ_ne_zero _), Option.bind_some, if_neg hn, hm]

/-- What counting the checks of a list in or out does to one of them. -/
theorem lookup_countChecks {m : IdTable Int} (hn : ids.Nodup) {c : Id} (h : m.lookup c = useCount n)
    (hm : Moved add (c ∈ ids) n n') :
    (ids.foldl (if add then incrementUseCount else decrementUseCount) m).lookup c = useCount n' := by
  unfold Moved at hm
  cases add with
  | true =>
    simp only [if_true]
    rw [lookup_foldl_local (h := fun _ o => some (o.getD 0 + 1)) lookup_incrementUseCount m hn c]
    by_cases hc : c ∈ ids
    · have hn' : n' = n + 1 := by simpa [hc] using hm
      rw [if_pos hc, h, raise_useCount, hn']
    · have hn' : n' = n := by simpa [hc] using hm
      rw [if_neg hc, h, hn']
  | false =>
    simp only [Bool.false_eq_true, if_false]
    rw [lookup_foldl_local lookup_decrementUseCount m hn c]
    by_cases hc : c ∈ ids
    · have hn' : n' + 1 = n := by simpa [hc] using hm
      rw [if_pos hc, h, ← hn', lower_useCount]
    · have hn' : n' = n := by simpa [hc] using hm
      rw [if_neg hc, h, hn']

theorem accessIs_countServices {typed : Prop} {access : IdTable ServiceAccess} (hn : ids.Nodup)
    {dial' bind' : Nat} (h : AccessIs typed (access.lookup s) dial bind)
    (hd : Moved add (policy.policyType = .dialPolicy ∧ s ∈ ids) dial dial')
    (hb : Moved add (policy.policyType = .bindPolicy ∧ s ∈ ids) bind bind') :
    AccessIs typed ((ids.foldl (fun access s => updateServiceCount access policy s index add) access).lookup s)
      dial' bind' := by
  rw [lookup_foldl_local
    (fun t k j => lookup_updateServiceCount) access hn s]
  by_cases hs : s ∈ ids
  · rw [if_pos hs]
    simp only [hs, and_true] at hd hb
    exact h.bump index hd hb
  · have hd' : dial' = dial := by simpa [Moved, hs] using hd
    have hb' : bind' = bind := by simpa [Moved, hs] using hb
    rwa [if_neg hs, hd', hb']

theorem weight_allows {t : PolicyType} : weight (some (grantsOf policy)) (allows t s) =
    if policy.policyType = t ∧ s ∈ policy.services then 1 else 0 := by
  simp [weight, allows, grantsOf]

theorem weight_requires {c : Id} : weight (some (grantsOf policy)) (requires c) =
    if isEmpty policy.services = false ∧ c ∈ policy.postureChecks then 1 else 0 := by
  simp [weight, requires, grantsOf]

variable {typed : Prop} {vals : Id → Option Grants} {m : Membership} {policy : ServicePolicy}

theorem AccessCounted.congr {vals' : Id → Option Grants} (h : AccessCounted typed vals m)
    (hv : ∀ p ∈ m.servicePolicies, vals' p = vals p) : AccessCounted typed vals' m := by
  intro ht s
  rw [tally_congr _ hv, tally_congr _ hv]
  exact h ht s

theorem CountedAs.congr {given used given' used' : Id → Option Grants} (h : CountedAs typed given used m)
    (hg : ∀ p ∈ m.servicePolicies, given' p = given p) (hu : ∀ p ∈ m.servicePolicies, used' p = used p) :
    CountedAs typed given' used' m := by
  refine ⟨h.access.congr hg, fun c => ?_⟩
  rw [tally_congr _ hu]
  exact h.uses c

theorem counted_empty (typed : Prop) (vals : Id → Option Grants) : Counted typed vals {} where
  access ht := by cases ht
  uses c := by simp [tally_empty, useCount]

/-- Joining a policy counts what it gives in, leaving it counts that out. -/
theorem Counted.toggled (h : Counted typed vals m) (hp : vals policy.id = some (grantsOf policy)) (index : UInt64)
    (add : Bool) : Counted typed vals (toggled m policy index add) := by
  by_cases hdone : policy.id ∈ m.servicePolicies ↔ add = true
  · rwa [toggled_of_done hdone]
  · have hmoved : ∀ test (here : Prop) [Decidable here],
        weight (some (grantsOf policy)) test = (if here then 1 else 0) →
        Moved add here (tally vals m.servicePolicies test) (tally vals (if add then
          m.servicePolicies.insert policy.id () else m.servicePolicies.erase policy.id) test) := by
      intro test here _ hw
      cases add with
      | true =>
        have htally := tally_insert vals test (by simpa using hdone)
        rw [hp, hw] at htally
        simpa [Moved] using htally
      | false =>
        have htally := tally_erase vals test (by simpa using hdone)
        rw [hp, hw] at htally
        simpa [Moved] using htally
    rw [toggled_eq hdone]
    constructor
    · intro ht s
      have ht' : m.serviceAccessTrackingEnabled = true := ht
      simp only [ht']
      exact accessIs_countServices policy.services.keys_nodup (h.access ht' s)
        (hmoved _ _ (by simp [weight_allows, AList.mem_keys])) (hmoved _ _ (by simp [weight_allows, AList.mem_keys]))
    · intro c
      have hc := hmoved (requires c) _ weight_requires
      cases he : isEmpty policy.services with
      | true =>
        simp only [Moved, he, Bool.true_eq_false, false_and, if_false, add_zero] at hc
        simpa [hc] using h.uses c
      | false =>
        refine lookup_countChecks policy.postureChecks.keys_nodup (h.uses c) ?_
        simpa [he, ← AList.mem_keys] using hc

def counts (a : ServiceAccess) : Int × Int := (a.dialPoliciesCount, a.bindPoliciesCount)

theorem AccessIs.congr {access' : Option ServiceAccess} (h : AccessIs typed access dial bind)
    (hc : access'.map counts = access.map counts) : AccessIs typed access' dial bind := by
  cases access with
  | none =>
    have hnone : access' = none := by simpa using hc
    rwa [hnone]
  | some a =>
    obtain ⟨a', rfl, hcounts⟩ := Option.map_eq_some_iff.mp hc
    obtain ⟨hd, hb⟩ := Prod.mk.inj hcounts
    obtain ⟨h₁, h₂, h₃⟩ := h
    refine ⟨hd.trans h₁, hb.trans h₂, fun ht a₁ ha => ?_⟩
    cases ha
    have hacc := h₃ ht a rfl
    rw [hasAccess_iff] at hacc ⊢
    rwa [hd, hb]

theorem counts_updatePostureChecksIndex : counts (a.updatePostureChecksIndex policy index) = counts a := by
  unfold ServiceAccess.updatePostureChecksIndex
  split
  · rfl
  · split <;> rfl

theorem touch_returns {access : IdTable ServiceAccess}
    (h : ∀ s ∈ ids, policy.isDial = true ∨ policy.isBind = true → ∃ a, access.lookup s = some a) :
    ∃ access', ids.foldlM (touchAccess policy index) access = some access' ∧
      ∀ s, (access'.lookup s).map counts = (access.lookup s).map counts := by
  induction ids generalizing access with
  | nil => exact ⟨access, rfl, fun _ => rfl⟩
  | cons s ids ih =>
    have hfirst : ∃ access₁, touchAccess policy index access s = some access₁ ∧
        ∀ j, (access₁.lookup j).map counts = (access.lookup j).map counts := by
      unfold touchAccess
      cases hs : access.lookup s with
      | some a =>
        refine ⟨_, rfl, fun j => ?_⟩
        rw [lookup_insert_eq]
        split
        · rename_i heq
          rw [heq, hs, Option.map_some, Option.map_some, counts_updatePostureChecksIndex]
        · rfl
      | none =>
        have hneither : (policy.isDial || policy.isBind) = false := by
          rw [Bool.eq_false_iff]
          intro htype
          obtain ⟨a, ha⟩ := h s List.mem_cons_self (by simpa using htype)
          rw [hs] at ha
          cases ha
        simp only [hneither]
        exact ⟨access, rfl, fun _ => rfl⟩
    obtain ⟨access₁, h₁, hcounts₁⟩ := hfirst
    have hrest : ∀ j ∈ ids, policy.isDial = true ∨ policy.isBind = true → ∃ a, access₁.lookup j = some a := by
      intro j hj htype
      obtain ⟨a, ha⟩ := h j (List.mem_cons_of_mem s hj) htype
      have heq := hcounts₁ j
      rw [ha] at heq
      obtain ⟨a₁, ha₁, -⟩ := Option.map_eq_some_iff.mp heq
      exact ⟨a₁, ha₁⟩
    obtain ⟨access₂, h₂, hcounts₂⟩ := ih hrest
    exact ⟨access₂, by simp [h₁, h₂], fun j => (hcounts₂ j).trans (hcounts₁ j)⟩

theorem postureChecksChanged_returns (policy : ServicePolicy) (hmem : policy.id ∈ m.servicePolicies)
    (hacc : m.serviceAccessTrackingEnabled = true → ∀ s ∈ policy.services,
      policy.isDial = true ∨ policy.isBind = true → ∃ a, m.serviceAccess.lookup s = some a) :
    ∃ m', m.postureChecksChangedInPolicy add policy ids index = some m' ∧
      m'.servicePolicies = m.servicePolicies ∧
      m'.serviceAccessTrackingEnabled = m.serviceAccessTrackingEnabled ∧
      m'.postureChecks = ids.foldl (if add then incrementUseCount else decrementUseCount) m.postureChecks ∧
      ∀ s, (m'.serviceAccess.lookup s).map counts = (m.serviceAccess.lookup s).map counts := by
  unfold Membership.postureChecksChangedInPolicy
  simp only [hmem]
  cases ht : m.serviceAccessTrackingEnabled with
  | false => exact ⟨_, rfl, rfl, rfl, rfl, fun _ => rfl⟩
  | true =>
    obtain ⟨access', h₁, hcounts⟩ := touch_returns (fun s hs => hacc ht s (AList.mem_keys.mpr hs))
    exact ⟨_, Option.map_eq_some_iff.mpr ⟨access', h₁, rfl⟩, rfl, rfl, rfl, hcounts⟩

theorem AccessIs.exists_of_pos (h : AccessIs typed access dial bind) (hpos : 0 < dial ∨ 0 < bind) :
    ∃ a, access = some a := by
  cases access with
  | some a => exact ⟨a, rfl⟩
  | none =>
    obtain ⟨hd, hb, -⟩ := h
    simp at hd hb
    omega

/-- A policy of a known type accounts for an access entry of each service. -/
theorem AccessCounted.exists_access (h : AccessCounted typed vals m) (policy : ServicePolicy)
    (hmem : policy.id ∈ m.servicePolicies) (hp : vals policy.id = some (grantsOf policy))
    (ht : m.serviceAccessTrackingEnabled = true) (hs : s ∈ policy.services)
    (htype : policy.isDial = true ∨ policy.isBind = true) : ∃ a, m.serviceAccess.lookup s = some a := by
  apply (h ht s).exists_of_pos
  rw [tally_pos, tally_pos]
  rcases htype with hdial | hbind
  · have hd : policy.policyType = .dialPolicy := by simpa [isDial] using hdial
    exact .inl ⟨policy.id, hmem, _, hp, by simp [allows, grantsOf, hd, hs]⟩
  · have hb : policy.policyType = .bindPolicy := by simpa [isBind] using hbind
    exact .inr ⟨policy.id, hmem, _, hp, by simp [allows, grantsOf, hb, hs]⟩

/-- The ids of a change are distinct, new ones when they are added and old ones
when they are removed. -/
def Fresh (s : IdSet) (ids : List Id) (add : Bool) : Prop :=
  ids.Nodup ∧ ∀ id ∈ ids, if add then id ∉ s else id ∈ s

theorem Fresh.moved {s : IdSet} (h : Fresh s ids add) {here : Prop} [Decidable here] {id : Id}
    (ht : n' + (if here ∧ id ∈ s then 1 else 0) = n + if here ∧ id ∈ setAll s ids add then 1 else 0) :
    Moved add (here ∧ id ∈ ids) n n' := by
  have hid := h.2 id
  unfold Moved
  by_cases hh : here
  · by_cases hmem : id ∈ ids
    · cases add <;> simp_all [mem_setAll]
    · simp_all [mem_setAll]
  · simpa [hh] using ht

theorem isEmpty_setAll_add {s : IdSet} (ids : List Id) (h : isEmpty (setAll s ids true) = true) :
    isEmpty s = true := by
  rw [Tables.isEmpty_iff] at h ⊢
  intro k hk
  exact h k (mem_setAll.mpr (.inr ⟨hk, by simp⟩))

theorem isEmpty_setAll_remove {s : IdSet} (ids : List Id) (h : isEmpty s = true) :
    isEmpty (setAll s ids false) = true := by
  rw [Tables.isEmpty_iff] at h ⊢
  intro k hk
  rcases mem_setAll.mp hk with ⟨-, hfalse⟩ | ⟨hmem, -⟩
  · cases hfalse
  · exact h k hmem

theorem switches_iff : View.switches policy ids add = true ↔
    isEmpty policy.services = add ∧ isEmpty (setAll policy.services ids add) = !add := by
  cases add <;> simp [View.switches, View.withServices]

theorem not_switches_iff : ¬ View.switches policy ids add = true ↔
    isEmpty (setAll policy.services ids add) = isEmpty policy.services := by
  rw [switches_iff]
  cases add with
  | true =>
    have h := isEmpty_setAll_add (s := policy.services) ids
    cases h₁ : isEmpty policy.services <;> cases h₂ : isEmpty (setAll policy.services ids true) <;> simp_all
  | false =>
    have h := isEmpty_setAll_remove (s := policy.services) ids
    cases h₁ : isEmpty policy.services <;> cases h₂ : isEmpty (setAll policy.services ids false) <;> simp_all

theorem frame_servicesChanged_postureChecks (add : Bool) (m : Membership) (policy : ServicePolicy) (ids : List Id)
    (index : UInt64) : (m.servicesChangedInPolicy add policy ids index).postureChecks = m.postureChecks := by
  unfold Membership.servicesChangedInPolicy
  split <;> rfl

/-- The counts of the services are right before the policy has them. -/
theorem Counted.servicesChanged (h : Counted typed vals m) (hmem : policy.id ∈ m.servicePolicies)
    (hp : vals policy.id = some (grantsOf policy)) (hf : Fresh policy.services ids add) (index : UInt64) :
    CountedAs typed (Function.update vals policy.id (some (grantsOf (View.withServices policy ids add)))) vals
      (m.servicesChangedInPolicy add policy ids index) := by
  have hframe := frame_servicesChanged add m policy ids index
  refine ⟨fun ht s => ?_, fun c => ?_⟩
  · have ht' : m.serviceAccessTrackingEnabled = true := hframe.2 ▸ ht
    have hfold : (m.servicesChangedInPolicy add policy ids index).serviceAccess =
        ids.foldl (fun access s => updateServiceCount access policy s index add) m.serviceAccess := by
      simp [Membership.servicesChangedInPolicy, ht', hmem, Membership.updateServiceCounts]
    have htally := fun test => tally_update vals test hmem (some (grantsOf (View.withServices policy ids add)))
    have hd := htally (allows .dialPolicy s)
    have hb := htally (allows .bindPolicy s)
    rw [hp, weight_allows, weight_allows] at hd hb
    rw [hfold, hframe.1]
    exact accessIs_countServices hf.1 (h.access ht' s) (hf.moved hd) (hf.moved hb)
  · rw [frame_servicesChanged_postureChecks, hframe.1]
    exact h.uses c

/-- Once the services are written, the checks are counted if they start or stop
to count. -/
theorem CountedAs.settled (h : CountedAs typed
      (Function.update vals policy.id (some (grantsOf (View.withServices policy ids add)))) vals m)
    (hmem : policy.id ∈ m.servicePolicies) (hp : vals policy.id = some (grantsOf policy)) (index : UInt64) :
    ∃ m', (if View.switches policy ids add then m.postureChecksChangedInPolicy add (View.withServices policy ids add)
        policy.postureChecks.keys index else some m) = some m' ∧
      Counted typed (Function.update vals policy.id (some (grantsOf (View.withServices policy ids add)))) m' := by
  let changed := View.withServices policy ids add
  have htally := fun c => tally_update vals (requires c) hmem (some (grantsOf changed))
  simp only [hp, weight_requires] at htally
  by_cases hsw : View.switches policy ids add
  · obtain ⟨hold, hnew⟩ := switches_iff.mp hsw
    have hnew' : isEmpty changed.services = !add := hnew
    obtain ⟨m', hm', hsp, htr, hpc, hcounts⟩ := postureChecksChanged_returns changed
      hmem (fun ht s hs => h.access.exists_access changed hmem (Function.update_self _ _ _) ht hs)
    rw [if_pos hsw]
    refine ⟨m', hm', fun ht s => ?_, fun c => ?_⟩
    · rw [hsp]
      exact (h.access (htr ▸ ht) s).congr (hcounts s)
    · rw [hpc, hsp]
      refine lookup_countChecks changed.postureChecks.keys_nodup (h.uses c) ?_
      have hc := htally c
      rw [hold, hnew'] at hc
      cases add <;> simpa [Moved, ← AList.mem_keys, changed, View.withServices] using hc
  · have hsame : isEmpty changed.services = isEmpty policy.services := not_switches_iff.mp hsw
    rw [if_neg hsw]
    refine ⟨m, rfl, h.access, fun c => ?_⟩
    have hc := htally c
    rw [hsame] at hc
    rw [h.uses c, ← add_right_cancel hc]

theorem Counted.memberServices (h : Counted typed vals m) (hmem : policy.id ∈ m.servicePolicies)
    (hp : vals policy.id = some (grantsOf policy)) (hf : Fresh policy.services ids add) (index : UInt64) :
    ∃ m', View.memberServices index policy ids add m = some m' ∧
      Counted typed (Function.update vals policy.id (some (grantsOf (View.withServices policy ids add)))) m' := by
  have hframe := frame_servicesChanged add m policy ids index
  exact (h.servicesChanged hmem hp hf index).settled (by rwa [hframe.1]) hp index

theorem Counted.memberChecks (h : Counted typed vals m) (hmem : policy.id ∈ m.servicePolicies)
    (hp : vals policy.id = some (grantsOf policy)) (hf : Fresh policy.postureChecks ids add) (index : UInt64) :
    ∃ m', View.memberChecks index policy ids add m = some m' ∧
      Counted typed (Function.update vals policy.id (some (grantsOf (View.withChecks policy ids add)))) m' := by
  let changed := View.withChecks policy ids add
  have htally := fun test => tally_update vals test hmem (some (grantsOf changed))
  rw [hp] at htally
  have hallows : ∀ t s, tally (Function.update vals policy.id (some (grantsOf changed))) m.servicePolicies
      (allows t s) = tally vals m.servicePolicies (allows t s) := by
    intro t s
    have ht := htally (allows t s)
    exact add_right_cancel ht
  have huses := fun c => htally (requires c)
  simp only [weight_requires] at huses
  cases he : isEmpty policy.services with
  | true =>
    refine ⟨m, by simp [View.memberChecks, he], fun ht s => ?_, fun c => ?_⟩
    · rw [hallows, hallows]
      exact h.access ht s
    · have hc := huses c
      have he' : isEmpty changed.services = true := he
      simp only [he, he', Bool.true_eq_false, false_and, if_false, add_zero] at hc
      rw [hc]
      exact h.uses c
  | false =>
    obtain ⟨m', hm', hsp, htr, hpc, hcounts⟩ := postureChecksChanged_returns policy
      hmem (fun ht s hs => h.access.exists_access policy hmem hp ht hs)
    refine ⟨m', by simpa [View.memberChecks, he] using hm', fun ht s => ?_, fun c => ?_⟩
    · rw [hsp, hallows, hallows]
      exact (h.access (htr ▸ ht) s).congr (hcounts s)
    · rw [hpc, hsp]
      refine lookup_countChecks hf.1 (h.uses c) ?_
      have he' : isEmpty changed.services = false := he
      have hc := huses c
      rw [he, he'] at hc
      simpa using hf.moved hc

end Zt.AccessCounts
