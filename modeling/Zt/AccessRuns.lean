import Zt.Runs
import Zt.ServiceLists

namespace Zt.AccessRuns

open Tables Tally Runs EdgeCtrl RouterModel RouterHandlers RouterView RouterGraph RouterLinks RouterEvents
open RouterServices AccessCounts ServiceLists
open Function (update update_apply)

def grantsIn (v : View) (p : Id) : Option Grants := (v.policy p).map grantsOf

/-- The denormalised data of every identity are exact. -/
structure Exact (typed : Prop) (v : View) : Prop where
  consistent : Consistent v
  known : typed → ∀ p g, grantsIn v p = some g → g.policyType = .dialPolicy ∨ g.policyType = .bindPolicy
  counted : ∀ i m, v.identity i = some m → Counted typed (grantsIn v) m

variable {typed : Prop} {v v' : View} {p i : Id} {policy : ServicePolicy} {rdm : RouterDataModel} {identity : Identity}
  {m : Membership} {index : UInt64}

theorem exact_empty : Exact typed View.empty where
  consistent := consistent_empty
  known _ _ _ h := by cases h
  counted _ _ h := by cases h

theorem grantsIn_some (hp : v.policy p = some policy) :
    grantsIn v p = some (grantsOf policy) := by simp [grantsIn, hp]

theorem grantsIn_update {policy : Option ServicePolicy} (h : v'.policy = update v.policy p policy) :
    grantsIn v' = update (grantsIn v) p (policy.map grantsOf) := by
  funext q
  simp only [grantsIn, h, update_apply]
  split <;> rfl

theorem known_update {policy : Option ServicePolicy} (h : v'.policy = update v.policy p policy)
    (hk : ∀ q g, grantsIn v q = some g → g.policyType = .dialPolicy ∨ g.policyType = .bindPolicy)
    (hnew : ∀ x, policy = some x → x.policyType = .dialPolicy ∨ x.policyType = .bindPolicy) (q : Id) (g : Grants)
    (hg : grantsIn v' q = some g) : g.policyType = .dialPolicy ∨ g.policyType = .bindPolicy := by
  rw [grantsIn_update h, update_apply] at hg
  split at hg
  · obtain ⟨x, hx, rfl⟩ := Option.map_eq_some_iff.mp hg
    exact hnew x hx
  · exact hk q g hg

theorem update_eq_of_notMem {vals : Id → Option Grants} {policies : IdSet} (hp : p ∉ policies) (g : Option Grants) :
    ∀ q ∈ policies, update vals p g q = vals q := by
  intro q hq
  have hne : q ≠ p := fun heq => hp (heq ▸ hq)
  exact Function.update_of_ne hne g vals

/-- An identity that is not in a policy does not see it change. -/
theorem Counted.update {vals : Id → Option Grants} (h : Counted typed vals m)
    (hp : p ∉ m.servicePolicies) (g : Option Grants) : Counted typed (update vals p g) m :=
  h.congr (update_eq_of_notMem hp g) (update_eq_of_notMem hp g)

open Counted (update)

theorem Exact.linkIdentity (h : Exact typed v) (index : UInt64) (p : Id) (add : Bool) (i : Id) :
    Exact typed (v.linkIdentity index p add i) := by
  have hc := h.consistent.linkIdentity index p add i
  obtain ⟨hsame, -⟩ | ⟨m, policy, hi, hp⟩ := linkIdentity_cases
  · rwa [hsame]
  · rw [linkIdentity_eq hi hp] at hc ⊢
    let policy' := { policy with
      identities := if add then policy.identities.insert i () else policy.identities.erase i }
    let v' := (v.setIdentity i (some (toggled m policy index add))).setPolicy p (some policy')
    have hupdate : v'.policy = update v.policy p (some policy') := rfl
    have hgrants : grantsIn v' = grantsIn v := by
      rw [grantsIn_update hupdate]
      exact Function.update_eq_self_iff.mpr (grantsIn_some hp).symm
    have hp' : grantsIn v policy.id = some (grantsOf policy) := by
      rw [h.consistent.named hp]
      exact grantsIn_some hp
    refine ⟨hc, ?_, ?_⟩
    · rw [hgrants]
      exact h.known
    · intro j m' hm'
      rw [hgrants]
      simp only [View.setPolicy, View.setIdentity, update_apply] at hm'
      split at hm'
      · cases hm'
        exact (h.counted i m hi).toggled hp' index add
      · exact h.counted j m' hm'

/-- The condition on an event that the counts rely on: ids of services and
checks are added once and removed once, and the policy type is known. -/
def InOrder (typed : Prop) (v : View) (event : Event) : Prop :=
  match event.model with
  | .servicePolicyChange c => c.relatedEntityType = .relatedService ∨ c.relatedEntityType = .relatedPostureCheck →
      c.relatedEntityIds.Nodup ∧ ∀ id ∈ c.relatedEntityIds, ∃ policy, v.policy c.policyId = some policy ∧
        if c.add then id ∉ members c.relatedEntityType policy else id ∈ members c.relatedEntityType policy
  | .servicePolicy model => typed → event.action ≠ .delete →
      model.policyType = .dialPolicy ∨ model.policyType = .bindPolicy
  | _ => True

theorem InOrder.fresh {action : Action} {synthetic : Bool} {c : DataStateServicePolicyChange}
    (h : InOrder typed v ⟨action, synthetic, .servicePolicyChange c⟩) (hp : v.policy c.policyId = some policy)
    (ht : c.relatedEntityType = .relatedService ∨ c.relatedEntityType = .relatedPostureCheck) :
    Fresh (members c.relatedEntityType policy) c.relatedEntityIds c.add := by
  obtain ⟨hn, hall⟩ := h ht
  refine ⟨hn, fun id hid => ?_⟩
  obtain ⟨policy', hp', hmem⟩ := hall id hid
  have heq : policy' = policy := Option.some.inj (hp'.symm.trans hp)
  rwa [heq] at hmem

section

variable {given used given' used' : Id → Option Grants} {f : Membership → Option Membership} (hc : Consistent v)
  (hp : v.policy p = some policy) (h : ∀ i m, v.identity i = some m → CountedAs typed given used m)
  (hf : ∀ m, p ∈ m.servicePolicies → CountedAs typed given used m →
    ∃ m', f m = some m' ∧ CountedAs typed given' used' m')
include hc hp h hf

/-- What the members of a policy are counted for changes. -/
theorem members_counted : ∀ i ∈ policy.identities, ∀ m, v.identity i = some m →
    ∃ m', f m = some m' ∧ CountedAs typed given' used' m' := by
  intro i hi m hm
  obtain ⟨m₁, hm₁, hmem⟩ := (hc.linked hp i).mp hi
  cases hm.symm.trans hm₁
  exact hf m hmem (h i m hm)

theorem onMembers_counted (hg : ∀ q, q ≠ p → given' q = given q) (hu : ∀ q, q ≠ p → used' q = used q) (i : Id)
    (m : Membership) (hm : (v.onMembers policy.identities f).identity i = some m) :
    CountedAs typed given' used' m := by
  simp only [View.onMembers] at hm
  split at hm
  · rename_i hi
    obtain ⟨m₀, hm₀, hm⟩ := Option.bind_eq_some_iff.mp hm
    obtain ⟨m', hm', hcounted⟩ := members_counted hc hp h hf i hi m₀ hm₀
    cases hm.symm.trans hm'
    exact hcounted
  · rename_i hi
    have hne : ∀ q ∈ m.servicePolicies, q ≠ p := by
      rintro q hq rfl
      exact hi ((hc.linked hp i).mpr ⟨m, hm, hq⟩)
    exact (h i m hm).congr (fun q hq => hg q (hne q hq)) (fun q hq => hu q (hne q hq))

end

theorem exact_replace {policy' : Option ServicePolicy} {f : Membership → Option Membership} (h : Exact typed v)
    (hp : v.policy p = some policy) (hc : Consistent v')
    (hid : v'.identity = (v.onMembers policy.identities f).identity) (hpol : v'.policy = update v.policy p policy')
    (ht : typed → ∀ x, policy' = some x → x.policyType = .dialPolicy ∨ x.policyType = .bindPolicy)
    (hm : ∀ m, p ∈ m.servicePolicies → Counted typed (grantsIn v) m → ∃ m', f m = some m' ∧
      Counted typed (update (grantsIn v) p (policy'.map grantsOf)) m') : Exact typed v' := by
  have hother : ∀ q, q ≠ p → update (grantsIn v) p (policy'.map grantsOf) q = grantsIn v q :=
    fun q hq => Function.update_of_ne hq _ _
  refine ⟨hc, fun hty => known_update hpol (h.known hty) (ht hty), fun i m hi => ?_⟩
  rw [grantsIn_update hpol]
  rw [hid] at hi
  exact onMembers_counted h.consistent hp h.counted hm hother hother i m hi

section

variable (h : Exact typed v)
include h

theorem Exact.change {action : Action} {synthetic : Bool} {c : DataStateServicePolicyChange}
    (hok : InOrder typed v ⟨action, synthetic, .servicePolicyChange c⟩) :
    Returns index v c ∧ Exact typed (v.change index c) := by
  obtain ⟨p, ids, t, add⟩ := c
  -- what an identity of the policy sees of the change
  have hservices : ∀ policy, v.policy p = some policy → t = .relatedService → ∀ m, p ∈ m.servicePolicies →
      Counted typed (grantsIn v) m → ∃ m', View.memberServices index policy ids add m = some m' ∧
        Counted typed (update (grantsIn v) p (some (grantsOf (View.withServices policy ids add)))) m' := by
    rintro policy hp rfl m hmem hcounted
    obtain rfl := h.consistent.named hp
    exact hcounted.memberServices hmem (grantsIn_some hp) (hok.fresh hp (.inl rfl)) index
  have hchecks : ∀ policy, v.policy p = some policy → t = .relatedPostureCheck → ∀ m, p ∈ m.servicePolicies →
      Counted typed (grantsIn v) m → ∃ m', View.memberChecks index policy ids add m = some m' ∧
        Counted typed (update (grantsIn v) p (some (grantsOf (View.withChecks policy ids add)))) m' := by
    rintro policy hp rfl m hmem hcounted
    obtain rfl := h.consistent.named hp
    exact hcounted.memberChecks hmem (grantsIn_some hp) (hok.fresh hp (.inr rfl)) index
  have hr : Returns index v ⟨p, ids, t, add⟩ := by
    intro policy hp i hi m hm
    cases t with
    | invalidRelatedType => exact ⟨m, rfl⟩
    | relatedIdentity => exact ⟨m, rfl⟩
    | relatedService =>
      exact (members_counted h.consistent hp h.counted (hservices policy hp rfl) i hi m hm).imp (fun _ => And.left)
    | relatedPostureCheck =>
      exact (members_counted h.consistent hp h.counted (hchecks policy hp rfl) i hi m hm).imp (fun _ => And.left)
  refine ⟨hr, ?_⟩
  have hc := (h.consistent.change hr).1
  unfold View.change at hc ⊢
  cases hp : v.policy p with
  | none => exact h
  | some policy =>
    have htype := fun hty => h.known hty p (grantsOf policy) (grantsIn_some hp)
    simp only [hp] at hc ⊢
    cases t with
    | invalidRelatedType => exact h
    | relatedIdentity =>
      have hfold : ∀ (ids : List Id) (w : View), Exact typed w →
          Exact typed (ids.foldl (.linkIdentity index p add) w) := by
        intro ids
        induction ids with
        | nil => exact fun w hw => hw
        | cons i ids ih => exact fun w hw => ih _ (hw.linkIdentity index p add i)
      exact hfold ids v h
    | relatedService =>
      exact exact_replace h hp hc rfl rfl (fun hty _ hx => by cases hx; exact htype hty) (hservices policy hp rfl)
    | relatedPostureCheck =>
      exact exact_replace h hp hc rfl rfl (fun hty _ hx => by cases hx; exact htype hty) (hchecks policy hp rfl)

theorem Exact.addIdentity (i : Id) : Exact typed (v.setIdentity i (some ((v.identity i).getD {}))) := by
  refine ⟨consistent_addIdentity h.consistent, h.known, fun j m hm => ?_⟩
  simp only [View.setIdentity, update_apply] at hm
  split at hm
  · cases hi : v.identity i with
    | none =>
      rw [hi] at hm
      cases hm
      exact counted_empty typed _
    | some m₀ =>
      rw [hi] at hm
      cases hm
      exact h.counted i m₀ hi
  · exact h.counted j m hm

theorem Exact.dropIdentity (hi : ∀ p, ¬ (graph v).link .relatedIdentity p i) :
    Exact typed (v.setIdentity i none) := by
  refine ⟨consistent_dropIdentity h.consistent hi, h.known, fun j m hm => ?_⟩
  simp only [View.setIdentity, update_apply] at hm
  split at hm
  · cases hm
  · exact h.counted j m hm

theorem Exact.updatePolicy (index : UInt64) (model : DataStateServicePolicy)
    (ht : typed → model.policyType = .dialPolicy ∨ model.policyType = .bindPolicy) :
    Exact typed (v.updatePolicy index model) := by
  have hc := consistent_updatePolicy h.consistent index model
  unfold View.updatePolicy at hc ⊢
  cases hp : v.policy model.id with
  | none =>
    simp only [hp] at hc ⊢
    refine ⟨hc, fun hty => known_update rfl (h.known hty) ?_, fun i m hm => ?_⟩
    · intro x hx
      cases hx
      exact ht hty
    · rw [grantsIn_update rfl]
      apply update (h.counted i m hm)
      intro hmem
      obtain ⟨policy, hpol⟩ := h.consistent.known hm hmem
      rw [hp] at hpol
      cases hpol
  | some old =>
    simp only [hp] at hc ⊢
    have hid := h.consistent.named hp
    let new : ServicePolicy := { old with id := model.id, policyType := model.policyType }
    have hnew : typed → ∀ x, some new = some x → x.policyType = .dialPolicy ∨ x.policyType = .bindPolicy := by
      intro hty x hx
      cases hx
      exact ht hty
    by_cases heq : old.policyType = model.policyType
    · simp only [heq, if_true] at hc ⊢
      refine exact_replace (f := some) h hp hc (by rw [View.onMembers_some]; rfl) rfl hnew (fun m _ hm => ⟨m, rfl, ?_⟩)
      have hsame : grantsOf old = grantsOf new := by simp [grantsOf, new, heq]
      rwa [Option.map_some, ← hsame, Function.update_eq_self_iff.mpr (grantsIn_some hp).symm]
    · simp only [heq, if_false] at hc ⊢
      refine exact_replace h hp hc rfl rfl hnew (fun m _ hm => ⟨_, rfl, ?_⟩)
      have hremoved := hm.toggled (hid ▸ grantsIn_some hp) index false
      have hout : model.id ∉ (m.removedFromPolicy old index).servicePolicies := by
        rw [mem_removedFromPolicy, hid]
        exact fun hmem => hmem.1 rfl
      exact (update hremoved hout (some (grantsOf new))).toggled (Function.update_self _ _ _) index true

theorem Exact.deletePolicy (index : UInt64) (p : Id) : Exact typed (v.deletePolicy index p) := by
  have hc := consistent_deletePolicy h.consistent index p
  unfold View.deletePolicy at hc ⊢
  cases hp : v.policy p with
  | none => exact h
  | some old =>
    simp only [hp] at hc ⊢
    have hid := h.consistent.named hp
    refine exact_replace h hp hc rfl rfl (fun _ x hx => by cases hx) (fun m _ hm => ⟨_, rfl, ?_⟩)
    refine update (hm.toggled (hid ▸ grantsIn_some hp) index false) (fun hmem => ?_) none
    exact (mem_removedFromPolicy.mp hmem).1 hid.symm

end

theorem kept_exact : Kept index (InOrder typed) (Exact typed) where
  consistent h := h.consistent
  service s b h := ⟨consistent_setService h.consistent, h.known, h.counted⟩
  check c b h := ⟨consistent_setCheck h.consistent, h.known, h.counted⟩
  addIdentity i h := h.addIdentity i
  dropIdentity h hi := h.dropIdentity hi
  updatePolicy h ha hok := h.updatePolicy index _ (fun hty => hok hty ha)
  deletePolicy p h := h.deletePolicy index p
  change h hok := h.change hok
  removal h hlink := by
    obtain ⟨policy, hp, hid⟩ := hlink
    intro _
    refine ⟨List.nodup_singleton _, fun id' hid' => ⟨policy, hp, ?_⟩⟩
    rw [List.mem_singleton.mp hid']
    exact hid

theorem Disciplined.inOrder {event : Event} (h : Disciplined rdm event)
    (ht : typed → ∀ model, event.model = .servicePolicy model → event.action ≠ .delete →
      model.policyType = .dialPolicy ∨ model.policyType = .bindPolicy) : InOrder typed (view rdm) event := by
  obtain ⟨action, synthetic, model⟩ := event
  cases model with
  | servicePolicyChange c =>
    intro htype
    obtain ⟨hn, hall⟩ := h (by rcases htype with htype | htype <;> simp [htype])
    refine ⟨hn, fun id hid => ?_⟩
    obtain ⟨policy, hp, hcond⟩ := (Option.any_eq_true _ _).mp (hall id hid)
    refine ⟨bare policy, by simp [view, hp], ?_⟩
    have hbare : members c.relatedEntityType (bare policy) = members c.relatedEntityType policy := by
      rcases htype with htype | htype <;> rw [htype] <;> rfl
    rw [hbare]
    split
    · rename_i hadd
      simp only [hadd, if_true, Bool.and_eq_true, decide_eq_true_eq] at hcond
      exact hcond.2
    · rename_i hadd
      simpa [hadd] using hcond
  | servicePolicy model => exact fun hty ha => ht hty model rfl ha
  | _ => trivial

/-- Events of the controller and the switches of the subscribers. -/
inductive Op
  | handle (index : UInt64) (event : Event)
  | enableServiceAccessTracking (identityId : Id)
  | disableServiceAccessTracking (identityId : Id)

def step (rdm : RouterDataModel) : Op → Option RouterDataModel
  | .handle index event => handle index rdm event
  | .enableServiceAccessTracking identityId => some (enableServiceAccessTracking rdm identityId)
  | .disableServiceAccessTracking identityId => some (disableServiceAccessTracking rdm identityId)

def Orderly (rdm : RouterDataModel) : Op → Prop
  | .handle _ event => Disciplined rdm event
  | _ => True

/-- Every policy event brings a dial or a bind policy. -/
def Typed : Op → Prop
  | .handle _ event =>
    match event.model with
    | .servicePolicy model => event.action ≠ .delete →
        model.policyType = .dialPolicy ∨ model.policyType = .bindPolicy
    | _ => True
  | _ => True

instance (rdm : RouterDataModel) (op : Op) : Decidable (Orderly rdm op) := by
  unfold Orderly
  split <;> infer_instance

instance : (op : Op) → Decidable (Typed op)
  | .handle _ ⟨action, _, .servicePolicy model⟩ =>
    inferInstanceAs (Decidable (action ≠ .delete →
      model.policyType = .dialPolicy ∨ model.policyType = .bindPolicy))
  | .handle _ ⟨_, _, .identity _⟩ | .handle _ ⟨_, _, .service _⟩ | .handle _ ⟨_, _, .postureCheck _⟩
  | .handle _ ⟨_, _, .publicKey _⟩ | .handle _ ⟨_, _, .revocation _⟩ | .handle _ ⟨_, _, .servicePolicyChange _⟩
  | .handle _ ⟨_, _, .configType _⟩ | .handle _ ⟨_, _, .config _⟩ | .enableServiceAccessTracking _
  | .disableServiceAccessTracking _ => .isTrue trivial

theorem grantsIn_view : grantsIn (view rdm) = policyGrants rdm := by
  funext p
  simp only [grantsIn, view, Option.map_map]
  rfl

/-- A switch touches nothing but the access and the flag of an identity. -/
def Switch (f : Identity → Identity) : Prop :=
  ∀ identity, (f identity).servicePolicies = identity.servicePolicies ∧
    (f identity).postureChecks = identity.postureChecks

section

variable {f : Identity → Identity}

theorem forall_adjustIdentity {P : Membership → Prop} (h : ∀ j m, (view rdm).identity j = some m → P m)
    (hf : ∀ identity, rdm.identities.lookup i = some identity → P identity.toMembership →
      P (f identity).toMembership) (j : Id) (m : Membership)
    (hm : (view { rdm with identities := adjust rdm.identities i f }).identity j = some m) : P m := by
  obtain ⟨x, hx, rfl⟩ := Option.map_eq_some_iff.mp hm
  rw [lookup_adjust] at hx
  have hall : ∀ identity, rdm.identities.lookup j = some identity → P identity.toMembership :=
    fun identity hj => h j _ (by simp [view, hj])
  split at hx
  · rename_i hj
    obtain ⟨identity, hi, rfl⟩ := Option.map_eq_some_iff.mp hx
    exact hf identity (hj ▸ hi) (hall identity hi)
  · exact hall x hx

theorem consistent_adjustIdentity (h : Consistent (view rdm)) (hf : Switch f) :
    Consistent (view { rdm with identities := adjust rdm.identities i f }) := by
  refine h.congr (fun j => ?_) rfl
  have hroles := congrFun (map_lookup_adjust_same rdm.identities (fun x => roles x.toMembership) i (f := f)
    (fun identity => by rw [roles, (hf identity).1, roles])) j
  simp only [held, view, Option.map_map]
  exact congrArg (Option.getD · ∅) hroles

theorem CountedAs.switched {given used : Id → Option Grants}
    (h : CountedAs typed given used identity.toMembership) (hf : Switch f)
    (hc : AccessCounted typed given (f identity).toMembership) :
    CountedAs typed given used (f identity).toMembership := by
  refine ⟨hc, ?_⟩
  rw [(hf identity).1, (hf identity).2]
  exact h.uses

theorem exact_adjustIdentity (h : Exact typed (view rdm)) (hf : Switch f)
    (hc : ∀ identity, rdm.identities.lookup i = some identity →
      AccessCounted typed (grantsIn (view rdm)) identity.toMembership →
        AccessCounted typed (grantsIn (view rdm)) (f identity).toMembership) :
    Exact typed (view { rdm with identities := adjust rdm.identities i f }) :=
  ⟨consistent_adjustIdentity h.consistent hf, h.known, forall_adjustIdentity h.counted
    (fun identity hi hcounted => CountedAs.switched hcounted hf (hc identity hi hcounted.access))⟩

end

theorem switch_enable : Switch (fun identity => if identity.serviceAccessTrackingEnabled then identity
    else { identity with
      serviceAccessTrackingEnabled := true
      serviceAccess := buildServiceAccessList rdm identity }) := by
  intro identity
  dsimp only
  split <;> exact ⟨rfl, rfl⟩

theorem switch_disable : Switch (fun identity => if identity.serviceAccessTrackingEnabled then
    { identity with serviceAccessTrackingEnabled := false, serviceAccess := ∅ } else identity) := by
  intro identity
  dsimp only
  split <;> exact ⟨rfl, rfl⟩

/-- The access built when tracking starts is right, and none is kept when it ends. -/
theorem accessCounted_enable (identity : Identity) (hknown : typed → ∀ p g, grantsIn (view rdm) p = some g →
    g.policyType = .dialPolicy ∨ g.policyType = .bindPolicy) : AccessCounted typed (grantsIn (view rdm))
    { identity with
      serviceAccessTrackingEnabled := true
      serviceAccess := buildServiceAccessList rdm identity }.toMembership := by
  rw [grantsIn_view] at hknown ⊢
  exact fun _ s => accessIs_buildServiceAccessList hknown

theorem accessCounted_disable {vals : Id → Option Grants} (h : AccessCounted typed vals identity.toMembership) :
    AccessCounted typed vals (if identity.serviceAccessTrackingEnabled then
      { identity with serviceAccessTrackingEnabled := false, serviceAccess := ∅ } else identity).toMembership := by
  split
  · exact fun ht => (Bool.false_ne_true ht).elim
  · exact h

theorem exact_enable (h : Exact typed (view rdm)) : Exact typed (view (enableServiceAccessTracking rdm i)) := by
  refine exact_adjustIdentity h switch_enable (fun identity _ hc => ?_)
  split
  · exact hc
  · exact accessCounted_enable identity h.known

theorem exact_disable (h : Exact typed (view rdm)) : Exact typed (view (disableServiceAccessTracking rdm i)) :=
  exact_adjustIdentity h switch_disable (fun _ _ hc => accessCounted_disable hc)

theorem exact_step (h : Exact typed (view rdm)) {op : Op} (ho : Orderly rdm op) (ht : typed → Typed op) :
    ∃ rdm', step rdm op = some rdm' ∧ Exact typed (view rdm') := by
  cases op with
  | handle index event =>
    have hok : InOrder typed (view rdm) event := by
      apply Disciplined.inOrder ho
      intro hty model hmodel ha
      have htyped := ht hty
      simp only [Typed, hmodel] at htyped
      exact htyped ha
    obtain ⟨rdm', h₁, hstep⟩ := handle_stepped kept_exact h hok
    exact ⟨rdm', h₁, hstep.1⟩
  | enableServiceAccessTracking i => exact ⟨_, rfl, exact_enable h⟩
  | disableServiceAccessTracking i => exact ⟨_, rfl, exact_disable h⟩

theorem counted_of_lookup (h : Exact typed (view rdm))
    (hi : rdm.identities.lookup i = some identity) : Counted typed (policyGrants rdm) identity.toMembership := by
  rw [← grantsIn_view]
  exact h.counted i _ (by simp [view, hi])

theorem lookup_lists_agree (h : Exact True (view rdm))
    (hi : rdm.identities.lookup i = some identity) (htrack : identity.serviceAccessTrackingEnabled = true) (s : Id) :
    ((buildServiceListUsingDenormalizedData rdm i identity).1.lookup s).map exported =
      ((buildServiceList rdm identity).1.lookup s).map exported := by
  have hknown := h.known trivial
  rw [grantsIn_view] at hknown
  rw [lookup_buildServiceList]
  exact lookup_buildServiceListUsingDenormalizedData hi hknown htrack (counted_of_lookup h hi).access

def link (p : Id) (t : RelatedEntityType) (id : Id) (add : Bool) : Event :=
  { model := .servicePolicyChange ⟨p, [id], t, add⟩ }

end Zt.AccessRuns
