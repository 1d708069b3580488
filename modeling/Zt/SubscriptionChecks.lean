import Zt.AccessRuns
import Zt.Subscriptions

namespace Zt.SubscriptionChecks

open Tables Notices EdgeCtrl RouterModel RouterView RouterServices ServiceLists AccessRuns
  Subscriptions
open CheckFlags (has put)

/-- What identity events leave as it is, as far as service lists depend on it. -/
structure Unmoved (rdm₀ rdm : RouterDataModel) : Prop where
  services : rdm.services = rdm₀.services
  grants : policyGrants rdm = policyGrants rdm₀
  configs : loadIdentityConfig rdm = loadIdentityConfig rdm₀

variable {rdm' : RouterDataModel} {identity : Identity} {clear : Bool} {kind : Kind}
  {rdm rdm₀ : RouterDataModel}

theorem Unmoved.trans (h : Unmoved rdm₀ rdm) (h' : Unmoved rdm rdm') : Unmoved rdm₀ rdm' :=
  ⟨h'.services.trans h.services, h'.grants.trans h.grants, h'.configs.trans h.configs⟩

/-- An identity without what is kept up to date in place. -/
def lasting (identity : Identity) : Identity :=
  { identity with serviceAccess := ∅, postureChecks := ∅, serviceAccessTrackingEnabled := false }

def valueOf (rdm : RouterDataModel) (i : Id) : Option Identity := (rdm.identities.lookup i).map lasting

def flagOf (rdm : RouterDataModel) (i : Id) (kind : Kind) : Bool :=
  has ((rdm.subs.updatedIdentities.lookup i).getD {}) kind

/-- The subscription has this very identity and the service list that the model
builds for it. -/
def Shows (rdm₀ : RouterDataModel) (sub : IdentitySubscription) : Option Identity → Prop
  | none => sub.identity = none ∧ sub.services = none
  | some identity => sub.identity = some identity.stamp ∧ ∃ services, sub.services = some services ∧
      ∀ s, (services.lookup s).map exported = granted rdm₀ identity identity.servicePolicies.keys s

def KeptSub (i : Id) (sub : IdentitySubscription) : Prop :=
  sub.identityId = i ∧ (sub.identity = none → sub.services = none)

/-- The denormalised access can be used: it is tracked, or there is none. -/
def Ready (identity : Identity) : Prop :=
  identity.serviceAccessTrackingEnabled = true ∨
    ((∀ p, p ∉ identity.servicePolicies) ∧ ∀ s, s ∉ identity.serviceAccess)

/-- What the checks rely on and keep. -/
structure Steady (rdm₀ rdm : RouterDataModel) : Prop where
  exact : Exact True (view rdm)
  named : ∀ i identity, rdm.identities.lookup i = some identity → identity.id = i
  unmoved : Unmoved rdm₀ rdm
  kept : ∀ i sub, rdm.subs.subscriptions.lookup i = some sub → KeptSub i sub
  ready : ∀ i identity, i ∈ rdm.subs.subscriptions → rdm.identities.lookup i = some identity → Ready identity

/-- What a check does to the model beside the subscriptions: it may start to
track an identity. -/
structure Tracks (rdm rdm' : RouterDataModel) : Prop where
  services : rdm'.services = rdm.services
  policies : rdm'.servicePolicies = rdm.servicePolicies
  configs : rdm'.configs = rdm.configs
  configTypes : rdm'.configTypes = rdm.configTypes
  value : valueOf rdm' = valueOf rdm
  exact : Exact True (view rdm) → Exact True (view rdm')
  ready : ∀ i identity', rdm'.identities.lookup i = some identity' →
    ∃ identity, rdm.identities.lookup i = some identity ∧ (Ready identity → Ready identity')

theorem Tracks.refl (rdm : RouterDataModel) : Tracks rdm rdm :=
  ⟨rfl, rfl, rfl, rfl, rfl, fun h => h, fun _ identity h => ⟨identity, h, fun hr => hr⟩⟩

variable {rdm'' : RouterDataModel} {i : Id} {identity' : Identity}

theorem Tracks.trans (h : Tracks rdm rdm') (h' : Tracks rdm' rdm'') : Tracks rdm rdm'' := by
  refine ⟨h'.services.trans h.services, h'.policies.trans h.policies, h'.configs.trans h.configs,
    h'.configTypes.trans h.configTypes, h'.value.trans h.value, fun he => h'.exact (h.exact he), ?_⟩
  intro i identity'' hi''
  obtain ⟨identity', hi', hr'⟩ := h'.ready i identity'' hi''
  obtain ⟨identity, hi, hr⟩ := h.ready i identity' hi'
  exact ⟨identity, hi, fun hready => hr' (hr hready)⟩

theorem Tracks.of_subs (subs : Subscribers) : Tracks rdm { rdm with subs := subs } :=
  ⟨rfl, rfl, rfl, rfl, rfl, fun h => h, fun _ identity h => ⟨identity, h, fun hr => hr⟩⟩

theorem Tracks.enable (rdm : RouterDataModel) (i : Id) : Tracks rdm (enableServiceAccessTracking rdm i) := by
  refine ⟨rfl, rfl, rfl, rfl, ?_, exact_enable, ?_⟩
  · funext j
    simp only [valueOf, enableServiceAccessTracking, lookup_adjust]
    split
    · cases rdm.identities.lookup j with
      | none => rfl
      | some identity =>
        simp only [Option.map_some]
        split <;> rfl
    · rfl
  · intro j identity' hj
    simp only [enableServiceAccessTracking, lookup_adjust] at hj
    split at hj
    · obtain ⟨identity, hi, rfl⟩ := Option.map_eq_some_iff.mp hj
      refine ⟨identity, hi, fun hr => ?_⟩
      split
      · exact hr
      · exact .inl rfl
    · exact ⟨identity', hj, fun hr => hr⟩

open Tracks (refl enable of_subs)

theorem tracked_enable (h : (enableServiceAccessTracking rdm i).identities.lookup i = some identity) :
    identity.serviceAccessTrackingEnabled = true := by
  simp only [enableServiceAccessTracking, lookup_adjust] at h
  obtain ⟨-, -, rfl⟩ := Option.map_eq_some_iff.mp h
  split
  · assumption
  · rfl

theorem Unmoved.tracks (h : Unmoved rdm₀ rdm) (ht : Tracks rdm rdm') : Unmoved rdm₀ rdm' := by
  refine ⟨ht.services.trans h.services, ?_, ?_⟩
  · rw [← h.grants]
    funext p
    simp [policyGrants, ht.policies]
  · rw [← h.configs]
    funext c
    simp [loadIdentityConfig, ht.configs, ht.configTypes]

theorem named_of_value (hv : valueOf rdm' = valueOf rdm)
    (h : ∀ i identity, rdm.identities.lookup i = some identity → identity.id = i) (i : Id)
    (identity' : Identity) (hi : rdm'.identities.lookup i = some identity') : identity'.id = i := by
  have hvalue := congrFun hv i
  simp only [valueOf, hi] at hvalue
  obtain ⟨identity, hlook, heq⟩ := Option.map_eq_some_iff.mp hvalue.symm
  have hid : (lasting identity).id = (lasting identity').id := by rw [heq]
  exact hid.symm.trans (h i identity hlook)

theorem Steady.tracks (h : Steady rdm₀ rdm) (ht : Tracks rdm rdm')
    (hk : ∀ i sub, rdm'.subs.subscriptions.lookup i = some sub → i ∈ rdm.subs.subscriptions ∧ KeptSub i sub) :
    Steady rdm₀ rdm' := by
  refine ⟨ht.exact h.exact, named_of_value ht.value h.named, h.unmoved.tracks ht, fun i sub hs => (hk i sub hs).2, ?_⟩
  intro i identity' hmem hi'
  obtain ⟨sub, hs⟩ := mem_iff_lookup.mp hmem
  obtain ⟨identity, hi, hr⟩ := ht.ready i identity' hi'
  exact hr (h.ready i identity (hk i sub hs).1 hi)

theorem loadServiceConfigs_congr (h : Unmoved rdm₀ rdm)
    (hc : identity'.serviceConfigs = identity.serviceConfigs) (service : Service) :
    loadServiceConfigs rdm identity' service = loadServiceConfigs rdm₀ identity service := by
  simp [loadServiceConfigs, loadConfigs, h.configs, hc]

theorem granted_congr (h : Unmoved rdm₀ rdm)
    (hc : identity'.serviceConfigs = identity.serviceConfigs) {policyIds : List Id} {s : Id} :
    granted rdm identity' policyIds s = granted rdm₀ identity policyIds s := by
  simp [granted, h.services, h.grants, loadServiceConfigs_congr h hc]

/-- The denormalised list is right for an identity that is tracked or has
nothing. -/
theorem lookup_denormalized (h : Exact True (view rdm)) (hi : rdm.identities.lookup i = some identity)
    (hr : Ready identity) (s : Id) :
    ((buildServiceListUsingDenormalizedData rdm i identity).1.lookup s).map exported =
      granted rdm identity identity.servicePolicies.keys s := by
  rcases hr with htrack | ⟨hroles, hacc⟩
  · rw [lookup_lists_agree h hi htrack, lookup_buildServiceList]
  · have hkeys : identity.servicePolicies.keys = [] :=
      List.eq_nil_iff_forall_not_mem.mpr (fun p hp => hroles p (AList.mem_keys.mpr hp))
    have hnone : identity.serviceAccess.lookup s = none := AList.lookup_eq_none.mpr (hacc s)
    simp only [buildServiceListUsingDenormalizedData, hi, lookup_collect, hnone, hkeys, granted]
    cases rdm.services.lookup s <;> simp

section Checks

variable {rdm₀ rdm : RouterDataModel} {i : Id} {sub sub' : IdentitySubscription}

theorem shows_identityRemoved (h : KeptSub i sub) : Shows rdm₀ (identityRemoved sub) none := by
  unfold identityRemoved
  cases hi : sub.identity with
  | none => exact ⟨hi, h.2 hi⟩
  | some stamp => exact ⟨rfl, rfl⟩

theorem KeptSub.of_shows {v : Option Identity} (hid : sub'.identityId = i)
    (h : Shows rdm₀ sub' v) : KeptSub i sub' := by
  refine ⟨hid, fun hnone => ?_⟩
  cases v with
  | none => exact h.2
  | some identity =>
    rw [h.1] at hnone
    cases hnone

theorem identityId_removed : (identityRemoved sub).identityId = sub.identityId := by
  unfold identityRemoved
  split <;> rfl

/-- A check leaves the subscription with what the model has. -/
theorem checkForChanges_spec (h : Steady rdm₀ rdm) (hs : rdm.subs.subscriptions.lookup i = some sub) :
    Tracks rdm (checkForChanges rdm sub).1 ∧ (checkForChanges rdm sub).1.subs = rdm.subs ∧
      (checkForChanges rdm sub).2.identityId = i ∧ Shows rdm₀ (checkForChanges rdm sub).2 (valueOf rdm i) := by
  have hid : sub.identityId = i := (h.kept i sub hs).1
  unfold checkForChanges
  rw [hid]
  cases hi : rdm.identities.lookup i with
  | none =>
    have hnone : valueOf rdm i = none := by simp [valueOf, hi]
    rw [hnone]
    exact ⟨refl rdm, rfl, identityId_removed.trans hid, shows_identityRemoved (h.kept i sub hs)⟩
  | some identity =>
    have hvalue : valueOf rdm i = some (lasting identity) := by simp [valueOf, hi]
    obtain ⟨rdm', hrdm', ht, hsubs⟩ : ∃ rdm', rdm' = (if sub.identity.isNone then
        enableServiceAccessTracking rdm i else rdm) ∧ Tracks rdm rdm' ∧ rdm'.subs = rdm.subs := by
      refine ⟨_, rfl, ?_, ?_⟩
      · split
        · exact enable rdm i
        · exact refl rdm
      · split <;> rfl
    simp only [← hrdm']
    refine ⟨ht, hsubs, trivial, ?_⟩
    rw [hvalue]
    refine ⟨rfl, _, rfl, fun s => ?_⟩
    -- the identity may have become tracked, which changes nothing that is built from it
    have hlook := congrFun ht.value i
    rw [hvalue] at hlook
    obtain ⟨identity', hi', heq⟩ := Option.map_eq_some_iff.mp hlook
    have hready : Ready identity' := by
      obtain ⟨identity₁, hi₁, hr⟩ := ht.ready i identity' hi'
      exact hr (h.ready i identity₁ (mem_of_lookup hs) hi₁)
    have hconfs : identity'.serviceConfigs = identity.serviceConfigs := by
      have hc : (lasting identity').serviceConfigs = (lasting identity).serviceConfigs := by rw [heq]
      exact hc
    have hroles : identity'.servicePolicies = identity.servicePolicies := by
      have hc : (lasting identity').servicePolicies = (lasting identity).servicePolicies := by rw [heq]
      exact hc
    have hbuild : buildServiceListUsingDenormalizedData rdm' i identity =
        buildServiceListUsingDenormalizedData rdm' i identity' := by
      simp [buildServiceListUsingDenormalizedData, loadServiceConfigs, hconfs]
    rw [hbuild, lookup_denormalized (ht.exact h.exact) hi' hready, hroles]
    exact granted_congr (h.unmoved.tracks ht) hconfs

theorem initializeSubscription_tracks (rdm : RouterDataModel) (identity : Identity) (sub : IdentitySubscription) :
    Tracks rdm (initializeSubscription rdm identity sub).1 ∧
      (initializeSubscription rdm identity sub).1.subs = rdm.subs := by
  unfold initializeSubscription
  cases identity.serviceAccessTrackingEnabled <;> cases sub.identity.isNone
  · exact ⟨enable rdm identity.id, rfl⟩
  · exact ⟨enable rdm identity.id, rfl⟩
  · exact ⟨refl rdm, rfl⟩
  · exact ⟨refl rdm, rfl⟩

theorem initializeSubscription_some {stamp : Nat} (h : sub.identity = some stamp) (rdm : RouterDataModel)
    (identity : Identity) : (initializeSubscription rdm identity sub).2 = (sub, true) := by
  simp [initializeSubscription, h]

theorem initializeSubscription_none (hu : Unmoved rdm₀ rdm) (hk : KeptSub i sub) (hs : sub.identity = none)
    (identity : Identity) : (initializeSubscription rdm identity sub).2.2 = false ∧
      (initializeSubscription rdm identity sub).2.1.identityId = i ∧
      Shows rdm₀ (initializeSubscription rdm identity sub).2.1 (some (lasting identity)) := by
  have hu' := hu.tracks (initializeSubscription_tracks rdm identity sub).1
  have hsvcs := hk.2 hs
  unfold initializeSubscription at hu' ⊢
  simp only [hs, Option.isNone_none, if_true, hsvcs] at hu' ⊢
  refine ⟨trivial, hk.1, rfl, _, rfl, fun s => ?_⟩
  rw [lookup_buildServiceList]
  exact granted_congr hu' rfl

theorem checkSubscription_spec (h : Steady rdm₀ rdm) (hs : rdm.subs.subscriptions.lookup i = some sub) :
    ∃ sub', Tracks rdm (checkSubscription rdm sub) ∧ KeptSub i sub' ∧ Shows rdm₀ sub' (valueOf rdm i) ∧
      (checkSubscription rdm sub).subs =
        { rdm.subs with subscriptions := rdm.subs.subscriptions.insert i sub' } := by
  obtain ⟨ht, hsubs, hid, hshows⟩ := checkForChanges_spec h hs
  refine ⟨(checkForChanges rdm sub).2, ?_, .of_shows hid hshows, hshows, ?_⟩
  · exact ht.trans (of_subs _)
  · have hkey : sub.identityId = i := (h.kept i sub hs).1
    simp [checkSubscription, setSubscription, hsubs, hkey]

theorem has_put {flags : CheckFlags} {kd : Kind} {value : Bool} :
    has (put flags value kind) kd = if kd = kind then value else has flags kd := by
  cases kind <;> cases kd <;> rfl

theorem flagOf_complete {j : Id} {kd : Kind} : flagOf (markIdentityCheckComplete rdm i kind).1 j kd = true ↔
    flagOf rdm j kd = true ∧ ¬ (j = i ∧ kd = kind) := by
  have hlook : ((markIdentityCheckComplete rdm i kind).1.subs.updatedIdentities.lookup j).getD {} =
      if j = i then put ((rdm.subs.updatedIdentities.lookup i).getD {}) false kind
      else (rdm.subs.updatedIdentities.lookup j).getD {} := by
    simp only [markIdentityCheckComplete]
    split
    · rename_i hempty
      rw [lookup_erase_eq, hempty]
      split <;> rfl
    · rw [lookup_insert_eq]
      split <;> rfl
  unfold flagOf
  rw [hlook]
  by_cases hj : j = i
  · subst hj
    rw [if_pos rfl, has_put]
    by_cases hkd : kd = kind <;> simp [hkd]
  · simp [hj]

theorem completeIf_spec (clear : Bool) (rdm : RouterDataModel) (i : Id) (kind : Kind) :
    ∃ updated, (completeIf clear rdm i kind).1 =
        { rdm with subs := { rdm.subs with updatedIdentities := updated } } ∧
      (∀ j kd, flagOf (completeIf clear rdm i kind).1 j kd = true ↔
        flagOf rdm j kd = true ∧ ¬ (clear = true ∧ j = i ∧ kd = kind)) ∧
      ((completeIf clear rdm i kind).2 = true ↔ (clear = true → flagOf rdm i kind = true)) := by
  cases clear with
  | false => exact ⟨rdm.subs.updatedIdentities, rfl, by simp [completeIf], by simp [completeIf]⟩
  | true =>
    refine ⟨_, rfl, fun j kd => ?_, ?_⟩
    · simpa [completeIf] using flagOf_complete
    · simp [completeIf, markIdentityCheckComplete, flagOf]

/-- Of the subscriptions only the one of the given identity may change. -/
structure Local (rdm rdm' : RouterDataModel) (i : Id) : Prop where
  tracks : Tracks rdm rdm'
  events : rdm'.subs.events = rdm.subs.events
  scan : rdm'.subs.scanPending = rdm.subs.scanPending
  others : ∀ j, j ≠ i → rdm'.subs.subscriptions.lookup j = rdm.subs.subscriptions.lookup j
  kept : ∀ sub', rdm'.subs.subscriptions.lookup i = some sub' → i ∈ rdm.subs.subscriptions ∧ KeptSub i sub'

theorem Local.steady (hl : Local rdm rdm' i) (h : Steady rdm₀ rdm) : Steady rdm₀ rdm' := by
  apply h.tracks hl.tracks
  intro j sub hs
  by_cases hj : j = i
  · subst hj
    exact hl.kept sub hs
  · rw [hl.others j hj] at hs
    exact ⟨mem_of_lookup hs, h.kept j sub hs⟩

theorem Local.trans (h : Local rdm rdm' i) (h' : Local rdm' rdm'' i) : Local rdm rdm'' i := by
  refine ⟨h.tracks.trans h'.tracks, h'.events.trans h.events, h'.scan.trans h.scan,
    fun j hj => (h'.others j hj).trans (h.others j hj), fun sub'' hs'' => ?_⟩
  obtain ⟨hmem, hkept⟩ := h'.kept sub'' hs''
  obtain ⟨sub', hs'⟩ := mem_iff_lookup.mp hmem
  exact ⟨(h.kept sub' hs').1, hkept⟩

theorem Local.of_flags (h : Steady rdm₀ rdm) {updated : IdTable CheckFlags} :
    Local rdm { rdm with subs := { rdm.subs with updatedIdentities := updated } } i :=
  ⟨of_subs _, rfl, rfl, fun _ _ => rfl, fun sub' hs' => ⟨mem_of_lookup hs', h.kept i sub' hs'⟩⟩

/-- What the checks of one identity do: the flag of their kind goes down if it
is to be cleared, and the subscription looks at the model if the flag was up or
is not asked for. -/
structure Checked (rdm₀ : RouterDataModel) (clear : Bool) (kind : Kind) (rdm rdm' : RouterDataModel) (i : Id) : Prop
    extends Local rdm rdm' i where
  flag : ∀ j kd, j ∈ rdm'.subs.subscriptions →
    (flagOf rdm' j kd = true ↔ flagOf rdm j kd = true ∧ ¬ (clear = true ∧ j = i ∧ kd = kind))
  believed : kind = .deleted → ∀ sub', rdm'.subs.subscriptions.lookup i = some sub' → Shows rdm₀ sub' none
  looked : kind ≠ .deleted → ∀ sub', rdm'.subs.subscriptions.lookup i = some sub' →
    Shows rdm₀ sub' (valueOf rdm i) ∨ (rdm.subs.subscriptions.lookup i = some sub' ∧
      ¬ ((clear = true → flagOf rdm i kind = true) ∧ kind.Helps (valueOf rdm i)))

theorem local_complete (h : Steady rdm₀ rdm) (clear : Bool) (i : Id) (kind : Kind) :
    Local rdm (completeIf clear rdm i kind).1 i := by
  obtain ⟨updated, hrdm, -⟩ := completeIf_spec clear rdm i kind
  rw [hrdm]
  exact .of_flags h

theorem lookup_complete (clear : Bool) (rdm : RouterDataModel) (i : Id) (kind : Kind) :
    (completeIf clear rdm i kind).1.subs.subscriptions = rdm.subs.subscriptions ∧
      (completeIf clear rdm i kind).1.identities = rdm.identities := by
  obtain ⟨updated, hrdm, -⟩ := completeIf_spec clear rdm i kind
  rw [hrdm]
  exact ⟨rfl, rfl⟩

theorem checked_skip (h : Steady rdm₀ rdm) (hk : kind ≠ .deleted)
    (hno : i ∈ rdm.subs.subscriptions → ¬ ((clear = true → flagOf rdm i kind = true) ∧ kind.Helps (valueOf rdm i))) :
    Checked rdm₀ clear kind rdm (completeIf clear rdm i kind).1 i := by
  obtain ⟨-, -, hflag, -⟩ := completeIf_spec clear rdm i kind
  refine ⟨local_complete h clear i kind, fun j kd _ => hflag j kd, fun heq => absurd heq hk, ?_⟩
  intro _ sub' hs'
  rw [(lookup_complete clear rdm i kind).1] at hs'
  exact .inr ⟨hs', hno (mem_of_lookup hs')⟩

theorem checked_done (hmem : i ∈ rdm.subs.subscriptions) (ht : Tracks (completeIf clear rdm i kind).1 rdm')
    (hsubs : rdm'.subs = { (completeIf clear rdm i kind).1.subs with
      subscriptions := rdm.subs.subscriptions.insert i sub' })
    (hk : KeptSub i sub') (hd : kind = .deleted → Shows rdm₀ sub' none)
    (hl : kind ≠ .deleted → Shows rdm₀ sub' (valueOf rdm i)) : Checked rdm₀ clear kind rdm rdm' i := by
  obtain ⟨updated, hrdm, hflag, -⟩ := completeIf_spec clear rdm i kind
  have ht₁ : Tracks rdm (completeIf clear rdm i kind).1 := by
    rw [hrdm]
    exact of_subs _
  have hlook : ∀ s', rdm'.subs.subscriptions.lookup i = some s' → s' = sub' := by
    intro s' hs'
    rw [hsubs] at hs'
    simpa using hs'.symm
  refine ⟨⟨ht₁.trans ht, by rw [hsubs, hrdm], by rw [hsubs, hrdm], ?_, ?_⟩, ?_, ?_, ?_⟩
  · intro j hj
    rw [hsubs]
    exact AList.lookup_insert_ne hj
  · intro s' hs'
    rw [hlook s' hs']
    exact ⟨hmem, hk⟩
  · intro j kd _
    rw [← hflag]
    simp [flagOf, hsubs]
  · intro hkind s' hs'
    rw [hlook s' hs']
    exact hd hkind
  · intro hkind s' hs'
    rw [hlook s' hs']
    exact .inl (hl hkind)

theorem valueOf_complete : valueOf (completeIf clear rdm i kind).1 = valueOf rdm := by
  funext j
  simp [valueOf, (lookup_complete clear rdm i kind).2]

theorem checked_check (h : Steady rdm₀ rdm) (hk : kind ≠ .deleted) (hs : rdm.subs.subscriptions.lookup i = some sub)
    (ht : Tracks (completeIf clear rdm i kind).1 rdm') (hsubs : rdm'.subs = (completeIf clear rdm i kind).1.subs) :
    Checked rdm₀ clear kind rdm (checkSubscription rdm' sub) i := by
  have hsubs₁ := (lookup_complete clear rdm i kind).1
  have hs' : rdm'.subs.subscriptions.lookup i = some sub := by rw [hsubs, hsubs₁]; exact hs
  have hsteady₁ := (local_complete h clear i kind).steady h
  have hsteady : Steady rdm₀ rdm' := by
    apply hsteady₁.tracks ht
    intro j sub' hsub'
    rw [hsubs] at hsub'
    exact ⟨mem_of_lookup hsub', hsteady₁.kept j sub' hsub'⟩
  obtain ⟨sub', ht', hkept, hshows, heq⟩ := checkSubscription_spec hsteady hs'
  refine checked_done (mem_of_lookup hs) (ht.trans ht') ?_ hkept (fun heq => absurd heq hk) (fun _ => ?_)
  · rw [heq, hsubs, hsubs₁]
  · rw [← valueOf_complete, ← ht.value]
    exact hshows

theorem checked_sync (h : Steady rdm₀ rdm) (clear : Bool) (i : Id) :
    Checked rdm₀ clear .updated rdm (syncSubscriptionIfRequired clear rdm i) i := by
  unfold syncSubscriptionIfRequired
  cases hs : rdm.subs.subscriptions.lookup i with
  | none =>
    have habsent := AList.lookup_eq_none.mp hs
    have hno : ∀ sub', rdm.subs.subscriptions.lookup i ≠ some sub' := fun sub' hs' => by
      rw [hs] at hs'
      cases hs'
    refine ⟨.of_flags h, ?_, nofun, fun _ sub' hs' => absurd hs' (hno sub')⟩
    intro j kd hj
    have hne : j ≠ i := fun heq => habsent (heq ▸ hj)
    simp [hne]
  | some sub =>
    obtain ⟨-, -, -, hreq⟩ := completeIf_spec clear rdm i .updated
    simp only
    split
    · exact checked_check h (by decide) hs (refl _) rfl
    · rename_i hnot
      rw [hreq] at hnot
      exact checked_skip h nofun (fun _ hboth => hnot hboth.1)

theorem checked_new (h : Steady rdm₀ rdm) (clear : Bool) (i : Id) :
    Checked rdm₀ clear .added rdm (checkSubsForNewIdentity clear rdm i) i := by
  obtain ⟨-, -, -, hreq⟩ := completeIf_spec clear rdm i .added
  obtain ⟨hsubs, hids⟩ := lookup_complete clear rdm i .added
  unfold checkSubsForNewIdentity
  simp only [hsubs, hids]
  cases hs : rdm.subs.subscriptions.lookup i with
  | none => exact checked_skip h nofun (fun hmem => absurd hmem (AList.lookup_eq_none.mp hs))
  | some sub =>
    cases hi : rdm.identities.lookup i with
    | none =>
      refine checked_skip h nofun (fun _ hboth => ?_)
      have hhelps : (valueOf rdm i).isSome := hboth.2
      simp [valueOf, hi] at hhelps
    | some identity =>
      simp only
      split
      · obtain ⟨ht, hsubs'⟩ := initializeSubscription_tracks (completeIf clear rdm i .added).1 identity sub
        cases hstamp : sub.identity with
        | some stamp =>
          have hinit := initializeSubscription_some hstamp (completeIf clear rdm i .added).1 identity
          simp only [hinit]
          exact checked_check h (by decide) hs ht hsubs'
        | none =>
          obtain ⟨hwas, hid, hshows⟩ := initializeSubscription_none
            ((local_complete h clear i .added).steady h).unmoved (h.kept i sub hs) hstamp identity
          simp only [hwas]
          refine checked_done (mem_of_lookup hs) (ht.trans (of_subs _)) ?_ (KeptSub.of_shows hid hshows)
            nofun (fun _ => ?_)
          · simp [setSubscription, hsubs', hsubs]
          · simpa only [valueOf, hi, Option.map_some] using hshows
      · rename_i hnot
        rw [hreq] at hnot
        exact checked_skip h nofun (fun _ hboth => hnot hboth.1)

theorem checked_deleted (h : Steady rdm₀ rdm) (clear : Bool) (i : Id) :
    Checked rdm₀ clear .deleted rdm (checkSubsForDeletedIdentity clear rdm i) i := by
  obtain ⟨-, -, hflag, -⟩ := completeIf_spec clear rdm i .deleted
  obtain ⟨hsubs, -⟩ := lookup_complete clear rdm i .deleted
  have hlocal := local_complete h clear i .deleted
  unfold checkSubsForDeletedIdentity
  simp only [hsubs]
  cases hs : rdm.subs.subscriptions.lookup i with
  | none =>
    refine ⟨hlocal, fun j kd _ => hflag j kd, fun _ sub' hs' => ?_, absurd rfl⟩
    rw [hsubs, hs] at hs'
    cases hs'
  | some sub =>
    simp only
    split
    · have hshows : Shows rdm₀ (identityRemoved sub) none := shows_identityRemoved (h.kept i sub hs)
      have hid := identityId_removed.trans (h.kept i sub hs).1
      refine checked_done (mem_of_lookup hs) (of_subs _) ?_ (.of_shows hid hshows) (fun _ => hshows)
        (absurd rfl)
      simp [setSubscription, hsubs]
    · have hgone : ∀ sub', (rdm.subs.subscriptions.erase i).lookup i ≠ some sub' := by simp
      refine ⟨⟨hlocal.tracks.trans (of_subs _), hlocal.events, hlocal.scan, ?_, ?_⟩,
        fun j kd _ => hflag j kd, fun _ sub' hs' => absurd hs' (hgone sub'), absurd rfl⟩
      · intro j hj
        exact AList.lookup_erase_ne hj
      · exact fun sub' hs' => absurd hs' (hgone sub')

end Checks

end Zt.SubscriptionChecks
