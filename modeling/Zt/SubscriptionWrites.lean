import Zt.RouterContents
import Zt.SubscriptionScans

namespace Zt.SubscriptionWrites

open Tables Notices EdgeCtrl RouterModel RouterHandlers RouterView RouterGraph RouterContents
  RouterServices ServiceLists AccessRuns AccessCounts Subscriptions SubscriptionChecks SubscriptionScans
open CheckFlags (has put)

variable {rdm₀ rdm rdm' : RouterDataModel} {p i : Id} (subs : Subscribers)

def flagIn (j : Id) (kd : Kind) : Bool :=
  has ((subs.updatedIdentities.lookup j).getD {}) kd

/-- Some notices were sent, each with its flag. -/
structure Notified (subs subs' : Subscribers) : Prop where
  subscriptions : subs'.subscriptions = subs.subscriptions
  events : ∀ e ∈ subs.events, e ∈ subs'.events
  scan : subs.scanPending = true → subs'.scanPending = true
  kept : ∀ j kd, flagIn subs j kd = true → flagIn subs' j kd = true
  flag : ∀ j kd, flagIn subs' j kd = true → flagIn subs j kd = true ∨ eventOf j kd ∈ subs'.events ∨
    subs'.scanPending = true

theorem Notified.refl : Notified subs subs :=
  ⟨rfl, fun _ he => he, fun hs => hs, fun _ _ hf => hf, fun _ _ hf => .inl hf⟩

theorem Notified.trans {subs subs' subs'' : Subscribers} (h : Notified subs subs') (h' : Notified subs' subs'') :
    Notified subs subs'' := by
  refine ⟨h'.subscriptions.trans h.subscriptions, fun e he => h'.events e (h.events e he),
    fun hs => h'.scan (h.scan hs), fun j kd hf => h'.kept j kd (h.kept j kd hf), fun j kd hf => ?_⟩
  rcases h'.flag j kd hf with hf' | hrest
  · rcases h.flag j kd hf' with hf₀ | he | hs
    · exact .inl hf₀
    · exact .inr (.inl (h'.events _ he))
    · exact .inr (.inr (h'.scan hs))
  · exact .inr hrest

theorem flagIn_mark (i : Id) (kind : Kind) (j : Id) (kd : Kind) :
    flagIn (subs.markIdentityForCheck i (fun flags => put flags true kind)) j kd = true ↔
      flagIn subs j kd = true ∨ (j = i ∧ kd = kind) := by
  simp only [flagIn, Subscribers.markIdentityForCheck, lookup_insert_eq]
  by_cases hj : j = i
  · subst hj
    rw [if_pos rfl, Option.getD_some, has_put]
    by_cases hkd : kd = kind <;> simp [hkd]
  · simp [hj]

theorem offer_spec (event : SubscriberEvent) : (subs.offer event).subscriptions = subs.subscriptions ∧
    (subs.offer event).updatedIdentities = subs.updatedIdentities ∧
    (∀ e ∈ subs.events, e ∈ (subs.offer event).events) ∧
    (subs.scanPending = true → (subs.offer event).scanPending = true) ∧
    (event ∈ (subs.offer event).events ∨ (subs.offer event).scanPending = true) := by
  unfold Subscribers.offer
  split
  · exact ⟨rfl, rfl, fun e he => List.mem_append_left _ he, fun hs => hs, .inl (by simp)⟩
  · exact ⟨rfl, rfl, fun e he => he, fun _ => rfl, .inr rfl⟩

theorem notified_queueSyncCheck : Notified subs (subs.queueSyncCheck i) ∧
    (i ∈ subs.subscriptions → flagIn (subs.queueSyncCheck i) i .updated = true) := by
  by_cases hi : i ∈ subs.subscriptions
  · have hqueue : subs.queueSyncCheck i = (subs.markIdentityForCheck i (fun flags =>
        put flags true .updated)).offer (eventOf i .updated) := if_pos hi
    rw [hqueue]
    have hmark := flagIn_mark subs i .updated
    generalize hmarked : subs.markIdentityForCheck i (fun flags => put flags true .updated) = marked at hmark
    obtain ⟨hsubs, hflags, hevents, hscan, hoffer⟩ := offer_spec marked (eventOf i .updated)
    have hflagIn : flagIn (marked.offer (eventOf i .updated)) = flagIn marked := by
      funext j kd
      simp [flagIn, hflags]
    subst hmarked
    refine ⟨⟨hsubs, hevents, hscan, fun j kd hf => ?_, fun j kd hf => ?_⟩, fun _ => ?_⟩
    · rw [hflagIn, hmark]
      exact .inl hf
    · rw [hflagIn, hmark] at hf
      rcases hf with hf | ⟨rfl, rfl⟩
      · exact .inl hf
      · exact .inr hoffer
    · rw [hflagIn, hmark]
      exact .inr ⟨rfl, rfl⟩
  · have hqueue : subs.queueSyncCheck i = subs := if_neg hi
    rw [hqueue]
    exact ⟨.refl subs, fun hmem => absurd hmem hi⟩

theorem notified_notifyIdentities (ids : List Id) : Notified rdm.subs (notifyIdentities rdm ids).subs ∧
    ∀ j ∈ ids, j ∈ rdm.identities → j ∈ rdm.subs.subscriptions →
      flagOf (notifyIdentities rdm ids) j .updated = true := by
  have hfold : ∀ subs,
      Notified subs (ids.foldl (fun subs i => if i ∈ rdm.identities then subs.queueSyncCheck i else subs) subs) ∧
      ∀ j ∈ ids, j ∈ rdm.identities → j ∈ subs.subscriptions → flagIn
        (ids.foldl (fun subs i => if i ∈ rdm.identities then subs.queueSyncCheck i else subs) subs) j .updated =
          true := by
    induction ids with
    | nil => exact fun subs => ⟨.refl subs, fun _ hmem => absurd hmem List.not_mem_nil⟩
    | cons i ids ih =>
      intro subs
      rw [List.foldl_cons]
      by_cases hi : i ∈ rdm.identities
      · rw [if_pos hi]
        obtain ⟨hn₁, hflag₁⟩ := notified_queueSyncCheck subs
        obtain ⟨hn₂, hflag₂⟩ := ih (subs.queueSyncCheck i)
        refine ⟨hn₁.trans hn₂, fun j hj hid hsub => ?_⟩
        rcases List.mem_cons.mp hj with rfl | hj'
        · exact hn₂.kept j .updated (hflag₁ hsub)
        · exact hflag₂ j hj' hid (by rw [hn₁.subscriptions]; exact hsub)
      · rw [if_neg hi]
        obtain ⟨hn, hflag⟩ := ih subs
        refine ⟨hn, fun j hj hid hsub => ?_⟩
        rcases List.mem_cons.mp hj with rfl | hj'
        · exact absurd hid hi
        · exact hflag j hj' hid hsub
  exact hfold rdm.subs

/-- What a step of the producer does to the model: only one identity changes. -/
structure Edits (rdm rdm' : RouterDataModel) (i : Id) : Prop where
  exact : Exact True (view rdm')
  unmoved : Unmoved rdm rdm'
  subscriptions : rdm'.subs.subscriptions = rdm.subs.subscriptions
  others : ∀ j, j ≠ i → rdm'.identities.lookup j = rdm.identities.lookup j
  named : ∀ identity', rdm'.identities.lookup i = some identity' → identity'.id = i
  ready : ∀ identity', rdm'.identities.lookup i = some identity' →
    (∀ identity, rdm.identities.lookup i = some identity → Ready identity) → Ready identity'

theorem steady_edits (h : Steady rdm₀ rdm) (he : Edits rdm rdm' i) : Steady rdm₀ rdm' := by
  refine ⟨he.exact, ?_, ?_, ?_, ?_⟩
  · intro j identity' hj
    by_cases hji : j = i
    · subst hji
      exact he.named identity' hj
    · rw [he.others j hji] at hj
      exact h.named j identity' hj
  · exact h.unmoved.trans he.unmoved
  · intro j sub hs
    rw [he.subscriptions] at hs
    exact h.kept j sub hs
  · intro j identity' hmem hj
    rw [he.subscriptions] at hmem
    by_cases hji : j = i
    · subst hji
      exact he.ready identity' hj (fun identity hi => h.ready j identity hmem hi)
    · rw [he.others j hji] at hj
      exact h.ready j identity' hmem hj

theorem valueOf_edits (he : Edits rdm rdm' i) {j : Id} (hj : j ≠ i) : valueOf rdm' j = valueOf rdm j := by
  simp [valueOf, he.others j hj]

theorem loadIdentityConfig_congr (hc : (fun k => (rdm'.configs.lookup k).map Config.toProtobuf) =
    fun k => (rdm.configs.lookup k).map Config.toProtobuf) (ht : rdm'.configTypes = rdm.configTypes) :
    loadIdentityConfig rdm' = loadIdentityConfig rdm := by
  funext c
  have hconf := congrFun hc c
  unfold loadIdentityConfig
  rw [ht]
  cases hk : rdm.configs.lookup c with
  | none =>
    simp only [hk, Option.map_none, Option.map_eq_none_iff] at hconf
    rw [hconf]
  | some config =>
    simp only [hk] at hconf
    obtain ⟨config', hk', heq⟩ := Option.map_eq_some_iff.mp hconf
    have htype : config'.typeId = config.typeId := congrArg DataStateConfig.typeId heq
    have hdata : config'.dataJson = config.dataJson := congrArg DataStateConfig.dataJson heq
    rw [hk']
    dsimp only
    rw [htype, hdata]

variable (index : UInt64)

theorem identities_setIdentity {model : DataStateIdentity} :
    (setIdentity index rdm model).identities = rdm.identities.insert model.id { model with
        toMembership := ((rdm.identities.lookup model.id).map (·.toMembership)).getD {}
        identityIndex := index
        stamp := rdm.nextStamp } := by
  unfold setIdentity
  cases rdm.identities.lookup model.id <;> rfl

theorem subs_setIdentity (rdm : RouterDataModel) (model : DataStateIdentity) :
    (setIdentity index rdm model).subs = rdm.subs := by
  unfold setIdentity
  cases rdm.identities.lookup model.id <;> rfl

theorem edits_setIdentity (h : Exact True (view rdm)) (index : UInt64) (model : DataStateIdentity) :
    Edits rdm (setIdentity index rdm model) model.id := by
  have hconfs : (fun k => ((setIdentity index rdm model).configs.lookup k).map Config.toProtobuf) =
      fun k => (rdm.configs.lookup k).map Config.toProtobuf := by
    unfold setIdentity
    cases rdm.identities.lookup model.id with
    | none => exact config_addConfigReferences _
    | some old => exact (config_addConfigReferences _).trans (config_removeConfigReferences _)
  have hframe : (setIdentity index rdm model).services = rdm.services ∧
      (setIdentity index rdm model).servicePolicies = rdm.servicePolicies ∧
      (setIdentity index rdm model).configTypes = rdm.configTypes := by
    unfold setIdentity
    cases rdm.identities.lookup model.id <;> exact ⟨rfl, rfl, rfl⟩
  obtain ⟨hsvcs, hpols, htypes⟩ := hframe
  refine ⟨?_, ⟨hsvcs, ?_, loadIdentityConfig_congr hconfs htypes⟩, by rw [subs_setIdentity], ?_, ?_, ?_⟩
  · rw [view_setIdentity]
    exact h.addIdentity model.id
  · funext p
    simp [policyGrants, hpols]
  · intro j hj
    rw [identities_setIdentity]
    exact AList.lookup_insert_ne hj
  · intro identity' hi'
    rw [identities_setIdentity, AList.lookup_insert] at hi'
    cases hi'
    rfl
  · intro identity' hi' hr
    rw [identities_setIdentity, AList.lookup_insert] at hi'
    cases hi'
    cases hi : rdm.identities.lookup model.id with
    | none => exact .inr ⟨fun p hp => by simp at hp, fun s hs => by simp at hs⟩
    | some identity => exact hr identity hi

theorem edits_configs (h : Steady rdm₀ rdm) (i : Id) (identity : DataStateIdentity) :
    Edits rdm { rdm with configs := removeConfigReferences rdm.configs identity } i := by
  refine ⟨h.exact, ⟨rfl, rfl, loadIdentityConfig_congr (config_removeConfigReferences _) rfl⟩, rfl,
    fun _ _ => rfl, h.named i, fun identity' hi' hr => hr identity' hi'⟩

theorem edits_erase (h : Steady rdm₀ rdm) (hi : ∀ p, ¬ (graph (view rdm)).link .relatedIdentity p i) :
    Edits rdm { rdm with identities := rdm.identities.erase i } i := by
  refine ⟨?_, ⟨rfl, rfl, rfl⟩, rfl, fun j hj => AList.lookup_erase_ne hj, ?_, ?_⟩
  · rw [view_erase_identity]
    exact h.exact.dropIdentity hi
  · intro identity' hi'
    simp at hi'
  · intro identity' hi'
    simp at hi'

def unlinkChange (p i : Id) : DataStateServicePolicyChange := ⟨p, [i], .relatedIdentity, false⟩

variable {policy : ServicePolicy} {index}

theorem ready_removedFromPolicy {identity : Identity} (h : Ready identity) :
    Ready { identity with
        toMembership := identity.toMembership.removedFromPolicy policy index } := by
  rcases h with htrack | ⟨hroles, hacc⟩
  · left
    exact (tracking_toggled _ _ false).trans htrack
  · right
    have hsame : identity.toMembership.removedFromPolicy policy index = identity.toMembership :=
      toggled_of_done (iff_of_false (hroles policy.id) Bool.false_ne_true) index
    simp only [hsame]
    exact ⟨hroles, hacc⟩

theorem lookup_unlinked (hp : rdm.servicePolicies.lookup p = some policy) {j : Id} :
    (linkIdentity index p false rdm i).identities.lookup j = if j = i then (rdm.identities.lookup i).map (fun identity =>
      { identity with
        toMembership := identity.toMembership.removedFromPolicy
          { policy with identities := policy.identities.erase i } index }) else rdm.identities.lookup j := by
  unfold linkIdentity
  cases hi : rdm.identities.lookup i with
  | none =>
    by_cases hj : j = i
    · subst hj
      simp [hi]
    · simp [hj]
  | some identity => simp [hp, lookup_insert_eq]

variable (index)

theorem unmoved_unlinked :
    Unmoved rdm (linkIdentity index p false rdm i) ∧ (linkIdentity index p false rdm i).subs = rdm.subs := by
  unfold linkIdentity
  cases hi : rdm.identities.lookup i with
  | none => exact ⟨⟨rfl, rfl, rfl⟩, rfl⟩
  | some identity =>
    cases hp : rdm.servicePolicies.lookup p with
    | none => exact ⟨⟨rfl, rfl, rfl⟩, rfl⟩
    | some policy =>
      refine ⟨⟨rfl, ?_, rfl⟩, rfl⟩
      funext q
      simp only [policyGrants]
      by_cases hq : q = p
      · subst hq
        simp [hp, grantsOf]
      · simp [hq]

theorem unlink_eq (hp : rdm.servicePolicies.lookup p = some policy) (index : UInt64) (i : Id) :
    handleServicePolicyChange index rdm (unlinkChange p i) =
      some (finishChange index (unlinkChange p i) (linkIdentity index p false rdm i)) := by
  simp [handleServicePolicyChange, unlinkChange, hp, changeMembers]

theorem unmoved_finishUnlink : Unmoved rdm (finishChange index (unlinkChange p i) rdm) := by
  refine ⟨rfl, ?_, rfl⟩
  funext q
  simp only [policyGrants, finishChange, notifyIdentities, lookup_adjust]
  by_cases hq : q = (unlinkChange p i).policyId
  · rw [if_pos hq, Option.map_map]
    rfl
  · rw [if_neg hq]

theorem notified_finishUnlink : Notified rdm.subs (finishChange index (unlinkChange p i) rdm).subs ∧
    (i ∈ rdm.identities → i ∈ rdm.subs.subscriptions →
      flagOf (finishChange index (unlinkChange p i) rdm) i .updated = true) := by
  let rdm₁ := { rdm with servicePolicies := adjust rdm.servicePolicies p (setIndexes index .relatedIdentity) }
  obtain ⟨hmembers, -⟩ := notified_notifyIdentities
    (((rdm₁.servicePolicies.lookup p).map (·.identities.keys)).getD [])
  generalize hrdm₂ : notifyIdentities rdm₁ (((rdm₁.servicePolicies.lookup p).map (·.identities.keys)).getD []) = rdm₂
    at hmembers
  have hfinish : finishChange index (unlinkChange p i) rdm = notifyIdentities rdm₂ [i] := by
    rw [← hrdm₂]
    rfl
  obtain ⟨hlast, hflag⟩ := notified_notifyIdentities [i]
  rw [hfinish]
  refine ⟨hmembers.trans hlast, fun hi hsub => hflag i List.mem_cons_self ?_ ?_⟩
  · rw [← hrdm₂]
    exact hi
  · rw [hmembers.subscriptions]
    exact hsub

theorem unlink_spec (h : Steady rdm₀ rdm) (index : UInt64) (p i : Id) :
    ∃ rdm', handleServicePolicyChange index rdm (unlinkChange p i) = some rdm' ∧ Edits rdm rdm' i ∧
      graph (view rdm') = (graph (view rdm)).change (unlinkChange p i) ∧ Notified rdm.subs rdm'.subs ∧
      (i ∈ rdm.subs.subscriptions → flagOf rdm' i .updated = true ∨ valueOf rdm' i = valueOf rdm i) := by
  have hok : InOrder True (view rdm) ⟨.delete, true, .servicePolicyChange (unlinkChange p i)⟩ := by
    rintro (ht | ht) <;> cases ht
  obtain ⟨rdm', hrdm', -, hexact, hgraph⟩ := kept_exact.handleChange h.exact hok
  refine ⟨rdm', hrdm', ?_⟩
  cases hp : rdm.servicePolicies.lookup p with
  | none =>
    have hsame : rdm' = rdm := by
      simp only [handleServicePolicyChange, unlinkChange, hp, Option.some.injEq] at hrdm'
      exact hrdm'.symm
    subst hsame
    exact ⟨⟨hexact, ⟨rfl, rfl, rfl⟩, rfl, fun _ _ => rfl, h.named i, fun identity hi hr => hr identity hi⟩, hgraph,
      .refl _, fun _ => .inr rfl⟩
  | some policy =>
    rw [unlink_eq hp, Option.some.injEq] at hrdm'
    obtain ⟨hunmoved, hsubs⟩ := unmoved_unlinked index
    have hids : rdm'.identities = (linkIdentity index p false rdm i).identities := by
      rw [← hrdm']
      rfl
    have hlook : ∀ j, rdm'.identities.lookup j = if j = i then (rdm.identities.lookup i).map (fun identity =>
        { identity with
          toMembership := identity.toMembership.removedFromPolicy
            { policy with identities := policy.identities.erase i } index }) else rdm.identities.lookup j := by
      intro j
      rw [hids]
      exact lookup_unlinked hp
    obtain ⟨hnotified, hflag⟩ := notified_finishUnlink index
    rw [hrdm', hsubs] at hnotified hflag
    refine ⟨⟨hexact, ?_, hnotified.subscriptions, ?_, ?_, ?_⟩, hgraph, hnotified, fun hsub => ?_⟩
    · exact hunmoved.trans (hrdm' ▸ unmoved_finishUnlink index)
    · intro j hj
      rw [hlook, if_neg hj]
    · intro identity' hi'
      rw [hlook, if_pos rfl] at hi'
      obtain ⟨identity, hi, rfl⟩ := Option.map_eq_some_iff.mp hi'
      exact h.named i identity hi
    · intro identity' hi' hready
      rw [hlook, if_pos rfl] at hi'
      obtain ⟨identity, hi, rfl⟩ := Option.map_eq_some_iff.mp hi'
      exact ready_removedFromPolicy (hready identity hi)
    · by_cases hi : i ∈ rdm'.identities
      · exact .inl (hflag (hids ▸ hi) hsub)
      · have hnone : rdm.identities.lookup i = none := by
          have hnone' := AList.lookup_eq_none.mpr hi
          rw [hlook, if_pos rfl, Option.map_eq_none_iff] at hnone'
          exact hnone'
        right
        rw [valueOf, hlook, if_pos rfl, valueOf, hnone]
        rfl

end Zt.SubscriptionWrites
