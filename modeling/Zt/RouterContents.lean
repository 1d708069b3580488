import Zt.RouterView

namespace Zt.RouterContents

open Tables EdgeCtrl RouterModel RouterHandlers RouterView
open Function (update)
open Config (toProtobuf)
open Option (map_eq_some_iff)

/-- What a model holds, its tables as the messages that would create them. -/
@[ext]
structure Contents where
  configType : Id → Option DataStateConfigType
  config : Id → Option DataStateConfig
  identity : Id → Option DataStateIdentity
  service : Id → Option DataStateService
  policy : Id → Option DataStateServicePolicy
  check : Id → Option DataStatePostureCheck
  publicKey : Id → Option DataStatePublicKey
  revocation : Id → Option DataStateRevocation
  timelineId : String
  index : UInt64

def contents (rdm : RouterDataModel) : Contents where
  configType k := (rdm.configTypes.lookup k).map ConfigType.toProtobuf
  config k := (rdm.configs.lookup k).map toProtobuf
  identity k := (rdm.identities.lookup k).map Identity.toProtobuf
  service k := (rdm.services.lookup k).map Service.toProtobuf
  policy k := (rdm.servicePolicies.lookup k).map ServicePolicy.toProtobuf
  check k := (rdm.postureChecks.lookup k).map PostureCheck.data
  publicKey k := rdm.publicKeys.lookup k
  revocation k := rdm.revocations.lookup k
  timelineId := rdm.timelineId
  index := rdm.index

theorem contents_foldl {A : Type} {f : RouterDataModel → A → RouterDataModel}
    (hf : ∀ rdm a, contents (f rdm a) = contents rdm) (rdm : RouterDataModel) (as : List A) :
    contents (as.foldl f rdm) = contents rdm := by
  induction as generalizing rdm with
  | nil => rfl
  | cons a as ih => rw [List.foldl_cons, ih, hf]

variable {ids : List Id} {rdm rdm' : RouterDataModel} {policy : ServicePolicy} {p : Id} {index : UInt64}
  {model : DataStateService} {action : Action} {config : Config}

@[simp]
theorem contents_notifyIdentities :
    contents (notifyIdentities rdm ids) = contents rdm := rfl

theorem contents_policies {policies : IdTable ServicePolicy}
    (h : (fun p => (policies.lookup p).map ServicePolicy.toProtobuf) =
      fun p => (rdm.servicePolicies.lookup p).map ServicePolicy.toProtobuf) :
    contents { rdm with servicePolicies := policies } = contents rdm := by
  unfold contents
  simp [h]

theorem contents_notifyServicePolicy {raise : ServicePolicy → ServicePolicy}
    (hr : ∀ p, (raise p).toProtobuf = p.toProtobuf) (rdm : RouterDataModel) (p : Id) :
    contents (notifyServicePolicy rdm p raise) = contents rdm := by
  unfold notifyServicePolicy
  cases h : rdm.servicePolicies.lookup p with
  | none => rfl
  | some policy => exact contents_policies (map_lookup_insert_same _ _ h (hr policy))

@[simp]
theorem contents_notifyServicePolicyServiceChange (rdm : RouterDataModel) (p : Id) :
    contents (notifyServicePolicyServiceChange index rdm p) = contents rdm := by
  apply contents_notifyServicePolicy
  intro p
  unfold raiseServicesIndex
  split <;> rfl

@[simp]
theorem contents_notifyServicePolicyPostureChecksChange (rdm : RouterDataModel) (p : Id) :
    contents (notifyServicePolicyPostureChecksChange index rdm p) = contents rdm := by
  apply contents_notifyServicePolicy
  intro p
  unfold raisePostureChecksIndex
  split <;> rfl

@[simp]
theorem contents_notifyServiceOfConfigChange (rdm : RouterDataModel) (s : Id) :
    contents (notifyServiceOfConfigChange index rdm s) = contents rdm := by
  unfold notifyServiceOfConfigChange
  cases h : rdm.services.lookup s with
  | none => rfl
  | some service =>
    rw [contents_foldl contents_notifyServicePolicyServiceChange]
    split
    · have hsame := map_lookup_insert_same rdm.services Service.toProtobuf h
        (show { service with index := index }.toProtobuf = service.toProtobuf from rfl)
      unfold contents
      simp [hsame]
    · rfl

@[simp]
theorem contents_notifyConfigUsers : contents (notifyConfigUsers index rdm config) = contents rdm := by
  rw [notifyConfigUsers, contents_notifyIdentities, contents_foldl contents_notifyServiceOfConfigChange]

theorem contents_linkIdentity {add : Bool} (rdm : RouterDataModel) (i : Id) :
    contents (linkIdentity index p add rdm i) = contents rdm := by
  unfold linkIdentity
  cases hi : rdm.identities.lookup i with
  | none => rfl
  | some identity =>
    cases hp : rdm.servicePolicies.lookup p with
    | none => rfl
    | some policy =>
      unfold contents
      congr 1
      · exact map_lookup_insert_same rdm.identities Identity.toProtobuf hi rfl
      · exact map_lookup_insert_same rdm.servicePolicies ServicePolicy.toProtobuf hp rfl

theorem contents_eachIdentity {f : Membership → Option Membership} (h : eachIdentity rdm policy f = some rdm') :
    contents rdm' = contents rdm := by
  obtain ⟨identities, hids, rfl⟩ := map_eq_some_iff.mp h
  have hsame := map_lookup_adjustEachM_same rdm.identities Identity.toProtobuf policy.identities.keys_nodup hids (by
    intro identity identity' heq
    obtain ⟨m, -, rfl⟩ := map_eq_some_iff.mp heq
    rfl)
  unfold contents
  simp [hsame]

theorem contents_installServices (ids : List Id) (add : Bool) {policy' : ServicePolicy}
    (h : rdm.servicePolicies.lookup p = some policy') (hs : policy.toProtobuf = policy'.toProtobuf) :
    contents (installServices p ids add rdm policy) = contents rdm := by
  have hpols := map_lookup_insert_same rdm.servicePolicies ServicePolicy.toProtobuf h
    (show (View.withServices policy ids add).toProtobuf = policy'.toProtobuf from hs)
  have hsvcs := map_lookup_foldl_adjust_same rdm.services Service.toProtobuf ids
    (f := fun service => { service with
      servicePolicies := if add then service.servicePolicies.insert policy.id ()
        else service.servicePolicies.erase policy.id }) (fun _ => rfl)
  unfold contents installServices linkServices
  simp [hpols, hsvcs]

theorem contents_changeServices {add : Bool} (hp : rdm.servicePolicies.lookup p = some policy)
    (h : changeServices index p ids add rdm policy = some rdm') : contents rdm' = contents rdm := by
  obtain ⟨rdm₁, h₁, -⟩ := Option.bind_eq_some_iff.mp h
  rw [countServices_eq] at h₁
  have hp₁ : rdm₁.servicePolicies.lookup p = some policy := by rw [(view_eachIdentity h₁).2.1, hp]
  have hmid := (contents_installServices ids add hp₁ rfl).trans (contents_eachIdentity h₁)
  rw [changeServices_eq h₁] at h
  split at h
  · exact (contents_eachIdentity h).trans hmid
  · cases h
    exact hmid

theorem contents_changePostureChecks {add : Bool} (hp : rdm.servicePolicies.lookup p = some policy)
    (h : changePostureChecks index p ids add rdm policy = some rdm') : contents rdm' = contents rdm := by
  obtain ⟨rdm₁, h₁, rfl⟩ := map_eq_some_iff.mp h
  have hfirst : contents rdm₁ = contents rdm ∧ rdm₁.servicePolicies = rdm.servicePolicies := by
    unfold countPostureChecks at h₁
    split at h₁
    · cases h₁
      exact ⟨rfl, rfl⟩
    · exact ⟨contents_eachIdentity h₁, (view_eachIdentity h₁).2.1⟩
  have hp₁ : rdm₁.servicePolicies.lookup p = some policy := by rw [hfirst.2, hp]
  have hpols := map_lookup_insert_same rdm₁.servicePolicies ServicePolicy.toProtobuf hp₁
    (show ({ policy with postureChecks := setAll policy.postureChecks ids add }).toProtobuf =
      policy.toProtobuf from rfl)
  have hchecks := map_lookup_foldl_adjust_same rdm₁.postureChecks PostureCheck.data ids
    (f := fun check => { check with
      servicePolicies := if add then check.servicePolicies.insert policy.id ()
        else check.servicePolicies.erase policy.id }) (fun _ => rfl)
  rw [← hfirst.1]
  unfold contents linkPostureChecks
  simp [hpols, hchecks]

theorem contents_finishChange {model : DataStateServicePolicyChange} :
    contents (finishChange index model rdm) = contents rdm := by
  unfold finishChange
  simp only [contents_notifyIdentities]
  apply contents_policies
  apply map_lookup_adjust_same
  intro policy
  unfold setIndexes
  split <;> rfl

/-- The links of a policy are no part of the contents. -/
theorem contents_handleServicePolicyChange {model : DataStateServicePolicyChange}
    (h : handleServicePolicyChange index rdm model = some rdm') : contents rdm' = contents rdm := by
  unfold handleServicePolicyChange at h
  cases hp : rdm.servicePolicies.lookup model.policyId with
  | none =>
    rw [hp] at h
    cases h
    rfl
  | some policy =>
    rw [hp] at h
    obtain ⟨rdm₁, h₁, rfl⟩ := map_eq_some_iff.mp h
    rw [contents_finishChange]
    unfold changeMembers at h₁
    split at h₁
    · cases h₁
      exact contents_foldl contents_linkIdentity rdm _
    · exact contents_changeServices hp h₁
    · exact contents_changePostureChecks hp h₁
    · cases h₁
      rfl

theorem contents_foldlM_change {models : List DataStateServicePolicyChange}
    (h : models.foldlM (handleServicePolicyChange index) rdm = some rdm') : contents rdm' = contents rdm := by
  induction models generalizing rdm with
  | nil =>
    cases h
    rfl
  | cons model models ih =>
    obtain ⟨rdm₁, h₁, h₂⟩ := Option.bind_eq_some_iff.mp h
    exact (ih h₂).trans (contents_handleServicePolicyChange h₁)

theorem contents_handleConfigTypeEvent
    {model : DataStateConfigType} : contents (handleConfigTypeEvent index rdm action model) =
      { contents rdm with
        configType := update (contents rdm).configType model.id
          (if action = .delete then none else some model) } := by
  unfold handleConfigTypeEvent
  by_cases ha : action = .delete
  · simp only [ha]
    unfold contents
    simp [map_lookup_erase]
  · simp only [ha, if_false]
    rw [contents_foldl (fun rdm c => contents_notifyConfigUsers)]
    unfold contents
    simp only [map_lookup_insert]
    rfl

theorem contents_insert_config {k : Id} : contents { rdm with configs := rdm.configs.insert k config } =
      { contents rdm with config := update (contents rdm).config k (some config.toProtobuf) } := by
  unfold contents
  simp [map_lookup_insert]

theorem contents_handleConfigEvent_set (ha : action ≠ .delete) (index : UInt64) (rdm : RouterDataModel)
    (model : DataStateConfig) : contents (handleConfigEvent index rdm action model) =
      { contents rdm with config := update (contents rdm).config model.id (some model) } := by
  unfold handleConfigEvent
  rw [if_neg ha]
  cases rdm.configs.lookup model.id with
  | none => exact contents_insert_config
  | some valueInMap =>
    have hnotify : ∀ result, contents (if result.toProtobuf = valueInMap.toProtobuf then rdm
        else notifyConfigUsers index rdm result) = contents rdm := by
      intro result
      split
      · rfl
      · exact contents_notifyConfigUsers
    rw [contents_insert_config, hnotify]
    rfl

theorem contents_erase_identity (rdm : RouterDataModel) (i : Id) :
    contents { rdm with identities := rdm.identities.erase i } =
      { contents rdm with identity := update (contents rdm).identity i none } := by
  unfold contents
  simp [map_lookup_erase]

theorem contents_unlinkIdentity {i : Id} (h : unlinkIdentity index rdm i = some rdm') :
    contents rdm' = contents rdm := by
  unfold unlinkIdentity at h
  split at h
  · cases h
    rfl
  · rename_i identity _
    rw [contents_foldlM_change h]
    have hconfs := map_lookup_foldl_adjust_same rdm.configs toProtobuf
      (getReferencedConfigs identity.serviceConfigs)
      (f := fun config => { config with identities := config.identities.erase identity.id }) (fun _ => rfl)
    unfold contents removeConfigReferences
    simp [hconfs]

variable (configs : IdTable Config)

theorem config_removeConfigReferences {identity : DataStateIdentity} :
    (fun k => ((removeConfigReferences configs identity).lookup k).map toProtobuf) =
      fun k => (configs.lookup k).map toProtobuf :=
  map_lookup_foldl_adjust_same configs toProtobuf _ (fun _ => rfl)

theorem config_addConfigReferences {identity : DataStateIdentity} :
    (fun k => ((addConfigReferences configs identity).lookup k).map toProtobuf) =
      fun k => (configs.lookup k).map toProtobuf :=
  map_lookup_foldl_adjust_same configs toProtobuf _ (fun _ => rfl)

theorem contents_setIdentity {model : DataStateIdentity} :
    contents (setIdentity index rdm model) =
      { contents rdm with
        identity := update (contents rdm).identity model.id (some model) } := by
  unfold setIdentity
  cases rdm.identities.lookup model.id with
  | none =>
    unfold contents
    simp only [map_lookup_insert, config_addConfigReferences]
    rfl
  | some valueInMap =>
    unfold contents
    simp only [map_lookup_insert, config_addConfigReferences, config_removeConfigReferences]
    rfl

theorem contents_handleIdentityEvent {model : DataStateIdentity}
    (h : handleIdentityEvent index rdm action model = some rdm') : contents rdm' = { contents rdm with
        identity := update (contents rdm).identity model.id
          (if action = .delete then none else some model) } := by
  obtain ⟨rdm₁, h₁, rfl⟩ := map_eq_some_iff.mp h
  unfold applyIdentityEvent at h₁
  by_cases ha : action = .delete
  · rw [if_pos ha] at h₁
    obtain ⟨rdm₂, h₂, rfl⟩ := map_eq_some_iff.mp h₁
    rw [if_pos ha, ← contents_unlinkIdentity h₂]
    exact contents_erase_identity rdm₂ model.id
  · rw [if_neg ha] at h₁
    cases h₁
    rw [if_neg ha]
    exact contents_setIdentity

theorem config_removeFromConfigs {s : Id} :
    (fun k => ((removeFromConfigs configs s ids).lookup k).map toProtobuf) =
      fun k => (configs.lookup k).map toProtobuf :=
  map_lookup_foldl_adjust_same configs toProtobuf ids (fun _ => rfl)

theorem config_addToConfigs {s : Id} : (fun k => ((addToConfigs configs s ids).lookup k).map toProtobuf) =
    fun k => (configs.lookup k).map toProtobuf :=
  map_lookup_foldl_adjust_same configs toProtobuf ids (fun _ => rfl)

theorem contents_handleServiceEvent_delete (h : handleServiceEvent index rdm .delete model = some rdm') :
    contents rdm' = { contents rdm with
        service := update (contents rdm).service model.id none } := by
  simp only [handleServiceEvent] at h
  cases hs : rdm.services.lookup model.id with
  | none =>
    rw [hs] at h
    cases h
    have hnone : (contents rdm).service model.id = none := by simp [contents, hs]
    rw [Function.update_eq_self_iff.mpr hnone.symm]
  | some service =>
    rw [hs] at h
    rw [contents_foldlM_change h]
    unfold contents
    simp [map_lookup_erase, config_removeFromConfigs]

/-- An update leaves the configs of a service sorted, a creation as they came. -/
theorem contents_handleServiceEvent_set (ha : action ≠ .delete)
    (h : handleServiceEvent index rdm action model = some rdm') : contents rdm' = { contents rdm with
        service := update (contents rdm).service model.id
          (some { model with
            configs := if model.id ∈ rdm.services then model.configs.insertionSort (· ≤ ·) else model.configs }) } := by
  simp only [handleServiceEvent, ha, if_false, Option.some.injEq] at h
  rw [← h, contents_foldl contents_notifyServicePolicyServiceChange]
  cases hs : rdm.services.lookup model.id with
  | none =>
    have hmem : model.id ∉ rdm.services := AList.lookup_eq_none.mp hs
    unfold contents
    simp only [map_lookup_insert, config_addToConfigs, hmem]
    rfl
  | some service =>
    have hmem : model.id ∈ rdm.services := mem_of_lookup hs
    unfold contents
    simp only [map_lookup_insert, config_addToConfigs, config_removeFromConfigs, hmem]
    rfl

theorem contents_handlePostureCheckEvent {model : DataStatePostureCheck}
    (h : handlePostureCheckEvent index rdm action model = some rdm') : contents rdm' = { contents rdm with
        check := update (contents rdm).check model.id (if action = .delete then none else some model) } := by
  by_cases ha : action = .delete
  · simp only [ha] at h ⊢
    obtain ⟨rdm₁, h₁, rfl⟩ := map_eq_some_iff.mp h
    have hsame : contents rdm₁ = contents rdm := by
      unfold unlinkPostureCheck at h₁
      split at h₁
      · cases h₁
        rfl
      · exact contents_foldlM_change h₁
    rw [← hsame]
    unfold contents
    simp [map_lookup_erase]
  · simp only [handlePostureCheckEvent, ha, if_false, Option.some.injEq] at h ⊢
    rw [← h, contents_foldl contents_notifyServicePolicyPostureChecksChange]
    unfold contents
    simp [map_lookup_insert]

theorem contents_setMemberships (f : Membership → Membership) :
    contents { rdm with
      identities := adjustEach rdm.identities ids (fun identity =>
        { identity with toMembership := f identity.toMembership }) } = contents rdm := by
  have hsame := map_lookup_foldl_adjust_same rdm.identities Identity.toProtobuf ids
    (f := fun identity => { identity with toMembership := f identity.toMembership }) (fun _ => rfl)
  unfold contents adjustEach
  simp [hsame]

theorem contents_insert_policy (rdm : RouterDataModel) (p : Id) (policy : ServicePolicy) :
    contents { rdm with servicePolicies := rdm.servicePolicies.insert p policy } =
      { contents rdm with policy := update (contents rdm).policy p (some policy.toProtobuf) } := by
  unfold contents
  simp [map_lookup_insert]

theorem contents_erase_policy (rdm : RouterDataModel) (subs : Subscribers) (p : Id) :
    contents { rdm with subs := subs, servicePolicies := rdm.servicePolicies.erase p } =
      { contents rdm with policy := update (contents rdm).policy p none } := by
  unfold contents
  simp [map_lookup_erase]

variable {model : DataStateServicePolicy}

theorem contents_applyUpdateServicePolicyEvent :
    contents (applyUpdateServicePolicyEvent index rdm model) =
      { contents rdm with policy := update (contents rdm).policy model.id (some model) } := by
  unfold applyUpdateServicePolicyEvent
  cases rdm.servicePolicies.lookup model.id with
  | none => exact contents_insert_policy rdm model.id _
  | some old =>
    by_cases ht : old.policyType = model.policyType
    · simp only [ht]
      exact contents_insert_policy rdm model.id _
    · simp only [ht]
      refine (contents_insert_policy { rdm with identities := adjustEach _ _ _ } model.id _).trans ?_
      exact congrArg (fun c => { c with policy := update c.policy model.id (some model) })
        (contents_setMemberships (fun m => (m.removedFromPolicy old index).addedToPolicy _ index))

theorem contents_applyDeleteServicePolicyEvent :
    contents (applyDeleteServicePolicyEvent index rdm model) =
      { contents rdm with policy := update (contents rdm).policy model.id none } := by
  unfold applyDeleteServicePolicyEvent
  cases hp : rdm.servicePolicies.lookup model.id with
  | none =>
    have hnone : (contents rdm).policy model.id = none := by simp [contents, hp]
    rw [Function.update_eq_self_iff.mpr hnone.symm]
  | some old =>
    refine (contents_erase_policy { rdm with identities := adjustEach _ _ _ } _ model.id).trans ?_
    exact congrArg (fun c => { c with policy := update c.policy model.id none })
      (contents_setMemberships (fun m => m.removedFromPolicy old index))

theorem contents_handleServicePolicyEvent :
    contents (handleServicePolicyEvent index rdm action model) =
      { contents rdm with
        policy := update (contents rdm).policy model.id (if action = .delete then none else some model) } := by
  cases action with
  | create => exact contents_applyUpdateServicePolicyEvent
  | update => exact contents_applyUpdateServicePolicyEvent
  | delete => exact contents_applyDeleteServicePolicyEvent

/-- Every table is keyed by the ids of what it holds. -/
structure Keyed (c : Contents) : Prop where
  configType : ∀ k x, c.configType k = some x → x.id = k
  config : ∀ k x, c.config k = some x → x.id = k
  identity : ∀ k x, c.identity k = some x → x.id = k
  service : ∀ k x, c.service k = some x → x.id = k
  policy : ∀ k x, c.policy k = some x → x.id = k
  check : ∀ k x, c.check k = some x → x.id = k
  publicKey : ∀ k x, c.publicKey k = some x → x.kid = k

theorem keyed_new {timelineId : String} : Keyed (contents (newReceiverRouterDataModel timelineId index)) := by
  constructor <;> intro k x h <;> cases h

theorem keyed_update {W : Type} {id : W → Id} {f : Id → Option W} (hf : ∀ k x, f k = some x → id x = k) {k₀ : Id}
    {w : Option W} (hw : ∀ x, w = some x → id x = k₀) (k : Id) (x : W)
    (h : update f k₀ w k = some x) : id x = k := by
  rw [Function.update_apply] at h
  split at h
  · rename_i heq
    rw [heq]
    exact hw x h
  · exact hf k x h

theorem eq_of_ite_some {W : Type} {c : Prop} [Decidable c] {model x : W}
    (h : (if c then none else some model) = some x) : model = x := by
  split at h
  · cases h
  · exact Option.some.inj h

theorem keyed_adjust_identity (h : Keyed (contents rdm)) (i : Id) {f : Identity → Identity}
    (hf : ∀ identity, (f identity).id = identity.id) :
    Keyed (contents { rdm with identities := adjust rdm.identities i f }) := by
  refine { h with identity := fun k x hx => ?_ }
  obtain ⟨identity', hlook, rfl⟩ := map_eq_some_iff.mp hx
  simp only [lookup_adjust] at hlook
  have hkey : ∀ identity, rdm.identities.lookup k = some identity → identity.id = k := by
    intro identity hid
    exact h.identity k identity.toProtobuf (by simp [contents, hid])
  split at hlook
  · obtain ⟨identity, hid, rfl⟩ := map_eq_some_iff.mp hlook
    exact (hf identity).trans (hkey identity hid)
  · exact hkey identity' hlook

theorem keyed_handleConfigEvent (h : Keyed (contents rdm))
    {model : DataStateConfig} : Keyed (contents (handleConfigEvent index rdm action model)) := by
  by_cases ha : action = .delete
  · unfold handleConfigEvent
    simp only [ha, if_true]
    cases hc : rdm.configs.lookup model.id with
    | none => exact h
    | some config =>
      have hdrop : ∀ (ids : List Id) (rdm' : RouterDataModel), Keyed (contents rdm') →
          Keyed (contents (ids.foldl (fun rdm i => notifyIdentities
            { rdm with
              identities := adjust rdm.identities i (fun identity =>
                { identity with serviceConfigs := dropConfig config.id identity.serviceConfigs }) } [i]) rdm')) := by
        intro ids
        induction ids with
        | nil => exact fun rdm' h' => h'
        | cons i ids ih => exact fun rdm' h' => ih _ (keyed_adjust_identity h' i (fun _ => rfl))
      have hnotified : Keyed (contents (config.services.keys.foldl (notifyServiceOfConfigChange index) rdm)) := by
        rw [contents_foldl contents_notifyServiceOfConfigChange]
        exact h
      have hkeyed := hdrop config.identities.keys _ hnotified
      refine { hkeyed with config := fun k x hx => ?_ }
      simp only [contents, lookup_erase_eq] at hx
      split at hx
      · cases hx
      · exact hkeyed.config k x hx
  · rw [contents_handleConfigEvent_set ha]
    exact { h with config := keyed_update h.config (fun x hx => by cases hx; rfl) }

theorem keyed_handleServiceEvent {model : DataStateService} (h : Keyed (contents rdm))
    (hs : handleServiceEvent index rdm action model = some rdm') : Keyed (contents rdm') := by
  by_cases ha : action = .delete
  · rw [ha] at hs
    rw [contents_handleServiceEvent_delete hs]
    exact { h with service := keyed_update h.service (fun x hx => by cases hx) }
  · rw [contents_handleServiceEvent_set ha hs]
    exact { h with service := keyed_update h.service (fun x hx => by cases hx; rfl) }

theorem keyed_handle {event : Event} (h : Keyed (contents rdm)) (hs : handle index rdm event = some rdm') :
    Keyed (contents rdm') := by
  obtain ⟨action, synthetic, model⟩ := event
  cases model with
  | configType model =>
    cases hs
    rw [contents_handleConfigTypeEvent]
    exact { h with configType := keyed_update h.configType (fun x hx => by rw [eq_of_ite_some hx]) }
  | config model =>
    cases hs
    exact keyed_handleConfigEvent h
  | publicKey model =>
    cases hs
    refine ⟨h.configType, h.config, h.identity, h.service, h.policy, h.check, fun k x hx => ?_⟩
    simp only [handlePublicKeyEvent] at hx
    split at hx
    · exact forall_erase h.publicKey k x hx
    · exact forall_insert h.publicKey rfl k x hx
  | revocation model =>
    cases hs
    exact ⟨h.configType, h.config, h.identity, h.service, h.policy, h.check, h.publicKey⟩
  | identity model =>
    rw [contents_handleIdentityEvent hs]
    exact { h with identity := keyed_update h.identity (fun x hx => by rw [eq_of_ite_some hx]) }
  | service model => exact keyed_handleServiceEvent h hs
  | postureCheck model =>
    rw [contents_handlePostureCheckEvent hs]
    exact { h with check := keyed_update h.check (fun x hx => by rw [eq_of_ite_some hx]) }
  | servicePolicy model =>
    cases hs
    rw [contents_handleServicePolicyEvent]
    exact { h with policy := keyed_update h.policy (fun x hx => by rw [eq_of_ite_some hx]) }
  | servicePolicyChange model =>
    rw [contents_handleServicePolicyChange hs]
    exact h

end Zt.RouterContents
