import Mathlib.Data.String.Basic
import Mathlib.Data.List.Sort
import Zt.RouterModel

namespace Zt.RouterHandlers

open Tables EdgeCtrl RouterModel
open RouterModel.Membership (servicesAddedToPolicy servicesRemovedFromPolicy servicesChangedInPolicy
  postureChecksAddedToPolicy postureChecksRemovedFromPolicy postureChecksChangedInPolicy)

variable (rdm : RouterDataModel)

/-- Tell the subscribers of those identities that exist. -/
def notifyIdentities (identityIds : List Id) : RouterDataModel :=
  { rdm with
    subs := identityIds.foldl (fun subs i => if i ∈ rdm.identities then subs.queueSyncCheck i else subs)
      rdm.subs }

/-- The two notifications of a policy differ in the index they raise. -/
def notifyServicePolicy (servicePolicyId : Id) (raise : ServicePolicy → ServicePolicy) : RouterDataModel :=
  match rdm.servicePolicies.lookup servicePolicyId with
  | none => rdm
  | some servicePolicy =>
    notifyIdentities
      { rdm with servicePolicies := rdm.servicePolicies.insert servicePolicyId (raise servicePolicy) }
      servicePolicy.identities.keys

variable (index : UInt64)

def raiseServicesIndex (p : ServicePolicy) : ServicePolicy :=
  if p.servicesIndex < index then { p with servicesIndex := index } else p

def raisePostureChecksIndex (p : ServicePolicy) : ServicePolicy :=
  if p.postureChecksIndex < index then { p with postureChecksIndex := index } else p

def notifyServicePolicyServiceChange (rdm : RouterDataModel) (servicePolicyId : Id) : RouterDataModel :=
  notifyServicePolicy rdm servicePolicyId (raiseServicesIndex index)

def notifyServicePolicyPostureChecksChange (rdm : RouterDataModel) (servicePolicyId : Id) : RouterDataModel :=
  notifyServicePolicy rdm servicePolicyId (raisePostureChecksIndex index)

def notifyServiceOfConfigChange (rdm : RouterDataModel) (serviceId : Id) : RouterDataModel :=
  match rdm.services.lookup serviceId with
  | none => rdm
  | some service =>
    let rdm := if service.index < index then
        { rdm with services := rdm.services.insert serviceId { service with index := index } }
      else rdm
    service.servicePolicies.keys.foldl (notifyServicePolicyServiceChange index) rdm

def getReferencedConfigs (serviceConfigs : IdTable (IdTable Id)) : List Id :=
  ((pairs serviceConfigs).flatMap (fun p => (pairs p.2).map Prod.snd)).dedup

variable (configs : IdTable Config)

def removeConfigReferences (identity : DataStateIdentity) : IdTable Config :=
  (getReferencedConfigs identity.serviceConfigs).foldl
    (fun configs c => adjust configs c (fun config => { config with identities := config.identities.erase identity.id }))
    configs

def addConfigReferences (identity : DataStateIdentity) : IdTable Config :=
  (getReferencedConfigs identity.serviceConfigs).foldl
    (fun configs c =>
      adjust configs c (fun config => { config with identities := config.identities.insert identity.id () }))
    configs

/-- The member sets of a policy are changed in place; a link to an identity is
made only if that identity exists. -/
def linkIdentity (policyId : Id) (add : Bool) (rdm : RouterDataModel) (i : Id) : RouterDataModel :=
  match rdm.identities.lookup i, rdm.servicePolicies.lookup policyId with
  | some identity, some policy =>
    let policy := { policy with
      identities := if add then policy.identities.insert i () else policy.identities.erase i }
    let membership := if add then identity.toMembership.addedToPolicy policy index
      else identity.toMembership.removedFromPolicy policy index
    { rdm with
      identities := rdm.identities.insert i { identity with toMembership := membership }
      servicePolicies := rdm.servicePolicies.insert policyId policy }
  | _, _ => rdm

/-- Update the identities of a policy with a function that may panic. -/
def eachIdentity (policy : ServicePolicy) (f : Membership → Option Membership) : Option RouterDataModel :=
  (adjustEachM rdm.identities policy.identities.keys (fun identity =>
    (f identity.toMembership).map (fun m => { identity with toMembership := m }))).map
    (fun identities => { rdm with identities := identities })

def linkServices (policyId : Id) (ids : List Id) (add : Bool) (services : IdTable Service) : IdTable Service :=
  ids.foldl
    (fun services s => adjust services s (fun service =>
      { service with
        servicePolicies := if add then service.servicePolicies.insert policyId ()
          else service.servicePolicies.erase policyId }))
    services

def linkPostureChecks (policyId : Id) (ids : List Id) (add : Bool) (checks : IdTable PostureCheck) :
    IdTable PostureCheck :=
  ids.foldl
    (fun checks c => adjust checks c (fun check =>
      { check with
        servicePolicies := if add then check.servicePolicies.insert policyId ()
          else check.servicePolicies.erase policyId }))
    checks

def setAll (s : IdSet) (ids : List Id) (add : Bool) : IdSet := if add then addAll s ids else removeAll s ids

/-- The branches on whether members come or go. -/
def countServices (add : Bool) := if add then servicesAddedToPolicy else servicesRemovedFromPolicy

def countChecks (add : Bool) := if add then postureChecksAddedToPolicy else postureChecksRemovedFromPolicy

theorem countServices_eq (add : Bool) : countServices add = servicesChangedInPolicy add := by
  cases add <;> rfl

theorem countChecks_eq (add : Bool) : countChecks add = postureChecksChangedInPolicy add := by
  cases add <;> rfl

/-- The checks of a policy count for its identities only while the policy has
services, so they are counted in or out when the services appear or go. -/
def settleServices (ids : List Id) (add : Bool) (rdm : RouterDataModel) (policy : ServicePolicy) :
    Option RouterDataModel :=
  let changed := { policy with services := setAll policy.services ids add }
  let rdm := { rdm with services := linkServices policy.id ids add rdm.services }
  let appeared := isEmpty policy.services && !isEmpty changed.services
  let gone := !isEmpty policy.services && isEmpty changed.services
  if if add then appeared else gone then
    eachIdentity rdm changed (fun m => countChecks add m changed changed.postureChecks.keys index)
  else some rdm

def changeServices (policyId : Id) (ids : List Id) (add : Bool) (rdm : RouterDataModel)
    (policy : ServicePolicy) : Option RouterDataModel := do
  let rdm ← eachIdentity rdm policy (fun m => some (countServices add m policy ids index))
  let changed := { policy with services := setAll policy.services ids add }
  settleServices index ids add { rdm with servicePolicies := rdm.servicePolicies.insert policyId changed } policy

def countPostureChecks (ids : List Id) (add : Bool) (rdm : RouterDataModel)
    (policy : ServicePolicy) : Option RouterDataModel :=
  if isEmpty policy.services then some rdm
  else eachIdentity rdm policy (fun m => countChecks add m policy ids index)

def changePostureChecks (policyId : Id) (ids : List Id) (add : Bool) (rdm : RouterDataModel)
    (policy : ServicePolicy) : Option RouterDataModel :=
  (countPostureChecks index ids add rdm policy).map (fun rdm =>
    { rdm with
      servicePolicies := rdm.servicePolicies.insert policyId
        { policy with postureChecks := setAll policy.postureChecks ids add }
      postureChecks := linkPostureChecks policy.id ids add rdm.postureChecks })

/-- The new policy value differs from the old one, apart from its member sets,
only in the index of what was changed. -/
def setIndexes (relatedEntityType : RelatedEntityType) (policy : ServicePolicy) : ServicePolicy :=
  match relatedEntityType with
  | .relatedService => { policy with servicesIndex := index }
  | .relatedPostureCheck => { policy with postureChecksIndex := index }
  | _ => policy

def changeMembers (model : DataStateServicePolicyChange) (rdm : RouterDataModel)
    (policy : ServicePolicy) : Option RouterDataModel :=
  match model.relatedEntityType with
  | .relatedIdentity => some (model.relatedEntityIds.foldl (linkIdentity index model.policyId model.add) rdm)
  | .relatedService => changeServices index model.policyId model.relatedEntityIds model.add rdm policy
  | .relatedPostureCheck => changePostureChecks index model.policyId model.relatedEntityIds model.add rdm policy
  | .invalidRelatedType => some rdm

def finishChange (model : DataStateServicePolicyChange) (rdm : RouterDataModel) : RouterDataModel :=
  let rdm := { rdm with
    servicePolicies := adjust rdm.servicePolicies model.policyId (setIndexes index model.relatedEntityType) }
  let identities := ((rdm.servicePolicies.lookup model.policyId).map (·.identities.keys)).getD []
  let additional := if model.relatedEntityType = .relatedIdentity ∧ model.add = false then model.relatedEntityIds
    else []
  notifyIdentities (notifyIdentities rdm identities) additional

def handleServicePolicyChange (rdm : RouterDataModel) (model : DataStateServicePolicyChange) :
    Option RouterDataModel :=
  match rdm.servicePolicies.lookup model.policyId with
  | none => some rdm
  | some policy => (changeMembers index model rdm policy).map (finishChange index model)

/-- The changes that unlink an entity which is about to go from those of the
given policies that have it. -/
def cleanupActions (policyIds : List Id) (relatedEntityType : RelatedEntityType) (id : Id)
    (members : ServicePolicy → IdSet) : List DataStateServicePolicyChange :=
  (policyIds.filter (fun p => (rdm.servicePolicies.lookup p).any (fun policy => id ∈ members policy))).map
    (fun p => { policyId := p, relatedEntityIds := [id], relatedEntityType := relatedEntityType, add := false })

def unlinkIdentity (index : UInt64) (rdm : RouterDataModel) (id : Id) : Option RouterDataModel :=
  match rdm.identities.lookup id with
  | none => some rdm
  | some identity =>
    (cleanupActions rdm identity.servicePolicies.keys .relatedIdentity id (·.identities)).foldlM
      (handleServicePolicyChange index)
      { rdm with configs := removeConfigReferences rdm.configs identity.toDataStateIdentity }

def deleteIdentity (rdm : RouterDataModel) (id : Id) : Option RouterDataModel :=
  (unlinkIdentity index rdm id).map (fun rdm => { rdm with identities := rdm.identities.erase id })

def setIdentity (index : UInt64) (rdm : RouterDataModel) (model : DataStateIdentity) : RouterDataModel :=
  let identity : Identity := { model with identityIndex := index, stamp := rdm.nextStamp }
  match rdm.identities.lookup model.id with
  | none =>
    { rdm with
      identities := rdm.identities.insert model.id identity
      configs := addConfigReferences rdm.configs model
      nextStamp := rdm.nextStamp + 1 }
  | some valueInMap =>
    let identity := { identity with toMembership := valueInMap.toMembership }
    { rdm with
      identities := rdm.identities.insert model.id identity
      configs := addConfigReferences (removeConfigReferences rdm.configs valueInMap.toDataStateIdentity) model
      nextStamp := rdm.nextStamp + 1 }

def queueIdentityCheck (action : Action) (rdm : RouterDataModel) (id : Id) : RouterDataModel :=
  { rdm with
    subs := match action with
      | .create => rdm.subs.queueNewIdentitySubCheck id
      | .update => rdm.subs.queueSyncCheck id
      | .delete => rdm.subs.queueIdentityDeletedSubCheck id }

def applyIdentityEvent (rdm : RouterDataModel) (action : Action) (model : DataStateIdentity) :
    Option RouterDataModel :=
  if action = .delete then deleteIdentity index rdm model.id else some (setIdentity index rdm model)

def handleIdentityEvent (rdm : RouterDataModel) (action : Action) (model : DataStateIdentity) :
    Option RouterDataModel :=
  (applyIdentityEvent index rdm action model).map (fun rdm => queueIdentityCheck action rdm model.id)

def mergeDiff : List String → List String → List String × List String
  | [], ys => ([], ys)
  | xs, [] => (xs, [])
  | x :: xs, y :: ys =>
    if x < y then
      let (a, b) := mergeDiff xs (y :: ys)
      (x :: a, b)
    else if y < x then
      let (a, b) := mergeDiff (x :: xs) ys
      (a, y :: b)
    else mergeDiff xs ys

/-- What is only in the first and only in the second list, and the two lists,
which are sorted in place. -/
def diffStringSlices (slice1 slice2 : List String) : (List String × List String) × List String × List String :=
  let slice1 := slice1.insertionSort (· ≤ ·)
  let slice2 := slice2.insertionSort (· ≤ ·)
  (mergeDiff slice1 slice2, slice1, slice2)

def removeFromConfigs (serviceId : Id) (configIds : List Id) : IdTable Config :=
  configIds.foldl
    (fun configs c => adjust configs c (fun config => { config with services := config.services.erase serviceId }))
    configs

def addToConfigs (serviceId : Id) (configIds : List Id) : IdTable Config :=
  configIds.foldl
    (fun configs c => adjust configs c (fun config => { config with services := config.services.insert serviceId () }))
    configs

def handleServiceEvent (index : UInt64) (rdm : RouterDataModel) (action : Action) (model : DataStateService) :
    Option RouterDataModel :=
  if action = .delete then
    match rdm.services.lookup model.id with
    | none => some rdm
    | some service =>
      (cleanupActions rdm service.servicePolicies.keys .relatedService model.id (·.services)).foldlM
        (handleServicePolicyChange index)
        { rdm with
          configs := removeFromConfigs rdm.configs model.id service.configs
          services := rdm.services.erase model.id }
  else
    let updated : Service := {
      id := model.id
      name := model.name
      encryptionRequired := model.encryptionRequired
      configs := model.configs
      index := index }
    let (updated, configs) := match rdm.services.lookup model.id with
      | none => (updated, addToConfigs rdm.configs model.id model.configs)
      | some service =>
        let ((toRemove, toAdd), _, sorted) := diffStringSlices service.configs model.configs
        ({ updated with configs := sorted, servicePolicies := service.servicePolicies },
          addToConfigs (removeFromConfigs rdm.configs model.id toRemove) model.id toAdd)
    let rdm := { rdm with services := rdm.services.insert model.id updated, configs := configs }
    some (updated.servicePolicies.keys.foldl (notifyServicePolicyServiceChange index) rdm)

def notifyConfigUsers (rdm : RouterDataModel) (config : Config) : RouterDataModel :=
  notifyIdentities (config.services.keys.foldl (notifyServiceOfConfigChange index) rdm) config.identities.keys

def handleConfigTypeEvent (index : UInt64) (rdm : RouterDataModel) (action : Action) (model : DataStateConfigType) :
    RouterDataModel :=
  if action = .delete then { rdm with configTypes := rdm.configTypes.erase model.id }
  else
    let configType : ConfigType := { id := model.id, name := model.name, index := index }
    let rdm := { rdm with configTypes := rdm.configTypes.insert model.id configType }
    ((pairs rdm.configs).filter (fun c => c.2.typeId = model.id)).foldl
      (fun rdm c => notifyConfigUsers index rdm c.2) rdm

/-- Drop a config from the overrides of an identity, and the services that are
left without any. -/
def dropConfig (configId : Id) (serviceConfigs : IdTable (IdTable Id)) : IdTable (IdTable Id) :=
  serviceConfigs.keys.foldl
    (fun serviceConfigs s =>
      match serviceConfigs.lookup s with
      | none => serviceConfigs
      | some configs =>
        let configs := removeAll configs (((pairs configs).filter (fun c => c.2 = configId)).map Prod.fst)
        if isEmpty configs then serviceConfigs.erase s else serviceConfigs.insert s configs)
    serviceConfigs

def handleConfigEvent (index : UInt64) (rdm : RouterDataModel) (action : Action) (model : DataStateConfig) :
    RouterDataModel :=
  if action = .delete then
    match rdm.configs.lookup model.id with
    | none => rdm
    | some config =>
      let rdm := config.services.keys.foldl (notifyServiceOfConfigChange index) rdm
      let rdm := config.identities.keys.foldl
        (fun rdm i =>
          notifyIdentities
            { rdm with
              identities := adjust rdm.identities i (fun identity =>
                { identity with serviceConfigs := dropConfig config.id identity.serviceConfigs }) }
            [i])
        rdm
      { rdm with configs := rdm.configs.erase model.id }
  else
    let result : Config := {
      id := model.id
      typeId := model.typeId
      name := model.name
      dataJson := model.dataJson
      index := index }
    match rdm.configs.lookup model.id with
    | none => { rdm with configs := rdm.configs.insert model.id result }
    | some valueInMap =>
      let result := { result with services := valueInMap.services, identities := valueInMap.identities }
      let rdm := if result.toProtobuf = valueInMap.toProtobuf then rdm else notifyConfigUsers index rdm result
      { rdm with configs := rdm.configs.insert model.id result }

def applyUpdateServicePolicyEvent (rdm : RouterDataModel) (model : DataStateServicePolicy) : RouterDataModel :=
  let updatedValue : ServicePolicy :=
    { id := model.id, name := model.name, policyType := model.policyType, servicesIndex := index }
  match rdm.servicePolicies.lookup model.id with
  | none => { rdm with servicePolicies := rdm.servicePolicies.insert model.id updatedValue }
  | some valueInMap =>
    let updatedValue := { updatedValue with
      services := valueInMap.services
      postureChecks := valueInMap.postureChecks
      identities := valueInMap.identities }
    let identities := if valueInMap.policyType = model.policyType then rdm.identities
      else adjustEach rdm.identities valueInMap.identities.keys (fun identity =>
        { identity with
          toMembership := (identity.toMembership.removedFromPolicy valueInMap index).addedToPolicy updatedValue index })
    { rdm with
      identities := identities
      servicePolicies := rdm.servicePolicies.insert model.id updatedValue }

def applyDeleteServicePolicyEvent (rdm : RouterDataModel) (model : DataStateServicePolicy) : RouterDataModel :=
  match rdm.servicePolicies.lookup model.id with
  | none => rdm
  | some policy =>
    { rdm with
      identities := adjustEach rdm.identities policy.identities.keys (fun identity =>
        { identity with toMembership := identity.toMembership.removedFromPolicy policy index })
      subs := policy.identities.keys.foldl Subscribers.queueSyncCheck rdm.subs
      servicePolicies := rdm.servicePolicies.erase model.id }

def handleServicePolicyEvent (rdm : RouterDataModel) (action : Action)
    (model : DataStateServicePolicy) : RouterDataModel :=
  match action with
  | .create => applyUpdateServicePolicyEvent index rdm model
  | .update => applyUpdateServicePolicyEvent index rdm model
  | .delete => applyDeleteServicePolicyEvent index rdm model

def unlinkPostureCheck (rdm : RouterDataModel) (id : Id) : Option RouterDataModel :=
  match rdm.postureChecks.lookup id with
  | none => some rdm
  | some check =>
    (cleanupActions rdm check.servicePolicies.keys .relatedPostureCheck id (·.postureChecks)).foldlM
      (handleServicePolicyChange index) rdm

def handlePostureCheckEvent (rdm : RouterDataModel) (action : Action)
    (model : DataStatePostureCheck) : Option RouterDataModel :=
  if action = .delete then
    (unlinkPostureCheck index rdm model.id).map (fun rdm =>
      { rdm with postureChecks := rdm.postureChecks.erase model.id })
  else
    let servicePolicies := ((rdm.postureChecks.lookup model.id).map (·.servicePolicies)).getD ∅
    let check : PostureCheck := { data := model, servicePolicies := servicePolicies, index := index }
    let rdm := { rdm with postureChecks := rdm.postureChecks.insert model.id check }
    some (servicePolicies.keys.foldl (notifyServicePolicyPostureChecksChange index) rdm)

def handlePublicKeyEvent (action : Action) (model : DataStatePublicKey) : RouterDataModel :=
  { rdm with
    publicKeys := if action = .delete then rdm.publicKeys.erase model.kid
      else rdm.publicKeys.insert model.kid model }

def handleRevocationEvent (action : Action) (model : DataStateRevocation) : RouterDataModel :=
  { rdm with
    revocations := if action = .delete then rdm.revocations.erase model.id
      else rdm.revocations.insert model.id model }

def handle (rdm : RouterDataModel) (event : Event) : Option RouterDataModel :=
  match event.model with
  | .configType model => some (handleConfigTypeEvent index rdm event.action model)
  | .config model => some (handleConfigEvent index rdm event.action model)
  | .identity model => handleIdentityEvent index rdm event.action model
  | .service model => handleServiceEvent index rdm event.action model
  | .servicePolicy model => some (handleServicePolicyEvent index rdm event.action model)
  | .postureCheck model => handlePostureCheckEvent index rdm event.action model
  | .publicKey model => some (handlePublicKeyEvent rdm event.action model)
  | .revocation model => some (handleRevocationEvent rdm event.action model)
  | .servicePolicyChange model => handleServicePolicyChange index rdm model

/-- Out of order change sets are refused and leave the model as it is. -/
def applyChangeSet (change : ChangeSet) : Option RouterDataModel :=
  if change.isSynthetic then change.changes.foldlM (handle change.index) rdm
  else if rdm.index > 0 ∧ rdm.index ≥ change.index then some rdm
  else change.changes.foldlM (handle change.index) { rdm with index := change.index }

end Zt.RouterHandlers
