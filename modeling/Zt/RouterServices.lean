import Zt.RouterHandlers

namespace Zt.RouterServices

open Tables EdgeCtrl RouterModel

variable (rdm : RouterDataModel)

def loadIdentityConfig (configId : Id) : Option IdentityConfig :=
  match rdm.configs.lookup configId with
  | none => none
  | some config =>
    match rdm.configTypes.lookup config.typeId with
    | none => none
    | some configType =>
      some { typeId := configType.id, typeName := configType.name, dataJson := config.dataJson }

def loadConfigs (result : Table String IdentityConfig) (configIds : List Id) : Table String IdentityConfig :=
  configIds.foldl
    (fun result configId =>
      match loadIdentityConfig rdm configId with
      | none => result
      | some identityConfig => result.insert identityConfig.typeName identityConfig)
    result

variable (identity : Identity)

/-- The configs of a service by type name; those the identity overrides come
last. -/
def loadServiceConfigs (service : Service) : Table String IdentityConfig :=
  let result := loadConfigs rdm ∅ service.configs
  match identity.serviceConfigs.lookup service.id with
  | none => result
  | some serviceConfigs => loadConfigs rdm result ((pairs serviceConfigs).map Prod.snd)

variable (policy : ServicePolicy)

def loadServicePostureChecks (checks : IdTable PostureCheck) : IdTable PostureCheck :=
  if isEmpty policy.services then checks
  else policy.postureChecks.keys.foldl
    (fun checks c =>
      if c ∈ checks then checks
      else match rdm.postureChecks.lookup c with
        | none => checks
        | some check => checks.insert c check)
    checks

def allow (identityService : IdentityService) : IdentityService :=
  if policy.isDial then
    { identityService with
      dialAllowed := true
      dialPoliciesIndex := if policy.postureChecksIndex > identityService.dialPoliciesIndex then
        policy.postureChecksIndex else identityService.dialPoliciesIndex }
  else if policy.isBind then
    { identityService with
      bindAllowed := true
      bindPoliciesIndex := if policy.postureChecksIndex > identityService.bindPoliciesIndex then
        policy.postureChecksIndex else identityService.bindPoliciesIndex }
  else identityService

def addService (services : IdTable IdentityService) (serviceId : Id) : IdTable IdentityService :=
  match rdm.services.lookup serviceId with
  | none => services
  | some service =>
    let identityService := (services.lookup serviceId).getD
      { service := service, configs := loadServiceConfigs rdm identity service }
    services.insert serviceId (allow policy identityService)

def addPolicyServices (services : IdTable IdentityService) (policyId : Id) : IdTable IdentityService :=
  match rdm.servicePolicies.lookup policyId with
  | none => services
  | some policy => policy.services.keys.foldl (addService rdm identity policy) services

def addPolicyChecks (checks : IdTable PostureCheck) (policyId : Id) : IdTable PostureCheck :=
  match rdm.servicePolicies.lookup policyId with
  | none => checks
  | some policy => loadServicePostureChecks rdm policy checks

def buildServiceList : IdTable IdentityService × IdTable PostureCheck :=
  (identity.servicePolicies.keys.foldl (addPolicyServices rdm identity) ∅,
    identity.servicePolicies.keys.foldl (addPolicyChecks rdm) ∅)

/-- The subscription brings the id that is looked up and its own identity,
whose overrides are used. -/
def buildServiceListUsingDenormalizedData (identityId : Id) (subIdentity : Identity) :
    IdTable IdentityService × IdTable PostureCheck :=
  match rdm.identities.lookup identityId with
  | none => (∅, ∅)
  | some identity =>
    (collect identity.serviceAccess (fun serviceId access =>
        (rdm.services.lookup serviceId).map (fun service => {
          service := service
          configs := loadServiceConfigs rdm subIdentity service
          dialAllowed := access.isDialAllowed
          bindAllowed := access.isBindAllowed
          dialPoliciesIndex := access.dialPoliciesIndex
          bindPoliciesIndex := access.bindPoliciesIndex })),
      collect identity.postureChecks (fun postureCheckId _ => rdm.postureChecks.lookup postureCheckId))

def addAccess (services : IdTable ServiceAccess) (serviceId : Id) : IdTable ServiceAccess :=
  services.insert serviceId (((services.lookup serviceId).getD {}).updateServicePolicies policy
    (max policy.postureChecksIndex policy.servicesIndex) true)

def addPolicyAccess (services : IdTable ServiceAccess) (policyId : Id) : IdTable ServiceAccess :=
  match rdm.servicePolicies.lookup policyId with
  | none => services
  | some policy => policy.services.keys.foldl (addAccess policy) services

def buildServiceAccessList : IdTable ServiceAccess :=
  identity.servicePolicies.keys.foldl (addPolicyAccess rdm) ∅

def enableServiceAccessTracking (identityId : Id) : RouterDataModel :=
  { rdm with
    identities := adjust rdm.identities identityId (fun identity =>
      if identity.serviceAccessTrackingEnabled then identity
      else { identity with
        serviceAccessTrackingEnabled := true
        serviceAccess := buildServiceAccessList rdm identity }) }

def disableServiceAccessTracking (identityId : Id) : RouterDataModel :=
  { rdm with
    identities := adjust rdm.identities identityId (fun identity =>
      if identity.serviceAccessTrackingEnabled then
        { identity with serviceAccessTrackingEnabled := false, serviceAccess := ∅ }
      else identity) }

end Zt.RouterServices
