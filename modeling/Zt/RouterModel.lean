import Zt.EdgeCtrl

namespace Zt.RouterModel

open Tables EdgeCtrl

structure ServiceAccess where
  dialPoliciesCount : Int := 0
  bindPoliciesCount : Int := 0
  dialPoliciesIndex : UInt64 := 0
  bindPoliciesIndex : UInt64 := 0

structure ConfigType where
  id : Id
  name : String
  index : UInt64

structure Config where
  id : Id
  typeId : Id
  name : String
  dataJson : String
  services : IdSet := ∅
  identities : IdSet := ∅
  index : UInt64

/-- What an identity keeps about the policies it is in. -/
structure Membership where
  servicePolicies : IdSet := ∅
  serviceAccess : IdTable ServiceAccess := ∅
  postureChecks : IdTable Int := ∅
  serviceAccessTrackingEnabled : Bool := false

/-- The stamp stands for the address of the object: every identity event that
is not a deletion makes a new one. -/
structure Identity extends DataStateIdentity, Membership where
  identityIndex : UInt64
  stamp : Nat

structure Service where
  id : Id
  name : String := ""
  encryptionRequired : Bool := false
  configs : List Id := []
  servicePolicies : IdSet := ∅
  index : UInt64

structure PostureCheck where
  data : DataStatePostureCheck
  servicePolicies : IdSet := ∅
  index : UInt64

structure ServicePolicy where
  id : Id
  name : String
  policyType : PolicyType
  services : IdSet := ∅
  postureChecks : IdSet := ∅
  identities : IdSet := ∅
  servicesIndex : UInt64
  postureChecksIndex : UInt64 := 0

structure IdentityConfig where
  typeId : Id
  typeName : String
  dataJson : String

structure IdentityService where
  service : Service
  configs : Table String IdentityConfig := ∅
  dialAllowed : Bool := false
  bindAllowed : Bool := false
  dialPoliciesIndex : UInt64 := 0
  bindPoliciesIndex : UInt64 := 0

/-- The identity is kept as its stamp; services and checks are none where the
code has a nil map. -/
structure IdentitySubscription where
  identityId : Id
  identity : Option Nat := none
  isRouterIdentity : Bool
  services : Option (IdTable IdentityService) := none
  checks : Option (IdTable PostureCheck) := none

/-- The three bits of the byte kept for an identity with pending checks. -/
structure CheckFlags where
  added : Bool := false
  updated : Bool := false
  deleted : Bool := false
  deriving DecidableEq

inductive SubscriberEvent
  | identityCreated (identityId : Id)
  | checkForIdentityChanges (identityId : Id)
  | identityDeleted (identityId : Id)
  | syncAllSubscribers
  deriving DecidableEq

structure Subscribers where
  subscriptions : IdTable IdentitySubscription := ∅
  updatedIdentities : IdTable CheckFlags := ∅
  events : List SubscriberEvent := []
  scanPending : Bool := false

structure RouterDataModel where
  configTypes : IdTable ConfigType := ∅
  configs : IdTable Config := ∅
  identities : IdTable Identity := ∅
  services : IdTable Service := ∅
  servicePolicies : IdTable ServicePolicy := ∅
  postureChecks : IdTable PostureCheck := ∅
  publicKeys : IdTable DataStatePublicKey := ∅
  revocations : IdTable DataStateRevocation := ∅
  terminatorIdCache : IdTable String := ∅
  subs : Subscribers := {}
  timelineId : String
  index : UInt64
  nextStamp : Nat := 0

def newReceiverRouterDataModel (timelineId : String) (index : UInt64) : RouterDataModel :=
  { timelineId := timelineId, index := index }

namespace ServicePolicy

def isDial (p : ServicePolicy) : Bool := p.policyType = .dialPolicy

def isBind (p : ServicePolicy) : Bool := p.policyType = .bindPolicy

def toProtobuf (p : ServicePolicy) : DataStateServicePolicy :=
  { id := p.id, name := p.name, policyType := p.policyType }

end ServicePolicy

def ConfigType.toProtobuf (c : ConfigType) : DataStateConfigType := { id := c.id, name := c.name }

def Config.toProtobuf (c : Config) : DataStateConfig :=
  { id := c.id, typeId := c.typeId, name := c.name, dataJson := c.dataJson }

def Service.toProtobuf (s : Service) : DataStateService :=
  { id := s.id, name := s.name, encryptionRequired := s.encryptionRequired, configs := s.configs }

def Identity.toProtobuf (i : Identity) : DataStateIdentity := i.toDataStateIdentity

namespace ServiceAccess

variable (a : ServiceAccess)

def updateServicePolicies (policy : ServicePolicy) (index : UInt64) (add : Bool) : ServiceAccess :=
  let change : Int := if add then 1 else -1
  if policy.isDial then
    { a with
      dialPoliciesCount := a.dialPoliciesCount + change
      dialPoliciesIndex := if index > a.dialPoliciesIndex then index else a.dialPoliciesIndex }
  else if policy.isBind then
    { a with
      bindPoliciesCount := a.bindPoliciesCount + change
      bindPoliciesIndex := if index > a.bindPoliciesIndex then index else a.bindPoliciesIndex }
  else a

def updatePostureChecksIndex (policy : ServicePolicy) (index : UInt64) : ServiceAccess :=
  if policy.isDial then
    { a with dialPoliciesIndex := if index > a.dialPoliciesIndex then index else a.dialPoliciesIndex }
  else if policy.isBind then
    { a with bindPoliciesIndex := if index > a.bindPoliciesIndex then index else a.bindPoliciesIndex }
  else a

def isDialAllowed : Bool := a.dialPoliciesCount > 0

def isBindAllowed : Bool := a.bindPoliciesCount > 0

def hasAccess : Bool := a.isDialAllowed || a.isBindAllowed

end ServiceAccess

def updateServiceCount (access : IdTable ServiceAccess) (policy : ServicePolicy) (serviceId : Id) (index : UInt64)
    (add : Bool) : IdTable ServiceAccess :=
  let current := ((access.lookup serviceId).getD {}).updateServicePolicies policy index add
  if current.hasAccess then access.insert serviceId current else access.erase serviceId

def incrementUseCount (m : IdTable Int) (id : Id) : IdTable Int := m.insert id ((m.lookup id).getD 0 + 1)

def decrementUseCount (m : IdTable Int) (id : Id) : IdTable Int :=
  match m.lookup id with
  | none => m
  | some currentValue => if currentValue - 1 < 1 then m.erase id else m.insert id (currentValue - 1)

/-- The use of a missing access entry is a nil dereference unless the policy is
of neither type. -/
def touchAccess (policy : ServicePolicy) (index : UInt64) (access : IdTable ServiceAccess) (serviceId : Id) :
    Option (IdTable ServiceAccess) :=
  match access.lookup serviceId with
  | some a => some (access.insert serviceId (a.updatePostureChecksIndex policy index))
  | none => if policy.isDial || policy.isBind then none else some access

namespace Membership

def updateServiceCounts (m : Membership) (policy : ServicePolicy) (serviceIds : List Id) (index : UInt64)
    (add : Bool) : Membership :=
  { m with
    serviceAccess := serviceIds.foldl (fun access s => updateServiceCount access policy s index add)
      m.serviceAccess }

def addedToPolicy (m : Membership) (policy : ServicePolicy) (index : UInt64) : Membership :=
  if policy.id ∈ m.servicePolicies then m
  else
    let m := { m with servicePolicies := m.servicePolicies.insert policy.id () }
    let m := if m.serviceAccessTrackingEnabled then m.updateServiceCounts policy policy.services.keys index true
      else m
    if isEmpty policy.services then m
    else { m with postureChecks := policy.postureChecks.keys.foldl incrementUseCount m.postureChecks }

def removedFromPolicy (m : Membership) (policy : ServicePolicy) (index : UInt64) : Membership :=
  if policy.id ∈ m.servicePolicies then
    let m := { m with servicePolicies := m.servicePolicies.erase policy.id }
    let m := if m.serviceAccessTrackingEnabled then m.updateServiceCounts policy policy.services.keys index false
      else m
    if isEmpty policy.services then m
    else { m with postureChecks := policy.postureChecks.keys.foldl decrementUseCount m.postureChecks }
  else m

def servicesChangedInPolicy (add : Bool) (m : Membership) (policy : ServicePolicy) (serviceIds : List Id)
    (index : UInt64) : Membership :=
  if m.serviceAccessTrackingEnabled && policy.id ∈ m.servicePolicies then
    m.updateServiceCounts policy serviceIds index add
  else m

def servicesAddedToPolicy := servicesChangedInPolicy true

def servicesRemovedFromPolicy := servicesChangedInPolicy false

def postureChecksChangedInPolicy (add : Bool) (m : Membership) (policy : ServicePolicy)
    (postureCheckIds : List Id) (index : UInt64) : Option Membership :=
  let count := if add then incrementUseCount else decrementUseCount
  let m := if policy.id ∈ m.servicePolicies then
      { m with postureChecks := postureCheckIds.foldl count m.postureChecks }
    else m
  if m.serviceAccessTrackingEnabled then
    (policy.services.keys.foldlM (touchAccess policy index) m.serviceAccess).map
      (fun access => { m with serviceAccess := access })
  else some m

def postureChecksAddedToPolicy := postureChecksChangedInPolicy true

def postureChecksRemovedFromPolicy := postureChecksChangedInPolicy false

end Membership

/-- A full events channel leaves only the flag and a pending scan. -/
def eventsCapacity : Nat := 250

namespace Subscribers

variable (subs : Subscribers) (identityId : Id)

def markIdentityForCheck (mark : CheckFlags → CheckFlags) : Subscribers :=
  { subs with
    updatedIdentities := subs.updatedIdentities.insert identityId
      (mark ((subs.updatedIdentities.lookup identityId).getD {})) }

def offer (event : SubscriberEvent) : Subscribers :=
  if subs.events.length < eventsCapacity then { subs with events := subs.events ++ [event] }
  else { subs with scanPending := true }

def queueCheck (mark : CheckFlags → CheckFlags) (event : SubscriberEvent) : Subscribers :=
  if identityId ∈ subs.subscriptions then (subs.markIdentityForCheck identityId mark).offer event else subs

def queueSyncCheck : Subscribers :=
  subs.queueCheck identityId (fun f => { f with updated := true }) (.checkForIdentityChanges identityId)

def queueNewIdentitySubCheck : Subscribers :=
  subs.queueCheck identityId (fun f => { f with added := true }) (.identityCreated identityId)

def queueIdentityDeletedSubCheck : Subscribers :=
  subs.queueCheck identityId (fun f => { f with deleted := true }) (.identityDeleted identityId)

end Subscribers

end Zt.RouterModel
