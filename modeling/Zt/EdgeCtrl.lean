import Zt.Tables

namespace Zt.EdgeCtrl

open Tables

abbrev Id := String
abbrev IdTable (V : Type) := Table Id V
abbrev IdSet := KeySet Id

inductive Action
  | create
  | update
  | delete
  deriving DecidableEq

inductive PolicyType
  | invalidPolicy
  | dialPolicy
  | bindPolicy
  deriving DecidableEq

inductive RelatedEntityType
  | invalidRelatedType
  | relatedService
  | relatedIdentity
  | relatedPostureCheck
  deriving DecidableEq

inductive TerminatorPrecedence
  | default
  | required
  | failed

structure DataStateConfigType where
  id : Id
  name : String

structure DataStateConfig where
  id : Id
  typeId : Id
  name : String
  dataJson : String
  deriving DecidableEq

structure DataStateIdentity where
  id : Id
  name : String := ""
  defaultHostingPrecedence : TerminatorPrecedence := .default
  defaultHostingCost : UInt32 := 0
  serviceHostingPrecedences : IdTable TerminatorPrecedence := ∅
  serviceHostingCosts : IdTable UInt32 := ∅
  appDataJson : List UInt8 := []
  /-- service id to config type id to config id -/
  serviceConfigs : IdTable (IdTable Id) := ∅
  disabled : Bool := false

structure DataStateService where
  id : Id
  name : String := ""
  encryptionRequired : Bool := false
  configs : List Id := []

structure DataStateServicePolicy where
  id : Id
  name : String := ""
  policyType : PolicyType

structure MacCheck where
  macAddresses : List String

structure MfaCheck where
  timeoutSeconds : Int
  promptOnWake : Bool
  promptOnUnlock : Bool
  ignoreLegacyEndpoints : Bool
  deriving DecidableEq

structure OsEntry where
  osType : String
  osVersions : List String

structure ProcessEntry where
  osType : String
  path : String
  hashes : List String
  fingerprints : List String

structure ProcessMulti where
  semantic : String
  processes : List ProcessEntry

inductive PostureCheckSubtype
  | mac (check : MacCheck)
  | mfa (check : MfaCheck)
  | osList (osList : List OsEntry)
  | process (process : ProcessEntry)
  | processMulti (check : ProcessMulti)
  | domains (domains : List String)

structure DataStatePostureCheck where
  id : Id
  name : String := ""
  typeId : String := ""
  subtype : Option PostureCheckSubtype := none

structure DataStatePublicKey where
  data : List UInt8 := []
  kid : String
  usages : List Nat := []
  format : Nat := 0

structure DataStateRevocation where
  id : Id
  /-- nanoseconds since the epoch -/
  expiresAt : Option Int := none

structure DataStateServicePolicyChange where
  policyId : Id
  relatedEntityIds : List Id
  relatedEntityType : RelatedEntityType
  add : Bool
  deriving DecidableEq

inductive EventModel
  | identity (identity : DataStateIdentity)
  | service (service : DataStateService)
  | servicePolicy (servicePolicy : DataStateServicePolicy)
  | postureCheck (postureCheck : DataStatePostureCheck)
  | publicKey (publicKey : DataStatePublicKey)
  | revocation (revocation : DataStateRevocation)
  | servicePolicyChange (change : DataStateServicePolicyChange)
  | configType (configType : DataStateConfigType)
  | config (config : DataStateConfig)

structure Event where
  action : Action := .create
  isSynthetic : Bool := false
  model : EventModel

structure ChangeSet where
  index : UInt64
  isSynthetic : Bool := false
  changes : List Event := []

/-- A full model state: the events that rebuild it, the index it was taken at
and the timeline of the database it came from. -/
structure DataState where
  events : List Event
  endIndex : UInt64
  timelineId : String
  terminatorIds : Option (IdTable String) := none

end Zt.EdgeCtrl
