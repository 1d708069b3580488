import Zt.Mirroring
import Zt.PolicyStore
import Zt.SnapshotSync

namespace Zt.RebuildStores

open Tables Mirroring RouterSender
open EdgeCtrl (Id IdTable IdSet Event EventModel Action RelatedEntityType TerminatorPrecedence)
open EdgeCtrl (DataStateConfigType DataStateConfig DataStateIdentity DataStateService DataStateServicePolicy
  DataStatePostureCheck DataStatePublicKey DataStateRevocation)

abbrev Bytes := List UInt8

inductive Precedence
  | default
  | required
  | failed

structure ConfigType where
  id : Id
  name : String

structure Config (J : Type) where
  id : Id
  typeId : Id
  name : String
  data : Table String J

structure Identity (J : Type) where
  id : Id
  name : String
  defaultHostingPrecedence : Precedence := .default
  defaultHostingCost : UInt16 := 0
  serviceHostingPrecedences : IdTable Precedence := ∅
  serviceHostingCosts : IdTable UInt16 := ∅
  appData : Table String J := ∅
  serviceConfigs : IdTable (IdTable Id) := ∅
  disabled : Bool := false

structure EdgeService where
  id : Id
  name : String
  encryptionRequired : Bool := false
  configs : List Id := []

structure OperatingSystem where
  osType : String
  osVersions : List String

structure ProcessMulti where
  osType : String
  path : String
  hashes : List String
  signerFingerprints : List String

inductive PostureCheckSubType
  | process (operatingSystem path : String) (hashes : List String) (fingerprint : String)
  | processMulti (semantic : String) (processes : List ProcessMulti)
  | mfa (timeoutSeconds : Int) (promptOnWake promptOnUnlock ignoreLegacyEndpoints : Bool)
  | windowsDomains (domains : List String)
  | macAddresses (macAddresses : List String)
  | operatingSystem (operatingSystems : List OperatingSystem)

structure PostureCheck where
  id : Id
  name : String
  typeId : String
  subType : Option PostureCheckSubType := none

structure ServicePolicy where
  id : Id
  name : String
  policyType : PolicyStore.PolicyType

/-- A policy with what its link collections hold. -/
structure LinkedPolicy extends ServicePolicy where
  identities : IdSet := ∅
  services : IdSet := ∅
  postureChecks : IdSet := ∅

structure Controller where
  id : Id
  certPem : String

structure Ca where
  id : Id
  certPem : String

structure Revocation where
  id : Id
  expiresAt : Int

structure Stores (J : Type) where
  configTypes : IdTable ConfigType := ∅
  configs : IdTable (Config J) := ∅
  identities : IdTable (Identity J) := ∅
  services : IdTable EdgeService := ∅
  postureChecks : IdTable PostureCheck := ∅
  servicePolicies : IdTable LinkedPolicy := ∅
  controllers : IdTable Controller := ∅
  cas : IdTable Ca := ∅
  revocations : IdTable Revocation := ∅

/-- The libraries the strategy calls and the configuration it reads. A parsed
certificate is its raw bytes. -/
structure Environment (J : Type) where
  marshal : Table String J → Option String
  pemStringToCertificates : String → List Bytes
  /-- as lower case hex -/
  sha1 : Bytes → String
  isRootCa : Bytes → Bool
  serverCert : Bytes
  caPems : List Bytes

variable {J : Type}

def getPrecedence : Precedence → TerminatorPrecedence
  | .required => .required
  | .failed => .failed
  | .default => .default

variable (env : Environment J)

def newIdentity (identityModel : Identity J) : DataStateIdentity where
  id := identityModel.id
  name := identityModel.name
  defaultHostingPrecedence := getPrecedence identityModel.defaultHostingPrecedence
  defaultHostingCost := identityModel.defaultHostingCost.toUInt32
  serviceHostingPrecedences := collect identityModel.serviceHostingPrecedences (fun _ v => some (getPrecedence v))
  serviceHostingCosts := collect identityModel.serviceHostingCosts (fun _ v => some v.toUInt32)
  appDataJson := if isEmpty identityModel.appData then [] else
    ((env.marshal identityModel.appData).map (fun json => json.toUTF8.toList)).getD []
  serviceConfigs := identityModel.serviceConfigs
  disabled := identityModel.disabled

def policyTypeOf : PolicyStore.PolicyType → EdgeCtrl.PolicyType
  | .dial => .dialPolicy
  | .bind => .bindPolicy
  | .invalid => .invalidPolicy

def newServicePolicy (storeModel : ServicePolicy) : DataStateServicePolicy where
  id := storeModel.id
  name := storeModel.name
  policyType := policyTypeOf storeModel.policyType

def newConfigType (storeModel : ConfigType) : DataStateConfigType where
  id := storeModel.id
  name := storeModel.name

def newConfig (entity : Config J) : Option DataStateConfig :=
  (env.marshal entity.data).map (fun json =>
    { id := entity.id, typeId := entity.typeId, name := entity.name, dataJson := json })

def newService (storeModel : EdgeService) : DataStateService where
  id := storeModel.id
  name := storeModel.name
  encryptionRequired := storeModel.encryptionRequired
  configs := storeModel.configs

def jwtValidation : Nat := 0

def clientX509CertValidation : Nat := 1

def x509CertDer : Nat := 0

def newPublicKey (data : Bytes) (format : Nat) (usages : List Nat) : DataStatePublicKey where
  data := data
  kid := env.sha1 data
  usages := usages
  format := format

def newPostureCheck (postureModel : PostureCheck) : DataStatePostureCheck where
  id := postureModel.id
  name := postureModel.name
  typeId := postureModel.typeId
  subtype := postureModel.subType.map (fun
    | .process operatingSystem path hashes fingerprint => .process ⟨operatingSystem, path, hashes, [fingerprint]⟩
    | .processMulti semantic processes => .processMulti ⟨semantic, processes.map (fun process =>
      ⟨process.osType, process.path, process.hashes, process.signerFingerprints⟩)⟩
    | .mfa timeoutSeconds promptOnWake promptOnUnlock ignoreLegacyEndpoints =>
      .mfa ⟨timeoutSeconds, promptOnWake, promptOnUnlock, ignoreLegacyEndpoints⟩
    | .windowsDomains domains => .domains domains
    | .macAddresses macAddresses => .mac ⟨macAddresses⟩
    | .operatingSystem operatingSystems => .osList (operatingSystems.map (fun os => ⟨os.osType, os.osVersions⟩)))

variable (revocation : Revocation)

def newRevocation : DataStateRevocation where
  id := revocation.id
  expiresAt := some revocation.expiresAt

variable (action : Action)

def handleServicePolicy (servicePolicy : ServicePolicy) : Event :=
  { action := action, model := .servicePolicy (newServicePolicy servicePolicy) }

def handleIdentity (action : Action) (identity : Identity J) : Event :=
  { action := action, model := .identity (newIdentity env identity) }

def handleConfigType (entity : ConfigType) : Event :=
  { action := action, model := .configType (newConfigType entity) }

/-- A config that cannot be marshalled is only logged. -/
def handleConfig (action : Action) (entity : Config J) : List Event :=
  (newConfig env entity).toList.map (fun config => { action := action, model := .config config })

def handleService (service : EdgeService) : Event :=
  { action := action, model := .service (newService service) }

def handlePostureCheck (postureCheck : PostureCheck) : Event :=
  { action := action, model := .postureCheck (newPostureCheck postureCheck) }

def handlePublicKey (publicKey : DataStatePublicKey) : Event :=
  { action := action, isSynthetic := true, model := .publicKey publicKey }

def handleRevocation (revocation : Revocation) : Event :=
  { action := action, model := .revocation (newRevocation revocation) }

def handleServicePolicyChange (t : RelatedEntityType) (p id : Id) (add : Bool) : Event :=
  { model := .servicePolicyChange ⟨p, [id], t, add⟩ }

variable (controller : Controller)

/-- A controller whose PEM has no certificate makes the handler panic. -/
def controllerWritten : Option (List Event) :=
  (env.pemStringToCertificates controller.certPem).head?.map (fun cert =>
    [handlePublicKey .create (newPublicKey env cert x509CertDer [clientX509CertValidation, jwtValidation])])

def controllerCreate : Option (List Event) :=
  controllerWritten env controller

def controllerUpdate : Option (List Event) :=
  controllerWritten env controller

def handleCa (action : Action) (ca : Ca) : List Event :=
  (env.pemStringToCertificates ca.certPem).head?.toList.map (fun cert =>
    handlePublicKey action (newPublicKey env cert x509CertDer [clientX509CertValidation]))

def caCreate (ca : Ca) : List Event := handleCa env .create ca

def caUpdate (ca : Ca) : List Event := handleCa env .update ca

def caDelete (ca : Ca) : List Event := handleCa env .delete ca

def revocationCreate : Event := handleRevocation .create revocation

def revocationUpdate : Event := handleRevocation .create revocation

def revocationDelete : Event := handleRevocation .create revocation

def actionOf {V : Type} : Change Id V → Action
  | .create _ => .create
  | .update _ => .update
  | .delete _ => .delete

variable (policy : LinkedPolicy)

def LinkedPolicy.linked : RelatedEntityType → IdSet
  | .relatedIdentity => policy.identities
  | .relatedService => policy.services
  | .relatedPostureCheck => policy.postureChecks
  | .invalidRelatedType => ∅

def LinkedPolicy.setLink (t : RelatedEntityType) (id : Id) (add : Bool) : LinkedPolicy :=
  let change (s : IdSet) : IdSet := if add then s.insert id () else s.erase id
  match t with
  | .relatedIdentity => { policy with identities := change policy.identities }
  | .relatedService => { policy with services := change policy.services }
  | .relatedPostureCheck => { policy with postureChecks := change policy.postureChecks }
  | .invalidRelatedType => policy

/-- Dropping the links of a deleted entity. -/
def dropLinks (policies : IdTable LinkedPolicy) (t : RelatedEntityType) (id : Id) : IdTable LinkedPolicy :=
  adjustEach policies policies.keys (fun policy => policy.setLink t id false)

variable (db : Stores J)

def Stores.has (id : Id) : RelatedEntityType → Bool
  | .relatedIdentity => id ∈ db.identities
  | .relatedService => id ∈ db.services
  | .relatedPostureCheck => id ∈ db.postureChecks
  | .invalidRelatedType => false

def clearConfig (id : Id) (service : EdgeService) : EdgeService :=
  { service with configs := service.configs.filter (· ≠ id) }

/-- The services that a deleted config is taken from before it goes. -/
def clearedServices (id : Id) : List EdgeService :=
  ((rows db.services).filter (fun service => id ∈ service.configs)).map (clearConfig id)

/-- A policy is cleared of its roles before it is deleted, which unlinks it. -/
def unlinkEvents : List Event :=
  [RelatedEntityType.relatedIdentity, .relatedService, .relatedPostureCheck].flatMap (fun t =>
    (policy.linked t).keys.map (fun id => handleServicePolicyChange t policy.id id false))

inductive StoreOp (J : Type)
  | configType (change : Change Id ConfigType)
  | config (change : Change Id (Config J))
  | identity (change : Change Id (Identity J))
  | service (change : Change Id EdgeService)
  | postureCheck (change : Change Id PostureCheck)
  | servicePolicy (change : Change Id ServicePolicy)
  | link (t : RelatedEntityType) (p id : Id) (add : Bool)
  | controller (change : Change Id Controller)
  | ca (change : Change Id Ca)
  | revocation (change : Change Id Revocation)

/-- The stores after an operation that succeeds and the events its handlers
deliver in order; no events where a handler panics. -/
def perform (db : Stores J) : StoreOp J → Option (Stores J × Option (List Event))
  | .configType c => do
    let (configTypes, entity) ← c.apply ConfigType.id db.configTypes
    if c.isDelete ∧ (rows db.configs).any (fun config => config.typeId = entity.id) then none
    else some ({ db with configTypes := configTypes }, some [handleConfigType (actionOf c) entity])
  | .config c => do
    let (configs, entity) ← c.apply Config.id db.configs
    if c.isDelete then
      if (rows db.identities).any (fun identity => (pairs identity.serviceConfigs).any (fun e =>
          e.1 ∈ db.services ∧ (pairs e.2).any (fun config => config.2 = entity.id))) then none
      else
        let cleared := clearedServices db entity.id
        some ({ db with
            configs := configs
            services := cleared.foldl (fun services service => services.insert service.id service) db.services },
          some (cleared.map (handleService .update) ++ handleConfig env .delete entity))
    else some ({ db with configs := configs }, some (handleConfig env (actionOf c) entity))
  | .identity c => do
    let (identities, entity) ← c.apply Identity.id db.identities
    some ({ db with
        identities := identities
        servicePolicies := if c.isDelete then dropLinks db.servicePolicies .relatedIdentity entity.id
          else db.servicePolicies },
      some [handleIdentity env (actionOf c) entity])
  | .service c => do
    let (services, entity) ← c.apply EdgeService.id db.services
    -- the service configs that identities have for a deleted service go with it
    some ({ db with
        services := services
        identities := if c.isDelete then adjustEach db.identities db.identities.keys (fun identity =>
            { identity with serviceConfigs := identity.serviceConfigs.erase entity.id })
          else db.identities
        servicePolicies := if c.isDelete then dropLinks db.servicePolicies .relatedService entity.id
          else db.servicePolicies },
      some [handleService (actionOf c) entity])
  | .postureCheck c => do
    let (postureChecks, entity) ← c.apply PostureCheck.id db.postureChecks
    some ({ db with
        postureChecks := postureChecks
        servicePolicies := if c.isDelete then dropLinks db.servicePolicies .relatedPostureCheck entity.id
          else db.servicePolicies },
      some [handlePostureCheck (actionOf c) entity])
  | .servicePolicy (.create policy) =>
    if policy.id ∈ db.servicePolicies then none
    else some ({ db with servicePolicies := db.servicePolicies.insert policy.id { policy with } },
      some [handleServicePolicy .create policy])
  | .servicePolicy (.update policy) => do
    let current ← db.servicePolicies.lookup policy.id
    let linked : LinkedPolicy := { policy with
      identities := current.identities, services := current.services, postureChecks := current.postureChecks }
    some ({ db with servicePolicies := db.servicePolicies.insert policy.id linked },
      some [handleServicePolicy .update policy])
  | .servicePolicy (.delete id) => do
    let policy ← db.servicePolicies.lookup id
    some ({ db with servicePolicies := db.servicePolicies.erase id },
      some (unlinkEvents policy ++ [handleServicePolicy .delete policy.toServicePolicy]))
  | .link t p id add => do
    let policy ← db.servicePolicies.lookup p
    if (id ∈ policy.linked t ↔ add = true) ∨ db.has id t = false then none
    else some ({ db with servicePolicies := db.servicePolicies.insert p (policy.setLink t id add) },
      some [handleServicePolicyChange t p id add])
  | .controller c => do
    let (controllers, entity) ← c.apply Controller.id db.controllers
    some ({ db with controllers := controllers }, match c with
      | .create _ => controllerCreate env entity
      | .update _ => controllerUpdate env entity
      | .delete _ => some [])
  | .ca c => do
    let (cas, entity) ← c.apply Ca.id db.cas
    some ({ db with cas := cas }, some (match c with
        | .create _ => caCreate env entity
        | .update _ => caUpdate env entity
        | .delete _ => caDelete env entity))
  | .revocation c => do
    let (revocations, entity) ← c.apply Revocation.id db.revocations
    some ({ db with revocations := revocations }, some [match c with
        | .create _ => revocationCreate entity
        | .update _ => revocationUpdate entity
        | .delete _ => revocationDelete entity])

/-- A running controller: no model is left after a panic. -/
structure Instance (J : Type) where
  stores : Stores J
  model : Option RouterDataModelSender

def Instance.step (st : Instance J) (op : StoreOp J) : Instance J :=
  match perform env st.stores op with
  | none => st
  | some (stores, events) =>
    { stores := stores
      model := do
        let model ← st.model
        let events ← events
        some (events.foldl RouterDataModelSender.handle model) }

def createAll {V : Type} (t : IdTable V) (model : V → EventModel) : List Event :=
  (rows t).map (fun entity => { action := .create, model := model entity })

def buildConfigTypes : List Event := createAll db.configTypes (fun t => .configType (newConfigType t))

def buildConfigs (db : Stores J) : Option (List Event) :=
  (rows db.configs).mapM (fun entity =>
    (newConfig env entity).map (fun config => { action := .create, model := .config config }))

def buildIdentities (db : Stores J) : List Event :=
  createAll db.identities (fun identity => .identity (newIdentity env identity))

def buildServices : List Event := createAll db.services (fun service => .service (newService service))

def buildPostureChecks : List Event :=
  createAll db.postureChecks (fun check => .postureCheck (newPostureCheck check))

def associatedIds (t : RelatedEntityType) : Event :=
  { model := .servicePolicyChange ⟨policy.id, (policy.linked t).keys, t, true⟩ }

def buildServicePolicies : List Event :=
  (rows db.servicePolicies).flatMap (fun policy =>
    [handleServicePolicy .create policy.toServicePolicy, associatedIds policy .relatedService,
      associatedIds policy .relatedIdentity, associatedIds policy .relatedPostureCheck])

def peerKey (cert : Bytes) : DataStatePublicKey :=
  newPublicKey env cert x509CertDer [jwtValidation, clientX509CertValidation]

def caKey (cert : Bytes) : DataStatePublicKey :=
  newPublicKey env cert x509CertDer [clientX509CertValidation]

def controllerCert : Option Bytes :=
  (env.pemStringToCertificates controller.certPem).head?

def caCert (ca : Ca) : Option Bytes := (env.pemStringToCertificates ca.certPem).head?

/-- Controllers without a certificate make this panic, CAs without one are
skipped. -/
def buildPublicKeys (db : Stores J) : Option (List Event) := do
  let controllerCerts ← (rows db.controllers).mapM (controllerCert env)
  let keys := peerKey env env.serverCert :: controllerCerts.map (peerKey env) ++
    (env.caPems.filter env.isRootCa).map (caKey env) ++ ((rows db.cas).filterMap (caCert env)).map (caKey env)
  some (keys.map (handlePublicKey .create))

/-- The model a controller starts with, unless building it fails. -/
def buildAll (timelineId : String) (db : Stores J) : Option RouterDataModelSender := do
  let configs ← buildConfigs env db
  let publicKeys ← buildPublicKeys env db
  let events := buildConfigTypes db ++ configs ++ buildIdentities env db ++ buildServices db ++
    buildPostureChecks db ++ buildServicePolicies db ++ publicKeys
  some (events.foldl RouterDataModelSender.handle { timelineId := timelineId })

end Zt.RebuildStores
