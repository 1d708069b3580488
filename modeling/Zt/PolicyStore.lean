import Mathlib.Data.List.Dedup
import Mathlib.Data.List.Sort
import Zt.EdgeCtrl
import Zt.LinkCounts

namespace Zt.PolicyStore

open EdgeCtrl (Id IdTable IdSet)
open Tables LinkCounts
open Function (update)

/-- The kinds of entity a service policy selects by roles. -/
inductive Kind
  | identity
  | service
  | postureCheck
  deriving DecidableEq

inductive PolicyType
  | invalid
  | dial
  | bind
  deriving DecidableEq

/-- The two sets of denormalized collections. -/
inductive Access
  | dial
  | bind
  deriving DecidableEq

def Access.policyType : Access → PolicyType
  | .dial => .dial
  | .bind => .bind

def PolicyType.access : PolicyType → Access
  | .dial => .dial
  | _ => .bind

structure ServicePolicy where
  policyType : PolicyType
  semantic : String
  roles : Kind → List String

/-- The symbols under which an entity's bucket holds its counted links. -/
inductive CountField
  | identityServices
  | serviceIdentities
  | postureCheckServices
  deriving DecidableEq

structure RcLinkCollection where
  access : Access
  field : CountField
  otherField : CountField

/-- The part of the database that the service policy store and the stores of
the entities it links keep in step. -/
structure Db where
  policies : IdTable ServicePolicy
  roleAttributes : Kind → IdTable (List String)
  links : Kind → Id → IdSet
  counts : Access → CountField → Id → RefCounts Id

def Db.empty : Db where
  policies := ∅
  roleAttributes := fun _ => ∅
  links := fun _ _ => ∅
  counts := fun _ _ _ => RefCounts.empty

inductive StoreError
  | field (reason name : String) (values : List String)
  | message (text : String)
  | notFound (id : Id)
  | alreadyExists (id : Id)

def semanticAllOf : String := "AllOf"

def semanticAnyOf : String := "AnyOf"

def equalFold (s t : String) : Bool := s.toList.map Char.toLower = t.toList.map Char.toLower

def isSemanticValid (semantic : String) : Bool :=
  [semanticAllOf, semanticAnyOf].any (fun validSemantic => equalFold validSemantic semantic)

def roleRef (val : String) : String := "#" ++ val

def entityRef (val : String) : String := "@" ++ val

def allRole : String := "#all"

def isPrefixed (c : Char) (entry : String) : Bool := entry.toList.head? = some c

def validateRolesAndIds (field : String) (values : List String) : Except StoreError Unit :=
  if 1 < values.length ∧ allRole ∈ values then
    .error (.field "if using #all, it should be the only role specified" field values)
  else
    match values.filter (fun entry => !isPrefixed '#' entry && !isPrefixed '@' entry) with
    | [] => .ok ()
    | invalidKeys =>
      .error (.field
        "role entries must prefixed with # (to indicate role attributes) or @ (to indicate a name or id)"
        field invalidKeys)

def splitRolesAndIds : List String → Except StoreError (List String × List String)
  | [] => .ok ([], [])
  | entry :: values =>
    match entry.toList with
    | '#' :: role => (splitRolesAndIds values).map (fun r => (String.ofList role :: r.1, r.2))
    | '@' :: id => (splitRolesAndIds values).map (fun r => (r.1, String.ofList id :: r.2))
    | _ =>
      .error (.message ("'" ++ entry ++ "' is neither role attribute (prefixed with #) or an entity id or " ++
        "name (prefixed with @)"))

/-- A list bucket holds each string once, in key order. -/
def stringList (values : List String) : List String := (values.insertionSort (· ≤ ·)).dedup

/-- The collections an evaluation reads and writes: the links of the kind whose
roles are evaluated, those of the kind on the other side of the policy, and the
counted links between the two. -/
structure RoleAttributeChangeContext where
  linkCollection : Kind
  relatedLinkCollection : Kind
  denormLinkCollection : RcLinkCollection

/-- The dialServicesCollection and bindServicesCollection of the identity store. -/
def identityServices (a : Access) : RcLinkCollection := ⟨a, .identityServices, .serviceIdentities⟩

/-- The dialIdentitiesCollection and bindIdentitiesCollection of the service store. -/
def serviceIdentities (a : Access) : RcLinkCollection := ⟨a, .serviceIdentities, .identityServices⟩

/-- The dialServicesCollection and bindServicesCollection of the posture check
store. Their other side is the field in which services hold their identities. -/
def postureCheckServices (a : Access) : RcLinkCollection := ⟨a, .postureCheckServices, .serviceIdentities⟩

variable (k : Kind)

def changeContext (a : Access) : RoleAttributeChangeContext :=
  match k with
  | .identity => ⟨.identity, .service, identityServices a⟩
  | .service => ⟨.service, .identity, serviceIdentities a⟩
  | .postureCheck => ⟨.postureCheck, .service, postureCheckServices a⟩

namespace Db

variable (db : Db)

def setPolicy (policyId : Id) (policy : ServicePolicy) : Db :=
  { db with policies := db.policies.insert policyId policy }

def setLinks (k : Kind) (policyId : Id) (ids : IdSet) : Db :=
  { db with links := update db.links k (update (db.links k) policyId ids) }

def setCounts (a : Access) (field : CountField) (id : Id) (counts : RefCounts Id) : Db :=
  { db with
    counts := update db.counts a
      (update (db.counts a) field (update (db.counts a field) id counts)) }

def setRoleAttributes (k : Kind) (table : IdTable (List String)) : Db :=
  { db with roleAttributes := update db.roleAttributes k table }

def adjustCounts (c : RcLinkCollection) (id otherId : Id) (f : RefCounts Id → Id → RefCounts Id) : Db :=
  let db₁ := db.setCounts c.access c.field id (f (db.counts c.access c.field id) otherId)
  db₁.setCounts c.access c.otherField otherId (f (db₁.counts c.access c.otherField otherId) id)

def incrementLinkCount (c : RcLinkCollection) (id otherId : Id) : Db :=
  db.adjustCounts c id otherId RefCounts.increment

def decrementLinkCount (c : RcLinkCollection) (id otherId : Id) : Db :=
  db.adjustCounts c id otherId RefCounts.decrement

end Db

variable (ctx : RoleAttributeChangeContext)

def processEntityPolicyMatched (entityId policyId : Id) (db : Db) : Db :=
  let linked := db.links ctx.linkCollection policyId
  if entityId ∈ linked then db
  else
    (db.links ctx.relatedLinkCollection policyId).keys.foldl
      (fun db relatedEntityId => db.incrementLinkCount ctx.denormLinkCollection entityId relatedEntityId)
      (db.setLinks ctx.linkCollection policyId (linked.insert entityId ()))

def processEntityPolicyUnmatched (entityId policyId : Id) (db : Db) : Db :=
  let linked := db.links ctx.linkCollection policyId
  if entityId ∈ linked then
    (db.links ctx.relatedLinkCollection policyId).keys.foldl
      (fun db relatedEntityId => db.decrementLinkCount ctx.denormLinkCollection entityId relatedEntityId)
      (db.setLinks ctx.linkCollection policyId (linked.erase entityId))
  else db

def policyMatches (semantic : String) (entityId : Id) (ids roles roleAttributes : List String) : Bool :=
  ids.contains entityId || roles.contains "all" ||
    (equalFold semantic semanticAllOf && !roles.isEmpty && roles.all roleAttributes.contains) ||
    (equalFold semantic semanticAnyOf && !roles.isEmpty && roles.any roleAttributes.contains)

def evaluatePolicyAgainstEntity (semantic : String) (entityId policyId : Id)
    (ids roles roleAttributes : List String) (db : Db) : Db :=
  if policyMatches semantic entityId ids roles roleAttributes then
    processEntityPolicyMatched ctx entityId policyId db
  else processEntityPolicyUnmatched ctx entityId policyId db

def entityType : Kind → String
  | .identity => "identities"
  | .service => "services"
  | .postureCheck => "postureChecks"

def rolesField : Kind → String
  | .identity => "identityRoles"
  | .service => "serviceRoles"
  | .postureCheck => "postureCheckRoles"

def validateEntityIds (db : Db) (k : Kind) (ids : List String) : Except StoreError Unit :=
  match ids.filter (fun id => id ∉ db.roleAttributes k) with
  | [] => .ok ()
  | invalid => .error (.field ("no " ++ entityType k ++ " found with the given ids") (rolesField k) invalid)

def evaluatePolicy (policyId : Id) (db : Db) : Except StoreError Db := do
  let k := ctx.linkCollection
  let policy ← (db.policies.lookup policyId).elim (.error (.notFound policyId)) .ok
  if !isSemanticValid policy.semantic then
    throw (.message ("unable to get valid semantic for servicePolicy with " ++ policyId ++ ", value found: " ++
      policy.semantic))
  let (roles, ids) ← splitRolesAndIds (policy.roles k)
  validateEntityIds db k ids
  return (pairs (db.roleAttributes k)).foldl
    (fun db entity => evaluatePolicyAgainstEntity ctx policy.semantic entity.1 policyId ids roles entity.2 db) db

def identityRolesUpdated (policyType : PolicyType) (policyId : Id) (db : Db) : Except StoreError Db :=
  evaluatePolicy (changeContext .identity policyType.access) policyId db

def serviceRolesUpdated (policyType : PolicyType) (policyId : Id) (db : Db) : Except StoreError Db :=
  evaluatePolicy (changeContext .service policyType.access) policyId db

def postureCheckRolesUpdated (policyType : PolicyType) (policyId : Id) (db : Db) : Except StoreError Db :=
  evaluatePolicy (changeContext .postureCheck policyType.access) policyId db

/-- The fields of a policy that a field checker of an update may name. -/
inductive Field
  | policyType
  | semantic
  | roles (k : Kind)
  deriving DecidableEq

abbrev FieldChecker := Option (Field → Bool)

variable (checker : FieldChecker)

def proceedWithSet (field : Field) : Bool := checker.all (fun isUpdated => isUpdated field)

def when (b : Bool) (f : Db → Except StoreError Db) (db : Db) : Except StoreError Db := if b then f db else .ok db

def validatePolicy (entity : ServicePolicy) : Except StoreError Unit := do
  if proceedWithSet checker .policyType && entity.policyType = .invalid then
    throw (.field "invalid policy type" "type" ["Invalid"])
  validateRolesAndIds (rolesField .identity) (entity.roles .identity)
  validateRolesAndIds (rolesField .service) (entity.roles .service)
  validateRolesAndIds (rolesField .postureCheck) (entity.roles .postureCheck)
  if proceedWithSet checker .semantic && !isSemanticValid entity.semantic then
    throw (.field "invalid semantic" "semantic" [entity.semantic])

variable (current entity : ServicePolicy)

/-- The type a policy has after an update, and its semantic. -/
def newPolicyType : PolicyType :=
  if proceedWithSet checker .policyType then entity.policyType else current.policyType

def newSemantic : String :=
  if proceedWithSet checker .semantic then entity.semantic else current.semantic

def sortedRoles (entity : ServicePolicy) (k : Kind) : List String := (entity.roles k).insertionSort (· ≤ ·)

/-- The roles an update leaves in the bucket when the policy type stays. -/
def newRoles (k : Kind) : List String :=
  if proceedWithSet checker (.roles k) then stringList (sortedRoles entity k) else current.roles k

def rolesChanged (k : Kind) : Bool :=
  proceedWithSet checker (.roles k) && current.roles k ≠ sortedRoles entity k

def persistedPolicy : ServicePolicy :=
  ⟨newPolicyType checker current entity, newSemantic checker current entity, newRoles checker current entity⟩

/-- Evaluates the kinds whose roles are due, in the order of the source. -/
def rolesUpdated (due : Kind → Bool) (policyType : PolicyType) (policyId : Id) (db : Db) : Except StoreError Db := do
  let db ← when (due .identity) (identityRolesUpdated policyType policyId) db
  let db ← when (due .service) (serviceRolesUpdated policyType policyId) db
  when (due .postureCheck) (postureCheckRolesUpdated policyType policyId) db

/-- The roles that a change of the policy type sets again after clearing them.
Those of the posture checks are not among them. -/
def restoredRoles : Kind → List String
  | .identity => newRoles checker current entity .identity
  | .service => newRoles checker current entity .service
  | .postureCheck => []

/-- The branch for a changed policy type: all links go under the old type, then
the roles come back and are evaluated under the new one. -/
def persistTypeChange (policyId : Id) (current entity : ServicePolicy) (db : Db) :
    Except StoreError Db := do
  let policy := persistedPolicy checker current entity
  let db ← rolesUpdated (fun _ => true) current.policyType policyId
    (db.setPolicy policyId { policy with roles := fun _ => [] })
  rolesUpdated (fun _ => true) policy.policyType policyId
    (db.setPolicy policyId { policy with roles := restoredRoles checker current entity })

def persistRoles (policyId : Id) (current entity : ServicePolicy) (db : Db) : Except StoreError Db :=
  let policy := persistedPolicy checker current entity
  rolesUpdated (rolesChanged checker current entity) policy.policyType policyId (db.setPolicy policyId policy)

def persistEntity (isCreate : Bool) (checker : FieldChecker) (policyId : Id) (current entity : ServicePolicy)
    (db : Db) : Except StoreError Db := do
  validatePolicy checker entity
  if newPolicyType checker current entity ≠ current.policyType && !isCreate then
    persistTypeChange checker policyId current entity db
  else persistRoles checker policyId current entity db

/-- What reading a bucket without any field gives. -/
def unset : ServicePolicy := ⟨.dial, semanticAllOf, fun _ => []⟩

def createPolicy (policyId : Id) (entity : ServicePolicy) (db : Db) : Except StoreError Db :=
  if policyId ∈ db.policies then .error (.alreadyExists policyId)
  else persistEntity true none policyId unset entity db

def updatePolicy (policyId : Id) (entity : ServicePolicy) (db : Db) : Except StoreError Db :=
  match db.policies.lookup policyId with
  | none => .error (.notFound policyId)
  | some current => persistEntity false checker policyId current entity db

/-- What the base store does for a deleted policy: its bucket and links go. -/
def dropPolicy (policyId : Id) (db : Db) : Db :=
  { db with
    policies := db.policies.erase policyId
    links := fun k => update (db.links k) policyId ∅ }

def deletePolicy (policyId : Id) (db : Db) : Except StoreError Db := do
  let policy ← (db.policies.lookup policyId).elim (.error (.notFound policyId)) .ok
  let db ←
    if policy.roles .identity ≠ [] ∨ policy.roles .service ≠ [] ∨ policy.roles .postureCheck ≠ [] then
      updatePolicy none policyId { policy with roles := fun _ => [] } db
    else .ok db
  return dropPolicy policyId db

def validateRoleAttributes : List String → Except StoreError Unit
  | [] => .ok ()
  | attr :: attributes =>
    if isPrefixed '#' attr then
      .error (.field "role attributes may not be prefixed with #" "roleAttributes" [attr])
    else if isPrefixed '@' attr then
      .error (.field "role attributes may not be prefixed with @" "roleAttributes" [attr])
    else validateRoleAttributes attributes

/-- Evaluates every policy against one entity whose role attributes changed. -/
def updateServicePolicyRelatedRoles (entityId : Id) (entityRoles : List String) (db : Db) : Except StoreError Db :=
  (pairs db.policies).foldlM
    (fun db policy => do
      let (roles, ids) ← splitRolesAndIds (policy.2.roles k)
      return evaluatePolicyAgainstEntity (changeContext k policy.2.policyType.access) policy.2.semantic entityId
        policy.1 ids roles entityRoles db)
    db

def validateEntity (attributes : List String) : Except StoreError Unit :=
  match k with
  | .identity => validateRoleAttributes attributes
  | .service => validateRoleAttributes attributes
  | .postureCheck => .ok ()

def setEntity (id : Id) (attributes : List String) (db : Db) : Db :=
  db.setRoleAttributes k ((db.roleAttributes k).insert id (stringList attributes))

def createEntity (id : Id) (attributes : List String) (db : Db) : Except StoreError Db := do
  if id ∈ db.roleAttributes k then throw (.alreadyExists id)
  validateEntity k attributes
  updateServicePolicyRelatedRoles k id (stringList attributes) (setEntity k id attributes db)

def updateEntity (id : Id) (attributes : List String) (db : Db) : Except StoreError Db := do
  let current ← ((db.roleAttributes k).lookup id).elim (.error (.notFound id)) .ok
  validateEntity k attributes
  let db := setEntity k id attributes db
  if stringList attributes = current then return db
  updateServicePolicyRelatedRoles k id (stringList attributes) db

def deleteEntityReferences (id : Id) (db : Db) : Db :=
  { db with
    policies := adjustEach db.policies (db.policies.keys.filter (fun policyId => id ∈ db.links k policyId))
      (fun policy =>
        { policy with
          roles := update policy.roles k ((policy.roles k).filter (fun role => role ≠ entityRef id)) }) }

/-- The counted collections a store has registered for its entities. -/
def rcCollections : List RcLinkCollection :=
  match k with
  | .identity => [identityServices .bind, identityServices .dial]
  | .service => [serviceIdentities .bind, serviceIdentities .dial]
  | .postureCheck => [postureCheckServices .bind, postureCheckServices .dial]

/-- A deleted entity leaves the other side of each of its counted links, and
its own side goes with its bucket. -/
def dropCounts (c : RcLinkCollection) (id : Id) (db : Db) : Db :=
  let db₁ := (db.counts c.access c.field id).keys.foldl
    (fun db otherId =>
      db.setCounts c.access c.otherField otherId ((db.counts c.access c.otherField otherId).remove id)) db
  db₁.setCounts c.access c.field id RefCounts.empty

/-- What the base store does for a deleted entity. -/
def dropEntity (id : Id) (db : Db) : Db :=
  let db := (rcCollections k).foldl (fun db c => dropCounts c id db) db
  { db with
    roleAttributes := update db.roleAttributes k ((db.roleAttributes k).erase id)
    links := update db.links k (fun policyId => (db.links k policyId).erase id) }

def deleteEntity (id : Id) (db : Db) : Except StoreError Db := do
  let attributes ← ((db.roleAttributes k).lookup id).elim (.error (.notFound id)) .ok
  let db := deleteEntityReferences k id db
  let db ← if attributes ≠ [] then updateEntity k id [] db else .ok db
  return dropEntity k id db

inductive Op
  | createPolicy (policyId : Id) (entity : ServicePolicy)
  | updatePolicy (checker : FieldChecker) (policyId : Id) (entity : ServicePolicy)
  | deletePolicy (policyId : Id)
  | createEntity (k : Kind) (id : Id) (attributes : List String)
  | updateEntity (k : Kind) (id : Id) (attributes : List String)
  | deleteEntity (k : Kind) (id : Id)

def perform (db : Db) : Op → Except StoreError Db
  | .createPolicy policyId entity => createPolicy policyId entity db
  | .updatePolicy checker policyId entity => updatePolicy checker policyId entity db
  | .deletePolicy policyId => deletePolicy policyId db
  | .createEntity k id attributes => createEntity k id attributes db
  | .updateEntity k id attributes => updateEntity k id attributes db
  | .deleteEntity k id => deleteEntity k id db

/-- One transaction: an operation that reports an error is rolled back. -/
def commit (db : Db) (op : Op) : Db :=
  match perform db op with
  | .ok db' => db'
  | .error _ => db

/-- The link count as the service's side of the collection has it. -/
def getLinkCount (db : Db) (a : Access) (id identityId : Id) : Nat :=
  (db.counts a .serviceIdentities id).count identityId

def isDialableByIdentity (db : Db) (id identityId : Id) : Bool := 0 < getLinkCount db .dial id identityId

def isBindableByIdentity (db : Db) (id identityId : Id) : Bool := 0 < getLinkCount db .bind id identityId

structure ServiceEvent where
  identityId : Id
  serviceId : Id
  deriving DecidableEq

/-- The ServiceUpdated events for the identities a service has recorded. -/
def addServiceUpdatedEvent (db : Db) (serviceId : Id) : List ServiceEvent :=
  ((db.counts .bind .serviceIdentities serviceId).keys ++ (db.counts .dial .serviceIdentities serviceId).keys).map
    (fun identityId => ⟨identityId, serviceId⟩)

def createServiceChangeEvents (db : Db) (id : Id) : List ServiceEvent :=
  ((db.counts .bind .postureCheckServices id).keys ++ (db.counts .dial .postureCheckServices id).keys).flatMap
    (addServiceUpdatedEvent db)

end Zt.PolicyStore
