import Zt.EdgeCtrl

namespace Zt.EnrollmentCommands

open Tables EdgeCtrl

inductive EnrollMethod
  | ott
  | ottca
  | updb
  | edgeRouterOtt
  | other (name : String)
  deriving DecidableEq

/-- Times are in nanoseconds. -/
structure Enrollment where
  method : EnrollMethod
  identityId : Option Id := none
  transitRouterId : Option Id := none
  edgeRouterId : Option Id := none
  token : String := ""
  issuedAt : Option Int := none
  expiresAt : Option Int := none
  jwt : String := ""
  caId : Option Id := none
  username : Option String := none

inductive AuthMethod
  | updb
  | cert
  | other (name : String)
  deriving DecidableEq

structure AuthenticatorUpdb where
  username : String := ""
  password : String := ""
  salt : String := ""

structure AuthenticatorCert where
  fingerprint : String := ""
  pem : String := ""
  isIssuedByNetwork : Bool := false
  isExtendRequested : Bool := false
  isKeyRollRequested : Bool := false
  unverifiedFingerprint : String := ""
  unverifiedPem : String := ""
  extendRequestedAt : Option Int := none
  publicKeyPrint : String := ""
  lastExtendRolledKeys : Bool := false
  lastAuthResolvedToRoot : Bool := false

inductive SubType
  | updb (auth : AuthenticatorUpdb)
  | cert (auth : AuthenticatorCert)

structure Authenticator where
  method : AuthMethod
  identityId : Id
  subType : SubType

/-- What is stored has room for the fields of both kinds. -/
structure StoredAuthenticator where
  method : AuthMethod
  identityId : Id
  updb : AuthenticatorUpdb := {}
  cert : AuthenticatorCert := {}

structure EdgeRouter where
  fingerprint : Option String
  certPem : Option String
  isVerified : Bool

structure Ca where
  certPem : String
  isVerified : Bool

structure Identity where
  isRouter : Bool

/-- The stored data that the commands read and write, without the times of
creation and update. -/
structure Database where
  enrollments : IdTable Enrollment := ∅
  authenticators : IdTable StoredAuthenticator := ∅
  identities : IdTable Identity := ∅
  edgeRouters : IdTable EdgeRouter := ∅
  transitRouters : IdSet := ∅
  cas : IdTable Ca := ∅
  controllers : List String := []

structure EnrollmentClaims where
  method : EnrollMethod
  controllers : List String
  expiresAt : Int
  id : String
  issuer : String
  subject : String

/-- What a controller reads while it applies one command: its clock, twice, its
sources of ids, tokens and salts, its key and its addresses. -/
structure Reading where
  now : Int
  issuedAt : Int
  newId : Id
  newToken : String
  salt : String
  sign : EnrollmentClaims → Option String
  apiAddress : String
  advertiseAddress : Option String

/-- What all controllers have in common: the hash of passwords, the reading of
certificates and the configuration. -/
structure Common where
  hash : String → String → String
  certificates : String → List String
  fingerprint : String → String
  verifies : String → List String → Bool
  caPems : String
  edgeRouterDuration : Int

variable (r : Reading)

/-- An id that was left out is made up. -/
def idOf (id : Id) : Id := if id = "" then r.newId else id

variable (db : Database)

def Database.tokenTaken (token : String) : Bool := (pairs db.enrollments).any (fun e => e.2.token = token)

/-- The checks before the store that look at the CA, and the references. -/
def Database.enrollmentFits (e : Enrollment) : Bool :=
  (decide (e.method ≠ .ottca) || e.caId.any (fun ca => decide (ca ∈ db.cas))) &&
    e.identityId.all (fun i => decide (i ∈ db.identities)) && e.edgeRouterId.all (fun i => decide (i ∈ db.edgeRouters)) &&
      e.transitRouterId.all (fun i => decide (i ∈ db.transitRouters)) && e.caId.all (fun i => decide (i ∈ db.cas))

def createEnrollment (id : Id) (e : Enrollment) : Option Database :=
  if id ≠ "" ∧ id ∉ db.enrollments ∧ e.token ≠ "" ∧ db.tokenTaken e.token = false ∧ db.enrollmentFits e = true then
    some { db with enrollments := db.enrollments.insert id e }
  else none

def fillJwtInfoWithExpiresAt (db : Database) (subject : Id) (expiresAt : Int) (e : Enrollment) : Option Enrollment :=
  let token := if e.token = "" then r.newToken else e.token
  let controllers := if db.controllers = [] then r.advertiseAddress.toList else db.controllers
  let claims : EnrollmentClaims :=
    { method := e.method, controllers := controllers, expiresAt := expiresAt, id := token
      issuer := "https://" ++ r.apiAddress, subject := subject }
  (r.sign claims).map (fun jwt =>
    { e with issuedAt := some r.issuedAt, expiresAt := some expiresAt, token := token, jwt := jwt })

/-- The checks on the enrollment of an identity other than the one of the clock. -/
def Database.admits (identityId : Id) (e : Enrollment) : Bool :=
  (match e.method with
    | .ottca => e.caId.any (fun ca => decide (ca ∈ db.cas))
    | .updb => e.username.any (fun username => decide (username ≠ ""))
    | .ott => true
    | _ => false) &&
  !(pairs db.enrollments).any (fun o => decide (o.2.identityId = some identityId) && decide (o.2.method = e.method))

def createForIdentity (db : Database) (id : Id) (e : Enrollment) (identityId : Id) (expiresAt : Int) :
    Option Database :=
  if identityId ∈ db.identities ∧ ¬ expiresAt < r.now ∧ db.admits identityId e then
    (fillJwtInfoWithExpiresAt r db identityId expiresAt e).bind (createEnrollment db (idOf r id))
  else none

def applyCreateEnrollment (db : Database) (id : Id) (e : Enrollment) : Option Database :=
  if e.edgeRouterId.isSome ∨ e.transitRouterId.isSome then createEnrollment db (idOf r id) e
  else e.identityId.bind (fun identityId => e.expiresAt.bind (createForIdentity r db id e identityId))

def enrollmentsOfRouter (edgeRouterId : Id) : List Id :=
  ((pairs db.enrollments).filter (fun e => e.2.edgeRouterId = some edgeRouterId)).map Prod.fst

variable (c : Common)

def applyReEnrollEdgeRouter (r : Reading) (db : Database) (edgeRouterId : Id) : Option Database :=
  match db.edgeRouters.lookup edgeRouterId with
  | none => none
  | some _ =>
    let db := { db with enrollments := removeAll db.enrollments (enrollmentsOfRouter db edgeRouterId) }
    let enrollment : Enrollment := { method := .edgeRouterOtt, edgeRouterId := some edgeRouterId }
    (fillJwtInfoWithExpiresAt r db edgeRouterId (r.now + c.edgeRouterDuration) enrollment).bind (fun enrollment =>
      (createEnrollment db r.newId enrollment).map (fun db =>
        let unverified : EdgeRouter := { fingerprint := none, certPem := none, isVerified := false }
        { db with edgeRouters := db.edgeRouters.insert edgeRouterId unverified }))

inductive AuthField
  | method
  | identityId
  | password
  | username
  | salt
  | fingerprint
  | pem
  | isIssuedByNetwork
  | isExtendRequested
  | isKeyRollRequested
  | unverifiedFingerprint
  | unverifiedPem
  | extendRequestedAt
  | publicKeyPrint
  | lastExtendRolledKeys
  | lastAuthResolvedToRoot
  deriving DecidableEq

def pick {α : Type} (b : Bool) (new old : α) : α := if b then new else old

/-- The fields of the other kind stay as they are. A kind that does not match
the method is a failure. -/
def persist (writes : AuthField → Bool) (old : StoredAuthenticator) (entity : Authenticator) : Option StoredAuthenticator :=
  let base := { old with
    method := pick (writes .method) entity.method old.method
    identityId := pick (writes .identityId) entity.identityId old.identityId }
  match entity.method, entity.subType with
  | .updb, .updb auth => some { base with
      updb :=
        { username := pick (writes .username) auth.username old.updb.username
          password := pick (writes .password) auth.password old.updb.password
          salt := pick (writes .salt) auth.salt old.updb.salt } }
  | .cert, .cert auth => some { base with
      cert :=
        { fingerprint := pick (writes .fingerprint) auth.fingerprint old.cert.fingerprint
          pem := pick (writes .pem) auth.pem old.cert.pem
          isIssuedByNetwork := pick (writes .isIssuedByNetwork) auth.isIssuedByNetwork old.cert.isIssuedByNetwork
          isExtendRequested := pick (writes .isExtendRequested) auth.isExtendRequested old.cert.isExtendRequested
          isKeyRollRequested := pick (writes .isKeyRollRequested) auth.isKeyRollRequested old.cert.isKeyRollRequested
          unverifiedFingerprint :=
            pick (writes .unverifiedFingerprint) auth.unverifiedFingerprint old.cert.unverifiedFingerprint
          unverifiedPem := pick (writes .unverifiedPem) auth.unverifiedPem old.cert.unverifiedPem
          extendRequestedAt := pick (writes .extendRequestedAt) auth.extendRequestedAt old.cert.extendRequestedAt
          publicKeyPrint := pick (writes .publicKeyPrint) auth.publicKeyPrint old.cert.publicKeyPrint
          lastExtendRolledKeys := pick (writes .lastExtendRolledKeys) auth.lastExtendRolledKeys
            old.cert.lastExtendRolledKeys
          lastAuthResolvedToRoot :=
            pick (writes .lastAuthResolvedToRoot) auth.lastAuthResolvedToRoot old.cert.lastAuthResolvedToRoot } }
  | .other _, _ => some base
  | _, _ => none

/-- Another authenticator has the user name or the fingerprint, if there is one. -/
def clashes (others : IdTable StoredAuthenticator) (row : StoredAuthenticator) : Bool :=
  (pairs others).any (fun o =>
    (decide (row.updb.username ≠ "") && decide (o.2.updb.username = row.updb.username)) ||
      (decide (row.cert.fingerprint ≠ "") && decide (o.2.cert.fingerprint = row.cert.fingerprint)))

def Database.authenticatorFits (others : IdTable StoredAuthenticator) (row : StoredAuthenticator) : Bool :=
  (db.identities.lookup row.identityId).any (fun identity => !identity.isRouter) && !clashes others row

def createAuthenticator (id : Id) (entity : Authenticator) : Option Database :=
  if id ≠ "" ∧ id ∉ db.authenticators then
    (persist (fun _ => true) { method := entity.method, identityId := entity.identityId } entity).bind (fun row =>
      if db.authenticatorFits db.authenticators row then
        some { db with authenticators := db.authenticators.insert id row }
      else none)
  else none

def updateAuthenticator (id : Id) (writes : AuthField → Bool) (entity : Authenticator) : Option Database :=
  (db.authenticators.lookup id).bind (fun old =>
    (persist writes old entity).bind (fun row =>
      if db.authenticatorFits (db.authenticators.erase id) row then
        some { db with authenticators := db.authenticators.insert id row }
      else none))

def applyReplace (db : Database) (enrollmentId id : Id) (entity : Authenticator) : Option Database :=
  if enrollmentId ∈ db.enrollments then
    createAuthenticator { db with enrollments := db.enrollments.erase enrollmentId } (idOf r id) entity
  else none

def hashPassword (r : Reading) (auth : AuthenticatorUpdb) : AuthenticatorUpdb :=
  { auth with password := c.hash auth.password r.salt, salt := r.salt }

def Database.rootPool (db : Database) : List String :=
  c.caPems :: ((pairs db.cas).filter (fun ca => ca.2.isVerified)).map (fun ca => ca.2.certPem)

def Database.hasMethod (identityId : Id) (method : AuthMethod) : Bool :=
  (pairs db.authenticators).any (fun o => decide (o.2.identityId = identityId) && decide (o.2.method = method))

def applyCreateAuthenticator (r : Reading) (db : Database) (id : Id) (entity : Authenticator) : Option Database :=
  if db.hasMethod entity.identityId entity.method then none
  else match entity.method, entity.subType with
    | .updb, .updb auth => createAuthenticator db (idOf r id) { entity with subType := .updb (hashPassword c r auth) }
    | .cert, .cert auth =>
      match c.certificates auth.pem with
      | [cert] =>
        if c.verifies cert (db.rootPool c) then
          createAuthenticator db (idOf r id)
            { entity with subType := .cert { auth with fingerprint := c.fingerprint cert } }
        else none
      | _ => none
    | _, _ => none

/-- The fields that an update writes. Unless it is unrestricted it leaves out the
method and the identity. -/
def updates (fields : Option (List AuthField)) (unrestricted : Bool) (field : AuthField) : Bool :=
  fields.all (fun fs => decide (field ∈ fs)) &&
    (unrestricted || (decide (field ≠ .method) && decide (field ≠ .identityId)))

def applyUpdateAuthenticator (r : Reading) (db : Database) (id : Id) (entity : Authenticator)
    (fields : Option (List AuthField)) (unrestricted : Bool) : Option Database :=
  let update := updateAuthenticator db id (updates fields unrestricted)
  match entity.subType with
  | .updb auth =>
    if fields.all (fun fs => decide (.password ∈ fs)) then
      update { entity with subType := .updb (hashPassword c r auth) }
    else update entity
  | .cert auth =>
    if auth.pem ≠ "" ∧ fields.all (fun fs => decide (.pem ∈ fs)) then
      match c.certificates auth.pem with
      | [] => none
      | cert :: _ => update { entity with subType := .cert { auth with fingerprint := c.fingerprint cert } }
    else update entity

inductive Command
  | createEnrollment (id : Id) (entity : Enrollment)
  | reEnrollEdgeRouter (edgeRouterId : Id)
  | replaceEnrollment (enrollmentId authenticatorId : Id) (authenticator : Authenticator)
  | createAuthenticator (id : Id) (entity : Authenticator)
  | updateAuthenticator (id : Id) (entity : Authenticator) (fields : Option (List AuthField)) (unrestricted : Bool)

def apply (r : Reading) (db : Database) : Command → Option Database
  | .createEnrollment id entity => applyCreateEnrollment r db id entity
  | .reEnrollEdgeRouter edgeRouterId => applyReEnrollEdgeRouter c r db edgeRouterId
  | .replaceEnrollment enrollmentId authenticatorId authenticator =>
    applyReplace r db enrollmentId authenticatorId authenticator
  | .createAuthenticator id entity => applyCreateAuthenticator c r db id entity
  | .updateAuthenticator id entity fields unrestricted => applyUpdateAuthenticator c r db id entity fields unrestricted

end Zt.EnrollmentCommands
