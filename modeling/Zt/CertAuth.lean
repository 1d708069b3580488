import Zt.Base64
import Zt.EnrollmentCommands
import Zt.PasswordLogins

namespace Zt.CertAuth

open Tables EdgeCtrl
open EnrollmentCommands (AuthMethod AuthField AuthenticatorUpdb AuthenticatorCert StoredAuthenticator EdgeRouter)

def clientCertHeader : String := "X-Client-CertPem"
def edgeRouterProxyRequest : String := "X-Edge-Router-Proxy-Request"
def internalCertAuthenticatorId : Id := "internal"
def methodAuthenticatorCertCaExternalId : String := "certCaExternalId"

/-- Times are in nanoseconds. -/
structure Certificate where
  raw : List UInt8
  notBefore : Int
  notAfter : Int
  deriving DecidableEq

inductive ClaimLocation
  | commonName
  | sanUri
  | sanEmail
  | other (name : String)

inductive ClaimMatcher
  | all
  | suffix
  | prefixed
  | scheme
  | other (name : String)

inductive ClaimParser
  | none
  | split
  | other (name : String)

structure ExternalIdClaim where
  location : ClaimLocation
  matcher : ClaimMatcher
  matcherCriteria : String := ""
  parser : ClaimParser
  parserCriteria : String := ""
  index : Int := 0

structure Ca where
  externalIdClaim : Option ExternalIdClaim

inductive Matcher
  | all
  | hasPrefix (text : String)
  | hasSuffix (text : String)
  | scheme (text : String)

inductive Parser
  | noOp
  | split (separator : String)

structure Definition where
  location : ClaimLocation
  matcher : Matcher
  parser : Parser

/-- The parsing and verification of certificates. A verification takes the leaf,
the intermediates and the roots. -/
structure X509 where
  parseCertificates : List UInt8 → Option (List Certificate)
  verify : Certificate → List Certificate → List Certificate → Except Unit (List (List Certificate))
  claims : Definition → Certificate → List String
  fingerprint : List UInt8 → String
  encodePem : List UInt8 → String
  publicKeySha256 : Certificate → String

inductive HeaderValue
  | string (text : String)
  | strings (texts : List String)
  | other

structure AuthContext where
  certs : List Certificate
  headers : Table String HeaderValue := ∅

/-- The names of headers are put in lower case. -/
def newAuthContextHttp (peerCertificates : List Certificate) (header : List (String × List String)) : AuthContext where
  certs := peerCertificates
  headers := header.foldl (fun headers h => headers.insert h.1.toLower (.strings h.2)) ∅

structure TrustCache where
  staticFirstPartyRootPool : List Certificate := []
  staticFirstPartyTrustAnchorPool : List Certificate := []
  thirdPartyTrustAnchorPool : List Certificate := []
  activeThirdPartyCas : Table String Ca := ∅

structure Identity extends PasswordLogins.Identity where
  externalId : Option String := none

structure AuthPolicyCert where
  allowed : Bool
  allowExpiredCerts : Bool

structure Env where
  x509 : X509
  trustCache : TrustCache := {}
  authenticators : IdTable StoredAuthenticator := ∅
  identities : IdTable Identity := ∅
  authPolicies : IdTable AuthPolicyCert := ∅
  edgeRouters : IdTable EdgeRouter := ∅

/-- The clock when the chains are built, when the identity is read and when the
validity of the certificate is checked. -/
structure Clock where
  verifying : Int
  reading : Int
  checking : Int

inductive AuthFailure
  | panicked
  | invalidAuth
  | couldNotDecodeProxiedCert
  | couldNotParseX509FromDer
  deriving DecidableEq

def hour : Int := 3600000000000

section

variable (env : Env)

def fromCert (cert : Certificate) : String := env.x509.fingerprint cert.raw

/-- The validity of the leaf is set around the time of the verification. -/
def verifyClientCerts (now : Int) (clientCert : Certificate) (others roots : List Certificate) :
    Except Unit (List (List Certificate)) :=
  env.x509.verify { clientCert with notBefore := now - hour, notAfter := now + hour } others roots

def isCertExpirationValid (now : Int) (clientCert : Certificate) : Bool :=
  decide (now < clientCert.notAfter) && decide (clientCert.notBefore < now)

def isEdgeRouter (clientCert : Certificate) : Bool :=
  (pairs env.edgeRouters).any (fun router => router.2.fingerprint = some (fromCert env clientCert))

/-- The destination of the decoding is a slice without room, and stays so. -/
def getProxiedClientCerts (ctx : AuthContext) : Except AuthFailure (List Certificate) :=
  match ctx.certs, ctx.headers.lookup clientCertHeader with
  | [], _ => .error .invalidAuth
  | _, none => .error .invalidAuth
  | peer :: _, some (.string proxyRaw64) =>
    if proxyRaw64 = "" then .error .invalidAuth
    else if isEdgeRouter env peer = false then .error .invalidAuth
    else match Base64.decode 0 proxyRaw64 with
      | .panicked => .error .panicked
      | .corrupt => .error .couldNotDecodeProxiedCert
      | .ok _ => (env.x509.parseCertificates []).elim (.error .couldNotParseX509FromDer) .ok
  | _, some _ => .error .panicked

def getClientCerts (ctx : AuthContext) : Except AuthFailure (List Certificate) :=
  if ctx.certs = [] then .ok []
  else if (ctx.headers.lookup edgeRouterProxyRequest).isSome then getProxiedClientCerts env ctx
  else .ok ctx.certs

def getCaByChain (activeCas : Table String Ca) (chains : List (List Certificate)) : Option Ca :=
  chains.findSome? (fun chain => chain.findSome? (fun cert => activeCas.lookup (fromCert env cert)))

variable (claim : ExternalIdClaim)

def getStringParser : Option Parser :=
  match claim.parser with
  | .none => some .noOp
  | .split => if claim.parserCriteria = "" then none else some (.split claim.parserCriteria)
  | .other _ => none

def withCriteria (matcher : String → Matcher) : Option Matcher :=
  if claim.matcherCriteria = "" then none else some (matcher claim.matcherCriteria)

def getStringDefinition : Option Definition := do
  let matcher ← match claim.matcher with
    | .all => some .all
    | .prefixed => withCriteria claim .hasPrefix
    | .suffix => withCriteria claim .hasSuffix
    | _ => none
  let parser ← getStringParser claim
  return ⟨claim.location, matcher, parser⟩

def getUriDefinition : Option Definition := do
  let matcher ← match claim.matcher with
    | .all => some .all
    | .scheme => withCriteria claim .scheme
    | _ => none
  let parser ← getStringParser claim
  return ⟨claim.location, matcher, parser⟩

/-- A location is set on the definition before its error is looked at, so without
a definition there is a panic. A location of another kind has no definition. -/
def definitions : Option (List Definition) :=
  match claim.location with
  | .commonName | .sanEmail => (getStringDefinition claim).map ([·])
  | .sanUri => (getUriDefinition claim).map ([·])
  | .other _ => some []

/-- None for an error. -/
def Ca.getExternalId (ca : Ca) (cert : Certificate) : Except AuthFailure (Option String) :=
  match ca.externalIdClaim with
  | none => .ok (some "")
  | some claim =>
    match definitions claim with
    | none => .error .panicked
    | some definitions =>
      let claims := definitions.flatMap (fun definition => env.x509.claims definition cert)
      if claim.index < claims.length then
        if claim.index < 0 then .error .panicked else .ok claims[claim.index.toNat]?
      else .ok none

structure Verification where
  chains : List (List Certificate)
  improperClientCertChain : Bool := false
  targetThirdPartyCa : Option Ca := none

def verifyByPools (now : Int) (clientCert : Certificate) (others : List Certificate) : Verification :=
  let verify := verifyClientCerts env now clientCert others
  let rootChains := (verify env.trustCache.staticFirstPartyRootPool).toOption.getD []
  if rootChains ≠ [] then { chains := rootChains }
  else
    let anchorChains := (verify env.trustCache.staticFirstPartyTrustAnchorPool).toOption.getD []
    if anchorChains ≠ [] then { chains := anchorChains, improperClientCertChain := true }
    else match verify env.trustCache.thirdPartyTrustAnchorPool with
      | .error _ => { chains := [] }
      | .ok chains =>
        { chains := chains, targetThirdPartyCa := getCaByChain env env.trustCache.activeThirdPartyCas chains }

def externalIdOf (ca : Option Ca) (clientCert : Certificate) : Except AuthFailure String :=
  match ca with
  | none => .ok ""
  | some ca => (ca.getExternalId env clientCert).map (fun externalId => externalId.getD "")

inductive SubType
  | updb (auth : AuthenticatorUpdb)
  | cert (auth : AuthenticatorCert)
  | certValue (auth : AuthenticatorCert)

structure Authenticator where
  id : Id
  method : AuthMethod
  identityId : Id
  subType : SubType

def Authenticator.toCert (authenticator : Authenticator) : Option AuthenticatorCert :=
  match authenticator.subType with
  | .cert auth => some auth
  | _ => none

/-- What is about extending is read only for certificates of the network. -/
def fillCert (stored : AuthenticatorCert) : AuthenticatorCert :=
  if stored.isIssuedByNetwork then
    { stored with isKeyRollRequested := stored.isExtendRequested && stored.isKeyRollRequested }
  else
    { fingerprint := stored.fingerprint, pem := stored.pem, unverifiedPem := stored.unverifiedPem
      unverifiedFingerprint := stored.unverifiedFingerprint }

def fillFrom (id : Id) (row : StoredAuthenticator) : Except AuthFailure Authenticator :=
  match row.method with
  | .updb => .ok ⟨id, .updb, row.identityId, .updb row.updb⟩
  | .cert => .ok ⟨id, .cert, row.identityId, .cert (fillCert row.cert)⟩
  | .other _ => .error .panicked

/-- The index leaves out the empty text. -/
def storedByFingerprint (fingerprint : String) : Option (Id × StoredAuthenticator) :=
  if fingerprint = "" then none
  else (pairs env.authenticators).find? (fun a => a.2.cert.fingerprint = fingerprint)

def readByExternalId (externalId : String) : Option (Id × Identity) :=
  (pairs env.identities).find? (fun identity => identity.2.externalId = some externalId)

def authenticatorExternalId (identityId : Id) (clientCert : Certificate) : Authenticator where
  id := internalCertAuthenticatorId
  method := .other methodAuthenticatorCertCaExternalId
  identityId := identityId
  subType := .certValue
    { fingerprint := fromCert env clientCert, pem := env.x509.encodePem clientCert.raw }

/-- The authenticator and the identity, with its id. -/
def resolve (clientCert : Certificate) (externalId : String) : Except AuthFailure (Authenticator × Id × Identity) :=
  if externalId ≠ "" then
    match readByExternalId env externalId with
    | none => .error .invalidAuth
    | some (id, identity) => .ok (authenticatorExternalId env id clientCert, id, identity)
  else
    match storedByFingerprint env (fromCert env clientCert) with
    | none => .error .invalidAuth
    | some (id, row) => do
      let authenticator ← fillFrom id row
      match env.identities.lookup authenticator.identityId with
      | none => .error .invalidAuth
      | some identity => .ok (authenticator, authenticator.identityId, identity)

/-- The fields to write are handed to a task in the background. -/
def ensureAuthenticatorIsUpToDate (authCert : AuthenticatorCert) (clientCert : Certificate) (verifiedToRoot : Bool) :
    AuthenticatorCert × List AuthField :=
  let (authCert, fields) :=
    if authCert.pem = "" then ({ authCert with pem := env.x509.encodePem clientCert.raw }, [.pem]) else (authCert, [])
  let (authCert, fields) :=
    if authCert.publicKeyPrint = "" then
      ({ authCert with publicKeyPrint := env.x509.publicKeySha256 clientCert }, fields ++ [.publicKeyPrint])
    else (authCert, fields)
  if authCert.isIssuedByNetwork ∧ authCert.lastAuthResolvedToRoot ≠ verifiedToRoot then
    ({ authCert with lastAuthResolvedToRoot := verifiedToRoot }, fields ++ [.lastAuthResolvedToRoot])
  else (authCert, fields)

structure AuthResult where
  identityId : Id
  authenticator : Authenticator
  sessionCerts : List Certificate
  authPolicy : AuthPolicyCert
  improperClientCertChain : Bool
  updatedFields : List AuthField := []

variable (clock : Clock)

/-- The checks on the identity and its policy. -/
def admission (clientCert : Certificate) (improper : Bool) (authenticator : Authenticator) (identityId : Id)
    (identity : Identity) : Except AuthFailure AuthResult :=
  if identity.disabled clock.reading then .error .invalidAuth
  else match env.authPolicies.lookup identity.authPolicyId with
    | none => .error .invalidAuth
    | some authPolicy =>
      if authPolicy.allowed = false then .error .invalidAuth
      else if authPolicy.allowExpiredCerts = false ∧ isCertExpirationValid clock.checking clientCert = false then
        .error .invalidAuth
      else if authenticator.id = internalCertAuthenticatorId then
        .ok ⟨identityId, authenticator, [clientCert], authPolicy, improper, []⟩
      else match authenticator.toCert with
        | none => .error .invalidAuth
        | some authCert =>
          let (authCert, fields) := ensureAuthenticatorIsUpToDate env authCert clientCert (!improper)
          .ok ⟨identityId, { authenticator with subType := .cert authCert }, [clientCert], authPolicy, improper, fields⟩

def processCerts (clientCert : Certificate) (others : List Certificate) : Except AuthFailure AuthResult :=
  let verification := verifyByPools env clock.verifying clientCert others
  if verification.chains = [] then .error .invalidAuth
  else do
    let externalId ← externalIdOf env verification.targetThirdPartyCa clientCert
    let (authenticator, identityId, identity) ← resolve env clientCert externalId
    admission env clock clientCert verification.improperClientCertChain authenticator identityId identity

def processAll : List Certificate → Except AuthFailure AuthResult
  | [] => .error .invalidAuth
  | clientCert :: others => processCerts env clock clientCert others

def process (ctx : AuthContext) : Except AuthFailure AuthResult := do
  let certs ← getClientCerts env ctx
  processAll env clock certs

end

end Zt.CertAuth
