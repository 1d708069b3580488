import Zt.PostureChecks
import Zt.RebuildStores

namespace Zt.ControllerPosture

open Tables EdgeCtrl PostureChecks

structure PostureResponseMfa where
  passedMfaAt : Option Int
  timedOut : Bool := false

structure PostureResponseEndpointState where
  wokenAt : Option Int := none
  unlockedAt : Option Int := none

structure ApiSessionPostureData where
  mfa : Option PostureResponseMfa := none
  endpointState : Option PostureResponseEndpointState := none

structure PostureResponseOs where
  type : String := ""
  version : String := ""
  build : String := ""
  timedOut : Bool := false

structure PostureResponseProcess where
  postureCheckId : Id
  path : String
  isRunning : Bool
  binaryHash : String := ""
  signerFingerprints : List String := []
  timedOut : Bool := false

structure PostureData where
  apiSessions : IdTable ApiSessionPostureData := ∅
  os : PostureResponseOs := {}
  processes : List PostureResponseProcess := []
  processPathMap : Table String PostureResponseProcess := ∅

def mfaPromptGracePeriod : Int := -5 * 60 * second

/-- The two prompts differ in the report they wait for. -/
def passedOn (prompt : Bool) (eventAt : PostureResponseEndpointState → Option Int)
    (apiSessionData : ApiSessionPostureData) (now : Int) : Bool :=
  if prompt then
    match apiSessionData.mfa.bind PostureResponseMfa.passedMfaAt with
    | none => false
    | some passedMfaAt =>
      (apiSessionData.endpointState.bind eventAt).all (fun event =>
        decide (event < passedMfaAt) || decide (now + mfaPromptGracePeriod < event))
  else true

def passedOnWake (p : MfaCheck) : ApiSessionPostureData → Int → Bool :=
  passedOn p.promptOnWake PostureResponseEndpointState.wokenAt

def passedOnUnlock (p : MfaCheck) : ApiSessionPostureData → Int → Bool :=
  passedOn p.promptOnUnlock PostureResponseEndpointState.unlockedAt

/-- A session that has timed out is marked so. -/
def evaluateAt (p : MfaCheck) (apiSessionId : Id) (pd : PostureData) (now : Int) : Bool × PostureData :=
  match pd.apiSessions.lookup apiSessionId with
  | none => (false, pd)
  | some apiSessionData =>
    match apiSessionData.mfa with
    | none => (false, pd)
    | some mfa =>
      match mfa.passedMfaAt with
      | none => (false, pd)
      | some passedMfaAt =>
        let mfa := { mfa with
          timedOut := mfa.timedOut || decide (p.timeoutSeconds ≠ noTimeout ∧ passedMfaAt + timeoutOf p < now) }
        let apiSessionData := { apiSessionData with mfa := some mfa }
        (!mfa.timedOut && passedOnWake p apiSessionData now && passedOnUnlock p apiSessionData now,
          { pd with apiSessions := pd.apiSessions.insert apiSessionId apiSessionData })

variable (platform : Platform)

/-- The last entry of an operating system wins. -/
def getValidOses (oses : List RebuildStores.OperatingSystem) : Table String (List (platform.Version → Bool)) :=
  oses.foldl (fun validOses os =>
    validOses.insert (platform.toLower os.osType)
      (os.osVersions.filterMap (fun version => (platform.parseRange version).toOption))) ∅

def evaluateOs (oses : List RebuildStores.OperatingSystem) (pd : PostureData) : Bool :=
  if pd.os.timedOut then false
  else match (getValidOses platform oses).lookup (platform.toLower pd.os.type) with
    | none => false
    | some validOsVersions =>
      if validOsVersions.isEmpty then true
      else match platform.make pd.os.version with
        | .error _ => false
        | .ok dataVersion => validOsVersions.any (fun validOsVersion => validOsVersion dataVersion)

def isHexDigit (c : Char) : Bool := ('a' ≤ c && c ≤ 'f') || c.isDigit

def cleanHexString (hexString : String) : String :=
  String.ofList ((platform.toLower hexString).toList.filter isHexDigit)

/-- A report takes the place of the one for the same check. -/
def place (pr : PostureResponseProcess) : List PostureResponseProcess → List PostureResponseProcess
  | [] => [pr]
  | process :: processes =>
    if process.postureCheckId = pr.postureCheckId then pr :: processes else process :: place pr processes

def PostureResponseProcess.apply (pr : PostureResponseProcess) (pd : PostureData) : PostureData :=
  let pr := { pr with
    binaryHash := cleanHexString platform pr.binaryHash
    signerFingerprints := pr.signerFingerprints.map (cleanHexString platform) }
  { pd with
    processes := place pr pd.processes
    processPathMap := if pr.path = "" then pd.processPathMap else pd.processPathMap.insert pr.path pr }

def evaluateProcess (platform : Platform) (postureCheckId : Id) (hashes : List String) (fingerprint : String) :
    List PostureResponseProcess → Bool
  | [] => false
  | process :: processes =>
    if process.postureCheckId ≠ postureCheckId then
      evaluateProcess platform postureCheckId hashes fingerprint processes
    else if process.timedOut then false
    else if !process.isRunning then false
    else if fingerprint ≠ "" ∧ !process.signerFingerprints.any (platform.equalFold fingerprint) then false
    else if hashes.length > 0 ∧ !hashes.any (fun hash => platform.equalFold hash process.binaryHash) then
      evaluateProcess platform postureCheckId hashes fingerprint processes
    else true

def PostureResponseProcess.verifyMultiCriteria (pr : PostureResponseProcess)
    (process : RebuildStores.ProcessMulti) : Bool :=
  pr.isRunning && !pr.timedOut &&
    (process.hashes.isEmpty || process.hashes.any (fun validHash => platform.equalFold validHash pr.binaryHash)) &&
      (process.signerFingerprints.isEmpty || process.signerFingerprints.any (fun validSigner =>
        pr.signerFingerprints.any (fun signer => decide (platform.toLower signer = platform.toLower validSigner))))

def requireAll (processes : List RebuildStores.ProcessMulti) (pd : PostureData) : Bool :=
  processes.all (fun process => decide (process.path ≠ "") &&
    (pd.processPathMap.lookup process.path).any (fun processData => processData.verifyMultiCriteria platform process))

def requireOne (processes : List RebuildStores.ProcessMulti) (pd : PostureData) : Bool :=
  processes.any (fun process => decide (process.path ≠ "") &&
    (pd.processPathMap.lookup process.path).any (fun processData => processData.verifyMultiCriteria platform process))

/-- None is a panic. -/
def evaluateProcessMulti (semantic : String) (processes : List RebuildStores.ProcessMulti)
    (pd : PostureData) : Option Bool :=
  if semantic = semanticAllOf then some (requireAll platform processes pd)
  else if semantic = semanticAnyOf then some (requireOne platform processes pd)
  else none

end Zt.ControllerPosture
