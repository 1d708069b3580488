import Mathlib.Algebra.Group.Nat.Defs
import Zt.EdgeCtrl
import Zt.Tables
import Zt.Trials

namespace Zt.PostureChecks

open Tables Trials EdgeCtrl
open Option (map_eq_some_iff)

/-- What the checks take from outside: version parsing, case folding and the
clock, with times and durations in nanoseconds. -/
structure Platform where
  Version : Type
  make : String → Except String Version
  parseRange : String → Except String (Version → Bool)
  toLower : String → String
  equalFold : String → String → Bool
  now : Int
  checkedAt : Int
  timeString : Int → String
  durationString : Int → String

structure OperatingSystem where
  type : String
  version : String := ""
  build : String := ""
  deriving DecidableEq

structure ClientProcess where
  path : String
  isRunning : Bool
  hash : String := ""
  signerFingerprints : List String := []
  deriving DecidableEq

/-- What a client has reported. Each part is absent until its first report. -/
structure InstanceData where
  os : Option (Option OperatingSystem) := none
  domain : Option String := none
  macs : Option (List String) := none
  unlocked : Option (Option Int) := none
  woken : Option (Option Int) := none
  processList : Option (List ClientProcess) := none
  passedMfaAt : Option Int := none
  deriving DecidableEq

structure FailedValueError (V : Type) where
  expectedValue : V
  givenValue : Option V
  reason : String

inductive Cause
  | message (text : String)
  | anyInList (failedValues : List (FailedValueError String)) (givenValues : List String)
  | oneInList (validValues givenValues : List String)
  | allProcessesInList (failedValues : List (FailedValueError ProcessEntry)) (givenValues : List ProcessEntry)
  | anyProcessInList (failedValues : List (FailedValueError ProcessEntry)) (givenValues : List ProcessEntry)

structure CheckError where
  id : Id
  name : String
  cause : Cause

def nilStateError : Cause := .message "posture state was nil, no posture data has been sent"

def notEqualError : String := "the values were not equal"

def semanticAllOf : String := "AllOf"

def semanticAnyOf : String := "AnyOf"

def formatList (values : List String) : String := "[" ++ " ".intercalate values ++ "]"

section Evaluators

variable (postureCheck : DataStatePostureCheck)

def failWith (cause : Cause) : Option CheckError := some ⟨postureCheck.id, postureCheck.name, cause⟩

def domainCheckLoop (name : String) (failedValues : List (FailedValueError String)) : List String → Option CheckError
  | [] => failWith postureCheck (.anyInList failedValues [name])
  | domain :: domains =>
    if name ≠ domain then
      domainCheckLoop name (failedValues ++ [⟨domain, some name, notEqualError⟩]) domains
    else none

/-- The outer option of a check is none where the code dereferences nil. -/
def domainCheckEvaluate (domains : List String) : Option InstanceData → Option (Option CheckError)
  | none => some (failWith postureCheck nilStateError)
  | some state => state.domain.map (fun name => domainCheckLoop postureCheck name [] domains)

def macCheckEvaluate (m : MacCheck) : Option InstanceData → Option (Option CheckError)
  | none => some (failWith postureCheck nilStateError)
  | some state => state.macs.map (fun addresses =>
    if m.macAddresses.any (fun macAddress => decide (macAddress ∈ addresses)) then none
    else failWith postureCheck (.oneInList m.macAddresses addresses))

def noTimeout : Int := -1

def second : Int := 1000000000

def promptGracePeriod : Int := 5 * 60 * second

/-- A duration is a 64-bit number of nanoseconds. -/
def timeoutOf (m : MfaCheck) : Int := (m.timeoutSeconds * second).bmod (2 ^ 64)

variable (platform : Platform)

/-- The two prompts differ in the report they wait for and in its name. -/
def promptCheck (prompt : Bool) (reported : Option (Option Int)) (event : String)
    (passedMfaAt : Int) : Option (Option CheckError) :=
  if prompt then
    reported.map (fun time =>
      let reportedAt := time.getD 0
      if platform.now > reportedAt + promptGracePeriod then
        failWith postureCheck (.message ("MFA not resupplied during grace period, " ++ event ++ " at " ++
          platform.timeString reportedAt ++ ", grace period: " ++ platform.durationString promptGracePeriod ++
          ", supplied at " ++ platform.timeString passedMfaAt ++ ", checked at: " ++ platform.timeString platform.now))
      else none)
  else some none

def mfaCheckEvaluate (m : MfaCheck) : Option InstanceData → Option (Option CheckError)
  | none => some (failWith postureCheck nilStateError)
  | some state =>
    match state.passedMfaAt with
    | none => some (failWith postureCheck (.message "MFA has never been passed"))
    | some passedMfaAt =>
      if m.timeoutSeconds ≠ noTimeout ∧ passedMfaAt + timeoutOf m < platform.checkedAt then
        some (failWith postureCheck (.message ("last MFA check exceeded timeout of " ++
          platform.durationString (timeoutOf m) ++ ", last mfa at " ++ platform.timeString passedMfaAt ++
          ", checked at " ++ platform.timeString platform.now)))
      else do
        let woken ← promptCheck postureCheck platform m.promptOnWake state.woken "woken" passedMfaAt
        match woken with
        | some err => pure (some err)
        | none => promptCheck postureCheck platform m.promptOnUnlock state.unlocked "unlocked" passedMfaAt

def sameOsType (a b : String) : Bool :=
  platform.equalFold (platform.toLower a) (platform.toLower b)

/-- The first entry of the type, or the types of all entries. -/
def findOs (platform : Platform) (type : String) (validValues : List String) :
    List OsEntry → Except (List String) OsEntry
  | [] => .error validValues
  | os :: osList =>
    if sameOsType platform os.osType type then .ok os
    else findOs platform type (validValues ++ [os.osType]) osList

def osVersionLoop (platform : Platform) (version : String) (dataVer : platform.Version) (validValues : List String) :
    List String → Option CheckError
  | [] => failWith postureCheck (.oneInList validValues [version])
  | range :: ranges =>
    match platform.parseRange range with
    | .error err => failWith postureCheck (.message err)
    | .ok versionRange =>
      if versionRange dataVer then none
      else osVersionLoop platform version dataVer (validValues ++ [range]) ranges

def osCheckEvaluate (osList : List OsEntry) : Option InstanceData → Option (Option CheckError)
  | none => some (failWith postureCheck nilStateError)
  | some data =>
    match data.os with
    | none => some (failWith postureCheck nilStateError)
    | some os => os.map (fun os =>
      match findOs platform os.type [] osList with
      | .error validValues => failWith postureCheck (.oneInList validValues [os.type])
      | .ok foundOs =>
        match platform.make os.version with
        | .error err => failWith postureCheck (.message err)
        | .ok dataVer => osVersionLoop postureCheck platform os.version dataVer [] foundOs.osVersions)

/-- The reason why a reported process is not the one the check asks for. -/
def mismatch (osType : String) (given : Option ClientProcess) (valid : ProcessEntry) : Option String :=
  match given with
  | none => some ("no matching process by path " ++ valid.path ++
      ", the process hasn't been sumitted or isn't running")
  | some given =>
    if !given.isRunning then some "process is reported as not running"
    else if valid.path ≠ given.path then
      some ("paths do not match, given " ++ given.path ++ ", expected: " ++ valid.path)
    else if !sameOsType platform valid.osType osType then
      some ("os types do not match, given " ++ osType ++ ", expected: " ++ valid.osType)
    else if valid.hashes.length > 0 ∧ given.hash ∉ valid.hashes then
      some ("hash is not valid, given " ++ given.hash ++ ", expected one of: " ++ formatList valid.hashes)
    else if valid.fingerprints.length > 0 ∧
        !given.signerFingerprints.any (fun givenPrint => decide (givenPrint ∈ valid.fingerprints)) then
      some ("valid signer not found, given: " ++ formatList given.signerFingerprints ++ ", expected one of: " ++
        formatList valid.hashes)
    else none

def compareProcesses (osType : String) (given : Option ClientProcess) (valid : ProcessEntry) :
    Option (FailedValueError ProcessEntry) :=
  (mismatch platform osType given valid).map (fun reason => ⟨valid, none, reason⟩)

/-- Of several reports for one path the last one counts. -/
def cacheProcesses (processes : List ClientProcess) : Table String ClientProcess :=
  processes.foldl (fun cache process => cache.insert process.path process) ∅

def givenProcess (osType : String) (process : ClientProcess) : ProcessEntry :=
  ⟨osType, process.path, [process.hash], process.signerFingerprints⟩

def requireAllLoop (platform : Platform) (osType : Option String) (processList : List ClientProcess)
    (failedValues : List (FailedValueError ProcessEntry)) : List ProcessEntry → Option (Option CheckError)
  | [] =>
    if failedValues.isEmpty then some none
    else osType.map (fun osType =>
      failWith postureCheck (.allProcessesInList failedValues (processList.map (givenProcess osType))))
  | process :: processes =>
    if process.path = "" then
      some (failWith postureCheck (.message ("invalid path in process check, '" ++ process.path ++ "'")))
    else
      match (cacheProcesses processList).lookup process.path with
      | none => some (failWith postureCheck (.message ("the process path " ++ process.path ++
          " was not found, it hasn't been reported or isn't running on the client")))
      | some cacheProcess =>
        osType.bind (fun type =>
          requireAllLoop platform (some type) processList
            (failedValues ++ (compareProcesses platform type (some cacheProcess) process).toList) processes)

def requireAll (processes : List ProcessEntry) :
    Option InstanceData → Option (Option CheckError)
  | none => some (failWith postureCheck nilStateError)
  | some data => data.processList.bind (fun processList =>
    requireAllLoop postureCheck platform ((data.os.bind id).map (·.type)) processList [] processes)

def requireOneLoop (platform : Platform) (osType : Option String) (processList : List ClientProcess)
    (failedValues : List (FailedValueError ProcessEntry)) : List ProcessEntry → Option (Option CheckError)
  | [] =>
    if processList.isEmpty then some (failWith postureCheck (.anyProcessInList failedValues []))
    else osType.map (fun osType =>
      failWith postureCheck (.anyProcessInList failedValues (processList.map (givenProcess osType))))
  | process :: processes =>
    match compareProcesses platform (osType.getD "") ((cacheProcesses processList).lookup process.path) process with
    | some failedValue => requireOneLoop platform osType processList (failedValues ++ [failedValue]) processes
    | none => some none

/-- A process list that has not been reported becomes an empty one. -/
def fillProcessList (data : InstanceData) : InstanceData :=
  { data with processList := some (data.processList.getD []) }

def requireOne (processes : List ProcessEntry) :
    Option InstanceData → Option (Option CheckError × Option InstanceData)
  | none => some (failWith postureCheck nilStateError, none)
  | some data =>
    (requireOneLoop postureCheck platform ((data.os.bind id).map (·.type)) (data.processList.getD []) []
      processes).map (fun err => (err, some (fillProcessList data)))

def processCheckEvaluate (p : ProcessMulti) (data : Option InstanceData) :
    Option (Option CheckError × Option InstanceData) :=
  if p.semantic = semanticAllOf then
    (requireAll postureCheck platform p.processes data).map (fun err => (err, data))
  else if p.semantic = semanticAnyOf then requireOne postureCheck platform p.processes data
  else none

end Evaluators

/-- A check of no known kind has no logic to evaluate. -/
def evaluatePostureCheck (platform : Platform) (postureCheck : DataStatePostureCheck) (data : Option InstanceData) :
    Option (Option CheckError × Option InstanceData) :=
  match postureCheck.subtype with
  | some (.mac m) => (macCheckEvaluate postureCheck m data).map (fun err => (err, data))
  | some (.osList osList) => (osCheckEvaluate postureCheck platform osList data).map (fun err => (err, data))
  | some (.process process) => processCheckEvaluate postureCheck platform ⟨semanticAllOf, [process]⟩ data
  | some (.processMulti p) => processCheckEvaluate postureCheck platform p data
  | some (.domains domains) => (domainCheckEvaluate postureCheck domains data).map (fun err => (err, data))
  | some (.mfa m) => (mfaCheckEvaluate postureCheck platform m data).map (fun err => (err, data))
  | none => none

theorem fillProcessList_of_some {data : InstanceData} {processList : List ClientProcess}
    (h : data.processList = some processList) : fillProcessList data = data := by
  cases data
  cases h
  rfl

section Settling

variable {postureCheck : DataStatePostureCheck} {platform : Platform} {data data' : Option InstanceData}
  {err : Option CheckError} {processes : List ProcessEntry}

theorem requireOneLoop_empty (osType : Option String) (failedValues : List (FailedValueError ProcessEntry))
    (processes : List ProcessEntry) :
    requireOneLoop postureCheck platform osType [] failedValues processes ≠ some none := by
  induction processes generalizing failedValues with
  | nil => simp [requireOneLoop, failWith]
  | cons process processes ih =>
    exact ih _

theorem requireAll_filled
    (h : requireAll postureCheck platform processes data = some err) : data.map fillProcessList = data := by
  cases data with
  | none => rfl
  | some data =>
    obtain ⟨processList, hlist, -⟩ := Option.bind_eq_some_iff.mp h
    exact congrArg some (fillProcessList_of_some hlist)

/-- What a check may do: it leaves the data, or fills in the process list. -/
structure Evaluated (evaluate : Option InstanceData → Option (Option CheckError × Option InstanceData)) : Prop where
  moves : ∀ {data err data'}, evaluate data = some (err, data') → data' = data ∨ data' = data.map fillProcessList
  again : ∀ {data err data'}, evaluate data = some (err, data') →
    evaluate (data.map fillProcessList) = some (err, data.map fillProcessList)
  passed : ∀ {data data'}, evaluate data = some (none, data') → data' = data

theorem evaluated_of_reads {f : Option InstanceData → Option (Option CheckError)}
    (hf : ∀ data, f (data.map fillProcessList) = f data) :
    Evaluated (fun data => (f data).map (fun err => (err, data))) := by
  constructor
  · intro data err data' h
    obtain ⟨_, -, heq⟩ := map_eq_some_iff.mp h
    cases heq
    exact .inl rfl
  · intro data err data' h
    obtain ⟨_, herr, heq⟩ := map_eq_some_iff.mp h
    cases heq
    simp [hf, herr]
  · intro data data' h
    obtain ⟨_, -, heq⟩ := map_eq_some_iff.mp h
    cases heq
    rfl

theorem evaluated_requireAll :
    Evaluated (fun data => (requireAll postureCheck platform processes data).map (fun err => (err, data))) := by
  constructor
  · intro data err data' h
    obtain ⟨_, -, heq⟩ := map_eq_some_iff.mp h
    cases heq
    exact .inl rfl
  · intro data err data' h
    obtain ⟨_, herr, heq⟩ := map_eq_some_iff.mp h
    cases heq
    rw [requireAll_filled herr]
    exact h
  · intro data data' h
    obtain ⟨_, -, heq⟩ := map_eq_some_iff.mp h
    cases heq
    rfl

theorem evaluated_requireOne : Evaluated (requireOne postureCheck platform processes) := by
  constructor
  · intro data err data' h
    cases data with
    | none =>
      cases h
      exact .inl rfl
    | some data =>
      obtain ⟨_, -, heq⟩ := map_eq_some_iff.mp h
      cases heq
      exact .inr rfl
  · intro data err data' h
    cases data with
    | none =>
      cases h
      rfl
    | some data =>
      obtain ⟨_, herr, heq⟩ := map_eq_some_iff.mp h
      cases heq
      exact map_eq_some_iff.mpr ⟨_, herr, rfl⟩
  · intro data data' h
    cases data with
    | none => cases h
    | some data =>
      obtain ⟨_, herr, heq⟩ := map_eq_some_iff.mp h
      cases heq
      cases hlist : data.processList with
      | none =>
        rw [hlist] at herr
        exact absurd herr (requireOneLoop_empty _ _ _)
      | some processList => exact congrArg some (fillProcessList_of_some hlist)

theorem evaluated_processCheck {p : ProcessMulti} : Evaluated (processCheckEvaluate postureCheck platform p) := by
  by_cases hall : p.semantic = semanticAllOf
  · have heq : processCheckEvaluate postureCheck platform p =
        fun data => (requireAll postureCheck platform p.processes data).map (fun err => (err, data)) :=
      funext (fun _ => if_pos hall)
    rw [heq]
    exact evaluated_requireAll
  · by_cases hany : p.semantic = semanticAnyOf
    · have heq : processCheckEvaluate postureCheck platform p = requireOne postureCheck platform p.processes :=
        funext (fun _ => (if_neg hall).trans (if_pos hany))
      rw [heq]
      exact evaluated_requireOne
    · have heq : processCheckEvaluate postureCheck platform p = fun _ => none :=
        funext (fun _ => (if_neg hall).trans (if_neg hany))
      rw [heq]
      exact ⟨nofun, nofun, nofun⟩

theorem evaluated_evaluatePostureCheck : Evaluated (evaluatePostureCheck platform postureCheck) := by
  unfold evaluatePostureCheck
  cases postureCheck.subtype with
  | none => exact ⟨nofun, nofun, nofun⟩
  | some subtype =>
    cases subtype with
    | mac m => exact evaluated_of_reads (fun data => by cases data <;> rfl)
    | mfa m => exact evaluated_of_reads (fun data => by cases data <;> rfl)
    | osList osList => exact evaluated_of_reads (fun data => by cases data <;> rfl)
    | process process => exact evaluated_processCheck
    | processMulti p => exact evaluated_processCheck
    | domains domains => exact evaluated_of_reads (fun data => by cases data <;> rfl)

end Settling

end Zt.PostureChecks
