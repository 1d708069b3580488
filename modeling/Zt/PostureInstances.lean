import Zt.PostureChecks
import Zt.Runs

namespace Zt.PostureInstances

open Tables EdgeCtrl PostureChecks

structure TotpClaims where
  apiSessionId : Id
  issuedAt : Option Int

/-- The posture data of an API session. -/
structure Instance extends InstanceData where
  apiSessionId : Id
  deriving DecidableEq

def newInstance (apiSessionId : Id) : Instance := { apiSessionId }

inductive PostureResponse
  | os (os : OperatingSystem)
  | domain (name : String)
  | macs (addresses : List String)
  | unlocked (time : Option Int)
  | woken (time : Option Int)
  | processList (processes : List ClientProcess)
  | totpToken (token : String)
  | unknown

namespace PostureResponse

def getProcessList : PostureResponse → Option (List ClientProcess)
  | processList processes => some processes
  | _ => none

def getTotpToken : PostureResponse → Option String
  | totpToken token => some token
  | _ => none

end PostureResponse

def isOsDifferent (old : Option (Option OperatingSystem)) (new : OperatingSystem) : Bool :=
  match old with
  | some (some old) => decide (old.type ≠ new.type ∨ old.version ≠ new.version ∨ old.build ≠ new.build)
  | _ => true

/-- A report without a time counts as one at the epoch. -/
def isLater (old : Option (Option Int)) (new : Option Int) : Bool :=
  old.all (fun old => decide (old.getD 0 < new.getD 0))

def isProcessListDifferent (listA listB : Option (List ClientProcess)) : Bool :=
  let listA := listA.getD []
  let listB := listB.getD []
  if listA.isEmpty && listB.isEmpty then false
  else if listA.isEmpty != listB.isEmpty then true
  else
    let procAs := cacheProcesses listA
    let procBs := cacheProcesses listB
    decide (procAs.keys.length ≠ procBs.keys.length) ||
      (pairs procAs).any (fun entry => (procBs.lookup entry.1).all (fun procB => decide (entry.2 ≠ procB))) ||
      (pairs procBs).any (fun entry => decide (entry.1 ∉ procAs))

section Apply

variable (parseTotpToken : String → Option TotpClaims)

/-- A token counts for the session it was issued for, and only if it is newer. -/
def applyTotpToken (inst : Instance) (token : String) : Instance × Bool :=
  match parseTotpToken token with
  | none => (inst, false)
  | some totpClaims =>
    match totpClaims.issuedAt with
    | none => (inst, false)
    | some passedAt =>
      if totpClaims.apiSessionId = inst.apiSessionId ∧
          inst.passedMfaAt.all (fun lastAt => decide (lastAt < passedAt)) then
        ({ inst with passedMfaAt := some passedAt }, true)
      else (inst, false)

/-- The last arms of the chain: the process list is compared before the kind of
the response is known. -/
def applyRest (inst : Instance) (response : PostureResponse) : Instance × Bool :=
  if isProcessListDifferent inst.processList response.getProcessList then
    ({ inst with processList := response.getProcessList }, true)
  else
    match response.getTotpToken with
    | some token => applyTotpToken parseTotpToken inst token
    | none => (inst, false)

def apply (inst : Instance) (response : PostureResponse) : Instance × Bool :=
  match response with
  | .os os => if isOsDifferent inst.os os then ({ inst with os := some (some os) }, true) else (inst, false)
  | .domain name => if inst.domain ≠ some name then ({ inst with domain := some name }, true) else (inst, false)
  | .macs addresses =>
    if inst.macs ≠ some addresses then ({ inst with macs := some addresses }, true) else (inst, false)
  | .unlocked time =>
    if isLater inst.unlocked time then ({ inst with unlocked := some time }, true) else (inst, false)
  | .woken time => if isLater inst.woken time then ({ inst with woken := some time }, true) else (inst, false)
  | response => applyRest parseTotpToken inst response

def applyAll (apiSessionId : Id) (responses : List PostureResponse) : Instance :=
  responses.foldl (fun inst response => (apply parseTotpToken inst response).1) (newInstance apiSessionId)

end Apply

/-- The data without the part that a response is about. -/
def otherKinds (data : InstanceData) : PostureResponse → InstanceData
  | .os _ => { data with os := none }
  | .domain _ => { data with domain := none }
  | .macs _ => { data with macs := none }
  | .unlocked _ => { data with unlocked := none }
  | .woken _ => { data with woken := none }
  | .processList _ => { data with processList := none }
  | .totpToken _ => { data with passedMfaAt := none }
  | .unknown => data

/-- A token for the session that is newer than the one that counts. -/
def Renews (parseTotpToken : String → Option TotpClaims) (inst : Instance) (response : PostureResponse)
    (passedAt : Int) : Prop :=
  ∃ token totpClaims, response = .totpToken token ∧ parseTotpToken token = some totpClaims ∧
    totpClaims.issuedAt = some passedAt ∧ totpClaims.apiSessionId = inst.apiSessionId ∧
    ∀ lastAt, inst.passedMfaAt = some lastAt → lastAt < passedAt

/-- A response changes its own kind of data only, and a token is not ignored. -/
def AppliesInPlace (parseTotpToken : String → Option TotpClaims) (inst : Instance) (response : PostureResponse) :
    Prop :=
  otherKinds (apply parseTotpToken inst response).1.toInstanceData response =
      otherKinds inst.toInstanceData response ∧
    ∀ passedAt, Renews parseTotpToken inst response passedAt →
      (apply parseTotpToken inst response).1.passedMfaAt = some passedAt

def HoldsNoProcesses (data : InstanceData) : Prop := data.processList.getD [] = []

/-- A response that reaches the last arms without a list meets no stored one. -/
def ReachesItsArm (data : InstanceData) : PostureResponse → Prop
  | .totpToken _ => HoldsNoProcesses data
  | .unknown => HoldsNoProcesses data
  | _ => True

variable {parseTotpToken : String → Option TotpClaims} {inst : Instance} {response : PostureResponse}

theorem isProcessListDifferent_none : isProcessListDifferent inst.processList none = true ↔
    ¬ HoldsNoProcesses inst.toInstanceData := by
  cases h : inst.processList.getD [] <;> simp [isProcessListDifferent, HoldsNoProcesses, h]

/-- The process list that is lost is of another kind than the response. -/
theorem not_inPlace_of_processes (hlist : response.getProcessList = none)
    (happly : apply parseTotpToken inst response = applyRest parseTotpToken inst response)
    (hkind : ∀ data, (otherKinds data response).processList = data.processList)
    (h : ¬ HoldsNoProcesses inst.toInstanceData) : ¬ AppliesInPlace parseTotpToken inst response := by
  intro hplace
  have hsame := congrArg InstanceData.processList hplace.1
  rw [hkind, hkind, happly, applyRest, hlist, if_pos (isProcessListDifferent_none.mpr h)] at hsame
  exact h (by rw [HoldsNoProcesses, ← hsame]; rfl)

variable {token : String}

theorem otherKinds_applyTotpToken :
    otherKinds (applyTotpToken parseTotpToken inst token).1.toInstanceData (.totpToken token) =
      otherKinds inst.toInstanceData (.totpToken token) := by
  unfold applyTotpToken
  repeat' split
  all_goals rfl

theorem applyTotpToken_renews {passedAt : Int} (h : Renews parseTotpToken inst (.totpToken token) passedAt) :
    (applyTotpToken parseTotpToken inst token).1.passedMfaAt = some passedAt := by
  obtain ⟨_, totpClaims, heq, hparse, hissued, hsess, hnewer⟩ := h
  cases heq
  have hall : inst.passedMfaAt.all (fun lastAt => decide (lastAt < passedAt)) = true := by
    cases hat : inst.passedMfaAt with
    | none => rfl
    | some lastAt => simpa using hnewer lastAt hat
  simp [applyTotpToken, hparse, hissued, hsess, hall]

/-- A response of another kind than a token renews nothing. -/
theorem inPlace_of_otherKinds (hkind : response.getTotpToken = none)
    (h : otherKinds (apply parseTotpToken inst response).1.toInstanceData response =
      otherKinds inst.toInstanceData response) : AppliesInPlace parseTotpToken inst response := by
  refine ⟨h, ?_⟩
  rintro - ⟨token, -, rfl, -⟩
  cases hkind

/-- A token is ignored, and the stored process list lost, exactly when there is
a process list stored. -/
theorem appliesInPlace_iff (parseTotpToken : String → Option TotpClaims) (inst : Instance)
    (response : PostureResponse) :
    AppliesInPlace parseTotpToken inst response ↔ ReachesItsArm inst.toInstanceData response := by
  cases response with
  | processList processes =>
    refine iff_of_true (inPlace_of_otherKinds rfl ?_) trivial
    by_cases h : isProcessListDifferent inst.processList (some processes) = true <;>
      simp [apply, applyRest, PostureResponse.getProcessList, PostureResponse.getTotpToken, h, otherKinds]
  | totpToken token =>
    refine ⟨fun h => by_contra (fun hp => not_inPlace_of_processes rfl rfl (fun _ => rfl) hp h), fun h => ?_⟩
    have happly : apply parseTotpToken inst (.totpToken token) = applyTotpToken parseTotpToken inst token :=
      if_neg (fun h' => isProcessListDifferent_none.mp h' h)
    refine ⟨?_, fun passedAt hrenews => ?_⟩
    · rw [happly]
      exact otherKinds_applyTotpToken
    · rw [happly]
      exact applyTotpToken_renews hrenews
  | unknown =>
    refine ⟨fun h => by_contra (fun hp => not_inPlace_of_processes rfl rfl (fun _ => rfl) hp h), fun h => ?_⟩
    have happly : apply parseTotpToken inst .unknown = (inst, false) :=
      if_neg (fun h' => isProcessListDifferent_none.mp h' h)
    exact inPlace_of_otherKinds rfl (by rw [happly])
  | _ =>
    refine iff_of_true (inPlace_of_otherKinds rfl ?_) trivial
    simp only [apply]
    split <;> rfl

/-- A token that comes after a process list is ignored, and the list is lost. -/
theorem token_loses_process_list :
    (let parseTotpToken := fun _ : String => some (⟨"session", some 7⟩ : TotpClaims)
     let inst := applyAll parseTotpToken "session" [.processList [⟨"/bin/agent", true, "", []⟩]]
     inst.processList = some [⟨"/bin/agent", true, "", []⟩] ∧
       apply parseTotpToken inst (.totpToken "token") = ({ inst with processList := none }, true) ∧
       ¬ AppliesInPlace parseTotpToken inst (.totpToken "token")) := by
  refine ⟨by decide, by decide, fun h => ?_⟩
  have hsame := congrArg InstanceData.processList h.1
  revert hsame
  decide

section Totality

variable {postureCheck : DataStatePostureCheck} {platform : Platform} {processList : List ClientProcess}
  {processes : List ProcessEntry} {failedValues : List (FailedValueError ProcessEntry)} {osType : Option String}

/-- The check reports on the first of its processes, so it needs the type of
the operating system. -/
def ComparesFirst (processList : List ClientProcess) : List ProcessEntry → Prop
  | [] => False
  | process :: _ => process.path ≠ "" ∧ ((cacheProcesses processList).lookup process.path).isSome

theorem requireAllLoop_isSome {osType : String} :
    (requireAllLoop postureCheck platform (some osType) processList failedValues processes).isSome := by
  induction processes generalizing failedValues with
  | nil => by_cases h : failedValues.isEmpty <;> simp [requireAllLoop, h]
  | cons process processes ih =>
    by_cases hpath : process.path = ""
    · simp [requireAllLoop, hpath]
    · cases hcache : (cacheProcesses processList).lookup process.path <;>
        simp [requireAllLoop, hpath, hcache, ih]

theorem requireAllLoop_isSome_iff :
    (requireAllLoop postureCheck platform osType processList [] processes).isSome ↔
      (ComparesFirst processList processes → osType ≠ none) := by
  cases osType with
  | some osType => simp [requireAllLoop_isSome]
  | none =>
    cases processes with
    | nil => simp [requireAllLoop, ComparesFirst]
    | cons process processes =>
      by_cases hpath : process.path = ""
      · simp [requireAllLoop, ComparesFirst, hpath]
      · cases hcache : (cacheProcesses processList).lookup process.path <;>
          simp [requireAllLoop, ComparesFirst, hpath, hcache]

/-- A search that finds no process reports on all those that were reported. -/
theorem requireOneLoop_isSome_iff :
    (requireOneLoop postureCheck platform osType processList failedValues processes).isSome ↔
      (processList ≠ [] → (∀ process ∈ processes, compareProcesses platform (osType.getD "")
        ((cacheProcesses processList).lookup process.path) process ≠ none) → osType ≠ none) := by
  induction processes generalizing failedValues with
  | nil => cases osType <;> cases processList <;> simp [requireOneLoop]
  | cons process processes ih =>
    cases hcompare : compareProcesses platform (osType.getD "")
        ((cacheProcesses processList).lookup process.path) process with
    | none => simp [requireOneLoop, hcompare]
    | some failedValue => simp [requireOneLoop, hcompare, ih]

end Totality

/-- A prompt needs the report that it waits for. -/
def PromptReported (prompt : Bool) (reported : Option (Option Int)) : Prop := prompt = true → reported ≠ none

variable (platform : Platform)

/-- The prompt fails, so that the next one is not looked at. -/
def PromptFails (prompt : Bool) (reported : Option (Option Int)) : Prop :=
  prompt = true ∧ ∃ time, reported = some time ∧ platform.now > time.getD 0 + promptGracePeriod

def MfaReported (m : MfaCheck) (data : InstanceData) : Prop :=
  ∀ passedMfaAt, data.passedMfaAt = some passedMfaAt →
    ¬ (m.timeoutSeconds ≠ noTimeout ∧ passedMfaAt + timeoutOf m < platform.checkedAt) →
    PromptReported m.promptOnWake data.woken ∧
      (¬ PromptFails platform m.promptOnWake data.woken → PromptReported m.promptOnUnlock data.unlocked)

def AllReported (processes : List ProcessEntry) (data : InstanceData) : Prop :=
  ∃ processList, data.processList = some processList ∧ (ComparesFirst processList processes → data.os ≠ none)

def AnyReported (processes : List ProcessEntry) (data : InstanceData) : Prop :=
  data.processList.getD [] ≠ [] → (∀ process ∈ processes, compareProcesses platform ""
      ((cacheProcesses (data.processList.getD [])).lookup process.path) process ≠ none) → data.os ≠ none

/-- What a check reads without looking whether it is there has been reported. -/
def Reported (data : InstanceData) : PostureCheckSubtype → Prop
  | .mac _ => data.macs ≠ none
  | .domains _ => data.domain ≠ none
  | .osList _ => True
  | .mfa m => MfaReported platform m data
  | .process process => AllReported [process] data
  | .processMulti p =>
    if p.semantic = semanticAllOf then AllReported p.processes data else AnyReported platform p.processes data

/-- The kinds of checks that there are. -/
def IsKnown : PostureCheckSubtype → Prop
  | .processMulti p => p.semantic = semanticAllOf ∨ p.semantic = semanticAnyOf
  | _ => True

section Evaluation

variable {postureCheck : DataStatePostureCheck} {platform : Platform} {data : InstanceData}

theorem osType_eq_none_iff (hos : data.os ≠ some none) : (data.os.bind id).map (·.type) = none ↔ data.os = none := by
  rcases h : data.os with _ | _ | -
  · simp
  · exact absurd h hos
  · simp

theorem requireAll_isSome_iff (hos : data.os ≠ some none) (processes : List ProcessEntry) :
    (requireAll postureCheck platform processes (some data)).isSome ↔ AllReported processes data := by
  cases h : data.processList with
  | none => simp [requireAll, AllReported, h]
  | some processList =>
    simp only [requireAll, AllReported, h, Option.bind_some, requireAllLoop_isSome_iff, ne_eq,
      osType_eq_none_iff hos]
    simp

theorem requireOne_isSome_iff (hos : data.os ≠ some none) (processes : List ProcessEntry) :
    (requireOne postureCheck platform processes (some data)).isSome ↔ AnyReported platform processes data := by
  simp only [requireOne, Option.isSome_map, requireOneLoop_isSome_iff, ne_eq, osType_eq_none_iff hos, AnyReported]
  by_cases h : data.os = none
  · simp [h]
  · simp [h]

section Prompts

variable (postureCheck : DataStatePostureCheck) (platform : Platform) (prompt : Bool) (reported : Option (Option Int))
  (event : String) (passedMfaAt : Int)

theorem promptCheck_isSome_iff :
    (promptCheck postureCheck platform prompt reported event passedMfaAt).isSome ↔ PromptReported prompt reported := by
  cases prompt <;> cases reported <;> simp [promptCheck, PromptReported]

theorem promptCheck_fails_iff :
    (∃ err, promptCheck postureCheck platform prompt reported event passedMfaAt = some (some err)) ↔
      PromptFails platform prompt reported := by
  cases prompt with
  | false => simp [promptCheck, PromptFails]
  | true =>
    cases reported with
    | none => simp [promptCheck, PromptFails]
    | some time =>
      by_cases h : platform.now > time.getD 0 + promptGracePeriod <;>
        simp [promptCheck, PromptFails, failWith]

end Prompts

theorem mfaCheckEvaluate_isSome_iff {m : MfaCheck} :
    (mfaCheckEvaluate postureCheck platform m (some data)).isSome ↔ MfaReported platform m data := by
  simp only [mfaCheckEvaluate, MfaReported]
  cases hpassed : data.passedMfaAt with
  | none => simp
  | some passedMfaAt =>
    by_cases htimeout : m.timeoutSeconds ≠ noTimeout ∧ passedMfaAt + timeoutOf m < platform.checkedAt
    · simp only [Option.some.injEq, forall_eq', if_pos htimeout]
      exact iff_of_true rfl (absurd htimeout)
    · simp only [Option.some.injEq, forall_eq', htimeout]
      rw [← promptCheck_isSome_iff postureCheck platform m.promptOnWake data.woken "woken" passedMfaAt,
        ← promptCheck_fails_iff postureCheck platform m.promptOnWake data.woken "woken" passedMfaAt,
        ← promptCheck_isSome_iff postureCheck platform m.promptOnUnlock data.unlocked "unlocked" passedMfaAt]
      rcases promptCheck postureCheck platform m.promptOnWake data.woken "woken" passedMfaAt with _ | _ | - <;>
        simp

theorem processCheckEvaluate_isSome_iff (hos : data.os ≠ some none) (p : ProcessMulti)
    (hknown : p.semantic = semanticAllOf ∨ p.semantic = semanticAnyOf) :
    (processCheckEvaluate postureCheck platform p (some data)).isSome ↔
      if p.semantic = semanticAllOf then AllReported p.processes data else AnyReported platform p.processes data := by
  by_cases hall : p.semantic = semanticAllOf
  · simp [processCheckEvaluate, if_pos hall, requireAll_isSome_iff hos]
  · simp [processCheckEvaluate, if_neg hall, if_pos (hknown.resolve_left hall), requireOne_isSome_iff hos]

theorem evaluatePostureCheck_isSome_iff (hos : data.os ≠ some none) {subtype : PostureCheckSubtype}
    (hsubtype : postureCheck.subtype = some subtype) (hknown : IsKnown subtype) :
    (evaluatePostureCheck platform postureCheck (some data)).isSome ↔ Reported platform data subtype := by
  simp only [evaluatePostureCheck, hsubtype]
  cases subtype with
  | mac m => cases h : data.macs <;> simp [macCheckEvaluate, Reported, h]
  | domains domains => cases h : data.domain <;> simp [domainCheckEvaluate, Reported, h]
  | osList osList =>
    rcases h : data.os with _ | _ | os
    · simp [osCheckEvaluate, Reported, h]
    · exact absurd h hos
    · simp [osCheckEvaluate, Reported, h]
  | mfa m => simp [mfaCheckEvaluate_isSome_iff, Reported]
  | process process =>
    simp [processCheckEvaluate_isSome_iff hos ⟨semanticAllOf, [process]⟩ (.inl rfl), Reported]
  | processMulti p => simp [processCheckEvaluate_isSome_iff hos p hknown, Reported]

end Evaluation

theorem os_apply (hos : inst.os ≠ some none) : (apply parseTotpToken inst response).1.os ≠ some none := by
  cases response with
  | os os => by_cases h : isOsDifferent inst.os os = true <;> simp [apply, h, hos]
  | _ =>
    simp only [apply, applyRest, applyTotpToken]
    repeat' split
    all_goals exact hos

theorem os_applyAll (parseTotpToken : String → Option TotpClaims) {apiSessionId : Id}
    {responses : List PostureResponse} : (applyAll parseTotpToken apiSessionId responses).os ≠ some none :=
  (Runs.Meets.of_forall (fun _ _ => trivial) _ _ responses).invariant (fun inst : Instance => inst.os ≠ some none)
    (fun _ response hos _ => os_apply hos) (by simp [newInstance])

/-- On the data of an instance an evaluation ends without a panic exactly when
what the check reads blindly has been reported. -/
theorem evaluates_iff_reported (platform : Platform) (parseTotpToken : String → Option TotpClaims)
    (apiSessionId : Id) (responses : List PostureResponse) (postureCheck : DataStatePostureCheck)
    (subtype : PostureCheckSubtype) (hsubtype : postureCheck.subtype = some subtype) (hknown : IsKnown subtype) :
    (evaluatePostureCheck platform postureCheck none).isSome ∧ ((evaluatePostureCheck platform postureCheck
          (some (applyAll parseTotpToken apiSessionId responses).toInstanceData)).isSome ↔
        Reported platform (applyAll parseTotpToken apiSessionId responses).toInstanceData subtype) := by
  refine ⟨?_, evaluatePostureCheck_isSome_iff (os_applyAll _) hsubtype hknown⟩
  simp only [evaluatePostureCheck, hsubtype]
  cases subtype with
  | processMulti p =>
    rcases hknown with h | h <;>
      simp [processCheckEvaluate, requireAll, requireOne, h]
  | _ =>
    simp [macCheckEvaluate, domainCheckEvaluate, osCheckEvaluate, mfaCheckEvaluate, processCheckEvaluate,
      requireAll]

def plainPlatform : Platform :=
  ⟨Unit, fun _ => .ok (), fun _ => .ok (fun _ => true), id, (· == ·), 0, 0, toString, toString⟩

def addressCheck : MacCheck := ⟨["00:11:22:33:44:55"]⟩

theorem reported_addresses_evaluate :
    (evaluatePostureCheck plainPlatform ⟨"check", "", "", some (.mac addressCheck)⟩
      (some (applyAll (fun _ => none) "session" [.macs addressCheck.macAddresses]).toInstanceData)).isSome :=
  (evaluates_iff_reported plainPlatform (fun _ => none) "session" [.macs addressCheck.macAddresses] _
    (.mac addressCheck) rfl trivial).2.mpr (by simp [Reported, applyAll, apply, newInstance])

/-- The addresses of a new session are read before they were reported. -/
theorem fresh_address_check_panics :
    evaluatePostureCheck plainPlatform ⟨"check", "", "", some (.mac addressCheck)⟩
      (some (applyAll (fun _ => none) "session" []).toInstanceData) = none := rfl

end Zt.PostureInstances
