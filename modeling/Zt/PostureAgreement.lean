import Zt.ControllerPosture

namespace Zt.PostureAgreement

open Tables EdgeCtrl PostureChecks ControllerPosture

variable {platform : Platform} {postureCheck : DataStatePostureCheck} {state : InstanceData} {m : MfaCheck}
  {passedMfaAt now : Int} {apiSessionData : ApiSessionPostureData} {dataVersion : platform.Version}

/-- The router lets the check pass. A panic is no pass. -/
def Passes (platform : Platform) (check : DataStatePostureCheck) (state : InstanceData) : Prop :=
  ∃ data, evaluatePostureCheck platform check (some state) = some (none, data)

def routerCheck (id : Id) (subType : RebuildStores.PostureCheckSubType) : DataStatePostureCheck :=
  RebuildStores.newPostureCheck { id := id, name := "", typeId := "", subType := some subType }

theorem passes_of_reads {check : DataStatePostureCheck} (evaluate : Option InstanceData → Option (Option CheckError))
    (h : evaluatePostureCheck platform check (some state) = (evaluate (some state)).map (fun err => (err, some state))) :
    Passes platform check state ↔ evaluate (some state) = some none := by
  unfold Passes
  rw [h]
  rcases evaluate (some state) with - | - | - <;> simp

section Mfa

def atTime (platform : Platform) (now : Int) : Platform := { platform with now := now, checkedAt := now }

/-- The reports that the check asks for, with their times. -/
def prompts (m : MfaCheck) (state : InstanceData) : List (Option (Option Int)) :=
  (if m.promptOnWake then [state.woken] else []) ++ (if m.promptOnUnlock then [state.unlocked] else [])

def TimedOut (m : MfaCheck) (passedMfaAt now : Int) : Prop :=
  m.timeoutSeconds ≠ noTimeout ∧ passedMfaAt + timeoutOf m < now

/-- Reported, and the grace period has not passed since. -/
def InTime (now : Int) (report : Option (Option Int)) : Prop :=
  ∃ time, report = some time ∧ now ≤ time.getD 0 + promptGracePeriod

/-- If reported then before the MFA, or less than the grace period ago. -/
def Answered (passedMfaAt now : Int) (report : Option (Option Int)) : Prop :=
  ∀ time, report = some (some time) → time < passedMfaAt ∨ now < time + promptGracePeriod

/-- What the router and the controller know is the same, and the session was not
found to have timed out. -/
structure Corresponds (state : InstanceData) (apiSessionData : ApiSessionPostureData) : Prop where
  passedMfaAt : apiSessionData.mfa.bind PostureResponseMfa.passedMfaAt = state.passedMfaAt
  timedOut : ∀ mfa, apiSessionData.mfa = some mfa → mfa.timedOut = false
  wokenAt : apiSessionData.endpointState.bind PostureResponseEndpointState.wokenAt = state.woken.join
  unlockedAt : apiSessionData.endpointState.bind PostureResponseEndpointState.unlockedAt = state.unlocked.join

/-- Once MFA was passed and has not timed out, either all that is asked for was
reported in time and is answered for, or something was not reported in time and
something is not answered for. -/
def MfaSettled (m : MfaCheck) (state : InstanceData) (now : Int) : Prop :=
  ∀ passedMfaAt, state.passedMfaAt = some passedMfaAt → TimedOut m passedMfaAt now ∨
    (∀ report ∈ prompts m state, InTime now report ∧ Answered passedMfaAt now report) ∨
      ((∃ report ∈ prompts m state, ¬ InTime now report) ∧
        ∃ report ∈ prompts m state, ¬ Answered passedMfaAt now report)

theorem forall_prompts {P : Option (Option Int) → Prop} : (∀ report ∈ prompts m state, P report) ↔
    (m.promptOnWake = true → P state.woken) ∧ (m.promptOnUnlock = true → P state.unlocked) := by
  unfold prompts
  cases m.promptOnWake <;> cases m.promptOnUnlock <;> simp

variable {prompt : Bool} {report : Option (Option Int)}

theorem promptCheck_passes {event : String} :
    promptCheck postureCheck platform prompt report event passedMfaAt = some none ↔
      (prompt = true → InTime platform.now report) := by
  unfold promptCheck InTime
  cases prompt with
  | false => simp
  | true =>
    cases report with
    | none => simp
    | some time =>
      simp only [if_true, Option.map_some, Option.some.injEq, forall_const, exists_eq_left']
      split
      · exact iff_of_false (fun h => by cases h) (by omega)
      · exact iff_of_true rfl (by omega)

theorem mfa_router_passes : mfaCheckEvaluate postureCheck (atTime platform now) m (some state) = some none ↔
    ∃ passedMfaAt, state.passedMfaAt = some passedMfaAt ∧ ¬ TimedOut m passedMfaAt now ∧
      ∀ report ∈ prompts m state, InTime now report := by
  cases hp : state.passedMfaAt with
  | none => simp [mfaCheckEvaluate, hp, failWith]
  | some passedMfaAt =>
    simp only [mfaCheckEvaluate, hp, Option.some.injEq, exists_eq_left', forall_prompts]
    split
    · rename_i hout
      exact iff_of_false (fun h => by cases h) (fun h => h.1 hout)
    · rename_i hout
      rw [and_iff_right (show ¬ TimedOut m passedMfaAt now from hout)]
      have hwoken : promptCheck postureCheck (atTime platform now) m.promptOnWake state.woken "woken" passedMfaAt =
        some none ↔ (m.promptOnWake = true → InTime now state.woken) := promptCheck_passes
      have hunlocked : promptCheck postureCheck (atTime platform now) m.promptOnUnlock state.unlocked "unlocked"
        passedMfaAt = some none ↔ (m.promptOnUnlock = true → InTime now state.unlocked) := promptCheck_passes
      rw [← hwoken, ← hunlocked]
      rcases promptCheck postureCheck (atTime platform now) m.promptOnWake state.woken "woken" passedMfaAt with
        - | - | - <;> simp

theorem passedOn_iff {eventAt : PostureResponseEndpointState → Option Int}
    (hp : apiSessionData.mfa.bind PostureResponseMfa.passedMfaAt = some passedMfaAt)
    (he : apiSessionData.endpointState.bind eventAt = report.join) :
    passedOn prompt eventAt apiSessionData now = true ↔ (prompt = true → Answered passedMfaAt now report) := by
  unfold passedOn Answered
  cases prompt with
  | false => simp
  | true =>
    simp only [if_true, hp, he, forall_const]
    rcases report with - | - | -
    · simp
    · simp
    · have hgrace : mfaPromptGracePeriod = -promptGracePeriod := by decide
      simp only [Option.join_some, Option.all_some, Bool.or_eq_true, decide_eq_true_eq, Option.some.injEq, forall_eq']
      omega

theorem mfa_controller_passes {apiSessionId : Id} {pd : PostureData}
    (hl : pd.apiSessions.lookup apiSessionId = some apiSessionData) (hc : Corresponds state apiSessionData) :
    (evaluateAt m apiSessionId pd now).1 = true ↔
      ∃ passedMfaAt, state.passedMfaAt = some passedMfaAt ∧ ¬ TimedOut m passedMfaAt now ∧
        ∀ report ∈ prompts m state, Answered passedMfaAt now report := by
  have hpassed := hc.passedMfaAt
  cases hmfa : apiSessionData.mfa with
  | none =>
    simp [evaluateAt, hl, hmfa, ← hpassed]
  | some mfa =>
    rw [hmfa, Option.bind_some] at hpassed
    cases hp : mfa.passedMfaAt with
    | none => simp [evaluateAt, hl, hmfa, ← hpassed, hp]
    | some passedMfaAt =>
      simp only [evaluateAt, hl, hmfa, ← hpassed, hp, Option.some.injEq, exists_eq_left', hc.timedOut mfa hmfa,
        Bool.false_or, Bool.and_eq_true, Bool.not_eq_true', decide_eq_false_iff_not, and_assoc, forall_prompts]
      refine and_congr_right (fun _ => and_congr ?_ ?_)
      · exact passedOn_iff rfl hc.wokenAt
      · exact passedOn_iff rfl hc.unlockedAt

theorem mfaSettled_iff : ((∃ passedMfaAt, state.passedMfaAt = some passedMfaAt ∧ ¬ TimedOut m passedMfaAt now ∧
      ∀ report ∈ prompts m state, InTime now report) ↔
    ∃ passedMfaAt, state.passedMfaAt = some passedMfaAt ∧ ¬ TimedOut m passedMfaAt now ∧
      ∀ report ∈ prompts m state, Answered passedMfaAt now report) ↔ MfaSettled m state now := by
  unfold MfaSettled
  cases state.passedMfaAt with
  | none => simp
  | some passedMfaAt =>
    by_cases hout : TimedOut m passedMfaAt now
    · simp [hout]
    · simp [hout, iff_iff_and_or_not_and_not, forall_and]

/-- The router and the controller take the same MFA for passed, or both not,
exactly if the reports leave no doubt. -/
theorem mfa_posture_agrees_iff (platform : Platform) (id : Id) (m : MfaCheck) (state : InstanceData) (now : Int)
    (apiSessionId : Id) (pd : PostureData) (apiSessionData : ApiSessionPostureData)
    (hl : pd.apiSessions.lookup apiSessionId = some apiSessionData) (hc : Corresponds state apiSessionData) :
    (Passes (atTime platform now)
        (routerCheck id (.mfa m.timeoutSeconds m.promptOnWake m.promptOnUnlock m.ignoreLegacyEndpoints)) state ↔
      (evaluateAt m apiSessionId pd now).1 = true) ↔ MfaSettled m state now := by
  rw [mfa_controller_passes hl hc, passes_of_reads _ rfl, mfa_router_passes, mfaSettled_iff]

def lowerCase (text : String) : String := String.ofList (text.toList.map Char.toLower)

def number (digits : List Char) : Nat := digits.foldl (fun n c => 10 * n + (c.toNat - '0'.toNat)) 0

def parseVersion (text : List Char) : Except String (List Nat) :=
  let parts := text.splitOn '.'
  if parts.length = 3 ∧ parts.all (fun part => !part.isEmpty && part.all Char.isDigit) then .ok (parts.map number)
  else .error (String.ofList text)

/-- A version is three numbers here, and a range is a least one. -/
def plainPlatform : Platform where
  Version := List Nat
  make version := parseVersion version.toList
  parseRange range :=
    match range.toList with
    | '>' :: '=' :: least => (parseVersion least).map (fun least version => !decide (version < least))
    | _ => .error range
  toLower := lowerCase
  equalFold a b := lowerCase a = lowerCase b
  now := 0
  checkedAt := 0
  timeString := toString
  durationString := toString

def wakeCheck : MfaCheck := ⟨noTimeout, true, false, false⟩

/-- MFA passed ten seconds after a wake. -/
def wokenState : InstanceData := { passedMfaAt := some (10 * second), woken := some (some 0) }

def wokenSession : ApiSessionPostureData :=
  { mfa := some { passedMfaAt := some (10 * second) }, endpointState := some { wokenAt := some 0 } }

def wokenData : PostureData := { apiSessions := AList.insert "session" wokenSession ∅ }

theorem wokenState_corresponds : Corresponds wokenState wokenSession where
  passedMfaAt := rfl
  timedOut mfa h := by
    cases h
    rfl
  wokenAt := rfl
  unlockedAt := rfl

theorem recent_wake_agrees :
    Passes (atTime plainPlatform (20 * second)) (routerCheck "check" (.mfa noTimeout true false false)) wokenState ↔
      (evaluateAt wakeCheck "session" wokenData (20 * second)).1 = true := by
  refine (mfa_posture_agrees_iff plainPlatform "check" wakeCheck wokenState (20 * second) "session" wokenData
    wokenSession (AList.lookup_insert ∅) wokenState_corresponds).mpr ?_
  intro passedMfaAt hpassed
  cases hpassed
  refine .inr (.inl (fun report hreport => ?_))
  rw [show prompts wakeCheck wokenState = [some (some 0)] from rfl, List.mem_singleton] at hreport
  subst hreport
  refine ⟨⟨some 0, rfl, by decide⟩, fun time htime => .inl ?_⟩
  cases htime
  decide

/-- An hour after the wake the controller still passes the session, the router
does not. -/
theorem old_wake_disagrees :
    ¬ Passes (atTime plainPlatform (3600 * second)) (routerCheck "check" (.mfa noTimeout true false false)) wokenState ∧
      (evaluateAt wakeCheck "session" wokenData (3600 * second)).1 = true := by
  refine ⟨fun h => ?_, by decide⟩
  obtain ⟨data, hdata⟩ := h
  have hfails : (evaluatePostureCheck (atTime plainPlatform (3600 * second))
    (routerCheck "check" (.mfa noTimeout true false false)) (some wokenState)).map (·.1.isSome) = some true := by
    decide
  rw [hdata] at hfails
  cases hfails

end Mfa

section Os

variable {entries : List RebuildStores.OperatingSystem} {type version : String} {ranges : List String}

/-- The entry of a type that the router goes by: the first one. -/
def routerEntry (platform : Platform) (entries : List RebuildStores.OperatingSystem) (type : String) :
    Option RebuildStores.OperatingSystem :=
  entries.find? (fun os => sameOsType platform os.osType type)

/-- The one that the controller goes by: the last one. -/
def controllerEntry (platform : Platform) (entries : List RebuildStores.OperatingSystem) (type : String) :
    Option RebuildStores.OperatingSystem :=
  entries.reverse.find? (fun os => decide (platform.toLower os.osType = platform.toLower type))

def RangesParse (platform : Platform) (ranges : List String) : Prop :=
  ∀ range ∈ ranges, ∃ versionRange, platform.parseRange range = .ok versionRange

def Matches (platform : Platform) (ranges : List String) (dataVersion : platform.Version) : Prop :=
  ∃ range ∈ ranges, ∃ versionRange, platform.parseRange range = .ok versionRange ∧ versionRange dataVersion = true

def InRange (platform : Platform) (version : String) (os : RebuildStores.OperatingSystem) : Prop :=
  ∃ dataVersion, platform.make version = .ok dataVersion ∧ Matches platform os.osVersions dataVersion

/-- The entry that the router goes by makes up for one without versions, and
admits what the controller's admits. -/
structure OsSettled (platform : Platform) (entries : List RebuildStores.OperatingSystem) (type version : String) :
    Prop where
  unknown : controllerEntry platform entries type = none →
    ∀ first, routerEntry platform entries type = some first → ¬ InRange platform version first
  unlisted : ∀ last, controllerEntry platform entries type = some last → last.osVersions = [] →
    ∃ first, routerEntry platform entries type = some first ∧ InRange platform version first
  redeclared : ∀ last, controllerEntry platform entries type = some last → last.osVersions ≠ [] →
    (InRange platform version last ↔
      ∃ first, routerEntry platform entries type = some first ∧ InRange platform version first)

theorem findOs_ok {os : OsEntry} {osList : List OsEntry} (validValues : List String) :
    findOs platform type validValues osList = .ok os ↔
      osList.find? (fun os => sameOsType platform os.osType type) = some os := by
  induction osList generalizing validValues with
  | nil => simp [findOs]
  | cons entry osList ih =>
    rw [findOs, List.find?_cons]
    cases sameOsType platform entry.osType type with
    | true => simp
    | false => exact ih _

theorem osVersionLoop_passes (validValues : List String) (hranges : RangesParse platform ranges) :
    osVersionLoop postureCheck platform version dataVersion validValues ranges = none ↔
      Matches platform ranges dataVersion := by
  induction ranges generalizing validValues with
  | nil => simp [osVersionLoop, failWith, Matches]
  | cons range ranges ih =>
    obtain ⟨versionRange, hrange⟩ := hranges range List.mem_cons_self
    have hrest := ih (validValues ++ [range]) (fun r hr => hranges r (List.mem_cons_of_mem _ hr))
    simp only [osVersionLoop, hrange, Matches, List.mem_cons, exists_eq_or_imp]
    by_cases hin : versionRange dataVersion = true
    · simp [hin]
    · simpa [hin, Matches] using hrest

theorem find_entries : (entries.map (fun os => (⟨os.osType, os.osVersions⟩ : OsEntry))).find?
      (fun os => sameOsType platform os.osType type) =
    (routerEntry platform entries type).map (fun os => ⟨os.osType, os.osVersions⟩) := by
  rw [List.find?_map]
  rfl

theorem os_router_passes {id : Id} {build : String} (hos : state.os = some (some ⟨type, version, build⟩))
    (hranges : ∀ os ∈ entries, RangesParse platform os.osVersions) :
    Passes platform (routerCheck id (.operatingSystem entries)) state ↔
      ∃ first, routerEntry platform entries type = some first ∧ InRange platform version first := by
  rw [passes_of_reads _ rfl]
  simp only [osCheckEvaluate, hos, Option.map_some]
  cases hfound : findOs platform type [] (entries.map (fun os => ⟨os.osType, os.osVersions⟩)) with
  | error validValues =>
    have hnone : routerEntry platform entries type = none := by
      cases hentry : routerEntry platform entries type with
      | none => rfl
      | some first =>
        have hok := (findOs_ok []).mpr (find_entries.trans (congrArg (Option.map _) hentry))
        rw [hfound] at hok
        cases hok
    simp [hnone, failWith]
  | ok foundOs =>
    have hmap := find_entries.symm.trans ((findOs_ok []).mp hfound)
    obtain ⟨first, hentry, rfl⟩ := Option.map_eq_some_iff.mp hmap
    simp only [hentry, InRange]
    cases platform.make version with
    | error err => simp [failWith]
    | ok dataVersion =>
      have hparse := hranges first (List.mem_of_find?_eq_some hentry)
      simpa using osVersionLoop_passes [] hparse

theorem parsed_any :
    (ranges.filterMap (fun range => (platform.parseRange range).toOption)).any (fun range => range dataVersion) = true ↔
      Matches platform ranges dataVersion := by
  have hok (range : String) (versionRange : platform.Version → Bool) :
      (platform.parseRange range).toOption = some versionRange ↔ platform.parseRange range = .ok versionRange := by
    cases platform.parseRange range <;> simp [Except.toOption]
  simp only [List.any_eq_true, List.mem_filterMap, hok]
  constructor
  · rintro ⟨versionRange, ⟨range, hmem, hrange⟩, hin⟩
    exact ⟨range, hmem, versionRange, hrange, hin⟩
  · rintro ⟨range, hmem, versionRange, hrange, hin⟩
    exact ⟨versionRange, ⟨range, hmem, hrange⟩, hin⟩

theorem parsed_isEmpty (hranges : RangesParse platform ranges) :
    (ranges.filterMap (fun range => (platform.parseRange range).toOption)).isEmpty = true ↔ ranges = [] := by
  cases ranges with
  | nil => simp
  | cons range ranges =>
    obtain ⟨versionRange, hrange⟩ := hranges range List.mem_cons_self
    simp [hrange, Except.toOption]

theorem os_controller_passes {pd : PostureData} (htimed : pd.os.timedOut = false)
    (hranges : ∀ os ∈ entries, RangesParse platform os.osVersions) :
    evaluateOs platform entries pd = true ↔ ∃ last, controllerEntry platform entries pd.os.type = some last ∧
      (last.osVersions = [] ∨ InRange platform pd.os.version last) := by
  have hlook := lookup_foldl_insert (fun os => platform.toLower os.osType)
    (fun os => os.osVersions.filterMap (fun version => (platform.parseRange version).toOption)) entries ∅
    (platform.toLower pd.os.type)
  rw [AList.lookup_empty, Option.or_none] at hlook
  change (getValidOses platform entries).lookup _ = (controllerEntry platform entries pd.os.type).map _ at hlook
  simp only [evaluateOs, htimed, hlook]
  cases hentry : controllerEntry platform entries pd.os.type with
  | none => simp
  | some last =>
    have hparse := hranges last (List.mem_reverse.mp (List.mem_of_find?_eq_some hentry))
    simp only [Option.map_some, Option.some.injEq, exists_eq_left', parsed_isEmpty hparse, InRange]
    by_cases hlisted : last.osVersions = []
    · simp [hlisted]
    · simp only [hlisted]
      cases platform.make pd.os.version with
      | error err => simp
      | ok dataVersion => simpa using parsed_any

theorem osSettled_iff :
    ((∃ first, routerEntry platform entries type = some first ∧ InRange platform version first) ↔
      ∃ last, controllerEntry platform entries type = some last ∧
        (last.osVersions = [] ∨ InRange platform version last)) ↔ OsSettled platform entries type version := by
  cases hlast : controllerEntry platform entries type with
  | none =>
    constructor
    · intro h
      refine ⟨fun _ first hfirst hin => ?_, fun last hl => ?_, fun last hl => ?_⟩
      · obtain ⟨last, hl, -⟩ := h.mp ⟨first, hfirst, hin⟩
        cases hl
      · rw [hlast] at hl
        cases hl
      · rw [hlast] at hl
        cases hl
    · intro h
      refine iff_of_false ?_ (by simp)
      rintro ⟨first, hfirst, hin⟩
      exact h.unknown hlast first hfirst hin
  | some last =>
    simp only [Option.some.injEq, exists_eq_left']
    constructor
    · intro h
      refine ⟨fun hnone => ?_, fun l hl hnil => ?_, fun l hl hlisted => ?_⟩
      · rw [hlast] at hnone
        cases hnone
      · rw [hlast] at hl
        cases hl
        exact h.mpr (.inl hnil)
      · rw [hlast] at hl
        cases hl
        rw [h, or_iff_right hlisted]
    · intro h
      by_cases hlisted : last.osVersions = []
      · exact iff_of_true (h.unlisted last hlast hlisted) (.inl hlisted)
      · rw [or_iff_right hlisted]
        exact (h.redeclared last hlast hlisted).symm

/-- The router and the controller admit the same operating systems exactly if
the entries settle what each type is allowed. -/
theorem os_posture_agrees_iff (platform : Platform) (id : Id) (entries : List RebuildStores.OperatingSystem)
    (hranges : ∀ os ∈ entries, RangesParse platform os.osVersions) (os : OperatingSystem) (state : InstanceData)
    (hos : state.os = some (some os)) (pd : PostureData) (htype : pd.os.type = os.type)
    (hversion : pd.os.version = os.version) (htimed : pd.os.timedOut = false) :
    (Passes platform (routerCheck id (.operatingSystem entries)) state ↔ evaluateOs platform entries pd = true) ↔
      OsSettled platform entries os.type os.version := by
  rw [os_controller_passes htimed hranges, htype, hversion, os_router_passes hos hranges, osSettled_iff]

def linuxState : InstanceData := { os := some (some { type := "Linux", version := "7.0.0" }) }

def linuxData : PostureData := { os := { type := "Linux", version := "7.0.0" } }

theorem plain_ranges_parse : ∀ os ∈ [(⟨"linux", [">=6.0.0"]⟩ : RebuildStores.OperatingSystem)],
    RangesParse plainPlatform os.osVersions := by
  intro os hos range hrange
  rw [List.mem_singleton] at hos
  subst hos
  rw [List.mem_singleton] at hrange
  subst hrange
  exact ⟨_, rfl⟩

theorem listed_linux_agrees :
    Passes plainPlatform (routerCheck "check" (.operatingSystem [⟨"linux", [">=6.0.0"]⟩])) linuxState ↔
      evaluateOs plainPlatform [⟨"linux", [">=6.0.0"]⟩] linuxData = true := by
  refine (os_posture_agrees_iff plainPlatform "check" [⟨"linux", [">=6.0.0"]⟩] plain_ranges_parse
    { type := "Linux", version := "7.0.0" } linuxState rfl linuxData rfl rfl rfl).mpr ?_
  have hfirst : routerEntry plainPlatform [⟨"linux", [">=6.0.0"]⟩] "Linux" = some ⟨"linux", [">=6.0.0"]⟩ :=
    List.find?_cons_of_pos (by decide +kernel)
  have hlast : controllerEntry plainPlatform [⟨"linux", [">=6.0.0"]⟩] "Linux" = some ⟨"linux", [">=6.0.0"]⟩ :=
    List.find?_cons_of_pos (by decide +kernel)
  refine ⟨fun hnone => ?_, fun last hl hnil => ?_, fun last hl _ => ?_⟩
  · rw [hlast] at hnone
    cases hnone
  · rw [hlast] at hl
    cases hl
    cases hnil
  · rw [hlast] at hl
    cases hl
    rw [hfirst]
    simp

/-- A type without versions: any version passes on the controller, none on the
router. -/
theorem unlisted_linux_disagrees :
    ¬ Passes plainPlatform (routerCheck "check" (.operatingSystem [⟨"linux", []⟩])) linuxState ∧
      evaluateOs plainPlatform [⟨"linux", []⟩] linuxData = true := by
  refine ⟨fun h => ?_, by decide +kernel⟩
  obtain ⟨data, hdata⟩ := h
  have hfails : (evaluatePostureCheck plainPlatform (routerCheck "check" (.operatingSystem [⟨"linux", []⟩]))
    (some linuxState)).map (·.1.isSome) = some true := by
    decide +kernel
  rw [hdata] at hfails
  cases hfails

end Os

end Zt.PostureAgreement
