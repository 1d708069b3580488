import Mathlib.Data.List.Induction
import Zt.PostureAgreement

namespace Zt.ProcessAgreement

open Tables EdgeCtrl PostureChecks ControllerPosture PostureAgreement
open PostureResponseProcess (postureCheckId apply verifyMultiCriteria)
open List (any_eq_true mem_map mem_cons nodup_cons reverseRecOn find?_cons)

/-- A process that the client reports, with the check whose query it answers. -/
structure Report where
  postureCheckId : Id
  process : ClientProcess

def Report.response (report : Report) : PostureResponseProcess where
  postureCheckId := report.postureCheckId
  path := report.process.path
  isRunning := report.process.isRunning
  binaryHash := report.process.hash
  signerFingerprints := report.process.signerFingerprints

open Report (response)

variable (platform : Platform)

def controllerData (reports : List Report) : PostureData :=
  reports.foldl (fun pd report => report.response.apply platform pd) {}

/-- The same process after the controller has cleaned the report. -/
def cleaned (report : Report) : PostureResponseProcess :=
  { report.response with
    binaryHash := cleanHexString platform report.process.hash
    signerFingerprints := report.process.signerFingerprints.map (cleanHexString platform) }

/-- What was last reported to answer a check. -/
def lastFor (id : Id) (reports : List Report) : Option Report :=
  reports.reverse.find? (fun report => decide (report.postureCheckId = id))

def lastAt (path : String) (reports : List Report) : Option Report :=
  reports.reverse.find? (fun report => decide (report.process.path = path))

def RunsAt (path : String) (reports : List Report) (process : ClientProcess) : Prop :=
  (lastAt path reports).map Report.process = some process ∧ process.isRunning = true

/-- The report has one of the hashes and one of the signers, to the letter. -/
def Exact (hashes signers : List String) (process : ClientProcess) : Prop :=
  (hashes = [] ∨ process.hash ∈ hashes) ∧ (signers = [] ∨ ∃ signer ∈ process.signerFingerprints, signer ∈ signers)

/-- The cleaned report has one of the hashes and one of the signers, in any
letter case. -/
def Folded (sameSigner : String → String → Prop) (hashes signers : List String) (process : ClientProcess) : Prop :=
  (hashes = [] ∨ ∃ hash ∈ hashes, platform.equalFold hash (cleanHexString platform process.hash) = true) ∧
    (signers = [] ∨ ∃ valid ∈ signers, ∃ signer ∈ process.signerFingerprints,
      sameSigner valid (cleanHexString platform signer))

/-- Without a fingerprint the controller asks for no signer. -/
def asked (fingerprint : String) : List String := if fingerprint = "" then [] else [fingerprint]

def EqualFold (valid signer : String) : Prop := platform.equalFold valid signer = true

def SameLower (valid signer : String) : Prop := platform.toLower signer = platform.toLower valid

/-- A running process is as listed to the letter, with a signer even if none is
asked for, exactly if it is as listed in any letter case. -/
def ProcessSettled (reports : List Report) (path : String) (hashes : List String) (fingerprint : String) : Prop :=
  ∀ given, RunsAt path reports given → (path ≠ "" ∧ Exact hashes [fingerprint] given ↔
      Folded platform (EqualFold platform) hashes (asked fingerprint) given)

/-- The same for several processes: if all have to be as listed then it matters
once all run, and if one has to be then one without a path counts for the
letter only. -/
structure MultiSettled (platform : Platform) (reports : List Report) (semantic : String)
    (processes : List RebuildStores.ProcessMulti) : Prop where
  allOf : semantic = semanticAllOf →
    (∀ process ∈ processes, process.path ≠ "" ∧ ∃ given, RunsAt process.path reports given) →
      ((∀ process ∈ processes, ∀ given, RunsAt process.path reports given →
        Exact process.hashes process.signerFingerprints given) ↔
      (∀ process ∈ processes, ∀ given, RunsAt process.path reports given →
        Folded platform (SameLower platform) process.hashes process.signerFingerprints given))
  anyOf : semantic = semanticAnyOf → ((∃ process ∈ processes, ∃ given, RunsAt process.path reports given ∧
        Exact process.hashes process.signerFingerprints given) ↔
      ∃ process ∈ processes, process.path ≠ "" ∧ ∃ given, RunsAt process.path reports given ∧
        Folded platform (SameLower platform) process.hashes process.signerFingerprints given)

variable {platform : Platform} {postureCheck : DataStatePostureCheck} {reports : List Report} {id : Id}
  {path osType operatingSystem fingerprint : String} {hashes : List String}
  {processes : List RebuildStores.ProcessMulti}

section Router

variable {processList : List ClientProcess} {state : InstanceData}
  {failedValues : List (FailedValueError ProcessEntry)} {os : OperatingSystem}

theorem listed_iff {l : List String} {p : Prop} : ¬ (l.length > 0 ∧ ¬ p) ↔ l = [] ∨ p := by
  cases l <;> simp

theorem ite_some_eq_none {A : Type} {p : Prop} [Decidable p] {a : A} {rest : Option A} :
    (if p then some a else rest) = none ↔ ¬ p ∧ rest = none := by
  by_cases hp : p <;> simp [hp]

theorem mismatch_none {given : ClientProcess} {valid : ProcessEntry} :
    mismatch platform osType (some given) valid = none ↔
      given.isRunning = true ∧ valid.path = given.path ∧ sameOsType platform valid.osType osType = true ∧
        Exact valid.hashes valid.fingerprints given := by
  simp only [mismatch, ite_some_eq_none, Bool.not_eq_true', not_not, listed_iff, and_true, Exact,
    ← Bool.not_eq_true, any_eq_true, decide_eq_true_eq]

theorem lookup_cacheProcesses :
    (cacheProcesses (reports.map Report.process)).lookup path = (lastAt path reports).map Report.process := by
  unfold cacheProcesses lastAt
  rw [lookup_foldl_insert, Option.map_id', AList.lookup_empty, Option.or_none, ← List.map_reverse, List.find?_map]
  rfl

theorem path_of_lastAt {process : ClientProcess} (h : (lastAt path reports).map Report.process = some process) :
    process.path = path := by
  obtain ⟨report, hreport, rfl⟩ := Option.map_eq_some_iff.mp h
  simpa using List.find?_some hreport

theorem requireAllLoop_passes {processes : List ProcessEntry} :
    requireAllLoop postureCheck platform (some osType) processList failedValues processes = some none ↔
      failedValues = [] ∧ ∀ process ∈ processes, process.path ≠ "" ∧ ∃ given,
        (cacheProcesses processList).lookup process.path = some given ∧
          mismatch platform osType (some given) process = none := by
  induction processes generalizing failedValues with
  | nil =>
    cases failedValues <;> simp [requireAllLoop, failWith]
  | cons process processes ih =>
    rw [requireAllLoop]
    by_cases hpath : process.path = ""
    · simp [hpath, failWith]
    · cases hcached : (cacheProcesses processList).lookup process.path with
      | none => simp [hpath, hcached, failWith]
      | some given =>
        cases hm : mismatch platform osType (some given) process with
        | none => simp [hpath, hcached, hm, compareProcesses, ih]
        | some reason => simp [hpath, hcached, hm, compareProcesses, ih]

theorem requireOneLoop_passes {processes : List ProcessEntry} :
    requireOneLoop postureCheck platform (some osType) processList failedValues processes = some none ↔
      ∃ process ∈ processes, ∃ given, (cacheProcesses processList).lookup process.path = some given ∧
        mismatch platform osType (some given) process = none := by
  induction processes generalizing failedValues with
  | nil =>
    by_cases hlist : processList.isEmpty <;> simp [requireOneLoop, failWith, hlist]
  | cons process processes ih =>
    rw [requireOneLoop]
    cases hcached : (cacheProcesses processList).lookup process.path with
    | none => simp [hcached, compareProcesses, mismatch, ih]
    | some given =>
      cases hm : mismatch platform osType (some given) process with
      | none => simp [hcached, hm, compareProcesses]
      | some reason => simp [hcached, hm, compareProcesses, ih]

theorem given_passes {entry : ProcessEntry} (htype : sameOsType platform entry.osType osType = true) :
    (∃ given, (cacheProcesses (reports.map Report.process)).lookup entry.path = some given ∧
        mismatch platform osType (some given) entry = none) ↔
      ∃ given, RunsAt entry.path reports given ∧ Exact entry.hashes entry.fingerprints given := by
  simp only [lookup_cacheProcesses, mismatch_none, htype, true_and, RunsAt, and_assoc]
  refine exists_congr (fun given => and_congr_right (fun hlast => and_congr_right (fun _ => ?_)))
  exact and_iff_right (path_of_lastAt hlast).symm

theorem passes_allOf (entries : List ProcessEntry)
    (h : evaluatePostureCheck platform postureCheck (some state) =
      processCheckEvaluate postureCheck platform ⟨semanticAllOf, entries⟩ (some state)) :
    Passes platform postureCheck state ↔
      PostureChecks.requireAll postureCheck platform entries (some state) = some none :=
  passes_of_reads (requireAll postureCheck platform entries) (h.trans (if_pos rfl))

def entriesOf (processes : List RebuildStores.ProcessMulti) : List ProcessEntry :=
  processes.map (fun process => ⟨process.osType, process.path, process.hashes, process.signerFingerprints⟩)

end Router

section Controller

variable {pr : PostureResponseProcess} {report : Report} {processes : List PostureResponseProcess}

theorem find_place :
    (place pr processes).find? (fun process => decide (process.postureCheckId = id)) =
      if pr.postureCheckId = id then some pr
      else processes.find? (fun process => decide (process.postureCheckId = id)) := by
  induction processes with
  | nil => by_cases h : pr.postureCheckId = id <;> simp [place]
  | cons process processes ih =>
    rw [place]
    split
    · rename_i hsame
      by_cases h : pr.postureCheckId = id
      · simp [h]
      · simp [h, hsame]
    · rename_i hother
      by_cases h : process.postureCheckId = id
      · have hne : pr.postureCheckId ≠ id := fun heq => hother (h.trans heq.symm)
        simp [h, hne]
      · simp [h, ih]

theorem mem_place {process : PostureResponseProcess} (h : process ∈ place pr processes) :
    process = pr ∨ process ∈ processes := by
  induction processes with
  | nil => exact .inl (by simpa [place] using h)
  | cons head processes ih =>
    rw [place] at h
    split at h
    · rcases mem_cons.mp h with rfl | hmem
      · exact .inl rfl
      · exact .inr (List.mem_cons_of_mem _ hmem)
    · rcases mem_cons.mp h with rfl | hmem
      · exact .inr List.mem_cons_self
      · exact (ih hmem).imp_right (List.mem_cons_of_mem _)

theorem place_distinct (h : (processes.map postureCheckId).Nodup) : ((place pr processes).map postureCheckId).Nodup := by
  induction processes with
  | nil => simp [place]
  | cons process processes ih =>
    obtain ⟨hnew, hrest⟩ := nodup_cons.mp h
    rw [place]
    split
    · rename_i hsame
      rw [List.map_cons, ← hsame]
      exact h
    · rename_i hother
      refine nodup_cons.mpr ⟨fun hmem => ?_, ih hrest⟩
      obtain ⟨p, hp, hid⟩ := mem_map.mp hmem
      rcases mem_place hp with rfl | hp'
      · exact hother hid.symm
      · exact hnew (mem_map.mpr ⟨p, hp', hid⟩)

theorem controllerData_append :
    controllerData platform (reports ++ [report]) = report.response.apply platform (controllerData platform reports) := by
  simp [controllerData]

theorem controllerData_distinct : ((controllerData platform reports).processes.map postureCheckId).Nodup := by
  induction reports using reverseRecOn with
  | nil => simp [controllerData]
  | append_singleton reports report ih =>
    rw [controllerData_append]
    exact place_distinct ih

theorem find_controllerData :
    (controllerData platform reports).processes.find? (fun process => decide (process.postureCheckId = id)) =
      (lastFor id reports).map (cleaned platform) := by
  induction reports using reverseRecOn with
  | nil => simp [controllerData, lastFor]
  | append_singleton reports report ih =>
    rw [controllerData_append, lastFor]
    simp only [apply, find_place, ih]
    by_cases h : report.postureCheckId = id
    · simp [h, response, cleaned]
    · simp [h, response, lastFor]

theorem lookup_controllerData (hpath : path ≠ "") :
    (controllerData platform reports).processPathMap.lookup path = (lastAt path reports).map (cleaned platform) := by
  induction reports using reverseRecOn with
  | nil => simp [controllerData, lastAt]
  | append_singleton reports report ih =>
    rw [controllerData_append, lastAt]
    simp only [apply, response]
    by_cases h : report.process.path = path
    · subst h
      simp [hpath, cleaned, response]
    · by_cases hblank : report.process.path = ""
      · simp [hblank, hpath.symm, ih, lastAt]
      · simp [hblank, h, Ne.symm h, ih, lastAt]

theorem evaluateProcess_none (h : ∀ process ∈ processes, process.postureCheckId ≠ id) :
    evaluateProcess platform id hashes fingerprint processes = false := by
  induction processes with
  | nil => rfl
  | cons process processes ih =>
    rw [evaluateProcess, if_pos (h process List.mem_cons_self)]
    exact ih (fun p hp => h p (List.mem_cons_of_mem _ hp))

theorem evaluateProcess_iff (hdistinct : (processes.map postureCheckId).Nodup) :
    evaluateProcess platform id hashes fingerprint processes = true ↔
      ∃ process, processes.find? (fun process => decide (process.postureCheckId = id)) = some process ∧
        process.timedOut = false ∧ process.isRunning = true ∧
        (fingerprint = "" ∨ ∃ signer ∈ process.signerFingerprints, EqualFold platform fingerprint signer) ∧
          (hashes = [] ∨ ∃ hash ∈ hashes, platform.equalFold hash process.binaryHash = true) := by
  induction processes with
  | nil => simp [evaluateProcess]
  | cons process processes ih =>
    obtain ⟨hnew, hrest⟩ := nodup_cons.mp hdistinct
    rw [evaluateProcess]
    by_cases hid : process.postureCheckId = id
    · have hlater : evaluateProcess platform id hashes fingerprint processes = false := by
        refine evaluateProcess_none (fun p hp heq => hnew (mem_map.mpr ⟨p, hp, heq.trans hid.symm⟩))
      simp [hid, ne_eq, not_true_eq_false, hlater, decide_true, Option.some.injEq, EqualFold, Bool.if_false_left,
        Bool.and_eq_true, ← Bool.not_eq_true, decide_eq_true_eq]
    · simp only [hid, ne_eq, find?_cons]
      exact ih hrest

theorem process_controller_passes :
    evaluateProcess platform id hashes fingerprint (controllerData platform reports).processes = true ↔
      ∃ given, (lastFor id reports).map Report.process = some given ∧ given.isRunning = true ∧
        Folded platform (EqualFold platform) hashes (asked fingerprint) given := by
  rw [evaluateProcess_iff controllerData_distinct, find_controllerData]
  cases lastFor id reports with
  | none => simp
  | some report =>
    by_cases hblank : fingerprint = ""
    · simp [cleaned, response, Folded, asked, hblank]
    · simp [cleaned, response, Folded, asked, hblank, and_comm]

variable {process : RebuildStores.ProcessMulti} {processes : List RebuildStores.ProcessMulti}

theorem verifyMultiCriteria_cleaned :
    (cleaned platform report).verifyMultiCriteria platform process = true ↔ report.process.isRunning = true ∧
      Folded platform (SameLower platform) process.hashes process.signerFingerprints report.process := by
  simp [verifyMultiCriteria, cleaned, response, Folded, SameLower, and_assoc]

theorem runs_criteria :
    (decide (process.path ≠ "") && ((controllerData platform reports).processPathMap.lookup process.path).any
        (fun processData => processData.verifyMultiCriteria platform process)) = true ↔
      process.path ≠ "" ∧ ∃ given, RunsAt process.path reports given ∧
        Folded platform (SameLower platform) process.hashes process.signerFingerprints given := by
  rw [Bool.and_eq_true, decide_eq_true_eq]
  refine and_congr_right (fun hpath => ?_)
  rw [lookup_controllerData hpath]
  cases hlast : lastAt process.path reports with
  | none => simp [RunsAt, hlast]
  | some report => simp [RunsAt, hlast, verifyMultiCriteria_cleaned]

theorem allOf_controller_passes :
    evaluateProcessMulti platform semanticAllOf processes (controllerData platform reports) = some true ↔
      ∀ process ∈ processes, process.path ≠ "" ∧ ∃ given, RunsAt process.path reports given ∧
        Folded platform (SameLower platform) process.hashes process.signerFingerprints given := by
  simp only [evaluateProcessMulti, if_true, ControllerPosture.requireAll, Option.some.injEq, List.all_eq_true,
    runs_criteria]

theorem anyOf_controller_passes :
    evaluateProcessMulti platform semanticAnyOf processes (controllerData platform reports) = some true ↔
      ∃ process ∈ processes, process.path ≠ "" ∧ ∃ given, RunsAt process.path reports given ∧
        Folded platform (SameLower platform) process.hashes process.signerFingerprints given := by
  have hne : semanticAnyOf ≠ semanticAllOf := by decide
  simp only [evaluateProcessMulti, hne, if_false, if_true, ControllerPosture.requireOne, Option.some.injEq,
    any_eq_true, runs_criteria]

end Controller

theorem allOf_split {P : List String → List String → ClientProcess → Prop} :
    (∀ process ∈ processes, process.path ≠ "" ∧ ∃ given, RunsAt process.path reports given ∧
        P process.hashes process.signerFingerprints given) ↔
      (∀ process ∈ processes, process.path ≠ "" ∧ ∃ given, RunsAt process.path reports given) ∧
        ∀ process ∈ processes, ∀ given, RunsAt process.path reports given →
          P process.hashes process.signerFingerprints given := by
  constructor
  · intro h
    refine ⟨fun process hproc => ?_, fun process hproc given hgiven => ?_⟩
    · obtain ⟨hpath, given, hruns, -⟩ := h process hproc
      exact ⟨hpath, given, hruns⟩
    · obtain ⟨-, other, hruns, hother⟩ := h process hproc
      -- Only one process was reported last for the path.
      cases hgiven.1.symm.trans hruns.1
      exact hother
  · rintro ⟨hrun, h⟩ process hproc
    obtain ⟨hpath, given, hruns⟩ := hrun process hproc
    exact ⟨hpath, given, hruns, h process hproc given hruns⟩

section Agreement

variable {state : InstanceData} {os : OperatingSystem} (hos : state.os = some (some os))
  (hlist : state.processList = some (reports.map Report.process))

include hos hlist

theorem requireAll_passes {entries : List ProcessEntry}
    (htypes : ∀ entry ∈ entries, sameOsType platform entry.osType os.type = true) :
    PostureChecks.requireAll postureCheck platform entries (some state) = some none ↔
      ∀ entry ∈ entries, entry.path ≠ "" ∧
        ∃ given, RunsAt entry.path reports given ∧ Exact entry.hashes entry.fingerprints given := by
  simp only [PostureChecks.requireAll, hos, hlist, Option.bind_some, id_eq, Option.map_some, requireAllLoop_passes,
    true_and]
  refine forall₂_congr (fun entry hentry => and_congr_right (fun _ => ?_))
  exact given_passes (htypes entry hentry)

theorem process_router_passes (htype : sameOsType platform operatingSystem os.type = true) :
    Passes platform (routerCheck id (.process operatingSystem path hashes fingerprint)) state ↔
      path ≠ "" ∧ ∃ given, RunsAt path reports given ∧ Exact hashes [fingerprint] given := by
  have htypes : ∀ entry ∈ [(⟨operatingSystem, path, hashes, [fingerprint]⟩ : ProcessEntry)],
      sameOsType platform entry.osType os.type = true := by
    intro entry hentry
    rw [List.mem_singleton] at hentry
    subst hentry
    exact htype
  rw [passes_allOf _ rfl, requireAll_passes hos hlist htypes]
  simp

theorem allOf_router_passes (htypes : ∀ process ∈ processes, sameOsType platform process.osType os.type = true) :
    Passes platform (routerCheck id (.processMulti semanticAllOf processes)) state ↔
      ∀ process ∈ processes, process.path ≠ "" ∧
        ∃ given, RunsAt process.path reports given ∧ Exact process.hashes process.signerFingerprints given := by
  have htypes' : ∀ entry ∈ entriesOf processes, sameOsType platform entry.osType os.type = true :=
    List.forall_mem_map.mpr htypes
  rw [passes_allOf (entriesOf processes) rfl, requireAll_passes hos hlist htypes']
  exact List.forall_mem_map

theorem anyOf_router_passes (htypes : ∀ process ∈ processes, sameOsType platform process.osType os.type = true) :
    Passes platform (routerCheck id (.processMulti semanticAnyOf processes)) state ↔ ∃ process ∈ processes,
        ∃ given, RunsAt process.path reports given ∧ Exact process.hashes process.signerFingerprints given := by
  have hloop : Passes platform (routerCheck id (.processMulti semanticAnyOf processes)) state ↔
      requireOneLoop (routerCheck id (.processMulti semanticAnyOf processes)) platform (some os.type)
        (reports.map Report.process) [] (entriesOf processes) = some none := by
    show (∃ data, requireOne _ platform (entriesOf processes) (some state) = some (none, data)) ↔ _
    simp [PostureChecks.requireOne, hos, hlist]
  rw [hloop, requireOneLoop_passes]
  constructor
  · rintro ⟨entry, hentry, hgiven⟩
    obtain ⟨process, hproc, rfl⟩ := mem_map.mp hentry
    exact ⟨process, hproc, (given_passes (htypes process hproc)).mp hgiven⟩
  · rintro ⟨process, hproc, hgiven⟩
    exact ⟨_, List.mem_map_of_mem hproc, (given_passes (htypes process hproc)).mpr hgiven⟩

theorem process_agrees (htype : sameOsType platform operatingSystem os.type = true)
    (hsame : (lastFor id reports).map Report.process = (lastAt path reports).map Report.process) :
    (Passes platform (routerCheck id (.process operatingSystem path hashes fingerprint)) state ↔
      evaluateProcess platform id hashes fingerprint (controllerData platform reports).processes = true) ↔
      ProcessSettled platform reports path hashes fingerprint := by
  rw [process_router_passes hos hlist htype, process_controller_passes, hsame]
  simp only [ProcessSettled, RunsAt]
  cases (lastAt path reports).map Report.process with
  | none => simp
  | some given =>
    by_cases hrun : given.isRunning = true
    · simp [hrun]
    · simp [hrun]

theorem multi_agrees {semantic : String}
    (htypes : ∀ process ∈ processes, sameOsType platform process.osType os.type = true) :
    (Passes platform (routerCheck id (.processMulti semantic processes)) state ↔
      evaluateProcessMulti platform semantic processes (controllerData platform reports) = some true) ↔
      MultiSettled platform reports semantic processes := by
  have hne : semanticAnyOf ≠ semanticAllOf := by decide
  by_cases hall : semantic = semanticAllOf
  · subst hall
    rw [allOf_router_passes hos hlist htypes, allOf_controller_passes, allOf_split, allOf_split, and_congr_right_iff]
    exact ⟨fun h => ⟨fun _ => h, fun hany => absurd hany.symm hne⟩, fun h => h.allOf rfl⟩
  · by_cases hany : semantic = semanticAnyOf
    · subst hany
      rw [anyOf_router_passes hos hlist htypes, anyOf_controller_passes]
      exact ⟨fun h => ⟨fun hall => absurd hall hne, fun _ => h⟩, fun h => h.anyOf rfl⟩
    · -- Neither side knows the semantic and both panic.
      have hrouter : ¬ Passes platform (routerCheck id (.processMulti semantic processes)) state := by
        rintro ⟨data, hdata⟩
        rw [show evaluatePostureCheck platform (routerCheck id (.processMulti semantic processes)) (some state) = none
          from (if_neg hall).trans (if_neg hany)] at hdata
        cases hdata
      refine iff_of_true (iff_of_false hrouter ?_) ⟨fun h => absurd h hall, fun h => absurd h hany⟩
      simp [evaluateProcessMulti, hall, hany]

end Agreement

/-- The router and the controller take the same reports for good, for a check of
one process and for one of several, exactly if letter case, unclean digits and
an empty fingerprint make no difference. -/
theorem process_posture_agrees_iff (platform : Platform) (id : Id) (reports : List Report) (os : OperatingSystem)
    (state : InstanceData) (hos : state.os = some (some os))
    (hlist : state.processList = some (reports.map Report.process)) :
    (∀ operatingSystem path hashes fingerprint, sameOsType platform operatingSystem os.type = true →
      (lastFor id reports).map Report.process = (lastAt path reports).map Report.process →
      ((Passes platform (routerCheck id (.process operatingSystem path hashes fingerprint)) state ↔
        evaluateProcess platform id hashes fingerprint (controllerData platform reports).processes = true) ↔
        ProcessSettled platform reports path hashes fingerprint)) ∧ ∀ semantic processes,
      (∀ process ∈ processes, sameOsType platform process.osType os.type = true) →
      ((Passes platform (routerCheck id (.processMulti semantic processes)) state ↔
        evaluateProcessMulti platform semantic processes (controllerData platform reports) = some true) ↔
        MultiSettled platform reports semantic processes) :=
  ⟨fun _ _ _ _ htype hsame => process_agrees hos hlist htype hsame, fun _ _ htypes => multi_agrees hos hlist htypes⟩

def signed : Report where
  postureCheckId := "check"
  process := { path := "/bin/agent", isRunning := true, hash := "ab12", signerFingerprints := ["c0de"] }

def signedState : InstanceData :=
  { os := some (some { type := "Linux" }), processList := some [signed.process] }

theorem signed_process_agrees :
    Passes plainPlatform (routerCheck "check" (.process "Linux" "/bin/agent" ["ab12"] "c0de")) signedState ↔
      evaluateProcess plainPlatform "check" ["ab12"] "c0de" (controllerData plainPlatform [signed]).processes = true := by
  refine ((process_posture_agrees_iff plainPlatform "check" [signed] { type := "Linux" } signedState rfl rfl).1
    "Linux" "/bin/agent" ["ab12"] "c0de" (by decide) rfl).mpr ?_
  intro given hgiven
  have hsigned : given = signed.process := (Option.some.inj hgiven.1).symm
  subst hsigned
  refine iff_of_true ⟨by decide, .inr (by decide), .inr (by decide)⟩ ⟨.inr ?_, .inr ?_⟩
  · exact ⟨"ab12", by decide, by decide⟩
  · exact ⟨"c0de", by decide, "c0de", by decide, by unfold EqualFold; decide⟩

/-- The check asks for no signer. The controller passes the running process and
the router does not, as it looks for an empty signer. -/
theorem unsigned_process_disagrees :
    ¬ Passes plainPlatform (routerCheck "check" (.process "Linux" "/bin/agent" ["ab12"] "")) signedState ∧
      evaluateProcess plainPlatform "check" ["ab12"] "" (controllerData plainPlatform [signed]).processes = true := by
  refine ⟨fun h => ?_, by decide⟩
  obtain ⟨data, hdata⟩ := h
  have hfails : (evaluatePostureCheck plainPlatform (routerCheck "check" (.process "Linux" "/bin/agent" ["ab12"] ""))
    (some signedState)).map (·.1.isSome) = some true := by
    decide
  rw [hdata] at hfails
  cases hfails

end Zt.ProcessAgreement
