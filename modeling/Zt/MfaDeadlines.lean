import Mathlib.Data.List.Perm.Basic
import Zt.ControllerPosture

namespace Zt.MfaDeadlines

open EdgeCtrl PostureChecks ControllerPosture

/-- Each check is evaluated on what the ones before it have left. -/
def evaluateEach (apiSessionId : Id) (now : Int) : List MfaCheck → PostureData → List Bool
  | [], _ => []
  | p :: checks, pd =>
    (evaluateAt p apiSessionId pd now).1 :: evaluateEach apiSessionId now checks (evaluateAt p apiSessionId pd now).2

/-- No check sees what the others do. -/
def evaluateAlone (apiSessionId : Id) (now : Int) (checks : List MfaCheck) (pd : PostureData) : List Bool :=
  checks.map (fun p => (evaluateAt p apiSessionId pd now).1)

def runsOut (passedMfaAt now : Int) (p : MfaCheck) : Bool :=
  decide (p.timeoutSeconds ≠ noTimeout ∧ passedMfaAt + timeoutOf p < now)

def prompts (data : ApiSessionPostureData) (now : Int) (p : MfaCheck) : Bool :=
  passedOnWake p data now && passedOnUnlock p data now

/-- MFA has been passed in the session. -/
structure MfaPassed (pd : PostureData) (apiSessionId : Id) (data : ApiSessionPostureData) (mfa : PostureResponseMfa)
    (passedMfaAt : Int) : Prop where
  session : pd.apiSessions.lookup apiSessionId = some data
  reported : data.mfa = some mfa
  passed : mfa.passedMfaAt = some passedMfaAt

variable {pd : PostureData} {apiSessionId : Id} {data : ApiSessionPostureData} {mfa : PostureResponseMfa}
  {passedMfaAt now : Int}

def marked (data : ApiSessionPostureData) (mfa : PostureResponseMfa) (timedOut : Bool) : ApiSessionPostureData :=
  { data with mfa := some { mfa with timedOut } }

theorem MfaPassed.mark (h : MfaPassed pd apiSessionId data mfa passedMfaAt) (timedOut : Bool) :
    MfaPassed { pd with
          apiSessions := pd.apiSessions.insert apiSessionId (marked data mfa timedOut) } apiSessionId
      (marked data mfa timedOut) { mfa with timedOut } passedMfaAt :=
  ⟨AList.lookup_insert _, rfl, h.passed⟩

theorem prompts_marked (hmfa : data.mfa = some mfa) (timedOut : Bool) (now : Int) :
    prompts (marked data mfa timedOut) now = prompts data now := by
  funext p
  simp [prompts, passedOnWake, passedOnUnlock, passedOn, marked, hmfa]

theorem MfaPassed.evaluateAt_eq (h : MfaPassed pd apiSessionId data mfa passedMfaAt) (p : MfaCheck) (now : Int) :
    evaluateAt p apiSessionId pd now = (!(mfa.timedOut || runsOut passedMfaAt now p) && prompts data now p,
        { pd with
          apiSessions := pd.apiSessions.insert apiSessionId
            (marked data mfa (mfa.timedOut || runsOut passedMfaAt now p)) }) := by
  rw [← prompts_marked h.reported (mfa.timedOut || runsOut passedMfaAt now p)]
  obtain ⟨_, timedOut⟩ := mfa
  obtain ⟨hsess, hreported, rfl⟩ := h
  simp only [evaluateAt, hsess, hreported, Bool.and_assoc]
  rfl

theorem passed_or_blocked (pd : PostureData) (apiSessionId : Id) :
    (∃ data mfa passedMfaAt, MfaPassed pd apiSessionId data mfa passedMfaAt) ∨
      ∀ p now, evaluateAt p apiSessionId pd now = (false, pd) := by
  cases hsess : pd.apiSessions.lookup apiSessionId with
  | none => exact .inr (fun p now => by simp [evaluateAt, hsess])
  | some data =>
    cases hmfa : data.mfa with
    | none => exact .inr (fun p now => by simp [evaluateAt, hsess, hmfa])
    | some mfa =>
      cases hpassed : mfa.passedMfaAt with
      | none => exact .inr (fun p now => by simp [evaluateAt, hsess, hmfa, hpassed])
      | some passedMfaAt => exact .inl ⟨data, mfa, passedMfaAt, hsess, hmfa, hpassed⟩

section Flags

variable {A : Type} (out ok : A → Bool) {as : List A}

/-- Tests that share a flag, which each of them may raise. -/
def flagged : Bool → List A → List Bool
  | _, [] => []
  | flag, a :: as => (!(flag || out a) && ok a) :: flagged (flag || out a) as

def unflagged (flag : Bool) (as : List A) : List Bool := as.map (fun a => !(flag || out a) && ok a)

theorem flagged_true : flagged out ok true as = as.map (fun _ => false) := by
  induction as with
  | nil => rfl
  | cons a as ih => simp [flagged, ih]

theorem flagged_eq_unflagged (h : ∀ a ∈ as, out a = true → ∀ b ∈ as, out b = true ∨ ok b = false) :
    flagged out ok false as = unflagged out ok false as := by
  induction as with
  | nil => rfl
  | cons a as ih =>
    cases ha : out a with
    | false =>
      have hrest := ih (fun b hb hout c hc => h b (List.mem_cons_of_mem _ hb) hout c (List.mem_cons_of_mem _ hc))
      simpa [flagged, unflagged, ha] using hrest
    | true =>
      have hrest : as.map (fun _ => false) = as.map (fun b => !(false || out b) && ok b) := by
        refine List.map_congr_left (fun b hb => ?_)
        rcases h a List.mem_cons_self ha b (List.mem_cons_of_mem _ hb) with hout | hok
        · simp [hout]
        · simp [hok]
      simpa [flagged, unflagged, ha, flagged_true] using hrest

/-- The flag is felt in some order unless the tests fail together. -/
theorem forall_perm_flagged_iff [DecidableEq A] {flag : Bool} :
    (∀ bs, bs.Perm as → flagged out ok flag bs = unflagged out ok flag bs) ↔
      (flag = true ∨ ∀ a ∈ as, out a = true → ∀ b ∈ as, out b = true ∨ ok b = false) := by
  cases flag with
  | true => simp [flagged_true, unflagged]
  | false =>
    constructor
    · intro h
      refine .inr (fun a ha hout b hb => ?_)
      by_contra hpasses
      have hba : b ≠ a := by
        rintro rfl
        exact hpasses (.inl hout)
      have hperm : (a :: b :: (as.erase a).erase b).Perm as :=
        ((List.perm_cons_erase ((List.mem_erase_of_ne hba).mpr hb)).symm.cons a).trans (List.perm_cons_erase ha).symm
      have heq := h _ hperm
      simp only [flagged, unflagged] at heq
      simp_all
    · rintro (h | h) bs hperm
      · cases h
      · refine flagged_eq_unflagged out ok (fun a ha hout b hb => ?_)
        exact h a (hperm.mem_iff.mp ha) hout b (hperm.mem_iff.mp hb)

end Flags

theorem evaluateEach_eq_flagged (h : MfaPassed pd apiSessionId data mfa passedMfaAt) (now : Int)
    (checks : List MfaCheck) : evaluateEach apiSessionId now checks pd =
      flagged (runsOut passedMfaAt now) (prompts data now) mfa.timedOut checks := by
  induction checks generalizing pd data mfa with
  | nil => rfl
  | cons p checks ih =>
    rw [evaluateEach, h.evaluateAt_eq, flagged, ih (h.mark _), prompts_marked h.reported]

/-- The order of the checks has no say in their outcomes. -/
def OrderIndependent (apiSessionId : Id) (now : Int) (pd : PostureData) (checks : List MfaCheck) : Prop :=
  ∀ checks', checks'.Perm checks →
    evaluateEach apiSessionId now checks' pd = evaluateAlone apiSessionId now checks' pd

/-- If one check runs out then so do the others, unless they fail a prompt or
the session has been marked before. -/
def RunOutTogether (apiSessionId : Id) (now : Int) (pd : PostureData) (checks : List MfaCheck) : Prop :=
  ∀ data mfa passedMfaAt, MfaPassed pd apiSessionId data mfa passedMfaAt → mfa.timedOut = true ∨
    ∀ p ∈ checks, runsOut passedMfaAt now p = true → ∀ q ∈ checks,
      runsOut passedMfaAt now q = true ∨ prompts data now q = false

theorem MfaPassed.forall_iff (h : MfaPassed pd apiSessionId data mfa passedMfaAt)
    (P : ApiSessionPostureData → PostureResponseMfa → Int → Prop) :
    (∀ data mfa passedMfaAt, MfaPassed pd apiSessionId data mfa passedMfaAt → P data mfa passedMfaAt) ↔
      P data mfa passedMfaAt := by
  refine ⟨fun hall => hall _ _ _ h, fun hP data' mfa' passedMfaAt' h' => ?_⟩
  obtain rfl : data = data' := Option.some.inj (h.session.symm.trans h'.session)
  obtain rfl : mfa = mfa' := Option.some.inj (h.reported.symm.trans h'.reported)
  obtain rfl : passedMfaAt = passedMfaAt' := Option.some.inj (h.passed.symm.trans h'.passed)
  exact hP

theorem orderIndependent_iff (apiSessionId : Id) (now : Int) (pd : PostureData) (checks : List MfaCheck) :
    OrderIndependent apiSessionId now pd checks ↔ RunOutTogether apiSessionId now pd checks := by
  rcases passed_or_blocked pd apiSessionId with ⟨data, mfa, passedMfaAt, h⟩ | hblocked
  · rw [RunOutTogether, h.forall_iff, ← forall_perm_flagged_iff]
    simp [OrderIndependent, evaluateAlone, evaluateEach_eq_flagged h, h.evaluateAt_eq, unflagged]
  · have heach : ∀ checks, evaluateEach apiSessionId now checks pd = evaluateAlone apiSessionId now checks pd := by
      intro checks
      induction checks with
      | nil => rfl
      | cons p checks ih => simpa [evaluateEach, evaluateAlone, hblocked] using ih
    refine iff_of_true (fun checks' _ => heach checks') (fun data mfa passedMfaAt h => ?_)
    have heq := (h.evaluateAt_eq ⟨noTimeout, false, false, false⟩ 0).symm.trans (hblocked _ 0)
    exact .inl (by simpa [prompts, runsOut, passedOnWake, passedOnUnlock, passedOn] using congrArg Prod.fst heq)

/-- A session whose MFA was passed ten seconds ago. -/
def tenSecondsOld : PostureData :=
  { apiSessions := (∅ : IdTable ApiSessionPostureData).insert "session" { mfa := some { passedMfaAt := some 0 } } }

/-- A check of five seconds, evaluated first, fails one of a minute. -/
theorem short_timeout_fails_long :
    evaluateAlone "session" (10 * second) [⟨60, false, false, false⟩] tenSecondsOld = [true] ∧
      evaluateEach "session" (10 * second) [⟨60, false, false, false⟩, ⟨5, false, false, false⟩] tenSecondsOld =
        [true, false] ∧
      evaluateEach "session" (10 * second) [⟨5, false, false, false⟩, ⟨60, false, false, false⟩] tenSecondsOld =
        [false, false] := by
  decide

end Zt.MfaDeadlines
