import Mathlib.Algebra.Group.Nat.Defs
import Zt.EdgeCtrl
import Zt.Runs

namespace Zt.PasswordLogins

open Tables EdgeCtrl

structure AuthenticatorUpdb where
  identityId : Id
  password : String
  salt : String

structure AuthPolicyUpdb where
  allowed : Bool
  maxAttempts : Int
  lockoutDurationMinutes : Int

/-- Times are in nanoseconds. -/
structure Identity where
  authPolicyId : Id
  disabledAt : Option Int := none
  disabledUntil : Option Int := none

def Identity.disabled (identity : Identity) (now : Int) : Bool :=
  identity.disabledAt.isSome && identity.disabledUntil.all (fun until_ => now < until_)

/-- What logins read and do not change: the stores other than that of the
identities, and the password hashing. -/
structure Directory where
  usernameIndex : Table String Id
  authenticators : IdTable AuthenticatorUpdb
  authPolicies : IdTable AuthPolicyUpdb
  decodeSalt : String → Option (List UInt8)
  reHashPassword : String → List UInt8 → String

inductive Entry
  | attempt (authenticatorId : Id)
  | checked (authenticatorId : Id) (right : Bool)
  | disabled (identityId : Id)
  deriving DecidableEq

/-- The identities, the counters in memory, and what happened so far, the last
first. -/
structure Logins where
  identities : IdTable Identity
  attemptsByAuthenticatorId : IdTable Int64 := ∅
  log : List Entry := []

inductive LoginError
  | couldNotValidate
  | invalidAuth

def unlimitedAttemptsLimit : Int := 0

def minute : Int := 60000000000

variable (dir : Directory)

def readByUsername (username : String) : Option (Id × AuthenticatorUpdb) := do
  let id ← dir.usernameIndex.lookup username
  let authenticator ← dir.authenticators.lookup id
  return (id, authenticator)

variable (st : Logins)

def getAuthPolicyByIdentityId (identityId : Id) : Option (AuthPolicyUpdb × Identity) := do
  let identity ← st.identities.lookup identityId
  let authPolicy ← dir.authPolicies.lookup identity.authPolicyId
  return (authPolicy, identity)

/-- The checks before the attempt is counted. -/
def admission (now : Int) (username password : String) :
    Except LoginError (Id × AuthenticatorUpdb × AuthPolicyUpdb) :=
  if username = "" ∨ password = "" then .error .couldNotValidate
  else match readByUsername dir username with
    | none => .error .invalidAuth
    | some (id, authenticator) =>
      match getAuthPolicyByIdentityId dir st authenticator.identityId with
      | none => .error .invalidAuth
      | some (authPolicy, identity) =>
        if identity.disabled now then .error .invalidAuth
        else if authPolicy.allowed = false then .error .invalidAuth
        else .ok (id, authenticator, authPolicy)

/-- The first attempt is stored as zero. -/
def Logins.nextAttempts (id : Id) : Int64 :=
  match st.attemptsByAuthenticatorId.lookup id with
  | some prevAttempts => prevAttempts + 1
  | none => 0

def Logins.count (id : Id) : Logins :=
  { st with
    attemptsByAuthenticatorId := st.attemptsByAuthenticatorId.insert id (st.nextAttempts id)
    log := .attempt id :: st.log }

open Logins (nextAttempts count)

def disable (identityId : Id) (duration now : Int) : Logins :=
  let duration := if duration < 0 then 0 else duration
  let lockedUntil := if duration ≠ 0 then some (now + duration) else none
  match st.identities.lookup identityId with
  | none => st
  | some identity =>
    { st with
      identities := st.identities.insert identityId
        { identity with disabledAt := some now, disabledUntil := lockedUntil }
      log := .disabled identityId :: st.log }

def enable (identityId : Id) : Logins :=
  { st with
    identities := adjust st.identities identityId (fun identity =>
      { identity with disabledAt := none, disabledUntil := none }) }

/-- A login of the password module. The update that disables the identity may
fail, which is only logged. -/
def process (now : Int) (username password : String) (updateFails : Bool) : Logins × Except LoginError Id :=
  match admission dir st now username password with
  | .error e => (st, .error e)
  | .ok (id, authenticator, authPolicy) =>
    let attempts := st.nextAttempts id
    let st := st.count id
    if authPolicy.maxAttempts ≠ unlimitedAttemptsLimit ∧ authPolicy.maxAttempts < attempts.toInt then
      (if updateFails then st
        else disable st authenticator.identityId (authPolicy.lockoutDurationMinutes * minute) now, .error .invalidAuth)
    else match dir.decodeSalt authenticator.salt with
      | none => (st, .error .invalidAuth)
      | some salt =>
        let right := decide (authenticator.password = dir.reHashPassword password salt)
        ({ st with log := .checked id right :: st.log }, if right then .ok id else .error .invalidAuth)

inductive LoginOp
  | login (now : Int) (username password : String) (updateFails : Bool)
  | disable (identityId : Id) (duration now : Int)
  | enable (identityId : Id)

def step : LoginOp → Logins
  | .login now username password updateFails => (process dir st now username password updateFails).1
  | .disable identityId duration now => disable st identityId duration now
  | .enable identityId => enable st identityId

/-- The logins that were counted for an authenticator. -/
def counted (a : Id) (log : List Entry) : Nat := log.countP (fun e => e = .attempt a)

/-- The wrong passwords checked for an authenticator since the last right one,
or since the identity was last disabled. -/
def wrongSince (a i : Id) : List Entry → Nat
  | [] => 0
  | .attempt _ :: log => wrongSince a i log
  | .checked b right :: log => if b = a then if right then 0 else wrongSince a i log + 1 else wrongSince a i log
  | .disabled j :: log => if j = i then 0 else wrongSince a i log

/-- The number of attempts that the policy of an authenticator's identity
allows. -/
def limit (a : Id) : Option (Id × Int) := do
  let authenticator ← dir.authenticators.lookup a
  let (authPolicy, _) ← getAuthPolicyByIdentityId dir st authenticator.identityId
  return (authenticator.identityId, authPolicy.maxAttempts)

def isDisabled (i : Id) (now : Int) : Bool := (st.identities.lookup i).any (fun x => x.disabled now)

/-- The login turns an enabled identity into a disabled one. -/
def Disables (i : Id) (now : Int) (username password : String) (updateFails : Bool) : Prop :=
  isDisabled st i now = false ∧ isDisabled (process dir st now username password updateFails).1 i now = true

instance (dir : Directory) (st : Logins) (i : Id) (now : Int) (username password : String) (updateFails : Bool) :
    Decidable (Disables dir st i now username password updateFails) :=
  inferInstanceAs (Decidable (_ ∧ _))

/-- The login is counted for the authenticator. -/
def Admitted (a : Id) (now : Int) (username password : String) : Prop :=
  ∃ authenticator authPolicy, admission dir st now username password = .ok (a, authenticator, authPolicy)

variable {st : Logins} {dir : Directory} {now : Int} {a : Id} {authenticator : AuthenticatorUpdb}
  {username password : String} {authPolicy : AuthPolicyUpdb}

/-- What a login that is counted does: it disables the identity or tries to,
or it checks the password if the salt can be read. -/
theorem process_cases
    (h : admission dir st now username password = .ok (a, authenticator, authPolicy)) {updateFails : Bool} :
    (authPolicy.maxAttempts ≠ 0 ∧ authPolicy.maxAttempts < (st.nextAttempts a).toInt ∧
      (process dir st now username password updateFails).1 = if updateFails then st.count a
        else disable (st.count a) authenticator.identityId (authPolicy.lockoutDurationMinutes * minute) now) ∨
    (¬ (authPolicy.maxAttempts ≠ 0 ∧ authPolicy.maxAttempts < (st.nextAttempts a).toInt) ∧
      ((process dir st now username password updateFails).1 = st.count a ∨
        ∃ right, (process dir st now username password updateFails).1 =
          { st.count a with log := .checked a right :: (st.count a).log })) := by
  by_cases hlock : authPolicy.maxAttempts ≠ unlimitedAttemptsLimit ∧ authPolicy.maxAttempts < (st.nextAttempts a).toInt
  · refine .inl ⟨hlock.1, hlock.2, ?_⟩
    simp only [process, h]
    rw [if_pos hlock]
  · refine .inr ⟨hlock, ?_⟩
    simp only [process, h]
    rw [if_neg hlock]
    cases dir.decodeSalt authenticator.salt with
    | none => exact .inl rfl
    | some salt => exact .inr ⟨_, rfl⟩

theorem admission_ok (h : admission dir st now username password = .ok (a, authenticator, authPolicy)) :
    dir.authenticators.lookup a = some authenticator ∧ isDisabled st authenticator.identityId now = false ∧
      ∃ identity, getAuthPolicyByIdentityId dir st authenticator.identityId = some (authPolicy, identity) := by
  unfold admission at h
  split at h
  · cases h
  · split at h
    · cases h
    · rename_i id found hread
      split at h
      · cases h
      · rename_i policy identity hpol
        split at h
        · cases h
        · rename_i henabled
          split at h
          · cases h
          · cases h
            simp only [readByUsername, Option.bind_eq_bind, Option.bind_eq_some_iff] at hread
            obtain ⟨id, -, x, hx, hret⟩ := hread
            cases hret
            refine ⟨hx, ?_, identity, hpol⟩
            simp only [getAuthPolicyByIdentityId, Option.bind_eq_bind, Option.bind_eq_some_iff] at hpol
            obtain ⟨y, hy, z, -, hret⟩ := hpol
            cases hret
            rw [isDisabled, hy]
            simpa using henabled

theorem process_error {e : LoginError} (h : admission dir st now username password = .error e) (updateFails : Bool) :
    (process dir st now username password updateFails).1 = st := by
  simp [process, h]

section Counters

variable {dir : Directory} {st : Logins} {a i : Id} {identities : IdTable Identity} {duration : Int}

def checks (a : Id) (log : List Entry) : Nat := log.countP (fun e => e = .checked a true ∨ e = .checked a false)

theorem wrongSince_le_checks (a i : Id) (log : List Entry) : wrongSince a i log ≤ checks a log := by
  induction log with
  | nil => exact le_refl 0
  | cons e log ih =>
    cases e with
    | attempt b => simpa [wrongSince, checks] using ih
    | disabled j =>
      simp only [wrongSince]
      split
      · exact Nat.zero_le _
      · exact ih
    | checked b right =>
      simp only [wrongSince]
      by_cases hb : b = a
      · subst hb
        cases right with
        | true => simp
        | false => simpa [checks] using ih
      · simpa [checks, hb] using ih

/-- The counter in memory is the number of logins so far, but for the first, as
far as the machine can count. -/
def Counted (st : Logins) : Prop := ∀ a, st.nextAttempts a = .ofNat (counted a st.log)

theorem nextAttempts_count {b : Id} :
    (st.count a).nextAttempts b = if b = a then st.nextAttempts a + 1 else st.nextAttempts b := by
  simp only [nextAttempts, count, lookup_insert_eq]
  by_cases hb : b = a
  · simp [hb]
  · simp [hb]

theorem counted_count (h : Counted st) : Counted (st.count a) := by
  intro b
  rw [nextAttempts_count]
  by_cases hb : b = a
  · subst hb
    simp [counted, count, h b, Int64.ofNat_add]
  · simp [counted, count, hb, Ne.symm hb, h b]

theorem limit_eq {st' : Logins}
    (h : ∀ j, (st'.identities.lookup j).map (·.authPolicyId) = (st.identities.lookup j).map (·.authPolicyId)) :
    limit dir st' a = limit dir st a := by
  cases ha : dir.authenticators.lookup a with
  | none => simp [limit, ha]
  | some authenticator =>
    have hi := h authenticator.identityId
    simp only [limit, ha, getAuthPolicyByIdentityId, Option.bind_eq_bind, Option.bind_some]
    cases hx : st.identities.lookup authenticator.identityId with
    | none =>
      rw [hx] at hi
      rw [Option.map_eq_none_iff.mp hi]
    | some x =>
      rw [hx] at hi
      obtain ⟨y, hy, hxy⟩ := Option.map_eq_some_iff.mp hi
      rw [hy, Option.bind_some, Option.bind_some, hxy]
      cases dir.authPolicies.lookup x.authPolicyId <;> rfl

theorem policies_disable (j : Id) :
    ((disable st i duration now).identities.lookup j).map (·.authPolicyId) =
      (st.identities.lookup j).map (·.authPolicyId) := by
  unfold disable
  cases hi : st.identities.lookup i with
  | none => rfl
  | some identity =>
    simp only [lookup_insert_eq]
    split
    · rename_i hj
      rw [hj, hi]
      rfl
    · rfl

theorem policies_enable (j : Id) :
    ((enable st i).identities.lookup j).map (·.authPolicyId) = (st.identities.lookup j).map (·.authPolicyId) := by
  simp only [enable, lookup_adjust]
  split
  · cases st.identities.lookup j <;> rfl
  · rfl

theorem disable_frame :
    (disable st i duration now).attemptsByAuthenticatorId = st.attemptsByAuthenticatorId ∧
      ((disable st i duration now).log = st.log ∨ (disable st i duration now).log = .disabled i :: st.log) := by
  unfold disable
  cases st.identities.lookup i with
  | none => exact ⟨rfl, .inl rfl⟩
  | some identity => exact ⟨rfl, .inr rfl⟩

/-- What the counters and the log have in common in every state of a run. -/
structure Kept (dir : Directory) (st : Logins) : Prop where
  counted : Counted st
  attempted : ∀ a, checks a st.log ≤ PasswordLogins.counted a st.log
  limited : ∀ a i m, PasswordLogins.counted a st.log ≤ 2 ^ 63 → limit dir st a = some (i, m) → 1 ≤ m →
    (checks a st.log : Int) ≤ m + 1

theorem kept_same {st' : Logins} (h : Kept dir st)
    (hatts : st'.attemptsByAuthenticatorId = st.attemptsByAuthenticatorId)
    (hlog : st'.log = st.log ∨ ∃ j, st'.log = .disabled j :: st.log)
    (hpols : ∀ j, (st'.identities.lookup j).map (·.authPolicyId) = (st.identities.lookup j).map (·.authPolicyId)) :
    Kept dir st' := by
  have hchecks : ∀ a, checks a st'.log = checks a st.log := by
    intro a
    rcases hlog with hlog | ⟨j, hlog⟩
    · rw [hlog]
    · rw [hlog]
      simp [checks]
  have hcounted : ∀ a, counted a st'.log = counted a st.log := by
    intro a
    rcases hlog with hlog | ⟨j, hlog⟩
    · rw [hlog]
    · rw [hlog]
      simp [counted]
  refine ⟨fun a => ?_, fun a => ?_, fun a i m hsmall hlimit hm => ?_⟩
  · rw [hcounted, ← h.counted a, nextAttempts, hatts]
    rfl
  · rw [hchecks, hcounted]
    exact h.attempted a
  · rw [hchecks]
    rw [hcounted] at hsmall
    rw [limit_eq hpols] at hlimit
    exact h.limited a i m hsmall hlimit hm

theorem kept_count (h : Kept dir st) (a : Id) : Kept dir (st.count a) := by
  have hmore : ∀ b, counted b st.log ≤ counted b (st.count a).log := by
    intro b
    simp only [counted, count, List.countP_cons]
    exact Nat.le_add_right _ _
  refine ⟨counted_count h.counted, fun b => ?_, fun b i m hsmall hlimit hm => ?_⟩
  · exact le_trans (h.attempted b) (hmore b)
  · exact h.limited b i m (le_trans (hmore b) hsmall) hlimit hm

/-- A password is only checked while the counter is within the limit. -/
theorem kept_check (h : Kept dir st) {right : Bool} {m : Int} (hlimit : limit dir st a = some (i, m))
    (hm : ¬ (m ≠ 0 ∧ m < (st.nextAttempts a).toInt)) :
    Kept dir { st.count a with log := .checked a right :: (st.count a).log } := by
  have hcount := kept_count h a
  have hold := h.attempted a
  have hcounted := h.counted a
  have hchecks : ∀ b, checks b (.checked a right :: (st.count a).log) =
      checks b st.log + if b = a then 1 else 0 := by
    intro b
    by_cases hb : b = a
    · subst hb
      cases right <;> simp [checks, count]
    · simp [checks, count, hb, Ne.symm hb]
  refine ⟨fun b => ?_, fun b => ?_, fun b j n hsmall hb hn => ?_⟩
  · rw [← show counted b (st.count a).log = counted b (.checked a right :: (st.count a).log) by simp [counted],
      ← hcount.counted b]
    rfl
  · rw [hchecks]
    by_cases hb : b = a
    · subst hb
      simp only [counted, count, List.countP_cons]
      exact Nat.add_le_add_right hold 1
    · simp only [if_neg hb, counted, count, List.countP_cons]
      exact le_trans (h.attempted b) (le_trans (Nat.le_add_right _ _) (Nat.le_add_right _ _))
  · rw [hchecks]
    by_cases hba : b = a
    · subst hba
      have hsame : some (i, m) = some (j, n) := hlimit.symm.trans hb
      cases hsame
      have hlt : counted b st.log < 2 ^ 63 := by
        simp only [counted, count, List.countP_cons] at hsmall
        exact hsmall
      rw [hcounted, Int64.toInt_ofNat_of_lt hlt] at hm
      rw [if_pos rfl]
      omega
    · rw [if_neg hba]
      exact h.limited b j n (by simpa [counted, count, Ne.symm hba] using hsmall) hb hn

theorem kept_step (h : Kept dir st) {op : LoginOp} : Kept dir (step dir st op) := by
  cases op with
  | disable i duration now =>
    obtain ⟨hatts, hlog⟩ := disable_frame
    exact kept_same h hatts (hlog.imp_right (fun hlog => ⟨i, hlog⟩)) policies_disable
  | enable i => exact kept_same h rfl (.inl rfl) policies_enable
  | login now username password updateFails =>
    show Kept dir (process dir st now username password updateFails).1
    cases hadmit : admission dir st now username password with
    | error e =>
      rw [process_error hadmit]
      exact h
    | ok found =>
      obtain ⟨a, authenticator, authPolicy⟩ := found
      obtain ⟨hauth, -, identity, hpol⟩ := admission_ok hadmit
      have hlimit : limit dir st a = some (authenticator.identityId, authPolicy.maxAttempts) := by
        simp [limit, hauth, hpol]
      rcases process_cases hadmit with ⟨-, -, hst⟩ | ⟨hm, hst | ⟨right, hst⟩⟩
      · rw [hst]
        have hcount := kept_count h a
        cases updateFails with
        | true => exact hcount
        | false =>
          obtain ⟨hatts, hlog⟩ := disable_frame
          exact kept_same hcount hatts (hlog.imp_right (fun hlog => ⟨_, hlog⟩))
            policies_disable
      · rw [hst]
        exact kept_count h a
      · rw [hst]
        exact kept_check h hlimit hm

theorem kept_new : Kept dir { identities := identities } where
  counted := fun _ => rfl
  attempted := fun _ => Nat.le_refl 0
  limited := fun a i m _ _ hm => by
    show 0 ≤ m + 1
    omega

theorem kept_run {ops : List LoginOp} : Kept dir (ops.foldl (step dir) { identities := identities }) :=
  List.foldlRecOn ops (step dir) kept_new
    (fun _ h _ _ => kept_step h)

end Counters

section Lockouts

variable {dir : Directory} {st : Logins} {now : Int} {username password : String} {updateFails : Bool} {i : Id}

theorem isDisabled_disable {identity : Identity} (h : st.identities.lookup i = some identity)
    (duration now : Int) : isDisabled (disable st i duration now) i now = true := by
  simp only [disable, h, isDisabled, AList.lookup_insert, Option.any_some, Identity.disabled, Option.isSome_some,
    Bool.true_and]
  by_cases hneg : duration < 0
  · simp [hneg]
  · by_cases hzero : duration = 0
    · simp [hzero]
    · simp only [if_neg hneg, if_pos hzero, Option.all_some, decide_eq_true_eq]
      omega

/-- A login that is counted disables the identity iff the logins before it
exceed the limit and the update goes through. -/
theorem disables_iff (hk : Kept dir st) {m : Int} (hsmall : counted a st.log < 2 ^ 63) (hm : 1 ≤ m)
    (hlimit : limit dir st a = some (i, m)) (ha : Admitted dir st a now username password) :
    Disables dir st i now username password updateFails ↔ updateFails = false ∧ m < counted a st.log := by
  obtain ⟨authenticator, authPolicy, hadmit⟩ := ha
  obtain ⟨hauth, henabled, identity, hpol⟩ := admission_ok hadmit
  have hsame : some (authenticator.identityId, authPolicy.maxAttempts) = some (i, m) := by
    rw [← hlimit]
    simp [limit, hauth, hpol]
  cases hsame
  have hcounted : (st.nextAttempts a).toInt = counted a st.log := by
    rw [hk.counted a, Int64.toInt_ofNat_of_lt hsmall]
  have hpres : ∃ x, st.identities.lookup authenticator.identityId = some x := by
    simp only [getAuthPolicyByIdentityId, Option.bind_eq_bind, Option.bind_eq_some_iff] at hpol
    obtain ⟨x, hx, -⟩ := hpol
    exact ⟨x, hx⟩
  have hunchanged : ∀ st', st'.identities = st.identities →
      isDisabled st' authenticator.identityId now = false := by
    intro st' hst'
    rw [isDisabled, hst']
    exact henabled
  unfold Disables
  rcases process_cases hadmit with ⟨-, hlock, hst⟩ | ⟨hfree, hst⟩
  · rw [hcounted] at hlock
    rw [hst]
    cases updateFails with
    | true =>
      have hsame := hunchanged (st.count a) rfl
      rw [if_pos rfl, hsame]
      simp
    | false =>
      obtain ⟨x, hx⟩ := hpres
      have hx' : (st.count a).identities.lookup authenticator.identityId = some x := hx
      have hdisabled := isDisabled_disable hx' (authPolicy.lockoutDurationMinutes * minute) now
      rw [if_neg Bool.false_ne_true, hdisabled]
      exact ⟨fun _ => ⟨rfl, hlock⟩, fun _ => ⟨henabled, rfl⟩⟩
  · have hle : ¬ authPolicy.maxAttempts < counted a st.log := by
      rw [← hcounted]
      exact fun hlt => hfree ⟨by omega, hlt⟩
    have hsame : (process dir st now username password updateFails).1.identities = st.identities := by
      rcases hst with hst | ⟨right, hst⟩
      · rw [hst]
        rfl
      · rw [hst]
        rfl
    rw [hunchanged _ hsame]
    exact ⟨fun hdis => absurd hdis.2 Bool.false_ne_true, fun hdis => absurd hdis.2 hle⟩

/-- Only a login that is counted for an authenticator of the identity disables
it. -/
theorem admitted_of_disables (h : Disables dir st i now username password updateFails) :
    ∃ a m, Admitted dir st a now username password ∧ limit dir st a = some (i, m) := by
  cases hadmit : admission dir st now username password with
  | error e =>
    rw [Disables, process_error hadmit] at h
    rw [h.1] at h
    cases h.2
  | ok found =>
    obtain ⟨a, authenticator, authPolicy⟩ := found
    obtain ⟨hauth, -, identity, hpol⟩ := admission_ok hadmit
    have hlimit : limit dir st a = some (authenticator.identityId, authPolicy.maxAttempts) := by
      simp [limit, hauth, hpol]
    refine ⟨a, authPolicy.maxAttempts, ⟨authenticator, authPolicy, hadmit⟩, ?_⟩
    suffices hi : i = authenticator.identityId by rw [hi, hlimit]
    by_contra hne
    have hother : isDisabled (process dir st now username password updateFails).1 i now = isDisabled st i now := by
      rcases process_cases hadmit with ⟨-, -, hst⟩ | ⟨-, hst | ⟨right, hst⟩⟩
      · rw [hst]
        split
        · rfl
        · unfold disable isDisabled
          cases (st.count a).identities.lookup authenticator.identityId with
          | none => rfl
          | some x =>
            simp only [lookup_insert_eq, if_neg hne]
            rfl
      · rw [hst]
        rfl
      · rw [hst]
        rfl
    rw [Disables, hother, h.1] at h
    cases h.2

end Lockouts

/-- In every state of a run, while the counter has not wrapped, no more than
m + 1 wrong passwords in a row were checked, and a login disables the identity
only after m of them exactly if no more than m logins were counted before it or
m of them were. -/
theorem lockouts_justified_iff (dir : Directory) (identities : IdTable Identity) (ops : List LoginOp) (st : Logins)
    (hst : st = ops.foldl (step dir) { identities := identities }) (a i : Id) (m : Int) (hm : 1 ≤ m)
    (hsmall : counted a st.log < 2 ^ 63) (hlimit : limit dir st a = some (i, m)) :
    (wrongSince a i st.log : Int) ≤ m + 1 ∧ ∀ now username password updateFails,
        (Disables dir st i now username password updateFails →
          ∃ b n, Admitted dir st b now username password ∧ limit dir st b = some (i, n)) ∧
        ((Admitted dir st a now username password → Disables dir st i now username password updateFails →
            m ≤ wrongSince a i st.log) ↔
          (Admitted dir st a now username password → updateFails = false →
            counted a st.log ≤ m ∨ m ≤ wrongSince a i st.log)) := by
  have hk : Kept dir st := by
    rw [hst]
    exact kept_run
  refine ⟨?_, fun now username password updateFails => ⟨admitted_of_disables, ?_⟩⟩
  · have hchecks := hk.limited a i m (Nat.le_of_lt hsmall) hlimit hm
    have hwrong := wrongSince_le_checks a i st.log
    omega
  · constructor
    · intro h ha hfails
      by_cases hlt : m < counted a st.log
      · exact .inr (h ha ((disables_iff hk hsmall hm hlimit ha).mpr ⟨hfails, hlt⟩))
      · exact .inl (by omega)
    · intro h ha hdisables
      obtain ⟨hfails, hlt⟩ := (disables_iff hk hsmall hm hlimit ha).mp hdisables
      rcases h ha hfails with hle | hle
      · omega
      · exact hle

/-- One account with the password "open" and one attempt allowed. -/
def oneAttempt : Directory where
  usernameIndex := AList.insert "ann" "a" ∅
  authenticators := AList.insert "a" { identityId := "i", password := "open", salt := "" } ∅
  authPolicies := AList.insert "policy" { allowed := true, maxAttempts := 1, lockoutDurationMinutes := 0 } ∅
  decodeSalt _ := some []
  reHashPassword password _ := password

def ann : IdTable Identity := AList.insert "i" { authPolicyId := "policy" } ∅

def tries (passwords : List String) : Logins :=
  (passwords.map (fun password => LoginOp.login 0 "ann" password false)).foldl (step oneAttempt) { identities := ann }

theorem lockouts_justified_after_wrong_passwords : (1 : Int) ≤ wrongSince "a" "i" (tries ["shut", "shut"]).log ∧
    Disables oneAttempt (tries ["shut", "shut"]) "i" 0 "ann" "shut" false := by
  have h := lockouts_justified_iff oneAttempt ann _ (tries ["shut", "shut"]) rfl "a" "i" 1 (by decide) (by decide) (by rfl)
  have hdisables : Disables oneAttempt (tries ["shut", "shut"]) "i" 0 "ann" "shut" false := by decide
  refine ⟨(h.2 0 "ann" "shut" false).2.mpr (fun _ _ => .inr (by decide)) ⟨_, _, rfl⟩ hdisables, hdisables⟩

/-- Right passwords are counted like wrong ones, so the third login locks out
an identity that never had a wrong password. -/
theorem right_passwords_lock_out : limit oneAttempt (tries ["open", "open"]) "a" = some ("i", 1) ∧
    Disables oneAttempt (tries ["open", "open"]) "i" 0 "ann" "open" false ∧
    wrongSince "a" "i" (tries ["open", "open"]).log = 0 := by
  decide

section Disabled

variable {deadline : Int} {i : Id}

/-- Logins come no later than the deadline, and administrators only disable or
enable other identities. -/
def Early (i : Id) (deadline : Int) : LoginOp → Prop
  | .login now _ _ _ => now ≤ deadline
  | .disable j _ _ | .enable j => j ≠ i

theorem isDisabled_earlier (h : isDisabled st i deadline = true) (hnow : now ≤ deadline) :
    isDisabled st i now = true := by
  unfold isDisabled at h ⊢
  obtain ⟨identity, hidentity, hdisabled⟩ := (Option.any_eq_true ..).mp h
  rw [hidentity, Option.any_some]
  unfold Identity.disabled at hdisabled ⊢
  cases huntil : identity.disabledUntil with
  | none => simpa [huntil] using hdisabled
  | some until_ =>
    simp only [huntil, Option.all_some, Bool.and_eq_true, decide_eq_true_eq] at hdisabled ⊢
    exact ⟨hdisabled.1, by omega⟩

theorem isDisabled_disable_other {j : Id} (hne : j ≠ i) (duration : Int) :
    isDisabled (disable st j duration now) i deadline = isDisabled st i deadline := by
  unfold disable isDisabled
  cases st.identities.lookup j with
  | none => rfl
  | some identity => simp only [lookup_insert_eq, if_neg (Ne.symm hne)]

theorem isDisabled_step (h : isDisabled st i deadline = true) {op : LoginOp} (hop : Early i deadline op) :
    isDisabled (step dir st op) i deadline = true := by
  cases op with
  | disable j duration now => exact (isDisabled_disable_other hop duration).trans h
  | enable j => simpa [step, enable, isDisabled, lookup_adjust, Ne.symm hop] using h
  | login now username password updateFails =>
    cases hadmit : admission dir st now username password with
    | error e => rwa [step, process_error hadmit]
    | ok found =>
      obtain ⟨a, authenticator, authPolicy⟩ := found
      -- The login is of another identity, since this one is disabled by now.
      have hne : authenticator.identityId ≠ i := by
        rintro rfl
        exact Bool.false_ne_true ((admission_ok hadmit).2.1.symm.trans (isDisabled_earlier h hop))
      rw [step]
      rcases process_cases hadmit with ⟨-, -, hst⟩ | ⟨-, hst | ⟨right, hst⟩⟩
      · rw [hst]
        split
        · exact h
        · exact (isDisabled_disable_other hne _).trans h
      · rw [hst]
        exact h
      · rw [hst]
        exact h

theorem admission_disabled {username : String} (huser : readByUsername dir username = some (a, authenticator))
    (h : isDisabled st authenticator.identityId now = true) (password : String) :
    ∃ e, admission dir st now username password = .error e := by
  unfold admission
  split
  · exact ⟨_, rfl⟩
  · rw [huser]
    dsimp only
    split
    · exact ⟨_, rfl⟩
    · rename_i authPolicy identity hpol
      simp only [getAuthPolicyByIdentityId, Option.bind_eq_bind, Option.bind_eq_some_iff] at hpol
      obtain ⟨x, hx, y, -, hret⟩ := hpol
      cases hret
      rw [isDisabled, hx] at h
      exact ⟨_, if_pos h⟩

/-- A disabled identity cannot log in before the end of its lockout, whatever
logins are tried until then, and none of its logins is counted. -/
theorem lockout_holds (dir : Directory) (st : Logins) (i : Id) (deadline : Int)
    (hdisabled : isDisabled st i deadline = true) (ops : List LoginOp) (hops : ∀ op ∈ ops, Early i deadline op)
    (now : Int) (hnow : now ≤ deadline) (username password : String) (updateFails : Bool) (a : Id)
    (authenticator : AuthenticatorUpdb) (huser : readByUsername dir username = some (a, authenticator))
    (hi : authenticator.identityId = i) :
    ∃ e, process dir (ops.foldl (step dir) st) now username password updateFails =
      (ops.foldl (step dir) st, .error e) := by
  have hrun : isDisabled (ops.foldl (step dir) st) i deadline = true :=
    List.foldlRecOn (motive := fun st => isDisabled st i deadline = true) ops (step dir) hdisabled
      (fun _ h op hop => isDisabled_step h (hops op hop))
  subst hi
  obtain ⟨e, hrefused⟩ := admission_disabled huser (isDisabled_earlier hrun hnow) password
  exact ⟨e, by simp only [process, hrefused]⟩

theorem right_password_refused_in_lockout : isDisabled (tries ["shut", "shut", "shut"]) "i" 5 = true ∧
    ∃ e, process oneAttempt (step oneAttempt (tries ["shut", "shut", "shut"]) (.login 3 "ann" "open" false)) 4 "ann"
      "open" false = (step oneAttempt (tries ["shut", "shut", "shut"]) (.login 3 "ann" "open" false), .error e) := by
  have hdisabled : isDisabled (tries ["shut", "shut", "shut"]) "i" 5 = true := by decide
  exact ⟨hdisabled, lockout_holds oneAttempt _ "i" 5 hdisabled [.login 3 "ann" "open" false] (by simp [Early]) 4
    (by decide) "ann" "open" false "a" _ rfl rfl⟩

end Disabled

end Zt.PasswordLogins
