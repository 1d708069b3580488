import Zt.MfaRecords
import Zt.Runs

namespace Zt.AuthRequests

open Tables Runs EdgeCtrl Mirroring MfaRecords

def authMethodPassword : String := "password"
def authMethodExtJwt : String := "ext-jwt"
def authMethodCert : String := "cert"
def authMethodSecondaryTotp : String := "totp"
def authMethodSecondaryExtJwt : String := "ejs"

/-- The fields that decide on the authentication. -/
structure AuthRequest where
  identityId : Id
  isTotpEnrolled : Bool := false
  secondaryTotpRequired : Bool := false
  secondaryExtJwtSigner : Option Id := none
  amr : KeySet String := ∅

namespace AuthRequest

variable (a : AuthRequest)

def hasAmr (amr : String) : Bool := amr ∈ a.amr

def hasAmrExtJwtId (id : Id) : Bool := a.hasAmr (authMethodSecondaryExtJwt ++ ":" ++ id)

def hasPrimaryAuth : Bool :=
  a.hasAmr authMethodCert || a.hasAmr authMethodPassword || a.hasAmr authMethodExtJwt

def hasSecondaryAuth : Bool :=
  (!a.secondaryTotpRequired || a.hasAmr authMethodSecondaryTotp) && a.secondaryExtJwtSigner.all a.hasAmrExtJwtId

def hasFullAuth : Bool := a.hasPrimaryAuth && a.hasSecondaryAuth

def addAmr (amr : String) : AuthRequest := { a with amr := a.amr.insert amr () }

end AuthRequest

structure AuthPolicySecondary where
  requireTotp : Bool := false
  requiredExtJwtSigner : Option Id := none

inductive AuthResult
  | error
  | unsuccessful
  | successful (identityId : Id) (secondary : AuthPolicySecondary)

/-- There is a module for each of three methods. What it finds is given. -/
def authorize (method : String) (result : AuthResult) : AuthResult :=
  if method ∈ [authMethodPassword, authMethodCert, authMethodExtJwt] then result else .error

def readMfa (mfas : MfaStore) (identityId : Id) (dbFails : Bool) : Except MfaError (Option Mfa) :=
  if dbFails then .error .database else readOneByIdentityId mfas identityId

def readSigner (signers : IdSet) (id : Id) (dbFails : Bool) : Option Id :=
  if id ∈ signers ∧ dbFails = false then some id else none

/-- The request is changed in place, so what was set before an error stays. -/
def AuthRequest.authenticate (a : AuthRequest) (mfas : MfaStore) (signers : IdSet) (method : String)
    (result : AuthResult) (mfaFails signerFails : Bool) : AuthRequest × Bool :=
  match authorize method result with
  | .error => (a, false)
  | .unsuccessful => (a, false)
  | .successful identityId secondary =>
    let a := { a with identityId := identityId }.addAmr method
    match readMfa mfas identityId mfaFails with
    | .error _ => (a, false)
    | .ok mfa =>
      let isTotpEnrolled := mfa.any Mfa.isVerified
      let a := { a with
        isTotpEnrolled := isTotpEnrolled
        secondaryTotpRequired := isTotpEnrolled || secondary.requireTotp }
      let extJwtSignerId := secondary.requiredExtJwtSigner.getD ""
      if extJwtSignerId ≠ "" then
        let signer := readSigner signers extJwtSignerId signerFails
        ({ a with secondaryExtJwtSigner := signer }, signer.isSome)
      else (a, true)

def isSpace (c : Char) : Bool :=
  c.val ∈ [0x09, 0x0a, 0x0b, 0x0c, 0x0d, 0x20, 0x85, 0xa0, 0x1680, 0x2028, 0x2029, 0x202f, 0x205f, 0x3000] ||
    (0x2000 ≤ c.val && c.val ≤ 0x200a)

def trimSpace (s : String) : String :=
  String.ofList (((s.toList.dropWhile isSpace).reverse.dropWhile isSpace).reverse)

variable (lib : Libraries)

def AuthRequest.verifyTotp (a : AuthRequest) (mfas : MfaStore) (code : String) (now : Int) (dbFails : Bool) :
    Option (AuthRequest × MfaStore) :=
  let code := trimSpace code
  if code.utf8ByteSize > 13 ∨ code = "" then none
  else if isEmpty a.amr then none
  else match readOneByIdentityId mfas a.identityId with
    | .ok (some mfa) =>
      match verify lib mfas mfa code now dbFails with
      | some (_, mfas) => some (a.addAmr authMethodSecondaryTotp, mfas)
      | none => none
    | _ => none

open AuthRequest (hasAmr hasPrimaryAuth hasFullAuth authenticate addAmr verifyTotp)

def startTotpEnrollment (a : AuthRequest) (identities : IdSet) (mfas : MfaStore) (id : Id) (secret : String)
    (codes : List String) (dbFails : Bool) : Except MfaError MfaStore :=
  if a.identityId ∈ identities then
    applyCreate lib mfas { id := id, identityId := a.identityId, secret := secret, recoveryCodes := codes } dbFails
  else .error .notFound

def completeTotpEnrollment (a : AuthRequest) (mfas : MfaStore) (code : String) (now : Int) (dbFails : Bool) :
    Except MfaError MfaStore :=
  match readOneByIdentityId mfas a.identityId with
  | .error e => .error e
  | .ok none => .error .notFound
  | .ok (some mfa) => finishTotpEnrollment lib mfas mfa code now dbFails

/-- A recovery code is used up even if the record then cannot be deleted. -/
def deleteTotpEnrollment (a : AuthRequest) (mfas : MfaStore) (code : String) (now : Int)
    (updateFails deleteFails : Bool) : MfaStore × Option MfaError :=
  match readOneByIdentityId mfas a.identityId with
  | .error e => (mfas, some e)
  | .ok none => (mfas, some .notFound)
  | .ok (some mfa) =>
    match if mfa.isVerified then verify lib mfas mfa code now updateFails else some (mfa, mfas) with
    | none => (mfas, some .invalidMfaToken)
    | some (_, mfas) =>
      match delete mfas mfa.id deleteFails with
      | .error e => (mfas, some e)
      | .ok mfas => (mfas, none)

/-- The secondary factors an identity has to pass. -/
structure Demands where
  totp : Bool
  extJwtSigner : Option Id
  deriving DecidableEq

def enrolled (mfas : MfaStore) (identityId : Id) : Bool :=
  (rows mfas).any (fun mfa => mfa.identityId = identityId && mfa.isVerified)

def demands (mfas : MfaStore) (identityId : Id) (secondary : AuthPolicySecondary) : Demands where
  totp := enrolled mfas identityId || secondary.requireTotp
  extJwtSigner := if secondary.requiredExtJwtSigner.getD "" = "" then none else secondary.requiredExtJwtSigner

inductive Entry
  | primary (identityId : Id) (demands : Demands)
  | totp (identityId : Id)
  deriving DecidableEq

/-- One request, the stores it is checked against and who passed what in it, the
last first. -/
structure Login where
  request : AuthRequest
  mfas : MfaStore
  identities : IdSet
  signers : IdSet
  log : List Entry := []

/-- A request comes with the subject of the token that was sent as a hint. Other
calls may change the stores at any time. -/
inductive LoginOp
  | authenticate (method : String) (result : AuthResult) (mfaFails signerFails : Bool)
  | verifyTotp (code : String) (now : Int) (dbFails : Bool)
  | startTotpEnrollment (id : Id) (secret : String) (codes : List String) (dbFails : Bool)
  | completeTotpEnrollment (code : String) (now : Int) (dbFails : Bool)
  | deleteTotpEnrollment (code : String) (now : Int) (updateFails deleteFails : Bool)
  | others (mfas : MfaStore) (keyed : KeyedBy Mfa.id mfas) (identities signers : IdSet)

variable (st : Login)

def Login.noted (method : String) (result : AuthResult) : List Entry :=
  match authorize method result with
  | .successful identityId secondary => .primary identityId (demands st.mfas identityId secondary) :: st.log
  | _ => st.log

def step : LoginOp → Login
  | .authenticate method result mfaFails signerFails =>
    { st with
      request := (st.request.authenticate st.mfas st.signers method result mfaFails signerFails).1
      log := st.noted method result }
  | .verifyTotp code now dbFails =>
    match st.request.verifyTotp lib st.mfas code now dbFails with
    | some (request, mfas) =>
      { st with request := request, mfas := mfas, log := .totp st.request.identityId :: st.log }
    | none => st
  | .startTotpEnrollment id secret codes dbFails =>
    match startTotpEnrollment lib st.request st.identities st.mfas id secret codes dbFails with
    | .ok mfas => { st with mfas := mfas }
    | .error _ => st
  | .completeTotpEnrollment code now dbFails =>
    match completeTotpEnrollment lib st.request st.mfas code now dbFails with
    | .ok mfas => { st with mfas := mfas }
    | .error _ => st
  | .deleteTotpEnrollment code now updateFails deleteFails =>
    { st with mfas := (deleteTotpEnrollment lib st.request st.mfas code now updateFails deleteFails).1 }
  | .others mfas _ identities signers => { st with mfas := mfas, identities := identities, signers := signers }

def primaryOf (identityId : Id) : List Entry → Option Demands
  | [] => none
  | .primary i d :: log => if i = identityId then some d else primaryOf identityId log
  | .totp _ :: log => primaryOf identityId log

/-- No step of a login verifies the token of a secondary signer. -/
def Passed (log : List Entry) (identityId : Id) (d : Demands) : Prop :=
  (d.totp = true → Entry.totp identityId ∈ log) ∧ d.extJwtSigner = none

/-- A full authentication is one of the request's identity. -/
def Sound : Prop :=
  st.request.hasFullAuth = true →
    ∃ d, primaryOf st.request.identityId st.log = some d ∧ Passed st.log st.request.identityId d

def LoginOp.enrols : LoginOp → Bool
  | .startTotpEnrollment .. => true
  | .completeTotpEnrollment .. => true
  | .deleteTotpEnrollment .. => true
  | _ => false

/-- An enrolment call that changes a record has a primary authentication of the
record's identity before it. -/
def Justified (op : LoginOp) : Prop :=
  op.enrols = true → ∀ id mfa, (st.mfas.lookup id = some mfa ∨ (step lib st op).mfas.lookup id = some mfa) →
    (step lib st op).mfas.lookup id ≠ st.mfas.lookup id → ∃ d, Entry.primary mfa.identityId d ∈ st.log

def knownAmr : List String := [authMethodPassword, authMethodCert, authMethodExtJwt, authMethodSecondaryTotp]

/-- What the request remembers of what happened. -/
structure Tracked (st : Login) : Prop where
  keyed : KeyedBy Mfa.id st.mfas
  known : ∀ a ∈ st.request.amr, a ∈ knownAmr
  primary : (∃ a, a ∈ st.request.amr) → st.request.hasPrimaryAuth = true
  latest : (∃ a, a ∈ st.request.amr) → ∃ d, primaryOf st.request.identityId st.log = some d
  noted : ∀ i d, Entry.primary i d ∈ st.log → ∃ a, a ∈ st.request.amr
  totp : ∀ i, Entry.totp i ∈ st.log → authMethodSecondaryTotp ∈ st.request.amr

/-- When the identity that has just authenticated is taken for one that passed
all it has to, it did. After an error the old demands stay. -/
def Warranted (identityId : Id) (d : Demands) (mfaFails signerFails : Bool) : Prop :=
  match readMfa st.mfas identityId mfaFails with
  | .error _ => st.request.hasSecondaryAuth = true → Passed st.log identityId d
  | .ok _ =>
    match d.extJwtSigner with
    | none => d.totp = true → authMethodSecondaryTotp ∈ st.request.amr →
        st.request.secondaryExtJwtSigner = none → Entry.totp identityId ∈ st.log
    | some signer => (signer ∈ st.signers ∧ signerFails = false) ∨
        (d.totp = true ∧ authMethodSecondaryTotp ∉ st.request.amr)

/-- The steps that keep a login sound. -/
def Proper : LoginOp → Prop
  | .authenticate method result mfaFails signerFails => ∀ identityId secondary,
      authorize method result = .successful identityId secondary →
        Warranted st identityId (demands st.mfas identityId secondary) mfaFails signerFails
  | .verifyTotp code now dbFails => ∀ mfa d, (trimSpace code).utf8ByteSize ≤ 13 → trimSpace code ≠ "" →
      readOneByIdentityId st.mfas st.request.identityId = .ok (some mfa) →
        (verify lib st.mfas mfa (trimSpace code) now dbFails).isSome →
          primaryOf st.request.identityId st.log = some d → st.request.secondaryExtJwtSigner = none →
            d.extJwtSigner = none
  | .startTotpEnrollment id _ _ dbFails => st.request.identityId ∈ st.identities →
      (∀ j mfa, st.mfas.lookup j = some mfa → mfa.identityId ≠ st.request.identityId) → id ∉ st.mfas →
        dbFails = false → ∃ a, a ∈ st.request.amr
  | .completeTotpEnrollment code now dbFails => ∀ mfa,
      readOneByIdentityId st.mfas st.request.identityId = .ok (some mfa) → mfa.isVerified = false →
        verifyTOTP lib mfa code now = true → dbFails = false → ∃ a, a ∈ st.request.amr
  | .deleteTotpEnrollment code now updateFails deleteFails => ∀ mfa,
      readOneByIdentityId st.mfas st.request.identityId = .ok (some mfa) → (if mfa.isVerified then
          if code ∈ mfa.recoveryCodes then updateFails = false
          else verifyTOTP lib mfa code now = true ∧ deleteFails = false
        else deleteFails = false) → ∃ a, a ∈ st.request.amr
  | .others .. => True

variable {lib} {st : Login} {a : AuthRequest} {mfas : MfaStore} {identityId id : Id}

theorem extJwtId_unknown : authMethodSecondaryExtJwt ++ ":" ++ id ∉ knownAmr := by
  intro h
  have hl : (authMethodSecondaryExtJwt ++ ":" ++ id).toList.take 4 ∈ knownAmr.map (fun a => a.toList.take 4) :=
    List.mem_map_of_mem h
  have hc : (authMethodSecondaryExtJwt ++ ":" ++ id).toList.take 4 = "ejs:".toList := by
    simp [authMethodSecondaryExtJwt]
  rw [hc] at hl
  exact absurd hl (by decide)

theorem hasSecondaryAuth_iff (hk : ∀ m ∈ a.amr, m ∈ knownAmr) : a.hasSecondaryAuth = true ↔
    (a.secondaryTotpRequired = true → authMethodSecondaryTotp ∈ a.amr) ∧ a.secondaryExtJwtSigner = none := by
  have hno : ∀ id, a.hasAmrExtJwtId id = false := fun id =>
    decide_eq_false (fun h => extJwtId_unknown (hk _ h))
  unfold AuthRequest.hasSecondaryAuth
  cases hs : a.secondaryExtJwtSigner with
  | none => cases a.secondaryTotpRequired <;> simp [hasAmr]
  | some id => simp [hno]

variable {mfa : Option Mfa} {method : String} {d : Demands} {log : List Entry}

theorem read_enrolled (h : readOneByIdentityId mfas identityId = .ok mfa) :
    mfa.any Mfa.isVerified = enrolled mfas identityId := by
  unfold readOneByIdentityId at h
  have hany : enrolled mfas identityId =
      ((rows mfas).filter (fun mfa => mfa.identityId = identityId)).any Mfa.isVerified := by
    simp [enrolled]
  split at h
  · rename_i hf
    cases h
    rw [hany, hf]
    rfl
  · rename_i m hf
    cases h
    rw [hany, hf]
    simp
  · cases h

theorem authorize_method {result : AuthResult} {secondary : AuthPolicySecondary}
    (h : authorize method result = .successful identityId secondary) :
    method ∈ [authMethodPassword, authMethodCert, authMethodExtJwt] := by
  unfold authorize at h
  split at h
  · assumption
  · cases h

theorem hasPrimaryAuth_method (hm : method ∈ [authMethodPassword, authMethodCert, authMethodExtJwt])
    (h : method ∈ a.amr) : a.hasPrimaryAuth = true := by
  simp only [List.mem_cons, List.not_mem_nil, or_false] at hm
  rcases hm with rfl | rfl | rfl <;> simp [hasPrimaryAuth, hasAmr, h]

theorem mem_addAmr {amr m : String} : m ∈ (a.addAmr amr).amr ↔ m = amr ∨ m ∈ a.amr := AList.mem_insert _

theorem hasPrimaryAuth_addAmr (amr : String) (h : a.hasPrimaryAuth = true) : (a.addAmr amr).hasPrimaryAuth = true := by
  simp only [hasPrimaryAuth, hasAmr, Bool.or_eq_true, decide_eq_true_eq] at h ⊢
  rcases h with (h | h) | h
  · exact .inl (.inl (mem_addAmr.mpr (.inr h)))
  · exact .inl (.inr (mem_addAmr.mpr (.inr h)))
  · exact .inr (mem_addAmr.mpr (.inr h))

theorem passed_primary {i : Id} {d' : Demands} :
    Passed (.primary i d :: log) identityId d' ↔ Passed log identityId d' := by
  simp [Passed]

/-- What is to show once a primary method succeeded. -/
theorem sound_primary_iff (ht : Tracked st)
    (hm : method ∈ [authMethodPassword, authMethodCert, authMethodExtJwt]) (hid : a.identityId = identityId)
    (hamr : a.amr = st.request.amr.insert method ()) :
    Sound { st with request := a, log := .primary identityId d :: st.log } ↔
      ((a.secondaryTotpRequired = true → authMethodSecondaryTotp ∈ st.request.amr) →
        a.secondaryExtJwtSigner = none → Passed st.log identityId d) := by
  have hmem : ∀ m, m ∈ a.amr ↔ m = method ∨ m ∈ st.request.amr := fun m => by rw [hamr, AList.mem_insert]
  have hknown : ∀ m ∈ a.amr, m ∈ knownAmr := by
    intro m h
    rcases (hmem m).mp h with rfl | h
    · exact List.mem_append_left [authMethodSecondaryTotp] hm
    · exact ht.known m h
  have hne : authMethodSecondaryTotp ≠ method := by
    rintro rfl
    exact absurd hm (by decide)
  have hfull : a.hasFullAuth = true ↔ (a.secondaryTotpRequired = true → authMethodSecondaryTotp ∈ st.request.amr) ∧
      a.secondaryExtJwtSigner = none := by
    have hp := hasPrimaryAuth_method hm ((hmem method).mpr (.inl rfl))
    rw [hasFullAuth, hp, Bool.true_and, hasSecondaryAuth_iff hknown]
    simp [hmem, hne]
  simp [Sound, hfull, hid, primaryOf, passed_primary]

theorem readMfa_enrolled {dbFails : Bool} (h : readMfa mfas identityId dbFails = .ok mfa) :
    mfa.any Mfa.isVerified = enrolled mfas identityId := by
  unfold readMfa at h
  split at h
  · cases h
  · exact read_enrolled h

section Authenticate

variable {method : String} {result : AuthResult} {secondary : AuthPolicySecondary} (a mfas) (signers : IdSet)
  (mfaFails signerFails : Bool)

theorem authenticate_failed (h : ∀ i s, authorize method result ≠ .successful i s) :
    (a.authenticate mfas signers method result mfaFails signerFails).1 = a := by
  unfold authenticate
  split
  · rfl
  · rfl
  · rename_i hr
    exact absurd hr (h _ _)

theorem authenticate_identity (h : authorize method result = .successful identityId secondary) :
    (a.authenticate mfas signers method result mfaFails signerFails).1.identityId = identityId ∧
      (a.authenticate mfas signers method result mfaFails signerFails).1.amr = a.amr.insert method () := by
  simp only [authenticate, h]
  cases readMfa mfas identityId mfaFails with
  | error e => exact ⟨rfl, rfl⟩
  | ok mfa => by_cases he : secondary.requiredExtJwtSigner.getD "" = "" <;> simp [he, addAmr]

variable {mfas mfaFails}

theorem authenticate_error {e : MfaError} (h : authorize method result = .successful identityId secondary)
    (hr : readMfa mfas identityId mfaFails = .error e) :
    (a.authenticate mfas signers method result mfaFails signerFails).1.secondaryTotpRequired = a.secondaryTotpRequired ∧
      (a.authenticate mfas signers method result mfaFails signerFails).1.secondaryExtJwtSigner =
        a.secondaryExtJwtSigner := by
  simp only [authenticate, h, hr]
  exact ⟨rfl, rfl⟩

/-- A signer that an earlier identity needed is kept if this one needs none. -/
theorem authenticate_ok (h : authorize method result = .successful identityId secondary)
    (hr : readMfa mfas identityId mfaFails = .ok mfa) :
    (a.authenticate mfas signers method result mfaFails signerFails).1.secondaryTotpRequired =
        (demands mfas identityId secondary).totp ∧
      (a.authenticate mfas signers method result mfaFails signerFails).1.secondaryExtJwtSigner =
        match (demands mfas identityId secondary).extJwtSigner with
        | none => a.secondaryExtJwtSigner
        | some signer => readSigner signers signer signerFails := by
  simp only [authenticate, h, hr, demands, readMfa_enrolled hr]
  by_cases he : secondary.requiredExtJwtSigner.getD "" = ""
  · simp [he, addAmr]
  · cases hs : secondary.requiredExtJwtSigner with
    | none => rw [hs] at he; exact absurd rfl he
    | some signer =>
      rw [hs] at he
      simp only [Option.getD_some] at he
      simp [he]

variable {signers signerFails}

theorem readSigner_none : readSigner signers id signerFails = none ↔ ¬ (id ∈ signers ∧ signerFails = false) := by
  simp [readSigner]

theorem sound_authenticate_iff (ht : Tracked st) (h : Sound st) :
    Sound (step lib st (.authenticate method result mfaFails signerFails)) ↔
      Proper lib st (.authenticate method result mfaFails signerFails) := by
  simp only [step, Proper, Login.noted]
  cases hr : authorize method result with
  | error =>
    rw [authenticate_failed _ _ _ _ _ (fun _ _ => by simp [hr])]
    exact iff_of_true h (fun _ _ hs => by cases hs)
  | unsuccessful =>
    rw [authenticate_failed _ _ _ _ _ (fun _ _ => by simp [hr])]
    exact iff_of_true h (fun _ _ hs => by cases hs)
  | successful identityId secondary =>
    have hall : (∀ i s, AuthResult.successful identityId secondary = .successful i s →
        Warranted st i (demands st.mfas i s) mfaFails signerFails) ↔
        Warranted st identityId (demands st.mfas identityId secondary) mfaFails signerFails :=
      ⟨fun h => h _ _ rfl, fun h i s he => by cases he; exact h⟩
    obtain ⟨hid, hamr⟩ := authenticate_identity st.request st.mfas st.signers mfaFails signerFails hr
    rw [hall, sound_primary_iff ht (authorize_method hr) hid hamr, Warranted]
    cases hread : readMfa st.mfas identityId mfaFails with
    | error e =>
      obtain ⟨htotp, hsigner⟩ := authenticate_error st.request st.signers signerFails hr hread
      rw [htotp, hsigner, hasSecondaryAuth_iff ht.known, and_imp]
    | ok mfa =>
      obtain ⟨htotp, hsigner⟩ := authenticate_ok st.request st.signers signerFails hr hread
      rw [htotp, hsigner]
      cases hd : (demands st.mfas identityId secondary).extJwtSigner with
      | none =>
        simp only [Passed, hd, and_true]
        exact ⟨fun h htotp hmem hnone => h (fun _ => hmem) hnone htotp,
          fun h hmem hnone htotp => h htotp (hmem htotp) hnone⟩
      | some signer =>
        simp only [Passed, hd, readSigner_none, reduceCtorEq, and_false, imp_false, not_not]
        constructor
        · intro h
          by_cases htotp : (demands st.mfas identityId secondary).totp = true ∧
              authMethodSecondaryTotp ∉ st.request.amr
          · exact .inr htotp
          · exact .inl (h (fun ht => by_contra (fun hm => htotp ⟨ht, hm⟩)))
        · rintro (hread | ⟨htotp, hm⟩) hall
          · exact hread
          · exact absurd (hall htotp) hm

end Authenticate

theorem mem_primaryOf (h : primaryOf identityId log = some d) : Entry.primary identityId d ∈ log := by
  induction log with
  | nil => cases h
  | cons e log ih =>
    cases e with
    | primary i d' =>
      simp only [primaryOf] at h
      split at h
      · rename_i hi
        cases h
        subst hi
        exact List.mem_cons_self
      · exact List.mem_cons_of_mem _ (ih h)
    | totp i => exact List.mem_cons_of_mem _ (ih h)

section VerifyTotp

variable {code : String} {now : Int} {dbFails : Bool} {a' : AuthRequest} {mfas' : MfaStore}

theorem verifyTotp_some (h : a.verifyTotp lib mfas code now dbFails = some (a', mfas')) :
    a' = a.addAmr authMethodSecondaryTotp ∧ (∃ m, m ∈ a.amr) ∧ (trimSpace code).utf8ByteSize ≤ 13 ∧
      trimSpace code ≠ "" ∧ ∃ mfa mfa', readOneByIdentityId mfas a.identityId = .ok (some mfa) ∧
        verify lib mfas mfa (trimSpace code) now dbFails = some (mfa', mfas') := by
  simp only [verifyTotp] at h
  split at h
  · cases h
  · rename_i hcode
    rw [not_or, not_lt] at hcode
    split at h
    · cases h
    · rename_i hamr
      have hmem : ∃ m, m ∈ a.amr := by
        by_contra hno
        exact hamr (isEmpty_iff.mpr (fun m hm => hno ⟨m, hm⟩))
      split at h
      · rename_i mfa hr
        split at h
        · rename_i mfa' mfas'' hv
          cases h
          exact ⟨rfl, hmem, hcode.1, hcode.2, mfa, mfa', hr, hv⟩
        · cases h
      · cases h

theorem verifyTotp_isSome {mfa : Mfa} (hamr : ∃ m, m ∈ a.amr) (hlen : (trimSpace code).utf8ByteSize ≤ 13)
    (hcode : trimSpace code ≠ "") (hr : readOneByIdentityId mfas a.identityId = .ok (some mfa))
    (hv : (verify lib mfas mfa (trimSpace code) now dbFails).isSome) :
    (a.verifyTotp lib mfas code now dbFails).isSome := by
  obtain ⟨⟨mfa', mfas'⟩, hv⟩ := Option.isSome_iff_exists.mp hv
  have hne : ¬ isEmpty a.amr = true := by
    obtain ⟨m, hm⟩ := hamr
    exact fun he => isEmpty_iff.mp he m hm
  simp [verifyTotp, hcode, not_lt.mpr hlen, hne, hr, hv]

theorem sound_verifyTotp_iff (ht : Tracked st) (h : Sound st) :
    Sound (step lib st (.verifyTotp code now dbFails)) ↔ Proper lib st (.verifyTotp code now dbFails) := by
  simp only [step]
  cases hv : st.request.verifyTotp lib st.mfas code now dbFails with
  | none =>
    refine iff_of_true h (fun mfa d hlen hcode hr hsome hd _ => ?_)
    have hamr := ht.noted _ _ (mem_primaryOf hd)
    have := verifyTotp_isSome hamr hlen hcode hr hsome
    rw [hv] at this
    cases this
  | some r =>
    obtain ⟨a', mfas'⟩ := r
    obtain ⟨rfl, hamr, hlen, hcode, mfa, mfa', hr, hverify⟩ := verifyTotp_some hv
    obtain ⟨d, hd⟩ := ht.latest hamr
    have hknown : ∀ m ∈ (st.request.addAmr authMethodSecondaryTotp).amr, m ∈ knownAmr := by
      intro m hm
      rcases mem_addAmr.mp hm with rfl | hm
      · decide
      · exact ht.known m hm
    have hfull : (st.request.addAmr authMethodSecondaryTotp).hasFullAuth = true ↔
        st.request.secondaryExtJwtSigner = none := by
      have hp := hasPrimaryAuth_addAmr authMethodSecondaryTotp (ht.primary hamr)
      rw [hasFullAuth, hp, Bool.true_and, hasSecondaryAuth_iff hknown]
      exact and_iff_right (fun _ => mem_addAmr.mpr (.inl rfl))
    have hpassed : Passed (.totp st.request.identityId :: st.log) st.request.identityId d ↔
        d.extJwtSigner = none := and_iff_right (fun _ => List.mem_cons_self)
    simp only [Sound, hfull]
    constructor
    · intro hs m d' _ _ _ _ hd' hnone
      obtain ⟨d₁, hd₁, hp⟩ := hs hnone
      cases hd.symm.trans hd'
      cases hd.symm.trans hd₁
      exact hpassed.mp hp
    · intro hp hnone
      exact ⟨d, hd, hpassed.mpr (hp mfa d hlen hcode hr (by simp [hverify]) hd hnone)⟩

end VerifyTotp

/-- All records that differ are of one identity. -/
def OnlyOf (identityId : Id) (mfas mfas' : MfaStore) : Prop :=
  ∀ id mfa, (mfas.lookup id = some mfa ∨ mfas'.lookup id = some mfa) → mfas'.lookup id ≠ mfas.lookup id →
    mfa.identityId = identityId

def Differ (mfas mfas' : MfaStore) : Prop := ∃ id, mfas'.lookup id ≠ mfas.lookup id

section Enrolment

variable {mfas' mfas'' : MfaStore} {mfa : Mfa} {code : String} {now : Int}
  {dbFails updateFails deleteFails : Bool} {id : Id} {op : LoginOp} {codes : List String}

theorem OnlyOf.refl : OnlyOf identityId mfas mfas := fun _ _ _ hne => absurd rfl hne

theorem OnlyOf.trans (h : OnlyOf identityId mfas mfas') (h' : OnlyOf identityId mfas' mfas'') :
    OnlyOf identityId mfas mfas'' := by
  intro id m hm hne
  by_cases heq : mfas'.lookup id = mfas.lookup id
  · have hne' : mfas''.lookup id ≠ mfas'.lookup id := by rwa [heq]
    exact h' id m (hm.imp (heq.trans ·) (fun hl => hl)) hne'
  · rcases hm with hm | hm
    · exact h id m (.inl hm) heq
    · by_cases heq' : mfas''.lookup id = mfas'.lookup id
      · exact h id m (.inr (heq'.symm.trans hm)) heq
      · exact h' id m (.inr hm) heq'

theorem OnlyOf.insert (hold : ∀ m, mfas.lookup id = some m → m.identityId = identityId)
    (hnew : mfa.identityId = identityId) : OnlyOf identityId mfas (mfas.insert id mfa) := by
  intro j m hm hne
  rw [lookup_insert_eq] at hm hne
  split at hm
  · rename_i hj
    subst hj
    rcases hm with hm | hm
    · exact hold m hm
    · cases hm; exact hnew
  · rename_i hj
    exact absurd (if_neg hj) hne

theorem OnlyOf.erase (hold : ∀ m, mfas.lookup id = some m → m.identityId = identityId) :
    OnlyOf identityId mfas (mfas.erase id) := by
  intro j m hm hne
  rw [lookup_erase_eq] at hm hne
  split at hm
  · rename_i hj
    subst hj
    exact hold m (hm.resolve_right (by simp))
  · rename_i hj
    exact absurd (if_neg hj) hne

theorem read_stored (hk : KeyedBy Mfa.id mfas) (h : readOneByIdentityId mfas identityId = .ok (some mfa)) :
    mfas.lookup mfa.id = some mfa ∧ mfa.identityId = identityId := by
  obtain ⟨hi, id, hl⟩ := readOneByIdentityId_some h
  rw [hk id mfa hl]
  exact ⟨hl, hi⟩

theorem justified_iff (ht : Tracked st) (hop : op.enrols = true)
    (honly : OnlyOf st.request.identityId st.mfas (step lib st op).mfas) :
    Justified lib st op ↔ (Differ st.mfas (step lib st op).mfas → ∃ m, m ∈ st.request.amr) := by
  constructor
  · rintro h ⟨id, hne⟩
    have hrec : ∃ m, st.mfas.lookup id = some m ∨ (step lib st op).mfas.lookup id = some m := by
      cases hold : st.mfas.lookup id with
      | some m => exact ⟨m, .inl rfl⟩
      | none =>
        obtain ⟨m, hm⟩ := Option.ne_none_iff_exists'.mp (hold ▸ hne)
        exact ⟨m, .inr hm⟩
    obtain ⟨m, hm⟩ := hrec
    obtain ⟨d, hd⟩ := h hop id m hm hne
    exact ht.noted _ _ hd
  · intro h _ id m hm hne
    obtain ⟨d, hd⟩ := ht.latest (h ⟨id, hne⟩)
    rw [honly id m hm hne]
    exact ⟨d, mem_primaryOf hd⟩

theorem justified_of_same (h : (step lib st op).mfas = st.mfas) : Justified lib st op :=
  fun _ _ _ _ hne => absurd (by rw [h]) hne

theorem justified_of_differ (ht : Tracked st) (hop : op.enrols = true)
    (honly : OnlyOf st.request.identityId st.mfas (step lib st op).mfas)
    (hdiff : Differ st.mfas (step lib st op).mfas) : Justified lib st op ↔ ∃ m, m ∈ st.request.amr := by
  rw [justified_iff ht hop honly]
  exact ⟨fun h => h hdiff, fun h _ => h⟩

theorem justified_start_iff {secret : String} (ht : Tracked st) :
    Justified lib st (.startTotpEnrollment id secret codes dbFails) ↔
      Proper lib st (.startTotpEnrollment id secret codes dbFails) := by
  by_cases hp : st.request.identityId ∈ st.identities ∧
      (∀ j mfa, st.mfas.lookup j = some mfa → mfa.identityId ≠ st.request.identityId) ∧ id ∉ st.mfas ∧ dbFails = false
  · obtain ⟨hid, hnone, hnew, rfl⟩ := hp
    have hs : (step lib st (.startTotpEnrollment id secret codes false)).mfas = st.mfas.insert id
        { id := id, identityId := st.request.identityId, secret := secret, recoveryCodes := lib.setStringList codes } := by
      simp only [step, startTotpEnrollment, if_pos hid]
      rw [applyCreate_new hnone hnew]
    have hlook : st.mfas.lookup id = none := AList.lookup_eq_none.mpr hnew
    rw [justified_of_differ ht rfl]
    · exact ⟨fun h _ _ _ _ => h, fun h => h hid hnone hnew rfl⟩
    · rw [hs]
      exact .insert (fun m hm => by rw [hlook] at hm; cases hm) rfl
    · exact ⟨id, by rw [hs, hlook]; simp⟩
  · refine iff_of_true (justified_of_same ?_) (fun h₁ h₂ h₃ h₄ => absurd ⟨h₁, h₂, h₃, h₄⟩ hp)
    simp only [step]
    split
    · rename_i mfas hc
      unfold startTotpEnrollment at hc
      split at hc
      · obtain ⟨h₂, h₃, h₄, -⟩ := applyCreate_ok hc
        exact absurd ⟨by assumption, h₂, h₃, h₄⟩ hp
      · cases hc
    · rfl

theorem completeTotpEnrollment_ok (h : completeTotpEnrollment lib a mfas code now dbFails = .ok mfas') :
    ∃ mfa, readOneByIdentityId mfas a.identityId = .ok (some mfa) ∧
      finishTotpEnrollment lib mfas mfa code now dbFails = .ok mfas' := by
  unfold completeTotpEnrollment at h
  split at h
  · cases h
  · cases h
  · exact ⟨_, by assumption, h⟩

theorem justified_complete_iff (ht : Tracked st) : Justified lib st (.completeTotpEnrollment code now dbFails) ↔
    Proper lib st (.completeTotpEnrollment code now dbFails) := by
  by_cases hp : ∃ mfa, readOneByIdentityId st.mfas st.request.identityId = .ok (some mfa) ∧ mfa.isVerified = false ∧
      verifyTOTP lib mfa code now = true ∧ dbFails = false
  · obtain ⟨mfa, hr, hv, htotp, rfl⟩ := hp
    obtain ⟨hl, hi⟩ := read_stored ht.keyed hr
    have hu : update lib st.mfas { mfa with isVerified := true } false = .ok _ := update_stored hl
    have hs : (step lib st (.completeTotpEnrollment code now false)).mfas = st.mfas.insert mfa.id
        { mfa with isVerified := true, recoveryCodes := lib.setStringList mfa.recoveryCodes } := by
      simp only [step, completeTotpEnrollment, hr, finishTotpEnrollment, hv, htotp, hu]
      rfl
    rw [justified_of_differ ht rfl]
    · exact ⟨fun h _ _ _ _ _ => h, fun h => h mfa hr hv htotp rfl⟩
    · rw [hs]
      exact .insert (fun m hm => by rw [hl] at hm; cases hm; exact hi) hi
    · refine ⟨mfa.id, fun he => ?_⟩
      rw [hs, AList.lookup_insert, hl] at he
      have := congrArg Mfa.isVerified (Option.some.inj he)
      rw [hv] at this
      cases this
  · refine iff_of_true (justified_of_same ?_) (fun m h₁ h₂ h₃ h₄ => absurd ⟨m, h₁, h₂, h₃, h₄⟩ hp)
    simp only [step]
    split
    · rename_i mfas hc
      obtain ⟨mfa, hr, hf⟩ := completeTotpEnrollment_ok hc
      obtain ⟨hv, htotp, hu⟩ := finishTotpEnrollment_ok hf
      exact absurd ⟨mfa, hr, hv, htotp, (update_ok hu).1⟩ hp
    · rfl

theorem delete_store (hid : id ∈ mfas) : (match delete mfas id deleteFails with
    | .error e => (mfas, some e)
    | .ok mfas => (mfas, none)).1 =
    if deleteFails then mfas else mfas.erase id := by
  cases deleteFails with
  | true => simp [delete, hid]
  | false => simp [delete, hid]

theorem not_differ_self : ¬ Differ mfas mfas := fun ⟨_, hne⟩ => hne rfl

theorem erase_spec (deleteFails : Bool) (hl : mfas.lookup mfa.id = some mfa) :
    OnlyOf mfa.identityId mfas (if deleteFails then mfas else mfas.erase mfa.id) ∧
      (Differ mfas (if deleteFails then mfas else mfas.erase mfa.id) ↔ deleteFails = false) := by
  cases deleteFails with
  | true => exact ⟨.refl, iff_of_false not_differ_self (by decide)⟩
  | false =>
    refine ⟨.erase (fun m hm => by rw [hl] at hm; cases hm; rfl), iff_of_true ⟨mfa.id, ?_⟩ rfl⟩
    simp [hl]

theorem setStringList_erase_ne (hc : code ∈ codes) : lib.setStringList (codes.erase code) ≠ codes := by
  intro h
  have hsubset : codes ⊆ codes.erase code := fun c hmem => lib.mem_setStringList.mp (h.symm ▸ hmem)
  have hnodup : codes.Nodup := h ▸ lib.nodup_setStringList
  exact hnodup.not_mem_erase (hsubset hc)

theorem deleteTotpEnrollment_spec (lib : Libraries) (hk : KeyedBy Mfa.id mfas)
    (hr : readOneByIdentityId mfas a.identityId = .ok (some mfa)) :
    OnlyOf a.identityId mfas (deleteTotpEnrollment lib a mfas code now updateFails deleteFails).1 ∧
      (Differ mfas (deleteTotpEnrollment lib a mfas code now updateFails deleteFails).1 ↔ if mfa.isVerified then
          if code ∈ mfa.recoveryCodes then updateFails = false
          else verifyTOTP lib mfa code now = true ∧ deleteFails = false else deleteFails = false) := by
  obtain ⟨hl, hi⟩ := read_stored hk hr
  have herase := erase_spec deleteFails hl
  rw [hi] at herase
  simp only [deleteTotpEnrollment, hr]
  cases hv : mfa.isVerified with
  | false =>
    simp only [Bool.false_eq_true, if_false, delete_store (mem_of_lookup hl)]
    exact herase
  | true =>
    simp only [if_true]
    by_cases hc : code ∈ mfa.recoveryCodes
    · cases updateFails with
      | true =>
        have hn : verify lib mfas mfa code now true = none := by simp [verify, hc, update, hl]
        simp only [hn, if_pos hc]
        exact ⟨.refl, iff_of_false not_differ_self (by decide)⟩
      | false =>
        have hid : mfa.id ∈ mfas.insert mfa.id { mfa with
            isVerified := mfa.isVerified
            recoveryCodes := lib.setStringList (mfa.recoveryCodes.erase code) } := (AList.mem_insert _).mpr (.inl rfl)
        have hins : OnlyOf a.identityId mfas (mfas.insert mfa.id { mfa with
            isVerified := mfa.isVerified
            recoveryCodes := lib.setStringList (mfa.recoveryCodes.erase code) }) :=
          .insert (fun m hm => by rw [hl] at hm; cases hm; exact hi) hi
        simp only [verify_recovery hc hl, delete_store hid, if_pos hc]
        cases deleteFails with
        | true =>
          refine ⟨hins, iff_of_true ⟨mfa.id, fun he => ?_⟩ trivial⟩
          simp only [if_true, AList.lookup_insert, hl, Option.some.injEq] at he
          exact setStringList_erase_ne hc (congrArg Mfa.recoveryCodes he)
        | false =>
          refine ⟨hins.trans (.erase (fun m hm => ?_)), iff_of_true ⟨mfa.id, ?_⟩ trivial⟩
          · rw [AList.lookup_insert] at hm
            cases hm
            exact hi
          · simp [hl]
    · cases ht : verifyTOTP lib mfa code now with
      | true =>
        have hsome : verify lib mfas mfa code now updateFails = some (mfa, mfas) := by simp [verify, hc, ht]
        simp only [hsome, if_neg hc, delete_store (mem_of_lookup hl), true_and]
        exact herase
      | false =>
        have hn : verify lib mfas mfa code now updateFails = none := by simp [verify, hc, ht]
        simp only [hn, if_neg hc]
        exact ⟨.refl, iff_of_false not_differ_self (by simp)⟩

theorem justified_delete_iff (ht : Tracked st) :
    Justified lib st (.deleteTotpEnrollment code now updateFails deleteFails) ↔
      Proper lib st (.deleteTotpEnrollment code now updateFails deleteFails) := by
  simp only [Proper]
  by_cases hp : ∃ mfa, readOneByIdentityId st.mfas st.request.identityId = .ok (some mfa)
  · obtain ⟨mfa, hr⟩ := hp
    obtain ⟨honly, hdiff⟩ := deleteTotpEnrollment_spec lib ht.keyed hr
    have hop : (LoginOp.deleteTotpEnrollment code now updateFails deleteFails).enrols = true := rfl
    rw [justified_iff ht hop honly]
    simp [step, hdiff, hr]
  · refine iff_of_true (justified_of_same ?_) (fun m hm => absurd ⟨m, hm⟩ hp)
    simp only [step, deleteTotpEnrollment]
    split
    · rfl
    · rfl
    · exact absurd ⟨_, by assumption⟩ hp

end Enrolment

section Runs

variable {mfas' : MfaStore} {mfa mfa' : Mfa} {code : String} {now : Int} {dbFails : Bool} {identities signers : IdSet}

theorem keyed_update (hk : KeyedBy Mfa.id mfas) (h : update lib mfas mfa dbFails = .ok mfas') : KeyedBy Mfa.id mfas' := by
  obtain ⟨-, stored, hl, rfl⟩ := update_ok h
  rw [← hk _ _ hl]
  exact hk.insert { stored with isVerified := mfa.isVerified, recoveryCodes := lib.setStringList mfa.recoveryCodes }

theorem keyed_verify (hk : KeyedBy Mfa.id mfas) (h : verify lib mfas mfa code now dbFails = some (mfa', mfas')) :
    KeyedBy Mfa.id mfas' := by
  rcases verify_cases h with ⟨-, -, hu⟩ | ⟨-, -, -, rfl⟩
  · exact keyed_update hk hu
  · exact hk

theorem keyed_delete (hk : KeyedBy Mfa.id mfas) : KeyedBy Mfa.id (match delete mfas id dbFails with
    | .error e => (mfas, some e)
    | .ok mfas => (mfas, none)).1 := by
  cases hd : delete mfas id dbFails with
  | error e => exact hk
  | ok m =>
    rw [delete_ok hd]
    exact hk.erase id

theorem Tracked.set (ht : Tracked st) (hk : KeyedBy Mfa.id mfas) :
    Tracked { st with mfas := mfas, identities := identities, signers := signers } :=
  { ht with keyed := hk }

theorem tracked_primary (ht : Tracked st) (hm : method ∈ [authMethodPassword, authMethodCert, authMethodExtJwt])
    (hid : a.identityId = identityId) (hamr : a.amr = st.request.amr.insert method ()) :
    Tracked { st with request := a, log := .primary identityId d :: st.log } := by
  have hmem : ∀ m, m ∈ a.amr ↔ m = method ∨ m ∈ st.request.amr := fun m => by rw [hamr, AList.mem_insert]
  have hmethod : method ∈ a.amr := (hmem method).mpr (.inl rfl)
  refine ⟨ht.keyed, fun m h => ?_, fun _ => hasPrimaryAuth_method hm hmethod, fun _ => ⟨d, ?_⟩,
    fun _ _ _ => ⟨method, hmethod⟩, fun i hi => (hmem _).mpr (.inr (ht.totp i ?_))⟩
  · rcases (hmem m).mp h with rfl | h
    · exact List.mem_append_left [authMethodSecondaryTotp] hm
    · exact ht.known m h
  · simp [primaryOf, hid]
  · rcases List.mem_cons.mp hi with hi | hi
    · cases hi
    · exact hi

theorem tracked_step (ht : Tracked st) {op : LoginOp} : Tracked (step lib st op) := by
  cases op with
  | authenticate method result mfaFails signerFails =>
    simp only [step, Login.noted]
    cases hr : authorize method result with
    | error =>
      rw [authenticate_failed _ _ _ _ _ (fun _ _ => by simp [hr])]
      exact ht
    | unsuccessful =>
      rw [authenticate_failed _ _ _ _ _ (fun _ _ => by simp [hr])]
      exact ht
    | successful identityId secondary =>
      obtain ⟨hid, hamr⟩ := authenticate_identity st.request st.mfas st.signers mfaFails signerFails hr
      exact tracked_primary ht (authorize_method hr) hid hamr
  | verifyTotp code now dbFails =>
    simp only [step]
    split
    · rename_i a' mfas' hv
      obtain ⟨rfl, hamr, -, -, mfa, mfa', -, hverify⟩ := verifyTotp_some hv
      refine ⟨keyed_verify ht.keyed hverify, fun m hm => ?_, fun _ => hasPrimaryAuth_addAmr _ (ht.primary hamr),
        fun _ => ht.latest hamr, fun i d hd => ?_, fun _ _ => mem_addAmr.mpr (.inl rfl)⟩
      · rcases mem_addAmr.mp hm with rfl | hm
        · decide
        · exact ht.known m hm
      · exact ⟨_, mem_addAmr.mpr (.inl rfl)⟩
    · exact ht
  | startTotpEnrollment id secret codes dbFails =>
    simp only [step, startTotpEnrollment]
    split
    · rename_i mfas' hc
      split at hc
      · rw [(applyCreate_ok hc).2.2.2]
        exact ht.set (ht.keyed.insert
          { id := id, identityId := _, secret := secret, recoveryCodes := lib.setStringList codes })
      · cases hc
    · exact ht
  | completeTotpEnrollment code now dbFails =>
    simp only [step]
    split
    · rename_i mfas' hc
      obtain ⟨mfa, -, hf⟩ := completeTotpEnrollment_ok hc
      exact ht.set (keyed_update ht.keyed (finishTotpEnrollment_ok hf).2.2)
    · exact ht
  | deleteTotpEnrollment code now updateFails deleteFails =>
    refine ht.set ?_
    unfold deleteTotpEnrollment
    split
    · exact ht.keyed
    · exact ht.keyed
    · split
      · exact ht.keyed
      · rename_i mfa' mfas' hv
        split at hv
        · exact keyed_delete (keyed_verify ht.keyed hv)
        · cases hv
          exact keyed_delete ht.keyed
  | others mfas keyed identities signers => exact ht.set keyed

theorem step_proper_iff (ht : Tracked st) (h : Sound st) {op : LoginOp} :
    Justified lib st op ∧ Sound (step lib st op) ↔ Proper lib st op := by
  cases op with
  | authenticate method result mfaFails signerFails =>
    rw [← sound_authenticate_iff ht h]
    exact and_iff_right (fun he => by cases he)
  | verifyTotp code now dbFails =>
    rw [← sound_verifyTotp_iff ht h]
    exact and_iff_right (fun he => by cases he)
  | startTotpEnrollment id secret codes dbFails =>
    rw [← justified_start_iff ht]
    refine and_iff_left ?_
    simp only [step]
    split <;> exact h
  | completeTotpEnrollment code now dbFails =>
    rw [← justified_complete_iff ht]
    refine and_iff_left ?_
    simp only [step]
    split <;> exact h
  | deleteTotpEnrollment code now updateFails deleteFails =>
    rw [← justified_delete_iff ht]
    exact and_iff_left h
  | others mfas keyed identities signers => exact iff_of_true ⟨fun he => (by cases he), h⟩ trivial

/-- A new request, with the identity its creator was told. -/
def start (identityId : Id) (mfas : MfaStore) (identities signers : IdSet) : Login where
  request := { identityId := identityId }
  mfas := mfas
  identities := identities
  signers := signers

theorem tracked_start (hk : KeyedBy Mfa.id mfas) : Tracked (start identityId mfas identities signers) where
  keyed := hk
  known := fun a h => absurd h (AList.notMem_empty a)
  primary := fun ⟨a, h⟩ => absurd h (AList.notMem_empty a)
  latest := fun ⟨a, h⟩ => absurd h (AList.notMem_empty a)
  noted := fun _ _ h => by cases h
  totp := fun _ h => by cases h

/-- Along a login every full authentication is one of the identity that passed
all its factors and enrolments are only changed by an authenticated identity,
exactly if no step takes over the factors of another or acts before any. -/
theorem full_auth_of_one_identity_iff (hk : KeyedBy Mfa.id mfas) (ops : List LoginOp) :
    (∀ n, Sound ((ops.take n).foldl (step lib) (start identityId mfas identities signers))) ∧
        Meets (Justified lib) (step lib) (start identityId mfas identities signers) ops ↔
      Meets (Proper lib) (step lib) (start identityId mfas identities signers) ops :=
  forall_states_and_meets_iff Tracked Sound (fun _ op ht => tracked_step ht)
    (fun _ op ht h => step_proper_iff ht h) (tracked_start hk) (fun h => by cases h) ops

def bothEnrolled : MfaStore :=
  ((∅ : MfaStore).insert "m1"
    { id := "m1", identityId := "i", isVerified := true, secret := "s", recoveryCodes := ["A"] }).insert
    "m2" { id := "m2", identityId := "j", isVerified := true, secret := "t", recoveryCodes := ["B"] }

theorem keyed_bothEnrolled : KeyedBy Mfa.id bothEnrolled := by
  intro id mfa h
  simp only [bothEnrolled, lookup_insert_eq] at h
  split at h
  · rename_i hid
    cases h
    exact hid.symm
  · split at h
    · rename_i hid
      cases h
      exact hid.symm
    · cases h

def loginAs (identityId : Id) : LoginOp := .authenticate "password" (.successful identityId {}) false false

theorem full_auth_with_own_code : KeyedBy Mfa.id bothEnrolled ∧
    (∀ n, Sound ((([loginAs "i", .verifyTotp "A" 0 false] : List LoginOp).take n).foldl (step noTotp)
      (start "" bothEnrolled ∅ ∅))) ∧
    Meets (Justified noTotp) (step noTotp) (start "" bothEnrolled ∅ ∅) [loginAs "i", .verifyTotp "A" 0 false] := by
  refine ⟨keyed_bothEnrolled, (full_auth_of_one_identity_iff keyed_bothEnrolled _).mpr ⟨?_, ?_, trivial⟩⟩
  · intro identityId secondary h
    have he : AuthResult.successful "i" {} = .successful identityId secondary := h
    cases he
    intro _ hm
    exact absurd hm (AList.notMem_empty _)
  · intro mfa d _ _ _ _ hd _
    cases hd
    rfl

/-- The code of one identity is taken for that of the next, and an enrolment
starts for an identity that was only named. -/
theorem code_of_another_identity_counts :
    let login := ([loginAs "i", .verifyTotp "A" 0 false, loginAs "j"] : List LoginOp).foldl (step noTotp)
      (start "" bothEnrolled ∅ ∅)
    let named := start "k" bothEnrolled ((∅ : IdSet).insert "k" ()) ∅
    let enrolment := LoginOp.startTotpEnrollment "m3" "u" ["C"] false
    (login.request.hasFullAuth = true ∧ login.request.identityId = "j" ∧
        login.log = [.primary "j" ⟨true, none⟩, .totp "i", .primary "i" ⟨true, none⟩] ∧ ¬ Sound login) ∧
      named.log = [] ∧ (step noTotp named enrolment).mfas.lookup "m3" =
          some { id := "m3", identityId := "k", secret := "u", recoveryCodes := ["C"] } ∧
        ¬ Justified noTotp named enrolment := by
  refine ⟨⟨by decide, by decide, by decide, fun h => ?_⟩, rfl, by decide, fun h => ?_⟩
  · obtain ⟨d, hd, hp⟩ := h (by decide)
    cases hd
    exact absurd (hp.1 rfl) (by decide)
  · obtain ⟨d, hd⟩ := h rfl "m3" { id := "m3", identityId := "k", secret := "u", recoveryCodes := ["C"] }
      (.inr (by decide)) (by decide)
    cases hd

end Runs

end Zt.AuthRequests
