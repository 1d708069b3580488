import Mathlib.Data.List.Dedup
import Mathlib.Data.String.Basic
import Zt.EdgeCtrl
import Zt.Mirroring

namespace Zt.MfaRecords

open Tables EdgeCtrl Mirroring

structure Mfa where
  id : Id
  identityId : Id
  isVerified : Bool := false
  secret : String
  recoveryCodes : List String
  deriving DecidableEq

abbrev MfaStore := IdTable Mfa

inductive MfaError
  | notFound
  | tooMany
  | mfaExists
  | invalidMfaToken
  | database

/-- One library has the one-time password of a secret and a time. The other keeps
a list of strings as the keys of a bucket. -/
structure Libraries where
  authenticate : String → String → Int → Option Bool
  setStringList : List String → List String
  mem_setStringList {code : String} {codes : List String} : code ∈ setStringList codes ↔ code ∈ codes
  nodup_setStringList {codes : List String} : (setStringList codes).Nodup

def readOneByIdentityId (mfas : MfaStore) (identityId : Id) : Except MfaError (Option Mfa) :=
  match (rows mfas).filter (fun mfa => mfa.identityId = identityId) with
  | [] => .ok none
  | [mfa] => .ok (some mfa)
  | _ => .error .tooMany

variable (lib : Libraries) (mfas : MfaStore)

/-- Writes of the given copy the two fields that may be updated. -/
def update (entity : Mfa) (dbFails : Bool) : Except MfaError MfaStore :=
  match mfas.lookup entity.id with
  | none => .error .notFound
  | some stored =>
    if dbFails then .error .database
    else .ok (mfas.insert entity.id
      { stored with isVerified := entity.isVerified, recoveryCodes := lib.setStringList entity.recoveryCodes })

def applyCreate (entity : Mfa) (dbFails : Bool) : Except MfaError MfaStore :=
  if (rows mfas).any (fun mfa => mfa.identityId = entity.identityId) then .error .mfaExists
  else if entity.id ∈ mfas ∨ dbFails then .error .database
  else .ok (mfas.insert entity.id { entity with recoveryCodes := lib.setStringList entity.recoveryCodes })

def delete (id : Id) (dbFails : Bool) : Except MfaError MfaStore :=
  if id ∉ mfas then .error .notFound
  else if dbFails then .error .database
  else .ok (mfas.erase id)

def deleteAllForIdentity (identityId : Id) : MfaStore :=
  removeAll mfas (((rows mfas).filter (fun mfa => mfa.identityId = identityId)).map Mfa.id)

def verifyTOTP (mfa : Mfa) (code : String) (now : Int) : Bool :=
  lib.authenticate mfa.secret code now = some true

/-- The answer is the copy and the store after an accepted code. -/
def verify (mfa : Mfa) (code : String) (now : Int) (dbFails : Bool) : Option (Mfa × MfaStore) :=
  if code ∈ mfa.recoveryCodes then
    let mfa := { mfa with recoveryCodes := mfa.recoveryCodes.erase code }
    match update lib mfas mfa dbFails with
    | .error _ => none
    | .ok mfas => some (mfa, mfas)
  else if verifyTOTP lib mfa code now then some (mfa, mfas) else none

/-- No one-time password is accepted. -/
def noTotp : Libraries where
  authenticate _ _ _ := none
  setStringList codes := codes.dedup.insertionSort (· ≤ ·)
  mem_setStringList := by simp
  nodup_setStringList {codes} := (List.perm_insertionSort (· ≤ ·) codes.dedup).nodup_iff.mpr codes.nodup_dedup

def recreateRecoveryCodes (mfa : Mfa) (newCodes : List String) (dbFails : Bool) : Except MfaError MfaStore :=
  update lib mfas { mfa with recoveryCodes := newCodes } dbFails

/-- What follows once the record was read. -/
def finishTotpEnrollment (mfa : Mfa) (code : String) (now : Int) (dbFails : Bool) : Except MfaError MfaStore :=
  if mfa.isVerified then .error .notFound
  else if verifyTOTP lib mfa code now then update lib mfas { mfa with isVerified := true } dbFails
  else .error .invalidMfaToken

variable {lib} {mfas mfas' : MfaStore} {mfa mfa' entity : Mfa} {id : Id} {code : String} {now : Int}
  {dbFails : Bool}

theorem update_stored {stored : Mfa} (hl : mfas.lookup entity.id = some stored) :
    update lib mfas entity false = .ok (mfas.insert entity.id
      { stored with isVerified := entity.isVerified, recoveryCodes := lib.setStringList entity.recoveryCodes }) := by
  simp [update, hl]

theorem update_ok (h : update lib mfas entity dbFails = .ok mfas') :
    dbFails = false ∧ ∃ stored, mfas.lookup entity.id = some stored ∧ mfas' = mfas.insert entity.id
      { stored with isVerified := entity.isVerified, recoveryCodes := lib.setStringList entity.recoveryCodes } := by
  unfold update at h
  cases hl : mfas.lookup entity.id with
  | none => rw [hl] at h; cases h
  | some stored =>
    cases dbFails with
    | true => rw [hl] at h; cases h
    | false => rw [hl] at h; cases h; exact ⟨rfl, stored, rfl, rfl⟩

theorem applyCreate_ok (h : applyCreate lib mfas entity dbFails = .ok mfas') :
    (∀ j mfa, mfas.lookup j = some mfa → mfa.identityId ≠ entity.identityId) ∧ entity.id ∉ mfas ∧ dbFails = false ∧
      mfas' = mfas.insert entity.id { entity with recoveryCodes := lib.setStringList entity.recoveryCodes } := by
  unfold applyCreate at h
  split at h
  · cases h
  · rename_i hany
    split at h
    · cases h
    · rename_i hid
      cases h
      obtain ⟨hnew, hdb⟩ := not_or.mp hid
      refine ⟨fun j mfa hl he => hany ?_, hnew, by simpa using hdb, rfl⟩
      exact List.any_eq_true.mpr ⟨mfa, mem_rows.mpr ⟨j, hl⟩, by simpa using he⟩

theorem applyCreate_new (hnone : ∀ j mfa, mfas.lookup j = some mfa → mfa.identityId ≠ entity.identityId)
    (hid : entity.id ∉ mfas) : applyCreate lib mfas entity false =
      .ok (mfas.insert entity.id { entity with recoveryCodes := lib.setStringList entity.recoveryCodes }) := by
  have hany : ¬ (rows mfas).any (fun mfa => mfa.identityId = entity.identityId) = true := by
    intro h
    obtain ⟨mfa, hm, he⟩ := List.any_eq_true.mp h
    obtain ⟨j, hl⟩ := mem_rows.mp hm
    exact hnone j mfa hl (by simpa using he)
  rw [applyCreate, if_neg hany, if_neg (by simp [hid])]

theorem delete_ok (h : delete mfas id dbFails = .ok mfas') : mfas' = mfas.erase id := by
  unfold delete at h
  split at h
  · cases h
  · split at h
    · cases h
    · cases h; rfl

theorem finishTotpEnrollment_ok (h : finishTotpEnrollment lib mfas mfa code now dbFails = .ok mfas') :
    mfa.isVerified = false ∧ verifyTOTP lib mfa code now = true ∧
      update lib mfas { mfa with isVerified := true } dbFails = .ok mfas' := by
  unfold finishTotpEnrollment at h
  split at h
  · cases h
  · rename_i hv
    split at h
    · exact ⟨by simpa using hv, by assumption, h⟩
    · cases h

theorem verify_recovery {stored : Mfa} (hc : code ∈ mfa.recoveryCodes) (hl : mfas.lookup mfa.id = some stored) :
    verify lib mfas mfa code now false =
      some ({ mfa with recoveryCodes := mfa.recoveryCodes.erase code }, mfas.insert mfa.id
        { stored with
          isVerified := mfa.isVerified
          recoveryCodes := lib.setStringList (mfa.recoveryCodes.erase code) }) := by
  have hu : update lib mfas { mfa with recoveryCodes := mfa.recoveryCodes.erase code } false = .ok _ := update_stored hl
  simp [verify, if_pos hc, hu]

/-- A code is accepted as a recovery code of the copy, which then is stored
without it, or as a one-time password, which writes nothing. -/
theorem verify_cases (h : verify lib mfas mfa code now dbFails = some (mfa', mfas')) :
    (code ∈ mfa.recoveryCodes ∧ mfa' = { mfa with recoveryCodes := mfa.recoveryCodes.erase code } ∧
      update lib mfas mfa' dbFails = .ok mfas') ∨
    (code ∉ mfa.recoveryCodes ∧ verifyTOTP lib mfa code now = true ∧ mfa' = mfa ∧ mfas' = mfas) := by
  unfold verify at h
  split at h
  · rename_i hc
    cases hu : update lib mfas { mfa with recoveryCodes := mfa.recoveryCodes.erase code } dbFails with
    | error e => simp only [hu] at h; cases h
    | ok m => simp only [hu] at h; cases h; exact .inl ⟨hc, rfl, hu⟩
  · rename_i hc
    split at h
    · cases h; exact .inr ⟨hc, by assumption, rfl, rfl⟩
    · cases h

theorem readOneByIdentityId_some {identityId : Id} (h : readOneByIdentityId mfas identityId = .ok (some mfa)) :
    mfa.identityId = identityId ∧ ∃ id, mfas.lookup id = some mfa := by
  unfold readOneByIdentityId at h
  split at h
  · cases h
  · rename_i m hrows
    cases h
    have hm : mfa ∈ (rows mfas).filter (fun mfa => mfa.identityId = identityId) := by simp [hrows]
    obtain ⟨hmem, hi⟩ := List.mem_filter.mp hm
    exact ⟨by simpa using hi, mem_rows.mp hmem⟩
  · cases h

end Zt.MfaRecords
