import Zt.MfaRecords
import Zt.Runs

namespace Zt.RecoveryCodes

open Tables Runs EdgeCtrl MfaRecords

/-- Where a call stands that works on a copy of the record: it was read, or a
code was accepted on it. -/
inductive Held
  | read (mfa : Mfa)
  | verified (mfa : Mfa)

def Held.mfa : Held → Mfa
  | .read mfa => mfa
  | .verified mfa => mfa

/-- The codes a record was last given and those accepted since, the last first. -/
structure Issue where
  codes : List String
  accepted : List String := []

structure Verifications where
  mfas : MfaStore
  held : Table Nat Held := ∅
  issues : IdTable Issue

inductive MfaOp
  | read (call : Nat) (identityId : Id)
  | verify (call : Nat) (code : String) (now : Int) (dbFails : Bool)
  | complete (call : Nat) (code : String) (now : Int) (dbFails : Bool)
  | recreate (call : Nat) (newCodes : List String) (dbFails : Bool)
  | delete (call : Nat) (dbFails : Bool)
  | create (entity : Mfa) (dbFails : Bool)
  | deleteAll (identityId : Id)

/-- The records an administrator starts with. -/
def start (mfas : MfaStore) : Verifications where
  mfas := mfas
  issues := collect mfas (fun _ mfa => some { codes := mfa.recoveryCodes })

variable (st : Verifications)

def Verifications.set (mfas : MfaStore) : Verifications := { st with mfas := mfas }

def Verifications.issue (id : Id) (codes : List String) : Verifications :=
  { st with issues := st.issues.insert id { codes := codes } }

/-- A code that was accepted as a recovery code is noted with its record. -/
def Verifications.accept (mfa : Mfa) (code : String) : Verifications :=
  if code ∈ mfa.recoveryCodes then
    { st with issues := adjust st.issues mfa.id (fun issue => { issue with accepted := code :: issue.accepted }) }
  else st

def Verifications.hold (call : Nat) (h : Held) : Verifications :=
  { st with held := st.held.insert call h }

def Verifications.drop (call : Nat) : Verifications := { st with held := st.held.erase call }

/-- A verified record is deleted only after a code. -/
def Held.mayDelete : Held → Bool
  | .read mfa => !mfa.isVerified
  | .verified _ => true

variable (lib : Libraries)

/-- A call is a read and what follows on the copy, and other calls come between
the two. -/
def step (st : Verifications) : MfaOp → Verifications
  | .read call identityId =>
    match readOneByIdentityId st.mfas identityId with
    | .ok (some mfa) => st.hold call (.read mfa)
    | _ => st.drop call
  | .verify call code now dbFails =>
    match st.held.lookup call with
    | some (.read mfa) =>
      match verify lib st.mfas mfa code now dbFails with
      | some (mfa', mfas) => ((st.set mfas).accept mfa code).hold call (.verified mfa')
      | none => st.drop call
    | _ => st
  | .complete call code now dbFails =>
    match st.held.lookup call with
    | some (.read mfa) =>
      match finishTotpEnrollment lib st.mfas mfa code now dbFails with
      | .ok mfas => (st.set mfas).drop call
      | .error _ => st.drop call
    | _ => st
  | .recreate call newCodes dbFails =>
    match st.held.lookup call with
    | some (.verified mfa) =>
      if mfa.isVerified then
        match recreateRecoveryCodes lib st.mfas mfa newCodes dbFails with
        | .ok mfas => ((st.set mfas).issue mfa.id newCodes).drop call
        | .error _ => st.drop call
      else st
    | _ => st
  | .delete call dbFails =>
    match st.held.lookup call with
    | some h =>
      if h.mayDelete then
        match delete st.mfas h.mfa.id dbFails with
        | .ok mfas => (st.set mfas).drop call
        | .error _ => st.drop call
      else st
    | none => st
  | .create entity dbFails =>
    match applyCreate lib st.mfas entity dbFails with
    | .ok mfas => (st.set mfas).issue entity.id entity.recoveryCodes
    | .error _ => st
  | .deleteAll identityId => st.set (deleteAllForIdentity st.mfas identityId)

/-- No code was accepted twice or without having been given out, and what is
stored is what was given out and not accepted. -/
structure Settled : Prop where
  once : ∀ id issue, st.issues.lookup id = some issue →
    issue.accepted.Nodup ∧ ∀ c ∈ issue.accepted, c ∈ issue.codes
  left : ∀ id mfa, st.mfas.lookup id = some mfa → ∃ issue, st.issues.lookup id = some issue ∧
    ∀ c, c ∈ mfa.recoveryCodes ↔ c ∈ issue.codes ∧ c ∉ issue.accepted

structure Distinct : Prop where
  stored : ∀ id mfa, st.mfas.lookup id = some mfa → mfa.recoveryCodes.Nodup
  held : ∀ call h, st.held.lookup call = some h → h.mfa.recoveryCodes.Nodup

/-- The record still has the codes of the copy. -/
def Unchanged (mfa : Mfa) : Prop :=
  ∀ stored, st.mfas.lookup mfa.id = some stored → ∀ c, c ∈ stored.recoveryCodes ↔ c ∈ mfa.recoveryCodes

/-- A call about to write its copy back finds the record unchanged. -/
def Fresh (st : Verifications) : MfaOp → Prop
  | .verify call code _ dbFails => ∀ mfa, st.held.lookup call = some (.read mfa) →
      code ∈ mfa.recoveryCodes → dbFails = false → Unchanged st mfa
  | .complete call code now dbFails => ∀ mfa, st.held.lookup call = some (.read mfa) →
      mfa.isVerified = false → verifyTOTP lib mfa code now = true → dbFails = false → Unchanged st mfa
  | _ => True

variable {lib} {st : Verifications} {mfa : Mfa} {id : Id} {code : String}

variable {call : Nat} {mfas : MfaStore} {dbFails : Bool} {codes : List String}

theorem settled_hold {h : Held} : Settled (st.hold call h) ↔ Settled st :=
  ⟨fun ⟨once, left⟩ => ⟨once, left⟩, fun ⟨once, left⟩ => ⟨once, left⟩⟩

theorem settled_drop : Settled (st.drop call) ↔ Settled st :=
  ⟨fun ⟨once, left⟩ => ⟨once, left⟩, fun ⟨once, left⟩ => ⟨once, left⟩⟩

theorem accept_mfas : (st.accept mfa code).mfas = st.mfas := by
  unfold Verifications.accept
  split <;> rfl

theorem Settled.mono (h : Settled st) (hsub : ∀ id mfa, mfas.lookup id = some mfa → st.mfas.lookup id = some mfa) :
    Settled (st.set mfas) :=
  ⟨h.once, fun id mfa hl => h.left id mfa (hsub id mfa hl)⟩

theorem Settled.issued (h : Settled st) (hcodes : ∀ c, c ∈ mfa.recoveryCodes ↔ c ∈ codes) :
    Settled ((st.set (st.mfas.insert id mfa)).issue id codes) := by
  constructor
  · intro j issue hl
    exact forall_insert h.once ⟨List.nodup_nil, by simp⟩ j issue hl
  · intro j m hl
    simp only [Verifications.issue, Verifications.set, lookup_insert_eq] at hl ⊢
    split at hl
    · rename_i hj
      cases hl
      exact ⟨_, if_pos hj, by simpa using hcodes⟩
    · rename_i hj
      rw [if_neg hj]
      exact h.left j m hl

/-- A record whose codes are written as they are in a copy is right only if the
copy has the stored codes. -/
theorem settled_set_iff {stored : Mfa} (h : Settled st) (hl : st.mfas.lookup id = some stored) :
    Settled (st.set (st.mfas.insert id mfa)) ↔ ∀ c, c ∈ stored.recoveryCodes ↔ c ∈ mfa.recoveryCodes := by
  obtain ⟨issue, hi, hstored⟩ := h.left id stored hl
  constructor
  · intro h' c
    obtain ⟨issue', hi', hmfa⟩ := h'.left id mfa (AList.lookup_insert _)
    have he : issue' = issue := Option.some.inj (hi'.symm.trans hi)
    subst he
    rw [hstored, hmfa]
  · intro hc
    exact ⟨h.once, forall_insert h.left ⟨issue, hi, fun c => by rw [← hc, hstored]⟩⟩

theorem settled_accept_iff {stored written : Mfa} (h : Settled st) (hl : st.mfas.lookup mfa.id = some stored)
    (hcode : code ∈ mfa.recoveryCodes) (hw : ∀ c, c ∈ written.recoveryCodes ↔ c ≠ code ∧ c ∈ mfa.recoveryCodes) :
    Settled ((st.set (st.mfas.insert mfa.id written)).accept mfa code) ↔
      ∀ c, c ∈ stored.recoveryCodes ↔ c ∈ mfa.recoveryCodes := by
  obtain ⟨issue, hi, hstored⟩ := h.left mfa.id stored hl
  have hacc : ∀ j, ((st.set (st.mfas.insert mfa.id written)).accept mfa code).issues.lookup j =
      if j = mfa.id then some { issue with accepted := code :: issue.accepted } else st.issues.lookup j := by
    intro j
    simp only [Verifications.accept, if_pos hcode, Verifications.set, lookup_adjust]
    split
    · rename_i hj
      rw [hj, hi]
      rfl
    · rfl
  constructor
  · intro h'
    obtain ⟨hnodup, hgiven⟩ := h'.once mfa.id _ ((hacc mfa.id).trans (if_pos rfl))
    obtain ⟨issue', hi', hwritten⟩ := h'.left mfa.id written (by rw [accept_mfas]; exact AList.lookup_insert _)
    rw [hacc, if_pos rfl] at hi'
    cases hi'
    intro c
    by_cases hc : c = code
    · subst hc
      rw [hstored]
      exact iff_of_true ⟨hgiven c (by simp), (List.nodup_cons.mp hnodup).1⟩ hcode
    · have h₁ := hwritten c
      have h₂ := hw c
      have h₃ := hstored c
      simp only [List.mem_cons, hc, false_or, ne_eq, not_false_eq_true, true_and] at h₁ h₂
      rw [h₃, ← h₁, h₂]
  · intro hc
    have hgiven := (hstored code).mp ((hc code).mpr hcode)
    constructor
    · intro j issue' hj
      rw [hacc] at hj
      split at hj
      · cases hj
        obtain ⟨hn, hsub⟩ := h.once mfa.id issue hi
        refine ⟨List.nodup_cons.mpr ⟨hgiven.2, hn⟩, fun c hm => ?_⟩
        rcases List.mem_cons.mp hm with rfl | hm
        · exact hgiven.1
        · exact hsub c hm
      · exact h.once j issue' hj
    · intro j m hm
      rw [hacc]
      rw [accept_mfas] at hm
      simp only [Verifications.set, lookup_insert_eq] at hm
      split at hm
      · rename_i hj
        cases hm
        refine ⟨_, if_pos hj, fun c => ?_⟩
        rw [hw, ← hc, hstored]
        simp only [List.mem_cons]
        tauto
      · rename_i hj
        rw [if_neg hj]
        exact h.left j m hm

section

variable (hd : Distinct st)
include hd

theorem Distinct.hold {h : Held} (hn : h.mfa.recoveryCodes.Nodup) : Distinct (st.hold call h) := by
  exact ⟨hd.stored, forall_insert hd.held hn⟩

theorem Distinct.drop : Distinct (st.drop call) := by
  exact ⟨hd.stored, forall_erase hd.held⟩

theorem Distinct.issue : Distinct (st.issue id codes) :=
  ⟨hd.stored, hd.held⟩

theorem Distinct.accept : Distinct (st.accept mfa code) := by
  unfold Verifications.accept
  split
  · exact ⟨hd.stored, hd.held⟩
  · exact hd

theorem Distinct.insert (hn : mfa.recoveryCodes.Nodup) : Distinct (st.set (st.mfas.insert id mfa)) := by
  exact ⟨forall_insert hd.stored hn, hd.held⟩

theorem Distinct.mono (hsub : ∀ id mfa, mfas.lookup id = some mfa → st.mfas.lookup id = some mfa) :
    Distinct (st.set mfas) :=
  ⟨fun id mfa hl => hd.stored id mfa (hsub id mfa hl), hd.held⟩

theorem Distinct.update (hu : update lib st.mfas mfa dbFails = .ok mfas) : Distinct (st.set mfas) := by
  obtain ⟨-, -, -, rfl⟩ := update_ok hu
  exact hd.insert lib.nodup_setStringList

omit hd in
theorem lookup_of_deleteAll {identityId : Id} {m : Mfa} {j : Id}
    (h : (deleteAllForIdentity mfas identityId).lookup j = some m) : mfas.lookup j = some m := by
  unfold deleteAllForIdentity at h
  rw [lookup_removeAll] at h
  split at h
  · cases h
  · exact h

theorem distinct_step {op : MfaOp} : Distinct (step lib st op) := by
  cases op with
  | read call identityId =>
    simp only [step]
    split
    · rename_i mfa hr
      obtain ⟨-, id, hl⟩ := readOneByIdentityId_some hr
      exact hd.hold (hd.stored id mfa hl)
    · exact hd.drop
  | verify call code now dbFails =>
    simp only [step]
    split
    · rename_i mfa hh
      have hn : mfa.recoveryCodes.Nodup := hd.held call _ hh
      split
      · rename_i mfa' mfas hv
        rcases verify_cases hv with ⟨-, rfl, hu⟩ | ⟨-, -, rfl, rfl⟩
        · exact (hd.update hu).accept.hold (hn.erase code)
        · exact hd.accept.hold hn
      · exact hd.drop
    · exact hd
  | complete call code now dbFails =>
    simp only [step]
    split
    · split
      · rename_i mfas hf
        exact (hd.update (finishTotpEnrollment_ok hf).2.2).drop
      · exact hd.drop
    · exact hd
  | recreate call newCodes dbFails =>
    simp only [step]
    split
    · split
      · split
        · rename_i mfas hr
          exact (hd.update hr).issue.drop
        · exact hd.drop
      · exact hd
    · exact hd
  | delete call dbFails =>
    simp only [step]
    split
    · split
      · split
        · rename_i mfas hr
          rw [delete_ok hr]
          exact (hd.mono (fun _ _ hl => (lookup_of_erase hl).2)).drop
        · exact hd.drop
      · exact hd
    · exact hd
  | create entity dbFails =>
    simp only [step]
    split
    · rename_i mfas hr
      rw [(applyCreate_ok hr).2.2.2]
      exact (hd.insert lib.nodup_setStringList).issue
    · exact hd
  | deleteAll identityId => exact hd.mono (fun _ _ => lookup_of_deleteAll)

theorem settled_verify_iff {now : Int} (h : Settled st) :
    Settled (step lib st (.verify call code now dbFails)) ↔
      Fresh lib st (.verify call code now dbFails) := by
  simp only [step, Fresh]
  cases hh : st.held.lookup call with
  | none => exact iff_of_true h (fun _ hm => by cases hm)
  | some held =>
    cases held with
    | verified mfa => exact iff_of_true h (fun _ hm => by cases hm)
    | read mfa =>
      have hn : mfa.recoveryCodes.Nodup := hd.held call _ hh
      -- only a recovery code that is stored without the accepted one can break anything
      by_cases hw : code ∈ mfa.recoveryCodes ∧ dbFails = false ∧ mfa.id ∈ st.mfas
      · obtain ⟨hc, rfl, hid⟩ := hw
        obtain ⟨stored, hl⟩ := mem_iff_lookup.mp hid
        have hw : ∀ c, c ∈ lib.setStringList (mfa.recoveryCodes.erase code) ↔ c ≠ code ∧ c ∈ mfa.recoveryCodes :=
          fun c => by rw [lib.mem_setStringList, hn.mem_erase_iff]
        dsimp only
        rw [verify_recovery hc hl, settled_hold, settled_accept_iff h hl hc hw]
        constructor
        · intro hcodes m hm _ _ s hs
          cases hm
          rw [hl] at hs
          cases hs
          exact hcodes
        · intro hfresh
          exact hfresh mfa rfl hc rfl stored hl
      · have hfresh : ∀ m, some (Held.read mfa) = some (.read m) → code ∈ m.recoveryCodes →
            dbFails = false → Unchanged st m := by
          intro m hm hc hf s hs
          cases hm
          exact absurd ⟨hc, hf, mem_of_lookup hs⟩ hw
        refine iff_of_true ?_ hfresh
        cases hv : verify lib st.mfas mfa code now dbFails with
        | none =>
          simp only [hv]
          exact settled_drop.mpr h
        | some r =>
          obtain ⟨mfa', mfas⟩ := r
          rcases verify_cases hv with ⟨hc, rfl, hu⟩ | ⟨hc, -, rfl, rfl⟩
          · obtain ⟨hf, stored, hl, -⟩ := update_ok hu
            exact absurd ⟨hc, hf, mem_of_lookup hl⟩ hw
          · simp only [hv, settled_hold, Verifications.accept, if_neg hc]
            exact h

omit hd in
theorem settled_complete_iff {now : Int} (h : Settled st) :
    Settled (step lib st (.complete call code now dbFails)) ↔
      Fresh lib st (.complete call code now dbFails) := by
  simp only [step, Fresh]
  cases hh : st.held.lookup call with
  | none => exact iff_of_true h (fun _ hm => by cases hm)
  | some held =>
    cases held with
    | verified mfa => exact iff_of_true h (fun _ hm => by cases hm)
    | read mfa =>
      cases hf : finishTotpEnrollment lib st.mfas mfa code now dbFails with
      | error e =>
        simp only [hf]
        refine iff_of_true (settled_drop.mpr h) (fun m hm hv ht hdb s hs => ?_)
        cases hm
        simp [finishTotpEnrollment, hv, ht, hdb, update, hs] at hf
      | ok mfas =>
        obtain ⟨hv, ht, hu⟩ := finishTotpEnrollment_ok hf
        obtain ⟨hdb, stored, hl, rfl⟩ := update_ok hu
        simp only [hf, settled_drop, settled_set_iff h hl, lib.mem_setStringList]
        constructor
        · intro hcodes m hm _ _ _ s hs
          cases hm
          rw [hl] at hs
          cases hs
          exact hcodes
        · intro hfresh
          exact hfresh mfa rfl hv ht hdb stored hl

theorem settled_step_iff (h : Settled st) {op : MfaOp} : Settled (step lib st op) ↔ Fresh lib st op := by
  cases op with
  | verify call code now dbFails => exact settled_verify_iff hd h
  | complete call code now dbFails => exact settled_complete_iff h
  | read call identityId =>
    refine iff_of_true ?_ trivial
    simp only [step]
    split
    · exact settled_hold.mpr h
    · exact settled_drop.mpr h
  | recreate call newCodes dbFails =>
    refine iff_of_true ?_ trivial
    simp only [step]
    split
    · split
      · split
        · rename_i mfas hr
          obtain ⟨-, -, -, rfl⟩ := update_ok hr
          exact settled_drop.mpr (h.issued (fun c => lib.mem_setStringList))
        · exact settled_drop.mpr h
      · exact h
    · exact h
  | delete call dbFails =>
    refine iff_of_true ?_ trivial
    simp only [step]
    split
    · split
      · split
        · rename_i mfas hr
          rw [delete_ok hr]
          exact settled_drop.mpr (h.mono (fun _ _ hl => (lookup_of_erase hl).2))
        · exact settled_drop.mpr h
      · exact h
    · exact h
  | create entity dbFails =>
    refine iff_of_true ?_ trivial
    simp only [step]
    split
    · rename_i mfas hr
      rw [(applyCreate_ok hr).2.2.2]
      exact h.issued (fun c => lib.mem_setStringList)
    · exact h
  | deleteAll identityId => exact iff_of_true (h.mono (fun _ _ => lookup_of_deleteAll)) trivial

end

theorem settled_start : Settled (start mfas) := by
  constructor
  · intro id issue hl
    simp only [start, lookup_collect, Option.bind_eq_some_iff, Option.some.injEq] at hl
    obtain ⟨-, -, rfl⟩ := hl
    exact ⟨List.nodup_nil, by simp⟩
  · intro id mfa hl
    exact ⟨{ codes := mfa.recoveryCodes }, by simp [start, lookup_collect, show mfas.lookup id = some mfa from hl],
      by simp⟩

theorem distinct_start (h : ∀ id mfa, mfas.lookup id = some mfa → mfa.recoveryCodes.Nodup) : Distinct (start mfas) :=
  ⟨h, fun _ _ hl => by cases hl⟩

/-- Along a run every code is accepted at most once and stored until then,
exactly if each call that writes its copy back finds the codes it read. -/
theorem codes_single_use_iff {mfas : MfaStore}
    (h : ∀ id mfa, mfas.lookup id = some mfa → mfa.recoveryCodes.Nodup) (ops : List MfaOp) :
    (∀ n, Settled ((ops.take n).foldl (step lib) (start mfas))) ↔
      Meets (Fresh lib) (step lib) (start mfas) ops :=
  forall_states_iff_meets Distinct Settled (fun _ _ hd => distinct_step hd)
    (fun _ _ hd hs => settled_step_iff hd hs) (distinct_start h) settled_start ops

def twoCodes : MfaStore :=
  (∅ : MfaStore).insert "m" { id := "m", identityId := "i", secret := "s", recoveryCodes := ["A", "B"] }

theorem codes_single_use_in_turn : (∀ id mfa, twoCodes.lookup id = some mfa → mfa.recoveryCodes.Nodup) ∧
    ∀ n, Settled ((([.read 0 "i", .verify 0 "A" 0 false, .read 1 "i", .verify 1 "A" 0 false] : List MfaOp).take
      n).foldl (step noTotp) (start twoCodes)) := by
  have hd : ∀ id mfa, twoCodes.lookup id = some mfa → mfa.recoveryCodes.Nodup := by
    intro id mfa hl
    simp only [twoCodes, lookup_insert_eq, AList.lookup_empty] at hl
    split at hl
    · cases hl; decide
    · cases hl
  refine ⟨hd, (codes_single_use_iff hd _).mpr ⟨trivial, ?_, trivial, ?_, trivial⟩⟩
  · intro mfa hm hc hf stored hs c
    cases hm
    cases hs
    rfl
  · intro mfa hm hc
    cases hm
    exact absurd hc (by decide)

/-- Two calls that read before either writes both accept one code, or the
second stores again what the first has used up. -/
theorem overlapping_calls_reuse_code :
    let run := fun code => ([.read 0 "i", .read 1 "i", .verify 0 "A" 0 false, .verify 1 code 0 false] : List MfaOp).foldl
      (step noTotp) (start twoCodes)
    ((run "A").issues.lookup "m").map Issue.accepted = some ["A", "A"] ∧
      ((run "B").issues.lookup "m").map Issue.accepted = some ["B", "A"] ∧
      ((run "B").mfas.lookup "m").map Mfa.recoveryCodes = some ["A"] ∧ ¬ Settled (run "A") ∧ ¬ Settled (run "B") := by
  refine ⟨by decide, by decide, by decide, fun h => ?_, fun h => ?_⟩
  · have hn := (h.once "m" _ rfl).1
    exact absurd hn (by decide)
  · obtain ⟨issue, hi, hc⟩ := h.left "m" _ rfl
    cases hi
    exact absurd ((hc "A").mp (by decide)).2 (by decide)

end Zt.RecoveryCodes
