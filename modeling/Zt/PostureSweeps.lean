import Mathlib.Data.List.Flatten
import Zt.EdgeCtrl
import Zt.Tables

namespace Zt.PostureSweeps

open Tables EdgeCtrl

structure Session where
  id : Id
  serviceId : Id

structure ApiSession where
  id : Id
  sessions : List Session

/-- Which policies grant a service, in the order in which they are gone through
for an API session, and which of them have their posture checks passed. An
evaluation may mark an MFA as timed out, which is left out here. -/
structure Posture where
  policies : Id → Id → List Id
  passes : Id → Id → Bool

/-- The policies of a service until one is valid. A result known from another
service does not make this one valid. -/
def policyLoop (passes : Id → Bool) (validPolicies : IdTable Bool) : List Id → IdTable Bool × Bool
  | [] => (validPolicies, false)
  | policyId :: policies =>
    match validPolicies.lookup policyId with
    | some true => (validPolicies, false)
    | some false => policyLoop passes validPolicies policies
    | none =>
      if passes policyId then (validPolicies.insert policyId true, true)
      else policyLoop passes (validPolicies.insert policyId false) policies

/-- The sessions to delete. A valid service ends the loop over the sessions. -/
def sessionLoop (policies : Id → List Id) (passes : Id → Bool) (validServices validPolicies : IdTable Bool) :
    List Session → List Id
  | [] => []
  | session :: sessions =>
    match validServices.lookup session.serviceId with
    | some true => sessionLoop policies passes validServices validPolicies sessions
    | some false => session.id :: sessionLoop policies passes validServices validPolicies sessions
    | none =>
      let (validPolicies, isValidService) :=
        if (policies session.serviceId).isEmpty then (validPolicies, true)
        else policyLoop passes validPolicies (policies session.serviceId)
      if isValidService then []
      else
        session.id :: sessionLoop policies passes (validServices.insert session.serviceId false) validPolicies sessions

def postureDataUpdated (posture : Posture) (apiSessions : List ApiSession) : List Id :=
  apiSessions.flatMap (fun apiSession =>
    sessionLoop (posture.policies apiSession.id) (posture.passes apiSession.id) ∅ ∅ apiSession.sessions)

/-- The service is granted, but by no policy whose checks pass. -/
def lostPosture (policies : Id → List Id) (passes : Id → Bool) (session : Session) : Bool :=
  !(policies session.serviceId).isEmpty && (policies session.serviceId).all (fun policyId => !passes policyId)

def lostSessions (posture : Posture) (apiSessions : List ApiSession) : List Id :=
  apiSessions.flatMap (fun apiSession =>
    (apiSession.sessions.filter (lostPosture (posture.policies apiSession.id) (posture.passes apiSession.id))).map
      Session.id)

section Loops

variable {policies : Id → List Id} {passes : Id → Bool} {validServices validPolicies : IdTable Bool}
  {fails : Id → Prop}

/-- Only failures are kept while the loops go on. -/
def Failing (t : IdTable Bool) (fails : Id → Prop) : Prop := ∀ id b, t.lookup id = some b → b = false ∧ fails id

theorem failing_empty : Failing ∅ fails := by simp [Failing]

theorem Failing.insert {t : IdTable Bool} (h : Failing t fails) {id : Id} (hid : fails id) :
    Failing (t.insert id false) fails := by
  exact forall_insert h ⟨rfl, hid⟩

theorem policyLoop_spec (h : Failing validPolicies (fun id => passes id = false)) {l : List Id} :
    ((policyLoop passes validPolicies l).2 = true ↔ ∃ id ∈ l, passes id = true) ∧
      ((policyLoop passes validPolicies l).2 = false →
        Failing (policyLoop passes validPolicies l).1 (fun id => passes id = false)) := by
  induction l generalizing validPolicies with
  | nil => simpa [policyLoop] using h
  | cons policyId l ih =>
    rcases hknown : validPolicies.lookup policyId with _ | _ | _
    · cases hpasses : passes policyId with
      | true => simp [policyLoop, hknown, hpasses]
      | false => simpa [policyLoop, hknown, hpasses] using ih (h.insert hpasses)
    · have hpasses := (h policyId false hknown).2
      simpa [policyLoop, hknown, hpasses] using ih h
    · cases (h policyId true hknown).1

/-- The loop stops at the first session that has not lost its posture. -/
theorem sessionLoop_eq_takeWhile (hs : Failing validServices (fun id =>
      (policies id).isEmpty = false ∧ ∀ policyId ∈ policies id, passes policyId = false))
    (hp : Failing validPolicies (fun id => passes id = false)) (sessions : List Session) :
    sessionLoop policies passes validServices validPolicies sessions =
      (sessions.takeWhile (lostPosture policies passes)).map Session.id := by
  induction sessions generalizing validServices validPolicies with
  | nil => rfl
  | cons session sessions ih =>
    have hlost : lostPosture policies passes session = true ↔ (policies session.serviceId).isEmpty = false ∧
        ∀ policyId ∈ policies session.serviceId, passes policyId = false := by
      simp [lostPosture]
    rcases hknown : validServices.lookup session.serviceId with _ | _ | _
    · cases hempty : (policies session.serviceId).isEmpty with
      | true => simp [sessionLoop, hknown, hempty, lostPosture]
      | false =>
        obtain ⟨hvalid, hkeeps⟩ := policyLoop_spec hp
        cases hloop : (policyLoop passes validPolicies (policies session.serviceId)).2 with
        | true =>
          obtain ⟨policyId, hmem, hpasses⟩ := hvalid.mp hloop
          have hkept : lostPosture policies passes session = false := by
            simp only [lostPosture, hempty, Bool.not_false, Bool.true_and, List.all_eq_false]
            exact ⟨policyId, hmem, by simp [hpasses]⟩
          simp [sessionLoop, hknown, hempty, hloop, hkept]
        | false =>
          have hfails : ∀ policyId ∈ policies session.serviceId, passes policyId = false := by
            simpa [hloop] using hvalid
          have hrest := ih (hs.insert ⟨hempty, hfails⟩) (hkeeps hloop)
          simp [sessionLoop, hknown, hempty, hloop, hlost.mpr ⟨hempty, hfails⟩, hrest]
    · have hrest := ih hs hp
      simp [sessionLoop, hknown, hlost.mpr (hs _ _ hknown).2, hrest]
    · cases (hs _ _ hknown).1

end Loops

section Lists

variable {A B : Type}

theorem takeWhile_sublist_filter {p : A → Bool} {l : List A} : (l.takeWhile p).Sublist (l.filter p) := by
  induction l with
  | nil => simp
  | cons a l ih => cases ha : p a <;> simp [ha, ih]

end Lists

/-- Only sessions that have lost their posture are deleted, in the
order in which they are listed. -/
theorem postureDataUpdated_sublist (posture : Posture) (apiSessions : List ApiSession) :
    (postureDataUpdated posture apiSessions).Sublist (lostSessions posture apiSessions) := by
  simp only [postureDataUpdated, lostSessions, sessionLoop_eq_takeWhile failing_empty failing_empty]
  exact List.Sublist.flatMap_right apiSessions (fun apiSession _ => takeWhile_sublist_filter.map _)

section Changes

/-- A cursor is a position in a list of keys. -/
structure Cursor where
  keys : List Id
  position : Nat := 0

def Cursor.isValid (cursor : Cursor) : Bool := decide (cursor.position < cursor.keys.length)

def Cursor.current (cursor : Cursor) : Id := cursor.keys.getD cursor.position ""

def Cursor.next (cursor : Cursor) : Cursor := { cursor with position := cursor.position + 1 }

/-- The inner loop as it is written. It is out of fuel when it has not ended. -/
def identityLoop (identityCursor : Cursor) : Nat → KeySet Id → Option (KeySet Id)
  | 0, _ => none
  | fuel + 1, identitiesToNotify =>
    if identityCursor.isValid then identityLoop identityCursor fuel (identitiesToNotify.insert identityCursor.current ())
    else some identitiesToNotify

def servicePolicyLoop (identityLinks : Id → List Id) : Nat → Cursor → KeySet Id → Option (KeySet Id)
  | 0, _, _ => none
  | fuel + 1, servicePolicyCursor, identitiesToNotify =>
    if servicePolicyCursor.isValid then do
      let identitiesToNotify ←
        identityLoop { keys := identityLinks servicePolicyCursor.current } fuel identitiesToNotify
      servicePolicyLoop identityLinks fuel servicePolicyCursor.next identitiesToNotify
    else some identitiesToNotify

/-- The identities that are notified, if the loops end. -/
def postureCheckChanged (servicePolicyLinks : List Id) (identityLinks : Id → List Id) (fuel : Nat) : Option (List Id) :=
  (servicePolicyLoop identityLinks fuel { keys := servicePolicyLinks } ∅).map AList.keys

/-- The loops end, and each identity of a policy is notified once. -/
def NotifiesAll (servicePolicyLinks : List Id) (identityLinks : Id → List Id) : Prop :=
  ∃ fuel notified, postureCheckChanged servicePolicyLinks identityLinks fuel = some notified ∧ notified.Nodup ∧
    ∀ id, id ∈ notified ↔ ∃ policyId ∈ servicePolicyLinks, id ∈ identityLinks policyId

variable {identityLinks : Id → List Id} {cursor : Cursor}

theorem identityLoop_of_valid {identityCursor : Cursor} (hvalid : identityCursor.isValid = true) (fuel : Nat)
    (identitiesToNotify : KeySet Id) : identityLoop identityCursor fuel identitiesToNotify = none := by
  induction fuel generalizing identitiesToNotify with
  | zero => rfl
  | succ fuel ih => simp [identityLoop, hvalid, ih]

theorem isValid_start {keys : List Id} : ({ keys } : Cursor).isValid = true ↔ keys ≠ [] := by
  simp [Cursor.isValid, List.length_pos_iff]

theorem servicePolicyLoop_empty {fuel : Nat} {identitiesToNotify result : KeySet Id}
    (h : servicePolicyLoop identityLinks fuel cursor identitiesToNotify = some result) :
    ∀ policyId ∈ cursor.keys.drop cursor.position, identityLinks policyId = [] := by
  induction fuel generalizing cursor identitiesToNotify with
  | zero => cases h
  | succ fuel ih =>
    by_cases hvalid : cursor.isValid = true
    · have hlt : cursor.position < cursor.keys.length := of_decide_eq_true hvalid
      simp only [servicePolicyLoop, hvalid] at h
      obtain ⟨_, hinner, hrest⟩ := Option.bind_eq_some_iff.mp h
      have hcur : cursor.current = cursor.keys[cursor.position] := by
        simp [Cursor.current, hlt]
      rw [List.drop_eq_getElem_cons hlt, List.forall_mem_cons, ← hcur]
      refine ⟨?_, ih hrest⟩
      by_contra hlinks
      rw [identityLoop_of_valid (isValid_start.mpr hlinks)] at hinner
      cases hinner
    · have hge : cursor.keys.length ≤ cursor.position := by simpa [Cursor.isValid] using hvalid
      simp [List.drop_eq_nil_of_le hge]

theorem servicePolicyLoop_ends {n : Nat} (hn : cursor.keys.length - cursor.position = n)
    (hempty : ∀ policyId ∈ cursor.keys, identityLinks policyId = []) (identitiesToNotify : KeySet Id) :
    servicePolicyLoop identityLinks (n + 1) cursor identitiesToNotify = some identitiesToNotify := by
  induction n generalizing cursor with
  | zero =>
    have hvalid : cursor.isValid = false := by simp [Cursor.isValid]; omega
    simp [servicePolicyLoop, hvalid]
  | succ n ih =>
    have hlt : cursor.position < cursor.keys.length := by omega
    have hvalid : cursor.isValid = true := decide_eq_true hlt
    have hcur : identityLinks cursor.current = [] := by
      refine hempty _ ?_
      simp [Cursor.current, hlt]
    have hinner : identityLoop { keys := identityLinks cursor.current } (n + 1) identitiesToNotify =
        some identitiesToNotify := by
      simp [identityLoop, hcur, Cursor.isValid]
    rw [servicePolicyLoop, if_pos hvalid, hinner]
    exact ih (by simp only [Cursor.next]; omega) hempty

end Changes

theorem notifiesAll_iff (servicePolicyLinks : List Id) (identityLinks : Id → List Id) :
    NotifiesAll servicePolicyLinks identityLinks ↔ ∀ policyId ∈ servicePolicyLinks, identityLinks policyId = [] := by
  constructor
  · rintro ⟨fuel, notified, hchanged, -⟩
    obtain ⟨_, hloop, -⟩ := Option.map_eq_some_iff.mp hchanged
    exact servicePolicyLoop_empty hloop
  · intro hempty
    have hends : servicePolicyLoop identityLinks (servicePolicyLinks.length + 1) { keys := servicePolicyLinks } ∅ =
        some ∅ := servicePolicyLoop_ends rfl hempty ∅
    refine ⟨servicePolicyLinks.length + 1, [], ?_, List.nodup_nil, fun id => ?_⟩
    · rw [postureCheckChanged, hends]
      rfl
    · simp only [List.not_mem_nil, false_iff, not_exists, not_and]
      intro policyId hmem
      simp [hempty policyId hmem]

/-- One policy with one identity keeps the loop going for ever. -/
theorem one_identity_hangs :
    ¬ ∃ fuel notified, postureCheckChanged ["policy"] (fun _ => ["identity"]) fuel = some notified := by
  rintro ⟨fuel, notified, h⟩
  obtain ⟨_, hloop, -⟩ := Option.map_eq_some_iff.mp h
  cases servicePolicyLoop_empty hloop "policy" List.mem_cons_self

end Zt.PostureSweeps
