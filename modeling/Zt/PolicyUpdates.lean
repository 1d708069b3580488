import Zt.PolicyMembership

namespace Zt.PolicyUpdates

open EdgeCtrl (Id)
open PolicyStore PolicyLinks PolicyMembership

/-- The links of a kind are those that the roles of a policy ask for. -/
def LinksMatch (db : Db) (p : Id) (policy : ServicePolicy) (k : Kind) : Prop :=
  ∀ e attributes, (db.roleAttributes k).lookup e = some attributes →
    (e ∈ db.links k p ↔ Selects policy k e attributes)

/-- Each list of roles is the one asked for or the one stored before, and the
posture checks that are linked are those of the stored roles. -/
def PreservesUnasked (checker : FieldChecker) (p : Id) (current entity : ServicePolicy) (db' : Db) : Prop :=
  ∃ policy, db'.policies.lookup p = some policy ∧ (∀ k, policy.roles k = newRoles checker current entity k) ∧
    LinksMatch db' p policy .postureCheck

/-- An update that changes the type leaves no roles for posture checks. One that
does not and keeps them has them linked already. -/
def LosesNothing (checker : FieldChecker) (p : Id) (current entity : ServicePolicy) (db : Db) : Prop :=
  if newPolicyType checker current entity = current.policyType then
    rolesChanged checker current entity .postureCheck = false →
      LinksMatch db p { current with semantic := newSemantic checker current entity } .postureCheck
  else newRoles checker current entity .postureCheck = []

variable {policy : ServicePolicy} {db' db : Db} {p : Id} {due : Kind → Bool}

theorem linksMatch_congr {policy' : ServicePolicy} {k : Kind}
    (hattrs : db'.roleAttributes = db.roleAttributes) (hlinks : ∀ e, e ∈ db'.links k p ↔ e ∈ db.links k p)
    (hsemantic : policy'.semantic = policy.semantic)
    (hroles : ∀ role, role ∈ policy'.roles k ↔ role ∈ policy.roles k) :
    LinksMatch db' p policy' k ↔ LinksMatch db p policy k := by
  simp [LinksMatch, hattrs, hlinks, selects_congr hsemantic hroles]

theorem Written.linksMatch {k : Kind} (w : Written due p policy db db')
    (hdue : due k = true) : LinksMatch db' p policy k := by
  intro e attributes he
  rw [w.outside.roleAttributes] at he
  exact w.selected k e attributes hdue he

theorem preservesUnasked_of_written {checker : FieldChecker}
    {current entity : ServicePolicy} (w : Written due p policy db db') :
    PreservesUnasked checker p current entity db' ↔
      (∀ k, policy.roles k = newRoles checker current entity k) ∧ LinksMatch db' p policy .postureCheck := by
  simp [PreservesUnasked, w.lookup]

theorem preservesUnasked_iff {checker : FieldChecker} {p : Id} {current entity : ServicePolicy} {db db' : Db}
    (hcurrent : db.policies.lookup p = some current) (h : updatePolicy checker p entity db = .ok db') :
    PreservesUnasked checker p current entity db' ↔ LosesNothing checker p current entity db := by
  obtain ⟨stored, hstored, -, ⟨htype, hp⟩ | ⟨htype, hp⟩⟩ := updatePolicy_ok h
  · cases hstored.symm.trans hcurrent
    have w := persistTypeChange_written hp
    rw [preservesUnasked_of_written w, LosesNothing, if_neg htype, and_iff_left (Written.linksMatch w rfl)]
    refine ⟨fun hroles => (hroles .postureCheck).symm, fun hnone k => ?_⟩
    cases k with
    | identity => rfl
    | service => rfl
    | postureCheck => exact hnone.symm
  · cases hstored.symm.trans hcurrent
    have w := persistRoles_written hp
    have hroles : ∀ k, (persistedPolicy checker current entity).roles k = newRoles checker current entity k :=
      fun _ => rfl
    rw [preservesUnasked_of_written w, LosesNothing, if_pos htype, and_iff_right hroles]
    cases hdue : rolesChanged checker current entity .postureCheck with
    | true => simp [Written.linksMatch w hdue]
    | false =>
      rw [forall_prop_of_true rfl]
      exact linksMatch_congr w.outside.roleAttributes (fun e => w.kept .postureCheck e hdue) rfl (mem_newRoles hdue)

def guardedPolicy (policyType : PolicyType) (roles : List String) : ServicePolicy :=
  ⟨policyType, "AnyOf", fun k => if k = .postureCheck then roles else []⟩

def guarded : Db := [.createEntity .postureCheck "mfa" ["strict"],
  .createPolicy "p" (guardedPolicy .dial ["#strict"])].foldl commit Db.empty

def onlyField (field : Field) : FieldChecker := some (fun f => decide (f = field))

theorem check_update_loses_nothing : ∃ current db', guarded.policies.lookup "p" = some current ∧
    updatePolicy (onlyField (.roles .postureCheck)) "p" (guardedPolicy .bind ["@mfa"]) guarded = .ok db' ∧
      PreservesUnasked (onlyField (.roles .postureCheck)) "p" current (guardedPolicy .bind ["@mfa"]) db' := by
  have hroles : (guarded.policies.lookup "p").map (fun policy => policy.roles .postureCheck) = some ["#strict"] := by
    decide +kernel
  have hok : (updatePolicy (onlyField (.roles .postureCheck)) "p" (guardedPolicy .bind ["@mfa"])
      guarded).toOption.isSome := by
    decide +kernel
  obtain ⟨current, hcurrent, hstrict⟩ := Option.map_eq_some_iff.mp hroles
  rcases h : updatePolicy (onlyField (.roles .postureCheck)) "p" (guardedPolicy .bind ["@mfa"]) guarded with err | db'
  · rw [h] at hok
    cases hok
  · refine ⟨current, db', hcurrent, rfl, (preservesUnasked_iff hcurrent h).mpr ?_⟩
    have htype : newPolicyType (onlyField (.roles .postureCheck)) current (guardedPolicy .bind ["@mfa"]) =
        current.policyType := rfl
    rw [LosesNothing, if_pos htype, rolesChanged, hstrict]
    exact fun hsame => absurd hsame (by decide +kernel)

/-- An update of the type alone takes the posture checks from a policy. -/
theorem type_update_strips_checks :
    (guarded.policies.lookup "p").map (fun policy => policy.roles .postureCheck) = some ["#strict"] ∧
      "mfa" ∈ guarded.links .postureCheck "p" ∧
      (updatePolicy (onlyField .policyType) "p" (guardedPolicy .bind []) guarded).toOption.map (fun db' =>
        ((db'.policies.lookup "p").map (fun policy => policy.roles .postureCheck),
          decide ("mfa" ∈ db'.links .postureCheck "p"))) = some (some [], false) := by
  decide +kernel

end Zt.PolicyUpdates
