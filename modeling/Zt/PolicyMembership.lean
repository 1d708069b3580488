import Zt.PolicyLinks

namespace Zt.PolicyMembership

open EdgeCtrl (Id)
open Tables PolicyStore Outcomes PolicyLinks Runs

variable {checker : FieldChecker} {entity current policy : ServicePolicy} {p e e' : Id} {db db' : Db}
  {k k' : Kind} {attributes : List String} {due : Kind → Bool} {op : Op} {t : PolicyType}

theorem validatePolicy_ok (h : validatePolicy checker entity = .ok ())
    (hset : proceedWithSet checker .policyType = true) : entity.policyType ≠ .invalid := by
  intro hinvalid
  rw [validatePolicy, hset, hinvalid] at h
  cases h

theorem persistEntity_ok {isCreate : Bool} (h : persistEntity isCreate checker p current entity db = .ok db') :
    (current.policyType ≠ .invalid → newPolicyType checker current entity ≠ .invalid) ∧
      ((newPolicyType checker current entity ≠ current.policyType ∧ isCreate = false ∧
        persistTypeChange checker p current entity db = .ok db') ∨
      ((newPolicyType checker current entity = current.policyType ∨ isCreate = true) ∧
        persistRoles checker p current entity db = .ok db')) := by
  obtain ⟨⟨⟩, hvalid, h⟩ := bind_ok h
  constructor
  · intro hcur
    rw [newPolicyType]
    split
    · rename_i hset
      exact validatePolicy_ok hvalid hset
    · exact hcur
  split at h
  · rename_i hc
    simp only [Bool.and_eq_true, decide_eq_true_eq, Bool.not_eq_true'] at hc
    exact .inl ⟨hc.1, hc.2, h⟩
  · rename_i hc
    simp only [Bool.and_eq_true, decide_eq_true_eq, Bool.not_eq_true', not_and_or, not_not,
      Bool.not_eq_false] at hc
    exact .inr ⟨hc, h⟩

theorem persistTypeChange_ok (h : persistTypeChange checker p current entity db = .ok db') :
    ∃ d, rolesUpdated (fun _ => true) current.policyType p
        (db.setPolicy p { persistedPolicy checker current entity with roles := fun _ => [] }) = .ok d ∧
      rolesUpdated (fun _ => true) (newPolicyType checker current entity) p
        (d.setPolicy p
          { persistedPolicy checker current entity with roles := restoredRoles checker current entity }) =
          .ok db' := by
  obtain ⟨d, h₁, h₂⟩ := bind_ok h
  exact ⟨d, h₁, h₂⟩

theorem createPolicy_ok (h : createPolicy p entity db = .ok db') :
    p ∉ db.policies ∧ newPolicyType none unset entity ≠ .invalid ∧ persistRoles none p unset entity db = .ok db' := by
  rw [createPolicy] at h
  split at h
  · cases h
  · rename_i hp
    obtain ⟨htype, ⟨-, hc, -⟩ | ⟨-, h⟩⟩ := persistEntity_ok h
    · cases hc
    · exact ⟨hp, htype (fun hinvalid => by cases hinvalid), h⟩

theorem updatePolicy_ok (h : updatePolicy checker p entity db = .ok db') :
    ∃ current, db.policies.lookup p = some current ∧
      (current.policyType ≠ .invalid → newPolicyType checker current entity ≠ .invalid) ∧
      ((newPolicyType checker current entity ≠ current.policyType ∧
        persistTypeChange checker p current entity db = .ok db') ∨
        (newPolicyType checker current entity = current.policyType ∧
          persistRoles checker p current entity db = .ok db')) := by
  rw [updatePolicy] at h
  split at h
  · cases h
  · rename_i current hcur
    obtain ⟨hvalid, hp⟩ := persistEntity_ok h
    refine ⟨current, hcur, hvalid, ?_⟩
    rcases hp with ⟨ht, -, h⟩ | ⟨ht | hc, h⟩
    · exact .inl ⟨ht, h⟩
    · exact .inr ⟨ht, h⟩
    · cases hc

/-- The policy that is written over a deleted one before its bucket goes. -/
def withoutRoles (policy : ServicePolicy) : ServicePolicy := { policy with roles := fun _ => [] }

theorem deletePolicy_ok (h : deletePolicy p db = .ok db') :
    ∃ policy d, db.policies.lookup p = some policy ∧ db' = dropPolicy p d ∧
      ((d = db ∧ ∀ k, policy.roles k = []) ∨ persistRoles none p policy (withoutRoles policy) db = .ok d) := by
  obtain ⟨policy, hpol, h⟩ := bind_ok h
  split at h
  · obtain ⟨d, hd, h⟩ := bind_ok h
    cases h
    refine ⟨policy, d, elim_ok hpol, rfl, .inr ?_⟩
    obtain ⟨current, hcur, -, ⟨hne, -⟩ | ⟨-, hp⟩⟩ := updatePolicy_ok hd
    · cases hcur.symm.trans (elim_ok hpol)
      exact absurd rfl hne
    · cases hcur.symm.trans (elim_ok hpol)
      exact hp
  · rename_i hempty
    cases h
    push Not at hempty
    refine ⟨policy, db, elim_ok hpol, rfl, .inl ⟨rfl, fun k => ?_⟩⟩
    cases k with
    | identity => exact hempty.1
    | service => exact hempty.2.1
    | postureCheck => exact hempty.2.2

theorem createEntity_ok (h : createEntity k e attributes db = .ok db') : e ∉ db.roleAttributes k ∧
    updateServicePolicyRelatedRoles k e (stringList attributes) (setEntity k e attributes db) = .ok db' := by
  rw [createEntity] at h
  split at h
  · cases h
  · rename_i he
    obtain ⟨-, -, h⟩ := bind_ok h
    exact ⟨he, h⟩

theorem updateEntity_ok (h : updateEntity k e attributes db = .ok db') :
    ∃ current, (db.roleAttributes k).lookup e = some current ∧
      ((stringList attributes = current ∧ db' = setEntity k e attributes db) ∨
        (stringList attributes ≠ current ∧
          updateServicePolicyRelatedRoles k e (stringList attributes) (setEntity k e attributes db) = .ok db')) := by
  obtain ⟨current, hcur, h⟩ := bind_ok h
  obtain ⟨-, -, h⟩ := bind_ok h
  refine ⟨current, elim_ok hcur, ?_⟩
  split at h
  · rename_i heq
    cases h
    exact .inl ⟨heq, rfl⟩
  · rename_i hne
    exact .inr ⟨hne, h⟩

theorem deleteEntity_ok (h : deleteEntity k e db = .ok db') :
    ∃ attributes d, (db.roleAttributes k).lookup e = some attributes ∧ db' = dropEntity k e d ∧
      ((attributes = [] ∧ d = deleteEntityReferences k e db) ∨ (attributes ≠ [] ∧
          updateServicePolicyRelatedRoles k e [] (setEntity k e [] (deleteEntityReferences k e db)) = .ok d)) := by
  obtain ⟨attributes, hattrs, h⟩ := bind_ok h
  split at h
  · rename_i hne
    obtain ⟨d, hd, h⟩ := bind_ok h
    cases h
    refine ⟨attributes, d, elim_ok hattrs, rfl, .inr ⟨hne, ?_⟩⟩
    obtain ⟨current, hcur, ⟨heq, -⟩ | ⟨-, hr⟩⟩ := updateEntity_ok hd
    · cases hcur.symm.trans (elim_ok hattrs)
      exact absurd heq.symm hne
    · exact hr
  · rename_i heq
    cases h
    exact ⟨attributes, _, elim_ok hattrs, rfl, .inl ⟨not_not.mp heq, rfl⟩⟩

/-- Two states that differ at most in one policy and its links. -/
structure Outside (p : Id) (db db' : Db) : Prop where
  policies : ∀ p', p' ≠ p → db'.policies.lookup p' = db.policies.lookup p'
  roleAttributes : db'.roleAttributes = db.roleAttributes
  links : ∀ k p' e, p' ≠ p → (e ∈ db'.links k p' ↔ e ∈ db.links k p')

theorem Outside.trans {d : Db} (h : Outside p db d) (h' : Outside p d db') : Outside p db db' where
  policies := fun p' hp => (h'.policies p' hp).trans (h.policies p' hp)
  roleAttributes := h'.roleAttributes.trans h.roleAttributes
  links := fun k p' e hp => (h'.links k p' e hp).trans (h.links k p' e hp)

theorem outside_setPolicy : Outside p db (db.setPolicy p policy) where
  policies := fun _ hp => AList.lookup_insert_ne hp
  roleAttributes := rfl
  links := fun _ _ _ _ => Iff.rfl

theorem grounded_setPolicy (h : Grounded db) : Grounded (db.setPolicy p policy) := by
  intro k p' e hmem
  obtain ⟨hp, he⟩ := h k p' e hmem
  exact ⟨(AList.mem_insert _).mpr (.inr hp), he⟩

theorem outside_rolesUpdated (h : rolesUpdated due t p db = .ok db') : Outside p db db' := by
  obtain ⟨xs, hs, rfl⟩ := rolesUpdated_settles h
  obtain ⟨hpols, hattrs⟩ := settle_frame xs db
  refine ⟨fun p' _ => by rw [hpols], hattrs, fun k p' e hp => ?_⟩
  exact hs.others (fun hscope => hp hscope.2)

/-- What writing a policy and evaluating the kinds that are due leaves. -/
structure Written (due : Kind → Bool) (p : Id) (policy : ServicePolicy) (db db' : Db) : Prop where
  outside : Outside p db db'
  lookup : db'.policies.lookup p = some policy
  grounded : Grounded db → Grounded db'
  selected : ∀ k e attributes, due k = true → (db.roleAttributes k).lookup e = some attributes →
    (e ∈ db'.links k p ↔ Selects policy k e attributes)
  kept : ∀ k e, due k = false → (e ∈ db'.links k p ↔ e ∈ db.links k p)

theorem written (h : rolesUpdated due t p (db.setPolicy p policy) = .ok db') : Written due p policy db db' := by
  have hout := outside_setPolicy.trans (outside_rolesUpdated h)
  obtain ⟨xs, hs, rfl⟩ := rolesUpdated_settles h
  have hlook : (db.setPolicy p policy).policies.lookup p = some policy := AList.lookup_insert _
  refine ⟨hout, ?_, fun hg => hs.grounded (grounded_setPolicy hg), ?_, ?_⟩
  · rw [(settle_frame xs _).1]
    exact hlook
  · intro k e attributes hdue he
    exact hs.selected ⟨hdue, rfl⟩ hlook he
  · intro k e hdue
    exact hs.others (fun hscope => Bool.false_ne_true (hdue.symm.trans hscope.1))

theorem persistRoles_written (h : persistRoles checker p current entity db = .ok db') :
    Written (rolesChanged checker current entity) p (persistedPolicy checker current entity) db db' :=
  written h

theorem persistTypeChange_written (h : persistTypeChange checker p current entity db = .ok db') :
    Written (fun _ => true) p
      { persistedPolicy checker current entity with roles := restoredRoles checker current entity } db db' := by
  obtain ⟨d, h₁, h₂⟩ := persistTypeChange_ok h
  have w₁ := written h₁
  have w₂ := written h₂
  refine ⟨w₁.outside.trans w₂.outside, w₂.lookup, fun hg => w₂.grounded (w₁.grounded hg), ?_, ?_⟩
  · intro k e attributes hdue he
    exact w₂.selected k e attributes hdue (by rw [w₁.outside.roleAttributes]; exact he)
  · exact fun k e hdue => absurd hdue.symm Bool.false_ne_true

def MatchedAt (db : Db) (p : Id) : Prop :=
  ∀ policy k e attributes, db.policies.lookup p = some policy → (db.roleAttributes k).lookup e = some attributes →
    (e ∈ db.links k p ↔ Selects policy k e attributes)

theorem matched_of_outside (h : Matched db) (hout : Outside p db db') (hp : MatchedAt db' p) : Matched db' := by
  intro p' policy k e attributes hpol he
  by_cases heq : p' = p
  · subst heq
    exact hp policy k e attributes hpol he
  · rw [hout.policies p' heq] at hpol
    rw [hout.roleAttributes] at he
    rw [hout.links k p' e heq]
    exact h p' policy k e attributes hpol he

theorem mem_stringList {values : List String} {v : String} : v ∈ stringList values ↔ v ∈ values := by
  rw [stringList, List.mem_dedup, List.mem_insertionSort]

/-- Roles that are not evaluated again are the roles that were stored. -/
theorem mem_newRoles (h : rolesChanged checker current entity k = false) (role : String) :
    role ∈ newRoles checker current entity k ↔ role ∈ current.roles k := by
  rw [newRoles]
  split
  · rename_i hset
    rw [rolesChanged, hset, Bool.true_and, decide_eq_false_iff_not, not_not] at h
    rw [mem_stringList, h]
  · rfl

theorem selects_congr {policy' : ServicePolicy} (hsemantic : policy'.semantic = policy.semantic)
    (hroles : ∀ role, role ∈ policy'.roles k ↔ role ∈ policy.roles k) (e : Id) (attributes : List String) :
    Selects policy' k e attributes ↔ Selects policy k e attributes := by
  simp [Selects, hsemantic, hroles]

/-- An update that keeps the policy type evaluates only the roles it changes. If
it sets another semantic, the roles of each other kind select what they did. -/
def Reevaluates (db : Db) : Op → Prop
  | .updatePolicy checker p entity =>
    ∀ current, db.policies.lookup p = some current → newPolicyType checker current entity = current.policyType →
      ∀ k, rolesChanged checker current entity k = false → ∀ e attributes,
        (db.roleAttributes k).lookup e = some attributes →
          (Selects { current with semantic := newSemantic checker current entity } k e attributes ↔
            Selects current k e attributes)
  | _ => True

theorem matched_updatePolicy (hm : Matched db) (hc : Reevaluates db (.updatePolicy checker p entity))
    (h : updatePolicy checker p entity db = .ok db') : Matched db' := by
  obtain ⟨current, hcur, -, ⟨-, hp⟩ | ⟨htype, hp⟩⟩ := updatePolicy_ok h
  · have w := persistTypeChange_written hp
    apply matched_of_outside hm w.outside
    intro policy k e attributes hpol he
    cases w.lookup.symm.trans hpol
    rw [w.outside.roleAttributes] at he
    exact w.selected k e attributes rfl he
  · have w := persistRoles_written hp
    apply matched_of_outside hm w.outside
    intro policy k e attributes hpol he
    cases w.lookup.symm.trans hpol
    rw [w.outside.roleAttributes] at he
    cases hdue : rolesChanged checker current entity k with
    | true => exact w.selected k e attributes hdue he
    | false =>
      rw [w.kept k e hdue, hm p current k e attributes hcur he, ← hc current hcur htype k hdue e attributes he]
      refine (selects_congr ?_ ?_ e attributes).symm
      · rfl
      · exact mem_newRoles hdue

theorem matched_createPolicy (hm : Matched db) (hg : Grounded db) (h : createPolicy p entity db = .ok db') :
    Matched db' := by
  obtain ⟨hnew, -, hp⟩ := createPolicy_ok h
  have w := persistRoles_written hp
  apply matched_of_outside hm w.outside
  intro policy k e attributes hpol he
  cases w.lookup.symm.trans hpol
  rw [w.outside.roleAttributes] at he
  cases hdue : rolesChanged none unset entity k with
  | true => exact w.selected k e attributes hdue he
  | false =>
    -- roles that are not evaluated for a new policy are empty
    have hroles : ∀ role, role ∉ (persistedPolicy none unset entity).roles k := by
      intro role hrole
      exact absurd ((mem_newRoles hdue role).mp hrole) List.not_mem_nil
    rw [w.kept k e hdue]
    constructor
    · exact fun hmem => absurd (hg k p e hmem).1 hnew
    · rintro (hr | hr | ⟨-, ⟨r, hr⟩, -⟩ | ⟨-, r, hr, -⟩) <;> exact absurd hr (hroles _)

theorem grounded_dropPolicy (h : Grounded db) : Grounded (dropPolicy p db) := by
  intro k p' e hmem
  by_cases hp : p' = p
  · subst hp
    simp [dropPolicy] at hmem
  · have hmem' : e ∈ db.links k p' := by simpa [dropPolicy, hp] using hmem
    exact ⟨AList.mem_erase.mpr ⟨hp, (h k p' e hmem').1⟩, (h k p' e hmem').2⟩

theorem outside_dropPolicy (p : Id) (db : Db) : Outside p db (dropPolicy p db) where
  policies := fun _ hp => AList.lookup_erase_ne hp
  roleAttributes := rfl
  links := fun k p' e hp => by simp [dropPolicy, hp]

theorem matched_deletePolicy (hm : Matched db) (h : deletePolicy p db = .ok db') : Matched db' := by
  obtain ⟨policy, d, -, rfl, hd⟩ := deletePolicy_ok h
  have hout : Outside p db d := by
    rcases hd with ⟨rfl, -⟩ | hd
    · exact ⟨fun _ _ => rfl, rfl, fun _ _ _ _ => .rfl⟩
    · exact (persistRoles_written hd).outside
  apply matched_of_outside hm (hout.trans (outside_dropPolicy p d))
  intro policy' k e attributes hpol
  rw [dropPolicy, AList.lookup_erase] at hpol
  cases hpol

/-- Links match the roles for all entities but one. -/
def MatchedBut (k : Kind) (e : Id) (db : Db) : Prop :=
  ∀ p policy k' e' attributes, ¬(k' = k ∧ e' = e) → db.policies.lookup p = some policy →
    (db.roleAttributes k').lookup e' = some attributes → (e' ∈ db.links k' p ↔ Selects policy k' e' attributes)

theorem lookup_setEntity : ((setEntity k e attributes db).roleAttributes k').lookup e' =
    if k' = k ∧ e' = e then some (stringList attributes) else (db.roleAttributes k').lookup e' := by
  by_cases hk : k' = k
  · subst hk
    simp [setEntity, Db.setRoleAttributes, lookup_insert_eq]
  · simp [setEntity, Db.setRoleAttributes, hk]

theorem grounded_setEntity (h : Grounded db) : Grounded (setEntity k e attributes db) := by
  intro k' p e' hmem
  refine ⟨(h k' p e' hmem).1, ?_⟩
  obtain ⟨current, hcur⟩ := mem_iff_lookup.mp (h k' p e' hmem).2
  rw [mem_iff_lookup, lookup_setEntity]
  split
  · exact ⟨_, rfl⟩
  · exact ⟨current, hcur⟩

theorem matchedBut_setEntity (h : MatchedBut k e db) (attributes : List String) :
    MatchedBut k e (setEntity k e attributes db) := by
  intro p policy k' e' attributes' hne hp he
  rw [lookup_setEntity, if_neg hne] at he
  exact h p policy k' e' attributes' hne hp he

/-- Evaluating all policies against the one entity settles its links too. -/
theorem matched_relatedRoles (h : MatchedBut k e db) (he : (db.roleAttributes k).lookup e = some attributes)
    (hr : updateServicePolicyRelatedRoles k e attributes db = .ok db') : Matched db' := by
  obtain ⟨xs, hs, rfl⟩ := relatedRoles_settles he hr
  obtain ⟨hpols, hattrs⟩ := settle_frame xs db
  intro p policy k' e' attributes' hp he'
  rw [hpols] at hp
  rw [hattrs] at he'
  by_cases hin : k' = k ∧ e' = e
  · exact hs.selected hin hp he'
  · rw [hs.others hin]
    exact h p policy k' e' attributes' hin hp he'

theorem matched_createEntity (hm : Matched db) (h : createEntity k e attributes db = .ok db') : Matched db' := by
  obtain ⟨-, hr⟩ := createEntity_ok h
  refine matched_relatedRoles (matchedBut_setEntity (fun p policy k' e' as _ => hm p policy k' e' as) attributes) ?_ hr
  rw [lookup_setEntity, if_pos ⟨rfl, rfl⟩]

theorem matched_updateEntity (hm : Matched db) (h : updateEntity k e attributes db = .ok db') : Matched db' := by
  obtain ⟨current, hcur, ⟨heq, rfl⟩ | ⟨-, hr⟩⟩ := updateEntity_ok h
  · intro p policy k' e' attributes' hp he
    refine hm p policy k' e' attributes' hp ?_
    rw [lookup_setEntity] at he
    split at he
    · rename_i hsame
      obtain ⟨rfl, rfl⟩ := hsame
      rw [← he, heq, hcur]
    · exact he
  · refine matched_relatedRoles (matchedBut_setEntity (fun p policy k' e' as _ => hm p policy k' e' as) attributes) ?_ hr
    rw [lookup_setEntity, if_pos ⟨rfl, rfl⟩]

def withoutRef (k : Kind) (e : Id) (policy : ServicePolicy) : ServicePolicy :=
  { policy with roles := Function.update policy.roles k ((policy.roles k).filter (fun role => role ≠ entityRef e)) }

theorem lookup_deleteEntityReferences : (deleteEntityReferences k e db).policies.lookup p =
    (db.policies.lookup p).map (fun policy => if e ∈ db.links k p then withoutRef k e policy else policy) := by
  have hn : (db.policies.keys.filter (fun p => e ∈ db.links k p)).Nodup := (AList.keys_nodup _).filter _
  rw [deleteEntityReferences, lookup_adjustEach hn]
  cases hp : db.policies.lookup p with
  | none => simp
  | some policy =>
    have hmem : p ∈ db.policies.keys := AList.mem_keys.mp (mem_of_lookup hp)
    by_cases he : e ∈ db.links k p
    · simp [hmem, he, withoutRef]
    · simp [he]

theorem mem_withoutRef {role : String} (h : ¬(k' = k ∧ role = entityRef e)) :
    role ∈ (withoutRef k e policy).roles k' ↔ role ∈ policy.roles k' := by
  by_cases hk : k' = k
  · subst hk
    have hrole : role ≠ entityRef e := fun heq => h ⟨rfl, heq⟩
    simp [withoutRef, hrole]
  · simp [withoutRef, hk]

theorem selects_withoutRef (hne : ¬(k' = k ∧ e' = e)) :
    Selects (withoutRef k e policy) k' e' attributes ↔ Selects policy k' e' attributes := by
  have hself : entityRef e' ∈ (withoutRef k e policy).roles k' ↔ entityRef e' ∈ policy.roles k' :=
    mem_withoutRef (fun h => hne ⟨h.1, entityRef_inj.mp h.2⟩)
  have hroles : ∀ r, roleRef r ∈ (withoutRef k e policy).roles k' ↔ roleRef r ∈ policy.roles k' :=
    fun r => mem_withoutRef (fun h => roleRef_ne_entityRef h.2)
  have hall : allRole ∈ (withoutRef k e policy).roles k' ↔ allRole ∈ policy.roles k' := hroles "all"
  simp only [Selects, hself, hroles, hall]
  rfl

theorem matchedBut_deleteEntityReferences (h : Matched db) : MatchedBut k e (deleteEntityReferences k e db) := by
  intro p policy k' e' attributes hne hp he
  rw [lookup_deleteEntityReferences] at hp
  obtain ⟨stored, hstored, rfl⟩ := Option.map_eq_some_iff.mp hp
  have hlinks : e' ∈ (deleteEntityReferences k e db).links k' p ↔ Selects stored k' e' attributes :=
    h p stored k' e' attributes hstored he
  rw [hlinks]
  split
  · exact (selects_withoutRef hne).symm
  · rfl

theorem grounded_deleteEntityReferences (h : Grounded db) (k : Kind) (e : Id) :
    Grounded (deleteEntityReferences k e db) := by
  intro k' p e' hmem
  obtain ⟨hp, he⟩ := h k' p e' hmem
  refine ⟨?_, he⟩
  obtain ⟨policy, hpol⟩ := mem_iff_lookup.mp hp
  rw [mem_iff_lookup, lookup_deleteEntityReferences, hpol]
  exact ⟨_, rfl⟩

theorem sameLinks_dropCounts (c : RcLinkCollection) (e : Id) (db : Db) : SameLinks db (dropCounts c e db) := by
  have h := sameLinks_foldl (f := fun db otherId =>
    db.setCounts c.access c.otherField otherId ((db.counts c.access c.otherField otherId).remove e))
    (fun _ _ => ⟨rfl, rfl, rfl⟩) db (db.counts c.access c.field e).keys
  exact ⟨h.policies, h.roleAttributes, h.links⟩

theorem dropEntity_policies : (dropEntity k e db).policies = db.policies :=
  (sameLinks_foldl (fun db c => sameLinks_dropCounts c e db) db (rcCollections k)).policies

theorem lookup_dropEntity : ((dropEntity k e db).roleAttributes k').lookup e' =
    if k' = k ∧ e' = e then none else (db.roleAttributes k').lookup e' := by
  have h := (sameLinks_foldl (fun db c => sameLinks_dropCounts c e db) db (rcCollections k)).roleAttributes
  by_cases hk : k' = k
  · subst hk
    simp [dropEntity, h, lookup_erase_eq]
  · simp [dropEntity, h, hk]

theorem mem_links_dropEntity : e' ∈ (dropEntity k e db).links k' p ↔ ¬(k' = k ∧ e' = e) ∧ e' ∈ db.links k' p := by
  have h := (sameLinks_foldl (fun db c => sameLinks_dropCounts c e db) db (rcCollections k)).links
  by_cases hk : k' = k
  · subst hk
    simp [dropEntity, h]
  · simp [dropEntity, h, hk]

theorem grounded_dropEntity (h : Grounded db) : Grounded (dropEntity k e db) := by
  intro k' p e' hmem
  rw [mem_links_dropEntity] at hmem
  obtain ⟨hp, he⟩ := h k' p e' hmem.2
  obtain ⟨attributes, hattr⟩ := mem_iff_lookup.mp he
  refine ⟨by rw [dropEntity_policies]; exact hp, ?_⟩
  rw [mem_iff_lookup, lookup_dropEntity, if_neg hmem.1]
  exact ⟨attributes, hattr⟩

theorem matched_dropEntity (h : MatchedBut k e db) : Matched (dropEntity k e db) := by
  intro p policy k' e' attributes hp he
  rw [dropEntity_policies] at hp
  rw [lookup_dropEntity] at he
  split at he
  · cases he
  · rename_i hne
    rw [mem_links_dropEntity, and_iff_right hne]
    exact h p policy k' e' attributes hne hp he

theorem matched_deleteEntity (hm : Matched db) (h : deleteEntity k e db = .ok db') : Matched db' := by
  obtain ⟨-, d, -, rfl, ⟨-, rfl⟩ | ⟨-, hr⟩⟩ := deleteEntity_ok h
  · exact matched_dropEntity (matchedBut_deleteEntityReferences hm)
  · have hd := matched_relatedRoles
      (matchedBut_setEntity (matchedBut_deleteEntityReferences hm) []) (by rw [lookup_setEntity, if_pos ⟨rfl, rfl⟩]; rfl) hr
    exact matched_dropEntity (fun p policy k' e' as _ => hd p policy k' e' as)

theorem grounded_relatedRoles (hg : Grounded db) (attributes : List String)
    (hr : updateServicePolicyRelatedRoles k e (stringList attributes) (setEntity k e attributes db) = .ok db') :
    Grounded db' := by
  obtain ⟨xs, hs, rfl⟩ := relatedRoles_settles (by rw [lookup_setEntity, if_pos ⟨rfl, rfl⟩]) hr
  exact hs.grounded (grounded_setEntity hg)

theorem grounded_perform (hg : Grounded db) (h : perform db op = .ok db') : Grounded db' := by
  cases op with
  | createPolicy p entity => exact (persistRoles_written (createPolicy_ok h).2.2).grounded hg
  | updatePolicy checker p entity =>
    obtain ⟨current, -, -, ⟨-, hp⟩ | ⟨-, hp⟩⟩ := updatePolicy_ok h
    · exact (persistTypeChange_written hp).grounded hg
    · exact (persistRoles_written hp).grounded hg
  | deletePolicy p =>
    obtain ⟨policy, d, -, rfl, ⟨rfl, -⟩ | hd⟩ := deletePolicy_ok h
    · exact grounded_dropPolicy hg
    · exact grounded_dropPolicy ((persistRoles_written hd).grounded hg)
  | createEntity k e attributes => exact grounded_relatedRoles hg attributes (createEntity_ok h).2
  | updateEntity k e attributes =>
    obtain ⟨-, -, ⟨-, rfl⟩ | ⟨-, hr⟩⟩ := updateEntity_ok h
    · exact grounded_setEntity hg
    · exact grounded_relatedRoles hg attributes hr
  | deleteEntity k e =>
    obtain ⟨-, d, -, rfl, ⟨-, rfl⟩ | ⟨-, hr⟩⟩ := deleteEntity_ok h
    · exact grounded_dropEntity (grounded_deleteEntityReferences hg k e)
    · exact grounded_dropEntity (grounded_relatedRoles (grounded_deleteEntityReferences hg k e) [] hr)

theorem matched_perform (hm : Matched db) (hg : Grounded db) (hc : Reevaluates db op) (h : perform db op = .ok db') :
    Matched db' := by
  cases op with
  | createPolicy p entity => exact matched_createPolicy hm hg h
  | updatePolicy checker p entity => exact matched_updatePolicy hm hc h
  | deletePolicy p => exact matched_deletePolicy hm h
  | createEntity k e attributes => exact matched_createEntity hm h
  | updateEntity k e attributes => exact matched_updateEntity hm h
  | deleteEntity k e => exact matched_deleteEntity hm h

/-- A policy that does not name the entity has some role that may have selected it. -/
def Roots (policy : ServicePolicy) (k : Kind) (e : Id) : Prop :=
  entityRef e ∈ policy.roles k ∨ ∃ r, roleRef r ∈ policy.roles k

theorem roots_of_selects (h : Selects policy k e attributes) : Roots policy k e := by
  rcases h with h | h | ⟨-, h, -⟩ | ⟨-, r, h, -⟩
  · exact .inl h
  · exact .inr ⟨"all", h⟩
  · exact .inr h
  · exact .inr ⟨r, h⟩

/-- A kind without roles has no links, even where the links are not up to date. -/
def Rooted (db : Db) : Prop :=
  ∀ p policy k e, db.policies.lookup p = some policy → e ∈ db.links k p → Roots policy k e

def RootedBut (k : Kind) (e : Id) (db : Db) : Prop :=
  ∀ p policy k' e', ¬(k' = k ∧ e' = e) → db.policies.lookup p = some policy → e' ∈ db.links k' p → Roots policy k' e'

theorem rooted_written (hr : Rooted db) (hg : Grounded db) (w : Written due p policy db db')
    (hkept : ∀ k e, due k = false → e ∈ db.links k p → Roots policy k e) : Rooted db' := by
  intro p' policy' k e hpol hmem
  by_cases hp : p' = p
  · subst hp
    cases w.lookup.symm.trans hpol
    cases hdue : due k with
    | true =>
      obtain ⟨attributes, he⟩ := mem_iff_lookup.mp (w.grounded hg k p' e hmem).2
      rw [w.outside.roleAttributes] at he
      exact roots_of_selects ((w.selected k e attributes hdue he).mp hmem)
    | false => exact hkept k e hdue ((w.kept k e hdue).mp hmem)
  · rw [w.outside.policies p' hp] at hpol
    rw [w.outside.links k p' e hp] at hmem
    exact hr p' policy' k e hpol hmem

theorem rooted_persistRoles (hr : Rooted db) (hg : Grounded db)
    (hcur : ∀ k e, e ∈ db.links k p → Roots current k e) (h : persistRoles checker p current entity db = .ok db') :
    Rooted db' := by
  apply rooted_written hr hg (persistRoles_written h)
  intro k e hdue hmem
  have hroles := mem_newRoles hdue
  exact (hcur k e hmem).imp (hroles _).mpr (fun ⟨r, hr⟩ => ⟨r, (hroles _).mpr hr⟩)

theorem rooted_relatedRoles (h : RootedBut k e db) (attributes : List String)
    (hr : updateServicePolicyRelatedRoles k e (stringList attributes) (setEntity k e attributes db) = .ok db') :
    Rooted db' := by
  have hlook : ((setEntity k e attributes db).roleAttributes k).lookup e = some (stringList attributes) := by
    rw [lookup_setEntity, if_pos ⟨rfl, rfl⟩]
  obtain ⟨xs, hs, rfl⟩ := relatedRoles_settles hlook hr
  intro p policy k' e' hp hmem
  rw [(settle_frame xs _).1] at hp
  by_cases hin : k' = k ∧ e' = e
  · obtain ⟨rfl, rfl⟩ := hin
    exact roots_of_selects ((hs.selected ⟨rfl, rfl⟩ hp hlook).mp hmem)
  · exact h p policy k' e' hin hp ((hs.others hin).mp hmem)

theorem rootedBut_deleteEntityReferences (h : Rooted db) : RootedBut k e (deleteEntityReferences k e db) := by
  intro p policy k' e' hne hp hmem
  rw [lookup_deleteEntityReferences] at hp
  obtain ⟨stored, hstored, rfl⟩ := Option.map_eq_some_iff.mp hp
  have hroots := h p stored k' e' hstored hmem
  split
  · refine hroots.imp (mem_withoutRef ?_).mpr (fun ⟨r, hr⟩ => ⟨r, (mem_withoutRef ?_).mpr hr⟩)
    · exact fun hc => hne ⟨hc.1, entityRef_inj.mp hc.2⟩
    · exact fun hc => roleRef_ne_entityRef hc.2
  · exact hroots

theorem rooted_dropEntity (h : RootedBut k e db) : Rooted (dropEntity k e db) := by
  intro p policy k' e' hp hmem
  rw [dropEntity_policies] at hp
  rw [mem_links_dropEntity] at hmem
  exact h p policy k' e' hmem.1 hp hmem.2

theorem rooted_perform (hr : Rooted db) (hg : Grounded db) (h : perform db op = .ok db') : Rooted db' := by
  cases op with
  | createPolicy p entity =>
    obtain ⟨hnew, -, hp⟩ := createPolicy_ok h
    exact rooted_persistRoles hr hg (fun k e hmem => absurd (hg k p e hmem).1 hnew) hp
  | updatePolicy checker p entity =>
    obtain ⟨current, hcur, -, ⟨-, hp⟩ | ⟨-, hp⟩⟩ := updatePolicy_ok h
    · exact rooted_written hr hg (persistTypeChange_written hp) (fun _ _ hdue => absurd hdue.symm Bool.false_ne_true)
    · exact rooted_persistRoles hr hg (fun k e => hr p current k e hcur) hp
  | deletePolicy p =>
    obtain ⟨policy, d, hpol, rfl, hd⟩ := deletePolicy_ok h
    have hrd : Rooted d := by
      rcases hd with ⟨rfl, -⟩ | hd
      · exact hr
      · exact rooted_persistRoles hr hg (fun k e => hr p policy k e hpol) hd
    intro p' policy' k e hp hmem
    have hne : p' ≠ p := by
      rintro rfl
      rw [dropPolicy, AList.lookup_erase] at hp
      cases hp
    rw [(outside_dropPolicy p d).policies p' hne] at hp
    exact hrd p' policy' k e hp (((outside_dropPolicy p d).links k p' e hne).mp hmem)
  | createEntity k e attributes =>
    exact rooted_relatedRoles (fun p policy k' e' _ => hr p policy k' e') attributes (createEntity_ok h).2
  | updateEntity k e attributes =>
    obtain ⟨-, -, ⟨-, rfl⟩ | ⟨-, hrel⟩⟩ := updateEntity_ok h
    · exact hr
    · exact rooted_relatedRoles (fun p policy k' e' _ => hr p policy k' e') attributes hrel
  | deleteEntity k e =>
    obtain ⟨-, d, -, rfl, ⟨-, rfl⟩ | ⟨-, hrel⟩⟩ := deleteEntity_ok h
    · exact rooted_dropEntity (rootedBut_deleteEntityReferences hr)
    · have hd := rooted_relatedRoles (rootedBut_deleteEntityReferences hr) [] hrel
      exact rooted_dropEntity (fun p policy k' e' _ => hd p policy k' e')

/-- A rule that successful operations obey holds for whole transactions. -/
theorem commit_invariant (inv : Db → Prop) (hdb : inv db) (h : ∀ db', perform db op = .ok db' → inv db') :
    inv (commit db op) := by
  rw [commit]
  split
  · rename_i db' hok
    exact h db' hok
  · exact hdb

theorem grounded_empty : Grounded Db.empty := fun _ _ _ h => absurd h (AList.notMem_empty _)

/-- In every run in which no update leaves roles unevaluated that its semantic
makes select something else, the links are those that the roles ask for. -/
theorem links_match_roles (ops : List Op) (h : Meets Reevaluates commit Db.empty ops) :
    Matched (ops.foldl commit Db.empty) := by
  have hinv := h.invariant (fun db => Matched db ∧ Grounded db) ?_ ⟨?_, grounded_empty⟩
  · exact hinv.1
  · intro db op hdb hc
    exact commit_invariant (fun db => Matched db ∧ Grounded db) hdb
      (fun db' hok => ⟨matched_perform hdb.1 hdb.2 hc hok, grounded_perform hdb.2 hok⟩)
  · intro p policy k e attributes hp
    cases hp

def identityPolicy (semantic : String) (roles : List String) : ServicePolicy :=
  ⟨.dial, semantic, fun k => if k = .identity then roles else []⟩

def edits : List Op :=
  [.createEntity .identity "ann" ["staff"], .createPolicy "p" (identityPolicy "AllOf" ["#staff", "#ops"]),
    .updatePolicy (some (fun field => field = .roles .identity)) "p" (identityPolicy "" ["#staff"]),
    .updateEntity .identity "ann" []]

theorem links_match_roles_after_edits :
    Meets Reevaluates commit Db.empty edits ∧ Matched (edits.foldl commit Db.empty) := by
  have h : Meets Reevaluates commit Db.empty edits :=
    ⟨trivial, trivial, fun _ _ _ _ _ _ _ _ => Iff.rfl, trivial, trivial⟩
  exact ⟨h, links_match_roles edits h⟩

/-- An update of the semantic alone leaves an identity that one of the two roles
now selects without its link. -/
theorem semantic_update_keeps_links : ¬Matched ([.createEntity .identity "ann" ["staff"],
    .createPolicy "p" (identityPolicy "AllOf" ["#staff", "#ops"]),
    .updatePolicy (some (fun field => field = .semantic)) "p" (identityPolicy "AnyOf" [])].foldl commit
      Db.empty) := by
  intro h
  have hlink := (h "p" _ .identity "ann" ["staff"] rfl (by decide)).mpr
    (.inr (.inr (.inr ⟨by decide, "staff", by decide, by decide⟩)))
  exact absurd hlink (by decide)

end Zt.PolicyMembership
