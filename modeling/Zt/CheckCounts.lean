import Zt.PolicyCounts

namespace Zt.CheckCounts

open EdgeCtrl (Id)
open Tables LinkCounts PolicyStore PolicyLinks PolicyMembership PolicyCounts Runs
open Db (empty)
open Setting (apply)

/-- The services that a posture check has on its side are those that policies
link to it, with the number of these policies. -/
def CheckCounted (access : Id → Access) (db : Db) : Prop :=
  ∀ a c s, Exact access db .postureCheckServices a c s

def Unguarded (db : Db) (p : Id) : Prop := ∀ c, c ∉ db.links .postureCheck p

variable {access access' : Id → Access} {db db' : Db} {p e : Id} {k : Kind} {xs : List Setting}
  {due : Kind → Bool} {policy : ServicePolicy}

theorem checkCounted_congr (h : CheckCounted access db) (hcounts : db'.counts = db.counts)
    (hjoins : ∀ a c s p, (p ∈ db'.policies ∧ Joins db' access' .postureCheckServices a c s p) ↔
      (p ∈ db.policies ∧ Joins db access .postureCheckServices a c s p)) : CheckCounted access' db' := by
  intro a c s
  rw [Exact, count, hcounts, degree_congr (hjoins a c s)]
  exact h a c s

/-- A link of a service that moves is not counted for the posture checks of the
policy, so it may move only where there are none. -/
theorem checkCounted_service {x : Setting} (h : CheckCounted access db) (hk : x.kind = .service)
    (hp : x.policy ∈ db.policies)
    (hx : Unguarded db x.policy ∨ (x.entity ∈ db.links .service x.policy ↔ x.isMatch = true)) :
    CheckCounted access (x.apply db) := by
  obtain ⟨k, a₀, p, e, isMatch⟩ := x
  cases hk
  rcases hx with hbare | hidle
  · intro a c s
    rw [Exact, count_apply_of_not_touches, degree_apply hp, if_neg]
    · exact h a c s
    · rintro ⟨-, -, ⟨hk, -⟩ | ⟨-, -, hc⟩⟩
      · cases hk
      · exact hbare c hc
    · rintro ⟨-, ⟨hg, -⟩ | ⟨hg, -⟩⟩ <;> cases hg
  · have hsame : apply db ⟨.service, a₀, p, e, isMatch⟩ = db := setLink_idle hidle
    rw [hsame]
    exact h

theorem checkCounted_services (h : CheckCounted access db) (hn : (xs.map Setting.target).Nodup)
    (hxs : ∀ x ∈ xs, x.kind = .service ∧ x.policy ∈ db.policies ∧
      (Unguarded db x.policy ∨ (x.entity ∈ db.links .service x.policy ↔ x.isMatch = true))) :
    CheckCounted access (xs.foldl apply db) := by
  induction xs generalizing db with
  | nil => exact h
  | cons x xs ih =>
    obtain ⟨hx, hn'⟩ := List.nodup_cons.mp hn
    obtain ⟨hk, hp, hmove⟩ := hxs x List.mem_cons_self
    refine ih (checkCounted_service h hk hp hmove) hn' ?_
    intro y hy
    obtain ⟨hky, hpy, hmovey⟩ := hxs y (List.mem_cons_of_mem _ hy)
    have hframe := setLink_frame (changeContext x.kind x.access) x.entity x.policy x.isMatch db
    refine ⟨hky, by rw [apply, hframe.1]; exact hpy, hmovey.imp ?_ ?_⟩
    · intro hbare c hc
      rw [mem_links_apply, if_neg] at hc
      · exact hbare c hc
      · intro heq
        have hkind : .postureCheck = x.kind := congrArg Prod.fst heq
        rw [hk] at hkind
        cases hkind
    · intro hidle
      rw [mem_links_apply, if_neg]
      · exact hidle
      · intro heq
        have htarget : y.target = x.target := by
          rw [← heq, ← hky]
          rfl
        exact hx (htarget ▸ List.mem_map_of_mem hy)

theorem checkCounted_others {scope : Kind → Id → Id → Prop} (h : CheckCounted access db)
    (hs : Settles scope access' db xs) (hkind : ∀ k p e, scope k p e → k ≠ .service)
    (hacc : ∀ k p e, scope k p e → access' p = access p) : CheckCounted access (xs.foldl apply db) := by
  refine hs.invariant h (fun d x hd hp _ hin ha a c s =>
    exact_apply ?_ hp (ha.trans (hacc _ _ _ hin)) (hd a c s))
  have hne := hkind _ _ _ hin
  cases hxk : x.kind with
  | identity => trivial
  | service => exact absurd hxk hne
  | postureCheck => exact fun hg => by cases hg

/-- The services that a policy is evaluated for keep their links, or the policy
has no posture checks. -/
def Steady (db : Db) (p : Id) (policy : ServicePolicy) : Prop :=
  Unguarded db p ∨ ∀ s attributes, (db.roleAttributes .service).lookup s = some attributes →
    (s ∈ db.links .service p ↔ Selects policy .service s attributes)

theorem checkCounted_rolesUpdated {t : PolicyType} (h : CheckCounted access db) (ht : access p = t.access)
    (hsteady : due .service = true → ∀ policy, db.policies.lookup p = some policy → Steady db p policy)
    (hr : rolesUpdated due t p db = .ok db') : CheckCounted access db' := by
  obtain ⟨d₁, d₂, h₁, h₂, h₃⟩ := rolesUpdated_ok hr
  obtain ⟨xs₁, s₁, rfl⟩ := when_settles h₁
  obtain ⟨xs₂, s₂, rfl⟩ := when_settles h₂
  obtain ⟨xs₃, s₃, rfl⟩ := when_settles h₃
  obtain ⟨hpols, hattrs⟩ := settle_frame xs₁ db
  have hother : ∀ k e, k ≠ .identity → (e ∈ (xs₁.foldl apply db).links k p ↔ e ∈ db.links k p) :=
    fun k e hk => s₁.others (fun hscope => hk hscope.2.1)
  refine checkCounted_others (checkCounted_services (checkCounted_others h s₁ ?_ ?_) s₂.nodup ?_) s₃ ?_ ?_
  · rintro k - e ⟨-, rfl, -⟩ hk
    cases hk
  · rintro k p' e ⟨-, -, rfl⟩
    exact ht.symm
  · intro x hx
    obtain ⟨hdue, hk, hxp⟩ := s₂.inside x hx
    obtain ⟨policy, attributes, hpol, he, hmatch⟩ := s₂.finds x hx
    refine ⟨hk, mem_of_lookup hpol, ?_⟩
    rw [hk] at he hmatch
    rw [hxp] at hpol ⊢
    rw [hpols] at hpol
    rw [hattrs] at he
    refine (hsteady hdue policy hpol).imp ?_ ?_
    · intro hbare c hc
      exact hbare c ((hother _ c (fun heq => by cases heq)).mp hc)
    · intro hkeeps
      rw [hother _ _ (fun heq => by cases heq), hkeeps _ _ he, hmatch]
  · rintro k - e ⟨-, rfl, -⟩ hk
    cases hk
  · rintro k p' e ⟨-, -, rfl⟩
    exact ht.symm

theorem checkCounted_setPolicy (h : CheckCounted access db)
    (hacc : ∀ q, q ≠ p → access' q = access q) (hp : (p ∈ db.policies ∧ access' p = access p) ∨ Bare db p) :
    CheckCounted access' (db.setPolicy p policy) :=
  checkCounted_congr h rfl (joins_setPolicy hacc hp _)

theorem checkCounted_write (policy : ServicePolicy) (h : CheckCounted access db)
    (hacc : ∀ q, q ≠ p → storedAccess db q = access q)
    (hp : (p ∈ db.policies ∧ policy.policyType.access = access p) ∨ Bare db p)
    (hsteady : due .service = true → Steady db p policy)
    (hr : rolesUpdated due policy.policyType p (db.setPolicy p policy) = .ok db') :
    CheckCounted (storedAccess db') db' := by
  have hself : storedAccess (db.setPolicy p policy) p = policy.policyType.access := by
    rw [storedAccess_setPolicy, if_pos rfl]
  rw [storedAccess_congr (rolesUpdated_policies hr)]
  refine checkCounted_rolesUpdated (checkCounted_setPolicy h ?_ ?_) hself ?_ hr
  · intro q hq
    rw [storedAccess_setPolicy, if_neg hq, hacc q hq]
  · rw [hself]
    exact hp
  · intro hdue stored hstored
    have hlook : (db.setPolicy p policy).policies.lookup p = some policy := AList.lookup_insert _
    cases hlook.symm.trans hstored
    exact hsteady hdue

theorem steady_empty (hroles : policy.roles .service = [])
    (h : Unguarded db p ∨ ∀ s, s ∉ db.links .service p) : Steady db p policy := by
  refine h.imp_right (fun hnone s attributes _ => ⟨fun hs => absurd hs (hnone s), fun hsel => ?_⟩)
  rcases roots_of_selects hsel with hr | ⟨r, hr⟩
  · rw [hroles] at hr
    cases hr
  · rw [hroles] at hr
    cases hr

/-- The links of services with a guarded policy stay as they are, through every
way in which an operation may move them. -/
def KeepsServices (db : Db) : Op → Prop
  | .updatePolicy checker p entity =>
    ∀ current, db.policies.lookup p = some current →
      if newPolicyType checker current entity = current.policyType then
        rolesChanged checker current entity .service = true → Steady db p (persistedPolicy checker current entity)
      else Unguarded db p ∨ ∀ s, s ∉ db.links .service p
  | .deletePolicy p => Unguarded db p ∨ ∀ s, s ∉ db.links .service p
  | .createEntity .service s attributes =>
    ∀ p policy, db.policies.lookup p = some policy →
      Unguarded db p ∨ ¬Selects policy .service s (stringList attributes)
  | .updateEntity .service s attributes =>
    (db.roleAttributes .service).lookup s ≠ some (stringList attributes) →
      ∀ p policy, db.policies.lookup p = some policy →
        Unguarded db p ∨ (s ∈ db.links .service p ↔ Selects policy .service s (stringList attributes))
  | .deleteEntity .service s =>
    ∀ p policy, db.policies.lookup p = some policy →
      Unguarded db p ∨ (s ∉ db.links .service p ∧ ¬Selects policy .service s [])
  | _ => True

section

variable (h : CheckCounted (storedAccess db) db)
include h

theorem checkCounted_updatePolicy {checker : FieldChecker} {entity : ServicePolicy}
    (hg : Grounded db) (hr : Rooted db)
    (hc : KeepsServices db (.updatePolicy checker p entity)) (hop : updatePolicy checker p entity db = .ok db') :
    CheckCounted (storedAccess db') db' := by
  obtain ⟨current, hcur, -, ⟨hne, hp⟩ | ⟨ht, hp⟩⟩ := updatePolicy_ok hop
  · have hkeeps := hc current hcur
    rw [if_neg hne] at hkeeps
    obtain ⟨d, h₁, h₂⟩ := persistTypeChange_ok hp
    have hd : CheckCounted (storedAccess db) d := by
      refine checkCounted_rolesUpdated (checkCounted_setPolicy h (fun _ _ => rfl)
        (.inl ⟨mem_of_lookup hcur, rfl⟩)) (storedAccess_eq hcur) ?_ h₁
      intro _ policy hpol
      have hlook := hpol
      rw [Db.setPolicy, AList.lookup_insert] at hlook
      cases hlook
      exact steady_empty rfl hkeeps
    have w := written h₁
    have hbare : Bare d p := by
      refine bare_of_rooted (rooted_written hr hg w ?_) w.lookup (fun _ => rfl)
      exact fun _ _ hdue => absurd hdue.symm Bool.false_ne_true
    refine checkCounted_write
      { persistedPolicy checker current entity with roles := restoredRoles checker current entity } hd ?_ (.inr hbare)
      (fun _ => .inl (hbare .postureCheck)) h₂
    intro q hq
    rw [storedAccess_congr (rolesUpdated_policies h₁), storedAccess_setPolicy, if_neg hq]
  · have hkeeps := hc current hcur
    rw [if_pos ht] at hkeeps
    refine checkCounted_write (persistedPolicy checker current entity) h (fun _ _ => rfl)
      (.inl ⟨mem_of_lookup hcur, ?_⟩) hkeeps hp
    rw [storedAccess_eq hcur, ← ht]
    rfl

theorem checkCounted_deletePolicy (hg : Grounded db) (hr : Rooted db)
    (hc : KeepsServices db (.deletePolicy p)) (hop : deletePolicy p db = .ok db') :
    CheckCounted (storedAccess db') db' := by
  obtain ⟨policy, d, hpol, rfl, ⟨rfl, hroles⟩ | hd⟩ := deletePolicy_ok hop
  · exact checkCounted_congr h rfl (joins_dropPolicy (bare_of_rooted hr hpol hroles) _)
  · have hrd := rooted_persistRoles hr hg (fun k e => hr p policy k e hpol) hd
    have hbare : Bare d p := bare_of_rooted hrd (persistRoles_written hd).lookup (fun k => rfl)
    have hcd : CheckCounted (storedAccess d) d :=
      checkCounted_write (persistedPolicy none policy (withoutRoles policy)) h (fun _ _ => rfl)
        (.inl ⟨mem_of_lookup hpol, (storedAccess_eq hpol).symm⟩) (fun _ => steady_empty rfl hc) hd
    exact checkCounted_congr hcd rfl (joins_dropPolicy hbare _)

omit h in
/-- Evaluating all policies against one entity keeps the counts of the checks,
if it moves no link of a service with a guarded policy. -/
theorem checkCounted_relatedRoles (attributes : List String) (h : CheckCounted (storedAccess db) db)
    (hkeeps : k = .service → ∀ p policy, db.policies.lookup p = some policy →
      Unguarded db p ∨ (e ∈ db.links .service p ↔ Selects policy .service e (stringList attributes)))
    (hr : updateServicePolicyRelatedRoles k e (stringList attributes) (setEntity k e attributes db) = .ok db') :
    CheckCounted (storedAccess db') db' := by
  have hlook : ((setEntity k e attributes db).roleAttributes k).lookup e = some (stringList attributes) := by
    rw [lookup_setEntity, if_pos ⟨rfl, rfl⟩]
  obtain ⟨xs, hs, rfl⟩ := relatedRoles_settles hlook hr
  rw [storedAccess_congr (settle_frame xs _).1]
  have hset : CheckCounted (storedAccess (setEntity k e attributes db)) (setEntity k e attributes db) := h
  by_cases hk : k = .service
  · subst hk
    refine checkCounted_services hset hs.nodup ?_
    intro x hx
    obtain ⟨hxk, hxe⟩ := hs.inside x hx
    obtain ⟨policy, attributes', hpol, he, hmatch⟩ := hs.finds x hx
    refine ⟨hxk, mem_of_lookup hpol, ?_⟩
    rw [hxk, hxe] at he hmatch
    cases hlook.symm.trans he
    rw [hxe, hmatch]
    exact hkeeps rfl x.policy policy hpol
  · refine checkCounted_others hset hs ?_ (fun _ _ _ _ => rfl)
    rintro k' p - ⟨rfl, -⟩
    exact hk

theorem checkCounted_dropEntity (hkeeps : k = .service → ∀ p, Unguarded db p ∨ e ∉ db.links .service p) :
    CheckCounted (storedAccess (dropEntity k e db)) (dropEntity k e db) := by
  rw [storedAccess_congr dropEntity_policies]
  intro a c s
  have hexact := h a c s
  cases k with
  | identity =>
    refine exact_dropEntity_other hexact (fun hc => by cases hc.1) (fun hc => by cases hc.1) ?_
    rintro (⟨hg, -⟩ | ⟨hg, -⟩) <;> cases hg
  | service =>
    rw [Exact, count_dropEntity, if_neg, hexact]
    · apply (degree_congr _).symm
      intro p
      rw [dropEntity_policies, joins_dropEntity]
      refine and_congr_right fun _ => ⟨fun hj => hj.2.2, fun hj => ⟨?_, ?_, hj⟩⟩
      · rintro ⟨hk, -⟩
        cases hk
      · rintro ⟨-, rfl⟩
        exact (hkeeps rfl p).elim (fun hbare => hbare c hj.2.1) (fun hnot => hnot hj.2.2)
    · rintro (⟨hg, -⟩ | ⟨hg, -⟩) <;> cases hg
  | postureCheck =>
    by_cases hc : c = e
    · exact exact_dropEntity_self (.inl ⟨rfl, hc⟩) (absurd (.inl ⟨rfl, hc⟩))
    · refine exact_dropEntity_other hexact (fun h => hc h.2) (fun h => by cases h.1) ?_
      rintro (⟨-, h⟩ | ⟨hg, -⟩)
      · exact hc h
      · cases hg

omit h in
/-- A service that is linked to no guarded policy is named by none of the
references that its deletion removes from them. -/
theorem keeps_deleteEntityReferences (hc : KeepsServices db (.deleteEntity .service e))
    (hp : (deleteEntityReferences .service e db).policies.lookup p = some policy) :
    Unguarded db p ∨ (e ∉ db.links .service p ∧ ¬Selects policy .service e []) := by
  rw [lookup_deleteEntityReferences] at hp
  obtain ⟨stored, hstored, rfl⟩ := Option.map_eq_some_iff.mp hp
  refine (hc p stored hstored).imp_right (fun ⟨hnot, hsel⟩ => ⟨hnot, ?_⟩)
  rw [if_neg hnot]
  exact hsel

theorem checkCounted_deleteEntity (hg : Grounded db)
    (hc : KeepsServices db (.deleteEntity k e)) (hop : deleteEntity k e db = .ok db') :
    CheckCounted (storedAccess db') db' := by
  obtain ⟨attributes, d, -, rfl, hd⟩ := deleteEntity_ok hop
  have hrefs : CheckCounted (storedAccess (deleteEntityReferences k e db)) (deleteEntityReferences k e db) :=
    checkCounted_congr h rfl (joins_deleteEntityReferences k e _)
  have hgrefs := grounded_deleteEntityReferences hg k e
  rcases hd with ⟨-, rfl⟩ | ⟨-, hr⟩
  · apply checkCounted_dropEntity hrefs
    rintro rfl p
    by_cases hlinked : e ∈ db.links .service p
    · obtain ⟨policy, hpol⟩ := mem_iff_lookup.mp (hgrefs .service p e hlinked).1
      exact (keeps_deleteEntityReferences hc hpol).imp_right And.left
    · exact .inr hlinked
  · have hd : CheckCounted (storedAccess d) d := by
      refine checkCounted_relatedRoles [] hrefs ?_ hr
      rintro rfl p policy hpol
      refine (keeps_deleteEntityReferences hc hpol).imp_right (fun ⟨hnot, hsel⟩ => ?_)
      exact ⟨fun hlinked => absurd hlinked hnot, fun hselects => absurd hselects hsel⟩
    apply checkCounted_dropEntity hd
    rintro rfl p
    by_cases hlinked : e ∈ d.links .service p
    · have hgd := grounded_relatedRoles hgrefs [] hr
      obtain ⟨policy, hpol⟩ := mem_iff_lookup.mp (hgd .service p e hlinked).1
      have hlook : ((setEntity .service e [] (deleteEntityReferences .service e db)).roleAttributes .service).lookup e =
          some [] := by
        rw [lookup_setEntity, if_pos ⟨rfl, rfl⟩]
        rfl
      obtain ⟨xs, hs, rfl⟩ := relatedRoles_settles hlook hr
      rw [(settle_frame xs _).1] at hpol
      refine .inl (fun c hcheck => ?_)
      rw [hs.others (fun hscope => by cases hscope.1)] at hcheck
      rcases keeps_deleteEntityReferences hc hpol with hbare | ⟨-, hsel⟩
      · exact hbare c hcheck
      · exact hsel ((hs.selected ⟨rfl, rfl⟩ hpol hlook).mp hlinked)
    · exact .inr hlinked

theorem checkCounted_perform {op : Op} (hg : Grounded db) (hr : Rooted db)
    (hc : KeepsServices db op) (hop : perform db op = .ok db') : CheckCounted (storedAccess db') db' := by
  cases op with
  | createPolicy p entity =>
    obtain ⟨hnew, -, hp⟩ := createPolicy_ok hop
    have hbare : Bare db p := fun k e hmem => hnew (hg k p e hmem).1
    exact checkCounted_write (persistedPolicy none unset entity) h (fun _ _ => rfl) (.inr hbare)
      (fun _ => .inl (hbare .postureCheck)) hp
  | updatePolicy checker p entity => exact checkCounted_updatePolicy h hg hr hc hop
  | deletePolicy p => exact checkCounted_deletePolicy h hg hr hc hop
  | createEntity k e attributes =>
    obtain ⟨hnew, hrel⟩ := createEntity_ok hop
    refine checkCounted_relatedRoles attributes h ?_ hrel
    rintro rfl p policy hpol
    refine (hc p policy hpol).imp_right (fun hsel => ?_)
    exact ⟨fun hlinked => absurd (hg .service p e hlinked).2 hnew, fun hselects => absurd hselects hsel⟩
  | updateEntity k e attributes =>
    obtain ⟨current, hcur, ⟨-, rfl⟩ | ⟨hne, hrel⟩⟩ := updateEntity_ok hop
    · exact h
    · refine checkCounted_relatedRoles attributes h ?_ hrel
      rintro rfl
      refine hc (fun hsame => hne ?_)
      exact Option.some.inj (hcur.symm.trans hsame).symm
  | deleteEntity k e => exact checkCounted_deleteEntity h hg hc hop

end

theorem checkCounted_run {ops : List Op} (h : Meets KeepsServices commit empty ops) :
    CheckCounted (storedAccess (ops.foldl commit empty)) (ops.foldl commit empty) ∧
      Typed (ops.foldl commit empty) := by
  have hinv := h.invariant
    (fun db => CheckCounted (storedAccess db) db ∧ Grounded db ∧ Rooted db ∧ Typed db) ?_
    ⟨fun _ _ _ => rfl, grounded_empty, rooted_empty, typed_empty⟩
  · exact ⟨hinv.1, hinv.2.2.2⟩
  · rintro db op ⟨hc, hg, hr, ht⟩ hop
    exact commit_invariant (fun db => CheckCounted (storedAccess db) db ∧ Grounded db ∧ Rooted db ∧ Typed db)
      ⟨hc, hg, hr, ht⟩ (fun db' hok =>
        ⟨checkCounted_perform hc hg hr hop hok, grounded_perform hg hok, rooted_perform hr hg hok, typed_perform ht hok⟩)

theorem mem_addServiceUpdatedEvent {s : Id} {event : ServiceEvent} : event ∈ addServiceUpdatedEvent db s ↔
    event.serviceId = s ∧ ∃ a, 0 < (db.counts a .serviceIdentities s).count event.identityId := by
  obtain ⟨x, -⟩ := event
  simp only [addServiceUpdatedEvent, List.mem_map, List.mem_append, RefCounts.mem_keys, ServiceEvent.mk.injEq]
  constructor
  · rintro ⟨y, hy, rfl, rfl⟩
    exact ⟨rfl, hy.elim (fun h => ⟨.bind, h⟩) (fun h => ⟨.dial, h⟩)⟩
  · rintro ⟨rfl, a, ha⟩
    refine ⟨x, ?_, rfl, rfl⟩
    cases a with
    | dial => exact .inr ha
    | bind => exact .inl ha

/-- As long as no service joins or leaves a policy that has posture checks, the
counts of the checks are the numbers of policies, and a change of a check is
announced to the recorded users of just the services it guards. -/
theorem check_service_counts_exact (ops : List Op) (h : Meets KeepsServices commit empty ops) (db : Db)
    (hdb : db = ops.foldl commit empty) (c s : Id) :
    (∀ a, (db.counts a .postureCheckServices c).count s = (linkedPolicies db .postureCheck a c s).length) ∧
      ∀ event : ServiceEvent, event ∈ createServiceChangeEvents db c ↔
        (∃ p policy, db.policies.lookup p = some policy ∧ c ∈ db.links .postureCheck p ∧
          event.serviceId ∈ db.links .service p) ∧
        ∃ a, 0 < (db.counts a .serviceIdentities event.serviceId).count event.identityId := by
  obtain ⟨hc, ht⟩ := checkCounted_run h
  rw [← hdb] at hc ht
  have hcount : ∀ a s, (db.counts a .postureCheckServices c).count s =
      (linkedPolicies db .postureCheck a c s).length := by
    intro a s
    rw [length_linkedPolicies ht (g := .postureCheckServices) rfl]
    exact hc a c s
  refine ⟨fun a => hcount a s, fun event => ?_⟩
  simp only [createServiceChangeEvents, List.mem_flatMap, List.mem_append, RefCounts.mem_keys, hcount,
    linkedPolicies_pos, mem_addServiceUpdatedEvent]
  constructor
  · rintro ⟨-, ⟨p, policy, hp, -, hlinks⟩ | ⟨p, policy, hp, -, hlinks⟩, rfl, huser⟩
    · exact ⟨⟨p, policy, hp, hlinks⟩, huser⟩
    · exact ⟨⟨p, policy, hp, hlinks⟩, huser⟩
  · rintro ⟨⟨p, policy, hp, hlinks⟩, huser⟩
    refine ⟨event.serviceId, ?_, rfl, huser⟩
    cases hpt : policy.policyType with
    | invalid => exact absurd hpt (ht p policy hp)
    | dial => exact .inr ⟨p, policy, hp, hpt, hlinks⟩
    | bind => exact .inl ⟨p, policy, hp, hpt, hlinks⟩

def guardedPolicy (services postureChecks : List String) : ServicePolicy :=
  ⟨.dial, "AnyOf", fun
    | .identity => ["@ann"]
    | .service => services
    | .postureCheck => postureChecks⟩

def guarding : List Op :=
  [.createEntity .service "web" [], .createEntity .postureCheck "mfa" [], .createEntity .identity "ann" [],
    .createPolicy "p" (guardedPolicy ["@web"] []),
    .updatePolicy (some (fun field => field = .roles .postureCheck)) "p" (guardedPolicy [] ["@mfa"])]

theorem check_service_counts_exact_after_guarding : Meets KeepsServices commit empty guarding ∧
    ((guarding.foldl commit empty).counts .dial .postureCheckServices "mfa").count "web" =
      (linkedPolicies (guarding.foldl commit empty) .postureCheck .dial "mfa" "web").length ∧
    (⟨"ann", "web"⟩ : ServiceEvent) ∈ createServiceChangeEvents (guarding.foldl commit empty) "mfa" := by
  have h : Meets KeepsServices commit empty guarding := by
    refine ⟨fun p policy hp => ?_, trivial, trivial, trivial, fun current hcurrent => ?_, trivial⟩
    · cases hp
    · refine if_pos ?_ ▸ fun hdue => absurd hdue Bool.false_ne_true
      rfl
  have hmain := check_service_counts_exact guarding h _ rfl "mfa" "web"
  exact ⟨h, hmain.1 .dial, by decide⟩

/-- A service that joins a policy with a posture check is not counted for the
check, and its users do not hear of changes of the check. -/
theorem joining_service_not_counted :
    ∃ ops : List Op, (linkedPolicies (ops.foldl commit empty) .postureCheck .dial "mfa" "web").length = 1 ∧
      ((ops.foldl commit empty).counts .dial .postureCheckServices "mfa").count "web" = 0 ∧
      isDialableByIdentity (ops.foldl commit empty) "web" "ann" = true ∧
      createServiceChangeEvents (ops.foldl commit empty) "mfa" = [] := by
  refine ⟨[.createEntity .service "web" [], .createEntity .postureCheck "mfa" [], .createEntity .identity "ann" [],
    .createPolicy "p" (guardedPolicy [] ["@mfa"]),
    .updatePolicy (some (fun field => field = .roles .service)) "p" (guardedPolicy ["@web"] [])], ?_⟩
  decide

end Zt.CheckCounts
