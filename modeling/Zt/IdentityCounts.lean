import Zt.PolicyCounts

namespace Zt.IdentityCounts

open EdgeCtrl (Id)
open Tables PolicyStore PolicyLinks PolicyMembership PolicyCounts Runs
open Db (empty)

/-- The counts between identities and services are exact on both sides. A
service's side also holds posture checks, for which there is only a bound. -/
structure Counted (access : Id → Access) (db : Db) : Prop where
  grounded : Grounded db
  apart : ∀ x, x ∈ db.roleAttributes .identity → x ∉ db.roleAttributes .postureCheck
  identities : ∀ a i s, Exact access db .identityServices a i s
  services : ∀ a s i, i ∉ db.roleAttributes .postureCheck → Exact access db .serviceIdentities a s i
  checks : ∀ a s c, c ∈ db.roleAttributes .postureCheck →
    count db a .serviceIdentities s c ≤ count db a .postureCheckServices c s

theorem moved_le {isMatch : Bool} {m n : Nat} (h : m ≤ n) : moved isMatch m ≤ moved isMatch n := by
  cases isMatch with
  | true => exact Nat.succ_le_succ h
  | false => exact Nat.sub_le_sub_right h 1

variable {db db' : Db} {x : Setting} {access access' : Id → Access} {p e : Id} {k : Kind} {a : Access}
  {due : Kind → Bool} {checker : FieldChecker}

section

variable (h : Counted access db)
include h

theorem services_apply (hp : x.policy ∈ db.policies)
    (he : x.entity ∈ db.roleAttributes x.kind) (ha : x.access = access x.policy) {s i : Id}
    (hi : i ∉ db.roleAttributes .postureCheck) : Exact access (x.apply db) .serviceIdentities a s i := by
  have hexact := h.services a s i hi
  obtain ⟨k, a₀, p, e, isMatch⟩ := x
  cases k with
  | identity => exact exact_apply trivial hp ha hexact
  | service => exact exact_apply (fun hg => by cases hg) hp ha hexact
  | postureCheck =>
    rw [Exact, count_apply_of_not_touches, degree_apply hp, if_neg]
    · exact hexact
    · rintro ⟨-, -, ⟨hk, -⟩ | ⟨hk, -⟩⟩ <;> cases hk
    · rintro ⟨-, ⟨hg, -⟩ | ⟨-, rfl, -⟩⟩
      · cases hg
      · exact hi he

theorem checks_apply (he : x.entity ∈ db.roleAttributes x.kind) {s c : Id}
    (hc : c ∈ db.roleAttributes .postureCheck) :
    count (x.apply db) a .serviceIdentities s c ≤ count (x.apply db) a .postureCheckServices c s := by
  have hbound := h.checks a s c hc
  obtain ⟨k, a₀, p, e, isMatch⟩ := x
  cases k with
  | identity =>
    rw [count_apply_of_not_touches, count_apply_of_not_touches]
    · exact hbound
    · rintro ⟨-, ⟨hg, -⟩ | ⟨hg, -⟩⟩ <;> cases hg
    · rintro ⟨-, ⟨hg, -⟩ | ⟨-, rfl, -⟩⟩
      · cases hg
      · exact h.apart _ he hc
  | service =>
    rw [count_apply_of_not_touches, count_apply_of_not_touches]
    · exact hbound
    · rintro ⟨-, ⟨hg, -⟩ | ⟨hg, -⟩⟩ <;> cases hg
    · rintro ⟨-, ⟨-, -, hlinked⟩ | ⟨hg, -⟩⟩
      · exact h.apart c (h.grounded .identity p c (AList.mem_keys.mpr hlinked)).2 hc
      · cases hg
  | postureCheck =>
    -- the two entries are the two sides of one link of the collection
    have hsame : Touches (changeContext .postureCheck a₀).denormLinkCollection e
          (db.links (changeContext .postureCheck a₀).relatedLinkCollection p).keys a .serviceIdentities s c ↔
        Touches (changeContext .postureCheck a₀).denormLinkCollection e
          (db.links (changeContext .postureCheck a₀).relatedLinkCollection p).keys a .postureCheckServices c s := by
      simp [Touches, changeContext, postureCheckServices]
    rw [Setting.apply, count_setLink, count_setLink]
    simp only [hsame]
    split
    · exact moved_le hbound
    · exact hbound

theorem counted_apply (hp : x.policy ∈ db.policies) (he : x.entity ∈ db.roleAttributes x.kind)
    (ha : x.access = access x.policy) : Counted access (x.apply db) := by
  have hattrs : (x.apply db).roleAttributes = db.roleAttributes :=
    (setLink_frame (changeContext x.kind x.access) x.entity x.policy x.isMatch db).2
  refine ⟨?_, ?_, ?_, ?_, ?_⟩
  · exact grounded_apply h.grounded hp he
  · rw [hattrs]
    exact h.apart
  · intro a i s
    apply exact_apply _ hp ha (h.identities a i s)
    cases x.kind with
    | identity => trivial
    | service => exact fun hg => by cases hg
    | postureCheck => exact fun hg => by cases hg
  · intro a s i hi
    rw [hattrs] at hi
    exact services_apply h hp he ha hi
  · intro a s c hc
    rw [hattrs] at hc
    exact checks_apply h he hc

theorem counted_settles {scope : Kind → Id → Id → Prop} {xs : List Setting}
    (hs : Settles scope access' db xs) (hacc : ∀ k p e, scope k p e → access' p = access p) :
    Counted access (xs.foldl Setting.apply db) :=
  hs.invariant h (fun _ _ hd hp he hin ha => counted_apply hd hp he (ha.trans (hacc _ _ _ hin)))

/-- Changes around the counts that leave the policies with links, the accounting
of their accesses and the ids of the entities as they were. -/
theorem Counted.congr (hg : Grounded db') (hcounts : db'.counts = db.counts)
    (hattrs : ∀ k x, x ∈ db'.roleAttributes k ↔ x ∈ db.roleAttributes k)
    (hjoins : ∀ g a u v p, (p ∈ db'.policies ∧ Joins db' access' g a u v p) ↔
      (p ∈ db.policies ∧ Joins db access g a u v p)) : Counted access' db' := by
  have hcount : ∀ a g u v, count db' a g u v = count db a g u v := by
    intro a g u v
    rw [count, hcounts, count]
  refine ⟨hg, ?_, ?_, ?_, ?_⟩
  · intro x hx hx'
    exact h.apart x ((hattrs _ _).mp hx) ((hattrs _ _).mp hx')
  · intro a i s
    rw [Exact, hcount, degree_congr (hjoins _ a i s)]
    exact h.identities a i s
  · intro a s i hi
    rw [Exact, hcount, degree_congr (hjoins _ a s i)]
    exact h.services a s i (fun hc => hi ((hattrs _ _).mpr hc))
  · intro a s c hc
    rw [hcount, hcount]
    exact h.checks a s c ((hattrs _ _).mp hc)

theorem counted_setPolicy {policy : ServicePolicy}
    (hacc : ∀ q, q ≠ p → access' q = access q) (hp : (p ∈ db.policies ∧ access' p = access p) ∨ Bare db p) :
    Counted access' (db.setPolicy p policy) :=
  h.congr (grounded_setPolicy h.grounded) rfl (fun _ _ => .rfl) (joins_setPolicy hacc hp)

end

theorem counted_rolesUpdated {t : PolicyType} (h : Counted access db) (ht : access p = t.access)
    (hr : rolesUpdated due t p db = .ok db') : Counted access db' := by
  obtain ⟨xs, hs, rfl⟩ := rolesUpdated_settles hr
  apply counted_settles h hs
  rintro k p' e ⟨-, rfl⟩
  exact ht.symm

theorem counted_write (policy : ServicePolicy) (h : Counted access db)
    (hacc : ∀ q, q ≠ p → storedAccess db q = access q)
    (hp : (p ∈ db.policies ∧ policy.policyType.access = access p) ∨ Bare db p)
    (hr : rolesUpdated due policy.policyType p (db.setPolicy p policy) = .ok db') : Counted (storedAccess db') db' := by
  rw [storedAccess_congr (rolesUpdated_policies hr)]
  refine counted_rolesUpdated (counted_setPolicy h ?_ ?_) ?_ hr
  · intro q hq
    rw [storedAccess_setPolicy, if_neg hq, hacc q hq]
  · rw [storedAccess_setPolicy, if_pos rfl]
    exact hp
  · rw [storedAccess_setPolicy, if_pos rfl]

section

variable (h : Counted (storedAccess db) db)
include h

theorem counted_persistRoles {current entity : ServicePolicy} (hcur : db.policies.lookup p = some current)
    (ht : newPolicyType checker current entity = current.policyType)
    (hp : persistRoles checker p current entity db = .ok db') : Counted (storedAccess db') db' := by
  refine counted_write (persistedPolicy checker current entity) h (fun _ _ => rfl) (.inl ⟨mem_of_lookup hcur, ?_⟩) hp
  rw [storedAccess_eq hcur, ← ht]
  rfl

theorem counted_persistTypeChange {current entity : ServicePolicy}
    (hr : Rooted db) (hcur : db.policies.lookup p = some current)
    (hp : persistTypeChange checker p current entity db = .ok db') : Counted (storedAccess db') db' := by
  obtain ⟨d, h₁, h₂⟩ := persistTypeChange_ok hp
  have hd : Counted (storedAccess db) d :=
    counted_rolesUpdated (counted_setPolicy h (fun _ _ => rfl) (.inl ⟨mem_of_lookup hcur, rfl⟩))
      (storedAccess_eq hcur) h₁
  have w := written h₁
  have hbare : Bare d p := by
    refine bare_of_rooted (rooted_written hr h.grounded w ?_) w.lookup (fun _ => rfl)
    exact fun _ _ hdue => absurd hdue.symm Bool.false_ne_true
  refine counted_write { persistedPolicy checker current entity with roles := restoredRoles checker current entity } hd
    ?_ (.inr hbare) h₂
  intro q hq
  rw [storedAccess_congr (rolesUpdated_policies h₁), storedAccess_setPolicy, if_neg hq]

theorem counted_dropPolicy (hbare : Bare db p) : Counted (storedAccess (dropPolicy p db)) (dropPolicy p db) :=
  h.congr (grounded_dropPolicy h.grounded) rfl (fun _ _ => .rfl) (joins_dropPolicy hbare)

theorem counted_deletePolicy (hr : Rooted db) (hp : deletePolicy p db = .ok db') :
    Counted (storedAccess db') db' := by
  obtain ⟨policy, d, hpol, rfl, ⟨rfl, hroles⟩ | hd⟩ := deletePolicy_ok hp
  · exact counted_dropPolicy h (bare_of_rooted hr hpol hroles)
  · apply counted_dropPolicy (counted_persistRoles h hpol rfl hd)
    have hrd := rooted_persistRoles hr h.grounded (fun k e => hr p policy k e hpol) hd
    exact bare_of_rooted hrd (persistRoles_written hd).lookup (fun k => rfl)

end

section

variable (h : Counted access db)
include h

/-- Something that is no identity is linked as one by no policy. -/
theorem services_count_zero {x : Id} (hcheck : x ∉ db.roleAttributes .postureCheck)
    (hident : x ∉ db.roleAttributes .identity) (a : Access) (s : Id) : count db a .serviceIdentities s x = 0 := by
  rw [h.services a s x hcheck]
  apply degree_zero
  exact fun p hj => hident (h.grounded .identity p x hj.2.2).2

theorem counted_setEntity (attributes : List String) (hident : k = .identity → e ∉ db.roleAttributes .postureCheck)
    (hcheck : k = .postureCheck → e ∉ db.roleAttributes .identity) : Counted access (setEntity k e attributes db) := by
  refine ⟨grounded_setEntity h.grounded, ?_, h.identities, ?_, ?_⟩
  · intro x hx hx'
    rw [mem_setEntity] at hx hx'
    rcases hx with ⟨rfl, rfl⟩ | hx
    · rcases hx' with ⟨hk, -⟩ | hx'
      · cases hk
      · exact hident rfl hx'
    · rcases hx' with ⟨rfl, rfl⟩ | hx'
      · exact hcheck rfl hx
      · exact h.apart x hx hx'
  · intro a s i hi
    exact h.services a s i (fun hc => hi ((mem_setEntity ..).mpr (.inr hc)))
  · intro a s c hc
    by_cases hold : c ∈ db.roleAttributes .postureCheck
    · exact h.checks a s c hold
    · rcases (mem_setEntity ..).mp hc with ⟨rfl, rfl⟩ | hc
      · have hzero := services_count_zero h hold (hcheck rfl) a s
        exact hzero.le.trans (Nat.zero_le _)
      · exact absurd hc hold

omit h in
theorem counted_relatedRoles (attributes : List String) (h : Counted (storedAccess db) (setEntity k e attributes db))
    (hr : updateServicePolicyRelatedRoles k e (stringList attributes) (setEntity k e attributes db) = .ok db') :
    Counted (storedAccess db') db' := by
  obtain ⟨xs, hs, rfl⟩ := relatedRoles_settles (by rw [lookup_setEntity, if_pos ⟨rfl, rfl⟩]) hr
  rw [storedAccess_congr (settle_frame xs _).1]
  exact counted_settles h hs (fun _ _ _ _ => rfl)

omit h in
theorem counted_deleteEntityReferences (h : Counted (storedAccess db) db) (k : Kind) (e : Id) :
    Counted (storedAccess (deleteEntityReferences k e db)) (deleteEntityReferences k e db) :=
  h.congr (grounded_deleteEntityReferences h.grounded k e) rfl (fun _ _ => .rfl)
    (joins_deleteEntityReferences k e)

omit h in
theorem degree_comm (access : Id → Access) {i s : Id} :
    degree db access .serviceIdentities a s i = degree db access .identityServices a i s := by
  apply List.countP_congr
  intro p _
  rw [decide_eq_true_eq, decide_eq_true_eq]
  exact and_congr_right' and_comm

/-- Both sides have the entry of a pair or neither has. -/
theorem count_swap {i : Id} {s : Id} (hi : i ∉ db.roleAttributes .postureCheck) :
    count db a .serviceIdentities s i = count db a .identityServices i s := by
  rw [h.services a s i hi, h.identities a i s, degree_comm]

theorem identities_dropEntity (a : Access) (i s : Id) : Exact access (dropEntity k e db) .identityServices a i s := by
  have hexact := h.identities a i s
  cases k with
  | identity =>
    by_cases hi : i = e
    · exact exact_dropEntity_self (.inl ⟨rfl, hi⟩) (absurd (.inl ⟨rfl, hi⟩))
    · refine exact_dropEntity_other hexact (fun hc => hi hc.2) (fun hc => by cases hc.1) ?_
      rintro (⟨-, hc⟩ | ⟨hg, -⟩)
      · exact hi hc
      · cases hg
  | service =>
    by_cases hs : s = e
    · subst hs
      refine exact_dropEntity_self (.inr ⟨rfl, rfl⟩) (fun hnot => ?_)
      -- what the service's own side does not have is no link of an identity
      by_cases hi : i ∈ db.roleAttributes .postureCheck
      · rw [hexact]
        exact degree_zero (fun p hj => h.apart i (h.grounded .identity p i hj.2.1).2 hi)
      · rw [← count_swap h hi]
        exact Nat.eq_zero_of_not_pos (fun hpos => hnot (.inr ⟨rfl, rfl, hpos⟩))
    · refine exact_dropEntity_other hexact (fun hc => by cases hc.1) (fun hc => hs hc.2) ?_
      rintro (⟨hg, -⟩ | ⟨-, hc, -⟩)
      · cases hg
      · exact hs hc
  | postureCheck =>
    refine exact_dropEntity_other hexact (fun hc => by cases hc.1) (fun hc => by cases hc.1) ?_
    rintro (⟨hg, -⟩ | ⟨hg, -⟩) <;> cases hg

theorem services_dropEntity (he : e ∈ db.roleAttributes k) (a : Access) (s i : Id)
    (hi : i ∉ (dropEntity k e db).roleAttributes .postureCheck) :
    Exact access (dropEntity k e db) .serviceIdentities a s i := by
  rw [mem_dropEntity, not_and_or, not_not] at hi
  cases k with
  | identity =>
    have hi' : i ∉ db.roleAttributes .postureCheck := hi.resolve_left (fun hc => by cases hc.1)
    by_cases hie : i = e
    · subst hie
      refine exact_dropEntity_self (.inr ⟨rfl, rfl⟩) (fun hnot => ?_)
      rw [count_swap h hi']
      exact Nat.eq_zero_of_not_pos (fun hpos => hnot (.inr ⟨rfl, rfl, hpos⟩))
    · refine exact_dropEntity_other (h.services a s i hi') (fun hc => by cases hc.1) (fun hc => hie hc.2) ?_
      rintro (⟨hg, -⟩ | ⟨-, hc, -⟩)
      · cases hg
      · exact hie hc
  | service =>
    have hi' : i ∉ db.roleAttributes .postureCheck := hi.resolve_left (fun hc => by cases hc.1)
    by_cases hs : s = e
    · exact exact_dropEntity_self (.inl ⟨rfl, hs⟩) (absurd (.inl ⟨rfl, hs⟩))
    · refine exact_dropEntity_other (h.services a s i hi') (fun hc => hs hc.2) (fun hc => by cases hc.1) ?_
      rintro (⟨-, hc⟩ | ⟨hg, -⟩)
      · exact hs hc
      · cases hg
  | postureCheck =>
    by_cases hie : i = e
    · subst hie
      have hzero : degree db access .serviceIdentities a s i = 0 :=
        degree_zero (fun p hj => h.apart i (h.grounded .identity p i hj.2.2).2 he)
      rw [Exact, count_dropEntity, degree_dropEntity (fun hc => by cases hc.1) (fun hc => by cases hc.1), hzero]
      split
      · rfl
      · rename_i hnot
        have hown : count db a .postureCheckServices i s = 0 :=
          Nat.eq_zero_of_not_pos (fun hpos => hnot (.inr ⟨rfl, rfl, hpos⟩))
        exact Nat.le_zero.mp (hown ▸ h.checks a s i he)
    · refine exact_dropEntity_other (h.services a s i (hi.resolve_left (fun hc => hie hc.2)))
        (fun hc => by cases hc.1) (fun hc => by cases hc.1) ?_
      rintro (⟨hg, -⟩ | ⟨-, hc, -⟩)
      · cases hg
      · exact hie hc

theorem checks_dropEntity (k : Kind) (e : Id) (a : Access) (s c : Id)
    (hc : c ∈ (dropEntity k e db).roleAttributes .postureCheck) :
    count (dropEntity k e db) a .serviceIdentities s c ≤ count (dropEntity k e db) a .postureCheckServices c s := by
  rw [mem_dropEntity] at hc
  have hown : count (dropEntity k e db) a .postureCheckServices c s = count db a .postureCheckServices c s := by
    rw [count_dropEntity, if_neg]
    cases k with
    | identity => rintro (⟨hg, -⟩ | ⟨hg, -⟩) <;> cases hg
    | service => rintro (⟨hg, -⟩ | ⟨hg, -⟩) <;> cases hg
    | postureCheck =>
      rintro (⟨-, hce⟩ | ⟨hg, -⟩)
      · exact hc.1 ⟨rfl, hce⟩
      · cases hg
  rw [hown, count_dropEntity]
  split
  · exact Nat.zero_le _
  · exact h.checks a s c hc.2

end

theorem counted_dropEntity (h : Counted (storedAccess db) db) (he : e ∈ db.roleAttributes k) :
    Counted (storedAccess (dropEntity k e db)) (dropEntity k e db) := by
  rw [storedAccess_congr dropEntity_policies]
  refine ⟨grounded_dropEntity h.grounded, ?_, identities_dropEntity h, services_dropEntity h he,
    checks_dropEntity h k e⟩
  intro x hx hx'
  exact h.apart x ((mem_dropEntity ..).mp hx).2 ((mem_dropEntity ..).mp hx').2

/-- No id belongs to an identity and to a posture check. -/
def Apart (db : Db) : Op → Prop
  | .createEntity .identity e _ => e ∉ db.roleAttributes .postureCheck
  | .createEntity .postureCheck e _ => e ∉ db.roleAttributes .identity
  | _ => True

instance (db : Db) : ∀ op, Decidable (Apart db op)
  | .createEntity .identity e _ => inferInstanceAs (Decidable (e ∉ db.roleAttributes .postureCheck))
  | .createEntity .postureCheck e _ => inferInstanceAs (Decidable (e ∉ db.roleAttributes .identity))
  | .createEntity .service _ _ => isTrue trivial
  | .createPolicy _ _ => isTrue trivial
  | .updatePolicy _ _ _ => isTrue trivial
  | .deletePolicy _ => isTrue trivial
  | .updateEntity _ _ _ => isTrue trivial
  | .deleteEntity _ _ => isTrue trivial

theorem apart_existing (h : Counted access db) (he : e ∈ db.roleAttributes k) :
    (k = .identity → e ∉ db.roleAttributes .postureCheck) ∧ (k = .postureCheck → e ∉ db.roleAttributes .identity) := by
  constructor
  · rintro rfl
    exact h.apart e he
  · rintro rfl hident
    exact h.apart e hident he

theorem counted_deleteEntity (h : Counted (storedAccess db) db) (hop : deleteEntity k e db = .ok db') :
    Counted (storedAccess db') db' := by
  obtain ⟨attributes, d, hlook, rfl, hd⟩ := deleteEntity_ok hop
  have hrefs := counted_deleteEntityReferences h k e
  have he : e ∈ (deleteEntityReferences k e db).roleAttributes k := mem_of_lookup hlook
  rcases hd with ⟨-, rfl⟩ | ⟨-, hr⟩
  · exact counted_dropEntity hrefs he
  · obtain ⟨h₁, h₂⟩ := apart_existing hrefs he
    apply counted_dropEntity (counted_relatedRoles [] (counted_setEntity hrefs [] h₁ h₂) hr)
    obtain ⟨xs, -, rfl⟩ := relatedRoles_settles (by rw [lookup_setEntity, if_pos ⟨rfl, rfl⟩]; rfl) hr
    rw [(settle_frame xs _).2, mem_setEntity]
    exact .inl ⟨rfl, rfl⟩

theorem counted_perform {op : Op} (h : Counted (storedAccess db) db) (hr : Rooted db) (hc : Apart db op)
    (hop : perform db op = .ok db') : Counted (storedAccess db') db' := by
  cases op with
  | createPolicy p entity =>
    obtain ⟨hnew, -, hp⟩ := createPolicy_ok hop
    refine counted_write (persistedPolicy none unset entity) h (fun _ _ => rfl) (.inr ?_) hp
    exact fun k e hmem => hnew (h.grounded k p e hmem).1
  | updatePolicy checker p entity =>
    obtain ⟨current, hcur, -, ⟨-, hp⟩ | ⟨ht, hp⟩⟩ := updatePolicy_ok hop
    · exact counted_persistTypeChange h hr hcur hp
    · exact counted_persistRoles h hcur ht hp
  | deletePolicy p => exact counted_deletePolicy h hr hop
  | createEntity k e attributes =>
    refine counted_relatedRoles attributes (counted_setEntity h attributes ?_ ?_) (createEntity_ok hop).2
    · rintro rfl
      exact hc
    · rintro rfl
      exact hc
  | updateEntity k e attributes =>
    obtain ⟨current, hcur, hcases⟩ := updateEntity_ok hop
    obtain ⟨h₁, h₂⟩ := apart_existing h (mem_of_lookup hcur)
    have hset := counted_setEntity h attributes h₁ h₂
    rcases hcases with ⟨-, rfl⟩ | ⟨-, hrel⟩
    · exact hset
    · exact counted_relatedRoles attributes hset hrel
  | deleteEntity k e => exact counted_deleteEntity h hop

theorem counted_empty : Counted (storedAccess empty) empty where
  grounded := grounded_empty
  apart := fun _ h => absurd h (AList.notMem_empty _)
  identities := fun _ _ _ => rfl
  services := fun _ _ _ _ => rfl
  checks := fun _ _ _ h => absurd h (AList.notMem_empty _)

theorem counted_run {ops : List Op} (h : Meets Apart commit empty ops) :
    Counted (storedAccess (ops.foldl commit empty)) (ops.foldl commit empty) ∧
      Typed (ops.foldl commit empty) := by
  have hinv := h.invariant (fun db => Counted (storedAccess db) db ∧ Rooted db ∧ Typed db) ?_
    ⟨counted_empty, rooted_empty, typed_empty⟩
  · exact ⟨hinv.1, hinv.2.2⟩
  · rintro db op ⟨hc, hr, ht⟩ hop
    exact commit_invariant (fun db => Counted (storedAccess db) db ∧ Rooted db ∧ Typed db) ⟨hc, hr, ht⟩
      (fun db' hok => ⟨counted_perform hc hr hop hok, rooted_perform hr hc.grounded hok, typed_perform ht hok⟩)

/-- As long as no posture check has the id of an identity, the counts between an
identity and a service are the numbers of policies that link the two. -/
theorem identity_service_counts_exact (ops : List Op) (h : Meets Apart commit empty ops) (db : Db)
    (hdb : db = ops.foldl commit empty) (i s : Id) (hi : i ∈ db.roleAttributes .identity) :
    (∀ a, (db.counts a .identityServices i).count s = (linkedPolicies db .identity a i s).length ∧
      (db.counts a .serviceIdentities s).count i = (linkedPolicies db .identity a i s).length) ∧
      (isDialableByIdentity db s i = true ↔ ∃ p policy, db.policies.lookup p = some policy ∧
        policy.policyType = .dial ∧ i ∈ db.links .identity p ∧ s ∈ db.links .service p) ∧
      (isBindableByIdentity db s i = true ↔ ∃ p policy, db.policies.lookup p = some policy ∧
        policy.policyType = .bind ∧ i ∈ db.links .identity p ∧ s ∈ db.links .service p) := by
  obtain ⟨hc, ht⟩ := counted_run h
  rw [← hdb] at hc ht
  have hboth : ∀ a, (db.counts a .identityServices i).count s = (linkedPolicies db .identity a i s).length ∧
      (db.counts a .serviceIdentities s).count i = (linkedPolicies db .identity a i s).length := by
    intro a
    rw [length_linkedPolicies ht (g := .identityServices) rfl]
    refine ⟨hc.identities a i s, ?_⟩
    rw [← degree_comm]
    exact hc.services a s i (hc.apart i hi)
  refine ⟨hboth, ?_, ?_⟩
  · rw [isDialableByIdentity, decide_eq_true_eq, getLinkCount, (hboth .dial).2]
    exact linkedPolicies_pos
  · rw [isBindableByIdentity, decide_eq_true_eq, getLinkCount, (hboth .bind).2]
    exact linkedPolicies_pos

def namingPolicy (policyType : PolicyType) (identities services postureChecks : List String) : ServicePolicy :=
  ⟨policyType, "AnyOf", fun
    | .identity => identities
    | .service => services
    | .postureCheck => postureChecks⟩

def grants : List Op :=
  [.createEntity .identity "ann" [], .createEntity .service "web" [], .createEntity .postureCheck "mfa" [],
    .createPolicy "p" (namingPolicy .dial ["@ann"] ["#all"] ["@mfa"]),
    .createPolicy "q" (namingPolicy .dial ["#all"] ["@web"] []),
    .updatePolicy (some (fun field => field = .policyType)) "q" (namingPolicy .bind [] [] [])]

theorem identity_service_counts_exact_after_grants : Meets Apart commit empty grants ∧
    isDialableByIdentity (grants.foldl commit empty) "web" "ann" = true ∧
    ((grants.foldl commit empty).counts .bind .serviceIdentities "web").count "ann" =
      (linkedPolicies (grants.foldl commit empty) .identity .bind "ann" "web").length := by
  have h : Meets Apart commit empty grants := by
    refine ⟨?_, ?_, ?_, ?_, ?_, ?_, ?_⟩ <;> trivial
  have hmain := identity_service_counts_exact grants h _ rfl "ann" "web" (by decide)
  exact ⟨h, by decide, (hmain.1 .bind).2⟩

/-- A posture check with the id of an identity is counted on the service's side
as one more policy of that identity. -/
theorem shared_id_counts_twice : ∃ ops : List Op, "x" ∈ (ops.foldl commit empty).roleAttributes .identity ∧
    (linkedPolicies (ops.foldl commit empty) .identity .dial "x" "web").length = 1 ∧
    ((ops.foldl commit empty).counts .dial .serviceIdentities "web").count "x" = 2 ∧
    ((ops.foldl commit empty).counts .dial .identityServices "x").count "web" = 1 := by
  refine ⟨[.createEntity .identity "x" [], .createEntity .service "web" [], .createEntity .postureCheck "x" [],
    .createPolicy "p" (namingPolicy .dial ["@x"] ["@web"] ["@x"])], ?_⟩
  decide

end Zt.IdentityCounts
