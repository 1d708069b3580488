import Zt.PolicyMembership

namespace Zt.PolicyCounts

open EdgeCtrl (Id)
open Tables LinkCounts PolicyStore PolicyLinks PolicyMembership
open AList (keys_nodup mem_keys mem_erase)

def count (db : Db) (a : Access) (g : CountField) (u v : Id) : Nat := (db.counts a g u).count v

/-- The entries that a change of the link of an entity with each of a list of
others goes to, on the two sides of a collection. -/
def Touches (c : RcLinkCollection) (e : Id) (others : List Id) (a : Access) (g : CountField) (u v : Id) : Prop :=
  a = c.access ∧ ((g = c.field ∧ u = e ∧ v ∈ others) ∨ (g = c.otherField ∧ v = e ∧ u ∈ others))

instance (c : RcLinkCollection) (e : Id) (others : List Id) (a : Access) (g : CountField) (u v : Id) :
    Decidable (Touches c e others a g u v) := inferInstanceAs (Decidable (_ ∧ _))

variable {db : Db} {a₀ : Access}

theorem count_setCounts {a a' : Access} {g g' : CountField} {u u' v : Id} {r : RefCounts Id} :
    count (db.setCounts a g u r) a' g' u' v =
      if a' = a ∧ g' = g ∧ u' = u then r.count v else count db a' g' u' v := by
  by_cases ha : a' = a
  · subst ha
    by_cases hg : g' = g
    · subst hg
      by_cases hu : u' = u
      · subst hu; simp [count, Db.setCounts]
      · simp [count, Db.setCounts, hu]
    · simp [count, Db.setCounts, hg]
  · simp [count, Db.setCounts, ha]

theorem changeContext_fields (k : Kind) (a : Access) :
    (changeContext k a).denormLinkCollection.field ≠ (changeContext k a).denormLinkCollection.otherField := by
  cases k <;> exact fun h => by cases h

section Adjusting

variable {c : RcLinkCollection} (hc : c.field ≠ c.otherField) {f : RefCounts Id → Id → RefCounts Id} {d : Nat → Nat}
  (hf : ∀ r k j, (f r k).count j = if j = k then d (r.count j) else r.count j)

include hc hf

theorem count_adjustCounts (db : Db) (x y : Id) (a : Access) (g : CountField) (u v : Id) :
    count (db.adjustCounts c x y f) a g u v =
      if Touches c x [y] a g u v then d (count db a g u v) else count db a g u v := by
  have hother : ∀ r w, (db.setCounts c.access c.field x r).counts c.access c.otherField w =
      db.counts c.access c.otherField w := by
    simp [Db.setCounts, hc.symm]
  simp only [Db.adjustCounts, count_setCounts, hother, hf, Touches]
  by_cases ha : a = c.access
  · subst ha
    by_cases hg : g = c.field
    · subst hg
      by_cases hu : u = x
      · subst hu; simp [hc, count]
      · simp [hc, hu]
    · by_cases hg' : g = c.otherField
      · subst hg'
        by_cases hu : u = y
        · subst hu; simp [hc.symm, count]
        · simp [hc.symm, hu]
      · simp [hg, hg']
  · simp [ha]

/-- Adjusting the links with distinct entities one by one moves each touched
entry once. -/
theorem count_foldl_adjustCounts (x : Id) {others : List Id} (hn : others.Nodup) (db : Db) (a : Access)
    (g : CountField) (u v : Id) : count (others.foldl (fun db y => db.adjustCounts c x y f) db) a g u v =
      if Touches c x others a g u v then d (count db a g u v) else count db a g u v := by
  induction others generalizing db with
  | nil => simp [Touches]
  | cons y others ih =>
    obtain ⟨hy, hn'⟩ := List.nodup_cons.mp hn
    rw [List.foldl_cons, ih hn', count_adjustCounts hc hf]
    have hone : Touches c x [y] a g u v → ¬Touches c x others a g u v := by
      rintro ⟨-, ⟨hg, -, hv⟩ | ⟨hg, -, hu⟩⟩ ⟨-, ⟨hg', -, hv'⟩ | ⟨hg', -, hu'⟩⟩
      · exact hy (List.mem_singleton.mp hv ▸ hv')
      · exact hc (hg.symm.trans hg')
      · exact hc (hg'.symm.trans hg)
      · exact hy (List.mem_singleton.mp hu ▸ hu')
    have hcons : Touches c x (y :: others) a g u v ↔ Touches c x [y] a g u v ∨ Touches c x others a g u v := by
      simp only [Touches, List.mem_cons, List.not_mem_nil, or_false, ← and_or_left]
      rw [or_or_or_comm, ← and_or_left, ← and_or_left, ← and_or_left, ← and_or_left]
    by_cases h₁ : Touches c x [y] a g u v
    · rw [if_neg (hone h₁), if_pos h₁, if_pos (hcons.mpr (.inl h₁))]
    · simp [h₁, hcons]

end Adjusting

/-- One more or one less, as the link was made or dropped. -/
def moved (isMatch : Bool) (n : Nat) : Nat := if isMatch then n + 1 else n - 1

theorem count_setLink {k : Kind} {e p : Id} {isMatch : Bool} {a : Access} {g : CountField}
    {u v : Id} : count (setLink (changeContext k a₀) e p isMatch db) a g u v =
      if (e ∈ db.links k p ↔ isMatch = false) ∧ Touches (changeContext k a₀).denormLinkCollection e
          (db.links (changeContext k a₀).relatedLinkCollection p).keys a g u v then
        moved isMatch (count db a g u v) else count db a g u v := by
  have hc := changeContext_fields k a₀
  have hn := keys_nodup (db.links (changeContext k a₀).relatedLinkCollection p)
  rcases setLink_cases (changeContext k a₀) e p isMatch db with ⟨heq, h⟩ | ⟨rfl, h, heq⟩ | ⟨rfl, h, heq⟩
  · cases isMatch <;> simp_all
  · rw [changeContext_linkCollection] at h
    rw [heq, processEntityPolicyMatched, changeContext_linkCollection]
    simp only [h, Bool.true_eq_false, true_and]
    exact count_foldl_adjustCounts hc (fun r k j => by rw [RefCounts.count_increment]; split <;> rfl)
      e hn _ a g u v
  · rw [changeContext_linkCollection] at h
    rw [heq, processEntityPolicyUnmatched, changeContext_linkCollection]
    simp only [h, true_and]
    exact count_foldl_adjustCounts hc (fun r k j => by rw [RefCounts.count_decrement]; split <;> rfl)
      e hn _ a g u v

/-- The kinds of entity between which a field counts the policies. -/
def ends : CountField → Kind × Kind
  | .identityServices => (.identity, .service)
  | .serviceIdentities => (.service, .identity)
  | .postureCheckServices => (.postureCheck, .service)

def Joins (db : Db) (access : Id → Access) (g : CountField) (a : Access) (u v p : Id) : Prop :=
  access p = a ∧ u ∈ db.links (ends g).1 p ∧ v ∈ db.links (ends g).2 p

instance (db : Db) (access : Id → Access) (g : CountField) (a : Access) (u v p : Id) :
    Decidable (Joins db access g a u v p) := inferInstanceAs (Decidable (_ ∧ _))

/-- How many policies of an access are linked to both entities. -/
def degree (db : Db) (access : Id → Access) (g : CountField) (a : Access) (u v : Id) : Nat :=
  db.policies.keys.countP (fun p => Joins db access g a u v p)

/-- The count of a pair is the number of policies that link it. -/
def Exact (access : Id → Access) (db : Db) (g : CountField) (a : Access) (u v : Id) : Prop :=
  count db a g u v = degree db access g a u v

variable {db db' : Db} {access access' : Id → Access} {g : CountField} {a : Access} {u v p e : Id} {k : Kind}
  {x : Setting} {policy : ServicePolicy} {due : Kind → Bool} {t : PolicyType}

theorem degree_congr
    (h : ∀ p, (p ∈ db'.policies ∧ Joins db' access' g a u v p) ↔ (p ∈ db.policies ∧ Joins db access g a u v p)) :
    degree db' access' g a u v = degree db access g a u v := by
  have hperm : (db'.policies.keys.filter (Joins db' access' g a u v)).Perm
      (db.policies.keys.filter (Joins db access g a u v)) := by
    rw [List.perm_ext_iff_of_nodup ((keys_nodup _).filter _) ((keys_nodup _).filter _)]
    intro p
    simp only [List.mem_filter, decide_eq_true_eq]
    exact h p
  rw [degree, degree, List.countP_eq_length_filter, List.countP_eq_length_filter, hperm.length_eq]

theorem degree_zero (h : ∀ p, ¬Joins db access g a u v p) : degree db access g a u v = 0 := by
  rw [degree, List.countP_eq_zero]
  intro p _
  simpa using h p

/-- Moves of a link of this kind adjust the field as they do its degree. -/
def Tracks : Kind → CountField → Prop
  | .identity, _ => True
  | .service, g => g ≠ .postureCheckServices
  | .postureCheck, g => g ≠ .serviceIdentities

/-- The pairs whose policies a move of the link of an entity with a policy changes. -/
def Affects (db : Db) (p : Id) (k : Kind) (e : Id) (g : CountField) (u v : Id) : Prop :=
  (k = (ends g).1 ∧ u = e ∧ v ∈ db.links (ends g).2 p) ∨ (k = (ends g).2 ∧ v = e ∧ u ∈ db.links (ends g).1 p)

instance (db : Db) (p : Id) (k : Kind) (e : Id) (g : CountField) (u v : Id) : Decidable (Affects db p k e g u v) :=
  inferInstanceAs (Decidable (_ ∨ _))

theorem touches_iff (h : Tracks k g) (db : Db) (a₀ : Access) (e p : Id) (a : Access) (u v : Id) :
    Touches (changeContext k a₀).denormLinkCollection e
        (db.links (changeContext k a₀).relatedLinkCollection p).keys a g u v ↔
      a₀ = a ∧ Affects db p k e g u v := by
  cases k <;> cases g <;>
    simp_all [Touches, Affects, Tracks, changeContext, identityServices, serviceIdentities, postureCheckServices, ends,
      mem_keys, eq_comm]

theorem ends_ne (g : CountField) : (ends g).1 ≠ (ends g).2 := by
  cases g <;> exact fun h => by cases h

theorem joins_apply_other {q : Id} (hq : q ≠ x.policy) (access : Id → Access) :
    Joins (x.apply db) access g a u v q ↔ Joins db access g a u v q := by
  have hlinks : ∀ k e, e ∈ (x.apply db).links k q ↔ e ∈ db.links k q := by
    intro k e
    rw [mem_links_apply, if_neg]
    intro heq
    exact hq (congrArg (fun t => t.2.1) heq)
  simp [Joins, hlinks]

theorem mem_links_apply_self : e ∈ (x.apply db).links k x.policy ↔
    if k = x.kind ∧ e = x.entity then x.isMatch = true else e ∈ db.links k x.policy := by
  rw [mem_links_apply]
  simp [Setting.target]

/-- The link that a setting moves is the one thing that changes at its policy. -/
theorem joins_apply_self (access : Id → Access) : Joins (x.apply db) access g a u v x.policy ↔
    if access x.policy = a ∧ Affects db x.policy x.kind x.entity g u v then x.isMatch = true
    else Joins db access g a u v x.policy := by
  have hne := ends_ne g
  simp only [Joins, mem_links_apply_self, Affects]
  by_cases h₁ : (ends g).1 = x.kind
  · have h₂ : (ends g).2 ≠ x.kind := fun h => hne (h₁.trans h.symm)
    by_cases hu : u = x.entity
    · by_cases hv : v ∈ db.links (ends g).2 x.policy
      · by_cases ha : access x.policy = a <;> simp [h₁, h₂, hu, hv, ha]
      · simp [h₂, hv, symm h₂]
    · simp [h₂, hu, symm h₂]
  · by_cases h₂ : (ends g).2 = x.kind
    · by_cases hv : v = x.entity
      · by_cases hu : u ∈ db.links (ends g).1 x.policy
        · by_cases ha : access x.policy = a <;> simp [h₁, h₂, hu, hv, ha]
        · simp [h₁, hu, Ne.symm h₁]
      · simp [h₁, hv, Ne.symm h₁]
    · simp [h₁, h₂, Ne.symm h₁, Ne.symm h₂]

theorem joins_of_affects (h : access p = a ∧ Affects db p k e g u v) :
    Joins db access g a u v p ↔ e ∈ db.links k p := by
  obtain ⟨ha, ⟨rfl, rfl, hv⟩ | ⟨rfl, rfl, hu⟩⟩ := h
  · simp [Joins, ha, hv]
  · simp [Joins, ha, hu]

theorem degree_apply (hp : x.policy ∈ db.policies) (access : Id → Access) (g : CountField) (a : Access) (u v : Id) :
    degree (x.apply db) access g a u v =
      if (x.entity ∈ db.links x.kind x.policy ↔ x.isMatch = false) ∧ access x.policy = a ∧
          Affects db x.policy x.kind x.entity g u v then moved x.isMatch (degree db access g a u v)
      else degree db access g a u v := by
  have hpols : (x.apply db).policies = db.policies :=
    (setLink_frame (changeContext x.kind x.access) x.entity x.policy x.isMatch db).1
  have hchange := countP_change (keys_nodup db.policies) (mem_keys.mp hp)
    (f := fun p => decide (Joins db access g a u v p)) (g := fun p => decide (Joins (x.apply db) access g a u v p))
    (fun q _ hq => decide_eq_decide.mpr (joins_apply_other hq access))
  simp only [joins_apply_self] at hchange
  simp only [degree, hpols]
  by_cases h : access x.policy = a ∧ Affects db x.policy x.kind x.entity g u v
  · simp only [h, joins_of_affects h] at hchange ⊢
    cases hm : x.isMatch <;> by_cases he : x.entity ∈ db.links x.kind x.policy <;>
      simp [hm, he, moved] at hchange ⊢ <;> omega
  · rw [if_neg (fun hh => h hh.2)]
    simp only [h, if_false] at hchange
    omega

theorem exact_apply (ht : Tracks x.kind g) (hp : x.policy ∈ db.policies) (ha : x.access = access x.policy)
    (h : Exact access db g a u v) : Exact access (x.apply db) g a u v := by
  rw [Exact, Setting.apply, count_setLink, ← Setting.apply, degree_apply hp]
  simp only [touches_iff ht, ha]
  rw [h]

theorem count_apply_of_not_touches (h : ¬Touches (changeContext x.kind x.access).denormLinkCollection x.entity
      (db.links (changeContext x.kind x.access).relatedLinkCollection x.policy).keys a g u v) :
    count (x.apply db) a g u v = count db a g u v := by
  rw [Setting.apply, count_setLink, if_neg (fun hc => h hc.2)]

theorem count_foldl_remove {f : CountField} {others : List Id} :
    count (others.foldl (fun db y => db.setCounts a₀ f y ((db.counts a₀ f y).remove e)) db) a g u v =
      if a = a₀ ∧ g = f ∧ v = e ∧ u ∈ others then 0 else count db a g u v := by
  induction others generalizing db with
  | nil => simp
  | cons y others ih =>
    rw [List.foldl_cons, ih, count_setCounts, RefCounts.count_remove]
    by_cases hag : a = a₀ ∧ g = f
    · obtain ⟨rfl, rfl⟩ := hag
      by_cases hu : u = y
      · subst hu
        by_cases hv : v = e
        · simp [hv]
        · simp [hv, count]
      · simp [hu]
    · rw [if_neg (fun h => hag ⟨h.1, h.2.1⟩), if_neg (fun h => hag ⟨h.1, h.2.1⟩), if_neg (fun h => hag ⟨h.1, h.2.1⟩)]

/-- What a deleted entity takes along: its own side, and its entry on the other
side wherever its own side had one. -/
def Dropped (db : Db) (f f' : CountField) (e : Id) (a : Access) (g : CountField) (u v : Id) : Prop :=
  (g = f ∧ u = e) ∨ (g = f' ∧ v = e ∧ 0 < count db a f e u)

instance (db : Db) (f f' : CountField) (e : Id) (a : Access) (g : CountField) (u v : Id) :
    Decidable (Dropped db f f' e a g u v) := inferInstanceAs (Decidable (_ ∨ _))

theorem count_dropCounts {c : RcLinkCollection} (hc : c.field ≠ c.otherField) (e : Id) (db : Db) (a : Access)
    (g : CountField) (u v : Id) : count (dropCounts c e db) a g u v =
      if a = c.access ∧ Dropped db c.field c.otherField e a g u v then 0 else count db a g u v := by
  rw [dropCounts, count_setCounts, count_foldl_remove]
  simp only [RefCounts.mem_keys]
  by_cases ha : a = c.access
  · subst ha
    by_cases hg : g = c.field
    · subst hg
      by_cases hu : u = e
      · simp [Dropped, hu]
      · simp [Dropped, hc]
    · by_cases hg' : g = c.otherField
      · subst hg'
        simp [Dropped, hc.symm, count]
      · simp [Dropped, hg']
  · simp [ha]

def ownField (k : Kind) : CountField := (changeContext k .dial).denormLinkCollection.field

def mirrorField (k : Kind) : CountField := (changeContext k .dial).denormLinkCollection.otherField

theorem count_dropEntity : count (dropEntity k e db) a g u v =
    if Dropped db (ownField k) (mirrorField k) e a g u v then 0 else count db a g u v := by
  have hc : ∀ a, (RcLinkCollection.mk a (ownField k) (mirrorField k)).field ≠
      (RcLinkCollection.mk a (ownField k) (mirrorField k)).otherField := fun _ => changeContext_fields k .dial
  have hfold : count (dropEntity k e db) a g u v =
      count (dropCounts ⟨.dial, ownField k, mirrorField k⟩ e (dropCounts ⟨.bind, ownField k, mirrorField k⟩ e db))
        a g u v := by
    cases k <;> rfl
  rw [hfold, count_dropCounts (hc _), count_dropCounts (hc _)]
  cases a with
  | dial =>
    -- the collections of the other access are not touched by the first drop
    have hsame : Dropped (dropCounts ⟨.bind, ownField k, mirrorField k⟩ e db) (ownField k) (mirrorField k) e .dial
        g u v ↔ Dropped db (ownField k) (mirrorField k) e .dial g u v := by
      rw [Dropped, count_dropCounts (hc _), if_neg (fun h => by cases h.1), Dropped]
    simp [hsame]
  | bind => simp

/-- Stored policies are dial policies or bind policies. -/
def Typed (db : Db) : Prop := ∀ p policy, db.policies.lookup p = some policy → policy.policyType ≠ .invalid

theorem typed_written (h : Typed db) (w : Written due p policy db db')
    (ht : policy.policyType ≠ .invalid) : Typed db' := by
  intro q stored hq
  by_cases hqp : q = p
  · subst hqp
    cases w.lookup.symm.trans hq
    exact ht
  · rw [w.outside.policies q hqp] at hq
    exact h q stored hq

theorem typed_deleteEntityReferences (h : Typed db) (k : Kind) (e : Id) : Typed (deleteEntityReferences k e db) := by
  intro p policy hp
  rw [lookup_deleteEntityReferences] at hp
  obtain ⟨stored, hstored, rfl⟩ := Option.map_eq_some_iff.mp hp
  split
  · exact h p stored hstored
  · exact h p stored hstored

theorem typed_relatedRoles (h : Typed db) (attributes : List String)
    (hr : updateServicePolicyRelatedRoles k e (stringList attributes) (setEntity k e attributes db) = .ok db') :
    Typed db' := by
  obtain ⟨xs, -, rfl⟩ := relatedRoles_settles (by rw [lookup_setEntity, if_pos ⟨rfl, rfl⟩]) hr
  intro p policy hp
  rw [(settle_frame xs _).1] at hp
  exact h p policy hp

theorem typed_perform {op : Op} (h : Typed db) (hop : perform db op = .ok db') : Typed db' := by
  cases op with
  | createPolicy p entity =>
    obtain ⟨-, ht, hp⟩ := createPolicy_ok hop
    exact typed_written h (persistRoles_written hp) ht
  | updatePolicy checker p entity =>
    obtain ⟨current, hcur, ht, ⟨-, hp⟩ | ⟨-, hp⟩⟩ := updatePolicy_ok hop
    · exact typed_written h (persistTypeChange_written hp) (ht (h p current hcur))
    · exact typed_written h (persistRoles_written hp) (ht (h p current hcur))
  | deletePolicy p =>
    obtain ⟨policy, d, hpol, rfl, hd⟩ := deletePolicy_ok hop
    have htd : Typed d := by
      rcases hd with ⟨rfl, -⟩ | hd
      · exact h
      · exact typed_written h (persistRoles_written hd) (h p policy hpol)
    intro q stored hq
    have hqp : q ≠ p := by
      rintro rfl
      rw [dropPolicy, AList.lookup_erase] at hq
      cases hq
    rw [(outside_dropPolicy p d).policies q hqp] at hq
    exact htd q stored hq
  | createEntity k e attributes => exact typed_relatedRoles h attributes (createEntity_ok hop).2
  | updateEntity k e attributes =>
    obtain ⟨-, -, ⟨-, rfl⟩ | ⟨-, hr⟩⟩ := updateEntity_ok hop
    · exact h
    · exact typed_relatedRoles h attributes hr
  | deleteEntity k e =>
    obtain ⟨attributes, d, -, rfl, hd⟩ := deleteEntity_ok hop
    have hrefs := typed_deleteEntityReferences h k e
    intro p policy hp
    rw [dropEntity_policies] at hp
    rcases hd with ⟨-, rfl⟩ | ⟨-, hr⟩
    · exact hrefs p policy hp
    · exact typed_relatedRoles hrefs [] hr p policy hp

/-- The policies of an access that are linked to an entity and to a service. -/
def linkedPolicies (db : Db) (k : Kind) (a : Access) (e s : Id) : List Id :=
  db.policies.keys.filter (fun p =>
    (db.policies.lookup p).any (fun policy => policy.policyType = a.policyType) ∧
      e ∈ db.links k p ∧ s ∈ db.links .service p)

theorem access_eq_iff (ht : t ≠ .invalid) (a : Access) : t.access = a ↔ t = a.policyType := by
  cases t with
  | invalid => exact absurd rfl ht
  | dial => cases a <;> simp [PolicyType.access, Access.policyType]
  | bind => cases a <;> simp [PolicyType.access, Access.policyType]

theorem length_linkedPolicies (h : Typed db) (hends : ends g = (k, .service)) (a : Access) (e s : Id) :
    (linkedPolicies db k a e s).length = degree db (storedAccess db) g a e s := by
  rw [degree, List.countP_eq_length_filter]
  congr 1
  apply List.filter_congr
  intro p hp
  obtain ⟨policy, hpol⟩ := mem_iff_lookup.mp (mem_keys.mpr hp)
  rw [decide_eq_decide, Joins, storedAccess_eq hpol, hpol, access_eq_iff (h p policy hpol), hends]
  simp

theorem linkedPolicies_pos {s : Id} : 0 < (linkedPolicies db k a e s).length ↔
    ∃ p policy, db.policies.lookup p = some policy ∧ policy.policyType = a.policyType ∧
      e ∈ db.links k p ∧ s ∈ db.links .service p := by
  rw [List.length_pos_iff_exists_mem]
  simp only [linkedPolicies, List.mem_filter, decide_eq_true_eq, Option.any_eq_true]
  constructor
  · rintro ⟨p, -, ⟨policy, hpol, ht⟩, he, hs⟩
    exact ⟨p, policy, hpol, ht, he, hs⟩
  · rintro ⟨p, policy, hpol, ht, he, hs⟩
    exact ⟨p, mem_keys.mp (mem_of_lookup hpol), ⟨policy, hpol, ht⟩, he, hs⟩

def Bare (db : Db) (p : Id) : Prop := ∀ k e, e ∉ db.links k p

theorem bare_of_rooted (h : Rooted db) (hp : db.policies.lookup p = some policy)
    (hroles : ∀ k, policy.roles k = []) : Bare db p := by
  intro k e hmem
  rcases h p policy k e hp hmem with hr | ⟨r, hr⟩
  · rw [hroles] at hr
    cases hr
  · rw [hroles] at hr
    cases hr

theorem rolesUpdated_policies (h : rolesUpdated due t p db = .ok db') : db'.policies = db.policies := by
  obtain ⟨xs, -, rfl⟩ := rolesUpdated_settles h
  exact (settle_frame xs db).1

theorem storedAccess_congr (h : db'.policies = db.policies) : storedAccess db' = storedAccess db := by
  funext p
  rw [storedAccess, h, storedAccess]

theorem storedAccess_setPolicy {q : Id} :
    storedAccess (db.setPolicy p policy) q = if q = p then policy.policyType.access else storedAccess db q := by
  simp only [storedAccess, Db.setPolicy, lookup_insert_eq]
  split <;> rfl

theorem mem_setEntity (k k' : Kind) (e x : Id) (attributes : List String) (db : Db) :
    x ∈ (setEntity k e attributes db).roleAttributes k' ↔ (k' = k ∧ x = e) ∨ x ∈ db.roleAttributes k' := by
  simp only [mem_iff_lookup, lookup_setEntity]
  split
  · rename_i hsame
    simp [hsame]
  · rename_i hne
    simp [hne]

theorem storedAccess_deleteEntityReferences : storedAccess (deleteEntityReferences k e db) = storedAccess db := by
  funext p
  rw [storedAccess, lookup_deleteEntityReferences, storedAccess]
  cases db.policies.lookup p with
  | none => rfl
  | some policy =>
    split <;> rfl

theorem joins_dropEntity (access : Id → Access) : Joins (dropEntity k e db) access g a u v p ↔
    ¬(k = (ends g).1 ∧ u = e) ∧ ¬(k = (ends g).2 ∧ v = e) ∧ Joins db access g a u v p := by
  simp only [Joins, mem_links_dropEntity, eq_comm]
  constructor
  · rintro ⟨ha, ⟨h₁, hu⟩, h₂, hv⟩
    exact ⟨h₁, h₂, ha, hu, hv⟩
  · rintro ⟨h₁, h₂, ha, hu, hv⟩
    exact ⟨ha, ⟨h₁, hu⟩, h₂, hv⟩

theorem degree_dropEntity (hu : ¬(k = (ends g).1 ∧ u = e)) (hv : ¬(k = (ends g).2 ∧ v = e)) (db : Db)
    (access : Id → Access) (a : Access) : degree (dropEntity k e db) access g a u v = degree db access g a u v := by
  apply degree_congr
  intro p
  rw [dropEntity_policies, joins_dropEntity, and_iff_right hu, and_iff_right hv]

theorem degree_dropEntity_self (h : (k = (ends g).1 ∧ u = e) ∨ (k = (ends g).2 ∧ v = e)) (db : Db)
    (access : Id → Access) (a : Access) : degree (dropEntity k e db) access g a u v = 0 := by
  apply degree_zero
  intro p hj
  rw [joins_dropEntity] at hj
  exact h.elim hj.1 hj.2.1

theorem exact_dropEntity_other (h : Exact access db g a u v) (hu : ¬(k = (ends g).1 ∧ u = e))
    (hv : ¬(k = (ends g).2 ∧ v = e)) (hd : ¬Dropped db (ownField k) (mirrorField k) e a g u v) :
    Exact access (dropEntity k e db) g a u v := by
  rw [Exact, count_dropEntity, if_neg hd, degree_dropEntity hu hv, h]

theorem exact_dropEntity_self (he : (k = (ends g).1 ∧ u = e) ∨ (k = (ends g).2 ∧ v = e))
    (hzero : ¬Dropped db (ownField k) (mirrorField k) e a g u v → count db a g u v = 0) :
    Exact access (dropEntity k e db) g a u v := by
  rw [Exact, count_dropEntity, degree_dropEntity_self he]
  split
  · rfl
  · rename_i hnot
    exact hzero hnot

theorem mem_dropEntity (k k' : Kind) (e x : Id) (db : Db) :
    x ∈ (dropEntity k e db).roleAttributes k' ↔ ¬(k' = k ∧ x = e) ∧ x ∈ db.roleAttributes k' := by
  simp only [mem_iff_lookup, lookup_dropEntity]
  split
  · rename_i hsame
    simp [hsame]
  · rename_i hne
    simp [hne]

theorem rooted_empty : Rooted Db.empty := by
  intro p policy k e hp
  cases hp

theorem typed_empty : Typed Db.empty := by
  intro p policy hp
  cases hp

theorem joins_setPolicy (hacc : ∀ q, q ≠ p → access' q = access q)
    (hp : (p ∈ db.policies ∧ access' p = access p) ∨ Bare db p) (g : CountField) (a : Access) (u v q : Id) :
    (q ∈ (db.setPolicy p policy).policies ∧ Joins (db.setPolicy p policy) access' g a u v q) ↔
      (q ∈ db.policies ∧ Joins db access g a u v q) := by
  have hmem : q ∈ (db.setPolicy p policy).policies ↔ q = p ∨ q ∈ db.policies := AList.mem_insert _
  by_cases hq : q = p
  · subst hq
    rcases hp with ⟨hpol, hsame⟩ | hbare
    · rw [hmem, Joins, hsame]
      exact ⟨fun hj => ⟨hpol, hj.2⟩, fun hj => ⟨.inl rfl, hj.2⟩⟩
    · exact ⟨fun hj => absurd hj.2.2.1 (hbare _ _), fun hj => absurd hj.2.2.1 (hbare _ _)⟩
  · rw [hmem, or_iff_right hq, Joins, hacc q hq]
    rfl

theorem joins_dropPolicy (hbare : Bare db p) (g : CountField) (a : Access) (u v q : Id) :
    (q ∈ (dropPolicy p db).policies ∧ Joins (dropPolicy p db) (storedAccess (dropPolicy p db)) g a u v q) ↔
      (q ∈ db.policies ∧ Joins db (storedAccess db) g a u v q) := by
  by_cases hq : q = p
  · subst hq
    refine ⟨fun hj => ?_, fun hj => absurd hj.2.2.1 (hbare _ _)⟩
    exact absurd rfl (mem_erase.mp hj.1).1
  · have hout := outside_dropPolicy p db
    have hmem : q ∈ (dropPolicy p db).policies ↔ q ∈ db.policies := by
      simp [dropPolicy, hq]
    have hacc : storedAccess (dropPolicy p db) q = storedAccess db q := by
      rw [storedAccess, hout.policies q hq, storedAccess]
    rw [hmem, Joins, hacc, hout.links _ _ _ hq, hout.links _ _ _ hq]
    rfl

theorem joins_deleteEntityReferences (k : Kind) (e : Id) (g : CountField) (a : Access) (u v p : Id) :
    (p ∈ (deleteEntityReferences k e db).policies ∧
      Joins (deleteEntityReferences k e db) (storedAccess (deleteEntityReferences k e db)) g a u v p) ↔
      (p ∈ db.policies ∧ Joins db (storedAccess db) g a u v p) := by
  rw [storedAccess_deleteEntityReferences, mem_iff_lookup, mem_iff_lookup, lookup_deleteEntityReferences]
  simp only [Option.map_eq_some_iff]
  constructor
  · rintro ⟨⟨_, policy, hp, -⟩, hj⟩
    exact ⟨⟨policy, hp⟩, hj⟩
  · rintro ⟨⟨policy, hp⟩, hj⟩
    exact ⟨⟨_, policy, hp, rfl⟩, hj⟩

end Zt.PolicyCounts
