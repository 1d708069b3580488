import Zt.PolicyStore
import Zt.Runs
import Zt.Outcomes

namespace Zt.PolicyLinks

open EdgeCtrl (Id IdTable IdSet)
open Tables PolicyStore Outcomes
open List (mem_cons map_cons foldl_cons mem_map mem_append map_map not_mem_nil foldl_append)
open PolicyStore (when)

/-- What the roles of a policy say about an entity, whatever its links are. -/
def Selects (policy : ServicePolicy) (k : Kind) (e : Id) (attributes : List String) : Prop :=
  entityRef e ∈ policy.roles k ∨ allRole ∈ policy.roles k ∨
    (equalFold policy.semantic semanticAllOf = true ∧ (∃ r, roleRef r ∈ policy.roles k) ∧
      ∀ r, roleRef r ∈ policy.roles k → r ∈ attributes) ∨
    (equalFold policy.semantic semanticAnyOf = true ∧ ∃ r, roleRef r ∈ policy.roles k ∧ r ∈ attributes)

variable (db : Db)

def Matched : Prop :=
  ∀ p policy k e attributes, db.policies.lookup p = some policy → (db.roleAttributes k).lookup e = some attributes →
    (e ∈ db.links k p ↔ Selects policy k e attributes)

/-- Links join policies and entities that exist. -/
def Grounded : Prop := ∀ k p e, e ∈ db.links k p → p ∈ db.policies ∧ e ∈ db.roleAttributes k

theorem toList_roleRef {r : String} : (roleRef r).toList = '#' :: r.toList := String.toList_append

theorem toList_entityRef {r : String} : (entityRef r).toList = '@' :: r.toList := String.toList_append

variable {r s : String} {roles ids attributes values : List String} {policy : ServicePolicy} {k : Kind}
  {e p : Id} {db' : Db}

theorem roleRef_eq_iff : roleRef r = s ↔ s.toList = '#' :: r.toList := by
  rw [← String.toList_inj, toList_roleRef, eq_comm]

theorem entityRef_eq_iff : entityRef r = s ↔ s.toList = '@' :: r.toList := by
  rw [← String.toList_inj, toList_entityRef, eq_comm]

theorem roleRef_ne_entityRef : roleRef r ≠ entityRef s := by
  intro h
  cases h

theorem roleRef_inj : roleRef r = roleRef s ↔ r = s := by
  rw [roleRef_eq_iff, toList_roleRef, List.cons_inj_right, String.toList_inj, eq_comm]

theorem entityRef_inj : entityRef r = entityRef s ↔ r = s := by
  rw [entityRef_eq_iff, toList_entityRef, List.cons_inj_right, String.toList_inj, eq_comm]

theorem split_cons_ok {entry : String} (h : splitRolesAndIds (entry :: values) = .ok (roles, ids)) :
    (∃ role roles', entry = roleRef role ∧ roles = role :: roles' ∧ splitRolesAndIds values = .ok (roles', ids)) ∨
      ∃ id ids', entry = entityRef id ∧ ids = id :: ids' ∧ splitRolesAndIds values = .ok (roles, ids') := by
  rw [splitRolesAndIds] at h
  cases hrest : splitRolesAndIds values with
  | error err =>
    rw [hrest] at h
    split at h <;> cases h
  | ok r =>
    rw [hrest] at h
    split at h
    · rename_i role hentry
      cases h
      refine .inl ⟨_, _, (roleRef_eq_iff.mpr ?_).symm, rfl, rfl⟩
      rw [hentry, String.toList_ofList]
    · rename_i id hentry
      cases h
      refine .inr ⟨_, _, (entityRef_eq_iff.mpr ?_).symm, rfl, rfl⟩
      rw [hentry, String.toList_ofList]
    · cases h

theorem mem_split (h : splitRolesAndIds values = .ok (roles, ids)) :
    (∀ r, r ∈ roles ↔ roleRef r ∈ values) ∧ ∀ i, i ∈ ids ↔ entityRef i ∈ values := by
  induction values generalizing roles ids with
  | nil =>
    cases h
    simp
  | cons entry values ih =>
    rcases split_cons_ok h with ⟨-, roles', rfl, rfl, hrest⟩ | ⟨-, ids', rfl, rfl, hrest⟩
    · obtain ⟨hroles, hids⟩ := ih hrest
      refine ⟨fun r => ?_, fun i => ?_⟩
      · rw [mem_cons, mem_cons, hroles, roleRef_inj]
      · rw [mem_cons, hids, or_iff_right (fun heq => roleRef_ne_entityRef heq.symm)]
    · obtain ⟨hroles, hids⟩ := ih hrest
      refine ⟨fun r => ?_, fun i => ?_⟩
      · rw [mem_cons, hroles, or_iff_right roleRef_ne_entityRef]
      · rw [mem_cons, mem_cons, hids, entityRef_inj]

theorem policyMatches_iff (h : splitRolesAndIds (policy.roles k) = .ok (roles, ids)) (e : Id)
    (attributes : List String) :
    policyMatches policy.semantic e ids roles attributes = true ↔ Selects policy k e attributes := by
  obtain ⟨hroles, hids⟩ := mem_split h
  have hempty : roles.isEmpty = false ↔ ∃ r, roleRef r ∈ policy.roles k := by
    simp only [List.isEmpty_eq_false_iff_exists_mem, hroles]
  simp only [policyMatches, Bool.or_eq_true, Bool.and_eq_true, List.contains_iff_mem, hids,
    Bool.not_eq_true', hempty, List.all_eq_true, List.any_eq_true, hroles]
  constructor
  · rintro (((h | h) | ⟨⟨h₁, h₂⟩, h₃⟩) | ⟨⟨h₁, -⟩, h₃⟩)
    · exact .inl h
    · exact .inr (.inl h)
    · exact .inr (.inr (.inl ⟨h₁, h₂, h₃⟩))
    · exact .inr (.inr (.inr ⟨h₁, h₃⟩))
  · rintro (h | h | ⟨h₁, h₂, h₃⟩ | ⟨h₁, r, h₂, h₃⟩)
    · exact .inl (.inl (.inl h))
    · exact .inl (.inl (.inr h))
    · exact .inl (.inr ⟨⟨h₁, h₂⟩, h₃⟩)
    · exact .inr ⟨⟨h₁, r, h₂⟩, r, h₂, h₃⟩

variable (ctx : RoleAttributeChangeContext)

/-- Brings one link to what an evaluation found, with the counts that follow it. -/
def setLink (e p : Id) (isMatch : Bool) (db : Db) : Db :=
  if isMatch then processEntityPolicyMatched ctx e p db else processEntityPolicyUnmatched ctx e p db

/-- Two states that differ at most in their counts. -/
structure SameLinks (db db' : Db) : Prop where
  policies : db'.policies = db.policies
  roleAttributes : db'.roleAttributes = db.roleAttributes
  links : db'.links = db.links

theorem sameLinks_foldl {α : Type} {f : Db → α → Db} (hf : ∀ db x, SameLinks db (f db x)) (db : Db)
    (xs : List α) : SameLinks db (xs.foldl f db) := by
  induction xs generalizing db with
  | nil => exact ⟨rfl, rfl, rfl⟩
  | cons x xs ih =>
    have h₁ := hf db x
    have h₂ := ih (f db x)
    exact ⟨h₂.policies.trans h₁.policies, h₂.roleAttributes.trans h₁.roleAttributes, h₂.links.trans h₁.links⟩

theorem mem_setLinks {k' : Kind} {p' : Id} {ids : IdSet} :
    e ∈ (db.setLinks k p ids).links k' p' ↔ if k' = k ∧ p' = p then e ∈ ids else e ∈ db.links k' p' := by
  by_cases hk : k' = k
  · subst hk
    by_cases hp : p' = p
    · subst hp; simp [Db.setLinks]
    · simp [Db.setLinks, hp]
  · simp [Db.setLinks, hk]

variable {db}

theorem matched_effect (h : e ∉ db.links ctx.linkCollection p) :
    SameLinks (db.setLinks ctx.linkCollection p ((db.links ctx.linkCollection p).insert e ()))
      (processEntityPolicyMatched ctx e p db) := by
  rw [processEntityPolicyMatched]
  simp only [h]
  apply sameLinks_foldl
  exact fun _ _ => ⟨rfl, rfl, rfl⟩

theorem unmatched_effect (h : e ∈ db.links ctx.linkCollection p) :
    SameLinks (db.setLinks ctx.linkCollection p ((db.links ctx.linkCollection p).erase e))
      (processEntityPolicyUnmatched ctx e p db) := by
  rw [processEntityPolicyUnmatched]
  simp only [h]
  apply sameLinks_foldl
  exact fun _ _ => ⟨rfl, rfl, rfl⟩

variable {isMatch : Bool} {ctx}

theorem setLink_idle
    (h : e ∈ db.links ctx.linkCollection p ↔ isMatch = true) : setLink ctx e p isMatch db = db := by
  cases isMatch with
  | true => simp [setLink, processEntityPolicyMatched, h.mpr rfl]
  | false =>
    have hnot : e ∉ db.links ctx.linkCollection p := fun hm => Bool.false_ne_true (h.mp hm)
    simp [setLink, processEntityPolicyUnmatched, hnot]

variable (ctx)

theorem setLink_cases (e p : Id) (isMatch : Bool) (db : Db) :
    (setLink ctx e p isMatch db = db ∧ (e ∈ db.links ctx.linkCollection p ↔ isMatch = true)) ∨
      (isMatch = true ∧ e ∉ db.links ctx.linkCollection p ∧
        setLink ctx e p isMatch db = processEntityPolicyMatched ctx e p db) ∨
      (isMatch = false ∧ e ∈ db.links ctx.linkCollection p ∧
        setLink ctx e p isMatch db = processEntityPolicyUnmatched ctx e p db) := by
  by_cases h : e ∈ db.links ctx.linkCollection p ↔ isMatch = true
  · exact .inl ⟨setLink_idle h, h⟩
  · cases isMatch with
    | true => exact .inr (.inl ⟨rfl, by simpa using h, rfl⟩)
    | false => exact .inr (.inr ⟨rfl, by simpa using h, rfl⟩)

theorem setLink_frame (e p : Id) (isMatch : Bool) (db : Db) :
    (setLink ctx e p isMatch db).policies = db.policies ∧
      (setLink ctx e p isMatch db).roleAttributes = db.roleAttributes := by
  rcases setLink_cases ctx e p isMatch db with ⟨heq, -⟩ | ⟨-, h, heq⟩ | ⟨-, h, heq⟩
  · rw [heq]
    exact ⟨rfl, rfl⟩
  · rw [heq]
    exact ⟨(matched_effect ctx h).policies, (matched_effect ctx h).roleAttributes⟩
  · rw [heq]
    exact ⟨(unmatched_effect ctx h).policies, (unmatched_effect ctx h).roleAttributes⟩

theorem mem_links_setLink {k' : Kind} {p' e' : Id} : e' ∈ (setLink ctx e p isMatch db).links k' p' ↔
    if k' = ctx.linkCollection ∧ p' = p ∧ e' = e then isMatch = true else e' ∈ db.links k' p' := by
  rcases setLink_cases ctx e p isMatch db with ⟨heq, h⟩ | ⟨hm, h, heq⟩ | ⟨hm, h, heq⟩
  · rw [heq]
    split
    · rename_i hsame
      obtain ⟨rfl, rfl, rfl⟩ := hsame
      exact h
    · rfl
  · rw [heq, (matched_effect ctx h).links, mem_setLinks]
    by_cases hsame : k' = ctx.linkCollection ∧ p' = p
    · obtain ⟨rfl, rfl⟩ := hsame
      by_cases he : e' = e
      · simp [he, hm]
      · simp [he]
    · rw [if_neg hsame, if_neg (fun hall => hsame ⟨hall.1, hall.2.1⟩)]
  · rw [heq, (unmatched_effect ctx h).links, mem_setLinks]
    by_cases hsame : k' = ctx.linkCollection ∧ p' = p
    · obtain ⟨rfl, rfl⟩ := hsame
      by_cases he : e' = e
      · simp [hm]
      · simp [he]
    · rw [if_neg hsame, if_neg (fun hall => hsame ⟨hall.1, hall.2.1⟩)]

variable {ctx}

theorem grounded_setLink (h : Grounded db)
    (hp : p ∈ db.policies) (he : e ∈ db.roleAttributes ctx.linkCollection) : Grounded (setLink ctx e p isMatch db) := by
  intro k' p' e' hmem
  obtain ⟨hpols, hattrs⟩ := setLink_frame ctx e p isMatch db
  rw [hpols, hattrs]
  rw [mem_links_setLink] at hmem
  split at hmem
  · rename_i hsame
    obtain ⟨rfl, rfl, rfl⟩ := hsame
    exact ⟨hp, he⟩
  · exact h k' p' e' hmem

/-- One link of a policy, and what an evaluation found for it. -/
structure Setting where
  kind : Kind
  access : Access
  policy : Id
  entity : Id
  isMatch : Bool

namespace Setting

def target (x : Setting) : Kind × Id × Id := (x.kind, x.policy, x.entity)

variable (db)

def apply (x : Setting) : Db := setLink (changeContext x.kind x.access) x.entity x.policy x.isMatch db

/-- The match is what the stored roles and role attributes say. -/
def Finds (x : Setting) : Prop :=
  ∃ policy attributes, db.policies.lookup x.policy = some policy ∧
    (db.roleAttributes x.kind).lookup x.entity = some attributes ∧
    (x.isMatch = true ↔ Selects policy x.kind x.entity attributes)

end Setting

open Setting (apply target)

@[simp]
theorem changeContext_linkCollection (k : Kind) (a : Access) : (changeContext k a).linkCollection = k := by
  cases k <;> rfl

variable (db) {x : Setting} {xs : List Setting}

theorem mem_links_apply :
    e ∈ (x.apply db).links k p ↔ if (k, p, e) = x.target then x.isMatch = true else e ∈ db.links k p := by
  rw [apply, mem_links_setLink]
  simp [target]

theorem settle_frame (xs : List Setting) (db : Db) : (xs.foldl apply db).policies = db.policies ∧
    (xs.foldl apply db).roleAttributes = db.roleAttributes := by
  induction xs generalizing db with
  | nil => exact ⟨rfl, rfl⟩
  | cons x xs ih =>
    obtain ⟨h₁, h₂⟩ := setLink_frame (changeContext x.kind x.access) x.entity x.policy x.isMatch db
    exact ⟨(ih _).1.trans h₁, (ih _).2.trans h₂⟩

theorem links_settle_other (hother : (k, p, e) ∉ xs.map target) (db : Db) :
    e ∈ (xs.foldl apply db).links k p ↔ e ∈ db.links k p := by
  induction xs generalizing db with
  | nil => rfl
  | cons x xs ih =>
    rw [map_cons, mem_cons, not_or] at hother
    rw [foldl_cons, ih hother.2, mem_links_apply, if_neg hother.1]

theorem links_settle_mem (hn : (xs.map target).Nodup) (hx : x ∈ xs)
    (db : Db) : x.entity ∈ (xs.foldl apply db).links x.kind x.policy ↔ x.isMatch = true := by
  induction xs generalizing db with
  | nil => cases hx
  | cons y xs ih =>
    obtain ⟨hy, hn'⟩ := List.nodup_cons.mp hn
    rw [foldl_cons]
    rcases mem_cons.mp hx with rfl | hx'
    · rw [links_settle_other hy, mem_links_apply, if_pos (show (x.kind, x.policy, x.entity) = x.target from rfl)]
    · exact ih hn' hx' _

variable {db}

theorem grounded_apply (hg : Grounded db) (hp : x.policy ∈ db.policies)
    (he : x.entity ∈ db.roleAttributes x.kind) : Grounded (x.apply db) := by
  apply grounded_setLink hg hp
  rw [changeContext_linkCollection]
  exact he

/-- A run of settings that covers a scope: each link in it once, with what the
roles say, under the access of its policy, and no link outside. -/
structure Settles (scope : Kind → Id → Id → Prop) (access : Id → Access) (db : Db) (xs : List Setting) : Prop where
  nodup : (xs.map target).Nodup
  finds : ∀ x ∈ xs, x.Finds db
  inside : ∀ x ∈ xs, scope x.kind x.policy x.entity
  access : ∀ x ∈ xs, x.access = access x.policy
  covers : ∀ k p e, scope k p e → p ∈ db.policies → e ∈ db.roleAttributes k → (k, p, e) ∈ xs.map target

namespace Settles

variable {scope : Kind → Id → Id → Prop} {access : Id → Access} {db : Db} {xs : List Setting}

section

variable (h : Settles scope access db xs)
include h

theorem others (hout : ¬scope k p e) : e ∈ (xs.foldl apply db).links k p ↔ e ∈ db.links k p := by
  apply links_settle_other
  intro hmem
  obtain ⟨x, hx, htarget⟩ := mem_map.mp hmem
  have hin := h.inside x hx
  cases htarget
  exact hout hin

theorem selected (hin : scope k p e) (hp : db.policies.lookup p = some policy)
    (he : (db.roleAttributes k).lookup e = some attributes) :
    e ∈ (xs.foldl apply db).links k p ↔ Selects policy k e attributes := by
  obtain ⟨x, hx, htarget⟩ := mem_map.mp (h.covers k p e hin (mem_of_lookup hp) (mem_of_lookup he))
  obtain ⟨policy', attributes', hp', he', hmatch⟩ := h.finds x hx
  cases htarget
  cases hp.symm.trans hp'
  cases he.symm.trans he'
  rw [links_settle_mem h.nodup hx, hmatch]

theorem invariant {P : Db → Prop} (h₀ : P db)
    (hstep : ∀ d (x : Setting), P d → x.policy ∈ d.policies → x.entity ∈ d.roleAttributes x.kind →
      scope x.kind x.policy x.entity → x.access = access x.policy → P (x.apply d)) : P (xs.foldl apply db) := by
  have hinv := List.foldlRecOn xs apply
    (motive := fun d => P d ∧ d.policies = db.policies ∧ d.roleAttributes = db.roleAttributes) ⟨h₀, rfl, rfl⟩ ?_
  · exact hinv.1
  · rintro d ⟨hd, hpols, hattrs⟩ x hx
    obtain ⟨policy, attributes, hp, he, -⟩ := h.finds x hx
    have hframe := setLink_frame (changeContext x.kind x.access) x.entity x.policy x.isMatch d
    refine ⟨hstep d x hd ?_ ?_ (h.inside x hx) (h.access x hx), hframe.1.trans hpols, hframe.2.trans hattrs⟩
    · rw [hpols]
      exact mem_of_lookup hp
    · rw [hattrs]
      exact mem_of_lookup he

theorem grounded (hg : Grounded db) : Grounded (xs.foldl apply db) :=
  h.invariant hg (fun _ _ hd hp he _ _ => grounded_apply hd hp he)

theorem append {scope' : Kind → Id → Id → Prop} {ys : List Setting}
    (h' : Settles scope' access (xs.foldl apply db) ys) (hdisj : ∀ k p e, scope k p e → ¬scope' k p e) :
    Settles (fun k p e => scope k p e ∨ scope' k p e) access db (xs ++ ys) := by
  obtain ⟨hpols, hattrs⟩ := settle_frame xs db
  refine ⟨?_, ?_, ?_, ?_, ?_⟩
  · rw [List.map_append, List.nodup_append]
    refine ⟨h.nodup, h'.nodup, ?_⟩
    intro t ht t' ht' heq
    obtain ⟨x, hx, rfl⟩ := mem_map.mp ht
    obtain ⟨y, hy, rfl⟩ := mem_map.mp ht'
    have hin := h.inside x hx
    have hin' := h'.inside y hy
    obtain ⟨hk, hp, he⟩ : x.kind = y.kind ∧ x.policy = y.policy ∧ x.entity = y.entity := by
      simpa [target] using heq
    rw [hk, hp, he] at hin
    exact hdisj _ _ _ hin hin'
  · intro x hx
    rcases mem_append.mp hx with hx | hx
    · exact h.finds x hx
    · obtain ⟨policy, attributes, hp, he, hmatch⟩ := h'.finds x hx
      rw [hpols] at hp
      rw [hattrs] at he
      exact ⟨policy, attributes, hp, he, hmatch⟩
  · intro x hx
    exact (mem_append.mp hx).imp (h.inside x) (h'.inside x)
  · intro x hx
    rcases mem_append.mp hx with hx | hx
    · exact h.access x hx
    · exact h'.access x hx
  · intro k p e hscope hp he
    rw [List.map_append, mem_append]
    rcases hscope with hs | hs
    · exact .inl (h.covers k p e hs hp he)
    · exact .inr (h'.covers k p e hs (by rw [hpols]; exact hp) (by rw [hattrs]; exact he))

end

end Settles

theorem nodup_pairs_map {V : Type} (t : IdTable V) {f : Id × V → Kind × Id × Id} {g : Kind × Id × Id → Id}
    (hg : ∀ x, g (f x) = x.1) : ((pairs t).map f).Nodup := by
  apply List.Nodup.of_map g
  rw [map_map]
  have heq : g ∘ f = Prod.fst := funext hg
  rw [heq, pairs_keys]
  exact AList.keys_nodup t

theorem evaluatePolicy_settles {a : Access} (h : evaluatePolicy (changeContext k a) p db = .ok db') :
    ∃ xs, Settles (fun k' p' _ => k' = k ∧ p' = p) (fun _ => a) db xs ∧ db' = xs.foldl apply db := by
  obtain ⟨policy, hpol, h⟩ := bind_ok h
  split at h
  · cases h
  · obtain ⟨⟨roles, ids⟩, hsplit, h⟩ := bind_ok h
    obtain ⟨-, -, h⟩ := bind_ok h
    cases h
    rw [changeContext_linkCollection] at hsplit
    refine ⟨(pairs (db.roleAttributes k)).map
      (fun x => ⟨k, a, p, x.1, policyMatches policy.semantic x.1 ids roles x.2⟩), ⟨?_, ?_, ?_, ?_, ?_⟩, ?_⟩
    · rw [map_map]
      exact nodup_pairs_map (g := fun t => t.2.2) _ (fun _ => rfl)
    · simp only [mem_map]
      rintro x ⟨y, hy, rfl⟩
      exact ⟨policy, y.2, elim_ok hpol, mem_pairs.mp hy, policyMatches_iff hsplit _ _⟩
    · simp only [mem_map]
      rintro x ⟨y, -, rfl⟩
      exact ⟨rfl, rfl⟩
    · simp only [mem_map]
      rintro x ⟨y, -, rfl⟩
      rfl
    · rintro k' - e ⟨rfl, rfl⟩ - he
      obtain ⟨attributes, hattr⟩ := mem_iff_lookup.mp he
      rw [map_map]
      exact mem_map.mpr ⟨(e, attributes), mem_pairs.mpr hattr, rfl⟩
    · rw [List.foldl_map, changeContext_linkCollection]
      rfl

/-- What a policy that can be evaluated says about an entity. -/
def found (k : Kind) (e : Id) (attributes : List String) (policy : ServicePolicy) : Bool :=
  match splitRolesAndIds (policy.roles k) with
  | .ok (roles, ids) => policyMatches policy.semantic e ids roles attributes
  | .error _ => false

def relatedSettings (k : Kind) (e : Id) (attributes : List String) (ps : List (Id × ServicePolicy)) : List Setting :=
  ps.map (fun y => ⟨k, y.2.policyType.access, y.1, e, found k e attributes y.2⟩)

theorem relatedRoles_ok {ps : List (Id × ServicePolicy)} (h : ps.foldlM (fun db policy => do
        let (roles, ids) ← splitRolesAndIds (policy.2.roles k)
        return evaluatePolicyAgainstEntity (changeContext k policy.2.policyType.access) policy.2.semantic e
          policy.1 ids roles attributes db) db = Except.ok db') :
    (∀ y ∈ ps, found k e attributes y.2 = true ↔ Selects y.2 k e attributes) ∧
      db' = (relatedSettings k e attributes ps).foldl apply db := by
  induction ps generalizing db with
  | nil =>
    cases h
    exact ⟨fun _ hy => absurd hy not_mem_nil, rfl⟩
  | cons y ps ih =>
    obtain ⟨d, hd, h⟩ := bind_ok h
    obtain ⟨⟨roles, ids⟩, hsplit, hd⟩ := bind_ok hd
    cases hd
    have hfound : found k e attributes y.2 = policyMatches y.2.semantic e ids roles attributes := by
      rw [found, hsplit]
    obtain ⟨hall, hdb⟩ := ih h
    refine ⟨?_, ?_⟩
    · intro z hz
      rcases mem_cons.mp hz with rfl | hz
      · rw [hfound, policyMatches_iff hsplit]
      · exact hall z hz
    · rw [hdb]
      simp only [relatedSettings, map_cons, hfound]
      rfl

variable (db)

def storedAccess (p : Id) : Access := ((db.policies.lookup p).map (fun policy => policy.policyType.access)).getD .dial

variable {db}

theorem storedAccess_eq (h : db.policies.lookup p = some policy) : storedAccess db p = policy.policyType.access := by
  rw [storedAccess, h]
  rfl

theorem relatedRoles_settles (he : (db.roleAttributes k).lookup e = some attributes)
    (h : updateServicePolicyRelatedRoles k e attributes db = .ok db') :
    ∃ xs, Settles (fun k' _ e' => k' = k ∧ e' = e) (storedAccess db) db xs ∧ db' = xs.foldl apply db := by
  obtain ⟨hall, hdb⟩ := relatedRoles_ok h
  refine ⟨_, ⟨?_, ?_, ?_, ?_, ?_⟩, hdb⟩
  · rw [relatedSettings, map_map]
    exact nodup_pairs_map (g := fun t => t.2.1) _ (fun _ => rfl)
  · simp only [relatedSettings, mem_map]
    rintro x ⟨y, hy, rfl⟩
    exact ⟨y.2, attributes, mem_pairs.mp hy, he, hall y hy⟩
  · simp only [relatedSettings, mem_map]
    rintro x ⟨y, -, rfl⟩
    exact ⟨rfl, rfl⟩
  · simp only [relatedSettings, mem_map]
    rintro x ⟨y, hy, rfl⟩
    exact (storedAccess_eq (mem_pairs.mp hy)).symm
  · rintro - p - ⟨rfl, rfl⟩ hp -
    obtain ⟨policy, hpol⟩ := mem_iff_lookup.mp hp
    rw [relatedSettings, map_map]
    exact mem_map.mpr ⟨(p, policy), mem_pairs.mpr hpol, rfl⟩

theorem when_ok {b : Bool} {f : Db → Except StoreError Db} (h : when b f db = .ok db') :
    (b = true ∧ f db = .ok db') ∨ (b = false ∧ db' = db) := by
  cases b with
  | true => exact .inl ⟨rfl, h⟩
  | false =>
    cases h
    exact .inr ⟨rfl, rfl⟩

theorem when_settles {b : Bool} {a : Access} (h : when b (evaluatePolicy (changeContext k a) p) db = .ok db') :
    ∃ xs, Settles (fun k' p' _ => b = true ∧ k' = k ∧ p' = p) (fun _ => a) db xs ∧ db' = xs.foldl apply db := by
  rcases when_ok h with ⟨rfl, hok⟩ | ⟨rfl, rfl⟩
  · obtain ⟨xs, hs, hdb⟩ := evaluatePolicy_settles hok
    refine ⟨xs, ?_, hdb⟩
    simpa only [true_and] using hs
  · refine ⟨[], ⟨List.nodup_nil, ?_, ?_, ?_, ?_⟩, rfl⟩
    · exact fun x hx => absurd hx not_mem_nil
    · exact fun x hx => absurd hx not_mem_nil
    · exact fun x hx => absurd hx not_mem_nil
    · exact fun k' p' e hscope => absurd hscope.1 Bool.false_ne_true

variable {due : Kind → Bool} {t : PolicyType}

theorem rolesUpdated_ok (h : rolesUpdated due t p db = .ok db') :
    ∃ d₁ d₂, when (due .identity) (evaluatePolicy (changeContext .identity t.access) p) db = .ok d₁ ∧
      when (due .service) (evaluatePolicy (changeContext .service t.access) p) d₁ = .ok d₂ ∧
      when (due .postureCheck) (evaluatePolicy (changeContext .postureCheck t.access) p) d₂ = .ok db' := by
  obtain ⟨d₁, h₁, h⟩ := bind_ok h
  obtain ⟨d₂, h₂, h⟩ := bind_ok h
  exact ⟨d₁, d₂, h₁, h₂, h⟩

theorem rolesUpdated_settles (h : rolesUpdated due t p db = .ok db') :
    ∃ xs, Settles (fun k p' _ => due k = true ∧ p' = p) (fun _ => t.access) db xs ∧
      db' = xs.foldl apply db := by
  obtain ⟨d₁, d₂, h₁, h₂, h₃⟩ := rolesUpdated_ok h
  obtain ⟨xs₁, s₁, rfl⟩ := when_settles h₁
  obtain ⟨xs₂, s₂, rfl⟩ := when_settles h₂
  obtain ⟨xs₃, s₃, rfl⟩ := when_settles h₃
  have s₁₂ := s₁.append s₂ (by rintro k - e ⟨-, rfl, -⟩ ⟨-, hk, -⟩; cases hk)
  rw [← foldl_append] at s₃
  have s := s₁₂.append s₃ (by rintro k - e (⟨-, rfl, -⟩ | ⟨-, rfl, -⟩) ⟨-, hk, -⟩ <;> cases hk)
  refine ⟨xs₁ ++ xs₂ ++ xs₃, ?_, by rw [foldl_append, foldl_append]⟩
  have hscope : (fun k p' (_ : Id) => due k = true ∧ p' = p) = fun k p' _ =>
      ((due .identity = true ∧ k = .identity ∧ p' = p) ∨ (due .service = true ∧ k = .service ∧ p' = p)) ∨
        (due .postureCheck = true ∧ k = .postureCheck ∧ p' = p) := by
    funext k p' _
    cases k <;> simp
  rw [hscope]
  exact s

end Zt.PolicyLinks
