import Zt.RouterGraph

namespace Zt.RouterLinks

open EdgeCtrl RouterModel RouterHandlers RouterView RouterGraph

variable {v : View} {t : RelatedEntityType} {id : Id} {policyIds : List Id} {index : UInt64}

section

variable (h : Consistent v)
include h

theorem Consistent.setIdentity (i : Id) {m : Option Membership}
    (hm : (m.map roles).getD ∅ = held v i) : Consistent (v.setIdentity i m) := by
  refine h.congr (fun j => ?_) rfl
  by_cases hj : j = i
  · rw [hj, ← hm]
    simp [held, View.setIdentity]
  · simp [held, View.setIdentity, hj]

theorem consistent_addIdentity {i : Id} : Consistent (v.setIdentity i (some ((v.identity i).getD {}))) := by
  apply Consistent.setIdentity h i
  cases hi : v.identity i <;> simp [held, hi, roles]

theorem consistent_dropIdentity {i : Id} (hi : ∀ p, ¬ (graph v).link .relatedIdentity p i) :
    Consistent (v.setIdentity i none) := by
  apply Consistent.setIdentity h i
  ext p
  have hnot : p ∉ held v i := by
    rw [mem_held, ← h.link_iff]
    exact hi p
  simp [hnot]

theorem consistent_setService {s : Id} {back : Option (Set Id)} :
    Consistent (v.setService s back) := h.congr (fun _ => rfl) rfl

theorem consistent_setCheck {c : Id} {back : Option (Set Id)} :
    Consistent (v.setCheck c back) := h.congr (fun _ => rfl) rfl

theorem consistent_updatePolicy (index : UInt64) (model : DataStateServicePolicy) :
    Consistent (v.updatePolicy index model) := by
  unfold View.updatePolicy
  cases hp : v.policy model.id with
  | none =>
    refine h.update rfl (fun _ _ _ => .rfl) (fun hnone => by cases hnone) fun policy heq => ?_
    cases heq
    refine ⟨rfl, fun i => ⟨fun hmem => by simp at hmem, fun hheld => ?_⟩⟩
    obtain ⟨m, hm, hmem⟩ := mem_held.mp hheld
    obtain ⟨policy, hpol⟩ := h.known hm hmem
    cases hp.symm.trans hpol
  | some old =>
    have hid := h.named hp
    have hheld : ∀ w, (∀ i, held w i = held v i) → w.policy = v.policy →
        Consistent (w.setPolicy model.id (some { old with id := model.id, policyType := model.policyType })) := by
      intro w hw hpol
      refine h.update (by rw [View.setPolicy, hpol]) (fun i q _ => ?_) (fun hnone => by cases hnone)
        fun policy heq => ?_
      · exact iff_of_eq (congrArg (q ∈ ·) (hw i))
      · cases heq
        refine ⟨rfl, fun i => ?_⟩
        rw [h.linked hp i, ← mem_held, ← hw i]
        rfl
    by_cases ht : old.policyType = model.policyType
    · simp only [ht]
      exact hheld v (fun _ => rfl) rfl
    · simp only [ht, if_false]
      refine hheld _ (fun i => ?_) rfl
      ext q
      rw [mem_held, mem_held]
      simp only [View.onMembers]
      split
      · rename_i hi
        obtain ⟨m, hm, hmem⟩ := (h.linked hp i).mp hi
        by_cases hq : q = model.id <;> simp [hm, mem_addedToPolicy, mem_removedFromPolicy, hid, hq, hmem]
      · rfl

theorem consistent_deletePolicy (index : UInt64) (p : Id) : Consistent (v.deletePolicy index p) := by
  unfold View.deletePolicy
  cases hp : v.policy p with
  | none => exact h
  | some old =>
    have hid := h.named hp
    have hheld : ∀ i q, q ∈ held (v.onMembers old.identities (fun m => some (m.removedFromPolicy old index))) i ↔
        q ≠ p ∧ q ∈ held v i := by
      intro i q
      rw [mem_held, mem_held]
      simp only [View.onMembers]
      by_cases hi : i ∈ old.identities
      · cases hm : v.identity i <;> simp [hi, mem_removedFromPolicy, hid]
      · rw [if_neg hi, iff_and_self]
        rintro hq rfl
        exact hi ((h.linked hp i).mpr hq)
    refine h.update rfl (fun i q hq => ?_) (fun _ i => ?_) (fun _ heq => by cases heq)
    · exact (hheld i q).trans (and_iff_right hq)
    · exact fun hmem => ((hheld i p).mp hmem).1 rfl

end

/-- Let the policies of the list go from an entity. -/
def unlink (g : Graph) (t : RelatedEntityType) (id : Id) (policyIds : List Id) : Graph :=
  { g with link := fun t' p id' => g.link t' p id' ∧ ¬ (t' = t ∧ id' = id ∧ p ∈ policyIds) }

/-- The policies a service or a check knows it is in. -/
def back (v : View) (t : RelatedEntityType) (id : Id) : Option (Set Id) :=
  match t with
  | .relatedService => v.service id
  | .relatedPostureCheck => v.check id
  | _ => none

theorem back_foldl_linkIdentity {p : Id} {add : Bool} {ids : List Id} :
    back (ids.foldl (View.linkIdentity index p add) v) = back v := by
  induction ids generalizing v with
  | nil => rfl
  | cons i ids ih =>
    rw [List.foldl_cons, ih]
    unfold View.linkIdentity
    split <;> rfl

theorem back_change (h : Consistent v) (c : DataStateServicePolicyChange) (t : RelatedEntityType)
    (id : Id) : back (v.change index c) t id =
      if c.relatedEntityType = t ∧ id ∈ c.relatedEntityIds ∧ (v.policy c.policyId).isSome then
        (back v t id).map (toggle c.policyId c.add) else back v t id := by
  obtain ⟨p, -, t', -⟩ := c
  unfold View.change
  cases hp : v.policy p with
  | none => simp
  | some policy =>
    have hid := h.named hp
    cases t' with
    | relatedIdentity =>
      simp only [back_foldl_linkIdentity]
      split
      · rename_i hc
        obtain ⟨rfl, -⟩ := hc
        rfl
      · rfl
    | relatedService => cases t <;> simp [back, View.changeServices, View.onMembers, backLinks, hid]
    | relatedPostureCheck => cases t <;> simp [back, View.changeChecks, View.onMembers, backLinks, hid]
    | invalidRelatedType =>
      simp only
      split
      · rename_i hc
        obtain ⟨rfl, -⟩ := hc
        rfl
      · rfl

/-- An invariant of the view that the events on entities and policies keep, and
the policy changes too while they are in order. -/
structure Kept (index : UInt64) (ok : View → Event → Prop) (inv : View → Prop) : Prop where
  consistent : ∀ {v}, inv v → Consistent v
  service : ∀ {v} s b, inv v → inv (v.setService s b)
  check : ∀ {v} c b, inv v → inv (v.setCheck c b)
  addIdentity : ∀ {v} i, inv v → inv (v.setIdentity i (some ((v.identity i).getD {})))
  dropIdentity : ∀ {v i}, inv v → (∀ p, ¬ (graph v).link .relatedIdentity p i) → inv (v.setIdentity i none)
  updatePolicy : ∀ {v action synthetic model}, inv v → action ≠ .delete →
    ok v ⟨action, synthetic, .servicePolicy model⟩ → inv (v.updatePolicy index model)
  deletePolicy : ∀ {v} p, inv v → inv (v.deletePolicy index p)
  change : ∀ {v action synthetic c}, inv v → ok v ⟨action, synthetic, .servicePolicyChange c⟩ →
    Returns index v c ∧ inv (v.change index c)
  removal : ∀ {v t p id}, inv v → (graph v).link t p id →
    ok v ⟨.create, false, .servicePolicyChange ⟨p, [id], t, false⟩⟩

section Events

variable {index : UInt64} {ok : View → Event → Prop} {inv : View → Prop} {rdm : RouterDataModel}
  {c : DataStateServicePolicyChange} {b : Option (Set Id)}

theorem Kept.handleChange (k : Kept index ok inv) (h : inv (view rdm)) {action : Action} {synthetic : Bool}
    (hok : ok (view rdm) ⟨action, synthetic, .servicePolicyChange c⟩) :
    ∃ rdm', handleServicePolicyChange index rdm c = some rdm' ∧ view rdm' = (view rdm).change index c ∧
      inv (view rdm') ∧ graph (view rdm') = (graph (view rdm)).change c := by
  obtain ⟨hr, hinv⟩ := k.change h hok
  obtain ⟨rdm', hrdm'⟩ := handleServicePolicyChange_returns hr
  have hview := view_handleServicePolicyChange hrdm'
  refine ⟨rdm', hrdm', hview, ?_, ?_⟩
  · rwa [hview]
  · rw [hview]
    exact ((k.consistent h).change hr).2

/-- The cleanup before a deletion returns, and removes what it lists. -/
theorem Kept.cleanup (k : Kept index ok inv) (h : inv (view rdm)) (hn : policyIds.Nodup)
    (hl : ∀ p ∈ policyIds, (graph (view rdm)).link t p id) :
    ∃ rdm', (policyIds.map (fun p => (⟨p, [id], t, false⟩ : DataStateServicePolicyChange))).foldlM
        (handleServicePolicyChange index) rdm = some rdm' ∧ inv (view rdm') ∧
      graph (view rdm') = unlink (graph (view rdm)) t id policyIds ∧
      ∀ t' id', ¬ (t' = t ∧ id' = id) → back (view rdm') t' id' = back (view rdm) t' id' := by
  induction policyIds generalizing rdm with
  | nil =>
    refine ⟨rdm, rfl, h, ?_, fun _ _ _ => rfl⟩
    simp [unlink]
  | cons p policyIds ih =>
    obtain ⟨hp, hn'⟩ := List.nodup_cons.mp hn
    obtain ⟨rdm₁, h₁, hview, hinv, hgraph⟩ := k.handleChange h (k.removal h (hl p List.mem_cons_self))
    have hl₁ : ∀ q ∈ policyIds, (graph (view rdm₁)).link t q id := by
      intro q hq
      rw [hgraph]
      refine .inr ⟨hl q (List.mem_cons_of_mem p hq), fun hc => hp ?_⟩
      have hpq : p = q := hc.2.1
      rwa [hpq]
    obtain ⟨rdm₂, h₂, hinv₂, hgraph₂, hback₂⟩ := ih hinv hn' hl₁
    refine ⟨rdm₂, by simp [h₁, h₂], hinv₂, ?_, ?_⟩
    · rw [hgraph₂, hgraph]
      refine Graph.eq_of_link rfl rfl fun t' q id' => ?_
      simp only [unlink, Graph.change]
      simp
      tauto
    · intro t' id' hne
      rw [hback₂ t' id' hne, hview, back_change (k.consistent h), if_neg]
      rintro ⟨rfl, hid, -⟩
      exact hne ⟨rfl, List.mem_singleton.mp hid⟩

/-- Every service and check in a policy is there and knows the policy. -/
def Backed (v : View) : Prop :=
  ∀ t p id, t = .relatedService ∨ t = .relatedPostureCheck → (graph v).link t p id →
    ∃ b, back v t id = some b ∧ p ∈ b

theorem Backed.mono {v' : View} (h : Backed v) (hl : ∀ t p id, (graph v').link t p id →
    (graph v).link t p id ∧ ∀ b, back v t id = some b → back v' t id = some b) : Backed v' := by
  intro t p id ht hlink
  obtain ⟨hlink₀, hback⟩ := hl t p id hlink
  obtain ⟨b, hb, hp⟩ := h t p id ht hlink₀
  exact ⟨b, hback b hb, hp⟩

theorem Backed.not_link (h : Backed v) (ht : t = .relatedService ∨ t = .relatedPostureCheck) (hb : back v t id = none)
    (p : Id) : ¬ (graph v).link t p id := by
  intro hlink
  obtain ⟨b, hsome, -⟩ := h t p id ht hlink
  rw [hb] at hsome
  cases hsome

/-- What is linked is there. -/
def Anchored (v : View) (event : Event) : Prop :=
  match event.model with
  | .servicePolicyChange c => c.add = true → c.relatedEntityType ≠ .invalidRelatedType →
      ∀ id ∈ c.relatedEntityIds, present v c.relatedEntityType id
  | _ => True

theorem Backed.change (h : Backed v) (hc : Consistent v) (hr : Returns index v c)
    (ha : c.add = true → c.relatedEntityType ≠ .invalidRelatedType →
      ∀ id ∈ c.relatedEntityIds, present v c.relatedEntityType id) : Backed (v.change index c) := by
  intro t p id ht hlink
  rw [(hc.change hr).2] at hlink
  rw [back_change hc]
  rcases hlink with ⟨rfl, rfl, hid, hadd, hpol, -⟩ | ⟨hlink, hkeep⟩
  · -- the new link: the entity is there, so it learns of the policy
    have hpres := ha hadd (by rcases ht with ht | ht <;> simp [ht]) id hid
    have hsome : ∃ b, back v c.relatedEntityType id = some b := by
      rcases ht with ht | ht <;> rw [ht] at hpres ⊢ <;> exact Option.isSome_iff_exists.mp hpres
    obtain ⟨b, hb⟩ := hsome
    have hpol' : (v.policy c.policyId).isSome = true := hpol
    rw [if_pos ⟨rfl, hid, hpol'⟩, hb]
    exact ⟨_, rfl, by simp [toggle, hadd]⟩
  · obtain ⟨b, hb, hp⟩ := h t p id ht hlink
    rw [hb]
    split
    · rename_i hcond
      obtain ⟨rfl, hid, -⟩ := hcond
      cases hadd : c.add with
      | true => simp [toggle, hp]
      | false =>
        have hne : p ≠ c.policyId := fun heq => hkeep ⟨rfl, heq.symm, hid, hadd⟩
        simp [toggle, hp, hne]
    · exact ⟨b, rfl, hp⟩

/-- What an event does: it keeps the invariant and does to the links what it
says. The cleanup of a deletion relies on what services and checks know. -/
structure Stepped (inv : View → Prop) (v : View) (event : Event) (v' : View) : Prop where
  inv : inv v'
  graph : event.action ≠ .delete ∨ Backed v → RouterGraph.graph v' = (RouterGraph.graph v).apply event
  backed : Backed v → Anchored v event → Backed v'

def unlinkAll (g : Graph) (t : RelatedEntityType) (id : Id) : Graph :=
  { g with link := fun t' p id' => g.link t' p id' ∧ ¬ (t' = t ∧ id' = id) }

theorem unlink_eq_unlinkAll {g : Graph} (h : ∀ p, g.link t p id → p ∈ policyIds) :
    unlink g t id policyIds = unlinkAll g t id := by
  refine Graph.eq_of_link rfl rfl fun t' p id' => ?_
  constructor
  · rintro ⟨hlink, hnot⟩
    refine ⟨hlink, ?_⟩
    rintro ⟨rfl, rfl⟩
    exact hnot ⟨rfl, rfl, h p hlink⟩
  · rintro ⟨hlink, hnot⟩
    exact ⟨hlink, fun hc => hnot ⟨hc.1, hc.2.1⟩⟩

theorem unlinkAll_eq_self {g : Graph} (h : ∀ p, ¬ g.link t p id) : unlinkAll g t id = g := by
  refine Graph.eq_of_link rfl rfl fun t' p id' => and_iff_left_of_imp ?_
  rintro hlink ⟨rfl, rfl⟩
  exact h p hlink

theorem mem_cleanup {p : Id} :
    p ∈ policyIds.filter (fun p => (v.policy p).any (fun policy => id ∈ members t policy)) ↔
      p ∈ policyIds ∧ (graph v).link t p id := by
  simp [graph, Option.any_eq_true]

/-- The cleanup of an entity that knows the given policies. -/
theorem Kept.cleanupActions (k : Kept index ok inv) (rdm rdm₀ : RouterDataModel) (h : inv (view rdm))
    (hv : (view rdm₀).policy = (view rdm).policy) (id : Id) (hn : policyIds.Nodup) :
    ∃ rdm', (RouterHandlers.cleanupActions rdm₀ policyIds t id (members t)).foldlM (handleServicePolicyChange index)
        rdm = some rdm' ∧ inv (view rdm') ∧ ((∀ p, (graph (view rdm₀)).link t p id → p ∈ policyIds) →
        graph (view rdm') = unlinkAll (graph (view rdm)) t id) ∧
      ∀ t' id', ¬ (t' = t ∧ id' = id) → back (view rdm') t' id' = back (view rdm) t' id' := by
  have hlink : (graph (view rdm₀)).link = (graph (view rdm)).link := by simp [graph, hv]
  let linked := policyIds.filter (fun p => ((view rdm₀).policy p).any (fun policy => id ∈ members t policy))
  have hl : ∀ p ∈ linked, (graph (view rdm)).link t p id := fun p hp => hlink ▸ (mem_cleanup.mp hp).2
  obtain ⟨rdm', h₁, hinv, hgraph, hback⟩ := k.cleanup h (hn.filter _) hl
  rw [cleanupActions_eq (fun p => by cases t <;> rfl)]
  refine ⟨rdm', h₁, hinv, fun hall => ?_, hback⟩
  rw [hgraph]
  apply unlink_eq_unlinkAll
  intro p hp
  rw [← hlink] at hp
  exact mem_cleanup.mpr ⟨hall p hp, hp⟩

def absent (g : Graph) (t : RelatedEntityType) (id : Id) : Graph :=
  { g with present := fun t' id' => g.present t' id' ∧ ¬ (t' = t ∧ id' = id) }

theorem graph_of_set {v' : View} {there : Bool} (hpol : v'.policy = v.policy)
    (hp : ∀ t' id', present v' t' id' ↔ if t' = t ∧ id' = id then there = true else present v t' id') :
    graph v' = if there then (graph v).add t id else absent (graph v) t id := by
  cases there with
  | true =>
    apply RouterGraph.Graph.ext
    · funext t' id'
      by_cases hc : t' = t ∧ id' = id <;> simp_all [graph, Graph.add]
    · simp [graph, hpol, Graph.add]
    · simp [graph, hpol, Graph.add]
  | false =>
    apply RouterGraph.Graph.ext
    · funext t' id'
      by_cases hc : t' = t ∧ id' = id <;> simp_all [graph, absent]
    · simp [graph, hpol, absent]
    · simp [graph, hpol, absent]

theorem graph_setIdentity (v : View) (i : Id) (m : Option Membership) : graph (v.setIdentity i m) =
    if m.isSome then (graph v).add .relatedIdentity i else absent (graph v) .relatedIdentity i := by
  refine graph_of_set rfl fun t' id' => ?_
  cases t' <;> by_cases h : id' = i <;> simp [present, View.setIdentity, h]

theorem graph_setService {s : Id} : graph (v.setService s b) =
    if b.isSome then (graph v).add .relatedService s else absent (graph v) .relatedService s := by
  refine graph_of_set rfl fun t' id' => ?_
  cases t' <;> by_cases h : id' = s <;> simp [present, View.setService, h]

theorem graph_setCheck {c : Id} : graph (v.setCheck c b) =
    if b.isSome then (graph v).add .relatedPostureCheck c else absent (graph v) .relatedPostureCheck c := by
  refine graph_of_set rfl fun t' id' => ?_
  cases t' <;> by_cases h : id' = c <;> simp [present, View.setCheck, h]

end Events

end Zt.RouterLinks
