import Zt.RouterLinks

namespace Zt.RouterEvents

open Tables EdgeCtrl RouterModel RouterHandlers RouterView RouterGraph RouterLinks
open RouterGraph.Graph (addPolicy dropPolicy apply drop link ext)
open Function (update_apply)

variable {index : UInt64} {ok : View → Event → Prop} {inv : View → Prop} {v : View} {event : Event}
  {t : RelatedEntityType} {id p : Id} {rdm : RouterDataModel} {policy : ServicePolicy}
  {model : DataStateServicePolicy} {action : Action} {synthetic : Bool} {b : Option (Set Id)} {m : Membership}
  {ids : List Id} {c : DataStateServicePolicyChange}

theorem stepped_same (h : inv v) (he : (graph v).apply event = graph v) : Stepped inv v event v :=
  ⟨h, fun _ => he.symm, fun hb _ => hb⟩

theorem graph_setPolicy (hm : ∀ t id, id ∈ members t policy ↔ (graph v).link t p id) :
    graph (v.setPolicy p (some policy)) = (graph v).addPolicy p := by
  apply ext
  · funext t id
    cases t <;> rfl
  · funext q
    simp only [graph, View.setPolicy, addPolicy]
    by_cases hq : q = p <;> simp [hq]
  · funext t q id
    have hsame := hm t id
    simp only [graph, View.setPolicy, addPolicy] at hsame ⊢
    by_cases hq : q = p
    · simp [hq, hsame]
    · simp [hq]

theorem graph_setPolicy_none : graph (v.setPolicy p none) = (graph v).dropPolicy p := by
  apply ext
  · funext t id
    cases t <;> rfl
  · funext q
    simp only [graph, View.setPolicy, dropPolicy]
    by_cases hq : q = p <;> simp [hq]
  · funext t q id
    simp only [graph, View.setPolicy, dropPolicy]
    by_cases hq : q = p <;> simp [hq]

theorem graph_onMembers {ids : IdSet} (f : Membership → Membership) :
    graph (v.onMembers ids (fun m => some (f m))) = graph v := by
  apply ext
  · funext t id
    cases t with
    | relatedIdentity => exact congrArg (· = true) (isSome_onMembers (fun _ _ _ _ => ⟨_, rfl⟩) id)
    | _ => rfl
  · rfl
  · rfl

theorem graph_updatePolicy : graph (v.updatePolicy index model) = (graph v).addPolicy model.id := by
  unfold View.updatePolicy
  cases hp : v.policy model.id with
  | none =>
    apply graph_setPolicy
    intro t id
    cases t <;> simp [members, graph, hp]
  | some old =>
    have hset : ∀ w, w.policy = v.policy →
        graph (w.setPolicy model.id (some { old with id := model.id, policyType := model.policyType })) =
          (graph w).addPolicy model.id := by
      intro w hw
      apply graph_setPolicy
      intro t id
      cases t <;> simp [members, graph, hw, hp]
    by_cases ht : old.policyType = model.policyType
    · simp only [ht]
      exact hset v rfl
    · simp only [ht, if_false]
      rw [hset (v.onMembers old.identities _) rfl, graph_onMembers]

theorem graph_deletePolicy : graph (v.deletePolicy index p) = (graph v).dropPolicy p := by
  unfold View.deletePolicy
  cases hp : v.policy p with
  | none =>
    have hsame : v.setPolicy p none = v := by simp [View.setPolicy, ← hp]
    rw [← graph_setPolicy_none, hsame]
  | some old => rw [graph_setPolicy_none, graph_onMembers]

theorem back_updatePolicy : back (v.updatePolicy index model) = back v := by
  unfold View.updatePolicy
  split
  · rfl
  · split <;> rfl

theorem back_deletePolicy : back (v.deletePolicy index p) = back v := by
  unfold View.deletePolicy
  split <;> rfl

theorem stepped_servicePolicy (k : Kept index ok inv) (h : inv v)
    (hok : ok v ⟨action, synthetic, .servicePolicy model⟩) :
    Stepped inv v ⟨action, synthetic, .servicePolicy model⟩
      (if action = .delete then v.deletePolicy index model.id else v.updatePolicy index model) := by
  by_cases ha : action = .delete
  · rw [if_pos ha]
    refine ⟨k.deletePolicy model.id h, fun _ => ?_, fun hb _ => hb.mono ?_⟩
    · rw [graph_deletePolicy]
      simp [apply, ha]
    · intro t p id hlink
      rw [graph_deletePolicy] at hlink
      exact ⟨hlink.1, fun b hb => by rwa [back_deletePolicy]⟩
  · rw [if_neg ha]
    refine ⟨k.updatePolicy h ha hok, fun _ => ?_, fun hb _ => hb.mono ?_⟩
    · rw [graph_updatePolicy]
      simp [apply, ha]
    · intro t p id hlink
      rw [graph_updatePolicy] at hlink
      exact ⟨hlink, fun b hb => by rwa [back_updatePolicy]⟩

theorem graph_drop_of_absent {g : Graph} (hp : ¬ g.present t id) (hl : ∀ p, ¬ g.link t p id) : g.drop t id = g := by
  apply ext
  · funext t' id'
    simp only [drop, eq_iff_iff, and_iff_left_iff_imp]
    rintro hpres ⟨rfl, rfl⟩
    exact hp hpres
  · rfl
  · have hlink := congrArg link (unlinkAll_eq_self hl)
    exact hlink

theorem stepped_delete {v' : View} (hi : inv v') (ha : event.action = .delete)
    (he : (graph v).apply event = (graph v).drop t id) (hg : Backed v → graph v' = (graph v).drop t id)
    (hback : ∀ t' id', ¬ (t' = t ∧ id' = id) → back v' t' id' = back v t' id') : Stepped inv v event v' := by
  refine ⟨hi, fun hcond => ?_, fun hb _ => .mono hb fun t' p id' hlink => ?_⟩
  · exact (hg (hcond.resolve_left (not_not.mpr ha))).trans he.symm
  · rw [hg hb] at hlink
    exact ⟨hlink.1, fun b hsome => (hback t' id' hlink.2).trans hsome⟩

theorem stepped_add {v' : View} (hi : inv v') (he : (graph v).apply event = (graph v).add t id)
    (hg : graph v' = (graph v).add t id) (hback : ∀ t' id' b, back v t' id' = some b → back v' t' id' = some b) :
    Stepped inv v event v' := by
  refine ⟨hi, fun _ => hg.trans he.symm, fun hb _ => .mono hb fun t' p id' hlink => ?_⟩
  rw [hg] at hlink
  exact ⟨hlink, hback t' id'⟩

theorem unlinkIdentity_stepped (k : Kept index ok inv) (h : inv (view rdm)) (id : Id) :
    ∃ rdm', unlinkIdentity index rdm id = some rdm' ∧ inv (view rdm') ∧
      graph (view rdm') = unlinkAll (graph (view rdm)) .relatedIdentity id ∧
      ∀ t' id', ¬ (t' = .relatedIdentity ∧ id' = id) → back (view rdm') t' id' = back (view rdm) t' id' := by
  have hlinks := fun p => (k.consistent h).link_iff (p := p) (i := id)
  unfold unlinkIdentity
  cases hi : rdm.identities.lookup id with
  | none =>
    refine ⟨rdm, rfl, h, (unlinkAll_eq_self fun p hlink => ?_).symm, fun _ _ _ => rfl⟩
    obtain ⟨m, hm, -⟩ := (hlinks p).mp hlink
    simp [view, hi] at hm
  | some identity =>
    obtain ⟨rdm', h₁, hinv, hgraph, hback⟩ := k.cleanupActions
      { rdm with configs := removeConfigReferences rdm.configs identity.toDataStateIdentity } rdm h rfl id
        identity.servicePolicies.keys_nodup
    refine ⟨rdm', h₁, hinv, hgraph ?_, hback⟩
    intro p hlink
    obtain ⟨m, hm, hp⟩ := (hlinks p).mp hlink
    simp only [view, hi, Option.map_some, Option.some.injEq] at hm
    subst hm
    exact AList.mem_keys.mp hp

theorem stepped_identity (k : Kept index ok inv) (h : inv (view rdm))
    {model : DataStateIdentity} : ∃ rdm', handleIdentityEvent index rdm action model = some rdm' ∧
      Stepped inv (view rdm) ⟨action, synthetic, .identity model⟩ (view rdm') := by
  unfold handleIdentityEvent applyIdentityEvent
  by_cases ha : action = .delete
  · obtain ⟨rdm₁, h₁, hinv, hgraph, hback⟩ := unlinkIdentity_stepped k h model.id
    have hview := view_erase_identity rdm₁ model.id
    refine ⟨_, by simp only [ha, deleteIdentity, h₁]; rfl, ?_⟩
    have hstep : Stepped inv (view rdm) ⟨action, synthetic, .identity model⟩
        ((view rdm₁).setIdentity model.id none) := by
      refine stepped_delete (k.dropIdentity hinv ?_) ha (by simp [apply, Graph.set, ha]) (fun _ => ?_) hback
      · intro p hlink
        rw [hgraph] at hlink
        exact hlink.2 ⟨rfl, rfl⟩
      · rw [graph_setIdentity, hgraph]
        rfl
    rw [← hview] at hstep
    exact hstep
  · refine ⟨queueIdentityCheck action (setIdentity index rdm model) model.id, by simp [ha], ?_⟩
    have hview : view (queueIdentityCheck action (setIdentity index rdm model) model.id) =
        view (setIdentity index rdm model) := rfl
    rw [hview, view_setIdentity]
    exact stepped_add (k.addIdentity model.id h) (by simp [apply, Graph.set, ha])
      (graph_setIdentity _ _ _) (fun _ _ _ hsome => hsome)

/-- An entity that knows its policies is in no other one. -/
theorem mem_keys_of_link (h : Backed v) (ht : t = .relatedService ∨ t = .relatedPostureCheck) {policies : IdSet}
    (hback : back v t id = some {p | p ∈ policies}) (hlink : (graph v).link t p id) : p ∈ policies.keys := by
  obtain ⟨b, hsome, hp⟩ := h t p id ht hlink
  rw [hback] at hsome
  cases hsome
  exact AList.mem_keys.mp hp

theorem back_setService {s : Id} (h : ¬ (t = .relatedService ∧ id = s)) :
    back (v.setService s b) t id = back v t id := by
  cases t <;> simp_all [back, View.setService]

theorem back_setCheck {c : Id} (h : ¬ (t = .relatedPostureCheck ∧ id = c)) :
    back (v.setCheck c b) t id = back v t id := by
  cases t <;> simp_all [back, View.setCheck]

theorem stepped_service (k : Kept index ok inv) (h : inv (view rdm))
    {model : DataStateService} : ∃ rdm', handleServiceEvent index rdm action model = some rdm' ∧
      Stepped inv (view rdm) ⟨action, synthetic, .service model⟩ (view rdm') := by
  by_cases ha : action = .delete
  · have hdropped : (graph (view rdm)).apply ⟨action, synthetic, .service model⟩ =
        (graph (view rdm)).drop .relatedService model.id := by simp [apply, Graph.set, ha]
    unfold handleServiceEvent
    cases hs : rdm.services.lookup model.id with
    | none =>
      have hnone : back (view rdm) .relatedService model.id = none := by simp [back, view, hs]
      refine ⟨rdm, by simp [ha], stepped_delete h ha hdropped (fun hb => ?_) (fun _ _ _ => rfl)⟩
      rw [graph_drop_of_absent]
      · simp [graph, present, view, hs]
      · exact hb.not_link (.inl rfl) hnone
    | some service =>
      let rdm₀ : RouterDataModel := { rdm with
        configs := removeFromConfigs rdm.configs model.id service.configs
        services := rdm.services.erase model.id }
      have hview : view rdm₀ = (view rdm).setService model.id none := view_erase_service
      have hback : back (view rdm) .relatedService model.id = some {p | p ∈ service.servicePolicies} := by
        simp [back, view, hs]
      obtain ⟨rdm', h₁, hinv, hgraph, hkeep⟩ := k.cleanupActions rdm₀ rdm
        (by rw [hview]; exact k.service model.id none h) rfl model.id
        service.servicePolicies.keys_nodup
      refine ⟨rdm', ?_, stepped_delete hinv ha hdropped (fun hb => ?_) fun t' id' hne => ?_⟩
      · simp only [ha]
        exact h₁
      · rw [hgraph fun p => mem_keys_of_link hb (.inl rfl) hback, hview, graph_setService]
        rfl
      · rw [hkeep t' id' hne, hview, back_setService hne]
  · obtain ⟨rdm', h₁⟩ : ∃ rdm', handleServiceEvent index rdm action model = some rdm' := by
      unfold handleServiceEvent
      rw [if_neg ha]
      exact ⟨_, rfl⟩
    refine ⟨rdm', h₁, ?_⟩
    rw [view_handleServiceEvent_set ha h₁]
    refine stepped_add (k.service model.id _ h) (by simp [apply, Graph.set, ha])
      graph_setService fun t' id' b hsome => ?_
    by_cases hc : t' = .relatedService ∧ id' = model.id
    · obtain ⟨rfl, rfl⟩ := hc
      have hknown : (view rdm).service model.id = some b := hsome
      simp [back, View.setService, hknown]
    · rwa [back_setService hc]

theorem unlinkPostureCheck_stepped (k : Kept index ok inv) (h : inv (view rdm)) (id : Id) :
    ∃ rdm', unlinkPostureCheck index rdm id = some rdm' ∧ inv (view rdm') ∧
      (Backed (view rdm) → graph (view rdm') = unlinkAll (graph (view rdm)) .relatedPostureCheck id) ∧
      ∀ t' id', ¬ (t' = .relatedPostureCheck ∧ id' = id) → back (view rdm') t' id' = back (view rdm) t' id' := by
  unfold unlinkPostureCheck
  cases hc : rdm.postureChecks.lookup id with
  | none =>
    have hnone : back (view rdm) .relatedPostureCheck id = none := by simp [back, view, hc]
    exact ⟨rdm, rfl, h, fun hb => (unlinkAll_eq_self (hb.not_link (.inr rfl) hnone)).symm, fun _ _ _ => rfl⟩
  | some check =>
    have hback : back (view rdm) .relatedPostureCheck id = some {p | p ∈ check.servicePolicies} := by
      simp [back, view, hc]
    obtain ⟨rdm', h₁, hinv, hgraph, hkeep⟩ := k.cleanupActions rdm rdm h rfl id
      check.servicePolicies.keys_nodup
    exact ⟨rdm', h₁, hinv, fun hb => hgraph fun p => mem_keys_of_link hb (.inr rfl) hback, hkeep⟩

theorem stepped_postureCheck (k : Kept index ok inv) (h : inv (view rdm))
    {model : DataStatePostureCheck} : ∃ rdm', handlePostureCheckEvent index rdm action model = some rdm' ∧
      Stepped inv (view rdm) ⟨action, synthetic, .postureCheck model⟩ (view rdm') := by
  by_cases ha : action = .delete
  · obtain ⟨rdm₁, h₁, hinv, hgraph, hkeep⟩ := unlinkPostureCheck_stepped k h model.id
    unfold handlePostureCheckEvent
    refine ⟨_, by simp only [ha, h₁]; rfl, ?_⟩
    rw [view_erase_check]
    refine stepped_delete (k.check model.id none hinv) ha (by simp [ha]; rfl) (fun hb => ?_)
      fun t' id' hne => ?_
    · rw [graph_setCheck, hgraph hb]
      rfl
    · rw [back_setCheck hne, hkeep t' id' hne]
  · obtain ⟨rdm', h₁⟩ : ∃ rdm', handlePostureCheckEvent index rdm action model = some rdm' := by
      unfold handlePostureCheckEvent
      rw [if_neg ha]
      exact ⟨_, rfl⟩
    refine ⟨rdm', h₁, ?_⟩
    rw [view_handlePostureCheckEvent_set ha h₁]
    refine stepped_add (k.check model.id _ h) (by simp [apply, Graph.set, ha])
      graph_setCheck fun t' id' b hsome => ?_
    by_cases hc : t' = .relatedPostureCheck ∧ id' = model.id
    · obtain ⟨rfl, rfl⟩ := hc
      have hknown : (view rdm).check model.id = some b := hsome
      simp [back, View.setCheck, hknown]
    · rwa [back_setCheck hc]

/-- Every event that is in order returns, keeps the invariant and does to the
links what it says. -/
theorem handle_stepped (k : Kept index ok inv) (h : inv (view rdm)) (hok : ok (view rdm) event) :
    ∃ rdm', handle index rdm event = some rdm' ∧ Stepped inv (view rdm) event (view rdm') := by
  obtain ⟨action, synthetic, model⟩ := event
  cases model with
  | configType model =>
    refine ⟨_, rfl, ?_⟩
    rw [view_handleConfigTypeEvent]
    exact stepped_same h rfl
  | config model =>
    refine ⟨_, rfl, ?_⟩
    rw [view_handleConfigEvent]
    exact stepped_same h rfl
  | publicKey model => exact ⟨_, rfl, stepped_same h rfl⟩
  | revocation model => exact ⟨_, rfl, stepped_same h rfl⟩
  | identity model => exact stepped_identity k h
  | service model => exact stepped_service k h
  | postureCheck model => exact stepped_postureCheck k h
  | servicePolicy model =>
    have hview : view (handleServicePolicyEvent index rdm action model) =
        if action = .delete then (view rdm).deletePolicy index model.id
        else (view rdm).updatePolicy index model := by
      cases action with
      | create => exact view_applyUpdateServicePolicyEvent
      | update => exact view_applyUpdateServicePolicyEvent
      | delete => exact view_applyDeleteServicePolicyEvent
    refine ⟨_, rfl, ?_⟩
    rw [hview]
    exact stepped_servicePolicy k h hok
  | servicePolicyChange model =>
    obtain ⟨rdm', h₁, hview, hinv, hgraph⟩ := k.handleChange h hok
    refine ⟨rdm', h₁, hinv, fun _ => hgraph, fun hb ha => ?_⟩
    rw [hview]
    exact hb.change (k.consistent h) (k.change h hok).1 ha

/-- On a model that tracks no access nothing can go wrong. -/
def Untracked (v : View) : Prop :=
  Consistent v ∧ ∀ i m, v.identity i = some m → m.serviceAccessTrackingEnabled = false

theorem untracked_empty : Untracked View.empty := ⟨consistent_empty, fun _ _ h => by cases h⟩

theorem postureChecksChanged_of_untracked (h : m.serviceAccessTrackingEnabled = false) {add : Bool} :
    ∃ m', m.postureChecksChangedInPolicy add policy ids index = some m' := by
  unfold Membership.postureChecksChangedInPolicy
  by_cases hp : policy.id ∈ m.servicePolicies <;> simp [hp, h]

theorem memberChange_of_untracked (h : m.serviceAccessTrackingEnabled = false) :
    ∃ m', memberChange index policy c m = some m' := by
  obtain ⟨p, ids, t, add⟩ := c
  cases t with
  | invalidRelatedType => exact ⟨m, rfl⟩
  | relatedIdentity => exact ⟨m, rfl⟩
  | relatedService =>
    have hframe := frame_servicesChanged add m policy ids index
    simp only [memberChange, View.memberServices]
    split
    · exact postureChecksChanged_of_untracked (hframe.2.trans h)
    · exact ⟨_, rfl⟩
  | relatedPostureCheck =>
    simp only [memberChange, View.memberChecks]
    split
    · exact ⟨m, rfl⟩
    · exact postureChecksChanged_of_untracked h

theorem untracked_onMembers (h : ∀ i m, v.identity i = some m → m.serviceAccessTrackingEnabled = false) {ids : IdSet}
    {f : Membership → Option Membership}
    (hf : ∀ m m', f m = some m' → m'.serviceAccessTrackingEnabled = m.serviceAccessTrackingEnabled) (i : Id)
    (m : Membership) (hm : (v.onMembers ids f).identity i = some m) : m.serviceAccessTrackingEnabled = false := by
  simp only [View.onMembers] at hm
  split at hm
  · obtain ⟨m₀, hm₀, heq⟩ := Option.bind_eq_some_iff.mp hm
    rw [hf m₀ m heq]
    exact h i m₀ hm₀
  · exact h i m hm

theorem untracked_linkIdentity (h : ∀ i m, v.identity i = some m → m.serviceAccessTrackingEnabled = false)
    {add : Bool} {j : Id} (hm : (ids.foldl (View.linkIdentity index p add) v).identity j = some m) :
    m.serviceAccessTrackingEnabled = false := by
  induction ids generalizing v with
  | nil => exact h j m hm
  | cons i ids ih =>
    apply ih _ hm
    intro j' m' hm'
    obtain ⟨hsame, -⟩ | ⟨m₀, policy, hi, hp⟩ := linkIdentity_cases
    · rw [hsame] at hm'
      exact h j' m' hm'
    · rw [linkIdentity_eq hi hp] at hm'
      simp only [View.setPolicy, View.setIdentity, update_apply] at hm'
      split at hm'
      · cases hm'
        rw [tracking_toggled]
        exact h i m₀ hi
      · exact h j' m' hm'

theorem untracked_change (h : Untracked v) : Returns index v c ∧ Untracked (v.change index c) := by
  have hr : Returns index v c := fun policy _ i _ m hm => memberChange_of_untracked (h.2 i m hm)
  refine ⟨hr, (h.1.change hr).1, ?_⟩
  intro i m hm
  unfold View.change at hm
  split at hm
  · exact h.2 i m hm
  · split at hm
    · exact untracked_linkIdentity h.2 hm
    · exact untracked_onMembers h.2 (fun _ _ hf => (frame_memberServices hf).2) i m hm
    · exact untracked_onMembers h.2 (fun _ _ hf => (frame_memberChecks hf).2) i m hm
    · exact h.2 i m hm

theorem kept_untracked : Kept index (fun _ _ => True) Untracked where
  consistent h := h.1
  service s b h := ⟨consistent_setService h.1, h.2⟩
  check c b h := ⟨consistent_setCheck h.1, h.2⟩
  addIdentity i h := by
    refine ⟨consistent_addIdentity h.1, fun j m hm => ?_⟩
    simp only [View.setIdentity, update_apply] at hm
    split at hm
    · cases hi : RouterView.View.identity _ i with
      | none =>
        rw [hi] at hm
        cases hm
        rfl
      | some m₀ =>
        rw [hi] at hm
        cases hm
        exact h.2 i m₀ hi
    · exact h.2 j m hm
  dropIdentity h hi := by
    refine ⟨consistent_dropIdentity h.1 hi, fun j m hm => ?_⟩
    simp only [View.setIdentity, update_apply] at hm
    split at hm
    · cases hm
    · exact h.2 j m hm
  updatePolicy h _ _ := by
    refine ⟨consistent_updatePolicy h.1 index _, fun i m hm => ?_⟩
    unfold View.updatePolicy at hm
    split at hm
    · exact h.2 i m hm
    · split at hm
      · exact h.2 i m hm
      · refine untracked_onMembers h.2 ?_ i m hm
        intro m m' heq
        cases heq
        exact (tracking_toggled _ index true).trans (tracking_toggled m index false)
  deletePolicy p h := by
    refine ⟨consistent_deletePolicy h.1 index p, fun i m hm => ?_⟩
    unfold View.deletePolicy at hm
    split at hm
    · exact h.2 i m hm
    · refine untracked_onMembers h.2 ?_ i m hm
      intro m m' heq
      cases heq
      exact tracking_toggled m index false
  change h _ := untracked_change h
  removal _ _ := trivial

def entityExists (rdm : RouterDataModel) (t : RelatedEntityType) (id : Id) : Bool :=
  match t with
  | .relatedIdentity => decide (id ∈ rdm.identities)
  | .relatedService => decide (id ∈ rdm.services)
  | .relatedPostureCheck => decide (id ∈ rdm.postureChecks)
  | .invalidRelatedType => false

/-- An add links an existing policy to an existing entity that it does not have
yet, a remove unlinks one that it has. -/
def Disciplined (rdm : RouterDataModel) (event : Event) : Prop :=
  match event.model with
  | .servicePolicyChange c => c.relatedEntityType ≠ .invalidRelatedType →
      c.relatedEntityIds.Nodup ∧ ∀ id ∈ c.relatedEntityIds,
        (rdm.servicePolicies.lookup c.policyId).any (fun policy =>
          if c.add then entityExists rdm c.relatedEntityType id && decide (id ∉ members c.relatedEntityType policy)
          else decide (id ∈ members c.relatedEntityType policy)) = true
  | _ => True

instance (rdm : RouterDataModel) (event : Event) : Decidable (Disciplined rdm event) := by
  unfold Disciplined
  split <;> infer_instance

theorem present_of_exists (h : entityExists rdm t id = true) : present (view rdm) t id := by
  cases t <;> simp_all [entityExists, present, view, mem_iff_lookup, Option.isSome_iff_exists]

theorem Disciplined.anchored (h : Disciplined rdm event) : Anchored (view rdm) event := by
  obtain ⟨action, synthetic, model⟩ := event
  cases model with
  | servicePolicyChange c =>
    intro hadd ht id hid
    obtain ⟨-, hall⟩ := h ht
    obtain ⟨policy, -, hcond⟩ := (Option.any_eq_true _ _).mp (hall id hid)
    rw [if_pos hadd, Bool.and_eq_true] at hcond
    exact present_of_exists hcond.1
  | _ => trivial

end Zt.RouterEvents
