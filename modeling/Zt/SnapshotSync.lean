import Zt.RouterSender

namespace Zt.SnapshotSync

open Tables Runs EdgeCtrl RouterModel RouterHandlers RouterView RouterGraph RouterLinks RouterEvents RouterSnapshot
  RouterReload RouterSender
open RouterDataModelSender (setOrRemove identity)

/-- Every entry is stored under its own id, and no identity is nil. -/
structure Named (s : RouterDataModelSender) : Prop where
  identity : ∀ i o, s.identities.lookup i = some o → ∃ x, o = some x ∧ x.id = i
  service : ∀ k x, s.services.lookup k = some x → x.id = k
  policy : ∀ k x, s.servicePolicies.lookup k = some x → x.id = k
  check : ∀ k x, s.postureChecks.lookup k = some x → x.id = k

theorem named_setOrRemove {V : Type} {key : V → Id} {t : IdTable V} (h : ∀ k x, t.lookup k = some x → key x = k)
    {action : Action} {v : V} (k : Id) (x : V)
    (hx : (setOrRemove t action (key v) v).lookup k = some x) : key x = k := by
  unfold setOrRemove at hx
  split at hx
  · exact forall_erase h k x hx
  · exact forall_insert h rfl k x hx

variable {s : RouterDataModelSender} {i p : Id} {x : SenderIdentity} {event : Event}

theorem identity_eq_some :
    s.identity i = some x ↔ s.identities.lookup i = some (some x) := Option.join_eq_some_iff

theorem Named.id_eq (h : Named s) (hx : s.identity i = some x) : x.id = i := by
  obtain ⟨y, hy, hid⟩ := h.identity i _ (identity_eq_some.mp hx)
  cases hy
  exact hid

theorem named_linkIdentity (h : Named s) {add : Bool} (hi : (s.identity i).isSome) :
    Named (s.linkIdentity p add i) := by
  obtain ⟨x, hx⟩ := Option.isSome_iff_exists.mp hi
  refine ⟨forall_insert h.identity ?_, h.service, h.policy, h.check⟩
  have hid := h.id_eq hx
  rw [hx]
  exact ⟨_, rfl, hid⟩

theorem named_linkIdentities (h : Named s) {add : Bool} {ids : List Id}
    (hi : ∀ i ∈ ids, (s.identity i).isSome) : Named (ids.foldl (RouterDataModelSender.linkIdentity p add) s) := by
  induction ids generalizing s with
  | nil => exact h
  | cons i ids ih =>
    refine ih (named_linkIdentity h (hi i List.mem_cons_self)) (fun j hj => ?_)
    simp only [RouterDataModelSender.linkIdentity, identity_insert]
    split
    · rw [Option.isSome_map]
      exact hi i List.mem_cons_self
    · exact hi j (List.mem_cons_of_mem _ hj)

theorem named_adjust (h : Named s) {f : SenderServicePolicy → SenderServicePolicy}
    (hf : ∀ policy, (f policy).id = policy.id) : Named { s with servicePolicies := adjust s.servicePolicies p f } := by
  refine ⟨h.identity, h.service, fun k x hx => ?_, h.check⟩
  rw [lookup_adjust] at hx
  split at hx
  · obtain ⟨policy, hp, rfl⟩ := Option.map_eq_some_iff.mp hx
    rw [hf]
    exact h.policy k policy hp
  · exact h.policy k x hx

theorem named_handle (h : Named s)
    (hi : ∀ c, event.model = .servicePolicyChange c → c.relatedEntityType = .relatedIdentity →
      ∀ i ∈ c.relatedEntityIds, (s.identity i).isSome) : Named (s.handle event) := by
  obtain ⟨action, synthetic, model⟩ := event
  cases model with
  | configType model => exact ⟨h.identity, h.service, h.policy, h.check⟩
  | config model => exact ⟨h.identity, h.service, h.policy, h.check⟩
  | publicKey model => exact ⟨h.identity, h.service, h.policy, h.check⟩
  | revocation model => exact ⟨h.identity, h.service, h.policy, h.check⟩
  | postureCheck model => exact ⟨h.identity, h.service, h.policy, named_setOrRemove h.check⟩
  | identity model =>
    refine ⟨fun i o ho => ?_, h.service, h.policy, h.check⟩
    simp only [RouterDataModelSender.handle, RouterDataModelSender.handleIdentityEvent, setOrRemove] at ho
    split at ho
    · exact forall_erase h.identity i o ho
    · refine forall_insert h.identity ?_ i o ho
      exact ⟨_, rfl, rfl⟩
  | service model =>
    refine ⟨h.identity, named_setOrRemove h.service, fun k x hx => ?_, h.check⟩
    simp only [RouterDataModelSender.handle, RouterDataModelSender.handleServiceEvent] at hx
    split at hx
    · rw [lookup_adjustEach_keys] at hx
      obtain ⟨policy, hp, rfl⟩ := Option.map_eq_some_iff.mp hx
      exact h.policy k policy hp
    · exact h.policy k x hx
  | servicePolicy model =>
    have hupdate : Named (s.applyUpdateServicePolicyEvent model) := by
      refine ⟨h.identity, h.service, forall_insert h.policy ?_, h.check⟩
      split <;> rfl
    cases action with
    | create => exact hupdate
    | update => exact hupdate
    | delete =>
      exact ⟨h.identity, h.service, forall_erase h.policy, h.check⟩
  | servicePolicyChange c =>
    obtain ⟨p, ids, t, add⟩ := c
    cases t with
    | invalidRelatedType => exact h
    | relatedIdentity => exact named_linkIdentities h (hi _ rfl rfl)
    | relatedService => exact named_adjust h (fun _ => rfl)
    | relatedPostureCheck => exact named_adjust h (fun _ => rfl)

theorem mapM_defined {X Y : Type} {f : X → Option Y} {xs : List X} (h : ∀ x ∈ xs, ∃ y, f x = some y) :
    ∃ ys, xs.mapM f = some ys ∧ ∀ y, y ∈ ys ↔ ∃ x ∈ xs, f x = some y := by
  induction xs with
  | nil => exact ⟨[], rfl, by simp⟩
  | cons x xs ih =>
    obtain ⟨y, hy⟩ := h x List.mem_cons_self
    obtain ⟨ys, hys, hmem⟩ := ih (fun x' hx' => h x' (List.mem_cons_of_mem _ hx'))
    refine ⟨y :: ys, by simp [hy, hys], fun z => ?_⟩
    rw [List.mem_cons, hmem, List.exists_mem_cons_iff, hy, Option.some.injEq, eq_comm]

theorem walk_returns (h : Named s) : ∃ w, s.walk = some w ∧ w.graph = senderGraph s := by
  obtain ⟨identities, hmap, hmem⟩ := mapM_defined
    (f := fun e : Id × Option SenderIdentity => e.2.map (fun x => (x.toDataStateIdentity, x.servicePolicies)))
    (fun e he => by
      obtain ⟨x, hx, -⟩ := h.identity e.1 e.2 (mem_pairs.mp he)
      exact ⟨_, by rw [hx]; rfl⟩)
  have hident : ∀ i (P : DataStateIdentity × IdSet → Prop),
      (∃ y ∈ identities, y.1.id = i ∧ P y) ↔ ∃ x, s.identity i = some x ∧ P (x.toDataStateIdentity, x.servicePolicies) := by
    intro i P
    constructor
    · rintro ⟨y, hy, hid, hP⟩
      obtain ⟨⟨k, o⟩, he, heq⟩ := (hmem y).mp hy
      obtain ⟨x, rfl, rfl⟩ := Option.map_eq_some_iff.mp heq
      have hx := identity_eq_some.mpr (mem_pairs.mp he)
      have hk : k = i := (h.id_eq hx).symm.trans hid
      exact ⟨x, hk ▸ hx, hP⟩
    · rintro ⟨x, hx, hP⟩
      exact ⟨_, (hmem _).mpr ⟨(i, some x), mem_pairs.mpr (identity_eq_some.mp hx), rfl⟩, h.id_eq hx, hP⟩
  have hpol : ∀ k v, s.servicePolicies.lookup k = some v →
      (v.toDataStateServicePolicy, v.services, v.postureChecks).1.id = k := h.policy
  refine ⟨_, by unfold RouterDataModelSender.walk; rw [hmap]; rfl, ?_⟩
  apply RouterGraph.Graph.ext
  · funext t id
    apply propext
    cases t with
    | invalidRelatedType => rfl
    | relatedIdentity =>
      have hpres := hident id (fun _ => True)
      simp only [and_true] at hpres
      exact hpres.trans Option.isSome_iff_exists.symm
    | relatedService =>
      exact (exists_key_pairs DataStateService.id h.service id).trans AList.lookup_isSome
    | relatedPostureCheck =>
      exact (exists_key_pairs DataStatePostureCheck.id h.check id).trans AList.lookup_isSome
  · funext p
    apply propext
    exact (exists_key_pairs (fun x : DataStateServicePolicy × IdSet × IdSet => x.1.id) hpol p).trans
      AList.lookup_isSome
  · funext t p id
    apply propext
    refine (exists_mem_pairs (fun x => x.1.id) hpol p
      (fun entry => Walk.granted _ entry t id)).trans ?_
    cases t with
    | invalidRelatedType => simp [Walk.granted, senderGraph]
    | relatedService => exact .rfl
    | relatedPostureCheck => exact .rfl
    | relatedIdentity =>
      simp only [Walk.granted, Walk.mem_servicePolicyIdentities]
      constructor
      · rintro ⟨policy, hp, hrole⟩
        have hid : policy.toDataStateServicePolicy.id = p := h.policy p policy hp
        rw [hid] at hrole
        exact ⟨mem_of_lookup hp, (hident id (fun y => p ∈ y.2)).mp hrole⟩
      · rintro ⟨hmem', hrole⟩
        obtain ⟨policy, hp⟩ := mem_iff_lookup.mp hmem'
        have hid : policy.toDataStateServicePolicy.id = p := h.policy p policy hp
        refine ⟨policy, hp, ?_⟩
        rw [hid]
        exact (hident id (fun y => p ∈ y.2)).mpr hrole

/-- The sender and a receiver that handled the same events. -/
structure Related (s : RouterDataModelSender) (r : RouterDataModel) : Prop where
  untracked : Untracked (view r)
  backed : Backed (view r)
  graph : senderGraph s = RouterGraph.graph (view r)
  named : Named s

def step (x : RouterDataModelSender × RouterDataModel) (op : UInt64 × Event) :
    Option (RouterDataModelSender × RouterDataModel) :=
  (handle op.1 x.2 op.2).map (fun r => (x.1.handle op.2, r))

def start (timelineId : String) (index : UInt64) : RouterDataModelSender × RouterDataModel :=
  ({ timelineId := timelineId }, newReceiverRouterDataModel timelineId index)

theorem related_start {timelineId : String} {index : UInt64} :
    Related (start timelineId index).1 (start timelineId index).2 where
  untracked := untracked_empty
  backed := by
    rintro t p id - ⟨policy, h, -⟩
    cases h
  graph := by
    refine Eq.trans ?_ graph_empty.symm
    apply RouterGraph.Graph.ext
    · funext t id
      cases t <;> simp [senderGraph, start, Graph.empty, identity]
    · simp [senderGraph, start, Graph.empty]
    · funext t p id
      cases t <;> simp [senderGraph, start, Graph.empty]
  named := by
    constructor <;> intro k x h <;> cases h

/-- Under the discipline both ends of a change to the identities of a policy
are there. -/
theorem present_of_disciplined {r : RouterDataModel} (hc : Consistent (view r))
    (h : Disciplined r event) {c : DataStateServicePolicyChange} (he : event.model = .servicePolicyChange c)
    (ht : c.relatedEntityType = .relatedIdentity) (hi : i ∈ c.relatedEntityIds) :
    present (view r) .relatedIdentity i := by
  unfold Disciplined at h
  rw [he] at h
  obtain ⟨-, hall⟩ := h (by rw [ht]; decide)
  obtain ⟨policy, hp, hcond⟩ := (Option.any_eq_true _ _).mp (hall i hi)
  rw [ht] at hcond
  split at hcond
  · rw [Bool.and_eq_true] at hcond
    exact present_of_exists hcond.1
  · have hlink : (graph (view r)).link .relatedIdentity c.policyId i :=
      link_view.mpr ⟨policy, hp, of_decide_eq_true hcond⟩
    obtain ⟨m, hm, -⟩ := hc.link_iff.mp hlink
    exact Option.isSome_iff_exists.mpr ⟨m, hm⟩

theorem related_step {x : RouterDataModelSender × RouterDataModel} {op : UInt64 × Event} (h : Related x.1 x.2)
    (hd : Disciplined x.2 op.2) (hc : Clean x.1 op.2) : ∃ x', step x op = some x' ∧ Related x'.1 x'.2 := by
  obtain ⟨s, r⟩ := x
  obtain ⟨index, event⟩ := op
  obtain ⟨r', hr, hstep⟩ : ∃ r', handle index r event = some r' ∧ Stepped Untracked (view r) event (view r') :=
    handle_stepped kept_untracked h.untracked trivial
  refine ⟨(s.handle event, r'), Option.map_eq_some_iff.mpr ⟨r', hr, rfl⟩, ?_⟩
  refine ⟨hstep.inv, hstep.backed h.backed hd.anchored, ?_, named_handle h.named ?_⟩
  · rw [senderGraph_handle hc, hstep.graph (.inr h.backed)]
    exact congrArg (fun g => g.apply event) h.graph
  · intro c he ht i hi
    have hpres := present_of_disciplined h.untracked.1 hd he ht hi
    exact cast (congrFun (congrFun (congrArg Graph.present h.graph) .relatedIdentity) i).symm hpres

/-- A router that handled every event, and one that loads the dump that the
sender makes after them. -/
def incrementalAndLoaded (timelineId : String) (index endIndex : UInt64) (ops : List (UInt64 × Event)) :
    Option (RouterDataModel × RouterDataModel) := do
  let (s, r) ← ops.foldlM step (start timelineId index)
  let dataState ← s.getDataStateAlreadyLocked endIndex
  let r' ← newReceiverRouterDataModelFromDataState dataState
  some (r, r')

theorem snapshot_same_access (timelineId : String) (index endIndex : UInt64) (ops : List (UInt64 × Event))
    (hd : Admits (fun x op => Disciplined x.2 op.2) step (start timelineId index) ops)
    (hc : Admits (fun x op => Clean x.1 op.2) step (start timelineId index) ops) :
    ∃ r r', incrementalAndLoaded timelineId index endIndex ops = some (r, r') ∧ SameAccess r r' := by
  obtain ⟨⟨s, r⟩, hrun, h⟩ := Admits.invariant (fun x => Related x.1 x.2)
    (fun x op h hboth => related_step h hboth.1 hboth.2) (hd.and hc) related_start
  obtain ⟨w, hwalk, hw⟩ := walk_returns h.named
  obtain ⟨r', hload, hcons, hgraph⟩ := load_returns
    { events := w.events, endIndex := endIndex, timelineId := s.timelineId } rfl
  refine ⟨r, r', ?_, sameAccess_of_graph h.untracked.1 hcons (hgraph.trans (hw.trans h.graph))⟩
  simp [incrementalAndLoaded, hrun, RouterDataModelSender.getDataStateAlreadyLocked, hwalk, hload]

def linkRun : List (UInt64 × Event) :=
  [ (1, { model := .identity { id := "i" } }), (1, { model := .service { id := "s" } }),
    (1, { model := .postureCheck { id := "c" } }),
    (1, { model := .servicePolicy { id := "p", policyType := .dialPolicy } }),
    (1, { model := .servicePolicy { id := "q", policyType := .bindPolicy } }),
    (2, { model := .servicePolicyChange ⟨"p", ["i"], .relatedIdentity, true⟩ }),
    (2, { model := .servicePolicyChange ⟨"q", ["i"], .relatedIdentity, true⟩ }),
    (2, { model := .servicePolicyChange ⟨"p", ["s"], .relatedService, true⟩ }),
    (2, { model := .servicePolicyChange ⟨"q", ["s"], .relatedService, true⟩ }),
    (2, { model := .servicePolicyChange ⟨"p", ["c"], .relatedPostureCheck, true⟩ }) ]

def tidyRun : List (UInt64 × Event) :=
  linkRun ++ [ (3, { model := .servicePolicyChange ⟨"p", ["c"], .relatedPostureCheck, false⟩ }),
      (4, { action := .delete, model := .postureCheck { id := "c" } }),
      (5, { action := .delete, model := .servicePolicy { id := "q", policyType := .bindPolicy } }),
      (6, { action := .delete, model := .service { id := "s" } }) ]

theorem snapshot_same_access_tidy : Admits (fun x op => Disciplined x.2 op.2) step (start "db" 0) tidyRun ∧
    Admits (fun x op => Clean x.1 op.2) step (start "db" 0) tidyRun ∧
    ∃ r r', incrementalAndLoaded "db" 0 6 tidyRun = some (r, r') ∧ SameAccess r r' := by
  have hd : Admits (fun x op => Disciplined x.2 op.2) step (start "db" 0) tidyRun := by decide
  have hc : Admits (fun x op => Clean x.1 op.2) step (start "db" 0) tidyRun := by decide
  exact ⟨hd, hc, snapshot_same_access "db" 0 6 tidyRun hd hc⟩

/-- A disciplined run after which the two routers differ. -/
def Diverges (ops : List (UInt64 × Event)) : Prop :=
  Admits (fun x op => Disciplined x.2 op.2) step (start "db" 0) ops ∧
    ∃ r r', incrementalAndLoaded "db" 0 4 ops = some (r, r') ∧ ¬ SameAccess r r'

def has (r : RouterDataModel) (t : RelatedEntityType) (p id : Id) : Bool :=
  (r.servicePolicies.lookup p).any (fun policy => decide (id ∈ members t policy))

theorem has_eq {r r' : RouterDataModel} (h : SameAccess r r') {t : RelatedEntityType} {id : Id} :
    has r' t p id = has r t p id := by
  have hp := h.policies p
  unfold has
  cases hr : r.servicePolicies.lookup p with
  | none =>
    rw [hr] at hp
    rw [Option.map_eq_none_iff.mp hp]
  | some policy =>
    rw [hr] at hp
    obtain ⟨policy', hr', heq⟩ := Option.map_eq_some_iff.mp hp
    have hmem : id ∈ members t policy' ↔ id ∈ members t policy := Set.ext_iff.mp heq (t, id)
    simp [hr', hmem]

theorem exists_not_sameAccess (t : RelatedEntityType) (p id : Id) {x : Option (RouterDataModel × RouterDataModel)}
    (h : x.any (fun y => has y.2 t p id != has y.1 t p id) = true) :
    ∃ r r', x = some (r, r') ∧ ¬ SameAccess r r' := by
  obtain ⟨⟨r, r'⟩, hx, hne⟩ := (Option.any_eq_true _ _).mp h
  exact ⟨r, r', hx, fun hsame => bne_iff_ne.mp hne (has_eq hsame)⟩

/-- The sender leaves a deleted check in the policies that had it, and a deleted
policy with the identities that were in it, which are in it again when it is
created again. -/
theorem deleted_links_come_back :
    Diverges (linkRun ++ [(3, { action := .delete, model := .postureCheck { id := "c" } })]) ∧
      Diverges (linkRun ++
        [ (3, { action := .delete, model := .servicePolicy { id := "p", policyType := .dialPolicy } }),
          (4, { model := .servicePolicy { id := "p", policyType := .dialPolicy } }) ]) := by
  constructor
  · exact ⟨by decide, exists_not_sameAccess .relatedPostureCheck "p" "c" (by decide)⟩
  · exact ⟨by decide, exists_not_sameAccess .relatedIdentity "p" "i" (by decide)⟩

end Zt.SnapshotSync
