import Zt.RouterSnapshot

namespace Zt.RouterReload

open Tables Runs EdgeCtrl RouterModel RouterHandlers RouterView RouterGraph RouterLinks RouterEvents RouterContents
  RouterSnapshot
open Option (map_eq_some_iff isSome_map)

def memberSets (policy : ServicePolicy) : Set (RelatedEntityType × Id) := {x | x.2 ∈ members x.1 policy}

/-- Two models with the same policies and identities, whose policies have the
same members and whose identities are in the same policies. -/
structure SameAccess (r r' : RouterDataModel) : Prop where
  policies : ∀ p, (r'.servicePolicies.lookup p).map memberSets = (r.servicePolicies.lookup p).map memberSets
  identities : ∀ i, (r'.identities.lookup i).map (fun x => roles x.toMembership) =
    (r.identities.lookup i).map (fun x => roles x.toMembership)

structure SameModel (r r' : RouterDataModel) : Prop extends SameAccess r r' where
  contents : contents r' = contents r

theorem map_set_eq {V W : Type} {f : V → Set W} {a b : Option V} (hs : a.isSome ↔ b.isSome)
    (hm : ∀ w, (∃ x, a = some x ∧ w ∈ f x) ↔ ∃ x, b = some x ∧ w ∈ f x) : a.map f = b.map f := by
  cases a with
  | none =>
    cases b with
    | none => rfl
    | some y => simp at hs
  | some x =>
    cases b with
    | none => simp at hs
    | some y =>
      have heq : f x = f y := Set.ext (by simpa using hm)
      simp [heq]

variable {r r' : RouterDataModel} {index : UInt64}

theorem link_view {t : RelatedEntityType} {p id : Id} :
    (graph (view r)).link t p id ↔ ∃ policy, r.servicePolicies.lookup p = some policy ∧ id ∈ members t policy := by
  constructor
  · rintro ⟨policy, hp, hid⟩
    obtain ⟨policy', hp', rfl⟩ := map_eq_some_iff.mp hp
    exact ⟨policy', hp', by cases t <;> exact hid⟩
  · rintro ⟨policy, hp, hid⟩
    exact ⟨bare policy, map_eq_some_iff.mpr ⟨policy, hp, rfl⟩, by cases t <;> exact hid⟩

theorem role_view {i p : Id} : (∃ m, (view r).identity i = some m ∧ p ∈ m.servicePolicies) ↔
    ∃ x, r.identities.lookup i = some x ∧ p ∈ roles x.toMembership := by
  simp only [view, map_eq_some_iff]
  constructor
  · rintro ⟨m, ⟨x, hx, rfl⟩, hp⟩
    exact ⟨x, hx, hp⟩
  · rintro ⟨x, hx, hp⟩
    exact ⟨_, ⟨x, hx, rfl⟩, hp⟩

theorem sameAccess_of_graph (h : Consistent (view r)) (h' : Consistent (view r'))
    (hg : graph (view r') = graph (view r)) : SameAccess r r' := by
  constructor
  · intro p
    apply map_set_eq
    · have hp := congrFun (congrArg Graph.policy hg) p
      simpa [graph, view] using hp
    · rintro ⟨t, id⟩
      have hlink := congrFun (congrFun (congrFun (congrArg Graph.link hg) t) p) id
      exact (link_view.symm.trans (iff_of_eq hlink)).trans link_view
  · intro i
    apply map_set_eq
    · have hi := congrFun (congrFun (congrArg Graph.present hg) .relatedIdentity) i
      simpa [graph, present, view] using hi
    · intro p
      have hlink := congrFun (congrFun (congrFun (congrArg Graph.link hg) .relatedIdentity) p) i
      rw [← role_view, ← role_view, ← h.link_iff, ← h'.link_iff, hlink]

section Walk

variable {V X : Type} {t : IdTable V} {f : V → X} (key : X → Id)

theorem exists_mem_pairs (hk : ∀ k v, t.lookup k = some v → key (f v) = k) (k : Id) (P : X → Prop) :
    (∃ x ∈ (pairs t).map (fun e => f e.2), key x = k ∧ P x) ↔ ∃ v, t.lookup k = some v ∧ P (f v) := by
  simp only [List.mem_map]
  constructor
  · rintro ⟨x, ⟨⟨k', v⟩, he, rfl⟩, rfl, hP⟩
    have hlook := mem_pairs.mp he
    exact ⟨v, by rw [hk k' v hlook]; exact hlook, hP⟩
  · rintro ⟨v, hv, hP⟩
    exact ⟨f v, ⟨(k, v), mem_pairs.mpr hv, rfl⟩, hk k v hv, hP⟩

theorem exists_key_pairs (hk : ∀ k v, t.lookup k = some v → key (f v) = k) (k : Id) :
    (∃ x ∈ (pairs t).map (fun e => f e.2), key x = k) ↔ (t.lookup k).isSome := by
  have h := exists_mem_pairs key hk k (fun _ => True)
  simpa only [and_true, Option.isSome_iff_exists] using h

end Walk

theorem graph_walk (hk : Keyed (contents r)) (hc : Consistent (view r)) : (walk r).graph = graph (view r) := by
  have hident : ∀ k v, r.identities.lookup k = some v → v.id = k :=
    fun k v hv => hk.identity k _ (map_eq_some_iff.mpr ⟨v, hv, rfl⟩)
  have hpol : ∀ k v, r.servicePolicies.lookup k = some v → v.id = k :=
    fun k v hv => hk.policy k _ (map_eq_some_iff.mpr ⟨v, hv, rfl⟩)
  have hentry : ∀ k v, r.servicePolicies.lookup k = some v →
      (v.toProtobuf, v.services, v.postureChecks).1.id = k := hpol
  apply RouterGraph.Graph.ext
  · funext t id
    apply propext
    simp only [graph, view]
    cases t with
    | invalidRelatedType => rfl
    | relatedIdentity =>
      simp only [present, isSome_map]
      exact exists_key_pairs (f := fun v : Identity => (v.toProtobuf, v.servicePolicies))
        (fun x => x.1.id) hident id
    | relatedService =>
      simp only [present, isSome_map]
      exact exists_key_pairs DataStateService.id
        (fun k v hv => hk.service k _ (map_eq_some_iff.mpr ⟨v, hv, rfl⟩)) id
    | relatedPostureCheck =>
      simp only [present, isSome_map]
      exact exists_key_pairs DataStatePostureCheck.id
        (fun k v hv => hk.check k _ (map_eq_some_iff.mpr ⟨v, hv, rfl⟩)) id
  · funext p
    apply propext
    simp only [graph, view, isSome_map]
    exact exists_key_pairs (fun x : DataStateServicePolicy × IdSet × IdSet => x.1.id) hentry p
  · funext t p id
    apply propext
    rw [link_view]
    refine (exists_mem_pairs (fun x => x.1.id) hentry p
      (fun entry => (walk r).granted entry t id)).trans ?_
    refine exists_congr (fun policy => and_congr_right (fun hp => ?_))
    cases t with
    | invalidRelatedType => simp [Walk.granted, members]
    | relatedService => exact .rfl
    | relatedPostureCheck => exact .rfl
    | relatedIdentity =>
      have hlinked : id ∈ policy.identities ↔ (graph (view r)).link .relatedIdentity p id := by
        rw [link_view, hp]
        simp [members]
      have hid : policy.toProtobuf.id = p := hpol p policy hp
      simp only [members, Walk.granted, hid]
      rw [hlinked, hc.link_iff, role_view, Walk.mem_servicePolicyIdentities]
      exact exists_mem_pairs (f := fun v : Identity => (v.toProtobuf, v.servicePolicies))
        (fun x => x.1.id) hident id (fun x => p ∈ x.2)

theorem contents_reload (hk : Keyed (contents r))
    (hload : newReceiverRouterDataModelFromDataState (getDataState r) = some r') :
    contents r' = { contents r with revocation := fun _ => none } := by
  have hsvcs : ((walk r).services.map DataStateService.id).Nodup := by
    have hkeys : (walk r).services.map DataStateService.id = (pairs r.services).map Prod.fst := by
      simp only [walk, List.map_map]
      apply List.map_congr_left
      intro e he
      exact hk.service e.1 _ (map_eq_some_iff.mpr ⟨e.2, mem_pairs.mp he, rfl⟩)
    rw [hkeys, pairs_keys]
    exact r.services.keys_nodup
  have hpublic : fill DataStatePublicKey.kid (walk r).publicKeys (fun _ => none) = (contents r).publicKey := by
    have hlook : ∀ k, (r.publicKeys.lookup k).map (fun x => x) = (contents r).publicKey k := fun k => Option.map_id'
    have hfill := fill_pairs (fun k x hx => hk.publicKey k x ((hlook k).symm.trans hx))
    exact hfill.trans (funext hlook)
  rw [contents_load hsvcs rfl hload, hpublic]
  simp only [walk, List.map_map, Function.comp_def]
  rw [fill_pairs hk.configType, fill_pairs hk.config, fill_pairs hk.identity,
    fill_pairs hk.service, fill_pairs hk.check, fill_pairs hk.policy]
  rfl

/-- What holds of every model that only ever handled events. -/
def Handled (r : RouterDataModel) : Prop := Untracked (view r) ∧ Keyed (contents r)

theorem handled_new {timelineId : String} : Handled (newReceiverRouterDataModel timelineId index) :=
  ⟨untracked_empty, keyed_new⟩

theorem handled_handle {event : Event} (h : Handled r) : ∃ r', handle index r event = some r' ∧ Handled r' := by
  obtain ⟨r', h₁, hstep⟩ : ∃ r', handle index r event = some r' ∧ Stepped Untracked (view r) event (view r') :=
    handle_stepped kept_untracked h.1 trivial
  exact ⟨r', h₁, hstep.inv, keyed_handle h.2 h₁⟩

theorem handled_foldlM (index : UInt64) (h : Handled r) (events : List Event) :
    ∃ r', events.foldlM (handle index) r = some r' ∧ Handled r' :=
  Admits.invariant Handled (fun _ _ h _ => handled_handle h)
    (.of_forall (fun _ _ => trivial) (handle index) r events) h

theorem handled_applyChangeSet {change : ChangeSet} (h : Handled r) :
    ∃ r', applyChangeSet r change = some r' ∧ Handled r' := by
  unfold applyChangeSet
  split
  · exact handled_foldlM change.index h change.changes
  · split
    · exact ⟨r, rfl, h⟩
    · obtain ⟨h₁, h₂⟩ := h
      exact handled_foldlM change.index (r := { r with index := change.index })
        ⟨h₁, h₂.configType, h₂.config, h₂.identity, h₂.service, h₂.policy, h₂.check, h₂.publicKey⟩ change.changes

theorem reload_returns (h : Handled r) :
    ∃ r', newReceiverRouterDataModelFromDataState (getDataState r) = some r' ∧ SameAccess r r' ∧
      contents r' = { contents r with revocation := fun _ => none } := by
  obtain ⟨r', hload, hc, hgraph⟩ := load_returns (getDataState r) rfl
  exact ⟨r', hload, sameAccess_of_graph h.1.1 hc (hgraph.trans (graph_walk h.2 h.1.1)), contents_reload h.2 hload⟩

/-- A model that handled any change sets and is saved and loaded again is the
same model exactly if it has no revocations: the dump leaves them out. -/
theorem reload_same_iff (timelineId : String) (index : UInt64) (changes : List ChangeSet) :
    ∃ r, changes.foldlM applyChangeSet (newReceiverRouterDataModel timelineId index) = some r ∧
      ((∃ r', newReceiverRouterDataModelFromDataState (getDataState r) = some r' ∧ SameModel r r') ↔
        ∀ id, r.revocations.lookup id = none) := by
  obtain ⟨r, hrun, h⟩ := Admits.invariant Handled (fun r change h _ => handled_applyChangeSet h)
    (Admits.of_forall (fun _ _ => trivial) applyChangeSet _ changes) handled_new
  refine ⟨r, hrun, ?_⟩
  obtain ⟨r₁, hload, haccess, hcontents⟩ := reload_returns h
  constructor
  · rintro ⟨r', hload', hsame⟩ id
    rw [hload] at hload'
    cases hload'
    have heq := hsame.contents.symm.trans hcontents
    exact congrFun (congrArg Contents.revocation heq) id
  · intro hnone
    refine ⟨r₁, hload, haccess, ?_⟩
    have hrevocation : (contents r).revocation = fun _ => none := funext hnone
    rw [hcontents, ← hrevocation]

/-- A token that is revoked before a restart is not revoked after it. -/
theorem revocation_lost_on_reload : ∃ r r', applyChangeSet (newReceiverRouterDataModel "db" 0)
      { index := 1, changes := [{ model := .revocation { id := "token" } }] } = some r ∧
    newReceiverRouterDataModelFromDataState (getDataState r) = some r' ∧
    r.revocations.lookup "token" = some { id := "token" } ∧ r'.revocations.lookup "token" = none ∧
    ¬ SameModel r r' := by
  refine ⟨_, _, rfl, rfl, rfl, rfl, fun h => ?_⟩
  have hrevocation := congrFun (congrArg Contents.revocation h.contents) "token"
  cases hrevocation

end Zt.RouterReload
