import Zt.Runs
import Zt.RouterContents
import Zt.RouterEvents

namespace Zt.RouterSnapshot

open Tables EdgeCtrl RouterModel RouterHandlers RouterView RouterGraph RouterLinks RouterEvents RouterContents
open RouterGraph.Graph (apply change addPolicy add empty ext)
open Function (update)
open List (mem_cons_self foldl_cons mem_map map_cons foldl_append)
open DataStatePublicKey (kid)
open Prod (fst)

/-- What a dump walks over, in the order of the walk. The sets are the policies
of an identity, and the services and checks of a policy. -/
structure Walk where
  configTypes : List DataStateConfigType
  configs : List DataStateConfig
  identities : List (DataStateIdentity × IdSet)
  services : List DataStateService
  postureChecks : List DataStatePostureCheck
  policies : List (DataStateServicePolicy × IdSet × IdSet)
  publicKeys : List DataStatePublicKey

namespace Walk

variable (w : Walk)

def servicePolicyIdentities (policyId : Id) : List Id :=
  (w.identities.filter (fun entry => policyId ∈ entry.2)).map (fun entry => entry.1.id)

def policyEvents (entry : DataStateServicePolicy × IdSet × IdSet) : List Event :=
  let addIdentities := w.servicePolicyIdentities entry.1.id
  [ { model := .servicePolicy entry.1 },
    { model := .servicePolicyChange ⟨entry.1.id, entry.2.1.keys, .relatedService, true⟩ },
    { model := .servicePolicyChange ⟨entry.1.id, entry.2.2.keys, .relatedPostureCheck, true⟩ } ] ++
    if addIdentities = [] then []
    else [{ model := .servicePolicyChange ⟨entry.1.id, addIdentities, .relatedIdentity, true⟩ }]

def events : List Event :=
  w.configTypes.map (fun x => { model := .configType x }) ++ (w.configs.map (fun x => { model := .config x }) ++
      (w.identities.map (fun x => { model := .identity x.1 }) ++
        (w.services.map (fun x => { model := .service x }) ++
          (w.postureChecks.map (fun x => { model := .postureCheck x }) ++ (w.policies.flatMap w.policyEvents ++
              w.publicKeys.map (fun x => { isSynthetic := true, model := .publicKey x }))))))

end Walk

def walk (rdm : RouterDataModel) : Walk where
  configTypes := (pairs rdm.configTypes).map (fun e => e.2.toProtobuf)
  configs := (pairs rdm.configs).map (fun e => e.2.toProtobuf)
  identities := (pairs rdm.identities).map (fun e => (e.2.toProtobuf, e.2.servicePolicies))
  services := (pairs rdm.services).map (fun e => e.2.toProtobuf)
  postureChecks := (pairs rdm.postureChecks).map (fun e => e.2.data)
  policies := (pairs rdm.servicePolicies).map (fun e => (e.2.toProtobuf, e.2.services, e.2.postureChecks))
  publicKeys := (pairs rdm.publicKeys).map (fun e => e.2)

def getDataStateAlreadyLocked (rdm : RouterDataModel) (index : UInt64) : DataState where
  events := (walk rdm).events
  endIndex := index
  timelineId := rdm.timelineId
  terminatorIds := if isEmpty rdm.terminatorIdCache then none
    else some (collect rdm.terminatorIdCache (fun key v => if key ∈ rdm.services then some v else none))

def getDataState (rdm : RouterDataModel) : DataState := getDataStateAlreadyLocked rdm rdm.index

def newReceiverRouterDataModelFromDataState (dataState : DataState) : Option RouterDataModel :=
  (dataState.events.foldlM (handle dataState.endIndex)
      { newReceiverRouterDataModel dataState.timelineId 0 with
        terminatorIdCache := dataState.terminatorIds.getD ∅ }).map
    (fun rdm => { rdm with index := dataState.endIndex })

def create (c : Contents) (model : EventModel) : Contents :=
  match model with
  | .configType x => { c with configType := update c.configType x.id (some x) }
  | .config x => { c with config := update c.config x.id (some x) }
  | .identity x => { c with identity := update c.identity x.id (some x) }
  | .service x => { c with service := update c.service x.id (some x) }
  | .postureCheck x => { c with check := update c.check x.id (some x) }
  | .servicePolicy x => { c with policy := update c.policy x.id (some x) }
  | .publicKey x => { c with publicKey := update c.publicKey x.kid (some x) }
  | .revocation x => { c with revocation := update c.revocation x.id (some x) }
  | .servicePolicyChange _ => c

def serviceIds (events : List Event) : List Id :=
  events.filterMap (fun e =>
    match e.model with
    | .service x => some x.id
    | _ => none)

variable {index : UInt64} {event : Event}

/-- A service that is already there would get its configs sorted, hence the
condition. -/
theorem contents_create {rdm rdm' : RouterDataModel} (ha : event.action = .create)
    (hn : ∀ s ∈ serviceIds [event], (contents rdm).service s = none) (h : handle index rdm event = some rdm') :
    contents rdm' = create (contents rdm) event.model := by
  obtain ⟨action, synthetic, model⟩ := event
  have ha' : action = .create := ha
  subst ha'
  cases model with
  | configType model =>
    cases h
    exact contents_handleConfigTypeEvent
  | config model =>
    cases h
    exact contents_handleConfigEvent_set EdgeCtrl.Action.noConfusion index rdm model
  | identity model => exact contents_handleIdentityEvent h
  | service model =>
    have hnone : (rdm.services.lookup model.id).map Service.toProtobuf = none := hn model.id mem_cons_self
    have hmem : model.id ∉ rdm.services := AList.lookup_eq_none.mp (Option.map_eq_none_iff.mp hnone)
    have hset := contents_handleServiceEvent_set EdgeCtrl.Action.noConfusion h
    rw [if_neg hmem] at hset
    exact hset
  | postureCheck model => exact contents_handlePostureCheckEvent h
  | servicePolicy model =>
    cases h
    exact contents_handleServicePolicyEvent
  | servicePolicyChange model => exact contents_handleServicePolicyChange h
  | publicKey model =>
    cases h
    have hinsert := map_lookup_insert rdm.publicKeys (fun x => x) model.kid model
    simp only [Option.map_id_fun'] at hinsert
    simp only [contents]
    congr 1
  | revocation model =>
    cases h
    have hinsert := map_lookup_insert rdm.revocations (fun x => x) model.id model
    simp only [Option.map_id_fun'] at hinsert
    simp only [contents]
    congr 1

theorem service_create {c : Contents} {s : Id} (hs : s ∉ serviceIds [event]) :
    (create c event.model).service s = c.service s := by
  obtain ⟨action, synthetic, model⟩ := event
  cases model with
  | service model =>
    have hne : s ≠ model.id := by simpa [serviceIds] using hs
    exact Function.update_of_ne hne _ _
  | _ => rfl

theorem contents_creates {events : List Event} (ha : ∀ e ∈ events, e.action = .create)
    (hn : (serviceIds events).Nodup) {rdm rdm' : RouterDataModel}
    (hnew : ∀ s ∈ serviceIds events, (contents rdm).service s = none)
    (h : events.foldlM (handle index) rdm = some rdm') :
    contents rdm' = events.foldl (fun c e => create c e.model) (contents rdm) := by
  induction events generalizing rdm with
  | nil =>
    cases h
    rfl
  | cons event events ih =>
    have hcons : serviceIds (event :: events) = serviceIds [event] ++ serviceIds events :=
      List.filterMap_append (l := [event])
    rw [hcons] at hn hnew
    obtain ⟨-, hn', hdisj⟩ := List.nodup_append.mp hn
    obtain ⟨rdm₁, h₁, h₂⟩ := Option.bind_eq_some_iff.mp h
    have hfirst := contents_create (ha event mem_cons_self)
      (fun s hs => hnew s (List.mem_append_left _ hs)) h₁
    rw [foldl_cons, ← hfirst]
    refine ih (fun e he => ha e (List.mem_cons_of_mem _ he)) hn' (fun s hs => ?_) h₂
    rw [hfirst, service_create (fun hmem => hdisj s hmem s hs rfl)]
    exact hnew s (List.mem_append_right _ hs)

/-- Creations from a model without tracking all return, and do to the links what
they say. -/
theorem creates_return {events : List Event} (ha : ∀ e ∈ events, e.action = .create)
    (rdm : RouterDataModel) (h : Untracked (view rdm)) :
    ∃ rdm', events.foldlM (handle index) rdm = some rdm' ∧ Untracked (view rdm') ∧
      graph (view rdm') = events.foldl apply (graph (view rdm)) := by
  induction events generalizing rdm with
  | nil => exact ⟨rdm, rfl, h, rfl⟩
  | cons event events ih =>
    obtain ⟨rdm₁, h₁, hstep⟩ : ∃ rdm', handle index rdm event = some rdm' ∧
        Stepped Untracked (view rdm) event (view rdm') := handle_stepped kept_untracked h trivial
    have hcreate := ha event mem_cons_self
    have hgraph := hstep.graph (.inl (by rw [hcreate]; decide))
    obtain ⟨rdm₂, h₂, hinv, hgraph₂⟩ := ih (fun e he => ha e (List.mem_cons_of_mem _ he)) rdm₁ hstep.inv
    refine ⟨rdm₂, by simp [h₁, h₂], hinv, ?_⟩
    rw [hgraph₂, hgraph, foldl_cons]

section Fill

variable {X W : Type} {key : W → Id}

def fill (key : W → Id) (xs : List W) (f : Id → Option W) : Id → Option W :=
  xs.foldl (fun f x => update f (key x) (some x)) f

theorem fill_apply {g : Id → Option W} {xs : List W} (hg : ∀ x ∈ xs, g (key x) = some x) (f : Id → Option W)
    (k : Id) : fill key xs f k = if k ∈ xs.map key then g k else f k := by
  induction xs generalizing f with
  | nil => rfl
  | cons x xs ih =>
    have hfold := ih (fun y hy => hg y (List.mem_cons_of_mem _ hy)) (update f (key x) (some x))
    rw [fill, foldl_cons, ← fill, hfold]
    by_cases hk : k = key x
    · simp [hk, hg x mem_cons_self]
    · simp [hk]

theorem fill_pairs {V : Type} {t : IdTable V} {proj : V → W}
    (hk : ∀ k x, (t.lookup k).map proj = some x → key x = k) :
    fill key ((pairs t).map (fun e => proj e.2)) (fun _ => none) = fun k => (t.lookup k).map proj := by
  have hkey : ∀ e ∈ pairs t, t.lookup e.1 = some e.2 ∧ key (proj e.2) = e.1 := by
    intro e he
    have hlook := mem_pairs.mp he
    exact ⟨hlook, hk e.1 _ (by rw [hlook]; rfl)⟩
  funext k
  rw [fill_apply]
  · split
    · rfl
    · rename_i hmem
      cases hlook : t.lookup k with
      | none => rfl
      | some v =>
        have hpair := mem_pairs.mpr hlook
        refine absurd (mem_map.mpr ⟨proj v, mem_map.mpr ⟨_, hpair, rfl⟩, (hkey _ hpair).2⟩) hmem
  · intro x hx
    obtain ⟨e, he, rfl⟩ := mem_map.mp hx
    rw [(hkey e he).2, (hkey e he).1]
    rfl

theorem foldl_create (key : W → Id) (get : Contents → Id → Option W)
    (set : Contents → (Id → Option W) → Contents) (val : X → W) {event : X → Event}
    (hget : ∀ c f, get (set c f) = f) (hset : ∀ c f g, set (set c f) g = set c g) (hself : ∀ c, set c (get c) = c)
    (h : ∀ c x, create c (event x).model = set c (update (get c) (key (val x)) (some (val x))))
    (xs : List X) (c : Contents) :
    (xs.map event).foldl (fun c e => create c e.model) c = set c (fill key (xs.map val) (get c)) := by
  induction xs generalizing c with
  | nil => exact (hself c).symm
  | cons x xs ih =>
    rw [map_cons, foldl_cons, ih, h, hset, hget, map_cons, fill, fill, foldl_cons]

end Fill

namespace Walk

variable (w : Walk)

theorem create_of_mem (h : event ∈ w.events) : event.action = .create := by
  simp only [events, List.mem_append, mem_map, List.mem_flatMap, policyEvents] at h
  rcases h with ⟨x, -, rfl⟩ | ⟨x, -, rfl⟩ | ⟨x, -, rfl⟩ | ⟨x, -, rfl⟩ | ⟨x, -, rfl⟩ | ⟨x, -, h⟩ | ⟨x, -, rfl⟩
  · rfl
  · rfl
  · rfl
  · rfl
  · rfl
  · rcases h with h | h
    · simp only [List.mem_cons, List.not_mem_nil, or_false] at h
      rcases h with rfl | rfl | rfl <;> rfl
    · split at h
      · cases h
      · rw [List.mem_singleton.mp h]
  · rfl

theorem serviceIds_policyEvents (entry : DataStateServicePolicy × IdSet × IdSet) :
    serviceIds (w.policyEvents entry) = [] := by
  simp only [policyEvents]
  split <;> rfl

theorem serviceIds_events : serviceIds w.events = w.services.map (fun x => x.id) := by
  have hpols : ∀ entries : List (DataStateServicePolicy × IdSet × IdSet),
      serviceIds (entries.flatMap w.policyEvents) = [] := by
    intro entries
    induction entries with
    | nil => rfl
    | cons entry entries ih =>
      rw [List.flatMap_cons, serviceIds, List.filterMap_append, ← serviceIds, ← serviceIds,
        serviceIds_policyEvents, ih, List.nil_append]
  have hp := hpols w.policies
  simp only [serviceIds] at hp ⊢
  simp [events, hp]

theorem foldl_create_events (c : Contents) : w.events.foldl (fun c e => create c e.model) c = { c with
    configType := fill DataStateConfigType.id w.configTypes c.configType
    config := fill DataStateConfig.id w.configs c.config
    identity := fill DataStateIdentity.id (w.identities.map fst) c.identity
    service := fill DataStateService.id w.services c.service
    check := fill DataStatePostureCheck.id w.postureChecks c.check
    policy := fill DataStateServicePolicy.id (w.policies.map fst) c.policy
    publicKey := fill kid w.publicKeys c.publicKey } := by
  have hblock : ∀ (entry : DataStateServicePolicy × IdSet × IdSet) (c : Contents),
      (w.policyEvents entry).foldl (fun c e => create c e.model) c = create c (.servicePolicy entry.1) := by
    intro entry c
    simp only [policyEvents]
    split <;> rfl
  have hpols : ∀ c, (w.policies.flatMap w.policyEvents).foldl (fun c e => create c e.model) c =
      { c with policy := fill DataStateServicePolicy.id (w.policies.map fst) c.policy } := by
    intro c
    rw [List.foldl_flatMap]
    simp only [hblock]
    have hfold := foldl_create DataStateServicePolicy.id Contents.policy (fun c f => { c with policy := f })
      fst (fun _ _ => rfl) (fun _ _ _ => rfl) (fun _ => rfl)
      (fun _ entry => show create _ (Event.model
        { model := .servicePolicy entry.1 }) = _ from rfl) w.policies c
    rw [List.foldl_map] at hfold
    exact hfold
  simp only [events, foldl_append, hpols]
  rw [foldl_create DataStateConfigType.id Contents.configType (fun c f => { c with configType := f }) (fun x => x)
      (fun _ _ => rfl) (fun _ _ _ => rfl) (fun _ => rfl) (fun _ _ => rfl),
    foldl_create DataStateConfig.id Contents.config (fun c f => { c with config := f }) (fun x => x)
      (fun _ _ => rfl) (fun _ _ _ => rfl) (fun _ => rfl) (fun _ _ => rfl),
    foldl_create DataStateIdentity.id Contents.identity (fun c f => { c with identity := f }) fst
      (fun _ _ => rfl) (fun _ _ _ => rfl) (fun _ => rfl) (fun _ _ => rfl),
    foldl_create DataStateService.id Contents.service (fun c f => { c with service := f }) (fun x => x)
      (fun _ _ => rfl) (fun _ _ _ => rfl) (fun _ => rfl) (fun _ _ => rfl),
    foldl_create DataStatePostureCheck.id Contents.check (fun c f => { c with check := f }) (fun x => x)
      (fun _ _ => rfl) (fun _ _ _ => rfl) (fun _ => rfl) (fun _ _ => rfl),
    foldl_create kid Contents.publicKey (fun c f => { c with publicKey := f }) (fun x => x)
      (fun _ _ => rfl) (fun _ _ _ => rfl) (fun _ => rfl) (fun _ _ => rfl)]
  simp

def granted (entry : DataStateServicePolicy × IdSet × IdSet) (t : RelatedEntityType) (id : Id) : Prop :=
  match t with
  | .relatedIdentity => id ∈ w.servicePolicyIdentities entry.1.id
  | .relatedService => id ∈ entry.2.1
  | .relatedPostureCheck => id ∈ entry.2.2
  | .invalidRelatedType => False

def graph : Graph where
  present t id :=
    match t with
    | .relatedIdentity => ∃ x ∈ w.identities, x.1.id = id
    | .relatedService => ∃ x ∈ w.services, x.id = id
    | .relatedPostureCheck => ∃ x ∈ w.postureChecks, x.id = id
    | .invalidRelatedType => False
  policy p := ∃ entry ∈ w.policies, entry.1.id = p
  link t p id := ∃ entry ∈ w.policies, entry.1.id = p ∧ w.granted entry t id

theorem mem_servicePolicyIdentities {p i : Id} :
    i ∈ w.servicePolicyIdentities p ↔ ∃ x ∈ w.identities, x.1.id = i ∧ p ∈ x.2 := by
  simp only [servicePolicyIdentities, mem_map, List.mem_filter, decide_eq_true_eq]
  constructor
  · rintro ⟨x, ⟨hx, hp⟩, rfl⟩
    exact ⟨x, hx, rfl, hp⟩
  · rintro ⟨x, hx, rfl, hp⟩
    exact ⟨x, ⟨hx, hp⟩, rfl⟩

theorem apply_policyEvents {g : Graph} (hg : ∀ x ∈ w.identities, g.present .relatedIdentity x.1.id)
    (entry : DataStateServicePolicy × IdSet × IdSet) : (w.policyEvents entry).foldl apply g = { g with
        policy := fun q => q = entry.1.id ∨ g.policy q
        link := fun t p id => (p = entry.1.id ∧ w.granted entry t id) ∨ g.link t p id } := by
  have hlinkable : ∀ i ∈ w.servicePolicyIdentities entry.1.id, g.present .relatedIdentity i := by
    intro i hi
    obtain ⟨x, hx, rfl, -⟩ := w.mem_servicePolicyIdentities.mp hi
    exact hg x hx
  have hadd : (w.policyEvents entry).foldl apply g =
      (((g.addPolicy entry.1.id).change ⟨entry.1.id, entry.2.1.keys, .relatedService, true⟩).change
        ⟨entry.1.id, entry.2.2.keys, .relatedPostureCheck, true⟩).change
        ⟨entry.1.id, w.servicePolicyIdentities entry.1.id, .relatedIdentity, true⟩ := by
    unfold policyEvents
    by_cases he : w.servicePolicyIdentities entry.1.id = []
    · simp [he, apply, change]
    · simp [he, apply]
  rw [hadd]
  apply ext
  · rfl
  · rfl
  · funext t p id
    apply propext
    cases t with
    | invalidRelatedType => simp [change, addPolicy, granted]
    | relatedIdentity =>
      simp only [change, addPolicy, granted, Graph.Linkable]
      constructor
      · rintro (⟨-, rfl, hi, -⟩ | ⟨h, -⟩)
        · exact .inl ⟨rfl, hi⟩
        · exact .inr (by simpa using h)
      · rintro (⟨rfl, hi⟩ | h)
        · simp [hi, hlinkable id hi]
        · simp [h]
    | relatedService =>
      simp only [change, addPolicy, granted, Graph.Linkable, AList.mem_keys]
      by_cases hp : p = entry.1.id
      · simp [hp]
      · simp [hp, Ne.symm hp]
    | relatedPostureCheck =>
      simp only [change, addPolicy, granted, Graph.Linkable, AList.mem_keys]
      by_cases hp : p = entry.1.id
      · simp [hp]
      · simp [hp, Ne.symm hp]

theorem apply_policies {g : Graph} (hg : ∀ x ∈ w.identities, g.present .relatedIdentity x.1.id)
    (entries : List (DataStateServicePolicy × IdSet × IdSet)) : (entries.flatMap w.policyEvents).foldl apply g =
      { g with
        policy := fun p => (∃ entry ∈ entries, entry.1.id = p) ∨ g.policy p
        link := fun t p id => (∃ entry ∈ entries, entry.1.id = p ∧ w.granted entry t id) ∨ g.link t p id } := by
  induction entries generalizing g with
  | nil => simp
  | cons entry entries ih =>
    rw [List.flatMap_cons, foldl_append, w.apply_policyEvents hg, ih (by exact hg)]
    apply ext
    · rfl
    · simp only [List.exists_mem_cons_iff, eq_comm, or_assoc, or_left_comm]
    · simp only [List.exists_mem_cons_iff, eq_comm, or_assoc, or_left_comm]

end Walk

theorem foldl_apply_add {X : Type} {t : RelatedEntityType} (key : X → Id) {event : X → Event}
    (h : ∀ (g : Graph) x, g.apply (event x) = g.add t (key x)) (xs : List X) (g : Graph) :
    (xs.map event).foldl apply g =
      { g with present := fun t' id => (t' = t ∧ ∃ x ∈ xs, key x = id) ∨ g.present t' id } := by
  induction xs generalizing g with
  | nil => simp
  | cons x xs ih =>
    rw [map_cons, foldl_cons, ih, h]
    apply ext
    · funext t' id
      simp [add, eq_comm, and_or_left, or_assoc, or_left_comm]
    · rfl
    · rfl

theorem foldl_apply_same {X : Type} (event : X → Event) (h : ∀ (g : Graph) x, g.apply (event x) = g) (xs : List X)
    (g : Graph) : (xs.map event).foldl apply g = g := by
  induction xs with
  | nil => rfl
  | cons x xs ih => rw [map_cons, foldl_cons, h, ih]

theorem Walk.apply_events (w : Walk) : w.events.foldl apply empty = w.graph := by
  simp only [events, foldl_append]
  rw [foldl_apply_same (fun x => { model := .configType x }) (fun _ _ => rfl),
    foldl_apply_same (fun x => { model := .config x }) (fun _ _ => rfl),
    foldl_apply_same (fun x => { isSynthetic := true, model := .publicKey x }) (fun _ _ => rfl),
    foldl_apply_add (fun x : DataStateIdentity × IdSet => x.1.id) (fun _ _ => rfl),
    foldl_apply_add DataStateService.id (fun _ _ => rfl),
    foldl_apply_add DataStatePostureCheck.id (fun _ _ => rfl),
    w.apply_policies]
  · apply ext
    · funext t id
      cases t <;> simp [empty, graph]
    · simp [empty, graph]
    · simp [empty, graph]
  · intro x hx
    exact .inr (.inr (.inl ⟨rfl, x, hx, rfl⟩))

theorem graph_empty : graph View.empty = empty := by
  apply ext
  · funext t id
    cases t <;> simp [graph, present, View.empty, empty]
  · simp [graph, View.empty, empty]
  · simp [graph, View.empty, empty]

theorem load_returns {w : Walk} (dataState : DataState) (h : dataState.events = w.events) :
    ∃ rdm, newReceiverRouterDataModelFromDataState dataState = some rdm ∧ Consistent (view rdm) ∧
      graph (view rdm) = w.graph := by
  obtain ⟨rdm, hload, hinv, hgraph⟩ := creates_return (fun _ => w.create_of_mem)
    { newReceiverRouterDataModel dataState.timelineId 0 with
      terminatorIdCache := dataState.terminatorIds.getD ∅ } untracked_empty
  refine ⟨{ rdm with index := dataState.endIndex }, ?_, hinv.1, ?_⟩
  · unfold newReceiverRouterDataModelFromDataState
    rw [h, hload]
    rfl
  · rw [← w.apply_events, ← graph_empty]
    exact hgraph

theorem contents_load {w : Walk} (hn : (w.services.map DataStateService.id).Nodup) {dataState : DataState}
    (h : dataState.events = w.events) {rdm : RouterDataModel}
    (hload : newReceiverRouterDataModelFromDataState dataState = some rdm) : contents rdm =
      { configType := fill DataStateConfigType.id w.configTypes (fun _ => none)
        config := fill DataStateConfig.id w.configs (fun _ => none)
        identity := fill DataStateIdentity.id (w.identities.map fst) (fun _ => none)
        service := fill DataStateService.id w.services (fun _ => none)
        policy := fill DataStateServicePolicy.id (w.policies.map fst) (fun _ => none)
        check := fill DataStatePostureCheck.id w.postureChecks (fun _ => none)
        publicKey := fill kid w.publicKeys (fun _ => none)
        revocation := fun _ => none
        timelineId := dataState.timelineId
        index := dataState.endIndex } := by
  obtain ⟨rdm₁, h₁, rfl⟩ := Option.map_eq_some_iff.mp hload
  rw [h] at h₁
  have hfold := contents_creates (fun _ => w.create_of_mem) (by rw [w.serviceIds_events]; exact hn)
    (fun _ _ => rfl) h₁
  rw [w.foldl_create_events] at hfold
  exact congrArg (fun c => { c with index := dataState.endIndex }) hfold

end Zt.RouterSnapshot
