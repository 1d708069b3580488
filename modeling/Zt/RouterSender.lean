import Zt.RouterReload

namespace Zt.RouterSender

open Tables EdgeCtrl RouterHandlers RouterGraph RouterSnapshot
  RouterReload

structure SenderIdentity extends DataStateIdentity where
  servicePolicies : IdSet := ∅

structure SenderServicePolicy extends DataStateServicePolicy where
  services : IdSet := ∅
  postureChecks : IdSet := ∅

/-- The controller's side. The upsert of a link to an unknown identity stores a
nil pointer, hence the option. -/
structure RouterDataModelSender where
  configTypes : IdTable DataStateConfigType := ∅
  configs : IdTable DataStateConfig := ∅
  identities : IdTable (Option SenderIdentity) := ∅
  services : IdTable DataStateService := ∅
  servicePolicies : IdTable SenderServicePolicy := ∅
  postureChecks : IdTable DataStatePostureCheck := ∅
  publicKeys : IdTable DataStatePublicKey := ∅
  revocations : IdTable DataStateRevocation := ∅
  timelineId : String

namespace RouterDataModelSender

variable (s : RouterDataModelSender)

def identity (i : Id) : Option SenderIdentity := (s.identities.lookup i).join

/-- The tables that a deletion only removes from and any other event only sets
in. -/
def setOrRemove {V : Type} (t : IdTable V) (action : Action) (k : Id) (v : V) : IdTable V :=
  if action = .delete then t.erase k else t.insert k v

def handleIdentityEvent (action : Action) (model : DataStateIdentity) : RouterDataModelSender :=
  { s with
    identities := setOrRemove s.identities action model.id
      (some { model with servicePolicies := ((s.identity model.id).map (·.servicePolicies)).getD ∅ }) }

def handleServiceEvent (action : Action) (model : DataStateService) : RouterDataModelSender :=
  { s with
    services := setOrRemove s.services action model.id model
    servicePolicies := if action = .delete then
        adjustEach s.servicePolicies s.servicePolicies.keys (fun policy =>
          { policy with services := policy.services.erase model.id })
      else s.servicePolicies }

def applyUpdateServicePolicyEvent (model : DataStateServicePolicy) : RouterDataModelSender :=
  let result : SenderServicePolicy := match s.servicePolicies.lookup model.id with
    | some valueInMap => { model with services := valueInMap.services, postureChecks := valueInMap.postureChecks }
    | none => { model with }
  { s with servicePolicies := s.servicePolicies.insert model.id result }

def applyDeleteServicePolicyEvent (model : DataStateServicePolicy) : RouterDataModelSender :=
  { s with servicePolicies := s.servicePolicies.erase model.id }

def handleServicePolicyEvent (action : Action) (model : DataStateServicePolicy) : RouterDataModelSender :=
  match action with
  | .create => s.applyUpdateServicePolicyEvent model
  | .update => s.applyUpdateServicePolicyEvent model
  | .delete => s.applyDeleteServicePolicyEvent model

def linkIdentity (policyId : Id) (add : Bool) (s : RouterDataModelSender) (i : Id) : RouterDataModelSender :=
  { s with
    identities := s.identities.insert i ((s.identity i).map (fun x =>
      { x with
        servicePolicies := if add then x.servicePolicies.insert policyId () else x.servicePolicies.erase policyId })) }

def handleServicePolicyChange (model : DataStateServicePolicyChange) : RouterDataModelSender :=
  match model.relatedEntityType with
  | .relatedIdentity => model.relatedEntityIds.foldl (linkIdentity model.policyId model.add) s
  | .relatedService =>
    { s with
      servicePolicies := adjust s.servicePolicies model.policyId (fun policy =>
        { policy with services := setAll policy.services model.relatedEntityIds model.add }) }
  | .relatedPostureCheck =>
    { s with
      servicePolicies := adjust s.servicePolicies model.policyId (fun policy =>
        { policy with postureChecks := setAll policy.postureChecks model.relatedEntityIds model.add }) }
  | .invalidRelatedType => s

def handle (event : Event) : RouterDataModelSender :=
  match event.model with
  | .configType model => { s with configTypes := setOrRemove s.configTypes event.action model.id model }
  | .config model => { s with configs := setOrRemove s.configs event.action model.id model }
  | .identity model => s.handleIdentityEvent event.action model
  | .service model => s.handleServiceEvent event.action model
  | .servicePolicy model => s.handleServicePolicyEvent event.action model
  | .postureCheck model => { s with postureChecks := setOrRemove s.postureChecks event.action model.id model }
  | .publicKey model => { s with publicKeys := setOrRemove s.publicKeys event.action model.kid model }
  | .revocation model => { s with revocations := setOrRemove s.revocations event.action model.id model }
  | .servicePolicyChange model => s.handleServicePolicyChange model

/-- A nil identity would be dereferenced. -/
def walk : Option Walk :=
  ((pairs s.identities).mapM (fun e : Id × Option SenderIdentity =>
    e.2.map (fun x => (x.toDataStateIdentity, x.servicePolicies)))).map
    (fun identities =>
      { configTypes := (pairs s.configTypes).map Prod.snd
        configs := (pairs s.configs).map Prod.snd
        identities := identities
        services := (pairs s.services).map Prod.snd
        postureChecks := (pairs s.postureChecks).map Prod.snd
        policies := (pairs s.servicePolicies).map (fun e =>
          (e.2.toDataStateServicePolicy, e.2.services, e.2.postureChecks))
        publicKeys := (pairs s.publicKeys).map Prod.snd })

/-- The index is the one of the event cache, which the lock holds still. -/
def getDataStateAlreadyLocked (index : UInt64) : Option DataState :=
  s.walk.map (fun w => { events := w.events, endIndex := index, timelineId := s.timelineId })

end RouterDataModelSender

open RouterDataModelSender (identity setOrRemove)
open RouterGraph.Graph (ext)

/-- An identity may list a policy that is not there any more; only the others
are links. -/
def senderGraph (s : RouterDataModelSender) : Graph where
  present t id :=
    match t with
    | .relatedIdentity => (s.identity id).isSome
    | .relatedService => id ∈ s.services
    | .relatedPostureCheck => id ∈ s.postureChecks
    | .invalidRelatedType => False
  policy p := p ∈ s.servicePolicies
  link t p id :=
    match t with
    | .relatedIdentity => p ∈ s.servicePolicies ∧ ∃ x, s.identity id = some x ∧ p ∈ x.servicePolicies
    | .relatedService => ∃ policy, s.servicePolicies.lookup p = some policy ∧ id ∈ policy.services
    | .relatedPostureCheck => ∃ policy, s.servicePolicies.lookup p = some policy ∧ id ∈ policy.postureChecks
    | .invalidRelatedType => False

/-- A posture check is deleted only when no policy has it, and a policy created
only when no identity still lists it. -/
def Clean (s : RouterDataModelSender) (event : Event) : Prop :=
  match event.model with
  | .postureCheck model => event.action = .delete → ∀ e ∈ pairs s.servicePolicies, model.id ∉ e.2.postureChecks
  | .servicePolicy model => event.action ≠ .delete → model.id ∉ s.servicePolicies →
      ∀ e ∈ pairs s.identities, e.2.all (fun x => decide (model.id ∉ x.servicePolicies)) = true
  | _ => True

instance (s : RouterDataModelSender) : (event : Event) → Decidable (Clean s event)
  | ⟨action, _, .postureCheck model⟩ =>
    inferInstanceAs (Decidable (action = .delete → ∀ e ∈ pairs s.servicePolicies, model.id ∉ e.2.postureChecks))
  | ⟨action, _, .servicePolicy model⟩ =>
    inferInstanceAs (Decidable (action ≠ .delete → model.id ∉ s.servicePolicies →
      ∀ e ∈ pairs s.identities, e.2.all (fun x => decide (model.id ∉ x.servicePolicies)) = true))
  | ⟨_, _, .identity _⟩ | ⟨_, _, .service _⟩ | ⟨_, _, .publicKey _⟩ | ⟨_, _, .revocation _⟩
  | ⟨_, _, .servicePolicyChange _⟩ | ⟨_, _, .configType _⟩ | ⟨_, _, .config _⟩ => .isTrue trivial

variable {s : RouterDataModelSender} {p : Id} {ids : List Id} {action : Action} {add : Bool}

theorem identity_insert {i : Id} {x : Option SenderIdentity} {j : Id} :
    { s with identities := s.identities.insert i x }.identity j =
      if j = i then x else s.identity j := by
  simp only [identity, lookup_insert_eq]
  split <;> rfl

theorem identity_erase {i j : Id} :
    { s with identities := s.identities.erase i }.identity j =
      if j = i then none else s.identity j := by
  simp only [identity, lookup_erase_eq]
  split <;> rfl

theorem senderGraph_linkIdentity {i : Id} :
    senderGraph (s.linkIdentity p add i) = (senderGraph s).change ⟨p, [i], .relatedIdentity, add⟩ := by
  apply ext
  · funext t id
    cases t with
    | relatedIdentity =>
      simp only [senderGraph, Graph.change, RouterDataModelSender.linkIdentity, identity_insert]
      split
      · rename_i h
        simp [h]
      · rfl
    | _ => rfl
  · rfl
  · funext t q id
    cases t with
    | relatedIdentity =>
      simp only [senderGraph, Graph.change, RouterDataModelSender.linkIdentity, identity_insert, Graph.Linkable]
      by_cases hi : id = i
      · subst hi
        cases hx : s.identity id with
        | none => simp
        | some x =>
          by_cases hq : q = p
          · subst hq
            cases add <;> simp
            tauto
          · cases add <;> simp [hq, Ne.symm hq]
      · simp [hi]
    | relatedService => simp [senderGraph, Graph.change, RouterDataModelSender.linkIdentity]
    | relatedPostureCheck => simp [senderGraph, Graph.change, RouterDataModelSender.linkIdentity]
    | invalidRelatedType => simp [senderGraph, Graph.change]

theorem change_nil {g : Graph} {t : RelatedEntityType} : g.change ⟨p, [], t, add⟩ = g := by
  simp [Graph.change]

theorem senderGraph_linkIdentities :
    senderGraph (ids.foldl (RouterDataModelSender.linkIdentity p add) s) =
      (senderGraph s).change ⟨p, ids, .relatedIdentity, add⟩ := by
  induction ids generalizing s with
  | nil => rw [List.foldl_nil, change_nil]
  | cons i ids ih => rw [List.foldl_cons, ih, senderGraph_linkIdentity, Graph.change_cons]

section Members

variable {set : SenderServicePolicy → IdSet} {f : SenderServicePolicy → SenderServicePolicy}
  {t : IdTable SenderServicePolicy} {p q id : Id}

theorem has_adjust (hf : ∀ policy, set (f policy) = setAll (set policy) ids add) :
    (∃ policy, (adjust t p f).lookup q = some policy ∧ id ∈ set policy) ↔
      (p = q ∧ id ∈ ids ∧ add = true ∧ q ∈ t) ∨
        ((∃ policy, t.lookup q = some policy ∧ id ∈ set policy) ∧ ¬ (p = q ∧ id ∈ ids ∧ add = false)) := by
  rw [lookup_adjust]
  by_cases hq : q = p
  · subst hq
    cases hlook : t.lookup q with
    | none => simp [AList.lookup_eq_none.mp hlook]
    | some policy => simp [hf, mem_setAll, mem_of_lookup hlook]
  · simp [hq, Ne.symm hq]

theorem has_adjust_of_same (hf : ∀ policy, set (f policy) = set policy) :
    (∃ policy, (adjust t p f).lookup q = some policy ∧ id ∈ set policy) ↔
      ∃ policy, t.lookup q = some policy ∧ id ∈ set policy := by
  rw [lookup_adjust]
  split
  · cases t.lookup q <;> simp [hf]
  · rfl

end Members

theorem senderGraph_change {c : DataStateServicePolicyChange} :
    senderGraph (s.handleServicePolicyChange c) = (senderGraph s).change c := by
  obtain ⟨p, -, t, -⟩ := c
  cases t with
  | relatedIdentity => exact senderGraph_linkIdentities
  | invalidRelatedType =>
    apply ext
    · rfl
    · rfl
    · funext t q id
      cases t <;> simp [senderGraph, Graph.change, Graph.Linkable, RouterDataModelSender.handleServicePolicyChange]
  | relatedService =>
    apply ext
    · rfl
    · funext q
      exact propext mem_adjust
    · funext t q id
      apply propext
      cases t with
      | invalidRelatedType => simp [senderGraph, Graph.change]
      | relatedIdentity =>
        simp [senderGraph, Graph.change, RouterDataModelSender.handleServicePolicyChange, identity]
      | relatedPostureCheck =>
        simp only [Graph.change, reduceCtorEq, false_and, not_false_eq_true, and_true, false_or]
        exact has_adjust_of_same (fun _ => rfl)
      | relatedService =>
        simp only [Graph.change, Graph.Linkable, and_true, true_and]
        exact has_adjust (fun _ => rfl)
  | relatedPostureCheck =>
    apply ext
    · rfl
    · funext q
      exact propext mem_adjust
    · funext t q id
      apply propext
      cases t with
      | invalidRelatedType => simp [senderGraph, Graph.change]
      | relatedIdentity =>
        simp [senderGraph, Graph.change, RouterDataModelSender.handleServicePolicyChange, identity]
      | relatedService =>
        simp only [Graph.change, reduceCtorEq, false_and, not_false_eq_true, and_true, false_or]
        exact has_adjust_of_same (fun _ => rfl)
      | relatedPostureCheck =>
        simp only [Graph.change, Graph.Linkable, and_true, true_and]
        exact has_adjust (fun _ => rfl)

theorem senderGraph_identity {model : DataStateIdentity} :
    senderGraph (s.handleIdentityEvent action model) = (senderGraph s).set action .relatedIdentity model.id := by
  unfold RouterDataModelSender.handleIdentityEvent setOrRemove Graph.set
  split
  · apply ext
    · funext t id
      cases t with
      | relatedIdentity =>
        simp only [senderGraph, identity_erase, Graph.drop]
        split
        · simp [*]
        · simp [*]
      | _ => simp [senderGraph, Graph.drop]
    · rfl
    · funext t p id
      cases t with
      | relatedIdentity =>
        simp only [senderGraph, identity_erase, Graph.drop]
        split
        · simp [*]
        · simp [*]
      | _ => simp [senderGraph, Graph.drop]
  · apply ext
    · funext t id
      cases t with
      | relatedIdentity =>
        simp only [senderGraph, identity_insert, Graph.add]
        split
        · simp [*]
        · simp [*]
      | _ => simp [senderGraph, Graph.add]
    · rfl
    · funext t p id
      cases t with
      | relatedIdentity =>
        simp only [senderGraph, identity_insert, Graph.add]
        split
        · rename_i h
          subst h
          cases s.identity model.id <;> simp
        · rfl
      | _ => simp [senderGraph, Graph.add]

theorem senderGraph_service {model : DataStateService} :
    senderGraph (s.handleServiceEvent action model) = (senderGraph s).set action .relatedService model.id := by
  unfold RouterDataModelSender.handleServiceEvent setOrRemove Graph.set
  by_cases ha : action = .delete
  · simp only [ha]
    have hlook := lookup_adjustEach_keys s.servicePolicies (fun policy =>
      { policy with services := policy.services.erase model.id })
    have hmem : ∀ p, p ∈ adjustEach s.servicePolicies s.servicePolicies.keys (fun policy =>
        { policy with services := policy.services.erase model.id }) ↔ p ∈ s.servicePolicies := by
      intro p
      simp only [mem_iff_lookup, hlook, Option.map_eq_some_iff]
      exact ⟨fun ⟨_, policy, h, _⟩ => ⟨policy, h⟩, fun ⟨policy, h⟩ => ⟨_, policy, h, rfl⟩⟩
    apply ext
    · funext t id
      cases t with
      | relatedService => simp [senderGraph, Graph.drop, and_comm]
      | _ => simp [senderGraph, Graph.drop, identity]
    · funext p
      exact propext (hmem p)
    · funext t p id
      cases t with
      | invalidRelatedType => simp [senderGraph, Graph.drop]
      | relatedIdentity => simp [senderGraph, Graph.drop, identity, hmem]
      | relatedPostureCheck => cases hp : s.servicePolicies.lookup p <;> simp [senderGraph, Graph.drop, hlook]
      | relatedService =>
        cases hp : s.servicePolicies.lookup p <;> simp [senderGraph, Graph.drop, hlook, hp, and_comm]
  · simp only [ha]
    apply ext
    · funext t id
      cases t <;> simp [senderGraph, Graph.add, identity]
    · rfl
    · rfl

variable {s : RouterDataModelSender} {model : DataStateServicePolicy}

theorem senderGraph_postureCheck {model : DataStatePostureCheck}
    (h : action = .delete → ∀ e ∈ pairs s.servicePolicies, model.id ∉ e.2.postureChecks) :
    senderGraph { s with postureChecks := setOrRemove s.postureChecks action model.id model } =
      (senderGraph s).set action .relatedPostureCheck model.id := by
  unfold setOrRemove Graph.set
  by_cases ha : action = .delete
  · simp only [ha, if_true]
    have hfree : ∀ p policy, s.servicePolicies.lookup p = some policy → model.id ∉ policy.postureChecks :=
      fun p policy hp => h ha (p, policy) (mem_pairs.mpr hp)
    apply ext
    · funext t id
      cases t <;> simp [senderGraph, Graph.drop, identity, and_comm]
    · rfl
    · funext t p id
      apply propext
      cases t with
      | relatedPostureCheck =>
        simp only [Graph.drop, true_and]
        constructor
        · rintro ⟨policy, hp, hid⟩
          refine ⟨⟨policy, hp, hid⟩, ?_⟩
          rintro rfl
          exact hfree p policy hp hid
        · exact And.left
      | _ => simp [senderGraph, Graph.drop, identity]
  · simp only [ha]
    apply ext
    · funext t id
      cases t <;> simp [senderGraph, Graph.add, identity]
    · rfl
    · rfl

theorem senderGraph_updatePolicy
    (h : model.id ∉ s.servicePolicies → ∀ e ∈ pairs s.identities,
      e.2.all (fun x => decide (model.id ∉ x.servicePolicies)) = true) :
    senderGraph (s.applyUpdateServicePolicyEvent model) = (senderGraph s).addPolicy model.id := by
  have hfree : model.id ∉ s.servicePolicies → ∀ i x, s.identity i = some x → model.id ∉ x.servicePolicies := by
    intro hp i x hx
    cases hi : s.identities.lookup i with
    | none => simp [identity, hi] at hx
    | some y =>
      have hy : y = some x := by simpa [identity, hi] using hx
      have hall := h hp (i, y) (mem_pairs.mpr hi)
      simpa [hy] using hall
  unfold RouterDataModelSender.applyUpdateServicePolicyEvent
  apply ext
  · rfl
  · simp [senderGraph, Graph.addPolicy]
  · funext t p id
    apply propext
    by_cases hp : p = model.id
    · subst hp
      cases hlook : s.servicePolicies.lookup model.id with
      | none =>
        have hno := AList.lookup_eq_none.mp hlook
        cases t with
        | relatedIdentity =>
          simp only [senderGraph, Graph.addPolicy, AList.mem_insert, true_or,
            true_and, hno, false_and, iff_false]
          rintro ⟨x, hx, hmem⟩
          exact hfree hno id x hx hmem
        | _ => simp [senderGraph, Graph.addPolicy, hlook]
      | some policy =>
        have hyes := mem_of_lookup hlook
        cases t <;> simp [senderGraph, Graph.addPolicy, identity, hlook, hyes]
    · cases t <;> simp [senderGraph, Graph.addPolicy, identity, hp]

theorem senderGraph_deletePolicy :
    senderGraph (s.applyDeleteServicePolicyEvent model) = (senderGraph s).dropPolicy model.id := by
  unfold RouterDataModelSender.applyDeleteServicePolicyEvent
  apply ext
  · rfl
  · simp [senderGraph, Graph.dropPolicy, and_comm]
  · funext t p id
    by_cases hp : p = model.id
    · cases t <;> simp [senderGraph, Graph.dropPolicy, hp]
    · cases t <;> simp [senderGraph, Graph.dropPolicy, identity, hp]

/-- On the sender a clean event does to the links what it says. -/
theorem senderGraph_handle {event : Event} (h : Clean s event) :
    senderGraph (s.handle event) = (senderGraph s).apply event := by
  obtain ⟨action, synthetic, model⟩ := event
  cases model with
  | configType model => rfl
  | config model => rfl
  | publicKey model => rfl
  | revocation model => rfl
  | identity model => exact senderGraph_identity
  | service model => exact senderGraph_service
  | postureCheck model => exact senderGraph_postureCheck h
  | servicePolicyChange model => exact senderGraph_change
  | servicePolicy model =>
    cases action with
    | create => exact senderGraph_updatePolicy (h EdgeCtrl.Action.noConfusion)
    | update => exact senderGraph_updatePolicy (h EdgeCtrl.Action.noConfusion)
    | delete => exact senderGraph_deletePolicy

end Zt.RouterSender
