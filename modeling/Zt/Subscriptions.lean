import Zt.Notices
import Zt.RouterServices

namespace Zt.Subscriptions

open Tables Notices EdgeCtrl RouterModel RouterHandlers RouterServices

def CheckFlags.has (flags : CheckFlags) : Kind → Bool
  | .added => flags.added
  | .updated => flags.updated
  | .deleted => flags.deleted

def CheckFlags.put (flags : CheckFlags) (value : Bool) : Kind → CheckFlags
  | .added => { flags with added := value }
  | .updated => { flags with updated := value }
  | .deleted => { flags with deleted := value }

open CheckFlags (put has)

def eventOf (identityId : Id) : Kind → SubscriberEvent
  | .added => .identityCreated identityId
  | .updated => .checkForIdentityChanges identityId
  | .deleted => .identityDeleted identityId

/-- A model that shares the tables of another and has no subscriptions yet. -/
def newReceiverRouterDataModelFromExisting (existing : RouterDataModel) : RouterDataModel :=
  { existing with subs := {} }

variable (rdm : RouterDataModel)

def setSubscription (identityId : Id) (sub : IdentitySubscription) : RouterDataModel :=
  { rdm with subs := { rdm.subs with subscriptions := rdm.subs.subscriptions.insert identityId sub } }

def identityRemoved (sub : IdentitySubscription) : IdentitySubscription :=
  if sub.identity.isSome then { sub with identity := none, services := none, checks := none } else sub

def initializeServices (identity : Identity) (sub : IdentitySubscription) : IdentitySubscription :=
  if sub.services.isNone then
    { sub with
      services := some (buildServiceList rdm identity).1
      checks := some (buildServiceList rdm identity).2 }
  else sub

/-- The last part of the result says whether the subscription had an identity
already. -/
def initializeSubscription (identity : Identity) (sub : IdentitySubscription) :
    RouterDataModel × IdentitySubscription × Bool :=
  let rdm := if identity.serviceAccessTrackingEnabled then rdm else enableServiceAccessTracking rdm identity.id
  if sub.identity.isNone then
    (rdm, initializeServices rdm identity { sub with identity := some identity.stamp }, false)
  else (rdm, sub, true)

def checkForChanges (sub : IdentitySubscription) : RouterDataModel × IdentitySubscription :=
  match rdm.identities.lookup sub.identityId with
  | none => (rdm, identityRemoved sub)
  | some newIdentity =>
    let rdm := if sub.identity.isNone then enableServiceAccessTracking rdm sub.identityId else rdm
    let lists := buildServiceListUsingDenormalizedData rdm sub.identityId newIdentity
    (rdm, { sub with identity := some newIdentity.stamp, services := some lists.1, checks := some lists.2 })

def subscribeToIdentityChanges (identityId : Id) (isRouterIdentity : Bool) : Except String RouterDataModel :=
  let identity := rdm.identities.lookup identityId
  if identity.isNone && !isRouterIdentity then .error ("identity " ++ identityId ++ " not found")
  else
    let rdm := enableServiceAccessTracking rdm identityId
    let sub := (rdm.subs.subscriptions.lookup identityId).getD
      { identityId := identityId, isRouterIdentity := isRouterIdentity }
    match identity with
    | none => .ok (setSubscription rdm identityId sub)
    | some identity =>
      let (rdm, sub, _) := initializeSubscription rdm identity sub
      .ok (setSubscription rdm identityId sub)

/-- Take a flag down, and say whether it was up. -/
def markIdentityCheckComplete (identityId : Id) (kind : Kind) : RouterDataModel × Bool :=
  let flags := (rdm.subs.updatedIdentities.lookup identityId).getD {}
  let rest := put flags false kind
  ({ rdm with
      subs := { rdm.subs with
        updatedIdentities := if rest = {} then rdm.subs.updatedIdentities.erase identityId
          else rdm.subs.updatedIdentities.insert identityId rest } },
    has flags kind)

variable (clearUpdateEntry : Bool)

def completeIf (rdm : RouterDataModel) (identityId : Id) (kind : Kind) : RouterDataModel × Bool :=
  if clearUpdateEntry then markIdentityCheckComplete rdm identityId kind else (rdm, true)

def checkSubscription (sub : IdentitySubscription) : RouterDataModel :=
  let (rdm, sub') := checkForChanges rdm sub
  setSubscription rdm sub.identityId sub'

def syncSubscriptionIfRequired (rdm : RouterDataModel) (identityId : Id) : RouterDataModel :=
  match rdm.subs.subscriptions.lookup identityId with
  | none => rdm
  | some sub =>
    let (rdm, requiresSync) := completeIf clearUpdateEntry rdm identityId .updated
    if requiresSync then checkSubscription rdm sub else rdm

def checkSubsForNewIdentity (rdm : RouterDataModel) (identityId : Id) : RouterDataModel :=
  let (rdm, requiresSync) := completeIf clearUpdateEntry rdm identityId .added
  match rdm.subs.subscriptions.lookup identityId, rdm.identities.lookup identityId with
  | some sub, some identity =>
    if requiresSync then
      let (rdm, sub, wasInitialized) := initializeSubscription rdm identity sub
      if wasInitialized then checkSubscription rdm sub else setSubscription rdm identityId sub
    else rdm
  | _, _ => rdm

def checkSubsForDeletedIdentity (rdm : RouterDataModel) (identityId : Id) : RouterDataModel :=
  let (rdm, _) := completeIf clearUpdateEntry rdm identityId .deleted
  match rdm.subs.subscriptions.lookup identityId with
  | none => rdm
  | some sub =>
    if sub.isRouterIdentity then setSubscription rdm identityId (identityRemoved sub)
    else { rdm with subs := { rdm.subs with subscriptions := rdm.subs.subscriptions.erase identityId } }

def syncSubscriber (identityId : Id) : RouterDataModel :=
  match rdm.subs.subscriptions.lookup identityId with
  | none => rdm
  | some sub => checkSubscription (markIdentityCheckComplete rdm identityId .updated).1 sub

def process : SubscriberEvent → RouterDataModel
  | .identityCreated identityId => checkSubsForNewIdentity true rdm identityId
  | .checkForIdentityChanges identityId => syncSubscriptionIfRequired true rdm identityId
  | .identityDeleted identityId => checkSubsForDeletedIdentity true rdm identityId
  | .syncAllSubscribers => rdm.subs.subscriptions.keys.foldl syncSubscriber rdm

/-- A pending deletion hides the other flags of the entry. -/
def scanEntry (entry : Id × CheckFlags) : RouterDataModel :=
  let rdm := { rdm with
    subs := { rdm.subs with updatedIdentities := rdm.subs.updatedIdentities.erase entry.1 } }
  if entry.2.deleted then checkSubsForDeletedIdentity false rdm entry.1
  else
    let rdm := if entry.2.added then checkSubsForNewIdentity false rdm entry.1 else rdm
    if entry.2.updated then syncSubscriptionIfRequired false rdm entry.1 else rdm

def scanAll : RouterDataModel :=
  (pairs rdm.subs.updatedIdentities).foldl scanEntry { rdm with subs := { rdm.subs with scanPending := false } }

/-- Where the handler of an identity event is. The consumer may run between any
two of its steps. -/
inductive Producer
  | idle
  | unlinking (index : UInt64) (identityId : Id) (cleanup : List DataStateServicePolicyChange)
  | queueing (kind : Kind) (identityId : Id)
  | offering (kind : Kind) (identityId : Id)
  deriving DecidableEq

structure System where
  rdm : RouterDataModel
  producer : Producer := .idle

variable (index : UInt64)

def startDelete (rdm : RouterDataModel) (id : Id) : System :=
  match rdm.identities.lookup id with
  | none => { rdm := rdm, producer := .unlinking index id [] }
  | some identity =>
    { rdm := { rdm with configs := removeConfigReferences rdm.configs identity.toDataStateIdentity }
      producer := .unlinking index id
        (cleanupActions rdm identity.servicePolicies.keys .relatedIdentity id (·.identities)) }

def start (rdm : RouterDataModel) (action : Action) (model : DataStateIdentity) : System :=
  match action with
  | .create => { rdm := setIdentity index rdm model, producer := .queueing .added model.id }
  | .update => { rdm := setIdentity index rdm model, producer := .queueing .updated model.id }
  | .delete => startDelete index rdm model.id

def produce (x : System) : Option System :=
  match x.producer with
  | .idle => some x
  | .unlinking index id (change :: cleanup) =>
    (handleServicePolicyChange index x.rdm change).map (fun rdm =>
      { rdm := rdm, producer := .unlinking index id cleanup })
  | .unlinking _ id [] =>
    some { rdm := { x.rdm with identities := x.rdm.identities.erase id }, producer := .queueing .deleted id }
  | .queueing kind id =>
    if id ∈ x.rdm.subs.subscriptions then
      some {
        rdm := { x.rdm with
          subs := x.rdm.subs.markIdentityForCheck id (fun flags => put flags true kind) }
        producer := .offering kind id }
    else some { x with producer := .idle }
  | .offering kind id =>
    some { rdm := { x.rdm with subs := x.rdm.subs.offer (eventOf id kind) }, producer := .idle }

inductive Act
  | start (index : UInt64) (action : Action) (model : DataStateIdentity)
  | produce
  | consume
  | scan

def step (x : System) : Act → Option System
  | .start index action model => if x.producer = .idle then some (start index x.rdm action model) else some x
  | .produce => produce x
  | .consume =>
    match x.rdm.subs.events with
    | [] => some x
    | event :: events =>
      some { x with rdm := process { x.rdm with subs := { x.rdm.subs with events := events } } event }
  | .scan => if x.rdm.subs.scanPending then some { x with rdm := scanAll x.rdm } else some x

theorem run_change (id : Id) (cleanup : List DataStateServicePolicyChange) (rdm : RouterDataModel) :
    (List.replicate cleanup.length Act.produce).foldlM step { rdm := rdm, producer := .unlinking index id cleanup } =
      (cleanup.foldlM (handleServicePolicyChange index) rdm).map (fun rdm =>
        { rdm := rdm, producer := .unlinking index id [] }) := by
  induction cleanup generalizing rdm with
  | nil => rfl
  | cons change cleanup ih =>
    rw [List.length_cons, List.replicate_succ, List.foldlM_cons, List.foldlM_cons]
    simp only [step, produce]
    cases handleServicePolicyChange index rdm change with
    | none => rfl
    | some rdm' => exact ih rdm'

theorem run_queueing {kind : Kind} {id : Id} (rdm : RouterDataModel) :
    [Act.produce, Act.produce].foldlM step { rdm := rdm, producer := .queueing kind id } =
      some { rdm := { rdm with
        subs := rdm.subs.queueCheck id (fun flags => put flags true kind) (eventOf id kind) } } := by
  by_cases h : id ∈ rdm.subs.subscriptions
  · simp [step, produce, Subscribers.queueCheck, h]
  · simp [step, produce, Subscribers.queueCheck, h]

theorem run_unlinking (id : Id) (cleanup : List DataStateServicePolicyChange) (rdm : RouterDataModel) :
    (List.replicate (cleanup.length + 3) Act.produce).foldlM step
        { rdm := rdm, producer := .unlinking index id cleanup } =
      (cleanup.foldlM (handleServicePolicyChange index) rdm).map (fun rdm =>
        { rdm := queueIdentityCheck .delete { rdm with identities := rdm.identities.erase id } id }) := by
  rw [List.replicate_add, List.foldlM_append, run_change]
  cases cleanup.foldlM (handleServicePolicyChange index) rdm with
  | none => rfl
  | some rdm' => exact run_queueing { rdm' with identities := rdm'.identities.erase id }

/-- Run without interruption, the steps are the handler. -/
theorem run_eq_handleIdentityEvent (rdm : RouterDataModel) (action : Action) (model : DataStateIdentity) :
    ∃ n, (Act.start index action model :: List.replicate n Act.produce).foldlM step { rdm := rdm } =
      (handleIdentityEvent index rdm action model).map (fun rdm => { rdm := rdm }) := by
  cases action with
  | create => exact ⟨2, run_queueing (setIdentity index rdm model)⟩
  | update => exact ⟨2, run_queueing (setIdentity index rdm model)⟩
  | delete =>
    simp only [handleIdentityEvent, applyIdentityEvent, deleteIdentity, unlinkIdentity, if_true]
    cases h : rdm.identities.lookup model.id with
    | none =>
      refine ⟨3, trans ?_ (run_unlinking index model.id [] rdm)⟩
      simp [step, start, startDelete, h]
    | some identity =>
      let cleanup := cleanupActions rdm identity.servicePolicies.keys .relatedIdentity model.id (·.identities)
      let rdm' := { rdm with configs := removeConfigReferences rdm.configs identity.toDataStateIdentity }
      have hrun := run_unlinking index model.id cleanup rdm'
      refine ⟨cleanup.length + 3, .trans (.trans ?_ hrun) ?_⟩
      · simp [step, start, startDelete, h, cleanup, rdm']
      · rw [Option.map_map, Option.map_map]
        rfl

end Zt.Subscriptions
