import Zt.SubscriptionWrites

namespace Zt.SubscriptionRuns

open Tables Runs Notices EdgeCtrl RouterModel RouterHandlers RouterView RouterGraph RouterLinks RouterContents
  RouterServices ServiceLists Subscriptions SubscriptionChecks SubscriptionScans SubscriptionWrites
open AccessRuns (Exact Orderly Typed)

variable {rdm₀ rdm rdm' : RouterDataModel} {x x' : System} {producer : Producer} {i : Id}

variable {events : List SubscriberEvent} {kind : Kind} {id : Id} {index : UInt64} {event : SubscriberEvent}

theorem mem_queue : (kind, i) ∈ events.filterMap notice ↔ eventOf i kind ∈ events := by
  rw [List.mem_filterMap]
  constructor
  · rintro ⟨event, hmem, heq⟩
    cases event <;> cases heq <;> exact hmem
  · intro hmem
    exact ⟨eventOf i kind, hmem, by cases kind <;> rfl⟩

/-- What is left of a deletion is to take the identity out of each policy that
still has it. -/
def Pending (g : Graph) : Producer → Prop
  | .unlinking _ id cleanup => (∀ c ∈ cleanup, ∃ p, c = unlinkChange p id) ∧
      ∀ p, g.link .relatedIdentity p id → unlinkChange p id ∈ cleanup
  | _ => True

structure Inv (rdm₀ : RouterDataModel) (x : System) : Prop where
  steady : Steady rdm₀ x.rdm
  pending : Pending (graph (view x.rdm)) x.producer
  sound : Sound (Shows rdm₀) (board x)

theorem Pending.tracks (h : Pending (graph (view rdm)) producer) (ht : Tracks rdm rdm') :
    Pending (graph (view rdm')) producer := by
  cases producer with
  | unlinking index id cleanup =>
    refine ⟨h.1, fun p hlink => h.2 p ?_⟩
    obtain ⟨policy, hp, hmem⟩ := hlink
    simp only [view, ht.policies] at hp
    exact ⟨policy, hp, hmem⟩
  | _ => trivial

theorem inv_set (h : Inv rdm₀ x) (hidle : x.producer = .idle) (index : UInt64) (model : DataStateIdentity)
    (hk : kind ≠ .deleted) :
    Inv rdm₀ { rdm := setIdentity index x.rdm model, producer := .queueing kind model.id } := by
  have he := edits_setIdentity h.steady.exact index model
  have hsubs := subs_setIdentity index x.rdm model
  refine ⟨steady_edits h.steady he, trivial, h.sound.writes ⟨?_, fun j hj => valueOf_edits he hj, ?_, ?_, ?_, rfl, ?_, ?_⟩⟩
  · simp [board, hsubs]
  · have hvalue : (valueOf (setIdentity index x.rdm model) model.id).isSome := by
      rw [valueOf, identities_setIdentity, AList.lookup_insert]
      rfl
    cases kind with
    | added => exact hvalue
    | updated => trivial
    | deleted => exact absurd rfl hk
  · simp [board, hsubs]
  · simp [board, hidle, writer]
  · funext j kd
    simp [board, flagOf, hsubs]
  · simp [board, hsubs]

section

variable (h : Inv rdm₀ x)
include h

theorem inv_startDelete (hidle : x.producer = .idle) : Inv rdm₀ (startDelete index x.rdm id) := by
  have hlinks := h.steady.exact.consistent
  have hboard : ∀ configs cleanup, board { rdm := { x.rdm with configs := configs }
                                           producer := .unlinking index id cleanup } = board x := by
    intro configs cleanup
    simp only [board, hidle]
    rfl
  unfold startDelete
  cases hi : x.rdm.identities.lookup id with
  | none =>
    refine ⟨h.steady, ⟨fun c hc => absurd hc List.not_mem_nil, fun p hlink => ?_⟩, ?_⟩
    · obtain ⟨m, hm, -⟩ := hlinks.link_iff.mp hlink
      simp [view, hi] at hm
    · exact hboard x.rdm.configs [] ▸ h.sound
  | some identity =>
    refine ⟨steady_edits h.steady (edits_configs h.steady id _), ⟨fun c hc => ?_, fun p hlink => ?_⟩, ?_⟩
    · obtain ⟨p, -, rfl⟩ := List.mem_map.mp hc
      exact ⟨p, rfl⟩
    · obtain ⟨m, hm, hrole⟩ := hlinks.link_iff.mp hlink
      obtain ⟨_, hp, hmem⟩ := hlink
      obtain ⟨policy, hpol, rfl⟩ := Option.map_eq_some_iff.mp hp
      simp only [view, hi, Option.map_some, Option.some.injEq] at hm
      subst hm
      refine List.mem_map.mpr ⟨p, List.mem_filter.mpr ⟨hrole, ?_⟩, rfl⟩
      exact (Option.any_eq_true _ _).mpr ⟨policy, hpol, decide_eq_true hmem⟩
    · rw [hboard]
      exact h.sound

theorem inv_unlink {c : DataStateServicePolicyChange} {cleanup : List DataStateServicePolicyChange}
    (hx : x.producer = .unlinking index id (c :: cleanup)) : ∃ x', produce x = some x' ∧ Inv rdm₀ x' := by
  obtain ⟨hsteady, hpend, hsound⟩ := h
  rw [hx] at hpend
  obtain ⟨p, rfl⟩ := hpend.1 c List.mem_cons_self
  obtain ⟨rdm', hrdm', he, hgraph, hn, hflag⟩ := unlink_spec hsteady index p id
  refine ⟨{ rdm := rdm', producer := .unlinking index id cleanup }, ?_, steady_edits hsteady he, ⟨?_, ?_⟩, ?_⟩
  · simp [produce, hx, hrdm']
  · exact fun c hc => hpend.1 c (List.mem_cons_of_mem _ hc)
  · intro q hlink
    rw [hgraph] at hlink
    rcases hlink with ⟨-, -, -, hadd, -⟩ | ⟨hlink, hne⟩
    · cases hadd
    · rcases List.mem_cons.mp (hpend.2 q hlink) with heq | hmem
      · cases heq
        exact absurd ⟨rfl, rfl, List.mem_cons_self, rfl⟩ hne
      · exact hmem
  · refine hsound.touches ⟨fun notice hmem => ?_, fun j hj => valueOf_edits he hj, fun hseen => ?_, hn.scan, ?_,
      hn.kept, fun j kd hf => ?_, ?_⟩
    · exact mem_queue.mpr (hn.events _ (mem_queue.mp hmem))
    · exact hflag (isSome_seen.mp hseen)
    · simp [board, hx, writer]
    · rcases hn.flag j kd hf with hflag₀ | hmem | hscan
      · exact .inl hflag₀
      · exact .inr (.inl (mem_queue.mpr hmem))
      · exact .inr (.inr hscan)
    · simp [board, hn.subscriptions]

theorem inv_erase (hx : x.producer = .unlinking index id []) :
    Inv rdm₀ { rdm := { x.rdm with identities := x.rdm.identities.erase id }, producer := .queueing .deleted id } := by
  obtain ⟨hsteady, hpend, hsound⟩ := h
  rw [hx] at hpend
  have he := edits_erase hsteady (fun p hlink => absurd (hpend.2 p hlink) List.not_mem_nil)
  refine ⟨steady_edits hsteady he, trivial, hsound.writes ⟨rfl, fun j hj => valueOf_edits he hj,
    ?_, rfl, ?_, rfl, rfl, rfl⟩⟩
  · simp [Kind.Helps, board, valueOf]
  · simp [board, hx, writer]

omit h in
theorem steady_subs (h : Steady rdm₀ rdm) (subs : Subscribers) (hs : subs.subscriptions = rdm.subs.subscriptions) :
    Steady rdm₀ { rdm with subs := subs } := by
  refine h.tracks (.of_subs subs) (fun j sub hj => ?_)
  rw [hs] at hj
  exact ⟨mem_of_lookup hj, h.kept j sub hj⟩

theorem inv_queueing (hx : x.producer = .queueing kind id) : ∃ x', produce x = some x' ∧ Inv rdm₀ x' := by
  obtain ⟨hsteady, -, hsound⟩ := h
  have hwriter : (board x).writer = .announcing kind id := by simp [board, hx, writer]
  simp only [produce, hx]
  split
  · refine ⟨_, rfl, steady_subs hsteady _ rfl, trivial, hsound.announces
      ⟨rfl, rfl, rfl, rfl, hwriter, fun _ => rfl, fun j kd _ => ?_⟩⟩
    exact flagIn_mark x.rdm.subs id kind j kd
  · rename_i hmem
    refine ⟨_, rfl, hsteady, trivial, hsound.announces
      ⟨rfl, rfl, rfl, rfl, hwriter, fun hseen => absurd (isSome_seen.mp hseen) hmem, fun j kd hj => ⟨.inl, ?_⟩⟩⟩
    rintro (hflag | ⟨rfl, -⟩)
    · exact hflag
    · exact absurd (isSome_seen.mp hj) hmem

theorem inv_offering (hx : x.producer = .offering kind id) : ∃ x', produce x = some x' ∧ Inv rdm₀ x' := by
  obtain ⟨hsteady, -, hsound⟩ := h
  have hwriter : (board x).writer = .offering kind id := by simp [board, hx, writer]
  obtain ⟨hregistered, hflags, hevents, hscan, hoffer⟩ := offer_spec x.rdm.subs (eventOf id kind)
  simp only [produce, hx]
  refine ⟨_, rfl, steady_subs hsteady _ hregistered, trivial, hsound.offers
    ⟨fun notice hmem => ?_, rfl, hscan, ?_, ?_, hwriter, ?_⟩⟩
  · exact mem_queue.mpr (hevents _ (mem_queue.mp hmem))
  · simp [board, hregistered]
  · funext j kd
    simp [board, flagOf, hflags]
  · rcases hoffer with hmem | hscan'
    · exact .inl (mem_queue.mpr hmem)
    · exact .inr hscan'

theorem inv_produce : ∃ x', produce x = some x' ∧ Inv rdm₀ x' := by
  cases hx : x.producer with
  | idle => exact ⟨x, by simp [produce, hx], h⟩
  | unlinking index id cleanup =>
    cases cleanup with
    | nil => exact ⟨_, by simp [produce, hx], inv_erase h hx⟩
    | cons c cleanup => exact inv_unlink h hx
  | queueing kind id => exact inv_queueing h hx
  | offering kind id => exact inv_offering h hx

end

def isRouter (rdm : RouterDataModel) (id : Id) : Bool := (rdm.subs.subscriptions.lookup id).any (·.isRouterIdentity)

def aboutToQueue (x : System) (id : Id) : Prop :=
  x.producer = .queueing .added id ∨ x.producer = .queueing .updated id

instance (x : System) (id : Id) : Decidable (aboutToQueue x id) := inferInstanceAs (Decidable (_ ∨ _))

/-- No deletion of a router's identity is handled while the identity is stored
again, unless another check of it is still to come. -/
def Undisturbed (x : System) : Act → Prop
  | .consume => ∀ id ∈ x.rdm.identities.keys, x.rdm.subs.events.head? = some (.identityDeleted id) →
      isRouter x.rdm id = true →
        flagOf x.rdm id .added = true ∨ flagOf x.rdm id .updated = true ∨ aboutToQueue x id
  | .scan => x.rdm.subs.scanPending = true → ∀ id ∈ x.rdm.identities.keys, flagOf x.rdm id .deleted = true →
      isRouter x.rdm id = true → aboutToQueue x id
  | _ => True

instance (x : System) (act : Act) : Decidable (Undisturbed x act) := by
  cases act <;> unfold Undisturbed <;> infer_instance

theorem mem_of_value (h : (valueOf rdm id).isSome) : id ∈ rdm.identities := by
  rw [valueOf, Option.isSome_map] at h
  exact AList.lookup_isSome.mp h

theorem aboutToQueue_writer (h : aboutToQueue x id) :
    (board x).writer = .announcing .added id ∨ (board x).writer = .announcing .updated id := by
  rcases h with h | h
  · exact .inl (by simp [board, h, writer])
  · exact .inr (by simp [board, h, writer])

section

variable (h : Inv rdm₀ x)
include h

theorem inv_checked (hx : x.rdm.subs.events = event :: events) (hk : notice event = some (kind, i))
    (hc : Checked rdm₀ true kind { x.rdm with subs := { x.rdm.subs with events := events } } rdm' i)
    (hdel : kind = .deleted → i ∈ rdm'.subs.subscriptions → i ∈ x.rdm.identities →
      flagOf x.rdm i .added = true ∨ flagOf x.rdm i .updated = true ∨ aboutToQueue x i) :
    Inv rdm₀ { x with rdm := rdm' } := by
  have hsteady := steady_subs h.steady { x.rdm.subs with events := events } rfl
  have hqueue : x.rdm.subs.events.filterMap notice = (kind, i) :: events.filterMap notice := by
    rw [hx, List.filterMap_cons_some hk]
  refine ⟨hc.toLocal.steady hsteady, h.pending.tracks ((Tracks.of_subs _).trans hc.tracks),
    h.sound.takes (takes_of_checked hqueue hc) (fun hkind hseen hvalue => ?_)⟩
  rcases hdel hkind (isSome_seen.mp hseen) (mem_of_value hvalue) with hflag | hflag | habout
  · exact .inl (.inl hflag)
  · exact .inr (.inl hflag)
  · rcases aboutToQueue_writer habout with hw | hw
    · exact .inl (.inr hw)
    · exact .inr (.inr hw)

theorem inv_syncAll (hx : x.rdm.subs.events = .syncAllSubscribers :: events) :
    Inv rdm₀ { x with rdm := process { x.rdm with subs := { x.rdm.subs with events := events } } .syncAllSubscribers } := by
  have hsteady := steady_subs h.steady { x.rdm.subs with events := events } rfl
  have hall := syncedAll_foldl (AList.keys_nodup x.rdm.subs.subscriptions) hsteady
  refine ⟨hsteady.tracks hall.tracks hall.kept, h.pending.tracks ((Tracks.of_subs _).trans hall.tracks),
    h.sound.refreshes ⟨?_, hall.tracks.value, hall.scan, rfl, hall.flag, fun j s' hs' => ?_⟩⟩
  · simp only [board, hx, List.filterMap_cons_none (f := notice) (a := .syncAllSubscribers) rfl]
    exact congrArg _ hall.events
  · obtain ⟨hmem, -⟩ := hall.kept j s' hs'
    exact ⟨isSome_seen.mpr hmem, hall.shown j (AList.mem_keys.mp hmem) s' hs'⟩

theorem inv_consume (hx : x.rdm.subs.events = event :: events) (hc : Undisturbed x .consume) :
    Inv rdm₀ { x with rdm := process { x.rdm with subs := { x.rdm.subs with events := events } } event } := by
  have hsteady := steady_subs h.steady { x.rdm.subs with events := events } rfl
  cases event with
  | identityCreated id => exact inv_checked h hx rfl (checked_new hsteady true id) nofun
  | checkForIdentityChanges id => exact inv_checked h hx rfl (checked_sync hsteady true id) nofun
  | identityDeleted id =>
    refine inv_checked h hx rfl (checked_deleted hsteady true id) (fun _ hmem hid => ?_)
    refine hc id (AList.mem_keys.mp hid) (by rw [hx]; rfl) ?_
    exact router_of_deleted { x.rdm with subs := { x.rdm.subs with events := events } } hmem
  | syncAllSubscribers => exact inv_syncAll h hx

theorem inv_scan (hpend : x.rdm.subs.scanPending = true) (hc : Undisturbed x .scan) :
    Inv rdm₀ { x with rdm := scanAll x.rdm } := by
  obtain ⟨hsteady, htracks, hscans, hrouter⟩ := scans_all h.steady
  refine ⟨hsteady, h.pending.tracks htracks, h.sound.scans hscans (fun j hseen hdel hvalue => ?_)⟩
  have hid := mem_of_value hvalue
  exact aboutToQueue_writer (hc hpend j (AList.mem_keys.mp hid) hdel (hrouter j (isSome_seen.mp hseen) hdel))

theorem inv_step {act : Act} (hc : Undisturbed x act) : ∃ x', step x act = some x' ∧ Inv rdm₀ x' := by
  cases act with
  | start index action model =>
    simp only [step]
    split
    · rename_i hidle
      refine ⟨_, rfl, ?_⟩
      cases action with
      | create => exact inv_set h hidle index model (by decide)
      | update => exact inv_set h hidle index model (by decide)
      | delete => exact inv_startDelete h hidle
    · exact ⟨x, rfl, h⟩
  | produce => exact inv_produce h
  | consume =>
    simp only [step]
    cases hx : x.rdm.subs.events with
    | nil => exact ⟨x, rfl, h⟩
    | cons event events => exact ⟨_, rfl, inv_consume h hx hc⟩
  | scan =>
    simp only [step]
    split
    · rename_i hpend
      exact ⟨_, rfl, inv_scan h hpend hc⟩
    · exact ⟨x, rfl, h⟩

end

/-- A model that events of an orderly controller have filled. -/
def Filled (rdm : RouterDataModel) : Prop :=
  ∃ timelineId index ops,
    Admits (fun rdm op => Orderly rdm op ∧ Typed op) AccessRuns.step (newReceiverRouterDataModel timelineId index) ops ∧
      ops.foldlM AccessRuns.step (newReceiverRouterDataModel timelineId index) = some rdm

/-- A subscription that fails leaves the model as it is. -/
def subscribe (rdm : RouterDataModel) (subscriber : Id × Bool) : RouterDataModel :=
  match subscribeToIdentityChanges rdm subscriber.1 subscriber.2 with
  | .ok rdm => rdm
  | .error _ => rdm

def begin (rdm : RouterDataModel) (subscribers : List (Id × Bool)) : System :=
  { rdm := subscribers.foldl subscribe (newReceiverRouterDataModelFromExisting rdm) }

/-- Nothing is noted yet, and every subscription is up to date. -/
structure Fresh (rdm₀ rdm : RouterDataModel) : Prop where
  steady : Steady rdm₀ rdm
  updated : rdm.subs.updatedIdentities = ∅
  shows : ∀ i sub, rdm.subs.subscriptions.lookup i = some sub → Shows rdm₀ sub (valueOf rdm i)

theorem keyed_step {op : AccessRuns.Op} (h : Keyed (contents rdm)) (hs : AccessRuns.step rdm op = some rdm') :
    Keyed (contents rdm') := by
  cases op with
  | handle index event => exact keyed_handle h hs
  | enableServiceAccessTracking id =>
    cases hs
    apply keyed_adjust_identity h
    intro identity
    split <;> rfl
  | disableServiceAccessTracking id =>
    cases hs
    apply keyed_adjust_identity h
    intro identity
    split <;> rfl

theorem Fresh.set {sub' : IdentitySubscription} (h : Fresh rdm₀ rdm) (ht : Tracks rdm rdm')
    (hready : ∀ identity', rdm'.identities.lookup i = some identity' → Ready identity') (hsubs : rdm'.subs = rdm.subs)
    (hid : sub'.identityId = i) (hshows : Shows rdm₀ sub' (valueOf rdm i)) :
    Fresh rdm₀ (setSubscription rdm' i sub') := by
  have hlook : ∀ j, (setSubscription rdm' i sub').subs.subscriptions.lookup j =
      if j = i then some sub' else rdm.subs.subscriptions.lookup j := by
    simp [setSubscription, hsubs, lookup_insert_eq]
  have hkept := KeptSub.of_shows hid hshows
  refine ⟨⟨ht.exact h.steady.exact, named_of_value ht.value h.steady.named,
    (h.steady.unmoved.tracks ht).trans ⟨rfl, rfl, rfl⟩, ?_, ?_⟩, ?_, ?_⟩
  · intro j sub hs
    rw [hlook] at hs
    by_cases hj : j = i
    · subst hj
      rw [if_pos rfl] at hs
      cases hs
      exact hkept
    · rw [if_neg hj] at hs
      exact h.steady.kept j sub hs
  · intro j identity' hmem hj'
    by_cases hj : j = i
    · subst hj
      exact hready identity' hj'
    · obtain ⟨sub, hs⟩ := mem_iff_lookup.mp hmem
      rw [hlook, if_neg hj] at hs
      obtain ⟨identity, hi, hr⟩ := ht.ready j identity' hj'
      exact hr (h.steady.ready j identity (mem_of_lookup hs) hi)
  · rw [← h.updated, ← hsubs]
    rfl
  · intro j sub hs
    rw [hlook] at hs
    have hvalue : valueOf (setSubscription rdm' i sub') j = valueOf rdm j := congrFun ht.value j
    rw [hvalue]
    by_cases hj : j = i
    · subst hj
      rw [if_pos rfl] at hs
      cases hs
      exact hshows
    · rw [if_neg hj] at hs
      exact h.shows j sub hs

theorem Fresh.kept_getD (h : Fresh rdm₀ rdm) {isRouterIdentity : Bool} {sub : IdentitySubscription}
    (hsub : sub = (rdm.subs.subscriptions.lookup id).getD { identityId := id, isRouterIdentity := isRouterIdentity }) :
    KeptSub id sub ∧ (valueOf rdm id = none ∨ sub.identity ≠ none → Shows rdm₀ sub (valueOf rdm id)) := by
  cases hs : rdm.subs.subscriptions.lookup id with
  | none =>
    rw [hs] at hsub
    subst hsub
    refine ⟨⟨rfl, fun _ => rfl⟩, ?_⟩
    rintro (hnone | hne)
    · rw [hnone]
      exact ⟨rfl, rfl⟩
    · exact absurd rfl hne
  | some sub₀ =>
    have hsame : sub = sub₀ := by rw [hsub, hs, Option.getD_some]
    rw [hsame]
    exact ⟨h.steady.kept id sub₀ hs, fun _ => h.shows id sub₀ hs⟩

theorem Fresh.subscribe (h : Fresh rdm₀ rdm) (subscriber : Id × Bool) :
    Fresh rdm₀ (SubscriptionRuns.subscribe rdm subscriber) := by
  obtain ⟨id, isRouterIdentity⟩ := subscriber
  obtain ⟨sub, hsub⟩ : ∃ sub, sub = (rdm.subs.subscriptions.lookup id).getD
      { identityId := id, isRouterIdentity := isRouterIdentity } := ⟨_, rfl⟩
  have hsub' : (enableServiceAccessTracking rdm id).subs.subscriptions.lookup id =
      rdm.subs.subscriptions.lookup id := rfl
  obtain ⟨hkept, hshown⟩ := h.kept_getD hsub
  have henable := Tracks.enable rdm id
  have hready : ∀ identity, (enableServiceAccessTracking rdm id).identities.lookup id = some identity →
      Ready identity := fun identity hi => .inl (tracked_enable hi)
  unfold SubscriptionRuns.subscribe subscribeToIdentityChanges
  simp only [hsub', ← hsub]
  cases hi : rdm.identities.lookup id with
  | none =>
    have hnone : valueOf rdm id = none := by simp [valueOf, hi]
    cases isRouterIdentity with
    | false => exact h
    | true => exact h.set henable hready rfl hkept.1 (hshown (.inl hnone))
  | some identity =>
    obtain ⟨ht, hsubs⟩ := initializeSubscription_tracks (enableServiceAccessTracking rdm id) identity sub
    have hvalue : valueOf rdm id = some (lasting identity) := by simp [valueOf, hi]
    have hready' : ∀ identity', (initializeSubscription (enableServiceAccessTracking rdm id) identity
        sub).1.identities.lookup id = some identity' → Ready identity' := by
      intro identity' hi'
      obtain ⟨identity₁, hi₁, hr⟩ := ht.ready id identity' hi'
      exact hr (hready identity₁ hi₁)
    simp only [Option.isNone_some]
    cases hstamp : sub.identity with
    | none =>
      obtain ⟨-, hid, hshows⟩ := initializeSubscription_none (h.steady.unmoved.tracks henable) hkept hstamp identity
      exact h.set (henable.trans ht) hready' hsubs hid (by rw [hvalue]; exact hshows)
    | some stamp =>
      have hinit := congrArg Prod.fst
        (initializeSubscription_some hstamp (enableServiceAccessTracking rdm id) identity)
      rw [hinit]
      refine h.set (henable.trans ht) hready' hsubs hkept.1 (hshown (.inr ?_))
      rw [hstamp]
      exact Option.some_ne_none stamp

theorem fresh_existing (h : Filled rdm) : Fresh rdm (newReceiverRouterDataModelFromExisting rdm) := by
  obtain ⟨timelineId, index, ops, hops, hrun⟩ := h
  obtain ⟨rdm', hrun', hexact, hkeyed⟩ := hops.invariant
    (fun rdm => Exact True (view rdm) ∧ Keyed (contents rdm))
    (fun rdm op hinv hc => by
      obtain ⟨rdm', hs, he⟩ := AccessRuns.exact_step hinv.1 hc.1 (fun _ => hc.2)
      exact ⟨rdm', hs, he, keyed_step hinv.2 hs⟩)
    ⟨AccessRuns.exact_empty, keyed_new⟩
  rw [hrun] at hrun'
  cases hrun'
  refine ⟨⟨hexact, fun i identity hi => ?_, ⟨rfl, rfl, rfl⟩, fun i sub hs => ?_, fun i identity hmem => ?_⟩, rfl,
    fun i sub hs => ?_⟩
  · exact hkeyed.identity i identity.toProtobuf (Option.map_eq_some_iff.mpr ⟨identity, hi, rfl⟩)
  · simp [newReceiverRouterDataModelFromExisting] at hs
  · simp [newReceiverRouterDataModelFromExisting] at hmem
  · simp [newReceiverRouterDataModelFromExisting] at hs

theorem fresh_begin (h : Filled rdm) (subscribers : List (Id × Bool)) : Fresh rdm (begin rdm subscribers).rdm := by
  have hfold : ∀ rdm', Fresh rdm rdm' → Fresh rdm (subscribers.foldl subscribe rdm') := by
    induction subscribers with
    | nil => exact fun rdm' hf => hf
    | cons subscriber subscribers ih => exact fun rdm' hf => ih _ (hf.subscribe subscriber)
  exact hfold _ (fresh_existing h)

theorem inv_begin (h : Filled rdm) (subscribers : List (Id × Bool)) : Inv rdm (begin rdm subscribers) := by
  have hfresh := fresh_begin h subscribers
  refine ⟨hfresh.steady, trivial, fun i kind _ hflag => ?_, fun i sub hs => .inl (hfresh.shows i sub hs)⟩
  simp only [board, flagOf, hfresh.updated] at hflag
  cases kind <;> cases hflag

/-- Each subscription has the identity that is stored, or none if none is, with
the services that the model builds for it. -/
def Converged (rdm : RouterDataModel) : Prop :=
  ∀ i sub, rdm.subs.subscriptions.lookup i = some sub → match rdm.identities.lookup i with
    | none => sub.identity = none ∧ sub.services = none
    | some identity => sub.identity = some identity.stamp ∧ ∃ services, sub.services = some services ∧
        ∀ s, (services.lookup s).map exported = ((buildServiceList rdm identity).1.lookup s).map exported

theorem Inv.converged (h : Inv rdm₀ x) (hp : x.producer = .idle) (he : x.rdm.subs.events = [])
    (hs : x.rdm.subs.scanPending = false) : Converged x.rdm := by
  intro i sub hsub
  have hshows := h.sound.settled (by simp [board, he]) hs
    (by simp [board, hp, writer]) hsub
  simp only [board, valueOf] at hshows
  cases hi : x.rdm.identities.lookup i with
  | none =>
    rw [hi] at hshows
    exact hshows
  | some identity =>
    rw [hi] at hshows
    obtain ⟨hstamp, services, hsvcs, hgranted⟩ := hshows
    refine ⟨hstamp, services, hsvcs, fun s => ?_⟩
    rw [hgranted, lookup_buildServiceList]
    exact (granted_congr h.steady.unmoved rfl).symm

/-- When nothing is left to handle, every subscription is up to date, in every
run in which no late deletion hits an identity that has come back. -/
theorem subscriptions_converge {rdm : RouterDataModel} (h : Filled rdm) (subscribers : List (Id × Bool))
    (acts : List Act) (hc : Admits Undisturbed step (begin rdm subscribers) acts) :
    ∃ x, acts.foldlM step (begin rdm subscribers) = some x ∧
      (x.producer = .idle → x.rdm.subs.events = [] → x.rdm.subs.scanPending = false → Converged x.rdm) := by
  obtain ⟨x, hrun, hinv⟩ := hc.invariant (Inv rdm) (fun x act hinv hact => inv_step hinv hact) (inv_begin h subscribers)
  exact ⟨x, hrun, hinv.converged⟩

def routerRun : List AccessRuns.Op :=
  [ .handle 1 { model := .identity { id := "r" } }, .handle 1 { model := .service { id := "s" } },
    .handle 2 { model := .servicePolicy { id := "p", policyType := .dialPolicy } },
    .handle 3 (AccessRuns.link "p" .relatedIdentity "r" true),
    .handle 4 (AccessRuns.link "p" .relatedService "s" true) ]

def routerModel : RouterDataModel :=
  (routerRun.foldlM AccessRuns.step (newReceiverRouterDataModel "db" 0)).getD (newReceiverRouterDataModel "db" 0)

theorem filled_routerModel : Filled routerModel :=
  ⟨"db", 0, routerRun, by decide, rfl⟩

/-- The identity goes and comes back, and each change is handled before the next. -/
def comesBack : List Act :=
  [ .start 5 .update { id := "r", name := "router" }, .produce, .produce, .consume,
    .start 6 .delete { id := "r" }, .produce, .consume, .produce, .produce, .produce, .consume,
    .start 7 .create { id := "r" }, .produce, .produce, .consume, .scan ]

theorem subscriptions_converge_after_return :
    Admits Undisturbed step (begin routerModel [("r", true)]) comesBack ∧
      ∃ x, comesBack.foldlM step (begin routerModel [("r", true)]) = some x ∧
        (x.producer = .idle → x.rdm.subs.events = [] → x.rdm.subs.scanPending = false → Converged x.rdm) := by
  have h : Admits Undisturbed step (begin routerModel [("r", true)]) comesBack := by decide
  exact ⟨h, subscriptions_converge filled_routerModel [("r", true)] comesBack h⟩

/-- The first event finds the identity that the last one announced and takes its
flag down. The deletion between them is believed, and the last event is skipped. -/
def lateDeletion : List Act :=
  [ .start 1 .create { id := "r" }, .produce, .produce,
    .start 2 .delete { id := "r" }, .produce, .produce, .produce,
    .start 3 .create { id := "r" }, .produce, .produce,
    .consume, .consume, .consume ]

/-- Nothing is left to do, the identity is stored and the subscription has none. -/
def forgets (x : System) (i : Id) : Bool :=
  decide (x.producer = .idle) && decide (x.rdm.subs.events = []) && !x.rdm.subs.scanPending &&
    decide (i ∈ x.rdm.identities) && (x.rdm.subs.subscriptions.lookup i).any (·.identity.isNone)

theorem forgets_spec (h : forgets x i = true) :
    x.producer = .idle ∧ x.rdm.subs.events = [] ∧ x.rdm.subs.scanPending = false ∧ ¬ Converged x.rdm := by
  simp only [forgets, Bool.and_eq_true, decide_eq_true_eq, Bool.not_eq_true', Option.any_eq_true] at h
  obtain ⟨⟨⟨⟨hproducer, hevents⟩, hscan⟩, hid⟩, sub, hsub, hnone⟩ := h
  refine ⟨hproducer, hevents, hscan, fun hconv => ?_⟩
  obtain ⟨identity, hi⟩ := mem_iff_lookup.mp hid
  have hshown := hconv i sub hsub
  rw [hi] at hshown
  rw [hshown.1] at hnone
  cases hnone

theorem late_deletion_forgets_identity : Filled (newReceiverRouterDataModel "db" 0) ∧
    ∃ x, lateDeletion.foldlM step (begin (newReceiverRouterDataModel "db" 0) [("r", true)]) = some x ∧
      x.producer = .idle ∧ x.rdm.subs.events = [] ∧ x.rdm.subs.scanPending = false ∧ ¬ Converged x.rdm := by
  have hrun : (lateDeletion.foldlM step (begin (newReceiverRouterDataModel "db" 0) [("r", true)])).any
      (forgets · "r") = true := by decide
  obtain ⟨x, hx, hforgets⟩ := (Option.any_eq_true _ _).mp hrun
  exact ⟨⟨"db", 0, [], trivial, rfl⟩, x, hx, forgets_spec hforgets⟩

end Zt.SubscriptionRuns
