import Mathlib.Algebra.Group.Int.Defs
import Zt.AccessRuns

namespace Zt.AccessSections

open Tables Tally Runs EdgeCtrl RouterModel RouterHandlers RouterView RouterGraph RouterLinks RouterEvents
open RouterServices AccessCounts ServiceLists AccessRuns
open Function (update update_apply update_idem update_eq_self_iff)
open View (withServices switches)

/-- What a handler has left to do when it gives up a lock. A change of the
services of a policy counts them for each identity under the lock of the identity,
and then writes them to the policy one by one. An event of an identity copies the
access of the old value before it reads the flag. -/
inductive Task
  | change (index : UInt64) (model : DataStateServicePolicyChange)
  | write (model : DataStateServicePolicyChange) (serviceId : Id)
  | settle (index : UInt64) (model : DataStateServicePolicyChange) (policy : ServicePolicy)
  | publish (index : UInt64) (action : Action) (model : DataStateIdentity) (serviceAccess : IdTable ServiceAccess)

structure State where
  rdm : RouterDataModel
  tasks : List Task := []

def start (timelineId : String) (index : UInt64) : State := { rdm := newReceiverRouterDataModel timelineId index }

/-- The calls of the subscribers read the services of the policies of one identity
and write its access, so they act before or after all that a handler does at once. -/
def receive (index : UInt64) (rdm : RouterDataModel) (event : Event) : Option State :=
  let atOnce := (handle index rdm event).map (fun rdm => { rdm := rdm })
  match event.model with
  | .servicePolicyChange model =>
    if model.relatedEntityType = .relatedService then some { rdm := rdm, tasks := [.change index model] } else atOnce
  | .service model =>
    if event.action = .delete then
      match rdm.services.lookup model.id with
      | none => some { rdm := rdm }
      | some service =>
        some {
          rdm := { rdm with
            configs := removeFromConfigs rdm.configs model.id service.configs
            services := rdm.services.erase model.id }
          tasks := (cleanupActions rdm service.servicePolicies.keys .relatedService model.id (·.services)).map
            (.change index) }
    else atOnce
  | .identity model =>
    if event.action = .delete then atOnce
    else
      let serviceAccess := ((rdm.identities.lookup model.id).map (·.serviceAccess)).getD ∅
      some { rdm := rdm, tasks := [.publish index event.action model serviceAccess] }
  | _ => atOnce

def writeService (model : DataStateServicePolicyChange) (rdm : RouterDataModel) (serviceId : Id) : RouterDataModel :=
  { rdm with
    servicePolicies := adjust rdm.servicePolicies model.policyId (fun policy =>
      { policy with services := setAll policy.services [serviceId] model.add }) }

def publishIdentity (index : UInt64) (rdm : RouterDataModel) (action : Action) (model : DataStateIdentity)
    (serviceAccess : IdTable ServiceAccess) : RouterDataModel :=
  let rdm := { rdm with
    identities := adjust rdm.identities model.id (fun identity => { identity with serviceAccess := serviceAccess }) }
  queueIdentityCheck action (setIdentity index rdm model) model.id

/-- One task, which may leave others in its place. -/
def proceed (rdm : RouterDataModel) : Task → Option State
  | .change index model =>
    match rdm.servicePolicies.lookup model.policyId with
    | none => some { rdm := rdm }
    | some policy =>
      (eachIdentity rdm policy (fun m => some (countServices model.add m policy model.relatedEntityIds index))).map
        (fun rdm => {
          rdm := rdm
          tasks := model.relatedEntityIds.map (.write model) ++ [.settle index model policy] })
  | .write model serviceId => some { rdm := writeService model rdm serviceId }
  | .settle index model policy =>
    (settleServices index model.relatedEntityIds model.add rdm policy).map
      (fun rdm => { rdm := finishChange index model rdm })
  | .publish index action model serviceAccess => some { rdm := publishIdentity index rdm action model serviceAccess }

inductive Op
  | receive (index : UInt64) (event : Event)
  | proceed
  | enableServiceAccessTracking (identityId : Id)
  | disableServiceAccessTracking (identityId : Id)

/-- An event waits until the one before it is done. -/
def step (st : State) : Op → Option State
  | .receive index event =>
    match st.tasks with
    | [] => receive index st.rdm event
    | _ :: _ => some st
  | .proceed =>
    match st.tasks with
    | [] => some st
    | task :: tasks => (proceed st.rdm task).map (fun st => { st with tasks := st.tasks ++ tasks })
  | .enableServiceAccessTracking identityId => some { st with rdm := enableServiceAccessTracking st.rdm identityId }
  | .disableServiceAccessTracking identityId => some { st with rdm := disableServiceAccessTracking st.rdm identityId }

/-- The services of a policy of the identity are counted and not all written, or
an event of the identity has copied its access. -/
def halfDone (st : State) (identityId : Id) (identity : Identity) : Bool :=
  match st.tasks with
  | .write model _ :: _ => model.policyId ∈ identity.servicePolicies
  | .publish _ _ model _ :: _ => model.id = identityId
  | _ => false

def Orderly (st : State) : Op → Prop
  | .receive _ event => st.tasks.isEmpty → Disciplined st.rdm event
  | _ => True

def Typed : Op → Prop
  | .receive index event => AccessRuns.Typed (.handle index event)
  | _ => True

/-- No call turns tracking on for an identity with which a handler is half done. -/
def Timely (st : State) : Op → Prop
  | .enableServiceAccessTracking identityId => (st.rdm.identities.lookup identityId).any (fun identity =>
      !identity.serviceAccessTrackingEnabled && halfDone st identityId identity) = false
  | _ => True

instance (st : State) : (op : Op) → Decidable (Orderly st op)
  | .receive _ event => inferInstanceAs (Decidable (st.tasks.isEmpty → Disciplined st.rdm event))
  | .proceed | .enableServiceAccessTracking _ | .disableServiceAccessTracking _ => .isTrue trivial

instance : (op : Op) → Decidable (Typed op)
  | .receive index event => inferInstanceAs (Decidable (AccessRuns.Typed (.handle index event)))
  | .proceed | .enableServiceAccessTracking _ | .disableServiceAccessTracking _ => .isTrue trivial

instance (st : State) : (op : Op) → Decidable (Timely st op)
  | .enableServiceAccessTracking _ => inferInstanceAs (Decidable (_ = false))
  | .receive .. | .proceed | .disableServiceAccessTracking _ => .isTrue trivial

variable {typed : Prop} {rdm : RouterDataModel} {i s : Id} {c : DataStateServicePolicyChange} {policy : ServicePolicy}
  {todo : List Id} {changes : List DataStateServicePolicyChange} {v v' : View}

/-- What the identities are counted for, and what the checks of the policy count
for, between the counts and the end of a change. -/
def given (rdm : RouterDataModel) (c : DataStateServicePolicyChange) (policy : ServicePolicy) : Id → Option Grants :=
  update (grantsIn (view rdm)) c.policyId (some (grantsOf (withServices policy c.relatedEntityIds c.add)))

def used (rdm : RouterDataModel) (c : DataStateServicePolicyChange) (policy : ServicePolicy) : Id → Option Grants :=
  update (grantsIn (view rdm)) c.policyId (some (grantsOf policy))

/-- The services of a change are counted and some are not yet written. -/
structure Counting (typed : Prop) (rdm : RouterDataModel) (c : DataStateServicePolicyChange) (policy : ServicePolicy)
    (todo : List Id) : Prop where
  consistent : Consistent (view rdm)
  known : typed → ∀ p g, grantsIn (view rdm) p = some g → g.policyType = .dialPolicy ∨ g.policyType = .bindPolicy
  named : policy.id = c.policyId
  current : ∃ services, rdm.servicePolicies.lookup c.policyId = some { policy with services := services } ∧
    setAll services todo c.add = setAll policy.services c.relatedEntityIds c.add
  counted : ∀ i m, (view rdm).identity i = some m → CountedAs typed (given rdm c policy) (used rdm c policy) m

theorem counting_of_exact (h : Exact typed (view rdm)) (hp : rdm.servicePolicies.lookup c.policyId = some policy)
    (hf : Fresh policy.services c.relatedEntityIds c.add) (index : UInt64) :
    ∃ rdm', eachIdentity rdm policy (fun m => some (countServices c.add m policy c.relatedEntityIds index)) =
        some rdm' ∧ Counting typed rdm' c policy c.relatedEntityIds ∧ (view rdm').policy = (view rdm).policy := by
  rw [countServices_eq]
  have hreturns : ∀ i ∈ policy.identities, ∀ m, (view rdm).identity i = some m →
      ∃ m', some (m.servicesChangedInPolicy c.add policy c.relatedEntityIds index) = some m' := fun _ _ _ _ => ⟨_, rfl⟩
  obtain ⟨rdm', h₁⟩ := eachIdentity_returns hreturns
  obtain ⟨hview, hpol, -, -⟩ := view_eachIdentity h₁
  have hp' : (view rdm).policy c.policyId = some (bare policy) := by simp [view, hp]
  have hnamed := h.consistent.named hp'
  change policy.id = c.policyId at hnamed
  have hg := grantsIn_some hp'
  change grantsIn (view rdm) c.policyId = some (grantsOf policy) at hg
  have hused : used rdm c policy = grantsIn (view rdm) := update_eq_self_iff.mpr hg.symm
  refine ⟨rdm', h₁, ⟨?_, ?_, hnamed, ⟨policy.services, by rw [hpol, hp], rfl⟩, fun i m hm => ?_⟩, by rw [hview]; rfl⟩
  · refine h.consistent.congr (held_onMembers hreturns (fun m m' hm => ?_) (by rw [hview])) (by rw [hview]; rfl)
    cases hm
    exact frame_servicesChanged c.add m policy c.relatedEntityIds index
  · rw [hview]
    exact h.known
  · rw [hview] at hm
    rw [given, used, hview]
    refine onMembers_counted h.consistent hp' h.counted (fun m hmem hcounted => ⟨_, rfl, ?_⟩)
      (fun q hq => Function.update_of_ne hq _ _) (fun q hq => Function.update_of_ne hq _ _) i m hm
    change CountedAs typed (given rdm c policy) (used rdm c policy) _
    rw [hused, given, ← hnamed]
    exact Counted.servicesChanged hcounted (hnamed ▸ hmem) (hnamed ▸ hg) hf index

theorem Counting.write (h : Counting typed rdm c policy (s :: todo)) :
    Counting typed (writeService c rdm s) c policy todo := by
  obtain ⟨services, hl, hset⟩ := h.current
  let written : ServicePolicy := { policy with services := setAll services [s] c.add }
  have hl' : (writeService c rdm s).servicePolicies.lookup c.policyId = some written := by
    simp [writeService, lookup_adjust, hl, written]
  have hpol : (view (writeService c rdm s)).policy = update (view rdm).policy c.policyId (some (bare written)) := by
    funext p
    simp only [view, update_apply]
    split
    · rename_i hp
      rw [hp, hl']
      rfl
    · rename_i hp
      simp [writeService, lookup_adjust, hp]
  have hp : (view rdm).policy c.policyId = some (bare { policy with services := services }) := by simp [view, hl]
  refine ⟨?_, fun hty => ?_, h.named, ⟨_, hl', ?_⟩, ?_⟩
  · refine h.consistent.update hpol (fun _ _ _ => .rfl) (fun hnone => by cases hnone) (fun policy' heq => ?_)
    cases heq
    exact ⟨h.named, fun i => (h.consistent.linked hp i).trans mem_held.symm⟩
  · refine known_update hpol (h.known hty) (fun x hx => ?_)
    cases hx
    exact h.known hty c.policyId _ (grantsIn_some hp)
  · rw [← hset]
    cases c.add <;> rfl
  · rw [given, used, grantsIn_update hpol, update_idem, update_idem]
    exact h.counted

theorem Counting.written (h : Counting typed rdm c policy []) :
    rdm.servicePolicies.lookup c.policyId = some (withServices policy c.relatedEntityIds c.add) ∧
      given rdm c policy = grantsIn (view rdm) := by
  obtain ⟨services, hl, hset⟩ := h.current
  have hservices : services = setAll policy.services c.relatedEntityIds c.add := by
    rw [← hset]
    cases c.add <;> rfl
  rw [hservices] at hl
  have hp : (view rdm).policy c.policyId = some (bare (withServices policy c.relatedEntityIds c.add)) := by
    simp [view, hl, withServices]
  exact ⟨hl, update_eq_self_iff.mpr (grantsIn_some hp).symm⟩

/-- The last section brings the counts of the checks up to date. -/
theorem Counting.settle (h : Counting typed rdm c policy []) (index : UInt64) :
    ∃ rdm', settleServices index c.relatedEntityIds c.add rdm policy = some rdm' ∧ Exact typed (view rdm') ∧
      (view rdm').policy = (view rdm).policy := by
  obtain ⟨hl, hgiven⟩ := h.written
  let changed := withServices policy c.relatedEntityIds c.add
  have hp : (view rdm).policy c.policyId = some (bare changed) := by simp [view, hl, changed]
  let f : Membership → Option Membership := fun m => if switches policy c.relatedEntityIds c.add then
    m.postureChecksChangedInPolicy c.add changed policy.postureChecks.keys index else some m
  have hf : ∀ m, c.policyId ∈ m.servicePolicies → CountedAs typed (given rdm c policy) (used rdm c policy) m →
      ∃ m', f m = some m' ∧ Counted typed (grantsIn (view rdm)) m' := by
    intro m hmem hcounted
    have hnew : given rdm c policy = update (used rdm c policy) policy.id (some (grantsOf changed)) := by
      rw [h.named, used, update_idem, given]
    rw [← hgiven]
    rw [hnew] at hcounted ⊢
    exact hcounted.settled (h.named ▸ hmem) (h.named ▸ Function.update_self _ _ _) index
  have hreturns : ∀ i ∈ policy.identities, ∀ m, (view rdm).identity i = some m → ∃ m', f m = some m' :=
    fun i hi m hm => (members_counted h.consistent hp h.counted hf i hi m hm).imp (fun _ => And.left)
  have hend : ∃ rdm', settleServices index c.relatedEntityIds c.add rdm policy = some rdm' ∧
      (view rdm').identity = ((view rdm).onMembers policy.identities f).identity ∧
      (view rdm').policy = (view rdm).policy := by
    rw [settleServices_eq]
    by_cases hsw : switches policy c.relatedEntityIds c.add
    · obtain ⟨rdm', h₁⟩ : ∃ rdm', eachIdentity { rdm with
          services := linkServices policy.id c.relatedEntityIds c.add rdm.services } changed f = some rdm' :=
        eachIdentity_returns hreturns
      obtain ⟨hview, -⟩ := view_eachIdentity h₁
      refine ⟨rdm', ?_, by rw [hview]; rfl, by rw [hview]; rfl⟩
      simp only [f, if_pos hsw] at h₁ ⊢
      exact h₁
    · refine ⟨_, if_neg hsw, ?_, rfl⟩
      simp only [f, if_neg hsw, View.onMembers_some]
      rfl
  obtain ⟨rdm', h₁, hid, hpol⟩ := hend
  have hgrants : grantsIn (view rdm') = grantsIn (view rdm) := by
    funext p
    simp only [grantsIn, hpol]
  refine ⟨rdm', h₁, ⟨h.consistent.congr (held_onMembers hreturns (fun m m' hm => ?_) hid) hpol, ?_,
    fun i m hm => ?_⟩, hpol⟩
  · simp only [f] at hm
    split at hm
    · exact frame_postureChecksChanged hm
    · cases hm
      exact ⟨rfl, rfl⟩
  · rw [hgrants]
    exact h.known
  · rw [hgrants]
    rw [hid] at hm
    exact onMembers_counted h.consistent hp h.counted hf (fun q hq => by rw [hgiven])
      (fun q hq => (Function.update_of_ne hq _ _).symm) i m hm

theorem Counting.adjust {f : Identity → Identity} (h : Counting typed rdm c policy todo) (hf : Switch f)
    (hc : ∀ identity, rdm.identities.lookup i = some identity →
      AccessCounted typed (given rdm c policy) identity.toMembership →
        AccessCounted typed (given rdm c policy) (f identity).toMembership) :
    Counting typed { rdm with identities := Tables.adjust rdm.identities i f } c policy todo := by
  refine ⟨consistent_adjustIdentity h.consistent hf, h.known, h.named, h.current, ?_⟩
  exact forall_adjustIdentity h.counted (fun identity hi hcounted =>
    CountedAs.switched hcounted hf (hc identity hi hcounted.access))

theorem Counting.enable (h : Counting typed rdm c policy todo)
    (hsafe : todo ≠ [] → ∀ identity, rdm.identities.lookup i = some identity →
      identity.serviceAccessTrackingEnabled = false → c.policyId ∉ identity.servicePolicies) :
    Counting typed (enableServiceAccessTracking rdm i) c policy todo := by
  refine h.adjust switch_enable (fun identity hi hc => ?_)
  split
  · exact hc
  · rename_i htrack
    have hbuilt := accessCounted_enable identity h.known
    cases todo with
    | nil => rwa [h.written.2]
    | cons s todo =>
      have hout := hsafe (List.cons_ne_nil _ _) identity hi (by simpa using htrack)
      exact AccessCounted.congr hbuilt (update_eq_of_notMem hout _)

theorem Counting.disable (h : Counting typed rdm c policy todo) :
    Counting typed (disableServiceAccessTracking rdm i) c policy todo :=
  h.adjust switch_disable (fun _ _ hc => accessCounted_disable hc)

/-- The changes that wait are on different policies, of which each adds services
that the policy does not have or removes services that it has. -/
structure Waiting (v : View) (changes : List DataStateServicePolicyChange) : Prop where
  apart : (changes.map (·.policyId)).Nodup
  fresh : ∀ c ∈ changes, ∀ policy, v.policy c.policyId = some policy →
    Fresh policy.services c.relatedEntityIds c.add

inductive Sound (typed : Prop) : State → Prop
  | waiting {rdm : RouterDataModel} {changes : List DataStateServicePolicyChange} (index : UInt64) :
    Exact typed (view rdm) → Waiting (view rdm) changes → Sound typed ⟨rdm, changes.map (.change index)⟩
  | counting {rdm : RouterDataModel} {c : DataStateServicePolicyChange} {policy : ServicePolicy} {todo : List Id}
      {changes : List DataStateServicePolicyChange} (index : UInt64) :
    Counting typed rdm c policy todo → Waiting (view rdm) changes → c.policyId ∉ changes.map (·.policyId) →
      Sound typed ⟨rdm, todo.map (.write c) ++ .settle index c policy :: changes.map (.change index)⟩
  | publishing {rdm : RouterDataModel} {index : UInt64} {action : Action} {model : DataStateIdentity}
      {serviceAccess : IdTable ServiceAccess} :
    Exact typed (view rdm) → (∀ identity, rdm.identities.lookup model.id = some identity →
      identity.serviceAccessTrackingEnabled = true → identity.serviceAccess = serviceAccess) →
      Sound typed ⟨rdm, [.publish index action model serviceAccess]⟩

theorem Waiting.of_policy (h : Waiting v changes) (hpol : ∀ c ∈ changes, v'.policy c.policyId = v.policy c.policyId) :
    Waiting v' changes :=
  ⟨h.apart, fun c hc policy hp => h.fresh c hc policy (hpol c hc ▸ hp)⟩

theorem sound_idle (h : Exact typed (view rdm)) : Sound typed { rdm := rdm } :=
  @Sound.waiting typed rdm [] 0 h ⟨List.nodup_nil, fun _ hc => by cases hc⟩

theorem Sound.exact {st : State} (h : Sound typed st) (hidle : st.tasks = []) : Exact typed (view st.rdm) := by
  cases h with
  | waiting _ he _ => exact he
  | counting _ _ _ _ => simp at hidle
  | publishing _ _ => cases hidle

theorem exact_publishIdentity {model : DataStateIdentity} {serviceAccess : IdTable ServiceAccess}
    (h : Exact typed (view rdm)) (hcopy : ∀ identity, rdm.identities.lookup model.id = some identity →
      identity.serviceAccessTrackingEnabled = true → identity.serviceAccess = serviceAccess)
    (index : UInt64) (action : Action) :
    Exact typed (view (publishIdentity index rdm action model serviceAccess)) := by
  let copied := { rdm with
    identities := adjust rdm.identities model.id (fun identity => { identity with serviceAccess := serviceAccess }) }
  have hcopied : Exact typed (view copied) := by
    refine exact_adjustIdentity h (fun _ => ⟨rfl, rfl⟩) (fun identity hi hc htrack s => ?_)
    have hs := hc htrack s
    rwa [hcopy identity hi htrack] at hs
  have hview : view (publishIdentity index rdm action model serviceAccess) = _ := view_setIdentity
  rw [hview]
  exact hcopied.addIdentity model.id

theorem sound_receive {index : UInt64} {event : Event} (h : Exact typed (view rdm)) (hd : Disciplined rdm event)
    (hty : typed → AccessRuns.Typed (.handle index event)) :
    ∃ st, receive index rdm event = some st ∧ Sound typed st := by
  have hstep : ∃ rdm', AccessRuns.step rdm (.handle index event) = some rdm' ∧ Exact typed (view rdm') :=
    exact_step h hd hty
  obtain ⟨rdm', h₁, he⟩ : ∃ rdm', handle index rdm event = some rdm' ∧ Exact typed (view rdm') := hstep
  have hatOnce : Sound typed { rdm := rdm' } := sound_idle he
  obtain ⟨action, synthetic, model⟩ := event
  cases model with
  | servicePolicyChange c =>
    by_cases ht : c.relatedEntityType = .relatedService
    · refine ⟨⟨rdm, [c].map (.change index)⟩, if_pos ht,
        .waiting index h ⟨List.nodup_singleton _, fun c' hc' policy hp => ?_⟩⟩
      cases List.mem_singleton.mp hc'
      have hok : InOrder False (view rdm) _ := Disciplined.inOrder hd (fun hfalse => hfalse.elim)
      have hfresh := hok.fresh hp (.inl ht)
      rwa [ht] at hfresh
    · exact ⟨_, by simp [receive, ht, h₁], hatOnce⟩
  | service model =>
    by_cases ha : action = .delete
    · cases hs : rdm.services.lookup model.id with
      | none => exact ⟨{ rdm := rdm }, by simp [receive, ha, hs], sound_idle h⟩
      | some service =>
        refine ⟨⟨_, _⟩, by simp only [receive, ha, hs]; rfl, .waiting index ?_ ?_⟩
        · rw [view_erase_service]
          exact ⟨consistent_setService h.consistent, h.known, h.counted⟩
        · simp only [cleanupActions]
          refine ⟨?_, fun c hc policy hp => ?_⟩
          · rw [List.map_map]
            exact (service.servicePolicies.keys_nodup.filter _).map Function.injective_id
          · obtain ⟨p, hmem, rfl⟩ := List.mem_map.mp hc
            obtain ⟨policy', hl, hs⟩ := (Option.any_eq_true _ _).mp (List.mem_filter.mp hmem).2
            have hp' : some (bare policy') = some policy := by simpa [view, hl] using hp
            cases hp'
            exact ⟨List.nodup_singleton _, fun id hid => by simpa [List.mem_singleton.mp hid, bare] using hs⟩
    · exact ⟨_, by simp [receive, ha, h₁], hatOnce⟩
  | identity model =>
    by_cases ha : action = .delete
    · exact ⟨_, by simp [receive, ha, ← h₁], hatOnce⟩
    · let serviceAccess := ((rdm.identities.lookup model.id).map (·.serviceAccess)).getD ∅
      refine ⟨⟨rdm, [.publish index action model serviceAccess]⟩, if_neg ha, .publishing h (fun identity hi _ => ?_)⟩
      simp [serviceAccess, hi]
  | _ => exact ⟨_, by simp [receive, h₁], hatOnce⟩

theorem Sound.proceed {st : State} (h : Sound typed st) : ∃ st', step st .proceed = some st' ∧ Sound typed st' := by
  cases h with
  | @waiting rdm changes index he hw =>
    cases changes with
    | nil => exact ⟨_, rfl, sound_idle he⟩
    | cons c changes =>
      obtain ⟨hne, hn⟩ := List.nodup_cons.mp hw.apart
      have hrest : Waiting (view rdm) changes := ⟨hn, fun c' hc' => hw.fresh c' (List.mem_cons_of_mem c hc')⟩
      cases hp : rdm.servicePolicies.lookup c.policyId with
      | none =>
        exact ⟨⟨rdm, changes.map (.change index)⟩, by simp [step, AccessSections.proceed, hp], .waiting index he hrest⟩
      | some policy =>
        have hfresh := hw.fresh c List.mem_cons_self (bare policy) (by simp [view, hp])
        obtain ⟨rdm', h₁, hcount, hpol⟩ := counting_of_exact he hp hfresh index
        refine ⟨⟨rdm', _⟩, ?_, .counting index hcount (hrest.of_policy (fun _ _ => by rw [hpol])) hne⟩
        simp [step, AccessSections.proceed, hp, h₁]
  | @counting rdm c policy todo changes index hc hw hne =>
    cases todo with
    | nil =>
      obtain ⟨rdm', h₁, he, hpol⟩ := hc.settle index
      refine ⟨⟨finishChange index c rdm', changes.map (.change index)⟩, by simp [step, AccessSections.proceed, h₁], ?_⟩
      exact .waiting index (by rwa [view_finishChange]) (hw.of_policy (fun _ _ => by rw [view_finishChange, hpol]))
    | cons s todo =>
      refine ⟨_, rfl, .counting index hc.write (hw.of_policy (fun c' hc' => ?_)) hne⟩
      have hother : c'.policyId ≠ c.policyId := fun heq => hne (heq ▸ List.mem_map_of_mem hc')
      simp [view, writeService, lookup_adjust, hother]
  | publishing he hcopy => exact ⟨_, rfl, sound_idle (exact_publishIdentity he hcopy _ _)⟩

theorem Sound.enable {st : State} (h : Sound typed st) (ht : Timely st (.enableServiceAccessTracking i)) :
    Sound typed { st with rdm := enableServiceAccessTracking st.rdm i } := by
  have hclear : ∀ identity, st.rdm.identities.lookup i = some identity →
      identity.serviceAccessTrackingEnabled = false → halfDone st i identity = false := by
    intro identity hi htrack
    simpa [Timely, hi, htrack] using ht
  cases h with
  | waiting index he hw => exact .waiting index (exact_enable he) (hw.of_policy (fun _ _ => rfl))
  | @counting rdm c policy todo changes index hc hw hne =>
    refine .counting index (hc.enable (fun htodo identity hi htrack => ?_)) (hw.of_policy (fun _ _ => rfl)) hne
    obtain ⟨s, todo, rfl⟩ := List.exists_cons_of_ne_nil htodo
    simpa [halfDone] using hclear identity hi htrack
  | @publishing rdm index action model serviceAccess he hcopy =>
    refine .publishing (exact_enable he) (fun identity hi htrack => ?_)
    simp only [enableServiceAccessTracking, lookup_adjust] at hi
    split at hi
    · rename_i hid
      obtain ⟨old, hold, rfl⟩ := Option.map_eq_some_iff.mp hi
      split at htrack
      · rename_i hon
        rw [if_pos hon]
        exact hcopy old hold hon
      · rename_i hoff
        have hfree := hclear old (hid ▸ hold) (by simpa using hoff)
        simp [halfDone, hid] at hfree
    · exact hcopy identity hi htrack

theorem Sound.disable {st : State} (h : Sound typed st) :
    Sound typed { st with rdm := disableServiceAccessTracking st.rdm i } := by
  cases h with
  | waiting index he hw => exact .waiting index (exact_disable he) (hw.of_policy (fun _ _ => rfl))
  | counting index hc hw hne => exact .counting index hc.disable (hw.of_policy (fun _ _ => rfl)) hne
  | publishing he hcopy =>
    refine .publishing (exact_disable he) (fun identity hi htrack => ?_)
    simp only [disableServiceAccessTracking, lookup_adjust] at hi
    split at hi
    · obtain ⟨old, hold, rfl⟩ := Option.map_eq_some_iff.mp hi
      split at htrack
      · cases htrack
      · rename_i hoff
        rw [if_neg hoff]
        exact hcopy old hold htrack
    · exact hcopy identity hi htrack

theorem sound_step {st : State} {op : Op} (h : Sound typed st) (ho : Orderly st op) (ht : Timely st op)
    (hty : typed → Typed op) : ∃ st', step st op = some st' ∧ Sound typed st' := by
  cases op with
  | receive index event =>
    cases hidle : st.tasks with
    | nil =>
      obtain ⟨st', h₁, hs⟩ : ∃ st', receive index st.rdm event = some st' ∧ Sound typed st' :=
        sound_receive (h.exact hidle) (ho (by simp [hidle])) hty
      exact ⟨st', by simp [step, hidle, h₁], hs⟩
    | cons task tasks => exact ⟨st, by simp [step, hidle], h⟩
  | proceed => exact h.proceed
  | enableServiceAccessTracking i => exact ⟨_, rfl, h.enable ht⟩
  | disableServiceAccessTracking i => exact ⟨_, rfl, h.disable⟩

/-- The policies of an identity that pass a test. -/
def policiesWith (rdm : RouterDataModel) (identity : Identity) (test : ServicePolicy → Bool) : List Id :=
  identity.servicePolicies.keys.filter (fun p => (rdm.servicePolicies.lookup p).any test)

theorem tally_policyGrants {identity : Identity} {test : Grants → Bool} :
    tally (policyGrants rdm) identity.servicePolicies test =
      (policiesWith rdm identity (fun policy => test (grantsOf policy))).length := by
  simp [tally, policiesWith, policyGrants, Option.any_map]

theorem length_policiesWith_le {identity : Identity} {test : ServicePolicy → Bool} :
    (policiesWith rdm identity test).length ≤ rdm.servicePolicies.keys.length := by
  refine (List.subperm_of_subset (identity.servicePolicies.keys_nodup.filter _) (fun p hp => ?_)).length_le
  obtain ⟨policy, hl, -⟩ := (Option.any_eq_true _ _).mp (List.mem_filter.mp hp).2
  exact AList.mem_keys.mp (mem_of_lookup hl)

theorem mem_serviceAccess_iff (h : Exact True (view rdm)) {identity : Identity}
    (hi : rdm.identities.lookup i = some identity) (htrack : identity.serviceAccessTrackingEnabled = true) :
    s ∈ identity.serviceAccess ↔ ∃ p ∈ identity.servicePolicies, ∃ policy,
      rdm.servicePolicies.lookup p = some policy ∧ s ∈ policy.services := by
  have hc := (counted_of_lookup h hi).access htrack s
  have hknown := h.known trivial
  rw [grantsIn_view] at hknown
  rw [mem_iff_lookup]
  constructor
  · rintro ⟨a, ha⟩
    have hacc := hc.2.2 trivial a ha
    obtain ⟨hd, hb, -⟩ := hc
    have ha' : identity.toMembership.serviceAccess.lookup s = some a := ha
    rw [ha', Option.getD_some] at hd hb
    rw [hasAccess_iff, hd, hb, Int.natCast_pos, Int.natCast_pos, tally_pos, tally_pos] at hacc
    have hgives : ∃ p ∈ identity.servicePolicies, ∃ g, policyGrants rdm p = some g ∧ s ∈ g.services := by
      rcases hacc with ⟨p, hp, g, hg, hallow⟩ | ⟨p, hp, g, hg, hallow⟩ <;>
        exact ⟨p, hp, g, hg, Grants.services_of_allows hallow⟩
    obtain ⟨p, hp, g, hg, hs⟩ := hgives
    obtain ⟨policy, hpol, rfl⟩ := Option.map_eq_some_iff.mp hg
    exact ⟨p, hp, policy, hpol, hs⟩
  · rintro ⟨p, hp, policy, hpol, hs⟩
    have hg : policyGrants rdm p = some (grantsOf policy) := by simp [policyGrants, hpol]
    apply hc.exists_of_pos
    rw [tally_pos, tally_pos]
    rcases hknown p _ hg with ht | ht
    · exact .inl ⟨p, hp, _, hg, by simp [Grants.allows, ht]; exact hs⟩
    · exact .inr ⟨p, hp, _, hg, by simp [Grants.allows, ht]; exact hs⟩

/-- A tracked identity has an access entry for exactly the services of its
policies, with the number of its dial and of its bind policies that have the
service, and both ways to build its service list agree. The counters are of 32
bits and do not wrap while there are fewer than 2^31 policies. -/
def AccessExact (rdm : RouterDataModel) : Prop :=
  ∀ i identity, rdm.identities.lookup i = some identity → identity.serviceAccessTrackingEnabled = true → ∀ s,
    (s ∈ identity.serviceAccess ↔ ∃ p ∈ identity.servicePolicies, ∃ policy,
      rdm.servicePolicies.lookup p = some policy ∧ s ∈ policy.services) ∧
    (∀ access, identity.serviceAccess.lookup s = some access → access.dialPoliciesCount =
        (policiesWith rdm identity (fun policy => policy.isDial && decide (s ∈ policy.services))).length ∧
      access.bindPoliciesCount =
        (policiesWith rdm identity (fun policy => policy.isBind && decide (s ∈ policy.services))).length ∧
      (rdm.servicePolicies.keys.length < 2 ^ 31 →
        access.dialPoliciesCount < 2 ^ 31 ∧ access.bindPoliciesCount < 2 ^ 31)) ∧
    ((buildServiceListUsingDenormalizedData rdm i identity).1.lookup s).map exported =
      ((buildServiceList rdm identity).1.lookup s).map exported

theorem accessExact_of_exact (h : Exact True (view rdm)) : AccessExact rdm := by
  intro i identity hi htrack s
  refine ⟨mem_serviceAccess_iff h hi htrack, fun access ha => ?_, lookup_lists_agree h hi htrack s⟩
  obtain ⟨hd, hb, -⟩ := (counted_of_lookup h hi).access htrack s
  have ha' : identity.toMembership.serviceAccess.lookup s = some access := ha
  rw [ha'] at hd hb
  have hdial := hd.trans (congrArg _ tally_policyGrants)
  have hbind := hb.trans (congrArg _ tally_policyGrants)
  refine ⟨hdial, hbind, fun hfew => ?_⟩
  rw [Option.getD_some] at hdial hbind
  rw [hdial, hbind]
  exact ⟨by exact_mod_cast length_policiesWith_le.trans_lt hfew, by exact_mod_cast length_policiesWith_le.trans_lt hfew⟩

/-- In every run of orderly events and of calls that do not come while a handler is
half done with their identity, the denormalised access agrees with the policies
whenever no handler is in progress, and no handler fails. -/
theorem service_access_exact (timelineId : String) (index : UInt64) (ops : List Op)
    (h : Admits (fun st op => Orderly st op ∧ Typed op ∧ Timely st op) step (start timelineId index) ops) :
    ∃ st, ops.foldlM step (start timelineId index) = some st ∧
      (st.tasks = [] → AccessExact st.rdm) := by
  obtain ⟨st, hrun, hsound⟩ := h.invariant (Sound True)
    (fun st op hs hc => sound_step hs hc.1 hc.2.2 (fun _ => hc.2.1)) (sound_idle exact_empty)
  exact ⟨st, hrun, fun hidle => accessExact_of_exact (hsound.exact hidle)⟩

/-- A dial policy that becomes a bind policy while its identity is tracked, an
identity outside of it that is tracked while its services are written, and a
service that is deleted while it is linked. -/
def flipRun : List Op :=
  [ .receive 1 { model := .identity { id := "i" } }, .proceed, .receive 1 { model := .identity { id := "j" } },
    .proceed, .receive 1 { model := .service { id := "s" } }, .receive 1 { model := .service { id := "gone" } },
    .receive 1 { model := .postureCheck { id := "c" } },
    .receive 2 { model := .servicePolicy { id := "p", policyType := .dialPolicy } },
    .receive 3 (link "p" .relatedIdentity "i" true), .receive 3 (link "p" .relatedPostureCheck "c" true),
    .enableServiceAccessTracking "i",
    .receive 4 { model := .servicePolicyChange ⟨"p", ["s", "gone"], .relatedService, true⟩ }, .proceed, .proceed,
    .enableServiceAccessTracking "j", .proceed, .disableServiceAccessTracking "i", .enableServiceAccessTracking "i",
    .proceed, .receive 6 { action := .update, model := .servicePolicy { id := "p", policyType := .bindPolicy } },
    .receive 8 { action := .delete, model := .service { id := "gone" } }, .proceed, .proceed, .proceed ]

theorem service_access_exact_after_flip :
    Admits (fun st op => Orderly st op ∧ Typed op ∧ Timely st op) step (start "db" 0) flipRun ∧
      ∃ st, flipRun.foldlM step (start "db" 0) = some st ∧
        (st.tasks = [] → AccessExact st.rdm) := by
  have h : Admits (fun st op => Orderly st op ∧ Typed op ∧ Timely st op) step (start "db" 0) flipRun := by decide
  exact ⟨h, service_access_exact "db" 0 flipRun h⟩

/-- A policy with an identity and, if there is one, a service. -/
def policyRun (services : List Id) : List Op :=
  [ .receive 1 { model := .identity { id := "i" } }, .proceed, .receive 1 { model := .service { id := "s" } },
    .receive 1 { model := .service { id := "t" } },
    .receive 2 { model := .servicePolicy { id := "p", policyType := .dialPolicy } },
    .receive 3 (link "p" .relatedIdentity "i" true),
    .receive 4 { model := .servicePolicyChange ⟨"p", services, .relatedService, true⟩ } ] ++
    List.replicate (services.length + 2) .proceed

/-- Tracking that starts after a new service was counted and before the policy has
it misses the service. -/
theorem tracking_misses_service :
    ∃ ops : List Op, Admits (fun st op => Orderly st op ∧ Typed op) step (start "db" 0) ops ∧
      ∃ st, ops.foldlM step (start "db" 0) = some st ∧ st.tasks.isEmpty = true ∧
        (st.rdm.servicePolicies.lookup "p").any (fun policy => decide ("s" ∈ policy.services)) = true ∧
        (st.rdm.identities.lookup "i").any (fun identity => identity.serviceAccessTrackingEnabled &&
          decide ("p" ∈ identity.servicePolicies) && decide ("s" ∉ identity.serviceAccess)) = true := by
  refine ⟨policyRun ["t"] ++ [.receive 5 (link "p" .relatedService "s" true), .proceed,
    .enableServiceAccessTracking "i", .proceed, .proceed], by decide, _, rfl, ?_⟩
  decide

/-- A check is counted once for each policy of the identity that has it and has
services, and is absent if there is none. The counters, of 32 bits, do not wrap
while there are fewer than 2^31 policies. -/
def UseCountsExact (rdm : RouterDataModel) : Prop :=
  ∀ i identity, rdm.identities.lookup i = some identity → ∀ c,
    identity.postureChecks.lookup c = useCount (policiesWith rdm identity (fun policy =>
      !isEmpty policy.services && decide (c ∈ policy.postureChecks))).length ∧
    (rdm.servicePolicies.keys.length < 2 ^ 31 → ∀ n, identity.postureChecks.lookup c = some n → n < 2 ^ 31)

theorem useCountsExact_of_exact (h : Exact typed (view rdm)) : UseCountsExact rdm := by
  intro i identity hi c
  have hcount := ((counted_of_lookup h hi).uses c).trans (congrArg _ tally_policyGrants)
  refine ⟨hcount, fun hfew n hn => ?_⟩
  rw [hn, useCount] at hcount
  split at hcount
  · cases hcount
  · cases hcount
    exact_mod_cast length_policiesWith_le.trans_lt hfew

/-- The use counts are exact after such a run, whatever the policy types, and no
handler of it misses an access entry. -/
theorem use_counts_exact (timelineId : String) (index : UInt64) (ops : List Op)
    (h : Admits (fun st op => Orderly st op ∧ Timely st op) step (start timelineId index) ops) :
    ∃ st, ops.foldlM step (start timelineId index) = some st ∧
      (st.tasks = [] → UseCountsExact st.rdm) := by
  obtain ⟨st, hrun, hsound⟩ := h.invariant (Sound False)
    (fun st op hs hc => sound_step hs hc.1 hc.2 (fun hfalse => hfalse.elim)) (sound_idle exact_empty)
  exact ⟨st, hrun, fun hidle => useCountsExact_of_exact (hsound.exact hidle)⟩

theorem use_counts_exact_after_flip : Admits (fun st op => Orderly st op ∧ Timely st op) step (start "db" 0) flipRun ∧
    ∃ st, flipRun.foldlM step (start "db" 0) = some st ∧
      (st.tasks = [] → UseCountsExact st.rdm) := by
  have h : Admits (fun st op => Orderly st op ∧ Timely st op) step (start "db" 0) flipRun := by decide
  exact ⟨h, use_counts_exact "db" 0 flipRun h⟩

/-- With the first service of a policy its checks are counted, and the handler
then fails on the missing access entry. -/
theorem missing_entry_dereferenced :
    ∃ ops : List Op, Admits Orderly step (start "db" 0) ops ∧
      (ops.foldlM step (start "db" 0)).isSome = false :=
  ⟨policyRun [] ++ [.receive 5 (link "p" .relatedService "s" true), .proceed, .enableServiceAccessTracking "i",
    .proceed, .proceed], by decide, by decide⟩

end Zt.AccessSections
