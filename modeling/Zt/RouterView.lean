import Mathlib.Data.Set.Basic
import Zt.RouterHandlers

namespace Zt.RouterView

open Tables EdgeCtrl RouterModel RouterHandlers
open Function (update update_apply)

/-- A policy without its name and the indexes that only notifications use. -/
def bare (p : ServicePolicy) : ServicePolicy := { p with name := "", servicesIndex := 0, postureChecksIndex := 0 }

/-- The part of a model that decides access: who is in which policy, what each
policy has, and the policies a service or check knows it is in. -/
@[ext]
structure View where
  identity : Id → Option Membership
  policy : Id → Option ServicePolicy
  service : Id → Option (Set Id)
  check : Id → Option (Set Id)

def view (rdm : RouterDataModel) : View where
  identity i := (rdm.identities.lookup i).map (·.toMembership)
  policy p := (rdm.servicePolicies.lookup p).map bare
  service s := (rdm.services.lookup s).map (fun x => {p | p ∈ x.servicePolicies})
  check c := (rdm.postureChecks.lookup c).map (fun x => {p | p ∈ x.servicePolicies})

namespace View

def empty : View := ⟨fun _ => none, fun _ => none, fun _ => none, fun _ => none⟩

variable (v : View)

def setIdentity (i : Id) (m : Option Membership) : View :=
  { v with identity := update v.identity i m }

def setPolicy (p : Id) (policy : Option ServicePolicy) : View :=
  { v with policy := update v.policy p policy }

def setService (s : Id) (back : Option (Set Id)) : View :=
  { v with service := update v.service s back }

def setCheck (c : Id) (back : Option (Set Id)) : View :=
  { v with check := update v.check c back }

def onMembers (members : IdSet) (f : Membership → Option Membership) : View :=
  { v with identity := fun i => if i ∈ members then (v.identity i).bind f else v.identity i }

theorem onMembers_some {members : IdSet} : v.onMembers members some = v := by
  apply View.ext <;> funext x
  · simp [onMembers]
  · rfl
  · rfl
  · rfl

end View

def toggle (p : Id) (add : Bool) (back : Set Id) : Set Id := if add then insert p back else back \ {p}

theorem toggle_toggle {p : Id} {add : Bool} (back : Set Id) : toggle p add (toggle p add back) = toggle p add back := by
  cases add <;> simp [toggle]

def backLinks (p : Id) (ids : List Id) (add : Bool) (back : Id → Option (Set Id)) : Id → Option (Set Id) :=
  fun x => if x ∈ ids then (back x).map (toggle p add) else back x

theorem view_foldl {A : Type} {f : RouterDataModel → A → RouterDataModel} (hf : ∀ rdm a, view (f rdm a) = view rdm)
    (rdm : RouterDataModel) (as : List A) : view (as.foldl f rdm) = view rdm := by
  induction as generalizing rdm with
  | nil => rfl
  | cons a as ih => rw [List.foldl_cons, ih, hf]

@[simp]
theorem view_notifyIdentities {rdm : RouterDataModel} {ids : List Id} :
    view (notifyIdentities rdm ids) = view rdm := rfl

variable {rdm rdm' rdm₁ : RouterDataModel} {p s : Id} {policy : ServicePolicy} {index : UInt64} {ids : List Id}
  {add : Bool} {action : Action} {configs : IdTable Config} {f : Membership → Option Membership}
  {model : DataStateServicePolicyChange}

theorem view_insert_policy {policy' : ServicePolicy} (h : rdm.servicePolicies.lookup p = some policy)
    (hb : bare policy' = bare policy) :
    view { rdm with servicePolicies := rdm.servicePolicies.insert p policy' } = view rdm := by
  simp [view, map_lookup_insert_same _ _ h hb]

theorem view_notifyServicePolicy {raise : ServicePolicy → ServicePolicy} (hr : ∀ p, bare (raise p) = bare p)
    (rdm : RouterDataModel) (p : Id) : view (notifyServicePolicy rdm p raise) = view rdm := by
  unfold notifyServicePolicy
  split
  · rfl
  · rename_i policy h
    exact view_insert_policy h (hr policy)

@[simp]
theorem view_notifyServicePolicyServiceChange (rdm : RouterDataModel) (p : Id) :
    view (notifyServicePolicyServiceChange index rdm p) = view rdm := by
  apply view_notifyServicePolicy
  intro p
  unfold raiseServicesIndex
  split <;> rfl

@[simp]
theorem view_notifyServicePolicyPostureChecksChange (rdm : RouterDataModel) (p : Id) :
    view (notifyServicePolicyPostureChecksChange index rdm p) = view rdm := by
  apply view_notifyServicePolicy
  intro p
  unfold raisePostureChecksIndex
  split <;> rfl

@[simp]
theorem view_notifyServiceOfConfigChange (rdm : RouterDataModel) (s : Id) :
    view (notifyServiceOfConfigChange index rdm s) = view rdm := by
  unfold notifyServiceOfConfigChange
  split
  · rfl
  · rename_i service h
    rw [view_foldl view_notifyServicePolicyServiceChange]
    split
    · have hsame := map_lookup_insert_same rdm.services (fun x => {p | p ∈ x.servicePolicies}) h
        (show {p | p ∈ ({ service with index := index }).servicePolicies} = _ from rfl)
      simp [view, hsame]
    · rfl

@[simp]
theorem view_notifyConfigUsers {config : Config} : view (notifyConfigUsers index rdm config) = view rdm := by
  rw [notifyConfigUsers, view_notifyIdentities, view_foldl view_notifyServiceOfConfigChange]

theorem view_handleConfigTypeEvent
    {model : DataStateConfigType} : view (handleConfigTypeEvent index rdm action model) = view rdm := by
  unfold handleConfigTypeEvent
  split
  · rfl
  · exact view_foldl (fun rdm c => view_notifyConfigUsers)
      { rdm with configTypes := rdm.configTypes.insert model.id ⟨model.id, model.name, index⟩ } _

theorem view_adjust_identity {i : Id} {f : Identity → Identity} (hf : ∀ x, (f x).toMembership = x.toMembership) :
    view { rdm with identities := adjust rdm.identities i f } = view rdm := by
  simp [view, map_lookup_adjust_same _ _ i hf]

theorem view_handleConfigEvent
    {model : DataStateConfig} : view (handleConfigEvent index rdm action model) = view rdm := by
  unfold handleConfigEvent
  split
  · split
    · rfl
    · rename_i config h
      have hdrop := view_foldl (f := fun rdm i => notifyIdentities
          { rdm with
            identities := adjust rdm.identities i (fun identity =>
              { identity with serviceConfigs := dropConfig config.id identity.serviceConfigs }) } [i])
        (fun rdm i => view_adjust_identity (fun _ => rfl))
        (config.services.keys.foldl (notifyServiceOfConfigChange index) rdm) config.identities.keys
      exact hdrop.trans (view_foldl view_notifyServiceOfConfigChange rdm _)
  · split
    · rfl
    · rename_i valueInMap _
      have hnotify : ∀ result, view (if result.toProtobuf = valueInMap.toProtobuf then rdm
          else notifyConfigUsers index rdm result) = view rdm := by
        intro result
        split
        · rfl
        · exact view_notifyConfigUsers
      exact hnotify ⟨model.id, model.typeId, model.name, model.dataJson, valueInMap.services,
        valueInMap.identities, index⟩

theorem view_setIdentity {model : DataStateIdentity} : view (setIdentity index rdm model) =
    (view rdm).setIdentity model.id (some (((view rdm).identity model.id).getD {})) := by
  unfold setIdentity
  cases h : rdm.identities.lookup model.id <;> simp only [view, map_lookup_insert, h] <;> rfl

theorem view_erase_identity (rdm : RouterDataModel) (i : Id) :
    view { rdm with identities := rdm.identities.erase i } = (view rdm).setIdentity i none := by
  simp [view, View.setIdentity, map_lookup_erase]

theorem view_erase_service :
    view { rdm with configs := configs, services := rdm.services.erase s } = (view rdm).setService s none := by
  simp [view, View.setService, map_lookup_erase]

theorem view_erase_check (rdm : RouterDataModel) (c : Id) :
    view { rdm with postureChecks := rdm.postureChecks.erase c } = (view rdm).setCheck c none := by
  simp [view, View.setCheck, map_lookup_erase]

theorem view_insert_service {service : Service} :
    view { rdm with services := rdm.services.insert s service, configs := configs } =
      (view rdm).setService s (some {p | p ∈ service.servicePolicies}) := by
  simp [view, View.setService, map_lookup_insert]

theorem view_handleServiceEvent_set {model : DataStateService} (ha : action ≠ .delete)
    (h : handleServiceEvent index rdm action model = some rdm') :
    view rdm' = (view rdm).setService model.id (some (((view rdm).service model.id).getD ∅)) := by
  simp only [handleServiceEvent, ha, if_false, Option.some.injEq] at h
  rw [← h, view_foldl view_notifyServicePolicyServiceChange, view_insert_service]
  cases hs : rdm.services.lookup model.id <;> simp [view, hs]

theorem view_handlePostureCheckEvent_set {model : DataStatePostureCheck} (ha : action ≠ .delete)
    (h : handlePostureCheckEvent index rdm action model = some rdm') :
    view rdm' = (view rdm).setCheck model.id (some (((view rdm).check model.id).getD ∅)) := by
  simp only [handlePostureCheckEvent, ha, if_false, Option.some.injEq] at h
  rw [← h, view_foldl view_notifyServicePolicyPostureChecksChange]
  cases hc : rdm.postureChecks.lookup model.id <;> simp [view, View.setCheck, map_lookup_insert, hc]

namespace View

variable (index : UInt64)

def linkIdentity (p : Id) (add : Bool) (v : View) (i : Id) : View :=
  match v.identity i, v.policy p with
  | some m, some policy =>
    let policy := { policy with
      identities := if add then policy.identities.insert i () else policy.identities.erase i }
    (v.setIdentity i (some (if add then m.addedToPolicy policy index else m.removedFromPolicy policy index))).setPolicy
      p (some policy)
  | _, _ => v

def withServices (policy : ServicePolicy) (ids : List Id) (add : Bool) : ServicePolicy :=
  { policy with services := setAll policy.services ids add }

def withChecks (policy : ServicePolicy) (ids : List Id) (add : Bool) : ServicePolicy :=
  { policy with postureChecks := setAll policy.postureChecks ids add }

/-- Whether the checks of a policy start or stop to count with this change. -/
def switches (policy : ServicePolicy) (ids : List Id) (add : Bool) : Bool :=
  let changed := withServices policy ids add
  if add then isEmpty policy.services && !isEmpty changed.services
  else !isEmpty policy.services && isEmpty changed.services

def memberServices (policy : ServicePolicy) (ids : List Id) (add : Bool) (m : Membership) : Option Membership :=
  let changed := withServices policy ids add
  let m := m.servicesChangedInPolicy add policy ids index
  if switches policy ids add then
    m.postureChecksChangedInPolicy add changed changed.postureChecks.keys index
  else some m

def changeServices (p : Id) (ids : List Id) (add : Bool) (v : View) (policy : ServicePolicy) : View :=
  { v.onMembers policy.identities (memberServices index policy ids add) with
    policy := update v.policy p (some (withServices policy ids add))
    service := backLinks policy.id ids add v.service }

def memberChecks (policy : ServicePolicy) (ids : List Id) (add : Bool) (m : Membership) : Option Membership :=
  if isEmpty policy.services then some m else m.postureChecksChangedInPolicy add policy ids index

def changeChecks (p : Id) (ids : List Id) (add : Bool) (v : View) (policy : ServicePolicy) : View :=
  { v.onMembers policy.identities (memberChecks index policy ids add) with
    policy := update v.policy p (some (withChecks policy ids add))
    check := backLinks policy.id ids add v.check }

def change (v : View) (model : DataStateServicePolicyChange) : View :=
  match v.policy model.policyId with
  | none => v
  | some policy =>
    match model.relatedEntityType with
    | .relatedIdentity => model.relatedEntityIds.foldl (linkIdentity index model.policyId model.add) v
    | .relatedService => v.changeServices index model.policyId model.relatedEntityIds model.add policy
    | .relatedPostureCheck => v.changeChecks index model.policyId model.relatedEntityIds model.add policy
    | .invalidRelatedType => v

end View

open View (ext setCheck setPolicy onMembers withServices switches identity memberChecks)

theorem view_linkIdentity {i : Id} :
    view (linkIdentity index p add rdm i) = (view rdm).linkIdentity index p add i := by
  unfold linkIdentity View.linkIdentity
  cases hi : rdm.identities.lookup i with
  | none => simp [view, hi]
  | some identity =>
    cases hp : rdm.servicePolicies.lookup p with
    | none => simp [view, hp]
    | some policy =>
      simp only [view, hi, hp, map_lookup_insert]
      cases add <;> rfl

theorem view_eachIdentity (h : eachIdentity rdm policy f = some rdm') :
    view rdm' = (view rdm).onMembers policy.identities f ∧ rdm'.servicePolicies = rdm.servicePolicies ∧
      rdm'.services = rdm.services ∧ rdm'.postureChecks = rdm.postureChecks := by
  obtain ⟨identities, hids, rfl⟩ := Option.map_eq_some_iff.mp h
  have hlook := lookup_adjustEachM policy.identities.keys_nodup hids
  refine ⟨?_, rfl, rfl, rfl⟩
  apply ext <;> funext x
  · simp only [view, onMembers, hlook, ← AList.mem_keys]
    split
    · cases hx : rdm.identities.lookup x with
      | none => rfl
      | some identity => cases hf : f identity.toMembership <;> simp [hf]
    · rfl
  · rfl
  · rfl
  · rfl

theorem back_linkServices {services : IdTable Service} :
    ((linkServices p ids add services).lookup s).map (fun x => {q | q ∈ x.servicePolicies}) =
      backLinks p ids add (fun s => (services.lookup s).map (fun x => {q | q ∈ x.servicePolicies})) s := by
  refine map_lookup_foldl_adjust (fun x => {q | q ∈ x.servicePolicies}) (toggle p add) ?_
    toggle_toggle services ids s
  intro x
  cases add <;> ext q <;> simp [toggle, and_comm]

theorem back_linkPostureChecks {checks : IdTable PostureCheck} {c : Id} :
    ((linkPostureChecks p ids add checks).lookup c).map (fun x => {q | q ∈ x.servicePolicies}) =
      backLinks p ids add (fun c => (checks.lookup c).map (fun x => {q | q ∈ x.servicePolicies})) c := by
  refine map_lookup_foldl_adjust (fun x => {q | q ∈ x.servicePolicies}) (toggle p add) ?_
    toggle_toggle checks ids c
  intro x
  cases add <;> ext q <;> simp [toggle, and_comm]

def installServices (p : Id) (ids : List Id) (add : Bool) (rdm : RouterDataModel) (policy : ServicePolicy) :
    RouterDataModel :=
  { rdm with
    servicePolicies := rdm.servicePolicies.insert p (withServices policy ids add)
    services := linkServices policy.id ids add rdm.services }

theorem settleServices_eq : settleServices index ids add rdm policy =
    let linked := { rdm with services := linkServices policy.id ids add rdm.services }
    if switches policy ids add then eachIdentity linked (withServices policy ids add) (fun m =>
      m.postureChecksChangedInPolicy add (withServices policy ids add) policy.postureChecks.keys index)
    else some linked := by
  unfold settleServices
  rw [countChecks_eq]
  rfl

theorem changeServices_eq
    (h : eachIdentity rdm policy (fun m => some (m.servicesChangedInPolicy add policy ids index)) = some rdm₁) :
    changeServices index p ids add rdm policy = if switches policy ids add then
        eachIdentity (installServices p ids add rdm₁ policy) (withServices policy ids add) (fun m =>
          m.postureChecksChangedInPolicy add (withServices policy ids add) policy.postureChecks.keys index)
      else some (installServices p ids add rdm₁ policy) := by
  unfold changeServices
  rw [countServices_eq, h]
  exact settleServices_eq

theorem view_installServices
    (h : eachIdentity rdm policy f = some rdm₁) : view (installServices p ids add rdm₁ policy) =
      { (view rdm).onMembers policy.identities f with
        policy := update (view rdm).policy p (some (bare (withServices policy ids add)))
        service := backLinks policy.id ids add (view rdm).service } := by
  obtain ⟨hv, hp, hs, -⟩ := view_eachIdentity h
  apply ext <;> funext x
  · exact congrFun (congrArg identity hv) x
  · simp only [installServices, view, lookup_insert_eq, hp, update_apply]
    split <;> rfl
  · simp only [installServices, hs]
    exact back_linkServices
  · exact congrFun (congrArg View.check hv) x

theorem view_changeServices (h : changeServices index p ids add rdm policy = some rdm') :
    view rdm' = (view rdm).changeServices index p ids add (bare policy) := by
  obtain ⟨rdm₁, h₁, -⟩ := Option.bind_eq_some_iff.mp h
  rw [countServices_eq] at h₁
  have hmid : view (installServices p ids add rdm₁ policy) = _ := view_installServices h₁
  rw [changeServices_eq h₁] at h
  by_cases hsw : switches policy ids add
  · rw [if_pos hsw] at h
    have hsw' : switches (bare policy) ids add = true := hsw
    rw [(view_eachIdentity h).1, hmid]
    apply ext <;> funext x
    · simp only [onMembers, View.changeServices]
      by_cases hx : x ∈ policy.identities
      · have hx' : x ∈ (withServices policy ids add).identities := hx
        have hx'' : x ∈ (bare policy).identities := hx
        simp only [hx, hx', hx'']
        cases (view rdm).identity x with
        | none => rfl
        | some m => simp only [Option.bind_some, View.memberServices, hsw']; rfl
      · have hx' : x ∉ (withServices policy ids add).identities := hx
        have hx'' : x ∉ (bare policy).identities := hx
        simp [hx, hx', hx'']
    · rfl
    · rfl
    · rfl
  · rw [if_neg hsw] at h
    cases h
    have hsw' : ¬ switches (bare policy) ids add = true := hsw
    rw [hmid]
    apply ext <;> funext x
    · simp only [onMembers, View.changeServices]
      by_cases hx : x ∈ policy.identities
      · cases (view rdm).identity x with
        | none => rfl
        | some m => simp only [Option.bind_some, View.memberServices, hsw']; rfl
      · have hx' : x ∉ (bare policy).identities := hx
        simp [hx, hx']
    · rfl
    · rfl
    · rfl

theorem view_changePostureChecks (h : changePostureChecks index p ids add rdm policy = some rdm') :
    view rdm' = (view rdm).changeChecks index p ids add (bare policy) := by
  obtain ⟨rdm₁, h₁, rfl⟩ := Option.map_eq_some_iff.mp h
  have hmid : view rdm₁ = (view rdm).onMembers policy.identities (memberChecks index policy ids add) ∧
      rdm₁.servicePolicies = rdm.servicePolicies ∧ rdm₁.postureChecks = rdm.postureChecks := by
    unfold countPostureChecks at h₁
    rw [countChecks_eq] at h₁
    by_cases he : isEmpty policy.services
    · rw [if_pos he] at h₁
      cases h₁
      have hsome : memberChecks index policy ids add = some := by
        funext m
        simp [memberChecks, he]
      refine ⟨?_, rfl, rfl⟩
      rw [hsome, View.onMembers_some]
    · rw [if_neg he] at h₁
      obtain ⟨hv, hp, -, hc⟩ := view_eachIdentity h₁
      have hcount : memberChecks index policy ids add =
          fun m => m.postureChecksChangedInPolicy add policy ids index := by
        funext m
        simp [memberChecks, he]
      exact ⟨hcount ▸ hv, hp, hc⟩
  obtain ⟨hv₁, hp₁, hc₁⟩ := hmid
  apply ext <;> funext x
  · exact congrFun (congrArg identity hv₁) x
  · simp only [view, View.changeChecks, lookup_insert_eq, hp₁, update_apply]
    split <;> rfl
  · exact congrFun (congrArg View.service hv₁) x
  · simp only [hc₁]
    exact back_linkPostureChecks

theorem view_foldl_linkIdentity :
    view (ids.foldl (linkIdentity index p add) rdm) = ids.foldl (View.linkIdentity index p add) (view rdm) := by
  induction ids generalizing rdm with
  | nil => rfl
  | cons i ids ih => rw [List.foldl_cons, ih, view_linkIdentity, List.foldl_cons]

theorem view_setIndexes (index : UInt64) (rdm : RouterDataModel) (p : Id) (t : RelatedEntityType) :
    view { rdm with servicePolicies := adjust rdm.servicePolicies p (setIndexes index t) } = view rdm := by
  have hsame := map_lookup_adjust_same rdm.servicePolicies bare p (f := setIndexes index t) (fun _ => by cases t <;> rfl)
  simp [view, hsame]

theorem view_finishChange : view (finishChange index model rdm) = view rdm :=
  view_setIndexes index rdm model.policyId model.relatedEntityType

/-- A policy change does to the view what its abstract counterpart does. -/
theorem view_handleServicePolicyChange
    (h : handleServicePolicyChange index rdm model = some rdm') : view rdm' = (view rdm).change index model := by
  unfold handleServicePolicyChange at h
  unfold View.change
  cases hp : rdm.servicePolicies.lookup model.policyId with
  | none =>
    rw [hp] at h
    cases h
    simp [view, hp]
  | some policy =>
    have hbare : (view rdm).policy model.policyId = some (bare policy) := by simp [view, hp]
    rw [hp] at h
    obtain ⟨rdm₁, h₁, rfl⟩ := Option.map_eq_some_iff.mp h
    rw [view_finishChange, hbare]
    unfold changeMembers at h₁
    cases ht : model.relatedEntityType with
    | invalidRelatedType =>
      rw [ht] at h₁
      cases h₁
      rfl
    | relatedService =>
      rw [ht] at h₁
      exact view_changeServices h₁
    | relatedIdentity =>
      rw [ht] at h₁
      cases h₁
      exact view_foldl_linkIdentity
    | relatedPostureCheck =>
      rw [ht] at h₁
      exact view_changePostureChecks h₁

namespace View

def updatePolicy (index : UInt64) (v : View) (model : DataStateServicePolicy) : View :=
  match v.policy model.id with
  | none => v.setPolicy model.id (some { id := model.id, name := "", policyType := model.policyType, servicesIndex := 0 })
  | some old =>
    let new := { old with id := model.id, policyType := model.policyType }
    (if old.policyType = model.policyType then v
      else v.onMembers old.identities
        (fun m => some ((m.removedFromPolicy old index).addedToPolicy new index))).setPolicy model.id (some new)

def deletePolicy (index : UInt64) (v : View) (p : Id) : View :=
  match v.policy p with
  | none => v
  | some old =>
    (v.onMembers old.identities (fun m => some (m.removedFromPolicy old index))).setPolicy p none

def cleanup (v : View) (policyIds : List Id) (relatedEntityType : RelatedEntityType) (id : Id)
    (members : ServicePolicy → IdSet) : List DataStateServicePolicyChange :=
  (policyIds.filter (fun p => (v.policy p).any (fun policy => id ∈ members policy))).map
    (fun p => { policyId := p, relatedEntityIds := [id], relatedEntityType := relatedEntityType, add := false })

end View

theorem view_onMembers_adjustEach {members : IdSet} {f : Membership → Membership} : view { rdm with
    identities := adjustEach rdm.identities members.keys (fun identity =>
      { identity with toMembership := f identity.toMembership }) } =
    (view rdm).onMembers members (fun m => some (f m)) := by
  apply ext <;> funext x
  · simp only [view, onMembers, lookup_adjustEach members.keys_nodup, ← AList.mem_keys]
    split
    · cases rdm.identities.lookup x <;> rfl
    · rfl
  · rfl
  · rfl
  · rfl

theorem view_insert_policies (rdm : RouterDataModel) (p : Id) (policy : ServicePolicy) :
    view { rdm with servicePolicies := rdm.servicePolicies.insert p policy } =
      (view rdm).setPolicy p (some (bare policy)) := by
  simp [view, setPolicy, map_lookup_insert]

theorem view_erase_policy (rdm : RouterDataModel) (subs : Subscribers) (p : Id) :
    view { rdm with subs := subs, servicePolicies := rdm.servicePolicies.erase p } =
      (view rdm).setPolicy p none := by
  simp [view, setPolicy, map_lookup_erase]

theorem view_applyUpdateServicePolicyEvent {model : DataStateServicePolicy} :
    view (applyUpdateServicePolicyEvent index rdm model) = (view rdm).updatePolicy index model := by
  unfold applyUpdateServicePolicyEvent View.updatePolicy
  cases hp : rdm.servicePolicies.lookup model.id with
  | none =>
    have hnone : (view rdm).policy model.id = none := by simp [view, hp]
    rw [hnone]
    exact view_insert_policies rdm model.id _
  | some old =>
    have hsome : (view rdm).policy model.id = some (bare old) := by simp [view, hp]
    rw [hsome]
    by_cases ht : old.policyType = model.policyType
    · have ht' : (bare old).policyType = model.policyType := ht
      simp only [ht, ht']
      exact view_insert_policies rdm model.id _
    · have ht' : ¬ (bare old).policyType = model.policyType := ht
      simp only [ht, ht']
      refine (view_insert_policies { rdm with identities := adjustEach _ _ _ } model.id _).trans ?_
      exact congrArg (setPolicy · model.id _) (view_onMembers_adjustEach (f := fun m =>
        (m.removedFromPolicy old index).addedToPolicy _ index))

theorem view_applyDeleteServicePolicyEvent {model : DataStateServicePolicy} :
    view (applyDeleteServicePolicyEvent index rdm model) = (view rdm).deletePolicy index model.id := by
  unfold applyDeleteServicePolicyEvent View.deletePolicy
  cases hp : rdm.servicePolicies.lookup model.id with
  | none =>
    have hnone : (view rdm).policy model.id = none := by simp [view, hp]
    rw [hnone]
  | some old =>
    have hsome : (view rdm).policy model.id = some (bare old) := by simp [view, hp]
    rw [hsome]
    refine (view_erase_policy { rdm with identities := adjustEach _ _ _ } _ model.id).trans ?_
    exact congrArg (setPolicy · model.id none) (view_onMembers_adjustEach (f := fun m =>
      m.removedFromPolicy old index))

theorem cleanupActions_eq {policyIds : List Id} {t : RelatedEntityType} {id : Id}
    {members : ServicePolicy → IdSet} (hm : ∀ p, members (bare p) = members p) :
    cleanupActions rdm policyIds t id members = (view rdm).cleanup policyIds t id members := by
  unfold cleanupActions View.cleanup
  simp [view, Option.any_map, hm]

end Zt.RouterView
