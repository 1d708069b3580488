import Zt.RebuildStores

namespace Zt.RebuildTracks

open Tables Mirroring RouterSender RouterHandlers RouterGraph RebuildStores SnapshotSync
open EdgeCtrl (Id IdTable Action RelatedEntityType)
open RouterDataModelSender (setOrRemove handle identity)

variable {J : Type} {env : Environment J} {db : Stores J} {s : RouterDataModelSender}

def IdentityShown (env : Environment J) (policies : IdTable LinkedPolicy) (i : Id) (identity : Identity J)
    (o : Option SenderIdentity) : Prop :=
  ∃ m, o = some m ∧ m.toDataStateIdentity = newIdentity env identity ∧
    ∀ p, p ∈ m.servicePolicies ↔ ∃ policy, policies.lookup p = some policy ∧ i ∈ policy.identities

def PolicyShown (policy : LinkedPolicy) (m : SenderServicePolicy) : Prop :=
  m.toDataStateServicePolicy = newServicePolicy policy.toServicePolicy ∧ (∀ i, i ∈ m.services ↔ i ∈ policy.services) ∧
    ∀ i, i ∈ m.postureChecks ↔ i ∈ policy.postureChecks

/-- The entities of the model are those of the stores, with their links. -/
structure Tracks (env : Environment J) (db : Stores J) (s : RouterDataModelSender) : Prop where
  configTypes : Mirrors (fun _ v w => newConfigType v = w) db.configTypes s.configTypes
  configs : Mirrors (fun _ v w => newConfig env v = some w) db.configs s.configs
  identities : Mirrors (IdentityShown env db.servicePolicies) db.identities s.identities
  services : Mirrors (fun _ v w => newService v = w) db.services s.services
  postureChecks : Mirrors (fun _ v w => newPostureCheck v = w) db.postureChecks s.postureChecks
  servicePolicies : Mirrors (fun _ => PolicyShown) db.servicePolicies s.servicePolicies

/-- Entities are stored under their ids, and policies linked to identities that
there are. -/
structure Sound (db : Stores J) : Prop where
  configTypes : KeyedBy ConfigType.id db.configTypes
  configs : KeyedBy Config.id db.configs
  identities : KeyedBy Identity.id db.identities
  services : KeyedBy EdgeService.id db.services
  postureChecks : KeyedBy PostureCheck.id db.postureChecks
  servicePolicies : KeyedBy (fun policy : LinkedPolicy => policy.id) db.servicePolicies
  controllers : KeyedBy Controller.id db.controllers
  cas : KeyedBy Ca.id db.cas
  linked : ∀ p policy i, db.servicePolicies.lookup p = some policy → i ∈ policy.identities → i ∈ db.identities

variable {w : EdgeCtrl.DataStateConfig}

theorem newConfig_id {config : Config J} (h : newConfig env config = some w) : w.id = config.id := by
  obtain ⟨-, -, rfl⟩ := Option.map_eq_some_iff.mp h
  rfl

theorem Mirrors.write {V W : Type} {R : Id → V → W → Prop} {key : V → Id} {t t' : IdTable V} {m : IdTable W} {v : V}
    {c : Change Id V} (h : Mirrors R t m) (hk : KeyedBy key t) (hc : c.apply key t = some (t', v)) {w : W}
    (hw : c.isDelete = false → R (key v) v w) : Mirrors R t' (setOrRemove m (actionOf c) (key v) w) := by
  rcases apply_cases hk hc with ⟨rfl | rfl, rfl⟩ | ⟨rfl, -, rfl⟩
  · exact h.set (hw rfl)
  · exact h.set (hw rfl)
  · exact h.remove (key v)

theorem tracks_configType (h : Tracks env db s) (hs : Sound db) {c : Change Id ConfigType} {t : IdTable ConfigType}
    {v : ConfigType} (hc : c.apply ConfigType.id db.configTypes = some (t, v)) :
    Tracks env { db with configTypes := t } (s.handle (handleConfigType (actionOf c) v)) :=
  { h with configTypes := Mirrors.write h.configTypes hs.configTypes hc (fun _ => rfl) }

theorem tracks_config (h : Tracks env db s) (hs : Sound db) {c : Change Id (Config J)} {t : IdTable (Config J)}
    {v : Config J} (hc : c.apply Config.id db.configs = some (t, v)) (hw : newConfig env v = some w) :
    Tracks env { db with configs := t } (s.handle { action := actionOf c, model := .config w }) := by
  have hid := newConfig_id hw
  refine { h with configs := ?_ }
  have hwrite := Mirrors.write h.configs hs.configs hc (fun _ => hw)
  rw [← hid] at hwrite
  exact hwrite

variable {t : RelatedEntityType} {action : Action} {p : Id} {ids : List Id} {policy policy' : LinkedPolicy}
  {add : Bool} {v : EdgeService}

theorem actionOf_of_written {V : Type} {c : Change Id V} {v : V} (h : c = .create v ∨ c = .update v) :
    actionOf c ≠ .delete := by
  rcases h with rfl | rfl <;> intro hdelete <;> cases hdelete

section

variable (h : Tracks env db s)
include h

theorem tracks_service (ha : action ≠ .delete) :
    Tracks env { db with services := db.services.insert v.id v } (s.handle (handleService action v)) := by
  show Tracks env _ (s.handleServiceEvent action (newService v))
  rw [RouterDataModelSender.handleServiceEvent, setOrRemove, if_neg ha, if_neg ha]
  exact { h with services := h.services.set rfl }

theorem tracks_postureCheck {v : PostureCheck} (ha : action ≠ .delete) :
    Tracks env { db with postureChecks := db.postureChecks.insert v.id v } (s.handle (handlePostureCheck action v)) := by
  show Tracks env _ { s with postureChecks := setOrRemove s.postureChecks action v.id _ }
  rw [setOrRemove, if_neg ha]
  exact { h with postureChecks := h.postureChecks.set rfl }

theorem tracks_services (vs : List EdgeService) :
    Tracks env { db with services := vs.foldl (fun services v => services.insert v.id v) db.services }
      ((vs.map (handleService .update)).foldl handle s) := by
  induction vs generalizing db s with
  | nil => exact h
  | cons v vs ih => exact ih (tracks_service h (by decide))

/-- The links of an identity are those of the policies, and stay with a new
version of it. -/
theorem tracks_identity {v : Identity J}
    (hlinked : ∀ p policy, db.servicePolicies.lookup p = some policy → v.id ∈ policy.identities → v.id ∈ db.identities)
    (ha : action ≠ .delete) :
    Tracks env { db with identities := db.identities.insert v.id v } (s.handle (handleIdentity env action v)) := by
  have hhandle : s.handle (handleIdentity env action v) =
      { s with
        identities := s.identities.insert v.id (some { newIdentity env v with
          servicePolicies := ((s.identity v.id).map (·.servicePolicies)).getD ∅ }) } := by
    cases action with
    | delete => exact absurd rfl ha
    | _ => rfl
  rw [hhandle]
  refine { h with identities := h.identities.set ⟨_, rfl, rfl, fun p => ?_⟩ }
  cases hv : db.identities.lookup v.id with
  | none =>
    have hnone : s.identity v.id = none := by
      rw [identity, h.identities.lookup_none hv]
      rfl
    rw [hnone]
    constructor
    · intro hp
      exact absurd hp (AList.notMem_empty p)
    · rintro ⟨policy, hp, hi⟩
      exact absurd (hlinked p policy hp hi) (AList.lookup_eq_none.mp hv)
  | some x =>
    obtain ⟨o, ho, m, rfl, -, hm⟩ := h.identities.lookup hv
    rw [identity_eq_some.mpr ho]
    exact hm p

omit h in
theorem mem_identities_drop {policies : IdTable LinkedPolicy} {id i : Id} (h : ¬ (t = .relatedIdentity ∧ i = id)) :
    (∃ policy, (dropLinks policies t id).lookup p = some policy ∧ i ∈ policy.identities) ↔
      ∃ policy, policies.lookup p = some policy ∧ i ∈ policy.identities := by
  have hsame : ∀ policy : LinkedPolicy, i ∈ (policy.setLink t id false).identities ↔ i ∈ policy.identities := by
    intro policy
    cases t with
    | relatedIdentity =>
      have hne : i ≠ id := fun hi => h ⟨rfl, hi⟩
      simp [LinkedPolicy.setLink, hne]
    | _ => rfl
  rw [dropLinks, lookup_adjustEach_keys]
  cases policies.lookup p with
  | none => simp
  | some policy => simp [hsame policy]

theorem tracks_identityDelete {v : Identity J} : Tracks env { db with
    identities := db.identities.erase v.id
    servicePolicies := dropLinks db.servicePolicies .relatedIdentity v.id }
    (s.handle (handleIdentity env .delete v)) := by
  refine { h with identities := ?_, servicePolicies := ?_ }
  · apply (h.identities.remove v.id).weaken
    rintro i x o hi ⟨m, rfl, hm, hp⟩
    have hne : i ≠ v.id := by
      rintro rfl
      rw [AList.lookup_erase] at hi
      cases hi
    exact ⟨m, rfl, hm, fun p => (hp p).trans (mem_identities_drop (fun hi => hne hi.2)).symm⟩
  · apply h.servicePolicies.map (lookup_adjustEach_keys _ _)
      (fun p => (congrFun Option.map_id (s.servicePolicies.lookup p)).symm)
    intro p policy m _ hm
    exact hm

omit h in
theorem erase_absent {V : Type} {t : IdTable V} {k : Id} (h : k ∉ t) : t.erase k = t := by
  apply AList.ext
  exact List.kerase_of_notMem_keys h

theorem tracks_serviceDelete
    (hfree : ∀ i x, db.identities.lookup i = some x → v.id ∉ x.serviceConfigs) : Tracks env { db with
        services := db.services.erase v.id
        identities := adjustEach db.identities db.identities.keys (fun identity =>
          { identity with serviceConfigs := identity.serviceConfigs.erase v.id })
        servicePolicies := dropLinks db.servicePolicies .relatedService v.id }
      (s.handle (handleService .delete v)) := by
  refine { h with identities := ?_, services := h.services.remove v.id, servicePolicies := ?_ }
  · apply h.identities.map (lookup_adjustEach_keys _ _)
      (fun i => (congrFun Option.map_id (s.identities.lookup i)).symm)
    rintro i x o hi ⟨m, rfl, hm, hp⟩
    rw [erase_absent (hfree i x hi)]
    exact ⟨m, rfl, hm, fun p => (hp p).trans (mem_identities_drop (fun hi => by cases hi.1)).symm⟩
  · apply h.servicePolicies.map (lookup_adjustEach_keys _ _) (lookup_adjustEach_keys _ _)
    rintro p policy m - ⟨hm, hsvcs, hchecks⟩
    refine ⟨hm, fun i => ?_, hchecks⟩
    simp [LinkedPolicy.setLink, hsvcs, newService]

theorem tracks_postureCheckDelete {v : PostureCheck}
    (hfree : ∀ p policy, db.servicePolicies.lookup p = some policy → v.id ∉ policy.postureChecks) :
    Tracks env { db with
        postureChecks := db.postureChecks.erase v.id
        servicePolicies := dropLinks db.servicePolicies .relatedPostureCheck v.id }
      (s.handle (handlePostureCheck .delete v)) := by
  refine { h with identities := ?_, postureChecks := h.postureChecks.remove v.id, servicePolicies := ?_ }
  · apply h.identities.weaken
    rintro i x o - ⟨m, rfl, hm, hp⟩
    exact ⟨m, rfl, hm, fun p => (hp p).trans (mem_identities_drop (fun hi => by cases hi.1)).symm⟩
  · apply h.servicePolicies.map (lookup_adjustEach_keys _ _)
      (fun p => (congrFun Option.map_id (s.servicePolicies.lookup p)).symm)
    rintro p policy m hp ⟨hm, hsvcs, hchecks⟩
    refine ⟨hm, hsvcs, fun i => (hchecks i).trans ?_⟩
    simp only [LinkedPolicy.setLink, Bool.false_eq_true, if_false, AList.mem_erase]
    refine ⟨fun hi => ⟨?_, hi⟩, And.right⟩
    rintro rfl
    exact hfree p policy hp hi

theorem tracks_congr {db' : Stores J} (htypes : ∀ k, db'.configTypes.lookup k = db.configTypes.lookup k)
    (hconfs : ∀ k, db'.configs.lookup k = db.configs.lookup k)
    (hidents : ∀ k, db'.identities.lookup k = db.identities.lookup k)
    (hsvcs : ∀ k, db'.services.lookup k = db.services.lookup k)
    (hchecks : ∀ k, db'.postureChecks.lookup k = db.postureChecks.lookup k)
    (hpols : ∀ k, db'.servicePolicies.lookup k = db.servicePolicies.lookup k) : Tracks env db' s where
  configTypes := h.configTypes.congr htypes
  configs := h.configs.congr hconfs
  identities := by
    apply (h.identities.congr hidents).weaken
    rintro i x o - ⟨m, rfl, hm, hp⟩
    refine ⟨m, rfl, hm, fun p => ?_⟩
    rw [hpols]
    exact hp p
  services := h.services.congr hsvcs
  postureChecks := h.postureChecks.congr hchecks
  servicePolicies := h.servicePolicies.congr hpols

/-- A policy that is new has no links; another one keeps those it has. -/
theorem tracks_servicePolicy (ha : action ≠ .delete) {policy : ServicePolicy}
    {linked : LinkedPolicy} (hpol : linked.toServicePolicy = policy)
    (hlinked : ∀ t id, id ∈ linked.linked t ↔
      ∃ current, db.servicePolicies.lookup policy.id = some current ∧ id ∈ current.linked t) :
    Tracks env { db with servicePolicies := db.servicePolicies.insert policy.id linked }
      (s.handle (handleServicePolicy action policy)) := by
  have hhandle : s.handle (handleServicePolicy action policy) =
      s.applyUpdateServicePolicyEvent (newServicePolicy policy) := by
    cases action with
    | delete => exact absurd rfl ha
    | _ => rfl
  rw [hhandle]
  refine { h with identities := ?_, servicePolicies := h.servicePolicies.set ?_ }
  · apply h.identities.weaken
    rintro i x o - ⟨m, rfl, hm, hp⟩
    refine ⟨m, rfl, hm, fun p => (hp p).trans ?_⟩
    rw [lookup_insert_eq]
    split
    · rename_i hpid
      subst hpid
      simp only [Option.some.injEq, exists_eq_left']
      exact (hlinked .relatedIdentity i).symm
    · rfl
  · have hsvcs := hlinked .relatedService
    have hchecks := hlinked .relatedPostureCheck
    simp only [LinkedPolicy.linked] at hsvcs hchecks
    dsimp only [newServicePolicy]
    cases hcur : db.servicePolicies.lookup policy.id with
    | none =>
      rw [h.servicePolicies.lookup_none hcur]
      rw [hcur] at hsvcs hchecks
      refine ⟨by rw [hpol]; rfl, fun i => ?_, fun i => ?_⟩
      · rw [hsvcs]
        simp
      · rw [hchecks]
        simp
    | some current =>
      obtain ⟨m, hm, -, hms, hmc⟩ := h.servicePolicies.lookup hcur
      rw [hm]
      rw [hcur] at hsvcs hchecks
      refine ⟨by rw [hpol]; rfl, fun i => ?_, fun i => ?_⟩
      · rw [hsvcs]
        simpa using hms i
      · rw [hchecks]
        simpa using hmc i

end

/-- The same policy with some entities of one kind linked or unlinked. -/
structure Relinked (t : RelatedEntityType) (ids : List Id) (add : Bool) (policy policy' : LinkedPolicy) : Prop where
  same : policy'.toServicePolicy = policy.toServicePolicy
  linked : ∀ id, id ∈ policy'.linked t ↔
    (id ∈ ids ∧ add = true) ∨ (id ∈ policy.linked t ∧ ¬ (id ∈ ids ∧ add = false))
  others : ∀ t', t' ≠ t → ∀ id, id ∈ policy'.linked t' ↔ id ∈ policy.linked t'

theorem relinked_setLink (policy : LinkedPolicy) (ht : t ≠ .invalidRelatedType) (id : Id) (add : Bool) :
    Relinked t [id] add policy (policy.setLink t id add) where
  same := by cases t <;> rfl
  linked := fun i => by
    cases t with
    | invalidRelatedType => exact absurd rfl ht
    | _ => cases add <;> simp [LinkedPolicy.setLink, LinkedPolicy.linked, and_comm]
  others := fun t' ht' i => by
    cases t <;> cases t' <;> first | rfl | exact absurd rfl ht'

theorem lookup_linkIdentities (p : Id) (add : Bool) (hn : ids.Nodup) (s : RouterDataModelSender) (i : Id) :
    (ids.foldl (RouterDataModelSender.linkIdentity p add) s).identities.lookup i =
      if i ∈ ids then some ((s.identity i).map (fun x => { x with
          servicePolicies := if add then x.servicePolicies.insert p () else x.servicePolicies.erase p }))
      else s.identities.lookup i := by
  induction ids generalizing s with
  | nil => simp
  | cons j ids ih =>
    obtain ⟨hj, hn'⟩ := List.nodup_cons.mp hn
    rw [List.foldl_cons, ih hn', RouterDataModelSender.linkIdentity, identity_insert]
    by_cases hij : i = j
    · subst hij
      simp [hj]
    · simp [hij]

theorem linkIdentities_frame (p : Id) (add : Bool) (ids : List Id) (s : RouterDataModelSender) :
    ∃ identities, ids.foldl (RouterDataModelSender.linkIdentity p add) s = { s with identities := identities } := by
  induction ids generalizing s with
  | nil => exact ⟨s.identities, rfl⟩
  | cons i ids ih =>
    obtain ⟨identities, h⟩ := ih (s.linkIdentity p add i)
    exact ⟨identities, h⟩

section

variable (h : Tracks env db s) (hp : db.servicePolicies.lookup p = some policy)
include h hp

theorem tracks_change_identities
    (hr : Relinked .relatedIdentity ids add policy policy') (hn : ids.Nodup) (hids : ∀ i ∈ ids, i ∈ db.identities) :
    Tracks env { db with servicePolicies := db.servicePolicies.insert p policy' }
      (ids.foldl (RouterDataModelSender.linkIdentity p add) s) := by
  have hlook := lookup_linkIdentities p add hn s
  obtain ⟨identities, hframe⟩ := linkIdentities_frame p add ids s
  rw [hframe] at hlook ⊢
  have hlinked : ∀ i q, (∃ x, (db.servicePolicies.insert p policy').lookup q = some x ∧ i ∈ x.identities) ↔
      if q = p then (i ∈ ids ∧ add = true) ∨ (i ∈ policy.identities ∧ ¬ (i ∈ ids ∧ add = false))
      else ∃ x, db.servicePolicies.lookup q = some x ∧ i ∈ x.identities := by
    intro i q
    rw [lookup_insert_eq]
    split
    · simp only [Option.some.injEq, exists_eq_left']
      exact hr.linked i
    · rfl
  refine { h with identities := fun i => ?_, servicePolicies := ?_ }
  · rw [hlook i]
    cases hv : db.identities.lookup i with
    | none =>
      have hi : i ∉ ids := fun hi => AList.lookup_eq_none.mp hv (hids i hi)
      rw [if_neg hi, h.identities.lookup_none hv]
      exact Option.Rel.none
    | some x =>
      obtain ⟨o, ho, m, rfl, hm, hmem⟩ := h.identities.lookup hv
      have hpm : p ∈ m.servicePolicies ↔ i ∈ policy.identities := by
        rw [hmem p, hp]
        simp
      split
      · rename_i hi
        rw [identity_eq_some.mpr ho]
        refine Option.Rel.some ⟨_, rfl, hm, fun q => ?_⟩
        rw [hlinked i q]
        by_cases hq : q = p
        · subst hq
          cases add <;> simp [hi]
        · cases add <;> simp [hq, hmem]
      · rename_i hi
        rw [ho]
        refine Option.Rel.some ⟨m, rfl, hm, fun q => ?_⟩
        rw [hlinked i q]
        by_cases hq : q = p
        · subst hq
          simp [hi, hpm]
        · simp [hq, hmem]
  · obtain ⟨m, hm, hdata, hsvcs, hchecks⟩ := h.servicePolicies.lookup hp
    apply h.servicePolicies.set_left hm
    refine ⟨?_, fun i => ?_, fun i => ?_⟩
    · rw [hr.same]
      exact hdata
    · exact (hsvcs i).trans (hr.others .relatedService (by decide) i).symm
    · exact (hchecks i).trans (hr.others .relatedPostureCheck (by decide) i).symm

theorem tracks_change_members (hr : Relinked t ids add policy policy') (ht : t ≠ .relatedIdentity)
    {m' : SenderServicePolicy → SenderServicePolicy} (hm' : ∀ m, PolicyShown policy m → PolicyShown policy' (m' m)) :
    Tracks env { db with servicePolicies := db.servicePolicies.insert p policy' }
      { s with servicePolicies := adjust s.servicePolicies p m' } := by
  obtain ⟨m, hm, hshown⟩ := h.servicePolicies.lookup hp
  refine { h with identities := ?_, servicePolicies := ?_ }
  · apply h.identities.weaken
    rintro i x o - ⟨m, rfl, hdata, hmem⟩
    refine ⟨m, rfl, hdata, fun q => (hmem q).trans ?_⟩
    rw [lookup_insert_eq]
    split
    · rename_i hq
      subst hq
      simp only [hp, Option.some.injEq, exists_eq_left']
      exact (hr.others .relatedIdentity (symm ht) i).symm
    · rfl
  · intro q
    rw [lookup_insert_eq, lookup_adjust]
    split
    · rename_i hq
      subst hq
      rw [hm]
      exact Option.Rel.some (hm' m hshown)
    · exact h.servicePolicies q

theorem tracks_change (hr : Relinked t ids add policy policy') (ht : t ≠ .invalidRelatedType) (hn : ids.Nodup)
    (hids : t = .relatedIdentity → ∀ i ∈ ids, i ∈ db.identities) :
    Tracks env { db with servicePolicies := db.servicePolicies.insert p policy' }
      (s.handle { model := .servicePolicyChange ⟨p, ids, t, add⟩ }) := by
  cases t with
  | invalidRelatedType => exact absurd rfl ht
  | relatedIdentity => exact tracks_change_identities h hp hr hn (hids rfl)
  | relatedService =>
    apply tracks_change_members h hp hr (by decide)
    rintro m ⟨hdata, hsvcs, hchecks⟩
    refine ⟨?_, fun i => ?_, fun i => ?_⟩
    · rw [hr.same]
      exact hdata
    · rw [mem_setAll, hsvcs]
      exact (hr.linked i).symm
    · exact (hchecks i).trans (hr.others .relatedPostureCheck (by decide) i).symm
  | relatedPostureCheck =>
    apply tracks_change_members h hp hr (by decide)
    rintro m ⟨hdata, hsvcs, hchecks⟩
    refine ⟨?_, fun i => ?_, fun i => ?_⟩
    · rw [hr.same]
      exact hdata
    · exact (hsvcs i).trans (hr.others .relatedService (by decide) i).symm
    · rw [mem_setAll, hchecks]
      exact (hr.linked i).symm

end

end Zt.RebuildTracks
