import Zt.RebuildTracks

namespace Zt.RebuildModel

open Tables Mirroring RouterSender RebuildStores RebuildTracks
open EdgeCtrl (Id IdTable Event EventModel Action RelatedEntityType)
open RouterDataModelSender (handle)
open AList (lookup_insert mem_keys)
open Mirrors (empty)
open LinkedPolicy (linked)

variable {J V : Type} {env : Environment J} {db : Stores J} {s : RouterDataModelSender} {t : RelatedEntityType}
  {policy : LinkedPolicy}

theorem Relinked.nil (t : RelatedEntityType) (add : Bool) (policy : LinkedPolicy) : Relinked t [] add policy policy where
  same := rfl
  linked := fun id => by simp
  others := fun _ _ _ => Iff.rfl

theorem Relinked.cons {i : Id} {ids : List Id} {a b c : LinkedPolicy}
    (h : Relinked t [i] false a b) (h' : Relinked t ids false b c) : Relinked t (i :: ids) false a c where
  same := h'.same.trans h.same
  linked := fun id => by
    rw [h'.linked, h.linked]
    simp [and_assoc]
  others := fun t' ht id => (h'.others t' ht id).trans (h.others t' ht id)

theorem tracks_insert_same (h : Tracks env db s) {p : Id} (hp : db.servicePolicies.lookup p = some policy) :
    Tracks env { db with servicePolicies := db.servicePolicies.insert p policy } s := by
  refine tracks_congr h (fun _ => rfl) (fun _ => rfl) (fun _ => rfl) (fun _ => rfl) (fun _ => rfl) (fun k => ?_)
  rw [lookup_insert_eq]
  split
  · rename_i hk
    rw [hk, hp]
  · rfl

theorem tracks_unlink (h : Tracks env db s) {p : Id} (hp : db.servicePolicies.lookup p = some policy)
    (ht : t ≠ .invalidRelatedType) (ids : List Id) (hids : t = .relatedIdentity → ∀ i ∈ ids, i ∈ db.identities) :
    ∃ policy', Relinked t ids false policy policy' ∧
      Tracks env { db with servicePolicies := db.servicePolicies.insert p policy' }
        ((ids.map (fun id => handleServicePolicyChange t p id false)).foldl handle s) := by
  induction ids generalizing db s policy with
  | nil => exact ⟨policy, Relinked.nil t false policy, tracks_insert_same h hp⟩
  | cons i ids ih =>
    have hone := relinked_setLink policy ht i false
    have hstep := tracks_change h hp hone ht (List.nodup_singleton i) (fun hid j hj => by
      rw [List.mem_singleton.mp hj]
      exact hids hid i List.mem_cons_self)
    obtain ⟨policy', hrest, htracks⟩ := ih hstep (lookup_insert _)
      (fun hid j hj => hids hid j (List.mem_cons_of_mem _ hj))
    rw [AList.insert_insert] at htracks
    exact ⟨policy', Relinked.cons hone hrest, htracks⟩

theorem tracks_erasePolicy (h : Tracks env db s) (hp : db.servicePolicies.lookup policy.id = some policy)
    (hfree : ∀ i, i ∉ policy.identities) :
    Tracks env { db with servicePolicies := db.servicePolicies.erase policy.id }
      (s.handle (handleServicePolicy .delete policy.toServicePolicy)) := by
  refine { h with identities := ?_, servicePolicies := h.servicePolicies.remove policy.id }
  apply h.identities.weaken
  rintro i x o - ⟨m, rfl, hm, hmem⟩
  refine ⟨m, rfl, hm, fun p => (hmem p).trans ?_⟩
  rw [lookup_erase_eq]
  split
  · rename_i hpid
    rw [hpid, hp]
    simp [hfree i]
  · rfl

theorem tracks_deletePolicy (h : Tracks env db s) (hs : Sound db) {id : Id}
    (hp : db.servicePolicies.lookup id = some policy) :
    Tracks env { db with servicePolicies := db.servicePolicies.erase id }
      ((unlinkEvents policy ++ [handleServicePolicy .delete policy.toServicePolicy]).foldl
        handle s) := by
  have hid : policy.id = id := hs.servicePolicies id policy hp
  subst hid
  obtain ⟨p₁, hr₁, h₁⟩ := tracks_unlink h hp (t := .relatedIdentity) (by decide) policy.identities.keys
    (fun _ i hi => hs.linked policy.id policy i hp (mem_keys.mpr hi))
  obtain ⟨p₂, hr₂, h₂⟩ := tracks_unlink h₁ (lookup_insert _) (t := .relatedService) (by decide)
    policy.services.keys (fun ht => by cases ht)
  obtain ⟨p₃, hr₃, h₃⟩ := tracks_unlink h₂ (lookup_insert _) (t := .relatedPostureCheck) (by decide)
    policy.postureChecks.keys (fun ht => by cases ht)
  have hid₃ : p₃.toServicePolicy = policy.toServicePolicy := (hr₃.same.trans hr₂.same).trans hr₁.same
  have hfree : ∀ i, i ∉ p₃.identities := by
    intro i hi
    have h₂i := (hr₃.others .relatedIdentity (by decide) i).mp hi
    have h₁i := (hr₂.others .relatedIdentity (by decide) i).mp h₂i
    rcases (hr₁.linked i).mp h₁i with ⟨-, hfalse⟩ | ⟨hmem, hnot⟩
    · cases hfalse
    · exact hnot ⟨mem_keys.mp hmem, rfl⟩
  have hlook : (((db.servicePolicies.insert policy.id p₁).insert policy.id p₂).insert policy.id p₃).lookup p₃.id =
      some p₃ := by
    rw [hid₃]
    exact lookup_insert _
  have hdelete := tracks_erasePolicy h₃ hlook hfree
  rw [hid₃] at hdelete
  simp only [unlinkEvents, List.flatMap_cons, List.foldl_append]
  refine tracks_congr hdelete (fun _ => rfl) (fun _ => rfl) (fun _ => rfl) (fun _ => rfl) (fun _ => rfl) (fun k => ?_)
  simp only [lookup_erase_eq, lookup_insert_eq]
  split <;> rfl

theorem tracks_empty (env : Environment J) (timelineId : String) : Tracks env {} { timelineId := timelineId } where
  configTypes := empty
  configs := empty
  identities := empty
  services := empty
  postureChecks := empty
  servicePolicies := empty

theorem tracks_foldl (put : IdTable V → Stores J) (key : V → Id) (events : V → List Event) (ok : IdTable V → V → Prop)
    (hstep : ∀ t s v, ok t v → Tracks env (put t) s →
      Tracks env (put (t.insert (key v) v)) ((events v).foldl handle s))
    (hok : ∀ t v w, key v ≠ key w → ok t w → ok (t.insert (key v) v) w) (vs : List V) (hn : (vs.map key).Nodup)
    (t : IdTable V) (hvs : ∀ v ∈ vs, ok t v) (h : Tracks env (put t) s) :
    Tracks env (put (vs.foldl (fun t v => t.insert (key v) v) t)) ((vs.flatMap events).foldl handle s) := by
  induction vs generalizing s t with
  | nil => exact h
  | cons v vs ih =>
    obtain ⟨hv, hn'⟩ := List.nodup_cons.mp hn
    rw [List.flatMap_cons, List.foldl_append]
    refine ih hn' _ (fun w hw => ?_) (hstep t s v (hvs v List.mem_cons_self) h)
    refine hok t v w (fun heq => hv ?_) (hvs w (List.mem_cons_of_mem _ hw))
    rw [heq]
    exact List.mem_map_of_mem hw

theorem flatMap_toList {W : Type} {f : V → Option W} {vs : List V} {ws : List W} (h : vs.mapM f = some ws) :
    ws = vs.flatMap (fun v => (f v).toList) := by
  induction vs generalizing ws with
  | nil =>
    cases h
    rfl
  | cons v vs ih =>
    simp only [List.mapM_cons, Option.bind_eq_bind, Option.bind_eq_some_iff] at h
    obtain ⟨w, hw, ws', hws, hret⟩ := h
    cases hret
    rw [List.flatMap_cons, hw, ih hws]
    rfl

theorem mapM_each {W : Type} {f : V → Option W} {vs : List V} {ws : List W} (h : vs.mapM f = some ws) :
    ∀ v ∈ vs, ∃ w, f v = some w := by
  induction vs generalizing ws with
  | nil => exact fun v hv => by cases hv
  | cons v vs ih =>
    simp only [List.mapM_cons, Option.bind_eq_bind, Option.bind_eq_some_iff] at h
    obtain ⟨w, hw, ws', hws, -⟩ := h
    intro u hu
    rcases List.mem_cons.mp hu with rfl | hu'
    · exact ⟨w, hw⟩
    · exact ih hws u hu'

theorem nodup_rows {key : V → Id} {t : IdTable V} (h : KeyedBy key t) : ((rows t).map key).Nodup := by
  rw [keys_rows h]
  exact (List.perm_insertionSort (· ≤ ·) t.keys).nodup_iff.mpr t.keys_nodup

/-- The stores that the builder has gone through when it reads the rows in
order. -/
theorem lookup_refill {key : V → Id} {t : IdTable V} (h : KeyedBy key t) (k : Id) :
    ((rows t).foldl (fun t v => t.insert (key v) v) (∅ : IdTable V)).lookup k = t.lookup k := by
  rw [lookup_foldl_insert, Option.map_id', find_rows h, AList.lookup_empty, Option.or_none]

theorem createAll_eq (t : IdTable V) (model : V → EventModel) :
    createAll t model = (rows t).flatMap (fun v => [{ action := .create, model := model v }]) := by
  rw [createAll, List.map_eq_flatMap]

theorem tracks_buildPolicy (h : Tracks env db s) (hnew : policy.id ∉ db.servicePolicies)
    (hlinked : ∀ i ∈ policy.identities, i ∈ db.identities) :
    Tracks env { db with servicePolicies := db.servicePolicies.insert policy.id policy }
      ([handleServicePolicy .create policy.toServicePolicy, associatedIds policy .relatedService,
        associatedIds policy .relatedIdentity, associatedIds policy .relatedPostureCheck].foldl
        handle s) := by
  let bare : LinkedPolicy := { policy.toServicePolicy with }
  let withServices : LinkedPolicy := { bare with services := policy.services }
  let withIdentities : LinkedPolicy := { withServices with identities := policy.identities }
  have hr₁ : Relinked .relatedService policy.services.keys true bare withServices :=
    ⟨rfl, fun id => by simp [withServices, bare, linked, mem_keys], fun t ht id => by
      cases t <;> first | rfl | exact absurd rfl ht⟩
  have hr₂ : Relinked .relatedIdentity policy.identities.keys true withServices withIdentities :=
    ⟨rfl, fun id => by simp [withIdentities, withServices, bare, linked, mem_keys],
      fun t ht id => by cases t <;> first | rfl | exact absurd rfl ht⟩
  have hr₃ : Relinked .relatedPostureCheck policy.postureChecks.keys true withIdentities policy :=
    ⟨rfl, fun id => by simp [withIdentities, withServices, bare, linked, mem_keys],
      fun t ht id => by cases t <;> first | rfl | exact absurd rfl ht⟩
  have hbare : Tracks env { db with servicePolicies := db.servicePolicies.insert policy.id bare }
      (s.handle (handleServicePolicy .create policy.toServicePolicy)) := by
    refine tracks_servicePolicy h (by decide) (show bare.toServicePolicy = _ from rfl) ?_
    intro t id
    rw [AList.lookup_eq_none.mpr hnew]
    cases t <;> simp [bare, linked]
  have hsvcs := tracks_change hbare (lookup_insert _) hr₁ (by decide) policy.services.keys_nodup
    (fun ht => by cases ht)
  have hidents := tracks_change hsvcs (lookup_insert _) hr₂ (by decide) policy.identities.keys_nodup
    (fun _ i hi => hlinked i (mem_keys.mpr hi))
  have hchecks := tracks_change hidents (lookup_insert _) hr₃ (by decide) policy.postureChecks.keys_nodup
    (fun ht => by cases ht)
  simp only [AList.insert_insert] at hchecks
  exact hchecks

theorem buildConfigs_eq {events : List Event} (h : buildConfigs env db = some events) :
    (∀ v ∈ rows db.configs, ∃ w, newConfig env v = some w) ∧ events = (rows db.configs).flatMap (fun v =>
        ((newConfig env v).map (fun config =>
          { action := .create, model := .config config })).toList) := by
  refine ⟨fun v hv => ?_, flatMap_toList h⟩
  obtain ⟨event, hevent⟩ := mapM_each h v hv
  obtain ⟨w, hw, -⟩ := Option.map_eq_some_iff.mp hevent
  exact ⟨w, hw⟩

/-- The builder goes through the stores table by table, and the model tracks
the part it has seen. -/
theorem tracks_build (hs : Sound db) {configs : List Event} (hc : buildConfigs env db = some configs)
    {timelineId : String} :
    Tracks env db ((buildConfigTypes db ++ configs ++ buildIdentities env db ++ buildServices db ++
      buildPostureChecks db ++ buildServicePolicies db).foldl handle { timelineId := timelineId }) := by
  have hcreate : Action.create ≠ .delete := by decide
  obtain ⟨hdefined, rfl⟩ := buildConfigs_eq hc
  simp only [buildConfigTypes, buildIdentities, buildServices, buildPostureChecks, createAll_eq, List.foldl_append]
  have h₁ := tracks_foldl (fun t => { configTypes := t }) ConfigType.id
    (fun v => [{ action := .create, model := .configType (newConfigType v) }]) (fun _ _ => True)
    (fun t s v _ h => { h with configTypes := h.configTypes.set rfl }) (fun _ _ _ _ h => h) _
    (nodup_rows hs.configTypes) ∅ (fun _ _ => trivial) (tracks_empty env timelineId)
  have h₂ := tracks_foldl (fun t => { configTypes := _, configs := t }) Config.id
    (fun v => ((newConfig env v).map (fun config =>
      ({ action := .create, model := .config config }))).toList)
    (fun _ v => ∃ w, newConfig env v = some w)
    (fun t s v ⟨w, hw⟩ h => by
      have hset := h.configs.set (k := v.id) hw
      rw [hw]
      refine { h with configs := ?_ }
      rw [← newConfig_id hw] at hset ⊢
      exact hset) (fun _ _ _ _ h => h) _ (nodup_rows hs.configs) ∅ hdefined h₁
  have h₃ := tracks_foldl (fun t => { configTypes := _, configs := _, identities := t }) Identity.id
    (fun v => [{ action := .create, model := .identity (newIdentity env v) }]) (fun _ _ => True)
    (fun t s v _ h => tracks_identity h (fun _ _ hp => by cases hp) hcreate)
    (fun _ _ _ _ h => h) _ (nodup_rows hs.identities) ∅ (fun _ _ => trivial) h₂
  have h₄ := tracks_foldl (fun t => { configTypes := _, configs := _, identities := _, services := t })
    EdgeService.id (fun v => [{ action := .create, model := .service (newService v) }]) (fun _ _ => True)
    (fun t s v _ h => tracks_service h hcreate)
    (fun _ _ _ _ h => h) _ (nodup_rows hs.services) ∅ (fun _ _ => trivial) h₃
  have h₅ := tracks_foldl
    (fun t => { configTypes := _, configs := _, identities := _, services := _, postureChecks := t })
    PostureCheck.id (fun v => [{ action := .create, model := .postureCheck (newPostureCheck v) }]) (fun _ _ => True)
    (fun t s v _ h => { h with postureChecks := h.postureChecks.set rfl })
    (fun _ _ _ _ h => h) _ (nodup_rows hs.postureChecks) ∅ (fun _ _ => trivial) h₄
  have h₆ := tracks_foldl
    (fun t => { configTypes := _, configs := _, identities := _, services := _, postureChecks := _,
                servicePolicies := t })
    (fun policy => policy.id)
    (fun policy => [handleServicePolicy .create policy.toServicePolicy, associatedIds policy .relatedService,
      associatedIds policy .relatedIdentity, associatedIds policy .relatedPostureCheck])
    (fun t policy => policy.id ∉ t ∧ ∀ i ∈ policy.identities, i ∈ db.identities)
    (fun t s policy hok h => tracks_buildPolicy h hok.1 (fun i hi => by
      rw [mem_iff_lookup]
      simp only [lookup_refill hs.identities]
      exact mem_iff_lookup.mp (hok.2 i hi)))
    (fun t v w hne hok => ⟨fun hmem => by
      rcases AList.mem_insert _ |>.mp hmem with heq | hmem
      · exact hne heq.symm
      · exact hok.1 hmem, hok.2⟩) _ (nodup_rows hs.servicePolicies) ∅
    (fun policy hpol => ⟨AList.notMem_empty _, fun i hi => by
      obtain ⟨p, hp⟩ := mem_rows.mp hpol
      exact hs.linked p policy i hp hi⟩) h₅
  exact tracks_congr h₆ (fun k => (lookup_refill hs.configTypes k).symm) (fun k => (lookup_refill hs.configs k).symm)
    (fun k => (lookup_refill hs.identities k).symm) (fun k => (lookup_refill hs.services k).symm)
    (fun k => (lookup_refill hs.postureChecks k).symm) (fun k => (lookup_refill hs.servicePolicies k).symm)

end Zt.RebuildModel
