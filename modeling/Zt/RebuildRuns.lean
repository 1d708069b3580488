import Zt.RebuildKeys

namespace Zt.RebuildRuns

open Tables Mirroring Runs RouterSender RebuildStores RebuildTracks RebuildModel RebuildKeys
open EdgeCtrl (Id IdTable Event EventModel Action RelatedEntityType)
open Option (map_eq_some_iff bind_eq_bind bind_eq_some_iff isSome_iff_exists bind_some)
open RouterDataModelSender (linkIdentity handle)
open Instance (step)
open List (mem_singleton mem_map mem_append mem_flatMap)

variable {J : Type} {env : Environment J} {db : Stores J} {s : RouterDataModelSender} {event : Event}
  {t : RelatedEntityType} {policies : IdTable LinkedPolicy} {timelineId : String}

/-- The handlers deliver what a rebuild from the stores would show: configs can
be marshalled; deleted services and checks are not used any more; keys are not
replaced, shared or taken away; and there are no revocations. -/
def Rebuildable (env : Environment J) (db : Stores J) : StoreOp J → Prop
  | .config (.create config) => (newConfig env config).isSome
  | .config (.update config) => (newConfig env config).isSome
  | .service (.delete id) => ∀ i identity, db.identities.lookup i = some identity → id ∉ identity.serviceConfigs
  | .postureCheck (.delete id) => ∀ p policy, db.servicePolicies.lookup p = some policy → id ∉ policy.postureChecks
  | .controller (.create controller) => (controllerCert env controller).isSome ∧
      ControllerKeeps env db controller.id (controllerCert env controller)
  | .controller (.update controller) => (controllerCert env controller).isSome ∧
      ControllerKeeps env db controller.id (controllerCert env controller)
  | .controller (.delete id) => ControllerKeeps env db id none
  | .ca (.create ca) => CaKeeps env db ca.id (caCert env ca)
  | .ca (.update ca) => CaKeeps env db ca.id (caCert env ca)
  | .ca (.delete id) => CaAlone env db id
  | .revocation _ => False
  | _ => True

structure SameIdentity (m m' : SenderIdentity) : Prop where
  data : m.toDataStateIdentity = m'.toDataStateIdentity
  servicePolicies : ∀ p, p ∈ m.servicePolicies ↔ p ∈ m'.servicePolicies

structure SamePolicy (m m' : SenderServicePolicy) : Prop where
  data : m.toDataStateServicePolicy = m'.toDataStateServicePolicy
  services : ∀ i, i ∈ m.services ↔ i ∈ m'.services
  postureChecks : ∀ i, i ∈ m.postureChecks ↔ i ∈ m'.postureChecks

/-- The same entities, links, keys and revocations; the timeline may differ. -/
structure SameModel (s s' : RouterDataModelSender) : Prop where
  configTypes : ∀ k, s.configTypes.lookup k = s'.configTypes.lookup k
  configs : ∀ k, s.configs.lookup k = s'.configs.lookup k
  identities : ∀ k, Option.Rel (Option.Rel SameIdentity) (s.identities.lookup k) (s'.identities.lookup k)
  services : ∀ k, s.services.lookup k = s'.services.lookup k
  postureChecks : ∀ k, s.postureChecks.lookup k = s'.postureChecks.lookup k
  servicePolicies : ∀ k, Option.Rel SamePolicy (s.servicePolicies.lookup k) (s'.servicePolicies.lookup k)
  publicKeys : ∀ k, Option.Rel SameKey (s.publicKeys.lookup k) (s'.publicKeys.lookup k)
  revocations : ∀ k, s.revocations.lookup k = s'.revocations.lookup k

/-- Events that concern neither keys nor revocations. -/
def Plain (event : Event) : Prop :=
  match event.model with
  | .publicKey _ => False
  | .revocation _ => False
  | _ => True

theorem handle_plain (h : Plain event) :
    (s.handle event).publicKeys = s.publicKeys ∧ (s.handle event).revocations = s.revocations := by
  obtain ⟨action, synthetic, model⟩ := event
  cases model with
  | publicKey model => exact h.elim
  | revocation model => exact h.elim
  | servicePolicy model => cases action <;> exact ⟨rfl, rfl⟩
  | servicePolicyChange change =>
    obtain ⟨p, ids, t, add⟩ := change
    cases t with
    | relatedIdentity =>
      obtain ⟨identities, hframe⟩ := linkIdentities_frame p add ids s
      show (ids.foldl (linkIdentity p add) s).publicKeys = _ ∧
        (ids.foldl (linkIdentity p add) s).revocations = _
      rw [hframe]
      exact ⟨rfl, rfl⟩
    | _ => exact ⟨rfl, rfl⟩
  | _ => exact ⟨rfl, rfl⟩

theorem foldl_plain {events : List Event} (h : ∀ event ∈ events, Plain event) :
    (events.foldl handle s).publicKeys = s.publicKeys ∧
      (events.foldl handle s).revocations = s.revocations := by
  induction events generalizing s with
  | nil => exact ⟨rfl, rfl⟩
  | cons event events ih =>
    obtain ⟨hkeys, hrevs⟩ := ih (fun e he => h e (List.mem_cons_of_mem _ he))
    obtain ⟨hkeys', hrevs'⟩ := handle_plain (h event List.mem_cons_self)
    exact ⟨hkeys.trans hkeys', hrevs.trans hrevs'⟩

/-- The model agrees with the stores, and a rebuild would go through. -/
structure Current (env : Environment J) (db : Stores J) (s : RouterDataModelSender) : Prop where
  sound : Sound db
  tracks : Tracks env db s
  keys : KeysTracked env db s
  controllers : ∀ id controller, db.controllers.lookup id = some controller → (controllerCert env controller).isSome

theorem keysTracked_plain {db' : Stores J} (h : KeysTracked env db s) {events : List Event}
    (hplain : ∀ event ∈ events, Plain event) (hctrls : db'.controllers = db.controllers)
    (hcas : db'.cas = db.cas) : KeysTracked env db' (events.foldl handle s) := by
  obtain ⟨hkeys, hrevs⟩ := foldl_plain hplain
  have hpeer : peerCerts env db' = peerCerts env db := by rw [peerCerts, hctrls]; rfl
  have hca : caCerts env db' = caCerts env db := by rw [caCerts, hcas]; rfl
  refine ⟨fun kid => ?_, fun id => ?_⟩
  · rw [hkeys, hpeer, hca]
    exact h.publicKeys kid
  · rw [hrevs]
    exact h.revocations id

theorem keyed_dropLinks (h : KeyedBy (fun policy => policy.id) policies) {id : Id} :
    KeyedBy (fun policy => policy.id) (dropLinks policies t id) := by
  intro p policy hp
  rw [dropLinks, lookup_adjustEach_keys] at hp
  obtain ⟨current, hcur, rfl⟩ := map_eq_some_iff.mp hp
  have hid := h p current hcur
  cases t <;> exact hid

theorem linked_dropLinks {id p i : Id}
    {policy : LinkedPolicy} (hp : (dropLinks policies t id).lookup p = some policy) (hi : i ∈ policy.identities) :
    (∃ current, policies.lookup p = some current ∧ i ∈ current.identities) ∧ ¬ (t = .relatedIdentity ∧ i = id) := by
  rw [dropLinks, lookup_adjustEach_keys] at hp
  obtain ⟨current, hcur, rfl⟩ := map_eq_some_iff.mp hp
  cases t with
  | relatedIdentity =>
    simp only [LinkedPolicy.setLink, Bool.false_eq_true, if_false, AList.mem_erase] at hi
    exact ⟨⟨current, hcur, hi.2⟩, fun hid => hi.1 hid.2⟩
  | _ => exact ⟨⟨current, hcur, hi⟩, fun hid => by cases hid.1⟩

/-- The handlers of an operation do not panic, and what they deliver keeps the
model current. -/
def Delivers (env : Environment J) (s : RouterDataModelSender) (db : Stores J) (events : Option (List Event)) : Prop :=
  ∃ es, events = some es ∧ Current env db (es.foldl handle s)

section Steps

variable {db' : Stores J} {events : Option (List Event)} {action : Action} {config : Config J}

theorem current_of_plain (h : Current env db s) {es : List Event} (hplain : ∀ event ∈ es, Plain event)
    (hctrls : db'.controllers = db.controllers) (hcas : db'.cas = db.cas) (hsound : Sound db')
    (htracks : Tracks env db' (es.foldl handle s)) : Delivers env s db' (some es) := by
  refine ⟨es, rfl, hsound, htracks, keysTracked_plain h.keys hplain hctrls hcas, ?_⟩
  rw [hctrls]
  exact h.controllers

theorem plain_singleton (h : Plain event) : ∀ e ∈ [event], Plain e := by
  intro e he
  rw [mem_singleton.mp he]
  exact h

theorem current_configType (h : Current env db s) {c : Change Id ConfigType}
    (hp : perform env db (.configType c) = some (db', events)) : Delivers env s db' events := by
  simp only [perform, bind_eq_bind, bind_eq_some_iff] at hp
  obtain ⟨⟨t, v⟩, hc, hret⟩ := hp
  split at hret
  · cases hret
  · cases hret
    refine current_of_plain h (plain_singleton trivial) rfl rfl ?_ ?_
    · exact { h.sound with configTypes := h.sound.configTypes.apply hc }
    · exact tracks_configType h.tracks h.sound hc

theorem plain_handleConfig : ∀ event ∈ handleConfig env action config, Plain event := by
  intro event he
  obtain ⟨w, -, rfl⟩ := mem_map.mp he
  trivial

theorem handleConfig_some {w : EdgeCtrl.DataStateConfig} (h : newConfig env config = some w)
    (action : Action) : handleConfig env action config = [{ action := action, model := .config w }] := by
  rw [handleConfig, h]
  rfl

theorem keyed_foldl {V : Type} {key : V → Id} {vs : List V} {t : IdTable V} (h : KeyedBy key t) :
    KeyedBy key (vs.foldl (fun t v => t.insert (key v) v) t) := by
  induction vs generalizing t with
  | nil => exact h
  | cons v vs ih => exact ih (h.insert v)

section

variable (h : Current env db s)
include h

theorem current_config {c : Change Id (Config J)} (hop : Rebuildable env db (.config c))
    (hp : perform env db (.config c) = some (db', events)) : Delivers env s db' events := by
  simp only [perform, bind_eq_bind, bind_eq_some_iff] at hp
  obtain ⟨⟨t, v⟩, hc, hret⟩ := hp
  obtain ⟨w, hw⟩ : ∃ w, newConfig env v = some w := by
    rcases apply_cases h.sound.configs hc with ⟨rfl | rfl, -⟩ | ⟨-, hv, -⟩
    · exact isSome_iff_exists.mp hop
    · exact isSome_iff_exists.mp hop
    · obtain ⟨w, -, hw⟩ := h.tracks.configs.lookup hv
      exact ⟨w, hw⟩
  split at hret
  · rename_i hdelete
    split at hret
    · cases hret
    · cases hret
      have haction : actionOf c = .delete := by
        cases c with
        | delete k => rfl
        | _ => cases hdelete
      refine current_of_plain h ?_ rfl rfl ?_ ?_
      · intro event he
        rcases mem_append.mp he with he | he
        · obtain ⟨-, -, rfl⟩ := mem_map.mp he
          trivial
        · exact plain_handleConfig event he
      · exact { h.sound with
          configs := h.sound.configs.apply hc, services := keyed_foldl h.sound.services }
      · rw [List.foldl_append, handleConfig_some hw, ← haction]
        have hcleared := tracks_services h.tracks (clearedServices db v.id)
        exact tracks_config hcleared { h.sound with services := keyed_foldl h.sound.services } hc hw
  · cases hret
    refine current_of_plain h plain_handleConfig rfl rfl ?_ ?_
    · exact { h.sound with configs := h.sound.configs.apply hc }
    · rw [handleConfig_some hw]
      exact tracks_config h.tracks h.sound hc hw

theorem current_identity {c : Change Id (Identity J)}
    (hp : perform env db (.identity c) = some (db', events)) : Delivers env s db' events := by
  simp only [perform, bind_eq_bind, bind_eq_some_iff] at hp
  obtain ⟨⟨t, v⟩, hc, hret⟩ := hp
  cases hret
  rcases apply_cases h.sound.identities hc with ⟨hput, rfl⟩ | ⟨rfl, -, rfl⟩
  · simp only [isDelete_of_written hput]
    refine current_of_plain h (plain_singleton trivial) rfl rfl ?_ ?_
    · exact { h.sound with
        identities := h.sound.identities.insert v
        linked := fun p policy i hpol hi =>
          (AList.mem_insert _).mpr (.inr (h.sound.linked p policy i hpol hi)) }
    · exact tracks_identity h.tracks (fun p policy hpol => h.sound.linked p policy v.id hpol)
        (actionOf_of_written hput)
  · refine current_of_plain h (plain_singleton trivial) rfl rfl ?_ (tracks_identityDelete h.tracks)
    refine { h.sound with
      identities := h.sound.identities.erase v.id
      servicePolicies := keyed_dropLinks h.sound.servicePolicies
      linked := fun p policy i hpol hi => ?_ }
    obtain ⟨⟨current, hcur, hmem⟩, hne⟩ := linked_dropLinks hpol hi
    exact AList.mem_erase.mpr ⟨fun hi => hne ⟨rfl, hi⟩, h.sound.linked p current i hcur hmem⟩

theorem current_service {c : Change Id EdgeService} (hop : Rebuildable env db (.service c))
    (hp : perform env db (.service c) = some (db', events)) : Delivers env s db' events := by
  simp only [perform, bind_eq_bind, bind_eq_some_iff] at hp
  obtain ⟨⟨t, v⟩, hc, hret⟩ := hp
  cases hret
  rcases apply_cases h.sound.services hc with ⟨hput, rfl⟩ | ⟨rfl, -, rfl⟩
  · simp only [isDelete_of_written hput]
    exact current_of_plain h (plain_singleton trivial) rfl rfl
      { h.sound with services := h.sound.services.insert v } (tracks_service h.tracks (actionOf_of_written hput))
  · refine current_of_plain h (plain_singleton trivial) rfl rfl ?_ (tracks_serviceDelete h.tracks hop)
    refine { h.sound with
      services := h.sound.services.erase v.id
      identities := fun k x hx => ?_
      servicePolicies := keyed_dropLinks h.sound.servicePolicies
      linked := fun p policy i hpol hi => ?_ }
    · simp only [Change.isDelete, if_true, lookup_adjustEach_keys] at hx
      obtain ⟨y, hy, rfl⟩ := map_eq_some_iff.mp hx
      exact h.sound.identities k y hy
    · obtain ⟨⟨current, hcur, hmem⟩, -⟩ := linked_dropLinks hpol hi
      obtain ⟨x, hx⟩ := mem_iff_lookup.mp (h.sound.linked p current i hcur hmem)
      rw [mem_iff_lookup]
      simp only [Change.isDelete, if_true, lookup_adjustEach_keys, hx]
      exact ⟨_, rfl⟩

theorem current_postureCheck {c : Change Id PostureCheck}
    (hop : Rebuildable env db (.postureCheck c)) (hp : perform env db (.postureCheck c) = some (db', events)) :
    Delivers env s db' events := by
  simp only [perform, bind_eq_bind, bind_eq_some_iff] at hp
  obtain ⟨⟨t, v⟩, hc, hret⟩ := hp
  cases hret
  rcases apply_cases h.sound.postureChecks hc with ⟨hput, rfl⟩ | ⟨rfl, -, rfl⟩
  · simp only [isDelete_of_written hput]
    exact current_of_plain h (plain_singleton trivial) rfl rfl
      { h.sound with postureChecks := h.sound.postureChecks.insert v }
      (tracks_postureCheck h.tracks (actionOf_of_written hput))
  · refine current_of_plain h (plain_singleton trivial) rfl rfl ?_ (tracks_postureCheckDelete h.tracks hop)
    refine { h.sound with
      postureChecks := h.sound.postureChecks.erase v.id
      servicePolicies := keyed_dropLinks h.sound.servicePolicies
      linked := fun p policy i hpol hi => ?_ }
    obtain ⟨⟨current, hcur, hmem⟩, -⟩ := linked_dropLinks hpol hi
    exact h.sound.linked p current i hcur hmem

omit h in
theorem sound_insertPolicy (h : Sound db) (policy : LinkedPolicy) (hi : ∀ i ∈ policy.identities, i ∈ db.identities) :
    Sound { db with servicePolicies := db.servicePolicies.insert policy.id policy } := by
  refine { h with servicePolicies := h.servicePolicies.insert policy, linked := fun p x i hx => ?_ }
  exact forall_insert (fun p x hx i => h.linked p x i hx) hi p x hx i

theorem current_servicePolicy {c : Change Id ServicePolicy}
    (hp : perform env db (.servicePolicy c) = some (db', events)) : Delivers env s db' events := by
  cases c with
  | create policy =>
    simp only [perform] at hp
    split at hp
    · cases hp
    · rename_i hnew
      cases hp
      refine current_of_plain h (plain_singleton trivial) rfl rfl ?_ ?_
      · exact sound_insertPolicy h.sound { policy with }
          (fun i hi => absurd hi (AList.notMem_empty i))
      · refine tracks_servicePolicy h.tracks (show Action.create ≠ .delete by decide) rfl (fun t id => ?_)
        rw [AList.lookup_eq_none.mpr hnew]
        cases t <;> simp [LinkedPolicy.linked]
  | update policy =>
    simp only [perform, bind_eq_bind, bind_eq_some_iff] at hp
    obtain ⟨current, hcur, hret⟩ := hp
    cases hret
    refine current_of_plain h (plain_singleton trivial) rfl rfl ?_ ?_
    · exact sound_insertPolicy h.sound { policy with
        identities := current.identities, services := current.services, postureChecks := current.postureChecks }
        (fun i hi => h.sound.linked policy.id current i hcur hi)
    · refine tracks_servicePolicy h.tracks (show Action.update ≠ .delete by decide) rfl (fun t id => ?_)
      rw [hcur]
      cases t <;> simp [LinkedPolicy.linked]
  | delete id =>
    simp only [perform, bind_eq_bind, bind_eq_some_iff] at hp
    obtain ⟨policy, hpol, hret⟩ := hp
    cases hret
    refine current_of_plain h ?_ rfl rfl ?_ (tracks_deletePolicy h.tracks h.sound hpol)
    · intro event he
      rcases mem_append.mp he with he | he
      · obtain ⟨t, -, he⟩ := mem_flatMap.mp he
        obtain ⟨i, -, rfl⟩ := mem_map.mp he
        trivial
      · rw [mem_singleton.mp he]
        trivial
    · exact { h.sound with
        servicePolicies := h.sound.servicePolicies.erase id
        linked := fun p x i hx => h.sound.linked p x i (lookup_of_erase hx).2 }

theorem current_link {p id : Id} {add : Bool}
    (hp : perform env db (.link t p id add) = some (db', events)) : Delivers env s db' events := by
  simp only [perform, bind_eq_bind, bind_eq_some_iff] at hp
  obtain ⟨policy, hpol, hret⟩ := hp
  split at hret
  · cases hret
  · rename_i hok
    cases hret
    have ht : t ≠ .invalidRelatedType := by
      rintro rfl
      exact hok (.inr rfl)
    have hhas : t = .relatedIdentity → id ∈ db.identities := by
      rintro rfl
      have hid : ¬ decide (id ∈ db.identities) = false := fun hid => hok (.inr hid)
      simpa using hid
    have hr := relinked_setLink policy ht id add
    have hkey : (policy.setLink t id add).id = p :=
      (congrArg ServicePolicy.id hr.same).trans (h.sound.servicePolicies p policy hpol)
    refine current_of_plain h (plain_singleton trivial) rfl rfl ?_ ?_
    · have hsound := sound_insertPolicy h.sound (policy.setLink t id add) (fun i hi => ?_)
      · rw [hkey] at hsound
        exact hsound
      · by_cases hti : t = .relatedIdentity
        · subst hti
          rcases (hr.linked i).mp hi with ⟨hmem, -⟩ | ⟨hmem, -⟩
          · rw [mem_singleton.mp hmem]
            exact hhas rfl
          · exact h.sound.linked p policy i hpol hmem
        · exact h.sound.linked p policy i hpol ((hr.others .relatedIdentity (.symm hti) i).mp hi)
    · refine tracks_change h.tracks hpol hr ht (List.nodup_singleton id) (fun hti i hi => ?_)
      rw [mem_singleton.mp hi]
      exact hhas hti

theorem current_controllerWritten {controller : Controller} (hc : (controllerCert env controller).isSome)
    (hk : ControllerKeeps env db controller.id (controllerCert env controller)) :
    Delivers env s { db with controllers := db.controllers.insert controller.id controller }
      (controllerWritten env controller) := by
  obtain ⟨cert, hcert⟩ := isSome_iff_exists.mp hc
  rw [hcert] at hk
  refine ⟨[handlePublicKey .create (newPublicKey env cert x509CertDer [clientX509CertValidation, jwtValidation])],
    ?_, ?_⟩
  · rw [controllerWritten, show (env.pemStringToCertificates controller.certPem).head? = some cert from hcert]
    rfl
  · exact ⟨{ h.sound with controllers := h.sound.controllers.insert controller }, { h.tracks with },
      keys_controllerWritten h.keys hcert hk, forall_insert h.controllers hc⟩

theorem current_controller {c : Change Id Controller}
    (hop : Rebuildable env db (.controller c)) (hp : perform env db (.controller c) = some (db', events)) :
    Delivers env s db' events := by
  simp only [perform, bind_eq_bind, bind_eq_some_iff] at hp
  obtain ⟨⟨t, v⟩, hc, hret⟩ := hp
  cases hret
  rcases apply_cases h.sound.controllers hc with ⟨rfl | rfl, rfl⟩ | ⟨rfl, -, rfl⟩
  · exact current_controllerWritten h hop.1 hop.2
  · exact current_controllerWritten h hop.1 hop.2
  · exact ⟨[], rfl, { h.sound with controllers := h.sound.controllers.erase v.id }, { h.tracks with },
      keys_controllerDelete h.keys hop, forall_erase h.controllers⟩

omit h in
theorem tracks_handleCa (h : Tracks env db s) {ca : Ca} :
    Tracks env db ((handleCa env action ca).foldl handle s) := by
  cases hc : caCert env ca with
  | none =>
    rw [handleCa_none hc]
    exact h
  | some c =>
    rw [handleCa_some hc]
    exact { h with }

theorem current_ca {c : Change Id Ca} (hop : Rebuildable env db (.ca c))
    (hp : perform env db (.ca c) = some (db', events)) : Delivers env s db' events := by
  simp only [perform, bind_eq_bind, bind_eq_some_iff] at hp
  obtain ⟨⟨t, v⟩, hc, hret⟩ := hp
  cases hret
  rcases apply_cases h.sound.cas hc with ⟨rfl | rfl, rfl⟩ | ⟨rfl, hv, rfl⟩
  · exact ⟨_, rfl, { h.sound with cas := h.sound.cas.insert v }, { tracks_handleCa h.tracks with },
      keys_caWritten h.keys (by decide) hop, h.controllers⟩
  · exact ⟨_, rfl, { h.sound with cas := h.sound.cas.insert v }, { tracks_handleCa h.tracks with },
      keys_caWritten h.keys (by decide) hop, h.controllers⟩
  · exact ⟨_, rfl, { h.sound with cas := h.sound.cas.erase v.id }, { tracks_handleCa h.tracks with },
      keys_caDelete h.keys hv hop, h.controllers⟩

theorem current_perform {op : StoreOp J} (hop : Rebuildable env db op)
    (hp : perform env db op = some (db', events)) : Delivers env s db' events := by
  cases op with
  | configType c => exact current_configType h hp
  | config c => exact current_config h hop hp
  | identity c => exact current_identity h hp
  | service c => exact current_service h hop hp
  | postureCheck c => exact current_postureCheck h hop hp
  | servicePolicy c => exact current_servicePolicy h hp
  | link t p id add => exact current_link h hp
  | controller c => exact current_controller h hop hp
  | ca c => exact current_ca h hop hp
  | revocation c => exact hop.elim

end

end Steps

theorem tracks_publicKeys (h : Tracks env db s) {events : List Event} (hb : buildPublicKeys env db = some events) :
    Tracks env db (events.foldl handle s) := by
  rw [buildPublicKeys_eq hb, foldl_publicKeys]
  exact { h with }

theorem plain_build {configs : List Event} (hc : buildConfigs env db = some configs) :
    ∀ event ∈ buildConfigTypes db ++ configs ++ buildIdentities env db ++ buildServices db ++ buildPostureChecks db ++
      buildServicePolicies db, Plain event := by
  have hmap : ∀ {V : Type} {t : IdTable V} {model : V → EventModel} {event : Event}, event ∈ createAll t model →
      (∀ v, Plain { action := .create, model := model v }) → Plain event := by
    intro V t model event he hmodel
    obtain ⟨v, -, rfl⟩ := mem_map.mp he
    exact hmodel v
  intro event he
  simp only [mem_append] at he
  rcases he with ((((he | he) | he) | he) | he) | he
  · exact hmap he (fun _ => trivial)
  · rw [(buildConfigs_eq hc).2] at he
    obtain ⟨v, -, hv⟩ := mem_flatMap.mp he
    obtain ⟨w, -, rfl⟩ := map_eq_some_iff.mp (Option.mem_toList.mp hv)
    trivial
  · exact hmap he (fun _ => trivial)
  · exact hmap he (fun _ => trivial)
  · exact hmap he (fun _ => trivial)
  · obtain ⟨policy, -, hpol⟩ := mem_flatMap.mp he
    simp only [List.mem_cons, List.not_mem_nil, or_false] at hpol
    rcases hpol with rfl | rfl | rfl | rfl <;> trivial

theorem current_build (hs : Sound db) (hb : buildAll env timelineId db = some s) : Current env db s := by
  simp only [buildAll, bind_eq_bind, bind_eq_some_iff] at hb
  obtain ⟨configs, hc, publicKeys, hk, hret⟩ := hb
  cases hret
  rw [List.foldl_append]
  obtain ⟨hkeys, hrevs⟩ := foldl_plain (plain_build hc)
  refine ⟨hs, tracks_publicKeys (tracks_build hs hc) hk, ?_, fun id controller hid => ?_⟩
  · refine keysTracked_build hk hkeys (fun id => ?_)
    rw [hrevs]
    rfl
  · simp only [buildPublicKeys, bind_eq_bind, bind_eq_some_iff] at hk
    obtain ⟨certs, hcerts, -⟩ := hk
    exact isSome_iff_exists.mpr (mapM_each hcerts controller (mem_rows.mpr ⟨id, hid⟩))

theorem Current.rebuilds (h : Current env db s) : ∃ rebuilt, buildAll env timelineId db = some rebuilt := by
  have hmarshal : ∀ v ∈ rows db.configs, ∃ event : Event,
      (newConfig env v).map (fun config => { action := .create, model := .config config }) = some event := by
    intro v hv
    obtain ⟨id, hid⟩ := mem_rows.mp hv
    obtain ⟨w, -, hw⟩ := h.tracks.configs.lookup hid
    rw [hw]
    exact ⟨_, rfl⟩
  have hcerts : ∀ v ∈ rows db.controllers, ∃ cert, controllerCert env v = some cert := by
    intro v hv
    obtain ⟨id, hid⟩ := mem_rows.mp hv
    exact isSome_iff_exists.mp (h.controllers id v hid)
  obtain ⟨configs, hc, -⟩ := SnapshotSync.mapM_defined hmarshal
  obtain ⟨certs, hk, -⟩ := SnapshotSync.mapM_defined hcerts
  have hconfs : buildConfigs env db = some configs := hc
  simp only [buildAll, buildPublicKeys, hconfs, hk]
  exact ⟨_, rfl⟩

theorem sameKey_of_rel {a b k : Option EdgeCtrl.DataStatePublicKey} (h : Option.Rel SameKey a k)
    (h' : Option.Rel SameKey b k) : Option.Rel SameKey a b := by
  cases h with
  | none =>
    cases h'
    exact Option.Rel.none
  | some h =>
    cases h' with
    | some h' =>
      exact Option.Rel.some ⟨h.data.trans h'.data.symm, h.kid.trans h'.kid.symm, h.format.trans h'.format.symm,
        h.usages.trans h'.usages.symm⟩

theorem Current.same {s' : RouterDataModelSender} (h : Current env db s) (h' : Current env db s') :
    SameModel s s' where
  configTypes k := rel_eq (h.tracks.configTypes.agree h'.tracks.configTypes (fun _ _ _ _ hv hw => hv.symm.trans hw) k)
  configs k := rel_eq (h.tracks.configs.agree h'.tracks.configs
    (fun _ _ _ _ hv hw => Option.some.inj (hv.symm.trans hw)) k)
  identities k := h.tracks.identities.agree h'.tracks.identities (fun _ _ _ _ => by
    rintro ⟨m, rfl, hm, hp⟩ ⟨m', rfl, hm', hp'⟩
    exact Option.Rel.some ⟨hm.trans hm'.symm, fun p => (hp p).trans (hp' p).symm⟩) k
  services k := rel_eq (h.tracks.services.agree h'.tracks.services (fun _ _ _ _ hv hw => hv.symm.trans hw) k)
  postureChecks k := rel_eq (h.tracks.postureChecks.agree h'.tracks.postureChecks
    (fun _ _ _ _ hv hw => hv.symm.trans hw) k)
  servicePolicies k := h.tracks.servicePolicies.agree h'.tracks.servicePolicies (fun _ _ _ _ hm hm' =>
    ⟨hm.1.trans hm'.1.symm, fun i => (hm.2.1 i).trans (hm'.2.1 i).symm,
      fun i => (hm.2.2 i).trans (hm'.2.2 i).symm⟩) k
  publicKeys k := sameKey_of_rel (h.keys.publicKeys k) (h'.keys.publicKeys k)
  revocations k := (h.keys.revocations k).trans (h'.keys.revocations k).symm

/-- The instance has a model, and it agrees with the stores. -/
def Live (env : Environment J) (st : Instance J) : Prop := ∃ s, st.model = some s ∧ Current env st.stores s

theorem live_step {st : Instance J} {op : StoreOp J} (h : Live env st)
    (hop : (perform env st.stores op).isSome → Rebuildable env st.stores op) : Live env (st.step env op) := by
  obtain ⟨s, hs, hcur⟩ := h
  rw [step]
  cases hp : perform env st.stores op with
  | none => exact ⟨s, hs, hcur⟩
  | some result =>
    obtain ⟨db', events⟩ := result
    have hop' := hop (by rw [hp]; rfl)
    obtain ⟨es, rfl, hnext⟩ := current_perform hcur hop' hp
    refine ⟨_, ?_, hnext⟩
    simp [hs]

/-- Certificates are written as themselves, and their fingerprints as text. -/
def plainEnvironment : Environment Unit where
  marshal _ := some "data"
  pemStringToCertificates pem := if pem = "" then [] else [pem.toList.map (fun c => c.toNat.toUInt8)]
  sha1 cert := String.ofList (cert.map (fun b => Char.ofNat b.toNat))
  isRootCa _ := true
  serverCert := [83]
  caPems := []

theorem sound_new : Sound ({} : Stores J) where
  configTypes := fun _ _ h => by cases h
  configs := fun _ _ h => by cases h
  identities := fun _ _ h => by cases h
  services := fun _ _ h => by cases h
  postureChecks := fun _ _ h => by cases h
  servicePolicies := fun _ _ h => by cases h
  controllers := fun _ _ h => by cases h
  cas := fun _ _ h => by cases h
  linked := fun _ _ _ h => by cases h

/-- In every run whose operations the handlers pass on as a rebuild would see
them, a restarted controller builds the model the running one has. -/
theorem rebuilt_model_same (env : Environment J) (db : Stores J) (hs : Sound db) (timelineId timelineId' : String)
    (start : RouterDataModelSender) (hb : buildAll env timelineId db = some start) (ops : List (StoreOp J))
    (h : Meets (fun (st : Instance J) op => (perform env st.stores op).isSome → Rebuildable env st.stores op)
      (step env) ⟨db, some start⟩ ops) (st : Instance J) (hst : st = ops.foldl (step env) ⟨db, some start⟩) :
    ∃ model rebuilt, st.model = some model ∧ buildAll env timelineId' st.stores = some rebuilt ∧
      SameModel model rebuilt := by
  have hlive : Live env st := by
    rw [hst]
    exact h.invariant (Live env) (fun _ _ hl hop => live_step hl hop) ⟨start, rfl, current_build hs hb⟩
  obtain ⟨model, hmodel, hcurrent⟩ := hlive
  obtain ⟨rebuilt, hrebuilt⟩ := hcurrent.rebuilds
  exact ⟨model, rebuilt, hmodel, hrebuilt, hcurrent.same (current_build hcurrent.sound hrebuilt)⟩

def newInstance : Instance Unit := ⟨{}, buildAll plainEnvironment "t" {}⟩

def grant : List (StoreOp Unit) :=
  [.config (.create { id := "c", typeId := "ct", name := "c", data := ∅ }),
    .identity (.create { id := "ann", name := "ann" }),
    .service (.create { id := "web", name := "web", configs := ["c"] }),
    .servicePolicy (.create { id := "p", name := "p", policyType := .dial }),
    .link .relatedIdentity "p" "ann" true, .link .relatedService "p" "web" true,
    .ca (.create { id := "ca", certPem := "A" }), .config (.delete "c"), .servicePolicy (.delete "p")]

theorem rebuilt_model_same_after_grant :
    ∃ model rebuilt, (grant.foldl (step plainEnvironment) newInstance).model = some model ∧
      buildAll plainEnvironment "u" (grant.foldl (step plainEnvironment) newInstance).stores = some rebuilt ∧
      SameModel model rebuilt := by
  have hca : ∀ db : Stores Unit, db.cas = ∅ → db.controllers = ∅ →
      CaKeeps plainEnvironment db "ca" (caCert plainEnvironment { id := "ca", certPem := "A" }) := by
    intro db hcas hcontrollers
    refine ⟨fun c hc other ho hsha => ?_, fun c hc => ?_⟩
    · have hcerts : certs plainEnvironment db = [[83]] := by
        simp only [certs, peerCerts, caCerts, hcas, hcontrollers]
        rfl
      rw [hcerts] at ho
      cases mem_singleton.mp ho
      cases Option.some.inj hc
      exact absurd hsha (by decide)
    · rw [hcas] at hc
      cases hc
  refine rebuilt_model_same plainEnvironment {} sound_new "t" "u" _ rfl grant ?_ _ rfl
  exact ⟨fun _ => rfl, fun _ => trivial, fun _ => trivial, fun _ => trivial, fun _ => trivial, fun _ => trivial,
    fun _ => hca _ rfl rfl, fun _ => trivial, fun _ => trivial, trivial⟩

def differs (look : RouterDataModelSender → Bool) (ops : List (StoreOp Unit)) : Prop :=
  ∃ st, st = ops.foldl (step plainEnvironment) newInstance ∧
    st.model.map look = some true ∧ (buildAll plainEnvironment "t" st.stores).map look = some false

/-- A restart loses revocations and the old certificate of a controller, and
takes deleted checks from policies and service configs from identities. -/
theorem restarted_model_differs : differs (fun s => (s.revocations.lookup "r").isSome)
      [.revocation (.create { id := "r", expiresAt := 1 }), .revocation (.delete "r")] ∧
    differs (fun s => (s.publicKeys.lookup "A").isSome)
      [.controller (.create { id := "c", certPem := "A" }), .controller (.update { id := "c", certPem := "B" })] ∧
    differs (fun s => (s.servicePolicies.lookup "p").any (fun policy => "check" ∈ policy.postureChecks))
      [.postureCheck (.create { id := "check", name := "check", typeId := "MFA" }),
        .servicePolicy (.create { id := "p", name := "p", policyType := .dial }),
        .link .relatedPostureCheck "p" "check" true, .postureCheck (.delete "check")] ∧
    differs (fun s => (s.identity "ann").any (fun identity => "web" ∈ identity.serviceConfigs))
      [.config (.create { id := "c", typeId := "ct", name := "c", data := ∅ }),
        .service (.create { id := "web", name := "web" }),
        .identity (.create
          { id := "ann", name := "ann", serviceConfigs := AList.insert "web" (AList.insert "ct" "c" ∅) ∅ }),
        .service (.delete "web")] := by
  refine ⟨⟨_, rfl, ?_⟩, ⟨_, rfl, ?_⟩, ⟨_, rfl, ?_⟩, ⟨_, rfl, ?_⟩⟩
  · decide
  · decide
  · decide
  · decide

end Zt.RebuildRuns
