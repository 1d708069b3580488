import Zt.RebuildModel

namespace Zt.RebuildKeys

open Tables Mirroring RouterSender RebuildStores RebuildModel
open EdgeCtrl (Id IdTable Event Action DataStatePublicKey)
open RouterDataModelSender (handle setOrRemove)
open List (mem_append_right mem_append_left map_cons mem_append mem_cons mem_cons_of_mem)

variable {J : Type} {env : Environment J} {db : Stores J} {s : RouterDataModelSender}

/-- Keys that differ at most in the order of their usages. -/
structure SameKey (k k' : DataStatePublicKey) : Prop where
  data : k.data = k'.data
  kid : k.kid = k'.kid
  format : k.format = k'.format
  usages : k.usages.Perm k'.usages

theorem SameKey.refl (k : DataStatePublicKey) : SameKey k k := ⟨rfl, rfl, rfl, List.Perm.refl _⟩

def certsOf {V : Type} (cert : V → Option Bytes) (t : IdTable V) : List Bytes := (rows t).filterMap cert

def peerCerts (env : Environment J) (db : Stores J) : List Bytes :=
  env.serverCert :: certsOf (controllerCert env) db.controllers

def caCerts (env : Environment J) (db : Stores J) : List Bytes :=
  env.caPems.filter env.isRootCa ++ certsOf (caCert env) db.cas

def certs (env : Environment J) (db : Stores J) : List Bytes := peerCerts env db ++ caCerts env db

/-- The key that is built last for a fingerprint. -/
def keyFor (env : Environment J) (peers cas : List Bytes) (kid : String) : Option DataStatePublicKey :=
  (peers.map (peerKey env) ++ cas.map (caKey env)).reverse.find? (fun key => key.kid = kid)

/-- No other certificate has this one's fingerprint. -/
def Unmistakable (env : Environment J) (db : Stores J) (cert : Bytes) : Prop :=
  ∀ other ∈ certs env db, env.sha1 other = env.sha1 cert → other = cert

structure KeysTracked (env : Environment J) (db : Stores J) (s : RouterDataModelSender) : Prop where
  publicKeys : ∀ kid, Option.Rel SameKey (s.publicKeys.lookup kid) (keyFor env (peerCerts env db) (caCerts env db) kid)
  revocations : ∀ id, s.revocations.lookup id = none

section Lists

variable {peers cas peers' cas' : List Bytes} {cert : Bytes}

theorem find_map_key {key : Bytes → DataStatePublicKey} (hkey : ∀ c, (key c).kid = env.sha1 c) {cs : List Bytes}
    (h : ∀ other ∈ cs, env.sha1 other = env.sha1 cert → other = cert) :
    (cs.map key).reverse.find? (fun k => k.kid = env.sha1 cert) = if cert ∈ cs then some (key cert) else none := by
  cases hf : (cs.map key).reverse.find? (fun k => decide (k.kid = env.sha1 cert)) with
  | none =>
    rw [if_neg]
    intro hmem
    have hmem' : key cert ∈ (cs.map key).reverse := List.mem_reverse.mpr (List.mem_map_of_mem hmem)
    simpa [hkey] using List.find?_eq_none.mp hf _ hmem'
  | some k =>
    obtain ⟨other, hother, rfl⟩ := List.mem_map.mp (List.mem_reverse.mp (List.mem_of_find?_eq_some hf))
    have hkid : env.sha1 other = env.sha1 cert := by
      rw [← hkey]
      simpa using List.find?_some hf
    cases h other hother hkid
    rw [if_pos hother]

/-- Of the two kinds of key the one of a CA is built later. -/
theorem keyFor_eq (h : ∀ other ∈ peers ++ cas, env.sha1 other = env.sha1 cert → other = cert) :
    keyFor env peers cas (env.sha1 cert) =
      if cert ∈ cas then some (caKey env cert) else if cert ∈ peers then some (peerKey env cert) else none := by
  rw [keyFor, List.reverse_append, List.find?_append,
    find_map_key (fun _ => rfl) (fun other ho => h other (mem_append_right _ ho)),
    find_map_key (fun _ => rfl) (fun other ho => h other (mem_append_left _ ho))]
  split <;> rfl

theorem find_reverse_congr {p : DataStatePublicKey → Bool} {ks ks' : List DataStatePublicKey}
    (h : ks.filter p = ks'.filter p) : ks.reverse.find? p = ks'.reverse.find? p := by
  rw [← List.head?_filter, ← List.head?_filter, List.filter_reverse, List.filter_reverse, h]

theorem keyFor_congr {kid : String}
    (hpeers : peers.filter (fun c => env.sha1 c = kid) = peers'.filter (fun c => env.sha1 c = kid))
    (hcas : cas.filter (fun c => env.sha1 c = kid) = cas'.filter (fun c => env.sha1 c = kid)) :
    keyFor env peers cas kid = keyFor env peers' cas' kid := by
  apply find_reverse_congr
  simp only [List.filter_append, List.filter_map]
  exact congrArg₂ (fun a b => List.map (peerKey env) a ++ .map (caKey env) b) hpeers hcas

end Lists

section Tables

variable {V : Type} {cert : V → Option Bytes} {t t' : IdTable V} {k : Id} {c : Bytes}

theorem mem_certsOf : c ∈ certsOf cert t ↔ ∃ j, (t.lookup j).bind cert = some c := by
  simp only [certsOf, List.mem_filterMap, mem_rows, Option.bind_eq_some_iff]
  constructor
  · rintro ⟨v, ⟨j, hj⟩, hv⟩
    exact ⟨j, v, hj, hv⟩
  · rintro ⟨j, v, hj, hv⟩
    exact ⟨v, ⟨j, hj⟩, hv⟩

theorem mem_certsOf_split (h : ∀ j, j ≠ k → t'.lookup j = t.lookup j) :
    c ∈ certsOf cert t' ↔ (t'.lookup k).bind cert = some c ∨ c ∈ certsOf cert (t.erase k) := by
  simp only [mem_certsOf, lookup_erase_eq]
  constructor
  · rintro ⟨j, hj⟩
    by_cases hjk : j = k
    · subst hjk
      exact .inl hj
    · exact .inr ⟨j, by rw [if_neg hjk, ← h j hjk, hj]⟩
  · rintro (hk | ⟨j, hj⟩)
    · exact ⟨k, hk⟩
    · by_cases hjk : j = k
      · rw [if_pos hjk] at hj
        cases hj
      · rw [if_neg hjk, ← h j hjk] at hj
        exact ⟨j, hj⟩

theorem forall_certsOf (h : ∀ j, j ≠ k → t'.lookup j = t.lookup j) {P : Bytes → Prop} (hold : ∀ c ∈ certsOf cert t, P c)
    (hnew : ∀ c, (t'.lookup k).bind cert = some c → P c) : ∀ c ∈ certsOf cert t', P c := by
  intro c hc
  rcases (mem_certsOf_split h).mp hc with hc | hc
  · exact hnew c hc
  · exact hold c ((mem_certsOf_split (fun _ _ => rfl)).mpr (.inr hc))

theorem filter_certsOf (h : ∀ j, j ≠ k → t'.lookup j = t.lookup j) {p : Bytes → Bool}
    (hold : ∀ c, (t.lookup k).bind cert = some c → p c = false)
    (hnew : ∀ c, (t'.lookup k).bind cert = some c → p c = false) :
    (certsOf cert t').filter p = (certsOf cert t).filter p := by
  have hnone : ∀ u : IdTable V, (∀ c, (u.lookup k).bind cert = some c → p c = false) →
      (u.lookup k).bind (fun v => (cert v).filter p) = none := by
    intro u hu
    cases hv : u.lookup k with
    | none => rfl
    | some v =>
      cases hc : cert v with
      | none => simp [hc]
      | some c => simp [hc, hu c (by rw [hv]; exact hc)]
  simp only [certsOf, List.filter_filterMap]
  apply filterMap_rows_congr
  intro j
  by_cases hjk : j = k
  · subst hjk
    exact (hnone t' hnew).trans (hnone t hold).symm
  · rw [h j hjk]

end Tables

theorem foldl_publicKeys {keys : List DataStatePublicKey} :
    (keys.map (handlePublicKey .create)).foldl handle s =
      { s with publicKeys := keys.foldl (fun t key => t.insert key.kid key) s.publicKeys } := by
  induction keys generalizing s with
  | nil => rfl
  | cons key keys ih =>
    rw [map_cons, List.foldl_cons, ih]
    rfl

theorem buildPublicKeys_eq {events : List Event} (h : buildPublicKeys env db = some events) :
    events = ((peerCerts env db).map (peerKey env) ++ (caCerts env db).map (caKey env)).map
      (handlePublicKey .create) := by
  simp only [buildPublicKeys, Option.bind_eq_bind, Option.bind_eq_some_iff] at h
  obtain ⟨controllerCerts, hctrls, hevents⟩ := h
  cases hevents
  have hcerts : controllerCerts = certsOf (controllerCert env) db.controllers := by
    rw [flatMap_toList hctrls, certsOf, List.filterMap_eq_flatMap_toList]
  rw [hcerts]
  simp [peerCerts, caCerts, certsOf]

theorem keysTracked_build {events : List Event} (h : buildPublicKeys env db = some events)
    (hkeys : s.publicKeys = ∅) (hrevs : ∀ id, s.revocations.lookup id = none) :
    KeysTracked env db (events.foldl handle s) := by
  rw [buildPublicKeys_eq h, foldl_publicKeys]
  refine ⟨fun kid => ?_, hrevs⟩
  rw [lookup_foldl_insert, Option.map_id', hkeys, AList.lookup_empty, Option.or_none]
  show Option.Rel SameKey (keyFor env (peerCerts env db) (caCerts env db) kid) _
  cases keyFor env (peerCerts env db) (caCerts env db) kid with
  | none => exact Option.Rel.none
  | some key => exact Option.Rel.some (.refl key)

/-- A controller takes a certificate that no CA has, and the one it had before
is still that of another one. -/
def ControllerKeeps (env : Environment J) (db : Stores J) (id : Id) (cert : Option Bytes) : Prop :=
  (∀ c, cert = some c → Unmistakable env db c ∧ c ∉ caCerts env db) ∧
    ∀ c, (db.controllers.lookup id).bind (controllerCert env) = some c → cert ≠ some c →
      Unmistakable env db c ∧ c ∈ certs env { db with controllers := db.controllers.erase id }

/-- The certificate a CA had before is still that of another CA. -/
def CaKeeps (env : Environment J) (db : Stores J) (id : Id) (cert : Option Bytes) : Prop :=
  (∀ c, cert = some c → Unmistakable env db c) ∧
    ∀ c, (db.cas.lookup id).bind (caCert env) = some c → cert ≠ some c →
      Unmistakable env db c ∧ c ∈ caCerts env { db with cas := db.cas.erase id }

/-- The certificate of a CA is not that of anything else. -/
def CaAlone (env : Environment J) (db : Stores J) (id : Id) : Prop :=
  ∀ c, (db.cas.lookup id).bind (caCert env) = some c →
    Unmistakable env db c ∧ c ∉ certs env { db with cas := db.cas.erase id }

section Controllers

variable {id : Id} {t : IdTable Controller} {c : Bytes}

theorem Unmistakable.controllers (h : Unmistakable env db c) (ht : ∀ j, j ≠ id → t.lookup j = db.controllers.lookup j)
    (hnew : ∀ d, (t.lookup id).bind (controllerCert env) = some d → env.sha1 d = env.sha1 c → d = c) :
    ∀ other ∈ peerCerts env { db with controllers := t } ++ caCerts env db, env.sha1 other = env.sha1 c → other = c := by
  simp only [Unmistakable, certs, peerCerts, List.forall_mem_append, List.forall_mem_cons] at h ⊢
  exact ⟨⟨h.1.1, forall_certsOf ht h.1.2 hnew⟩, h.2⟩

theorem keyFor_controller (kid : String) (ht : ∀ j, j ≠ id → t.lookup j = db.controllers.lookup j)
    (hk : ControllerKeeps env db id ((t.lookup id).bind (controllerCert env)))
    (hkid : ∀ c, (t.lookup id).bind (controllerCert env) = some c → env.sha1 c ≠ kid) :
    keyFor env (peerCerts env { db with controllers := t }) (caCerts env db) kid =
      keyFor env (peerCerts env db) (caCerts env db) kid := by
  by_cases hold : ∃ c, (db.controllers.lookup id).bind (controllerCert env) = some c ∧ env.sha1 c = kid
  · obtain ⟨c, hc, rfl⟩ := hold
    obtain ⟨hclear, hrest⟩ := hk.2 c hc (fun heq => hkid c heq rfl)
    have hclear' := hclear.controllers ht (fun d hd hsha => absurd hsha (hkid d hd))
    rw [keyFor_eq hclear, keyFor_eq hclear']
    by_cases hca : c ∈ caCerts env db
    · rw [if_pos hca, if_pos hca]
    · have hbefore : c ∈ peerCerts env db :=
        mem_cons_of_mem _ ((mem_certsOf_split (fun _ _ => rfl)).mpr (.inl hc))
      have hafter : c ∈ peerCerts env { db with controllers := t } := by
        rcases mem_append.mp hrest with hpeer | hpeer
        · rcases mem_cons.mp hpeer with rfl | hpeer
          · exact List.mem_cons_self
          · exact mem_cons_of_mem _ ((mem_certsOf_split ht).mpr (.inr hpeer))
        · exact absurd hpeer hca
      rw [if_neg hca, if_neg hca, if_pos hbefore, if_pos hafter]
  · apply keyFor_congr _ rfl
    have hcerts : (certsOf (controllerCert env) t).filter (fun c => env.sha1 c = kid) =
        (certsOf (controllerCert env) db.controllers).filter (fun c => env.sha1 c = kid) := by
      apply filter_certsOf ht
      · intro c hc
        simp only [decide_eq_false_iff_not]
        exact fun hsha => hold ⟨c, hc, hsha⟩
      · intro c hc
        simpa using hkid c hc
    simp [peerCerts, List.filter_cons, hcerts]

theorem keys_controllerDelete (h : KeysTracked env db s) (hk : ControllerKeeps env db id none) :
    KeysTracked env { db with controllers := db.controllers.erase id } s := by
  refine ⟨fun kid => ?_, h.revocations⟩
  have hnone : ((db.controllers.erase id).lookup id).bind (controllerCert env) = none := by
    rw [AList.lookup_erase]
    rfl
  have hkey := keyFor_controller kid (fun j hj => AList.lookup_erase_ne hj) (by rwa [hnone]) (fun c hc => by
    rw [hnone] at hc
    cases hc)
  have hbefore := h.publicKeys kid
  rw [← hkey] at hbefore
  exact hbefore

theorem keys_controllerWritten (h : KeysTracked env db s) {controller : Controller}
    (hc : controllerCert env controller = some c) (hk : ControllerKeeps env db controller.id (some c)) :
    KeysTracked env { db with controllers := db.controllers.insert controller.id controller }
      (s.handle (handlePublicKey .create
        (newPublicKey env c x509CertDer [clientX509CertValidation, jwtValidation]))) := by
  have hcert : ((db.controllers.insert controller.id controller).lookup controller.id).bind (controllerCert env) =
      some c := by
    rw [AList.lookup_insert]
    exact hc
  have hothers : ∀ j, j ≠ controller.id →
      (db.controllers.insert controller.id controller).lookup j = db.controllers.lookup j :=
    fun j hj => AList.lookup_insert_ne hj
  obtain ⟨hclear, hca⟩ := hk.1 c rfl
  refine ⟨fun kid => ?_, h.revocations⟩
  show Option.Rel SameKey ((s.publicKeys.insert (env.sha1 c) _).lookup kid) (keyFor env _ (caCerts env db) kid)
  rw [lookup_insert_eq]
  split
  · rename_i hkid
    subst hkid
    have hmem : c ∈ peerCerts env { db with controllers := db.controllers.insert controller.id controller } :=
      mem_cons_of_mem _ ((mem_certsOf_split hothers).mpr (.inl hcert))
    have hclear' := hclear.controllers hothers (fun d hd _ => Option.some.inj (hd.symm.trans hcert))
    rw [keyFor_eq hclear', if_neg hca, if_pos hmem]
    exact Option.Rel.some ⟨rfl, rfl, rfl, List.Perm.swap _ _ _⟩
  · rename_i hkid
    have hkey := keyFor_controller kid hothers (by rwa [hcert]) (fun d hd => by
      cases hd.symm.trans hcert
      exact .symm hkid)
    have hbefore := h.publicKeys kid
    rw [← hkey] at hbefore
    exact hbefore

end Controllers

section Cas

variable {id : Id} {t : IdTable Ca} {c : Bytes} {ca : Ca}

theorem Unmistakable.cas (h : Unmistakable env db c) (ht : ∀ j, j ≠ id → t.lookup j = db.cas.lookup j)
    (hnew : ∀ d, (t.lookup id).bind (caCert env) = some d → env.sha1 d = env.sha1 c → d = c) :
    ∀ other ∈ peerCerts env db ++ caCerts env { db with cas := t }, env.sha1 other = env.sha1 c → other = c := by
  simp only [Unmistakable, certs, caCerts, List.forall_mem_append] at h ⊢
  exact ⟨h.1, h.2.1, forall_certsOf ht h.2.2 hnew⟩

theorem keyFor_ca_other {kid : String} (ht : ∀ j, j ≠ id → t.lookup j = db.cas.lookup j)
    (hold : ∀ c, (db.cas.lookup id).bind (caCert env) = some c → env.sha1 c ≠ kid)
    (hnew : ∀ c, (t.lookup id).bind (caCert env) = some c → env.sha1 c ≠ kid) :
    keyFor env (peerCerts env db) (caCerts env { db with cas := t }) kid =
      keyFor env (peerCerts env db) (caCerts env db) kid := by
  have hcerts : (certsOf (caCert env) t).filter (fun c => env.sha1 c = kid) =
      (certsOf (caCert env) db.cas).filter (fun c => env.sha1 c = kid) :=
    filter_certsOf ht (by simpa using hold) (by simpa using hnew)
  apply keyFor_congr rfl
  simp [caCerts, hcerts]

theorem keyFor_ca {kid : String} (ht : ∀ j, j ≠ id → t.lookup j = db.cas.lookup j)
    (hk : CaKeeps env db id ((t.lookup id).bind (caCert env)))
    (hkid : ∀ c, (t.lookup id).bind (caCert env) = some c → env.sha1 c ≠ kid) :
    keyFor env (peerCerts env db) (caCerts env { db with cas := t }) kid =
      keyFor env (peerCerts env db) (caCerts env db) kid := by
  by_cases hold : ∃ c, (db.cas.lookup id).bind (caCert env) = some c ∧ env.sha1 c = kid
  · obtain ⟨c, hc, rfl⟩ := hold
    obtain ⟨hclear, hrest⟩ := hk.2 c hc (fun heq => hkid c heq rfl)
    have hclear' := hclear.cas ht (fun d hd hsha => absurd hsha (hkid d hd))
    have hbefore : c ∈ caCerts env db :=
      mem_append_right _ ((mem_certsOf_split (fun _ _ => rfl)).mpr (.inl hc))
    have hafter : c ∈ caCerts env { db with cas := t } := by
      rcases mem_append.mp hrest with hroot | hca
      · exact mem_append_left _ hroot
      · exact mem_append_right _ ((mem_certsOf_split ht).mpr (.inr hca))
    rw [keyFor_eq hclear, keyFor_eq hclear', if_pos hbefore, if_pos hafter]
  · exact keyFor_ca_other ht (fun c hc hsha => hold ⟨c, hc, hsha⟩) hkid

theorem handleCa_none (hc : caCert env ca = none) (action : Action) : handleCa env action ca = [] := by
  rw [handleCa, show (env.pemStringToCertificates ca.certPem).head? = none from hc]
  rfl

theorem handleCa_some (hc : caCert env ca = some c) (action : Action) :
    (handleCa env action ca).foldl handle s =
      { s with publicKeys := setOrRemove s.publicKeys action (env.sha1 c) (caKey env c) } := by
  rw [handleCa, show (env.pemStringToCertificates ca.certPem).head? = some c from hc]
  rfl

/-- A CA whose PEM has no certificate leaves the keys alone. -/
theorem keys_handleCa (h : KeysTracked env db s) {action : Action}
    (hframe : ∀ kid, (∀ c, caCert env ca = some c → env.sha1 c ≠ kid) →
      keyFor env (peerCerts env db) (caCerts env { db with cas := t }) kid =
        keyFor env (peerCerts env db) (caCerts env db) kid)
    (hkey : ∀ c, caCert env ca = some c → keyFor env (peerCerts env db) (caCerts env { db with cas := t }) (env.sha1 c) =
      if action = .delete then none else some (caKey env c)) :
    KeysTracked env { db with cas := t } ((handleCa env action ca).foldl handle s) := by
  cases hc : caCert env ca with
  | none =>
    rw [handleCa_none hc]
    refine ⟨fun kid => ?_, h.revocations⟩
    show Option.Rel SameKey _ (keyFor env (peerCerts env db) _ kid)
    rw [hframe kid (fun c hsome => by rw [hc] at hsome; cases hsome)]
    exact h.publicKeys kid
  | some c =>
    rw [handleCa_some hc]
    refine ⟨fun kid => ?_, h.revocations⟩
    show Option.Rel SameKey ((setOrRemove s.publicKeys action (env.sha1 c) _).lookup kid)
      (keyFor env (peerCerts env db) _ kid)
    have hlookup : (setOrRemove s.publicKeys action (env.sha1 c) (caKey env c)).lookup kid =
        if kid = env.sha1 c then (if action = .delete then none else some (caKey env c)) else s.publicKeys.lookup kid := by
      unfold setOrRemove
      split
      · exact lookup_erase_eq ..
      · exact lookup_insert_eq ..
    rw [hlookup]
    split
    · rename_i hkid
      rw [hkid, hkey c hc]
      split
      · exact Option.Rel.none
      · exact Option.Rel.some (.refl _)
    · rename_i hkid
      rw [hframe kid (fun d hd => by cases hd.symm.trans hc; exact symm hkid)]
      exact h.publicKeys kid

theorem keys_caWritten (h : KeysTracked env db s) {action : Action} (ha : action ≠ .delete)
    (hk : CaKeeps env db ca.id (caCert env ca)) : KeysTracked env { db with cas := db.cas.insert ca.id ca }
      ((handleCa env action ca).foldl handle s) := by
  have hcert : ((db.cas.insert ca.id ca).lookup ca.id).bind (caCert env) = caCert env ca := by
    rw [AList.lookup_insert]
    rfl
  have hothers : ∀ j, j ≠ ca.id → (db.cas.insert ca.id ca).lookup j = db.cas.lookup j :=
    fun j hj => AList.lookup_insert_ne hj
  refine keys_handleCa h (fun kid hkid => keyFor_ca hothers (by rwa [hcert]) (by rwa [hcert])) (fun c hc => ?_)
  have hmem : c ∈ caCerts env { db with cas := db.cas.insert ca.id ca } :=
    mem_append_right _ ((mem_certsOf_split hothers).mpr (.inl (hcert.trans hc)))
  have hclear := (hk.1 c hc).cas hothers (fun d hd _ => Option.some.inj (hd.symm.trans (hcert.trans hc)))
  rw [keyFor_eq hclear, if_pos hmem, if_neg ha]

theorem keys_caDelete (h : KeysTracked env db s) (hca : db.cas.lookup ca.id = some ca)
    (hk : CaAlone env db ca.id) : KeysTracked env { db with cas := db.cas.erase ca.id }
      ((handleCa env .delete ca).foldl handle s) := by
  have hold : (db.cas.lookup ca.id).bind (caCert env) = caCert env ca := by
    rw [hca]
    rfl
  have hnew : ∀ c, ((db.cas.erase ca.id).lookup ca.id).bind (caCert env) ≠ some c := by
    intro c hc
    rw [AList.lookup_erase] at hc
    cases hc
  have hothers : ∀ j, j ≠ ca.id → (db.cas.erase ca.id).lookup j = db.cas.lookup j :=
    fun j hj => AList.lookup_erase_ne hj
  refine keys_handleCa h (fun kid hkid => keyFor_ca_other hothers (by rwa [hold]) (fun c hc => absurd hc (hnew c)))
    (fun c hc => ?_)
  obtain ⟨hclear, hrest⟩ := hk c (hold.trans hc)
  have hclear' := hclear.cas hothers (fun d hd _ => absurd hd (hnew d))
  have hpeer : c ∉ peerCerts env db := fun hmem => hrest (mem_append_left _ hmem)
  rw [keyFor_eq hclear', if_neg (fun hmem => hrest (mem_append_right _ hmem)), if_neg hpeer, if_pos rfl]

end Cas

end Zt.RebuildKeys
