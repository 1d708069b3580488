import Mathlib.Data.Fintype.EquivFin
import Mathlib.Data.Finset.Dedup
import Zt.EnrollmentCommands
import Zt.Replicas

namespace Zt.EnrollmentReplicas

open Tables Runs EdgeCtrl EnrollmentCommands Replicas
open Option (bind_eq_some_iff bind_some eq_none_iff_forall_ne_some)

variable {c : Common} {r r' : Reading} {db : Database} {id : Id}

/-- The authenticator would be taken under a new id. -/
def Storable (db : Database) (entity : Authenticator) : Prop :=
  ∃ row, persist (fun _ => true) { method := entity.method, identityId := entity.identityId } entity = some row ∧
    db.authenticatorFits db.authenticators row = true

/-- The enrollment of the identity would be taken before it expires. -/
def Enrolls (db : Database) (id : Id) (e : Enrollment) (identityId : Id) : Prop :=
  identityId ∈ db.identities ∧ db.admits identityId e = true ∧ (id = "" ∨ id ∉ db.enrollments) ∧
    (e.token = "" ∨ db.tokenTaken e.token = false) ∧ db.enrollmentFits e = true

/-- A command whose outcome is that of the database alone: what it would make up
for itself is given, or it fails for other reasons. -/
def Settled (c : Common) (db : Database) : Command → Prop
  | .createEnrollment id e =>
    if e.edgeRouterId.isSome ∨ e.transitRouterId.isSome then
      id ≠ "" ∨ ¬ (e.token ≠ "" ∧ db.tokenTaken e.token = false ∧ db.enrollmentFits e = true)
    else ∀ identityId, e.identityId = some identityId → e.expiresAt.isSome → ¬ Enrolls db id e identityId
  | .reEnrollEdgeRouter edgeRouterId => edgeRouterId ∉ db.edgeRouters
  | .replaceEnrollment enrollmentId id authenticator =>
    id ≠ "" ∨ enrollmentId ∉ db.enrollments ∨ ¬ Storable db authenticator
  | .createAuthenticator id entity =>
    match entity.method, entity.subType with
    | .updb, .updb _ =>
      ¬ (db.hasMethod entity.identityId .updb = false ∧ (id = "" ∨ id ∉ db.authenticators) ∧ Storable db entity)
    | .cert, .cert auth => id ≠ "" ∨ ∀ cert, ¬ (db.hasMethod entity.identityId .cert = false ∧
        c.certificates auth.pem = [cert] ∧ c.verifies cert (db.rootPool c) = true ∧
          Storable db { entity with subType := .cert { auth with fingerprint := c.fingerprint cert } })
    | _, _ => True
  | .updateAuthenticator id entity fields unrestricted =>
    match entity.method, entity.subType with
    | .updb, .updb _ => ∀ old row, ¬ (fields.all (fun fs => decide (.password ∈ fs)) = true ∧
        db.authenticators.lookup id = some old ∧ persist (updates fields unrestricted) old entity = some row ∧
          db.authenticatorFits (db.authenticators.erase id) row = true)
    | _, _ => True

def reading (now : Int) (newId : Id) (newToken salt : String) : Reading where
  now := now
  issuedAt := now
  newId := newId
  newToken := newToken
  salt := salt
  sign := fun _ => some ""
  apiAddress := ""
  advertiseAddress := none

theorem exists_fresh (xs : List String) : ∃ x, x ∉ xs := by
  obtain ⟨x, hx⟩ := Infinite.exists_notMem_finset xs.toFinset
  exact ⟨x, fun h => hx (List.mem_toFinset.mpr h)⟩

theorem exists_two_fresh {xs : List String} : ∃ x y, x ≠ y ∧ x ∉ xs ∧ y ∉ xs := by
  obtain ⟨x, hx⟩ := exists_fresh xs
  obtain ⟨y, hy⟩ := exists_fresh (x :: xs)
  rw [List.mem_cons, not_or] at hy
  exact ⟨x, y, fun h => hy.1 h.symm, hx, hy.2⟩

variable {V : Type} {e : Enrollment} {token : String} {expiresAt : Int} {identityId edgeRouterId : Id}
  {db' : Database} {entity : Authenticator} {writes : AuthField → Bool} {auth : AuthenticatorUpdb}
  {unrestricted : Bool} {t : IdTable V} {fields : Option (List AuthField)}

theorem exists_new_ids (t : IdTable V) : ∃ x y : Id, x ≠ y ∧ (x ≠ "" ∧ x ∉ t) ∧ y ≠ "" ∧ y ∉ t := by
  obtain ⟨x, y, hne, hx, hy⟩ := exists_two_fresh
  rw [List.mem_cons, not_or] at hx hy
  exact ⟨x, y, hne, ⟨hx.1, fun h => hx.2 (AList.mem_keys.mp h)⟩, hy.1, fun h => hy.2 (AList.mem_keys.mp h)⟩

theorem insert_ne_insert {x y : Id} {v w : V} (hne : x ≠ y) (hx : x ∉ t) : t.insert x v ≠ t.insert y w := by
  intro h
  have hl : (t.insert x v).lookup x = (t.insert y w).lookup x := by rw [h]
  rw [AList.lookup_insert, AList.lookup_insert_ne hne, AList.lookup_eq_none.mpr hx] at hl
  cases hl

theorem insert_inj {x : Id} {v w : V} (h : t.insert x v = t.insert x w) : v = w := by
  have hl : (t.insert x v).lookup x = (t.insert x w).lookup x := by rw [h]
  rw [AList.lookup_insert, AList.lookup_insert] at hl
  exact Option.some.inj hl

theorem createEnrollment_ok (hid : id ≠ "" ∧ id ∉ db.enrollments)
    (he : e.token ≠ "" ∧ db.tokenTaken e.token = false ∧ db.enrollmentFits e = true) :
    createEnrollment db id e = some { db with enrollments := db.enrollments.insert id e } :=
  if_pos ⟨hid.1, hid.2, he⟩

theorem createEnrollment_refused
    (he : ¬ (id ≠ "" ∧ id ∉ db.enrollments ∧ e.token ≠ "" ∧ db.tokenTaken e.token = false ∧ db.enrollmentFits e = true)) :
    createEnrollment db id e = none :=
  if_neg he

theorem idOf_given (h : id ≠ "") : idOf r id = id := if_neg h

theorem uniform_router_iff (hr : e.edgeRouterId.isSome ∨ e.transitRouterId.isSome) :
    Uniform (apply c) db (.createEnrollment id e) ↔ Settled c db (.createEnrollment id e) := by
  simp only [Uniform, apply, applyCreateEnrollment, Settled, if_pos hr]
  by_cases hid : id = ""
  · subst hid
    by_cases he : e.token ≠ "" ∧ db.tokenTaken e.token = false ∧ db.enrollmentFits e = true
    · refine iff_of_false (fun h => ?_) (fun h => h.elim (fun h => h rfl) (fun h => h he))
      obtain ⟨x, y, hne, hx, hy⟩ := exists_new_ids db.enrollments
      have hxy : createEnrollment db x e = createEnrollment db y e := h (reading 0 x "" "") (reading 0 y "" "")
      rw [createEnrollment_ok hx he, createEnrollment_ok hy he, Option.some.injEq, Database.mk.injEq] at hxy
      exact insert_ne_insert hne hx.2 hxy.1
    · refine iff_of_true (fun r r' => ?_) (.inr he)
      rw [createEnrollment_refused (fun h => he h.2.2), createEnrollment_refused (fun h => he h.2.2)]
  · exact iff_of_true (fun r r' => by rw [idOf_given hid, idOf_given hid]) (.inl hid)

theorem tokenTaken_fresh (h : token ∉ (pairs db.enrollments).map (fun e => e.2.token)) :
    db.tokenTaken token = false := by
  rw [Database.tokenTaken, List.any_eq_false]
  intro e he hd
  exact h (List.mem_map.mpr ⟨e, he, of_decide_eq_true hd⟩)

theorem fill_some {subject : Id} {e' : Enrollment} (h : fillJwtInfoWithExpiresAt r db subject expiresAt e = some e') :
    e'.token = (if e.token = "" then r.newToken else e.token) ∧ db.enrollmentFits e' = db.enrollmentFits e := by
  obtain ⟨-, -, rfl⟩ := Option.map_eq_some_iff.mp h
  exact ⟨rfl, rfl⟩

theorem createForIdentity_some (h : createForIdentity r db id e identityId expiresAt = some db') :
    Enrolls db id e identityId := by
  unfold createForIdentity at h
  split at h
  · rename_i hcond
    obtain ⟨e', hfill, hc⟩ := bind_eq_some_iff.mp h
    obtain ⟨ht, hf⟩ := fill_some hfill
    have htaken : _ ∧ _ := by_contra (fun hn => by rw [createEnrollment_refused hn] at hc; cases hc)
    obtain ⟨-, hid, -, htoken, hfits⟩ := htaken
    refine ⟨hcond.1, hcond.2.2, or_iff_not_imp_left.mpr (fun hblank => ?_),
      or_iff_not_imp_left.mpr (fun hblank => ?_), hf ▸ hfits⟩
    · rwa [idOf_given hblank] at hid
    · rwa [ht, if_neg hblank] at htoken
  · cases h

theorem createForIdentity_late {newId : Id} :
    createForIdentity (reading (expiresAt + 1) newId token "") db id e identityId expiresAt = none :=
  if_neg (fun h => h.2.1 (Int.lt_succ expiresAt))

theorem createForIdentity_taken (h : Enrolls db id e identityId) :
    ∃ newId token db', createForIdentity (reading expiresAt newId token "") db id e identityId expiresAt = some db' := by
  obtain ⟨hident, hadmits, hid, htoken, hfits⟩ := h
  obtain ⟨x, -, -, hx, -⟩ := exists_new_ids db.enrollments
  obtain ⟨token, htok⟩ := exists_fresh ("" :: (pairs db.enrollments).map (fun e => e.2.token))
  rw [List.mem_cons, not_or] at htok
  have hnewId : idOf (reading expiresAt x token "") id ≠ "" ∧ idOf (reading expiresAt x token "") id ∉ db.enrollments := by
    by_cases hblank : id = ""
    · subst hblank
      exact hx
    · rw [idOf_given hblank]
      exact ⟨hblank, hid.resolve_left hblank⟩
  have hnewToken : (if e.token = "" then token else e.token) ≠ "" ∧
      db.tokenTaken (if e.token = "" then token else e.token) = false := by
    by_cases hblank : e.token = ""
    · rw [if_pos hblank]
      exact ⟨htok.1, tokenTaken_fresh htok.2⟩
    · rw [if_neg hblank]
      exact ⟨hblank, htoken.resolve_left hblank⟩
  have hcond : identityId ∈ db.identities ∧ ¬ expiresAt < (reading expiresAt x token "").now ∧
      db.admits identityId e = true := ⟨hident, lt_irrefl expiresAt, hadmits⟩
  obtain ⟨e', he'⟩ : ∃ e', fillJwtInfoWithExpiresAt (reading expiresAt x token "") db identityId expiresAt e = some e' :=
    ⟨_, rfl⟩
  obtain ⟨ht, hf⟩ := fill_some he'
  have he : e'.token ≠ "" ∧ db.tokenTaken e'.token = false ∧ db.enrollmentFits e' = true := by
    rw [ht, hf]
    exact ⟨hnewToken.1, hnewToken.2, hfits⟩
  exact ⟨x, token, _, by rw [createForIdentity, if_pos hcond, he', bind_some, createEnrollment_ok hnewId he]⟩

/-- One clock is past the expiry and the other is not. -/
theorem uniform_identity_iff (hr : ¬ (e.edgeRouterId.isSome ∨ e.transitRouterId.isSome)) :
    Uniform (apply c) db (.createEnrollment id e) ↔ Settled c db (.createEnrollment id e) := by
  simp only [Uniform, apply, applyCreateEnrollment, Settled, if_neg hr]
  cases hi : e.identityId with
  | none => exact iff_of_true (fun _ _ => rfl) (fun _ h => by cases h)
  | some identityId =>
    cases hx : e.expiresAt with
    | none => exact iff_of_true (fun _ _ => rfl) (fun _ _ h => by cases h)
    | some expiresAt =>
      simp only [bind_some]
      by_cases hp : Enrolls db id e identityId
      · refine iff_of_false (fun h => ?_) (fun h => h identityId rfl rfl hp)
        obtain ⟨newId, token, db', hok⟩ := createForIdentity_taken hp
        have heq := h (reading (expiresAt + 1) newId token "") (reading expiresAt newId token "")
        rw [createForIdentity_late, hok] at heq
        cases heq
      · refine iff_of_true (fun r r' => ?_) (fun i hi _ => by cases hi; exact hp)
        have hnone : ∀ r, createForIdentity r db id e identityId expiresAt = none := fun r =>
          eq_none_iff_forall_ne_some.mpr (fun db' h => hp (createForIdentity_some h))
        rw [hnone r, hnone r']

/-- The database without the enrollments of a router. -/
def withoutRouter (db : Database) (edgeRouterId : Id) : Database :=
  { db with enrollments := removeAll db.enrollments (enrollmentsOfRouter db edgeRouterId) }

theorem reEnroll_taken {newId : Id} (hr : edgeRouterId ∈ db.edgeRouters)
    (hid : newId ≠ "" ∧ newId ∉ (withoutRouter db edgeRouterId).enrollments)
    (htoken : token ≠ "" ∧ (withoutRouter db edgeRouterId).tokenTaken token = false) :
    ∃ e db', applyReEnrollEdgeRouter c (reading 0 newId token "") db edgeRouterId = some db' ∧
      db'.enrollments = (withoutRouter db edgeRouterId).enrollments.insert newId e := by
  obtain ⟨router, hl⟩ := mem_iff_lookup.mp hr
  have hfits : (withoutRouter db edgeRouterId).enrollmentFits
      { method := .edgeRouterOtt, edgeRouterId := some edgeRouterId } = true := by
    simp [Database.enrollmentFits, withoutRouter, hr]
  obtain ⟨e, he⟩ : ∃ e, fillJwtInfoWithExpiresAt (reading 0 newId token "") (withoutRouter db edgeRouterId) edgeRouterId
      (0 + c.edgeRouterDuration) { method := .edgeRouterOtt, edgeRouterId := some edgeRouterId } = some e := ⟨_, rfl⟩
  obtain ⟨ht, hf⟩ := fill_some he
  have hnew : e.token ≠ "" ∧ (withoutRouter db edgeRouterId).tokenTaken e.token = false ∧
      (withoutRouter db edgeRouterId).enrollmentFits e = true := by
    rw [ht, hf]
    exact ⟨htoken.1, htoken.2, hfits⟩
  have hc := createEnrollment_ok hid hnew
  have hs : applyReEnrollEdgeRouter c (reading 0 newId token "") db edgeRouterId =
      (createEnrollment (withoutRouter db edgeRouterId) newId e).map (fun db =>
        { db with edgeRouters := db.edgeRouters.insert edgeRouterId ⟨none, none, false⟩ }) := by
    simp only [applyReEnrollEdgeRouter, hl]
    change (fillJwtInfoWithExpiresAt _ (withoutRouter db edgeRouterId) _ (0 + c.edgeRouterDuration) _).bind _ = _
    rw [he]
    rfl
  rw [hc] at hs
  exact ⟨e, _, hs, rfl⟩

theorem uniform_reEnroll_iff :
    Uniform (apply c) db (.reEnrollEdgeRouter edgeRouterId) ↔ Settled c db (.reEnrollEdgeRouter edgeRouterId) := by
  simp only [Uniform, apply, Settled]
  by_cases hr : edgeRouterId ∈ db.edgeRouters
  · refine iff_of_false (fun h => ?_) (fun h => h hr)
    obtain ⟨x, y, hne, hx, hy⟩ := exists_new_ids (withoutRouter db edgeRouterId).enrollments
    obtain ⟨token, htok⟩ := exists_fresh
      ("" :: (pairs (withoutRouter db edgeRouterId).enrollments).map (fun e => e.2.token))
    rw [List.mem_cons, not_or] at htok
    obtain ⟨e, db₁, h₁, he₁⟩ := reEnroll_taken hr hx ⟨htok.1, tokenTaken_fresh htok.2⟩
    obtain ⟨e', db₂, h₂, he₂⟩ := reEnroll_taken hr hy ⟨htok.1, tokenTaken_fresh htok.2⟩
    have heq := h (reading 0 x token "") (reading 0 y token "")
    rw [h₁, h₂, Option.some.injEq] at heq
    rw [heq, he₂] at he₁
    exact insert_ne_insert hne hx.2 he₁.symm
  · refine iff_of_true (fun r r' => ?_) hr
    simp [applyReEnrollEdgeRouter, AList.lookup_eq_none.mpr hr]

theorem createAuthenticator_ok (hid : id ≠ "" ∧ id ∉ db.authenticators) (h : Storable db entity) :
    ∃ row, persist (fun _ => true) { method := entity.method, identityId := entity.identityId } entity = some row ∧
      createAuthenticator db id entity = some { db with authenticators := db.authenticators.insert id row } := by
  obtain ⟨row, hp, hf⟩ := h
  refine ⟨row, hp, ?_⟩
  rw [createAuthenticator, if_pos hid, hp, bind_some, if_pos hf]

theorem createAuthenticator_some (h : createAuthenticator db id entity = some db') :
    (id ≠ "" ∧ id ∉ db.authenticators) ∧ Storable db entity := by
  unfold createAuthenticator at h
  split at h
  · rename_i hid
    obtain ⟨row, hp, hs⟩ := bind_eq_some_iff.mp h
    split at hs
    · exact ⟨hid, row, hp, by assumption⟩
    · cases hs
  · cases h

theorem createAuthenticator_varies (h : Storable db entity) :
    ¬ ∀ r r', createAuthenticator db (idOf r "") entity = createAuthenticator db (idOf r' "") entity := by
  intro hall
  obtain ⟨x, y, hne, hx, hy⟩ := exists_new_ids db.authenticators
  obtain ⟨row, -, h₁⟩ := createAuthenticator_ok hx h
  obtain ⟨row', -, h₂⟩ := createAuthenticator_ok hy h
  have heq : createAuthenticator db x entity = createAuthenticator db y entity :=
    hall (reading 0 x "" "") (reading 0 y "" "")
  rw [h₁, h₂, Option.some.injEq, Database.mk.injEq] at heq
  exact insert_ne_insert hne hx.2 heq.2.1

theorem createAuthenticator_uniform (h : id ≠ "" ∨ ¬ Storable db entity) (r r' : Reading) :
    createAuthenticator db (idOf r id) entity = createAuthenticator db (idOf r' id) entity := by
  rcases h with hid | hs
  · rw [idOf_given hid, idOf_given hid]
  · have hnone : ∀ j, createAuthenticator db j entity = none := fun j =>
      eq_none_iff_forall_ne_some.mpr (fun db' h => hs (createAuthenticator_some h).2)
    rw [hnone, hnone]

theorem uniform_replace_iff {enrollmentId : Id} {authenticator : Authenticator} :
    Uniform (apply c) db (.replaceEnrollment enrollmentId id authenticator) ↔
      Settled c db (.replaceEnrollment enrollmentId id authenticator) := by
  simp only [Uniform, apply, applyReplace, Settled]
  by_cases he : enrollmentId ∈ db.enrollments
  · simp only [he, not_true_eq_false, false_or]
    by_cases hs : id ≠ "" ∨ ¬ Storable db authenticator
    · have hs' : id ≠ "" ∨ ¬ Storable { db with enrollments := db.enrollments.erase enrollmentId } authenticator := hs
      exact iff_of_true (createAuthenticator_uniform hs') hs
    · refine iff_of_false (fun h => ?_) hs
      rw [not_or, not_not, not_not] at hs
      obtain ⟨rfl, hs⟩ := hs
      have hs' : Storable { db with enrollments := db.enrollments.erase enrollmentId } authenticator := hs
      exact createAuthenticator_varies hs' h
  · simp only [if_neg he]
    exact iff_of_true (fun _ _ => trivial) (.inr (.inl he))

/-- The fit of an authenticator does not depend on its password. -/
theorem persist_hashed {old row : StoredAuthenticator} (auth' : AuthenticatorUpdb)
    (h : persist writes old ⟨.updb, identityId, .updb auth⟩ = some row) (hu : auth'.username = auth.username) :
    ∃ row', persist writes old ⟨.updb, identityId, .updb auth'⟩ = some row' ∧
      row'.updb.password = pick (writes .password) auth'.password old.updb.password ∧
        ∀ others, db.authenticatorFits others row' = db.authenticatorFits others row := by
  cases h
  refine ⟨_, rfl, rfl, fun others => ?_⟩
  simp [Database.authenticatorFits, clashes, hu]

theorem storable_hashed {auth' : AuthenticatorUpdb} (hu : auth'.username = auth.username)
    (h : Storable db ⟨.updb, identityId, .updb auth⟩) : Storable db ⟨.updb, identityId, .updb auth'⟩ := by
  obtain ⟨row, hp, hf⟩ := h
  obtain ⟨row', hp', -, hfits⟩ := persist_hashed auth' hp hu
  exact ⟨row', hp', (hfits db.authenticators).trans hf⟩

theorem uniform_createUpdb_iff :
    Uniform (apply c) db (.createAuthenticator id ⟨.updb, identityId, .updb auth⟩) ↔
      Settled c db (.createAuthenticator id ⟨.updb, identityId, .updb auth⟩) := by
  simp only [Uniform, apply, applyCreateAuthenticator, Settled]
  cases hmethod : db.hasMethod identityId .updb with
  | true => exact iff_of_true (fun _ _ => rfl) (fun h => by cases h.1)
  | false =>
    simp only [Bool.false_eq_true, if_false, true_and]
    have hstor : ∀ r, Storable db ⟨.updb, identityId, .updb (hashPassword c r auth)⟩ ↔
        Storable db ⟨.updb, identityId, .updb auth⟩ := fun r => ⟨storable_hashed rfl, storable_hashed rfl⟩
    by_cases hp : (id = "" ∨ id ∉ db.authenticators) ∧ Storable db ⟨.updb, identityId, .updb auth⟩
    · refine iff_of_false (fun h => ?_) (fun h => h hp)
      obtain ⟨x, -, -, hx, -⟩ := exists_new_ids db.authenticators
      have hid : ∀ salt, idOf (reading 0 x "" salt) id ≠ "" ∧ idOf (reading 0 x "" salt) id ∉ db.authenticators := by
        intro salt
        by_cases hblank : id = ""
        · subst hblank
          exact hx
        · rw [idOf_given hblank]
          exact ⟨hblank, hp.1.resolve_left hblank⟩
      obtain ⟨row, hrow, h₁⟩ := createAuthenticator_ok (hid "a") ((hstor (reading 0 x "" "a")).mpr hp.2)
      obtain ⟨row', hrow', h₂⟩ := createAuthenticator_ok (hid "b") ((hstor (reading 0 x "" "b")).mpr hp.2)
      have heq := h (reading 0 x "" "a") (reading 0 x "" "b")
      rw [h₁, h₂, Option.some.injEq, Database.mk.injEq] at heq
      have hrows : row = row' := insert_inj heq.2.1
      cases hrow
      cases hrow'
      have hsalt : "a" = "b" := congrArg (fun row => row.updb.salt) hrows
      exact absurd hsalt (by decide)
    · refine iff_of_true (fun r r' => ?_) hp
      have hnone : ∀ r, createAuthenticator db (idOf r id) ⟨.updb, identityId, .updb (hashPassword c r auth)⟩ = none := by
        intro r
        refine eq_none_iff_forall_ne_some.mpr (fun db' h => hp ?_)
        obtain ⟨hid, hstored⟩ := createAuthenticator_some h
        refine ⟨or_iff_not_imp_left.mpr (fun hblank => ?_), (hstor r).mp hstored⟩
        rw [idOf_given hblank] at hid
        exact hid.2
      rw [hnone r, hnone r']

theorem uniform_createCert_iff {auth : AuthenticatorCert} :
    Uniform (apply c) db (.createAuthenticator id ⟨.cert, identityId, .cert auth⟩) ↔
      Settled c db (.createAuthenticator id ⟨.cert, identityId, .cert auth⟩) := by
  simp only [Uniform, apply, applyCreateAuthenticator, Settled]
  cases hmethod : db.hasMethod identityId .cert with
  | true => exact iff_of_true (fun _ _ => rfl) (.inr (fun _ h => by cases h.1))
  | false =>
    simp only [true_and]
    rcases hcerts : c.certificates auth.pem with - | ⟨cert, - | ⟨-, -⟩⟩
    · exact iff_of_true (fun _ _ => rfl) (.inr (fun _ h => by cases h.1))
    · cases hv : c.verifies cert (db.rootPool c) with
      | false =>
            refine iff_of_true (fun _ _ => by simp [hv]) (.inr (fun cert' h => ?_))
            obtain ⟨h₁, h₂, -⟩ := h
            cases h₁
            rw [hv] at h₂
            cases h₂
      | true =>
            simp only [hv]
            by_cases hp : id ≠ "" ∨
                ¬ Storable db ⟨.cert, identityId, .cert { auth with fingerprint := c.fingerprint cert }⟩
            · refine iff_of_true (createAuthenticator_uniform hp) (hp.imp_right (fun hn cert' h => ?_))
              obtain ⟨h₁, -, h₃⟩ := h
              cases h₁
              exact hn h₃
            · refine iff_of_false (fun h => ?_) (fun h => hp (h.imp_right (fun hn hstor => hn cert ⟨rfl, hv, hstor⟩)))
              rw [not_or, not_not, not_not] at hp
              obtain ⟨rfl, hstor⟩ := hp
              exact createAuthenticator_varies hstor h
    · exact iff_of_true (fun _ _ => rfl) (.inr (fun _ h => by cases h.1))

theorem uniform_createAuthenticator_iff :
    Uniform (apply c) db (.createAuthenticator id entity) ↔ Settled c db (.createAuthenticator id entity) := by
  obtain ⟨method, -, subType⟩ := entity
  cases method with
  | updb =>
    cases subType with
    | updb auth => exact uniform_createUpdb_iff
    | cert auth => exact iff_of_true (fun _ _ => rfl) trivial
  | cert =>
    cases subType with
    | updb auth => exact iff_of_true (fun _ _ => rfl) trivial
    | cert auth => exact uniform_createCert_iff
  | other name => cases subType <;> exact iff_of_true (fun _ _ => rfl) trivial

theorem updateAuthenticator_ok {old row : StoredAuthenticator} (hl : db.authenticators.lookup id = some old)
    (hp : persist writes old entity = some row) (hf : db.authenticatorFits (db.authenticators.erase id) row = true) :
    updateAuthenticator db id writes entity = some { db with authenticators := db.authenticators.insert id row } := by
  rw [updateAuthenticator, hl, bind_some, hp, bind_some, if_pos hf]

theorem updateAuthenticator_some (h : updateAuthenticator db id writes entity = some db') :
    ∃ old row, db.authenticators.lookup id = some old ∧ persist writes old entity = some row ∧
      db.authenticatorFits (db.authenticators.erase id) row = true := by
  obtain ⟨old, hl, h⟩ := bind_eq_some_iff.mp h
  obtain ⟨row, hp, h⟩ := bind_eq_some_iff.mp h
  split at h
  · exact ⟨old, row, hl, hp, by assumption⟩
  · cases h

section

variable (hsalted : ∀ password, ∃ salt salt', c.hash password salt ≠ c.hash password salt')
include hsalted

/-- Two salts give two passwords to store. -/
theorem uniform_updateUpdb_iff :
    Uniform (apply c) db (.updateAuthenticator id ⟨.updb, identityId, .updb auth⟩ fields unrestricted) ↔
      Settled c db (.updateAuthenticator id ⟨.updb, identityId, .updb auth⟩ fields unrestricted) := by
  simp only [Uniform, apply, applyUpdateAuthenticator, Settled]
  cases hw : fields.all (fun fs => decide (.password ∈ fs)) with
  | false => exact iff_of_true (fun _ _ => rfl) (fun _ _ h => by cases h.1)
  | true =>
    simp only [if_true, true_and]
    have hpassword : updates fields unrestricted .password = true := by simp [updates, hw]
    constructor
    · rintro h old row ⟨hl, hp, hf⟩
      obtain ⟨salt, salt', hne⟩ := hsalted auth.password
      have hstored : ∀ salt, ∃ row', row'.updb.password = c.hash auth.password salt ∧
          updateAuthenticator db id (updates fields unrestricted)
            ⟨.updb, identityId, .updb (hashPassword c (reading 0 "" "" salt) auth)⟩ =
              some { db with authenticators := db.authenticators.insert id row' } := by
        intro salt
        obtain ⟨row', hp', hpass, hfits⟩ :=
          persist_hashed (hashPassword c (reading 0 "" "" salt) auth) hp rfl
        rw [hpassword] at hpass
        exact ⟨row', hpass, updateAuthenticator_ok hl hp' ((hfits _).trans hf)⟩
      obtain ⟨row₁, hpass₁, h₁⟩ := hstored salt
      obtain ⟨row₂, hpass₂, h₂⟩ := hstored salt'
      have heq := h (reading 0 "" "" salt) (reading 0 "" "" salt')
      rw [h₁, h₂, Option.some.injEq, Database.mk.injEq] at heq
      have hrows : row₁ = row₂ := insert_inj heq.2.1
      exact hne (hpass₁.symm.trans ((congrArg (fun row => row.updb.password) hrows).trans hpass₂))
    · intro h r r'
      have hnone : ∀ r, updateAuthenticator db id (updates fields unrestricted)
          ⟨.updb, identityId, .updb (hashPassword c r auth)⟩ = none := by
        intro r
        refine eq_none_iff_forall_ne_some.mpr (fun db' hs => ?_)
        obtain ⟨old, row, hl, hp, hf⟩ := updateAuthenticator_some hs
        obtain ⟨row', hp', -, hfits⟩ := persist_hashed auth hp rfl
        exact h old row' ⟨hl, hp', (hfits _).trans hf⟩
      rw [hnone r, hnone r']

/-- A kind that does not match the method is not stored, and what is hashed for
another method is not written. -/
theorem uniform_update_iff : Uniform (apply c) db (.updateAuthenticator id entity fields unrestricted) ↔
    Settled c db (.updateAuthenticator id entity fields unrestricted) := by
  obtain ⟨method, -, subType⟩ := entity
  cases subType with
  | updb auth =>
    cases method with
    | updb => exact uniform_updateUpdb_iff hsalted
    | cert => exact iff_of_true (fun _ _ => rfl) trivial
    | other name => exact iff_of_true (fun _ _ => rfl) trivial
  | cert auth => cases method <;> exact iff_of_true (fun _ _ => rfl) trivial

theorem uniform_iff {cmd : Command} : Uniform (apply c) db cmd ↔ Settled c db cmd := by
  cases cmd with
  | createEnrollment id e =>
    by_cases hr : e.edgeRouterId.isSome ∨ e.transitRouterId.isSome
    · exact uniform_router_iff hr
    · exact uniform_identity_iff hr
  | reEnrollEdgeRouter edgeRouterId => exact uniform_reEnroll_iff
  | replaceEnrollment enrollmentId id authenticator => exact uniform_replace_iff
  | createAuthenticator id entity => exact uniform_createAuthenticator_iff
  | updateAuthenticator id entity fields unrestricted => exact uniform_update_iff hsalted

end

/-- Whatever each of two controllers reads, they fail and succeed together and
hold the same data, exactly if every command is settled where it comes. -/
theorem controllers_agree_iff (hsalted : ∀ password, ∃ salt salt', c.hash password salt ≠ c.hash password salt')
    (r₀ : Reading) (db : Database) (cmds : List Command) :
    (∀ ops : List (Command × Reading × Reading), ops.map Prod.fst = cmds → Agree (apply c) db db ops) ↔
      Meets (Settled c) (next (apply c) r₀) db cmds := by
  have hsettled : Uniform (apply c) = Settled c := by
    funext db cmd
    exact propext (uniform_iff hsalted)
  rw [← hsettled]
  exact agree_iff_meets r₀ db cmds

def common : Common where
  hash := fun password salt => salt ++ password
  certificates := fun pem => if pem = "" then [] else [pem]
  fingerprint := fun cert => "print of " ++ cert
  verifies := fun _ _ => true
  caPems := ""
  edgeRouterDuration := 10800000000000

def routerAndIdentity : Database :=
  { edgeRouters := AList.singleton "r" ⟨some "print", some "pem", true⟩, identities := AList.singleton "i" ⟨false⟩ }

def certOf (pem : String) : Authenticator := ⟨.cert, "i", .cert { fingerprint := "print", pem := pem }⟩

/-- With ids and token given the commands do not differ. -/
theorem given_ids_agree :
    let cmds := [.createEnrollment "e" { method := .edgeRouterOtt, edgeRouterId := some "r", token := "t" },
      .replaceEnrollment "e" "a" (certOf "pem"), .updateAuthenticator "a" (certOf "other") none true]
    ∀ ops : List (Command × Reading × Reading), ops.map Prod.fst = cmds →
      Agree (apply common) routerAndIdentity routerAndIdentity ops := by
  intro cmds
  have hsalted : ∀ password, ∃ salt salt', common.hash password salt ≠ common.hash password salt' := by
    refine fun password => ⟨"", "a", fun h => ?_⟩
    have hlen : ("" ++ password).length = ("a" ++ password).length := congrArg String.length h
    rw [String.length_append, String.length_append] at hlen
    exact absurd (Nat.add_right_cancel hlen) (by decide)
  refine (controllers_agree_iff hsalted (reading 0 "x" "t" "") routerAndIdentity cmds).mpr ⟨?_, ?_, trivial, trivial⟩
  · simp [Settled]
  · exact .inl (by decide)

/-- The same re-enrollment is stored under two ids, and the command that replaces
it then succeeds on one controller only. -/
theorem reEnroll_diverges :
    let mine := reading 0 "x" "t" ""
    let theirs := reading 0 "y" "t" ""
    let reEnroll := Command.reEnrollEdgeRouter "r"
    let replace := Command.replaceEnrollment "x" "a" (certOf "pem")
    let db := next (apply common) mine routerAndIdentity reEnroll
    let db' := next (apply common) theirs routerAndIdentity reEnroll
    db.enrollments.keys = ["x"] ∧ db'.enrollments.keys = ["y"] ∧
      (apply common mine db replace).isSome = true ∧ (apply common theirs db' replace).isSome = false ∧
        ¬ Agree (apply common) routerAndIdentity routerAndIdentity [(reEnroll, mine, theirs), (replace, mine, theirs)] := by
  intro mine theirs reEnroll replace db db'
  have hmine : db.enrollments.keys = ["x"] := by decide
  have htheirs : db'.enrollments.keys = ["y"] := by decide
  refine ⟨hmine, htheirs, by decide, by decide, fun h => ?_⟩
  have hkeys : db.enrollments.keys = db'.enrollments.keys := congrArg (fun db => db.enrollments.keys) h.1.2
  exact absurd hkeys (by decide)

end Zt.EnrollmentReplicas
