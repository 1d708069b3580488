import Zt.SnapshotSync

namespace Zt.SenderStates

open Tables Runs EdgeCtrl RouterSender SnapshotSync
open RouterDataModelSender (handle)

inductive DiffType
  | add
  | sub
  | mod

structure DiffEntry where
  entityType : String
  id : Id
  diffType : DiffType
  detail : String

section

variable {V : Type} (entityType : String)

/-- The comparison of two stored values may panic. -/
def diffEntry (differ : V → V → Option (List String)) (m₂ : IdTable V) (e : Id × V) : Option (List DiffEntry) :=
  match m₂.lookup e.1 with
  | none => some [⟨entityType, e.1, .sub, "entity missing"⟩]
  | some v₂ => (differ e.2 v₂).map (fun found => found.map (fun detail => ⟨entityType, e.1, .mod, detail⟩))

def diffMaps (differ : V → V → Option (List String)) (m₁ m₂ : IdTable V) : Option (List DiffEntry) := do
  let details ← (pairs m₁).mapM (diffEntry entityType differ m₂)
  let hasMissing := m₁.keys.any (fun key => key ∉ m₂)
  if m₁.keys.length ≠ m₂.keys.length ∨ hasMissing then
    return details.flatten ++
      (m₂.keys.filter (fun key => key ∉ m₁)).map (fun key => ⟨entityType, key, .add, "entity unexpected"⟩)
  return details.flatten

def diffType (differ : V → V → List String) (m₁ m₂ : IdTable V) : Option (List DiffEntry) :=
  diffMaps entityType (fun v w => some (differ v w)) m₁ m₂

end

/-- What the comparison library reports of two values. It panics at a struct with
unexported fields unless its type is to be ignored, which leaves the configs of a
service for an identity and the time at which a revocation expires. A key that is
parsed may be nil, and is given as it is printed. -/
structure Differs where
  configType : DataStateConfigType → DataStateConfigType → List String
  config : DataStateConfig → DataStateConfig → List String
  identity : Option SenderIdentity → Option SenderIdentity → Option (List String)
  service : DataStateService → DataStateService → List String
  servicePolicy : SenderServicePolicy → SenderServicePolicy → List String
  postureCheck : DataStatePostureCheck → DataStatePostureCheck → List String
  publicKey : DataStatePublicKey → DataStatePublicKey → List String
  revocation : DataStateRevocation → DataStateRevocation → Option (List String)
  parseKey : DataStatePublicKey → Option (Option String)

structure Differs.Documented (differs : Differs) : Prop where
  identity : ∀ v w, (differs.identity v w).isSome ↔
    ∀ x y, v = some x → w = some y → ∀ service ∈ x.serviceConfigs, service ∉ y.serviceConfigs
  revocation : ∀ v w, (differs.revocation v w).isSome ↔ v.expiresAt = none ∨ w.expiresAt = none

/-- Both models are left with sorted usages. -/
def sortUsages (key : DataStatePublicKey) : DataStatePublicKey := { key with usages := key.usages.mergeSort }

def cachedKeyDiff (a b : Option String) : List String :=
  if a = none ∨ b = none then
    ["cached public key is nil: orig: " ++ a.getD "<nil>" ++ ", dest: " ++ b.getD "<nil>"]
  else []

def diff (differs : Differs) (rdm : RouterDataModelSender) : Option RouterDataModelSender → Option (List DiffEntry)
  | none => some [⟨"router-data-model", "root", .sub, "router data model not present"⟩]
  | some o => do
    let found ← [ diffType "configType" differs.configType rdm.configTypes o.configTypes,
      diffType "config" differs.config rdm.configs o.configs,
      diffMaps "identity" differs.identity rdm.identities o.identities,
      diffType "service" differs.service rdm.services o.services,
      diffType "service-policy" differs.servicePolicy rdm.servicePolicies o.servicePolicies,
      diffType "posture-check" differs.postureCheck rdm.postureChecks o.postureChecks,
      diffType "public-keys" (fun v w => differs.publicKey (sortUsages v) (sortUsages w)) rdm.publicKeys o.publicKeys,
      diffMaps "revocations" differs.revocation rdm.revocations o.revocations,
      diffType "cached-public-keys" cachedKeyDiff (collect rdm.publicKeys (fun _ => differs.parseKey))
        (collect o.publicKeys (fun _ => differs.parseKey)) ].mapM id
    return found.flatten

/-- The models have no identity with configs for one service in both, and no
revocation that expires in both. -/
structure Comparable (rdm o : RouterDataModelSender) : Prop where
  identities : ∀ i x y, rdm.identity i = some x → o.identity i = some y →
    ∀ service ∈ x.serviceConfigs, service ∉ y.serviceConfigs
  revocations : ∀ id v w, rdm.revocations.lookup id = some v → o.revocations.lookup id = some w →
    v.expiresAt = none ∨ w.expiresAt = none

def Whole (s : RouterDataModelSender) : Prop := ∀ i x, s.identities.lookup i = some x → x.isSome

/-- A change of the policies of identities names identities that the model has. -/
def NamesPresent (s : RouterDataModelSender) (event : Event) : Prop :=
  match event.model with
  | .servicePolicyChange change =>
    change.relatedEntityType = .relatedIdentity → ∀ i ∈ change.relatedEntityIds, i ∈ s.identities
  | _ => True

theorem isSome_mapM {A B : Type} {f : A → Option B} {l : List A} : (l.mapM f).isSome ↔ ∀ a ∈ l, (f a).isSome := by
  induction l with
  | nil => simp
  | cons a l ih =>
    rw [List.mapM_cons, List.forall_mem_cons, ← ih]
    cases f a <;> cases l.mapM f <;> simp

variable {V : Type} {entityType : String} {m₁ m₂ : IdTable V}

theorem isSome_diffMaps {differ : V → V → Option (List String)} : (diffMaps entityType differ m₁ m₂).isSome ↔
    ∀ key v w, m₁.lookup key = some v → m₂.lookup key = some w → (differ v w).isSome := by
  have hdetails : (diffMaps entityType differ m₁ m₂).isSome ↔
      ∀ e ∈ pairs m₁, (diffEntry entityType differ m₂ e).isSome := by
    rw [← isSome_mapM, diffMaps]
    cases (pairs m₁).mapM (diffEntry entityType differ m₂) with
    | none => rfl
    | some details =>
      simp only [Option.bind_eq_bind, Option.bind_some]
      split <;> simp
  rw [hdetails]
  constructor
  · intro h key v w hv hw
    simpa [diffEntry, hw] using h (key, v) (mem_pairs.mpr hv)
  · intro h e he
    unfold diffEntry
    split
    · rfl
    · rename_i w hw
      simpa using h e.1 e.2 w (mem_pairs.mp he) hw

theorem isSome_diffType {differ : V → V → List String} : (diffType entityType differ m₁ m₂).isSome :=
  isSome_diffMaps.mpr (fun _ _ _ _ _ => rfl)

theorem isSome_diff {differs : Differs} (hd : differs.Documented) {rdm o : RouterDataModelSender} :
    (diff differs rdm (some o)).isSome ↔ Comparable rdm o := by
  have hidentities : (diffMaps "identity" differs.identity rdm.identities o.identities).isSome ↔
      ∀ i x y, rdm.identity i = some x → o.identity i = some y →
        ∀ service ∈ x.serviceConfigs, service ∉ y.serviceConfigs := by
    simp only [isSome_diffMaps, hd.identity, identity_eq_some]
    exact ⟨fun h i x y hx hy => h i _ _ hx hy x y rfl rfl, fun h i v w hv hw x y hx hy => h i x y (hx ▸ hv) (hy ▸ hw)⟩
  have hrevocations : (diffMaps "revocations" differs.revocation rdm.revocations o.revocations).isSome ↔
      ∀ id v w, rdm.revocations.lookup id = some v → o.revocations.lookup id = some w →
        v.expiresAt = none ∨ w.expiresAt = none := by
    simp only [isSome_diffMaps, hd.revocation]
  have hfound : (diff differs rdm (some o)).isSome ↔ (diffMaps "identity" differs.identity rdm.identities
      o.identities).isSome ∧ (diffMaps "revocations" differs.revocation rdm.revocations o.revocations).isSome := by
    simp only [diff, bind_pure_comp, Option.map_eq_map, Option.isSome_map]
    rw [isSome_mapM]
    simp [isSome_diffType]
  rw [hfound, hidentities, hrevocations]
  exact ⟨fun h => ⟨h.1, h.2⟩, fun h => ⟨h.identities, h.revocations⟩⟩

variable {s : RouterDataModelSender}

theorem whole_of_named (h : Named s) : Whole s := by
  intro i x hx
  obtain ⟨y, rfl, -⟩ := h.identity i x hx
  rfl

theorem named_step {event : Event} (h : Named s) (he : NamesPresent s event) : Named (s.handle event) := by
  apply named_handle h
  intro c hc ht i hi
  rw [NamesPresent, hc] at he
  obtain ⟨x, hx⟩ := mem_iff_lookup.mp (he ht i hi)
  obtain ⟨y, rfl, -⟩ := h.identity i x hx
  exact Option.isSome_iff_exists.mpr ⟨y, identity_eq_some.mpr hx⟩

theorem named_new {timelineId : String} : Named { timelineId := timelineId } where
  identity := fun _ _ h => by cases h
  service := fun _ _ h => by cases h
  policy := fun _ _ h => by cases h
  check := fun _ _ h => by cases h

/-- In every run whose policy changes name known identities, no identity is nil
and a full state can be made. A comparison with another model is made unless it
comes to what the library does not take. -/
theorem sender_identities_present (timelineId : String) (events : List Event)
    (h : Meets NamesPresent handle { timelineId := timelineId } events)
    (s : RouterDataModelSender) (hs : s = events.foldl handle { timelineId := timelineId }) :
    Whole s ∧ (∀ index, ∃ state, s.getDataStateAlreadyLocked index = some state) ∧
      ∀ differs : Differs, differs.Documented → (diff differs s none).isSome ∧
        ∀ o, ((diff differs s (some o)).isSome ↔ Comparable s o) ∧
          ((diff differs o (some s)).isSome ↔ Comparable o s) := by
  have hnamed : Named s := by
    rw [hs]
    exact h.invariant Named (fun _ _ hn he => named_step hn he) named_new
  refine ⟨whole_of_named hnamed, fun index => ?_, fun differs hd => ⟨rfl, fun o => ⟨isSome_diff hd, isSome_diff hd⟩⟩⟩
  obtain ⟨w, hw, -⟩ := walk_returns hnamed
  rw [RouterDataModelSender.getDataStateAlreadyLocked, hw]
  exact ⟨_, rfl⟩

def policyChange (i : Id) : Event :=
  { action := .create, model := .servicePolicyChange ⟨"p", [i], .relatedIdentity, true⟩ }

def identityEvent (serviceConfigs : IdTable (IdTable Id)) : Event :=
  { action := .create, model := .identity { id := "ann", serviceConfigs := serviceConfigs } }

def linked : List Event := [identityEvent ∅, policyChange "ann"]

/-- Differences are not told apart. -/
def plainDiffs : Differs where
  configType _ _ := []
  config _ _ := []
  identity v w := if v.any (fun x => w.any (fun y => x.serviceConfigs.keys.any (fun service =>
    service ∈ y.serviceConfigs))) then none else some []
  service _ _ := []
  servicePolicy _ _ := []
  postureCheck _ _ := []
  publicKey _ _ := []
  revocation v w := if v.expiresAt.isSome ∧ w.expiresAt.isSome then none else some []
  parseKey key := some (some key.kid)

theorem plainDiffs_documented : plainDiffs.Documented where
  identity v w := by
    cases v <;> cases w <;> simp [plainDiffs, AList.mem_keys]
  revocation v w := by
    cases hv : v.expiresAt <;> cases hw : w.expiresAt <;> simp [plainDiffs, hv, hw]

theorem sender_identities_present_after_link : Meets NamesPresent handle { timelineId := "t" } linked ∧
      ∃ s, s = linked.foldl handle { timelineId := "t" } ∧ Whole s ∧
        (∃ state, s.getDataStateAlreadyLocked 1 = some state) ∧ (diff plainDiffs s (some s)).isSome := by
  have h : Meets NamesPresent handle { timelineId := "t" } linked := by
    refine ⟨trivial, fun _ i hi => ?_, trivial⟩
    cases List.mem_singleton.mp hi
    decide
  obtain ⟨hwhole, hstate, hdiff⟩ := sender_identities_present "t" linked h _ rfl
  have hnone : ∀ e ∈ pairs (linked.foldl handle { timelineId := "t" }).identities,
      e.2.all (fun x => x.serviceConfigs.keys.isEmpty) = true := by decide
  refine ⟨h, _, rfl, hwhole, hstate 1, ((hdiff plainDiffs plainDiffs_documented).2 _).1.mpr ⟨?_, ?_⟩⟩
  · intro i x y hx _ service hservice
    have hempty := hnone _ (mem_pairs.mpr (identity_eq_some.mp hx))
    have hkey := AList.mem_keys.mp hservice
    simp_all
  · exact fun _ _ _ hv => by cases hv

/-- The upsert of a link of an unknown identity stores nil, which the next full
state dereferences. An identity with configs for a service makes a comparison
panic. -/
theorem unknown_identity_stored_as_nil :
    (∃ events : List Event, ∃ s, s = events.foldl handle { timelineId := "t" } ∧
      (s.identities.lookup "ghost").map Option.isSome = some false ∧
      ∀ index, (s.getDataStateAlreadyLocked index).isSome = false) ∧
    ∃ events : List Event, ∃ s, s = events.foldl handle { timelineId := "t" } ∧
      ∀ differs : Differs, differs.Documented → ¬ (diff differs s (some s)).isSome := by
  refine ⟨⟨[policyChange "ghost"], _, rfl, rfl, fun _ => rfl⟩,
    [identityEvent (AList.insert "web" (AList.insert "ct" "c" ∅) ∅)], _, rfl, fun differs hd hsome => ?_⟩
  have hcomparable := (isSome_diff hd).mp hsome
  exact hcomparable.identities "ann" _ _ rfl rfl "web" (by decide) (by decide)

end Zt.SenderStates
