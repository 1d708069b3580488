import Zt.SubscriptionChecks

namespace Zt.SubscriptionScans

open Tables Notices EdgeCtrl RouterModel Subscriptions SubscriptionChecks

def notice : SubscriberEvent → Option (Kind × Id)
  | .identityCreated i => some (.added, i)
  | .checkForIdentityChanges i => some (.updated, i)
  | .identityDeleted i => some (.deleted, i)
  | .syncAllSubscribers => none

def writer : Producer → Writer Id
  | .queueing kind i => .announcing kind i
  | .offering kind i => .offering kind i
  | .unlinking _ _ _ => .idle
  | .idle => .idle

def board (x : System) : Board Id Identity IdentitySubscription where
  value := valueOf x.rdm
  seen i := x.rdm.subs.subscriptions.lookup i
  flag := flagOf x.rdm
  queue := x.rdm.subs.events.filterMap notice
  scan := x.rdm.subs.scanPending
  writer := writer x.producer

variable {rdm₀ rdm rdm' : RouterDataModel} {i : Id} {x : System}

theorem isSome_seen : ((board x).seen i).isSome ↔ i ∈ x.rdm.subs.subscriptions :=
  AList.lookup_isSome

theorem takes_of_checked {events : List SubscriberEvent} {kind : Kind}
    (hk : x.rdm.subs.events.filterMap notice = (kind, i) :: events.filterMap notice)
    (hc : Checked rdm₀ true kind { x.rdm with subs := { x.rdm.subs with events := events } } rdm' i) :
    Takes (Shows rdm₀) (board x) (board { x with rdm := rdm' }) kind i := by
  constructor
  · simp only [board, hc.events]
    exact hk
  · exact hc.tracks.value
  · exact hc.scan
  · rfl
  · intro j kd hj
    have hiff := hc.flag j kd (isSome_seen.mp hj)
    simp only [true_and] at hiff
    exact hiff
  · exact hc.others
  · intro s' hs' hdel
    exact ⟨isSome_seen.mpr (hc.kept s' hs').1, hc.believed hdel s' hs'⟩
  · intro s' hs' hdel
    obtain ⟨s, hs⟩ := mem_iff_lookup.mp (hc.kept s' hs').1
    refine ⟨s, hs, ?_⟩
    rcases hc.looked hdel s' hs' with hshows | ⟨hsame, hno⟩
    · exact .inl hshows
    · rw [hs] at hsame
      cases hsame
      exact .inr ⟨rfl, fun hboth => hno ⟨fun _ => hboth.1, hboth.2⟩⟩

theorem router_of_deleted (rdm : RouterDataModel) {clear : Bool}
    (hmem : i ∈ (checkSubsForDeletedIdentity clear rdm i).subs.subscriptions) :
    (rdm.subs.subscriptions.lookup i).any (·.isRouterIdentity) = true := by
  unfold checkSubsForDeletedIdentity at hmem
  simp only [(lookup_complete clear rdm i .deleted).1] at hmem
  cases hs : rdm.subs.subscriptions.lookup i with
  | none =>
    simp only [hs, (lookup_complete clear rdm i .deleted).1] at hmem
    exact absurd hmem (AList.lookup_eq_none.mp hs)
  | some sub =>
    simp only [hs] at hmem
    split at hmem
    · simpa using ‹sub.isRouterIdentity = true›
    · simp at hmem

/-- What a scan does with one entry. -/
structure Scanned (rdm₀ rdm rdm' : RouterDataModel) (i : Id) (flags : CheckFlags) : Prop extends Local rdm rdm' i where
  flag : ∀ j kd, j ∈ rdm'.subs.subscriptions → (flagOf rdm' j kd = true ↔ flagOf rdm j kd = true ∧ j ≠ i)
  believed : flags.deleted = true → ∀ sub', rdm'.subs.subscriptions.lookup i = some sub' →
    Shows rdm₀ sub' none ∧ (rdm.subs.subscriptions.lookup i).any (·.isRouterIdentity) = true
  looked : flags.deleted = false → ∀ sub', rdm'.subs.subscriptions.lookup i = some sub' →
    Shows rdm₀ sub' (valueOf rdm i) ∨ (rdm.subs.subscriptions.lookup i = some sub' ∧
      ∀ kind : Kind, kind.Helps (valueOf rdm i) → CheckFlags.has flags kind = false)

theorem scanned_entry (h : Steady rdm₀ rdm) (flags : CheckFlags) :
    Scanned rdm₀ rdm (scanEntry rdm (i, flags)) i flags := by
  let rdm₁ : RouterDataModel :=
    { rdm with subs := { rdm.subs with updatedIdentities := rdm.subs.updatedIdentities.erase i } }
  have hlocal₁ : Local rdm rdm₁ i := .of_flags h
  have hflag₁ : ∀ j kd, flagOf rdm₁ j kd = true ↔ flagOf rdm j kd = true ∧ j ≠ i := by
    intro j kd
    simp only [flagOf, rdm₁, lookup_erase_eq]
    by_cases hj : j = i
    · simp only [hj, if_true, ne_eq, not_true, and_false]
      cases kd <;> decide
    · simp [hj]
  have hsteady₁ := hlocal₁.steady h
  cases hd : flags.deleted with
  | true =>
    have hc := checked_deleted hsteady₁ false i
    have heq : scanEntry rdm (i, flags) = checkSubsForDeletedIdentity false rdm₁ i := by
      simp [scanEntry, hd, rdm₁]
    rw [heq]
    refine ⟨hlocal₁.trans hc.toLocal, fun j kd hj => ?_, fun _ sub' hs' => ⟨hc.believed rfl sub' hs', ?_⟩, ?_⟩
    · rw [hc.flag j kd hj, hflag₁]
      simp
    · exact router_of_deleted rdm₁ (mem_of_lookup hs')
    · rw [hd]
      intro h
      cases h
  | false =>
    -- the added flag first, then the updated one
    obtain ⟨rdm₂, hrdm₂, hlocal₂, hflag₂, hlooked₂⟩ : ∃ rdm₂,
        rdm₂ = (if flags.added then checkSubsForNewIdentity false rdm₁ i else rdm₁) ∧ Local rdm₁ rdm₂ i ∧
        (∀ j kd, j ∈ rdm₂.subs.subscriptions → (flagOf rdm₂ j kd = true ↔ flagOf rdm₁ j kd = true)) ∧
        ∀ sub', rdm₂.subs.subscriptions.lookup i = some sub' → Shows rdm₀ sub' (valueOf rdm i) ∨
          (rdm.subs.subscriptions.lookup i = some sub' ∧
            ¬ (flags.added = true ∧ Kind.added.Helps (valueOf rdm i))) := by
      refine ⟨_, rfl, ?_⟩
      split
      · have hc := checked_new hsteady₁ false i
        refine ⟨hc.toLocal, fun j kd hj => by rw [hc.flag j kd hj]; simp, fun sub' hs' => ?_⟩
        rcases hc.looked (fun h => by cases h) sub' hs' with hshows | ⟨hsame, hno⟩
        · exact .inl hshows
        · exact .inr ⟨hsame, fun hboth => hno ⟨fun h => (by cases h), hboth.2⟩⟩
      · rename_i hadded
        exact ⟨.of_flags hsteady₁, fun _ _ _ => .rfl, fun sub' hs' => .inr ⟨hs', fun hboth =>
          hadded hboth.1⟩⟩
    have hsteady₂ := hlocal₂.steady hsteady₁
    have hvalue₂ : valueOf rdm₂ = valueOf rdm := hlocal₂.tracks.value
    have heq : scanEntry rdm (i, flags) =
        if flags.updated then syncSubscriptionIfRequired false rdm₂ i else rdm₂ := by
      simp [scanEntry, hd, rdm₁, hrdm₂]
    rw [heq]
    cases hu : flags.updated with
    | true =>
      have hc := checked_sync hsteady₂ false i
      simp only [if_true]
      refine ⟨(hlocal₁.trans hlocal₂).trans hc.toLocal, fun j kd hj => ?_, ?_, fun _ sub' hs' => ?_⟩
      · rw [hc.flag j kd hj, ← hflag₁]
        obtain ⟨sub', hs'⟩ := mem_iff_lookup.mp hj
        have hj₂ : j ∈ rdm₂.subs.subscriptions := by
          by_cases hji : j = i
          · subst hji
            exact (hc.kept sub' hs').1
          · rw [hc.others j hji] at hs'
            exact mem_of_lookup hs'
        rw [hflag₂ j kd hj₂]
        simp
      · rw [hd]
        intro h
        cases h
      · rcases hc.looked (fun h => by cases h) sub' hs' with hshows | ⟨-, hno⟩
        · rw [hvalue₂] at hshows
          exact .inl hshows
        · exact absurd ⟨fun h => (by cases h), trivial⟩ hno
    | false =>
      simp only [Bool.false_eq_true, if_false]
      refine ⟨hlocal₁.trans hlocal₂, fun j kd hj => by rw [hflag₂ j kd hj, hflag₁], ?_, fun _ sub' hs' => ?_⟩
      · rw [hd]
        intro h
        cases h
      · rcases hlooked₂ sub' hs' with hshows | ⟨hsame, hno⟩
        · exact .inl hshows
        · refine .inr ⟨hsame, fun kind hhelps => ?_⟩
          cases kind with
          | added =>
            cases ha : flags.added with
            | false => exact ha
            | true => exact absurd ⟨ha, hhelps⟩ hno
          | updated => exact hu
          | deleted => exact hd

/-- What a scan has done after some of its entries. -/
structure ScannedAll (rdm₀ rdm rdm' : RouterDataModel) (entries : List (Id × CheckFlags)) : Prop where
  tracks : Tracks rdm rdm'
  events : rdm'.subs.events = rdm.subs.events
  scan : rdm'.subs.scanPending = rdm.subs.scanPending
  others : ∀ j, j ∉ entries.map Prod.fst → rdm'.subs.subscriptions.lookup j = rdm.subs.subscriptions.lookup j
  kept : ∀ j sub', rdm'.subs.subscriptions.lookup j = some sub' → j ∈ rdm.subs.subscriptions ∧ KeptSub j sub'
  flag : ∀ j kd, j ∈ rdm'.subs.subscriptions →
    (flagOf rdm' j kd = true ↔ flagOf rdm j kd = true ∧ j ∉ entries.map Prod.fst)
  believed : ∀ j flags, (j, flags) ∈ entries → flags.deleted = true → ∀ sub',
    rdm'.subs.subscriptions.lookup j = some sub' →
    Shows rdm₀ sub' none ∧ (rdm.subs.subscriptions.lookup j).any (·.isRouterIdentity) = true
  looked : ∀ j flags, (j, flags) ∈ entries → flags.deleted = false → ∀ sub',
    rdm'.subs.subscriptions.lookup j = some sub' →
    Shows rdm₀ sub' (valueOf rdm j) ∨ (rdm.subs.subscriptions.lookup j = some sub' ∧
      ∀ kind : Kind, kind.Helps (valueOf rdm j) → CheckFlags.has flags kind = false)

theorem scannedAll_foldl {entries : List (Id × CheckFlags)} (hn : (entries.map Prod.fst).Nodup)
    (h : Steady rdm₀ rdm) : ScannedAll rdm₀ rdm (entries.foldl scanEntry rdm) entries := by
  induction entries generalizing rdm with
  | nil =>
    refine ⟨.refl rdm, rfl, rfl, fun _ _ => rfl, fun j sub' hs' => ⟨mem_of_lookup hs', h.kept j sub' hs'⟩,
      fun _ _ _ => by simp, fun _ _ hmem => absurd hmem List.not_mem_nil,
      fun _ _ hmem => absurd hmem List.not_mem_nil⟩
  | cons entry entries ih =>
    obtain ⟨i, flags⟩ := entry
    obtain ⟨hi, hn'⟩ := List.nodup_cons.mp hn
    have hfirst := scanned_entry h flags (i := i)
    have hrest := ih hn' (hfirst.toLocal.steady h)
    rw [List.foldl_cons]
    -- the entry itself is not touched by the rest, and the rest not by the entry
    have hlast := hrest.others i hi
    have hmem₁ : ∀ {j}, j ∈ (scanEntry rdm (i, flags)).subs.subscriptions → j ∈ rdm.subs.subscriptions := by
      intro j hj
      obtain ⟨sub, hs⟩ := mem_iff_lookup.mp hj
      by_cases hji : j = i
      · subst hji
        exact (hfirst.kept sub hs).1
      · rw [hfirst.others j hji] at hs
        exact mem_of_lookup hs
    have hne : ∀ {j f}, (j, f) ∈ entries → j ≠ i := fun hmem heq =>
      hi (heq ▸ List.mem_map.mpr ⟨_, hmem, rfl⟩)
    refine ⟨hfirst.tracks.trans hrest.tracks, hrest.events.trans hfirst.events, hrest.scan.trans hfirst.scan,
      ?_, ?_, ?_, ?_, ?_⟩
    · intro j hj
      rw [List.map_cons, List.mem_cons, not_or] at hj
      exact (hrest.others j hj.2).trans (hfirst.others j hj.1)
    · intro j sub' hs'
      obtain ⟨hmem, hkept⟩ := hrest.kept j sub' hs'
      exact ⟨hmem₁ hmem, hkept⟩
    · intro j kd hj
      obtain ⟨sub', hs'⟩ := mem_iff_lookup.mp hj
      rw [hrest.flag j kd hj, hfirst.flag j kd (hrest.kept j sub' hs').1, List.map_cons, List.mem_cons, not_or,
        and_assoc]
    · intro j f hmem hdel sub' hs'
      rcases List.mem_cons.mp hmem with heq | hmem'
      · cases heq
        rw [hlast] at hs'
        exact hfirst.believed hdel sub' hs'
      · have hb := hrest.believed j f hmem' hdel sub' hs'
        rw [hfirst.others j (hne hmem')] at hb
        exact hb
    · intro j f hmem hdel sub' hs'
      rcases List.mem_cons.mp hmem with heq | hmem'
      · cases heq
        rw [hlast] at hs'
        exact hfirst.looked hdel sub' hs'
      · have hb := hrest.looked j f hmem' hdel sub' hs'
        rw [hfirst.others j (hne hmem'), hfirst.tracks.value] at hb
        exact hb

theorem scans_all (h : Steady rdm₀ x.rdm) : Steady rdm₀ (scanAll x.rdm) ∧ Tracks x.rdm (scanAll x.rdm) ∧
    Scans (Shows rdm₀) (board x) (board { x with rdm := scanAll x.rdm }) ∧
    ∀ j, j ∈ (scanAll x.rdm).subs.subscriptions → flagOf x.rdm j .deleted = true →
      (x.rdm.subs.subscriptions.lookup j).any (·.isRouterIdentity) = true := by
  have hs := h.tracks (.of_subs { x.rdm.subs with scanPending := false })
    (fun j sub hsub => ⟨mem_of_lookup hsub, h.kept j sub hsub⟩)
  have hn : ((pairs x.rdm.subs.updatedIdentities).map Prod.fst).Nodup := by
    rw [pairs_keys]
    exact AList.keys_nodup _
  have hall := scannedAll_foldl hn hs
  have hentry : ∀ j kd, flagOf x.rdm j kd = true → ∃ flags, (j, flags) ∈ pairs x.rdm.subs.updatedIdentities ∧
      x.rdm.subs.updatedIdentities.lookup j = some flags := by
    intro j kd hflag
    cases hlook : x.rdm.subs.updatedIdentities.lookup j with
    | none =>
      simp only [flagOf, hlook] at hflag
      cases kd <;> cases hflag
    | some flags => exact ⟨flags, mem_pairs.mpr hlook, rfl⟩
  have hhas : ∀ j flags kd, x.rdm.subs.updatedIdentities.lookup j = some flags →
      flagOf x.rdm j kd = CheckFlags.has flags kd := by
    intro j flags kd hlook
    simp [flagOf, hlook]
  refine ⟨hs.tracks hall.tracks hall.kept, (Tracks.of_subs _).trans hall.tracks,
    ⟨?_, hall.tracks.value, rfl, ?_, ?_, ?_⟩, ?_⟩
  · simp only [board]
    exact congrArg _ hall.events
  · intro j kd hj
    have hmem := isSome_seen.mp hj
    by_contra hflag
    obtain ⟨hflag₀, hout⟩ := (hall.flag j kd hmem).mp (Bool.eq_true_of_not_eq_false hflag)
    obtain ⟨flags, hpair, -⟩ := hentry j kd hflag₀
    exact hout (List.mem_map.mpr ⟨_, hpair, rfl⟩)
  · intro j s' hs' hdel
    obtain ⟨flags, hpair, hlook⟩ := hentry j .deleted hdel
    have hf : flags.deleted = true := (hhas j flags .deleted hlook).symm.trans hdel
    exact (hall.believed j flags hpair hf s' hs').1
  · intro j s' hs' hdel
    cases hlook : x.rdm.subs.updatedIdentities.lookup j with
    | none =>
      have hout : j ∉ (pairs x.rdm.subs.updatedIdentities).map Prod.fst := by
        rw [pairs_keys]
        exact AList.lookup_eq_none.mp hlook
      refine .inr ⟨(hall.others j hout).symm.trans hs', fun kind _ => ?_⟩
      simp only [board, flagOf, hlook]
      cases kind <;> rfl
    | some flags =>
      have hf : flags.deleted = false := (hhas j flags .deleted hlook).symm.trans hdel
      rcases hall.looked j flags (mem_pairs.mpr hlook) hf s' hs' with hshows | ⟨hsame, hno⟩
      · exact .inl hshows
      · exact .inr ⟨hsame, fun kind hhelps => (hhas j flags kind hlook).trans (hno kind hhelps)⟩
  · intro j hj hdel
    obtain ⟨sub', hs'⟩ := mem_iff_lookup.mp hj
    obtain ⟨flags, hpair, hlook⟩ := hentry j .deleted hdel
    have hf : flags.deleted = true := (hhas j flags .deleted hlook).symm.trans hdel
    exact (hall.believed j flags hpair hf sub' hs').2

/-- What a sync of all subscribers has done after some of them. -/
structure SyncedAll (rdm₀ rdm rdm' : RouterDataModel) (ids : List Id) : Prop where
  tracks : Tracks rdm rdm'
  events : rdm'.subs.events = rdm.subs.events
  scan : rdm'.subs.scanPending = rdm.subs.scanPending
  others : ∀ j, j ∉ ids → rdm'.subs.subscriptions.lookup j = rdm.subs.subscriptions.lookup j
  kept : ∀ j sub', rdm'.subs.subscriptions.lookup j = some sub' → j ∈ rdm.subs.subscriptions ∧ KeptSub j sub'
  flag : ∀ j kd, flagOf rdm' j kd = true → flagOf rdm j kd = true
  shown : ∀ j ∈ ids, ∀ sub', rdm'.subs.subscriptions.lookup j = some sub' → Shows rdm₀ sub' (valueOf rdm j)

theorem syncSubscriber_spec (h : Steady rdm₀ rdm) (i : Id) :
    Local rdm (syncSubscriber rdm i) i ∧ (∀ j kd, flagOf (syncSubscriber rdm i) j kd = true → flagOf rdm j kd = true) ∧
      ∀ sub', (syncSubscriber rdm i).subs.subscriptions.lookup i = some sub' → Shows rdm₀ sub' (valueOf rdm i) := by
  unfold syncSubscriber
  cases hs : rdm.subs.subscriptions.lookup i with
  | none =>
    refine ⟨.of_flags h, fun _ _ hflag => hflag, fun sub' hs' => ?_⟩
    rw [hs] at hs'
    cases hs'
  | some sub =>
    have hlocal : Local rdm (markIdentityCheckComplete rdm i .updated).1 i := local_complete h true i .updated
    have hs₁ : (markIdentityCheckComplete rdm i .updated).1.subs.subscriptions.lookup i = some sub := hs
    obtain ⟨sub₁, ht, hkept, hshows, hsubs⟩ := checkSubscription_spec (hlocal.steady h) hs₁
    have hlook : (checkSubscription (markIdentityCheckComplete rdm i .updated).1 sub).subs.subscriptions =
        rdm.subs.subscriptions.insert i sub₁ := by
      rw [hsubs]
      rfl
    refine ⟨hlocal.trans ⟨ht, by rw [hsubs], by rw [hsubs], ?_, ?_⟩, ?_, ?_⟩
    · intro j hj
      rw [hlook]
      exact AList.lookup_insert_ne hj
    · intro sub' hs'
      rw [hlook, AList.lookup_insert] at hs'
      cases hs'
      exact ⟨mem_of_lookup hs₁, hkept⟩
    · intro j kd hflag
      have hflag₁ : flagOf (markIdentityCheckComplete rdm i .updated).1 j kd = true := by
        simpa only [flagOf, hsubs] using hflag
      exact (flagOf_complete.mp hflag₁).1
    · intro sub' hs'
      rw [hlook, AList.lookup_insert] at hs'
      cases hs'
      exact hshows

theorem syncedAll_foldl {ids : List Id} (hn : ids.Nodup) (h : Steady rdm₀ rdm) :
    SyncedAll rdm₀ rdm (ids.foldl syncSubscriber rdm) ids := by
  induction ids generalizing rdm with
  | nil =>
    exact ⟨.refl rdm, rfl, rfl, fun _ _ => rfl,
      fun j sub' hs' => ⟨mem_of_lookup hs', h.kept j sub' hs'⟩, fun _ _ hflag => hflag,
      fun _ hmem => absurd hmem List.not_mem_nil⟩
  | cons i ids ih =>
    obtain ⟨hi, hn'⟩ := List.nodup_cons.mp hn
    obtain ⟨hfirst, hflag, hshown⟩ := syncSubscriber_spec h i
    have hrest := ih hn' (hfirst.steady h)
    rw [List.foldl_cons]
    refine ⟨hfirst.tracks.trans hrest.tracks, hrest.events.trans hfirst.events, hrest.scan.trans hfirst.scan,
      ?_, ?_, fun j kd hf => hflag j kd (hrest.flag j kd hf), ?_⟩
    · intro j hj
      rw [List.mem_cons, not_or] at hj
      exact (hrest.others j hj.2).trans (hfirst.others j hj.1)
    · intro j sub' hs'
      obtain ⟨hmem, hkept⟩ := hrest.kept j sub' hs'
      obtain ⟨sub₁, hs₁⟩ := mem_iff_lookup.mp hmem
      by_cases hji : j = i
      · subst hji
        exact ⟨(hfirst.kept sub₁ hs₁).1, hkept⟩
      · rw [hfirst.others j hji] at hs₁
        exact ⟨mem_of_lookup hs₁, hkept⟩
    · intro j hj sub' hs'
      rcases List.mem_cons.mp hj with rfl | hj'
      · rw [hrest.others j hi] at hs'
        exact hshown sub' hs'
      · rw [← hfirst.tracks.value]
        exact hrest.shown j hj' sub' hs'

end Zt.SubscriptionScans
