import Zt.LinkEntries

namespace Zt.LinkUpdates

open Tables LinkRegistry LinkEntries

/-- The states that an update takes out of the maps. -/
def OrphanOf (turn : Turn) (reg : Registry) (u : LinkDestUpdate) (st : StateRef) : Prop :=
  u.healthy = true ∧ ∃ d, reg.destinations.lookup u.id = some d ∧
    ∃ key ∈ orphaned turn reg u d, (reg.dest d).linkMap.lookup key = some st

/-- What an update does to the link states that it finds. -/
inductive Change (turn : Turn) (reg : Registry) (st : StateRef) : Registry → Prop
  | listener (listener : Listener) : Change turn reg st (setState reg st (fun s => { s with listener := listener }))
  | redial : Change turn reg st (setState reg st (redial turn))
  | evaluate : Change turn reg st (evaluateLinkState turn reg st)

variable {turn : Turn} {u : LinkDestUpdate} {reg reg' start : Registry} {st : StateRef} {d : DestRef}
  {key : String} {K : Registry → Prop} {becameHealthy : Bool}

theorem Change.touches (h : Change turn reg st reg') (hun : Unlimited reg) : Touches (· = st) reg reg' := by
  cases h with
  | listener => exact touches_setState ⟨rfl, rfl, rfl, rfl⟩
  | redial => exact touches_setState ⟨rfl, rfl, rfl, rfl⟩
  | evaluate => exact touches_evaluateLinkState turn hun

/-- A property of registries that is kept by each change that an update makes. -/
structure UpdateKeeps (turn : Turn) (u : LinkDestUpdate) (start : Registry) (K : Registry → Prop) : Prop where
  owned : ∀ {reg}, K reg → Owned reg
  addDest : start.destinations.lookup u.id = none → K (addDest start u.id)
  dest : ∀ {reg d}, K reg → K (setDest reg d (fun dest => updateDest turn dest u))
  change : ∀ {reg reg' st}, K reg → Stored reg st → (reg.state st).linkKey ∈ matchedKeys turn start u →
    Change turn reg st reg' → K reg'
  close : ∀ {reg st}, K reg → K (closeStateLink reg st)
  add : ∀ {reg d listener dialer}, K reg → reg.destinations.lookup (reg.dest d).id = some d →
    (reg.dest d).linkMap.lookup (newLinkState turn reg u d listener dialer).linkKey = none →
    K (addLinkState reg d (newLinkState turn reg u d listener dialer))
  drop : ∀ {reg d key st}, K reg → (reg.dest d).linkMap.lookup key = some st → OrphanOf turn start u st →
    K (eraseKey reg d key)

/-- The registry while an update is applied to one of its destinations. The
states under keys that the update does not name were there before. -/
structure Updating (turn : Turn) (u : LinkDestUpdate) (start : Registry) (d : DestRef) (K : Registry → Prop)
    (reg : Registry) : Prop where
  kept : K reg
  here : reg.destinations.lookup (reg.dest d).id = some d
  unnamed : ∀ key, key ∉ matchedKeys turn start u → ∀ st, (reg.dest d).linkMap.lookup key = some st →
    start.destinations.lookup u.id = some d ∧ (start.dest d).linkMap.lookup key = some st

theorem Updating.same (hw : Updating turn u start d K reg) (h : SameMaps reg reg') (hk : K reg') :
    Updating turn u start d K reg' where
  kept := hk
  here := by
    rw [h.destinations, (h.dests d).1]
    exact hw.here
  unnamed := by
    rw [(h.dests d).2]
    exact hw.unnamed

theorem Updating.change (hu : UpdateKeeps turn u start K) (hw : Updating turn u start d K reg)
    (hkey : key ∈ matchedKeys turn start u) (hk : (reg.dest d).linkMap.lookup key = some st)
    (hc : Change turn reg st reg') : Updating turn u start d K reg' ∧ (reg'.dest d).linkMap.lookup key = some st := by
  have ho := hu.owned hw.kept
  have hsame := (hc.touches ho.unlimited).toSameMaps
  have hkey' : (reg.state st).linkKey ∈ matchedKeys turn start u := (ho.entries d key st hk).1.symm ▸ hkey
  refine ⟨hw.same hsame (hu.change hw.kept (ho.stored hw.here hk) hkey' hc), ?_⟩
  rw [(hsame.dests d).2]
  exact hk

section

variable (hu : UpdateKeeps turn u start K)
include hu

theorem updating_applyListener (hw : Updating turn u start d K reg) {pair : Listener × Dialer}
    (hkey : (newLinkState turn reg u d pair.1 pair.2).linkKey ∈ matchedKeys turn start u) :
    Updating turn u start d K (applyListener turn reg u d becameHealthy pair) := by
  simp only [applyListener]
  cases hk : (reg.dest d).linkMap.lookup (newLinkState turn reg u d pair.1 pair.2).linkKey with
  | none =>
    have hadd : Updating turn u start d K (addLinkState reg d (newLinkState turn reg u d pair.1 pair.2)) := by
      refine ⟨hu.add hw.kept hw.here hk, ?_, fun key hkey' st hk' => ?_⟩
      · rw [addLinkState_destId]
        exact hw.here
      · rw [addLinkState_lookup] at hk'
        split at hk'
        · rename_i heq
          exact absurd (heq.2 ▸ hkey) hkey'
        · exact hw.unnamed key hkey' st hk'
    refine (hadd.change hu hkey ?_ .evaluate).1
    rw [addLinkState_lookup, if_pos ⟨rfl, rfl⟩]
  | some st =>
    have htake : Updating turn u start d K (takeListener reg st pair.1) ∧
        ((takeListener reg st pair.1).dest d).linkMap.lookup (newLinkState turn reg u d pair.1 pair.2).linkKey =
          some st := by
      simp only [takeListener]
      split
      · have hsame := sameMaps_closeStateLink reg st
        exact (hw.same hsame (hu.close hw.kept)).change hu hkey ((hsame.dests d).2 ▸ hk) (.listener pair.1)
      · exact hw.change hu hkey hk (.listener pair.1)
    simp only []
    split
    · obtain ⟨hredial, hk'⟩ := htake.1.change hu hkey htake.2 .redial
      exact (hredial.change hu hkey hk' .evaluate).1
    · exact htake.1

theorem updating_dropOrphan (hw : Updating turn u start d K reg)
    (hhealthy : u.healthy = true) (hkey : key ∉ matchedKeys turn start u) :
    Updating turn u start d K (dropOrphan reg d key) := by
  unfold dropOrphan
  cases hk : (reg.dest d).linkMap.lookup key with
  | none => exact hw
  | some st =>
    obtain ⟨hd, hk'⟩ := hw.unnamed key hkey st hk
    have horphan : key ∈ orphaned turn start u d :=
      List.mem_filter.mpr ⟨AList.mem_keys.mp (mem_of_lookup hk'), decide_eq_true hkey⟩
    have herase : Updating turn u start d K (eraseKey reg d key) := by
      refine ⟨hu.drop hw.kept hk ⟨hhealthy, d, hd, key, horphan, hk'⟩, ?_, fun key' hkey' st' hst => ?_⟩
      · rw [eraseKey_destId]
        exact hw.here
      · rw [eraseKey_lookup] at hst
        split at hst
        · cases hst
        · exact hw.unnamed key' hkey' st' hst
    exact herase.same (sameMaps_closeStateLink _ st) (hu.close herase.kept)

theorem updating_updateListeners (hw : Updating turn u start d K reg)
    (hmatching : matching reg u = matching start u) : K (updateListeners turn reg u d becameHealthy) := by
  have hupdated := hw.same (sameMaps_updateDest turn reg u d) (hu.dest hw.kept)
  have hkeys : matchedKeys turn reg u = matchedKeys turn start u := congrArg (List.map _) hmatching
  simp only [updateListeners]
  split
  · rename_i hhealthy
    refine (List.foldlRecOn (motive := Updating turn u start d K) _ _ ?_ (fun _ hw' key hkey => ?_)).kept
    · refine List.foldlRecOn _ _ hupdated (fun _ hw' pair hpair => ?_)
      exact updating_applyListener hu hw' (hkeys ▸ List.mem_map_of_mem hpair)
    · have hkey' : key ∉ matchedKeys turn reg u := of_decide_eq_true (List.mem_filter.mp hkey).2
      exact updating_dropOrphan hu hw' hhealthy (hkeys ▸ hkey')
  · exact hupdated.kept

theorem kept_linkDestUpdate (hk : K start) : K (linkDestUpdate turn start u) := by
  unfold linkDestUpdate
  cases hd : start.destinations.lookup u.id with
  | none =>
    refine updating_updateListeners hu ⟨hu.addDest hd, ?_, fun key _ st hst => ?_⟩ rfl
    · rw [addDest_new]
      exact AList.lookup_insert _
    · rw [addDest_new] at hst
      cases hst
  | some d =>
    refine updating_updateListeners hu ⟨hk, ?_, fun key _ st hst => ⟨hd, hst⟩⟩ rfl
    rw [((hu.owned hk).ids u.id d hd).1]
    exact hd

end

end Zt.LinkUpdates
