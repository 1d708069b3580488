import Zt.LinkRegistry

namespace Zt.LinkEntries

open Tables LinkRegistry
open EdgeCtrl (Id)
open Function (update_self update_of_ne)

/-- The maps of the registry and what never changes in a link state. -/
structure SameMaps (reg reg' : Registry) : Prop where
  destinations : reg'.destinations = reg.destinations
  dests : ∀ d, (reg'.dest d).id = (reg.dest d).id ∧ (reg'.dest d).linkMap = (reg.dest d).linkMap
  next : reg'.nextState = reg.nextState ∧ reg'.nextDest = reg.nextDest
  dialers : reg'.dialers = reg.dialers
  states : ∀ st, (reg'.state st).linkKey = (reg.state st).linkKey ∧ (reg'.state st).dest = (reg.state st).dest ∧
    (reg'.state st).linkId = (reg.state st).linkId ∧ (reg'.state st).allowedDials = (reg.state st).allowedDials

theorem SameMaps.refl (reg : Registry) : SameMaps reg reg :=
  ⟨rfl, fun _ => ⟨rfl, rfl⟩, ⟨rfl, rfl⟩, rfl, fun _ => ⟨rfl, rfl, rfl, rfl⟩⟩

theorem SameMaps.trans {a b c : Registry} (h : SameMaps a b) (h' : SameMaps b c) : SameMaps a c where
  destinations := h'.destinations.trans h.destinations
  dests d := ⟨(h'.dests d).1.trans (h.dests d).1, (h'.dests d).2.trans (h.dests d).2⟩
  next := ⟨h'.next.1.trans h.next.1, h'.next.2.trans h.next.2⟩
  dialers := h'.dialers.trans h.dialers
  states st := by
    obtain ⟨hkey, hdest, hid, hallowed⟩ := h.states st
    obtain ⟨hkey', hdest', hid', hallowed'⟩ := h'.states st
    exact ⟨hkey'.trans hkey, hdest'.trans hdest, hid'.trans hid, hallowed'.trans hallowed⟩

variable {reg reg' : Registry} {s : LinkState} {st : StateRef} {d : DestRef} {id : Id}

theorem SameMaps.stored_iff (h : SameMaps reg reg') (st : StateRef) : Stored reg' st ↔ Stored reg st := by
  obtain ⟨hkey, hdest, _⟩ := h.states st
  unfold Stored
  rw [h.destinations, hdest, (h.dests _).1, (h.dests _).2, hkey]

theorem SameMaps.destStates (h : SameMaps reg reg') (d : DestRef) : destStates reg' d = destStates reg d := by
  simp [LinkRegistry.destStates, (h.dests d).2]

/-- The number of dials of a state is never limited. -/
def Unlimited (reg : Registry) : Prop := ∀ st, (reg.state st).allowedDials = -1

theorem SameMaps.unlimited (h : SameMaps reg reg') (hun : Unlimited reg) : Unlimited reg' :=
  fun st => (h.states st).2.2.2.trans (hun st)

/-- What an operation on some of the link states can do. -/
structure Touches (on : StateRef → Prop) (reg reg' : Registry) : Prop extends SameMaps reg reg' where
  dest : reg'.dest = reg.dest
  others : ∀ st, ¬ on st → reg'.state st = reg.state st
  queue : ∀ st, ¬ on st → (st ∈ reg'.linkStateQueue ↔ st ∈ reg.linkStateQueue)
  links : reg'.linkMap = reg.linkMap ∧ reg'.linkByIdMap = reg.linkByIdMap ∧ reg'.closed = reg.closed
  dials : ∀ dial ∈ reg'.dials, dial ∈ reg.dials ∨ on dial.state ∧ dial.stored = decide (Stored reg dial.state)

theorem Touches.refl (on : StateRef → Prop) (reg : Registry) : Touches on reg reg where
  toSameMaps := .refl reg
  dest := rfl
  others _ _ := rfl
  queue _ _ := Iff.rfl
  links := ⟨rfl, rfl, rfl⟩
  dials _ h := .inl h

theorem Touches.trans {on : StateRef → Prop} {a b c : Registry} (h : Touches on a b) (h' : Touches on b c) :
    Touches on a c where
  toSameMaps := h.toSameMaps.trans h'.toSameMaps
  dest := h'.dest.trans h.dest
  others st hn := (h'.others st hn).trans (h.others st hn)
  queue st hn := (h'.queue st hn).trans (h.queue st hn)
  links := ⟨h'.links.1.trans h.links.1, h'.links.2.1.trans h.links.2.1, h'.links.2.2.trans h.links.2.2⟩
  dials dial hd := by
    rcases h'.dials dial hd with hold | hnew
    · exact h.dials dial hold
    · rw [decide_eq_decide.mpr (h.stored_iff dial.state)] at hnew
      exact .inr hnew

theorem Touches.mono {on on' : StateRef → Prop} (h : Touches on reg reg') (hon : ∀ st, on st → on' st) :
    Touches on' reg reg' where
  toSameMaps := h.toSameMaps
  dest := h.dest
  others st hn := h.others st (fun hst => hn (hon st hst))
  queue st hn := h.queue st (fun hst => hn (hon st hst))
  links := h.links
  dials dial hd := (h.dials dial hd).imp_right (And.imp_left (hon dial.state))

theorem touches_foldl {S : Type} {f : S → StateRef → S} (proj : S → Registry)
    (hf : ∀ s st, Unlimited (proj s) → Touches (· = st) (proj s) (proj (f s st))) {sts : List StateRef} {s : S}
    (hun : Unlimited (proj s)) : Touches (· ∈ sts) (proj s) (proj (sts.foldl f s)) := by
  induction sts generalizing s with
  | nil => exact .refl _ _
  | cons st sts ih =>
    have hst := hf s st hun
    refine (hst.mono ?_).trans ((ih (hst.unlimited hun)).mono (fun _ => List.mem_cons_of_mem st))
    rintro _ rfl
    exact List.mem_cons_self

/-- A change of a link state that leaves its place in the maps alone. -/
def InPlace (f : LinkState → LinkState) : Prop :=
  ∀ s, (f s).linkKey = s.linkKey ∧ (f s).dest = s.dest ∧ (f s).linkId = s.linkId ∧ (f s).allowedDials = s.allowedDials

theorem inPlace_updateStatus (status : LinkStatus) : InPlace (fun s => updateStatus s status) := by
  intro s
  by_cases h : s.status = status
  · simp [updateStatus, h]
  · simp [updateStatus, h]

theorem touches_setState {f : LinkState → LinkState}
    (hf : (f (reg.state st)).linkKey = (reg.state st).linkKey ∧ (f (reg.state st)).dest = (reg.state st).dest ∧
      (f (reg.state st)).linkId = (reg.state st).linkId ∧
      (f (reg.state st)).allowedDials = (reg.state st).allowedDials) : Touches (· = st) reg (setState reg st f) where
  destinations := rfl
  dests _ := ⟨rfl, rfl⟩
  next := ⟨rfl, rfl⟩
  dialers := rfl
  states st' := by
    by_cases h : st' = st
    · subst h
      simpa only [setState, update_self] using hf
    · simp only [setState, update_of_ne h, and_self]
  dest := rfl
  others st' h := by simp only [setState, update_of_ne h]
  queue _ _ := Iff.rfl
  links := ⟨rfl, rfl, rfl⟩
  dials _ h := .inl h

theorem touches_push : Touches (· = st) reg { reg with linkStateQueue := reg.linkStateQueue ++ [st] } where
  toSameMaps := ⟨rfl, fun _ => ⟨rfl, rfl⟩, ⟨rfl, rfl⟩, rfl, fun _ => ⟨rfl, rfl, rfl, rfl⟩⟩
  dest := rfl
  others _ _ := rfl
  queue st' h := by simp [h]
  links := ⟨rfl, rfl, rfl⟩
  dials _ h := .inl h

variable (turn : Turn) {l : Xlink} {key : String} {status : LinkStatus}

theorem touches_dialFailed (hun : Unlimited reg) (st : StateRef) (applyFailed : Bool) :
    Touches (· = st) reg (dialFailed turn reg st applyFailed) := by
  have hallowed := hun st
  simp only [dialFailed, hallowed]
  refine (touches_setState ?_).trans ((touches_setState ?_).trans touches_push)
  · exact ⟨rfl, rfl, rfl, hallowed.symm⟩
  · exact ⟨rfl, rfl, rfl, rfl⟩

theorem touches_evaluateLinkState (hun : Unlimited reg) : Touches (· = st) reg (evaluateLinkState turn reg st) := by
  have hdialing : Touches (· = st) reg (setState reg st startDial) :=
    touches_setState (inPlace_updateStatus .dialing _)
  simp only [evaluateLinkState]
  split
  · split
    · refine { hdialing with dials := fun dial hd => ?_ }
      rcases List.mem_cons.mp hd with rfl | hold
      · exact .inr ⟨rfl, rfl⟩
      · exact .inl hold
    · have hrefused : Touches (· = st) (setState reg st startDial) (setState (setState reg st startDial) st refuseDial) :=
        touches_setState (inPlace_updateStatus .queueFailed _)
      have hfailed := hdialing.trans hrefused
      exact hfailed.trans (touches_dialFailed turn (hfailed.unlimited hun) st false)
  · exact .refl _ reg

theorem touches_linkFailed (hun : Unlimited reg) : Touches (· = st) reg (linkFailed turn reg st l) := by
  have hredial : Touches (· = st) reg (setState reg st (redial turn)) := touches_setState ⟨rfl, rfl, rfl, rfl⟩
  have heval := hredial.trans (touches_evaluateLinkState turn (hredial.unlimited hun))
  exact heval.trans ((touches_setState ⟨rfl, rfl, rfl, rfl⟩).trans (touches_setState ⟨rfl, rfl, rfl, rfl⟩))

theorem touches_applyStatus (hun : Unlimited reg) (st : StateRef) (l : Xlink) (status : LinkStatus) :
    Touches (· = st) reg (applyStatus turn reg st l status) := by
  have hstat : ∀ status, Touches (· = st) reg (setState reg st (fun s => updateStatus s status)) :=
    fun status => touches_setState (inPlace_updateStatus status _)
  have hest : ∀ reg', Touches (· = st) reg' (linkEstablished reg' st l) :=
    fun _ => touches_setState ⟨rfl, rfl, rfl, rfl⟩
  cases status with
  | established => exact (hstat .established).trans (hest _)
  | linkFailed => exact (hstat .linkFailed).trans (touches_linkFailed turn ((hstat _).unlimited hun))
  | pending | dialing | queueFailed | dialFailed | destRemoved => exact hstat _

theorem touches_scanState (hun : Unlimited reg) (st : StateRef) : Touches (· = st) reg (scanState turn reg st) := by
  simp only [scanState]
  split
  · have h : Touches (· = st) reg (setState reg st (fun s => updateStatus (redial turn s) .linkFailed)) :=
      touches_setState (inPlace_updateStatus .linkFailed _)
    exact h.trans (touches_evaluateLinkState turn (h.unlimited hun))
  · exact touches_evaluateLinkState turn hun

theorem sameMaps_closeLink : SameMaps reg (closeLink reg l) :=
  ⟨rfl, fun _ => ⟨rfl, rfl⟩, ⟨rfl, rfl⟩, rfl, fun _ => ⟨rfl, rfl, rfl, rfl⟩⟩

theorem closeStateLink_eq :
    closeStateLink reg st = { reg with closed := (reg.state st).link.toList ++ reg.closed } := by
  unfold closeStateLink
  cases (reg.state st).link <;> rfl

theorem sameMaps_closeStateLink (reg : Registry) (st : StateRef) : SameMaps reg (closeStateLink reg st) := by
  rw [closeStateLink_eq]
  exact ⟨rfl, fun _ => ⟨rfl, rfl⟩, ⟨rfl, rfl⟩, rfl, fun _ => ⟨rfl, rfl, rfl, rfl⟩⟩

theorem sameMaps_removeDestState : SameMaps reg (removeDestState reg st) := by
  have hstat : Touches (· = st) reg (setState reg st (fun s => updateStatus s .destRemoved)) :=
    touches_setState (inPlace_updateStatus .destRemoved _)
  simp only [removeDestState]
  split
  · exact hstat.toSameMaps
  · exact hstat.toSameMaps.trans sameMaps_closeLink

theorem sameMaps_updateDest (reg : Registry) (u : LinkDestUpdate) (d : DestRef) :
    SameMaps reg (setDest reg d (fun dest => updateDest turn dest u)) where
  destinations := rfl
  dests d' := by
    by_cases h : d' = d
    · subst h
      simp only [setDest, update_self, updateDest, and_self]
    · simp only [setDest, update_of_ne h, and_self]
  next := ⟨rfl, rfl⟩
  dialers := rfl
  states _ := ⟨rfl, rfl, rfl, rfl⟩

/-- Destinations are stored under their ids, link states under their keys in
the destinations they belong to. -/
structure Owned (reg : Registry) : Prop where
  ids : ∀ id d, reg.destinations.lookup id = some d → (reg.dest d).id = id ∧ d < reg.nextDest
  entries : ∀ d k st, (reg.dest d).linkMap.lookup k = some st →
    (reg.state st).linkKey = k ∧ (reg.state st).dest = d ∧ st < reg.nextState
  unlimited : Unlimited reg

theorem owned_newLinkRegistry {dialers : List Dialer} : Owned (newLinkRegistry dialers) where
  ids id d h := by cases h
  entries d k st h := by cases h
  unlimited _ := rfl

theorem SameMaps.owned (h : SameMaps reg reg') (ho : Owned reg) : Owned reg' where
  ids id d hd := by
    rw [h.destinations] at hd
    rw [(h.dests d).1, h.next.2]
    exact ho.ids id d hd
  entries d k st hk := by
    rw [(h.dests d).2] at hk
    rw [(h.states st).1, (h.states st).2.1, h.next.1]
    exact ho.entries d k st hk
  unlimited := h.unlimited ho.unlimited

theorem mem_destStates : st ∈ destStates reg d ↔ ∃ k, (reg.dest d).linkMap.lookup k = some st := by
  simp [destStates, mem_pairs]

variable {k : String} {d' : DestRef} {st' : StateRef}

theorem Owned.stored (ho : Owned reg) (hd : reg.destinations.lookup id = some d)
    (hk : (reg.dest d).linkMap.lookup k = some st) : Stored reg st := by
  obtain ⟨hkey, hdest, _⟩ := ho.entries d k st hk
  unfold Stored
  rw [hkey, hdest, (ho.ids id d hd).1]
  exact ⟨hd, hk⟩

theorem Owned.stored_of_mem (ho : Owned reg) (hd : reg.destinations.lookup id = some d) (hst : st ∈ destStates reg d) :
    Stored reg st := by
  obtain ⟨k, hk⟩ := mem_destStates.mp hst
  exact ho.stored hd hk

theorem Owned.stored_stateFor (ho : Owned reg) (h : stateFor reg l = some st) : Stored reg st := by
  obtain ⟨d, hd, hk⟩ := Option.bind_eq_some_iff.mp h
  exact ho.stored hd hk

theorem Stored.lt (ho : Owned reg) (h : Stored reg st) : st < reg.nextState :=
  (ho.entries _ _ _ h.2).2.2

theorem addDest_new : (addDest reg id).dest reg.nextDest = { id := id } := by
  simp [addDest]

theorem addDest_other (h : d ≠ reg.nextDest) : (addDest reg id).dest d = reg.dest d := by
  simp [addDest, update_of_ne h]

theorem owned_addDest (ho : Owned reg) : Owned (addDest reg id) where
  ids := by
    refine forall_insert (fun id' d hd => ?_) ?_
    · obtain ⟨hid, hlt⟩ := ho.ids id' d hd
      rw [addDest_other (Nat.ne_of_lt hlt)]
      exact ⟨hid, Nat.lt_succ_of_lt hlt⟩
    · simp [addDest]
  entries d k st hk := by
    simp only [addDest] at hk ⊢
    by_cases h : d = reg.nextDest
    · subst h
      rw [update_self] at hk
      cases hk
    · rw [update_of_ne h] at hk
      exact ho.entries d k st hk
  unlimited := ho.unlimited

theorem Owned.stored_addDest (ho : Owned reg) (hid : reg.destinations.lookup id = none) :
    Stored (addDest reg id) st ↔ Stored reg st := by
  have hinsert : ∀ id', (addDest reg id).destinations.lookup id' =
      if id' = id then some reg.nextDest else reg.destinations.lookup id' :=
    fun id' => lookup_insert_eq reg.destinations id id' reg.nextDest
  have hstate : (addDest reg id).state = reg.state := rfl
  unfold Stored
  rw [hstate, hinsert]
  by_cases hd : (reg.state st).dest = reg.nextDest
  · rw [hd, addDest_new]
    constructor
    · rintro ⟨_, h⟩
      cases h
    · rintro ⟨h, _⟩
      exact absurd (ho.ids _ _ h).2 (lt_irrefl _)
  · rw [addDest_other hd]
    by_cases heq : (reg.dest (reg.state st).dest).id = id
    · rw [if_pos heq, heq, hid]
      constructor
      · rintro ⟨h, _⟩
        exact absurd (Option.some.inj h).symm hd
      · rintro ⟨h, _⟩
        cases h
    · rw [if_neg heq]

theorem addLinkState_linkMap : ((addLinkState reg d s).dest d').linkMap =
    if d' = d then (reg.dest d).linkMap.insert s.linkKey reg.nextState else (reg.dest d').linkMap := by
  by_cases h : d' = d
  · subst h
    simp [addLinkState, setDest]
  · simp [addLinkState, setDest, h]

theorem addLinkState_destId : ((addLinkState reg d s).dest d').id = (reg.dest d').id := by
  by_cases h : d' = d
  · subst h
    simp [addLinkState, setDest]
  · simp [addLinkState, setDest, h]

theorem addLinkState_lookup :
    ((addLinkState reg d s).dest d').linkMap.lookup k =
      if d' = d ∧ k = s.linkKey then some reg.nextState else (reg.dest d').linkMap.lookup k := by
  rw [addLinkState_linkMap]
  by_cases hd : d' = d
  · subst hd
    simp [lookup_insert_eq]
  · simp [hd]

theorem addLinkState_new : (addLinkState reg d s).state reg.nextState = s := by
  simp [addLinkState]

theorem addLinkState_other (h : st ≠ reg.nextState) : (addLinkState reg d s).state st = reg.state st := by
  simp [addLinkState, update_of_ne h]

theorem stored_addLinkState (hkey : (reg.dest d).linkMap.lookup s.linkKey = none) (hne : st ≠ reg.nextState) :
    Stored (addLinkState reg d s) st ↔ Stored reg st := by
  unfold Stored
  rw [addLinkState_other hne, addLinkState_destId, addLinkState_lookup]
  refine and_congr_right (fun _ => ?_)
  split
  · rename_i heq
    rw [heq.1, heq.2, hkey]
    exact ⟨fun h => absurd (Option.some.inj h).symm hne, fun h => by cases h⟩
  · rfl

theorem owned_addLinkState (ho : Owned reg) (hdest : s.dest = d) (hallowed : s.allowedDials = -1) :
    Owned (addLinkState reg d s) where
  ids id d' hd := by
    rw [addLinkState_destId]
    exact ho.ids id d' hd
  entries d' k st hk := by
    rw [addLinkState_lookup] at hk
    simp only [addLinkState]
    split at hk
    · rename_i heq
      cases hk
      rw [update_self, heq.1, heq.2]
      exact ⟨rfl, hdest, Nat.lt_succ_self _⟩
    · obtain ⟨hkey, hd, hlt⟩ := ho.entries d' k st hk
      rw [update_of_ne (Nat.ne_of_lt hlt)]
      exact ⟨hkey, hd, Nat.lt_succ_of_lt hlt⟩
  unlimited st := by
    simp only [addLinkState]
    by_cases h : st = reg.nextState
    · subst h
      rw [update_self]
      exact hallowed
    · rw [update_of_ne h]
      exact ho.unlimited st

theorem owned_erase (ho : Owned reg) (id : Id) : Owned { reg with destinations := reg.destinations.erase id } where
  ids := forall_erase ho.ids
  entries := ho.entries
  unlimited := ho.unlimited

abbrev eraseKey (reg : Registry) (d : DestRef) (key : String) : Registry :=
  setDest reg d (fun dest => { dest with linkMap := dest.linkMap.erase key })

theorem eraseKey_lookup :
    ((eraseKey reg d key).dest d').linkMap.lookup k =
      if d' = d ∧ k = key then none else (reg.dest d').linkMap.lookup k := by
  by_cases h : d' = d
  · subst h
    simp [setDest, lookup_erase_eq]
  · simp [setDest, h]

theorem eraseKey_destId : ((eraseKey reg d key).dest d').id = (reg.dest d').id := by
  by_cases h : d' = d
  · subst h
    simp [setDest]
  · simp [setDest, h]

theorem owned_eraseKey (ho : Owned reg) : Owned (eraseKey reg d key) where
  ids id d' hd := by
    rw [eraseKey_destId]
    exact ho.ids id d' hd
  entries d' k st hk := by
    rw [eraseKey_lookup] at hk
    split at hk
    · cases hk
    · exact ho.entries d' k st hk
  unlimited := ho.unlimited

theorem Owned.stored_erase (ho : Owned reg) (hd : reg.destinations.lookup id = some d) :
    Stored { reg with destinations := reg.destinations.erase id } st ↔ Stored reg st ∧ st ∉ destStates reg d := by
  simp only [Stored, lookup_erase_eq]
  constructor
  · rintro ⟨hdest, hk⟩
    split at hdest
    · cases hdest
    · rename_i hne
      refine ⟨⟨hdest, hk⟩, fun hmem => ?_⟩
      obtain ⟨k, hk'⟩ := mem_destStates.mp hmem
      rw [(ho.entries d k st hk').2.1] at hne
      exact hne (ho.ids id d hd).1
  · rintro ⟨⟨hdest, hk⟩, hmem⟩
    refine ⟨?_, hk⟩
    rw [if_neg]
    · exact hdest
    · intro heq
      rw [heq, hd] at hdest
      cases hdest
      exact hmem (mem_destStates.mpr ⟨_, hk⟩)

theorem stored_eraseKey (hk : (reg.dest d).linkMap.lookup key = some st)
    (hne : st' ≠ st) (h : Stored reg st') : Stored (eraseKey reg d key) st' := by
  obtain ⟨hdest, hk'⟩ := h
  unfold Stored
  rw [eraseKey_destId, eraseKey_lookup, if_neg]
  · exact ⟨hdest, hk'⟩
  · rintro ⟨hd, hkey⟩
    simp only [setDest] at hd hkey
    rw [hd, hkey, hk] at hk'
    cases hk'
    exact hne rfl

theorem stored_of_eraseKey (h : Stored (eraseKey reg d key) st) : Stored reg st := by
  unfold Stored at h
  rw [eraseKey_destId, eraseKey_lookup] at h
  obtain ⟨hdest, hk⟩ := h
  split at hk
  · cases hk
  · exact ⟨hdest, hk⟩

theorem removeDestState_state : (removeDestState reg st).state st' =
    if st' = st then updateStatus (reg.state st) .destRemoved else reg.state st' := by
  have h : (removeDestState reg st).state = (setState reg st (fun s => updateStatus s .destRemoved)).state := by
    simp only [removeDestState]
    split <;> rfl
  rw [h]
  by_cases heq : st' = st
  · subst heq
    simp [setState]
  · simp [setState, heq]

theorem updateStatus_status : (updateStatus s status).status = status := by
  unfold updateStatus
  split
  · rfl
  · rename_i h
    exact not_not.mp h

theorem updateStatus_of_eq (h : s.status = status) : updateStatus s status = s := by
  simp [updateStatus, h]

theorem updateStatus_of_ne (h : s.status ≠ status) : updateStatus s status =
    { s with status := status, link := if status ≠ .established then none else s.link } := by
  simp [updateStatus, h]

/-- What is left of the states of a destination that was removed. -/
structure Dismissed (sts : List StateRef) (reg reg' : Registry) : Prop extends SameMaps reg reg' where
  queue : reg'.linkStateQueue = reg.linkStateQueue
  links : reg'.linkMap = reg.linkMap ∧ ∀ l ∈ reg.closed, l ∈ reg'.closed
  dials : reg'.dials = reg.dials
  others : ∀ st, st ∉ sts → reg'.state st = reg.state st
  removed : ∀ st ∈ sts, reg'.state st = updateStatus (reg.state st) .destRemoved

theorem dismissed_foldl (sts : List StateRef) (reg : Registry) : Dismissed sts reg (sts.foldl removeDestState reg) := by
  induction sts generalizing reg with
  | nil => exact ⟨.refl reg, rfl, ⟨rfl, fun _ h => h⟩, rfl, fun _ _ => rfl, fun _ h => absurd h List.not_mem_nil⟩
  | cons st sts ih =>
    have h := ih (removeDestState reg st)
    have hfields : (removeDestState reg st).linkStateQueue = reg.linkStateQueue ∧
        (removeDestState reg st).linkMap = reg.linkMap ∧ (∀ l ∈ reg.closed, l ∈ (removeDestState reg st).closed) ∧
        (removeDestState reg st).dials = reg.dials := by
      simp only [removeDestState]
      split
      · exact ⟨rfl, rfl, fun _ h => h, rfl⟩
      · exact ⟨rfl, rfl, fun _ h => List.mem_cons_of_mem _ h, rfl⟩
    refine ⟨sameMaps_removeDestState.trans h.toSameMaps, h.queue.trans hfields.1,
      ⟨h.links.1.trans hfields.2.1, fun l hl => h.links.2 l (hfields.2.2.1 l hl)⟩,
      h.dials.trans hfields.2.2.2, ?_, ?_⟩
    · intro st' hst'
      rw [List.foldl_cons, h.others st' (fun hm => hst' (List.mem_cons_of_mem _ hm)), removeDestState_state,
        if_neg (fun heq : st' = st => hst' (heq ▸ List.mem_cons_self))]
    · intro st' hst'
      by_cases hm : st' ∈ sts
      · rw [List.foldl_cons, h.removed st' hm, removeDestState_state]
        split
        · rename_i heq
          rw [heq, updateStatus_of_eq updateStatus_status]
        · rfl
      · rcases List.mem_cons.mp hst' with rfl | hm'
        · rw [List.foldl_cons, h.others st' hm, removeDestState_state, if_pos rfl]
        · exact absurd hm' hm

end Zt.LinkEntries
