import Zt.LinkDials

namespace Zt.LinkKeeping

open Tables LinkRegistry LinkEntries LinkUpdates
open EdgeCtrl (Id)

/-- A change that leaves the faults and the link of a state alone. -/
structure QuietState (s s' : LinkState) : Prop where
  faults : s'.linkFaults = s.linkFaults
  link : s'.link = s.link
  established : s'.status = .established ↔ s.status = .established
  alive : s.status ≠ .destRemoved → s'.status ≠ .destRemoved

theorem QuietState.refl (s : LinkState) : QuietState s s := ⟨rfl, rfl, .rfl, fun h => h⟩

theorem QuietState.trans {a b c : LinkState} (h : QuietState a b) (h' : QuietState b c) : QuietState a c :=
  ⟨h'.faults.trans h.faults, h'.link.trans h.link, h'.established.trans h.established,
    fun ha => h'.alive (h.alive ha)⟩

variable (reg : Registry) {a b c reg' : Registry} {st : StateRef} {s : LinkState} {on : StateRef → Prop}

/-- Only established states hold a link. -/
def Linked : Prop := ∀ st, (reg.state st).link ≠ none → (reg.state st).status = .established

theorem Linked.none {reg : Registry} (h : Linked reg) (hs : (reg.state st).status ≠ .established) :
    (reg.state st).link = none :=
  by_contra (fun hl => hs (h st hl))

theorem quietState_updateStatus (status : LinkStatus) (hlink : s.link = none) (hs : s.status ≠ .established)
    (hstat : status ≠ .destRemoved ∧ status ≠ .established) : QuietState s (updateStatus s status) := by
  by_cases h : s.status = status
  · rw [updateStatus_of_eq h]
    exact .refl s
  · refine ⟨?_, ?_, ?_, fun _ => ?_⟩
    · simp [updateStatus, h]
    · simp [updateStatus, h, hlink]
    · rw [updateStatus_status]
      exact ⟨fun he => absurd he hstat.2, fun he => absurd he hs⟩
    · rw [updateStatus_status]
      exact hstat.1

/-- The links that are registered are the same, the closed ones stay closed. -/
def KeepsLinks (reg' : Registry) : Prop := reg'.linkMap = reg.linkMap ∧ ∀ l ∈ reg.closed, l ∈ reg'.closed

theorem KeepsLinks.refl : KeepsLinks reg reg := ⟨rfl, fun _ h => h⟩

theorem KeepsLinks.trans (h : KeepsLinks a b) (h' : KeepsLinks b c) : KeepsLinks a c :=
  ⟨h'.1.trans h.1, fun l hl => h'.2 l (h.2 l hl)⟩

theorem keepsLinks_of_touches {reg : Registry} (h : Touches on reg reg') : KeepsLinks reg reg' :=
  ⟨h.links.1, fun _ hl => h.links.2.2 ▸ hl⟩

structure Quiet (reg reg' : Registry) : Prop extends SameMaps reg reg' where
  links : KeepsLinks reg reg'
  quiet : ∀ st, QuietState (reg.state st) (reg'.state st)

theorem Quiet.refl : Quiet reg reg := ⟨.refl reg, .refl reg, fun _ => .refl _⟩

variable {reg}

theorem Quiet.trans (h : Quiet a b) (h' : Quiet b c) : Quiet a c :=
  ⟨h.toSameMaps.trans h'.toSameMaps, h.links.trans h'.links, fun st => (h.quiet st).trans (h'.quiet st)⟩

theorem Quiet.linked (h : Quiet reg reg') (hl : Linked reg) : Linked reg' := by
  intro st hlink
  rw [(h.quiet st).link] at hlink
  exact (h.quiet st).established.mpr (hl st hlink)

theorem quiet_setState {f : LinkState → LinkState}
    (hf : (f (reg.state st)).linkKey = (reg.state st).linkKey ∧ (f (reg.state st)).dest = (reg.state st).dest ∧
      (f (reg.state st)).linkId = (reg.state st).linkId ∧
      (f (reg.state st)).allowedDials = (reg.state st).allowedDials)
    (hq : QuietState (reg.state st) (f (reg.state st))) : Quiet reg (setState reg st f) := by
  refine ⟨(touches_setState hf).toSameMaps, .refl reg, fun st' => ?_⟩
  by_cases h : st' = st
  · subst h
    simpa only [setState, Function.update_self] using hq
  · simp only [setState, Function.update_of_ne h]
    exact .refl _

theorem quiet_links (h : SameMaps reg reg') (hlinks : KeepsLinks reg reg')
    (hstate : reg'.state = reg.state) : Quiet reg reg' :=
  ⟨h, hlinks, fun st => by rw [hstate]; exact .refl _⟩

variable (turn : Turn)

theorem quiet_dialFailed (hun : Unlimited reg) (st : StateRef) (applyFailed : Bool) :
    Quiet reg (dialFailed turn reg st applyFailed) := by
  have ht := touches_dialFailed turn hun st applyFailed
  refine ⟨ht.toSameMaps, keepsLinks_of_touches ht, fun st' => ?_⟩
  by_cases h : st' = st
  · subst h
    have hpositive : ¬ -1 > 0 := by decide
    have hzero : ¬ (-1 = 0) := by decide
    simp only [dialFailed, hun st', if_neg hpositive, if_neg hzero, setState, Function.update_self]
    exact ⟨rfl, rfl, .rfl, fun ha => ha⟩
  · rw [ht.others st' h]
    exact .refl _

theorem quietState_startDial (hlink : s.link = none) (hs : s.status ≠ .established) : QuietState s (startDial s) := by
  have h := quietState_updateStatus .dialing hlink hs (by decide)
  exact ⟨h.faults, h.link, h.established, h.alive⟩

theorem quietState_refuseDial (hlink : s.link = none) (hs : s.status ≠ .established) : QuietState s (refuseDial s) := by
  have hactive : QuietState s { s with dialActive := false } := ⟨rfl, rfl, .rfl, fun h => h⟩
  exact hactive.trans (quietState_updateStatus .queueFailed hlink hs (by decide))

theorem quiet_evaluateLinkState (hun : Unlimited reg) (hl : Linked reg) (st : StateRef) :
    Quiet reg (evaluateLinkState turn reg st) := by
  simp only [evaluateLinkState]
  split
  · rename_i hcould
    simp only [couldDial, Bool.and_eq_true, decide_eq_true_eq] at hcould
    have hest := hcould.1.1
    have hdialing : Quiet reg (setState reg st startDial) :=
      quiet_setState (inPlace_updateStatus .dialing _) (quietState_startDial (hl.none hest) hest)
    split
    · exact ⟨⟨rfl, fun _ => ⟨rfl, rfl⟩, ⟨rfl, rfl⟩, rfl, hdialing.states⟩, .refl reg, hdialing.quiet⟩
    · have hne : ((setState reg st startDial).state st).status ≠ .established := by
        have hstat : ((setState reg st startDial).state st).status = .dialing := by
          simp [setState, startDial, updateStatus_status]
        rw [hstat]
        decide
      have hrefused : Quiet (setState reg st startDial) (setState (setState reg st startDial) st refuseDial) :=
        quiet_setState (inPlace_updateStatus .queueFailed _)
          (quietState_refuseDial ((hdialing.linked hl).none hne) hne)
      have hfailed := hdialing.trans hrefused
      exact hfailed.trans (quiet_dialFailed turn (hfailed.unlimited hun) st false)
  · exact .refl reg

structure Tidy (reg : Registry) : Prop extends Owned reg where
  linked : Linked reg
  alive : ∀ st, Stored reg st → (reg.state st).status ≠ .destRemoved

theorem Quiet.tidy (h : Quiet reg reg') (ht : Tidy reg) : Tidy reg' where
  toOwned := h.toSameMaps.owned ht.toOwned
  linked := h.linked ht.linked
  alive st hst := (h.quiet st).alive (ht.alive st ((h.stored_iff st).mp hst))

/-- Each fault is still there, or one with its id and a later iteration. -/
def KeepsFaults (faults faults' : List LinkFault) : Prop :=
  ∀ fault ∈ faults, ∃ fault' ∈ faults', fault'.linkId = fault.linkId ∧ fault.iteration ≤ fault'.iteration

theorem KeepsFaults.of_eq {faults faults' : List LinkFault} (h : faults' = faults) : KeepsFaults faults faults' :=
  fun fault hf => ⟨fault, h ▸ hf, rfl, le_rfl⟩

theorem KeepsFaults.trans {a b c : List LinkFault} (h : KeepsFaults a b) (h' : KeepsFaults b c) : KeepsFaults a c := by
  intro fault hf
  obtain ⟨fault', hf', hid, hle⟩ := h fault hf
  obtain ⟨fault'', hf'', hid', hle'⟩ := h' fault' hf'
  exact ⟨fault'', hf'', hid'.trans hid, le_trans hle hle'⟩

/-- What a step does to the faults and links of the states it finds in the
maps, but for states it takes out and links it takes from their states. -/
structure Keeps (lost freed : StateRef → Prop) (reg reg' : Registry) : Prop extends Tidy reg' where
  links : KeepsLinks reg reg'
  kept : ∀ st, Stored reg st → ¬ lost st → Stored reg' st ∧
    KeepsFaults (reg.state st).linkFaults (reg'.state st).linkFaults ∧
    ((reg'.state st).link = (reg.state st).link ∨ freed st)

variable {lost freed : StateRef → Prop}

theorem Keeps.refl (ht : Tidy reg) : Keeps lost freed reg reg :=
  ⟨ht, .refl reg, fun _ hst _ => ⟨hst, .of_eq rfl, .inl rfl⟩⟩

theorem Keeps.trans (h : Keeps lost freed a b) (h' : Keeps lost freed b c) : Keeps lost freed a c := by
  refine ⟨h'.toTidy, h.links.trans h'.links, fun st hst hlost => ?_⟩
  obtain ⟨hst', hfaults, hlink⟩ := h.kept st hst hlost
  obtain ⟨hst'', hfaults', hlink'⟩ := h'.kept st hst' hlost
  refine ⟨hst'', hfaults.trans hfaults', ?_⟩
  rcases hlink with hlink | hfreed
  · rcases hlink' with hlink' | hfreed
    · exact .inl (hlink'.trans hlink)
    · exact .inr hfreed
  · exact .inr hfreed

theorem Quiet.keeps (h : Quiet reg reg') (ht : Tidy reg) : Keeps lost freed reg reg' :=
  ⟨h.tidy ht, h.links, fun st hst _ => ⟨(h.stored_iff st).mpr hst, .of_eq (h.quiet st).faults,
    .inl (h.quiet st).link⟩⟩

theorem keeps_removeLinkDest (ht : Tidy reg) {id : Id} :
    Keeps (fun st => ∃ d, reg.destinations.lookup id = some d ∧ st ∈ destStates reg d) (fun _ => False) reg
      (removeLinkDest reg id) := by
  unfold removeLinkDest
  cases hd : reg.destinations.lookup id with
  | none => exact .refl ht
  | some d =>
    have h := dismissed_foldl (destStates reg d) { reg with destinations := reg.destinations.erase id }
    have hstored : ∀ st, Stored ((destStates reg d).foldl removeDestState
        { reg with destinations := reg.destinations.erase id }) st ↔ Stored reg st ∧ st ∉ destStates reg d :=
      fun st => (h.stored_iff st).trans (ht.stored_erase hd)
    refine ⟨⟨h.toSameMaps.owned (owned_erase ht.toOwned id), fun st hlink => ?_, fun st hst => ?_⟩, h.links, ?_⟩
    · by_cases hmem : st ∈ destStates reg d
      · rw [h.removed st hmem] at hlink
        unfold updateStatus at hlink
        split at hlink
        · simp at hlink
        · rename_i hstat
          have hne : (reg.state st).status ≠ .established := by
            rw [not_not.mp hstat]
            decide
          exact absurd (ht.linked.none hne) hlink
      · rw [h.others st hmem] at hlink ⊢
        exact ht.linked st hlink
    · obtain ⟨hst', hmem⟩ := (hstored st).mp hst
      rw [h.others st hmem]
      exact ht.alive st hst'
    · intro st hst hlost
      have hmem : st ∉ destStates reg d := fun hm => hlost ⟨d, rfl, hm⟩
      refine ⟨(hstored st).mpr ⟨hst, hmem⟩, .of_eq ?_, .inl ?_⟩ <;> rw [h.others st hmem]

theorem keeps_addLinkState (ht : Tidy reg) {d : DestRef} (hs : s.dest = d)
    (hnew : s.allowedDials = -1 ∧ s.link = none ∧ s.status ≠ .destRemoved)
    (hkey : (reg.dest d).linkMap.lookup s.linkKey = none) : Keeps lost freed reg (addLinkState reg d s) := by
  refine ⟨⟨owned_addLinkState ht.toOwned hs hnew.1, fun st hlink => ?_, fun st hst => ?_⟩, .refl reg,
    fun st hst _ => ?_⟩
  · by_cases h : st = reg.nextState
    · rw [h, addLinkState_new] at hlink
      exact absurd hnew.2.1 hlink
    · rw [addLinkState_other h] at hlink ⊢
      exact ht.linked st hlink
  · by_cases h : st = reg.nextState
    · rw [h, addLinkState_new]
      exact hnew.2.2
    · rw [addLinkState_other h]
      exact ht.alive st ((stored_addLinkState hkey h).mp hst)
  · have hne := ne_of_lt (Stored.lt ht.toOwned hst)
    refine ⟨(stored_addLinkState hkey hne).mpr hst, .of_eq ?_, .inl ?_⟩ <;> rw [addLinkState_other hne]

theorem quiet_closeStateLink : Quiet reg (closeStateLink reg st) :=
  quiet_links (sameMaps_closeStateLink reg st)
    ⟨by rw [closeStateLink_eq], fun l hl => by rw [closeStateLink_eq]; exact List.mem_append_right _ hl⟩
    (by rw [closeStateLink_eq])

theorem quiet_redial (reg : Registry) (st : StateRef) : Quiet reg (setState reg st (redial turn)) :=
  quiet_setState ⟨rfl, rfl, rfl, rfl⟩ ⟨rfl, rfl, .rfl, fun h => h⟩

theorem quiet_change (h : Change turn reg st reg') (hun : Unlimited reg) (hl : Linked reg) : Quiet reg reg' := by
  cases h with
  | listener => exact quiet_setState ⟨rfl, rfl, rfl, rfl⟩ ⟨rfl, rfl, .rfl, fun h => h⟩
  | redial => exact quiet_redial turn reg st
  | evaluate => exact quiet_evaluateLinkState turn hun hl st

variable {d : DestRef} {start : Registry}

theorem keeps_eraseKey (ht : Tidy reg) {key : String} (hk : (reg.dest d).linkMap.lookup key = some st) (hlost : lost st) :
    Keeps lost freed reg (eraseKey reg d key) := by
  refine ⟨⟨owned_eraseKey ht.toOwned, ht.linked, fun st' h => ht.alive st' (stored_of_eraseKey h)⟩, .refl reg, ?_⟩
  intro st' hst' hkeep
  have hne : st' ≠ st := fun heq => hkeep (heq ▸ hlost)
  exact ⟨stored_eraseKey hk hne hst', .of_eq rfl, .inl rfl⟩

theorem keeps_addDest (ht : Tidy reg) {id : Id} (hid : reg.destinations.lookup id = none) :
    Keeps lost freed reg (addDest reg id) :=
  ⟨⟨owned_addDest ht.toOwned, ht.linked, fun st h => ht.alive st ((ht.stored_addDest hid).mp h)⟩, .refl reg,
    fun _ hst _ => ⟨(ht.stored_addDest hid).mpr hst, .of_eq rfl, .inl rfl⟩⟩

theorem keeps_linkDestUpdate (ht : Tidy reg) {turn : Turn} {u : LinkDestUpdate} :
    Keeps (OrphanOf turn reg u) (fun _ => False) reg (linkDestUpdate turn reg u) := by
  refine kept_linkDestUpdate ?_ (.refl ht)
  refine { owned := fun h => h.toOwned, addDest := keeps_addDest ht, dest := fun h => ?_, change := fun h _ _ hc => ?_,
           close := fun h => ?_, add := fun h _ hnew => ?_, drop := fun h hk ho => ?_ }
  · exact h.trans ((quiet_links (sameMaps_updateDest turn _ u _) (.refl _) rfl).keeps h.toTidy)
  · exact h.trans ((quiet_change turn hc h.unlimited h.linked).keeps h.toTidy)
  · exact h.trans (quiet_closeStateLink.keeps h.toTidy)
  · exact h.trans (keeps_addLinkState h.toTidy rfl ⟨rfl, rfl, fun h => by cases h⟩ hnew)
  · exact h.trans (keeps_eraseKey h.toTidy hk ho)

/-- A state whose link is taken from it without a fault. -/
structure Detached (s s' : LinkState) : Prop where
  faults : s'.linkFaults = s.linkFaults
  link : s'.link = none
  status : s'.status ≠ .established ∧ s'.status ≠ .destRemoved

theorem detached_updateStatus (status : LinkStatus) (hs : s.status = .established)
    (hstat : status ≠ .established ∧ status ≠ .destRemoved) : Detached s (updateStatus s status) := by
  have hne : s.status ≠ status := fun h => hstat.1 (h.symm.trans hs)
  rw [updateStatus_of_ne hne]
  exact ⟨rfl, if_pos hstat.1, hstat⟩

theorem tidy_detach (ht : Tidy reg) (h : Touches (· = st) reg reg') (hd : Detached (reg.state st) (reg'.state st)) :
    Tidy reg' := by
  refine ⟨h.toSameMaps.owned ht.toOwned, fun st' hlink => ?_, fun st' hst => ?_⟩
  · by_cases heq : st' = st
    · subst heq
      exact absurd hd.link hlink
    · rw [h.others st' heq] at hlink ⊢
      exact ht.linked st' hlink
  · by_cases heq : st' = st
    · subst heq
      exact hd.status.2
    · rw [h.others st' heq]
      exact ht.alive st' ((h.stored_iff st').mp hst)

/-- The registry while a scan goes on, compared with the one it started from. -/
structure Scanned (lost : StateRef → Prop) (start reg : Registry) : Prop
    extends Keeps lost (fun st => (start.state st).status = .established ∧ hasOpenLink start st = false) start reg where
  dest : reg.dest = start.dest
  listed : ∀ id d, reg.destinations.lookup id = some d → start.destinations.lookup id = some d
  open' : ∀ st, hasOpenLink reg st = hasOpenLink start st
  established : ∀ st, (reg.state st).status = .established → (start.state st).status = .established

theorem hasOpenLink_congr (hkey : (reg'.state st).linkKey = (reg.state st).linkKey)
    (hstat : (reg'.state st).status = .established ↔ (reg.state st).status = .established)
    (hlinks : reg'.linkMap = reg.linkMap ∧ reg'.closed = reg.closed) : hasOpenLink reg' st = hasOpenLink reg st := by
  unfold hasOpenLink getLink isClosed
  rw [hkey, hlinks.1, hlinks.2, decide_eq_decide.mpr hstat]

theorem Scanned.quiet (hs : Scanned lost start reg) (h : Quiet reg reg')
    (ht : Touches on reg reg') : Scanned lost start reg' where
  toKeeps := hs.toKeeps.trans (h.keeps hs.toTidy)
  dest := ht.dest.trans hs.dest
  listed id d hd := hs.listed id d (h.destinations ▸ hd)
  open' st := by
    rw [hasOpenLink_congr (h.states st).1 (h.quiet st).established ⟨ht.links.1, ht.links.2.2⟩]
    exact hs.open' st
  established st hst := hs.established st ((h.quiet st).established.mp hst)

theorem scanned_scanState (hs : Scanned lost start reg) : Scanned lost start (scanState turn reg st) := by
  have hevaluate : ∀ {reg}, Scanned lost start reg → Scanned lost start (evaluateLinkState turn reg st) :=
    fun hs => hs.quiet (quiet_evaluateLinkState turn hs.unlimited hs.linked st)
      (touches_evaluateLinkState turn hs.unlimited)
  simp only [scanState]
  split
  · rename_i hclosed
    refine hevaluate ?_
    have ht : Touches (· = st) reg (setState reg st (fun s => updateStatus (redial turn s) .linkFailed)) :=
      touches_setState (inPlace_updateStatus .linkFailed _)
    have hself : (setState reg st (fun s => updateStatus (redial turn s) .linkFailed)).state st =
        updateStatus (redial turn (reg.state st)) .linkFailed := by
      simp [setState]
    have hd : Detached (reg.state st)
        ((setState reg st (fun s => updateStatus (redial turn s) .linkFailed)).state st) := by
      rw [hself]
      have h := detached_updateStatus (s := redial turn (reg.state st)) .linkFailed hclosed.1 (by decide)
      exact ⟨h.faults, h.link, h.status⟩
    refine ⟨⟨tidy_detach hs.toTidy ht hd, hs.links, fun st' hst' hlost => ?_⟩,
      hs.dest, hs.listed, fun st' => ?_, fun st' h => ?_⟩
    · obtain ⟨hst, hfaults, hlink⟩ := hs.kept st' hst' hlost
      refine ⟨(ht.stored_iff st').mpr hst, ?_⟩
      by_cases heq : st' = st
      · subst heq
        exact ⟨hfaults.trans (.of_eq hd.faults), .inr ⟨hs.established st' hclosed.1, (hs.open' st').symm.trans hclosed.2⟩⟩
      · rw [ht.others st' heq]
        exact ⟨hfaults, hlink⟩
    · by_cases heq : st' = st
      · subst heq
        rw [← hs.open', hclosed.2]
        simp [hasOpenLink, hd.status.1]
      · have hstate := ht.others st' heq
        rw [← hs.open']
        exact hasOpenLink_congr (by rw [hstate]) (by rw [hstate]) ⟨rfl, rfl⟩
    · by_cases heq : st' = st
      · subst heq
        exact absurd h hd.status.1
      · rw [ht.others st' heq] at h
        exact hs.established st' h
  · exact hevaluate hs

theorem Scanned.expired (hs : Scanned lost start reg) (d : DestRef) : expired turn reg d = expired turn start d := by
  unfold LinkRegistry.expired destStates
  rw [hs.dest, funext hs.open']

theorem scanned_evaluateDestination (hs : Scanned lost start reg) {e : Id × DestRef}
    (he : start.destinations.lookup e.1 = some e.2)
    (hlost : expired turn start e.2 = true → ∀ st ∈ destStates start e.2, lost st) :
    Scanned lost start (evaluateDestination turn reg e) := by
  have hscan : Scanned lost start ((destStates reg e.2).foldl (scanState turn) reg) :=
    List.foldlRecOn _ _ hs (fun _ hs' st _ => scanned_scanState turn hs')
  simp only [evaluateDestination]
  split
  · rename_i hdrop
    generalize (destStates reg e.2).foldl (scanState turn) reg = reg' at hscan hdrop
    have hstored : ∀ st, Stored { reg' with destinations := reg'.destinations.erase e.1 } st → Stored reg' st := by
      rintro st ⟨hd, hk⟩
      exact ⟨(lookup_of_erase hd).2, hk⟩
    refine ⟨⟨⟨owned_erase hscan.toOwned e.1, hscan.linked, fun st h => hscan.alive st (hstored st h)⟩,
      hscan.links, ?_⟩,
      hscan.dest, forall_erase hscan.listed, hscan.open', hscan.established⟩
    intro st hst hkeep
    obtain ⟨hst', hfaults, hlink⟩ := hscan.kept st hst hkeep
    refine ⟨⟨?_, hst'.2⟩, hfaults, hlink⟩
    rw [lookup_erase_eq, if_neg]
    · exact hst'.1
    · -- the state would be among those of the destination that is dropped
      intro heq
      have hd := hscan.listed _ _ hst'.1
      rw [heq, he] at hd
      have hk := hst'.2
      rw [← Option.some.inj hd] at hk
      rcases Bool.or_eq_true_iff.mp hdrop with hempty | hexpired
      · exact isEmpty_iff.mp hempty _ (mem_of_lookup hk)
      · rw [hs.expired] at hexpired
        rw [hscan.dest] at hk
        exact hkeep (hlost hexpired st (mem_destStates.mpr ⟨_, hk⟩))
  · exact hscan

theorem keeps_evaluateDestinations (ht : Tidy reg) {turn : Turn} :
    Keeps (fun st => ∃ id d, reg.destinations.lookup id = some d ∧ expired turn reg d = true ∧ st ∈ destStates reg d)
      (fun st => (reg.state st).status = .established ∧ hasOpenLink reg st = false) reg
      (evaluateDestinations turn reg) := by
  refine (List.foldlRecOn (motive := Scanned _ reg) _ _ ⟨.refl ht, rfl, fun _ _ h => h, fun _ => rfl, fun _ h => h⟩
    (fun reg' hs e he => ?_)).toKeeps
  exact scanned_evaluateDestination turn hs (mem_pairs.mp he)
    (fun hexpired st hst => ⟨e.1, e.2, mem_pairs.mp he, hexpired, hst⟩)

end Zt.LinkKeeping
