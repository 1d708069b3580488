import Zt.LinkKeeping
import Zt.LinkNotices

namespace Zt.LinkFaults

open LinkRegistry LinkEntries LinkDials LinkKeeping LinkNotices
open EdgeCtrl (Id)
open List (not_mem_nil mem_cons mem_cons_self mem_cons_of_mem foldlRecOn)

variable {faults : List LinkFault} {linkId : Id} {iteration : Nat} {fault : LinkFault} {turn : Turn}

theorem keepsFaults_addPendingLinkFault : KeepsFaults faults (addPendingLinkFault linkId iteration faults) := by
  induction faults with
  | nil => exact fun fault hf => absurd hf not_mem_nil
  | cons head faults ih =>
    intro fault hf
    simp only [addPendingLinkFault]
    by_cases hid : head.linkId = linkId
    · rw [if_pos hid]
      rcases mem_cons.mp hf with rfl | hf
      · split
        · rename_i hlt
          exact ⟨_, mem_cons_self, rfl, le_of_lt hlt⟩
        · exact ⟨_, mem_cons_self, rfl, le_refl _⟩
      · exact ⟨fault, mem_cons_of_mem _ hf, rfl, le_refl _⟩
    · rw [if_neg hid]
      rcases mem_cons.mp hf with rfl | hf
      · exact ⟨_, mem_cons_self, rfl, le_refl _⟩
      · obtain ⟨fault', hf', h⟩ := ih fault hf
        exact ⟨fault', mem_cons_of_mem _ hf', h⟩

theorem addPendingLinkFault_covers :
    ∃ fault ∈ addPendingLinkFault linkId iteration faults, fault.linkId = linkId ∧ iteration ≤ fault.iteration := by
  induction faults with
  | nil => exact ⟨_, mem_cons_self, rfl, le_refl _⟩
  | cons head faults ih =>
    simp only [addPendingLinkFault]
    by_cases hid : head.linkId = linkId
    · rw [if_pos hid]
      refine ⟨_, mem_cons_self, ?_⟩
      split
      · exact ⟨hid, le_refl _⟩
      · rename_i hlt
        exact ⟨hid, Nat.le_of_not_lt hlt⟩
    · rw [if_neg hid]
      obtain ⟨fault, hf, h⟩ := ih
      exact ⟨fault, mem_cons_of_mem _ hf, h⟩

theorem mem_clearFault {toClear : LinkFault} (hf : fault ∈ faults) :
    fault ∈ clearFault toClear faults ∨ toClear.linkId = fault.linkId ∧ fault.iteration ≤ toClear.iteration := by
  by_cases h : fault.linkId ≠ toClear.linkId ∨ toClear.iteration < fault.iteration
  · exact .inl (List.mem_filter.mpr ⟨hf, decide_eq_true h⟩)
  · rw [not_or, not_not, not_lt] at h
    exact .inr ⟨h.1.symm, h.2⟩

theorem mem_clearFaults {cleared : List LinkFault} (hf : fault ∈ faults) :
    fault ∈ cleared.foldl (fun faults fault => clearFault fault faults) faults ∨
      ∃ fault' ∈ cleared, fault'.linkId = fault.linkId ∧ fault.iteration ≤ fault'.iteration := by
  induction cleared generalizing faults with
  | nil => exact .inl hf
  | cons toClear cleared ih =>
    rcases mem_clearFault hf with hf' | h
    · exact (ih hf').imp_right (fun ⟨fault', hf', h⟩ => ⟨fault', mem_cons_of_mem _ hf', h⟩)
    · exact .inr ⟨toClear, mem_cons_self, h⟩

section Events

variable {reg reg' : Registry} {st : StateRef} {l : Xlink} {lost freed : StateRef → Prop}

theorem keeps_touch (ht : Tidy reg) (h : Touches (· = st) reg reg')
    (hlinked : (reg'.state st).link ≠ none → (reg'.state st).status = .established)
    (halive : Stored reg st → (reg'.state st).status ≠ .destRemoved)
    (hfaults : KeepsFaults (reg.state st).linkFaults (reg'.state st).linkFaults)
    (hlink : (reg'.state st).link = (reg.state st).link ∨ freed st) : Keeps lost freed reg reg' := by
  refine ⟨⟨h.toSameMaps.owned ht.toOwned, fun st' hl => ?_, fun st' hst => ?_⟩, keepsLinks_of_touches h,
    fun st' hst _ => ⟨(h.stored_iff st').mpr hst, ?_⟩⟩
  · by_cases heq : st' = st
    · subst heq
      exact hlinked hl
    · rw [h.others st' heq] at hl ⊢
      exact ht.linked st' hl
  · by_cases heq : st' = st
    · subst heq
      exact halive ((h.stored_iff st').mp hst)
    · rw [h.others st' heq]
      exact ht.alive st' ((h.stored_iff st').mp hst)
  · by_cases heq : st' = st
    · subst heq
      exact ⟨hfaults, hlink⟩
    · rw [h.others st' heq]
      exact ⟨.of_eq rfl, .inl rfl⟩

theorem setState_self (reg : Registry) (st : StateRef) (f : LinkState → LinkState) :
    (setState reg st f).state st = f (reg.state st) := by
  simp [setState]

variable {turn : Turn}

theorem updateLinkStatusForLink_eq (ht : Tidy reg) (hst : stateFor reg l = some st)
    (status : LinkStatus) : updateLinkStatusForLink turn reg l status = applyStatus turn reg st l status := by
  simp [updateLinkStatusForLink, hst, if_neg (ht.alive st (ht.stored_stateFor hst))]

theorem keeps_established (ht : Tidy reg) (turn : Turn) (st : StateRef) (l : Xlink) :
    Keeps lost (fun st' => st' = st ∧ (reg.state st).link ≠ some l) reg (applyStatus turn reg st l .established) := by
  have hself : (applyStatus turn reg st l .established).state st =
      { updateStatus (reg.state st) .established with
        connectedCount := (updateStatus (reg.state st) .established).connectedCount + 1
        retryDelay := 0, ctrlsNotified := false, link := some l } := by
    simp [applyStatus, linkEstablished, setState_self]
  have hstat : ((applyStatus turn reg st l .established).state st).status = .established := by
    rw [hself]
    exact updateStatus_status
  refine keeps_touch ht (touches_applyStatus turn ht.unlimited st l .established) (fun _ => hstat) ?_ ?_ ?_
  · intro _
    rw [hstat]
    decide
  · refine .of_eq ?_
    rw [hself]
    unfold updateStatus
    split <;> rfl
  · by_cases hl : (reg.state st).link = some l
    · left
      rw [hself, hl]
    · exact .inr ⟨rfl, hl⟩

theorem linkFailed_state (turn : Turn) (reg : Registry) (st : StateRef) (l : Xlink) :
    ((linkFailed turn reg st l).state st).linkFaults = addPendingLinkFault l.id l.iteration
        ((evaluateLinkState turn (setState reg st (redial turn)) st).state st).linkFaults ∧
      ((linkFailed turn reg st l).state st).link = none ∧ ((linkFailed turn reg st l).state st).status =
        ((evaluateLinkState turn (setState reg st (redial turn)) st).state st).status := by
  unfold linkFailed addFault
  rw [setState_self, setState_self]
  exact ⟨rfl, rfl, rfl⟩

/-- The closing of a link takes the link from its state and adds a fault. -/
theorem applyStatus_linkFailed (turn : Turn) (ht : Tidy reg) (st : StateRef) (l : Xlink) :
    ((applyStatus turn reg st l .linkFailed).state st).linkFaults =
        addPendingLinkFault l.id l.iteration (reg.state st).linkFaults ∧
      ((applyStatus turn reg st l .linkFailed).state st).link = none ∧
      ((applyStatus turn reg st l .linkFailed).state st).status ≠ .destRemoved := by
  have hupdate : Touches (· = st) reg (setState reg st (fun s => updateStatus s .linkFailed)) :=
    touches_setState (inPlace_updateStatus .linkFailed _)
  have hlinked : Linked (setState reg st (fun s => updateStatus s .linkFailed)) := by
    intro st' hl
    by_cases heq : st' = st
    · subst heq
      rw [setState_self] at hl
      unfold updateStatus at hl
      split at hl
      · simp at hl
      · rename_i hstat
        have hne : (reg.state st').status ≠ .established := by
          rw [not_not.mp hstat]
          decide
        exact absurd (ht.linked.none hne) hl
    · rw [hupdate.others st' heq] at hl ⊢
      exact ht.linked st' hl
  have hredial := quiet_redial turn (setState reg st (fun s => updateStatus s .linkFailed)) st
  have hquiet := hredial.trans (quiet_evaluateLinkState turn (hredial.unlimited (hupdate.unlimited ht.unlimited))
    (hredial.linked hlinked) st)
  have hfaults : (updateStatus (reg.state st) .linkFailed).linkFaults = (reg.state st).linkFaults := by
    unfold updateStatus
    split <;> rfl
  obtain ⟨hpend, hlink, hstat⟩ :=
    linkFailed_state turn (setState reg st (fun s => updateStatus s .linkFailed)) st l
  refine ⟨?_, hlink, ?_⟩
  · rw [applyStatus, hpend, (hquiet.quiet st).faults, setState_self, hfaults]
  · rw [applyStatus, hstat]
    refine (hquiet.quiet st).alive ?_
    rw [setState_self, updateStatus_status]
    decide

theorem keeps_linkFailed (ht : Tidy reg) (turn : Turn) (st : StateRef) (l : Xlink) :
    Keeps lost (fun st' => st' = st) reg (applyStatus turn reg st l .linkFailed) := by
  obtain ⟨hfaults, hlink, halive⟩ := applyStatus_linkFailed turn ht st l
  refine keeps_touch ht (touches_applyStatus turn ht.unlimited st l .linkFailed) (absurd hlink)
    (fun _ => halive) ?_ (.inr rfl)
  rw [hfaults]
  exact keepsFaults_addPendingLinkFault

theorem keeps_addFault (ht : Tidy reg) : Keeps lost freed reg (addFault reg st l) := by
  have hself : (addFault reg st l).state st =
      { reg.state st with linkFaults := addPendingLinkFault l.id l.iteration (reg.state st).linkFaults } :=
    setState_self _ _ _
  refine keeps_touch ht (touches_setState ⟨rfl, rfl, rfl, rfl⟩) ?_ ?_ ?_ (.inl ?_)
  · intro hl
    rw [hself] at hl ⊢
    exact ht.linked st hl
  · intro hst
    rw [hself]
    exact ht.alive st hst
  · rw [hself]
    exact keepsFaults_addPendingLinkFault
  · rw [hself]

/-- What clears faults and does nothing else. -/
structure Clears (why : StateRef → LinkFault → Prop) (reg reg' : Registry) : Prop extends SameMaps reg reg' where
  links : KeepsLinks reg reg'
  others : ∀ st, (reg'.state st).link = (reg.state st).link ∧ (reg'.state st).status = (reg.state st).status
  faults : ∀ st, ∀ fault ∈ (reg.state st).linkFaults, fault ∈ (reg'.state st).linkFaults ∨ why st fault

variable {why : StateRef → LinkFault → Prop}

theorem Clears.trans {a b c : Registry} (h : Clears why a b) (h' : Clears why b c) : Clears why a c where
  toSameMaps := h.toSameMaps.trans h'.toSameMaps
  links := h.links.trans h'.links
  others st := ⟨(h'.others st).1.trans (h.others st).1, (h'.others st).2.trans (h.others st).2⟩
  faults st fault hf := by
    rcases h.faults st fault hf with hf' | hwhy
    · exact h'.faults st fault hf'
    · exact .inr hwhy

theorem Clears.tidy (h : Clears why reg reg') (ht : Tidy reg) : Tidy reg' := by
  refine ⟨h.toSameMaps.owned ht.toOwned, fun st hl => ?_, fun st hst => ?_⟩
  · rw [(h.others st).1] at hl
    rw [(h.others st).2]
    exact ht.linked st hl
  · rw [(h.others st).2]
    exact ht.alive st ((h.stored_iff st).mp hst)

theorem clears_markFaultedLinksNotified (reg : Registry) (sent : List (StateRef × List LinkFault)) :
    Clears (fun st fault => ∃ pair ∈ sent, pair.1 = st ∧ ∃ fault' ∈ pair.2,
      fault'.linkId = fault.linkId ∧ fault.iteration ≤ fault'.iteration) reg (markFaultedLinksNotified reg sent) := by
  refine foldlRecOn _ _
    ⟨.refl reg, .refl reg, fun _ => ⟨rfl, rfl⟩, fun _ _ hf => .inl hf⟩ (fun reg' hc pair hpair => hc.trans ?_)
  have ht : Touches (· = pair.1) reg' (setState reg' pair.1 (fun s =>
      { s with linkFaults := pair.2.foldl (fun faults fault => clearFault fault faults) s.linkFaults })) :=
    touches_setState ⟨rfl, rfl, rfl, rfl⟩
  refine ⟨ht.toSameMaps, keepsLinks_of_touches ht, fun st => ?_, fun st fault hf => ?_⟩
  · by_cases heq : st = pair.1
    · subst heq
      rw [setState_self]
      exact ⟨rfl, rfl⟩
    · rw [ht.others st heq]
      exact ⟨rfl, rfl⟩
  · by_cases heq : st = pair.1
    · subst heq
      rw [setState_self]
      exact (mem_clearFaults hf).imp_right (fun h => ⟨pair, hpair, rfl, h⟩)
    · rw [ht.others st heq]
      exact .inl hf

/-- What a notification round makes of a link state. -/
inductive NoticeOf (reg : Registry) (s s' : LinkState) : Prop
  | same (heq : s' = s)
  | detached (hs : s.status = .established) (hn : s.ctrlsNotified = false) (hlink : getLink reg s.linkKey = none)
      (hd : Detached s s')
  | cleared (l : Xlink) (hs : s.status = .established) (hn : s.ctrlsNotified = false)
      (hlink : getLink reg s.linkKey = some l)
      (heq : s' = { s with linkFaults := clearFaultsForLinkId l.id s.linkFaults })

structure Notified (start : Registry) (acc : Registry × Notices) : Prop extends SameMaps start acc.1 where
  tidy : Tidy acc.1
  links : KeepsLinks start acc.1
  states' : ∀ st, NoticeOf start (start.state st) (acc.1.state st)
  announced : ∀ pair ∈ acc.2.links, ∃ key, getLink start key = some pair.2

theorem clearFaultsForLinkId_idem :
    clearFaultsForLinkId linkId (clearFaultsForLinkId linkId faults) = clearFaultsForLinkId linkId faults := by
  simp [clearFaultsForLinkId]

theorem notifyEstablished_spec (ht : Tidy reg)
    (hs : (reg.state st).status = .established) : (getLink reg (reg.state st).linkKey = none ∧
        Detached (reg.state st) ((notifyEstablished turn reg st).1.state st) ∧
        (notifyEstablished turn reg st).2 = []) ∨ ∃ l, getLink reg (reg.state st).linkKey = some l ∧
        (notifyEstablished turn reg st).1.state st =
          { reg.state st with linkFaults := clearFaultsForLinkId l.id (reg.state st).linkFaults } ∧
        ∀ pair ∈ (notifyEstablished turn reg st).2, pair.2 = l := by
  unfold notifyEstablished
  cases hlink : getLink reg (reg.state st).linkKey with
  | none =>
    left
    have hd := detached_updateStatus .dialFailed hs (by decide)
    have hupdate : Touches (· = st) reg (setState reg st (fun s => updateStatus s .dialFailed)) :=
      touches_setState (inPlace_updateStatus .dialFailed _)
    have hq := (quiet_dialFailed turn (hupdate.unlimited ht.unlimited) st false).quiet st
    rw [setState_self] at hq
    refine ⟨rfl, ⟨hq.faults.trans hd.faults, hq.link.trans hd.link, ?_, hq.alive hd.status.2⟩, rfl⟩
    exact fun h => hd.status.1 (hq.established.mp h)
  | some l =>
    right
    have hself := setState_self reg st
      (fun s => { s with linkFaults := clearFaultsForLinkId l.id s.linkFaults })
    refine ⟨l, rfl, hself, fun pair hp => ?_⟩
    simp only [] at hp
    split at hp
    · rw [List.mem_singleton.mp hp]
    · exact absurd hp not_mem_nil

theorem notified_notifyState {start : Registry} {acc : Registry × Notices} (hn : Notified start acc) :
    Notified start (notifyState turn acc st) := by
  have htouch := touches_notifyState turn acc st hn.tidy.unlimited
  have hget : ∀ key, getLink acc.1 key = getLink start key := fun key => by unfold getLink; rw [hn.links.1]
  by_cases hround : (acc.1.state st).ctrlsNotified = false ∧ (acc.1.state st).status = .established
  · have hreg : (notifyState turn acc st).1 = (notifyEstablished turn acc.1 st).1 := by
      simp [notifyState, if_pos hround]
    have hlinks : (notifyState turn acc st).2.links = acc.2.links ++ (notifyEstablished turn acc.1 st).2 := by
      simp [notifyState, if_pos hround]
    have hkey : (acc.1.state st).linkKey = (start.state st).linkKey := (hn.states st).1
    have hrest : ∀ st', st' ≠ st → NoticeOf start (start.state st') ((notifyState turn acc st).1.state st') := by
      intro st' hne
      rw [htouch.others st' hne]
      exact hn.states' st'
    rcases notifyEstablished_spec hn.tidy hround.2 with ⟨hnone, hd, hnil⟩ | ⟨l, hsome, heq, hall⟩
    · rw [hget, hkey] at hnone
      rw [← hreg] at hd
      refine ⟨hn.toSameMaps.trans htouch.toSameMaps, tidy_detach hn.tidy htouch hd,
        hn.links.trans (keepsLinks_of_touches htouch), fun st' => ?_, fun pair hp => ?_⟩
      · by_cases hst : st' = st
        · subst hst
          cases hn.states' st' with
          | same heq =>
            rw [heq] at hround hd
            exact .detached hround.2 hround.1 hnone hd
          | detached hs _ _ hd' => exact absurd hround.2 hd'.status.1
          | cleared l _ _ hlink _ =>
            rw [hnone] at hlink
            cases hlink
        · exact hrest st' hst
      · rw [hlinks, hnil, List.append_nil] at hp
        exact hn.announced pair hp
    · rw [hget, hkey] at hsome
      rw [← hreg] at heq
      have hclears : Clears (fun _ _ => True) acc.1 (notifyState turn acc st).1 := by
        refine ⟨htouch.toSameMaps, keepsLinks_of_touches htouch, fun st' => ?_, fun _ _ _ => .inr trivial⟩
        by_cases hst : st' = st
        · subst hst
          rw [heq]
          exact ⟨rfl, rfl⟩
        · rw [htouch.others st' hst]
          exact ⟨rfl, rfl⟩
      refine ⟨hn.toSameMaps.trans htouch.toSameMaps, hclears.tidy hn.tidy,
        hn.links.trans (keepsLinks_of_touches htouch), fun st' => ?_, fun pair hp => ?_⟩
      · by_cases hst : st' = st
        · subst hst
          rw [heq]
          cases hn.states' st' with
          | same hsame =>
            rw [hsame] at hround ⊢
            exact .cleared l hround.2 hround.1 hsome rfl
          | detached hs _ _ hd' => exact absurd hround.2 hd'.status.1
          | cleared l' hs hc hlink hsame =>
            rw [hsome] at hlink
            cases hlink
            rw [hsame]
            simp only [clearFaultsForLinkId_idem]
            exact .cleared l hs hc hsome rfl
        · exact hrest st' hst
      · rw [hlinks] at hp
        rcases List.mem_append.mp hp with hold | hnew
        · exact hn.announced pair hold
        · exact ⟨_, (hall pair hnew).symm ▸ hsome⟩
  · have hreg : (notifyState turn acc st).1 = acc.1 := by
      simp [notifyState, if_neg hround]
    have hlinks : (notifyState turn acc st).2.links = acc.2.links := by
      simp [notifyState, if_neg hround]
    refine ⟨?_, ?_, ?_, ?_, ?_⟩
    · rw [hreg]
      exact hn.toSameMaps
    · rw [hreg]
      exact hn.tidy
    · rw [hreg]
      exact hn.links
    · rw [hreg]
      exact hn.states'
    · rw [hlinks]
      exact hn.announced

theorem notified_notifyControllersOfLinks (turn : Turn) (ht : Tidy reg) :
    Notified reg (notifyControllersOfLinks turn reg) := by
  refine foldlRecOn _ _ ⟨.refl reg, ht, .refl reg, fun _ => .same rfl, ?_⟩
    (fun acc hn st _ => notified_notifyState hn)
  exact fun pair hp => absurd hp not_mem_nil

end Events

/-- The states that a step takes out of the maps. -/
def lostBy (turn : Turn) (reg : Registry) (st : StateRef) : Step → Prop
  | .removeLinkDest id => ∃ d, reg.destinations.lookup id = some d ∧ st ∈ destStates reg d
  | .linkDestUpdate u =>
    u.healthy = true ∧ ∃ d, reg.destinations.lookup u.id = some d ∧
      ∃ key ∈ orphaned turn reg u d, (reg.dest d).linkMap.lookup key = some st
  | .evaluateDestinations =>
    ∃ id d, reg.destinations.lookup id = some d ∧ expired turn reg d = true ∧ st ∈ destStates reg d
  | _ => False

/-- The states whose links a step gives up without a fault. -/
def freedBy (reg : Registry) (st : StateRef) : Step → Prop
  | .evaluateDestinations => (reg.state st).status = .established ∧ hasOpenLink reg st = false
  | _ => False

theorem quiet_updateLinkStatusToDialFailed {reg : Registry} (ht : Tidy reg) {st : StateRef}
    {applyFailed : Bool} : Quiet reg (updateLinkStatusToDialFailed turn reg st applyFailed) := by
  unfold updateLinkStatusToDialFailed
  split
  · rename_i hdialing
    have hne : (reg.state st).status ≠ .established := by
      rw [hdialing]
      decide
    have hupdate : Quiet reg (setState reg st (fun s => updateStatus s .dialFailed)) :=
      quiet_setState (inPlace_updateStatus .dialFailed _)
        (quietState_updateStatus .dialFailed (ht.linked.none hne) hne (by decide))
    exact hupdate.trans (quiet_dialFailed turn (hupdate.unlimited ht.unlimited) st applyFailed)
  · exact .refl reg

theorem quiet_evaluateLinkStateQueue {reg : Registry} (ht : Tidy reg) {due : List StateRef} :
    Quiet reg (evaluateLinkStateQueue turn reg due) := by
  refine foldlRecOn _ _ (.refl reg) (fun reg' hq st _ => ?_)
  split
  · have hpop : Quiet reg' { reg' with linkStateQueue := reg'.linkStateQueue.erase st } :=
      ⟨⟨rfl, fun _ => ⟨rfl, rfl⟩, ⟨rfl, rfl⟩, rfl, fun _ => ⟨rfl, rfl, rfl, rfl⟩⟩, .refl reg', fun _ => .refl _⟩
    have hpopped := hq.trans hpop
    exact hpopped.trans (quiet_evaluateLinkState turn (hpopped.unlimited ht.unlimited) (hpopped.linked ht.linked) st)
  · exact hq

theorem keeps_outside (turn : Turn) {reg : Registry} (ht : Tidy reg) {s : Step} (hs : isOutside s = true) :
    Keeps (fun st => lostBy turn reg st s) (fun st => freedBy reg st s) reg (step reg (turn, s)) := by
  cases s with
  | removeLinkDest id => exact keeps_removeLinkDest ht
  | linkDestUpdate u => exact keeps_linkDestUpdate ht
  | updateLinkStatusToDialFailed st applyFailed =>
    exact (quiet_updateLinkStatusToDialFailed ht).keeps ht
  | evaluateLinkStateQueue due => exact (quiet_evaluateLinkStateQueue ht).keeps ht
  | evaluateDestinations => exact keeps_evaluateDestinations ht
  | closeLink l =>
    exact (quiet_links sameMaps_closeLink ⟨rfl, fun _ h => mem_cons_of_mem _ h⟩ rfl).keeps ht
  | dialEnds st =>
    have hends : Quiet reg (dialEnds reg st) :=
      quiet_setState ⟨rfl, rfl, rfl, rfl⟩ ⟨rfl, rfl, .rfl, fun h => h⟩
    exact hends.keeps ht
  | updateLinkStatusForLink _ _ | addLinkFaultForReplacedLink _ | markNewLinksNotified _
  | markFaultedLinksNotified _ | notifyControllersOfLinks | applyLink _ | linkClosed _ => cases hs

end Zt.LinkFaults
