import Zt.LinkFaults

namespace Zt.LinkFaultRuns

open Tables LinkRegistry LinkEntries LinkKeeping LinkNotices LinkFaults

section Conditions

variable (sys : System)

/-- A controller was told of the link, or is being told. -/
def Known (l : Xlink) : Prop := l ∈ sys.reported ∨ ∃ r, sys.round = some r ∧ l ∈ r.links.map Prod.snd

/-- A closed link for which no fault has been sent since. -/
structure Unsent (l : Xlink) : Prop where
  handled : l ∈ sys.handled
  dialed : l.isDialed = true
  known : Known sys l
  unsent : ¬ SentSince sys l

/-- No closed link relies on the link of the state alone. -/
def Spare (st : StateRef) : Prop :=
  ∀ l', (sys.reg.state st).link = some l' → ∀ l, Unsent sys l → l.id = l'.id → l.iteration < l'.iteration →
    Pending sys.reg l

def CarefulEvent : Step → Prop
  | .updateLinkStatusForLink l .linkFailed =>
    (Known sys l → l.isDialed = true → ∃ st, stateFor sys.reg l = some st) ∧
      ∀ st, stateFor sys.reg l = some st → (sys.reg.state st).link ≠ some l → Spare sys st
  | .updateLinkStatusForLink l .established =>
    ∀ st, stateFor sys.reg l = some st → (sys.reg.state st).link ≠ some l → Spare sys st
  | .addLinkFaultForReplacedLink l => Known sys l → l.isDialed = true → ∃ st, stateFor sys.reg l = some st
  | .markFaultedLinksNotified successfullySent =>
    ∀ pair ∈ successfullySent, Stored sys.reg pair.1 → ∀ fault ∈ pair.2, ∀ l, Unsent sys l → covers fault l →
      Superseded sys.reg l
  | _ => True

/-- No step takes from the maps what a closed link is accounted for by. -/
def Careful : Act → Prop
  | .outside turn s =>
    (∀ st, Stored sys.reg st → lostBy turn sys.reg st s → (sys.reg.state st).linkFaults = [] ∧ Spare sys st) ∧
      ∀ st, Stored sys.reg st → freedBy sys.reg st s → Spare sys st
  | .handle _ i => ∀ e, sys.events[i]? = some e → CarefulEvent sys e
  | .notify _ _ =>
    sys.round = none → ∀ st, Stored sys.reg st → (sys.reg.state st).status = .established →
      (sys.reg.state st).ctrlsNotified = false →
      (getLink sys.reg (sys.reg.state st).linkKey = none → Spare sys st) ∧
      ∀ l', getLink sys.reg (sys.reg.state st).linkKey = some l' → ∀ l, Unsent sys l → l.id = l'.id →
        (∃ fault ∈ (sys.reg.state st).linkFaults, covers fault l) →
        (sys.reg.state st).link = some l' ∧ l.iteration < l'.iteration
  | _ => True

/-- Accounted for, also while the report is under way. -/
def Covered : Prop :=
  ∀ l ∈ sys.handled, l.isDialed = true → Known sys l →
    Pending sys.reg l ∨ SentSince sys l ∨ Superseded sys.reg l

def Carries (reg' : Registry) : Prop :=
  ∀ l, Unsent sys l → Pending sys.reg l ∨ Superseded sys.reg l → Pending reg' l ∨ Superseded reg' l

/-- The events that the registry queues for itself. -/
def isInternal : Step → Bool
  | .updateLinkStatusForLink _ .established => true
  | .updateLinkStatusForLink _ .linkFailed => true
  | .addLinkFaultForReplacedLink _ => true
  | .markNewLinksNotified _ => true
  | .markFaultedLinksNotified _ => true
  | _ => false

structure Sound : Prop where
  tidy : Tidy sys.reg
  keyed : ∀ key l, getLink sys.reg key = some l → l.key = key
  closed : ∀ entry ∈ sys.closedAt, entry.1 ∈ sys.reg.closed ∧ ∀ key, getLink sys.reg key ≠ some entry.1
  handled : ∀ l ∈ sys.handled, l ∈ sys.closedAt.map Prod.fst
  internal : ∀ e ∈ sys.events, isInternal e = true
  closing : ∀ e ∈ sys.events, ∀ l ∈ closedBy e, l ∈ sys.closedAt.map Prod.fst
  marked : ∀ faults, .markFaultedLinksNotified faults ∈ sys.events → ∀ pair ∈ faults, ∀ fault ∈ pair.2,
    fault ∈ sys.sent
  sent : ∀ r, sys.round = some r → ∀ pair ∈ r.successfullySent, pair.2 ∈ sys.sent

end Conditions

variable {sys sys' : System} {reg' : Registry} {e : Step} {l : Xlink} {turn : Turn}

theorem Covered.step (hc : Covered sys) (hcarry : Carries sys sys'.reg)
    (hold : ∀ l ∈ sys'.handled, l.isDialed = true → Known sys' l →
      l ∈ sys.handled ∧ Known sys l ∨ Pending sys'.reg l)
    (hclosed : ∀ entry ∈ sys.closedAt, entry ∈ sys'.closedAt) (hsent : ∃ more, sys'.sent = sys.sent ++ more) :
    Covered sys' := by
  intro l hl hdialed hknown
  rcases hold l hl hdialed hknown with ⟨hl', hknown'⟩ | hp
  · by_cases hs : SentSince sys l
    · obtain ⟨n, hn, fault, hf, hcov⟩ := hs
      obtain ⟨more, hmore⟩ := hsent
      refine .inr (.inl ⟨n, hclosed _ hn, fault, ?_, hcov⟩)
      rw [hmore, List.drop_append]
      exact List.mem_append_left _ hf
    · have hbefore : Pending sys.reg l ∨ Superseded sys.reg l := by
        rcases hc l hl' hdialed hknown' with h | h | h
        · exact .inl h
        · exact absurd h hs
        · exact .inr h
      rcases hcarry l ⟨hl', hdialed, hknown', hs⟩ hbefore with h | h
      · exact .inl h
      · exact .inr (.inr h)
  · exact .inl hp

section Keeping

variable {lost freed : StateRef → Prop}

theorem pending_keeps (hk : Keeps lost freed sys.reg reg')
    (hlost : ∀ st, Stored sys.reg st → lost st → (sys.reg.state st).linkFaults = []) (hp : Pending sys.reg l) :
    Pending reg' l := by
  obtain ⟨st, hst, fault, hf, hid, hle⟩ := hp
  have hkept : ¬ lost st := by
    intro h
    rw [hlost st hst h] at hf
    cases hf
  obtain ⟨hst', hfaults, _⟩ := hk.kept st hst hkept
  obtain ⟨fault', hf', hid', hle'⟩ := hfaults fault hf
  exact ⟨st, hst', fault', hf', hid'.trans hid, le_trans hle hle'⟩

theorem carries_keeps (hk : Keeps lost freed sys.reg reg')
    (hlost : ∀ st, Stored sys.reg st → lost st → (sys.reg.state st).linkFaults = [] ∧ Spare sys st)
    (hfreed : ∀ st, Stored sys.reg st → freed st → ∀ l', (sys.reg.state st).link = some l' → ∀ l, Unsent sys l →
      l.id = l'.id → l.iteration < l'.iteration → Pending sys.reg l ∨ Pending reg' l) : Carries sys reg' := by
  have hpend : ∀ {l}, Pending sys.reg l → Pending reg' l :=
    fun hp => pending_keeps hk (fun st hst h => (hlost st hst h).1) hp
  intro l hu h
  rcases h with hp | ⟨st, hst, _, l', hl', hid, hlt⟩
  · exact .inl (hpend hp)
  · by_cases hl : lost st
    · exact .inl (hpend ((hlost st hst hl).2 l' hl' l hu hid.symm hlt))
    · obtain ⟨hst', _, hlink | hf⟩ := hk.kept st hst hl
      · rw [hl'] at hlink
        refine .inr ⟨st, hst', hk.linked st ?_, l', hlink, hid, hlt⟩
        rw [hlink]
        exact Option.some_ne_none l'
      · rcases hfreed st hst hf l' hl' l hu hid.symm hlt with hp | hp
        · exact .inl (hpend hp)
        · exact .inl hp

end Keeping

theorem carries_same (h : SameMaps sys.reg reg') (hstate : reg'.state = sys.reg.state) : Carries sys reg' := by
  intro l _ hl
  rcases hl with ⟨st, hst, hf⟩ | ⟨st, hst, hs⟩
  · exact .inl ⟨st, (h.stored_iff st).mpr hst, hstate ▸ hf⟩
  · exact .inr ⟨st, (h.stored_iff st).mpr hst, hstate ▸ hs⟩

theorem carries_clears {why : StateRef → LinkFault → Prop} (h : Clears why sys.reg reg')
    (hwhy : ∀ st fault, Stored sys.reg st → why st fault → ∀ l, Unsent sys l → covers fault l →
      Superseded sys.reg l) : Carries sys reg' := by
  have hsuper : ∀ {l}, Superseded sys.reg l → Superseded reg' l := by
    rintro l ⟨st, hst, hs, hl⟩
    refine ⟨st, (h.stored_iff st).mpr hst, ?_⟩
    rw [(h.others st).1, (h.others st).2]
    exact ⟨hs, hl⟩
  intro l hu hl
  rcases hl with ⟨st, hst, fault, hf, hcov⟩ | hs
  · rcases h.faults st fault hf with hf' | hw
    · exact .inl ⟨st, (h.stored_iff st).mpr hst, fault, hf', hcov⟩
    · exact .inr (hsuper (hwhy st fault hst hw l hu hcov))
  · exact .inr (hsuper hs)

theorem carries_notified {notices : Notices} (hn : Notified sys.reg (reg', notices))
    (hcare : ∀ st, Stored sys.reg st → (sys.reg.state st).status = .established →
      (sys.reg.state st).ctrlsNotified = false →
      (getLink sys.reg (sys.reg.state st).linkKey = none → Spare sys st) ∧
      ∀ l', getLink sys.reg (sys.reg.state st).linkKey = some l' → ∀ l, Unsent sys l → l.id = l'.id →
        (∃ fault ∈ (sys.reg.state st).linkFaults, covers fault l) →
        (sys.reg.state st).link = some l' ∧ l.iteration < l'.iteration) : Carries sys reg' := by
  have hstored : ∀ {st}, Stored sys.reg st → Stored reg' st := (hn.stored_iff _).mpr
  have hpend : ∀ {l}, Unsent sys l → Pending sys.reg l → Pending reg' l ∨ Superseded reg' l := by
    rintro l hu ⟨st, hst, fault, hf, hcov⟩
    cases hn.states' st with
    | same heq => exact .inl ⟨st, hstored hst, fault, heq ▸ hf, hcov⟩
    | detached _ _ _ hd => exact .inl ⟨st, hstored hst, fault, hd.faults ▸ hf, hcov⟩
    | cleared l' hs hc hlink heq =>
      by_cases hid : fault.linkId = l'.id
      · -- the fault is dropped, so the link that is established stands for it
        obtain ⟨hl', hlt⟩ := (hcare st hst hs hc).2 l' hlink l hu (hcov.1.symm.trans hid) ⟨fault, hf, hcov⟩
        refine .inr ⟨st, hstored hst, ?_, l', ?_, hid.symm.trans hcov.1, hlt⟩ <;> rw [heq]
        · exact hs
        · exact hl'
      · refine .inl ⟨st, hstored hst, fault, ?_, hcov⟩
        rw [heq]
        exact List.mem_filter.mpr ⟨hf, decide_eq_true hid⟩
  intro l hu hl
  rcases hl with hp | ⟨st, hst, hs, l', hl', hid, hlt⟩
  · exact hpend hu hp
  · cases hn.states' st with
    | same heq => exact .inr ⟨st, hstored hst, heq ▸ hs, l', heq ▸ hl', hid, hlt⟩
    | detached hs' hc hlink _ => exact hpend hu ((hcare st hst hs' hc).1 hlink l' hl' l hu hid.symm hlt)
    | cleared _ _ _ _ heq =>
      refine .inr ⟨st, hstored hst, ?_, l', ?_, hid, hlt⟩ <;> rw [heq]
      · exact hs
      · exact hl'

theorem Sound.reg (hs : Sound sys) (ht : Tidy reg') (hl : KeepsLinks sys.reg reg') : Sound { sys with reg := reg' } where
  tidy := ht
  keyed key l h := hs.keyed key l (by unfold getLink at h ⊢; rwa [hl.1] at h)
  closed entry he := by
    refine ⟨hl.2 _ (hs.closed entry he).1, fun key => ?_⟩
    have hget : getLink reg' key = getLink sys.reg key := by
      unfold getLink
      rw [hl.1]
    rw [hget]
    exact (hs.closed entry he).2 key
  handled := hs.handled
  internal := hs.internal
  closing := hs.closing
  marked := hs.marked
  sent := hs.sent

theorem Sound.queue (hs : Sound sys) (hinternal : isInternal e = true) (hclosed : closedBy e = [])
    (hmark : ∀ faults, e = .markFaultedLinksNotified faults → ∀ pair ∈ faults, ∀ fault ∈ pair.2, fault ∈ sys.sent) :
    Sound { sys with events := sys.events ++ [e] } := by
  refine { hs with internal := fun e' he' => ?_, closing := fun e' he' l hl => ?_, marked := fun faults hf => ?_ }
  · rcases List.mem_append.mp he' with h | h
    · exact hs.internal e' h
    · rw [List.mem_singleton.mp h]
      exact hinternal
  · rcases List.mem_append.mp he' with h | h
    · exact hs.closing e' h l hl
    · rw [List.mem_singleton.mp h, hclosed] at hl
      cases hl
  · rcases List.mem_append.mp hf with h | h
    · exact hs.marked faults h
    · exact hmark faults (List.mem_singleton.mp h).symm

theorem Sound.fresh (hs : Sound sys) {key : String} (h : getLink sys.reg key = some l) : l ∉ sys.handled := by
  intro hl
  obtain ⟨entry, he, rfl⟩ := List.mem_map.mp (hs.handled l hl)
  exact (hs.closed entry he).2 key h

theorem tidy_same {reg : Registry} (ht : Tidy reg) (h : SameMaps reg reg') (hstate : reg'.state = reg.state) :
    Tidy reg' := by
  refine ⟨h.owned ht.toOwned, fun st hl => ?_, fun st hst => ?_⟩
  · rw [hstate] at hl ⊢
    exact ht.linked st hl
  · rw [hstate]
    exact ht.alive st ((h.stored_iff st).mp hst)

theorem sound_applyLink (hs : Sound sys) : Sound { sys with reg := (LinkRegistry.applyLink sys.reg l).1 } := by
  obtain ⟨dups, -, heq | ⟨hopen, heq⟩⟩ := LinkDials.applyLink_cases sys.reg l
  all_goals rw [heq]
  · exact ⟨tidy_same hs.tidy (LinkDials.sameMaps_links sys.reg dups) rfl, hs.keyed, hs.closed,
      hs.handled, hs.internal, hs.closing, hs.marked, hs.sent⟩
  · refine ⟨tidy_same hs.tidy (LinkDials.sameMaps_links sys.reg dups) rfl, forall_insert hs.keyed rfl,
      fun entry he => ⟨(hs.closed entry he).1, fun key h => ?_⟩, hs.handled, hs.internal, hs.closing, hs.marked, hs.sent⟩
    refine forall_insert (P := fun _ l' => l' ≠ entry.1) (fun key l' h' hl => ?_) (fun hl => ?_) key _ h rfl
    · exact (hs.closed entry he).2 key (hl ▸ h')
    · exact hopen (hl ▸ (hs.closed entry he).1)

theorem Covered.links (hc : Covered sys) (h : SameMaps sys.reg sys'.reg) (hstate : sys'.reg.state = sys.reg.state)
    (hhandled : sys'.handled = sys.handled) (hknown : ∀ l, Known sys' l → Known sys l)
    (hclosed : ∀ entry ∈ sys.closedAt, entry ∈ sys'.closedAt) (hsent : ∃ more, sys'.sent = sys.sent ++ more) :
    Covered sys' :=
  hc.step (carries_same h hstate) (fun l hl _ hk => .inl ⟨hhandled ▸ hl, hknown l hk⟩) hclosed hsent

/-- What handling an event does to the link states. -/
structure Handles (sys : System) (e : Step) (reg' : Registry) : Prop where
  tidy : Tidy reg'
  links : KeepsLinks sys.reg reg'
  carries : Carries sys reg'
  pending : ∀ l ∈ closedBy e, l.isDialed = true → Known sys l → Pending reg' l
  clears : ∀ st, Stored sys.reg st → ∀ fault ∈ (sys.reg.state st).linkFaults,
    (Stored reg' st ∧ ∃ fault' ∈ (reg'.state st).linkFaults,
      fault'.linkId = fault.linkId ∧ fault.iteration ≤ fault'.iteration) ∨
    ∃ sent, e = .markFaultedLinksNotified sent ∧ ∃ pair ∈ sent, pair.1 = st ∧ ∃ fault' ∈ pair.2,
      fault'.linkId = fault.linkId ∧ fault.iteration ≤ fault'.iteration

theorem handles_keeps {lost freed : StateRef → Prop} (hk : Keeps lost freed sys.reg reg') (hlost : ∀ st, ¬ lost st)
    (hfreed : ∀ st, Stored sys.reg st → freed st → ∀ l', (sys.reg.state st).link = some l' →
      ∀ l, Unsent sys l → l.id = l'.id → l.iteration < l'.iteration → Pending sys.reg l ∨ Pending reg' l)
    (hpend : ∀ l ∈ closedBy e, l.isDialed = true → Known sys l → Pending reg' l) : Handles sys e reg' where
  tidy := hk.toTidy
  links := hk.links
  carries := carries_keeps hk (fun st _ h => absurd h (hlost st)) hfreed
  pending := hpend
  clears st hst fault hf := by
    obtain ⟨hst', hfaults, _⟩ := hk.kept st hst (hlost st)
    exact .inl ⟨hst', hfaults fault hf⟩

theorem handles_quiet (ht : Tidy sys.reg) (hq : Quiet sys.reg reg')
    (hpend : ∀ l ∈ closedBy e, l.isDialed = true → Known sys l → Pending reg' l) : Handles sys e reg' := by
  have hk : Keeps (fun _ => False) (fun _ => False) sys.reg reg' := hq.keeps ht
  exact handles_keeps hk (fun _ h => h) (fun _ _ h => absurd h (fun h => h)) hpend

theorem handles_established (ht : Tidy sys.reg) (hcare : CarefulEvent sys (.updateLinkStatusForLink l .established)) :
    Handles sys (.updateLinkStatusForLink l .established) (updateLinkStatusForLink turn sys.reg l .established) := by
  have hnone : ∀ l' ∈ closedBy (.updateLinkStatusForLink l .established), False :=
    fun l' h => absurd h List.not_mem_nil
  cases hst : stateFor sys.reg l with
  | none =>
    have heq : updateLinkStatusForLink turn sys.reg l .established = sys.reg := by
      simp [updateLinkStatusForLink, hst]
    rw [heq]
    exact handles_quiet ht (.refl sys.reg) (fun l' h => absurd h (hnone l'))
  | some st =>
    rw [updateLinkStatusForLink_eq ht hst]
    have hk : Keeps (fun _ => False) _ sys.reg _ := keeps_established ht turn st l
    refine handles_keeps hk (fun _ h => h) ?_ (fun l' h => absurd h (hnone l'))
    rintro _ _ ⟨rfl, hne⟩ l' hl' l'' hu hid hlt
    exact .inl (hcare _ hst hne l' hl' l'' hu hid hlt)

theorem pending_linkFailed (ht : Tidy sys.reg) {l' : Xlink} {st : StateRef}
    (hst : Stored sys.reg st) (hid : l'.id = l.id) (hle : l'.iteration ≤ l.iteration) :
    Pending (applyStatus turn sys.reg st l .linkFailed) l' := by
  obtain ⟨hfaults, _, _⟩ := applyStatus_linkFailed turn ht st l
  obtain ⟨fault, hf, hfid, hfle⟩ := addPendingLinkFault_covers
  have hsame := (touches_applyStatus turn ht.unlimited st l .linkFailed).stored_iff st
  exact ⟨st, hsame.mpr hst, fault, hfaults ▸ hf, hfid.trans hid.symm, le_trans hle hfle⟩

theorem handles_linkFailed (ht : Tidy sys.reg) (hcare : CarefulEvent sys (.updateLinkStatusForLink l .linkFailed)) :
    Handles sys (.updateLinkStatusForLink l .linkFailed) (updateLinkStatusForLink turn sys.reg l .linkFailed) := by
  cases hst : stateFor sys.reg l with
  | none =>
    have heq : updateLinkStatusForLink turn sys.reg l .linkFailed = sys.reg := by
      simp [updateLinkStatusForLink, hst]
    rw [heq]
    refine handles_quiet ht (.refl sys.reg) (fun l' h hd hk => ?_)
    rw [List.mem_singleton.mp h] at hd hk
    obtain ⟨st, hst'⟩ := hcare.1 hk hd
    rw [hst] at hst'
    cases hst'
  | some st =>
    have hstored := ht.stored_stateFor hst
    rw [updateLinkStatusForLink_eq ht hst]
    have hk : Keeps (fun _ => False) _ sys.reg _ := keeps_linkFailed ht turn st l
    refine handles_keeps hk (fun _ h => h) ?_ (fun l' h _ _ => ?_)
    · rintro _ _ rfl l' hl' l'' hu hid hlt
      by_cases heq : l' = l
      · subst heq
        exact .inr (pending_linkFailed ht hstored hid (le_of_lt hlt))
      · refine .inl (hcare.2 _ hst (fun h => heq ?_) l' hl' l'' hu hid hlt)
        exact Option.some.inj (hl'.symm.trans h)
    · rw [List.mem_singleton.mp h]
      exact pending_linkFailed ht hstored rfl (le_refl _)

theorem handles_replaced (ht : Tidy sys.reg) (hcare : CarefulEvent sys (.addLinkFaultForReplacedLink l)) :
    Handles sys (.addLinkFaultForReplacedLink l) (addLinkFaultForReplacedLink sys.reg l) := by
  unfold addLinkFaultForReplacedLink
  cases hst : stateFor sys.reg l with
  | none =>
    refine handles_quiet ht (.refl sys.reg) (fun l' h hd hk => ?_)
    rw [List.mem_singleton.mp h] at hd hk
    obtain ⟨st, hst'⟩ := hcare hk hd
    rw [hst] at hst'
    cases hst'
  | some st =>
    have hk : Keeps (fun _ => False) (fun _ => False) sys.reg (addFault sys.reg st l) := keeps_addFault ht
    refine handles_keeps hk (fun _ h => h) (fun _ _ h => absurd h (fun h => h)) (fun l' h _ _ => ?_)
    obtain ⟨fault, hf, hcov⟩ := addPendingLinkFault_covers
    have hsame : Touches (· = st) sys.reg (addFault sys.reg st l) := touches_setState ⟨rfl, rfl, rfl, rfl⟩
    have hself : (addFault sys.reg st l).state st =
        { sys.reg.state st with
          linkFaults := addPendingLinkFault l.id l.iteration (sys.reg.state st).linkFaults } := setState_self _ _ _
    rw [List.mem_singleton.mp h]
    exact ⟨st, (hsame.stored_iff st).mpr (ht.stored_stateFor hst), fault, hself ▸ hf, hcov⟩

theorem handles_marked (ht : Tidy sys.reg) {sent : List (StateRef × List LinkFault)}
    (hcare : CarefulEvent sys (.markFaultedLinksNotified sent)) :
    Handles sys (.markFaultedLinksNotified sent) (markFaultedLinksNotified sys.reg sent) := by
  have hc := clears_markFaultedLinksNotified sys.reg sent
  refine ⟨hc.tidy ht, hc.links, carries_clears hc ?_, fun l h => absurd h List.not_mem_nil, fun st hst fault hf => ?_⟩
  · rintro - fault hst ⟨pair, hpair, rfl, fault', hf', hid, hle⟩ l hu hcov
    exact hcare pair hpair hst fault' hf' l hu ⟨hid.trans hcov.1, le_trans hcov.2 hle⟩
  · rcases hc.faults st fault hf with hf' | hwhy
    · exact .inl ⟨(hc.stored_iff st).mpr hst, fault, hf', rfl, le_refl _⟩
    · exact .inr ⟨sent, rfl, hwhy⟩

theorem quiet_markNewLinksNotified {reg : Registry} {links : List (StateRef × Xlink)} :
    Quiet reg (markNewLinksNotified reg links) := by
  refine List.foldlRecOn _ _ (.refl reg) (fun reg' hq pair _ => ?_)
  split
  · exact hq.trans (quiet_setState ⟨rfl, rfl, rfl, rfl⟩ ⟨rfl, rfl, .rfl, fun h => h⟩)
  · exact hq

theorem handles_event (hs : Sound sys) (turn : Turn) (he : e ∈ sys.events) (hcare : CarefulEvent sys e) :
    Handles sys e (step sys.reg (turn, e)) := by
  have hinternal := hs.internal e he
  cases e with
  | updateLinkStatusForLink l status =>
    cases status with
    | established => exact handles_established hs.tidy hcare
    | linkFailed => exact handles_linkFailed hs.tidy hcare
    | pending | dialing | queueFailed | dialFailed | destRemoved => cases hinternal
  | addLinkFaultForReplacedLink l => exact handles_replaced hs.tidy hcare
  | markNewLinksNotified links =>
    exact handles_quiet hs.tidy quiet_markNewLinksNotified
      (fun l h => absurd h List.not_mem_nil)
  | markFaultedLinksNotified sent => exact handles_marked hs.tidy hcare
  | removeLinkDest _ | linkDestUpdate _ | updateLinkStatusToDialFailed _ _ | evaluateLinkStateQueue _
  | evaluateDestinations | notifyControllersOfLinks | applyLink _ | linkClosed _ | closeLink _ | dialEnds _ =>
    cases hinternal

end Zt.LinkFaultRuns
