import Zt.LinkDials

namespace Zt.LinkRemoval

open Tables LinkRegistry LinkEntries LinkDials Runs
open EdgeCtrl (Id)
open List (foldlRecOn not_mem_nil)

def IsLinkKey (key : String) : Prop :=
  ∃ legacyCtrl dialerBinding protocol dest listenerBinding,
    key = getLinkKey legacyCtrl dialerBinding protocol dest listenerBinding

/-- The ids of new link states are numbers written with letters and digits. -/
def IsUUIDString (id : Id) : Prop := ∀ c ∈ id.toList, c.isAlphanum = true

theorem IsLinkKey.not_uuid {key : String} (h : IsLinkKey key) : ¬ IsUUIDString key := by
  obtain ⟨legacyCtrl, dialerBinding, protocol, dest, listenerBinding, rfl⟩ := h
  intro hid
  have hmem : '>' ∈ (getLinkKey legacyCtrl dialerBinding protocol dest listenerBinding).toList := by
    simp [getLinkKey]
  exact absurd (hid '>' hmem) (by decide)

/-- Links are registered under keys that were made for them, and link states
get ids that were made for them. -/
def Genuine (_ : Registry) (a : Turn × Step) : Prop :=
  (∀ st, IsUUIDString (a.1.newUUIDString st)) ∧ ∀ l, a.2 = .applyLink l → IsLinkKey l.key

structure Named (reg : Registry) : Prop where
  unlimited : Unlimited reg
  ids : ∀ st, IsUUIDString (reg.state st).linkId
  keys : ∀ key l, getLink reg key = some l → IsLinkKey key

variable {reg reg' : Registry} {turn : Turn} {u : LinkDestUpdate} {d : DestRef} {becameHealthy : Bool}
  {l : Xlink}

section

variable (hn : Named reg)
include hn

theorem Named.same (h : SameMaps reg reg') (hlinks : reg'.linkMap = reg.linkMap) : Named reg' where
  unlimited := h.unlimited hn.unlimited
  ids st := (h.states st).2.2.1 ▸ hn.ids st
  keys key l hl := hn.keys key l (by rwa [getLink, hlinks] at hl)

theorem Named.touches {on : StateRef → Prop} (h : Touches on reg reg') : Named reg' :=
  hn.same h.toSameMaps h.links.1

theorem Named.setDest (d : DestRef) (f : LinkDest → LinkDest) : Named (setDest reg d f) :=
  ⟨hn.unlimited, hn.ids, hn.keys⟩

theorem Named.destinations (destinations : EdgeCtrl.IdTable DestRef) :
    Named { reg with destinations := destinations } :=
  ⟨hn.unlimited, hn.ids, hn.keys⟩

theorem named_closeStateLink {st : StateRef} : Named (closeStateLink reg st) := by
  rw [closeStateLink_eq]
  exact ⟨hn.unlimited, hn.ids, hn.keys⟩

theorem named_addLinkState (d : DestRef) {s : LinkState} (hid : IsUUIDString s.linkId)
    (hallowed : s.allowedDials = -1) : Named (addLinkState reg d s) := by
  have hstate : ∀ st, (addLinkState reg d s).state st = s ∨ (addLinkState reg d s).state st = reg.state st := by
    intro st
    by_cases h : st = reg.nextState
    · subst h
      exact .inl (Function.update_self _ _ _)
    · exact .inr (Function.update_of_ne h _ _)
  refine ⟨fun st => ?_, fun st => ?_, hn.keys⟩
  · rcases hstate st with h | h
    · rw [h]
      exact hallowed
    · rw [h]
      exact hn.unlimited st
  · rcases hstate st with h | h
    · rw [h]
      exact hid
    · rw [h]
      exact hn.ids st

end

section

variable (hn : Named reg)
include hn

theorem named_applyListener (hid : ∀ st, IsUUIDString (turn.newUUIDString st)) {pair : Listener × Dialer} :
    Named (applyListener turn reg u d becameHealthy pair) := by
  simp only [applyListener]
  split
  · have hadd := named_addLinkState hn d (s := newLinkState turn reg u d pair.1 pair.2) (hid _) rfl
    exact hadd.touches (touches_evaluateLinkState turn hadd.unlimited)
  · rename_i st _
    have htake : Named (takeListener reg st pair.1) := by
      simp only [takeListener]
      split
      · exact (named_closeStateLink hn).touches (touches_setState ⟨rfl, rfl, rfl, rfl⟩)
      · exact hn.touches (touches_setState ⟨rfl, rfl, rfl, rfl⟩)
    split
    · have hredial : Named (setState (takeListener reg st pair.1) st (redial turn)) :=
        htake.touches (touches_setState ⟨rfl, rfl, rfl, rfl⟩)
      exact hredial.touches (touches_evaluateLinkState turn hredial.unlimited)
    · exact htake

theorem named_dropOrphan {key : String} : Named (dropOrphan reg d key) := by
  unfold dropOrphan
  cases (reg.dest d).linkMap.lookup key with
  | none => exact hn
  | some st => exact named_closeStateLink (hn.setDest d _)

theorem named_updateListeners (hid : ∀ st, IsUUIDString (turn.newUUIDString st)) :
    Named (updateListeners turn reg u d becameHealthy) := by
  have hupdated := hn.setDest d (fun dest => updateDest turn dest u)
  simp only [updateListeners]
  split
  · refine foldlRecOn _ _ ?_ (fun _ hn' key _ => named_dropOrphan hn')
    exact foldlRecOn _ _ hupdated
      (fun _ hn' pair _ => named_applyListener hn' hid)
  · exact hupdated

theorem named_linkDestUpdate (hid : ∀ st, IsUUIDString (turn.newUUIDString st)) :
    Named (linkDestUpdate turn reg u) := by
  unfold linkDestUpdate
  cases reg.destinations.lookup u.id with
  | none =>
    have hadd : Named (addDest reg u.id) := ⟨hn.unlimited, hn.ids, hn.keys⟩
    exact named_updateListeners hadd hid
  | some d => exact named_updateListeners hn hid

theorem named_evaluateDestination {e : Id × DestRef} : Named (evaluateDestination turn reg e) := by
  have hscan : Named ((destStates reg e.2).foldl (scanState turn) reg) :=
    foldlRecOn _ _ hn (fun _ hn' st _ => hn'.touches (touches_scanState turn hn'.unlimited st))
  simp only [evaluateDestination]
  split
  · exact hscan.destinations _
  · exact hscan

end

section

variable (hn : Named reg)
include hn

theorem named_applyLink (hkey : IsLinkKey l.key) : Named (applyLink reg l).1 := by
  obtain ⟨dups, -, heq | ⟨-, heq⟩⟩ := applyLink_cases reg l
  all_goals rw [heq]
  · exact ⟨hn.unlimited, hn.ids, hn.keys⟩
  · exact ⟨hn.unlimited, hn.ids, forall_insert hn.keys hkey⟩

theorem named_linkClosed : Named (linkClosed reg l).1 := by
  refine ⟨hn.unlimited, hn.ids, fun key l' hl => ?_⟩
  simp only [linkClosed] at hl
  split at hl
  · exact hn.keys key l' (lookup_of_erase hl).2
  · exact hn.keys key l' hl

theorem named_updateLinkStatusForLink {status : LinkStatus} : Named (updateLinkStatusForLink turn reg l status) := by
  unfold updateLinkStatusForLink
  cases stateFor reg l with
  | none => exact hn
  | some st =>
    simp only []
    split
    · exact hn
    · exact hn.touches (touches_applyStatus turn hn.unlimited st l status)

theorem named_step {a : Turn × Step} (hgenuine : Genuine reg a) : Named (step reg a) := by
  obtain ⟨turn, s⟩ := a
  obtain ⟨hid, hkey⟩ := hgenuine
  cases s with
  | removeLinkDest id =>
    simp only [step, removeLinkDest]
    split
    · exact hn
    · rename_i d _
      have h := dismissed_foldl (destStates reg d) { reg with destinations := reg.destinations.erase id }
      exact (hn.destinations _).same h.toSameMaps h.links.1
  | linkDestUpdate u => exact named_linkDestUpdate hn hid
  | updateLinkStatusForLink l status => exact named_updateLinkStatusForLink hn
  | addLinkFaultForReplacedLink l =>
    simp only [step, addLinkFaultForReplacedLink]
    split
    · exact hn
    · exact hn.touches (touches_setState ⟨rfl, rfl, rfl, rfl⟩)
  | updateLinkStatusToDialFailed st applyFailed =>
    simp only [step, updateLinkStatusToDialFailed]
    split
    · have hfailed : Named (setState reg st (fun s => updateStatus s .dialFailed)) :=
        hn.touches (touches_setState (inPlace_updateStatus .dialFailed _))
      exact hfailed.touches (touches_dialFailed turn hfailed.unlimited st applyFailed)
    · exact hn
  | markNewLinksNotified links =>
    refine foldlRecOn _ _ hn (fun reg' hn' pair _ => ?_)
    split
    · exact hn'.touches (touches_setState ⟨rfl, rfl, rfl, rfl⟩)
    · exact hn'
  | markFaultedLinksNotified sent =>
    exact foldlRecOn _ _ hn
      (fun _ hn' _ _ => hn'.touches (touches_setState ⟨rfl, rfl, rfl, rfl⟩))
  | evaluateLinkStateQueue due =>
    refine foldlRecOn _ _ hn (fun reg' hn' st _ => ?_)
    split
    · have hpopped : Named { reg' with linkStateQueue := reg'.linkStateQueue.erase st } :=
        ⟨hn'.unlimited, hn'.ids, hn'.keys⟩
      exact hpopped.touches (touches_evaluateLinkState turn hpopped.unlimited)
    · exact hn'
  | evaluateDestinations =>
    exact foldlRecOn _ _ hn (fun _ hn' e _ => named_evaluateDestination hn')
  | notifyControllersOfLinks => exact hn.touches (touches_notifyControllersOfLinks hn.unlimited)
  | applyLink l => exact named_applyLink hn (hkey l rfl)
  | linkClosed l => exact named_linkClosed hn
  | closeLink l => exact ⟨hn.unlimited, hn.ids, hn.keys⟩
  | dialEnds st => exact hn.touches (touches_setState (f := fun s => { s with dialActive := false }) ⟨rfl, rfl, rfl, rfl⟩)

omit hn in
theorem named_newLinkRegistry {dialers : List Dialer} : Named (newLinkRegistry dialers) := by
  refine ⟨fun _ => rfl, fun st c hc => ?_, fun key l hl => ?_⟩
  · exact absurd hc not_mem_nil
  · cases hl

/-- A link id is looked up among the link keys, where it is not found. -/
theorem removeLinkDest_closed (id : Id) : (removeLinkDest reg id).closed = reg.closed := by
  unfold removeLinkDest
  cases reg.destinations.lookup id with
  | none => rfl
  | some d =>
    have herased : Named { reg with destinations := reg.destinations.erase id } := hn.destinations _
    refine (foldlRecOn (motive := fun reg' => Named reg' ∧ reg'.closed = reg.closed) (destStates reg d)
      removeDestState ⟨herased, rfl⟩ (fun reg' h st _ => ?_)).2
    have hstat : Named (setState reg' st (fun s => updateStatus s .destRemoved)) :=
      h.1.touches (touches_setState (inPlace_updateStatus .destRemoved _))
    simp only [removeDestState]
    split
    · exact ⟨hstat, h.2⟩
    · rename_i l hl
      exact absurd (hstat.ids st) (hstat.keys _ l hl).not_uuid

end

/-- The links on which handling the removal of a destination calls Close are
those of the destination. -/
def ClosesLinks (reg : Registry) (id : Id) : Prop :=
  ∃ calls, (removeLinkDest reg id).closed = calls ++ reg.closed ∧
    (∀ d, reg.destinations.lookup id = some d → ∀ st ∈ destStates reg d, ∀ l,
      getLink reg (reg.state st).linkKey = some l → l ∈ calls) ∧
    ∀ l ∈ calls, l.destinationId = id

theorem closes_links_iff (dialers : List Dialer) (run : List (Turn × Step))
    (hrun : Meets Genuine step (newLinkRegistry dialers) run) (id : Id) :
    ClosesLinks (run.foldl step (newLinkRegistry dialers)) id ↔
      ∀ d, (run.foldl step (newLinkRegistry dialers)).destinations.lookup id = some d →
        ∀ st ∈ destStates (run.foldl step (newLinkRegistry dialers)) d,
          getLink (run.foldl step (newLinkRegistry dialers))
            ((run.foldl step (newLinkRegistry dialers)).state st).linkKey = none := by
  have hclosed := removeLinkDest_closed
    (hrun.invariant Named (fun _ _ hn => named_step hn) named_newLinkRegistry) id
  constructor
  · rintro ⟨calls, hcalls, hall, _⟩ d hd st hst
    have hempty : calls = [] := List.self_eq_append_left.mp (hclosed.symm.trans hcalls)
    rw [Option.eq_none_iff_forall_ne_some]
    exact fun l hl => not_mem_nil (hempty ▸ hall d hd st hst l hl)
  · intro hnone
    refine ⟨[], hclosed, fun d hd st hst l hl => ?_, fun l hl => absurd hl not_mem_nil⟩
    rw [hnone d hd st hst] at hl
    cases hl

def establishedLink : Xlink := ⟨0, "5fVj2nQx8yTz1KpLmWc3Rb", "default->tls:r2->default", 1, "r2", true⟩

/-- A new destination is dialed and its link comes up. -/
def firstDialSucceeds : List (Turn × Step) :=
  [(turnAt 0, .linkDestUpdate ⟨"r2", "1.0", true, [defaultListener]⟩), (turnAt 10, .applyLink establishedLink),
    (turnAt 10, .dialEnds 0), (turnAt 11, .updateLinkStatusForLink establishedLink .established)]

theorem genuine_turnAt (now : Nat) {s : Step} (hlink : ∀ l, s = .applyLink l → IsLinkKey l.key) (reg : Registry) :
    Genuine reg (turnAt now, s) := by
  refine ⟨fun _ => ?_, hlink⟩
  have hid : ∀ c ∈ "5fVj2nQx8yTz1KpLmWc3Rb".toList, c.isAlphanum = true := by simp
  exact hid

def linkLost : List (Turn × Step) := firstDialSucceeds ++ [(turnAt 50, .linkClosed establishedLink)]

theorem genuine_linkLost : Meets Genuine step reg linkLost := by
  refine ⟨genuine_turnAt 0 ?_ _, genuine_turnAt 10 ?_ _, genuine_turnAt 10 ?_ _, genuine_turnAt 11 ?_ _,
    genuine_turnAt 50 ?_ _, trivial⟩
  case refine_2 =>
    intro l h
    cases h
    exact ⟨false, "", "tls", "r2", "", by decide⟩
  all_goals
    intro l h
    cases h

theorem lost_link_needs_no_close : ClosesLinks (linkLost.foldl step (newLinkRegistry [defaultDialer])) "r2" := by
  refine (closes_links_iff [defaultDialer] linkLost genuine_linkLost "r2").mpr (fun d _ st _ => ?_)
  have hempty : (linkLost.foldl step (newLinkRegistry [defaultDialer])).linkMap.keys = [] := by decide +kernel
  refine AList.lookup_eq_none.mpr (fun hmem => ?_)
  exact not_mem_nil (hempty ▸ AList.mem_keys.mp hmem)

/-- The link of the removed destination stays open. -/
theorem established_link_left_open :
    ¬ ClosesLinks (firstDialSucceeds.foldl step (newLinkRegistry [defaultDialer])) "r2" := by
  rintro ⟨calls, hcalls, hall, _⟩
  have hbefore : (firstDialSucceeds.foldl step (newLinkRegistry [defaultDialer])).closed = [] := by decide +kernel
  have hafter : (removeLinkDest (firstDialSucceeds.foldl step (newLinkRegistry [defaultDialer])) "r2").closed = [] := by
    decide +kernel
  rw [hbefore, hafter, List.append_nil] at hcalls
  have hmem := hall 0 (by decide +kernel) 0 (by decide +kernel) establishedLink (by decide +kernel)
  exact not_mem_nil (hcalls ▸ hmem)

end Zt.LinkRemoval
