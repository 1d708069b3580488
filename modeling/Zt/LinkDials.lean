import Zt.LinkUpdates
import Zt.Runs

namespace Zt.LinkDials

open Tables LinkRegistry LinkEntries LinkUpdates Runs
open EdgeCtrl (Id)

/-- A state that may stay behind when it loses its place in the maps: its dial
is not under way, and a queue check will not start another. -/
def Harmless (reg : Registry) (st : StateRef) : Prop :=
  (reg.state st).status ≠ .dialing ∧ (st ∈ reg.linkStateQueue → (reg.state st).status = .established)

structure Safe (reg : Registry) : Prop where
  apart : ∀ st, ¬ Stored reg st → Harmless reg st
  dials : ∀ dial ∈ reg.dials, dial.stored = true

structure Inv (reg : Registry) : Prop extends Owned reg, Safe reg

/-- No step of a run takes a state from the maps that is queued or being dialed. -/
def SparesQueued (reg : Registry) (a : Turn × Step) : Prop :=
  match a.2 with
  | .removeLinkDest id =>
    ∀ d, reg.destinations.lookup id = some d → ∀ st ∈ destStates reg d, st ∉ reg.linkStateQueue
  | .linkDestUpdate u =>
    u.healthy = true → ∀ d, reg.destinations.lookup u.id = some d → ∀ key ∈ orphaned a.1 reg u d, ∀ st,
      (reg.dest d).linkMap.lookup key = some st → Harmless reg st
  | .evaluateDestinations =>
    ∀ id d, reg.destinations.lookup id = some d → expired a.1 reg d = true → ∀ st ∈ destStates reg d,
      (reg.state st).dialActive = true ∧ (reg.state st).status ≠ .dialing ∧ st ∉ reg.linkStateQueue
  | _ => True

variable {reg reg' : Registry} {st : StateRef} {d : DestRef} {keys : List String} {key : String}
  {u : LinkDestUpdate} {turn : Turn} {on : StateRef → Prop}

theorem Safe.keep (hs : Safe reg) (hstored : ∀ st, Stored reg st → Stored reg' st)
    (hstat : ∀ st, ¬ Stored reg' st → (reg'.state st).status = (reg.state st).status)
    (hqueue : ∀ st ∈ reg'.linkStateQueue, ¬ Stored reg' st → st ∈ reg.linkStateQueue)
    (hdials : reg'.dials = reg.dials) : Safe reg' where
  apart st hn := by
    obtain ⟨hdialing, hqueued⟩ := hs.apart st (fun h => hn (hstored st h))
    unfold Harmless
    rw [hstat st hn]
    exact ⟨hdialing, fun hq => hqueued (hqueue st hq hn)⟩
  dials := hdials ▸ hs.dials

section

variable (hi : Inv reg)
include hi

theorem Inv.touches (hon : ∀ st, on st → Stored reg st) (h : Touches on reg reg') : Inv reg' where
  toOwned := h.toSameMaps.owned hi.toOwned
  apart st hn := by
    have hn' : ¬ Stored reg st := fun h' => hn ((h.stored_iff st).mpr h')
    have hoff : ¬ on st := fun h' => hn' (hon st h')
    unfold Harmless
    rw [h.others st hoff, h.queue st hoff]
    exact hi.apart st hn'
  dials dial hd := by
    rcases h.dials dial hd with hold | ⟨hstate, hstored⟩
    · exact hi.dials dial hold
    · rw [hstored]
      exact decide_eq_true (hon dial.state hstate)

theorem Inv.touch (hst : Stored reg st) (h : Touches (· = st) reg reg') : Inv reg' := by
  refine hi.touches ?_ h
  rintro _ rfl
  exact hst

theorem Inv.setState {f : LinkState → LinkState} (hf : InPlace f)
    (hstat : (f (reg.state st)).status = (reg.state st).status) : Inv (setState reg st f) := by
  have h : Touches (· = st) reg (LinkRegistry.setState reg st f) := touches_setState (hf _)
  refine ⟨h.toSameMaps.owned hi.toOwned, hi.toSafe.keep (fun st' h' => (h.stored_iff st').mpr h') ?_ ?_ rfl⟩
  · intro st' _
    by_cases heq : st' = st
    · subst heq
      simpa only [setState, Function.update_self] using hstat
    · rw [h.others st' heq]
  · exact fun _ hq _ => hq

theorem Inv.links (h : SameMaps reg reg') (hstate : reg'.state = reg.state)
    (hqueue : reg'.linkStateQueue = reg.linkStateQueue) (hdials : reg'.dials = reg.dials) : Inv reg' :=
  ⟨h.owned hi.toOwned, hi.toSafe.keep (fun st h' => (h.stored_iff st).mpr h') (fun _ _ => by rw [hstate])
    (fun _ hq _ => hqueue ▸ hq) hdials⟩

theorem inv_closeStateLink : Inv (closeStateLink reg st) := by
  rw [closeStateLink_eq]
  exact hi.links (closeStateLink_eq ▸ sameMaps_closeStateLink reg st) rfl rfl rfl

theorem inv_removeLinkDest {id : Id}
    (hcond : ∀ d, reg.destinations.lookup id = some d → ∀ st ∈ destStates reg d, st ∉ reg.linkStateQueue) :
    Inv (removeLinkDest reg id) := by
  unfold removeLinkDest
  cases hd : reg.destinations.lookup id with
  | none => exact hi
  | some d =>
    have herase := owned_erase hi.toOwned id
    have h := dismissed_foldl (destStates reg d) { reg with destinations := reg.destinations.erase id }
    refine ⟨h.toSameMaps.owned herase, ?_, ?_⟩
    · intro st hn
      by_cases hmem : st ∈ destStates reg d
      · unfold Harmless
        rw [h.removed st hmem, updateStatus_status, h.queue]
        exact ⟨by decide, fun hq => absurd hq (hcond d hd st hmem)⟩
      · have hn' : ¬ Stored reg st := fun hst =>
          hn ((h.stored_iff st).mpr ((hi.stored_erase hd).mpr ⟨hst, hmem⟩))
        unfold Harmless
        rw [h.others st hmem, h.queue]
        exact hi.apart st hn'
    · rw [h.dials]
      exact hi.dials

theorem inv_addLinkState {s : LinkState} (hdest : s.dest = d) (hallowed : s.allowedDials = -1)
    (hd : reg.destinations.lookup (reg.dest d).id = some d) (hnew : (reg.dest d).linkMap.lookup s.linkKey = none) :
    Inv (addLinkState reg d s) := by
  have howned := owned_addLinkState hi.toOwned hdest hallowed
  have hstored : Stored (addLinkState reg d s) reg.nextState := by
    refine howned.stored (k := s.linkKey) hd ?_
    rw [addLinkState_lookup, if_pos ⟨rfl, rfl⟩]
  refine ⟨howned, hi.toSafe.keep (fun st hst => ?_) (fun st hn => ?_) (fun _ hq _ => hq) rfl⟩
  · exact (stored_addLinkState hnew (ne_of_lt (Stored.lt hi.toOwned hst))).mpr hst
  · have hne : st ≠ reg.nextState := fun heq => hn (heq ▸ hstored)
    rw [addLinkState_other hne]

theorem inv_addDest {id : Id} (hid : reg.destinations.lookup id = none) : Inv (addDest reg id) := by
  exact ⟨owned_addDest hi.toOwned, hi.toSafe.keep (fun st => (hi.stored_addDest hid).mpr) (fun _ _ => rfl)
    (fun _ hq _ => hq) rfl⟩

end

/-- The registry while an update is applied. The states that it is going to
drop stay harmless. -/
structure Sparing (turn : Turn) (u : LinkDestUpdate) (start reg : Registry) : Prop extends Inv reg where
  orphans : ∀ st, OrphanOf turn start u st →
    st < reg.nextState ∧ (reg.state st).linkKey ∉ matchedKeys turn start u ∧ Harmless reg st

theorem Sparing.kept (hs : Sparing turn u reg reg) : UpdateKeeps turn u reg (Sparing turn u reg) where
  owned h := h.toOwned
  addDest hid := ⟨inv_addDest hs.toInv hid, hs.orphans⟩
  dest h := ⟨h.toInv.links (sameMaps_updateDest turn _ u _) rfl rfl rfl, h.orphans⟩
  change h hst hkey hc := by
    have ht := hc.touches h.unlimited
    refine ⟨h.toInv.touch hst ht, fun st' ho => ?_⟩
    obtain ⟨hlt, hunnamed, hharmless⟩ := h.orphans st' ho
    have hne : st' ≠ _ := fun heq => hunnamed (heq ▸ hkey)
    unfold Harmless
    rw [ht.next.1, ht.others st' hne, ht.queue st' hne]
    exact ⟨hlt, hunnamed, hharmless⟩
  close h := by
    refine ⟨inv_closeStateLink h.toInv, ?_⟩
    rw [closeStateLink_eq]
    exact h.orphans
  add h hd hnew := by
    refine ⟨inv_addLinkState h.toInv rfl rfl hd hnew, fun st ho => ?_⟩
    obtain ⟨hlt, hunnamed, hharmless⟩ := h.orphans st ho
    unfold Harmless
    rw [addLinkState_other (Nat.ne_of_lt hlt)]
    exact ⟨Nat.lt_succ_of_lt hlt, hunnamed, hharmless⟩
  drop := by
    intro _ _ _ st h hk ho
    refine ⟨⟨owned_eraseKey h.toOwned, fun st' hn => ?_, h.dials⟩, h.orphans⟩
    by_cases heq : st' = st
    · exact heq ▸ (h.orphans st ho).2.2
    · exact h.apart st' (fun h' => hn (stored_eraseKey hk heq h'))

theorem inv_linkDestUpdate (hi : Inv reg) (hdrop : ∀ st, OrphanOf turn reg u st → Harmless reg st) :
    Inv (linkDestUpdate turn reg u) := by
  have hstart : Sparing turn u reg reg := by
    refine ⟨hi, fun st ho => ?_⟩
    obtain ⟨_, d, _, key, hkey, hk⟩ := id ho
    obtain ⟨hkey', _, hlt⟩ := hi.entries d key st hk
    rw [hkey']
    exact ⟨hlt, of_decide_eq_true (List.mem_filter.mp hkey).2, hdrop st ho⟩
  exact (kept_linkDestUpdate hstart.kept hstart).toInv

/-- A state that a scan leaves alone although it is not established. -/
def Idle (reg : Registry) (st : StateRef) : Prop :=
  (reg.state st).dialActive = true ∧ (reg.state st).status ≠ .dialing ∧ st ∉ reg.linkStateQueue

theorem Idle.harmless (h : Idle reg st) : Harmless reg st :=
  ⟨h.2.1, fun hq => absurd hq h.2.2⟩

theorem evaluateLinkState_active (h : (reg.state st).dialActive = true) : evaluateLinkState turn reg st = reg := by
  simp [evaluateLinkState, h]

theorem idle_scanState (hun : Unlimited reg) (h : Idle reg st) {st' : StateRef} :
    Idle (scanState turn reg st') st := by
  by_cases heq : st = st'
  · subst heq
    obtain ⟨hactive, hdialing, hqueue⟩ := h
    simp only [scanState]
    split
    · have hfailed : (setState reg st (fun s => updateStatus (redial turn s) .linkFailed)).state st =
          updateStatus (redial turn (reg.state st)) .linkFailed := by
        simp [setState]
      have hactive' : (updateStatus (redial turn (reg.state st)) .linkFailed).dialActive = true := by
        unfold updateStatus
        split <;> exact hactive
      rw [evaluateLinkState_active (by rw [hfailed]; exact hactive')]
      unfold Idle
      rw [hfailed, updateStatus_status]
      exact ⟨hactive', by decide, hqueue⟩
    · rw [evaluateLinkState_active hactive]
      exact ⟨hactive, hdialing, hqueue⟩
  · have ht := touches_scanState turn hun st'
    unfold Idle
    rw [ht.others st heq, ht.queue st heq]
    exact h

theorem idle_scan (hun : Unlimited reg) (h : Idle reg st) {sts : List StateRef} :
    Idle (sts.foldl (scanState turn) reg) st := by
  induction sts generalizing reg with
  | nil => exact h
  | cons st' sts ih =>
    exact ih ((touches_scanState turn hun st').unlimited hun) (idle_scanState hun h)

/-- The registry while a scan goes through what is left of its destinations. -/
structure Scanning (turn : Turn) (rest : List (Id × DestRef)) (reg : Registry) : Prop extends Inv reg where
  listed : ∀ e ∈ rest, reg.destinations.lookup e.1 = some e.2
  idle : ∀ e ∈ rest, expired turn reg e.2 = true → ∀ st ∈ destStates reg e.2, Idle reg st

theorem expired_congr (h : Touches on reg reg')
    (hoff : ∀ st ∈ destStates reg d, ¬ on st) : expired turn reg' d = expired turn reg d := by
  have hopen : (destStates reg d).any (hasOpenLink reg') = (destStates reg d).any (hasOpenLink reg) := by
    have hlink : ∀ st ∈ destStates reg d, hasOpenLink reg' st = hasOpenLink reg st := by
      intro st hst
      unfold hasOpenLink getLink isClosed
      rw [h.others st (hoff st hst), h.links.1, h.links.2.2]
    rw [Bool.eq_iff_iff, List.any_eq_true, List.any_eq_true]
    exact exists_congr (fun st => and_congr_right (fun hst => by rw [hlink st hst]))
  simp [expired, h.dest, h.destStates, hopen]

variable {rest : List (Id × DestRef)}

theorem scanning_evaluateDestination {e : Id × DestRef}
    (hs : Scanning turn (e :: rest) reg) (hne : ∀ e' ∈ rest, e'.1 ≠ e.1) :
    Scanning turn rest (evaluateDestination turn reg e) := by
  have hlisted := hs.listed e List.mem_cons_self
  have ht : Touches (· ∈ destStates reg e.2) reg ((destStates reg e.2).foldl (scanState turn) reg) :=
    touches_foldl id (fun _ st hun => touches_scanState turn hun st) hs.unlimited
  have hscan := hs.toInv.touches (fun st hst => hs.stored_of_mem hlisted hst) ht
  have hidle : ∀ st, Idle reg st → Idle ((destStates reg e.2).foldl (scanState turn) reg) st :=
    fun st h => idle_scan hs.unlimited h
  have hoff : ∀ e' ∈ rest, ∀ st ∈ destStates reg e'.2, st ∉ destStates reg e.2 := by
    intro e' he' st hst hst'
    obtain ⟨k, hk⟩ := mem_destStates.mp hst
    obtain ⟨k', hk'⟩ := mem_destStates.mp hst'
    have heq : e'.2 = e.2 := (hs.entries _ k st hk).2.1.symm.trans (hs.entries _ k' st hk').2.1
    have hid := (hs.ids e'.1 e'.2 (hs.listed e' (List.mem_cons_of_mem _ he'))).1
    rw [heq, (hs.ids e.1 e.2 hlisted).1] at hid
    exact hne e' he' hid.symm
  have hrest : ∀ e' ∈ rest, expired turn ((destStates reg e.2).foldl (scanState turn) reg) e'.2 = true →
      ∀ st ∈ destStates ((destStates reg e.2).foldl (scanState turn) reg) e'.2,
        Idle ((destStates reg e.2).foldl (scanState turn) reg) st := by
    intro e' he' hexpired st hst
    rw [expired_congr ht (hoff e' he')] at hexpired
    rw [ht.destStates] at hst
    exact hidle st (hs.idle e' (List.mem_cons_of_mem _ he') hexpired st hst)
  have hscannedAt : ∀ e' ∈ e :: rest,
      ((destStates reg e.2).foldl (scanState turn) reg).destinations.lookup e'.1 = some e'.2 := by
    intro e' he'
    rw [ht.destinations]
    exact hs.listed e' he'
  simp only [evaluateDestination]
  split
  · rename_i hdrop
    refine ⟨⟨owned_erase hscan.toOwned e.1, ?_, hscan.dials⟩, ?_, hrest⟩
    · intro st hn
      by_cases hmem : st ∈ destStates ((destStates reg e.2).foldl (scanState turn) reg) e.2
      · obtain ⟨k, hk⟩ := mem_destStates.mp hmem
        rcases Bool.or_eq_true_iff.mp hdrop with hempty | hexpired
        · exact absurd (mem_of_lookup hk) (isEmpty_iff.mp hempty k)
        · rw [ht.destStates] at hmem
          exact (hidle st (hs.idle e List.mem_cons_self hexpired st hmem)).harmless
      · exact hscan.apart st (fun h =>
          hn ((hscan.stored_erase (hscannedAt e List.mem_cons_self)).mpr ⟨h, hmem⟩))
    · intro e' he'
      rw [lookup_erase_eq, if_neg (hne e' he')]
      exact hscannedAt e' (List.mem_cons_of_mem _ he')
  · exact ⟨hscan, fun e' he' => hscannedAt e' (List.mem_cons_of_mem _ he'), hrest⟩

theorem scanning_foldl (hs : Scanning turn rest reg) (hn : (rest.map Prod.fst).Nodup) :
    Inv (rest.foldl (evaluateDestination turn) reg) := by
  induction rest generalizing reg with
  | nil => exact hs.toInv
  | cons e rest ih =>
    obtain ⟨hnot, hn'⟩ := List.nodup_cons.mp hn
    have hne : ∀ e' ∈ rest, e'.1 ≠ e.1 := fun e' he' heq => hnot (heq ▸ List.mem_map_of_mem he')
    exact ih (scanning_evaluateDestination hs hne) hn'

theorem inv_evaluateDestinations (hi : Inv reg)
    (hidle : ∀ id d, reg.destinations.lookup id = some d → expired turn reg d = true → ∀ st ∈ destStates reg d,
      Idle reg st) : Inv (evaluateDestinations turn reg) := by
  refine scanning_foldl ⟨hi, fun e he => mem_pairs.mp he, fun e he => hidle e.1 e.2 (mem_pairs.mp he)⟩ ?_
  rw [pairs_keys]
  exact reg.destinations.keys_nodup

theorem inv_checkQueued (hi : Inv reg) :
    Inv (if st ∈ reg.linkStateQueue ∧ (reg.state st).nextDial ≤ turn.now then
      evaluateLinkState turn { reg with linkStateQueue := reg.linkStateQueue.erase st } st
    else reg) := by
  split
  · rename_i hdue
    have hsame : SameMaps reg { reg with linkStateQueue := reg.linkStateQueue.erase st } :=
      ⟨rfl, fun _ => ⟨rfl, rfl⟩, ⟨rfl, rfl⟩, rfl, fun _ => ⟨rfl, rfl, rfl, rfl⟩⟩
    have hpopped : Inv { reg with linkStateQueue := reg.linkStateQueue.erase st } :=
      ⟨hsame.owned hi.toOwned, hi.toSafe.keep (fun _ h => h) (fun _ _ => rfl)
        (fun _ hq _ => List.mem_of_mem_erase hq) rfl⟩
    by_cases hstored : Stored reg st
    · exact hpopped.touch hstored (touches_evaluateLinkState turn hpopped.unlimited)
    · -- a state that lost its place is only queued if it is established
      have hstat := (hi.apart st hstored).2 hdue.1
      have hcould : couldDial turn (reg.state st) = false := by simp [couldDial, hstat]
      simpa only [evaluateLinkState, hcould, Bool.false_and, Bool.false_eq_true, if_false] using hpopped
  · exact hi

theorem touches_notifyEstablished (hun : Unlimited reg) : Touches (· = st) reg (notifyEstablished turn reg st).1 := by
  have hstat : Touches (· = st) reg (setState reg st (fun s => updateStatus s .dialFailed)) :=
    touches_setState (inPlace_updateStatus .dialFailed _)
  unfold notifyEstablished
  cases getLink reg (reg.state st).linkKey with
  | none => exact hstat.trans (touches_dialFailed turn (hstat.unlimited hun) st false)
  | some l =>
    exact touches_setState (f := fun s => { s with linkFaults := clearFaultsForLinkId l.id s.linkFaults })
      ⟨rfl, rfl, rfl, rfl⟩

theorem touches_notifyState (turn : Turn) (acc : Registry × Notices) (st : StateRef) (hun : Unlimited acc.1) :
    Touches (· = st) acc.1 (notifyState turn acc st).1 := by
  simp only [notifyState]
  split
  · exact touches_notifyEstablished hun
  · exact .refl _ acc.1

theorem touches_notifyControllersOfLinks (hun : Unlimited reg) :
    Touches (· ∈ (pairs reg.destinations).flatMap (fun entry => destStates reg entry.2)) reg
      (notifyControllersOfLinks turn reg).1 :=
  touches_foldl Prod.fst (touches_notifyState turn) (s := (reg, {})) hun

section

variable (hi : Inv reg)
include hi

theorem inv_notifyControllersOfLinks : Inv (notifyControllersOfLinks turn reg).1 := by
  refine hi.touches (fun st hst => ?_) (touches_notifyControllersOfLinks hi.unlimited)
  obtain ⟨e, he, hst'⟩ := List.mem_flatMap.mp hst
  exact hi.stored_of_mem (mem_pairs.mp he) hst'

theorem inv_updateLinkStatusForLink {l : Xlink} {status : LinkStatus} :
    Inv (updateLinkStatusForLink turn reg l status) := by
  unfold updateLinkStatusForLink
  cases hst : stateFor reg l with
  | none => exact hi
  | some st =>
    simp only []
    split
    · exact hi
    · exact hi.touch (hi.stored_stateFor hst) (touches_applyStatus turn hi.unlimited st l status)

theorem inv_addLinkFaultForReplacedLink {l : Xlink} : Inv (addLinkFaultForReplacedLink reg l) := by
  unfold addLinkFaultForReplacedLink
  cases stateFor reg l with
  | none => exact hi
  | some st => exact hi.setState (fun _ => ⟨rfl, rfl, rfl, rfl⟩) rfl

theorem inv_updateLinkStatusToDialFailed {applyFailed : Bool} :
    Inv (updateLinkStatusToDialFailed turn reg st applyFailed) := by
  unfold updateLinkStatusToDialFailed
  split
  · rename_i hdialing
    have hstored : Stored reg st := by_contra (fun hn => (hi.apart st hn).1 hdialing)
    have hstat : Touches (· = st) reg (setState reg st (fun s => updateStatus s .dialFailed)) :=
      touches_setState (inPlace_updateStatus .dialFailed _)
    exact hi.touch hstored (hstat.trans (touches_dialFailed turn (hstat.unlimited hi.unlimited) st applyFailed))
  · exact hi

theorem inv_markNewLinksNotified {links : List (StateRef × Xlink)} : Inv (markNewLinksNotified reg links) := by
  refine List.foldlRecOn _ _ hi (fun reg' hi' pair _ => ?_)
  split
  · exact hi'.setState (fun _ => ⟨rfl, rfl, rfl, rfl⟩) rfl
  · exact hi'

theorem inv_markFaultedLinksNotified {sent : List (StateRef × List LinkFault)} :
    Inv (markFaultedLinksNotified reg sent) :=
  List.foldlRecOn _ _ hi (fun _ hi' _ _ => hi'.setState (fun _ => ⟨rfl, rfl, rfl, rfl⟩) rfl)

end

theorem sameMaps_links (reg : Registry) {linkMap : Table String Xlink} {linkByIdMap : EdgeCtrl.IdTable Xlink}
    (dupsRejected : Xlink → Nat) : SameMaps reg
      { reg with linkMap := linkMap, linkByIdMap := linkByIdMap, dupsRejected := dupsRejected } :=
  ⟨rfl, fun _ => ⟨rfl, rfl⟩, ⟨rfl, rfl⟩, rfl, fun _ => ⟨rfl, rfl, rfl, rfl⟩⟩

/-- The link is registered or the links stay. Only counters of rejected
duplicates change besides. -/
theorem applyLink_cases (reg : Registry) (l : Xlink) : ∃ dups, (∀ m, reg.dupsRejected m ≤ dups m) ∧
    ((applyLink reg l).1 = { reg with dupsRejected := dups } ∨
      l ∉ reg.closed ∧ (applyLink reg l).1 = registerLink { reg with dupsRejected := dups } l) := by
  have hcount : ∀ existing, ∃ dups, (∀ m, reg.dupsRejected m ≤ dups m) ∧
      countDuplicate reg existing l = { reg with dupsRejected := dups } := by
    intro existing
    unfold countDuplicate
    split
    · refine ⟨_, fun m => ?_, rfl⟩
      rw [Function.update_apply]
      split <;> simp_all
    · exact ⟨_, fun _ => le_refl _, rfl⟩
  unfold applyLink
  split
  · exact ⟨_, fun _ => le_refl _, .inl rfl⟩
  · rename_i hclosed
    have hopen : l ∉ reg.closed := fun h => hclosed (decide_eq_true h)
    cases getLink reg l.key with
    | none => exact ⟨_, fun _ => le_refl _, .inr ⟨hopen, rfl⟩⟩
    | some existing =>
      obtain ⟨dups, hle, hdups⟩ := hcount existing
      simp only [hdups]
      split
      · exact ⟨_, fun _ => le_refl _, .inl rfl⟩
      · split
        · exact ⟨dups, hle, .inl rfl⟩
        · exact ⟨dups, hle, .inr ⟨hopen, rfl⟩⟩

theorem inv_step {a : Turn × Step} (hi : Inv reg) (hcond : SparesQueued reg a) : Inv (step reg a) := by
  obtain ⟨turn, s⟩ := a
  cases s with
  | removeLinkDest id => exact inv_removeLinkDest hi hcond
  | linkDestUpdate u =>
    exact inv_linkDestUpdate hi (fun st ⟨hhealthy, d, hd, key, hkey, hk⟩ => hcond hhealthy d hd key hkey st hk)
  | updateLinkStatusForLink l status => exact inv_updateLinkStatusForLink hi
  | addLinkFaultForReplacedLink l => exact inv_addLinkFaultForReplacedLink hi
  | updateLinkStatusToDialFailed st applyFailed => exact inv_updateLinkStatusToDialFailed hi
  | markNewLinksNotified links => exact inv_markNewLinksNotified hi
  | markFaultedLinksNotified sent => exact inv_markFaultedLinksNotified hi
  | evaluateLinkStateQueue due =>
    exact List.foldlRecOn _ _ hi (fun _ hi' st _ => inv_checkQueued hi')
  | evaluateDestinations => exact inv_evaluateDestinations hi hcond
  | notifyControllersOfLinks => exact inv_notifyControllersOfLinks hi
  | applyLink l =>
    obtain ⟨dups, -, heq | ⟨-, heq⟩⟩ := applyLink_cases reg l
    all_goals simp [step, heq]
    all_goals exact hi.links (sameMaps_links reg dups) rfl rfl rfl
  | linkClosed l => exact hi.links (sameMaps_links reg reg.dupsRejected) rfl rfl rfl
  | closeLink l => exact hi.links sameMaps_closeLink rfl rfl rfl
  | dialEnds st =>
    exact hi.setState (f := fun s => { s with dialActive := false }) (fun _ => ⟨rfl, rfl, rfl, rfl⟩) rfl

theorem inv_newLinkRegistry {dialers : List Dialer} : Inv (newLinkRegistry dialers) where
  toOwned := owned_newLinkRegistry
  apart st _ := by
    refine ⟨fun h => ?_, fun h => absurd h List.not_mem_nil⟩
    cases h
  dials dial h := absurd h List.not_mem_nil

/-- In a run in which no state leaves the maps while it is queued or being
dialed, only the stored states are dialed. -/
theorem dials_stored (dialers : List Dialer) (run : List (Turn × Step))
    (hrun : Meets SparesQueued step (newLinkRegistry dialers) run) :
    ∀ dial ∈ (run.foldl step (newLinkRegistry dialers)).dials, dial.stored = true :=
  (hrun.invariant Inv (fun _ _ => inv_step) inv_newLinkRegistry).dials

def defaultDialer : Dialer := ⟨"", ["default"], ⟨5, 60⟩, ⟨60, 3600⟩⟩

def defaultListener : Listener := ⟨"tls:10.0.0.2:6000", "tls", ["default"], ""⟩

def turnAt (now : Nat) : Turn :=
  { now := now, later := now + 1, newUUIDString := fun _ => "5fVj2nQx8yTz1KpLmWc3Rb" }

/-- The first dial of a new destination fails and is queued for a retry. -/
def firstDialFails : List (Turn × Step) :=
  [(turnAt 0, .linkDestUpdate ⟨"r2", "1.0", true, [defaultListener]⟩),
    (turnAt 10, .updateLinkStatusToDialFailed 0 false), (turnAt 10, .dialEnds 0)]

def retriedThenRemoved : List (Turn × Step) :=
  firstDialFails ++ [(turnAt 100, .evaluateLinkStateQueue [0]), (turnAt 110, .removeLinkDest "r2")]

theorem retry_dials_stored : Meets SparesQueued step (newLinkRegistry [defaultDialer]) retriedThenRemoved ∧
    ∀ dial ∈ (retriedThenRemoved.foldl step (newLinkRegistry [defaultDialer])).dials, dial.stored = true := by
  have hrun : Meets SparesQueued step (newLinkRegistry [defaultDialer]) retriedThenRemoved := by
    refine ⟨fun _ d hd => ?_, trivial, trivial, trivial, fun d _ st _ hq => ?_, trivial⟩
    · cases hd
    · have hempty : ((retriedThenRemoved.take 4).foldl step (newLinkRegistry [defaultDialer])).linkStateQueue = [] := by
        decide +kernel
      exact List.not_mem_nil (hempty ▸ hq)
  exact ⟨hrun, dials_stored _ _ hrun⟩

def removedThenChecked : List (Turn × Step) :=
  firstDialFails ++ [(turnAt 20, .removeLinkDest "r2"), (turnAt 100, .evaluateLinkStateQueue [0])]

def withdrawnThenChecked : List (Turn × Step) :=
  firstDialFails ++
    [(turnAt 20, .linkDestUpdate ⟨"r2", "1.0", true, []⟩), (turnAt 100, .evaluateLinkStateQueue [0])]

/-- The retry is dialed although the destination was removed, and likewise if
its listener was withdrawn. -/
theorem removed_states_dialed :
    (removedThenChecked.foldl step (newLinkRegistry [defaultDialer])).dials = [⟨0, false⟩, ⟨0, true⟩] ∧
      (withdrawnThenChecked.foldl step (newLinkRegistry [defaultDialer])).dials = [⟨0, false⟩, ⟨0, true⟩] := by
  decide +kernel

end Zt.LinkDials
