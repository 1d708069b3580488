import Zt.LinkFaultRuns
import Zt.LinkRemoval

namespace Zt.LinkAccounts

open Tables LinkRegistry LinkEntries LinkNotices LinkFaults LinkFaultRuns Runs
open LinkDials (defaultDialer defaultListener turnAt)
open LinkRemoval (establishedLink)
open List (append_nil mem_append mem_singleton mem_map)

variable {sys : System} {turn : Turn} {l : Xlink} {e : Step} {i : Nat} {queued : Bool} {outcomes : List Outcome}
  {a : Act}

/-- What holds between any two steps of a run. -/
structure Inv (sys : System) : Prop where
  sound : Sound sys
  covered : Covered sys

theorem inv_outside (hi : Inv sys) {s : Step} (hcare : Careful sys (.outside turn s)) :
    Inv (act sys (.outside turn s)) := by
  simp only [act]
  by_cases hs : isOutside s = true
  · rw [if_pos hs]
    have hk := keeps_outside turn hi.sound.tidy hs
    have hcarry := carries_keeps hk hcare.1
      (fun st hst hf l' hl' l hu hid hlt => .inl (hcare.2 st hst hf l' hl' l hu hid hlt))
    refine ⟨hi.sound.reg hk.toTidy hk.links, hi.covered.step hcarry ?_ (fun _ h => h) ⟨[], ?_⟩⟩
    · exact fun l hl _ hknown => .inl ⟨hl, hknown⟩
    · exact (append_nil _).symm
  · rw [if_neg hs]
    exact hi

theorem sameMaps_applyLink {reg : Registry} :
    SameMaps reg (LinkRegistry.applyLink reg l).1 ∧ (LinkRegistry.applyLink reg l).1.state = reg.state := by
  obtain ⟨dups, -, heq | ⟨-, heq⟩⟩ := LinkDials.applyLink_cases reg l
  all_goals rw [heq]
  all_goals exact ⟨LinkDials.sameMaps_links reg dups, rfl⟩

theorem inv_queue (hi : Inv sys) (hinternal : isInternal e = true) (hclosed : closedBy e = [])
    (hmark : ∀ faults, e = .markFaultedLinksNotified faults → ∀ pair ∈ faults, ∀ fault ∈ pair.2, fault ∈ sys.sent) :
    Inv { sys with events := sys.events ++ [e] } :=
  ⟨hi.sound.queue hinternal hclosed hmark, hi.covered⟩

theorem inv_established (hi : Inv sys) :
    Inv { sys with events := sys.events ++ [.updateLinkStatusForLink l .established] } :=
  inv_queue hi rfl rfl (fun _ h => by cases h)

theorem inv_applyLink (hi : Inv sys) : Inv (LinkNotices.applyLink sys l) := by
  have hreg : Inv { sys with reg := (applyLink sys.reg l).1 } := by
    obtain ⟨hmaps, hstate⟩ := sameMaps_applyLink
    refine ⟨sound_applyLink hi.sound, hi.covered.links hmaps hstate rfl (fun _ h => h) (fun _ h => h) ⟨[], ?_⟩⟩
    exact (append_nil _).symm
  unfold LinkNotices.applyLink
  split
  · rename_i reg _ heq
    rw [heq] at hreg
    exact inv_established hreg
  · rename_i reg _ _ heq
    rw [heq] at hreg
    exact hreg

theorem inv_findLink (hi : Inv sys) {key : String} : Inv (findLink sys key) := by
  unfold findLink
  split
  · exact hi
  · exact inv_established hi

/-- A closed link is not found under any key once it was taken out. -/
theorem getLink_linkClosed {l' : Xlink} {key : String} (hs : Sound sys)
    (h : getLink (LinkRegistry.linkClosed sys.reg l).1 key = some l') : getLink sys.reg key = some l' ∧ l' ≠ l := by
  simp only [LinkRegistry.linkClosed] at h
  have hfound : getLink sys.reg key = some l' ∧ (sys.reg.linkMap.lookup l.key = some l → key ≠ l.key) := by
    split at h
    · obtain ⟨hne, h⟩ := lookup_of_erase h
      exact ⟨h, fun _ => hne⟩
    · rename_i hne
      exact ⟨h, fun heq => absurd heq hne⟩
  refine ⟨hfound.1, ?_⟩
  rintro rfl
  have hkey := hs.keyed key l' hfound.1
  have hreg : sys.reg.linkMap.lookup l'.key = some l' := by
    rw [hkey]
    exact hfound.1
  exact hfound.2 hreg hkey.symm

theorem sound_linkClosed (hs : Sound sys) (hclosed : l ∈ sys.reg.closed)
    (he : e = .updateLinkStatusForLink l .linkFailed ∨ e = .addLinkFaultForReplacedLink l) : Sound { sys with
      reg := (LinkRegistry.linkClosed sys.reg l).1
      events := sys.events ++ [e]
      closedAt := (l, sys.sent.length) :: sys.closedAt } := by
  have hinternal : isInternal e = true := by
    rcases he with rfl | rfl <;> rfl
  have hcloses : closedBy e = [l] := by
    rcases he with rfl | rfl <;> rfl
  have hmaps : SameMaps sys.reg (linkClosed sys.reg l).1 :=
    LinkDials.sameMaps_links sys.reg sys.reg.dupsRejected
  refine ⟨tidy_same hs.tidy hmaps rfl, ?_, ?_, ?_, ?_, ?_, ?_, hs.sent⟩
  · intro key l' h
    exact hs.keyed key l' (getLink_linkClosed hs h).1
  · intro entry hentry
    rcases List.mem_cons.mp hentry with rfl | hentry
    · exact ⟨hclosed, fun key h => (getLink_linkClosed hs h).2 rfl⟩
    · exact ⟨(hs.closed entry hentry).1, fun key h => (hs.closed entry hentry).2 key (getLink_linkClosed hs h).1⟩
  · exact fun l' hl' => List.mem_cons_of_mem _ (hs.handled l' hl')
  · intro e' he'
    rcases mem_append.mp he' with h | h
    · exact hs.internal e' h
    · rw [mem_singleton.mp h]
      exact hinternal
  · intro e' he' l' hl'
    rcases mem_append.mp he' with h | h
    · exact List.mem_cons_of_mem _ (hs.closing e' h l' hl')
    · rw [mem_singleton.mp h, hcloses, mem_singleton] at hl'
      rw [hl']
      exact List.mem_cons_self
  · intro faults hf
    rcases mem_append.mp hf with h | h
    · exact hs.marked faults h
    · rw [← mem_singleton.mp h] at he
      rcases he with he | he <;> cases he

theorem inv_linkClosed (hi : Inv sys) : Inv (LinkNotices.linkClosed sys l) := by
  unfold LinkNotices.linkClosed
  split
  · rename_i hguard
    have hclosed : l ∈ sys.reg.closed := of_decide_eq_true hguard.1
    have hmaps : SameMaps sys.reg (linkClosed sys.reg l).1 :=
      LinkDials.sameMaps_links sys.reg sys.reg.dupsRejected
    refine ⟨sound_linkClosed hi.sound hclosed ?_, hi.covered.links hmaps rfl rfl (fun _ h => h) ?_ ⟨[], ?_⟩⟩
    · split
      · exact .inl rfl
      · exact .inr rfl
    · exact fun entry h => List.mem_cons_of_mem _ h
    · exact (append_nil _).symm
  · exact hi

theorem inv_handle (hi : Inv sys) (hcare : Careful sys (.handle turn i)) : Inv (handle sys turn i) := by
  unfold handle
  split
  · exact hi
  · rename_i e he
    have hmem : e ∈ sys.events := List.mem_of_getElem? he
    have hh := handles_event hi.sound turn hmem (hcare e he)
    have hreg := hi.sound.reg hh.tidy hh.links
    have hrest : ∀ e' ∈ sys.events.eraseIdx i, e' ∈ sys.events := fun e' h => List.mem_of_mem_eraseIdx h
    constructor
    · refine { hreg with handled := fun l hl => ?_, internal := fun e' h => ?_, closing := fun e' h => ?_,
                         marked := fun faults h => ?_ }
      · rcases mem_append.mp hl with h | h
        · exact hi.sound.closing e hmem l h
        · exact hi.sound.handled l h
      · exact hi.sound.internal e' (hrest e' h)
      · exact hi.sound.closing e' (hrest e' h)
      · exact hi.sound.marked faults (hrest _ h)
    · refine hi.covered.step hh.carries (fun l hl hd hk => ?_) (fun _ h => h) ⟨[], (append_nil _).symm⟩
      rcases mem_append.mp hl with h | h
      · exact .inr (hh.pending l h hd hk)
      · exact .inl ⟨h, hk⟩

theorem inv_notify (hi : Inv sys) (hcare : Careful sys (.notify turn queued)) : Inv (notify sys turn queued) := by
  unfold notify
  by_cases hround : sys.round.isSome = true
  · rw [if_pos hround]
    exact hi
  · rw [if_neg hround]
    have hnone : sys.round = none := Option.not_isSome_iff_eq_none.mp hround
    have hn := notified_notifyControllersOfLinks turn hi.sound.tidy
    have hcarry : Carries sys (notifyControllersOfLinks turn sys.reg).1 := carries_notified hn (hcare hnone)
    have hreg := hi.sound.reg hn.tidy hn.links
    constructor
    · refine { hreg with sent := fun r hr pair hp => ?_ }
      simp only [] at hr
      split at hr
      · cases hr
      · cases hr
        cases hp
    · refine hi.covered.step hcarry (fun l hl _ hk => .inl ⟨hl, ?_⟩) (fun _ h => h) ⟨[], (append_nil _).symm⟩
      -- a link that is announced now is in the map, so its closing was not handled
      rcases hk with hk | ⟨r, hr, hk⟩
      · exact .inl hk
      · simp only [] at hr
        split at hr
        · cases hr
        · cases hr
          obtain ⟨pair, hp, rfl⟩ := mem_map.mp hk
          obtain ⟨key, hkey⟩ := hn.announced pair hp
          exact absurd hl (hi.sound.fresh hkey)

theorem inv_sendNewLinks (hi : Inv sys) : Inv (sendNewLinks sys outcomes) := by
  unfold sendNewLinks
  cases hround : sys.round with
  | none => exact hi
  | some r =>
    have hsent : Inv { sys with
        round := some { r with links := [] }
        reported := if .sent ∈ outcomes then r.links.map Prod.snd ++ sys.reported else sys.reported } := by
      constructor
      · refine { hi.sound with sent := fun r' hr' => ?_ }
        cases hr'
        exact hi.sound.sent r hround
      · refine hi.covered.links (.refl _) rfl rfl (fun l hk => ?_) (fun _ h => h) ⟨[], (append_nil _).symm⟩
        rcases hk with hk | ⟨r', hr', hk⟩
        · split at hk
          · rcases mem_append.mp hk with h | h
            · exact .inr ⟨r, hround, h⟩
            · exact .inl h
          · exact .inl hk
        · cases hr'
          cases hk
    simp only []
    split
    · exact hsent
    · exact inv_queue hsent rfl rfl (fun _ h => by cases h)

theorem inv_sendLinkFault (hi : Inv sys) : Inv (sendLinkFault sys outcomes) := by
  unfold sendLinkFault
  split
  · rename_i st fault faults successfullySent hround
    have hsent := hi.sound.sent _ hround
    have hknown : ∀ {round : Option Round}, (∀ r, round = some r → r.links = []) → ∀ sent l,
        Known { sys with round := round, sent := sent } l → Known sys l := by
      rintro round hlinks sent l (hk | ⟨r, hr, hk⟩)
      · exact .inl hk
      · rw [hlinks r hr] at hk
        cases hk
    split
    · constructor
      · refine { hi.sound with sent := fun r hr => ?_ }
        cases hr
        exact hsent
      · refine hi.covered.links (.refl _) rfl rfl (hknown (fun r hr => ?_) sys.sent) (fun _ h => h)
          ⟨[], (append_nil _).symm⟩
        cases hr
        rfl
    · constructor
      · refine { hi.sound with marked := fun sent hs pair hp fault' hf => ?_, sent := fun r hr pair hp => ?_ }
        · exact List.mem_append_left _ (hi.sound.marked sent hs pair hp fault' hf)
        · cases hr
          rcases mem_append.mp hp with h | h
          · exact List.mem_append_left _ (hsent pair h)
          · rw [mem_singleton.mp h]
            exact List.mem_append_right _ List.mem_cons_self
      · refine hi.covered.links (.refl _) rfl rfl (hknown (fun r hr => ?_) _) (fun _ h => h) ⟨[fault], rfl⟩
        cases hr
        rfl
  · exact hi

theorem inv_finish (hi : Inv sys) : Inv (finish sys) := by
  unfold finish
  split
  · rename_i successfullySent hround
    have hdone : Inv { sys with round := none } := by
      refine ⟨{ hi.sound with sent := fun r hr => by cases hr }, ?_⟩
      refine hi.covered.links (.refl _) rfl rfl (fun l hk => ?_) (fun _ h => h) ⟨[], (append_nil _).symm⟩
      rcases hk with hk | ⟨r, hr, _⟩
      · exact .inl hk
      · cases hr
    split
    · exact hdone
    · refine inv_queue hdone rfl rfl (fun faults h pair hp fault hf => ?_)
      cases h
      obtain ⟨pair', hp', rfl⟩ := mem_map.mp hp
      rw [mem_singleton.mp hf]
      exact hi.sound.sent _ hround pair' hp'
  · exact hi

theorem inv_act (hi : Inv sys) (hcare : Careful sys a) : Inv (act sys a) := by
  cases a with
  | outside turn s => exact inv_outside hi hcare
  | applyLink l => exact inv_applyLink hi
  | findLink key => exact inv_findLink hi
  | linkClosed l => exact inv_linkClosed hi
  | handle turn i => exact inv_handle hi hcare
  | notify turn queued => exact inv_notify hi hcare
  | sendNewLinks outcomes => exact inv_sendNewLinks hi
  | sendLinkFault outcomes => exact inv_sendLinkFault hi
  | finish => exact inv_finish hi

theorem rightly_same (hmaps : SameMaps sys.reg (act sys a).reg)
    (hstate : (act sys a).reg.state = sys.reg.state) : ClearsRightly sys a := by
  intro st hst fault hf
  refine .inl ⟨(hmaps.stored_iff st).mpr hst, fault, ?_, rfl, le_refl _⟩
  rw [hstate]
  exact hf

theorem rightly_idle (h : (act sys a).reg = sys.reg) : ClearsRightly sys a := by
  refine rightly_same ?_ (by rw [h])
  rw [h]
  exact .refl _

theorem rightly_outside (hi : Inv sys) {s : Step} (hcare : Careful sys (.outside turn s)) :
    ClearsRightly sys (.outside turn s) := by
  by_cases hs : isOutside s = true
  · have heq : (act sys (.outside turn s)).reg = step sys.reg (turn, s) := by
      simp [act, if_pos hs]
    intro st hst fault hf
    have hkept : ¬ lostBy turn sys.reg st s := by
      intro hlost
      rw [(hcare.1 st hst hlost).1] at hf
      cases hf
    obtain ⟨hst', hfaults, _⟩ := (keeps_outside turn hi.sound.tidy hs).kept st hst hkept
    rw [heq]
    exact .inl ⟨hst', hfaults fault hf⟩
  · have heq : act sys (.outside turn s) = sys := by
      simp [act, if_neg hs]
    exact rightly_idle (by rw [heq])

theorem rightly_handle (hi : Inv sys) (hcare : Careful sys (.handle turn i)) :
    ClearsRightly sys (.handle turn i) := by
  cases he : sys.events[i]? with
  | none =>
    have heq : act sys (.handle turn i) = sys := by
      simp [act, handle, he]
    exact rightly_idle (by rw [heq])
  | some e =>
    have heq : (act sys (.handle turn i)).reg = step sys.reg (turn, e) := by
      simp [act, handle, he]
    have hmem := List.mem_of_getElem? he
    intro st hst fault hf
    rcases (handles_event hi.sound turn hmem (hcare e he)).clears st hst fault hf with h | h
    · rw [heq]
      exact .inl h
    · obtain ⟨sent, rfl, pair, hp, hpst, fault', hf', hcov⟩ := h
      have hsent := hi.sound.marked sent hmem pair hp fault' hf'
      exact .inr (.inl ⟨turn, i, sent, rfl, he, pair, hp, hpst, fault', hf', hsent, hcov⟩)

theorem rightly_notify (hi : Inv sys) : ClearsRightly sys (.notify turn queued) := by
  by_cases hround : sys.round.isSome = true
  · have heq : act sys (.notify turn queued) = sys := by
      simp [act, notify, if_pos hround]
    exact rightly_idle (by rw [heq])
  · have heq : (act sys (.notify turn queued)).reg = (notifyControllersOfLinks turn sys.reg).1 := by
      simp [act, notify, if_neg hround]
    have hn := notified_notifyControllersOfLinks turn hi.sound.tidy
    intro st hst fault hf
    rw [heq]
    have hst' := (hn.stored_iff st).mpr hst
    cases hn.states' st with
    | same hsame => exact .inl ⟨hst', fault, hsame ▸ hf, rfl, le_refl _⟩
    | detached _ _ _ hd => exact .inl ⟨hst', fault, hd.faults ▸ hf, rfl, le_refl _⟩
    | cleared l hs _ hlink hcleared =>
      by_cases hid : fault.linkId = l.id
      · exact .inr (.inr ⟨turn, queued, rfl, hs, l, hlink, hid.symm⟩)
      · refine .inl ⟨hst', fault, ?_, rfl, le_refl _⟩
        rw [hcleared]
        exact List.mem_filter.mpr ⟨hf, decide_eq_true hid⟩

theorem rightly_applyLink : ClearsRightly sys (.applyLink l) := by
  have heq : (act sys (.applyLink l)).reg = (applyLink sys.reg l).1 := by
    simp only [act, LinkNotices.applyLink]
    split <;> rename_i heq <;> rw [heq]
  obtain ⟨hmaps, hstate⟩ := sameMaps_applyLink
  rw [← heq] at hmaps hstate
  exact rightly_same hmaps hstate

theorem rightly_linkClosed : ClearsRightly sys (.linkClosed l) := by
  by_cases hguard : isClosed sys.reg l = true ∧ l ∉ sys.closedAt.map Prod.fst
  · have heq : (act sys (.linkClosed l)).reg = (linkClosed sys.reg l).1 := by
      simp only [act, LinkNotices.linkClosed, if_pos hguard]
    refine rightly_same ?_ ?_ <;> rw [heq]
    · exact LinkDials.sameMaps_links sys.reg sys.reg.dupsRejected
    · rfl
  · exact rightly_idle (by simp [act, LinkNotices.linkClosed, if_neg hguard])

theorem rightly_act (hi : Inv sys) (hcare : Careful sys a) : ClearsRightly sys a := by
  cases a with
  | outside turn s => exact rightly_outside hi hcare
  | handle turn i => exact rightly_handle hi hcare
  | notify turn queued => exact rightly_notify hi
  | applyLink l => exact rightly_applyLink
  | linkClosed l => exact rightly_linkClosed
  | findLink key =>
    refine rightly_idle ?_
    simp only [act, findLink]
    split <;> rfl
  | sendNewLinks outcomes =>
    refine rightly_idle ?_
    simp only [act, sendNewLinks]
    split <;> rfl
  | sendLinkFault outcomes =>
    refine rightly_idle ?_
    simp only [act, sendLinkFault]
    split
    · split <;> rfl
    · rfl
  | finish =>
    refine rightly_idle ?_
    simp only [act, finish]
    split <;> rfl

theorem inv_newSystem {dialers : List Dialer} : Inv (newSystem dialers) where
  sound :=
    { tidy := ⟨owned_newLinkRegistry, fun _ h => absurd rfl h, fun _ h => by cases h.1⟩
      keyed := fun _ _ h => by cases h
      closed := fun _ h => by cases h
      handled := fun _ h => by cases h
      internal := fun _ h => by cases h
      closing := fun _ h => by cases h
      marked := fun _ h => by cases h
      sent := fun _ h => by cases h }
  covered _ h := by cases h

/-- In a careful run every closed link that a controller was told of is
accounted for, and faults are cleared for the two reasons only. -/
theorem closed_links_accounted (dialers : List Dialer) (run : List Act)
    (hrun : Meets Careful act (newSystem dialers) run) :
    Accounted (run.foldl act (newSystem dialers)) ∧ Meets ClearsRightly act (newSystem dialers) run := by
  have hstep : ∀ sys a, Inv sys → Careful sys a → Inv (act sys a) := fun _ a hi hcare => inv_act hi hcare
  refine ⟨fun l hl hd hr => ?_, hrun.imp Inv (fun sys a hi hcare => ?_) inv_newSystem⟩
  · exact (hrun.invariant Inv hstep inv_newSystem).covered l hl hd (.inl hr)
  · exact ⟨hstep sys a hi hcare, rightly_act hi hcare⟩

/-- A link comes up, is reported and taken note of. -/
def linkReported : List Act :=
  [.outside (turnAt 0) (.linkDestUpdate ⟨"r2", "1.0", true, [defaultListener]⟩), .applyLink establishedLink,
    .outside (turnAt 10) (.dialEnds 0), .handle (turnAt 11) 0, .notify (turnAt 12) true, .sendNewLinks [.sent],
    .handle (turnAt 13) 0]

def reportedThenLost : List Act :=
  linkReported ++ [.outside (turnAt 50) (.closeLink establishedLink), .linkClosed establishedLink, .handle (turnAt 51) 0]

theorem not_unsent (h : sys.handled = []) : ¬ Unsent sys l := by
  intro hu
  have hl := hu.handled
  rw [h] at hl
  cases hl

theorem spare_of_handled_eq (h : sys.handled = []) {st : StateRef} : Spare sys st :=
  fun _ _ _ hu => absurd hu (not_unsent h)

theorem careful_event (he : sys.events[i]? = some e) (hcare : CarefulEvent sys e) : Careful sys (.handle turn i) := by
  intro e' he'
  rw [he] at he'
  cases he'
  exact hcare

theorem lost_link_accounted : Meets Careful act (newSystem [defaultDialer]) reportedThenLost ∧
    Accounted (reportedThenLost.foldl act (newSystem [defaultDialer])) ∧
    Meets ClearsRightly act (newSystem [defaultDialer]) reportedThenLost := by
  have hrun : Meets Careful act (newSystem [defaultDialer]) reportedThenLost := by
    refine ⟨⟨?_, fun _ _ h => h.elim⟩, trivial, ⟨fun _ _ h => h.elim, fun _ _ h => h.elim⟩,
      careful_event rfl (fun st _ _ => spare_of_handled_eq rfl), ?_, trivial, careful_event rfl trivial,
      ⟨fun _ _ h => h.elim, fun _ _ h => h.elim⟩, trivial, careful_event rfl ⟨?_, ?_⟩, trivial⟩
    · rintro st _ ⟨_, d, hd, _⟩
      cases hd
    · exact fun _ st _ _ _ => ⟨fun _ => spare_of_handled_eq rfl, fun _ _ _ hu => absurd hu (not_unsent rfl)⟩
    · exact fun _ _ => ⟨0, by decide +kernel⟩
    · exact fun st _ _ => spare_of_handled_eq rfl
  exact ⟨hrun, closed_links_accounted [defaultDialer] reportedThenLost hrun⟩

/-- The listener is withdrawn, which takes the state out of the maps and closes its link. -/
def reportedThenWithdrawn : List Act :=
  linkReported ++ [.outside (turnAt 50) (.linkDestUpdate ⟨"r2", "1.0", true, []⟩), .linkClosed establishedLink,
    .handle (turnAt 51) 0]

def reportedThenRemoved : List Act :=
  linkReported ++ [.outside (turnAt 50) (.removeLinkDest "r2"), .outside (turnAt 60) (.closeLink establishedLink),
    .linkClosed establishedLink, .handle (turnAt 61) 0]

theorem not_accounted (l : Xlink) (hstored : ∀ st, ¬ Stored sys.reg st) (hsent : sys.sent = [])
    (hl : l ∈ sys.handled) (hd : l.isDialed = true) (hr : l ∈ sys.reported) : ¬ Accounted sys := by
  intro h
  rcases h l hl hd hr with ⟨st, hst, _⟩ | ⟨n, _, fault, hf, _⟩ | ⟨st, hst, _⟩
  · exact hstored st hst
  · rw [hsent, List.drop_nil] at hf
    cases hf
  · exact hstored st hst

/-- No fault is kept for a link that was reported and whose state is gone when
the link closes. -/
theorem faults_of_removed_states_lost :
    ¬ Accounted (reportedThenWithdrawn.foldl act (newSystem [defaultDialer])) ∧
      ¬ Accounted (reportedThenRemoved.foldl act (newSystem [defaultDialer])) := by
  constructor
  · refine not_accounted establishedLink (fun st hst => ?_) (by decide +kernel) (by decide +kernel) rfl
      (by decide +kernel)
    have hdests : pairs (reportedThenWithdrawn.foldl act (newSystem [defaultDialer])).reg.destinations = [("r2", 0)] := by
      decide +kernel
    have hstates :
        pairs ((reportedThenWithdrawn.foldl act (newSystem [defaultDialer])).reg.dest 0).linkMap = [] := by
      decide +kernel
    have hdest := mem_pairs.mpr hst.1
    rw [hdests, mem_singleton, Prod.mk.injEq] at hdest
    have hstate := mem_pairs.mpr hst.2
    rw [hdest.2, hstates] at hstate
    cases hstate
  · refine not_accounted establishedLink (fun st hst => ?_) (by decide +kernel) (by decide +kernel) rfl
      (by decide +kernel)
    have hdests : pairs (reportedThenRemoved.foldl act (newSystem [defaultDialer])).reg.destinations = [] := by
      decide +kernel
    have hdest := mem_pairs.mpr hst.1
    cases hdest

end Zt.LinkAccounts
