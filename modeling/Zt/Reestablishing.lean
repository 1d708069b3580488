import Mathlib.Logic.Function.Iterate
import Zt.Runs
import Zt.Tables

namespace Zt.Reestablishing

open Tables Runs

inductive TerminatorState
  | establishing | established | deleting
  deriving DecidableEq

/-- What HandleReestablish does next. -/
inductive Phase
  | load | clear | scan | queue | release
  deriving DecidableEq

/-- The registry, the handlers that run, the number of callers that have stored
the flag and not swapped the marker yet, and whether no scan has started since
the last call. -/
structure Registry where
  terminators : Table String TerminatorState := ∅
  reestablishRequired : Bool := false
  reestablishRunning : Bool := false
  handlers : List Phase := []
  callers : Nat := 0
  unscanned : Bool := false

inductive Event
  | store
  | swap
  | handle (i : Nat)
  | setState (id : String) (state : TerminatorState)
  | remove (id : String)

def reconnecting : TerminatorState → TerminatorState
  | .established => .establishing
  | state => state

variable (s : Registry)

/-- The scan tells whether it has moved a terminator. Queueing those that it
moved changes none of this state. -/
def handleReestablish : Phase → Registry × Option Phase
  | .load => (s, some (if s.reestablishRequired then .clear else .release))
  | .clear => ({ s with reestablishRequired := false }, some .scan)
  | .scan =>
    let moved := s.terminators.keys.any (fun id => s.terminators.lookup id = some .established)
    ({ s with terminators := adjustEach s.terminators s.terminators.keys reconnecting, unscanned := false },
      some (if moved then .queue else .release))
  | .queue => (s, some .load)
  | .release => ({ s with reestablishRunning := false }, none)

def step : Event → Registry
  | .store => { s with reestablishRequired := true, callers := s.callers + 1, unscanned := true }
  | .swap =>
    if s.callers = 0 then s
    else if s.reestablishRunning then { s with callers := s.callers - 1 }
    else { s with callers := s.callers - 1, reestablishRunning := true, handlers := s.handlers ++ [.load] }
  | .handle i =>
    match s.handlers[i]? with
    | none => s
    | some phase =>
      let (s', next) := handleReestablish s phase
      { s' with handlers := s.handlers.take i ++ next.toList ++ s.handlers.drop (i + 1) }
  | .setState id state => { s with terminators := s.terminators.insert id state }
  | .remove id => { s with terminators := s.terminators.erase id }

/-- The handler comes to a scan, which leaves no terminator established. -/
def Scans : Prop :=
  ∃ k, let s' := (step · (.handle 0))^[k] s
    s'.unscanned = false ∧ ∀ id, s'.terminators.lookup id ≠ some .established

/-- At most one handler runs, and once the callers are done it comes to a scan
if there has been none since a call. -/
def Answered : Prop := s.handlers.length ≤ 1 ∧ (s.unscanned = true → s.callers = 0 → Scans s)

/-- The last caller does not swap between the last look of a handler at the
flag and its release of the marker, unless a scan has started since the calls. -/
def InTime : Event → Prop
  | .swap => s.callers = 1 → s.unscanned = true → .release ∉ s.handlers
  | _ => True

/-- The marker is held by one handler, and the flag is set until it is about to
scan. -/
structure Marked : Prop where
  handlers : s.handlers = [] ∧ s.reestablishRunning = false ∨
    ∃ phase, s.handlers = [phase] ∧ s.reestablishRunning = true
  flag : s.unscanned = true → s.reestablishRequired = true ∨ s.handlers = [.scan]

variable {s}

theorem step_handle {phase : Phase} (h : s.handlers = [phase]) :
    step s (.handle 0) = { (handleReestablish s phase).1 with handlers := (handleReestablish s phase).2.toList } := by
  simp [step, h]

theorem step_handle_none {i : Nat} (h : s.handlers.length ≤ i) : step s (.handle i) = s := by
  simp [step, List.getElem?_eq_none h]

/-- Only the handler that holds the marker does anything. -/
theorem Marked.handle_cases (h : Marked s) {i : Nat} : step s (.handle i) = s ∨ ∃ phase, s.handlers = [phase] ∧
    step s (.handle i) = { (handleReestablish s phase).1 with handlers := (handleReestablish s phase).2.toList } := by
  rcases h.handlers with ⟨hnone, -⟩ | ⟨phase, hphase, -⟩
  · exact .inl (step_handle_none (by simp [hnone]))
  · cases i with
    | zero => exact .inr ⟨phase, hphase, step_handle hphase⟩
    | succ i => exact .inl (step_handle_none (by simp [hphase]))

theorem marked_step (s : Registry) (e : Event) (h : Marked s) : Marked (step s e) := by
  cases e with
  | store => exact ⟨h.handlers, fun _ => .inl rfl⟩
  | setState _ _ | remove _ => exact ⟨h.handlers, h.flag⟩
  | swap =>
    simp only [step]
    rcases h.handlers with ⟨hnone, hfree⟩ | ⟨-, -, hheld⟩
    · split
      · exact h
      · have hflag := h.flag
        rw [if_neg (by simp [hfree]), hnone]
        exact ⟨.inr ⟨.load, rfl, rfl⟩, fun hunscanned => .inl (by simpa [hnone] using hflag hunscanned)⟩
    · split
      · exact h
      · exact ⟨h.handlers, h.flag⟩
  | handle i =>
    obtain heq | ⟨phase, hphase, heq⟩ := h.handle_cases
    · rwa [heq]
    · have hflag := h.flag
      have hheld := h.handlers
      cases phase <;> constructor <;> simp_all [handleReestablish]

/-- In every state of a run one handler runs while the marker is set, and none
while it is not: no two callers both start one, and the
marker is not left behind. -/
theorem handlers_of_marker (events : List Event) :
    (events.foldl step {}).handlers.length = if (events.foldl step {}).reestablishRunning then 1 else 0 := by
  have hmarked : Marked (events.foldl step {}) :=
    List.foldlRecOn events step ⟨.inl ⟨rfl, rfl⟩, fun h => absurd h (by decide)⟩ (fun s h e _ => marked_step s e h)
  rcases hmarked.handlers with ⟨hnone, hfree⟩ | ⟨phase, hphase, hheld⟩
  · rw [hnone, hfree]
    rfl
  · rw [hphase, hheld]
    rfl

theorem scans_of_handle (h : Scans (step s (.handle 0))) : Scans s := by
  obtain ⟨k, hk⟩ := h
  exact ⟨k + 1, hk⟩

theorem scans_of_scan (h : s.handlers = [.scan]) : Scans s := by
  refine scans_of_handle ⟨0, ?_⟩
  rw [step_handle h]
  refine ⟨rfl, fun id => ?_⟩
  simp only [Function.iterate_zero, id_eq, handleReestablish, lookup_adjustEach_keys]
  rcases s.terminators.lookup id with _ | _ | _ | _ <;> simp [reconnecting]

theorem scans_of_clear (h : s.handlers = [.clear]) : Scans s := by
  refine scans_of_handle (scans_of_scan ?_)
  rw [step_handle h]
  rfl

theorem scans_of_load (h : s.handlers = [.load]) (hrequired : s.reestablishRequired = true) : Scans s := by
  refine scans_of_handle (scans_of_clear ?_)
  rw [step_handle h]
  simp [handleReestablish, hrequired]

theorem scans_of_queue (h : s.handlers = [.queue]) (hrequired : s.reestablishRequired = true) : Scans s := by
  refine scans_of_handle (scans_of_load ?_ ?_)
  · rw [step_handle h]
    rfl
  · rwa [step_handle h]

theorem not_scans_of_none (h : s.handlers = []) (hunscanned : s.unscanned = true) : ¬ Scans s := by
  rintro ⟨k, hscanned, -⟩
  rw [Function.iterate_fixed (step_handle_none (by simp [h]))] at hscanned
  exact absurd hunscanned (by simp [hscanned])

theorem scans_iff (h : Marked s) (hunscanned : s.unscanned = true) : Scans s ↔ ∃ phase ∈ s.handlers, phase ≠ .release := by
  have hflag := h.flag hunscanned
  rcases h.handlers with ⟨hnone, -⟩ | ⟨phase, hphase, -⟩
  · simp [not_scans_of_none hnone hunscanned, hnone]
  · rw [hphase] at hflag ⊢
    cases phase with
    | load => simp [scans_of_load hphase (by simpa using hflag)]
    | clear => simp [scans_of_clear hphase]
    | scan => simp [scans_of_scan hphase]
    | queue => simp [scans_of_queue hphase (by simpa using hflag)]
    | release =>
      simp only [List.mem_singleton, exists_eq_left, ne_eq, not_true_eq_false, iff_false]
      rintro ⟨_ | k, hk⟩
      · exact absurd (hunscanned.symm.trans hk.1) (by decide)
      · have hreleased : ¬ Scans (step s (.handle 0)) := by
          rw [step_handle hphase]
          exact not_scans_of_none rfl hunscanned
        exact hreleased ⟨k, hk⟩

theorem answered_iff (h : Marked s) :
    Answered s ↔ (s.unscanned = true → s.callers = 0 → ∃ phase ∈ s.handlers, phase ≠ .release) := by
  have hone : s.handlers.length ≤ 1 := by
    rcases h.handlers with ⟨hnone, -⟩ | ⟨phase, hphase, -⟩
    · simp [hnone]
    · simp [hphase]
  rw [Answered, and_iff_right hone]
  exact forall_congr' (fun hunscanned => by rw [scans_iff h hunscanned])

theorem answered_step (s : Registry) (e : Event) (h : Marked s) (hs : Answered s) : Answered (step s e) ↔ InTime s e := by
  rw [answered_iff h] at hs
  rw [answered_iff (marked_step s e h)]
  cases e with
  | store => exact iff_of_true (fun _ hcallers => absurd hcallers (Nat.succ_ne_zero _)) trivial
  | setState _ _ | remove _ => exact iff_of_true hs trivial
  | swap =>
    simp only [step, InTime]
    rcases h.handlers with ⟨hnone, hfree⟩ | ⟨phase, hphase, hheld⟩
    · refine iff_of_true ?_ (by simp [hnone])
      split
      · exact hs
      · simp [hfree]
    · split
      · rename_i hnobody
        exact iff_of_true hs (fun hlast => absurd hlast (by simp [hnobody]))
      · have hlast : s.callers - 1 = 0 ↔ s.callers = 1 := by omega
        simp only [hphase, hlast, List.mem_singleton, exists_eq_left, @eq_comm _ Phase.release]
        exact ⟨fun h hlast hunscanned => h hunscanned hlast, fun h hunscanned hlast => h hlast hunscanned⟩
  | handle i =>
    refine iff_of_true ?_ trivial
    obtain heq | ⟨phase, hphase, heq⟩ := h.handle_cases
    · rwa [heq]
    · have hflag := h.flag
      cases phase <;> simp_all [handleReestablish]

/-- Throughout a run every call is followed by a scan exactly when the callers
swap in time. -/
theorem answered_iff_inTime (events : List Event) :
    (∀ n, Answered ((events.take n).foldl step {})) ↔ Meets InTime step {} events := by
  have hmarked : Marked {} := ⟨.inl ⟨rfl, rfl⟩, fun h => absurd h (by decide)⟩
  have hanswered : Answered {} := ⟨Nat.zero_le 1, fun h => absurd h (by decide)⟩
  exact forall_states_iff_meets Marked Answered marked_step answered_step hmarked hanswered events

/-- The handler has found nothing to do when a terminator is established. The
second call then stores the flag and fails to swap the marker. -/
def calledAgain : List Event :=
  [.store, .swap, .handle 0, .handle 0, .handle 0, .setState "t" .established, .store, .swap, .handle 0]

theorem second_call_lost : (calledAgain.foldl step {}).terminators.lookup "t" = some .established ∧
    ¬ Answered (calledAgain.foldl step {}) :=
  ⟨rfl, fun h => not_scans_of_none rfl rfl (h.2 rfl rfl)⟩

end Zt.Reestablishing
