import Mathlib.Data.List.Perm.Basic

namespace Zt.TaskPools

variable {S T O : Type}

/-- Tasks that work on a shared state, each with what is left of it to do. -/
structure Pool (S T : Type) where
  shared : S
  tasks : List T := []

/-- The first step of an operation, and the next step of a task beside others. -/
structure Machine (S T O : Type) where
  begins : S → O → Option (S × T)
  advances : List T → S → T → Option (S × T)

/-- The interleavings of the steps of allowed operations. -/
inductive Run (m : Machine S T O) (allowed : Pool S T → O → Prop) (init : S → Prop) : Pool S T → Prop
  | init {s : S} (hinit : init s) : Run m allowed init ⟨s, []⟩
  | begins {p : Pool S T} {o : O} {s : S} {t : T} (hrun : Run m allowed init p) (hallowed : allowed p o)
      (hbegins : m.begins p.shared o = some (s, t)) : Run m allowed init ⟨s, t :: p.tasks⟩
  | advances {p : Pool S T} {others : List T} {s : S} {t t' : T} (hrun : Run m allowed init p)
      (hpick : p.tasks.Perm (t :: others)) (hadvances : m.advances others p.shared t = some (s, t')) :
      Run m allowed init ⟨s, t' :: others⟩

variable {m : Machine S T O} {allowed : Pool S T → O → Prop} {init : S → Prop} {mayBegin : Pool S T → O → Bool}

/-- An invariant that does not look at the order of the tasks holds in every
run if it holds at first and every step keeps it. -/
theorem Run.invariant {I : S → List T → Prop} (hperm : ∀ s ts ts', ts.Perm ts' → I s ts → I s ts')
    (hinit : ∀ s, init s → I s [])
    (hbegins : ∀ s ts o s' t, I s ts → allowed ⟨s, ts⟩ o → m.begins s o = some (s', t) → I s' (t :: ts))
    (hadvances : ∀ s t others s' t', I s (t :: others) → m.advances others s t = some (s', t') →
      I s' (t' :: others)) {p : Pool S T} (hrun : Run m allowed init p) : I p.shared p.tasks := by
  induction hrun with
  | init h => exact hinit _ h
  | begins _ hallowed hb ih => exact hbegins _ _ _ _ _ ih hallowed hb
  | advances _ hpick ha ih => exact hadvances _ _ _ _ _ (hperm _ _ _ hpick ih) ha

inductive Move (O : Type)
  | begins (o : O)
  | advances (i : Nat)

/-- One move of a schedule. An operation begins only where it may. -/
def Machine.play (m : Machine S T O) (mayBegin : Pool S T → O → Bool) (p : Pool S T) : Move O → Option (Pool S T)
  | .begins o =>
    if mayBegin p o then (m.begins p.shared o).map (fun next => ⟨next.1, next.2 :: p.tasks⟩) else none
  | .advances i =>
    (p.tasks[i]?).bind (fun t => (m.advances (p.tasks.eraseIdx i) p.shared t).map
      (fun next => ⟨next.1, next.2 :: p.tasks.eraseIdx i⟩))

theorem Run.play (hmay : ∀ p o, mayBegin p o = true → allowed p o) {p p' : Pool S T}
    {move : Move O} (hrun : Run m allowed init p) (h : m.play mayBegin p move = some p') : Run m allowed init p' := by
  cases move with
  | begins o =>
    simp only [Machine.play] at h
    split at h
    · rename_i hbegin
      obtain ⟨⟨s, t⟩, hstep, rfl⟩ := Option.map_eq_some_iff.mp h
      exact .begins hrun (hmay p o hbegin) hstep
    · cases h
  | advances i =>
    obtain ⟨t, ht, h⟩ := Option.bind_eq_some_iff.mp h
    obtain ⟨⟨s, t'⟩, hstep, rfl⟩ := Option.map_eq_some_iff.mp h
    obtain ⟨hi, hget⟩ := getElem?_eq_some_iff.mp ht
    have hperm : p.tasks.Perm (t :: p.tasks.eraseIdx i) := hget ▸ (List.getElem_cons_eraseIdx_perm hi).symm
    exact .advances hrun hperm hstep

def Machine.playAll (m : Machine S T O) (mayBegin : Pool S T → O → Bool) (p : Pool S T) (moves : List (Move O)) :
    Option (Pool S T) :=
  moves.foldlM (m.play mayBegin) p

theorem Run.playAll (hmay : ∀ p o, mayBegin p o = true → allowed p o)
    {moves : List (Move O)} {p p' : Pool S T} (hrun : Run m allowed init p)
    (h : m.playAll mayBegin p moves = some p') : Run m allowed init p' := by
  induction moves generalizing p with
  | nil =>
    cases h
    exact hrun
  | cons move moves ih =>
    obtain ⟨next, hmove, hrest⟩ := Option.bind_eq_some_iff.mp h
    exact ih (hrun.play hmay hmove) hrest

end Zt.TaskPools
