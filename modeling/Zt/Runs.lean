import Mathlib.Data.List.Basic

namespace Zt.Runs

variable {S A : Type}

/-- Every operation of a run meets a condition on the state it is taken in. -/
def Meets (cond : S → A → Prop) (step : S → A → S) : S → List A → Prop
  | _, [] => True
  | s, a :: as => cond s a ∧ Meets cond step (step s a) as

variable {cond cond' : S → A → Prop} {step : S → A → S} {s : S} {as : List A}

theorem Meets.and (h : Meets cond step s as) (h' : Meets cond' step s as) :
    Meets (fun s a => cond s a ∧ cond' s a) step s as := by
  induction as generalizing s with
  | nil => trivial
  | cons a as ih => exact ⟨⟨h.1, h'.1⟩, ih h.2 h'.2⟩

/-- What holds at the start of a run and is kept by each of its steps holds in
the state it ends in. The prefixes of a run are runs, so it holds throughout. -/
theorem Meets.invariant (inv : S → Prop) (hstep : ∀ s a, inv s → cond s a → inv (step s a)) (h : Meets cond step s as)
    (hs : inv s) : inv (as.foldl step s) := by
  induction as generalizing s with
  | nil => exact hs
  | cons a as ih => exact ih h.2 (hstep s a hs h.1)

/-- Beside an invariant one condition on the steps may give another. -/
theorem Meets.imp (inv : S → Prop) (hstep : ∀ s a, inv s → cond s a → inv (step s a) ∧ cond' s a)
    (h : Meets cond step s as) (hs : inv s) : Meets cond' step s as := by
  induction as generalizing s with
  | nil => trivial
  | cons a as ih =>
    obtain ⟨hs', ha⟩ := hstep s a hs h.1
    exact ⟨ha, ih h.2 hs'⟩

theorem Meets.of_forall (h : ∀ s a, cond s a) (step : S → A → S) (s : S) (as : List A) : Meets cond step s as := by
  induction as generalizing s with
  | nil => trivial
  | cons a as ih => exact ⟨h s a, ih _⟩

/-- If a step does well and keeps a property exactly when it meets a condition,
then runs do so throughout exactly when all their steps meet it. -/
theorem Meets.forall_states_and_meets_iff {pre well : S → A → Prop} (inv P : S → Prop)
    (hinv : ∀ s a, inv s → pre s a → inv (step s a))
    (hstep : ∀ s a, inv s → P s → pre s a → (well s a ∧ P (step s a) ↔ cond s a)) (hs : inv s) (hP : P s)
    (hpre : Meets pre step s as) :
    (∀ n, P ((as.take n).foldl step s)) ∧ Meets well step s as ↔ Meets cond step s as := by
  induction as generalizing s with
  | nil => simpa [Meets] using hP
  | cons a as ih =>
    constructor
    · rintro ⟨h, hwell⟩
      have ha : P (step s a) := h 1
      exact ⟨(hstep s a hs hP hpre.1).mp ⟨hwell.1, ha⟩,
        (ih (hinv s a hs hpre.1) ha hpre.2).mp ⟨fun n => h (n + 1), hwell.2⟩⟩
    · rintro ⟨ha, hrest⟩
      obtain ⟨hwell, hP'⟩ := (hstep s a hs hP hpre.1).mpr ha
      obtain ⟨hall, hwells⟩ := (ih (hinv s a hs hpre.1) hP' hpre.2).mpr hrest
      refine ⟨fun n => ?_, hwell, hwells⟩
      cases n with
      | zero => exact hP
      | succ n => exact hall n

theorem forall_states_and_meets_iff {well : S → A → Prop} (inv P : S → Prop) (hinv : ∀ s a, inv s → inv (step s a))
    (hstep : ∀ s a, inv s → P s → (well s a ∧ P (step s a) ↔ cond s a)) (hs : inv s) (hP : P s) (as : List A) :
    (∀ n, P ((as.take n).foldl step s)) ∧ Meets well step s as ↔ Meets cond step s as :=
  (Meets.of_forall (fun _ _ => trivial) step s as).forall_states_and_meets_iff
    inv P (fun s a hs _ => hinv s a hs) (fun s a hs hP _ => hstep s a hs hP) hs hP

theorem forall_states_iff_meets (inv P : S → Prop) (hinv : ∀ s a, inv s → inv (step s a))
    (hstep : ∀ s a, inv s → P s → (P (step s a) ↔ cond s a)) (hs : inv s) (hP : P s) (as : List A) :
    (∀ n, P ((as.take n).foldl step s)) ↔ Meets cond step s as := by
  have hwell : ∀ s a, inv s → P s → (True ∧ P (step s a) ↔ cond s a) :=
    fun s a hs hP => by rw [true_and]; exact hstep s a hs hP
  have h := forall_states_and_meets_iff inv P hinv hwell hs hP as
  rwa [and_iff_left (.of_forall (fun _ _ => trivial) step s as)] at h

/-- Runs whose steps may fail to return. -/
def Admits (cond : S → A → Prop) (step : S → A → Option S) : S → List A → Prop
  | _, [] => True
  | s, a :: as => cond s a ∧ ∀ s', step s a = some s' → Admits cond step s' as

instance decidableAdmits (cond : S → A → Prop) (step : S → A → Option S) [∀ s a, Decidable (cond s a)] :
    ∀ s as, Decidable (Admits cond step s as)
  | _, [] => isTrue trivial
  | s, a :: as =>
    match h : step s a with
    | none => decidable_of_iff (cond s a) ⟨fun hc => ⟨hc, fun s' hs => by rw [h] at hs; cases hs⟩, And.left⟩
    | some s₁ =>
      haveI := decidableAdmits cond step s₁ as
      decidable_of_iff (cond s a ∧ Admits cond step s₁ as)
        ⟨fun hc => ⟨hc.1, fun s' hs => by rw [h] at hs; cases hs; exact hc.2⟩, fun hc => ⟨hc.1, hc.2 s₁ h⟩⟩

theorem Admits.of_forall (h : ∀ s a, cond s a) (step : S → A → Option S) (s : S) (as : List A) :
    Admits cond step s as := by
  induction as generalizing s with
  | nil => trivial
  | cons a as ih => exact ⟨h s a, fun s' _ => ih s'⟩

theorem Admits.and {step : S → A → Option S} (h : Admits cond step s as) (h' : Admits cond' step s as) :
    Admits (fun s a => cond s a ∧ cond' s a) step s as := by
  induction as generalizing s with
  | nil => trivial
  | cons a as ih => exact ⟨⟨h.1, h'.1⟩, fun s' hs => ih (h.2 s' hs) (h'.2 s' hs)⟩

/-- If each step returns and keeps what holds at the start, the run returns and
it holds at the end. -/
theorem Admits.invariant {step : S → A → Option S} (inv : S → Prop)
    (hstep : ∀ s a, inv s → cond s a → ∃ s', step s a = some s' ∧ inv s') (h : Admits cond step s as) (hs : inv s) :
    ∃ s', as.foldlM step s = some s' ∧ inv s' := by
  induction as generalizing s with
  | nil => exact ⟨s, rfl, hs⟩
  | cons a as ih =>
    obtain ⟨s₁, h₁, hinv⟩ := hstep s a hs h.1
    obtain ⟨s₂, h₂, hend⟩ := ih (h.2 s₁ h₁) hinv
    exact ⟨s₂, by simp [h₁, h₂], hend⟩

/-- The same for the runs that return, where a step need not. -/
theorem Admits.keeps {step : S → A → Option S} (inv : S → Prop)
    (hstep : ∀ s a s', inv s → cond s a → step s a = some s' → inv s') {s' : S} (h : Admits cond step s as)
    (hs : inv s) (hrun : as.foldlM step s = some s') : inv s' := by
  induction as generalizing s with
  | nil =>
    cases hrun
    exact hs
  | cons a as ih =>
    rw [List.foldlM_cons] at hrun
    cases hfirst : step s a with
    | none =>
      rw [hfirst] at hrun
      cases hrun
    | some s₁ =>
      rw [hfirst] at hrun
      exact ih (h.2 s₁ hfirst) (hstep s a s₁ hs h.1 hfirst) hrun

end Zt.Runs
