import Mathlib.Data.List.Basic

namespace Zt.Trials

variable {S C E A : Type}

/-- A test that returns says what is wrong, if anything, and leaves a state. -/
abbrev Test (S C E : Type) := C → S → Option (Option E × S)

def Passes (test : Test S C E) (s : S) (c : C) : Prop := ∃ s', test c s = some (none, s')

def Answers (test : Test S C E) (s : S) (c : C) : Prop := ∃ e s', test c s = some (e, s')

def runAll (test : Test S C E) : List C → S → Option (List E × S)
  | [], s => some ([], s)
  | c :: cs, s => do
    let (e, s) ← test c s
    let (es, s) ← runAll test cs s
    pure (e.toList ++ es, s)

/-- The first alternative none of whose tests finds anything wrong, or what was
wrong with each of them. -/
def firstPassing (test : Test S C E) (tests : A → List C) : List A → S → Option (Except (List (A × List E)) A × S)
  | [], s => some (.error [], s)
  | a :: as, s => do
    let (es, s) ← runAll test (tests a) s
    if es.isEmpty then pure (.ok a, s)
    else
      let (r, s) ← firstPassing test tests as s
      pure (r.mapError ((a, es) :: ·), s)

/-- Tests that change the state in one way only, after which they answer as
before and change nothing. A test that finds nothing wrong has changed nothing. -/
structure Settling (test : Test S C E) (fill : S → S) : Prop where
  fill_fill : ∀ s, fill (fill s) = fill s
  moves : ∀ {c s e s'}, test c s = some (e, s') → s' = s ∨ s' = fill s
  again : ∀ {c s e s'}, test c s = some (e, s') → ∃ e', test c (fill s) = some (e', fill s) ∧ (e' = none ↔ e = none)
  passed : ∀ {c s s'}, test c s = some (none, s') → s' = s

/-- The test changes the state. -/
def Moves (test : Test S C E) (fill : S → S) (s : S) (c : C) : Prop :=
  fill s ≠ s ∧ ∃ e, test c s = some (e, fill s)

variable {test : Test S C E} {fill : S → S} {tests : A → List C} {s s' : S} {c : C} {cs : List C} {es : List E}
  {a : A} {as : List A}

theorem runAll_cons : runAll test (c :: cs) s = some (es, s') ↔ ∃ e s₁ es', test c s = some (e, s₁) ∧
    runAll test cs s₁ = some (es', s') ∧ es = e.toList ++ es' := by
  cases ht : test c s with
  | none => simp [runAll, ht]
  | some r =>
    obtain ⟨e, s₁⟩ := r
    cases hr : runAll test cs s₁ with
    | none => simp [runAll, ht, hr]
    | some r' =>
      obtain ⟨es', s₂⟩ := r'
      simp only [runAll, ht, hr, Option.bind_eq_bind, Option.bind_some, Option.pure_def, Option.some.injEq,
        Prod.mk.injEq]
      constructor
      · rintro ⟨rfl, rfl⟩
        exact ⟨e, s₁, es', ⟨rfl, rfl⟩, hr, rfl⟩
      · rintro ⟨_, _, _, ⟨rfl, rfl⟩, hrest, rfl⟩
        rw [hr] at hrest
        cases hrest
        exact ⟨rfl, rfl⟩

namespace Settling

section

variable (h : Settling test fill)
include h

theorem answers_fill (ha : Answers test s c) : Answers test (fill s) c := by
  obtain ⟨e, s', ht⟩ := ha
  obtain ⟨e', ht', -⟩ := h.again ht
  exact ⟨e', fill s, ht'⟩

theorem passes_fill (hp : Passes test s c) : Passes test (fill s) c := by
  obtain ⟨s', ht⟩ := hp
  obtain ⟨e', ht', hnone⟩ := h.again ht
  exact ⟨fill s, by rw [ht', hnone.mpr rfl]⟩

theorem runAll_passes (hr : runAll test cs s = some ([], s')) : s' = s ∧ ∀ c ∈ cs, Passes test s c := by
  induction cs with
  | nil =>
    cases hr
    exact ⟨rfl, fun _ hc => absurd hc List.not_mem_nil⟩
  | cons c cs ih =>
    obtain ⟨e, s₁, es', ht, hrest, hes⟩ := runAll_cons.mp hr
    obtain ⟨he, rfl⟩ := List.append_eq_nil_iff.mp hes.symm
    cases e with
    | some e => cases he
    | none =>
      have hs := h.passed ht
      subst hs
      obtain ⟨hs', hpass⟩ := ih hrest
      refine ⟨hs', List.forall_mem_cons.mpr ⟨⟨s₁, ht⟩, hpass⟩⟩

theorem runAll_of_passes (hp : ∀ c ∈ cs, Passes test s c) : runAll test cs s = some ([], s) := by
  induction cs with
  | nil => rfl
  | cons c cs ih =>
    obtain ⟨⟨s₁, ht⟩, hrest⟩ := List.forall_mem_cons.mp hp
    have hs := h.passed ht
    subst hs
    exact runAll_cons.mpr ⟨none, s₁, [], ht, ih hrest, rfl⟩

theorem runAll_moves (hr : runAll test cs s = some (es, s')) :
    s' = s ∨ (s' = fill s ∧ ∃ c ∈ cs, Moves test fill s c) := by
  induction cs generalizing s es with
  | nil =>
    cases hr
    exact .inl rfl
  | cons c cs ih =>
    obtain ⟨e, s₁, es', ht, hrest, -⟩ := runAll_cons.mp hr
    by_cases hs : s₁ = s
    · subst hs
      rcases ih hrest with hs' | ⟨hs', c', hc', hmoves⟩
      · exact .inl hs'
      · exact .inr ⟨hs', c', List.mem_cons_of_mem _ hc', hmoves⟩
    · have hfill := (h.moves ht).resolve_left hs
      subst hfill
      refine .inr ⟨?_, c, List.mem_cons_self, hs, e, ht⟩
      rcases ih hrest with hs' | ⟨hs', -⟩
      · exact hs'
      · rw [hs', h.fill_fill]

theorem runAll_answers (hr : runAll test cs s = some (es, s')) : ∀ c ∈ cs, Answers test (fill s) c := by
  induction cs generalizing s es with
  | nil => exact fun _ hc => absurd hc List.not_mem_nil
  | cons c cs ih =>
    obtain ⟨e, s₁, es', ht, hrest, -⟩ := runAll_cons.mp hr
    refine List.forall_mem_cons.mpr ⟨h.answers_fill ⟨e, s₁, ht⟩, ?_⟩
    rcases h.moves ht with hs | hs
    · subst hs
      exact ih hrest
    · subst hs
      have hans := ih hrest
      rwa [h.fill_fill] at hans

theorem runAll_returns (ha : ∀ c ∈ cs, Answers test s c) : ∃ es s', runAll test cs s = some (es, s') := by
  induction cs generalizing s with
  | nil => exact ⟨[], s, rfl⟩
  | cons c cs ih =>
    obtain ⟨⟨e, s₁, ht⟩, hrest⟩ := List.forall_mem_cons.mp ha
    have hrest' : ∀ c' ∈ cs, Answers test s₁ c' := by
      intro c' hc'
      rcases h.moves ht with hs | hs
      · rw [hs]
        exact hrest c' hc'
      · rw [hs]
        exact h.answers_fill (hrest c' hc')
    obtain ⟨es, s₂, hr⟩ := ih hrest'
    exact ⟨e.toList ++ es, s₂, runAll_cons.mpr ⟨e, s₁, es, ht, hr, rfl⟩⟩

end

end Settling

theorem firstPassing_ok (hr : runAll test (tests a) s = some ([], s')) :
    firstPassing test tests (a :: as) s = some (.ok a, s') := by
  simp [firstPassing, hr]

theorem firstPassing_next {e : E} (hr : runAll test (tests a) s = some (e :: es, s')) :
    firstPassing test tests (a :: as) s =
      (firstPassing test tests as s').map (fun r => (r.1.mapError ((a, e :: es) :: ·), r.2)) := by
  simp only [firstPassing, hr, Option.bind_eq_bind, Option.bind_some]
  cases firstPassing test tests as s' <;> rfl

theorem mapError_eq_ok {X : Type} {f : X → X} {r : Except X A} (h : r.mapError f = .ok a) : r = .ok a := by
  cases r with
  | ok b =>
    cases h
    rfl
  | error x => cases h

namespace Settling

section

variable (h : Settling test fill)
include h

/-- What is found passes, on the state itself or on the one that some other
alternative has left. -/
theorem firstPassing_sound (hn : as.Nodup) (hr : firstPassing test tests as s = some (.ok a, s')) :
    a ∈ as ∧ ((∀ c ∈ tests a, Passes test s c) ∨ ((∀ c ∈ tests a, Passes test (fill s) c) ∧
      ∃ b ∈ as, b ≠ a ∧ (∀ c ∈ tests b, Answers test (fill s) c) ∧ ∃ c ∈ tests b, Moves test fill s c)) := by
  induction as generalizing s with
  | nil => cases hr
  | cons x xs ih =>
    obtain ⟨hx, hn'⟩ := List.nodup_cons.mp hn
    cases hrun : runAll test (tests x) s with
    | none => simp [firstPassing, hrun] at hr
    | some r =>
      obtain ⟨es, s₁⟩ := r
      cases es with
      | nil =>
        rw [firstPassing_ok hrun] at hr
        cases hr
        exact ⟨List.mem_cons_self, .inl (h.runAll_passes hrun).2⟩
      | cons e es =>
        rw [firstPassing_next hrun] at hr
        obtain ⟨⟨r, s₂⟩, hnext, heq⟩ := Option.map_eq_some_iff.mp hr
        obtain ⟨hok, rfl⟩ := Prod.mk.inj heq
        have hfound : r = .ok a := mapError_eq_ok hok
        subst hfound
        obtain ⟨hmem, hcase⟩ := ih hn' hnext
        have hne : x ≠ a := fun heq => hx (heq ▸ hmem)
        refine ⟨List.mem_cons_of_mem _ hmem, ?_⟩
        rcases h.runAll_moves hrun with hs | ⟨hs, hmoves⟩
        · subst hs
          rcases hcase with hpass | ⟨hpass, b, hb, hrest⟩
          · exact .inl hpass
          · exact .inr ⟨hpass, b, List.mem_cons_of_mem _ hb, hrest⟩
        · subst hs
          rw [h.fill_fill] at hcase
          refine .inr ⟨?_, x, List.mem_cons_self, hne, h.runAll_answers hrun, hmoves⟩
          rcases hcase with hpass | ⟨hpass, -⟩
          · exact hpass
          · exact hpass

/-- If all tests answer and one alternative passes, one is found. -/
theorem firstPassing_complete (ha : ∀ a ∈ as, ∀ c ∈ tests a, Answers test s c)
    (hp : ∃ a ∈ as, ∀ c ∈ tests a, Passes test s c) : ∃ a s', firstPassing test tests as s = some (.ok a, s') := by
  induction as generalizing s with
  | nil =>
    obtain ⟨a, hmem, -⟩ := hp
    exact absurd hmem List.not_mem_nil
  | cons x xs ih =>
    obtain ⟨hx, hxs⟩ := List.forall_mem_cons.mp ha
    obtain ⟨es, s₁, hrun⟩ := h.runAll_returns hx
    cases es with
    | nil => exact ⟨x, s₁, firstPassing_ok hrun⟩
    | cons e es =>
      obtain ⟨a, hmem, hpass⟩ := hp
      have hmem' : a ∈ xs := by
        rcases List.mem_cons.mp hmem with rfl | hmem'
        · rw [h.runAll_of_passes hpass] at hrun
          cases hrun
        · exact hmem'
      have hnext : ∃ a s', firstPassing test tests xs s₁ = some (.ok a, s') := by
        rcases h.runAll_moves hrun with hs | ⟨hs, -⟩
        · subst hs
          exact ih hxs ⟨a, hmem', hpass⟩
        · subst hs
          exact ih (fun b hb c hc => h.answers_fill (hxs b hb c hc))
            ⟨a, hmem', fun c hc => h.passes_fill (hpass c hc)⟩
      obtain ⟨b, s₂, hfound⟩ := hnext
      exact ⟨b, s₂, by rw [firstPassing_next hrun, hfound]; rfl⟩

theorem firstPassing_head (hp : ∀ c ∈ tests a, Passes test s c) :
    firstPassing test tests (a :: as) s = some (.ok a, s) :=
  firstPassing_ok (h.runAll_of_passes hp)

/-- A test that changes the state makes what follows it pass on the changed one. -/
theorem firstPassing_moved {b : A} (hb : tests b = c :: cs) (hm : Moves test fill s c)
    (ha : ∀ c ∈ cs, Answers test (fill s) c) (hp : ∀ c ∈ tests a, Passes test (fill s) c) :
    firstPassing test tests (b :: a :: as) s = some (.ok a, fill s) := by
  obtain ⟨hne, e, ht⟩ := hm
  obtain ⟨es, s₁, hrest⟩ := h.runAll_returns ha
  have hs₁ : s₁ = fill s := by
    rcases h.runAll_moves hrest with hs | ⟨hs, -⟩
    · exact hs
    · rw [hs, h.fill_fill]
  subst hs₁
  cases e with
  | none => exact absurd (h.passed ht) hne
  | some e =>
    have hrun : runAll test (tests b) s = some (e :: es, fill s) := by
      rw [hb]
      exact runAll_cons.mpr ⟨some e, fill s, es, ht, hrest, rfl⟩
    rw [firstPassing_next hrun, h.firstPassing_head hp]
    rfl

end

end Settling

theorem firstPassing_stuck (ha : tests a = c :: cs) (hc : ¬ Answers test s c) :
    firstPassing test tests (a :: as) s = none := by
  cases ht : test c s with
  | none => simp [firstPassing, ha, runAll, ht]
  | some r => exact absurd ⟨r.1, r.2, ht⟩ hc

end Zt.Trials
