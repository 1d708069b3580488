import Zt.Runs

namespace Zt.Replicas

open Runs

variable {E S C : Type}

/-- A failed command leaves the state as it was. -/
def next (apply : E → S → C → Option S) (e : E) (s : S) (c : C) : S := (apply e s c).getD s

/-- The outcome does not depend on what a replica reads of its surroundings. -/
def Uniform (apply : E → S → C → Option S) (s : S) (c : C) : Prop := ∀ e e', apply e s c = apply e' s c

/-- Two replicas apply the same commands, each with its own readings, and after
each both failed or both succeeded and are in the same state. -/
def Agree (apply : E → S → C → Option S) : S → S → List (C × E × E) → Prop
  | _, _, [] => True
  | s, t, (c, e, e') :: ops =>
    ((apply e s c).isSome = (apply e' t c).isSome ∧ next apply e s c = next apply e' t c) ∧
      Agree apply (next apply e s c) (next apply e' t c) ops

variable {apply : E → S → C → Option S}

theorem eq_of_isSome_of_getD {s : S} {x y : Option S} (h : x.isSome = y.isSome) (hd : x.getD s = y.getD s) : x = y := by
  cases x with
  | none => cases y with
    | none => rfl
    | some b => cases h
  | some a => cases y with
    | none => cases h
    | some b => exact congrArg some hd

/-- Replicas agree whatever they read exactly if each command is uniform in the
state it comes in, followed with any one reading. -/
theorem agree_iff_meets (e₀ : E) (s : S) (cs : List C) :
    (∀ ops, ops.map Prod.fst = cs → Agree apply s s ops) ↔
      Meets (Uniform apply) (next apply e₀) s cs := by
  induction cs generalizing s with
  | nil =>
    refine iff_of_true (fun ops h => ?_) trivial
    rw [List.map_eq_nil_iff.mp h]
    trivial
  | cons c cs ih =>
    constructor
    · intro h
      have hrest : ∀ ops, ops.map Prod.fst = cs → ∀ e e',
          Agree apply s s ((c, e, e') :: ops) :=
        fun ops hops e e' => h _ (by rw [List.map_cons, hops])
      have hsame : (cs.map (fun c => (c, e₀, e₀))).map Prod.fst = cs := by simp [Function.comp_def]
      refine ⟨fun e e' => ?_, (ih _).mp (fun ops hops => (hrest ops hops e₀ e₀).2)⟩
      exact eq_of_isSome_of_getD (hrest _ hsame e e').1.1 (hrest _ hsame e e').1.2
    · rintro ⟨huniform, hrest⟩ ops hops
      cases ops with
      | nil => cases hops
      | cons op ops =>
        obtain ⟨c', e, e'⟩ := op
        rw [List.map_cons, List.cons.injEq] at hops
        obtain ⟨rfl, hops⟩ := hops
        have hnext : ∀ e, next apply e s c' = next apply e₀ s c' := fun e => by
          rw [next, next, huniform e e₀]
        refine ⟨⟨by rw [huniform e e'], by rw [hnext e, hnext e']⟩, ?_⟩
        rw [hnext e, hnext e']
        exact (ih _).mpr hrest ops hops

end Zt.Replicas
