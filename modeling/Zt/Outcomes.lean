import Mathlib.Data.List.Basic

namespace Zt.Outcomes

variable {E A B : Type} {x : Except E A} {f : A → Except E B}

theorem bind_ok {b : B} (h : x >>= f = .ok b) : ∃ a, x = .ok a ∧ f a = .ok b := by
  cases x with
  | error err => cases h
  | ok a => exact ⟨a, rfl, h⟩

theorem bind_error {err : E} : x >>= f = .error err ↔ x = .error err ∨ ∃ a, x = .ok a ∧ f a = .error err := by
  cases x with
  | error err' => exact ⟨fun h => .inl (by cases h; rfl),
      fun h => h.elim (fun h => by cases h; rfl) (fun ⟨_, h, _⟩ => by cases h)⟩
  | ok a => exact ⟨fun h => .inr ⟨a, rfl, h⟩,
      fun h => h.elim (fun h => by cases h) (fun ⟨_, ha, h⟩ => by cases ha; exact h)⟩

theorem elim_ok {o : Option A} {err : E} {a : A} (h : o.elim (.error err) .ok = Except.ok a) : o = some a := by
  cases o with
  | none => cases h
  | some a' =>
    cases h
    rfl

end Zt.Outcomes
