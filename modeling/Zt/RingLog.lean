import Mathlib.Data.List.Basic

namespace Zt.RingLog

variable {α : Type} {log : List α} {head : Nat}

/-- The slots of a ring in age order: the slot after the head is the oldest
one, the head itself is the newest. -/
def unroll (log : List α) (head : Nat) : List α := log.drop (head + 1) ++ log.take (head + 1)

/-- The slots from position i up to the head, going around the end of the
ring when i lies behind the head. -/
def span (log : List α) (head i : Nat) : List α :=
  if i ≤ head then (log.take (head + 1)).drop i else log.drop i ++ log.take (head + 1)

theorem mem_unroll {x : α} : x ∈ unroll log head ↔ x ∈ log := by
  rw [unroll, List.mem_append, or_comm, ← List.mem_append, List.take_append_drop]

theorem unroll_getLast? (h : head < log.length) : (unroll log head).getLast? = log[head]? := by
  rw [unroll, List.getLast?_append, List.getLast?_take]
  simp [List.getElem?_eq_getElem h]

theorem unroll_head? (h : head < log.length) : (unroll log head).head? = log[(head + 1) % log.length]? := by
  by_cases hw : head + 1 < log.length
  · rw [Nat.mod_eq_of_lt hw, unroll]
    simp [List.getElem?_eq_getElem hw]
  · have he : head + 1 = log.length := by omega
    rw [he, Nat.mod_self, unroll, he, List.drop_length, List.take_length, List.nil_append,
      List.head?_eq_getElem?]

/-- Writing behind the head drops the oldest slot and makes the written one
the newest. -/
theorem unroll_write (h : head < log.length) (x : α) :
    unroll (log.set ((head + 1) % log.length) x) ((head + 1) % log.length) = (unroll log head).tail ++ [x] := by
  by_cases hw : head + 1 < log.length
  · rw [Nat.mod_eq_of_lt hw]
    have hd : log.drop (head + 1) ≠ [] := by simp; omega
    have ht : (log.set (head + 1) x).take (head + 1 + 1) = log.take (head + 1) ++ [x] := by
      rw [List.take_add_one, List.take_set_of_le (Nat.le_refl _)]
      simp [hw]
    rw [unroll, unroll, List.drop_set_of_lt (by omega), ht, List.tail_append_of_ne_nil hd,
      List.tail_drop, List.append_assoc]
  · have he : head + 1 = log.length := by omega
    rw [unroll, unroll, he]
    cases log with
    | nil => simp at h
    | cons y ys => simp

theorem span_suffix {head i : Nat} (hi : i < log.length) : span log head i <:+ unroll log head := by
  unfold span unroll
  split
  · exact (List.drop_suffix _ _).trans (List.suffix_append _ _)
  · have hd : log.drop i = (log.drop (head + 1)).drop (i - (head + 1)) := by
      rw [List.drop_drop]; congr 1; omega
    rw [hd, ← List.drop_append_of_le_length (by simp; omega)]
    exact List.drop_suffix _ _

theorem span_head? {head i : Nat} (hi : i < log.length) : (span log head i).head? = log[i]? := by
  unfold span
  split
  · rw [List.head?_drop, List.getElem?_take_of_lt (by omega)]
  · simp [List.getElem?_eq_getElem hi]

/-- A suffix is fixed by its first element when that element occurs once. -/
theorem suffix_unique {pre post s : List α} {x : α} (hpre : x ∉ pre) (hpost : x ∉ post)
    (hs : s <:+ pre ++ x :: post) (hx : s.head? = some x) : s = x :: post := by
  obtain ⟨t, ht⟩ := hs
  cases s with
  | nil => simp at hx
  | cons y ys =>
    simp only [List.head?_cons, Option.some.injEq] at hx
    subst hx
    rcases List.append_eq_append_iff.mp ht with ⟨a, ha, hb⟩ | ⟨c, -, hd⟩
    · cases a with
      | nil => simpa using hb
      | cons b bs =>
        simp only [List.cons_append, List.cons.injEq] at hb
        exact absurd (by simp [ha, hb.1]) hpre
    · cases c with
      | nil => simpa using hd.symm
      | cons b bs =>
        simp only [List.cons_append, List.cons.injEq] at hd
        exact absurd (by simp [hd.2]) hpost

end Zt.RingLog
