import Mathlib.Data.List.Count
import Zt.Tables

namespace Zt.LinkCounts

open Tables

variable {K : Type} [DecidableEq K]

/-- The counted links of one entity. A key whose count has gone back to zero
has no entry, so the keys are the entities it is still linked to. -/
structure RefCounts (K : Type) [DecidableEq K] where
  table : Table K Nat
  pos : ∀ k n, table.lookup k = some n → 0 < n

namespace RefCounts

def empty : RefCounts K where
  table := ∅
  pos := fun k n h => by simp at h

variable (r : RefCounts K)

def count (k : K) : Nat := (r.table.lookup k).getD 0

def keys : List K := r.table.keys

def increment (k : K) : RefCounts K where
  table := r.table.insert k (r.count k + 1)
  pos := forall_insert r.pos (Nat.succ_pos _)

def remove (k : K) : RefCounts K where
  table := r.table.erase k
  pos := forall_erase r.pos

def decrement (k : K) : RefCounts K :=
  if h : 1 < r.count k then
    { table := r.table.insert k (r.count k - 1)
      pos := forall_insert r.pos (Nat.sub_pos_of_lt h) }
  else r.remove k

@[simp]
theorem count_empty {k : K} : empty.count k = 0 := rfl

theorem count_increment {k j : K} : (r.increment k).count j = r.count j + if j = k then 1 else 0 := by
  simp only [count, increment, lookup_insert_eq]
  split
  · subst j; rfl
  · rfl

theorem count_remove {k j : K} : (r.remove k).count j = if j = k then 0 else r.count j := by
  simp only [count, remove, lookup_erase_eq]
  split <;> rfl

theorem count_decrement {k j : K} : (r.decrement k).count j = r.count j - if j = k then 1 else 0 := by
  unfold decrement
  split
  · simp only [count, lookup_insert_eq]
    split
    · subst j; rfl
    · rfl
  · rw [count_remove]
    split
    · subst j; omega
    · rfl

theorem mem_keys (k : K) : k ∈ r.keys ↔ 0 < r.count k := by
  rw [keys, ← AList.mem_keys, mem_iff_lookup, count]
  cases h : r.table.lookup k with
  | none => simp
  | some n => simpa using r.pos k n h

end RefCounts

/-- Changing a test at one element of a list without repetitions moves the
number of elements that pass it by that element's share. -/
theorem countP_change {ps : List K} (hn : ps.Nodup) {p : K} (hp : p ∈ ps) {f g : K → Bool}
    (hother : ∀ q ∈ ps, q ≠ p → g q = f q) :
    ps.countP g + (if f p then 1 else 0) = ps.countP f + (if g p then 1 else 0) := by
  have hperm := List.perm_cons_erase hp
  have hrest : (ps.erase p).countP g = (ps.erase p).countP f := by
    apply List.countP_congr
    intro q hq
    have hq' := (List.Nodup.mem_erase_iff hn).mp hq
    rw [hother q hq'.2 hq'.1]
  rw [hperm.countP_eq, hperm.countP_eq, List.countP_cons, List.countP_cons]
  omega

end Zt.LinkCounts
