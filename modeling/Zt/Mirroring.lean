import Mathlib.Data.List.Sort
import Zt.Tables

namespace Zt.Mirroring

open Tables

variable {K V W : Type} [DecidableEq K]

/-- Two tables with the same keys and related values. -/
def Mirrors (R : K → V → W → Prop) (t : Table K V) (m : Table K W) : Prop :=
  ∀ k, Option.Rel (R k) (t.lookup k) (m.lookup k)

def KeyedBy (key : V → K) (t : Table K V) : Prop := ∀ k v, t.lookup k = some v → key v = k

inductive Change (K V : Type)
  | create (v : V)
  | update (v : V)
  | delete (k : K)

def Change.isDelete : Change K V → Bool
  | .delete _ => true
  | _ => false

/-- The new table and the entity that was written or deleted, if the table lets
the change happen. -/
def Change.apply (key : V → K) (t : Table K V) : Change K V → Option (Table K V × V)
  | .create v => if key v ∈ t then none else some (t.insert (key v) v, v)
  | .update v => if key v ∈ t then some (t.insert (key v) v, v) else none
  | .delete k => (t.lookup k).map (fun v => (t.erase k, v))

/-- The values in the order of their keys. -/
def rows [LinearOrder K] (t : Table K V) : List V := (t.keys.insertionSort (· ≤ ·)).filterMap t.lookup

section Relations

variable {R R' : K → V → W → Prop} {t t' : Table K V} {m m' : Table K W} {k : K} {v : V}

theorem Mirrors.empty : Mirrors R ∅ ∅ := fun _ => by
  exact Option.Rel.none

section

variable (h : Mirrors R t m)
include h

theorem Mirrors.set {w : W} (hk : R k v w) : Mirrors R (t.insert k v) (m.insert k w) := by
  intro j
  simp only [lookup_insert_eq]
  split
  · rename_i hj
    subst hj
    exact Option.Rel.some hk
  · exact h j

theorem Mirrors.remove (k : K) : Mirrors R (t.erase k) (m.erase k) := by
  intro j
  simp only [lookup_erase_eq]
  split
  · exact Option.Rel.none
  · exact h j

/-- Entries may be changed on both sides, and the relation with them. -/
theorem Mirrors.map {f : V → V} {g : W → W} (ht : ∀ k, t'.lookup k = (t.lookup k).map f)
    (hm : ∀ k, m'.lookup k = (m.lookup k).map g) (hR : ∀ k v w, t.lookup k = some v → R k v w → R' k (f v) (g w)) :
    Mirrors R' t' m' := by
  intro k
  have hk := h k
  rw [ht, hm]
  cases hv : t.lookup k with
  | none =>
    rw [hv] at hk
    cases hw : m.lookup k with
    | none => exact Option.Rel.none
    | some w => rw [hw] at hk; cases hk
  | some v =>
    rw [hv] at hk
    cases hw : m.lookup k with
    | none => rw [hw] at hk; cases hk
    | some w =>
      rw [hw] at hk
      obtain ⟨hvw⟩ := hk
      exact Option.Rel.some (hR k v w hv hvw)

theorem Mirrors.weaken (hR : ∀ k v w, t.lookup k = some v → R k v w → R' k v w) : Mirrors R' t m :=
  h.map (fun k => (congrFun Option.map_id (t.lookup k)).symm) (fun k => (congrFun Option.map_id (m.lookup k)).symm) hR

theorem Mirrors.congr (ht : ∀ k, t'.lookup k = t.lookup k) : Mirrors R t' m := by
  intro k
  rw [ht]
  exact h k

theorem Mirrors.lookup (hv : t.lookup k = some v) : ∃ w, m.lookup k = some w ∧ R k v w := by
  have hk := h k
  rw [hv] at hk
  cases hw : m.lookup k with
  | none => rw [hw] at hk; cases hk
  | some w =>
    rw [hw] at hk
    obtain ⟨hvw⟩ := hk
    exact ⟨w, rfl, hvw⟩

theorem Mirrors.lookup_none (hv : t.lookup k = none) : m.lookup k = none := by
  have hk := h k
  rw [hv] at hk
  cases hw : m.lookup k with
  | none => rfl
  | some w => rw [hw] at hk; cases hk

theorem Mirrors.set_left {w : W} (hw : m.lookup k = some w) (hk : R k v w) : Mirrors R (t.insert k v) m := by
  intro j
  rw [lookup_insert_eq]
  split
  · rename_i hj
    subst hj
    rw [hw]
    exact Option.Rel.some hk
  · exact h j

/-- Two mirrors of one table agree as far as the relation determines a value. -/
theorem Mirrors.agree {S : W → W → Prop} (h' : Mirrors R t m')
    (hS : ∀ k v w w', R k v w → R k v w' → S w w') (k : K) : Option.Rel S (m.lookup k) (m'.lookup k) := by
  cases hv : t.lookup k with
  | none =>
    rw [h.lookup_none hv, h'.lookup_none hv]
    exact Option.Rel.none
  | some v =>
    obtain ⟨w, hw, hvw⟩ := h.lookup hv
    obtain ⟨w', hw', hvw'⟩ := h'.lookup hv
    rw [hw, hw']
    exact Option.Rel.some (hS k v w w' hvw hvw')

end

end Relations

theorem rel_eq {o o' : Option W} (h : Option.Rel (· = ·) o o') : o = o' := by
  cases h with
  | some h => rw [h]
  | none => rfl

section Changes

variable {key : V → K} {t t' : Table K V} {v : V} {c : Change K V}

theorem KeyedBy.insert (h : KeyedBy key t) (v : V) : KeyedBy key (t.insert (key v) v) := by
  exact forall_insert h rfl

theorem KeyedBy.erase (h : KeyedBy key t) (k : K) : KeyedBy key (t.erase k) := by
  exact forall_erase h

/-- What a change that happened did: it put the entity under its key, or took it
from there. -/
theorem apply_cases (h : KeyedBy key t) (hc : c.apply key t = some (t', v)) :
    ((c = .create v ∨ c = .update v) ∧ t' = t.insert (key v) v) ∨
      (c = .delete (key v) ∧ t.lookup (key v) = some v ∧ t' = t.erase (key v)) := by
  cases c with
  | create w =>
    simp only [Change.apply] at hc
    split at hc
    · cases hc
    · cases hc
      exact .inl ⟨.inl rfl, rfl⟩
  | update w =>
    simp only [Change.apply] at hc
    split at hc
    · cases hc
      exact .inl ⟨.inr rfl, rfl⟩
    · cases hc
  | delete k =>
    obtain ⟨w, hw, heq⟩ := Option.map_eq_some_iff.mp hc
    cases heq
    cases h k v hw
    exact .inr ⟨rfl, hw, rfl⟩

omit [DecidableEq K] in
theorem isDelete_of_written (h : c = .create v ∨ c = .update v) : c.isDelete = false := by
  rcases h with rfl | rfl <;> rfl

theorem KeyedBy.apply (h : KeyedBy key t) (hc : c.apply key t = some (t', v)) : KeyedBy key t' := by
  rcases apply_cases h hc with ⟨-, rfl⟩ | ⟨-, -, rfl⟩
  · exact h.insert v
  · exact h.erase (key v)

end Changes

section Rows

variable [LinearOrder K] {t t' : Table K V} {key : V → K}

theorem mem_rows {v : V} : v ∈ rows t ↔ ∃ k, t.lookup k = some v := by
  simp only [rows, List.mem_filterMap, List.mem_insertionSort]
  constructor
  · rintro ⟨k, -, hk⟩
    exact ⟨k, hk⟩
  · rintro ⟨k, hk⟩
    exact ⟨k, AList.mem_keys.mp (mem_of_lookup hk), hk⟩

theorem keys_rows (h : KeyedBy key t) : (rows t).map key = t.keys.insertionSort (· ≤ ·) := by
  have hall : ∀ k ∈ t.keys.insertionSort (· ≤ ·), ∃ v, t.lookup k = some v := by
    intro k hk
    exact mem_iff_lookup.mp (AList.mem_keys.mpr (List.mem_insertionSort (· ≤ ·) |>.mp hk))
  unfold rows
  generalize t.keys.insertionSort (· ≤ ·) = ks at hall ⊢
  induction ks with
  | nil => rfl
  | cons k ks ih =>
    obtain ⟨v, hv⟩ := hall k List.mem_cons_self
    have htail := ih (fun j hj => hall j (List.mem_cons_of_mem _ hj))
    simp [hv, h k v hv, htail]

theorem find_rows (h : KeyedBy key t) (k : K) : (rows t).reverse.find? (fun v => key v = k) = t.lookup k := by
  cases hv : t.lookup k with
  | none =>
    rw [List.find?_eq_none]
    intro v hmem
    obtain ⟨j, hj⟩ := mem_rows.mp (List.mem_reverse.mp hmem)
    have hkey := h j v hj
    simp only [decide_eq_true_eq]
    rintro rfl
    rw [hkey, hj] at hv
    cases hv
  | some v =>
    have hmem : v ∈ (rows t).reverse := List.mem_reverse.mpr (mem_rows.mpr ⟨k, hv⟩)
    cases hf : (rows t).reverse.find? (fun v => key v = k) with
    | none => exact absurd (h k v hv) (by simpa using List.find?_eq_none.mp hf v hmem)
    | some w =>
      obtain ⟨j, hj⟩ := mem_rows.mp (List.mem_reverse.mp (List.mem_of_find?_eq_some hf))
      have hk : key w = k := by simpa using List.find?_some hf
      rw [← hv, ← hk, h j w hj, hj]

/-- What a function makes of the rows only depends on what it makes of each
entry: keys that give nothing do not matter, and the order is that of the keys. -/
theorem filterMap_rows_congr {g : V → Option W} (h : ∀ k, (t.lookup k).bind g = (t'.lookup k).bind g) :
    (rows t).filterMap g = (rows t').filterMap g := by
  have hkeep : ∀ (f : K → Option W) (ks : List K), ks.filterMap f = (ks.filter (fun k => (f k).isSome)).filterMap f := by
    intro f ks
    rw [List.filterMap_filter]
    apply List.filterMap_congr
    intro k _
    cases f k <;> rfl
  have hperm : ∀ u : Table K V, ((u.keys.insertionSort (· ≤ ·)).filter (fun k => ((u.lookup k).bind g).isSome)).Nodup :=
    fun u => ((List.perm_insertionSort (· ≤ ·) u.keys).nodup_iff.mpr u.keys_nodup).filter _
  have hmem : ∀ (u : Table K V) k, k ∈ (u.keys.insertionSort (· ≤ ·)).filter (fun k => ((u.lookup k).bind g).isSome) ↔
      ((u.lookup k).bind g).isSome := by
    intro u k
    simp only [List.mem_filter, List.mem_insertionSort, and_iff_right_iff_imp]
    intro hk
    obtain ⟨w, hw⟩ := Option.isSome_iff_exists.mp hk
    obtain ⟨v, hv, -⟩ := Option.bind_eq_some_iff.mp hw
    exact AList.mem_keys.mp (mem_of_lookup hv)
  have hsame : (t.keys.insertionSort (· ≤ ·)).filter (fun k => ((t.lookup k).bind g).isSome) =
      (t'.keys.insertionSort (· ≤ ·)).filter (fun k => ((t'.lookup k).bind g).isSome) := by
    apply List.Perm.eq_of_pairwise' ((List.pairwise_insertionSort (· ≤ ·) _).filter _)
      ((List.pairwise_insertionSort (· ≤ ·) _).filter _)
    rw [List.perm_ext_iff_of_nodup (hperm t) (hperm t')]
    intro k
    rw [hmem, hmem, h k]
  simp only [rows, List.filterMap_filterMap]
  rw [hkeep (fun k => (t.lookup k).bind g), hkeep (fun k => (t'.lookup k).bind g), hsame]
  exact List.filterMap_congr (fun k _ => h k)

end Rows

end Zt.Mirroring
