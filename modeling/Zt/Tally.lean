import Zt.Tables

namespace Zt.Tally

open Tables

variable {K G : Type} (vals : K → Option G) {k : K} {s : KeySet K}

/-- How many keys of a set have a value that passes a test. -/
def tally (s : KeySet K) (test : G → Bool) : Nat :=
  (s.keys.filter (fun k => (vals k).any test)).length

def weight (val : Option G) (test : G → Bool) : Nat := if val.any test then 1 else 0

theorem length_filter_cons (p : K → Bool) {ks : List K} :
    ((k :: ks).filter p).length = (ks.filter p).length + if p k then 1 else 0 := by
  cases h : p k <;> simp [h]

theorem tally_empty (test : G → Bool) : tally vals ∅ test = 0 := rfl

theorem tally_congr {vals vals' : K → Option G} (test : G → Bool)
    (h : ∀ k ∈ s, vals' k = vals k) : tally vals' s test = tally vals s test := by
  unfold tally
  congr 1
  apply List.filter_congr
  intro k hk
  rw [h k (AList.mem_keys.mpr hk)]

theorem tally_pos {vals : K → Option G} {test : G → Bool} :
    0 < tally vals s test ↔ ∃ k ∈ s, ∃ g, vals k = some g ∧ test g = true := by
  unfold tally
  simp [Option.any_eq_true, AList.mem_keys]

variable [DecidableEq K]

theorem tally_insert (test : G → Bool) (hk : k ∉ s) :
    tally vals (s.insert k ()) test = tally vals s test + weight (vals k) test := by
  have hkeys : (s.insert k ()).keys = k :: s.keys := by
    rw [AList.keys_insert, List.erase_of_not_mem (fun h => hk (AList.mem_keys.mpr h))]
  unfold tally
  rw [hkeys, length_filter_cons]
  rfl

theorem tally_erase (test : G → Bool) (hk : k ∈ s) :
    tally vals (s.erase k) test + weight (vals k) test = tally vals s test := by
  have hperm : s.keys.Perm (k :: s.keys.erase k) := List.perm_cons_erase (AList.mem_keys.mp hk)
  have hlen := (hperm.filter (fun k => (vals k).any test)).length_eq
  rw [length_filter_cons] at hlen
  unfold tally
  rw [AList.keys_erase, hlen]
  rfl

theorem tally_update (test : G → Bool) (hk : k ∈ s) (val : Option G) :
    tally (Function.update vals k val) s test + weight (vals k) test = tally vals s test + weight val test := by
  have hsame : tally (Function.update vals k val) (s.erase k) test = tally vals (s.erase k) test := by
    apply tally_congr
    intro j hj
    have hne : j ≠ k := (AList.mem_erase.mp hj).1
    exact Function.update_of_ne hne val vals
  have hold := tally_erase vals test hk
  have hnew := tally_erase (Function.update vals k val) test hk
  rw [Function.update_self] at hnew
  omega

end Zt.Tally
