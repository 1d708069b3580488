import Zt.EventCache

namespace Zt.EventCacheSearch

open EventCache

theorem seek_future {cache : LoggingEventCache} {head s : UInt64} (hs : head < s) (hout : s ∉ cache.events)
    (fuel : Nat) : seek cache head (fuel + 1) s = some (.error .requestFromFuture) := by
  simp [seek, hout, hs]

/-- What a search from an index up to the head can end in. -/
def Sought (cache : LoggingEventCache) (head s : UInt64) : Except ReplayResult UInt64 → Prop
  | .ok t => t ∈ cache.events ∧ s ≤ t ∧ (∀ k ∈ cache.events, s ≤ k → t ≤ k) ∧
      (s ∈ cache.events ∨ cache.minEntryIndex ≤ s)
  | .error result => result = .fullSyncRequired ∧ (s < cache.minEntryIndex ∨ head ∉ cache.events)

theorem seek_upto {cache : LoggingEventCache} {head : UInt64}
    (hmax : head ≠ 18446744073709551615 ∨ head ∈ cache.events) {fuel : Nat} (s : UInt64) (hs : s ≤ head)
    (hf : head.toNat - s.toNat < fuel) : ∃ r, seek cache head fuel s = some r ∧ Sought cache head s r := by
  induction fuel generalizing s with
  | zero => omega
  | succ fuel ih =>
    unfold seek
    by_cases hin : s ∈ cache.events
    · exact ⟨.ok s, by simp [hin], hin, UInt64.le_refl s, fun _ _ h => h, .inl hin⟩
    · have hnot : ¬ s > head := by grind
      by_cases hmin : s < cache.minEntryIndex
      · exact ⟨.error .fullSyncRequired, by simp [hin, hnot, hmin], rfl, .inl hmin⟩
      · by_cases hlast : s + 1 > head
        · refine ⟨.error .fullSyncRequired, by simp [hin, hnot, hlast], rfl, .inr ?_⟩
          have heq : s = head := by
            rcases hmax with - | -
            · grind
            · grind
          exact heq ▸ hin
        · have hlt : s < s + 1 := by grind
          have hle : s + 1 ≤ head := by grind
          obtain ⟨r, hr, hsought⟩ := ih (s + 1) hle (by
            have := UInt64.lt_iff_toNat_lt.mp hlt
            have := UInt64.le_iff_toNat_le.mp hle
            omega)
          refine ⟨r, by simpa [hin, hnot, hmin, hlast] using hr, ?_⟩
          cases r with
          | error result =>
            obtain ⟨hres, hwhy⟩ := hsought
            exact ⟨hres, hwhy.imp (UInt64.lt_trans hlt) id⟩
          | ok t =>
            obtain ⟨ht, hge, hfirst, -⟩ := hsought
            refine ⟨ht, by grind, ?_, .inr (by grind)⟩
            intro k hk hsk
            have hne : s ≠ k := by rintro rfl; exact hin hk
            grind

variable {t : UInt64} {log : List UInt64}

theorem scanLog_finds (i count : Nat) {j : Nat} (hi : i ≤ j) (hj : j < i + count)
    (hat : log[j]? = some t) : ∃ k, scanLog log t i count = some (some k) ∧ log[k]? = some t := by
  induction count generalizing i with
  | zero => omega
  | succ count ih =>
    obtain ⟨x, hx⟩ : ∃ x, log[i]? = some x := by
      have hlen := (getElem?_eq_some_iff.mp hat).1
      exact ⟨log[i], List.getElem?_eq_getElem (by omega)⟩
    by_cases hxt : x = t
    · subst hxt
      exact ⟨i, by simp [scanLog, hx], hx⟩
    · have hne : i ≠ j := by rintro rfl; simp_all
      obtain ⟨k, hk⟩ := ih (i + 1) (by omega) (by omega)
      exact ⟨k, by simpa [scanLog, hx, hxt] using hk⟩

theorem scanLog_within {i count : Nat} (hi : i + count ≤ log.length) :
    scanLog log t i count = some none ∨ ∃ k, scanLog log t i count = some (some k) ∧ log[k]? = some t := by
  induction count generalizing i with
  | zero => exact .inl rfl
  | succ count ih =>
    have hx : log[i]? = some log[i] := List.getElem?_eq_getElem (by omega)
    by_cases hxt : log[i] = t
    · exact .inr ⟨i, by simp [scanLog, hx, hxt], by rw [hx, hxt]⟩
    · simpa [scanLog, hx, hxt] using ih (by omega)

theorem findStart_finds {cache : LoggingEventCache} {head : UInt64} (ht : t ∈ cache.log) :
    ∃ i, findStart cache head t = some (some i) ∧ cache.log[i]? = some t := by
  obtain ⟨j, hj⟩ := List.mem_iff_getElem?.mp ht
  have hlen := (getElem?_eq_some_iff.mp hj).1
  unfold findStart
  generalize tryStart cache head t = start
  by_cases hle : start ≤ j
  · obtain ⟨k, hk, hat⟩ := scanLog_finds start (cache.log.length - start) hle (by omega) hj
    exact ⟨k, by simp [hk], hat⟩
  · have hfirst : scanLog cache.log t start (cache.log.length - start) = some none ∨
        ∃ k, scanLog cache.log t start (cache.log.length - start) = some (some k) ∧ cache.log[k]? = some t := by
      by_cases hb : start ≤ cache.log.length
      · exact scanLog_within (by omega)
      · left
        rw [Nat.sub_eq_zero_of_le (by omega)]
        rfl
    rcases hfirst with hnone | ⟨k, hk, hat⟩
    · obtain ⟨k, hk, hat⟩ := scanLog_finds 0 start (Nat.zero_le j) (by omega) hj
      exact ⟨k, by simp [hnone, hk]; omega, hat⟩
    · exact ⟨k, by simp [hk], hat⟩

end Zt.EventCacheSearch
