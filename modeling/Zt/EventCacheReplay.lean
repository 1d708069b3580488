import Mathlib.Data.List.GetD
import Zt.EventCacheSearch
import Zt.Runs

namespace Zt.EventCacheReplay

open Tables EdgeCtrl EventCache EventCacheSearch RingLog Runs
open List (replicate mem_append map_append map_cons map_nil cons_append pairwise_append
  mem_singleton pairwise_cons mem_cons getLast_mem)

/-- A cache together with what was done to it: the change sets it accepted, in
order, and the index it was last set to. -/
structure History where
  cache : LoggingEventCache
  accepted : List ChangeSet := []
  lastSet : Option UInt64 := none

inductive CacheOp
  | store (event : ChangeSet)
  | setCurrentIndex (index : UInt64)

def start (logSize : Nat) : History := { cache := newLoggingEventCache logSize }

variable (h : History)

def step : CacheOp → History
  | .store event =>
    match storeLocked h.cache event with
    | .error _ => h
    | .ok cache =>
      { h with cache := cache, accepted := if event.isSynthetic then h.accepted else h.accepted ++ [event] }
  | .setCurrentIndex index =>
    { h with cache := setCurrentIndex h.cache index, lastSet := some index }

/-- A replay from s returns. If it succeeds, it lists the accepted change sets
from s on by increasing index, and nothing from s on was dropped by setting the
index. Otherwise it lists nothing. It is refused as being from the future
exactly when s is past the current index. -/
def ReplayExact (s : UInt64) : Prop :=
  ∃ events result, replayFrom h.cache s = some (events, result) ∧ (result = .success →
      (∃ found : List ChangeSet, events = found.map some ∧ found.Pairwise (fun a b => a.index < b.index) ∧
        ∀ c, c ∈ found ↔ c ∈ h.accepted ∧ s ≤ c.index) ∧
      ∀ index, h.lastSet = some index → index < s) ∧
    (result ≠ .success → events = []) ∧
    (result = .requestFromFuture ↔ currentIndex h.cache < s)

/-- The index is only set while nothing has been accepted, and not to the last
64-bit value. -/
def SetFirst : CacheOp → Prop
  | .store _ => True
  | .setCurrentIndex index => h.accepted = [] ∧ index ≠ 18446744073709551615

def indexes : List UInt64 := h.accepted.map (·.index)

def evicted : List ChangeSet := h.accepted.take (h.accepted.length - h.cache.logSize)

def window : List ChangeSet := h.accepted.drop (h.accepted.length - h.cache.logSize)

/-- The ring holds the last entries of the sequence of zeros, the index the
cache was set to and the accepted indexes; the events are those accepted change
sets that are still in the ring. -/
structure Inv (base : UInt64) (h : History) : Prop where
  size : 1 ≤ h.cache.logSize
  length : h.cache.log.length = h.cache.logSize
  head : h.cache.headLogIndex < h.cache.logSize
  ring : unroll h.cache.log h.cache.headLogIndex =
    (replicate h.cache.logSize 0 ++ base :: indexes h).drop (h.accepted.length + 1)
  sorted : (base :: indexes h).Pairwise (· < ·)
  events : ∀ k c, h.cache.events.lookup k = some c ↔ c ∈ window h ∧ c.index = k
  minZero : h.accepted = [] → h.cache.minEntryIndex = 0
  minBase : h.accepted ≠ [] → base < h.cache.minEntryIndex
  minEvicted : ∀ c ∈ evicted h, c.index < h.cache.minEntryIndex
  minWindow : ∀ c ∈ window h, h.cache.minEntryIndex ≤ c.index
  lastSet : ∀ index, h.lastSet = some index → index = base
  bound : base ≠ 18446744073709551615

variable {h : History} {c event : ChangeSet} {base : UInt64}

theorem mem_accepted : c ∈ h.accepted ↔ c ∈ evicted h ∨ c ∈ window h := by
  rw [evicted, window, ← mem_append, List.take_append_drop]

theorem Inv.current (hi : Inv base h) : currentIndex h.cache = (indexes h).getLastD base := by
  have hh : h.cache.headLogIndex < h.cache.log.length := by rw [hi.length]; exact hi.head
  have hl := unroll_getLast? hh
  rw [hi.ring, List.getLast?_drop, if_neg (by simp [indexes]; have := hi.size; omega)] at hl
  rw [currentIndex, List.getD_eq_getElem?_getD, ← hl]
  simp [List.getLast?_cons]

theorem Inv.prev (hi : Inv base h) : h.cache.log.getD ((h.cache.headLogIndex + 1) % h.cache.logSize) 0 =
    (replicate h.cache.logSize 0 ++ base :: indexes h).getD (h.accepted.length + 1) 0 := by
  have hh : h.cache.headLogIndex < h.cache.log.length := by rw [hi.length]; exact hi.head
  have hl := unroll_head? hh
  rw [hi.ring, List.head?_drop, hi.length] at hl
  rw [List.getD_eq_getElem?_getD, ← hl, List.getD_eq_getElem?_getD]

theorem inv_start {logSize : Nat} (hn : 1 ≤ logSize) : Inv 0 (start logSize) := by
  have hr : unroll (replicate logSize 0) 0 =
      (replicate logSize (0 : UInt64) ++ [0]).drop 1 := by
    rw [unroll, List.drop_replicate, List.take_replicate, List.replicate_append_replicate,
      ← List.replicate_succ']
    congr 1; omega
  exact {
    size := hn
    length := by simp [start, newLoggingEventCache]
    head := hn
    ring := hr
    sorted := by simp [indexes, start]
    events := by simp [start, newLoggingEventCache, window]
    minZero := fun _ => rfl
    minBase := absurd rfl
    minEvicted := by simp [evicted, start]
    minWindow := by simp [window, start]
    lastSet := by simp [start]
    bound := by decide }

theorem inv_set (hi : Inv base h) (index : UInt64) (hc : SetFirst h (.setCurrentIndex index)) :
    Inv index (step h (.setCurrentIndex index)) := by
  obtain ⟨ha, hb⟩ := hc
  have hn := hi.size
  have hr : unroll ((replicate h.cache.logSize 0).set 0 index) 0 =
      (replicate h.cache.logSize 0 ++ [index]).drop 1 := by
    obtain ⟨n, hn⟩ : ∃ n, h.cache.logSize = n + 1 := ⟨h.cache.logSize - 1, by omega⟩
    simp [hn, unroll, List.replicate_succ]
  exact {
    size := hn
    length := by simp [step, setCurrentIndex]
    head := hn
    ring := by simpa [step, setCurrentIndex, ha, indexes] using hr
    sorted := by simp [indexes, step, ha]
    events := by simp [step, setCurrentIndex, window, ha]
    minZero := hi.minZero
    minBase := absurd ha
    minEvicted := by simp [evicted, step, ha]
    minWindow := by simp [window, step, ha]
    lastSet := by simp [step]
    bound := hb }

/-- The history after an accepted change set, written out. -/
def stored (h : History) (event : ChangeSet) : History :=
  let target := (h.cache.headLogIndex + 1) % h.cache.logSize
  let prev := h.cache.log.getD target 0
  let events := if prev ≠ 0 then h.cache.events.erase prev else h.cache.events
  let minEntry := if prev ≠ 0 then prev + 1 else h.cache.minEntryIndex
  { h with
    cache := { h.cache with
      headLogIndex := target
      log := h.cache.log.set target event.index
      events := events.insert event.index event
      minEntryIndex := if minEntry = 0 then event.index else minEntry }
    accepted := h.accepted ++ [event] }

theorem step_store : step h (.store event) = h ∨
    (event.isSynthetic = false ∧ currentIndex h.cache < event.index ∧
      step h (.store event) = stored h event) := by
  unfold step storeLocked
  by_cases hs : event.isSynthetic
  · simp [hs]
  · by_cases hc : event.index ≤ currentIndex h.cache
    · simp [hs, hc]
    · right
      refine ⟨by simpa using hs, by simpa using hc, ?_⟩
      simp [hs, hc, stored]

theorem Inv.lt_new (hi : Inv base h) (he : currentIndex h.cache < event.index) :
    base < event.index ∧ ∀ c ∈ h.accepted, c.index < event.index := by
  rw [hi.current] at he
  have hs := hi.sorted
  rcases List.eq_nil_or_concat h.accepted with ha | ⟨init, last, ha⟩
  · simpa [ha, indexes] using he
  · simp only [indexes, ha, List.concat_eq_append, map_append, map_cons, map_nil,
      List.getLastD_concat, ← cons_append, pairwise_append] at he hs
    have hlast : ∀ i ∈ base :: init.map (·.index), i < last.index := by
      intro i hmem
      exact hs.2.2 i hmem last.index (by simp)
    refine ⟨UInt64.lt_trans (hlast base (by simp)) he, ?_⟩
    intro c hc
    simp only [ha, List.concat_eq_append, mem_append, mem_singleton] at hc
    rcases hc with hc | rfl
    · exact UInt64.lt_trans (hlast c.index (by simp; exact .inr ⟨c, hc, rfl⟩)) he
    · exact he

theorem stored_window_of_lt (hlt : h.accepted.length + 1 ≤ h.cache.logSize) :
    window (stored h event) = h.accepted ++ [event] ∧ evicted (stored h event) = [] ∧
      window h = h.accepted := by
  have h1 : h.accepted.length + 1 - h.cache.logSize = 0 := by omega
  have h2 : h.accepted.length - h.cache.logSize = 0 := by omega
  simp [window, evicted, stored, h1, h2]

theorem stored_window_of_le (hle : h.cache.logSize ≤ h.accepted.length) (hn : 1 ≤ h.cache.logSize) :
    ∃ oldest rest, window h = oldest :: rest ∧ window (stored h event) = rest ++ [event] ∧
      evicted (stored h event) = evicted h ++ [oldest] ∧
      (h.accepted[h.accepted.length - h.cache.logSize]?) = some oldest := by
  have hlt : h.accepted.length - h.cache.logSize < h.accepted.length := by omega
  have hs : h.accepted.length + 1 - h.cache.logSize = h.accepted.length - h.cache.logSize + 1 := by omega
  refine ⟨h.accepted[h.accepted.length - h.cache.logSize],
    h.accepted.drop (h.accepted.length - h.cache.logSize + 1), ?_, ?_, ?_, ?_⟩
  · exact List.drop_eq_getElem_cons hlt
  · simp only [window, stored, List.length_append, List.length_cons, List.length_nil, hs]
    rw [List.drop_append_of_le_length (by omega)]
  · simp only [evicted, stored, List.length_append, List.length_cons, List.length_nil, hs]
    rw [List.take_append_of_le_length (by omega), List.take_add_one, List.getElem?_eq_getElem hlt]
    rfl
  · exact List.getElem?_eq_getElem hlt

section

variable (hi : Inv base h)
include hi

/-- The slot that is overwritten: unused, the index the cache was set to, or
the oldest change set still in the ring. -/
theorem Inv.prev_cases :
    let prev := h.cache.log.getD ((h.cache.headLogIndex + 1) % h.cache.logSize) 0
    (h.accepted.length + 1 ≤ h.cache.logSize ∧ (prev = 0 ∨ prev = base)) ∨
      (h.cache.logSize ≤ h.accepted.length ∧
        (h.accepted[h.accepted.length - h.cache.logSize]?).map (·.index) = some prev) := by
  intro prev
  have hp : prev = (replicate h.cache.logSize 0 ++ base :: indexes h).getD (h.accepted.length + 1) 0 :=
    hi.prev
  by_cases hle : h.cache.logSize ≤ h.accepted.length
  · right
    refine ⟨hle, ?_⟩
    have hlt : h.accepted.length - h.cache.logSize < h.accepted.length := by have := hi.size; omega
    have hsub : h.accepted.length + 1 - h.cache.logSize = h.accepted.length - h.cache.logSize + 1 := by omega
    rw [List.getD_append_right _ _ _ _ (by simp; omega), List.length_replicate, hsub] at hp
    simp [hp, indexes, List.getElem?_eq_getElem hlt]
  · left
    refine ⟨by omega, ?_⟩
    by_cases heq : h.accepted.length + 1 = h.cache.logSize
    · right
      rw [heq, List.getD_append_right _ _ _ _ (by simp), List.length_replicate, Nat.sub_self] at hp
      exact hp
    · left
      rw [List.getD_append _ _ _ _ (by simp; omega)] at hp
      simp [hp, List.getElem?_replicate]
      split <;> rfl

theorem Inv.base_lt (hc : c ∈ h.accepted) : base < c.index :=
  (pairwise_cons.mp hi.sorted).1 c.index (List.mem_map_of_mem hc)

theorem Inv.increasing : h.accepted.Pairwise (fun a b => a.index < b.index) :=
  List.pairwise_map.mp (pairwise_cons.mp hi.sorted).2

theorem Inv.window_increasing : (window h).Pairwise (fun a b => a.index < b.index) :=
  hi.increasing.sublist (List.drop_sublist _ _)

omit hi in
theorem mem_of_window (hc : c ∈ window h) : c ∈ h.accepted :=
  mem_accepted.mpr (.inr hc)

theorem Inv.ring_stored : unroll (stored h event).cache.log (stored h event).cache.headLogIndex =
    (replicate h.cache.logSize 0 ++ base :: indexes (stored h event)).drop
      ((stored h event).accepted.length + 1) := by
  have hh : h.cache.headLogIndex < h.cache.log.length := by rw [hi.length]; exact hi.head
  have hw := unroll_write hh event.index
  rw [hi.ring, hi.length] at hw
  have hn := hi.size
  have happ : replicate h.cache.logSize 0 ++ base :: indexes (stored h event) =
      replicate h.cache.logSize 0 ++ base :: indexes h ++ [event.index] := by
    simp [indexes, stored]
  rw [happ, List.drop_append_of_le_length (by simp [stored, indexes]; omega)]
  simpa [stored] using hw

theorem Inv.lookup_dropped (prev k : UInt64) (c : ChangeSet) :
    (if prev ≠ 0 then h.cache.events.erase prev else h.cache.events).lookup k = some c ↔
      k ≠ prev ∧ c ∈ window h ∧ c.index = k := by
  by_cases hz : prev = 0
  · simp only [hz, ne_eq, not_true_eq_false, if_false, hi.events]
    refine ⟨fun hc => ⟨?_, hc⟩, fun hc => hc.2⟩
    have hlt := hi.base_lt (mem_of_window hc.1)
    grind
  · simp only [ne_eq, hz, not_false_eq_true, if_true, lookup_erase_eq]
    split <;> simp_all [hi.events]

theorem Inv.events_stored (he : currentIndex h.cache < event.index) (k : UInt64) (c : ChangeSet) :
    (stored h event).cache.events.lookup k = some c ↔ c ∈ window (stored h event) ∧ c.index = k := by
  obtain ⟨-, hnew⟩ := hi.lt_new he
  have hwin : ∀ x ∈ window h, x.index < event.index := fun x hx => hnew x (mem_of_window hx)
  have hold := hi.lookup_dropped (h.cache.log.getD ((h.cache.headLogIndex + 1) % h.cache.logSize) 0) k c
  have hmem : c ∈ window (stored h event) ↔ c = event ∨ (c ∈ window h ∧
      c.index ≠ h.cache.log.getD ((h.cache.headLogIndex + 1) % h.cache.logSize) 0) := by
    rcases hi.prev_cases with ⟨hlt, hpv⟩ | ⟨hle, hpv⟩
    · obtain ⟨hw', -, hw⟩ := stored_window_of_lt hlt
      have hne : c ∈ h.accepted → c.index ≠ h.cache.log.getD ((h.cache.headLogIndex + 1) % h.cache.logSize) 0 := by
        intro hc
        have := hi.base_lt hc
        rcases hpv with hpv | hpv <;> rw [hpv] <;> grind
      rw [hw', hw, mem_append, mem_singleton]
      tauto
    · obtain ⟨oldest, rest, hw, hw', -, hget⟩ := stored_window_of_le hle hi.size
      have hsort := (pairwise_cons.mp (hw ▸ hi.window_increasing)).1
      rw [hw']
      grind
  rw [hmem]
  simp only [stored, lookup_insert_eq]
  split
  · grind
  · rw [hold]; grind

theorem Inv.min_stored (he : currentIndex h.cache < event.index) : base < (stored h event).cache.minEntryIndex ∧
    (∀ c ∈ evicted (stored h event), c.index < (stored h event).cache.minEntryIndex) ∧
    ∀ c ∈ window (stored h event), (stored h event).cache.minEntryIndex ≤ c.index := by
  obtain ⟨hbase, hnew⟩ := hi.lt_new he
  rcases hi.prev_cases with ⟨hlt, hpv⟩ | ⟨hle, hpv⟩
  · obtain ⟨hw', he', hw⟩ := stored_window_of_lt hlt
    have hmin : ∀ c ∈ h.accepted, h.cache.minEntryIndex ≤ c.index := fun c hc => hi.minWindow c (hw ▸ hc)
    rw [hw', he']
    simp only [mem_append, mem_singleton, List.not_mem_nil, false_implies, implies_true, true_and, stored]
    by_cases hz : h.cache.log.getD ((h.cache.headLogIndex + 1) % h.cache.logSize) 0 = 0
    · simp only [hz, ne_eq, not_true_eq_false, if_false]
      by_cases ha : h.accepted = []
      · simp [ha, hi.minZero ha, hbase]
      · have hpos := hi.minBase ha
        have hne : h.cache.minEntryIndex ≠ 0 := by grind
        simp only [hne]
        refine ⟨hpos, ?_⟩
        rintro c (hc | rfl)
        · exact hmin c hc
        · exact UInt64.le_of_lt (UInt64.lt_of_le_of_lt (hmin _ (getLast_mem ha)) (hnew _ (getLast_mem ha)))
    · refine ⟨by grind, ?_⟩
      rintro c (hc | rfl)
      · have := hi.base_lt hc
        grind
      · grind
  · obtain ⟨oldest, rest, hw, hw', he', hget⟩ := stored_window_of_le hle hi.size
    have hsort := (pairwise_cons.mp (hw ▸ hi.window_increasing)).1
    have hold : oldest ∈ window h := by simp [hw]
    have hlow := hi.base_lt (mem_of_window hold)
    have hmin := hi.minWindow oldest hold
    have hev := hi.minEvicted
    rw [hw', he']
    simp only [mem_append, mem_singleton, stored]
    refine ⟨by grind, ?_, ?_⟩
    · rintro c (hc | rfl)
      · grind
      · grind
    · rintro c (hc | rfl)
      · grind
      · grind

theorem inv_stored (he : currentIndex h.cache < event.index) : Inv base (stored h event) := by
  obtain ⟨hbase, hnew⟩ := hi.lt_new he
  obtain ⟨hmin, hevicted, hwindow⟩ := hi.min_stored he
  exact {
    size := hi.size
    length := by simp [stored, hi.length]
    head := Nat.mod_lt _ hi.size
    ring := hi.ring_stored
    sorted := by
      simp only [indexes, stored, map_append, map_cons, map_nil, ← cons_append,
        pairwise_append, List.pairwise_singleton, mem_singleton, true_and]
      refine ⟨hi.sorted, ?_⟩
      rintro i hmem _ rfl
      rcases mem_cons.mp hmem with rfl | hmem
      · exact hbase
      · obtain ⟨c, hc, rfl⟩ := List.mem_map.mp hmem
        exact hnew c hc
    events := hi.events_stored he
    minZero := fun h' => by simp [stored] at h'
    minBase := fun _ => hmin
    minEvicted := hevicted
    minWindow := hwindow
    lastSet := hi.lastSet
    bound := hi.bound }

omit hi in
theorem inv_step (op : CacheOp) (hc : SetFirst h op) (hi : ∃ base, Inv base h) : ∃ base, Inv base (step h op) := by
  obtain ⟨base, hi⟩ := hi
  cases op with
  | setCurrentIndex index => exact ⟨index, inv_set hi index hc⟩
  | store event =>
    rcases step_store with hs | ⟨-, he, hs⟩
    · rw [hs]; exact ⟨base, hi⟩
    · rw [hs]; exact ⟨base, inv_stored hi he⟩

omit hi in
theorem inv_run (logSize : Nat) (hn : 1 ≤ logSize) (ops : List CacheOp)
    (hc : Meets SetFirst step (start logSize) ops) : ∃ base, Inv base (ops.foldl step (start logSize)) :=
  hc.invariant (fun h => ∃ base, Inv base h) (fun _ op hi hcond => inv_step op hcond hi)
    ⟨0, inv_start hn⟩

theorem Inv.mem_events {k : UInt64} : k ∈ h.cache.events ↔ ∃ c ∈ window h, c.index = k := by
  simp [mem_iff_lookup, hi.events]

theorem Inv.le_current (hc : c ∈ h.accepted) : c.index ≤ currentIndex h.cache := by
  by_contra hlt
  have hnew : currentIndex h.cache < c.index := by grind
  have := (hi.lt_new hnew).2 c hc
  grind

theorem Inv.current_mem (ha : h.accepted ≠ []) : currentIndex h.cache ∈ h.cache.events := by
  have hn := hi.size
  have hlen := List.length_pos_iff.mpr ha
  have hne : window h ≠ [] := by simp [window]; omega
  refine hi.mem_events.mpr ⟨(window h).getLast hne, getLast_mem hne, ?_⟩
  have hlast : (window h).getLast? = h.accepted.getLast? := by
    rw [window, List.getLast?_drop, if_neg (by omega)]
  rw [hi.current, indexes, List.getLastD_eq_getLast?, List.getLast?_map, ← hlast,
    List.getLast?_eq_getLast_of_ne_nil hne]
  rfl

theorem Inv.ring_from (hc : c ∈ window h) :
    ∃ before after older, h.accepted = before ++ c :: after ∧ (∀ x ∈ c :: after, x ∈ window h) ∧
      unroll h.cache.log h.cache.headLogIndex = older ++ c.index :: after.map (·.index) ∧
      c.index ∉ older ∧ c.index ∉ after.map (·.index) := by
  obtain ⟨front, after, hw⟩ := List.append_of_mem hc
  have hsplit : h.accepted = evicted h ++ front ++ c :: after := by
    rw [List.append_assoc, ← hw, evicted, window, List.take_append_drop]
  have hsorted := hi.sorted
  rw [indexes, hsplit, map_append, map_cons, ← cons_append, pairwise_append] at hsorted
  obtain ⟨-, hlater, hbefore⟩ := hsorted
  let zeros : List UInt64 := replicate h.cache.logSize 0
  let older : List UInt64 := base :: (evicted h ++ front).map (·.index)
  refine ⟨evicted h ++ front, after, (zeros ++ older).drop (h.accepted.length + 1), hsplit, ?_, ?_, ?_, ?_⟩
  · intro x hx
    exact hw ▸ List.mem_append_right _ hx
  · have hlen : h.accepted.length - h.cache.logSize ≤ (evicted h).length := by simp [evicted]
    rw [hi.ring, indexes, ← List.drop_append_of_le_length (by simp [zeros, older]; omega)]
    simp [zeros, older, hsplit]
  · intro hmem
    have hbase := hi.base_lt (mem_of_window hc)
    rcases mem_append.mp (List.mem_of_mem_drop hmem) with - | -
    · grind
    · grind
  · intro hmem
    have := (pairwise_cons.mp hlater).1 c.index hmem
    grind

/-- The slots from that of a change set in the ring up to the head list the
change sets accepted from it on. -/
theorem Inv.found_from (hc : c ∈ window h) (head : UInt64) :
    ∃ before after i, h.accepted = before ++ c :: after ∧ findStart h.cache head c.index = some (some i) ∧
      (span h.cache.log h.cache.headLogIndex i).map h.cache.events.lookup = (c :: after).map some := by
  obtain ⟨before, after, older, hsplit, hin, hring, hold, hnew⟩ := hi.ring_from hc
  have hlog : c.index ∈ h.cache.log := by
    rw [← mem_unroll, hring]
    simp
  obtain ⟨i, hfind, hat⟩ := findStart_finds hlog
  have hlt : i < h.cache.log.length := (getElem?_eq_some_iff.mp hat).1
  have hspan : span h.cache.log h.cache.headLogIndex i = (c :: after).map (·.index) :=
    suffix_unique hold hnew (hring ▸ span_suffix hlt) ((span_head? hlt).trans hat)
  refine ⟨before, after, i, hsplit, hfind, ?_⟩
  rw [hspan, List.map_map]
  exact List.map_congr_left fun x hx => (hi.events x.index x).mpr ⟨hin x hx, rfl⟩

theorem Inv.replay_past {s : UInt64} (hs : currentIndex h.cache < s) :
    replayFrom h.cache s = some ([], .requestFromFuture) := by
  have hout : s ∉ h.cache.events := by
    intro hmem
    obtain ⟨c, hc, rfl⟩ := hi.mem_events.mp hmem
    have := hi.le_current (mem_of_window hc)
    grind
  have hseek : seek h.cache (currentIndex h.cache) (2 ^ 64) s = some (.error .requestFromFuture) :=
    seek_future hs hout (2 ^ 64 - 1)
  simp only [replayFrom, hseek]

theorem Inv.replay_upto {s : UInt64} (hs : s ≤ currentIndex h.cache) :
    replayFrom h.cache s = some ([], .fullSyncRequired) ∨
      ∃ before c after, h.accepted = before ++ c :: after ∧ s ≤ c.index ∧ h.cache.minEntryIndex ≤ s ∧
        (∀ x ∈ before, x.index < s) ∧ replayFrom h.cache s = some ((c :: after).map some, .success) := by
  have hmax : currentIndex h.cache ≠ 18446744073709551615 ∨ currentIndex h.cache ∈ h.cache.events := by
    by_cases ha : h.accepted = []
    · left
      simpa [hi.current, indexes, ha] using hi.bound
    · exact .inr (hi.current_mem ha)
  have hfuel : (currentIndex h.cache).toNat - s.toNat < 2 ^ 64 := by
    have := (currentIndex h.cache).toNat_lt
    omega
  obtain ⟨r, hseek, hsought⟩ := seek_upto hmax s hs hfuel
  cases r with
  | error result =>
    obtain ⟨rfl, -⟩ := hsought
    left
    simp only [replayFrom, hseek]
  | ok t =>
    right
    obtain ⟨ht, hst, hfirst, hfloor⟩ := hsought
    obtain ⟨c, hc, rfl⟩ := hi.mem_events.mp ht
    obtain ⟨before, after, i, hsplit, hfind, hspan⟩ := hi.found_from hc (currentIndex h.cache)
    have hfloor : h.cache.minEntryIndex ≤ s := by
      refine hfloor.elim (fun hin => ?_) id
      obtain ⟨x, hx, rfl⟩ := hi.mem_events.mp hin
      exact hi.minWindow x hx
    refine ⟨before, c, after, hsplit, hst, hfloor, ?_, ?_⟩
    · intro x hx
      by_contra hge
      have hacc : x ∈ h.accepted := by simp [hsplit, hx]
      have hlt : x.index < c.index := by
        have hsorted := hi.increasing
        rw [hsplit, pairwise_append] at hsorted
        exact hsorted.2.2 x hx c (by simp)
      rcases mem_accepted.mp hacc with hev | hwin
      · have := hi.minEvicted x hev
        grind
      · have := hfirst x.index (hi.mem_events.mpr ⟨x, hwin, rfl⟩) (by grind)
        grind
    · simp only [replayFrom, hseek, hfind, hspan]

end

/-- In a run that sets the index only before the first accepted change set, a
replay of whatever the run left in the cache is exact. -/
theorem replay_exact_of_setFirst (logSize : Nat) (hn : 1 ≤ logSize) (ops : List CacheOp)
    (hc : Meets SetFirst step (start logSize) ops) (s : UInt64) : ReplayExact (ops.foldl step (start logSize)) s := by
  obtain ⟨base, hi⟩ := inv_run logSize hn ops hc
  generalize ops.foldl step (start logSize) = h at hi
  by_cases hs : currentIndex h.cache < s
  · exact ⟨[], .requestFromFuture, hi.replay_past hs, nofun, fun _ => rfl, by simp [hs]⟩
  · have hs' : s ≤ currentIndex h.cache := by grind
    rcases hi.replay_upto hs' with hr | ⟨before, c, after, hsplit, hst, hfloor, hlow, hr⟩
    · exact ⟨[], .fullSyncRequired, hr, nofun, fun _ => rfl, by simp [hs]⟩
    · refine ⟨c :: after.map some, .success, hr, fun _ => ⟨⟨c :: after, rfl, ?_, ?_⟩, ?_⟩, by simp, by simp [hs]⟩
      · exact hi.increasing.sublist (hsplit ▸ List.sublist_append_right before _)
      · have hsorted := hi.increasing
        rw [hsplit, pairwise_append, pairwise_cons] at hsorted
        intro x
        rw [hsplit, mem_append]
        constructor
        · intro hx
          refine ⟨.inr hx, ?_⟩
          rcases mem_cons.mp hx with rfl | -
          · exact hst
          · grind
        · rintro ⟨hx | hx, hle⟩
          · grind
          · exact hx
      · intro index hlast
        rw [hi.lastSet index hlast]
        have hne : h.accepted ≠ [] := by simp [hsplit]
        exact UInt64.lt_of_lt_of_le (hi.minBase hne) hfloor

theorem replay_exact_after_reset : (1 ≤ 5 ∧ Meets SetFirst step (start 5)
    [.setCurrentIndex 100, .store { index := 105 }, .store { index := 107 }]) ∧
    ReplayExact ([CacheOp.setCurrentIndex 100, .store { index := 105 }, .store { index := 107 }].foldl step
      (start 5)) 106 := by
  have hc : Meets SetFirst step (start 5)
      [.setCurrentIndex 100, .store { index := 105 }, .store { index := 107 }] := by
    simp [Meets, SetFirst, start]
  exact ⟨⟨by decide, hc⟩, replay_exact_of_setFirst 5 (by decide) _ hc 106⟩

/-- Setting the index drops the change sets but keeps the lowest replayable
index, so a replay from before the set index can still succeed. -/
theorem replay_not_exact_after_late_set :
    ¬ ReplayExact ([CacheOp.store { index := 5 }, .setCurrentIndex 100, .store { index := 105 }].foldl step
      (start 10)) 50 := by
  rintro ⟨events, result, hr, hsuccess, -, -⟩
  have hval : replayFrom ([CacheOp.store { index := 5 }, .setCurrentIndex 100,
      .store { index := 105 }].foldl step (start 10)).cache 50 =
      some ([some { index := 105 }], .success) := by rfl
  obtain ⟨-, rfl⟩ := Prod.mk.inj (Option.some.inj hr)
  have hlt := (hsuccess rfl).2 100 (by rfl)
  exact absurd hlt (by decide)

end Zt.EventCacheReplay
