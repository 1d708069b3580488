import Mathlib.Algebra.Group.Nat.Defs
import Zt.EdgeCtrl
import Zt.RingLog

namespace Zt.EventCache

open Tables EdgeCtrl

inductive ReplayResult
  | success
  | fullSyncRequired
  | requestFromFuture
  deriving DecidableEq

inductive StoreError
  | outOfOrder (currentIndex receivedIndex : UInt64)

structure LoggingEventCache where
  headLogIndex : Nat := 0
  minEntryIndex : UInt64 := 0
  logSize : Nat
  log : List UInt64
  events : Table UInt64 ChangeSet := ∅

def newLoggingEventCache (logSize : Nat) : LoggingEventCache :=
  { logSize := logSize, log := List.replicate logSize 0 }

variable (cache : LoggingEventCache)

def setCurrentIndex (index : UInt64) : LoggingEventCache :=
  { cache with
    headLogIndex := 0
    log := (List.replicate cache.logSize 0).set 0 index
    events := ∅ }

def currentIndex : UInt64 := cache.log.getD cache.headLogIndex 0

/-- The slot behind the head is overwritten. Whatever index it held, unless it
was never used, is forgotten and the lowest replayable index moves past it. -/
def storeLocked (event : ChangeSet) : Except StoreError LoggingEventCache :=
  if event.isSynthetic then .ok cache
  else if event.index ≤ currentIndex cache then .error (.outOfOrder (currentIndex cache) event.index)
  else
    let targetLogIndex := (cache.headLogIndex + 1) % cache.logSize
    let prevCachedIndex := cache.log.getD targetLogIndex 0
    let events := if prevCachedIndex ≠ 0 then cache.events.erase prevCachedIndex else cache.events
    let minEntryIndex := if prevCachedIndex ≠ 0 then prevCachedIndex + 1 else cache.minEntryIndex
    .ok { cache with
      headLogIndex := targetLogIndex
      log := cache.log.set targetLogIndex event.index
      events := events.insert event.index event
      minEntryIndex := if minEntryIndex = 0 then event.index else minEntryIndex }

def Sized : Prop := 1 ≤ cache.logSize ∧ cache.log.length = cache.logSize

theorem sized_start {logSize : Nat} (hn : 1 ≤ logSize) {index : UInt64} :
    Sized (setCurrentIndex (newLoggingEventCache logSize) index) ∧
      currentIndex (setCurrentIndex (newLoggingEventCache logSize) index) = index := by
  refine ⟨⟨hn, by simp [setCurrentIndex]⟩, ?_⟩
  have hlt : 0 < logSize := hn
  simp [currentIndex, setCurrentIndex, newLoggingEventCache, hlt]

theorem storeLocked_accepts {cache : LoggingEventCache} (h : Sized cache) (event : ChangeSet)
    (hs : event.isSynthetic = false) (hlt : currentIndex cache < event.index) :
    ∃ cache', storeLocked cache event = .ok cache' ∧ Sized cache' ∧ currentIndex cache' = event.index := by
  have hle : ¬ event.index ≤ currentIndex cache := UInt64.not_le.mpr hlt
  have htarget : (cache.headLogIndex + 1) % cache.logSize < cache.log.length := by
    rw [h.2]
    exact Nat.mod_lt _ h.1
  unfold storeLocked
  rw [if_neg (by simp [hs]), if_neg hle]
  refine ⟨_, rfl, ⟨h.1, by simp [h.2]⟩, ?_⟩
  simp [currentIndex, htarget]

/-- The search loop of a replay, one turn for each unit of fuel. Its only state
is a 64-bit index, so a search that has not ended after 2^64 turns never ends. -/
def seek (cache : LoggingEventCache) (headIndex : UInt64) :
    Nat → UInt64 → Option (Except ReplayResult UInt64)
  | 0, _ => none
  | fuel + 1, startIndex =>
    if startIndex ∈ cache.events then some (.ok startIndex)
    else if startIndex > headIndex then some (.error .requestFromFuture)
    else if startIndex < cache.minEntryIndex then some (.error .fullSyncRequired)
    else if startIndex + 1 > headIndex then some (.error .fullSyncRequired)
    else seek cache headIndex fuel (startIndex + 1)

/-- Look for an index in a given number of slots from slot i on. Reading past
the end of the log is a panic, shown as none. -/
def scanLog (log : List UInt64) (startIndex : UInt64) : Nat → Nat → Option (Option Nat)
  | _, 0 => some none
  | i, count + 1 =>
    match log[i]? with
    | none => none
    | some index => if index = startIndex then some (some i) else scanLog log startIndex (i + 1) count

def tryStart (headIndex startIndex : UInt64) : Nat :=
  let tryOffset := (headIndex - startIndex).toInt64.toInt
  (Int.bmod ((cache.headLogIndex : Int) - tryOffset) (2 ^ 64)).toNat

def findStart (headIndex startIndex : UInt64) : Option (Option Nat) :=
  let tryStartIndex := tryStart cache headIndex startIndex
  match scanLog cache.log startIndex tryStartIndex (cache.log.length - tryStartIndex) with
  | some none => if tryStartIndex > 0 then scanLog cache.log startIndex 0 tryStartIndex else some none
  | found => found

/-- The change sets from startIndex on. An entry is none where the code returns
a nil change set; the whole result is none where the code does not return. -/
def replayFrom (startIndex : UInt64) : Option (List (Option ChangeSet) × ReplayResult) :=
  let headIndex := currentIndex cache
  match seek cache headIndex (2 ^ 64) startIndex with
  | none => none
  | some (.error result) => some ([], result)
  | some (.ok startIndex) =>
    match findStart cache headIndex startIndex with
    | none => none
    | some none => some ([], .fullSyncRequired)
    | some (some startLogIndex) =>
      some ((RingLog.span cache.log cache.headLogIndex startLogIndex).map cache.events.lookup, .success)

end Zt.EventCache
