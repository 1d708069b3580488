import Zt.CircuitCreation

namespace Zt.CostVisitor

open Tables CircuitCreation
open EdgeCtrl (Id IdTable)

def maxUint32 : UInt32 := 4294967295

structure TerminatorCosts where
  circuitCount : UInt32 := 0
  failureCost : UInt32 := 0
  cachedCost : UInt32 := 0

def TerminatorCosts.cache (self : TerminatorCosts) (circuitCost : UInt32) : TerminatorCosts :=
  let cost := self.circuitCount.toUInt64 * circuitCost.toUInt64 + self.failureCost.toUInt64
  { self with cachedCost := if maxUint32.toUInt64 < cost then maxUint32 else cost.toUInt32 }

@[simp]
theorem TerminatorCosts.cache_circuitCount {self : TerminatorCosts} {circuitCost : UInt32} :
    (self.cache circuitCost).circuitCount = self.circuitCount := rfl

/-- A circuit cost of zero would be divided by. -/
structure Visitor where
  circuitCost : UInt32
  failureCost : UInt32
  successCredit : UInt32
  positive : 0 < circuitCost

namespace Visitor

variable (self : Visitor) (costs : IdTable TerminatorCosts) (id : Id)

def upsert (f : TerminatorCosts → TerminatorCosts) : IdTable TerminatorCosts :=
  costs.insert id (f ((costs.lookup id).getD {}))

def getCircuitCount : UInt32 := ((costs.lookup id).map TerminatorCosts.circuitCount).getD 0

def visitDialFailed : IdTable TerminatorCosts :=
  upsert costs id (fun cost =>
    { cost with
      failureCost := if self.failureCost < maxUint32 - cost.failureCost then cost.failureCost + self.failureCost
        else maxUint32 }.cache self.circuitCost)

def visitDialSucceeded : IdTable TerminatorCosts :=
  upsert costs id (fun cost =>
    { cost with
      failureCost := if self.successCredit < cost.failureCost then cost.failureCost - self.successCredit else 0
      circuitCount := if cost.circuitCount < maxUint32 / self.circuitCost then cost.circuitCount + 1
        else cost.circuitCount }.cache self.circuitCost)

def visitCircuitRemoved : IdTable TerminatorCosts :=
  upsert costs id (fun cost =>
    { cost with
      circuitCount := if 0 < cost.circuitCount then cost.circuitCount - 1 else cost.circuitCount }.cache
        self.circuitCost)

/-- A terminator that is deleted is dropped by its strategy. -/
def handleNotice : Notice → IdTable TerminatorCosts
  | .dialSucceeded id => self.visitDialSucceeded costs id
  | .dialFailed id => self.visitDialFailed costs id
  | .deleteTerminator id => costs.erase id
  | _ => costs

end Visitor

open Visitor (getCircuitCount upsert)

section Counts

variable {self : Visitor} {costs : IdTable TerminatorCosts} {id other : Id}

theorem count_upsert (f : TerminatorCosts → TerminatorCosts) :
    getCircuitCount (upsert costs id f) other =
      if other = id then (f ((costs.lookup id).getD {})).circuitCount else getCircuitCount costs other := by
  unfold getCircuitCount upsert
  rw [lookup_insert_eq]
  split <;> rfl

theorem count_default : ((costs.lookup id).getD {}).circuitCount = getCircuitCount costs id := by
  unfold getCircuitCount
  cases costs.lookup id <;> rfl

theorem count_dialFailed : getCircuitCount (self.visitDialFailed costs id) other = getCircuitCount costs other := by
  unfold Visitor.visitDialFailed
  rw [count_upsert]
  split
  · rename_i heq
    rw [heq, TerminatorCosts.cache_circuitCount, count_default]
  · rfl

theorem count_dialSucceeded (hbelow : getCircuitCount costs id < maxUint32 / self.circuitCost) (other : Id) :
    (getCircuitCount (self.visitDialSucceeded costs id) other).toNat =
      (getCircuitCount costs other).toNat + if other = id then 1 else 0 := by
  unfold Visitor.visitDialSucceeded
  rw [count_upsert]
  split
  · rename_i heq
    rw [heq]
    have hbound := UInt32.lt_iff_toNat_lt.mp hbelow
    have hdiv := Nat.div_le_self maxUint32.toNat self.circuitCost.toNat
    rw [UInt32.toNat_div] at hbound
    have hmax : maxUint32.toNat = 4294967295 := rfl
    simp only [TerminatorCosts.cache_circuitCount, count_default, if_pos hbelow, UInt32.toNat_add,
      UInt32.toNat_one]
    omega
  · rfl

theorem count_circuitRemoved : (getCircuitCount (self.visitCircuitRemoved costs id) other).toNat =
    (getCircuitCount costs other).toNat - if other = id then 1 else 0 := by
  unfold Visitor.visitCircuitRemoved
  rw [count_upsert]
  split
  · rename_i heq
    rw [heq]
    simp only [TerminatorCosts.cache_circuitCount, count_default]
    split
    · rename_i hpos
      have hone : 1 ≤ getCircuitCount costs id :=
        UInt32.le_iff_toNat_le.mpr (UInt32.lt_iff_toNat_lt.mp hpos)
      rw [UInt32.toNat_sub_of_le _ _ hone]
      rfl
    · rename_i hzero
      have hle := Nat.le_of_not_lt (fun hlt => hzero (UInt32.lt_iff_toNat_lt.mpr hlt))
      rw [UInt32.toNat_zero] at hle
      omega
  · rfl

theorem count_erase (h : other ≠ id) : getCircuitCount (costs.erase id) other = getCircuitCount costs other := by
  unfold getCircuitCount
  rw [lookup_erase_eq, if_neg h]

end Counts

end Zt.CostVisitor
