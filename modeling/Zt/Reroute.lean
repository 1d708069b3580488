import Zt.NetworkPaths

namespace Zt.Reroute

open Topology NetworkPaths
open EdgeCtrl (Id)

structure Circuit where
  id : Id
  path : Path
  rerouting : Bool := false
  deriving DecidableEq

section Rerouting

variable (net : Network)

/-- A circuit that is being rerouted is left to whoever does so. -/
def rerouteCircuit (order : IterationOrder) (circuit : Circuit) : Option (Except String Circuit) :=
  if circuit.rerouting then some (.ok circuit)
  else (updatePath net order circuit.path).map (fun result => result.map (fun cq => { circuit with path := cq }))

/-- The circuits that are left. One that cannot be rerouted is removed. -/
def rerouteLink (orders : Id → IterationOrder) (l : LinkRef) : List Circuit → Option (List Circuit)
  | [] => some []
  | circuit :: circuits =>
    if l ∈ circuit.path.links then
      match rerouteCircuit net (orders circuit.id) circuit with
      | none => none
      | some (.ok circuit) => (rerouteLink orders l circuits).map (circuit :: ·)
      | some (.error _) => rerouteLink orders l circuits
    else (rerouteLink orders l circuits).map (circuit :: ·)

/-- The circuit, if it is still there. -/
def rerouteCircuitWithTries (orders : Nat → IterationOrder) (circuit : Circuit) : Nat → Option (Option Circuit)
  | 0 => some none
  | n + 1 =>
    match rerouteCircuit net (orders n) circuit with
    | none => none
    | some (.ok circuit) => some (some circuit)
    | some (.error _) => rerouteCircuitWithTries orders circuit n

end Rerouting

section Smart

variable (net : Network)

def linksCost (links : List LinkRef) : Int :=
  links.foldl (fun cost l => Network.add64 cost (net.link l).getCost) 0

def pathCost (path : Path) : Int :=
  path.nodes.foldl (fun cost r => Network.add64 cost (net.routerCost r)) (linksCost net path.links)

/-- A router that is connected counts with its present cost. -/
def calculateCircuitCost (path : Path) : Int :=
  path.nodes.foldl (fun cost r =>
    Network.add64 cost (net.routerCost ((net.getConnected (net.router r).id).getD r))) (linksCost net path.links)

def equalPath (path other : Path) : Bool := decide (path.nodes = other.nodes ∧ path.links = other.links)

def improves (minCostDelta : Int) (circuit : Circuit) (updatedPath : Path) : Bool :=
  !equalPath updatedPath circuit.path &&
    decide (minCostDelta ≤ (calculateCircuitCost net circuit.path - pathCost net updatedPath).bmod (2 ^ 64))

def candidates (orders : Id → IterationOrder) (ceiling : Nat) (minCostDelta : Int) :
    Nat → List Circuit → Option (List (Circuit × Path))
  | _, [] => some []
  | count, circuit :: circuits =>
    match updatePath net (orders circuit.id) circuit.path with
    | none => none
    | some (.error _) => candidates orders ceiling minCostDelta count circuits
    | some (.ok updatedPath) =>
      if count < ceiling ∧ improves net minCostDelta circuit updatedPath = true then
        (candidates orders ceiling minCostDelta (count + 1) circuits).map ((circuit, updatedPath) :: ·)
      else candidates orders ceiling minCostDelta count circuits

/-- The most expensive circuits come first. The ceiling is a fraction of their
number, at least one and at most the cap. -/
def getRerouteCandidates (orders : Id → IterationOrder) (ceiling : Nat) (minCostDelta : Int) (circuits : List Circuit) :
    Option (List (Circuit × Path)) :=
  candidates net orders ceiling minCostDelta 0
    (circuits.mergeSort (fun a b => calculateCircuitCost net b.path ≤ calculateCircuitCost net a.path))

end Smart

end Zt.Reroute
