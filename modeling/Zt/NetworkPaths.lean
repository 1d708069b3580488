import Zt.LeastCost
import Zt.Topology

namespace Zt.NetworkPaths

open Tables Topology
open EdgeCtrl (Id)
open LeastCost (trace)

/-- The order in which a map comes out, which is another one each time. -/
structure IterationOrder where
  permute : Nat → List RouterRef → List RouterRef
  perm : ∀ n l, (permute n l).Perm l

/-- A distance that is not in the map reads as zero. -/
structure Search where
  dist : Table RouterRef Int := ∅
  prev : Table RouterRef RouterRef := ∅
  unvisited : KeySet RouterRef := ∅

def Search.distOf (s : Search) (r : RouterRef) : Int := (s.dist.lookup r).getD 0

def minCostLoop (dist : RouterRef → Int) (selected : Option RouterRef) (currentMin : Int) :
    List RouterRef → Option RouterRef
  | [] => selected
  | r :: q =>
    if dist r ≤ currentMin then minCostLoop dist (some r) (dist r) q
    else minCostLoop dist selected currentMin q

def minCost (s : Search) (q : List RouterRef) : Option RouterRef :=
  if isEmpty s.dist then none else minCostLoop s.distOf none Network.maxInt64 q

section ShortestPath

variable (net : Network) (order : IterationOrder) (srcR dstR : RouterRef)

def hopCost (u r : RouterRef) : Int :=
  match net.leastExpensiveLink r u with
  | none => Network.maxInt32 + 1
  | some l =>
    if !(net.router r).noTraversal || decide (r = srcR) || decide (r = dstR) then
      Network.add64 (net.link l).getCost (net.routerCost r)
    else Network.maxInt32 + 1

def relax (u : RouterRef) (s : Search) (r : RouterRef) : Search :=
  if r ∈ s.unvisited then
    let alt := Network.add64 (s.distOf u) (hopCost net srcR dstR u r)
    if alt < s.distOf r then { s with dist := s.dist.insert r alt, prev := s.prev.insert r u } else s
  else s

def visit (n : Nat) (u : RouterRef) (s : Search) : Search :=
  (order.permute (2 * n + 1) (net.connectedNeighborsOfRouter u)).foldl (relax net srcR dstR u)
    { s with unvisited := s.unvisited.erase u }

/-- A pass takes one router out of the unvisited ones, so that their number is
fuel enough. None is a panic, on a nil router. -/
def search : Nat → Search → Option Search
  | 0, s => some s
  | n + 1, s =>
    if isEmpty s.unvisited then some s
    else match minCost s (order.permute (2 * n) s.unvisited.keys) with
      | none => none
      | some u => if u = dstR then some s else search n (visit net order srcR dstR n u s)

def startSearch : Search :=
  let s := net.allConnected.foldl (fun s r =>
    { s with dist := s.dist.insert r Network.maxInt32, unvisited := s.unvisited.insert r () }) ({} : Search)
  { s with dist := s.dist.insert srcR 0 }

def routerPath : Option (Except String (List RouterRef × Int)) := do
  let s ← search net order srcR dstR net.allConnected.length (startSearch net srcR)
  let path ← trace (fun r => s.prev.lookup r) net.allConnected.length (s.prev.lookup dstR) []
  let path := path ++ [dstR]
  let unroutable := "can't route from " ++ (net.router srcR).id ++ " -> " ++ (net.router dstR).id
  return if path.head? ≠ some srcR then .error unroutable
    else if path.getLast? ≠ some dstR then .error (unroutable ++ ". destination unreachable")
    else .ok (path, s.distOf dstR)

end ShortestPath

variable (net : Network)

/-- The routers may be nil. -/
def shortestPath (order : IterationOrder) (srcR dstR : Option RouterRef) :
    Option (Except String (List RouterRef × Int)) :=
  match srcR, dstR with
  | some srcR, some dstR => if srcR = dstR then some (.ok ([srcR], 0)) else routerPath net order srcR dstR
  | _, _ => some (.error "not routable (!srcR||!dstR)")

structure Path where
  nodes : List RouterRef
  links : List LinkRef := []
  ingressId : Id
  egressId : Id
  initiatorLocalAddr : String := ""
  initiatorRemoteAddr : String := ""
  terminatorLocalAddr : String := ""
  terminatorRemoteAddr : String := ""
  deriving DecidableEq

def chooseLinks (net : Network) : List RouterRef → Except String (List LinkRef)
  | a :: b :: nodes =>
    match net.leastExpensiveLink a b with
    | none => .error ("no link from r/" ++ (net.router a).id ++ " to r/" ++ (net.router b).id)
    | some link => (chooseLinks net (b :: nodes)).map (link :: ·)
  | _ => .ok []

def setLinks (path : Path) : Except String Path :=
  (chooseLinks net path.nodes).map (fun links => { path with links := path.links ++ links })

inductive CircuitFailureCause
  | invalidService
  | idGenerationError
  | noTerminators
  | noOnlineTerminators
  | noPath
  | pathMissingLink
  | invalidStrategy
  | strategyError
  | routerResponseTimeout
  | routerErrGeneric
  | routerErrInvalidTerminator
  | routerErrMisconfiguredTerminator
  | routerErrDialTimedOut
  | routerErrDialConnRefused
  deriving DecidableEq

/-- The two ids come from the id generator, which may fail. -/
def createPathWithNodes (newIngressId newEgressId : Except String Id) (nodes : List RouterRef) :
    Except (CircuitFailureCause × String) Path :=
  match newIngressId with
  | .error err => .error (.idGenerationError, err)
  | .ok ingressId =>
    match newEgressId with
    | .error err => .error (.idGenerationError, err)
    | .ok egressId =>
      (setLinks net { nodes := nodes, ingressId := ingressId, egressId := egressId }).mapError
        (fun err => (.pathMissingLink, err))

/-- A path has nodes, or the first one is a panic. -/
def updatePath (order : IterationOrder) (path : Path) : Option (Except String Path) := do
  let srcR ← path.nodes.head?
  let dstR ← path.nodes.getLast?
  let result ← shortestPath net order (some srcR) (some dstR)
  return result.bind (fun found => setLinks net { path with nodes := found.1, links := [] })

end Zt.NetworkPaths
