import Mathlib.Algebra.Group.Nat.Defs
import Zt.EdgeCtrl

namespace Zt.Topology

open Tables
open EdgeCtrl (Id IdTable)

/-- Routers and links are objects. After a reconnect there is a new router
object with the id of the old one. -/
abbrev RouterRef := Nat

abbrev LinkRef := Nat

structure RouterLinks where
  allLinks : List LinkRef := []
  linkByRouter : IdTable (List LinkRef) := ∅

namespace RouterLinks

variable (self : RouterLinks)

def linksFor (routerId : Id) : List LinkRef := (self.linkByRouter.lookup routerId).getD []

def add (link : LinkRef) (otherRouterId : Id) : RouterLinks where
  allLinks := self.allLinks ++ [link]
  linkByRouter := self.linkByRouter.insert otherRouterId (link :: self.linksFor otherRouterId)

def remove (link : LinkRef) (otherRouterId : Id) : RouterLinks where
  allLinks := self.allLinks.filter (fun l => l ≠ link)
  linkByRouter :=
    let newForRouterList := (self.linksFor otherRouterId).filter (fun l => l ≠ link)
    if newForRouterList.isEmpty then self.linkByRouter.erase otherRouterId
    else self.linkByRouter.insert otherRouterId newForRouterList

def clear : RouterLinks := {}

theorem linksFor_add (link : LinkRef) (other routerId : Id) : (self.add link other).linksFor routerId =
    if routerId = other then link :: self.linksFor other else self.linksFor routerId := by
  unfold linksFor add
  rw [lookup_insert_eq]
  split <;> rfl

end RouterLinks

structure Router where
  id : Id
  cost : UInt16 := 0
  noTraversal : Bool := false
  connected : Bool := false
  routerLinks : RouterLinks := {}

inductive LinkMode
  | connected
  | failed
  | duplicate
  deriving DecidableEq

structure Link where
  id : Id
  src : RouterRef
  dstId : Id
  dst : Option RouterRef := none
  iteration : Nat := 0
  mode : LinkMode := .connected
  down : Bool := false
  staticCost : Int32 := 1
  srcLatency : Int64 := 0
  dstLatency : Int64 := 0

namespace Link

/-- The code keeps the result beside the two fields that decide it. -/
def isUsable (link : Link) : Bool := !link.down && decide (link.mode = .connected)

def getCost (link : Link) : Int :=
  link.staticCost.toInt + link.srcLatency.toInt.tdiv 1000000 + link.dstLatency.toInt.tdiv 1000000

end Link

structure Network where
  router : RouterRef → Router
  link : LinkRef → Link
  connected : IdTable RouterRef := ∅
  links : IdTable LinkRef := ∅
  minRouterCost : UInt16 := 0

variable (net : Network)

namespace Network

def allConnected : List RouterRef := (pairs net.connected).map Prod.snd

def getConnected (id : Id) : Option RouterRef := net.connected.lookup id

def maxInt64 : Int := 9223372036854775807

def maxInt32 : Int := 2147483647

/-- Addition of 64-bit numbers. -/
def add64 (a b : Int) : Int := (a + b).bmod (2 ^ 64)

/-- The two ends of a usable link. That its source is connected is not looked at. -/
def addNeighbors (routerId : Id) (neighbors : IdTable RouterRef) (l : LinkRef) : IdTable RouterRef :=
  let link := net.link l
  match link.dst with
  | none => neighbors
  | some dstRouter =>
    if (net.router dstRouter).connected && link.isUsable then
      let neighbors :=
        if (net.router link.src).id ≠ routerId then neighbors.insert (net.router link.src).id link.src else neighbors
      if link.dstId ≠ routerId then neighbors.insert link.dstId dstRouter else neighbors
    else neighbors

def neighborMap (router : RouterRef) : IdTable RouterRef :=
  (net.router router).routerLinks.allLinks.foldl (net.addNeighbors (net.router router).id) ∅

def connectedNeighborsOfRouter (router : RouterRef) : List RouterRef :=
  (pairs (net.neighborMap router)).map Prod.snd

def leastExpensiveLoop (net : Network) (routerId : Id) (selected : Option LinkRef) (cost : Int) :
    List LinkRef → Option LinkRef
  | [] => selected
  | l :: links =>
    let link := net.link l
    if link.isUsable ∧ (link.dstId = routerId ∨ (net.router link.src).id = routerId) ∧ link.getCost < cost then
      leastExpensiveLoop net routerId (some l) link.getCost links
    else leastExpensiveLoop net routerId selected cost links

def leastExpensiveLink (a b : RouterRef) : Option LinkRef :=
  leastExpensiveLoop net (net.router b).id none maxInt64
    ((net.router a).routerLinks.linksFor (net.router b).id)

def routerCost (r : RouterRef) : Int := max (net.router r).cost.toNat net.minRouterCost.toNat

end Network

end Zt.Topology
