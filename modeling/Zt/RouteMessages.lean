import Zt.NetworkPaths

namespace Zt.RouteMessages

open Tables Topology NetworkPaths
open EdgeCtrl (Id IdTable)

abbrev Address := String

inductive DestType
  | destStart
  | destEnd
  | destLink
  deriving DecidableEq

structure RouteForward where
  srcAddress : Address
  dstAddress : Address
  dstType : DestType
  deriving DecidableEq

structure RouteEgress where
  binding : String
  address : Address
  destination : String
  deriving DecidableEq

structure Route where
  circuitId : Id
  attempt : Nat
  timeout : Nat
  forwards : List RouteForward := []
  egress : Option RouteEgress := none

structure Terminator where
  id : Id
  serviceId : Id
  routerId : Id
  binding : String
  address : String

def smartRerouteAttempt : Nat := 99969996

section Messages

variable (net : Network) (path : Path) (attempt : Nat) (circuitId : Id) (terminator : Terminator) (remainingTime : Nat)

def dial : RouteEgress := ⟨terminator.binding, path.egressId, terminator.address⟩

/-- The one router of a path without links dials on every attempt. -/
def singleMessage : Route :=
  { circuitId := circuitId, attempt := attempt, timeout := remainingTime,
    forwards := [⟨path.ingressId, path.egressId, .destEnd⟩, ⟨path.egressId, path.ingressId, .destStart⟩],
    egress := some (dial path terminator) }

def ingressMessage (link : Id) : Route :=
  { circuitId := circuitId, attempt := attempt, timeout := remainingTime,
    forwards := [⟨path.ingressId, link, .destLink⟩, ⟨link, path.ingressId, .destStart⟩] }

def transitMessage (link nextLink : Id) : Route :=
  { circuitId := circuitId, attempt := attempt, timeout := remainingTime,
    forwards := [⟨link, nextLink, .destLink⟩, ⟨nextLink, link, .destLink⟩] }

def egressMessage (link : Id) : Route :=
  { circuitId := circuitId, attempt := attempt, timeout := remainingTime,
    forwards := [⟨path.egressId, link, .destLink⟩, ⟨link, path.egressId, .destEnd⟩],
    egress := if attempt ≠ smartRerouteAttempt then some (dial path terminator) else none }

def linkIds : List Id := path.links.map (fun l => (net.link l).id)

/-- The messages of one pass over the links, at link number i. -/
def messagesAt (i : Nat) (link : Id) (nextLink : Option Id) : List Route :=
  (if i = 0 then [ingressMessage path attempt circuitId remainingTime link] else []) ++ match nextLink with
    | some nextLink => [transitMessage attempt circuitId remainingTime link nextLink]
    | none => [egressMessage path attempt circuitId terminator remainingTime link]

def messagesFrom (i : Nat) : List Id → List Route
  | [] => []
  | link :: links =>
    messagesAt path attempt circuitId terminator remainingTime i link links.head? ++ messagesFrom (i + 1) links

def createRouteMessages : List Route :=
  (if path.links.isEmpty then [singleMessage path attempt circuitId terminator remainingTime] else []) ++
    messagesFrom path attempt circuitId terminator remainingTime 0 (linkIds net path)

end Messages

/-- A router's forwarder, with the forward tables of its circuits and the
addresses that it has destinations for. -/
structure Forwarder where
  circuits : IdTable (Table Address Address) := ∅
  destinations : KeySet Address := ∅

variable (self : Forwarder)

namespace Forwarder

def getForwardTable (circuitId : Id) : Table Address Address :=
  (self.circuits.lookup circuitId).getD ∅

def hasDestination (address : Address) : Bool := decide (address ∈ self.destinations)

/-- An ingress is not established until after routing. -/
def invalidDestination (forward : RouteForward) : Option String :=
  if self.hasDestination forward.dstAddress then none
  else match forward.dstType with
    | .destLink => some ("invalid link destination " ++ forward.dstAddress)
    | .destEnd => some ("invalid egress destination " ++ forward.dstAddress)
    | .destStart => none

def setForwards (self : Forwarder) (circuitFt : Table Address Address) :
    List RouteForward → Table Address Address × Option String
  | [] => (circuitFt, none)
  | forward :: forwards =>
    match self.invalidDestination forward with
    | some err => (circuitFt, some err)
    | none => setForwards self (circuitFt.insert forward.srcAddress forward.dstAddress) forwards

/-- A table that the circuit already has keeps what was set before an error. -/
def route (self : Forwarder) (route : Route) : Forwarder × Option String :=
  match setForwards self (self.getForwardTable route.circuitId) route.forwards with
  | (circuitFt, none) => ({ self with circuits := self.circuits.insert route.circuitId circuitFt }, none)
  | (circuitFt, some err) =>
    if route.circuitId ∈ self.circuits then
      ({ self with circuits := self.circuits.insert route.circuitId circuitFt }, some err)
    else (self, some err)

/-- The address that a payload is sent on to. -/
def forwardPayload (circuitId : Id) (srcAddr : Address) : Except String Address :=
  match self.circuits.lookup circuitId with
  | none => .error ("cannot forward payload, no forward table for circuit=" ++ circuitId ++ " src=" ++ srcAddr)
  | some forwardTable =>
    match forwardTable.lookup srcAddr with
    | none =>
      .error ("cannot forward payload, no destination address for circuit=" ++ circuitId ++ " src=" ++ srcAddr)
    | some dstAddr =>
      if self.hasDestination dstAddr then .ok dstAddr
      else .error ("cannot forward payload, no destination for circuit=" ++ circuitId ++ " src=" ++ srcAddr ++
        " dst=" ++ dstAddr)

end Forwarder

end Zt.RouteMessages
