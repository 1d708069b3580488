import Zt.RouteMessages

namespace Zt.CircuitCreation

open Tables Topology NetworkPaths RouteMessages
open EdgeCtrl (Id IdTable IdSet)

abbrev PeerData := Table Nat String

structure RouteStatus where
  router : Id
  attempt : Nat
  success : Bool
  err : String := ""
  peerData : PeerData := ∅
  errorCode : Option UInt8 := none

abbrev CircuitError := CircuitFailureCause × String

inductive ServiceCounter
  | dialSuccess
  | dialFail
  | dialTimeout
  | invalidTerminator
  | misconfiguredTerminator
  | terminatorTimeout
  | terminatorConnectionRefused
  deriving DecidableEq

/-- What a creation tells the strategy of the service, the counters, the
terminator manager and the listeners for circuit events. -/
inductive Notice
  | dialSucceeded (terminatorId : Id)
  | dialFailed (terminatorId : Id)
  | count (counter : ServiceCounter) (serviceId terminatorId : Id)
  | countOtherError (serviceId : Id)
  | deleteTerminator (terminatorId : Id)
  | failPrecedence (terminatorId : Id)
  | circuitFailed (circuitId : Id) (cause : CircuitFailureCause)
  | circuitCreated (circuitId : Id)
  deriving DecidableEq

/-- One sender serves all attempts of a circuit. -/
structure RouteSender where
  circuitId : Id
  attendance : IdTable Bool := ∅

def errorCause (terminator : Terminator) (errorCode : Option UInt8) : CircuitFailureCause × List Notice :=
  let counted (counter : ServiceCounter) := Notice.count counter terminator.serviceId terminator.id
  match (errorCode.getD 0).toNat with
  | 0 => (.routerErrGeneric, [.countOtherError terminator.serviceId])
  | 1 =>
    if terminator.binding = "edge" ∨ terminator.binding = "tunnel" then
      (.routerErrInvalidTerminator, [counted .invalidTerminator, .deleteTerminator terminator.id])
    else
      (.routerErrMisconfiguredTerminator, [counted .misconfiguredTerminator, .failPrecedence terminator.id])
  | 3 => (.routerErrDialTimedOut, [counted .terminatorTimeout])
  | 4 => (.routerErrDialConnRefused, [counted .terminatorConnectionRefused])
  | _ => (.routerErrGeneric, [])

namespace RouteSender

variable (self : RouteSender) (attempt : Nat) (nodes : List Id) (terminator : Terminator)

def expect : RouteSender := { self with attendance := nodes.foldl (fun t id => t.insert id false) self.attendance }

def cleanups : IdSet := addAll ∅ (nodes.filter (fun id => self.attendance.lookup id == some true))

def allPresent : Bool := (pairs self.attendance).all Prod.snd

def succeeded (status : RouteStatus) : RouteSender × List Notice × Option PeerData :=
  if status.attempt = attempt then
    let self := { self with attendance := self.attendance.insert status.router true }
    if status.router = terminator.routerId then
      (self, [.dialSucceeded terminator.id, .count .dialSuccess terminator.serviceId terminator.id],
        some status.peerData)
    else (self, [], none)
  else (self, [], none)

def failed (status : RouteStatus) : List Notice × CircuitError :=
  let (failureCause, notices) := errorCause terminator status.errorCode
  (notices ++ (if status.router = terminator.routerId then
      [.dialFailed terminator.id, .count .dialFail terminator.serviceId terminator.id] else []),
    failureCause, "error creating route for [s/" ++ self.circuitId ++ "] on [r/" ++ status.router ++ "] (" ++
      status.err ++ ")")

/-- Statuses of other attempts are logged and dropped. -/
def handleRouteSend (status : RouteStatus) :
    RouteSender × List Notice × Except (IdSet × CircuitError) (Option PeerData) :=
  if status.success then
    let (self, notices, peerData) := self.succeeded attempt terminator status
    (self, notices, .ok peerData)
  else if status.attempt = attempt then
    let (notices, err) := self.failed terminator status
    (self, notices, .error (self.cleanups nodes, err))
  else (self, [], .ok none)

end RouteSender

/-- A call of route, with the statuses that it took from the channel. -/
structure Routed where
  sender : RouteSender
  notices : List Notice
  consumed : List RouteStatus
  result : Except (IdSet × CircuitError) (Option PeerData)

namespace RouteSender

variable (attempt : Nat) (nodes : List Id) (terminator : Terminator)

/-- The deadline passes when there are no more statuses. -/
def await (self : RouteSender) (peerData : Option PeerData) : List RouteStatus → Routed
  | [] =>
    { sender := self
      notices := [.dialFailed terminator.id, .count .dialTimeout terminator.serviceId terminator.id]
      consumed := []
      result := .error (self.cleanups nodes, .routerResponseTimeout,
        "timeout creating routes for [s/" ++ self.circuitId ++ "]") }
  | status :: statuses =>
    match self.handleRouteSend attempt nodes terminator status with
    | (self, notices, .error err) => ⟨self, notices, [status], .error err⟩
    | (self, notices, .ok tmpPeerData) =>
      let peerData := if tmpPeerData.isSome ∧ status.attempt = attempt ∧ status.router = terminator.routerId then
        tmpPeerData else peerData
      if self.allPresent then ⟨self, notices, [status], .ok peerData⟩
      else
        let later := await self peerData statuses
        { later with notices := notices ++ later.notices, consumed := status :: later.consumed }

def route (self : RouteSender) (statuses : List RouteStatus) : Routed :=
  (self.expect nodes).await attempt nodes terminator none statuses

end RouteSender

/-- The path that selectPath returns ends at the router of the terminator. -/
structure Selection (net : Network) where
  terminator : Terminator
  pathNodes : List RouterRef
  strategyData : PeerData := ∅
  hosted : terminator.routerId ∈ pathNodes.map (fun r => (net.router r).id)

/-- What one pass of the loop in CreateCircuit meets. -/
structure Pass where
  net : Network
  service : Except String Unit := .ok ()
  selected : Except CircuitError (Selection net)
  newIngressId : Except String Id
  newEgressId : Except String Id
  remainingTime : Nat := 0
  statuses : List RouteStatus := []

structure CircuitParams where
  circuitId : Id
  clientId : Id
  clientData : PeerData := ∅
  serviceId : Id
  createCircuitRetries : Nat

structure Circuit where
  id : Id
  clientId : Id
  serviceId : Id
  terminator : Terminator
  path : Path
  peerData : PeerData

/-- An attempt to route a circuit, as the sender saw it. -/
structure Attempt where
  attempt : Nat
  terminator : Terminator
  nodes : List Id
  sent : List (RouterRef × Route)
  consumed : List RouteStatus
  succeeded : Bool

/-- The circuit that was added to the circuit manager comes with the ids of its
routers. -/
structure Outcome where
  created : Except String (Circuit × List Id)
  unroutes : List Id := []
  notices : List Notice
  attempts : List Attempt := []

def terminatorLocalAddressHeader : Nat := 1110

def terminatorRemoteAddressHeader : Nat := 1111

def initiatorLocalAddressHeader : Nat := 1112

def initiatorRemoteAddressHeader : Nat := 1113

def addressHeaders : List Nat :=
  [initiatorLocalAddressHeader, initiatorRemoteAddressHeader, terminatorLocalAddressHeader,
    terminatorRemoteAddressHeader]

/-- The service, the terminator and the path of an attempt. -/
def Pass.prepare (pass : Pass) : Except CircuitError (Selection pass.net × Path) :=
  match pass.service with
  | .error err => .error (.invalidService, err)
  | .ok _ =>
    match pass.selected with
    | .error err => .error err
    | .ok selection =>
      match createPathWithNodes pass.net pass.newIngressId pass.newEgressId selection.pathNodes with
      | .error err => .error err
      | .ok path => .ok (selection, path)

section Creating

variable (params : CircuitParams) (connected : Id → Bool)

def newCircuit (terminator : Terminator) (path : Path) (peerData strategyData : PeerData) : Circuit where
  id := params.circuitId
  clientId := params.clientId
  serviceId := params.serviceId
  terminator := terminator
  path :=
    { path with
      initiatorLocalAddr := (params.clientData.lookup initiatorLocalAddressHeader).getD ""
      initiatorRemoteAddr := (params.clientData.lookup initiatorRemoteAddressHeader).getD ""
      terminatorLocalAddr := (peerData.lookup terminatorLocalAddressHeader).getD ""
      terminatorRemoteAddr := (peerData.lookup terminatorRemoteAddressHeader).getD "" }
  peerData := (pairs strategyData).foldl (fun t e => t.insert e.1 e.2) (removeAll peerData addressHeaders)

/-- The errors before routing return at once, whatever earlier attempts left. -/
def stopped (err : CircuitError) : Outcome where
  created := .error err.2
  notices := [.circuitFailed params.circuitId err.1, .countOtherError params.serviceId]

def exhausted (allCleanups : IdSet) (err : CircuitError) : Outcome where
  created := .error ("exceeded maximum [" ++ toString params.createCircuitRetries ++ "] retries creating circuit [c/" ++
    params.circuitId ++ "] (" ++ err.2 ++ ")")
  unroutes := allCleanups.keys.filter connected
  notices := []

/-- Routers of earlier attempts that the path does not use are unrouted. -/
def completed (allCleanups : IdSet) (usedRouters : List Id) (circuit : Circuit) : Outcome where
  created := .ok (circuit, usedRouters)
  unroutes := allCleanups.keys.filter (fun id => decide (id ∉ usedRouters) && connected id)
  notices := [.circuitCreated params.circuitId]

/-- An outcome with what an attempt before it did. -/
def Outcome.after (outcome : Outcome) (attempt : Attempt) (notices : List Notice) : Outcome :=
  { outcome with notices := notices ++ outcome.notices, attempts := attempt :: outcome.attempts }

def routerIds (net : Network) (path : Path) : List Id := path.nodes.map (fun r => (net.router r).id)

def Pass.routed (pass : Pass) (sender : RouteSender) (attempt : Nat) (terminator : Terminator) (path : Path) : Routed :=
  sender.route attempt (routerIds pass.net path) terminator pass.statuses

def Pass.tried (pass : Pass) (attempt : Nat) (terminator : Terminator) (path : Path) (consumed : List RouteStatus)
    (succeeded : Bool) : Attempt where
  attempt := attempt
  terminator := terminator
  nodes := routerIds pass.net path
  sent := path.nodes.zip
    (createRouteMessages pass.net path attempt params.circuitId terminator pass.remainingTime)
  consumed := consumed
  succeeded := succeeded

/-- The attempts of a circuit. The passes that the loop did not need are left. -/
def attempts (sender : RouteSender) (attempt : Nat) (allCleanups : IdSet) :
    List Pass → Option (Outcome × List Pass)
  | [] => none
  | pass :: passes =>
    match pass.prepare with
    | .error err => some (stopped params err, passes)
    | .ok (selection, path) =>
      let routed := pass.routed sender attempt selection.terminator path
      let tried := pass.tried params attempt selection.terminator path routed.consumed
      match routed.result with
      | .error (cleanups, err) =>
        let allCleanups := addAll allCleanups cleanups.keys
        let notices := routed.notices ++ [.circuitFailed params.circuitId err.1]
        if attempt + 1 < params.createCircuitRetries then
          (attempts routed.sender (attempt + 1) allCleanups passes).map
            (fun later => (later.1.after (tried false) notices, later.2))
        else some ((exhausted params connected allCleanups err).after (tried false) notices, passes)
      | .ok peerData =>
        let circuit := newCircuit params selection.terminator path (peerData.getD ∅) selection.strategyData
        some ((completed params connected allCleanups (routerIds pass.net path) circuit).after (tried true)
          routed.notices, passes)

def createCircuit (passes : List Pass) : Option (Outcome × List Pass) :=
  attempts params connected { circuitId := params.circuitId } 0 ∅ passes

end Creating

end Zt.CircuitCreation
