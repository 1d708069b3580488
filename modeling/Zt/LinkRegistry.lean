import Zt.EdgeCtrl

namespace Zt.LinkRegistry

open Tables
open EdgeCtrl (Id IdTable)
open Function (update)

inductive LinkStatus
  | pending
  | dialing
  | queueFailed
  | dialFailed
  | linkFailed
  | destRemoved
  | established
  deriving DecidableEq

structure BackoffConfig where
  minRetryInterval : Nat
  maxRetryInterval : Nat

structure Dialer where
  binding : String
  groups : List String
  healthyBackoffConfig : BackoffConfig
  unhealthyBackoffConfig : BackoffConfig

structure Listener where
  address : String
  protocol : String
  groups : List String
  localBinding : String

/-- A link object. The reference tells it from other links with the same data. -/
structure Xlink where
  ref : Nat
  id : Id
  key : String
  iteration : Nat
  destinationId : Id
  isDialed : Bool
  deriving DecidableEq

structure LinkFault where
  linkId : Id
  iteration : Nat

abbrev StateRef := Nat

abbrev DestRef := Nat

structure LinkDest where
  id : Id
  version : String := ""
  healthy : Bool := true
  unhealthyAt : Nat := 0
  linkMap : Table String StateRef := ∅

structure LinkState where
  linkKey : String
  linkId : Id
  status : LinkStatus := .pending
  dialAttempts : Nat := 0
  connectedCount : Nat := 0
  retryDelay : Nat := 0
  nextDial : Nat := 0
  dest : DestRef
  listener : Listener
  dialer : Dialer
  allowedDials : Int := -1
  ctrlsNotified : Bool := false
  linkFaults : List LinkFault := []
  dialActive : Bool := false
  link : Option Xlink := none

def updateStatus (s : LinkState) (status : LinkStatus) : LinkState :=
  if s.status ≠ status then
    { s with status := status, link := if status ≠ .established then none else s.link }
  else s

def addPendingLinkFault (linkId : Id) (iteration : Nat) : List LinkFault → List LinkFault
  | [] => [⟨linkId, iteration⟩]
  | fault :: faults =>
    if fault.linkId = linkId then
      (if fault.iteration < iteration then { fault with iteration := iteration } else fault) :: faults
    else fault :: addPendingLinkFault linkId iteration faults

def clearFaultsForLinkId (linkId : Id) (faults : List LinkFault) : List LinkFault :=
  faults.filter (fun fault => decide (fault.linkId ≠ linkId))

def clearFault (toClear : LinkFault) (faults : List LinkFault) : List LinkFault :=
  faults.filter (fun fault => decide (fault.linkId ≠ toClear.linkId ∨ toClear.iteration < fault.iteration))

structure LinkDestUpdate where
  id : Id
  version : String
  healthy : Bool
  listeners : List Listener

/-- A dial that was handed to the dialer pool, and whether its state was then
the one stored for its key. -/
structure Dial where
  state : StateRef
  stored : Bool
  deriving DecidableEq

/-- Link states and destinations are objects: they outlive their entries in
the maps. The calls to Close and the dials started are logged. -/
structure Registry where
  dialers : List Dialer
  state : StateRef → LinkState
  dest : DestRef → LinkDest
  nextState : StateRef := 0
  nextDest : DestRef := 0
  destinations : IdTable DestRef := ∅
  linkStateQueue : List StateRef := []
  linkMap : Table String Xlink := ∅
  linkByIdMap : IdTable Xlink := ∅
  dupsRejected : Xlink → Nat := fun _ => 0
  closed : List Xlink := []
  dials : List Dial := []

def noBackoff : BackoffConfig := ⟨0, 0⟩

def newLinkRegistry (dialers : List Dialer) : Registry :=
  { dialers := dialers
    state := fun _ => { linkKey := "", linkId := "", dest := 0, listener := ⟨"", "", [], ""⟩,
                        dialer := ⟨"", [], noBackoff, noBackoff⟩ }
    dest := fun _ => { id := "" } }

/-- What a step finds outside of the registry: the clock when times are stored
and when they are compared, whether an old controller is connected, what the
random factor makes of a delay, the delay added after a failed registration,
the pool's answer to a dial and the next link ids. -/
structure Turn where
  now : Nat
  later : Nat
  legacyCtrl : Bool := false
  grown : StateRef → Nat → Nat := fun _ delay => delay
  extraDelay : Nat := 0
  queues : StateRef → Bool := fun _ => true
  newUUIDString : StateRef → Id

def getLinkKey (legacyCtrl : Bool) (dialerBinding protocol dest listenerBinding : String) : String :=
  (if dialerBinding = "" ∨ legacyCtrl = true then "default" else dialerBinding) ++ "->" ++ protocol ++ ":" ++ dest ++
    "->" ++ (if listenerBinding = "" ∨ legacyCtrl = true then "default" else listenerBinding)

section Operations

variable (turn : Turn) (reg : Registry)

def getLink (linkKey : String) : Option Xlink := reg.linkMap.lookup linkKey

variable (l : Xlink)

def isClosed : Bool := decide (l ∈ reg.closed)

def closeLink : Registry := { reg with closed := l :: reg.closed }

variable (st : StateRef)

def setState (f : LinkState → LinkState) : Registry :=
  { reg with state := update reg.state st (f (reg.state st)) }

variable (d : DestRef)

def setDest (f : LinkDest → LinkDest) : Registry :=
  { reg with dest := update reg.dest d (f (reg.dest d)) }

def destStates : List StateRef := (pairs (reg.dest d).linkMap).map Prod.snd

/-- The state is the one under its key in the destination that is registered. -/
def Stored : Prop :=
  reg.destinations.lookup (reg.dest (reg.state st).dest).id = some (reg.state st).dest ∧
    (reg.dest (reg.state st).dest).linkMap.lookup (reg.state st).linkKey = some st

instance (st : StateRef) : Decidable (Stored reg st) := inferInstanceAs (Decidable (_ ∧ _))

def backoffDelay (config : BackoffConfig) (delay : Nat) : Nat :=
  min (max delay config.minRetryInterval) config.maxRetryInterval

def dialFailed (applyFailed : Bool) : Registry :=
  let s := reg.state st
  let allowed := if s.allowedDials > 0 then s.allowedDials - 1 else s.allowedDials
  let reg := setState reg st (fun s => { s with allowedDials := allowed })
  if allowed = 0 then setDest reg s.dest (fun d => { d with linkMap := d.linkMap.erase s.linkKey })
  else
    let config :=
      if (reg.dest s.dest).healthy then s.dialer.healthyBackoffConfig else s.dialer.unhealthyBackoffConfig
    let delay := backoffDelay config (turn.grown st s.retryDelay)
    let nextDial := turn.now + delay + (if applyFailed then turn.extraDelay else 0)
    let reg := setState reg st (fun s => { s with retryDelay := delay, nextDial := nextDial })
    { reg with linkStateQueue := reg.linkStateQueue ++ [st] }

variable (s : LinkState)

def couldDial : Bool :=
  decide (s.status ≠ .established ∧ s.status ≠ .dialing ∧ s.nextDial < turn.later)

def startDial : LinkState :=
  { updateStatus s .dialing with dialActive := true, dialAttempts := s.dialAttempts + 1 }

def refuseDial : LinkState := updateStatus { s with dialActive := false } .queueFailed

def evaluateLinkState : Registry :=
  if couldDial turn (reg.state st) && !(reg.state st).dialActive then
    let dialing := setState reg st startDial
    if turn.queues st then { dialing with dials := ⟨st, decide (Stored reg st)⟩ :: reg.dials }
    else dialFailed turn (setState dialing st refuseDial) st false
  else reg

def removeDestState : Registry :=
  let reg := setState reg st (fun s => updateStatus s .destRemoved)
  match getLink reg (reg.state st).linkId with
  | none => reg
  | some l => closeLink reg l

def removeLinkDest (id : Id) : Registry :=
  match reg.destinations.lookup id with
  | none => reg
  | some d =>
    (destStates reg d).foldl removeDestState { reg with destinations := reg.destinations.erase id }

variable (u : LinkDestUpdate)

def newLinkState (d : DestRef) (listener : Listener) (dialer : Dialer) : LinkState :=
  { linkKey := getLinkKey turn.legacyCtrl dialer.binding listener.protocol u.id listener.localBinding
    linkId := turn.newUUIDString reg.nextState
    dest := d
    listener := listener
    dialer := dialer }

def addLinkState : Registry :=
  let added := setDest reg d (fun dest => { dest with linkMap := dest.linkMap.insert s.linkKey reg.nextState })
  { added with
    state := update reg.state reg.nextState s
    nextState := reg.nextState + 1 }

def closeStateLink : Registry :=
  match (reg.state st).link with
  | none => reg
  | some l => closeLink reg l

def takeListener (listener : Listener) : Registry :=
  let closed := if (reg.state st).listener.address ≠ listener.address then closeStateLink reg st else reg
  setState closed st (fun s => { s with listener := listener })

def redial : LinkState := { s with retryDelay := 0, nextDial := turn.now }

def applyListener (d : DestRef) (becameHealthy : Bool) (pair : Listener × Dialer) : Registry :=
  let s := newLinkState turn reg u d pair.1 pair.2
  match (reg.dest d).linkMap.lookup s.linkKey with
  | none => evaluateLinkState turn (addLinkState reg d s) reg.nextState
  | some st =>
    let reg := takeListener reg st pair.1
    if becameHealthy && decide ((reg.state st).status ≠ .established) then
      evaluateLinkState turn (setState reg st (redial turn)) st
    else reg

/-- The listeners with the dialers that share a group with them. -/
def matching : List (Listener × Dialer) :=
  u.listeners.flatMap (fun listener =>
    (reg.dialers.filter (fun dialer => dialer.groups.any (fun group => decide (group ∈ listener.groups)))).map
      (fun dialer => (listener, dialer)))

def matchedKeys : List String :=
  (matching reg u).map
    (fun pair => getLinkKey turn.legacyCtrl pair.2.binding pair.1.protocol u.id pair.1.localBinding)

def orphaned (d : DestRef) : List String :=
  (reg.dest d).linkMap.keys.filter (fun key => decide (key ∉ matchedKeys turn reg u))

def dropOrphan (key : String) : Registry :=
  match (reg.dest d).linkMap.lookup key with
  | none => reg
  | some st =>
    closeStateLink (setDest reg d (fun dest => { dest with linkMap := dest.linkMap.erase key })) st

def applyListenerChanges (d : DestRef) (becameHealthy : Bool) : Registry :=
  (orphaned turn reg u d).foldl (fun reg key => dropOrphan reg d key)
    ((matching reg u).foldl (fun reg pair => applyListener turn reg u d becameHealthy pair) reg)

def updateDest (d : LinkDest) (u : LinkDestUpdate) : LinkDest :=
  { d with
    unhealthyAt := if d.healthy && !u.healthy then turn.now else d.unhealthyAt
    healthy := u.healthy
    version := if u.healthy then u.version else d.version }

def addDest (id : Id) : Registry :=
  { reg with
    dest := update reg.dest reg.nextDest { id := id }
    nextDest := reg.nextDest + 1
    destinations := reg.destinations.insert id reg.nextDest }

def updateListeners (d : DestRef) (becameHealthy : Bool) : Registry :=
  let updated := setDest reg d (fun dest => updateDest turn dest u)
  if u.healthy then applyListenerChanges turn updated u d becameHealthy else updated

def linkDestUpdate : Registry :=
  match reg.destinations.lookup u.id with
  | none => updateListeners turn (addDest reg u.id) u reg.nextDest false
  | some d => updateListeners turn reg u d (!(reg.dest d).healthy && u.healthy)

/-- The state that the maps hold for a link. -/
def stateFor : Option StateRef :=
  (reg.destinations.lookup l.destinationId).bind (fun d => (reg.dest d).linkMap.lookup l.key)

def addFault (l : Xlink) : Registry :=
  setState reg st (fun s => { s with linkFaults := addPendingLinkFault l.id l.iteration s.linkFaults })

def linkEstablished (l : Xlink) : Registry :=
  setState reg st (fun s =>
    { s with connectedCount := s.connectedCount + 1, retryDelay := 0, ctrlsNotified := false, link := some l })

def linkFailed (l : Xlink) : Registry :=
  setState (addFault (evaluateLinkState turn (setState reg st (redial turn)) st) st l) st
    (fun s => { s with link := none })

def applyStatus (l : Xlink) (status : LinkStatus) : Registry :=
  let updated := setState reg st (fun s => updateStatus s status)
  match status with
  | .established => linkEstablished updated st l
  | .linkFailed => linkFailed turn updated st l
  | _ => updated

def updateLinkStatusForLink (status : LinkStatus) : Registry :=
  match stateFor reg l with
  | none => reg
  | some st => if (reg.state st).status = .destRemoved then reg else applyStatus turn reg st l status

def addLinkFaultForReplacedLink : Registry :=
  match stateFor reg l with
  | none => reg
  | some st => addFault reg st l

def updateLinkStatusToDialFailed (applyFailed : Bool) : Registry :=
  if (reg.state st).status = .dialing then
    dialFailed turn (setState reg st (fun s => updateStatus s .dialFailed)) st applyFailed
  else reg

def markNewLinksNotified (links : List (StateRef × Xlink)) : Registry :=
  links.foldl
    (fun reg pair =>
      if (reg.state pair.1).status = .established ∧ (reg.state pair.1).link = some pair.2 then
        setState reg pair.1 (fun s => { s with ctrlsNotified := true })
      else reg)
    reg

def markFaultedLinksNotified (successfullySent : List (StateRef × List LinkFault)) : Registry :=
  successfullySent.foldl
    (fun reg pair =>
      setState reg pair.1 (fun s =>
        { s with linkFaults := pair.2.foldl (fun faults fault => clearFault fault faults) s.linkFaults }))
    reg

/-- The entries of the retry queue that are evaluated come as an input. They
have to be due. The times of queued entries are changed without a repair of
the heap, so that the first entry need not be the earliest. -/
def evaluateLinkStateQueue (due : List StateRef) : Registry :=
  due.foldl
    (fun reg st =>
      if st ∈ reg.linkStateQueue ∧ (reg.state st).nextDial ≤ turn.now then
        evaluateLinkState turn { reg with linkStateQueue := reg.linkStateQueue.erase st } st
      else reg)
    reg

def hasOpenLink : Bool :=
  decide ((reg.state st).status = .established) &&
    (getLink reg (reg.state st).linkKey).any (fun l => !isClosed reg l)

def scanState : Registry :=
  let reg :=
    if (reg.state st).status = .established ∧ hasOpenLink reg st = false then
      setState reg st (fun s => updateStatus (redial turn s) .linkFailed)
    else reg
  evaluateLinkState turn reg st

def unreachableLimit : Nat := 48 * 60 * 60 * 1000000000

def expired : Bool :=
  !(reg.dest d).healthy && !((destStates reg d).any (hasOpenLink reg)) &&
    decide (unreachableLimit < turn.later - (reg.dest d).unhealthyAt)

def evaluateDestination (entry : Id × DestRef) : Registry :=
  let scanned := (destStates reg entry.2).foldl (scanState turn) reg
  if isEmpty (scanned.dest entry.2).linkMap || expired turn reg entry.2 then
    { scanned with destinations := scanned.destinations.erase entry.1 }
  else scanned

def evaluateDestinations : Registry :=
  (pairs reg.destinations).foldl (evaluateDestination turn) reg

structure Notices where
  links : List (StateRef × Xlink) := []
  faults : List (StateRef × List LinkFault) := []

def notifyEstablished : Registry × List (StateRef × Xlink) :=
  match getLink reg (reg.state st).linkKey with
  | none => (dialFailed turn (setState reg st (fun s => updateStatus s .dialFailed)) st false, [])
  | some l =>
    (setState reg st (fun s => { s with linkFaults := clearFaultsForLinkId l.id s.linkFaults }),
      if l.isDialed then [(st, l)] else [])

def notifyState (acc : Registry × Notices) (st : StateRef) : Registry × Notices :=
  let (reg, links) :=
    if (acc.1.state st).ctrlsNotified = false ∧ (acc.1.state st).status = .established then
      notifyEstablished turn acc.1 st
    else (acc.1, [])
  let faults := (reg.state st).linkFaults
  (reg, { links := acc.2.links ++ links
          faults := acc.2.faults ++ (if faults = [] then [] else [(st, faults)]) })

/-- The part of the notification round that works on the link states. The
notices it returns are sent by the pool. -/
def notifyControllersOfLinks : Registry × Notices :=
  ((pairs reg.destinations).flatMap (fun entry => destStates reg entry.2)).foldl (notifyState turn) (reg, {})

/-- If an existing link is kept, the new one is to be closed; if it is
replaced, it is to be closed. -/
def registerLink : Registry :=
  { reg with linkMap := reg.linkMap.insert l.key l, linkByIdMap := reg.linkByIdMap.insert l.id l }

def rejectsDuplicate (existing l : Xlink) : Bool :=
  decide (existing.id < l.id) && decide (reg.dupsRejected existing + 1 ≤ 5)

def countDuplicate (existing l : Xlink) : Registry :=
  if existing.id < l.id then
    { reg with dupsRejected := update reg.dupsRejected existing (reg.dupsRejected existing + 1) }
  else reg

inductive Applied
  | refused
  | kept (existing : Xlink)
  | reapplied
  | registered (replaced : Option Xlink)

def applyLink : Registry × Applied :=
  if isClosed reg l then (reg, .refused)
  else
    match getLink reg l.key with
    | none => (registerLink reg l, .registered none)
    | some existing =>
      if existing = l then (reg, .reapplied)
      else if rejectsDuplicate reg existing l then (countDuplicate reg existing l, .kept existing)
      else (registerLink (countDuplicate reg existing l) l, .registered (some existing))

/-- Also tells whether the link was the current one. -/
def linkClosed : Registry × Bool :=
  ({ reg with
      linkMap := if reg.linkMap.lookup l.key = some l then reg.linkMap.erase l.key else reg.linkMap
      linkByIdMap := if reg.linkByIdMap.lookup l.id = some l then reg.linkByIdMap.erase l.id else reg.linkByIdMap },
    decide (reg.linkMap.lookup l.key = some l))

def dialEnds : Registry := setState reg st (fun s => { s with dialActive := false })

end Operations

/-- The events of the registry's loop, its timers, and what is done to links
and dials beside it. -/
inductive Step
  | removeLinkDest (id : Id)
  | linkDestUpdate (u : LinkDestUpdate)
  | updateLinkStatusForLink (l : Xlink) (status : LinkStatus)
  | addLinkFaultForReplacedLink (l : Xlink)
  | updateLinkStatusToDialFailed (st : StateRef) (applyFailed : Bool)
  | markNewLinksNotified (links : List (StateRef × Xlink))
  | markFaultedLinksNotified (successfullySent : List (StateRef × List LinkFault))
  | evaluateLinkStateQueue (due : List StateRef)
  | evaluateDestinations
  | notifyControllersOfLinks
  | applyLink (l : Xlink)
  | linkClosed (l : Xlink)
  | closeLink (l : Xlink)
  | dialEnds (st : StateRef)

def step (reg : Registry) (a : Turn × Step) : Registry :=
  match a.2 with
  | .removeLinkDest id => removeLinkDest reg id
  | .linkDestUpdate u => linkDestUpdate a.1 reg u
  | .updateLinkStatusForLink l status => updateLinkStatusForLink a.1 reg l status
  | .addLinkFaultForReplacedLink l => addLinkFaultForReplacedLink reg l
  | .updateLinkStatusToDialFailed st applyFailed => updateLinkStatusToDialFailed a.1 reg st applyFailed
  | .markNewLinksNotified links => markNewLinksNotified reg links
  | .markFaultedLinksNotified successfullySent => markFaultedLinksNotified reg successfullySent
  | .evaluateLinkStateQueue due => evaluateLinkStateQueue a.1 reg due
  | .evaluateDestinations => evaluateDestinations a.1 reg
  | .notifyControllersOfLinks => (notifyControllersOfLinks a.1 reg).1
  | .applyLink l => (applyLink reg l).1
  | .linkClosed l => (linkClosed reg l).1
  | .closeLink l => closeLink reg l
  | .dialEnds st => dialEnds reg st

end Zt.LinkRegistry
