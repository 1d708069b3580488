import Zt.LinkRegistry

namespace Zt.LinkNotices

open LinkRegistry

/-- What becomes of a message to one controller: it is sent or fails on a
connected one; of the others some were in contact within two minutes. -/
inductive Outcome
  | sent
  | failed
  | brieflyAway
  | away
  deriving DecidableEq

/-- The notification round in the pool, with what is left to send. -/
structure Round where
  links : List (StateRef × Xlink)
  faults : List (StateRef × LinkFault)
  successfullySent : List (StateRef × LinkFault) := []

/-- The registry with the events queued for its loop, in no order, the
notification round under way, and a log: the links that a controller was told
of, the closed links with the number of faults sent before, the links whose
close event has been handled, and the faults sent to every connected controller. -/
structure System where
  reg : Registry
  events : List Step := []
  round : Option Round := none
  reported : List Xlink := []
  closedAt : List (Xlink × Nat) := []
  handled : List Xlink := []
  sent : List LinkFault := []

inductive Act
  | outside (turn : Turn) (s : Step)
  | applyLink (l : Xlink)
  | findLink (key : String)
  | linkClosed (l : Xlink)
  | handle (turn : Turn) (i : Nat)
  | notify (turn : Turn) (queued : Bool)
  | sendNewLinks (outcomes : List Outcome)
  | sendLinkFault (outcomes : List Outcome)
  | finish

/-- The steps that do not come from the registry's own events. -/
def isOutside : Step → Bool
  | .removeLinkDest _ => true
  | .linkDestUpdate _ => true
  | .updateLinkStatusToDialFailed _ _ => true
  | .evaluateLinkStateQueue _ => true
  | .evaluateDestinations => true
  | .closeLink _ => true
  | .dialEnds _ => true
  | _ => false

def closedBy : Step → List Xlink
  | .updateLinkStatusForLink l .linkFailed => [l]
  | .addLinkFaultForReplacedLink l => [l]
  | _ => []

variable (sys : System)

def applyLink (l : Xlink) : System :=
  match LinkRegistry.applyLink sys.reg l with
  | (reg, .registered _) =>
    { sys with reg := reg, events := sys.events ++ [.updateLinkStatusForLink l .established] }
  | (reg, _) => { sys with reg := reg }

/-- A dial that finds a link for its key has the state marked as established. -/
def findLink (key : String) : System :=
  match getLink sys.reg key with
  | none => sys
  | some l => { sys with events := sys.events ++ [.updateLinkStatusForLink l .established] }

/-- A link is reported closed once, after it was closed. -/
def linkClosed (l : Xlink) : System :=
  if isClosed sys.reg l ∧ l ∉ sys.closedAt.map Prod.fst then
    let closed := LinkRegistry.linkClosed sys.reg l
    { sys with
      reg := closed.1
      events := sys.events ++
        [if closed.2 then .updateLinkStatusForLink l .linkFailed else .addLinkFaultForReplacedLink l]
      closedAt := (l, sys.sent.length) :: sys.closedAt }
  else sys

def handle (turn : Turn) (i : Nat) : System :=
  match sys.events[i]? with
  | none => sys
  | some e =>
    { sys with
      reg := step sys.reg (turn, e)
      events := sys.events.eraseIdx i
      handled := closedBy e ++ sys.handled }

def notify (turn : Turn) (queued : Bool) : System :=
  if sys.round.isSome then sys
  else
    let (reg, notices) := notifyControllersOfLinks turn sys.reg
    let faults := notices.faults.flatMap (fun pair => pair.2.map (fun fault => (pair.1, fault)))
    { sys with
      reg := reg
      round := if (notices.links = [] ∧ faults = []) ∨ queued = false then none else some ⟨notices.links, faults, []⟩ }

/-- The links go in one message, before the faults. -/
def sendNewLinks (outcomes : List Outcome) : System :=
  match sys.round with
  | none => sys
  | some r =>
    { sys with
      round := some { r with links := [] }
      reported := if .sent ∈ outcomes then r.links.map Prod.snd ++ sys.reported else sys.reported
      events := if r.links = [] ∨ .failed ∈ outcomes then sys.events
        else sys.events ++ [.markNewLinksNotified r.links] }

def sendLinkFault (outcomes : List Outcome) : System :=
  match sys.round with
  | some ⟨[], (st, fault) :: faults, successfullySent⟩ =>
    if .failed ∈ outcomes ∨ .brieflyAway ∈ outcomes then { sys with round := some ⟨[], faults, successfullySent⟩ }
    else
      { sys with
        round := some ⟨[], faults, successfullySent ++ [(st, fault)]⟩
        sent := sys.sent ++ [fault] }
  | _ => sys

def finish : System :=
  match sys.round with
  | some ⟨[], [], successfullySent⟩ =>
    { sys with
      round := none
      events := if successfullySent = [] then sys.events
        else sys.events ++ [.markFaultedLinksNotified (successfullySent.map (fun pair => (pair.1, [pair.2])))] }
  | _ => sys

def act : Act → System
  | .outside turn s => if isOutside s then { sys with reg := step sys.reg (turn, s) } else sys
  | .applyLink l => applyLink sys l
  | .findLink key => findLink sys key
  | .linkClosed l => linkClosed sys l
  | .handle turn i => handle sys turn i
  | .notify turn queued => notify sys turn queued
  | .sendNewLinks outcomes => sendNewLinks sys outcomes
  | .sendLinkFault outcomes => sendLinkFault sys outcomes
  | .finish => finish sys

def newSystem (dialers : List Dialer) : System := { reg := newLinkRegistry dialers }

/-- The fault stands for the closing of the link or of a later one with its id. -/
def covers (fault : LinkFault) (l : Xlink) : Prop := fault.linkId = l.id ∧ l.iteration ≤ fault.iteration

def Pending (reg : Registry) (l : Xlink) : Prop :=
  ∃ st, Stored reg st ∧ ∃ fault ∈ (reg.state st).linkFaults, covers fault l

def Superseded (reg : Registry) (l : Xlink) : Prop :=
  ∃ st, Stored reg st ∧ (reg.state st).status = .established ∧
    ∃ l', (reg.state st).link = some l' ∧ l'.id = l.id ∧ l.iteration < l'.iteration

def SentSince (l : Xlink) : Prop :=
  ∃ n, (l, n) ∈ sys.closedAt ∧ ∃ fault ∈ sys.sent.drop n, covers fault l

/-- Every closed link that a controller knows of is accounted for. -/
def Accounted : Prop :=
  ∀ l ∈ sys.handled, l.isDialed = true → l ∈ sys.reported →
    Pending sys.reg l ∨ SentSince sys l ∨ Superseded sys.reg l

/-- What a step may do to a pending fault: keep it, clear it after it or a
later one was sent, or clear it because a link with its id is established. -/
def ClearsRightly (a : Act) : Prop :=
  ∀ st, Stored sys.reg st → ∀ fault ∈ (sys.reg.state st).linkFaults,
    (Stored (act sys a).reg st ∧ ∃ fault' ∈ ((act sys a).reg.state st).linkFaults,
      fault'.linkId = fault.linkId ∧ fault.iteration ≤ fault'.iteration) ∨
    (∃ turn i successfullySent, a = .handle turn i ∧
      sys.events[i]? = some (.markFaultedLinksNotified successfullySent) ∧
      ∃ pair ∈ successfullySent, pair.1 = st ∧ ∃ fault' ∈ pair.2, fault' ∈ sys.sent ∧
        fault'.linkId = fault.linkId ∧ fault.iteration ≤ fault'.iteration) ∨
    (∃ turn queued, a = .notify turn queued ∧ (sys.reg.state st).status = .established ∧
      ∃ l, getLink sys.reg (sys.reg.state st).linkKey = some l ∧ l.id = fault.linkId)

end Zt.LinkNotices
