import Zt.TaskPools
import Zt.Topology

namespace Zt.LinkIndexes

open Tables Topology TaskPools
open EdgeCtrl (Id)
open Function (update)

structure ReportedLink where
  id : Id
  iteration : Nat
  destRouterId : Id
  deriving DecidableEq

section Operations

variable (net : Network) (r : RouterRef)

def updateLinks (f : RouterLinks → RouterLinks) : Network :=
  { net with
    router := update net.router r { net.router r with routerLinks := f (net.router r).routerLinks } }

def setConnected (connected : Bool) : Network :=
  { net with router := update net.router r { net.router r with connected := connected } }

variable (l : LinkRef)

def storeDst (r : RouterRef) : Network :=
  { net with link := update net.link l { net.link l with dst := some r } }

def tableLinks : List LinkRef := (pairs net.links).map Prod.snd

def buildRouterLink (l : LinkRef) : Network :=
  if (net.link l).dstId = (net.router r).id then
    storeDst (updateLinks net r (fun links => links.add l (net.router (net.link l).src).id)) l r
  else net

/-- The links come in the order in which the table is gone through. -/
def buildRouterLinks (order : List LinkRef) (r : RouterRef) : Network :=
  order.foldl (fun net l => buildRouterLink net r l) net

def markConnected : Network :=
  { setConnected net r true with connected := net.connected.insert (net.router r).id r }

/-- A router that has been replaced by a newer one leaves that one alone. -/
def markDisconnected : Network :=
  { setConnected net r false with
    connected := if net.connected.lookup (net.router r).id = some r then net.connected.erase (net.router r).id
      else net.connected }

def clearLinks : Network := updateLinks net r (fun _ => RouterLinks.clear)

def tableAdd (link : Link) : Network :=
  { net with link := update net.link l link, links := net.links.insert link.id l }

/-- Only the iterations are compared. -/
def tableRemove : Option Network :=
  match net.links.lookup (net.link l).id with
  | none => none
  | some v =>
    if (net.link v).iteration = (net.link l).iteration then
      some { net with links := net.links.erase (net.link l).id }
    else none

def addSrc : Network :=
  updateLinks net (net.link l).src (fun links => links.add l (net.link l).dstId)

def addDst : Network :=
  match (net.link l).dst with
  | some dest => updateLinks net dest (fun links => links.add l (net.router (net.link l).src).id)
  | none => net

def removeSrc : Network :=
  updateLinks net (net.link l).src (fun links => links.remove l (net.link l).dstId)

def removeDst : Network :=
  match (net.link l).dst with
  | some dest => updateLinks net dest (fun links => links.remove l (net.router (net.link l).src).id)
  | none => net

def setFailed : Network :=
  { net with link := update net.link l { net.link l with mode := .failed } }

end Operations

/-- Links that are still to be removed. The one that is no longer in the table
is yet to leave the index of its source, or only that of its destination. -/
structure Removal where
  unindex : Option (LinkRef × Bool) := none
  left : List LinkRef := []
  deriving DecidableEq

inductive Phase
  | lookup
  | report (dst : Option RouterRef)
  | create (dst : Option RouterRef)
  | addSrc (l : LinkRef)
  | addDst (l : LinkRef)
  deriving DecidableEq

/-- What an operation does next when its links are removed. -/
inductive Stage
  | done
  | mark (r : RouterRef)
  | unmark (r : RouterRef)
  | clear (r : RouterRef)
  | reporting (src : RouterRef) (reported : ReportedLink) (phase : Phase)
  deriving DecidableEq

structure Task where
  removal : Removal := {}
  stage : Stage := .done
  deriving DecidableEq

/-- The lock of the link manager is held by a report from when it looks at the
table until the link is indexed. -/
def Task.locks (t : Task) : Bool :=
  match t.stage with
  | .reporting _ _ (.create _) => true
  | .reporting _ _ (.addSrc _) => true
  | .reporting _ _ (.addDst _) => true
  | _ => false

/-- The link objects are numbered as they are made. Connections bring router
objects that were not seen before. -/
structure Shared where
  net : Network
  nextLink : LinkRef := 0
  seen : List RouterRef := []

variable (net : Network)

def advanceRemoval (removal : Removal) : Option (Network × Removal) :=
  match removal.unindex with
  | some (l, false) => some (removeSrc net l, ⟨some (l, true), removal.left⟩)
  | some (l, true) => some (removeDst net l, ⟨none, removal.left⟩)
  | none =>
    match removal.left with
    | [] => none
    | l :: left =>
      match tableRemove net l with
      | some net => some (net, ⟨some (l, false), left⟩)
      | none => some (net, ⟨none, left⟩)

def newLink (src : RouterRef) (dst : Option RouterRef) (reported : ReportedLink) : Link :=
  { id := reported.id, src := src, dstId := reported.destRouterId, dst := dst, iteration := reported.iteration }

/-- An older link is removed before the new one is added. -/
def routerReportedLink (src : RouterRef) (dst : Option RouterRef) (reported : ReportedLink) : Task :=
  match net.links.lookup reported.id with
  | none => { stage := .reporting src reported (.create dst) }
  | some link =>
    if reported.iteration ≤ (net.link link).iteration then {}
    else { removal := { left := [link] }, stage := .reporting src reported (.create dst) }

def advanceReport (lockFree : Bool) (s : Shared) (src : RouterRef) (reported : ReportedLink) :
    Phase → Option (Shared × Task)
  | .lookup => some (s, { stage := .reporting src reported (.report (s.net.getConnected reported.destRouterId)) })
  | .report dst => if lockFree then some (s, routerReportedLink s.net src dst reported) else none
  | .create dst =>
    some ({ s with net := tableAdd s.net s.nextLink (newLink src dst reported), nextLink := s.nextLink + 1 },
      { stage := .reporting src reported (.addSrc s.nextLink) })
  | .addSrc l => some ({ s with net := addSrc s.net l }, { stage := .reporting src reported (.addDst l) })
  | .addDst l => some ({ s with net := addDst s.net l }, {})

def advanceStage (lockFree : Bool) (s : Shared) : Stage → Option (Shared × Task)
  | .done => none
  | .mark r => some ({ s with net := markConnected s.net r }, {})
  | .unmark r => some ({ s with net := markDisconnected s.net r }, { stage := .clear r })
  | .clear r => some ({ s with net := clearLinks s.net r }, {})
  | .reporting src reported phase => advanceReport lockFree s src reported phase

def advance (others : List Task) (s : Shared) (t : Task) : Option (Shared × Task) :=
  match advanceRemoval s.net t.removal with
  | some (net, removal) => some ({ s with net := net }, { t with removal := removal })
  | none => advanceStage (others.all (fun u => !u.locks)) s t.stage

inductive Operation
  | connectRouter (r : RouterRef) (order : List LinkRef)
  | disconnectRouter (r : RouterRef)
  | notifyExistingLink (srcRouter : RouterRef) (reported : ReportedLink)
  | linkFaulted (linkId : Id)
  | scanForDeadLinks (order : List LinkRef)

def isCurrent (r : RouterRef) : Bool :=
  decide (net.getConnected (net.router r).id = some r) && (net.router r).connected

/-- A message from an old connection is ignored. -/
def notifyExistingLink (srcRouter : RouterRef) (reported : ReportedLink) : Task :=
  if isCurrent net srcRouter then { stage := .reporting srcRouter reported .lookup } else {}

/-- Each operation with its first step. -/
def start (s : Shared) : Operation → Option (Shared × Task)
  | .connectRouter r order =>
    if r ∉ s.seen ∧ order.isPerm (tableLinks s.net) = true then
      some ({ s with net := buildRouterLinks s.net order r, seen := r :: s.seen }, { stage := .mark r })
    else none
  | .disconnectRouter r =>
    let own := (s.net.router r).routerLinks.allLinks.filter
      (fun l => (s.net.router (s.net.link l).src).id = (s.net.router r).id)
    some (s, { removal := { left := own }, stage := .unmark r })
  | .notifyExistingLink srcRouter reported => some (s, notifyExistingLink s.net srcRouter reported)
  | .linkFaulted linkId =>
    match s.net.links.lookup linkId with
    | none => some (s, {})
    | some l => some ({ s with net := setFailed s.net l }, { removal := { left := [l] } })
  | .scanForDeadLinks order =>
    if order.isPerm (tableLinks s.net) = true then
      let dead := order.filter (fun l => !(s.net.router (s.net.link l).src).connected)
      some (s, { removal := { left := dead } })
    else none

def linkMachine : Machine Shared Task Operation where
  begins := start
  advances := advance

end Zt.LinkIndexes
