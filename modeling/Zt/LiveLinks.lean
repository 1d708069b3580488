import Zt.LinkRuns
import Zt.PathSelection

namespace Zt.LiveLinks

open Tables Topology NetworkPaths
open EdgeCtrl (Id)
open PathLinks (Connected)

section Pruning

def isLive (net : Network) (l : LinkRef) : Bool :=
  match (net.link l).dst with
  | some dest => (net.router dest).connected
  | none => false

def liveRouterLinks (net : Network) (links : RouterLinks) : RouterLinks where
  allLinks := links.allLinks.filter (isLive net)
  linkByRouter := collect links.linkByRouter (fun _ ls => some (ls.filter (isLive net)))

/-- The network with only the links whose destination is connected. -/
def live (net : Network) : Network :=
  { net with
    router := fun r => { net.router r with routerLinks := liveRouterLinks net (net.router r).routerLinks }
    links := collect net.links (fun _ l => if isLive net l then some l else none) }

variable {net : Network} {a b r : RouterRef} {l : LinkRef} {routerId : Id}

theorem linksFor_live (links : RouterLinks) (id : Id) :
    (liveRouterLinks net links).linksFor id = (links.linksFor id).filter (isLive net) := by
  simp only [liveRouterLinks, RouterLinks.linksFor, lookup_collect]
  cases links.linkByRouter.lookup id <;> rfl

theorem links_live {id : Id} :
    (live net).links.lookup id = some l ↔ net.links.lookup id = some l ∧ isLive net l = true := by
  simp only [live, lookup_collect]
  cases net.links.lookup id with
  | none => simp
  | some x =>
    simp only [Option.bind_some, Option.some.injEq]
    split
    · rename_i hx
      constructor
      · intro h
        cases h
        exact ⟨rfl, hx⟩
      · rintro ⟨rfl, -⟩
        rfl
    · rename_i hx
      constructor
      · intro h
        cases h
      · rintro ⟨rfl, hl⟩
        exact absurd hl hx

/-- Links that are not live are passed over anyway. -/
theorem addNeighbors_live {links : List LinkRef} (neighbors : EdgeCtrl.IdTable RouterRef) :
    (links.filter (isLive net)).foldl ((live net).addNeighbors routerId) neighbors =
      links.foldl (net.addNeighbors routerId) neighbors := by
  have hsame : (live net).addNeighbors routerId = net.addNeighbors routerId := by
    rfl
  rw [hsame]
  induction links generalizing neighbors with
  | nil => rfl
  | cons l links ih =>
    by_cases hl : isLive net l = true
    · rw [List.filter_cons_of_pos hl, List.foldl_cons, List.foldl_cons, ih]
    · have hskip : net.addNeighbors routerId neighbors l = neighbors := by
        cases hdst : (net.link l).dst with
        | none => simp [Network.addNeighbors, hdst]
        | some dest =>
          simp only [isLive, hdst] at hl
          simp [Network.addNeighbors, hdst, hl]
      rw [List.filter_cons_of_neg hl, List.foldl_cons, hskip, ih]

theorem connectedNeighborsOfRouter_live :
    (live net).connectedNeighborsOfRouter r = net.connectedNeighborsOfRouter r :=
  congrArg (fun neighbors => (pairs neighbors).map Prod.snd) (addNeighbors_live ∅)

theorem leastExpensiveLoop_live {links : List LinkRef} {selected : Option LinkRef} {cost : Int} :
    (live net).leastExpensiveLoop routerId selected cost links = net.leastExpensiveLoop routerId selected cost links := by
  induction links generalizing selected cost with
  | nil => rfl
  | cons l links ih =>
    simp only [Network.leastExpensiveLoop, ih]
    rfl

/-- Between these routers nothing is lost. -/
def Whole (net : Network) (a b : RouterRef) : Prop :=
  ∀ l ∈ (net.router a).routerLinks.linksFor (net.router b).id, isLive net l = true

theorem leastExpensiveLink_live (h : Whole net a b) :
    (live net).leastExpensiveLink a b = net.leastExpensiveLink a b := by
  have hlinks : ((live net).router a).routerLinks.linksFor ((live net).router b).id =
      (net.router a).routerLinks.linksFor (net.router b).id := by
    exact (linksFor_live _ _).trans (List.filter_eq_self.mpr h)
  unfold Network.leastExpensiveLink
  rw [hlinks]
  exact leastExpensiveLoop_live

end Pruning

section Search

variable {net : Network} {order : IterationOrder} {srcR dstR u : RouterRef} {s : Search}
  (hwhole : ∀ a b, Connected net a → Connected net b → Whole net a b)

include hwhole in
theorem relax_live (hu : Connected net u) (hs : ∀ r ∈ s.unvisited, Connected net r)
    (r : RouterRef) : relax (live net) srcR dstR u s r = relax net srcR dstR u s r := by
  unfold relax
  by_cases hr : r ∈ s.unvisited
  · have hcost : hopCost (live net) srcR dstR u r = hopCost net srcR dstR u r := by
      unfold hopCost
      rw [leastExpensiveLink_live (hwhole r u (hs r hr) hu)]
      rfl
    rw [hcost]
  · rw [if_neg hr, if_neg hr]

theorem unvisited_relax {r : RouterRef} : (relax net srcR dstR u s r).unvisited = s.unvisited := by
  unfold relax
  split
  · dsimp only
    split <;> rfl
  · rfl

include hwhole in
theorem foldl_relax_live (hu : Connected net u) {rs : List RouterRef} (hs : ∀ r ∈ s.unvisited, Connected net r) :
    rs.foldl (relax (live net) srcR dstR u) s = rs.foldl (relax net srcR dstR u) s ∧
      (rs.foldl (relax net srcR dstR u) s).unvisited = s.unvisited := by
  induction rs generalizing s with
  | nil => exact ⟨rfl, rfl⟩
  | cons r rs ih =>
    have hkept : (relax net srcR dstR u s r).unvisited = s.unvisited := unvisited_relax
    obtain ⟨hfold, hunvisited⟩ := ih (by rw [hkept]; exact hs)
    rw [List.foldl_cons, relax_live hwhole hu hs]
    exact ⟨hfold, hunvisited.trans hkept⟩

theorem minCostLoop_mem (dist : RouterRef → Int) (q : List RouterRef) (selected : Option RouterRef) (currentMin : Int)
    (h : minCostLoop dist selected currentMin q = some u) : selected = some u ∨ u ∈ q := by
  induction q generalizing selected currentMin with
  | nil => exact .inl h
  | cons r q ih =>
    simp only [minCostLoop] at h
    split at h
    · rcases ih _ _ h with hu | hu
      · cases hu
        exact .inr List.mem_cons_self
      · exact .inr (List.mem_cons_of_mem r hu)
    · exact (ih _ _ h).imp_right (List.mem_cons_of_mem r)

include hwhole in
theorem search_live {n : Nat} (hs : ∀ r ∈ s.unvisited, Connected net r) :
    search (live net) order srcR dstR n s = search net order srcR dstR n s := by
  induction n generalizing s with
  | zero => rfl
  | succ n ih =>
    simp only [search]
    split
    · rfl
    · cases hmin : minCost s (order.permute (2 * n) s.unvisited.keys) with
      | none => rfl
      | some u =>
        have hu : Connected net u := by
          unfold minCost at hmin
          split at hmin
          · cases hmin
          · rcases minCostLoop_mem _ _ _ _ hmin with hu | hu
            · cases hu
            · exact hs u (AList.mem_keys.mpr ((order.perm _ _).mem_iff.mp hu))
        have herase : ∀ r ∈ s.unvisited.erase u, Connected net r := by
          intro r hr
          exact hs r (AList.mem_erase.mp hr).2
        have hvisit : visit (live net) order srcR dstR n u s = visit net order srcR dstR n u s := by
          unfold visit
          rw [connectedNeighborsOfRouter_live]
          exact (foldl_relax_live hwhole hu herase).1
        have hunvisited : (visit net order srcR dstR n u s).unvisited = s.unvisited.erase u :=
          (foldl_relax_live hwhole hu herase).2
        simp only [hvisit]
        split
        · rfl
        · refine ih ?_
          rw [hunvisited]
          exact herase

include hwhole in
theorem shortestPath_live (a b : RouterRef) :
    shortestPath (live net) order (some a) (some b) = shortestPath net order (some a) (some b) := by
  have hstart : ∀ r ∈ (startSearch net a).unvisited, Connected net r := by
    intro r hr
    exact ((PathSelection.startSearch_searched net a b).routers r).mpr (.inr hr)
  have hsearch : search (live net) order a b net.allConnected.length (startSearch net a) =
      search net order a b net.allConnected.length (startSearch net a) := search_live hwhole hstart
  unfold shortestPath
  simp only
  split
  · rfl
  · unfold routerPath
    have hsame : startSearch (live net) a = startSearch net a := rfl
    have hall : (live net).allConnected = net.allConnected := rfl
    rw [hsame, hall, hsearch]
    rfl

end Search

end Zt.LiveLinks
