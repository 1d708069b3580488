import Zt.LeastCost
import Zt.Topology

namespace Zt.PathLinks

open Tables Topology LeastCost
open EdgeCtrl (Id IdTable)
open Network (routerCost add64 maxInt64 addNeighbors)

variable {net : Network}

/-- Every link is in the indexes of both its ends, and these are the routers
connected now. -/
structure Indexed (net : Network) : Prop where
  connected : ∀ id r, net.connected.lookup id = some r → (net.router r).id = id ∧ (net.router r).connected = true
  src : ∀ id l, net.links.lookup id = some l →
    net.connected.lookup (net.router (net.link l).src).id = some (net.link l).src
  dst : ∀ id l, net.links.lookup id = some l →
    ∃ r, (net.link l).dst = some r ∧ net.connected.lookup (net.link l).dstId = some r
  allLinks : ∀ id r, net.connected.lookup id = some r → ∀ l, l ∈ (net.router r).routerLinks.allLinks ↔
    (∃ linkId, net.links.lookup linkId = some l) ∧ ((net.link l).src = r ∨ (net.link l).dst = some r)
  linkByRouter : ∀ id r, net.connected.lookup id = some r → ∀ other l,
    l ∈ (net.router r).routerLinks.linksFor other ↔ (∃ linkId, net.links.lookup linkId = some l) ∧
      ((net.link l).src = r ∧ (net.link l).dstId = other ∨
        (net.link l).dst = some r ∧ (net.router (net.link l).src).id = other)

def Connected (net : Network) (r : RouterRef) : Prop := ∃ id, net.connected.lookup id = some r

def joins (net : Network) (a b : RouterRef) (l : LinkRef) : Bool :=
  (net.link l).isUsable && (decide ((net.link l).src = a ∧ (net.link l).dst = some b) ||
    decide ((net.link l).src = b ∧ (net.link l).dst = some a))

/-- The cost of the cheapest usable link between two routers. -/
def cheapest (net : Network) (a b : RouterRef) : Option Int :=
  ((((pairs net.links).map Prod.snd).filter (joins net a b)).map (fun l => (net.link l).getCost)).min?

/-- A hop costs its link and the router it enters. -/
def entering (net : Network) (a b : RouterRef) : Option Int :=
  (cheapest net a b).map (fun cost => cost + net.routerCost b)

theorem mem_links {l : LinkRef} : l ∈ (pairs net.links).map Prod.snd ↔ ∃ id, net.links.lookup id = some l := by
  simp only [List.mem_map, Prod.exists, exists_eq_right]
  exact exists_congr (fun id => mem_pairs)

theorem mem_allConnected {r : RouterRef} : r ∈ net.allConnected ↔ Connected net r := by
  simp only [Network.allConnected, List.mem_map, Prod.exists, exists_eq_right]
  exact exists_congr (fun id => mem_pairs)

variable {cost : Int} {id : Id} {neighbors : IdTable RouterRef} {a b : RouterRef}

theorem cheapest_some : cheapest net a b = some cost ↔
    (∃ l id, net.links.lookup id = some l ∧ joins net a b l = true ∧ (net.link l).getCost = cost) ∧
      ∀ l id, net.links.lookup id = some l → joins net a b l = true → cost ≤ (net.link l).getCost := by
  have hmem (k : Int) : k ∈ (((pairs net.links).map Prod.snd).filter (joins net a b)).map
      (fun l => (net.link l).getCost) ↔
      ∃ l id, net.links.lookup id = some l ∧ joins net a b l = true ∧ (net.link l).getCost = k := by
    rw [List.mem_map]
    refine exists_congr (fun l => ?_)
    rw [List.mem_filter, mem_links, and_assoc, exists_and_right]
  unfold cheapest
  rw [List.min?_eq_some_iff, hmem]
  refine and_congr_right (fun _ => ?_)
  constructor
  · intro h l id hl hj
    exact h _ ((hmem _).mpr ⟨l, id, hl, hj, rfl⟩)
  · intro h k hk
    obtain ⟨l, id, hl, hj, rfl⟩ := (hmem k).mp hk
    exact h l id hl hj

theorem cheapest_none : cheapest net a b = none ↔ ∀ l id, net.links.lookup id = some l → joins net a b l = false := by
  unfold cheapest
  rw [List.min?_eq_none_iff, List.map_eq_nil_iff, List.filter_eq_nil_iff]
  constructor
  · intro h l id hl
    exact eq_false_of_ne_true (h l (mem_links.mpr ⟨id, hl⟩))
  · intro h l hl
    obtain ⟨id, hid⟩ := mem_links.mp hl
    rw [h l id hid]
    exact Bool.false_ne_true

theorem joins_comm (l : LinkRef) : joins net a b l = joins net b a l := by
  unfold joins
  rw [Bool.or_comm]

theorem cheapest_comm : cheapest net a b = cheapest net b a := by
  unfold cheapest
  rw [funext joins_comm]

section Costs

theorem tdiv_lt (x : Int64) : x.toInt.tdiv 1000000 < 10000000000000 := by
  have hx := x.toInt_lt
  rcases Int.le_total 0 x.toInt with h | h
  · rw [Int.tdiv_eq_ediv_of_nonneg h]
    omega
  · have := Int.tdiv_nonneg (a := -x.toInt) (b := 1000000) (by omega) (by omega)
    rw [Int.neg_tdiv] at this
    omega

theorem getCost_lt (link : Link) : link.getCost < 30000000000000 := by
  have hs := link.staticCost.toInt_lt
  have h₁ := tdiv_lt link.srcLatency
  have h₂ := tdiv_lt link.dstLatency
  unfold Link.getCost
  omega

theorem routerCost_nonneg (net : Network) (r : RouterRef) : 0 ≤ net.routerCost r := by
  unfold routerCost
  omega

theorem routerCost_lt (net : Network) (r : RouterRef) : net.routerCost r < 65536 := by
  have h₁ := (net.router r).cost.toNat_lt
  have h₂ := net.minRouterCost.toNat_lt
  unfold routerCost
  omega

/-- Costs are far from what 64 bits can hold. -/
theorem add64_eq {a b : Int} (ha : 0 ≤ a) (hb : 0 ≤ b) (hab : a + b < 40000000000000) : add64 a b = a + b := by
  exact Int.bmod_eq_of_le (by omega) (by omega)

end Costs

section Links

def Candidate (net : Network) (routerId : Id) (l : LinkRef) : Prop :=
  (net.link l).isUsable = true ∧ ((net.link l).dstId = routerId ∨ (net.router (net.link l).src).id = routerId)

/-- The loop takes the cheapest candidate, if it is cheaper than the given cost. -/
theorem leastExpensiveLoop_spec (net : Network) (routerId : Id) (links : List LinkRef) (selected : Option LinkRef)
    (cost : Int) :
    (∃ l ∈ links, net.leastExpensiveLoop routerId selected cost links = some l ∧ Candidate net routerId l ∧
        (net.link l).getCost < cost ∧
          ∀ l' ∈ links, Candidate net routerId l' → (net.link l).getCost ≤ (net.link l').getCost) ∨
      net.leastExpensiveLoop routerId selected cost links = selected ∧
        ∀ l' ∈ links, Candidate net routerId l' → cost ≤ (net.link l').getCost := by
  induction links generalizing selected cost with
  | nil => exact .inr ⟨rfl, by simp⟩
  | cons l links ih =>
    by_cases htake : (net.link l).isUsable = true ∧
        ((net.link l).dstId = routerId ∨ (net.router (net.link l).src).id = routerId) ∧ (net.link l).getCost < cost
    · have hcand : Candidate net routerId l := ⟨htake.1, htake.2.1⟩
      rw [show net.leastExpensiveLoop routerId selected cost (l :: links) =
        net.leastExpensiveLoop routerId (some l) (net.link l).getCost links from if_pos htake]
      rcases ih (some l) (net.link l).getCost with ⟨m, hm, hloop, hmc, hlt, hmin⟩ | ⟨hloop, hmin⟩
      · refine .inl ⟨m, List.mem_cons_of_mem _ hm, hloop, hmc, Int.lt_trans hlt htake.2.2, ?_⟩
        intro l' hl' hc'
        rcases List.mem_cons.mp hl' with rfl | hl'
        · exact Int.le_of_lt hlt
        · exact hmin l' hl' hc'
      · refine .inl ⟨l, List.mem_cons_self, hloop, hcand, htake.2.2, ?_⟩
        intro l' hl' hc'
        rcases List.mem_cons.mp hl' with rfl | hl'
        · exact Int.le_refl _
        · exact hmin l' hl' hc'
    · have hskip : Candidate net routerId l → cost ≤ (net.link l).getCost := by
        intro hc
        by_contra hlt
        exact htake ⟨hc.1, hc.2, by omega⟩
      rw [show net.leastExpensiveLoop routerId selected cost (l :: links) =
        net.leastExpensiveLoop routerId selected cost links from if_neg htake]
      rcases ih selected cost with ⟨m, hm, hloop, hmc, hlt, hmin⟩ | ⟨hloop, hmin⟩
      · refine .inl ⟨m, List.mem_cons_of_mem _ hm, hloop, hmc, hlt, ?_⟩
        intro l' hl' hc'
        rcases List.mem_cons.mp hl' with rfl | hl'
        · exact Int.le_trans (Int.le_of_lt hlt) (hskip hc')
        · exact hmin l' hl' hc'
      · refine .inr ⟨hloop, fun l' hl' hc' => ?_⟩
        rcases List.mem_cons.mp hl' with rfl | hl'
        · exact hskip hc'
        · exact hmin l' hl' hc'

variable {a b : RouterRef} {l : LinkRef} {routerId : Id}

theorem joins_true : joins net a b l = true ↔ (net.link l).isUsable = true ∧
    ((net.link l).src = a ∧ (net.link l).dst = some b ∨ (net.link l).src = b ∧ (net.link l).dst = some a) := by
  simp [joins]

section

variable (h : Indexed net)
include h

theorem Indexed.eq_of_id (ha : Connected net a) (hb : Connected net b)
    (hid : (net.router a).id = (net.router b).id) : a = b := by
  obtain ⟨i, hi⟩ := ha
  obtain ⟨j, hj⟩ := hb
  rw [← (h.connected i a hi).1] at hi
  rw [← (h.connected j b hj).1, ← hid, hi] at hj
  exact Option.some.inj hj

theorem Indexed.dst_id (hl : net.links.lookup id = some l) (hdst : (net.link l).dst = some b) :
    (net.link l).dstId = (net.router b).id ∧ Connected net b := by
  obtain ⟨r, hr, hconn⟩ := h.dst id l hl
  cases hdst.symm.trans hr
  exact ⟨(h.connected _ b hconn).1.symm, _, hconn⟩

/-- The links that the index of one router has under the id of another and that
are candidates are the usable links between them. -/
theorem Indexed.candidate_iff (ha : Connected net a) (hb : Connected net b) :
    l ∈ (net.router a).routerLinks.linksFor (net.router b).id ∧ Candidate net (net.router b).id l ↔
      (∃ id, net.links.lookup id = some l) ∧ joins net a b l = true := by
  obtain ⟨i, hi⟩ := ha
  rw [h.linkByRouter i a hi, joins_true]
  constructor
  · rintro ⟨⟨⟨id, hl⟩, hends⟩, husable, -⟩
    refine ⟨⟨id, hl⟩, husable, ?_⟩
    rcases hends with ⟨hsrc, hdst⟩ | ⟨hdst, hsrc⟩
    · obtain ⟨r, hr, hconn⟩ := h.dst id l hl
      refine .inl ⟨hsrc, ?_⟩
      rw [hr, h.eq_of_id ⟨_, hconn⟩ hb ((h.connected _ r hconn).1.trans hdst)]
    · exact .inr ⟨h.eq_of_id ⟨_, h.src id l hl⟩ hb hsrc, hdst⟩
  · rintro ⟨⟨id, hl⟩, husable, hends⟩
    rcases hends with ⟨hsrc, hdst⟩ | ⟨hsrc, hdst⟩
    · have hid := (h.dst_id hl hdst).1
      exact ⟨⟨⟨id, hl⟩, .inl ⟨hsrc, hid⟩⟩, husable, .inl hid⟩
    · exact ⟨⟨⟨id, hl⟩, .inr ⟨hdst, by rw [hsrc]⟩⟩, husable, .inr (by rw [hsrc])⟩

theorem Indexed.leastExpensiveLink_some (ha : Connected net a) (hb : Connected net b)
    (hl : net.leastExpensiveLink a b = some l) :
    (∃ id, net.links.lookup id = some l) ∧ joins net a b l = true ∧ cheapest net a b = some (net.link l).getCost := by
  unfold Network.leastExpensiveLink at hl
  rcases leastExpensiveLoop_spec net (net.router b).id
    ((net.router a).routerLinks.linksFor (net.router b).id) none maxInt64 with ⟨m, hm, hloop, hc, -, hmin⟩ |
    ⟨hloop, -⟩
  · cases hloop.symm.trans hl
    obtain ⟨⟨id, hid⟩, hj⟩ := (h.candidate_iff ha hb).mp ⟨hm, hc⟩
    refine ⟨⟨id, hid⟩, hj, cheapest_some.mpr ⟨⟨l, id, hid, hj, rfl⟩, fun l' id' hid' hj' => ?_⟩⟩
    obtain ⟨hm', hc'⟩ := (h.candidate_iff ha hb).mpr ⟨⟨id', hid'⟩, hj'⟩
    exact hmin l' hm' hc'
  · rw [hloop] at hl
    cases hl

theorem Indexed.leastExpensiveLink_none (ha : Connected net a) (hb : Connected net b)
    (hl : net.leastExpensiveLink a b = none) : cheapest net a b = none := by
  unfold Network.leastExpensiveLink at hl
  rcases leastExpensiveLoop_spec net (net.router b).id
    ((net.router a).routerLinks.linksFor (net.router b).id) none maxInt64 with ⟨m, -, hloop, -⟩ | ⟨-, hmin⟩
  · rw [hloop] at hl
    cases hl
  · refine cheapest_none.mpr (fun l id hid => eq_false_of_ne_true (fun hj => ?_))
    obtain ⟨hm, hc⟩ := (h.candidate_iff ha hb).mpr ⟨⟨id, hid⟩, hj⟩
    have hle := hmin l hm hc
    have hlt := getCost_lt (net.link l)
    unfold maxInt64 at hle
    omega

end

theorem mem_addNeighbors {k : Id} (hk : k ∈ neighbors) : k ∈ net.addNeighbors routerId neighbors l := by
  cases hdst : (net.link l).dst with
  | none => simpa only [addNeighbors, hdst] using hk
  | some dstRouter =>
    simp only [addNeighbors, hdst]
    split
    · split <;> split <;> simp [hk]
    · exact hk

/-- Whatever a table has is connected. -/
def Within (net : Network) (neighbors : IdTable RouterRef) : Prop :=
  ∀ k r, neighbors.lookup k = some r → net.connected.lookup k = some r

theorem Within.insert (hm : Within net neighbors) {i : Id} {x : RouterRef} (hx : net.connected.lookup i = some x) :
    Within net (neighbors.insert i x) := by
  exact forall_insert hm hx

section

variable (h : Indexed net)
include h

theorem Indexed.addNeighbors_within (hm : Within net neighbors)
    (hl : net.links.lookup id = some l) : Within net (net.addNeighbors routerId neighbors l) := by
  obtain ⟨d, hd, hconn⟩ := h.dst id l hl
  have hsrc := h.src id l hl
  simp only [addNeighbors, hd]
  split
  · split <;> split
    · exact (hm.insert hsrc).insert hconn
    · exact hm.insert hconn
    · exact hm.insert hsrc
    · exact hm
  · exact hm

theorem Indexed.mem_addNeighbors_self (hl : net.links.lookup id = some l)
    (hj : joins net a b l = true) (hne : (net.router b).id ≠ (net.router a).id) (neighbors : IdTable RouterRef) :
    (net.router b).id ∈ net.addNeighbors (net.router a).id neighbors l := by
  obtain ⟨husable, hends⟩ := joins_true.mp hj
  obtain ⟨d, hd, hconn⟩ := h.dst id l hl
  have hdc := (h.connected _ d hconn).2
  rcases hends with ⟨-, hdst⟩ | ⟨hsrc, hdst⟩
  · have hid := (h.dst_id hl hdst).1
    simp [addNeighbors, hd, husable, hdc, hid, hne]
  · have hid := (h.dst_id hl hdst).1
    simp [addNeighbors, hd, husable, hdc, hid, hsrc, hne]

theorem Indexed.neighborMap_spec {links : List LinkRef}
    (hlinks : ∀ l ∈ links, ∃ id, net.links.lookup id = some l) (neighbors : IdTable RouterRef)
    (hm : Within net neighbors) : Within net (links.foldl (net.addNeighbors routerId) neighbors) ∧
      ∀ k, (k ∈ neighbors ∨ ∃ l ∈ links, ∀ m, k ∈ net.addNeighbors routerId m l) →
        k ∈ links.foldl (net.addNeighbors routerId) neighbors := by
  induction links generalizing neighbors with
  | nil => exact ⟨hm, fun k hk => by simpa using hk⟩
  | cons l links ih =>
    obtain ⟨id, hl⟩ := hlinks l List.mem_cons_self
    obtain ⟨hwithin, hmem⟩ := ih (fun l' hl' => hlinks l' (List.mem_cons_of_mem _ hl'))
      (net.addNeighbors routerId neighbors l) (h.addNeighbors_within hm hl)
    refine ⟨hwithin, fun k hk => hmem k ?_⟩
    rcases hk with hk | ⟨l', hl', hk⟩
    · exact .inl (mem_addNeighbors hk)
    · rcases List.mem_cons.mp hl' with rfl | hl'
      · exact .inl (hk neighbors)
      · exact .inr ⟨l', hl', hk⟩

/-- No router at the other end of a usable link is left out. -/
theorem Indexed.mem_neighbors (ha : Connected net a) (hb : Connected net b) (hne : a ≠ b)
    (hcost : cheapest net a b = some cost) : b ∈ net.connectedNeighborsOfRouter a := by
  obtain ⟨⟨l, id, hl, hj, -⟩, -⟩ := cheapest_some.mp hcost
  have hids : (net.router b).id ≠ (net.router a).id := fun hid => hne (h.eq_of_id ha hb hid.symm)
  obtain ⟨i, hi⟩ := ha
  have hin := h.allLinks i a hi
  obtain ⟨hwithin, hmem⟩ := h.neighborMap_spec (fun l' hl' => ((hin l').mp hl').1)
    ∅ (fun k r hr => by simp at hr)
  have hl' : l ∈ (net.router a).routerLinks.allLinks := by
    refine (hin l).mpr ⟨⟨id, hl⟩, ?_⟩
    rcases (joins_true.mp hj).2 with ⟨hsrc, -⟩ | ⟨-, hdst⟩
    · exact .inl hsrc
    · exact .inr hdst
  obtain ⟨r, hr⟩ := mem_iff_lookup.mp (hmem _ (.inr ⟨l, hl', h.mem_addNeighbors_self hl hj hids⟩))
  have hconn := hwithin _ r hr
  have heq : r = b := h.eq_of_id ⟨_, hconn⟩ hb (h.connected _ r hconn).1
  subst heq
  exact List.mem_map.mpr ⟨_, mem_pairs.mpr hr, rfl⟩

theorem Indexed.cheapest_connected {k : Int} (hk : cheapest net a b = some k) :
    Connected net a ∧ Connected net b := by
  obtain ⟨⟨l, id, hl, hj, -⟩, -⟩ := cheapest_some.mp hk
  have hsrc : Connected net (net.link l).src := ⟨_, h.src id l hl⟩
  rcases (joins_true.mp hj).2 with ⟨ha, hb⟩ | ⟨hb, ha⟩
  · exact ⟨ha ▸ hsrc, (h.dst_id hl hb).2⟩
  · exact ⟨(h.dst_id hl ha).2, hb ▸ hsrc⟩

theorem Indexed.entering_connected {c : Int} (hc : entering net a b = some c) :
    Connected net a ∧ Connected net b := by
  obtain ⟨k, hk, -⟩ := Option.map_eq_some_iff.mp hc
  exact h.cheapest_connected hk

theorem Indexed.last_connected {nodes : List RouterRef} {u v t : RouterRef}
    (hcost : sequenceCost (entering net) (u :: v :: nodes) = some cost) (hlast : (u :: v :: nodes).getLast? = some t) :
    Connected net t := by
  induction nodes generalizing u v cost with
  | nil =>
    obtain ⟨c, -, hc, -, -⟩ := sequenceCost_cons_cons.mp hcost
    have ht : v = t := by simpa using hlast
    exact ht ▸ (h.entering_connected hc).2
  | cons w nodes ih =>
    obtain ⟨c, total, -, htotal, -⟩ := sequenceCost_cons_cons.mp hcost
    exact ih htotal (by simpa using hlast)

end

def NonNegative (net : Network) : Prop := ∀ id l, net.links.lookup id = some l → 0 ≤ (net.link l).getCost

theorem cheapest_bounds (hcost : NonNegative net) {c : Int} (h : cheapest net a b = some c) :
    0 ≤ c ∧ c < 30000000000000 := by
  obtain ⟨⟨l, id, hl, -, rfl⟩, -⟩ := cheapest_some.mp h
  exact ⟨hcost id l hl, getCost_lt _⟩

theorem entering_nonneg (hcost : NonNegative net) (u v : RouterRef) (c : Int) (h : entering net u v = some c) :
    0 ≤ c := by
  obtain ⟨k, hk, rfl⟩ := Option.map_eq_some_iff.mp h
  have h₁ := (cheapest_bounds hcost hk).1
  have h₂ := routerCost_nonneg net v
  omega

end Links

end Zt.PathLinks
