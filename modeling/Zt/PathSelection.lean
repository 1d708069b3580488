import Mathlib.Algebra.Ring.Int.Defs
import Zt.NetworkPaths
import Zt.PathLinks

namespace Zt.PathSelection

open Tables Topology NetworkPaths LeastCost PathLinks
open EdgeCtrl (Id)
open Network (maxInt32 maxInt64)
open RouterLinks (add linksFor linksFor_add)
open AList (mem_keys keys_erase insert)

variable {net : Network} {order : IterationOrder}

variable {u v : RouterRef} {s : Search} {settled nodes : List RouterRef} {cost : Int}

section Searching

variable {srcR dstR : RouterRef}

/-- A sequence of routers, none of them twice, over usable links, that enters no
router on the way which is not to be traversed. -/
structure IsRoute (net : Network) (srcR dstR : RouterRef) (nodes : List RouterRef) (cost : Int) : Prop where
  first : nodes.head? = some srcR
  last : nodes.getLast? = some dstR
  simple : nodes.Nodup
  cost : sequenceCost (entering net) nodes = some cost
  traversable : ∀ r ∈ nodes, r ≠ srcR → r ≠ dstR → (net.router r).noTraversal = false

/-- The hops that count: none into a router which is not to be traversed, other
than the two ends. -/
def hop (net : Network) (srcR dstR u v : RouterRef) : Option Int :=
  if (net.router v).noTraversal = false ∨ v = srcR ∨ v = dstR then entering net u v else none

theorem hop_some {c : Int} : hop net srcR dstR u v = some c ↔
    ((net.router v).noTraversal = false ∨ v = srcR ∨ v = dstR) ∧
      ∃ k, cheapest net u v = some k ∧ k + net.routerCost v = c := by
  unfold hop entering
  split
  · rename_i h
    simp [h]
  · rename_i h
    simp [h]

theorem hop_nonneg (hcost : NonNegative net) (u v : RouterRef) (c : Int) (h : hop net srcR dstR u v = some c) :
    0 ≤ c := by
  obtain ⟨-, k, hk, rfl⟩ := hop_some.mp h
  have h₁ := (cheapest_bounds hcost hk).1
  have h₂ := routerCost_nonneg net v
  omega

variable (hindexed : Indexed net) (hcost : NonNegative net)

include hindexed hcost in
theorem hopCost_some {c : Int} (h : hop net srcR dstR u v = some c) : hopCost net srcR dstR u v = c := by
  obtain ⟨hallowed, k, hk, rfl⟩ := hop_some.mp h
  obtain ⟨hu, hv⟩ := hindexed.cheapest_connected hk
  have hb := cheapest_bounds hcost hk
  rw [cheapest_comm] at hk
  unfold hopCost
  cases hl : net.leastExpensiveLink v u with
  | none =>
    rw [hindexed.leastExpensiveLink_none hv hu hl] at hk
    cases hk
  | some l =>
    obtain ⟨-, -, hmin⟩ := hindexed.leastExpensiveLink_some hv hu hl
    have hlk : (net.link l).getCost = k := Option.some.inj (hmin.symm.trans hk)
    have h₁ := routerCost_nonneg net v
    have h₂ := routerCost_lt net v
    refine (if_pos (by simpa [or_assoc] using hallowed)).trans ?_
    rw [hlk, add64_eq (by omega) h₁ (by omega)]

include hindexed in
theorem hopCost_none (hu : Connected net u) (hv : Connected net v) (h : hop net srcR dstR u v = none) :
    hopCost net srcR dstR u v = maxInt32 + 1 := by
  unfold hopCost
  cases hl : net.leastExpensiveLink v u with
  | none => rfl
  | some l =>
    obtain ⟨-, -, hmin⟩ := hindexed.leastExpensiveLink_some hv hu hl
    rw [cheapest_comm] at hmin
    refine if_neg (fun hallowed => ?_)
    rw [hop_some.mpr ⟨by simpa [or_assoc] using hallowed, _, hmin, rfl⟩] at h
    cases h

def labelsOf (s : Search) : Labels RouterRef := ⟨s.distOf, fun r => s.prev.lookup r⟩

/-- What a search needs of its unvisited routers while it looks at one. -/
structure Looking (net : Network) (s : Search) (u : RouterRef) : Prop where
  router : Connected net u
  unvisited : ∀ v ∈ s.unvisited, Connected net v
  left : u ∉ s.unvisited
  reached : 0 ≤ s.distOf u ∧ s.distOf u ≤ maxInt32
  bounded : ∀ v ∈ s.unvisited, s.distOf v ≤ maxInt32

theorem labels_take {r : RouterRef} {alt : Int} :
    (labelsOf { s with dist := s.dist.insert r alt, prev := s.prev.insert r u }).dist v =
        (if v = r then alt else s.distOf v) ∧
      (labelsOf { s with dist := s.dist.insert r alt, prev := s.prev.insert r u }).prev v =
        if v = r then some u else s.prev.lookup v := by
  constructor
  · simp only [labelsOf, Search.distOf, lookup_insert_eq]
    split <;> rfl
  · simp [labelsOf, lookup_insert_eq]

include hindexed hcost in
theorem relax_relaxed (h : Looking net s u) {r : RouterRef} :
    Relaxed (hop net srcR dstR) u (fun v => v = r ∧ v ∈ s.unvisited) (labelsOf s)
      (labelsOf (relax net srcR dstR u s r)) ∧ (relax net srcR dstR u s r).unvisited = s.unvisited := by
  have hu := h.reached
  unfold relax
  by_cases hr : r ∈ s.unvisited
  · have hbound := h.bounded r hr
    rw [if_pos hr]
    cases hhop : hop net srcR dstR u r with
    | none =>
      rw [hopCost_none hindexed h.router (h.unvisited r hr) hhop,
        add64_eq hu.1 (by decide) (by unfold maxInt32 at *; omega), if_neg (by omega)]
      refine ⟨.refl (fun v hv c hc => ?_), rfl⟩
      rw [hv.1, hhop] at hc
      cases hc
    | some c =>
      have hc0 := hop_nonneg hcost u r c hhop
      have hc1 : c < 31000000000000 := by
        obtain ⟨-, k, hk, rfl⟩ := hop_some.mp hhop
        have := (cheapest_bounds hcost hk).2
        have := routerCost_lt net r
        omega
      rw [hopCost_some hindexed hcost hhop, add64_eq hu.1 hc0 (by unfold maxInt32 at *; omega)]
      by_cases hlt : s.distOf u + c < s.distOf r
      · rw [if_pos hlt]
        refine ⟨fun v => ?_, rfl⟩
        obtain ⟨hd, hp⟩ := labels_take
        by_cases hv : v = r
        · rw [if_pos hv] at hd hp
          subst hv
          exact .inr ⟨⟨rfl, hr⟩, c, hhop, hlt, hd, hp⟩
        · rw [if_neg hv] at hd hp
          exact .inl ⟨hd, hp, fun hgiven => absurd hgiven.1 hv⟩
      · rw [if_neg hlt]
        refine ⟨.refl (fun v hv c' hc' => ?_), rfl⟩
        rw [hv.1, hhop] at hc'
        cases hc'
        rw [hv.1]
        exact Int.not_lt.mp hlt
  · rw [if_neg hr]
    refine ⟨.refl (fun v hv => absurd (hv.1 ▸ hv.2) hr), rfl⟩

theorem Looking.relaxed {s' : Search} (h : Looking net s u) {given : RouterRef → Prop}
    (hr : Relaxed (hop net srcR dstR) u given (labelsOf s) (labelsOf s')) (hgiven : ¬ given u)
    (hun : s'.unvisited = s.unvisited) : Looking net s' u := by
  have hsame : s'.distOf u = s.distOf u := (hr.outside hgiven).1
  refine ⟨h.router, hun ▸ h.unvisited, hun ▸ h.left, hsame ▸ h.reached, ?_⟩
  intro v hv
  rw [hun] at hv
  have hbound := h.bounded v hv
  rcases hr v with ⟨hd, -⟩ | ⟨-, c, -, hlt, hd, -⟩
  · have hd' : s'.distOf v = s.distOf v := hd
    omega
  · have hlt' : s.distOf u + c < s.distOf v := hlt
    have hd' : s'.distOf v = s.distOf u + c := hd
    omega

include hindexed hcost in
theorem foldl_relax {rs : List RouterRef} (h : Looking net s u) :
    Relaxed (hop net srcR dstR) u (fun v => v ∈ rs ∧ v ∈ s.unvisited) (labelsOf s)
      (labelsOf (rs.foldl (relax net srcR dstR u) s)) ∧
      (rs.foldl (relax net srcR dstR u) s).unvisited = s.unvisited := by
  induction rs generalizing s with
  | nil => exact ⟨.refl (fun v hv => by simp at hv), rfl⟩
  | cons r rs ih =>
    obtain ⟨hstep, hun⟩ := relax_relaxed hindexed hcost h
    have hself : ¬ (u = r ∧ u ∈ s.unvisited) := fun hu => h.left hu.2
    obtain ⟨hrest, hun'⟩ := ih (h.relaxed hstep hself hun)
    refine ⟨?_, hun'.trans hun⟩
    refine (hstep.trans hself hrest).widen ?_ ?_
    · rintro v (⟨rfl, hv⟩ | ⟨hv, hv'⟩)
      · exact ⟨List.mem_cons_self, hv⟩
      · exact ⟨List.mem_cons_of_mem _ hv, hun ▸ hv'⟩
    · rintro v c ⟨hv, hv'⟩ -
      rcases List.mem_cons.mp hv with rfl | hv
      · exact .inl ⟨rfl, hv'⟩
      · exact .inr ⟨hv, hun ▸ hv'⟩

theorem minCostLoop_spec (dist : RouterRef → Int) (q : List RouterRef) (selected : Option RouterRef)
    (currentMin : Int) :
    (∃ u ∈ q, minCostLoop dist selected currentMin q = some u ∧ dist u ≤ currentMin ∧ ∀ v ∈ q, dist u ≤ dist v) ∨
      minCostLoop dist selected currentMin q = selected ∧ ∀ v ∈ q, currentMin < dist v := by
  induction q generalizing selected currentMin with
  | nil => exact .inr ⟨rfl, by simp⟩
  | cons r q ih =>
    rw [minCostLoop]
    split
    · rename_i hle
      rcases ih (some r) (dist r) with ⟨u, hu, hloop, hur, hmin⟩ | ⟨hloop, hmin⟩
      · exact .inl ⟨u, List.mem_cons_of_mem _ hu, hloop, Int.le_trans hur hle, List.forall_mem_cons.mpr ⟨hur, hmin⟩⟩
      · exact .inl ⟨r, List.mem_cons_self, hloop, hle,
          List.forall_mem_cons.mpr ⟨Int.le_refl _, fun v hv => Int.le_of_lt (hmin v hv)⟩⟩
    · rcases ih selected currentMin with ⟨u, hu, hloop, hur, hmin⟩ | ⟨hloop, hmin⟩
      · exact .inl ⟨u, List.mem_cons_of_mem _ hu, hloop, hur, List.forall_mem_cons.mpr ⟨by omega, hmin⟩⟩
      · exact .inr ⟨hloop, List.forall_mem_cons.mpr ⟨by omega, hmin⟩⟩

theorem mem_dist_relax (u r k : RouterRef) (s : Search) (h : k ∈ s.dist) : k ∈ (relax net srcR dstR u s r).dist := by
  unfold relax
  split
  · dsimp only
    split
    · simp [h]
    · exact h
  · exact h

theorem mem_dist_foldl (rs : List RouterRef) {k : RouterRef} (s : Search) (h : k ∈ s.dist) :
    k ∈ (rs.foldl (relax net srcR dstR u) s).dist := by
  induction rs generalizing s with
  | nil => exact h
  | cons r rs ih => exact ih _ (mem_dist_relax u r k s h)

/-- The search so far: the routers are the settled and the unvisited ones. -/
structure Searched (net : Network) (srcR dstR : RouterRef) (settled : List RouterRef) (s : Search) : Prop where
  labels : Settled (hop net srcR dstR) maxInt32 srcR settled (fun v => v ∈ s.unvisited) (labelsOf s)
  routers : ∀ v, Connected net v ↔ v ∈ settled ∨ v ∈ s.unvisited
  count : settled.length + s.unvisited.keys.length ≤ net.allConnected.length
  source : srcR ∈ s.dist

variable (order : IterationOrder)

theorem Searched.nearest (h : Searched net srcR dstR settled s) (hne : isEmpty s.unvisited = false) (n : Nat) :
    ∃ u, minCost s (order.permute n s.unvisited.keys) = some u ∧ u ∈ s.unvisited ∧
      ∀ v ∈ s.unvisited, s.distOf u ≤ s.distOf v := by
  have hmem (v : RouterRef) : v ∈ order.permute n s.unvisited.keys ↔ v ∈ s.unvisited :=
    (order.perm n _).mem_iff.trans mem_keys.symm
  have hdist : isEmpty s.dist = false := eq_false_of_ne_true (fun he => isEmpty_iff.mp he srcR h.source)
  rw [minCost, hdist]
  rcases minCostLoop_spec s.distOf (order.permute n s.unvisited.keys) none maxInt64 with
    ⟨u, hu, hloop, -, hmin⟩ | ⟨-, hmin⟩
  · exact ⟨u, hloop, (hmem u).mp hu, fun v hv => hmin v ((hmem v).mpr hv)⟩
  · exfalso
    refine Bool.false_ne_true (hne.symm.trans (isEmpty_iff.mpr (fun v hv => ?_)))
    have h₁ : maxInt64 < s.distOf v := hmin v ((hmem v).mpr hv)
    have h₂ : s.distOf v ≤ maxInt32 := h.labels.bounded v (.inr hv)
    unfold maxInt64 at h₁
    unfold maxInt32 at h₂
    omega

include hindexed hcost in
theorem Searched.step (h : Searched net srcR dstR settled s) (hu : u ∈ s.unvisited)
    (hmin : ∀ v ∈ s.unvisited, s.distOf u ≤ s.distOf v) (n : Nat) :
    Searched net srcR dstR (u :: settled) (visit net order srcR dstR n u s) ∧
      (visit net order srcR dstR n u s).unvisited = s.unvisited.erase u := by
  let s₁ : Search := { s with unvisited := s.unvisited.erase u }
  have hmem (v : RouterRef) : v ∈ s₁.unvisited ↔ v ∈ s.unvisited ∧ v ≠ u :=
    AList.mem_erase.trans and_comm
  have hlooking : Looking net s₁ u := by
    refine ⟨(h.routers u).mpr (.inr hu), fun v hv => (h.routers v).mpr (.inr ((hmem v).mp hv).1),
      fun hself => ((hmem u).mp hself).2 rfl, ⟨h.labels.nonneg u (.inr hu), h.labels.bounded u (.inr hu)⟩, ?_⟩
    exact fun v hv => h.labels.bounded v (.inr ((hmem v).mp hv).1)
  obtain ⟨hrelaxed, hun⟩ := foldl_relax hindexed hcost
    hlooking
  have hvisit (v : RouterRef) : v ∈ (visit net order srcR dstR n u s).unvisited ↔ v ∈ s.unvisited ∧ v ≠ u :=
    (iff_of_eq (congrArg (v ∈ ·) hun)).trans (hmem v)
  refine ⟨⟨?_, fun v => ?_, ?_, mem_dist_foldl _ s₁ h.source⟩, hun⟩
  · rw [funext (fun v => propext (hvisit v))]
    refine h.labels.step (hop_nonneg hcost) hu hmin (hrelaxed.widen ?_ ?_)
    · exact fun v hv => (hmem v).mp hv.2
    · intro v c hv hc
      obtain ⟨-, k, hk, -⟩ := hop_some.mp hc
      obtain ⟨hcu, hcv⟩ := hindexed.cheapest_connected hk
      exact ⟨(order.perm _ _).mem_iff.mpr (hindexed.mem_neighbors hcu hcv (symm hv.2) hk), (hmem v).mpr hv⟩
  · rw [h.routers, hvisit]
    by_cases hv : v = u
    · subst hv
      simp [hu]
    · simp [hv]
  · have hlen := h.count
    rw [show (visit net order srcR dstR n u s).unvisited = s.unvisited.erase u from hun, keys_erase,
      List.length_erase_of_mem (mem_keys.mp hu), List.length_cons]
    have := List.length_pos_of_mem (mem_keys.mp hu)
    omega

include hindexed hcost in
/-- The search ends, with no unvisited router nearer than the destination. -/
theorem search_spec {n : Nat} (h : Searched net srcR dstR settled s) (hn : s.unvisited.keys.length ≤ n) :
    ∃ s' settled', search net order srcR dstR n s = some s' ∧ Searched net srcR dstR settled' s' ∧
      ∀ v ∈ s'.unvisited, s'.distOf dstR ≤ s'.distOf v := by
  induction n generalizing settled s with
  | zero =>
    refine ⟨s, settled, rfl, h, fun v hv => ?_⟩
    have := List.length_pos_of_mem (mem_keys.mp hv)
    omega
  | succ n ih =>
    rw [search]
    cases hempty : isEmpty s.unvisited with
    | true => exact ⟨s, settled, by simp, h, fun v hv => absurd hv (isEmpty_iff.mp hempty v)⟩
    | false =>
      obtain ⟨u, hmin, hu, hnear⟩ := h.nearest order hempty (2 * n)
      simp only [hmin]
      by_cases hdst : u = dstR
      · subst hdst
        exact ⟨s, settled, if_pos rfl, h, hnear⟩
      · rw [if_neg hdst]
        obtain ⟨hnext, hun⟩ := h.step hindexed hcost order hu hnear n
        refine ih hnext ?_
        rw [hun, keys_erase, List.length_erase_of_mem (mem_keys.mp hu)]
        omega

theorem startSearch_foldl {routers : List RouterRef} (s : Search) :
    let s' := routers.foldl (fun s r =>
      { s with dist := s.dist.insert r maxInt32, unvisited := s.unvisited.insert r () }) s
    (∀ v, s'.dist.lookup v = if v ∈ routers then some maxInt32 else s.dist.lookup v) ∧ s'.prev = s.prev ∧
      (∀ v, v ∈ s'.unvisited ↔ v ∈ routers ∨ v ∈ s.unvisited) ∧
        s'.unvisited.keys.length ≤ routers.length + s.unvisited.keys.length := by
  induction routers generalizing s with
  | nil => simp
  | cons r routers ih =>
    obtain ⟨hdist, hprev, hmem, hlen⟩ := ih
      { s with dist := s.dist.insert r maxInt32, unvisited := s.unvisited.insert r () }
    refine ⟨fun v => ?_, hprev, fun v => ?_, ?_⟩
    · rw [List.foldl_cons, hdist, lookup_insert_eq]
      by_cases hv : v ∈ routers
      · simp [hv]
      · by_cases hvr : v = r
        · simp [hvr]
        · simp [hv]
    · rw [List.foldl_cons, hmem, AList.mem_insert, List.mem_cons]
      tauto
    · refine le_trans hlen ?_
      rw [AList.keys_insert, List.length_cons, List.length_cons]
      have := List.length_erase_le (a := r) (l := s.unvisited.keys)
      omega

theorem startSearch_searched (net : Network) (srcR dstR : RouterRef) :
    Searched net srcR dstR [] (startSearch net srcR) := by
  obtain ⟨hdist, hprev, hmem, hlen⟩ := startSearch_foldl {}
  have hlabel (v : RouterRef) : (startSearch net srcR).distOf v =
      if v = srcR then 0 else if v ∈ net.allConnected then maxInt32 else 0 := by
    unfold startSearch Search.distOf
    rw [lookup_insert_eq, hdist]
    split
    · rfl
    · split <;> simp
  have hprev' (v : RouterRef) : (labelsOf (startSearch net srcR)).prev v = none := by
    show (startSearch net srcR).prev.lookup v = none
    unfold startSearch
    rw [hprev]
    simp
  have hun (v : RouterRef) : v ∈ (startSearch net srcR).unvisited ↔ Connected net v := by
    rw [← mem_allConnected]
    exact (hmem v).trans (by simp)
  have hbounds (v : RouterRef) : 0 ≤ (startSearch net srcR).distOf v ∧
    (startSearch net srcR).distOf v ≤ maxInt32 := by
    rw [hlabel]
    split
    · decide
    · split <;> decide
  refine ⟨?_, fun v => ?_, ?_, ?_⟩
  · refine ⟨by simp, by simp, ?_, hprev' srcR, fun v _ => (hbounds v).1, fun v _ => (hbounds v).2, by simp, by simp,
      fun v p hp => ?_, fun v hv hne _ => ?_, by simp⟩
    · exact (hlabel srcR).trans (if_pos rfl)
    · rw [hprev' v] at hp
      cases hp
    · have hv' : v ∈ (startSearch net srcR).unvisited := by simpa using hv
      refine (hlabel v).trans ?_
      rw [if_neg hne, if_pos (mem_allConnected.mpr ((hun v).mp hv'))]
  · simp [hun]
  · simpa [startSearch] using hlen
  · simp [startSearch]

def Allowed (net : Network) (srcR dstR r : RouterRef) : Prop :=
  (net.router r).noTraversal = false ∨ r = srcR ∨ r = dstR

theorem sequenceCost_hop : sequenceCost (hop net srcR dstR) nodes = some cost ↔
    sequenceCost (entering net) nodes = some cost ∧ ∀ r ∈ nodes.tail, Allowed net srcR dstR r := by
  induction nodes generalizing cost with
  | nil => simp [sequenceCost]
  | cons u nodes ih =>
    cases nodes with
    | nil => simp [sequenceCost]
    | cons v nodes =>
      simp only [sequenceCost_cons_cons, ih, List.tail_cons, List.forall_mem_cons]
      constructor
      · rintro ⟨c, total, hc, ⟨htotal, hrest⟩, heq⟩
        obtain ⟨hallowed, k, hk, rfl⟩ := hop_some.mp hc
        exact ⟨⟨_, total, by simp [entering, hk], htotal, heq⟩, hallowed, hrest⟩
      · rintro ⟨⟨c, total, hc, htotal, heq⟩, hallowed, hrest⟩
        exact ⟨c, total, (if_pos hallowed).trans hc, ⟨htotal, hrest⟩, heq⟩

theorem IsRoute.hops (h : IsRoute net srcR dstR nodes cost) : sequenceCost (hop net srcR dstR) nodes = some cost := by
  refine sequenceCost_hop.mpr ⟨h.cost, fun r hr => ?_⟩
  by_cases hsrc : r = srcR
  · exact .inr (.inl hsrc)
  · by_cases hdst : r = dstR
    · exact .inr (.inr hdst)
    · exact .inl (h.traversable r (List.mem_of_mem_tail hr) hsrc hdst)

theorem isRoute_of_hops (hfirst : nodes.head? = some srcR) (hlast : nodes.getLast? = some dstR)
    (hsimple : nodes.Nodup) (hhops : sequenceCost (hop net srcR dstR) nodes = some cost) :
    IsRoute net srcR dstR nodes cost := by
  obtain ⟨hcost, hallowed⟩ := sequenceCost_hop.mp hhops
  refine ⟨hfirst, hlast, hsimple, hcost, fun r hr hsrc hdst => ?_⟩
  cases nodes with
  | nil => cases hr
  | cons u nodes =>
    rcases List.mem_cons.mp hr with rfl | hr
    · exact absurd (Option.some.inj hfirst) hsrc
    · rcases hallowed r hr with hfalse | heq | heq
      · exact hfalse
      · exact absurd heq hsrc
      · exact absurd heq hdst

theorem IsRoute.connected (hindexed : Indexed net) (h : IsRoute net srcR dstR nodes cost) (hne : srcR ≠ dstR) :
    Connected net srcR ∧ Connected net dstR := by
  cases nodes with
  | nil => cases h.first
  | cons u nodes =>
    have hu : u = srcR := Option.some.inj h.first
    subst hu
    cases nodes with
    | nil =>
      have hlast : u = dstR := by simpa using h.last
      exact absurd hlast hne
    | cons v nodes =>
      obtain ⟨c, -, hc, -, -⟩ := sequenceCost_cons_cons.mp h.cost
      exact ⟨(hindexed.entering_connected hc).1, hindexed.last_connected h.cost h.last⟩

/-- The outcome of the search for a route between two routers. -/
structure Selected (net : Network) (srcR dstR : RouterRef) (result : Except String (List RouterRef × Int)) : Prop where
  route : ∀ nodes cost, result = .ok (nodes, cost) → IsRoute net srcR dstR nodes cost ∧ cost < maxInt32
  cheapest : ∀ nodes cost, result = .ok (nodes, cost) →
    ∀ nodes' cost', IsRoute net srcR dstR nodes' cost' → cost ≤ cost'
  unroutable : ∀ err, result = .error err → ∀ nodes cost, IsRoute net srcR dstR nodes cost → maxInt32 ≤ cost

include hindexed hcost in
theorem routerPath_selected (hne : srcR ≠ dstR) :
    ∃ result, routerPath net order srcR dstR = some result ∧ Selected net srcR dstR result := by
  obtain ⟨s, settled, hsearch, hsearched, hmin⟩ := search_spec hindexed hcost order
    (startSearch_searched net srcR dstR) (by simpa using (startSearch_searched net srcR dstR).count)
  have hclosed (u v : RouterRef) (c : Int) (hc : hop net srcR dstR u v = some c) : v ∈ settled ∨ v ∈ s.unvisited := by
    obtain ⟨-, k, hk, -⟩ := hop_some.mp hc
    exact (hsearched.routers v).mp (hindexed.cheapest_connected hk).2
  have hbest (nodes : List RouterRef) (cost : Int) (hroute : IsRoute net srcR dstR nodes cost) :
    s.distOf dstR ≤ cost := by
    cases nodes with
    | nil => cases hroute.first
    | cons u nodes =>
      have hu : u = srcR := Option.some.inj hroute.first
      subst hu
      have hsrc := (hsearched.routers u).mp (hroute.connected hindexed hne).1
      have := hsearched.labels.le_cost (hop_nonneg hcost) hclosed hmin hsrc hroute.hops hroute.last
        (Int.le_of_eq hsearched.labels.source_dist)
      rw [zero_add] at this
      exact this
  unfold routerPath
  rw [hsearch]
  simp only [Option.bind_eq_bind, Option.bind_some, Option.pure_def]
  by_cases hreached : Connected net dstR ∧ s.distOf dstR < maxInt32
  · obtain ⟨init, htraced, hlen⟩ := hsearched.labels.traced (hop_nonneg hcost) ((hsearched.routers dstR).mp hreached.1)
      hreached.2
    have htrace := htraced.trace net.allConnected.length (le_trans hlen (le_trans (Nat.le_add_right _ _)
      hsearched.count)) []
    rw [List.append_nil] at htrace
    have hpath : trace s.prev.lookup net.allConnected.length (s.prev.lookup dstR) [] = some init := htrace
    rw [hpath]
    refine ⟨.ok (init ++ [dstR], s.distOf dstR), ?_, ?_⟩
    · simp only [Option.bind_some, htraced.head, List.getLast?_concat, ne_eq, not_true_eq_false, if_false]
    · refine ⟨fun nodes cost heq => ?_, fun nodes cost heq => ?_, fun err heq => by cases heq⟩
      · cases heq
        exact ⟨isRoute_of_hops htraced.head (by simp) htraced.nodup htraced.cost, hreached.2⟩
      · cases heq
        exact hbest
  · have hprev : s.prev.lookup dstR = none := by
      cases hp : s.prev.lookup dstR with
      | none => rfl
      | some p =>
        obtain ⟨-, htop, c, hc, -⟩ := hsearched.labels.parent dstR p hp
        exact absurd ⟨(hsearched.routers dstR).mpr (hclosed p dstR c hc), htop⟩ hreached
    refine ⟨.error ("can't route from " ++ (net.router srcR).id ++ " -> " ++ (net.router dstR).id), ?_, ?_⟩
    · rw [hprev]
      have htrace : trace s.prev.lookup net.allConnected.length none [] = some [] := by
        cases net.allConnected.length <;> rfl
      simp [htrace, symm hne]
    · refine ⟨fun nodes cost heq => (by cases heq), fun nodes cost heq => (by cases heq), ?_⟩
      intro err _ nodes cost hroute
      have hle := hbest nodes cost hroute
      have hdst := (hroute.connected hindexed hne).2
      have : ¬ s.distOf dstR < maxInt32 := fun hlt => hreached ⟨hdst, hlt⟩
      omega

include hindexed hcost in
theorem shortestPath_selected (srcR dstR : RouterRef) :
    ∃ result, shortestPath net order (some srcR) (some dstR) = some result ∧ Selected net srcR dstR result := by
  by_cases heq : srcR = dstR
  · subst heq
    refine ⟨.ok ([srcR], 0), if_pos rfl, ?_⟩
    refine ⟨fun nodes cost h => ?_, fun nodes cost h nodes' cost' hroute => ?_, fun err h => by cases h⟩
    · cases h
      exact ⟨⟨rfl, rfl, by simp, rfl, fun r hr hsrc => absurd (List.mem_singleton.mp hr) hsrc⟩, by decide⟩
    · cases h
      exact sequenceCost_nonneg (entering_nonneg hcost) hroute.cost
  · obtain ⟨result, hres, hsel⟩ := routerPath_selected hindexed hcost order heq
    exact ⟨result, (if_neg heq).trans hres, hsel⟩

end Searching

section Choosing

/-- Each link is usable and joins its routers. -/
def Joined (net : Network) : List RouterRef → List LinkRef → Prop
  | a :: b :: nodes, l :: links => joins net a b l = true ∧ Joined net (b :: nodes) links
  | [_], [] => True
  | _, _ => False

structure Realised (net : Network) (nodes : List RouterRef) (cost : Int) (path : Path) : Prop where
  along : path.nodes = nodes
  joined : Joined net nodes path.links
  cost : (path.links.map (fun l => (net.link l).getCost)).sum + (nodes.tail.map net.routerCost).sum = cost

theorem chooseLinks_spec (hindexed : Indexed net) (h : sequenceCost (entering net) nodes = some cost) :
    ∃ links, chooseLinks net nodes = .ok links ∧ Joined net nodes links ∧
        (links.map (fun l => (net.link l).getCost)).sum + (nodes.tail.map net.routerCost).sum = cost := by
  induction nodes generalizing cost with
  | nil => cases h
  | cons a nodes ih =>
    cases nodes with
    | nil =>
      cases h
      exact ⟨[], rfl, trivial, rfl⟩
    | cons b nodes =>
      obtain ⟨c, total, hc, htotal, rfl⟩ := sequenceCost_cons_cons.mp h
      obtain ⟨k, hk, rfl⟩ := Option.map_eq_some_iff.mp hc
      obtain ⟨ha, hb⟩ := hindexed.cheapest_connected hk
      obtain ⟨links, hlinks, hjoined, hsum⟩ := ih htotal
      cases hl : net.leastExpensiveLink a b with
      | none =>
        rw [hindexed.leastExpensiveLink_none ha hb hl] at hk
        cases hk
      | some l =>
        obtain ⟨-, hj, hmin⟩ := hindexed.leastExpensiveLink_some ha hb hl
        have hlk : (net.link l).getCost = k := Option.some.inj (hmin.symm.trans hk)
        refine ⟨l :: links, ?_, ⟨hj, hjoined⟩, ?_⟩
        · simp only [chooseLinks, hl, hlinks]
          rfl
        · simp only [List.map_cons, List.sum_cons, List.tail_cons] at hsum ⊢
          omega

theorem setLinks_realised (hindexed : Indexed net) (path : Path) (hlinks : path.links = [])
    (h : sequenceCost (entering net) path.nodes = some cost) :
    ∃ path', setLinks net path = .ok path' ∧ Realised net path.nodes cost path' := by
  obtain ⟨links, hchosen, hjoined, hsum⟩ := chooseLinks_spec hindexed h
  refine ⟨{ path with links := links }, ?_, rfl, hjoined, hsum⟩
  simp only [setLinks, hchosen, hlinks]
  rfl

/-- Whatever order its maps come out in, the path selection finds a route of
least cost, if there is one below the greatest distance, and the links that it
is then given cost what the search says. -/
theorem path_selection_optimal (net : Network) (hindexed : Indexed net) (hcost : NonNegative net)
    (srcR dstR : RouterRef) (order : IterationOrder) :
    ∃ result, shortestPath net order (some srcR) (some dstR) = some result ∧ Selected net srcR dstR result ∧
      ((∃ err, result = .error err) ↔ ¬ ∃ nodes cost, IsRoute net srcR dstR nodes cost ∧ cost < maxInt32) ∧
      (∀ order' nodes cost, result = .ok (nodes, cost) →
        ∃ nodes', shortestPath net order' (some srcR) (some dstR) = some (.ok (nodes', cost))) ∧
      (∀ nodes cost, result = .ok (nodes, cost) →
        (∀ ingressId egressId, ∃ path, createPathWithNodes net (.ok ingressId) (.ok egressId) nodes = .ok path ∧
          Realised net nodes cost path) ∧
        ∀ path : Path, path.nodes.head? = some srcR → path.nodes.getLast? = some dstR →
          ∃ path', updatePath net order path = some (.ok path') ∧ Realised net nodes cost path') := by
  obtain ⟨result, hresult, hselected⟩ := shortestPath_selected hindexed hcost order srcR dstR
  refine ⟨result, hresult, hselected, ?_, ?_, ?_⟩
  · constructor
    · rintro ⟨err, rfl⟩ ⟨nodes, cost, hroute, hlt⟩
      have := hselected.unroutable err rfl nodes cost hroute
      omega
    · intro hnone
      cases result with
      | error err => exact ⟨err, rfl⟩
      | ok found => exact absurd ⟨found.1, found.2, hselected.route found.1 found.2 rfl⟩ hnone
  · rintro order' nodes cost rfl
    obtain ⟨result', hresult', hselected'⟩ := shortestPath_selected hindexed hcost order' srcR dstR
    obtain ⟨hroute, hlt⟩ := hselected.route nodes cost rfl
    cases result' with
    | error err =>
      have := hselected'.unroutable err rfl nodes cost hroute
      omega
    | ok found =>
      obtain ⟨hroute', -⟩ := hselected'.route found.1 found.2 rfl
      have h₁ := hselected.cheapest nodes cost rfl found.1 found.2 hroute'
      have h₂ := hselected'.cheapest found.1 found.2 rfl nodes cost hroute
      have heq : found.2 = cost := by omega
      exact ⟨found.1, by rw [hresult', ← heq]⟩
  · rintro nodes cost rfl
    obtain ⟨hroute, -⟩ := hselected.route nodes cost rfl
    constructor
    · intro ingressId egressId
      obtain ⟨path, hset, hreal⟩ := setLinks_realised hindexed
        { nodes := nodes, ingressId := ingressId, egressId := egressId } rfl hroute.cost
      refine ⟨path, ?_, hreal⟩
      simp only [createPathWithNodes, hset]
      rfl
    · intro path hfirst hlast
      obtain ⟨path', hset, hreal⟩ := setLinks_realised hindexed { path with nodes := nodes, links := [] } rfl
        hroute.cost
      refine ⟨path', ?_, hreal⟩
      simp only [updatePath, hfirst, hlast, hresult, Option.bind_eq_bind, Option.bind_some]
      exact congrArg some hset

def sameOrder : IterationOrder := ⟨fun _ l => l, fun _ _ => List.Perm.refl _⟩

def twoRouters : Network where
  router r := if r = 0 then { id := "a", connected := true, routerLinks := add {} 0 "b" }
    else { id := "b", cost := 5, connected := true, routerLinks := add {} 0 "a" }
  link _ := { id := "ab", src := 0, dstId := "b", dst := some 1 }
  connected := insert "a" 0 (insert "b" 1 ∅)
  links := insert "ab" 0 ∅

theorem twoRouters_connected {id : Id} {r : RouterRef} (h : twoRouters.connected.lookup id = some r) :
    id = "a" ∧ r = 0 ∨ id = "b" ∧ r = 1 := by
  unfold twoRouters at h
  rw [lookup_insert_eq, lookup_insert_eq] at h
  split at h
  · rename_i hid
    cases h
    exact .inl ⟨hid, rfl⟩
  · split at h
    · rename_i hid
      cases h
      exact .inr ⟨hid, rfl⟩
    · cases h

theorem twoRouters_links {id : Id} {l : LinkRef} : twoRouters.links.lookup id = some l ↔ id = "ab" ∧ l = 0 := by
  unfold twoRouters
  rw [lookup_insert_eq]
  by_cases hid : id = "ab"
  · simp [eq_comm]
  · simp [hid]

theorem twoRouters_indexed : Indexed twoRouters where
  connected id r h := by
    rcases twoRouters_connected h with ⟨rfl, rfl⟩ | ⟨rfl, rfl⟩ <;> decide
  src id l _ := rfl
  dst id l _ := ⟨1, rfl, rfl⟩
  allLinks id r h l := by
    simp only [twoRouters_links]
    rcases twoRouters_connected h with ⟨rfl, rfl⟩ | ⟨rfl, rfl⟩
    · simp [twoRouters, add]
    · simp [twoRouters, add]
  linkByRouter id r h other l := by
    have hempty (id : Id) : linksFor {} id = [] := rfl
    simp only [twoRouters_links]
    rcases twoRouters_connected h with ⟨rfl, rfl⟩ | ⟨rfl, rfl⟩
    · rw [show (twoRouters.router 0).routerLinks = add {} 0 "b" from rfl, linksFor_add]
      by_cases hother : other = "b" <;> simp [twoRouters, hempty, hother, eq_comm]
    · rw [show (twoRouters.router 1).routerLinks = add {} 0 "a" from rfl, linksFor_add]
      by_cases hother : other = "a" <;> simp [twoRouters, hempty, hother, eq_comm]

theorem twoRouters_selected : shortestPath twoRouters sameOrder (some 0) (some 1) = some (.ok ([0, 1], 6)) ∧
    Selected twoRouters 0 1 (.ok ([0, 1], 6)) := by
  have hpath : shortestPath twoRouters sameOrder (some 0) (some 1) = some (.ok ([0, 1], 6)) := by decide +kernel
  obtain ⟨result, hresult, hselected, -⟩ := path_selection_optimal twoRouters twoRouters_indexed
    (fun _ _ _ => (by decide : (0 : Int) ≤ (twoRouters.link 0).getCost)) 0 1 sameOrder
  cases hresult.symm.trans hpath
  exact ⟨hpath, hselected⟩

end Choosing

end Zt.PathSelection
