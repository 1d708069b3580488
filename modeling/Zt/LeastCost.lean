import Mathlib.Data.List.Basic
import Mathlib.Data.List.Nodup

namespace Zt.LeastCost

open List (mem_cons mem_cons_self append_of_mem length_append)

variable {V : Type} {hop : V → V → Option Int} {top : Int} {source : V}

/-- The cost of a sequence of vertices, if all its hops exist. -/
def sequenceCost (hop : V → V → Option Int) : List V → Option Int
  | [] => none
  | [_] => some 0
  | u :: v :: rest => (hop u v).bind (fun cost => (sequenceCost hop (v :: rest)).map (fun total => cost + total))

structure Labels (V : Type) where
  dist : V → Int
  prev : V → Option V

/-- The way back along the previous vertices, in front of a path. It is none
where the fuel does not suffice. -/
def trace (prev : V → Option V) : Nat → Option V → List V → Option (List V)
  | _, none, path => some path
  | 0, some _, _ => none
  | n + 1, some p, path => trace prev n (prev p) (p :: path)

/-- The settled vertices, the last one first, have their final distances, and
the others what hops from settled ones give them. A distance of top is none. -/
structure Settled (hop : V → V → Option Int) (top : Int) (source : V) (settled : List V) (unsettled : V → Prop)
    (labels : Labels V) : Prop where
  apart : ∀ v ∈ settled, ¬ unsettled v
  distinct : settled.Nodup
  source_dist : labels.dist source = 0
  source_prev : labels.prev source = none
  nonneg : ∀ v, v ∈ settled ∨ unsettled v → 0 ≤ labels.dist v
  bounded : ∀ v, v ∈ settled ∨ unsettled v → labels.dist v ≤ top
  ordered : ∀ u ∈ settled, ∀ v, unsettled v → labels.dist u ≤ labels.dist v
  relaxed : ∀ u ∈ settled, ∀ v c, v ∈ settled ∨ unsettled v → hop u v = some c → labels.dist v ≤ labels.dist u + c
  parent : ∀ v p, labels.prev v = some p →
    p ∈ settled ∧ labels.dist v < top ∧ ∃ c, hop p v = some c ∧ labels.dist v = labels.dist p + c
  orphan : ∀ v, v ∈ settled ∨ unsettled v → v ≠ source → labels.prev v = none → labels.dist v = top
  earlier : ∀ later v before, settled = later ++ v :: before → ∀ p, labels.prev v = some p → p ∈ before

/-- Each of the given vertices takes the hop from a vertex if that is shorter,
and nothing else changes. -/
def Relaxed (hop : V → V → Option Int) (u : V) (given : V → Prop) (labels labels' : Labels V) : Prop :=
  ∀ v, (labels'.dist v = labels.dist v ∧ labels'.prev v = labels.prev v ∧
      (given v → ∀ c, hop u v = some c → labels.dist v ≤ labels.dist u + c)) ∨
    (given v ∧ ∃ c, hop u v = some c ∧ labels.dist u + c < labels.dist v ∧ labels'.dist v = labels.dist u + c ∧
      labels'.prev v = some u)

section Relaxing

variable {u : V} {given given' : V → Prop} {labels labels' labels'' : Labels V}

theorem Relaxed.refl (h : ∀ v, given v → ∀ c, hop u v = some c → labels.dist v ≤ labels.dist u + c) :
    Relaxed hop u given labels labels :=
  fun v => .inl ⟨rfl, rfl, h v⟩

theorem Relaxed.outside (h : Relaxed hop u given labels labels') {v : V} (hv : ¬ given v) :
    labels'.dist v = labels.dist v ∧ labels'.prev v = labels.prev v := by
  rcases h v with ⟨hd, hp, -⟩ | ⟨hgiven, -⟩
  · exact ⟨hd, hp⟩
  · exact absurd hgiven hv

theorem Relaxed.trans (h : Relaxed hop u given labels labels') (hu : ¬ given u)
    (h' : Relaxed hop u given' labels' labels'') : Relaxed hop u (fun v => given v ∨ given' v) labels labels'' := by
  intro v
  have hsame := (h.outside hu).1
  rcases h v with ⟨hd, hp, hleft⟩ | ⟨hgiven, c, hc, hlt, hd, hp⟩
  · rcases h' v with ⟨hd', hp', hleft'⟩ | ⟨hgiven', c, hc, hlt', hd', hp'⟩
    · refine .inl ⟨hd'.trans hd, hp'.trans hp, ?_⟩
      rintro (hv | hv) c hc
      · exact hleft hv c hc
      · have := hleft' hv c hc
        omega
    · exact .inr ⟨.inr hgiven', c, hc, by omega, by omega, hp'⟩
  · rcases h' v with ⟨hd', hp', -⟩ | ⟨-, c', hc', hlt', -, -⟩
    · exact .inr ⟨.inl hgiven, c, hc, hlt, hd'.trans hd, hp'.trans hp⟩
    · -- The same hop is not shorter than itself.
      cases hc.symm.trans hc'
      omega

theorem Relaxed.widen (h : Relaxed hop u given labels labels') (hsub : ∀ v, given v → given' v)
    (hrest : ∀ v c, given' v → hop u v = some c → given v) : Relaxed hop u given' labels labels' := by
  intro v
  rcases h v with ⟨hd, hp, hleft⟩ | ⟨hgiven, htaken⟩
  · exact .inl ⟨hd, hp, fun hv c hc => hleft (hrest v c hv hc) c hc⟩
  · exact .inr ⟨hsub v hgiven, htaken⟩

end Relaxing

section Step

variable {settled : List V} {unsettled : V → Prop} {labels labels' : Labels V} {u : V}

/-- To settle a vertex that is nearest and relax the rest keeps the labels right. -/
theorem Settled.step (h : Settled hop top source settled unsettled labels) (hhop : ∀ u v c, hop u v = some c → 0 ≤ c)
    (hu : unsettled u) (hmin : ∀ v, unsettled v → labels.dist u ≤ labels.dist v)
    (hr : Relaxed hop u (fun v => unsettled v ∧ v ≠ u) labels labels') :
    Settled hop top source (u :: settled) (fun v => unsettled v ∧ v ≠ u) labels' := by
  have hnode (v : V) : (v ∈ u :: settled ∨ unsettled v ∧ v ≠ u) → v ∈ settled ∨ unsettled v := by
    rintro (hv | hv)
    · rcases mem_cons.mp hv with rfl | hv
      · exact .inr hu
      · exact .inl hv
    · exact .inr hv.1
  have hsettled (v : V) (hv : v ∈ u :: settled) : labels'.dist v = labels.dist v ∧ labels'.prev v = labels.prev v := by
    refine hr.outside (fun hun => ?_)
    rcases mem_cons.mp hv with rfl | hv
    · exact hun.2 rfl
    · exact h.apart v hv hun.1
  have hu0 : 0 ≤ labels.dist u := h.nonneg u (.inr hu)
  have hle (v : V) (hv : v ∈ u :: settled ∨ unsettled v ∧ v ≠ u) : labels'.dist v ≤ labels.dist v := by
    rcases hr v with ⟨hd, -, -⟩ | ⟨-, c, -, hlt, hd, -⟩
    · omega
    · omega
  refine ⟨?_, ?_, ?_, ?_, ?_, ?_, ?_, ?_, ?_, ?_, ?_⟩
  · intro v hv hun
    rcases mem_cons.mp hv with rfl | hv
    · exact hun.2 rfl
    · exact h.apart v hv hun.1
  · exact List.nodup_cons.mpr ⟨fun hmem => h.apart u hmem hu, h.distinct⟩
  · rcases hr source with ⟨hd, -, -⟩ | ⟨-, c, hc, hlt, -, -⟩
    · rw [hd, h.source_dist]
    · have := hhop _ _ _ hc
      rw [h.source_dist] at hlt
      omega
  · rcases hr source with ⟨-, hp, -⟩ | ⟨-, c, hc, hlt, -, -⟩
    · rw [hp, h.source_prev]
    · have := hhop _ _ _ hc
      rw [h.source_dist] at hlt
      omega
  · intro v hv
    rcases hr v with ⟨hd, -, -⟩ | ⟨-, c, hc, -, hd, -⟩
    · rw [hd]
      exact h.nonneg v (hnode v hv)
    · have := hhop _ _ _ hc
      omega
  · intro v hv
    exact Int.le_trans (hle v hv) (h.bounded v (hnode v hv))
  · intro x hx v hv
    rw [(hsettled x hx).1]
    have hxu : labels.dist x ≤ labels.dist u := by
      rcases mem_cons.mp hx with rfl | hx
      · exact Int.le_refl _
      · exact h.ordered x hx u hu
    rcases hr v with ⟨hd, -, -⟩ | ⟨-, c, hc, -, hd, -⟩
    · have := hmin v hv.1
      omega
    · have := hhop _ _ _ hc
      omega
  · intro x hx v c hv hc
    rw [(hsettled x hx).1]
    rcases mem_cons.mp hx with rfl | hx
    · -- The hop is from the vertex just settled.
      rcases hv with hv | hv
      · have hback : labels.dist v ≤ labels.dist x := by
          rcases mem_cons.mp hv with rfl | hv
          · exact Int.le_refl _
          · exact h.ordered v hv x hu
        have := hhop _ _ _ hc
        rw [(hsettled v hv).1]
        omega
      · rcases hr v with ⟨hd, -, hkeep⟩ | ⟨-, c', hc', -, hd, -⟩
        · rw [hd]
          exact hkeep hv c hc
        · cases hc.symm.trans hc'
          omega
    · exact Int.le_trans (hle v hv) (h.relaxed x hx v c (hnode v hv) hc)
  · intro v p hp
    rcases hr v with ⟨hd, hprev, -⟩ | ⟨hv, c, hc, hlt, hd, hprev⟩
    · rw [hprev] at hp
      obtain ⟨hmem, htop, c, hc, hdist⟩ := h.parent v p hp
      refine ⟨List.mem_cons_of_mem _ hmem, hd ▸ htop, c, hc, ?_⟩
      rw [hd, (hsettled p (List.mem_cons_of_mem _ hmem)).1, hdist]
    · cases hprev.symm.trans hp
      have hbound := h.bounded v (.inr hv.1)
      refine ⟨mem_cons_self, by omega, c, hc, ?_⟩
      rw [hd, (hsettled u mem_cons_self).1]
  · intro v hv hne hp
    rcases hr v with ⟨hd, hprev, -⟩ | ⟨-, c, -, -, -, hprev⟩
    · rw [hd]
      exact h.orphan v (hnode v hv) hne (hprev ▸ hp)
    · rw [hprev] at hp
      cases hp
  · intro later v before heq p hp
    have hmem : v ∈ u :: settled := by rw [heq]; simp
    rw [(hsettled v hmem).2] at hp
    cases later with
    | nil =>
      cases heq
      exact (h.parent _ p hp).1
    | cons x later =>
      injection heq with _ heq
      exact h.earlier later v before heq p hp

end Step

section Cost

variable {u v : V} {rest nodes : List V} {cost : Int}

theorem sequenceCost_cons_cons : sequenceCost hop (u :: v :: rest) = some cost ↔
    ∃ c total, hop u v = some c ∧ sequenceCost hop (v :: rest) = some total ∧ c + total = cost := by
  simp only [sequenceCost, Option.bind_eq_some_iff, Option.map_eq_some_iff]
  constructor
  · rintro ⟨c, hc, total, htotal, heq⟩
    exact ⟨c, total, hc, htotal, heq⟩
  · rintro ⟨c, total, hc, htotal, heq⟩
    exact ⟨c, hc, total, htotal, heq⟩

theorem sequenceCost_concat {c : Int} (h : sequenceCost hop (nodes ++ [u]) = some cost)
    (hc : hop u v = some c) : sequenceCost hop (nodes ++ [u] ++ [v]) = some (cost + c) := by
  induction nodes generalizing cost with
  | nil =>
    cases h
    simp [sequenceCost, hc]
  | cons x nodes ih =>
    cases nodes with
    | nil =>
      obtain ⟨d, total, hd, htotal, heq⟩ := sequenceCost_cons_cons.mp h
      exact sequenceCost_cons_cons.mpr ⟨d, total + c, hd, ih htotal, by omega⟩
    | cons y nodes =>
      obtain ⟨d, total, hd, htotal, heq⟩ := sequenceCost_cons_cons.mp h
      exact sequenceCost_cons_cons.mpr ⟨d, total + c, hd, ih htotal, by omega⟩

theorem sequenceCost_nonneg (hhop : ∀ u v c, hop u v = some c → 0 ≤ c)
    (h : sequenceCost hop nodes = some cost) : 0 ≤ cost := by
  induction nodes generalizing cost with
  | nil => cases h
  | cons x nodes ih =>
    cases nodes with
    | nil =>
      cases h
      exact Int.le_refl _
    | cons y nodes =>
      obtain ⟨d, total, hd, htotal, heq⟩ := sequenceCost_cons_cons.mp h
      have hd0 := hhop _ _ _ hd
      have ht0 := ih htotal
      omega

end Cost

section Exit

variable {settled : List V} {unsettled : V → Prop} {labels : Labels V}

/-- No sequence to a vertex is shorter than its label once no unsettled vertex
is nearer. -/
theorem Settled.le_cost (h : Settled hop top source settled unsettled labels) (hhop : ∀ u v c, hop u v = some c → 0 ≤ c)
    (hclosed : ∀ u v c, hop u v = some c → v ∈ settled ∨ unsettled v) {target : V}
    (hmin : ∀ v, unsettled v → labels.dist target ≤ labels.dist v) {x : V} {nodes : List V} {reached cost : Int}
    (hx : x ∈ settled ∨ unsettled x) (hcost : sequenceCost hop (x :: nodes) = some cost)
    (hlast : (x :: nodes).getLast? = some target) (hreached : labels.dist x ≤ reached) :
    labels.dist target ≤ reached + cost := by
  induction nodes generalizing x reached cost with
  | nil =>
    cases hcost
    simp only [List.getLast?_singleton, Option.some.injEq] at hlast
    subst hlast
    omega
  | cons y nodes ih =>
    obtain ⟨c, total, hc, htotal, heq⟩ := sequenceCost_cons_cons.mp hcost
    have hnode := hclosed x y c hc
    rcases hx with hx | hx
    · have hy := h.relaxed x hx y c hnode hc
      have hrest := ih hnode htotal (by simpa using hlast) (Int.le_refl (reached + c) |> Int.le_trans (by omega))
      omega
    · have hc0 := hhop _ _ _ hc
      have ht0 := sequenceCost_nonneg hhop htotal
      have := hmin x hx
      omega

/-- The way back from a vertex with a label below top starts at the source and
costs what the label says. -/
structure Traced (hop : V → V → Option Int) (source : V) (labels : Labels V) (v : V) (init : List V) : Prop where
  cost : sequenceCost hop (init ++ [v]) = some (labels.dist v)
  head : (init ++ [v]).head? = some source
  nodup : (init ++ [v]).Nodup
  trace : ∀ n, init.length ≤ n → ∀ path, LeastCost.trace labels.prev n (labels.prev v) path = some (init ++ path)

theorem Settled.traced_source (h : Settled hop top source settled unsettled labels) :
    Traced hop source labels source [] where
  cost := by simp [sequenceCost, h.source_dist]
  head := rfl
  nodup := by simp
  trace n _ path := by cases n <;> simp [h.source_prev, LeastCost.trace]

theorem Traced.extend {p v : V} {init : List V} {c : Int} (h : Traced hop source labels p init)
    (hprev : labels.prev v = some p) (hc : hop p v = some c) (hdist : labels.dist v = labels.dist p + c)
    (hnew : v ∉ init ++ [p]) : Traced hop source labels v (init ++ [p]) where
  cost := by
    rw [hdist]
    exact sequenceCost_concat h.cost hc
  head := by
    rw [List.head?_append, h.head]
    rfl
  nodup := by
    refine List.nodup_append.mpr ⟨h.nodup, by simp, ?_⟩
    rintro a ha b hb rfl
    rw [List.mem_singleton] at hb
    exact hnew (hb ▸ ha)
  trace n hn path := by
    cases n with
    | zero => simp at hn
    | succ n =>
      rw [hprev, LeastCost.trace, h.trace n (by simpa using hn)]
      simp

theorem Traced.child {p v : V} {init before : List V} (hp : Traced hop source labels p init) (hsub : init ⊆ before)
    (hlen : init.length ≤ before.length) {c : Int} (hprev : labels.prev v = some p) (hc : hop p v = some c)
    (hdist : labels.dist v = labels.dist p + c) (hnew : v ∉ p :: before) :
    ∃ init', Traced hop source labels v init' ∧ init' ⊆ p :: before ∧ init'.length ≤ (p :: before).length := by
  have hsub' : init ++ [p] ⊆ p :: before := by
    intro x hx
    rcases List.mem_append.mp hx with hx | hx
    · exact List.mem_cons_of_mem _ (hsub hx)
    · rw [List.mem_singleton] at hx
      subst hx
      exact mem_cons_self
  exact ⟨init ++ [p], hp.extend hprev hc hdist (fun hv => hnew (hsub' hv)), hsub', by simpa using hlen⟩

theorem Settled.traced_settled (h : Settled hop top source settled unsettled labels)
    (hhop : ∀ u v c, hop u v = some c → 0 ≤ c) (before : List V) :
    ∀ later v, settled = later ++ v :: before → labels.dist v < top →
      ∃ init, Traced hop source labels v init ∧ init ⊆ before ∧ init.length ≤ before.length := by
  induction hn : before.length using Nat.strongRecOn generalizing before with
  | ind n ih =>
    intro later v heq htop
    have hmem : v ∈ settled := by rw [heq]; simp
    by_cases hsource : v = source
    · subst hsource
      exact ⟨[], h.traced_source, by simp, by simp⟩
    · cases hprev : labels.prev v with
      | none =>
        have := h.orphan v (.inl hmem) hsource hprev
        omega
      | some p =>
        obtain ⟨-, -, c, hc, hdist⟩ := h.parent v p hprev
        have hc0 := hhop _ _ _ hc
        obtain ⟨between, before', hsplit⟩ := append_of_mem (h.earlier later v before heq p hprev)
        subst hsplit
        have hlt : before'.length < n := by
          rw [← hn, length_append, List.length_cons]
          omega
        obtain ⟨init, htraced, hsub, hlen⟩ :=
          ih before'.length hlt before' rfl (later ++ v :: between) p (by simpa using heq) (by omega)
        have hnew : v ∉ between ++ p :: before' := by
          have hd := h.distinct
          rw [heq] at hd
          exact (List.nodup_cons.mp (List.nodup_append.mp hd).2.1).1
        obtain ⟨init', htraced', hsub', hlen'⟩ := htraced.child hsub hlen hprev hc hdist
          (fun hv => hnew (List.mem_append_right _ hv))
        refine ⟨init', htraced', fun x hx => List.mem_append_right _ (hsub' hx), ?_⟩
        rw [← hn, length_append]
        omega

theorem Settled.traced (h : Settled hop top source settled unsettled labels)
    (hhop : ∀ u v c, hop u v = some c → 0 ≤ c) {v : V} (hv : v ∈ settled ∨ unsettled v) (htop : labels.dist v < top) :
    ∃ init, Traced hop source labels v init ∧ init.length ≤ settled.length := by
  rcases hv with hv | hv
  · obtain ⟨later, before, heq⟩ := append_of_mem hv
    obtain ⟨init, htraced, -, hlen⟩ := h.traced_settled hhop before later v heq htop
    refine ⟨init, htraced, ?_⟩
    rw [heq, length_append, List.length_cons]
    omega
  · by_cases hsource : v = source
    · subst hsource
      exact ⟨[], h.traced_source, by simp⟩
    · cases hprev : labels.prev v with
      | none =>
        have := h.orphan v (.inr hv) hsource hprev
        omega
      | some p =>
        obtain ⟨hmem, -, c, hc, hdist⟩ := h.parent v p hprev
        have hc0 := hhop _ _ _ hc
        obtain ⟨later, before, heq⟩ := append_of_mem hmem
        obtain ⟨init, htraced, hsub, hlen⟩ := h.traced_settled hhop before later p heq (by omega)
        have hnew : v ∉ p :: before := fun hx => h.apart v (heq ▸ List.mem_append_right _ hx) hv
        obtain ⟨init', htraced', -, hlen'⟩ := htraced.child hsub hlen hprev hc hdist hnew
        refine ⟨init', htraced', ?_⟩
        rw [heq, length_append]
        omega

end Exit

end Zt.LeastCost
