import Mathlib.Data.List.AList

namespace Zt.Tables

open List (nodup_cons foldl_cons mem_cons)

variable {K V : Type} [DecidableEq K]

/-- A finite map: an association list whose keys are distinct. The order of
the entries stands for the unspecified iteration order of a hash map. -/
abbrev Table (K V : Type) := AList (fun _ : K => V)

abbrev KeySet (K : Type) := Table K Unit

def pairs (t : Table K V) : List (K × V) := t.entries.map (fun e => (e.1, e.2))

def isEmpty (t : Table K V) : Bool := t.entries.isEmpty

def adjust (t : Table K V) (k : K) (f : V → V) : Table K V :=
  match t.lookup k with
  | none => t
  | some v => t.insert k (f v)

def adjustEach (t : Table K V) (ks : List K) (f : V → V) : Table K V :=
  ks.foldl (fun t k => adjust t k f) t

/-- The same with a function that may fail. -/
def adjustEachM (t : Table K V) (ks : List K) (f : V → Option V) : Option (Table K V) :=
  ks.foldlM
    (fun t k =>
      match t.lookup k with
      | none => some t
      | some v => (f v).map (fun v => t.insert k v))
    t

def addAll (s : KeySet K) (ks : List K) : KeySet K := ks.foldl (fun s k => s.insert k ()) s

def removeAll (t : Table K V) (ks : List K) : Table K V := ks.foldl (fun t k => t.erase k) t

/-- A new table with what a function makes of each entry, if anything. -/
def collect {W : Type} (t : Table K V) (g : K → V → Option W) : Table K W :=
  t.keys.foldl
    (fun r k =>
      match (t.lookup k).bind (g k) with
      | none => r
      | some w => r.insert k w)
    ∅

theorem lookup_insert_eq (t : Table K V) (k j : K) (v : V) :
    (t.insert k v).lookup j = if j = k then some v else t.lookup j := by
  by_cases h : j = k
  · subst h; simp
  · simp [h]

theorem lookup_erase_eq (t : Table K V) (k j : K) : (t.erase k).lookup j = if j = k then none else t.lookup j := by
  by_cases h : j = k
  · subst h; simp
  · simp [h]

variable {t t' : Table K V} {k j : K} {v : V} {f : V → Option V} {ks : List K} {P : K → V → Prop}

theorem mem_iff_lookup : k ∈ t ↔ ∃ v, t.lookup k = some v := by
  rw [← AList.lookup_isSome, Option.isSome_iff_exists]

theorem mem_of_lookup (h : t.lookup k = some v) : k ∈ t :=
  mem_iff_lookup.mpr ⟨v, h⟩

theorem lookup_of_erase (h : (t.erase k).lookup j = some v) : j ≠ k ∧ t.lookup j = some v := by
  rw [lookup_erase_eq] at h
  split at h
  · cases h
  · exact ⟨‹_›, h⟩

/-- What holds of all entries still does after one was taken out, or one put in
of which it holds. -/
theorem forall_erase (h : ∀ j w, t.lookup j = some w → P j w) (j : K) (w : V)
    (hw : (t.erase k).lookup j = some w) : P j w :=
  h j w (lookup_of_erase hw).2

theorem forall_insert (h : ∀ j w, t.lookup j = some w → P j w) (hv : P k v) (j : K) (w : V)
    (hw : (t.insert k v).lookup j = some w) : P j w := by
  rw [lookup_insert_eq] at hw
  split at hw
  · rename_i hj
    cases hw
    exact hj ▸ hv
  · exact h j w hw

theorem lookup_adjust (f : V → V) : (adjust t k f).lookup j = if j = k then (t.lookup j).map f else t.lookup j := by
  unfold adjust
  cases h : t.lookup k with
  | none =>
    by_cases hj : j = k
    · subst hj; simp [h]
    · simp [hj]
  | some v =>
    by_cases hj : j = k
    · subst hj; simp [h]
    · simp [hj]

/-- A fold over distinct keys of an operation that works on one key. -/
theorem lookup_foldl_local {f : Table K V → K → Table K V} {h : K → Option V → Option V}
    (hf : ∀ t k j, (f t k).lookup j = if j = k then h j (t.lookup j) else t.lookup j) (t : Table K V) (hn : ks.Nodup)
    (j : K) : (ks.foldl f t).lookup j = if j ∈ ks then h j (t.lookup j) else t.lookup j := by
  induction ks generalizing t with
  | nil => simp
  | cons k ks ih =>
    obtain ⟨hk, hn'⟩ := nodup_cons.mp hn
    rw [foldl_cons, ih (f t k) hn', hf]
    by_cases hj : j = k
    · subst hj; simp [hk]
    · simp [hj]

theorem lookup_adjustEach (hn : ks.Nodup) (f : V → V) (j : K) :
    (adjustEach t ks f).lookup j = if j ∈ ks then (t.lookup j).map f else t.lookup j :=
  lookup_foldl_local (fun _ _ _ => lookup_adjust f) t hn j

theorem lookup_adjustEach_keys (t : Table K V) (f : V → V) (j : K) :
    (adjustEach t t.keys f).lookup j = (t.lookup j).map f := by
  rw [lookup_adjustEach t.keys_nodup]
  split
  · rfl
  · rename_i h
    rw [AList.lookup_eq_none.mpr h]
    rfl

theorem lookup_collect {W : Type} (g : K → V → Option W) : (collect t g).lookup k = (t.lookup k).bind (g k) := by
  have hfold := lookup_foldl_local (h := fun k o => ((t.lookup k).bind (g k)).or o) (f := fun r k =>
      match (t.lookup k).bind (g k) with
      | none => r
      | some w => r.insert k w) ?_ ∅ t.keys_nodup k
  · by_cases hk : k ∈ t
    · simpa [collect, AList.mem_keys.mp hk] using hfold
    · have hnone : t.lookup k = none := AList.lookup_eq_none.mpr hk
      simpa [collect, hnone] using hfold
  · intro r k j
    by_cases hj : j = k
    · subst hj
      cases (t.lookup j).bind (g j) <;> simp
    · cases (t.lookup k).bind (g k) <;> simp [hj]

/-- What a projection of the values sees of a repeated adjustment, when on its
side the adjustment is idempotent. -/
theorem map_lookup_foldl_adjust {W : Type} (g : V → W) (h : W → W) {f : V → V} (hf : ∀ v, g (f v) = h (g v))
    (hh : ∀ w, h (h w) = h w) (t : Table K V) (ks : List K) (j : K) :
    ((ks.foldl (fun t k => adjust t k f) t).lookup j).map g =
      if j ∈ ks then ((t.lookup j).map g).map h else (t.lookup j).map g := by
  induction ks generalizing t with
  | nil => simp
  | cons k ks ih =>
    rw [foldl_cons, ih, lookup_adjust]
    by_cases hj : j = k
    · subst hj
      cases t.lookup j <;> simp [hf, hh]
    · simp [hj]

theorem lookup_adjustEachM (hn : ks.Nodup) (h : adjustEachM t ks f = some t') (j : K) :
    t'.lookup j = if j ∈ ks then (t.lookup j).bind f else t.lookup j := by
  induction ks generalizing t with
  | nil =>
    cases h
    simp
  | cons k ks ih =>
    obtain ⟨hk, hn'⟩ := nodup_cons.mp hn
    simp only [adjustEachM, List.foldlM_cons, Option.bind_eq_bind, Option.bind_eq_some_iff] at h
    obtain ⟨t₁, h₁, h₂⟩ := h
    rw [ih hn' h₂]
    cases hv : t.lookup k with
    | none =>
      rw [hv] at h₁
      cases h₁
      by_cases hj : j = k
      · subst hj; simp [hv]
      · simp [hj]
    | some v =>
      rw [hv] at h₁
      obtain ⟨w, hw, rfl⟩ := Option.map_eq_some_iff.mp h₁
      by_cases hj : j = k
      · subst hj; simp [hk, hv, hw]
      · simp [hj]

theorem adjustEachM_defined (hn : ks.Nodup) (h : adjustEachM t ks f = some t') (hk : k ∈ ks)
    (hv : t.lookup k = some v) : ∃ w, f v = some w := by
  induction ks generalizing t with
  | nil => cases hk
  | cons j ks ih =>
    obtain ⟨hj, hn'⟩ := nodup_cons.mp hn
    simp only [adjustEachM, List.foldlM_cons, Option.bind_eq_bind, Option.bind_eq_some_iff] at h
    obtain ⟨t₁, h₁, h₂⟩ := h
    cases hv' : t.lookup j with
    | none =>
      rw [hv'] at h₁
      cases h₁
      rcases mem_cons.mp hk with rfl | hk'
      · rw [hv'] at hv
        cases hv
      · exact ih hn' h₂ hk' hv
    | some x =>
      rw [hv'] at h₁
      obtain ⟨w, hw, rfl⟩ := Option.map_eq_some_iff.mp h₁
      rcases mem_cons.mp hk with rfl | hk'
      · rw [hv'] at hv
        cases hv
        exact ⟨w, hw⟩
      · have hne : k ≠ j := fun heq => hj (heq ▸ hk')
        exact ih hn' h₂ hk' (by rw [lookup_insert_eq, if_neg hne, hv])

theorem adjustEachM_isSome (hn : ks.Nodup) (hf : ∀ k ∈ ks, ∀ v, t.lookup k = some v → ∃ w, f v = some w) :
    ∃ t', adjustEachM t ks f = some t' := by
  induction ks generalizing t with
  | nil => exact ⟨t, rfl⟩
  | cons k ks ih =>
    obtain ⟨hk, hn'⟩ := nodup_cons.mp hn
    cases hv : t.lookup k with
    | none =>
      obtain ⟨t', ht'⟩ := ih hn' (fun j hj v h => hf j (List.mem_cons_of_mem _ hj) v h)
      exact ⟨t', by simpa [adjustEachM, hv] using ht'⟩
    | some v =>
      obtain ⟨w, hw⟩ := hf k List.mem_cons_self v hv
      have hrest : ∀ j ∈ ks, ∀ x, (t.insert k w).lookup j = some x → ∃ y, f x = some y := by
        intro j hj x hx
        have hne : j ≠ k := fun heq => hk (heq ▸ hj)
        rw [lookup_insert_eq, if_neg hne] at hx
        exact hf j (List.mem_cons_of_mem _ hj) x hx
      obtain ⟨t', ht'⟩ := ih hn' hrest
      exact ⟨t', by simpa [adjustEachM, hv, hw] using ht'⟩

section Projections

variable {W : Type} (t : Table K V) (proj : V → W)

theorem update_keeps {f : K → V} (h : proj v = proj (f k)) : proj (Function.update f k v j) = proj (f j) := by
  rw [Function.update_apply]
  split
  · rename_i hj
    rw [hj, h]
  · rfl

theorem map_lookup_insert (k : K) (v : V) : (fun j => ((t.insert k v).lookup j).map proj) =
    Function.update (fun j => (t.lookup j).map proj) k (some (proj v)) := by
  funext j
  rw [lookup_insert_eq, Function.update_apply]
  split <;> rfl

theorem map_lookup_insert_same {v' : V} (h : t.lookup k = some v) (hp : proj v' = proj v) :
    (fun j => ((t.insert k v').lookup j).map proj) = fun j => (t.lookup j).map proj := by
  rw [map_lookup_insert, hp]
  exact Function.update_eq_self_iff.mpr (by simp [h])

theorem map_lookup_erase :
    (fun j => ((t.erase k).lookup j).map proj) = Function.update (fun j => (t.lookup j).map proj) k none := by
  funext j
  rw [lookup_erase_eq, Function.update_apply]
  split <;> rfl

theorem map_lookup_adjust_same (k : K) {f : V → V} (hf : ∀ v, proj (f v) = proj v) :
    (fun j => ((adjust t k f).lookup j).map proj) = fun j => (t.lookup j).map proj := by
  funext j
  rw [lookup_adjust]
  split
  · cases t.lookup j <;> simp [hf]
  · rfl

theorem map_lookup_foldl_adjust_same (ks : List K) {f : V → V} (hf : ∀ v, proj (f v) = proj v) :
    (fun j => ((ks.foldl (fun t k => adjust t k f) t).lookup j).map proj) = fun j => (t.lookup j).map proj := by
  induction ks generalizing t with
  | nil => rfl
  | cons k ks ih => rw [foldl_cons, ih, map_lookup_adjust_same t proj k hf]

theorem map_lookup_adjustEachM_same (hn : ks.Nodup)
    (h : adjustEachM t ks f = some t') (hf : ∀ v v', f v = some v' → proj v' = proj v) :
    (fun j => (t'.lookup j).map proj) = fun j => (t.lookup j).map proj := by
  funext j
  rw [lookup_adjustEachM hn h]
  split
  · rename_i hj
    cases hv : t.lookup j with
    | none => rfl
    | some v =>
      obtain ⟨v', hv'⟩ := adjustEachM_defined hn h hj hv
      simp [hv', hf v v' hv']
  · rfl

end Projections

@[simp]
theorem mem_adjust {f : V → V} : j ∈ adjust t k f ↔ j ∈ t := by
  simp only [mem_iff_lookup, lookup_adjust]
  by_cases hj : j = k
  · simp [hj]
  · simp [hj]

theorem mem_addAll {s : KeySet K} : k ∈ addAll s ks ↔ k ∈ s ∨ k ∈ ks := by
  induction ks generalizing s with
  | nil => simp [addAll]
  | cons j ks ih =>
    have h := ih (s := s.insert j ())
    simp only [addAll, foldl_cons] at h ⊢
    rw [h, AList.mem_insert, mem_cons]
    tauto

/-- Of several entries for one key the last one counts. -/
theorem lookup_foldl_insert {A : Type} (key : A → K) (value : A → V) (l : List A) (t : Table K V) (k : K) :
    (l.foldl (fun t a => t.insert (key a) (value a)) t).lookup k =
      ((l.reverse.find? (fun a => decide (key a = k))).map value).or (t.lookup k) := by
  induction l generalizing t with
  | nil => simp
  | cons a l ih =>
    rw [foldl_cons, ih, List.reverse_cons, List.find?_append]
    by_cases hk : key a = k
    · subst hk
      cases l.reverse.find? (fun b => decide (key b = key a)) <;> simp
    · simp [hk, Ne.symm hk]

theorem lookup_removeAll (t : Table K V) (ks : List K) (k : K) :
    (removeAll t ks).lookup k = if k ∈ ks then none else t.lookup k := by
  induction ks generalizing t with
  | nil => simp [removeAll]
  | cons j ks ih =>
    have h := ih (t.erase j)
    simp only [removeAll, foldl_cons] at h ⊢
    rw [h, lookup_erase_eq]
    by_cases hk : k = j
    · simp [hk]
    · simp [hk]

theorem mem_removeAll : k ∈ removeAll t ks ↔ k ∈ t ∧ k ∉ ks := by
  simp only [mem_iff_lookup, lookup_removeAll]
  by_cases hk : k ∈ ks
  · simp [hk]
  · simp [hk]

omit [DecidableEq K] in
theorem isEmpty_iff : isEmpty t = true ↔ ∀ k, k ∉ t := by
  unfold isEmpty
  constructor
  · intro h k hk
    have he : t.entries = [] := by simpa using h
    simp [AList.mem_keys, AList.keys, he] at hk
  · intro h
    cases he : t.entries with
    | nil => rfl
    | cons e es => exact absurd (by simp [AList.mem_keys, AList.keys, he]) (h e.1)

theorem mem_pairs : (k, v) ∈ pairs t ↔ t.lookup k = some v := by
  rw [← Option.mem_def, AList.mem_lookup_iff]
  simp only [pairs, List.mem_map, Prod.mk.injEq]
  constructor
  · rintro ⟨⟨a, b⟩, hm, rfl, rfl⟩
    exact hm
  · exact fun h => ⟨_, h, rfl, rfl⟩

omit [DecidableEq K] in
theorem pairs_keys : (pairs t).map Prod.fst = t.keys := by
  simp [pairs, AList.keys, List.keys]

end Zt.Tables
