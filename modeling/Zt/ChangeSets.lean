import Mathlib.Logic.Function.Basic
import Zt.EventCache
import Zt.Runs

namespace Zt.ChangeSets

open Tables EdgeCtrl EventCache Runs
open Function (update forall_update_iff)

structure NonHaIndexProvider where
  index : UInt64

/-- A context that carries an index keeps it; any other gets the next one. -/
def NonHaIndexProvider.nextIndex (p : NonHaIndexProvider) : Option UInt64 → UInt64 × NonHaIndexProvider
  | some index => (index, p)
  | none => (p.index + 1, ⟨p.index + 1⟩)

open NonHaIndexProvider (nextIndex)

structure InstantStrategy where
  indexProvider : NonHaIndexProvider
  cache : LoggingEventCache
  changeSets : Table UInt64 ChangeSet := ∅

variable (st : InstantStrategy)

def addToChangeSet (index : UInt64) (event : Event) : InstantStrategy :=
  let changeSet := (st.changeSets.lookup index).getD { index := index }
  { st with
    changeSets := st.changeSets.insert index { changeSet with changes := changeSet.changes ++ [event] } }

/-- The new state, and whether the event cache took the change set. -/
def applyChangeSet (change : ChangeSet) : Bool × InstantStrategy :=
  match storeLocked st.cache change with
  | .ok cache => (true, { st with cache := cache })
  | .error _ => (false, st)

/-- The new state, and the change set that was handed on, if any, with whether
it was accepted. -/
def completeChangeSet : Option UInt64 → Option (ChangeSet × Bool) × InstantStrategy
  | none => (none, st)
  | some index =>
    let changeSet := st.changeSets.lookup index
    let st := { st with changeSets := removeAll st.changeSets (st.changeSets.keys.filter (· ≤ index)) }
    match changeSet with
    | none => (none, st)
    | some changeSet =>
      let (accepted, st) := applyChangeSet st changeSet
      (some (changeSet, accepted), st)

/-- A transaction: the index its context carries, what it added, and whether
its completion was processed. -/
structure Tx where
  index : Option UInt64 := none
  events : List Event := []
  completed : Bool := false

structure Assembly where
  strategy : InstantStrategy
  txs : Nat → Tx := fun _ => {}
  handed : List (ChangeSet × Bool) := []

inductive TxOp
  | nextIndex (tx : Nat)
  | add (tx : Nat) (event : Event)
  | complete (tx : Nat)

def start (logSize : Nat) (index : UInt64) : Assembly :=
  { strategy :=
      { indexProvider := ⟨index⟩, cache := setCurrentIndex (newLoggingEventCache logSize) index } }

variable (a : Assembly)

def step : TxOp → Assembly
  | .nextIndex tx =>
    let (index, provider) := a.strategy.indexProvider.nextIndex (a.txs tx).index
    { a with
      strategy := { a.strategy with indexProvider := provider }
      txs := update a.txs tx { a.txs tx with index := some index } }
  | .add tx event =>
    match (a.txs tx).index with
    | none => a
    | some index =>
      { a with
        strategy := addToChangeSet a.strategy index event
        txs := update a.txs tx { a.txs tx with events := (a.txs tx).events ++ [event] } }
  | .complete tx =>
    let (handed, strategy) := completeChangeSet a.strategy (a.txs tx).index
    { a with
      strategy := strategy
      handed := a.handed ++ handed.toList
      txs := update a.txs tx { a.txs tx with completed := true } }

/-- A transaction gets an index, adds at least one event and completes once.
The provider does not run out of indexes. -/
def Protocol : TxOp → Prop
  | .nextIndex tx =>
    (a.txs tx).completed = false ∧
      ((a.txs tx).index = none → a.strategy.indexProvider.index ≠ 18446744073709551615)
  | .add tx _ => (a.txs tx).completed = false ∧ (a.txs tx).index ≠ none
  | .complete tx => (a.txs tx).completed = false ∧ (a.txs tx).events ≠ []

/-- A transaction completes only when no open one has a smaller index. -/
def InOrder : TxOp → Prop
  | .complete tx => ∀ other index smaller, (a.txs tx).index = some index →
      (a.txs other).index = some smaller → smaller < index → (a.txs other).completed = true
  | _ => True

/-- The change set of each completed transaction, with all its events in order,
was handed on once and accepted. -/
def AllHanded : Prop :=
  ∀ tx index, (a.txs tx).completed = true → (a.txs tx).index = some index →
    a.handed.filter (·.1.index = index) = [({ index := index, changes := (a.txs tx).events }, true)]

structure TxInv (handed : List (ChangeSet × Bool)) (tx : Tx) : Prop where
  issued : ∀ index, tx.index = some index → index ≤ st.indexProvider.index
  ahead : ∀ index, tx.completed = false → tx.index = some index → currentIndex st.cache < index
  pending : ∀ index, tx.completed = false → tx.index = some index → st.changeSets.lookup index =
      if tx.events = [] then none else some { index := index, changes := tx.events }
  unindexed : tx.index = none → tx.events = []
  handed : ∀ index, tx.completed = true → tx.index = some index →
    handed.filter (·.1.index = index) = [({ index := index, changes := tx.events }, true)]

structure AssemblyInv (a : Assembly) : Prop where
  sized : Sized a.strategy.cache
  head : currentIndex a.strategy.cache ≤ a.strategy.indexProvider.index
  txs : ∀ tx, TxInv a.strategy a.handed (a.txs tx)
  distinct : ∀ tx other index, (a.txs tx).index = some index → (a.txs other).index = some index → tx = other
  keys : ∀ index ∈ a.strategy.changeSets, ∃ tx, (a.txs tx).completed = false ∧ (a.txs tx).index = some index
  past : ∀ h ∈ a.handed, h.1.index ≤ currentIndex a.strategy.cache

variable {index : UInt64}

theorem assemblyInv_start {logSize : Nat} (hn : 1 ≤ logSize) : AssemblyInv (start logSize index) := by
  obtain ⟨hsized, hcur⟩ := sized_start hn
  refine ⟨hsized, ?_, ?_, nofun, by simp [start], nofun⟩
  · simp only [start, hcur]
    exact UInt64.le_refl _
  · exact fun _ => ⟨nofun, nofun, nofun, fun _ => rfl, nofun⟩

variable {a : Assembly} {tx : Nat}

theorem step_nextIndex_of_some (h : (a.txs tx).index = some index) : step a (.nextIndex tx) = a := by
  have hsame : { a.txs tx with index := some index } = a.txs tx := by rw [← h]
  simp [step, h, nextIndex, hsame]

theorem assemblyInv_nextIndex (hi : AssemblyInv a) (hp : Protocol a (.nextIndex tx)) :
    AssemblyInv (step a (.nextIndex tx)) := by
  cases hindex : (a.txs tx).index with
  | some index => exact (step_nextIndex_of_some hindex).symm ▸ hi
  | none =>
    obtain ⟨hopen, hmax⟩ := hp
    have hlt : a.strategy.indexProvider.index < a.strategy.indexProvider.index + 1 := by
      grind
    have hle := UInt64.le_of_lt hlt
    have hnew : ∀ other index, (a.txs other).index = some index → index ≠ a.strategy.indexProvider.index + 1 := by
      rintro other - h rfl
      exact absurd ((hi.txs other).issued _ h) (UInt64.not_le.mpr hlt)
    have hfresh : a.strategy.indexProvider.index + 1 ∉ a.strategy.changeSets := by
      intro hk
      obtain ⟨other, -, hother⟩ := hi.keys _ hk
      exact hnew other _ hother rfl
    simp only [step, hindex, nextIndex]
    refine ⟨hi.sized, UInt64.le_trans hi.head hle, ?_, ?_, ?_, hi.past⟩
    · refine (forall_update_iff _ (fun _ t => TxInv _ _ t)).mpr ⟨?_, fun other hne => ?_⟩
      · refine ⟨?_, ?_, ?_, nofun, by simp [hopen]⟩
        · rintro _ ⟨⟩
          exact UInt64.le_refl _
        · rintro _ _ ⟨⟩
          exact UInt64.lt_of_le_of_lt hi.head hlt
        · simp [(hi.txs tx).unindexed hindex, AList.lookup_eq_none.mpr hfresh]
      · have h := hi.txs other
        exact ⟨fun i hidx => UInt64.le_trans (h.issued i hidx) hle, h.ahead, h.pending, h.unindexed, h.handed⟩
    · intro t other index ht hother
      simp only [Function.update_apply] at ht hother
      split_ifs at ht hother with h₁ h₂ h₂
      · rw [h₁, h₂]
      · cases ht
        exact absurd rfl (hnew other _ hother)
      · cases hother
        exact absurd rfl (hnew t _ ht)
      · exact hi.distinct t other index ht hother
    · intro index hmem
      obtain ⟨other, hopen', hother⟩ := hi.keys index hmem
      have hne : other ≠ tx := by
        rintro rfl
        simp [hindex] at hother
      exact ⟨other, by simp [hne, hopen'], by simp [hne, hother]⟩

theorem update_index (txs : Nat → Tx) {t : Tx} (ht : t.index = (txs tx).index) (other : Nat) :
    (update txs tx t other).index = (txs other).index := by
  by_cases h : other = tx
  · subst h; simp [ht]
  · simp [h]

theorem assemblyInv_add (hi : AssemblyInv a) {event : Event} (hp : Protocol a (.add tx event)) :
    AssemblyInv (step a (.add tx event)) := by
  obtain ⟨hopen, hsome⟩ := hp
  obtain ⟨index, hindex⟩ := Option.ne_none_iff_exists'.mp hsome
  have htx := hi.txs tx
  have hset : (a.strategy.changeSets.lookup index).getD { index := index } =
      { index := index, changes := (a.txs tx).events } := by
    rw [htx.pending index hopen hindex]
    split <;> simp_all
  have hkept := update_index a.txs (t := ⟨some index, (a.txs tx).events ++ [event], (a.txs tx).completed⟩) hindex.symm
  simp only [step, hindex, addToChangeSet, hset]
  refine ⟨hi.sized, hi.head, ?_, ?_, ?_, hi.past⟩
  · refine (forall_update_iff _ (fun _ t => TxInv _ _ t)).mpr ⟨?_, fun other hne => ?_⟩
    · refine ⟨?_, ?_, ?_, nofun, by simp [hopen]⟩
      · rintro _ ⟨⟩
        exact htx.issued index hindex
      · rintro _ _ ⟨⟩
        exact htx.ahead index hopen hindex
      · simp
    · have h := hi.txs other
      refine ⟨h.issued, h.ahead, ?_, h.unindexed, h.handed⟩
      intro i hopen' hidx
      have hne' : i ≠ index := fun heq => hne (hi.distinct other tx i hidx (heq ▸ hindex))
      rw [lookup_insert_eq, if_neg hne']
      exact h.pending i hopen' hidx
  · intro t other i ht hother
    rw [hkept] at ht hother
    exact hi.distinct t other i ht hother
  · intro i hmem
    rcases (AList.mem_insert _).mp hmem with rfl | hmem
    · exact ⟨tx, by simp [hopen], by simp⟩
    · obtain ⟨other, hopen', hother⟩ := hi.keys i hmem
      refine ⟨other, ?_, (hkept other).trans hother⟩
      by_cases h : other = tx
      · subst h; simp [hopen]
      · simp [h, hopen']

/-- The transaction's own set is accepted if it is still there; the sets of
smaller indexes go with it. -/
theorem completeChangeSet_own (hi : AssemblyInv a) (hp : Protocol a (.complete tx))
    (hindex : (a.txs tx).index = some index) : ∃ st, completeChangeSet a.strategy (some index) =
        (some ({ index := index, changes := (a.txs tx).events }, true), st) ∧
      Sized st.cache ∧ currentIndex st.cache = index ∧ st.indexProvider = a.strategy.indexProvider ∧
      (∀ i, index < i → st.changeSets.lookup i = a.strategy.changeSets.lookup i) ∧
      ∀ i ∈ st.changeSets, i ∈ a.strategy.changeSets ∧ index < i := by
  obtain ⟨hopen, hne⟩ := hp
  have hset := (hi.txs tx).pending index hopen hindex
  rw [if_neg hne] at hset
  obtain ⟨cache, hstore, hsized, hcur⟩ := storeLocked_accepts hi.sized
    { index := index, changes := (a.txs tx).events } rfl ((hi.txs tx).ahead index hopen hindex)
  refine ⟨⟨a.strategy.indexProvider, cache, removeAll a.strategy.changeSets
    (a.strategy.changeSets.keys.filter (· ≤ index))⟩, ?_, hsized, hcur, rfl, ?_, ?_⟩
  · simp [completeChangeSet, hset, applyChangeSet, hstore]
  · intro i hlt
    rw [lookup_removeAll, if_neg]
    intro hmem
    exact absurd (of_decide_eq_true (List.mem_filter.mp hmem).2) (UInt64.not_le.mpr hlt)
  · intro i hmem
    obtain ⟨hin, hout⟩ := mem_removeAll.mp hmem
    refine ⟨hin, UInt64.not_le.mp fun hle => hout ?_⟩
    exact List.mem_filter.mpr ⟨AList.mem_keys.mp hin, decide_eq_true hle⟩

theorem assemblyInv_complete (hi : AssemblyInv a) (hp : Protocol a (.complete tx)) (ho : InOrder a (.complete tx)) :
    AssemblyInv (step a (.complete tx)) := by
  have htx := hi.txs tx
  obtain ⟨index, hindex⟩ := Option.ne_none_iff_exists'.mp (fun h => hp.2 (htx.unindexed h))
  have hahead := htx.ahead index hp.1 hindex
  obtain ⟨st, hst, hsized, hcur, hprov, hlook, hkeys⟩ := completeChangeSet_own hi hp hindex
  have hkept := update_index a.txs (t := ⟨some index, (a.txs tx).events, true⟩) hindex.symm
  have hother : ∀ other i, other ≠ tx → (a.txs other).completed = false → (a.txs other).index = some i →
      index < i := by
    intro other i hne hopen hidx
    have hle : ¬ i < index := fun hlt => by simp [ho other index i hindex hidx hlt] at hopen
    have hne' : i ≠ index := fun heq => hne (hi.distinct other tx i hidx (heq ▸ hindex))
    grind
  have hgone : a.handed.filter (·.1.index = index) = [] := by
    refine List.filter_eq_nil_iff.mpr fun h hmem => ?_
    have := hi.past h hmem
    grind
  simp only [step, hindex, hst]
  refine ⟨hsized, ?_, ?_, ?_, ?_, ?_⟩
  · rw [hcur, hprov]
    exact htx.issued index hindex
  · refine (forall_update_iff _ (fun _ t => TxInv _ _ t)).mpr ⟨?_, fun other hne => ?_⟩
    · refine ⟨?_, nofun, nofun, nofun, ?_⟩
      · rintro _ ⟨⟩
        exact hprov ▸ htx.issued index hindex
      · simp [hgone]
    · have h := hi.txs other
      refine ⟨?_, ?_, ?_, h.unindexed, ?_⟩
      · exact hprov ▸ h.issued
      · intro i hopen hidx
        exact hcur ▸ hother other i hne hopen hidx
      · intro i hopen hidx
        rw [hlook i (hother other i hne hopen hidx)]
        exact h.pending i hopen hidx
      · intro i hdone hidx
        have hne' : index ≠ i := fun heq => hne (hi.distinct other tx i hidx (heq ▸ hindex))
        simpa [hne'] using h.handed i hdone hidx
  · intro t other i ht hother'
    rw [hkept] at ht hother'
    exact hi.distinct t other i ht hother'
  · intro i hmem
    obtain ⟨hin, hlt⟩ := hkeys i hmem
    obtain ⟨other, hopen, hidx⟩ := hi.keys i hin
    have hne : other ≠ tx := by
      rintro rfl
      rw [hindex] at hidx
      cases hidx
      exact absurd hlt (UInt64.lt_irrefl _)
    exact ⟨other, by simp [hne, hopen], by simp [hne, hidx]⟩
  · intro h hmem
    rw [hcur]
    rcases List.mem_append.mp hmem with hmem | hmem
    · exact UInt64.le_of_lt (UInt64.lt_of_le_of_lt (hi.past h hmem) hahead)
    · rw [List.mem_singleton.mp hmem]
      exact UInt64.le_refl _

theorem assemblyInv_step (hi : AssemblyInv a) {op : TxOp} (hp : Protocol a op) (ho : InOrder a op) :
    AssemblyInv (step a op) := by
  cases op with
  | nextIndex tx => exact assemblyInv_nextIndex hi hp
  | add tx event => exact assemblyInv_add hi hp
  | complete tx => exact assemblyInv_complete hi hp ho

/-- Transactions that complete by increasing index lose nothing. -/
theorem all_handed_of_inOrder (logSize : Nat) (hn : 1 ≤ logSize) (index : UInt64) (ops : List TxOp)
    (hp : Meets Protocol step (start logSize index) ops) (ho : Meets InOrder step (start logSize index) ops) :
    AllHanded (ops.foldl step (start logSize index)) := by
  have hi := (hp.and ho).invariant AssemblyInv (fun _ _ hi hc => assemblyInv_step hi hc.1 hc.2)
    (assemblyInv_start hn)
  exact fun tx i hdone hidx => (hi.txs tx).handed i hdone hidx

def revoke (id : Id) : Event := { model := .revocation { id := id } }

/-- Two transactions whose sets are built at the same time. -/
def interleaved (first second : Nat) : List TxOp :=
  [.nextIndex 0, .nextIndex 1, .add 0 (revoke "a"), .add 1 (revoke "b"), .complete first, .complete second]

theorem all_handed_interleaved : (1 ≤ 10 ∧ Meets Protocol step (start 10 7) (interleaved 0 1) ∧
      Meets InOrder step (start 10 7) (interleaved 0 1)) ∧
    AllHanded ((interleaved 0 1).foldl step (start 10 7)) := by
  have hp : Meets Protocol step (start 10 7) (interleaved 0 1) := by
    simp [interleaved, Meets, Protocol, step, start, nextIndex]
  have ho : Meets InOrder step (start 10 7) (interleaved 0 1) := by
    simp only [interleaved, Meets, InOrder, step, start, nextIndex, true_and, and_true]
    constructor <;> intro other index smaller hindex hother hlt <;> cases hindex
    · rcases other with _ | _ | other
      · cases hother
        exact absurd hlt (by decide)
      · cases hother
        exact absurd hlt (by decide)
      · simp [update] at hother
    · rcases other with _ | _ | other
      · rfl
      · cases hother
        exact absurd hlt (by decide)
      · simp [update] at hother
  exact ⟨⟨by decide, hp, ho⟩, all_handed_of_inOrder 10 (by decide) 7 _ hp ho⟩

/-- The later transaction completes first and takes the pending set of the
earlier one away. -/
theorem set_lost_out_of_order : Meets Protocol step (start 10 7) (interleaved 1 0) ∧
    ¬ AllHanded ((interleaved 1 0).foldl step (start 10 7)) := by
  constructor
  · simp [interleaved, Meets, Protocol, step, start, nextIndex]
  · intro h
    have hval : ((interleaved 1 0).foldl step (start 10 7)).handed =
        [({ index := 9, changes := [revoke "b"] }, true)] := by
      rfl
    have hlost := h 0 8 (by rfl) (by rfl)
    rw [hval] at hlost
    simp at hlost

end Zt.ChangeSets
