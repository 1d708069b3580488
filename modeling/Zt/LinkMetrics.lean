import Zt.LinkRegistry

namespace Zt.LinkMetrics

open Tables LinkRegistry
open EdgeCtrl (Id)

abbrev MetricName := List Char

def linkPart : MetricName := "link.".toList

/-- The link id in the name of a metric. -/
def linkIdOf (name : MetricName) : Option Id :=
  if linkPart.isPrefixOf name then
    let base := name.drop linkPart.length
    if ':' ∈ base then
      match base.splitOn ':' with
      | [_, id] => some (String.ofList id)
      | _ => none
    else (base.splitOn '.').head?.map String.ofList
  else none

def scanForLinkId (reg : Registry) (linkId : Id) : Bool :=
  (pairs reg.destinations).any (fun entry =>
    (destStates reg entry.2).any (fun st => decide ((reg.state st).linkId = linkId)))

def Knows (reg : Registry) (linkId : Id) : Prop :=
  reg.linkByIdMap.lookup linkId ≠ none ∨ scanForLinkId reg linkId = true

/-- What a question for a link finds: the registry, and whether its loop
answers in time. -/
structure Asked where
  reg : Registry
  answers : Bool := true

def isKnownLinkId (asked : Asked) (linkId : Id) : Bool :=
  (asked.reg.linkByIdMap.lookup linkId).isSome || !asked.answers || scanForLinkId asked.reg linkId

/-- A pass with the metrics that it finds and what it finds whenever it asks
for the link of a metric, first to dispose of it and then to collect it. -/
structure Pass where
  metrics : List MetricName
  disposing : MetricName → Asked
  collecting : MetricName → Asked

def isOrphaned (asked : MetricName → Asked) (name : MetricName) : Bool :=
  (linkIdOf name).any (fun linkId => !isKnownLinkId (asked name) linkId)

def getOrphanedLinkMetrics (pass : Pass) : List MetricName := pass.metrics.filter (isOrphaned pass.collecting)

/-- What is disposed of and what is collected. The keys of the results are
names of metrics, and the registry is asked for them as link ids. -/
def gcLinkMetrics (pass : Pass) (lastRunResults : List MetricName) : List MetricName × List MetricName :=
  (lastRunResults.filter (fun linkId => !isKnownLinkId (pass.disposing linkId) (String.ofList linkId)),
    getOrphanedLinkMetrics pass)

/-- The passes with what each of them disposes of. -/
def runGcLinkMetricsLoop (lastRunResults : List MetricName) : List Pass → List (Pass × List MetricName)
  | [] => []
  | pass :: passes =>
    let result := gcLinkMetrics pass lastRunResults
    (pass, result.1) :: runGcLinkMetricsLoop result.2 passes

variable (last pass : Pass)

/-- The link of a metric was unknown when it was collected and is unknown now. -/
def UnknownTwice (name : MetricName) : Prop :=
  ∃ linkId, linkIdOf name = some linkId ∧ ¬ Knows (last.collecting name).reg linkId ∧
    ¬ Knows (pass.disposing name).reg linkId

/-- A pass disposes of nothing but metrics of links that were unknown twice,
and of all the metrics whose links were found to be unknown twice. -/
def DisposesOf (disposed : List MetricName) : Prop :=
  (∀ name ∈ disposed, UnknownTwice last pass name) ∧
    ∀ name ∈ last.metrics, isOrphaned last.collecting name = true → isOrphaned pass.disposing name = true →
      name ∈ disposed

/-- The same over the passes of the loop. The first one has nothing to go by. -/
def DisposesOrphans (run : List (Pass × List MetricName)) : Prop :=
  (∀ first ∈ run.head?, first.2 = []) ∧ run.IsChain (fun last next => DisposesOf last.1 next.1 next.2)

/-- If the registry answers then it knows the name of a metric that was collected
as a link id exactly if it knows the link of the metric. -/
def KnownByName : Prop :=
  ∀ name ∈ getOrphanedLinkMetrics last, (pass.disposing name).answers = true → ∀ linkId, linkIdOf name = some linkId →
    (Knows (pass.disposing name).reg (String.ofList name) ↔ Knows (pass.disposing name).reg linkId)

variable {linkId : Id}

theorem unknown_iff {asked : Asked} :
    isKnownLinkId asked linkId = false ↔ asked.answers = true ∧ ¬ Knows asked.reg linkId := by
  simp only [isKnownLinkId, Knows, Bool.or_eq_false_iff, Option.isSome_eq_false_iff, Option.isNone_iff_eq_none,
    Bool.not_eq_false', not_or, not_not, Bool.not_eq_true]
  tauto

theorem isOrphaned_iff {asked : MetricName → Asked} {name : MetricName} : isOrphaned asked name = true ↔
    ∃ linkId, linkIdOf name = some linkId ∧ isKnownLinkId (asked name) linkId = false := by
  cases h : linkIdOf name <;> simp [isOrphaned, h]

/-- A metric is disposed of rightly as long as the question with its name gives
the answer that its link id would give. -/
theorem disposesOf_iff :
    DisposesOf last pass (gcLinkMetrics pass (getOrphanedLinkMetrics last)).1 ↔ KnownByName last pass := by
  simp only [DisposesOf, KnownByName, gcLinkMetrics, getOrphanedLinkMetrics, List.mem_filter, Bool.not_eq_true']
  constructor
  · rintro ⟨honly, hall⟩ name ⟨hmem, horphan⟩ hans linkId hid
    refine not_iff_not.mp ⟨fun hname => ?_, fun hlink => ?_⟩
    · obtain ⟨linkId', hid', -, hunknown⟩ := honly name ⟨⟨hmem, horphan⟩, unknown_iff.mpr ⟨hans, hname⟩⟩
      rw [hid] at hid'
      cases hid'
      exact hunknown
    · have hnow := isOrphaned_iff.mpr ⟨linkId, hid, unknown_iff.mpr ⟨hans, hlink⟩⟩
      exact (unknown_iff.mp (hall name hmem horphan hnow).2).2
  · intro h
    refine ⟨fun name ⟨⟨hmem, horphan⟩, hname⟩ => ?_, fun name hmem horphan hnow => ⟨⟨hmem, horphan⟩, ?_⟩⟩
    · obtain ⟨linkId, hid, hthen⟩ := isOrphaned_iff.mp horphan
      obtain ⟨hans, hunknown⟩ := unknown_iff.mp hname
      refine ⟨linkId, hid, (unknown_iff.mp hthen).2, ?_⟩
      rwa [← h name ⟨hmem, horphan⟩ hans linkId hid]
    · obtain ⟨linkId, hid, hlink⟩ := isOrphaned_iff.mp hnow
      obtain ⟨hans, hunknown⟩ := unknown_iff.mp hlink
      rw [← h name ⟨hmem, horphan⟩ hans linkId hid] at hunknown
      exact unknown_iff.mpr ⟨hans, hunknown⟩

theorem isChain_loop_iff (passes : List Pass) (last : Pass) (disposed : List MetricName) :
    ((last, disposed) :: runGcLinkMetricsLoop (getOrphanedLinkMetrics last) passes).IsChain
        (fun last next => DisposesOf last.1 next.1 next.2) ↔ (last :: passes).IsChain KnownByName := by
  induction passes generalizing last disposed with
  | nil => simp [runGcLinkMetricsLoop]
  | cons pass passes ih =>
    rw [runGcLinkMetricsLoop, List.isChain_cons_cons, List.isChain_cons_cons, disposesOf_iff]
    exact and_congr_right fun _ => ih pass _

theorem disposesOrphans_iff (passes : List Pass) :
    DisposesOrphans (runGcLinkMetricsLoop [] passes) ↔ passes.IsChain KnownByName := by
  cases passes with
  | nil => simp [DisposesOrphans, runGcLinkMetricsLoop]
  | cons pass passes =>
    rw [← isChain_loop_iff passes pass []]
    simp [DisposesOrphans, runGcLinkMetricsLoop, gcLinkMetrics]

def acceptedLink : Xlink :=
  { ref := 0, id := "l1", key := "default->tls:r1->default", iteration := 1, destinationId := "r1", isDialed := false }

def latencyMetric : MetricName := ['l', 'i', 'n', 'k', '.', 'l', '1', '.', 'l', 'a', 't', 'e', 'n', 'c', 'y']

def passIn (reg : Registry) : Pass := ⟨[latencyMetric], fun _ => ⟨reg, true⟩, fun _ => ⟨reg, true⟩⟩

/-- A link that is accepted between two passes loses its metrics. -/
theorem accepted_link_loses_metrics : ¬ DisposesOrphans (runGcLinkMetricsLoop []
    [passIn (newLinkRegistry []), passIn (applyLink (newLinkRegistry []) acceptedLink).1]) := by
  rintro ⟨-, hrun⟩
  have hid : linkIdOf latencyMetric = some "l1" := by decide
  obtain ⟨linkId, hid', -, hunknown⟩ :=
    (List.isChain_cons_cons.mp hrun).1.1 latencyMetric (by decide)
  rw [hid] at hid'
  cases hid'
  exact hunknown (.inl (by decide))

end Zt.LinkMetrics
