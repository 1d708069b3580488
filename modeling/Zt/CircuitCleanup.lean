import Zt.PathSelection
import Zt.RouteAttempts

namespace Zt.CircuitCleanup

open Tables NetworkPaths RouteMessages CircuitCreation RouteAttempts
open EdgeCtrl (Id IdSet)

variable {params : CircuitParams} {connected : Id → Bool} {sender : RouteSender} {attempt : Nat} {allCleanups : IdSet}
  {pass : Pass} {passes rest : List Pass} {outcome : Outcome}

/-- The first pass stops before routing, or tries and fails, which is retried or
the end, or completes the circuit. -/
inductive Tries (params : CircuitParams) (connected : Id → Bool) (sender : RouteSender) (attempt : Nat)
    (allCleanups : IdSet) (pass : Pass) (passes : List Pass) : Outcome → List Pass → Prop
  | stopped {err : CircuitError} (hprepare : pass.prepare = .error err) :
      Tries params connected sender attempt allCleanups pass passes (stopped params err) passes
  | retried {selection : Selection pass.net} {path : Path} {cleanups : IdSet} {err : CircuitError} {later : Outcome}
      {rest : List Pass} (hprepare : pass.prepare = .ok (selection, path))
      (hresult : (pass.routed sender attempt selection.terminator path).result = .error (cleanups, err))
      (hlater : attempts params connected (pass.routed sender attempt selection.terminator path).sender (attempt + 1)
        (addAll allCleanups cleanups.keys) passes = some (later, rest)) :
      Tries params connected sender attempt allCleanups pass passes
        (later.after (pass.tried params attempt selection.terminator path
            (pass.routed sender attempt selection.terminator path).consumed false)
          ((pass.routed sender attempt selection.terminator path).notices ++
            [.circuitFailed params.circuitId err.1])) rest
  | exhausted {selection : Selection pass.net} {path : Path} {cleanups : IdSet} {err : CircuitError}
      (hprepare : pass.prepare = .ok (selection, path))
      (hresult : (pass.routed sender attempt selection.terminator path).result = .error (cleanups, err)) :
      Tries params connected sender attempt allCleanups pass passes
        ((exhausted params connected (addAll allCleanups cleanups.keys) err).after
          (pass.tried params attempt selection.terminator path
            (pass.routed sender attempt selection.terminator path).consumed false)
          ((pass.routed sender attempt selection.terminator path).notices ++
            [.circuitFailed params.circuitId err.1])) passes
  | completed {selection : Selection pass.net} {path : Path} {data : Option PeerData}
      (hprepare : pass.prepare = .ok (selection, path))
      (hresult : (pass.routed sender attempt selection.terminator path).result = .ok data) :
      Tries params connected sender attempt allCleanups pass passes
        ((completed params connected allCleanups (routerIds pass.net path)
            (newCircuit params selection.terminator path (data.getD ∅) selection.strategyData)).after
          (pass.tried params attempt selection.terminator path
            (pass.routed sender attempt selection.terminator path).consumed true)
          (pass.routed sender attempt selection.terminator path).notices) passes

theorem attempts_tries (h : attempts params connected sender attempt allCleanups (pass :: passes) =
    some (outcome, rest)) : Tries params connected sender attempt allCleanups pass passes outcome rest := by
  rw [attempts] at h
  cases hprep : pass.prepare with
  | error err =>
    rw [hprep] at h
    cases h
    exact .stopped hprep
  | ok prepared =>
    obtain ⟨selection, path⟩ := prepared
    rw [hprep] at h
    simp only at h
    cases hres : (pass.routed sender attempt selection.terminator path).result with
    | error failed =>
      rw [hres] at h
      simp only at h
      split at h
      · obtain ⟨⟨later, left⟩, hlater, heq⟩ := Option.map_eq_some_iff.mp h
        cases heq
        exact .retried hprep hres hlater
      · cases h
        exact .exhausted hprep hres
    | ok data =>
      rw [hres] at h
      cases h
      exact .completed hprep hres

def Prepared (pass : Pass) : Prop := ∃ prepared, pass.prepare = .ok prepared

/-- The router answered an attempt whose path it was on, while the sender was
waiting for that attempt. -/
def InTime (attempts : List Attempt) (id : Id) : Prop :=
  ∃ tried ∈ attempts, id ∈ tried.nodes ∧ Answered tried.attempt tried.consumed id

def OnPath (outcome : Outcome) (id : Id) : Prop :=
  ∃ circuit routers, outcome.created = .ok (circuit, routers) ∧ id ∈ routers

/-- A success status of the router was taken from the channel, for whatever
attempt. -/
def Consumed (outcome : Outcome) (id : Id) : Prop :=
  ∃ tried ∈ outcome.attempts, ∃ status ∈ tried.consumed, status.success = true ∧ status.router = id

def Clean (connected : Id → Bool) (outcome : Outcome) : Prop :=
  ∀ id, Consumed outcome id → OnPath outcome id ∨ (connected id = true → id ∈ outcome.unroutes)

section Cleanups

variable {id : Id} {terminator : Terminator} {err : CircuitError}

theorem inTime_cons {tried : Attempt} {attempts : List Attempt} : InTime (tried :: attempts) id ↔
    id ∈ tried.nodes ∧ Answered tried.attempt tried.consumed id ∨ InTime attempts id := by
  simp [InTime]

theorem inTime_nil : ¬ InTime [] id := by simp [InTime]

/-- An attempt that fails returns the routers of its path that answered. -/
theorem routed_cleanups {path : Path} {cleanups : IdSet}
    (h : (pass.routed sender attempt terminator path).result = .error (cleanups, err)) :
    id ∈ cleanups ↔ id ∈ routerIds pass.net path ∧
      Answered attempt (pass.routed sender attempt terminator path).consumed id := by
  have hcleanups : cleanups = (pass.routed sender attempt terminator path).sender.cleanups (routerIds pass.net path) :=
    await_error _ _ _ _ _ _ h
  rw [hcleanups, mem_cleanups]
  unfold Pass.routed
  rw [route_attendance]
  split <;> simp_all

theorem mem_allCleanups {path : Path} {cleanups : IdSet}
    (h : (pass.routed sender attempt terminator path).result = .error (cleanups, err)) :
    id ∈ addAll allCleanups cleanups.keys ↔ id ∈ allCleanups ∨ id ∈ routerIds pass.net path ∧
      Answered attempt (pass.routed sender attempt terminator path).consumed id := by
  rw [mem_addAll, ← AList.mem_keys, routed_cleanups h]

theorem onPath_iff {circuit : Circuit} {routers : List Id}
    (hcreated : outcome.created = .ok (circuit, routers)) : OnPath outcome id ↔ id ∈ routers := by
  simp [OnPath, hcreated]

theorem not_onPath {err : String} (hcreated : outcome.created = .error err) : ¬ OnPath outcome id := by
  rintro ⟨circuit, routers, hok, -⟩
  cases hcreated.symm.trans hok

/-- Either all passes came to route and the routers that answered in time, or
before, are taken care of, or a pass stopped before and none are. -/
theorem attempts_cleaned (h : attempts params connected sender attempt allCleanups passes = some (outcome, [])) :
    (∀ pass ∈ passes, Prepared pass) ∧ (∀ id, connected id = true →
      (OnPath outcome id ∨ id ∈ outcome.unroutes ↔ id ∈ allCleanups ∨ InTime outcome.attempts id)) ∨
    (∃ pass ∈ passes, ¬ Prepared pass) ∧ ∀ id, ¬ OnPath outcome id ∧ id ∉ outcome.unroutes := by
  induction passes generalizing sender attempt allCleanups outcome with
  | nil => cases h
  | cons pass passes ih =>
    cases attempts_tries h with
    | stopped hprep =>
      refine .inr ⟨⟨pass, List.mem_cons_self, ?_⟩, fun id => ⟨not_onPath rfl, by simp [stopped]⟩⟩
      rintro ⟨prepared, hok⟩
      cases hprep.symm.trans hok
    | retried hprep hres hlater =>
      rcases ih hlater with ⟨hprepared, hclean⟩ | ⟨⟨other, hmem, hstopped⟩, hnone⟩
      · refine .inl ⟨List.forall_mem_cons.mpr ⟨⟨_, hprep⟩, hprepared⟩, fun id hid => ?_⟩
        have hadded := hclean id hid
        rw [mem_allCleanups hres, or_assoc] at hadded
        rw [Outcome.after, inTime_cons]
        exact hadded
      · exact .inr ⟨⟨other, List.mem_cons_of_mem _ hmem, hstopped⟩, hnone⟩
    | exhausted hprep hres =>
      refine .inl ⟨by simpa using ⟨_, hprep⟩, fun id hid => ?_⟩
      rw [or_iff_right (not_onPath rfl)]
      simp only [Outcome.after, exhausted, List.mem_filter, hid, and_true, inTime_cons, or_iff_left inTime_nil]
      rw [← AList.mem_keys, mem_allCleanups hres]
      rfl
    | @completed selection path data hprep hres =>
      refine .inl ⟨by simpa using ⟨_, hprep⟩, fun id hid => ?_⟩
      have hanswered (hmem : id ∈ routerIds pass.net path) :
          Answered attempt (pass.routed sender attempt selection.terminator path).consumed id :=
        route_answered _ _ _ _ _ hres (.inl hmem)
      rw [onPath_iff rfl]
      simp only [Outcome.after, completed, List.mem_filter, hid, inTime_cons, or_iff_left inTime_nil,
        ← AList.mem_keys, Pass.tried]
      by_cases hmem : id ∈ routerIds pass.net path
      · simp [hmem, hanswered hmem]
      · simp [hmem]

/-- Every router that answered is on the path or unrouted exactly if no pass
stops before routing and each one, if still connected, answered in time. -/
theorem creation_cleans_up_iff (params : CircuitParams) (connected : Id → Bool) (passes : List Pass)
    (outcome : Outcome) (h : createCircuit params connected passes = some (outcome, [])) :
    Clean connected outcome ↔ ∀ id, Consumed outcome id → connected id = true →
      (∀ pass ∈ passes, Prepared pass) ∧ InTime outcome.attempts id := by
  refine forall_congr' (fun id => forall_congr' (fun hconsumed => ?_))
  by_cases hid : connected id = true
  · simp only [hid, forall_const]
    rcases attempts_cleaned h with ⟨hprepared, hclean⟩ | ⟨⟨pass, hmem, hstopped⟩, hnone⟩
    · rw [hclean id hid, or_iff_right (AList.notMem_empty id), and_iff_right hprepared]
    · refine iff_of_false ?_ (fun hright => hstopped (hright.1 pass hmem))
      rintro (honPath | hunrouted)
      · exact (hnone id).1 honPath
      · exact (hnone id).2 hunrouted
  · simp [hid]

def goneTerminator : Pass where
  net := PathSelection.twoRouters
  selected := .ok { terminator := hostedBy "b", pathNodes := [0, 1], hosted := by decide }
  newIngressId := .ok "in"
  newEgressId := .ok "out"
  statuses := [⟨"a", 0, true, "", ∅, none⟩, ⟨"b", 0, false, "gone", ∅, some 1⟩]

def noTerminator : Pass :=
  { goneTerminator with selected := .error (.noTerminators, "service s has no terminators") }

def requested (createCircuitRetries : Nat) : CircuitParams :=
  { circuitId := "c", clientId := "client", serviceId := "s", createCircuitRetries := createCircuitRetries }

theorem one_try_cleans_up : ∃ outcome,
    createCircuit (requested 1) (fun _ => true) [goneTerminator] = some (outcome, []) ∧
      Clean (fun _ => true) outcome := by
  refine ⟨_, rfl, (creation_cleans_up_iff (requested 1) (fun _ => true) [goneTerminator] _ rfl).mpr ?_⟩
  rintro id ⟨tried, htried, status, hstatus, hsuccess, rfl⟩ -
  cases List.mem_singleton.mp htried
  refine ⟨by simpa using ⟨_, rfl⟩, _, List.mem_singleton_self _, ?_⟩
  rcases List.mem_pair.mp hstatus with rfl | rfl
  · exact ⟨by decide, _, List.mem_cons_self, rfl, rfl, rfl⟩
  · cases hsuccess

/-- The first router answered, the second says that the terminator is gone, and
then the service has no terminators left. -/
theorem early_exit_leaves_route : ∃ outcome,
    createCircuit (requested 2) (fun _ => true) [goneTerminator, noTerminator] = some (outcome, []) ∧
      Consumed outcome "a" ∧ outcome.unroutes = [] ∧ ¬ Clean (fun _ => true) outcome := by
  refine ⟨_, rfl, ?_, rfl, ?_⟩
  · exact ⟨_, List.mem_cons_self, _, List.mem_cons_self, rfl, rfl⟩
  · intro hclean
    rcases hclean "a" ⟨_, List.mem_cons_self, _, List.mem_cons_self, rfl, rfl⟩ with honPath | hunrouted
    · exact not_onPath rfl honPath
    · cases hunrouted rfl

end Cleanups

end Zt.CircuitCleanup
