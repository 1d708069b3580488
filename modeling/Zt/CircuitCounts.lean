import Mathlib.Algebra.Order.Ring.Nat
import Mathlib.Algebra.Order.BigOperators.Group.List
import Zt.CircuitCleanup
import Zt.CostVisitor
import Zt.Mirroring

namespace Zt.CircuitCounts

open Tables Topology NetworkPaths RouteMessages CircuitCreation RouteAttempts CircuitCleanup CostVisitor
open EdgeCtrl (Id IdTable IdSet)
open Visitor (getCircuitCount handleNotice)
open Mirroring (KeyedBy)
open List (countP_cons forall_mem_cons map_cons sum_cons forall_mem_append mem_singleton)

/-- A creation in progress, with the notices that it has given and that it will
give before it ends with its outcome. -/
structure Creation where
  given : List Notice
  left : List Notice
  outcome : Outcome

/-- A call of RemoveCircuit that has found its circuit, before and after it takes
the circuit from the table. -/
structure Removal where
  circuit : Circuit
  removed : Bool := false

structure System where
  costs : IdTable TerminatorCosts := ∅
  circuits : IdTable Circuit := ∅
  creating : List Creation := []
  removing : IdTable Removal := ∅
  finished : List Outcome := []

def addCreated (circuits : IdTable Circuit) (outcome : Outcome) : IdTable Circuit :=
  match outcome.created with
  | .ok (circuit, _) => circuits.insert circuit.id circuit
  | .error _ => circuits

def removeCircuit (s : System) (circuitId : Id) : System × Option String :=
  match s.circuits.lookup circuitId with
  | some circuit => ({ s with removing := s.removing.insert circuitId ⟨circuit, false⟩ }, none)
  | none => (s, some ("invalid circuit (" ++ circuitId ++ ")"))

/-- Creations run at the same time as others and as removals, but no circuit is
removed by two calls at once. The ids of new circuits are not in use. The service
of a removed circuit exists and its strategy is told, whoever took the circuit
from the table. -/
inductive Step (visitor : Visitor) (s : System) : System → Prop
  | start {params : CircuitParams} {connected : Id → Bool} {passes rest : List Pass} {outcome : Outcome}
      (hcreate : createCircuit params connected passes = some (outcome, rest)) :
      Step visitor s { s with creating := ⟨[], outcome.notices, outcome⟩ :: s.creating }
  | notify {before after : List Creation} {given left : List Notice} {notice : Notice} {outcome : Outcome}
      (hcreating : s.creating = before ++ ⟨given, notice :: left, outcome⟩ :: after) :
      Step visitor s { s with
        costs := visitor.handleNotice s.costs notice
        creating := before ++ ⟨given ++ [notice], left, outcome⟩ :: after }
  | finish {before after : List Creation} {given : List Notice} {outcome : Outcome}
      (hcreating : s.creating = before ++ ⟨given, [], outcome⟩ :: after)
      (hfresh : ∀ circuit routers, outcome.created = .ok (circuit, routers) → circuit.id ∉ s.circuits) :
      Step visitor s { s with
        circuits := addCreated s.circuits outcome
        creating := before ++ after
        finished := outcome :: s.finished }
  | remove {circuitId : Id} (hone : circuitId ∉ s.removing) : Step visitor s (removeCircuit s circuitId).1
  | erase {circuitId : Id} {circuit : Circuit} (hremoving : s.removing.lookup circuitId = some ⟨circuit, false⟩) :
      Step visitor s { s with
        circuits := s.circuits.erase circuit.id
        removing := s.removing.insert circuitId ⟨circuit, true⟩ }
  | notifyRemoved {circuitId : Id} {circuit : Circuit}
      (hremoving : s.removing.lookup circuitId = some ⟨circuit, true⟩) :
      Step visitor s { s with
        costs := visitor.visitCircuitRemoved s.costs circuit.terminator.id
        removing := s.removing.erase circuitId }

def Below (visitor : Visitor) (s : System) : Prop :=
  ∀ id, getCircuitCount s.costs id < maxUint32 / visitor.circuitCost

/-- The runs in which no count gets to the bound. -/
inductive Run (visitor : Visitor) : System → Prop
  | init : Run visitor {}
  | step {s s' : System} (hrun : Run visitor s) (hbelow : Below visitor s) (hstep : Step visitor s s') : Run visitor s'

def countIn {V : Type} (p : V → Bool) (t : IdTable V) : Nat := t.entries.countP (fun entry => p entry.2)

def live (id : Id) (circuits : IdTable Circuit) : Nat :=
  countIn (fun circuit => decide (circuit.terminator.id = id)) circuits

/-- The circuits of a terminator that were taken from the table and are counted
still. -/
def owed (id : Id) (removing : IdTable Removal) : Nat :=
  countIn (fun removal => removal.removed && decide (removal.circuit.terminator.id = id)) removing

/-- The routers of an attempt and of those before it that have not answered. -/
def awaited (left : List Id) (tried : Attempt) : List Id :=
  (left ++ tried.nodes).filter (fun id => !decide (Answered tried.attempt tried.consumed id))

/-- Every router has answered and none has failed. -/
def Completes (left : List Id) (tried : Attempt) : Prop :=
  awaited left tried = [] ∧ ∀ status ∈ tried.consumed, ¬ Fails tried.attempt status

instance (left : List Id) (tried : Attempt) : Decidable (Completes left tried) := inferInstanceAs (Decidable (_ ∧ _))

/-- The terminating router answers an attempt once if every other router does, and
not at all if one fails or stays silent. -/
def Even (id : Id) (outcome : Outcome) : Prop :=
  ∀ earlier tried later, outcome.attempts = earlier ++ tried :: later → tried.terminator.id = id →
    tried.consumed.countP (fun status => decide (Answers tried.attempt tried.terminator.routerId status)) =
      if Completes (earlier.foldl awaited []) tried then 1 else 0

section Tables

variable {V : Type} {p : V → Bool} {t : IdTable V} {k : Id} {v : V}

theorem countIn_insert : countIn p (t.insert k v) = countIn p (t.erase k) + if p v then 1 else 0 := by
  rw [countIn, AList.entries_insert, countP_cons]
  rfl

theorem countIn_erase (h : t.lookup k = some v) : countIn p t = countIn p (t.erase k) + if p v then 1 else 0 := by
  obtain ⟨found, l₁, l₂, -, hentries, herase⟩ := List.exists_of_kerase (mem_of_lookup h)
  have hfound : t.lookup k = some found := AList.mem_lookup_iff.mpr (by rw [hentries]; simp)
  cases h.symm.trans hfound
  rw [countIn, countIn, show (t.erase k).entries = l₁ ++ l₂ from herase, hentries]
  simp [countP_cons, add_assoc]

theorem countIn_new (h : k ∉ t) : countIn p (t.erase k) = countIn p t := by
  rw [countIn, show (t.erase k).entries = t.entries from List.kerase_of_notMem_keys h]
  rfl

end Tables

section Shares

def dials (id : Id) (notices : List Notice) : Nat := notices.count (.dialSucceeded id)

def share (id : Id) (tried : Attempt) : Nat :=
  if tried.terminator.id = id then
    tried.consumed.countP (fun status => decide (Answers tried.attempt tried.terminator.routerId status))
  else 0

def makes (id : Id) (tried : Attempt) : Nat := if tried.terminator.id = id ∧ tried.succeeded then 1 else 0

def adds (id : Id) (outcome : Outcome) : Nat :=
  match outcome.created with
  | .ok (circuit, _) => if circuit.terminator.id = id then 1 else 0
  | .error _ => 0

variable {id : Id} {terminator : Terminator}

theorem dials_append {l₁ l₂ : List Notice} : dials id (l₁ ++ l₂) = dials id l₁ + dials id l₂ :=
  List.count_append

theorem dials_failed {notices : List Notice} {circuitId : Id} {cause : CircuitFailureCause} :
    dials id (notices ++ [.circuitFailed circuitId cause]) = dials id notices := by
  simp [dials]

theorem dials_dialed {attempt : Nat} {status : RouteStatus} : dials id (dialed attempt terminator status) =
    if terminator.id = id ∧ Answers attempt terminator.routerId status then 1 else 0 := by
  unfold dials dialed
  by_cases hans : Answers attempt terminator.routerId status
  · by_cases hid : terminator.id = id <;> simp [hans, hid]
  · simp [hans]

theorem await_dials (id : Id) (self : RouteSender) (attempt : Nat) (nodes : List Id) (terminator : Terminator)
    (peerData : Option PeerData) (statuses : List RouteStatus) :
    dials id (self.await attempt nodes terminator peerData statuses).notices =
      if terminator.id = id then (self.await attempt nodes terminator peerData statuses).consumed.countP
        (fun status => decide (Answers attempt terminator.routerId status)) else 0 := by
  induction statuses generalizing self peerData with
  | nil => simp [RouteSender.await, dials]
  | cons status statuses ih =>
    by_cases hfails : Fails attempt status
    · obtain ⟨notices, err, heq, hnone⟩ := await_failed self nodes terminator statuses peerData hfails
      rw [heq, dials, List.count_eq_zero.mpr (hnone id)]
      simp [not_answers_of_fails hfails]
    · rw [await_ok hfails]
      split
      · rw [dials_dialed]
        by_cases hid : terminator.id = id <;> simp [hid]
      · simp only [dials_append, dials_dialed, ih, countP_cons]
        by_cases hid : terminator.id = id <;> simp [hid, add_comm]

variable {params : CircuitParams} {connected : Id → Bool} {sender : RouteSender} {attempt : Nat}
  {allCleanups : IdSet} {pass : Pass} {passes rest : List Pass} {outcome : Outcome} {path : Path}
  {l : List Attempt}

theorem tried_dials {succeeded : Bool} : dials id (pass.routed sender attempt terminator path).notices =
    share id (pass.tried params attempt terminator path (pass.routed sender attempt terminator path).consumed
      succeeded) :=
  await_dials id _ attempt _ terminator none pass.statuses

theorem attempts_dials (id : Id)
    (h : attempts params connected sender attempt allCleanups passes = some (outcome, rest)) :
    dials id outcome.notices = (outcome.attempts.map (share id)).sum := by
  induction passes generalizing sender attempt allCleanups outcome rest with
  | nil => cases h
  | cons pass passes ih =>
    cases attempts_tries h with
    | stopped => rfl
    | retried hprep hres hlater =>
      change dials id (_ ++ _) = share id _ + (List.map _ _).sum
      rw [dials_append, dials_failed, tried_dials, ih hlater]
    | exhausted hprep hres =>
      change dials id (_ ++ []) = share id _ + 0
      rw [List.append_nil, dials_failed, tried_dials, add_zero]
    | completed hprep hres =>
      change dials id (_ ++ [.circuitCreated params.circuitId]) = share id _ + 0
      rw [dials_append, tried_dials]
      rfl

theorem attempts_adds (id : Id)
    (h : attempts params connected sender attempt allCleanups passes = some (outcome, rest)) :
    adds id outcome = (outcome.attempts.map (makes id)).sum := by
  induction passes generalizing sender attempt allCleanups outcome rest with
  | nil => cases h
  | cons pass passes ih =>
    cases attempts_tries h with
    | stopped => rfl
    | @retried selection path cleanups err later rest hprep hres hlater =>
      change adds id later = makes id _ + (later.attempts.map (makes id)).sum
      rw [ih hlater]
      simp [makes, Pass.tried]
    | exhausted hprep hres =>
      change 0 = makes id _ + 0
      simp [makes, Pass.tried]
    | completed hprep hres =>
      simp [adds, Outcome.after, completed, makes, Pass.tried, newCircuit]

theorem createPathWithNodes_nodes {net : Network} {newIngressId newEgressId : Except String Id}
    {nodes : List RouterRef} (h : createPathWithNodes net newIngressId newEgressId nodes = .ok path) :
    path.nodes = nodes := by
  unfold createPathWithNodes setLinks at h
  cases newIngressId with
  | error err => cases h
  | ok ingressId =>
    cases newEgressId with
    | error err => cases h
    | ok egressId =>
      cases hlinks : chooseLinks net nodes with
      | error err => simp [hlinks, Except.map, Except.mapError] at h
      | ok links =>
        simp only [hlinks] at h
        cases h
        rfl

theorem prepare_nodes {selection : Selection pass.net} (h : pass.prepare = .ok (selection, path)) :
    path.nodes = selection.pathNodes := by
  unfold Pass.prepare at h
  cases hsvc : pass.service with
  | error err => simp [hsvc] at h
  | ok found =>
    cases hsel : pass.selected with
    | error err => simp [hsvc, hsel] at h
    | ok selected =>
      cases hpath : createPathWithNodes pass.net pass.newIngressId pass.newEgressId selected.pathNodes with
      | error err => simp [hsvc, hsel, hpath] at h
      | ok created =>
        simp only [hsvc, hsel, hpath] at h
        obtain ⟨rfl, rfl⟩ := h
        exact createPathWithNodes_nodes hpath

theorem prepare_hosted {selection : Selection pass.net} (h : pass.prepare = .ok (selection, path)) :
    selection.terminator.routerId ∈ routerIds pass.net path := by
  rw [routerIds, prepare_nodes h]
  exact selection.hosted

section Completion

variable {left : List Id} (hleft : ∀ id, sender.attendance.lookup id = some false ↔ id ∈ left) {succeeded : Bool}
include hleft

theorem attendance_awaited (id : Id) :
    (pass.routed sender attempt terminator path).sender.attendance.lookup id = some false ↔
      id ∈ awaited left (pass.tried params attempt terminator path
        (pass.routed sender attempt terminator path).consumed succeeded) := by
  simp only [awaited, List.mem_filter, List.mem_append, ← hleft id, Pass.tried]
  rw [Pass.routed, route_attendance]
  split
  · simp_all
  · split <;> simp_all

theorem routed_ok_iff (hhosted : terminator.routerId ∈ routerIds pass.net path) :
    (∃ data, (pass.routed sender attempt terminator path).result = .ok data) ↔
      Completes left (pass.tried params attempt terminator path
        (pass.routed sender attempt terminator path).consumed succeeded) := by
  have habsent : (sender.expect (routerIds pass.net path)).allPresent = false := by
    rw [← Bool.not_eq_true, allPresent_iff]
    exact fun hpresent => hpresent terminator.routerId (by rw [lookup_expect, if_pos hhosted])
  refine (await_ok_iff _ _ _ _ _ _ habsent).trans (and_congr_left' ?_)
  rw [allPresent_iff, List.eq_nil_iff_forall_not_mem]
  exact forall_congr' (fun id => not_congr (attendance_awaited hleft id))

theorem not_completes {selection : Selection pass.net} {err : IdSet × CircuitError}
    (hprep : pass.prepare = .ok (selection, path))
    (hres : (pass.routed sender attempt selection.terminator path).result = .error err) :
    ¬ Completes left (pass.tried params attempt selection.terminator path
      (pass.routed sender attempt selection.terminator path).consumed succeeded) := by
  intro hc
  obtain ⟨data, hok⟩ := (routed_ok_iff hleft (prepare_hosted hprep)).mpr hc
  cases hres.symm.trans hok

end Completion

/-- An attempt succeeds if it completes what it and those before it expect. -/
theorem attempts_succeeded {left : List Id} (hleft : ∀ id, sender.attendance.lookup id = some false ↔ id ∈ left)
    (h : attempts params connected sender attempt allCleanups passes = some (outcome, rest)) {tried : Attempt}
    {earlier later : List Attempt} (hat : outcome.attempts = earlier ++ tried :: later) :
    tried.succeeded = true ↔ Completes (earlier.foldl awaited left) tried := by
  induction passes generalizing sender attempt allCleanups outcome rest left earlier with
  | nil => cases h
  | cons pass passes ih =>
    cases attempts_tries h with
    | stopped => simp [stopped] at hat
    | @retried selection path cleanups err next rest hprep hres hlater =>
      cases earlier with
      | nil =>
        obtain ⟨rfl, -⟩ := List.cons.inj hat
        exact iff_of_false Bool.false_ne_true (not_completes hleft hprep hres)
      | cons first earlier =>
        obtain ⟨rfl, hnext⟩ := List.cons.inj hat
        exact ih (attendance_awaited hleft) hlater hnext
    | exhausted hprep hres =>
      cases earlier with
      | nil =>
        obtain ⟨rfl, -⟩ := List.cons.inj hat
        exact iff_of_false Bool.false_ne_true (not_completes hleft hprep hres)
      | cons first earlier => simp [Outcome.after, exhausted] at hat
    | completed hprep hres =>
      cases earlier with
      | nil =>
        obtain ⟨rfl, -⟩ := List.cons.inj hat
        exact iff_of_true rfl ((routed_ok_iff hleft (prepare_hosted hprep)).mp ⟨_, hres⟩)
      | cons first earlier => simp [Outcome.after, completed] at hat

/-- An attempt that succeeds heard from the terminating router. -/
theorem makes_le_share (id : Id)
    (h : attempts params connected sender attempt allCleanups passes = some (outcome, rest)) :
    ∀ tried ∈ outcome.attempts, makes id tried ≤ share id tried := by
  induction passes generalizing sender attempt allCleanups outcome rest with
  | nil => cases h
  | cons pass passes ih =>
    cases attempts_tries h with
    | stopped => intro tried hmem; cases hmem
    | retried hprep hres hlater =>
      refine forall_mem_cons.mpr ⟨?_, ih hlater⟩
      simp [makes, Pass.tried]
    | exhausted hprep hres =>
      refine forall_mem_cons.mpr ⟨?_, by simp [exhausted]⟩
      simp [makes, Pass.tried]
    | @completed selection path data hprep hres =>
      refine forall_mem_cons.mpr ⟨?_, by simp [completed]⟩
      obtain ⟨status, hmem, hans⟩ := route_answered _ _ _ _ _ hres (.inl (prepare_hosted hprep))
      have hpos : 0 < (pass.routed sender attempt selection.terminator path).consumed.countP
          (fun status => decide (Answers attempt selection.terminator.routerId status)) :=
        List.countP_pos_iff.mpr ⟨status, hmem, by simpa using hans⟩
      by_cases hid : selection.terminator.id = id
      · have hone (tried : Attempt) : makes id tried ≤ 1 := by
          unfold makes
          split <;> omega
        exact le_trans (hone _) (le_trans hpos (le_of_eq (if_pos hid).symm))
      · simp [makes, Pass.tried, hid]

theorem sum_eq_iff {f g : Attempt → Nat} (h : ∀ x ∈ l, f x ≤ g x) :
    (l.map g).sum = (l.map f).sum ↔ ∀ x ∈ l, g x = f x := by
  induction l with
  | nil => simp
  | cons x l ih =>
    have hx := h x List.mem_cons_self
    have hl : ∀ y ∈ l, f y ≤ g y := fun y hy => h y (List.mem_cons_of_mem _ hy)
    have hle := List.sum_le_sum hl
    rw [forall_mem_cons, ← ih hl]
    simp only [map_cons, sum_cons]
    omega

/-- An outcome of a run of CreateCircuit. -/
def Made (outcome : Outcome) : Prop :=
  ∃ params connected passes rest, createCircuit params connected passes = some (outcome, rest)

def surplus (id : Id) (outcome : Outcome) : Nat := dials id outcome.notices - adds id outcome

theorem Made.adds_add_surplus (h : Made outcome) (id : Id) :
    adds id outcome + surplus id outcome = dials id outcome.notices := by
  obtain ⟨params, connected, passes, rest, h⟩ := h
  have hle := List.sum_le_sum (makes_le_share id h)
  rw [← attempts_adds id h, ← attempts_dials id h] at hle
  unfold surplus
  omega

theorem Made.surplus_eq_zero_iff (h : Made outcome) : surplus id outcome = 0 ↔ Even id outcome := by
  have htotal := h.adds_add_surplus id
  obtain ⟨params, connected, passes, rest, h⟩ := h
  have hiff := sum_eq_iff (makes_le_share id h)
  rw [← attempts_adds id h, ← attempts_dials id h] at hiff
  have hzero : surplus id outcome = 0 ↔ dials id outcome.notices = adds id outcome := by omega
  have hempty (id : Id) : (∅ : IdTable Bool).lookup id = some false ↔ id ∈ [] := by simp
  rw [hzero, hiff]
  constructor
  · intro hall earlier tried later hat hid
    have htried := hall tried (by simp [hat])
    simpa [share, makes, hid, ← attempts_succeeded hempty h hat] using htried
  · intro heven tried hmem
    obtain ⟨earlier, later, hat⟩ := List.append_of_mem hmem
    by_cases hid : tried.terminator.id = id
    · have htried := heven earlier tried later hat hid
      simpa [share, makes, hid, ← attempts_succeeded hempty h hat] using htried
    · simp [share, makes, hid]

end Shares

section Balance

variable {visitor : Visitor} {s s' : System} {id : Id}

def Kept (id : Id) (s : System) : Prop :=
  (∀ outcome ∈ s.finished, .deleteTerminator id ∉ outcome.notices) ∧
    ∀ creation ∈ s.creating, .deleteTerminator id ∉ creation.given

/-- The count of a terminator is the number of its circuits and what failed or
repeated attempts added, and what the creations and removals in progress have
added and not yet taken back. -/
structure Balanced (id : Id) (s : System) : Prop where
  creating : ∀ creation ∈ s.creating, Made creation.outcome ∧
    creation.given ++ creation.left = creation.outcome.notices
  finished : ∀ outcome ∈ s.finished, Made outcome
  count : Kept id s → (getCircuitCount s.costs id).toNat = live id s.circuits +
    (s.finished.map (surplus id)).sum + (s.creating.map (fun creation => dials id creation.given)).sum +
      owed id s.removing
  keyed : KeyedBy Circuit.id s.circuits
  present : ∀ circuitId circuit, s.removing.lookup circuitId = some ⟨circuit, false⟩ →
    s.circuits.lookup circuitId = some circuit

theorem count_handleNotice (hbelow : Below visitor s) {notice : Notice} (hkept : notice ≠ .deleteTerminator id) :
    (getCircuitCount (visitor.handleNotice s.costs notice) id).toNat =
      (getCircuitCount s.costs id).toNat + dials id [notice] := by
  unfold dials
  cases notice with
  | dialSucceeded other =>
    rw [handleNotice, count_dialSucceeded (hbelow other)]
    by_cases hid : id = other
    · simp [hid]
    · simp [hid, Ne.symm hid]
  | dialFailed other => rw [handleNotice, count_dialFailed]; simp
  | deleteTerminator other =>
    have hne : id ≠ other := fun heq => hkept (by rw [heq])
    rw [handleNotice, count_erase hne]
    simp
  | _ => simp [handleNotice]

variable {outcome : Outcome}

theorem balanced_start (h : Balanced id s) (hmade : Made outcome) :
    Balanced id { s with creating := ⟨[], outcome.notices, outcome⟩ :: s.creating } where
  creating := forall_mem_cons.mpr ⟨⟨hmade, rfl⟩, h.creating⟩
  finished := h.finished
  count hkept := by
    rw [h.count ⟨hkept.1, fun creation hmem => hkept.2 creation (List.mem_cons_of_mem _ hmem)⟩]
    simp [dials]
  keyed := h.keyed
  present := h.present

variable {after before : List Creation} {given left : List Notice}

theorem balanced_notify (h : Balanced id s) (hbelow : Below visitor s) {notice : Notice}
    (hcreating : s.creating = before ++ ⟨given, notice :: left, outcome⟩ :: after) : Balanced id { s with
      costs := visitor.handleNotice s.costs notice
      creating := before ++ ⟨given ++ [notice], left, outcome⟩ :: after } where
  creating := by
    have hall := h.creating
    rw [hcreating, forall_mem_append, forall_mem_cons] at hall
    rw [forall_mem_append, forall_mem_cons]
    exact ⟨hall.1, ⟨hall.2.1.1, by rw [← hall.2.1.2]; simp⟩, hall.2.2⟩
  finished := h.finished
  count hkept := by
    obtain ⟨hdone, hgiven⟩ := hkept
    rw [forall_mem_append, forall_mem_cons] at hgiven
    have hnew : .deleteTerminator id ∉ given ++ [notice] := hgiven.2.1
    rw [List.mem_append, mem_singleton, not_or] at hnew
    have hold : Kept id s := by
      refine ⟨hdone, ?_⟩
      rw [hcreating, forall_mem_append, forall_mem_cons]
      exact ⟨hgiven.1, hnew.1, hgiven.2.2⟩
    rw [count_handleNotice hbelow (Ne.symm hnew.2), h.count hold, hcreating]
    simp only [List.map_append, map_cons, List.sum_append, sum_cons, dials_append]
    omega
  keyed := h.keyed
  present := h.present

theorem balanced_finish (h : Balanced id s) (hcreating : s.creating = before ++ ⟨given, [], outcome⟩ :: after)
    (hfresh : ∀ circuit routers, outcome.created = .ok (circuit, routers) → circuit.id ∉ s.circuits) :
    Balanced id { s with
      circuits := addCreated s.circuits outcome
      creating := before ++ after
      finished := outcome :: s.finished } := by
  have hall := h.creating
  rw [hcreating, forall_mem_append, forall_mem_cons] at hall
  obtain ⟨hbefore, ⟨hmade, hnotices⟩, hafter⟩ := hall
  have hgiven : given = outcome.notices := (List.append_nil given).symm.trans hnotices
  have hadded : live id (addCreated s.circuits outcome) = live id s.circuits + adds id outcome := by
    unfold addCreated adds
    cases hcreated : outcome.created with
    | error err => rfl
    | ok created =>
      simp only [live, countIn_insert, countIn_new (hfresh created.1 created.2 hcreated), decide_eq_true_eq]
  have hkeyed : KeyedBy Circuit.id (addCreated s.circuits outcome) := by
    unfold addCreated
    split
    · exact h.keyed.insert _
    · exact h.keyed
  have hold : ∀ k circuit, s.circuits.lookup k = some circuit →
      (addCreated s.circuits outcome).lookup k = some circuit := by
    intro k circuit hk
    unfold addCreated
    cases hcreated : outcome.created with
    | error err => exact hk
    | ok created =>
      have hne : k ≠ created.1.id := fun heq => hfresh _ created.2 hcreated (heq ▸ mem_of_lookup hk)
      exact (AList.lookup_insert_ne hne).trans hk
  refine ⟨forall_mem_append.mpr ⟨hbefore, hafter⟩, forall_mem_cons.mpr ⟨hmade, h.finished⟩, ?_, hkeyed,
    fun k circuit hk => hold k circuit (h.present k circuit hk)⟩
  rintro ⟨hdone, hothers⟩
  rw [forall_mem_cons] at hdone
  rw [forall_mem_append] at hothers
  have hold : Kept id s := by
    refine ⟨hdone.2, ?_⟩
    rw [hcreating, forall_mem_append, forall_mem_cons]
    exact ⟨hothers.1, by rw [hgiven]; exact hdone.1, hothers.2⟩
  have htotal : adds id outcome + surplus id outcome = dials id outcome.notices := hmade.adds_add_surplus id
  rw [h.count hold, hcreating]
  simp only [List.map_append, map_cons, List.sum_append, sum_cons, hgiven]
  omega

variable {circuitId : Id} {circuit : Circuit}

theorem balanced_remove (h : Balanced id s) (hone : circuitId ∉ s.removing) :
    Balanced id (removeCircuit s circuitId).1 := by
  unfold removeCircuit
  cases hcirc : s.circuits.lookup circuitId with
  | none => exact h
  | some circuit =>
    refine ⟨h.creating, h.finished, fun hkept => ?_, h.keyed, fun k found hk => ?_⟩
    · simpa [owed, countIn_insert, countIn_new hone] using h.count hkept
    · rw [lookup_insert_eq] at hk
      split at hk
      · rename_i heq
        cases hk
        exact heq ▸ hcirc
      · exact h.present k found hk

theorem balanced_erase (h : Balanced id s) (hremoving : s.removing.lookup circuitId = some ⟨circuit, false⟩) :
    Balanced id { s with
      circuits := s.circuits.erase circuit.id
      removing := s.removing.insert circuitId ⟨circuit, true⟩ } := by
  have hcirc := h.present circuitId circuit hremoving
  have hid : circuit.id = circuitId := h.keyed circuitId circuit hcirc
  refine ⟨h.creating, h.finished, fun hkept => ?_, h.keyed.erase _, fun k found hk => ?_⟩
  · have hcount := h.count hkept
    rw [live, countIn_erase hcirc, owed, countIn_erase hremoving] at hcount
    rw [hcount, live, owed, countIn_insert, hid]
    simp
    omega
  · rw [lookup_insert_eq] at hk
    split at hk
    · cases hk
    · rename_i hne
      exact (AList.lookup_erase_ne (hid ▸ hne)).trans (h.present k found hk)

theorem balanced_notifyRemoved (h : Balanced id s) (hremoving : s.removing.lookup circuitId = some ⟨circuit, true⟩) :
    Balanced id { s with
      costs := visitor.visitCircuitRemoved s.costs circuit.terminator.id
      removing := s.removing.erase circuitId } := by
  refine ⟨h.creating, h.finished, fun hkept => ?_, h.keyed,
    fun k found hk => h.present k found (lookup_of_erase hk).2⟩
  have hcount := h.count hkept
  rw [owed, countIn_erase hremoving] at hcount
  rw [count_circuitRemoved, hcount, owed]
  by_cases hid : circuit.terminator.id = id
  · simp [hid]
  · simp [hid, Ne.symm hid]

theorem balanced_step (h : Balanced id s) (hbelow : Below visitor s) (hstep : Step visitor s s') : Balanced id s' := by
  cases hstep with
  | start hcreate => exact balanced_start h ⟨_, _, _, _, hcreate⟩
  | notify hcreating => exact balanced_notify h hbelow hcreating
  | finish hcreating hfresh => exact balanced_finish h hcreating hfresh
  | remove hone => exact balanced_remove h hone
  | erase hremoving => exact balanced_erase h hremoving
  | notifyRemoved hremoving => exact balanced_notifyRemoved h hremoving

theorem balanced_run (hrun : Run visitor s) : Balanced id s := by
  induction hrun with
  | init => exact ⟨by simp, by simp, fun _ => rfl, (fun _ _ h => by cases h), (fun _ _ h => by cases h)⟩
  | step hrun hbelow hstep ih => exact balanced_step ih hbelow hstep

/-- When no creation or removal is in progress, a terminator's count is the number
of its circuits exactly if every creation so far heard from it evenly. -/
theorem circuit_count_iff (visitor : Visitor) (s : System) (hrun : Run visitor s) (hidle : s.creating = [])
    (hdone : s.removing = ∅) (id : Id) (hkept : ∀ outcome ∈ s.finished, .deleteTerminator id ∉ outcome.notices) :
    (getCircuitCount s.costs id).toNat = live id s.circuits ↔ ∀ outcome ∈ s.finished, Even id outcome := by
  have hbalanced : Balanced id s := balanced_run hrun
  have hcount := hbalanced.count ⟨hkept, by rw [hidle]; simp⟩
  have hnone : owed id s.removing = 0 := by rw [hdone]; rfl
  rw [hidle, hnone, List.map_nil, List.sum_nil, Nat.add_zero, Nat.add_zero] at hcount
  rw [hcount, Nat.add_eq_left, List.sum_eq_zero_iff_forall_eq_nat]
  simp only [List.mem_map, forall_exists_index, and_imp, forall_apply_eq_imp_iff₂]
  exact forall_congr' (fun outcome => forall_congr' (fun hmem =>
    (hbalanced.finished outcome hmem).surplus_eq_zero_iff))

/-- The count of a terminator that was not deleted never falls below the number
of its circuits, whatever creations and removals run at the same time, as long as
each circuit is removed by one call at a time. -/
theorem live_le_circuitCount (visitor : Visitor) (s : System) (hrun : Run visitor s) (id : Id) (hkept : Kept id s) :
    live id s.circuits ≤ (getCircuitCount s.costs id).toNat := by
  have hbalanced : Balanced id s := balanced_run hrun
  rw [hbalanced.count hkept]
  omega

theorem count_handleNotice_le (hbelow : Below visitor s) {notice : Notice} :
    (getCircuitCount (visitor.handleNotice s.costs notice) id).toNat ≤
      (getCircuitCount s.costs id).toNat + 1 := by
  by_cases hdelete : notice = .deleteTerminator id
  · subst hdelete
    simp [handleNotice, getCircuitCount]
  · rw [count_handleNotice hbelow hdelete]
    have hone : dials id [notice] ≤ 1 := List.count_le_length
    omega

/-- A creation can give all its notices one after the other. -/
theorem run_notices (hrun : Run visitor s) (hcreating : s.creating = ⟨given, left, outcome⟩ :: after)
    (hsmall : ∀ id, (getCircuitCount s.costs id).toNat + left.length < (maxUint32 / visitor.circuitCost).toNat) :
    Run visitor { s with
        costs := left.foldl visitor.handleNotice s.costs
        creating := ⟨given ++ left, [], outcome⟩ :: after } ∧
      ∀ id, (getCircuitCount (left.foldl visitor.handleNotice s.costs) id).toNat ≤
        (getCircuitCount s.costs id).toNat + left.length := by
  induction left generalizing s given with
  | nil => simpa [← hcreating] using hrun
  | cons notice left ih =>
    simp only [List.length_cons] at hsmall ⊢
    have hbelow : Below visitor s := fun id => UInt32.lt_iff_toNat_lt.mpr (by have := hsmall id; omega)
    have hle (id : Id) : (getCircuitCount (visitor.handleNotice s.costs notice) id).toNat ≤
        (getCircuitCount s.costs id).toNat + 1 := count_handleNotice_le hbelow
    have hsplit : s.creating = [] ++ ⟨given, notice :: left, outcome⟩ :: after := hcreating
    obtain ⟨hnext, hcount⟩ := ih (.step hrun hbelow (.notify hsplit)) rfl (fun id => by
      have hid := hsmall id
      have hone := hle id
      simp only
      omega)
    refine ⟨by simpa using hnext, fun id => ?_⟩
    have hid := hcount id
    have hone := hle id
    simp only [List.foldl_cons] at hid ⊢
    omega

theorem run_creation (visitor : Visitor) {params : CircuitParams} {connected : Id → Bool}
    {passes rest : List Pass} (hcreate : createCircuit params connected passes = some (outcome, rest))
    (hsmall : outcome.notices.length < (maxUint32 / visitor.circuitCost).toNat) :
    Run visitor { costs := outcome.notices.foldl visitor.handleNotice ∅, circuits := addCreated ∅ outcome,
                  finished := [outcome] } := by
  have hzero (id : Id) : (getCircuitCount ∅ id).toNat = 0 := rfl
  have hempty : Below visitor {} := fun id => UInt32.lt_iff_toNat_lt.mpr (by
    rw [hzero]
    omega)
  have hstart : Run visitor { creating := [⟨[], outcome.notices, outcome⟩] } := .step .init hempty (.start hcreate)
  obtain ⟨hgiven, hcount⟩ := run_notices hstart rfl (fun id => by
    rw [hzero]
    omega)
  have hsplit : [Creation.mk ([] ++ outcome.notices) [] outcome] =
    [] ++ ⟨[] ++ outcome.notices, [], outcome⟩ :: [] := rfl
  have hbelow : ∀ id, getCircuitCount (outcome.notices.foldl visitor.handleNotice ∅) id <
      maxUint32 / visitor.circuitCost := fun id => UInt32.lt_iff_toNat_lt.mpr (by
    have hid := hcount id
    rw [hzero] at hid
    exact Nat.lt_of_le_of_lt hid (by omega))
  have hfinish := Run.step hgiven hbelow (.finish hsplit (fun _ _ _ => AList.notMem_empty _))
  exact hfinish

def smartRouting : Visitor := ⟨2, 20, 2, by decide⟩

def answered : Pass :=
  { goneTerminator with statuses := [⟨"b", 0, true, "", ∅, none⟩, ⟨"a", 0, true, "", ∅, none⟩] }

def answeredInVain : Pass :=
  { goneTerminator with statuses := [⟨"b", 0, true, "", ∅, none⟩, ⟨"a", 0, false, "no link", ∅, none⟩] }

theorem created_circuit_counted : ∃ s, Run smartRouting s ∧ s.creating = [] ∧ live "t" s.circuits = 1 ∧
    (getCircuitCount s.costs "t").toNat = live "t" s.circuits := by
  have hcreate : createCircuit (requested 1) (fun _ => true) [answered] = some (_, []) := rfl
  have hrun := run_creation smartRouting hcreate (by decide +kernel)
  refine ⟨_, hrun, rfl, by decide +kernel, (circuit_count_iff smartRouting _ hrun rfl rfl "t" ?_).mpr ?_⟩
  · intro outcome hmem
    cases mem_singleton.mp hmem
    decide +kernel
  · intro outcome hmem earlier tried later hat _
    cases mem_singleton.mp hmem
    cases earlier with
    | nil =>
      obtain ⟨rfl, -⟩ := List.cons.inj hat
      decide +kernel
    | cons first earlier => cases earlier <;> cases hat

theorem created_circuit_covered : ∃ s, Run smartRouting s ∧ live "t" s.circuits = 1 ∧
    live "t" s.circuits ≤ (getCircuitCount s.costs "t").toNat := by
  have hcreate : createCircuit (requested 1) (fun _ => true) [answered] = some (_, []) := rfl
  have hrun := run_creation smartRouting hcreate (by decide +kernel)
  refine ⟨_, hrun, by decide +kernel, live_le_circuitCount smartRouting _ hrun "t" ⟨?_, by simp⟩⟩
  intro outcome hmem
  cases mem_singleton.mp hmem
  decide +kernel

/-- The terminating router answers and the other one fails: there is no circuit
and the terminator counts one. -/
theorem failed_attempt_counted : ∃ s, Run smartRouting s ∧ s.creating = [] ∧
    (∀ outcome ∈ s.finished, .deleteTerminator "t" ∉ outcome.notices) ∧ live "t" s.circuits = 0 ∧
    (getCircuitCount s.costs "t").toNat = 1 := by
  have hcreate : createCircuit (requested 1) (fun _ => true) [answeredInVain] = some (_, []) := rfl
  refine ⟨_, run_creation smartRouting hcreate (by decide +kernel), rfl, ?_, rfl, by decide +kernel⟩
  intro outcome hmem
  cases mem_singleton.mp hmem
  decide +kernel

end Balance

end Zt.CircuitCounts
