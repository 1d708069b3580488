import Zt.CircuitCreation

namespace Zt.RouteAttempts

open Tables RouteMessages CircuitCreation
open EdgeCtrl (Id IdSet)
open RouteSender (handleRouteSend succeeded allPresent cleanups await expect route)

variable {self : RouteSender} {attempt : Nat} {nodes : List Id} {terminator : Terminator} {status : RouteStatus}
  {statuses : List RouteStatus} {peerData : Option PeerData}

/-- A success status of a router for an attempt. -/
def Answers (attempt : Nat) (id : Id) (status : RouteStatus) : Prop :=
  status.success = true ∧ status.attempt = attempt ∧ status.router = id

instance (attempt : Nat) (id : Id) (status : RouteStatus) : Decidable (Answers attempt id status) :=
  inferInstanceAs (Decidable (_ ∧ _ ∧ _))

def Fails (attempt : Nat) (status : RouteStatus) : Prop := status.success = false ∧ status.attempt = attempt

instance (attempt : Nat) (status : RouteStatus) : Decidable (Fails attempt status) :=
  inferInstanceAs (Decidable (_ ∧ _))

def Answered (attempt : Nat) (statuses : List RouteStatus) (id : Id) : Prop :=
  ∃ status ∈ statuses, Answers attempt id status

instance (attempt : Nat) (statuses : List RouteStatus) (id : Id) : Decidable (Answered attempt statuses id) :=
  inferInstanceAs (Decidable (∃ status ∈ statuses, _))

theorem not_answers_of_fails (h : Fails attempt status) (id : Id) : ¬ Answers attempt id status :=
  fun hans => Bool.false_ne_true (h.1.symm.trans hans.1)

variable {id : Id}

theorem answered_cons :
    Answered attempt (status :: statuses) id ↔ Answers attempt id status ∨ Answered attempt statuses id := by
  simp [Answered]

theorem answered_singleton : Answered attempt [status] id ↔ Answers attempt id status := by
  simp [Answered]

section Handling

def marked (self : RouteSender) (attempt : Nat) (status : RouteStatus) : RouteSender :=
  if Answers attempt status.router status then
    { self with attendance := self.attendance.insert status.router true }
  else self

def dialed (attempt : Nat) (terminator : Terminator) (status : RouteStatus) : List Notice :=
  if Answers attempt terminator.routerId status then
    [.dialSucceeded terminator.id, .count .dialSuccess terminator.serviceId terminator.id]
  else []

def newest (attempt : Nat) (terminator : Terminator) (status : RouteStatus) (peerData : Option PeerData) :
    Option PeerData :=
  if Answers attempt terminator.routerId status then some status.peerData else peerData

theorem errorCause_quiet {errorCode : Option UInt8} :
    Notice.dialSucceeded id ∉ (errorCause terminator errorCode).2 := by
  unfold errorCause
  split
  · simp
  · split <;> simp
  · simp
  · simp
  · simp

variable (self nodes terminator) in
theorem handle_failed (h : Fails attempt status) : ∃ notices err,
    self.handleRouteSend attempt nodes terminator status = (self, notices, .error (self.cleanups nodes, err)) ∧
      ∀ id, Notice.dialSucceeded id ∉ notices := by
  refine ⟨(self.failed terminator status).1, (self.failed terminator status).2, ?_, ?_⟩
  · simp [handleRouteSend, h.1, h.2]
  · intro id hmem
    rcases List.mem_append.mp hmem with hmem | hmem
    · exact errorCause_quiet hmem
    · split at hmem <;> simp at hmem

theorem handle_ok (h : ¬ Fails attempt status) : self.handleRouteSend attempt nodes terminator status =
    (marked self attempt status, dialed attempt terminator status, .ok (newest attempt terminator status none)) := by
  unfold handleRouteSend succeeded marked dialed newest Answers
  by_cases hatt : status.attempt = attempt
  · have hsuccess : status.success = true := by
      by_contra hsuccess
      exact h ⟨by simpa using hsuccess, hatt⟩
    by_cases hrouter : status.router = terminator.routerId <;> simp [hsuccess, hatt, hrouter]
  · simp [hatt]

theorem lookup_marked : (marked self attempt status).attendance.lookup id =
    if Answers attempt id status then some true else self.attendance.lookup id := by
  unfold marked
  by_cases hid : status.router = id
  · subst hid
    split
    · simp
    · rfl
  · have hnot : ¬ Answers attempt id status := fun h => hid h.2.2
    split
    · simp [Ne.symm hid]
    · rfl

theorem allPresent_iff : self.allPresent = true ↔ ∀ id, self.attendance.lookup id ≠ some false := by
  unfold allPresent
  rw [List.all_eq_true]
  constructor
  · intro h id hfalse
    exact absurd (h _ (mem_pairs.mpr hfalse)) (by simp)
  · intro h entry hentry
    have hlook := mem_pairs.mp hentry
    cases hvalue : entry.2 with
    | true => rfl
    | false =>
      rw [hvalue] at hlook
      exact absurd hlook (h entry.1)

theorem mem_cleanups : id ∈ self.cleanups nodes ↔ id ∈ nodes ∧ self.attendance.lookup id = some true := by
  simp [cleanups, mem_addAll]

end Handling

section Awaiting

variable (self nodes terminator peerData statuses) in
theorem await_failed (h : Fails attempt status) : ∃ notices err,
    self.await attempt nodes terminator peerData (status :: statuses) =
        ⟨self, notices, [status], .error (self.cleanups nodes, err)⟩ ∧
      ∀ id, Notice.dialSucceeded id ∉ notices := by
  obtain ⟨notices, err, heq, hnone⟩ := handle_failed self nodes terminator h
  exact ⟨notices, err, by rw [await, heq], hnone⟩

theorem await_ok (h : ¬ Fails attempt status) :
    self.await attempt nodes terminator peerData (status :: statuses) =
      if (marked self attempt status).allPresent = true then
        ⟨marked self attempt status, dialed attempt terminator status, [status],
          .ok (newest attempt terminator status peerData)⟩ else
        let later := (marked self attempt status).await attempt nodes terminator
          (newest attempt terminator status peerData) statuses
        { later with
          notices := dialed attempt terminator status ++ later.notices
          consumed := status :: later.consumed } := by
  have hnewest : (if ((newest attempt terminator status none).isSome = true ∧ status.attempt = attempt ∧
      status.router = terminator.routerId) then newest attempt terminator status none else peerData) =
      newest attempt terminator status peerData := by
    unfold newest
    split
    · rename_i hans
      simp [hans.2.1, hans.2.2]
    · simp
  rw [await, handle_ok h]
  simp [hnewest]

variable (self attempt nodes terminator peerData statuses)

theorem await_attendance : (self.await attempt nodes terminator peerData statuses).sender.attendance.lookup id =
    if Answered attempt (self.await attempt nodes terminator peerData statuses).consumed id then some true
    else self.attendance.lookup id := by
  induction statuses generalizing self peerData with
  | nil => simp [await, Answered]
  | cons status statuses ih =>
    by_cases hfails : Fails attempt status
    · obtain ⟨notices, err, heq, -⟩ := await_failed self nodes terminator statuses peerData hfails
      simp [heq, answered_singleton, not_answers_of_fails hfails id]
    · rw [await_ok hfails]
      split
      · simp [lookup_marked, answered_singleton]
      · simp only [ih, lookup_marked, answered_cons]
        by_cases hans : Answers attempt id status <;> simp [hans]

theorem await_consumed : (self.await attempt nodes terminator peerData statuses).consumed ⊆ statuses := by
  induction statuses generalizing self peerData with
  | nil => exact List.Subset.refl _
  | cons status statuses ih =>
    by_cases hfails : Fails attempt status
    · obtain ⟨notices, err, heq, -⟩ := await_failed self nodes terminator statuses peerData hfails
      simp [heq]
    · rw [await_ok hfails]
      split
      · simp
      · exact List.cons_subset_cons status (ih _ _)

theorem await_error {cleanups : IdSet} {err : CircuitError}
    (h : (self.await attempt nodes terminator peerData statuses).result = .error (cleanups, err)) :
    cleanups = (self.await attempt nodes terminator peerData statuses).sender.cleanups nodes := by
  induction statuses generalizing self peerData with
  | nil =>
    cases h
    rfl
  | cons status statuses ih =>
    by_cases hfails : Fails attempt status
    · obtain ⟨notices, err, heq, -⟩ := await_failed self nodes terminator statuses peerData hfails
      rw [heq] at h ⊢
      cases h
      rfl
    · rw [await_ok hfails] at h ⊢
      split at h
      · cases h
      · rename_i hmore
        rw [if_neg hmore]
        exact ih _ _ h

/-- After a success every router is present and the peer data is from the
terminating router, if it answered. -/
theorem await_success {data : Option PeerData}
    (h : (self.await attempt nodes terminator peerData statuses).result = .ok data) :
    (self.await attempt nodes terminator peerData statuses).sender.allPresent = true ∧ (data = peerData ∧
          ¬ Answered attempt (self.await attempt nodes terminator peerData statuses).consumed terminator.routerId ∨
        ∃ status ∈ (self.await attempt nodes terminator peerData statuses).consumed,
          Answers attempt terminator.routerId status ∧ data = some status.peerData) := by
  induction statuses generalizing self peerData with
  | nil => cases h
  | cons status statuses ih =>
    by_cases hfails : Fails attempt status
    · obtain ⟨notices, err, heq, -⟩ := await_failed self nodes terminator statuses peerData hfails
      rw [heq] at h
      cases h
    · rw [await_ok hfails] at h ⊢
      split at h
      · rename_i hall
        rw [if_pos hall]
        cases h
        refine ⟨hall, ?_⟩
        by_cases hans : Answers attempt terminator.routerId status
        · exact .inr ⟨status, List.mem_singleton_self _, hans, if_pos hans⟩
        · exact .inl ⟨if_neg hans, fun h => hans (answered_singleton.mp h)⟩
      · rename_i hmore
        rw [if_neg hmore]
        obtain ⟨hall, hdata⟩ := ih _ _ h
        refine ⟨hall, ?_⟩
        rcases hdata with ⟨hdata, hnone⟩ | ⟨st, hst, hans, hdata⟩
        · unfold newest at hdata
          by_cases hans : Answers attempt terminator.routerId status
          · rw [if_pos hans] at hdata
            exact .inr ⟨status, List.mem_cons_self, hans, hdata⟩
          · rw [if_neg hans] at hdata
            exact .inl ⟨hdata, fun h => (answered_cons.mp h).elim hans hnone⟩
        · exact .inr ⟨st, List.mem_cons_of_mem _ hst, hans, hdata⟩

/-- A call succeeds if no status fails it and the statuses turn every entry. -/
theorem await_succeeds (hfails : ∀ status ∈ statuses, ¬ Fails attempt status)
    (hanswered : ∀ id, self.attendance.lookup id = some false → Answered attempt statuses id)
    (habsent : self.allPresent = false) :
    ∃ data, (self.await attempt nodes terminator peerData statuses).result = .ok data := by
  induction statuses generalizing self peerData with
  | nil =>
    exfalso
    have hpres : self.allPresent = true := allPresent_iff.mpr (fun id hfalse => by
      obtain ⟨status, hmem, -⟩ := hanswered id hfalse
      cases hmem)
    exact Bool.false_ne_true (habsent.symm.trans hpres)
  | cons status statuses ih =>
    rw [await_ok (hfails status List.mem_cons_self)]
    split
    · exact ⟨_, rfl⟩
    · rename_i hmore
      refine ih _ _ (fun st hst => hfails st (List.mem_cons_of_mem _ hst)) ?_ (by simpa using hmore)
      intro id hfalse
      rw [lookup_marked] at hfalse
      split at hfalse
      · cases hfalse
      · rename_i hnot
        exact (answered_cons.mp (hanswered id hfalse)).resolve_left hnot

/-- A call that waits succeeds if it took no failure and is left with no false entry. -/
theorem await_ok_iff (habsent : self.allPresent = false) :
    (∃ data, (self.await attempt nodes terminator peerData statuses).result = .ok data) ↔
      (self.await attempt nodes terminator peerData statuses).sender.allPresent = true ∧
        ∀ status ∈ (self.await attempt nodes terminator peerData statuses).consumed, ¬ Fails attempt status := by
  induction statuses generalizing self peerData with
  | nil => simp [await, habsent]
  | cons status statuses ih =>
    by_cases hfails : Fails attempt status
    · obtain ⟨notices, err, heq, -⟩ := await_failed self nodes terminator statuses peerData hfails
      simp [heq, hfails]
    · rw [await_ok hfails]
      split
      · rename_i hall
        simp [hall, hfails]
      · rename_i hmore
        simpa [hfails] using ih _ _ (by simpa using hmore)

end Awaiting

section Routing

variable (self : RouteSender) (attempt : Nat) (nodes : List Id) (terminator : Terminator)
  (statuses : List RouteStatus) {data : Option PeerData}

theorem lookup_expect : (self.expect nodes).attendance.lookup id =
    if id ∈ nodes then some false else self.attendance.lookup id := by
  unfold expect
  rw [lookup_foldl_insert (fun id => id) (fun _ => false)]
  cases hfind : nodes.reverse.find? (fun other => decide (other = id)) with
  | none =>
    have hnot : id ∉ nodes := fun hmem => by
      have := List.find?_eq_none.mp hfind id (List.mem_reverse.mpr hmem)
      simp at this
    simp [hnot]
  | some other =>
    have hother : other = id := by simpa using List.find?_some hfind
    have hmem : other ∈ nodes := List.mem_reverse.mp (List.mem_of_find?_eq_some hfind)
    rw [hother] at hmem
    simp [hmem]

theorem route_attendance : (self.route attempt nodes terminator statuses).sender.attendance.lookup id =
    if Answered attempt (self.route attempt nodes terminator statuses).consumed id then some true
    else if id ∈ nodes then some false else self.attendance.lookup id := by
  unfold route
  rw [await_attendance, lookup_expect]

theorem route_answered (h : (self.route attempt nodes terminator statuses).result = .ok data)
    (hexpected : id ∈ nodes ∨ self.attendance.lookup id = some false) :
    Answered attempt (self.route attempt nodes terminator statuses).consumed id := by
  have hpres := allPresent_iff.mp (await_success _ _ _ _ _ _ h).1 id
  change (self.route attempt nodes terminator statuses).sender.attendance.lookup id ≠ some false at hpres
  rw [route_attendance] at hpres
  by_contra hnot
  rw [if_neg hnot] at hpres
  rcases hexpected with hmem | hfalse
  · exact hpres (if_pos hmem)
  · split at hpres
    · exact hpres rfl
    · exact hpres hfalse

theorem route_peerData (hhosted : terminator.routerId ∈ nodes)
    (h : (self.route attempt nodes terminator statuses).result = .ok data) :
    ∃ status ∈ (self.route attempt nodes terminator statuses).consumed,
      Answers attempt terminator.routerId status ∧ data = some status.peerData := by
  rcases (await_success _ _ _ _ _ _ h).2 with ⟨-, hnone⟩ | hdata
  · exact absurd (route_answered self attempt nodes terminator statuses h (.inl hhosted)) hnone
  · exact hdata

/-- The calls of one sender, one after the other. -/
structure Call where
  attempt : Nat
  nodes : List Id
  terminator : Terminator
  statuses : List RouteStatus

def afterCalls (circuitId : Id) (calls : List Call) : RouteSender :=
  calls.foldl (fun self call => (self.route call.attempt call.nodes call.terminator call.statuses).sender)
    { circuitId := circuitId }

/-- If all routers of a path answer then the attempt succeeds, unless earlier
attempts left the sender waiting for routers that are not on this path. -/
theorem attempt_succeeds_iff (circuitId : Id) (earlier : List Call) (attempt : Nat) (nodes : List Id)
    (terminator : Terminator) (hhosted : terminator.routerId ∈ nodes) (statuses : List RouteStatus)
    (hanswered : ∀ id ∈ nodes, Answered attempt statuses id)
    (hfails : ∀ status ∈ statuses, status.attempt = attempt → status.success = true) :
    (∃ status ∈ statuses, Answers attempt terminator.routerId status ∧
      ((afterCalls circuitId earlier).route attempt nodes terminator statuses).result = .ok (some status.peerData)) ↔
    ∀ id, (afterCalls circuitId earlier).attendance.lookup id = some false →
      id ∈ nodes ∨ Answered attempt statuses id := by
  have hconsumed := await_consumed ((afterCalls circuitId earlier).expect nodes) attempt nodes terminator statuses none
  constructor
  · rintro ⟨status, -, -, hresult⟩ id hfalse
    obtain ⟨st, hst, hanswers⟩ := route_answered _ _ _ _ _ hresult (.inr hfalse)
    exact .inr ⟨st, hconsumed hst, hanswers⟩
  · intro hleft
    have habsent : ((afterCalls circuitId earlier).expect nodes).allPresent = false := by
      rw [← Bool.not_eq_true, allPresent_iff]
      intro hpresent
      exact hpresent terminator.routerId (by rw [lookup_expect, if_pos hhosted])
    obtain ⟨data, hresult⟩ := await_succeeds ((afterCalls circuitId earlier).expect nodes) attempt nodes terminator
      statuses none
      (fun status hmem hfail => Bool.false_ne_true (hfail.1.symm.trans (hfails status hmem hfail.2)))
      (fun id hfalse => by
        rw [lookup_expect] at hfalse
        split at hfalse
        · rename_i hmem
          exact hanswered id hmem
        · exact (hleft id hfalse).elim (hanswered id) (fun h => h))
      habsent
    obtain ⟨status, hmem, hanswers, rfl⟩ := route_peerData _ _ _ _ _ hhosted hresult
    exact ⟨status, hconsumed hmem, hanswers, hresult⟩

def hostedBy (id : Id) : Terminator := ⟨"t", "s", id, "edge", "addr"⟩

def refused : Call :=
  ⟨0, ["a", "b"], hostedBy "b", [⟨"a", 0, true, "", ∅, none⟩, ⟨"b", 0, false, "refused", ∅, some 4⟩]⟩

def bothAnswer (id : Id) : List RouteStatus := [⟨"a", 1, true, "", ∅, none⟩, ⟨id, 1, true, "", ∅, none⟩]

theorem same_path_succeeds : ∃ status ∈ bothAnswer "b", Answers 1 "b" status ∧
    ((afterCalls "c" [refused]).route 1 ["a", "b"] (hostedBy "b") (bothAnswer "b")).result =
      .ok (some status.peerData) := by
  refine (attempt_succeeds_iff "c" [refused] 1 ["a", "b"] (hostedBy "b") (by decide) (bothAnswer "b")
    (by decide) (by decide)).mpr ?_
  intro id hfalse
  have hpair := mem_pairs.mpr hfalse
  have hpairs : pairs (afterCalls "c" [refused]).attendance = [("a", true), ("b", false)] := by decide +kernel
  rw [hpairs] at hpair
  simp at hpair
  simp [hpair]

/-- The second attempt goes to another router. Both of its routers answer and
it still times out. -/
theorem other_path_times_out : (∀ id ∈ ["a", "d"], Answered 1 (bothAnswer "d") id) ∧
    (∀ status ∈ bothAnswer "d", status.attempt = 1 → status.success = true) ∧
    ((afterCalls "c" [refused]).route 1 ["a", "d"] (hostedBy "d") (bothAnswer "d")).result =
      .error (addAll ∅ ["a", "d"], .routerResponseTimeout, "timeout creating routes for [s/c]") :=
  ⟨by decide, by decide, rfl⟩

end Routing

end Zt.RouteAttempts
