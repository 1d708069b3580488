import Zt.Runs
import Zt.Tables

namespace Zt.SessionRemovals

open Tables Runs

abbrev Token := String

structure ApiSession where
  id : String
  token : Token

inductive Message
  | apiSessionAdded (apiSessions : List ApiSession)
  | apiSessionRemoved (tokens : List Token)

/-- The operations of a goroutine on the session table. -/
inductive Op
  | set (apiSession : ApiSession)
  | get (token : Token)
  | remove (token : Token)

def Op.token : Op → Token
  | .set apiSession => apiSession.token
  | .get token | .remove token => token

def Op.adds : Op → Bool
  | .set _ => true
  | .get _ | .remove _ => false

/-- The sessions held, the messages received so far, newest first, and what the
goroutine started for each of them, oldest first, has left to do. -/
structure Router where
  legacyApiSessionsByToken : Table Token ApiSession := ∅
  received : List Message := []
  goroutines : List (List Op) := []

inductive Event
  | receive (msg : Message)
  | run (i : Nat)
  | legacySync (apiSessions : List ApiSession)
  | removeMissing (knownApiSessions : List ApiSession) (beforeSessionId : String)

def handleReceive : Message → List Op
  | .apiSessionAdded apiSessions => apiSessions.map .set
  | .apiSessionRemoved tokens => tokens.map .get

variable (sessions : Table Token ApiSession)

/-- A session that is found is removed in a second operation. -/
def exec : Op → Table Token ApiSession × List Op
  | .set apiSession => (sessions.insert apiSession.token apiSession, [])
  | .get token => (sessions, if token ∈ sessions then [.remove token] else [])
  | .remove token => (sessions.erase token, [])

def tokensToRemove (knownApiSessions : List ApiSession) (beforeSessionId : String) : List Token :=
  (pairs sessions).filterMap (fun (token, apiSession) =>
    if token ∉ knownApiSessions.map ApiSession.token ∧ (beforeSessionId = "" ∨ apiSession.id ≤ beforeSessionId) then
      some apiSession.token
    else none)

/-- A full state without sync headers has its sessions set once more before the
missing ones are removed. -/
def step (s : Router) : Event → Router
  | .receive msg => { s with received := msg :: s.received, goroutines := s.goroutines ++ [handleReceive msg] }
  | .run i =>
    match s.goroutines[i]? with
    | some (op :: ops) =>
      let (sessions, again) := exec s.legacyApiSessionsByToken op
      { s with legacyApiSessionsByToken := sessions, goroutines := s.goroutines.set i (again ++ ops) }
    | _ => s
  | .legacySync apiSessions => { s with goroutines := s.goroutines ++ [apiSessions.map Op.set] }
  | .removeMissing knownApiSessions beforeSessionId =>
    let removals := (tokensToRemove s.legacyApiSessionsByToken knownApiSessions beforeSessionId).map Op.get
    { s with goroutines := s.goroutines ++ [removals] }

def Message.names (token : Token) : Message → Bool
  | .apiSessionAdded apiSessions => decide (token ∈ apiSessions.map ApiSession.token)
  | .apiSessionRemoved tokens => decide (token ∈ tokens)

def Message.adds : Message → Bool
  | .apiSessionAdded _ => true
  | .apiSessionRemoved _ => false

def lastAdded (received : List Message) (token : Token) : Bool := (received.find? (·.names token)).any Message.adds

/-- A goroutine works on a session only when no goroutine started before has
work left that would undo it, and a full synchronisation sets no session again that
was removed and finds nothing to remove. -/
def InOrder (s : Router) : Event → Prop
  | .receive _ => True
  | .run i => ∀ op ops, s.goroutines[i]? = some (op :: ops) →
      ∀ earlier ∈ (s.goroutines.take i).flatten, earlier.token = op.token → earlier.adds = op.adds
  | .legacySync apiSessions => ∀ apiSession ∈ apiSessions, lastAdded s.received apiSession.token = true
  | .removeMissing knownApiSessions beforeSessionId =>
    tokensToRemove s.legacyApiSessionsByToken knownApiSessions beforeSessionId = []

/-- Whether a session is held once the operations are done in this order. -/
def outcome (token : Token) (ops : List Op) (held : Bool) : Bool :=
  ops.foldl (fun held op => if op.token = token then op.adds else held) held

variable {sessions} {token : Token} {op : Op} {ops : List Op}

theorem outcome_append (token : Token) (ops ops' : List Op) (held : Bool) :
    outcome token (ops ++ ops') held = outcome token ops' (outcome token ops held) :=
  List.foldl_append

/-- Operations of one kind on a session do not undo each other. -/
theorem outcome_of_kind {b : Bool} (h : ∀ op ∈ ops, op.token = token → op.adds = b) (held : Bool) :
    outcome token ops held = if token ∈ ops.map Op.token then b else held := by
  induction ops generalizing held with
  | nil => rfl
  | cons op ops ih =>
    obtain ⟨hop, hops⟩ := List.forall_mem_cons.mp h
    refine (ih hops _).trans ?_
    by_cases htoken : op.token = token
    · simp [htoken, hop htoken]
    · simp [htoken, Ne.symm htoken]

theorem outcome_handleReceive {msg : Message} {held : Bool} :
    outcome token (handleReceive msg) held = if msg.names token then msg.adds else held := by
  cases msg with
  | apiSessionAdded apiSessions =>
    rw [handleReceive, outcome_of_kind (b := true) (by simp [Op.adds])]
    simp [Message.names, Message.adds, Op.token]
  | apiSessionRemoved tokens =>
    rw [handleReceive, outcome_of_kind (b := false) (by simp [Op.adds])]
    simp [Message.names, Message.adds, Op.token]

theorem outcome_other (h : ∀ op ∈ ops, op.token ≠ token) (held : Bool) : outcome token ops held = held :=
  (outcome_of_kind (fun op hop htoken => absurd htoken (h op hop)) held).trans (ite_self held)

/-- An operation that runs before earlier ones of its kind has the effect it
would have after them. -/
theorem outcome_exec {earlier : List Op} (h : ∀ e ∈ earlier, e.token = op.token → e.adds = op.adds) (token : Token) :
    outcome token (exec sessions op).2 (outcome token earlier (decide (token ∈ (exec sessions op).1))) =
      outcome token [op] (outcome token earlier (decide (token ∈ sessions))) := by
  by_cases htoken : op.token = token
  · subst htoken
    rw [outcome_of_kind h]
    cases op with
    | set _ => simp [exec, outcome, Op.token, Op.adds]
    | get token => by_cases hfound : token ∈ sessions <;> simp [exec, outcome, Op.token, Op.adds, hfound]
    | remove _ => simp [exec, outcome, Op.token, Op.adds]
  · have hheld : token ∈ (exec sessions op).1 ↔ token ∈ sessions := by
      cases op with
      | set _ => exact (AList.mem_insert sessions).trans (or_iff_right (Ne.symm htoken))
      | get _ => rfl
      | remove _ => exact AList.mem_erase.trans (and_iff_right (.symm htoken))
    have hagain : ∀ e ∈ (exec sessions op).2, e.token ≠ token := by
      cases op with
      | set _ | remove _ => exact List.forall_mem_nil _
      | get _ =>
        simp only [exec]
        split
        · exact List.forall_mem_singleton.mpr htoken
        · exact List.forall_mem_nil _
    rw [outcome_other hagain, outcome_other (List.forall_mem_singleton.mpr htoken)]
    simp [hheld]

/-- Doing what is left in the order of the messages leads to the sessions that
the messages ask for. -/
def Agrees (s : Router) : Prop :=
  ∀ token, outcome token s.goroutines.flatten (decide (token ∈ s.legacyApiSessionsByToken)) = lastAdded s.received token

theorem agrees_step (s : Router) (e : Event) (h : Agrees s) (hordered : InOrder s e) : Agrees (step s e) := by
  intro token
  have hs := h token
  cases e with
  | receive msg =>
    simp only [step, List.flatten_append, List.flatten_singleton, outcome_append, outcome_handleReceive]
    unfold lastAdded
    rw [List.find?_cons]
    cases msg.names token
    · exact hs
    · rfl
  | legacySync apiSessions =>
    simp only [step, List.flatten_append, List.flatten_singleton, outcome_append]
    rw [outcome_of_kind (b := true) (by simp [Op.adds])]
    split
    · rename_i hmem
      obtain ⟨apiSession, hsession, rfl⟩ : ∃ apiSession ∈ apiSessions, apiSession.token = token := by
        simpa [Op.token] using hmem
      exact (hordered apiSession hsession).symm
    · exact hs
  | removeMissing knownApiSessions beforeSessionId =>
    simp only [InOrder] at hordered
    simpa [step, hordered] using hs
  | run i =>
    rcases hgoroutine : s.goroutines[i]? with _ | _ | ⟨op, ops⟩
    · simpa only [step, hgoroutine] using hs
    · simpa only [step, hgoroutine] using hs
    · obtain ⟨hi, hget⟩ := getElem?_eq_some_iff.mp hgoroutine
      have hsplit : s.goroutines = s.goroutines.take i ++ (op :: ops) :: s.goroutines.drop (i + 1) := by
        rw [← hget, List.getElem_cons_drop, List.take_append_drop]
      rw [hsplit] at hs
      simp only [List.flatten_append, List.flatten_cons, outcome_append] at hs
      simp only [step, hgoroutine, List.set_eq_take_append_cons_drop, if_pos hi, List.flatten_append, List.flatten_cons,
        outcome_append]
      rw [outcome_exec (hordered op ops hgoroutine)]
      exact hs

/-- Once the goroutines of a run are done that worked in the order of the
messages, a session is held when the last message naming it added it. -/
theorem held_iff_lastAdded (events : List Event) (hordered : Meets InOrder step {} events)
    (hdone : ∀ ops ∈ (events.foldl step {}).goroutines, ops = []) (token : Token) :
    token ∈ (events.foldl step {}).legacyApiSessionsByToken ↔ lastAdded (events.foldl step {}).received token = true := by
  have hagrees : Agrees (events.foldl step {}) := hordered.invariant Agrees agrees_step (fun _ => rfl)
  have h := hagrees token
  rw [List.flatten_eq_nil_iff.mpr hdone] at h
  rw [← h]
  exact decide_eq_true_iff.symm

/-- A session is added and removed, with the goroutines taking turns as given. -/
def addedAndRemoved (turns : List Nat) : List Event :=
  [.receive (.apiSessionAdded [⟨"a", "t"⟩]), .receive (.apiSessionRemoved ["t"])] ++ turns.map .run

theorem removed_in_order : "t" ∉ ((addedAndRemoved [0, 1, 1]).foldl step {}).legacyApiSessionsByToken := by
  have hordered : Meets InOrder step {} (addedAndRemoved [0, 1, 1]) :=
    ⟨trivial, trivial, fun _ _ _ => List.forall_mem_nil _, fun _ _ _ => List.forall_mem_nil _,
      fun _ _ _ => List.forall_mem_nil _, trivial⟩
  rw [held_iff_lastAdded _ hordered (by decide)]
  decide

/-- The goroutine that removes the session looks for it before it is added. -/
theorem removed_session_held : ¬ ∀ events : List Event, (∀ ops ∈ (events.foldl step {}).goroutines, ops = []) →
    ∀ token, token ∈ (events.foldl step {}).legacyApiSessionsByToken ↔
      lastAdded (events.foldl step {}).received token = true := by
  intro h
  have hheld := (h (addedAndRemoved [1, 0]) (by decide) "t").mp (by decide)
  exact absurd hheld (by decide)

end Zt.SessionRemovals
