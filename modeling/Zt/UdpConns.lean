import Zt.Runs
import Zt.Tables

namespace Zt.UdpConns

open Tables Runs

abbrev Addr := String

/-- A virtual connection. Replies are written from the address that its write
socket listens on. -/
structure UdpConn where
  id : Nat
  srcAddr : Addr
  targetAddr : Addr
  writeAddr : Addr

structure Datagram where
  srcAddr : Addr
  origDest : Addr
  payload : List UInt8

/-- The connections of the manager, those closed so far, and the datagrams
queued with the connection they are queued on. -/
structure Manager where
  connMap : Table Addr UdpConn := ∅
  closed : List Nat := []
  next : Nat := 0
  queued : List (Datagram × UdpConn) := []

/-- What reading the original destination, listening on it and putting the
datagram in the queue of its connection come to are inputs. -/
inductive UdpEvent
  | read (datagram : Datagram) (origDestFound listens accepts : Bool)
  | close (id : Nat)
  | dropExpired (isExpired : UdpConn → Bool)

variable (s : Manager)

def getWriteQueue (srcAddr : Addr) : Option UdpConn × Manager :=
  match s.connMap.lookup srcAddr with
  | none => (none, s)
  | some result =>
    if result.id ∈ s.closed then (none, { s with connMap := s.connMap.erase srcAddr }) else (some result, s)

def createWriteQueue (targetAddr srcAddr writeAddr : Addr) : UdpConn × Manager :=
  let conn : UdpConn := ⟨s.next, srcAddr, targetAddr, writeAddr⟩
  (conn, { s with connMap := s.connMap.insert srcAddr conn, next := s.next + 1 })

def accept (datagram : Datagram) (conn : UdpConn) (accepts : Bool) : Manager :=
  if accepts ∧ conn.id ∉ s.closed then { s with queued := (datagram, conn) :: s.queued } else s

def handleRead (datagram : Datagram) (origDestFound listens accepts : Bool) : Manager :=
  match getWriteQueue s datagram.srcAddr with
  | (some writeQueue, s) => accept s datagram writeQueue accepts
  | (none, s) =>
    if origDestFound ∧ listens then
      let created := createWriteQueue s datagram.origDest datagram.srcAddr datagram.origDest
      accept created.2 datagram created.1 accepts
    else s

def dropConn (isExpired : UdpConn → Bool) (s : Manager) (conn : UdpConn) : Manager :=
  if conn.id ∈ s.closed then { s with connMap := s.connMap.erase conn.srcAddr }
  else if isExpired conn then
    { s with closed := conn.id :: s.closed, connMap := s.connMap.erase conn.srcAddr }
  else s

def step : UdpEvent → Manager
  | .read datagram origDestFound listens accepts => handleRead s datagram origDestFound listens accepts
  | .close id => { s with closed := id :: s.closed }
  | .dropExpired isExpired => ((pairs s.connMap).map Prod.snd).foldl (dropConn isExpired) s

/-- A datagram is on a connection for its source and its destination. -/
def RightConn (entry : Datagram × UdpConn) : Prop :=
  entry.2.srcAddr = entry.1.srcAddr ∧ entry.2.targetAddr = entry.1.origDest ∧ entry.2.writeAddr = entry.1.origDest

def Delivered : Prop := ∀ entry ∈ s.queued, RightConn entry

/-- A datagram that an open connection of its source takes goes where that
connection does. -/
def SameDest : UdpEvent → Prop
  | .read datagram _ _ accepts => ∀ conn, s.connMap.lookup datagram.srcAddr = some conn → conn.id ∉ s.closed →
      accepts = true → conn.targetAddr = datagram.origDest
  | _ => True

/-- Connections are found by their source, and answer from their target. -/
def Keyed : Prop :=
  ∀ srcAddr conn, s.connMap.lookup srcAddr = some conn → conn.srcAddr = srcAddr ∧ conn.writeAddr = conn.targetAddr

variable {s s' : Manager} {datagram : Datagram} {conn : UdpConn} {accepts : Bool}

/-- Connections are dropped and nothing is queued. -/
structure Shrinks (s s' : Manager) : Prop where
  queued : s'.queued = s.queued
  connMap : ∀ srcAddr conn, s'.connMap.lookup srcAddr = some conn → s.connMap.lookup srcAddr = some conn

theorem Shrinks.refl (s : Manager) : Shrinks s s := ⟨rfl, fun _ _ h => h⟩

theorem Shrinks.delivered (h : Shrinks s s') (hs : Delivered s) : Delivered s' := by
  unfold Delivered
  rw [h.queued]
  exact hs

theorem Shrinks.keyed (h : Shrinks s s') (hs : Keyed s) : Keyed s' :=
  fun srcAddr conn hconn => hs srcAddr conn (h.connMap srcAddr conn hconn)

theorem getWriteQueue_cases {srcAddr : Addr} :
    (∃ conn, s.connMap.lookup srcAddr = some conn ∧ conn.id ∉ s.closed ∧ getWriteQueue s srcAddr = (some conn, s)) ∨
      (∀ conn, s.connMap.lookup srcAddr = some conn → conn.id ∈ s.closed) ∧
        ∃ s', getWriteQueue s srcAddr = (none, s') ∧ Shrinks s s' := by
  unfold getWriteQueue
  split
  · rename_i hnone
    exact .inr ⟨fun conn hconn => by simp [hnone] at hconn, s, rfl, .refl s⟩
  · rename_i conn hconn
    split
    · refine .inr ⟨fun c hc => ?_, _, rfl, rfl, fun _ _ h => (lookup_of_erase h).2⟩
      rwa [← Option.some.inj (hconn.symm.trans hc)]
    · rename_i hopen
      exact .inl ⟨conn, hconn, hopen, rfl⟩

theorem shrinks_dropExpired (isExpired : UdpConn → Bool) (conns : List UdpConn) (s : Manager) :
    Shrinks s (conns.foldl (dropConn isExpired) s) := by
  induction conns generalizing s with
  | nil => exact .refl s
  | cons conn conns ih =>
    have hdrop : Shrinks s (dropConn isExpired s conn) := by
      unfold dropConn
      repeat' split
      · exact ⟨rfl, fun _ _ h => (lookup_of_erase h).2⟩
      · exact ⟨rfl, fun _ _ h => (lookup_of_erase h).2⟩
      · exact .refl s
    have hrest := ih (dropConn isExpired s conn)
    exact ⟨hrest.queued.trans hdrop.queued, fun k c h => hdrop.connMap k c (hrest.connMap k c h)⟩

theorem keyed_accept (h : Keyed s) : Keyed (accept s datagram conn accepts) := by
  unfold accept
  split <;> exact h

theorem keyed_step (s : Manager) (e : UdpEvent) (h : Keyed s) : Keyed (step s e) := by
  cases e with
  | close id => exact h
  | dropExpired isExpired => exact (shrinks_dropExpired isExpired _ s).keyed h
  | read datagram origDestFound listens accepts =>
    simp only [step, handleRead]
    rcases getWriteQueue_cases with ⟨conn, -, -, heq⟩ | ⟨-, s', heq, hshrinks⟩
    · rw [heq]
      exact keyed_accept h
    · rw [heq]
      dsimp only
      split
      · exact keyed_accept (forall_insert (hshrinks.keyed h) ⟨rfl, rfl⟩)
      · exact hshrinks.keyed h

theorem delivered_accept (h : Delivered s) : Delivered (accept s datagram conn accepts) ↔
    (accepts = true → conn.id ∉ s.closed → RightConn (datagram, conn)) := by
  unfold accept
  split
  · rename_i haccepted
    simp only [Delivered, List.forall_mem_cons, haccepted, true_implies, not_false_eq_true]
    exact and_iff_left h
  · rename_i hdropped
    exact iff_of_true h (fun haccepts hopen => absurd ⟨haccepts, hopen⟩ hdropped)

theorem delivered_step (s : Manager) (e : UdpEvent) (hkeyed : Keyed s) (h : Delivered s) :
    Delivered (step s e) ↔ SameDest s e := by
  cases e with
  | close id => exact iff_of_true h trivial
  | dropExpired isExpired => exact iff_of_true ((shrinks_dropExpired isExpired _ s).delivered h) trivial
  | read datagram origDestFound listens accepts =>
    simp only [step, handleRead, SameDest]
    rcases getWriteQueue_cases with ⟨conn, hconn, hopen, heq⟩ | ⟨hclosed, s', heq, hshrinks⟩
    · obtain ⟨hsrc, hwrite⟩ := hkeyed _ _ hconn
      rw [heq, delivered_accept h]
      simp [hconn, hopen, RightConn, hsrc, hwrite]
    · rw [heq]
      refine iff_of_true ?_ (fun conn hconn hopen => absurd (hclosed conn hconn) hopen)
      have hdelivered := hshrinks.delivered h
      dsimp only
      split
      · exact (delivered_accept (s := (createWriteQueue s' _ _ _).2) hdelivered).mpr (fun _ _ => ⟨rfl, rfl, rfl⟩)
      · exact hdelivered

/-- Every datagram of a run is queued for its own destination exactly if those
that come over an open connection of their source go where it does. -/
theorem delivered_iff (events : List UdpEvent) :
    (∀ n, Delivered ((events.take n).foldl step {})) ↔ Meets SameDest step {} events :=
  forall_states_iff_meets Keyed Delivered keyed_step delivered_step (fun _ _ h => by cases h) (fun _ h => by cases h)
    events

def toTwoServers : List UdpEvent :=
  [.read ⟨"10.0.0.1:5353", "100.64.0.2:53", []⟩ true true true,
    .read ⟨"10.0.0.1:5353", "100.64.0.3:53", []⟩ true true true]

theorem second_server_bypassed : ¬ ∀ n, Delivered ((toTwoServers.take n).foldl step {}) := by
  intro h
  have hmeets := (delivered_iff toTwoServers).mp h
  exact absurd (hmeets.2.1 ⟨0, "10.0.0.1:5353", "100.64.0.2:53", "100.64.0.2:53"⟩ rfl (by decide) rfl) (by decide)

/-- A datagram is on a connection of its source, which answers from its target. -/
def OwnConn (entry : Datagram × UdpConn) : Prop :=
  entry.2.srcAddr = entry.1.srcAddr ∧ entry.2.writeAddr = entry.2.targetAddr

theorem ownConn_accept (h : ∀ entry ∈ s.queued, OwnConn entry) (hconn : OwnConn (datagram, conn)) :
    ∀ entry ∈ (accept s datagram conn accepts).queued, OwnConn entry := by
  unfold accept
  split
  · exact List.forall_mem_cons.mpr ⟨hconn, h⟩
  · exact h

theorem ownConn_step (s : Manager) (e : UdpEvent) (hkeyed : Keyed s) (h : ∀ entry ∈ s.queued, OwnConn entry) :
    ∀ entry ∈ (step s e).queued, OwnConn entry := by
  cases e with
  | close id => exact h
  | dropExpired isExpired => rwa [step, (shrinks_dropExpired isExpired _ s).queued]
  | read datagram origDestFound listens accepts =>
    simp only [step, handleRead]
    rcases getWriteQueue_cases with ⟨conn, hconn, -, heq⟩ | ⟨-, s', heq, hshrinks⟩
    · rw [heq]
      exact ownConn_accept h (hkeyed _ conn hconn)
    · rw [← hshrinks.queued] at h
      rw [heq]
      dsimp only
      split
      · exact ownConn_accept h ⟨rfl, rfl⟩
      · exact h

/-- In every run the datagrams of a source are only queued on connections of
that source, whose answers come from the address that the connection is to. -/
theorem queued_on_own_conn (events : List UdpEvent) : ∀ entry ∈ (events.foldl step {}).queued, OwnConn entry :=
  (List.foldlRecOn (motive := fun s => Keyed s ∧ ∀ entry ∈ s.queued, OwnConn entry) events step
    ⟨fun _ _ h => (by cases h), fun _ h => (by cases h)⟩
    (fun s h e _ => ⟨keyed_step s e h.1, ownConn_step s e h.1 h.2⟩)).2

theorem second_datagram_own_conn : OwnConn (⟨"10.0.0.1:5353", "100.64.0.3:53", []⟩,
    ⟨0, "10.0.0.1:5353", "100.64.0.2:53", "100.64.0.2:53"⟩) :=
  queued_on_own_conn toTwoServers _ (.head _)

end Zt.UdpConns
