import Zt.RouteDelivery

namespace Zt.RouteUpdates

open Tables RouteMessages RouteDelivery
open EdgeCtrl (Id)
open Forwarder (setForwards route)

def forwardAddress (f : Forwarder) (circuitId : Id) (src : Address) : Option Address :=
  (f.circuits.lookup circuitId).bind (fun forwardTable => forwardTable.lookup src)

/-- Where the last of the forwards for a source leads. -/
def lastFor (forwards : List RouteForward) (src : Address) : Option Address :=
  (forwards.reverse.find? (fun forward => decide (forward.srcAddress = src))).map RouteForward.dstAddress

/-- The forwards are all set for the circuit of the message, or after an error
none is. Other circuits keep their tables. -/
structure AllOrNothing (f : Forwarder) (message : Route) : Prop where
  circuit : ∀ src, forwardAddress (f.route message).1 message.circuitId src =
    if (f.route message).2 = none then (lastFor message.forwards src).or (forwardAddress f message.circuitId src)
    else forwardAddress f message.circuitId src
  others : ∀ circuitId, circuitId ≠ message.circuitId →
    (f.route message).1.circuits.lookup circuitId = f.circuits.lookup circuitId

/-- The forwards before the first one that is not valid. -/
def accepted (f : Forwarder) (forwards : List RouteForward) : List RouteForward :=
  forwards.takeWhile (fun forward => (f.invalidDestination forward).isNone)

/-- All forwards are valid, the circuit is new, or those that are set before
the error were set already. -/
def Harmless (f : Forwarder) (message : Route) : Prop :=
  accepted f message.forwards = message.forwards ∨ message.circuitId ∉ f.circuits ∨
    ∀ src dst, lastFor (accepted f message.forwards) src = some dst →
      forwardAddress f message.circuitId src = some dst

variable {f : Forwarder} {message : Route} {src : Address}

theorem setForwards_fst (forwards : List RouteForward) (t : Table Address Address) :
    (f.setForwards t forwards).1 = addForwards t (accepted f forwards) := by
  induction forwards generalizing t with
  | nil => rfl
  | cons forward forwards ih =>
    cases h : f.invalidDestination forward with
    | none => simpa [setForwards, accepted, addForwards, h] using ih _
    | some err => simp [setForwards, accepted, addForwards, h]

theorem setForwards_snd (forwards : List RouteForward) (t : Table Address Address) :
    (f.setForwards t forwards).2 = none ↔ accepted f forwards = forwards := by
  induction forwards generalizing t with
  | nil => simp [setForwards, accepted]
  | cons forward forwards ih =>
    cases h : f.invalidDestination forward with
    | none => simpa [setForwards, accepted, h] using ih _
    | some err => simp [setForwards, accepted, h]

theorem lookup_set {t : Table Address Address} {forwards : List RouteForward} :
    (addForwards t forwards).lookup src = (lastFor forwards src).or (t.lookup src) :=
  lookup_foldl_insert (fun forward : RouteForward => forward.srcAddress) (fun forward => forward.dstAddress) forwards t
    src

theorem route_snd : (f.route message).2 = none ↔ accepted f message.forwards = message.forwards := by
  rw [← setForwards_snd message.forwards (f.getForwardTable message.circuitId)]
  unfold route
  split
  · rename_i heq
    simp [heq]
  · rename_i heq
    split <;> simp [heq]

/-- A circuit without a table gets none from a message with an error. -/
theorem lookup_route {circuitId : Id} :
    (f.route message).1.circuits.lookup circuitId = if circuitId = message.circuitId ∧
          (accepted f message.forwards = message.forwards ∨ message.circuitId ∈ f.circuits) then
        some (addForwards (f.getForwardTable circuitId) (accepted f message.forwards))
      else f.circuits.lookup circuitId := by
  have htable := setForwards_fst (f := f) message.forwards (f.getForwardTable message.circuitId)
  have hok := setForwards_snd (f := f) message.forwards (f.getForwardTable message.circuitId)
  unfold route
  split
  · rename_i circuitFt heq
    rw [heq] at htable hok
    rw [lookup_insert_eq]
    by_cases hc : circuitId = message.circuitId
    · rw [if_pos hc, if_pos ⟨hc, .inl (hok.mp rfl)⟩, hc]
      exact congrArg some htable
    · simp [hc]
  · rename_i circuitFt err heq
    rw [heq] at htable hok
    have hfailed : accepted f message.forwards ≠ message.forwards := fun h => Option.some_ne_none err (hok.mpr h)
    by_cases hknown : message.circuitId ∈ f.circuits
    · rw [if_pos hknown, lookup_insert_eq]
      by_cases hc : circuitId = message.circuitId
      · rw [if_pos hc, if_pos ⟨hc, .inr hknown⟩, hc]
        exact congrArg some htable
      · simp [hc]
    · rw [if_neg hknown, if_neg (fun h => h.2.elim hfailed hknown)]

theorem forwardAddress_route : forwardAddress (f.route message).1 message.circuitId src =
    if accepted f message.forwards = message.forwards ∨ message.circuitId ∈ f.circuits then
      (lastFor (accepted f message.forwards) src).or (forwardAddress f message.circuitId src)
    else forwardAddress f message.circuitId src := by
  have htable : (f.getForwardTable message.circuitId).lookup src = forwardAddress f message.circuitId src := by
    unfold Forwarder.getForwardTable forwardAddress
    cases f.circuits.lookup message.circuitId <;> rfl
  rw [forwardAddress, lookup_route]
  split
  · rename_i h
    rw [if_pos h.2, Option.bind_some, lookup_set, htable]
  · rename_i h
    rw [if_neg (fun h' => h ⟨rfl, h'⟩)]
    rfl

/-- A failed route update changes nothing exactly if it is harmless. -/
theorem allOrNothing_iff (f : Forwarder) (message : Route) : AllOrNothing f message ↔ Harmless f message := by
  have hothers : ∀ circuitId, circuitId ≠ message.circuitId →
      (f.route message).1.circuits.lookup circuitId = f.circuits.lookup circuitId := by
    intro circuitId hne
    rw [lookup_route, if_neg (fun h => hne h.1)]
  have hiff : AllOrNothing f message ↔ ∀ src, forwardAddress (f.route message).1 message.circuitId src =
      if (f.route message).2 = none then (lastFor message.forwards src).or (forwardAddress f message.circuitId src)
      else forwardAddress f message.circuitId src := ⟨fun h => h.circuit, fun h => ⟨h, hothers⟩⟩
  simp only [hiff, forwardAddress_route, route_snd, Harmless]
  by_cases hok : accepted f message.forwards = message.forwards
  · simp [hok]
  · by_cases hknown : message.circuitId ∈ f.circuits
    · simp only [hok, hknown, not_true, false_or]
      refine forall_congr' (fun src => ?_)
      cases lastFor (accepted f message.forwards) src with
      | none => simp
      | some dst => simp [eq_comm]
    · simp [hok, hknown]

/-- The link back is gone. -/
def staleReroute : Route :=
  { circuitId := "c", attempt := smartRerouteAttempt, timeout := 0,
    forwards := [⟨"l0", "l2", .destLink⟩, ⟨"l2", "l0", .destLink⟩] }

def routedCircuit : Forwarder where
  circuits := AList.insert "c" (AList.insert "l0" "l1" ∅) ∅
  destinations := AList.insert "l1" () (AList.insert "l2" () ∅)

theorem failed_reroute_applied : ¬ AllOrNothing routedCircuit staleReroute := by
  rw [allOrNothing_iff]
  rintro (hall | hnew | hset)
  · exact absurd hall (by decide)
  · exact absurd hnew (by decide)
  · exact absurd (hset "l0" "l2" (by decide)) (by decide)

end Zt.RouteUpdates
