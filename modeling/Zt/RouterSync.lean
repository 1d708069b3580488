import Zt.EventCacheReplay

namespace Zt.RouterSync

open EdgeCtrl EventCache EventCacheReplay Runs

structure SubscribeToDataModelRequest where
  currentIndex : UInt64
  renew : Bool
  timelineId : String
  subscriptionId : String

/-- The controller's end of a router connection. It is active once the router
has subscribed; subscriptions do not expire here. -/
structure RouterSender where
  currentIndex : UInt64 := 0
  timelineId : String := ""
  subscriptionId : String := ""
  active : Bool := false

/-- A full state carries, in place of its events, the accepted change sets that
went into it. -/
inductive Message
  | changeSet (change : ChangeSet)
  | dataState (endIndex : UInt64) (timelineId : String) (contents : List ChangeSet)

/-- The router's end. It holds the change sets it applied, or got within a full
state, and everything up to the covered index, which it has from elsewhere. -/
structure Router where
  index : UInt64 := 0
  timelineId : String := ""
  applied : List ChangeSet := []
  covered : UInt64 := 0
  subscribed : Bool := false

variable (r : Router)

def Router.Holds (change : ChangeSet) : Prop := change ∈ r.applied ∨ change.index ≤ r.covered

def applyChangeSet (change : ChangeSet) : Router :=
  if change.isSynthetic then { r with applied := r.applied ++ [change] }
  else if r.index > 0 ∧ r.index ≥ change.index then r
  else { r with index := change.index, applied := r.applied ++ [change] }

def handleReceive (msg : Message) : Router :=
  if r.subscribed then
    match msg with
    | .changeSet change => applyChangeSet r change
    | .dataState endIndex timelineId contents =>
      { r with index := endIndex, timelineId := timelineId, applied := contents, covered := 0 }
  else r

structure System where
  history : History
  timelineId : String
  rtx : RouterSender := {}
  router : Router := {}

def start (logSize : Nat) (index : UInt64) (timelineId : String) : System :=
  { history := step (EventCacheReplay.start logSize) (.setCurrentIndex index), timelineId := timelineId }

variable (s : System)

def replay : Option (List (Option ChangeSet) × ReplayResult) :=
  if s.rtx.currentIndex > 0 ∧ s.rtx.timelineId = s.timelineId then
    replayFrom s.history.cache s.rtx.currentIndex
  else some ([], .fullSyncRequired)

def sendEvent : Option ChangeSet → Option System
  | none => none
  | some curEvent =>
    some { s with
      router := handleReceive s.router (.changeSet curEvent)
      rtx := { s.rtx with currentIndex := curEvent.index } }

def sendDataState : System :=
  let endIndex := currentIndex s.history.cache
  { s with
    router := handleReceive s.router (.dataState endIndex s.timelineId s.history.accepted)
    rtx := { s.rtx with currentIndex := endIndex, timelineId := s.timelineId } }

/-- The first replayed change set is taken to be the one the router has already
and is not sent. -/
def handleModelChange (isLeader : Bool) (s : System) : Option System :=
  if !s.rtx.active then some s
  else do
    let (events, replayResult) ← replay s
    let s ← if replayResult = .success then events.tail.foldlM sendEvent s else some s
    if replayResult = .fullSyncRequired ∨ (isLeader ∧ replayResult = .requestFromFuture) then
      some (sendDataState s)
    else some s

def register (req : SubscribeToDataModelRequest) (s : System) : System :=
  let index := if !req.renew ∨ req.subscriptionId ≠ s.rtx.subscriptionId then req.currentIndex
    else s.rtx.currentIndex
  { s with
    rtx :=
      { currentIndex := index, timelineId := req.timelineId, subscriptionId := req.subscriptionId,
        active := true }
    router := { s.router with subscribed := true } }

def needsChange (req : SubscribeToDataModelRequest) (s : System) : Prop :=
  currentIndex s.history.cache > (register req s).rtx.currentIndex ∨ s.rtx.timelineId ≠ req.timelineId

instance (req : SubscribeToDataModelRequest) (s : System) : Decidable (needsChange req s) :=
  inferInstanceAs (Decidable (_ ∨ _))

def handleSyncRequest (isLeader : Bool) (req : SubscribeToDataModelRequest) (s : System) : Option System :=
  if needsChange req s then handleModelChange isLeader (register req s) else some (register req s)

inductive SyncOp
  | store (event : ChangeSet)
  | syncElsewhere (index : UInt64) (timelineId : String)
  | syncRequest (isLeader : Bool) (req : SubscribeToDataModelRequest)
  | modelChange (isLeader : Bool)

def stepSync : SyncOp → Option System
  | .store event => some { s with history := step s.history (.store event) }
  | .syncElsewhere index timelineId =>
    some { s with
      router :=
        { index := index, timelineId := timelineId,
          covered := if timelineId = s.timelineId then index else 0 } }
  | .syncRequest isLeader req => handleSyncRequest isLeader req s
  | .modelChange isLeader => handleModelChange isLeader s

/-- The router holds every change set of the controller's timeline up to an
index, whether the controller has stored it already or will do so later. -/
def HoldsUpTo (index : UInt64) : Prop :=
  ∀ change, change ∈ s.history.accepted ∨ currentIndex s.history.cache < change.index →
    change.index ≤ index → s.router.Holds change

/-- A router reports its own timeline and an index up to which it holds
everything. It renews a subscription only if it has not been elsewhere since. -/
def Reports : SyncOp → Prop
  | .syncRequest _ req =>
    req.timelineId = s.router.timelineId ∧ (req.timelineId = s.timelineId → HoldsUpTo s req.currentIndex) ∧
      (req.renew → req.subscriptionId = s.rtx.subscriptionId → s.router.subscribed)
  | _ => True

/-- Nothing stored up to the index of a router on the controller's timeline is
missing from it. -/
def NothingLost : Prop :=
  s.router.timelineId = s.timelineId →
    ∀ change ∈ s.history.accepted, change.index ≤ s.router.index → s.router.Holds change

/-- If the cache can replay from the sender's index, it has a change set with
just that index. -/
def ReplayAligned : Prop :=
  s.rtx.active → s.router.subscribed → 0 < s.rtx.currentIndex → s.rtx.timelineId = s.timelineId →
    s.history.cache.minEntryIndex ≤ s.rtx.currentIndex →
    s.rtx.currentIndex ≤ currentIndex s.history.cache → s.history.cache.events ≠ ∅ →
    s.rtx.currentIndex ∈ s.history.cache.events

def Aligned : SyncOp → Prop
  | .syncRequest _ req => needsChange req s → ReplayAligned (register req s)
  | .modelChange _ => ReplayAligned s
  | _ => True

structure SyncInv (s : System) : Prop where
  cache : ∃ base, Inv base s.history
  router : s.router.timelineId = s.timelineId → HoldsUpTo s s.router.index
  sender : s.router.subscribed → s.rtx.timelineId = s.timelineId → HoldsUpTo s s.rtx.currentIndex
  timeline : s.router.subscribed → s.rtx.timelineId = s.router.timelineId

theorem syncInv_start {logSize : Nat} (hn : 1 ≤ logSize) {index : UInt64} (hindex : index ≠ 18446744073709551615)
    (timelineId : String) : SyncInv (start logSize index timelineId) := by
  refine ⟨⟨index, inv_set (inv_start hn) index ⟨rfl, hindex⟩⟩, ?_, nofun, nofun⟩
  intro _ change _ hle
  exact .inr hle

theorem applyChangeSet_holds {r : Router} {change c : ChangeSet} (h : r.Holds c) :
    (applyChangeSet r change).Holds c := by
  unfold applyChangeSet
  split
  · exact h.imp (List.mem_append_left _) id
  · split
    · exact h
    · exact h.imp (List.mem_append_left _) id

theorem applyChangeSet_cases {change : ChangeSet} :
    ((applyChangeSet r change).Holds change ∨ (change.index ≤ r.index ∧ applyChangeSet r change = r)) ∧
      ((applyChangeSet r change).index = r.index ∨ (applyChangeSet r change).index = change.index) ∧
      (applyChangeSet r change).timelineId = r.timelineId ∧
      (applyChangeSet r change).subscribed = r.subscribed := by
  unfold applyChangeSet
  split
  · exact ⟨.inl (.inl (by simp)), .inl rfl, rfl, rfl⟩
  · split
    · rename_i hold
      exact ⟨.inr ⟨hold.2, rfl⟩, .inl rfl, rfl, rfl⟩
    · exact ⟨.inl (.inl (by simp)), .inr rfl, rfl, rfl⟩

variable {s}

/-- What one sent change set does, when everything accepted before it is held
by a subscribed router. -/
theorem syncInv_sendEvent (hs : SyncInv s) (htime : s.rtx.timelineId = s.timelineId)
    {before after : List ChangeSet} {curEvent : ChangeSet} (hsplit : s.history.accepted = before ++ curEvent :: after)
    (hbefore : s.router.subscribed → ∀ x ∈ before, x.index ≤ s.rtx.currentIndex) :
    ∃ s', sendEvent s (some curEvent) = some s' ∧ SyncInv s' ∧ s'.rtx.timelineId = s'.timelineId ∧
      s'.history = s.history ∧ s'.rtx.currentIndex = curEvent.index := by
  refine ⟨_, rfl, ?_, htime, rfl, rfl⟩
  obtain ⟨base, hi⟩ := hs.cache
  by_cases hsub : s.router.subscribed
  · have hrouter := hs.router (hs.timeline hsub ▸ htime)
    have hsender := hs.sender hsub htime
    obtain ⟨hgot, hindex, hmodel, -⟩ := applyChangeSet_cases s.router
    have hmem : curEvent ∈ s.history.accepted := by simp [hsplit]
    have hcur : (applyChangeSet s.router curEvent).Holds curEvent := by
      rcases hgot with hgot | ⟨hle, heq⟩
      · exact hgot
      · exact heq.symm ▸ hrouter curEvent (.inl hmem) hle
    have hupto : ∀ c, c ∈ s.history.accepted ∨ currentIndex s.history.cache < c.index →
        c.index ≤ curEvent.index → (applyChangeSet s.router curEvent).Holds c := by
      rintro c (hc | hc) hle
      · have hsorted := hi.increasing
        rw [hsplit, List.pairwise_append, List.pairwise_cons] at hsorted
        rw [hsplit, List.mem_append, List.mem_cons] at hc
        rcases hc with hc | rfl | hc
        · exact applyChangeSet_holds (hsender c (.inl (by simp [hsplit, hc])) (hbefore hsub c hc))
        · exact hcur
        · exact absurd (hsorted.2.1.1 c hc) (UInt64.not_lt.mpr hle)
      · exact absurd (UInt64.lt_of_lt_of_le hc hle) (UInt64.not_lt.mpr (hi.le_current hmem))
    simp only [handleReceive, hsub]
    refine ⟨⟨base, hi⟩, ?_, fun _ _ => hupto, fun _ => (hs.timeline hsub).trans hmodel.symm⟩
    intro _
    rcases hindex with heq | heq
    · intro c hc hle
      exact applyChangeSet_holds (hrouter c hc (heq ▸ hle))
    · intro c hc hle
      exact hupto c hc (heq ▸ hle)
  · simp only [handleReceive, hsub]
    exact ⟨⟨base, hi⟩, hs.router, fun h => absurd h hsub, fun h => absurd h hsub⟩

theorem syncInv_sendEvents (hs : SyncInv s) (htime : s.rtx.timelineId = s.timelineId)
    (before events : List ChangeSet) (hsplit : s.history.accepted = before ++ events)
    (hbefore : s.router.subscribed → ∀ x ∈ before, x.index ≤ s.rtx.currentIndex) :
    ∃ s', (events.map some).foldlM sendEvent s = some s' ∧ SyncInv s' := by
  induction events generalizing s before with
  | nil => exact ⟨s, rfl, hs⟩
  | cons curEvent events ih =>
    obtain ⟨base, hi⟩ := hs.cache
    obtain ⟨s₁, h₁, hinv, htime₁, hhist, hindex⟩ := syncInv_sendEvent hs htime hsplit hbefore
    obtain ⟨s₂, h₂, hend⟩ := ih hinv htime₁ (before ++ [curEvent]) (by simp [hhist, hsplit]) (by
      intro _ x hx
      rw [hindex]
      have hsorted := hi.increasing
      rw [hsplit, List.pairwise_append] at hsorted
      rcases List.mem_append.mp hx with hx | hx
      · exact UInt64.le_of_lt (hsorted.2.2 x hx curEvent (by simp))
      · rw [List.mem_singleton.mp hx]
        exact UInt64.le_refl _)
    exact ⟨s₂, by simp [h₁, h₂], hend⟩

theorem syncInv_sendDataState (hs : SyncInv s) : SyncInv (sendDataState s) := by
  by_cases hsub : s.router.subscribed
  · have hupto : ∀ r : Router, r.applied = s.history.accepted →
        ∀ c, c ∈ s.history.accepted ∨ currentIndex s.history.cache < c.index →
          c.index ≤ currentIndex s.history.cache → r.Holds c := by
      rintro r hr c (hc | hc) hle
      · exact .inl (hr ▸ hc)
      · exact absurd hc (UInt64.not_lt.mpr hle)
    unfold sendDataState
    simp only [handleReceive, hsub]
    exact ⟨hs.cache, fun _ => hupto _ rfl, fun _ _ => hupto _ rfl, fun _ => rfl⟩
  · unfold sendDataState
    simp only [handleReceive, hsub]
    exact ⟨hs.cache, hs.router, fun h => absurd h hsub, fun h => absurd h hsub⟩

variable {isLeader : Bool}

theorem syncInv_handleModelChange (hs : SyncInv s) (ha : ReplayAligned s) :
    ∃ s', handleModelChange isLeader s = some s' ∧ SyncInv s' := by
  obtain ⟨base, hi⟩ := hs.cache
  unfold handleModelChange
  by_cases hactive : s.rtx.active
  swap
  · exact ⟨s, by simp [hactive], hs⟩
  by_cases hgo : s.rtx.currentIndex > 0 ∧ s.rtx.timelineId = s.timelineId
  swap
  · exact ⟨_, by simp [hactive, replay, hgo], syncInv_sendDataState hs⟩
  obtain ⟨hpos, htime⟩ := hgo
  by_cases hfuture : currentIndex s.history.cache < s.rtx.currentIndex
  · have hr := hi.replay_past hfuture
    cases isLeader with
    | false => exact ⟨s, by simp [replay, hpos, htime, hr], hs⟩
    | true => exact ⟨_, by simp [hactive, replay, hpos, htime, hr], syncInv_sendDataState hs⟩
  · have hle : s.rtx.currentIndex ≤ currentIndex s.history.cache := UInt64.not_lt.mp hfuture
    rcases hi.replay_upto hle with hr | ⟨before, c, after, hsplit, hge, hfloor, hlow, hr⟩
    · exact ⟨_, by simp [hactive, replay, hr], syncInv_sendDataState hs⟩
    · have hsame : s.router.subscribed → c.index = s.rtx.currentIndex := by
        intro hsub
        have hne : s.history.accepted ≠ [] := by simp [hsplit]
        have hcur := hi.current_mem hne
        have hin := ha hactive hsub hpos htime hfloor hle (by rintro hempty; simp [hempty] at hcur)
        obtain ⟨x, hx, hxi⟩ := hi.mem_events.mp hin
        have hacc := mem_of_window hx
        have hsorted := hi.increasing
        rw [hsplit, List.pairwise_append, List.pairwise_cons] at hsorted
        rw [hsplit, List.mem_append, List.mem_cons] at hacc
        rcases hacc with hx | rfl | hx
        · exact absurd (hlow x hx) (by rw [hxi]; exact UInt64.lt_irrefl _)
        · exact hxi
        · have hlt := hsorted.2.1.1 x hx
          rw [hxi] at hlt
          exact absurd hlt (UInt64.not_lt.mpr hge)
      obtain ⟨s', hsent, hinv⟩ := syncInv_sendEvents hs htime (before ++ [c]) after (by simp [hsplit]) (by
        intro hsub x hx
        rcases List.mem_append.mp hx with hx | hx
        · exact UInt64.le_of_lt (hlow x hx)
        · rw [List.mem_singleton.mp hx, hsame hsub]
          exact UInt64.le_refl _)
      exact ⟨s', by simpa [hactive, replay, hpos, htime, hr] using hsent, hinv⟩

theorem syncInv_store (hs : SyncInv s) {event : ChangeSet} :
    SyncInv { s with history := step s.history (.store event) } := by
  obtain ⟨base, hi⟩ := hs.cache
  rcases step_store with heq | ⟨-, he, heq⟩
  · rw [heq]; exact hs
  · rw [heq]
    have hnew := inv_stored hi he
    have hcur : currentIndex (stored s.history event).cache = event.index := by
      rw [hnew.current]
      simp [indexes, stored]
    have hkeep : ∀ index, HoldsUpTo s index → HoldsUpTo { s with history := stored s.history event } index := by
      intro index hold c hc hle
      refine hold c ?_ hle
      rcases hc with hc | hc
      · simp only [stored, List.mem_append, List.mem_singleton] at hc
        rcases hc with hc | rfl
        · exact .inl hc
        · exact .inr he
      · exact .inr (UInt64.lt_trans he (hcur ▸ hc))
    exact ⟨⟨base, hnew⟩, fun h => hkeep _ (hs.router h), fun h h' => hkeep _ (hs.sender h h'), hs.timeline⟩

theorem syncInv_register (hs : SyncInv s) {req : SubscribeToDataModelRequest}
    (hr : Reports s (.syncRequest isLeader req)) : SyncInv (register req s) := by
  obtain ⟨htime, hholds, hrenew⟩ := hr
  refine ⟨hs.cache, hs.router, ?_, fun _ => htime⟩
  intro _ hsame
  by_cases hnew : !req.renew ∨ req.subscriptionId ≠ s.rtx.subscriptionId
  · simp only [register, hnew]
    exact hholds hsame
  · simp only [register, hnew]
    simp only [Bool.not_eq_true', not_or, Bool.not_eq_false, not_not] at hnew
    have hsub := hrenew hnew.1 hnew.2
    exact hs.sender hsub ((hs.timeline hsub).trans (htime.symm.trans hsame))

theorem syncInv_step (hs : SyncInv s) {op : SyncOp} (hr : Reports s op) (ha : Aligned s op) :
    ∃ s', stepSync s op = some s' ∧ SyncInv s' := by
  cases op with
  | store event => exact ⟨_, rfl, syncInv_store hs⟩
  | syncElsewhere index timelineId =>
    refine ⟨_, rfl, hs.cache, ?_, nofun, nofun⟩
    intro htime c _ hle
    have hsame : timelineId = s.timelineId := htime
    exact .inr (by simpa [hsame] using hle)
  | syncRequest isLeader req =>
    have hreg := syncInv_register hs hr
    simp only [stepSync, handleSyncRequest]
    split
    · rename_i hneeds
      exact syncInv_handleModelChange hreg (ha hneeds)
    · exact ⟨_, rfl, hreg⟩
  | modelChange isLeader => exact syncInv_handleModelChange hs ha

variable (s)

/-- A run in which every replay starts at an index the cache has a change set
for loses nothing. -/
theorem nothing_lost_of_aligned (logSize : Nat) (hn : 1 ≤ logSize) (index : UInt64)
    (hindex : index ≠ 18446744073709551615) (timelineId : String) (ops : List SyncOp)
    (hr : Admits Reports stepSync (start logSize index timelineId) ops)
    (ha : Admits Aligned stepSync (start logSize index timelineId) ops) :
    ∃ s, ops.foldlM stepSync (start logSize index timelineId) = some s ∧ NothingLost s := by
  have hinit := syncInv_start hn hindex timelineId
  obtain ⟨s, hrun, hs⟩ := (hr.and ha).invariant SyncInv
    (fun _ _ hs hc => syncInv_step hs hc.1 hc.2) hinit
  exact ⟨s, hrun, fun htime change hmem => hs.router htime change (.inl hmem)⟩

/-- A router comes with the index of a stored change set, gets the ones after it
and then those that follow. -/
def contactRun : List SyncOp :=
  [.store { index := 10 }, .store { index := 20 }, .syncElsewhere 10 "db",
    .syncRequest true ⟨10, false, "db", "a"⟩, .store { index := 30 }, .modelChange true]

theorem nothing_lost_on_contact :
    (1 ≤ 10 ∧ (0 : UInt64) ≠ 18446744073709551615 ∧ Admits Reports stepSync (start 10 0 "db") contactRun ∧
      Admits Aligned stepSync (start 10 0 "db") contactRun) ∧
    ∃ s, contactRun.foldlM stepSync (start 10 0 "db") = some s ∧ NothingLost s := by
  have hr : Admits Reports stepSync (start 10 0 "db") contactRun := by
    simp only [contactRun, Admits, Reports, stepSync, Option.some.injEq, forall_eq', true_and, and_true,
      implies_true]
    refine ⟨?_, by simp⟩
    intro _ change _ hle
    exact .inr hle
  have ha : Admits Aligned stepSync (start 10 0 "db") contactRun := by
    refine ⟨trivial, fun _ h₁ => ?_⟩
    cases h₁
    refine ⟨trivial, fun _ h₂ => ?_⟩
    cases h₂
    refine ⟨trivial, fun _ h₃ => ?_⟩
    cases h₃
    refine ⟨fun _ _ _ _ _ _ _ _ => by decide, fun _ h₄ => ?_⟩
    cases h₄
    refine ⟨trivial, fun _ h₅ => ?_⟩
    cases h₅
    exact ⟨fun _ _ _ _ _ _ _ => by decide, fun _ _ => trivial⟩
  exact ⟨⟨by decide, by decide, hr, ha⟩,
    nothing_lost_of_aligned 10 (by decide) 0 (by decide) "db" contactRun hr ha⟩

def gapRun : List SyncOp :=
  [.store { index := 10 }, .store { index := 20 }, .syncElsewhere 15 "db",
    .syncRequest true ⟨15, false, "db", "a"⟩, .store { index := 30 }, .modelChange true]

/-- A router that comes from another controller with an index this one has no
change set for misses the next change set. -/
theorem change_set_lost_at_gap : Admits Reports stepSync (start 10 0 "db") gapRun ∧
    ¬ ∃ s, gapRun.foldlM stepSync (start 10 0 "db") = some s ∧ NothingLost s := by
  constructor
  · simp only [gapRun, Admits, Reports, stepSync, Option.some.injEq, forall_eq', true_and, and_true,
      implies_true]
    refine ⟨?_, by simp⟩
    intro _ change _ hle
    exact .inr hle
  · rintro ⟨s, hrun, hlost⟩
    have hval : (gapRun.foldlM stepSync (start 10 0 "db")).map
        (fun s => (s.router, s.timelineId, s.history.accepted)) =
        some (⟨30, "db", [{ index := 30 }], 15, true⟩, "db", [{ index := 10 }, { index := 20 }, { index := 30 }]) := by
      rfl
    rw [hrun] at hval
    obtain ⟨hrouter, htime, hacc⟩ : s.router = _ ∧ s.timelineId = _ ∧ s.history.accepted = _ := by
      simpa using hval
    have hmissing := hlost (by rw [hrouter, htime]) { index := 20 } (by simp [hacc]) (by rw [hrouter]; decide)
    rw [hrouter] at hmissing
    rcases hmissing with hmem | hle
    · simp at hmem
    · exact absurd hle (by decide)

end Zt.RouterSync
