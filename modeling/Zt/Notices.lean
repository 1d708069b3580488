import Mathlib.Data.List.Basic

namespace Zt.Notices

/-- Why a subscriber has to look at its value again. -/
inductive Kind
  | added
  | updated
  | deleted
  deriving DecidableEq

/-- A writer that has changed a value announces it first with a flag and then in
the queue. -/
inductive Writer (K : Type)
  | idle
  | announcing (kind : Kind) (k : K)
  | offering (kind : Kind) (k : K)

/-- Values and what their subscribers know of them. Each change is noted by a
flag and by an entry in a bounded queue; when the queue is full a scan of all
flags is asked for instead. -/
structure Board (K V S : Type) where
  value : K → Option V
  seen : K → Option S
  flag : K → Kind → Bool
  queue : List (Kind × K)
  scan : Bool
  writer : Writer K

variable {K V S : Type}

/-- A subscriber that handles a notice of this kind sees the value afterwards. -/
def Kind.Helps (kind : Kind) (v : Option V) : Prop :=
  match kind with
  | .added => v.isSome
  | .updated => True
  | .deleted => v = none

def Board.Owed (b : Board K V S) (k : K) (kind : Kind) : Prop :=
  b.flag k kind = true ∨ b.writer = .announcing kind k

variable (fits : S → Option V → Prop)

/-- Every flag will be looked at, and a subscriber that does not know the value
is owed a notice that helps. -/
structure Sound (b : Board K V S) : Prop where
  reach : ∀ k kind, (b.seen k).isSome → b.flag k kind = true →
    (kind, k) ∈ b.queue ∨ b.scan = true ∨ b.writer = .offering kind k
  due : ∀ k s, b.seen k = some s → fits s (b.value k) ∨ ∃ kind : Kind, kind.Helps (b.value k) ∧ b.Owed k kind

variable {fits} {b b' : Board K V S} {k : K} {kind : Kind}

theorem Sound.settled (h : Sound fits b) (hq : b.queue = []) (hs : b.scan = false) (hw : b.writer = .idle) {s : S}
    (hk : b.seen k = some s) : fits s (b.value k) := by
  rcases h.due k s hk with hfits | ⟨kind, -, hflag | hwriter⟩
  · exact hfits
  · rcases h.reach k kind (by rw [hk]; rfl) hflag with hmem | hscan | hoffer
    · rw [hq] at hmem
      cases hmem
    · rw [hs] at hscan
      cases hscan
    · rw [hw] at hoffer
      cases hoffer
  · rw [hw] at hwriter
    cases hwriter

/-- The consumer takes a notice from the queue: a deletion is believed, the
others make it look at the value if their flag is still up. -/
structure Takes (fits : S → Option V → Prop) (b b' : Board K V S) (kind : Kind) (k : K) : Prop where
  queue : b.queue = (kind, k) :: b'.queue
  value : b'.value = b.value
  scan : b'.scan = b.scan
  writer : b'.writer = b.writer
  flag : ∀ j kd, (b'.seen j).isSome → (b'.flag j kd = true ↔ b.flag j kd = true ∧ ¬ (j = k ∧ kd = kind))
  others : ∀ j, j ≠ k → b'.seen j = b.seen j
  believed : ∀ s', b'.seen k = some s' → kind = .deleted → (b.seen k).isSome ∧ fits s' none
  looked : ∀ s', b'.seen k = some s' → kind ≠ .deleted → ∃ s, b.seen k = some s ∧
    (fits s' (b.value k) ∨ (s' = s ∧ ¬ (b.flag k kind = true ∧ kind.Helps (b.value k))))

theorem Takes.isSome (ht : Takes fits b b' kind k) {j : K} (hj : (b'.seen j).isSome) : (b.seen j).isSome := by
  by_cases hjk : j = k
  · subst hjk
    obtain ⟨s', hs'⟩ := Option.isSome_iff_exists.mp hj
    by_cases hkind : kind = .deleted
    · exact (ht.believed s' hs' hkind).1
    · obtain ⟨s, hs, -⟩ := ht.looked s' hs' hkind
      rw [hs]
      rfl
  · rw [← ht.others j hjk]
    exact hj

theorem Sound.takes (h : Sound fits b) (ht : Takes fits b b' kind k)
    (hc : kind = .deleted → (b'.seen k).isSome → (b.value k).isSome → b.Owed k .added ∨ b.Owed k .updated) :
    Sound fits b' := by
  have howed : ∀ j kd, (b'.seen j).isSome → b.Owed j kd → ¬ (b.flag j kd = true ∧ j = k ∧ kd = kind) →
      b'.Owed j kd := by
    rintro j kd hj (hflag | hwriter) hne
    · exact .inl ((ht.flag j kd hj).mpr ⟨hflag, fun heq => hne ⟨hflag, heq⟩⟩)
    · exact .inr (by rw [ht.writer]; exact hwriter)
  constructor
  · intro j kd hj hflag
    obtain ⟨hflag₀, hne⟩ := (ht.flag j kd hj).mp hflag
    rw [ht.scan, ht.writer]
    rcases h.reach j kd (ht.isSome hj) hflag₀ with hmem | hrest
    · rw [ht.queue] at hmem
      rcases List.mem_cons.mp hmem with heq | hmem'
      · obtain ⟨rfl, rfl⟩ := Prod.mk.inj heq
        exact absurd ⟨rfl, rfl⟩ hne
      · exact .inl hmem'
    · exact .inr hrest
  · intro j s' hs'
    have hj : (b'.seen j).isSome := by rw [hs']; rfl
    rw [ht.value]
    by_cases hjk : j = k
    · subst hjk
      by_cases hkind : kind = .deleted
      · cases hv : b.value j with
        | none => exact .inl (ht.believed s' hs' hkind).2
        | some v =>
          subst hkind
          rcases hc rfl hj (by rw [hv]; rfl) with ho | ho
          · exact .inr ⟨.added, rfl, howed j _ hj ho (fun hne => Kind.noConfusion hne.2.2)⟩
          · exact .inr ⟨.updated, trivial, howed j _ hj ho (fun hne => Kind.noConfusion hne.2.2)⟩
      · obtain ⟨s, hs, hfits | ⟨rfl, hno⟩⟩ := ht.looked s' hs' hkind
        · exact .inl hfits
        · rcases h.due j s' hs with hfits | ⟨kd, hhelps, ho⟩
          · exact .inl hfits
          · refine .inr ⟨kd, hhelps, howed j kd hj ho ?_⟩
            rintro ⟨hflag, -, rfl⟩
            exact hno ⟨hflag, hhelps⟩
    · rw [ht.others j hjk] at hs'
      rcases h.due j s' hs' with hfits | ⟨kd, hhelps, ho⟩
      · exact .inl hfits
      · exact .inr ⟨kd, hhelps, howed j kd hj ho (fun hne => hjk hne.2.1)⟩

/-- The consumer takes all flags down and acts on each, except that it does not
look at the value where a deletion is noted. -/
structure Scans (fits : S → Option V → Prop) (b b' : Board K V S) : Prop where
  queue : b'.queue = b.queue
  value : b'.value = b.value
  writer : b'.writer = b.writer
  flag : ∀ j kd, (b'.seen j).isSome → b'.flag j kd = false
  believed : ∀ j s', b'.seen j = some s' → b.flag j .deleted = true → fits s' none
  looked : ∀ j s', b'.seen j = some s' → b.flag j .deleted = false → fits s' (b.value j) ∨
    (b.seen j = some s' ∧ ∀ kind : Kind, kind.Helps (b.value j) → b.flag j kind = false)

theorem Sound.scans (h : Sound fits b) (hs : Scans fits b b')
    (hc : ∀ j, (b'.seen j).isSome → b.flag j .deleted = true → (b.value j).isSome →
      b.writer = .announcing .added j ∨ b.writer = .announcing .updated j) : Sound fits b' := by
  constructor
  · intro j kd hj hflag
    rw [hs.flag j kd hj] at hflag
    cases hflag
  · intro j s' hs'
    have hj : (b'.seen j).isSome := by rw [hs']; rfl
    rw [hs.value]
    cases hd : b.flag j .deleted with
    | true =>
      cases hv : b.value j with
      | none => exact .inl (hs.believed j s' hs' hd)
      | some v =>
        rcases hc j hj hd (by rw [hv]; rfl) with hw | hw
        · exact .inr ⟨.added, rfl, .inr (by rw [hs.writer]; exact hw)⟩
        · exact .inr ⟨.updated, trivial, .inr (by rw [hs.writer]; exact hw)⟩
    | false =>
      rcases hs.looked j s' hs' hd with hfits | ⟨hseen, hno⟩
      · exact .inl hfits
      · rcases h.due j s' hseen with hfits | ⟨kd, hhelps, hflag | hw⟩
        · exact .inl hfits
        · rw [hno kd hhelps] at hflag
          cases hflag
        · exact .inr ⟨kd, hhelps, .inr (by rw [hs.writer]; exact hw)⟩

/-- All subscribers look at their values at once. -/
structure Refreshes (fits : S → Option V → Prop) (b b' : Board K V S) : Prop where
  queue : b'.queue = b.queue
  value : b'.value = b.value
  scan : b'.scan = b.scan
  writer : b'.writer = b.writer
  flag : ∀ j kd, b'.flag j kd = true → b.flag j kd = true
  seen : ∀ j s', b'.seen j = some s' → (b.seen j).isSome ∧ fits s' (b.value j)

theorem Sound.refreshes (h : Sound fits b) (hr : Refreshes fits b b') : Sound fits b' := by
  constructor
  · intro j kd hj hflag
    obtain ⟨s', hs'⟩ := Option.isSome_iff_exists.mp hj
    rw [hr.queue, hr.scan, hr.writer]
    exact h.reach j kd (hr.seen j s' hs').1 (hr.flag j kd hflag)
  · intro j s' hs'
    rw [hr.value]
    exact .inl (hr.seen j s' hs').2

/-- The writer changes one value and is about to announce it. -/
structure Writes (b b' : Board K V S) (kind : Kind) (k : K) : Prop where
  queue : b'.queue = b.queue
  others : ∀ j, j ≠ k → b'.value j = b.value j
  helps : kind.Helps (b'.value k)
  scan : b'.scan = b.scan
  idle : b.writer = .idle
  writer : b'.writer = .announcing kind k
  flag : b'.flag = b.flag
  seen : b'.seen = b.seen

theorem Sound.writes (h : Sound fits b) (hw : Writes b b' kind k) : Sound fits b' := by
  constructor
  · intro j kd hj hflag
    rw [hw.seen] at hj
    rw [hw.flag] at hflag
    rw [hw.queue, hw.scan]
    rcases h.reach j kd hj hflag with hmem | hscan | hoffer
    · exact .inl hmem
    · exact .inr (.inl hscan)
    · rw [hw.idle] at hoffer
      cases hoffer
  · intro j s hs
    by_cases hjk : j = k
    · subst hjk
      exact .inr ⟨kind, hw.helps, .inr hw.writer⟩
    · rw [hw.seen] at hs
      rw [hw.others j hjk]
      rcases h.due j s hs with hfits | ⟨kd, hhelps, hflag | hwriter⟩
      · exact .inl hfits
      · exact .inr ⟨kd, hhelps, .inl (by rw [hw.flag]; exact hflag)⟩
      · rw [hw.idle] at hwriter
        cases hwriter

/-- The writer changes one value in place, with all notices sent in the same
step. -/
structure Touches (b b' : Board K V S) (k : K) : Prop where
  queue : ∀ x ∈ b.queue, x ∈ b'.queue
  others : ∀ j, j ≠ k → b'.value j = b.value j
  here : (b.seen k).isSome → b'.flag k .updated = true ∨ b'.value k = b.value k
  scan : b.scan = true → b'.scan = true
  writer : b'.writer = b.writer
  kept : ∀ j kd, b.flag j kd = true → b'.flag j kd = true
  flag : ∀ j kd, b'.flag j kd = true → b.flag j kd = true ∨ (kd, j) ∈ b'.queue ∨ b'.scan = true
  seen : b'.seen = b.seen

theorem Sound.touches (h : Sound fits b) (ht : Touches b b' k) : Sound fits b' := by
  constructor
  · intro j kd hj hflag
    rw [ht.seen] at hj
    rw [ht.writer]
    rcases ht.flag j kd hflag with hflag₀ | hmem | hscan
    · rcases h.reach j kd hj hflag₀ with hmem | hscan | hoffer
      · exact .inl (ht.queue _ hmem)
      · exact .inr (.inl (ht.scan hscan))
      · exact .inr (.inr hoffer)
    · exact .inl hmem
    · exact .inr (.inl hscan)
  · intro j s hs
    rw [ht.seen] at hs
    have hsame : b'.value j = b.value j → fits s (b'.value j) ∨
        ∃ kd, kd.Helps (b'.value j) ∧ b'.Owed j kd := by
      intro heq
      rw [heq]
      rcases h.due j s hs with hfits | ⟨kd, hhelps, hflag | hwriter⟩
      · exact .inl hfits
      · exact .inr ⟨kd, hhelps, .inl (ht.kept j kd hflag)⟩
      · exact .inr ⟨kd, hhelps, .inr (by rw [ht.writer]; exact hwriter)⟩
    by_cases hjk : j = k
    · subst hjk
      rcases ht.here (by rw [hs]; rfl) with hflag | heq
      · exact .inr ⟨.updated, trivial, .inl hflag⟩
      · exact hsame heq
    · exact hsame (ht.others j hjk)

/-- The writer puts up the flag, if there is a subscriber. -/
structure Announces (b b' : Board K V S) (kind : Kind) (k : K) : Prop where
  queue : b'.queue = b.queue
  value : b'.value = b.value
  scan : b'.scan = b.scan
  seen : b'.seen = b.seen
  announcing : b.writer = .announcing kind k
  writer : (b.seen k).isSome → b'.writer = .offering kind k
  flag : ∀ j kd, (b.seen j).isSome → (b'.flag j kd = true ↔ b.flag j kd = true ∨ (j = k ∧ kd = kind))

theorem Sound.announces (h : Sound fits b) (ha : Announces b b' kind k) : Sound fits b' := by
  constructor
  · intro j kd hj hflag
    rw [ha.seen] at hj
    rw [ha.queue, ha.scan]
    rcases (ha.flag j kd hj).mp hflag with hflag₀ | ⟨rfl, rfl⟩
    · rcases h.reach j kd hj hflag₀ with hmem | hscan | hoffer
      · exact .inl hmem
      · exact .inr (.inl hscan)
      · rw [ha.announcing] at hoffer
        cases hoffer
    · exact .inr (.inr (ha.writer hj))
  · intro j s hs
    rw [ha.seen] at hs
    have hj : (b.seen j).isSome := by rw [hs]; rfl
    rw [ha.value]
    rcases h.due j s hs with hfits | ⟨kd, hhelps, hflag | hwriter⟩
    · exact .inl hfits
    · exact .inr ⟨kd, hhelps, .inl ((ha.flag j kd hj).mpr (.inl hflag))⟩
    · rw [ha.announcing] at hwriter
      cases hwriter
      exact .inr ⟨_, hhelps, .inl ((ha.flag _ _ hj).mpr (.inr ⟨rfl, rfl⟩))⟩

/-- The writer puts the notice into the queue or asks for a scan. -/
structure Offers (b b' : Board K V S) (kind : Kind) (k : K) : Prop where
  queue : ∀ x ∈ b.queue, x ∈ b'.queue
  value : b'.value = b.value
  scan : b.scan = true → b'.scan = true
  seen : b'.seen = b.seen
  flag : b'.flag = b.flag
  offering : b.writer = .offering kind k
  offered : (kind, k) ∈ b'.queue ∨ b'.scan = true

theorem Sound.offers (h : Sound fits b) (ho : Offers b b' kind k) : Sound fits b' := by
  constructor
  · intro j kd hj hflag
    rw [ho.seen] at hj
    rw [ho.flag] at hflag
    rcases h.reach j kd hj hflag with hmem | hscan | hoffer
    · exact .inl (ho.queue _ hmem)
    · exact .inr (.inl (ho.scan hscan))
    · rw [ho.offering] at hoffer
      cases hoffer
      rcases ho.offered with hmem | hscan
      · exact .inl hmem
      · exact .inr (.inl hscan)
  · intro j s hs
    rw [ho.seen] at hs
    rw [ho.value]
    rcases h.due j s hs with hfits | ⟨kd, hhelps, hflag | hwriter⟩
    · exact .inl hfits
    · exact .inr ⟨kd, hhelps, .inl (by rw [ho.flag]; exact hflag)⟩
    · rw [ho.offering] at hwriter
      cases hwriter

end Zt.Notices
