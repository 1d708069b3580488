import Zt.LinkViews

namespace Zt.LinkConsistency

open Tables Topology LinkIndexes LinkViews
open EdgeCtrl (Id)

variable {v v' : View} {next : LinkRef} {seen : List RouterRef} {ts ts' others : List Task} {t t' u : Task}
  {l : LinkRef} {r : RouterRef}

def Stored (v : View) (l : LinkRef) : Prop := v.table (v.linkId l) = some l

section Tasks

variable (ts : List Task)

def Marking (r : RouterRef) : Prop := ∃ t ∈ ts, t.stage = .mark r

def AddingSrc (l : LinkRef) : Prop :=
  ∃ t ∈ ts, ∃ src reported, t.stage = .reporting src reported (.addSrc l)

def AddingDst (l : LinkRef) : Prop :=
  ∃ t ∈ ts, ∃ src reported, t.stage = .reporting src reported (.addDst l)

def Adding (l : LinkRef) : Prop := AddingSrc ts l ∨ AddingDst ts l

def Unindexing (l : LinkRef) (srcDone : Bool) : Prop :=
  ∃ t ∈ ts, t.removal.unindex = some (l, srcDone)

/-- The router that the links to its id lead to. A router that is connecting
has taken over the links already. -/
def Current (v : View) (ts : List Task) (r : RouterRef) : Prop :=
  Marking ts r ∨ v.connected (v.routerId r) = some r ∧ ∀ other, Marking ts other → v.routerId other ≠ v.routerId r

def Disconnects (t : Task) (r : RouterRef) : Prop := t.stage = .unmark r ∨ t.stage = .clear r

def Reports (t : Task) (src : RouterRef) (reported : ReportedLink) : Prop :=
  ∃ phase, t.stage = .reporting src reported phase

def Handles (t : Task) (l : LinkRef) : Prop :=
  l ∈ t.removal.left ∨ ∃ srcDone, t.removal.unindex = some (l, srcDone)

def Names (v : View) (l : LinkRef) (reported : ReportedLink) : Prop :=
  v.linkId l = reported.id ∧ v.iteration l = reported.iteration

def Removes (v : View) (t : Task) (reported : ReportedLink) : Prop := ∃ l, Handles t l ∧ Names v l reported

/-- The pairs of operations that must not overlap. -/
inductive Clash (v : View) (t u : Task) : Prop
  | connects {r other : RouterRef} (ht : t.stage = .mark r) (hu : u.stage = .mark other)
      (hid : v.routerId r = v.routerId other)
  | connectsDest {r src : RouterRef} {reported : ReportedLink} (ht : t.stage = .mark r) (hu : Reports u src reported)
      (hid : reported.destRouterId = v.routerId r)
  | connectsDisconnects {r : RouterRef} (ht : t.stage = .mark r) (hu : Disconnects u r)
  | disconnectsSource {r : RouterRef} {reported : ReportedLink} (ht : Disconnects t r) (hu : Reports u r reported)
  | removesReported {src : RouterRef} {reported : ReportedLink} (ht : Reports t src reported)
      (hu : Removes v u reported) (hother : ∀ src reported, ¬ Reports u src reported)

def Apart (v : View) (t u : Task) : Prop := ¬ Clash v t u ∧ ¬ Clash v u t

theorem Apart.symm (h : Apart v t u) : Apart v u t := ⟨h.2, h.1⟩

theorem Clash.congr (hrouter : v'.routerId = v.routerId)
    (hlinks : ∀ l, Handles u l → v'.linkId l = v.linkId l ∧ v'.iteration l = v.iteration l) (h : Clash v' t u) :
    Clash v t u := by
  cases h with
  | connects ht hu hid => exact .connects ht hu (hrouter ▸ hid)
  | connectsDest ht hu hid => exact .connectsDest ht hu (hrouter ▸ hid)
  | connectsDisconnects ht hu => exact .connectsDisconnects ht hu
  | disconnectsSource ht hu => exact .disconnectsSource ht hu
  | removesReported ht hu hother =>
    obtain ⟨l, hl, hid, hiter⟩ := hu
    obtain ⟨hid', hiter'⟩ := hlinks l hl
    exact .removesReported ht ⟨l, hl, hid'.symm.trans hid, hiter'.symm.trans hiter⟩ hother

theorem Apart.congr (hrouter : v'.routerId = v.routerId)
    (hlinks : ∀ l, Handles t l ∨ Handles u l → v'.linkId l = v.linkId l ∧ v'.iteration l = v.iteration l)
    (h : Apart v t u) : Apart v' t u :=
  ⟨fun hc => h.1 (hc.congr hrouter (fun l hl => hlinks l (.inr hl))),
    fun hc => h.2 (hc.congr hrouter (fun l hl => hlinks l (.inl hl)))⟩

/-- The second task clashes with whatever the first one clashes with. -/
structure Weaker (v : View) (t' t : Task) : Prop where
  mark : ∀ r, t'.stage = .mark r → t.stage = .mark r
  disconnects : ∀ r, Disconnects t' r → Disconnects t r
  reports : ∀ src reported, Reports t' src reported → Reports t src reported
  removes : ∀ reported, Removes v t' reported → (∃ src reported, Reports t' src reported) ∨
    Removes v t reported ∧ ∀ src reported, ¬ Reports t src reported

theorem Apart.weaken (hweak : Weaker v t' t) (h : Apart v t u) : Apart v t' u := by
  constructor
  · intro hc
    cases hc with
    | connects ht hu hid => exact h.1 (.connects (hweak.mark _ ht) hu hid)
    | connectsDest ht hu hid => exact h.1 (.connectsDest (hweak.mark _ ht) hu hid)
    | connectsDisconnects ht hu => exact h.1 (.connectsDisconnects (hweak.mark _ ht) hu)
    | disconnectsSource ht hu => exact h.1 (.disconnectsSource (hweak.disconnects _ ht) hu)
    | removesReported ht hu hother => exact h.1 (.removesReported (hweak.reports _ _ ht) hu hother)
  · intro hc
    cases hc with
    | connects ht hu hid => exact h.2 (.connects ht (hweak.mark _ hu) hid)
    | connectsDest ht hu hid => exact h.2 (.connectsDest ht (hweak.reports _ _ hu) hid)
    | connectsDisconnects ht hu => exact h.2 (.connectsDisconnects ht (hweak.disconnects _ hu))
    | disconnectsSource ht hu => exact h.2 (.disconnectsSource ht (hweak.reports _ _ hu))
    | removesReported ht hu hother =>
      rcases hweak.removes _ hu with ⟨src, reported, hreps⟩ | ⟨hrems, hnone⟩
      · exact hother src reported hreps
      · exact h.2 (.removesReported ht hrems hnone)

theorem Weaker.of_stage (hstage : t'.stage = t.stage) (hhandles : ∀ l, Handles t' l → Handles t l) :
    Weaker v t' t := by
  refine ⟨fun r h => hstage ▸ h, fun r h => ?_, fun src reported h => ?_, fun reported h => ?_⟩
  · exact h.imp (hstage ▸ ·) (hstage ▸ ·)
  · exact h.imp (fun phase hphase => hstage ▸ hphase)
  · by_cases hreps : ∃ src reported, Reports t' src reported
    · exact .inl hreps
    · obtain ⟨l, hl, hids⟩ := h
      refine .inr ⟨⟨l, hhandles l hl, hids⟩, fun src reported hr => hreps ⟨src, reported, ?_⟩⟩
      exact hr.imp (fun phase hphase => hstage ▸ hphase)

/-- A destination that was looked up is that of the current router, if there is
one. -/
def DstGood (v : View) (seen : List RouterRef) (current : RouterRef → Prop) (id : Id) (dst : Option RouterRef) : Prop :=
  (∀ d, dst = some d → d ∈ seen ∧ v.routerId d = id) ∧ ∀ r, current r → v.routerId r = id → dst = some r

def AddGood (v : View) (removal : Removal) (src : RouterRef) (reported : ReportedLink) (l : LinkRef) : Prop :=
  removal = {} ∧ v.table reported.id = some l ∧ v.iteration l = reported.iteration ∧ v.src l = src ∧
    v.dstId l = reported.destRouterId

def PhaseGood (v : View) (seen : List RouterRef) (current : RouterRef → Prop) (removal : Removal)
    (src : RouterRef) (reported : ReportedLink) : Phase → Prop
  | .lookup => removal = {}
  | .report dst => removal = {} ∧ DstGood v seen current reported.destRouterId dst
  | .create dst => DstGood v seen current reported.destRouterId dst ∧
      ∀ l, v.table reported.id = some l → l ∈ removal.left
  | .addSrc l => AddGood v removal src reported l
  | .addDst l => AddGood v removal src reported l

/-- What a task relies on. -/
structure Good (v : View) (next : LinkRef) (seen : List RouterRef) (current : RouterRef → Prop) (t : Task) : Prop where
  handles : ∀ l, Handles t l → l < next ∧
    ∀ w, v.table (v.linkId l) = some w → w = l ∨ v.iteration w ≠ v.iteration l
  unindex : ∀ l srcDone, t.removal.unindex = some (l, srcDone) → ¬ Stored v l
  unmark : ∀ r, t.stage = .unmark r → ∀ l, Stored v l → v.src l = r → l ∈ t.removal.left
  clear : ∀ r, t.stage = .clear r → (∀ l, Stored v l → v.src l ≠ r) ∧ ¬ current r
  report : ∀ src reported phase, t.stage = .reporting src reported phase → src ∈ seen ∧
    reported.destRouterId ≠ v.routerId src ∧ PhaseGood v seen current t.removal src reported phase

end Tasks

/-- The table, the connected routers and the tasks, without the indexes. -/
structure Guarded (v : View) (next : LinkRef) (seen : List RouterRef) (ts : List Task) : Prop where
  stored : ∀ id l, v.table id = some l → v.linkId l = id ∧ l < next
  link : ∀ l, l < next → v.src l ∈ seen ∧ v.dstId l ≠ v.routerId (v.src l) ∧
    ∀ d, v.dst l = some d → d ∈ seen ∧ v.routerId d = v.dstId l
  connected : ∀ id r, v.connected id = some r → v.routerId r = id ∧ r ∈ seen
  marking : ∀ r, Marking ts r → r ∈ seen
  apart : ts.Pairwise (Apart v)
  lock : ts.Pairwise (fun t u => ¬ (t.locks = true ∧ u.locks = true))
  good : ∀ t ∈ ts, Good v next seen (Current v ts) t

/-- Links are in the indexes of their source and of the router they lead to,
up to what the tasks have still to do. -/
structure Indexed (v : View) (next : LinkRef) (seen : List RouterRef) (ts : List Task) : Prop where
  held : ∀ r, ∀ l ∈ v.held r, l < next ∧ r ∈ seen ∧ (v.src l = r ∨ v.dstId l = v.routerId r)
  source : ∀ l, Stored v l → (AddingSrc ts l → (v.held (v.src l)).count l = 0) ∧
    (¬ AddingSrc ts l → (v.held (v.src l)).count l = 1)
  sourceHeld : ∀ l, l ∈ v.held (v.src l) → Stored v l ∨ Unindexing ts l false
  dest : ∀ l r, Stored v l → Current v ts r → v.routerId r = v.dstId l → v.dst l = some r ∧
    (Adding ts l → (v.held r).count l = 0) ∧ (¬ Adding ts l → (v.held r).count l = 1)
  destHeld : ∀ l r, Current v ts r → l ∈ v.held r → v.dstId l = v.routerId r →
    Stored v l ∨ (∃ srcDone, Unindexing ts l srcDone) ∧ v.dst l = some r

section Lists

theorem marking_cons : Marking (t :: ts) r ↔ t.stage = .mark r ∨ Marking ts r := List.exists_mem_cons_iff ..

theorem addingSrc_cons : AddingSrc (t :: ts) l ↔
    (∃ src reported, t.stage = .reporting src reported (.addSrc l)) ∨ AddingSrc ts l := List.exists_mem_cons_iff ..

theorem addingDst_cons : AddingDst (t :: ts) l ↔
    (∃ src reported, t.stage = .reporting src reported (.addDst l)) ∨ AddingDst ts l := List.exists_mem_cons_iff ..

theorem unindexing_cons {srcDone : Bool} : Unindexing (t :: ts) l srcDone ↔
    t.removal.unindex = some (l, srcDone) ∨ Unindexing ts l srcDone := List.exists_mem_cons_iff ..

theorem current_congr (hmark : ∀ r, Marking ts' r ↔ Marking ts r) : Current v ts' = Current v ts := by
  funext r
  simp [Current, hmark]

theorem Good.mono {current current' : RouterRef → Prop} (h : Good v next seen current t)
    (hmono : ∀ r, current' r → current r) : Good v next seen current' t where
  handles := h.handles
  unindex := h.unindex
  unmark := h.unmark
  clear := fun r hr => ⟨(h.clear r hr).1, fun hc => (h.clear r hr).2 (hmono r hc)⟩
  report := by
    intro src reported phase hstage
    obtain ⟨hsrc, hne, hphase⟩ := h.report src reported phase hstage
    refine ⟨hsrc, hne, ?_⟩
    cases phase with
    | lookup => exact hphase
    | report dst => exact ⟨hphase.1, hphase.2.1, fun r hr => hphase.2.2 r (hmono r hr)⟩
    | create dst => exact ⟨⟨hphase.1.1, fun r hr => hphase.1.2 r (hmono r hr)⟩, hphase.2⟩
    | addSrc l => exact hphase
    | addDst l => exact hphase

theorem Good.congr {current : RouterRef → Prop} (htable : v'.table = v.table) (hrouterId : v'.routerId = v.routerId)
    (hlinkId : v'.linkId = v.linkId) (hiter : v'.iteration = v.iteration) (hsrc : v'.src = v.src)
    (hdstId : v'.dstId = v.dstId) (h : Good v next seen current t) : Good v' next seen current t := by
  have hstored : ∀ l, Stored v' l ↔ Stored v l := by
    intro l
    rw [Stored, Stored, htable, hlinkId]
  refine ⟨?_, fun l srcDone hl => (hstored l).not.mpr (h.unindex l srcDone hl), ?_, ?_, ?_⟩
  · rw [htable, hlinkId, hiter]
    exact h.handles
  · intro r hr l hl hsource
    exact h.unmark r hr l ((hstored l).mp hl) (hsrc ▸ hsource)
  · intro r hr
    refine ⟨fun l hl => ?_, (h.clear r hr).2⟩
    rw [hsrc]
    exact (h.clear r hr).1 l ((hstored l).mp hl)
  · intro src reported phase hstage
    obtain ⟨hseen, hne, hphase⟩ := h.report src reported phase hstage
    refine ⟨hseen, hrouterId ▸ hne, ?_⟩
    cases phase with
    | lookup => exact hphase
    | report dst => simpa only [PhaseGood, DstGood, hrouterId] using hphase
    | create dst => simpa only [PhaseGood, DstGood, hrouterId, htable] using hphase
    | addSrc l => simpa only [PhaseGood, AddGood, htable, hiter, hsrc, hdstId] using hphase
    | addDst l => simpa only [PhaseGood, AddGood, htable, hiter, hsrc, hdstId] using hphase

/-- Two tasks that mark and add the same. -/
structure Alike (t' t : Task) : Prop where
  mark : ∀ r, t'.stage = .mark r ↔ t.stage = .mark r
  addSrc : ∀ l, (∃ src reported, t'.stage = .reporting src reported (.addSrc l)) ↔
    ∃ src reported, t.stage = .reporting src reported (.addSrc l)
  addDst : ∀ l, (∃ src reported, t'.stage = .reporting src reported (.addDst l)) ↔
    ∃ src reported, t.stage = .reporting src reported (.addDst l)

theorem Alike.of_stage (h : t'.stage = t.stage) : Alike t' t := by
  constructor <;> intro _ <;> rw [h]

theorem Alike.marking (h : Alike t' t) (r : RouterRef) : Marking (t' :: others) r ↔ Marking (t :: others) r := by
  rw [marking_cons, marking_cons, h.mark]

theorem Alike.addingSrc (h : Alike t' t) (l : LinkRef) : AddingSrc (t' :: others) l ↔ AddingSrc (t :: others) l := by
  rw [addingSrc_cons, addingSrc_cons, h.addSrc]

theorem Alike.addingDst (h : Alike t' t) (l : LinkRef) : AddingDst (t' :: others) l ↔ AddingDst (t :: others) l := by
  rw [addingDst_cons, addingDst_cons, h.addDst]

theorem Indexed.congr (h : Indexed v next seen ts) (hmark : ∀ r, Marking ts' r ↔ Marking ts r)
    (hsrc : ∀ l, AddingSrc ts' l ↔ AddingSrc ts l) (hdst : ∀ l, AddingDst ts' l ↔ AddingDst ts l)
    (hunindex : ∀ l srcDone, Unindexing ts' l srcDone ↔ Unindexing ts l srcDone) : Indexed v next seen ts' where
  held := h.held
  source := by simpa only [hsrc] using h.source
  sourceHeld := by simpa only [hunindex] using h.sourceHeld
  dest := by simpa only [Adding, hsrc, hdst, current_congr hmark] using h.dest
  destHeld := by simpa only [hunindex, current_congr hmark] using h.destHeld

theorem Indexed.replace (h : Indexed v next seen (t :: others)) (halike : Alike t' t)
    (hunindex : t'.removal.unindex = t.removal.unindex) : Indexed v next seen (t' :: others) := by
  refine h.congr halike.marking halike.addingSrc halike.addingDst (fun l srcDone => ?_)
  rw [unindexing_cons, unindexing_cons, hunindex]

theorem Guarded.replace (h : Guarded v next seen (t :: others))
    (hmark : ∀ r, t'.stage = .mark r ↔ t.stage = .mark r) (hapart : ∀ u ∈ others, Apart v t' u)
    (hlock : ∀ u ∈ others, ¬ (t'.locks = true ∧ u.locks = true))
    (hgood : Good v next seen (Current v (t :: others)) t') : Guarded v next seen (t' :: others) := by
  have hmarking : ∀ r, Marking (t' :: others) r ↔ Marking (t :: others) r := by simp [marking_cons, hmark]
  refine ⟨h.stored, h.link, h.connected, fun r hr => h.marking r ((hmarking r).mp hr), ?_, ?_, ?_⟩
  · exact List.pairwise_cons.mpr ⟨hapart, h.apart.of_cons⟩
  · exact List.pairwise_cons.mpr ⟨hlock, h.lock.of_cons⟩
  · rw [current_congr hmarking, List.forall_mem_cons]
    exact ⟨hgood, fun u hu => h.good u (List.mem_cons_of_mem _ hu)⟩

theorem Guarded.setHeld {links : List LinkRef} (h : Guarded v next seen ts) :
    Guarded (v.setHeld r links) next seen ts where
  stored := h.stored
  link := h.link
  connected := h.connected
  marking := h.marking
  apart := by
    refine h.apart.imp (fun hapart => ?_)
    exact Apart.congr (v := v) rfl (fun _ _ => ⟨rfl, rfl⟩) hapart
  lock := h.lock
  good := fun t ht => Good.congr (v := v) rfl rfl rfl rfl rfl rfl (h.good t ht)

theorem Guarded.perm (hperm : ts.Perm ts') (h : Guarded v next seen ts) : Guarded v next seen ts' := by
  have hmarking : ∀ r, Marking ts' r ↔ Marking ts r :=
    fun r => exists_congr (fun t => and_congr_left' hperm.mem_iff.symm)
  refine ⟨h.stored, h.link, h.connected, fun r hr => h.marking r ((hmarking r).mp hr), ?_, ?_, ?_⟩
  · exact h.apart.perm hperm .symm
  · exact h.lock.perm hperm (fun hlock hboth => hlock hboth.symm)
  · rw [current_congr hmarking]
    exact fun t ht => h.good t (hperm.mem_iff.mpr ht)

theorem Indexed.perm (hperm : ts.Perm ts') (h : Indexed v next seen ts) : Indexed v next seen ts' :=
  h.congr (fun _ => exists_congr (fun _ => and_congr_left' hperm.mem_iff.symm))
    (fun _ => exists_congr (fun _ => and_congr_left' hperm.mem_iff.symm))
    (fun _ => exists_congr (fun _ => and_congr_left' hperm.mem_iff.symm))
    (fun _ _ => exists_congr (fun _ => and_congr_left' hperm.mem_iff.symm))

end Lists

section Frames

section

variable (h : Guarded v next seen (t :: others))
include h

theorem Guarded.head_apart : ∀ u ∈ others, Apart v t u :=
  (List.pairwise_cons.mp h.apart).1

theorem Guarded.head_lock (ht : t.locks = true) : ∀ u ∈ others, u.locks = false := by
  intro u hu
  have hne := (List.pairwise_cons.mp h.lock).1 u hu
  simpa [ht] using hne

theorem Guarded.head_good : Good v next seen (Current v (t :: others)) t :=
  h.good t List.mem_cons_self

theorem Guarded.weaken (hmark : ∀ r, t'.stage = .mark r ↔ t.stage = .mark r)
    (hweak : Weaker v t' t) (hlocks : t'.locks = true → t.locks = true)
    (hgood : Good v next seen (Current v (t :: others)) t') : Guarded v next seen (t' :: others) := by
  refine h.replace hmark (fun u hu => (h.head_apart u hu).weaken hweak) (fun u hu hboth => ?_) hgood
  exact (List.pairwise_cons.mp h.lock).1 u hu ⟨hlocks hboth.1, hboth.2⟩

end

/-- A task that removes links goes on without what it has dealt with. -/
theorem Guarded.proceed {removal removal' : Removal} {stage : Stage}
    (h : Guarded v next seen (⟨removal, stage⟩ :: others))
    (hbusy : removal ≠ {}) (hhandles : ∀ l, Handles ⟨removal', stage⟩ l → Handles ⟨removal, stage⟩ l)
    (hunindex : ∀ l srcDone, removal'.unindex = some (l, srcDone) → ¬ Stored v l)
    (hleft : ∀ l ∈ removal.left, Stored v l → l ∈ removal'.left) :
    Guarded v next seen (⟨removal', stage⟩ :: others) := by
  have hgood := h.head_good
  refine h.weaken (fun _ => .rfl) (.of_stage rfl hhandles) id ?_
  refine ⟨fun l hl => hgood.handles l (hhandles l hl), hunindex, ?_, hgood.clear, ?_⟩
  · intro r hr l hl hsrc
    exact hleft l (hgood.unmark r hr l hl hsrc) hl
  · intro src reported phase hstage
    obtain ⟨hsrc, hne, hphase⟩ := hgood.report src reported phase hstage
    refine ⟨hsrc, hne, ?_⟩
    cases phase with
    | lookup => exact absurd hphase hbusy
    | report dst => exact absurd hphase.1 hbusy
    | create dst =>
      refine ⟨hphase.1, fun l hl => hleft l (hphase.2 l hl) ?_⟩
      rw [Stored, (h.stored _ _ hl).1]
      exact hl
    | addSrc l => exact absurd hphase.1 hbusy
    | addDst l => exact absurd hphase.1 hbusy

/-- Indexes may lose links that are not stored, or whose router is gone. -/
theorem Indexed.shrink {held : RouterRef → List LinkRef} (h : Indexed v next seen (t :: others)) (halike : Alike t' t)
    (hsub : ∀ r, ∀ x ∈ held r, x ∈ v.held r)
    (hsrc : ∀ x, Stored v x → (held (v.src x)).count x = (v.held (v.src x)).count x)
    (hdst : ∀ x r, Stored v x → Current v (t :: others) r → (held r).count x = (v.held r).count x)
    (hunindex : ∀ x, x ∈ held (v.src x) → t.removal.unindex = some (x, false) → t'.removal.unindex = some (x, false))
    (hunindexDst : ∀ x r srcDone, x ∈ held r → v.dst x = some r → t.removal.unindex = some (x, srcDone) →
      ∃ srcDone, t'.removal.unindex = some (x, srcDone)) :
    Indexed { v with held := held } next seen (t' :: others) := by
  have hcur : ∀ r, Current { v with held := held } (t' :: others) r ↔ Current v (t :: others) r := by
    intro r
    exact .of_eq (congrFun (current_congr halike.marking) r)
  have hadding : ∀ l, Adding (t' :: others) l ↔ Adding (t :: others) l :=
    fun l => or_congr (halike.addingSrc l) (halike.addingDst l)
  refine ⟨fun r x hx => h.held r x (hsub r x hx), ?_, ?_, ?_, ?_⟩
  · intro x hx
    have hsource := h.source x hx
    rw [← hsrc x hx, ← halike.addingSrc] at hsource
    exact hsource
  · intro x hx
    refine (h.sourceHeld x (hsub _ x hx)).imp id (fun hun => ?_)
    exact unindexing_cons.mpr ((unindexing_cons.mp hun).imp_left (hunindex x hx))
  · intro x r hx hr hid
    have hdest := h.dest x r hx ((hcur r).mp hr) hid
    rw [← hdst x r hx ((hcur r).mp hr), ← hadding] at hdest
    exact hdest
  · intro x r hr hx hid
    rcases h.destHeld x r ((hcur r).mp hr) (hsub r x hx) hid with hstored | ⟨⟨srcDone, hun⟩, hdest⟩
    · exact .inl hstored
    · refine .inr ⟨?_, hdest⟩
      rcases unindexing_cons.mp hun with hhead | hothers
      · obtain ⟨srcDone', hhead'⟩ := hunindexDst x r srcDone hx hdest hhead
        exact ⟨srcDone', unindexing_cons.mpr (.inl hhead')⟩
      · exact ⟨srcDone, unindexing_cons.mpr (.inr hothers)⟩

/-- The tasks and the indexes as they should be. -/
structure Sound (v : View) (next : LinkRef) (seen : List RouterRef) (ts : List Task) : Prop where
  guarded : Guarded v next seen ts
  indexed : Indexed v next seen ts

end Frames

end Zt.LinkConsistency
