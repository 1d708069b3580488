import Zt.LinkKeys
import Zt.LinkSteps

namespace Zt.LinkRuns

open Tables Topology TaskPools LinkIndexes LinkViews LinkConsistency LinkSteps LinkKeys
open EdgeCtrl (Id)
open List (all_eq_true pairwise_cons mem_filter mem_cons_of_mem mem_cons_self)

/-- A link whose destination is connected is held once by that router and once
by its source, and what a connected router holds is in the table. -/
structure Consistent (net : Network) : Prop where
  dest : ∀ id l r, net.links.lookup id = some l → net.getConnected (net.link l).dstId = some r →
    (net.link l).dst = some r ∧ (net.router r).routerLinks.allLinks.count l = 1 ∧
      (net.router (net.link l).src).routerLinks.allLinks.count l = 1
  byRouter : ∀ id l r, net.links.lookup id = some l → net.getConnected (net.link l).dstId = some r →
    ∀ other, ((net.router r).routerLinks.linksFor other).count l =
        (if (net.router (net.link l).src).id = other then 1 else 0) ∧
      ((net.router (net.link l).src).routerLinks.linksFor other).count l =
        if (net.link l).dstId = other then 1 else 0
  held : ∀ id r, net.getConnected id = some r → ∀ l ∈ (net.router r).routerLinks.allLinks,
    net.links.lookup (net.link l).id = some l
  heldByRouter : ∀ id r other, net.getConnected id = some r → ∀ l ∈ (net.router r).routerLinks.linksFor other,
    net.links.lookup (net.link l).id = some l

def Quiet (ts : List Task) : Prop := ∀ t ∈ ts, t = {}

/-- A controller that has just started. -/
structure Initial (s : Shared) : Prop where
  links : s.net.links = ∅
  connected : s.net.connected = ∅
  routerLinks : ∀ r, (s.net.router r).routerLinks = {}
  nextLink : s.nextLink = 0

/-- The operations that may begin beside those in progress. -/
def Orderly (p : Pool Shared Task) : Operation → Prop
  | .connectRouter r _ => ∀ u ∈ p.tasks,
      (∀ other, u.stage = .mark other → (p.shared.net.router other).id ≠ (p.shared.net.router r).id) ∧
      (∀ src reported, Reports u src reported → reported.destRouterId ≠ (p.shared.net.router r).id) ∧ ¬ Disconnects u r
  | .disconnectRouter r => ∀ u ∈ p.tasks, u.stage ≠ .mark r ∧ ∀ src reported, Reports u src reported → src ≠ r ∧
      ∀ l ∈ (p.shared.net.router r).routerLinks.allLinks,
        (p.shared.net.router (p.shared.net.link l).src).id = (p.shared.net.router r).id →
        ¬ Names (view p.shared.net) l reported
  | .notifyExistingLink src reported => isCurrent p.shared.net src = true →
      reported.destRouterId ≠ (p.shared.net.router src).id ∧
      ∀ u ∈ p.tasks, (∀ r, u.stage = .mark r → reported.destRouterId ≠ (p.shared.net.router r).id) ∧
        ¬ Disconnects u src ∧ (Removes (view p.shared.net) u reported → ∃ src reported, Reports u src reported)
  | .linkFaulted linkId => ∀ u ∈ p.tasks, ∀ src reported, Reports u src reported →
      ∀ l, p.shared.net.links.lookup linkId = some l → ¬ Names (view p.shared.net) l reported
  | .scanForDeadLinks _ => ∀ u ∈ p.tasks, ∀ src reported, Reports u src reported →
      ∀ id l, p.shared.net.links.lookup id = some l →
        (p.shared.net.router (p.shared.net.link l).src).connected = false → ¬ Names (view p.shared.net) l reported

structure Inv (s : Shared) (ts : List Task) : Prop where
  guarded : Guarded (view s.net) s.nextLink s.seen ts
  indexed : Indexed (view s.net) s.nextLink s.seen ts
  keyed : Keyed s.net

variable {s s' : Shared} {ts others : List Task} {t t' u : Task} {l : LinkRef} {r : RouterRef} {net : Network}
  {left : List LinkRef}

section Tasks

variable {removal : Removal} {src : RouterRef} {reported : ReportedLink} {dst : Option RouterRef}

theorem advanceRemoval_none (h : advanceRemoval net removal = none) : removal = {} := by
  obtain ⟨unindex, left⟩ := removal
  cases unindex with
  | some entry =>
    obtain ⟨l, srcDone⟩ := entry
    cases srcDone <;> simp [advanceRemoval] at h
  | none =>
    cases left with
    | nil => rfl
    | cons l left =>
      cases hrem : tableRemove net l <;> simp [advanceRemoval, hrem] at h

theorem dst_ne_src (h : Guarded (view s.net) s.nextLink s.seen ts) (hl : l < s.nextLink) :
    (s.net.link l).dst ≠ some (s.net.link l).src := by
  intro hself
  obtain ⟨-, hne, hdst⟩ := h.link l hl
  exact hne (hdst _ hself).2.symm

theorem Inv.sound (h : Inv s ts) : Sound (view s.net) s.nextLink s.seen ts := ⟨h.guarded, h.indexed⟩

theorem inv_of_sound {v : View} (hview : view s.net = v) (h : Sound v s.nextLink s.seen ts) (hkeyed : Keyed s.net) :
    Inv s ts := by
  subst hview
  exact ⟨h.guarded, h.indexed, hkeyed⟩

theorem inv_advanceRemoval (h : Inv s (t :: others)) (hstep : advanceRemoval s.net t.removal = some (net, removal)) :
    Inv { s with net := net } ({ t with removal := removal } :: others) := by
  obtain ⟨⟨unindex, left⟩, stage⟩ := t
  cases unindex with
  | some entry =>
    obtain ⟨l, srcDone⟩ := entry
    cases srcDone with
    | false =>
      cases hstep
      exact inv_of_sound (view_removeSrc _ _) (sound_removeSrc h.sound) (keyed_removeSrc h.keyed)
    | true =>
      cases hstep
      have hlt : l < s.nextLink := (h.guarded.head_good.handles l (handles_unindex.mpr (.inr rfl))).1
      have hkeyed := keyed_removeDst h.keyed (dst_ne_src h.guarded hlt)
      have hguarded := guarded_removeDst h.guarded
      cases hdst : (view s.net).dst l with
      | none =>
        refine inv_of_sound (view_removeDst_none s.net l hdst) ⟨hguarded, ?_⟩ hkeyed
        exact indexed_removeDst h.sound (fun _ _ hx => hx) (fun _ _ _ => rfl) (by simp [hdst])
      | some dest =>
        refine inv_of_sound (view_removeDst_some s.net l hdst) ⟨hguarded.setHeld, ?_⟩ hkeyed
        refine indexed_removeDst h.sound (fun _ _ hx => (mem_update_filter.mp hx).1)
          (fun _ _ hx => count_update_filter hx) ?_
        rintro r hr hmem
        rw [hdst] at hr
        exact (mem_update_filter.mp hmem).2 (Option.some.inj hr).symm rfl
  | none =>
    cases left with
    | nil => cases hstep
    | cons l left =>
      cases hrem : tableRemove s.net l with
      | none =>
        simp only [advanceRemoval, hrem] at hstep
        cases hstep
        exact inv_of_sound rfl (sound_removeFails h.sound (tableRemove_none hrem)) h.keyed
      | some net' =>
        simp only [advanceRemoval, hrem] at hstep
        cases hstep
        obtain ⟨hfound, hview⟩ := tableRemove_some hrem
        exact inv_of_sound hview (sound_remove h.sound (stored_of_removed h.guarded hfound))
          (keyed_tableRemove h.keyed hrem)

theorem view_unmark : view (markDisconnected net r) =
    (view net).setConnected ((view net).routerId r) (withoutRouter (view net) r) := by
  rw [view_markDisconnected, withoutRouter]
  split
  · rfl
  · have hself := Function.update_eq_self ((view net).routerId r) (view net).connected
    rw [View.setConnected, hself]

theorem inv_report (hfree : ∀ u ∈ others, u.locks = false)
    (h : Inv s (⟨{}, .reporting src reported (.report dst)⟩ :: others)) :
    Inv s (routerReportedLink s.net src dst reported :: others) := by
  unfold routerReportedLink
  cases hfound : s.net.links.lookup reported.id with
  | none => exact inv_of_sound rfl (sound_report_create h.sound hfree (.inl ⟨rfl, hfound⟩)) h.keyed
  | some old =>
    simp only
    split
    · exact inv_of_sound rfl (sound_report_known h.sound) h.keyed
    · exact inv_of_sound rfl (sound_report_create h.sound hfree (.inr ⟨old, rfl, hfound⟩)) h.keyed

theorem inv_create (h : Inv s (⟨{}, .reporting src reported (.create dst)⟩ :: others)) :
    Inv { s with net := tableAdd s.net s.nextLink (newLink src dst reported), nextLink := s.nextLink + 1 }
      (⟨{}, .reporting src reported (.addSrc s.nextLink)⟩ :: others) := by
  refine inv_of_sound (view_tableAdd _ _) ⟨guarded_create h.guarded, indexed_create h.sound⟩
    (keyed_tableAdd h.keyed (fun r hr => ?_))
  exact lt_irrefl _ (h.indexed.held r _ hr).1

theorem inv_addDst (h : Inv s (⟨{}, .reporting src reported (.addDst l)⟩ :: others)) :
    Inv { s with net := addDst s.net l } (⟨{}, .done⟩ :: others) := by
  have hadd := (h.guarded.head_good.report src reported (.addDst l) rfl).2.2
  have hkeyed := keyed_addDst h.keyed (dst_ne_src h.guarded (addGood_stored h.guarded.stored hadd).2)
  have hguarded := guarded_done h.guarded (by simp)
  cases hdst : (view s.net).dst l with
  | none =>
    have hnone : ∀ r x, ¬ ((view s.net).dst l = some r ∧ x = l) := by simp [hdst]
    refine inv_of_sound (view_addDst_none s.net l hdst) ⟨hguarded, ?_⟩ hkeyed
    refine indexed_addDst h.sound (fun r x => ?_) (fun r x => ?_)
    · exact (or_iff_left (hnone r x)).symm
    · rw [if_neg (hnone r x)]
      rfl
  | some dest =>
    refine inv_of_sound (view_addDst_some s.net l hdst) ⟨hguarded.setHeld, ?_⟩ hkeyed
    refine indexed_addDst h.sound (fun r x => ?_) (fun r x => ?_)
    · simp only [hdst, Option.some.injEq, eq_comm (a := dest)]
      exact mem_update_append
    · simp only [hdst, Option.some.injEq, eq_comm (a := dest)]
      exact count_update_append

theorem inv_advanceStage {stage : Stage} {lockFree : Bool} (hlock : lockFree = true → ∀ u ∈ others, u.locks = false)
    (h : Inv s (⟨{}, stage⟩ :: others)) (hstep : advanceStage lockFree s stage = some (s', t')) :
    Inv s' (t' :: others) := by
  cases stage with
  | done => cases hstep
  | mark r =>
    cases hstep
    exact inv_of_sound (view_markConnected _ _) (sound_mark h.sound) (keyed_setConnected h.keyed)
  | unmark r =>
    cases hstep
    exact inv_of_sound view_unmark (sound_unmark h.sound) (keyed_setConnected h.keyed)
  | clear r =>
    cases hstep
    exact inv_of_sound (view_clearLinks _ _) (sound_clear h.sound) (keyed_clearLinks h.keyed)
  | reporting src reported phase =>
    cases phase with
    | lookup =>
      cases hstep
      exact inv_of_sound rfl (sound_lookup h.sound) h.keyed
    | report dst =>
      cases lockFree with
      | false => cases hstep
      | true =>
        cases hstep
        exact inv_report (hlock rfl) h
    | create dst =>
      cases hstep
      exact inv_create h
    | addSrc l =>
      cases hstep
      exact inv_of_sound (view_addSrc _ _) (sound_addSrc h.sound) (keyed_addSrc h.keyed)
    | addDst l =>
      cases hstep
      exact inv_addDst h

theorem inv_advance (h : Inv s (t :: others)) (hstep : advance others s t = some (s', t')) : Inv s' (t' :: others) := by
  unfold advance at hstep
  cases hrem : advanceRemoval s.net t.removal with
  | some next =>
    simp only [hrem] at hstep
    cases hstep
    exact inv_advanceRemoval h hrem
  | none =>
    obtain ⟨removal, stage⟩ := t
    obtain rfl : removal = {} := advanceRemoval_none hrem
    refine inv_advanceStage (fun hfree u hu => ?_) h hstep
    simpa using all_eq_true.mp hfree u hu

end Tasks

section Operations

variable {v : View} {next : LinkRef} {seen : List RouterRef} {order : List LinkRef}

theorem sound_idle (h : Sound v next seen ts) : Sound v next seen (⟨{}, .done⟩ :: ts) := by
  obtain ⟨hg, hi⟩ := h
  refine ⟨⟨hg.stored, hg.link, hg.connected, fun r hr => hg.marking r (marking_done.mp hr), ?_, ?_, ?_⟩,
    hi.congr (fun r => marking_done) ?_ ?_ ?_⟩
  · refine pairwise_cons.mpr ⟨fun u _ => ⟨fun hc => ?_, fun hc => ?_⟩, hg.apart⟩
    · cases hc <;> simp_all [Disconnects, Reports]
    · cases hc <;> simp_all [Disconnects, Reports, Removes, Handles]
  · exact pairwise_cons.mpr ⟨fun u _ hboth => by simp [Task.locks] at hboth, hg.lock⟩
  · rw [current_congr (fun r => marking_done), List.forall_mem_cons]
    exact ⟨good_done, hg.good⟩
  · simp [addingSrc_cons]
  · simp [addingDst_cons]
  · simp [unindexing_cons]

theorem inv_begin {stage : Stage} (h : Inv s ts)
    (hstage : stage = .done ∨ (∃ r, stage = .unmark r) ∨ ∃ src reported, stage = .reporting src reported .lookup)
    (hapart : ∀ u ∈ ts, Apart (view s.net) ⟨⟨none, left⟩, stage⟩ u)
    (hgood : Good (view s.net) s.nextLink s.seen (Current (view s.net) (⟨{}, .done⟩ :: ts)) ⟨⟨none, left⟩, stage⟩) :
    Inv s (⟨⟨none, left⟩, stage⟩ :: ts) := by
  have halike : Alike ⟨⟨none, left⟩, stage⟩ ⟨{}, .done⟩ := by
    rcases hstage with rfl | ⟨r, rfl⟩ | ⟨-, -, rfl⟩ <;> constructor <;> simp
  have hlocks : Task.locks ⟨⟨none, left⟩, stage⟩ = false := by
    rcases hstage with rfl | ⟨r, rfl⟩ | ⟨-, -, rfl⟩ <;> rfl
  have hidle := sound_idle h.sound
  refine ⟨hidle.guarded.replace halike.mark hapart (fun u _ hboth => ?_) hgood, hidle.indexed.replace halike rfl, h.keyed⟩
  simp [hlocks] at hboth

theorem apart_removing (h : ∀ src reported, Reports u src reported → ∀ l ∈ left, ¬ Names v l reported) :
    Apart v ⟨⟨none, left⟩, .done⟩ u := by
  constructor
  · intro hc
    cases hc <;> simp_all [Disconnects, Reports]
  · intro hc
    cases hc with
    | connects ht hu hid => cases hu
    | connectsDest ht hu hid => simp [Reports] at hu
    | connectsDisconnects ht hu => simp [Disconnects] at hu
    | disconnectsSource ht hu => simp [Reports] at hu
    | removesReported ht hu hother =>
      obtain ⟨l, hl, hnames⟩ := hu
      exact h _ _ ht l (handles_left.mp hl) hnames

theorem good_removing {current : RouterRef → Prop}
    (hstored : ∀ id l, v.table id = some l → v.linkId l = id ∧ l < next)
    (hleft : ∀ l ∈ left, ∃ id, v.table id = some l) : Good v next seen current ⟨⟨none, left⟩, .done⟩ := by
  refine ⟨fun l hl => ?_, by simp, by simp, by simp, by simp⟩
  obtain ⟨id, hid⟩ := hleft l (handles_left.mp hl)
  obtain ⟨hlink, hlt⟩ := hstored id l hid
  refine ⟨hlt, fun w hw => .inl ?_⟩
  rw [hlink, hid] at hw
  exact Option.some.inj hw.symm

theorem inv_linkFaulted {linkId : Id} (h : Inv s ts) (hallowed : Orderly ⟨s, ts⟩ (.linkFaulted linkId))
    (hstep : start s (.linkFaulted linkId) = some (s', t)) : Inv s' (t :: ts) := by
  unfold start at hstep
  cases hfound : s.net.links.lookup linkId with
  | none =>
    simp only [hfound] at hstep
    cases hstep
    exact inv_of_sound rfl (sound_idle h.sound) h.keyed
  | some l =>
    simp only [hfound] at hstep
    cases hstep
    have hview : view (setFailed s.net l) = view s.net := view_setFailed s.net l
    have hfailed : Inv { s with net := setFailed s.net l } ts := inv_of_sound hview h.sound (keyed_setFailed h.keyed)
    refine inv_begin hfailed (.inl rfl) (fun u hu => ?_) ?_
    · rw [hview]
      refine apart_removing (fun src reported hreps x hx => ?_)
      rw [List.mem_singleton.mp hx]
      exact hallowed u hu src reported hreps l hfound
    · rw [hview]
      refine good_removing h.guarded.stored (fun x hx => ?_)
      rw [List.mem_singleton.mp hx]
      exact ⟨linkId, hfound⟩

theorem mem_tableLinks : l ∈ tableLinks net ↔ ∃ id, net.links.lookup id = some l := by
  simp only [tableLinks, List.mem_map, Prod.exists, mem_pairs]
  constructor
  · rintro ⟨id, x, hx, rfl⟩
    exact ⟨id, hx⟩
  · rintro ⟨id, hid⟩
    exact ⟨id, l, hid, rfl⟩

theorem inv_scanForDeadLinks (h : Inv s ts) (hallowed : Orderly ⟨s, ts⟩ (.scanForDeadLinks order))
    (hstep : start s (.scanForDeadLinks order) = some (s', t)) : Inv s' (t :: ts) := by
  simp only [start] at hstep
  split at hstep
  · rename_i hperm
    cases hstep
    have hmem : ∀ l ∈ order, ∃ id, s.net.links.lookup id = some l :=
      fun l hl => mem_tableLinks.mp ((List.isPerm_iff.mp hperm).mem_iff.mp hl)
    refine inv_begin h (.inl rfl) (fun u hu => ?_) ?_
    · refine apart_removing (fun src reported hreps l hl => ?_)
      obtain ⟨hl, hdead⟩ := mem_filter.mp hl
      obtain ⟨id, hid⟩ := hmem l hl
      exact hallowed u hu src reported hreps id l hid (by simpa using hdead)
    · exact good_removing h.guarded.stored (fun l hl => hmem l (mem_filter.mp hl).1)
  · cases hstep

theorem inv_notifyExistingLink {src : RouterRef} {reported : ReportedLink} (h : Inv s ts)
    (hallowed : Orderly ⟨s, ts⟩ (.notifyExistingLink src reported))
    (hstep : start s (.notifyExistingLink src reported) = some (s', t)) : Inv s' (t :: ts) := by
  cases hstep
  unfold notifyExistingLink
  split
  · rename_i hcur
    obtain ⟨hself, hothers⟩ := hallowed hcur
    have hseen : src ∈ s.seen := by
      simp only [isCurrent, Bool.and_eq_true, decide_eq_true_eq] at hcur
      exact (h.guarded.connected _ src hcur.1).2
    refine inv_begin h (.inr (.inr ⟨src, reported, rfl⟩)) (fun u hu => ?_) ?_
    · obtain ⟨hmark, hdisc, hrems⟩ := hothers u hu
      constructor
      · intro hc
        cases hc with
        | connects ht hu hid => cases ht
        | connectsDest ht hu hid => cases ht
        | connectsDisconnects ht hu => cases ht
        | disconnectsSource ht hu => simp [Disconnects] at ht
        | removesReported ht hu hother =>
          obtain ⟨_, hstage⟩ := ht
          cases hstage
          obtain ⟨src', reported', hreps⟩ := hrems hu
          exact hother src' reported' hreps
      · intro hc
        cases hc with
        | connects ht hu hid => cases hu
        | connectsDest ht hu hid =>
          obtain ⟨_, hstage⟩ := hu
          cases hstage
          exact hmark _ ht hid
        | connectsDisconnects ht hu => simp [Disconnects] at hu
        | disconnectsSource ht hu =>
          obtain ⟨_, hstage⟩ := hu
          cases hstage
          exact hdisc ht
        | removesReported ht hu hother => simp [Removes, Handles] at hu
    · refine ⟨by simp [Handles], by simp, by simp, by simp, ?_⟩
      rintro src' reported' - ⟨⟩
      exact ⟨hseen, hself, rfl⟩
  · exact inv_of_sound rfl (sound_idle h.sound) h.keyed

theorem inv_disconnectRouter (h : Inv s ts) (hallowed : Orderly ⟨s, ts⟩ (.disconnectRouter r))
    (hstep : start s (.disconnectRouter r) = some (s', t)) : Inv s' (t :: ts) := by
  cases hstep
  have hown : ∀ l ∈ (s.net.router r).routerLinks.allLinks.filter
      (fun l => (s.net.router (s.net.link l).src).id = (s.net.router r).id),
      l ∈ (view s.net).held r ∧ (view s.net).routerId ((view s.net).src l) = (view s.net).routerId r := by
    intro l hl
    obtain ⟨hl, hid⟩ := mem_filter.mp hl
    exact ⟨hl, of_decide_eq_true hid⟩
  refine inv_begin h (.inr (.inl ⟨r, rfl⟩)) (fun u hu => ?_) ?_
  · obtain ⟨hmark, hreps⟩ := hallowed u hu
    constructor
    · intro hc
      cases hc with
      | connects ht hu hid => cases ht
      | connectsDest ht hu hid => cases ht
      | connectsDisconnects ht hu => cases ht
      | disconnectsSource ht hu =>
        rcases ht with hstage | hstage
        · cases hstage
          exact (hreps _ _ hu).1 rfl
        · cases hstage
      | removesReported ht hu hother => simp [Reports] at ht
    · intro hc
      cases hc with
      | connects ht hu hid => cases hu
      | connectsDest ht hu hid => simp [Reports] at hu
      | connectsDisconnects ht hu =>
        rcases hu with hstage | hstage
        · cases hstage
          exact hmark ht
        · cases hstage
      | disconnectsSource ht hu => simp [Reports] at hu
      | removesReported ht hu hother =>
        obtain ⟨l, hl, hnames⟩ := hu
        obtain ⟨hheld, hid⟩ := hown l (handles_left.mp hl)
        exact (hreps _ _ ht).2 l hheld hid hnames
  · refine ⟨fun l hl => ?_, by simp, ?_, by simp, by simp⟩
    · obtain ⟨hheld, hid⟩ := hown l (handles_left.mp hl)
      obtain ⟨hlt, -, hsrc⟩ := h.indexed.held r l hheld
      have hsrcIs : (view s.net).src l = r := by
        refine hsrc.resolve_right (fun hdst => ?_)
        exact (h.guarded.link l hlt).2.1 (hdst.trans hid.symm)
      rcases h.indexed.sourceHeld l (hsrcIs.symm ▸ hheld) with hstored | ⟨u, hu, hun⟩
      · refine ⟨hlt, fun w hw => .inl ?_⟩
        exact Option.some.inj (hw.symm.trans hstored)
      · exact (h.guarded.good u hu).handles l (.inr ⟨false, hun⟩)
    · rintro r' ⟨⟩ l hstored hsrc
      have hadding : ¬ AddingSrc ts l := by
        rintro ⟨u, hu, src, reported, hstage⟩
        obtain ⟨-, -, -, -, -, hsrc', -⟩ := (h.guarded.good u hu).report _ _ _ hstage
        exact ((hallowed u hu).2 src reported ⟨_, hstage⟩).1 (hsrc'.symm.trans hsrc)
      have hone := (h.indexed.source l hstored).2 hadding
      rw [hsrc] at hone
      have hheld : l ∈ (view s.net).held r := List.count_pos_iff.mp (hone ▸ Nat.one_pos)
      exact mem_filter.mpr ⟨hheld, decide_eq_true (congrArg (view s.net).routerId hsrc)⟩

theorem apart_connecting (h : ∀ u ∈ ts, Apart v ⟨{}, .mark r⟩ u) :
    (∀ other, Marking ts other → v.routerId other ≠ v.routerId r) ∧
    (∀ u ∈ ts, ∀ src reported, Reports u src reported → reported.destRouterId ≠ v.routerId r) ∧
      ∀ u ∈ ts, ¬ Disconnects u r := by
  refine ⟨?_, fun u hu src reported hreps hid => ?_, fun u hu hdisc => ?_⟩
  · rintro other ⟨u, hu, hstage⟩ hid
    exact (h u hu).1 (.connects rfl hstage hid.symm)
  · exact (h u hu).1 (.connectsDest rfl hreps hid)
  · exact (h u hu).1 (.connectsDisconnects rfl hdisc)

theorem current_build (hothers : ∀ other, Marking ts other → v.routerId other ≠ v.routerId r) (x : RouterRef) :
    Current (v.build order r) (⟨{}, .mark r⟩ :: ts) x ↔ x = r ∨ v.routerId x ≠ v.routerId r ∧ Current v ts x := by
  have hhead : ∀ other, Marking (⟨{}, .mark r⟩ :: ts) other ↔ other = r ∨ Marking ts other := by
    intro other
    rw [marking_cons]
    simp [eq_comm]
  simp only [Current, hhead]
  constructor
  · rintro ((rfl | hmark) | ⟨hlook, hall⟩)
    · exact .inl rfl
    · exact .inr ⟨hothers x hmark, .inl hmark⟩
    · exact .inr ⟨(hall r (.inl rfl)).symm, .inr ⟨hlook, fun other hother => hall other (.inr hother)⟩⟩
  · rintro (rfl | ⟨hne, hmark | ⟨hlook, hall⟩⟩)
    · exact .inl (.inl rfl)
    · exact .inl (.inr hmark)
    · refine .inr ⟨hlook, ?_⟩
      rintro other (rfl | hother)
      · exact hne.symm
      · exact hall other hother

theorem good_build {current current' : RouterRef → Prop} (hgood : Good v next seen current u)
    (hcur : ∀ x, current' x → x = r ∨ current x)
    (hreps : ∀ src reported, Reports u src reported → reported.destRouterId ≠ v.routerId r)
    (hdisc : ¬ Disconnects u r) : Good (v.build order r) next (r :: seen) current' u := by
  refine ⟨hgood.handles, hgood.unindex, hgood.unmark, fun x hx => ⟨(hgood.clear x hx).1, fun hc => ?_⟩, ?_⟩
  · rcases hcur x hc with rfl | hc
    · exact hdisc (.inr hx)
    · exact (hgood.clear x hx).2 hc
  · intro src reported phase hstage
    obtain ⟨hsrc, hne, hphase⟩ := hgood.report src reported phase hstage
    have hdst : ∀ dst, DstGood v seen current reported.destRouterId dst →
        DstGood (v.build order r) (r :: seen) current' reported.destRouterId dst := by
      intro dst hdst
      refine ⟨fun d hd => ⟨mem_cons_of_mem r (hdst.1 d hd).1, (hdst.1 d hd).2⟩, fun x hx hid => ?_⟩
      rcases hcur x hx with rfl | hx
      · exact absurd hid.symm (hreps src reported ⟨phase, hstage⟩)
      · exact hdst.2 x hx hid
    refine ⟨mem_cons_of_mem r hsrc, hne, ?_⟩
    cases phase with
    | lookup => exact hphase
    | report dst => exact ⟨hphase.1, hdst dst hphase.2⟩
    | create dst => exact ⟨hdst dst hphase.1, hphase.2⟩
    | addSrc l => exact hphase
    | addDst l => exact hphase

theorem guarded_build (h : Guarded v next seen ts) (hapart : ∀ u ∈ ts, Apart v ⟨{}, .mark r⟩ u) :
    Guarded (v.build order r) next (r :: seen) (⟨{}, .mark r⟩ :: ts) := by
  obtain ⟨hothers, hreps, hdisc⟩ := apart_connecting hapart
  refine ⟨h.stored, ?_, fun id x hx => ⟨(h.connected id x hx).1, mem_cons_of_mem r (h.connected id x hx).2⟩,
    ?_, ?_, ?_, ?_⟩
  · intro l hl
    obtain ⟨hsrc, hne, hdst⟩ := h.link l hl
    refine ⟨mem_cons_of_mem r hsrc, hne, fun d hd => ?_⟩
    simp only [View.build] at hd
    split at hd
    · rename_i hcond
      obtain rfl := Option.some.inj hd
      exact ⟨mem_cons_self, hcond.2.symm⟩
    · exact ⟨mem_cons_of_mem r (hdst d hd).1, (hdst d hd).2⟩
  · intro x hx
    rcases marking_cons.mp hx with hhead | hx
    · cases hhead
      exact mem_cons_self
    · exact mem_cons_of_mem r (h.marking x hx)
  · have hpairs : (⟨{}, .mark r⟩ :: ts).Pairwise (Apart v) := pairwise_cons.mpr ⟨hapart, h.apart⟩
    refine hpairs.imp (fun hu => ?_)
    exact .congr (v := v) rfl (fun _ _ => ⟨rfl, rfl⟩) hu
  · exact pairwise_cons.mpr ⟨fun u _ hboth => by simp [Task.locks] at hboth, h.lock⟩
  · rw [List.forall_mem_cons]
    constructor
    · refine ⟨by simp [Handles], by simp, by simp, by simp, by simp⟩
    · intro u hu
      refine good_build (h.good u hu) (fun x hx => ?_) (hreps u hu) (hdisc u hu)
      exact ((current_build hothers x).mp hx).imp_right And.right

theorem indexed_build (hg : Guarded v next seen ts) (h : Indexed v next seen ts) (hr : r ∉ seen)
    (hapart : ∀ u ∈ ts, Apart v ⟨{}, .mark r⟩ u) (hmem : ∀ l, l ∈ order ↔ Stored v l) (hnodup : order.Nodup) :
    Indexed (v.build order r) next (r :: seen) (⟨{}, .mark r⟩ :: ts) := by
  obtain ⟨hothers, hreps, -⟩ := apart_connecting hapart
  have hsrcAdding : ∀ l, AddingSrc (⟨{}, .mark r⟩ :: ts) l ↔ AddingSrc ts l := by simp [addingSrc_cons]
  have hadding : ∀ l, Adding (⟨{}, .mark r⟩ :: ts) l ↔ Adding ts l := by
    simp [Adding, addingSrc_cons, addingDst_cons]
  have hunindex : ∀ l srcDone, Unindexing (⟨{}, .mark r⟩ :: ts) l srcDone ↔ Unindexing ts l srcDone := by
    simp [unindexing_cons]
  have hnew : (v.build order r).held r = order.filter (fun l => v.dstId l = v.routerId r) := by
    have hempty : v.held r = [] := List.eq_nil_iff_forall_not_mem.mpr (fun l hl => hr (h.held r l hl).2.1)
    simp [View.build, hempty]
  have hold : ∀ x, x ≠ r → (v.build order r).held x = v.held x := by
    intro x hx
    simp [View.build, hx]
  have hdstOld : ∀ l, v.dstId l ≠ v.routerId r → (v.build order r).dst l = v.dst l := by
    intro l hl
    simp [View.build, hl]
  have hheldNew : ∀ l, l ∈ (v.build order r).held r → Stored v l ∧ v.dstId l = v.routerId r := by
    intro l hl
    rw [hnew, mem_filter] at hl
    exact ⟨(hmem l).mp hl.1, of_decide_eq_true hl.2⟩
  have hnotAdding : ∀ l, Stored v l → v.dstId l = v.routerId r → ¬ Adding ts l := by
    rintro l - hdst (⟨u, hu, src, reported, hstage⟩ | ⟨u, hu, src, reported, hstage⟩) <;>
      obtain ⟨-, -, -, -, -, -, hdest⟩ := (hg.good u hu).report _ _ _ hstage <;>
      exact hreps u hu src reported ⟨_, hstage⟩ (hdest.symm.trans hdst)
  refine ⟨?_, ?_, ?_, ?_, ?_⟩
  · intro x l hl
    by_cases hx : x = r
    · subst hx
      obtain ⟨hstored, hdst⟩ := hheldNew l hl
      exact ⟨(hg.stored _ _ hstored).2, mem_cons_self, .inr hdst⟩
    · rw [hold x hx] at hl
      obtain ⟨hlt, hseen, hends⟩ := h.held x l hl
      exact ⟨hlt, mem_cons_of_mem r hseen, hends⟩
  · intro l hl
    have hsrc : v.src l ≠ r := by
      rintro rfl
      exact hr (hg.link l (hg.stored _ _ hl).2).1
    rw [hsrcAdding]
    have hsource := h.source l hl
    rw [← hold _ hsrc] at hsource
    exact hsource
  · intro l hl
    by_cases hsrc : v.src l = r
    · have hl' : l ∈ (v.build order r).held r := hsrc ▸ hl
      exact .inl (hheldNew l hl').1
    · have hl' : l ∈ v.held (v.src l) := hold _ hsrc ▸ hl
      rw [hunindex]
      exact h.sourceHeld l hl'
  · intro l x hl hx hid
    rw [hadding]
    rcases (current_build hothers x).mp hx with rfl | ⟨hne, hx⟩
    · have hdst : v.dstId l = v.routerId x := hid.symm
      have horder : l ∈ order := (hmem l).mpr hl
      refine ⟨if_pos ⟨horder, hdst⟩, fun hadd => absurd hadd (hnotAdding l hl hdst), fun _ => ?_⟩
      rw [hnew, List.count_filter (by simpa using hdst)]
      exact List.count_eq_one_of_mem hnodup horder
    · have hxr : x ≠ r := fun heq => hne (heq ▸ rfl)
      have hdst : v.dstId l ≠ v.routerId r := fun heq => hne (hid.trans heq)
      rw [hdstOld l hdst, hold x hxr]
      exact h.dest l x hl hx hid
  · intro l x hx hl hid
    rcases (current_build hothers x).mp hx with rfl | ⟨hne, hx⟩
    · exact .inl (hheldNew l hl).1
    · have hxr : x ≠ r := fun heq => hne (heq ▸ rfl)
      have hid' : v.dstId l = v.routerId x := hid
      have hdst : v.dstId l ≠ v.routerId r := fun heq => hne (hid'.symm.trans heq)
      rw [hold x hxr] at hl
      simp only [hunindex]
      rw [hdstOld l hdst]
      exact h.destHeld l x hx hl hid

theorem tableLinks_nodup (hid : ∀ id l, net.links.lookup id = some l → (net.link l).id = id) :
    (tableLinks net).Nodup := by
  have hkeys : ((pairs net.links).map Prod.fst).Nodup := by
    rw [pairs_keys]
    exact net.links.nodupKeys
  have hids : (tableLinks net).map (fun l => (net.link l).id) = (pairs net.links).map Prod.fst := by
    rw [tableLinks, List.map_map]
    apply List.map_congr_left
    rintro ⟨id, l⟩ hl
    exact hid id l (mem_pairs.mp hl)
  exact List.Nodup.of_map _ (hids ▸ hkeys)

theorem inv_connectRouter (h : Inv s ts) (hallowed : Orderly ⟨s, ts⟩ (.connectRouter r order))
    (hstep : start s (.connectRouter r order) = some (s', t)) : Inv s' (t :: ts) := by
  simp only [start] at hstep
  split at hstep
  · rename_i hcond
    obtain ⟨hr, hperm⟩ := hcond
    cases hstep
    have hperm := List.isPerm_iff.mp hperm
    have hmem : ∀ l, l ∈ order ↔ Stored (view s.net) l := by
      intro l
      rw [hperm.mem_iff, mem_tableLinks]
      constructor
      · rintro ⟨id, hid⟩
        rw [Stored, (h.guarded.stored id l hid).1]
        exact hid
      · exact fun hl => ⟨_, hl⟩
    have hnodup : order.Nodup :=
      hperm.nodup_iff.mpr (tableLinks_nodup (fun id l hl => (h.guarded.stored id l hl).1))
    have hapart : ∀ u ∈ ts, Apart (view s.net) ⟨{}, .mark r⟩ u := by
      intro u hu
      obtain ⟨hmark, hreps, hdisc⟩ := hallowed u hu
      constructor
      · intro hc
        cases hc with
        | connects ht hu hid =>
          cases ht
          exact hmark _ hu hid.symm
        | connectsDest ht hu hid =>
          cases ht
          exact hreps _ _ hu hid
        | connectsDisconnects ht hu =>
          cases ht
          exact hdisc hu
        | disconnectsSource ht hu => simp [Disconnects] at ht
        | removesReported ht hu hother => simp [Reports] at ht
      · intro hc
        cases hc with
        | connects ht hu hid =>
          cases hu
          exact hmark _ ht hid
        | connectsDest ht hu hid => simp [Reports] at hu
        | connectsDisconnects ht hu => simp [Disconnects] at hu
        | disconnectsSource ht hu => simp [Reports] at hu
        | removesReported ht hu hother => simp [Removes, Handles] at hu
    refine inv_of_sound (view_buildRouterLinks _ _ _) ⟨guarded_build h.guarded hapart,
      indexed_build h.guarded h.indexed hr hapart hmem hnodup⟩ (keyed_buildRouterLinks h.keyed (fun l hl => ?_))
    rintro rfl
    exact hr (h.guarded.link l (h.guarded.stored _ _ ((hmem l).mp hl)).2).1
  · cases hstep

end Operations

theorem inv_init (h : Initial s) : Inv s [] := by
  have htable : ∀ id, (view s.net).table id = none := fun id => by simp [view, h.links]
  have hstored : ∀ l, ¬ Stored (view s.net) l := fun l hl => by simp [Stored, htable] at hl
  have hheld : ∀ r, (view s.net).held r = [] := fun r => by simp [view, h.routerLinks]
  refine ⟨⟨by simp [htable], by simp [h.nextLink], by simp [view, h.connected], by simp [Marking], .nil, .nil,
    by simp⟩, ⟨by simp [hheld], fun l hl => absurd hl (hstored l), by simp [hheld],
    fun l r hl => absurd hl (hstored l), by simp [hheld]⟩, fun r => ?_⟩
  rw [h.routerLinks]
  exact keyedBy_clear

theorem inv_begins {o : Operation} (h : Inv s ts) (hallowed : Orderly ⟨s, ts⟩ o) (hstep : start s o = some (s', t)) :
    Inv s' (t :: ts) := by
  cases o with
  | connectRouter r order => exact inv_connectRouter h hallowed hstep
  | disconnectRouter r => exact inv_disconnectRouter h hallowed hstep
  | notifyExistingLink src reported => exact inv_notifyExistingLink h hallowed hstep
  | linkFaulted linkId => exact inv_linkFaulted h hallowed hstep
  | scanForDeadLinks order => exact inv_scanForDeadLinks h hallowed hstep

theorem inv_run {p : Pool Shared Task} (hrun : Run linkMachine Orderly Initial p) : Inv p.shared p.tasks := by
  refine hrun.invariant (fun s ts ts' hperm h => ?_) (fun s h => inv_init h)
    (fun s ts o s' t h hallowed hstep => inv_begins h hallowed hstep) (fun s t others s' t' h hstep => inv_advance h hstep)
  exact ⟨h.guarded.perm hperm, h.indexed.perm hperm, h.keyed⟩

section Consistency

theorem quiet_not (h : Quiet ts) : (∀ r, ¬ Marking ts r) ∧ (∀ l, ¬ Adding ts l) ∧
    ∀ l srcDone, ¬ Unindexing ts l srcDone := by
  refine ⟨?_, ?_, ?_⟩
  · rintro r ⟨t, ht, hstage⟩
    rw [h t ht] at hstage
    cases hstage
  · rintro l (⟨t, ht, src, reported, hstage⟩ | ⟨t, ht, src, reported, hstage⟩) <;>
      rw [h t ht] at hstage <;> cases hstage
  · rintro l srcDone ⟨t, ht, hun⟩
    rw [h t ht] at hun
    cases hun

theorem consistent_of_inv (h : Inv s ts) (hquiet : Quiet ts) : Consistent s.net := by
  obtain ⟨hmarking, hadding, hunindexing⟩ := quiet_not hquiet
  have hcur : ∀ id r, s.net.getConnected id = some r →
      (s.net.router r).id = id ∧ Current (view s.net) ts r := by
    intro id r hr
    have hid : (view s.net).routerId r = id := (h.guarded.connected id r hr).1
    have hlook : (view s.net).connected ((view s.net).routerId r) = some r := hid.symm ▸ hr
    exact ⟨hid, .inr ⟨hlook, fun other hother => absurd hother (hmarking other)⟩⟩
  have hstored : ∀ id l, s.net.links.lookup id = some l → Stored (view s.net) l := by
    intro id l hl
    rw [Stored, (h.guarded.stored id l hl).1]
    exact hl
  have hdest : ∀ id l r, s.net.links.lookup id = some l → s.net.getConnected (s.net.link l).dstId = some r →
      (s.net.link l).dst = some r ∧ (s.net.router r).routerLinks.allLinks.count l = 1 ∧
        (s.net.router (s.net.link l).src).routerLinks.allLinks.count l = 1 := by
    intro id l r hl hr
    obtain ⟨hid, hr⟩ := hcur _ r hr
    obtain ⟨hdst, -, hone⟩ := h.indexed.dest l r (hstored id l hl) hr hid
    exact ⟨hdst, hone (hadding l), (h.indexed.source l (hstored id l hl)).2 (fun hsrc => hadding l (.inl hsrc))⟩
  have hheld : ∀ id r, s.net.getConnected id = some r → ∀ l ∈ (s.net.router r).routerLinks.allLinks,
      s.net.links.lookup (s.net.link l).id = some l := by
    intro id r hr l hl
    rcases (h.indexed.held r l hl).2.2 with hsrc | hdst
    · have hl' : l ∈ (view s.net).held ((view s.net).src l) := hsrc.symm ▸ hl
      exact (h.indexed.sourceHeld l hl').resolve_right (hunindexing l false)
    · refine (h.indexed.destHeld l r (hcur id r hr).2 hl hdst).resolve_right ?_
      rintro ⟨⟨srcDone, hun⟩, -⟩
      exact hunindexing l srcDone hun
  refine ⟨hdest, ?_, hheld, ?_⟩
  · intro id l r hl hr other
    obtain ⟨-, hone, honeSrc⟩ := hdest id l r hl hr
    have hne : ¬ (s.net.link l).src = r := by
      rintro rfl
      exact (h.guarded.link l (h.guarded.stored id l hl).2).2.1 (hcur _ _ hr).1.symm
    constructor
    · rw [h.keyed.count, otherId, if_neg hne, hone]
    · rw [h.keyed.count, otherId_src, honeSrc]
  · intro id r other hr l hl
    exact hheld id r hr l (mem_filter.mp ((h.keyed r other).mem_iff.mp hl)).1

end Consistency

theorem link_indexes_consistent {p : Pool Shared Task} (hrun : Run linkMachine Orderly Initial p)
    (hquiet : Quiet p.tasks) : Consistent p.shared.net :=
  consistent_of_inv (inv_run hrun) hquiet

def twoRouters : Shared where
  net := { router := fun r => { id := if r = 0 then "a" else "b" }, link := fun _ => { id := "", src := 0, dstId := "" } }

theorem initial_twoRouters : Initial twoRouters := ⟨rfl, rfl, fun _ => rfl, rfl⟩

/-- Operations one after the other, none of a router to itself. -/
def oneByOne (p : Pool Shared Task) (o : Operation) : Bool :=
  p.tasks.all (fun t => t = {}) && match o with
    | .notifyExistingLink src reported => reported.destRouterId ≠ (p.shared.net.router src).id
    | _ => true

theorem orderly_oneByOne (p : Pool Shared Task) (o : Operation) (h : oneByOne p o = true) : Orderly p o := by
  simp only [oneByOne, Bool.and_eq_true, all_eq_true, decide_eq_true_eq] at h
  obtain ⟨hquiet, hself⟩ := h
  cases o with
  | connectRouter r order =>
    intro u hu
    rw [hquiet u hu]
    simp [Reports, Disconnects]
  | disconnectRouter r =>
    intro u hu
    rw [hquiet u hu]
    simp [Reports]
  | notifyExistingLink src reported =>
    intro _
    refine ⟨by simpa using hself, fun u hu => ?_⟩
    rw [hquiet u hu]
    simp [Disconnects, Removes, Handles]
  | linkFaulted linkId =>
    intro u hu
    rw [hquiet u hu]
    simp [Reports]
  | scanForDeadLinks order =>
    intro u hu
    rw [hquiet u hu]
    simp [Reports]

def reportedToB : ReportedLink := ⟨"l", 1, "b"⟩

/-- Both routers connect, then the first one reports a link. -/
def reportAfterConnects : List (Move Operation) :=
  [.begins (.connectRouter 0 []), .advances 0, .begins (.connectRouter 1 []), .advances 0,
    .begins (.notifyExistingLink 0 reportedToB), .advances 0, .advances 0, .advances 0, .advances 0, .advances 0]

theorem reported_link_consistent : ∃ p, Run linkMachine Orderly Initial p ∧ Quiet p.tasks ∧
    p.shared.net.links.lookup "l" = some 0 ∧ Consistent p.shared.net := by
  have hplay : ((linkMachine.playAll oneByOne ⟨twoRouters, []⟩ reportAfterConnects).map
      (fun p => p.tasks.all (fun t => t = {}) && p.shared.net.links.lookup "l" == some 0)) = some true := by
    decide +kernel
  obtain ⟨p, hp, hcheck⟩ := Option.map_eq_some_iff.mp hplay
  simp only [Bool.and_eq_true, all_eq_true, decide_eq_true_eq, beq_iff_eq] at hcheck
  have hrun := Run.playAll orderly_oneByOne (.init initial_twoRouters) hp
  exact ⟨p, hrun, hcheck.1, hcheck.2, link_indexes_consistent hrun hcheck.1⟩

/-- The report looks up its destination, which connects before the link is in
the table. -/
def connectAfterLookup : List (Move Operation) :=
  [.begins (.connectRouter 0 []), .advances 0, .begins (.notifyExistingLink 0 reportedToB), .advances 0,
    .begins (.connectRouter 1 []), .advances 0, .advances 1, .advances 0, .advances 0, .advances 0]

theorem early_lookup_misses_dest : ∃ p, Run linkMachine (fun _ _ => True) Initial p ∧ Quiet p.tasks ∧
    ¬ Consistent p.shared.net := by
  have hplay : ((linkMachine.playAll (fun _ _ => true) ⟨twoRouters, []⟩ connectAfterLookup).map
      (fun p => p.tasks.all (fun t => t = {}) && p.shared.net.links.lookup "l" == some 0 &&
        p.shared.net.getConnected (p.shared.net.link 0).dstId == some 1 && (p.shared.net.link 0).dst == none)) =
      some true := by
    decide +kernel
  obtain ⟨p, hp, hcheck⟩ := Option.map_eq_some_iff.mp hplay
  simp only [Bool.and_eq_true, all_eq_true, decide_eq_true_eq, beq_iff_eq] at hcheck
  obtain ⟨⟨⟨hquiet, hlink⟩, hconnected⟩, hdst⟩ := hcheck
  refine ⟨p, Run.playAll (fun _ _ _ => trivial) (.init initial_twoRouters) hp, hquiet, fun hconsistent => ?_⟩
  have hdest := (hconsistent.dest "l" 0 1 hlink hconnected).1
  rw [hdst] at hdest
  cases hdest

end Zt.LinkRuns
