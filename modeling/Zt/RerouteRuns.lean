import Zt.LiveLinks
import Zt.Reroute

namespace Zt.RerouteRuns

open Tables Topology NetworkPaths LinkIndexes LinkViews LinkConsistency LinkSteps LinkKeys LinkRuns LiveLinks
open EdgeCtrl (Id IdTable)
open PathLinks (Connected NonNegative)
open PathSelection (IsRoute sameOrder)
open List (mem_cons_of_mem not_mem_nil mem_filter mem_cons_self mem_cons)

/-- An operation that nothing else interrupts. -/
inductive Completes : Shared → Task → Shared → Prop
  | done {s : Shared} : Completes s {} s
  | step {s s' s'' : Shared} {t t' : Task} (hstep : advance [] s t = some (s', t')) (hrest : Completes s' t' s'') :
      Completes s t s''

/-- Costs, flags and states of links change, and costs of routers. -/
structure Reweighted (net net' : Network) : Prop where
  connected : net'.connected = net.connected
  links : net'.links = net.links
  router : ∀ r, (net'.router r).id = (net.router r).id ∧ (net'.router r).connected = (net.router r).connected ∧
    (net'.router r).routerLinks = (net.router r).routerLinks
  link : ∀ l, (net'.link l).id = (net.link l).id ∧ (net'.link l).iteration = (net.link l).iteration ∧
    (net'.link l).src = (net.link l).src ∧ (net'.link l).dstId = (net.link l).dstId ∧
    (net'.link l).dst = (net.link l).dst

/-- A connection comes after the end of the one that it replaces. -/
def permitted (net : Network) : Operation → Bool
  | .connectRouter r _ => net.connected.lookup (net.router r).id = none
  | .notifyExistingLink src reported => reported.destRouterId ≠ (net.router src).id
  | _ => true

/-- The states after any sequence of connects, disconnects and link changes. -/
inductive Reached : Shared → Prop
  | init {s : Shared} (hinit : Initial s) (hflags : ∀ r, (s.net.router r).connected = false) : Reached s
  | operates {s s' s'' : Shared} {t : Task} {o : Operation} (h : Reached s) (hpermitted : permitted s.net o = true)
      (hstart : start s o = some (s', t)) (hcompletes : Completes s' t s'') : Reached s''
  | changes {s : Shared} {net : Network} (h : Reached s) (hchange : Reweighted s.net net) : Reached { s with net := net }

/-- The routers that are marked as connected are the ones connected now, and
links come from those. -/
structure Flagged (net : Network) (t : Task) : Prop where
  flag : ∀ r, (net.router r).connected = true ↔ net.connected.lookup (net.router r).id = some r
  source : ∀ id l, net.links.lookup id = some l → (net.router (net.link l).src).connected = true
  mark : ∀ r, t.stage = .mark r → net.connected.lookup (net.router r).id = none
  report : ∀ src reported phase, t.stage = .reporting src reported phase → (net.router src).connected = true

variable {s s' : Shared} {net net' : Network} {ts : List Task} {t t' : Task} {r : RouterRef} {l : LinkRef}

section Flags

/-- The second task connects and reports what the first one does. -/
structure Follows (t' t : Task) : Prop where
  mark : ∀ r, t'.stage = .mark r → t.stage = .mark r
  report : ∀ src reported phase, t'.stage = .reporting src reported phase →
    ∃ phase, t.stage = .reporting src reported phase

theorem Follows.of_stage (h : t'.stage = t.stage) : Follows t' t :=
  ⟨fun _ hr => h ▸ hr, fun _ _ phase hphase => ⟨phase, h ▸ hphase⟩⟩

theorem follows_done : Follows {} t := ⟨by simp, by simp⟩

variable {src : RouterRef} {reported : ReportedLink}

theorem follows_phase {phase phase' : Phase} {removal removal' : Removal} :
    Follows ⟨removal', .reporting src reported phase'⟩ ⟨removal, .reporting src reported phase⟩ := by
  refine ⟨by simp, ?_⟩
  rintro _ _ _ ⟨⟩
  exact ⟨phase, rfl⟩

theorem Flagged.congr (h : Flagged net t) (hfollows : Follows t' t)
    (hrouter : ∀ r, (net'.router r).id = (net.router r).id ∧ (net'.router r).connected = (net.router r).connected)
    (hconn : net'.connected = net.connected)
    (hlinks : ∀ id l, net'.links.lookup id = some l → (net.router (net'.link l).src).connected = true) :
    Flagged net' t' := by
  refine ⟨fun r => ?_, fun id l hl => ?_, fun r hr => ?_, fun src reported phase hstage => ?_⟩
  · rw [(hrouter r).1, (hrouter r).2, hconn]
    exact h.flag r
  · rw [(hrouter _).2]
    exact hlinks id l hl
  · rw [(hrouter r).1, hconn]
    exact h.mark r (hfollows.mark r hr)
  · obtain ⟨phase', hstage'⟩ := hfollows.report src reported phase hstage
    rw [(hrouter src).2]
    exact h.report src reported phase' hstage'

theorem router_updateLinks (f : RouterLinks → RouterLinks) (x : RouterRef) :
    ((updateLinks net r f).router x).id = (net.router x).id ∧
      ((updateLinks net r f).router x).connected = (net.router x).connected :=
  ⟨update_keeps Router.id rfl, update_keeps Router.connected rfl⟩

theorem Flagged.updateLinks (h : Flagged net t) (hfollows : Follows t' t) (f : RouterLinks → RouterLinks) :
    Flagged (updateLinks net r f) t' :=
  h.congr hfollows (router_updateLinks f) rfl h.source

theorem Flagged.task (h : Flagged net t) (hfollows : Follows t' t) : Flagged net t' :=
  h.congr hfollows (fun _ => ⟨rfl, rfl⟩) rfl h.source

theorem flagged_tableRemove (h : Flagged net t) (hfollows : Follows t' t) (hrem : tableRemove net l = some net') :
    Flagged net' t' := by
  unfold tableRemove at hrem
  split at hrem
  · cases hrem
  · split at hrem
    · cases hrem
      exact h.congr hfollows (fun _ => ⟨rfl, rfl⟩) rfl (forall_erase h.source)
    · cases hrem

theorem flagged_advanceRemoval {removal : Removal} (h : Flagged s.net t)
    (hstep : advanceRemoval s.net t.removal = some (net, removal)) : Flagged net { t with removal := removal } := by
  obtain ⟨⟨unindex, left⟩, stage⟩ := t
  have hfollows : Follows ⟨removal, stage⟩ ⟨⟨unindex, left⟩, stage⟩ := .of_stage rfl
  cases unindex with
  | some entry =>
    obtain ⟨l, srcDone⟩ := entry
    cases srcDone with
    | false =>
      cases hstep
      exact h.updateLinks hfollows _
    | true =>
      cases hstep
      unfold removeDst
      cases (s.net.link l).dst with
      | none => exact h.task hfollows
      | some dest => exact h.updateLinks hfollows _
  | none =>
    cases left with
    | nil => cases hstep
    | cons l left =>
      cases hrem : tableRemove s.net l with
      | none =>
        simp only [advanceRemoval, hrem] at hstep
        cases hstep
        exact h.task hfollows
      | some net' =>
        simp only [advanceRemoval, hrem] at hstep
        cases hstep
        exact flagged_tableRemove h hfollows hrem

theorem router_setConnected (net : Network) (r : RouterRef) (connected : Bool) (x : RouterRef) :
    ((setConnected net r connected).router x).id = (net.router x).id ∧
      ((setConnected net r connected).router x).connected =
        if x = r then connected else (net.router x).connected := by
  simp only [setConnected, Function.update_apply]
  split
  · rename_i hx
    rw [hx]
    exact ⟨rfl, rfl⟩
  · exact ⟨rfl, rfl⟩

theorem flagged_setConnected {connected : Bool} {table : IdTable RouterRef} (h : Flagged net t)
    (hself : connected = true ↔ table.lookup (net.router r).id = some r) (hothers : ∀ x, x ≠ r →
      (table.lookup (net.router x).id = some x ↔ net.connected.lookup (net.router x).id = some x))
    (hsource : ∀ id l, net.links.lookup id = some l → (net.link l).src = r → connected = true)
    (hmark : ∀ x, t'.stage ≠ .mark x) (hreport : ∀ src reported phase, t'.stage ≠ .reporting src reported phase) :
    Flagged { setConnected net r connected with connected := table } t' := by
  have hrouter := router_setConnected net r connected
  refine ⟨fun x => ?_, fun id l hl => ?_, fun x hx => absurd hx (hmark x),
    fun src reported phase hx => absurd hx (hreport src reported phase)⟩
  · rw [(hrouter x).1, (hrouter x).2]
    by_cases hx : x = r
    · rw [if_pos hx, hx]
      exact hself
    · rw [if_neg hx, h.flag x]
      exact (hothers x hx).symm
  · simp only [hrouter]
    split
    · rename_i hsrc
      exact hsource id l hl hsrc
    · exact h.source id l hl

theorem flagged_mark (h : Flagged net ⟨{}, .mark r⟩) : Flagged (markConnected net r) {} := by
  refine flagged_setConnected h (by simp) (fun x hx => ?_) (fun _ _ _ _ => rfl) (by simp) (by simp)
  rw [lookup_insert_eq]
  split
  · rename_i hid
    rw [hid, h.mark r rfl]
    simp [symm hx]
  · rfl

theorem flagged_unmark (h : Flagged net ⟨{}, .unmark r⟩)
    (hnone : ∀ id l, net.links.lookup id = some l → (net.link l).src ≠ r) :
    Flagged (markDisconnected net r) ⟨{}, .clear r⟩ := by
  refine flagged_setConnected h ?_ (fun x hx => ?_) (fun id l hl hsrc => absurd hsrc (hnone id l hl)) (by simp)
    (by simp)
  · by_cases hcur : net.connected.lookup (net.router r).id = some r <;> simp [hcur]
  · split
    · rename_i hcur
      rw [lookup_erase_eq]
      split
      · rename_i hid
        rw [hid, hcur]
        simp [symm hx]
      · rfl
    · rfl

theorem flagged_create {dst : Option RouterRef} (hbound : ∀ id l, net.links.lookup id = some l → l ≠ r)
    (h : Flagged net ⟨{}, .reporting src reported (.create dst)⟩) :
    Flagged (tableAdd net r (newLink src dst reported)) ⟨{}, .reporting src reported (.addSrc r)⟩ := by
  refine h.congr follows_phase (fun _ => ⟨rfl, rfl⟩) rfl (forall_insert (fun id l hl => ?_) ?_)
  · have hne := hbound id l hl
    simpa [tableAdd, hne] using h.source id l hl
  · simpa [tableAdd, newLink] using h.report src reported _ rfl

theorem stored_of_lookup (hinv : Inv s ts) {id : Id} (hl : s.net.links.lookup id = some l) :
    Stored (view s.net) l := by
  rw [Stored, (hinv.guarded.stored id l hl).1]
  exact hl

theorem flagged_advanceStage {stage : Stage} (hinv : Inv s [⟨{}, stage⟩]) (h : Flagged s.net ⟨{}, stage⟩)
    {lockFree : Bool} (hstep : advanceStage lockFree s stage = some (s', t')) : Flagged s'.net t' := by
  cases stage with
  | done => cases hstep
  | mark r =>
    cases hstep
    exact flagged_mark h
  | unmark r =>
    cases hstep
    refine flagged_unmark h (fun id l hl hsrc => ?_)
    have hleft := hinv.guarded.head_good.unmark r rfl l (stored_of_lookup hinv hl) hsrc
    simp at hleft
  | clear r =>
    cases hstep
    have hcleared : Flagged (clearLinks s.net r) {} := h.updateLinks follows_done _
    exact hcleared
  | reporting src reported phase =>
    cases phase with
    | lookup =>
      cases hstep
      exact h.task follows_phase
    | report dst =>
      cases lockFree with
      | false => cases hstep
      | true =>
        cases hstep
        unfold routerReportedLink
        split
        · exact h.task follows_phase
        · split
          · exact h.task follows_done
          · exact h.task follows_phase
    | create dst =>
      cases hstep
      exact flagged_create (fun id l hl => ne_of_lt (hinv.guarded.stored id l hl).2) h
    | addSrc l =>
      cases hstep
      have hadded : Flagged (addSrc s.net l) ⟨{}, .reporting src reported (.addDst l)⟩ :=
        h.updateLinks follows_phase _
      exact hadded
    | addDst l =>
      cases hstep
      have hadded : Flagged (addDst s.net l) {} := by
        unfold addDst
        cases (s.net.link l).dst with
        | none => exact h.task follows_done
        | some dest => exact h.updateLinks follows_done _
      exact hadded

theorem flagged_advance (hinv : Inv s [t]) (h : Flagged s.net t) (hstep : advance [] s t = some (s', t')) :
    Flagged s'.net t' := by
  unfold advance at hstep
  cases hrem : advanceRemoval s.net t.removal with
  | some next =>
    simp only [hrem] at hstep
    cases hstep
    exact flagged_advanceRemoval h hrem
  | none =>
    obtain ⟨removal, stage⟩ := t
    obtain rfl : removal = {} := advanceRemoval_none hrem
    exact flagged_advanceStage hinv h hstep

theorem router_buildRouterLinks {order : List LinkRef} {x : RouterRef} :
    ((buildRouterLinks net order r).router x).connected = (net.router x).connected := by
  induction order generalizing net with
  | nil => rfl
  | cons l order ih =>
    have hlink : ((buildRouterLink net r l).router x).connected = (net.router x).connected := by
      unfold buildRouterLink
      split
      · exact (router_updateLinks (fun links => links.add l (net.router (net.link l).src).id) x).2
      · rfl
    exact ih.trans hlink

theorem flagged_start {o : Operation} (h : Flagged s.net {}) (hpermit : permitted s.net o = true)
    (hstart : start s o = some (s', t)) : Flagged s'.net t := by
  cases o with
  | connectRouter r order =>
    simp only [start] at hstart
    split at hstart
    · cases hstart
      have hview := view_buildRouterLinks s.net r order
      have hids : ∀ x, ((buildRouterLinks s.net order r).router x).id = (s.net.router x).id :=
        congrFun (congrArg View.routerId hview)
      have hconn : ∀ id, (buildRouterLinks s.net order r).connected.lookup id = s.net.connected.lookup id :=
        congrFun (congrArg View.connected hview)
      refine ⟨fun x => ?_, fun id l hl => ?_, ?_, by simp⟩
      · rw [hids, router_buildRouterLinks, hconn]
        exact h.flag x
      · have hlink : s.net.links.lookup id = some l := (congrFun (congrArg View.table hview) id).symm.trans hl
        have hsrc : ((buildRouterLinks s.net order r).link l).src = (s.net.link l).src :=
          congrFun (congrArg View.src hview) l
        rw [router_buildRouterLinks, hsrc]
        exact h.source id l hlink
      · rintro x ⟨⟩
        rw [hids, hconn]
        exact of_decide_eq_true hpermit
    · cases hstart
  | disconnectRouter r =>
    cases hstart
    exact h.task ⟨by simp, by simp⟩
  | notifyExistingLink src reported =>
    cases hstart
    unfold notifyExistingLink
    split
    · rename_i hcur
      simp only [isCurrent, Bool.and_eq_true] at hcur
      refine ⟨h.flag, h.source, by simp, ?_⟩
      rintro _ _ _ ⟨⟩
      exact hcur.2
    · exact h
  | linkFaulted linkId =>
    simp only [start] at hstart
    split at hstart
    · cases hstart
      exact h
    · rename_i l hl
      cases hstart
      refine h.congr (.of_stage rfl) (fun _ => ⟨rfl, rfl⟩) rfl (fun id x hx => ?_)
      have hsrc : ((setFailed s.net l).link x).src = (s.net.link x).src :=
        congrFun (congrArg View.src (view_setFailed s.net l)) x
      rw [hsrc]
      exact h.source id x hx
  | scanForDeadLinks order =>
    simp only [start] at hstart
    split at hstart
    · cases hstart
      exact h.task (.of_stage rfl)
    · cases hstart

end Flags

section Reaching

theorem inv_drop (h : Inv s ({} :: ts)) : Inv s ts := by
  refine ⟨⟨h.guarded.stored, h.guarded.link, h.guarded.connected, fun r hr => h.guarded.marking r (marking_done.mpr hr),
    h.guarded.apart.of_cons, h.guarded.lock.of_cons, fun t ht => ?_⟩, ?_, h.keyed⟩
  · have hgood := h.guarded.good t (mem_cons_of_mem _ ht)
    rw [current_congr (fun r => marking_done)] at hgood
    exact hgood
  · refine h.indexed.congr (fun r => marking_done.symm) (fun l => ?_) (fun l => ?_) (fun l srcDone => ?_)
    · simp [addingSrc_cons]
    · simp [addingDst_cons]
    · simp [unindexing_cons]

/-- No operation is under way. -/
structure Settled (s : Shared) : Prop where
  inv : Inv s []
  flagged : Flagged s.net {}

theorem completes_keeps (h : Completes s t s') (hinv : Inv s [t]) (hflagged : Flagged s.net t) : Settled s' := by
  induction h with
  | done => exact ⟨inv_drop hinv, hflagged⟩
  | step hstep hrest ih => exact ih (inv_advance hinv hstep) (flagged_advance hinv hflagged hstep)

theorem orderly_alone {o : Operation} (h : permitted s.net o = true) : Orderly ⟨s, []⟩ o := by
  cases o with
  | notifyExistingLink src reported => exact fun _ => ⟨of_decide_eq_true h, fun u hu => absurd hu not_mem_nil⟩
  | connectRouter r order => exact fun u hu => absurd hu not_mem_nil
  | disconnectRouter r => exact fun u hu => absurd hu not_mem_nil
  | linkFaulted linkId => exact fun u hu => absurd hu not_mem_nil
  | scanForDeadLinks order => exact fun u hu => absurd hu not_mem_nil

theorem Reweighted.view_eq (h : Reweighted net net') : view net' = view net := by
  refine View.ext ?_ ?_ ?_ ?_ ?_ ?_ ?_ ?_ ?_
  · funext id
    exact congrArg (AList.lookup id) h.links
  · funext id
    exact congrArg (AList.lookup id) h.connected
  · funext r
    exact (h.router r).1
  · funext r
    exact congrArg RouterLinks.allLinks (h.router r).2.2
  · funext l
    exact (h.link l).1
  · funext l
    exact (h.link l).2.1
  · funext l
    exact (h.link l).2.2.1
  · funext l
    exact (h.link l).2.2.2.1
  · funext l
    exact (h.link l).2.2.2.2

theorem reached_keeps (h : Reached s) : Settled s := by
  induction h with
  | @init s hinit hflags =>
    refine ⟨inv_init hinit, fun r => ?_, fun id l hl => ?_, by simp, by simp⟩
    · simp [hflags, hinit.connected]
    · simp [hinit.links] at hl
  | operates _ hpermit hstart hcompletes ih =>
    exact completes_keeps hcompletes (inv_begins ih.inv (orderly_alone hpermit) hstart)
      (flagged_start ih.flagged hpermit hstart)
  | @changes s net _ hchange ih =>
    obtain ⟨hinv, hflagged⟩ := ih
    refine ⟨⟨?_, ?_, ?_⟩, ?_⟩
    · rw [hchange.view_eq]
      exact hinv.guarded
    · rw [hchange.view_eq]
      exact hinv.indexed
    · exact hinv.keyed.congr (fun r => (hchange.router r).2.2) (fun r => (hchange.router r).1)
        (fun _ l _ => ⟨(hchange.link l).2.2.1, (hchange.link l).2.2.2.1⟩)
    · refine hflagged.congr (.of_stage rfl) (fun r => ⟨(hchange.router r).1, (hchange.router r).2.1⟩)
        hchange.connected (fun id l hl => ?_)
      have hl' : s.net.links.lookup id = some l := hchange.links ▸ hl
      rw [(hchange.link l).2.2.1]
      exact hflagged.source id l hl'

end Reaching

section Live

theorem Settled.dstId (hs : Settled s) {id : Id} (hl : s.net.links.lookup id = some l)
    (hdst : (s.net.link l).dst = some r) : (s.net.router r).id = (s.net.link l).dstId :=
  ((hs.inv.guarded.link l (hs.inv.guarded.stored id l hl).2).2.2 r hdst).2

theorem current_iff (hs : Settled s) : Connected s.net r ↔ (s.net.router r).connected = true := by
  rw [hs.flagged.flag]
  constructor
  · rintro ⟨id, hid⟩
    have hrouter : (s.net.router r).id = id := (hs.inv.guarded.connected id r hid).1
    rw [hrouter]
    exact hid
  · exact fun h => ⟨_, h⟩

theorem quiet_nil : Quiet [] := fun _ ht => absurd ht not_mem_nil

theorem mem_allLinks_iff (hs : Settled s) (hr : (s.net.router r).connected = true) :
    l ∈ (s.net.router r).routerLinks.allLinks ↔ (∃ id, s.net.links.lookup id = some l) ∧
      ((s.net.link l).src = r ∨ (s.net.link l).dst = some r) := by
  have hcons := consistent_of_inv hs.inv quiet_nil
  have hlook := (hs.flagged.flag r).mp hr
  constructor
  · intro hl
    have hstored := hcons.held _ r hlook l hl
    refine ⟨⟨_, hstored⟩, ?_⟩
    refine (hs.inv.indexed.held r l hl).2.2.imp id (fun hdst => ?_)
    have hdst' : (s.net.link l).dstId = (s.net.router r).id := hdst
    exact (hcons.dest _ l r hstored (hdst'.symm ▸ hlook)).1
  · rintro ⟨⟨id, hid⟩, hends⟩
    have hstored := stored_of_lookup hs.inv hid
    rcases hends with rfl | hdst
    · have hone := (hs.inv.indexed.source l hstored).2 (fun ⟨t, ht, _⟩ => absurd ht not_mem_nil)
      exact List.count_pos_iff.mp (hone ▸ Nat.one_pos)
    · have hdstId : (s.net.router r).id = (s.net.link l).dstId := hs.dstId hid hdst
      have hone := (hcons.dest id l r hid (hdstId ▸ hlook)).2.1
      exact List.count_pos_iff.mp (hone ▸ Nat.one_pos)

theorem isLive_iff (hs : Settled s) {id : Id} (hl : s.net.links.lookup id = some l) :
    isLive s.net l = true ↔ ∃ d, (s.net.link l).dst = some d ∧ s.net.connected.lookup (s.net.link l).dstId = some d := by
  unfold isLive
  cases hdst : (s.net.link l).dst with
  | none => simp
  | some d =>
    have hid : (s.net.router d).id = (s.net.link l).dstId := hs.dstId hl hdst
    simp only [Option.some.injEq, exists_eq_left']
    rw [hs.flagged.flag d, hid]

theorem whole (hs : Settled s) (a b : RouterRef) (ha : Connected s.net a)
    (hb : Connected s.net b) : Whole s.net a b := by
  intro l hl
  rw [current_iff hs] at ha hb
  obtain ⟨hall, hkey⟩ := mem_filter.mp ((hs.inv.keyed a _).mem_iff.mp hl)
  obtain ⟨⟨id, hid⟩, hends⟩ := (mem_allLinks_iff hs ha).mp hall
  rw [isLive_iff hs hid]
  have hcons := consistent_of_inv hs.inv quiet_nil
  by_cases hsrc : (s.net.link l).src = a
  · have hdstId : (s.net.link l).dstId = (s.net.router b).id := by simpa [otherId, hsrc] using hkey
    have hlook : s.net.getConnected (s.net.link l).dstId = some b := by
      rw [hdstId]
      exact (hs.flagged.flag b).mp hb
    exact ⟨b, (hcons.dest id l b hid hlook).1, hlook⟩
  · have hdst := hends.resolve_left hsrc
    have hdstId : (s.net.router a).id = (s.net.link l).dstId := hs.dstId hid hdst
    refine ⟨a, hdst, ?_⟩
    rw [← hdstId]
    exact (hs.flagged.flag a).mp ha

theorem live_indexed (hs : Settled s) : PathLinks.Indexed (live s.net) where
  connected id r h := by
    have hid : (s.net.router r).id = id := (hs.inv.guarded.connected id r h).1
    exact ⟨hid, (current_iff hs).mp ⟨id, h⟩⟩
  src id l h := (hs.flagged.flag _).mp (hs.flagged.source id l (links_live.mp h).1)
  dst id l h := (isLive_iff hs (links_live.mp h).1).mp (links_live.mp h).2
  allLinks id r h l := by
    have hr := (current_iff hs).mp ⟨id, h⟩
    have hmem : l ∈ ((live s.net).router r).routerLinks.allLinks ↔
        l ∈ (s.net.router r).routerLinks.allLinks ∧ isLive s.net l = true := mem_filter
    rw [hmem, mem_allLinks_iff hs hr]
    simp only [links_live, exists_and_right]
    exact and_right_comm
  linkByRouter id r h other l := by
    have hr := (current_iff hs).mp ⟨id, h⟩
    have hmem : l ∈ ((live s.net).router r).routerLinks.linksFor other ↔
        l ∈ (s.net.router r).routerLinks.linksFor other ∧ isLive s.net l = true := by
      rw [show ((live s.net).router r).routerLinks = liveRouterLinks s.net (s.net.router r).routerLinks from rfl,
        linksFor_live, mem_filter]
    rw [hmem, (hs.inv.keyed r other).mem_iff, mem_filter, mem_allLinks_iff hs hr]
    simp only [links_live, exists_and_right, decide_eq_true_eq]
    constructor
    · rintro ⟨⟨⟨hstored, hends⟩, hkey⟩, hlive⟩
      refine ⟨⟨hstored, hlive⟩, ?_⟩
      by_cases hsrc : (s.net.link l).src = r
      · exact .inl ⟨hsrc, (if_pos hsrc).symm.trans hkey⟩
      · exact .inr ⟨hends.resolve_left hsrc, (if_neg hsrc).symm.trans hkey⟩
    · rintro ⟨⟨hstored, hlive⟩, hends⟩
      refine ⟨⟨⟨hstored, hends.imp And.left And.left⟩, ?_⟩, hlive⟩
      rcases hends with ⟨hsrc, hdst⟩ | ⟨hdst, hid⟩
      · exact (if_pos hsrc).trans hdst
      · obtain ⟨linkId, hlink⟩ := hstored
        have hne : (s.net.link l).src ≠ r := by
          intro hsrc
          refine dst_ne_src hs.inv.guarded (hs.inv.guarded.stored linkId l hlink).2 ?_
          rw [hsrc]
          exact hdst
        exact (if_neg hne).trans hid

end Live

section Survival

open Reroute

variable {order : IterationOrder} {first last : RouterRef} {path : Path}

theorem chooseLinks_live (hs : Settled s) {nodes : List RouterRef} {cost : Int}
    (h : LeastCost.sequenceCost (PathLinks.entering (live s.net)) nodes = some cost) :
    chooseLinks s.net nodes = chooseLinks (live s.net) nodes := by
  induction nodes generalizing cost with
  | nil => rfl
  | cons a nodes ih =>
    cases nodes with
    | nil => rfl
    | cons b nodes =>
      obtain ⟨c, total, hc, htotal, -⟩ := LeastCost.sequenceCost_cons_cons.mp h
      obtain ⟨ha, hb⟩ := (live_indexed hs).entering_connected hc
      simp only [chooseLinks, leastExpensiveLink_live (whole hs a b ha hb), ih htotal]
      rfl

/-- The path of a circuit is renewed exactly if there is a route between the
routers at its ends, as they were. -/
theorem updatePath_spec (hs : Settled s) (hcost : NonNegative s.net)
    (hfirst : path.nodes.head? = some first) (hlast : path.nodes.getLast? = some last) :
    ∃ result, updatePath s.net order path = some result ∧ ((∃ path', result = .ok path') ↔
        ∃ nodes cost, IsRoute (live s.net) first last nodes cost ∧ cost < Network.maxInt32) ∧
      ∀ path', result = .ok path' → path'.nodes.head? = some first ∧ path'.nodes.getLast? = some last := by
  have hidx := live_indexed hs
  have hlive : NonNegative (live s.net) := fun id l hl => hcost id l (links_live.mp hl).1
  obtain ⟨result, hres, hsel⟩ := PathSelection.shortestPath_selected hidx hlive order first last
  rw [shortestPath_live (whole hs)] at hres
  have hupdate : updatePath s.net order path =
      some (result.bind (fun found => setLinks s.net { path with nodes := found.1, links := [] })) := by
    simp [updatePath, hfirst, hlast, hres]
  refine ⟨_, hupdate, ?_⟩
  cases result with
  | error err =>
    refine ⟨⟨?_, ?_⟩, fun path' h => by cases h⟩
    · rintro ⟨path', h⟩
      cases h
    · rintro ⟨nodes, cost, hroute, hlt⟩
      have := hsel.unroutable err rfl nodes cost hroute
      omega
  | ok found =>
    obtain ⟨hroute, hlt⟩ := hsel.route found.1 found.2 rfl
    obtain ⟨path', hset, hreal⟩ := PathSelection.setLinks_realised hidx
      { path with nodes := found.1, links := [] } rfl hroute.cost
    have hset' : setLinks s.net { path with nodes := found.1, links := [] } = .ok path' := by
      rw [← hset, setLinks, setLinks, chooseLinks_live hs hroute.cost]
    refine ⟨⟨fun _ => ⟨found.1, found.2, hroute, hlt⟩, fun _ => ⟨path', hset'⟩⟩, fun path'' h => ?_⟩
    obtain rfl : path' = path'' := Except.ok.inj (hset'.symm.trans h)
    rw [hreal.along]
    exact ⟨hroute.first, hroute.last⟩

/-- The ends of two paths have the same ids. -/
def SameEnds (net : Network) (path path' : Path) : Prop :=
  path'.nodes.head?.map (fun r => (net.router r).id) = path.nodes.head?.map (fun r => (net.router r).id) ∧
    path'.nodes.getLast?.map (fun r => (net.router r).id) = path.nodes.getLast?.map (fun r => (net.router r).id)

/-- The circuit is neither dropped when it is rerouted nor passed over by the
scan for better paths. -/
structure Survives (net : Network) (circuit : Circuit) : Prop where
  updates : ∀ order, ∃ path, updatePath net order circuit.path = some (.ok path) ∧ SameEnds net circuit.path path
  link : ∀ orders l circuits, (∀ c ∈ circuits, c.path.nodes ≠ []) → circuit ∈ circuits →
    ∃ left, rerouteLink net orders l circuits = some left ∧
      ∃ c ∈ left, c.id = circuit.id ∧ SameEnds net circuit.path c.path
  tries : ∀ orders n, ∃ c, rerouteCircuitWithTries net orders circuit (n + 1) = some (some c) ∧
    c.id = circuit.id ∧ SameEnds net circuit.path c.path
  scan : ∀ orders ceiling minCostDelta circuits, (∀ c ∈ circuits, c.path.nodes ≠ []) → circuit ∈ circuits →
    circuits.length ≤ ceiling → ∃ found path, getRerouteCandidates net orders ceiling minCostDelta circuits = some found ∧
      updatePath net (orders circuit.id) circuit.path = some (.ok path) ∧
        ((circuit, path) ∈ found ↔ improves net minCostDelta circuit path = true)

variable {circuit : Circuit}
  (h : ∀ order, ∃ path, updatePath net order circuit.path = some (.ok path) ∧ SameEnds net circuit.path path)

include h in
theorem rerouteCircuit_survives (order : IterationOrder) :
    ∃ c, rerouteCircuit net order circuit = some (.ok c) ∧ c.id = circuit.id ∧
    SameEnds net circuit.path c.path := by
  unfold rerouteCircuit
  split
  · exact ⟨circuit, rfl, rfl, rfl, rfl⟩
  · obtain ⟨path, hpath, hends⟩ := h order
    rw [hpath]
    exact ⟨{ circuit with path := path }, rfl, rfl, hends⟩

variable (hdefined : ∀ order path, path.nodes ≠ [] → ∃ result, updatePath net order path = some result)

include hdefined h in
theorem rerouteLink_survives (orders : Id → IterationOrder) {circuits : List Circuit}
    (hnodes : ∀ c ∈ circuits, c.path.nodes ≠ []) :
    ∃ left, rerouteLink net orders l circuits = some left ∧
      (circuit ∈ circuits → ∃ c ∈ left, c.id = circuit.id ∧ SameEnds net circuit.path c.path) := by
  induction circuits with
  | nil => exact ⟨[], rfl, fun hmem => absurd hmem not_mem_nil⟩
  | cons x circuits ih =>
    obtain ⟨left, hleft, hkept⟩ := ih (fun c hc => hnodes c (mem_cons_of_mem x hc))
    have hlater : ∀ y, circuit ∈ circuits → ∃ c ∈ y :: left, c.id = circuit.id ∧ SameEnds net circuit.path c.path := by
      intro y hmem
      obtain ⟨c, hc, hsame⟩ := hkept hmem
      exact ⟨c, mem_cons_of_mem y hc, hsame⟩
    by_cases hl : l ∈ x.path.links
    · have hsome : ∃ result, rerouteCircuit net (orders x.id) x = some result := by
        unfold rerouteCircuit
        split
        · exact ⟨_, rfl⟩
        · obtain ⟨result, hres⟩ := hdefined (orders x.id) x.path (hnodes x mem_cons_self)
          rw [hres]
          exact ⟨_, rfl⟩
      obtain ⟨result, hres⟩ := hsome
      cases result with
      | ok y =>
        refine ⟨y :: left, by simp [rerouteLink, hl, hres, hleft], fun hmem => ?_⟩
        rcases mem_cons.mp hmem with rfl | hmem
        · obtain ⟨c, hc, hsame⟩ := rerouteCircuit_survives h (orders circuit.id)
          obtain rfl : y = c := Except.ok.inj (Option.some.inj (hres.symm.trans hc))
          exact ⟨y, mem_cons_self, hsame⟩
        · exact hlater y hmem
      | error err =>
        refine ⟨left, by simp [rerouteLink, hl, hres, hleft], fun hmem => ?_⟩
        rcases mem_cons.mp hmem with rfl | hmem
        · obtain ⟨c, hc, -⟩ := rerouteCircuit_survives h (orders circuit.id)
          cases hres.symm.trans hc
        · exact hkept hmem
    · refine ⟨x :: left, by simp [rerouteLink, hl, hleft], fun hmem => ?_⟩
      rcases mem_cons.mp hmem with rfl | hmem
      · exact ⟨circuit, mem_cons_self, rfl, rfl, rfl⟩
      · exact hlater x hmem

include hdefined in
theorem candidates_spec (orders : Id → IterationOrder) (ceiling : Nat) (minCostDelta : Int)
    (circuits : List Circuit) (count : Nat) (hnodes : ∀ c ∈ circuits, c.path.nodes ≠ [])
    (hroom : count + circuits.length ≤ ceiling) :
    ∃ found, candidates net orders ceiling minCostDelta count circuits = some found ∧
      ∀ circuit path, (circuit, path) ∈ found ↔ circuit ∈ circuits ∧
        updatePath net (orders circuit.id) circuit.path = some (.ok path) ∧
          improves net minCostDelta circuit path = true := by
  induction circuits generalizing count with
  | nil => exact ⟨[], rfl, by simp⟩
  | cons x circuits ih =>
    have hrest := fun c hc => hnodes c (mem_cons_of_mem x hc)
    rw [List.length_cons] at hroom
    have hskip (hnot : ∀ path, updatePath net (orders x.id) x.path = some (.ok path) →
          improves net minCostDelta x path ≠ true)
        (hsame : candidates net orders ceiling minCostDelta count (x :: circuits) =
          candidates net orders ceiling minCostDelta count circuits) :
        ∃ found, candidates net orders ceiling minCostDelta count (x :: circuits) = some found ∧
          ∀ circuit path, (circuit, path) ∈ found ↔ circuit ∈ x :: circuits ∧
            updatePath net (orders circuit.id) circuit.path = some (.ok path) ∧
              improves net minCostDelta circuit path = true := by
      obtain ⟨found, hfound, hmem⟩ := ih count hrest (by omega)
      refine ⟨found, hsame.trans hfound, fun circuit path => ?_⟩
      rw [hmem, mem_cons]
      constructor
      · exact fun h => ⟨.inr h.1, h.2⟩
      · rintro ⟨rfl | hc, hpath, himproves⟩
        · exact absurd himproves (hnot path hpath)
        · exact ⟨hc, hpath, himproves⟩
    obtain ⟨result, hres⟩ := hdefined (orders x.id) x.path (hnodes x mem_cons_self)
    cases result with
    | error err => exact hskip (fun path hpath => by cases hres.symm.trans hpath) (by simp [candidates, hres])
    | ok updated =>
      by_cases himproves : improves net minCostDelta x updated = true
      · obtain ⟨found, hfound, hmem⟩ := ih (count + 1) hrest (by omega)
        have hlt : count < ceiling := by omega
        refine ⟨(x, updated) :: found, by simp [candidates, hres, hlt, himproves, hfound],
          fun circuit path => ?_⟩
        rw [mem_cons, hmem, mem_cons]
        constructor
        · rintro (heq | h)
          · cases heq
            exact ⟨.inl rfl, hres, himproves⟩
          · exact ⟨.inr h.1, h.2⟩
        · rintro ⟨rfl | hc, hpath, himproves'⟩
          · obtain rfl : updated = path := Except.ok.inj (Option.some.inj (hres.symm.trans hpath))
            exact .inl rfl
          · exact .inr ⟨hc, hpath, himproves'⟩
      · refine hskip (fun path hpath => ?_) (by simp [candidates, hres, himproves])
        obtain rfl : updated = path := Except.ok.inj (Option.some.inj (hres.symm.trans hpath))
        exact himproves

include hdefined h in
theorem survives_of_updates : Survives net circuit := by
  refine ⟨h, fun orders l circuits hnodes hmem => ?_, fun orders n => ?_, ?_⟩
  · obtain ⟨left, hleft, hkept⟩ := rerouteLink_survives h hdefined orders hnodes
    exact ⟨left, hleft, hkept hmem⟩
  · obtain ⟨c, hc, hsame⟩ := rerouteCircuit_survives h (orders n)
    exact ⟨c, by simp [rerouteCircuitWithTries, hc], hsame⟩
  · intro orders ceiling minCostDelta circuits hnodes hmem hroom
    have hperm : (circuits.mergeSort (fun a b =>
        calculateCircuitCost net b.path ≤ calculateCircuitCost net a.path)).Perm circuits := List.mergeSort_perm _ _
    obtain ⟨found, hfound, hiff⟩ := candidates_spec hdefined orders ceiling minCostDelta _ 0
      (fun c hc => hnodes c (hperm.mem_iff.mp hc)) (by rw [hperm.length_eq]; omega)
    obtain ⟨path, hpath, -⟩ := h (orders circuit.id)
    refine ⟨found, path, hfound, hpath, ?_⟩
    rw [hiff]
    simp [hmem, hpath]

/-- A circuit survives in every state reached exactly if its ends are one
router object, or both are the objects connected now and joined by a route. -/
theorem reroute_survives_iff (hreached : Reached s) (hcost : NonNegative s.net) (circuit : Circuit)
    (hfirst : circuit.path.nodes.head? = some first) (hlast : circuit.path.nodes.getLast? = some last) :
    Survives s.net circuit ↔ first = last ∨
      s.net.getConnected (s.net.router first).id = some first ∧ s.net.getConnected (s.net.router last).id = some last ∧
        ∃ nodes cost, IsRoute (live s.net) first last nodes cost ∧ cost < Network.maxInt32 := by
  have hs := reached_keeps hreached
  have hroutes : (first = last ∨
      s.net.getConnected (s.net.router first).id = some first ∧ s.net.getConnected (s.net.router last).id = some last ∧
        ∃ nodes cost, IsRoute (live s.net) first last nodes cost ∧ cost < Network.maxInt32) ↔
      ∃ nodes cost, IsRoute (live s.net) first last nodes cost ∧ cost < Network.maxInt32 := by
    constructor
    · rintro (rfl | ⟨-, -, hroute⟩)
      · refine ⟨[first], 0, ⟨rfl, rfl, by simp, rfl, fun r hr hsrc => absurd (List.mem_singleton.mp hr) hsrc⟩, by decide⟩
      · exact hroute
    · rintro ⟨nodes, cost, hroute, hlt⟩
      by_cases heq : first = last
      · exact .inl heq
      · obtain ⟨hsrc, hdst⟩ := hroute.connected (live_indexed hs) heq
        have hsrc' := (hs.flagged.flag first).mp ((current_iff hs).mp hsrc)
        have hdst' := (hs.flagged.flag last).mp ((current_iff hs).mp hdst)
        exact .inr ⟨hsrc', hdst', nodes, cost, hroute, hlt⟩
  rw [hroutes]
  constructor
  · intro hsurvives
    obtain ⟨path, hpath, -⟩ := hsurvives.updates sameOrder
    obtain ⟨result, hresult, hiff, -⟩ := updatePath_spec hs hcost hfirst hlast
    exact hiff.mp ⟨path, Option.some.inj (hresult.symm.trans hpath)⟩
  · intro hroute
    refine survives_of_updates (fun order => ?_) (fun order path hnodes => ?_)
    · obtain ⟨result, hresult, hiff, hends⟩ := updatePath_spec hs hcost hfirst hlast
      obtain ⟨path, rfl⟩ := hiff.mpr hroute
      obtain ⟨hhead, hend⟩ := hends path rfl
      refine ⟨path, hresult, ?_⟩
      rw [SameEnds, hhead, hend, hfirst, hlast]
      exact ⟨rfl, rfl⟩
    · obtain ⟨result, hresult, -⟩ := updatePath_spec hs hcost (List.head?_eq_some_head hnodes)
        (List.getLast?_eq_some_getLast hnodes)
      exact ⟨result, hresult⟩

end Survival

section Runs

def finish : Nat → Shared → Task → Option Shared
  | 0, _, _ => none
  | n + 1, s, t => if t = {} then some s else (advance [] s t).bind (fun next => finish n next.1 next.2)

theorem finish_completes {n : Nat} (h : finish n s t = some s') : Completes s t s' := by
  induction n generalizing s t with
  | zero => cases h
  | succ n ih =>
    simp only [finish] at h
    split at h
    · rename_i ht
      cases h
      subst ht
      exact .done
    · obtain ⟨next, hstep, hrest⟩ := Option.bind_eq_some_iff.mp h
      exact .step hstep (ih hrest)

/-- Operations one after the other, each of a few steps. -/
def perform (s : Shared) (o : Operation) : Option Shared :=
  if permitted s.net o then (start s o).bind (fun next => finish 9 next.1 next.2) else none

theorem Reached.performs {ops : List Operation} (h : Reached s) (hops : ops.foldlM perform s = some s') : Reached s' := by
  induction ops generalizing s with
  | nil =>
    cases hops
    exact h
  | cons o ops ih =>
    obtain ⟨next, hnext, hrest⟩ := Option.bind_eq_some_iff.mp hops
    unfold perform at hnext
    split at hnext
    · rename_i hpermit
      obtain ⟨⟨s₁, t⟩, hstart, hfinish⟩ := Option.bind_eq_some_iff.mp hnext
      exact ih (.operates h hpermit hstart (finish_completes hfinish)) hrest
    · cases hnext

theorem reached_twoRouters : Reached twoRouters := .init initial_twoRouters (fun _ => rfl)

/-- Both routers connect and the first one reports a link. -/
def joined : List Operation := [.connectRouter 0 [], .connectRouter 1 [], .notifyExistingLink 0 reportedToB]

def throughCircuit : Reroute.Circuit where
  id := "c"
  path := { nodes := [0, 1], links := [0], ingressId := "in", egressId := "out" }

def updatesTo (net : Network) (path path' : Path) : Bool :=
  match updatePath net sameOrder path with
  | some (.ok found) => found = path'
  | _ => false

theorem updatesTo_iff {path path' : Path} :
    updatesTo net path path' = true ↔ updatePath net sameOrder path = some (.ok path') := by
  unfold updatesTo
  split
  · rename_i found hfound
    simp [hfound]
  · rename_i hnone
    simp only [Bool.false_eq_true, false_iff]
    exact hnone path'

def costsNonNegative (net : Network) : Bool := (pairs net.links).all (fun entry => 0 ≤ (net.link entry.2).getCost)

theorem nonNegative_of_pairs (h : costsNonNegative net = true) : NonNegative net := by
  intro id l hl
  have hentry := List.all_eq_true.mp h (id, l) (mem_pairs.mpr hl)
  exact of_decide_eq_true hentry

def routed (net : Network) (a b : RouterRef) (cost : Int) : Bool :=
  LeastCost.sequenceCost (PathLinks.entering (live net)) [a, b] = some cost

theorem isRoute_routed {a b : RouterRef} {cost : Int} (hne : a ≠ b) (h : routed net a b cost = true) :
    IsRoute (live net) a b [a, b] cost := by
  refine ⟨rfl, rfl, by simp [hne], of_decide_eq_true h, fun r hr hsrc hdst => ?_⟩
  simp [hsrc, hdst] at hr

theorem joined_circuit_survives : ∃ s, Reached s ∧ Survives s.net throughCircuit := by
  have hrun : ((joined.foldlM perform twoRouters).map (fun s => costsNonNegative s.net &&
      s.net.getConnected (s.net.router 0).id == some 0 && s.net.getConnected (s.net.router 1).id == some 1 &&
        routed s.net 0 1 1)) = some true := by
    decide +kernel
  obtain ⟨s, hs, hcheck⟩ := Option.map_eq_some_iff.mp hrun
  simp only [Bool.and_eq_true, beq_iff_eq] at hcheck
  obtain ⟨⟨⟨hcost, hfirst⟩, hlast⟩, hroute⟩ := hcheck
  have hreached := reached_twoRouters.performs hs
  refine ⟨s, hreached, ?_⟩
  exact (reroute_survives_iff hreached (nonNegative_of_pairs hcost) throughCircuit rfl rfl).mpr
    (.inr ⟨hfirst, hlast, [0, 1], 1, isRoute_routed (by decide) hroute, by decide⟩)

def refused (net : Network) (path : Path) : Bool :=
  match updatePath net sameOrder path with
  | some (.error _) => true
  | _ => false

def dropped (net : Network) : Bool :=
  net.getConnected "a" == some 0 && net.getConnected "b" == some 2 && routed net 0 2 1 &&
    refused net throughCircuit.path &&
    Reroute.rerouteLink net (fun _ => sameOrder) 0 [throughCircuit] == some [] &&
    Reroute.rerouteCircuitWithTries net (fun _ => sameOrder) throughCircuit 3 == some none &&
    Reroute.getRerouteCandidates net (fun _ => sameOrder) 1 (-1000) [throughCircuit] == some []

/-- The second router loses its connection and comes back. -/
def reconnected : List Operation := [.disconnectRouter 1, .connectRouter 2 [0]]

theorem reconnect_drops_circuit : ∃ s s', Reached s ∧
    updatePath s.net sameOrder throughCircuit.path = some (.ok throughCircuit.path) ∧
    reconnected.foldlM perform s = some s' ∧ Reached s' ∧
    s'.net.getConnected "a" = some 0 ∧ s'.net.getConnected "b" = some 2 ∧
    (∃ nodes cost, IsRoute (live s'.net) 0 2 nodes cost ∧ cost < Network.maxInt32) ∧
    ¬ (∃ path, updatePath s'.net sameOrder throughCircuit.path = some (.ok path)) ∧
    Reroute.rerouteLink s'.net (fun _ => sameOrder) 0 [throughCircuit] = some [] ∧
    Reroute.rerouteCircuitWithTries s'.net (fun _ => sameOrder) throughCircuit 3 = some none ∧
    Reroute.getRerouteCandidates s'.net (fun _ => sameOrder) 1 (-1000) [throughCircuit] = some [] := by
  have hrun : ((joined.foldlM perform twoRouters).bind (fun s => (reconnected.foldlM perform s).map (fun s' =>
      updatesTo s.net throughCircuit.path throughCircuit.path && dropped s'.net))) = some true := by
    decide +kernel
  obtain ⟨s, hs, hrest⟩ := Option.bind_eq_some_iff.mp hrun
  obtain ⟨s', hs', hcheck⟩ := Option.map_eq_some_iff.mp hrest
  simp only [dropped, Bool.and_eq_true, beq_iff_eq] at hcheck
  obtain ⟨hbefore, ⟨⟨⟨⟨⟨hfirst, hlast⟩, hroute⟩, hrefused⟩, hlink⟩, htries⟩, hscan⟩ := hcheck
  have hreached := reached_twoRouters.performs hs
  refine ⟨s, s', hreached, updatesTo_iff.mp hbefore, hs', hreached.performs hs', hfirst, hlast,
    ⟨[0, 2], 1, isRoute_routed (by decide) hroute, by decide⟩, ?_, hlink, htries, hscan⟩
  rintro ⟨path, hpath⟩
  simp [refused, hpath] at hrefused

end Runs

end Zt.RerouteRuns
