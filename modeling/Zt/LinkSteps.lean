import Zt.LinkConsistency

namespace Zt.LinkSteps

open Topology LinkIndexes LinkViews LinkConsistency
open EdgeCtrl (Id)
open Function (update update_apply)
open List (mem_cons_of_mem mem_cons pairwise_cons)

variable {v v' : View} {next : LinkRef} {seen : List RouterRef} {ts ts' others : List Task} {t t' u : Task}
  {l x : LinkRef} {r : RouterRef} {left : List LinkRef} {stage : Stage}

variable {held : RouterRef → List LinkRef} {other : RouterRef} {id : Id} {current : RouterRef → Prop}

section Frames

theorem mem_update_filter : x ∈ update held r ((held r).filter (fun y => y ≠ l)) other ↔
    x ∈ held other ∧ (other = r → x ≠ l) := by
  by_cases hr : other = r
  · subst hr
    simp
  · simp [hr]

theorem count_update_filter (hx : x ≠ l) :
    (update held r ((held r).filter (fun y => y ≠ l)) other).count x = (held other).count x := by
  rw [update_apply]
  by_cases hr : other = r
  · subst hr
    rw [if_pos rfl, List.count_filter (by simpa using hx)]
  · rw [if_neg hr]

end Frames

section Removing

variable {srcDone : Bool}

theorem handles_unindex : Handles ⟨⟨some (l, srcDone), left⟩, stage⟩ x ↔ x ∈ left ∨ x = l := by
  simp [Handles, eq_comm]

theorem handles_left : Handles ⟨⟨none, left⟩, stage⟩ x ↔ x ∈ left := by simp [Handles]

theorem not_stored_of_unindex
    (h : Guarded v next seen (⟨⟨some (l, srcDone), left⟩, stage⟩ :: others)) : ¬ Stored v l :=
  h.head_good.unindex l srcDone rfl

theorem sound_removeSrc (h : Sound v next seen (⟨⟨some (l, false), left⟩, stage⟩ :: others)) :
    Sound (v.setHeld (v.src l) ((v.held (v.src l)).filter (fun x => x ≠ l))) next seen
      (⟨⟨some (l, true), left⟩, stage⟩ :: others) := by
  have hne : ∀ x, Stored v x → x ≠ l := by
    rintro x hx rfl
    exact not_stored_of_unindex h.guarded hx
  refine ⟨.setHeld ?_, ?_⟩
  · refine h.guarded.proceed (by simp) (fun x hx => ?_) ?_ (fun x hx _ => hx)
    · rw [handles_unindex] at hx ⊢
      exact hx
    · rintro x - ⟨rfl, rfl⟩
      exact not_stored_of_unindex h.guarded
  · refine h.indexed.shrink (.of_stage rfl) (fun r x hx => (mem_update_filter.mp hx).1)
      (fun x hx => count_update_filter (hne x hx)) (fun x r hx _ => count_update_filter (hne x hx)) ?_ ?_
    · rintro x hx ⟨⟩
      exact absurd rfl ((mem_update_filter.mp hx).2 rfl)
    · rintro x r - _ _ ⟨⟩
      exact ⟨true, rfl⟩

theorem guarded_removeDst (h : Guarded v next seen (⟨⟨some (l, true), left⟩, stage⟩ :: others)) :
    Guarded v next seen (⟨⟨none, left⟩, stage⟩ :: others) := by
  refine h.proceed (by simp) (fun x hx => ?_) (by simp) (fun x hx _ => hx)
  rw [handles_left] at hx
  exact handles_unindex.mpr (.inl hx)

/-- The link has left the index of its destination when it is no longer looked
after. -/
theorem indexed_removeDst (h : Sound v next seen (⟨⟨some (l, true), left⟩, stage⟩ :: others))
    (hsub : ∀ r, ∀ x ∈ held r, x ∈ v.held r) (hcount : ∀ x r, x ≠ l → (held r).count x = (v.held r).count x)
    (hgone : ∀ r, v.dst l = some r → l ∉ held r) :
    Indexed { v with held := held } next seen (⟨⟨none, left⟩, stage⟩ :: others) := by
  have hne : ∀ x, Stored v x → x ≠ l := by
    rintro x hx rfl
    exact not_stored_of_unindex h.guarded hx
  refine h.indexed.shrink (.of_stage rfl) hsub (fun x hx => hcount x _ (hne x hx))
    (fun x r hx _ => hcount x r (hne x hx)) ?_ ?_
  · rintro x _ ⟨⟩
  · rintro x r - hx hdst ⟨⟩
    exact absurd hx (hgone r hdst)

theorem sound_removeFails (h : Sound v next seen (⟨⟨none, l :: left⟩, stage⟩ :: others))
    (hfail : v.table (v.linkId l) ≠ some l) : Sound v next seen (⟨⟨none, left⟩, stage⟩ :: others) := by
  refine ⟨h.guarded.proceed (by simp) (fun x hx => ?_) (by simp) (fun x hx hstored => ?_),
    h.indexed.replace (.of_stage rfl) rfl⟩
  · rw [handles_left] at hx ⊢
    exact mem_cons_of_mem l hx
  · rcases mem_cons.mp hx with rfl | hx
    · exact absurd hstored hfail
    · exact hx

/-- A report that has links to remove is about to create one. -/
theorem locks_of_busy {src : RouterRef} {reported : ReportedLink}
    (hgood : Good v next seen current u) (hbusy : u.removal ≠ {}) (hreps : Reports u src reported) :
    u.locks = true := by
  obtain ⟨phase, hstage⟩ := hreps
  have hphase := (hgood.report _ _ _ hstage).2.2
  cases phase with
  | create dst => simp [Task.locks, hstage]
  | lookup => exact absurd hphase hbusy
  | report dst => exact absurd hphase.1 hbusy
  | addSrc l => exact absurd hphase.1 hbusy
  | addDst l => exact absurd hphase.1 hbusy

theorem not_adding_of_handled (h : Guarded v next seen (t :: others)) (hbusy : t.removal ≠ {}) (hl : Handles t l) :
    ¬ Adding (t :: others) l := by
  -- a report that adds the link has the lock, and nothing else may remove the link meanwhile
  have hadd : ∀ u ∈ t :: others, ∀ src reported, Reports u src reported → u.locks = true →
      ¬ AddGood v u.removal src reported l := by
    intro u hu src reported hreps hlocks hadd
    obtain ⟨hempty, htable, hiter, -, -⟩ := hadd
    rcases mem_cons.mp hu with rfl | hu
    · exact hbusy hempty
    refine (h.head_apart u hu).2 (.removesReported hreps ⟨l, hl, (h.stored _ _ htable).1, hiter⟩ ?_)
    intro src' reported' hother
    simp [h.head_lock (locks_of_busy h.head_good hbusy hother) u hu] at hlocks
  rintro (⟨u, hu, src, reported, hstage⟩ | ⟨u, hu, src, reported, hstage⟩) <;>
    exact hadd u hu src reported ⟨_, hstage⟩ (by simp [Task.locks, hstage]) ((h.good u hu).report _ _ _ hstage).2.2

theorem table_setTable_none {other : Id} {w : LinkRef} :
    (v.setTable id none).table other = some w ↔ other ≠ id ∧ v.table other = some w := by
  simp only [View.setTable, update_apply]
  by_cases h : other = id <;> simp

theorem stored_setTable_none (hl : Stored v l) : Stored (v.setTable (v.linkId l) none) x ↔ Stored v x ∧ x ≠ l := by
  unfold Stored
  rw [table_setTable_none]
  constructor
  · rintro ⟨hne, hx⟩
    refine ⟨hx, ?_⟩
    rintro rfl
    exact hne rfl
  · rintro ⟨hx, hne⟩
    refine ⟨fun hid => hne ?_, hx⟩
    have hsame : some x = some l := hx.symm.trans ((congrArg v.table hid).trans hl)
    exact Option.some.inj hsame

theorem guarded_setTable_none (h : Guarded v next seen ts) (hl : Stored v l) (hadding : ¬ Adding ts l) :
    Guarded (v.setTable (v.linkId l) none) next seen ts := by
  have htable : ∀ id w, (v.setTable (v.linkId l) none).table id = some w → v.table id = some w :=
    fun id w hw => (table_setTable_none.mp hw).2
  have hstored : ∀ x, Stored (v.setTable (v.linkId l) none) x → Stored v x :=
    fun x hx => ((stored_setTable_none hl).mp hx).1
  refine ⟨fun id x hx => h.stored id x (htable id x hx), h.link, h.connected, h.marking, ?_, h.lock, ?_⟩
  · refine h.apart.imp (fun hapart => ?_)
    exact .congr (v := v) rfl (fun _ _ => ⟨rfl, rfl⟩) hapart
  · intro t ht
    have hgood := h.good t ht
    refine ⟨fun x hx => ⟨(hgood.handles x hx).1, fun w hw => (hgood.handles x hx).2 w (htable _ _ hw)⟩,
      fun x srcDone hx hs => hgood.unindex x srcDone hx (hstored x hs),
      fun r hr x hx => hgood.unmark r hr x (hstored x hx),
      fun r hr => ⟨fun x hx => (hgood.clear r hr).1 x (hstored x hx), (hgood.clear r hr).2⟩, ?_⟩
    intro src reported phase hstage
    obtain ⟨hseen, hne, hphase⟩ := hgood.report src reported phase hstage
    have hkept : ∀ x, Adding ts x → AddGood v t.removal src reported x →
        AddGood (v.setTable (v.linkId l) none) t.removal src reported x := by
      rintro x hx ⟨hempty, hstore, hrest⟩
      refine ⟨hempty, table_setTable_none.mpr ⟨?_, hstore⟩, hrest⟩
      intro hid
      have hsame : l = x := Option.some.inj (hl.symm.trans (hid ▸ hstore))
      exact hadding (hsame ▸ hx)
    refine ⟨hseen, hne, ?_⟩
    cases phase with
    | lookup => exact hphase
    | report dst => exact hphase
    | create dst => exact ⟨hphase.1, fun x hx => hphase.2 x (htable _ _ hx)⟩
    | addSrc x => exact hkept x (.inl ⟨t, ht, src, reported, hstage⟩) hphase
    | addDst x => exact hkept x (.inr ⟨t, ht, src, reported, hstage⟩) hphase

theorem stored_of_removed (h : Guarded v next seen (⟨⟨none, l :: left⟩, stage⟩ :: others))
    (hfound : ∃ w, v.table (v.linkId l) = some w ∧ v.iteration w = v.iteration l) : Stored v l := by
  obtain ⟨w, hw, hiter⟩ := hfound
  have hhandles := h.head_good.handles l (handles_left.mpr List.mem_cons_self)
  rcases hhandles.2 w hw with rfl | hne
  · exact hw
  · exact absurd hiter hne

theorem indexed_remove (h : Indexed v next seen (⟨⟨none, l :: left⟩, stage⟩ :: others)) (hl : Stored v l) :
    Indexed (v.setTable (v.linkId l) none) next seen (⟨⟨some (l, false), left⟩, stage⟩ :: others) := by
  have halike : Alike ⟨⟨some (l, false), left⟩, stage⟩ ⟨⟨none, l :: left⟩, stage⟩ := .of_stage rfl
  have hcur : ∀ r, Current (v.setTable (v.linkId l) none) (⟨⟨some (l, false), left⟩, stage⟩ :: others) r →
      Current v (⟨⟨none, l :: left⟩, stage⟩ :: others) r := by
    intro r hr
    rw [← current_congr halike.marking]
    exact hr
  have hadding : ∀ x, Adding (⟨⟨some (l, false), left⟩, stage⟩ :: others) x ↔
      Adding (⟨⟨none, l :: left⟩, stage⟩ :: others) x :=
    fun x => or_congr (halike.addingSrc x) (halike.addingDst x)
  have hunindex : ∀ x srcDone, Unindexing (⟨⟨none, l :: left⟩, stage⟩ :: others) x srcDone →
      Unindexing (⟨⟨some (l, false), left⟩, stage⟩ :: others) x srcDone := by
    intro x srcDone hx
    rcases unindexing_cons.mp hx with hhead | hothers
    · cases hhead
    · exact unindexing_cons.mpr (.inr hothers)
  have hremoved : Unindexing (⟨⟨some (l, false), left⟩, stage⟩ :: others) l false := unindexing_cons.mpr (.inl rfl)
  refine ⟨h.held, ?_, ?_, ?_, ?_⟩
  · intro x hx
    rw [halike.addingSrc]
    exact h.source x ((stored_setTable_none hl).mp hx).1
  · intro x hx
    rcases h.sourceHeld x hx with hstored | hun
    · by_cases hxl : x = l
      · subst hxl
        exact .inr hremoved
      · exact .inl ((stored_setTable_none hl).mpr ⟨hstored, hxl⟩)
    · exact .inr (hunindex x false hun)
  · intro x r hx hr hid
    rw [hadding]
    exact h.dest x r ((stored_setTable_none hl).mp hx).1 (hcur r hr) hid
  · intro x r hr hx hid
    rcases h.destHeld x r (hcur r hr) hx hid with hstored | ⟨⟨srcDone, hun⟩, hdst⟩
    · by_cases hxl : x = l
      · subst hxl
        exact .inr ⟨⟨false, hremoved⟩, (h.dest x r hstored (hcur r hr) hid.symm).1⟩
      · exact .inl ((stored_setTable_none hl).mpr ⟨hstored, hxl⟩)
    · exact .inr ⟨⟨srcDone, hunindex x srcDone hun⟩, hdst⟩

theorem sound_remove (h : Sound v next seen (⟨⟨none, l :: left⟩, stage⟩ :: others)) (hl : Stored v l) :
    Sound (v.setTable (v.linkId l) none) next seen (⟨⟨some (l, false), left⟩, stage⟩ :: others) := by
  have hadding := not_adding_of_handled h.guarded (by simp) (handles_left.mpr List.mem_cons_self)
  refine ⟨(guarded_setTable_none h.guarded hl hadding).proceed (by simp) (fun x hx => ?_) ?_
    (fun x hx hstored => ?_), indexed_remove h.indexed hl⟩
  · rw [handles_unindex] at hx
    rw [handles_left, mem_cons]
    exact hx.symm
  · rintro x - ⟨rfl, rfl⟩ hstored
    exact ((stored_setTable_none hl).mp hstored).2 rfl
  · rcases mem_cons.mp hx with rfl | hx
    · exact absurd rfl ((stored_setTable_none hl).mp hstored).2
    · exact hx

end Removing

section Connecting

theorem marking_of_head (hstage : ∀ r, stage ≠ .mark r) : Marking (⟨{}, stage⟩ :: others) r ↔ Marking others r := by
  rw [marking_cons]
  exact ⟨fun h => h.resolve_left (hstage r), .inr⟩

theorem marking_done : Marking (⟨{}, .done⟩ :: others) r ↔ Marking others r :=
  marking_of_head (fun _ => Stage.noConfusion)

/-- Marking makes visible the router that has taken over its links before. -/
theorem current_mark (h : Guarded v next seen (⟨{}, .mark r⟩ :: others)) :
    Current (v.setConnected (v.routerId r) (some r)) (⟨{}, .done⟩ :: others) other ↔
      Current v (⟨{}, .mark r⟩ :: others) other := by
  have hothers : ∀ other, Marking others other → v.routerId other ≠ v.routerId r := by
    rintro other ⟨u, hu, hstage⟩ hid
    exact (h.head_apart u hu).1 (.connects rfl hstage hid.symm)
  have hconn : (v.setConnected (v.routerId r) (some r)).connected (v.routerId other) = some other ↔
      other = r ∨ v.routerId other ≠ v.routerId r ∧ v.connected (v.routerId other) = some other := by
    simp only [View.setConnected]
    by_cases hid : v.routerId other = v.routerId r
    · simp [hid, eq_comm]
    · have hne : other ≠ r := fun heq => hid (heq ▸ rfl)
      simp [hid, hne]
  have hids : (v.setConnected (v.routerId r) (some r)).routerId = v.routerId := rfl
  have hhead : ∀ other, Marking (⟨{}, .mark r⟩ :: others) other ↔ other = r ∨ Marking others other := by
    intro other
    rw [marking_cons]
    simp [eq_comm]
  simp only [Current, marking_done, hids, hconn, hhead]
  constructor
  · rintro (hmark | ⟨rfl | ⟨hne, hlook⟩, hall⟩)
    · exact .inl (.inr hmark)
    · exact .inl (.inl rfl)
    · refine .inr ⟨hlook, ?_⟩
      rintro x (rfl | hx)
      · exact hne.symm
      · exact hall x hx
  · rintro ((rfl | hmark) | ⟨hlook, hall⟩)
    · exact .inr ⟨.inl rfl, hothers⟩
    · exact .inl hmark
    · exact .inr ⟨.inr ⟨(hall r (.inl rfl)).symm, hlook⟩, fun x hx => hall x (.inr hx)⟩

theorem good_done : Good v next seen current ⟨{}, .done⟩ := by
  refine ⟨?_, ?_, ?_, ?_, ?_⟩ <;> simp [Handles]

/-- Fewer routers are current when one leaves. -/
theorem sound_setConnected {other : Option RouterRef} {stage' : Stage} (h : Sound v next seen (⟨{}, stage⟩ :: others))
    (hconn : ∀ r, other = some r → v.routerId r = id ∧ r ∈ seen)
    (hcur : ∀ r, Current (v.setConnected id other) (⟨{}, stage'⟩ :: others) r → Current v (⟨{}, stage⟩ :: others) r)
    (hmark : ∀ r, stage' ≠ .mark r) (hlocks : Task.locks ⟨{}, stage'⟩ = false)
    (hreps : ∀ src reported phase, stage ≠ .reporting src reported phase ∧ stage' ≠ .reporting src reported phase)
    (hweak : Weaker v ⟨{}, stage'⟩ ⟨{}, stage⟩)
    (hgood : Good v next seen (Current (v.setConnected id other) (⟨{}, stage'⟩ :: others)) ⟨{}, stage'⟩) :
    Sound (v.setConnected id other) next seen (⟨{}, stage'⟩ :: others) := by
  obtain ⟨hg, hi⟩ := h
  have hsrc : ∀ l, AddingSrc (⟨{}, stage'⟩ :: others) l ↔ AddingSrc (⟨{}, stage⟩ :: others) l := by
    simp [addingSrc_cons, hreps]
  have hdst : ∀ l, AddingDst (⟨{}, stage'⟩ :: others) l ↔ AddingDst (⟨{}, stage⟩ :: others) l := by
    simp [addingDst_cons, hreps]
  refine ⟨⟨hg.stored, hg.link, ?_, ?_, ?_, ?_, ?_⟩, ⟨hi.held, ?_, ?_, ?_, ?_⟩⟩
  · intro id' r hr
    simp only [View.setConnected, update_apply] at hr
    split at hr
    · rename_i hid
      exact hid ▸ hconn r hr
    · exact hg.connected id' r hr
  · intro r hr
    exact hg.marking r (marking_cons.mpr (.inr ((marking_cons.mp hr).resolve_left (hmark r))))
  · have hapart : (⟨{}, stage'⟩ :: others).Pairwise (Apart v) :=
      pairwise_cons.mpr ⟨fun u hu => (hg.head_apart u hu).weaken hweak, hg.apart.of_cons⟩
    refine hapart.imp (fun hu => ?_)
    exact .congr (v := v) rfl (fun _ _ => ⟨rfl, rfl⟩) hu
  · exact pairwise_cons.mpr ⟨fun u hu hboth => by simp [hlocks] at hboth, hg.lock.of_cons⟩
  · rw [List.forall_mem_cons]
    refine ⟨.congr (v := v) rfl rfl rfl rfl rfl rfl hgood, fun u hu => ?_⟩
    have hother := (hg.good u (mem_cons_of_mem _ hu)).mono hcur
    exact .congr (v := v) rfl rfl rfl rfl rfl rfl hother
  · intro x hx
    rw [hsrc]
    exact hi.source x hx
  · intro x hx
    have hsource := hi.sourceHeld x hx
    rwa [unindexing_cons] at hsource ⊢
  · intro x r hx hr hid
    rw [Adding, hsrc, hdst]
    exact hi.dest x r hx (hcur r hr) hid
  · intro x r hr hx hid
    have hdest := hi.destHeld x r (hcur r hr) hx hid
    simp only [unindexing_cons] at hdest ⊢
    exact hdest

theorem weaker_done : Weaker v ⟨{}, .done⟩ t := by
  refine ⟨?_, ?_, ?_, ?_⟩ <;> simp [Disconnects, Reports, Removes, Handles]

theorem sound_mark (h : Sound v next seen (⟨{}, .mark r⟩ :: others)) :
    Sound (v.setConnected (v.routerId r) (some r)) next seen (⟨{}, .done⟩ :: others) := by
  have hseen := h.guarded.marking r (marking_cons.mpr (.inl rfl))
  refine sound_setConnected h ?_ (fun other => (current_mark h.guarded).mp) (by simp) rfl (by simp) weaker_done
    good_done
  rintro other ⟨⟩
  exact ⟨rfl, hseen⟩

/-- What is connected under the id of a router once that router is gone. -/
def withoutRouter (v : View) (r : RouterRef) : Option RouterRef :=
  if v.connected (v.routerId r) = some r then none else v.connected (v.routerId r)

theorem withoutRouter_some (h : withoutRouter v r = some other) :
    v.connected (v.routerId r) = some other ∧ other ≠ r := by
  unfold withoutRouter at h
  split at h
  · cases h
  · rename_i hne
    refine ⟨h, ?_⟩
    rintro rfl
    exact hne h

theorem current_unmark (h : Guarded v next seen (⟨{}, .unmark r⟩ :: others))
    (hother : Current (v.setConnected (v.routerId r) (withoutRouter v r)) (⟨{}, .clear r⟩ :: others) other) :
    Current v (⟨{}, .unmark r⟩ :: others) other ∧ other ≠ r := by
  have hmark : ∀ x, Marking (⟨{}, .clear r⟩ :: others) x ↔ Marking others x :=
    fun x => marking_of_head (fun _ => Stage.noConfusion)
  have hmark' : ∀ x, Marking (⟨{}, .unmark r⟩ :: others) x ↔ Marking others x :=
    fun x => marking_of_head (fun _ => Stage.noConfusion)
  simp only [Current, hmark, hmark'] at hother ⊢
  rcases hother with hmarking | ⟨hconn, hall⟩
  · refine ⟨.inl hmarking, ?_⟩
    rintro rfl
    obtain ⟨u, hu, hstage⟩ := hmarking
    exact (h.head_apart u hu).2 (.connectsDisconnects hstage (.inl rfl))
  · simp only [View.setConnected, update_apply] at hconn
    split at hconn
    · rename_i hid
      obtain ⟨hlook, hne⟩ := withoutRouter_some hconn
      exact ⟨.inr ⟨hid ▸ hlook, hall⟩, hne⟩
    · rename_i hid
      refine ⟨.inr ⟨hconn, hall⟩, ?_⟩
      rintro rfl
      exact hid rfl

theorem sound_unmark (h : Sound v next seen (⟨{}, .unmark r⟩ :: others)) :
    Sound (v.setConnected (v.routerId r) (withoutRouter v r)) next seen (⟨{}, .clear r⟩ :: others) := by
  refine sound_setConnected h ?_ (fun other hother => (current_unmark h.guarded hother).1) (by simp) rfl (by simp) ?_ ?_
  · intro other hother
    exact h.guarded.connected _ _ (withoutRouter_some hother).1
  · refine ⟨by simp, ?_, by simp [Reports], by simp [Removes, Handles]⟩
    rintro other (hstage | hstage)
    · cases hstage
    · cases hstage
      exact .inl rfl
  · refine ⟨by simp [Handles], by simp, by simp, ?_, by simp⟩
    rintro other ⟨⟩
    refine ⟨fun l hl hsrc => ?_, fun hcur => (current_unmark h.guarded hcur).2 rfl⟩
    have hleft := h.guarded.head_good.unmark r rfl l hl hsrc
    simp at hleft

theorem guarded_done (h : Guarded v next seen (t :: others)) (hmark : ∀ r, t.stage ≠ .mark r) :
    Guarded v next seen (⟨{}, .done⟩ :: others) :=
  h.weaken (by simp [hmark]) weaker_done (by simp [Task.locks]) good_done

theorem sound_clear (h : Sound v next seen (⟨{}, .clear r⟩ :: others)) :
    Sound (v.setHeld r []) next seen (⟨{}, .done⟩ :: others) := by
  obtain ⟨hsrc, hcur⟩ := h.guarded.head_good.clear r rfl
  have hheld : ∀ other, other ≠ r → update v.held r [] other = v.held other :=
    fun other hne => Function.update_of_ne hne _ _
  refine ⟨(guarded_done h.guarded (by simp)).setHeld, h.indexed.shrink ?_ ?_ ?_ ?_ (by simp) (by simp)⟩
  · constructor <;> simp
  · intro other x hx
    by_cases hr : other = r
    · subst hr
      simp at hx
    · rwa [hheld other hr] at hx
  · intro x hx
    rw [hheld _ (hsrc x hx)]
  · intro x other hx hother
    rw [hheld]
    rintro rfl
    exact hcur hother

end Connecting

section Reporting

variable {src : RouterRef} {reported : ReportedLink} {phase phase' : Phase} {removal : Removal} {dst : Option RouterRef}

theorem weaker_phase : Weaker v ⟨removal, .reporting src reported phase'⟩ ⟨{}, .reporting src reported phase⟩ := by
  refine ⟨by simp, by simp [Disconnects], ?_, fun _ _ => .inl ⟨src, reported, phase', rfl⟩⟩
  rintro src' reported' ⟨_, hstage⟩
  cases hstage
  exact ⟨phase, rfl⟩

theorem good_phase (h : src ∈ seen ∧ reported.destRouterId ≠ v.routerId src ∧
    PhaseGood v seen current {} src reported phase) : Good v next seen current ⟨{}, .reporting src reported phase⟩ := by
  refine ⟨by simp [Handles], by simp, by simp, by simp, ?_⟩
  rintro src' reported' phase' ⟨⟩
  exact h

theorem sound_lookup (h : Sound v next seen (⟨{}, .reporting src reported .lookup⟩ :: others)) :
    Sound v next seen (⟨{}, .reporting src reported (.report (v.connected reported.destRouterId))⟩ :: others) := by
  obtain ⟨hsrc, hne, -⟩ := h.guarded.head_good.report src reported .lookup rfl
  refine ⟨h.guarded.weaken (by simp) weaker_phase (by simp [Task.locks]) (good_phase ⟨hsrc, hne, rfl,
    fun d hd => (h.guarded.connected _ d hd).symm, ?_⟩), h.indexed.replace (by constructor <;> simp) rfl⟩
  -- a router that is connecting is not visible yet, but then no report leads to it
  rintro r (hmark | ⟨hconn, -⟩) hid
  · obtain ⟨u, hu, hstage⟩ := (marking_of_head (fun _ => Stage.noConfusion)).mp hmark
    exact absurd (.connectsDest hstage ⟨_, rfl⟩ hid.symm) (h.guarded.head_apart u hu).2
  · rw [← hid]
    exact hconn

theorem sound_report_create (h : Sound v next seen (⟨{}, .reporting src reported (.report dst)⟩ :: others))
    (hfree : ∀ u ∈ others, u.locks = false) (hrem : removal = {} ∧ v.table reported.id = none ∨
      ∃ old, removal = { left := [old] } ∧ v.table reported.id = some old) :
    Sound v next seen (⟨removal, .reporting src reported (.create dst)⟩ :: others) := by
  obtain ⟨hsrc, hne, -, hdst⟩ := h.guarded.head_good.report src reported (.report dst) rfl
  have hunindex : removal.unindex = none := by
    rcases hrem with ⟨rfl, -⟩ | ⟨-, rfl, -⟩ <;> rfl
  refine ⟨h.guarded.replace (by simp) (fun u hu => (h.guarded.head_apart u hu).weaken weaker_phase)
    (fun u hu hboth => by simp [hfree u hu] at hboth) ⟨?_, by simp [hunindex], by simp, by simp, ?_⟩,
    h.indexed.replace (by constructor <;> simp) hunindex⟩
  · intro l hl
    rcases hrem with ⟨rfl, -⟩ | ⟨old, rfl, hold⟩
    · simp [Handles] at hl
    · rw [handles_left, List.mem_singleton] at hl
      subst hl
      obtain ⟨hid, hlt⟩ := h.guarded.stored _ _ hold
      refine ⟨hlt, fun w hw => .inl ?_⟩
      rw [hid, hold] at hw
      exact Option.some.inj hw.symm
  · rintro src' reported' - ⟨⟩
    refine ⟨hsrc, hne, hdst, fun l hl => ?_⟩
    rcases hrem with ⟨-, hnone⟩ | ⟨old, rfl, hold⟩
    · simp [hnone] at hl
    · simp [Option.some.inj (hl.symm.trans hold)]

theorem sound_report_known (h : Sound v next seen (⟨{}, .reporting src reported (.report dst)⟩ :: others)) :
    Sound v next seen (⟨{}, .done⟩ :: others) :=
  ⟨guarded_done h.guarded (by simp), h.indexed.replace (by constructor <;> simp) rfl⟩

/-- With the lock, no other report adds a link. -/
theorem not_adding_others (h : Guarded v next seen (t :: others)) (ht : t.locks = true) (l : LinkRef) :
    ¬ AddingSrc others l ∧ ¬ AddingDst others l := by
  constructor <;> rintro ⟨u, hu, src, reported, hstage⟩ <;>
    simpa [Task.locks, hstage] using h.head_lock ht u hu

theorem addingSrc_phase (hothers : ¬ AddingSrc others x) :
    AddingSrc (⟨removal, .reporting src reported phase⟩ :: others) x ↔ phase = .addSrc x := by
  simp [addingSrc_cons, hothers]

theorem adding_phase (hothers : ¬ AddingSrc others x ∧ ¬ AddingDst others x) :
    Adding (⟨removal, .reporting src reported phase⟩ :: others) x ↔ phase = .addSrc x ∨ phase = .addDst x := by
  simp [Adding, addingSrc_cons, addingDst_cons, hothers]

def created (v : View) (next : LinkRef) (src : RouterRef) (dst : Option RouterRef) (reported : ReportedLink) : View :=
  (v.setTable reported.id (some next)).setLink next (newLink src dst reported)

theorem created_old (hx : x ≠ next) : (created v next src dst reported).linkId x = v.linkId x ∧
    (created v next src dst reported).iteration x = v.iteration x ∧
    (created v next src dst reported).src x = v.src x ∧ (created v next src dst reported).dstId x = v.dstId x ∧
    (created v next src dst reported).dst x = v.dst x := by
  simp [created, View.setLink, View.setTable, hx]

theorem created_new : (created v next src dst reported).linkId next = reported.id ∧
    (created v next src dst reported).iteration next = reported.iteration ∧
    (created v next src dst reported).src next = src ∧
    (created v next src dst reported).dstId next = reported.destRouterId ∧
    (created v next src dst reported).dst next = dst := by
  simp [created, View.setLink, newLink]

theorem created_table :
    (created v next src dst reported).table id = if id = reported.id then some next else v.table id := by
  simp [created, View.setLink, View.setTable, update_apply]

theorem stored_created (hnone : v.table reported.id = none) :
    Stored (created v next src dst reported) x ↔ x = next ∨ x ≠ next ∧ Stored v x := by
  by_cases hx : x = next
  · subst hx
    simp [Stored, created_new.1, created_table]
  · simp only [Stored, (created_old hx).1, created_table, hx, ne_eq]
    by_cases hid : v.linkId x = reported.id
    · simp [hid, hnone, Ne.symm hx]
    · simp [hid]

theorem not_removes_others (h : Guarded v next seen (t :: others)) (ht : t.locks = true)
    (hreps : Reports t src reported) : ∀ u ∈ others, ¬ Removes v u reported := by
  rintro u hu ⟨l, hl, hids⟩
  have hbusy : u.removal ≠ {} := by
    intro hempty
    simp [Handles, hempty] at hl
  refine (h.head_apart u hu).1 (.removesReported hreps ⟨l, hl, hids⟩ (fun src reported hother => ?_))
  have hlocks := locks_of_busy (h.good u (mem_cons_of_mem _ hu)) hbusy hother
  simp [h.head_lock ht u hu] at hlocks

theorem good_created (hbound : ∀ id l, v.table id = some l → l < next)
    (hnone : v.table reported.id = none) (hgood : Good v next seen current u) (hlock : u.locks = false)
    (hrems : ¬ Removes v u reported) (hdisc : ¬ Disconnects u src) :
    Good (created v next src dst reported) (next + 1) seen current u := by
  have hold : ∀ l, Handles u l → l ≠ next := fun l hl => ne_of_lt (hgood.handles l hl).1
  refine ⟨?_, ?_, ?_, ?_, ?_⟩
  · intro l hl
    obtain ⟨hlt, hsame⟩ := hgood.handles l hl
    refine ⟨Nat.lt_succ_of_lt hlt, fun w hw => ?_⟩
    rw [(created_old (hold l hl)).1, created_table] at hw
    rw [(created_old (hold l hl)).2.1]
    split at hw
    · rename_i hid
      obtain rfl := Option.some.inj hw
      refine .inr (fun hiter => hrems ⟨l, hl, hid, ?_⟩)
      exact hiter.symm.trans created_new.2.1
    · rw [(created_old (ne_of_lt (hbound _ _ hw))).2.1]
      exact hsame w hw
  · intro l srcDone hl hstored
    rcases (stored_created hnone).mp hstored with rfl | ⟨-, hstored⟩
    · exact hold _ (.inr ⟨srcDone, hl⟩) rfl
    · exact hgood.unindex l srcDone hl hstored
  · intro r hr l hl hsrc
    rcases (stored_created hnone).mp hl with rfl | ⟨hne, hstored⟩
    · rw [created_new.2.2.1] at hsrc
      subst hsrc
      exact absurd (.inl hr) hdisc
    · rw [(created_old hne).2.2.1] at hsrc
      exact hgood.unmark r hr l hstored hsrc
  · intro r hr
    refine ⟨fun l hl hsrc => ?_, (hgood.clear r hr).2⟩
    rcases (stored_created hnone).mp hl with rfl | ⟨hne, hstored⟩
    · rw [created_new.2.2.1] at hsrc
      subst hsrc
      exact absurd (.inr hr) hdisc
    · rw [(created_old hne).2.2.1] at hsrc
      exact (hgood.clear r hr).1 l hstored hsrc
  · intro src' reported' phase hstage
    obtain ⟨hseen, hne, hphase⟩ := hgood.report src' reported' phase hstage
    refine ⟨hseen, hne, ?_⟩
    cases phase with
    | lookup => exact hphase
    | report dst => exact hphase
    | create dst => simp [Task.locks, hstage] at hlock
    | addSrc l => simp [Task.locks, hstage] at hlock
    | addDst l => simp [Task.locks, hstage] at hlock

theorem marking_phase {removal' : Removal} (r : RouterRef) :
    Marking (⟨removal', .reporting src reported phase'⟩ :: others) r ↔
      Marking (⟨removal, .reporting src reported phase⟩ :: others) r := by
  simp [marking_cons]

theorem current_created :
    Current (created v next src dst reported) (⟨{}, .reporting src reported (.addSrc next)⟩ :: others) =
      Current v (⟨{}, .reporting src reported (.create dst)⟩ :: others) :=
  current_congr marking_phase

theorem table_of_create (h : Guarded v next seen (⟨{}, .reporting src reported (.create dst)⟩ :: others)) :
    v.table reported.id = none := by
  obtain ⟨-, -, -, hleft⟩ := h.head_good.report src reported (.create dst) rfl
  cases hl : v.table reported.id with
  | none => rfl
  | some l => simpa using hleft l hl

theorem guarded_create (h : Guarded v next seen (⟨{}, .reporting src reported (.create dst)⟩ :: others)) :
    Guarded (created v next src dst reported) (next + 1) seen
      (⟨{}, .reporting src reported (.addSrc next)⟩ :: others) := by
  have hlocks : Task.locks ⟨{}, .reporting src reported (.create dst)⟩ = true := rfl
  obtain ⟨hsrc, hne, hdst, -⟩ := h.head_good.report src reported (.create dst) rfl
  refine ⟨?_, ?_, h.connected, fun r hr => h.marking r ((marking_phase r).mp hr), ?_, ?_, ?_⟩
  · intro id l hl
    rw [created_table] at hl
    split at hl
    · rename_i hid
      obtain rfl := Option.some.inj hl
      exact ⟨created_new.1.trans hid.symm, Nat.lt_succ_self _⟩
    · obtain ⟨hid, hlt⟩ := h.stored id l hl
      exact ⟨(created_old (ne_of_lt hlt)).1.trans hid, Nat.lt_succ_of_lt hlt⟩
  · intro l hl
    by_cases hnew : l = next
    · subst hnew
      rw [created_new.2.2.1, created_new.2.2.2.1, created_new.2.2.2.2]
      exact ⟨hsrc, hne, hdst.1⟩
    · rw [(created_old hnew).2.2.1, (created_old hnew).2.2.2.1, (created_old hnew).2.2.2.2]
      exact h.link l (lt_of_le_of_ne (Nat.le_of_lt_succ hl) hnew)
  · have hapart : (⟨{}, .reporting src reported (.addSrc next)⟩ :: others).Pairwise (Apart v) :=
      pairwise_cons.mpr ⟨fun u hu => (h.head_apart u hu).weaken weaker_phase, h.apart.of_cons⟩
    have hold : ∀ u ∈ ⟨{}, .reporting src reported (.addSrc next)⟩ :: others, ∀ l, Handles u l → l ≠ next := by
      intro u hu l hl
      rcases mem_cons.mp hu with rfl | hu
      · simp [Handles] at hl
      · exact ne_of_lt ((h.good u (mem_cons_of_mem _ hu)).handles l hl).1
    refine List.Pairwise.imp_of_mem (fun {a b} ha hb hab => ?_) hapart
    refine .congr (v := v) rfl (fun l hl => ?_) hab
    have hlold : l ≠ next := hl.elim (hold a ha l) (hold b hb l)
    exact ⟨(created_old hlold).1, (created_old hlold).2.1⟩
  · refine pairwise_cons.mpr ⟨fun u hu hboth => ?_, h.lock.of_cons⟩
    simp [h.head_lock hlocks u hu] at hboth
  · rw [current_created, List.forall_mem_cons]
    constructor
    · refine good_phase ⟨hsrc, hne, rfl, ?_, created_new.2.1, created_new.2.2.1, created_new.2.2.2.1⟩
      rw [created_table, if_pos rfl]
    · intro u hu
      refine good_created (fun id l hl => (h.stored id l hl).2) (table_of_create h) (h.good u (mem_cons_of_mem _ hu))
        (h.head_lock hlocks u hu) (not_removes_others h hlocks ⟨_, rfl⟩ u hu) (fun hdisc => ?_)
      exact (h.head_apart u hu).2 (.disconnectsSource hdisc ⟨_, rfl⟩)

theorem indexed_create (h : Sound v next seen (⟨{}, .reporting src reported (.create dst)⟩ :: others)) :
    Indexed (created v next src dst reported) (next + 1) seen
      (⟨{}, .reporting src reported (.addSrc next)⟩ :: others) := by
  obtain ⟨hg, hi⟩ := h
  have hdst := (hg.head_good.report src reported (.create dst) rfl).2.2.1
  have hstored : ∀ x, Stored (created v next src dst reported) x ↔ x = next ∨ x ≠ next ∧ Stored v x :=
    fun x => stored_created (table_of_create hg)
  have hothers := not_adding_others hg rfl
  have hheld : ∀ r, ∀ x ∈ v.held r, x ≠ next := fun r x hx => ne_of_lt (hi.held r x hx).1
  have hcount : ∀ r, (v.held r).count next = 0 :=
    fun r => List.count_eq_zero.mpr (fun hmem => hheld r next hmem rfl)
  refine ⟨?_, ?_, ?_, ?_, ?_⟩
  · intro r x hx
    have hnew : x ≠ next := hheld r x hx
    obtain ⟨hlt, hrest⟩ := hi.held r x hx
    rw [(created_old hnew).2.2.1, (created_old hnew).2.2.2.1]
    exact ⟨Nat.lt_succ_of_lt hlt, hrest⟩
  · intro x hx
    rw [addingSrc_phase (hothers x).1, Phase.addSrc.injEq]
    rcases (hstored x).mp hx with rfl | ⟨hnew, hx⟩
    · exact ⟨fun _ => hcount _, absurd rfl⟩
    · rw [(created_old hnew).2.2.1]
      exact ⟨fun hn => absurd hn.symm hnew, fun _ => (hi.source x hx).2 (by simp [addingSrc_phase (hothers x).1])⟩
  · intro x hx
    have hnew : x ≠ next := hheld _ x hx
    rw [(created_old hnew).2.2.1] at hx
    have hsource := hi.sourceHeld x hx
    rw [unindexing_cons] at hsource ⊢
    rw [hstored]
    exact hsource.imp_left (fun hx => .inr ⟨hnew, hx⟩)
  · intro x r hx hr hid
    rw [adding_phase (hothers x)]
    rw [current_created] at hr
    rcases (hstored x).mp hx with rfl | ⟨hnew, hx⟩
    · rw [created_new.2.2.2.1] at hid
      rw [created_new.2.2.2.2]
      exact ⟨hdst.2 r hr hid, fun _ => hcount r, absurd (.inl rfl)⟩
    · rw [(created_old hnew).2.2.2.1] at hid
      rw [(created_old hnew).2.2.2.2]
      obtain ⟨hdest, -, hone⟩ := hi.dest x r hx hr hid
      exact ⟨hdest, fun hn => absurd hn (by simp [symm hnew]), fun _ => hone (by simp [adding_phase (hothers x)])⟩
  · intro x r hr hx hid
    have hnew : x ≠ next := hheld r x hx
    rw [current_created] at hr
    rw [(created_old hnew).2.2.2.1] at hid
    have hdest := hi.destHeld x r hr hx hid
    simp only [unindexing_cons] at hdest ⊢
    rw [hstored, (created_old hnew).2.2.2.2]
    exact hdest.imp_left (fun hx => .inr ⟨hnew, hx⟩)

theorem addGood_stored (hstored : ∀ id l, v.table id = some l → v.linkId l = id ∧ l < next)
    (h : AddGood v removal src reported l) : Stored v l ∧ l < next := by
  obtain ⟨hid, hlt⟩ := hstored _ _ h.2.1
  refine ⟨?_, hlt⟩
  rw [Stored, hid]
  exact h.2.1

theorem mem_update_append : x ∈ update held r (held r ++ [l]) other ↔ x ∈ held other ∨ other = r ∧ x = l := by
  by_cases hr : other = r
  · subst hr
    simp
  · simp [hr]

theorem count_update_append : (update held r (held r ++ [l]) other).count x =
    (held other).count x + if other = r ∧ x = l then 1 else 0 := by
  by_cases hr : other = r
  · subst hr
    by_cases hx : x = l
    · subst hx
      simp
    · simp [hx, Ne.symm hx]
  · simp [hr]

theorem sound_addSrc (h : Sound v next seen (⟨{}, .reporting src reported (.addSrc l)⟩ :: others)) :
    Sound (v.setHeld (v.src l) (v.held (v.src l) ++ [l])) next seen
      (⟨{}, .reporting src reported (.addDst l)⟩ :: others) := by
  obtain ⟨hg, hi⟩ := h
  have hgood := hg.head_good.report src reported (.addSrc l) rfl
  obtain ⟨hstored, hlt⟩ := addGood_stored hg.stored hgood.2.2
  obtain ⟨hseen, hne, -⟩ := hg.link l hlt
  have hcur : Current (v.setHeld (v.src l) (v.held (v.src l) ++ [l]))
      (⟨{}, .reporting src reported (.addDst l)⟩ :: others) =
      Current v (⟨{}, .reporting src reported (.addSrc l)⟩ :: others) := current_congr marking_phase
  have hothers := not_adding_others hg rfl
  have hadding : ∀ x, Adding (⟨{}, .reporting src reported (.addDst l)⟩ :: others) x ↔
      Adding (⟨{}, .reporting src reported (.addSrc l)⟩ :: others) x := by
    intro x
    simp [adding_phase (hothers x)]
  have hguarded : Guarded v next seen (⟨{}, .reporting src reported (.addDst l)⟩ :: others) :=
    hg.weaken (by simp) weaker_phase (by simp [Task.locks]) (good_phase hgood)
  refine ⟨hguarded.setHeld, ?_, ?_, ?_, ?_, ?_⟩
  · intro r x hx
    rcases mem_update_append.mp hx with hold | ⟨rfl, rfl⟩
    · exact hi.held r x hold
    · exact ⟨hlt, hseen, .inl rfl⟩
  · intro x hx
    refine ⟨fun hn => absurd hn (by simp [addingSrc_phase (hothers x).1]), fun _ => ?_⟩
    have hcount : ((v.setHeld (v.src l) (v.held (v.src l) ++ [l])).held (v.src x)).count x =
        (v.held (v.src x)).count x + if v.src x = v.src l ∧ x = l then 1 else 0 := count_update_append
    refine hcount.trans ?_
    obtain ⟨hzero, hone⟩ := hi.source x hx
    rw [addingSrc_phase (hothers x).1, Phase.addSrc.injEq] at hzero hone
    by_cases hxl : l = x
    · subst hxl
      simp [hzero rfl]
    · simp [hone hxl, Ne.symm hxl]
  · intro x hx
    rcases mem_update_append.mp hx with hold | ⟨-, rfl⟩
    · have hsource := hi.sourceHeld x hold
      rwa [unindexing_cons] at hsource ⊢
    · exact .inl hstored
  · intro x r hx hr hid
    have hcount : ((v.setHeld (v.src l) (v.held (v.src l) ++ [l])).held r).count x = (v.held r).count x := by
      refine count_update_append.trans ?_
      rw [if_neg, add_zero]
      rintro ⟨rfl, rfl⟩
      exact hne hid.symm
    rw [hcount, hadding]
    exact hi.dest x r hx (hcur ▸ hr) hid
  · intro x r hr hx hid
    rcases mem_update_append.mp hx with hold | ⟨rfl, rfl⟩
    · have hdest := hi.destHeld x r (hcur ▸ hr) hold hid
      simp only [unindexing_cons] at hdest ⊢
      exact hdest
    · exact absurd hid hne

/-- The last step of a report adds the link to the index of the destination
that it has then. -/
theorem indexed_addDst (h : Sound v next seen (⟨{}, .reporting src reported (.addDst l)⟩ :: others))
    (hmem : ∀ r x, x ∈ held r ↔ x ∈ v.held r ∨ v.dst l = some r ∧ x = l)
    (hcount : ∀ r x, (held r).count x = (v.held r).count x + if v.dst l = some r ∧ x = l then 1 else 0) :
    Indexed { v with held := held } next seen (⟨{}, .done⟩ :: others) := by
  obtain ⟨hg, hi⟩ := h
  obtain ⟨hstored, hlt⟩ := addGood_stored hg.stored (hg.head_good.report src reported (.addDst l) rfl).2.2
  obtain ⟨-, hne, hdst⟩ := hg.link l hlt
  have hcur : Current { v with held := held } (⟨{}, .done⟩ :: others) =
      Current v (⟨{}, .reporting src reported (.addDst l)⟩ :: others) :=
    current_congr (by simp [marking_cons])
  have hothers := not_adding_others hg rfl
  refine ⟨?_, ?_, ?_, ?_, ?_⟩
  · intro r x hx
    rcases (hmem r x).mp hx with hold | ⟨hr, rfl⟩
    · exact hi.held r x hold
    · exact ⟨hlt, (hdst r hr).1, .inr (hdst r hr).2.symm⟩
  · intro x hx
    refine ⟨fun hn => ?_, fun _ => (hcount _ x).trans ?_⟩
    · simp [addingSrc_cons, (hothers x).1] at hn
    · rw [if_neg]
      · exact (hi.source x hx).2 (by simp [addingSrc_phase (hothers x).1])
      · rintro ⟨hself, rfl⟩
        exact hne (hdst _ hself).2.symm
  · intro x hx
    rcases (hmem _ x).mp hx with hold | ⟨-, rfl⟩
    · have hsource := hi.sourceHeld x hold
      rwa [unindexing_cons] at hsource ⊢
    · exact .inl hstored
  · intro x r hx hr hid
    obtain ⟨hdest, hzero, hone⟩ := hi.dest x r hx (hcur ▸ hr) hid
    rw [adding_phase (hothers x)] at hzero hone
    refine ⟨hdest, fun hn => ?_, fun _ => (hcount r x).trans ?_⟩
    · simp [Adding, addingSrc_cons, addingDst_cons, hothers x] at hn
    · by_cases hxl : l = x
      · subst hxl
        rw [hzero (.inr rfl), if_pos ⟨hdest, rfl⟩]
      · rw [if_neg (fun hboth => hxl hboth.2.symm)]
        exact hone (by simp [hxl])
  · intro x r hr hx hid
    rcases (hmem r x).mp hx with hold | ⟨-, rfl⟩
    · have hdest := hi.destHeld x r (hcur ▸ hr) hold hid
      simp only [unindexing_cons] at hdest ⊢
      exact hdest
    · exact .inl hstored

end Reporting

end Zt.LinkSteps
