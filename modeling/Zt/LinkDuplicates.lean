import Zt.LinkDials

namespace Zt.LinkDuplicates

open Tables LinkRegistry LinkDials
open EdgeCtrl (Id)

/-- LinkAccepted and DialSucceeded both apply the link. -/
def applyAll (reg : Registry) (calls : List Xlink) : Registry := calls.foldl (fun reg l => (applyLink reg l).1) reg

/-- Every link in the map of keys is in the map of ids under its id. -/
def ById (reg : Registry) : Prop :=
  ∀ key l, reg.linkMap.lookup key = some l → reg.linkByIdMap.lookup l.id = some l

/-- The link that is kept under a key is the one with the smallest id. -/
def Keeps (reg : Registry) (key : String) (links : List Xlink) (kept : Xlink) : Prop :=
  getLink reg key = some kept ∧ kept ∈ links ∧ ∀ l ∈ links, kept.id ≤ l.id

/-- Calls for open links of one key that has no link yet. Their ids are not in
use, and none of the links has its counter of duplicates above five. -/
structure Calls (reg : Registry) (key : String) (calls : List Xlink) : Prop where
  byId : ById reg
  unlinked : getLink reg key = none
  keyed : ∀ l ∈ calls, l.key = key
  opened : ∀ l ∈ calls, l ∉ reg.closed
  unused : ∀ l ∈ calls, ∀ key' l', reg.linkMap.lookup key' = some l' → l'.id ≠ l.id
  dups : ∀ l ∈ calls, (applyAll reg calls).dupsRejected l ≤ 5

variable {reg : Registry} {key : String} {calls links : List Xlink} {l kept : Xlink}

theorem applyLink_closed : (applyLink reg l).1.closed = reg.closed := by
  obtain ⟨dups, -, heq | ⟨-, heq⟩⟩ := applyLink_cases reg l
  all_goals rw [heq]
  all_goals rfl

theorem dups_le_applyAll (reg : Registry) (calls : List Xlink) (m : Xlink) :
    reg.dupsRejected m ≤ (applyAll reg calls).dupsRejected m := by
  induction calls generalizing reg with
  | nil => exact le_refl _
  | cons l calls ih =>
    obtain ⟨dups, hle, heq⟩ := applyLink_cases reg l
    have hstep : reg.dupsRejected m ≤ (applyLink reg l).1.dupsRejected m := by
      obtain heq | ⟨-, heq⟩ := heq
      all_goals rw [heq]
      all_goals exact hle m
    exact le_trans hstep (ih _)

theorem getLink_applyLink_none (hopen : l ∉ reg.closed) (hnone : getLink reg l.key = none) :
    getLink (applyLink reg l).1 l.key = some l := by
  have heq : applyLink reg l = (registerLink reg l, .registered none) := by simp [applyLink, isClosed, hopen, hnone]
  rw [heq]
  exact AList.lookup_insert _

/-- Of two links the one with the smaller id stays as long as its counter
allows that. -/
theorem getLink_applyLink_some (hopen : l ∉ reg.closed) (hkept : getLink reg l.key = some kept)
    (hdups : (applyLink reg l).1.dupsRejected kept ≤ 5) :
    getLink (applyLink reg l).1 l.key = some (if kept.id < l.id then kept else l) := by
  have heq : applyLink reg l = if kept = l then (reg, .reapplied)
      else if rejectsDuplicate reg kept l then (countDuplicate reg kept l, .kept kept)
      else (registerLink (countDuplicate reg kept l) l, .registered (some kept)) := by
    simp [applyLink, isClosed, hopen, hkept]
  rw [heq] at hdups ⊢
  by_cases hsame : kept = l
  · simpa [hsame] using hkept
  · by_cases hlt : kept.id < l.id
    · -- both ways to go on count the duplicate
      rw [if_neg hsame, countDuplicate, if_pos hlt] at hdups ⊢
      by_cases hfew : reg.dupsRejected kept + 1 ≤ 5
      · rw [if_pos (by rw [rejectsDuplicate, decide_eq_true hlt, decide_eq_true hfew]; rfl), if_pos hlt]
        exact hkept
      · rw [if_neg (by rw [rejectsDuplicate, decide_eq_false hfew, Bool.and_false]; exact Bool.false_ne_true)] at hdups
        have hcount : Function.update reg.dupsRejected kept (reg.dupsRejected kept + 1) kept ≤ 5 := hdups
        rw [Function.update_self] at hcount
        exact absurd hcount hfew
    · simp only [hsame, rejectsDuplicate, hlt]
      exact AList.lookup_insert _

theorem keeps_applyLink (h : Keeps reg l.key links kept) (hopen : l ∉ reg.closed)
    (hdups : (applyLink reg l).1.dupsRejected kept ≤ 5) :
    ∃ kept', Keeps (applyLink reg l).1 l.key (links ++ [l]) kept' := by
  obtain ⟨hget, hmem, hleast⟩ := h
  refine ⟨_, getLink_applyLink_some hopen hget hdups, ?_, fun m hm => ?_⟩
  · split
    · exact List.mem_append_left _ hmem
    · exact List.mem_append_right _ (List.mem_singleton.mpr rfl)
  · rcases List.mem_append.mp hm with hm | hm
    · split
      · exact hleast m hm
      · rename_i hle
        exact String.le_trans (String.not_lt.mp hle) (hleast m hm)
    · rw [List.mem_singleton.mp hm]
      split
      · rename_i hlt
        exact Std.le_of_lt hlt
      · exact String.le_refl _

theorem keeps_applyAll (h : Keeps reg key links kept) (hkeyed : ∀ l ∈ calls, l.key = key)
    (hopen : ∀ l ∈ calls, l ∉ reg.closed) (hdups : ∀ l ∈ links ++ calls, (applyAll reg calls).dupsRejected l ≤ 5) :
    ∃ kept', Keeps (applyAll reg calls) key (links ++ calls) kept' := by
  induction calls generalizing reg links kept with
  | nil => exact ⟨kept, by rwa [List.append_nil]⟩
  | cons l calls ih =>
    have hkey := hkeyed l List.mem_cons_self
    subst hkey
    have hfew : (applyLink reg l).1.dupsRejected kept ≤ 5 :=
      le_trans (dups_le_applyAll _ calls kept) (hdups kept (List.mem_append_left _ h.2.1))
    obtain ⟨kept', h'⟩ := keeps_applyLink h (hopen l List.mem_cons_self) hfew
    rw [List.append_cons] at hdups ⊢
    refine ih h' (fun m hm => hkeyed m (List.mem_cons_of_mem _ hm)) (fun m hm => ?_) hdups
    rw [applyLink_closed]
    exact hopen m (List.mem_cons_of_mem _ hm)

/-- Links under other keys have ids of their own. -/
def Apart (reg : Registry) (key : String) (links : List Xlink) : Prop :=
  ById reg ∧ ∀ key' l', reg.linkMap.lookup key' = some l' → key' ≠ key → ∀ l ∈ links, l'.id ≠ l.id

theorem apart_applyLink (h : Apart reg l.key links) (hl : l ∈ links) : Apart (applyLink reg l).1 l.key links := by
  obtain ⟨dups, -, heq | ⟨-, heq⟩⟩ := applyLink_cases reg l
  all_goals rw [heq]
  · exact h
  · refine ⟨fun key' l' hl' => ?_, forall_insert h.2 (absurd rfl)⟩
    simp only [registerLink, lookup_insert_eq] at hl' ⊢
    split at hl'
    · cases hl'
      rw [if_pos rfl]
    · rename_i hne
      rw [if_neg (h.2 key' l' hl' hne l hl)]
      exact h.1 key' l' hl'

theorem Calls.byId_applyAll (h : Calls reg key calls) (n : Nat) : ById (applyAll reg (calls.take n)) := by
  have hstart : Apart reg key calls := ⟨h.byId, fun key' l' hl' _ l hl => h.unused l hl key' l' hl'⟩
  refine (List.foldlRecOn (motive := fun reg => Apart reg key calls) _ _ hstart (fun reg' hr l hl => ?_)).1
  have hmem := List.mem_of_mem_take hl
  rw [← h.keyed l hmem] at hr ⊢
  exact apart_applyLink hr hmem

theorem Calls.keeps (h : Calls reg key calls) (hne : calls ≠ []) :
    ∃ kept, Keeps (applyAll reg calls) key calls kept := by
  obtain ⟨first, rest, rfl⟩ := List.exists_cons_of_ne_nil hne
  have hkey := h.keyed first List.mem_cons_self
  subst hkey
  have hfirst : Keeps (applyLink reg first).1 first.key [first] first :=
    ⟨getLink_applyLink_none (h.opened first List.mem_cons_self) h.unlinked, List.mem_singleton.mpr rfl,
      fun l hl => List.mem_singleton.mp hl ▸ String.le_refl _⟩
  have hopen : ∀ l ∈ rest, l ∉ (applyLink reg first).1.closed := by
    intro l hl
    rw [applyLink_closed]
    exact h.opened l (List.mem_cons_of_mem _ hl)
  exact keeps_applyAll hfirst (fun l hl => h.keyed l (List.mem_cons_of_mem _ hl)) hopen h.dups

/-- Whatever the order of the calls, a router keeps the link with the smallest
id, and two routers that see the same ids keep the same link. -/
theorem duplicates_resolved {reg reg' : Registry} {key key' : String} {calls calls' : List Xlink}
    (h : Calls reg key calls) (h' : Calls reg' key' calls') (hne : calls ≠ [])
    (hids : ∀ id, id ∈ calls.map Xlink.id ↔ id ∈ calls'.map Xlink.id) :
    (∃ kept kept', Keeps (applyAll reg calls) key calls kept ∧ Keeps (applyAll reg' calls') key' calls' kept' ∧
      kept.id = kept'.id) ∧ ∀ n, ById (applyAll reg (calls.take n)) := by
  have hne' : calls' ≠ [] := by
    rintro rfl
    obtain ⟨l, hl⟩ := List.exists_mem_of_ne_nil _ hne
    exact absurd ((hids l.id).mp (List.mem_map_of_mem hl)) List.not_mem_nil
  obtain ⟨kept, hkept⟩ := h.keeps hne
  obtain ⟨kept', hkept'⟩ := h'.keeps hne'
  refine ⟨⟨kept, kept', hkept, hkept', String.le_antisymm ?_ ?_⟩, h.byId_applyAll⟩
  · obtain ⟨l, hl, hid⟩ := List.mem_map.mp ((hids kept'.id).mpr (List.mem_map_of_mem hkept'.2.1))
    rw [← hid]
    exact hkept.2.2 l hl
  · obtain ⟨l, hl, hid⟩ := List.mem_map.mp ((hids kept.id).mp (List.mem_map_of_mem hkept.2.1))
    rw [← hid]
    exact hkept'.2.2 l hl

/-- The end of a link at the router that dials it, and the other one. -/
def dialedLink (ref : Nat) (id : Id) : Xlink := ⟨ref, id, "default->tls:r2->default", 1, "r2", true⟩

def acceptedLink (ref : Nat) (id : Id) : Xlink := ⟨ref, id, "default->tls:r1->default", 1, "r1", false⟩

theorem calls_new (hkeyed : ∀ l ∈ calls, l.key = key)
    (hdups : ∀ l ∈ calls, (applyAll (newLinkRegistry []) calls).dupsRejected l ≤ 5) :
    Calls (newLinkRegistry []) key calls where
  byId _ _ h := by cases h
  unlinked := rfl
  keyed := hkeyed
  opened _ _ := List.not_mem_nil
  unused _ _ _ _ h := by cases h
  dups := hdups

theorem both_ends_keep_one : ∃ kept kept',
    Keeps (applyAll (newLinkRegistry []) [dialedLink 0 "l1", dialedLink 1 "l2"]) "default->tls:r2->default"
      [dialedLink 0 "l1", dialedLink 1 "l2"] kept ∧
    Keeps (applyAll (newLinkRegistry []) [acceptedLink 0 "l2", acceptedLink 1 "l1"]) "default->tls:r1->default"
      [acceptedLink 0 "l2", acceptedLink 1 "l1"] kept' ∧ kept.id = kept'.id :=
  (duplicates_resolved (calls_new (by simp [dialedLink]) (by decide)) (calls_new (by simp [acceptedLink]) (by decide))
    (by simp) (by simp [dialedLink, acceptedLink, or_comm])).1

end Zt.LinkDuplicates
