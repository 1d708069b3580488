import Zt.LinkIndexes

namespace Zt.LinkKeys

open Tables Topology LinkIndexes
open EdgeCtrl (Id)
open Function (update)

section Index

variable {links : RouterLinks} {key key' : LinkRef → Id} {l : LinkRef}

/-- The lists by router are the list of all links, split by the router at the
other end. -/
def KeyedBy (links : RouterLinks) (key : LinkRef → Id) : Prop :=
  ∀ id, (links.linksFor id).Perm (links.allLinks.filter (fun l => key l = id))

theorem KeyedBy.congr (h : KeyedBy links key) (hkey : ∀ l ∈ links.allLinks, key' l = key l) : KeyedBy links key' := by
  intro id
  have hfilter : links.allLinks.filter (fun l => key' l = id) = links.allLinks.filter (fun l => key l = id) := by
    apply List.filter_congr
    intro l hl
    rw [hkey l hl]
  rw [hfilter]
  exact h id

theorem keyedBy_clear : KeyedBy RouterLinks.clear key := fun _ => List.Perm.refl []

theorem KeyedBy.add (h : KeyedBy links key) : KeyedBy (links.add l (key l)) key := by
  intro id
  rw [RouterLinks.linksFor_add]
  simp only [RouterLinks.add, List.filter_append, List.filter_cons, List.filter_nil, decide_eq_true_eq]
  by_cases hid : id = key l
  · subst hid
    rw [if_pos rfl, if_pos rfl]
    exact ((h _).cons l).trans (List.perm_append_singleton l _).symm
  · rw [if_neg hid, if_neg (Ne.symm hid), List.append_nil]
    exact h id

theorem linksFor_remove {other id : Id} : (links.remove l other).linksFor id =
    if id = other then (links.linksFor other).filter (fun x => x ≠ l) else links.linksFor id := by
  simp only [RouterLinks.remove]
  split
  · rename_i hempty
    simp only [RouterLinks.linksFor, lookup_erase_eq] at hempty ⊢
    split
    · exact (List.isEmpty_iff.mp hempty).symm
    · rfl
  · simp only [RouterLinks.linksFor, lookup_insert_eq]
    split <;> rfl

theorem KeyedBy.remove (h : KeyedBy links key) : KeyedBy (links.remove l (key l)) key := by
  intro id
  have hall : (links.remove l (key l)).allLinks = links.allLinks.filter (fun x => x ≠ l) := rfl
  rw [linksFor_remove, hall, List.filter_comm]
  by_cases hid : id = key l
  · subst hid
    rw [if_pos rfl]
    exact (h _).filter _
  · rw [if_neg hid]
    have hkept : (links.allLinks.filter (fun x => key x = id)).filter (fun x => x ≠ l) =
        links.allLinks.filter (fun x => key x = id) := by
      rw [List.filter_eq_self]
      intro x hx
      have hkey : key x = id := by simpa using (List.mem_filter.mp hx).2
      simp only [decide_eq_true_eq]
      rintro rfl
      exact hid hkey.symm
    rw [hkept]
    exact h id

end Index

def otherId (net : Network) (r : RouterRef) (l : LinkRef) : Id :=
  if (net.link l).src = r then (net.link l).dstId else (net.router (net.link l).src).id

def Keyed (net : Network) : Prop := ∀ r, KeyedBy (net.router r).routerLinks (otherId net r)

variable {net net' : Network} {r : RouterRef} {l : LinkRef}

theorem otherId_updateLinks (f : RouterLinks → RouterLinks) {other : RouterRef} :
    otherId (updateLinks net r f) other = otherId net other := by
  funext l
  have hid : (update net.router r
      { net.router r with routerLinks := f (net.router r).routerLinks } (net.link l).src).id =
      (net.router (net.link l).src).id := update_keeps Router.id rfl
  simp [otherId, updateLinks, hid]

theorem Keyed.updateLinks {f : RouterLinks → RouterLinks} (h : Keyed net)
    (hr : KeyedBy (f (net.router r).routerLinks) (otherId net r)) : Keyed (updateLinks net r f) := by
  intro other
  rw [otherId_updateLinks]
  by_cases hother : other = r
  · subst hother
    simpa [updateLinks] using hr
  · simpa [LinkIndexes.updateLinks, hother] using h other

section

variable (h : Keyed net)
include h

theorem Keyed.congr (hlinks : ∀ r, (net'.router r).routerLinks = (net.router r).routerLinks)
    (hid : ∀ r, (net'.router r).id = (net.router r).id) (hends : ∀ r, ∀ l ∈ (net.router r).routerLinks.allLinks,
      (net'.link l).src = (net.link l).src ∧ (net'.link l).dstId = (net.link l).dstId) : Keyed net' := by
  intro r
  rw [hlinks]
  refine (h r).congr (fun l hl => ?_)
  obtain ⟨hsrc, hdst⟩ := hends r l hl
  simp [otherId, hsrc, hdst, hid]

omit h in
theorem otherId_src : otherId net (net.link l).src l = (net.link l).dstId := if_pos rfl

theorem keyed_addSrc : Keyed (addSrc net l) := by
  refine h.updateLinks ?_
  rw [← otherId_src]
  exact (h _).add

theorem keyed_removeSrc : Keyed (removeSrc net l) := by
  refine h.updateLinks ?_
  rw [← otherId_src]
  exact (h _).remove

omit h in
theorem otherId_dest {dest : RouterRef} (hdst : (net.link l).dst ≠ some (net.link l).src)
    (hdest : (net.link l).dst = some dest) : otherId net dest l = (net.router (net.link l).src).id :=
  if_neg (fun heq : (net.link l).src = dest => hdst (heq ▸ hdest))

theorem keyed_addDst (hdst : (net.link l).dst ≠ some (net.link l).src) : Keyed (addDst net l) := by
  unfold addDst
  cases hdest : (net.link l).dst with
  | none => exact h
  | some dest =>
    refine h.updateLinks ?_
    rw [← otherId_dest hdst hdest]
    exact (h _).add

theorem keyed_removeDst (hdst : (net.link l).dst ≠ some (net.link l).src) : Keyed (removeDst net l) := by
  unfold removeDst
  cases hdest : (net.link l).dst with
  | none => exact h
  | some dest =>
    refine h.updateLinks ?_
    rw [← otherId_dest hdst hdest]
    exact (h _).remove

theorem keyed_clearLinks : Keyed (clearLinks net r) := h.updateLinks keyedBy_clear

theorem keyed_setConnected {connected : Bool} : Keyed (setConnected net r connected) := by
  refine h.congr (fun _ => ?_) (fun _ => ?_) (fun _ _ _ => ⟨rfl, rfl⟩)
  · exact update_keeps Router.routerLinks rfl
  · exact update_keeps Router.id rfl

theorem keyed_setFailed : Keyed (setFailed net l) := by
  refine h.congr (fun _ => rfl) (fun _ => rfl) (fun _ _ _ => ?_)
  exact ⟨update_keeps Link.src rfl, update_keeps Link.dstId rfl⟩

theorem keyed_storeDst : Keyed (storeDst net l r) := by
  refine h.congr (fun _ => rfl) (fun _ => rfl) (fun _ _ _ => ?_)
  exact ⟨update_keeps Link.src rfl, update_keeps Link.dstId rfl⟩

theorem keyed_tableAdd {link : Link} (hnew : ∀ r, l ∉ (net.router r).routerLinks.allLinks) :
    Keyed (tableAdd net l link) := by
  refine h.congr (fun _ => rfl) (fun _ => rfl) (fun r x hx => ?_)
  have hne : x ≠ l := fun heq => hnew r (heq ▸ hx)
  simp [tableAdd, hne]

theorem keyed_tableRemove (hrem : tableRemove net l = some net') : Keyed net' := by
  unfold tableRemove at hrem
  split at hrem
  · cases hrem
  · split at hrem
    · cases hrem
      exact h
    · cases hrem

theorem keyed_buildRouterLink (hsrc : (net.link l).src ≠ r) : Keyed (buildRouterLink net r l) := by
  unfold buildRouterLink
  split
  · have hkey : otherId net r l = (net.router (net.link l).src).id := if_neg hsrc
    refine keyed_storeDst (h.updateLinks ?_)
    rw [← hkey]
    exact (h _).add
  · exact h

omit h in
theorem src_buildRouterLink {x : LinkRef} : ((buildRouterLink net r l).link x).src = (net.link x).src := by
  unfold buildRouterLink
  split
  · exact update_keeps Link.src rfl
  · rfl

theorem keyed_buildRouterLinks {order : List LinkRef} (hsrc : ∀ l ∈ order, (net.link l).src ≠ r) :
    Keyed (buildRouterLinks net order r) := by
  induction order generalizing net with
  | nil => exact h
  | cons l order ih =>
    refine ih (keyed_buildRouterLink h (hsrc l List.mem_cons_self)) (fun x hx => ?_)
    rw [src_buildRouterLink]
    exact hsrc x (List.mem_cons_of_mem l hx)

/-- A link that a router holds once is once in the list for the router at its
other end, and in no other list. -/
theorem Keyed.count (id : Id) : ((net.router r).routerLinks.linksFor id).count l =
    if otherId net r l = id then (net.router r).routerLinks.allLinks.count l else 0 := by
  rw [(h r id).count_eq]
  split
  · rename_i hid
    exact List.count_filter (by simpa using hid)
  · rename_i hid
    rw [List.count_eq_zero]
    intro hl
    simp only [List.mem_filter, decide_eq_true_eq] at hl
    exact hid hl.2

end

end Zt.LinkKeys
