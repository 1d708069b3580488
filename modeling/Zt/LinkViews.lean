import Zt.LinkIndexes

namespace Zt.LinkViews

open Tables Topology LinkIndexes
open EdgeCtrl (Id)
open Function (update update_apply comp_update)

/-- What the indexes hold, without costs and states of links. -/
@[ext]
structure View where
  table : Id → Option LinkRef
  connected : Id → Option RouterRef
  routerId : RouterRef → Id
  held : RouterRef → List LinkRef
  linkId : LinkRef → Id
  iteration : LinkRef → Nat
  src : LinkRef → RouterRef
  dstId : LinkRef → Id
  dst : LinkRef → Option RouterRef

namespace View

variable (v : View)

def setTable (id : Id) (l : Option LinkRef) : View := { v with table := update v.table id l }

def setConnected (id : Id) (r : Option RouterRef) : View :=
  { v with connected := update v.connected id r }

def setHeld (r : RouterRef) (links : List LinkRef) : View :=
  { v with held := update v.held r links }

def setLink (l : LinkRef) (link : Link) : View :=
  { v with
    linkId := update v.linkId l link.id
    iteration := update v.iteration l link.iteration
    src := update v.src l link.src
    dstId := update v.dstId l link.dstId
    dst := update v.dst l link.dst }

/-- The links that lead to a router, in some order, come to be held by it. -/
def build (order : List LinkRef) (r : RouterRef) : View :=
  { v with
    held := update v.held r (v.held r ++ order.filter (fun l => v.dstId l = v.routerId r))
    dst := fun l => if l ∈ order ∧ v.dstId l = v.routerId r then some r else v.dst l }

end View

open View (ext build)

def view (net : Network) : View where
  table := net.links.lookup
  connected := net.connected.lookup
  routerId r := (net.router r).id
  held r := (net.router r).routerLinks.allLinks
  linkId l := (net.link l).id
  iteration l := (net.link l).iteration
  src l := (net.link l).src
  dstId l := (net.link l).dstId
  dst l := (net.link l).dst

variable (net : Network) (r : RouterRef) (l : LinkRef)

theorem lookup_insert_update {V : Type} {t : Table Id V} {id : Id} {x : V} :
    (fun other => (t.insert id x).lookup other) = update (fun other => t.lookup other) id (some x) := by
  funext other
  rw [lookup_insert_eq, update_apply]

theorem lookup_erase_update {V : Type} {t : Table Id V} {id : Id} :
    (fun other => (t.erase id).lookup other) = update (fun other => t.lookup other) id none := by
  funext other
  rw [lookup_erase_eq, update_apply]

theorem view_updateLinks {f : RouterLinks → RouterLinks} :
    view (updateLinks net r f) = (view net).setHeld r (f (net.router r).routerLinks).allLinks := by
  apply ext <;> try rfl
  · exact funext fun _ => update_keeps Router.id rfl
  · exact comp_update (fun router => router.routerLinks.allLinks) net.router r _

theorem view_setFailed : view (setFailed net l) = view net := by
  apply ext <;> try rfl
  · exact funext fun _ => update_keeps Link.id rfl
  · exact funext fun _ => update_keeps Link.iteration rfl
  · exact funext fun _ => update_keeps Link.src rfl
  · exact funext fun _ => update_keeps Link.dstId rfl
  · exact funext fun _ => update_keeps Link.dst rfl

theorem view_markConnected :
    view (markConnected net r) = (view net).setConnected ((view net).routerId r) (some r) := by
  apply ext <;> try rfl
  · exact lookup_insert_update
  · exact funext fun _ => update_keeps Router.id rfl
  · exact funext fun _ => update_keeps (fun router : Router => router.routerLinks.allLinks) rfl

theorem view_markDisconnected : view (markDisconnected net r) =
    if (view net).connected ((view net).routerId r) = some r then
      (view net).setConnected ((view net).routerId r) none else view net := by
  have hids : (view (markDisconnected net r)).routerId = (view net).routerId := funext fun _ => update_keeps Router.id rfl
  have hlinks : (view (markDisconnected net r)).held = (view net).held :=
    funext fun _ => update_keeps (fun router : Router => router.routerLinks.allLinks) rfl
  by_cases hcur : (view net).connected ((view net).routerId r) = some r
  · have hlook : net.connected.lookup (net.router r).id = some r := hcur
    rw [if_pos hcur]
    refine ext rfl ?_ hids hlinks rfl rfl rfl rfl rfl
    simp only [markDisconnected, hlook]
    exact lookup_erase_update
  · have hlook : net.connected.lookup (net.router r).id ≠ some r := hcur
    rw [if_neg hcur]
    refine ext rfl ?_ hids hlinks rfl rfl rfl rfl rfl
    simp [view, markDisconnected, if_neg hlook]

theorem view_clearLinks : view (clearLinks net r) = (view net).setHeld r [] := view_updateLinks net r

theorem view_tableAdd {link : Link} :
    view (tableAdd net l link) = ((view net).setTable link.id (some l)).setLink l link := by
  apply ext <;> try rfl
  · exact lookup_insert_update
  · exact comp_update Link.id net.link l link
  · exact comp_update Link.iteration net.link l link
  · exact comp_update Link.src net.link l link
  · exact comp_update Link.dstId net.link l link
  · exact comp_update Link.dst net.link l link

variable {l}

theorem tableRemove_some {net net' : Network} (h : tableRemove net l = some net') :
    (∃ v, (view net).table ((view net).linkId l) = some v ∧ (view net).iteration v = (view net).iteration l) ∧
      view net' = (view net).setTable ((view net).linkId l) none := by
  unfold tableRemove at h
  cases hfound : net.links.lookup (net.link l).id with
  | none => simp [hfound] at h
  | some v =>
    simp only [hfound] at h
    split at h
    · rename_i hiter
      cases h
      refine ⟨⟨v, hfound, hiter⟩, ?_⟩
      exact ext lookup_erase_update rfl rfl rfl rfl rfl rfl rfl rfl
    · cases h

theorem tableRemove_none {net : Network} (h : tableRemove net l = none) :
    (view net).table ((view net).linkId l) ≠ some l := by
  intro hfound
  have hlook : net.links.lookup (net.link l).id = some l := hfound
  simp [tableRemove, hlook] at h

variable (l)

theorem view_addSrc : view (addSrc net l) =
    (view net).setHeld ((view net).src l) ((view net).held ((view net).src l) ++ [l]) :=
  view_updateLinks net _

theorem view_removeSrc : view (removeSrc net l) =
    (view net).setHeld ((view net).src l) (((view net).held ((view net).src l)).filter (fun x => x ≠ l)) :=
  view_updateLinks net _

theorem view_addDst_none (h : (view net).dst l = none) : view (addDst net l) = view net := by
  have hdst : (net.link l).dst = none := h
  simp [addDst, hdst]

variable {dest : RouterRef}

theorem view_addDst_some (h : (view net).dst l = some dest) :
    view (addDst net l) = (view net).setHeld dest ((view net).held dest ++ [l]) := by
  have hdst : (net.link l).dst = some dest := h
  simp only [addDst, hdst]
  exact view_updateLinks net _

theorem view_removeDst_none (h : (view net).dst l = none) : view (removeDst net l) = view net := by
  have hdst : (net.link l).dst = none := h
  simp [removeDst, hdst]

theorem view_removeDst_some (h : (view net).dst l = some dest) :
    view (removeDst net l) = (view net).setHeld dest (((view net).held dest).filter (fun x => x ≠ l)) := by
  have hdst : (net.link l).dst = some dest := h
  simp only [removeDst, hdst]
  exact view_updateLinks net _

theorem view_buildRouterLink : view (buildRouterLink net r l) = (view net).build [l] r := by
  have hcond : ((view net).dstId l = (view net).routerId r) = ((net.link l).dstId = (net.router r).id) := rfl
  by_cases hl : (net.link l).dstId = (net.router r).id
  · unfold buildRouterLink
    rw [if_pos hl]
    apply ext <;> try rfl
    · exact funext fun _ => update_keeps Router.id rfl
    · have hheld := comp_update (fun router => router.routerLinks.allLinks) net.router r
        { net.router r with
          routerLinks := (net.router r).routerLinks.add l (net.router (net.link l).src).id }
      simp only [build, hcond, hl, List.filter_cons]
      exact hheld
    · exact funext fun _ => update_keeps Link.id rfl
    · exact funext fun _ => update_keeps Link.iteration rfl
    · exact funext fun _ => update_keeps Link.src rfl
    · exact funext fun _ => update_keeps Link.dstId rfl
    · funext x
      by_cases hx : x = l
      · subst hx
        simp [build, view, storeDst, hl]
      · simp [build, view, storeDst, updateLinks, hx]
  · unfold buildRouterLink
    rw [if_neg hl]
    apply ext <;> try rfl
    · simp [build, hcond, hl]
    · funext x
      by_cases hx : x = l
      · subst hx
        simp [build, hcond, hl]
      · simp [build, hx]

theorem view_buildRouterLinks (order : List LinkRef) :
    view (buildRouterLinks net order r) = (view net).build order r := by
  induction order generalizing net with
  | nil => apply ext <;> simp [build, buildRouterLinks]
  | cons l order ih =>
    have hcons : buildRouterLinks net (l :: order) r = buildRouterLinks (buildRouterLink net r l) order r := rfl
    rw [hcons, ih, view_buildRouterLink]
    apply ext <;> try rfl
    · by_cases hl : (view net).dstId l = (view net).routerId r <;> simp [build, hl]
    · funext x
      by_cases hx : x = l
      · subst hx
        by_cases hl : (view net).dstId x = (view net).routerId r <;> simp [build, hl]
      · simp [build, hx]

end Zt.LinkViews
