import Mathlib.Data.List.Chain
import Zt.RouteMessages

namespace Zt.RouteDelivery

open Tables Topology NetworkPaths RouteMessages
open EdgeCtrl (Id)
open List (mem_singleton mem_cons_self mem_cons_of_mem getElem?_reverse getElem?_eq_getElem mem_append mem_pair)
open Forwarder (route getForwardTable hasDestination)

variable {net : Network} {path : Path} {attempt : Nat} {circuitId : Id} {terminator : Terminator} {remainingTime : Nat}

def Ends (net : Network) (l : LinkRef) (a b : RouterRef) : Prop :=
  (net.link l).src = a ∧ (net.link l).dst = some b ∨ (net.link l).src = b ∧ (net.link l).dst = some a

/-- There is one link less than there are routers. Link i joins routers i and
i + 1. -/
structure LinkedBy (net : Network) (nodes : List RouterRef) (links : List LinkRef) : Prop where
  length : nodes.length = links.length + 1
  joins : ∀ i l a b, links[i]? = some l → nodes[i]? = some a → nodes[i + 1]? = some b → Ends net l a b

/-- A payload that enters the first router from one address is sent from router
to router over the links, and by the last one to the other address. -/
def Carried (net : Network) (forwarders : RouterRef → Forwarder) (circuitId : Id) :
    List RouterRef → List LinkRef → Address → Address → Prop
  | [r], [], src, dst => (forwarders r).forwardPayload circuitId src = .ok dst
  | r :: next :: nodes, l :: links, src, dst =>
    (forwarders r).forwardPayload circuitId src = .ok (net.link l).id ∧ Ends net l r next ∧
      Carried net forwarders circuitId (next :: nodes) links (net.link l).id dst
  | _, _, _, _ => False

def install (forwarders : RouterRef → Forwarder) (sent : RouterRef × Route) : RouterRef → Forwarder :=
  Function.update forwarders sent.1 ((forwarders sent.1).route sent.2).1

def Valid (f : Forwarder) (forwards : List RouteForward) : Prop :=
  ∀ forward ∈ forwards, forward.dstType ≠ .destStart → f.hasDestination forward.dstAddress = true

/-- The routers know the links and the egress when the messages come in, in any
order, and the ingress too when a payload does. -/
structure Installed (nodes : List RouterRef) (messages : List Route) (forwarders : RouterRef → Forwarder) : Prop where
  routed : ∃ (before : RouterRef → Forwarder) (installs : List (RouterRef × Route)),
    (∀ sent ∈ nodes.zip messages, Valid (before sent.1) sent.2.forwards) ∧
    installs.Perm (nodes.zip messages) ∧
      ∀ r, (forwarders r).circuits = ((installs.foldl install before) r).circuits
  registered : ∀ sent ∈ nodes.zip messages, ∀ forward ∈ sent.2.forwards,
    (forwarders sent.1).hasDestination forward.dstAddress = true

def addresses (net : Network) (links : List LinkRef) (src dst : Address) : List Address :=
  src :: (links.map (fun l => (net.link l).id) ++ [dst])

def typeOf (path : Path) (address : Address) : DestType :=
  if address = path.egressId then .destEnd else if address = path.ingressId then .destStart else .destLink

/-- What the route messages of a path are to do. -/
structure Composes (net : Network) (path : Path) (attempt : Nat) (messages : List Route) (circuitId : Id) : Prop where
  count : messages.length = path.nodes.length
  typed : ∀ message ∈ messages, ∀ forward ∈ message.forwards, forward.dstType = typeOf path forward.dstAddress
  forth : ∀ forwarders, Installed path.nodes messages forwarders →
    Carried net forwarders circuitId path.nodes path.links path.ingressId path.egressId
  back : ∀ forwarders, Installed path.nodes messages forwarders →
    Carried net forwarders circuitId path.nodes.reverse path.links.reverse path.egressId path.ingressId
  dials : ∀ i message, messages[i]? = some message →
    (message.egress.isSome = true ↔ attempt ≠ smartRerouteAttempt ∧ i + 1 = messages.length)

variable {message : Route} {a b src dst : Address} {messages : List Route} {addrs : List Address} {i : Nat}
  {f : Forwarder} {r : RouterRef} {sent : RouterRef × Route}

section Serving

/-- The forwards of a message lead from each of two addresses to the other. -/
structure Serves (circuitId : Id) (message : Route) (left right : Address) : Prop where
  circuit : message.circuitId = circuitId
  forth : ∃ type, ⟨left, right, type⟩ ∈ message.forwards
  back : ∃ type, ⟨right, left, type⟩ ∈ message.forwards
  only : ∀ forward ∈ message.forwards, forward.srcAddress = left ∧ forward.dstAddress = right ∨
    forward.srcAddress = right ∧ forward.dstAddress = left

def ServeAll (circuitId : Id) : List Route → List Address → Prop
  | [], [_] => True
  | message :: messages, a :: b :: rest => Serves circuitId message a b ∧ ServeAll circuitId messages (b :: rest)
  | _, _ => False

theorem serves_of_forwards {t t' : DestType} (hcirc : message.circuitId = circuitId)
    (hforwards : message.forwards = [⟨a, b, t⟩, ⟨b, a, t'⟩]) : Serves circuitId message a b where
  circuit := hcirc
  forth := ⟨t, by simp [hforwards]⟩
  back := ⟨t', by simp [hforwards]⟩
  only forward hfwd := by
    rw [hforwards] at hfwd
    rcases List.mem_cons.mp hfwd with rfl | hfwd
    · exact .inl ⟨rfl, rfl⟩
    · rw [mem_singleton] at hfwd
      subst hfwd
      exact .inr ⟨rfl, rfl⟩

theorem Serves.symm (h : Serves circuitId message a b) : Serves circuitId message b a :=
  ⟨h.circuit, h.back, h.forth, fun forward hfwd => (h.only forward hfwd).symm⟩

/-- After the first link come the transit messages and the egress. -/
theorem messagesFrom_serve (links : List Id) (i : Nat) (link : Id) :
    ServeAll circuitId (messagesFrom path attempt circuitId terminator remainingTime (i + 1) (link :: links))
      (link :: (links ++ [path.egressId])) := by
  induction links generalizing i link with
  | nil => exact ⟨.symm (serves_of_forwards rfl rfl), trivial⟩
  | cons next links ih => exact ⟨serves_of_forwards rfl rfl, ih (i + 1) next⟩

theorem createRouteMessages_serve :
    ServeAll circuitId (createRouteMessages net path attempt circuitId terminator remainingTime)
      (addresses net path.links path.ingressId path.egressId) := by
  unfold createRouteMessages addresses linkIds
  cases path.links with
  | nil => exact ⟨serves_of_forwards rfl rfl, trivial⟩
  | cons l links =>
    refine ⟨serves_of_forwards rfl rfl, ?_⟩
    cases links with
    | nil => exact ⟨.symm (serves_of_forwards rfl rfl), trivial⟩
    | cons next links => exact ⟨serves_of_forwards rfl rfl, messagesFrom_serve _ 0 _⟩

theorem ServeAll.length {rest : List Address} (h : ServeAll circuitId messages (a :: rest)) :
    messages.length = rest.length := by
  induction messages generalizing a rest with
  | nil =>
    cases rest with
    | nil => rfl
    | cons b rest => exact absurd h id
  | cons message messages ih =>
    cases rest with
    | nil => exact absurd h id
    | cons b rest => simp [ih h.2]

/-- Message i leads between addresses i and i + 1. -/
theorem ServeAll.get (h : ServeAll circuitId messages addrs) (hi : messages[i]? = some message) :
    ∃ a b, addrs[i]? = some a ∧ addrs[i + 1]? = some b ∧ Serves circuitId message a b := by
  induction messages generalizing addrs i with
  | nil => simp at hi
  | cons head messages ih =>
    cases addrs with
    | nil => exact absurd h id
    | cons a rest =>
      cases rest with
      | nil => exact absurd h id
      | cons b rest =>
        cases i with
        | zero =>
          cases hi
          exact ⟨a, b, rfl, rfl, h.1⟩
        | succ i =>
          have hrest := ih h.2 hi
          exact hrest

end Serving

section Tables

def addForwards (t : Table Address Address) (forwards : List RouteForward) : Table Address Address :=
  forwards.foldl (fun t forward => t.insert forward.srcAddress forward.dstAddress) t

/-- If the entries for one key agree then the table has them. -/
theorem lookup_addForwards {forwards : List RouteForward} {t : Table Address Address} {forward : RouteForward}
    (hmem : forward ∈ forwards)
    (hagree : ∀ other ∈ forwards, other.srcAddress = forward.srcAddress → other.dstAddress = forward.dstAddress) :
    (addForwards t forwards).lookup forward.srcAddress = some forward.dstAddress := by
  unfold addForwards
  rw [lookup_foldl_insert (fun f : RouteForward => f.srcAddress) (fun f => f.dstAddress)]
  cases hfind : forwards.reverse.find? (fun f => decide (f.srcAddress = forward.srcAddress)) with
  | none =>
    have := List.find?_eq_none.mp hfind forward (List.mem_reverse.mpr hmem)
    simp at this
  | some other =>
    have hsrc : other.srcAddress = forward.srcAddress := by simpa using List.find?_some hfind
    have hother : other ∈ forwards := List.mem_reverse.mp (List.mem_of_find?_eq_some hfind)
    simp [hagree other hother hsrc]

theorem setForwards_ok {forwards : List RouteForward} (t : Table Address Address) (h : Valid f forwards) :
    f.setForwards t forwards = (addForwards t forwards, none) := by
  induction forwards generalizing t with
  | nil => rfl
  | cons forward forwards ih =>
    have hvalid : f.invalidDestination forward = none := by
      unfold Forwarder.invalidDestination
      split
      · rfl
      · rename_i hmissing
        have htype : forward.dstType = .destStart := by
          by_contra hne
          exact hmissing (h forward mem_cons_self hne)
        rw [htype]
    rw [Forwarder.setForwards, hvalid]
    exact ih _ (fun g hg => h g (mem_cons_of_mem _ hg))

theorem route_ok (h : Valid f message.forwards) : (f.route message).1.getForwardTable message.circuitId =
    addForwards (f.getForwardTable message.circuitId) message.forwards := by
  unfold route
  rw [setForwards_ok _ h]
  simp [getForwardTable]

theorem route_destinations : (f.route message).1.destinations = f.destinations := by
  unfold route
  split
  · rfl
  · split <;> rfl

theorem install_destinations (installs : List (RouterRef × Route)) (before : RouterRef → Forwarder) (r : RouterRef) :
    ((installs.foldl install before) r).destinations = (before r).destinations := by
  induction installs generalizing before with
  | nil => rfl
  | cons sent installs ih =>
    rw [List.foldl_cons, ih]
    by_cases hr : r = sent.1
    · subst hr
      simp [install, route_destinations]
    · simp [install, hr]

theorem install_table {installs : List (RouterRef × Route)} (before : RouterRef → Forwarder) (r : RouterRef)
    (hcirc : ∀ sent ∈ installs, sent.2.circuitId = circuitId)
    (hvalid : ∀ sent ∈ installs, Valid (before sent.1) sent.2.forwards) :
    ((installs.foldl install before) r).getForwardTable circuitId =
      addForwards ((before r).getForwardTable circuitId)
        ((installs.filter (fun sent => decide (sent.1 = r))).flatMap (fun sent => sent.2.forwards)) := by
  induction installs generalizing before with
  | nil => rfl
  | cons sent installs ih =>
    have htable := route_ok (hvalid sent mem_cons_self)
    rw [hcirc sent mem_cons_self] at htable
    rw [List.foldl_cons, ih (install before sent) (fun s hs => hcirc s (mem_cons_of_mem _ hs))]
    · by_cases hr : sent.1 = r
      · subst hr
        simp [install, htable, addForwards]
      · simp [install, hr, Ne.symm hr]
    · intro s hs forward hfwd htype
      have := hvalid s (mem_cons_of_mem _ hs) forward hfwd htype
      have hsame := install_destinations [sent] before s.1
      unfold hasDestination at this ⊢
      rwa [← hsame] at this

theorem forwardPayload_ok (htable : (f.getForwardTable circuitId).lookup src = some dst)
    (hdst : f.hasDestination dst = true) : f.forwardPayload circuitId src = .ok dst := by
  unfold getForwardTable at htable
  unfold Forwarder.forwardPayload
  cases hcirc : f.circuits.lookup circuitId with
  | none => simp [hcirc] at htable
  | some t =>
    rw [hcirc] at htable
    simp only [Option.getD_some] at htable
    simp [htable, hdst]

end Tables

section Paths

variable {nodes : List RouterRef} {links : List LinkRef} {forwarders : RouterRef → Forwarder}

theorem LinkedBy.tail {l : LinkRef} (h : LinkedBy net (r :: nodes) (l :: links)) : LinkedBy net nodes links where
  length := by
    have := h.length
    simp only [List.length_cons] at this
    omega
  joins i l a b hl ha hb := h.joins (i + 1) l a b hl ha hb

theorem LinkedBy.reverse (h : LinkedBy net nodes links) : LinkedBy net nodes.reverse links.reverse where
  length := by simp [h.length]
  joins i l a b hl ha hb := by
    have hi : i < links.length := by
      have := (List.getElem?_eq_some_iff.mp hl).1
      simpa using this
    rw [getElem?_reverse hi] at hl
    rw [getElem?_reverse (by rw [h.length]; omega), h.length] at ha hb
    rw [show links.length + 1 - 1 - i = links.length - 1 - i + 1 by omega] at ha
    rw [show links.length + 1 - 1 - (i + 1) = links.length - 1 - i by omega] at hb
    exact (h.joins _ l b a hl hb ha).symm

theorem addresses_reverse : (addresses net links src dst).reverse = addresses net links.reverse dst src := by
  simp [addresses]

/-- Each router sends the payload on from address i to address i + 1. -/
theorem carried_iff (hlinked : LinkedBy net nodes links) :
    Carried net forwarders circuitId nodes links src dst ↔
      ∀ i r a b, nodes[i]? = some r → (addresses net links src dst)[i]? = some a →
        (addresses net links src dst)[i + 1]? = some b → (forwarders r).forwardPayload circuitId a = .ok b := by
  induction links generalizing nodes src with
  | nil =>
    obtain ⟨r, rfl⟩ := List.length_eq_one_iff.mp hlinked.length
    constructor
    · intro h i r' a b hr ha hb
      cases i with
      | zero =>
        cases hr
        cases ha
        cases hb
        exact h
      | succ i => simp at hr
    · intro h
      exact h 0 r src dst rfl rfl rfl
  | cons l links ih =>
    cases nodes with
    | nil => exact absurd hlinked.length (by simp)
    | cons r nodes =>
      cases nodes with
      | nil => exact absurd hlinked.length (by simp)
      | cons next nodes =>
        rw [Carried, ih hlinked.tail]
        constructor
        · rintro ⟨hfirst, -, hrest⟩ i r' a b hr ha hb
          cases i with
          | zero =>
            cases hr
            cases ha
            cases hb
            exact hfirst
          | succ i => exact hrest i r' a b hr ha hb
        · intro h
          refine ⟨h 0 r src _ rfl rfl rfl, hlinked.joins 0 l r next rfl rfl rfl, ?_⟩
          intro i r' a b hr ha hb
          exact h (i + 1) r' a b hr ha hb

theorem adjacent_ne (hchain : nodes.IsChain (· ≠ ·)) {a b : RouterRef} (ha : nodes[i]? = some a)
    (hb : nodes[i + 1]? = some b) : a ≠ b := by
  obtain ⟨-, rfl⟩ := getElem?_eq_some_iff.mp ha
  obtain ⟨hi', rfl⟩ := getElem?_eq_some_iff.mp hb
  exact List.isChain_iff_getElem.mp hchain i hi'

theorem mem_zip_index (h : sent ∈ nodes.zip messages) :
    ∃ i : Nat, nodes[i]? = some sent.1 ∧ messages[i]? = some sent.2 := by
  obtain ⟨i, hi⟩ := List.mem_iff_getElem?.mp h
  exact ⟨i, List.getElem?_zip_eq_some.mp hi⟩

/-- A router that is on the path again later has forwards for other addresses. -/
theorem entries_agree (hserve : ServeAll circuitId messages addrs) (hnodup : addrs.Nodup)
    (hchain : nodes.IsChain (· ≠ ·)) {other : RouterRef × Route} (hsent : sent ∈ nodes.zip messages)
    (hother : other ∈ nodes.zip messages) (hsame : other.1 = sent.1) {f g : RouteForward} (hf : f ∈ sent.2.forwards)
    (hg : g ∈ other.2.forwards) (hsrc : g.srcAddress = f.srcAddress) : g.dstAddress = f.dstAddress := by
  obtain ⟨i, hri, hmi⟩ := mem_zip_index hsent
  obtain ⟨j, hrj, hmj⟩ := mem_zip_index hother
  rw [hsame] at hrj
  obtain ⟨a, b, ha, hb, hserves⟩ := hserve.get hmi
  obtain ⟨a', b', ha', hb', hserves'⟩ := hserve.get hmj
  have hindex {k l : Nat} {x : Address} (hk : addrs[k]? = some x) (hl : addrs[l]? = some x) : k = l :=
    (List.getElem?_inj (getElem?_eq_some_iff.mp hk).1 hnodup).mp (hk.trans hl.symm)
  rcases hserves.only f hf with ⟨hfs, hfd⟩ | ⟨hfs, hfd⟩ <;>
    rcases hserves'.only g hg with ⟨hgs, hgd⟩ | ⟨hgs, hgd⟩ <;> rw [hfd, hgd] <;> rw [hfs, hgs] at hsrc <;> subst hsrc
  · cases hindex ha ha'
    exact Option.some.inj (hb'.symm.trans hb)
  · cases hindex ha hb'
    exact absurd rfl (adjacent_ne hchain hrj hri)
  · cases hindex hb ha'
    exact absurd rfl (adjacent_ne hchain hri hrj)
  · cases hindex hb hb'
    exact Option.some.inj (ha'.symm.trans ha)

theorem mem_forwards_at {installs : List (RouterRef × Route)} {f : RouteForward} :
    f ∈ (installs.filter (fun sent => decide (sent.1 = r))).flatMap (fun sent => sent.2.forwards) ↔
      ∃ sent ∈ installs, sent.1 = r ∧ f ∈ sent.2.forwards := by
  simp only [List.mem_flatMap, List.mem_filter, decide_eq_true_eq, and_assoc]

theorem Installed.forwards (h : Installed nodes messages forwarders) (hserve : ServeAll circuitId messages addrs)
    (hnodup : addrs.Nodup) (hchain : nodes.IsChain (· ≠ ·)) (hsent : sent ∈ nodes.zip messages) {f : RouteForward}
    (hf : f ∈ sent.2.forwards) : (forwarders sent.1).forwardPayload circuitId f.srcAddress = .ok f.dstAddress := by
  obtain ⟨before, installs, hvalid, hperm, hcircuits⟩ := h.routed
  have hmem {x : RouterRef × Route} (hx : x ∈ installs) : x ∈ nodes.zip messages := hperm.mem_iff.mp hx
  refine forwardPayload_ok ?_ (h.registered sent hsent f hf)
  have htable := install_table before sent.1
    (fun x hx => by
      obtain ⟨i, -, hi⟩ := mem_zip_index (hmem hx)
      obtain ⟨_, _, _, _, hserves⟩ := hserve.get hi
      exact hserves.circuit)
    (fun x hx => hvalid x (hmem hx))
  unfold getForwardTable at htable ⊢
  rw [hcircuits, htable]
  apply lookup_addForwards
  · exact mem_forwards_at.mpr ⟨sent, hperm.mem_iff.mpr hsent, rfl, hf⟩
  · intro g hg hsrc
    obtain ⟨other, hother, hsame, hg⟩ := mem_forwards_at.mp hg
    exact entries_agree hserve hnodup hchain hsent (hmem hother) hsame hf hg hsrc

/-- A router's message leads between its addresses both ways. -/
theorem Installed.both (h : Installed nodes messages forwarders) (hserve : ServeAll circuitId messages addrs)
    (hnodup : addrs.Nodup) (hchain : nodes.IsChain (· ≠ ·)) (hlength : messages.length = nodes.length)
    (hr : nodes[i]? = some r) (ha : addrs[i]? = some a) (hb : addrs[i + 1]? = some b) :
    (forwarders r).forwardPayload circuitId a = .ok b ∧ (forwarders r).forwardPayload circuitId b = .ok a := by
  have hi : i < messages.length := hlength ▸ (getElem?_eq_some_iff.mp hr).1
  have hmessage : messages[i]? = some messages[i] := getElem?_eq_getElem hi
  obtain ⟨a', b', ha', hb', hserves⟩ := hserve.get hmessage
  cases ha.symm.trans ha'
  cases hb.symm.trans hb'
  have hsent : (r, messages[i]) ∈ nodes.zip messages :=
    List.mem_iff_getElem?.mpr ⟨i, List.getElem?_zip_eq_some.mpr ⟨hr, hmessage⟩⟩
  obtain ⟨t, hforth⟩ := hserves.forth
  obtain ⟨t', hback⟩ := hserves.back
  exact ⟨h.forwards hserve hnodup hchain hsent hforth, h.forwards hserve hnodup hchain hsent hback⟩

theorem carried_reverse_iff (hlinked : LinkedBy net nodes links) :
    Carried net forwarders circuitId nodes.reverse links.reverse dst src ↔
      ∀ i r a b, nodes[i]? = some r → (addresses net links src dst)[i]? = some a →
        (addresses net links src dst)[i + 1]? = some b → (forwarders r).forwardPayload circuitId b = .ok a := by
  have hlength : (addresses net links src dst).length = nodes.length + 1 := by
    simp [addresses, hlinked.length]
  have hback (i : Nat) (hi : i < nodes.length) : nodes.reverse[i]? = nodes[nodes.length - 1 - i]? ∧
      (addresses net links.reverse dst src)[i]? = (addresses net links src dst)[nodes.length - 1 - i + 1]? ∧
      (addresses net links.reverse dst src)[i + 1]? = (addresses net links src dst)[nodes.length - 1 - i]? := by
    rw [← addresses_reverse, getElem?_reverse hi, getElem?_reverse (by omega),
      getElem?_reverse (by omega)]
    refine ⟨rfl, ?_, ?_⟩ <;> congr 1 <;> omega
  rw [carried_iff hlinked.reverse]
  constructor
  · intro h i r a b hr ha hb
    have hi := (getElem?_eq_some_iff.mp hr).1
    have hflip : nodes.length - 1 - (nodes.length - 1 - i) = i := by omega
    obtain ⟨hn, hsrc, hdst⟩ := hback (nodes.length - 1 - i) (by omega)
    rw [hflip] at hn hsrc hdst
    exact h _ r b a (hn.trans hr) (hsrc.trans hb) (hdst.trans ha)
  · intro h i r a b hr ha hb
    have hi : i < nodes.length := by
      have := (getElem?_eq_some_iff.mp hr).1
      simpa using this
    obtain ⟨hn, hsrc, hdst⟩ := hback i hi
    exact h _ r b a (hn.symm.trans hr) (hdst.symm.trans hb) (hsrc.symm.trans ha)

end Paths

section Sections

theorem mem_messagesFrom (links : List Id) (i : Nat)
    (h : message ∈ messagesFrom path attempt circuitId terminator remainingTime i links) :
    ∃ link ∈ links, message = ingressMessage path attempt circuitId remainingTime link ∨
      (∃ next ∈ links, message = transitMessage attempt circuitId remainingTime link next) ∨
      message = egressMessage path attempt circuitId terminator remainingTime link := by
  induction links generalizing i with
  | nil => simp [messagesFrom] at h
  | cons link links ih =>
    rw [messagesFrom, mem_append] at h
    rcases h with h | h
    · refine ⟨link, mem_cons_self, ?_⟩
      rcases mem_append.mp h with h | h
      · split at h
        · exact .inl (mem_singleton.mp h)
        · cases h
      · cases links with
        | nil => exact .inr (.inr (mem_singleton.mp h))
        | cons next links => exact .inr (.inl ⟨next, by simp, mem_singleton.mp h⟩)
    · obtain ⟨link', hlink, h⟩ := ih (i + 1) h
      refine ⟨link', mem_cons_of_mem _ hlink, ?_⟩
      rcases h with h | ⟨next, hnext, h⟩ | h
      · exact .inl h
      · exact .inr (.inl ⟨next, mem_cons_of_mem _ hnext, h⟩)
      · exact .inr (.inr h)

theorem createRouteMessages_typed (hnodup : (addresses net path.links path.ingressId path.egressId).Nodup)
    (h : message ∈ createRouteMessages net path attempt circuitId terminator remainingTime) {forward : RouteForward}
    (hfwd : forward ∈ message.forwards) : forward.dstType = typeOf path forward.dstAddress := by
  have hends : path.ingressId ≠ path.egressId := by
    rintro heq
    simp [addresses, heq] at hnodup
  have hlink (link : Id) (hlink : link ∈ linkIds net path) : link ≠ path.ingressId ∧ link ≠ path.egressId := by
    constructor
    · rintro rfl
      exact (List.nodup_cons.mp hnodup).1 (List.mem_append_left _ hlink)
    · rintro rfl
      exact (List.nodup_append.mp (List.nodup_cons.mp hnodup).2).2.2 _ hlink _ (List.mem_singleton_self _) rfl
  rw [createRouteMessages, mem_append] at h
  rcases h with h | h
  · split at h
    · rw [mem_singleton] at h
      subst h
      rcases mem_pair.mp hfwd with rfl | rfl
      · simp [typeOf]
      · simp [typeOf, hends]
    · cases h
  · obtain ⟨link, hmem, rfl | ⟨next, hnext, rfl⟩ | rfl⟩ := mem_messagesFrom _ _ h
    · rcases mem_pair.mp hfwd with rfl | rfl
      · simp [typeOf, hlink link hmem]
      · simp [typeOf, hends]
    · rcases mem_pair.mp hfwd with rfl | rfl
      · simp [typeOf, hlink next hnext]
      · simp [typeOf, hlink link hmem]
    · rcases mem_pair.mp hfwd with rfl | rfl
      · simp [typeOf, hlink link hmem]
      · simp [typeOf]

theorem first_egress {link : Id}
    (h : message ∈ if i = 0 then [ingressMessage path attempt circuitId remainingTime link] else []) :
    message.egress = none := by
  split at h
  · rw [mem_singleton.mp h]
    rfl
  · cases h

variable (net path attempt circuitId terminator remainingTime) in
theorem messagesFrom_last (links : List Id) (i : Nat) (link : Id) : ∃ others last,
    messagesFrom path attempt circuitId terminator remainingTime i (link :: links) =
        others ++ [egressMessage path attempt circuitId terminator remainingTime last] ∧
      ∀ message ∈ others, message.egress = none := by
  induction links generalizing i link with
  | nil => exact ⟨_, link, List.append_nil _, fun message hmem => first_egress hmem⟩
  | cons next links ih =>
    obtain ⟨others, last, heq, hnone⟩ := ih (i + 1) next
    refine ⟨messagesAt path attempt circuitId terminator remainingTime i link (some next) ++ others, last, ?_, ?_⟩
    · rw [messagesFrom, heq, List.append_assoc]
      rfl
    · intro message hmem
      rcases mem_append.mp hmem with hmem | hmem
      · rcases mem_append.mp hmem with hmem | hmem
        · exact first_egress hmem
        · rw [mem_singleton.mp hmem]
          rfl
      · exact hnone message hmem

theorem createRouteMessages_dials_iff :
    (∀ i message, (createRouteMessages net path attempt circuitId terminator remainingTime)[i]? = some message →
      (message.egress.isSome = true ↔ attempt ≠ smartRerouteAttempt ∧
        i + 1 = (createRouteMessages net path attempt circuitId terminator remainingTime).length)) ↔
      (path.links = [] → attempt ≠ smartRerouteAttempt) := by
  cases hlinks : path.links with
  | nil =>
    have hsingle : createRouteMessages net path attempt circuitId terminator remainingTime =
        [singleMessage path attempt circuitId terminator remainingTime] := by
      unfold createRouteMessages linkIds
      rw [hlinks]
      rfl
    rw [hsingle]
    constructor
    · intro h _
      exact ((h 0 _ rfl).mp rfl).1
    · intro h i message hi
      cases i with
      | zero =>
        cases hi
        exact ⟨fun _ => ⟨h rfl, rfl⟩, fun _ => rfl⟩
      | succ i => simp at hi
  | cons l links =>
    refine iff_of_true ?_ (by simp)
    obtain ⟨others, last, heq, hnone⟩ := messagesFrom_last path attempt circuitId terminator remainingTime
      (links.map (fun l => (net.link l).id)) 0 (net.link l).id
    have hmessages : createRouteMessages net path attempt circuitId terminator remainingTime =
        others ++ [egressMessage path attempt circuitId terminator remainingTime last] := by
      rw [createRouteMessages, linkIds, hlinks, List.map_cons, heq]
      rfl
    rw [hmessages]
    intro i message hi
    by_cases hlast : i = others.length
    · subst hlast
      simp only [List.getElem?_concat_length, Option.some.injEq] at hi
      subst hi
      unfold egressMessage
      by_cases hatt : attempt ≠ smartRerouteAttempt <;> simp
    · have hlt : i < others.length := by
        have := (getElem?_eq_some_iff.mp hi).1
        simp only [List.length_append, List.length_singleton] at this
        omega
      rw [List.getElem?_append_left hlt] at hi
      rw [hnone message (List.mem_of_getElem? hi)]
      simp [hlast]

end Sections

section Composition

theorem createRouteMessages_length (hlinked : LinkedBy net path.nodes path.links) :
    (createRouteMessages net path attempt circuitId terminator remainingTime).length = path.nodes.length := by
  rw [ServeAll.length createRouteMessages_serve, hlinked.length]
  simp

/-- Every router knows every address of the path. -/
def knowing (addrs : List Address) (_ : RouterRef) : Forwarder := { destinations := addAll ∅ addrs }

theorem installed_knowing (nodes : List RouterRef) (hserve : ServeAll circuitId messages addrs) :
    Installed nodes messages ((nodes.zip messages).foldl install (knowing addrs)) := by
  have hknown (sent : RouterRef × Route) (hsent : sent ∈ nodes.zip messages) (f : RouteForward)
      (hf : f ∈ sent.2.forwards) : (knowing addrs sent.1).hasDestination f.dstAddress = true := by
    obtain ⟨i, -, hi⟩ := mem_zip_index hsent
    obtain ⟨a, b, ha, hb, hserves⟩ := hserve.get hi
    have hmem : f.dstAddress ∈ addrs := by
      rcases hserves.only f hf with ⟨-, h⟩ | ⟨-, h⟩ <;> rw [h]
      · exact List.mem_of_getElem? hb
      · exact List.mem_of_getElem? ha
    simp [knowing, hasDestination, mem_addAll, hmem]
  refine ⟨⟨knowing addrs, nodes.zip messages, fun sent hsent f hf _ => hknown sent hsent f hf, .refl _,
    fun r => rfl⟩, fun sent hsent f hf => ?_⟩
  have := hknown sent hsent f hf
  unfold hasDestination at this ⊢
  rwa [install_destinations]

/-- A router that is joined to itself can not tell the two directions of the
link apart. -/
theorem chain_of_carried {nodes : List RouterRef} {links : List LinkRef} {forwarders : RouterRef → Forwarder}
    (hlinked : LinkedBy net nodes links) (hnodup : (addresses net links src dst).Nodup)
    (hforth : Carried net forwarders circuitId nodes links src dst)
    (hback : Carried net forwarders circuitId nodes.reverse links.reverse dst src) : nodes.IsChain (· ≠ ·) := by
  rw [carried_iff hlinked] at hforth
  rw [carried_reverse_iff hlinked] at hback
  refine List.isChain_iff_getElem.mpr (fun i hi heq => ?_)
  have hlength : (addresses net links src dst).length = nodes.length + 1 := by
    simp [addresses, hlinked.length]
  have hto := hforth (i + 1) _ _ _ (getElem?_eq_getElem hi)
    (getElem?_eq_getElem (by omega)) (getElem?_eq_getElem (by omega))
  have hfrom := hback i _ _ _ (getElem?_eq_getElem (Nat.lt_of_succ_lt hi))
    (getElem?_eq_getElem (by omega)) (getElem?_eq_getElem (by omega))
  rw [heq] at hfrom
  have hsame := Except.ok.inj (hfrom.symm.trans hto)
  have := hnodup.getElem_inj_iff.mp hsame
  omega

/-- The messages make a circuit, except for a reroute over a path of one
router, which is dialed again, or over a router that is joined to itself. -/
theorem route_messages_compose_iff (net : Network) (path : Path) (attempt : Nat) (circuitId : Id)
    (terminator : Terminator) (remainingTime : Nat) (hlinked : LinkedBy net path.nodes path.links)
    (hnodup : (addresses net path.links path.ingressId path.egressId).Nodup) :
    Composes net path attempt (createRouteMessages net path attempt circuitId terminator remainingTime) circuitId ↔
      (path.links = [] → attempt ≠ smartRerouteAttempt) ∧ path.nodes.IsChain (· ≠ ·) := by
  have hserve : ServeAll circuitId (createRouteMessages net path attempt circuitId terminator remainingTime)
    (addresses net path.links path.ingressId path.egressId) := createRouteMessages_serve
  have hlength : (createRouteMessages net path attempt circuitId terminator remainingTime).length =
    path.nodes.length := createRouteMessages_length hlinked
  constructor
  · intro h
    have hinstalled := installed_knowing path.nodes hserve
    exact ⟨createRouteMessages_dials_iff.mp h.dials,
      chain_of_carried hlinked hnodup (h.forth _ hinstalled) (h.back _ hinstalled)⟩
  · rintro ⟨hattempt, hchain⟩
    exact {
      count := hlength
      typed := fun message hmessage forward hforward => createRouteMessages_typed hnodup hmessage hforward
      forth := fun forwarders h => (carried_iff hlinked).mpr
        (fun i r a b hr ha hb => (h.both hserve hnodup hchain hlength hr ha hb).1)
      back := fun forwarders h => (carried_reverse_iff hlinked).mpr
        (fun i r a b hr ha hb => (h.both hserve hnodup hchain hlength hr ha hb).2)
      dials := createRouteMessages_dials_iff.mpr hattempt }

def joinedPair : Network where
  router r := if r = 0 then { id := "a" } else { id := "b" }
  link _ := { id := "ab", src := 0, dstId := "b", dst := some 1 }

def pairPath : Path := { nodes := [0, 1], links := [0], ingressId := "in", egressId := "out" }

def hosted : Terminator := ⟨"t", "s", "b", "edge", "addr"⟩

theorem pairPath_composes : Composes joinedPair pairPath smartRerouteAttempt
    (createRouteMessages joinedPair pairPath smartRerouteAttempt "c" hosted 10) "c" := by
  refine (route_messages_compose_iff joinedPair pairPath smartRerouteAttempt "c" hosted 10 ⟨rfl, ?_⟩
    (by decide)).mpr ⟨by decide, by decide⟩
  intro i l a b hl ha hb
  cases i with
  | zero =>
    cases ha
    cases hb
    exact .inl ⟨rfl, rfl⟩
  | succ i => simp [pairPath] at hl

def lonePath : Path := { nodes := [1], ingressId := "in", egressId := "out" }

/-- The message of a reroute within one router asks for a dial. The router skips it
while it has the egress destination. -/
theorem lone_reroute_dials : LinkedBy joinedPair lonePath.nodes lonePath.links ∧
    (addresses joinedPair lonePath.links lonePath.ingressId lonePath.egressId).Nodup ∧
    (createRouteMessages joinedPair lonePath smartRerouteAttempt "c" hosted 10).map Route.egress =
      [some ⟨"edge", "out", "addr"⟩] ∧ ¬ Composes joinedPair lonePath smartRerouteAttempt
      (createRouteMessages joinedPair lonePath smartRerouteAttempt "c" hosted 10) "c" := by
  refine ⟨⟨rfl, fun i l a b hl => by simp [lonePath] at hl⟩, by decide, by decide, fun h => ?_⟩
  exact ((h.dials 0 _ rfl).mp rfl).1 rfl

end Composition

end Zt.RouteDelivery
