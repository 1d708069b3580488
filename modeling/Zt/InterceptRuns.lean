import Zt.InterceptAddresses
import Zt.Runs

namespace Zt.InterceptRuns

open DnsResolver InterceptAddresses Runs

section Relations

variable (cm : CaseMap) (s : State)

def hostKey (hostname : Name) : Name := toLower cm hostname ++ ['.']

def lookup (key : Name) : Option (Option Addr) := s.resolver.wrapped.names.lookup key

/-- The service is the one whose removal takes the name out. -/
def Owns (svc : SvcRef) (key : Name) : Prop :=
  ∃ hostname, .removeHostname hostname ∈ (s.services svc).cleanupActions ∧ hostKey cm hostname = key

def HasAll (svc : SvcRef) (hostname : Name) : Prop :=
  Owns cm s svc (hostKey cm hostname) ∧
    ∀ protocol ∈ (s.services svc).protocols, ∀ r ∈ (s.services svc).portRanges, Has cm s svc hostname protocol r

def Ready (svc : SvcRef) (hostname : Name) : Prop := lookup s (hostKey cm hostname) = none ∨ HasAll cm s svc hostname

structure Inv (getCidr : Name → Option IPNet) : Prop where
  uncounted : ∀ name, s.resolver.names.lookup name = none
  owned : ∀ svc key, Owns cm s svc key → lookup s key ≠ none
  unique : ∀ svc svc' key, Owns cm s svc key → Owns cm s svc' key → svc = svc'
  has : ∀ svc, (s.services svc).live = true → ∀ hostname ∈ (s.services svc).addresses, IsPlain getCidr hostname →
    ∀ protocol ∈ (s.services svc).protocols, ∀ r ∈ (s.services svc).portRanges,
      Owns cm s svc (hostKey cm hostname) ∧ Has cm s svc hostname protocol r

structure SameConfig (v v' : Service) : Prop where
  live : v'.live = v.live
  addresses : v'.addresses = v.addresses
  portRanges : v'.portRanges = v.portRanges
  protocols : v'.protocols = v.protocols
  given : ∀ a ∈ v.given, a ∈ v'.given

/-- What may happen while a service gets its addresses: names are added, and
those that are new belong to the service. -/
structure Advances (svc : SvcRef) (s s' : State) : Prop where
  counts : s'.resolver.names = s.resolver.names
  names : ∀ key ip, lookup s key = some ip → lookup s' key = some ip
  owns : ∀ v key, Owns cm s v key → Owns cm s' v key
  newOwns : ∀ v key, Owns cm s' v key → Owns cm s v key ∨ v = svc ∧ lookup s key = none ∧ lookup s' key ≠ none
  services : ∀ v, SameConfig (s.services v) (s'.services v)

end Relations

variable {cm : CaseMap} {ipString : Option Addr → String} {getCidr : Name → Option IPNet} {s s' : State}
  {svc v : SvcRef} {protocol : String} {r : PortRange} {hostname : Name} {ip : Addr} {ipNet : IPNet}

theorem SameConfig.refl (v : Service) : SameConfig v v := ⟨rfl, rfl, rfl, rfl, fun _ h => h⟩

theorem SameConfig.trans {a b c : Service} (h : SameConfig a b) (h' : SameConfig b c) : SameConfig a c :=
  ⟨h'.live.trans h.live, h'.addresses.trans h.addresses, h'.portRanges.trans h.portRanges,
    h'.protocols.trans h.protocols, fun a ha => h'.given a (h.given a ha)⟩

theorem Advances.refl (svc : SvcRef) (s : State) : Advances cm svc s s :=
  ⟨rfl, fun _ _ h => h, fun _ _ h => h, fun _ _ h => .inl h, fun _ => .refl _⟩

theorem Advances.trans {a b c : State} (h : Advances cm svc a b) (h' : Advances cm svc b c) : Advances cm svc a c where
  counts := h'.counts.trans h.counts
  names key ip hl := h'.names key ip (h.names key ip hl)
  owns v key ho := h'.owns v key (h.owns v key ho)
  newOwns v key ho := by
    have hnone : ∀ {key}, lookup b key = none → lookup a key = none := by
      intro key hb
      cases ha : lookup a key with
      | none => rfl
      | some ip =>
        rw [h.names key ip ha] at hb
        cases hb
    rcases h'.newOwns v key ho with hb | ⟨hv, hb, hc⟩
    · rcases h.newOwns v key hb with ha | ⟨hv, ha, hsome⟩
      · exact .inl ha
      · obtain ⟨ip, hip⟩ := Option.ne_none_iff_exists'.mp hsome
        refine .inr ⟨hv, ha, ?_⟩
        rw [h'.names key ip hip]
        exact Option.some_ne_none ip
    · exact .inr ⟨hv, hnone hb, hc⟩
  services v := (h.services v).trans (h'.services v)

theorem has_iff :
    Has cm s svc hostname protocol r ↔ ∃ ip, lookup s (hostKey cm hostname) = some (some ip) ∧
      ⟨hostNet ip, false, r.low, r.high, protocol⟩ ∈ (s.services svc).given := by
  simp only [Has, RefCountingResolver.lookupIP, lookupIP_host]
  rfl

theorem Advances.keeps_has (h : Advances cm svc s s')
    (hh : Has cm s v hostname protocol r) : Has cm s' v hostname protocol r := by
  obtain ⟨ip, hip, hgiven⟩ := has_iff.mp hh
  exact has_iff.mpr ⟨ip, h.names _ _ hip, (h.services v).given _ hgiven⟩

theorem Advances.hasAll (h : Advances cm svc s s') (hh : HasAll cm s svc hostname) : HasAll cm s' svc hostname := by
  refine ⟨h.owns _ _ hh.1, fun protocol hp r hr => h.keeps_has (hh.2 protocol ?_ r ?_)⟩
  · rwa [(h.services svc).protocols] at hp
  · rwa [(h.services svc).portRanges] at hr

theorem Inv.advance (hi : Inv cm s getCidr) (h : Advances cm svc s s') : Inv cm s' getCidr where
  uncounted name := by
    rw [h.counts]
    exact hi.uncounted name
  owned v key ho := by
    rcases h.newOwns v key ho with hold | ⟨_, _, hsome⟩
    · obtain ⟨ip, hip⟩ := Option.ne_none_iff_exists'.mp (hi.owned v key hold)
      rw [h.names key ip hip]
      exact Option.some_ne_none ip
    · exact hsome
  unique v v' key ho ho' := by
    rcases h.newOwns v key ho with hold | ⟨hv, hnone, _⟩
    · rcases h.newOwns v' key ho' with hold' | ⟨_, hnone, _⟩
      · exact hi.unique v v' key hold hold'
      · exact absurd hnone (hi.owned v key hold)
    · rcases h.newOwns v' key ho' with hold' | ⟨hv', _, _⟩
      · exact absurd hnone (hi.owned v' key hold')
      · exact hv.trans hv'.symm
  has v hlive hostname hmem hplain protocol hp r hr := by
    have hconf := h.services v
    rw [hconf.live] at hlive
    rw [hconf.addresses] at hmem
    rw [hconf.protocols] at hp
    rw [hconf.portRanges] at hr
    obtain ⟨ho, hh⟩ := hi.has v hlive hostname hmem hplain protocol hp r hr
    exact ⟨h.owns _ _ ho, h.keeps_has hh⟩

/-- Getting an address for a name leaves the others as they were. -/
structure Obtains (cm : CaseMap) (svc : SvcRef) (hostname : Name) (s s' : State) : Prop extends Advances cm svc s s' where
  ready : ∀ other, Ready cm s svc other → Ready cm s' svc other
  obtains : Ready cm s svc hostname → HasAll cm s' svc hostname

theorem allocateIp_rest (h : allocateIp s = some (ip, s')) : s'.resolver = s.resolver ∧ s'.services = s.services := by
  unfold allocateIp at h
  split at h
  · cases h
    exact ⟨rfl, rfl⟩
  · split at h
    · cases h
    · split at h
      · cases h
        exact ⟨rfl, rfl⟩
      · cases h

def withHost (cm : CaseMap) (ipString : Option Addr → String) (s : State) (hostname : Name) (ip : Option Addr) : State :=
  { s with resolver := { s.resolver with wrapped := (addHostname cm ipString s.resolver.wrapped hostname ip).1 } }

theorem lookup_withHost {ip : Option Addr} {key : Name} :
    lookup (withHost cm ipString s hostname ip) key =
      if key = hostKey cm hostname ∧ lookup s key = none then some ip else lookup s key :=
  addHostname_names hostname ip key

theorem advances_same (hcounts : s'.resolver.names = s.resolver.names) (hlook : ∀ key, lookup s' key = lookup s key)
    (howns : ∀ v key, Owns cm s' v key ↔ Owns cm s v key) (hsvcs : ∀ v, SameConfig (s.services v) (s'.services v)) :
    Advances cm svc s s' where
  counts := hcounts
  names key ip h := by
    rw [hlook]
    exact h
  owns v key h := (howns v key).mpr h
  newOwns v key h := .inl ((howns v key).mp h)
  services := hsvcs

theorem obtains_found {ip : Option Addr} (h : lookup s (hostKey cm hostname) = some ip) :
    Obtains cm svc hostname s (withHost cm ipString s hostname ip) := by
  have hlook : ∀ key, lookup (withHost cm ipString s hostname ip) key = lookup s key := by
    intro key
    rw [lookup_withHost]
    split
    · rename_i hkey
      rw [hkey.1, h] at hkey
      cases hkey.2
    · rfl
  have hadv : Advances cm svc s (withHost cm ipString s hostname ip) :=
    advances_same rfl hlook (fun _ _ => .rfl) (fun _ => .refl _)
  refine ⟨hadv, fun other hother => ?_, fun hready => ?_⟩
  · rcases hother with hnone | hall
    · left
      rw [hlook]
      exact hnone
    · exact .inr (hadv.hasAll hall)
  · rcases hready with hnone | hall
    · rw [h] at hnone
      cases hnone
    · exact hadv.hasAll hall

theorem mem_addrCB {v : Service} {route : Bool} (hp : protocol ∈ v.protocols) (hr : r ∈ v.portRanges) :
    ⟨ipNet, route, r.low, r.high, protocol⟩ ∈ (addrCB v ipNet route).given := by
  refine List.mem_append_right _ (List.mem_flatMap.mpr ⟨protocol, hp, List.mem_map.mpr ⟨r, hr, rfl⟩⟩)

theorem sameConfig_addrCB {v : Service} {route : Bool} : SameConfig v (addrCB v ipNet route) :=
  ⟨rfl, rfl, rfl, rfl, fun _ h => List.mem_append_left _ h⟩

def allocated (s : State) (svc : SvcRef) (hostname : Name) (ip : Addr) : State :=
  setService s svc (fun v =>
    { addrCB v (hostNet ip) false with cleanupActions := v.cleanupActions ++ [.removeHostname hostname] })

theorem services_setService (f : Service → Service) :
    (setService s svc f).services v = if v = svc then f (s.services svc) else s.services v := by
  simp [setService, Function.update_apply]

theorem owns_allocated {key : Name} :
    Owns cm (allocated s svc hostname ip) v key ↔ Owns cm s v key ∨ v = svc ∧ key = hostKey cm hostname := by
  unfold Owns allocated
  rw [services_setService]
  by_cases hv : v = svc
  · subst hv
    rw [if_pos rfl]
    constructor
    · rintro ⟨other, hmem, hkey⟩
      rcases List.mem_append.mp hmem with hold | hnew
      · exact .inl ⟨other, hold, hkey⟩
      · cases List.mem_singleton.mp hnew
        exact .inr ⟨rfl, hkey.symm⟩
    · rintro (⟨other, hold, hkey⟩ | ⟨_, hkey⟩)
      · exact ⟨other, List.mem_append_left _ hold, hkey⟩
      · exact ⟨hostname, List.mem_append_right _ List.mem_cons_self, hkey.symm⟩
  · rw [if_neg hv]
    exact ⟨.inl, fun h => h.resolve_right (fun h => hv h.1)⟩

theorem obtains_allocated (hnone : lookup s (hostKey cm hostname) = none)
    (hresolver : s'.resolver = s.resolver) (hsvcs : s'.services = s.services) :
    Obtains cm svc hostname s (withHost cm ipString (allocated s' svc hostname ip) hostname (some ip)) := by
  have hlook : ∀ key, lookup (withHost cm ipString (allocated s' svc hostname ip) hostname (some ip)) key =
      if key = hostKey cm hostname then some (some ip) else lookup s key := by
    intro key
    have hbefore : lookup (allocated s' svc hostname ip) key = lookup s key := by
      simp [lookup, allocated, setService, hresolver]
    rw [lookup_withHost, hbefore]
    by_cases hkey : key = hostKey cm hostname
    · rw [if_pos hkey, if_pos ⟨hkey, hkey ▸ hnone⟩]
    · rw [if_neg hkey, if_neg (fun h => hkey h.1)]
  have howns : ∀ v key, Owns cm (withHost cm ipString (allocated s' svc hostname ip) hostname (some ip)) v key ↔
      Owns cm s v key ∨ v = svc ∧ key = hostKey cm hostname := by
    intro v key
    have hsame : Owns cm s' v key ↔ Owns cm s v key := by
      simp [Owns, hsvcs]
    rw [← hsame]
    exact owns_allocated
  have hself : (withHost cm ipString (allocated s' svc hostname ip) hostname (some ip)).services svc =
      { addrCB (s.services svc) (hostNet ip) false with
        cleanupActions := (s.services svc).cleanupActions ++ [.removeHostname hostname] } := by
    simp [withHost, allocated, services_setService, hsvcs]
  have hadv : Advances cm svc s (withHost cm ipString (allocated s' svc hostname ip) hostname (some ip)) := by
    refine ⟨?_, fun key ip' h => ?_, fun v key h => (howns v key).mpr (.inl h), fun v key h => ?_, fun v => ?_⟩
    · simp [withHost, allocated, setService, hresolver]
    · have hkey : key ≠ hostKey cm hostname := by
        rintro rfl
        rw [hnone] at h
        cases h
      rw [hlook, if_neg hkey]
      exact h
    · rcases (howns v key).mp h with hold | ⟨hv, hkey⟩
      · exact .inl hold
      · rw [hkey, hlook, if_pos rfl]
        exact .inr ⟨hv, hnone, Option.some_ne_none _⟩
    · by_cases hv : v = svc
      · subst hv
        rw [hself]
        exact ⟨rfl, rfl, rfl, rfl, fun _ h => List.mem_append_left _ h⟩
      · simp only [withHost, allocated, services_setService, if_neg hv, hsvcs]
        exact .refl _
  have hall : ∀ other, hostKey cm other = hostKey cm hostname →
      HasAll cm (withHost cm ipString (allocated s' svc hostname ip) hostname (some ip)) svc other := by
    intro other hkey
    refine ⟨(howns svc _).mpr (.inr ⟨rfl, hkey⟩), fun protocol hp r hr => has_iff.mpr ⟨ip, ?_, ?_⟩⟩
    · rw [hlook, if_pos hkey]
    · rw [hself] at hp hr ⊢
      exact mem_addrCB hp hr
  refine ⟨hadv, fun other hother => ?_, fun _ => hall hostname rfl⟩
  by_cases hkey : hostKey cm other = hostKey cm hostname
  · exact .inr (hall other hkey)
  · rcases hother with hother | hother
    · left
      rw [hlook, if_neg hkey]
      exact hother
    · exact .inr (hadv.hasAll hother)

theorem obtains_dns {ip : Option Addr} (h : getDnsIp cm s svc hostname = (s', .ok ip)) :
    Obtains cm svc hostname s (withHost cm ipString s' hostname ip) := by
  unfold getDnsIp at h
  rw [RefCountingResolver.lookupIP, lookupIP_host] at h
  split at h
  · rename_i found hfound
    cases h
    exact obtains_found hfound
  · rename_i hnone
    split at h
    · cases h
    · rename_i ip' s₁ halloc
      cases h
      obtain ⟨hresolver, hsvcs⟩ := allocateIp_rest halloc
      exact obtains_allocated hnone hresolver hsvcs

theorem getDnsIp_error {err : String} (h : getDnsIp cm s svc hostname = (s', .error err)) : s' = s := by
  unfold getDnsIp at h
  split at h
  · cases h
  · split at h
    · cases h
      rfl
    · cases h

theorem advances_setService {f : Service → Service} (hconf : ∀ v, SameConfig v (f v))
    (hactions : ∀ v hostname, .removeHostname hostname ∈ (f v).cleanupActions ↔
      .removeHostname hostname ∈ v.cleanupActions)
    (hcounts : s'.resolver.names = s.resolver.names) (hnames : s'.resolver.wrapped.names = s.resolver.wrapped.names)
    (hsvcs : s'.services = s.services) : Advances cm svc s (setService s' svc f) := by
  refine advances_same hcounts (fun key => ?_) (fun v key => ?_) (fun v => ?_)
  · simp [lookup, setService, hnames]
  · unfold Owns
    rw [services_setService, hsvcs]
    by_cases hv : v = svc
    · subst hv
      simp [hactions]
    · rw [if_neg hv]
  · rw [services_setService, hsvcs]
    by_cases hv : v = svc
    · subst hv
      rw [if_pos rfl]
      exact hconf _
    · rw [if_neg hv]
      exact .refl _

theorem Advances.ready (h : Advances cm svc s s') (hlook : ∀ key, lookup s' key = lookup s key) {other : Name}
    (hother : Ready cm s svc other) : Ready cm s' svc other := by
  rcases hother with hnone | hall
  · left
    rw [hlook]
    exact hnone
  · exact .inr (h.hasAll hall)

structure Proceeds (cm : CaseMap) (getCidr : Name → Option IPNet) (svc : SvcRef) (hostname : Name) (s s' : State)
    (result : Except String Unit) : Prop extends Advances cm svc s s' where
  ready : ∀ other, Ready cm s svc other → Ready cm s' svc other
  obtains : result = .ok () → IsPlain getCidr hostname → Ready cm s svc hostname → HasAll cm s' svc hostname

variable {result : Except String Unit}

theorem proceeds_getInterceptIP (h : getInterceptIP cm ipString getCidr s svc hostname = some (s', result)) :
    Proceeds cm getCidr svc hostname s s' result := by
  unfold getInterceptIP at h
  split at h
  · rename_i hstar
    cases hostname with
    | nil => cases hstar
    | cons c sfx =>
      cases hstar
      cases h
      have hadv : Advances cm svc s (setService { s with resolver := { s.resolver with wrapped :=
          { s.resolver.wrapped with domains :=
            s.resolver.wrapped.domains.insert (sfx ++ ['.']) ⟨'*' :: sfx, svc⟩ } } } svc (fun v =>
          { v with cleanupActions := v.cleanupActions ++ [.removeDomain ('*' :: sfx)] })) := by
        refine advances_setService (fun v => ⟨rfl, rfl, rfl, rfl, fun _ h => h⟩) (fun v other => ?_) rfl rfl rfl
        simp
      exact ⟨hadv, fun other => hadv.ready (fun _ => rfl), fun _ hplain => absurd rfl hplain.1⟩
  · split at h
    · cases h
    · split at h
      · rename_i ipNet hcidr
        cases h
        have hadv : Advances cm svc s (setService s svc (fun v => addrCB v ipNet true)) :=
          advances_setService (fun v => sameConfig_addrCB) (fun _ _ => .rfl) rfl rfl rfl
        refine ⟨hadv, fun other => hadv.ready (fun _ => rfl), fun _ hplain => ?_⟩
        rw [hplain.2] at hcidr
        cases hcidr
      · split at h
        · rename_i hdns
          cases h
          rw [getDnsIp_error hdns]
          exact ⟨.refl svc s, fun _ h => h, fun herr => by cases herr⟩
        · rename_i s₁ ip hdns
          cases h
          rw [addHostname_uncounted]
          have hobtains : Obtains cm svc hostname s (withHost cm ipString s₁ hostname ip) := obtains_dns hdns
          exact ⟨hobtains.toAdvances, hobtains.ready, fun _ _ => hobtains.obtains⟩

theorem getInterceptAddresses_spec {addrs : List Name}
    (h : getInterceptAddresses cm ipString getCidr svc addrs s = some (s', result)) :
    Advances cm svc s s' ∧ (result = .ok () → (∀ hostname ∈ addrs, IsPlain getCidr hostname → Ready cm s svc hostname) →
      ∀ hostname ∈ addrs, IsPlain getCidr hostname → HasAll cm s' svc hostname) := by
  induction addrs generalizing s with
  | nil =>
    cases h
    exact ⟨.refl svc _, fun _ _ hostname hmem => by cases hmem⟩
  | cons addr addrs ih =>
    unfold getInterceptAddresses at h
    split at h
    · cases h
    · rename_i s₁ err hfirst
      cases h
      exact ⟨(proceeds_getInterceptIP hfirst).toAdvances, fun herr => by cases herr⟩
    · rename_i s₁ hfirst
      have hp := proceeds_getInterceptIP hfirst
      obtain ⟨hadv, hall⟩ := ih h
      refine ⟨hp.toAdvances.trans hadv, fun hok hready hostname hmem hplain => ?_⟩
      rcases List.mem_cons.mp hmem with rfl | hmem
      · exact hadv.hasAll (hp.obtains rfl hplain (hready hostname List.mem_cons_self hplain))
      · refine hall hok (fun other hother hplain => ?_) hostname hmem hplain
        exact hp.ready other (hready other (List.mem_cons_of_mem _ hother) hplain)

theorem inv_newService (hi : Inv cm s getCidr) (addresses : List Name) (portRanges : List PortRange)
    (protocols : List String) : Inv cm { setService s s.nextService (fun _ =>
      ⟨addresses, portRanges, protocols, [], [], false⟩) with nextService := s.nextService + 1 } getCidr := by
  have hother : ∀ v key, Owns cm (setService s s.nextService (fun _ =>
      ⟨addresses, portRanges, protocols, [], [], false⟩)) v key → Owns cm s v key ∧ v ≠ s.nextService := by
    rintro v key ⟨hostname, hmem, hkey⟩
    rw [services_setService] at hmem
    by_cases hv : v = s.nextService
    · rw [if_pos hv] at hmem
      cases hmem
    · rw [if_neg hv] at hmem
      exact ⟨⟨hostname, hmem, hkey⟩, hv⟩
  refine ⟨hi.uncounted, fun v key ho => hi.owned v key (hother v key ho).1,
    fun v v' key ho ho' => hi.unique v v' key (hother v key ho).1 (hother v' key ho').1, fun v hlive => ?_⟩
  have hv : v ≠ s.nextService := by
    rintro rfl
    simp only [setService, Function.update_self] at hlive
    cases hlive
  simp only [Has, Owns, setService, Function.update_of_ne hv] at hlive ⊢
  exact hi.has v hlive

theorem services_live : (setService s svc (fun v => { v with live := true })).services v =
      { s.services v with live := if v = svc then true else (s.services v).live } := by
  rw [services_setService]
  by_cases hv : v = svc
  · rw [if_pos hv, if_pos hv, hv]
  · rw [if_neg hv, if_neg hv]

theorem inv_addService (hi : Inv cm s getCidr) {addresses : List Name} {portRanges : List PortRange}
    {protocols : List String} (hcond : AddsUnresolved cm getCidr s (.add addresses portRanges protocols))
    (h : addService cm ipString getCidr s addresses portRanges protocols = some s') : Inv cm s' getCidr := by
  simp only [addService] at h
  have hnew := inv_newService hi addresses portRanges protocols
  split at h
  · cases h
  · rename_i s₁ err hspec
    cases h
    exact hnew.advance (getInterceptAddresses_spec hspec).1
  · rename_i s₁ hspec
    cases h
    obtain ⟨hadv, hall⟩ := getInterceptAddresses_spec hspec
    have hi₁ := hnew.advance hadv
    have hconf := hadv.services s.nextService
    simp only [setService, Function.update_self] at hconf
    have howns : ∀ v key, Owns cm (setService s₁ s.nextService (fun v => { v with live := true })) v key ↔
        Owns cm s₁ v key := by
      simp [Owns, services_live]
    refine ⟨hi₁.uncounted, fun v key ho => hi₁.owned v key ((howns v key).mp ho),
      fun v v' key ho ho' => hi₁.unique v v' key ((howns v key).mp ho) ((howns v' key).mp ho'),
      fun v hlive hostname hmem hplain protocol hp r hr => ?_⟩
    rw [services_live] at hlive hmem hp hr
    rw [howns, has_iff, services_live]
    change _ ∧ ∃ ip, lookup s₁ _ = _ ∧ _
    rw [← has_iff]
    by_cases hv : v = s.nextService
    · subst hv
      simp only [hconf.addresses] at hmem
      simp only [hconf.protocols] at hp
      simp only [hconf.portRanges] at hr
      have hunresolved := hcond (List.ne_nil_of_mem hp) (List.ne_nil_of_mem hr)
      have hready : ∀ other ∈ addresses, IsPlain getCidr other → lookup s (hostKey cm other) = none := by
        intro other hother hplain'
        have hnone := hunresolved other hother hplain'
        rwa [RefCountingResolver.lookupIP, lookupIP_host] at hnone
      obtain ⟨ho, hhas⟩ := hall rfl (fun other hother hplain' => .inl (hready other hother hplain')) hostname hmem hplain
      refine ⟨ho, hhas protocol ?_ r ?_⟩
      · rwa [hconf.protocols]
      · rwa [hconf.portRanges]
    · simp only [if_neg hv] at hlive
      exact hi₁.has v hlive hostname hmem hplain protocol hp r hr

/-- What a run of cleanup actions leaves to the names it does not take out. -/
structure Releases (cm : CaseMap) (actions : List Cleanup) (s s' : State) : Prop where
  uncounted : (∀ name, s.resolver.names.lookup name = none) → ∀ name, s'.resolver.names.lookup name = none
  services : s'.services = s.services
  names : (∀ name, s.resolver.names.lookup name = none) → ∀ key,
    (∀ hostname, .removeHostname hostname ∈ actions → hostKey cm hostname ≠ key) → lookup s' key = lookup s key

theorem releases_cleanUp {action : Cleanup} (h : cleanUp cm ipString s action = some s') :
    Releases cm [action] s s' := by
  cases action with
  | removeHostname hostname =>
    simp only [cleanUp, Option.some.injEq] at h
    subst h
    refine ⟨fun hun => (removeHostname_uncounted cm ipString hun hostname).1, rfl, fun hun key hkey => ?_⟩
    have hne := hkey hostname List.mem_cons_self
    simp only [lookup, (removeHostname_uncounted cm ipString hun hostname).2.1, removeHostname_names]
    exact if_neg (fun heq => hne heq.symm)
  | removeDomain hostname =>
    cases hostname with
    | nil => cases h
    | cons c sfx =>
      simp only [cleanUp, RefCountingResolver.removeDomain, removeDomain] at h
      split at h
      · cases h
        exact ⟨fun hun => hun, rfl, fun _ _ _ => rfl⟩
      · cases h
        exact ⟨fun hun => hun, rfl, fun _ _ _ => rfl⟩

theorem releases_foldlM {actions : List Cleanup} (h : actions.foldlM (cleanUp cm ipString) s = some s') :
    Releases cm actions s s' := by
  induction actions generalizing s with
  | nil =>
    cases h
    exact ⟨fun hun => hun, rfl, fun _ _ _ => rfl⟩
  | cons action actions ih =>
    rw [List.foldlM_cons] at h
    cases hfirst : cleanUp cm ipString s action with
    | none =>
      rw [hfirst] at h
      cases h
    | some s₁ =>
      rw [hfirst] at h
      have hone := releases_cleanUp hfirst
      have hrest := ih h
      refine ⟨fun hun => hrest.uncounted (hone.uncounted hun), hrest.services.trans hone.services,
        fun hun key hkey => ?_⟩
      rw [hrest.names (hone.uncounted hun) key (fun hostname hmem => hkey hostname (List.mem_cons_of_mem _ hmem))]
      refine hone.names hun key (fun hostname hmem => hkey hostname ?_)
      rw [List.mem_singleton.mp hmem]
      exact List.mem_cons_self

theorem inv_runCleanupActions (hi : Inv cm s getCidr) (h : runCleanupActions cm ipString s svc = some s') :
    Inv cm s' getCidr := by
  simp only [runCleanupActions, Option.map_eq_some_iff] at h
  obtain ⟨s₁, hfold, rfl⟩ := h
  have hr := releases_foldlM hfold
  have hother : ∀ v key, Owns cm (setService s₁ svc (fun v => { v with cleanupActions := [], live := false })) v key →
      Owns cm s v key ∧ v ≠ svc := by
    rintro v key ⟨hostname, hmem, hkey⟩
    rw [services_setService, hr.services] at hmem
    by_cases hv : v = svc
    · rw [if_pos hv] at hmem
      cases hmem
    · rw [if_neg hv] at hmem
      exact ⟨⟨hostname, hmem, hkey⟩, hv⟩
  -- a name has one owner, so what another service owns stays
  have hstays : ∀ v key, Owns cm s v key → v ≠ svc → lookup s₁ key = lookup s key := by
    intro v key ho hv
    refine hr.names hi.uncounted key (fun hostname hmem hkey => hv ?_)
    exact hi.unique v svc key ho ⟨hostname, hmem, hkey⟩
  refine ⟨hr.uncounted hi.uncounted, fun v key ho => ?_, fun v v' key ho ho' => ?_,
    fun v hlive hostname hmem hplain protocol hp r hrange => ?_⟩
  · obtain ⟨hold, hv⟩ := hother v key ho
    have hlook : lookup s₁ key ≠ none := by
      rw [hstays v key hold hv]
      exact hi.owned v key hold
    exact hlook
  · exact hi.unique v v' key (hother v key ho).1 (hother v' key ho').1
  · have hv : v ≠ svc := by
      rintro rfl
      rw [services_setService, if_pos rfl] at hlive
      cases hlive
    have hsvc : (setService s₁ svc (fun v => { v with cleanupActions := [], live := false })).services v =
        s.services v := by
      rw [services_setService, if_neg hv, hr.services]
    rw [hsvc] at hlive hmem hp hrange
    obtain ⟨ho, hhas⟩ := hi.has v hlive hostname hmem hplain protocol hp r hrange
    obtain ⟨ip, hip, hgiven⟩ := has_iff.mp hhas
    refine ⟨?_, has_iff.mpr ⟨ip, ?_, ?_⟩⟩
    · simp only [Owns, hsvc]
      exact ho
    · rw [← hip, ← hstays v _ ho hv]
      rfl
    · rw [hsvc]
      exact hgiven

theorem inv_getAddress (hi : Inv cm s getCidr) {name : Name} (h : getAddress cm ipString s name = some s') :
    Inv cm s' getCidr := by
  unfold getAddress at h
  split at h
  · cases h
    exact hi
  · split at h
    · cases h
    · split at h
      · cases h
        exact hi
      · split at h
        · rename_i hdns
          cases h
          rw [getDnsIp_error hdns]
          exact hi
        · rename_i s₁ ip hdns
          cases h
          exact hi.advance (obtains_dns hdns).toAdvances

theorem inv_step (hi : Inv cm s getCidr) (e : Event) (hcond : AddsUnresolved cm getCidr s e)
    (h : step cm ipString getCidr s e = some s') : Inv cm s' getCidr := by
  cases e with
  | add addresses portRanges protocols => exact inv_addService hi hcond h
  | remove svc => exact inv_runCleanupActions hi h
  | query name => exact inv_getAddress hi h

theorem inv_newState {dnsPrefix : Prefix} : Inv cm (newState dnsPrefix) getCidr where
  uncounted _ := rfl
  owned _ _ h := by
    obtain ⟨_, hmem, _⟩ := h
    cases hmem
  unique _ _ _ h := by
    obtain ⟨_, hmem, _⟩ := h
    cases hmem
  has _ h := by cases h

/-- If the hostnames of every service that is added do not resolve yet, then
each live service has the addresses its hostnames resolve to. -/
theorem services_intercept_resolved (cm : CaseMap) (ipString : Option Addr → String) (getCidr : Name → Option IPNet)
    (dnsPrefix : Prefix) (events : List Event) (s : State)
    (hevents : Admits (AddsUnresolved cm getCidr) (step cm ipString getCidr) (newState dnsPrefix) events)
    (hrun : events.foldlM (step cm ipString getCidr) (newState dnsPrefix) = some s) : Intercepts cm getCidr s := by
  have hi : Inv cm s getCidr := hevents.keeps (fun s => Inv cm s getCidr)
    (fun _ e _ hi hcond h => inv_step hi e hcond h) inv_newState hrun
  exact fun svc hlive hostname hmem hplain protocol hp r hr => (hi.has svc hlive hostname hmem hplain protocol hp r hr).2

def ipv4 (value : Nat) : Addr := ⟨32, value⟩

/-- 100.64.0.0/10, starting at 100.64.0.1. -/
def defaultRange : Prefix := ⟨ipv4 1681915905, 10⟩

def showAddr (ip : Option Addr) : String := ip.elim "<nil>" (fun ip => dotted ip.value)

def noCidr (_ : Name) : Option IPNet := none

/-- Two services with a hostname each, a wildcard that is queried, and one of them is removed. -/
def separateNames : List Event :=
  [.add ["mail.zt".toList, "*.web.zt".toList] [⟨443, 443⟩] ["tcp"], .query "a.web.zt.".toList,
    .add ["b.web.zt".toList] [⟨80, 90⟩] ["tcp", "udp"], .remove 0]

theorem separate_names_intercepted :
    ∃ s, separateNames.foldlM (step asciiCase showAddr noCidr) (newState defaultRange) = some s ∧
      (s.services 1).live = true ∧ Intercepts asciiCase noCidr s := by
  have hevents : Admits (AddsUnresolved asciiCase noCidr) (step asciiCase showAddr noCidr) (newState defaultRange)
      separateNames := by
    decide +kernel
  have hlive : (separateNames.foldlM (step asciiCase showAddr noCidr) (newState defaultRange)).map
      (fun s => (s.services 1).live) = some true := by
    decide +kernel
  obtain ⟨s, hrun, hs⟩ := Option.map_eq_some_iff.mp hlive
  exact ⟨s, hrun, hs, services_intercept_resolved asciiCase showAddr noCidr defaultRange separateNames s hevents hrun⟩

/-- Two services with the same hostname. -/
def sharedName : List Event :=
  [.add ["mail.zt".toList] [⟨443, 443⟩] ["tcp"], .add ["mail.zt".toList] [⟨25, 25⟩] ["tcp"]]

/-- The second service is live but has been given no address at all. -/
theorem second_service_not_given :
    ∃ s, sharedName.foldlM (step asciiCase showAddr noCidr) (newState defaultRange) = some s ∧
      (s.services 1).live = true ∧ (s.services 1).given = [] ∧ ¬ Intercepts asciiCase noCidr s := by
  have hstate : (sharedName.foldlM (step asciiCase showAddr noCidr) (newState defaultRange)).map (fun s => s.services 1) =
      some ⟨["mail.zt".toList], [⟨25, 25⟩], ["tcp"], [], [], true⟩ := by
    decide +kernel
  obtain ⟨s, hrun, hs⟩ := Option.map_eq_some_iff.mp hstate
  have hgiven : (s.services 1).given = [] := by rw [hs]
  refine ⟨s, hrun, by rw [hs], hgiven, fun h => ?_⟩
  have hhas := h 1
  rw [hs] at hhas
  obtain ⟨ip, _, hmem⟩ := hhas rfl "mail.zt".toList List.mem_cons_self ⟨by decide, rfl⟩ "tcp" List.mem_cons_self
    ⟨25, 25⟩ List.mem_cons_self
  rw [hgiven] at hmem
  cases hmem

end Zt.InterceptRuns
