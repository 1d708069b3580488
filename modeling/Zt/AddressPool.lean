import Zt.InterceptRuns

namespace Zt.AddressPool

open Tables DnsResolver InterceptAddresses InterceptRuns Runs

/-- The addresses that were taken are waiting to be used again or are the
address of one name each. -/
structure Pool (taken : Addr → Prop) (recycled : List Addr) (names : Table Name (Option Addr)) : Prop where
  nodup : recycled.Nodup
  known : ∀ key, names.lookup key ≠ some none
  unshared : ∀ key key' ip, names.lookup key = some (some ip) → names.lookup key' = some (some ip) → key = key'
  free : ∀ ip ∈ recycled, ∀ key, names.lookup key ≠ some (some ip)
  taken : ∀ ip, taken ip ↔ ip ∈ recycled ∨ ∃ key, names.lookup key = some (some ip)

section Pools

variable {taken taken' : Addr → Prop} {recycled : List Addr} {names : Table Name (Option Addr)} {ip : Addr} {key : Name}

theorem Pool.take (h : Pool taken recycled names) (hip : ¬ taken ip) (htaken : ∀ x, taken' x ↔ x = ip ∨ taken x) :
    Pool taken' (ip :: recycled) names := by
  rw [h.taken, not_or] at hip
  refine ⟨List.nodup_cons.mpr ⟨hip.1, h.nodup⟩, h.known, h.unshared, ?_, fun x => ?_⟩
  · exact List.forall_mem_cons.mpr ⟨fun key hkey => hip.2 ⟨key, hkey⟩, h.free⟩
  · rw [htaken, h.taken, List.mem_cons, or_assoc]

theorem Pool.assign (h : Pool taken (ip :: recycled) names) (hkey : names.lookup key = none) :
    Pool taken recycled (names.insert key (some ip)) := by
  obtain ⟨hnew, hnodup⟩ := List.nodup_cons.mp h.nodup
  have hself := h.free ip List.mem_cons_self
  refine ⟨hnodup, fun j => ?_, fun j j' x hj hj' => ?_, fun x hx j => ?_, fun x => ?_⟩
  · rw [lookup_insert_eq]
    split
    · simp
    · exact h.known j
  · rw [lookup_insert_eq] at hj hj'
    split at hj <;> split at hj'
    · simp [*]
    · cases hj
      exact absurd hj' (hself j')
    · cases hj'
      exact absurd hj (hself j)
    · exact h.unshared j j' x hj hj'
  · rw [lookup_insert_eq]
    split
    · rintro ⟨⟩
      exact hnew hx
    · exact h.free x (List.mem_cons_of_mem _ hx) j
  · rw [h.taken, List.mem_cons]
    constructor
    · rintro ((rfl | hx) | ⟨j, hj⟩)
      · exact .inr ⟨key, AList.lookup_insert _⟩
      · exact .inl hx
      · refine .inr ⟨j, ?_⟩
        rwa [lookup_insert_eq, if_neg]
        rintro rfl
        rw [hkey] at hj
        cases hj
    · rintro (hx | ⟨j, hj⟩)
      · exact .inl (.inr hx)
      · rw [lookup_insert_eq] at hj
        split at hj
        · cases hj
          exact .inl (.inl rfl)
        · exact .inr ⟨j, hj⟩

theorem Pool.release (h : Pool taken recycled names) (hkey : names.lookup key = some (some ip)) :
    Pool taken (recycled ++ [ip]) (names.erase key) := by
  have hused : ip ∉ recycled := fun hip => h.free ip hip key hkey
  refine ⟨?_, fun j hj => h.known j (lookup_of_erase hj).2, fun j j' x hj hj' => ?_, fun x hx j hj => ?_, fun x => ?_⟩
  · exact List.nodup_append_comm.mp (List.nodup_cons.mpr ⟨hused, h.nodup⟩)
  · exact h.unshared j j' x (lookup_of_erase hj).2 (lookup_of_erase hj').2
  · obtain ⟨hne, hj⟩ := lookup_of_erase hj
    rcases List.mem_append.mp hx with hx | hx
    · exact h.free x hx j hj
    · cases List.mem_singleton.mp hx
      exact hne (h.unshared j key ip hj hkey)
  · rw [h.taken, List.mem_append, List.mem_singleton]
    constructor
    · rintro (hx | ⟨j, hj⟩)
      · exact .inl (.inl hx)
      · by_cases hne : j = key
        · subst hne
          exact .inl (.inr (by simpa [hkey, eq_comm] using hj))
        · exact .inr ⟨j, by rwa [lookup_erase_eq, if_neg hne]⟩
    · rintro ((hx | rfl) | ⟨j, hj⟩)
      · exact .inl hx
      · exact .inr ⟨key, hkey⟩
      · exact .inr ⟨j, (lookup_of_erase hj).2⟩

end Pools

/-- An address that the counter has passed. -/
def Taken (dnsPrefix : Prefix) (current ip : Addr) : Prop :=
  ip.bitLen = current.bitLen ∧ dnsPrefix.addr.value < ip.value ∧ ip.value ≤ current.value

structure Pooled (dnsPrefix : Prefix) (s : State) : Prop where
  range : s.dnsPrefix = dnsPrefix
  uncounted : ∀ name, s.resolver.names.lookup name = none
  counter : dnsPrefix.addr.value ≤ s.dnsCurrentIp.value
  inside : ∀ ip, Taken dnsPrefix s.dnsCurrentIp ip → dnsPrefix.contains ip = true
  pool : Pool (Taken dnsPrefix s.dnsCurrentIp) s.dnsRecycledIps s.resolver.wrapped.names

variable {cm : CaseMap} {ipString : Option Addr → String} {getCidr : Name → Option IPNet} {dnsPrefix : Prefix}
  {s s' : State} {svc : SvcRef} {hostname : Name} {ip : Addr}

theorem Pooled.setService (h : Pooled dnsPrefix s) (f : Service → Service) : Pooled dnsPrefix (setService s svc f) :=
  ⟨h.range, h.uncounted, h.counter, h.inside, h.pool⟩

theorem Pooled.next (h : Pooled dnsPrefix s) (hnext : s.dnsCurrentIp.next = some ip)
    (hin : s.dnsPrefix.contains ip = true) :
    Pooled dnsPrefix { s with dnsCurrentIp := ip, dnsRecycledIps := ip :: s.dnsRecycledIps } := by
  unfold Addr.next at hnext
  split at hnext
  · cases hnext
    have htaken : ∀ x, Taken dnsPrefix ⟨s.dnsCurrentIp.bitLen, s.dnsCurrentIp.value + 1⟩ x ↔
        x = ⟨s.dnsCurrentIp.bitLen, s.dnsCurrentIp.value + 1⟩ ∨ Taken dnsPrefix s.dnsCurrentIp x := by
      rintro ⟨bitLen, value⟩
      have := h.counter
      simp only [Taken, Addr.mk.injEq]
      omega
    refine ⟨h.range, h.uncounted, Nat.le_succ_of_le h.counter, fun x hx => ?_, h.pool.take ?_ htaken⟩
    · rcases (htaken x).mp hx with rfl | hx
      · exact h.range ▸ hin
      · exact h.inside x hx
    · exact fun hpassed => Nat.not_succ_le_self _ hpassed.2.2
  · cases hnext

theorem Pooled.withHost (h : Pooled dnsPrefix { s with dnsRecycledIps := ip :: s.dnsRecycledIps })
    (hnone : s.resolver.wrapped.names.lookup (hostKey cm hostname) = none) :
    Pooled dnsPrefix (withHost cm ipString (allocated s svc hostname ip) hostname (some ip)) := by
  refine ⟨h.range, h.uncounted, h.counter, h.inside, ?_⟩
  have hnames : (addHostname cm ipString s.resolver.wrapped hostname (some ip)).1.names =
      s.resolver.wrapped.names.insert (hostKey cm hostname) (some ip) := by
    rw [hostKey] at hnone
    simp only [addHostname, hnone, hostKey]
  exact hnames.symm ▸ h.pool.assign hnone

theorem Pooled.getDnsIp {found : Option Addr} (h : Pooled dnsPrefix s)
    (hdns : getDnsIp cm s svc hostname = (s', .ok found)) :
    Pooled dnsPrefix (InterceptRuns.withHost cm ipString s' hostname found) := by
  unfold InterceptAddresses.getDnsIp at hdns
  rw [RefCountingResolver.lookupIP, lookupIP_host] at hdns
  split at hdns
  · rename_i hfound
    cases hdns
    refine ⟨h.range, h.uncounted, h.counter, h.inside, ?_⟩
    simpa only [InterceptRuns.withHost, addHostname, hfound] using h.pool
  · rename_i hnone
    split at hdns
    · cases hdns
    · rename_i ip s₁ halloc
      cases hdns
      unfold allocateIp at halloc
      split at halloc
      · rename_i ip ips hrecycled
        cases halloc
        exact Pooled.withHost ⟨h.range, h.uncounted, h.counter, h.inside, hrecycled ▸ h.pool⟩ hnone
      · split at halloc
        · cases halloc
        · rename_i hnext
          split at halloc
          · rename_i hin
            cases halloc
            exact (h.next hnext hin).withHost hnone
          · cases halloc

theorem pooled_getInterceptIP {result : Except String Unit} (h : Pooled dnsPrefix s)
    (hgot : getInterceptIP cm ipString getCidr s svc hostname = some (s', result)) : Pooled dnsPrefix s' := by
  unfold getInterceptIP at hgot
  split at hgot
  · rename_i hstar
    cases hostname with
    | nil => cases hstar
    | cons c sfx =>
      cases hstar
      cases hgot
      exact ⟨h.range, h.uncounted, h.counter, h.inside, h.pool⟩
  · split at hgot
    · cases hgot
    · split at hgot
      · cases hgot
        exact h.setService _
      · split at hgot
        · rename_i hdns
          cases hgot
          rw [getDnsIp_error hdns]
          exact h
        · rename_i hdns
          cases hgot
          rw [addHostname_uncounted]
          exact h.getDnsIp hdns

theorem pooled_getInterceptAddresses {addrs : List Name} {result : Except String Unit} (h : Pooled dnsPrefix s)
    (hgot : getInterceptAddresses cm ipString getCidr svc addrs s = some (s', result)) : Pooled dnsPrefix s' := by
  induction addrs generalizing s with
  | nil =>
    cases hgot
    exact h
  | cons addr addrs ih =>
    unfold getInterceptAddresses at hgot
    split at hgot
    · cases hgot
    · rename_i hfirst
      cases hgot
      exact pooled_getInterceptIP h hfirst
    · rename_i hfirst
      exact ih (pooled_getInterceptIP h hfirst) hgot

theorem pooled_cleanUp {action : Cleanup} (h : Pooled dnsPrefix s) (hclean : cleanUp cm ipString s action = some s') :
    Pooled dnsPrefix s' := by
  cases action with
  | removeHostname hostname =>
    simp only [cleanUp, Option.some.injEq] at hclean
    subst hclean
    obtain ⟨hun, hwrapped, hip⟩ := removeHostname_uncounted cm ipString h.uncounted hostname
    refine ⟨h.range, hun, h.counter, h.inside, ?_⟩
    simp only [hwrapped, hip, removeHostname]
    cases hfound : s.resolver.wrapped.names.lookup (toLower cm hostname ++ ['.']) with
    | none => simpa only [hfound, Option.toList_none, List.append_nil] using h.pool
    | some found =>
      cases found with
      | none => exact absurd hfound (h.pool.known _)
      | some ip => simpa only [hfound, Option.toList_some] using h.pool.release hfound
  | removeDomain hostname =>
    obtain ⟨resolver, hremoved, rfl⟩ := Option.map_eq_some_iff.mp hclean
    cases hostname with
    | nil => cases hremoved
    | cons c sfx =>
      simp only [RefCountingResolver.removeDomain, removeDomain] at hremoved
      split at hremoved <;> cases hremoved <;> exact ⟨h.range, h.uncounted, h.counter, h.inside, h.pool⟩

theorem pooled_getAddress {name : Name} (h : Pooled dnsPrefix s) (hgot : getAddress cm ipString s name = some s') :
    Pooled dnsPrefix s' := by
  unfold getAddress at hgot
  split at hgot
  · cases hgot
    exact h
  · split at hgot
    · cases hgot
    · split at hgot
      · cases hgot
        exact h
      · split at hgot
        · rename_i hdns
          cases hgot
          rw [getDnsIp_error hdns]
          exact h
        · rename_i hdns
          cases hgot
          exact h.getDnsIp hdns

theorem pooled_step {e : Event} (h : Pooled dnsPrefix s) (hstep : step cm ipString getCidr s e = some s') :
    Pooled dnsPrefix s' := by
  cases e with
  | add addresses portRanges protocols =>
    simp only [step, addService] at hstep
    have hnew : Pooled dnsPrefix { InterceptAddresses.setService s s.nextService (fun _ =>
        ⟨addresses, portRanges, protocols, [], [], false⟩) with nextService := s.nextService + 1 } :=
      ⟨h.range, h.uncounted, h.counter, h.inside, h.pool⟩
    split at hstep
    · cases hstep
    · rename_i hgot
      cases hstep
      exact pooled_getInterceptAddresses hnew hgot
    · rename_i hgot
      cases hstep
      exact (pooled_getInterceptAddresses hnew hgot).setService _
  | remove svc =>
    obtain ⟨s₁, hrun, rfl⟩ := Option.map_eq_some_iff.mp hstep
    exact ((Admits.of_forall (fun _ _ => trivial) _ _ _).keeps (Pooled dnsPrefix)
      (fun _ _ _ h _ hclean => pooled_cleanUp h hclean) h hrun).setService _
  | query name => exact pooled_getAddress h hstep

/-- Whatever services come and go and whatever names are queried, each address
that was taken lies in the range and is either recycled, once, or that of one
name. -/
theorem addresses_neither_shared_nor_lost (cm : CaseMap) (ipString : Option Addr → String)
    (getCidr : Name → Option IPNet) (dnsPrefix : Prefix) (events : List Event) (s : State)
    (hrun : events.foldlM (step cm ipString getCidr) (newState dnsPrefix) = some s) :
    Pool (Taken dnsPrefix s.dnsCurrentIp) s.dnsRecycledIps s.resolver.wrapped.names ∧
      ∀ ip, Taken dnsPrefix s.dnsCurrentIp ip → dnsPrefix.contains ip = true := by
  have hnew : Pooled dnsPrefix (newState dnsPrefix) := by
    have hnone : ∀ ip, ¬ Taken dnsPrefix dnsPrefix.addr ip := fun ip h => absurd h.2.1 (Nat.not_lt.mpr h.2.2)
    refine ⟨rfl, fun _ => rfl, Nat.le_refl _, fun ip h => absurd h (hnone ip), List.nodup_nil, ?_, ?_, ?_, fun ip => ?_⟩
    · exact fun _ h => by cases h
    · exact fun _ _ _ h => by cases h
    · exact fun _ h => by cases h
    · refine iff_of_false (hnone ip) ?_
      rintro (h | ⟨_, h⟩) <;> cases h
  have h := (Admits.of_forall (fun _ _ => trivial) _ _ _).keeps (Pooled dnsPrefix)
    (fun _ _ _ h _ hstep => pooled_step h hstep) hnew hrun
  exact ⟨h.pool, h.inside⟩

theorem separate_names_unshared :
    ∃ s, separateNames.foldlM (step asciiCase showAddr noCidr) (newState defaultRange) = some s ∧
      Pool (Taken defaultRange s.dnsCurrentIp) s.dnsRecycledIps s.resolver.wrapped.names := by
  have hruns : (separateNames.foldlM (step asciiCase showAddr noCidr) (newState defaultRange)).isSome = true := by
    decide +kernel
  obtain ⟨s, hrun⟩ := Option.isSome_iff_exists.mp hruns
  exact ⟨s, hrun, (addresses_neither_shared_nor_lost asciiCase showAddr noCidr defaultRange separateNames s hrun).1⟩

end Zt.AddressPool
