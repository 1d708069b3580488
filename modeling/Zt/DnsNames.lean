import Zt.DnsResolver
import Zt.Runs

namespace Zt.DnsNames

open Tables DnsResolver Runs

inductive Call (IP F : Type)
  | addHostname (s : Name) (ip : Option IP)
  | removeHostname (s : Name)
  | addDomain (name : Name) (cb : F)
  | removeDomain (name : Name)

inductive Returned (IP : Type)
  | done (err : Option String)
  | released (ip : Option IP)
  | panics

/-- What a call adds or removes a user of; names are the same in any case. -/
inductive Use
  | hostname (canonical : Name)
  | domain (canonical : Name)
  deriving DecidableEq

variable {IP F : Type} (cm : CaseMap) (ipString : Option IP → String)

def call (self : RefCountingResolver IP F) : Call IP F → RefCountingResolver IP F × Returned IP
  | .addHostname s ip =>
    let (self', err) := self.addHostname cm ipString s ip
    (self', .done err)
  | .removeHostname s =>
    let (self', ip) := self.removeHostname cm ipString s
    (self', .released ip)
  | .addDomain name cb =>
    match self.addDomain name cb with
    | none => (self, .panics)
    | some (self', err) => (self', .done err)
  | .removeDomain name =>
    match self.removeDomain name with
    | none => (self, .panics)
    | some self' => (self', .done none)

/-- A wildcard domain starts with a star. -/
def domainUse (name : Name) : Option Use :=
  if name.head? = some '*' then some (.domain (toLower cm name.tail)) else none

def adds : Call IP F → Option Use
  | .addHostname s _ => some (.hostname (toLower cm s))
  | .addDomain name _ => domainUse cm name
  | _ => none

def removes : Call IP F → Option Use
  | .removeHostname s => some (.hostname (toLower cm s))
  | .removeDomain name => domainUse cm name
  | _ => none

/-- The resolver with the calls made so far. -/
structure Session (IP F : Type) where
  resolver : RefCountingResolver IP F := {}
  calls : List (Call IP F) := []

variable (s : Session IP F)

def step (c : Call IP F) : Session IP F := ⟨(call cm ipString s.resolver c).1, s.calls ++ [c]⟩

variable (u : Use)

def added (calls : List (Call IP F)) : Nat := calls.countP (fun c => adds cm c = some u)

def removed (calls : List (Call IP F)) : Nat := calls.countP (fun c => removes cm c = some u)

def Used (calls : List (Call IP F)) : Prop := removed cm u calls < added cm u calls

instance (u : Use) (calls : List (Call IP F)) : Decidable (Used cm u calls) := inferInstanceAs (Decidable (_ < _))

/-- Behind the star of a domain comes a dot or nothing. -/
def Dotted (sfx : Name) : Prop := (sfx ++ ['.']).head? = some '.'

/-- Every host right below the domain is answered from its entry. -/
def DomainResolves (r : Resolver IP F) (sfx : Name) : Prop :=
  ∀ label : Name, label ≠ [] → '.' ∉ label →
    ∃ entry, domainFor cm r (label ++ sfx ++ ['.']) = some entry ∧ toLower cm entry.name.tail = toLower cm sfx

/-- A name resolves exactly when it was added more often than removed. -/
structure ResolvesUsed (s : Session IP F) : Prop where
  hostnames : ∀ name : Name,
    (s.resolver.lookupIP cm (name ++ ['.'])).isSome = true ↔ Used cm (.hostname (toLower cm name)) s.calls
  domains : ∀ sfx : Name, DomainResolves cm s.resolver.wrapped sfx ↔ Used cm (.domain (toLower cm sfx)) s.calls

def NotOverRemoved (c : Call IP F) : Prop := ∀ u, removes cm c = some u → Used cm u s.calls

/-- The address comes back when the last user leaves, and only then. -/
def ReturnsRightly : Call IP F → Prop
  | .removeHostname name =>
    (call cm ipString s.resolver (.removeHostname name)).2 =
      .released (if removed cm (.hostname (toLower cm name)) s.calls + 1 = added cm (.hostname (toLower cm name)) s.calls
        then (s.resolver.lookupIP cm (name ++ ['.'])).join else none)
  | .addHostname name ip => (call cm ipString s.resolver (.addHostname name ip)).2 ≠ .panics
  | .addDomain name cb => (call cm ipString s.resolver (.addDomain name cb)).2 ≠ .panics
  | .removeDomain name => (call cm ipString s.resolver (.removeDomain name)).2 ≠ .panics

/-- A name is removed when it has no other user. Domains are written in lower
case with a dot behind the star; another spelling of a domain does no harm
beside a user that stays. -/
def SoleUser : Call IP F → Prop
  | .addHostname _ _ => True
  | .removeHostname name =>
    removed cm (.hostname (toLower cm name)) s.calls + 1 = added cm (.hostname (toLower cm name)) s.calls
  | .addDomain name _ =>
    name ≠ [] ∧ ∀ sfx, name = '*' :: sfx →
      (Dotted sfx ∧ toLower cm sfx = sfx) ∨ Used cm (.domain (toLower cm sfx)) s.calls
  | .removeDomain name =>
    name ≠ [] ∧ ∀ sfx, name = '*' :: sfx → if toLower cm sfx = sfx then
        removed cm (.domain (toLower cm sfx)) s.calls + 1 = added cm (.domain (toLower cm sfx)) s.calls
      else removed cm (.domain (toLower cm sfx)) s.calls + 1 < added cm (.domain (toLower cm sfx)) s.calls

section Counts

variable {cm}

variable {calls : List (Call IP F)} {c : Call IP F}

theorem added_append : added cm u (calls ++ [c]) = added cm u calls + if adds cm c = some u then 1 else 0 := by
  simp [added]

theorem removed_append :
    removed cm u (calls ++ [c]) = removed cm u calls + if removes cm c = some u then 1 else 0 := by
  simp [removed]

variable {c : Call IP F}

variable {u}

theorem used_adds (hadds : adds cm c = some u)
    (hrems : removes cm c ≠ some u) (hle : removed cm u calls ≤ added cm u calls) : Used cm u (calls ++ [c]) := by
  rw [Used, added_append, removed_append, if_pos hadds, if_neg hrems]
  omega

theorem used_removes (hadds : adds cm c ≠ some u)
    (hrems : removes cm c = some u) : Used cm u (calls ++ [c]) ↔ removed cm u calls + 1 < added cm u calls := by
  rw [Used, added_append, removed_append, if_neg hadds, if_pos hrems]
  exact .rfl

theorem used_other (hadds : adds cm c ≠ some u)
    (hrems : removes cm c ≠ some u) : Used cm u (calls ++ [c]) ↔ Used cm u calls := by
  rw [Used, added_append, removed_append, if_neg hadds, if_neg hrems, Nat.add_zero, Nat.add_zero, Used]

end Counts

/-- Nothing is counted, no name was removed too often, and each domain is
stored under its own suffix. -/
structure Inv (s : Session IP F) : Prop where
  balanced : ∀ u, removed cm u s.calls ≤ added cm u s.calls
  uncounted : ∀ name, s.resolver.names.lookup name = none
  stored : ∀ key entry, s.resolver.wrapped.domains.lookup key = some entry → key = entry.name.tail ++ ['.']

theorem dotted_toLower (sfx : Name) : Dotted (toLower cm sfx) ↔ Dotted sfx := by
  cases sfx with
  | nil => rfl
  | cons c rest =>
    simp [Dotted, toLower, cm.lower_dot]

theorem domainResolves_iff {r : Resolver IP F}
    (hstored : ∀ key entry, r.domains.lookup key = some entry → key = entry.name.tail ++ ['.']) (sfx : Name) :
    DomainResolves cm r sfx ↔ Dotted sfx ∧ (r.domains.lookup (toLower cm sfx ++ ['.'])).isSome = true := by
  have hcanonical : ∀ c label,
      (toLower cm (c :: label ++ sfx ++ ['.'])).tail = toLower cm label ++ (toLower cm sfx ++ ['.']) := by
    intro c label
    rw [toLower_append, toLower_append, toLower_dot, List.append_assoc]
    rfl
  constructor
  · intro h
    obtain ⟨entry, hfound, hname⟩ := h ['a'] (List.cons_ne_nil _ _) (by decide)
    rw [domainFor, hcanonical 'a' [], toLower, List.map_nil, List.nil_append] at hfound
    obtain ⟨before, key, hsplit, hdot, hlook⟩ := findDomain_found hfound
    -- the entry's name is as long as the suffix, so its key is all that is left of the name
    have hlen : key.length = (toLower cm sfx ++ ['.']).length := by
      rw [hstored key entry hlook, List.length_append, List.length_append, ← hname, toLower, List.length_map]
    have hnil : before = [] := by
      have hsum := congrArg List.length hsplit
      rw [← hlen, List.length_append] at hsum
      exact List.eq_nil_of_length_eq_zero (by omega)
    rw [hnil, List.nil_append] at hsplit
    rw [← dotted_toLower cm, Dotted, hsplit, hlook]
    exact ⟨hdot, rfl⟩
  · rintro ⟨hdot, hsome⟩ label hne hlabel
    obtain ⟨entry, hlook⟩ := Option.isSome_iff_exists.mp hsome
    cases label with
    | nil => exact absurd rfl hne
    | cons c label =>
      refine ⟨entry, ?_, ?_⟩
      · rw [domainFor, hcanonical]
        refine findDomain_label (fun hmem => hlabel (List.mem_cons_of_mem _ ?_)) ((dotted_toLower cm sfx).mpr hdot) hlook
        obtain ⟨c', hc', heq⟩ := List.mem_map.mp hmem
        rwa [(cm.lower_dot c').mp heq] at hc'
      · have hkey := hstored _ entry hlook
        rw [← List.append_cancel_right hkey, toLower_toLower]

section Steps

variable {cm} {ipString} {s : Session IP F} {sfx : Name} {self : RefCountingResolver IP F}

theorem balanced_step (hi : Inv cm s) (c : Call IP F) (hpre : NotOverRemoved cm s c) (u : Use) :
    removed cm u (s.calls ++ [c]) ≤ added cm u (s.calls ++ [c]) := by
  have hle := hi.balanced u
  rw [added_append, removed_append]
  by_cases hrems : removes cm c = some u
  · have hused : removed cm u s.calls < added cm u s.calls := hpre u hrems
    rw [if_pos hrems]
    omega
  · rw [if_neg hrems]
    omega

theorem call_addDomain {cb : F} :
    call cm ipString self (.addDomain ('*' :: sfx) cb) = ({ self with
          wrapped := { self.wrapped with
            domains := self.wrapped.domains.insert (sfx ++ ['.']) ⟨'*' :: sfx, cb⟩ } }, .done none) := rfl

theorem call_removeDomain :
    call cm ipString self (.removeDomain ('*' :: sfx)) = ({ self with
          wrapped := { self.wrapped with domains := self.wrapped.domains.erase (sfx ++ ['.']) } }, .done none) := rfl

theorem call_addPlain (cm : CaseMap) (ipString : Option IP → String) (self : RefCountingResolver IP F)
    {c : Char} (hc : c ≠ '*') (sfx : Name) (cb : F) :
    call cm ipString self (.addDomain (c :: sfx) cb) = (self, .done (some "invalid wildcard domain")) := by
  simp [call, RefCountingResolver.addDomain, addDomain, if_pos hc]

theorem call_removePlain (cm : CaseMap) (ipString : Option IP → String) (self : RefCountingResolver IP F)
    {c : Char} (hc : c ≠ '*') (sfx : Name) :
    call cm ipString self (.removeDomain (c :: sfx)) = (self, .done none) := by
  simp [call, RefCountingResolver.removeDomain, removeDomain, if_pos hc]

theorem inv_call (cm : CaseMap) (ipString : Option IP → String) (hun : ∀ name, self.names.lookup name = none)
    (hstored : ∀ key entry, self.wrapped.domains.lookup key = some entry → key = entry.name.tail ++ ['.'])
    (c : Call IP F) : (∀ name, (call cm ipString self c).1.names.lookup name = none) ∧
      ∀ key entry, (call cm ipString self c).1.wrapped.domains.lookup key = some entry →
        key = entry.name.tail ++ ['.'] := by
  cases c with
  | addHostname n ip =>
    simp only [call, addHostname_uncounted]
    rw [(addHostname_rest cm ipString _ n ip).1]
    exact ⟨hun, hstored⟩
  | removeHostname n =>
    obtain ⟨hnames, hwrapped, _⟩ := removeHostname_uncounted cm ipString hun n
    simp only [call]
    rw [hwrapped, (removeHostname_rest cm ipString n).1]
    exact ⟨hnames, hstored⟩
  | addDomain name cb =>
    cases name with
    | nil => exact ⟨hun, hstored⟩
    | cons c sfx =>
      by_cases hc : c = '*'
      · subst hc
        exact ⟨hun, forall_insert hstored rfl⟩
      · rw [call_addPlain cm ipString self hc]
        exact ⟨hun, hstored⟩
  | removeDomain name =>
    cases name with
    | nil => exact ⟨hun, hstored⟩
    | cons c sfx =>
      by_cases hc : c = '*'
      · subst hc
        exact ⟨hun, forall_erase hstored⟩
      · rw [call_removePlain cm ipString self hc]
        exact ⟨hun, hstored⟩

theorem inv_step (hi : Inv cm s) (c : Call IP F) (hpre : NotOverRemoved cm s c) : Inv cm (step cm ipString s c) := by
  obtain ⟨hun, hstored⟩ := inv_call cm ipString hi.uncounted hi.stored c
  exact ⟨balanced_step hi c hpre, hun, hstored⟩

section Right

variable {c : Call IP F} (hi : Inv cm s) (hr : ResolvesUsed cm s)

include hr in
theorem hostnames_kept (hnames : (call cm ipString s.resolver c).1.wrapped.names = s.resolver.wrapped.names)
    (hother : ∀ name, adds cm c ≠ some (.hostname name) ∧ removes cm c ≠ some (.hostname name)) (name : Name) :
    ((step cm ipString s c).resolver.lookupIP cm (name ++ ['.'])).isSome = true ↔
      Used cm (.hostname (toLower cm name)) (s.calls ++ [c]) := by
  rw [used_other (hother _).1 (hother _).2, ← hr.hostnames name, step, RefCountingResolver.lookupIP, lookupIP, hnames]
  rfl

include hi hr in
theorem domains_kept (hdomains : (call cm ipString s.resolver c).1.wrapped.domains = s.resolver.wrapped.domains)
    (hother : ∀ name, adds cm c ≠ some (.domain name) ∧ removes cm c ≠ some (.domain name)) (sfx : Name) :
    DomainResolves cm (step cm ipString s c).resolver.wrapped sfx ↔
      Used cm (.domain (toLower cm sfx)) (s.calls ++ [c]) := by
  have hstored := (inv_call cm ipString hi.uncounted hi.stored c).2
  rw [used_other (hother _).1 (hother _).2, ← hr.domains sfx, domainResolves_iff cm hi.stored, step,
    domainResolves_iff cm hstored, hdomains]

include hi hr in
theorem right_addHostname {n : Name} {ip : Option IP} :
    ReturnsRightly cm ipString s (.addHostname n ip) ∧ ResolvesUsed cm (step cm ipString s (.addHostname n ip)) := by
  have hcall : call cm ipString s.resolver (.addHostname n ip) =
      ({ s.resolver with wrapped := (addHostname cm ipString s.resolver.wrapped n ip).1 }, .done none) := by
    simp [call, addHostname_uncounted]
  refine ⟨?_, fun name => ?_, domains_kept hi hr ?_ (fun _ => ⟨?_, ?_⟩)⟩
  · exact fun h => by cases h
  · rw [step, hcall, RefCountingResolver.lookupIP, lookupIP_host, addHostname_names]
    by_cases hname : toLower cm name = toLower cm n
    · have hused : Used cm (.hostname (toLower cm name)) (s.calls ++ [.addHostname n ip]) :=
        used_adds (by rw [hname]; rfl) (fun h => by cases h) (hi.balanced _)
      refine iff_of_true ?_ hused
      split
      · rfl
      · rename_i hne
        rw [hname] at hne ⊢
        exact Option.isSome_iff_ne_none.mpr (fun h => hne ⟨rfl, h⟩)
    · have hadds : adds cm (.addHostname n ip : Call IP F) ≠ some (.hostname (toLower cm name)) := by
        exact fun h => hname (Use.hostname.inj (Option.some.inj h)).symm
      rw [used_other hadds (fun h => by cases h), ← hr.hostnames name, RefCountingResolver.lookupIP, lookupIP_host,
        if_neg (fun h => hname (List.append_cancel_right h.1))]
  · rw [hcall]
    exact (addHostname_rest cm ipString _ n ip).1
  · exact fun h => by cases h
  · exact fun h => by cases h

include hi hr in
theorem right_removeHostname (n : Name) (hpre : Used cm (.hostname (toLower cm n)) s.calls) :
    ReturnsRightly cm ipString s (.removeHostname n) ∧ ResolvesUsed cm (step cm ipString s (.removeHostname n)) ↔
      SoleUser cm s (.removeHostname n) := by
  obtain ⟨_, hwrapped, hreturned⟩ := removeHostname_uncounted cm ipString hi.uncounted n
  have hrems : removes cm (.removeHostname n : Call IP F) = some (.hostname (toLower cm n)) := rfl
  have hadds : ∀ u, adds cm (.removeHostname n : Call IP F) ≠ some u := fun u h => by cases h
  have hlook : ∀ name, (step cm ipString s (.removeHostname n)).resolver.lookupIP cm (name ++ ['.']) =
      if toLower cm name = toLower cm n then none else s.resolver.lookupIP cm (name ++ ['.']) := by
    intro name
    simp only [step, call, RefCountingResolver.lookupIP, hwrapped, lookupIP_host, removeHostname_names]
    by_cases hname : toLower cm name = toLower cm n
    · rw [if_pos hname, if_pos (congrArg (· ++ ['.']) hname)]
    · rw [if_neg hname, if_neg (fun h => hname (List.append_cancel_right h))]
  have hcount : Used cm (.hostname (toLower cm n)) (step cm ipString s (.removeHostname n)).calls ↔
      removed cm (.hostname (toLower cm n)) s.calls + 1 < added cm (.hostname (toLower cm n)) s.calls :=
    used_removes (hadds _) hrems
  have hlt : removed cm (.hostname (toLower cm n)) s.calls < added cm (.hostname (toLower cm n)) s.calls := hpre
  simp only [SoleUser, ReturnsRightly]
  constructor
  · rintro ⟨_, hright⟩
    have hunused := hright.hostnames n
    rw [hlook, if_pos rfl, hcount] at hunused
    have hnot : ¬ removed cm (.hostname (toLower cm n)) s.calls + 1 < added cm (.hostname (toLower cm n)) s.calls :=
      fun h => Bool.false_ne_true (hunused.mpr h)
    omega
  · intro hsole
    refine ⟨?_, fun name => ?_, domains_kept hi hr ?_ (fun _ => ⟨hadds _, fun h => by cases h⟩)⟩
    · rw [if_pos hsole]
      simp [call, hreturned, (removeHostname_rest cm ipString n).2, RefCountingResolver.lookupIP, lookupIP_host]
    · rw [hlook]
      by_cases hname : toLower cm name = toLower cm n
      · rw [if_pos hname, hname, hcount]
        exact iff_of_false Bool.false_ne_true (by omega)
      · have hother : removes cm (.removeHostname n : Call IP F) ≠ some (.hostname (toLower cm name)) :=
          fun h => hname (Use.hostname.inj (Option.some.inj h)).symm
        rw [if_neg hname, hr.hostnames name]
        exact (used_other (hadds _) hother).symm
    · simp [call, hwrapped, (removeHostname_rest cm ipString n).1]

theorem right_plain (hcall : (call cm ipString s.resolver c).1 = s.resolver) (hadds : adds cm c = none)
    (hrems : removes cm c = none) (hr : ResolvesUsed cm s) : ResolvesUsed cm (step cm ipString s c) := by
  have hother : ∀ u, adds cm c ≠ some u ∧ removes cm c ≠ some u := by
    intro u
    rw [hadds, hrems]
    exact ⟨(Option.some_ne_none u).symm, (Option.some_ne_none u).symm⟩
  refine ⟨hostnames_kept hr (by rw [hcall]) (fun _ => hother _), fun sfx => ?_⟩
  rw [step, hcall, used_other (hother _).1 (hother _).2]
  exact hr.domains sfx

theorem domainUse_star (sfx : Name) : domainUse cm ('*' :: sfx) = some (.domain (toLower cm sfx)) := if_pos rfl

theorem domainUse_plain {ch : Char} (hc : ch ≠ '*') : domainUse cm (ch :: sfx) = none :=
  if_neg (fun h => hc (Option.some.inj h))

theorem key_eq_iff {sfx' : Name} : toLower cm sfx' ++ ['.'] = sfx ++ ['.'] ↔ toLower cm sfx' = sfx :=
  ⟨List.append_cancel_right, congrArg (· ++ ['.'])⟩

include hi hr in
theorem right_addWildcard (sfx : Name) (cb : F) :
    ResolvesUsed cm (step cm ipString s (.addDomain ('*' :: sfx) cb)) ↔
      (Dotted sfx ∧ toLower cm sfx = sfx) ∨ Used cm (.domain (toLower cm sfx)) s.calls := by
  have hadds : adds cm (.addDomain ('*' :: sfx) cb : Call IP F) = some (.domain (toLower cm sfx)) := domainUse_star sfx
  have hrems : ∀ u, removes cm (.addDomain ('*' :: sfx) cb : Call IP F) ≠ some u := fun u h => by cases h
  have hstored := (inv_call cm ipString hi.uncounted hi.stored (.addDomain ('*' :: sfx) cb)).2
  have hresolves : ∀ sfx', DomainResolves cm (step cm ipString s (.addDomain ('*' :: sfx) cb)).resolver.wrapped sfx' ↔
      Dotted sfx' ∧ toLower cm sfx' = sfx ∨ DomainResolves cm s.resolver.wrapped sfx' := by
    intro sfx'
    rw [step, domainResolves_iff cm hstored, domainResolves_iff cm hi.stored, call_addDomain, lookup_insert_eq]
    by_cases hkey : toLower cm sfx' = sfx
    · rw [if_pos (key_eq_iff.mpr hkey)]
      exact ⟨fun h => .inl ⟨h.1, hkey⟩, fun h => ⟨h.elim And.left And.left, rfl⟩⟩
    · rw [if_neg (fun h => hkey (key_eq_iff.mp h))]
      exact ⟨.inr, fun h => h.resolve_left (fun h => hkey h.2)⟩
  have hcount : ∀ sfx', Used cm (.domain (toLower cm sfx')) (step cm ipString s (.addDomain ('*' :: sfx) cb)).calls ↔
      toLower cm sfx' = toLower cm sfx ∨ Used cm (.domain (toLower cm sfx')) s.calls := by
    intro sfx'
    by_cases hsfx : toLower cm sfx' = toLower cm sfx
    · rw [hsfx]
      exact iff_of_true (used_adds hadds (hrems _) (hi.balanced _)) (.inl rfl)
    · have hother : adds cm (.addDomain ('*' :: sfx) cb : Call IP F) ≠ some (.domain (toLower cm sfx')) := by
        exact fun h => hsfx (Use.domain.inj (Option.some.inj h)).symm
      rw [or_iff_right hsfx]
      exact used_other hother (hrems _)
  constructor
  · intro hright
    have hsfx := (hright.domains sfx).mpr ((hcount sfx).mpr (.inl rfl))
    exact ((hresolves sfx).mp hsfx).imp_right (hr.domains sfx).mp
  · intro hcond
    refine ⟨hostnames_kept hr rfl (fun _ => ⟨?_, hrems _⟩), fun sfx' => ?_⟩
    · exact fun h => by cases h
    · rw [hresolves, hcount, hr.domains sfx']
      constructor
      · rintro (⟨_, hkey⟩ | hused)
        · left
          rw [← hkey, toLower_toLower]
        · exact .inr hused
      · rintro (hsfx | hused)
        · rcases hcond with ⟨hdot, hlower⟩ | hused
          · left
            rw [← dotted_toLower cm, hsfx, hlower]
            exact ⟨hdot, rfl⟩
          · right
            rw [hsfx]
            exact hused
        · exact .inr hused

include hi hr in
theorem right_removeWildcard (hpre : Used cm (.domain (toLower cm sfx)) s.calls) :
    ResolvesUsed cm (step cm ipString s (.removeDomain ('*' :: sfx))) ↔ if toLower cm sfx = sfx then
        removed cm (.domain (toLower cm sfx)) s.calls + 1 = added cm (.domain (toLower cm sfx)) s.calls
      else removed cm (.domain (toLower cm sfx)) s.calls + 1 < added cm (.domain (toLower cm sfx)) s.calls := by
  have hrems : removes cm (.removeDomain ('*' :: sfx) : Call IP F) = some (.domain (toLower cm sfx)) :=
    domainUse_star sfx
  have hadds : ∀ u, adds cm (.removeDomain ('*' :: sfx) : Call IP F) ≠ some u := fun u h => by cases h
  have hstored := (inv_call cm ipString hi.uncounted hi.stored (.removeDomain ('*' :: sfx))).2
  have hresolves : ∀ sfx', DomainResolves cm (step cm ipString s (.removeDomain ('*' :: sfx))).resolver.wrapped sfx' ↔
      toLower cm sfx' ≠ sfx ∧ DomainResolves cm s.resolver.wrapped sfx' := by
    intro sfx'
    rw [step, domainResolves_iff cm hstored, domainResolves_iff cm hi.stored, call_removeDomain, lookup_erase_eq]
    by_cases hkey : toLower cm sfx' = sfx
    · rw [if_pos (key_eq_iff.mpr hkey)]
      exact iff_of_false (fun h => Bool.false_ne_true h.2) (fun h => h.1 hkey)
    · rw [if_neg (fun h => hkey (key_eq_iff.mp h))]
      exact (and_iff_right hkey).symm
  have hcount : Used cm (.domain (toLower cm sfx)) (step cm ipString s (.removeDomain ('*' :: sfx))).calls ↔
      removed cm (.domain (toLower cm sfx)) s.calls + 1 < added cm (.domain (toLower cm sfx)) s.calls :=
    used_removes (hadds _) hrems
  have hlt : removed cm (.domain (toLower cm sfx)) s.calls < added cm (.domain (toLower cm sfx)) s.calls := hpre
  have hself : ResolvesUsed cm (step cm ipString s (.removeDomain ('*' :: sfx))) ↔ (toLower cm sfx ≠ sfx ↔
        removed cm (.domain (toLower cm sfx)) s.calls + 1 < added cm (.domain (toLower cm sfx)) s.calls) := by
    constructor
    · intro hright
      have hsfx := hright.domains sfx
      rwa [hresolves, hcount, and_iff_left ((hr.domains sfx).mpr hpre)] at hsfx
    · intro hcond
      refine ⟨hostnames_kept hr rfl (fun _ => ⟨hadds _, ?_⟩), fun sfx' => ?_⟩
      · exact fun h => by cases h
      · rw [hresolves, hr.domains sfx']
        by_cases hsfx : toLower cm sfx' = toLower cm sfx
        · rw [hsfx, hcount, ← hcond]
          exact and_iff_left hpre
        · have hother : removes cm (.removeDomain ('*' :: sfx) : Call IP F) ≠ some (.domain (toLower cm sfx')) := by
            exact fun h => hsfx (Use.domain.inj (Option.some.inj h)).symm
          have hkey : toLower cm sfx' ≠ sfx := by
            intro hkey
            rw [← hkey, toLower_toLower] at hsfx
            exact hsfx rfl
          rw [and_iff_right hkey]
          exact (used_other (hadds _) hother).symm
  rw [hself]
  by_cases hlower : toLower cm sfx = sfx
  · rw [if_pos hlower, iff_false_left (not_not.mpr hlower)]
    omega
  · rw [if_neg hlower, iff_true_left hlower]

include hi hr in
theorem right_step (hpre : NotOverRemoved cm s c) :
    ReturnsRightly cm ipString s c ∧ ResolvesUsed cm (step cm ipString s c) ↔ SoleUser cm s c := by
  cases c with
  | addHostname n ip => exact iff_of_true (right_addHostname hi hr) trivial
  | removeHostname n => exact right_removeHostname hi hr n (hpre _ rfl)
  | addDomain name cb =>
    cases name with
    | nil => exact iff_of_false (fun h => h.1 rfl) (fun h => h.1 rfl)
    | cons ch sfx =>
      by_cases hc : ch = '*'
      · subst hc
        have hreturns : ReturnsRightly cm ipString s (.addDomain ('*' :: sfx) cb) := fun h => by cases h
        rw [and_iff_right hreturns, right_addWildcard hi hr]
        refine ⟨fun h => ⟨List.cons_ne_nil _ _, fun sfx' heq => ?_⟩, fun h => h.2 sfx rfl⟩
        cases heq
        exact h
      · have hplain := call_addPlain cm ipString s.resolver hc sfx cb
        refine iff_of_true ⟨?_, right_plain (by rw [hplain]) (domainUse_plain hc) rfl hr⟩ ⟨?_, ?_⟩
        · rw [ReturnsRightly, hplain]
          exact fun h => by cases h
        · exact List.cons_ne_nil _ _
        · exact fun sfx' heq => absurd (List.cons.inj heq).1 hc
  | removeDomain name =>
    cases name with
    | nil => exact iff_of_false (fun h => h.1 rfl) (fun h => h.1 rfl)
    | cons ch sfx =>
      by_cases hc : ch = '*'
      · subst hc
        have hreturns : ReturnsRightly cm ipString s (.removeDomain ('*' :: sfx)) := fun h => by cases h
        rw [and_iff_right hreturns, right_removeWildcard hi hr (hpre _ (domainUse_star sfx))]
        refine ⟨fun h => ⟨List.cons_ne_nil _ _, fun sfx' heq => ?_⟩, fun h => h.2 sfx rfl⟩
        cases heq
        exact h
      · have hplain := call_removePlain cm ipString s.resolver hc sfx
        refine iff_of_true ⟨?_, right_plain (by rw [hplain]) rfl (domainUse_plain hc) hr⟩ ⟨?_, ?_⟩
        · rw [ReturnsRightly, hplain]
          exact fun h => by cases h
        · exact List.cons_ne_nil _ _
        · exact fun sfx' heq => absurd (List.cons.inj heq).1 hc

end Right

end Steps

theorem inv_new : Inv cm ({} : Session IP F) where
  balanced _ := Nat.le_refl _
  uncounted _ := rfl
  stored _ _ h := by cases h

theorem resolvesUsed_new : ResolvesUsed cm ({} : Session IP F) := by
  refine ⟨fun name => iff_of_false Bool.false_ne_true (lt_irrefl _), fun sfx => ?_⟩
  rw [domainResolves_iff cm (inv_new cm).stored]
  exact iff_of_false (fun h => Bool.false_ne_true h.2) (lt_irrefl _)

/-- Names live exactly as long as their users if and only if no name is
removed while it has another user, in the sense of `SoleUser`. -/
theorem resolves_used_iff (calls : List (Call IP F)) (hcalls : Meets (NotOverRemoved cm) (step cm ipString) {} calls) :
    (∀ n, ResolvesUsed cm ((calls.take n).foldl (step cm ipString) {})) ∧
        Meets (ReturnsRightly cm ipString) (step cm ipString) {} calls ↔
      Meets (SoleUser cm) (step cm ipString) {} calls :=
  hcalls.forall_states_and_meets_iff (Inv cm) (ResolvesUsed cm) (fun _ c hi hpre => inv_step hi c hpre)
    (fun _ _ hi hr hpre => right_step hi hr hpre) (inv_new cm) (resolvesUsed_new cm)

def addr (ip : Option Nat) : String := ip.elim "<nil>" dotted

/-- One service uses a host and a domain and leaves. -/
def usedOnce : List (Call Nat Unit) :=
  [.addHostname "mail.zt".toList (some 1), .addDomain "*.web.zt".toList (), .removeHostname "mail.zt".toList,
    .removeDomain "*.web.zt".toList]

theorem used_once_resolves : Meets (NotOverRemoved asciiCase) (step asciiCase addr) {} usedOnce ∧
    ((∀ n, ResolvesUsed asciiCase ((usedOnce.take n).foldl (step asciiCase addr) {})) ∧
      Meets (ReturnsRightly asciiCase addr) (step asciiCase addr) {} usedOnce) := by
  have hcalls : Meets (NotOverRemoved asciiCase) (step asciiCase addr) {} usedOnce := by
    refine ⟨fun u h => ?_, fun u h => ?_, fun u h => ?_, fun u h => ?_, trivial⟩
    · cases h
    · cases h
    · cases h
      decide
    · cases h
      decide
  refine ⟨hcalls, (resolves_used_iff asciiCase addr usedOnce hcalls).mpr
    ⟨trivial, ⟨?_, fun sfx h => ?_⟩, ?_, ⟨?_, fun sfx h => ?_⟩, trivial⟩⟩
  · decide
  · cases h
    exact .inl ⟨rfl, by decide⟩
  · exact (by decide : removed asciiCase (.hostname "mail.zt".toList) (usedOnce.take 2) + 1 =
      added asciiCase (.hostname "mail.zt".toList) (usedOnce.take 2))
  · decide
  · cases h
    decide

/-- Two services use a host and a domain, and one of them leaves. -/
def usedTwice : List (Call Nat Unit) :=
  [.addHostname "mail.zt".toList (some 1), .addHostname "mail.zt".toList (some 1), .addDomain "*.web.zt".toList (),
    .addDomain "*.web.zt".toList (), .removeHostname "mail.zt".toList, .removeDomain "*.web.zt".toList]

def writtenInCapitals : List (Call Nat Unit) := [.addDomain "*.Web.zt".toList ()]

/-- The names that are still used do not resolve, and the address of the host
comes back too early. A domain with a capital letter never resolves. -/
theorem shared_names_lost : Meets (NotOverRemoved asciiCase) (step asciiCase addr) {} usedTwice ∧
    ¬ ResolvesUsed asciiCase (usedTwice.foldl (step asciiCase addr) {}) ∧
    ¬ Meets (ReturnsRightly asciiCase addr) (step asciiCase addr) {} usedTwice ∧
    ¬ ResolvesUsed asciiCase (writtenInCapitals.foldl (step asciiCase addr) {}) := by
  refine ⟨⟨fun u h => ?_, fun u h => ?_, fun u h => ?_, fun u h => ?_, fun u h => ?_, fun u h => ?_, trivial⟩,
    fun hright => ?_, fun hreturns => ?_, fun hright => ?_⟩
  · cases h
  · cases h
  · cases h
  · cases h
  · cases h
    decide
  · cases h
    decide
  · exact absurd ((hright.hostnames "mail.zt".toList).mpr (by decide)) (by decide)
  · have hreturned : (.released (some 1) : Returned Nat) = .released none := hreturns.2.2.2.2.1
    cases hreturned
  · have hresolves := (hright.domains ".Web.zt".toList).mpr (by decide)
    obtain ⟨entry, hfound, _⟩ := hresolves ['a'] (List.cons_ne_nil _ _) (by decide)
    cases hfound

end Zt.DnsNames
