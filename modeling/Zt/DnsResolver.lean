import Zt.Tables

namespace Zt.DnsResolver

open Tables

abbrev Name := List Char

/-- The mapping of characters to lower case, as far as names depend on it. -/
structure CaseMap where
  lower : Char → Char
  lower_lower : ∀ c, lower (lower c) = lower c
  lower_dot : ∀ c, lower c = '.' ↔ c = '.'

theorem toNat_toLower {c : Char} :
    c.toLower.toNat = if 65 ≤ c.toNat ∧ c.toNat ≤ 90 then c.toNat + 32 else c.toNat := by
  have hiff : (c.val ≥ 'A'.val ∧ c.val ≤ 'Z'.val) ↔ (65 ≤ c.toNat ∧ c.toNat ≤ 90) := by
    exact .rfl
  unfold Char.toLower
  split
  · rename_i h
    rw [if_pos (hiff.mp h)]
    have hle : c.toNat ≤ 90 := (hiff.mp h).2
    change (c.toNat + 32) % 4294967296 = _
    omega
  · rename_i h
    rw [if_neg (fun h' => h (hiff.mpr h'))]

/-- The case of ASCII letters. -/
def asciiCase : CaseMap where
  lower := Char.toLower
  lower_lower c := by
    apply Char.toNat_inj.mp
    rw [toNat_toLower, toNat_toLower]
    split
    · split <;> omega
    · rfl
  lower_dot c := by
    have hdot : '.'.toNat = 46 := rfl
    rw [← Char.toNat_inj, ← Char.toNat_inj, toNat_toLower]
    split <;> omega

/-- An IPv4 address in print. -/
def dotted (ip : Nat) : String := ".".intercalate ([16777216, 65536, 256, 1].map (fun k => toString (ip / k % 256)))

def toLower (cm : CaseMap) (name : Name) : Name := name.map cm.lower

structure DomainEntry (F : Type) where
  name : Name
  getIP : F

/-- The resolver of the DNS server. An address is `none` where it is nil. -/
structure Resolver (IP F : Type) where
  names : Table Name (Option IP) := ∅
  ips : Table String Name := ∅
  domains : Table Name (DomainEntry F) := ∅

section Operations

variable {IP F : Type} (cm : CaseMap) (ipString : Option IP → String) (r : Resolver IP F) (name : Name)

def lookupIP : Option (Option IP) := r.names.lookup (toLower cm name)

/-- The loop of `getAddress` over what follows the dots of a name. -/
def findDomain : Name → Option (DomainEntry F)
  | [] => none
  | c :: rest =>
    if c = '.' then
      match r.domains.lookup (c :: rest) with
      | some entry => some entry
      | none => findDomain rest
    else findDomain rest

/-- The domain that answers for a name that is not registered; the search
starts behind the first character. -/
def domainFor : Option (DomainEntry F) := findDomain r (toLower cm name).tail

/-- `none` stands for the failure of `name[0]` on the empty name. -/
def addDomain (ipCB : F) : Option (Resolver IP F × Option String) :=
  match name with
  | [] => none
  | c :: rest =>
    if c ≠ '*' then some (r, some "invalid wildcard domain")
    else some ({ r with domains := r.domains.insert (rest ++ ['.']) ⟨name, ipCB⟩ }, none)

def removeDomain : Option (Resolver IP F) :=
  match name with
  | [] => none
  | c :: rest =>
    if c ≠ '*' then some r
    else some { r with domains := r.domains.erase (rest ++ ['.']) }

def addHostname (hostname : Name) (ip : Option IP) : Resolver IP F × Option String :=
  let canonical := toLower cm hostname ++ ['.']
  match r.names.lookup canonical with
  | none =>
    ({ r with
        names := r.names.insert canonical ip
        ips := r.ips.insert (ipString ip) canonical.dropLast }, none)
  | some _ => (r, none)

def removeHostname (hostname : Name) : Resolver IP F × Option IP :=
  let key := toLower cm hostname ++ ['.']
  match r.names.lookup key with
  | none => (r, none)
  | some ip => ({ r with ips := r.ips.erase (ipString ip), names := r.names.erase key }, ip)

end Operations

structure RefCountingResolver (IP F : Type) where
  names : Table Name Int := ∅
  wrapped : Resolver IP F := {}

namespace RefCountingResolver

variable {IP F : Type} (cm : CaseMap) (ipString : Option IP → String) (self : RefCountingResolver IP F)

def upsert (names : Table Name Int) (s : Name) (cb : Option Int → Int) : Table Name Int × Int :=
  (names.insert s (cb (names.lookup s)), cb (names.lookup s))

def lookupIP (name : Name) : Option (Option IP) := DnsResolver.lookupIP cm self.wrapped name

def addDomain (name : Name) (cb : F) : Option (RefCountingResolver IP F × Option String) :=
  (DnsResolver.addDomain self.wrapped name cb).map (fun result => ({ self with wrapped := result.1 }, result.2))

def removeDomain (name : Name) : Option (RefCountingResolver IP F) :=
  (DnsResolver.removeDomain self.wrapped name).map (fun wrapped => { self with wrapped := wrapped })

def addHostname (s : Name) (ip : Option IP) : RefCountingResolver IP F × Option String :=
  let (wrapped, err) := DnsResolver.addHostname cm ipString self.wrapped s ip
  if err ≠ none then
    ({ names := (upsert self.names s (fun count => count.elim 1 (fun count => count + 1))).1, wrapped := wrapped }, err)
  else ({ self with wrapped := wrapped }, err)

def removeHostname (s : Name) : RefCountingResolver IP F × Option IP :=
  let (names, val) := upsert self.names s (fun count => count.elim 0 (fun count => count - 1))
  if val = 0 then
    let (wrapped, ip) := DnsResolver.removeHostname cm ipString self.wrapped s
    ({ names := names.erase s, wrapped := wrapped }, ip)
  else ({ self with names := names }, none)

end RefCountingResolver

section Lookups

variable {IP F : Type} {cm : CaseMap} {ipString : Option IP → String} {r : Resolver IP F}
  {entry : DomainEntry F} {self : RefCountingResolver IP F}

theorem toLower_append {a b : Name} : toLower cm (a ++ b) = toLower cm a ++ toLower cm b :=
  List.map_append

theorem toLower_dot : toLower cm ['.'] = ['.'] :=
  congrArg (fun c => [c]) ((cm.lower_dot '.').mpr rfl)

theorem toLower_toLower {a : Name} : toLower cm (toLower cm a) = toLower cm a := by
  simp only [toLower, List.map_map]
  exact List.map_congr_left (fun c _ => cm.lower_lower c)

theorem lookupIP_host (name : Name) : lookupIP cm r (name ++ ['.']) = r.names.lookup (toLower cm name ++ ['.']) := by
  rw [lookupIP, toLower_append, toLower_dot]

theorem addHostname_names (s : Name) (ip : Option IP) (key : Name) :
    (addHostname cm ipString r s ip).1.names.lookup key =
      if key = toLower cm s ++ ['.'] ∧ r.names.lookup key = none then some ip else r.names.lookup key := by
  simp only [addHostname]
  cases hfound : r.names.lookup (toLower cm s ++ ['.']) with
  | none =>
    simp only [lookup_insert_eq]
    by_cases hkey : key = toLower cm s ++ ['.']
    · subst hkey
      rw [if_pos rfl, if_pos ⟨rfl, hfound⟩]
    · rw [if_neg hkey, if_neg (fun h => hkey h.1)]
  | some ip' =>
    have hne : ¬ (key = toLower cm s ++ ['.'] ∧ r.names.lookup key = none) := by
      rintro ⟨rfl, hnone⟩
      rw [hfound] at hnone
      cases hnone
    rw [if_neg hne]

theorem addHostname_rest (cm : CaseMap) (ipString : Option IP → String) (r : Resolver IP F) (s : Name) (ip : Option IP) :
    (addHostname cm ipString r s ip).1.domains = r.domains ∧ (addHostname cm ipString r s ip).2 = none := by
  simp only [addHostname]
  split <;> exact ⟨rfl, rfl⟩

theorem removeHostname_names (s : Name) (key : Name) : (removeHostname cm ipString r s).1.names.lookup key =
    if key = toLower cm s ++ ['.'] then none else r.names.lookup key := by
  simp only [removeHostname]
  cases hfound : r.names.lookup (toLower cm s ++ ['.']) with
  | none =>
    by_cases hkey : key = toLower cm s ++ ['.']
    · rw [if_pos hkey, hkey]
      exact hfound
    · rw [if_neg hkey]
  | some ip => exact lookup_erase_eq _ _ _

theorem removeHostname_rest (cm : CaseMap) (ipString : Option IP → String) (s : Name) :
    (removeHostname cm ipString r s).1.domains = r.domains ∧
      (removeHostname cm ipString r s).2 = (r.names.lookup (toLower cm s ++ ['.'])).join := by
  simp only [removeHostname]
  split <;> rename_i hfound <;> rw [hfound]
  · exact ⟨rfl, rfl⟩
  · exact ⟨rfl, rfl⟩

theorem findDomain_found {name : Name} (h : findDomain r name = some entry) :
    ∃ before key, name = before ++ key ∧ key.head? = some '.' ∧ r.domains.lookup key = some entry := by
  induction name with
  | nil => cases h
  | cons c rest ih =>
    have hrest : findDomain r rest = some entry →
        ∃ before key, c :: rest = before ++ key ∧ key.head? = some '.' ∧ r.domains.lookup key = some entry := by
      intro h
      obtain ⟨before, key, hname, hkey⟩ := ih h
      exact ⟨c :: before, key, by rw [hname, List.cons_append], hkey⟩
    unfold findDomain at h
    split at h
    · rename_i hdot
      split at h
      · rename_i entry' hfound
        cases h
        exact ⟨[], c :: rest, rfl, congrArg some hdot, hfound⟩
      · exact hrest h
    · exact hrest h

/-- The first domain that is looked up is the one behind the first dot. -/
theorem findDomain_label {label key : Name} (hlabel : '.' ∉ label)
    (hkey : key.head? = some '.') (hfound : r.domains.lookup key = some entry) :
    findDomain r (label ++ key) = some entry := by
  induction label with
  | nil =>
    cases key with
    | nil => cases hkey
    | cons c rest =>
      rw [List.nil_append, findDomain, if_pos (Option.some.inj hkey), hfound]
  | cons c label ih =>
    rw [List.mem_cons, not_or] at hlabel
    rw [List.cons_append, findDomain, if_neg (fun h => hlabel.1 h.symm)]
    exact ih hlabel.2

theorem removeHostname_uncounted (cm : CaseMap) (ipString : Option IP → String)
    (h : ∀ name, self.names.lookup name = none) (n : Name) :
    (∀ name, (self.removeHostname cm ipString n).1.names.lookup name = none) ∧
      (self.removeHostname cm ipString n).1.wrapped = (removeHostname cm ipString self.wrapped n).1 ∧
      (self.removeHostname cm ipString n).2 = (removeHostname cm ipString self.wrapped n).2 := by
  simp only [RefCountingResolver.removeHostname, RefCountingResolver.upsert, h n, Option.elim_none, if_true]
  refine ⟨fun name => ?_, trivial, trivial⟩
  rw [lookup_erase_eq, lookup_insert_eq]
  split
  · rfl
  · exact h name

theorem addHostname_uncounted (ipString : Option IP → String) {n : Name} {ip : Option IP} :
    self.addHostname cm ipString n ip =
      ({ self with wrapped := (addHostname cm ipString self.wrapped n ip).1 }, none) := by
  have herr := (addHostname_rest cm ipString self.wrapped n ip).2
  simp [RefCountingResolver.addHostname, herr]

end Lookups

end Zt.DnsResolver
