import Zt.CertAuth
import Zt.Outcomes

namespace Zt.CertLogins

open Tables EdgeCtrl CertAuth Outcomes

variable {env : Env} {clock : Clock} {ctx : AuthContext} {leaf : Certificate} {others : List Certificate}

/-- An edge router passes the request on. The names of headers are in lower case. -/
def Proxied (env : Env) (ctx : AuthContext) : Prop :=
  (ctx.headers.lookup edgeRouterProxyRequest.toLower).isSome ∧
    ∃ peer rest, ctx.certs = peer :: rest ∧ isEdgeRouter env peer = true

/-- The header holds the certificates. -/
def Carries (env : Env) (ctx : AuthContext) (certs : List Certificate) : Prop :=
  ∃ text rest bytes, ctx.headers.lookup clientCertHeader.toLower = some (.strings (text :: rest)) ∧
    Base64.Decodes text bytes ∧ env.x509.parseCertificates bytes = some certs

/-- The certificates of a request that an edge router passes on are those of the
header, whatever the router's own are. -/
def Presents (env : Env) (ctx : AuthContext) (certs : List Certificate) : Prop :=
  (Proxied env ctx ∧ Carries env ctx certs) ∨ (¬ Proxied env ctx ∧ certs = ctx.certs)

/-- A chain from the leaf to the pool, whatever the validity of the leaf. -/
def ChainsTo (env : Env) (clock : Clock) (leaf : Certificate) (others pool : List Certificate)
    (chain : List Certificate) : Prop :=
  ∃ chains, verifyClientCerts env clock.verifying leaf others pool = .ok chains ∧ chain ∈ chains

def pools (cache : TrustCache) : List (List Certificate) :=
  [cache.staticFirstPartyRootPool, cache.staticFirstPartyTrustAnchorPool, cache.thirdPartyTrustAnchorPool]

def NamedByFingerprint (env : Env) (leaf : Certificate) (identityId : Id) : Prop :=
  ∃ id row, env.authenticators.lookup id = some row ∧ row.cert.fingerprint = fromCert env leaf ∧
    row.identityId = identityId

/-- An active CA on the chain reads the external id of the identity off the leaf. -/
def NamedByCa (env : Env) (clock : Clock) (leaf : Certificate) (others : List Certificate) (identity : Identity) : Prop :=
  ∃ chain cert ca externalId, ChainsTo env clock leaf others env.trustCache.thirdPartyTrustAnchorPool chain ∧
    cert ∈ chain ∧ env.trustCache.activeThirdPartyCas.lookup (fromCert env cert) = some ca ∧
      ca.getExternalId env leaf = .ok (some externalId) ∧ externalId ≠ "" ∧ identity.externalId = some externalId

structure Entitled (env : Env) (clock : Clock) (leaf : Certificate) (others : List Certificate) (identityId : Id) :
    Prop where
  chained : ∃ pool ∈ pools env.trustCache, ∃ chain, ChainsTo env clock leaf others pool chain
  admitted : ∃ identity authPolicy, env.identities.lookup identityId = some identity ∧
    (NamedByFingerprint env leaf identityId ∨ NamedByCa env clock leaf others identity) ∧
      identity.disabled clock.reading = false ∧ env.authPolicies.lookup identity.authPolicyId = some authPolicy ∧
        authPolicy.allowed = true ∧ (authPolicy.allowExpiredCerts = false →
          leaf.notBefore < clock.checking ∧ clock.checking < leaf.notAfter)

/-- No panic, no certificates looked at but those presented, a success only for who
is entitled to it, and no difference made by the proxy. -/
structure Correct (env : Env) (clock : Clock) (ctx : AuthContext) : Prop where
  returns : process env clock ctx ≠ .error .panicked
  presented : ∀ certs, getClientCerts env ctx = .ok certs → Presents env ctx certs
  sound : ∀ result, process env clock ctx = .ok result →
    ∃ leaf others, Presents env ctx (leaf :: others) ∧ Entitled env clock leaf others result.identityId
  proxied : Proxied env ctx → ∀ certs, Carries env ctx certs →
    process env clock ctx = process env clock (newAuthContextHttp certs [])

/-- The CA has a matcher and a parser that its location takes, with their
criteria, and an index. -/
def WellFormed (ca : Ca) : Prop :=
  ∀ claim, ca.externalIdClaim = some claim → (definitions claim).isSome ∧ 0 ≤ claim.index

/-- If the chains lead to a CA it is well formed, and if the fingerprint names an
authenticator, for want of an external id, it is of a known method. -/
def Handled (env : Env) (clock : Clock) : List Certificate → Prop
  | [] => True
  | leaf :: others =>
    let verification := verifyByPools env clock.verifying leaf others
    verification.chains = [] ∨ ((∀ ca, verification.targetThirdPartyCa = some ca → WellFormed ca) ∧
        (externalIdOf env verification.targetThirdPartyCa leaf = .ok "" → ∀ id row,
          storedByFingerprint env (fromCert env leaf) = some (id, row) → row.method = .updb ∨ row.method = .cert))

variable {id identityId : Id} {authenticator : Authenticator} {externalId : String} {identity : Identity}
  {result : AuthResult} {certs : List Certificate} {header : List (String × List String)}
  {row : EnrollmentCommands.StoredAuthenticator} {ca : Option Ca} {improper : Bool}

theorem find_pairs {V : Type} {t : IdTable V} {p : Id × V → Bool} {v : V} (h : (pairs t).find? p = some (id, v)) :
    t.lookup id = some v ∧ p (id, v) = true :=
  ⟨mem_pairs.mp (List.mem_of_find?_eq_some h), List.find?_some h⟩

theorem fillFrom_ok (h : fillFrom id row = .ok authenticator) : authenticator.identityId = row.identityId := by
  unfold fillFrom at h
  split at h <;> cases h <;> rfl

theorem fillFrom_panics : fillFrom id row = .error .panicked ↔ ¬ (row.method = .updb ∨ row.method = .cert) := by
  unfold fillFrom
  cases row.method <;> simp

theorem getExternalId_panics (env : Env) (leaf : Certificate) {ca : Ca} :
    ca.getExternalId env leaf = .error .panicked ↔ ¬ WellFormed ca := by
  unfold Ca.getExternalId WellFormed
  cases ca.externalIdClaim with
  | none => simp
  | some claim =>
    cases hd : definitions claim with
    | none => simp [hd]
    | some ds =>
      simp only [Option.some.injEq, forall_eq', hd, Option.isSome_some, true_and]
      split
      · split <;> simp <;> omega
      · simp only [reduceCtorEq, false_iff]
        omega

theorem externalIdOf_panics :
    externalIdOf env ca leaf = .error .panicked ↔ ¬ ∀ ca', ca = some ca' → WellFormed ca' := by
  cases ca with
  | none => simp [externalIdOf]
  | some ca =>
    simp only [externalIdOf, Option.some.injEq, forall_eq', ← getExternalId_panics env leaf]
    cases ca.getExternalId env leaf <;> simp [Except.map]

theorem resolve_panics : resolve env leaf externalId = .error .panicked ↔ externalId = "" ∧ ∃ id row,
    storedByFingerprint env (fromCert env leaf) = some (id, row) ∧ ¬ (row.method = .updb ∨ row.method = .cert) := by
  unfold resolve
  by_cases hx : externalId = ""
  · simp only [hx, ne_eq, not_true_eq_false, if_false, true_and]
    cases hs : storedByFingerprint env (fromCert env leaf) with
    | none => simp
    | some found =>
      obtain ⟨id, row⟩ := found
      simp only [Option.some.injEq, Prod.mk.injEq, bind_error, fillFrom_panics]
      constructor
      · rintro (h | ⟨authenticator, -, h⟩)
        · exact ⟨id, row, ⟨rfl, rfl⟩, h⟩
        · split at h <;> cases h
      · rintro ⟨_, _, ⟨rfl, rfl⟩, h⟩
        exact .inl h
  · simp only [hx, ne_eq, not_false_eq_true, if_true]
    split <;> simp

theorem admission_returns :
    admission env clock leaf improper authenticator identityId identity ≠ .error .panicked := by
  unfold admission
  repeat' split
  all_goals simp

theorem processCerts_panics :
    processCerts env clock leaf others = .error .panicked ↔ ¬ Handled env clock (leaf :: others) := by
  simp only [processCerts, Handled]
  generalize verifyByPools env clock.verifying leaf others = verification
  by_cases hc : verification.chains = []
  · simp [hc]
  · rw [if_neg hc, bind_error, externalIdOf_panics, or_iff_right hc, not_and_or]
    refine or_congr .rfl ⟨?_, ?_⟩
    · rintro ⟨externalId, hx, h⟩
      rcases bind_error.mp h with hr | ⟨_, -, ha⟩
      · obtain ⟨rfl, id, row, hs, hm⟩ := resolve_panics.mp hr
        exact fun h => hm (h hx id row hs)
      · exact absurd ha admission_returns
    · intro h
      push Not at h
      obtain ⟨hx, id, row, hs, hm⟩ := h
      exact ⟨"", hx, bind_error.mpr (.inl (resolve_panics.mpr ⟨rfl, id, row, hs, fun h => h.elim hm.1 hm.2⟩))⟩

theorem verifyByPools_chains (hc : (verifyByPools env clock.verifying leaf others).chains ≠ []) :
    ∃ pool ∈ pools env.trustCache, ∃ chain, ChainsTo env clock leaf others pool chain := by
  have hpool : ∀ pool ∈ pools env.trustCache,
      (verifyClientCerts env clock.verifying leaf others pool).toOption.getD [] ≠ [] →
        ∃ pool ∈ pools env.trustCache, ∃ chain, ChainsTo env clock leaf others pool chain := by
    intro pool hpool hne
    cases hv : verifyClientCerts env clock.verifying leaf others pool with
    | error err => exact absurd (by rw [hv]; rfl) hne
    | ok chains =>
      rw [hv] at hne
      obtain ⟨chain, hchain⟩ := List.exists_mem_of_ne_nil chains hne
      exact ⟨pool, hpool, chain, chains, hv, hchain⟩
  unfold verifyByPools at hc
  dsimp only at hc
  split at hc
  · exact hpool _ (by simp [pools]) hc
  · split at hc
    · exact hpool _ (by simp [pools]) hc
    · split at hc
      · exact absurd rfl hc
      · rename_i chains hv
        exact hpool env.trustCache.thirdPartyTrustAnchorPool (by simp [pools]) (by rw [hv]; exact hc)

theorem verifyByPools_ca {ca : Ca} (h : (verifyByPools env clock.verifying leaf others).targetThirdPartyCa = some ca) :
    ∃ chain cert, ChainsTo env clock leaf others env.trustCache.thirdPartyTrustAnchorPool chain ∧ cert ∈ chain ∧
      env.trustCache.activeThirdPartyCas.lookup (fromCert env cert) = some ca := by
  unfold verifyByPools at h
  dsimp only at h
  split at h
  · cases h
  · split at h
    · cases h
    · split at h
      · cases h
      · rename_i chains hv
        obtain ⟨chain, hchain, h⟩ := List.exists_of_findSome?_eq_some h
        obtain ⟨cert, hcert, h⟩ := List.exists_of_findSome?_eq_some h
        exact ⟨chain, cert, ⟨chains, hv, hchain⟩, hcert, h⟩

theorem externalIdOf_ok (h : externalIdOf env ca leaf = .ok externalId) (hx : externalId ≠ "") :
    ∃ ca', ca = some ca' ∧ ca'.getExternalId env leaf = .ok (some externalId) := by
  cases ca with
  | none =>
    cases h
    exact absurd rfl hx
  | some ca =>
    refine ⟨ca, rfl, ?_⟩
    simp only [externalIdOf] at h
    cases hg : ca.getExternalId env leaf with
    | error err =>
      rw [hg] at h
      cases h
    | ok found =>
      rw [hg] at h
      cases found with
      | none => cases h; exact absurd rfl hx
      | some found => cases h; rfl

theorem resolve_ok (h : resolve env leaf externalId = .ok (authenticator, identityId, identity)) :
    env.identities.lookup identityId = some identity ∧
      ((externalId ≠ "" ∧ identity.externalId = some externalId) ∨ NamedByFingerprint env leaf identityId) := by
  unfold resolve at h
  split at h
  · rename_i hx
    split at h
    · cases h
    · rename_i id identity' hr
      cases h
      obtain ⟨hl, hp⟩ := find_pairs hr
      exact ⟨hl, .inl ⟨hx, of_decide_eq_true hp⟩⟩
  · split at h
    · cases h
    · rename_i id row hs
      obtain ⟨authenticator', hf, h⟩ := bind_ok h
      split at h
      · cases h
      · rename_i identity' hl
        cases h
        refine ⟨hl, .inr ?_⟩
        unfold storedByFingerprint at hs
        split at hs
        · cases hs
        · obtain ⟨hrow, hp⟩ := find_pairs hs
          exact ⟨id, row, hrow, of_decide_eq_true hp, (fillFrom_ok hf).symm⟩

theorem admission_ok (h : admission env clock leaf improper authenticator identityId identity = .ok result) :
    result.identityId = identityId ∧ identity.disabled clock.reading = false ∧
      ∃ authPolicy, env.authPolicies.lookup identity.authPolicyId = some authPolicy ∧ authPolicy.allowed = true ∧
        (authPolicy.allowExpiredCerts = false → leaf.notBefore < clock.checking ∧ clock.checking < leaf.notAfter) := by
  unfold admission at h
  split at h
  · cases h
  · rename_i hdis
    split at h
    · cases h
    · rename_i authPolicy hp
      split at h
      · cases h
      · rename_i hallowed
        split at h
        · cases h
        · rename_i hexpired
          refine ⟨?_, eq_false_of_ne_true hdis, authPolicy, hp, eq_true_of_ne_false hallowed, ?_⟩
          · split at h
            · cases h
              rfl
            · split at h <;> cases h
              rfl
          · intro hallow
            have hvalid : isCertExpirationValid clock.checking leaf = true :=
              eq_true_of_ne_false (fun hv => hexpired ⟨hallow, hv⟩)
            rw [isCertExpirationValid, Bool.and_eq_true] at hvalid
            exact ⟨of_decide_eq_true hvalid.2, of_decide_eq_true hvalid.1⟩

theorem processCerts_ok (h : processCerts env clock leaf others = .ok result) :
    Entitled env clock leaf others result.identityId := by
  unfold processCerts at h
  dsimp only at h
  split at h
  · cases h
  · rename_i hc
    obtain ⟨externalId, hx, h⟩ := bind_ok h
    obtain ⟨⟨authenticator, identityId, identity⟩, hr, h⟩ := bind_ok h
    obtain ⟨hl, hnamed⟩ := resolve_ok hr
    obtain ⟨rfl, hdis, authPolicy, hp⟩ := admission_ok h
    refine ⟨verifyByPools_chains hc, identity, authPolicy, hl, ?_, hdis, hp⟩
    rcases hnamed with ⟨hne, hid⟩ | hnamed
    · obtain ⟨ca, hca, hg⟩ := externalIdOf_ok hx hne
      obtain ⟨chain, cert, hchain, hcert, hactive⟩ := verifyByPools_ca hca
      exact .inr ⟨chain, cert, ca, externalId, hchain, hcert, hactive, hg, hne, hid⟩
    · exact .inl hnamed

theorem processAll_panics : processAll env clock certs = .error .panicked ↔ ¬ Handled env clock certs := by
  cases certs with
  | nil => exact iff_of_false (fun h => by cases h) (fun h => h trivial)
  | cons leaf others => exact processCerts_panics

theorem processAll_ok (h : processAll env clock certs = .ok result) :
    ∃ leaf others, certs = leaf :: others ∧ Entitled env clock leaf others result.identityId := by
  cases certs with
  | nil => cases h
  | cons leaf others => exact ⟨leaf, others, rfl, processCerts_ok h⟩

theorem toLower_ne_X {c : Char} : c.toLower ≠ 'X' := by
  intro h
  have hv : c.toLower.toNat = 88 := by rw [h]; rfl
  unfold Char.toLower at hv
  split at hv
  · rename_i hu
    simp only [UInt32.le_iff_toNat_le] at hu
    simp at hv hu
    omega
  · rename_i hu
    simp only [UInt32.le_iff_toNat_le] at hu
    simp [hv] at hu

theorem toList_toLower (text : String) : text.toLower.toList = text.toList.map .toLower := String.toList_map

theorem toLower_ne_proxyRequest {name : String} : name.toLower ≠ edgeRouterProxyRequest := by
  intro h
  have hx : 'X' ∈ name.toLower.toList := by rw [h]; decide
  rw [toList_toLower, List.mem_map] at hx
  obtain ⟨c, -, hc⟩ := hx
  exact toLower_ne_X hc

theorem getClientCerts_http : getClientCerts env (newAuthContextHttp certs header) = .ok certs := by
  have hnone : ∀ headers : Table String HeaderValue, headers.lookup edgeRouterProxyRequest = none →
      (header.foldl (fun headers h => headers.insert h.1.toLower (.strings h.2)) headers).lookup edgeRouterProxyRequest =
        none := by
    induction header with
    | nil => exact fun _ h => h
    | cons h header ih =>
      intro headers hheaders
      refine ih _ ?_
      rw [AList.lookup_insert_ne toLower_ne_proxyRequest.symm]
      exact hheaders
  have hlookup : (newAuthContextHttp certs header).headers.lookup edgeRouterProxyRequest = none := hnone ∅ rfl
  unfold getClientCerts
  by_cases hc : certs = []
  · exact (if_pos hc).trans (by rw [hc])
  · rw [if_neg (show (newAuthContextHttp certs header).certs ≠ [] from hc), hlookup]
    rfl

/-- What comes over HTTP is never taken for proxied, since the header is looked up
by a name that is not in lower case. -/
theorem process_http (env : Env) (clock : Clock) (peerCertificates : List Certificate)
    (header : List (String × List String)) :
    process env clock (newAuthContextHttp peerCertificates header) = processAll env clock peerCertificates := by
  rw [process, getClientCerts_http]
  rfl

theorem Carries.unique {certs' : List Certificate} (h : Carries env ctx certs) (h' : Carries env ctx certs') :
    certs = certs' := by
  obtain ⟨text, rest, bytes, ht, ⟨room, hd⟩, hp⟩ := h
  obtain ⟨text', rest', bytes', ht', hd', hp'⟩ := h'
  rw [ht, Option.some.injEq, HeaderValue.strings.injEq, List.cons.injEq] at ht'
  obtain ⟨rfl, -⟩ := ht'
  rw [hd'.of_decode (by rw [hd]; exact Base64.Decoded.noConfusion), Base64.Decoded.ok.injEq] at hd
  subst hd
  exact Option.some.inj (hp.symm.trans hp')

/-- Certificate authentication does what it should exactly for the certificates that
are handled, and for an edge router's where the header repeats them. -/
theorem cert_auth_correct_iff (env : Env) (clock : Clock) (peerCertificates : List Certificate)
    (header : List (String × List String)) :
    let ctx := newAuthContextHttp peerCertificates header
    Correct env clock ctx ↔
      Handled env clock peerCertificates ∧ (Proxied env ctx → Carries env ctx peerCertificates) := by
  intro ctx
  have hprocess : ∀ certs header,
      process env clock (newAuthContextHttp certs header) = processAll env clock certs := by
    intro certs header
    rw [process, getClientCerts_http]
    rfl
  constructor
  · intro h
    refine ⟨not_not.mp (fun hn => h.returns ((hprocess _ _).trans (processAll_panics.mpr hn))), fun hp => ?_⟩
    rcases h.presented peerCertificates getClientCerts_http with ⟨-, hcarries⟩ | ⟨hnone, -⟩
    · exact hcarries
    · exact absurd hp hnone
  · rintro ⟨hhandled, hcarries⟩
    have hpresents : Presents env ctx peerCertificates := by
      by_cases hp : Proxied env ctx
      · exact .inl ⟨hp, hcarries hp⟩
      · exact .inr ⟨hp, rfl⟩
    refine ⟨fun hp => processAll_panics.mp ((hprocess _ _).symm.trans hp) hhandled, ?_, ?_, ?_⟩
    · intro certs hcerts
      rw [getClientCerts_http, Except.ok.injEq] at hcerts
      exact hcerts ▸ hpresents
    · intro result hok
      obtain ⟨leaf, others, rfl, he⟩ := processAll_ok ((hprocess _ _).symm.trans hok)
      exact ⟨leaf, others, hpresents, he⟩
    · intro hp certs hcerts
      rw [hprocess, hprocess, (hcarries hp).unique hcerts]

def client : Certificate := ⟨[1], 0, 20⟩
def router : Certificate := ⟨[2], 0, 20⟩
def root : Certificate := ⟨[3], 0, 20⟩

def x509 : X509 where
  parseCertificates := fun bytes => if bytes = [0] then some [client] else none
  verify := fun leaf _ roots => if roots = [root] then .ok [[leaf, root]] else .error ()
  claims := fun _ _ => ["x"]
  fingerprint := fun raw => if raw = [1] then "client" else if raw = [2] then "router" else "root"
  encodePem := fun _ => "pem"
  publicKeySha256 := fun _ => "key"

def network : Env where
  x509 := x509
  trustCache := { staticFirstPartyRootPool := [root] }
  authenticators := (AList.singleton "a" { method := .cert, identityId := "i", cert := { fingerprint := "client" } }).insert
    "b" { method := .cert, identityId := "j", cert := { fingerprint := "router" } }
  identities := (AList.singleton "i" { authPolicyId := "p" }).insert "j" { authPolicyId := "p" }
  authPolicies := AList.singleton "p" ⟨true, false⟩
  edgeRouters := AList.singleton "r" ⟨some "router", none, true⟩

/-- A CA without the text that its matcher asks for. -/
def prefixCa : Ca := ⟨some { location := .commonName, matcher := .prefixed, parser := .none }⟩

def networkOfCa : Env :=
  { network with
    trustCache := { thirdPartyTrustAnchorPool := [root], activeThirdPartyCas := AList.singleton "root" prefixCa } }

/-- The client is let in as itself directly, and as the edge router that passes its
certificate on. -/
theorem proxied_login_mistaken :
    let clock : Clock := ⟨10, 10, 10⟩
    let proxied := newAuthContextHttp [router]
      [("X-Edge-Router-Proxy-Request", ["true"]), ("X-Client-Certpem", ["AA=="])]
    Proxied network proxied ∧ Carries network proxied [client] ∧
      (process network clock (newAuthContextHttp [client] [])).map AuthResult.identityId = .ok "i" ∧
        (process network clock proxied).map AuthResult.identityId = .ok "j" ∧ ¬ Correct network clock proxied ∧
          process networkOfCa clock (newAuthContextHttp [client] []) = .error .panicked := by
  intro clock proxied
  have hnames : clientCertHeader.toLower ≠ edgeRouterProxyRequest.toLower := by
    intro h
    have h := congrArg String.toList h
    rw [toList_toLower, toList_toLower] at h
    revert h
    decide
  have hname : "X-Client-Certpem".toLower = clientCertHeader.toLower := by
    rw [← String.toList_inj, toList_toLower, toList_toLower]
    decide
  have hheaders : proxied.headers = ((∅ : Table String HeaderValue).insert edgeRouterProxyRequest.toLower
      (.strings ["true"])).insert clientCertHeader.toLower (.strings ["AA=="]) := by
    rw [← hname]
    rfl
  have hproxied : Proxied network proxied := by
    refine ⟨?_, router, [], rfl, by decide⟩
    rw [hheaders, AList.lookup_insert_ne hnames.symm, AList.lookup_insert]
    rfl
  have hcarries : Carries network proxied [client] :=
    ⟨"AA==", [], [0], by rw [hheaders, AList.lookup_insert], ⟨1, by decide⟩, by decide⟩
  have hused : getClientCerts network proxied = .ok [router] := getClientCerts_http
  refine ⟨hproxied, hcarries, by rfl, by rw [process, hused]; rfl, fun h => ?_, by rfl⟩
  rcases h.presented [router] hused with ⟨-, hc⟩ | ⟨hn, -⟩
  · exact absurd (hc.unique hcarries) (by decide)
  · exact hn hproxied

end Zt.CertLogins
