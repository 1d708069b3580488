import Mathlib.Algebra.Group.Nat.Defs
import Mathlib.Logic.Function.Basic
import Zt.DnsResolver

namespace Zt.InterceptAddresses

open DnsResolver

structure Addr where
  bitLen : Nat
  value : Nat
  deriving DecidableEq

structure Prefix where
  addr : Addr
  bits : Nat

def Prefix.contains (p : Prefix) (ip : Addr) : Bool :=
  decide (ip.bitLen = p.addr.bitLen ∧
    ip.value / 2 ^ (ip.bitLen - p.bits) = p.addr.value / 2 ^ (p.addr.bitLen - p.bits))

/-- The next address, unless the addresses of its family are exhausted. -/
def Addr.next (ip : Addr) : Option Addr :=
  if ip.value + 1 < 2 ^ ip.bitLen then some ⟨ip.bitLen, ip.value + 1⟩ else none

structure IPNet where
  ip : Addr
  ones : Nat
  deriving DecidableEq

structure PortRange where
  low : UInt16
  high : UInt16
  deriving DecidableEq

structure InterceptAddress where
  cidr : IPNet
  routeRequired : Bool
  lowPort : UInt16
  highPort : UInt16
  protocol : String
  deriving DecidableEq

inductive Cleanup
  | removeHostname (hostname : Name)
  | removeDomain (hostname : Name)
  deriving DecidableEq

abbrev SvcRef := Nat

/-- A service with its configuration, the addresses that its interceptor was
given and the cleanup actions. It is live from a successful start to its removal. -/
structure Service where
  addresses : List Name
  portRanges : List PortRange
  protocols : List String
  given : List InterceptAddress := []
  cleanupActions : List Cleanup := []
  live : Bool := false
  deriving DecidableEq

/-- The callback of a domain allocates an address for the service that added it. -/
structure State where
  dnsPrefix : Prefix
  dnsCurrentIp : Addr
  dnsRecycledIps : List Addr := []
  resolver : RefCountingResolver Addr SvcRef := {}
  services : SvcRef → Service
  nextService : SvcRef := 0

def newState (dnsPrefix : Prefix) : State :=
  { dnsPrefix := dnsPrefix, dnsCurrentIp := dnsPrefix.addr, services := fun _ => ⟨[], [], [], [], [], false⟩ }

section Operations

variable (cm : CaseMap) (ipString : Option Addr → String) (getCidr : Name → Option IPNet) (s : State)

def setService (svc : SvcRef) (f : Service → Service) : State :=
  { s with services := Function.update s.services svc (f (s.services svc)) }

/-- The callback that `GetInterceptAddresses` makes for a service. -/
def addrCB (svc : Service) (ipNet : IPNet) (routeRequired : Bool) : Service :=
  { svc with given := svc.given ++ svc.protocols.flatMap (fun protocol =>
      svc.portRanges.map (fun r => ⟨ipNet, routeRequired, r.low, r.high, protocol⟩)) }

def hostNet (ip : Addr) : IPNet := ⟨ip, ip.bitLen⟩

/-- The address for a new name, recycled ones first. -/
def allocateIp : Option (Addr × State) :=
  match s.dnsRecycledIps with
  | ip :: ips => some (ip, { s with dnsRecycledIps := ips })
  | [] =>
    match s.dnsCurrentIp.next with
    | none => none
    | some ip => if s.dnsPrefix.contains ip then some (ip, { s with dnsCurrentIp := ip }) else none

def cleanUp : Cleanup → Option State
  | .removeHostname hostname =>
    let (resolver, ip) := s.resolver.removeHostname cm ipString hostname
    some { s with resolver := resolver, dnsRecycledIps := s.dnsRecycledIps ++ ip.toList }
  | .removeDomain hostname => (s.resolver.removeDomain hostname).map (fun resolver => { s with resolver := resolver })

def getDnsIp (svc : SvcRef) (host : Name) : State × Except String (Option Addr) :=
  match s.resolver.lookupIP cm (host ++ ['.']) with
  | some foundIP => (s, .ok foundIP)
  | none =>
    match allocateIp s with
    | none => (s, .error "cannot allocate ip address: ip range exhausted")
    | some (ip, s) =>
      (setService s svc (fun v =>
        { addrCB v (hostNet ip) false with
          cleanupActions := v.cleanupActions ++ [.removeHostname host] }), .ok (some ip))

/-- `none` stands for the failure of `hostname[0]` on the empty name. -/
def getInterceptIP (svc : SvcRef) (hostname : Name) : Option (State × Except String Unit) :=
  if hostname.head? = some '*' then
    (s.resolver.addDomain hostname svc).map (fun (resolver, err) =>
      match err with
      | some err => ({ s with resolver := resolver }, .error err)
      | none =>
        (setService { s with resolver := resolver } svc (fun v =>
          { v with cleanupActions := v.cleanupActions ++ [.removeDomain hostname] }), .ok ()))
  else if hostname = [] then none
  else
    match getCidr hostname with
    | some ipNet => some (setService s svc (fun v => addrCB v ipNet true), .ok ())
    | none =>
      match getDnsIp cm s svc hostname with
      | (s, .error _) =>
        some (s, .error ("invalid IP address or unresolvable hostname: " ++ String.ofList hostname))
      | (s, .ok ip) => some ({ s with resolver := (s.resolver.addHostname cm ipString hostname ip).1 }, .ok ())

def getInterceptAddresses (svc : SvcRef) : List Name → State → Option (State × Except String Unit)
  | [], s => some (s, .ok ())
  | addr :: addrs, s =>
    match getInterceptIP cm ipString getCidr s svc addr with
    | none => none
    | some (s, .error err) =>
      some (s, .error ("failed to get intercept IP address for " ++ String.ofList addr ++ ": " ++ err))
    | some (s, .ok ()) => getInterceptAddresses svc addrs s

def addService (addresses : List Name) (portRanges : List PortRange) (protocols : List String) : Option State :=
  let svc := s.nextService
  let s := { setService s svc (fun _ => ⟨addresses, portRanges, protocols, [], [], false⟩) with nextService := svc + 1 }
  match getInterceptAddresses cm ipString getCidr svc addresses s with
  | none => none
  | some (s, .error _) => some s
  | some (s, .ok ()) => some (setService s svc (fun v => { v with live := true }))

def runCleanupActions (svc : SvcRef) : Option State :=
  ((s.services svc).cleanupActions.foldlM (cleanUp cm ipString) s).map
    (fun s => setService s svc (fun v => { v with cleanupActions := [], live := false }))

/-- The query for a name. A name that a domain answers for is registered with
the resolver that the counting one wraps; the empty name fails at `canonical[1:]`. -/
def getAddress (name : Name) : Option State :=
  match lookupIP cm s.resolver.wrapped name with
  | some _ => some s
  | none =>
    if name = [] then none
    else
      match domainFor cm s.resolver.wrapped name with
      | none => some s
      | some entry =>
        match getDnsIp cm s entry.getIP name.dropLast with
        | (s, .error _) => some s
        | (s, .ok ip) =>
          some { s with resolver := { s.resolver with
            wrapped := (addHostname cm ipString s.resolver.wrapped name.dropLast ip).1 } }

inductive Event
  | add (addresses : List Name) (portRanges : List PortRange) (protocols : List String)
  | remove (svc : SvcRef)
  | query (name : Name)

def step : Event → Option State
  | .add addresses portRanges protocols => addService cm ipString getCidr s addresses portRanges protocols
  | .remove svc => runCleanupActions cm ipString s svc
  | .query name => getAddress cm ipString s name

/-- A name that is neither a wildcard nor an address. -/
def IsPlain (hostname : Name) : Prop := hostname.head? ≠ some '*' ∧ getCidr hostname = none

instance (hostname : Name) : Decidable (IsPlain getCidr hostname) := inferInstanceAs (Decidable (_ ∧ _))

/-- The service has the address that the name resolves to. -/
def Has (svc : SvcRef) (hostname : Name) (protocol : String) (r : PortRange) : Prop :=
  ∃ ip, s.resolver.lookupIP cm (hostname ++ ['.']) = some (some ip) ∧
    ⟨hostNet ip, false, r.low, r.high, protocol⟩ ∈ (s.services svc).given

def Intercepts : Prop :=
  ∀ svc, (s.services svc).live = true → ∀ hostname ∈ (s.services svc).addresses, IsPlain getCidr hostname →
    ∀ protocol ∈ (s.services svc).protocols, ∀ r ∈ (s.services svc).portRanges, Has cm s svc hostname protocol r

/-- The hostnames of a new service do not resolve yet. -/
def AddsUnresolved : Event → Prop
  | .add addresses portRanges protocols =>
    protocols ≠ [] → portRanges ≠ [] → ∀ hostname ∈ addresses, IsPlain getCidr hostname →
      s.resolver.lookupIP cm (hostname ++ ['.']) = none
  | _ => True

instance decidableAddsUnresolved : ∀ e, Decidable (AddsUnresolved cm getCidr s e)
  | .add addresses portRanges protocols =>
    inferInstanceAs (Decidable (protocols ≠ [] → portRanges ≠ [] → ∀ hostname ∈ addresses, IsPlain getCidr hostname →
      s.resolver.lookupIP cm (hostname ++ ['.']) = none))
  | .remove _ => isTrue trivial
  | .query _ => isTrue trivial

end Operations

end Zt.InterceptAddresses
