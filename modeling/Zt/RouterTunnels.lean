import Zt.PostureAccess

namespace Zt.RouterTunnels

open EdgeCtrl RouterModel PostureChecks PostureAccess

inductive PeerHeader
  | publicKey
  | appData
  | initiatorLocalAddress
  | initiatorRemoteAddress
  deriving DecidableEq

structure CreateTunnelCircuitV2Request where
  serviceName : String
  terminatorInstanceId : String
  peerData : List (PeerHeader × List UInt8)

structure CreateTunnelCircuitV2Response where
  circuitId : Id
  peerData : List (PeerHeader × List UInt8)

structure Tunneled where
  id : Id
  name : String
  isEncryptionRequired : Bool

structure Conn where
  localAddr : List UInt8
  remoteAddr : List UInt8

inductive TunnelError
  | keyPair (text : String)
  | noController
  | noAccess (serviceName : String) (err : AccessError)
  | dial (text : String)
  | noPublicKey
  | crypto (text : String)

/-- The router, the keys and replies it gets, and how it sets up its crypto. -/
structure FabricProvider where
  platform : Platform
  orders : Orders
  rdm : RouterDataModel
  routerId : Id
  newKeyPair : Except String (List UInt8)
  anyCtrlChannel : Option Id
  sendForReply : CreateTunnelCircuitV2Request → Except String CreateTunnelCircuitV2Response
  setupClientCrypto : List UInt8 → Except String Unit

/-- The two results that the access decision comes as. -/
def policyOf : Except AccessError ServicePolicy → Option ServicePolicy
  | .ok policy => some policy
  | .error _ => none

def errorOf : Except AccessError ServicePolicy → Option AccessError
  | .ok _ => none
  | .error err => some err

/-- The guard as it is written, on both results. -/
def refusal (access : Except AccessError ServicePolicy) : Option AccessError :=
  if (errorOf access).isSome && (policyOf access).isSome then errorOf access else none

def finish (provider : FabricProvider) (service : Tunneled) (response : CreateTunnelCircuitV2Response) :
    Except TunnelError Unit :=
  match response.peerData.lookup .publicKey with
  | none => if service.isEncryptionRequired then .error .noPublicKey else .ok ()
  | some peerKey => (provider.setupClientCrypto peerKey).mapError TunnelError.crypto

def requestFor (service : Tunneled) (terminatorInstanceId : String) (conn : Conn) (appData publicKey : List UInt8) :
    CreateTunnelCircuitV2Request where
  serviceName := service.name
  terminatorInstanceId := terminatorInstanceId
  peerData :=
    (if service.isEncryptionRequired then [(.publicKey, publicKey)] else []) ++
      (if appData.length > 0 then [(.appData, appData)] else []) ++
      [(.initiatorLocalAddress, conn.localAddr), (.initiatorRemoteAddress, conn.remoteAddr)]

section Tunnels

variable (provider : FabricProvider) (service : Tunneled) (terminatorInstanceId : String) (conn : Conn)
  (appData : List UInt8)

def access : Option (Except AccessError ServicePolicy × Option InstanceData) :=
  hasAccess provider.platform provider.orders provider.rdm provider.routerId service.id .dialPolicy none

/-- The requests that are sent, and the result. None is a panic. -/
def tunnelService : Option (List CreateTunnelCircuitV2Request × Except TunnelError Unit) :=
  match provider.newKeyPair with
  | .error text => some ([], .error (.keyPair text))
  | .ok publicKey =>
    match provider.anyCtrlChannel with
    | none => some ([], .error .noController)
    | some _ => do
      let (decision, _) ← access provider service
      match refusal decision with
      | some err => pure ([], .error (.noAccess service.name err))
      | none =>
        let request := requestFor service terminatorInstanceId conn appData publicKey
        match provider.sendForReply request with
        | .error text => pure ([request], .error (.dial text))
        | .ok response => pure ([request], finish provider service response)

/-- A request is sent with a policy that grants it, or there is an error and
none is sent. -/
def RespectsDialPolicy : Prop :=
  ∀ sent result, tunnelService provider service terminatorInstanceId conn appData = some (sent, result) →
    (∃ policy data, access provider service = some (.ok policy, data)) ∨ sent = [] ∧ ∃ err, result = .error err

end Tunnels

/-- The decision never comes with both results, so the guard never holds. -/
theorem refusal_eq_none {decision : Except AccessError ServicePolicy} : refusal decision = none := by
  cases decision <;> rfl

/-- The router gets as far as asking for access only if it is granted. -/
def AsksOnlyIfGranted (provider : FabricProvider) (service : Tunneled) : Prop :=
  ∀ publicKey ctrlId, provider.newKeyPair = .ok publicKey → provider.anyCtrlChannel = some ctrlId →
    ∀ err data, access provider service ≠ some (.error err, data)

theorem respectsDialPolicy_iff (provider : FabricProvider) (service : Tunneled) (terminatorInstanceId : String)
    (conn : Conn) (appData : List UInt8) :
    RespectsDialPolicy provider service terminatorInstanceId conn appData ↔ AsksOnlyIfGranted provider service := by
  cases hkey : provider.newKeyPair with
  | error text => simp [RespectsDialPolicy, AsksOnlyIfGranted, tunnelService, hkey]
  | ok publicKey =>
    cases hctrl : provider.anyCtrlChannel with
    | none => simp [RespectsDialPolicy, AsksOnlyIfGranted, tunnelService, hkey, hctrl]
    | some ctrlId =>
      rcases haccess : access provider service with _ | ⟨err | policy, data⟩
      · simp [RespectsDialPolicy, AsksOnlyIfGranted, tunnelService, hkey, hctrl, haccess]
      · refine iff_of_false (fun h => ?_) (fun h => h publicKey ctrlId hkey hctrl err data haccess)
        cases hsend : provider.sendForReply (requestFor service terminatorInstanceId conn appData publicKey) <;>
          simp [RespectsDialPolicy, tunnelService, hkey, hctrl, haccess, refusal_eq_none, hsend] at h
      · simp [RespectsDialPolicy, AsksOnlyIfGranted, haccess]

/-- A router that the model does not even know. -/
def strangeRouter : FabricProvider where
  platform := plainPlatform
  orders := frontOrders "" "" ""
  rdm := { timelineId := "t", index := 0 }
  routerId := "router"
  newKeyPair := .ok []
  anyCtrlChannel := some "ctrl"
  sendForReply _ := .ok ⟨"circuit", []⟩
  setupClientCrypto _ := .ok ()

/-- It is refused access, and sends its request all the same. -/
theorem refused_router_dials : (access strangeRouter ⟨"s", "service", false⟩).map (fun r => errorOf r.1) =
      some (some (.message "identity not found by id")) ∧
    (tunnelService strangeRouter ⟨"s", "service", false⟩ "" ⟨[], []⟩ []).map (fun r => r.1.length) = some 1 ∧
    ¬ RespectsDialPolicy strangeRouter ⟨"s", "service", false⟩ "" ⟨[], []⟩ [] := by
  refine ⟨rfl, rfl, fun h => ?_⟩
  rcases h _ _ rfl with ⟨policy, data, hgranted⟩ | ⟨hsent, -⟩
  · cases hgranted
  · cases hsent

end Zt.RouterTunnels
