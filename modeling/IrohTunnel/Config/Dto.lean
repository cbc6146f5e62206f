/-
**The config schema of the two roles and its validation.**

`ServeConfig.validate` and `AccessConfig.validate` name the offending field in their text; they run
on every load and before every write.
-/

import IrohTunnel.Endpoint.Types
import IrohTunnel.Ownership.Role

namespace IrohTunnel.Config

open IrohTunnel.Endpoint (Protocol)

/-! ### Schema -/

/-- The `[node]` table shared by both roles. -/
structure NodeConfig where
  /-- Empty means: generate one on the first run and store it. -/
  secretKey : String := ""
  relayUrls : List String := []
  relayToken : Option String := none
  maxConcurrentStreams : Option UInt32 := none
  deriving DecidableEq, Repr

/-- Optional UDP resource settings of a service. -/
structure UdpSettings where
  idleTimeout : Option UInt64 := none
  maxFlows : Option UInt64 := none
  maxFlowsPerPeer : Option UInt64 := none
  queueDepth : Option UInt64 := none
  deriving DecidableEq, Repr

structure ServeService where
  name : String
  protocol : Protocol
  host : String := "127.0.0.1"
  port : UInt16
  udp : UdpSettings := {}
  deriving DecidableEq, Repr

structure AccessService where
  name : String
  nodeId : String
  protocol : Protocol
  host : String := "127.0.0.1"
  port : UInt16
  relayUrls : List String := []
  udp : UdpSettings := {}
  deriving DecidableEq, Repr

structure ServeConfig where
  node : NodeConfig := {}
  services : List ServeService := []
  deriving DecidableEq, Repr

structure AccessConfig where
  node : NodeConfig := {}
  services : List AccessService := []
  deriving DecidableEq, Repr

/-! ### Validation -/

def maxNameLen : Nat := 63

/-- The lengths of a base32 and of a hex node id. -/
def nodeIdLens : List Nat := [52, 64]

def maxUdpIdleTimeoutSecs : UInt64 := 86400

def maxUdpFlows : UInt64 := 1000000

def maxUdpQueueDepth : UInt64 := 65536

/-- `char::is_whitespace`: the characters with the property `White_Space`. -/
def isWhitespace (char : Char) : Bool :=
  let code := char.toNat
  (9 ≤ code && code ≤ 13) || code == 0x20 || code == 0x85 || code == 0xA0 || code == 0x1680 ||
    (0x2000 ≤ code && code ≤ 0x200A) || code == 0x2028 || code == 0x2029 || code == 0x202F ||
    code == 0x205F || code == 0x3000

/-- A visible character of ASCII is no blank. -/
theorem isWhitespace_of_visible {char : Char} (above : 0x20 < char.toNat)
    (below : char.toNat < 0x7F) : isWhitespace char = false := by
  simp only [isWhitespace, Bool.or_eq_false_iff, Bool.and_eq_false_iff, decide_eq_false_iff_not,
    beq_eq_false_iff_ne]
  omega

/-- A character of `[a-z0-9-]`. -/
def isNameChar (char : Char) : Bool :=
  ('a' ≤ char && char ≤ 'z') || ('0' ≤ char && char ≤ '9') || char == '-'

/-- Refuse with a text unless the check passes. -/
def ensure (passes : Bool) (text : String) : Except String Unit :=
  if passes then .ok () else .error text

def validateName (name : String) : Except String Unit := do
  ensure (!name.toList.isEmpty && name.toList.all isNameChar)
    s!"invalid service name '{name}': must match ^[a-z0-9-]+$"
  ensure (name.utf8ByteSize ≤ maxNameLen)
    s!"invalid service name '{name}': max {maxNameLen} bytes (ALPN limit)"

def validatePort (port : UInt16) : Except String Unit :=
  ensure (port != 0) "invalid port: must be 1-65535"

/-- One bounded UDP setting: absent, or between one and its maximum. -/
def validateUdpField (service field : String) (value : Option UInt64) (max : UInt64) :
    Except String Unit :=
  match value with
  | none => .ok ()
  | some value => do
      ensure (value != 0) s!"service '{service}': invalid {field} 0: must be >= 1"
      ensure (value ≤ max) s!"service '{service}': invalid {field} {value}: must be <= {max}"

def UdpSettings.validate (udp : UdpSettings) (service : String) (protocol : Protocol)
    (perPeerAllowed : Bool) : Except String Unit :=
  if protocol ≠ .udp then
    ensure (udp = {}) (s!"service '{service}': idle_timeout, max_flows, max_flows_per_peer and " ++
      "queue_depth apply only to protocol = \"udp\"")
  else do
    validateUdpField service "idle_timeout" udp.idleTimeout maxUdpIdleTimeoutSecs
    validateUdpField service "max_flows" udp.maxFlows maxUdpFlows
    validateUdpField service "max_flows_per_peer" udp.maxFlowsPerPeer maxUdpFlows
    validateUdpField service "queue_depth" udp.queueDepth maxUdpQueueDepth
    ensure (perPeerAllowed || udp.maxFlowsPerPeer.isNone)
      s!"service '{service}': max_flows_per_peer is not valid on an access service"
    ensure (perPeerAllowed || udp.queueDepth.isNone)
      s!"service '{service}': queue_depth is not valid on an access service"
    match udp.maxFlowsPerPeer, udp.maxFlows with
    | some perPeer, some total =>
        ensure (perPeer ≤ total)
          s!"service '{service}': max_flows_per_peer {perPeer} exceeds max_flows {total}"
    | _, _ => .ok ()

def NodeConfig.validate (node : NodeConfig) : Except String Unit := do
  ensure (node.maxConcurrentStreams != some 0) "invalid max_concurrent_streams 0: must be >= 1"
  match node.relayToken with
  | none => .ok ()
  | some token => do
      ensure (!token.toList.all isWhitespace)
        "invalid relay_token: must not be empty or whitespace"
      ensure (!token.toList.any isWhitespace) "invalid relay_token: must not contain whitespace"

/-- Every relay URL of a list must be `https://`; `on` says where the list stands. -/
def validateRelayUrls (on : String) (urls : List String) : Except String Unit :=
  urls.forM fun url =>
    ensure ("https://".isPrefixOf url) s!"invalid relay_url '{url}'{on}: must be https://"

/-- Check a list of services in order, each against the names seen before it. -/
def validateServices {Service : Type} (name : Service → String)
    (validate : Service → Except String Unit) : List String → List Service → Except String Unit
  | _, [] => .ok ()
  | seen, service :: rest => do
      validateName (name service)
      ensure (!seen.contains (name service)) s!"duplicate service name: '{name service}'"
      validate service
      validateServices name validate (name service :: seen) rest

def ServeService.validate (service : ServeService) : Except String Unit := do
  validatePort service.port
  service.udp.validate service.name service.protocol true

def AccessService.validate (service : AccessService) : Except String Unit := do
  ensure (nodeIdLens.contains service.nodeId.utf8ByteSize)
    s!"invalid node_id '{service.nodeId}': must be 52 (base32) or 64 (hex) chars"
  validatePort service.port
  service.udp.validate service.name service.protocol false
  validateRelayUrls s!" on service '{service.name}'" service.relayUrls

/-- The services first, then the node. -/
def ServeConfig.validate (config : ServeConfig) : Except String Unit := do
  validateServices ServeService.name ServeService.validate [] config.services
  validateRelayUrls "" config.node.relayUrls
  config.node.validate

/-- The node first, then the services. -/
def AccessConfig.validate (config : AccessConfig) : Except String Unit := do
  validateRelayUrls "" config.node.relayUrls
  config.node.validate
  validateServices AccessService.name AccessService.validate [] config.services

end IrohTunnel.Config
