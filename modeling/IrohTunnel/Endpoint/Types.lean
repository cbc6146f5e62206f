/-
**Endpoints: identities, relay maps, addresses, and what the program uses of `iroh`.**

`iroh` is not part of the repository. Its relay URL is a type parameter; the functions the program
calls are the fields of `Iroh`.
-/

import Mathlib.Data.List.Dedup

namespace IrohTunnel.Endpoint

/-- What a service carries. -/
inductive Protocol
  | tcp | udp
  deriving DecidableEq, Repr

/-- `Protocol::as_str`. -/
def Protocol.asStr : Protocol → String
  | .tcp => "tcp"
  | .udp => "udp"

/-- The identity of an endpoint: an Ed25519 public key. -/
abbrev EndpointId := BitVec 256

/-- The relays an endpoint is connected to, with the token sent to every one of them. -/
structure RelayMap (RelayUrl : Type) where
  urls : List RelayUrl
  authToken : Option String := none

/-- `iroh::RelayMode`, as far as the program builds it. -/
inductive RelayMode (RelayUrl : Type)
  | default
  | custom (map : RelayMap RelayUrl)

/-- `iroh::EndpointAddr`: an endpoint and the relays it may be reached through. -/
structure EndpointAddr (RelayUrl : Type) where
  id : EndpointId
  relayUrls : List RelayUrl := []

/-- What the program calls of `iroh`. -/
structure Iroh (RelayUrl : Type) where
  /-- `str::parse::<RelayUrl>`; the error is its text. -/
  parseRelayUrl : String → Except String RelayUrl
  /-- `str::parse::<EndpointId>`. -/
  parseEndpointId : String → Except String EndpointId
  /-- `EndpointId::to_string`. -/
  showEndpointId : EndpointId → String
  /-- `defaults::prod::default_relay_map`, which is also what `RelayMode::Default` stands for. -/
  defaultRelayMap : RelayMap RelayUrl

variable {RelayUrl : Type}

/-- The relays of an endpoint bound with `mode`. -/
def RelayMode.relayMap (iroh : Iroh RelayUrl) : RelayMode RelayUrl → RelayMap RelayUrl
  | .default => iroh.defaultRelayMap
  | .custom map => map

/-- `RelayMap::from_iter`: one entry for each distinct URL. -/
def RelayMap.fromIter [DecidableEq RelayUrl] (urls : List RelayUrl) : RelayMap RelayUrl :=
  { urls := urls.dedup }

/-- `RelayMap::with_auth_token`. -/
def RelayMap.withAuthToken (map : RelayMap RelayUrl) (token : String) : RelayMap RelayUrl :=
  { map with authToken := some token }

/-- `EndpointAddr::with_relay_url`: the addresses are a set. -/
def EndpointAddr.withRelayUrl [DecidableEq RelayUrl] (addr : EndpointAddr RelayUrl)
    (url : RelayUrl) : EndpointAddr RelayUrl :=
  { addr with relayUrls := addr.relayUrls.insert url }

end IrohTunnel.Endpoint
