/-
**The network: which service a local client of Access reaches.**

Access gives each of its services a listener and a dialer for the service's node and ALPN; Serve
registers the ALPN of each of its services and looks the target of a connection up by it. Both take
their services from a config. `iroh` connects a dialer to the endpoint of its address and leaves the
ALPN to TLS, which takes one that the endpoint has registered.

* `connect_of_serving` — what a dialer reaches at a node that serves;
* `routes_exactly` — a listener leads to the service of its own name at its own node and nowhere
  else, and no two lead to one target.
-/

import IrohTunnel.Access.Dialers
import IrohTunnel.Serve.Routing

namespace IrohTunnel.Network

open IrohTunnel.Library IrohTunnel.Endpoint
open IrohTunnel.Config (AccessConfig AccessService ServeConfig ServeService)
open IrohTunnel.Access (AccessSettings AccessServiceSettings AccessStatusServiceRow ServiceDialer
  buildDialer buildDialers)
open IrohTunnel.Serve (Alpn Demultiplexed ServeServiceSettings ServiceTarget buildTargets
  demultiplex serveSettings targetOf)

/-! ### The two ends -/

/-- What `access_settings` makes of one service. -/
def accessService (service : AccessService) : AccessServiceSettings where
  name := service.name
  nodeId := service.nodeId
  protocol := service.protocol
  host := service.host
  port := service.port
  relayUrls := service.relayUrls

/-- The relays and the services of `access_settings`. -/
def accessSettings (config : AccessConfig) : AccessSettings where
  node := { relayUrls := config.node.relayUrls, relayToken := config.node.relayToken }
  services := config.services.map accessService

/-- The ALPNs that `bind_serve` registers. -/
def registeredAlpns (services : List ServeServiceSettings) : List Alpn :=
  services.map fun service => Serve.alpnFor service.name

/-- The nodes that run Serve, each with its config. -/
abbrev Serving := EndpointId → Option ServeConfig

/-- Whether the handshake for an ALPN succeeds with an endpoint that registered a list of them. -/
abbrev Handshake := List Alpn → Alpn → Bool

/-- TLS selects the client's ALPN where the server has it, and fails where it has not. -/
def Handshake.Negotiates (handshake : Handshake) : Prop :=
  ∀ registered alpn, handshake registered alpn = true ↔ alpn ∈ registered

inductive Connected
  | unreachable
  | handshakeFailed
  /-- What the node's accept loop does with the connection. -/
  | accepted (result : Demultiplexed)
  deriving DecidableEq

/-- A connection of a dialer: the ALPN is negotiated before the accept loop has it. -/
def connect {RelayUrl : Type} (handshake : Handshake) (serving : Serving)
    (dialer : ServiceDialer RelayUrl) : Connected :=
  match serving dialer.addr.id with
  | none => .unreachable
  | some config =>
      let services := serveSettings config
      let alpn := OsString.encode dialer.alpn
      if handshake (registeredAlpns services) alpn then
        .accepted (demultiplex (buildTargets services) alpn)
      else .handshakeFailed

/-! ### One connection -/

section Connections

variable {RelayUrl : Type} {handshake : Handshake} {serving : Serving}
  {dialer : ServiceDialer RelayUrl} {config : ServeConfig} {name : String}

theorem mem_registeredAlpns : Serve.alpnFor name ∈ registeredAlpns (serveSettings config) ↔
    ∃ service ∈ config.services, service.name = name := by
  unfold registeredAlpns serveSettings
  rw [List.map_map, List.mem_map]
  exact exists_congr fun service => and_congr_right fun _ => Serve.alpnFor_injective.eq_iff

/-- A node that serves the dialer's name accepts it for that service; any other refuses it. -/
theorem connect_of_serving (negotiates : handshake.Negotiates)
    (valid : config.validate = .ok ()) (serves : serving dialer.addr.id = some config)
    (alpn : dialer.alpn = Access.alpnFor name) :
    (∃ place service, config.services[place]? = some service ∧ service.name = name ∧
        connect handshake serving dialer = .accepted (.connected (targetOf service place) name)) ∨
      (∀ service ∈ config.services, service.name ≠ name) ∧
        connect handshake serving dialer = .handshakeFailed := by
  have bytes : OsString.encode dialer.alpn = Serve.alpnFor name := by
    rw [alpn]
    rfl
  unfold connect
  rw [serves]
  simp only [bytes]
  by_cases known : ∃ service ∈ config.services, service.name = name
  · obtain ⟨service, member, rfl⟩ := known
    obtain ⟨place, here⟩ := List.getElem?_of_mem member
    refine .inl ⟨place, service, here, rfl, ?_⟩
    have found : (buildTargets (serveSettings config)).lookup (Serve.alpnFor service.name) =
        some (targetOf service place) :=
      Table.lookup_insertAll_of_mem ∅ (Serve.nodup_keys valid)
        (Serve.mem_insertions.mpr ⟨place, service, here, rfl⟩)
    rw [if_pos ((negotiates _ _).mpr (mem_registeredAlpns.mpr ⟨service, member, rfl⟩))]
    unfold demultiplex Serve.loggedName
    rw [found, Serve.nameFromAlpn_alpnFor, Option.getD_some]
  · refine .inr ⟨fun service member same => known ⟨service, member, same⟩, ?_⟩
    rw [if_neg fun agreed => known (mem_registeredAlpns.mp ((negotiates _ _).mp agreed))]

end Connections

/-! ### All connections -/

variable {RelayUrl : Type} [DecidableEq RelayUrl]

theorem id_buildDialAddr (nodeId : EndpointId) (relayUrls : List RelayUrl) :
    (buildDialAddr nodeId relayUrls).id = nodeId := by
  have kept (addr : EndpointAddr RelayUrl) :
      (relayUrls.foldl EndpointAddr.withRelayUrl addr).id = addr.id := by
    induction relayUrls generalizing addr with
    | nil => rfl
    | cons url rest ih => exact (ih _).trans rfl
  exact kept { id := nodeId }

/-- The listener of a service, with the dialer its clients are carried by. -/
structure ListensFor (iroh : Iroh RelayUrl) (service : AccessService)
    (dialer : ServiceDialer RelayUrl) : Prop where
  address : dialer.listenAddr = s!"{service.host}:{service.port}"
  node : iroh.parseEndpointId service.nodeId = .ok dialer.addr.id
  alpn : dialer.alpn = Access.alpnFor service.name
  protocol : dialer.protocol = service.protocol

theorem listensFor_of_buildDialer {iroh : Iroh RelayUrl} {nodeRelayUrls : List RelayUrl}
    {service : AccessService} {dialer : ServiceDialer RelayUrl} {row : AccessStatusServiceRow}
    (built : buildDialer iroh nodeRelayUrls (accessService service) = .ok (dialer, row)) :
    ListensFor iroh service dialer ∧ row.name = service.name ∧
      row.peer = iroh.showEndpointId dialer.addr.id := by
  obtain ⟨nodeId, parsed, built⟩ := Lists.bind_eq_ok.mp built
  obtain ⟨effective, _, built⟩ := Lists.bind_eq_ok.mp built
  rw [withContext_eq_ok, fromText_eq_ok] at parsed
  have id : (buildDialAddr nodeId effective).id = nodeId := id_buildDialAddr nodeId effective
  cases built
  exact ⟨⟨rfl, by rw [id]; exact parsed, rfl, rfl⟩, rfl, by rw [id]⟩

/-- The listeners of a config, in order, and what they lead to. -/
structure Routes (iroh : Iroh RelayUrl) (handshake : Handshake) (serving : Serving)
    (config : AccessConfig) (dialers : List (ServiceDialer RelayUrl))
    (rows : List AccessStatusServiceRow) : Prop where
  /-- One listener for each service, and one status row that names its service and its node. -/
  listeners : config.services.Forall₂ (ListensFor iroh) dialers
  status : (config.services.zip dialers).Forall₂ (fun pair row => row.name = pair.1.name ∧
    row.peer = iroh.showEndpointId pair.2.addr.id) rows
  /-- A client is led to the service of its listener's name at its listener's node, and to no other
  one. -/
  reaches : ∀ (index : Nat) (service : AccessService) (dialer : ServiceDialer RelayUrl)
    (serve : ServeConfig) (target : ServiceTarget) (name : String),
    config.services[index]? = some service → dialers[index]? = some dialer →
    serving dialer.addr.id = some serve →
      (connect handshake serving dialer = .accepted (.connected target name) ↔
        name = service.name ∧ ∃ place other, serve.services[place]? = some other ∧
          other.name = service.name ∧ target = targetOf other place)
  /-- Where the node serves no such name, the handshake fails. -/
  refused : ∀ (index : Nat) (service : AccessService) (dialer : ServiceDialer RelayUrl)
    (serve : ServeConfig), config.services[index]? = some service →
    dialers[index]? = some dialer → serving dialer.addr.id = some serve →
      (connect handshake serving dialer = .handshakeFailed ↔
        ∀ other ∈ serve.services, other.name ≠ service.name)
  /-- No connection of a dialer is accepted and then dropped for its ALPN. -/
  kept : ∀ dialer ∈ dialers, ∀ name,
    connect handshake serving dialer ≠ .accepted (.dropped name)
  /-- Two listeners lead to two targets. -/
  apart : ∀ (i j : Nat) (dialer other : ServiceDialer RelayUrl) (target : ServiceTarget)
    (name otherName : String), dialers[i]? = some dialer → dialers[j]? = some other →
    dialer.addr.id = other.addr.id →
    connect handshake serving dialer = .accepted (.connected target name) →
    connect handshake serving other = .accepted (.connected target otherName) → i = j

omit [DecidableEq RelayUrl] in
theorem exists_service {config : AccessConfig} {iroh : Iroh RelayUrl}
    {dialers : List (ServiceDialer RelayUrl)} {dialer : ServiceDialer RelayUrl} {index : Nat}
    (listeners : config.services.Forall₂ (ListensFor iroh) dialers)
    (found : dialers[index]? = some dialer) :
    ∃ service, config.services[index]? = some service ∧ ListensFor iroh service dialer := by
  obtain ⟨lengths, pairs⟩ := List.forall₂_iff_get.mp listeners
  obtain ⟨inside, rfl⟩ := List.getElem?_eq_some_iff.mp found
  have here : index < config.services.length := lengths ▸ inside
  exact ⟨_, List.getElem?_eq_getElem here, pairs index here inside⟩

theorem status_of_forall₂ {iroh : Iroh RelayUrl} {nodeRelayUrls : List RelayUrl}
    {services : List AccessService}
    {pairs : List (ServiceDialer RelayUrl × AccessStatusServiceRow)}
    (each : services.Forall₂ (fun service pair =>
      buildDialer iroh nodeRelayUrls (accessService service) = .ok pair) pairs) :
    (services.zip (pairs.map Prod.fst)).Forall₂ (fun pair row => row.name = pair.1.name ∧
      row.peer = iroh.showEndpointId pair.2.addr.id) (pairs.map Prod.snd) := by
  induction each with
  | nil => exact .nil
  | cons made _ ih => exact .cons (listensFor_of_buildDialer made).2 ih

/-- **End to end.** Where Access has a valid config that resolves, and every node that serves has a
valid one: a client of a listener is led to the service of the listener's name at its node, each
with the address and the protocol that the node's config gives it, and to nothing else; no two
listeners lead to one target. -/
theorem routes_exactly (iroh : Iroh RelayUrl) (handshake : Handshake) (serving : Serving)
    (config : AccessConfig) (dialers : List (ServiceDialer RelayUrl))
    (rows : List AccessStatusServiceRow) (negotiates : handshake.Negotiates)
    (serves : ∀ id serve, serving id = some serve → serve.validate = .ok ())
    (valid : config.validate = .ok ())
    (built : buildDialers iroh (accessSettings config) = .ok (dialers, rows)) :
    Routes iroh handshake serving config dialers rows := by
  obtain ⟨nodeRelayUrls, _, rest⟩ := Lists.bind_eq_ok.mp built
  obtain ⟨pairs, mapped, rest⟩ := Lists.bind_eq_ok.mp rest
  cases rest
  have each : config.services.Forall₂ (fun service pair =>
      buildDialer iroh nodeRelayUrls (accessService service) = .ok pair) pairs :=
    List.forall₂_map_left_iff.mp (Lists.forall₂_of_mapM_ok mapped)
  have listeners : config.services.Forall₂ (ListensFor iroh) (pairs.map Prod.fst) :=
    List.forall₂_map_right_iff.mpr (each.imp fun _ _ made => (listensFor_of_buildDialer made).1)
  have distinct : (config.services.map AccessService.name).Nodup := by
    obtain ⟨_, _, validated⟩ := Lists.bind_eq_ok.mp valid
    obtain ⟨_, _, checked⟩ := Lists.bind_eq_ok.mp validated
    exact (Serve.nodup_of_validateServices checked).1
  have comes (index : Nat) (service : AccessService) (dialer : ServiceDialer RelayUrl)
      (serve : ServeConfig) (here : config.services[index]? = some service)
      (found : (pairs.map Prod.fst)[index]? = some dialer)
      (runs : serving dialer.addr.id = some serve) :=
    have listens : ListensFor iroh service dialer := by
      obtain ⟨other, there, listens⟩ := exists_service listeners found
      rw [here, Option.some_inj] at there
      exact there ▸ listens
    connect_of_serving negotiates (serves _ _ runs) runs listens.alpn
  have reaches : ∀ (index : Nat) (service : AccessService) (dialer : ServiceDialer RelayUrl)
      (serve : ServeConfig) (target : ServiceTarget) (name : String),
      config.services[index]? = some service → (pairs.map Prod.fst)[index]? = some dialer →
      serving dialer.addr.id = some serve →
        (connect handshake serving dialer = .accepted (.connected target name) ↔
          name = service.name ∧ ∃ place other, serve.services[place]? = some other ∧
            other.name = service.name ∧ target = targetOf other place) := by
    intro index service dialer serve target name here found runs
    obtain ⟨place, other, there, same, leads⟩ | ⟨missing, leads⟩ :=
      comes index service dialer serve here found runs
    · rw [leads]
      constructor
      · rintro ⟨⟩
        exact ⟨rfl, place, other, there, same, rfl⟩
      · rintro ⟨rfl, another, twin, elsewhere, twinSame, rfl⟩
        obtain ⟨rfl, rfl⟩ := Lists.unique_place (Serve.nodup_names (serves _ _ runs)) there
          elsewhere (same.trans twinSame.symm)
        rfl
    · rw [leads]
      refine iff_of_false nofun ?_
      rintro ⟨_, place, other, there, same, _⟩
      exact missing other (List.mem_of_getElem? there) same
  refine ⟨listeners, status_of_forall₂ each, reaches, ?_, ?_, ?_⟩
  · intro index service dialer serve here found runs
    obtain ⟨place, other, there, same, leads⟩ | ⟨missing, leads⟩ :=
      comes index service dialer serve here found runs
    · rw [leads]
      exact iff_of_false nofun fun missing => missing other (List.mem_of_getElem? there) same
    · exact iff_of_true leads missing
  · intro dialer member name
    obtain ⟨index, found⟩ := List.getElem?_of_mem member
    obtain ⟨service, here, _⟩ := exists_service listeners found
    cases runs : serving dialer.addr.id with
    | none =>
        unfold connect
        rw [runs]
        nofun
    | some serve =>
        obtain ⟨_, _, _, _, leads⟩ | ⟨_, leads⟩ :=
          comes index service dialer serve here found runs
        all_goals
          rw [leads]
          nofun
  · intro i j dialer other target name otherName atI atJ node first second
    obtain ⟨service, here, _⟩ := exists_service listeners atI
    obtain ⟨another, there, _⟩ := exists_service listeners atJ
    cases runs : serving dialer.addr.id with
    | none =>
        unfold connect at first
        rw [runs] at first
        cases first
    | some serve =>
        obtain ⟨_, place, one, atPlace, same, rfl⟩ :=
          (reaches i service dialer serve _ _ here atI runs).mp first
        obtain ⟨_, elsewhere, two, atElsewhere, alike, shared⟩ :=
          (reaches j another other serve _ _ there atJ (node ▸ runs)).mp second
        have places : place = elsewhere := congrArg ServiceTarget.counters shared
        subst places
        obtain rfl : one = two := Option.some_inj.mp (atPlace.symm.trans atElsewhere)
        exact (Lists.unique_place distinct here there (same.symm.trans alike)).1

/-! ### Two services of one node -/

/-- The clients of both services of `webAndDns`, and of one it does not have. -/
def threeClients : AccessConfig where
  services :=
    [{ name := "dns", protocol := .udp, port := 5353
       nodeId := "5866666666666666666666666666666666666666666666666666666666666666" },
     { name := "web", protocol := .tcp, port := 8080
       nodeId := "5866666666666666666666666666666666666666666666666666666666666666" },
     { name := "db", protocol := .tcp, port := 5432
       nodeId := "5866666666666666666666666666666666666666666666666666666666666666"
       relayUrls := ["https://relay.example.com./"] }]

def registered : Handshake := fun alpns alpn => alpns.contains alpn

def oneNode : Serving := fun id =>
  if id = 0x5866666666666666666666666666666666666666666666666666666666666666 then
    some Serve.webAndDns
  else none

theorem routes_exactly_one_node : ∃ dialers rows,
    buildDialers Access.oneKey (accessSettings threeClients) = .ok (dialers, rows) ∧
    Routes Access.oneKey registered oneNode threeClients dialers rows := by
  refine ⟨_, _, rfl, routes_exactly Access.oneKey registered oneNode threeClients _ _
    (fun _ _ => List.contains_iff_mem) ?_ (by decide +kernel) rfl⟩
  intro id serve runs
  unfold oneNode at runs
  split at runs
  · cases runs
    rfl
  · cases runs

end IrohTunnel.Network
