/-
**Access: the relays of the endpoint and the relays of every service's dial address.**

`bindAccess` binds the endpoint to the union of the node's and the services' relay URLs;
`buildDialers` gives each service its own list, or the node's when it has none.

* `inherited_default_not_covered` — with no node list, one overriding and one inheriting service,
  the endpoint lacks the default relays the inheriting service dials over;
* `relays_covered_iff` — when every relay of every dial address is in the endpoint's relay map.
-/

import IrohTunnel.Endpoint.Relays

namespace IrohTunnel.Access

open IrohTunnel.Library IrohTunnel.Endpoint

/-! ### Settings -/

/-- The node settings the relay code reads. -/
structure NodeSettings where
  relayUrls : List String := []
  relayToken : Option String := none

/-- One exposed access service. -/
structure AccessServiceSettings where
  name : String
  nodeId : String
  protocol : Protocol := .tcp
  host : String
  port : UInt16
  /-- Overrides the node relays; empty keeps them. -/
  relayUrls : List String := []

structure AccessSettings where
  node : NodeSettings := {}
  services : List AccessServiceSettings

/-! ### Binding and dialers -/

variable {RelayUrl : Type} [DecidableEq RelayUrl]

/-- The node's relay URLs and every service URL not yet in the list, in order. -/
def unionRelayUrls (settings : AccessSettings) : List String :=
  settings.services.foldl (fun relays service =>
    service.relayUrls.foldl (fun relays url =>
      if relays.contains url then relays else relays ++ [url]) relays) settings.node.relayUrls

/-- The relay mode of the endpoint that `bind_access` builds. -/
def bindAccess (iroh : Iroh RelayUrl) (settings : AccessSettings) :
    Except Error (RelayMode RelayUrl) :=
  relayModeFromUrls iroh (unionRelayUrls settings) settings.node.relayToken

/-- What a `ServiceDialer` is built with. -/
structure ServiceDialer (RelayUrl : Type) where
  addr : EndpointAddr RelayUrl
  alpn : String
  svcName : String
  protocol : Protocol
  listenAddr : String

structure AccessStatusServiceRow where
  name : String
  listenAddr : String
  peer : String
  deriving DecidableEq, Repr

/-- `host:port`, with an IPv6 literal in brackets. -/
def formatLocalAddr (host : String) (port : UInt16) : String :=
  if ':' ∈ host.toList then s!"[{host}]:{port}" else s!"{host}:{port}"

/-- `alpn_for`. -/
def alpnFor (name : String) : String := s!"iroh-tunnel/{name}"

/-- The relays a service is dialed over: its own, or the node's when it has none. -/
def effectiveRelayUrls (iroh : Iroh RelayUrl) (nodeRelayUrls : List RelayUrl)
    (service : AccessServiceSettings) : Except Error (List RelayUrl) :=
  if service.relayUrls.isEmpty then .ok nodeRelayUrls
  else withContext s!"service '{service.name}': invalid relay_urls"
    (resolveRelayUrls iroh service.relayUrls)

/-- The dialer and the status row of one service. -/
def buildDialer (iroh : Iroh RelayUrl) (nodeRelayUrls : List RelayUrl)
    (service : AccessServiceSettings) :
    Except Error (ServiceDialer RelayUrl × AccessStatusServiceRow) := do
  let nodeId ← withContext s!"invalid node_id: {service.nodeId}"
    (fromText (iroh.parseEndpointId service.nodeId))
  let effective ← effectiveRelayUrls iroh nodeRelayUrls service
  return ({ addr := buildDialAddr nodeId effective
            alpn := alpnFor service.name
            svcName := service.name
            protocol := service.protocol
            listenAddr := s!"{service.host}:{service.port}" },
          { name := service.name
            listenAddr := formatLocalAddr service.host service.port
            peer := iroh.showEndpointId nodeId })

/-- Resolve the relays and parse every service's `node_id`; the first error ends it. -/
def buildDialers (iroh : Iroh RelayUrl) (settings : AccessSettings) :
    Except Error (List (ServiceDialer RelayUrl) × List AccessStatusServiceRow) := do
  let nodeRelayUrls ← resolveRelayUrls iroh settings.node.relayUrls
  let built ← settings.services.mapM (buildDialer iroh nodeRelayUrls)
  return (built.map Prod.fst, built.map Prod.snd)

/-! ### Which relays are in which list -/

section Coverage

variable {iroh : Iroh RelayUrl} {settings : AccessSettings}

/-- Adding the URLs not yet in the list. -/
theorem mem_addUrls (relays urls : List String) (text : String) :
    text ∈ urls.foldl (fun relays url =>
        if relays.contains url then relays else relays ++ [url]) relays ↔
      text ∈ relays ∨ text ∈ urls := by
  rw [Lists.foldl_holds_iff _ (fun relays => text ∈ relays) (fun url => text = url)
    fun relays url => ?_]
  · simp
  · split
    · rename_i present
      refine (or_iff_left_of_imp ?_).symm
      rintro rfl
      exact List.contains_iff_mem.mp present
    · rw [List.mem_append, List.mem_singleton]

/-- The endpoint's list is the union of the node's and the services' lists. -/
theorem mem_unionRelayUrls (settings : AccessSettings) (text : String) :
    text ∈ unionRelayUrls settings ↔ text ∈ settings.node.relayUrls ∨
      ∃ service ∈ settings.services, text ∈ service.relayUrls :=
  Lists.foldl_holds_iff _ (fun relays : List String => text ∈ relays)
    (fun service : AccessServiceSettings => text ∈ service.relayUrls)
    (fun relays service => mem_addUrls relays service.relayUrls text) _ _

/-- The relays of one service's dial address: its own, or the node's when it has none. -/
theorem relayUrls_buildDialer {nodeRelayUrls : List RelayUrl} {service : AccessServiceSettings}
    {dialer : ServiceDialer RelayUrl} {row : AccessStatusServiceRow}
    (built : buildDialer iroh nodeRelayUrls service = .ok (dialer, row)) (url : RelayUrl) :
    url ∈ dialer.addr.relayUrls ↔
      if service.relayUrls = [] then url ∈ nodeRelayUrls
      else ∃ text ∈ service.relayUrls, iroh.parseRelayUrl text = .ok url := by
  obtain ⟨nodeId, _, built⟩ := Lists.bind_eq_ok.mp built
  obtain ⟨effective, resolved, built⟩ := Lists.bind_eq_ok.mp built
  cases built
  rw [relayUrls_buildDialAddr]
  unfold effectiveRelayUrls at resolved
  by_cases inherits : service.relayUrls = []
  · rw [if_pos (List.isEmpty_iff.mpr inherits)] at resolved
    cases resolved
    rw [if_pos inherits]
  · rw [if_neg (mt List.isEmpty_iff.mp inherits), withContext_eq_ok] at resolved
    rw [if_neg inherits]
    exact mem_resolveRelayUrls inherits resolved url

/-- The dialers are those of the services, over the node's resolved relays. -/
theorem buildDialers_ok {dialers : List (ServiceDialer RelayUrl)}
    {rows : List AccessStatusServiceRow}
    (built : buildDialers iroh settings = .ok (dialers, rows)) :
    ∃ nodeRelayUrls, resolveRelayUrls iroh settings.node.relayUrls = .ok nodeRelayUrls ∧
      (∀ dialer, dialer ∈ dialers ↔ ∃ service ∈ settings.services, ∃ row,
        buildDialer iroh nodeRelayUrls service = .ok (dialer, row)) ∧
      ∀ service ∈ settings.services, ∃ dialer row,
        buildDialer iroh nodeRelayUrls service = .ok (dialer, row) := by
  obtain ⟨nodeRelayUrls, resolved, built⟩ := Lists.bind_eq_ok.mp built
  obtain ⟨pairs, mapped, built⟩ := Lists.bind_eq_ok.mp built
  cases built
  refine ⟨nodeRelayUrls, resolved, fun dialer => ?_, fun service member => ?_⟩
  · rw [List.mem_map]
    constructor
    · rintro ⟨⟨found, row⟩, member, rfl⟩
      obtain ⟨service, inside, done⟩ := (Lists.mem_of_mapM_ok mapped _).mp member
      exact ⟨service, inside, row, done⟩
    · rintro ⟨service, inside, row, done⟩
      exact ⟨(dialer, row), (Lists.mem_of_mapM_ok mapped _).mpr ⟨service, inside, done⟩, rfl⟩
  · obtain ⟨⟨dialer, row⟩, done⟩ := Lists.exists_of_mapM_ok mapped service member
    exact ⟨dialer, row, done⟩

/-! ### Coverage -/

/-- The node has its own relays, or all services inherit, or none does, or the services' own relays
happen to include every default relay. -/
def DefaultsCovered (iroh : Iroh RelayUrl) (settings : AccessSettings) : Prop :=
  settings.node.relayUrls ≠ [] ∨
  (∀ service ∈ settings.services, service.relayUrls = []) ∨
  (∀ service ∈ settings.services, service.relayUrls ≠ []) ∨
  ∀ url ∈ n0DefaultRelayUrls iroh, ∃ service ∈ settings.services, ∃ text ∈ service.relayUrls,
    iroh.parseRelayUrl text = .ok url

/-- Every relay of every dial address is one the endpoint is connected to. -/
def RelaysCovered (iroh : Iroh RelayUrl) (mode : RelayMode RelayUrl)
    (dialers : List (ServiceDialer RelayUrl)) : Prop :=
  ∀ dialer ∈ dialers, ∀ url ∈ dialer.addr.relayUrls, url ∈ (mode.relayMap iroh).urls

variable {mode : RelayMode RelayUrl} {dialers : List (ServiceDialer RelayUrl)}
  {rows : List AccessStatusServiceRow}

/-- Once some list is configured, a relay in use is covered when some configured URL names it. -/
theorem relaysCovered_of_configured (bound : bindAccess iroh settings = .ok mode)
    (built : buildDialers iroh settings = .ok (dialers, rows))
    (configured : unionRelayUrls settings ≠ []) :
    RelaysCovered iroh mode dialers ↔
      ∀ service ∈ settings.services, service.relayUrls = [] →
        ∀ nodeRelayUrls, resolveRelayUrls iroh settings.node.relayUrls = .ok nodeRelayUrls →
          ∀ url ∈ nodeRelayUrls, ∃ text ∈ unionRelayUrls settings,
            iroh.parseRelayUrl text = .ok url := by
  obtain ⟨nodeRelayUrls, resolved, members, total⟩ := buildDialers_ok built
  constructor
  · intro covered service member inherits other resolvedOther url inside
    rw [resolved] at resolvedOther
    cases resolvedOther
    obtain ⟨dialer, row, done⟩ := total service member
    have attached : url ∈ dialer.addr.relayUrls := by
      rw [relayUrls_buildDialer done, if_pos inherits]
      exact inside
    exact (mem_relayMap_of_urls configured bound url).mp
      (covered dialer ((members dialer).mpr ⟨service, member, row, done⟩) url attached)
  · intro covered dialer member url attached
    obtain ⟨service, serviceMember, row, done⟩ := (members dialer).mp member
    rw [mem_relayMap_of_urls configured bound]
    rw [relayUrls_buildDialer done] at attached
    by_cases inherits : service.relayUrls = []
    · rw [if_pos inherits] at attached
      exact covered service serviceMember inherits nodeRelayUrls resolved url attached
    · rw [if_neg inherits] at attached
      obtain ⟨text, textMember, parsed⟩ := attached
      exact ⟨text, (mem_unionRelayUrls settings text).mpr
        (.inr ⟨service, serviceMember, textMember⟩), parsed⟩

/-- With nothing configured, all is dialed over the default relays, which the endpoint has. -/
theorem relaysCovered_of_default (bound : bindAccess iroh settings = .ok mode)
    (built : buildDialers iroh settings = .ok (dialers, rows))
    (nothing : unionRelayUrls settings = []) : RelaysCovered iroh mode dialers := by
  have noText : ∀ text, text ∉ unionRelayUrls settings := fun text member => by
    rw [nothing] at member
    cases member
  obtain ⟨nodeRelayUrls, resolved, members, _⟩ := buildDialers_ok built
  have noNode : settings.node.relayUrls = [] := List.eq_nil_iff_forall_not_mem.mpr
    fun text member => noText text ((mem_unionRelayUrls settings text).mpr (.inl member))
  intro dialer member url attached
  obtain ⟨service, serviceMember, row, done⟩ := (members dialer).mp member
  have inherits : service.relayUrls = [] := List.eq_nil_iff_forall_not_mem.mpr fun text member =>
    noText text ((mem_unionRelayUrls settings text).mpr (.inr ⟨service, serviceMember, member⟩))
  rw [relayUrls_buildDialer done, if_pos inherits] at attached
  rw [noNode] at resolved
  cases resolved
  unfold bindAccess at bound
  rw [nothing] at bound
  rw [relayMap_of_no_urls bound]
  exact attached

/-- A node with its own relays has them in the union. -/
theorem relaysCovered_of_node (bound : bindAccess iroh settings = .ok mode)
    (built : buildDialers iroh settings = .ok (dialers, rows))
    (configured : settings.node.relayUrls ≠ []) : RelaysCovered iroh mode dialers := by
  obtain ⟨first, inside⟩ := List.exists_mem_of_ne_nil _ configured
  rw [relaysCovered_of_configured bound built
    (List.ne_nil_of_mem ((mem_unionRelayUrls settings first).mpr (.inl inside)))]
  intro service member inherits nodeRelayUrls resolved url attached
  obtain ⟨text, textMember, parsed⟩ := (mem_resolveRelayUrls configured resolved url).mp attached
  exact ⟨text, (mem_unionRelayUrls settings text).mpr (.inl textMember), parsed⟩

/-- Every relay of every dial address is in the endpoint's relay map exactly when no inheriting
service is left with default relays that the endpoint does not have. -/
theorem relaysCovered_iff (iroh : Iroh RelayUrl) (settings : AccessSettings)
    (mode : RelayMode RelayUrl) (dialers : List (ServiceDialer RelayUrl))
    (rows : List AccessStatusServiceRow) (bound : bindAccess iroh settings = .ok mode)
    (built : buildDialers iroh settings = .ok (dialers, rows)) :
    RelaysCovered iroh mode dialers ↔ DefaultsCovered iroh settings := by
  by_cases configuredNode : settings.node.relayUrls = []
  swap
  · exact iff_of_true (relaysCovered_of_node bound built configuredNode) (.inl configuredNode)
  have inUnion : ∀ text, text ∈ unionRelayUrls settings ↔
      ∃ service ∈ settings.services, text ∈ service.relayUrls := fun text => by
    rw [mem_unionRelayUrls, configuredNode]
    exact or_iff_right (List.not_mem_nil)
  by_cases nothing : unionRelayUrls settings = []
  · refine iff_of_true (relaysCovered_of_default bound built nothing) (.inr (.inl ?_))
    intro service member
    refine List.eq_nil_iff_forall_not_mem.mpr fun text textMember => ?_
    have inside := (inUnion text).mpr ⟨service, member, textMember⟩
    rw [nothing] at inside
    cases inside
  have someOverrides : ¬ ∀ service ∈ settings.services, service.relayUrls = [] := by
    intro allInherit
    refine nothing (List.eq_nil_iff_forall_not_mem.mpr fun text member => ?_)
    obtain ⟨service, serviceMember, textMember⟩ := (inUnion text).mp member
    rw [allInherit service serviceMember] at textMember
    cases textMember
  have resolved : resolveRelayUrls iroh settings.node.relayUrls =
      .ok (n0DefaultRelayUrls iroh) := by
    rw [configuredNode]
    rfl
  have named : ∀ url, (∃ text ∈ unionRelayUrls settings, iroh.parseRelayUrl text = .ok url) ↔
      ∃ service ∈ settings.services, ∃ text ∈ service.relayUrls,
        iroh.parseRelayUrl text = .ok url := fun url => by
    constructor
    · rintro ⟨text, member, parsed⟩
      obtain ⟨service, serviceMember, textMember⟩ := (inUnion text).mp member
      exact ⟨service, serviceMember, text, textMember, parsed⟩
    · rintro ⟨service, serviceMember, text, textMember, parsed⟩
      exact ⟨text, (inUnion text).mpr ⟨service, serviceMember, textMember⟩, parsed⟩
  rw [relaysCovered_of_configured bound built nothing]
  constructor
  · intro covered
    refine .inr (.inr ?_)
    by_cases someInherits : ∃ service ∈ settings.services, service.relayUrls = []
    · obtain ⟨service, member, inherits⟩ := someInherits
      exact .inr fun url inside =>
        (named url).mp (covered service member inherits _ resolved url inside)
    · exact .inl fun service member inherits => someInherits ⟨service, member, inherits⟩
  · rintro (isConfigured | allInherit | noneInherits | defaultsNamed)
    · exact absurd configuredNode isConfigured
    · exact absurd allInherit someOverrides
    · exact fun service member inherits => absurd inherits (noneInherits service member)
    · intro service member inherits nodeRelayUrls resolvedToo url inside
      rw [resolved] at resolvedToo
      cases resolvedToo
      exact (named url).mpr (defaultsNamed url inside)

end Coverage

/-! ### One overriding and one inheriting service -/

/-- `iroh` on the inputs below: `https` URLs parse to themselves, one key is known. -/
def oneKey : Iroh String where
  parseRelayUrl text :=
    if "https://".toList <+: text.toList then .ok text else .error "relative URL without a base"
  parseEndpointId text :=
    if text = "5866666666666666666666666666666666666666666666666666666666666666" then
      .ok 0x5866666666666666666666666666666666666666666666666666666666666666
    else .error "invalid length"
  showEndpointId _ := "5866666666666666666666666666666666666666666666666666666666666666"
  defaultRelayMap := { urls := ["https://use1-1.relay.n0.iroh.link./"] }

/-- Two services of one peer, the second with relays of its own. -/
def mixedSettings (node : List String) : AccessSettings where
  node := { relayUrls := node }
  services :=
    [{ name := "web", host := "127.0.0.1", port := 8080
       nodeId := "5866666666666666666666666666666666666666666666666666666666666666" },
     { name := "db", host := "127.0.0.1", port := 5432
       nodeId := "5866666666666666666666666666666666666666666666666666666666666666"
       relayUrls := ["https://relay.example.com./"] }]

theorem relaysCovered_own_node : ∃ mode dialers rows,
    bindAccess oneKey (mixedSettings ["https://home.example.com./"]) = .ok mode ∧
    buildDialers oneKey (mixedSettings ["https://home.example.com./"]) = .ok (dialers, rows) ∧
    RelaysCovered oneKey mode dialers := by
  refine ⟨_, _, _, rfl, rfl, ?_⟩
  exact (relaysCovered_iff oneKey (mixedSettings ["https://home.example.com./"]) _ _ _ rfl rfl).mpr
    (.inl (by decide))

/-- The inheriting service dials over a default relay that is not in the endpoint's map. -/
theorem inherited_default_not_covered : ∃ mode dialers rows,
    bindAccess oneKey (mixedSettings []) = .ok mode ∧
    buildDialers oneKey (mixedSettings []) = .ok (dialers, rows) ∧
    ¬ RelaysCovered oneKey mode dialers := by
  refine ⟨_, _, _, rfl, rfl, fun covered => ?_⟩
  have inside := covered _ List.mem_cons_self "https://use1-1.relay.n0.iroh.link./" (by decide)
  exact absurd inside (by decide)

end IrohTunnel.Access
