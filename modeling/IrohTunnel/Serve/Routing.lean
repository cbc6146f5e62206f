/-
**Serve: the targets of `run_serve` and the ALPN by which a connection finds its own.**

Every service has an ALPN of its own, `iroh-tunnel/` and the service's name. The targets are a hash
map that a later service of the same ALPN would overwrite; validation refuses repeated names.

* `alpnFor_injective`, `nameFromAlpn_alpnFor` — the encoding and its inverse;
* `nodup_names` — the names of a config that passes validation are distinct;
* `routing_exact` — every service is found under its own ALPN and nothing else is found.
-/

import IrohTunnel.Access.Dialers
import IrohTunnel.Config.Dto
import IrohTunnel.Library.Addresses
import IrohTunnel.Library.OsText
import IrohTunnel.Library.TextLines
import IrohTunnel.Udp.Types

namespace IrohTunnel.Config

open IrohTunnel.Udp (UdpLimits)

/-- The effective limits, with the defaults for absent fields. -/
def UdpSettings.resolve (udp : UdpSettings) : UdpLimits :=
  UdpLimits.fromOverrides (udp.idleTimeout.map fun seconds => seconds.toNat * 1000000000)
    (udp.maxFlows.map UInt64.toNat) (udp.maxFlowsPerPeer.map UInt64.toNat)
    (udp.queueDepth.map UInt64.toNat)

end IrohTunnel.Config

namespace IrohTunnel.Serve

open IrohTunnel.Library IrohTunnel.Library.Text
open IrohTunnel.Config (ServeConfig ServeService UdpSettings ensure validateServices)
open IrohTunnel.Endpoint (Protocol)
open IrohTunnel.Udp (UdpLimits)

/-! ### ALPN -/

abbrev Alpn := List UInt8

def alpnPrefix : String := "iroh-tunnel/"

/-- `alpn_for`: the bytes of what `Access.alpnFor` writes. -/
def alpnFor (name : String) : Alpn := OsString.encode (Access.alpnFor name)

/-- `std::str::from_utf8`. -/
def fromUtf8 (bytes : List UInt8) : Option String := String.fromUTF8? bytes.toByteArray

def nameFromAlpn (alpn : Alpn) : Option String :=
  (fromUtf8 alpn).bind fun text =>
    (stripPrefix alpnPrefix.toList text.toList).map String.ofList

theorem toByteArray_encode (text : String) :
    (OsString.encode text).toByteArray = text.toByteArray :=
  (show (OsString.encode text).toByteArray = text.toList.utf8Encode from rfl).trans
    String.utf8Encode_toList

theorem fromUtf8_encode (text : String) : fromUtf8 (OsString.encode text) = some text := by
  unfold fromUtf8 String.fromUTF8?
  rw [toByteArray_encode]
  exact dif_pos text.isValidUTF8

theorem toList_alpnFor (name : String) :
    (Access.alpnFor name).toList = alpnPrefix.toList ++ name.toList :=
  String.toList_append

/-- The name comes back out of its ALPN. -/
theorem nameFromAlpn_alpnFor (name : String) : nameFromAlpn (alpnFor name) = some name := by
  unfold nameFromAlpn alpnFor
  rw [fromUtf8_encode, Option.bind_some, toList_alpnFor, stripPrefix_append, Option.map_some,
    String.ofList_toList]

theorem alpnFor_injective : Function.Injective alpnFor := by
  intro name other same
  have names := congrArg nameFromAlpn same
  rw [nameFromAlpn_alpnFor, nameFromAlpn_alpnFor] at names
  exact Option.some.inj names

/-! ### Targets -/

/-- One published service, every default applied. -/
structure ServeServiceSettings where
  name : String
  protocol : Protocol
  host : String
  port : UInt16
  udp : UdpLimits

/-- What `serve_settings` makes of one service. -/
def serveService (service : ServeService) : ServeServiceSettings where
  name := service.name
  protocol := service.protocol
  host := service.host
  port := service.port
  udp := service.udp.resolve

/-- The services of `serve_settings`. -/
def serveSettings (config : ServeConfig) : List ServeServiceSettings :=
  config.services.map serveService

/-- One served service: where to dial locally, and its live counters. The counters are shared by
reference; `counters` tells which pair they are, in the order of allocation. -/
structure ServiceTarget where
  localAddr : String
  protocol : Protocol
  udpLimits : UdpLimits
  counters : Nat
  deriving DecidableEq, Repr

def ServiceTarget.new (service : ServeServiceSettings) (counters : Nat) : ServiceTarget where
  localAddr := s!"{service.host}:{service.port}"
  protocol := service.protocol
  udpLimits := service.udp
  counters := counters

/-- The ALPN and the target of each service, in order. -/
def insertions (services : List ServeServiceSettings) : List (Alpn × ServiceTarget) :=
  services.zipIdx.map fun entry => (alpnFor entry.1.name, ServiceTarget.new entry.1 entry.2)

/-- The lookup that `run_serve` builds: insertions into an empty map. -/
def buildTargets (services : List ServeServiceSettings) : Table Alpn ServiceTarget :=
  Table.insertAll (insertions services) ∅

/-- How a service is named in the log: the name in the ALPN, else the ALPN's bytes in hex. -/
def loggedName (alpn : Alpn) : String :=
  (nameFromAlpn alpn).getD
    ("[" ++ ", ".intercalate (alpn.map fun byte =>
      String.ofList ((Nat.toDigits 16 byte.toNat).leftpad 2 '0')) ++ "]")

/-- What `accept_loop` does with a connection. -/
inductive Demultiplexed
  | connected (target : ServiceTarget) (name : String)
  | dropped (name : String)
  deriving DecidableEq, Repr

/-- Demultiplex by the negotiated ALPN. -/
def demultiplex (targets : Table Alpn ServiceTarget) (alpn : Alpn) : Demultiplexed :=
  match targets.lookup alpn with
  | none => .dropped (loggedName alpn)
  | some target => .connected target (loggedName alpn)

/-! ### What validation rules out -/

variable {Service : Type} {name : Service → String} {validate : Service → Except String Unit}
variable {seen : List String} {services : List Service}

/-- The names of the services are distinct, and new to the names seen before them. -/
theorem nodup_of_validateServices (valid : validateServices name validate seen services = .ok ()) :
    (services.map name).Nodup ∧ ∀ service ∈ services, name service ∉ seen := by
  induction services generalizing seen with
  | nil => exact ⟨List.nodup_nil, fun _ member => nomatch member⟩
  | cons head rest ih =>
    obtain ⟨_, -, valid⟩ := Lists.bind_eq_ok.mp valid
    obtain ⟨_, fresh, valid⟩ := Lists.bind_eq_ok.mp valid
    obtain ⟨_, -, valid⟩ := Lists.bind_eq_ok.mp valid
    obtain ⟨distinct, unseen⟩ := ih valid
    have new : name head ∉ seen := by
      unfold ensure at fresh
      split at fresh
      · rename_i absent
        simpa using absent
      · cases fresh
    refine ⟨List.nodup_cons.mpr ⟨fun repeated => ?_, distinct⟩, ?_⟩
    · obtain ⟨other, member, same⟩ := List.mem_map.mp repeated
      exact unseen other member (same ▸ List.mem_cons_self)
    · intro service member
      rcases List.mem_cons.mp member with rfl | inRest
      · exact new
      · exact fun before => unseen service inRest (List.mem_cons_of_mem _ before)

theorem nodup_names {config : ServeConfig} (valid : config.validate = .ok ()) :
    (config.services.map ServeService.name).Nodup := by
  obtain ⟨_, services, -⟩ := Lists.bind_eq_ok.mp valid
  exact (nodup_of_validateServices services).1

/-! ### Routing -/

variable {config : ServeConfig}

theorem keys_insertions (services : List ServeServiceSettings) :
    (insertions services).map Prod.fst = services.map fun service => alpnFor service.name := by
  unfold insertions
  rw [List.map_map]
  show services.zipIdx.map ((fun service => alpnFor service.name) ∘ Prod.fst) = _
  rw [← List.map_map, List.zipIdx_map_fst]

/-- The ALPNs of a valid config are distinct. -/
theorem nodup_keys (valid : config.validate = .ok ()) :
    ((insertions (serveSettings config)).map Prod.fst).Nodup := by
  have keys : (insertions (serveSettings config)).map Prod.fst =
      (config.services.map ServeService.name).map alpnFor := by
    rw [keys_insertions, serveSettings, List.map_map, List.map_map]
    rfl
  rw [keys]
  exact (nodup_names valid).map alpnFor_injective

/-- What `run_serve` stores for the service of an index. -/
def targetOf (service : ServeService) (index : Nat) : ServiceTarget where
  localAddr := s!"{service.host}:{service.port}"
  protocol := service.protocol
  udpLimits := service.udp.resolve
  counters := index

theorem mem_insertions {entry : Alpn × ServiceTarget} :
    entry ∈ insertions (serveSettings config) ↔
      ∃ index service, config.services[index]? = some service ∧
        entry = (alpnFor service.name, targetOf service index) := by
  unfold insertions serveSettings
  rw [List.mem_map]
  constructor
  · rintro ⟨⟨settings, index⟩, member, rfl⟩
    have found := List.mem_zipIdx_iff_getElem?.mp member
    rw [List.getElem?_map] at found
    obtain ⟨service, here, rfl⟩ := Option.map_eq_some_iff.mp found
    exact ⟨index, service, here, rfl⟩
  · rintro ⟨index, service, here, rfl⟩
    refine ⟨(serveService service, index), List.mem_zipIdx_iff_getElem?.mpr ?_, rfl⟩
    rw [List.getElem?_map, here, Option.map_some]

/-- A local address is read back as its host and its port. -/
theorem localAddr_injective {host other : String} {port another : UInt16}
    (same : s!"{host}:{port}" = s!"{other}:{another}") : host = other ∧ port = another := by
  have split (host : String) (port : UInt16) : rsplitOnce ':' s!"{host}:{port}".toList =
      some (host.toList, port.toNat.repr.toList) := by
    have free : ':' ∉ port.toNat.repr.toList := fun member =>
      absurd ((isDecimal_repr port.toNat).all ':' member) (by decide)
    rw [show s!"{host}:{port}" = host ++ ":" ++ port.toNat.repr from rfl, String.toList_append,
      String.toList_append, List.append_assoc]
    exact rsplitOnce_append host.toList free
  have parts := congrArg (rsplitOnce ':' ·.toList) same
  simp only [split, Option.some.injEq, Prod.mk.injEq] at parts
  refine ⟨String.toList_injective parts.1, UInt16.toNat_inj.mp ?_⟩
  rw [← (isDecimal_repr port.toNat).reads, parts.2, (isDecimal_repr another.toNat).reads]

/-- The targets of a config route every service's ALPN to that service, and nothing else. -/
structure RoutesExactly (config : ServeConfig) (targets : Table Alpn ServiceTarget) : Prop where
  /-- A service is found under its own ALPN, with its own address, protocol and limits. -/
  own : ∀ (index : Nat) (service : ServeService), config.services[index]? = some service →
    demultiplex targets (alpnFor service.name) =
      .connected (targetOf service index) service.name
  /-- The address in a target is of one host and one port. -/
  address : ∀ (index : Nat) (service : ServeService) (host : String) (port : UInt16),
    config.services[index]? = some service →
      (targetOf service index).localAddr = s!"{host}:{port}" →
        host = service.host ∧ port = service.port
  /-- Two services never share an entry. -/
  apart : ∀ (index other : Nat) (service another : ServeService),
    config.services[index]? = some service →
    config.services[other]? = some another →
      targets.lookup (alpnFor service.name) = targets.lookup (alpnFor another.name) → index = other
  /-- Every insertion is under a key that the map does not have yet. -/
  fresh : ∀ (index : Nat) (service : ServeService), config.services[index]? = some service →
    (buildTargets ((serveSettings config).take index)).lookup (alpnFor service.name) = none
  size : targets.size = config.services.length
  /-- Nothing is found under another ALPN. -/
  unknown : ∀ alpn, (∀ service ∈ config.services, alpn ≠ alpnFor service.name) →
    demultiplex targets alpn = .dropped (loggedName alpn)
  /-- What is accepted is the ALPN of a service, and its name is the service's. -/
  named : ∀ alpn target name, demultiplex targets alpn = .connected target name →
    ∃ index service, config.services[index]? = some service ∧ alpn = alpnFor service.name ∧
      nameFromAlpn alpn = some service.name ∧ name = service.name ∧
      target = targetOf service index

/-- **Routing by ALPN.** Of a config that passes validation every service is reached under its own
ALPN, by its own target, and every other byte string is turned away. -/
theorem routing_exact (config : ServeConfig) (valid : config.validate = .ok ()) :
    RoutesExactly config (buildTargets (serveSettings config)) := by
  have distinct := nodup_keys valid
  have found : ∀ (index : Nat) (service : ServeService), config.services[index]? = some service →
      (buildTargets (serveSettings config)).lookup (alpnFor service.name) =
        some (targetOf service index) := fun index service here =>
    Table.lookup_insertAll_of_mem ∅ distinct (mem_insertions.mpr ⟨index, service, here, rfl⟩)
  have missing : ∀ alpn, (∀ service ∈ config.services, alpn ≠ alpnFor service.name) →
      (buildTargets (serveSettings config)).lookup alpn = none := by
    intro alpn other
    refine (Table.lookup_insertAll_of_notMem ∅ fun member => ?_).trans (AList.lookup_empty alpn)
    obtain ⟨entry, inserted, rfl⟩ := List.mem_map.mp member
    obtain ⟨index, service, here, rfl⟩ := mem_insertions.mp inserted
    exact other service (List.mem_of_getElem? here) rfl
  have connected : ∀ index service, config.services[index]? = some service →
      demultiplex (buildTargets (serveSettings config)) (alpnFor service.name) =
        .connected (targetOf service index) service.name := by
    intro index service here
    unfold demultiplex loggedName
    rw [found index service here, nameFromAlpn_alpnFor, Option.getD_some]
  refine ⟨connected, ?_, ?_, ?_, ?_, ?_, ?_⟩
  · intro index service host port _ same
    exact (localAddr_injective same).imp Eq.symm Eq.symm
  · intro index other service another here there shared
    rw [found index service here, found other another there, Option.some_inj] at shared
    exact congrArg ServiceTarget.counters shared
  · intro index service here
    refine (Table.lookup_insertAll_of_notMem ∅ fun member => ?_).trans (AList.lookup_empty _)
    rw [keys_insertions, List.map_take, List.mem_take_iff_getElem] at member
    obtain ⟨before, inRange, same⟩ := member
    rw [keys_insertions] at distinct
    have itsKey : ((serveSettings config).map fun service => alpnFor service.name)[index]? =
        some (alpnFor service.name) := by
      rw [List.getElem?_map, serveSettings, List.getElem?_map, here]
      rfl
    have inBounds := Nat.lt_of_lt_of_le inRange (Nat.min_le_right _ _)
    have sameKey := (List.getElem?_eq_getElem inBounds).trans
      ((congrArg some same).trans itsKey.symm)
    have notEarlier := (List.getElem?_inj inBounds distinct).mp sameKey
    omega
  · refine (Table.size_insertAll distinct fun alpn _ => AList.lookup_empty alpn).trans ?_
    show 0 + (insertions (serveSettings config)).length = _
    simp [insertions, serveSettings]
  · intro alpn other
    unfold demultiplex
    rw [missing alpn other]
  · intro alpn target name accepted
    by_cases known : ∃ service ∈ config.services, alpn = alpnFor service.name
    · obtain ⟨service, member, rfl⟩ := known
      obtain ⟨index, here⟩ := List.getElem?_of_mem member
      rw [connected index service here] at accepted
      cases accepted
      exact ⟨index, service, here, rfl, nameFromAlpn_alpnFor _, rfl, rfl⟩
    · push Not at known
      unfold demultiplex at accepted
      rw [missing alpn known] at accepted
      cases accepted

def webAndDns : ServeConfig where
  services := [{ name := "web", protocol := .tcp, port := 3000 },
    { name := "dns", protocol := .udp, host := "::1", port := 53, udp := { maxFlows := some 8 } }]

theorem routing_exact_web_dns : RoutesExactly webAndDns (buildTargets (serveSettings webAndDns)) :=
  routing_exact webAndDns (by rfl)

end IrohTunnel.Serve
