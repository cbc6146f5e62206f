/-
**Relay lists: what an endpoint is bound with, and what a dialed peer's address carries.**

`relayModeFromUrls` decides how this endpoint uses relays for itself; `resolveRelayUrls` decides
which relays are attached to a dialed peer. An error is the chain of its contexts, outermost first,
ended by the parser's text.

* `mem_relayMap_of_urls` — a custom relay map holds exactly the parsed URLs;
* `relayUrls_buildDialAddr` — a dial address carries exactly the URLs it is built from.
-/

import IrohTunnel.Endpoint.Types
import IrohTunnel.Library.Lists

namespace IrohTunnel.Endpoint

open IrohTunnel.Library

/-- The contexts of an `anyhow` error, outermost first. -/
abbrev Error := List String

/-- An error of `iroh` as an `anyhow` error. -/
def fromText {α : Type} (result : Except String α) : Except Error α :=
  result.mapError fun text => [text]

/-- `with_context`. -/
def withContext {α : Type} (context : String) (result : Except Error α) : Except Error α :=
  result.mapError fun contexts => context :: contexts

@[simp] theorem fromText_eq_ok {α : Type} {result : Except String α} {value : α} :
    fromText result = .ok value ↔ result = .ok value := by
  cases result <;> simp [fromText, Except.mapError]

@[simp] theorem withContext_eq_ok {α : Type} {context : String} {result : Except Error α}
    {value : α} : withContext context result = .ok value ↔ result = .ok value := by
  cases result <;> simp [withContext, Except.mapError]

variable {RelayUrl : Type} [DecidableEq RelayUrl]

/-- Parse one URL, naming it in the error. -/
def parseRelayUrl (iroh : Iroh RelayUrl) (url : String) : Except Error RelayUrl :=
  withContext s!"invalid relay_url: {url}" (fromText (iroh.parseRelayUrl url))

def parseRelayUrls (iroh : Iroh RelayUrl) (urls : List String) : Except Error (List RelayUrl) :=
  urls.mapM (parseRelayUrl iroh)

/-- `n0_default_relay_urls`. -/
def n0DefaultRelayUrls (iroh : Iroh RelayUrl) : List RelayUrl := iroh.defaultRelayMap.urls

/-- Translate the configured relay URLs into a relay mode. -/
def relayModeFromUrls (iroh : Iroh RelayUrl) (relayUrls : List String)
    (relayToken : Option String) : Except Error (RelayMode RelayUrl) :=
  if relayUrls.isEmpty then .ok .default
  else do
    let urls ← parseRelayUrls iroh relayUrls
    let map := RelayMap.fromIter urls
    match relayToken with
    | some token => return .custom (map.withAuthToken token)
    | none => return .custom map

/-- Resolve the relay URLs to dial peers through. -/
def resolveRelayUrls (iroh : Iroh RelayUrl) (configUrls : List String) :
    Except Error (List RelayUrl) :=
  if configUrls.isEmpty then .ok (n0DefaultRelayUrls iroh) else parseRelayUrls iroh configUrls

/-- The address to dial `nodeId` through `relayUrls`. -/
def buildDialAddr (nodeId : EndpointId) (relayUrls : List RelayUrl) : EndpointAddr RelayUrl :=
  relayUrls.foldl EndpointAddr.withRelayUrl { id := nodeId }

/-! ### Membership -/

section Membership

variable {iroh : Iroh RelayUrl}

omit [DecidableEq RelayUrl] in
/-- The parsed list holds the parse of each text and nothing else. -/
theorem mem_parseRelayUrls {texts : List String} {urls : List RelayUrl}
    (parsed : parseRelayUrls iroh texts = .ok urls) (url : RelayUrl) :
    url ∈ urls ↔ ∃ text ∈ texts, iroh.parseRelayUrl text = .ok url := by
  rw [Lists.mem_of_mapM_ok parsed]
  simp only [parseRelayUrl, withContext_eq_ok, fromText_eq_ok]

/-- A nonempty list gives a custom map of exactly the parsed URLs. -/
theorem mem_relayMap_of_urls {texts : List String} {token : Option String}
    {mode : RelayMode RelayUrl} (nonempty : texts ≠ [])
    (made : relayModeFromUrls iroh texts token = .ok mode) (url : RelayUrl) :
    url ∈ (mode.relayMap iroh).urls ↔ ∃ text ∈ texts, iroh.parseRelayUrl text = .ok url := by
  unfold relayModeFromUrls at made
  rw [if_neg (mt List.isEmpty_iff.mp nonempty)] at made
  cases parsed : parseRelayUrls iroh texts with
  | error error =>
    rw [parsed] at made
    cases made
  | ok urls =>
    rw [parsed] at made
    have exactly : url ∈ urls.dedup ↔ ∃ text ∈ texts, iroh.parseRelayUrl text = .ok url :=
      List.mem_dedup.trans (mem_parseRelayUrls parsed url)
    cases token with
    | none =>
      cases made
      exact exactly
    | some token =>
      cases made
      exact exactly

/-- No URL gives the default relays. -/
theorem relayMap_of_no_urls {token : Option String} {mode : RelayMode RelayUrl}
    (made : relayModeFromUrls iroh [] token = .ok mode) :
    (mode.relayMap iroh).urls = n0DefaultRelayUrls iroh := by
  cases made
  rfl

omit [DecidableEq RelayUrl] in
theorem mem_resolveRelayUrls {texts : List String} {urls : List RelayUrl} (nonempty : texts ≠ [])
    (resolved : resolveRelayUrls iroh texts = .ok urls) (url : RelayUrl) :
    url ∈ urls ↔ ∃ text ∈ texts, iroh.parseRelayUrl text = .ok url := by
  unfold resolveRelayUrls at resolved
  rw [if_neg (mt List.isEmpty_iff.mp nonempty)] at resolved
  exact mem_parseRelayUrls resolved url

theorem relayUrls_buildDialAddr (nodeId : EndpointId) (relayUrls : List RelayUrl)
    (url : RelayUrl) : url ∈ (buildDialAddr nodeId relayUrls).relayUrls ↔ url ∈ relayUrls := by
  have attached := Lists.foldl_holds_iff EndpointAddr.withRelayUrl
    (fun addr => url ∈ addr.relayUrls)
    (fun other => url = other) (fun _ _ => List.mem_insert_iff.trans or_comm) relayUrls
    { id := nodeId }
  rw [buildDialAddr, attached]
  simp

end Membership

end IrohTunnel.Endpoint
