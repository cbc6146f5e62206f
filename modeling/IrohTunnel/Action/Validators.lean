/-
**The action's checks against the daemon's.**

A request's values make a config of one service. `validate_iff`: an accepted request's config passes
the daemon's own validation exactly when the input of the relay token has no U+0085, the one
character that `char::is_whitespace` counts as blank and `\s` does not.
-/

import Mathlib.Data.List.TakeWhile
import IrohTunnel.Action.Inputs
import IrohTunnel.Library.Lists
import IrohTunnel.Library.TextLines

namespace IrohTunnel.Action

open IrohTunnel.Config
open IrohTunnel.Endpoint (Protocol)
open IrohTunnel.Library.Lists
open IrohTunnel.Library.Text

variable {raw : RawInputs} {shared : Shared}

/-! ### What the action accepts -/

theorem check_ok {passes : Bool} {input message : String} {result : Unit} :
    check passes input message = .ok result ↔ passes = true := check_eq_ok

/-- The token of a text, trimmed; none where nothing is left. -/
def tokenOf (text : String) : Option String :=
  if trimSpace text = "" then none else some (trimSpace text)

/-- What the action has checked of the values both roles share. -/
structure Checked (raw : RawInputs) (shared : Shared) : Prop where
  https : ∀ url ∈ shared.relayUrls, "https://".isPrefixOf url = true
  token : shared.relayToken = tokenOf (raw "relay-token")
  noSpace : ∀ char ∈ (trimSpace (raw "relay-token")).toList, isSpace char = false

theorem checked_of_parseOptional (parsed : parseOptional raw = .ok shared) :
    Checked raw shared := by
  unfold parseOptional at parsed
  obtain ⟨protocol, _, parsed⟩ := bind_eq_ok.mp parsed
  obtain ⟨_, https, parsed⟩ := bind_eq_ok.mp parsed
  obtain ⟨_, noSpace, parsed⟩ := bind_eq_ok.mp parsed
  obtain ⟨version, _, parsed⟩ := bind_eq_ok.mp parsed
  cases parsed
  have free := Bool.not_eq_true' _ |>.mp (check_ok.mp noSpace)
  exact ⟨fun url member => check_ok.mp (forM_eq_ok.mp https url member), rfl, eq_false_of_any free⟩

theorem parseAccess_ok {request : AccessRequest} (parsed : parseAccess raw = .ok request) :
    isName request.name = true ∧ isNodeId request.nodeId = true ∧
      parseOptional raw = .ok request.toShared := by
  unfold parseAccess at parsed
  obtain ⟨name, _, parsed⟩ := bind_eq_ok.mp parsed
  obtain ⟨_, isName, parsed⟩ := bind_eq_ok.mp parsed
  obtain ⟨nodeId, _, parsed⟩ := bind_eq_ok.mp parsed
  obtain ⟨_, isNodeId, parsed⟩ := bind_eq_ok.mp parsed
  obtain ⟨value, _, parsed⟩ := bind_eq_ok.mp parsed
  obtain ⟨listen, _, parsed⟩ := bind_eq_ok.mp parsed
  obtain ⟨shared, optional, parsed⟩ := bind_eq_ok.mp parsed
  cases parsed
  exact ⟨check_ok.mp isName, check_ok.mp isNodeId, optional⟩

theorem parseServe_ok {request : ServeRequest} (parsed : parseServe raw = .ok request) :
    isName request.name = true ∧ parseOptional raw = .ok request.toShared := by
  unfold parseServe at parsed
  obtain ⟨name, _, parsed⟩ := bind_eq_ok.mp parsed
  obtain ⟨_, isName, parsed⟩ := bind_eq_ok.mp parsed
  obtain ⟨value, _, parsed⟩ := bind_eq_ok.mp parsed
  obtain ⟨target, _, parsed⟩ := bind_eq_ok.mp parsed
  obtain ⟨shared, optional, parsed⟩ := bind_eq_ok.mp parsed
  cases parsed
  exact ⟨check_ok.mp isName, optional⟩

/-! ### Blanks -/

/-- The two notions of a blank differ in one character each way. -/
theorem isWhitespace_iff {char : Char} (noSpace : isSpace char = false) :
    isWhitespace char = true ↔ char = '\u0085' := by
  have code : char = '\u0085' ↔ char.toNat = 0x85 := by
    rw [← Char.toNat_inj]
    rfl
  rw [code]
  simp only [isSpace, Bool.or_eq_false_iff, Bool.and_eq_false_iff, decide_eq_false_iff_not,
    beq_eq_false_iff_ne] at noSpace
  simp only [isWhitespace, Bool.or_eq_true, Bool.and_eq_true, decide_eq_true_eq, beq_iff_eq]
  omega

/-- Trimming takes blanks off and nothing else. -/
theorem mem_trimSpace {text : String} {char : Char} (noSpace : isSpace char = false) :
    char ∈ (trimSpace text).toList ↔ char ∈ text.toList := by
  have kept : ∀ items : List Char, char ∈ items.dropWhile isSpace ↔ char ∈ items := by
    intro items
    constructor
    · exact fun member => (List.dropWhile_sublist isSpace).subset member
    · intro member
      have whole : items.takeWhile isSpace ++ items.dropWhile isSpace = items :=
        List.takeWhile_append_dropWhile
      rw [← whole] at member
      rcases List.mem_append.mp member with taken | left
      · rw [List.mem_takeWhile_imp taken] at noSpace
        cases noSpace
      · exact left
  unfold trimSpace trim trimStart
  rw [String.toList_ofList, List.mem_reverse, kept, List.mem_reverse, kept]

/-- An accepted token has a character that the daemon counts as blank exactly when the input has
U+0085. -/
theorem any_isWhitespace_iff (checked : Checked raw shared) :
    (trimSpace (raw "relay-token")).toList.any isWhitespace = true ↔
      '\u0085' ∈ (raw "relay-token").toList := by
  rw [← mem_trimSpace (by decide), List.any_eq_true]
  constructor
  · rintro ⟨char, member, blank⟩
    rw [← (isWhitespace_iff (checked.noSpace char member)).mp blank]
    exact member
  · intro member
    exact ⟨_, member, by decide⟩

/-! ### What the daemon accepts -/

theorem ensure_ok {passes : Bool} {text : String} {result : Unit} :
    ensure passes text = .ok result ↔ passes = true := check_eq_ok

theorem utf8Size_of_le {char last : Char} (below : char ≤ last) (ascii : last.toNat < 0x7F) :
    char.utf8Size = 1 :=
  utf8Size_of_visible (Nat.lt_of_le_of_lt (UInt32.le_iff_toNat_le.mp below) ascii)

theorem utf8Size_of_isNameChar {char : Char} (inClass : isNameChar char = true) :
    char.utf8Size = 1 := by
  simp only [isNameChar, Bool.or_eq_true, Bool.and_eq_true, decide_eq_true_eq,
    beq_iff_eq] at inClass
  rcases inClass with (⟨_, below⟩ | ⟨_, below⟩) | rfl
  · exact utf8Size_of_le below (by decide)
  · exact utf8Size_of_le below (by decide)
  · rfl

theorem utf8Size_of_isAlphanum {char : Char} (alphanum : char.isAlphanum = true) :
    char.utf8Size = 1 :=
  utf8Size_of_visible (visible_of_isAlphanum alphanum).2

theorem utf8Size_of_isHexDigit {char : Char} (inClass : isHexDigit char = true) :
    char.utf8Size = 1 := by
  simp only [isHexDigit, Bool.or_eq_true, Bool.and_eq_true, decide_eq_true_eq] at inClass
  rcases inClass with (digit | ⟨_, below⟩) | ⟨_, below⟩
  · exact utf8Size_of_isAlphanum (by rw [Char.isAlphanum, digit, Bool.or_true])
  · exact utf8Size_of_le below (by decide)
  · exact utf8Size_of_le below (by decide)

theorem utf8Size_of_isBase32Char {char : Char} (inClass : isBase32Char char = true) :
    char.utf8Size = 1 := by
  simp only [isBase32Char, Bool.or_eq_true, Bool.and_eq_true, decide_eq_true_eq] at inClass
  rcases inClass with letter | ⟨_, below⟩
  · exact utf8Size_of_isAlphanum (by rw [Char.isAlphanum, letter, Bool.true_or])
  · exact utf8Size_of_le below (by decide)

/-- Characters of one byte each are as many as the bytes. -/
theorem utf8ByteSize_of_all {text : String} {inClass : Char → Bool}
    (one : ∀ {char}, inClass char = true → char.utf8Size = 1)
    (all : text.toList.all inClass = true) : text.utf8ByteSize = text.toList.length := by
  have ascii := utf8ByteSize_of_ascii fun char member => one (List.all_eq_true.mp all char member)
  rw [← ascii, String.ofList_toList]

theorem validateName_of_isName {name : String} (accepted : isName name = true) :
    validateName name = .ok () := by
  unfold isName at accepted
  rw [Bool.and_eq_true, Bool.and_eq_true, decide_eq_true_eq, decide_eq_true_eq] at accepted
  obtain ⟨⟨nonempty, short⟩, chars⟩ := accepted
  unfold validateName
  refine bind_eq_ok.mpr ⟨(), ensure_ok.mpr ?_, ensure_ok.mpr ?_⟩
  · rw [chars, Bool.and_true, Bool.not_eq_true', List.isEmpty_eq_false_iff]
    exact List.ne_nil_of_length_pos nonempty
  · rw [utf8ByteSize_of_all utf8Size_of_isNameChar chars]
    exact decide_eq_true short

/-- A node id the action accepts has one of the two lengths in bytes. -/
theorem nodeIdLens_of_isNodeId {nodeId : String} (accepted : isNodeId nodeId = true) :
    nodeIdLens.contains nodeId.utf8ByteSize = true := by
  unfold isNodeId at accepted
  rw [Bool.or_eq_true, Bool.and_eq_true, Bool.and_eq_true, beq_iff_eq, beq_iff_eq] at accepted
  rcases accepted with ⟨length, hex⟩ | ⟨length, base32⟩
  · rw [utf8ByteSize_of_all utf8Size_of_isHexDigit hex, length]
    rfl
  · rw [utf8ByteSize_of_all utf8Size_of_isBase32Char base32, length]
    rfl

theorem validatePort_of_inRange {port : Nat} (inRange : 1 ≤ port ∧ port ≤ 65535) :
    validatePort (UInt16.ofNat port) = .ok () := by
  refine ensure_ok.mpr (bne_iff_ne.mpr fun zero => ?_)
  have value := congrArg UInt16.toNat zero
  rw [UInt16.toNat_ofNat_of_lt' (Nat.lt_of_le_of_lt inRange.2 (by decide))] at value
  exact Nat.ne_of_gt inRange.1 value

/-- Settings that are not given pass on either protocol. -/
theorem validate_udp_unset (service : String) (protocol : Protocol) (perPeerAllowed : Bool) :
    UdpSettings.validate {} service protocol perPeerAllowed = .ok () := by
  cases protocol with
  | tcp => rfl
  | udp => cases perPeerAllowed <;> rfl

theorem validateRelayUrls_of_https {on : String} {urls : List String}
    (https : ∀ url ∈ urls, "https://".isPrefixOf url = true) :
    validateRelayUrls on urls = .ok () :=
  forM_eq_ok.mpr fun url member => ensure_ok.mpr (https url member)

/-! ### Agreement -/

/-- The values of both roles in the node table. -/
def Shared.node (shared : Shared) : NodeConfig :=
  { relayUrls := shared.relayUrls, relayToken := shared.relayToken }

/-- The config whose values are those of a request. -/
def AccessRequest.config (request : AccessRequest) : AccessConfig :=
  { node := request.node
    services := [{
      name := request.name
      nodeId := request.nodeId
      protocol := request.protocol
      host := request.listen.host
      port := .ofNat request.listen.port }] }

def ServeRequest.config (request : ServeRequest) : ServeConfig :=
  { node := request.node
    services := [{
      name := request.name
      protocol := request.protocol
      host := request.target.host
      port := .ofNat request.target.port }] }

/-- The node table passes when the token has no character that the daemon counts as blank. -/
theorem validate_node_iff (checked : Checked raw shared) :
    shared.node.validate = .ok () ↔ '\u0085' ∉ (raw "relay-token").toList := by
  rw [← any_isWhitespace_iff checked]
  unfold NodeConfig.validate Shared.node
  rw [checked.token]
  unfold tokenOf
  split
  · rename_i empty
    exact iff_of_true rfl (by rw [empty]; exact Bool.false_ne_true)
  · rename_i present
    have nonempty : (trimSpace (raw "relay-token")).toList ≠ [] :=
      mt (fun none => String.toList_inj.mp (none.trans rfl)) present
    rw [bind_eq_ok]
    constructor
    · rintro ⟨_, _, passes⟩
      obtain ⟨_, _, free⟩ := bind_eq_ok.mp passes
      rw [Bool.not_eq_true, ← Bool.not_eq_true']
      exact ensure_ok.mp free
    · intro free
      refine ⟨(), rfl, bind_eq_ok.mpr ⟨(), ensure_ok.mpr ?_, ensure_ok.mpr ?_⟩⟩
      · rw [Bool.not_eq_true', ← Bool.not_eq_true]
        intro all
        obtain ⟨char, rest, is⟩ := List.exists_cons_of_ne_nil nonempty
        have first : char ∈ (trimSpace (raw "relay-token")).toList := is ▸ List.mem_cons_self
        exact free (List.any_eq_true.mpr ⟨char, first, List.all_eq_true.mp all char first⟩)
      · rw [Bool.not_eq_true', ← Bool.not_eq_true]
        exact free

/-- The one service passes on its own. -/
theorem validateServices_singleton {Service : Type} {name : Service → String}
    {validate : Service → Except String Unit} {service : Service}
    (named : validateName (name service) = .ok ()) (passes : validate service = .ok ()) :
    validateServices name validate [] [service] = .ok () := by
  refine bind_eq_ok.mpr ⟨(), named, bind_eq_ok.mpr ⟨(), ensure_ok.mpr rfl, ?_⟩⟩
  exact bind_eq_ok.mpr ⟨(), passes, rfl⟩

theorem validate_access_iff {request : AccessRequest} (parsed : parseAccess raw = .ok request) :
    request.config.validate = .ok () ↔ '\u0085' ∉ (raw "relay-token").toList := by
  obtain ⟨named, identified, optional⟩ := parseAccess_ok parsed
  have checked := checked_of_parseOptional optional
  have service : validateServices AccessService.name AccessService.validate []
      request.config.services = .ok () := by
    refine validateServices_singleton (validateName_of_isName named) ?_
    refine bind_eq_ok.mpr ⟨(), ensure_ok.mpr (nodeIdLens_of_isNodeId identified), ?_⟩
    refine bind_eq_ok.mpr ⟨(), validatePort_of_inRange request.listen.inRange, ?_⟩
    exact bind_eq_ok.mpr ⟨(), validate_udp_unset _ _ _, rfl⟩
  rw [← validate_node_iff checked]
  constructor
  · intro passes
    obtain ⟨_, _, passes⟩ := bind_eq_ok.mp passes
    obtain ⟨_, node, _⟩ := bind_eq_ok.mp passes
    exact node
  · intro node
    refine bind_eq_ok.mpr ⟨(), validateRelayUrls_of_https checked.https, ?_⟩
    exact bind_eq_ok.mpr ⟨(), node, service⟩

theorem validate_serve_iff {request : ServeRequest} (parsed : parseServe raw = .ok request) :
    request.config.validate = .ok () ↔ '\u0085' ∉ (raw "relay-token").toList := by
  obtain ⟨named, optional⟩ := parseServe_ok parsed
  have checked := checked_of_parseOptional optional
  have service : validateServices ServeService.name ServeService.validate []
      request.config.services = .ok () := by
    refine validateServices_singleton (validateName_of_isName named) ?_
    refine bind_eq_ok.mpr ⟨(), validatePort_of_inRange request.target.inRange, ?_⟩
    exact validate_udp_unset _ _ _
  rw [← validate_node_iff checked]
  constructor
  · intro passes
    obtain ⟨_, _, passes⟩ := bind_eq_ok.mp passes
    obtain ⟨_, _, node⟩ := bind_eq_ok.mp passes
    exact node
  · intro node
    refine bind_eq_ok.mpr ⟨(), service, ?_⟩
    exact bind_eq_ok.mpr ⟨(), validateRelayUrls_of_https checked.https, node⟩

/-- **The daemon accepts what the action accepted, unless the token has a U+0085.** -/
theorem validators_agree_iff (raw : RawInputs) :
    (∀ request, parseAccess raw = .ok request →
      (request.config.validate = .ok () ↔ '\u0085' ∉ (raw "relay-token").toList)) ∧
    (∀ request, parseServe raw = .ok request →
      (request.config.validate = .ok () ↔ '\u0085' ∉ (raw "relay-token").toList)) :=
  ⟨fun _ => validate_access_iff, fun _ => validate_serve_iff⟩

/-- The inputs of a serve step with a given token. -/
def serveInputs (token : String) : RawInputs := fun input =>
  if input = "name" then "web"
  else if input = "target" then "localhost:80"
  else if input = "relay-token" then token
  else ""

def webRequest (token : String) : ServeRequest :=
  { protocol := .tcp
    relayUrls := []
    relayToken := some token
    version := .default
    name := "web"
    target := { host := "localhost", port := 80, family := .name, inRange := by decide } }

theorem validators_agree_iff_web :
    parseServe (serveInputs "a\u0085b") = .ok (webRequest "a\u0085b") ∧
      ((webRequest "a\u0085b").config.validate = .ok () ↔
        '\u0085' ∉ (serveInputs "a\u0085b" "relay-token").toList) :=
  ⟨by rfl, (validators_agree_iff _).2 _ (by rfl)⟩

/-- The daemon refuses a token that the action accepted. -/
theorem nel_refused :
    ¬ ∀ (raw : RawInputs) (request : ServeRequest), parseServe raw = .ok request →
      request.config.validate = .ok () := by
  intro agree
  have passes := agree (serveInputs "a\u0085b") (webRequest "a\u0085b") (by rfl)
  have refused : (webRequest "a\u0085b").config.validate =
      .error "invalid relay_token: must not contain whitespace" := by rfl
  rw [refused] at passes
  cases passes

end IrohTunnel.Action
