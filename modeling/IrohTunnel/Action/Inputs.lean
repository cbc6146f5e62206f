/-
**The action's inputs and the requests they are read as.**

A text is well-formed Unicode. The classes of a regular expression are those of one without the
flag `u`: `\d` and the letters are ASCII, with the flag `i` as well.
-/

import IrohTunnel.Config.Dto
import IrohTunnel.Library.Addresses

namespace IrohTunnel.Action

open IrohTunnel.Config (isNameChar)
open IrohTunnel.Endpoint (Protocol)
open IrohTunnel.Library.Text

/-! ### Texts -/

/-- `\s` of a regular expression, and what `trim` takes off. -/
def isSpace (char : Char) : Bool :=
  let code := char.toNat
  (9 ≤ code && code ≤ 13) || code == 0x20 || code == 0xA0 || code == 0x1680 ||
    (0x2000 ≤ code && code ≤ 0x200A) || code == 0x2028 || code == 0x2029 || code == 0x202F ||
    code == 0x205F || code == 0x3000 || code == 0xFEFF

/-- What `.` of a regular expression does not match. -/
def isLineTerminator (char : Char) : Bool :=
  char == '\n' || char == '\r' || char.toNat == 0x2028 || char.toNat == 0x2029

/-- `String.prototype.trim`. -/
def trimSpace (text : String) : String := String.ofList (trim isSpace text.toList)

/-- The pieces of a text between line ends, from the middle of one; the last has no end. -/
def splitLinesFrom : List Char → List Char → List (List Char)
  | reversed, [] => [reversed.reverse]
  | reversed, '\n' :: rest => finishLine reversed :: splitLinesFrom [] rest
  | reversed, char :: rest => splitLinesFrom (char :: reversed) rest

/-- `split(/\r?\n/)`. -/
def splitLines (text : String) : List String :=
  (splitLinesFrom [] text.toList).map String.ofList

/-! ### Addresses: `domain/hostport.ts` -/

inductive Family
  | ipv4 | ipv6 | name
  deriving DecidableEq, Repr

structure HostPort where
  host : String
  port : Nat
  family : Family
  inRange : 1 ≤ port ∧ port ≤ 65535
  deriving DecidableEq

/-- A port of one to five digits between 1 and 65535. -/
def parsePort (p : List Char) : Except String { port : Nat // 1 ≤ port ∧ port ≤ 65535 } :=
  let invalid := s!"invalid port \"{String.ofList p}\"; expected 1-65535"
  if p ≠ [] ∧ p.length ≤ 5 ∧ p.all Char.isDigit then
    if inRange : 1 ≤ digitsValue p ∧ digitsValue p ≤ 65535 then .ok ⟨digitsValue p, inRange⟩
    else .error invalid
  else .error invalid

/-- The four groups of `IPV4`. -/
def ipv4Groups (host : List Char) : Option (List (List Char)) :=
  let groups := host.splitOn '.'
  if groups.length = 4 ∧
      groups.all fun group => !group.isEmpty && group.length ≤ 3 && group.all Char.isDigit then
    some groups
  else none

/-- `IPV6`, for a nonempty text. -/
def isIpv6Text (host : List Char) : Bool :=
  host.all fun char => isHexDigit char || char == ':' || char == '.'

/-- `NAME`: letters, digits, dots and dashes between two letters or digits. -/
def isHostName (host : List Char) : Bool :=
  host.head?.any Char.isAlphanum && host.getLast?.any Char.isAlphanum &&
    host.all fun char => char.isAlphanum || char == '.' || char == '-'

/-- The host in brackets and the text after the colon. -/
def bracketed (s : List Char) : Option (List Char × List Char) :=
  match splitOnce [']', ':'] s with
  | some ('[' :: host, port) =>
      if ']' ∈ host ∨ port.any isLineTerminator then none else some (host, port)
  | _ => none

def parseHostPort (s : String) (allowName : Bool) : Except String HostPort :=
  let fmt := if allowName then "HOST:PORT or [IPV6]:PORT" else "IPV4:PORT or [IPV6]:PORT"
  let text := s.toList
  if text.head? = some '[' then
    match bracketed text with
    | some (host, port) =>
        if host = [] ∨ !isIpv6Text host ∨ ':' ∉ host then
          .error s!"invalid address; expected {fmt}"
        else do
          let port ← parsePort port
          .ok { host := String.ofList host, port, family := .ipv6, inRange := port.property }
    | none => .error s!"invalid address; expected {fmt}"
  else
    match rsplitOnce ':' text with
    | none | some ([], _) => .error s!"invalid address; expected {fmt}"
    | some (host, port) =>
        if ':' ∈ host then .error "IPv6 addresses must be bracketed, e.g. [::1]:5432"
        else do
          let port ← parsePort port
          match ipv4Groups host with
          | some groups =>
              if groups.any fun group => 255 < digitsValue group then
                .error "invalid IPv4 address"
              else
                .ok { host := String.ofList host, port, family := .ipv4, inRange := port.property }
          | none =>
              if !allowName then .error s!"host names are not allowed; expected {fmt}"
              else if !isHostName host then .error "invalid host name"
              else
                .ok { host := String.ofList host, port, family := .name, inRange := port.property }

/-! ### Versions: `domain/version.ts` -/

inductive VersionSpec
  | default
  | latest
  | exact (version : String)
  deriving DecidableEq, Repr

/-- `SEMVER`: three numbers, and a suffix of letters, digits, dots and dashes after a dash. -/
def isSemver (v : List Char) : Bool :=
  let isCore (core : List Char) : Bool :=
    let numbers := core.splitOn '.'
    numbers.length == 3 && numbers.all fun number => !number.isEmpty && number.all Char.isDigit
  match splitOnce ['-'] v with
  | none => isCore v
  | some (core, pre) =>
      isCore core && !pre.isEmpty &&
        pre.all fun char => char.isAlphanum || char == '.' || char == '-'

def parseVersion (s : String) : Except String VersionSpec :=
  if s = "" then .ok .default
  else if s = "latest" then .ok .latest
  else
    let v := (stripPrefix ['v'] s.toList).getD s.toList
    if isSemver v then .ok (.exact (String.ofList v))
    else .error s!"invalid version \"{s}\"; expected latest or X.Y.Z[-pre]"

/-! ### Requests: `domain/inputs.ts` -/

/-- The input an error is about, and its text. -/
structure InputError where
  input : String
  message : String
  deriving DecidableEq, Repr

/-- The value of every input, empty where none is given. -/
abbrev RawInputs := String → String

/-- What both roles read. -/
structure Shared where
  protocol : Protocol
  relayUrls : List String
  relayToken : Option String
  version : VersionSpec
  deriving DecidableEq, Repr

structure AccessRequest extends Shared where
  name : String
  nodeId : String
  listen : HostPort
  deriving DecidableEq

structure ServeRequest extends Shared where
  name : String
  target : HostPort
  deriving DecidableEq

inductive TunnelRequest
  | access (request : AccessRequest)
  | serve (request : ServeRequest)
  deriving DecidableEq

/-- `NAME_RE`. -/
def isName (name : String) : Bool :=
  1 ≤ name.toList.length && name.toList.length ≤ 63 && name.toList.all isNameChar

/-- `[a-z2-7]`, in either case. -/
def isBase32Char (char : Char) : Bool :=
  char.isAlpha || ('2' ≤ char && char ≤ '7')

/-- `NODE_ID_RE`. -/
def isNodeId (nodeId : String) : Bool :=
  (nodeId.toList.length == 64 && nodeId.toList.all isHexDigit) ||
    (nodeId.toList.length == 52 && nodeId.toList.all isBase32Char)

/-- An error about an input unless the check passes. -/
def check (passes : Bool) (input message : String) : Except InputError Unit :=
  if passes then .ok () else .error { input, message }

def required (raw : RawInputs) (input : String) : Except InputError String := do
  check (raw input != "") input s!"Input \"{input}\" is required."
  return raw input

def addr (input value : String) (allowName : Bool) : Except InputError HostPort :=
  (parseHostPort value allowName).mapError fun message =>
    { input, message := s!"Input \"{input}\" is invalid: {message}" }

/-- The protocol of an input text, TCP where none is given. -/
def parseProtocol (value : String) : Except InputError Protocol :=
  let proto := if value = "" then "tcp" else value
  if proto = "tcp" then .ok .tcp
  else if proto = "udp" then .ok .udp
  else
    .error { input := "protocol", message := "Input \"protocol\" is invalid: expected tcp or udp." }

/-- The lines of the input that are not blank. -/
def relayLines (value : String) : List String :=
  ((splitLines value).map trimSpace).filter (· != "")

def parseOptional (raw : RawInputs) : Except InputError Shared := do
  let protocol ← parseProtocol (raw "protocol")
  let relayUrls := relayLines (raw "relay-url")
  relayUrls.forM fun u =>
    check ("https://".isPrefixOf u) "relay-url"
      s!"Input \"relay-url\" is invalid: \"{u}\" must start with https://."
  let token := trimSpace (raw "relay-token")
  check (!token.toList.any isSpace) "relay-token"
    "Input \"relay-token\" is invalid: must not contain whitespace."
  let version ← (parseVersion (raw "version")).mapError fun message =>
    { input := "version", message := s!"Input \"version\" is invalid: {message}" }
  return { protocol, relayUrls, relayToken := if token = "" then none else some token, version }

def parseAccess (raw : RawInputs) : Except InputError AccessRequest := do
  let name ← required raw "name"
  check (isName name) "name" "Input \"name\" is invalid: use 1-63 characters from a-z, 0-9, -."
  let nodeId ← required raw "node-id"
  check (isNodeId nodeId) "node-id"
    "Input \"node-id\" is invalid: expected 64 hex or 52 base32 characters."
  let listen ← addr "listen" (← required raw "listen") false
  let shared ← parseOptional raw
  return { shared with name, nodeId, listen }

def parseServe (raw : RawInputs) : Except InputError ServeRequest := do
  let name ← required raw "name"
  check (isName name) "name" "Input \"name\" is invalid: use 1-63 characters from a-z, 0-9, -."
  let target ← addr "target" (← required raw "target") true
  let shared ← parseOptional raw
  return { shared with name, target }

end IrohTunnel.Action
