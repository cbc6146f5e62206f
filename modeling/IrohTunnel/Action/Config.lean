/-
**The config file the action writes, read back as TOML.**

`renderConfig` writes a node table where there is something to say and one service.
`render_round_trip`: the grammar of TOML gives exactly one document for it, the one of the request's
own values, whatever the texts in the request hold.
-/

import IrohTunnel.Action.Inputs
import IrohTunnel.Library.TomlReading

namespace IrohTunnel.Action

open IrohTunnel.Endpoint (Protocol)
open IrohTunnel.Library.Text
open IrohTunnel.Library.Toml

/-! ### Rendering: `domain/config.ts` -/

/-- `toString(16).padStart(4, '0')`. -/
def hex4 (code : Nat) : List Char :=
  let digits := Nat.toDigits 16 code
  .replicate (4 - digits.length) '0' ++ digits

/-- What `str` writes for one character. -/
def escapeChar (ch : Char) : List Char :=
  let c := ch.toNat
  if ch = '"' then ['\\', '"']
  else if ch = '\\' then ['\\', '\\']
  else if ch = '\n' then ['\\', 'n']
  else if ch = '\r' then ['\\', 'r']
  else if ch = '\t' then ['\\', 't']
  else if c < 0x20 ∨ c = 0x7F then '\\' :: 'u' :: hex4 c
  else [ch]

def str (v : String) : String := "\"" ++ String.ofList (v.toList.flatMap escapeChar) ++ "\""

/-- `Array.prototype.join`. -/
def join (sep : String) : List String → String
  | [] => ""
  | first :: rest => first ++ String.join (rest.map (sep ++ ·))

def TunnelRequest.shared : TunnelRequest → Shared
  | .access request => request.toShared
  | .serve request => request.toShared

def TunnelRequest.name : TunnelRequest → String
  | .access request => request.name
  | .serve request => request.name

/-- Where an access service listens, or what a serve service reaches. -/
def TunnelRequest.hostPort : TunnelRequest → HostPort
  | .access request => request.listen
  | .serve request => request.target

def nodeIdOf : TunnelRequest → Option String
  | .access request => some request.nodeId
  | .serve _ => none

def relayUrlsLine (relayUrls : List String) : List String :=
  if 0 < relayUrls.length then ["relay_urls = [" ++ join ", " (relayUrls.map str) ++ "]"] else []

def relayTokenLine (relayToken : Option String) : List String :=
  relayToken.toList.map fun token => "relay_token = " ++ str token

def renderConfig (req : TunnelRequest) : String :=
  let node := relayUrlsLine req.shared.relayUrls ++ relayTokenLine req.shared.relayToken
  let hp := req.hostPort
  (if 0 < node.length then "[node]\n" ++ join "\n" node ++ "\n\n" else "") ++
    "[[services]]\nname = " ++ str req.name ++ "\n" ++
    (match nodeIdOf req with
      | some nodeId => "node_id = " ++ str nodeId ++ "\n"
      | none => "") ++
    "protocol = " ++ str req.shared.protocol.asStr ++ "\nhost = " ++ str hp.host ++
    "\nport = " ++ hp.port.repr ++ "\n"

/-! ### The document of a request -/

def nodeEntries (shared : Shared) : Entries :=
  (if shared.relayUrls = [] then []
    else [("relay_urls", .array (shared.relayUrls.map .string))]) ++
    shared.relayToken.toList.map fun token => ("relay_token", .string token)

def serviceEntries (req : TunnelRequest) : Entries :=
  ("name", .string req.name) ::
    (nodeIdOf req).toList.map (fun nodeId => ("node_id", .string nodeId)) ++
    [("protocol", .string req.shared.protocol.asStr), ("host", .string req.hostPort.host),
      ("port", .integer req.hostPort.port)]

/-- The values of a request: a node table if it has any entry, and one service. -/
def document (req : TunnelRequest) : Entries :=
  (if nodeEntries req.shared = [] then []
    else [("node", .table .header (nodeEntries req.shared))]) ++
    [("services", .tables [serviceEntries req])]

/-! ### Strings -/

/-- Four hexadecimal digits are read as the code they were written for. -/
theorem hexValue_hex4 : ∀ code < 128, ∃ a b c d, hex4 code = [a, b, c, d] ∧ hexValue a = some 0 ∧
    hexValue b = some 0 ∧ hexValue c = some (code / 16) ∧ hexValue d = some (code % 16) := by
  have digits : ∀ code < 128, (hex4 code).map hexValue =
      [some 0, some 0, some (code / 16), some (code % 16)] := by decide
  intro code ascii
  obtain ⟨a, others, is, first, others_eq⟩ := List.map_eq_cons_iff.mp (digits code ascii)
  obtain ⟨b, others, rfl, second, others_eq⟩ := List.map_eq_cons_iff.mp others_eq
  obtain ⟨c, others, rfl, third, others_eq⟩ := List.map_eq_cons_iff.mp others_eq
  obtain ⟨d, others, rfl, fourth, others_eq⟩ := List.map_eq_cons_iff.mp others_eq
  rw [List.map_eq_nil_iff.mp others_eq] at is
  exact ⟨a, b, c, d, is, first, second, third, fourth⟩

theorem basicFrom_hex4 {code : Nat} (ascii : code < 128) (rest : List Char) :
    basicFrom (.code 4 0) (hex4 code ++ rest) =
      push [Char.ofNat code] (basicFrom .none rest) := by
  obtain ⟨a, b, c, d, is, first, second, third, fourth⟩ := hexValue_hex4 code ascii
  have valid : code.isValidChar := .inl (by omega)
  rw [is]
  simp [basicFrom, first, second, third, fourth, scalarValue, Nat.div_add_mod, valid]

/-- A basic string reads what `str` writes of a character. -/
theorem basicFrom_escapeChar (ch : Char) (rest : List Char) :
    basicFrom .none (escapeChar ch ++ rest) = push [ch] (basicFrom .none rest) := by
  unfold escapeChar
  by_cases quote : ch = '"'
  · rw [quote]
    rfl
  by_cases backslash : ch = '\\'
  · rw [backslash]
    rfl
  by_cases lineFeed : ch = '\n'
  · rw [lineFeed]
    rfl
  by_cases return_ : ch = '\r'
  · rw [return_]
    rfl
  by_cases tab : ch = '\t'
  · rw [tab]
    rfl
  simp only [if_neg quote, if_neg backslash, if_neg lineFeed, if_neg return_, if_neg tab]
  split
  · rename_i control
    have ascii : ch.toNat < 128 := by omega
    have escape : ∀ text, basicFrom .none ('\\' :: 'u' :: text) = basicFrom (.code 4 0) text :=
      fun _ => rfl
    have read := basicFrom_hex4 ascii rest
    rw [Char.ofNat_toNat] at read
    rw [List.cons_append, List.cons_append, escape, read]
  · rename_i printable
    have isText : isText ch = true := by
      simp only [isText, Bool.or_eq_true, Bool.and_eq_true, decide_eq_true_eq, bne_iff_ne]
      omega
    rw [List.singleton_append, basicFrom, if_neg quote, if_neg backslash, if_pos isText]

/-- A basic string reads what `str` writes. -/
theorem basicFrom_str (v rest : List Char) :
    basicFrom .none (v.flatMap escapeChar ++ '"' :: rest) = some (v, rest) := by
  induction v with
  | nil => rfl
  | cons ch v ih =>
    rw [List.flatMap_cons, List.append_assoc, basicFrom_escapeChar, ih]
    rfl

/-- No character is written with a quote first. -/
theorem head?_escapeChar (ch : Char) (rest : List Char) :
    (escapeChar ch ++ rest).head? ≠ some '"' := by
  unfold escapeChar
  by_cases quote : ch = '"'
  · rw [if_pos quote]
    exact fun same => absurd (Option.some.inj same) (by decide)
  · have backslash : some '\\' ≠ some '"' := by decide
    rw [if_neg quote]
    split_ifs
    all_goals first | exact backslash | exact fun same => quote (Option.some.inj same)

theorem reads_str (v : String) : Reads (str v).toList (.string v) := by
  have body : (str v).toList = '"' :: (v.toList.flatMap escapeChar ++ ['"']) := by
    simp [str]
  have first : (v.toList.flatMap escapeChar).head? ≠ some '"' := by
    cases v.toList with
    | nil => decide
    | cons ch rest => exact head?_escapeChar ch _
  have reads := Reads.basic first (basicFrom_str v.toList)
  rw [body]
  rwa [String.ofList_toList] at reads

theorem opens_str (v : String) : Opens (str v).toList :=
  ⟨'"', v.toList.flatMap escapeChar ++ ['"'], by simp [str], rfl, by decide⟩

/-! ### Lines -/

/-- The line of a key and its value. -/
def keyLine (name : String) (text : List Char) (node : Node) : List Char × Option Expression :=
  (name.toList ++ ' ' :: '=' :: ' ' :: text, some (.keyval [name] node))

def strLine (name value : String) : List Char × Option Expression :=
  keyLine name (str value).toList (.string value)

def urlItem (url : String) : List Char × Node := ((str url).toList, .string url)

def urlsText (first : String) (rest : List String) : List Char :=
  '[' :: ((urlItem first).1 ++ commaSeparated ((rest.map urlItem).map Prod.fst) ++ [']'])

def urlsLine : List String → List (List Char × Option Expression)
  | [] => []
  | first :: rest =>
      [keyLine "relay_urls" (urlsText first rest) (.array ((first :: rest).map .string))]

def tableLine (name : String) : List Char × Option Expression :=
  ('[' :: (name.toList ++ [']']), some (.table [name]))

def elementLine (name : String) : List Char × Option Expression :=
  ('[' :: '[' :: (name.toList ++ [']', ']']), some (.element [name]))

def nodeLines (shared : Shared) : List (List Char × Option Expression) :=
  let lines := urlsLine shared.relayUrls ++ shared.relayToken.toList.map (strLine "relay_token")
  if lines = [] then [] else tableLine "node" :: lines ++ [([], none)]

def serviceLines (req : TunnelRequest) : List (List Char × Option Expression) :=
  elementLine "services" :: strLine "name" req.name ::
    (nodeIdOf req).toList.map (strLine "node_id") ++
    [strLine "protocol" req.shared.protocol.asStr, strLine "host" req.hostPort.host,
      keyLine "port" req.hostPort.port.repr.toList (.integer req.hostPort.port)]

def lines (req : TunnelRequest) : List (List Char × Option Expression) :=
  nodeLines req.shared ++ serviceLines req

theorem toList_join (first : String) (rest : List String) :
    (join ", " ((first :: rest).map str)).toList =
      (str first).toList ++ commaSeparated ((rest.map urlItem).map Prod.fst) := by
  have comma : ", ".toList = [',', ' '] := rfl
  have later : (String.join ((rest.map str).map (", " ++ ·))).toList =
      commaSeparated ((rest.map urlItem).map Prod.fst) := by
    induction rest with
    | nil => rfl
    | cons url rest ih =>
      rw [List.map_cons, List.map_cons, String.join_cons, String.toList_append, ih,
        String.toList_append, comma]
      simp only [List.map_cons, commaSeparated, List.flatMap_cons, urlItem, List.cons_append,
        List.nil_append]
  rw [List.map_cons, join, String.toList_append, later]

/-- The text of a request's config is its lines. -/
theorem renderConfig_eq (req : TunnelRequest) :
    (renderConfig req).toList = (lines req).flatMap fun line => line.1 ++ ['\n'] := by
  unfold renderConfig lines nodeLines serviceLines
  cases req.shared.relayUrls with
  | nil =>
    cases req.shared.relayToken <;> cases nodeIdOf req <;>
      simp [relayUrlsLine, relayTokenLine, urlsLine, tableLine, elementLine, strLine, keyLine, join]
  | cons first rest =>
    have urls := toList_join first rest
    have some : 0 < (first :: rest).length := Nat.zero_lt_succ _
    rw [relayUrlsLine, if_pos some]
    generalize join ", " ((first :: rest).map str) = joined at urls ⊢
    cases req.shared.relayToken <;> cases nodeIdOf req <;>
      simp [relayTokenLine, urlsLine, urlsText, urlItem, tableLine, elementLine, strLine, keyLine,
        join, urls]

section KeyLine

variable {name : String} (nonempty : name.toList ≠ []) (bare : name.toList.all isBareKeyChar = true)

include nonempty bare

theorem isLine_keyLine {text : List Char} {node : Node} (reads : Reads text node)
    (opens : Opens text) : IsLine (keyLine name text node).1 (keyLine name text node).2 := by
  have line := IsLine.keyval nonempty bare reads opens
  rwa [String.ofList_toList] at line

theorem isLine_strLine (value : String) : IsLine (strLine name value).1 (strLine name value).2 :=
  isLine_keyLine nonempty bare (reads_str value) (opens_str value)

theorem isLine_tableLine : IsLine (tableLine name).1 (tableLine name).2 := by
  have line := IsLine.table nonempty bare
  rwa [String.ofList_toList] at line

theorem isLine_elementLine : IsLine (elementLine name).1 (elementLine name).2 := by
  have line := IsLine.element nonempty bare
  rwa [String.ofList_toList] at line

end KeyLine

theorem isLine_urlsLine (relayUrls : List String) :
    ∀ line ∈ urlsLine relayUrls, IsLine line.1 line.2 := by
  cases relayUrls with
  | nil => exact fun _ member => nomatch member
  | cons first rest =>
    have items : ∀ item ∈ (first :: rest).map urlItem, Reads item.1 item.2 ∧ Opens item.1 := by
      intro item member
      obtain ⟨url, -, rfl⟩ := List.mem_map.mp member
      simp only [urlItem]
      exact ⟨reads_str url, opens_str url⟩
    rw [List.map_cons] at items
    have nodes : (urlItem first :: rest.map urlItem).map Prod.snd =
        (first :: rest).map .string := by
      simp [urlItem]
    have reads := Reads.array items
    rw [nodes] at reads
    have opens : Opens (urlsText first rest) := ⟨'[', _, rfl, rfl, by decide⟩
    intro line member
    rw [urlsLine, List.mem_singleton] at member
    rw [member]
    exact isLine_keyLine (by decide) (by decide) reads opens

theorem isLine_nodeLines (shared : Shared) : ∀ line ∈ nodeLines shared, IsLine line.1 line.2 := by
  have values : ∀ line ∈ urlsLine shared.relayUrls ++
      shared.relayToken.toList.map (strLine "relay_token"), IsLine line.1 line.2 := by
    intro line member
    rcases List.mem_append.mp member with inUrls | inToken
    · exact isLine_urlsLine _ line inUrls
    · obtain ⟨token, -, rfl⟩ := List.mem_map.mp inToken
      exact isLine_strLine (by decide) (by decide) token
  unfold nodeLines
  simp only []
  split
  · exact fun _ member => nomatch member
  · intro line member
    rw [List.cons_append, List.mem_cons, List.mem_append, List.mem_singleton] at member
    rcases member with rfl | inValues | rfl
    · exact isLine_tableLine (by decide) (by decide)
    · exact values line inValues
    · exact IsLine.empty

theorem isLine_serviceLines (req : TunnelRequest) :
    ∀ line ∈ serviceLines req, IsLine line.1 line.2 := by
  have port : IsLine (keyLine "port" req.hostPort.port.repr.toList (.integer req.hostPort.port)).1
      (keyLine "port" req.hostPort.port.repr.toList (.integer req.hostPort.port)).2 :=
    isLine_keyLine (by decide) (by decide) (Reads.repr req.hostPort.inRange.1) (opens_repr _)
  intro line member
  simp only [serviceLines, List.cons_append, List.mem_cons, List.mem_append, List.mem_map,
    List.not_mem_nil, or_false] at member
  rcases member with rfl | rfl | ⟨nodeId, -, rfl⟩ | rfl | rfl | rfl
  · exact isLine_elementLine (by decide) (by decide)
  · exact isLine_strLine (by decide) (by decide) _
  · exact isLine_strLine (by decide) (by decide) _
  · exact isLine_strLine (by decide) (by decide) _
  · exact isLine_strLine (by decide) (by decide) _
  · exact port

/-- Every line of a config is a line of TOML. -/
theorem isLine_lines (req : TunnelRequest) : ∀ line ∈ lines req, IsLine line.1 line.2 :=
  List.forall_mem_append.mpr ⟨isLine_nodeLines req.shared, isLine_serviceLines req⟩

/-- The expressions of a config build the document of its request. -/
theorem buildFrom_lines (req : TunnelRequest) :
    buildFrom [] [] ((lines req).filterMap Prod.snd) = some (document req) := by
  unfold lines nodeLines serviceLines document nodeEntries serviceEntries
  cases req.shared.relayUrls <;> cases req.shared.relayToken <;> cases nodeIdOf req <;> rfl

/-- **The config of a request is read as TOML to the values of the request and to nothing else.** -/
theorem render_round_trip (req : TunnelRequest) :
    parse (renderConfig req).toList = some (document req) :=
  calc parse (renderConfig req).toList
      = parse ((lines req).flatMap fun line => line.1 ++ ['\n']) := by rw [renderConfig_eq]
    _ = buildFrom [] [] ((lines req).filterMap Prod.snd) := parse_lines (isLine_lines req)
    _ = some (document req) := buildFrom_lines req

end IrohTunnel.Action
