/-
**The launchd property list, read back as XML.**

* `run_plist` — the pieces of the document, whatever text the paths hold;
* `plist_fidelity` — the document has the template's structure for every path, and its values are
  the paths where these are text that XML can carry.
-/

import IrohTunnel.Library.PropertyList
import IrohTunnel.Service.PinText

namespace IrohTunnel.Service.Launchd

open IrohTunnel.Library
open IrohTunnel.Library.Xml (Forest Token State run run_append_of leaf line opening closing emptied
  leafTokens)
open IrohTunnel.Ownership (Role)

/-! ### What the template says -/

/-- The comment with the pin. -/
def pinComment (pin : Option Pin) (next : Forest) : Forest :=
  pin.elim next fun pin => .comment (s!" {pin.record} ").toList next

/-- The elements and keys of the template. -/
def skeleton (policy : RestartPolicy) (pin : Option Pin) : Forest :=
  let string := Forest.element "string".toList .nil
  let key (name : String) := leaf "key" name.toList
  let dict := Forest.element "dict".toList
  let trust (next : Forest) := pin.elim next fun _ => key ENV_TRUSTED_UID <| string next
  let keepAlive := if policy.onFailure then
      key "KeepAlive" <| dict (key "SuccessfulExit" <| .element "false".toList .nil .nil) .nil
    else .nil
  .instruction "xml version=\"1.0\" encoding=\"UTF-8\"".toList <|
  pinComment pin <|
  .doctype (" plist PUBLIC \"-//Apple//DTD PLIST 1.0//EN\" " ++
    "\"http://www.apple.com/DTDs/PropertyList-1.0.dtd\"").toList <|
  .element "plist version=\"1.0\"".toList
    (dict (
      key "Label" <| string <|
      key "ProgramArguments" <|
      .element "array".toList (string <| string <| string <| string <| string .nil) <|
      key "EnvironmentVariables" <| dict (key ENV_STATE_DIR <| string <| trust .nil) <|
      key "RunAtLoad" <| .element "true".toList .nil keepAlive) .nil) .nil

/-- The job that the property list describes. -/
def jobEntries (role : Role) (binary config state : String) (policy : RestartPolicy)
    (pin : Option Pin) : List (List Char × PropertyList.Value) :=
  let string (text : String) := PropertyList.Value.string text.toList
  let trust := pin.elim [] fun pin => [(ENV_TRUSTED_UID.toList, string (toString pin.uid))]
  let keepAlive := if policy.onFailure then
      [("KeepAlive".toList, .dict [("SuccessfulExit".toList, .boolean false)])]
    else []
  [("Label".toList, string (label role.name)),
    ("ProgramArguments".toList,
      .array [string binary, string role.name, string "run", string "--config", string config]),
    ("EnvironmentVariables".toList, .dict ((ENV_STATE_DIR.toList, string state) :: trust)),
    ("RunAtLoad".toList, .boolean true)] ++ keepAlive

/-! ### The document -/

/-- What stands in the elements of the document: the arguments, the environment, and the entries
from `RunAtLoad` on. -/
def argumentNodes (role : Role) (binary config : List Char) : Forest :=
  line "\n\t\t" "string" binary <|
  line "\n\t\t" "string" role.name.toList <|
  line "\n\t\t" "string" "run".toList <|
  line "\n\t\t" "string" "--config".toList <|
  line "\n\t\t" "string" config <| .text "\n\t".toList .nil

def environmentNodes (pin : Option Pin) (state : List Char) : Forest :=
  line "\n\t\t" "key" ENV_STATE_DIR.toList <|
  line "\n\t\t" "string" state <|
  (fun next => pin.elim next fun pin =>
    line "\n\t\t" "key" ENV_TRUSTED_UID.toList <|
    line "\n\t\t" "string" pin.uid.toNat.repr.toList next) <|
  .text "\n\t".toList .nil

def runNodes (policy : RestartPolicy) : Forest :=
  line "\n\t" "key" "RunAtLoad".toList <|
  .text "\n\t".toList <| .element "true".toList .nil <|
  (fun next => if policy.onFailure then
      line "\n\t" "key" "KeepAlive".toList <|
      .text "\n\t".toList <| .element "dict".toList
        (line "\n\t\t" "key" "SuccessfulExit".toList <|
          .text "\n\t\t".toList <| .element "false".toList .nil <| .text "\n\t".toList .nil) next
    else next) <|
  .text "\n".toList .nil

/-- The document with the texts of its paths. -/
def tree (role : Role) (policy : RestartPolicy) (pin : Option Pin)
    (binary config state : List Char) : Forest :=
  .text [] <| .instruction "xml version=\"1.0\" encoding=\"UTF-8\"".toList <|
  (fun next => pin.elim next fun _ => .text "\n".toList (pinComment pin next)) <|
  .text "\n".toList <| .doctype (" plist PUBLIC \"-//Apple//DTD PLIST 1.0//EN\" " ++
    "\"http://www.apple.com/DTDs/PropertyList-1.0.dtd\"").toList <|
  .text "\n".toList <| .element "plist version=\"1.0\"".toList
    (.text "\n".toList <| .element "dict".toList
      (line "\n\t" "key" "Label".toList <|
      line "\n\t" "string" (label role.name).toList <|
      line "\n\t" "key" "ProgramArguments".toList <|
      .text "\n\t".toList <| .element "array".toList (argumentNodes role binary config) <|
      line "\n\t" "key" "EnvironmentVariables".toList <|
      .text "\n\t".toList <| .element "dict".toList (environmentNodes pin state) <|
      runNodes policy) <|
      .text "\n".toList .nil) <|
  .text "\n".toList .nil

/-- The pieces before the first key. -/
def prologTokens : List Token := [
  .text "\n".toList,
  .doctype (" plist PUBLIC \"-//Apple//DTD PLIST 1.0//EN\" " ++
    "\"http://www.apple.com/DTDs/PropertyList-1.0.dtd\"").toList,
  .text "\n".toList, .start "plist version=\"1.0\"".toList, .text "\n".toList, .start "dict".toList]

/-- The characters of the template before its first path, those between its paths, and those after
the environment; the bracket that ends a path apart. -/
def headChars (role : Role) : List Char :=
  (plistHead role ++ ["\t\t<string>"]).flatMap fun text => '\n' :: text.toList

def argumentChars (role : Role) : List Char :=
  "/string>".toList ++
    (plistArguments role ++ ["\t\t<string>"]).flatMap fun text => '\n' :: text.toList

def environmentChars : List Char :=
  "/string>".toList ++
    (plistEnvironment ++ ["\t\t<string>"]).flatMap fun text => '\n' :: text.toList

def trustChars (uid : UInt32) : List Char :=
  "\n\t\t<key>IROH_TUNNEL_TRUSTED_UID</key>\n\t\t<string>".toList ++ uid.toNat.repr.toList ++
    "</string>".toList

def runChars (policy : RestartPolicy) : List Char :=
  (plistRun policy).flatMap fun text => '\n' :: text.toList

/-- The pieces of the declaration and of the comment with the pin. -/
def declarationTokens : List Token :=
  [.text [], .instruction "xml version=\"1.0\" encoding=\"UTF-8\"".toList]

def commentTokens (pin : Pin) : List Token :=
  [.text "\n".toList, .comment (s!" {pin.record} ").toList]

def trustTokens (uid : UInt32) : List Token :=
  leafTokens "\n\t\t" "key" ENV_TRUSTED_UID.toList ++
    leafTokens "\n\t\t" "string" uid.toNat.repr.toList

set_option maxRecDepth 8000 in
theorem run_head (role : Role) :
    run (.text []) (headChars role) = some (prologTokens ++
      leafTokens "\n\t" "key" "Label".toList ++
      leafTokens "\n\t" "string" (label role.name).toList ++
      leafTokens "\n\t" "key" "ProgramArguments".toList ++
      opening "\n\t" "array" ++ opening "\n\t\t" "string",
      .text []) := by
  obtain ⟨-, escaped⟩ := xmlEscape_role role
  have named : (label role.name).toList = "dev.iroh-tunnel.".toList ++ role.name.toList := by
    have parts : label role.name = "dev.iroh-tunnel." ++ role.name := rfl
    rw [parts, String.toList_append]
  unfold headChars plistHead prologTokens
  rw [escaped, named]
  cases role <;>
  · simp only [leafTokens, opening, List.cons_append, List.nil_append, List.flatMap_cons,
      List.flatMap_nil, Role.name, toString, String.toList_append]
    repeat rw [String.toList_ofList]
    rfl

theorem run_arguments (role : Role) (reversed : List Char) :
    run (.text reversed) ('<' :: argumentChars role) = some (Token.text reversed.reverse ::
      (Token.finish "string".toList :: leafTokens "\n\t\t" "string" role.name.toList ++
      leafTokens "\n\t\t" "string" "run".toList ++
      leafTokens "\n\t\t" "string" "--config".toList ++
      opening "\n\t\t" "string"), .text []) := by
  obtain ⟨escaped, -⟩ := xmlEscape_role role
  refine Xml.run_opened ?_ reversed
  unfold argumentChars plistArguments
  rw [escaped]
  cases role <;>
  · simp only [leafTokens, opening, List.cons_append, List.nil_append, List.flatMap_cons,
      List.flatMap_nil, Role.name, toString, String.toList_append]
    repeat rw [String.toList_ofList]
    decide

set_option maxRecDepth 8000 in
theorem run_environment (reversed : List Char) :
    run (.text reversed) ('<' :: environmentChars) = some (Token.text reversed.reverse ::
      (Token.finish "string".toList :: closing "\n\t" "array" ++
      leafTokens "\n\t" "key" "EnvironmentVariables".toList ++ opening "\n\t" "dict" ++
      leafTokens "\n\t\t" "key" ENV_STATE_DIR.toList ++
      opening "\n\t\t" "string"), .text []) := by
  refine Xml.run_opened ?_ reversed
  unfold environmentChars plistEnvironment
  simp only [leafTokens, opening, closing, ENV_STATE_DIR, List.cons_append, List.nil_append,
    List.flatMap_cons, List.flatMap_nil, toString, String.toList_append]
  repeat rw [String.toList_ofList]
  rfl

theorem run_end (reversed : List Char) :
    run (.text reversed) ('<' :: "/string>".toList) =
      some ([Token.text reversed.reverse, Token.finish "string".toList], .text []) := by
  refine Xml.run_opened ?_ reversed
  repeat rw [String.toList_ofList]
  rfl

theorem run_trust (uid : UInt32) :
    run (.text []) (trustChars uid) = some (trustTokens uid, .text []) := by
  have front : run (.text []) "\n\t\t<key>IROH_TUNNEL_TRUSTED_UID</key>\n\t\t<string>".toList =
      some (leafTokens "\n\t\t" "key" ENV_TRUSTED_UID.toList ++
        opening "\n\t\t" "string", .text []) := by
    simp only [leafTokens, opening, ENV_TRUSTED_UID]
    repeat rw [String.toList_ofList]
    rfl
  have digits := @Xml.run_plain uid.toNat.repr.toList (fun char member => by
    have digit := Text.isDigit_of_mem_repr member
    refine ⟨?_, ?_, ?_⟩ <;>
    · rintro rfl
      exact absurd digit (by decide)) []
  have close : "</string>".toList = '<' :: "/string>".toList := by decide
  unfold trustChars
  rw [close, run_append_of (run_append_of front digits) (run_end _), List.append_nil,
    List.append_nil, List.reverse_reverse]
  simp only [trustTokens, leafTokens, opening, List.cons_append, List.nil_append]

/-- The pieces after the environment. -/
def runTokens (policy : RestartPolicy) : List Token :=
  closing "\n\t" "dict" ++ leafTokens "\n\t" "key" "RunAtLoad".toList ++ emptied "\n\t" "true" ++
    (if policy.onFailure then
      leafTokens "\n\t" "key" "KeepAlive".toList ++ opening "\n\t" "dict" ++
        leafTokens "\n\t\t" "key" "SuccessfulExit".toList ++ emptied "\n\t\t" "false" ++
        closing "\n\t" "dict"
    else []) ++
    closing "\n" "dict" ++ closing "\n" "plist"

set_option maxRecDepth 8000 in
theorem run_run (policy : RestartPolicy) :
    run (.text []) (runChars policy) = some (runTokens policy, .text []) := by
  have either (onFailure : Bool) : run (.text []) (runChars { onFailure, delaySecs := 0 }) =
      some (runTokens { onFailure, delaySecs := 0 }, .text []) := by
    cases onFailure <;>
    · simp only [runChars, runTokens, plistRun, leafTokens, opening, closing, emptied, if_true,
        List.cons_append, List.nil_append, List.append_nil, List.flatMap_cons, List.flatMap_nil]
      repeat rw [String.toList_ofList]
      rfl
  exact either policy.onFailure

/-- The characters of the comment with the pin. -/
def commentChars (pin : Pin) : List Char := '\n' :: (s!"<!-- {pin.record} -->").toList

theorem run_pinComment (pin : Pin) :
    run (.text []) (commentChars pin) =
      some (commentTokens pin, .text []) := by
  have parts : commentChars pin = "\n<!-- iroh-tunnel-pin config=".toList ++
      pin.config.flatMap Pin.escapeByte ++ " uid=".toList ++ pin.uid.toNat.repr.toList ++
        " -->".toList := by
    have text : commentChars pin = '\n' :: ("<!-- " ++ pin.record ++ " -->").toList := rfl
    rw [text, String.toList_append, String.toList_append, Pin.record_toList]
    have opened : '\n' :: ("<!-- ".toList ++ (Pin.KEY.toList ++ ' ' :: "config=".toList)) =
        "\n<!-- iroh-tunnel-pin config=".toList := by decide
    have uid : ' ' :: "uid=".toList = " uid=".toList := by decide
    rw [← opened, ← uid]
    simp only [List.append_assoc, List.cons_append]
  have comment : (s!" {pin.record} ").toList = " iroh-tunnel-pin config=".toList ++
      pin.config.flatMap Pin.escapeByte ++ " uid=".toList ++ pin.uid.toNat.repr.toList ++
        [' '] := by
    have text : s!" {pin.record} " = " " ++ pin.record ++ " " := rfl
    rw [text, String.toList_append, String.toList_append, Pin.record_toList]
    have opened : " ".toList ++ (Pin.KEY.toList ++ ' ' :: "config=".toList) =
        " iroh-tunnel-pin config=".toList := by decide
    have uid : ' ' :: "uid=".toList = " uid=".toList := by decide
    have last : " ".toList = [' '] := by decide
    rw [← opened, ← uid, last]
    simp only [List.append_assoc, List.cons_append]
  have front : run (.text []) "\n<!-- iroh-tunnel-pin config=".toList =
      some ([Token.text "\n".toList], .comment " iroh-tunnel-pin config=".toList.reverse 0) := by
    repeat rw [String.toList_ofList]
    rfl
  have config := @Xml.run_comment (pin.config.flatMap Pin.escapeByte)
    (fun member => (Pin.safe_of_mem_escape member).2.2 rfl)
    " iroh-tunnel-pin config=".toList.reverse
  have noDash : '-' ∉ " uid=".toList := by decide
  have uid := fun reversed => Xml.run_comment noDash reversed
  have digits := fun reversed => @Xml.run_comment pin.uid.toNat.repr.toList
    (fun member => absurd (Text.isDigit_of_mem_repr member) (by decide)) reversed
  have closed (reversed : List Char) : run (.comment reversed 0) " -->".toList =
      some ([Token.comment (reversed.reverse ++ [' '])], .text []) := by
    rw [String.toList_ofList, Xml.run_of_step _ rfl]
    show some ([Token.comment (' ' :: reversed).reverse], State.text []) = _
    rw [List.reverse_cons]
  unfold commentTokens
  rw [parts, comment, run_append_of (run_append_of (run_append_of (run_append_of front config)
    (uid _)) (digits _)) (closed _)]
  simp [List.reverse_append, List.append_assoc]

/-- The document, character by character. -/
def plistChars (role : Role) (policy : RestartPolicy) (pin : Option Pin)
    (binary config state : List Char) : List Char :=
  "<?xml version=\"1.0\" encoding=\"UTF-8\"?>".toList ++ pin.elim [] commentChars ++
    headChars role ++ Xml.escape binary ++ '<' :: argumentChars role ++ Xml.escape config ++
    '<' :: environmentChars ++ Xml.escape state ++ '<' :: "/string>".toList ++
    (pin.elim [] fun pin => trustChars pin.uid) ++ runChars policy ++ ['\n']

theorem toList_xmlEscape (text : String) : (xmlEscape text).toList = Xml.escape text.toList := by
  unfold xmlEscape Xml.escape
  rw [String.toList_ofList]
  repeat rw [String.toList_ofList]

theorem toList_stringText (text : String) :
    '\n' :: (stringText (xmlEscape text)).toList =
      '\n' :: "\t\t<string>".toList ++ (Xml.escape text.toList ++ '<' :: "/string>".toList) := by
  have parts : stringText (xmlEscape text) = "\t\t<string>" ++ xmlEscape text ++ "</string>" := rfl
  have close : "</string>".toList = '<' :: "/string>".toList := by decide
  rw [parts, String.toList_append, String.toList_append, toList_xmlEscape, close,
    List.append_assoc, List.cons_append]

theorem formatPlistWith_toList (role : Role) (binary config state : OsPath) (policy : RestartPolicy)
    (pin : Option Pin) :
    (formatPlistWith role.name binary config state policy pin).toList =
      plistChars role policy pin binary.toStringLossy.toList config.toStringLossy.toList
        state.toStringLossy.toList := by
  have trust (pin : Pin) : ((plistTrust (some pin)).flatMap fun text => '\n' :: text.toList) =
      trustChars pin.uid := by
    have key : s!"\t\t<key>{ENV_TRUSTED_UID}</key>" =
        "\t\t<key>IROH_TUNNEL_TRUSTED_UID</key>" := by decide
    have value : s!"\t\t<string>{pin.uid}</string>" =
        "\t\t<string>" ++ pin.uid.toNat.repr ++ "</string>" := rfl
    have front : '\n' :: ("\t\t<key>IROH_TUNNEL_TRUSTED_UID</key>".toList ++
        '\n' :: "\t\t<string>".toList) =
          "\n\t\t<key>IROH_TUNNEL_TRUSTED_UID</key>\n\t\t<string>".toList := by
      repeat rw [String.toList_ofList]
      rfl
    show ([s!"\t\t<key>{ENV_TRUSTED_UID}</key>", s!"\t\t<string>{pin.uid}</string>"].flatMap
      fun text => '\n' :: text.toList) = _
    unfold trustChars
    rw [key, value, ← front]
    simp only [List.flatMap_cons, List.flatMap_nil, String.toList_append, List.append_assoc,
      List.cons_append, List.append_nil]
  rw [formatPlistWith_eq, List.singleton_append, Text.toList_unlines_cons]
  simp only [List.flatMap_append, List.flatMap_cons, toList_stringText]
  unfold plistChars headChars argumentChars environmentChars runChars
  cases pin with
  | none =>
    simp only [Option.elim_none, plistTrust, List.flatMap_nil, List.flatMap_append,
      List.flatMap_cons, List.append_assoc, List.cons_append, List.nil_append, List.append_nil]
  | some pin =>
    simp only [Option.elim_some, trust, commentChars, List.flatMap_nil, List.flatMap_append,
      List.flatMap_cons, List.append_assoc, List.cons_append, List.append_nil]

/-- The pieces of the document. -/
def plistTokens (role : Role) (policy : RestartPolicy) (pin : Option Pin)
    (binary config state : List Char) : List Token :=
  declarationTokens ++ pin.elim [] commentTokens ++ prologTokens ++
    leafTokens "\n\t" "key" "Label".toList ++
    leafTokens "\n\t" "string" (label role.name).toList ++
    leafTokens "\n\t" "key" "ProgramArguments".toList ++ opening "\n\t" "array" ++
    leafTokens "\n\t\t" "string" binary ++
    leafTokens "\n\t\t" "string" role.name.toList ++
    leafTokens "\n\t\t" "string" "run".toList ++
    leafTokens "\n\t\t" "string" "--config".toList ++
    leafTokens "\n\t\t" "string" config ++ closing "\n\t" "array" ++
    leafTokens "\n\t" "key" "EnvironmentVariables".toList ++ opening "\n\t" "dict" ++
    leafTokens "\n\t\t" "key" ENV_STATE_DIR.toList ++
    leafTokens "\n\t\t" "string" state ++
    (pin.elim [] fun pin => trustTokens pin.uid) ++ runTokens policy

/-- The pieces of the document, whatever text the paths hold. -/
theorem run_plist (role : Role) (policy : RestartPolicy) (pin : Option Pin)
    (binary config state : List Char) :
    run (.text []) (plistChars role policy pin binary config state) =
      some (plistTokens role policy pin binary config state, .text ['\n']) := by
  have declaration : run (.text []) "<?xml version=\"1.0\" encoding=\"UTF-8\"?>".toList =
      some (declarationTokens, .text []) := by
    unfold declarationTokens
    repeat rw [String.toList_ofList]
    rfl
  have comment : run (.text []) (pin.elim [] commentChars) =
      some (pin.elim [] commentTokens, .text []) := by
    cases pin with
    | none => rfl
    | some pin => exact run_pinComment pin
  have trust : run (.text []) (pin.elim [] fun pin => trustChars pin.uid) =
      some (pin.elim [] fun pin => trustTokens pin.uid, .text []) := by
    cases pin with
    | none => rfl
    | some pin => exact run_trust pin.uid
  have newline : run (.text []) ['\n'] = some ([], .text ['\n']) := rfl
  unfold plistChars
  rw [run_append_of (run_append_of (run_append_of (run_append_of (run_append_of (run_append_of
    (run_append_of (run_append_of (run_append_of (run_append_of (run_append_of declaration comment)
      (run_head role)) (Xml.run_escape binary _)) (run_arguments role _)) (Xml.run_escape config _))
      (run_environment _)) (Xml.run_escape state _)) (run_end _)) trust) (run_run policy)) newline]
  unfold plistTokens
  simp only [leafTokens, opening, List.append_nil, List.reverse_reverse, List.append_assoc,
    List.cons_append, List.nil_append]

theorem nestAll_plist (role : Role) (policy : RestartPolicy) (pin : Option Pin)
    (binary config state : List Char) :
    Xml.nestAll (plistTokens role policy pin binary config state ++ [Token.text "\n".toList]) =
      some (tree role policy pin binary config state, []) := by
  obtain ⟨onFailure, delaySecs⟩ := policy
  unfold plistTokens declarationTokens commentTokens prologTokens trustTokens runTokens tree
    argumentNodes environmentNodes runNodes
  cases pin <;> cases onFailure <;>
  · simp only [leafTokens, opening, closing, emptied, line, leaf, pinComment, Option.elim_none,
      Option.elim_some, if_true, List.cons_append, List.nil_append, List.append_nil]
    repeat rw [String.toList_ofList]
    rfl

theorem isDocument_tree (role : Role) (policy : RestartPolicy) (pin : Option Pin)
    (binary config state : List Char) :
    Xml.isDocument .start (tree role policy pin binary config state) = true := by
  obtain ⟨onFailure, delaySecs⟩ := policy
  unfold tree argumentNodes environmentNodes runNodes
  cases pin <;> cases onFailure <;>
  · simp only [line, leaf, pinComment, Option.elim_none, Option.elim_some, if_true]
    repeat rw [String.toList_ofList]
    rfl

theorem outline_tree (role : Role) (policy : RestartPolicy) (pin : Option Pin)
    (binary config state : List Char) :
    Xml.outline ["key".toList] (tree role policy pin binary config state) =
      skeleton policy pin := by
  obtain ⟨onFailure, delaySecs⟩ := policy
  unfold tree argumentNodes environmentNodes runNodes skeleton
  cases pin <;> cases onFailure <;>
  · simp only [line, leaf, pinComment, Option.elim_none, Option.elim_some, if_true]
    repeat rw [String.toList_ofList]
    rfl

/-- The document has the template's structure, whatever text the paths hold. -/
theorem markup_plistChars (role : Role) (policy : RestartPolicy) (pin : Option Pin)
    (binary config state : List Char) :
    Xml.markup (plistChars role policy pin binary config state) =
      some (tree role policy pin binary config state) := by
  have newline : ['\n'].reverse = "\n".toList := by decide
  exact Xml.markup_of_run (run_plist role policy pin binary config state)
    (newline ▸ nestAll_plist role policy pin binary config state)
    (isDocument_tree role policy pin binary config state)

/-! ### The characters of the template -/

/-- A character that XML reads as it stands. -/
def isPlain (char : Char) : Bool := Xml.isXmlChar char && char != '\r'

theorem plain_template (role : Role) (policy : RestartPolicy) :
    "<?xml version=\"1.0\" encoding=\"UTF-8\"?>".toList.all isPlain = true ∧
      (headChars role).all isPlain = true ∧ (argumentChars role).all isPlain = true ∧
      environmentChars.all isPlain = true ∧ "/string>".toList.all isPlain = true ∧
      (runChars policy).all isPlain = true := by
  obtain ⟨name, escaped⟩ := xmlEscape_role role
  have run (onFailure : Bool) :
      (runChars { onFailure, delaySecs := 0 }).all isPlain = true := by
    cases onFailure <;>
    · simp only [runChars, plistRun, if_true, List.cons_append, List.nil_append, List.append_nil,
        List.flatMap_cons, List.flatMap_nil]
      repeat rw [String.toList_ofList]
      rfl
  refine ⟨?_, ?_, ?_, ?_, ?_, run policy.onFailure⟩
  · rw [String.toList_ofList]
    rfl
  · unfold headChars plistHead
    rw [escaped]
    cases role <;>
    · simp only [List.cons_append, List.nil_append, List.flatMap_cons, List.flatMap_nil, Role.name,
        toString, String.toList_append]
      repeat rw [String.toList_ofList]
      decide
  · unfold argumentChars plistArguments
    rw [name]
    cases role <;>
    · simp only [List.cons_append, List.nil_append, List.flatMap_cons, List.flatMap_nil, Role.name,
        toString, String.toList_append]
      repeat rw [String.toList_ofList]
      rfl
  · unfold environmentChars plistEnvironment
    simp only [ENV_STATE_DIR, List.cons_append, List.nil_append, List.flatMap_cons,
      List.flatMap_nil, toString, String.toList_append]
    repeat rw [String.toList_ofList]
    rfl
  · rw [String.toList_ofList]
    rfl

theorem plain_of_isDigit {text : List Char} (digits : ∀ char ∈ text, char.isDigit = true) :
    text.all isPlain = true := by
  refine List.all_eq_true.mpr fun char member => ?_
  obtain ⟨low, high⟩ : 48 ≤ char.toNat ∧ char.toNat ≤ 57 := by
    simpa [Char.isDigit, Char.le_def, UInt32.le_iff_toNat_le] using digits char member
  have notReturn : char ≠ '\r' := fun same => absurd (same ▸ low) (by decide)
  have allowed : 0x20 ≤ char.toNat ∧ char.toNat ≤ 0xD7FF := ⟨by omega, by omega⟩
  simp [isPlain, Xml.isXmlChar, allowed, notReturn]

theorem plain_trust (uid : UInt32) : (trustChars uid).all isPlain = true := by
  have fixed : "\n\t\t<key>IROH_TUNNEL_TRUSTED_UID</key>\n\t\t<string>".toList.all isPlain = true ∧
      "</string>".toList.all isPlain = true := by
    repeat rw [String.toList_ofList]
    decide
  have digits := @plain_of_isDigit uid.toNat.repr.toList fun _ => Text.isDigit_of_mem_repr
  unfold trustChars
  simp only [List.all_append, fixed, digits, Bool.and_self]

theorem plain_comment (pin : Pin) : (commentChars pin).all isPlain = true := by
  have fixed : "<!-- ".toList.all isPlain = true ∧ " -->".toList.all isPlain = true ∧
      Pin.KEY.toList.all isPlain = true ∧ "config=".toList.all isPlain = true ∧
      "uid=".toList.all isPlain = true := by
    decide
  obtain ⟨opened, closed, key, config, uid⟩ := fixed
  have digits := @plain_of_isDigit pin.uid.toNat.repr.toList fun _ => Text.isDigit_of_mem_repr
  have escaped : (pin.config.flatMap Pin.escapeByte).all isPlain = true := by
    have each : ∀ value < 256, (Pin.escapeByte (UInt8.ofNat value)).all isPlain = true := by
      decide +kernel
    refine List.all_eq_true.mpr fun char member => ?_
    obtain ⟨byte, -, inByte⟩ := List.mem_flatMap.mp member
    have ofByte := each byte.toNat byte.toNat_lt
    rw [UInt8.ofNat_toNat] at ofByte
    exact List.all_eq_true.mp ofByte char inByte
  have text : commentChars pin = '\n' :: ("<!-- " ++ pin.record ++ " -->").toList := rfl
  have blank : isPlain '\n' = true ∧ isPlain ' ' = true := by decide
  rw [text, String.toList_append, String.toList_append, Pin.record_toList]
  simp only [List.all_append, List.all_cons, opened, closed, key, config, uid, digits, escaped,
    blank, Bool.and_self]

theorem plain_escape {text : List Char} (plain : text.all isPlain = true) :
    (Xml.escape text).all isPlain = true := by
  have marks : ['&', 'a', 'm', 'p', ';', 'l', 't', 'g'].all isPlain = true := by decide
  refine List.all_eq_true.mpr fun char member => ?_
  rcases Xml.mem_escape member with inText | mark
  · exact List.all_eq_true.mp plain char inText
  · exact List.all_eq_true.mp marks char mark

theorem return_notMem_of_plain {text : List Char} (plain : text.all isPlain = true) :
    '\r' ∉ text := fun member =>
  absurd (List.all_eq_true.mp plain '\r' member) (by decide)

theorem plain_plistChars (role : Role) (policy : RestartPolicy) (pin : Option Pin)
    {binary config state : List Char} (plainBinary : binary.all isPlain = true)
    (plainConfig : config.all isPlain = true) (plainState : state.all isPlain = true) :
    (plistChars role policy pin binary config state).all isPlain = true := by
  obtain ⟨declaration, head, arguments, environment, closed, run⟩ := plain_template role policy
  have bracket : isPlain '<' = true ∧ isPlain '\n' = true := by decide
  have comment : (pin.elim [] commentChars).all isPlain = true := by
    cases pin with
    | none => rfl
    | some pin => exact plain_comment pin
  have trust : (pin.elim [] fun pin => trustChars pin.uid).all isPlain = true := by
    cases pin with
    | none => rfl
    | some pin => exact plain_trust pin.uid
  unfold plistChars
  simp only [List.all_append, List.all_cons, List.all_nil, declaration, comment, head, bracket,
    plain_escape plainBinary, arguments, plain_escape plainConfig, environment,
    plain_escape plainState, closed, trust, run, Bool.and_self]

/-- Line ends are read in the paths only. -/
theorem normalizeNewlines_plistChars (role : Role) (policy : RestartPolicy) (pin : Option Pin)
    (binary config state : List Char) :
    Xml.normalizeNewlines (plistChars role policy pin binary config state) =
      plistChars role policy pin (Xml.normalizeNewlines binary) (Xml.normalizeNewlines config)
        (Xml.normalizeNewlines state) := by
  obtain ⟨declaration, head, arguments, environment, closed, run⟩ := plain_template role policy
  have comment : '\r' ∉ pin.elim [] commentChars := by
    cases pin with
    | none => exact List.not_mem_nil
    | some pin => exact return_notMem_of_plain (plain_comment pin)
  have trust : '\r' ∉ pin.elim [] fun pin => trustChars pin.uid := by
    cases pin with
    | none => exact List.not_mem_nil
    | some pin => exact return_notMem_of_plain (plain_trust pin.uid)
  have bracket : '<' ≠ '\n' ∧ '<' ≠ '\r' := by decide
  have last : Xml.normalizeNewlines ['\n'] = ['\n'] := rfl
  unfold plistChars
  simp only [List.append_assoc, List.cons_append]
  rw [Xml.normalizeNewlines_append (return_notMem_of_plain declaration),
    Xml.normalizeNewlines_append comment,
    Xml.normalizeNewlines_append (return_notMem_of_plain head),
    Xml.normalizeNewlines_escape bracket.1, Xml.normalizeNewlines_cons bracket.2,
    Xml.normalizeNewlines_append (return_notMem_of_plain arguments),
    Xml.normalizeNewlines_escape bracket.1, Xml.normalizeNewlines_cons bracket.2,
    Xml.normalizeNewlines_append (return_notMem_of_plain environment),
    Xml.normalizeNewlines_escape bracket.1, Xml.normalizeNewlines_cons bracket.2,
    Xml.normalizeNewlines_append (return_notMem_of_plain closed),
    Xml.normalizeNewlines_append trust,
    Xml.normalizeNewlines_append (return_notMem_of_plain run), last]

/-! ### The values -/

open PropertyList (Item items)

variable {lead : String} {chars : List Char} {next : Forest}

theorem items_line_key (blank : lead.toList.all Xml.isSpace = true) :
    items (line lead "key" chars next) = (items next).map (.key chars :: ·) := by
  unfold line leaf
  rw [PropertyList.items_text blank, PropertyList.items_key]

theorem items_line_string (blank : lead.toList.all Xml.isSpace = true) :
    items (line lead "string" chars next) = (items next).map (.value (.string chars) :: ·) := by
  unfold line leaf
  rw [PropertyList.items_text blank, PropertyList.items_string]

theorem blank_lead : "\n".toList.all Xml.isSpace = true ∧ "\n\t".toList.all Xml.isSpace = true ∧
    "\n\t\t".toList.all Xml.isSpace = true := by
  decide

theorem items_argumentNodes (role : Role) (binary config : List Char) :
    items (argumentNodes role binary config) = some ([.string binary, .string role.name.toList,
      .string "run".toList, .string "--config".toList, .string config].map .value) := by
  obtain ⟨-, tab, tabs⟩ := blank_lead
  unfold argumentNodes
  rw [items_line_string tabs, items_line_string tabs, items_line_string tabs,
    items_line_string tabs, items_line_string tabs, PropertyList.items_text tab]
  rfl

theorem items_environmentNodes (pin : Option Pin) (state : List Char) :
    items (environmentNodes pin state) = some (.key ENV_STATE_DIR.toList ::
      .value (.string state) :: pin.elim [] fun pin =>
        [.key ENV_TRUSTED_UID.toList, .value (.string pin.uid.toNat.repr.toList)]) := by
  obtain ⟨-, tab, tabs⟩ := blank_lead
  unfold environmentNodes
  rw [items_line_key tabs, items_line_string tabs]
  cases pin with
  | none =>
    dsimp only [Option.elim_none]
    rw [PropertyList.items_text tab]
    rfl
  | some pin =>
    dsimp only [Option.elim_some]
    rw [items_line_key tabs, items_line_string tabs, PropertyList.items_text tab]
    rfl

theorem items_runNodes (policy : RestartPolicy) :
    items (runNodes policy) = some (.key "RunAtLoad".toList :: .value (.boolean true) ::
      if policy.onFailure then [.key "KeepAlive".toList,
        .value (.dict [("SuccessfulExit".toList, .boolean false)])] else []) := by
  obtain ⟨newline, tab, tabs⟩ := blank_lead
  have inside : items (line "\n\t\t" "key" "SuccessfulExit".toList <|
      .text "\n\t\t".toList <| .element "false".toList .nil <| .text "\n\t".toList .nil) =
        some [.key "SuccessfulExit".toList, .value (.boolean false)] := by
    rw [items_line_key tabs, PropertyList.items_text tabs, PropertyList.items_false,
      PropertyList.items_text tab]
    rfl
  unfold runNodes
  rw [items_line_key tab, PropertyList.items_text tab, PropertyList.items_true]
  dsimp only
  cases policy.onFailure with
  | false =>
    rw [if_neg Bool.false_ne_true, if_neg Bool.false_ne_true, PropertyList.items_text newline]
    rfl
  | true =>
    rw [if_pos rfl, if_pos rfl, items_line_key tab, PropertyList.items_text tab,
      PropertyList.items_dict inside rfl, PropertyList.items_text newline]
    rfl

/-- The entries of the job. -/
theorem items_job (role : Role) (binary config state : String) (policy : RestartPolicy)
    (pin : Option Pin) :
    ∃ inner, PropertyList.entriesOf inner =
        some (jobEntries role binary config state policy pin) ∧
      items (line "\n\t" "key" "Label".toList <|
      line "\n\t" "string" (label role.name).toList <|
      line "\n\t" "key" "ProgramArguments".toList <|
      .text "\n\t".toList <| .element "array".toList
        (argumentNodes role binary.toList config.toList) <|
      line "\n\t" "key" "EnvironmentVariables".toList <|
      .text "\n\t".toList <| .element "dict".toList (environmentNodes pin state.toList) <|
      runNodes policy) = some inner := by
  obtain ⟨-, tab, -⟩ := blank_lead
  have paired : PropertyList.entriesOf (.key ENV_STATE_DIR.toList ::
      .value (.string state.toList) :: pin.elim [] fun pin =>
        [.key ENV_TRUSTED_UID.toList, .value (.string pin.uid.toNat.repr.toList)]) =
      some ((ENV_STATE_DIR.toList, .string state.toList) :: pin.elim [] fun pin =>
        [(ENV_TRUSTED_UID.toList, .string pin.uid.toNat.repr.toList)]) := by
    cases pin <;> rfl
  refine ⟨_, ?_, by
    rw [items_line_key tab, items_line_string tab, items_line_key tab, PropertyList.items_text tab,
      PropertyList.items_array (items_argumentNodes role binary.toList config.toList),
      items_line_key tab, PropertyList.items_text tab,
      PropertyList.items_dict (items_environmentNodes pin state.toList) paired,
      items_runNodes policy]
    rfl⟩
  unfold jobEntries
  cases policy.onFailure <;> rfl

/-- The value of the document. -/
theorem ofForest_tree (role : Role) (binary config state : String) (policy : RestartPolicy)
    (pin : Option Pin) :
    PropertyList.ofForest (tree role policy pin binary.toList config.toList state.toList) =
      some (.dict (jobEntries role binary config state policy pin)) := by
  obtain ⟨newline, -, -⟩ := blank_lead
  have named : Xml.nameOf "plist version=\"1.0\"".toList = "plist".toList := by decide
  obtain ⟨inner, paired, entries⟩ := items_job role binary config state policy pin
  have value : items (.text "\n".toList <| .element "dict".toList
      (line "\n\t" "key" "Label".toList <|
      line "\n\t" "string" (label role.name).toList <|
      line "\n\t" "key" "ProgramArguments".toList <|
      .text "\n\t".toList <| .element "array".toList
        (argumentNodes role binary.toList config.toList) <|
      line "\n\t" "key" "EnvironmentVariables".toList <|
      .text "\n\t".toList <| .element "dict".toList (environmentNodes pin state.toList) <|
      runNodes policy) <|
      .text "\n".toList .nil) =
        some [.value (.dict (jobEntries role binary config state policy pin))] := by
    rw [PropertyList.items_text newline, PropertyList.items_dict entries paired,
      PropertyList.items_text newline]
    rfl
  unfold PropertyList.ofForest tree
  cases pin <;>
  · simp only [Option.elim_none, Option.elim_some, pinComment, Xml.child, named, if_true,
      Option.bind_eq_bind, Option.bind_some, value]

/-- **What `format_plist_with` writes has the template's elements, keys and comment**, whatever the
paths are, before and after line ends are read; and it reads as the job where the paths are text
that XML can carry. -/
theorem plist_fidelity (role : Role) (binary config state : OsPath) (policy : RestartPolicy)
    (pin : Option Pin) :
    (∀ text ∈ [(formatPlistWith role.name binary config state policy pin).toList,
        Xml.normalizeNewlines (formatPlistWith role.name binary config state policy pin).toList],
      (Xml.markup text).map (Xml.outline ["key".toList]) = some (skeleton policy pin)) ∧
    ∀ binaryText configText stateText : String,
      binary = OsString.encode binaryText → config = OsString.encode configText →
      state = OsString.encode stateText →
      (∀ text ∈ [binaryText, configText, stateText], ∀ char ∈ text.toList,
        Xml.isXmlChar char = true ∧ char ≠ '\r') →
      PropertyList.read (formatPlistWith role.name binary config state policy pin) =
        some (.dict (jobEntries role binaryText configText stateText policy pin)) := by
  rw [formatPlistWith_toList]
  constructor
  · intro text isText
    rw [List.mem_cons, List.mem_singleton, normalizeNewlines_plistChars] at isText
    rcases isText with rfl | rfl <;>
    · rw [markup_plistChars, Option.map_some, outline_tree]
  · rintro binaryText configText stateText rfl rfl rfl allowed
    have plain (text : String) (member : text ∈ [binaryText, configText, stateText]) :
        text.toList.all isPlain = true := by
      refine List.all_eq_true.mpr fun char inText => ?_
      obtain ⟨isXml, notReturn⟩ := allowed text member char inText
      simp [isPlain, isXml, notReturn]
    have whole := plain_plistChars role policy pin (plain binaryText (by simp))
      (plain configText (by simp)) (plain stateText (by simp))
    have read := Xml.read_eq_markup
      (fun char member => (Bool.and_eq_true_iff.mp (List.all_eq_true.mp whole char member)).1)
      (return_notMem_of_plain whole)
    rw [PropertyList.read, formatPlistWith_toList]
    simp only [OsString.toStringLossy_encode, read, markup_plistChars, Option.bind_some,
      ofForest_tree]

/-- Paths with the characters that XML reads specially. -/
theorem plist_fidelity_of_markup :
    PropertyList.read (formatPlistWith Role.serve.name (OsString.encode "/opt/a & b/iroh-tunnel")
      (OsString.encode "/Users/a/</string>.toml") (OsString.encode "/Users/a/]]>&amp;") .DEFAULT
      (some { config := OsString.encode "/Users/a/--></string>.toml", uid := 501 })) =
        some (.dict (jobEntries .serve "/opt/a & b/iroh-tunnel" "/Users/a/</string>.toml"
          "/Users/a/]]>&amp;" .DEFAULT
          (some { config := OsString.encode "/Users/a/--></string>.toml", uid := 501 }))) := by
  have allowed : (["/opt/a & b/iroh-tunnel", "/Users/a/</string>.toml", "/Users/a/]]>&amp;"].all
      fun text => text.toList.all fun char => Xml.isXmlChar char && char != '\r') = true := by
    rfl
  refine (plist_fidelity .serve _ _ _ .DEFAULT _).2 "/opt/a & b/iroh-tunnel"
    "/Users/a/</string>.toml" "/Users/a/]]>&amp;" rfl rfl rfl fun text member char inText => ?_
  simpa using List.all_eq_true.mp (List.all_eq_true.mp allowed text member) char inText

end IrohTunnel.Service.Launchd
