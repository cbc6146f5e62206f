/-
**The pin of a registration: whose files a service that runs as root may trust.**
-/

import Mathlib.Algebra.Group.Nat.Defs
import IrohTunnel.Config.Dto
import IrohTunnel.Library.Text
import IrohTunnel.Service.Types

namespace IrohTunnel.Service

open IrohTunnel.Library
open IrohTunnel.Config (isWhitespace)

/-- What a registration pins: the config file and the uid of the user it belongs to. -/
structure Pin where
  config : OsPath
  uid : UInt32
  deriving DecidableEq, Repr

/-- Consent to retarget, valid only against the registration it was given for; its pin is `none`
for one without. -/
structure RetargetConsent where
  previous : Option Pin
  proposed : Pin
  deriving DecidableEq, Repr

namespace Pin

def KEY : String := "iroh-tunnel-pin"

/-- An upper case hexadecimal digit. -/
def hexDigit (value : Nat) : Char :=
  Char.ofNat (if value < 10 then 48 + value else 55 + value)

/-- The escape of one byte: itself in `[A-Za-z0-9/._]`, else `%XX`. -/
def escapeByte (byte : UInt8) : List Char :=
  let char := Char.ofNat byte.toNat
  if char.isAlphanum ∨ char = '/' ∨ char = '.' ∨ char = '_' then [char]
  else ['%', hexDigit (byte.toNat / 16), hexDigit (byte.toNat % 16)]

def escape (path : OsPath) : String := String.ofList (path.flatMap escapeByte)

/-- The record text, without comment delimiters. -/
def record (pin : Pin) : String := s!"{KEY} config={escape pin.config} uid={pin.uid}"

/-- The value of a hexadecimal digit. -/
def hexValue (char : Char) : Option Nat :=
  if '0' ≤ char ∧ char ≤ '9' then some (char.toNat - 48)
  else if 'a' ≤ char ∧ char ≤ 'f' then some (char.toNat - 87)
  else if 'A' ≤ char ∧ char ≤ 'F' then some (char.toNat - 55)
  else none

/-- `u8::from_str_radix(_, 16)` of two characters; a plus sign may stand first. -/
def hexByte (first second : Char) : Option UInt8 :=
  if first = '+' then (hexValue second).map UInt8.ofNat
  else do
    let high ← hexValue first
    let low ← hexValue second
    return UInt8.ofNat (16 * high + low)

def unescape : List Char → Option OsPath
  | [] => some []
  | '%' :: first :: second :: rest => do
      let byte ← hexByte first second
      let others ← unescape rest
      return byte :: others
  | '%' :: _ => none
  | char :: rest => (unescape rest).map (String.utf8EncodeChar char ++ ·)

/-- What the fields of a record give, the later ones first. -/
def readField (found : Option OsPath × Option UInt32) (word : List Char) :
    Option OsPath × Option UInt32 :=
  let field := Text.trimEndMatches "-->".toList word
  match Text.stripPrefix "config=".toList field with
  | some value => (unescape value, found.2)
  | none =>
      match Text.stripPrefix "uid=".toList field with
      | some value => (found.1, (Text.parseUnsigned (2 ^ 32) value).map UInt32.ofNat)
      | none => found

/-- Whether a line is a comment that starts with the key. -/
def isRecord (line : List Char) : Bool :=
  ["# ", "<!-- "].any fun marker =>
    (Text.stripPrefix marker.toList (Text.trimStart isWhitespace line)).any KEY.toList.isPrefixOf

/-- Find and decode the record inside a registration body; `none` when the body has no record or
the record is malformed. -/
def find (body : String) : Option Pin := do
  let line ← (Text.lines body.toList).find? isRecord
  let rest ← Text.afterFirst KEY.toList line
  let (config, uid) := (Text.splitWhitespace isWhitespace rest).foldl readField (none, none)
  return { config := ← config, uid := ← uid }

end Pin

end IrohTunnel.Service
