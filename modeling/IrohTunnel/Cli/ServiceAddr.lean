/-
**`parse_service_addr`: the address of `--target` and `--listen`, and how it is displayed.**

The port goes through `str::parse`, which takes a plus sign before the digits; the guard of the bare
port does not let one through, the two other forms do.

* `Written` — the grammar;
* `parseServiceAddr_iff` — what the parser accepts;
* `grammar_iff` — the parser follows the grammar exactly where no plus sign opens the port;
* `display_round_trip` — what is displayed parses to the same address.
-/

import IrohTunnel.Access.Dialers
import IrohTunnel.Config.Commands
import IrohTunnel.Library.Addresses
import IrohTunnel.Library.TextLines

namespace IrohTunnel.Cli

open IrohTunnel.Library.Text
open IrohTunnel.Config (displayAddr)
open IrohTunnel.Access (formatLocalAddr)

/-! ### The parser -/

/-- A local address; without a host, the default one is meant. -/
structure ServiceAddr where
  host : Option String
  port : UInt16
  nonzero : port ≠ 0
  deriving DecidableEq, Repr

/-- `parse_port`: `str::parse::<NonZeroU16>`. -/
def parsePort (text : List Char) : Except String { port : UInt16 // port ≠ 0 } :=
  let invalid := s!"invalid port '{String.ofList text}': expected a number from 1 to 65535"
  match parseUnsigned 65536 text with
  | none => .error invalid
  | some value =>
      if nonzero : UInt16.ofNat value ≠ 0 then .ok ⟨UInt16.ofNat value, nonzero⟩
      else .error invalid

def isHostChar (char : Char) : Bool := char.isAlphanum || char == '.' || char == '-'

/-- `parse_service_addr`: `PORT`, `HOST:PORT` or `[IPV6]:PORT`. -/
def parseServiceAddr (s : String) : Except String ServiceAddr :=
  let text := s.toList
  let bad {α : Type} : Except String α := .error
    s!"invalid address '{s}': expected PORT, HOST:PORT or [IPV6]:PORT (port 1-65535)"
  if text ≠ [] ∧ text.all Char.isDigit then
    (parsePort text).map fun port => ⟨none, port.1, port.2⟩
  else
    match stripPrefix ['['] text with
    | some rest =>
        match splitOnce [']', ':'] rest with
        | none => bad
        | some (inside, port) =>
            if isIpv6 inside then
              (parsePort port).map fun port => ⟨some (String.ofList inside), port.1, port.2⟩
            else bad
    | none =>
        match rsplitOnce ':' text with
        | none => bad
        | some (host, port) =>
            if host ≠ [] ∧ ':' ∉ host ∧ (isIpv4 host ∨ host.all isHostChar) then
              (parsePort port).map fun port => ⟨some (String.ofList host), port.1, port.2⟩
            else bad

/-! ### The grammar -/

/-- A port in decimal digits; a `u16` that is not zero lies between 1 and 65535. -/
abbrev IsPort (digits : List Char) (port : UInt16) : Prop := IsDecimal digits port.toNat

/-- The addresses of the grammar, and what each one says. -/
inductive Written : List Char → ServiceAddr → Prop
  | port {digits : List Char} {port : UInt16} (nonzero : port ≠ 0) (isPort : IsPort digits port) :
      Written digits ⟨none, port, nonzero⟩
  | host {host digits : List Char} {port : UInt16} (nonempty : host ≠ [])
      (chars : ∀ char ∈ host, isHostChar char = true) (nonzero : port ≠ 0)
      (isPort : IsPort digits port) :
      Written (host ++ ':' :: digits) ⟨some (String.ofList host), port, nonzero⟩
  | ipv6 {inside digits : List Char} {port : UInt16} (literal : isIpv6 inside = true)
      (nonzero : port ≠ 0) (isPort : IsPort digits port) :
      Written ('[' :: inside ++ ']' :: ':' :: digits) ⟨some (String.ofList inside), port, nonzero⟩

/-- An address of the grammar with a plus sign between a colon and its port. -/
def PlusPort (text : List Char) (addr : ServiceAddr) : Prop :=
  ∃ front digits, text = front ++ ':' :: '+' :: digits ∧ IsPort digits addr.port ∧
    Written (front ++ ':' :: digits) addr

/-! ### Ports -/

variable {text digits host inside : List Char} {port : UInt16} {addr : ServiceAddr} {s : String}

/-- A port parses from its digits, and from its digits after a plus sign. -/
theorem parsePort_iff {nonzero : port ≠ 0} :
    parsePort text = .ok ⟨port, nonzero⟩ ↔
      IsPort text port ∨ ∃ digits, text = '+' :: digits ∧ IsPort digits port := by
  have parses : parsePort text = .ok ⟨port, nonzero⟩ ↔
      parseUnsigned 65536 text = some port.toNat := by
    unfold parsePort
    cases parsed : parseUnsigned 65536 text with
    | none => simp
    | some value =>
      have below := (parseUnsigned_eq_some.mp parsed).1
      have same : UInt16.ofNat value = port ↔ value = port.toNat := by
        rw [← UInt16.toNat_inj, UInt16.toNat_ofNat_of_lt' below]
      simp only [Option.some_inj]
      split
      · rw [Except.ok.injEq, Subtype.mk.injEq, same]
      · rename_i zero
        rw [not_not] at zero
        refine iff_of_false (fun failed => by cases failed) fun equal => nonzero ?_
        rw [← same.mpr equal, zero]
  rw [parses, parseUnsigned_eq_some]
  exact and_iff_right port.toNat_lt

theorem colon_free (isPort : IsPort digits port) : ':' ∉ digits := fun member =>
  absurd (isPort.all ':' member) (by decide)

/-! ### What the parser accepts -/

theorem map_parsePort_iff {host : Option String} :
    (parsePort text).map (fun port => (⟨host, port.1, port.2⟩ : ServiceAddr)) = .ok addr ↔
      addr.host = host ∧
        (IsPort text addr.port ∨ ∃ digits, text = '+' :: digits ∧ IsPort digits addr.port) := by
  obtain ⟨itsHost, itsPort, nonzero⟩ := addr
  rw [← @parsePort_iff text itsPort nonzero]
  cases parsePort text with
  | error error => simp [Except.map]
  | ok port =>
    obtain ⟨port, nonzero⟩ := port
    simp only [Except.map, Except.ok.injEq, ServiceAddr.mk.injEq, Subtype.mk.injEq, eq_comm]

theorem hostChar_of_isIpv4 (literal : isIpv4 host = true) :
    ∀ char ∈ host, isHostChar char = true := by
  intro char member
  rcases isIpv4_chars literal member with rfl | digit
  · rfl
  · simp [isHostChar, Char.isAlphanum, digit]

theorem ne_of_isHostChar {char other : Char} (isHost : isHostChar char = true)
    (special : isHostChar other = false) : char ≠ other := fun same => by
  rw [same, special] at isHost
  cases isHost

/-- The bare port. -/
theorem parseServiceAddr_digits (nonempty : s.toList ≠ [])
    (digits : ∀ char ∈ s.toList, char.isDigit = true) :
    parseServiceAddr s = (parsePort s.toList).map fun port => ⟨none, port.1, port.2⟩ :=
  if_pos ⟨nonempty, List.all_eq_true.mpr digits⟩

theorem not_digits {char : Char} (member : char ∈ s.toList) (special : char.isDigit = false) :
    ¬ (s.toList ≠ [] ∧ s.toList.all Char.isDigit) := fun digits =>
  absurd (List.all_eq_true.mp digits.2 char member) (special ▸ Bool.false_ne_true)

/-- The form with a host. -/
theorem parseServiceAddr_host (is : s.toList = host ++ ':' :: text) (nonempty : host ≠ [])
    (chars : ∀ char ∈ host, isHostChar char = true) (free : ':' ∉ text) :
    parseServiceAddr s =
      (parsePort text).map fun port => ⟨some (String.ofList host), port.1, port.2⟩ := by
  have noBracket : stripPrefix ['['] s.toList = none := by
    rw [stripPrefix_singleton, is, if_neg]
    obtain ⟨first, rest, rfl⟩ := List.exists_cons_of_ne_nil nonempty
    intro bracket
    exact ne_of_isHostChar (chars first List.mem_cons_self) rfl (Option.some.inj bracket)
  have noColon : ':' ∉ host := fun member => ne_of_isHostChar (chars ':' member) rfl rfl
  have colon : ':' ∈ s.toList := is ▸ List.mem_append_right _ List.mem_cons_self
  unfold parseServiceAddr
  rw [if_neg (not_digits colon rfl), noBracket]
  simp only [is, rsplitOnce_append host free]
  exact if_pos ⟨nonempty, noColon, .inr (List.all_eq_true.mpr chars)⟩

/-- The form with an IPv6 literal. -/
theorem parseServiceAddr_ipv6 (is : s.toList = '[' :: inside ++ ']' :: ':' :: text)
    (literal : isIpv6 inside = true) :
    parseServiceAddr s =
      (parsePort text).map fun port => ⟨some (String.ofList inside), port.1, port.2⟩ := by
  have bracket : stripPrefix ['['] s.toList = some (inside ++ [']', ':'] ++ text) := by
    rw [stripPrefix_singleton, is]
    simp
  have free : ']' ∉ inside := fun member => absurd (isIpv6_chars literal member) (by decide)
  have opens : '[' ∈ s.toList := is ▸ List.mem_append_left _ List.mem_cons_self
  unfold parseServiceAddr
  rw [if_neg (not_digits opens rfl), bracket]
  simp only [splitOnce_char [':'] text free]
  exact if_pos literal

/-- The two ways to write a port after a colon. -/
theorem written_or_plus {front : List Char} (is : s.toList = front ++ ':' :: text)
    (port : IsPort text addr.port ∨ ∃ digits, text = '+' :: digits ∧ IsPort digits addr.port)
    (form : ∀ digits, IsPort digits addr.port → Written (front ++ ':' :: digits) addr) :
    Written s.toList addr ∨ PlusPort s.toList addr := by
  rcases port with plain | ⟨digits, rfl, plus⟩
  · exact .inl (is ▸ form text plain)
  · exact .inr ⟨front, digits, is, plus, form digits plus⟩

theorem written_of_parse (parsed : parseServiceAddr s = .ok addr) :
    Written s.toList addr ∨ PlusPort s.toList addr := by
  obtain ⟨itsHost, itsPort, nonzero⟩ := addr
  unfold parseServiceAddr at parsed
  simp only [] at parsed
  by_cases bare : s.toList ≠ [] ∧ s.toList.all Char.isDigit
  · rw [if_pos bare] at parsed
    obtain ⟨rfl, plain | ⟨digits, is, _⟩⟩ := map_parsePort_iff.mp parsed
    · exact .inl (.port nonzero plain)
    · have sign : '+' ∈ s.toList := is ▸ List.mem_cons_self
      exact absurd (List.all_eq_true.mp bare.2 '+' sign) (by decide)
  · rw [if_neg bare, stripPrefix_singleton] at parsed
    by_cases bracket : s.toList.head? = some '['
    · obtain ⟨rest, is⟩ := List.head?_eq_some_iff.mp bracket
      rw [if_pos bracket, is, List.tail_cons] at parsed
      simp only [] at parsed
      split at parsed
      · cases parsed
      · rename_i inside text split
        split at parsed
        · rename_i literal
          obtain ⟨rfl, port⟩ := map_parsePort_iff.mp parsed
          have isText : s.toList = ('[' :: inside ++ [']']) ++ ':' :: text := by
            rw [is, eq_of_splitOnce split]
            simp
          refine written_or_plus isText port fun digits isPort => ?_
          have form := Written.ipv6 literal nonzero isPort
          simpa using form
        · cases parsed
    · rw [if_neg bracket] at parsed
      simp only [] at parsed
      split at parsed
      · cases parsed
      · rename_i host text split
        split at parsed
        · rename_i isHost
          obtain ⟨rfl, port⟩ := map_parsePort_iff.mp parsed
          refine written_or_plus (eq_of_rsplitOnce split).1 port fun digits isPort => ?_
          refine Written.host isHost.1 ?_ nonzero isPort
          exact isHost.2.2.elim hostChar_of_isIpv4 fun all => List.all_eq_true.mp all
        · cases parsed

/-- What follows the last colon of an address of the grammar is its port. -/
theorem Written.cases_colon {front : List Char} (isPort : IsPort digits addr.port)
    (written : Written (front ++ ':' :: digits) addr) :
    (front ≠ [] ∧ (∀ char ∈ front, isHostChar char = true) ∧
      addr.host = some (String.ofList front)) ∨
    ∃ inside, front = '[' :: inside ++ [']'] ∧ isIpv6 inside = true ∧
      addr.host = some (String.ofList inside) := by
  have split := rsplitOnce_append front (colon_free isPort)
  generalize is : front ++ ':' :: digits = text at written split
  cases written with
  | port nonzero bare =>
    have colon : ':' ∈ text := is ▸ List.mem_append_right _ List.mem_cons_self
    exact absurd colon (colon_free bare)
  | host nonempty chars nonzero itsPort =>
    rw [rsplitOnce_append _ (colon_free itsPort)] at split
    cases split
    exact .inl ⟨nonempty, chars, rfl⟩
  | @ipv6 inside others port literal nonzero itsPort =>
    rw [show '[' :: inside ++ ']' :: ':' :: others = ('[' :: inside ++ [']']) ++ ':' :: others by
      simp, rsplitOnce_append _ (colon_free itsPort)] at split
    cases split
    exact .inr ⟨inside, rfl, literal, rfl⟩

/-- An address of the grammar parses, with a plus sign before its port or without. -/
theorem parse_of_written {front : List Char} (isPort : IsPort digits addr.port)
    (written : Written (front ++ ':' :: digits) addr) (free : ':' ∉ text)
    (port : IsPort text addr.port ∨ ∃ digits, text = '+' :: digits ∧ IsPort digits addr.port)
    (is : s.toList = front ++ ':' :: text) : parseServiceAddr s = .ok addr := by
  rcases written.cases_colon isPort with ⟨nonempty, chars, isHost⟩ | ⟨inside, rfl, literal, isHost⟩
  · rw [parseServiceAddr_host is nonempty chars free]
    exact map_parsePort_iff.mpr ⟨isHost, port⟩
  · rw [parseServiceAddr_ipv6 (by simpa using is) literal]
    exact map_parsePort_iff.mpr ⟨isHost, port⟩

/-- **What the parser accepts.** The addresses of the grammar, and those with a plus sign before a
port that follows a colon. -/
theorem parseServiceAddr_iff :
    parseServiceAddr s = .ok addr ↔ Written s.toList addr ∨ PlusPort s.toList addr := by
  refine ⟨written_of_parse, ?_⟩
  rintro (written | ⟨front, digits, is, isPort, written⟩)
  · generalize is : s.toList = text at written
    cases written with
    | port nonzero isPort =>
      rw [parseServiceAddr_digits (is ▸ isPort.nonempty) (is ▸ isPort.all), is]
      exact map_parsePort_iff.mpr ⟨rfl, .inl isPort⟩
    | host nonempty chars nonzero isPort =>
      exact parse_of_written isPort (.host nonempty chars nonzero isPort) (colon_free isPort)
        (.inl isPort) is
    | @ipv6 inside digits port literal nonzero isPort =>
      have written : Written (('[' :: inside ++ [']']) ++ ':' :: digits)
          ⟨some (String.ofList inside), port, nonzero⟩ := by
        simpa using Written.ipv6 literal nonzero isPort
      exact parse_of_written isPort written (colon_free isPort) (.inl isPort) (by simpa using is)
  · refine parse_of_written isPort written ?_ (.inr ⟨digits, rfl, isPort⟩) is
    rw [List.mem_cons, not_or]
    exact ⟨by decide, colon_free isPort⟩

/-! ### The grammar, exactly -/

theorem plus_free (written : Written text addr) : '+' ∉ text := by
  have digitsFree {digits : List Char} (isPort : IsPort digits addr.port) : '+' ∉ digits :=
    fun member => absurd (isPort.all '+' member) (by decide)
  intro member
  cases written with
  | port nonzero isPort => exact digitsFree isPort member
  | host nonempty chars nonzero isPort =>
    rcases List.mem_append.mp member with inHost | rest
    · exact ne_of_isHostChar (chars '+' inHost) rfl rfl
    · exact digitsFree isPort ((List.mem_cons.mp rest).resolve_left (by decide))
  | ipv6 literal nonzero isPort =>
    simp only [List.cons_append, List.mem_cons, List.mem_append] at member
    rcases member with bracket | inside | close | colon | rest
    · exact absurd bracket (by decide)
    · exact absurd (isIpv6_chars literal inside) (by decide)
    · exact absurd close (by decide)
    · exact absurd colon (by decide)
    · exact digitsFree isPort rest

/-- **The parser and its grammar.** The parser accepts exactly the addresses of the grammar, each as
it is written, unless the text is one of them with a plus sign between a colon and the port. -/
theorem grammar_iff (s : String) :
    (∀ addr, parseServiceAddr s = .ok addr ↔ Written s.toList addr) ↔
      ¬ ∃ addr, PlusPort s.toList addr := by
  constructor
  · rintro exact ⟨addr, plus⟩
    have written := (exact addr).mp (parseServiceAddr_iff.mpr (.inr plus))
    obtain ⟨front, digits, is, _, _⟩ := plus
    refine plus_free written (is ▸ ?_)
    simp
  · intro unsigned addr
    rw [parseServiceAddr_iff]
    exact or_iff_left fun plus => unsigned ⟨addr, plus⟩

/-- `host:+80` is taken for port 80. -/
theorem plus_accepted :
    ¬ ∀ addr, parseServiceAddr "host:+80" = .ok addr ↔ Written "host:+80".toList addr := by
  intro exact
  have parsed : parseServiceAddr "host:+80" = .ok ⟨some "host", 80, by decide⟩ := by rfl
  exact plus_free ((exact _).mp parsed) (by decide)

/-! ### Displayed addresses -/

/-- A host that the parser gives is a name or an IPv6 literal. -/
theorem host_of_parse {host : String} (parsed : parseServiceAddr s = .ok addr)
    (isHost : addr.host = some host) :
    (host.toList ≠ [] ∧ ∀ char ∈ host.toList, isHostChar char = true) ∨
      isIpv6 host.toList = true := by
  have ofWritten {text : List Char} (written : Written text addr) :
      (host.toList ≠ [] ∧ ∀ char ∈ host.toList, isHostChar char = true) ∨
        isIpv6 host.toList = true := by
    cases written with
    | port => cases isHost
    | host nonempty chars =>
      rw [← Option.some.inj isHost, String.toList_ofList]
      exact .inl ⟨nonempty, chars⟩
    | ipv6 literal =>
      rw [← Option.some.inj isHost, String.toList_ofList]
      exact .inr literal
  rcases parseServiceAddr_iff.mp parsed with written | ⟨front, digits, _, _, written⟩
  · exact ofWritten written
  · exact ofWritten written

/-- The characters of a displayed address. -/
theorem displayAddr_toList (host : String) (port : UInt16) :
    (displayAddr host port).toList =
      if ':' ∈ host.toList then '[' :: host.toList ++ ']' :: ':' :: port.toNat.repr.toList
      else host.toList ++ ':' :: port.toNat.repr.toList := by
  unfold displayAddr
  by_cases colon : ':' ∈ host.toList
  · rw [if_pos colon, if_pos colon,
      show s!"[{host}]:{port}" = "[" ++ host ++ "]:" ++ port.toNat.repr from rfl]
    simp [String.toList_append]
  · rw [if_neg colon, if_neg colon,
      show s!"{host}:{port}" = host ++ ":" ++ port.toNat.repr from rfl]
    simp [String.toList_append]

theorem parse_display {host : String} (parsed : parseServiceAddr s = .ok addr)
    (isHost : addr.host = some host) :
    parseServiceAddr (displayAddr host addr.port) = .ok addr := by
  have isPort : IsPort addr.port.toNat.repr.toList addr.port := isDecimal_repr _
  have same : addr = ⟨some (String.ofList host.toList), addr.port, addr.nonzero⟩ := by
    rw [String.ofList_toList, ← isHost]
  refine parseServiceAddr_iff.mpr (.inl ?_)
  rw [displayAddr_toList]
  rcases host_of_parse parsed isHost with ⟨nonempty, chars⟩ | literal
  · have noColon : ':' ∉ host.toList := fun member => ne_of_isHostChar (chars ':' member) rfl rfl
    rw [if_neg noColon, same]
    exact .host nonempty chars addr.nonzero isPort
  · rw [if_pos (colon_mem_of_isIpv6 literal), same]
    exact .ipv6 literal addr.nonzero isPort

/-- **Displayed addresses.** An address with a host that was parsed is parsed again from what either
renderer makes of it, and no two such addresses are rendered the same. -/
theorem display_round_trip (s : String) (addr : ServiceAddr) (host : String)
    (parsed : parseServiceAddr s = .ok addr) (isHost : addr.host = some host) :
    parseServiceAddr (displayAddr host addr.port) = .ok addr ∧
      parseServiceAddr (formatLocalAddr host addr.port) = .ok addr ∧
      ∀ (other : String) (otherAddr : ServiceAddr) (otherHost : String),
        parseServiceAddr other = .ok otherAddr → otherAddr.host = some otherHost →
          displayAddr host addr.port = displayAddr otherHost otherAddr.port ∨
            formatLocalAddr host addr.port = formatLocalAddr otherHost otherAddr.port →
          addr = otherAddr := by
  have shown := parse_display parsed isHost
  refine ⟨shown, shown, fun other otherAddr otherHost otherParsed isOtherHost same => ?_⟩
  have displays : displayAddr host addr.port = displayAddr otherHost otherAddr.port :=
    same.elim id id
  rw [displays, parse_display otherParsed isOtherHost] at shown
  exact (Except.ok.inj shown).symm

theorem display_round_trip_ipv6 :
    parseServiceAddr "[fe80::1]:8080" = .ok ⟨some "fe80::1", 8080, by decide⟩ ∧
      (parseServiceAddr (displayAddr "fe80::1" 8080) = .ok ⟨some "fe80::1", 8080, by decide⟩ ∧
      parseServiceAddr (formatLocalAddr "fe80::1" 8080) = .ok ⟨some "fe80::1", 8080, by decide⟩ ∧
      ∀ (other : String) (otherAddr : ServiceAddr) (otherHost : String),
        parseServiceAddr other = .ok otherAddr → otherAddr.host = some otherHost →
          displayAddr "fe80::1" 8080 = displayAddr otherHost otherAddr.port ∨
            formatLocalAddr "fe80::1" 8080 = formatLocalAddr otherHost otherAddr.port →
          ⟨some "fe80::1", 8080, by decide⟩ = otherAddr) := by
  have parsed : parseServiceAddr "[fe80::1]:8080" = .ok ⟨some "fe80::1", 8080, by decide⟩ := by rfl
  exact ⟨parsed, display_round_trip "[fe80::1]:8080" ⟨some "fe80::1", 8080, by decide⟩ "fe80::1"
    parsed rfl⟩

end IrohTunnel.Cli
