/-
**Socket address text: splitting a text, and the literals of IPv4 and IPv6.**

Texts are lists of characters. An IPv4 literal has four octets without leading zeros. An IPv6
literal has eight groups of one to four hexadecimal digits, where one `::` may stand for one group
of zeros or more and the last two groups may be an IPv4 literal; there is no zone.

* `eq_of_splitOnce`, `splitOnce_char`, `eq_of_rsplitOnce`, `rsplitOnce_append` — the two splits;
* `colon_mem_of_isIpv6`, `isIpv6_chars` — the characters of an IPv6 literal.
-/

import IrohTunnel.Library.Text

namespace IrohTunnel.Library.Text

/-! ### Splits -/

/-- `str::split_once`: at the first occurrence of a pattern. -/
def splitOnce (pattern : List Char) : List Char → Option (List Char × List Char)
  | [] => if pattern = [] then some ([], []) else none
  | char :: rest =>
      if pattern.isPrefixOf (char :: rest) then some ([], (char :: rest).drop pattern.length)
      else (splitOnce pattern rest).map fun parts => (char :: parts.1, parts.2)

/-- `str::rsplit_once`, at the last occurrence of a character. -/
def rsplitOnce (sep : Char) : List Char → Option (List Char × List Char)
  | [] => none
  | char :: rest =>
      match rsplitOnce sep rest with
      | some parts => some (char :: parts.1, parts.2)
      | none => if char = sep then some ([], rest) else none

variable {pattern text front back : List Char} {char sep : Char}

theorem eq_of_splitOnce (split : splitOnce pattern text = some (front, back)) :
    text = front ++ pattern ++ back := by
  induction text generalizing front with
  | nil =>
    unfold splitOnce at split
    split at split
    · rename_i empty
      cases split
      rw [empty]
      rfl
    · cases split
  | cons first rest ih =>
    unfold splitOnce at split
    split at split
    · rename_i isPrefix
      cases split
      rw [List.nil_append, List.prefix_iff_eq_append.mp (List.isPrefixOf_iff_prefix.mp isPrefix)]
    · obtain ⟨parts, found, same⟩ := Option.map_eq_some_iff.mp split
      cases same
      rw [ih found]
      rfl

/-- The split at a pattern whose first character does not occur before it. -/
theorem splitOnce_char (pattern back : List Char) (free : char ∉ front) :
    splitOnce (char :: pattern) (front ++ (char :: pattern) ++ back) = some (front, back) := by
  induction front with
  | nil =>
    rw [List.nil_append, List.cons_append, splitOnce, if_pos]
    · exact congrArg (fun rest => some ([], rest)) List.drop_left
    · exact List.isPrefixOf_iff_prefix.mpr (List.prefix_append _ _)
  | cons first rest ih =>
    rw [List.mem_cons, not_or] at free
    rw [List.cons_append, List.cons_append, splitOnce, if_neg, ih free.2]
    · rfl
    · intro isPrefix
      exact free.1 (List.cons_prefix_cons.mp (List.isPrefixOf_iff_prefix.mp isPrefix)).1

theorem rsplitOnce_eq_none : rsplitOnce sep text = none ↔ sep ∉ text := by
  induction text with
  | nil => simp [rsplitOnce]
  | cons first rest ih =>
    cases split : rsplitOnce sep rest with
    | some parts =>
      have later : sep ∈ rest := by
        by_contra missing
        rw [ih.mpr missing] at split
        cases split
      simp [rsplitOnce, split, later]
    | none =>
      have missing := ih.mp split
      simp [rsplitOnce, split, missing, eq_comm]

theorem rsplitOnce_append (front : List Char) (free : sep ∉ back) :
    rsplitOnce sep (front ++ sep :: back) = some (front, back) := by
  induction front with
  | nil =>
    rw [List.nil_append, rsplitOnce, rsplitOnce_eq_none.mpr free]
    exact if_pos rfl
  | cons first rest ih => rw [List.cons_append, rsplitOnce, ih]

theorem eq_of_rsplitOnce (split : rsplitOnce sep text = some (front, back)) :
    text = front ++ sep :: back ∧ sep ∉ back := by
  induction text generalizing front back with
  | nil => cases split
  | cons first rest ih =>
    rw [rsplitOnce] at split
    cases later : rsplitOnce sep rest with
    | some parts =>
      rw [later] at split
      cases split
      obtain ⟨isRest, free⟩ := ih later
      exact ⟨congrArg (first :: ·) isRest, free⟩
    | none =>
      rw [later] at split
      simp only [] at split
      split at split
      · rename_i here
        cases split
        exact ⟨congrArg (· :: rest) here, rsplitOnce_eq_none.mp later⟩
      · cases split

/-! ### Literals -/

def isOctet (text : List Char) : Bool :=
  text ≠ [] && text.length ≤ 3 && text.all Char.isDigit &&
    (text.length = 1 || text.head? ≠ some '0') && digitsValue text ≤ 255

/-- `str::parse::<Ipv4Addr>`. -/
def isIpv4 (text : List Char) : Bool :=
  let octets := text.splitOn '.'
  octets.length = 4 && octets.all isOctet

/-- A hexadecimal digit of either case. -/
def isHexDigit (char : Char) : Bool :=
  char.isDigit || ('a' ≤ char && char ≤ 'f') || ('A' ≤ char && char ≤ 'F')

def isHexGroup (text : List Char) : Bool :=
  text ≠ [] && text.length ≤ 4 && text.all isHexDigit

/-- How many groups stand between colons, none in the empty text; the last may be an IPv4 literal
and counts twice. -/
def groupCount (ipv4 : Bool) (text : List Char) : Option Nat :=
  let parts := text.splitOn ':'
  if text = [] then some 0
  else if parts.all isHexGroup then some parts.length
  else if ipv4 && parts.dropLast.all isHexGroup && parts.getLast?.any isIpv4 then
    some (parts.length + 1)
  else none

/-- `str::parse::<Ipv6Addr>`. -/
def isIpv6 (text : List Char) : Bool :=
  match splitOnce [':', ':'] text with
  | none => groupCount true text == some 8
  | some (head, tail) =>
      match groupCount false head, groupCount true tail with
      | some first, some second => first + second ≤ 7
      | _, _ => false

example : ["::", "::1", "fe80::1", "2001:db8::ff00:42:8329", "1:2:3:4:5:6:7::",
    "1:2:3:4:5:6:1.2.3.4", "::ffff:10.0.0.1"].all (fun text => isIpv6 text.toList) = true := by
  decide

example : ["", ":", ":::", "1", "1::2::3", "12345::", "1:2:3:4:5:6:7:8::", "1.2.3.4::", "::1.2",
    "1:2:3:4:5:6::1.2.3.4", "::01.2.3.4", "fe80::1%eth0"].any
      (fun text => isIpv6 text.toList) = false := by
  decide

/-! ### The characters of a literal -/

/-- Every character is the separator or in a part. -/
theorem exists_of_mem_splitOn (sep : Char) {text : List Char} {char : Char} (member : char ∈ text) :
    char = sep ∨ ∃ part ∈ text.splitOn sep, char ∈ part := by
  induction text with
  | nil => cases member
  | cons first rest ih =>
    obtain ⟨head, tail, parts⟩ := List.exists_cons_of_ne_nil (List.splitOn_ne_nil sep rest)
    rw [List.splitOn_cons_eq_if_modifyHead, parts]
    rw [parts] at ih
    by_cases here : first = sep
    · rw [if_pos (beq_iff_eq.mpr here)]
      rcases List.mem_cons.mp member with rfl | later
      · exact .inl here
      · exact (ih later).imp_right fun ⟨part, isPart, inside⟩ =>
          ⟨part, List.mem_cons_of_mem _ isPart, inside⟩
    · rw [if_neg (mt beq_iff_eq.mp here), List.modifyHead_cons]
      rcases List.mem_cons.mp member with rfl | later
      · exact .inr ⟨_, List.mem_cons_self, List.mem_cons_self⟩
      · refine (ih later).imp_right fun ⟨part, isPart, inside⟩ => ?_
        rcases List.mem_cons.mp isPart with rfl | inTail
        · exact ⟨_, List.mem_cons_self, List.mem_cons_of_mem _ inside⟩
        · exact ⟨part, List.mem_cons_of_mem _ inTail, inside⟩

theorem isIpv4_chars {text : List Char} {char : Char} (literal : isIpv4 text = true)
    (member : char ∈ text) : char = '.' ∨ char.isDigit = true := by
  simp only [isIpv4, Bool.and_eq_true, List.all_eq_true] at literal
  refine (exists_of_mem_splitOn '.' member).imp_right fun ⟨part, isPart, inside⟩ => ?_
  have octet := literal.2 part isPart
  simp only [isOctet, Bool.and_eq_true, List.all_eq_true] at octet
  exact octet.1.1.2 char inside

/-- A character of an address literal. -/
def isAddressChar (char : Char) : Bool := isHexDigit char || char = ':' || char = '.'

theorem isHexGroup_chars {text : List Char} {char : Char} (group : isHexGroup text = true)
    (member : char ∈ text) : isAddressChar char = true := by
  simp only [isHexGroup, Bool.and_eq_true, List.all_eq_true] at group
  simp only [isAddressChar, group.2 char member, Bool.true_or]

theorem groupCount_chars {ipv4 : Bool} {text : List Char} {count : Nat} {char : Char}
    (counted : groupCount ipv4 text = some count) (member : char ∈ text) :
    isAddressChar char = true := by
  rcases exists_of_mem_splitOn ':' member with rfl | ⟨part, isPart, inside⟩
  · rfl
  · unfold groupCount at counted
    simp only [] at counted
    split at counted
    · rename_i empty
      rw [empty] at member
      cases member
    · split at counted
      · rename_i groups
        exact isHexGroup_chars (List.all_eq_true.mp groups part isPart) inside
      · split at counted
        · rename_i parts
          simp only [Bool.and_eq_true, List.all_eq_true] at parts
          obtain ⟨front, last, isParts⟩ := List.eq_nil_or_concat (text.splitOn ':') |>.resolve_left
            (List.splitOn_ne_nil _ _)
          rw [List.concat_eq_append] at isParts
          rw [isParts, List.dropLast_concat, List.getLast?_concat, Option.any_some] at parts
          rw [isParts] at isPart
          rcases List.mem_append.mp isPart with inFront | isLast
          · exact isHexGroup_chars (parts.1.2 part inFront) inside
          · rw [List.mem_singleton.mp isLast] at inside
            rcases isIpv4_chars parts.2 inside with rfl | digit
            · rfl
            · simp only [isAddressChar, isHexDigit, digit, Bool.true_or]
        · cases counted

theorem groupCount_lt_of_notMem {ipv4 : Bool} {text : List Char} {count : Nat}
    (free : ':' ∉ text) (counted : groupCount ipv4 text = some count) : count < 8 := by
  unfold groupCount at counted
  rw [List.splitOn_eq_singleton free] at counted
  simp only [List.length_singleton] at counted
  split at counted
  · cases counted
    decide
  · split at counted
    · cases counted
      decide
    · split at counted <;> cases counted
      decide

/-- An IPv6 literal has a colon. -/
theorem colon_mem_of_isIpv6 {text : List Char} (literal : isIpv6 text = true) : ':' ∈ text := by
  unfold isIpv6 at literal
  split at literal
  · by_contra free
    exact absurd (groupCount_lt_of_notMem free (beq_iff_eq.mp literal)) (by decide)
  · rename_i head tail split
    rw [eq_of_splitOnce split]
    simp

/-- An IPv6 literal has hexadecimal digits, colons and dots only. -/
theorem isIpv6_chars {text : List Char} {char : Char} (literal : isIpv6 text = true)
    (member : char ∈ text) : isAddressChar char = true := by
  unfold isIpv6 at literal
  split at literal
  · exact groupCount_chars (beq_iff_eq.mp literal) member
  · rename_i head tail split
    split at literal
    · rename_i first second countFirst countSecond
      rw [eq_of_splitOnce split] at member
      rcases List.mem_append.mp member with front | inTail
      · rcases List.mem_append.mp front with inHead | colons
        · exact groupCount_chars countFirst inHead
        · simp only [List.mem_cons, List.not_mem_nil, or_false, or_self] at colons
          rw [colons]
          rfl
      · exact groupCount_chars countSecond inTail
    · cases literal

end IrohTunnel.Library.Text
