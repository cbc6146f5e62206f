/-
**XML documents, as far as generated ones need them.**

A document is scanned character by character into pieces, and the pieces are nested into elements.
A document type's own declarations, CDATA sections, numbered characters and entities other than the
predefined ones have no reading here and leave the whole document unread. Attributes are kept as
they stand in their tag.

* `run_append` — a text is scanned piece by piece;
* `run_escape` — escaped text is scanned as the text, whatever it is;
* `read_eq_markup` — reading only checks the characters of a document without carriage returns.
-/

import IrohTunnel.Library.Text

namespace IrohTunnel.Library.Xml

/-! ### Characters -/

/-- The characters that a document may hold. -/
def isXmlChar (char : Char) : Bool :=
  char == '\t' || char == '\n' || char == '\r' || (0x20 ≤ char.toNat && char.toNat ≤ 0xD7FF) ||
    (0xE000 ≤ char.toNat && char.toNat ≤ 0xFFFD) || 0x10000 ≤ char.toNat

def isSpace (char : Char) : Bool := char == ' ' || char == '\t' || char == '\n' || char == '\r'

/-- A carriage return, with the line feed after it if there is one, is read as a line feed. -/
def normalizeNewlines : List Char → List Char
  | [] => []
  | '\r' :: '\n' :: rest => '\n' :: normalizeNewlines rest
  | '\r' :: rest => '\n' :: normalizeNewlines rest
  | char :: rest => char :: normalizeNewlines rest

/-- The predefined entities. -/
def entity (name : List Char) : Option Char :=
  if name = ['a', 'm', 'p'] then some '&'
  else if name = ['l', 't'] then some '<'
  else if name = ['g', 't'] then some '>'
  else if name = ['q', 'u', 'o', 't'] then some '"'
  else if name = ['a', 'p', 'o', 's'] then some '\''
  else none

def isNameStart (char : Char) : Bool := char.isAlpha || char == '_' || char == ':'

def isNameChar (char : Char) : Bool :=
  isNameStart char || char.isDigit || char == '-' || char == '.'

def isName : List Char → Bool
  | [] => false
  | first :: rest => isNameStart first && rest.all isNameChar

/-! ### Tokens -/

/-- A piece of a document. A tag is what stands between its angle brackets, the slash of an empty
element apart. -/
inductive Token
  | text (chars : List Char)
  | comment (chars : List Char)
  | instruction (chars : List Char)
  | doctype (chars : List Char)
  | start (tag : List Char)
  | empty (tag : List Char)
  | finish (name : List Char)
  deriving DecidableEq, Repr

/-- The element's name in a tag. -/
def nameOf (tag : List Char) : List Char := tag.takeWhile fun char => !isSpace char

/-- Where a scan stands; what was read of the piece is reversed. -/
inductive State
  | text (reversed : List Char)
  | reference (reversed name : List Char)
  | opened
  | declaration (reversed : List Char)
  | comment (reversed : List Char) (dashes : Nat)
  | instruction (reversed : List Char)
  | doctype (reversed : List Char) (quote : Option Char)
  | tag (reversed : List Char) (quote : Option Char)
  | closing (reversed : List Char)
  deriving DecidableEq, Repr

/-- The quote that a character opens or closes. -/
def quoteStep (quote : Option Char) (char : Char) : Option Char :=
  match quote with
  | some open_ => if char = open_ then none else some open_
  | none => if char = '"' ∨ char = '\'' then some char else none

/-- The token of a tag that has ended. -/
def endTag (reversed : List Char) : Option Token :=
  match reversed with
  | '/' :: others =>
      let tag := others.reverse
      if isName (nameOf tag) then some (.empty tag) else none
  | reversed =>
      let tag := reversed.reverse
      if isName (nameOf tag) then some (.start tag) else none

/-- One character of a document: the new state and the piece that it ends. -/
def step : State → Char → Option (State × Option Token)
  | .text reversed, char =>
      if char = '<' then some (.opened, some (.text reversed.reverse))
      else if char = '&' then some (.reference reversed [], none)
      else if char = '>' ∧ reversed.take 2 = [']', ']'] then none
      else some (.text (char :: reversed), none)
  | .reference reversed name, char =>
      if char = ';' then (entity name.reverse).map fun meant => (.text (meant :: reversed), none)
      else some (.reference reversed (char :: name), none)
  | .opened, char =>
      if char = '/' then some (.closing [], none)
      else if char = '?' then some (.instruction [], none)
      else if char = '!' then some (.declaration [], none)
      else some (.tag [char] none, none)
  | .declaration reversed, char =>
      let word := (char :: reversed).reverse
      if word = ['-', '-'] then some (.comment [] 0, none)
      else if word = ['D', 'O', 'C', 'T', 'Y', 'P', 'E'] then some (.doctype [] none, none)
      else some (.declaration (char :: reversed), none)
  | .comment reversed dashes, char =>
      if dashes = 2 then
        if char = '>' then some (.text [], some (.comment reversed.reverse)) else none
      else if char = '-' then some (.comment reversed (dashes + 1), none)
      else some (.comment (char :: (List.replicate dashes '-' ++ reversed)) 0, none)
  | .instruction reversed, char =>
      if char = '>' ∧ reversed.head? = some '?' then
        some (.text [], some (.instruction reversed.tail.reverse))
      else some (.instruction (char :: reversed), none)
  | .doctype reversed quote, char =>
      if quote = none ∧ char = '>' then some (.text [], some (.doctype reversed.reverse))
      else if quote = none ∧ (char = '[' ∨ char = '<') then none
      else some (.doctype (char :: reversed) (quoteStep quote char), none)
  | .tag reversed quote, char =>
      if quote = none ∧ char = '>' then
        (endTag reversed).map fun token => (.text [], some token)
      else if char = '<' then none
      else some (.tag (char :: reversed) (quoteStep quote char), none)
  | .closing reversed, char =>
      if char = '>' then some (.text [], some (.finish (nameOf reversed.reverse)))
      else if char = '<' then none
      else some (.closing (char :: reversed), none)

/-- The pieces of a text, and where the scan of it ends. -/
def run : State → List Char → Option (List Token × State)
  | state, [] => some ([], state)
  | state, char :: rest =>
      (step state char).bind fun stepped =>
        (run stepped.1 rest).map fun scanned => (stepped.2.toList ++ scanned.1, scanned.2)

/-! ### Elements -/

/-- What stands one after another; an element has what stands in it. -/
inductive Forest
  | nil
  | text (chars : List Char) (next : Forest)
  | comment (chars : List Char) (next : Forest)
  | instruction (chars : List Char) (next : Forest)
  | doctype (chars : List Char) (next : Forest)
  | element (tag : List Char) (children next : Forest)
  deriving DecidableEq, Repr

/-- The elements that end after a place, innermost first: the name of each and what stands after
it. -/
abbrev Stack := List (List Char × Forest)

/-- A piece before what is nested already. -/
def nest : Token → Forest × Stack → Option (Forest × Stack)
  | .text chars, (next, stack) => some (.text chars next, stack)
  | .comment chars, (next, stack) => some (.comment chars next, stack)
  | .instruction chars, (next, stack) => some (.instruction chars next, stack)
  | .doctype chars, (next, stack) => some (.doctype chars next, stack)
  | .empty tag, (next, stack) => some (.element tag .nil next, stack)
  | .finish name, (next, stack) => some (.nil, (name, next) :: stack)
  | .start _, (_, []) => none
  | .start tag, (children, (name, next) :: stack) =>
      if nameOf tag = name then some (.element tag children next, stack) else none

/-- The elements of a list of pieces. -/
def nestAll (tokens : List Token) : Option (Forest × Stack) :=
  tokens.foldr (fun token nested => nested.bind (nest token)) (some (.nil, []))

/-- What may follow at the top of a document. -/
inductive Stage
  | start | prolog | typed | done
  deriving DecidableEq, Repr

/-- Declarations of the document type stand at its top only. -/
def noDoctype : Forest → Bool
  | .nil => true
  | .text _ next => noDoctype next
  | .comment _ next => noDoctype next
  | .instruction chars next => nameOf chars != ['x', 'm', 'l'] && noDoctype next
  | .doctype _ _ => false
  | .element _ children next => noDoctype children && noDoctype next

/-- One element, after the declarations and among blanks and comments. -/
def isDocument : Stage → Forest → Bool
  | stage, .nil => stage == .done
  | stage, .text chars next =>
      chars.all isSpace && isDocument (if stage = .start ∧ chars ≠ [] then .prolog else stage) next
  | stage, .comment _ next => isDocument (if stage = .start then .prolog else stage) next
  | stage, .instruction chars next =>
      (stage == .start || nameOf chars != ['x', 'm', 'l']) &&
        isDocument (if stage = .start then .prolog else stage) next
  | stage, .doctype _ next => (stage == .start || stage == .prolog) && isDocument .typed next
  | stage, .element _ children next =>
      stage != .done && noDoctype children && isDocument .done next

/-- The document that a text is, whatever characters it holds. -/
def markup (text : List Char) : Option Forest :=
  match run (.text []) text with
  | some (tokens, .text reversed) =>
      match nestAll (tokens ++ [.text reversed.reverse]) with
      | some (forest, []) => if isDocument .start forest then some forest else none
      | _ => none
  | _ => none

/-- The document that a text is. -/
def read (text : List Char) : Option Forest :=
  if text.all isXmlChar then markup (normalizeNewlines text) else none

/-! ### Parts of a document -/

/-- The text of an element's content without elements in it. -/
def textOf : Forest → Option (List Char)
  | .nil => some []
  | .text chars next => (textOf next).map (chars ++ ·)
  | .comment _ next => textOf next
  | .instruction _ next => textOf next
  | .doctype _ _ => none
  | .element _ _ _ => none

/-- The structure of a document: everything but the text outside the elements that `keeps`
names. -/
def outline (keeps : List (List Char)) : Forest → Forest
  | .nil => .nil
  | .text _ next => outline keeps next
  | .comment chars next => .comment chars (outline keeps next)
  | .instruction chars next => .instruction chars (outline keeps next)
  | .doctype chars next => .doctype chars (outline keeps next)
  | .element tag children next =>
      .element tag (if nameOf tag ∈ keeps then children else outline keeps children)
        (outline keeps next)

/-- The content of the first element of this name. -/
def child (name : List Char) : Forest → Option Forest
  | .nil => none
  | .text _ next => child name next
  | .comment _ next => child name next
  | .instruction _ next => child name next
  | .doctype _ next => child name next
  | .element tag children next => if nameOf tag = name then some children else child name next

/-- The text of the element that these names lead to. -/
def textAt : List (List Char) → Forest → Option (List Char)
  | [], content => textOf content
  | name :: names, content => (child name content).bind (textAt names)

/-- An element with a text, and one after the blanks before it. -/
def leaf (name : String) (chars : List Char) (next : Forest) : Forest :=
  .element name.toList (.text chars .nil) next

def line (lead name : String) (chars : List Char) (next : Forest) : Forest :=
  .text lead.toList (leaf name chars next)

/-- The pieces of a line: a tag after the blanks before it, or an element with a text. -/
def opening (lead tag : String) : List Token := [.text lead.toList, .start tag.toList]

def closing (lead name : String) : List Token := [.text lead.toList, .finish name.toList]

def emptied (lead tag : String) : List Token := [.text lead.toList, .empty tag.toList]

def leafTokens (lead name : String) (chars : List Char) : List Token :=
  [.text lead.toList, .start name.toList, .text chars, .finish name.toList]

/-! ### Scanning piece by piece -/

theorem run_cons (state : State) (char : Char) (rest : List Char) :
    run state (char :: rest) = (step state char).bind fun stepped =>
      (run stepped.1 rest).map fun scanned => (stepped.2.toList ++ scanned.1, scanned.2) := rfl

theorem step_text (reversed : List Char) (char : Char) :
    step (.text reversed) char =
      if char = '<' then some (.opened, some (.text reversed.reverse))
      else if char = '&' then some (.reference reversed [], none)
      else if char = '>' ∧ reversed.take 2 = [']', ']'] then none
      else some (.text (char :: reversed), none) := rfl

/-- A character of a comment after no dash. -/
theorem step_comment (reversed : List Char) (char : Char) :
    step (.comment reversed 0) char =
      if char = '-' then some (.comment reversed 1, none)
      else some (.comment (char :: reversed) 0, none) := rfl

theorem run_append (state : State) (front back : List Char) :
    run state (front ++ back) = (run state front).bind fun scanned =>
      (run scanned.2 back).map fun others => (scanned.1 ++ others.1, others.2) := by
  induction front generalizing state with
  | nil =>
    show run state back = (run state back).map fun others => ([] ++ others.1, others.2)
    cases run state back <;> rfl
  | cons char rest ih =>
    rw [List.cons_append, run_cons, run_cons]
    cases step state char with
    | none => rfl
    | some stepped =>
      simp only [Option.bind_some, ih]
      cases run stepped.1 rest with
      | none => rfl
      | some scanned =>
        simp only [Option.bind_some, Option.map_some]
        cases run scanned.2 back with
        | none => rfl
        | some others => simp only [Option.map_some, List.append_assoc]

/-- Two pieces of a text. -/
theorem run_append_of {state middle last : State} {front back : List Char}
    {tokens others : List Token} (first : run state front = some (tokens, middle))
    (second : run middle back = some (others, last)) :
    run state (front ++ back) = some (tokens ++ others, last) := by
  rw [run_append, first, Option.bind_some, second, Option.map_some]

theorem run_of_step {state next : State} {char : Char} (rest : List Char)
    (stepped : step state char = some (next, none)) :
    run state (char :: rest) = run next rest := by
  rw [run_cons, stepped, Option.bind_some]
  cases run next rest <;> rfl

/-- An angle bracket ends a text. -/
theorem run_opened {last : State} {tokens : List Token} {rest : List Char}
    (scanned : run .opened rest = some (tokens, last)) (reversed : List Char) :
    run (.text reversed) ('<' :: rest) = some (.text reversed.reverse :: tokens, last) := by
  rw [run_cons, step_text, if_pos rfl, Option.bind_some, scanned]
  rfl

/-- Characters that are no markup. -/
theorem run_plain {text : List Char} (plain : ∀ char ∈ text, char ≠ '<' ∧ char ≠ '&' ∧ char ≠ '>')
    (reversed : List Char) :
    run (.text reversed) text = some ([], .text (text.reverse ++ reversed)) := by
  induction text generalizing reversed with
  | nil => rfl
  | cons char rest ih =>
    obtain ⟨⟨less, and, greater⟩, later⟩ := List.forall_mem_cons.mp plain
    have stepped : step (.text reversed) char = some (.text (char :: reversed), none) := by
      rw [step_text, if_neg less, if_neg and, if_neg fun both => greater both.1]
    rw [run_of_step rest stepped, ih later, List.reverse_cons, List.append_assoc,
      List.singleton_append]

/-- Characters of a comment. -/
theorem run_comment {text : List Char} (plain : '-' ∉ text) (reversed : List Char) :
    run (.comment reversed 0) text = some ([], .comment (text.reverse ++ reversed) 0) := by
  induction text generalizing reversed with
  | nil => rfl
  | cons char rest ih =>
    obtain ⟨dash, later⟩ := not_or.mp (mt List.mem_cons.mpr plain)
    have stepped : step (.comment reversed 0) char =
        some (.comment (char :: reversed) 0, none) := by
      rw [step_comment, if_neg (Ne.symm dash)]
    rw [run_of_step rest stepped, ih later, List.reverse_cons, List.append_assoc,
      List.singleton_append]

/-! ### Escaped text -/

/-- The escape of one character of an element's text. -/
def escapeChar (char : Char) : List Char :=
  if char = '&' then ['&', 'a', 'm', 'p', ';']
  else if char = '<' then ['&', 'l', 't', ';']
  else if char = '>' then ['&', 'g', 't', ';']
  else [char]

/-- The replacements one after another, the ampersand first. -/
def escape (text : List Char) : List Char :=
  Text.replaceChar '>' ['&', 'g', 't', ';'] (Text.replaceChar '<' ['&', 'l', 't', ';']
    (Text.replaceChar '&' ['&', 'a', 'm', 'p', ';'] text))

/-- They are one escape of each character. -/
theorem escape_eq_flatMap (text : List Char) : escape text = text.flatMap escapeChar := by
  induction text with
  | nil => rfl
  | cons char rest ih =>
    rw [List.flatMap_cons, ← ih]
    by_cases and : char = '&'
    · subst and
      simp [escape, Text.replaceChar, escapeChar]
    · by_cases less : char = '<'
      · subst less
        simp [escape, Text.replaceChar, escapeChar]
      · by_cases greater : char = '>'
        · subst greater
          simp [escape, Text.replaceChar, escapeChar]
        · simp [escape, Text.replaceChar, escapeChar, and, less, greater]

theorem run_escapeChar (char : Char) (reversed : List Char) :
    run (.text reversed) (escapeChar char) = some ([], .text (char :: reversed)) := by
  by_cases and : char = '&'
  · subst and
    rfl
  · by_cases less : char = '<'
    · subst less
      rfl
    · by_cases greater : char = '>'
      · subst greater
        rfl
      · rw [escapeChar, if_neg and, if_neg less, if_neg greater]
        exact run_plain (by simpa using ⟨less, and, greater⟩) reversed

/-- **Escaped text is scanned as the text**, whatever it is. -/
theorem run_escape (text reversed : List Char) :
    run (.text reversed) (escape text) = some ([], .text (text.reverse ++ reversed)) := by
  rw [escape_eq_flatMap]
  induction text generalizing reversed with
  | nil => rfl
  | cons char rest ih =>
    rw [List.flatMap_cons, run_append_of (run_escapeChar char reversed) (ih (char :: reversed)),
      List.reverse_cons, List.append_assoc, List.singleton_append]
    rfl

/-- Text without markup is its own escape. -/
theorem escape_of_plain {text : List Char}
    (plain : ∀ char ∈ text, char ≠ '<' ∧ char ≠ '&' ∧ char ≠ '>') : escape text = text := by
  rw [escape_eq_flatMap]
  induction text with
  | nil => rfl
  | cons char rest ih =>
    obtain ⟨⟨less, and, greater⟩, later⟩ := List.forall_mem_cons.mp plain
    rw [List.flatMap_cons, ih later, escapeChar, if_neg and, if_neg less, if_neg greater]
    rfl

/-- The pieces of an element with an escaped text. -/
theorem run_leaf {lead name : String}
    (opened : run (.text []) (lead.toList ++ '<' :: name.toList ++ ['>']) =
      some (opening lead name, .text []))
    (closed : run .opened ('/' :: name.toList ++ ['>']) = some ([.finish name.toList], .text []))
    (text : List Char) :
    run (.text []) (lead.toList ++ '<' :: name.toList ++ '>' :: escape text ++
      '<' :: '/' :: name.toList ++ ['>']) = some (leafTokens lead name text, .text []) := by
  have parts : lead.toList ++ '<' :: name.toList ++ '>' :: escape text ++
      '<' :: '/' :: name.toList ++ ['>'] = lead.toList ++ '<' :: name.toList ++ ['>'] ++
        escape text ++ '<' :: ('/' :: name.toList ++ ['>']) := by
    simp only [List.append_assoc, List.cons_append, List.nil_append]
  rw [parts, run_append_of (run_append_of opened (run_escape text [])) (run_opened closed _),
    List.append_nil, List.append_nil, List.reverse_reverse]
  rfl

theorem mem_escape {text : List Char} {char : Char} (member : char ∈ escape text) :
    char ∈ text ∨ char ∈ ['&', 'a', 'm', 'p', ';', 'l', 't', 'g'] := by
  rw [escape_eq_flatMap] at member
  obtain ⟨original, inText, inEscape⟩ := List.mem_flatMap.mp member
  unfold escapeChar at inEscape
  simp only [List.mem_cons, List.not_mem_nil, or_false]
  split at inEscape
  · right
    simp only [List.mem_cons, List.not_mem_nil, or_false] at inEscape
    tauto
  · split at inEscape
    · right
      simp only [List.mem_cons, List.not_mem_nil, or_false] at inEscape
      tauto
    · split at inEscape
      · right
        simp only [List.mem_cons, List.not_mem_nil, or_false] at inEscape
        tauto
      · left
        rwa [List.mem_singleton.mp inEscape]

/-! ### Line ends -/

theorem normalizeNewlines_cons {char : Char} (other : char ≠ '\r') (rest : List Char) :
    normalizeNewlines (char :: rest) = char :: normalizeNewlines rest := by
  rw [normalizeNewlines]
  · exact fun _ same _ => other same
  · exact other

/-- A carriage return without a line feed behind it. -/
theorem normalizeNewlines_return {rest : List Char} (single : ∀ others, rest ≠ '\n' :: others) :
    normalizeNewlines ('\r' :: rest) = '\n' :: normalizeNewlines rest := by
  rw [normalizeNewlines]
  exact single

/-- A text without carriage returns keeps its line ends. -/
theorem normalizeNewlines_append {text : List Char} (noReturn : '\r' ∉ text) (rest : List Char) :
    normalizeNewlines (text ++ rest) = text ++ normalizeNewlines rest := by
  induction text with
  | nil => rfl
  | cons char others ih =>
    obtain ⟨other, later⟩ := not_or.mp (mt List.mem_cons.mpr noReturn)
    rw [List.cons_append, normalizeNewlines_cons (Ne.symm other), ih later]
    rfl

theorem normalizeNewlines_of_notMem {text : List Char} (noReturn : '\r' ∉ text) :
    normalizeNewlines text = text := by
  have whole := normalizeNewlines_append noReturn []
  rw [List.append_nil] at whole
  exact whole.trans (List.append_nil text)

/-- Line ends are read the same before and after escaping. -/
theorem normalizeNewlines_escape {next : Char} (other : next ≠ '\n') (text rest : List Char) :
    normalizeNewlines (escape text ++ next :: rest) =
      escape (normalizeNewlines text) ++ normalizeNewlines (next :: rest) := by
  rw [escape_eq_flatMap, escape_eq_flatMap]
  induction text using normalizeNewlines.induct with
  | case1 => rfl
  | case2 tail ih =>
    show '\n' :: normalizeNewlines (tail.flatMap escapeChar ++ next :: rest) = _
    rw [ih]
    rfl
  | case3 tail single ih =>
    have starts : normalizeNewlines (('\r' :: tail).flatMap escapeChar ++ next :: rest) =
        '\n' :: normalizeNewlines (tail.flatMap escapeChar ++ next :: rest) := by
      show normalizeNewlines ('\r' :: (tail.flatMap escapeChar ++ next :: rest)) = _
      refine normalizeNewlines_return fun others same => ?_
      cases tail with
      | nil => exact other (List.cons.inj same).1
      | cons char tail =>
        have notNewline : char ≠ '\n' := fun newline => single tail (newline ▸ rfl)
        have head : ((char :: tail).flatMap escapeChar ++ next :: rest).head? ≠ some '\n' := by
          rw [List.flatMap_cons]
          unfold escapeChar
          split
          · simp
          · split
            · simp
            · split
              · simp
              · simpa using notNewline
        exact head (by rw [same]; rfl)
    rw [starts, ih, normalizeNewlines_return single]
    rfl
  | case4 char tail pair single ih =>
    have noReturn : '\r' ∉ escapeChar char := by
      unfold escapeChar
      split
      · decide
      · split
        · decide
        · split
          · decide
          · exact fun member => single (List.mem_singleton.mp member).symm
    rw [List.flatMap_cons, List.append_assoc, normalizeNewlines_append noReturn, ih,
      normalizeNewlines_cons single, List.flatMap_cons, List.append_assoc]

/-- Reading only checks the characters of a document without carriage returns. -/
theorem read_eq_markup {text : List Char} (allowed : ∀ char ∈ text, isXmlChar char = true)
    (noReturn : '\r' ∉ text) : read text = markup text := by
  rw [read, if_pos (List.all_eq_true.mpr allowed), normalizeNewlines_of_notMem noReturn]

/-! ### Documents -/

theorem markup_of_run {text reversed : List Char} {tokens : List Token} {forest : Forest}
    (scanned : run (.text []) text = some (tokens, .text reversed))
    (nested : nestAll (tokens ++ [.text reversed.reverse]) = some (forest, []))
    (document : isDocument .start forest = true) : markup text = some forest := by
  unfold markup
  rw [scanned]
  dsimp only
  rw [nested]
  dsimp only
  rw [if_pos document]

end IrohTunnel.Library.Xml
