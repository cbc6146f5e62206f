/-
**The record of a pin: what its writer and its reader agree on.**

* `unescape_escape` — a path is read back from its escape;
* `readRecord_of_after` — a pin is read back from its record, whatever closes the comment;
* `find_eq` — the first line that starts as a record is the one that is read.
-/

import IrohTunnel.Library.TextLines
import IrohTunnel.Service.Pin

namespace IrohTunnel.Service

open IrohTunnel.Library
open IrohTunnel.Config (isWhitespace)

namespace Pin

/-! ### The record -/

/-- What the escape of a byte is made of, and what it is read back as. -/
theorem escapeByte_spec (byte : UInt8) :
    ((escapeByte byte).all fun char => !isWhitespace char && char != '>' && char != '-') = true ∧
      ((∃ char, escapeByte byte = [char] ∧ char ≠ '%' ∧ String.utf8EncodeChar char = [byte]) ∨
        ∃ high low, escapeByte byte = ['%', high, low] ∧ hexByte high low = some byte) := by
  have spec : ∀ value < 256, ((escapeByte (UInt8.ofNat value)).all fun char =>
      !isWhitespace char && char != '>' && char != '-') = true ∧
      ((escapeByte (UInt8.ofNat value) = [Char.ofNat value] ∧ Char.ofNat value ≠ '%' ∧
          String.utf8EncodeChar (Char.ofNat value) = [UInt8.ofNat value]) ∨
        (escapeByte (UInt8.ofNat value) = ['%', hexDigit (value / 16), hexDigit (value % 16)] ∧
          hexByte (hexDigit (value / 16)) (hexDigit (value % 16)) = some (UInt8.ofNat value))) := by
    decide +kernel
  obtain ⟨safe, kept | escaped⟩ := spec byte.toNat byte.toNat_lt
  · rw [UInt8.ofNat_toNat] at safe kept
    exact ⟨safe, .inl ⟨_, kept⟩⟩
  · rw [UInt8.ofNat_toNat] at safe escaped
    exact ⟨safe, .inr ⟨_, _, escaped⟩⟩

theorem safe_of_mem_escape {path : OsPath} {char : Char}
    (member : char ∈ path.flatMap escapeByte) :
    isWhitespace char = false ∧ char ≠ '>' ∧ char ≠ '-' := by
  obtain ⟨byte, -, inByte⟩ := List.mem_flatMap.mp member
  have safe := List.all_eq_true.mp (escapeByte_spec byte).1 char inByte
  simpa [and_assoc] using safe

theorem unescape_escape (path : OsPath) : unescape (path.flatMap escapeByte) = some path := by
  induction path with
  | nil => rfl
  | cons byte rest ih =>
    rw [List.flatMap_cons]
    rcases (escapeByte_spec byte).2 with ⟨char, kept, plain, encoded⟩ | ⟨high, low, escaped, read⟩
    · rw [kept, List.singleton_append, unescape, ih, encoded]
      · rfl
      · exact fun _ _ _ same _ => plain same
      · exact fun same => plain same
    · rw [escaped]
      show unescape ('%' :: high :: low :: rest.flatMap escapeByte) = _
      rw [unescape, read, ih]
      rfl

/-- The record, character by character. -/
theorem record_toList (pin : Pin) :
    pin.record.toList = KEY.toList ++ (' ' :: ("config=".toList ++ pin.config.flatMap escapeByte ++
      ' ' :: ("uid=".toList ++ pin.uid.toNat.repr.toList))) := by
  have text : pin.record = KEY ++ " config=" ++ escape pin.config ++ " uid=" ++
      pin.uid.toNat.repr := rfl
  have config : " config=".toList = ' ' :: "config=".toList := by decide
  have uid : " uid=".toList = ' ' :: "uid=".toList := by decide
  rw [text]
  simp only [String.toList_append, config, uid, escape, String.toList_ofList, List.append_assoc,
    List.cons_append]

/-- What `find` does with the line that it finds. -/
def readRecord (line : List Char) : Option Pin := do
  let rest ← Text.afterFirst KEY.toList line
  let (config, uid) := (Text.splitWhitespace isWhitespace rest).foldl readField (none, none)
  return { config := ← config, uid := ← uid }

theorem find_eq (body : String) :
    find body = ((Text.lines body.toList).find? isRecord).bind readRecord := by
  unfold find
  cases (Text.lines body.toList).find? isRecord <;> rfl

/-- The words of a record. -/
def words (pin : Pin) : List (List Char) :=
  ["config=".toList ++ pin.config.flatMap escapeByte, "uid=".toList ++ pin.uid.toNat.repr.toList]

theorem safe_of_mem_words {pin : Pin} {word : List Char} (member : word ∈ pin.words) {char : Char}
    (inWord : char ∈ word) : isWhitespace char = false ∧ char ≠ '>' := by
  have config : ("config=".toList.all fun char => !isWhitespace char && char != '>') = true := by
    decide
  have uid : ("uid=".toList.all fun char => !isWhitespace char && char != '>') = true := by decide
  have blank : ∀ char : Char, char.isDigit = true → isWhitespace char = false ∧ char ≠ '>' := by
    intro char digit
    obtain ⟨low, high⟩ : 48 ≤ char.toNat ∧ char.toNat ≤ 57 := by
      simpa [Char.isDigit, Char.le_def, UInt32.le_iff_toNat_le] using digit
    refine ⟨?_, fun same => absurd (same ▸ high) (by decide)⟩
    unfold isWhitespace
    simp
    omega
  simp only [words, List.mem_cons, List.not_mem_nil, or_false] at member
  rcases member with rfl | rfl
  · rcases List.mem_append.mp inWord with key | value
    · simpa using List.all_eq_true.mp config char key
    · exact ⟨(safe_of_mem_escape value).1, (safe_of_mem_escape value).2.1⟩
  · rcases List.mem_append.mp inWord with key | value
    · simpa using List.all_eq_true.mp uid char key
    · exact blank char (Text.isDigit_of_mem_repr value)

theorem readField_words (pin : Pin) :
    pin.words.foldl readField (none, none) = (some pin.config, some pin.uid) := by
  have whole (word : List Char) (member : word ∈ pin.words) :
      Text.trimEndMatches "-->".toList word = word :=
    Text.trimEndMatches_of_notMem (show '>' ∈ "-->".toList by decide) fun inWord =>
      (safe_of_mem_words member inWord).2 rfl
  have config : readField (none, none) ("config=".toList ++ pin.config.flatMap escapeByte) =
      (some pin.config, none) := by
    have value : Text.stripPrefix "config=".toList
        ("config=".toList ++ pin.config.flatMap escapeByte) =
          some (pin.config.flatMap escapeByte) := rfl
    unfold readField
    rw [whole _ (List.mem_cons_self ..)]
    dsimp only
    rw [value]
    exact congrArg (·, none) (unescape_escape pin.config)
  have uid : readField (some pin.config, none) ("uid=".toList ++ pin.uid.toNat.repr.toList) =
      (some pin.config, some pin.uid) := by
    have notConfig : Text.stripPrefix "config=".toList
        ("uid=".toList ++ pin.uid.toNat.repr.toList) = none := rfl
    have value : Text.stripPrefix "uid=".toList ("uid=".toList ++ pin.uid.toNat.repr.toList) =
        some pin.uid.toNat.repr.toList := rfl
    unfold readField
    rw [whole _ (List.mem_cons_of_mem _ (List.mem_cons_self ..))]
    dsimp only
    rw [notConfig]
    dsimp only
    rw [value]
    dsimp only
    rw [Text.parseUnsigned_repr pin.uid.toNat_lt, Option.map_some, UInt32.ofNat_toNat]
  rw [words, List.foldl_cons, config, List.foldl_cons, uid]
  rfl

/-- The fields of a record, whatever closes the comment. -/
theorem readRecord_of_after {line back : List Char} {pin : Pin}
    (after : Text.afterFirst KEY.toList line =
      some (' ' :: ("config=".toList ++ pin.config.flatMap escapeByte ++
        ' ' :: ("uid=".toList ++ pin.uid.toNat.repr.toList ++ back))))
    (closes : back = [] ∨ back = " -->".toList) : readRecord line = some pin := by
  have config : "config=".toList ++ pin.config.flatMap escapeByte ≠ [] :=
    List.append_ne_nil_of_left_ne_nil (by decide) _
  have uid : "uid=".toList ++ pin.uid.toNat.repr.toList ≠ [] :=
    List.append_ne_nil_of_left_ne_nil (by decide) _
  have configBlank : ∀ char ∈ "config=".toList ++ pin.config.flatMap escapeByte,
      isWhitespace char = false := fun _ inWord =>
    (safe_of_mem_words (List.mem_cons_self ..) inWord).1
  have uidBlank : ∀ char ∈ "uid=".toList ++ pin.uid.toNat.repr.toList,
      isWhitespace char = false := fun _ inWord =>
    (safe_of_mem_words (List.mem_cons_of_mem _ (List.mem_cons_self ..)) inWord).1
  have closing : readField (some pin.config, some pin.uid) "-->".toList =
      (some pin.config, some pin.uid) := rfl
  have fields : (Text.splitWhitespace isWhitespace (' ' ::
      ("config=".toList ++ pin.config.flatMap escapeByte ++
        ' ' :: ("uid=".toList ++ pin.uid.toNat.repr.toList ++ back)))).foldl
          readField (none, none) =
      (some pin.config, some pin.uid) := by
    rw [Text.splitWhitespace_blank (by decide),
      Text.splitWhitespace_cons config configBlank (by decide)]
    rcases closes with rfl | rfl
    · rw [List.append_nil, Text.splitWhitespace_of_noSpace uid uidBlank]
      exact readField_words pin
    · have blank : " -->".toList = ' ' :: "-->".toList := by decide
      have last : Text.splitWhitespace isWhitespace "-->".toList = ["-->".toList] := by decide
      rw [blank, Text.splitWhitespace_cons uid uidBlank (by decide), last]
      show (pin.words ++ ["-->".toList]).foldl readField (none, none) = _
      rw [List.foldl_append, readField_words]
      exact closing
  unfold readRecord
  simp only [after, Option.bind_eq_bind, Option.bind_some, fields]
  rfl

/-! ### The line of a record -/

theorem newline_notMem_record (pin : Pin) : '\n' ∉ pin.record.toList := by
  have label : '\n' ∉ KEY.toList ∧ '\n' ∉ "config=".toList ∧ '\n' ∉ "uid=".toList := by decide
  have config : '\n' ∉ pin.config.flatMap escapeByte := fun member =>
    absurd (safe_of_mem_escape member).1 (by decide)
  have uid : '\n' ∉ pin.uid.toNat.repr.toList := fun member =>
    absurd (Text.isDigit_of_mem_repr member) (by decide)
  rw [record_toList]
  simp only [List.mem_append, List.mem_cons, not_or]
  exact ⟨label.1, by decide, ⟨label.2.1, config⟩, by decide, label.2.2, uid⟩

/-- The record line of a shell script or a unit. -/
theorem lines_hash (pin : Pin) :
    ∃ line, Text.lines ((s!"# {pin.record}").toList ++ ['\n']) = [line] ∧ isRecord line = true ∧
      readRecord line = some pin := by
  have text : (s!"# {pin.record}").toList = '#' :: ' ' :: pin.record.toList := by
    simp [toString]
  have oneLine : '\n' ∉ '#' :: ' ' :: pin.record.toList := by
    simp [newline_notMem_record pin]
  have ending : ('#' :: ' ' :: pin.record.toList).getLast? ≠ some '\r' := by
    intro last
    have split : '#' :: ' ' :: pin.record.toList = ('#' :: ' ' :: (KEY.toList ++
        (' ' :: ("config=".toList ++ pin.config.flatMap escapeByte ++ ' ' :: "uid=".toList)))) ++
          pin.uid.toNat.repr.toList := by
      rw [record_toList]
      simp only [List.cons_append, List.append_assoc]
    rw [split, List.getLast?_append_of_ne_nil _
      (by rw [Nat.toList_repr]; exact Nat.toDigits_ne_nil)]
      at last
    exact absurd (Text.isDigit_of_mem_repr (List.mem_of_getLast? last)) (by decide)
  refine ⟨'#' :: ' ' :: pin.record.toList, ?_, ?_, ?_⟩
  · rw [text, Text.lines_of_oneLine oneLine ending]
  · rw [record_toList]
    rfl
  · refine @readRecord_of_after _ [] pin ?_ (.inl rfl)
    rw [record_toList, List.append_nil]
    rfl

/-- The record line of a property list. -/
theorem lines_comment (pin : Pin) :
    ∃ line, Text.lines ((s!"<!-- {pin.record} -->").toList ++ ['\n']) = [line] ∧
      isRecord line = true ∧ readRecord line = some pin := by
  have text : (s!"<!-- {pin.record} -->").toList =
      "<!-- ".toList ++ pin.record.toList ++ " -->".toList := by
    have parts : s!"<!-- {pin.record} -->" = "<!-- " ++ pin.record ++ " -->" := rfl
    rw [parts, String.toList_append, String.toList_append]
  have oneLine : '\n' ∉ "<!-- ".toList ++ pin.record.toList ++ " -->".toList := by
    simp [newline_notMem_record pin]
  have ending : ("<!-- ".toList ++ pin.record.toList ++ " -->".toList).getLast? ≠ some '\r' := by
    rw [List.getLast?_append_of_ne_nil _ (by decide)]
    decide
  refine ⟨"<!-- ".toList ++ pin.record.toList ++ " -->".toList, ?_, ?_, ?_⟩
  · rw [text, Text.lines_of_oneLine oneLine ending]
  · rw [record_toList]
    rfl
  · refine @readRecord_of_after _ " -->".toList pin ?_ (.inr rfl)
    rw [record_toList]
    simp only [List.append_assoc, List.cons_append]
    rfl

end Pin

end IrohTunnel.Service
