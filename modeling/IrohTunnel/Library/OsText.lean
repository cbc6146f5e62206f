/-
**Text of the operating system: byte strings, their lossy reading, and Unix paths.**

* `toStringLossy_encode` — a text's own bytes are read back as the text;
* `namesOf_pathName` — the names of an absolute path without `..`, as the system resolves it, are
  its normal components.
-/

import IrohTunnel.Library.UnixFiles

namespace IrohTunnel.Library

/-- `OsString` on Unix: any bytes. -/
abbrev OsString := List UInt8

namespace OsString

/-- The UTF-8 bytes of a text. -/
def encode (text : String) : OsString := text.toList.flatMap String.utf8EncodeChar

def isContinuation (byte : UInt8) : Bool := 0x80 ≤ byte && byte < 0xC0

/-- How many bytes of an ill-formed start one replacement character stands for: the longest start of
a well-formed sequence, at least one byte. -/
def invalidLength : OsString → Nat
  | first :: second :: rest =>
      let secondFits :=
        if first = 0xE0 then 0xA0 ≤ second && second < 0xC0
        else if first = 0xED then 0x80 ≤ second && second < 0xA0
        else if first = 0xF0 then 0x90 ≤ second && second < 0xC0
        else if first = 0xF4 then 0x80 ≤ second && second < 0x90
        else 0xE0 < first && first < 0xF4 && isContinuation second
      if secondFits then
        if 0xF0 ≤ first && (rest.head?.any isContinuation) then 3 else 2
      else 1
  | _ => 1

/-- The characters of `String::from_utf8_lossy`, with at most as many steps as `fuel`. -/
def lossyChars : Nat → OsString → List Char
  | 0, _ => []
  | _, [] => []
  | fuel + 1, bytes =>
      match bytes.toByteArray.utf8DecodeChar? 0 with
      | some char => char :: lossyChars fuel (bytes.drop char.utf8Size)
      | none => '\uFFFD' :: lossyChars fuel (bytes.drop (invalidLength bytes))

/-- `String::from_utf8_lossy`. -/
def toStringLossy (bytes : OsString) : String := String.ofList (lossyChars bytes.length bytes)

theorem lossyChars_flatMap (chars : List Char) {fuel : Nat} (enough : chars.length ≤ fuel) :
    lossyChars fuel (chars.flatMap String.utf8EncodeChar) = chars := by
  induction chars generalizing fuel with
  | nil => cases fuel <;> rfl
  | cons char rest ih =>
    cases fuel with
    | zero => cases enough
    | succ fuel =>
      have decoded : ((char :: rest).flatMap String.utf8EncodeChar).toByteArray.utf8DecodeChar? 0 =
          some char := by
        have bytes : ((char :: rest).flatMap String.utf8EncodeChar).toByteArray =
            (char :: rest).utf8Encode := rfl
        rw [bytes, List.utf8DecodeChar?_utf8Encode_cons]
      have dropped : ((char :: rest).flatMap String.utf8EncodeChar).drop char.utf8Size =
          rest.flatMap String.utf8EncodeChar := by
        rw [List.flatMap_cons, ← String.length_utf8EncodeChar, List.drop_left]
      have nonempty : (char :: rest).flatMap String.utf8EncodeChar ≠ [] := by
        rw [List.flatMap_cons]
        simp
      cases held : (char :: rest).flatMap String.utf8EncodeChar with
      | nil => exact absurd held nonempty
      | cons first others =>
        rw [held] at decoded dropped
        rw [lossyChars, decoded]
        · exact congrArg (char :: ·) (dropped ▸ ih (Nat.le_of_succ_le_succ enough))
        · exact List.cons_ne_nil first others

/-- A text's own bytes are read back as the text. -/
theorem toStringLossy_encode (text : String) : toStringLossy (encode text) = text := by
  have enough : text.toList.length ≤ (encode text).length := by
    unfold encode
    induction text.toList with
    | nil => exact Nat.le_refl 0
    | cons char rest ih =>
      have positive := char.utf8Size_pos
      rw [List.flatMap_cons, List.length_append, String.length_utf8EncodeChar, List.length_cons]
      omega
  exact (congrArg String.ofList (lossyChars_flatMap _ enough)).trans String.ofList_toList

theorem encode_injective : Function.Injective encode := fun one other same => by
  rw [← toStringLossy_encode one, same, toStringLossy_encode]

theorem encode_append (front back : String) :
    encode (front ++ back) = encode front ++ encode back := by
  unfold encode
  rw [String.toList_append, List.flatMap_append]

end OsString

/-! ### Paths -/

/-- `Path` on Unix. -/
abbrev OsPath := OsString

namespace OsPath

open Unix

def slash : UInt8 := 0x2F
def dot : UInt8 := 0x2E

def isAbsolute (path : OsPath) : Bool := path.head? == some slash

/-- What stands between the slashes of a path: `.` and `..` have their meaning. -/
def component (segment : OsString) : Component OsString :=
  if segment = [dot] then .current else if segment = [dot, dot] then .parent else .name segment

/-- Empty segments and `.` are dropped. -/
def normalized (segments : List OsString) : List (Component OsString) :=
  segments.filterMap fun segment =>
    if segment = [] ∨ segment = [dot] then none else some (component segment)

/-- `Path::components` after the root; `.` is kept where it starts a relative path. -/
def components (path : OsPath) : List (Component OsString) :=
  match path.splitOn slash with
  | first :: rest =>
      if first = [dot] then .current :: normalized rest else normalized (first :: rest)
  | [] => []

/-- The text of an absolute path has a slash. -/
theorem slash_mem_toStringLossy {path : OsPath} (absolute : path.isAbsolute = true) :
    '/' ∈ path.toStringLossy.toList := by
  cases path with
  | nil => cases absolute
  | cons first rest =>
    have same : first = slash := by simpa [isAbsolute] using absolute
    have bytes : (first :: rest).toByteArray =
        (String.utf8EncodeChar '/').toByteArray ++ rest.toByteArray := by
      rw [← List.toByteArray_append, same]
      rfl
    have decoded : (first :: rest).toByteArray.utf8DecodeChar? 0 = some '/' := by
      rw [bytes, ByteArray.utf8DecodeChar?_utf8EncodeChar_append]
    unfold OsString.toStringLossy
    rw [String.toList_ofList, List.length_cons, OsString.lossyChars, decoded]
    · exact List.mem_cons_self
    · exact List.cons_ne_nil _ _

/-- `Path::display`. -/
def display (path : OsPath) : String := path.toStringLossy

/-- `Path::join` with a name. -/
def join (path : OsPath) (name : OsString) : OsPath :=
  if path = [] ∨ path.getLast? = some slash then path ++ name else path ++ slash :: name

/-- `Path::parent` of a path without `.` and repeated slashes. -/
def parent (path : OsPath) : Option OsPath :=
  match path.reverse.dropWhile (· == slash) with
  | [] => none
  | reversed =>
      let above := reversed.dropWhile (· != slash)
      match above.dropWhile (· == slash) with
      | [] => some (if above = [] then [] else [slash])
      | directory => some directory.reverse

/-- The components that the system resolves: a slash at the end asks for a directory, as `.`
does. -/
def resolved : List OsString → List (Component OsString)
  | [] => []
  | [last] => [if last = [] then .current else component last]
  | segment :: rest => if segment = [] then resolved rest else component segment :: resolved rest

/-- The path as the system resolves it. -/
def pathName (path : OsPath) : PathName OsString where
  absolute := path.isAbsolute
  components := resolved (path.splitOn slash)

/-- The names of components that are all normal. -/
def normalNames : List (Component OsString) → Option (List OsString)
  | [] => some []
  | .name name :: rest => (normalNames rest).map (name :: ·)
  | _ :: _ => none

theorem component_eq_current {segment : OsString} :
    component segment = .current ↔ segment = [dot] := by
  unfold component
  split
  · exact iff_of_true rfl ‹_›
  · split <;> simp_all

/-- Resolution skips `.`. -/
theorem namesOf_eq_normalNames (components : List (Component OsString)) :
    Filesystem.namesOf components = normalNames (components.filter (· ≠ .current)) := by
  induction components with
  | nil => rfl
  | cons component rest ih =>
    cases component with
    | current => exact ih
    | parent => rfl
    | name name => exact congrArg (Option.map (name :: ·)) ih

theorem filter_resolved (segments : List OsString) :
    (resolved segments).filter (· ≠ .current) = normalized segments := by
  induction segments using resolved.induct with
  | case1 => rfl
  | case2 last =>
    unfold resolved normalized
    by_cases empty : last = []
    · simp [empty]
    · by_cases current : last = [dot]
      · simp [current, component]
      · simp [empty, current, component_eq_current]
  | case3 rest nonempty ih =>
    rw [resolved, if_pos rfl, ih]
    · simp [normalized]
    · exact nonempty
  | case4 segment rest nonempty present ih =>
    rw [resolved, if_neg present]
    · by_cases current : segment = [dot]
      · rw [component_eq_current.mpr current, List.filter_cons_of_neg (by simp), ih]
        simp [normalized, current]
      · have kept : component segment ≠ .current := mt component_eq_current.mp current
        rw [List.filter_cons_of_pos (by simpa using kept), ih]
        simp [normalized, present, current]
    · exact nonempty

/-- The names of an absolute path without `..`, as the system resolves it, are its normal
components. -/
theorem namesOf_pathName {path : OsPath} {names : List OsString} (absolute : path.isAbsolute = true)
    (normal : normalNames path.components = some names) :
    Filesystem.namesOf path.pathName.components = some names := by
  have same : normalized (path.splitOn slash) = path.components := by
    unfold components
    split
    · rename_i first rest segments
      cases path with
      | nil => cases absolute
      | cons head tail =>
        have isSlash : head = slash := by simpa [isAbsolute] using absolute
        subst isSlash
        rw [List.splitOn_cons_eq_if_modifyHead, if_pos (beq_self_eq_true _)] at segments
        obtain ⟨rfl, rfl⟩ := List.cons.inj segments
        rw [if_neg (by simp), List.splitOn_cons_eq_if_modifyHead, if_pos (beq_self_eq_true _)]
    · rename_i empty
      exact absurd empty (List.splitOn_ne_nil _ _)
  show Filesystem.namesOf (resolved (path.splitOn slash)) = some names
  rw [namesOf_eq_normalNames, filter_resolved, same, normal]

end OsPath

end IrohTunnel.Library
