/-
**What a release server gives: bodies of responses, and the executable inside an archive.**

The decoders of archives are third-party code and stay parameters (`Decoders`).

* `extractEntry_sound` — what is extracted is the whole content of a regular file of that name.
-/

import IrohTunnel.Library.Files
import IrohTunnel.Library.Lists
import IrohTunnel.Library.OsText
import IrohTunnel.Update.Versions

namespace IrohTunnel.Update

open IrohTunnel.Library

/-! ### Bounds -/

def MAX_CHECKSUMS_BYTES : Nat := 1 <<< 20
def MAX_ARCHIVE_BYTES : Nat := 256 <<< 20
def MAX_EXECUTABLE_BYTES : Nat := 512 <<< 20

/-! ### Downloading -/

/-- What a request ends with: an error of the transport or of the status, or the chunks of a body
and the error that breaks it off. -/
inductive Response
  | failed (text : String)
  | body (chunks : List ByteArray) (broken : Option String)
  deriving DecidableEq

/-- Collect the chunks of a body, up to a bound. -/
def readBody (url : String) (max : Nat) (body : ByteArray) :
    List ByteArray → Option String → Except (List String) ByteArray
  | [], none => .ok body
  | [], some text => .error [text]
  | chunk :: rest, broken =>
      if body.size + chunk.size > max then .error [s!"response from {url} exceeds {max} bytes"]
      else readBody url max (body ++ chunk) rest broken

/-- GET a URL, failing on an error or when the body exceeds the bound. -/
def fetch (get : String → Response) (url : String) (max : Nat) :
    Except (List String) ByteArray :=
  match get url with
  | .failed text => .error [text]
  | .body chunks broken => readBody url max .empty chunks broken

/-- A body of one chunk within the bound. -/
theorem fetch_single {get : String → Response} {url : String} {max : Nat} {bytes : ByteArray}
    (answered : get url = .body [bytes] none) (within : bytes.size ≤ max) :
    fetch get url max = .ok bytes := by
  unfold fetch
  rw [answered]
  show readBody url max .empty [bytes] none = .ok bytes
  rw [readBody, if_neg (by simpa using within), readBody, ByteArray.empty_append]

/-! ### Archives -/

/-- What a reader gives: its bytes, and the error that they end with. -/
structure Stream where
  bytes : ByteArray
  broken : Option String := none
  deriving DecidableEq

/-- `take(limit).read_to_end`. -/
def Stream.readToEnd (stream : Stream) (limit : Nat) : Except (List String) ByteArray :=
  if limit ≤ stream.bytes.size then .ok (stream.bytes.extract 0 limit)
  else
    match stream.broken with
    | none => .ok stream.bytes
    | some text => .error [text]

structure ZipFile where
  isFile : Bool
  contents : Stream
  deriving DecidableEq

structure TarEntry where
  path : Except String OsPath
  isFile : Bool
  contents : Stream

/-- The decoders of archives. -/
structure Decoders where
  /-- `ZipArchive::new` and `by_name`. -/
  zip : ByteArray → Except String (String → Except String ZipFile)
  /-- `tar::Archive::entries` of the decompressed bytes. -/
  tar : ByteArray → Except String (List (Except String TarEntry))

/-- `Path` equality: the same components. -/
def samePath (first second : OsPath) : Bool :=
  first.isAbsolute == second.isAbsolute && first.components == second.components

/-- Whether a path in an archive is that of an entry. -/
def isEntryPath (path : OsPath) (entry : String) : Bool :=
  samePath path (OsString.encode entry) ||
    samePath path (OsPath.join (OsString.encode "./") (OsString.encode entry))

/-- The bytes of the first entry of this name. -/
def findEntry (archiveName entry : String) :
    List (Except String TarEntry) → Except (List String) ByteArray
  | [] => .error [s!"{archiveName} does not contain {entry}"]
  | .error text :: _ => .error [text]
  | .ok found :: rest =>
      match found.path with
      | .error text => .error [text]
      | .ok path =>
          if isEntryPath path entry then
            if found.isFile then found.contents.readToEnd (MAX_EXECUTABLE_BYTES + 1)
            else .error [s!"{entry} in {archiveName} is not a regular file"]
          else findEntry archiveName entry rest

def isZip (archiveName : String) : Bool := ".zip".toList.isSuffixOf archiveName.toList

variable (decoders : Decoders)

/-- The bytes of the entry, before their length is checked. -/
def readEntry (archive : ByteArray) (archiveName entry : String) :
    Except (List String) ByteArray :=
  if isZip archiveName then
    match decoders.zip archive with
    | .error text => .error [s!"cannot read {archiveName}", text]
    | .ok byName =>
        match byName entry with
        | .error text => .error [s!"{archiveName} does not contain {entry}", text]
        | .ok file =>
            if file.isFile then file.contents.readToEnd (MAX_EXECUTABLE_BYTES + 1)
            else .error [s!"{entry} in {archiveName} is not a regular file"]
  else
    match decoders.tar archive with
    | .error text => .error [s!"cannot read {archiveName}", text]
    | .ok entries => findEntry archiveName entry entries

/-- Read exactly one regular-file entry of this name out of the archive. -/
def extractEntry (archive : ByteArray) (archiveName entry : String) :
    Except (List String) ByteArray :=
  match readEntry decoders archive archiveName entry with
  | .error contexts => .error contexts
  | .ok out =>
      if out.size > MAX_EXECUTABLE_BYTES then
        .error [s!"{entry} in {archiveName} exceeds {MAX_EXECUTABLE_BYTES} bytes"]
      else if out.size = 0 then .error [s!"{entry} in {archiveName} is empty"]
      else .ok out

/-! ### What is read -/

/-- An archive holds an executable: a regular file of this name has this content. -/
def Holds (archive : ByteArray) (archiveName entry : String) (contents : ByteArray) : Prop :=
  if isZip archiveName then
    ∃ byName file, decoders.zip archive = .ok byName ∧ byName entry = .ok file ∧
      file.isFile = true ∧ file.contents.bytes = contents
  else
    ∃ entries found path, decoders.tar archive = .ok entries ∧ .ok found ∈ entries ∧
      found.path = .ok path ∧ isEntryPath path entry = true ∧ found.isFile = true ∧
      found.contents.bytes = contents

/-- A stream read below its limit is read whole. -/
theorem readToEnd_whole {stream : Stream} {limit : Nat} {out : ByteArray}
    (read : stream.readToEnd (limit + 1) = .ok out) (within : out.size ≤ limit) :
    stream.bytes = out := by
  unfold Stream.readToEnd at read
  split at read
  · rename_i longer
    cases read
    rw [ByteArray.size_extract] at within
    omega
  · split at read
    · cases read
      rfl
    · cases read

theorem findEntry_sound {archiveName entry : String} {entries : List (Except String TarEntry)}
    {out : ByteArray} (found : findEntry archiveName entry entries = .ok out)
    (within : out.size ≤ MAX_EXECUTABLE_BYTES) :
    ∃ own path, .ok own ∈ entries ∧ own.path = .ok path ∧ isEntryPath path entry = true ∧
      own.isFile = true ∧ own.contents.bytes = out := by
  induction entries with
  | nil => cases found
  | cons first rest ih =>
    cases first with
    | error text => cases found
    | ok first =>
      rw [findEntry] at found
      split at found
      · cases found
      · rename_i path named
        split at found
        · rename_i isPath
          split at found
          · rename_i isFile
            exact ⟨first, path, List.mem_cons_self, named, isPath, isFile,
              readToEnd_whole found within⟩
          · cases found
        · obtain ⟨own, ownPath, member, facts⟩ := ih found
          exact ⟨own, ownPath, List.mem_cons_of_mem _ member, facts⟩

theorem readEntry_sound {archive out : ByteArray} {archiveName entry : String}
    (read : readEntry decoders archive archiveName entry = .ok out)
    (within : out.size ≤ MAX_EXECUTABLE_BYTES) : Holds decoders archive archiveName entry out := by
  unfold Holds
  unfold readEntry at read
  split at read
  · rename_i zipped
    rw [if_pos zipped]
    split at read
    · cases read
    · rename_i byName opened
      split at read
      · cases read
      · rename_i file named
        split at read
        · rename_i isFile
          exact ⟨byName, file, opened, named, isFile, readToEnd_whole read within⟩
        · cases read
  · rename_i isTar
    rw [if_neg isTar]
    split at read
    · cases read
    · rename_i entries opened
      obtain ⟨own, path, facts⟩ := findEntry_sound read within
      exact ⟨entries, own, path, opened, facts⟩

/-- What is extracted is the whole content of a regular file of that name. -/
theorem extractEntry_sound {archive contents : ByteArray} {archiveName entry : String}
    (extracted : extractEntry decoders archive archiveName entry = .ok contents) :
    Holds decoders archive archiveName entry contents := by
  unfold extractEntry at extracted
  split at extracted
  · cases extracted
  · rename_i out read
    split at extracted
    · cases extracted
    · rename_i within
      split at extracted
      · cases extracted
      · cases extracted
        exact readEntry_sound decoders read (Nat.le_of_not_lt within)

end IrohTunnel.Update
