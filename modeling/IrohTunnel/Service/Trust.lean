/-
**The trust walk: what root reads for a service, no one else can change.**

`walk` descends from `/` and checks each handle it opens. What the system answers to each call is an
argument; what the handles show is the tree of files.

* `guarded_of_walk` — a walk that succeeds went down a guarded path;
* `walk_sound` — after it, no steps of other users change what the path names or what that holds.
-/

import IrohTunnel.Library.Files
import IrohTunnel.Library.Lists
import IrohTunnel.Service.Types

namespace IrohTunnel.Service.Trust

open IrohTunnel.Library IrohTunnel.Library.Unix

/-- The tree of files, with names of bytes. -/
abbrev Files := Filesystem OsString

def WRITABLE_BY_OTHERS : UInt32 := 0o022

def refuse {α : Type} (text : String) : Except Error α := .error (.permission text)

/-- Owned by root or by the uid recorded at install time. -/
def trusted (owner trustedUid : Uid) : Bool := owner == 0 || owner == trustedUid

/-! ### Handles -/

/-- Why a name cannot be opened. -/
inductive OpenFailure
  | invalidInput | notFound | notADirectory | symlink
  deriving DecidableEq, Repr

/-- What the system answers to the calls of a walk, by the path of the handle, and its texts for
the failures that the tree decides. -/
structure System where
  openRoot : Answer := .ok ()
  openChild : OsPath → Answer := fun _ => .ok ()
  inspect : OsPath → Answer := fun _ => .ok ()
  text : OpenFailure → String := fun _ => ""

/-- An open handle with its owner and mode. -/
structure Entry where
  file : Id
  path : OsPath
  owner : Uid
  mode : UInt32

/-- `Entry::new`: `fstat` of a handle. -/
def Entry.new (system : System) (files : Files) (file : Id) (path : OsPath) : Except Error Entry :=
  match system.inspect path, files.inodes file with
  | .ok (), some inode => .ok { file, path, owner := inode.owner, mode := inode.mode }
  | .error text, _ => .error (.other [s!"cannot inspect {path.display}", text])
  | .ok (), none => .error (.other [s!"cannot inspect {path.display}"])

/-- `{:04o}`. -/
def octal4 (number : Nat) : String :=
  let digits := Nat.toDigits 8 number
  String.ofList (List.replicate (4 - digits.length) '0' ++ digits)

def Entry.describe (entry : Entry) : String :=
  s!"{entry.path.display} (owner uid {entry.owner}, mode {octal4 (entry.mode &&& 0o7777).toNat})"

/-- `openat` without following a link in the name. -/
def openChild (system : System) (files : Files) (parent : Id) (path : OsPath) (name : OsString)
    (directory : Bool) : Except String Id :=
  if 0 ∈ name then .error (system.text .invalidInput)
  else
    match system.openChild path, (files.inodes parent).bind (Inode.entry · name) with
    | .error text, _ => .error text
    | .ok (), none => .error (system.text .notFound)
    | .ok (), some child =>
        match files.inodes child with
        | none => .error (system.text .notFound)
        | some inode =>
            if inode.isSymlink then .error (system.text .symlink)
            else if directory ∧ inode.isDirectory = false then .error (system.text .notADirectory)
            else .ok child

/-! ### The checks -/

/-- The directory above `child` must not let an untrusted principal replace it. -/
def checkParent (parent child : Entry) (trustedUid : Uid) : Except Error Unit :=
  let badOwner := !trusted parent.owner trustedUid
  let writable := parent.mode &&& WRITABLE_BY_OTHERS != 0
  let stickyProtects := parent.mode &&& S_ISVTX != 0 && trusted child.owner trustedUid
  if badOwner || (writable && !stickyProtects) then
    let why := if badOwner then "is owned by an untrusted user"
      else "is writable by group or others"
    refuse (s!"unsafe directory {parent.describe} {why}, so another user could replace " ++
      s!"{child.path.display} before the service (root) reads it. Make it owned by root or the " ++
      "installing user and not group- or world-writable (e.g. `chmod go-w`); nothing was changed")
  else .ok ()

/-- The word of a message for a file or a directory. -/
def fileWord (isDirectory : Bool) : String := if isDirectory then "directory" else "file"

def checkFinal (entry : Entry) (trustedUid : Uid) (wantDir : Bool) : Except Error Unit :=
  let kind := entry.mode &&& S_IFMT
  if (wantDir && kind != S_IFDIR) || (!wantDir && kind != S_IFREG) then
    refuse s!"{entry.describe} is not a regular {fileWord wantDir}"
  else if !trusted entry.owner trustedUid || entry.mode &&& WRITABLE_BY_OTHERS != 0 then
    refuse (s!"unsafe {fileWord wantDir}: {entry.describe} must be owned " ++
      s!"by root or the installing user (uid {trustedUid}) and not writable by group or others; " ++
      "nothing was changed. Fix it (e.g. `chmod go-w`) and re-run")
  else .ok ()

/-- The loop of `walk`: open the names one below the other. -/
def descend (system : System) (files : Files) (trustedUid : Uid) (wantDir : Bool)
    (current : Entry) : List OsString → Except Error Entry
  | [] => .ok current
  | name :: rest => do
      let directory := !rest.isEmpty || wantDir
      let childPath := current.path.join name
      let file ← (openChild system files current.file childPath name directory).mapError
        fun text => .permission
          (s!"{childPath.display} is not a plain {fileWord directory} " ++
            s!"reachable without following a symlink ({text}); refusing to use it as root. " ++
            "Replace the link with the real path and re-run the install")
      let child ← Entry.new system files file childPath
      checkParent current child trustedUid
      descend system files trustedUid wantDir child rest

/-- Descend from `/` to `path`, verifying every handle, and return the handle of the final
component. -/
def walk (system : System) (files : Files) (path : OsPath) (trustedUid : Uid) (wantDir : Bool) :
    Except Error Entry :=
  if path.isAbsolute = false then
    refuse s!"{path.display} is not absolute; the service pins an absolute path"
  else
    match OsPath.normalNames path.components with
    | none => refuse (s!"{path.display} is not canonical (contains `.` or `..`); re-run the " ++
        "install to pin the resolved path")
    | some names => do
        system.openRoot.mapError fun text => .other ["cannot open /", text]
        let root ← Entry.new system files files.root [OsPath.slash]
        let final ← descend system files trustedUid wantDir root names
        checkFinal final trustedUid wantDir
        return final

/-- Read the whole of a file; its text must be UTF-8. -/
def readToString (files : Files) (file : Id) : Except String String :=
  match (files.inodes file).map Inode.body with
  | some (.file bytes) =>
      match textOf bytes.toByteArray with
      | some text => .ok text
      | none => .error "stream did not contain valid UTF-8"
  | _ => .error "Is a directory"

/-- Verify `path` and return its text read from the verified handle. -/
def readVerified (system : System) (files : Files) (path : OsPath) (trustedUid : Uid) :
    Except Error String := do
  let entry ← walk system files path trustedUid false
  (readToString files entry.file).mapError
    fun text => .other [s!"failed to read config: {path.display}", text]

/-- Verify a directory; `present` is what `path.exists()` found. -/
def verifyDir (system : System) (files : Files) (present : Bool) (path : OsPath)
    (trustedUid : Uid) : Except Error Unit :=
  if present then do
    let _ ← walk system files path trustedUid true
  else
    refuse (s!"{path.display} does not exist; create it as the installing user (`mkdir -p`) — " ++
      "the service does not create directories in a user's home as root")

/-! ### Soundness -/

/-- The owners that the walk trusts. -/
def TrustedBy (trustedUid owner : Uid) : Prop := owner = 0 ∨ owner = trustedUid

section Sound

variable {system : System} {files files' : Files} {trustedUid : Uid} {wantDir : Bool}

theorem trusted_iff {owner : Uid} :
    trusted owner trustedUid = true ↔ TrustedBy trustedUid owner := by
  simp [trusted, TrustedBy]

/-- What a handle shows of an inode. -/
def Shows (entry : Entry) (inode : Inode OsString) : Prop :=
  entry.owner = inode.owner ∧ entry.mode = inode.mode

theorem shows_of_new {file : Id} {path : OsPath} {entry : Entry}
    (opened : Entry.new system files file path = .ok entry) :
    entry.file = file ∧ ∃ inode, files.inodes file = some inode ∧ Shows entry inode := by
  unfold Entry.new at opened
  split at opened
  · rename_i inode _ found
    cases opened
    exact ⟨rfl, inode, found, rfl, rfl⟩
  · cases opened
  · cases opened

/-- A name is opened only where it is the entry of an object that is no link. -/
theorem entry_of_openChild {parent child : Id} {path : OsPath} {name : OsString} {directory : Bool}
    (opened : openChild system files parent path name directory = .ok child) :
    ∃ dir inode, files.inodes parent = some dir ∧ dir.entry name = some child ∧
      files.inodes child = some inode ∧ inode.isSymlink = false := by
  unfold openChild at opened
  split at opened
  · cases opened
  · split at opened
    · cases opened
    · cases opened
    · rename_i entry
      split at opened
      · cases opened
      · rename_i inode foundChild
        split at opened
        · cases opened
        · rename_i plain
          split at opened
          · cases opened
          · cases opened
            obtain ⟨dir, foundDir, isEntry⟩ := Option.bind_eq_some_iff.mp entry
            exact ⟨dir, inode, foundDir, isEntry, foundChild, Bool.not_eq_true _ ▸ plain⟩

/-- A parent that passes keeps its child. -/
theorem keeps_of_checkParent {parent child : Entry} {dir inode : Inode OsString}
    (showsDir : Shows parent dir) (showsChild : Shows child inode)
    (passed : checkParent parent child trustedUid = .ok ()) :
    Keeps (TrustedBy trustedUid) dir inode := by
  unfold checkParent at passed
  simp only [showsDir.1, showsDir.2, showsChild.1] at passed
  split at passed
  · cases passed
  · rename_i good
    have writable : dir.mode &&& WRITABLE_BY_OTHERS = dir.permissions &&& writableByOthers :=
      Inode.mode_and dir (by decide)
    have sticky : dir.mode &&& S_ISVTX = dir.permissions &&& S_ISVTX :=
      Inode.mode_and dir (by decide)
    simp only [writable, sticky, Bool.or_eq_true, not_or, Bool.not_eq_true', Bool.and_eq_true,
      bne_iff_ne, not_and_or, Bool.not_eq_false, trusted_iff] at good
    obtain ⟨owner, closed | protects⟩ := good
    · exact ⟨owner, .inl (not_not.mp closed)⟩
    · exact ⟨owner, .inr (by simpa using protects)⟩

/-- A final object that passes is closed and no link. -/
theorem closed_of_checkFinal {entry : Entry} {inode : Inode OsString} (shows_ : Shows entry inode)
    (passed : checkFinal entry trustedUid wantDir = .ok ()) :
    Closed (TrustedBy trustedUid) inode ∧ inode.isSymlink = false := by
  unfold checkFinal at passed
  simp only [shows_.1, shows_.2, Inode.mode_and_S_IFMT] at passed
  split at passed
  · cases passed
  · rename_i kind
    split at passed
    · cases passed
    · rename_i good
      have writable : inode.mode &&& WRITABLE_BY_OTHERS = inode.permissions &&& writableByOthers :=
        Inode.mode_and inode (by decide)
      simp only [writable, Bool.or_eq_true, not_or, Bool.not_eq_true', bne_iff_ne, not_not,
        Bool.not_eq_false, trusted_iff] at good
      refine ⟨good, Inode.isSymlink_of_fileType ?_⟩
      cases wantDir with
      | true => exact .inl (by simpa using kind)
      | false => exact .inr (by simpa using kind)

/-- What a descent goes down is guarded, if its final object passes. -/
theorem guarded_of_descend {names : List OsString} {current final : Entry}
    {inode : Inode OsString} (found : files.inodes current.file = some inode)
    (shows_ : Shows current inode)
    (went : descend system files trustedUid wantDir current names = .ok final)
    (passed : checkFinal final trustedUid wantDir = .ok ()) :
    Guarded (TrustedBy trustedUid) files current.file names final.file := by
  induction names generalizing current inode with
  | nil =>
    cases went
    obtain ⟨closed, plain⟩ := closed_of_checkFinal shows_ passed
    exact .object _ inode found closed plain
  | cons name rest ih =>
    rw [descend] at went
    obtain ⟨file, opened, went⟩ := Lists.bind_eq_ok.mp went
    obtain ⟨child, made, went⟩ := Lists.bind_eq_ok.mp went
    obtain ⟨⟨⟩, checked, went⟩ := Lists.bind_eq_ok.mp went
    obtain ⟨dir, childInode, foundDir, isEntry, foundChild, plain⟩ :=
      entry_of_openChild (Lists.mapError_eq_ok.mp opened)
    cases found.symm.trans foundDir
    obtain ⟨sameFile, shown, foundShown, showsChild⟩ := shows_of_new made
    cases foundChild.symm.trans foundShown
    have keeps := keeps_of_checkParent shows_ showsChild checked
    have below := ih (sameFile ▸ foundChild) showsChild went
    exact .entry _ file _ inode childInode name rest found isEntry foundChild plain keeps
      (sameFile ▸ below)

/-- A walk that succeeds went down a guarded path from the root. -/
theorem guarded_of_walk {path : OsPath} {entry : Entry}
    (accepted : walk system files path trustedUid wantDir = .ok entry) :
    path.isAbsolute = true ∧ ∃ names, OsPath.normalNames path.components = some names ∧
      Guarded (TrustedBy trustedUid) files files.root names entry.file := by
  unfold walk at accepted
  split at accepted
  · cases accepted
  · rename_i absolute
    split at accepted
    · cases accepted
    · rename_i names normal
      obtain ⟨-, -, accepted⟩ := Lists.bind_eq_ok.mp accepted
      obtain ⟨root, made, accepted⟩ := Lists.bind_eq_ok.mp accepted
      obtain ⟨final, went, accepted⟩ := Lists.bind_eq_ok.mp accepted
      obtain ⟨⟨⟩, passed, accepted⟩ := Lists.bind_eq_ok.mp accepted
      cases accepted
      obtain ⟨sameFile, inode, found, shows_⟩ := shows_of_new made
      have guarded := guarded_of_descend (sameFile ▸ found) shows_ went passed
      exact ⟨Bool.not_eq_false _ ▸ absolute, names, normal, sameFile ▸ guarded⟩

/-- **The trust walk is sound.** Once `walk` has accepted a path, no steps of principals other than
root and the trusted uid change which object the path names, or the content of that object. -/
theorem walk_sound (system : System) (files : Files) (path : OsPath) (trustedUid : Uid)
    (wantDir : Bool) (entry : Entry)
    (accepted : walk system files path trustedUid wantDir = .ok entry) (files' : Files)
    (run : Outsiders (TrustedBy trustedUid) files files') :
    (∀ links, files'.lookup links path.pathName = files.lookup links path.pathName ∧
      ∀ object, files.lookup links path.pathName = some object → object = entry.file) ∧
    files'.content entry.file = files.content entry.file := by
  obtain ⟨absolute, names, normal, guarded⟩ := guarded_of_walk accepted
  have named := OsPath.namesOf_pathName absolute normal
  obtain ⟨-, sameContent, sameObject⟩ := guarded.run (.inl rfl) run
  refine ⟨fun links => ?_, sameContent⟩
  have isAbsolute : path.pathName.absolute = true := absolute
  unfold Filesystem.lookup
  rw [if_pos isAbsolute, if_pos isAbsolute, run.root]
  exact ⟨sameObject links _ named, fun object resolved => guarded.resolve named resolved⟩

end Sound

/-! ### A file in a sticky directory -/

open OsString (encode)

/-- A directory with one entry. -/
def directoryOf (name : String) (child : Id) (permissions : UInt32) : Inode OsString where
  owner := 0
  group := 0
  permissions := permissions
  body := .directory 0 fun other => if other = encode name then some child else none

/-- `/tmp`, sticky and open to all, with a config of uid 1000. -/
def tmpFiles : Files where
  root := 0
  inodes
    | 0 => some (directoryOf "tmp" 1 0o755)
    | 1 => some (directoryOf "serve.toml" 2 0o1777)
    | 2 => some { owner := 1000, group := 1000, permissions := 0o644, body := .file [] }
    | _ => none

/-- What uid 1001 makes of it: a file of its own beside the config. -/
def tmpFilesAfter : Files :=
  (tmpFiles.add 3 { owner := 1001, group := 1001, permissions := 0o666, body := .file [] }).modify 1
    (Inode.withEntry (encode "other") (some 3))

theorem walk_sound_tmp :
    ∃ entry, walk {} tmpFiles (encode "/tmp/serve.toml") 1000 false = .ok entry ∧
      Outsiders (TrustedBy 1000) tmpFiles tmpFilesAfter ∧
      tmpFilesAfter.content entry.file = tmpFiles.content entry.file := by
  have accepts : (walk {} tmpFiles (encode "/tmp/serve.toml") 1000 false).toOption.isSome := by
    rfl
  obtain ⟨entry, accepted⟩ : ∃ entry, walk {} tmpFiles (encode "/tmp/serve.toml") 1000 false =
      .ok entry := by
    cases walked : walk {} tmpFiles (encode "/tmp/serve.toml") 1000 false with
    | error error => simp [walked, Except.toOption] at accepts
    | ok entry => exact ⟨entry, rfl⟩
  have outsider : ¬ TrustedBy 1000 1001 := by
    unfold TrustedBy
    decide
  have step : Step { uid := 1001, groups := [1001] } tmpFiles tmpFilesAfter :=
    .create 1 3 (directoryOf "serve.toml" 2 0o1777) _ (encode "other") rfl rfl (by decide)
      (by rfl) rfl rfl trivial
  have run : Outsiders (TrustedBy 1000) tmpFiles tmpFilesAfter := .single ⟨_, outsider, step⟩
  exact ⟨entry, accepted, run, (walk_sound {} tmpFiles _ 1000 false entry accepted _ run).2⟩

end IrohTunnel.Service.Trust
