/-
**Unix files: owners, permission bits, the steps they allow, and paths that others cannot change.**

A tree of inodes with owners and permission bits, path resolution, and the steps a process may take
on it. Refusals that depend on anything but these bits (search permission, a directory that is not
empty) are left out, so the steps are at least those a kernel allows.

* `Step.inode` — what one step can do to an inode that was there;
* `Guarded` — a path of plain directories that no outsider may change, down to an object that none
  may write;
* `Guarded.step` — an outsider's step keeps a guarded path, its object and the object's content.
-/

import Mathlib.Logic.Function.Basic
import Mathlib.Logic.Relation

namespace IrohTunnel.Library.Unix

/-- `uid_t`, `gid_t` and inode numbers. -/
abbrev Uid := UInt32
abbrev Gid := UInt32
abbrev Id := Nat

/-! ### Inodes -/

inductive Component (Name : Type)
  | current
  | parent
  | name (name : Name)
  deriving DecidableEq, Repr

structure PathName (Name : Type) where
  absolute : Bool
  components : List (Component Name)
  deriving DecidableEq, Repr

inductive Special
  | fifo | socket | characterDevice | blockDevice
  deriving DecidableEq, Repr

inductive Body (Name : Type)
  | file (bytes : List UInt8)
  | directory (parent : Id) (entries : Name → Option Id)
  | symlink (target : PathName Name)
  | special (kind : Special)

structure Inode (Name : Type) where
  owner : Uid
  group : Gid
  permissions : UInt32
  body : Body Name

def S_IFMT : UInt32 := 0o170000
def S_IFDIR : UInt32 := 0o040000
def S_IFREG : UInt32 := 0o100000
def S_ISVTX : UInt32 := 0o1000

variable {Name : Type}

/-- The file type bits of a mode. -/
def Body.fileType : Body Name → UInt32
  | .file _ => S_IFREG
  | .directory _ _ => S_IFDIR
  | .symlink _ => 0o120000
  | .special .fifo => 0o010000
  | .special .socket => 0o140000
  | .special .characterDevice => 0o020000
  | .special .blockDevice => 0o060000

namespace Inode

/-- `st_mode`. -/
def mode (inode : Inode Name) : UInt32 :=
  inode.body.fileType ||| (inode.permissions &&& 0o7777)

def isDirectory (inode : Inode Name) : Bool :=
  match inode.body with
  | .directory _ _ => true
  | _ => false

def isSymlink (inode : Inode Name) : Bool :=
  match inode.body with
  | .symlink _ => true
  | _ => false

/-- The object under a name; only a directory has names. -/
def entry (inode : Inode Name) (name : Name) : Option Id :=
  match inode.body with
  | .directory _ entries => entries name
  | _ => none

def parent (inode : Inode Name) : Option Id :=
  match inode.body with
  | .directory parent _ => some parent
  | _ => none

/-- The file types have no bit of the permissions, and only bits of `S_IFMT`. -/
theorem fileType_and (body : Body Name) :
    body.fileType &&& 0o7777 = 0 ∧ body.fileType &&& S_IFMT = body.fileType := by
  have bits : ∀ type ∈ [S_IFREG, S_IFDIR, 0o120000, 0o010000, 0o140000, 0o020000, 0o060000],
      type &&& 0o7777 = 0 ∧ type &&& S_IFMT = type := by
    simp only [List.forall_mem_cons, List.not_mem_nil, false_imp_iff, implies_true, and_true]
    decide
  apply bits
  cases body with
  | special kind => cases kind <;> simp [Body.fileType]
  | file => simp [Body.fileType]
  | directory => simp [Body.fileType]
  | symlink => simp [Body.fileType]

theorem or_and_distrib (left right mask : UInt32) :
    (left ||| right) &&& mask = (left &&& mask) ||| (right &&& mask) :=
  UInt32.toBitVec_inj.mp BitVec.and_or_distrib_right

/-- A bit of the permissions is the same in the mode. -/
theorem mode_and {mask : UInt32} (inode : Inode Name) (inPermissions : 0o7777 &&& mask = mask) :
    inode.mode &&& mask = inode.permissions &&& mask := by
  have typeClear : inode.body.fileType &&& mask = 0 := by
    rw [← inPermissions, ← UInt32.and_assoc, (fileType_and inode.body).1, UInt32.zero_and]
  rw [mode, or_and_distrib, typeClear, UInt32.and_assoc, inPermissions, UInt32.zero_or]

/-- The type bits of the mode are the file type. -/
theorem mode_and_S_IFMT (inode : Inode Name) : inode.mode &&& S_IFMT = inode.body.fileType := by
  have permissionsClear : (0o7777 : UInt32) &&& S_IFMT = 0 := by decide
  rw [mode, or_and_distrib, (fileType_and inode.body).2, UInt32.and_assoc, permissionsClear,
    UInt32.and_zero, UInt32.or_zero]

/-- No other object has the type bits of a link. -/
theorem isSymlink_of_fileType {inode : Inode Name}
    (plain : inode.body.fileType = S_IFDIR ∨ inode.body.fileType = S_IFREG) :
    inode.isSymlink = false := by
  unfold isSymlink
  split
  · rename_i target held
    rw [held] at plain
    exact absurd plain (show ¬((0o120000 : UInt32) = S_IFDIR ∨ (0o120000 : UInt32) = S_IFREG) by
      decide)
  · rfl

end Inode

/-- What an object holds: the names in a directory with their objects, the bytes of a file. -/
inductive Content (Name : Type)
  | bytes (bytes : List UInt8)
  | entries (entries : Name → Option Id)
  | target (target : PathName Name)
  | special (kind : Special)

def Inode.content (inode : Inode Name) : Content Name :=
  match inode.body with
  | .file bytes => .bytes bytes
  | .directory _ entries => .entries entries
  | .symlink target => .target target
  | .special kind => .special kind

structure Filesystem (Name : Type) where
  root : Id
  inodes : Id → Option (Inode Name)

/-! ### Path resolution -/

namespace Filesystem

def content (fs : Filesystem Name) (id : Id) : Option (Content Name) :=
  (fs.inodes id).map Inode.content

/-- The object that components name, from a directory on: symlinks are followed, at most `links` of
them. -/
def resolve (fs : Filesystem Name) (links : Nat) (id : Id) :
    List (Component Name) → Option Id
  | [] => (fs.inodes id).map fun _ => id
  | .current :: rest =>
      match fs.inodes id with
      | none => none
      | some inode => if inode.isDirectory then fs.resolve links id rest else none
  | .parent :: rest =>
      match (fs.inodes id).bind Inode.parent with
      | none => none
      | some parent => fs.resolve links parent rest
  | .name name :: rest =>
      match (fs.inodes id).bind (Inode.entry · name) with
      | none => none
      | some child =>
          match fs.inodes child with
          | none => none
          | some inode =>
              match inode.body with
              | .symlink target =>
                  match links with
                  | 0 => none
                  | links + 1 => fs.resolve links (if target.absolute then fs.root else id)
                      (target.components ++ rest)
              | _ => fs.resolve links child rest
  termination_by components => (links, components.length)

/-- The object an absolute path names. -/
def lookup (fs : Filesystem Name) (links : Nat) (path : PathName Name) : Option Id :=
  if path.absolute then fs.resolve links fs.root path.components else none

/-- The names of components without a step to the parent. -/
def namesOf : List (Component Name) → Option (List Name)
  | [] => some []
  | .current :: rest => namesOf rest
  | .parent :: _ => none
  | .name name :: rest => (namesOf rest).map (name :: ·)

/-- Change the inode of a number, if there is one. -/
def modify (fs : Filesystem Name) (id : Id) (change : Inode Name → Inode Name) : Filesystem Name :=
  { fs with inodes := fun other =>
      if other = id then (fs.inodes other).map change else fs.inodes other }

/-- Put an inode at a number. -/
def add (fs : Filesystem Name) (id : Id) (inode : Inode Name) : Filesystem Name :=
  { fs with inodes := Function.update fs.inodes id (some inode) }

end Filesystem

/-! ### Who may do what -/

/-- Who a process acts as. -/
structure Credentials where
  uid : Uid
  groups : List Gid

/-- The write permission: the first class that the process is in decides; root may always. -/
def Credentials.mayWrite (actor : Credentials) (inode : Inode Name) : Prop :=
  if actor.uid = 0 then True
  else if actor.uid = inode.owner then inode.permissions &&& 0o200 ≠ 0
  else if inode.group ∈ actor.groups then inode.permissions &&& 0o020 ≠ 0
  else inode.permissions &&& 0o002 ≠ 0

instance (actor : Credentials) (inode : Inode Name) : Decidable (actor.mayWrite inode) :=
  inferInstanceAs (Decidable (ite _ _ _))

/-- The permission to unlink, move or replace an entry: in a sticky directory only for the owner of
the directory or of the object, and root. -/
def Credentials.mayRemove (actor : Credentials) (dir child : Inode Name) : Prop :=
  actor.mayWrite dir ∧ (dir.permissions &&& S_ISVTX = 0 ∨ actor.uid = 0 ∨ actor.uid = dir.owner ∨
    actor.uid = child.owner)

namespace Inode

def withEntry [DecidableEq Name] (name : Name) (child : Option Id) (inode : Inode Name) :
    Inode Name :=
  match inode.body with
  | .directory parent entries =>
      { inode with body := .directory parent (Function.update entries name child) }
  | _ => inode

def withParent (parent : Id) (inode : Inode Name) : Inode Name :=
  match inode.body with
  | .directory _ entries => { inode with body := .directory parent entries }
  | _ => inode

end Inode

/-- The bodies a process may give a new object in a directory: an empty directory, or anything
else. -/
def Body.Fresh (dir : Id) : Body Name → Prop
  | .directory parent entries => parent = dir ∧ ∀ name, entries name = none
  | _ => True

/-- One step of a process. -/
inductive Step [DecidableEq Name] (actor : Credentials) (fs : Filesystem Name) :
    Filesystem Name → Prop
  | write (id : Id) (inode : Inode Name) (old new : List UInt8) (found : fs.inodes id = some inode)
      (file : inode.body = .file old) (may : actor.mayWrite inode) :
      Step actor fs (fs.modify id fun inode => { inode with body := .file new })
  | create (dir new : Id) (inode child : Inode Name) (name : Name)
      (found : fs.inodes dir = some inode) (directory : inode.isDirectory)
      (may : actor.mayWrite inode) (free : inode.entry name = none) (unused : fs.inodes new = none)
      (own : child.owner = actor.uid) (fresh : child.body.Fresh dir) :
      Step actor fs ((fs.add new child).modify dir (Inode.withEntry name (some new)))
  | link (dir object : Id) (inode linked : Inode Name) (name : Name)
      (found : fs.inodes dir = some inode) (directory : inode.isDirectory)
      (may : actor.mayWrite inode) (free : inode.entry name = none)
      (target : fs.inodes object = some linked) (plain : linked.isDirectory = false) :
      Step actor fs (fs.modify dir (Inode.withEntry name (some object)))
  | unlink (dir child : Id) (inode removed : Inode Name) (name : Name)
      (found : fs.inodes dir = some inode) (entry : inode.entry name = some child)
      (target : fs.inodes child = some removed) (may : actor.mayRemove inode removed) :
      Step actor fs (fs.modify dir (Inode.withEntry name none))
  | rename (source into child : Id) (sourceInode intoInode moved : Inode Name) (name newName : Name)
      (found : fs.inodes source = some sourceInode) (entry : sourceInode.entry name = some child)
      (target : fs.inodes child = some moved) (may : actor.mayRemove sourceInode moved)
      (intoFound : fs.inodes into = some intoInode) (directory : intoInode.isDirectory)
      (mayInto : actor.mayWrite intoInode)
      (mayReplace : ∀ replaced old, intoInode.entry newName = some replaced →
        fs.inodes replaced = some old → actor.mayRemove intoInode old) :
      Step actor fs (((fs.modify source (Inode.withEntry name none)).modify into
        (Inode.withEntry newName (some child))).modify child (Inode.withParent into))
  | chmod (id : Id) (inode : Inode Name) (permissions : UInt32)
      (found : fs.inodes id = some inode) (may : actor.uid = 0 ∨ actor.uid = inode.owner) :
      Step actor fs (fs.modify id fun inode => { inode with permissions })

/-! ### What a step changes -/

namespace Inode

variable {inode : Inode Name}

@[simp] theorem entry_of_not_directory {name : Name} (plain : inode.isDirectory = false) :
    inode.entry name = none := by
  unfold isDirectory at plain
  unfold entry
  split at plain
  · cases plain
  · rfl

section WithEntry

variable [DecidableEq Name] {name : Name} {child : Option Id}

@[simp] theorem withEntry_owner : (inode.withEntry name child).owner = inode.owner := by
  obtain ⟨owner, group, permissions, body⟩ := inode
  cases body <;> rfl

@[simp] theorem withEntry_permissions :
    (inode.withEntry name child).permissions = inode.permissions := by
  obtain ⟨owner, group, permissions, body⟩ := inode
  cases body <;> rfl

@[simp] theorem withEntry_isDirectory :
    (inode.withEntry name child).isDirectory = inode.isDirectory := by
  obtain ⟨owner, group, permissions, body⟩ := inode
  cases body <;> rfl

@[simp] theorem withEntry_isSymlink :
    (inode.withEntry name child).isSymlink = inode.isSymlink := by
  obtain ⟨owner, group, permissions, body⟩ := inode
  cases body <;> rfl

theorem withEntry_entry_of_ne {other : Name} (different : other ≠ name) :
    (inode.withEntry name child).entry other = inode.entry other := by
  obtain ⟨owner, group, permissions, body⟩ := inode
  cases body with
  | directory parent entries => exact Function.update_of_ne different ..
  | file => rfl
  | symlink => rfl
  | special => rfl

end WithEntry

section WithParent

variable {into : Id}

@[simp] theorem withParent_owner : (inode.withParent into).owner = inode.owner := by
  obtain ⟨owner, group, permissions, body⟩ := inode
  cases body <;> rfl

@[simp] theorem withParent_permissions :
    (inode.withParent into).permissions = inode.permissions := by
  obtain ⟨owner, group, permissions, body⟩ := inode
  cases body <;> rfl

@[simp] theorem withParent_isDirectory :
    (inode.withParent into).isDirectory = inode.isDirectory := by
  obtain ⟨owner, group, permissions, body⟩ := inode
  cases body <;> rfl

@[simp] theorem withParent_isSymlink : (inode.withParent into).isSymlink = inode.isSymlink := by
  obtain ⟨owner, group, permissions, body⟩ := inode
  cases body <;> rfl

@[simp] theorem withParent_entry (name : Name) :
    (inode.withParent into).entry name = inode.entry name := by
  obtain ⟨owner, group, permissions, body⟩ := inode
  cases body <;> rfl

@[simp] theorem withParent_content : (inode.withParent into).content = inode.content := by
  obtain ⟨owner, group, permissions, body⟩ := inode
  cases body <;> rfl

end WithParent

end Inode

/-- What a step may make of an inode: it keeps its owner and its kind, only the owner changes its
permissions, and a change of an entry or of the content needs the permission for it. -/
structure Change (actor : Credentials) (fs : Filesystem Name) (before after : Inode Name) :
    Prop where
  owner : after.owner = before.owner
  isDirectory : after.isDirectory = before.isDirectory
  isSymlink : after.isSymlink = before.isSymlink
  permissions : after.permissions = before.permissions ∨ actor.uid = 0 ∨ actor.uid = before.owner
  entry : ∀ name, after.entry name = before.entry name ∨ actor.mayWrite before ∧
    ∀ child old, before.entry name = some child → fs.inodes child = some old →
      actor.mayRemove before old
  content : after.content = before.content ∨ actor.mayWrite before

section Steps

variable {actor : Credentials} {fs fs' : Filesystem Name} {before : Inode Name}

theorem Change.refl : Change actor fs before before where
  owner := rfl
  isDirectory := rfl
  isSymlink := rfl
  permissions := .inl rfl
  entry _ := .inl rfl
  content := .inl rfl

/-- An entry that the actor may change. -/
theorem Change.withEntry [DecidableEq Name] {name : Name} {child : Option Id}
    (may : actor.mayWrite before) (mayRemove : ∀ held old, before.entry name = some held →
      fs.inodes held = some old → actor.mayRemove before old) :
    Change actor fs before (before.withEntry name child) where
  owner := Inode.withEntry_owner
  isDirectory := Inode.withEntry_isDirectory
  isSymlink := Inode.withEntry_isSymlink
  permissions := .inl Inode.withEntry_permissions
  entry other := by
    by_cases here : other = name
    · subst here
      exact .inr ⟨may, mayRemove⟩
    · exact .inl (Inode.withEntry_entry_of_ne here)
  content := .inr may

theorem Change.withParent {after : Inode Name} {into : Id}
    (change : Change actor fs before after) : Change actor fs before (after.withParent into) where
  owner := by rw [Inode.withParent_owner, change.owner]
  isDirectory := by rw [Inode.withParent_isDirectory, change.isDirectory]
  isSymlink := by rw [Inode.withParent_isSymlink, change.isSymlink]
  permissions := by rw [Inode.withParent_permissions]; exact change.permissions
  entry name := by rw [Inode.withParent_entry]; exact change.entry name
  content := by rw [Inode.withParent_content]; exact change.content

/-- Two entries, one after the other. -/
theorem Change.andEntry [DecidableEq Name] {after : Inode Name} {name : Name} {child : Option Id}
    (change : Change actor fs before after) (may : actor.mayWrite before)
    (mayRemove : ∀ held old, before.entry name = some held → fs.inodes held = some old →
      actor.mayRemove before old) :
    Change actor fs before (after.withEntry name child) where
  owner := by rw [Inode.withEntry_owner, change.owner]
  isDirectory := by rw [Inode.withEntry_isDirectory, change.isDirectory]
  isSymlink := by rw [Inode.withEntry_isSymlink, change.isSymlink]
  permissions := by rw [Inode.withEntry_permissions]; exact change.permissions
  entry other := by
    by_cases here : other = name
    · subst here
      exact .inr ⟨may, mayRemove⟩
    · rw [Inode.withEntry_entry_of_ne here]
      exact change.entry other
  content := .inr may

theorem modify_found {id other : Id} {change : Inode Name → Inode Name}
    (found : fs.inodes other = some before) :
    (fs.modify id change).inodes other = some (if other = id then change before else before) := by
  by_cases here : other = id
  · simp [Filesystem.modify, here, here ▸ found]
  · simp [Filesystem.modify, here, found]

/-- What one step can do to an inode that was there. -/
theorem Step.inode [DecidableEq Name] (step : Step actor fs fs') {id : Id}
    (found : fs.inodes id = some before) :
    ∃ after, fs'.inodes id = some after ∧ Change actor fs before after := by
  cases step with
  | write file inode old new foundFile isFile may =>
    refine ⟨_, modify_found found, ?_⟩
    by_cases here : id = file
    · subst here
      cases found.symm.trans foundFile
      rw [if_pos rfl]
      exact {
        owner := rfl
        isDirectory := by simp [Inode.isDirectory, isFile]
        isSymlink := by simp [Inode.isSymlink, isFile]
        permissions := .inl rfl
        entry := fun name => .inl (by simp [Inode.entry, isFile])
        content := .inr may }
    · rw [if_neg here]
      exact Change.refl
  | create dir new inode child name foundDir directory may free unused own fresh =>
    have other : id ≠ new := by
      rintro rfl
      rw [unused] at found
      cases found
    have kept : (fs.add new child).inodes id = some before :=
      (Function.update_of_ne other ..).trans found
    refine ⟨_, modify_found kept, ?_⟩
    by_cases here : id = dir
    · subst here
      cases found.symm.trans foundDir
      rw [if_pos rfl]
      refine Change.withEntry may fun held old isHeld => ?_
      rw [free] at isHeld
      cases isHeld
    · rw [if_neg here]
      exact Change.refl
  | link dir object inode linked name foundDir directory may free target plain =>
    refine ⟨_, modify_found found, ?_⟩
    by_cases here : id = dir
    · subst here
      cases found.symm.trans foundDir
      rw [if_pos rfl]
      refine Change.withEntry may fun held old isHeld => ?_
      rw [free] at isHeld
      cases isHeld
    · rw [if_neg here]
      exact Change.refl
  | unlink dir child inode removed name foundDir entry target may =>
    refine ⟨_, modify_found found, ?_⟩
    by_cases here : id = dir
    · subst here
      cases found.symm.trans foundDir
      rw [if_pos rfl]
      refine Change.withEntry may.1 fun held old isHeld isOld => ?_
      cases isHeld.symm.trans entry
      cases isOld.symm.trans target
      exact may
    · rw [if_neg here]
      exact Change.refl
  | rename source into child sourceInode intoInode moved name newName foundSource entry target may
      foundInto directory mayInto mayReplace =>
    refine ⟨_, modify_found (modify_found (modify_found found)), ?_⟩
    have first : Change actor fs before
        (if id = source then before.withEntry name none else before) := by
      by_cases here : id = source
      · subst here
        cases found.symm.trans foundSource
        rw [if_pos rfl]
        refine Change.withEntry may.1 fun held old isHeld isOld => ?_
        cases isHeld.symm.trans entry
        cases isOld.symm.trans target
        exact may
      · rw [if_neg here]
        exact Change.refl
    have second : Change actor fs before
        (if id = into then
          (if id = source then before.withEntry name none else before).withEntry newName
            (some child)
        else if id = source then before.withEntry name none else before) := by
      by_cases here : id = into
      · subst here
        cases found.symm.trans foundInto
        rw [if_pos rfl]
        exact first.andEntry mayInto mayReplace
      · rw [if_neg here]
        exact first
    by_cases here : id = child
    · rw [if_pos here]
      exact second.withParent
    · rw [if_neg here]
      exact second
  | chmod object inode permissions foundObject may =>
    refine ⟨_, modify_found found, ?_⟩
    by_cases here : id = object
    · subst here
      cases found.symm.trans foundObject
      rw [if_pos rfl]
      exact {
        owner := rfl
        isDirectory := rfl
        isSymlink := rfl
        permissions := .inr may
        entry := fun name => .inl rfl
        content := .inl rfl }
    · rw [if_neg here]
      exact Change.refl

end Steps

/-! ### Paths that no outsider can change -/

section Guarded

/-- Write permission for the group or for others. -/
def writableByOthers : UInt32 := 0o022

/-- An object of a trusted owner that no one else may write. -/
def Closed (trusted : Uid → Prop) (inode : Inode Name) : Prop :=
  trusted inode.owner ∧ inode.permissions &&& writableByOthers = 0

/-- A directory in which no outsider may replace an object: closed, or sticky with an object of a
trusted owner. -/
def Keeps (trusted : Uid → Prop) (dir child : Inode Name) : Prop :=
  trusted dir.owner ∧ (dir.permissions &&& writableByOthers = 0 ∨
    dir.permissions &&& S_ISVTX ≠ 0 ∧ trusted child.owner)

/-- A path of plain directories, each of which keeps its entry, down to a closed object that is no
link. -/
inductive Guarded (trusted : Uid → Prop) (fs : Filesystem Name) : Id → List Name → Id → Prop
  | object (id : Id) (inode : Inode Name) (found : fs.inodes id = some inode)
      (closed : Closed trusted inode) (plain : inode.isSymlink = false) :
      Guarded trusted fs id [] id
  | entry (dir child object : Id) (dirInode childInode : Inode Name) (name : Name)
      (rest : List Name) (found : fs.inodes dir = some dirInode)
      (entry : dirInode.entry name = some child) (childFound : fs.inodes child = some childInode)
      (plain : childInode.isSymlink = false) (keeps : Keeps trusted dirInode childInode)
      (below : Guarded trusted fs child rest object) :
      Guarded trusted fs dir (name :: rest) object

variable {trusted : Uid → Prop} {actor : Credentials} {fs fs' : Filesystem Name}

/-- A single bit of a mask that is clear is clear. -/
theorem and_eq_zero_of_mask {bits mask bit : UInt32} (clear : bits &&& mask = 0)
    (inMask : mask &&& bit = bit) : bits &&& bit = 0 := by
  rw [← inMask, ← UInt32.and_assoc, clear, UInt32.zero_and]

/-- An outsider may not write what is closed to the group and others. -/
theorem not_mayWrite {inode : Inode Name} (root : trusted 0) (outsider : ¬ trusted actor.uid)
    (owner : trusted inode.owner) (closed : inode.permissions &&& writableByOthers = 0) :
    ¬ actor.mayWrite inode := by
  have notRoot : actor.uid ≠ 0 := fun same => outsider (same ▸ root)
  have notOwner : actor.uid ≠ inode.owner := fun same => outsider (same ▸ owner)
  have group : inode.permissions &&& 0o020 = 0 := and_eq_zero_of_mask closed (by decide)
  have others : inode.permissions &&& 0o002 = 0 := and_eq_zero_of_mask closed (by decide)
  unfold Credentials.mayWrite
  rw [if_neg notRoot, if_neg notOwner]
  split
  · exact not_not_intro group
  · exact not_not_intro others

theorem Keeps.not_mayRemove {dir child : Inode Name} (keeps : Keeps trusted dir child)
    (root : trusted 0) (outsider : ¬ trusted actor.uid) : ¬ actor.mayRemove dir child := by
  rintro ⟨mayWrite, mayRemove⟩
  obtain ⟨owner, closed | ⟨sticky, ownChild⟩⟩ := keeps
  · exact not_mayWrite root outsider owner closed mayWrite
  · rcases mayRemove with clear | isRoot | isOwner | isChildOwner
    · exact sticky clear
    · exact outsider (isRoot ▸ root)
    · exact outsider (isOwner ▸ owner)
    · exact outsider (isChildOwner ▸ ownChild)

/-- An outsider changes no permissions of a trusted owner's object. -/
theorem Change.permissions_of_trusted {before after : Inode Name}
    (change : Change actor fs before after) (root : trusted 0) (outsider : ¬ trusted actor.uid)
    (owner : trusted before.owner) : after.permissions = before.permissions := by
  rcases change.permissions with same | isRoot | isOwner
  · exact same
  · exact absurd (isRoot ▸ root) outsider
  · exact absurd (isOwner ▸ owner) outsider

/-- A guarded path survives an outsider's step. -/
theorem Guarded.step [DecidableEq Name] {id object : Id} {names : List Name}
    (guarded : Guarded trusted fs id names object) (root : trusted 0)
    (outsider : ¬ trusted actor.uid) (step : Step actor fs fs') :
    Guarded trusted fs' id names object := by
  induction guarded with
  | object id inode found closed plain =>
    obtain ⟨after, foundAfter, change⟩ := step.inode found
    have permissions := change.permissions_of_trusted root outsider closed.1
    refine .object id after foundAfter ⟨?_, ?_⟩ (change.isSymlink ▸ plain)
    · rw [change.owner]
      exact closed.1
    · rw [permissions]
      exact closed.2
  | entry dir child object dirInode childInode name rest found entry childFound plain keeps below
      ih =>
    obtain ⟨after, foundAfter, change⟩ := step.inode found
    obtain ⟨childAfter, childFoundAfter, childChange⟩ := step.inode childFound
    have permissions := change.permissions_of_trusted root outsider keeps.1
    have kept : after.entry name = some child := by
      rcases change.entry name with same | ⟨-, mayRemove⟩
      · rw [same, entry]
      · exact absurd (mayRemove child childInode entry childFound)
          (keeps.not_mayRemove root outsider)
    refine .entry dir child object after childAfter name rest foundAfter kept childFoundAfter
      (childChange.isSymlink ▸ plain) ⟨?_, ?_⟩ ih
    · rw [change.owner]
      exact keeps.1
    · rw [permissions, childChange.owner]
      exact keeps.2

/-- The object of a guarded path keeps its content under an outsider's step. -/
theorem Guarded.content_step [DecidableEq Name] {id object : Id} {names : List Name}
    (guarded : Guarded trusted fs id names object) (root : trusted 0)
    (outsider : ¬ trusted actor.uid) (step : Step actor fs fs') :
    fs'.content object = fs.content object := by
  induction guarded with
  | object id inode found closed plain =>
    obtain ⟨after, foundAfter, change⟩ := step.inode found
    unfold Filesystem.content
    rw [foundAfter, found, Option.map_some, Option.map_some]
    exact congrArg some
      (change.content.resolve_right (not_mayWrite root outsider closed.1 closed.2))
  | entry _ _ _ _ _ _ _ _ _ _ _ _ _ ih => exact ih

/-- The inode at the start of a guarded path. -/
theorem Guarded.found {id object : Id} {names : List Name}
    (guarded : Guarded trusted fs id names object) : ∃ inode, fs.inodes id = some inode := by
  cases guarded with
  | object _ inode found => exact ⟨inode, found⟩
  | entry _ child _ dirInode childInode name rest found => exact ⟨dirInode, found⟩

/-- A guarded path leads to one object. -/
theorem Guarded.unique {id object other : Id} {names : List Name}
    (guarded : Guarded trusted fs id names object) (again : Guarded trusted fs id names other) :
    object = other := by
  induction guarded with
  | object =>
    cases again
    rfl
  | entry dir child object dirInode childInode name rest found isEntry _ _ _ _ ih =>
    cases again with
    | entry _ child' _ dirInode' _ _ _ found' isEntry' _ _ _ below' =>
      cases found.symm.trans found'
      cases isEntry.symm.trans isEntry'
      exact ih below'

/-- Resolution goes down a plain entry. -/
theorem resolve_name {id child : Id} {dirInode childInode : Inode Name} {name : Name}
    (found : fs.inodes id = some dirInode) (entry : dirInode.entry name = some child)
    (childFound : fs.inodes child = some childInode) (plain : childInode.isSymlink = false)
    (links : Nat) (rest : List (Component Name)) :
    fs.resolve links id (.name name :: rest) = fs.resolve links child rest := by
  rw [Filesystem.resolve]
  simp only [found, Option.bind_some, entry, childFound]
  unfold Inode.isSymlink at plain
  split
  · rename_i target held
    simp [held] at plain
  · rfl

/-- What a guarded path resolves to is its object. -/
theorem Guarded.resolve {id object found : Id} {names : List Name} {links : Nat}
    {components : List (Component Name)} (guarded : Guarded trusted fs id names object)
    (named : Filesystem.namesOf components = some names)
    (resolved : fs.resolve links id components = some found) : found = object := by
  induction components generalizing id names with
  | nil =>
    cases named
    cases guarded with
    | object _ inode foundInode =>
      rw [Filesystem.resolve, foundInode] at resolved
      exact (Option.some.inj resolved).symm
  | cons component rest ih =>
    cases component with
    | current =>
      obtain ⟨inode, foundInode⟩ := guarded.found
      rw [Filesystem.resolve, foundInode] at resolved
      simp only at resolved
      split at resolved
      · exact ih guarded named resolved
      · cases resolved
    | parent => cases named
    | name name =>
      obtain ⟨others, namedRest, rfl⟩ := Option.map_eq_some_iff.mp named
      cases guarded with
      | entry _ child _ dirInode childInode _ _ foundDir entry childFound plain keeps below =>
        rw [resolve_name foundDir entry childFound plain] at resolved
        exact ih below namedRest resolved

/-- An outsider's step does not change what a guarded path resolves to. -/
theorem Guarded.resolve_step [DecidableEq Name] {id object : Id} {names : List Name} {links : Nat}
    {components : List (Component Name)} (guarded : Guarded trusted fs id names object)
    (named : Filesystem.namesOf components = some names) (root : trusted 0)
    (outsider : ¬ trusted actor.uid) (step : Step actor fs fs') :
    fs'.resolve links id components = fs.resolve links id components := by
  induction components generalizing id names with
  | nil =>
    obtain ⟨inode, found⟩ := guarded.found
    obtain ⟨after, foundAfter, -⟩ := step.inode found
    rw [Filesystem.resolve, Filesystem.resolve, found, foundAfter]
    rfl
  | cons component rest ih =>
    cases component with
    | current =>
      obtain ⟨inode, found⟩ := guarded.found
      obtain ⟨after, foundAfter, change⟩ := step.inode found
      rw [Filesystem.resolve, Filesystem.resolve, found, foundAfter]
      simp only [change.isDirectory, ih guarded named]
    | parent => cases named
    | name name =>
      obtain ⟨others, namedRest, rfl⟩ := Option.map_eq_some_iff.mp named
      have after := guarded.step root outsider step
      cases guarded with
      | entry _ child _ dirInode childInode _ _ foundDir entry childFound plain keeps below =>
        cases after with
        | entry _ child' _ dirInode' childInode' _ _ foundDir' entry' childFound' plain' =>
          obtain ⟨dirAfter, foundAfter, change⟩ := step.inode foundDir
          have sameChild : child' = child := by
            rcases change.entry name with same | ⟨-, mayRemove⟩
            · cases foundDir'.symm.trans foundAfter
              exact Option.some.inj (entry'.symm.trans (same.trans entry))
            · exact absurd (mayRemove child childInode entry childFound)
                (keeps.not_mayRemove root outsider)
          subst sameChild
          rw [resolve_name foundDir entry childFound plain,
            resolve_name foundDir' entry' childFound' plain']
          exact ih below namedRest

theorem Step.root [DecidableEq Name] (step : Step actor fs fs') : fs'.root = fs.root := by
  cases step <;> rfl

/-- Any steps of outsiders. -/
abbrev Outsiders [DecidableEq Name] (trusted : Uid → Prop) :
    Filesystem Name → Filesystem Name → Prop :=
  Relation.ReflTransGen fun fs fs' => ∃ actor, ¬ trusted actor.uid ∧ Step actor fs fs'

theorem Outsiders.root [DecidableEq Name] (run : Outsiders trusted fs fs') :
    fs'.root = fs.root := by
  induction run with
  | refl => rfl
  | tail _ last ih =>
    obtain ⟨actor, -, step⟩ := last
    rw [step.root, ih]

/-- Outsiders change neither what a guarded path names nor the content of its object. -/
theorem Guarded.run [DecidableEq Name] {id object : Id} {names : List Name}
    (guarded : Guarded trusted fs id names object) (root : trusted 0)
    (run : Outsiders trusted fs fs') :
    Guarded trusted fs' id names object ∧ fs'.content object = fs.content object ∧
      ∀ links components, Filesystem.namesOf components = some names →
        fs'.resolve links id components = fs.resolve links id components := by
  induction run with
  | refl => exact ⟨guarded, rfl, fun _ _ _ => rfl⟩
  | tail _ last ih =>
    obtain ⟨before, sameContent, sameName⟩ := ih
    obtain ⟨actor, outsider, step⟩ := last
    refine ⟨before.step root outsider step,
      (before.content_step root outsider step).trans sameContent,
      fun links components named => ?_⟩
    exact (before.resolve_step named root outsider step).trans (sameName links components named)

end Guarded

end IrohTunnel.Library.Unix
