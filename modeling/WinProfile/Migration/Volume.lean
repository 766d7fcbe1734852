/-
  File:      WinProfile/Migration/Volume.lean
  Subject:   platform-win32/src/secure_fs.rs, the part that a migration copies with: enumerating and
             opening what lies in the source, creating and removing what lies in the destination.

  * `SourceNode` -- the source profile, which does not change during a run.
  * `RunState` -- what lies under the parent of the destination, the transaction and what the run
    has reported; objects are removed by the handle that created them, not by name.
  * `Fate` -- what the outside decides: the order of an enumeration, how reads are split, what the
    medium stores, which calls fail and when the user cancels.
-/
import WinProfile.Journal.Log
import WinProfile.Migration.Roots

namespace WinProfile.Migration

open Progress (MigrationProgress)

variable {α ε : Type}

/-! ## 1. The source -/

/-- The content of a file; its length is a `u64`. -/
structure FileContent where
  bytes : Bytes
  small : bytes.length < 2 ^ 64

/-- What a name of the source stands for. `names` are the entries of a directory as they are stored,
and `child` says what each of them is. -/
inductive SourceNode where
  | file (content : FileContent)
  | directory (names : List Wide) (child : Wide → SourceNode)
  | reparse

/-- What the computer decides in the same way every time. -/
structure CopyHost extends MigrationHost where
  /-- SHA-256 in lower-case hexadecimal. -/
  sha256 : Bytes → String
  /-- The upcase table that file names are compared with. -/
  up : UInt16 → UInt16
  up_ascii : ∀ u, u < 0x80 → up u = if 0x61 ≤ u ∧ u ≤ 0x7A then u - 0x20 else u

def CopyHost.fold (H : CopyHost) (name : Wide) : List UInt16 := name.map H.up

/-- The look-up of a name: the entry stored under it, else one that differs in case. -/
def SourceNode.find (H : CopyHost) (name : Wide) : SourceNode → Option SourceNode
  | .directory names child =>
    if name ∈ names then some (child name)
    else (names.find? fun n => H.fold n = H.fold name).map child
  | _ => none

/-- The kind that the enumeration reports. -/
def SourceNode.kind : SourceNode → Option SecureEntryKind
  | .file _ => some .file
  | .directory _ _ => some .directory
  | .reparse => none

/-- `SecureDirectory` of the source: the opened object and its path. -/
structure SourceDirectory where
  node : SourceNode
  displayPath : Wide

/-! ## 2. The outside -/

def COPY_BUFFER_BYTES : Nat := 1024 * 1024

/-- A call that fails: its error where it is one of `secure_fs.rs`, and its text elsewhere. It is not
one of the answers that mean an absent name. -/
structure CallFault where
  secure : SecureFsError
  text : String
  /-- How much of a chunk has been written when a write fails. -/
  written : Nat := 0
  real : ∀ path, secure ≠ .notFound path

/-- What the outside decides during one migration. -/
structure Fate where
  /-- `acquire_operation_guard`. -/
  guard : Option String := none
  /-- The order in which a directory, known by its path, is enumerated. -/
  arrange : Wide → List Wide → List Wide
  arrange_perm : ∀ path names, (arrange path names).Perm names
  /-- How the reads of a file that is read from this call on are split. -/
  pieces : Nat → Bytes → List Bytes
  pieces_flatten : ∀ n content, (pieces n content).flatten = content
  pieces_length : ∀ n content, ∀ piece ∈ pieces n content,
    0 < piece.length ∧ piece.length ≤ COPY_BUFFER_BYTES
  /-- What the medium stores of a chunk. -/
  media : Nat → Bytes → Bytes
  /-- The calls that fail; the calls that delete by handle are asked for separately. -/
  faults : Nat → Option CallFault
  deleteFaults : Nat → Option CallFault := fun _ => none
  /-- The answers of `is_cancelled`. -/
  isCancelled : Nat → Bool
  /-- The identity of the directory that the migration creates. -/
  identity : FileIdentity
  /-- `Utc::now()`. -/
  now : Nat → Int

/-! ## 3. The state of a run -/

/-- A file or a directory (`content = none`) under the parent of the destination; `parent = none`
is that parent itself. -/
structure DestObject where
  serial : Nat
  parent : Option Nat
  name : Wide
  content : Option Bytes
  deriving DecidableEq, Repr

/-- `SecureCreatedEntry`: the handle is the serial number of the object. -/
structure SecureCreatedEntry where
  handle : Nat
  displayPath : Wide
  deriving DecidableEq, Repr

/-- `CopyTransaction`; the entry created last comes first. -/
structure CopyTransaction where
  createdEntries : List SecureCreatedEntry := []
  manifest : List (String × Nat × String) := []
  observedCopiedBytes : Nat := 0
  lastRelativePath : Option String := none
  deriving DecidableEq, Repr

/-- What happens in a run that its progress is to be measured by. -/
inductive CopyEvent where
  /-- A chunk of so many bytes has been written. -/
  | written (bytes : Nat)
  /-- The file with this relative path has passed its verification. -/
  | verified (relativePath : String)
  | reported (progress : MigrationProgress)
  deriving DecidableEq, Repr

structure RunState where
  objects : List DestObject := []
  nextSerial : Nat := 0
  transaction : CopyTransaction := {}
  /-- What has been passed to `on_progress`. -/
  progress : List MigrationProgress := []
  /-- Observation only: the events of the run, the reports among them. -/
  events : List CopyEvent := []
  audits : List AuditEntry := []
  /-- The number of calls, and of questions to `is_cancelled`. -/
  clock : Nat := 0
  polls : Nat := 0
  deriving DecidableEq, Repr

namespace RunState

def tick (s : RunState) : RunState := { s with clock := s.clock + 1 }

def happened (s : RunState) (event : CopyEvent) : RunState :=
  { s with events := s.events ++ [event] }

/-- The objects in a directory. -/
def within (s : RunState) (parent : Option Nat) : List DestObject :=
  s.objects.filter fun o => o.parent = parent

def lookup (H : CopyHost) (s : RunState) (parent : Option Nat) (name : Wide) : Option DestObject :=
  (s.within parent).find? fun o => H.fold o.name = H.fold name

def create (s : RunState) (parent : Option Nat) (name : Wide) (content : Option Bytes) : RunState :=
  { s with
    objects := s.objects ++ [⟨s.nextSerial, parent, name, content⟩]
    nextSerial := s.nextSerial + 1 }

def remove (s : RunState) (serial : Nat) : RunState :=
  { s with objects := s.objects.filter fun o => o.serial ≠ serial }

/-- Append to a file. -/
def append (s : RunState) (serial : Nat) (bytes : Bytes) : RunState :=
  { s with objects := s.objects.map fun o =>
      if o.serial = serial then { o with content := o.content.map (· ++ bytes) } else o }

/-- What a file holds. -/
def stored (s : RunState) (serial : Nat) : Bytes :=
  ((s.objects.find? fun o => o.serial = serial).bind (·.content)).getD []

end RunState

/-- One call; the fault, if there is one, comes instead of it. -/
def call (fate : Fate) (error : CallFault → ε) (body : Act RunState ε α) : Act RunState ε α :=
  .of fun s => match fate.faults s.clock with
    | some f => (.error (error f), s.tick)
    | none => body s.tick

/-- A call of `secure_fs.rs` that changes nothing here. -/
def inspect (fate : Fate) : Act RunState SecureFsError Unit :=
  call fate CallFault.secure (Act.ret ())

/-! ## 4. Reading the source -/

section Source

variable (H : CopyHost) (fate : Fate)

/-- What `FILE_OPEN` with `FILE_DIRECTORY_FILE` answers. -/
def SourceNode.asDirectory (path : Wide) : Option SourceNode → Except SecureFsError SourceDirectory
  | none => .error (.notFound (display path))
  | some (.file _) => .error (.invalidPath (display path))
  | some .reparse => .error (.reparsePoint (display path))
  | some (.directory names child) => .ok ⟨.directory names child, path⟩

/-- What `FILE_OPEN` with `FILE_NON_DIRECTORY_FILE` answers. -/
def SourceNode.asFile (path : Wide) : Option SourceNode → Except SecureFsError FileContent
  | none => .error (.notFound (display path))
  | some (.file content) => .ok content
  | some .reparse => .error (.reparsePoint (display path))
  | some (.directory _ _) => .error (.invalidPath (display path))

/-- `SecureDirectory::open_directory` in the source. -/
def SourceDirectory.openDirectory (dir : SourceDirectory) (name : Wide) :
    Act RunState SecureFsError SourceDirectory := do
  let path ← Act.ofExcept (childDisplayPath dir.displayPath name)
  Act.ofExcept (checkRelativeName name path)
  call fate CallFault.secure (Act.ofExcept (SourceNode.asDirectory path (dir.node.find H name)))

/-- `SecureDirectory::open_file`. -/
def SourceDirectory.openFile (dir : SourceDirectory) (name : Wide) :
    Act RunState SecureFsError FileContent := do
  let path ← Act.ofExcept (childDisplayPath dir.displayPath name)
  Act.ofExcept (checkRelativeName name path)
  call fate CallFault.secure (Act.ofExcept (SourceNode.asFile path (dir.node.find H name)))

/-- `parse_directory_buffer`: the entries in the order they come in, up to the first reparse point.
The entries `.` and `..`, which it passes over, are not among the names of a directory. -/
def parseDirectoryBuffer (path : Wide) (child : Wide → SourceNode) :
    List Wide → Except SecureFsError (List SecureDirEntry)
  | [] => .ok []
  | name :: rest => match (child name).kind with
    | none => .error (.reparsePoint (display (WinPath.join path name)))
    | some kind => do
      let entries ← parseDirectoryBuffer path child rest
      pure (⟨name, kind⟩ :: entries)

/-- What `SecureDirectory::entries` reads, sorted. -/
def SourceDirectory.listed (dir : SourceDirectory) : Except SecureFsError (List SecureDirEntry) :=
  match dir.node with
  | .directory names child => do
    let entries ← parseDirectoryBuffer dir.displayPath child (fate.arrange dir.displayPath names)
    pure (sortByKey H.lower SecureDirEntry.name entries)
  | _ => .ok []

/-- `SecureDirectory::entries`. -/
def SourceDirectory.entries (dir : SourceDirectory) :
    Act RunState SecureFsError (List SecureDirEntry) :=
  call fate CallFault.secure (Act.ofExcept (dir.listed H fate))

end Source

/-! ## 5. Writing the destination -/

/-- `SecureDirectory` of the destination: the opened object (`none` is the parent of the target) and
its path. -/
structure DestDirectory where
  node : Option Nat
  displayPath : Wide
  deriving DecidableEq, Repr

def STATUS_SHARING_VIOLATION : String := "0xc0000043"

section Destination

variable (H : CopyHost) (fate : Fate)

/-- `delete_open_handle`. -/
def deleteOpenHandle (entry : SecureCreatedEntry) : Act RunState SecureFsError Unit :=
  call { fate with faults := fate.deleteFaults } CallFault.secure <| .of fun s =>
    if s.within (some entry.handle) = [] then (.ok (), s.remove entry.handle)
    else
      (.error (.io "delete by handle" (display entry.displayPath)
        "The directory is not empty. (os error 145)"), s)

/-- `nt_open_relative` with `FILE_CREATE`: the serial number of the new object. -/
def ntCreate (dir : DestDirectory) (name path : Wide) (content : Option Bytes) :
    Act RunState SecureFsError Nat := do
  Act.ofExcept (checkRelativeName name path)
  call fate CallFault.secure <| .of fun s => match s.lookup H dir.node name with
    | some _ => (.error (.alreadyExists (display path)), s)
    | none => (.ok s.nextSerial, s.create dir.node name content)

/-- `PendingCreatedHandle::fail`. -/
def pendingFail (entry : SecureCreatedEntry) (operationError : SecureFsError) :
    Act RunState SecureFsError α := do
  match ← Act.attempt (deleteOpenHandle fate entry) with
  | .ok () => Act.fail operationError
  | .error rollbackError => Act.fail (.rollback operationError.text rollbackError.text)

/-- `SecureDirectory::create_directory`. -/
def DestDirectory.createDirectory (dir : DestDirectory) (name : Wide) :
    Act RunState SecureFsError (DestDirectory × SecureCreatedEntry) := do
  let path ← Act.ofExcept (childDisplayPath dir.displayPath name)
  let serial ← ntCreate H fate dir name path none
  Act.rescue (do
    inspect fate  -- reject_reparse_handle
    inspect fate  -- file_identity
    inspect fate  -- clone_namespace_guards
    inspect fate) (pendingFail fate ⟨serial, path⟩)  -- try_clone
  pure (⟨some serial, path⟩, ⟨serial, path⟩)

/-- `SecureDirectory::open_directory` in the destination. A directory that is found there was created
by this run, and the handle that the transaction keeps on it has the right to delete, which the open
does not share. -/
def DestDirectory.openDirectory (dir : DestDirectory) (name : Wide) :
    Act RunState SecureFsError DestDirectory := do
  let path ← Act.ofExcept (childDisplayPath dir.displayPath name)
  Act.ofExcept (checkRelativeName name path)
  call fate CallFault.secure <| .of fun s => match s.lookup H dir.node name with
    | none => (.error (.notFound (display path)), s)
    | some ⟨_, _, _, some _⟩ => (.error (.invalidPath (display path)), s)
    | some ⟨_, _, _, none⟩ =>
      (.error (.native "open relative to directory handle" (display path)
        STATUS_SHARING_VIOLATION), s)

/-- `SecureDirectory::open_or_create_directory`. -/
def DestDirectory.openOrCreateDirectory (dir : DestDirectory) (name : Wide) :
    Act RunState SecureFsError (DestDirectory × Option SecureCreatedEntry) :=
  Act.rescue (do
    let next ← dir.openDirectory H fate name
    pure (next, none)) fun
    | .notFound _ => do
      let made ← dir.createDirectory H fate name
      pure (made.1, some made.2)
    | error => Act.fail error

/-- `SecureDirectory::create_file`. -/
def DestDirectory.createFile (dir : DestDirectory) (name : Wide) :
    Act RunState SecureFsError (Nat × SecureCreatedEntry) := do
  let path ← Act.ofExcept (childDisplayPath dir.displayPath name)
  let serial ← Act.rescue (ntCreate H fate dir name path (some [])) fun
    | .alreadyExists _ => do
      inspect fate  -- the object in the way is opened
      inspect fate  -- reject_reparse_handle
      Act.fail (.alreadyExists (display path))
    | error => Act.fail error
  Act.rescue (do
    inspect fate  -- reject_reparse_handle
    inspect fate) (pendingFail fate ⟨serial, path⟩)  -- try_clone
  pure (serial, ⟨serial, path⟩)

end Destination

end WinProfile.Migration
