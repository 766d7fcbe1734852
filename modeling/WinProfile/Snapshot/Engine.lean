/-
  File:      WinProfile/Snapshot/Engine.lean
  Subject:   audit-journal/src/snapshot.rs: saving a registry key into a hive file with its
             metadata beside it, and listing what was saved.

  * `Fate` -- what the world does to one call of `create_registry_snapshot`: which storage calls
    fail, how the key is saved and what a failed save leaves behind, where a write stops.
  * `createRegistrySnapshot` -- the transaction, with the three ways in which it cleans up: by name
    after a failed save, by the artifact's handle, by the handle of the created metadata file.
  * `listSnapshots`, `validateInventoryEntry` -- the inventory.
-/
import WinProfile.Snapshot.Store

namespace WinProfile.Snapshot

open Handles
open Legacy (storageText hexStatus)

/-! ## 1. Errors and records -/

/-- `SecurityError`. -/
inductive SecurityError where
  | win32Error (code : UInt32)
  | privilegeNotAssigned (name : String)
  | sidResolutionError (sid : String)
  deriving DecidableEq, Repr

def SecurityError.text : SecurityError → String
  | .win32Error code => s!"Security operation failed with Win32 error code: {code.toNat}"
  | .privilegeNotAssigned name => s!"Privilege '{name}' could not be adjusted or assigned"
  | .sidResolutionError sid => s!"Failed to resolve SID: {sid}"

/-- `SnapshotError`. -/
inductive SnapshotError where
  | ioError (text : String)
  | registryError (error : RegistryError)
  | securityError (error : SecurityError)
  | storageError (error : StorageError)
  | collision (name : String)
  | saveCleanupFailed (saveError cleanupError : String)
  | cleanupFailed (metadataError cleanupError : String)
  | postSaveCleanupFailed (operationError cleanupError : String)
  | privilegeRestoreCleanupFailed (restoreError cleanupErrors : String)
  | operationAndPrivilegeRestoreFailed (operationError restoreError : String)
  | invalidInventory (metadataFile reason : String)
  | hashError (operation : String) (status : Int)
  deriving DecidableEq, Repr

def SnapshotError.text : SnapshotError → String
  | .ioError text => s!"Snapshot IO error: {text}"
  | .registryError error => s!"Registry error during snapshot: {error.text}"
  | .securityError error => s!"Security privilege error: {error.text}"
  | .storageError error => s!"Protected storage error: {storageText error}"
  | .collision name => s!"snapshot file already exists: {name}"
  | .saveCleanupFailed saveError cleanupError =>
    s!"snapshot save failed ({saveError}) and partial cleanup failed ({cleanupError})"
  | .cleanupFailed metadataError cleanupError =>
    s!"Snapshot metadata failed ({metadataError}) and hive cleanup failed ({cleanupError})"
  | .postSaveCleanupFailed operationError cleanupError =>
    s!"post-save validation failed ({operationError}) and hive cleanup failed ({cleanupError})"
  | .privilegeRestoreCleanupFailed restoreError cleanupErrors =>
    s!"privilege restoration failed ({restoreError}) and snapshot cleanup was incomplete: {cleanupErrors}"
  | .operationAndPrivilegeRestoreFailed operationError restoreError =>
    s!"snapshot operation failed ({operationError}) and privilege restoration also failed ({restoreError})"
  | .invalidInventory metadataFile reason =>
    s!"snapshot inventory entry {metadataFile} is inconsistent: {reason}"
  | .hashError operation status =>
    s!"Windows CNG operation {operation} failed with NTSTATUS {hexStatus status}"

/-- `ProtectedSnapshotArtifact`: the number of the handle, the file's name and its identity. -/
structure ProtectedSnapshotArtifact where
  file : Nat
  name : Wide
  identity : FileIdentity
  deriving DecidableEq, Repr

/-- `SnapshotMetadata`; the time counts nanoseconds. -/
structure SnapshotMetadata where
  id : String
  timestamp : Int
  sid : String
  profilePath : String
  registryKeyPath : String
  snapshotFileName : String
  sha256 : String
  fileVolumeSerial : UInt32
  fileIndex : UInt64
  reason : String
  protectedArtifact : Option ProtectedSnapshotArtifact
  deriving DecidableEq, Repr

/-- What is serialized: everything but the open handle. -/
def SnapshotMetadata.stored (metadata : SnapshotMetadata) : SnapshotMetadata :=
  { metadata with protectedArtifact := none }

/-- `serde_json` on metadata: what is written reads back without the handle. -/
structure MetadataCodec where
  encode : SnapshotMetadata → Bytes
  decode : Bytes → Except String SnapshotMetadata
  decode_encode : ∀ metadata, decode (encode metadata) = .ok metadata.stored

/-- The arguments of `create_registry_snapshot`. -/
structure SnapshotRequest where
  subkey : String
  sid : String
  profilePath : String
  reason : String

/-- A failing CNG call or read: its status, or its text. -/
structure HashFault where
  status : Int
  text : String

/-- What the world does to one call of `create_registry_snapshot`. -/
structure Fate where
  /-- `acquire_lock`. -/
  lock : Option StorageFault := none
  /-- `PrivilegeGuard::new`. -/
  privileges : Option SecurityError := none
  /-- `Utc::now()`. -/
  now : Int := 0
  /-- The storage calls that fail, by their number within the call. -/
  calls : Faults := fun _ => none
  /-- `open_key`. -/
  openKey : Option RegistryError := none
  /-- `RegSaveKeyExW`: the hive, or an error and the file it leaves behind, if any. -/
  save : Except (RegistryError × Option Bytes) Bytes
  /-- The identities of the files that calls create. -/
  identity : Nat → FileIdentity
  /-- The calls of `sha256_file` that fail. -/
  hash : Nat → Option HashFault := fun _ => none
  /-- Writing the metadata stops after so many bytes with an error. -/
  written : Option (Nat × String) := none
  flush : Option String := none
  /-- `sync_all`. -/
  sync : Option String := none
  /-- `privileges.restore()`. -/
  restore : Option SecurityError := none

variable {H : Host} {α : Type}

/-! ## 2. The calls of the transaction -/

/-- A call that fails with a given error. -/
def mayFail {ε : Type} (error : Option ε) : Act (Store H) ε Unit :=
  match error with
  | some e => Act.fail e
  | none => Act.ret ()

/-- A handle that is dropped when what follows fails. -/
def closeOnError {ε : Type} (name : Wide) (handle : Nat) (m : Act (Store H) ε α) :
    Act (Store H) ε α :=
  Act.rescue m fun error => Act.ensuring (Act.fail error) fun s => s.close name handle

/-- `file_identity` of an open file. -/
def fileIdentity (faults : Faults) (name : Wide) : Act (Store H) StorageError FileIdentity :=
  storageCall faults <| .of fun s => match s.files.find name with
    | some f => (.ok f.body.identity, s)
    | none =>
      (.error (.io "read storage file identity" (H.pathText name)
        "The handle is invalid. (os error 6)"), s)

/-- What an open file holds. -/
def contentOf {ε : Type} (name : Wide) : Act (Store H) ε Bytes := .of fun s =>
  (.ok (((s.files.find name).map (·.body.content)).getD []), s)

def HASH_BUFFER_BYTES : Nat := 64 * 1024

/-- What a loop over a buffer of `n` bytes reads, with at most so many rounds. -/
def chunks (n : Nat) : Nat → Bytes → List Bytes
  | 0, _ => []
  | _ + 1, [] => []
  | rounds + 1, b :: bs => (b :: bs).take n :: chunks n rounds ((b :: bs).drop n)

/-- A call of `sha256_file`. -/
def hashCall (hash : Nat → Option HashFault) (error : HashFault → SnapshotError) :
    Act (Store H) SnapshotError Unit := .of fun s =>
  match hash s.clock with
  | some f => (.error (error f), s.tick)
  | none => (.ok (), s.tick)

/-- `cng_ok` on a CNG call. -/
def cngCall (hash : Nat → Option HashFault) (operation : String) :
    Act (Store H) SnapshotError Unit := hashCall hash fun f => .hashError operation f.status

/-- The loop of `sha256_file`: what BCrypt has been given. -/
def hashLoop (hash : Nat → Option HashFault) :
    List Bytes → Bytes → Act (Store H) SnapshotError Bytes
  | [], hashed => do
    hashCall hash fun f => .ioError f.text  -- the read that finds the end
    pure hashed
  | chunk :: rest, hashed => do
    hashCall hash fun f => .ioError f.text  -- seek_read
    cngCall hash "BCryptHashData"
    hashLoop hash rest (hashed ++ chunk)

/-- `sha256_file`. -/
def sha256File (hash : Nat → Option HashFault) (name : Wide) : Act (Store H) SnapshotError String := do
  cngCall hash "BCryptOpenAlgorithmProvider"
  cngCall hash "BCryptGetProperty"
  hashCall hash fun _ => .ioError "CNG returned an invalid property length"
  cngCall hash "BCryptCreateHash"
  let content ← contentOf name
  let hashed ← hashLoop hash (chunks HASH_BUFFER_BYTES content.length content) []
  cngCall hash "BCryptFinishHash"
  pure (H.sha256 hashed)

def ERROR_ALREADY_EXISTS : UInt32 := 183

/-- `save_key` into a file of the directory; a file that is there is not touched. -/
def saveKey (fate : Fate) (name : Wide) : Act (Store H) RegistryError Unit := .of fun s =>
  match s.files.find name with
  | some _ => (.error (.win32Error ERROR_ALREADY_EXISTS), s.tick)
  | none => match fate.save with
    | .ok content =>
      (.ok (), s.tick.setFile name
        { body := { kind := .file, content, identity := fate.identity s.clock } })
    | .error (error, some content) =>
      (.error error, s.tick.setFile name
        { body := { kind := .file, content, identity := fate.identity s.clock } })
    | .error (error, none) => (.error error, s.tick)

/-- `SNAPSHOT_SEQUENCE.fetch_add(1)`. -/
def nextSequence {ε : Type} : Act (Store H) ε Nat := .of fun s =>
  (.ok s.sequence, { s with sequence := (s.sequence + 1) % 2 ^ 64 })

/-- Dropping metadata closes the handle of its artifact. -/
def SnapshotMetadata.release (metadata : SnapshotMetadata) (s : Store H) : Store H :=
  match metadata.protectedArtifact with
  | some artifact => s.close artifact.name artifact.file
  | none => s

/-! ## 3. Cleaning up -/

section CleanUp

variable (faults : Faults)

/-- `cleanup_after_failed_save`. -/
def cleanupAfterFailedSave (filename : String) (saveError : RegistryError) :
    Act (Store H) SnapshotError α := do
  match ← Act.attempt (removeFileIfExists faults (encodeWide filename)) with
  | .ok _ => Act.fail (.registryError saveError)
  | .error cleanupError =>
    Act.fail (.saveCleanupFailed saveError.text (storageText cleanupError))

/-- `cleanup_after_post_save_error`. -/
def cleanupAfterPostSaveError (filename : String) (operationError : SnapshotError) :
    Act (Store H) SnapshotError α := do
  match ← Act.attempt (removeFileIfExists faults (encodeWide filename)) with
  | .ok _ => Act.fail operationError
  | .error cleanupError =>
    Act.fail (.postSaveCleanupFailed operationError.text (storageText cleanupError))

/-- The first step of `cleanup_transaction_artifacts`. -/
def rollbackErrors (metadataFile : Option CreatedStorageFile) :
    Act (Store H) SnapshotError (List String) :=
  match metadataFile with
  | none => Act.ret []
  | some created => Act.rescue (do created.rollback faults; pure []) fun error =>
      Act.ret ["metadata: " ++ storageText error]

/-- The second step of `cleanup_transaction_artifacts`. -/
def hiveErrors (metadata : SnapshotMetadata) : Act (Store H) SnapshotError (List String) :=
  match metadata.protectedArtifact with
  | none => Act.ret ["hive: protected artifact unavailable"]
  | some artifact =>
    Act.rescue (do
      deleteByHandle faults "delete open storage file by handle" artifact.name artifact.file
      pure []) fun error => Act.ret ["hive: " ++ storageText error]

/-- `cleanup_transaction_artifacts`. -/
def cleanupTransactionArtifacts (metadata : SnapshotMetadata)
    (metadataFile : Option CreatedStorageFile) : Act (Store H) SnapshotError (List String) := do
  let metadataErrors ← rollbackErrors faults metadataFile
  let cleanupErrors ← hiveErrors faults metadata
  Act.update metadata.release
  pure (metadataErrors ++ cleanupErrors)

/-- `cleanup_after_metadata_error`. -/
def cleanupAfterMetadataError (metadata : SnapshotMetadata)
    (metadataFile : Option CreatedStorageFile) (operationError : SnapshotError) :
    Act (Store H) SnapshotError α := do
  let cleanupErrors ← cleanupTransactionArtifacts faults metadata metadataFile
  if cleanupErrors = [] then Act.fail operationError
  else Act.fail (.cleanupFailed operationError.text ("; ".intercalate cleanupErrors))

/-- `finish_snapshot_operation`. -/
def finishSnapshotOperation :
    Except SnapshotError (SnapshotMetadata × CreatedStorageFile) → Option SecurityError →
      Act (Store H) SnapshotError SnapshotMetadata
  | .ok done, none => do
    Act.update done.2.commit
    pure done.1
  | .error operationError, none => Act.fail operationError
  | .error operationError, some restoreError =>
    Act.fail (.operationAndPrivilegeRestoreFailed operationError.text restoreError.text)
  | .ok done, some restoreError => do
    let cleanupErrors ← cleanupTransactionArtifacts faults done.1 (some done.2)
    if cleanupErrors = [] then Act.fail (.securityError restoreError)
    else Act.fail (.privilegeRestoreCleanupFailed restoreError.text
      ("; ".intercalate cleanupErrors))

end CleanUp

/-! ## 4. Creating -/

section Create

variable (C : MetadataCodec) (fate : Fate) (request : SnapshotRequest)

/-- The name of the hive file. -/
def snapshotFileName (H : Host) (now : Int) (sequence : Nat) (sid : String) : String :=
  "snap_" ++ H.stamp now ++ "_" ++ toString H.processId ++ "_" ++ toString sequence ++ "_" ++
    replaceChar ':' '_' (replaceChar '\\' '_' sid) ++ ".hiv"

/-- The check that the name is free. -/
def checkFree (filename : String) : Act (Store H) SnapshotError Unit := do
  match ← Act.attempt (openFile fate.calls (encodeWide filename) FILE_READ_ATTRIBUTES
      FILE_SHARE_READ) with
  | .ok handle =>
    Act.ensuring (Act.fail (.collision filename)) fun s => s.close (encodeWide filename) handle
  | .error error => if error.isNotFound then pure () else Act.fail (.storageError error)

/-- The closure behind `artifact_result`: the open hive and its digest. -/
def openArtifact (filename : String) :
    Act (Store H) SnapshotError (ProtectedSnapshotArtifact × String) := do
  let name := encodeWide filename
  let file ← Act.mapErr .storageError (openFile fate.calls name
    (FILE_GENERIC_READ ||| FILE_READ_ATTRIBUTES ||| DELETE) FILE_SHARE_READ)
  let identity ← closeOnError name file (Act.mapErr .storageError (fileIdentity fate.calls name))
  let digest ← closeOnError name file (sha256File fate.hash name)
  pure ({ file, name, identity }, digest)

/-- The metadata of a saved hive. -/
def metadataOf (H : Host) (sequence : Nat) (filename : String)
    (saved : ProtectedSnapshotArtifact × String) : SnapshotMetadata where
  id := toString (fate.now.fdiv 1000) ++ "_" ++ toString H.processId ++ "_" ++ toString sequence
  timestamp := fate.now
  sid := request.sid
  profilePath := request.profilePath
  registryKeyPath := "HKLM\\" ++ request.subkey
  snapshotFileName := filename
  sha256 := saved.2
  fileVolumeSerial := saved.1.identity.volumeSerial
  fileIndex := saved.1.identity.fileIndex
  reason := request.reason
  protectedArtifact := some saved.1

/-- The metadata file, empty. -/
def createMetadata (metadata : SnapshotMetadata) :
    Act (Store H) SnapshotError CreatedStorageFile := do
  let call := (← Act.read).clock
  Act.rescue (createFile fate.calls (fate.identity call)
      (encodeWide (metadata.snapshotFileName ++ ".json")) FILE_SHARE_READ)
    fun error => cleanupAfterMetadataError fate.calls metadata none (.storageError error)

/-- The closure behind `metadata_result`. -/
def writeMetadata (metadata : SnapshotMetadata) (created : CreatedStorageFile) :
    Act (Store H) SnapshotError Unit := do
  Act.update fun s => match s.files.find created.name with
    | none => s
    | some f => s.setFile created.name { f with
        body := { f.body with content :=
          match fate.written with
          | some cut => (C.encode metadata).take cut.1
          | none => C.encode metadata } }
  mayFail (fate.written.map fun cut => .ioError cut.2)
  mayFail (fate.flush.map .ioError)
  mayFail (fate.sync.map .ioError)

/-- The closure behind `operation`, from the name of the hive on. -/
def captureHive (sequence : Nat) (filename : String) :
    Act (Store H) SnapshotError (SnapshotMetadata × CreatedStorageFile) := do
  Act.mapErr .storageError (Act.ofExcept (validateComponent (encodeWide filename)))  -- child_path
  checkFree fate filename
  mayFail (fate.openKey.map .registryError)
  Act.rescue (saveKey fate (encodeWide filename)) (cleanupAfterFailedSave fate.calls filename)
  let saved ← Act.rescue (openArtifact fate filename)
    (cleanupAfterPostSaveError fate.calls filename)
  let metadata := metadataOf fate request H sequence filename saved
  let created ← createMetadata fate metadata
  Act.rescue (writeMetadata C fate metadata created)
    (cleanupAfterMetadataError fate.calls metadata (some created))
  pure (metadata, created)

/-- The closure behind `operation`. -/
def captureSnapshot : Act (Store H) SnapshotError (SnapshotMetadata × CreatedStorageFile) := do
  let sequence ← nextSequence
  captureHive C fate request sequence (snapshotFileName H fate.now sequence request.sid)

/-- `create_registry_snapshot`. -/
def createRegistrySnapshot : Act (Store H) SnapshotError SnapshotMetadata := do
  Act.update fun s => { s with clock := 0, removalFailed := false }
  Act.mapErr .storageError (mayFail (fate.lock.map (·.error)))
  Act.mapErr .securityError (mayFail fate.privileges)
  let operation ← Act.attempt (captureSnapshot C fate request)
  finishSnapshotOperation fate.calls operation fate.restore

end Create

/-! ## 5. Listing -/

section List

variable (C : MetadataCodec) (faults : Faults) (hash : Nat → Option HashFault)

/-- An error of a storage call on the associated hive. -/
def inventoryError (metadataFile : String) (error : StorageError) : SnapshotError :=
  .invalidInventory metadataFile (storageText error)

/-- The checks of `validate_inventory_entry` on the open hive. -/
def validateHive (metadataFile : String) (metadata : SnapshotMetadata) :
    Act (Store H) SnapshotError Unit := do
  let hive := encodeWide metadata.snapshotFileName
  let identity ← Act.mapErr (inventoryError metadataFile) (fileIdentity faults hive)
  Act.guard (identity = ⟨metadata.fileVolumeSerial, metadata.fileIndex⟩)
    (.invalidInventory metadataFile "associated hive identity does not match metadata")
  let digest ← Act.mapErr (fun error => .invalidInventory metadataFile error.text)
    (sha256File hash hive)
  Act.guard (digest = metadata.sha256)
    (.invalidInventory metadataFile "associated hive SHA-256 does not match metadata")

/-- `validate_inventory_entry`. -/
def validateInventoryEntry (metadataFile : String) (metadata : SnapshotMetadata) :
    Act (Store H) SnapshotError Unit := do
  Act.guard (endsWith ".hiv" metadata.snapshotFileName)
    (.invalidInventory metadataFile "snapshot file name must be a .hiv component")
  Act.guard (metadataFile = metadata.snapshotFileName ++ ".json")
    (.invalidInventory metadataFile
      ("metadata name does not match associated hive " ++ metadata.snapshotFileName))
  let name := encodeWide metadata.snapshotFileName
  Act.mapErr (inventoryError metadataFile) (Act.ofExcept (validateComponent name))  -- child_path
  let hive ← Act.mapErr (inventoryError metadataFile) (openFile faults name
    (FILE_GENERIC_READ ||| FILE_READ_ATTRIBUTES) FILE_SHARE_READ)
  Act.ensuring (validateHive faults hash metadataFile metadata) fun s => s.close name hive

/-- One round of the loop of `list_snapshots` on a name of the right kind. -/
def readMetadata (text : String) : Act (Store H) SnapshotError SnapshotMetadata := do
  let name := encodeWide text
  let file ← Act.mapErr .storageError (openFile faults name FILE_GENERIC_READ FILE_SHARE_READ)
  let metadata ← Act.ensuring (do
    let content ← contentOf name
    Act.mapErr .ioError (Act.ofExcept (C.decode content))) fun s => s.close name file
  validateInventoryEntry faults hash text metadata
  pure metadata

/-- The names that `list_snapshots` looks at. -/
def metadataNames (names : List Wide) : List String :=
  (names.filterMap decodeUtf16).filter fun text => endsWith ".json" text

/-- The loop of `list_snapshots`. -/
def readAll : List String → Act (Store H) SnapshotError (List SnapshotMetadata)
  | [] => Act.ret []
  | text :: rest => do
    let metadata ← readMetadata C faults hash text
    let others ← readAll rest
    pure (metadata :: others)

/-- `results.sort_by_key(|metadata| Reverse(metadata.timestamp))`. -/
def sortLatestFirst (results : List SnapshotMetadata) : List SnapshotMetadata :=
  results.insertionSort fun a b => b.timestamp ≤ a.timestamp

/-- `list_snapshots`. -/
def listSnapshots (lock : Option StorageFault) :
    Act (Store H) SnapshotError (List SnapshotMetadata) := do
  Act.update fun s => { s with clock := 0, removalFailed := false }
  Act.mapErr .storageError (mayFail (lock.map (·.error)))
  let names ← Act.mapErr .storageError (entries faults)
  let results ← readAll C faults hash (metadataNames names)
  pure (sortLatestFirst results)

end List

end WinProfile.Snapshot
