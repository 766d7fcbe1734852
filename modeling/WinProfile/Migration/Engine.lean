/-
  File:      WinProfile/Migration/Engine.lean
  Subject:   core-profiles/src/migration.rs: the copy of the selected roots under one transaction.

  * `copyFileVerified` -- one file: copied piece by piece, read back, compared, and only then entered
    in the manifest.
  * `copyTreeVerified` -- a directory, in the order in which `entries` sorts it.
  * `executeMigrationWithCancel` -- validate, create the target, copy, log the receipt; after any
    error every created entry is removed, the last one first.
-/
import WinProfile.Migration.Volume

namespace WinProfile.Migration

open Progress (MigrationProgress)

/-! ## 1. The transaction -/

def APPDATA_ROAMING_REL_PATH : String := "AppData\\Roaming"

def PERSONAL_FOLDERS : List String := ["Documents", "Desktop", "Downloads", "Favorites", "Pictures"]

def u64Max : Nat := 2 ^ 64 - 1

/-- `u64::saturating_add`. -/
def saturatingAdd (a b : Nat) : Nat := min (a + b) u64Max

/-- `MigrationReceipt`. -/
structure MigrationReceipt where
  copiedFiles : Nat
  copiedBytes : Nat
  manifestSha256 : String
  deriving DecidableEq, Repr

/-- `u64::to_le_bytes`. -/
def toLeBytes (n : Nat) : Bytes := (List.range 8).map fun i => UInt8.ofNat (n / 256 ^ i)

/-- What a line of the manifest adds to the hash. -/
def manifestLine (entry : String × Nat × String) : Bytes :=
  entry.1.toUTF8.toList ++ [0] ++ toLeBytes entry.2.1 ++ entry.2.2.toUTF8.toList ++ [0x0A]

/-- The sum of the sizes in a manifest. -/
def manifestBytes (manifest : List (String × Nat × String)) : Nat :=
  manifest.foldl (fun total entry => saturatingAdd total entry.2.1) 0

/-- The receipt of a manifest. -/
def receiptOf (H : CopyHost) (manifest : List (String × Nat × String)) : MigrationReceipt where
  copiedFiles := manifest.length
  copiedBytes := manifestBytes manifest
  manifestSha256 := H.sha256 (manifest.flatMap manifestLine)

namespace CopyTransaction

/-- `CopyTransaction::receipt`. -/
def receipt (H : CopyHost) (t : CopyTransaction) : MigrationReceipt := receiptOf H t.manifest

def completedFiles (t : CopyTransaction) : Nat := t.manifest.length

def copiedBytes (t : CopyTransaction) : Nat := max t.observedCopiedBytes (manifestBytes t.manifest)

end CopyTransaction

/-- `display_relative_path`. -/
def displayRelativePath (path : Wide) : String := replaceChar '\\' '/' (toStringLossy path)

abbrev MigrationM (α : Type) := Act RunState MigrationError α

def setTransaction (f : CopyTransaction → CopyTransaction) : MigrationM Unit :=
  Act.update fun s => { s with transaction := f s.transaction }

/-- `created_entries.push`. -/
def pushCreated (entry : SecureCreatedEntry) : MigrationM Unit :=
  setTransaction fun t => { t with createdEntries := entry :: t.createdEntries }

/-- What follows `open_or_create_directory`. -/
def pushIfCreated : Option SecureCreatedEntry → MigrationM Unit
  | some entry => pushCreated entry
  | none => Act.ret ()

/-- `CopyTransaction::observe_copy`. -/
def observeCopy (relativePath : Wide) (copiedBytes : Nat) : MigrationM Unit :=
  setTransaction fun t =>
    { t with
      observedCopiedBytes := copiedBytes
      lastRelativePath := some (displayRelativePath relativePath) }

/-- `on_progress`. -/
def report (progress : CopyTransaction → MigrationProgress) : MigrationM Unit :=
  Act.update fun s =>
    { s.happened (.reported (progress s.transaction)) with
      progress := s.progress ++ [progress s.transaction] }

section Calls

variable (fate : Fate)

/-- `if is_cancelled() { return Err(Cancelled) }`. -/
def checkCancelled : MigrationM Unit := .of fun s =>
  if fate.isCancelled s.polls then (.error .cancelled, { s with polls := s.polls + 1 })
  else (.ok (), { s with polls := s.polls + 1 })

/-- A call on an open file that changes nothing here. -/
def fileCall : MigrationM Unit := call fate (fun f => .ioError f.text) (Act.ret ())

/-- `write_all`. -/
def writeAll (serial : Nat) (chunk : Bytes) : MigrationM Unit := .of fun s =>
  match fate.faults s.clock with
  | some f => (.error (.ioError f.text), s.tick.append serial (chunk.take f.written))
  | none =>
    (.ok (), (s.tick.append serial (fate.media s.clock chunk)).happened (.written chunk.length))

/-- The pieces that the reads of a file give from now on. -/
def piecesOf (content : Bytes) : MigrationM (List Bytes) := .of fun s =>
  (.ok (fate.pieces s.clock content), s)

/-- `AuditLogger::log`. -/
def log (operation target : String) (status : AuditStatus) (details : String) : MigrationM Unit :=
  call fate (fun f => .audit f.text) <| Act.update fun s =>
    { s with audits := s.audits ++
        [{ timestamp := fate.now s.clock, operation, actor := "WinProfile-Admin", target, status,
           details }] }

/-! ## 2. Files -/

/-- The loop of `sha256_file`: what has been hashed. -/
def hashLoop : List Bytes → Bytes → MigrationM Bytes
  | [], hashed => do
    checkCancelled fate
    fileCall fate  -- the read that finds the end
    pure hashed
  | chunk :: rest, hashed => do
    checkCancelled fate
    fileCall fate
    hashLoop rest (hashed ++ chunk)

variable (H : CopyHost)

/-- `sha256_file` on the file that was just written. -/
def sha256File (serial : Nat) : MigrationM String := do
  let s ← Act.read
  let pieces ← piecesOf fate (s.stored serial)
  let hashed ← hashLoop fate pieces []
  pure (H.sha256 hashed)

/-- The loop of `copy_file_verified`: the number of bytes copied and what has been hashed. -/
def copyLoop (serial : Nat) (relativePath : Wide) (completedBytes : Nat) :
    List Bytes → Nat → Bytes → MigrationM (Nat × Bytes)
  | [], copiedBytes, hashed => do
    checkCancelled fate
    fileCall fate  -- the read that finds the end
    pure (copiedBytes, hashed)
  | chunk :: rest, copiedBytes, hashed => do
    checkCancelled fate
    fileCall fate
    writeAll fate serial chunk
    let copied := saturatingAdd copiedBytes chunk.length
    let observed := saturatingAdd completedBytes copied
    observeCopy relativePath observed
    report fun t =>
      { phase := .copying
        relativePath := some (displayRelativePath relativePath)
        completedFiles := t.completedFiles
        copiedBytes := observed }
    copyLoop serial relativePath completedBytes rest copied (hashed ++ chunk)

/-- `copy_file_verified`. -/
def copyFileVerified (source : SourceDirectory) (destination : DestDirectory)
    (name relativePath : Wide) : MigrationM Unit := do
  let input ← Act.mapErr mapSecureError (source.openFile H fate name)
  let output ← Act.mapErr mapSecureError (destination.createFile H fate name)
  pushCreated output.2
  let s ← Act.read
  let pieces ← piecesOf fate input.bytes
  let copied ← copyLoop fate output.1 relativePath s.transaction.copiedBytes pieces 0 []
  checkCancelled fate
  fileCall fate  -- flush
  fileCall fate  -- sync_all
  fileCall fate  -- seek
  report fun t =>
    { phase := .verifying
      relativePath := some (displayRelativePath relativePath)
      completedFiles := t.completedFiles
      copiedBytes := t.copiedBytes }
  let destinationSha ← sha256File fate H output.1
  Act.when (H.sha256 copied.2 != destinationSha)
    (Act.fail (.verificationFailed (display relativePath)))
  fileCall fate  -- metadata
  let written ← Act.read
  Act.guard (copied.1 == (written.stored output.1).length)
    (.verificationFailed (display relativePath))
  Act.update fun s => s.happened (.verified (displayRelativePath relativePath))
  setTransaction fun t =>
    { t with manifest := t.manifest ++
        [(displayRelativePath relativePath, copied.1, H.sha256 copied.2)] }

/-! ## 3. Directories -/

/-- `copy_tree_verified`; the directory that is opened for an entry is `child entry.name`. -/
def copyTreeVerified : SourceNode → Wide → DestDirectory → Wide → MigrationM Unit
  | .directory names child, path, destination, relativeDirectory => do
    let source : SourceDirectory := ⟨.directory names child, path⟩
    let entries ← Act.mapErr mapSecureError (source.entries H fate)
    Act.forEach entries fun entry => do
      checkCancelled fate
      match entry.kind with
      | .directory => do
        let sourceChild ← Act.mapErr mapSecureError (source.openDirectory H fate entry.name)
        let made ← Act.mapErr mapSecureError (destination.openOrCreateDirectory H fate entry.name)
        pushIfCreated made.2
        copyTreeVerified (child entry.name) sourceChild.displayPath made.1
          (WinPath.join relativeDirectory entry.name)
      | .file =>
        copyFileVerified fate H source destination entry.name
          (WinPath.join relativeDirectory entry.name)
  | _, _, _, _ => pure ()  -- only directories are opened to be copied

/-- The loop of `open_relative_directory_if_present`. -/
def openComponents (relative : Wide) :
    SourceDirectory → List WinPath.Component → MigrationM (Option SourceDirectory)
  | current, [] => pure (some current)
  | current, .normal name :: rest => do
    match ← Act.attempt (current.openDirectory H fate name) with
    | .ok next => openComponents relative next rest
    | .error (.notFound _) => pure none
    | .error error => Act.fail (mapSecureError error)
  | _, _ :: _ => Act.fail (.invalidPlan ("invalid relative migration root: " ++ display relative))

/-- `open_relative_directory_if_present`. -/
def openRelativeDirectoryIfPresent (root : SourceDirectory) (relative : Wide) :
    MigrationM (Option SourceDirectory) :=
  match WinPath.components relative with
  | [] => pure none
  | components => openComponents fate H relative root components

/-- The loop of `ensure_relative_directory`. -/
def ensureComponents (relative : Wide) :
    DestDirectory → List WinPath.Component → MigrationM DestDirectory
  | current, [] => pure current
  | current, .normal name :: rest => do
    let made ← Act.mapErr mapSecureError (current.openOrCreateDirectory H fate name)
    pushIfCreated made.2
    ensureComponents relative made.1 rest
  | _, _ :: _ =>
    Act.fail (.invalidPlan ("invalid relative migration destination: " ++ display relative))

/-- `ensure_relative_directory`. -/
def ensureRelativeDirectory (root : DestDirectory) (relative : Wide) : MigrationM DestDirectory :=
  match WinPath.components relative with
  | [] => Act.fail (.invalidPlan "empty relative migration destination")
  | components => ensureComponents fate H relative root components

/-! ## 4. The migration -/

/-- The roots that a plan selects. -/
def selectedRoots (plan : MigrationPlan) : List Wide :=
  ((if plan.includeRoamingAppdata then [APPDATA_ROAMING_REL_PATH] else []) ++
    if plan.includePersonalFolders then PERSONAL_FOLDERS else []).map encodeWide

/-- The directory of the DPAPI keys. -/
def protectPath : Wide :=
  WinPath.join (WinPath.join (encodeWide APPDATA_ROAMING_REL_PATH) (encodeWide "Microsoft"))
    (encodeWide "Protect")

/-- One round of the loop over the roots. -/
def copyRoot (source : SourceDirectory) (target : DestDirectory) (relativeRoot : Wide) :
    MigrationM Unit := do
  checkCancelled fate
  match ← openRelativeDirectoryIfPresent fate H source relativeRoot with
  | none => pure ()
  | some found => do
    let destination ← ensureRelativeDirectory fate H target relativeRoot
    copyTreeVerified fate H found.node found.displayPath destination relativeRoot

variable (F : Forest) (contents : FileIdentity → SourceNode)

/-- The closure in `execute_migration_with_cancel`. -/
def operation (plan : MigrationPlan) (validated : ValidatedMigration) :
    MigrationM MigrationReceipt := do
  let source : SourceDirectory :=
    ⟨contents validated.sourceDirectory.handle, validated.sourceDirectory.displayPath⟩
  let parent : DestDirectory := ⟨none, validated.targetParent.displayPath⟩
  let made ← Act.mapErr mapSecureError (parent.createDirectory H fate validated.targetLeaf)
  pushCreated made.2
  Act.ofExcept (validateOpenedRoots validated.sourceDirectory
    (validated.targetParent.below fate.identity made.1.displayPath))
  let protectedKeys ← openRelativeDirectoryIfPresent fate H source protectPath
  Act.when protectedKeys.isSome
    (log fate "MigrationWarning" plan.sourceSid .warning
      "DPAPI material detected; SID-bound secrets are copied but may not decrypt under the destination account.")
  Act.guard (!(selectedRoots plan).isEmpty)
    (.invalidPlan "at least one migration scope must be selected")
  report fun _ =>
    { phase := .enumerating, relativePath := none, completedFiles := 0, copiedBytes := 0 }
  Act.forEach (selectedRoots plan) (copyRoot fate H source made.1)
  checkCancelled fate
  let s ← Act.read
  let receipt := s.transaction.receipt H
  checkCancelled fate
  report fun _ =>
    { phase := .finalizing
      relativePath := none
      completedFiles := receipt.copiedFiles
      copiedBytes := receipt.copiedBytes }
  checkCancelled fate
  log fate "MigrationSuccess" plan.sourceSid .success
    (s!"Verified {receipt.copiedFiles} files ({receipt.copiedBytes} bytes); manifest SHA-256 " ++
      receipt.manifestSha256)
  pure receipt

/-- `CopyTransaction::rollback`: the first error of the removals, if there is one. -/
def rollbackEntries : List SecureCreatedEntry → Act RunState SecureFsError (Option SecureFsError)
  | [] => pure none
  | entry :: rest => do
    let result ← Act.attempt (deleteOpenHandle fate entry)
    let later ← rollbackEntries rest
    match result with
    | .ok () => pure later
    | .error error => pure (some error)

/-- `CopyTransaction::rollback`. -/
def rollback : Act RunState SecureFsError Unit := do
  let s ← Act.read
  Act.update fun s => { s with transaction := { s.transaction with createdEntries := [] } }
  match ← rollbackEntries fate s.transaction.createdEntries with
  | some error => Act.fail error
  | none => pure ()

/-- The text of the journal's own error. -/
def auditText : MigrationError → String
  | .audit text => text
  | error => error.text

/-- What `execute_migration_with_cancel` does after an error of its closure. -/
def afterError (plan : MigrationPlan) (error : MigrationError) : MigrationM MigrationReceipt := do
  report fun t =>
    { phase := .rollingBack
      relativePath := t.lastRelativePath
      completedFiles := t.completedFiles
      copiedBytes := t.copiedBytes }
  match ← Act.attempt (rollback fate) with
  | .error rollbackError => do
    let result : MigrationError := .rollbackFailed error.text rollbackError.text
    match ← Act.attempt (log fate "MigrationRollbackFailed" plan.sourceSid .failed result.text) with
    | .ok () => Act.fail result
    | .error auditError =>
      Act.fail (.rollbackFailed error.text
        (rollbackError.text ++ "; audit logging also failed: " ++ auditText auditError))
  | .ok () => do
    log fate "MigrationRolledBack" plan.sourceSid .rolledBack error.text
    Act.fail error

/-- `acquire_operation_guard`. -/
def acquireOperationGuard : MigrationM Unit :=
  match fate.guard with
  | some text => Act.fail (.audit text)
  | none => Act.ret ()

/-- `execute_migration_with_cancel`; `contents` says what lies in a directory of the computer. -/
def executeMigrationWithCancel (plan : MigrationPlan) : MigrationM MigrationReceipt := do
  acquireOperationGuard fate
  let validated ← Act.ofExcept (validateForExecution H.toMigrationHost F plan)
  log fate "MigrationStarted" plan.sourceSid .warning
    ("Verified-copy migration started: " ++ display validated.sourcePath ++ " -> " ++
      display validated.targetPath)
  setTransaction fun _ => {}
  Act.rescue (operation fate H contents plan validated) (afterError fate plan)

end Calls

end WinProfile.Migration
