/-
  File:      WinProfile/Repair/Engine.lean
  Subject:   core-profiles/src/repair.rs and audit-journal/src/rollback.rs: the transactional
             repair of one profile under mandatory snapshots.

  * `executePlan` -- validate, snapshot, `executeSteps`, and on any failure `rollback`.
  * `restoreRegistrySnapshot` -- the checks before a hive goes back, and the restore itself.
  Errors of the audit journal, of the snapshot directory and of the privilege calls are their
  texts: nothing here looks inside them.
-/
import WinProfile.Lib.WinPath
import WinProfile.Win32.Registry

namespace WinProfile

variable {P : Platform}

/-! ## 1. Plans and errors -/

def VAL_PROFILE_IMAGE_PATH : String := "ProfileImagePath"
def VAL_STATE : String := "State"
def VAL_REF_COUNT : String := "RefCount"
def NTUSER_DAT : String := "NTUSER.DAT"
def AUDIT_ACTOR : String := "WinProfile-Admin"
def BACKUP_SUFFIX : String := "pre-repair"

/-- `RepairPlan`. -/
structure RepairPlan where
  sid : String
  canonicalSid : String
  profilePath : String
  fixBak : Bool
  resetState : Bool
  unlockHive : Bool
  dryRun : Bool
  deriving DecidableEq, Repr

/-- `{canonical_name}.bak`. -/
def RepairPlan.bakName (plan : RepairPlan) : String := plan.canonicalSid ++ BAK_EXTENSION

/-- `{canonical_name}.pre-repair-{timestamp}`. -/
def RepairPlan.backupName (plan : RepairPlan) (timestamp : String) : String :=
  plan.canonicalSid ++ "." ++ BACKUP_SUFFIX ++ "-" ++ timestamp

/-- `SnapshotError`, as far as a snapshot of a key meets it. -/
inductive SnapshotError where
  | registryError (error : RegistryError)
  | other (text : String)
  deriving DecidableEq, Repr

def SnapshotError.text : SnapshotError → String
  | .registryError error => "Registry error during snapshot: " ++ error.text
  | .other text => text

/-- `RollbackError`. -/
inductive RollbackError where
  | artifactUnavailable
  | targetMismatch (expected actual : String)
  | identityMismatch
  | digestMismatch
  | registryError (code : UInt32)
  | securityError (text : String)
  | operationAndPrivilegeRestoreFailed (operationError restoreError : String)
  | baseRegError (error : RegistryError)
  | snapshotError (error : SnapshotError)
  | aggregate (errors : String)
  deriving DecidableEq, Repr

def RollbackError.text : RollbackError → String
  | .artifactUnavailable =>
    "snapshot has no protected transactional artifact; inventory JSON cannot be restored"
  | .targetMismatch expected actual =>
    "snapshot target mismatch: transaction expected " ++ expected ++ ", metadata names " ++ actual
  | .identityMismatch => "snapshot handle identity no longer matches its captured identity"
  | .digestMismatch => "snapshot SHA-256 no longer matches its captured digest"
  | .registryError code => "Registry restore failed with Win32 error code: " ++ toString code.toNat
  | .securityError text => "Security privilege error: " ++ text
  | .operationAndPrivilegeRestoreFailed operationError restoreError =>
    "registry restore operation failed (" ++ operationError ++
      ") and privilege restoration also failed (" ++ restoreError ++ ")"
  | .baseRegError error => "Base registry error: " ++ error.text
  | .snapshotError error => "Snapshot validation error: " ++ error.text
  | .aggregate errors => "one or more rollback steps failed: " ++ errors

/-- `RepairError`. -/
inductive RepairError where
  | sessionActive
  | noActionSelected
  | invalidSid (sid : String)
  | missingRegistryKey (name : String)
  | registryError (error : RegistryError)
  | snapshotError (error : SnapshotError)
  | rollbackError (error : RollbackError)
  | auditError (text : String)
  | lockInspectionFailed (text : String)
  | manualCloseRequired (blockers : List ManualCloseBlocker)
  | automaticUnlockUnsupported
  | transactionFailed (step reason : String)
  deriving DecidableEq, Repr

def blockersText (blockers : List ManualCloseBlocker) : String :=
  "[" ++ ", ".intercalate (blockers.map fun b =>
    "ManualCloseBlocker \x7b application: " ++ b.application.quote ++ ", process_id: " ++
      toString b.processId.toNat ++ " \x7d") ++ "]"

def RepairError.text : RepairError → String
  | .sessionActive => "Profile is currently loaded in an active session; log off before repair"
  | .noActionSelected => "Repair plan contains no selected operation"
  | .invalidSid sid => "Invalid profile SID: " ++ sid
  | .missingRegistryKey name => "Required registry key is missing: " ++ name
  | .registryError error => "Registry operation failed: " ++ error.text
  | .snapshotError error => "Snapshot engine error: " ++ error.text
  | .rollbackError error => "Rollback failed: " ++ error.text
  | .auditError text => "Audit logging failed: " ++ text
  | .lockInspectionFailed text => "NTUSER.DAT lock inspection failed: " ++ text
  | .manualCloseRequired blockers =>
    "Close the locking applications manually, save their work, and scan again: " ++
      blockersText blockers
  | .automaticUnlockUnsupported =>
    "Automatic process shutdown is no longer supported; scan for blockers and close them manually"
  | .transactionFailed step reason => "Transaction failed at step '" ++ step ++ "': " ++ reason

abbrev RepairM (P : Platform) := Act (Machine P) RepairError

/-- The `?` operator on a registry result. -/
def liftReg {α : Type} (act : Act (Machine P) RegistryError α) : RepairM P α :=
  Act.mapErr .registryError act

/-! ## 2. Texts -/

/-- `is_valid_sid`. -/
def isValidSid (value : String) : Bool :=
  startsWith "S-1-" value &&
    ((splitAtChar '-' value.toList).drop 1).all fun part =>
      !part.isEmpty && part.all isAsciiDigit

/-- `normalize_profile_path`. -/
def normalizeProfilePath (value : String) : String :=
  toAsciiLowercase (trimEndBy (fun c => c == '\\' || c == '/') (trim value))

/-! ## 3. Snapshots -/

/-- `ProtectedSnapshotArtifact`: the open hive file, which its share mode keeps as it is. -/
structure ProtectedSnapshotArtifact where
  hive : RegKey
  identity : FileIdentity

/-- `SnapshotMetadata`, without what only the inventory reads. -/
structure SnapshotMetadata where
  sid : String
  profilePath : String
  registryKeyPath : String
  sha256 : String
  fileVolumeSerial : UInt32
  fileIndex : UInt64
  reason : String
  protectedArtifact : Option ProtectedSnapshotArtifact

/-- `RepairSnapshot`. -/
structure RepairSnapshot where
  metadata : SnapshotMetadata
  expectedRegistryKeyPath : String

/-- The part of `create_registry_snapshot` that runs with the privileges held. -/
def captureKey (subkey sid profilePath reason : String) :
    Act (Machine P) SnapshotError SnapshotMetadata := do
  Act.mapErr .other external  -- the file name is not taken
  let hkey ← Act.mapErr .registryError (openKey .localMachine subkey)
  let hive ← Act.mapErr .registryError (saveKey hkey)
  Act.mapErr .other external  -- reopen
  Act.mapErr .other external  -- file_identity
  let identity := P.identity (← Act.read).clock
  Act.mapErr .other external  -- sha256_file
  Act.mapErr .other external  -- the metadata file: create, serialize, flush, sync
  pure {
    sid, profilePath, reason
    registryKeyPath := "HKLM\\" ++ subkey
    sha256 := P.sha256 hive
    fileVolumeSerial := identity.volumeSerial
    fileIndex := identity.fileIndex
    protectedArtifact := some ⟨hive, identity⟩ }

/-- `create_registry_snapshot`. -/
def createRegistrySnapshot (subkey sid profilePath reason : String) :
    Act (Machine P) SnapshotError SnapshotMetadata := do
  Act.mapErr .other external  -- acquire_lock
  Act.mapErr .other external  -- PrivilegeGuard::new
  let operation ← Act.attempt (captureKey subkey sid profilePath reason)
  let restoreResult ← Act.attempt external
  match operation, restoreResult with
  | .ok metadata, .ok () => pure metadata
  | .error error, .ok () => Act.fail error
  | .error error, .error restoreError =>
    Act.fail (.other ("snapshot operation failed (" ++ error.text ++
      ") and privilege restoration also failed (" ++ restoreError ++ ")"))
  | .ok _, .error restoreError => Act.fail (.other ("Security privilege error: " ++ restoreError))

/-- `finish_privileged_restore`. -/
def finishPrivilegedRestore : Except RollbackError Unit → Except String Unit →
    Except RollbackError Unit
  | .ok (), .ok () => .ok ()
  | .error operationError, .ok () => .error operationError
  | .ok (), .error restoreError => .error (.securityError restoreError)
  | .error operationError, .error restoreError =>
    .error (.operationAndPrivilegeRestoreFailed operationError.text restoreError)

/-- The part of `restore_registry_file` that runs with the privileges held. -/
def restoreHive (hive : RegKey) (parentPath leafName : String) :
    Act (Machine P) RollbackError Unit := do
  let parent ← Act.mapErr .baseRegError (openKey .localMachine parentPath)
  let hkey ← Act.mapErr .baseRegError (createKey parent leafName)
  Act.mapErr (fun
    | .win32Error code => .registryError code
    | error => .baseRegError error) (regRestoreKey hkey hive)

/-- `restore_registry_file`. -/
def restoreRegistryFile (hive : RegKey) (expectedRegistryKeyPath : String) :
    Act (Machine P) RollbackError Unit :=
  match stripFront "HKLM\\" expectedRegistryKeyPath with
  | none => Act.fail (.baseRegError .invalidPath)
  | some subkeyName => match rsplitOnce '\\' subkeyName with
    | none => Act.fail (.baseRegError .invalidPath)
    | some (parentPath, leafName) => do
      Act.mapErr .securityError external
      let operation ← Act.attempt (restoreHive hive parentPath leafName)
      let restoreResult ← Act.attempt external
      Act.ofExcept (finishPrivilegedRestore operation restoreResult)

/-- `restore_registry_snapshot`. -/
def restoreRegistrySnapshot (metadata : SnapshotMetadata) (expectedRegistryKeyPath : String) :
    Act (Machine P) RollbackError Unit :=
  if !eqIgnoreAsciiCase metadata.registryKeyPath expectedRegistryKeyPath then
    Act.fail (.targetMismatch expectedRegistryKeyPath metadata.registryKeyPath)
  else match metadata.protectedArtifact with
    | none => Act.fail .artifactUnavailable
    | some artifact => do
      Act.mapErr (fun text => .snapshotError (.other text)) external  -- file_identity
      if artifact.identity.volumeSerial ≠ metadata.fileVolumeSerial ∨
          artifact.identity.fileIndex ≠ metadata.fileIndex then
        Act.fail .identityMismatch
      else
        Act.mapErr (fun text => .snapshotError (.other text)) external  -- sha256_file
        if P.sha256 artifact.hive ≠ metadata.sha256 then Act.fail .digestMismatch
        else restoreRegistryFile artifact.hive expectedRegistryKeyPath

/-! ## 4. The engine -/

/-- `AuditLogger::log`, with the actor of every repair entry. -/
def auditLog (operation target : String) (status : AuditStatus) (details : String) :
    Act (Machine P) String Unit :=
  call (fun f => f.text) <| Act.update fun m =>
    { m with audits := m.audits ++ [⟨operation, AUDIT_ACTOR, target, status, details⟩] }

/-- `validate_selected_actions`. -/
def validateSelectedActions (plan : RepairPlan) : RepairM P Unit :=
  Act.guard (plan.fixBak || plan.resetState) .noActionSelected

/-- `validate_lock_contract`. -/
def validateLockContract (plan : RepairPlan) : RepairM P Unit := do
  let profilePath := encodeWide plan.profilePath
  if isBlank plan.profilePath || !WinPath.isAbsolute profilePath then
    Act.fail (.transactionFailed "LockInspection"
      "profile path must be absolute before NTUSER.DAT lock inspection")
  else
    let m ← Act.read
    Act.update Machine.tick
    match P.inspect m.clock (WinPath.join profilePath (encodeWide NTUSER_DAT)) with
    | .error text => Act.fail (.lockInspectionFailed text)
    | .ok [] => pure ()
    | .ok blockers => Act.fail (.manualCloseRequired blockers)

/-- Whether the hive of the account is loaded, from the result of opening it. -/
def liveLoaded : Except RegistryError HKey → Except RegistryError Bool
  | .ok _ => .ok true
  | .error (.win32Error code) =>
    if code = ERROR_FILE_NOT_FOUND then .ok false else .error (.win32Error code)
  | .error error => .error error

def boolText (b : Bool) : String := if b then "true" else "false"

/-- The keys that the selected actions need. -/
def validateRequiredKeys (plan : RepairPlan) (parent : HKey) : RepairM P Unit :=
  if plan.fixBak then do
    let bakExists ← liftReg (subkeyExists parent plan.bakName)
    Act.guard bakExists (.missingRegistryKey plan.bakName)
    let bak ← liftReg (openSubkey parent plan.bakName)
    let profilePath ← liftReg (queryValueString bak VAL_PROFILE_IMAGE_PATH)
    Act.guard (!isBlank profilePath)
      (.transactionFailed "Preflight" "the .bak key has an empty ProfileImagePath")
  else Act.when plan.resetState do
    let canonicalExists ← liftReg (subkeyExists parent plan.canonicalSid)
    Act.guard canonicalExists (.missingRegistryKey plan.canonicalSid)

/-- `validate_plan`. -/
def validatePlan (plan : RepairPlan) (isLoaded : Bool) : RepairM P String := do
  validateSelectedActions plan
  Act.guard (isValidSid plan.canonicalSid) (.invalidSid plan.canonicalSid)
  Act.guard (plan.sid == plan.canonicalSid || plan.sid == plan.bakName) (.invalidSid plan.sid)
  let opened ← Act.attempt (openKey .users plan.canonicalSid)
  let loaded ← liftReg (Act.ofExcept (liveLoaded opened))
  Act.guard (!(isLoaded || loaded)) .sessionActive
  let parent ← liftReg (openKey .localMachine REG_KEY_PROFILE_LIST)
  let selected ← liftReg (subkeyExists parent plan.sid)
  Act.guard selected (.missingRegistryKey plan.sid)
  let selectedKey ← liftReg (openSubkey parent plan.sid)
  let selectedProfilePath ← liftReg (queryValueString selectedKey VAL_PROFILE_IMAGE_PATH)
  Act.guard (normalizeProfilePath selectedProfilePath == normalizeProfilePath plan.profilePath)
    (.transactionFailed "Preflight" ("selected registry path '" ++ selectedProfilePath ++
      "' does not match plan path '" ++ plan.profilePath ++ "'"))
  validateRequiredKeys plan parent
  let canonicalExists ← liftReg (subkeyExists parent plan.canonicalSid)
  pure ("Preflight passed: fix_bak=" ++ boolText plan.fixBak ++ ", reset_state=" ++
    boolText plan.resetState ++ ", unlock_hive=" ++ boolText plan.unlockHive ++
    ", canonical_exists=" ++ boolText canonicalExists)

/-- The snapshots of the captured keys, in order. -/
def snapshotAll (plan : RepairPlan) : List String → RepairM P (List RepairSnapshot)
  | [] => pure []
  | path :: paths => do
    let metadata ← Act.mapErr .snapshotError (createRegistrySnapshot path plan.canonicalSid
      plan.profilePath "Mandatory pre-repair snapshot")
    let more ← snapshotAll plan paths
    pure (⟨metadata, "HKLM\\" ++ path⟩ :: more)

/-- `create_required_snapshots`. -/
def createRequiredSnapshots (plan : RepairPlan) : RepairM P (List RepairSnapshot) := do
  let canonicalPath := REG_KEY_PROFILE_LIST ++ "\\" ++ plan.canonicalSid
  let bakPath := canonicalPath ++ BAK_EXTENSION
  if plan.fixBak then
    let parent ← liftReg (openKey .localMachine REG_KEY_PROFILE_LIST)
    let canonicalExists ← liftReg (subkeyExists parent plan.canonicalSid)
    snapshotAll plan (if canonicalExists then [bakPath, canonicalPath] else [bakPath])
  else if plan.resetState then snapshotAll plan [canonicalPath]
  else snapshotAll plan []

/-- `verify`. -/
def verify (plan : RepairPlan) (parent : HKey) : RepairM P Unit := do
  let canonicalExists ← liftReg (subkeyExists parent plan.canonicalSid)
  Act.guard canonicalExists (.missingRegistryKey plan.canonicalSid)
  Act.when plan.fixBak do
    let bakExists ← liftReg (subkeyExists parent plan.bakName)
    Act.guard (!bakExists) (.transactionFailed "Verification" "the .bak key still exists")
  let canonical ← liftReg (openSubkey parent plan.canonicalSid)
  let profilePath ← liftReg (queryValueString canonical VAL_PROFILE_IMAGE_PATH)
  Act.guard (!isBlank profilePath)
    (.transactionFailed "Verification" "ProfileImagePath is empty")
  Act.when plan.resetState do
    let state ← liftReg (queryValueU32 canonical VAL_STATE)
    let refCount ← liftReg (queryValueU32 canonical VAL_REF_COUNT)
    Act.guard (state == 0 && refCount == 0) (.transactionFailed "Verification"
      ("State=" ++ toString state.toNat ++ ", RefCount=" ++ toString refCount.toNat))

/-- Move the canonical key aside, when there is one. -/
def preserveCanonical (plan : RepairPlan) (parent : HKey) : RepairM P Unit := do
  let canonicalExists ← liftReg (subkeyExists parent plan.canonicalSid)
  Act.when canonicalExists do
    let backupName := plan.backupName (P.now (← Act.read).clock)
    let taken ← liftReg (subkeyExists parent backupName)
    Act.guard (!taken)
      (.transactionFailed "RegistryRename" ("backup key already exists: " ++ backupName))
    liftReg (renameSubkey plan.canonicalSid backupName)
    Act.update fun m => { m with mutation.canonicalBackup := some backupName }

/-- Set `State` and `RefCount` of the canonical key to zero. -/
def resetValues (plan : RepairPlan) (parent : HKey) : RepairM P Unit := do
  let canonical ← liftReg (openSubkey parent plan.canonicalSid)
  liftReg (setValueU32 canonical VAL_STATE 0)
  liftReg (setValueU32 canonical VAL_REF_COUNT 0)

/-- `execute_steps`. -/
def executeSteps (plan : RepairPlan) (parent : HKey) : RepairM P Unit := do
  Act.when plan.fixBak do
    preserveCanonical plan parent
    liftReg (renameSubkey plan.bakName plan.canonicalSid)
    Act.update fun m => { m with mutation.bakMoved := true }
  Act.when plan.resetState (resetValues plan parent)
  verify plan parent

/-- Rename a key back if it is there; the error texts of the two calls start differently. -/
def renameBack (parent : HKey) (old new onRename onInspect : String) :
    RepairM P (List String) := do
  match ← Act.attempt (subkeyExists parent old) with
  | .ok true => match ← Act.attempt (renameSubkey old new) with
    | .ok () => pure []
    | .error error => pure [onRename ++ error.text]
  | .ok false => pure []
  | .error error => pure [onInspect ++ error.text]

/-- The first rename of `rollback`. -/
def restoreBakName (plan : RepairPlan) (parent : HKey) (mutation : RegistryMutation) :
    RepairM P (List String) :=
  if mutation.bakMoved then
    renameBack parent plan.canonicalSid plan.bakName "restore .bak name: " "inspect canonical key: "
  else pure []

/-- The second rename of `rollback`. -/
def restoreCanonicalName (plan : RepairPlan) (parent : HKey) (mutation : RegistryMutation) :
    RepairM P (List String) :=
  match mutation.canonicalBackup with
  | some backupName =>
    renameBack parent backupName plan.canonicalSid "restore canonical name: "
      "inspect canonical backup: "
  | none => pure []

/-- The loop of `attempt_all_then_audit` over the snapshots. -/
def restoreAll : List RepairSnapshot → RepairM P (List String)
  | [] => pure []
  | snapshot :: snapshots => do
    let result ← Act.attempt
      (restoreRegistrySnapshot snapshot.metadata snapshot.expectedRegistryKeyPath)
    let more ← restoreAll snapshots
    match result with
    | .ok () => pure more
    | .error error =>
      pure (("restore " ++ snapshot.expectedRegistryKeyPath ++ ": " ++ error.text) :: more)

/-- `rollback_summary`. -/
def rollbackSummary (snapshotCount : Nat) (errors : List String) : AuditStatus × String :=
  if errors.isEmpty then
    (.rolledBack, "Rollback completed for " ++ toString snapshotCount ++ " snapshot(s)")
  else
    (.failed, "Rollback attempted all " ++ toString snapshotCount ++ " snapshot(s); " ++
      toString errors.length ++ " error(s): " ++ "; ".intercalate errors)

/-- `rollback`. -/
def rollback (plan : RepairPlan) (parent : HKey) (mutation : RegistryMutation)
    (snapshots : List RepairSnapshot) : RepairM P Unit := do
  let bakErrors ← restoreBakName plan parent mutation
  let backupErrors ← restoreCanonicalName plan parent mutation
  let restoreErrors ← restoreAll snapshots
  let errors := bakErrors ++ backupErrors ++ restoreErrors
  Act.update fun m => { m with undone := some errors }
  let summary := rollbackSummary snapshots.length errors
  let audit ← Act.attempt (auditLog "RepairRollbackSummary" plan.canonicalSid summary.1 summary.2)
  let allErrors := match audit with
    | .ok () => errors
    | .error error => errors ++ ["rollback summary audit: " ++ error]
  Act.guard allErrors.isEmpty (.rollbackError (.aggregate ("; ".intercalate allErrors)))

/-- What `execute_plan` does after `execute_steps` failed with `error`. -/
def abortRepair (plan : RepairPlan) (parent : HKey) (snapshots : List RepairSnapshot)
    (error : RepairError) : RepairM P Unit := do
  match ← Act.attempt (rollback plan parent (← Act.read).mutation snapshots) with
  | .ok () =>
    Act.mapErr .auditError (auditLog "RepairFailed" plan.canonicalSid .rolledBack
      ("Repair failed and rollback completed: " ++ error.text))
    Act.fail error
  | .error rollbackError =>
    let reason := "original error: " ++ error.text ++ "; rollback error: " ++ rollbackError.text
    match ← Act.attempt (auditLog "RepairRollbackFailed" plan.canonicalSid .failed reason) with
    | .ok () => Act.fail (.transactionFailed "Rollback" reason)
    | .error auditError =>
      Act.fail (.transactionFailed "Rollback" (reason ++ "; audit error: " ++ auditError))

/-- What `execute_plan` does after `execute_steps` succeeded. -/
def commitRepair (plan : RepairPlan) (parent : HKey) (snapshots : List RepairSnapshot) :
    RepairM P Unit := do
  let mutation := (← Act.read).mutation
  match ← Act.attempt (auditLog "RepairSuccess" plan.canonicalSid .success
      ("Repair verified; preserved prior canonical key: " ++
        mutation.canonicalBackup.getD "none")) with
  | .ok () => pure ()
  | .error auditError =>
    rollback plan parent mutation snapshots
    Act.fail (.auditError auditError)

/-- The checks of `execute_plan`, up to the snapshots. -/
def preflight (plan : RepairPlan) (isLoaded : Bool) : RepairM P String := do
  Act.when (!plan.dryRun) (Act.mapErr .auditError external)  -- acquire_operation_guard
  Act.guard (!plan.unlockHive) .automaticUnlockUnsupported
  validateSelectedActions plan
  validateLockContract plan
  let validation ← validatePlan plan isLoaded
  validateLockContract plan
  pure validation

/-- `execute_plan`. -/
def executePlan (plan : RepairPlan) (isLoaded : Bool) : RepairM P Unit := do
  let validation ← preflight plan isLoaded
  if plan.dryRun then
    Act.mapErr .auditError (auditLog "RepairDryRun" plan.canonicalSid .success validation)
  else
    let snapshots ← createRequiredSnapshots plan
    Act.mapErr .auditError (auditLog "RepairStarted" plan.canonicalSid .warning
      ("Validated repair with " ++ toString snapshots.length ++ " durable snapshot(s)"))
    let parent ← liftReg (openKey .localMachine REG_KEY_PROFILE_LIST)
    Act.update fun m => { m with mutation := {} }
    match ← Act.attempt (executeSteps plan parent) with
    | .error error => abortRepair plan parent snapshots error
    | .ok () => commitRepair plan parent snapshots

end WinProfile
