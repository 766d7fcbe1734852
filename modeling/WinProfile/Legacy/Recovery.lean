/-
  File:      WinProfile/Legacy/Recovery.lean
  Subject:   audit-journal/src/legacy.rs and app-ui/src/startup.rs: the programs that inspect
             ProgramData, detach what older releases left there, and keep the bootstrap journal.

  * `loadPendingFromBootstrap`, `writeState` -- the reader and the writer of the bootstrap journal.
  * `inspectUnder` -- the inspection at startup.
  * `executeRecovery`, `complete`, `completeRecovery` -- the recovery, under the bootstrap lock.
-/
import WinProfile.Legacy.ProgramData

namespace WinProfile.Legacy

/-! ## 1. storage.rs -/

/-- Make a call that answers a result, and go on with its value. -/
def request {ε α : Type} (c : Call) (h : Answer c = Except ε α) : Prog ε α :=
  Proc.call c fun r => Proc.done (h ▸ r)

/-- `validate_kind` of a directory. -/
def validateKind (h : StorageHandle) : Prog StorageError Unit := do
  let (isDirectory, isReparse) ← request (.fileInformation h) rfl
  Proc.guard (!isReparse) (legacy h.path "reparse points are forbidden")
  Proc.guard isDirectory (legacy h.path "storage object has the wrong type")

/-- `validate_production_root`. -/
def validateProductionRoot (h : StorageHandle) : Prog StorageError Unit := do
  let descriptor ← request (.securityInfo h) rfl
  Proc.ofExcept (validateDescriptor h.path descriptor)

/-- `StorageDirectory::open_existing_child`; `open_existing_child_for_rename` differs in the access
it asks for. -/
def openExistingChild (name : String) : Prog StorageError StorageHandle := do
  let handle ← request (.openDirectory name) rfl
  validateKind handle
  pure handle

def createProtectedChild (name : String) : Prog StorageError StorageHandle := do
  let handle ← request (.createDirectory name) rfl
  validateKind handle
  validateProductionRoot handle
  pure handle

/-- `open_object_for_detach`: the handle, whose identity the source keeps in it. -/
def openObjectForDetach (name : String) : Prog StorageError (StorageHandle × StorageObjectIdentity) := do
  let handle ← request (.openObject name) rfl
  let identity ← request (.objectIdentity handle) rfl
  pure (handle, identity)

def openObjectIdentity (name : String) : Prog StorageError StorageObjectIdentity := do
  let handle ← request (.openObject name) rfl
  request (.objectIdentity handle) rfl

/-- `rename_to`, of an object and of a directory. -/
def renameTo (handle : StorageHandle) (target : String) : Prog StorageError StorageHandle := do
  request (.rename handle target) rfl
  pure { handle with path := target }

/-- `StorageRoot::open_existing_under`. -/
def openExistingUnder : Prog StorageError StorageHandle := do
  let directory ← openExistingChild PRODUCT_DIRECTORY
  validateProductionRoot directory
  pure directory

/-- `StorageRoot::open_or_create_under`. -/
def openOrCreateUnder : Prog StorageError StorageHandle := do
  match ← Proc.attempt openExistingUnder with
  | .ok storage => pure storage
  | .error error =>
    if error.isNotFound then do
      match ← Proc.attempt (createProtectedChild PRODUCT_DIRECTORY) with
      | .ok directory => pure directory
      | .error error => if error.isCollision then openExistingUnder else Proc.fail error
    else Proc.fail error

/-- `StorageRoot::root_directory`. -/
def rootDirectory (root : StorageHandle) : Prog StorageError StorageHandle := do
  validateKind root
  validateProductionRoot root
  pure root

/-- `StorageDirectory::create_file`: the serial number of the new file. -/
def createFile (name : String) : Prog StorageError Nat := do
  let serial ← request (.createEntry (encodeWide name)) rfl
  match ← Proc.attempt (request (.checkEntry serial) rfl : Prog StorageError Unit) with
  | .error error => do
    let _ ← (Proc.attempt (request (.deleteEntry serial) rfl : Prog StorageError Unit) :
      Prog StorageError (Except StorageError Unit))
    Proc.fail error
  | .ok () => do
    match ← Proc.attempt (request (.checkEntry serial) rfl : Prog StorageError Unit) with
    | .error operationError => do
      match ← Proc.attempt (request (.deleteEntry serial) rfl : Prog StorageError Unit) with
      | .ok () => Proc.fail operationError
      | .error cleanupError =>
        Proc.fail (.cleanupFailed (storageText operationError) (storageText cleanupError))
    | .ok () => pure serial

/-! ## 2. The bootstrap journal -/

variable (C : StateCodec)

/-- A storage call of the functions below. -/
def storage {α : Type} (p : Prog StorageError α) : Prog LegacyStorageError α :=
  Proc.mapErr .storage p

/-- A call on an open file. -/
def stream {α : Type} (p : Prog String α) : Prog LegacyStorageError α := Proc.mapErr .io p

/-- One round of the loop of `load_pending_from_bootstrap`. -/
def readState (name : Wide) : Prog LegacyStorageError (Option MigrationStateRecord) :=
  match decodeUtf16 name with
  | none => pure none
  | some text =>
    if isStateName text then do
      let file ← storage (request (.openFile name) rfl)
      let bytes ← stream (request (.readToEnd file) rfl)
      let record ← Proc.ofExcept (checkState C text bytes)
      pure (some record)
    else pure none

/-- `load_pending_from_bootstrap`; `created`: the handle of the directory created it. -/
def loadPendingFromBootstrap (created : Bool) :
    Prog LegacyStorageError (Option MigrationStateRecord) := do
  let names ← storage (request (.entries created) rfl)
  let records ← Proc.mapEach (readState C) names
  Proc.ofExcept (pendingOf (records.filterMap id))

def loadPendingState : Prog LegacyStorageError (Option MigrationStateRecord) := do
  match ← Proc.attempt (openExistingChild BOOTSTRAP_DIRECTORY) with
  | .ok bootstrap => do
    storage (validateProductionRoot bootstrap)
    loadPendingFromBootstrap C false
  | .error error => if error.isNotFound then pure none else Proc.fail (.storage error)

def randomId : Prog LegacyStorageError String :=
  Proc.mapErr .random (request .random rfl)

/-- The drop of a `CreatedStorageFile` that was not published. -/
def dropCreated {α : Type} (serial : Nat) (error : LegacyStorageError) :
    Prog LegacyStorageError α := do
  let _ ← (Proc.attempt (request (.deleteEntry serial) rfl : Prog StorageError Unit) :
    Prog LegacyStorageError (Except StorageError Unit))
  Proc.fail error

/-- The end of `write_state_with_final_sync`: the new file gets its content and its name. -/
def publishState (state : MigrationStateRecord) (serial : Nat) : Prog LegacyStorageError Unit := do
  match ← Proc.attempt (do
      request (.writeAll serial (C.encode state)) rfl
      request (.syncAll serial) rfl
      request (.syncAll serial) rfl : Prog String Unit) with
  | .error error => dropCreated serial (.io error)
  | .ok () => do
    match ← Proc.attempt
        (request (.publish serial (encodeWide (stateFileName state))) rfl : Prog StorageError Unit) with
    | .error source => dropCreated serial (.statePublication (stateFileName state) source)
    | .ok () =>
      Proc.mapErr (.publishedStateSync (stateFileName state)) (request (.syncAll serial) rfl)

/-- `write_state`. -/
def writeState (state : MigrationStateRecord) : Prog LegacyStorageError Unit := do
  match ← Proc.attempt
      (request (.openFile (encodeWide (stateFileName state))) rfl : Prog StorageError Bytes) with
  | .ok file => do
    let bytes ← Proc.mapErr .serialization (request (.readToEnd file) rfl)
    let existing ← Proc.mapErr .serialization (Proc.ofExcept (C.decode bytes))
    Proc.guard (existing = state) (.invalidState s!"state collision for {stateFileName state}")
  | .error error =>
    if error.isNotFound then do
      let id ← randomId
      let serial ← storage (createFile s!".{state.migrationId}-{id}.tmp")
      publishState C state serial
    else Proc.fail (.storage error)

/-! ## 3. Inspection -/

/-- `LegacyStorageRecovery`. -/
structure LegacyStorageRecovery where
  reason : String
  detectedIdentity : StorageObjectIdentity
  resume : Bool
  deriving DecidableEq, Repr

/-- `ProductionStorageState`. -/
inductive ProductionStorageState where
  | ready (root : StorageHandle)
  | needsConsent (recovery : LegacyStorageRecovery)
  | needsResume (recovery : LegacyStorageRecovery)
  deriving DecidableEq, Repr

def inspectUnder : Prog LegacyStorageError ProductionStorageState := do
  match ← loadPendingState C with
  | some pending => pure (.needsResume
      { reason := s!"interrupted legacy storage migration {pending.migrationId} at {pending.phase.label}"
        detectedIdentity := pending.sourceIdentity
        resume := true })
  | none => do
    match ← Proc.attempt openExistingUnder with
    | .ok root => pure (.ready root)
    | .error error =>
      if error.isNotFound then do
        let root ← storage openOrCreateUnder
        pure (.ready root)
      else do
        let identity ← storage (openObjectIdentity PRODUCT_DIRECTORY)
        pure (.needsConsent
          { reason := storageText error, detectedIdentity := identity, resume := false })

/-! ## 4. Recovery -/

inductive RecoveryPlan where
  | detachAndActivate | activate | markAuditPending | retryTerminalAudit | complete
  deriving DecidableEq, Repr

def recoveryPlan : MigrationPhase → RecoveryPlan
  | .prepared => .detachAndActivate
  | .detached => .activate
  | .rootReady => .markAuditPending
  | .auditPending => .retryTerminalAudit
  | .done => .complete

/-- The open bootstrap directory. -/
structure Bootstrap where
  directory : StorageHandle
  /-- The handle is that of `create_protected_child`, which has the right to delete. -/
  created : Bool
  deriving DecidableEq, Repr

def openOrCreateBootstrap : Prog StorageError Bootstrap := do
  match ← Proc.attempt (openExistingChild BOOTSTRAP_DIRECTORY) with
  | .ok directory => do
    validateProductionRoot directory
    pure ⟨directory, false⟩
  | .error error =>
    if error.isNotFound then do
      match ← Proc.attempt (createProtectedChild BOOTSTRAP_DIRECTORY) with
      | .ok directory => pure ⟨directory, true⟩
      | .error error =>
        if error.isCollision then do
          let directory ← openExistingChild BOOTSTRAP_DIRECTORY
          validateProductionRoot directory
          pure ⟨directory, false⟩
        else Proc.fail error
    else Proc.fail error

def verifyReadyRoot (state : MigrationStateRecord) : Prog LegacyStorageError Unit := do
  let root ← storage openExistingUnder
  let directory ← storage (rootDirectory root)
  let identity ← storage (request (.objectIdentity directory) rfl)
  Proc.guard (identity = state.nextIdentity) .identityChanged
  let legacyIdentity ← storage (openObjectIdentity state.legacyName)
  Proc.guard (legacyIdentity = state.sourceIdentity) .identityChanged

/-- `persist_prepared_state`: a next root without a published record is removed again. -/
def persistPreparedState (next : StorageHandle) (persist : Prog LegacyStorageError Unit) :
    Prog LegacyStorageError StorageHandle := do
  match ← Proc.attempt persist with
  | .ok () => pure next
  | .error (.publishedStateSync name source) => Proc.fail (.publishedStateSync name source)
  | .error (.statePublication name source) => Proc.fail (.statePublication name source)
  | .error operationError => do
    match ← Proc.attempt (request (.remove next) rfl : Prog StorageError Unit) with
    | .ok () => Proc.fail operationError
    | .error cleanupError =>
      Proc.fail (.storage (.cleanupFailed operationError.text (storageText cleanupError)))

def finishPrivilegedNamespace (operation : Except LegacyStorageError MigrationStateRecord)
    (restore : Except String Unit) : Except LegacyStorageError MigrationStateRecord :=
  match operation, restore with
  | .ok state, .ok () => .ok state
  | .error error, .ok () => .error error
  | .ok _, .error error => .error (.privilegeRestore error)
  | .error operationError, .error restoreError =>
    .error (.operationAndPrivilegeRestore operationError.text restoreError)

/-- What both branches of the recovery do around their steps. -/
def withPrivileges (operation : Prog LegacyStorageError MigrationStateRecord) :
    Prog LegacyStorageError MigrationStateRecord := do
  Proc.mapErr .privilege (request .adjustPrivileges rfl)
  let result ← Proc.attempt operation
  let restore ← Proc.attempt (request .restorePrivileges rfl : Prog String Unit)
  Proc.ofExcept (finishPrivilegedNamespace result restore)

/-- The steps of `start_namespace` after its next root is there. -/
def startSteps (source next : StorageHandle) (state : MigrationStateRecord) :
    Prog LegacyStorageError MigrationStateRecord := do
  let next ← persistPreparedState next (writeState C state)
  let _ ← storage (renameTo source state.legacyName)
  writeState C { state with phase := .detached }
  let active ← storage (renameTo next PRODUCT_DIRECTORY)
  storage (validateProductionRoot active)
  let identity ← storage (request (.objectIdentity active) rfl)
  Proc.guard (identity = state.nextIdentity) .identityChanged
  writeState C { state with phase := .rootReady }
  pure { state with phase := .rootReady }

def startNamespace (detectedIdentity : StorageObjectIdentity) :
    Prog LegacyStorageError MigrationStateRecord :=
  withPrivileges do
    let (source, sourceIdentity) ← storage (openObjectForDetach PRODUCT_DIRECTORY)
    Proc.guard (detectedIdentity = sourceIdentity) .identityChanged
    let migrationId ← randomId
    let next ← storage (createProtectedChild (NEXT_PREFIX ++ migrationId))
    let nextIdentity ← storage (request (.objectIdentity next) rfl)
    startSteps C source next
      { schema := 1, migrationId, phase := .prepared, sourceIdentity, nextIdentity
        legacyName := LEGACY_PREFIX ++ migrationId, nextName := NEXT_PREFIX ++ migrationId }

/-- The part of `resume_namespace` for a record that is prepared. -/
def resumePrepared (state : MigrationStateRecord) : Prog LegacyStorageError Unit := do
  match ← Proc.attempt (openObjectForDetach PRODUCT_DIRECTORY) with
  | .ok (source, identity) => do
    Proc.guard (identity = state.sourceIdentity) .identityChanged
    let _ ← storage (renameTo source state.legacyName)
  | .error error =>
    if error.isNotFound then do
      let identity ← storage (openObjectIdentity state.legacyName)
      Proc.guard (identity = state.sourceIdentity) .identityChanged
    else Proc.fail (.storage error)
  writeState C { state with phase := .detached }

/-- The part of `resume_namespace` for a record that is detached. -/
def resumeDetached (state : MigrationStateRecord) : Prog LegacyStorageError Unit := do
  let legacyIdentity ← storage (openObjectIdentity state.legacyName)
  Proc.guard (legacyIdentity = state.sourceIdentity) .identityChanged
  match ← Proc.attempt (openExistingChild state.nextName) with
  | .ok next => do
    let identity ← storage (request (.objectIdentity next) rfl)
    Proc.guard (identity = state.nextIdentity) .identityChanged
    let _ ← storage (renameTo next PRODUCT_DIRECTORY)
  | .error error =>
    if error.isNotFound then verifyReadyRoot state else Proc.fail (.storage error)
  writeState C { state with phase := .rootReady }

def resumeNamespace (state : MigrationStateRecord) : Prog LegacyStorageError MigrationStateRecord :=
  withPrivileges <| match state.phase with
    | .prepared => do
      resumePrepared C state
      resumeDetached C { state with phase := .detached }
      pure { state with phase := .rootReady }
    | .detached => do
      resumeDetached C state
      pure { state with phase := .rootReady }
    | _ => do
      verifyReadyRoot state
      pure state

/-- `PendingProductionStorage`, which holds the bootstrap lock. -/
structure PendingProductionStorage where
  storage : StorageHandle
  state : MigrationStateRecord
  deriving DecidableEq, Repr

/-- The end of `execute_recovery`. -/
def markAuditPending (state : MigrationStateRecord) : Prog LegacyStorageError PendingProductionStorage := do
  let root ← storage openExistingUnder
  match recoveryPlan state.phase with
  | .markAuditPending => do
    writeState C { state with phase := .auditPending }
    pure ⟨root, { state with phase := .auditPending }⟩
  | .retryTerminalAudit => pure ⟨root, state⟩
  | _ => Proc.fail (.invalidState
      s!"expected root-ready or audit-pending, found {state.phase.label}")

/-- The part of `execute_recovery` under the bootstrap lock. -/
def recoverUnderLock (created : Bool) (detectedIdentity : StorageObjectIdentity) :
    Prog LegacyStorageError PendingProductionStorage := do
  match ← loadPendingFromBootstrap C created with
  | some state => do
    let state ← resumeNamespace C state
    markAuditPending C state
  | none => do
    let state ← startNamespace C detectedIdentity
    markAuditPending C state

def executeRecovery (detectedIdentity : StorageObjectIdentity) :
    Prog LegacyStorageError PendingProductionStorage := do
  let bootstrap ← storage openOrCreateBootstrap
  storage (request .acquireLock rfl)
  recoverUnderLock C bootstrap.created detectedIdentity

def AUDIT_OPERATION : String := "LegacyStorageDetached"
def AUDIT_ACTOR : String := "WinProfile-Admin"

/-- The terminal audit entry of a migration. -/
def terminalAudit (pending : PendingProductionStorage) : TerminalAudit where
  root := pending.storage.object.identity
  operation := AUDIT_OPERATION
  actor := AUDIT_ACTOR
  target := pending.state.legacyName
  status := .warning
  details := s!"migration_id={pending.state.migrationId}; legacy_object={pending.state.legacyName}; contents are untrusted, opaque, not imported, and retain their previous permissions"

/-- `PendingProductionStorage::complete`. -/
def complete (pending : PendingProductionStorage) : Prog LegacyStorageError StorageHandle := do
  writeState C { pending.state with phase := .done }
  pure pending.storage

/-- `StartupError`. -/
inductive StartupError where
  | legacy (error : LegacyStorageError)
  /-- `Audit` and `Snapshot`. -/
  | service (text : String)
  deriving DecidableEq, Repr

/-- What `complete_recovery` does after `execute_recovery`. -/
def finishRecovery (pending : PendingProductionStorage) : Prog StartupError StorageHandle := do
  Proc.mapErr .service (request (.openService pending.storage) rfl)
  Proc.mapErr .service (request (.openService pending.storage) rfl)
  Proc.mapErr .service (request (.appendAudit (terminalAudit pending)) rfl)
  Proc.mapErr .legacy (complete C pending)

/-- `startup::complete_recovery`. -/
def completeRecovery (recovery : LegacyStorageRecovery) : Prog StartupError StorageHandle := do
  let pending ← Proc.mapErr .legacy (executeRecovery C recovery.detectedIdentity)
  Proc.mapErr .service (request (.openService pending.storage) rfl)
  Proc.mapErr .service (request (.openService pending.storage) rfl)
  Proc.mapErr .service (request (.appendAudit (terminalAudit pending)) rfl)
  Proc.mapErr .legacy (complete C pending)

end WinProfile.Legacy
