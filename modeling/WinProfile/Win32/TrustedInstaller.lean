/-
  File:      WinProfile/Win32/TrustedInstaller.lean
  Subject:   platform-win32/src/tokens.rs: the TrustedInstaller service is started, its token is
             captured, and a process is created with it; what fails after that is compensated.

  * `Host`, `Os` -- the program and what the system answers to each of its calls; `Event` is what
    the calls did, in the order in which they were made.
  * `duplicateTrustedinstallerToken`, `launchProcessWithToken` -- the two halves of a launch.
  * `TokenError.Unaccounted` -- the errors that say of a process that it may be alive.
-/
import WinProfile.Win32.CommandLine
import WinProfile.Win32.Privileges
import WinProfile.Journal.Entry
import WinProfile.Lib.WinPath

namespace WinProfile.TrustedInstaller

open Privileges (Process PrivilegeGuard Token Chain Reliable)
open Snapshot (SecurityError)

/-! ## 1. Errors -/

/-- `SERVICE_STATUS_PROCESS`. -/
structure ServiceStatus where
  currentState : UInt32
  win32ExitCode : UInt32
  serviceSpecificExitCode : UInt32
  processId : UInt32
  deriving DecidableEq, Repr

/-- `TokenError`. -/
inductive TokenError where
  | win32Error (code : UInt32)
  | win32Operation (operation : String) (code : UInt32)
  | trustedInstallerServiceState (status : ServiceStatus)
  | nonInteractiveRequestSession (sessionId : UInt32)
  | requestSessionNotConnected (sessionId : UInt32) (state : Int)
  | invalidSystemDirectory (path : String)
  | systemExecutableUnavailable (path source : String)
  | processWaitTimeout (milliseconds : UInt32)
  | processWaitFailed (code : UInt32)
  | invalidProcessInformationCompensated (pid : UInt32)
  | invalidProcessInformationCompensationFailed (pid : UInt32) (compensationError : String)
  | invalidProcessInformationMissingProcessHandle (pid : UInt32) (threadHandlePresent : Bool)
  | operationAndPrivilegeRestoreFailed (operationError restoreError : String)
  | privilegeRestoreCompensated (pid : UInt32) (restoreError : String)
  | privilegeRestoreCompensationFailed (pid : UInt32) (restoreError compensationError : String)
  | securityError (error : SecurityError)
  deriving DecidableEq, Repr

def TokenError.text : TokenError → String
  | win32Error code => s!"Token operation failed with Win32 error code: {code.toNat}"
  | win32Operation operation code => s!"{operation} failed with Win32 error code: {code.toNat}"
  | trustedInstallerServiceState status =>
    s!"TrustedInstaller did not reach RUNNING (state {status.currentState.toNat}, Win32 exit {status.win32ExitCode.toNat}, service exit {status.serviceSpecificExitCode.toNat}, PID {status.processId.toNat})"
  | nonInteractiveRequestSession sessionId =>
    s!"Requesting process session {sessionId.toNat} is not interactive"
  | requestSessionNotConnected sessionId state =>
    s!"Requesting process session {sessionId.toNat} is not active or connected (state {state})"
  | invalidSystemDirectory path => s!"Windows system directory returned an invalid path: {path}"
  | systemExecutableUnavailable path source =>
    s!"Windows system executable is unavailable at {path}: {source}"
  | processWaitTimeout milliseconds =>
    s!"Process termination wait timed out after {milliseconds.toNat} milliseconds"
  | processWaitFailed code =>
    s!"Process termination wait failed with Win32 error code: {code.toNat}"
  | invalidProcessInformationCompensated pid =>
    s!"CreateProcessWithTokenW returned incomplete process information for PID {pid.toNat}; child was terminated and reaped"
  | invalidProcessInformationCompensationFailed pid compensationError =>
    s!"CreateProcessWithTokenW returned incomplete process information for PID {pid.toNat}; compensation failed: {compensationError}"
  | invalidProcessInformationMissingProcessHandle pid threadHandlePresent =>
    s!"CreateProcessWithTokenW returned success without a process handle for PID {pid.toNat} (thread handle present: {threadHandlePresent}); child cannot be compensated"
  | operationAndPrivilegeRestoreFailed operationError restoreError =>
    s!"Privileged operation failed: {operationError}; privilege restoration also failed: {restoreError}"
  | privilegeRestoreCompensated pid restoreError =>
    s!"Privilege restoration failed after launching PID {pid.toNat}: {restoreError}; process was terminated and reaped"
  | privilegeRestoreCompensationFailed pid restoreError compensationError =>
    s!"Privilege restoration failed after launching PID {pid.toNat}: {restoreError}; process compensation failed: {compensationError}"
  | securityError error => s!"Security or privilege error: {error.text}"

/-- **The errors that say of a process that it may be alive.** -/
inductive TokenError.Unaccounted (pid : UInt32) : TokenError → Prop where
  | incomplete (compensationError : String) :
    Unaccounted pid (.invalidProcessInformationCompensationFailed pid compensationError)
  | noHandle (threadHandlePresent : Bool) :
    Unaccounted pid (.invalidProcessInformationMissingProcessHandle pid threadHandlePresent)
  | unrestored (restoreError compensationError : String) :
    Unaccounted pid (.privilegeRestoreCompensationFailed pid restoreError compensationError)
  /-- The text of such an error is in this one. -/
  | both {error : TokenError} (h : Unaccounted pid error) (restoreError : String) :
    Unaccounted pid (.operationAndPrivilegeRestoreFailed error.text restoreError)

/-! ## 2. The host -/

/-- `ProcessLaunchSpec`. -/
structure ProcessLaunchSpec where
  applicationPath : Wide
  workingDirectory : Wide
  arguments : List Wide
  deriving DecidableEq, Repr

/-- The handle of a process that was opened, by what it refers to. -/
structure ProcessHandle where
  pid : UInt32
  deriving DecidableEq, Repr

/-- The handle of a token: the process whose token it is, and whether it is a duplicate with which
a process can be created. -/
structure TokenHandle where
  owner : UInt32
  isPrimary : Bool
  deriving DecidableEq, Repr

/-- The environment of the user of a token. -/
structure EnvironmentBlock where
  token : TokenHandle
  deriving DecidableEq, Repr

/-- What `CreateProcessWithTokenW` is given, and the token of the program at that moment. -/
structure Creation where
  token : TokenHandle
  application : Wide
  commandLine : Wide
  environment : EnvironmentBlock
  directory : Wide
  lent : Token

/-- What the calls did. -/
inductive Event where
  /-- The operation guard is held from here, or no longer. -/
  | locked
  | unlocked
  /-- An entry was appended to the journal. -/
  | recorded (operation : String) (status : AuditStatus) (details : String)
  /-- The state of the service was asked for. -/
  | queried (status : ServiceStatus)
  /-- The token of a process was opened. -/
  | captured (token : TokenHandle)
  /-- A process was created. -/
  | created (pid : UInt32) (creation : Creation)
  | terminated (pid : UInt32)
  /-- A wait found that the process had ended. -/
  | reaped (pid : UInt32)

/-- The program: the token of its own process, and what it has done. -/
structure Host where
  process : Process
  /-- How many calls it has made. -/
  calls : Nat := 0
  /-- The last event first. -/
  events : List Event := []

/-- How a wait ends. -/
inductive Waited where
  | object
  | timeout
  | failed (code : UInt32)
  | other (result : UInt32)

/-- `PROCESS_INFORMATION`: the handles that are there. -/
structure ProcessInformation where
  hasProcess : Bool
  hasThread : Bool
  processId : UInt32

/-- What becomes of an entry that is to be recorded. -/
inductive Recording where
  | done
  /-- The call fails, and the entry is not in the journal. -/
  | before (error : String)
  /-- The call fails, and the entry is in the journal. -/
  | after (error : String)

/-- What the system answers to the call of a number. -/
structure Os where
  privileges : Privileges.System
  /-- The error that the call fails with, if it does. -/
  fails : Nat → Option UInt32
  systemDirectory : Wide
  canonicalize : Wide → Except String Wide
  isFile : Wide → Bool
  sessionId : UInt32
  connectState : Nat → Int
  status : Nat → ServiceStatus
  processInformation : Nat → ProcessInformation
  wait : Nat → Waited
  guard : Nat → Option String
  record : Nat → Recording

abbrev TokenM (α : Type) := Act Host TokenError α

def Host.called (h : Host) : Host := { h with calls := h.calls + 1 }

def Host.log (h : Host) (event : Event) : Host := { h with events := event :: h.events }

section Calls

variable (S : Os)

/-- A call that only answers. -/
def ask {α : Type} (answer : Nat → α) : Act Host UInt32 α := .of fun h =>
  match S.fails h.calls with
  | some code => (.error code, h.called)
  | none => (.ok (answer h.calls), h.called)

/-- A call with an event. -/
def act {α : Type} (answer : Nat → α) (event : α → Event) : Act Host UInt32 α := .of fun h =>
  match S.fails h.calls with
  | some code => (.error code, h.called)
  | none => (.ok (answer h.calls), h.called.log (event (answer h.calls)))

/-- A guard works on the token of the process. -/
def onToken {α : Type} (m : Privileges.SecM α) : Act Host SecurityError α :=
  Act.within Host.process (fun p h => { h with process := p }) m

/-! ## 3. The service -/

def SERVICE_START_POLL_ATTEMPTS : Nat := 20
def ERROR_SERVICE_ALREADY_RUNNING : UInt32 := 1056
def SERVICE_START_PENDING : UInt32 := 2
def SERVICE_RUNNING : UInt32 := 4
def SERVICE_CONTINUE_PENDING : UInt32 := 5

def ServiceStatus.isRunning (status : ServiceStatus) : Bool :=
  status.currentState == SERVICE_RUNNING && status.processId != 0

def ServiceStatus.isTransitional (status : ServiceStatus) : Bool :=
  status.currentState == SERVICE_START_PENDING || status.currentState == SERVICE_CONTINUE_PENDING

def queryStatus : TokenM ServiceStatus :=
  Act.mapErr (.win32Operation "QueryServiceStatusEx for TrustedInstaller") (act S S.status .queried)

/-- The loop of `ensure_trustedinstaller_service_running_with_api`; after this attempt there are so
many more. -/
def pollService : Nat → TokenM UInt32
  | 0 => do
    let status ← queryStatus S
    if status.isRunning then pure status.processId
    else Act.fail (.trustedInstallerServiceState status)
  | left + 1 => do
    let status ← queryStatus S
    if status.isRunning then pure status.processId
    else if status.isTransitional then pollService left
    else Act.fail (.trustedInstallerServiceState status)

/-- `StartServiceW`; a service that runs already is no failure. -/
def startService : TokenM Unit :=
  Act.rescue (ask S fun _ => ()) fun code =>
    Act.guard (code == ERROR_SERVICE_ALREADY_RUNNING)
      (.win32Operation "StartServiceW for TrustedInstaller" code)

/-- `ensure_trustedinstaller_service_running`. -/
def ensureTrustedinstallerServiceRunning : TokenM UInt32 := do
  Act.mapErr (.win32Operation "OpenSCManagerW for TrustedInstaller") (ask S fun _ => ())
  Act.mapErr (.win32Operation "OpenServiceW for TrustedInstaller") (ask S fun _ => ())
  startService S
  pollService S (SERVICE_START_POLL_ATTEMPTS - 1)

/-! ## 4. The token -/

def SE_DEBUG_NAME : String := "SeDebugPrivilege"
def SE_IMPERSONATE_NAME : String := "SeImpersonatePrivilege"

/-- `open_process`. -/
def openProcess (pid : UInt32) : Act Host UInt32 ProcessHandle := ask S fun _ => ⟨pid⟩

/-- `open_process_token`. -/
def openProcessToken (process : ProcessHandle) : Act Host UInt32 TokenHandle :=
  act S (fun _ => ⟨process.pid, false⟩) .captured

/-- `duplicate_primary_token`. -/
def duplicatePrimaryToken (sourceToken : TokenHandle) : Act Host UInt32 TokenHandle :=
  ask S fun _ => { sourceToken with isPrimary := true }

/-- `capture_trustedinstaller_token`. -/
def captureTrustedinstallerToken (pid : UInt32) : TokenM TokenHandle := do
  let process ← Act.mapErr (.win32Operation "OpenProcess for TrustedInstaller") (openProcess S pid)
  let sourceToken ← Act.mapErr (.win32Operation "OpenProcessToken for TrustedInstaller")
    (openProcessToken S process)
  Act.mapErr (.win32Operation "DuplicateTokenEx for TrustedInstaller")
    (duplicatePrimaryToken S sourceToken)

/-- `restore_after_operation`. -/
def restoreAfterOperation {α : Type} (result : Except TokenError α) (guard : PrivilegeGuard) :
    TokenM α := do
  match result, ← Act.attempt (onToken (guard.restore S.privileges)) with
  | .ok value, .ok () => pure value
  | .error error, .ok () => Act.fail error
  | .ok _, .error restoreError => Act.fail (.securityError restoreError)
  | .error error, .error restoreError =>
    Act.fail (.operationAndPrivilegeRestoreFailed error.text restoreError.text)

/-- `TrustedInstallerLaunchToken`. -/
structure TrustedInstallerLaunchToken where
  token : TokenHandle
  impersonatePrivilege : PrivilegeGuard

/-- `duplicate_trustedinstaller_token`. -/
def duplicateTrustedinstallerToken : TokenM TrustedInstallerLaunchToken := do
  let pid ← ensureTrustedinstallerServiceRunning S
  let debugPrivilege ← Act.mapErr .securityError
    (onToken (PrivilegeGuard.new S.privileges [SE_DEBUG_NAME]))
  let captureResult ← Act.attempt (captureTrustedinstallerToken S pid)
  let ownedDup ← restoreAfterOperation S captureResult debugPrivilege
  let impersonatePrivilege ← Act.mapErr .securityError
    (onToken (PrivilegeGuard.new S.privileges [SE_IMPERSONATE_NAME]))
  pure ⟨ownedDup, impersonatePrivilege⟩

/-! ## 5. The process -/

def PROCESS_COMPENSATION_TIMEOUT : UInt32 := 5000

/-- `LaunchedProcess`. -/
structure LaunchedProcess where
  pid : UInt32
  deriving DecidableEq, Repr

/-- `LaunchedProcess::terminate`. -/
def LaunchedProcess.terminate (p : LaunchedProcess) : TokenM Unit :=
  Act.mapErr .win32Error (act S (fun _ => ()) fun _ => .terminated p.pid)

/-- `LaunchedProcess::wait_for_exit`. -/
def LaunchedProcess.waitForExit (p : LaunchedProcess) (milliseconds : UInt32) : TokenM Unit :=
  .of fun h => match S.wait h.calls with
    | .object => (.ok (), h.called.log (.reaped p.pid))
    | .timeout => (.error (.processWaitTimeout milliseconds), h.called)
    | .failed code => (.error (.processWaitFailed code), h.called)
    | .other result => (.error (.processWaitFailed result), h.called)

/-- The failures of a termination and a wait, as one text; none if there was none. -/
def compensationText (terminateError waitError : Option String) : Option String :=
  match terminateError, waitError with
  | none, none => none
  | terminateError, waitError => some ("; ".intercalate
      (terminateError.toList.map (s!"terminate: {·}") ++ waitError.toList.map (s!"wait: {·}")))

/-- The error of a result. -/
def errorText {α : Type} : Except TokenError α → Option String
  | .ok _ => none
  | .error error => some error.text

/-- A process is terminated and waited for: nothing, or what went wrong. -/
def LaunchedProcess.compensate {ε : Type} (p : LaunchedProcess) (milliseconds : UInt32) :
    Act Host ε (Option String) := do
  let terminated ← Act.attempt (p.terminate S)
  let waited ← Act.attempt (p.waitForExit S milliseconds)
  pure (compensationText (errorText terminated) (errorText waited))

/-- `compensate_process`. -/
def compensateProcess (p : LaunchedProcess) : TokenM (Option String) :=
  p.compensate S PROCESS_COMPENSATION_TIMEOUT

/-- `validate_created_process_information`. -/
def validateCreatedProcessInformation (information : ProcessInformation) :
    TokenM LaunchedProcess := do
  let pid := information.processId
  match information.hasProcess, information.hasThread with
  | true, true => pure ⟨pid⟩
  | true, false => do
    match ← compensateProcess S ⟨pid⟩ with
    | none => Act.fail (.invalidProcessInformationCompensated pid)
    | some compensationError =>
      Act.fail (.invalidProcessInformationCompensationFailed pid compensationError)
  | false, hasThread => Act.fail (.invalidProcessInformationMissingProcessHandle pid hasThread)

/-- What is asked for with a token, by a specification. -/
def ProcessLaunchSpec.creation (spec : ProcessLaunchSpec) (token : TokenHandle)
    (environment : EnvironmentBlock) (lent : Token) : Creation where
  token := token
  application := spec.applicationPath
  commandLine := buildWindowsCommandLine spec.applicationPath spec.arguments
  environment := environment
  directory := spec.workingDirectory
  lent := lent

/-- The call of `CreateProcessWithTokenW`. -/
def createProcess (token : TokenHandle) (spec : ProcessLaunchSpec) (environment : EnvironmentBlock) :
    Act Host UInt32 ProcessInformation := .of fun h =>
  match S.fails h.calls with
  | some code => (.error code, h.called)
  | none =>
    let information := S.processInformation h.calls
    (.ok information, h.called.log (.created information.processId
      (spec.creation token environment h.process.token)))

/-- `create_process_with_api`. -/
def createProcessWithApi (token : TokenHandle) (spec : ProcessLaunchSpec)
    (environment : EnvironmentBlock) : TokenM LaunchedProcess := do
  let information ← Act.mapErr (.win32Operation "CreateProcessWithTokenW for TrustedInstaller")
    (createProcess S token spec environment)
  validateCreatedProcessInformation S information

/-- The closure of `launch_process_with_token`. -/
def createInEnvironment (token : TokenHandle) (spec : ProcessLaunchSpec) :
    TokenM LaunchedProcess := do
  let environment ← Act.mapErr (.win32Operation "CreateEnvironmentBlock for TrustedInstaller")
    (ask S fun _ => ⟨token⟩)
  createProcessWithApi S token spec environment

/-- `finalize_process_privilege_restore`. -/
def finalizeProcessPrivilegeRestore (result : Except TokenError LaunchedProcess)
    (guard : PrivilegeGuard) : TokenM LaunchedProcess := do
  match result, ← Act.attempt (onToken (guard.restore S.privileges)) with
  | .ok process, .ok () => pure process
  | .error launchError, .ok () => Act.fail launchError
  | .error launchError, .error restoreError =>
    Act.fail (.operationAndPrivilegeRestoreFailed launchError.text restoreError.text)
  | .ok process, .error restoreError => do
    match ← compensateProcess S process with
    | none => Act.fail (.privilegeRestoreCompensated process.pid restoreError.text)
    | some compensationError =>
      Act.fail (.privilegeRestoreCompensationFailed process.pid restoreError.text compensationError)

/-- `launch_process_with_token`. -/
def launchProcessWithToken (launchToken : TrustedInstallerLaunchToken) (spec : ProcessLaunchSpec) :
    TokenM LaunchedProcess := do
  let launchResult ← Act.attempt (createInEnvironment S launchToken.token spec)
  finalizeProcessPrivilegeRestore S launchResult launchToken.impersonatePrivilege

/-! ## 6. The console -/

def SYSTEM_COMMAND_NAME : String := "cmd.exe"
def TRUSTED_INSTALLER_CONSOLE_TITLE : String := "TrustedInstaller Elevated Console"

/-- `system_directory`. -/
def systemDirectory : TokenM Wide := do
  let path ← Act.mapErr .win32Error (ask S fun _ => S.systemDirectory)
  Act.guard (WinPath.isAbsolute path) (.invalidSystemDirectory (toStringLossy path))
  pure path

/-- `trustedinstaller_console_launch_spec`. -/
def trustedinstallerConsoleLaunchSpec : TokenM ProcessLaunchSpec := do
  let directory ← systemDirectory S
  let unresolved := WinPath.join directory (encodeWide SYSTEM_COMMAND_NAME)
  let application ← Act.mapErr (.systemExecutableUnavailable (toStringLossy unresolved))
    (Act.ofExcept (S.canonicalize unresolved))
  Act.guard (WinPath.isAbsolute application && S.isFile application)
    (.invalidSystemDirectory (toStringLossy application))
  match WinPath.parent application with
  | none => Act.fail (.invalidSystemDirectory (toStringLossy application))
  | some workingDirectory =>
    pure ⟨application, workingDirectory,
      [encodeWide "/k", encodeWide "title", encodeWide TRUSTED_INSTALLER_CONSOLE_TITLE]⟩

def WTS_ACTIVE : Int := 0
def WTS_CONNECTED : Int := 1

/-- `get_requesting_process_session`. -/
def getRequestingProcessSession : TokenM UInt32 := do
  let sessionId ← Act.mapErr .win32Error (ask S fun _ => S.sessionId)
  Act.guard (sessionId != 0) (.nonInteractiveRequestSession sessionId)
  let state ← Act.mapErr .win32Error (ask S S.connectState)
  Act.guard (state == WTS_ACTIVE || state == WTS_CONNECTED)
    (.requestSessionNotConnected sessionId state)
  pure sessionId

end Calls

/-! ## 7. Guards that may fail to put the token back -/

section Guards

open Privileges (Entry Luid)

variable {S : Privileges.System} {p p' : Process} {t : Token} {entries : List Entry}

/-- The system in which every adjustment that puts a state back succeeds. -/
def reliable (S : Privileges.System) : Privileges.System := { S with undoFaults := fun _ => none }

theorem reliable_reliable : Reliable (reliable S) := fun _ => rfl

/-- An error that was met is reported. -/
theorem restoreEach_some : ∀ (entries : List Entry) (error : SecurityError) (p : Process),
    ∃ p', Privileges.restoreEach S entries (some error) p = (some error, p')
  | [], error, p => ⟨p, rfl⟩
  | state :: states, error, p => by
    rw [Privileges.restoreEach]
    rcases hadjust : Privileges.adjust (S.undoFaults p.clock) state p with ⟨result, p₁⟩
    cases result with
    | failed code => exact restoreEach_some states error p₁
    | notAllAssigned => exact restoreEach_some states error p₁
    | done previous => exact restoreEach_some states error p₁

/-- Where no error is reported, none was met. -/
theorem restoreEach_reliable : ∀ (entries : List Entry) (p : Process),
    Privileges.restoreEach S entries none p = (none, p') →
      Privileges.restoreEach (reliable S) entries none p = (none, p')
  | [], p, h => h
  | state :: states, p, h => by
    rw [Privileges.restoreEach] at h ⊢
    have hmet : ∀ error p₁, Privileges.restoreEach S states (some error) p₁ ≠ (none, p') := by
      intro error p₁ hnone
      obtain ⟨p₂, hsome⟩ := restoreEach_some (S := S) states error p₁
      rw [hsome] at hnone
      cases hnone
    rw [show (reliable S).undoFaults p.clock = none from rfl]
    cases hfault : S.undoFaults p.clock with
    | some code =>
      rw [hfault] at h
      exact absurd h (hmet _ _)
    | none =>
      rw [hfault] at h
      rcases hadjust : Privileges.adjust none state p with ⟨result, p₁⟩
      rw [hadjust] at h
      cases result with
      | failed code => exact absurd h (hmet _ _)
      | notAllAssigned => exact absurd h (hmet _ _)
      | done previous => exact restoreEach_reliable states p₁ h

/-- **A guard that is left without an error** has put the token back, whatever can fail. -/
theorem restore_spec {g : PrivilegeGuard} (h : Chain t g.previousStates.reverse p.token) :
    Act.wp (g.restore S) (fun _ p' => p'.token = t) (fun _ _ => ¬ Reliable S) p := by
  rw [PrivilegeGuard.restore, Act.wp_rescue, Privileges.restorePrivileges, Act.wp_of]
  rcases hrun : Privileges.restoreEach S g.previousStates.reverse none p with ⟨result, p₁⟩
  cases result with
  | none =>
    obtain ⟨p₂, hchain, htoken, _⟩ := Privileges.restoreEach_chain reliable_reliable h rfl
    rw [restoreEach_reliable _ p hrun] at hchain
    cases hchain
    exact htoken
  | some error =>
    have hunreliable : ¬ Reliable S := fun hundo => by
      obtain ⟨p₂, hchain, _⟩ := Privileges.restoreEach_chain hundo h rfl
      rw [hrun] at hchain
      cases hchain
    refine (Act.wp_bind _ _).mpr (Act.wp_mono (Act.wp_skip (Q := fun _ _ => True) fun _ _ => trivial)
      (fun _ _ _ => ?_) fun _ _ _ => hunreliable)
    exact (Act.wp_fail error).mpr hunreliable

theorem adjust_done {luid : Luid} {fault : Option UInt32} {previous : Option Entry}
    (h : Privileges.adjust fault ⟨luid, Privileges.SE_PRIVILEGE_ENABLED⟩ p = (.done previous, p')) :
    ∃ old, p.token luid = some old ∧ p'.token = p.token.enable luid old := by
  unfold Privileges.adjust at h
  split at h
  · cases h
  · split at h
    · cases h
    · next old hold =>
      have hset : Privileges.setEnabled old (Privileges.SE_PRIVILEGE_ENABLED &&&
          Privileges.SE_PRIVILEGE_ENABLED != 0) = old ||| Privileges.SE_PRIVILEGE_ENABLED := rfl
      simp only [hset] at h
      obtain ⟨_, rfl⟩ := Prod.mk.inj h
      exact ⟨old, hold, rfl⟩

/-- A token with one more privilege enabled. -/
def Lent (S : Privileges.System) (name : String) (t t' : Token) : Prop :=
  ∃ luid old, S.lookup name = some luid ∧ t luid = some old ∧ t' = t.enable luid old

/-- With nothing to put back, an error leaves the token alone. -/
theorem restoreAndFail_nil {α : Type} {error : SecurityError} {Q : α → Process → Prop}
    (h : p.token = t) :
    Act.wp (Privileges.restoreAndFail S [] error) Q (fun _ p' => p'.token = t) p := by
  rw [Privileges.restoreAndFail, Act.wp_bind, Privileges.restorePrivileges, Act.wp_of]
  exact (Act.wp_fail error).mpr h

theorem enableOne_first (S : Privileges.System) (name : String) (p : Process) :
    Act.wp (Privileges.enableOne S name [])
      (fun entries p' => Chain p.token entries.reverse p'.token ∧ Lent S name p.token p'.token)
      (fun _ p' => p'.token = p.token) p := by
  rw [Privileges.enableOne, Act.wp_bind]
  refine Act.wp_mono (Privileges.lookupPrivilege_spec S name) ?_ fun _ _ hfalse => hfalse
  rintro found q ⟨⟨htoken, _⟩, hlookup⟩
  cases found with
  | none => exact restoreAndFail_nil htoken
  | some luid =>
    dsimp only
    rw [Act.wp_bind, Privileges.enablePrivilege, Act.wp_of]
    rcases hadjust : Privileges.adjust (S.faults q.clock) ⟨luid, Privileges.SE_PRIVILEGE_ENABLED⟩ q
      with ⟨result, q₁⟩
    cases result with
    | failed code =>
      have hsame := (Privileges.adjust_unchanged hadjust fun _ h => by cases h).1
      exact restoreAndFail_nil (hsame.trans htoken)
    | notAllAssigned =>
      have hsame := (Privileges.adjust_unchanged hadjust fun _ h => by cases h).1
      exact restoreAndFail_nil (hsame.trans htoken)
    | done previous =>
      have hnil : Privileges.Chain q.token ([] : List Privileges.Entry).reverse q.token := .nil
      have hchain := (Privileges.adjust_enable hadjust hnil).1
      obtain ⟨old, hold, henabled⟩ := adjust_done hadjust
      rw [htoken] at hchain hold henabled
      have hlent : Lent S name p.token q₁.token := ⟨luid, old, hlookup luid rfl, hold, henabled⟩
      cases previous with
      | none => exact (Act.wp_ret _).mpr ⟨hchain, hlent⟩
      | some entry => exact (Act.wp_ret _).mpr ⟨hchain, hlent⟩

/-- **A guard for one privilege** changes nothing else, and nothing where it cannot be had. -/
theorem new_one (S : Privileges.System) (name : String) (p : Process) :
    Act.wp (PrivilegeGuard.new S [name])
      (fun g p' => Chain p.token g.previousStates.reverse p'.token ∧ Lent S name p.token p'.token)
      (fun _ p' => p'.token = p.token) p := by
  rw [PrivilegeGuard.new, Act.wp_bind, Privileges.openProcessToken, Act.wp_of]
  cases S.faults p.clock with
  | some code => rfl
  | none =>
    show Act.wp _ _ _ p.tick
    rw [Act.wp_bind, Privileges.enableEach, Act.wp_bind]
    refine Act.wp_mono (enableOne_first S name p.tick) (fun entries q hq => ?_) fun _ _ he => he
    exact (Act.wp_ret entries).mpr ((Act.wp_pure _).mpr hq)

end Guards

/-! ## 8. What a launch does -/

/-- Nothing was done. -/
def Still (h h' : Host) : Prop := h'.process = h.process ∧ h'.events = h.events

theorem Still.refl (h : Host) : Still h h := ⟨rfl, rfl⟩

theorem Still.trans (h h' h'' : Host) (h₁ : Still h h') (h₂ : Still h' h'') : Still h h'' :=
  ⟨h₂.1.trans h₁.1, h₂.2.trans h₁.2⟩

/-- The console of the system: what runs, where, and with which arguments. -/
structure Os.IsConsole (S : Os) (spec : ProcessLaunchSpec) : Prop where
  absolute : WinPath.isAbsolute S.systemDirectory = true
  application : S.canonicalize (WinPath.join S.systemDirectory (encodeWide SYSTEM_COMMAND_NAME))
    = .ok spec.applicationPath
  isAbsolute : WinPath.isAbsolute spec.applicationPath = true
  isFile : S.isFile spec.applicationPath = true
  workingDirectory : WinPath.parent spec.applicationPath = some spec.workingDirectory
  arguments : spec.arguments
    = [encodeWide "/k", encodeWide "title", encodeWide TRUSTED_INSTALLER_CONSOLE_TITLE]

/-- What is done about a process that must not stay: it may be terminated, and it may be found to
have ended. -/
def Compensates (pid : UInt32) (events : List Event) : Prop :=
  ∀ event ∈ events, event = .terminated pid ∨ event = .reaped pid

section Launch

variable {S : Os} {h : Host} {t : Token}

theorem ask_keeps {α : Type} (answer : Nat → α) : Act.Keeps Still (ask S answer) := by
  refine Act.keeps_iff_wp.mpr fun h => ?_
  rw [ask, Act.wp_of]
  cases S.fails h.calls with
  | some code => exact ⟨rfl, rfl⟩
  | none => exact ⟨rfl, rfl⟩

/-- An event was added. -/
def Adds (event : Event) (h h' : Host) : Prop :=
  h'.process = h.process ∧ h'.events = event :: h.events

theorem act_spec {α : Type} (answer : Nat → α) (event : α → Event) :
    Act.wp (act S answer event) (fun a h' => a = answer h.calls ∧ Adds (event a) h h')
      (fun _ h' => Still h h') h := by
  rw [act, Act.wp_of]
  cases S.fails h.calls with
  | some code => exact ⟨rfl, rfl⟩
  | none => exact ⟨rfl, rfl, rfl⟩

/-- The state of the service was asked for, any number of times. -/
def Queries (past events : List Event) : Prop :=
  ∃ asked, events = asked ++ past ∧ ∀ event ∈ asked, ∃ status, event = .queried status

/-- The last time it was asked for, the service was running as this process. -/
def Finds (pid : UInt32) (past events : List Event) : Prop :=
  ∃ status before, events = .queried status :: before ∧ Queries past before ∧
    status.isRunning = true ∧ status.processId = pid

theorem Queries.refl (past : List Event) : Queries past past := ⟨[], rfl, List.forall_mem_nil _⟩

theorem Queries.cons {past events : List Event} (hq : Queries past events)
    (status : ServiceStatus) : Queries past (.queried status :: events) := by
  obtain ⟨asked, rfl, hasked⟩ := hq
  exact ⟨.queried status :: asked, rfl, List.forall_mem_cons.mpr ⟨⟨status, rfl⟩, hasked⟩⟩

theorem Finds.queries {pid : UInt32} {past events : List Event} (hf : Finds pid past events) :
    Queries past events := by
  obtain ⟨status, before, rfl, hq, _⟩ := hf
  exact hq.cons status

theorem queryStatus_spec : Act.wp (queryStatus S) (fun status h' => Adds (.queried status) h h')
    (fun _ h' => Still h h') h := by
  rw [queryStatus, Act.wp_mapErr]
  exact Act.wp_mono (act_spec _ _) (fun _ _ ha => ha.2) fun _ _ he => he

theorem pollService_spec {past : List Event} : ∀ (left : Nat) {h : Host}, Queries past h.events →
    Act.wp (pollService S left)
      (fun pid h' => h'.process = h.process ∧ Finds pid past h'.events)
      (fun _ h' => h'.process = h.process ∧ Queries past h'.events) h
  | 0, h, hq => by
    rw [pollService, Act.wp_bind]
    refine Act.wp_mono queryStatus_spec (fun status h' ha => ?_) fun _ _ he => ⟨he.1, he.2 ▸ hq⟩
    split
    · next hrunning => exact (Act.wp_pure _).mpr ⟨ha.1, status, h.events, ha.2, hq, hrunning, rfl⟩
    · exact (Act.wp_fail _).mpr ⟨ha.1, ha.2 ▸ hq.cons status⟩
  | left + 1, h, hq => by
    rw [pollService, Act.wp_bind]
    refine Act.wp_mono queryStatus_spec (fun status h' ha => ?_) fun _ _ he => ⟨he.1, he.2 ▸ hq⟩
    have hq' : Queries past h'.events := ha.2 ▸ hq.cons status
    split
    · next hrunning => exact (Act.wp_pure _).mpr ⟨ha.1, status, h.events, ha.2, hq, hrunning, rfl⟩
    · split
      · exact Act.wp_mono (pollService_spec left hq') (fun _ _ hr => ⟨hr.1.trans ha.1, hr.2⟩)
          fun _ _ he => ⟨he.1.trans ha.1, he.2⟩
      · exact (Act.wp_fail _).mpr ⟨ha.1, hq'⟩

/-- **The process of the service** is the one that the last query answered. -/
theorem ensureService_spec : Act.wp (ensureTrustedinstallerServiceRunning S)
    (fun pid h' => h'.process = h.process ∧ Finds pid h.events h'.events)
    (fun _ h' => h'.process = h.process ∧ Queries h.events h'.events) h := by
  have hstill : ∀ {h' : Host}, Still h h' → h'.process = h.process ∧ Queries h.events h'.events :=
    fun hs => ⟨hs.1, hs.2.symm ▸ Queries.refl _⟩
  have hopen : Act.Keeps Still (do
      Act.mapErr (.win32Operation "OpenSCManagerW for TrustedInstaller") (ask S fun _ => ())
      Act.mapErr (.win32Operation "OpenServiceW for TrustedInstaller") (ask S fun _ => ())
      startService S : TokenM Unit) := by
    refine ((ask_keeps _).mapErr _).bind Still.trans fun _ => ?_
    refine ((ask_keeps _).mapErr _).bind Still.trans fun _ => ?_
    exact (ask_keeps _).rescue Still.trans fun _ => Act.keeps_guard Still.refl _ _
  have hrun := Act.keeps_iff_wp.mp hopen h
  rw [Act.wp_bind, Act.wp_mapErr] at hrun
  rw [ensureTrustedinstallerServiceRunning, Act.wp_bind, Act.wp_mapErr]
  refine Act.wp_mono hrun (fun _ h₁ hrun₁ => ?_) fun _ _ he => hstill he
  rw [Act.wp_bind, Act.wp_mapErr] at hrun₁
  rw [Act.wp_bind, Act.wp_mapErr]
  refine Act.wp_mono hrun₁ (fun _ h₂ hrun₂ => ?_) fun _ _ he => hstill he
  rw [Act.wp_bind]
  refine Act.wp_mono hrun₂ (fun _ h₃ hs => ?_) fun _ _ he => hstill he
  exact Act.wp_mono (pollService_spec _ (hstill hs).2) (fun _ _ hr => ⟨hr.1.trans hs.1, hr.2⟩)
    fun _ _ he => ⟨he.1.trans hs.1, he.2⟩

theorem systemDirectory_spec : Act.wp (systemDirectory S)
    (fun path h' => Still h h' ∧ path = S.systemDirectory ∧ WinPath.isAbsolute path = true)
    (fun _ h' => Still h h') h := by
  rw [systemDirectory, Act.wp_bind, Act.wp_mapErr, ask, Act.wp_of]
  cases S.fails h.calls with
  | some code => exact ⟨rfl, rfl⟩
  | none =>
    show Act.wp _ _ _ h.called
    rw [Act.wp_bind, Act.wp_guard]
    split
    · next habsolute => exact (Act.wp_pure _).mpr ⟨⟨rfl, rfl⟩, rfl, habsolute⟩
    · exact ⟨rfl, rfl⟩

theorem consoleLaunchSpec_spec : Act.wp (trustedinstallerConsoleLaunchSpec S)
    (fun spec h' => Still h h' ∧ S.IsConsole spec) (fun _ h' => Still h h') h := by
  rw [trustedinstallerConsoleLaunchSpec, Act.wp_bind]
  refine Act.wp_mono systemDirectory_spec ?_ fun _ _ he => he
  rintro directory h₁ ⟨hstill, rfl, habsolute⟩
  dsimp only
  rw [Act.wp_bind, Act.wp_mapErr, Act.wp_ofExcept]
  cases happlication : S.canonicalize (WinPath.join S.systemDirectory
    (encodeWide SYSTEM_COMMAND_NAME)) with
  | error e => exact hstill
  | ok application =>
    dsimp only
    rw [Act.wp_bind, Act.wp_guard]
    split
    · next hchecked =>
      rw [Bool.and_eq_true] at hchecked
      cases hparent : WinPath.parent application with
      | none => exact (Act.wp_fail _).mpr hstill
      | some workingDirectory =>
        exact (Act.wp_pure _).mpr ⟨hstill, habsolute, happlication, hchecked.1, hchecked.2, hparent,
          rfl⟩
    · exact hstill

theorem session_keeps : Act.Keeps Still (getRequestingProcessSession S) := by
  refine ((ask_keeps _).mapErr _).bind Still.trans fun session => ?_
  refine (Act.keeps_guard Still.refl _ _).bind Still.trans fun _ => ?_
  refine ((ask_keeps _).mapErr _).bind Still.trans fun state => ?_
  exact (Act.keeps_guard Still.refl _ _).bind Still.trans fun _ => Act.keeps_pure Still.refl _

/-- The token of the process was opened as which the service was found running. -/
def Captured (pid : UInt32) (past events : List Event) : Prop :=
  ∃ found, Finds pid past found ∧ events = .captured ⟨pid, false⟩ :: found

/-- A capture got so far. -/
def Captures (past events : List Event) : Prop :=
  Queries past events ∨ ∃ pid, Captured pid past events

/-- The token that is handed out is a duplicate of the one of this process. -/
theorem capture_spec (pid : UInt32) : Act.wp (captureTrustedinstallerToken S pid)
    (fun token h' => token = ⟨pid, true⟩ ∧ Adds (.captured ⟨pid, false⟩) h h')
    (fun _ h' => Still h h' ∨ Adds (.captured ⟨pid, false⟩) h h') h := by
  rw [captureTrustedinstallerToken, Act.wp_bind, Act.wp_mapErr, openProcess, ask, Act.wp_of]
  cases S.fails h.calls with
  | some code => exact .inl ⟨rfl, rfl⟩
  | none =>
    show Act.wp _ _ _ h.called
    rw [Act.wp_bind, Act.wp_mapErr, openProcessToken]
    refine Act.wp_mono (act_spec _ _) ?_ fun _ _ he => .inl he
    rintro _ h₁ ⟨rfl, hprocess₁, hevents₁⟩
    rw [Act.wp_mapErr, duplicatePrimaryToken, ask, Act.wp_of]
    cases S.fails h₁.calls with
    | some code => exact .inr ⟨hprocess₁, hevents₁⟩
    | none => exact ⟨rfl, hprocess₁, hevents₁⟩

/-- A call on the token of the process is no event. -/
theorem onToken_spec {α : Type} {m : Privileges.SecM α} {Q : α → Process → Prop}
    {E : SecurityError → Process → Prop} (hm : Act.wp m Q E h.process) :
    Act.wp (onToken m) (fun a h' => h'.events = h.events ∧ Q a h'.process)
      (fun e h' => h'.events = h.events ∧ E e h'.process) h := by
  rw [onToken, Act.wp_within]
  exact Act.wp_mono hm (fun _ _ hq => ⟨rfl, hq⟩) fun _ _ he => ⟨rfl, he⟩

/-- What follows a result and the end of its guard: a value where both succeeded, and then the token
is back. -/
theorem restoreAfterOperation_spec {α : Type} {g : PrivilegeGuard} (result : Except TokenError α)
    (hchain : Chain t g.previousStates.reverse h.process.token) :
    Act.wp (restoreAfterOperation S result g)
      (fun a h' => result = .ok a ∧ h'.events = h.events ∧ h'.process.token = t)
      (fun _ h' => h'.events = h.events ∧ (Reliable S.privileges → h'.process.token = t)) h := by
  rw [restoreAfterOperation, Act.wp_bind, Act.wp_attempt]
  refine Act.wp_mono (onToken_spec (restore_spec hchain)) ?_ ?_
  · rintro _ h' ⟨hevents, htoken⟩
    cases result with
    | ok a => exact (Act.wp_pure _).mpr ⟨rfl, hevents, htoken⟩
    | error e => exact (Act.wp_fail _).mpr ⟨hevents, fun _ => htoken⟩
  · rintro e h' ⟨hevents, hunreliable⟩
    cases result with
    | ok a => exact (Act.wp_fail _).mpr ⟨hevents, fun hundo => absurd hundo hunreliable⟩
    | error e => exact (Act.wp_fail _).mpr ⟨hevents, fun hundo => absurd hundo hunreliable⟩

/-- **The token of the service**: `SeDebugPrivilege` is put back before `SeImpersonatePrivilege` is
enabled. -/
theorem duplicate_spec : Act.wp (duplicateTrustedinstallerToken S)
    (fun launchToken h' => (∃ pid, launchToken.token = ⟨pid, true⟩ ∧
        Captured pid h.events h'.events) ∧
      Chain h.process.token launchToken.impersonatePrivilege.previousStates.reverse
        h'.process.token ∧
      Lent S.privileges SE_IMPERSONATE_NAME h.process.token h'.process.token)
    (fun _ h' => Captures h.events h'.events ∧
      (Reliable S.privileges → h'.process.token = h.process.token)) h := by
  rw [duplicateTrustedinstallerToken, Act.wp_bind]
  refine Act.wp_mono ensureService_spec ?_ fun _ _ he => ⟨.inl he.2, fun _ => congrArg _ he.1⟩
  rintro pid h₁ ⟨hprocess₁, hfinds⟩
  rw [Act.wp_bind, Act.wp_mapErr]
  refine Act.wp_mono (onToken_spec (new_one _ _ _)) ?_ fun _ _ he =>
    ⟨.inl (he.1.symm ▸ hfinds.queries), fun _ => he.2.trans (congrArg Process.token hprocess₁)⟩
  rintro debugPrivilege h₂ ⟨hevents₂, hchain₂, _⟩
  rw [hprocess₁] at hchain₂
  rw [← hevents₂] at hfinds
  rw [Act.wp_bind, Act.wp_attempt]
  have hcaptured : ∀ (result : Except TokenError TokenHandle) (h₃ : Host),
      h₃.process = h₂.process → Captures h.events h₃.events →
      (∀ token, result = .ok token → token = ⟨pid, true⟩ ∧ Captured pid h.events h₃.events) →
      Act.wp (do
        let ownedDup ← restoreAfterOperation S result debugPrivilege
        let impersonatePrivilege ← Act.mapErr .securityError
          (onToken (PrivilegeGuard.new S.privileges [SE_IMPERSONATE_NAME]))
        pure (⟨ownedDup, impersonatePrivilege⟩ : TrustedInstallerLaunchToken))
      (fun launchToken h' => (∃ pid, launchToken.token = ⟨pid, true⟩ ∧
          Captured pid h.events h'.events) ∧
        Chain h.process.token launchToken.impersonatePrivilege.previousStates.reverse
          h'.process.token ∧
        Lent S.privileges SE_IMPERSONATE_NAME h.process.token h'.process.token)
      (fun _ h' => Captures h.events h'.events ∧
        (Reliable S.privileges → h'.process.token = h.process.token)) h₃ := by
    intro result h₃ hprocess₃ hevents₃ hok
    rw [Act.wp_bind]
    rw [← hprocess₃] at hchain₂
    refine Act.wp_mono (restoreAfterOperation_spec result hchain₂) ?_
      fun _ _ he => ⟨he.1.symm ▸ hevents₃, he.2⟩
    rintro token h₄ ⟨hresult, hevents₄, htoken₄⟩
    obtain ⟨htoken, hcaptured⟩ := hok token hresult
    rw [Act.wp_bind, Act.wp_mapErr]
    refine Act.wp_mono (onToken_spec (new_one _ _ _)) ?_
      fun _ _ he => ⟨(he.1.trans hevents₄).symm ▸ hevents₃, fun _ => he.2.trans htoken₄⟩
    rintro g h₅ ⟨hevents₅, hchain₅, hlent₅⟩
    rw [htoken₄] at hchain₅ hlent₅
    rw [← hevents₄, ← hevents₅] at hcaptured
    exact (Act.wp_pure _).mpr ⟨⟨pid, htoken, hcaptured⟩, hchain₅, hlent₅⟩
  refine Act.wp_mono (capture_spec pid) (fun token h₃ h₃' => ?_) fun e h₃ h₃' => ?_
  · obtain ⟨htoken, hprocess₃, hevents₃⟩ := h₃'
    have hdone : Captured pid h.events h₃.events := ⟨h₂.events, hfinds, hevents₃⟩
    refine hcaptured _ h₃ hprocess₃ (.inr ⟨pid, hdone⟩) fun token' hresult => ⟨?_, hdone⟩
    exact (Except.ok.inj hresult).symm.trans htoken
  · rcases h₃' with ⟨hprocess₃, hevents₃⟩ | ⟨hprocess₃, hevents₃⟩
    · exact hcaptured _ h₃ hprocess₃ (.inl (hevents₃ ▸ hfinds.queries)) fun _ hr => by cases hr
    · exact hcaptured _ h₃ hprocess₃ (.inr ⟨pid, h₂.events, hfinds, hevents₃⟩)
        fun _ hr => by cases hr

theorem waitForExit_spec (p : LaunchedProcess) (milliseconds : UInt32) :
    Act.wp (p.waitForExit S milliseconds) (fun _ h' => Adds (.reaped p.pid) h h')
      (fun _ h' => Still h h') h := by
  rw [LaunchedProcess.waitForExit, Act.wp_of]
  cases S.wait h.calls with
  | object => exact ⟨rfl, rfl⟩
  | timeout => exact ⟨rfl, rfl⟩
  | failed code => exact ⟨rfl, rfl⟩
  | other result => exact ⟨rfl, rfl⟩

theorem compensationText_none {terminateError waitError : Option String}
    (h : compensationText terminateError waitError = none) :
    terminateError = none ∧ waitError = none := by
  cases terminateError with
  | some e => cases h
  | none =>
    cases waitError with
    | some e => cases h
    | none => exact ⟨rfl, rfl⟩

/-- What a compensation did since `h`, and how it answers. -/
structure Compensated (pid : UInt32) (h h' : Host) (failure : Option String) : Prop where
  process : h'.process = h.process
  events : ∃ events, h'.events = events ++ h.events ∧ Compensates pid events ∧
    (failure = none → .reaped pid ∈ events)

/-- The termination and the wait, by what they answer. -/
theorem compensate_spec {ε : Type} (p : LaunchedProcess) (milliseconds : UInt32) :
    Act.wp (p.compensate S milliseconds : Act Host ε (Option String))
      (fun failure h' => Compensated p.pid h h' failure) (fun _ _ => False) h := by
  have hwait : ∀ (terminated : Except TokenError Unit) (h₁ : Host) (events : List Event),
      h₁.process = h.process → h₁.events = events ++ h.events → Compensates p.pid events →
      Act.wp (do
        let waited ← Act.attempt (p.waitForExit S milliseconds)
        pure (compensationText (errorText terminated) (errorText waited)) : Act Host ε (Option String))
        (fun failure h' => Compensated p.pid h h' failure) (fun _ _ => False) h₁ := by
    intro terminated h₁ events hprocess hevents hcompensates
    rw [Act.wp_bind, Act.wp_attempt]
    refine Act.wp_mono (waitForExit_spec p milliseconds) (fun u h₂ h₂' => ?_) fun e h₂ h₂' => ?_
    · refine (Act.wp_pure _).mpr ⟨h₂'.1.trans hprocess, .reaped p.pid :: events, ?_, ?_, ?_⟩
      · rw [h₂'.2, hevents, List.cons_append]
      · exact List.forall_mem_cons.mpr ⟨.inr rfl, hcompensates⟩
      · exact fun _ => List.mem_cons_self
    · refine (Act.wp_pure _).mpr ?_
      refine ⟨h₂'.1.trans hprocess, events, h₂'.2.trans hevents, hcompensates, ?_⟩
      intro hnone
      cases (compensationText_none hnone).2
  rw [LaunchedProcess.compensate, Act.wp_bind, Act.wp_attempt, LaunchedProcess.terminate,
    Act.wp_mapErr]
  refine Act.wp_mono (act_spec _ _) (fun u h₁ h₁' => ?_) fun e h₁ h₁' => ?_
  · exact hwait _ h₁ [.terminated p.pid] h₁'.2.1 h₁'.2.2 (List.forall_mem_singleton.mpr (.inl rfl))
  · exact hwait _ h₁ [] h₁'.1 h₁'.2 (List.forall_mem_nil _)

/-- A process that must not stay: it has been found to have ended, or the error says that it may be
alive. -/
def Discarded (pid : UInt32) (past events : List Event) (error : TokenError) : Prop :=
  ∃ done, events = done ++ past ∧ Compensates pid done ∧ (.reaped pid ∈ done ∨ error.Unaccounted pid)

theorem Compensated.discarded {pid : UInt32} {h h' : Host} {failure : Option String}
    {error : TokenError} (hc : Compensated pid h h' failure)
    (herror : ∀ text, failure = some text → error.Unaccounted pid) :
    Discarded pid h.events h'.events error := by
  obtain ⟨events, hevents, hcompensates, hreaped⟩ := hc.events
  cases failure with
  | none => exact ⟨events, hevents, hcompensates, .inl (hreaped rfl)⟩
  | some text => exact ⟨events, hevents, hcompensates, .inr (herror text rfl)⟩

theorem validate_spec (information : ProcessInformation) :
    Act.wp (validateCreatedProcessInformation S information)
      (fun p h' => p.pid = information.processId ∧ Still h h')
      (fun e h' => h'.process = h.process ∧ Discarded information.processId h.events h'.events e)
      h := by
  obtain ⟨hasProcess, hasThread, pid⟩ := information
  have hnoHandle : ∀ present, Discarded pid h.events h.events
      (.invalidProcessInformationMissingProcessHandle pid present) := fun present =>
    ⟨[], rfl, List.forall_mem_nil _, .inr (.noHandle present)⟩
  cases hasProcess with
  | true =>
    cases hasThread with
    | true => exact (Act.wp_pure _).mpr ⟨rfl, rfl, rfl⟩
    | false =>
      refine (Act.wp_bind _ _).mpr (Act.wp_mono (compensate_spec ⟨pid⟩ _) ?_
        fun _ _ hfalse => hfalse.elim)
      intro failure h' hc
      cases failure with
      | none => exact (Act.wp_fail _).mpr ⟨hc.process, hc.discarded fun _ h => by cases h⟩
      | some text => exact (Act.wp_fail _).mpr ⟨hc.process, hc.discarded fun _ _ => .incomplete text⟩
  | false =>
    cases hasThread with
    | true => exact (Act.wp_fail _).mpr ⟨rfl, hnoHandle true⟩
    | false => exact (Act.wp_fail _).mpr ⟨rfl, hnoHandle false⟩

/-- The events of a launch that failed. -/
def Aborted (creation : Creation) (past events : List Event) (error : TokenError) : Prop :=
  events = past ∨ ∃ pid, Discarded pid (.created pid creation :: past) events error

theorem createProcess_spec (token : TokenHandle) (spec : ProcessLaunchSpec) :
    Act.wp (createInEnvironment S token spec)
      (fun p h' => Adds (.created p.pid (spec.creation token ⟨token⟩ h.process.token)) h h')
      (fun e h' => h'.process = h.process ∧
        Aborted (spec.creation token ⟨token⟩ h.process.token) h.events h'.events e) h := by
  rw [createInEnvironment, Act.wp_bind, Act.wp_mapErr, ask, Act.wp_of]
  cases S.fails h.calls with
  | some code => exact ⟨rfl, .inl rfl⟩
  | none =>
    show Act.wp _ _ _ h.called
    rw [createProcessWithApi, Act.wp_bind, Act.wp_mapErr, createProcess, Act.wp_of]
    cases S.fails h.called.calls with
    | some code => exact ⟨rfl, .inl rfl⟩
    | none =>
      refine Act.wp_mono (validate_spec (S.processInformation h.called.calls)) ?_ ?_
      · rintro p h' ⟨hpid, hprocess, hevents⟩
        refine ⟨hprocess, hevents.trans ?_⟩
        rw [hpid]
        rfl
      · rintro e h' ⟨hprocess, hdiscarded⟩
        exact ⟨hprocess, .inr ⟨(S.processInformation h.called.calls).processId, hdiscarded⟩⟩

theorem Discarded.both {pid : UInt32} {past events : List Event} {error : TokenError}
    (hd : Discarded pid past events error) (restoreError : String) :
    Discarded pid past events (.operationAndPrivilegeRestoreFailed error.text restoreError) := by
  obtain ⟨done, hevents, hcompensates, hend⟩ := hd
  exact ⟨done, hevents, hcompensates, hend.imp_right fun hu => .both hu restoreError⟩

/-- **A process that is handed out** was created, and the token of the program is back; one that is
not handed out does not stay. -/
theorem launch_spec {launchToken : TrustedInstallerLaunchToken} (spec : ProcessLaunchSpec)
    (hchain : Chain t launchToken.impersonatePrivilege.previousStates.reverse h.process.token) :
    Act.wp (launchProcessWithToken S launchToken spec)
      (fun p h' => h'.events = .created p.pid
          (spec.creation launchToken.token ⟨launchToken.token⟩ h.process.token) :: h.events ∧
        h'.process.token = t)
      (fun e h' => Aborted (spec.creation launchToken.token ⟨launchToken.token⟩ h.process.token)
          h.events h'.events e ∧
        (Reliable S.privileges → h'.process.token = t)) h := by
  rw [launchProcessWithToken, Act.wp_bind, Act.wp_attempt]
  refine Act.wp_mono (createProcess_spec launchToken.token spec) ?_ ?_
  · rintro p h₁ ⟨hprocess₁, hevents₁⟩
    rw [← hprocess₁] at hchain
    rw [finalizeProcessPrivilegeRestore, Act.wp_bind, Act.wp_attempt]
    refine Act.wp_mono (onToken_spec (restore_spec hchain)) ?_ ?_
    · rintro _ h₂ ⟨hevents₂, htoken₂⟩
      exact (Act.wp_pure _).mpr ⟨hevents₂.trans hevents₁, htoken₂⟩
    · rintro e h₂ ⟨hevents₂, hunreliable⟩
      refine (Act.wp_bind _ _).mpr (Act.wp_mono (compensate_spec p _) ?_
        fun _ _ hfalse => hfalse.elim)
      intro failure h₃ hc
      have hback : Reliable S.privileges → h₃.process.token = t := fun hundo =>
        absurd hundo hunreliable
      rw [hevents₁] at hevents₂
      cases failure with
      | none =>
        exact (Act.wp_fail _).mpr ⟨.inr ⟨p.pid, hevents₂ ▸ hc.discarded fun _ h => by cases h⟩, hback⟩
      | some text =>
        exact (Act.wp_fail _).mpr ⟨.inr ⟨p.pid, hevents₂ ▸ hc.discarded fun _ _ =>
          .unrestored e.text text⟩, hback⟩
  · rintro launchError h₁ ⟨hprocess₁, hevents₁⟩
    rw [← hprocess₁] at hchain
    rw [finalizeProcessPrivilegeRestore, Act.wp_bind, Act.wp_attempt]
    refine Act.wp_mono (onToken_spec (restore_spec hchain)) ?_ ?_
    · rintro _ h₂ ⟨hevents₂, htoken₂⟩
      exact (Act.wp_fail _).mpr ⟨hevents₂.symm ▸ hevents₁, fun _ => htoken₂⟩
    · rintro e h₂ ⟨hevents₂, hunreliable⟩
      refine (Act.wp_fail _).mpr ⟨?_, fun hundo => absurd hundo hunreliable⟩
      rw [hevents₂]
      exact hevents₁.imp_right fun ⟨pid, hd⟩ => ⟨pid, hd.both e.text⟩

end Launch

/-! ## 9. The wait for the service -/

section Poll

variable {S : Os} {h : Host} {pid : UInt32}

/-- The query of a number finds the service on its way. -/
def Os.StartsAt (S : Os) (n : Nat) : Prop := S.fails n = none ∧ (S.status n).isTransitional = true

/-- The query of a number finds the service running. -/
def Os.RunsAt (S : Os) (n : Nat) (pid : UInt32) : Prop :=
  S.fails n = none ∧ (S.status n).isRunning = true ∧ (S.status n).processId = pid

theorem not_running_of_transitional {status : ServiceStatus} (h : status.isTransitional = true) :
    status.isRunning = false := by
  unfold ServiceStatus.isTransitional at h
  unfold ServiceStatus.isRunning
  rw [Bool.or_eq_true, beq_iff_eq, beq_iff_eq] at h
  rcases h with h | h <;> rw [h] <;> rfl

/-- A call that only answers, and what follows it. -/
theorem run_ask {ε α β : Type} {answer : Nat → α} {f : UInt32 → ε} {k : α → Act Host ε β} :
    (Act.mapErr f (ask S answer) >>= k) h
      = (S.fails h.calls).elim (k (answer h.calls) h.called) fun code => (.error (f code), h.called) := by
  show Act.andThen (Act.mapErr f (ask S answer)) k h = _
  cases hfails : S.fails h.calls with
  | none => simp only [Act.andThen, Act.mapErr, ask, Act.of, hfails, Option.elim_none]
  | some code => simp only [Act.andThen, Act.mapErr, ask, Act.of, hfails, Option.elim_some]

/-- A query, and what follows it. -/
theorem run_queryStatus {α : Type} {k : ServiceStatus → TokenM α} :
    (queryStatus S >>= k) h = (S.fails h.calls).elim
      (k (S.status h.calls) (h.called.log (.queried (S.status h.calls))))
      fun code => (.error (.win32Operation "QueryServiceStatusEx for TrustedInstaller" code),
        h.called) := by
  show Act.andThen (queryStatus S) k h = _
  cases hfails : S.fails h.calls with
  | none => simp only [Act.andThen, queryStatus, Act.mapErr, act, Act.of, hfails, Option.elim_none]
  | some code =>
    simp only [Act.andThen, queryStatus, Act.mapErr, act, Act.of, hfails, Option.elim_some]

/-- The last attempt. -/
theorem pollService_zero : (pollService S 0 h).1 = .ok pid ↔ S.RunsAt h.calls pid := by
  rw [pollService, run_queryStatus, Os.RunsAt]
  cases S.fails h.calls with
  | some code => simp
  | none =>
    rw [Option.elim_none]
    cases (S.status h.calls).isRunning with
    | true => exact ⟨fun hr => ⟨rfl, rfl, Except.ok.inj hr⟩, fun hr => congrArg _ hr.2.2⟩
    | false => exact ⟨fun hr => (by cases hr), fun hr => (by cases hr.2.1)⟩

/-- An attempt that is not the last. -/
theorem pollService_succ {left : Nat} : (pollService S (left + 1) h).1 = .ok pid ↔
    S.RunsAt h.calls pid ∨ S.StartsAt h.calls ∧
      (pollService S left (h.called.log (.queried (S.status h.calls)))).1 = .ok pid := by
  rw [pollService, run_queryStatus, Os.RunsAt, Os.StartsAt]
  cases S.fails h.calls with
  | some code => simp
  | none =>
    rw [Option.elim_none]
    by_cases htransitional : (S.status h.calls).isTransitional = true
    · rw [not_running_of_transitional htransitional, htransitional]
      exact ⟨fun hr => .inr ⟨⟨rfl, rfl⟩, hr⟩, fun hr => hr.elim (fun hr => by cases hr.2.1) (·.2)⟩
    · rw [if_neg htransitional]
      cases (S.status h.calls).isRunning with
      | true =>
        exact ⟨fun hr => .inl ⟨rfl, rfl, Except.ok.inj hr⟩,
          fun hr => hr.elim (fun hr => congrArg _ hr.2.2) fun hr => absurd hr.1.2 htransitional⟩
      | false =>
        exact ⟨fun hr => (by cases hr),
          fun hr => hr.elim (fun hr => (by cases hr.2.1)) fun hr => absurd hr.1.2 htransitional⟩

/-- **The loop** answers with the first query that finds the service running, after queries that
found it on its way; `left` more may be made. -/
theorem pollService_ok_iff : ∀ (left : Nat) (h : Host), (pollService S left h).1 = .ok pid ↔
    ∃ j ≤ left, (∀ i < j, S.StartsAt (h.calls + i)) ∧ S.RunsAt (h.calls + j) pid
  | 0, h => by
    rw [pollService_zero]
    refine ⟨fun hr => ⟨0, le_rfl, fun i hi => absurd hi (Nat.not_lt_zero i), hr⟩, ?_⟩
    rintro ⟨j, hj, _, hr⟩
    obtain rfl : j = 0 := by omega
    exact hr
  | left + 1, h => by
    rw [pollService_succ, pollService_ok_iff left]
    have hcalls : ∀ i, (h.called.log (.queried (S.status h.calls))).calls + i
        = h.calls + (i + 1) := fun i => by
      show h.calls + 1 + i = h.calls + (i + 1)
      omega
    constructor
    · rintro (hr | ⟨hstarts, j, hj, hbefore, hr⟩)
      · exact ⟨0, Nat.zero_le _, fun i hi => absurd hi (Nat.not_lt_zero i), hr⟩
      · refine ⟨j + 1, by omega, fun i hi => ?_, hcalls j ▸ hr⟩
        cases i with
        | zero => exact hstarts
        | succ i => exact hcalls i ▸ hbefore i (by omega)
    · rintro ⟨j, hj, hbefore, hr⟩
      cases j with
      | zero => exact .inl hr
      | succ j =>
        refine .inr ⟨hbefore 0 (by omega), j, by omega, fun i hi => ?_, ?_⟩
        · rw [hcalls]
          exact hbefore (i + 1) (by omega)
        · rw [hcalls]
          exact hr

/-- The start, and what follows it. -/
theorem run_startService {α : Type} {k : Unit → TokenM α} {a : α} :
    ((startService S >>= k) h).1 = .ok a ↔
      (S.fails h.calls = none ∨ S.fails h.calls = some ERROR_SERVICE_ALREADY_RUNNING) ∧
        (k () h.called).1 = .ok a := by
  show (Act.andThen (startService S) k h).1 = .ok a ↔ _
  cases hfails : S.fails h.calls with
  | none =>
    simp only [Act.andThen, startService, Act.rescue, ask, Act.of, hfails, true_or, true_and]
  | some code =>
    by_cases hcode : code = ERROR_SERVICE_ALREADY_RUNNING
    · simp [Act.andThen, startService, Act.rescue, ask, Act.of, hfails, hcode, Act.guard, Act.ret]
    · simp [Act.andThen, startService, Act.rescue, ask, Act.of, hfails, hcode, Act.guard, Act.fail]

/-- **The service is reported as running** exactly when it was opened, its start was accepted, and
one of the twenty queries finds it running where those before found it on its way. -/
theorem ensureService_ok_iff (S : Os) (h : Host) (pid : UInt32) :
    (ensureTrustedinstallerServiceRunning S h).1 = .ok pid ↔
      S.fails h.calls = none ∧ S.fails (h.calls + 1) = none ∧
      (S.fails (h.calls + 2) = none ∨ S.fails (h.calls + 2) = some ERROR_SERVICE_ALREADY_RUNNING) ∧
      ∃ j < SERVICE_START_POLL_ATTEMPTS, (∀ i < j, S.StartsAt (h.calls + 3 + i)) ∧
        S.RunsAt (h.calls + 3 + j) pid := by
  rw [ensureTrustedinstallerServiceRunning, run_ask]
  cases S.fails h.calls with
  | some code => exact ⟨fun hr => (by cases hr), fun hr => (by cases hr.1)⟩
  | none =>
    rw [Option.elim_none, run_ask, show h.called.calls = h.calls + 1 from rfl]
    cases S.fails (h.calls + 1) with
    | some code => exact ⟨fun hr => (by cases hr), fun hr => (by cases hr.2.1)⟩
    | none =>
      rw [Option.elim_none, run_startService, pollService_ok_iff]
      have hattempts : ∀ j, j ≤ SERVICE_START_POLL_ATTEMPTS - 1 ↔ j < SERVICE_START_POLL_ATTEMPTS :=
        fun j => by unfold SERVICE_START_POLL_ATTEMPTS; omega
      simp only [hattempts, true_and]
      exact Iff.rfl

end Poll

end WinProfile.TrustedInstaller
