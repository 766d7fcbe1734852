/-
  File:      WinProfile/App/Rendering.lean
  Subject:   app-ui/src/controller.rs, state.rs and core-profiles/src/models.rs: what the window
             says in the language that is set, of what the controller has cached.

  * `Language` -- the texts by language, and how a time is written.
  * `OperatorStatus`, `MigrationTerminalPresentation` -- what is cached instead of a text.
  * `profileTexts`, `auditEntryToSlint` -- the rows of the two tables.
-/
import WinProfile.App.Desk
import WinProfile.App.Progress
import WinProfile.Profiles.I18n
import WinProfile.Profiles.LanguageTags
import WinProfile.Journal.Entry

namespace WinProfile.Presentation

open Progress (Catalogue)
open I18n (I18nManager)
open Languages (supported)

/-! ## 1. Languages -/

/-- The texts by language, and how a time is written. -/
structure Language where
  manager : I18nManager
  /-- `format("%Y-%m-%d %H:%M:%SZ")`. -/
  formatTime : Int → String

/-- `t` and `t_args`, with the language that is set. -/
def Language.catalogue (G : Language) (locale : String) : Catalogue :=
  ⟨G.manager.translate locale, G.manager.translateArgs locale⟩

/-- `set_locale_and_app_strings`: the language that is set after it. -/
def setLocale (locale requested : String) : String := if supported requested then requested else locale

/-! ## 2. The status of the last operation -/

/-- `OperatorStatusOperation`. -/
inductive OperatorStatusOperation where
  | application | scan | repair | migration | trustedInstaller | exportAudit | audit
  deriving DecidableEq, Repr

def OperatorStatusOperation.localizationKey : OperatorStatusOperation → String
  | application => "status.operation.application"
  | scan => "status.operation.scan"
  | repair => "status.operation.repair"
  | migration => "status.operation.migration"
  | trustedInstaller => "status.operation.trusted_installer"
  | exportAudit => "status.operation.export"
  | audit => "status.operation.audit"

/-- `status_operation`. -/
def statusOperation : OperationKind → OperatorStatusOperation
  | .scan => .scan
  | .repair => .repair
  | .migration => .migration
  | .trustedInstaller => .trustedInstaller
  | .exportAudit => .exportAudit
  | .idle | .unknown => .application

/-- `OperatorStatusOutcome`. -/
inductive OperatorStatusOutcome where
  | ready | running | success | warning | failed | cancelled
  deriving DecidableEq, Repr

def OperatorStatusOutcome.localizationKey : OperatorStatusOutcome → String
  | ready => "status.outcome.ready"
  | running => "status.outcome.running"
  | success => "status.outcome.success"
  | warning => "status.outcome.warning"
  | failed => "status.outcome.failed"
  | cancelled => "status.outcome.cancelled"

/-- `OperatorStatusPayload`. -/
inductive OperatorStatusPayload where
  | localized (key : String) (arguments : List (String × String))
  | scanSummary (total warnings corrupted : Nat)
  deriving DecidableEq, Repr

/-- `OperatorStatus`. -/
structure OperatorStatus where
  operation : OperatorStatusOperation
  outcome : OperatorStatusOutcome
  target : String
  timestamp : Int
  payload : OperatorStatusPayload
  rawDetails : Option String := none
  recoveryHintKey : Option String := none
  deriving DecidableEq, Repr

/-- `OperatorStatus::localized`. -/
def OperatorStatus.localized (now : Int) (operation : OperatorStatusOperation)
    (outcome : OperatorStatusOutcome) (target key : String) (arguments : List (String × String)) :
    OperatorStatus where
  operation
  outcome
  target
  timestamp := now
  payload := .localized key arguments

/-- `OperatorStatus::failure`. -/
def OperatorStatus.failure (now : Int) (operation : OperatorStatusOperation)
    (target rawDetails : String) (recoveryHintKey : Option String) : OperatorStatus where
  operation
  outcome := .failed
  target
  timestamp := now
  payload := .localized "status.operator.failed" []
  rawDetails := some rawDetails
  recoveryHintKey

/-- `OperatorStatus::scan_completed`. -/
def OperatorStatus.scanCompleted (report : DiagnosticReport) : OperatorStatus :=
  let hasIssues := decide (0 < report.warningCount) || decide (0 < report.corruptedCount)
  { operation := .scan
    outcome := if hasIssues then .warning else .success
    target := "System"
    timestamp := report.timestamp
    payload := .scanSummary report.totalCount report.warningCount report.corruptedCount
    recoveryHintKey := if hasIssues then some "status.recovery.review_issues" else none }

section Render

variable (c : Catalogue)

/-- `render_summary`. -/
def OperatorStatus.renderSummary (status : OperatorStatus) : String :=
  match status.payload with
  | .localized key arguments => c.textWith key arguments
  | .scanSummary total warnings corrupted =>
    c.textWith (if status.outcome = .warning then "status.scan.warning" else "status.scan.success")
      [("total", toString total), ("warnings", toString warnings),
        ("corrupted", toString corrupted)]

/-- `render_details`. -/
def OperatorStatus.renderDetails (formatTime : Int → String) (status : OperatorStatus) : String :=
  let line (key value : String) : String := c.text key ++ ": " ++ value
  "\n".intercalate
    ([line "status.details.operation" (c.text status.operation.localizationKey),
      line "status.details.outcome" (c.text status.outcome.localizationKey),
      line "status.details.target" status.target,
      line "status.details.timestamp" (formatTime status.timestamp),
      line "status.details.summary" (status.renderSummary c)] ++
    (status.rawDetails.map fun raw => c.text "status.details.technical" ++ ":\n" ++ raw).toList ++
    (status.recoveryHintKey.map fun key => line "status.details.recovery" (c.text key)).toList)

/-! ## 3. The migration -/

/-- `MigrationTerminalPresentation`. -/
inductive MigrationTerminalPresentation where
  | success (files bytes : Nat) (manifestHash : String)
  | cancelled
  | error (details : String)
  deriving DecidableEq, Repr

/-- `MigrationTerminalPresentation::render`. -/
def MigrationTerminalPresentation.render : MigrationTerminalPresentation → String
  | success files bytes manifestHash => c.textWith "migration.success"
    [("files", toString files), ("bytes", toString bytes), ("hash", manifestHash)]
  | cancelled => c.text "status.cancelled"
  | error details => details

/-- `MigrationPreflightPresentation::render`. -/
def renderPreflight : MigrationPreflightPresentation → Option String
  | .none => none
  | .ready target => some (c.textWith "migration.validation.ready" [("target", target)])
  | .changed => some (c.text "migration.validation.changed")
  | .validationError summaryKey => some (c.text summaryKey)
  | .rawFailure details => some details

/-! ## 4. The tables -/

/-- `localized_description`. -/
def localizedDescription : ProfileAnomaly → String
  | .bakSuffix => c.text "profile.status.bak_suffix"
  | .tempSession => c.text "profile.status.temp_session"
  | .orphanSid => c.text "profile.status.orphan_sid"
  | .pathCollision _ => c.text "profile.status.path_collision"
  | .dirtyStateMask _ => c.text "profile.status.dirty_state"
  | .lockedNtUserDat _ => c.text "profile.status.hive_locked"
  | .missingDirectory _ => c.text "profile.status.missing_directory"
  | .registryReadFailure _ => c.text "profile.status.registry_read_failure"
  | .sidResolutionFailure _ => c.text "profile.status.sid_resolution_failure"
  | .filesystemScanFailure _ => c.text "profile.status.filesystem_scan_failure"
  | .lockInspectionFailure _ => c.text "profile.status.lock_inspection_failure"

/-- `format!` with `0x`, the width and `X`. -/
def hexUpper (width n : Nat) : String :=
  let digits := (Nat.toDigits 16 n).map Char.toUpper
  String.ofList ('0' :: 'x' :: (List.replicate (width - digits.length) '0' ++ digits))

/-- The code and the technical details of `anomaly_to_issue`. -/
def issueDetails : ProfileAnomaly → String × String
  | .bakSuffix => ("BAK_SUFFIX", "")
  | .tempSession => ("TEMP_SESSION", "")
  | .orphanSid => ("ORPHAN_SID", "")
  | .pathCollision details => ("PATH_COLLISION", details)
  | .dirtyStateMask mask => ("DIRTY_STATE_MASK", hexUpper 8 mask.toNat)
  | .lockedNtUserDat processes => ("LOCKED_NTUSER_DAT", "\n".intercalate processes)
  | .missingDirectory details => ("MISSING_DIRECTORY", details)
  | .registryReadFailure details => ("REGISTRY_READ_FAILURE", details)
  | .sidResolutionFailure details => ("SID_RESOLUTION_FAILURE", details)
  | .filesystemScanFailure details => ("FILESYSTEM_SCAN_FAILURE", details)
  | .lockInspectionFailure details => ("LOCK_INSPECTION_FAILURE", details)

/-- `ProfileIssueEntry`. -/
structure ProfileIssueEntry where
  code : String
  summary : String
  technicalDetails : String
  deriving DecidableEq, Repr

/-- `anomaly_to_issue`. -/
def anomalyToIssue (anomaly : ProfileAnomaly) : ProfileIssueEntry where
  code := (issueDetails anomaly).1
  summary := localizedDescription c anomaly
  technicalDetails := (issueDetails anomaly).2

/-- The texts of a `ProfileEntry`, beside what the handlers read of it. -/
structure ProfileTexts where
  canonicalSid : String
  domain : String
  statusText : String
  healthType : Int
  isBak : Bool
  stateRaw : String
  anomalies : String
  issues : List ProfileIssueEntry
  lockingProcesses : List String
  hasLockingProcesses : Bool
  lockInspectionFailure : String
  deriving DecidableEq, Repr

/-- The texts of `user_profile_to_slint`. -/
def profileTexts (profile : UserProfile) : ProfileTexts :=
  let anomalies := "; ".intercalate (profile.anomalies.map (localizedDescription c))
  { canonicalSid := profile.canonicalSid
    domain := profile.domain
    statusText :=
      if profile.anomalies.isEmpty then c.text "profile.status.healthy" else anomalies
    healthType := match profile.health with
      | .healthy => 0
      | .warning => 1
      | .corrupted => 2
    isBak := profile.isBak
    stateRaw := hexUpper 4 profile.stateMask.toNat
    anomalies
    issues := profile.anomalies.map (anomalyToIssue c)
    lockingProcesses := WinProfile.lockingProcesses profile
    hasLockingProcesses := !(WinProfile.lockingProcesses profile).isEmpty
    lockInspectionFailure := (WinProfile.lockInspectionFailure profile).getD "" }

/-- What the window shows of the selected profile, beside what the handlers read of it. -/
structure SelectedTexts where
  account : String := ""
  healthType : Int := -1
  anomalies : String := ""
  issues : List ProfileIssueEntry := []
  lockingProcesses : List String := []
  hasLockingProcesses : Bool := false
  lockInspectionFailure : String := ""
  deriving DecidableEq, Repr

/-- The texts of `apply_selected_profile`. -/
def selectedTexts (profile : ProfileEntry) (texts : ProfileTexts) : SelectedTexts where
  account := if texts.domain.isEmpty then profile.username
    else texts.domain ++ "\\" ++ profile.username
  healthType := texts.healthType
  anomalies := texts.anomalies
  issues := texts.issues
  lockingProcesses := texts.lockingProcesses
  hasLockingProcesses := texts.hasLockingProcesses
  lockInspectionFailure := texts.lockInspectionFailure

/-- The counts of the window. -/
structure ReportCounts where
  totalProfilesCount : Int := 0
  healthyCount : Int := 0
  warningCount : Int := 0
  corruptedCount : Int := 0
  tempCount : Int := 0
  deriving DecidableEq, Repr

/-- `as i32`. -/
def asI32 (n : Nat) : Int := (n : Int).bmod (2 ^ 32)

/-- The counts of `render_report`. -/
def reportCounts (report : DiagnosticReport) : ReportCounts where
  totalProfilesCount := asI32 report.totalCount
  healthyCount := asI32 report.healthyCount
  warningCount := asI32 report.warningCount
  corruptedCount := asI32 report.corruptedCount
  tempCount := asI32 report.temporaryCount

/-- `AuditLogEntry`. -/
structure AuditLogEntry where
  timestamp : String
  operation : String
  target : String
  status : String
  statusType : Nat
  details : String
  deriving DecidableEq, Repr

/-- The key and the number of a status in `audit_entry_to_slint`. -/
def auditStatusKey : AuditStatus → String × Nat
  | .success => ("audit.status.success", 0)
  | .warning => ("audit.status.warning", 1)
  | .failed => ("audit.status.failed", 2)
  | .rolledBack => ("audit.status.rolled_back", 3)

/-- `audit_entry_to_slint`. -/
def auditEntryToSlint (formatTime : Int → String) (entry : AuditEntry) : AuditLogEntry where
  timestamp := formatTime entry.timestamp
  operation := entry.operation
  target := entry.target
  status := c.text (auditStatusKey entry.status).1
  statusType := (auditStatusKey entry.status).2
  details := entry.details

end Render

end WinProfile.Presentation
