/-
  File:      WinProfile/App/Screen.lean
  Subject:   app-ui/src/controller.rs: the texts of the window, the values they are made from, and
             the change of the language.

  * `Screen` -- a `Desk` with the caches of the controller and the texts on the window.
  * `ScreenEvent`, `Screen.handle` -- the handlers and the completions of the workers, one step each.
  * `Screen.opened`, `session` -- the window when the startup is ready, and after any events.
-/
import WinProfile.App.Rendering

namespace WinProfile.Presentation

open Progress (Catalogue)
open Languages (supported detectInitialLocaleWith)

/-! ## 1. The screen -/

/-- The window and the caches of the controller. -/
structure Screen where
  desk : Desk
  /-- `CURRENT_LOCALE`. -/
  locale : String
  /-- `last_report`, of which the desk has the profiles. -/
  lastReport : Option DiagnosticReport := none
  lastAuditEntries : Option (List AuditEntry) := none
  lastMigrationTerminal : Option MigrationTerminalPresentation := none
  lastOperatorStatus : OperatorStatus
  -- the properties of the window
  profileRows : List ProfileTexts := []
  counts : ReportCounts := {}
  selected : SelectedTexts := {}
  auditRows : List AuditLogEntry := []
  statusMessage : String
  statusDetails : String
  /-- The line of the migration, with what the last progress wrote beside it. -/
  view : Progress.View := {}
  /-- For observation only: the line of the migration is not that of a cached value. -/
  loose : Bool := false

section Handlers

variable (G : Language)

def Screen.catalogue (s : Screen) : Catalogue := G.catalogue s.locale

/-- `set_migration_status` with the text of a cached value. -/
def Screen.setStatus (s : Screen) (message : String) : Screen :=
  { s with view := { s.view with status := message }, loose := false }

/-- What a reset leaves of the progress. -/
def clearedView : Progress.View := { copiedBytes := "0" }

/-- `apply_operator_status`. -/
def Screen.applyOperatorStatus (s : Screen) (status : OperatorStatus) : Screen :=
  { s with
    statusMessage := status.renderSummary (s.catalogue G)
    statusDetails := status.renderDetails (s.catalogue G) G.formatTime }

/-- `publish_operator_status`. -/
def Screen.publish (s : Screen) (status : OperatorStatus) : Screen :=
  { s.applyOperatorStatus G status with lastOperatorStatus := status }

/-- `publish_localized_status`. -/
def Screen.publishLocalized (s : Screen) (now : Int) (operation : OperatorStatusOperation)
    (outcome : OperatorStatusOutcome) (target key : String) : Screen :=
  s.publish G (.localized now operation outcome target key [])

/-- `publish_failure`, as all handlers call it. -/
def Screen.publishFailure (s : Screen) (now : Int) (operation : OperatorStatusOperation)
    (target rawDetails : String) : Screen :=
  s.publish G (.failure now operation target rawDetails (some "status.recovery.retry"))

/-- `cache_and_apply_migration_preflight_presentation`, after the desk has cached it. -/
def Screen.showPreflight (s : Screen) (desk : Desk) : Screen :=
  match renderPreflight (s.catalogue G) desk.presentation with
  | some message => { s with desk }.setStatus message
  | none => { s with desk }

/-- `render_audit_entries`. -/
def Screen.renderAuditEntries (s : Screen) (entries : List AuditEntry) : Screen :=
  { s with auditRows := entries.map (auditEntryToSlint (s.catalogue G) G.formatTime) }

/-- `apply_audit_result`. -/
def Screen.applyAuditResult (s : Screen) (now : Int) : Except String (List AuditEntry) → Screen
  | .ok entries => { s.renderAuditEntries G entries with lastAuditEntries := some entries }
  | .error error => s.publishFailure G now .audit "Display" error

/-- The texts of `apply_selected_profile`. -/
def Screen.showSelected (s : Screen) (profile : ProfileEntry) (texts : ProfileTexts) : Screen :=
  { s with selected := selectedTexts profile texts }

/-- `cache_and_apply_report`, where the selection is reset. -/
def Screen.cacheAndApplyReport (s : Screen) (report : DiagnosticReport) : Screen :=
  { s with
    desk := s.desk.cacheAndApplyReport report.profiles
    lastReport := some report
    lastMigrationTerminal := none
    profileRows := report.profiles.map (profileTexts (s.catalogue G))
    counts := reportCounts report
    selected := {}
    view := clearedView
    loose := false }

/-- `cache_and_apply_migration_terminal`. -/
def Screen.cacheAndApplyMigrationTerminal (s : Screen)
    (presentation : MigrationTerminalPresentation) : Screen :=
  { s with
    desk := { s.desk with presentation := .none }
    lastMigrationTerminal := some presentation }.setStatus (presentation.render (s.catalogue G))

/-! ## 2. The language -/

/-- `render_report`, where the selection stays. -/
def Screen.renderReportAgain (s : Screen) (report : DiagnosticReport) : Screen :=
  let rows := report.profiles.map (profileTexts (s.catalogue G))
  let shown := { s with
    desk := s.desk.renderReport report.profiles false
    profileRows := rows
    counts := reportCounts report }
  match s.desk.keptProfile (report.profiles.map userProfileToSlint),
    rows[s.desk.selectedIdx.toNat]? with
  | some profile, some texts => shown.showSelected profile texts
  | _, _ => shown

/-- The line of the migration that is cached: the preflight, else the end of the last one. -/
def Screen.cachedLine (s : Screen) : Option String :=
  (renderPreflight (s.catalogue G) s.desk.presentation).or
    (s.lastMigrationTerminal.map fun presentation => presentation.render (s.catalogue G))

/-- The line of the migration when it is rendered again. -/
def Screen.renderMigrationAgain (s : Screen) : Screen :=
  match s.cachedLine G with
  | some message => s.setStatus message
  | none => s

/-- The cached report is rendered again. -/
def Screen.renderCachedReport (s : Screen) : Screen :=
  match s.lastReport with
  | some report => s.renderReportAgain G report
  | none => s

/-- The cached entries of the audit are rendered again. -/
def Screen.renderCachedAudit (s : Screen) : Screen :=
  match s.lastAuditEntries with
  | some entries => s.renderAuditEntries G entries
  | none => s

/-- `change_locale`. -/
def Screen.changeLocale (s : Screen) (locale : String) : Screen :=
  if !s.desk.atRest || !supported locale then s
  else
    let rendered := ({ s with locale : Screen }.renderCachedReport G).renderCachedAudit G
    (rendered.renderMigrationAgain G).applyOperatorStatus G s.lastOperatorStatus

/-! ## 3. The handlers -/

/-- `select_profile`. -/
def Screen.selectProfile (s : Screen) (index : Nat) : Screen :=
  match s.desk.profiles[index]?, s.profileRows[index]? with
  | some profile, some texts =>
    let selected := { s with desk := (s.desk.selectProfile index).1 }.showSelected profile texts
    if s.desk.profileChanged profile then
      { selected with lastMigrationTerminal := none, view := clearedView, loose := false }
    else selected
  | _, _ => s

/-- A handler that only clears or sets the token, and says so. -/
def Screen.withDesk (s : Screen) (handled : Handled) : Screen :=
  match handled.2 with
  | [] => { s with desk := handled.1 }
  | _ => s.showPreflight G handled.1

/-- `prevalidate_migration`. -/
def Screen.prevalidateMigration (s : Screen) (now : Int)
    (answer : Except MigrationError MigrationPreflight) : Screen :=
  let shown := s.withDesk G (s.desk.prevalidateMigration answer)
  if !s.desk.atRest then s
  else if s.desk.selectedLoaded then
    shown.publishLocalized G now .migration .warning s.desk.selectedPath MIGRATION_SOURCE_LOADED_ERROR
  else match answer with
    | .ok _ => shown
    | .error error => shown.publishFailure G now .migration s.desk.migrationTargetPath error.text

/-- `report_migration_picker_failure`. -/
def Screen.reportPickerFailure (s : Screen) (now : Int) (details : String) : Screen :=
  (s.showPreflight G { s.desk with presentation := .rawFailure details }).publishFailure G now
    .migration s.desk.migrationTargetPath details

/-- `require_elevation`: the screen, and whether to go on. -/
def Screen.requireElevation (s : Screen) (now : Int) (operation : OperatorStatusOperation) :
    Except String Bool → Screen × Bool
  | .ok true => (s, true)
  | .ok false =>
    (s.publishLocalized G now operation .warning "System" "error.elevation_required", false)
  | .error error => (s.publishFailure G now operation "System" error, false)

/-- `begin_operation`. -/
def Screen.beginOperation (s : Screen) (now : Int) (kind : OperationKind) : Screen × Bool :=
  if s.desk.active = .idle then
    ({ s with desk := { s.desk with active := kind, operationBusy := true } }, true)
  else
    (s.publishLocalized G now (statusOperation kind) .warning "System" "error.operation_busy", false)

/-- Go on after a check that was passed, and stop after one that was not. -/
def Screen.proceed (checked : Screen × Bool) (next : Screen → Screen) : Screen :=
  if checked.2 then next checked.1 else checked.1

/-- Begin the operation, and say that it runs. -/
def Screen.runOperation (s : Screen) (now : Int) (kind : OperationKind) (target key : String) :
    Screen :=
  Screen.proceed (s.beginOperation G now kind) fun begun =>
    begun.publishLocalized G now (statusOperation kind) .running target key

/-- `scan_profiles`. -/
def Screen.scanProfiles (s : Screen) (now : Int) : Screen :=
  s.runOperation G now .scan "System" "status.scanning"

/-- `export_audit`. -/
def Screen.exportAudit (s : Screen) (now : Int) : Screen :=
  s.runOperation G now .exportAudit "Exports" "status.exporting"

def TI_AUDIT_TARGET : String := "Windows system command interpreter"

/-- `launch_ti_console`. -/
def Screen.launchTiConsole (s : Screen) (now : Int) (elevated : Except String Bool) : Screen :=
  Screen.proceed (s.requireElevation G now .trustedInstaller elevated) fun allowed =>
    allowed.runOperation G now .trustedInstaller TI_AUDIT_TARGET "status.launching_ti"

/-- `execute_repair`. -/
def Screen.executeRepair (s : Screen) (now : Int) (elevated : Except String Bool) : Screen :=
  if s.desk.selectedRepairBlocked then
    s.publishLocalized G now .repair .warning s.desk.selectedSid "repair.locked.status"
  else Screen.proceed (s.requireElevation G now .repair elevated) fun allowed =>
    allowed.runOperation G now .repair s.desk.selectedSid "status.repairing"

/-- `request_repair_confirmation`, which opens a dialog if nothing is in the way. -/
def Screen.requestRepairConfirmation (s : Screen) (now : Int) : Screen :=
  if s.desk.selectedRepairBlocked then
    s.publishLocalized G now .repair .warning s.desk.selectedSid "repair.locked.status"
  else if s.desk.selectedSid = "" then
    s.publishLocalized G now .repair .warning "Inventory" "error.profile_not_selected"
  else if !s.desk.repairFixBak && !s.desk.repairResetState then
    s.publishLocalized G now .repair .warning s.desk.selectedSid "error.no_repair_action"
  else { s with desk := { s.desk with dialogVisible := true } }

/-- `start_migration`. -/
def Screen.startMigration (s : Screen) (now : Int) (elevated : Except String Bool) : Screen :=
  if s.desk.selectedLoaded then
    s.publishLocalized G now .migration .warning s.desk.selectedPath MIGRATION_SOURCE_LOADED_ERROR
  else if Desk.incompletePlan s.desk.migrationPlan then
    { s with desk := { s.desk with active := .idle, operationBusy := false } }.publishLocalized G now
      .migration .warning s.desk.selectedPath "error.migration_scope"
  else if !s.desk.tokenMatches then
    (s.showPreflight G { s.desk with
      preflight := none, presentation := .changed, migrationPreflightValid := false }).publishLocalized
        G now .migration .warning s.desk.migrationTargetPath "error.migration_prevalidation_required"
  else
    -- the text stays, and the presentation it was made from does not
    let taken := { s with
      desk := { s.desk with
        preflight := none, presentation := .none, migrationPreflightValid := false }
      loose := true }
    Screen.proceed (taken.requireElevation G now .migration elevated) fun allowed =>
      allowed.runOperation G now .migration s.desk.selectedPath "status.migrating"

/-- `cancel_migration` and the close of a window beside a migration, with a token or without. -/
def Screen.cancelMigration (s : Screen) (now : Int) : Screen :=
  s.publishLocalized G now .migration .running s.desk.selectedPath "status.cancelling"

/-- `handle_close_requested`. -/
def Screen.handleCloseRequested (s : Screen) (now : Int) : Screen :=
  match s.desk.active.closePolicy with
  | .allow => s
  | .block => s.publishLocalized G now (statusOperation s.desk.active) .warning "WinProfile"
      "status.close_blocked_repair"
  | .cancelMigration => s.cancelMigration G now

/-- `clear_audit_logs`, with the answer of `clear_memory`. -/
def Screen.clearAuditLogs (s : Screen) (now : Int) : Except String Unit → Screen
  | .ok () => (s.applyAuditResult G now (.ok [])).publishLocalized G now .audit .success "Display"
      "status.audit_cleared"
  | .error error => s.publishFailure G now .audit "Display" error

/-! ## 4. The completions -/

/-- The completion of a worker runs on the UI thread. -/
def Screen.atRestAgain (s : Screen) : Screen :=
  { s with desk := { s.desk with operationBusy := false } }

/-- The end of `scan_profiles`. -/
def Screen.scanFinished (s : Screen) (now : Int) (result : Except String DiagnosticReport)
    (audit : Except String (List AuditEntry)) : Screen :=
  let done := s.atRestAgain
  let shown := match result with
    | .ok report => (done.cacheAndApplyReport G report).publish G (.scanCompleted report)
    | .error error => done.publishFailure G now .scan "System" error
  shown.applyAuditResult G now audit

/-- The end of `execute_repair`; a repair that succeeded, and was not a rehearsal, scans again. -/
def Screen.repairFinished (s : Screen) (now : Int) (target : String)
    (result : Except String (Option (Except String DiagnosticReport)))
    (audit : Except String (List AuditEntry)) : Screen :=
  let done := s.atRestAgain
  let shown := match result with
    | .ok (some (.ok report)) => (done.cacheAndApplyReport G report).publishLocalized G now
        .repair .success target "repair.success.message"
    | .ok (some (.error error)) => done.publish G
        { OperatorStatus.localized now .repair .warning target "status.repair_refresh_warning" [] with
          rawDetails := some error
          recoveryHintKey := some "status.recovery.retry" }
    | .ok none => done.publishLocalized G now .repair .success target "status.completed"
    | .error error => done.publishFailure G now .repair target error
  shown.applyAuditResult G now audit

/-- How a migration ends: what was copied, or why not. -/
inductive MigrationEnd where
  | copied (files bytes : Nat) (manifestSha256 : String)
  | failed (error : MigrationError)

/-- The end of `start_migration`. -/
def Screen.migrationFinished (s : Screen) (now : Int) (target : String)
    (audit : Except String (List AuditEntry)) (result : MigrationEnd) : Screen :=
  let done := s.atRestAgain
  let shown := match result with
    | .copied files bytes manifestSha256 =>
      let hash := String.ofList (manifestSha256.toList.take 16)
      (done.cacheAndApplyMigrationTerminal G (.success files bytes hash)).publish G
        (.localized now .migration .success target "migration.success"
          [("files", toString files), ("bytes", toString bytes), ("hash", hash)])
    | .failed .cancelled => (done.cacheAndApplyMigrationTerminal G .cancelled).publishLocalized G now
        .migration .cancelled target "status.cancelled"
    | .failed error => (done.cacheAndApplyMigrationTerminal G (.error error.text)).publishFailure G now
        .migration target error.text
  shown.applyAuditResult G now audit

/-- `apply_migration_progress`. -/
def Screen.showProgress (s : Screen) (progress : Progress.MigrationProgress) : Screen :=
  { s with
    view := Progress.applyMigrationProgress (s.catalogue G) s.view progress
    loose := true }

/-- The end of `launch_ti_console`. -/
def Screen.launchFinished (s : Screen) (now : Int) (result : Except String UInt32)
    (audit : Except String (List AuditEntry)) : Screen :=
  let done := s.atRestAgain
  let shown := match result with
    | .ok pid => done.publish G (.localized now .trustedInstaller .success TI_AUDIT_TARGET
        "status.ti_success" [("pid", toString pid.toNat)])
    | .error error => done.publishFailure G now .trustedInstaller TI_AUDIT_TARGET error
  shown.applyAuditResult G now audit

/-- The end of `export_audit`. -/
def Screen.exportFinished (s : Screen) (now : Int) (result : Except String String) : Screen :=
  match result with
  | .ok path => s.atRestAgain.publish G
      (.localized now .exportAudit .success path "status.export_success" [("path", path)])
  | .error error => s.atRestAgain.publishFailure G now .exportAudit "Exports" error

/-! ## 5. Events -/

end Handlers

/-- What reaches the UI thread: a call of the window, or a completion that a worker queued. -/
inductive ScreenEvent where
  | scanProfiles
  | scanFinished (result : Except String DiagnosticReport) (audit : Except String (List AuditEntry))
  | selectProfile (index : Nat)
  /-- The target or the scopes are edited; `announced`: the callback runs. -/
  | editMigration (target : String) (roaming docs announced : Bool)
  /-- The two boxes of the repair. -/
  | chooseRepair (fixBak resetState : Bool)
  | invalidateMigrationPreflight
  | applyMigrationParent (parent : Wide)
  | pickerFailure (details : String)
  | prevalidateMigration (answer : Except MigrationError MigrationPreflight)
  | requestRepairConfirmation
  /-- Any other dialog opens, or one closes. -/
  | dialog (visible : Bool)
  | executeRepair (elevated : Except String Bool)
  | repairFinished (target : String)
      (result : Except String (Option (Except String DiagnosticReport)))
      (audit : Except String (List AuditEntry))
  | startMigration (elevated : Except String Bool)
  | progress (progress : Progress.MigrationProgress)
  /-- `cancel_migration`; `cancellable`: the flag of a migration is there. -/
  | cancelMigration (cancellable : Bool)
  | migrationFinished (target : String) (audit : Except String (List AuditEntry))
      (result : MigrationEnd)
  | launchTiConsole (elevated : Except String Bool)
  | launchFinished (result : Except String UInt32) (audit : Except String (List AuditEntry))
  | exportAudit
  | exportFinished (result : Except String String)
  | closeRequested
  | clearAuditLogs (result : Except String Unit)
  | refreshAuditLogs (audit : Except String (List AuditEntry))
  | changeLocale (locale : String)
  /-- `finish_operation`, on the thread of a worker. -/
  | workerFinished

section Runs

variable (G : Language)

/-- The handler of an event. -/
def Screen.handle (s : Screen) (now : Int) : ScreenEvent → Screen
  | .scanProfiles => s.scanProfiles G now
  | .scanFinished result audit => s.scanFinished G now result audit
  | .selectProfile index => s.selectProfile index
  | .editMigration target roaming docs announced =>
    s.withDesk G (s.desk.handle (.edit target roaming docs announced))
  | .chooseRepair fixBak resetState =>
    { s with desk := { s.desk with repairFixBak := fixBak, repairResetState := resetState } }
  | .invalidateMigrationPreflight => s.withDesk G (s.desk.handle .invalidate)
  | .applyMigrationParent parent => s.withDesk G (s.desk.applyMigrationParent parent)
  | .pickerFailure details => s.reportPickerFailure G now details
  | .prevalidateMigration answer => s.prevalidateMigration G now answer
  | .requestRepairConfirmation => s.requestRepairConfirmation G now
  | .dialog visible => { s with desk := { s.desk with dialogVisible := visible } }
  | .executeRepair elevated => s.executeRepair G now elevated
  | .repairFinished target result audit => s.repairFinished G now target result audit
  | .startMigration elevated => s.startMigration G now elevated
  | .progress progress => s.showProgress G progress
  | .cancelMigration cancellable => if cancellable then s.cancelMigration G now else s
  | .migrationFinished target audit result => s.migrationFinished G now target audit result
  | .launchTiConsole elevated => s.launchTiConsole G now elevated
  | .launchFinished result audit => s.launchFinished G now result audit
  | .exportAudit => s.exportAudit G now
  | .exportFinished result => s.exportFinished G now result
  | .closeRequested => s.handleCloseRequested G now
  | .clearAuditLogs result => s.clearAuditLogs G now result
  | .refreshAuditLogs audit => s.applyAuditResult G now audit
  | .changeLocale locale => s.changeLocale G locale
  | .workerFinished => { s with desk := { s.desk with active := .idle } }

/-- All events with their times, one after the other. -/
def Screen.handleAll (s : Screen) (events : List (Int × ScreenEvent)) : Screen :=
  events.foldl (fun s event => s.handle G event.1 event.2) s

/-- The window when the startup is ready: the language that was detected, or the one that was set
last beside the startup; the audit is shown and a scan begins. -/
def Screen.opened (detected : Except Locale.LocaleError (List String)) (chosen : List String)
    (created now : Int) (audit : Except String (List AuditEntry)) : Screen :=
  let locale := chosen.foldl setLocale (detectInitialLocaleWith detected)
  let ready := OperatorStatus.localized created .application .ready "WinProfile" "status.ready" []
  let bound : Screen := {
    desk := {}
    locale
    lastOperatorStatus := ready
    statusMessage := (G.catalogue locale).text "status.ready"
    statusDetails := "" }
  (bound.applyAuditResult G now audit).scanProfiles G now

/-- The window after the start and these events. -/
def session (detected : Except Locale.LocaleError (List String)) (chosen : List String)
    (created now : Int) (audit : Except String (List AuditEntry))
    (events : List (Int × ScreenEvent)) : Screen :=
  (Screen.opened G detected chosen created now audit).handleAll G events

end Runs

end WinProfile.Presentation
