/-
  File:      WinProfile/App/Shown.lean
  Subject:   What the window says after any run of its events, and what a change of the language
             does to it.

  * `Shown` -- every text is the rendering of what is cached, in the language that is set; the
    selected properties are those of the selected row.
  * `shown_handle` -- every handler keeps it; `screen_shown`: so it holds in every run.
  * `Screen.inLanguage` -- the window as it would be in a language; `changeLocale_eq`: that is what
    `change_locale` makes of it.
  * `locale_round_trip` -- it touches nothing else, and the way back leads to the same window.
-/
import WinProfile.App.Screen

namespace WinProfile.Presentation

open Progress (Catalogue)
open Languages (supported)

/-! ## 1. The invariant -/

def Screen.report (s : Screen) : List UserProfile := s.desk.lastReport.getD []

/-- The selected properties are those of the row. -/
structure Selects (d : Desk) (entry : ProfileEntry) : Prop where
  sid : d.selectedSid = entry.sid
  path : d.selectedPath = entry.profilePath
  username : d.selectedUsername = entry.username
  blocked : d.selectedRepairBlocked = entry.repairBlockedByLockInspection
  loaded : d.selectedLoaded = entry.loaded

/-- No row is selected, or one is and everything shown of the selection is of it. -/
inductive Selected (c : Catalogue) (d : Desk) (shown : SelectedTexts) : Prop where
  | nothing (hidx : d.selectedIdx = -1) (hshown : shown = {})
  | row (i : Nat) (profile : UserProfile) (hrow : (d.lastReport.getD [])[i]? = some profile)
      (hidx : d.selectedIdx = i) (hselects : Selects d (userProfileToSlint profile))
      (hshown : shown = selectedTexts (userProfileToSlint profile) (profileTexts c profile))

section

variable (G : Language)

/-- The line of the migration, or nothing. -/
def Screen.migrationText (s : Screen) : String := (s.cachedLine G).getD ""

/-- **What the window says** is what is cached, in the language that is set. -/
structure Shown (s : Screen) : Prop where
  language : supported s.locale = true
  message : s.statusMessage = s.lastOperatorStatus.renderSummary (s.catalogue G)
  details : s.statusDetails = s.lastOperatorStatus.renderDetails (s.catalogue G) G.formatTime
  report : s.desk.lastReport = s.lastReport.map DiagnosticReport.profiles
  table : s.desk.profiles = s.report.map userProfileToSlint
  counts : s.counts = (s.lastReport.map reportCounts).getD {}
  rows : s.profileRows = s.report.map (profileTexts (s.catalogue G))
  selected : Selected (s.catalogue G) s.desk s.selected
  audit : s.auditRows =
    (s.lastAuditEntries.getD []).map (auditEntryToSlint (s.catalogue G) G.formatTime)
  /-- Not so after a progress, or a start that took the token, until the line is set again. -/
  migration : s.loose = false → s.view.status = s.migrationText G

end

/-! ## 2. Steps of a handler -/

/-- The table and the selection are the same. -/
structure SameTable (d d' : Desk) : Prop where
  report : d'.lastReport = d.lastReport
  profiles : d'.profiles = d.profiles
  idx : d'.selectedIdx = d.selectedIdx
  sid : d'.selectedSid = d.selectedSid
  path : d'.selectedPath = d.selectedPath
  username : d'.selectedUsername = d.selectedUsername
  blocked : d'.selectedRepairBlocked = d.selectedRepairBlocked
  loaded : d'.selectedLoaded = d.selectedLoaded

theorem SameTable.refl (d : Desk) : SameTable d d := ⟨rfl, rfl, rfl, rfl, rfl, rfl, rfl, rfl⟩

theorem Selected.sameTable {c : Catalogue} {d d' : Desk} {shown : SelectedTexts}
    (h : Selected c d shown) (hsame : SameTable d d') : Selected c d' shown := by
  cases h with
  | nothing hidx hshown => exact .nothing (hsame.idx.trans hidx) hshown
  | row i profile hrow hidx hselects hshown =>
    refine .row i profile (by rw [hsame.report, hrow]) (hsame.idx.trans hidx) ?_ hshown
    exact ⟨hsame.sid.trans hselects.sid, hsame.path.trans hselects.path,
      hsame.username.trans hselects.username, hsame.blocked.trans hselects.blocked,
      hsame.loaded.trans hselects.loaded⟩

section

variable {G : Language} {s : Screen}

theorem Shown.publish (h : Shown G s) (status : OperatorStatus) : Shown G (s.publish G status) where
  language := h.language
  message := by simp only [Screen.publish, Screen.applyOperatorStatus, Screen.catalogue]
  details := by simp only [Screen.publish, Screen.applyOperatorStatus, Screen.catalogue]
  report := h.report
  table := h.table
  counts := h.counts
  rows := h.rows
  selected := h.selected
  audit := h.audit
  migration := h.migration

/-- A status takes the place of whatever was said. -/
theorem Shown.publish_over {message details : String}
    (h : Shown G { s with statusMessage := message, statusDetails := details })
    (status : OperatorStatus) : Shown G (s.publish G status) :=
  h.publish status

theorem Shown.publishLocalized (h : Shown G s) (now : Int) (operation : OperatorStatusOperation)
    (outcome : OperatorStatusOutcome) (target key : String) :
    Shown G (s.publishLocalized G now operation outcome target key) :=
  h.publish _

theorem Shown.publishFailure (h : Shown G s) (now : Int) (operation : OperatorStatusOperation)
    (target rawDetails : String) : Shown G (s.publishFailure G now operation target rawDetails) :=
  h.publish _

/-- The table is left alone, and the line of the migration is set right or let go. -/
theorem Shown.update (h : Shown G s) {d : Desk} {view : Progress.View} {loose : Bool}
    (hsame : SameTable s.desk d)
    (hline : loose = false → view.status = Screen.migrationText G { s with desk := d }) :
    Shown G { s with desk := d, view, loose } := by
  have hreport : Screen.report { s with desk := d, view, loose } = s.report := by
    rw [Screen.report, hsame.report, Screen.report]
  exact {
    language := h.language
    message := h.message
    details := h.details
    report := hsame.report.trans h.report
    table := by rw [hreport, ← h.table]; exact hsame.profiles
    counts := h.counts
    rows := by rw [hreport]; exact h.rows
    selected := h.selected.sameTable hsame
    audit := h.audit
    migration := hline }

theorem Shown.setDesk (h : Shown G s) {d : Desk} (hsame : SameTable s.desk d)
    (hpresentation : d.presentation = s.desk.presentation) : Shown G { s with desk := d } := by
  refine h.update hsame fun hloose => ?_
  have hline : Screen.cachedLine G { s with desk := d } = s.cachedLine G := by
    rw [Screen.cachedLine, Screen.cachedLine, hpresentation]
    rfl
  rw [h.migration hloose, Screen.migrationText, Screen.migrationText, hline]

theorem Shown.showPreflight (h : Shown G s) {d : Desk} (hsame : SameTable s.desk d)
    (hpresentation : d.presentation ≠ .none) : Shown G (s.showPreflight G d) := by
  obtain ⟨message, hmessage⟩ :
      ∃ message, renderPreflight (s.catalogue G) d.presentation = some message := by
    cases hp : d.presentation with
    | none => exact absurd hp hpresentation
    | ready target => exact ⟨_, rfl⟩
    | changed => exact ⟨_, rfl⟩
    | validationError summaryKey => exact ⟨_, rfl⟩
    | rawFailure details => exact ⟨_, rfl⟩
  rw [Screen.showPreflight, hmessage]
  refine h.update hsame fun _ => ?_
  have hline : renderPreflight (Screen.catalogue G { s with desk := d }) d.presentation =
      some message := hmessage
  rw [Screen.migrationText, Screen.cachedLine, hline, Option.some_or, Option.getD_some]

/-- A handler that marks the token sets the line too. -/
theorem Shown.withDesk (h : Shown G s) {handled : Handled} (hsame : SameTable s.desk handled.1)
    (hquiet : handled.2 = [] → handled.1.presentation = s.desk.presentation)
    (hmarked : handled.2 ≠ [] → handled.1.presentation ≠ .none) :
    Shown G (s.withDesk G handled) := by
  rw [Screen.withDesk]
  split
  · next hnone => exact h.setDesk hsame (hquiet hnone)
  · next hsome => exact h.showPreflight hsame (hmarked hsome)

theorem Shown.atRestAgain (h : Shown G s) : Shown G s.atRestAgain :=
  h.setDesk ⟨rfl, rfl, rfl, rfl, rfl, rfl, rfl, rfl⟩ rfl

theorem Shown.renderAuditEntries (h : Shown G s) (entries : List AuditEntry) :
    Shown G { s.renderAuditEntries G entries with lastAuditEntries := some entries } :=
  ⟨h.language, h.message, h.details, h.report, h.table, h.counts, h.rows, h.selected, rfl,
    h.migration⟩

theorem Shown.applyAuditResult (h : Shown G s) (now : Int)
    (audit : Except String (List AuditEntry)) : Shown G (s.applyAuditResult G now audit) := by
  cases audit with
  | ok entries => exact h.renderAuditEntries entries
  | error error => exact h.publishFailure now .audit "Display" error

theorem Shown.cacheAndApplyReport (h : Shown G s) (report : DiagnosticReport) :
    Shown G (s.cacheAndApplyReport G report) where
  language := h.language
  message := h.message
  details := h.details
  report := rfl
  table := rfl
  counts := rfl
  rows := rfl
  selected := .nothing rfl rfl
  audit := h.audit
  migration _ := rfl

theorem Shown.cacheAndApplyMigrationTerminal (h : Shown G s)
    (presentation : MigrationTerminalPresentation) :
    Shown G (s.cacheAndApplyMigrationTerminal G presentation) where
  language := h.language
  message := h.message
  details := h.details
  report := h.report
  table := h.table
  counts := h.counts
  rows := h.rows
  selected := h.selected.sameTable ⟨rfl, rfl, rfl, rfl, rfl, rfl, rfl, rfl⟩
  audit := h.audit
  migration _ := rfl

theorem Shown.beginOperation (h : Shown G s) (now : Int) (kind : OperationKind) :
    Shown G (s.beginOperation G now kind).1 := by
  rw [Screen.beginOperation]
  split
  · exact h.setDesk ⟨rfl, rfl, rfl, rfl, rfl, rfl, rfl, rfl⟩ rfl
  · exact h.publishLocalized now _ .warning "System" "error.operation_busy"

theorem Shown.proceed {checked : Screen × Bool} (h : Shown G checked.1) {next : Screen → Screen}
    (hnext : ∀ s', Shown G s' → Shown G (next s')) : Shown G (Screen.proceed checked next) := by
  rw [Screen.proceed]
  split
  · exact hnext checked.1 h
  · exact h

theorem Shown.runOperation (h : Shown G s) (now : Int) (kind : OperationKind) (target key : String) :
    Shown G (s.runOperation G now kind target key) :=
  (h.beginOperation now kind).proceed fun _ hbegun =>
    hbegun.publishLocalized now _ .running target key

theorem Shown.requireElevation (h : Shown G s) (now : Int) (operation : OperatorStatusOperation)
    (elevated : Except String Bool) : Shown G (s.requireElevation G now operation elevated).1 := by
  rcases elevated with error | _ | _
  · exact h.publishFailure now operation "System" error
  · exact h.publishLocalized now operation .warning "System" "error.elevation_required"
  · exact h

/-! ## 3. Handlers -/

theorem Shown.selectProfile (h : Shown G s) (index : Nat) : Shown G (s.selectProfile index) := by
  cases hrow : s.report[index]? with
  | none =>
    have hentry : s.desk.profiles[index]? = none := by
      rw [h.table, List.getElem?_map, hrow, Option.map_none]
    rw [Screen.selectProfile, hentry]
    exact h
  | some profile =>
    have hentry : s.desk.profiles[index]? = some (userProfileToSlint profile) := by
      rw [h.table, List.getElem?_map, hrow, Option.map_some]
    have htexts : s.profileRows[index]? = some (profileTexts (s.catalogue G) profile) := by
      rw [h.rows, List.getElem?_map, hrow, Option.map_some]
    rw [Screen.selectProfile, hentry, htexts]
    by_cases hchanged : s.desk.profileChanged (userProfileToSlint profile)
    · have hdesk : (s.desk.selectProfile index).1 =
          s.desk.resetMigrationDraft.showProfile index (userProfileToSlint profile) := by
        rw [Desk.selectProfile, hentry]
        simp only [if_pos hchanged]
      simp only [if_pos hchanged, hdesk]
      exact {
        language := h.language
        message := h.message
        details := h.details
        report := h.report
        table := h.table
        counts := h.counts
        rows := h.rows
        selected := .row index profile hrow rfl ⟨rfl, rfl, rfl, rfl, rfl⟩ rfl
        audit := h.audit
        migration := fun _ => rfl }
    · have hdesk : (s.desk.selectProfile index).1 =
          s.desk.showProfile index (userProfileToSlint profile) := by
        rw [Desk.selectProfile, hentry]
        simp only [if_neg hchanged]
      simp only [if_neg hchanged, hdesk]
      exact {
        language := h.language
        message := h.message
        details := h.details
        report := h.report
        table := h.table
        counts := h.counts
        rows := h.rows
        selected := .row index profile hrow rfl ⟨rfl, rfl, rfl, rfl, rfl⟩ rfl
        audit := h.audit
        migration := h.migration }

theorem Shown.editMigration (h : Shown G s) (target : String) (roaming docs announced : Bool) :
    Shown G (s.withDesk G (s.desk.handle (.edit target roaming docs announced))) := by
  cases announced with
  | true =>
    exact h.withDesk ⟨rfl, rfl, rfl, rfl, rfl, rfl, rfl, rfl⟩ (fun e => (by cases e))
      (fun _ e => (by cases e))
  | false =>
    exact h.withDesk ⟨rfl, rfl, rfl, rfl, rfl, rfl, rfl, rfl⟩ (fun _ => rfl)
      (fun hmarks => absurd rfl hmarks)

theorem Shown.invalidate (h : Shown G s) :
    Shown G (s.withDesk G (s.desk.handle .invalidate)) :=
  h.withDesk ⟨rfl, rfl, rfl, rfl, rfl, rfl, rfl, rfl⟩ (fun e => (by cases e))
    (fun _ e => (by cases e))

theorem Shown.reportPickerFailure (h : Shown G s) (now : Int) (details : String) :
    Shown G (s.reportPickerFailure G now details) := by
  refine Shown.publishFailure (h.showPreflight ?_ ?_) now .migration _ details
  · exact ⟨rfl, rfl, rfl, rfl, rfl, rfl, rfl, rfl⟩
  · exact fun e => (by cases e)

theorem Shown.applyMigrationParent (h : Shown G s) (parent : Wide) :
    Shown G (s.withDesk G (s.desk.applyMigrationParent parent)) := by
  unfold Desk.applyMigrationParent
  split
  · exact h.withDesk (.refl _) (fun _ => rfl) fun hmarks => absurd rfl hmarks
  · have hwritten : ∀ target, SameTable s.desk
        (Desk.clearMigrationPreflight { s.desk with migrationTargetPath := target } true) :=
      fun _ => ⟨rfl, rfl, rfl, rfl, rfl, rfl, rfl, rfl⟩
    exact h.withDesk (hwritten _) (fun e => (by cases e)) (fun _ e => (by cases e))

theorem Shown.prevalidated (h : Shown G s) (answer : Except MigrationError MigrationPreflight) :
    Shown G (s.withDesk G (s.desk.prevalidateMigration answer)) := by
  unfold Desk.prevalidateMigration
  split
  · exact h.withDesk (.refl _) (fun _ => rfl) fun hmarks => absurd rfl hmarks
  · split
    · exact h.withDesk ⟨rfl, rfl, rfl, rfl, rfl, rfl, rfl, rfl⟩ (fun e => (by cases e))
        (fun _ e => (by cases e))
    · cases answer with
      | ok validated =>
        exact h.withDesk ⟨rfl, rfl, rfl, rfl, rfl, rfl, rfl, rfl⟩ (fun e => (by cases e))
          (fun _ e => (by cases e))
      | error error =>
        exact h.withDesk ⟨rfl, rfl, rfl, rfl, rfl, rfl, rfl, rfl⟩ (fun e => (by cases e))
          (fun _ e => (by cases e))

theorem Shown.prevalidateMigration (h : Shown G s) (now : Int)
    (answer : Except MigrationError MigrationPreflight) :
    Shown G (s.prevalidateMigration G now answer) := by
  have hshown := h.prevalidated answer
  unfold Screen.prevalidateMigration
  split
  · exact h
  · split
    · exact hshown.publishLocalized now .migration .warning _ MIGRATION_SOURCE_LOADED_ERROR
    · cases answer with
      | ok validated => exact hshown
      | error error => exact hshown.publishFailure now .migration _ error.text

theorem Shown.requestRepairConfirmation (h : Shown G s) (now : Int) :
    Shown G (s.requestRepairConfirmation G now) := by
  unfold Screen.requestRepairConfirmation
  split
  · exact h.publishLocalized now .repair .warning _ "repair.locked.status"
  · split
    · exact h.publishLocalized now .repair .warning _ "error.profile_not_selected"
    · split
      · exact h.publishLocalized now .repair .warning _ "error.no_repair_action"
      · exact h.setDesk ⟨rfl, rfl, rfl, rfl, rfl, rfl, rfl, rfl⟩ rfl

theorem Shown.executeRepair (h : Shown G s) (now : Int) (elevated : Except String Bool) :
    Shown G (s.executeRepair G now elevated) := by
  unfold Screen.executeRepair
  split
  · exact h.publishLocalized now .repair .warning _ "repair.locked.status"
  · exact (h.requireElevation now .repair elevated).proceed fun _ hallowed =>
      hallowed.runOperation now .repair _ "status.repairing"

/-- A start that takes the token leaves the line as it is. -/
theorem Shown.startMigration (h : Shown G s) (now : Int) (elevated : Except String Bool) :
    Shown G (s.startMigration G now elevated) := by
  unfold Screen.startMigration
  split
  · exact h.publishLocalized now .migration .warning _ MIGRATION_SOURCE_LOADED_ERROR
  · split
    · have hidle : Shown G
          { s with desk := { s.desk with active := .idle, operationBusy := false } } :=
        h.setDesk ⟨rfl, rfl, rfl, rfl, rfl, rfl, rfl, rfl⟩ rfl
      exact hidle.publishLocalized now .migration .warning _ "error.migration_scope"
    · split
      · refine Shown.publishLocalized (h.showPreflight ?_ ?_) now .migration .warning _ _
        · exact ⟨rfl, rfl, rfl, rfl, rfl, rfl, rfl, rfl⟩
        · exact fun e => by cases e
      · refine Shown.proceed (Shown.requireElevation (h.update ?_ ?_) now .migration elevated)
          fun _ hallowed => hallowed.runOperation now .migration _ "status.migrating"
        · exact ⟨rfl, rfl, rfl, rfl, rfl, rfl, rfl, rfl⟩
        · exact fun e => by cases e

theorem Shown.handleCloseRequested (h : Shown G s) (now : Int) :
    Shown G (s.handleCloseRequested G now) := by
  unfold Screen.handleCloseRequested
  split
  · exact h
  · exact h.publishLocalized now _ .warning "WinProfile" "status.close_blocked_repair"
  · exact h.publishLocalized now .migration .running _ "status.cancelling"

theorem Shown.clearAuditLogs (h : Shown G s) (now : Int) (result : Except String Unit) :
    Shown G (s.clearAuditLogs G now result) := by
  cases result with
  | ok _ =>
    exact (h.applyAuditResult now (.ok [])).publishLocalized now .audit .success "Display"
      "status.audit_cleared"
  | error error => exact h.publishFailure now .audit "Display" error

theorem Shown.scanFinished (h : Shown G s) (now : Int) (result : Except String DiagnosticReport)
    (audit : Except String (List AuditEntry)) : Shown G (s.scanFinished G now result audit) := by
  refine Shown.applyAuditResult ?_ now audit
  cases result with
  | ok report => exact (h.atRestAgain.cacheAndApplyReport report).publish _
  | error error => exact h.atRestAgain.publishFailure now .scan "System" error

theorem Shown.repairFinished (h : Shown G s) (now : Int) (target : String)
    (result : Except String (Option (Except String DiagnosticReport)))
    (audit : Except String (List AuditEntry)) :
    Shown G (s.repairFinished G now target result audit) := by
  refine Shown.applyAuditResult ?_ now audit
  rcases result with error | _ | error | report
  · exact h.atRestAgain.publishFailure now .repair target error
  · exact h.atRestAgain.publishLocalized now .repair .success target "status.completed"
  · exact h.atRestAgain.publish _
  · exact (h.atRestAgain.cacheAndApplyReport report).publishLocalized now .repair .success
      target "repair.success.message"

theorem Shown.migrationFinished (h : Shown G s) (now : Int) (target : String)
    (audit : Except String (List AuditEntry)) (result : MigrationEnd) :
    Shown G (s.migrationFinished G now target audit result) := by
  refine Shown.applyAuditResult ?_ now audit
  cases result with
  | copied files bytes manifestSha256 =>
    exact (h.atRestAgain.cacheAndApplyMigrationTerminal _).publish _
  | failed error =>
    cases error <;> exact (h.atRestAgain.cacheAndApplyMigrationTerminal _).publish _

theorem Shown.launchFinished (h : Shown G s) (now : Int) (result : Except String UInt32)
    (audit : Except String (List AuditEntry)) : Shown G (s.launchFinished G now result audit) := by
  refine Shown.applyAuditResult ?_ now audit
  cases result with
  | ok pid => exact h.atRestAgain.publish _
  | error error => exact h.atRestAgain.publishFailure now .trustedInstaller TI_AUDIT_TARGET error

theorem Shown.exportFinished (h : Shown G s) (now : Int) (result : Except String String) :
    Shown G (s.exportFinished G now result) := by
  cases result with
  | ok path => exact h.atRestAgain.publish _
  | error error => exact h.atRestAgain.publishFailure now .exportAudit "Exports" error

theorem Shown.showProgress (h : Shown G s) (progress : Progress.MigrationProgress) :
    Shown G (s.showProgress G progress) :=
  h.update (.refl _) fun e => by cases e

end

/-! ## 4. The language -/

/-- The profile of the selected row. -/
def Screen.selectedProfile (s : Screen) : Option UserProfile :=
  if s.desk.selectedIdx < 0 then none else s.report[s.desk.selectedIdx.toNat]?

/-- The window with every text but the line of the migration in a language. -/
def Screen.inLanguage (G : Language) (s : Screen) (locale : String) : Screen :=
  let c := G.catalogue locale
  { s with
    locale
    profileRows := s.report.map (profileTexts c)
    selected := (s.selectedProfile.map fun profile =>
      selectedTexts (userProfileToSlint profile) (profileTexts c profile)).getD {}
    auditRows := (s.lastAuditEntries.getD []).map (auditEntryToSlint c G.formatTime)
    statusMessage := s.lastOperatorStatus.renderSummary c
    statusDetails := s.lastOperatorStatus.renderDetails c G.formatTime }

section

variable {d : Desk} {report : List UserProfile} {entry : ProfileEntry} {profile : UserProfile}

theorem keptProfile_nothing (hidx : d.selectedIdx = -1) (profiles : List ProfileEntry) :
    d.keptProfile profiles = none := by
  rw [Desk.keptProfile, hidx]
  rfl

theorem keptProfile_row {i : Nat} {profiles : List ProfileEntry} (hidx : d.selectedIdx = i)
    (hrow : profiles[i]? = some entry) (hselects : Selects d entry) :
    d.keptProfile profiles = some entry := by
  have hnot : ¬ d.selectedIdx < 0 := by omega
  have hat : d.selectedIdx.toNat = i := by omega
  rw [Desk.keptProfile, if_neg hnot, hat, hrow, hselects.sid, hselects.path]
  simp [Option.filter]

/-- A row that is selected already is selected again. -/
theorem applySelectedProfile_self (hselects : Selects d entry) :
    d.applySelectedProfile entry = d := by
  rw [Desk.applySelectedProfile, ← hselects.sid, ← hselects.path, ← hselects.username,
    ← hselects.blocked, ← hselects.loaded]

/-- The report that is shown changes nothing when it is rendered again. -/
theorem renderReport_again (htable : d.profiles = report.map userProfileToSlint)
    (hkept : ∀ entry, d.keptProfile (report.map userProfileToSlint) = some entry →
      Selects d entry) : d.renderReport report false = d := by
  unfold Desk.renderReport
  rw [← htable] at hkept ⊢
  simp only [Bool.false_eq_true, if_false]
  cases hentry : d.keptProfile d.profiles with
  | none => rfl
  | some entry => exact applySelectedProfile_self (hkept entry hentry)

theorem Selected.kept {c : Catalogue} {shown : SelectedTexts} (h : Selected c d shown)
    (hreport : d.lastReport.getD [] = report) :
    ∀ entry, d.keptProfile (report.map userProfileToSlint) = some entry → Selects d entry := by
  intro entry hentry
  cases h with
  | nothing hidx hshown =>
    rw [keptProfile_nothing hidx] at hentry
    cases hentry
  | row i profile hrow hidx hselects hshown =>
    have hat : (report.map userProfileToSlint)[i]? = some (userProfileToSlint profile) := by
      rw [List.getElem?_map, ← hreport, hrow, Option.map_some]
    rw [keptProfile_row hidx hat hselects, Option.some.injEq] at hentry
    exact hentry ▸ hselects

end

section

variable {G : Language} {s : Screen}

theorem selectedProfile_nothing (hidx : s.desk.selectedIdx = -1) : s.selectedProfile = none := by
  rw [Screen.selectedProfile, hidx]
  rfl

theorem selectedProfile_row {i : Nat} {profile : UserProfile} (hidx : s.desk.selectedIdx = i)
    (hrow : s.report[i]? = some profile) : s.selectedProfile = some profile := by
  have hnot : ¬ s.desk.selectedIdx < 0 := by omega
  have hat : s.desk.selectedIdx.toNat = i := by omega
  rw [Screen.selectedProfile, if_neg hnot, hat, hrow]

/-- What is shown of the selection is of the selected profile. -/
theorem Selected.texts (h : Selected (s.catalogue G) s.desk s.selected) :
    s.selected = (s.selectedProfile.map fun profile =>
      selectedTexts (userProfileToSlint profile) (profileTexts (s.catalogue G) profile)).getD {} := by
  cases h with
  | nothing hidx hshown =>
    rw [selectedProfile_nothing hidx]
    exact hshown
  | row i profile hrow hidx hselects hshown =>
    rw [selectedProfile_row hidx hrow]
    exact hshown

/-- A window that shows what is cached is in its language. -/
theorem Shown.inLanguage_self (h : Shown G s) : s.inLanguage G s.locale = s := by
  have hselected := h.selected.texts
  have hrows := h.rows
  have haudit := h.audit
  have hmessage := h.message
  have hdetails := h.details
  unfold Screen.inLanguage
  unfold Screen.catalogue at hrows haudit hmessage hdetails hselected
  simp only [← hrows, ← haudit, ← hmessage, ← hdetails, ← hselected]

/-- The line that is right is right when it is set again. -/
theorem Shown.renderMigrationAgain_self (h : Shown G s) (hloose : s.loose = false) :
    s.renderMigrationAgain G = s := by
  have hline := h.migration hloose
  rw [Screen.migrationText] at hline
  rw [Screen.renderMigrationAgain]
  cases hcached : s.cachedLine G with
  | none => rfl
  | some message =>
    rw [hcached, Option.getD_some] at hline
    simp only [Screen.setStatus, ← hline, ← hloose]

/-- The report in another language. -/
theorem Shown.renderReportAgain (h : Shown G s) (locale : String) {report : DiagnosticReport}
    (hreport : s.lastReport = some report) :
    Screen.renderReportAgain G { s with locale } report = { s with
      locale
      profileRows := (s.inLanguage G locale).profileRows
      selected := (s.inLanguage G locale).selected } := by
  have hcached : s.report = report.profiles := by
    rw [Screen.report, h.report, hreport, Option.map_some, Option.getD_some]
  have htable : s.desk.profiles = report.profiles.map userProfileToSlint := hcached ▸ h.table
  have hdesk : s.desk.renderReport report.profiles false = s.desk :=
    renderReport_again htable (h.selected.kept hcached)
  have hcounts : reportCounts report = s.counts := by
    rw [h.counts, hreport, Option.map_some, Option.getD_some]
  have hselected := h.selected
  unfold Screen.renderReportAgain Screen.inLanguage
  simp only [hdesk, hcached, hcounts]
  cases hselected with
  | nothing hidx hshown =>
    rw [keptProfile_nothing hidx, selectedProfile_nothing hidx, hshown]
    rfl
  | row i profile hrow hidx hselects hshown =>
    have hrow' : report.profiles[i]? = some profile := hcached ▸ hrow
    have hat : (report.profiles.map userProfileToSlint)[i]? = some (userProfileToSlint profile) := by
      rw [List.getElem?_map, hrow', Option.map_some]
    have hkept := keptProfile_row hidx hat hselects
    have hprofile : s.selectedProfile = some profile := selectedProfile_row hidx hrow
    have hnat : s.desk.selectedIdx.toNat = i := by omega
    simp only [hkept, hprofile, hnat, List.getElem?_map, hrow', Option.map_some]
    rfl

/-- Setting the line and setting the status are apart. -/
theorem applyOperatorStatus_renderMigrationAgain (t : Screen) (status : OperatorStatus) :
    (t.renderMigrationAgain G).applyOperatorStatus G status =
      (t.applyOperatorStatus G status).renderMigrationAgain G := by
  have hline : (t.applyOperatorStatus G status).cachedLine G = t.cachedLine G := rfl
  rw [Screen.renderMigrationAgain, Screen.renderMigrationAgain, hline]
  cases t.cachedLine G with
  | none => rfl
  | some line => rfl

/-- The report that is cached, in another language. -/
theorem Shown.renderCachedReport (h : Shown G s) (locale : String) :
    Screen.renderCachedReport G { s with locale } = { s with
      locale
      profileRows := (s.inLanguage G locale).profileRows
      selected := (s.inLanguage G locale).selected } := by
  unfold Screen.renderCachedReport
  cases hreport : s.lastReport with
  | some report =>
    have hagain := h.renderReportAgain locale hreport
    rw [hreport] at hagain
    exact hagain
  | none =>
    have hdesk : s.desk.lastReport = none := by rw [h.report, hreport, Option.map_none]
    have hnone : s.report = [] := by rw [Screen.report, hdesk, Option.getD_none]
    have hrows := h.rows
    have hselected := h.selected
    rw [hnone, List.map_nil] at hrows
    cases hselected with
    | nothing hidx hshown =>
      simp only [Screen.inLanguage, selectedProfile_nothing hidx, hnone, List.map_nil,
        ← hrows, Option.map_none, Option.getD_none, ← hshown]
    | row i profile hrow hidx hselects hshown =>
      rw [hdesk] at hrow
      cases hrow

/-- The entries that are cached, in the language that is set. -/
theorem renderCachedAudit_eq {t : Screen} (hempty : t.lastAuditEntries = none → t.auditRows = []) :
    t.renderCachedAudit G = { t with
      auditRows := (t.lastAuditEntries.getD []).map
        (auditEntryToSlint (t.catalogue G) G.formatTime) } := by
  obtain ⟨desk, locale, report, entries, terminal, status, rows, counts, selected, auditRows,
    message, details, view, loose⟩ := t
  cases entries with
  | some entries => rfl
  | none =>
    obtain rfl : auditRows = [] := hempty rfl
    rfl

/-- **What `change_locale` does** to a window that shows what is cached. -/
theorem changeLocale_eq (h : Shown G s) (locale : String) (hrest : s.desk.atRest = true)
    (hlocale : supported locale = true) :
    s.changeLocale G locale = (s.inLanguage G locale).renderMigrationAgain G := by
  have hgo : ¬ (!s.desk.atRest || !supported locale) = true := by rw [hrest, hlocale]; simp
  have hempty : s.lastAuditEntries = none → s.auditRows = [] := by
    intro hnone
    rw [h.audit, hnone, Option.getD_none, List.map_nil]
  rw [Screen.changeLocale, if_neg hgo]
  simp only [h.renderCachedReport locale]
  rw [renderCachedAudit_eq]
  · rw [applyOperatorStatus_renderMigrationAgain]
    simp only [Screen.applyOperatorStatus, Screen.inLanguage, Screen.catalogue]
  · exact hempty

theorem Selected.inLanguage (h : Shown G s) (locale : String) :
    Selected (G.catalogue locale) s.desk (s.inLanguage G locale).selected := by
  have hbefore := h.selected
  unfold Screen.inLanguage
  cases hbefore with
  | nothing hidx hshown =>
    rw [selectedProfile_nothing hidx]
    exact .nothing hidx rfl
  | row i profile hrow hidx hselects hshown =>
    rw [selectedProfile_row hidx hrow]
    exact .row i profile hrow hidx hselects rfl

/-- The window in another language shows what is cached, apart from the line. -/
theorem Shown.inLanguage (h : Shown G s) {locale : String} (hlocale : supported locale = true) :
    Shown G { s.inLanguage G locale with loose := true } where
  language := hlocale
  message := by simp only [Screen.inLanguage, Screen.catalogue]
  details := by simp only [Screen.inLanguage, Screen.catalogue]
  report := h.report
  table := h.table
  counts := h.counts
  rows := by
    simp only [Screen.inLanguage, Screen.catalogue]
    rfl
  selected := Selected.inLanguage h locale
  audit := by simp only [Screen.inLanguage, Screen.catalogue]
  migration hloose := by cases hloose

/-- Whether a line is cached does not depend on the language. -/
theorem cachedLine_none {t : Screen} (hpresentation : t.desk.presentation = s.desk.presentation)
    (hterminal : t.lastMigrationTerminal = s.lastMigrationTerminal)
    (hnone : t.cachedLine G = none) : s.cachedLine G = none := by
  rw [Screen.cachedLine, Option.or_eq_none_iff, Option.map_eq_none_iff] at hnone ⊢
  obtain ⟨hline, hend⟩ := hnone
  rw [hpresentation] at hline
  refine ⟨?_, hterminal.symm.trans hend⟩
  cases hp : s.desk.presentation with
  | none => rfl
  | ready target => rw [hp] at hline; cases hline
  | changed => rw [hp] at hline; cases hline
  | validationError summaryKey => rw [hp] at hline; cases hline
  | rawFailure details => rw [hp] at hline; cases hline

/-- The line that is cached is set. -/
theorem Shown.setStatus (h : Shown G { s with loose := true }) {message : String}
    (hcached : s.cachedLine G = some message) : Shown G (s.setStatus message) := by
  refine h.update (.refl _) fun _ => ?_
  have hline : s.migrationText G = message := by
    rw [Screen.migrationText, hcached, Option.getD_some]
  exact hline.symm

/-- The line is right as it is. -/
theorem Shown.keepLine (h : Shown G { s with loose := true })
    (hline : s.loose = false → s.view.status = s.migrationText G) : Shown G s :=
  h.update (.refl _) hline

theorem Shown.inLanguage_line (h : Shown G s) {locale : String} (hlocale : supported locale = true) :
    Shown G ((s.inLanguage G locale).renderMigrationAgain G) := by
  have hshown := h.inLanguage hlocale
  have hloose : (s.inLanguage G locale).loose = s.loose := rfl
  have hview : (s.inLanguage G locale).view = s.view := rfl
  have hnone : (s.inLanguage G locale).cachedLine G = none → s.cachedLine G = none :=
    cachedLine_none rfl rfl
  generalize s.inLanguage G locale = t at hshown hloose hview hnone ⊢
  rw [Screen.renderMigrationAgain]
  cases hcached : t.cachedLine G with
  | some message => exact hshown.setStatus hcached
  | none =>
    refine hshown.keepLine fun hkept => ?_
    have hbefore := h.migration (hloose.symm.trans hkept)
    rw [Screen.migrationText, hnone hcached] at hbefore
    rw [hview, hbefore, Screen.migrationText, hcached]

/-! ## 5. There and back -/

/-- What a change of the language leaves of the line, before it is set again. -/
theorem inLanguage_renderMigrationAgain (t : Screen) (locale : String) :
    (t.renderMigrationAgain G).inLanguage G locale = { t.inLanguage G locale with
      view := (t.renderMigrationAgain G).view
      loose := (t.renderMigrationAgain G).loose } := by
  rw [Screen.renderMigrationAgain]
  cases t.cachedLine G with
  | none => rfl
  | some message =>
    simp only [Screen.setStatus, Screen.inLanguage, Screen.selectedProfile, Screen.report]
    rfl

theorem inLanguage_inLanguage (t : Screen) (first second : String) :
    (t.inLanguage G first).inLanguage G second = t.inLanguage G second := by
  simp only [Screen.inLanguage, Screen.selectedProfile, Screen.report]
  rfl

/-- The line is set over what another language left there. -/
theorem renderMigrationAgain_over {t : Screen} (hview : t.view = s.view) (hloose : t.loose = s.loose)
    (hpresentation : t.desk.presentation = s.desk.presentation)
    (hterminal : t.lastMigrationTerminal = s.lastMigrationTerminal) :
    Screen.renderMigrationAgain G { s with
      view := (t.renderMigrationAgain G).view
      loose := (t.renderMigrationAgain G).loose } = s.renderMigrationAgain G := by
  have hline : Screen.cachedLine G { s with
      view := (t.renderMigrationAgain G).view
      loose := (t.renderMigrationAgain G).loose } = s.cachedLine G := rfl
  rw [Screen.renderMigrationAgain, hline]
  unfold Screen.renderMigrationAgain
  cases ht : t.cachedLine G with
  | none =>
    rw [cachedLine_none hpresentation hterminal ht]
    simp only [hview, hloose]
  | some message =>
    cases hs : s.cachedLine G with
    | none =>
      rw [cachedLine_none hpresentation.symm hterminal.symm hs] at ht
      cases ht
    | some mine => simp only [Screen.setStatus, hview]

/-- What a change of the language is, from a window that shows what is cached. -/
structure LocaleChange (G : Language) (s : Screen) (locale : String) : Prop where
  /-- Nothing but texts changes: the plan, the token, the selection and all that is cached. -/
  desk : (s.changeLocale G locale).desk = s.desk
  entries : (s.changeLocale G locale).lastAuditEntries = s.lastAuditEntries
  terminal : (s.changeLocale G locale).lastMigrationTerminal = s.lastMigrationTerminal
  status : (s.changeLocale G locale).lastOperatorStatus = s.lastOperatorStatus
  language : (s.changeLocale G locale).locale =
    if s.desk.atRest && supported locale then locale else s.locale
  /-- Every text is in the new language, apart from a line that is no longer cached. -/
  shown : Shown G (s.changeLocale G locale)
  /-- The way back leads to the same window, with the line that is cached. -/
  back : s.desk.atRest = true →
    (s.changeLocale G locale).changeLocale G s.locale = s.renderMigrationAgain G
  /-- So to the very same, unless the line was that of a progress or of a token that is gone. -/
  same : s.desk.atRest = true → s.loose = false →
    (s.changeLocale G locale).changeLocale G s.locale = s

theorem changeLocale_stopped {locale : String} (hstop : ¬(s.desk.atRest && supported locale) = true) :
    s.changeLocale G locale = s := by
  have hany : (!s.desk.atRest || !supported locale) = true := by
    rw [← Bool.not_and, Bool.not_eq_true']
    exact Bool.eq_false_of_not_eq_true hstop
  rw [Screen.changeLocale, if_pos hany]

theorem Shown.changeLocale (h : Shown G s) (locale : String) :
    Shown G (s.changeLocale G locale) := by
  by_cases hgo : (s.desk.atRest && supported locale) = true
  · obtain ⟨hrest, hlocale⟩ := Bool.and_eq_true_iff.mp hgo
    rw [changeLocale_eq h locale hrest hlocale]
    exact h.inLanguage_line hlocale
  · rw [changeLocale_stopped hgo]
    exact h

/-- What setting the line leaves alone. -/
theorem renderMigrationAgain_keeps (t : Screen) :
    (t.renderMigrationAgain G).desk = t.desk ∧
      (t.renderMigrationAgain G).lastAuditEntries = t.lastAuditEntries ∧
      (t.renderMigrationAgain G).lastMigrationTerminal = t.lastMigrationTerminal ∧
      (t.renderMigrationAgain G).lastOperatorStatus = t.lastOperatorStatus ∧
      (t.renderMigrationAgain G).locale = t.locale := by
  rw [Screen.renderMigrationAgain]
  cases t.cachedLine G with
  | none => exact ⟨rfl, rfl, rfl, rfl, rfl⟩
  | some message => exact ⟨rfl, rfl, rfl, rfl, rfl⟩

theorem Shown.back (h : Shown G s) (locale : String) (hrest : s.desk.atRest = true) :
    (s.changeLocale G locale).changeLocale G s.locale = s.renderMigrationAgain G := by
  by_cases hlocale : supported locale = true
  · have hchanged := h.changeLocale locale
    have hdesk : (s.changeLocale G locale).desk.atRest = true := by
      rw [changeLocale_eq h locale hrest hlocale,
        (renderMigrationAgain_keeps (s.inLanguage G locale)).1]
      exact hrest
    rw [changeLocale_eq hchanged s.locale hdesk h.language, changeLocale_eq h locale hrest hlocale,
      inLanguage_renderMigrationAgain, inLanguage_inLanguage, h.inLanguage_self]
    exact renderMigrationAgain_over rfl rfl rfl rfl
  · have hstop : ¬(s.desk.atRest && supported locale) = true := by
      rw [hrest, Bool.true_and]
      exact hlocale
    rw [changeLocale_stopped hstop, changeLocale_eq h s.locale hrest h.language, h.inLanguage_self]

theorem Shown.localeChange (h : Shown G s) (locale : String) : LocaleChange G s locale := by
  have hshown := h.changeLocale locale
  have hback := h.back locale
  have hsame : s.desk.atRest = true → s.loose = false →
      (s.changeLocale G locale).changeLocale G s.locale = s := by
    intro hrest hloose
    rw [hback hrest, h.renderMigrationAgain_self hloose]
  by_cases hgo : (s.desk.atRest && supported locale) = true
  · obtain ⟨hrest, hlocale⟩ := Bool.and_eq_true_iff.mp hgo
    have heq := changeLocale_eq h locale hrest hlocale
    obtain ⟨hdesk, hentries, hterminal, hstatus, hlanguage⟩ :=
      renderMigrationAgain_keeps (G := G) (s.inLanguage G locale)
    rw [← heq] at hdesk hentries hterminal hstatus hlanguage
    refine ⟨hdesk, hentries, hterminal, hstatus, ?_, hshown, hback, hsame⟩
    rw [if_pos hgo]
    exact hlanguage
  · have heq : s.changeLocale G locale = s := changeLocale_stopped hgo
    refine ⟨by rw [heq], by rw [heq], by rw [heq], by rw [heq], ?_, hshown, hback, hsame⟩
    rw [if_neg hgo, heq]

/-! ## 6. Runs -/

/-- **Every handler** keeps the window true to what is cached. -/
theorem shown_handle (h : Shown G s) (now : Int) (event : ScreenEvent) :
    Shown G (s.handle G now event) := by
  cases event with
  | scanProfiles => exact h.runOperation now .scan "System" "status.scanning"
  | scanFinished result audit => exact h.scanFinished now result audit
  | selectProfile index => exact h.selectProfile index
  | editMigration target roaming docs announced => exact h.editMigration target roaming docs announced
  | chooseRepair fixBak resetState =>
    exact h.setDesk ⟨rfl, rfl, rfl, rfl, rfl, rfl, rfl, rfl⟩ rfl
  | invalidateMigrationPreflight => exact h.invalidate
  | applyMigrationParent parent => exact h.applyMigrationParent parent
  | pickerFailure details => exact h.reportPickerFailure now details
  | prevalidateMigration answer => exact h.prevalidateMigration now answer
  | requestRepairConfirmation => exact h.requestRepairConfirmation now
  | dialog visible => exact h.setDesk ⟨rfl, rfl, rfl, rfl, rfl, rfl, rfl, rfl⟩ rfl
  | executeRepair elevated => exact h.executeRepair now elevated
  | repairFinished target result audit => exact h.repairFinished now target result audit
  | startMigration elevated => exact h.startMigration now elevated
  | progress progress => exact h.showProgress progress
  | cancelMigration cancellable =>
    cases cancellable with
    | true => exact h.publishLocalized now .migration .running _ "status.cancelling"
    | false => exact h
  | migrationFinished target audit result => exact h.migrationFinished now target audit result
  | launchTiConsole elevated =>
    exact (h.requireElevation now .trustedInstaller elevated).proceed fun _ hallowed =>
      hallowed.runOperation now .trustedInstaller TI_AUDIT_TARGET "status.launching_ti"
  | launchFinished result audit => exact h.launchFinished now result audit
  | exportAudit => exact h.runOperation now .exportAudit "Exports" "status.exporting"
  | exportFinished result => exact h.exportFinished now result
  | closeRequested => exact h.handleCloseRequested now
  | clearAuditLogs result => exact h.clearAuditLogs now result
  | refreshAuditLogs audit => exact h.applyAuditResult now audit
  | changeLocale locale => exact h.changeLocale locale
  | workerFinished => exact h.setDesk ⟨rfl, rfl, rfl, rfl, rfl, rfl, rfl, rfl⟩ rfl

theorem shown_handleAll (h : Shown G s) (events : List (Int × ScreenEvent)) :
    Shown G (s.handleAll G events) := by
  induction events generalizing s with
  | nil => exact h
  | cons event events ih => exact ih (shown_handle h event.1 event.2)

end

section

variable (G : Language) (detected : Except Locale.LocaleError (List String))
  (chosen : List String) (created now : Int) (audit : Except String (List AuditEntry))
  (events : List (Int × ScreenEvent))

theorem supported_foldl {locale : String} (h : supported locale = true) :
    supported (chosen.foldl setLocale locale) = true := by
  induction chosen generalizing locale with
  | nil => exact h
  | cons requested chosen ih =>
    refine ih ?_
    rw [setLocale]
    split
    · assumption
    · exact h

/-- The window that is bound, with the first status as it would be told. -/
theorem bound_shown {locale : String} (hlocale : supported locale = true) (ready : OperatorStatus) :
    Shown G {
      desk := {}
      locale
      lastOperatorStatus := ready
      statusMessage := ready.renderSummary (G.catalogue locale)
      statusDetails := ready.renderDetails (G.catalogue locale) G.formatTime } where
  language := hlocale
  message := by simp only [Screen.catalogue]
  details := by simp only [Screen.catalogue]
  report := rfl
  table := rfl
  counts := rfl
  rows := rfl
  selected := .nothing rfl rfl
  audit := rfl
  migration _ := rfl

theorem opened_shown : Shown G (Screen.opened G detected chosen created now audit) := by
  have hlocale : supported (chosen.foldl setLocale (Languages.detectInitialLocaleWith detected)) =
      true := supported_foldl chosen (Languages.detectInitialLocale_supported detected)
  rw [Screen.opened]
  generalize chosen.foldl setLocale (Languages.detectInitialLocaleWith detected) = locale at hlocale
  have hbound := bound_shown G hlocale
    (.localized created .application .ready "WinProfile" "status.ready" [])
  cases audit with
  | error error =>
    exact (Shown.publish_over hbound (.failure now .audit "Display" error
      (some "status.recovery.retry"))).runOperation now .scan "System" "status.scanning"
  | ok entries =>
    -- the scan begins, and its status is told over the one of the start
    have hbegun := (hbound.renderAuditEntries entries).beginOperation now .scan
    exact Shown.publish_over hbegun (.localized now .scan .running "System" "status.scanning" [])

/-- **The window says what is cached, in one language.** After every sequence of events from the
start of the application: the status, the counts and rows of the report, the rows of the audit, the
selection and the line of the migration are the renderings, in the language that is set, of the last
status, the last report, the last entries of the audit and the last preflight or end of a
migration; the line not after a progress, or after a start that took the token, until it is set
again. -/
theorem screen_shown : Shown G (session G detected chosen created now audit events) :=
  shown_handleAll (opened_shown G detected chosen created now audit) events

/-- **A change of the language is one of texts only, and can be taken back**, from every window that
a session reaches. -/
theorem locale_round_trip (locale : String) :
    LocaleChange G (session G detected chosen created now audit events) locale :=
  (shown_handleAll (opened_shown G detected chosen created now audit) events).localeChange locale

end

end WinProfile.Presentation
