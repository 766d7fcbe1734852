/-
  File:      WinProfile/App/Desk.lean
  Subject:   app-ui/src/controller.rs: the events of the user interface that touch the plan of a
             migration, its preflight token, and the flag that shows the token as valid.

  * `Desk` -- the properties of the window that these handlers read or write, with the token; only
    the UI thread touches them, so a handler is one step.
  * `Desk.startMigration` -- the checks of `start_migration`, up to `begin_operation`.
  * `Mark` -- what the history of the token is made of: `authorised` says which plan it is for.
  * `starts_are_prevalidated` -- every worker that is started has the plan that was validated last,
    whatever the events before it were.
-/
import WinProfile.Migration.Roots
import WinProfile.Profiles.Scanner

namespace WinProfile

/-! ## 1. Operations -/

/-- `OperationKind`. -/
inductive OperationKind where
  | idle | scan | repair | migration | trustedInstaller | exportAudit | unknown
  deriving DecidableEq, Repr

/-- `ClosePolicy`. -/
inductive ClosePolicy where
  | allow | block | cancelMigration
  deriving DecidableEq, Repr

/-- `close_policy`. -/
def OperationKind.closePolicy : OperationKind → ClosePolicy
  | .scan | .repair | .trustedInstaller | .exportAudit | .unknown => .block
  | .migration => .cancelMigration
  | .idle => .allow

/-! ## 2. The token -/

/-- `MigrationPreflight`. -/
structure MigrationPreflight where
  sourcePath : Wide
  targetPath : Wide
  deriving DecidableEq, Repr

/-- `MigrationPreflightToken`. -/
structure MigrationPreflightToken where
  sourceSid : String
  sourcePath : String
  targetPath : String
  includeRoamingAppdata : Bool
  includePersonalFolders : Bool
  validated : MigrationPreflight
  deriving DecidableEq, Repr

/-- `MigrationPreflightToken::new`. -/
def MigrationPreflightToken.new (plan : MigrationPlan) (validated : MigrationPreflight) :
    MigrationPreflightToken where
  sourceSid := plan.sourceSid
  sourcePath := plan.sourcePath
  targetPath := plan.targetPath
  includeRoamingAppdata := plan.includeRoamingAppdata
  includePersonalFolders := plan.includePersonalFolders
  validated

/-- The plan that a token is for. -/
def MigrationPreflightToken.plan (token : MigrationPreflightToken) : MigrationPlan where
  sourceSid := token.sourceSid
  sourcePath := token.sourcePath
  targetPath := token.targetPath
  includeRoamingAppdata := token.includeRoamingAppdata
  includePersonalFolders := token.includePersonalFolders

/-- `==` of two `Path`s: by components. -/
def samePath (first second : Wide) : Bool := WinPath.components first == WinPath.components second

/-- `MigrationPreflightToken::matches`. -/
def MigrationPreflightToken.matchesPlan (token : MigrationPreflightToken) (plan : MigrationPlan) :
    Bool :=
  token.sourceSid == plan.sourceSid && token.sourcePath == plan.sourcePath &&
    token.targetPath == plan.targetPath &&
    token.includeRoamingAppdata == plan.includeRoamingAppdata &&
    token.includePersonalFolders == plan.includePersonalFolders &&
    samePath token.validated.sourcePath (encodeWide plan.sourcePath) &&
    samePath token.validated.targetPath (encodeWide plan.targetPath)

/-- A token matches no plan but its own. -/
theorem MigrationPreflightToken.plan_of_matches {token : MigrationPreflightToken}
    {plan : MigrationPlan} (h : token.matchesPlan plan = true) : token.plan = plan := by
  simp only [matchesPlan, Bool.and_eq_true, beq_iff_eq] at h
  obtain ⟨⟨⟨⟨⟨⟨hsid, hsource⟩, htarget⟩, hroaming⟩, hdocs⟩, _⟩, _⟩ := h
  cases plan
  simp only [MigrationPreflightToken.plan, hsid, hsource, htarget, hroaming, hdocs]

/-- `MigrationPreflightPresentation`. -/
inductive MigrationPreflightPresentation where
  | none
  | ready (target : String)
  | changed
  | validationError (summaryKey : String)
  | rawFailure (details : String)
  deriving DecidableEq, Repr

def MIGRATION_SOURCE_LOADED_ERROR : String := "error.migration_source_loaded"

/-- `migration_validation_summary_key`. -/
def migrationValidationSummaryKey : MigrationError → String
  | .destinationExists _ => "error.migration_target_exists"
  | .sourceLoaded _ => MIGRATION_SOURCE_LOADED_ERROR
  | _ => "error.migration_validation"

/-! ## 3. The name of a target directory -/

/-- A character that no name may have. -/
def invalidLeafChar (c : Char) : Bool := c.toNat ≤ 0x1F || forbiddenChars.contains c.toNat

/-- `valid_target_leaf`. -/
def validTargetLeaf (candidate : Wide) : Bool :=
  let value := toStringLossy candidate
  if value.toList = [] ∨ value.toList.getLast? = some '.' ∨ value.toList.getLast? = some ' ' ∨
      value.toList.any invalidLeafChar then false
  else !isReserved (toAsciiUppercase (String.ofList ((splitAtChar '.' value.toList).headD [])))

/-- The loop of `default_target_leaf`: a run of invalid characters becomes one hyphen. -/
def sanitizeLeaf : Bool → List Char → List Char
  | _, [] => []
  | previousReplacement, c :: cs =>
    if invalidLeafChar c then
      (if previousReplacement then [] else ['-']) ++ sanitizeLeaf true cs
    else c :: sanitizeLeaf false cs

/-- `str::trim_matches`. -/
def trimMatches (p : Char → Bool) (s : String) : String :=
  trimEndBy p (String.ofList (s.toList.dropWhile p))

/-- `default_target_leaf`. -/
def defaultTargetLeaf (username : String) : Wide :=
  let sanitized := trimMatches (fun c => c == '.' || c == ' ' || c == '-')
    (String.ofList (sanitizeLeaf false (trim username).toList))
  encodeWide ((if sanitized = "" then "profile" else sanitized) ++ "-migrated")

/-! ## 4. The window -/

/-- What the window shows of a profile, as far as the handlers below read it. -/
structure ProfileEntry where
  sid : String
  profilePath : String
  username : String
  loaded : Bool
  suggestFixBak : Bool
  suggestResetState : Bool
  repairBlockedByLockInspection : Bool
  deriving DecidableEq, Repr

/-- `locking_processes`. -/
def lockingProcesses (p : UserProfile) : List String :=
  (p.anomalies.map fun a => match a with
    | .lockedNtUserDat processes => processes
    | _ => []).flatten

/-- `lock_inspection_failure`. -/
def lockInspectionFailure (p : UserProfile) : Option String :=
  p.anomalies.findSome? fun a => match a with
    | .lockInspectionFailure details => some details
    | _ => none

/-- `user_profile_to_slint`. -/
def userProfileToSlint (p : UserProfile) : ProfileEntry where
  sid := p.sid
  profilePath := p.profilePath
  username := p.username
  loaded := p.loaded
  suggestFixBak := p.anomalies.any fun a => a == .bakSuffix
  suggestResetState := p.anomalies.any fun a => match a with
    | .dirtyStateMask _ => true
    | _ => false
  repairBlockedByLockInspection :=
    !(lockingProcesses p).isEmpty || (lockInspectionFailure p).getD "" != ""

/-- The window and the cells of the controller that only the UI thread touches. -/
structure Desk where
  profiles : List ProfileEntry := []
  selectedIdx : Int := -1
  selectedSid : String := ""
  selectedPath : String := ""
  selectedUsername : String := ""
  selectedLoaded : Bool := false
  selectedRepairBlocked : Bool := false
  repairFixBak : Bool := false
  repairResetState : Bool := false
  migrationTargetPath : String := ""
  migrationIncludeRoaming : Bool := false
  migrationIncludeDocs : Bool := false
  migrationPreflightValid : Bool := false
  operationBusy : Bool := false
  startupVisible : Bool := false
  dialogVisible : Bool := false
  /-- `operation_state.active_operation()`, which the workers change too. -/
  active : OperationKind := .idle
  preflight : Option MigrationPreflightToken := none
  presentation : MigrationPreflightPresentation := .none
  lastReport : Option (List UserProfile) := none

namespace Desk

/-- `language-switch-enabled` of the window. -/
def languageSwitchEnabled (d : Desk) : Bool :=
  d.startupVisible || (!d.operationBusy && !(d.startupVisible || d.dialogVisible))

/-- The guard of the handlers that do nothing beside an operation. -/
def atRest (d : Desk) : Bool :=
  d.active == .idle && !d.operationBusy && d.languageSwitchEnabled

/-- `migration_plan_from_ui`. -/
def migrationPlan (d : Desk) : MigrationPlan where
  sourceSid := d.selectedSid
  sourcePath := d.selectedPath
  targetPath := d.migrationTargetPath
  includeRoamingAppdata := d.migrationIncludeRoaming
  includePersonalFolders := d.migrationIncludeDocs

/-- `clear_migration_preflight`. -/
def clearMigrationPreflight (d : Desk) (announceEdit : Bool) : Desk :=
  { d with
    preflight := none
    migrationPreflightValid := false
    presentation := if announceEdit then .changed else .none }

/-- `reset_migration_draft`. -/
def resetMigrationDraft (d : Desk) : Desk :=
  { d.clearMigrationPreflight false with
    migrationTargetPath := ""
    migrationIncludeRoaming := false
    migrationIncludeDocs := false }

/-- `apply_selected_profile`, as far as the handlers read it; the rest is `selectedTexts`. -/
def applySelectedProfile (d : Desk) (profile : ProfileEntry) : Desk :=
  { d with
    selectedSid := profile.sid
    selectedPath := profile.profilePath
    selectedUsername := profile.username
    selectedRepairBlocked := profile.repairBlockedByLockInspection
    selectedLoaded := profile.loaded }

/-- The profile that stays selected when a report is rendered again. -/
def keptProfile (d : Desk) (profiles : List ProfileEntry) : Option ProfileEntry :=
  if d.selectedIdx < 0 then none
  else (profiles[d.selectedIdx.toNat]?).filter fun profile =>
    profile.sid == d.selectedSid && profile.profilePath == d.selectedPath

/-- `render_report`, as far as the handlers read it; the texts and counts are those of the
`Screen`. -/
def renderReport (d : Desk) (report : List UserProfile) (resetSelection : Bool) : Desk :=
  let profiles := report.map userProfileToSlint
  if resetSelection then
    { d with
      profiles
      selectedIdx := -1
      selectedSid := ""
      selectedPath := ""
      selectedUsername := ""
      selectedRepairBlocked := false
      selectedLoaded := false
      repairFixBak := false
      repairResetState := false
      migrationTargetPath := ""
      migrationIncludeRoaming := false
      migrationIncludeDocs := false
      migrationPreflightValid := false }
  else match d.keptProfile profiles with
    | some profile => applySelectedProfile { d with profiles } profile
    | none => { d with profiles }

/-- `cache_and_apply_report`, where the selection is reset. -/
def cacheAndApplyReport (d : Desk) (report : List UserProfile) : Desk :=
  renderReport
    { d with lastReport := some report, preflight := none, presentation := .none } report true

/-! ## 5. Events -/

end Desk

/-- What happened to the token. -/
inductive Mark where
  /-- `prevalidate_migration_plan` returned `Ok` for this plan. -/
  | validated (plan : MigrationPlan)
  /-- The selection was reset, the plan was invalidated, or a start without a worker took it. -/
  | withdrawn
  /-- A worker was started with this plan. -/
  | started (plan : MigrationPlan)
  deriving DecidableEq, Repr

/-- A handler's window and its marks. -/
abbrev Handled := Desk × List Mark

/-- What `start_migration` decides before it asks for the operation. -/
inductive StartCheck where
  | refused
  /-- No source, no target or nothing to copy. -/
  | incomplete
  | proceed (plan : MigrationPlan)
  deriving DecidableEq, Repr

namespace Desk

/-- Another profile than the selected one. -/
def profileChanged (d : Desk) (profile : ProfileEntry) : Bool :=
  d.selectedSid != profile.sid || d.selectedPath != profile.profilePath

/-- The selected row. -/
def showProfile (d : Desk) (index : Nat) (profile : ProfileEntry) : Desk :=
  { applySelectedProfile { d with selectedIdx := index } profile with
    repairFixBak := profile.suggestFixBak
    repairResetState := profile.suggestResetState }

/-- `select_profile`. -/
def selectProfile (d : Desk) (index : Nat) : Handled :=
  match d.profiles[index]? with
  | none => (d, [])
  | some profile =>
    if d.profileChanged profile then
      (d.resetMigrationDraft.showProfile index profile, [.withdrawn])
    else (d.showProfile index profile, [])

/-- `apply_migration_parent`. -/
def applyMigrationParent (d : Desk) (parent : Wide) : Handled :=
  if !d.atRest then (d, [])
  else
    let leaf := ((WinPath.fileName (encodeWide d.migrationTargetPath)).filter validTargetLeaf).getD
      (defaultTargetLeaf d.selectedUsername)
    let target := toStringLossy (WinPath.join parent leaf)
    (clearMigrationPreflight { d with migrationTargetPath := target } true, [.withdrawn])

/-- `prevalidate_migration`, with the answer that `prevalidate_migration_plan` gives. -/
def prevalidateMigration (d : Desk) (answer : Except MigrationError MigrationPreflight) : Handled :=
  if !d.atRest then (d, [])
  else if d.selectedLoaded then
    ({ d.clearMigrationPreflight false with
        presentation := .validationError MIGRATION_SOURCE_LOADED_ERROR }, [.withdrawn])
  else match answer with
    | .ok validated =>
      ({ d with
          preflight := some (.new d.migrationPlan validated)
          migrationPreflightValid := true
          presentation := .ready (display validated.targetPath) }, [.validated d.migrationPlan])
    | .error error =>
      ({ d.clearMigrationPreflight false with
          presentation := .validationError (migrationValidationSummaryKey error) }, [.withdrawn])

/-- `change_locale`: the cached report is rendered again. -/
def changeLocale (d : Desk) : Desk :=
  if !d.atRest then d
  else match d.lastReport with
    | some report => d.renderReport report false
    | none => d

/-- A worker's report on the UI thread (`queue_scan_result` and the end of `execute_repair`). -/
def reportFinished (d : Desk) (report : Option (List UserProfile)) : Handled :=
  match report with
  | some profiles => (cacheAndApplyReport { d with operationBusy := false } profiles, [.withdrawn])
  | none => ({ d with operationBusy := false }, [])

/-- Nothing to migrate: `start_migration` stops with `error.migration_scope`. -/
def incompletePlan (plan : MigrationPlan) : Bool :=
  plan.sourcePath == "" || plan.targetPath == "" ||
    (!plan.includeRoamingAppdata && !plan.includePersonalFolders)

/-- The token is there and matches the plan. -/
def tokenMatches (d : Desk) : Bool :=
  (d.preflight.map fun token => token.matchesPlan d.migrationPlan).getD false

/-- `start_migration` up to `begin_operation`; `elevated` is the answer of
`is_process_elevated`. -/
def startMigration (d : Desk) (elevated : Except String Bool) : Desk × StartCheck :=
  if d.selectedLoaded then (d, .refused)
  else if incompletePlan d.migrationPlan then
    -- `finish_operation`, whether or not this call holds the operation; the window looks idle.
    ({ d with active := .idle, operationBusy := false }, .incomplete)
  else if !d.tokenMatches then
    ({ d with preflight := none, presentation := .changed, migrationPreflightValid := false },
      .refused)
  else
    let taken :=
      { d with preflight := none, presentation := .none, migrationPreflightValid := false }
    match elevated with
    | .ok true => (taken, .proceed d.migrationPlan)
    | _ => (taken, .refused)

/-- The whole event: a worker is started when the operation can begin. -/
def startEvent (d : Desk) (elevated : Except String Bool) : Handled :=
  match d.startMigration elevated with
  | (d', .proceed plan) =>
    if d'.active = .idle then
      ({ d' with active := .migration, operationBusy := true }, [.started plan])
    else (d', [.withdrawn])
  | (d', .incomplete) => (d', [])
  | (d', .refused) => (d', if d.selectedLoaded then [] else [.withdrawn])

end Desk

/-- An event of the user interface. -/
inductive DeskEvent where
  | selectProfile (index : Nat)
  /-- The target or the scopes are edited; `announced`: the callback runs. -/
  | edit (target : String) (roaming docs announced : Bool)
  | invalidate
  | applyParent (parent : Wide)
  | pickerFailure (details : String)
  | prevalidate (answer : Except MigrationError MigrationPreflight)
  | changeLocale
  /-- A scan or a repair ends, with a new report or without one. -/
  | reportFinished (report : Option (List UserProfile))
  /-- A migration ends. -/
  | migrationFinished
  | startMigration (elevated : Except String Bool)
  /-- Anything else: calls and workers that change these, and dialogs that open and close. -/
  | other (active : OperationKind) (operationBusy startupVisible dialogVisible : Bool)

/-- The handler of an event. -/
def Desk.handle (d : Desk) : DeskEvent → Handled
  | .selectProfile index => d.selectProfile index
  | .edit target roaming docs announced =>
    let edited := { d with
      migrationTargetPath := target
      migrationIncludeRoaming := roaming
      migrationIncludeDocs := docs }
    if announced then (edited.clearMigrationPreflight true, [.withdrawn]) else (edited, [])
  | .invalidate => (d.clearMigrationPreflight true, [.withdrawn])
  | .applyParent parent => d.applyMigrationParent parent
  | .pickerFailure details => ({ d with presentation := .rawFailure details }, [])
  | .prevalidate answer => d.prevalidateMigration answer
  | .changeLocale => (d.changeLocale, [])
  | .reportFinished report => d.reportFinished report
  | .migrationFinished => ({ d with operationBusy := false, presentation := .none }, [])
  | .startMigration elevated => d.startEvent elevated
  | .other active operationBusy startupVisible dialogVisible =>
    ({ d with active, operationBusy, startupVisible, dialogVisible }, [])

/-- All events, one after the other. -/
def Desk.handleAll : Desk → List DeskEvent → Handled
  | d, [] => (d, [])
  | d, e :: es =>
    let first := d.handle e
    let rest := handleAll first.1 es
    (rest.1, first.2 ++ rest.2)

/-! ## 6. What a handler does to the token -/

/-- The plan that the token is for, by its history. -/
def authorise : Option MigrationPlan → Mark → Option MigrationPlan
  | _, .validated plan => some plan
  | _, .withdrawn => none
  | _, .started _ => none

/-- The plan validated last, unless a start, a reset or an invalidation came after it. -/
def authorised (marks : List Mark) : Option MigrationPlan := marks.foldl authorise none

/-- The four things a handler can do. -/
inductive Moved (d d' : Desk) : List Mark → Prop where
  | same (htoken : d'.preflight = d.preflight)
      (hvalid : d'.migrationPreflightValid = d.migrationPreflightValid) : Moved d d' []
  | cleared (htoken : d'.preflight = none) (hvalid : d'.migrationPreflightValid = false) :
      Moved d d' [.withdrawn]
  | granted (token : MigrationPreflightToken) (htoken : d'.preflight = some token)
      (hvalid : d'.migrationPreflightValid = true) : Moved d d' [.validated token.plan]
  | spent (token : MigrationPreflightToken) (hbefore : d.preflight = some token)
      (htoken : d'.preflight = none) (hvalid : d'.migrationPreflightValid = false) :
      Moved d d' [.started token.plan]

section Handlers

variable (d : Desk)

theorem moved_selectProfile (index : Nat) :
    Moved d (d.selectProfile index).1 (d.selectProfile index).2 := by
  unfold Desk.selectProfile
  cases d.profiles[index]? with
  | none => exact .same rfl rfl
  | some profile =>
    by_cases hchanged : d.profileChanged profile
    · simp only [if_pos hchanged]
      exact .cleared rfl rfl
    · simp only [if_neg hchanged]
      exact .same rfl rfl

theorem moved_applyMigrationParent (parent : Wide) :
    Moved d (d.applyMigrationParent parent).1 (d.applyMigrationParent parent).2 := by
  unfold Desk.applyMigrationParent
  cases d.atRest with
  | true => exact .cleared rfl rfl
  | false => exact .same rfl rfl

theorem moved_prevalidateMigration (answer : Except MigrationError MigrationPreflight) :
    Moved d (d.prevalidateMigration answer).1 (d.prevalidateMigration answer).2 := by
  unfold Desk.prevalidateMigration
  cases d.atRest with
  | false => exact .same rfl rfl
  | true =>
    cases d.selectedLoaded with
    | true => exact .cleared rfl rfl
    | false =>
      cases answer with
      | ok validated => exact .granted (.new d.migrationPlan validated) rfl rfl
      | error error => exact .cleared rfl rfl

theorem renderReport_false (report : List UserProfile) :
    (d.renderReport report false).preflight = d.preflight ∧
      (d.renderReport report false).migrationPreflightValid = d.migrationPreflightValid := by
  unfold Desk.renderReport
  simp only [Bool.false_eq_true, if_false]
  cases d.keptProfile (report.map userProfileToSlint) with
  | none => exact ⟨rfl, rfl⟩
  | some profile => exact ⟨rfl, rfl⟩

theorem moved_changeLocale : Moved d d.changeLocale [] := by
  unfold Desk.changeLocale
  cases d.atRest with
  | false => exact .same rfl rfl
  | true =>
    cases d.lastReport with
    | none => exact .same rfl rfl
    | some report => exact .same (renderReport_false d report).1 (renderReport_false d report).2

theorem moved_reportFinished (report : Option (List UserProfile)) :
    Moved d (d.reportFinished report).1 (d.reportFinished report).2 := by
  cases report with
  | none => exact .same rfl rfl
  | some profiles => exact .cleared rfl rfl

/-- A worker is started only with the plan of the token that was there. -/
theorem moved_startEvent (elevated : Except String Bool) :
    Moved d (d.startEvent elevated).1 (d.startEvent elevated).2 := by
  unfold Desk.startEvent Desk.startMigration
  by_cases hloaded : d.selectedLoaded
  · simp only [if_pos hloaded]
    exact .same rfl rfl
  by_cases hplan : Desk.incompletePlan d.migrationPlan
  · simp only [if_neg hloaded, if_pos hplan]
    exact .same rfl rfl
  by_cases hmatches : d.tokenMatches
  · have hgo : ¬ (!d.tokenMatches) = true := by rw [hmatches]; simp
    simp only [if_neg hloaded, if_neg hplan, if_neg hgo]
    obtain ⟨token, htoken, htrue⟩ : ∃ token, d.preflight = some token ∧
        token.matchesPlan d.migrationPlan = true := by
      unfold Desk.tokenMatches at hmatches
      cases htoken : d.preflight with
      | none =>
        rw [htoken] at hmatches
        cases hmatches
      | some token =>
        rw [htoken] at hmatches
        exact ⟨token, rfl, hmatches⟩
    rcases elevated with error | _ | _
    · exact .cleared rfl rfl
    · exact .cleared rfl rfl
    · by_cases hactive : d.active = .idle
      · simp only [if_pos hactive]
        rw [← MigrationPreflightToken.plan_of_matches htrue]
        exact .spent token htoken rfl rfl
      · simp only [if_neg hactive]
        exact .cleared rfl rfl
  · have hstop : (!d.tokenMatches) = true := by simpa using hmatches
    simp only [if_neg hloaded, if_neg hplan, if_pos hstop]
    exact .cleared rfl rfl

/-- **Every handler** does one of the four. -/
theorem moved_handle (e : DeskEvent) : Moved d (d.handle e).1 (d.handle e).2 := by
  cases e with
  | selectProfile index => exact moved_selectProfile d index
  | edit target roaming docs announced =>
    cases announced with
    | true => exact .cleared rfl rfl
    | false => exact .same rfl rfl
  | invalidate => exact .cleared rfl rfl
  | applyParent parent => exact moved_applyMigrationParent d parent
  | pickerFailure details => exact .same rfl rfl
  | prevalidate answer => exact moved_prevalidateMigration d answer
  | changeLocale => exact moved_changeLocale d
  | reportFinished report => exact moved_reportFinished d report
  | migrationFinished => exact .same rfl rfl
  | startMigration elevated => exact moved_startEvent d elevated
  | other active operationBusy startupVisible dialogVisible => exact .same rfl rfl

end Handlers

/-! ## 7. Runs -/

/-- Every start in a history, at the moment it was made, was for the plan validated last. -/
def StartsAuthorised (marks : List Mark) : Prop :=
  ∀ before plan after, marks = before ++ .started plan :: after → authorised before = some plan

def Mark.isStarted : Mark → Bool
  | .started _ => true
  | _ => false

def Mark.isValidated : Mark → Bool
  | .validated _ => true
  | _ => false

/-- What holds after every event: the token is for the authorised plan, and the window shows it. -/
structure TokenInv (d : Desk) (marks : List Mark) : Prop where
  token : d.preflight.map MigrationPreflightToken.plan = authorised marks
  valid : d.migrationPreflightValid = d.preflight.isSome
  starts : StartsAuthorised marks
  /-- A validation is there for every start, and one more for a token. -/
  count : marks.countP Mark.isStarted + (if d.preflight.isSome then 1 else 0)
    ≤ marks.countP Mark.isValidated

section Runs

variable {d d' : Desk} {marks more : List Mark}

theorem authorised_concat (mark : Mark) :
    authorised (marks ++ [mark]) = authorise (authorised marks) mark := by
  simp [authorised]

/-- Where an element of a list that grows at its end stands. -/
theorem eq_or_split_of_concat {α : Type} {l before after : List α} {a x : α}
    (h : l ++ [a] = before ++ x :: after) : after = [] ∧ before = l ∧ x = a ∨
      ∃ init, after = init ++ [a] ∧ l = before ++ x :: init := by
  rcases List.eq_nil_or_concat after with rfl | ⟨init, last, rfl⟩
  · obtain ⟨rfl, hlast⟩ := List.append_inj' h rfl
    exact .inl ⟨rfl, rfl, (List.cons.inj hlast).1.symm⟩
  · have hcut : l ++ [a] = (before ++ x :: init) ++ [last] := by
      rw [h]
      simp
    obtain ⟨hl, hlast⟩ := List.append_inj' hcut rfl
    rw [(List.cons.inj hlast).1]
    exact .inr ⟨init, by simp, hl⟩

theorem StartsAuthorised.concat {mark : Mark} (h : StartsAuthorised marks)
    (hmark : ∀ plan, mark = .started plan → authorised marks = some plan) :
    StartsAuthorised (marks ++ [mark]) := by
  intro before plan after heq
  rcases eq_or_split_of_concat heq with ⟨_, rfl, hlast⟩ | ⟨init, _, hmarks⟩
  · exact hmark plan hlast.symm
  · exact h before plan init hmarks

/-- One event. -/
theorem TokenInv.moved (h : TokenInv d marks) (hmoved : Moved d d' more) :
    TokenInv d' (marks ++ more) := by
  cases hmoved with
  | same htoken hvalid =>
    rw [List.append_nil]
    exact ⟨htoken ▸ h.token, by rw [hvalid, htoken, h.valid], h.starts, htoken ▸ h.count⟩
  | cleared htoken hvalid =>
    have hcount := h.count
    refine ⟨by rw [htoken, authorised_concat]; rfl, by rw [hvalid, htoken]; rfl,
      h.starts.concat (fun _ e => nomatch e), ?_⟩
    simp only [htoken, List.countP_append, List.countP_singleton, Mark.isStarted, Mark.isValidated]
    simp
    omega
  | granted token htoken hvalid =>
    have hcount := h.count
    refine ⟨by rw [htoken, authorised_concat]; rfl, by rw [hvalid, htoken]; rfl,
      h.starts.concat (fun _ e => nomatch e), ?_⟩
    simp only [htoken, List.countP_append, List.countP_singleton, Mark.isStarted, Mark.isValidated]
    simp
    omega
  | spent token hbefore htoken hvalid =>
    have hauthorised : authorised marks = some token.plan := by rw [← h.token, hbefore]; rfl
    have hcount := h.count
    rw [hbefore] at hcount
    refine ⟨by rw [htoken, authorised_concat]; rfl, by rw [hvalid, htoken]; rfl,
      h.starts.concat (fun plan e => by cases e; exact hauthorised), ?_⟩
    simp only [htoken, List.countP_append, List.countP_singleton, Mark.isStarted, Mark.isValidated]
    simp at hcount ⊢
    omega

theorem TokenInv.run : ∀ (es : List DeskEvent) {d : Desk} {marks : List Mark}, TokenInv d marks →
    TokenInv (d.handleAll es).1 (marks ++ (d.handleAll es).2)
  | [], d, marks, h => by
    rw [Desk.handleAll, List.append_nil]
    exact h
  | e :: es, d, marks, h => by
    have hrest := TokenInv.run es (h.moved (moved_handle d e))
    rw [List.append_assoc] at hrest
    exact hrest

/-- **Only a prevalidated plan is started, once.** For every sequence of events from the empty
window: every started worker has the plan of the last successful validation since the last start,
reset or invalidation; there are at most as many starts as successful validations; and the window
shows a valid token exactly when there is one. -/
theorem starts_are_prevalidated (es : List DeskEvent) :
    StartsAuthorised (Desk.handleAll {} es).2 ∧
    (Desk.handleAll {} es).2.countP Mark.isStarted
      ≤ (Desk.handleAll {} es).2.countP Mark.isValidated ∧
    ((Desk.handleAll {} es).1.migrationPreflightValid = true ↔
      (Desk.handleAll {} es).1.preflight.isSome) := by
  have hstart : TokenInv {} [] := by
    refine ⟨rfl, rfl, fun before plan after h => ?_, le_refl _⟩
    cases before <;> cases h
  have h := TokenInv.run es hstart
  rw [List.nil_append] at h
  have hcount := h.count
  exact ⟨h.starts, by omega, by rw [h.valid]⟩

end Runs

end WinProfile
