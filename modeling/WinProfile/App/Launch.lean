/-
  File:      WinProfile/App/Launch.lean
  Subject:   app-ui/src/controller.rs: the launch of the TrustedInstaller console, between its two
             entries in the journal.

  * `executeTrustedinstallerLaunch`, `launcher` -- the guard, the request, the launch and what is
    recorded of it.
  * `Permitted`, `Orderly` -- what an event needs of the events before it.
  * `launch_accounted` -- whatever call fails: nothing happens before the request is recorded, and no
    process is created that is not handed out, ended or named.
-/
import WinProfile.Win32.TrustedInstaller

namespace WinProfile.TrustedInstaller

open Privileges (Token Chain Reliable)

/-! ## 1. The launch -/

def TI_REQUEST_OPERATION : String := "LaunchTrustedInstallerConsoleRequested"
def TI_TERMINAL_OPERATION : String := "LaunchTrustedInstallerConsole"
def TI_REQUEST_DETAIL : String := "TrustedInstaller console launch request accepted"
def TI_TERMINATION_TIMEOUT : UInt32 := 5000

/-- `TrustedInstallerLaunchError`. -/
inductive TrustedInstallerLaunchError where
  | operationLock (error : String)
  | requestAudit (error : String)
  | launch (error : String)
  | launchAndFailureAudit (launchError auditError : String)
  | terminalAuditCompensated (pid : UInt32) (auditError : String)
  | terminalAuditCompensationFailed (pid : UInt32) (auditError compensationError : String)
  deriving DecidableEq, Repr

def TrustedInstallerLaunchError.text : TrustedInstallerLaunchError → String
  | operationLock error =>
    s!"TrustedInstaller operation lock acquisition failed before audit or process effects: {error}"
  | requestAudit error =>
    s!"TrustedInstaller launch request audit failed before process acquisition: {error}"
  | launch error => s!"TrustedInstaller process launch failed: {error}"
  | launchAndFailureAudit launchError auditError =>
    s!"TrustedInstaller process launch failed: {launchError}; FAILED audit also failed: {auditError}"
  | terminalAuditCompensated pid auditError =>
    s!"TrustedInstaller SUCCESS audit failed for PID {pid.toNat}: {auditError}; process was terminated and reaped"
  | terminalAuditCompensationFailed pid auditError compensationError =>
    s!"TrustedInstaller SUCCESS audit failed for PID {pid.toNat}: {auditError}; compensation failed: {compensationError}"

/-- What is recorded of a process that was launched. -/
def spawnedDetail (pid sessionId : UInt32) : String :=
  s!"Spawned PID {pid.toNat} in session {sessionId.toNat}"

abbrev LaunchM (α : Type) := Act Host TrustedInstallerLaunchError α

section Definitions

variable (S : Os)

/-- `acquire_trustedinstaller_operation_guard`. -/
def acquireTrustedinstallerOperationGuard : Act Host String Unit := .of fun h =>
  match S.guard h.calls with
  | some error => (.error error, h.called)
  | none => (.ok (), h.called.log .locked)

/-- `TrustedInstallerAudit::record`. -/
def record (operation : String) (status : AuditStatus) (details : String) : Act Host String Unit :=
  .of fun h => match S.record h.calls with
    | .done => (.ok (), h.called.log (.recorded operation status details))
    | .before error => (.error error, h.called)
    | .after error => (.error error, h.called.log (.recorded operation status details))

/-- What `launch_ti_console` hands to the worker. -/
def launcher : Act Host String (LaunchedProcess × UInt32) := do
  let launchSpec ← Act.mapErr TokenError.text (trustedinstallerConsoleLaunchSpec S)
  let sessionId ← Act.mapErr TokenError.text (getRequestingProcessSession S)
  let token ← Act.mapErr TokenError.text (duplicateTrustedinstallerToken S)
  let process ← Act.mapErr TokenError.text (launchProcessWithToken S token launchSpec)
  pure (process, sessionId)

/-- The end of a launch whose last entry could not be recorded. -/
def compensateLaunch (process : LaunchedProcess) (auditError : String) : LaunchM UInt32 := do
  match ← process.compensate S TI_TERMINATION_TIMEOUT with
  | none => Act.fail (.terminalAuditCompensated process.pid auditError)
  | some compensationError =>
    Act.fail (.terminalAuditCompensationFailed process.pid auditError compensationError)

/-- What follows the launch. -/
def recordLaunch : Except String (LaunchedProcess × UInt32) → LaunchM UInt32
  | .error launchError => do
    match ← Act.attempt (record S TI_TERMINAL_OPERATION .failed launchError) with
    | .ok () => Act.fail (.launch launchError)
    | .error auditError => Act.fail (.launchAndFailureAudit launchError auditError)
  | .ok (process, sessionId) => do
    match ← Act.attempt (record S TI_TERMINAL_OPERATION .success
      (spawnedDetail process.pid sessionId)) with
    | .ok () => pure process.pid
    | .error auditError => compensateLaunch S process auditError

/-- `execute_trustedinstaller_launch`: the guard is dropped at the end. -/
def executeTrustedinstallerLaunch (launcher : Act Host String (LaunchedProcess × UInt32)) :
    LaunchM UInt32 := do
  Act.mapErr .operationLock (acquireTrustedinstallerOperationGuard S)
  Act.ensuring
    (do
      Act.mapErr .requestAudit (record S TI_REQUEST_OPERATION .success TI_REQUEST_DETAIL)
      let launched ← Act.attempt launcher
      recordLaunch S launched)
    (·.log .unlocked)

end Definitions

/-! ## 2. The order of the events -/

/-- A process with this number was created. -/
def Created (pid : UInt32) (events : List Event) : Prop := ∃ creation, .created pid creation ∈ events

/-- The request was recorded, under a guard that is still held. -/
structure Requested (events : List Event) : Prop where
  recorded : .recorded TI_REQUEST_OPERATION .success TI_REQUEST_DETAIL ∈ events
  locked : .locked ∈ events
  held : .unlocked ∉ events

/-- **What an event needs** of the events before it, the last one first. `t` is the token of the
program when the launch began. -/
def Permitted (S : Os) (t : Token) (past : List Event) : Event → Prop
  | .locked => past = []
  | .unlocked => .locked ∈ past ∧ .unlocked ∉ past
  | .recorded operation status details =>
    -- the request, or the end of what was requested
    operation = TI_REQUEST_OPERATION ∧ status = .success ∧ details = TI_REQUEST_DETAIL ∧
        past = [.locked] ∨
      operation = TI_TERMINAL_OPERATION ∧ Requested past ∧ (status = .failed ∨
        status = .success ∧ ∃ pid sessionId, details = spawnedDetail pid sessionId ∧
          Created pid past ∧ .terminated pid ∉ past ∧ .reaped pid ∉ past)
  | .queried _ => Requested past
  | .captured token =>
    -- of the process as which the service has just been found running
    Requested past ∧ ∃ status before, past = .queried status :: before ∧
      status.isRunning = true ∧ token = ⟨status.processId, false⟩
  | .created _ creation =>
    -- the console, with a duplicate of the captured token and in its environment
    Requested past ∧ (∀ pid, ¬ Created pid past) ∧
      (∃ service, .captured ⟨service, false⟩ ∈ past ∧ creation.token = ⟨service, true⟩) ∧
      (∃ spec, S.IsConsole spec ∧
        creation = spec.creation creation.token ⟨creation.token⟩ creation.lent) ∧
      Lent S.privileges SE_IMPERSONATE_NAME t creation.lent
  | .terminated pid => Created pid past
  | .reaped pid => Created pid past

def Orderly (S : Os) (t : Token) : List Event → Prop
  | [] => True
  | event :: past => Permitted S t past event ∧ Orderly S t past

/-- The error says of a process that it may be alive. -/
inductive TrustedInstallerLaunchError.Unaccounted (pid : UInt32) :
    TrustedInstallerLaunchError → Prop where
  | launch {error : TokenError} (h : error.Unaccounted pid) : Unaccounted pid (.launch error.text)
  | launchAndAudit {error : TokenError} (h : error.Unaccounted pid) (auditError : String) :
    Unaccounted pid (.launchAndFailureAudit error.text auditError)
  | uncompensated (auditError compensationError : String) :
    Unaccounted pid (.terminalAuditCompensationFailed pid auditError compensationError)

/-- What the result says of the events. -/
structure Answers (events : List Event) (result : Except TrustedInstallerLaunchError UInt32) :
    Prop where
  /-- The process that is handed out is there, and its launch is in the journal. -/
  launched : ∀ pid, result = .ok pid → Created pid events ∧ .terminated pid ∉ events ∧
    .reaped pid ∉ events ∧ ∃ sessionId,
      .recorded TI_TERMINAL_OPERATION .success (spawnedDetail pid sessionId) ∈ events
  /-- A process that is not handed out has ended, or is named. -/
  failed : ∀ error, result = .error error → ∀ pid, Created pid events →
    .reaped pid ∈ events ∨ error.Unaccounted pid
  /-- A failure is in the journal, or the error says that it is not. -/
  reported : ∀ text, result = .error (.launch text) →
    .recorded TI_TERMINAL_OPERATION .failed text ∈ events

/-- **What a launch comes to**: what it did is in order, the guard is not held at its end, and its
result is about what it did. -/
structure Accounted (S : Os) (t : Token) (events : List Event)
    (result : Except TrustedInstallerLaunchError UInt32) : Prop extends Answers events result where
  orderly : Orderly S t events
  released : events = [] ∨ ∃ past, events = .unlocked :: past

/-- The text names the process. -/
def Names (text : String) (pid : UInt32) : Prop :=
  ∃ before after, text = before ++ "PID " ++ toString pid.toNat ++ after

section Names

variable {text : String} {pid : UInt32}

theorem names_lead {lead : String} (before : String) (h : lead = before ++ "PID ") :
    Names (lead ++ toString pid.toNat) pid :=
  ⟨before, "", by rw [h, String.append_empty]⟩

theorem Names.append (h : Names text pid) (right : String) : Names (text ++ right) pid := by
  obtain ⟨before, after, rfl⟩ := h
  exact ⟨before, after ++ right, by simp only [String.append_assoc]⟩

theorem Names.prepend (h : Names text pid) (left : String) : Names (left ++ text) pid := by
  obtain ⟨before, after, rfl⟩ := h
  exact ⟨left ++ before, after, by simp only [String.append_assoc]⟩

theorem TokenError.Unaccounted.named {error : TokenError} (h : error.Unaccounted pid) :
    Names error.text pid := by
  induction h with
  | incomplete compensationError =>
    have hlead : Names ("CreateProcessWithTokenW returned incomplete process information for PID " ++
        toString pid.toNat) pid :=
      names_lead "CreateProcessWithTokenW returned incomplete process information for "
        (by decide +kernel)
    exact (hlead.append "; compensation failed: ").append compensationError
  | noHandle threadHandlePresent =>
    have hlead : Names ("CreateProcessWithTokenW returned success without a process handle for PID " ++
        toString pid.toNat) pid :=
      names_lead "CreateProcessWithTokenW returned success without a process handle for "
        (by decide +kernel)
    exact ((hlead.append " (thread handle present: ").append (toString threadHandlePresent)).append
      "); child cannot be compensated"
  | unrestored restoreError compensationError =>
    have hlead : Names ("Privilege restoration failed after launching PID " ++
        toString pid.toNat) pid :=
      names_lead "Privilege restoration failed after launching " (by decide +kernel)
    exact (((hlead.append ": ").append restoreError).append
      "; process compensation failed: ").append compensationError
  | both h restoreError ih =>
    exact ((ih.prepend "Privileged operation failed: ").append
      "; privilege restoration also failed: ").append restoreError

theorem TrustedInstallerLaunchError.Unaccounted.named {error : TrustedInstallerLaunchError}
    (h : error.Unaccounted pid) : Names error.text pid := by
  cases h with
  | launch h => exact h.named.prepend "TrustedInstaller process launch failed: "
  | launchAndAudit h auditError =>
    exact ((h.named.prepend "TrustedInstaller process launch failed: ").append
      "; FAILED audit also failed: ").append auditError
  | uncompensated auditError compensationError =>
    have hlead : Names ("TrustedInstaller SUCCESS audit failed for PID " ++ toString pid.toNat) pid :=
      names_lead "TrustedInstaller SUCCESS audit failed for " (by decide +kernel)
    exact (((hlead.append ": ").append auditError).append
      "; compensation failed: ").append compensationError

end Names
/-! ## 3. The calls -/

section Calls

variable {S : Os} {h : Host} {t : Token}

theorem record_spec (operation : String) (status : AuditStatus) (details : String) :
    Act.wp (record S operation status details)
      (fun _ h' => Adds (.recorded operation status details) h h')
      (fun _ h' => Still h h' ∨ Adds (.recorded operation status details) h h') h := by
  rw [record, Act.wp_of]
  cases S.record h.calls with
  | done => exact ⟨rfl, rfl⟩
  | before error => exact .inl ⟨rfl, rfl⟩
  | after error => exact .inr ⟨rfl, rfl⟩

/-- What a launch that was requested has done when it succeeded. -/
structure Started (S : Os) (t : Token) (pid : UInt32) (past events : List Event) : Prop where
  done : ∃ spec service lent captured, S.IsConsole spec ∧
    Lent S.privileges SE_IMPERSONATE_NAME t lent ∧ Captured service past captured ∧
    events = .created pid (spec.creation ⟨service, true⟩ ⟨⟨service, true⟩⟩ lent) :: captured

/-- What it has done when it failed. -/
def Stopped (S : Os) (t : Token) (past events : List Event) (text : String) : Prop :=
  ∃ error : TokenError, text = error.text ∧ (Captures past events ∨
    ∃ pid launched, Started S t pid past launched ∧ Discarded pid launched events error)

theorem launcher_spec : Act.wp (launcher S)
    (fun launched h' => Started S h.process.token launched.1.pid h.events h'.events ∧
      h'.process.token = h.process.token)
    (fun text h' => Stopped S h.process.token h.events h'.events text ∧
      (Reliable S.privileges → h'.process.token = h.process.token)) h := by
  have hnothing : ∀ {h' : Host}, h'.events = h.events → Queries h.events h'.events :=
    fun he => he.symm ▸ Queries.refl _
  rw [launcher, Act.wp_bind, Act.wp_mapErr]
  refine Act.wp_mono consoleLaunchSpec_spec ?_
    fun e _ he => ⟨⟨e, rfl, .inl (.inl (hnothing he.2))⟩, fun _ => congrArg _ he.1⟩
  rintro spec h₁ ⟨⟨hprocess₁, hevents₁⟩, hconsole⟩
  rw [Act.wp_bind, Act.wp_mapErr]
  refine Act.wp_mono (Act.keeps_iff_wp.mp session_keeps h₁) ?_
    fun e _ he => ⟨⟨e, rfl, .inl (.inl (hnothing (he.2.trans hevents₁)))⟩,
      fun _ => congrArg _ (he.1.trans hprocess₁)⟩
  rintro sessionId h₂ ⟨hprocess₂, hevents₂⟩
  rw [hprocess₁] at hprocess₂
  rw [hevents₁] at hevents₂
  rw [Act.wp_bind, Act.wp_mapErr]
  refine Act.wp_mono duplicate_spec ?_ ?_
  · rintro launchToken h₃ ⟨⟨service, htoken, hcaptured⟩, hchain₃, hlent₃⟩
    rw [hprocess₂] at hchain₃ hlent₃
    rw [hevents₂] at hcaptured
    rw [Act.wp_bind, Act.wp_mapErr]
    refine Act.wp_mono (launch_spec spec hchain₃) ?_ ?_
    · rintro p h₄ ⟨hevents₄, htoken₄⟩
      rw [htoken] at hevents₄
      exact (Act.wp_pure _).mpr
        ⟨⟨spec, service, _, _, hconsole, hlent₃, hcaptured, hevents₄⟩, htoken₄⟩
    · rintro e h₄ ⟨haborted, hback⟩
      refine ⟨⟨e, rfl, ?_⟩, hback⟩
      rw [htoken] at haborted
      rcases haborted with hsame | ⟨pid, hdiscarded⟩
      · exact .inl (.inr ⟨service, hsame ▸ hcaptured⟩)
      · exact .inr ⟨pid, _, ⟨spec, service, _, _, hconsole, hlent₃, hcaptured, rfl⟩, hdiscarded⟩
  · rintro e h₃ ⟨hcaptures, hback⟩
    rw [hevents₂] at hcaptures
    rw [hprocess₂] at hback
    exact ⟨⟨e, rfl, .inl hcaptures⟩, hback⟩

end Calls

/-! ## 4. What was done since the guard was taken -/

/-- The events under the guard. -/
structure Ongoing (S : Os) (t : Token) (events : List Event) : Prop where
  orderly : Orderly S t events
  requested : Requested events

section Orders

variable {S : Os} {t : Token} {events past done : List Event} {pid : UInt32} {event : Event}

theorem Requested.cons (h : Requested past) (hevent : event ≠ .unlocked) :
    Requested (event :: past) where
  recorded := List.mem_cons_of_mem _ h.recorded
  locked := List.mem_cons_of_mem _ h.locked
  held hmem := (List.mem_cons.mp hmem).elim (fun heq => hevent heq.symm) h.held

theorem Ongoing.cons (h : Ongoing S t past) (hp : Permitted S t past event)
    (hevent : event ≠ .unlocked) : Ongoing S t (event :: past) :=
  ⟨⟨hp, h.orderly⟩, h.requested.cons hevent⟩

theorem Created.mono (h : Created pid past) (hsub : ∀ e ∈ past, e ∈ events) :
    Created pid events := by
  obtain ⟨creation, hmem⟩ := h
  exact ⟨creation, hsub _ hmem⟩

/-- An event that creates nothing. -/
theorem created_cons (h : ∀ creation, event ≠ .created pid creation) :
    Created pid (event :: past) ↔ Created pid past := by
  refine ⟨?_, fun hp => hp.mono fun e => List.mem_cons_of_mem event⟩
  rintro ⟨creation, hmem⟩
  rcases List.mem_cons.mp hmem with heq | hmem
  · exact absurd heq.symm (h _)
  · exact ⟨creation, hmem⟩

theorem created_append (h : Compensates pid done) (k : UInt32) :
    Created k (done ++ past) ↔ Created k past := by
  induction done with
  | nil => exact Iff.rfl
  | cons event done ih =>
    obtain ⟨hevent, hrest⟩ := List.forall_mem_cons.mp h
    rw [List.cons_append, created_cons, ih hrest]
    rintro creation rfl
    rcases hevent with heq | heq <;> cases heq

/-- What is done about a process. -/
theorem Ongoing.compensate (h : Ongoing S t past) (hcreated : Created pid past)
    (hdone : Compensates pid done) : Ongoing S t (done ++ past) := by
  induction done with
  | nil => exact h
  | cons event done ih =>
    obtain ⟨hevent, hrest⟩ := List.forall_mem_cons.mp hdone
    have hpast : Created pid (done ++ past) := (created_append hrest pid).mpr hcreated
    rcases hevent with rfl | rfl
    · exact (ih hrest).cons hpast fun h => by cases h
    · exact (ih hrest).cons hpast fun h => by cases h

/-- The request. -/
def begun : List Event :=
  [.recorded TI_REQUEST_OPERATION .success TI_REQUEST_DETAIL, .locked]

theorem begun_ongoing : Ongoing S t begun where
  orderly := ⟨.inl ⟨rfl, rfl, rfl, rfl⟩, rfl, trivial⟩
  requested := ⟨List.mem_cons_self, List.mem_cons_of_mem _ List.mem_cons_self, by simp [begun]⟩

theorem not_created_begun (pid : UInt32) : ¬ Created pid begun := by
  rintro ⟨creation, hmem⟩
  simp [begun] at hmem

/-- The queries create nothing. -/
theorem Ongoing.queries (h : Ongoing S t past) (hq : Queries past events) :
    Ongoing S t events ∧ ∀ k, Created k events ↔ Created k past := by
  obtain ⟨asked, rfl, hasked⟩ := hq
  induction asked with
  | nil => exact ⟨h, fun _ => Iff.rfl⟩
  | cons event asked ih =>
    obtain ⟨⟨status, rfl⟩, hrest⟩ := List.forall_mem_cons.mp hasked
    obtain ⟨hongoing, hsame⟩ := ih hrest
    refine ⟨hongoing.cons hongoing.requested (fun h => by cases h), fun k => ?_⟩
    rw [List.cons_append, created_cons (fun _ h => by cases h), hsame]

theorem Ongoing.captured (h : Ongoing S t past) (hc : Captured pid past events) :
    Ongoing S t events ∧ ∀ k, Created k events ↔ Created k past := by
  obtain ⟨found, ⟨status, before, rfl, hq, hrunning, rfl⟩, rfl⟩ := hc
  obtain ⟨hongoing, hsame⟩ := h.queries (hq.cons status)
  refine ⟨hongoing.cons ⟨hongoing.requested, status, before, rfl, hrunning, rfl⟩
    (fun h => by cases h), fun k => ?_⟩
  rw [created_cons (fun _ h => by cases h), hsame]

/-- The process of a launch, and no other. -/
structure Alone (pid : UInt32) (events : List Event) : Prop where
  created : Created pid events
  only : ∀ k, Created k events → k = pid

/-- Nothing but queries and the token of the service. -/
theorem Captured.not_ended (hc : Captured pid begun events) (k : UInt32) :
    .terminated k ∉ events ∧ .reaped k ∉ events := by
  obtain ⟨found, ⟨status, before, rfl, ⟨asked, rfl, hasked⟩, _⟩, rfl⟩ := hc
  have hnone : ∀ event ∈ asked, event ≠ .terminated k ∧ event ≠ .reaped k := by
    intro event hmem
    obtain ⟨status, rfl⟩ := hasked event hmem
    exact ⟨(fun h => by cases h), fun h => by cases h⟩
  constructor
  · intro hmem
    simp only [begun, List.mem_cons, List.mem_append, reduceCtorEq, false_or, List.not_mem_nil,
      or_false] at hmem
    exact (hnone _ hmem).1 rfl
  · intro hmem
    simp only [begun, List.mem_cons, List.mem_append, reduceCtorEq, false_or, List.not_mem_nil,
      or_false] at hmem
    exact (hnone _ hmem).2 rfl

/-- A launch that succeeded. -/
theorem Started.ongoing (h : Started S t pid begun events) : Ongoing S t events ∧ Alone pid events ∧
    .terminated pid ∉ events ∧ .reaped pid ∉ events := by
  obtain ⟨spec, service, lent, captured, hconsole, hlent, hcaptured, rfl⟩ := h.done
  obtain ⟨hongoing, hsame⟩ := begun_ongoing.captured hcaptured
  have hnone : ∀ k, ¬ Created k captured := fun k hk => not_created_begun k ((hsame k).mp hk)
  obtain ⟨hterminated, hreaped⟩ := hcaptured.not_ended pid
  have htoken : Event.captured ⟨service, false⟩ ∈ captured := by
    obtain ⟨found, _, rfl⟩ := hcaptured
    exact List.mem_cons_self
  refine ⟨hongoing.cons ⟨hongoing.requested, hnone, ⟨service, htoken, rfl⟩, ⟨spec, hconsole, rfl⟩,
    hlent⟩ (fun h => by cases h), ⟨⟨_, List.mem_cons_self⟩, fun k hk => ?_⟩, ?_, ?_⟩
  · obtain ⟨creation, hmem⟩ := hk
    rcases List.mem_cons.mp hmem with heq | hmem
    · cases heq
      rfl
    · exact absurd ⟨creation, hmem⟩ (hnone k)
  · exact fun hmem => (List.mem_cons.mp hmem).elim (fun h => by cases h) hterminated
  · exact fun hmem => (List.mem_cons.mp hmem).elim (fun h => by cases h) hreaped

theorem Captures.ongoing (hc : Captures begun events) :
    Ongoing S t events ∧ ∀ k, ¬ Created k events := by
  rcases hc with hq | ⟨service, hcaptured⟩
  · obtain ⟨hongoing, hsame⟩ := begun_ongoing.queries hq
    exact ⟨hongoing, fun k hk => not_created_begun k ((hsame k).mp hk)⟩
  · obtain ⟨hongoing, hsame⟩ := begun_ongoing.captured hcaptured
    exact ⟨hongoing, fun k hk => not_created_begun k ((hsame k).mp hk)⟩

/-- A launch that failed: what was done is in order, and its process has ended or is named. -/
theorem Stopped.ongoing {text : String} (h : Stopped S t begun events text) :
    Ongoing S t events ∧ ∃ error : TokenError, text = error.text ∧
      ∀ pid, Created pid events → .reaped pid ∈ events ∨ error.Unaccounted pid := by
  obtain ⟨error, rfl, hcaptures | ⟨pid, launched, hstarted, hdiscarded⟩⟩ := h
  · obtain ⟨hongoing, hnone⟩ := hcaptures.ongoing
    exact ⟨hongoing, error, rfl, fun pid hk => absurd hk (hnone pid)⟩
  · obtain ⟨hongoing, halone, _⟩ := hstarted.ongoing
    obtain ⟨done, rfl, hcompensates, hend⟩ := hdiscarded
    refine ⟨hongoing.compensate halone.created hcompensates, error, rfl, fun k hk => ?_⟩
    rw [created_append hcompensates] at hk
    rw [halone.only k hk]
    exact hend.imp_left fun hreaped => List.mem_append_left _ hreaped

/-- What was done before the launch stays below. -/
theorem Queries.above {base : List Event} (h : Queries (past ++ base) events) :
    ∃ recent, events = recent ++ base ∧ Queries past recent := by
  obtain ⟨asked, rfl, hasked⟩ := h
  exact ⟨asked ++ past, (List.append_assoc _ _ _).symm, asked, rfl, hasked⟩

theorem Captured.above {base : List Event} (h : Captured pid (past ++ base) events) :
    ∃ recent, events = recent ++ base ∧ Captured pid past recent := by
  obtain ⟨found, ⟨status, before, rfl, hq, hrunning⟩, rfl⟩ := h
  obtain ⟨recent, rfl, hrecent⟩ := hq.above
  exact ⟨_, rfl, _, ⟨status, recent, rfl, hrecent, hrunning⟩, rfl⟩

theorem Started.above {base : List Event} (h : Started S t pid (past ++ base) events) :
    ∃ recent, events = recent ++ base ∧ Started S t pid past recent := by
  obtain ⟨spec, service, lent, captured, hconsole, hlent, hcaptured, rfl⟩ := h.done
  obtain ⟨recent, rfl, hrecent⟩ := hcaptured.above
  exact ⟨_, rfl, spec, service, lent, recent, hconsole, hlent, hrecent, rfl⟩

theorem Stopped.above {base : List Event} {text : String}
    (h : Stopped S t (past ++ base) events text) :
    ∃ recent, events = recent ++ base ∧ Stopped S t past recent text := by
  obtain ⟨error, rfl, (hq | ⟨service, hcaptured⟩) | ⟨pid, launched, hstarted, done, rfl, hend⟩⟩ := h
  · obtain ⟨recent, rfl, hrecent⟩ := hq.above
    exact ⟨recent, rfl, error, rfl, .inl (.inl hrecent)⟩
  · obtain ⟨recent, rfl, hrecent⟩ := hcaptured.above
    exact ⟨recent, rfl, error, rfl, .inl (.inr ⟨service, hrecent⟩)⟩
  · obtain ⟨recent, rfl, hrecent⟩ := hstarted.above
    exact ⟨done ++ recent, (List.append_assoc _ _ _).symm, error, rfl,
      .inr ⟨pid, recent, hrecent, done, rfl, hend⟩⟩

end Orders

/-! ## 5. The whole launch -/

section Launch

variable {S : Os} {h : Host} {t : Token} {base past : List Event} {pid : UInt32}

/-- What was done until the guard is dropped, by the result. -/
def Ended (S : Os) (t : Token) (base : List Event) (h h' : Host)
    (result : Except TrustedInstallerLaunchError UInt32) : Prop :=
  h'.process = h.process ∧ ∃ events, h'.events = events ++ base ∧ Ongoing S t events ∧
    Answers events result

theorem recordFailure_spec {text : String} (hevents : h.events = past ++ base)
    (hstopped : Stopped S t begun past text) :
    Act.wp (recordLaunch S (.error text)) (fun _ _ => False)
      (fun e h' => Ended S t base h h' (.error e)) h := by
  obtain ⟨hongoing, error, rfl, hpids⟩ := hstopped.ongoing
  have hnext : Ongoing S t (.recorded TI_TERMINAL_OPERATION .failed error.text :: past) :=
    hongoing.cons (.inr ⟨rfl, hongoing.requested, .inl rfl⟩) fun h => by cases h
  have hpids' : ∀ pid, Created pid (.recorded TI_TERMINAL_OPERATION .failed error.text :: past) →
      .reaped pid ∈ Event.recorded TI_TERMINAL_OPERATION .failed error.text :: past ∨
        error.Unaccounted pid := fun pid hk => by
    rw [created_cons fun _ h => by cases h] at hk
    exact (hpids pid hk).imp_left fun hmem => List.mem_cons_of_mem _ hmem
  rw [recordLaunch, Act.wp_bind, Act.wp_attempt]
  refine Act.wp_mono (record_spec _ _ _) ?_ ?_
  · rintro _ h' ⟨hprocess, hadds⟩
    rw [hevents] at hadds
    refine (Act.wp_fail _).mpr ⟨hprocess, _, hadds, hnext, ⟨fun _ he => ?_, ?_, ?_⟩⟩
    · cases he
    · rintro e he pid hk
      cases he
      exact (hpids' pid hk).imp_right .launch
    · rintro text he
      cases he
      exact List.mem_cons_self
  · rintro auditError h' hrecorded
    have hanswers : ∀ events, (∀ pid, Created pid events →
        .reaped pid ∈ events ∨ error.Unaccounted pid) →
        Answers events (.error (.launchAndFailureAudit error.text auditError)) := fun events hall => by
      refine ⟨fun _ he => ?_, fun e he pid hk => ?_, fun text he => ?_⟩ <;> cases he
      exact (hall pid hk).imp_right fun hu => .launchAndAudit hu auditError
    rcases hrecorded with ⟨hprocess, hsame⟩ | ⟨hprocess, hadds⟩
    · exact (Act.wp_fail _).mpr ⟨hprocess, past, hsame.trans hevents, hongoing, hanswers past hpids⟩
    · rw [hevents] at hadds
      exact (Act.wp_fail _).mpr ⟨hprocess, _, hadds, hnext, hanswers _ hpids'⟩

/-- A process that cannot be handed out. -/
theorem compensateLaunch_spec {p : LaunchedProcess} {auditError : String}
    (hevents : h.events = past ++ base) (hongoing : Ongoing S t past) (halone : Alone p.pid past) :
    Act.wp (compensateLaunch S p auditError) (fun _ _ => False)
      (fun e h' => Ended S t base h h' (.error e)) h := by
  rw [compensateLaunch, Act.wp_bind]
  refine Act.wp_mono (compensate_spec p _) ?_ fun _ _ hfalse => hfalse.elim
  rintro failure h' ⟨hprocess, done, hdone, hcompensates, hreaped⟩
  rw [hevents, ← List.append_assoc] at hdone
  have hnext := hongoing.compensate halone.created hcompensates
  have hended : ∀ e : TrustedInstallerLaunchError, (∀ text, e ≠ .launch text) →
      (.reaped p.pid ∈ done ∨ e.Unaccounted p.pid) → Ended S t base h h' (.error e) := by
    intro e hlaunch hend
    refine ⟨hprocess, done ++ past, hdone, hnext, fun _ he => ?_, fun e' he k hk => ?_,
      fun text he => ?_⟩
    · cases he
    · cases he
      rw [created_append hcompensates] at hk
      rw [halone.only k hk]
      exact hend.imp_left fun hmem => List.mem_append_left _ hmem
    · cases he
      exact absurd rfl (hlaunch text)
  cases failure with
  | none => exact (Act.wp_fail _).mpr (hended _ (fun _ h => by cases h) (.inl (hreaped rfl)))
  | some text =>
    exact (Act.wp_fail _).mpr (hended _ (fun _ h => by cases h) (.inr (.uncompensated _ text)))

theorem recordSuccess_spec {p : LaunchedProcess} {sessionId : UInt32}
    (hevents : h.events = past ++ base) (hstarted : Started S t p.pid begun past) :
    Act.wp (recordLaunch S (.ok (p, sessionId))) (fun pid h' => Ended S t base h h' (.ok pid))
      (fun e h' => Ended S t base h h' (.error e)) h := by
  obtain ⟨hongoing, halone, hterminated, hreaped⟩ := hstarted.ongoing
  have hnext : Ongoing S t (.recorded TI_TERMINAL_OPERATION .success
      (spawnedDetail p.pid sessionId) :: past) :=
    hongoing.cons (.inr ⟨rfl, hongoing.requested, .inr ⟨rfl, p.pid, sessionId, rfl, halone.created,
      hterminated, hreaped⟩⟩) fun h => by cases h
  rw [recordLaunch, Act.wp_bind, Act.wp_attempt]
  refine Act.wp_mono (record_spec _ _ _) ?_ ?_
  · rintro _ h' ⟨hprocess, hadds⟩
    rw [hevents] at hadds
    refine (Act.wp_pure _).mpr ⟨hprocess, _, hadds, hnext, fun pid he => ?_, fun e he => ?_,
      fun text he => ?_⟩
    · cases he
      refine ⟨halone.created.mono fun e => List.mem_cons_of_mem _, ?_, ?_, sessionId,
        List.mem_cons_self⟩
      · simpa using hterminated
      · simpa using hreaped
    · cases he
    · cases he
  · rintro auditError h' hrecorded
    rcases hrecorded with ⟨hprocess, hsame⟩ | ⟨hprocess, hadds⟩
    · exact Act.wp_mono (compensateLaunch_spec (hsame.trans hevents) hongoing halone)
        (fun _ _ hfalse => hfalse.elim) fun _ _ he => ⟨he.1.trans hprocess, he.2⟩
    · rw [hevents] at hadds
      have halone' : Alone p.pid (.recorded TI_TERMINAL_OPERATION .success
          (spawnedDetail p.pid sessionId) :: past) :=
        ⟨halone.created.mono fun e => List.mem_cons_of_mem _, fun k hk => halone.only k
          ((created_cons fun _ h => by cases h).mp hk)⟩
      exact Act.wp_mono (compensateLaunch_spec hadds hnext halone')
        (fun _ _ hfalse => hfalse.elim) fun _ _ he => ⟨he.1.trans hprocess, he.2⟩

/-- What the events since `base` come to, and the token at the end. -/
def Outcome (S : Os) (t : Token) (base : List Event)
    (result : Except TrustedInstallerLaunchError UInt32) (h' : Host) : Prop :=
  (∃ events, h'.events = events ++ base ∧ Accounted S t events result) ∧
    ((∃ pid, result = .ok pid) ∨ Reliable S.privileges → h'.process.token = t)

/-- The guard is dropped. -/
theorem Ended.outcome {h' : Host} {result : Except TrustedInstallerLaunchError UInt32}
    (he : Ended S t base h h' result)
    (hback : (∃ pid, result = .ok pid) ∨ Reliable S.privileges → h.process.token = t) :
    Outcome S t base result (h'.log .unlocked) := by
  obtain ⟨hprocess, events, hevents, hongoing, hanswers⟩ := he
  have hsame : ∀ pid, Created pid (.unlocked :: events) ↔ Created pid events := fun pid =>
    created_cons fun _ h => by cases h
  refine ⟨⟨.unlocked :: events, congrArg (Event.unlocked :: ·) hevents, ⟨fun pid hr => ?_,
    fun e hr pid hk => ?_, fun text hr => ?_⟩, ⟨⟨hongoing.requested.locked, hongoing.requested.held⟩,
    hongoing.orderly⟩, .inr ⟨events, rfl⟩⟩, fun hr => (congrArg _ hprocess).trans (hback hr)⟩
  · obtain ⟨hcreated, hterminated, hreaped, sessionId, hrecorded⟩ := hanswers.launched pid hr
    refine ⟨(hsame pid).mpr hcreated, ?_, ?_, sessionId, List.mem_cons_of_mem _ hrecorded⟩
    · simpa using hterminated
    · simpa using hreaped
  · exact (hanswers.failed e hr pid ((hsame pid).mp hk)).imp_left fun hmem =>
      List.mem_cons_of_mem _ hmem
  · exact List.mem_cons_of_mem _ (hanswers.reported text hr)

/-- What was done before the request is recorded. -/
theorem outcome_early {h' : Host} {error : TrustedInstallerLaunchError} {events : List Event}
    (hprocess : h'.process.token = t) (hevents : h'.events = events ++ base)
    (horderly : Orderly S t events) (hnone : ∀ pid, ¬ Created pid events)
    (hreleased : events = [] ∨ ∃ past, events = .unlocked :: past)
    (herror : ∀ text, error ≠ .launch text) : Outcome S t base (.error error) h' := by
  refine ⟨⟨events, hevents, ⟨fun pid hr => ?_, fun e hr pid hk => absurd hk (hnone pid),
    fun text hr => ?_⟩, horderly, hreleased⟩, fun _ => hprocess⟩
  · cases hr
  · cases hr
    exact absurd rfl (herror text)

theorem execute_spec : Act.wp (executeTrustedinstallerLaunch S (launcher S))
    (fun pid h' => Outcome S h.process.token h.events (.ok pid) h')
    (fun e h' => Outcome S h.process.token h.events (.error e) h') h := by
  rw [executeTrustedinstallerLaunch, Act.wp_bind, Act.wp_mapErr,
    acquireTrustedinstallerOperationGuard, Act.wp_of]
  cases S.guard h.calls with
  | some error =>
    have hnone : h.called.events = [] ++ h.events := rfl
    exact outcome_early rfl hnone trivial (fun pid ⟨_, hmem⟩ => by cases hmem)
      (.inl rfl) fun _ h => by cases h
  | none =>
    show Act.wp _ _ _ (h.called.log .locked)
    rw [Act.wp_ensuring, Act.wp_bind, Act.wp_mapErr]
    have hlocked : (h.called.log .locked).events = [.locked] ++ h.events := rfl
    refine Act.wp_mono (record_spec _ _ _) ?_ ?_
    · rintro _ h₁ ⟨hprocess₁, hevents₁⟩
      have hbegun : h₁.events = begun ++ h.events := hevents₁
      rw [Act.wp_bind, Act.wp_attempt]
      have htoken₁ : h₁.process.token = h.process.token := congrArg _ hprocess₁
      refine Act.wp_mono launcher_spec ?_ ?_
      · rintro ⟨p, sessionId⟩ h₂ ⟨hstarted, htoken₂⟩
        rw [hbegun, htoken₁] at hstarted
        rw [htoken₁] at htoken₂
        obtain ⟨recent, hevents₂, hrecent⟩ := hstarted.above
        exact Act.wp_mono (recordSuccess_spec hevents₂ hrecent)
          (fun _ _ he => he.outcome fun _ => htoken₂) fun _ _ he => he.outcome fun _ => htoken₂
      · rintro text h₂ ⟨hstopped, hback₂⟩
        rw [hbegun, htoken₁] at hstopped
        rw [htoken₁] at hback₂
        obtain ⟨recent, hevents₂, hrecent⟩ := hstopped.above
        refine Act.wp_mono (recordFailure_spec hevents₂ hrecent) (fun _ _ hfalse => hfalse.elim)
          fun _ _ he => he.outcome fun hr => hback₂ (hr.resolve_left ?_)
        rintro ⟨pid, hok⟩
        cases hok
    · rintro error h₁ hrecorded
      have hearly : ∀ past : List Event, past = [.locked] ∨ past = begun →
          h₁.process = h.process → h₁.events = past ++ h.events →
          Outcome S h.process.token h.events (.error (.requestAudit error)) (h₁.log .unlocked) := by
        rintro past hpast hprocess hevents
        have hreleased : (h₁.log .unlocked).events = (.unlocked :: past) ++ h.events :=
          congrArg (Event.unlocked :: ·) hevents
        refine outcome_early (congrArg _ hprocess) hreleased ?_ ?_ (.inr ⟨past, rfl⟩)
          fun _ h => by cases h
        · rcases hpast with rfl | rfl
          · exact ⟨by simp [Permitted], rfl, trivial⟩
          · have hongoing : Ongoing S h.process.token begun := begun_ongoing
            exact ⟨⟨hongoing.requested.locked, hongoing.requested.held⟩, hongoing.orderly⟩
        · rintro pid hk
          rw [created_cons fun _ h => by cases h] at hk
          rcases hpast with rfl | rfl
          · obtain ⟨_, hmem⟩ := hk
            simp at hmem
          · exact not_created_begun pid hk
      rcases hrecorded with ⟨hprocess, hsame⟩ | ⟨hprocess, hadds⟩
      · exact hearly _ (.inl rfl) hprocess hsame
      · exact hearly _ (.inr rfl) hprocess hadds

end Launch

end WinProfile.TrustedInstaller
