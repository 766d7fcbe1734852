/-
  File:      WinProfile/App/Startup.lean
  Subject:   app-ui/src/main.rs and startup.rs: the startup view, its workers, and the consent that
             a fresh recovery needs.

  * `Session` -- `StartupRuntime`, the startup properties of the window, the threads that were
    spawned and the callbacks in the event loop, and the trace of what happened.
  * `startOrRetry`, `presentStartupDecision`, `presentStartupError` -- the handlers, as the source
    has them; each runs on the UI thread and is one step.
  * `Step` -- what the operator, the workers and the event loop can do. The view disables some
    controls; here every one can be used at any time, and a callback may be lost.
  * `consent_before_recovery` -- what the trace of every run says about the recoveries in it.
-/
import WinProfile.App.Operations
import WinProfile.Lib.Trace

namespace WinProfile.Startup

open WinProfile.Trace

/-! ## 1. The view and the runtime -/

/-- `LegacyStorageRecovery`; the inspections that return one number them. It is not `Clone`. -/
structure Recovery where
  number : Nat
  reason : String
  resume : Bool
  deriving DecidableEq, Repr

/-- `requires_fresh_consent`. -/
def requiresFreshConsent (isResume : Bool) : Bool := !isResume

/-- `StartupPresentation`. -/
inductive StartupPresentation where
  | checking
  | freshRecovery (reason : String)
  | resumeRecovery (reason : String)
  | working
  | error (details : String)
  deriving DecidableEq, Repr

/-- A text of the view: as it is, or by its key in the catalogue. -/
inductive Text where
  | raw (text : String)
  | key (key : String)
  | keyWith (key : String) (values : List (String × String))
  deriving DecidableEq, Repr

/-- The texts of the startup view. -/
structure Texts where
  title : Text
  message : Text
  details : Text
  actionText : Text
  quitText : Text
  consentText : Text
  deriving DecidableEq, Repr

/-- `StartupPresentation::apply`. -/
def StartupPresentation.apply (p : StartupPresentation) : Texts :=
  let texts title message details action : Texts :=
    { title := .key title, message := .key message, details, actionText := .key action,
      quitText := .key "startup.quit", consentText := .key "startup.legacy.consent" }
  match p with
  | .checking =>
    texts "startup.checking.title" "startup.checking.message" (.raw "") "startup.retry"
  | .freshRecovery reason =>
    texts "startup.legacy.title" "startup.legacy.message"
      (.keyWith "startup.legacy.details" [("reason", reason)]) "startup.legacy.action"
  | .resumeRecovery reason =>
    texts "startup.resume.title" "startup.legacy.message"
      (.keyWith "startup.legacy.details" [("reason", reason)]) "startup.resume.action"
  | .working =>
    texts "startup.working.title" "startup.working.message" (.key "startup.working.details")
      "startup.retry"
  | .error details =>
    texts "startup.error.title" "startup.error.message" (.raw details) "startup.retry"

/-- The properties of `MainWindow` that the startup view reads and writes. -/
structure View where
  visible : Bool := true
  busy : Bool := true
  consentRequired : Bool := false
  consentGranted : Bool := false
  texts : Texts := StartupPresentation.apply .checking
  statusMessage : Text := .raw ""
  windowShown : Bool := true

/-- `StartupDecision`; the controller itself is not looked at here. -/
inductive Decision where
  | ready
  | recovery (r : Recovery)
  deriving DecidableEq, Repr

/-- What a worker sends to the event loop. -/
abbrev Outcome := Except String Decision

inductive Event where
  /-- A recovery was put into its slot and shown. -/
  | presented (r : Recovery)
  /-- The operator changed the checkbox. -/
  | consent (granted : Bool)
  /-- A click on the action started a worker, which was given this. -/
  | proceeded (task : Option Recovery)
  /-- A worker called `inspect`. -/
  | inspects
  /-- A worker called `complete_recovery`. -/
  | completes (r : Recovery)
  | failed (details : String)
  | ready
  deriving DecidableEq, Repr

/-- The startup view with everything that acts on it. -/
structure Session where
  -- `StartupRuntime`
  controller : Bool := false
  recovery : Option Recovery := none
  presentation : StartupPresentation := .checking
  startupBusy : Bool := true
  controllerPoisoned : Bool := false
  recoveryPoisoned : Bool := false
  presentationPoisoned : Bool := false
  view : View := {}
  /-- The single-shot timer of `main` has not fired. -/
  timer : Bool := true
  /-- Threads that have not come to their call. -/
  spawned : List (Option Recovery) := []
  /-- Threads inside `inspect` or `complete_recovery`. -/
  calling : List (Option Recovery) := []
  /-- Callbacks in the event loop. -/
  queued : List Outcome := []
  /-- The number of the next recovery. -/
  next : Nat := 0
  trace : List Event := []

namespace Session

def note (s : Session) (e : Event) : Session := { s with trace := s.trace ++ [e] }

/-! ## 2. The handlers -/

/-- `present_startup`. -/
def presentStartup (s : Session) (p : StartupPresentation) : Session :=
  { s with
    presentation := if s.presentationPoisoned then s.presentation else p
    view := { s.view with texts := p.apply } }

/-- `spawn_startup_work`, up to the spawn. -/
def spawnStartupWork (s : Session) (recovery : Option Recovery) : Session :=
  { s with spawned := s.spawned ++ [recovery] }

/-- `runtime.recovery.lock().ok().and_then(|mut recovery| recovery.take())`: what is taken. -/
def takenRecovery (s : Session) : Option Recovery := if s.recoveryPoisoned then none else s.recovery

/-- The same call: what stays in the slot. -/
def leftRecovery (s : Session) : Option Recovery := if s.recoveryPoisoned then s.recovery else none

/-- `start_or_retry`. -/
def startOrRetry (s : Session) : Session :=
  if s.view.consentRequired && !s.view.consentGranted then s
  else if s.startupBusy then s
  else
    let working := presentStartup
      { s with startupBusy := true, view := { s.view with busy := true } } .working
    spawnStartupWork
      ({ working with recovery := s.leftRecovery }.note (.proceeded s.takenRecovery))
      s.takenRecovery

/-- `present_startup_error`. -/
def presentStartupError (s : Session) (error : String) : Session :=
  (presentStartup
    { s with
      recovery := s.leftRecovery
      startupBusy := false
      view := { s.view with
        visible := true, busy := false, consentRequired := false, consentGranted := true } }
    (.error error)).note (.failed error)

/-- `present_startup_decision`. -/
def presentStartupDecision (s : Session) : Decision → Session
  | .ready =>
    if s.controllerPoisoned then s.presentStartupError "startup controller state is unavailable"
    else
      { s with
        controller := true
        startupBusy := false
        view := { s.view with
          visible := false, busy := false, consentRequired := false, consentGranted := true
          statusMessage := .key "status.ready" } }.note .ready
  | .recovery r =>
    if s.recoveryPoisoned then s.presentStartupError "startup recovery state is unavailable"
    else
      (presentStartup
        { s with
          recovery := some r
          startupBusy := false
          view := { s.view with
            visible := true
            busy := false
            consentRequired := requiresFreshConsent r.resume
            consentGranted := !requiresFreshConsent r.resume } }
        (if r.resume then .resumeRecovery r.reason else .freshRecovery r.reason)).note (.presented r)

/-- The callback of `spawn_startup_work`. -/
def present (s : Session) : Outcome → Session
  | .ok decision => s.presentStartupDecision decision
  | .error details => s.presentStartupError details

/-- The checkbox, bound to `startup-consent-granted` both ways. -/
def changeConsent (s : Session) (granted : Bool) : Session :=
  { s with view := { s.view with consentGranted := granted } }.note (.consent granted)

/-- The handler of `startup-quit`. -/
def startupQuit (s : Session) : Session :=
  if s.startupBusy then s else { s with view := { s.view with windowShown := false } }

/-- The handler of `close-requested`; `answer` is that of the controller. -/
def closeRequested (s : Session) (answer : CloseRequestResponse) : Session :=
  if s.startupBusy then
    { s with view := { s.view with statusMessage := .key "startup.close_blocked" } }
  else if s.controllerPoisoned then s
  else if s.controller && answer == .keepWindowShown then s
  else { s with view := { s.view with windowShown := false } }

/-- The handler of `change-locale`, as far as the startup view is concerned. -/
def changeLocale (s : Session) : Session :=
  if s.view.visible && !s.presentationPoisoned then
    { s with view := { s.view with texts := s.presentation.apply } }
  else s

/-- What `spawn_startup_work` calls in its thread. -/
def workEvent : Option Recovery → Event
  | some r => .completes r
  | none => .inspects

end Session

open Session

/-! ## 3. Steps -/

/-- **One step** of the UI thread, a worker or the event loop. -/
inductive Step : Session → Session → Prop where
  -- the UI thread
  | timer {s} (hpending : s.timer = true) :
      Step s { s.spawnStartupWork none with timer := false }
  | proceed {s} : Step s s.startOrRetry
  | consent {s} (granted : Bool) : Step s (s.changeConsent granted)
  | quit {s} : Step s s.startupQuit
  | close {s} (answer : CloseRequestResponse) : Step s (s.closeRequested answer)
  | locale {s} : Step s s.changeLocale
  | deliver {s before outcome after} (hqueued : s.queued = before ++ outcome :: after) :
      Step s ({ s with queued := before ++ after }.present outcome)
  -- the window is gone when the callback runs
  | drop {s before outcome after} (hqueued : s.queued = before ++ outcome :: after) :
      Step s { s with queued := before ++ after }
  -- the workers
  | call {s before task after} (hspawned : s.spawned = before ++ task :: after) :
      Step s ({ s with spawned := before ++ after, calling := s.calling ++ [task] }.note
        (workEvent task))
  | found {s before after} (reason : String) (resume : Bool)
      (hcalling : s.calling = before ++ none :: after) :
      Step s { s with
        calling := before ++ after
        queued := s.queued ++ [.ok (.recovery ⟨s.next, reason, resume⟩)]
        next := s.next + 1 }
  | ready {s before task after} (hcalling : s.calling = before ++ task :: after) :
      Step s { s with calling := before ++ after, queued := s.queued ++ [.ok .ready] }
  | error {s before task after} (details : String)
      (hcalling : s.calling = before ++ task :: after) :
      Step s { s with calling := before ++ after, queued := s.queued ++ [.error details] }
  -- the thread panics, or the event loop does not take its callback
  | lost {s before task after} (hcalling : s.calling = before ++ task :: after) :
      Step s { s with calling := before ++ after }
  -- a panic inside a mutex
  | poisonController {s} : Step s { s with controllerPoisoned := true }
  | poisonRecovery {s} : Step s { s with recoveryPoisoned := true }
  | poisonPresentation {s} : Step s { s with presentationPoisoned := true }

/-- The sessions of every run, from the start of the event loop. -/
inductive Reach : Session → Prop where
  | start : Reach {}
  | step {s s'} (h : Reach s) (hs : Step s s') : Reach s'

/-! ## 4. What the handlers do -/

section Handlers

variable {s s' : Session}

/-- A click is ignored, or it starts the one worker, with what it took out of the slot. -/
theorem startOrRetry_cases (s : Session) :
    s.startOrRetry = s ∨
    s.startupBusy = false ∧ (s.view.consentRequired = true → s.view.consentGranted = true) ∧
      ∃ view presentation, s.startOrRetry = { s with
        recovery := s.leftRecovery
        startupBusy := true
        presentation := presentation
        view := view
        spawned := s.spawned ++ [s.takenRecovery]
        trace := s.trace ++ [.proceeded s.takenRecovery] } := by
  unfold startOrRetry
  split
  · exact .inl rfl
  · next hconsent =>
    split
    · exact .inl rfl
    · next hbusy =>
      refine .inr ⟨by simpa using hbusy, fun hrequired => ?_, _, _, rfl⟩
      rw [hrequired, Bool.true_and] at hconsent
      simpa using hconsent

/-- A callback presents an error, the controller, or a recovery. -/
theorem present_cases (s : Session) (outcome : Outcome) :
    (∃ details, s.present outcome = s.presentStartupError details) ∨
    outcome = .ok .ready ∧ (∃ view, s.present outcome = { s with
      controller := true
      startupBusy := false
      view := view
      trace := s.trace ++ [.ready] }) ∨
    ∃ r view presentation, outcome = .ok (.recovery r) ∧ s.recoveryPoisoned = false ∧
      view.consentRequired = !r.resume ∧ view.consentGranted = r.resume ∧
      s.present outcome = { s with
        recovery := some r
        startupBusy := false
        presentation := presentation
        view := view
        trace := s.trace ++ [.presented r] } := by
  rcases outcome with details | _ | r
  · exact .inl ⟨details, rfl⟩
  · by_cases hpoisoned : s.controllerPoisoned = true
    · exact .inl ⟨_, if_pos hpoisoned⟩
    · exact .inr (.inl ⟨rfl, _, if_neg hpoisoned⟩)
  · by_cases hpoisoned : s.recoveryPoisoned = true
    · exact .inl ⟨_, if_pos hpoisoned⟩
    · exact .inr (.inr ⟨r, _, _, rfl, by simpa using hpoisoned, rfl, Bool.not_not _,
        if_neg hpoisoned⟩)

/-- An error empties the slot, when it can, and asks for no consent. -/
theorem presentStartupError_eq (s : Session) (details : String) :
    ∃ view presentation, s.presentStartupError details = { s with
      recovery := s.leftRecovery
      startupBusy := false
      presentation := presentation
      view := view
      trace := s.trace ++ [.failed details] } := ⟨_, _, rfl⟩

/-- The handlers that touch nothing but the texts, the status and the window. -/
theorem startupQuit_eq (s : Session) : ∃ view, s.startupQuit = { s with view := view } ∧
    view.consentRequired = s.view.consentRequired ∧
    view.consentGranted = s.view.consentGranted := by
  unfold startupQuit
  split
  · exact ⟨s.view, rfl, rfl, rfl⟩
  · exact ⟨_, rfl, rfl, rfl⟩

theorem closeRequested_eq (s : Session) (answer : CloseRequestResponse) :
    ∃ view, s.closeRequested answer = { s with view := view } ∧
      view.consentRequired = s.view.consentRequired ∧
      view.consentGranted = s.view.consentGranted := by
  unfold closeRequested
  split
  · exact ⟨_, rfl, rfl, rfl⟩
  split
  · exact ⟨s.view, rfl, rfl, rfl⟩
  split
  · exact ⟨s.view, rfl, rfl, rfl⟩
  · exact ⟨_, rfl, rfl, rfl⟩

theorem changeLocale_eq (s : Session) : ∃ view, s.changeLocale = { s with view := view } ∧
    view.consentRequired = s.view.consentRequired ∧
    view.consentGranted = s.view.consentGranted := by
  unfold changeLocale
  split
  · exact ⟨_, rfl, rfl, rfl⟩
  · exact ⟨s.view, rfl, rfl, rfl⟩

end Handlers

/-! ## 5. One worker at a time -/

section InFlight

variable {s s' : Session}

/-- The workers that are to come, at work, or waiting to be heard. -/
def inFlight (s : Session) : Nat :=
  s.timer.toNat + s.spawned.length + s.calling.length + s.queued.length

/-- Nothing is in flight unless the flag says so, and never more than one worker. -/
def Guarded (s : Session) : Prop := inFlight s ≤ s.startupBusy.toNat

theorem Guarded.idle (h : Guarded s) (hbusy : s.startupBusy = false) : inFlight s = 0 := by
  rw [Guarded, hbusy] at h
  exact Nat.le_zero.mp h

theorem Guarded.busy (h : Guarded s) (hsome : 0 < inFlight s) :
    s.startupBusy = true ∧ inFlight s = 1 := by
  have hle := Bool.toNat_le s.startupBusy
  unfold Guarded at h
  cases hbusy : s.startupBusy with
  | false =>
    rw [hbusy] at h
    exact absurd h (by simpa using hsome.ne')
  | true =>
    rw [hbusy] at h hle
    exact ⟨rfl, by simp at h; omega⟩

theorem Guarded.fewer (h : Guarded s) (hbusy : s'.startupBusy = s.startupBusy)
    (hle : inFlight s' ≤ inFlight s) : Guarded s' := by
  rw [Guarded, hbusy]
  exact hle.trans h

/-- The worker that is heard was the only one. -/
theorem Guarded.heard {before after : List Outcome} {outcome : Outcome} (h : Guarded s)
    (hqueued : s.queued = before ++ outcome :: after) :
    s.startupBusy = true ∧ s.timer = false ∧ s.spawned = [] ∧ s.calling = [] ∧
      before ++ after = [] := by
  have hlen : s.queued.length = (before ++ after).length + 1 := by
    rw [hqueued]
    simp only [List.length_append, List.length_cons]
    omega
  obtain ⟨hbusy, hone⟩ := h.busy (by unfold inFlight; omega)
  unfold inFlight at hone
  refine ⟨hbusy, ?_, ?_, ?_, ?_⟩
  · cases ht : s.timer with
    | false => rfl
    | true => rw [ht, Bool.toNat_true] at hone; omega
  · exact List.eq_nil_of_length_eq_zero (by omega)
  · exact List.eq_nil_of_length_eq_zero (by omega)
  · exact List.eq_nil_of_length_eq_zero (by omega)

/-- **The step lemma** of the workers. -/
theorem Guarded.step (h : Guarded s) (hs : Step s s') : Guarded s' := by
  cases hs with
  | timer hpending =>
    refine h.fewer rfl ?_
    simp only [inFlight, spawnStartupWork, hpending, List.length_append, List.length_singleton,
      Bool.toNat_true, Bool.toNat_false]
    omega
  | proceed =>
    rcases startOrRetry_cases s with heq | ⟨hbusy, _, view, presentation, heq⟩
    · rwa [heq]
    · have hidle := h.idle hbusy
      rw [heq]
      simp only [Guarded, inFlight, List.length_append, List.length_singleton, Bool.toNat_true]
      unfold inFlight at hidle
      omega
  | consent granted => exact h
  | quit =>
    obtain ⟨view, heq, _⟩ := startupQuit_eq s
    rw [heq]
    exact h
  | close answer =>
    obtain ⟨view, heq, _⟩ := closeRequested_eq s answer
    rw [heq]
    exact h
  | locale =>
    obtain ⟨view, heq, _⟩ := changeLocale_eq s
    rw [heq]
    exact h
  | @deliver before outcome after hqueued =>
    obtain ⟨_, htimer, hspawned, hcalling, hrest⟩ := h.heard hqueued
    have hzero : ∀ {t : Session}, t.timer = s.timer → t.spawned = s.spawned →
        t.calling = s.calling → t.queued = before ++ after → Guarded t := by
      intro t h₁ h₂ h₃ h₄
      rw [Guarded, inFlight, h₁, h₂, h₃, h₄, htimer, hspawned, hcalling, hrest]
      exact Nat.zero_le _
    rcases present_cases { s with queued := before ++ after } outcome with
      ⟨details, heq⟩ | ⟨_, view, heq⟩ | ⟨r, view, presentation, _, _, _, _, heq⟩
    · obtain ⟨view, presentation, heq'⟩ :=
        presentStartupError_eq { s with queued := before ++ after } details
      rw [heq, heq']
      exact hzero rfl rfl rfl rfl
    · rw [heq]
      exact hzero rfl rfl rfl rfl
    · rw [heq]
      exact hzero rfl rfl rfl rfl
  | drop hqueued =>
    refine h.fewer rfl ?_
    simp only [inFlight, hqueued, List.length_append, List.length_cons]
    omega
  | call hspawned =>
    refine h.fewer rfl ?_
    simp only [inFlight, note, hspawned, List.length_append, List.length_cons, List.length_nil]
    omega
  | found reason resume hcalling | ready hcalling | error details hcalling | lost hcalling =>
    refine h.fewer rfl ?_
    simp only [inFlight, hcalling, List.length_append, List.length_cons, List.length_nil]
    omega
  | poisonController => exact h
  | poisonRecovery => exact h
  | poisonPresentation => exact h

end InFlight

/-! ## 6. A recovery is used once -/

section Tokens

variable {s s' : Session} {r : Recovery}

/-- How often a recovery was executed or still can be: in the trace, with a worker, in the slot, in
the event loop. -/
def uses (r : Recovery) (s : Session) : Nat :=
  s.trace.count (.completes r) + s.spawned.count (some r) + s.recovery.toList.count r +
    s.queued.count (.ok (.recovery r))

/-- Recoveries that no inspection has returned yet are nowhere, the others in one place at most. -/
def UsedOnce (s : Session) : Prop := ∀ r, uses r s ≤ if r.number < s.next then 1 else 0

theorem UsedOnce.fewer (h : UsedOnce s) (hnext : s'.next = s.next)
    (hle : ∀ r, uses r s' ≤ uses r s) : UsedOnce s' := fun r => by
  rw [hnext]
  exact (hle r).trans (h r)

/-- What is taken out of the slot is not left in it. -/
theorem count_taken_left (s : Session) (r : Recovery) :
    [s.takenRecovery].count (some r) + s.leftRecovery.toList.count r
      = s.recovery.toList.count r := by
  unfold takenRecovery leftRecovery
  split
  · simp
  · cases s.recovery with
    | none => simp
    | some r' => simp [List.count_singleton]

theorem count_left_le (s : Session) (r : Recovery) :
    s.leftRecovery.toList.count r ≤ s.recovery.toList.count r := by
  have := count_taken_left s r
  omega

theorem count_removed {α : Type} [BEq α] {before after : List α} {x : α} (a : α) :
    (before ++ x :: after).count a = (before ++ after).count a + [x].count a := by
  rw [List.count_append, List.count_append, List.count_cons, List.count_singleton]
  omega

theorem count_workEvent (task : Option Recovery) (r : Recovery) :
    [workEvent task].count (.completes r) = [task].count (some r) := by
  cases task with
  | none => simp [workEvent]
  | some r' => simp [workEvent, List.count_singleton]

/-- A callback that is heard puts its recovery into the slot, or loses it. -/
theorem uses_present (s : Session) (outcome : Outcome) (r : Recovery) :
    uses r (s.present outcome) ≤ uses r s + [outcome].count (.ok (.recovery r)) := by
  rcases present_cases s outcome with ⟨details, heq⟩ | ⟨_, view, heq⟩ |
    ⟨r', view, presentation, rfl, _, _, _, heq⟩
  · obtain ⟨view, presentation, heq'⟩ := presentStartupError_eq s details
    have hleft := count_left_le s r
    rw [heq, heq', uses, uses, List.count_append]
    simp only [List.count_singleton, beq_iff_eq, reduceCtorEq, if_false]
    omega
  · rw [heq, uses, uses, List.count_append]
    simp only [List.count_singleton, beq_iff_eq, reduceCtorEq, if_false]
    omega
  · rw [heq, uses, uses, List.count_append]
    simp only [List.count_singleton, beq_iff_eq, reduceCtorEq, if_false, Option.toList_some,
      Except.ok.injEq, Decision.recovery.injEq]
    omega

/-- **The step lemma** of the recoveries. -/
theorem UsedOnce.step (h : UsedOnce s) (hs : Step s s') : UsedOnce s' := by
  cases hs with
  | timer hpending =>
    refine h.fewer rfl fun r => ?_
    simp [uses, spawnStartupWork]
  | proceed =>
    rcases startOrRetry_cases s with heq | ⟨_, _, view, presentation, heq⟩
    · rwa [heq]
    · rw [heq]
      refine h.fewer rfl fun r => ?_
      have hslot := count_taken_left s r
      simp only [uses, List.count_append] at hslot ⊢
      simp only [List.count_singleton, beq_iff_eq, reduceCtorEq, if_false] at hslot ⊢
      omega
  | consent granted =>
    refine h.fewer rfl fun r => ?_
    simp [uses, changeConsent, note]
  | quit =>
    obtain ⟨view, heq, _⟩ := startupQuit_eq s
    rw [heq]
    exact h
  | close answer =>
    obtain ⟨view, heq, _⟩ := closeRequested_eq s answer
    rw [heq]
    exact h
  | locale =>
    obtain ⟨view, heq, _⟩ := changeLocale_eq s
    rw [heq]
    exact h
  | @deliver before outcome after hqueued =>
    have hnext : (present { s with queued := before ++ after } outcome).next = s.next := by
      rcases present_cases { s with queued := before ++ after } outcome with
        ⟨details, heq⟩ | ⟨_, view, heq⟩ | ⟨r, view, presentation, _, _, _, _, heq⟩
      · obtain ⟨view, presentation, heq'⟩ :=
          presentStartupError_eq { s with queued := before ++ after } details
        rw [heq, heq']
      · rw [heq]
      · rw [heq]
    refine h.fewer hnext fun r => (uses_present _ outcome r).trans ?_
    simp only [uses]
    rw [hqueued, count_removed]
    omega
  | drop hqueued =>
    refine h.fewer rfl fun r => ?_
    simp only [uses]
    rw [hqueued, count_removed]
    omega
  | @call before task after hspawned =>
    refine h.fewer rfl fun r => ?_
    have htrace : (s.trace ++ [workEvent task]).count (.completes r)
        = s.trace.count (.completes r) + [task].count (some r) := by
      rw [List.count_append, count_workEvent]
    simp only [uses, note]
    rw [htrace, hspawned, count_removed]
    omega
  | found reason resume hcalling =>
    intro r
    have hr := h r
    simp only [uses] at hr ⊢
    rw [List.count_append, List.count_singleton]
    by_cases hnumber : r.number = s.next
    · have hbefore : ¬ r.number < s.next := by omega
      have hafter : r.number < s.next + 1 := by omega
      rw [if_neg hbefore] at hr
      rw [if_pos hafter]
      split <;> omega
    · have hne : (Except.ok (Decision.recovery ⟨s.next, reason, resume⟩) : Outcome)
          ≠ .ok (.recovery r) := by
        rintro ⟨⟩
        exact hnumber rfl
      rw [if_neg (by simpa using hne)]
      refine hr.trans ?_
      split <;> split <;> omega
  | ready hcalling | error details hcalling =>
    refine h.fewer rfl fun r => ?_
    simp [uses]
  | lost hcalling => exact h
  | poisonController => exact h
  | poisonRecovery => exact h
  | poisonPresentation => exact h

end Tokens

/-! ## 7. Consent -/

section Consent

variable {s s' : Session} {r : Recovery} {t : List Event} {e : Event}

/-- The operator's last word on the checkbox was yes, and it was said after `r` was shown. -/
def Consented (r : Recovery) : List Event → Prop :=
  Since (fun past e => e = .consent true ∧ .presented r ∈ past) fun e => ∀ g, e ≠ .consent g

/-- The last click that started a worker gave it `r`, after consent when `r` is a fresh one. -/
def Started (r : Recovery) : List Event → Prop :=
  Since (fun past e => e = .proceeded (some r) ∧ (r.resume = false → Consented r past))
    fun e => ∀ task, e ≠ .proceeded task

/-- No click has started a worker since the last error. -/
def Failed : List Event → Prop :=
  Since (fun _ e => ∃ details, e = .failed details) fun e => ∀ task, e ≠ .proceeded task

theorem Failed.of_concat (h : Failed (t ++ [e])) (he : ∀ details, e ≠ .failed details) :
    Failed t := by
  rcases since_concat.mp h with ⟨details, hd⟩ | ⟨_, h⟩
  · exact absurd hd (he details)
  · exact h

/-- A worker is at its call only with what the last click gave it. -/
def CalledRight : List Event → Prop :=
  Throughout fun past e => ∀ r, e = .completes r → Started r past

/-- The first click after an error gives its worker nothing. -/
def RetriedRight : List Event → Prop :=
  Throughout fun past e => ∀ task, e = .proceeded task → Failed past → task = none

/-- **The invariant of consent**: what can be taken out of the slot was shown, and a fresh recovery
cannot be taken unless the operator has agreed to it since. -/
structure Asked (s : Session) : Prop where
  slot : ∀ r, s.takenRecovery = some r → s.startupBusy = false ∧ .presented r ∈ s.trace ∧
    (r.resume = false → s.view.consentRequired = true ∧
      (s.view.consentGranted = true → Consented r s.trace))
  spawned : ∀ r, some r ∈ s.spawned → Started r s.trace
  called : CalledRight s.trace
  failed : Failed s.trace → s.startupBusy = false ∧ s.takenRecovery = none
  retried : RetriedRight s.trace

theorem Asked.start : Asked {} where
  slot r h := by cases h
  spawned r h := nomatch h
  called := throughout_nil
  failed h := absurd h not_since_nil
  retried := throughout_nil

/-- One more event that is neither a call nor a click. -/
theorem Asked.concat (h : Asked s) (hcall : ∀ r, e ≠ .completes r)
    (hclick : ∀ task, e ≠ .proceeded task) :
    (∀ r, some r ∈ s.spawned → Started r (s.trace ++ [e])) ∧ CalledRight (s.trace ++ [e]) ∧
      RetriedRight (s.trace ++ [e]) :=
  ⟨fun r hr => (h.spawned r hr).concat hclick, h.called.concat fun r he => absurd he (hcall r),
    h.retried.concat fun task he => absurd he (hclick task)⟩

/-- A change of the view that leaves the checkbox alone. -/
theorem Asked.view (h : Asked s) {view : View} {shown : StartupPresentation}
    (hrequired : view.consentRequired = s.view.consentRequired)
    (hgranted : view.consentGranted = s.view.consentGranted) :
    Asked { s with view := view, presentation := shown } where
  slot r hr := by
    show s.startupBusy = false ∧ _ ∧ (_ → view.consentRequired = _ ∧ (view.consentGranted = _ → _))
    rw [hrequired, hgranted]
    exact h.slot r hr
  spawned := h.spawned
  called := h.called
  failed := h.failed
  retried := h.retried

/-- The slot keeps nothing that could be taken again. -/
theorem taken_left (s : Session) {view : View} {shown : StartupPresentation} {busy : Bool}
    {spawned : List (Option Recovery)} {trace : List Event} :
    takenRecovery { s with
      recovery := s.leftRecovery, startupBusy := busy, presentation := shown, view := view
      spawned := spawned, trace := trace } = none := by
  simp only [takenRecovery, leftRecovery]
  cases s.recoveryPoisoned <;> rfl

/-- A click on the action. -/
theorem Asked.proceed (h : Asked s) (hg : Guarded s) : Asked s.startOrRetry := by
  rcases startOrRetry_cases s with heq | ⟨hbusy, hconsent, view, presentation, heq⟩
  · rwa [heq]
  rw [heq]
  have hnone : s.spawned = [] := by
    have hidle := hg.idle hbusy
    unfold inFlight at hidle
    exact List.eq_nil_of_length_eq_zero (by omega)
  refine ⟨fun r hr => ?_, fun r hr => ?_, ?_, fun hf => ?_, ?_⟩
  · rw [taken_left s] at hr
    cases hr
  · rw [hnone] at hr
    have htaken : s.takenRecovery = some r := (List.mem_singleton.mp hr).symm
    refine since_concat.mpr (.inl ⟨by rw [htaken], fun hfresh => ?_⟩)
    obtain ⟨_, _, hask⟩ := h.slot r htaken
    obtain ⟨hrequired, hgranted⟩ := hask hfresh
    exact hgranted (hconsent hrequired)
  · exact h.called.concat fun r he => by cases he
  · rcases since_concat.mp hf with ⟨details, hd⟩ | ⟨hclick, _⟩
    · cases hd
    · exact absurd rfl (hclick s.takenRecovery)
  · refine h.retried.concat fun task he hfailed => ?_
    cases he
    exact (h.failed hfailed).2

/-- The operator changes the checkbox. -/
theorem Asked.consent (h : Asked s) (granted : Bool) : Asked (s.changeConsent granted) := by
  obtain ⟨hspawned, hcalled, hretried⟩ :=
    h.concat (e := .consent granted) (fun _ he => nomatch he) (fun _ he => nomatch he)
  refine ⟨fun r hr => ?_, hspawned, hcalled, fun hf => ?_, hretried⟩
  · obtain ⟨hbusy, hshown, hask⟩ := h.slot r hr
    refine ⟨hbusy, List.mem_append_left _ hshown, fun hfresh => ⟨(hask hfresh).1, ?_⟩⟩
    rintro (rfl : granted = true)
    exact since_concat.mpr (.inl ⟨rfl, hshown⟩)
  · exact h.failed (Failed.of_concat hf fun _ he => nomatch he)

/-- A callback: the flag was up, so nothing was to be taken and no worker is left. -/
theorem Asked.deliver {before after : List Outcome} {outcome : Outcome} (h : Asked s)
    (hg : Guarded s) (hqueued : s.queued = before ++ outcome :: after) :
    Asked (present { s with queued := before ++ after } outcome) := by
  obtain ⟨hbusy, _, hspawned, _⟩ := hg.heard hqueued
  have hfailed : ∀ {e}, Failed (s.trace ++ [e]) → (∀ details, e ≠ .failed details) → False := by
    intro e hf he
    have := (h.failed (hf.of_concat he)).1
    rw [hbusy] at this
    cases this
  have hslot : ∀ r, s.takenRecovery ≠ some r := by
    intro r hr
    have := (h.slot r hr).1
    rw [hbusy] at this
    cases this
  rcases present_cases { s with queued := before ++ after } outcome with
    ⟨details, heq⟩ | ⟨_, view, heq⟩ |
    ⟨r, view, presentation, _, hsound, hrequired, hgranted, heq⟩
  · obtain ⟨view, presentation, heq'⟩ :=
      presentStartupError_eq { s with queued := before ++ after } details
    obtain ⟨hmore, hcalled, hretried⟩ :=
      h.concat (e := .failed details) (fun _ he => nomatch he) (fun _ he => nomatch he)
    rw [heq, heq']
    have htaken := @taken_left { s with queued := before ++ after } view presentation false
      s.spawned (s.trace ++ [.failed details])
    refine ⟨fun r hr => ?_, hmore, hcalled, fun _ => ⟨rfl, htaken⟩, hretried⟩
    rw [htaken] at hr
    cases hr
  · obtain ⟨hmore, hcalled, hretried⟩ :=
      h.concat (e := .ready) (fun _ he => nomatch he) (fun _ he => nomatch he)
    rw [heq]
    exact ⟨fun r hr => absurd hr (hslot r), hmore, hcalled,
      fun hf => (hfailed hf fun _ he => nomatch he).elim, hretried⟩
  · obtain ⟨hmore, hcalled, hretried⟩ :=
      h.concat (e := .presented r) (fun _ he => nomatch he) (fun _ he => nomatch he)
    rw [heq]
    refine ⟨fun r' hr => ?_, hmore, hcalled,
      fun hf => (hfailed hf fun _ he => nomatch he).elim, hretried⟩
    have hopen : s.recoveryPoisoned = false := hsound
    simp only [takenRecovery, hopen] at hr
    cases hr
    refine ⟨rfl, List.mem_append_right _ (List.mem_singleton_self _), fun hfresh => ⟨?_, ?_⟩⟩
    · show view.consentRequired = true
      rw [hrequired, hfresh]
      rfl
    · intro hyes
      have : view.consentGranted = true := hyes
      rw [hgranted, hfresh] at this
      cases this

/-- A worker comes to its call. -/
theorem Asked.call {before after : List (Option Recovery)} {task : Option Recovery} (h : Asked s)
    (hg : Guarded s) (hspawned : s.spawned = before ++ task :: after) :
    Asked ({ s with spawned := before ++ after, calling := s.calling ++ [task] }.note
      (workEvent task)) := by
  have hlen : s.spawned.length = (before ++ after).length + 1 := by
    rw [hspawned]
    simp only [List.length_append, List.length_cons]
    omega
  obtain ⟨hbusy, _⟩ := hg.busy (by unfold inFlight; omega)
  have hclick : ∀ w, workEvent task ≠ .proceeded w := by
    intro w he
    cases task <;> cases he
  refine ⟨fun r hr => ?_, fun r hr => ?_, ?_, fun hf => ?_, ?_⟩
  · have := (h.slot r hr).1
    rw [hbusy] at this
    cases this
  · refine (h.spawned r ?_).concat hclick
    rw [hspawned]
    rcases List.mem_append.mp hr with hr | hr
    · exact List.mem_append_left _ hr
    · exact List.mem_append_right _ (List.mem_cons_of_mem _ hr)
  · refine h.called.concat fun r he => h.spawned r ?_
    obtain rfl : task = some r := by
      cases task with
      | none => cases he
      | some r' => cases he; rfl
    rw [hspawned]
    exact List.mem_append_right _ List.mem_cons_self
  · have := (h.failed (Failed.of_concat hf fun details he => by cases task <;> cases he)).1
    rw [hbusy] at this
    cases this
  · exact h.retried.concat fun w he => absurd he (hclick w)

/-- **The step lemma** of consent. -/
theorem Asked.step (h : Asked s) (hg : Guarded s) (hs : Step s s') : Asked s' := by
  cases hs with
  | timer hpending =>
    refine ⟨h.slot, fun r hr => h.spawned r ?_, h.called, h.failed, h.retried⟩
    rcases List.mem_append.mp hr with hr | hr
    · exact hr
    · cases List.mem_singleton.mp hr
  | proceed => exact h.proceed hg
  | consent granted => exact h.consent granted
  | quit =>
    obtain ⟨view, heq, hrequired, hgranted⟩ := startupQuit_eq s
    rw [heq]
    exact h.view hrequired hgranted
  | close answer =>
    obtain ⟨view, heq, hrequired, hgranted⟩ := closeRequested_eq s answer
    rw [heq]
    exact h.view hrequired hgranted
  | locale =>
    obtain ⟨view, heq, hrequired, hgranted⟩ := changeLocale_eq s
    rw [heq]
    exact h.view hrequired hgranted
  | deliver hqueued => exact h.deliver hg hqueued
  | call hspawned => exact h.call hg hspawned
  | drop _ | found _ _ _ | ready _ | error _ _ | lost _ | poisonController | poisonPresentation =>
    exact ⟨h.slot, h.spawned, h.called, h.failed, h.retried⟩
  | poisonRecovery =>
    exact ⟨fun _ hr => (nomatch hr), h.spawned, h.called, fun hf => ⟨(h.failed hf).1, rfl⟩,
      h.retried⟩

end Consent

/-! ## 8. Every run -/

/-- **The run lemma.** -/
theorem Reach.sound {s : Session} (h : Reach s) : Guarded s ∧ UsedOnce s ∧ Asked s := by
  induction h with
  | start => exact ⟨Nat.le_refl 1, fun r => Nat.zero_le _, .start⟩
  | step _ hs ih =>
    obtain ⟨hguarded, hused, hasked⟩ := ih
    exact ⟨hguarded.step hs, hused.step hs, hasked.step hguarded hs⟩

/-- **No fresh detachment without consent.** In every run of the startup view: a worker calls
`complete_recovery` only with the recovery that the last click on the action took, and when that is
a fresh one, the operator's last word on the checkbox before this click was yes and came after this
recovery was presented; at most one worker is in flight; no recovery is executed twice; and the
first click after an error starts an inspection. -/
theorem consent_before_recovery {s : Session} (h : Reach s) :
    (∀ past later r, s.trace = past ++ .completes r :: later →
      ∃ before since, past = before ++ .proceeded (some r) :: since ∧
        (∀ task, .proceeded task ∉ since) ∧
        (r.resume = false → ∃ a b c,
          before = a ++ .presented r :: b ++ .consent true :: c ∧ ∀ granted, .consent granted ∉ c)) ∧
    inFlight s ≤ 1 ∧
    (∀ r, s.trace.count (.completes r) ≤ 1) ∧
    ∀ past details since task later,
      s.trace = past ++ .failed details :: since ++ .proceeded task :: later →
      (∀ task, .proceeded task ∉ since) → task = none := by
  obtain ⟨hguarded, hused, hasked⟩ := h.sound
  refine ⟨fun past later r htrace => ?_, ?_, fun r => ?_, ?_⟩
  · obtain ⟨before, _, since, hpast, ⟨rfl, hconsent⟩, hsince⟩ := hasked.called past _ later htrace r rfl
    refine ⟨before, since, hpast, fun task hmem => hsince _ hmem task rfl, fun hfresh => ?_⟩
    obtain ⟨front, _, c, hbefore, ⟨rfl, hshown⟩, hc⟩ := hconsent hfresh
    obtain ⟨a, b, rfl⟩ := List.append_of_mem hshown
    exact ⟨a, b, c, hbefore, fun granted hmem => hc _ hmem granted rfl⟩
  · exact hguarded.trans (Bool.toNat_le _)
  · have := hused r
    unfold uses at this
    split at this <;> omega
  · intro past details since task later htrace hsince
    refine hasked.retried _ _ later htrace task rfl ?_
    exact ⟨past, _, since, rfl, ⟨details, rfl⟩, fun x hx w he => hsince w (he ▸ hx)⟩

/-- A legacy root that the first inspection found. -/
def sampleRecovery : Recovery := ⟨0, "legacy root", false⟩

/-- It is shown, the operator agrees and clicks, and the worker comes to its call. -/
theorem sampleRecovery_reach : ∃ s, Reach s ∧ s.trace =
    [.inspects, .presented sampleRecovery, .consent true, .proceeded (some sampleRecovery),
      .completes sampleRecovery] := by
  have timer := Reach.start.step (.timer rfl)
  have inspects := timer.step (@Step.call _ [] none [] rfl)
  have found := inspects.step (@Step.found _ [] [] "legacy root" false rfl)
  have presented := found.step (@Step.deliver _ [] (.ok (.recovery sampleRecovery)) [] rfl)
  have agreed := presented.step (.consent true)
  have clicked := agreed.step .proceed
  have completes := clicked.step (@Step.call _ [] (some sampleRecovery) [] rfl)
  exact ⟨_, completes, rfl⟩

theorem consent_before_recovery_sample : ∃ s : Session, inFlight s ≤ 1 ∧
    s.trace.count (.completes sampleRecovery) = 1 ∧
    ∃ past before since a b c, s.trace = past ++ [.completes sampleRecovery] ∧
      past = before ++ .proceeded (some sampleRecovery) :: since ∧
      before = a ++ .presented sampleRecovery :: b ++ .consent true :: c := by
  obtain ⟨s, hs, htrace⟩ := sampleRecovery_reach
  obtain ⟨hcalled, hone, _, _⟩ := consent_before_recovery hs
  obtain ⟨before, since, hpast, _, hfresh⟩ := hcalled
    [.inspects, .presented sampleRecovery, .consent true, .proceeded (some sampleRecovery)] []
    sampleRecovery htrace
  obtain ⟨a, b, c, hbefore, _⟩ := hfresh rfl
  refine ⟨s, hone, ?_, _, before, since, a, b, c, htrace, hpast, hbefore⟩
  rw [htrace]
  decide

end WinProfile.Startup
