/-
  File:      WinProfile/App/Operations.lean
  Subject:   app-ui/src/controller.rs: the cells that the UI thread and the workers share, and
             every step that reads or writes one of them.

  * `Controller` -- `OperationState`, the slot of the cancellation token and its mutex, and how far
    every operation has come since its `begin_operation`.
  * `Step` -- one constructor for one atomic access; what a call decides before it (the checks of
    `start_migration`) is `Desk.startMigration`. A section under the mutex that makes one access is
    one step, the two longer ones (publication and close) are several.
  * `Reach` -- runs in any order of steps, with what happened; `OneCall` is the run of a UI thread.
  * `one_operation` -- the operation is idle exactly when none is open, in every run in which no
    incomplete start releases the operation of another; `incomplete_start_releases` -- one that does.
-/
import WinProfile.App.Desk

namespace WinProfile

/-! ## 1. The shared cells -/

/-- How far an operation has come: its call, its worker, and the completion on the UI thread. -/
inductive Stage where
  | unborn
  /-- `begin_operation` returned true. -/
  | begun
  /-- `start_migration` has published the token. -/
  | published
  | running
  /-- The worker of a migration has taken its token out of the slot. -/
  | cleared
  /-- `finish` has stored `Idle` and not yet taken the close flag. -/
  | stored
  /-- `finish` has returned; the completion waits in the event loop. -/
  | finished (closeAfterOperation : Bool)
  /-- As `stored`, in a call that found the mutex poisoned. -/
  | aborted
  | ended
  deriving DecidableEq, Repr

/-- Between a successful `begin_operation` and the `finish_operation` of the same operation. -/
def Stage.isOpen : Stage → Bool
  | .begun | .published | .running | .cleared => true
  | _ => false

/-- Open, or inside its `finish_operation`. -/
def Stage.isUnderWay : Stage → Bool
  | .stored | .aborted => true
  | stage => stage.isOpen

structure Operation where
  kind : OperationKind := .idle
  stage : Stage := .unborn
  /-- The `AtomicBool` that a migration polls. -/
  cancelled : Bool := false
  deriving DecidableEq, Repr

/-- Who is inside the mutex of the token slot, and where. -/
inductive CriticalSection where
  | free
  /-- `start_migration` of the operation `n`, before it looks at the close flag. -/
  | publishing (n : Nat)
  | checked (n : Nat)
  /-- `handle_close_requested` that saw the operation `n`, before it sets the close flag. -/
  | closing (n : Nat)
  | flagged (n : Nat)
  deriving DecidableEq, Repr

structure Controller where
  active : OperationKind := .idle
  closeAfterFinish : Bool := false
  slot : Option Nat := none
  inside : CriticalSection := .free
  poisoned : Bool := false
  /-- Close requests that saw a migration and are not in the mutex yet. -/
  seen : List Nat := []
  /-- Incomplete starts inside `finish_operation`. -/
  incomplete : Nat := 0
  ops : Nat → Operation := fun _ => {}
  next : Nat := 0

namespace Controller

def stage (s : Controller) (n : Nat) : Stage := (s.ops n).stage

def kind (s : Controller) (n : Nat) : OperationKind := (s.ops n).kind

def cancelled (s : Controller) (n : Nat) : Bool := (s.ops n).cancelled

/-- **The operation `n` is open.** -/
def Open (s : Controller) (n : Nat) : Prop := (s.stage n).isOpen = true

def UnderWay (s : Controller) (n : Nat) : Prop := (s.stage n).isUnderWay = true

def setStage (s : Controller) (n : Nat) (stage : Stage) : Controller :=
  { s with ops := Function.update s.ops n { s.ops n with stage } }

/-- The migration `n` will see that it is cancelled. -/
def cancel (s : Controller) (n : Nat) : Controller :=
  { s with ops := Function.update s.ops n { s.ops n with cancelled := true } }

/-- The token in the slot is set, when there is one. -/
def cancelSlot (s : Controller) : Controller :=
  match s.slot with
  | some n => s.cancel n
  | none => s

/-- `try_begin` with success. -/
def tryBegin (s : Controller) (kind : OperationKind) : Controller :=
  { s with
    active := kind
    ops := Function.update s.ops s.next { kind, stage := .begun }
    next := s.next + 1 }

end Controller

/-- `CloseRequestResponse`. -/
inductive CloseRequestResponse where
  | hideWindow | keepWindowShown
  deriving DecidableEq, Repr

/-- What happened in a step; operations are numbered in the order in which they begin. -/
inductive Event where
  | began (kind : OperationKind) (n : Nat)
  | refused (kind : OperationKind)
  | spawned (n : Nat)
  | entered (n : Nat)
  | checked (n : Nat) (deferred : Bool)
  | published (n : Nat)
  /-- The first half of `finish`, by an operation or by an incomplete start. -/
  | stored (owner : Option Nat)
  /-- The second half, with the value that `finish` returns. -/
  | took (owner : Option Nat) (close : Bool)
  | cancelRequested (slot : Option Nat)
  | answered (response : CloseRequestResponse)
  | sawMigration (n : Nat)
  | closeEntered (n : Nat)
  | deferred (n : Nat)
  | closeLeft (n : Nat)
  | polled (n : Nat) (cancelled : Bool)
  | cleared (n : Nat)
  /-- The completion of an operation on the UI thread; `hidden`: it hides the window. -/
  | delivered (n : Nat) (hidden : Bool)
  | mutexFailed
  | poisoned
  deriving DecidableEq, Repr

/-! ## 2. Steps -/

/-- The operations that begin without further checks of a plan. -/
def OperationKind.isPlain : OperationKind → Bool
  | .scan | .repair | .trustedInstaller | .exportAudit => true
  | _ => false

/-- **One access** to the shared cells. -/
inductive Step : Controller → Event → Controller → Prop where
  -- `begin_operation`
  | begin {s} (kind : OperationKind) (hkind : kind.isPlain = true) (hidle : s.active = .idle) :
      Step s (.began kind s.next) (s.tryBegin kind)
  | beginMigration {s} (d : Desk) (elevated : Except String Bool) (plan : MigrationPlan)
      (hcheck : (d.startMigration elevated).2 = .proceed plan) (hidle : s.active = .idle) :
      Step s (.began .migration s.next) (s.tryBegin .migration)
  | refuse {s} (kind : OperationKind) (hbusy : s.active ≠ .idle) : Step s (.refused kind) s
  | spawn {s} (n : Nat) (hstage : s.stage n = .begun) (hkind : s.kind n ≠ .migration) :
      Step s (.spawned n) (s.setStage n .running)
  -- `start_migration` after `begin_operation`
  | enter {s} (n : Nat) (hstage : s.stage n = .begun) (hkind : s.kind n = .migration)
      (hfree : s.inside = .free) (hsound : s.poisoned = false) :
      Step s (.entered n) { s with inside := .publishing n }
  | check {s} (n : Nat) (hstage : s.stage n = .begun) (hin : s.inside = .publishing n) :
      Step s (.checked n s.closeAfterFinish)
        { (if s.closeAfterFinish then s.cancel n else s) with inside := .checked n }
  | publish {s} (n : Nat) (hstage : s.stage n = .begun) (hin : s.inside = .checked n) :
      Step s (.published n) { s.setStage n .published with slot := some n, inside := .free }
  | spawnMigration {s} (n : Nat) (hstage : s.stage n = .published) :
      Step s (.spawned n) (s.setStage n .running)
  | abort {s} (n : Nat) (hstage : s.stage n = .begun) (hkind : s.kind n = .migration)
      (hfree : s.inside = .free) (hpoisoned : s.poisoned = true) :
      Step s (.stored (some n)) { s.setStage n .aborted with active := .idle }
  | takeAborted {s} (n : Nat) (hstage : s.stage n = .aborted) :
      Step s (.took (some n) s.closeAfterFinish)
        { s.setStage n .ended with closeAfterFinish := false }
  -- `start_migration` with an incomplete plan
  | storeIncomplete {s} (d : Desk) (elevated : Except String Bool)
      (hcheck : (d.startMigration elevated).2 = .incomplete) :
      Step s (.stored none) { s with active := .idle, incomplete := s.incomplete + 1 }
  | takeIncomplete {s} (hpending : 0 < s.incomplete) :
      Step s (.took none s.closeAfterFinish)
        { s with closeAfterFinish := false, incomplete := s.incomplete - 1 }
  -- `cancel_migration`
  | cancel {s} (hfree : s.inside = .free) (hsound : s.poisoned = false) :
      Step s (.cancelRequested s.slot) s.cancelSlot
  | cancelFailed {s} (hfree : s.inside = .free) (hpoisoned : s.poisoned = true) :
      Step s .mutexFailed s
  -- `handle_close_requested`
  | closeAllowed {s} (hpolicy : s.active.closePolicy = .allow) :
      Step s (.answered .hideWindow) s
  | closeBlocked {s} (hpolicy : s.active.closePolicy = .block) :
      Step s (.answered .keepWindowShown) s
  | closeSeen {s} (hpolicy : s.active.closePolicy = .cancelMigration) :
      Step s (.sawMigration (s.next - 1)) { s with seen := (s.next - 1) :: s.seen }
  | closeEnter {s} (n : Nat) (hseen : n ∈ s.seen) (hfree : s.inside = .free)
      (hsound : s.poisoned = false) :
      Step s (.closeEntered n) { s with seen := s.seen.erase n, inside := .closing n }
  | closeFailed {s} (n : Nat) (hseen : n ∈ s.seen) (hfree : s.inside = .free)
      (hpoisoned : s.poisoned = true) : Step s .mutexFailed { s with seen := s.seen.erase n }
  | closeFlag {s} (n : Nat) (hin : s.inside = .closing n) :
      Step s (.deferred n) { s with closeAfterFinish := true, inside := .flagged n }
  | closeToken {s} (n : Nat) (hin : s.inside = .flagged n) :
      Step s (.closeLeft n) { s.cancelSlot with inside := .free }
  -- the worker of a migration
  | poll {s} (n : Nat) (hstage : s.stage n = .running) (hkind : s.kind n = .migration) :
      Step s (.polled n (s.cancelled n)) s
  | clear {s} (n : Nat) (hstage : s.stage n = .running) (hkind : s.kind n = .migration)
      (hfree : s.inside = .free) (hsound : s.poisoned = false) :
      Step s (.cleared n) { s.setStage n .cleared with slot := none }
  | clearFailed {s} (n : Nat) (hstage : s.stage n = .running) (hkind : s.kind n = .migration)
      (hfree : s.inside = .free) (hpoisoned : s.poisoned = true) :
      Step s .mutexFailed (s.setStage n .cleared)
  -- `finish_operation` of every worker, and the completion
  | store {s} (n : Nat)
      (hready : s.stage n = .cleared ∨ s.stage n = .running ∧ s.kind n ≠ .migration) :
      Step s (.stored (some n)) { s.setStage n .stored with active := .idle }
  | take {s} (n : Nat) (hstage : s.stage n = .stored) :
      Step s (.took (some n) s.closeAfterFinish)
        { s.setStage n (.finished s.closeAfterFinish) with closeAfterFinish := false }
  | deliver {s} (n : Nat) (close : Bool) (hstage : s.stage n = .finished close) :
      Step s (.delivered n (close && s.kind n == .migration)) (s.setStage n .ended)
  -- a panic inside the mutex
  | poison {s} (hfree : s.inside = .free) : Step s .poisoned { s with poisoned := true }

/-- **Runs** all of whose steps meet `G`, with what happened in them. -/
inductive Reach (G : Controller → Event → Prop) : List Event → Controller → Prop where
  | start : Reach G [] {}
  | step {trace s e s'} (h : Reach G trace s) (hg : G s e) (hs : Step s e s') :
      Reach G (trace ++ [e]) s'

theorem Reach.mono {G G' : Controller → Event → Prop} (hG : ∀ s e, G s e → G' s e)
    {trace : List Event} {s : Controller} (h : Reach G trace s) : Reach G' trace s := by
  induction h with
  | start => exact .start
  | step _ hg hs ih => exact .step ih (hG _ _ hg) hs

/-- A call is in flight. -/
def Controller.InCall (s : Controller) : Prop :=
  (∃ n < s.next, s.stage n = .begun ∨ s.stage n = .published ∨ s.stage n = .aborted) ∨
    s.incomplete ≠ 0 ∨ s.seen ≠ [] ∨ s.inside ≠ .free

instance (s : Controller) : Decidable s.InCall := inferInstanceAs (Decidable (_ ∨ _))

/-- The UI thread begins a call, or the completion of an operation, with this event. -/
def Event.isCall : Event → Bool
  | .began _ _ | .refused _ | .stored none | .cancelRequested _ | .answered _ | .sawMigration _
  | .delivered _ _ => true
  | _ => false

/-- **The run of a UI thread**: nothing begins there while a call is in flight. -/
def OneCall (s : Controller) (e : Event) : Prop := e.isCall = true → ¬ s.InCall

instance (s : Controller) (e : Event) : Decidable (OneCall s e) :=
  inferInstanceAs (Decidable (_ → _))

/-! ## 3. What a step does to the operations -/

section Fields

variable {s : Controller} {n k : Nat} {stage : Stage} {kind : OperationKind}

@[simp] theorem stage_setStage :
    (s.setStage n stage).stage k = if k = n then stage else s.stage k := by
  unfold Controller.setStage Controller.stage
  by_cases h : k = n
  · subst h
    simp
  · simp [h]

@[simp] theorem kind_setStage : (s.setStage n stage).kind k = s.kind k := by
  unfold Controller.setStage Controller.kind
  by_cases h : k = n
  · subst h
    simp
  · simp [h]

@[simp] theorem cancelled_setStage : (s.setStage n stage).cancelled k = s.cancelled k := by
  unfold Controller.setStage Controller.cancelled
  by_cases h : k = n
  · subst h
    simp
  · simp [h]

@[simp] theorem stage_cancel : (s.cancel n).stage k = s.stage k := by
  unfold Controller.cancel Controller.stage
  by_cases h : k = n
  · subst h
    simp
  · simp [h]

@[simp] theorem kind_cancel : (s.cancel n).kind k = s.kind k := by
  unfold Controller.cancel Controller.kind
  by_cases h : k = n
  · subst h
    simp
  · simp [h]

@[simp] theorem cancelled_cancel :
    (s.cancel n).cancelled k = if k = n then true else s.cancelled k := by
  unfold Controller.cancel Controller.cancelled
  by_cases h : k = n
  · subst h
    simp
  · simp [h]

@[simp] theorem stage_cancelSlot : s.cancelSlot.stage k = s.stage k := by
  unfold Controller.cancelSlot
  cases s.slot with
  | none => rfl
  | some n => exact stage_cancel

@[simp] theorem kind_cancelSlot : s.cancelSlot.kind k = s.kind k := by
  unfold Controller.cancelSlot
  cases s.slot with
  | none => rfl
  | some n => exact kind_cancel

@[simp] theorem cancelled_cancelSlot :
    s.cancelSlot.cancelled k = if s.slot = some k then true else s.cancelled k := by
  unfold Controller.cancelSlot
  cases s.slot with
  | none => simp
  | some n => simp [eq_comm (a := n)]

/-- Setting the token changes nothing but that token. -/
theorem cancelSlot_eq : ∃ ops, s.cancelSlot = { s with ops } := by
  unfold Controller.cancelSlot
  split
  · exact ⟨_, rfl⟩
  · exact ⟨s.ops, rfl⟩

@[simp] theorem active_cancelSlot : s.cancelSlot.active = s.active := by
  obtain ⟨ops, h⟩ := cancelSlot_eq (s := s)
  rw [h]

@[simp] theorem next_cancelSlot : s.cancelSlot.next = s.next := by
  obtain ⟨ops, h⟩ := cancelSlot_eq (s := s)
  rw [h]

@[simp] theorem closeAfterFinish_cancelSlot :
    s.cancelSlot.closeAfterFinish = s.closeAfterFinish := by
  obtain ⟨ops, h⟩ := cancelSlot_eq (s := s)
  rw [h]

@[simp] theorem slot_cancelSlot : s.cancelSlot.slot = s.slot := by
  obtain ⟨ops, h⟩ := cancelSlot_eq (s := s)
  rw [h]

@[simp] theorem inside_cancelSlot : s.cancelSlot.inside = s.inside := by
  obtain ⟨ops, h⟩ := cancelSlot_eq (s := s)
  rw [h]

@[simp] theorem poisoned_cancelSlot : s.cancelSlot.poisoned = s.poisoned := by
  obtain ⟨ops, h⟩ := cancelSlot_eq (s := s)
  rw [h]

@[simp] theorem seen_cancelSlot : s.cancelSlot.seen = s.seen := by
  obtain ⟨ops, h⟩ := cancelSlot_eq (s := s)
  rw [h]

@[simp] theorem stage_tryBegin :
    (s.tryBegin kind).stage k = if k = s.next then .begun else s.stage k := by
  unfold Controller.tryBegin Controller.stage
  by_cases h : k = s.next
  · subst h
    simp
  · simp [h]

@[simp] theorem kind_tryBegin :
    (s.tryBegin kind).kind k = if k = s.next then kind else s.kind k := by
  unfold Controller.tryBegin Controller.kind
  by_cases h : k = s.next
  · subst h
    simp
  · simp [h]

@[simp] theorem cancelled_tryBegin :
    (s.tryBegin kind).cancelled k = if k = s.next then false else s.cancelled k := by
  unfold Controller.tryBegin Controller.cancelled
  by_cases h : k = s.next
  · subst h
    simp
  · simp [h]

end Fields

/-- What a step can do to the stage of the operation `n`. -/
inductive Advance (s : Controller) (n : Nat) : Event → Stage → Stage → Prop where
  | began {stage} (kind : OperationKind) (hnext : n = s.next) :
      Advance s n (.began kind n) stage .begun
  | spawned (hkind : s.kind n ≠ .migration) : Advance s n (.spawned n) .begun .running
  | published (hin : s.inside = .checked n) : Advance s n (.published n) .begun .published
  | spawnedMigration : Advance s n (.spawned n) .published .running
  | aborted (hpoisoned : s.poisoned = true) : Advance s n (.stored (some n)) .begun .aborted
  | tookAborted : Advance s n (.took (some n) s.closeAfterFinish) .aborted .ended
  | cleared (hfree : s.inside = .free) : Advance s n (.cleared n) .running .cleared
  | clearFailed (hpoisoned : s.poisoned = true) : Advance s n .mutexFailed .running .cleared
  | stored : Advance s n (.stored (some n)) .cleared .stored
  | storedPlain (hkind : s.kind n ≠ .migration) : Advance s n (.stored (some n)) .running .stored
  | took : Advance s n (.took (some n) s.closeAfterFinish) .stored (.finished s.closeAfterFinish)
  | delivered (close : Bool) :
      Advance s n (.delivered n (close && s.kind n == .migration)) (.finished close) .ended

section Advance

variable {s s' : Controller} {e : Event} {n : Nat}

/-- The stage of one operation is set. -/
theorem advance_setStage {k : Nat} {stage : Stage}
    (hstage : ∀ n, s'.stage n = if n = k then stage else s.stage n)
    (hmove : Advance s k e (s.stage k) stage) :
    s'.stage n = s.stage n ∨ Advance s n e (s.stage n) (s'.stage n) := by
  rw [hstage]
  by_cases hn : n = k
  · rw [if_pos hn, hn]
    exact .inr hmove
  · rw [if_neg hn]
    exact .inl rfl

/-- **Every step** leaves the stage of an operation as it is, or moves it on. -/
theorem Step.advance (hs : Step s e s') (n : Nat) :
    s'.stage n = s.stage n ∨ Advance s n e (s.stage n) (s'.stage n) := by
  have born : ∀ kind, (s.tryBegin kind).stage n = s.stage n ∨
      Advance s n (.began kind s.next) (s.stage n) ((s.tryBegin kind).stage n) := fun kind =>
    advance_setStage (fun _ => stage_tryBegin) (.began kind rfl)
  cases hs with
  | begin kind hkind hidle => exact born kind
  | beginMigration d elevated plan hcheck hidle => exact born .migration
  | spawn k hstage hkind =>
    exact advance_setStage (fun _ => stage_setStage) (hstage ▸ .spawned hkind)
  | publish k hstage hin =>
    exact advance_setStage (fun _ => stage_setStage) (hstage ▸ .published hin)
  | spawnMigration k hstage =>
    exact advance_setStage (fun _ => stage_setStage) (hstage ▸ .spawnedMigration)
  | abort k hstage hkind hfree hpoisoned =>
    exact advance_setStage (fun _ => stage_setStage) (hstage ▸ .aborted hpoisoned)
  | takeAborted k hstage =>
    exact advance_setStage (fun _ => stage_setStage) (hstage ▸ .tookAborted)
  | clear k hstage hkind hfree hsound =>
    exact advance_setStage (fun _ => stage_setStage) (hstage ▸ .cleared hfree)
  | clearFailed k hstage hkind hfree hpoisoned =>
    exact advance_setStage (fun _ => stage_setStage) (hstage ▸ .clearFailed hpoisoned)
  | store k hready =>
    rcases hready with hstage | ⟨hstage, hkind⟩
    · exact advance_setStage (fun _ => stage_setStage) (hstage ▸ .stored)
    · exact advance_setStage (fun _ => stage_setStage) (hstage ▸ .storedPlain hkind)
  | take k hstage => exact advance_setStage (fun _ => stage_setStage) (hstage ▸ .took)
  | deliver k close hstage =>
    exact advance_setStage (fun _ => stage_setStage) (hstage ▸ .delivered close)
  | check k hstage hin =>
    left
    cases s.closeAfterFinish with
    | true => exact stage_cancel
    | false => rfl
  | cancel hfree hsound => exact .inl stage_cancelSlot
  | closeToken k hin => exact .inl stage_cancelSlot
  | _ => exact .inl rfl

end Advance

/-- No operation opens or ends, and the shared operation cell stays. -/
structure SameOps (s s' : Controller) : Prop where
  active : s'.active = s.active
  next : s'.next = s.next
  kind : ∀ n, s'.kind n = s.kind n
  opens : ∀ n, s'.Open n ↔ s.Open n
  unborn : ∀ n, s'.stage n = .unborn ↔ s.stage n = .unborn

/-- What a step does to the operations. -/
inductive Turn (s s' : Controller) : Event → Prop where
  | same {e} (h : SameOps s s') : Turn s s' e
  | began (kind : OperationKind) (hidle : s.active = .idle) (hkind : kind ≠ .idle)
      (h : s' = s.tryBegin kind) : Turn s s' (.began kind s.next)
  | ended (n : Nat) (hopen : s.Open n) (hactive : s'.active = .idle) (hnext : s'.next = s.next)
      (hkind : ∀ k, s'.kind k = s.kind k)
      (hstage : s'.stage n = .stored ∨ s'.stage n = .aborted)
      (hother : ∀ k, k ≠ n → s'.stage k = s.stage k) : Turn s s' (.stored (some n))
  | released (hactive : s'.active = .idle) (hnext : s'.next = s.next)
      (hops : s'.ops = s.ops) : Turn s s' (.stored none)

section Effect

variable {s s' : Controller} {e : Event}

/-- Only fields beside the operations change. -/
theorem SameOps.of_ops (hactive : s'.active = s.active) (hnext : s'.next = s.next)
    (hkind : ∀ n, s'.kind n = s.kind n) (hstage : ∀ n, s'.stage n = s.stage n) : SameOps s s' :=
  ⟨hactive, hnext, hkind, fun n => by simp only [Controller.Open, hstage n],
    fun n => by simp only [hstage n]⟩

/-- An operation moves on without opening or ending. -/
theorem SameOps.of_stage {n : Nat} {stage : Stage} (hactive : s'.active = s.active)
    (hnext : s'.next = s.next) (hkind : ∀ k, s'.kind k = s.kind k)
    (hstage : ∀ k, s'.stage k = if k = n then stage else s.stage k)
    (hopen : stage.isOpen = (s.stage n).isOpen) (hborn : s.stage n ≠ .unborn)
    (hborn' : stage ≠ .unborn) : SameOps s s' := by
  refine ⟨hactive, hnext, hkind, fun k => ?_, fun k => ?_⟩
  · simp only [Controller.Open, hstage k]
    by_cases hk : k = n
    · rw [if_pos hk, hk, hopen]
    · rw [if_neg hk]
  · rw [hstage k]
    by_cases hk : k = n
    · rw [if_pos hk, hk]
      exact ⟨fun h => absurd h hborn', fun h => absurd h hborn⟩
    · rw [if_neg hk]

/-- **Every step** opens the next operation, ends an open one, releases, or does none of these. -/
theorem Step.turn (hs : Step s e s') : Turn s s' e := by
  have born : ∀ {n : Nat} {stage : Stage}, s.stage n = stage → stage ≠ .unborn →
      s.stage n ≠ .unborn := fun h hne => h ▸ hne
  cases hs with
  | begin kind hkind hidle =>
    refine .began kind hidle (fun h => ?_) rfl
    rw [h] at hkind
    cases hkind
  | beginMigration d elevated plan hcheck hidle => exact .began .migration hidle (by decide) rfl
  | refuse kind hbusy => exact .same (.of_ops rfl rfl (fun _ => rfl) fun _ => rfl)
  | spawn n hstage hkind =>
    exact .same (.of_stage (n := n) rfl rfl (fun _ => kind_setStage) (fun _ => stage_setStage)
      (by rw [hstage]; rfl) (born hstage (by decide)) (by decide))
  | enter n hstage hkind hfree hsound =>
    exact .same (.of_ops rfl rfl (fun _ => rfl) fun _ => rfl)
  | check n hstage hin =>
    cases hflag : s.closeAfterFinish with
    | true => exact .same (.of_ops rfl rfl (fun _ => kind_cancel) fun _ => stage_cancel)
    | false => exact .same (.of_ops rfl rfl (fun _ => rfl) fun _ => rfl)
  | publish n hstage hin =>
    exact .same (.of_stage (n := n) rfl rfl (fun _ => kind_setStage) (fun _ => stage_setStage)
      (by rw [hstage]; rfl) (born hstage (by decide)) (by decide))
  | spawnMigration n hstage =>
    exact .same (.of_stage (n := n) rfl rfl (fun _ => kind_setStage) (fun _ => stage_setStage)
      (by rw [hstage]; rfl) (born hstage (by decide)) (by decide))
  | abort n hstage hkind hfree hpoisoned =>
    have hopen : s.Open n := by simp [Controller.Open, hstage, Stage.isOpen]
    exact .ended n hopen rfl rfl (fun _ => kind_setStage)
      (.inr (stage_setStage.trans (if_pos rfl))) fun k hk => stage_setStage.trans (if_neg hk)
  | takeAborted n hstage =>
    exact .same (.of_stage (n := n) rfl rfl (fun _ => kind_setStage) (fun _ => stage_setStage)
      (by rw [hstage]; rfl) (born hstage (by decide)) (by decide))
  | storeIncomplete d elevated hcheck => exact .released rfl rfl rfl
  | takeIncomplete hpending => exact .same (.of_ops rfl rfl (fun _ => rfl) fun _ => rfl)
  | cancel hfree hsound =>
    exact .same (.of_ops active_cancelSlot next_cancelSlot (fun _ => kind_cancelSlot)
      fun _ => stage_cancelSlot)
  | cancelFailed hfree hpoisoned => exact .same (.of_ops rfl rfl (fun _ => rfl) fun _ => rfl)
  | closeAllowed hpolicy => exact .same (.of_ops rfl rfl (fun _ => rfl) fun _ => rfl)
  | closeBlocked hpolicy => exact .same (.of_ops rfl rfl (fun _ => rfl) fun _ => rfl)
  | closeSeen hpolicy => exact .same (.of_ops rfl rfl (fun _ => rfl) fun _ => rfl)
  | closeEnter n hseen hfree hsound =>
    exact .same (.of_ops rfl rfl (fun _ => rfl) fun _ => rfl)
  | closeFailed n hseen hfree hpoisoned =>
    exact .same (.of_ops rfl rfl (fun _ => rfl) fun _ => rfl)
  | closeFlag n hin => exact .same (.of_ops rfl rfl (fun _ => rfl) fun _ => rfl)
  | closeToken n hin =>
    exact .same (.of_ops active_cancelSlot next_cancelSlot (fun _ => kind_cancelSlot)
      fun _ => stage_cancelSlot)
  | poll n hstage hkind => exact .same (.of_ops rfl rfl (fun _ => rfl) fun _ => rfl)
  | clear n hstage hkind hfree hsound =>
    exact .same (.of_stage (n := n) rfl rfl (fun _ => kind_setStage) (fun _ => stage_setStage)
      (by rw [hstage]; rfl) (born hstage (by decide)) (by decide))
  | clearFailed n hstage hkind hfree hpoisoned =>
    exact .same (.of_stage (n := n) rfl rfl (fun _ => kind_setStage) (fun _ => stage_setStage)
      (by rw [hstage]; rfl) (born hstage (by decide)) (by decide))
  | store n hready =>
    have hopen : s.Open n := by
      rcases hready with h | ⟨h, _⟩ <;> simp [Controller.Open, h, Stage.isOpen]
    exact .ended n hopen rfl rfl (fun _ => kind_setStage)
      (.inl (stage_setStage.trans (if_pos rfl))) fun k hk => stage_setStage.trans (if_neg hk)
  | take n hstage =>
    exact .same (.of_stage (n := n) rfl rfl (fun _ => kind_setStage) (fun _ => stage_setStage)
      (by rw [hstage]; rfl) (born hstage (by decide)) nofun)
  | deliver n close hstage =>
    exact .same (.of_stage (n := n) rfl rfl (fun _ => kind_setStage) (fun _ => stage_setStage)
      (by rw [hstage]; rfl) (born hstage nofun) (by decide))
  | poison hfree => exact .same (.of_ops rfl rfl (fun _ => rfl) fun _ => rfl)

end Effect

/-! ## 4. At most one operation is open -/

/-- The invariant of `active`: it names the kind of the operation that began last, while that
operation is open. -/
structure Owned (s : Controller) : Prop where
  fresh : ∀ n, s.next ≤ n → s.stage n = .unborn
  last : ∀ n, s.Open n → n + 1 = s.next ∧ s.kind n = s.active ∧ s.kind n ≠ .idle
  owner : s.active ≠ .idle → ∃ n, s.Open n

/-- An incomplete start calls `finish_operation` only when no operation is open. -/
def OwnFinish (s : Controller) (e : Event) : Prop := e = .stored none → ∀ n, ¬ s.Open n

section Owned

variable {s s' : Controller} {e : Event}

theorem Owned.start : Owned {} where
  fresh _ _ := rfl
  last _ h := nomatch h
  owner h := absurd rfl h

theorem Owned.unique (h : Owned s) {n k : Nat} (hn : s.Open n) (hk : s.Open k) : n = k := by
  have hlast := (h.last n hn).1
  have hlast' := (h.last k hk).1
  omega

theorem Owned.idle_iff (h : Owned s) : s.active = .idle ↔ ∀ n, ¬ s.Open n := by
  constructor
  · intro hidle n hn
    obtain ⟨_, hkind, hne⟩ := h.last n hn
    exact hne (hkind.trans hidle)
  · intro hnone
    by_contra hbusy
    obtain ⟨n, hn⟩ := h.owner hbusy
    exact hnone n hn

/-- A busy cell is the kind of the operation that began last. -/
theorem Owned.current (h : Owned s) (hbusy : s.active ≠ .idle) :
    s.Open (s.next - 1) ∧ s.kind (s.next - 1) = s.active := by
  obtain ⟨n, hn⟩ := h.owner hbusy
  obtain ⟨hnext, hkind, _⟩ := h.last n hn
  have hn' : s.next - 1 = n := by omega
  rw [hn']
  exact ⟨hn, hkind⟩

/-- **One step** keeps the invariant, when it does not release the operation of another. -/
theorem Owned.turn (h : Owned s) (hg : OwnFinish s e) (hturn : Turn s s' e) : Owned s' := by
  cases hturn with
  | same hsame =>
    refine ⟨fun n hn => ?_, fun n hn => ?_, fun hbusy => ?_⟩
    · exact (hsame.unborn n).mpr (h.fresh n (hsame.next ▸ hn))
    · rw [hsame.next, hsame.kind, hsame.active]
      exact h.last n ((hsame.opens n).mp hn)
    · obtain ⟨n, hn⟩ := h.owner (hsame.active ▸ hbusy)
      exact ⟨n, (hsame.opens n).mpr hn⟩
  | began kind hidle hkind hs' =>
    subst hs'
    have hnone := h.idle_iff.mp hidle
    have hopen : ∀ n, (s.tryBegin kind).Open n → n = s.next := fun n hn => by
      by_contra hne
      rw [Controller.Open, stage_tryBegin, if_neg hne] at hn
      exact hnone n hn
    refine ⟨fun n hn => ?_, fun n hn => ?_, fun _ => ⟨s.next, ?_⟩⟩
    · have hge : s.next + 1 ≤ n := hn
      rw [stage_tryBegin, if_neg (by omega)]
      exact h.fresh n (by omega)
    · rw [hopen n hn, kind_tryBegin, if_pos rfl]
      exact ⟨rfl, rfl, hkind⟩
    · rw [Controller.Open, stage_tryBegin, if_pos rfl]
      rfl
  | ended n hopen hactive hnext hkind hstage hother =>
    -- The only open operation ends.
    have hnone : ∀ k, ¬ s'.Open k := fun k hk => by
      by_cases hkn : k = n
      · subst hkn
        rcases hstage with hst | hst <;> simp [Controller.Open, hst, Stage.isOpen] at hk
      · rw [Controller.Open, hother k hkn] at hk
        exact hkn (h.unique hk hopen)
    refine ⟨fun k hk => ?_, fun k hk => absurd hk (hnone k), fun hbusy => absurd hactive hbusy⟩
    have hkn : k ≠ n := fun e => by
      have := (h.last n hopen).1
      rw [hnext] at hk
      omega
    rw [hother k hkn]
    exact h.fresh k (hnext ▸ hk)
  | released hactive hnext hops =>
    have hstage : ∀ k, s'.stage k = s.stage k := fun k => by rw [Controller.stage, hops]; rfl
    refine ⟨fun k hk => ?_, fun k hk => ?_, fun hbusy => absurd hactive hbusy⟩
    · rw [hstage]
      exact h.fresh k (hnext ▸ hk)
    · rw [Controller.Open, hstage] at hk
      exact absurd hk (hg rfl k)

theorem Owned.reach {G : Controller → Event → Prop} (hG : ∀ s e, G s e → OwnFinish s e)
    {trace : List Event} (h : Reach G trace s) : Owned s := by
  induction h with
  | start => exact Owned.start
  | step _ hg hs ih => exact ih.turn (hG _ _ hg) hs.turn

/-- **At most one operation runs**: in every run in which an incomplete start never calls
`finish_operation` beside an open operation, the active operation is idle exactly when none is open,
no two are open at once, and a close request is answered by hiding the window only when none is. -/
theorem one_operation {trace : List Event} (h : Reach OwnFinish trace s) :
    (s.active = .idle ↔ ∀ n, ¬ s.Open n) ∧ (∀ n k, s.Open n → s.Open k → n = k) ∧
      ∀ s', Step s (.answered .hideWindow) s' → ∀ n, ¬ s.Open n := by
  have howned := Owned.reach (fun _ _ hg => hg) h
  refine ⟨howned.idle_iff, fun n k => howned.unique, fun s' hs => howned.idle_iff.mp ?_⟩
  cases hs with
  | closeAllowed hpolicy =>
    cases hactive : s.active <;> rw [hactive] at hpolicy <;> first | rfl | cases hpolicy

end Owned

/-! ## 5. An incomplete start beside a worker -/

/-- A window with a plan that is validated and can be started. -/
def readyDesk : Desk where
  selectedSid := "S-1-5-21-7"
  selectedPath := "C:\\U"
  migrationTargetPath := "D:\\V"
  migrationIncludeDocs := true
  migrationPreflightValid := true
  preflight := some (.new ⟨"S-1-5-21-7", "C:\\U", "D:\\V", false, true⟩
    ⟨encodeWide "C:\\U", encodeWide "D:\\V"⟩)

theorem readyDesk_check : (readyDesk.startMigration (.ok true)).2
    = .proceed ⟨"S-1-5-21-7", "C:\\U", "D:\\V", false, true⟩ := by decide +kernel

/-- A window in which nothing is selected. -/
theorem emptyDesk_check : (Desk.startMigration {} (.ok true)).2 = .incomplete := by decide +kernel

theorem one_operation_sample : ∃ trace s, Reach OwnFinish trace s ∧ s.Open 0 ∧
    s.active = .scan ∧ ∀ n k, s.Open n → s.Open k → n = k := by
  have h₁ : Reach OwnFinish [.began .scan 0] _ :=
    .step .start (fun h => nomatch h) (.begin .scan rfl rfl)
  have h₂ : Reach OwnFinish [.began .scan 0, .spawned 0] _ :=
    .step h₁ (fun h => nomatch h) (.spawn 0 rfl (by decide))
  exact ⟨_, _, h₂, rfl, rfl, (one_operation h₂).2.1⟩

/-- **An incomplete start releases the operation of another**: a scan runs, `start_migration` is
called with nothing selected, and the cell is idle; the next operation begins beside the scan. -/
theorem incomplete_start_releases :
    (∃ s, Reach OneCall [.began .scan 0, .spawned 0, .stored none] s ∧ s.active = .idle ∧
      s.Open 0) ∧
    ∃ s, Reach OneCall [.began .scan 0, .spawned 0, .stored none, .took none false,
      .began .repair 1, .spawned 1] s ∧ s.stage 0 = .running ∧ s.stage 1 = .running := by
  have h₁ := Reach.start.step (G := OneCall) (by decide) (.begin .scan rfl rfl)
  have h₂ := h₁.step (by decide) (.spawn 0 rfl (by decide))
  have h₃ := h₂.step (by decide) (.storeIncomplete {} (.ok true) emptyDesk_check)
  have h₄ := h₃.step (by decide) (.takeIncomplete (by decide))
  have h₅ := h₄.step (by decide) (.begin .repair rfl rfl)
  have h₆ := h₅.step (by decide) (.spawn 1 rfl (by decide))
  exact ⟨⟨_, h₃, rfl, rfl⟩, _, h₆, rfl, rfl⟩

end WinProfile
