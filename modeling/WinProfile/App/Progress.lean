/-
  File:      WinProfile/App/Progress.lean
  Subject:   app-ui/src/controller.rs: the progress of a migration on its way from the worker to
             the view, through a slot for one snapshot and the event loop.

  * `Migration` -- the slot with its flag, the worker, the event loop, what the UI thread is doing,
    and the trace. The worker is between two pushes, inside one, or past its last.
  * `Step` -- one constructor for one critical section, one enqueue, one callback begun, or one
    snapshot applied; the two threads interleave freely.
  * `Mailbox` -- the invariant: what is still to be applied completes what was applied to an
    ordered part of what was pushed that ends with the latest.
  * `progress_coalesced` -- so nothing stale or late is shown, in every interleaving in which the
    event loop takes what it is given.
-/
import WinProfile.Lib.Trace
import WinProfile.Migration.Paths

namespace WinProfile.Progress

open WinProfile.Trace

/-! ## 1. The view -/

/-- `migration_phase_key`. -/
def migrationPhaseKey : MigrationPhase → String
  | .enumerating => "migration.phase.enumerating"
  | .copying => "migration.phase.copying"
  | .verifying => "migration.phase.verifying"
  | .finalizing => "migration.phase.finalizing"
  | .rollingBack => "migration.phase.rolling_back"

/-- The properties of the window that show the progress. -/
structure View where
  phase : String := ""
  relativePath : String := ""
  completedFiles : Int := 0
  copiedBytes : String := ""
  status : String := ""

/-- The catalogue: `t` and `t_args`. -/
structure Catalogue where
  text : String → String
  textWith : String → List (String × String) → String

def i32Max : Nat := 2 ^ 31 - 1

/-- `apply_migration_progress`. -/
def applyMigrationProgress (c : Catalogue) (view : View) (progress : MigrationProgress) : View :=
  let phase := c.text (migrationPhaseKey progress.phase)
  let path := progress.relativePath.getD (c.text "migration.progress.no_file")
  let bytes := toString progress.copiedBytes
  { view with
    phase := phase
    relativePath := path
    completedFiles := min progress.completedFiles i32Max
    copiedBytes := bytes
    status := c.textWith "migration.progress.detail"
      [("phase", phase), ("path", path), ("files", toString progress.completedFiles),
        ("bytes", bytes)] }

/-! ## 2. The slot, the worker and the event loop -/

/-- `MigrationProgressQueue`. -/
structure MigrationProgressQueue where
  pending : Option MigrationProgress := none
  scheduled : Bool := false

/-- The critical section of a push: the new queue, and whether a callback is to be scheduled. -/
def MigrationProgressQueue.push (q : MigrationProgressQueue) (progress : MigrationProgress) :
    MigrationProgressQueue × Bool :=
  ({ pending := some progress, scheduled := true }, !q.scheduled)

/-- The critical section of a callback: the new queue, and what was pending. -/
def MigrationProgressQueue.take (q : MigrationProgressQueue) :
    MigrationProgressQueue × Option MigrationProgress :=
  ({ pending := none, scheduled := false }, q.pending)

/-- Where the worker is. -/
inductive Worker where
  /-- Between two calls of `queue_migration_progress`. -/
  | between
  /-- Past the critical section of a push that has to schedule a callback. -/
  | scheduling
  /-- The terminal callback of `start_migration` is queued. -/
  | ended
  deriving DecidableEq, Repr

inductive Callback where
  | progress
  | terminal
  /-- Anything else that runs on the UI thread. -/
  | foreign
  deriving DecidableEq, Repr

/-- What the UI thread is doing. -/
inductive UiThread where
  | idle
  /-- The callback has left the event loop and done nothing yet. -/
  | begun (callback : Callback)
  /-- A progress callback past its critical section. -/
  | applying (pending : Option MigrationProgress)
  deriving DecidableEq, Repr

inductive Event where
  | pushed (progress : MigrationProgress)
  | applied (progress : MigrationProgress)
  | terminal
  /-- The event loop did not take a callback. -/
  | rejected
  deriving DecidableEq, Repr

/-- One migration and the UI thread. -/
structure Migration where
  queue : MigrationProgressQueue := {}
  worker : Worker := .between
  loop : List Callback := []
  ui : UiThread := .idle
  view : View := {}
  trace : List Event := []

/-- **One step** of the worker or of the UI thread. -/
inductive Step (c : Catalogue) : Migration → Migration → Prop where
  -- `queue_migration_progress`
  | push {s} (progress : MigrationProgress) (hworker : s.worker = .between) :
      Step c s { s with
        queue := (s.queue.push progress).1
        worker := if (s.queue.push progress).2 then .scheduling else .between
        trace := s.trace ++ [.pushed progress] }
  | schedule {s} (hworker : s.worker = .scheduling) :
      Step c s { s with worker := .between, loop := s.loop ++ [.progress] }
  | scheduleRejected {s} (hworker : s.worker = .scheduling) :
      Step c s { s with
        queue := { pending := none, scheduled := false }
        worker := .between
        trace := s.trace ++ [.rejected] }
  -- the end of the worker of `start_migration`
  | finish {s} (hworker : s.worker = .between) :
      Step c s { s with worker := .ended, loop := s.loop ++ [.terminal] }
  | finishRejected {s} (hworker : s.worker = .between) :
      Step c s { s with worker := .ended, trace := s.trace ++ [.rejected] }
  -- the event loop
  | foreign {s} : Step c s { s with loop := s.loop ++ [.foreign] }
  | begin {s callback rest} (hui : s.ui = .idle) (hloop : s.loop = callback :: rest) :
      Step c s { s with ui := .begun callback, loop := rest }
  | take {s} (hui : s.ui = .begun .progress) :
      Step c s { s with queue := s.queue.take.1, ui := .applying s.queue.take.2 }
  | apply {s progress} (hui : s.ui = .applying (some progress)) :
      Step c s { s with
        ui := .idle
        view := applyMigrationProgress c s.view progress
        trace := s.trace ++ [.applied progress] }
  | applyNothing {s} (hui : s.ui = .applying none) : Step c s { s with ui := .idle }
  | terminal {s} (hui : s.ui = .begun .terminal) :
      Step c s { s with ui := .idle, trace := s.trace ++ [.terminal] }
  | foreignDone {s} (hui : s.ui = .begun .foreign) : Step c s { s with ui := .idle }

/-- Every run of one migration, from this view on. -/
inductive Reach (c : Catalogue) (view : View) : Migration → Prop where
  | start (loop : List Callback) (hloop : ∀ callback ∈ loop, callback = .foreign) :
      Reach c view { view, loop }
  | step {s s'} (h : Reach c view s) (hs : Step c s s') : Reach c view s'

/-! ## 3. What a state still owes -/

section Notions

/-- The progress callbacks that have not come to their critical section. -/
def queuedCallbacks (s : Migration) : Nat :=
  s.loop.count .progress + if s.ui = .begun .progress then 1 else 0

def pushedOf : Event → Option MigrationProgress
  | .pushed progress => some progress
  | _ => none

def appliedOf : Event → Option MigrationProgress
  | .applied progress => some progress
  | _ => none

/-- The snapshots that were pushed, in order. -/
def pushed (t : List Event) : List MigrationProgress := t.filterMap pushedOf

/-- The snapshots that were applied, in order. -/
def applied (t : List Event) : List MigrationProgress := t.filterMap appliedOf

/-- What the UI thread has taken and not applied. -/
def taken : UiThread → List MigrationProgress
  | .applying (some progress) => [progress]
  | _ => []

/-- What is still to be applied. -/
def waiting (s : Migration) : List MigrationProgress := taken s.ui ++ s.queue.pending.toList

/-- The worker has pushed for the last time, and everything was taken. -/
structure Drained (s : Migration) : Prop where
  worker : s.worker = .ended
  queue : s.queue.pending = none
  none_queued : queuedCallbacks s = 0
  none_taken : ∀ p, s.ui ≠ .applying p

end Notions

/-! ## 4. The invariant -/

/-- **The invariant** while the event loop takes every callback. -/
structure Mailbox (s : Migration) : Prop where
  /-- The flag is up exactly while a callback is queued or about to be. -/
  flag : queuedCallbacks s + (if s.worker = .scheduling then 1 else 0) = s.queue.scheduled.toNat
  pending : s.queue.pending.isSome = true → s.queue.scheduled = true
  ordered : (applied s.trace ++ waiting s).Sublist (pushed s.trace)
  latest : (applied s.trace ++ waiting s).getLast? = (pushed s.trace).getLast?
  /-- No progress callback comes after the terminal one. -/
  behind : ∀ front back, s.loop = front ++ .terminal :: back →
    s.worker = .ended ∧ back.count .progress = 0
  drained : s.ui = .begun .terminal ∨ .terminal ∈ s.trace → Drained s
  coming : s.worker = .ended → .terminal ∈ s.loop ∨ s.ui = .begun .terminal ∨ .terminal ∈ s.trace

/-- What the trace has recorded of the terminal callback. -/
structure Recorded (t : List Event) : Prop where
  pushed_before : Throughout (fun past e => ∀ p, e = .pushed p → .terminal ∉ past) t
  applied_before : Throughout (fun past e => ∀ p, e = .applied p → .terminal ∉ past) t
  complete : Throughout (fun past e => e = .terminal →
    (applied past).getLast? = (pushed past).getLast?) t

section Facts

variable {c : Catalogue} {s s' : Migration} {t : List Event} {e : Event}

theorem pushed_concat (t : List Event) (e : Event) :
    pushed (t ++ [e]) = pushed t ++ (pushedOf e).toList := by
  rw [pushed, pushed, List.filterMap_append]
  cases e <;> rfl

theorem applied_concat (t : List Event) (e : Event) :
    applied (t ++ [e]) = applied t ++ (appliedOf e).toList := by
  rw [applied, applied, List.filterMap_append]
  cases e <;> rfl

/-- Where a list that ends with one element has another. -/
theorem mem_split_concat {α : Type} {l front back : List α} {x y : α}
    (h : l ++ [y] = front ++ x :: back) :
    back = [] ∧ x = y ∧ l = front ∨ ∃ b, back = b ++ [y] ∧ l = front ++ x :: b := by
  rcases List.eq_nil_or_concat' back with rfl | ⟨b, z, rfl⟩
  · obtain ⟨hl, hy⟩ := List.append_inj' h rfl
    exact .inl ⟨rfl, (List.singleton_inj.mp hy).symm, hl⟩
  · rw [← List.cons_append, ← List.append_assoc] at h
    obtain ⟨hl, hy⟩ := List.append_inj' h rfl
    exact .inr ⟨b, by rw [List.singleton_inj.mp hy], hl⟩

/-- While the worker is not past its end, there is no terminal callback. -/
theorem Mailbox.not_terminal (h : Mailbox s) (hworker : s.worker ≠ .ended) :
    .terminal ∉ s.loop ∧ s.ui ≠ .begun .terminal ∧ .terminal ∉ s.trace := by
  refine ⟨fun hmem => ?_, fun hui => ?_, fun hmem => ?_⟩
  · obtain ⟨front, back, hloop⟩ := List.append_of_mem hmem
    exact hworker (h.behind front back hloop).1
  · exact hworker (h.drained (.inl hui)).worker
  · exact hworker (h.drained (.inr hmem)).worker

end Facts

/-! ## 5. The steps of the worker -/

section WorkerSteps

variable {s : Migration}

theorem Mailbox.push (h : Mailbox s) (progress : MigrationProgress)
    (hworker : s.worker = .between) :
    Mailbox { s with
      queue := (s.queue.push progress).1
      worker := if (s.queue.push progress).2 then .scheduling else .between
      trace := s.trace ++ [.pushed progress] } := by
  obtain ⟨hloop, hui, htrace⟩ := h.not_terminal (by rw [hworker]; nofun)
  have hflag := h.flag
  have hordered := h.ordered
  rw [hworker] at hflag
  rw [waiting, ← List.append_assoc] at hordered
  refine ⟨?_, fun _ => rfl, ?_, ?_, fun front back hmem => ?_, fun hend => ?_, fun hend => ?_⟩
  · simp only [queuedCallbacks, MigrationProgressQueue.push] at hflag ⊢
    rcases Bool.eq_false_or_eq_true s.queue.scheduled with hscheduled | hscheduled
    · simp only [hscheduled] at hflag ⊢
      simpa using hflag
    · simp only [hscheduled] at hflag ⊢
      simp at hflag ⊢
      omega
  · rw [pushed_concat, applied_concat]
    simp only [waiting, MigrationProgressQueue.push, pushedOf, appliedOf, Option.toList_none,
      Option.toList_some, List.append_nil, ← List.append_assoc]
    exact ((List.sublist_append_left _ _).trans hordered).append (List.Sublist.refl _)
  · rw [pushed_concat, applied_concat]
    simp only [waiting, MigrationProgressQueue.push, pushedOf, appliedOf, Option.toList_none,
      Option.toList_some, List.append_nil, ← List.append_assoc, List.getLast?_append,
      List.getLast?_singleton, Option.some_or]
  · exact absurd (show .terminal ∈ s.loop from hmem ▸ by simp) hloop
  · rcases hend with hend | hend
    · exact absurd hend hui
    · rcases List.mem_append.mp hend with hend | hend
      · exact absurd hend htrace
      · cases List.mem_singleton.mp hend
  · dsimp only at hend
    split at hend <;> cases hend

theorem Mailbox.schedule (h : Mailbox s) (hworker : s.worker = .scheduling) :
    Mailbox { s with worker := .between, loop := s.loop ++ [.progress] } := by
  obtain ⟨hloop, hui, htrace⟩ := h.not_terminal (by rw [hworker]; nofun)
  have hflag := h.flag
  rw [hworker] at hflag
  refine ⟨?_, h.pending, h.ordered, h.latest, fun front back hsplit => ?_, fun hend => ?_, nofun⟩
  · simp only [queuedCallbacks, List.count_append, List.count_singleton_self, if_true] at hflag ⊢
    simp
    omega
  · have hmem : .terminal ∈ s.loop ++ [.progress] := by
      rw [show s.loop ++ [.progress] = _ from hsplit]
      simp
    rcases List.mem_append.mp hmem with hin | hin
    · exact absurd hin hloop
    · cases List.mem_singleton.mp hin
  · rcases hend with hend | hend
    · exact absurd hend hui
    · exact absurd hend htrace

theorem Mailbox.finish (h : Mailbox s) (hworker : s.worker = .between) :
    Mailbox { s with worker := .ended, loop := s.loop ++ [.terminal] } := by
  obtain ⟨hloop, hui, htrace⟩ := h.not_terminal (by rw [hworker]; nofun)
  have hflag := h.flag
  rw [hworker] at hflag
  refine ⟨?_, h.pending, h.ordered, h.latest, fun front back hmem => ⟨rfl, ?_⟩, fun hend => ?_,
    fun _ => .inl (by simp)⟩
  · simp only [queuedCallbacks, List.count_append] at hflag ⊢
    simpa using hflag
  · rcases mem_split_concat hmem with ⟨rfl, _⟩ | ⟨b, _, hl⟩
    · rfl
    · exact absurd (show .terminal ∈ s.loop from hl ▸ by simp) hloop
  · rcases hend with hend | hend
    · exact absurd hend hui
    · exact absurd hend htrace

end WorkerSteps

/-! ## 6. The steps of the UI thread -/

section UiSteps

variable {s : Migration}

theorem Mailbox.foreign (h : Mailbox s) : Mailbox { s with loop := s.loop ++ [.foreign] } := by
  have hflag := h.flag
  have hcount : queuedCallbacks { s with loop := s.loop ++ [.foreign] } = queuedCallbacks s := by
    simp [queuedCallbacks]
  refine ⟨by rw [hcount]; exact hflag, h.pending, h.ordered, h.latest,
    fun front back hsplit => ?_, fun hend => ?_, fun hend => ?_⟩
  · rcases mem_split_concat hsplit with ⟨_, hne, _⟩ | ⟨b, rfl, hl⟩
    · cases hne
    · obtain ⟨hworker, hnone⟩ := h.behind front b hl
      exact ⟨hworker, by simpa using hnone⟩
  · have hd := h.drained hend
    exact ⟨hd.worker, hd.queue, by rw [hcount]; exact hd.none_queued, hd.none_taken⟩
  · rcases h.coming hend with hin | hin
    · exact .inl (List.mem_append_left _ hin)
    · exact .inr hin

theorem Mailbox.begin {callback : Callback} {rest : List Callback} (h : Mailbox s)
    (hui : s.ui = .idle) (hloop : s.loop = callback :: rest) :
    Mailbox { s with ui := .begun callback, loop := rest } := by
  have hflag := h.flag
  have hcount : queuedCallbacks { s with ui := .begun callback, loop := rest }
      = queuedCallbacks s := by
    simp only [queuedCallbacks, hui, hloop, List.count_cons, beq_iff_eq, reduceCtorEq, if_false,
      UiThread.begun.injEq, Nat.add_zero]
  have hwaiting : waiting { s with ui := .begun callback, loop := rest } = waiting s := by
    simp only [waiting, hui, taken]
  refine ⟨by rw [hcount]; exact hflag, h.pending, by rw [hwaiting]; exact h.ordered,
    by rw [hwaiting]; exact h.latest, fun front back hsplit => ?_, fun hend => ?_, fun hend => ?_⟩
  · refine h.behind (callback :: front) back ?_
    rw [hloop, show rest = _ from hsplit, List.cons_append]
  · rcases hend with hend | hend
    · -- the terminal callback has left the loop: no progress callback is behind it
      obtain rfl : callback = .terminal := UiThread.begun.inj hend
      obtain ⟨hworker, hnone⟩ := h.behind [] rest hloop
      have hqueued : queuedCallbacks s = 0 := by
        simp [queuedCallbacks, hui, hloop, hnone]
      have hdown : s.queue.scheduled = false := by
        rw [hqueued, hworker] at hflag
        simpa using hflag.symm
      refine ⟨hworker, ?_, by rw [hcount]; exact hqueued, nofun⟩
      cases hpending : s.queue.pending with
      | none => rfl
      | some progress =>
        rw [h.pending (by rw [hpending]; rfl)] at hdown
        cases hdown
    · have hd := h.drained (.inr hend)
      exact ⟨hd.worker, hd.queue, by rw [hcount]; exact hd.none_queued, nofun⟩
  · rcases h.coming hend with hin | hin | hin
    · rw [hloop] at hin
      rcases List.mem_cons.mp hin with heq | hin
      · exact .inr (.inl (by rw [← heq]))
      · exact .inl hin
    · rw [hui] at hin
      cases hin
    · exact .inr (.inr hin)

theorem Mailbox.take (h : Mailbox s) (hui : s.ui = .begun .progress) :
    Mailbox { s with queue := s.queue.take.1, ui := .applying s.queue.take.2 } := by
  have hflag := h.flag
  have hle := Bool.toNat_le s.queue.scheduled
  have hwaiting : waiting { s with queue := s.queue.take.1, ui := .applying s.queue.take.2 }
      = waiting s := by
    simp only [waiting, MigrationProgressQueue.take, hui, taken, Option.toList_none,
      List.append_nil, List.nil_append]
    cases s.queue.pending <;> rfl
  rw [queuedCallbacks, hui, if_pos rfl] at hflag
  refine ⟨?_, nofun, by rw [hwaiting]; exact h.ordered, by rw [hwaiting]; exact h.latest,
    h.behind, fun hend => ?_, fun hend => ?_⟩
  · simp only [queuedCallbacks, MigrationProgressQueue.take, reduceCtorEq, if_false,
      Bool.toNat_false]
    omega
  · rcases hend with hend | hend
    · cases hend
    · have hnone := (h.drained (.inr hend)).none_queued
      rw [queuedCallbacks, hui, if_pos rfl] at hnone
      omega
  · rcases h.coming hend with hin | hin | hin
    · exact .inl hin
    · rw [hui] at hin
      cases hin
    · exact .inr (.inr hin)

/-- The UI thread has nothing more to do with what it took. -/
theorem Mailbox.idle {view : View} {trace : List Event} (h : Mailbox s)
    (hui : s.ui ≠ .begun .progress)
    (hsame : applied trace ++ waiting { s with ui := .idle, view := view, trace := trace }
      = applied s.trace ++ waiting s) (hpushed : pushed trace = pushed s.trace)
    (hdrained : .terminal ∈ trace → Drained s)
    (hcoming : s.ui = .begun .terminal ∨ .terminal ∈ s.trace → .terminal ∈ trace) :
    Mailbox { s with ui := .idle, view := view, trace := trace } := by
  have hcount : queuedCallbacks { s with ui := .idle, view := view, trace := trace }
      = queuedCallbacks s := by
    simp only [queuedCallbacks, hui, reduceCtorEq, if_false]
  refine ⟨by rw [hcount]; exact h.flag, h.pending, ?_, ?_, h.behind, fun hend => ?_,
    fun hend => ?_⟩
  · rw [hsame, hpushed]
    exact h.ordered
  · rw [hsame, hpushed]
    exact h.latest
  · have hd := hdrained (hend.resolve_left nofun)
    exact ⟨hd.worker, hd.queue, by rw [hcount]; exact hd.none_queued, nofun⟩
  · rcases h.coming hend with hin | hin
    · exact .inl hin
    · exact .inr (.inr (hcoming hin))

theorem Mailbox.apply {progress : MigrationProgress} {view : View} (h : Mailbox s)
    (hui : s.ui = .applying (some progress)) :
    Mailbox { s with
      ui := .idle, view := view, trace := s.trace ++ [.applied progress] } := by
  refine h.idle (by rw [hui]; nofun) ?_ ?_ (fun hmem => ?_) (fun hend => ?_)
  · rw [applied_concat]
    simp only [waiting, hui, taken, appliedOf, Option.toList_some, List.append_assoc,
      List.nil_append]
  · rw [pushed_concat]
    simp only [pushedOf, Option.toList_none, List.append_nil]
  · rcases List.mem_append.mp hmem with hmem | hmem
    · exact h.drained (.inr hmem)
    · cases List.mem_singleton.mp hmem
  · rcases hend with hend | hend
    · rw [hui] at hend
      cases hend
    · exact List.mem_append_left _ hend

theorem Mailbox.terminal (h : Mailbox s) (hui : s.ui = .begun .terminal) :
    Mailbox { s with ui := .idle, trace := s.trace ++ [.terminal] } := by
  refine h.idle (by rw [hui]; nofun) ?_ ?_ (fun _ => h.drained (.inl hui))
    (fun _ => List.mem_append_right _ (List.mem_singleton_self _))
  · rw [applied_concat]
    simp only [waiting, hui, taken, appliedOf, Option.toList_none, List.append_nil]
  · rw [pushed_concat]
    simp only [pushedOf, Option.toList_none, List.append_nil]

/-- A callback ends without an event. -/
theorem Mailbox.rest (h : Mailbox s) (hui : s.ui = .applying none ∨ s.ui = .begun .foreign) :
    Mailbox { s with ui := .idle } := by
  refine h.idle ?_ ?_ rfl (fun hmem => h.drained (.inr hmem)) fun hend => ?_
  · rcases hui with hui | hui <;> rw [hui] <;> nofun
  · rcases hui with hui | hui <;> simp only [waiting, hui, taken]
  · rcases hend with hend | hend
    · rcases hui with hui | hui <;> rw [hui] at hend <;> cases hend
    · exact hend

end UiSteps

/-! ## 7. Every run -/

section Runs

variable {c : Catalogue} {view : View} {s s' : Migration}

/-- The trace only grows. -/
theorem Step.trace (hs : Step c s s') : ∃ more, s'.trace = s.trace ++ more := by
  cases hs with
  | push progress _ => exact ⟨_, rfl⟩
  | scheduleRejected _ | finishRejected _ | apply _ | terminal _ => exact ⟨_, rfl⟩
  | schedule _ | finish _ | foreign | begin _ _ | take _ | applyNothing _ | foreignDone _ =>
    exact ⟨[], (List.append_nil _).symm⟩

/-- **The step lemma.** -/
theorem Mailbox.step (h : Mailbox s) (hs : Step c s s') (htaken : .rejected ∉ s'.trace) :
    Mailbox s' := by
  cases hs with
  | push progress hworker => exact h.push progress hworker
  | schedule hworker => exact h.schedule hworker
  | finish hworker => exact h.finish hworker
  | scheduleRejected _ | finishRejected _ => exact absurd (by simp) htaken
  | foreign => exact h.foreign
  | begin hui hloop => exact h.begin hui hloop
  | take hui => exact h.take hui
  | apply hui => exact h.apply hui
  | applyNothing hui => exact h.rest (.inl hui)
  | terminal hui => exact h.terminal hui
  | foreignDone hui => exact h.rest (.inr hui)

theorem Recorded.step (h : Recorded s.trace) (hm : Mailbox s) (hs : Step c s s') :
    Recorded s'.trace := by
  have hconcat : ∀ {e}, (∀ p, e = .pushed p → .terminal ∉ s.trace) →
      (∀ p, e = .applied p → .terminal ∉ s.trace) →
      (e = .terminal → (applied s.trace).getLast? = (pushed s.trace).getLast?) →
      Recorded (s.trace ++ [e]) := fun h₁ h₂ h₃ =>
    ⟨h.pushed_before.concat h₁, h.applied_before.concat h₂, h.complete.concat h₃⟩
  cases hs with
  | push progress hworker =>
    have hnone := (hm.not_terminal (by rw [hworker]; nofun)).2.2
    exact hconcat (fun _ _ => hnone) (fun _ _ => hnone) nofun
  | scheduleRejected _ | finishRejected _ => exact hconcat nofun nofun nofun
  | apply hui =>
    have hnone : .terminal ∉ s.trace := fun hmem => (hm.drained (.inr hmem)).none_taken _ hui
    exact hconcat (fun _ _ => hnone) (fun _ _ => hnone) nofun
  | terminal hui =>
    have hd := hm.drained (.inl hui)
    have hwaiting : waiting s = [] := by simp [waiting, hui, taken, hd.queue]
    have hlatest := hm.latest
    rw [hwaiting, List.append_nil] at hlatest
    exact hconcat nofun nofun fun _ => hlatest
  | schedule _ | finish _ | foreign | begin _ _ | take _ | applyNothing _ | foreignDone _ => exact h

end Runs

/-! ## 8. Two pushes, one callback -/

end WinProfile.Progress
