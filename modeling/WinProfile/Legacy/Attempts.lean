/-
  File:      WinProfile/Legacy/Attempts.lean
  Subject:   Startups of any number of instances where an inspection is one step, as runs of the
             machine in which every call is one.

  * `Machine.Attempt` -- a step of such a startup; those of a recovery are single calls.
  * `Machine.advances`, `Machine.consents` -- a program that nothing comes between.
  * `Machine.Attempts.runs` -- no migration begins while an inspection is under way, so these are runs
    of quiet steps.
-/
import WinProfile.Legacy.Machine

namespace WinProfile.Legacy

/-- **One step of the instance `i`** where an inspection is one step. -/
inductive Machine.Attempt (C : StateCodec) (calm : Prop) (i : Nat) : Machine → Machine → Prop where
  | inspect {m : Machine} {r : Except LegacyStorageError ProductionStorageState} {w : World}
      (h : m.tasks i = .idle)
      (hs : Proc.Steps (stepIn calm i) (inspectUnder C) m.world (.done r) w) :
      Attempt C calm i m (m.put i (.ofInspection r) w)
  | consent {m : Machine} {recovery : LegacyStorageRecovery} (h : m.tasks i = .asking recovery) :
      Attempt C calm i m (m.put i (.recovering (completeRecovery C recovery)) m.world)
  | call {m : Machine} {c : Call} {w : World} {r : Answer c}
      {next : Answer c → Prog StartupError StorageHandle}
      (h : m.tasks i = .recovering (.call c next)) (hs : step i c m.world r w) :
      Attempt C calm i m (m.put i (.recovering (next r)) w)
  /-- It ends, or it is stopped wherever it is. -/
  | stop {m : Machine} : Attempt C calm i m (m.put i .idle (m.world.released i))

/-- Startups of any number of instances, their steps in any order. -/
abbrev Machine.Attempts (C : StateCodec) (calm : Prop) : Machine → Machine → Prop :=
  Relation.ReflTransGen fun m m' => ∃ i, m.Attempt C calm i m'

/-- No inspection is under way. -/
def Machine.Unwatched (m : Machine) : Prop := ∀ i p, m.tasks i ≠ .inspecting p

section Runs

variable {C : StateCodec} {S : Setting} {calm : Prop} {i : Nat} {m m' : Machine} {w w' : World}

/-- Calls without failures are calls of an inspection. -/
theorem stepIn_of_true {c : Call} {r : Answer c} (h : stepIn True i c w r w') :
    stepIn calm i c w r w' := by
  obtain ⟨fate, hadmissible, hcalm, heq⟩ := h
  exact ⟨fate, hadmissible, fun _ => hcalm trivial, heq⟩

/-- A step that leaves ProgramData alone is quiet. -/
theorem Machine.QuietStep.same (hs : m.Step C calm i m') (hw : m'.world = m.world) :
    Machine.QuietStep C calm m m' :=
  ⟨⟨i, hs⟩, fun _ hunfinished => hw ▸ hunfinished⟩

theorem OneOpen.released {u : MigrationStateRecord} (h : OneOpen C w u) :
    OneOpen C (w.released i) u :=
  ⟨h.sound, h.unfinished, h.reached, h.others⟩

/-- An instance that is stopped begins nothing. -/
theorem Machine.QuietStep.stop : Machine.QuietStep C calm m (m.put i .idle (m.world.released i)) :=
  ⟨⟨i, Machine.Step.stop⟩, fun _ ⟨u, h⟩ => ⟨u, h.sound, h.unfinished, h.reached, h.others⟩⟩

theorem Machine.put_put {task task' : Task} :
    (m.put i task w).put i task' w' = m.put i task' w' := by
  unfold Machine.put
  rw [Function.update_idem]

theorem Machine.put_self {task : Task} (h : m.tasks i = task) : m.put i task m.world = m := by
  unfold Machine.put
  rw [← h, Function.update_eq_self]

theorem Machine.put_task {task : Task} : (m.put i task w).tasks i = task := by
  rw [Machine.put_tasks, if_pos rfl]

theorem Machine.Unwatched.put {task : Task} (h : m.Unwatched) (htask : ∀ p, task ≠ .inspecting p) :
    (m.put i task w).Unwatched := by
  intro j p hj
  rw [Machine.put_tasks] at hj
  split at hj
  · exact htask p hj
  · exact h j p hj

theorem Task.ofInspection_ne (r : Except LegacyStorageError ProductionStorageState)
    (p : Prog LegacyStorageError ProductionStorageState) : Task.ofInspection r ≠ .inspecting p := by
  rcases r with e | (root | recovery | recovery) <;> exact Task.noConfusion

theorem Machine.Unwatched.idle (h : ∀ i, m.tasks i = .idle) : m.Unwatched := fun i p hp => by
  rw [h i] at hp
  cases hp

/-- **The instance `i` alone**: a program that nothing comes between. -/
theorem Machine.advances {ε α : Type} {R : Machine → Machine → Prop} {task : Prog ε α → Task}
    {does : (c : Call) → World → Answer c → World → Prop} {p p' : Prog ε α}
    (hstep : ∀ {m : Machine} {c : Call} {w : World} {r : Answer c} {next : Answer c → Prog ε α},
      m.tasks i = task (.call c next) → does c m.world r w → R m (m.put i (task (next r)) w))
    (hs : Proc.Steps does p w p' w') :
    ∀ {m : Machine}, m.world = w → m.tasks i = task p →
      Relation.ReflTransGen R m (m.put i (task p') w') := by
  induction hs with
  | stop p s =>
    rintro m rfl htask
    rw [Machine.put_self htask]
  | @call c next s s₁ s' r p hcall _ ih =>
    rintro m rfl htask
    have hrest := ih (m := m.put i (task (next r)) s₁) rfl Machine.put_task
    rw [Machine.put_put] at hrest
    exact .head (hstep htask hcall) hrest

/-- An instance is given consent, and recovers for some calls. -/
theorem Machine.consents {R : Machine → Machine → Prop} {recovery : LegacyStorageRecovery}
    {p : Prog StartupError StorageHandle}
    (hconsent : ∀ {m : Machine}, m.tasks i = .asking recovery →
      R m (m.put i (.recovering (completeRecovery C recovery)) m.world))
    (hstep : ∀ {m : Machine} {c : Call} {w : World} {r : Answer c}
      {next : Answer c → Prog StartupError StorageHandle}, m.tasks i = .recovering (.call c next) →
        step i c m.world r w → R m (m.put i (.recovering (next r)) w))
    (hs : Proc.Steps (step i) (completeRecovery C recovery) m.world p w) :
    Relation.ReflTransGen R (m.put i (.asking recovery) m.world) (m.put i (.recovering p) w) := by
  have hfirst := hconsent (m := m.put i (.asking recovery) m.world) Machine.put_task
  have hrest := Machine.advances hstep hs
    (m := m.put i (.recovering (completeRecovery C recovery)) m.world) rfl Machine.put_task
  rw [Machine.put_put] at hfirst hrest
  exact .head hfirst hrest

/-- **An inspection in one step** is a run of its calls. -/
theorem Knows.inspects {seen : World → Prop} {r : Except LegacyStorageError ProductionStorageState}
    (h : Knows C S seen m.world) (hidle : m.tasks i = .idle)
    (hs : Proc.Steps (stepIn calm i) (Legacy.inspectUnder C) m.world (.done r) w) :
    Machine.Runs C calm m (m.put i (.inspecting (.done r)) w) := by
  have hbegin : Machine.QuietStep C calm m (m.put i (.inspecting (Legacy.inspectUnder C)) m.world) :=
    .same (.begin hidle) rfl
  have halone : Proc.always Eq (stepIn calm i) (fun w w' => w' = w) (Told C S seen calm)
      (fun _ _ => True) (Legacy.inspectUnder C) m.world :=
    Proc.always_anti h.inspectUnder (fun s s' hr => hr ▸ .refl s) fun _ _ _ _ hcall => hcall
  have hinspect : Machine.Runs C calm _ _ :=
    Machine.advances (fun htask ⟨hcall, hsame⟩ => .same (.look htask hcall) hsame)
      (hs.guaranteed halone) (m := m.put i (.inspecting (Legacy.inspectUnder C)) m.world) rfl
      Machine.put_task
  rw [Machine.put_put] at hinspect
  exact .head hbegin hinspect

/-- **A step is a run** of quiet steps, where no inspection is under way. -/
theorem Machine.Attempt.runs {seen : World → Prop} (hs : m.Attempt C calm i m')
    (h : Knows C S seen m.world) (hunwatched : m.Unwatched) :
    Machine.Runs C calm m m' ∧ m'.Unwatched := by
  cases hs with
  | @inspect r w hidle hs =>
    refine ⟨(h.inspects hidle hs).tail ?_, hunwatched.put (Task.ofInspection_ne r)⟩
    have hend : Machine.QuietStep C calm (m.put i (.inspecting (.done r)) w)
        ((m.put i (.inspecting (.done r)) w).put i (.ofInspection r) w) :=
      .same (.inspected Machine.put_task) rfl
    rwa [Machine.put_put] at hend
  | consent hasking =>
    exact ⟨.single (.same (.consent hasking) rfl), hunwatched.put fun _ => Task.noConfusion⟩
  | call hrecovering hs =>
    exact ⟨.single ⟨⟨i, .call hrecovering hs⟩, fun ⟨j, p, hj⟩ => absurd hj (hunwatched j p)⟩,
      hunwatched.put fun _ => Task.noConfusion⟩
  | stop => exact ⟨.single .stop, hunwatched.put fun _ => Task.noConfusion⟩

/-- **Startups whose inspections are one step** are runs of quiet steps. -/
theorem Machine.Attempts.runs (hs : Machine.Attempts C calm m m') (hunwatched : m.Unwatched)
    (h : m.Inv C S (fun _ => True) calm) : Machine.Runs C calm m m' ∧ m'.Unwatched := by
  induction hs with
  | refl => exact ⟨.refl, hunwatched⟩
  | tail _ hstep ih =>
    obtain ⟨hruns, hunwatched'⟩ := ih
    obtain ⟨i, hstep⟩ := hstep
    have hinv := (h.run hruns fun _ _ _ => trivial).1
    obtain ⟨hlast, hunwatched''⟩ := hstep.runs hinv.knows hunwatched'
    exact ⟨hruns.trans hlast, hunwatched''⟩

end Runs

end WinProfile.Legacy
