/-
  File:      WinProfile/Legacy/Bystanders.lean
  Subject:   Inspections while a recovery is in progress: they leave it alone where none of them is
             under way when its migration begins, and one that has read the journal before takes the
             name of the product from it.

  * `Machine.stops`, `Machine.Inv.finishes` -- whatever is at work can be stopped, and the recovery
    comes to its end with its own root.
  * `recovery_undisturbed` -- what inspections do while a migration is not complete.
  * `Proc.Steps.vacated` -- the name of the product is free at some time of an exchange.
  * `inspection_takes_product` -- an inspection that creates a root then, and starts on it.
-/
import WinProfile.Legacy.Convergence

namespace WinProfile.Legacy

/-! ## 1. The end of a recovery -/

section Ends

variable {C : StateCodec} {S : Setting} {calm : Prop} {L : StorageObject} {i : Nat} {m m' : Machine}
  {w : World} {u : MigrationStateRecord}

/-- The instances that are at work. -/
def Machine.busy (m : Machine) : Set Nat := {i | m.tasks i ≠ .idle}

theorem Machine.busy_put {task : Task} (h : m.busy.Finite) : (m.put i task w).busy.Finite := by
  refine (h.insert i).subset fun j hj => ?_
  by_cases heq : j = i
  · exact .inl heq
  · have htask : (m.put i task w).tasks j ≠ .idle := hj
    rw [Machine.put_tasks, if_neg heq] at htask
    exact .inr htask

theorem Machine.Runs.busy (hs : Machine.Runs C calm m m') (h : m.busy.Finite) : m'.busy.Finite := by
  induction hs with
  | refl => exact h
  | tail _ hstep ih =>
    obtain ⟨⟨i, hstep⟩, _⟩ := hstep
    cases hstep with
    | begin _ => exact Machine.busy_put ih
    | look _ _ => exact Machine.busy_put ih
    | inspected _ => exact Machine.busy_put ih
    | consent _ => exact Machine.busy_put ih
    | call _ _ => exact Machine.busy_put ih
    | stop => exact Machine.busy_put ih

/-- All instances that are at work are stopped. -/
theorem Machine.stops {busy : Set Nat} (hbusy : busy.Finite) (m : Machine) :
    ∃ m', Machine.Runs C calm m m' ∧ (∀ j ∈ busy, m'.tasks j = .idle) ∧
      (∀ j, m.tasks j = .idle → m'.tasks j = .idle) ∧
      ∀ u, OneOpen C m.world u → OneOpen C m'.world u := by
  induction busy, hbusy using Set.Finite.induction_on with
  | empty => exact ⟨m, .refl, fun j hj => hj.elim, fun _ h => h, fun _ h => h⟩
  | @insert i busy _ _ ih =>
    obtain ⟨m', hrun, hstopped, hidle, hopen⟩ := ih
    have hput : ∀ j, m'.tasks j = .idle ∨ j = i →
        (m'.put i .idle (m'.world.released i)).tasks j = .idle := by
      intro j hj
      rw [Machine.put_tasks]
      split
      · rfl
      · next hne => exact hj.resolve_right hne
    refine ⟨_, hrun.tail .stop, fun j hj => hput j ?_, fun j hj => hput j (.inl (hidle j hj)),
      fun u hu => (hopen u hu).released⟩
    rcases hj with rfl | hj
    · exact .inr rfl
    · exact .inl (hstopped j hj)

/-- What is recorded is recorded in the bootstrap directory. -/
theorem Consistent.bootstrap (h : Consistent C S w) (hu : OneOpen C w u) :
    w.names BOOTSTRAP_DIRECTORY ≠ none := by
  have hopen := h.oneOpen.mp hu
  obtain ⟨records, _, hjournal, hlayout, _⟩ := h
  intro hnone
  rw [hjournal.records, hlayout.bootstrap hnone] at hopen
  cases hopen

/-- **A startup that resumes**: where nobody else is at work, the instance `i` can complete the
migration that is not complete. -/
theorem Waiting.resumes (h : Waiting C (.any L) m.world) (hplain : Plain m.world)
    (hbounded : Bounded m.world.names) (hidle : m.tasks i = .idle) (hu : OneOpen C m.world u) :
    ∃ m', Machine.Attempts C calm m m' ∧ Finished C u m'.world ∧
      m'.tasks i = .recovering (.done (.ok ⟨PRODUCT_DIRECTORY, newRoot u.nextIdentity⟩)) := by
  have hopen := h.consistent.oneOpen.mp hu
  -- the inspection asks to resume
  obtain ⟨state, hasks, _, hinspect⟩ :=
    h.consistent.inspected h.trusted hplain hbounded hidle calm
  unfold Asks at hasks
  rw [hopen] at hasks
  obtain ⟨recovery, rfl, _⟩ := hasks
  -- the recovery runs to its end
  obtain ⟨r, w, hs⟩ := Proc.Steps.total (fun c w hw => exists_calm (i := i) c hw)
    (completeRecovery C recovery) hbounded
  have hnone : openOf (recordsIn C m.world) ≠ none := by
    rw [hopen]
    exact Option.some_ne_none _
  have hend := hs.always (calm_completeRecovery h (h.consistent.bootstrap hu) hplain trivial
    fun hclosed => absurd hclosed hnone)
  cases r with
  | error e => exact hend.elim
  | ok root =>
    obtain ⟨⟨v, hv, hcompleted⟩, _⟩ := hend
    obtain rfl : u = v := by
      rcases hv with hv | ⟨hclosed, _⟩
      · exact Option.some.inj (hopen.symm.trans hv)
      · exact absurd hclosed hnone
    obtain rfl := hcompleted.root
    have hrecovers : Machine.Attempts C calm _ _ := Machine.consents (m := m)
      (fun hasking => ⟨i, .consent hasking⟩) (fun htask hcall => ⟨i, .call htask hcall⟩)
      (hs.mono fun _ _ _ _ hcall => step_of_stepIn hcall)
    exact ⟨_, .head ⟨i, hinspect⟩ hrecovers, hcompleted.finished, Machine.put_task⟩

/-- **The recovery can finish**: whoever is at work is stopped, and the next startup completes the
migration with the root that was made for it. -/
theorem Machine.Inv.finishes (h : m.Inv C (.any L) (fun _ => True) calm)
    (htrusted : Trusted m.world.names) (hplain : Plain m.world) (hbounded : Bounded m.world.names)
    (hbusy : m.busy.Finite) (hu : OneOpen C m.world u) (i : Nat) :
    ∃ m', Machine.Runs C calm m m' ∧ Finished C u m'.world ∧
      m'.tasks i = .recovering (.done (.ok ⟨PRODUCT_DIRECTORY, newRoot u.nextIdentity⟩)) := by
  obtain ⟨m₁, hstops, hstopped, hkept, hopen⟩ := Machine.stops (C := C) hbusy m
  have hidle : ∀ j, m₁.tasks j = .idle := fun j => by
    by_cases hj : m.tasks j = .idle
    · exact hkept j hj
    · exact hstopped j hj
  obtain ⟨hinv₁, hkept₁⟩ := h.run hstops fun _ _ _ => trivial
  have hwaiting : Waiting C (.any L) m₁.world :=
    ⟨hinv₁.knows.consistent, hinv₁.free hidle, hkept₁.keeps.trusted htrusted⟩
  obtain ⟨m₂, hresumes, hfinished, htask⟩ :=
    hwaiting.resumes (hplain.runs hstops) (hbounded.runs hstops) (hidle i) (hopen u hu)
  have hruns := (hresumes.runs (.idle hidle) hinv₁).1
  exact ⟨m₂, hstops.trans hruns, hfinished, htask⟩

/-! ## 2. Inspections beside it -/

/-- **Inspections leave a recovery alone** in every run in which no migration begins while an inspection
is under way: none of their calls changes anything, none of them starts on a root while a migration is
not complete, and from every state in which one is not it can be completed with its own root. -/
theorem recovery_undisturbed {m₀ : Machine} (hstart : Fresh C L m₀.world)
    (htrusted : Trusted m₀.world.names) (hplain : Plain m₀.world) (hbounded : Bounded m₀.world.names)
    (hidle : ∀ i, m₀.tasks i = .idle) (hrun : Machine.Runs C False m₀ m) :
    (∀ i p, m.tasks i = .inspecting p →
      (∀ (c : Call) next (r : Answer c) w, p = .call c next → step i c m.world r w → w = m.world) ∧
      ∀ root, p = .done (.ok (.ready root)) → ∀ u, ¬ OneOpen C m.world u) ∧
    ∀ u, OneOpen C m.world u → ∀ i, ∃ m', Machine.Runs C False m m' ∧ Finished C u m'.world ∧
      m'.tasks i = .recovering (.done (.ok ⟨PRODUCT_DIRECTORY, newRoot u.nextIdentity⟩)) := by
  obtain ⟨hinv, hkept⟩ := (hstart.invAny hidle).run hrun fun _ _ _ => trivial
  refine ⟨fun i p htask => ⟨?_, ?_⟩, fun u hu i => ?_⟩
  · rintro c next r w rfl hs
    rw [← stepIn_false] at hs
    exact (hinv.look htask hs).1
  · rintro root rfl u hu
    have htold : Told C (.any L) (fun _ => True) False (.ready root) m.world :=
      hinv.inspecting i _ htask
    obtain ⟨o, hsettled, _⟩ := htold
    rw [hinv.knows.consistent.oneOpen, hsettled.1] at hu
    cases hu
  · have hbusy₀ : m₀.busy.Finite := Set.finite_empty.subset fun j hj => absurd (hidle j) hj
    exact hinv.finishes (hkept.keeps.trusted htrusted) (hplain.runs hrun) (hbounded.runs hrun)
      (hrun.busy hbusy₀) hu i

/-- A second instance inspects while the first one has a migration under way. -/
theorem recovery_undisturbed_sample : ∃ m u, Machine.Runs sampleStateCodec False staleMachine m ∧
    OneOpen sampleStateCodec m.world u ∧
    m.tasks 1 = .inspecting (inspectUnder sampleStateCodec) ∧
    (∀ root, inspectUnder sampleStateCodec ≠ .done (.ok (.ready root))) ∧
    ∃ m', Machine.Runs sampleStateCodec False m m' ∧ Finished sampleStateCodec u m'.world := by
  obtain ⟨m, u, hrun, hopen, _, _, hidle⟩ := staleMachine_underway False
  have hbegin : Machine.QuietStep sampleStateCodec False m
      (m.put 1 (.inspecting (inspectUnder sampleStateCodec)) m.world) :=
    .same (.begin (hidle 1 (by decide))) rfl
  have hlater := hrun.tail hbegin
  obtain ⟨hinspections, hfinishes⟩ := recovery_undisturbed staleMachine_fresh startWorld_trusted
    startWorld_plain startWorld_bounded (fun _ => rfl) hlater
  obtain ⟨m', hruns, hfinished, _⟩ := hfinishes u hopen 2
  exact ⟨_, u, hlater, hopen, Machine.put_task,
    fun root hroot => (hinspections 1 _ Machine.put_task).2 root hroot u hopen, m', hruns, hfinished⟩

end Ends

/-! ## 3. The name of the product during an exchange -/

/-- The name denotes this object, or nothing. -/
def OnlyObject (n : String) (o : StorageObject) (w : World) : Prop :=
  w.names n = some o ∨ w.names n = none

section Names

variable {me : Nat} {n : String} {o : StorageObject} {w w' : World} {c : Call}

/-- **No call puts an object in the place of another one**: a name keeps what it denotes, or is free. -/
theorem answer_name (fate : Fate) (c : Call) (h : w.names n = some o) :
    OnlyObject n o (answer me fate c w).2 := by
  have hkept : OnlyObject n o w := .inl h
  cases c with
  | openDirectory name => exact fate.look_keeps _ _ hkept
  | openObject name => exact fate.look_keeps _ _ hkept
  | fileInformation handle => exact fate.look_keeps _ _ hkept
  | securityInfo handle => exact fate.look_keeps _ _ hkept
  | objectIdentity handle => exact fate.look_keeps _ _ hkept
  | entries created => exact fate.look_keeps _ _ hkept
  | openFile name => exact fate.look_keeps _ _ hkept
  | readToEnd content => exact fate.look_keeps _ _ hkept
  | checkEntry serial => exact fate.look_keeps _ _ hkept
  | syncAll serial => exact fate.look_keeps _ _ hkept
  | adjustPrivileges => exact fate.look_keeps _ _ hkept
  | restorePrivileges => exact fate.look_keeps _ _ hkept
  | openService root => exact fate.look_keeps _ _ hkept
  | createDirectory name =>
    refine Fate.apply_keeps hkept fun a w' heq => ?_
    split at heq
    · cases heq
    · next hfree =>
      cases heq
      have hne : n ≠ name := by
        rintro rfl
        rw [hfree] at h
        cases h
      exact .inl ((Function.update_of_ne hne _ _).trans h)
  | rename handle target =>
    refine Fate.apply_keeps hkept fun a w' heq => ?_
    split_ifs at heq
    split at heq
    · cases heq
    · next hfree =>
      cases heq
      have hne : n ≠ target := by
        rintro rfl
        rw [hfree] at h
        cases h
      by_cases hpath : n = handle.path
      · exact .inr ((Function.update_of_ne hne _ _).trans (by rw [hpath, Function.update_self]))
      · exact .inl ((Function.update_of_ne hne _ _).trans ((Function.update_of_ne hpath _ _).trans h))
  | remove handle =>
    refine Fate.apply_keeps hkept fun a w' heq => ?_
    split_ifs at heq
    cases heq
    by_cases hpath : n = handle.path
    · exact .inr (by rw [hpath]; exact Function.update_self ..)
    · exact .inl ((Function.update_of_ne hpath _ _).trans h)
  | acquireLock =>
    rw [answer]
    split <;> exact hkept
  | writeAll serial bytes =>
    rw [answer]
    split <;> exact hkept
  | random =>
    rw [answer]
    split <;> exact hkept
  | createEntry name =>
    refine Fate.apply_keeps hkept fun a w' heq => ?_
    split_ifs at heq
    cases heq
    exact hkept
  | publish serial name =>
    refine Fate.apply_keeps hkept fun a w' heq => ?_
    split_ifs at heq
    cases heq
    exact hkept
  | deleteEntry serial =>
    refine Fate.apply_keeps hkept fun a w' heq => ?_
    cases heq
    exact hkept
  | appendAudit entry =>
    refine Fate.apply_keeps hkept fun a w' heq => ?_
    cases heq
    exact hkept

/-- **A name is free at some time** between two objects that it denotes. -/
theorem vacated {ε α : Type} {p p' : Prog ε α} (hs : Proc.Steps (step me) p w p' w')
    (h : w.names n = some o) (h' : w'.names n ≠ some o) :
    ∃ p₁ w₁, Proc.Steps (step me) p w p₁ w₁ ∧ w₁.names n = none := by
  induction hs with
  | stop p s => exact absurd h h'
  | @call c next s s₁ s' r p hcall hrest ih =>
    have hname : OnlyObject n o s₁ := by
      obtain ⟨fate, _, heq⟩ := hcall
      have hanswer : OnlyObject n o (answer me fate c s).2 := answer_name fate c h
      rwa [heq] at hanswer
    rcases hname with hkept | hnone
    · obtain ⟨p₁, w₁, hsteps, hfree⟩ := ih hkept h'
      exact ⟨p₁, w₁, .call hcall hsteps, hfree⟩
    · exact ⟨_, s₁, .call hcall (.stop _ _), hnone⟩

end Names

/-! ## 4. An inspection that was overtaken -/

/-- Any steps of any instances, quiet or not. -/
abbrev Machine.Interleaved (C : StateCodec) (calm : Prop) : Machine → Machine → Prop :=
  Relation.ReflTransGen fun m m' => ∃ i, m.Step C calm i m'

section Overtaken

variable {C : StateCodec} {S : Setting} {calm : Prop} {i : Nat} {m : Machine} {w w' : World}

/-- An inspection goes on, whatever it changes. -/
theorem Machine.goesOn {p p' : Prog LegacyStorageError ProductionStorageState}
    (hs : Proc.Steps (stepIn calm i) p m.world p' w) :
    Machine.Interleaved C calm (m.put i (.inspecting p) m.world) (m.put i (.inspecting p') w) := by
  have hlooks : Machine.Interleaved C calm _ _ :=
    Machine.advances (fun htask hcall => ⟨i, .look htask hcall⟩) hs
      (m := m.put i (.inspecting p) m.world) rfl Machine.put_task
  rwa [Machine.put_put] at hlooks

/-- An instance inspects, is given consent, and recovers for some calls. -/
theorem Machine.goes {recovery : LegacyStorageRecovery} {p : Prog StartupError StorageHandle}
    (hidle : m.tasks i = .idle) (hasks : Proc.Steps (stepIn True i) (inspectUnder C) m.world
      (.done (.ok (.needsConsent recovery))) m.world)
    (hs : Proc.Steps (step i) (completeRecovery C recovery) m.world p w) :
    Machine.Interleaved C calm m (m.put i (.recovering p) w) := by
  have hbegin : m.Step C calm i (m.put i (.inspecting (inspectUnder C)) m.world) := .begin hidle
  have hinspects : Machine.Interleaved C calm _ _ :=
    Machine.goesOn (i := i) (hasks.mono fun _ _ _ _ hcall => stepIn_of_true hcall)
  have hinspected : Machine.Step C calm i
      (m.put i (.inspecting (.done (.ok (.needsConsent recovery)))) m.world)
      ((m.put i (.inspecting (.done (.ok (.needsConsent recovery)))) m.world).put i
        (.asking recovery) m.world) := .inspected Machine.put_task
  rw [Machine.put_put] at hinspected
  have hrecovers : Machine.Interleaved C calm _ _ := Machine.consents (m := m)
    (fun hasking => ⟨i, .consent hasking⟩) (fun htask hcall => ⟨i, .call htask hcall⟩) hs
  exact .trans (.tail (.head ⟨i, hbegin⟩ hinspects) ⟨i, hinspected⟩) hrecovers

/-- A production root that is missing is not found. -/
theorem calm_openExistingUnder_missing (hnone : w.names PRODUCT_DIRECTORY = none)
    (htrusted : Trusted w.names) :
    Proc.always Eq (stepIn True i) StaysTrusted (fun _ _ => False)
      (fun e w' => w' = w ∧ e.isNotFound = true) openExistingUnder w := by
  have hopened : Looks (.still w) True i
      (fun h => h.path = PRODUCT_DIRECTORY ∧ w.names PRODUCT_DIRECTORY = some h.object ∧
        h.object.IsRoot)
      (NotOpened True (w.names PRODUCT_DIRECTORY) StorageObject.IsRoot) openExistingUnder :=
    looks_openExistingUnder (still_names w _)
  refine Proc.always_mono (hopened.calm htrusted) ?_ ?_
  · rintro root w' ⟨_, _, hname, _⟩
    rw [hnone] at hname
    cases hname
  · rintro e w' ⟨rfl, he⟩
    rcases he.honest trivial with ⟨_, hnot⟩ | ⟨o, ho, _⟩
    · exact ⟨rfl, hnot⟩
    · rw [hnone] at ho
      cases ho

/-- **The end of an inspection that finds the name of the product free**: it makes a root, and starts
on it. -/
theorem calm_inspectProduct_missing (hnone : w.names PRODUCT_DIRECTORY = none)
    (htrusted : Trusted w.names) :
    Proc.always Eq (stepIn True i) StaysTrusted
      (fun state w' => ∃ k, state = .ready ⟨PRODUCT_DIRECTORY, newRoot k⟩ ∧
        w' = w.placed PRODUCT_DIRECTORY (some (newRoot k)) ∧
        ∀ n o, w.names n = some o → o.identity ≠ k)
      (fun _ _ => False) inspectProduct w := by
  have hmissing := calm_openExistingUnder_missing (i := i) hnone htrusted
  unfold inspectProduct
  refine (Proc.always_bind _ _).mpr ((Proc.always_attempt _).mpr (Proc.always_mono hmissing
    (fun _ _ hfalse => hfalse.elim) ?_))
  rintro e w₁ ⟨rfl, hnot⟩
  dsimp only
  rw [if_pos hnot]
  unfold openOrCreateUnder
  refine (Proc.always_bind _ _).mpr ((Proc.always_mapErr _ _).mpr ((Proc.always_bind _ _).mpr
    ((Proc.always_attempt _).mpr (Proc.always_mono hmissing (fun _ _ hfalse => hfalse.elim) ?_))))
  rintro e w₁ ⟨rfl, hnot⟩
  dsimp only
  rw [if_pos hnot]
  refine (Proc.always_bind _ _).mpr ((Proc.always_attempt _).mpr (Proc.always_mono
    (calm_createProtectedChild hnone htrusted) ?_ fun _ _ hfalse => hfalse.elim))
  rintro root w₂ ⟨k, rfl, rfl, hfresh⟩
  exact ⟨k, rfl, rfl, hfresh⟩

/-- While the name of the product is free, the next root has the name of its record. -/
theorem Stands.nextRoot {names : Names} {u : MigrationStateRecord} (h : Stands names u)
    (hnone : names PRODUCT_DIRECTORY = none) : names u.nextName = some (newRoot u.nextIdentity) := by
  by_cases hprepared : u.phase = .prepared
  · exact (h.prepared hprepared).1
  · by_cases hdetached : u.phase = .detached
    · rcases (h.detached hdetached).2 with ⟨hnext, _⟩ | ⟨_, hproduct⟩
      · exact hnext
      · rw [hnone] at hproduct
        cases hproduct
    · have hproduct := (h.ready hprepared hdetached).2
      rw [hnone] at hproduct
      cases hproduct

/-- Wherever a recovery is stopped that nothing comes between, ProgramData is in order. -/
theorem Waiting.stopped {recovery : LegacyStorageRecovery} {p : Prog StartupError StorageHandle}
    (h : Waiting C S w) (hmay : S.detachable recovery.detectedIdentity)
    (hs : Proc.Steps (step i) (completeRecovery C recovery) w p w') :
    Consistent C S w' ∧ Trusted w'.names := by
  have hout : Outside C S i w := ⟨h.consistent, by rw [h.owner]; exact (Option.some_ne_none i).symm⟩
  have halone : Proc.always Eq (step i) (Guar C S i) (fun _ _ => True) (fun _ _ => True)
      (completeRecovery C recovery) w := by
    refine Proc.always_anti (hout.completeRecovery hmay) (fun s s' hr => hr ▸ .refl s) ?_
    rw [stepIn_false]
    exact fun _ _ _ _ hcall => hcall
  exact hs.invariant (I := fun w => Consistent C S w ∧ Trusted w.names) ⟨h.consistent, h.trusted⟩
    (Proc.always_within (K := fun w : World => Trusted w.names) (fun s s' hk (hr : s = s') => hr ▸ hk)
      (fun s s' hk hguar => ⟨⟨hguar.consistent, hguar.keeps.trusted hk⟩, hguar.keeps.trusted hk⟩)
      halone h.trusted)

/-- **An exchange under way**: an instance inspects, is given consent, and recovers until the name of
the product is free. -/
theorem Fresh.exchanges {L : StorageObject} (h : Fresh C L m.world) (hlegacy : ¬ L.IsRoot)
    (htrusted : Trusted m.world.names) (hplain : Plain m.world) (hbounded : Bounded m.world.names)
    (hboot : m.world.names BOOTSTRAP_DIRECTORY ≠ none) (hidle : m.tasks i = .idle) (calm : Prop) :
    ∃ p w u, Machine.Interleaved C calm m (m.put i (.recovering p) w) ∧ OneOpen C w u ∧
      w.names PRODUCT_DIRECTORY = none ∧ w.names u.nextName = some (newRoot u.nextIdentity) ∧
      Trusted w.names ∧ Bounded w.names := by
  have hwaiting := h.waiting htrusted
  obtain ⟨recovery, hidentity, hasks⟩ := h.asks hlegacy htrusted hplain hbounded i
  -- the whole recovery
  obtain ⟨r, w', hs⟩ := Proc.Steps.total (fun c w hw => exists_calm (i := i) c hw)
    (completeRecovery C recovery) hbounded
  have hend := hs.always (calm_completeRecovery hwaiting hboot hplain trivial fun _ =>
    ⟨L, h.product, hidentity.symm⟩)
  cases r with
  | error e => exact hend.elim
  | ok root =>
    obtain ⟨⟨v, _, hcompleted⟩, _⟩ := hend
    have hreplaced : w'.names PRODUCT_DIRECTORY ≠ some L := by
      rw [hcompleted.product]
      rintro heq
      rw [← Option.some.inj heq] at hlegacy
      exact hlegacy (newRoot_isRoot _)
    -- it is stopped where the name is free
    obtain ⟨p, w, hpart, hnone⟩ :=
      vacated (hs.mono fun _ _ _ _ hcall => step_of_stepIn hcall) h.product hreplaced
    obtain ⟨hconsistent, htrusted'⟩ := hwaiting.stopped trivial hpart
    have hopen : openOf (recordsIn C w) ≠ none := by
      obtain ⟨records, _, hjournal, hlayout, _⟩ := hconsistent
      rw [hjournal.records]
      intro hclosed
      obtain ⟨o, ho⟩ := hlayout.product hclosed
      rw [hnone] at ho
      cases ho
    obtain ⟨u, hu⟩ := hconsistent.unfinished.mpr hopen
    exact ⟨p, w, u, Machine.goes hidle hasks hpart, hu, hnone,
      (hconsistent.safe.stands u hu).nextRoot hnone, htrusted',
      hpart.keeps (K := fun w : World => Bounded w.names)
        (fun _ _ _ _ hk hcall => hk.changed (step_changed hcall)) hbounded⟩

end Overtaken

/-- **An inspection takes the name of the product** from a recovery: it has read the journal before the
migration began, finds that name free while the objects are exchanged, makes a root of its own and
starts on it. -/
theorem inspection_takes_product : ∃ m p u root,
    Machine.Interleaved sampleStateCodec True staleMachine m ∧ m.tasks 0 = .recovering p ∧
    OneOpen sampleStateCodec m.world u ∧ m.tasks 1 = .inspecting (.done (.ok (.ready root))) ∧
    m.world.names PRODUCT_DIRECTORY = some root.object ∧ root.object.identity ≠ u.nextIdentity := by
  have hfresh := staleMachine_fresh
  -- the second instance has read the journal
  have hbegin : staleMachine.Step sampleStateCodec True 1
      (staleMachine.put 1 (.inspecting (inspectUnder sampleStateCodec)) staleMachine.world) :=
    .begin rfl
  have hloads : Machine.Interleaved sampleStateCodec True _ _ := Machine.goesOn (m := staleMachine)
    (hfresh.loads startWorld_trusted startWorld_plain startWorld_bounded 1)
  -- the first one recovers until the name of the product is free
  have hfresh' : Fresh sampleStateCodec staleObject
      (staleMachine.put 1 (.inspecting inspectProduct) staleMachine.world).world := hfresh
  obtain ⟨p, w, u, hexchange, hu, hnone, hnext, htrusted, hbounded⟩ :=
    hfresh'.exchanges (i := 0) staleObject_not_isRoot startWorld_trusted startWorld_plain
      startWorld_bounded startWorld_bootstrapped (by rw [Machine.put_tasks]; rfl) True
  -- the second one goes on
  obtain ⟨r, w', hs⟩ :=
    Proc.Steps.total (fun c w hw => exists_calm (i := 1) c hw) inspectProduct hbounded
  have hend := hs.always (calm_inspectProduct_missing hnone htrusted)
  cases r with
  | error e => exact hend.elim
  | ok state =>
    obtain ⟨k, rfl, rfl, hunused⟩ := hend
    have hgoes : Machine.Interleaved sampleStateCodec True _ _ := Machine.goesOn
      (m := (staleMachine.put 1 (.inspecting inspectProduct) staleMachine.world).put 0
        (.recovering p) w) hs
    rw [Machine.put_self (by rw [Machine.put_tasks, if_neg (by decide), Machine.put_task])] at hgoes
    refine ⟨_, p, u, _, .trans (.trans (.head ⟨1, hbegin⟩ hloads) hexchange) hgoes, ?_,
      ⟨hu.sound, hu.unfinished, hu.reached, hu.others⟩, Machine.put_task, ?_, ?_⟩
    · rw [Machine.put_tasks, if_neg (by decide), Machine.put_task]
    · show Function.update w.names PRODUCT_DIRECTORY (some (newRoot k)) PRODUCT_DIRECTORY = _
      rw [Function.update_self]
    · exact fun heq => hunused _ _ hnext heq.symm

end WinProfile.Legacy
