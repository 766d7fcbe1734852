/-
  File:      WinProfile/Legacy/Machine.lean
  Subject:   Any number of instances that start up over the same ProgramData: their inspections, the
             recoveries that the operator consents to, and the ends of all of them, in any order.

  * `Task`, `Machine`, `Machine.Step` -- the instances; a step is one call of one of them.
  * `Rely`, `Guar` -- what a recovery may count on, and what its own steps guarantee the others.
  * `Machine.Inv` -- the invariant; `Machine.Inv.step` keeps it over every quiet step, and
    `Machine.Inv.run` over a run.
-/
import WinProfile.Legacy.Inspecting

namespace WinProfile.Legacy

/-! ## 1. Instances -/

/-- What an instance of the program is doing. -/
inductive Task where
  | idle
  | inspecting (p : Prog LegacyStorageError ProductionStorageState)
  /-- It asks the operator. -/
  | asking (recovery : LegacyStorageRecovery)
  | recovering (p : Prog StartupError StorageHandle)

/-- ProgramData, and what every instance does. -/
structure Machine where
  world : World
  tasks : Nat → Task

/-- After an inspection: the program starts, asks, or reports an error. -/
def Task.ofInspection : Except LegacyStorageError ProductionStorageState → Task
  | .ok (.needsConsent recovery) | .ok (.needsResume recovery) => .asking recovery
  | _ => .idle

/-- The system closes the handles of an instance. -/
def World.released (w : World) (i : Nat) : World :=
  { w with owner := if w.owner = some i then none else w.owner }

/-- The instance `i` does something, and ProgramData changes. -/
def Machine.put (m : Machine) (i : Nat) (task : Task) (w : World) : Machine where
  world := w
  tasks := Function.update m.tasks i task

/-- **One step of the instance `i`**; every call is a step of its own. Where the inspections are
`calm`, their calls do not fail for a reason of their own; those of a recovery may. -/
inductive Machine.Step (C : StateCodec) (calm : Prop) (i : Nat) : Machine → Machine → Prop where
  | begin {m : Machine} (h : m.tasks i = .idle) :
      Step C calm i m (m.put i (.inspecting (inspectUnder C)) m.world)
  | look {m : Machine} {c : Call} {w : World} {r : Answer c}
      {next : Answer c → Prog LegacyStorageError ProductionStorageState}
      (h : m.tasks i = .inspecting (.call c next)) (hs : stepIn calm i c m.world r w) :
      Step C calm i m (m.put i (.inspecting (next r)) w)
  | inspected {m : Machine} {r : Except LegacyStorageError ProductionStorageState}
      (h : m.tasks i = .inspecting (.done r)) : Step C calm i m (m.put i (.ofInspection r) m.world)
  | consent {m : Machine} {recovery : LegacyStorageRecovery} (h : m.tasks i = .asking recovery) :
      Step C calm i m (m.put i (.recovering (completeRecovery C recovery)) m.world)
  | call {m : Machine} {c : Call} {w : World} {r : Answer c}
      {next : Answer c → Prog StartupError StorageHandle}
      (h : m.tasks i = .recovering (.call c next)) (hs : step i c m.world r w) :
      Step C calm i m (m.put i (.recovering (next r)) w)
  /-- It ends, or it is stopped wherever it is. -/
  | stop {m : Machine} : Step C calm i m (m.put i .idle (m.world.released i))

/-- A migration is recorded that is not complete. -/
def Unfinished (C : StateCodec) (w : World) : Prop := ∃ r, OneOpen C w r

/-- **A quiet step**: no migration begins while an inspection is under way. One that has read the
journal before would take a detached product for a missing one, and make a root of its own. -/
def Quiet (C : StateCodec) (m m' : Machine) : Prop :=
  (∃ i p, m.tasks i = .inspecting p) → Unfinished C m'.world → Unfinished C m.world

/-- A step of some instance, and a quiet one. -/
def Machine.QuietStep (C : StateCodec) (calm : Prop) (m m' : Machine) : Prop :=
  (∃ i, m.Step C calm i m') ∧ Quiet C m m'

/-- A run of quiet steps. -/
abbrev Machine.Runs (C : StateCodec) (calm : Prop) : Machine → Machine → Prop :=
  Relation.ReflTransGen (Machine.QuietStep C calm)

/-! ## 2. Rely and guarantee -/

/-- What the steps of the others do to ProgramData, as the recovery of the instance `i` sees it. -/
structure Rely (C : StateCodec) (S : Setting) (i : Nat) (w w' : World) : Prop where
  consistent : Consistent C S w → Consistent C S w'
  keeps : Keeps w.names w'.names
  alone : w.owner = some i → w' = w
  owner : w.owner ≠ some i → w'.owner ≠ some i

/-- What a step of the instance `i` does to ProgramData. -/
structure Guar (C : StateCodec) (S : Setting) (i : Nat) (w w' : World) : Prop where
  consistent : Consistent C S w'
  keeps : Keeps w.names w'.names
  product : openOf (recordsIn C w) = none → w'.names PRODUCT_DIRECTORY = w.names PRODUCT_DIRECTORY
  leaves : ∀ o, w.names PRODUCT_DIRECTORY = some o →
    S.detachable o.identity ∨ w'.names PRODUCT_DIRECTORY = some o
  others : ∀ k, k ≠ i → w.owner = some k → w' = w
  owner : ∀ k, k ≠ i → w'.owner = some k → w.owner = some k

section Conditions

variable {C : StateCodec} {S : Setting} {o : StorageObject} {calm : Prop} {i j : Nat} {w w' w'' : World}
  {r : MigrationStateRecord}

theorem Rely.refl (w : World) : Rely C S i w w := ⟨fun h => h, .refl _, fun _ => rfl, fun h => h⟩

theorem Rely.trans (h : Rely C S i w w') (h' : Rely C S i w' w'') : Rely C S i w w'' where
  consistent hw := h'.consistent (h.consistent hw)
  keeps := h.keeps.trans h'.keeps
  alone howner := by
    obtain rfl := h.alone howner
    exact h'.alone howner
  owner hne := h'.owner (h.owner hne)

/-- What one instance guarantees, the others rely on. -/
theorem Guar.rely (h : Guar C S i w w') (hne : j ≠ i) : Rely C S j w w' where
  consistent _ := h.consistent
  keeps := h.keeps
  alone := h.others j hne
  owner hno howner := hno (h.owner j hne howner)

theorem Guar.refl (h : Consistent C S w) : Guar C S i w w :=
  ⟨h, .refl _, fun _ => rfl, fun _ ho => .inr ho, fun _ _ _ => rfl, fun _ _ h => h⟩

/-- A step under the lock. -/
theorem Locked.guar (h : Locked C S i w w') (howned : Owned C S i w) : Guar C S i w w' where
  consistent := h.owned.1
  keeps := h.keeps
  product := h.product
  leaves := h.leaves
  others _ hne howner := absurd (Option.some.inj (howner.symm.trans howned.2)) hne
  owner _ hne howner := absurd (Option.some.inj (howner.symm.trans h.owned.2)) hne

/-- **Under the lock nobody else does anything.** -/
theorem Owned.alone {ε α : Type} {Q : α → World → Prop} {E : ε → World → Prop} {p : Prog ε α}
    (h : Owned C S i w) (hp : Proc.always Eq (stepIn calm i) (Locked C S i) Q E p w) :
    Proc.always (Rely C S i) (stepIn calm i) (Guar C S i) Q E p w := by
  refine Proc.always_alone (K := Owned C S i) (fun s s' hs hr => hr.alone hs.2) ?_ h
  exact Proc.always_within (K := Owned C S i) (fun s s' hs (hr : s = s') => hr ▸ hs)
    (fun s s' hs hlocked => ⟨⟨hlocked.owned, hlocked.guar hs⟩, hlocked.owned⟩) hp h

/-- A migration that is not complete is the one that the last record belongs to. -/
theorem Consistent.oneOpen (h : Consistent C S w) :
    OneOpen C w r ↔ openOf (recordsIn C w) = some r := by
  obtain ⟨records, hpublished, hjournal, _⟩ := h
  rw [hjournal.records]
  have hpending := pendingOf_some (u := r) hpublished.schema
  rw [pendingOf_published hpublished, Except.ok.injEq] at hpending
  constructor
  · rintro ⟨_, hopen, hreached, hothers⟩
    rw [hjournal.records] at hreached hothers
    exact hpending.mpr ⟨hopen, hreached, hothers⟩
  · intro hopen
    obtain ⟨hphase, hreached, hothers⟩ := hpending.mp hopen
    rw [← hjournal.records] at hreached hothers
    exact ⟨hjournal.sound, hphase, hreached, hothers⟩

theorem Consistent.unfinished (h : Consistent C S w) :
    Unfinished C w ↔ openOf (recordsIn C w) ≠ none := by
  unfold Unfinished
  simp only [h.oneOpen]
  cases openOf (recordsIn C w) <;> simp

theorem Consistent.released (h : Consistent C S w) : Consistent C S (w.released i) := by
  obtain ⟨records, hpublished, hjournal, hlayout, hboot, haudited⟩ := h
  refine ⟨records, hpublished, hjournal.of_files rfl rfl, hlayout, fun howner => hboot ?_, haudited⟩
  intro hnone
  refine howner ?_
  show (if w.owner = some i then none else w.owner) = none
  rw [hnone]
  rfl

/-- The end of an instance. -/
theorem Rely.released (hne : j ≠ i) : Rely C S j w (w.released i) where
  consistent h := h.released
  keeps := .refl _
  alone howner := by
    have hother : w.owner ≠ some i := by
      rw [howner]
      exact fun heq => hne (Option.some.inj heq)
    unfold World.released
    rw [if_neg hother]
  owner hno howner := by
    have howner : (if w.owner = some i then none else w.owner) = some j := howner
    split at howner
    · cases howner
    · exact hno howner

end Conditions

/-! ## 3. Before the lock -/

/-- ProgramData is in order, and the instance `i` does not have the lock. -/
structure Outside (C : StateCodec) (S : Setting) (i : Nat) (w : World) : Prop where
  consistent : Consistent C S w
  owner : w.owner ≠ some i

/-- There is a bootstrap directory. -/
structure Before (C : StateCodec) (S : Setting) (i : Nat) (w : World) : Prop
    extends Outside C S i w where
  bootstrap : w.names BOOTSTRAP_DIRECTORY ≠ none

section Before

variable {C : StateCodec} {S : Setting} {i : Nat} {w w' : World}

theorem Outside.rely (h : Outside C S i w) (hr : Rely C S i w w') : Outside C S i w' :=
  ⟨hr.consistent h.consistent, hr.owner h.owner⟩

theorem Before.rely (h : Before C S i w) (hr : Rely C S i w w') : Before C S i w' where
  toOutside := h.toOutside.rely hr
  bootstrap hnone := by
    obtain ⟨o, ho⟩ := Option.ne_none_iff_exists'.mp h.bootstrap
    rw [hr.keeps.bootstrap o ho] at hnone
    cases hnone

/-- What an instance knows before it has the lock. -/
def View.before (C : StateCodec) (S : Setting) (i : Nat) : View :=
  ⟨Rely C S i, Before C S i, fun h hr => h.rely hr⟩

theorem Before.looks {ε α : Type} {Q : α → Prop} {E : ε → Prop} {p : Prog ε α}
    (h : Before C S i w) (hp : Looks (.before C S i) False i Q E p) :
    Proc.always (Rely C S i) (stepIn False i) (Guar C S i) (fun _ w' => Before C S i w')
      (fun _ w' => Outside C S i w') p w := by
  have hstay : ∀ s s', Before C S i s → s' = s → Guar C S i s s' ∧ Before C S i s' := by
    rintro s _ hs rfl
    exact ⟨.refl hs.consistent, hs⟩
  refine Proc.always_mono (Proc.always_within (fun s s' hs hr => (View.before C S i).stable hs hr)
    hstay (hp w h) h) (fun _ _ ha => ha.1) fun _ _ he => he.1.toOutside

theorem Outside.openExistingChild (h : Outside C S i w) :
    Proc.always (Rely C S i) (stepIn False i) (Guar C S i) (fun _ w' => Before C S i w')
      (fun _ w' => Outside C S i w') (openExistingChild BOOTSTRAP_DIRECTORY) w := by
  refine (Proc.always_bind _ _).mpr (always_lookIn rfl (fun fate => fate.error.error)
    (fun _ w => w.directoryAt BOOTSTRAP_DIRECTORY) (fun _ _ => rfl) fun w₁ hr fate _ => ?_)
  have h₁ := h.rely hr
  unfold World.directoryAt
  refine ⟨.refl h₁.consistent, fun _ => h₁, ?_⟩
  cases hname : w₁.names BOOTSTRAP_DIRECTORY with
  | none => exact h₁
  | some o =>
    dsimp only
    split
    · have hbefore : Before C S i w₁ := ⟨h₁, by rw [hname]; exact Option.some_ne_none _⟩
      refine hbefore.looks (Q := fun _ => True) (E := fun _ => True) ?_
      exact (looks_validateKind.mono (fun _ hk => hk) fun _ _ => trivial).bind fun _ _ =>
        looks_pure trivial
    · exact h₁

theorem Outside.createProtectedChild (h : Outside C S i w) :
    Proc.always (Rely C S i) (stepIn False i) (Guar C S i) (fun _ w' => Before C S i w')
      (fun _ w' => Outside C S i w') (createProtectedChild BOOTSTRAP_DIRECTORY) w := by
  refine (Proc.always_bind _ _).mpr (always_effectIn rfl (fun fate => fate.error.error)
    (fun fate w => w.creating BOOTSTRAP_DIRECTORY (newRoot fate.fresh)) (fun _ _ => rfl)
    fun w₁ hr fate hadmissible => ?_)
  have h₁ := h.rely hr
  unfold World.creating
  refine ⟨.refl h₁.consistent, fun _ => h₁, ?_⟩
  cases hname : w₁.names BOOTSTRAP_DIRECTORY with
  | some o => exact h₁
  | none =>
    -- nothing is recorded, and nobody has the lock
    obtain ⟨records, hpublished, hjournal, hlayout, hboot, haudited⟩ := h₁.consistent
    obtain rfl := hlayout.bootstrap hname
    have hfree : w₁.owner = none := by_contra fun howner => hboot howner hname
    have hsome : (w₁.placed BOOTSTRAP_DIRECTORY (some (newRoot fate.fresh))).names
        BOOTSTRAP_DIRECTORY ≠ none := by
      show Function.update w₁.names BOOTSTRAP_DIRECTORY _ BOOTSTRAP_DIRECTORY ≠ none
      rw [Function.update_self]
      exact Option.some_ne_none _
    have hlayout' : Layout S (w₁.placed BOOTSTRAP_DIRECTORY (some (newRoot fate.fresh))).names
        w₁.drawn [] :=
      hlayout.set rfl (fun o ho => ⟨fate.fresh, (Option.some.inj ho).symm, hadmissible⟩)
        (.inr ⟨rfl, Option.some_ne_none _⟩)
    have hconsistent : Consistent C S (w₁.placed BOOTSTRAP_DIRECTORY (some (newRoot fate.fresh))) :=
      ⟨[], hpublished, hjournal.of_files rfl rfl, hlayout', fun _ => hsome, haudited⟩
    have hbefore : Before C S i (w₁.placed BOOTSTRAP_DIRECTORY (some (newRoot fate.fresh))) :=
      ⟨⟨hconsistent, h₁.owner⟩, hsome⟩
    have hproduct : (w₁.placed BOOTSTRAP_DIRECTORY (some (newRoot fate.fresh))).names
        PRODUCT_DIRECTORY = w₁.names PRODUCT_DIRECTORY := by
      show Function.update w₁.names BOOTSTRAP_DIRECTORY (some (newRoot fate.fresh))
        PRODUCT_DIRECTORY = _
      rw [Function.update_of_ne product_ne_bootstrap]
    refine ⟨⟨hconsistent, .create hname fun _ => newRoot_isRoot _, fun _ => hproduct,
      fun o ho => .inr (hproduct.trans ho), fun j _ howner => ?_, fun j _ howner => howner⟩, ?_,
      fun _ => hbefore.toOutside⟩
    · rw [hfree] at howner
      cases howner
    · refine hbefore.looks (Q := fun _ => True) (E := fun _ => True) ?_
      exact looks_rootDirectory.mono (fun _ _ => trivial) fun _ _ => trivial

theorem Outside.openOrCreateBootstrap (h : Outside C S i w) :
    Proc.always (Rely C S i) (stepIn False i) (Guar C S i) (fun _ w' => Before C S i w')
      (fun _ _ => True) openOrCreateBootstrap w := by
  have hopen : ∀ {w}, Outside C S i w →
      Proc.always (Rely C S i) (stepIn False i) (Guar C S i) (fun _ w' => Before C S i w')
        (fun _ w' => Outside C S i w') (Legacy.openExistingChild BOOTSTRAP_DIRECTORY) w :=
    fun h => h.openExistingChild
  have hcheck : ∀ {w : World} {directory : StorageHandle}, Before C S i w →
      Proc.always (Rely C S i) (stepIn False i) (Guar C S i) (fun _ w' => Before C S i w')
        (fun _ _ => True) (validateProductionRoot directory >>= fun _ =>
          pure (⟨directory, false⟩ : Bootstrap)) w := by
    intro w directory h
    refine Proc.always_mono (h.looks (Q := fun _ => True) (E := fun _ => True) ?_) (fun _ _ h => h)
      fun _ _ _ => trivial
    exact (looks_validateProductionRoot.mono (fun _ hk => hk) fun _ _ => trivial).bind fun _ _ =>
      looks_pure trivial
  unfold Legacy.openOrCreateBootstrap
  refine (Proc.always_bind _ _).mpr ((Proc.always_attempt _).mpr (Proc.always_mono (hopen h)
    (fun directory w₁ h₁ => hcheck h₁) fun e w₁ h₁ => ?_))
  dsimp only
  split
  · refine (Proc.always_bind _ _).mpr ((Proc.always_attempt _).mpr (Proc.always_mono
      h₁.createProtectedChild (fun directory w₂ h₂ => h₂) fun e w₂ h₂ => ?_))
    dsimp only
    split
    · exact (Proc.always_bind _ _).mpr (Proc.always_mono (hopen h₂)
        (fun directory w₃ h₃ => hcheck h₃) fun _ _ _ => trivial)
    · trivial
  · trivial

/-- The lock is taken by an instance that finds it free. -/
theorem Before.acquireLock (h : Before C S i w) :
    Proc.always (Rely C S i) (stepIn False i) (Guar C S i) (fun _ w' => Owned C S i w')
      (fun _ _ => True) (request .acquireLock rfl : Prog StorageError Unit) w := by
  refine always_requestIn rfl fun w₁ hr fate _ _ => ?_
  have h₁ := h.rely hr
  have hstay : Guar C S i w₁ w₁ := .refl h₁.consistent
  by_cases hdone : fate.outcome = .done ∧ w₁.owner = none
  · have hanswer : answer i fate .acquireLock w₁ = (.ok (), { w₁ with owner := some i }) := by
      simp only [answer, hdone.1, hdone.2]
    obtain ⟨records, hpublished, hjournal, hlayout, _, haudited⟩ := h₁.consistent
    have howned : Owned C S i { w₁ with owner := some i } :=
      ⟨⟨records, hpublished, hjournal.of_files rfl rfl, hlayout, fun _ => h₁.bootstrap, haudited⟩,
        rfl⟩
    rw [hanswer]
    refine ⟨⟨howned.1, .refl _, fun _ => rfl, fun o ho => .inr ho, fun j _ howner => ?_,
      fun j hne howner => ?_⟩, howned⟩
    · rw [hdone.2] at howner
      cases howner
    · exact absurd (Option.some.inj howner).symm hne
  · have hanswer : ∃ e, answer i fate .acquireLock w₁ = (.error e, w₁) := by
      cases hout : fate.outcome with
      | done =>
        cases howner : w₁.owner with
        | none => exact absurd ⟨hout, howner⟩ hdone
        | some j => exact ⟨.lockTimeout, by simp only [answer, hout, howner]⟩
      | before => exact ⟨fate.error.error, by simp only [answer, hout]⟩
      | after => exact ⟨fate.error.error, by simp only [answer, hout]⟩
    obtain ⟨e, hanswer⟩ := hanswer
    rw [hanswer]
    exact ⟨hstay, trivial⟩

/-- **`complete_recovery`**, from its first call to its last: every step keeps ProgramData in
order. -/
theorem Outside.completeRecovery {recovery : LegacyStorageRecovery} (h : Outside C S i w)
    (hmay : S.detachable recovery.detectedIdentity) :
    Proc.always (Rely C S i) (stepIn False i) (Guar C S i) (fun _ _ => True) (fun _ _ => True)
      (completeRecovery C recovery) w := by
  rw [completeRecovery_eq]
  refine (Proc.always_bind _ _).mpr ((Proc.always_mapErr _ _).mpr ?_)
  refine (Proc.always_bind _ _).mpr ((Proc.always_mapErr _ _).mpr (Proc.always_mono
    h.openOrCreateBootstrap (fun bootstrap w₁ h₁ => ?_) fun _ _ _ => trivial))
  refine (Proc.always_bind _ _).mpr ((Proc.always_mapErr _ _).mpr (Proc.always_mono
    h₁.acquireLock (fun _ w₂ h₂ => ?_) fun _ _ _ => trivial))
  obtain ⟨records, hheld⟩ := h₂.held
  refine Proc.always_mono (h₂.alone (hheld.recoverUnderLock hmay
    (fun hfalse => hfalse.elim) fun hfalse => hfalse.elim))
    (fun pending w₃ h₃ => ?_) fun _ _ _ => trivial
  obtain ⟨u, _, hawaits⟩ := h₃
  obtain ⟨_, hheld₃, _⟩ := hawaits.held
  exact Proc.always_mono (hheld₃.owned.alone hawaits.finish) (fun _ _ _ => trivial)
    fun _ _ _ => trivial

end Before

/-! ## 4. Runs -/

/-- **The invariant of all instances**, over states that have been `seen`. -/
structure Machine.Inv (C : StateCodec) (S : Setting) (seen : World → Prop) (calm : Prop)
    (m : Machine) : Prop where
  /-- A call that fails can make an inspection ask for anything. -/
  admits : calm ∨ ∀ i, S.detachable i
  knows : Knows C S seen m.world
  inspecting : ∀ i p, m.tasks i = .inspecting p → Proc.always (Around C S seen) (stepIn calm i)
    (fun w w' => w' = w) (Told C S seen calm) (fun _ _ => True) p m.world
  asking : ∀ i recovery, m.tasks i = .asking recovery → S.detachable recovery.detectedIdentity
  recovering : ∀ i p, m.tasks i = .recovering p → Proc.always (Rely C S i) (stepIn False i)
    (Guar C S i) (fun _ _ => True) (fun _ _ => True) p m.world
  owner : ∀ i, m.world.owner = some i → ∃ p, m.tasks i = .recovering p

/-- What no quiet step takes back. -/
structure Machine.Kept (S : Setting) (w w' : World) : Prop where
  keeps : Keeps w.names w'.names
  leaves : ∀ o, w.names PRODUCT_DIRECTORY = some o →
    S.detachable o.identity ∨ w'.names PRODUCT_DIRECTORY = some o

section Runs

variable {C : StateCodec} {S : Setting} {seen : World → Prop} {calm : Prop} {o : StorageObject}
  {i : Nat} {m m' : Machine} {w w' w'' : World}

theorem Machine.put_tasks {task : Task} (j : Nat) :
    (m.put i task w).tasks j = if j = i then task else m.tasks j := by
  show Function.update m.tasks i task j = _
  rw [Function.update_apply]

theorem Machine.Kept.refl (w : World) : Machine.Kept S w w := ⟨.refl _, fun _ ho => .inr ho⟩

theorem Machine.Kept.trans (h : Machine.Kept S w w') (h' : Machine.Kept S w' w'') :
    Machine.Kept S w w'' where
  keeps := h.keeps.trans h'.keeps
  leaves o ho := (h.leaves o ho).elim .inl (h'.leaves o)

/-- What is under the name of the product and fails the contract may be detached. -/
theorem Consistent.detachable (h : Consistent C S w) (ho : w.names PRODUCT_DIRECTORY = some o)
    (hroot : ¬ o.IsRoot) : S.detachable o.identity := by
  obtain ⟨_, _, _, hlayout, _⟩ := h
  exact hlayout.others o ho hroot

/-- What an inspection asks for may be detached. -/
theorem Told.asking {r : Except LegacyStorageError ProductionStorageState}
    {recovery : LegacyStorageRecovery} (h : Consistent C S w)
    (hadmits : calm ∨ ∀ i, S.detachable i) (htold : ∀ state, r = .ok state →
      Told C S seen calm state w) (hr : Task.ofInspection r = .asking recovery) :
    S.detachable recovery.detectedIdentity := by
  cases r with
  | error e => cases hr
  | ok state =>
    have hstate := htold state rfl
    cases state with
    | ready root => cases hr
    | needsConsent asked =>
      cases hr
      obtain ⟨o, hsettled, hidentity, hfound⟩ := hstate
      rw [hidentity]
      rcases hadmits with hcalm | hall
      · exact h.detachable hsettled.2 (hfound hcalm)
      · exact hall _
    | needsResume asked =>
      cases hr
      obtain ⟨u, hu, hidentity⟩ := hstate
      exact hidentity ▸ hu.detachable

/-- **The others** keep their part of the invariant over a step of the instance `i`. -/
theorem Machine.Inv.put {task : Task} (h : m.Inv C S seen calm) (hknows : Knows C S seen w)
    (hrely : ∀ j, j ≠ i → Rely C S j m.world w)
    (hproduct : openOf (recordsIn C m.world) = none → openOf (recordsIn C w) = none →
      w.names PRODUCT_DIRECTORY = m.world.names PRODUCT_DIRECTORY)
    (hquiet : (∃ j p, m.tasks j = .inspecting p) → Unfinished C w → Unfinished C m.world)
    (hrecovering : ∀ p, task = .recovering p → Proc.always (Rely C S i) (stepIn False i)
      (Guar C S i) (fun _ _ => True) (fun _ _ => True) p w)
    (hinspecting : ∀ p, task = .inspecting p → Proc.always (Around C S seen) (stepIn calm i)
      (fun w w' => w' = w) (Told C S seen calm) (fun _ _ => True) p w)
    (hasking : ∀ recovery, task = .asking recovery → S.detachable recovery.detectedIdentity)
    (howner : w.owner = some i → ∃ p, task = .recovering p) :
    (m.put i task w).Inv C S seen calm where
  admits := h.admits
  knows := hknows
  asking j recovery hj := by
    rw [Machine.put_tasks] at hj
    split at hj
    · exact hasking recovery hj
    · exact h.asking j recovery hj
  recovering j p hj := by
    rw [Machine.put_tasks] at hj
    split at hj
    · next heq => exact heq ▸ hrecovering p hj
    · next hne =>
      exact Proc.always_rely (R := Rely C S j) (fun _ _ _ h h' => h.trans h')
        (fun _ _ _ _ _ => trivial) (fun _ _ _ _ _ => trivial) (h.recovering j p hj) (hrely j hne)
  inspecting j p hj := by
    rw [Machine.put_tasks] at hj
    split at hj
    · next heq => exact heq ▸ hinspecting p hj
    · have haround : Around C S seen m.world w := by
        refine ⟨fun _ => hknows, fun o hsettled => ?_⟩
        have hnone : openOf (recordsIn C w) = none := by
          by_contra hopen
          have hunfinished := hquiet ⟨j, p, hj⟩ (hknows.consistent.unfinished.mpr hopen)
          exact h.knows.consistent.unfinished.mp hunfinished hsettled.1
        exact ⟨hnone, (hproduct hsettled.1 hnone).trans hsettled.2⟩
      exact Proc.always_rely (fun _ _ _ h h' => h.trans h') (fun _ _ _ hr ht => ht.around hr)
        (fun _ _ _ _ _ => trivial) (h.inspecting j p hj) haround
  owner j hj := by
    simp only [Machine.put_tasks]
    by_cases heq : j = i
    · rw [if_pos heq]
      exact howner (heq ▸ hj)
    · rw [if_neg heq]
      refine h.owner j (by_contra fun hno => ?_)
      exact (hrely j heq).owner hno hj

/-- The task of an instance changes, and nothing else. -/
theorem Machine.Inv.task {task : Task} (h : m.Inv C S seen calm)
    (hrecovering : ∀ p, task = .recovering p → Proc.always (Rely C S i) (stepIn False i)
      (Guar C S i) (fun _ _ => True) (fun _ _ => True) p m.world)
    (hinspecting : ∀ p, task = .inspecting p → Proc.always (Around C S seen) (stepIn calm i)
      (fun w w' => w' = w) (Told C S seen calm) (fun _ _ => True) p m.world)
    (hasking : ∀ recovery, task = .asking recovery → S.detachable recovery.detectedIdentity)
    (howner : m.world.owner = some i → ∃ p, task = .recovering p) :
    (m.put i task m.world).Inv C S seen calm :=
  h.put h.knows (fun _ _ => .refl _) (fun _ _ => rfl) (fun _ h => h) hrecovering hinspecting
    hasking howner

/-- An instance that is not recovering does not have the lock. -/
theorem Machine.Inv.outside (h : m.Inv C S seen calm) (hno : ∀ p, m.tasks i ≠ .recovering p) :
    Outside C S i m.world :=
  ⟨h.knows.consistent, fun howner => (h.owner i howner).elim fun p hp => hno p hp⟩

/-- A call of an inspection changes nothing, and what the rest of it does is as it was. -/
theorem Machine.Inv.look {c : Call} {r : Answer c}
    {next : Answer c → Prog LegacyStorageError ProductionStorageState} (h : m.Inv C S seen calm)
    (htask : m.tasks i = .inspecting (.call c next)) (hs : stepIn calm i c m.world r w) :
    w = m.world ∧ Proc.always (Around C S seen) (stepIn calm i) (fun w w' => w' = w)
      (Told C S seen calm) (fun _ _ => True) (next r) m.world := by
  obtain ⟨rfl, hnext⟩ := h.inspecting i _ htask m.world (.refl _) r w hs
  exact ⟨rfl, hnext⟩

/-- **A quiet step keeps the invariant**, and takes nothing back. -/
theorem Machine.Inv.step (h : m.Inv C S seen calm) (hs : m.Step C calm i m')
    (hquiet : Quiet C m m') (hseen : seen m'.world) :
    m'.Inv C S seen calm ∧ Machine.Kept S m.world m'.world := by
  cases hs with
  | begin hidle =>
    refine ⟨h.task (fun p hp => by cases hp) (fun p hp => ?_) (fun _ hr => by cases hr)
      fun howner => ?_, .refl _⟩
    · cases hp
      exact h.knows.inspectUnder
    · obtain ⟨p', hp'⟩ := h.owner i howner
      rw [hidle] at hp'
      cases hp'
  | @look c w r next hinspecting hs =>
    obtain ⟨rfl, hnext⟩ := h.look hinspecting hs
    refine ⟨h.task (fun p hp => by cases hp) (fun p hp => ?_) (fun _ hr => by cases hr)
      fun howner => ?_, .refl _⟩
    · cases hp
      exact hnext
    · obtain ⟨p', hp'⟩ := h.owner i howner
      rw [hinspecting] at hp'
      cases hp'
  | @inspected r hinspecting =>
    have hidle : ∀ task, Task.ofInspection r = task → (∀ p, task ≠ .recovering p) ∧
        ∀ p, task ≠ .inspecting p := by
      rintro _ rfl
      rcases r with e | (root | recovery | recovery) <;>
        exact ⟨fun _ => Task.noConfusion, fun _ => Task.noConfusion⟩
    have htold := h.inspecting i _ hinspecting
    refine ⟨h.task (fun p hp => absurd hp ((hidle _ rfl).1 p))
      (fun p hp => absurd hp ((hidle _ rfl).2 p)) (fun recovery hr => ?_) fun howner => ?_, .refl _⟩
    · have hok : ∀ state, r = .ok state → Told C S seen calm state m.world := by
        rintro state rfl
        exact htold
      exact Told.asking h.knows.consistent h.admits hok hr
    · obtain ⟨p', hp'⟩ := h.owner i howner
      rw [hinspecting] at hp'
      cases hp'
  | @consent recovery hasking =>
    have hout : Outside C S i m.world := h.outside fun p hp => by rw [hasking] at hp; cases hp
    refine ⟨h.task (fun p hp => ?_) (fun p hp => by cases hp) (fun _ hr => by cases hr)
      fun _ => ⟨_, rfl⟩, .refl _⟩
    cases hp
    exact hout.completeRecovery (h.asking i recovery hasking)
  | @call c w r next hrecovering hs =>
    rw [← stepIn_false] at hs
    obtain ⟨hguar, hnext⟩ := h.recovering i _ hrecovering m.world (.refl _) r w hs
    refine ⟨h.put ⟨hguar.consistent, hseen⟩ (fun j hne => hguar.rely hne)
      (fun hnone _ => hguar.product hnone) hquiet (fun p hp => ?_) (fun p hp => by cases hp)
      (fun _ hr => by cases hr) fun _ => ⟨_, rfl⟩, hguar.keeps, hguar.leaves⟩
    cases hp
    exact hnext
  | stop =>
    refine ⟨h.put ⟨h.knows.consistent.released, hseen⟩ (fun j hne => .released hne) (fun _ _ => rfl)
      hquiet (fun p hp => by cases hp) (fun p hp => by cases hp) (fun _ hr => by cases hr)
      fun howner => ?_, .refl _, fun _ ho => .inr ho⟩
    have howner : (if m.world.owner = some i then none else m.world.owner) = some i := howner
    split at howner
    · cases howner
    · next hne => exact absurd howner hne

/-- **What holds in every run** whose states have all been seen: the invariant, and that nothing is
taken back. -/
theorem Machine.Inv.run (h : m.Inv C S seen calm) (hs : Machine.Runs C calm m m')
    (hseen : ∀ k, Machine.Runs C calm m k → Machine.Runs C calm k m' → seen k.world) :
    m'.Inv C S seen calm ∧ Machine.Kept S m.world m'.world := by
  induction hs with
  | refl => exact ⟨h, .refl _⟩
  | @tail k m' hrun hstep ih =>
    obtain ⟨hinv, hkept⟩ := ih fun l hl hl' => hseen l hl (hl'.tail hstep)
    have hlast := hseen m' (hrun.tail hstep) .refl
    obtain ⟨⟨i, hstep⟩, hquiet⟩ := hstep
    have hnext := hinv.step hstep hquiet hlast
    exact ⟨hnext.1, hkept.trans hnext.2⟩

end Runs

end WinProfile.Legacy
