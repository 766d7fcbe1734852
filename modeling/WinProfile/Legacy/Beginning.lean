/-
  File:      WinProfile/Legacy/Beginning.lean
  Subject:   A ProgramData in which the name of the product is free and no migration is recorded: the
             first inspection that gets so far makes a production root, and nothing else ever happens.

  * `Vacant`, `Founding` -- such a ProgramData, and what comes after it.
  * `founds_inspectUnder` -- an inspection, among others that do the same, is ready or fails.
  * `Machine.Settling.run` -- so no instance ever asks for consent; `Vacant.kept`: the root that was
    made is kept.
-/
import WinProfile.Legacy.Calm

namespace WinProfile.Legacy

/-! ## 1. The first root -/

/-- Nothing has the name of the product, and no migration is recorded. -/
structure Vacant (C : StateCodec) (w : World) : Prop where
  product : w.names PRODUCT_DIRECTORY = none
  journal : Journal C w []
  owner : w.owner = none

/-- A root was made under the name of the product. -/
def Founded (w₀ w : World) : Prop := ∃ k, w = w₀.placed PRODUCT_DIRECTORY (some (newRoot k))

/-- What can come of `w`. -/
def Founding (w₀ w w' : World) : Prop := w' = w ∨ w = w₀ ∧ Founded w₀ w'

section Founding

variable {C : StateCodec} {i : Nat} {w₀ w w' w'' : World}

theorem Founding.refl (w : World) : Founding w₀ w w := .inl rfl

theorem Founded.product (h : Founded w₀ w) :
    ∃ k, w.names PRODUCT_DIRECTORY = some (newRoot k) := by
  obtain ⟨k, rfl⟩ := h
  refine ⟨k, ?_⟩
  show Function.update w₀.names PRODUCT_DIRECTORY (some (newRoot k)) PRODUCT_DIRECTORY = _
  rw [Function.update_self]

/-- A root is made once. -/
theorem Founded.ne (h : Founded w₀ w) (hnone : w₀.names PRODUCT_DIRECTORY = none) : w ≠ w₀ := by
  rintro rfl
  obtain ⟨k, hk⟩ := h.product
  rw [hnone] at hk
  cases hk

theorem Founding.trans (hnone : w₀.names PRODUCT_DIRECTORY = none) (h : Founding w₀ w w')
    (h' : Founding w₀ w' w'') : Founding w₀ w w'' := by
  rcases h with rfl | ⟨rfl, hfounded⟩
  · exact h'
  · rcases h' with rfl | ⟨rfl, _⟩
    · exact .inr ⟨rfl, hfounded⟩
    · exact absurd rfl (hfounded.ne hnone)

/-- What an inspection sees. -/
def View.founding (w₀ : World) (hnone : w₀.names PRODUCT_DIRECTORY = none) : View :=
  ⟨Founding w₀, Founding w₀ w₀, fun h hr => h.trans hnone hr⟩

/-- Only the name of the product changes. -/
theorem View.founding_reads (hnone : w₀.names PRODUCT_DIRECTORY = none) :
    (View.founding w₀ hnone).Reads w₀ := by
  constructor
  case files =>
    rintro w (rfl | ⟨_, k, rfl⟩)
    · rfl
    · rfl
  case bootstrap =>
    rintro w (rfl | ⟨_, k, rfl⟩)
    · rfl
    · show Function.update w₀.names PRODUCT_DIRECTORY (some (newRoot k)) BOOTSTRAP_DIRECTORY = _
      rw [Function.update_of_ne product_ne_bootstrap.symm]

/-- What only looks, among others that make a root. -/
theorem Looks.founding {ε α : Type} {hnone : w₀.names PRODUCT_DIRECTORY = none} {Q : α → Prop}
    {E : ε → Prop} {p : Prog ε α} (hp : Looks (.founding w₀ hnone) True i Q E p)
    (hw : Founding w₀ w₀ w) :
    Proc.always (Founding w₀) (stepIn True i) (Founding w₀) (fun a w' => Founding w₀ w₀ w' ∧ Q a)
      (fun e w' => Founding w₀ w₀ w' ∧ E e) p w :=
  Proc.always_within (K := fun _ => True) (fun _ _ _ _ => trivial)
    (fun _ _ _ hsame => ⟨.inl hsame, trivial⟩) (hp w hw) trivial

/-- The production root is opened, or there is none yet. -/
theorem founds_openExistingUnder (hnone : w₀.names PRODUCT_DIRECTORY = none) :
    Looks (.founding w₀ hnone) True i (fun _ => True) (fun e => e.isNotFound = true)
      openExistingUnder := by
  have hopen : Looks (.founding w₀ hnone) True i (fun h => ∃ k, h.object = newRoot k)
      (fun e => e.isNotFound = true)
      (request (.openDirectory PRODUCT_DIRECTORY) rfl : Prog StorageError StorageHandle) := by
    refine looks_call rfl (fun fate => fate.error.error) (fun _ w => w.directoryAt PRODUCT_DIRECTORY)
      (fun _ _ => rfl) (fun hrestless _ => absurd trivial hrestless) fun w _ hw _ => ?_
    unfold World.directoryAt
    rcases hw with rfl | ⟨_, hfounded⟩
    · rw [hnone]
      rfl
    · obtain ⟨k, hk⟩ := hfounded.product
      rw [hk]
      exact ⟨k, rfl⟩
  have hchild : Looks (.founding w₀ hnone) True i (fun h => ∃ k, h.object = newRoot k)
      (fun e => e.isNotFound = true) (openExistingChild PRODUCT_DIRECTORY) := by
    unfold openExistingChild
    refine hopen.bind fun h ⟨k, hk⟩ => ?_
    refine (looks_validateKind.mono (fun _ h => h) fun e he => ?_).bind fun _ _ => looks_pure ⟨k, hk⟩
    rw [hk] at he
    exact absurd ⟨rfl, rfl⟩ (he.honest trivial)
  unfold openExistingUnder
  refine hchild.bind fun h ⟨k, hk⟩ => ?_
  refine (looks_validateProductionRoot.mono (fun _ h => h) fun e he => ?_).bind
    fun _ _ => looks_pure trivial
  rw [hk] at he
  exact absurd rootDescriptor_isRoot (he.honest trivial)

/-- A root is made, or another instance has made one. -/
theorem founds_createProtectedChild (hnone : w₀.names PRODUCT_DIRECTORY = none)
    (hw : Founding w₀ w₀ w) :
    Proc.always (Founding w₀) (stepIn True i) (Founding w₀) (fun _ w' => Founding w₀ w₀ w')
      (fun _ w' => Founding w₀ w₀ w') (createProtectedChild PRODUCT_DIRECTORY) w := by
  refine (Proc.always_bind _ _).mpr (always_effectIn rfl (fun fate => fate.error.error)
    (fun fate w => w.creating PRODUCT_DIRECTORY (newRoot fate.fresh)) (fun _ _ => rfl)
    fun w₁ hr fate hadmissible => ⟨.refl w₁, fun hrestless => absurd trivial hrestless, ?_⟩)
  have hw₁ := hw.trans hnone hr
  unfold World.creating
  rcases hw₁ with rfl | ⟨_, hfounded⟩
  · rw [hnone]
    have hfounding : Founding w₁ w₁ (w₁.placed PRODUCT_DIRECTORY (some (newRoot fate.fresh))) :=
      .inr ⟨rfl, fate.fresh, rfl⟩
    have hvalid : Looks (.founding w₁ hnone) True i (fun _ => True) (fun _ => True)
        (rootDirectory ⟨PRODUCT_DIRECTORY, newRoot fate.fresh⟩) :=
      looks_rootDirectory.mono (fun _ _ => trivial) fun _ _ => trivial
    exact ⟨hfounding, Proc.always_mono (hvalid.founding hfounding) (fun _ _ ha => ha.1)
      fun _ _ he => he.1, fun hrestless => absurd trivial hrestless⟩
  · obtain ⟨k, hk⟩ := hfounded.product
    rw [hk]
    exact .inr ⟨rfl, hfounded⟩

/-- **An inspection** of such a ProgramData, whatever other inspections do: it is ready, or it fails. -/
theorem founds_inspectUnder (h : Vacant C w₀) (hw : Founding w₀ w₀ w) :
    Proc.always (Founding w₀) (stepIn True i) (Founding w₀)
      (fun state _ => ∃ root, state = .ready root) (fun _ _ => True) (inspectUnder C) w := by
  have hopens : ∀ {w}, Founding w₀ w₀ w → Proc.always (Founding w₀) (stepIn True i) (Founding w₀)
      (fun _ w' => Founding w₀ w₀ w') (fun e w' => Founding w₀ w₀ w' ∧ e.isNotFound = true)
      openExistingUnder w := fun hw =>
    Proc.always_mono ((founds_openExistingUnder h.product).founding hw) (fun _ _ ha => ha.1)
      fun _ _ he => he
  rw [inspectUnder_eq]
  have hload : Looks (.founding w₀ h.product) True i (· = openOf [])
      (fun _ => True → Plain w₀ → ∃ o, w₀.names BOOTSTRAP_DIRECTORY = some o ∧ ¬ o.IsRoot)
      (loadPendingState C) :=
    looks_loadPendingState (View.founding_reads h.product) .start h.journal fun _ => rfl
  refine (Proc.always_bind _ _).mpr (Proc.always_mono (hload.founding hw) ?_ fun _ _ _ => trivial)
  rintro _ w₁ ⟨hw₁, rfl⟩
  show Proc.always (Founding w₀) (stepIn True i) (Founding w₀)
    (fun state _ => ∃ root, state = .ready root) (fun _ _ => True) inspectProduct w₁
  unfold inspectProduct
  refine (Proc.always_bind _ _).mpr ((Proc.always_attempt _).mpr (Proc.always_mono (hopens hw₁)
    (fun root _ _ => ⟨root, rfl⟩) ?_))
  rintro e w₂ ⟨hw₂, hnot⟩
  dsimp only
  rw [if_pos hnot]
  refine (Proc.always_bind _ _).mpr ((Proc.always_mapErr _ _).mpr ?_)
  have hcreated : Proc.always (Founding w₀) (stepIn True i) (Founding w₀) (fun _ _ => True)
      (fun _ _ => True) openOrCreateUnder w₂ := by
    unfold openOrCreateUnder
    refine (Proc.always_bind _ _).mpr ((Proc.always_attempt _).mpr (Proc.always_mono (hopens hw₂)
      (fun _ _ _ => trivial) ?_))
    rintro e' w₃ ⟨hw₃, hnot'⟩
    dsimp only
    rw [if_pos hnot']
    refine (Proc.always_bind _ _).mpr ((Proc.always_attempt _).mpr (Proc.always_mono
      (founds_createProtectedChild h.product hw₃) (fun _ _ _ => trivial) fun e'' w₄ hw₄ => ?_))
    dsimp only
    split
    · exact Proc.always_mono (hopens hw₄) (fun _ _ _ => trivial) fun _ _ _ => trivial
    · trivial
  exact Proc.always_mono hcreated (fun root _ _ => ⟨root, rfl⟩) fun _ _ _ => trivial

end Founding

/-! ## 2. Instances -/

/-- **Between any two steps** of instances that began at `w₀`: they are idle, or inspect. -/
structure Machine.Settling (w₀ : World) (m : Machine) : Prop where
  world : Founding w₀ w₀ m.world
  tasks : ∀ i, m.tasks i = .idle ∨ ∃ p, m.tasks i = .inspecting p ∧
    Proc.always (Founding w₀) (stepIn True i) (Founding w₀)
      (fun state _ => ∃ root, state = .ready root) (fun _ _ => True) p m.world

section Settling

variable {C : StateCodec} {i : Nat} {w₀ w : World} {m₀ m m' : Machine}

theorem Machine.Settling.put {task : Task} (h : m.Settling w₀)
    (hnone : w₀.names PRODUCT_DIRECTORY = none) (hw : Founding w₀ m.world w)
    (htask : task = .idle ∨ ∃ p, task = .inspecting p ∧
      Proc.always (Founding w₀) (stepIn True i) (Founding w₀)
        (fun state _ => ∃ root, state = .ready root) (fun _ _ => True) p w) :
    (m.put i task w).Settling w₀ where
  world := h.world.trans hnone hw
  tasks j := by
    rw [Machine.put_tasks]
    split
    · next heq => exact heq ▸ htask
    · refine (h.tasks j).imp_right fun ⟨p, hp, halways⟩ => ⟨p, hp, ?_⟩
      exact Proc.always_rely (fun _ _ _ h h' => h.trans hnone h') (fun _ _ _ _ hq => hq)
        (fun _ _ _ _ he => he) halways hw

/-- An instance that is not idle inspects. -/
theorem Machine.Settling.inspecting (h : m.Settling w₀) {task : Task} (htask : m.tasks i = task)
    (hne : task ≠ .idle) : ∃ p, task = .inspecting p ∧
      Proc.always (Founding w₀) (stepIn True i) (Founding w₀)
        (fun state _ => ∃ root, state = .ready root) (fun _ _ => True) p m.world := by
  rcases h.tasks i with hidle | hinspecting
  · exact absurd (htask.symm.trans hidle) hne
  · rwa [htask] at hinspecting

/-- **No step asks for consent**, and none does anything but make the first root. -/
theorem Machine.Settling.step (hvacant : Vacant C w₀) (h : m.Settling w₀)
    (hs : m.Step C True i m') : m'.Settling w₀ ∧ Founding w₀ m.world m'.world := by
  cases hs with
  | begin hidle =>
    exact ⟨h.put hvacant.product (.refl _) (.inr ⟨_, rfl, founds_inspectUnder hvacant h.world⟩),
      .refl _⟩
  | @look c w r next hinspecting hs =>
    obtain ⟨p, hp, halways⟩ := h.inspecting hinspecting Task.noConfusion
    cases hp
    obtain ⟨hfounding, hnext⟩ := halways m.world (.refl _) r w hs
    exact ⟨h.put hvacant.product hfounding (.inr ⟨_, rfl, hnext⟩), hfounding⟩
  | @inspected r hinspecting =>
    obtain ⟨p, hp, hend⟩ := h.inspecting hinspecting Task.noConfusion
    cases hp
    refine ⟨h.put hvacant.product (.refl _) (.inl ?_), .refl _⟩
    cases r with
    | error e => rfl
    | ok state =>
      obtain ⟨root, rfl⟩ := hend
      rfl
  | consent hasking =>
    obtain ⟨p, hp, _⟩ := h.inspecting hasking Task.noConfusion
    cases hp
  | call hrecovering hs =>
    obtain ⟨p, hp, _⟩ := h.inspecting hrecovering Task.noConfusion
    cases hp
  | stop =>
    have hfree : m.world.owner = none := by
      rcases h.world with hsame | ⟨_, k, hfounded⟩
      · rw [hsame, hvacant.owner]
      · rw [hfounded]
        exact hvacant.owner
    have hsame : Founding w₀ m.world (m.world.released i) := .inl (World.released_free hfree)
    exact ⟨h.put hvacant.product hsame (.inl rfl), hsame⟩

theorem Machine.Settling.run (hvacant : Vacant C w₀) (h : m.Settling w₀)
    (hs : Machine.Runs C True m m') : m'.Settling w₀ ∧ Founding w₀ m.world m'.world := by
  induction hs with
  | refl => exact ⟨h, .refl _⟩
  | tail _ hstep ih =>
    obtain ⟨⟨i, hstep⟩, _⟩ := hstep
    have hnext := ih.1.step hvacant hstep
    exact ⟨hnext.1, ih.2.trans hvacant.product hnext.2⟩

/-- **The root that was made is kept**: nothing changes any more. -/
theorem Vacant.kept {root : StorageObject} (h : Vacant C m₀.world) (hidle : ∀ i, m₀.tasks i = .idle)
    (hrun : Machine.Runs C True m₀ m) (hroot : m.world.names PRODUCT_DIRECTORY = some root)
    (hlater : Machine.Runs C True m m') : m'.world = m.world := by
  have hstart : m₀.Settling m₀.world := ⟨.refl _, fun i => .inl (hidle i)⟩
  rcases ((hstart.run h hrun).1.run h hlater).2 with hsame | ⟨hfirst, _⟩
  · exact hsame
  · rw [hfirst, h.product] at hroot
    cases hroot

end Settling

end WinProfile.Legacy
