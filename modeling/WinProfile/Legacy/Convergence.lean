/-
  File:      WinProfile/Legacy/Convergence.lean
  Subject:   The startup after any number of interrupted ones, when none of its calls fails: it
             completes the migration that was under way, or begins and completes one.

  * `startup` -- the inspection, the operator's consent and the recovery as one program.
  * `calm_completeRecovery`, `calm_startup` -- what they come to where there is a bootstrap directory.
  * `calm_startup_first` -- where there is none: the startup makes it and ends with an error.
  * `startup_converges` -- from every state that a run leaves with nobody at work.
  * `Recovers`, `recovery_converges_iff` -- one further startup, step by step: it succeeds exactly where
    there is a bootstrap directory.
-/
import WinProfile.Legacy.Safety

namespace WinProfile.Legacy

/-! ## 1. The program -/

/-- A startup whose operator consents to whatever is asked. -/
def startup (C : StateCodec) : Prog StartupError StorageHandle := do
  match ← Proc.mapErr .legacy (inspectUnder C) with
  | .ready root => pure root
  | .needsConsent recovery => completeRecovery C recovery
  | .needsResume recovery => completeRecovery C recovery

section Calm

variable {C : StateCodec} {S : Setting} {o : StorageObject} {i : Nat} {w w' : World}
  {records : List MigrationStateRecord} {u : MigrationStateRecord}

/-- **`complete_recovery` without failures**, where there is a bootstrap directory. -/
theorem calm_completeRecovery {recovery : LegacyStorageRecovery} (h : Waiting C S w)
    (hboot : w.names BOOTSTRAP_DIRECTORY ≠ none) (hplain : Plain w)
    (hmay : S.detachable recovery.detectedIdentity)
    (hdetected : openOf (recordsIn C w) = none →
      Denotes w.names PRODUCT_DIRECTORY recovery.detectedIdentity) :
    Proc.always Eq (stepIn True i) StaysTrusted
      (fun root w' => (∃ u, (openOf (recordsIn C w) = some u ∨ openOf (recordsIn C w) = none ∧
        u.sourceIdentity = recovery.detectedIdentity) ∧ Completed C S i u root w') ∧
        Trusted w'.names)
      (fun _ _ => False) (completeRecovery C recovery) w := by
  rw [completeRecovery_eq]
  refine (Proc.always_bind _ _).mpr ((Proc.always_mapErr _ _).mpr (Proc.always_mono
    (calm_executeRecovery h hboot hplain hmay hdetected) ?_ fun _ _ hfalse => hfalse))
  rintro pending w₁ ⟨⟨u, hu, hawaits⟩, htrusted₁⟩
  exact Proc.always_mono (Locked.calm hawaits.finish htrusted₁)
    (fun root w₂ h₂ => ⟨⟨u, hu, h₂.1⟩, h₂.2⟩) fun _ _ hfalse => hfalse

/-- What a startup leaves that began at `w`. -/
structure Converged (C : StateCodec) (L : StorageObject) (w : World) (root : StorageHandle)
    (w' : World) : Prop where
  complete : Complete C w'
  path : root.path = PRODUCT_DIRECTORY
  product : w'.names PRODUCT_DIRECTORY = some root.object
  isRoot : root.object.IsRoot
  /-- The legacy object has the name that the record of its migration says. -/
  detached : ∃ r ∈ recordsIn C w', r.phase = .done ∧ r.sourceIdentity = L.identity ∧
    w'.names r.legacyName = some L
  /-- A migration that was under way is complete, with the root that was made for it. -/
  own : ∀ u, OneOpen C w u → root.object = newRoot u.nextIdentity ∧
    { u with phase := .done } ∈ recordsIn C w'

/-- Where every migration is complete, the legacy object is under the name of the product or where
the last record of its migration says. -/
theorem Consistent.whereabouts (h : Consistent C S w) (hdone : Complete C w) :
    w.names PRODUCT_DIRECTORY = some S.object ∨ ∃ r ∈ recordsIn C w, r.phase = .done ∧
      r.sourceIdentity = S.object.identity ∧ w.names r.legacyName = some S.object := by
  obtain ⟨name, hname | ⟨r, hr, hsource, hname⟩, hL⟩ := h.safe.home
  · exact .inl (hname ▸ hL)
  · right
    have hne : recordsOf r.migrationId (recordsIn C w) ≠ [] := by
      intro hnil
      have hmem : r ∈ recordsOf r.migrationId (recordsIn C w) := List.mem_filter.mpr ⟨hr, by simp⟩
      rw [hnil] at hmem
      cases hmem
    obtain ⟨u, hid, hphase, hreached⟩ := hdone.done r.migrationId trivial hne
    have hchain : r ∈ chainTo u := hreached.subset (List.mem_filter.mpr ⟨hr, by simp [hid]⟩)
    have hsame := (mem_chainTo.mp hchain).2
    have hu : u ∈ recordsIn C w :=
      (List.mem_filter.mp (hreached.symm.subset (self_mem_chainTo u))).1
    have hsourceU : u.sourceIdentity = r.sourceIdentity := by rw [hsame]
    have hlegacyU : u.legacyName = r.legacyName := by rw [hsame]
    exact ⟨u, hu, hphase, hsourceU.trans hsource, by rw [hlegacyU, hname]; exact hL⟩

theorem Consistent.complete (h : Consistent C S w) :
    Complete C w ↔ openOf (recordsIn C w) = none := by
  constructor
  · intro hdone
    by_contra hopen
    obtain ⟨u, hu⟩ := h.unfinished.mpr hopen
    obtain ⟨v, hid, hphase, hreached⟩ := hdone.done u.migrationId trivial
      (recordsOf_ne_nil hu.reached)
    exact hu.unfinished (hu.reached.unique hreached hid.symm ▸ hphase)
  · intro hopen
    rcases h.safe.recognised with hdone | ⟨u, hu⟩
    · exact hdone
    · rw [h.oneOpen.mp hu] at hopen
      cases hopen

/-- The migration of `u` is complete, with the root that was made for it. -/
structure Finished (C : StateCodec) (u : MigrationStateRecord) (w : World) : Prop where
  complete : Complete C w
  product : w.names PRODUCT_DIRECTORY = some (newRoot u.nextIdentity)
  done : { u with phase := .done } ∈ recordsIn C w

theorem Completed.finished {root : StorageHandle} (h : Completed C S i u root w) :
    Finished C u w := by
  obtain ⟨_, hproduct, records, hheld, hlast⟩ := h
  refine ⟨hheld.consistent.complete.mpr ?_, hproduct, ?_⟩
  · rw [hheld.journal.records, openOf_eq_none, hlast]
    rintro v hv
    cases hv
    rfl
  · rw [hheld.journal.records]
    exact List.mem_of_getLast? hlast

/-- A complete migration has converged. -/
theorem Completed.converged {root : StorageHandle} (h : Completed C S i u root w')
    (hlegacy : ¬ S.object.IsRoot) (hw : Consistent C S w)
    (hu : ∀ v, openOf (recordsIn C w) = some v → v = u) : Converged C S.object w root w' := by
  obtain ⟨hdone, hproduct, hlast⟩ := h.finished
  obtain ⟨hroot, _, _, hheld, _⟩ := h
  refine ⟨hdone, by rw [hroot], by rw [hroot]; exact hproduct, by rw [hroot]; exact newRoot_isRoot _,
    ?_, fun v hv => ?_⟩
  · rcases hheld.consistent.whereabouts hdone with hL | hrecord
    · rw [hproduct] at hL
      rw [← Option.some.inj hL] at hlegacy
      exact absurd (newRoot_isRoot _) hlegacy
    · exact hrecord
  · obtain rfl := hu v (hw.oneOpen.mp hv)
    exact ⟨by rw [hroot], hlast⟩

/-- An inspection without failures. -/
theorem Waiting.looks_inspectUnder (h : Waiting C S w) (hplain : Plain w) :
    Looks (.still w) True i (Asks True w (recordsIn C w)) (fun _ => False) (inspectUnder C) :=
  h.consistent.looks_inspectUnder.mono (fun _ h => h) fun _ he => he trivial hplain h.trusted

/-- **A startup without failures**, where there is a bootstrap directory. -/
theorem calm_startup (h : Waiting C S w) (hboot : w.names BOOTSTRAP_DIRECTORY ≠ none)
    (hplain : Plain w) (hlegacy : ¬ S.object.IsRoot) :
    Proc.always Eq (stepIn True i) StaysTrusted
      (fun root w' => Converged C S.object w root w' ∧ Waiting C S (w'.released i))
      (fun _ _ => False) (startup C) w := by
  have hrecover : ∀ recovery : LegacyStorageRecovery, S.detachable recovery.detectedIdentity →
      (openOf (recordsIn C w) = none →
        Denotes w.names PRODUCT_DIRECTORY recovery.detectedIdentity) →
      Proc.always Eq (stepIn True i) StaysTrusted
        (fun root w' => Converged C S.object w root w' ∧ Waiting C S (w'.released i))
        (fun _ _ => False) (completeRecovery C recovery) w := by
    intro recovery hmay hdetected
    refine Proc.always_mono (calm_completeRecovery h hboot hplain hmay hdetected) ?_
      fun _ _ hfalse => hfalse
    rintro root w' ⟨⟨u, hu, hcompleted⟩, htrusted⟩
    obtain ⟨_, hheld, _⟩ := hcompleted.held
    refine ⟨hcompleted.converged hlegacy h.consistent fun v hv => ?_, hheld.consistent.released, ?_,
      htrusted⟩
    · rcases hu with hu | ⟨hnone, _⟩
      · exact Option.some.inj (hv.symm.trans hu)
      · rw [hnone] at hv
        cases hv
    · show (if w'.owner = some i then none else w'.owner) = none
      rw [hheld.owner, if_pos rfl]
  refine (Proc.always_bind _ _).mpr ((Proc.always_mapErr _ _).mpr (Proc.always_mono
    ((h.looks_inspectUnder hplain).calm h.trusted) ?_ fun _ _ he => he.2))
  rintro state w₁ ⟨rfl, hstate⟩
  unfold Asks at hstate
  cases hopen : openOf (recordsIn C w₁) with
  | some u =>
    rw [hopen] at hstate
    obtain ⟨recovery, rfl, hsource⟩ := hstate
    have hmay : S.detachable u.sourceIdentity := by
      obtain ⟨records, _, hjournal, hlayout, _⟩ := h.consistent
      rw [hjournal.records] at hopen
      exact hlayout.sources u (mem_of_openOf hopen)
    refine hrecover recovery (hsource ▸ hmay) fun hnone => ?_
    rw [hopen] at hnone
    cases hnone
  | none =>
    rw [hopen] at hstate
    obtain ⟨o, ho, hfound⟩ := hstate
    have hdone := h.consistent.complete.mpr hopen
    cases state with
    | ready root =>
      obtain ⟨rfl, hroot⟩ := hfound
      refine ⟨⟨hdone, rfl, ho, hroot, ?_, fun u hu => ?_⟩, by rw [h.released]; exact h⟩
      · rcases h.consistent.whereabouts hdone with hL | hrecord
        · rw [← Option.some.inj (ho.symm.trans hL)] at hlegacy
          exact absurd hroot hlegacy
        · exact hrecord
      · rw [h.consistent.oneOpen.mp hu] at hopen
        cases hopen
    | needsConsent recovery =>
      refine hrecover recovery ?_ fun _ => ⟨o, ho, hfound.1.symm⟩
      rw [hfound.1]
      exact h.consistent.detachable ho (hfound.2 trivial)
    | needsResume recovery => exact hfound.elim

/-- **A startup without failures where there is no bootstrap directory**: it asks for consent, makes the
directory, and ends with an error. -/
theorem calm_startup_first (h : Waiting C S w) (hnone : w.names BOOTSTRAP_DIRECTORY = none)
    (hplain : Plain w) (hlegacy : ¬ S.object.IsRoot) :
    Proc.always Eq (stepIn True i) StaysTrusted (fun _ _ => False)
      (fun _ w' => (∃ k, w'.released i = w.placed BOOTSTRAP_DIRECTORY (some (newRoot k))) ∧
        Waiting C S (w'.released i))
      (startup C) w := by
  have hempty : recordsIn C w = [] ∧ w.names PRODUCT_DIRECTORY = some S.object := by
    obtain ⟨records, _, hjournal, hlayout, _⟩ := h.consistent
    obtain rfl := hlayout.bootstrap hnone
    refine ⟨hjournal.records, ?_⟩
    rcases hlayout.home with hhome | ⟨r, hr, _⟩
    · exact hhome
    · cases hr
  obtain ⟨hrecords, hproduct⟩ := hempty
  refine (Proc.always_bind _ _).mpr ((Proc.always_mapErr _ _).mpr (Proc.always_mono
    ((h.looks_inspectUnder hplain).calm h.trusted) ?_ fun _ _ he => he.2.elim))
  rintro state w₁ ⟨rfl, hstate⟩
  rw [hrecords] at hstate
  obtain ⟨o, ho, hfound⟩ := hstate
  obtain rfl : S.object = o := Option.some.inj (hproduct.symm.trans ho)
  cases state with
  | ready root => exact absurd hfound.2 hlegacy
  | needsResume recovery => exact hfound.elim
  | needsConsent recovery =>
    exact (Proc.always_bind _ _).mpr ((Proc.always_mapErr _ _).mpr (Proc.always_mono
      (calm_executeRecovery_first h hnone) (fun _ _ hfalse => hfalse.elim) fun _ _ he => he))

end Calm

/-! ## 2. Interrupted startups -/

/-- **Startups converge** from `w`: one can be made, and one whose calls do not fail returns a root,
leaves every migration complete, and the inspection after it is ready on that root. -/
structure Converges (C : StateCodec) (L : StorageObject) (i : Nat) (w : World) : Prop where
  possible : Bounded w.names → ∃ r w', Proc.Steps (stepIn True i) (startup C) w (.done r) w'
  result : ∀ r w', Proc.Steps (stepIn True i) (startup C) w (.done r) w' →
    ∃ root, r = .ok root ∧ Converged C L w root w' ∧
      ∀ r' w'', Proc.Steps (stepIn True i) (inspectUnder C) (w'.released i) (.done r') w'' →
        r' = .ok (.ready root)

section Convergence

variable {C : StateCodec} {S : Setting} {L : StorageObject} {m₀ m : Machine} {i : Nat} {w : World}

theorem Waiting.converges (h : Waiting C S w) (hboot : w.names BOOTSTRAP_DIRECTORY ≠ none)
    (hplain : Plain w) (hlegacy : ¬ S.object.IsRoot) : Converges C S.object i w where
  possible hbounded := Proc.Steps.total (fun c w hw => exists_calm c hw) (startup C) hbounded
  result r w' hs := by
    have hend := hs.always (calm_startup h hboot hplain hlegacy)
    cases r with
    | error e => exact hend.elim
    | ok root =>
      obtain ⟨hconverged, hreleased⟩ := hend
      refine ⟨root, rfl, hconverged, fun r' w'' hs' => ?_⟩
      have hplain' : Plain w' := hplain.steps hs
      obtain ⟨_, hvalue, herror⟩ := (hreleased.looks_inspectUnder hplain').steps hs'
      have hopen : openOf (recordsIn C (w'.released i)) = none :=
        hreleased.consistent.complete.mp ⟨hconverged.complete.sound, hconverged.complete.done⟩
      cases r' with
      | error e => exact (herror e rfl).elim
      | ok state =>
        have hstate := hvalue state rfl
        unfold Asks at hstate
        rw [hopen] at hstate
        obtain ⟨o, ho, hfound⟩ := hstate
        have hproduct : root.object = o :=
          Option.some.inj (hconverged.product.symm.trans ho)
        subst hproduct
        cases state with
        | ready root' =>
          obtain ⟨rfl, _⟩ := hfound
          obtain ⟨path, object⟩ := root
          obtain rfl : path = PRODUCT_DIRECTORY := hconverged.path
          rfl
        | needsConsent recovery => exact absurd hconverged.isRoot (hfound.2 trivial)
        | needsResume recovery => exact hfound.elim

/-- **What an inspection says** when none of its calls fails and nobody else is at work. -/
theorem Waiting.says (h : Waiting C S w) (hplain : Plain w)
    {r : Except LegacyStorageError ProductionStorageState} {w' : World}
    (hs : Proc.Steps (stepIn True i) (inspectUnder C) w (.done r) w') : w' = w ∧
      ((∃ u recovery, OneOpen C w u ∧ r = .ok (.needsResume recovery) ∧
          recovery.detectedIdentity = u.sourceIdentity) ∨
        Complete C w ∧ (w.names PRODUCT_DIRECTORY = some S.object ∧
            (∃ recovery, r = .ok (.needsConsent recovery) ∧
              recovery.detectedIdentity = S.object.identity) ∨
          ∃ root, r = .ok (.ready root) ∧ root.object.IsRoot ∧
            w.names PRODUCT_DIRECTORY = some root.object)) := by
  obtain ⟨hsame, hvalue, herror⟩ := (h.looks_inspectUnder hplain).steps hs
  refine ⟨hsame, ?_⟩
  cases r with
  | error e => exact (herror e rfl).elim
  | ok state =>
    have hstate := hvalue state rfl
    unfold Asks at hstate
    cases hopen : openOf (recordsIn C w) with
    | some u =>
      rw [hopen] at hstate
      obtain ⟨recovery, rfl, hsource⟩ := hstate
      exact .inl ⟨u, recovery, h.consistent.oneOpen.mpr hopen, rfl, hsource⟩
    | none =>
      rw [hopen] at hstate
      obtain ⟨o, ho, hfound⟩ := hstate
      have hdone := h.consistent.complete.mpr hopen
      refine .inr ⟨hdone, ?_⟩
      cases state with
      | ready root =>
        obtain ⟨rfl, hisRoot⟩ := hfound
        exact .inr ⟨_, rfl, hisRoot, ho⟩
      | needsConsent recovery =>
        obtain ⟨hsource, hbad⟩ := hfound
        rcases h.consistent.safe.settled hdone with hL | ⟨k, hk⟩
        · obtain rfl : S.object = o := Option.some.inj (hL.symm.trans ho)
          exact .inl ⟨hL, recovery, rfl, hsource⟩
        · rw [hk] at ho
          cases ho
          exact absurd (newRoot_isRoot _) (hbad trivial)
      | needsResume recovery => exact hfound.elim

/-- Where nobody recovers, nobody has the lock. -/
theorem Machine.Inv.free {seen : World → Prop} {calm : Prop} (h : m.Inv C S seen calm)
    (hidle : ∀ j, m.tasks j = .idle) : m.world.owner = none := by
  by_contra howner
  obtain ⟨j, hj⟩ := Option.ne_none_iff_exists'.mp howner
  obtain ⟨p, hp⟩ := h.owner j hj
  rw [hidle j] at hp
  cases hp

/-- The last instance that was at work is stopped. -/
theorem Machine.put_idle (h : ∀ j, j ≠ i → m.tasks j = .idle) (j : Nat) :
    (m.put i .idle w).tasks j = .idle := by
  rw [Machine.put_tasks]
  split
  · rfl
  · next hne => exact h j hne

end Convergence

/-! ## 3. One further startup -/

/-- What `execute_recovery` leaves that began at `w` and was told to detach the object `detected`. -/
structure Executed (C : StateCodec) (L : StorageObject) (detected : StorageObjectIdentity) (w : World)
    (pending : PendingProductionStorage) (w' : World) : Prop where
  auditPending : pending.state.phase = .auditPending
  recorded : OneOpen C w' pending.state
  product : w'.names PRODUCT_DIRECTORY = some (newRoot pending.state.nextIdentity)
  source : pending.state.sourceIdentity = detected
  legacyName : Denotes w'.names pending.state.legacyName detected
  object : detected = L.identity → w'.names pending.state.legacyName = some L
  /-- A migration that was under way is the one that goes on. -/
  own : ∀ u, OneOpen C w u → pending.state = { u with phase := .auditPending }

/-- **One further startup succeeds** from `w`, where `L` was found under the name of the product: it can
be made, and where its calls do not fail it does all that it is for. -/
structure Recovers (C : StateCodec) (L : StorageObject) (i : Nat) (w : World) : Prop where
  possible : ∃ r w', Proc.Steps (stepIn True i) (startup C) w (.done r) w'
  resumes : ∀ u, OneOpen C w u → ∀ r w',
    Proc.Steps (stepIn True i) (inspectUnder C) w (.done r) w' →
      ∃ recovery, r = .ok (.needsResume recovery) ∧ recovery.detectedIdentity = u.sourceIdentity
  asks : Complete C w → w.names PRODUCT_DIRECTORY = some L → ∀ r w',
    Proc.Steps (stepIn True i) (inspectUnder C) w (.done r) w' →
      ∃ recovery, r = .ok (.needsConsent recovery) ∧ recovery.detectedIdentity = L.identity
  executes : ∀ r recovery w₁, Proc.Steps (stepIn True i) (inspectUnder C) w (.done r) w₁ →
    Task.ofInspection r = .asking recovery → ∀ r' w',
      Proc.Steps (stepIn True i) (executeRecovery C recovery.detectedIdentity) w₁ (.done r') w' →
        ∃ pending, r' = .ok pending ∧ Executed C L recovery.detectedIdentity w pending w'
  completes : ∀ r w', Proc.Steps (stepIn True i) (startup C) w (.done r) w' →
    ∃ root, r = .ok root ∧ Converged C L w root w' ∧
      ∀ r' w'', Proc.Steps (stepIn True i) (inspectUnder C) (w'.released i) (.done r') w'' →
        r' = .ok (.ready root)

section Recovers

variable {C : StateCodec} {S : Setting} {L : StorageObject} {m₀ m : Machine} {i : Nat} {w : World}

/-- Where every migration is complete, none is under way. -/
theorem Consistent.not_complete {u : MigrationStateRecord} (h : Consistent C S w)
    (hu : OneOpen C w u) : ¬ Complete C w := fun hdone => by
  have hopen := h.oneOpen.mp hu
  rw [h.complete.mp hdone] at hopen
  cases hopen

/-- The recovery of an object that may be detached, up to its terminal audit entry. -/
theorem Waiting.executes {detected : StorageObjectIdentity} (h : Waiting C S w)
    (hboot : w.names BOOTSTRAP_DIRECTORY ≠ none) (hplain : Plain w) (hmay : S.detachable detected)
    (hdetected : Complete C w → Denotes w.names PRODUCT_DIRECTORY detected)
    (hopened : ∀ u, OneOpen C w u → u.sourceIdentity = detected)
    {r : Except LegacyStorageError PendingProductionStorage} {w' : World}
    (hs : Proc.Steps (stepIn True i) (executeRecovery C detected) w (.done r) w') :
    ∃ pending, r = .ok pending ∧ Executed C S.object detected w pending w' := by
  have hend := hs.always (calm_executeRecovery h hboot hplain hmay fun hnone =>
    hdetected (h.consistent.complete.mpr hnone))
  cases r with
  | error e => exact hend.elim
  | ok pending =>
    obtain ⟨⟨u, hu, _, hstate, records, hheld, hopen⟩, _⟩ := hend
    have hsource : u.sourceIdentity = detected := by
      rcases hu with hu | ⟨_, hsource⟩
      · exact hopened u (h.consistent.oneOpen.mpr hu)
      · exact hsource
    have hphase : pending.state.phase = .auditPending := by rw [hstate]
    have hpending : pending.state.sourceIdentity = detected := by rw [hstate, hsource]
    have hrecorded : OneOpen C w' pending.state := by
      rw [hheld.consistent.oneOpen, hheld.journal.records, hopen]
    have hready := (hheld.layout.stands _ hopen).ready
      (by rw [hphase]; exact MigrationPhase.noConfusion)
      (by rw [hphase]; exact MigrationPhase.noConfusion)
    refine ⟨pending, rfl, hphase, hrecorded, hready.2, hpending, hpending ▸ hready.1, fun hL => ?_,
      fun v hv => ?_⟩
    · refine hheld.consistent.safe.detached _ ?_ (by rw [hphase]; exact MigrationPhase.noConfusion)
        (hpending.trans hL)
      rw [hheld.journal.records]
      exact mem_of_openOf hopen
    · rcases hu with hu | ⟨hnone, _⟩
      · rw [hstate, Option.some.inj ((h.consistent.oneOpen.mp hv).symm.trans hu)]
      · rw [h.consistent.oneOpen.mp hv] at hnone
        cases hnone

theorem Waiting.recovers (h : Waiting C (.any L) w) (hboot : w.names BOOTSTRAP_DIRECTORY ≠ none)
    (hplain : Plain w) (hbounded : Bounded w.names) (hlegacy : ¬ L.IsRoot) : Recovers C L i w where
  possible := Proc.Steps.total (fun c w hw => exists_calm c hw) (startup C) hbounded
  resumes u hu r w' hs := by
    obtain ⟨_, ⟨v, recovery, hv, hr, hsource⟩ | ⟨hdone, _⟩⟩ := h.says hplain hs
    · obtain rfl : u = v :=
        Option.some.inj ((h.consistent.oneOpen.mp hu).symm.trans (h.consistent.oneOpen.mp hv))
      exact ⟨recovery, hr, hsource⟩
    · exact absurd hdone (h.consistent.not_complete hu)
  asks hdone hL r w' hs := by
    obtain ⟨_, ⟨v, recovery, hv, _⟩ | ⟨_, ⟨_, hconsent⟩ | ⟨root, _, hroot, hproduct⟩⟩⟩ :=
      h.says hplain hs
    · exact absurd hdone (h.consistent.not_complete hv)
    · exact hconsent
    · rw [Option.some.inj (hL.symm.trans hproduct)] at hlegacy
      exact absurd hroot hlegacy
  executes r recovery w₁ hs htask r' w' hs' := by
    obtain ⟨rfl, ⟨u, asked, hu, rfl, hsource⟩ | ⟨hdone, ⟨hL, asked, rfl, hsource⟩ | ⟨root, rfl, _⟩⟩⟩ :=
      h.says hplain hs
    · cases htask
      refine h.executes hboot hplain trivial (fun hdone => ?_) (fun v hv => ?_) hs'
      · exact absurd hdone (h.consistent.not_complete hu)
      · rw [hsource]
        exact congrArg MigrationStateRecord.sourceIdentity
          (Option.some.inj ((h.consistent.oneOpen.mp hv).symm.trans (h.consistent.oneOpen.mp hu)))
    · cases htask
      exact h.executes hboot hplain trivial (fun _ => ⟨_, hL, hsource.symm⟩)
        (fun v hv => absurd hdone (h.consistent.not_complete hv)) hs'
    · cases htask
  completes := (h.converges hboot hplain hlegacy).result

/-- Without the bootstrap directory no startup ends with a root. -/
theorem Waiting.not_recovers (h : Waiting C (.any L) w)
    (hnone : w.names BOOTSTRAP_DIRECTORY = none) (hplain : Plain w) (hlegacy : ¬ L.IsRoot) :
    ¬ Recovers C L i w := by
  intro hrecovers
  obtain ⟨r, w', hs⟩ := hrecovers.possible
  obtain ⟨root, rfl, _⟩ := hrecovers.completes r w' hs
  exact hs.always (calm_startup_first h hnone hplain hlegacy)

/-- **Interrupted recovery converges, exactly where there is a bootstrap directory**: from every state
that startups leave whose inspections are one step, each of them stopped or failing before or after any
of its calls. -/
theorem recovery_converges_iff (hstart : Fresh C L m₀.world) (hlegacy : ¬ L.IsRoot)
    (htrusted : Trusted m₀.world.names) (hplain : Plain m₀.world) (hbounded : Bounded m₀.world.names)
    (hidle : ∀ i, m₀.tasks i = .idle) (hrun : Machine.Attempts C False m₀ m)
    (hfree : m.world.owner = none) (i : Nat) :
    Recovers C L i m.world ↔ m.world.names BOOTSTRAP_DIRECTORY ≠ none := by
  have hinv₀ : m₀.Inv C (.any L) (fun _ => True) False := hstart.invAny hidle
  obtain ⟨hruns, _⟩ := hrun.runs (.idle hidle) hinv₀
  obtain ⟨hinv, hkept⟩ := hinv₀.run hruns fun _ _ _ => trivial
  have hwaiting : Waiting C (.any L) m.world :=
    ⟨hinv.knows.consistent, hfree, hkept.keeps.trusted htrusted⟩
  have hplain' := hplain.runs hruns
  constructor
  · exact fun hrecovers hnone => hwaiting.not_recovers hnone hplain' hlegacy hrecovers
  · exact fun hboot => hwaiting.recovers hboot hplain' (hbounded.runs hruns) hlegacy

/-- The first instance is stopped with a migration under way. -/
theorem recovery_converges_iff_sample : ∃ m u,
    Machine.Attempts sampleStateCodec False staleMachine m ∧ OneOpen sampleStateCodec m.world u ∧
    Recovers sampleStateCodec staleObject 1 m.world := by
  obtain ⟨m, u, hrun, hopen, _, _, hidle⟩ := staleMachine_attempts False
  have hlater : Machine.Attempts sampleStateCodec False staleMachine
      (m.put 0 .idle (m.world.released 0)) := hrun.tail ⟨0, .stop⟩
  have hinv₀ : staleMachine.Inv sampleStateCodec (.any staleObject) (fun _ => True) False :=
    staleMachine_fresh.invAny fun _ => rfl
  obtain ⟨hinv, hkept⟩ := hinv₀.run (hlater.runs (fun _ _ => Task.noConfusion) hinv₀).1
    fun _ _ _ => trivial
  have hfree := hinv.free (Machine.put_idle hidle)
  have hboot : (m.put 0 .idle (m.world.released 0)).world.names BOOTSTRAP_DIRECTORY ≠ none := by
    rw [hkept.keeps.bootstrap _ startWorld_bootstrap]
    exact Option.some_ne_none _
  exact ⟨_, u, hlater, hopen.released, (recovery_converges_iff staleMachine_fresh
    staleObject_not_isRoot startWorld_trusted startWorld_plain startWorld_bounded (fun _ => rfl) hlater
    hfree 1).mpr hboot⟩

/-- **The first startup does not recover**: there is a legacy object and nothing else. -/
theorem first_startup_fails : Fresh sampleStateCodec staleObject (startWorld staleObject none) ∧
    ¬ staleObject.IsRoot ∧ ¬ Recovers sampleStateCodec staleObject 0 (startWorld staleObject none) := by
  have hfresh : Fresh sampleStateCodec staleObject (startWorld staleObject none) :=
    startWorld_fresh fun k hk => by cases hk
  exact ⟨hfresh, staleObject_not_isRoot, (hfresh.waiting startWorld_trusted).not_recovers
    startWorld_bootstrap startWorld_plain staleObject_not_isRoot⟩

end Recovers

end WinProfile.Legacy
