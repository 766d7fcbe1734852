/-
  File:      WinProfile/App/Closing.lean
  Subject:   Close requests and migrations: `close_after_finish`, the cancellation tokens, and the
             window.

  * `Guarded` -- the slot holds the token of the migration that is published or runs.
  * `OwnClose` -- when a deferred close stays with its migration; `Belongs` -- what holds then.
  * `deferred_close_belongs` -- flag, tokens and window in every run that meets it;
    `late_close_cancels_next` -- a close that came after the `finish` of the migration it saw.
-/
import WinProfile.App.Operations

namespace WinProfile

/-! ## 1. What a step does to each cell -/

/-- The call is over: a worker was started. -/
def Stage.isLate : Stage → Bool
  | .running | .cleared | .stored | .finished _ | .ended => true
  | _ => false

section Cells

variable {s s' : Controller} {e : Event} {n : Nat}

theorem ops_cancel (k : Nat) :
    (s.cancel n).ops k = if k = n then { s.ops n with cancelled := true } else s.ops k := by
  unfold Controller.cancel
  by_cases h : k = n
  · subst h
    simp
  · simp [h]

theorem ops_cancelSlot (k : Nat) : s.cancelSlot.ops k
    = if s.slot = some k then { s.ops k with cancelled := true } else s.ops k := by
  unfold Controller.cancelSlot
  split
  · next n h =>
    rw [ops_cancel, h]
    by_cases hk : k = n
    · subst hk
      simp
    · simp [hk, Ne.symm hk]
  · next h => rw [h]; simp

/-- The close flag goes up in a close request only. -/
theorem Step.flag_up (hs : Step s e s') (hflag : s'.closeAfterFinish = true) :
    s.closeAfterFinish = true ∨ ∃ n, e = .deferred n ∧ s.inside = .closing n := by
  cases hs with
  | closeFlag n hin => exact .inr ⟨n, rfl, hin⟩
  | check n hstage hin =>
    left
    by_contra h
    simp [h] at hflag
  | cancel hfree hsound => exact .inl (closeAfterFinish_cancelSlot.symm.trans hflag)
  | closeToken n hin => exact .inl (closeAfterFinish_cancelSlot.symm.trans hflag)
  | takeAborted n hstage => cases hflag
  | takeIncomplete hpending => cases hflag
  | take n hstage => cases hflag
  | _ => exact .inl hflag

/-- A token is set by the check of its own start, by a cancellation, or by a close request. -/
theorem Step.token_up (hs : Step s e s') (hcancelled : s'.cancelled n = true) :
    s.cancelled n = true ∨
      e = .checked n true ∧ s.stage n = .begun ∧ s.closeAfterFinish = true ∨
      e = .cancelRequested (some n) ∧ s.slot = some n ∧ s.poisoned = false ∨
      ∃ k, e = .closeLeft k ∧ s.inside = .flagged k ∧ s.slot = some n := by
  cases hs with
  | check k hstage hin =>
    by_cases hflag : s.closeAfterFinish = true
    · simp only [hflag, if_true, Controller.cancelled, ops_cancel] at hcancelled
      by_cases hk : n = k
      · subst hk
        exact .inr (.inl ⟨by rw [hflag], hstage, hflag⟩)
      · rw [if_neg hk] at hcancelled
        exact .inl hcancelled
    · simp only [hflag, Bool.false_eq_true] at hcancelled
      exact .inl hcancelled
  | cancel hfree hsound =>
    simp only [Controller.cancelled, ops_cancelSlot] at hcancelled
    by_cases hslot : s.slot = some n
    · exact .inr (.inr (.inl ⟨by rw [hslot], hslot, hsound⟩))
    · rw [if_neg hslot] at hcancelled
      exact .inl hcancelled
  | closeToken k hin =>
    simp only [Controller.cancelled, ops_cancelSlot] at hcancelled
    by_cases hslot : s.slot = some n
    · exact .inr (.inr (.inr ⟨k, rfl, hin, hslot⟩))
    · rw [if_neg hslot] at hcancelled
      exact .inl hcancelled
  | begin kind hkind hidle =>
    simp only [cancelled_tryBegin] at hcancelled
    split at hcancelled
    · cases hcancelled
    · exact .inl hcancelled
  | beginMigration d elevated plan hcheck hidle =>
    simp only [cancelled_tryBegin] at hcancelled
    split at hcancelled
    · cases hcancelled
    · exact .inl hcancelled
  | _ => first
    | exact .inl hcancelled
    | exact .inl (cancelled_setStage.symm.trans hcancelled)

/-- A close request is in flight from the moment it saw its migration. -/
def Controller.Closing (s : Controller) (n : Nat) : Prop :=
  n ∈ s.seen ∨ s.inside = .closing n ∨ s.inside = .flagged n

theorem Step.closing_from (hs : Step s e s') (hclosing : s'.Closing n) :
    s.Closing n ∨ e = .sawMigration n := by
  cases hs with
  | closeSeen hpolicy =>
    rcases hclosing with h | h | h
    · rcases List.mem_cons.mp h with rfl | h
      · exact .inr rfl
      · exact .inl (.inl h)
    · exact .inl (.inr (.inl h))
    · exact .inl (.inr (.inr h))
  | closeEnter k hseen hfree hsound =>
    rcases hclosing with h | h | h
    · exact .inl (.inl (List.mem_of_mem_erase h))
    · cases h
      exact .inl (.inl hseen)
    · cases h
  | closeFailed k hseen hfree hpoisoned =>
    rcases hclosing with h | h | h
    · exact .inl (.inl (List.mem_of_mem_erase h))
    · exact .inl (.inr (.inl h))
    · exact .inl (.inr (.inr h))
  | closeFlag k hin =>
    rcases hclosing with h | h | h
    · exact .inl (.inl h)
    · cases h
    · cases h
      exact .inl (.inr (.inl hin))
  | closeToken k hin =>
    rcases hclosing with h | h | h
    · exact .inl (.inl (seen_cancelSlot ▸ h))
    · cases h
    · cases h
  | enter k hstage hkind hfree hsound =>
    rcases hclosing with h | h | h
    · exact .inl (.inl h)
    · cases h
    · cases h
  | check k hstage hin =>
    rcases hclosing with h | h | h
    · by_cases hflag : s.closeAfterFinish = true
      · exact .inl (.inl (by simpa [hflag, Controller.cancel] using h))
      · exact .inl (.inl (by simpa [hflag] using h))
    · cases h
    · cases h
  | publish k hstage hin =>
    rcases hclosing with h | h | h
    · exact .inl (.inl h)
    · cases h
    · cases h
  | cancel hfree hsound =>
    rw [Controller.Closing, seen_cancelSlot, inside_cancelSlot] at hclosing
    exact .inl hclosing
  | _ => exact .inl hclosing

/-- An operation that has its worker never goes back. -/
theorem Step.late (hs : Step s e s') (hfresh : s.stage s.next = .unborn)
    (hlate : (s.stage n).isLate = true) : (s'.stage n).isLate = true := by
  rcases hs.advance n with hsame | hmove
  · rwa [hsame]
  · generalize hstage : s.stage n = stage at hmove hlate
    generalize s'.stage n = stage' at hmove
    cases hmove with
    | began kind hnext =>
      rw [← hstage, hnext, hfresh] at hlate
      cases hlate
    | _ => first | rfl | cases hlate

/-- An operation is under way until its `finish` has taken the close flag. -/
theorem Step.underWay (hs : Step s e s') (hfresh : s.stage s.next = .unborn)
    (hway : s.UnderWay n) :
    s'.UnderWay n ∨ ∃ close, e = .took (some n) close := by
  unfold Controller.UnderWay at hway ⊢
  rcases hs.advance n with hsame | hmove
  · exact .inl (by rwa [hsame])
  · generalize hstage : s.stage n = stage at hmove hway
    generalize s'.stage n = stage' at hmove
    cases hmove with
    | began kind hnext =>
      rw [← hstage, hnext, hfresh] at hway
      cases hway
    | tookAborted => exact .inr ⟨_, rfl⟩
    | took => exact .inr ⟨_, rfl⟩
    | delivered close => cases hway
    | _ => exact .inl rfl

/-- Only its own `finish` hands a close request on to the completion. -/
theorem Step.finished (hs : Step s e s') (hstage : s'.stage n = .finished true) :
    s.stage n = .finished true ∨
      e = .took (some n) true ∧ s.stage n = .stored ∧ s.closeAfterFinish = true := by
  rcases hs.advance n with hsame | hmove
  · exact .inl (hsame.symm.trans hstage)
  · rw [hstage] at hmove
    generalize hbefore : s.stage n = stage at hmove
    generalize hfinished : Stage.finished true = stage' at hmove
    cases hmove with
    | took =>
      obtain hflag := (Stage.finished.inj hfinished).symm
      exact .inr ⟨by rw [hflag], rfl, hflag⟩
    | _ => cases hfinished

/-- `finish` takes the flag away. -/
theorem Step.takes {owner : Option Nat} {close : Bool} (hs : Step s (.took owner close) s') :
    close = s.closeAfterFinish ∧ s'.closeAfterFinish = false := by
  cases hs with
  | takeAborted k hstage => exact ⟨rfl, rfl⟩
  | takeIncomplete hpending => exact ⟨rfl, rfl⟩
  | take k hstage => exact ⟨rfl, rfl⟩

/-- The close flag goes down in a `finish` only. -/
theorem Step.flag_down (hs : Step s e s') (hflag : s.closeAfterFinish = true) :
    s'.closeAfterFinish = true ∨ ∃ owner, e = .took owner true := by
  cases hs with
  | closeFlag k hin => exact .inl rfl
  | check k hstage hin =>
    left
    simp only [hflag, if_true]
    exact hflag
  | cancel hfree hsound => exact .inl (closeAfterFinish_cancelSlot.trans hflag)
  | closeToken k hin => exact .inl (closeAfterFinish_cancelSlot.trans hflag)
  | takeAborted k hstage => exact .inr ⟨some k, by rw [hflag]⟩
  | takeIncomplete hpending => exact .inr ⟨none, by rw [hflag]⟩
  | take k hstage => exact .inr ⟨some k, by rw [hflag]⟩
  | _ => exact .inl hflag

/-- The kind of an operation is settled when it begins. -/
theorem Step.kind_eq (hs : Step s e s') (howned : Owned s) (hborn : s.stage n ≠ .unborn) :
    s'.kind n = s.kind n := by
  cases hs.turn with
  | same hsame => exact hsame.kind n
  | began kind hidle hkind h =>
    have hne : n ≠ s.next := fun e => hborn (howned.fresh n (by omega))
    rw [h, kind_tryBegin, if_neg hne]
  | ended k hopen hactive hnext hkind hstage hother => exact hkind n
  | released hactive hnext hops => rw [Controller.kind, hops]; rfl

/-- Numbers are given out by `begin_operation` alone. -/
theorem Step.next_eq (hs : Step s e s') :
    s'.next = s.next ∨ ∃ kind, e = .began kind s.next := by
  cases hs.turn with
  | same hsame => exact .inl hsame.next
  | began kind hidle hkind h => exact .inr ⟨kind, rfl⟩
  | ended k hopen hactive hnext hkind hstage hother => exact .inl hnext
  | released hactive hnext hops => exact .inl hnext

/-- A poisoned mutex stays poisoned. -/
theorem Step.sound (hs : Step s e s') (hsound : s'.poisoned = false) : s.poisoned = false := by
  cases hs with
  | check n hstage hin =>
    by_cases hflag : s.closeAfterFinish = true
    · simpa [hflag, Controller.cancel] using hsound
    · simpa [hflag] using hsound
  | cancel hfree hok => exact hok
  | closeToken n hin => exact poisoned_cancelSlot.symm.trans hsound
  | poison hfree => cases hsound
  | _ => exact hsound

/-- The window is hidden for a migration whose `finish` took the close flag. -/
theorem Step.delivers (hs : Step s (.delivered n true) s') :
    s.stage n = .finished true ∧ s.kind n = .migration := by
  generalize hevent : Event.delivered n true = e at hs
  cases hs with
  | deliver k close hstage =>
    simp only [Event.delivered.injEq] at hevent
    obtain ⟨rfl, hhidden⟩ := hevent
    obtain ⟨rfl, hkind⟩ := Bool.and_eq_true_iff.mp hhidden.symm
    exact ⟨hstage, eq_of_beq hkind⟩
  | _ => cases hevent

theorem Step.cancels {slot : Option Nat} (hs : Step s (.cancelRequested slot) s') :
    s.slot = slot ∧ s.poisoned = false := by
  cases hs with
  | cancel hfree hsound => exact ⟨rfl, hsound⟩

end Cells

/-! ## 2. The mutex and the slot -/

/-- The token of a migration is in the slot from its publication until its worker clears it. -/
structure Guarded (s : Controller) : Prop where
  sound : s.inside ≠ .free → s.poisoned = false
  publishing : ∀ n, s.inside = .publishing n ∨ s.inside = .checked n →
    s.kind n = .migration ∧ s.stage n = .begun
  slot : s.poisoned = false → ∀ n, s.slot = some n ↔
    s.kind n = .migration ∧ (s.stage n = .published ∨ s.stage n = .running)

section Guarded

variable {s s' : Controller} {e : Event} {n : Nat}

theorem Guarded.start : Guarded {} where
  sound h := absurd rfl h
  publishing n h := by rcases h with h | h <;> cases h
  slot _ n := by simp [Controller.stage]

/-- Neither stages nor the slot change. -/
theorem Guarded.same (h : Guarded s) (hstage : ∀ n, s'.stage n = s.stage n)
    (hkind : ∀ n, s'.kind n = s.kind n) (hslot : s'.slot = s.slot)
    (hpoisoned : s'.poisoned = false → s.poisoned = false)
    (hsound : s'.inside ≠ .free → s'.poisoned = false)
    (hinside : ∀ n, s'.inside = .publishing n ∨ s'.inside = .checked n →
      s.inside = .publishing n ∨ s.inside = .checked n) : Guarded s' where
  sound := hsound
  publishing n hn := by
    rw [hkind, hstage]
    exact h.publishing n (hinside n hn)
  slot hok n := by
    rw [hslot, hkind, hstage]
    exact h.slot (hpoisoned hok) n

/-- The stage of one operation changes, and neither its token nor its publication are concerned. -/
theorem Guarded.moved (h : Guarded s) {k : Nat} {stage : Stage}
    (hstage : ∀ n, s'.stage n = if n = k then stage else s.stage n)
    (hkind : ∀ n, s'.kind n = s.kind n) (hslot : s'.slot = s.slot)
    (hpoisoned : s'.poisoned = s.poisoned) (hinside : s'.inside = s.inside)
    (hcall : s.stage k = .begun → s.kind k ≠ .migration ∨ s.inside = .free)
    (htoken : s.poisoned = false → s.kind k = .migration →
      ((stage = .published ∨ stage = .running) ↔
        (s.stage k = .published ∨ s.stage k = .running))) : Guarded s' where
  sound hin := by
    rw [hpoisoned]
    exact h.sound (hinside ▸ hin)
  publishing n hn := by
    rw [hinside] at hn
    obtain ⟨hmigration, hbegun⟩ := h.publishing n hn
    rw [hkind, hstage]
    by_cases hnk : n = k
    · rw [← hnk] at hcall
      rcases hcall hbegun with hne | hfree
      · exact absurd hmigration hne
      · rw [hfree] at hn
        rcases hn with hn | hn <;> cases hn
    · rw [if_neg hnk]
      exact ⟨hmigration, hbegun⟩
  slot hok n := by
    rw [hpoisoned] at hok
    rw [hslot, hkind, hstage, h.slot hok n]
    by_cases hnk : n = k
    · rw [if_pos hnk, hnk]
      exact and_congr_right fun hmigration => (htoken hok hmigration).symm
    · rw [if_neg hnk]

/-- An operation begins, under a number that is in no cell yet. -/
theorem Guarded.began (h : Guarded s) (howned : Owned s) (kind : OperationKind) :
    Guarded (s.tryBegin kind) where
  sound := h.sound
  publishing n hn := by
    obtain ⟨hmigration, hbegun⟩ := h.publishing n hn
    have hne : n ≠ s.next := fun e => by
      rw [e, howned.fresh s.next (le_refl _)] at hbegun
      cases hbegun
    rw [kind_tryBegin, stage_tryBegin, if_neg hne, if_neg hne]
    exact ⟨hmigration, hbegun⟩
  slot hok n := by
    rw [kind_tryBegin, stage_tryBegin]
    by_cases hne : n = s.next
    · have hfresh := howned.fresh s.next (le_refl _)
      have hslot := (h.slot hok n)
      rw [hne, hfresh] at hslot
      rw [if_pos hne, if_pos hne, hne]
      have hempty : ¬ (s.tryBegin kind).slot = some s.next := by
        show ¬ s.slot = some s.next
        simpa using hslot
      simp [hempty]
    · rw [if_neg hne, if_neg hne]
      exact h.slot hok n

theorem Guarded.step (h : Guarded s) (howned : Owned s) (hs : Step s e s') : Guarded s' := by
  cases hs with
  | begin kind hkind hidle => exact h.began howned kind
  | beginMigration d elevated plan hcheck hidle => exact h.began howned .migration
  | spawn k hstage hkind =>
    exact h.moved (fun _ => stage_setStage) (fun _ => kind_setStage) rfl rfl rfl
      (fun _ => .inl hkind) fun _ hmigration => absurd hmigration hkind
  | enter k hstage hkind hfree hsound =>
    refine ⟨fun _ => hsound, fun n hn => ?_, h.slot⟩
    rcases hn with hn | hn
    · cases hn
      exact ⟨hkind, hstage⟩
    · cases hn
  | check k hstage hin =>
    obtain ⟨hmigration, _⟩ := h.publishing k (.inl hin)
    have hsound : s.poisoned = false := h.sound (by simp [hin])
    have hinside : ∀ n, CriticalSection.checked k = .publishing n ∨
        CriticalSection.checked k = .checked n → s.inside = .publishing n ∨ s.inside = .checked n := by
      intro n hn
      rcases hn with hn | hn
      · cases hn
      · cases hn
        exact .inl hin
    by_cases hflag : s.closeAfterFinish = true
    · simp only [hflag, if_true]
      exact h.same (fun _ => stage_cancel) (fun _ => kind_cancel) rfl (fun _ => hsound)
        (fun _ => hsound) hinside
    · simp only [hflag, Bool.false_eq_true, if_false]
      exact h.same (fun _ => rfl) (fun _ => rfl) rfl (fun _ => hsound) (fun _ => hsound) hinside
  | publish k hstage hin =>
    obtain ⟨hmigration, _⟩ := h.publishing k (.inr hin)
    refine ⟨fun hne => absurd rfl hne, fun n hn => ?_, fun _ n => ?_⟩
    · rcases hn with hn | hn <;> cases hn
    have hstage' : (s.setStage k .published).stage n
        = if n = k then .published else s.stage n := stage_setStage
    have hkind' : (s.setStage k .published).kind n = s.kind n := kind_setStage
    show some k = some n ↔ (s.setStage k .published).kind n = .migration ∧
      ((s.setStage k .published).stage n = .published ∨
        (s.setStage k .published).stage n = .running)
    rw [hstage', hkind', Option.some.injEq]
    constructor
    · rintro rfl
      rw [if_pos rfl]
      exact ⟨hmigration, .inl rfl⟩
    · rintro ⟨_, hst⟩
      by_cases hnk : n = k
      · exact hnk.symm
      · -- Two operations would be open.
        rw [if_neg hnk] at hst
        have hn : s.Open n := by rcases hst with hst | hst <;> simp [Controller.Open, hst, Stage.isOpen]
        have hk : s.Open k := by simp [Controller.Open, hstage, Stage.isOpen]
        exact howned.unique hk hn
  | spawnMigration k hstage =>
    exact h.moved (fun _ => stage_setStage) (fun _ => kind_setStage) rfl rfl rfl
      (fun hbegun => by rw [hstage] at hbegun; cases hbegun) fun _ _ => by simp [hstage]
  | abort k hstage hkind hfree hpoisoned =>
    exact h.moved (fun _ => stage_setStage) (fun _ => kind_setStage) rfl rfl rfl
      (fun _ => .inr hfree) fun hok _ => by rw [hpoisoned] at hok; cases hok
  | takeAborted k hstage =>
    exact h.moved (fun _ => stage_setStage) (fun _ => kind_setStage) rfl rfl rfl
      (fun hbegun => by rw [hstage] at hbegun; cases hbegun) fun _ _ => by simp [hstage]
  | cancel hfree hsound =>
    exact h.same (fun _ => stage_cancelSlot) (fun _ => kind_cancelSlot) slot_cancelSlot
      (fun _ => hsound) (fun hne => absurd (inside_cancelSlot.trans hfree) hne)
      fun n hn => by rwa [inside_cancelSlot] at hn
  | closeEnter k hseen hfree hsound =>
    exact h.same (fun _ => rfl) (fun _ => rfl) rfl (fun _ => hsound) (fun _ => hsound)
      fun n hn => by rcases hn with hn | hn <;> cases hn
  | closeFlag k hin =>
    have hsound : s.poisoned = false := h.sound (by simp [hin])
    exact h.same (fun _ => rfl) (fun _ => rfl) rfl (fun _ => hsound) (fun _ => hsound)
      fun n hn => by rcases hn with hn | hn <;> cases hn
  | closeToken k hin =>
    have hsound : s.poisoned = false := h.sound (by simp [hin])
    exact h.same (fun _ => stage_cancelSlot) (fun _ => kind_cancelSlot) slot_cancelSlot
      (fun _ => hsound) (fun hne => absurd rfl hne)
      fun n hn => by rcases hn with hn | hn <;> cases hn
  | clear k hstage hkind hfree hsound =>
    refine ⟨fun hne => absurd hfree hne, fun n hn => ?_, fun _ n => ?_⟩
    · have hn' : s.inside = .publishing n ∨ s.inside = .checked n := hn
      rw [hfree] at hn'
      rcases hn' with hn' | hn' <;> cases hn'
    · have hstage' : (s.setStage k .cleared).stage n
          = if n = k then .cleared else s.stage n := stage_setStage
      show none = some n ↔ (s.setStage k .cleared).kind n = .migration ∧
        ((s.setStage k .cleared).stage n = .published ∨ (s.setStage k .cleared).stage n = .running)
      rw [hstage']
      refine ⟨fun hnone => (by cases hnone), fun hst => ?_⟩
      by_cases hnk : n = k
      · rw [if_pos hnk] at hst
        rcases hst.2 with hst | hst <;> cases hst
      · rw [if_neg hnk] at hst
        have hn : s.Open n := by
          rcases hst.2 with hst | hst <;> simp [Controller.Open, hst, Stage.isOpen]
        have hk : s.Open k := by simp [Controller.Open, hstage, Stage.isOpen]
        exact absurd (howned.unique hn hk) hnk
  | clearFailed k hstage hkind hfree hpoisoned =>
    exact h.moved (fun _ => stage_setStage) (fun _ => kind_setStage) rfl rfl rfl
      (fun hbegun => by rw [hstage] at hbegun; cases hbegun)
      fun hok _ => by rw [hpoisoned] at hok; cases hok
  | store k hready =>
    refine h.moved (fun _ => stage_setStage) (fun _ => kind_setStage) rfl rfl rfl ?_ ?_
    · intro hbegun
      rcases hready with hst | ⟨_, hkind⟩
      · rw [hst] at hbegun
        cases hbegun
      · exact .inl hkind
    · intro _ hmigration
      rcases hready with hst | ⟨_, hkind⟩
      · simp [hst]
      · exact absurd hmigration hkind
  | take k hstage =>
    exact h.moved (fun _ => stage_setStage) (fun _ => kind_setStage) rfl rfl rfl
      (fun hbegun => by rw [hstage] at hbegun; cases hbegun) fun _ _ => by simp [hstage]
  | deliver k close hstage =>
    exact h.moved (fun _ => stage_setStage) (fun _ => kind_setStage) rfl rfl rfl
      (fun hbegun => by rw [hstage] at hbegun; cases hbegun) fun _ _ => by simp [hstage]
  | poison hfree =>
    exact h.same (fun _ => rfl) (fun _ => rfl) rfl (fun hok => by cases hok)
      (fun hne => absurd hfree hne) fun _ hn => hn
  | _ => exact h.same (fun _ => rfl) (fun _ => rfl) rfl id h.sound fun _ hn => hn

theorem Guarded.reach {G : Controller → Event → Prop} (hG : ∀ s e, G s e → OwnFinish s e)
    {trace : List Event} (h : Reach G trace s) : Guarded s := by
  induction h with
  | start => exact Guarded.start
  | step hreach _ hs ih => exact ih.step (Owned.reach hG hreach) hs

end Guarded

/-! ## 3. A close belongs to its migration -/

/-- When a deferred close stays with the migration it was requested for. -/
structure OwnClose (s : Controller) (e : Event) : Prop where
  /-- The calls come from one thread. -/
  call : OneCall s e
  /-- An incomplete start does not release the operation of another. -/
  finish : OwnFinish s e
  /-- A close request sets its flag before the `finish` of the migration it saw has taken it. -/
  close : ∀ n, e = .deferred n → s.UnderWay n
  /-- A start that finds the flag set does so while no migration is inside its `finish`. -/
  check : ∀ n, e = .checked n true → ∀ k, s.kind k = .migration → s.stage k ≠ .stored
  /-- A migration that takes the flag does so while no other one has its worker. -/
  take : ∀ n, e = .took (some n) true → s.kind n = .migration →
    ∀ k, k ≠ n → s.kind k = .migration → (s.stage k).isLate = true → ¬ s.UnderWay k

/-- The invariant: `saw n`, a close request saw the migration `n`; `asked n`, a cancellation found
its token. -/
structure Belongs (saw asked : Nat → Prop) (s : Controller) : Prop where
  late : ∀ n, saw n → s.kind n = .migration ∧ (s.stage n).isLate = true
  closing : ∀ n, s.Closing n → saw n ∧ n + 1 = s.next
  flag : s.closeAfterFinish = true → ∃ n, saw n ∧ s.UnderWay n
  token : ∀ n, s.cancelled n = true → saw n ∨ asked n
  hides : ∀ n, s.stage n = .finished true → s.kind n = .migration → saw n

section Belongs

variable {s s' : Controller} {e : Event} {n : Nat} {saw asked : Nat → Prop}

theorem Controller.Closing.inCall (h : s.Closing n) : s.InCall := by
  rcases h with h | h | h
  · exact .inr (.inr (.inl (List.ne_nil_of_mem h)))
  · exact .inr (.inr (.inr (by rw [h]; nofun)))
  · exact .inr (.inr (.inr (by rw [h]; nofun)))

/-- A close request that sees a migration sees the open one, and its worker is there. -/
theorem Owned.sees (howned : Owned s) (hs : Step s (.sawMigration n) s') :
    s.Open n ∧ s.kind n = .migration ∧ n + 1 = s.next := by
  cases hs with
  | closeSeen hpolicy =>
    have hactive : s.active = .migration := by
      cases h : s.active <;> rw [h] at hpolicy <;> first | rfl | cases hpolicy
    obtain ⟨hopen, hkind⟩ := howned.current (by rw [hactive]; nofun)
    exact ⟨hopen, hkind.trans hactive, (howned.last _ hopen).1⟩

theorem late_of_sees (howned : Owned s) (hcall : ¬ s.InCall)
    (hs : Step s (.sawMigration n) s') : (s.stage n).isLate = true := by
  obtain ⟨hopen, _, hnext⟩ := howned.sees hs
  have hnone : ∀ stage : Stage, stage = .begun ∨ stage = .published ∨ stage = .aborted →
      s.stage n ≠ stage := fun stage hst heq => hcall (.inl ⟨n, by omega, heq ▸ hst⟩)
  have hbegun := hnone .begun (.inl rfl)
  have hpublished := hnone .published (.inr (.inl rfl))
  unfold Controller.Open at hopen
  cases hst : s.stage n with
  | begun => exact absurd hst hbegun
  | published => exact absurd hst hpublished
  | running => rfl
  | cleared => rfl
  | _ =>
    rw [hst] at hopen
    cases hopen

/-- A migration with a worker that is under way is open, or inside its `finish`. -/
theorem open_or_stored (hlate : (s.stage n).isLate = true) (hway : s.UnderWay n) :
    s.Open n ∧ s.stage n ≠ .begun ∨ s.stage n = .stored := by
  unfold Controller.UnderWay at hway
  unfold Controller.Open
  cases hst : s.stage n with
  | running => exact .inl ⟨rfl, nofun⟩
  | cleared => exact .inl ⟨rfl, nofun⟩
  | stored => exact .inr rfl
  | finished close =>
    rw [hst] at hway
    cases hway
  | ended =>
    rw [hst] at hway
    cases hway
  | _ =>
    rw [hst] at hlate
    cases hlate

theorem Belongs.start : Belongs (fun _ => False) (fun _ => False) {} where
  late _ h := h.elim
  closing _ h := by rcases h with h | h | h <;> cases h
  flag h := nomatch h
  token _ h := nomatch h
  hides _ h := nomatch h

/-- **One step** that meets the condition. -/
theorem Belongs.step (h : Belongs saw asked s) (howned : Owned s) (hguarded : Guarded s)
    (hg : OwnClose s e) (hs : Step s e s') :
    Belongs (fun n => saw n ∨ e = .sawMigration n)
      (fun n => asked n ∨ e = .cancelRequested (some n)) s' := by
  have hfresh := howned.fresh s.next (le_refl _)
  have hborn : ∀ {n}, (s.stage n).isLate = true → s.stage n ≠ .unborn := fun hlate e => by
    rw [e] at hlate
    cases hlate
  refine ⟨fun n hsaw => ?_, fun n hclosing => ?_, fun hflag => ?_, fun n hcancelled => ?_,
    fun n hstage hkind => ?_⟩
  · rcases hsaw with hsaw | rfl
    · obtain ⟨hkind, hlate⟩ := h.late n hsaw
      exact ⟨(hs.kind_eq howned (hborn hlate)).trans hkind, hs.late hfresh hlate⟩
    · obtain ⟨_, hkind, _⟩ := howned.sees hs
      have hlate := late_of_sees howned (hg.call rfl) hs
      exact ⟨(hs.kind_eq howned (hborn hlate)).trans hkind, hs.late hfresh hlate⟩
  · rcases hs.closing_from hclosing with hclosing | rfl
    · obtain ⟨hsaw, hnext⟩ := h.closing n hclosing
      refine ⟨.inl hsaw, ?_⟩
      rcases hs.next_eq with hsame | ⟨kind, rfl⟩
      · rw [hsame]
        exact hnext
      · exact absurd hclosing.inCall (hg.call rfl)
    · obtain ⟨_, _, hnext⟩ := howned.sees hs
      refine ⟨.inr rfl, ?_⟩
      rcases hs.next_eq with hsame | ⟨kind, heq⟩
      · rw [hsame]
        exact hnext
      · cases heq
  · obtain ⟨n, hsaw, hway⟩ : ∃ n, saw n ∧ s.UnderWay n := by
      rcases hs.flag_up hflag with hbefore | ⟨n, rfl, hin⟩
      · exact h.flag hbefore
      · exact ⟨n, (h.closing n (.inr (.inl hin))).1, hg.close n rfl⟩
    refine ⟨n, .inl hsaw, (hs.underWay hfresh hway).resolve_right fun hdown => ?_⟩
    obtain ⟨close, rfl⟩ := hdown
    have hlow := hs.takes.2
    rw [hflag] at hlow
    cases hlow
  · rcases hs.token_up hcancelled with hbefore | ⟨rfl, hbegun, hflag⟩ | ⟨rfl, _, _⟩ |
      ⟨k, rfl, hin, hslot⟩
    · exact (h.token n hbefore).imp .inl .inl
    · -- The flag is set for a migration, and this one has not published its token yet.
      obtain ⟨m, hsaw, hway⟩ := h.flag hflag
      obtain ⟨hkind, hlate⟩ := h.late m hsaw
      rcases open_or_stored hlate hway with ⟨hopen, hne⟩ | hstored
      · have hn : s.Open n := by simp [Controller.Open, hbegun, Stage.isOpen]
        exact absurd (howned.unique hopen hn ▸ hbegun) hne
      · exact absurd hstored (hg.check n rfl m hkind)
    · exact .inr (.inr rfl)
    · have hsound := hguarded.sound (by simp [hin])
      obtain ⟨_, hst⟩ := (hguarded.slot hsound n).mp hslot
      have hn : s.Open n := by
        rcases hst with hst | hst <;> simp [Controller.Open, hst, Stage.isOpen]
      obtain ⟨hsaw, hnext⟩ := h.closing k (.inr (.inr hin))
      have hnk : n = k := by
        have := (howned.last n hn).1
        omega
      exact .inl (.inl (hnk ▸ hsaw))
  · rcases hs.finished hstage with hbefore | ⟨rfl, hstored, hflag⟩
    · have hborn' : s.stage n ≠ .unborn := by
        simp [hbefore]
      exact .inl (h.hides n hbefore ((hs.kind_eq howned hborn').symm.trans hkind))
    · have hborn' : s.stage n ≠ .unborn := by
        simp [hstored]
      have hkind' := (hs.kind_eq howned hborn').symm.trans hkind
      obtain ⟨m, hsaw, hway⟩ := h.flag hflag
      obtain ⟨hmigration, hlate⟩ := h.late m hsaw
      by_cases hmn : m = n
      · exact .inl (hmn ▸ hsaw)
      · exact absurd hway (hg.take n rfl hkind' m hmn hmigration hlate)

/-- The invariant along a run. -/
theorem Belongs.reach {trace : List Event} (h : Reach OwnClose trace s) :
    Belongs (fun n => .sawMigration n ∈ trace) (fun n => .cancelRequested (some n) ∈ trace) s := by
  induction h with
  | start => simpa using Belongs.start
  | @step trace s e s' hreach hg hs ih =>
    have howned := Owned.reach (fun _ _ hg => hg.finish) hreach
    have hguarded := Guarded.reach (fun _ _ hg => hg.finish) hreach
    have hstep := ih.step howned hguarded hg hs
    simp only [List.mem_append, List.mem_singleton, eq_comm (b := e)]
    exact hstep

/-- **A deferred close belongs to the migration it was requested for**, in every run of a UI thread
and its workers that meets the condition: the close flag is set only while a migration is under way
that a close request saw; a token is set only after such a request, or after a cancellation that found
this token; a completion hides the window only for a migration that a close request saw; and both
kinds of request act on a migration that is open at that moment. -/
theorem deferred_close_belongs {trace : List Event} (h : Reach OwnClose trace s) :
    (s.closeAfterFinish = true →
      ∃ n, s.UnderWay n ∧ s.kind n = .migration ∧ .sawMigration n ∈ trace) ∧
    (∀ n, s.cancelled n = true →
      .sawMigration n ∈ trace ∨ .cancelRequested (some n) ∈ trace) ∧
    (∀ n s', Step s (.delivered n true) s' → .sawMigration n ∈ trace) ∧
    (∀ n s', Step s (.sawMigration n) s' → s.Open n ∧ s.kind n = .migration) ∧
    ∀ n s', Step s (.cancelRequested (some n)) s' → s.Open n ∧ s.kind n = .migration := by
  have howned := Owned.reach (fun _ _ hg => hg.finish) h
  have hguarded := Guarded.reach (fun _ _ hg => hg.finish) h
  have hbelongs := Belongs.reach h
  refine ⟨fun hflag => ?_, hbelongs.token, fun n s' hs => ?_, fun n s' hs => ?_, fun n s' hs => ?_⟩
  · obtain ⟨n, hsaw, hway⟩ := hbelongs.flag hflag
    exact ⟨n, hway, (hbelongs.late n hsaw).1, hsaw⟩
  · obtain ⟨hstage, hkind⟩ := hs.delivers
    exact hbelongs.hides n hstage hkind
  · obtain ⟨hopen, hkind, _⟩ := howned.sees hs
    exact ⟨hopen, hkind⟩
  · obtain ⟨hslot, hsound⟩ := hs.cancels
    obtain ⟨hkind, hst⟩ := (hguarded.slot hsound n).mp hslot
    refine ⟨?_, hkind⟩
    rcases hst with hst | hst <;> simp [Controller.Open, hst, Stage.isOpen]

end Belongs

/-- An event that the conditions on a close do not speak about. -/
def Event.isQuiet : Event → Bool
  | .stored none | .deferred _ | .checked _ true | .took _ true => false
  | _ => true

theorem Reach.quiet {trace : List Event} {s s' : Controller} {e : Event}
    (h : Reach OwnClose trace s) (hs : Step s e s') (hcall : OneCall s e)
    (hquiet : e.isQuiet = true) : Reach OwnClose (trace ++ [e]) s' := by
  refine .step h ⟨hcall, fun he => ?_, fun n he => ?_, fun n he => ?_, fun n he => ?_⟩ hs <;>
    · rw [he] at hquiet
      cases hquiet

theorem Reach.deferred {trace : List Event} {s s' : Controller} {n : Nat}
    (h : Reach OwnClose trace s) (hs : Step s (.deferred n) s') (hcall : OneCall s (.deferred n))
    (hway : s.UnderWay n) : Reach OwnClose (trace ++ [.deferred n]) s' := by
  refine .step h ⟨hcall, nofun, fun k he => ?_, nofun, nofun⟩ hs
  cases he
  exact hway

/-- A close request that is in time: the flag stays with the migration that it saw. -/
theorem deferred_close_belongs_sample : ∃ trace s, Reach OwnClose trace s ∧
    s.closeAfterFinish = true ∧ s.cancelled 0 = true ∧ .sawMigration 0 ∈ trace := by
  have h₁ := Reach.start.quiet (.beginMigration readyDesk (.ok true) _ readyDesk_check rfl)
    (by decide) rfl
  have h₂ := h₁.quiet (.enter 0 rfl rfl rfl rfl) (by decide) rfl
  have h₃ := h₂.quiet (.check 0 rfl rfl) (by decide) rfl
  have h₄ := h₃.quiet (.publish 0 rfl rfl) (by decide) rfl
  have h₅ := h₄.quiet (.spawnMigration 0 rfl) (by decide) rfl
  have h₆ := h₅.quiet (.closeSeen rfl) (by decide) rfl
  have h₇ := h₆.quiet (.closeEnter 0 (by decide) rfl rfl) (by decide) rfl
  have h₈ := h₇.deferred (.closeFlag 0 rfl) (by decide) rfl
  have h₉ := h₈.quiet (.closeToken 0 rfl) (by decide) rfl
  exact ⟨_, _, h₉, rfl, rfl, ((deferred_close_belongs h₉).2.1 0 rfl).resolve_right (by decide)⟩

/-! ## 4. A close that came too late -/

/-- The migration has ended before the close request sets its flag. -/
def lateClose : List Event := [.began .migration 0, .entered 0, .checked 0 false, .published 0,
  .spawned 0, .sawMigration 0, .cleared 0, .stored (some 0), .took (some 0) false, .closeEntered 0,
  .deferred 0]

/-- The next migration begins. -/
def cancelledStart : List Event := [.closeLeft 0, .delivered 0 false, .began .migration 1,
  .entered 1, .checked 1 true]

/-- **A late close cancels the next migration**: no migration is under way and the close flag is
set; the next migration, for which nobody asked anything, finds it and is cancelled. -/
theorem late_close_cancels_next :
    (∃ s, Reach OneCall lateClose s ∧ s.closeAfterFinish = true ∧ ∀ n, ¬ s.UnderWay n) ∧
    ∃ s, Reach OneCall (lateClose ++ cancelledStart) s ∧ s.cancelled 1 = true ∧
      .sawMigration 1 ∉ lateClose ++ cancelledStart ∧
      .cancelRequested (some 1) ∉ lateClose ++ cancelledStart := by
  have h₁ := Reach.start.step (G := OneCall) (by decide)
    (.beginMigration readyDesk (.ok true) _ readyDesk_check rfl)
  have h₂ := h₁.step (by decide) (.enter 0 rfl rfl rfl rfl)
  have h₃ := h₂.step (by decide) (.check 0 rfl rfl)
  have h₄ := h₃.step (by decide) (.publish 0 rfl rfl)
  have h₅ := h₄.step (by decide) (.spawnMigration 0 rfl)
  have h₆ := h₅.step (by decide) (.closeSeen rfl)
  have h₇ := h₆.step (by decide) (.clear 0 rfl rfl rfl rfl)
  have h₈ := h₇.step (by decide) (.store 0 (.inl rfl))
  have h₉ := h₈.step (by decide) (.take 0 rfl)
  have h₁₀ := h₉.step (by decide) (.closeEnter 0 (by decide) rfl rfl)
  have h₁₁ := h₁₀.step (by decide) (.closeFlag 0 rfl)
  have h₁₂ := h₁₁.step (by decide) (.closeToken 0 rfl)
  have h₁₃ := h₁₂.step (by decide) (.deliver 0 false rfl)
  have h₁₄ := h₁₃.step (by decide)
    (.beginMigration readyDesk (.ok true) _ readyDesk_check rfl)
  have h₁₅ := h₁₄.step (by decide) (.enter 1 rfl rfl rfl rfl)
  have h₁₆ := h₁₅.step (by decide) (.check 1 rfl rfl)
  refine ⟨⟨_, h₁₁, rfl, fun n hn => ?_⟩, _, h₁₆, rfl, by decide, by decide⟩
  cases n <;> cases hn

end WinProfile
