/-
  File:      WinProfile/App/Cancellation.lean
  Subject:   From a close request to the migration it is meant for: the token that the worker polls
             and the flag that `finish` takes.

  * `Chronicle` -- what the trace says about the operations: published, cleared, taken.
  * `Heard` -- the invariant of one close request, from its entry into the mutex on.
  * `close_is_heard` -- the migration that a close request saw polls true and its `finish` returns
    true, in every run in which no incomplete start releases the operation of another;
    `stale_clear_loses_close` -- a run in which one does.
-/
import WinProfile.App.Closing

namespace WinProfile

/-! ## 1. Inside the mutex -/

section Inside

variable {s s' : Controller} {e : Event} {n : Nat}

theorem Step.entersClose (hs : Step s (.closeEntered n) s') :
    n ∈ s.seen ∧ s' = { s with seen := s.seen.erase n, inside := .closing n } := by
  cases hs with
  | closeEnter k hseen hfree hsound => exact ⟨hseen, rfl⟩

theorem Step.leavesClose (hs : Step s (.closeLeft n) s') :
    s.inside = .flagged n ∧ s' = { s.cancelSlot with inside := .free } := by
  cases hs with
  | closeToken k hin => exact ⟨hin, rfl⟩

theorem Step.flags (hs : Step s (.deferred n) s') : s'.closeAfterFinish = true := by
  cases hs with
  | closeFlag k hin => rfl

/-- A close request holds the mutex until it has set the flag and the token. -/
theorem Step.holds (hs : Step s e s') (hin : s.inside = .closing n ∨ s.inside = .flagged n) :
    s'.inside = s.inside ∨ e = .deferred n ∧ s'.inside = .flagged n ∨
      e = .closeLeft n ∧ s.inside = .flagged n := by
  have hbusy : s.inside ≠ .free := by rcases hin with h | h <;> rw [h] <;> nofun
  cases hs with
  | enter k hstage hkind hfree hsound => exact absurd hfree hbusy
  | check k hstage hat => rcases hin with h | h <;> rw [hat] at h <;> cases h
  | publish k hstage hat => rcases hin with h | h <;> rw [hat] at h <;> cases h
  | cancel hfree hsound => exact absurd hfree hbusy
  | closeEnter k hseen hfree hsound => exact absurd hfree hbusy
  | closeFlag k hat =>
    rcases hin with h | h <;> rw [hat] at h <;> cases h
    exact .inr (.inl ⟨rfl, rfl⟩)
  | closeToken k hat =>
    rcases hin with h | h <;> rw [hat] at h <;> cases h
    exact .inr (.inr ⟨rfl, hat⟩)
  | _ => exact .inl rfl

/-- A start that has looked at the flag and found it set has a token that is set. -/
theorem Step.looks (hs : Step s e s') (hin : s'.inside = .checked n)
    (hflag : s.closeAfterFinish = true) : s.inside = .checked n ∨ s'.cancelled n = true := by
  cases hs with
  | enter k hstage hkind hfree hsound => cases hin
  | check k hstage hat =>
    cases hin
    right
    simp only [hflag, if_true]
    exact cancelled_cancel.trans (if_pos rfl)
  | publish k hstage hat => cases hin
  | cancel hfree hsound => exact .inl (inside_cancelSlot.symm.trans hin)
  | closeEnter k hseen hfree hsound => cases hin
  | closeFlag k hat => cases hin
  | closeToken k hat => cases hin
  | _ => exact .inl hin

/-- A token that is set stays set. -/
theorem Step.token_stays (hs : Step s e s') (hfresh : s.stage s.next = .unborn)
    (hborn : s.stage n ≠ .unborn) (hset : s.cancelled n = true) : s'.cancelled n = true := by
  have newborn : ∀ kind, (s.tryBegin kind).cancelled n = true := fun kind => by
    have hne : n ≠ s.next := fun h => hborn (h ▸ hfresh)
    rwa [cancelled_tryBegin, if_neg hne]
  cases hs with
  | begin kind hkind hidle => exact newborn kind
  | beginMigration d elevated plan hcheck hidle => exact newborn .migration
  | check k hstage hin =>
    by_cases hflag : s.closeAfterFinish = true
    · simp only [hflag, if_true]
      show (s.cancel k).cancelled n = true
      rw [cancelled_cancel, hset, ite_self]
    · simp only [hflag, Bool.false_eq_true, if_false]
      exact hset
  | cancel hfree hsound => rw [cancelled_cancelSlot, hset, ite_self]
  | closeToken k hin =>
    show s.cancelSlot.cancelled n = true
    rw [cancelled_cancelSlot, hset, ite_self]
  | _ => first
    | exact hset
    | exact cancelled_setStage.trans hset

end Inside

/-! ## 2. What the trace says -/

/-- The worker of a migration has emptied the slot, or there never was one. -/
def Stage.isPast : Stage → Bool
  | .cleared | .stored | .finished _ | .aborted | .ended => true
  | _ => false

/-- The call or the worker has returned from `finish`. -/
def Stage.hasFinished : Stage → Bool
  | .finished _ | .ended => true
  | _ => false

structure Chronicle (trace : List Event) (s : Controller) : Prop where
  closing : ∀ n, s.Closing n → s.kind n = .migration ∧ s.stage n ≠ .unborn
  published : ∀ n, .published n ∈ trace → s.stage n ≠ .unborn ∧ s.stage n ≠ .begun
  publishes : s.poisoned = false → ∀ n, s.kind n = .migration →
    s.stage n ≠ .unborn → s.stage n ≠ .begun → .published n ∈ trace
  clears : s.poisoned = false → ∀ n, s.kind n = .migration →
    (s.stage n).isPast = true → .cleared n ∈ trace
  took : ∀ n close, .took (some n) close ∈ trace → (s.stage n).hasFinished = true

section Chronicle

variable {s s' : Controller} {e : Event} {n : Nat} {trace : List Event}

theorem Chronicle.start : Chronicle [] {} where
  closing _ h := by rcases h with h | h | h <;> cases h
  published _ h := nomatch h
  publishes _ _ _ h := absurd rfl h
  clears _ _ _ h := nomatch h
  took _ _ h := nomatch h

/-- An operation that was born stays so, under its kind. -/
theorem Step.born (hs : Step s e s') (hborn : s.stage n ≠ .unborn) : s'.stage n ≠ .unborn := by
  rcases hs.advance n with hsame | hmove
  · rwa [hsame]
  · generalize s.stage n = stage at hmove
    generalize s'.stage n = stage' at hmove
    cases hmove <;> nofun

theorem Step.published (hs : Step s (.published n) s') : s'.stage n = .published := by
  cases hs with
  | publish k hstage hin => exact stage_setStage.trans (if_pos rfl)

theorem Step.took {close : Bool} (hs : Step s (.took (some n) close) s') :
    (s.stage n = .aborted ∨ s.stage n = .stored) ∧ (s'.stage n).hasFinished = true := by
  cases hs with
  | takeAborted k hstage =>
    refine ⟨.inl hstage, ?_⟩
    show Stage.hasFinished ((s.setStage n .ended).stage n) = true
    rw [stage_setStage, if_pos rfl]
    rfl
  | take k hstage =>
    refine ⟨.inr hstage, ?_⟩
    show Stage.hasFinished ((s.setStage n (.finished s.closeAfterFinish)).stage n) = true
    rw [stage_setStage, if_pos rfl]
    rfl

/-- **One step.** -/
theorem Chronicle.step (h : Chronicle trace s) (howned : Owned s) (hs : Step s e s') :
    Chronicle (trace ++ [e]) s' := by
  have hfresh := howned.fresh s.next (le_refl _)
  constructor
  case closing =>
    intro n hclosing
    rcases hs.closing_from hclosing with hbefore | rfl
    · obtain ⟨hkind, hborn⟩ := h.closing n hbefore
      exact ⟨(hs.kind_eq howned hborn).trans hkind, hs.born hborn⟩
    · obtain ⟨hopen, hkind, _⟩ := howned.sees hs
      have hborn : s.stage n ≠ .unborn := fun heq => by
        rw [Controller.Open, heq] at hopen
        cases hopen
      exact ⟨(hs.kind_eq howned hborn).trans hkind, hs.born hborn⟩
  case published =>
    intro n hmem
    rcases List.mem_append.mp hmem with hbefore | hnow
    · obtain ⟨hborn, hbegun⟩ := h.published n hbefore
      refine ⟨hs.born hborn, ?_⟩
      rcases hs.advance n with hsame | hmove
      · rwa [hsame]
      · generalize hstage : s.stage n = stage at hmove hborn
        generalize s'.stage n = stage' at hmove
        cases hmove with
        | began kind hnext =>
          rw [hnext, hfresh] at hstage
          exact absurd hstage.symm hborn
        | _ => simp
    · cases List.mem_singleton.mp hnow
      rw [hs.published]
      simp
  case publishes =>
    intro hsound' n hkind' hborn' hbegun'
    have hsound := hs.sound hsound'
    have earlier : s.stage n ≠ .unborn → s.stage n ≠ .begun → .published n ∈ trace ++ [e] :=
      fun hborn hbegun => List.mem_append_left _
        (h.publishes hsound n ((hs.kind_eq howned hborn).symm.trans hkind') hborn hbegun)
    rcases hs.advance n with hsame | hmove
    · rw [hsame] at hborn' hbegun'
      exact earlier hborn' hbegun'
    · have hkind : s.stage n ≠ .unborn → s.kind n = .migration := fun hborn =>
        (hs.kind_eq howned hborn).symm.trans hkind'
      generalize s.stage n = stage at hmove earlier hkind
      generalize s'.stage n = stage' at hmove hbegun'
      cases hmove with
      | began kind hnext => exact absurd rfl hbegun'
      | spawned hplain => exact absurd (hkind (by simp)) hplain
      | published hin => exact List.mem_append_right _ (List.mem_singleton.mpr rfl)
      | aborted hpoisoned =>
        rw [hpoisoned] at hsound
        cases hsound
      | _ => exact earlier (by simp) (by simp)
  case clears =>
    intro hsound' n hkind' hpast'
    have hsound := hs.sound hsound'
    have hkind : s.stage n ≠ .unborn → s.kind n = .migration := fun hborn =>
      (hs.kind_eq howned hborn).symm.trans hkind'
    have earlier : (s.stage n).isPast = true → .cleared n ∈ trace ++ [e] := fun hpast =>
      have hborn : s.stage n ≠ .unborn := fun heq => by
        rw [heq] at hpast
        cases hpast
      List.mem_append_left _ (h.clears hsound n (hkind hborn) hpast)
    rcases hs.advance n with hsame | hmove
    · rw [hsame] at hpast'
      exact earlier hpast'
    · generalize s.stage n = stage at hmove earlier hkind
      generalize s'.stage n = stage' at hmove hpast'
      cases hmove with
      | cleared hfree => exact List.mem_append_right _ (List.mem_singleton.mpr rfl)
      | storedPlain hplain => exact absurd (hkind (by simp)) hplain
      | aborted hpoisoned =>
        rw [hpoisoned] at hsound
        cases hsound
      | clearFailed hpoisoned =>
        rw [hpoisoned] at hsound
        cases hsound
      | tookAborted => exact earlier rfl
      | stored => exact earlier rfl
      | took => exact earlier rfl
      | delivered close => exact earlier rfl
      | _ => cases hpast'
  case took =>
    intro n close hmem
    rcases List.mem_append.mp hmem with hbefore | hnow
    · have hdone := h.took n close hbefore
      rcases hs.advance n with hsame | hmove
      · rwa [hsame]
      · generalize hstage : s.stage n = stage at hmove hdone
        generalize s'.stage n = stage' at hmove
        cases hmove with
        | began kind hnext =>
          rw [hnext, hfresh] at hstage
          rw [← hstage] at hdone
          cases hdone
        | delivered close => rfl
        | _ => cases hdone
    · cases List.mem_singleton.mp hnow
      exact hs.took.2

theorem Chronicle.reach {G : Controller → Event → Prop} (hG : ∀ s e, G s e → OwnFinish s e)
    (h : Reach G trace s) : Chronicle trace s := by
  induction h with
  | start => exact Chronicle.start
  | step hreach _ hs ih => exact ih.step (Owned.reach hG hreach) hs

end Chronicle

/-! ## 3. One close request -/

/-- The worker of a migration can still poll. -/
def Stage.isEarly : Stage → Bool
  | .begun | .published | .running => true
  | _ => false

/-- The invariant of a close request that saw the migration `n`: `pre` is what happened before it
took the mutex, `post` what happened since. -/
structure Heard (n : Nat) (pre post : List Event) (s : Controller) : Prop where
  kind : s.kind n = .migration
  born : s.stage n ≠ .unborn
  inside : .closeLeft n ∉ post →
    (s.stage n).isEarly = true ∧ (s.inside = .closing n ∨ s.inside = .flagged n)
  flag : .closeLeft n ∈ post ∨ s.inside = .flagged n →
    s.closeAfterFinish = true ∨ ∃ owner, .took owner true ∈ post
  token : .closeLeft n ∈ post → s.cancelled n = true ∨
    .published n ∉ pre ∧ ((∃ owner, owner ≠ some n ∧ .took owner true ∈ post) ∨
      s.stage n = .begun ∧ s.inside ≠ .checked n ∧ s.closeAfterFinish = true)

section Heard

variable {s s' : Controller} {e : Event} {n : Nat} {trace pre post : List Event}

/-- A migration whose worker has not emptied the slot. -/
theorem Chronicle.early (h : Chronicle trace s) (hsound : s.poisoned = false)
    (hkind : s.kind n = .migration) (hborn : s.stage n ≠ .unborn) (hclear : .cleared n ∉ trace) :
    (s.stage n).isEarly = true := by
  by_contra hlate
  refine hclear (h.clears hsound n hkind ?_)
  cases hstage : s.stage n with
  | unborn => exact absurd hstage hborn
  | begun => exact absurd (by rw [hstage]; rfl) hlate
  | published => exact absurd (by rw [hstage]; rfl) hlate
  | running => exact absurd (by rw [hstage]; rfl) hlate
  | _ => rfl

/-- The close request takes the mutex. -/
theorem Heard.enter (h : Chronicle trace s) (hsound : s.poisoned = false)
    (hclear : .cleared n ∉ trace) (hs : Step s (.closeEntered n) s') : Heard n trace [] s' := by
  obtain ⟨hseen, rfl⟩ := hs.entersClose
  obtain ⟨hkind, hborn⟩ := h.closing n (.inl hseen)
  exact {
    kind := hkind
    born := hborn
    inside := fun _ => ⟨h.early hsound hkind hborn hclear, .inl rfl⟩
    flag := fun hset => by rcases hset with hset | hset <;> cases hset
    token := nofun }

/-- While a close request holds the mutex, no migration loses its token. -/
theorem Step.early (hs : Step s e s') (hfresh : s.stage s.next = .unborn)
    (hsound : s.poisoned = false) (hkind : s.kind n = .migration)
    (hin : s.inside = .closing n ∨ s.inside = .flagged n) (hearly : (s.stage n).isEarly = true) :
    (s'.stage n).isEarly = true := by
  rcases hs.advance n with hsame | hmove
  · rwa [hsame]
  · generalize hstage : s.stage n = stage at hmove hearly
    generalize s'.stage n = stage' at hmove
    cases hmove with
    | began kind hnext =>
      rw [← hstage, hnext, hfresh] at hearly
      cases hearly
    | aborted hpoisoned =>
      rw [hpoisoned] at hsound
      cases hsound
    | cleared hfree => rcases hin with h | h <;> rw [hfree] at h <;> cases h
    | clearFailed hpoisoned =>
      rw [hpoisoned] at hsound
      cases hsound
    | storedPlain hplain => exact absurd hkind hplain
    | spawned hplain => rfl
    | published hat => rfl
    | spawnedMigration => rfl
    | _ => cases hearly

/-- A migration that has begun stays there until it has looked at the flag. -/
theorem Step.begun (hs : Step s e s') (hsound : s.poisoned = false)
    (hkind : s.kind n = .migration) (hin : s.inside ≠ .checked n) (hstage : s.stage n = .begun) :
    s'.stage n = .begun := by
  rcases hs.advance n with hsame | hmove
  · rwa [hsame]
  · rw [hstage] at hmove
    generalize s'.stage n = stage' at hmove
    cases hmove with
    | began kind hnext => rfl
    | spawned hplain => exact absurd hkind hplain
    | published hat => exact absurd hat hin
    | aborted hpoisoned =>
      rw [hpoisoned] at hsound
      cases hsound

/-- A flag that is set stays set until a `finish` takes it. -/
theorem Heard.flag_step (h : Heard n pre post s) (hs : Step s e s')
    (hset : .closeLeft n ∈ post ++ [e] ∨ s'.inside = .flagged n) :
    s'.closeAfterFinish = true ∨ ∃ owner, .took owner true ∈ post ++ [e] := by
  have kept : s.closeAfterFinish = true ∨ (∃ owner, .took owner true ∈ post) →
      s'.closeAfterFinish = true ∨ ∃ owner, .took owner true ∈ post ++ [e] := by
    rintro (hflag | ⟨owner, hmem⟩)
    · rcases hs.flag_down hflag with hstays | ⟨owner, rfl⟩
      · exact .inl hstays
      · exact .inr ⟨owner, by simp⟩
    · exact .inr ⟨owner, List.mem_append_left _ hmem⟩
  by_cases hleft : .closeLeft n ∈ post
  · exact kept (h.flag (.inl hleft))
  · obtain ⟨_, hin⟩ := h.inside hleft
    rcases hs.holds hin with hsame | ⟨rfl, _⟩ | ⟨rfl, hflagged⟩
    · rcases hset with hmem | hflagged
      · have he : e = .closeLeft n := by simpa [hleft, eq_comm] using hmem
        subst he
        exact kept (h.flag (.inr hs.leavesClose.1))
      · exact kept (h.flag (.inr (hsame.symm.trans hflagged)))
    · exact .inl hs.flags
    · exact kept (h.flag (.inr hflagged))

/-- The token of the migration is set when the close request leaves the mutex, or the flag waits for
its start. -/
theorem Heard.leave (h : Heard n pre post s) (hchron : Chronicle trace s) (hguarded : Guarded s)
    (hsound : s.poisoned = false) (hpre : ∀ x ∈ pre, x ∈ trace) (hpost : ∀ x ∈ post, x ∈ trace)
    (hleft : .closeLeft n ∉ post) (hs : Step s (.closeLeft n) s') :
    s'.cancelled n = true ∨ .published n ∉ pre ∧
      ((∃ owner, owner ≠ some n ∧ .took owner true ∈ post) ∨
        s'.stage n = .begun ∧ s'.inside ≠ .checked n ∧ s'.closeAfterFinish = true) := by
  obtain ⟨hflagged, rfl⟩ := hs.leavesClose
  obtain ⟨hearly, _⟩ := h.inside hleft
  have slotted : s.stage n = .published ∨ s.stage n = .running → s.cancelSlot.cancelled n = true :=
    fun hstage => by
      have hslot := (hguarded.slot hsound n).mpr ⟨h.kind, hstage⟩
      rw [cancelled_cancelSlot, if_pos hslot]
  cases hstage : s.stage n with
  | published => exact .inl (slotted (.inl hstage))
  | running => exact .inl (slotted (.inr hstage))
  | begun =>
    refine .inr ⟨fun hmem => (hchron.published n (hpre _ hmem)).2 hstage, ?_⟩
    rcases h.flag (.inr hflagged) with hflag | ⟨owner, hmem⟩
    · exact .inr ⟨stage_cancelSlot.trans hstage, nofun, closeAfterFinish_cancelSlot.trans hflag⟩
    · refine .inl ⟨owner, fun heq => ?_, hmem⟩
      have hdone := hchron.took n true (hpost _ (heq ▸ hmem))
      rw [hstage] at hdone
      cases hdone
  | _ =>
    rw [hstage] at hearly
    cases hearly

/-- **One step** after the close request has taken the mutex. -/
theorem Heard.step (h : Heard n pre post s) (howned : Owned s) (hguarded : Guarded s)
    (hchron : Chronicle trace s) (hpre : ∀ x ∈ pre, x ∈ trace) (hpost : ∀ x ∈ post, x ∈ trace)
    (hs : Step s e s') (hsound : s.poisoned = false) : Heard n pre (post ++ [e]) s' := by
  have hfresh := howned.fresh s.next (le_refl _)
  refine ⟨(hs.kind_eq howned h.born).trans h.kind, hs.born h.born, fun hleft => ?_,
    h.flag_step hs, fun hmem => ?_⟩
  · simp only [List.mem_append, List.mem_singleton, not_or] at hleft
    obtain ⟨hearly, hin⟩ := h.inside hleft.1
    refine ⟨hs.early hfresh hsound h.kind hin hearly, ?_⟩
    rcases hs.holds hin with hsame | ⟨_, hflagged⟩ | ⟨rfl, _⟩
    · rwa [hsame]
    · exact .inr hflagged
    · exact absurd rfl hleft.2
  · by_cases hleft : .closeLeft n ∈ post
    · rcases h.token hleft with hset | ⟨hpublished, ⟨owner, hne, htook⟩ | ⟨hstage, hin, hflag⟩⟩
      · exact .inl (hs.token_stays hfresh h.born hset)
      · exact .inr ⟨hpublished, .inl ⟨owner, hne, List.mem_append_left _ htook⟩⟩
      · -- The start has not looked at the flag yet.
        rcases hs.flag_down hflag with hstays | ⟨owner, rfl⟩
        · by_cases hlooks : s'.inside = .checked n
          · exact .inl ((hs.looks hlooks hflag).resolve_left hin)
          · exact .inr ⟨hpublished, .inr ⟨hs.begun hsound h.kind hin hstage, hlooks, hstays⟩⟩
        · refine .inr ⟨hpublished, .inl ⟨owner, fun heq => ?_, by simp⟩⟩
          subst heq
          rcases hs.took.1 with hst | hst <;> rw [hstage] at hst <;> cases hst
    · have he : e = .closeLeft n := by simpa [hleft, eq_comm] using hmem
      subst he
      rcases h.leave hchron hguarded hsound hpre hpost hleft hs with hset |
        ⟨hpublished, ⟨owner, hne, htook⟩ | hwaits⟩
      · exact .inl hset
      · exact .inr ⟨hpublished, .inl ⟨owner, hne, List.mem_append_left _ htook⟩⟩
      · exact .inr ⟨hpublished, .inr hwaits⟩

/-- The invariant along a run. -/
theorem Heard.reach {G : Controller → Event → Prop} (hG : ∀ s e, G s e → OwnFinish s e)
    (h : Reach G trace s) (hsplit : trace = pre ++ .closeEntered n :: post)
    (hclear : .cleared n ∉ pre) (hsound : s.poisoned = false) : Heard n pre post s := by
  induction h generalizing post with
  | start => simp at hsplit
  | @step trace s e s' hreach hg hs ih =>
    have howned := Owned.reach hG hreach
    have hchron := Chronicle.reach hG hreach
    have hsound₀ := hs.sound hsound
    rcases eq_or_split_of_concat hsplit with ⟨rfl, rfl, rfl⟩ | ⟨init, rfl, rfl⟩
    · exact .enter hchron hsound₀ hclear hs
    · exact (ih rfl hsound₀).step howned (Guarded.reach hG hreach) hchron (by simp +contextual)
        (by simp +contextual) hs hsound₀

/-- The run of a UI thread in which no incomplete start releases the operation of another. -/
def OneOwnCall (s : Controller) (e : Event) : Prop := OneCall s e ∧ OwnFinish s e

/-- On one UI thread, a close request sees a migration that has its worker. -/
theorem late_of_closing (h : Reach OneOwnCall trace s) (hclosing : s.Closing n) :
    (s.stage n).isLate = true := by
  induction h with
  | start => rcases hclosing with h | h | h <;> cases h
  | step hreach hg hs ih =>
    have howned := Owned.reach (fun _ _ hg => hg.2) hreach
    have hfresh := howned.fresh _ (le_refl _)
    rcases hs.closing_from hclosing with hbefore | rfl
    · exact hs.late hfresh (ih hbefore)
    · exact hs.late hfresh (late_of_sees howned (hg.1 rfl) hs)

/-- ... and one whose token is published. -/
theorem published_before_close (h : Reach OneOwnCall trace s)
    (hsplit : trace = pre ++ .closeEntered n :: post) (hsound : s.poisoned = false) :
    .published n ∈ pre := by
  induction h generalizing post with
  | start => simp at hsplit
  | @step trace s e s' hreach hg hs ih =>
    have hsound₀ := hs.sound hsound
    rcases eq_or_split_of_concat hsplit with ⟨rfl, rfl, rfl⟩ | ⟨init, rfl, rfl⟩
    · have hchron := Chronicle.reach (fun _ _ hg => hg.2) hreach
      have hclosing : s.Closing n := .inl hs.entersClose.1
      have hlate := late_of_closing hreach hclosing
      obtain ⟨hkind, hborn⟩ := hchron.closing n hclosing
      refine hchron.publishes hsound₀ n hkind hborn fun hstage => ?_
      rw [hstage] at hlate
      cases hlate
    · exact ih rfl hsound₀

/-- **No close request on a running migration is lost**, in every run in which no incomplete start
releases the operation of another. When the request took the mutex before the worker emptied the
slot, every later poll of that migration is true, and so is what its `finish` returns, unless another
`finish` took the flag; a request that came after the publication needs no flag for the poll, and on
one UI thread every request does. -/
theorem close_is_heard (h : Reach OwnFinish trace s)
    (hsplit : trace = pre ++ .closeEntered n :: post) (hclear : .cleared n ∉ pre)
    (hsound : s.poisoned = false) :
    (∀ b s', .closeLeft n ∈ post → Step s (.polled n b) s' →
      (.published n ∈ pre ∨ ∀ owner, .took owner true ∈ post → owner = some n) → b = true) ∧
    (∀ b s', Step s (.took (some n) b) s' →
      (∀ owner, .took owner true ∈ post → owner = some n) → b = true) ∧
    (Reach OneOwnCall trace s →
      ∀ b s', .closeLeft n ∈ post → Step s (.polled n b) s' → b = true) := by
  have hheard := Heard.reach (fun _ _ hg => hg) h hsplit hclear hsound
  have hchron := Chronicle.reach (fun _ _ hg => hg) h
  have polls : ∀ b s', .closeLeft n ∈ post → Step s (.polled n b) s' →
      (.published n ∈ pre ∨ ∀ owner, .took owner true ∈ post → owner = some n) → b = true := by
    intro b s' hleft hs hcond
    obtain ⟨hstage, rfl⟩ : s.stage n = .running ∧ b = s.cancelled n := by
      cases hs with
      | poll k hstage hkind => exact ⟨hstage, rfl⟩
    rcases hheard.token hleft with hset | ⟨hpublished, ⟨owner, hne, htook⟩ | ⟨hbegun, _⟩⟩
    · exact hset
    · rcases hcond with hcond | hcond
      · exact absurd hcond hpublished
      · exact absurd (hcond owner htook) hne
    · rw [hstage] at hbegun
      cases hbegun
  refine ⟨polls, fun b s' hs hcond => ?_, fun hone b s' hleft hs => ?_⟩
  · obtain ⟨hstage, _⟩ := hs.took
    have hleft : .closeLeft n ∈ post := by
      by_contra hout
      have hearly := (hheard.inside hout).1
      rcases hstage with hst | hst <;> rw [hst] at hearly <;> cases hearly
    rw [hs.takes.1]
    refine (hheard.flag (.inl hleft)).resolve_right fun ⟨owner, htook⟩ => ?_
    have hdone := hchron.took n true (by simp [hsplit, ← hcond owner htook, htook])
    rcases hstage with hst | hst <;> rw [hst] at hdone <;> cases hdone
  · exact polls b s' hleft hs (.inl (published_before_close hone hsplit hsound))

end Heard

theorem Reach.own {trace : List Event} {s s' : Controller} {e : Event}
    (h : Reach OneOwnCall trace s) (hs : Step s e s') (hcall : OneCall s e)
    (hown : e ≠ .stored none) : Reach OneOwnCall (trace ++ [e]) s' :=
  .step h ⟨hcall, fun he => absurd he hown⟩ hs

/-- A close request on a migration that runs: the worker polls true. -/
theorem close_is_heard_sample : ∃ trace s, Reach OneOwnCall trace s ∧ .sawMigration 0 ∈ trace ∧
    Step s (.polled 0 (s.cancelled 0)) s ∧ s.cancelled 0 = true := by
  have h₁ := Reach.start.own (.beginMigration readyDesk (.ok true) _ readyDesk_check rfl) (by decide) nofun
  have h₂ := h₁.own (.enter 0 rfl rfl rfl rfl) (by decide) nofun
  have h₃ := h₂.own (.check 0 rfl rfl) (by decide) nofun
  have h₄ := h₃.own (.publish 0 rfl rfl) (by decide) nofun
  have h₅ := h₄.own (.spawnMigration 0 rfl) (by decide) nofun
  have h₆ := h₅.own (.closeSeen rfl) (by decide) nofun
  have h₇ := h₆.own (.closeEnter 0 (by decide) rfl rfl) (by decide) nofun
  have h₈ := h₇.own (.closeFlag 0 rfl) (by decide) nofun
  have h₉ := h₈.own (.closeToken 0 rfl) (by decide) nofun
  have hheard := close_is_heard (h₉.mono fun _ _ hg => hg.2)
    (rfl : _ = [_, _, _, _, _, _] ++ _ :: [_, _]) (by decide) rfl
  exact ⟨_, _, h₉, by decide, .poll 0 rfl rfl, hheard.2.2 h₉ _ _ (by decide) (.poll 0 rfl rfl)⟩

/-- **A stale worker empties the slot of the next migration**: an incomplete start has released the
migration 0, whose worker still runs; the migration 1 begins and publishes its token, and the worker
of 0 takes it out of the slot. A close request then reaches nobody. -/
theorem stale_clear_loses_close : ∃ pre post s, Reach OneCall (pre ++ .closeEntered 1 :: post) s ∧
    .cleared 1 ∉ pre ∧ .published 1 ∈ pre ∧ .closeLeft 1 ∈ post ∧ s.poisoned = false ∧
    Step s (.polled 1 false) s := by
  have h₁ := Reach.start.step (G := OneCall) (by decide)
    (.beginMigration readyDesk (.ok true) _ readyDesk_check rfl)
  have h₂ := h₁.step (by decide) (.enter 0 rfl rfl rfl rfl)
  have h₃ := h₂.step (by decide) (.check 0 rfl rfl)
  have h₄ := h₃.step (by decide) (.publish 0 rfl rfl)
  have h₅ := h₄.step (by decide) (.spawnMigration 0 rfl)
  have h₆ := h₅.step (by decide) (.storeIncomplete {} (.ok true) emptyDesk_check)
  have h₇ := h₆.step (by decide) (.takeIncomplete (by decide))
  have h₈ := h₇.step (by decide) (.beginMigration readyDesk (.ok true) _ readyDesk_check rfl)
  have h₉ := h₈.step (by decide) (.enter 1 rfl rfl rfl rfl)
  have h₁₀ := h₉.step (by decide) (.check 1 rfl rfl)
  have h₁₁ := h₁₀.step (by decide) (.publish 1 rfl rfl)
  have h₁₂ := h₁₁.step (by decide) (.spawnMigration 1 rfl)
  have h₁₃ := h₁₂.step (by decide) (.clear 0 rfl rfl rfl rfl)
  have h₁₄ := h₁₃.step (by decide) (.closeSeen rfl)
  have h₁₅ := h₁₄.step (by decide) (.closeEnter 1 (by decide) rfl rfl)
  have h₁₆ := h₁₅.step (by decide) (.closeFlag 1 rfl)
  have h₁₇ := h₁₆.step (by decide) (.closeToken 1 rfl)
  exact ⟨[_, _, _, _, _, _, _, _, _, _, _, _, _, _], [_, _], _, h₁₇, by decide, by decide, by decide,
    rfl, .poll 1 rfl rfl⟩

end WinProfile
