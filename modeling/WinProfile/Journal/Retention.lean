/-
  File:      WinProfile/Journal/Retention.lean
  Subject:   What rotations that fail do to the archives.

  * `Spared` -- the shelf before a call: the last archive is free, or no archive is.
  * `rotation_spares_archives` -- from shelves of that kind an archive goes only when all are
    there, and a row of failing calls removes one at most; from any other shelf an undisturbed
    rotation removes the last archive although there is a free place.
  * `rotation_eats_archives` -- both happen.
-/
import WinProfile.Journal.History

namespace WinProfile

variable {J : JournalConfig} {C : LineCodec} {j j' : Journal}

/-! ## 1. Shelves before a call -/

/-- Every archive is there. -/
def FullShelf (J : JournalConfig) (j : Journal) : Prop :=
  ∀ i, 0 < i → i ≤ J.maxArchives → (slots J j i).isSome

/-- Some archive is missing. -/
def HasGap (J : JournalConfig) (j : Journal) : Prop :=
  ∃ i, 0 < i ∧ i ≤ J.maxArchives ∧ slots J j i = none

theorem not_fullShelf_iff : ¬ FullShelf J j ↔ HasGap J j := by
  unfold FullShelf HasGap
  push Not
  simp only [ne_eq, Bool.not_eq_true, Option.isSome_eq_false_iff,
    Option.isNone_iff_eq_none]

/-- The entry can be written, but not into the current file. -/
def MustRotate (J : JournalConfig) (C : LineCodec) (j : Journal) (entry : AuditEntry) : Prop :=
  ∃ b, C.encode entry = .ok b ∧ b.length + 1 ≤ J.maxLogBytes ∧ ¬ Fits J j (b.length + 1)

/-- If the call has to rotate, the last archive is free or every archive is there. -/
def Spared (J : JournalConfig) (C : LineCodec) (j : Journal) (entry : AuditEntry) : Prop :=
  MustRotate J C j entry → slots J j J.maxArchives = none ∨ FullShelf J j

/-- Nothing fails after the rotation. -/
def OnlyRotationFails (fate : Fate) : Prop := ¬ Disturbed fate.opening ∧ fate.cut = none

/-! ## 2. One call -/

/-- The content of the last archive goes, or nothing does. -/
def Removes (J : JournalConfig) (j j' : Journal) : Prop :=
  j'.removed = j.removed ∨
    ∃ content, slots J j J.maxArchives = some content ∧ j'.removed = j.removed ++ [content]

theorem Shifted.removes {i : Nat} (h : Shifted J j i j') : Removes J j j' := by
  have hremoved := h.removed
  split at hremoved
  · cases htop : slots J j J.maxArchives with
    | none =>
      rw [htop, Option.toList_none, List.append_nil] at hremoved
      exact .inl hremoved
    | some content =>
      rw [htop, Option.toList_some] at hremoved
      exact .inr ⟨content, htop, hremoved⟩
  · rw [List.append_nil] at hremoved
    exact .inl hremoved

/-- A call removes the last archive or nothing, and nothing unless it has to rotate. -/
theorem log_removes (J : JournalConfig) (C : LineCodec) (call : LogCall) (j : Journal) :
    (log J C call j).2.removed = j.removed ∨
      MustRotate J C j call.entry ∧ Removes J j (log J C call j).2 := by
  have hrotated : ∀ {b : Bytes} {j₁ : Journal}, C.encode call.entry = .ok b →
      b.length + 1 ≤ J.maxLogBytes → Rotated J j (b.length + 1) j₁ →
      j₁.removed = j.removed ∨ MustRotate J C j call.entry ∧ Removes J j j₁ := by
    intro b j₁ henc hsize hrot
    rcases hrot with ⟨_, hs⟩ | ⟨hfull, hs⟩
    · exact .inl hs.removed
    · exact .inr ⟨⟨b, henc, hsize, hfull⟩, hs.removes⟩
  have hstep := log_step J C call j
  generalize (log J C call j).1 = r at hstep
  generalize (log J C call j).2 = j' at hstep
  have hlater : ∀ {j₁ : Journal}, j'.removed = j₁.removed →
      (j₁.removed = j.removed ∨ MustRotate J C j call.entry ∧ Removes J j j₁) →
      j'.removed = j.removed ∨ MustRotate J C j call.entry ∧ Removes J j j' := by
    intro j₁ hsame h
    unfold Removes at h ⊢
    rw [hsame]
    exact h
  cases hstep with
  | refused _ hsame => exact .inl hsame.removed
  | shifting henc hsize hfull _ _ _ hshift =>
    exact .inr ⟨⟨_, henc, hsize, hfull⟩, hshift.removes⟩
  | stopped henc hsize hrot _ hsame => exact hlater hsame.removed (hrotated henc hsize hrot)
  | torn henc hsize hrot _ hwrote _ => exact hlater hwrote.removed (hrotated henc hsize hrot)
  | appended henc hsize hrot _ _ hwrote _ => exact hlater hwrote.removed (hrotated henc hsize hrot)

/-- One call from a spared shelf. -/
theorem Spared.full {call : LogCall} (h : Spared J C j call.entry)
    (hne : (log J C call j).2.removed ≠ j.removed) : FullShelf J j := by
  rcases log_removes J C call j with hsame | ⟨hmust, hsame | ⟨content, htop, _⟩⟩
  · exact absurd hsame hne
  · exact absurd hsame hne
  · rcases h hmust with hfree | hfull
    · rw [hfree] at htop
      cases htop
    · exact hfull

/-- What a failed call leaves when nothing after the rotation fails: the shelf as it was, or a
shift that stopped above the current file. -/
theorem log_failed {call : LogCall} (hfate : OnlyRotationFails call.fate)
    (hfail : (log J C call j).1 ≠ .ok ()) :
    ((∀ i, 0 < i → slots J (log J C call j).2 i = slots J j i) ∧
        (log J C call j).2.removed = j.removed) ∨
      ∃ i, 0 < i ∧ i ≤ J.maxArchives ∧ Shifted J j i (log J C call j).2 := by
  have hstep := log_step J C call j
  generalize (log J C call j).1 = r at hstep hfail
  generalize (log J C call j).2 = j' at hstep
  cases hstep with
  | refused _ hsame => exact .inl ⟨fun i _ => congrFun (hsame.slots J) i, hsame.removed⟩
  | @shifting _ _ _ i _ _ _ _ hpos hi hshift =>
    rcases Nat.lt_or_ge i (J.maxArchives + 1) with hlt | hge
    · exact .inr ⟨i, hpos, by omega, hshift⟩
    · obtain rfl : i = J.maxArchives + 1 := by omega
      refine .inl ⟨fun k _ => ?_, ?_⟩
      · rw [hshift.moved, shelve_start]
      · rw [hshift.removed, if_neg (by omega), List.append_nil]
  | stopped _ _ _ hfault _ => exact absurd hfault hfate.1
  | @torn _ j₁ _ b k henc hsize hrot hcut hwrote _ =>
    rcases hcut with hcut | ⟨rfl, hfault | hlarge⟩
    · rw [hfate.2] at hcut
      cases hcut
    · exact absurd hfault hfate.1
    · rcases hrot with ⟨_, hs⟩ | ⟨_, hs⟩
      · refine .inl ⟨fun i hi => ?_, by rw [hwrote.removed, hs.removed]⟩
        rw [slots_wrote hwrote, if_neg (by omega), hs.slots J]
      · -- the rotation left no current file, so the entry cannot be too large for it
        exfalso
        rw [currentContent, hs.moved, shelve_self _ (Nat.zero_le _), Option.getD_none,
          List.length_nil] at hlarge
        have := J.bytesU64
        omega
  | appended => exact absurd rfl hfail

theorem HasGap.congr (h : HasGap J j) (hsame : ∀ i, 0 < i → slots J j' i = slots J j i) :
    HasGap J j' := by
  obtain ⟨i, hi, hle, hnone⟩ := h
  exact ⟨i, hi, hle, by rw [hsame i hi, hnone]⟩

/-- After a failed call a gap is still there, and one that removed an archive has left a gap. -/
theorem log_failed_gap {call : LogCall} (hfate : OnlyRotationFails call.fate)
    (hfail : (log J C call j).1 ≠ .ok ())
    (h : HasGap J j ∨ (log J C call j).2.removed ≠ j.removed) : HasGap J (log J C call j).2 := by
  rcases log_failed hfate hfail with ⟨hsame, hremoved⟩ | ⟨i, hpos, hi, hshift⟩
  · rcases h with h | h
    · exact h.congr hsame
    · exact absurd hremoved h
  · exact ⟨i, hpos, hi, by rw [hshift.moved, shelve_self _ hi]⟩

/-! ## 3. Runs of calls -/

/-- The root after the calls. -/
def logAll (J : JournalConfig) (C : LineCodec) : List LogCall → Journal → Journal
  | [], j => j
  | call :: calls, j => logAll J C calls (log J C call j).2

/-- `P` holds of every call and the root it finds. -/
def AtEveryCall (J : JournalConfig) (C : LineCodec) (P : Journal → LogCall → Prop) :
    List LogCall → Journal → Prop
  | [], _ => True
  | call :: calls, j => P j call ∧ AtEveryCall J C P calls (log J C call j).2

section Runs

variable {P Q : Journal → LogCall → Prop} {calls later : List LogCall}

theorem AtEveryCall.mono (hPQ : ∀ j call, P j call → Q j call) :
    ∀ {calls : List LogCall} {j : Journal}, AtEveryCall J C P calls j → AtEveryCall J C Q calls j
  | [], _, _ => trivial
  | _ :: _, _, h => ⟨hPQ _ _ h.1, AtEveryCall.mono hPQ h.2⟩

theorem logAll_append : ∀ (calls later : List LogCall) (j : Journal),
    logAll J C (calls ++ later) j = logAll J C later (logAll J C calls j)
  | [], _, _ => rfl
  | _ :: calls, later, _ => logAll_append calls later _

theorem atEveryCall_append : ∀ {calls later : List LogCall} {j : Journal},
    AtEveryCall J C P (calls ++ later) j ↔
      AtEveryCall J C P calls j ∧ AtEveryCall J C P later (logAll J C calls j)
  | [], _, _ => ⟨fun h => ⟨trivial, h⟩, fun h => h.2⟩
  | call :: calls, later, j => by
    have ih := @atEveryCall_append calls later (log J C call j).2
    simp only [List.cons_append, AtEveryCall, logAll, ih, and_assoc]

end Runs

/-- A row of failing calls. -/
def AllFail (J : JournalConfig) (C : LineCodec) : List LogCall → Journal → Prop :=
  AtEveryCall J C fun j call => (log J C call j).1 ≠ .ok ()

/-- Only the rotation of the call may fail, and it finds a shelf of that kind. -/
def SparedCall (J : JournalConfig) (C : LineCodec) (j : Journal) (call : LogCall) : Prop :=
  OnlyRotationFails call.fate ∧ Spared J C j call.entry

/-- Once there is a gap, failing calls remove nothing. -/
theorem logAll_removed_of_gap : ∀ {calls : List LogCall} {j : Journal},
    AtEveryCall J C (SparedCall J C) calls j → AllFail J C calls j → HasGap J j →
    (logAll J C calls j).removed = j.removed
  | [], _, _, _, _ => rfl
  | call :: calls, j, hspared, hfail, hgap => by
    have hkeep : (log J C call j).2.removed = j.removed := by
      by_contra hne
      exact not_fullShelf_iff.mpr hgap (hspared.1.2.full hne)
    rw [logAll, logAll_removed_of_gap hspared.2 hfail.2
      (log_failed_gap hspared.1.1 hfail.1 (.inl hgap)), hkeep]

/-- Failing calls remove one archive at most. -/
theorem logAll_removed_le_one : ∀ {calls : List LogCall} {j : Journal},
    AtEveryCall J C (SparedCall J C) calls j → AllFail J C calls j →
    ∃ gone, gone.length ≤ 1 ∧ (logAll J C calls j).removed = j.removed ++ gone
  | [], j, _, _ => ⟨[], by simp, by rw [logAll, List.append_nil]⟩
  | call :: calls, j, hspared, hfail => by
    rw [logAll]
    by_cases hsame : (log J C call j).2.removed = j.removed
    · rw [← hsame]
      exact logAll_removed_le_one hspared.2 hfail.2
    · have hgap := log_failed_gap hspared.1.1 hfail.1 (.inr hsame)
      rw [logAll_removed_of_gap hspared.2 hfail.2 hgap]
      rcases log_removes J C call j with h | ⟨_, h | ⟨content, _, h⟩⟩
      · exact absurd h hsame
      · exact absurd h hsame
      · exact ⟨[content], by simp, h⟩

/-! ## 4. An undisturbed rotation -/

/-- A call that has to rotate and that nothing disturbs removes the last archive. -/
theorem log_undisturbed_removed {logger : Nat} {entry : AuditEntry} {content : Bytes}
    (hmust : MustRotate J C j entry) (htop : slots J j J.maxArchives = some content) :
    (log J C { logger := logger, entry := entry } j).2.removed = j.removed ++ [content] := by
  obtain ⟨b, hb, hsize, hfull⟩ := hmust
  have hquiet : ¬ Disturbed fun _ => none := by
    rintro ⟨_, _, hf⟩
    cases hf
  have hrotated : ∀ {b' j₁}, C.encode entry = .ok b' → Rotated J j (b'.length + 1) j₁ →
      Shifted J j 0 j₁ := by
    intro b' j₁ henc hrot
    rw [hb] at henc
    cases henc
    exact hrot.resolve_left (fun h => hfull h.1) |>.2
  have hstep := log_step J C { logger := logger, entry := entry } j
  generalize (log J C { logger := logger, entry := entry } j).1 = r at hstep
  generalize (log J C { logger := logger, entry := entry } j).2 = j' at hstep
  cases hstep with
  | refused hwhy _ =>
    rcases hwhy with h | h | h | h
    · exact absurd (h b hb) (by omega)
    · cases h
    · cases h
    · exact absurd h hquiet
  | shifting _ _ _ hfault _ _ _ => exact absurd hfault hquiet
  | stopped _ _ _ hfault _ => exact absurd hfault hquiet
  | torn henc hsize' hrot hcut hwrote _ =>
    rcases hcut with hcut | ⟨rfl, hfault | hlarge⟩
    · cases hcut
    · exact absurd hfault hquiet
    · have hs := hrotated henc hrot
      rw [hwrote.removed, hs.removed, if_pos (Nat.zero_le _), htop, Option.toList_some]
  | appended henc hsize' hrot _ _ hwrote _ =>
    have hs := hrotated henc hrot
    rw [hwrote.removed, hs.removed, if_pos (Nat.zero_le _), htop, Option.toList_some]

/-- **When rotations spare the archives.** In every run in which nothing but the steps of the
rotations fails, and in which every call that has to rotate finds the last archive free or every
archive there, an archive goes only when all of them are there, and any row of failing calls
removes one at most. From any other shelf, a rotation without failures already removes an archive
although there is a free place. -/
theorem rotation_spares_archives (J : JournalConfig) (C : LineCodec) :
    (∀ (calls : List LogCall) (j : Journal), AtEveryCall J C (SparedCall J C) calls j →
      AtEveryCall J C (fun j call => (log J C call j).2.removed ≠ j.removed → FullShelf J j) calls j ∧
      ∀ before failing after, calls = before ++ (failing ++ after) →
        AllFail J C failing (logAll J C before j) →
        ∃ gone, gone.length ≤ 1 ∧ (logAll J C (before ++ failing) j).removed
          = (logAll J C before j).removed ++ gone) ∧
    (∀ (j : Journal) (entry : AuditEntry), ¬ Spared J C j entry → ∀ logger,
      HasGap J j ∧ (log J C { logger := logger, entry := entry } j).2.removed ≠ j.removed) := by
  refine ⟨fun calls j h => ⟨h.mono fun j call hcall => hcall.2.full, ?_⟩, ?_⟩
  · intro before failing after hcalls hfail
    rw [hcalls, atEveryCall_append, atEveryCall_append] at h
    rw [logAll_append]
    exact logAll_removed_le_one h.2.1 hfail
  · intro j entry h logger
    unfold Spared at h
    push Not at h
    obtain ⟨hmust, htop, hgap⟩ := h
    obtain ⟨content, hc⟩ := Option.ne_none_iff_exists'.mp htop
    refine ⟨not_fullShelf_iff.mp hgap, ?_⟩
    rw [log_undisturbed_removed hmust hc]
    simp

/-! ## 5. Two archives, and a rename that keeps failing -/

def sampleFault : StorageFault where
  error := .io "durable storage rename" "audit_log.jsonl" "sharing violation"
  real := by decide

/-- The fifteenth storage call of the log call fails: with both archives there the rename of
archive 1, and with one of them there a step of the rename of the current file. -/
def stuckCall : LogCall :=
  sampleCall 0 { rotation := fun n => if n = 15 then some sampleFault else none }

/-- A root with every file full, after a number of calls that fail. -/
def stuckJournal : Nat → Journal
  | 0 => {
      files := fun name =>
        if name = "audit_log.jsonl" ∨ name = "audit_log.jsonl.1" ∨ name = "audit_log.jsonl.2" then
          some (sampleJson ++ [newline])
        else none }
  | n + 1 => (log sampleConfig sampleCodec stuckCall (stuckJournal n)).2

theorem stuckCall_fails : ∀ n < 3,
    (log sampleConfig sampleCodec stuckCall (stuckJournal n)).1 ≠ .ok () := by
  decide +kernel

theorem stuckCall_fate : OnlyRotationFails stuckCall.fate := by
  refine ⟨?_, rfl⟩
  rintro ⟨_, _, hf⟩
  cases hf

theorem stuckJournal_full : FullShelf sampleConfig (stuckJournal 0) := by
  have hboth : (slots sampleConfig (stuckJournal 0) 1).isSome ∧
      (slots sampleConfig (stuckJournal 0) 2).isSome := by decide +kernel
  intro i hpos hi
  have hi' : i ≤ 2 := hi
  obtain rfl | rfl : i = 1 ∨ i = 2 := by omega
  · exact hboth.1
  · exact hboth.2

/-- Two of the failing calls: the first finds both archives, the second finds the last one free,
and one archive is lost. -/
theorem rotation_spares_archives_sample :
    AtEveryCall sampleConfig sampleCodec (SparedCall sampleConfig sampleCodec) [stuckCall, stuckCall]
      (stuckJournal 0) ∧
    (stuckJournal 2).removed.length = 1 ∧
    ∃ gone : List Bytes, gone.length ≤ 1 ∧ (stuckJournal 2).removed = (stuckJournal 0).removed ++ gone := by
  have hcalls : AtEveryCall sampleConfig sampleCodec (SparedCall sampleConfig sampleCodec)
      [stuckCall, stuckCall] (stuckJournal 0) := by
    refine ⟨⟨stuckCall_fate, fun _ => .inr stuckJournal_full⟩,
      ⟨stuckCall_fate, fun _ => .inl ?_⟩, trivial⟩
    show slots sampleConfig (stuckJournal 1) 2 = none
    decide +kernel
  refine ⟨hcalls, by decide +kernel, ?_⟩
  exact ((rotation_spares_archives sampleConfig sampleCodec).1 _ _ hcalls).2 []
    [stuckCall, stuckCall] [] rfl
    ⟨stuckCall_fails 0 (by omega), stuckCall_fails 1 (by omega), trivial⟩

/-- **The archives are eaten**: three calls that fail one after the other remove both archives, and
the third does so although archive 1 is missing. -/
theorem rotation_eats_archives :
    OnlyRotationFails stuckCall.fate ∧ FullShelf sampleConfig (stuckJournal 0) ∧
    AllFail sampleConfig sampleCodec [stuckCall, stuckCall, stuckCall] (stuckJournal 0) ∧
    ¬ FullShelf sampleConfig (stuckJournal 2) ∧
    (stuckJournal 3).removed ≠ (stuckJournal 2).removed ∧
    (stuckJournal 3).removed.length = (stuckJournal 0).removed.length + 2 := by
  refine ⟨stuckCall_fate, stuckJournal_full, ⟨stuckCall_fails 0 (by omega),
    stuckCall_fails 1 (by omega), stuckCall_fails 2 (by omega), trivial⟩, fun h => ?_,
    by decide +kernel, by decide +kernel⟩
  have hnone : slots sampleConfig (stuckJournal 2) 1 = none := by decide +kernel
  have := h 1 (by decide) (by decide)
  rw [hnone] at this
  cases this

end WinProfile
