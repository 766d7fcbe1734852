/-
  File:      WinProfile/Journal/Attempts.lean
  Subject:   Rotations that stop anywhere, one after the other, from any occupancy of the archives.

  * `Attempts` -- attempts of `rotate_if_needed`, each under the storage lock. A failed storage
    call does nothing and nothing is done after it, so a crash between two calls is the failure of
    the second.
  * `attempt_step` -- what one attempt does to the contents in their order.
  * `interrupted_rotations_keep_order` -- and what any number of them do.
-/
import WinProfile.Journal.History

namespace WinProfile

variable {J : JournalConfig} {j₀ j j' : Journal} {starts : List Journal}

/-! ## 1. One attempt -/

/-- The contents from the last archive down to the current file. -/
def contents (J : JournalConfig) (j : Journal) : List Bytes := readDown (slots J j) J.maxArchives

/-- The content of the last archive, if it is there. -/
def lastArchive (J : JournalConfig) (j : Journal) : List Bytes :=
  (slots J j J.maxArchives).toList

/-- The contents `lost` are gone from the front, and nothing else has changed for a reader. -/
structure Lost (J : JournalConfig) (j : Journal) (lost : List Bytes) (j' : Journal) : Prop where
  contents : contents J j = lost ++ WinProfile.contents J j'
  removed : j'.removed = j.removed ++ lost
  others : ∀ n, (∀ k ≤ J.maxArchives, n ≠ slotName J k) → j'.files n = j.files n

theorem Lost.nothing (h : SameFiles j j') : Lost J j [] j' where
  contents := by rw [WinProfile.contents, WinProfile.contents, h.slots J, List.nil_append]
  removed := by rw [h.removed, List.append_nil]
  others n _ := by rw [h.files]

theorem Lost.trans {as bs : List Bytes} (h : Lost J j₀ as j) (h' : Lost J j bs j') :
    Lost J j₀ (as ++ bs) j' where
  contents := by rw [h.contents, h'.contents, List.append_assoc]
  removed := by rw [h'.removed, h.removed, List.append_assoc]
  others n hn := (h'.others n hn).trans (h.others n hn)

/-- A shift that has come down to some slot has lost the last archive, or is before its start. -/
theorem Shifted.lost {i : Nat} (h : Shifted J j i j') (hi : i ≤ J.maxArchives + 1) :
    ∃ lost, Lost J j lost j' ∧ lost.Sublist (lastArchive J j) := by
  rcases Nat.lt_or_ge J.maxArchives i with hlt | hle
  · obtain rfl : i = J.maxArchives + 1 := by omega
    refine ⟨[], ⟨?_, ?_, h.others⟩, List.nil_sublist _⟩
    · rw [contents, contents, h.moved, shelve_start, List.nil_append]
    · rw [h.removed, if_neg (by omega)]
  · refine ⟨lastArchive J j, ⟨?_, ?_, h.others⟩, List.Sublist.refl _⟩
    · rw [contents, contents, h.moved, readDown_shelve _ hle, lastArchive,
        ← readDown_top _ _ J.archivesPositive]
    · rw [h.removed, if_pos hle, lastArchive]

/-- **One attempt**, wherever it stops: it may lose the last archive, and no error of it is that of
a taken target. -/
theorem attempt_step (J : JournalConfig) (faults : Faults) (additional : Nat) (j : Journal) :
    Act.wp (rotateIfNeeded J faults additional)
      (fun _ j' => ∃ lost, Lost J j lost j' ∧ lost.Sublist (lastArchive J j))
      (fun e j' => e.isCollision = false ∧
        ∃ lost, Lost J j lost j' ∧ lost.Sublist (lastArchive J j)) j := by
  have hsame : ∀ {j'}, SameFiles j j' → ∃ lost, Lost J j lost j' ∧ lost.Sublist (lastArchive J j) :=
    fun h => ⟨[], .nothing h, List.nil_sublist _⟩
  refine Act.wp_mono (rotateIfNeeded_spec J faults additional j) (fun _ j' h => ?_)
    fun e j' h => ?_
  · rcases h with ⟨_, hs⟩ | ⟨_, hshift⟩
    · exact hsame hs
    · exact hshift.lost (Nat.zero_le _)
  · obtain ⟨hraised, hs | ⟨_, _, i, _, hi, hshift⟩⟩ := h
    · exact ⟨hraised.not_collision, hsame hs⟩
    · exact ⟨hraised.not_collision, hshift.lost hi⟩

/-! ## 2. Any number of attempts -/

/-- The states between the attempts that start from `j₀`, with the states in which the attempts so
far started. -/
inductive Attempts (J : JournalConfig) (j₀ : Journal) : List Journal → Journal → Prop where
  | start : Attempts J j₀ [] j₀
  | attempt (faults : Faults) (additional : Nat) {starts j j' r} (h : Attempts J j₀ starts j)
      (hrun : rotateIfNeeded J faults additional j = (r, j')) : Attempts J j₀ (starts ++ [j]) j'

/-- What the attempts have lost was in the last archive when one of them started, in this order. -/
theorem Attempts.lost (h : Attempts J j₀ starts j) :
    ∃ lost, Lost J j₀ lost j ∧ lost.Sublist (starts.flatMap (lastArchive J)) := by
  induction h with
  | start => exact ⟨[], .nothing (.rfl' _), List.nil_sublist _⟩
  | @attempt faults additional starts j j' r _ hrun ih =>
    obtain ⟨before, hbefore, hwhere⟩ := ih
    have hstep : ∃ lost, Lost J j lost j' ∧ lost.Sublist (lastArchive J j) := by
      have := Act.wp_run (R := fun _ j' => ∃ lost, Lost J j lost j' ∧ lost.Sublist (lastArchive J j))
        (Act.wp_mono (attempt_step J faults additional j) (fun _ _ h => h) fun _ _ h => h.2)
      rwa [hrun] at this
    obtain ⟨now, hnow, hlast⟩ := hstep
    refine ⟨before ++ now, hbefore.trans hnow, ?_⟩
    rw [List.flatMap_append, List.flatMap_singleton]
    exact hwhere.append hlast

/-- **Interrupted rotations keep the order.** From any occupancy of the archives, in which what is
read from the last archive down to the current file is in the order of acknowledgement: after any
number of attempts, each stopped anywhere, it still is, nothing twice; nothing was removed but
contents that were in the last archive when some attempt started; no other file has changed; and
the next attempt does not find the target of a rename taken. -/
theorem interrupted_rotations_keep_order {α : Type} (lines : Bytes → List α)
    (acknowledged : List α) (hstart : ((contents J j₀).flatMap lines).Sublist acknowledged)
    (h : Attempts J j₀ starts j) :
    ((contents J j).flatMap lines).Sublist acknowledged ∧
    (∃ lost, contents J j₀ = lost ++ contents J j ∧ j.removed = j₀.removed ++ lost ∧
      lost.Sublist (starts.flatMap (lastArchive J))) ∧
    (∀ n, (∀ k ≤ J.maxArchives, n ≠ slotName J k) → j.files n = j₀.files n) ∧
    ∀ faults additional e j', rotateIfNeeded J faults additional j = (.error e, j') →
      e.isCollision = false := by
  obtain ⟨lost, hlost, hwhere⟩ := h.lost
  refine ⟨?_, ⟨lost, hlost.contents, hlost.removed, hwhere⟩, hlost.others, ?_⟩
  · rw [hlost.contents, List.flatMap_append] at hstart
    exact (List.sublist_append_right _ _).trans hstart
  · intro faults additional e j' hrun
    have hstep := Act.wp_run (R := fun r _ => ∀ e, r = .error e → e.isCollision = false)
      (Act.wp_mono (attempt_step J faults additional j) (fun _ _ _ e he => nomatch he)
        fun e' _ h e he => by
          cases he
          exact h.1)
    rw [hrun] at hstep
    exact hstep e rfl

/-! ## 3. A rotation that leaves a gap, and the next one -/

/-- The process dies before the call of this number. -/
def stopAt (n : Nat) : Faults := fun k => if k = n then some ⟨.io "crash" "" "", rfl, rfl⟩ else none

/-- Three files of one line; the rotation stops when the first archive has become the second. -/
def gapJournal : Journal :=
  (rotateIfNeeded sampleConfig (stopAt ((sampleJournal 3).clock + 15)) 150 (sampleJournal 3)).2

/-- The rotation after it. -/
def gapRotated : Journal := (rotateIfNeeded sampleConfig (fun _ => none) 150 gapJournal).2

theorem gapRotated_attempts :
    Attempts sampleConfig (sampleJournal 3) [sampleJournal 3, gapJournal] gapRotated :=
  .attempt (fun _ => none) 150 (.attempt (stopAt ((sampleJournal 3).clock + 15)) 150 .start rfl) rfl

theorem interrupted_rotations_keep_order_sample :
    slots sampleConfig gapJournal 1 = none ∧ (slots sampleConfig gapJournal 2).isSome ∧
    ((contents sampleConfig gapRotated).flatMap fun c => [c]).Sublist
      (contents sampleConfig (sampleJournal 3)) ∧
    (∃ lost, contents sampleConfig (sampleJournal 3) = lost ++ contents sampleConfig gapRotated ∧
      gapRotated.removed = (sampleJournal 3).removed ++ lost) := by
  have h := interrupted_rotations_keep_order (fun c => [c]) (contents sampleConfig (sampleJournal 3))
    (by rw [List.flatMap_singleton']) gapRotated_attempts
  obtain ⟨hread, ⟨lost, hlost, hremoved, _⟩, _⟩ := h
  exact ⟨by decide +kernel, by decide +kernel, hread, lost, hlost, hremoved⟩

end WinProfile
