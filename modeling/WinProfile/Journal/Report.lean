/-
  File:      WinProfile/Journal/Report.lean
  Subject:   What the result of a call of `log` says about the record.

  * `rotationCalls`, `openingCalls` -- how many storage calls a call makes before its append, from
    the files alone; `Clear` -- none of them fails.
  * `TellsTruth` -- an error stands for nothing recorded, and `Ok` for the entry being the last
    line and the newest of the display.
  * `log_tells_truth_iff` -- exactly the calls with a `CleanAppend` tell the truth;
    `failed_log_is_recorded` -- one that does not.
-/
import WinProfile.Journal.Contents

namespace WinProfile

variable {J : JournalConfig} {C : LineCodec} {j j' : Journal}

/-! ## 1. Storage calls, counted -/

section Counting

variable {α : Type} {faults : Faults} {c k n : Nat}

/-- None of the `n` calls from number `c` on fails. -/
def NoFault (faults : Faults) (c n : Nat) : Prop := ∀ i < n, faults (c + i) = none

instance (c n : Nat) : Decidable (NoFault faults c n) :=
  decidable_of_iff (∀ i < n, (faults (c + i)).isNone) (by simp only [NoFault, Option.isNone_iff_eq_none])

/-- `k` calls from number `c` on were made, and none failed. -/
structure Made (faults : Faults) (c k : Nat) (j : Journal) : Prop where
  clock : j.clock = c + k
  quiet : NoFault faults c k

theorem Made.start (h : j.clock = c) : Made faults c 0 j := ⟨h, fun i hi => absurd hi (by omega)⟩

/-- The next call fails, or one more was made. -/
theorem wp_made {Q : α → Journal → Prop} {E : StorageError → Journal → Prop}
    {body : Act Journal StorageError α} (h : Made faults c k j) (hk : k < n)
    (hfault : ∀ (f : StorageFault) j', ¬ NoFault faults c n → E f.error j')
    (hbody : ∀ j', Made faults c (k + 1) j' → SameFiles j j' → Act.wp body Q E j') :
    Act.wp (storageCall faults body) Q E j := by
  cases hf : faults j.clock with
  | some f =>
    refine Act.wp_of_error (by rw [storageCall, hf]) (hfault f _ fun hq => ?_)
    have := hq k hk
    rw [← h.clock, hf] at this
    cases this
  | none =>
    have hmade : Made faults c (k + 1) { j with clock := j.clock + 1 } := by
      refine ⟨by show j.clock + 1 = _; rw [h.clock, Nat.add_assoc], fun i hi => ?_⟩
      rcases Nat.lt_or_ge i k with hlt | hge
      · exact h.quiet i hlt
      · obtain rfl : i = k := by omega
        rw [← h.clock, hf]
    have hb := hbody _ hmade ⟨rfl, rfl, rfl⟩
    unfold Act.wp at hb ⊢
    rw [storageCall, hf]
    exact hb

theorem wp_made_check {Q : Unit → Journal → Prop} {E : StorageError → Journal → Prop}
    (h : Made faults c k j) (hk : k < n)
    (hfault : ∀ (f : StorageFault) j', ¬ NoFault faults c n → E f.error j')
    (hQ : ∀ j', Made faults c (k + 1) j' → SameFiles j j' → Q () j') :
    Act.wp (storageCall faults (Act.ret ())) Q E j :=
  wp_made h hk hfault fun j' hm hs => (Act.wp_ret ()).mpr (hQ j' hm hs)

theorem wp_made_openChild {Q : Bytes → Journal → Prop} {E : StorageError → Journal → Prop}
    {name : String} (h : Made faults c k j) (hk : k < n)
    (hfault : ∀ (f : StorageFault) j', ¬ NoFault faults c n → E f.error j')
    (hmissing : ∀ j', Made faults c (k + 1) j' → SameFiles j j' → j.files name = none →
      E (.missing name) j')
    (hQ : ∀ content j', Made faults c (k + 1) j' → SameFiles j j' → j.files name = some content →
      Q content j') : Act.wp (openChild faults name) Q E j := by
  refine wp_made h hk hfault fun j' hm hs => ?_
  cases hf : j.files name with
  | some content => exact Act.wp_of_ok (by rw [hs.files, hf]) (hQ content j' hm hs hf)
  | none => exact Act.wp_of_error (by rw [hs.files, hf]) (hmissing j' hm hs hf)

theorem wp_made_openFile {Q : Bytes → Journal → Prop} {E : StorageError → Journal → Prop}
    {name : String} (h : Made faults c k j) (hk : k + 2 ≤ n)
    (hfault : ∀ (f : StorageFault) j', ¬ NoFault faults c n → E f.error j')
    (hmissing : ∀ j', Made faults c (k + 2) j' → SameFiles j j' → j.files name = none →
      E (.missing name) j')
    (hQ : ∀ content j', Made faults c (k + 2) j' → SameFiles j j' → j.files name = some content →
      Q content j') : Act.wp (openFile faults name) Q E j := by
  refine (Act.wp_bind _ _).mpr (wp_made_check h (by omega) hfault fun j₁ hm₁ h₁ => ?_)
  refine wp_made_openChild hm₁ (by omega) hfault (fun j' hm hs hn => ?_) fun content j' hm hs hc => ?_
  · exact hmissing j' hm (h₁.trans hs) (by rw [← h₁.files]; exact hn)
  · exact hQ content j' hm (h₁.trans hs) (by rw [← h₁.files]; exact hc)

theorem wp_made_validateOptionalFile {Q : Bool → Journal → Prop}
    {E : StorageError → Journal → Prop} {name : String} (h : Made faults c k j) (hk : k + 2 ≤ n)
    (hE : ∀ e j', ¬ NoFault faults c n → E e j')
    (hQ : ∀ j', Made faults c (k + 2) j' → SameFiles j j' → Q (j.files name).isSome j') :
    Act.wp (validateOptionalFile faults name) Q E j := by
  refine (Act.wp_bind _ _).mpr ((Act.wp_attempt _).mpr (wp_made_openFile h hk (fun f j' hq => ?_)
    (fun j' hm hs hn => ?_) fun content j' hm hs hc => ?_))
  · simpa [f.real.1] using hE _ j' hq
  · have := hQ j' hm hs
    rw [hn] at this
    simpa [StorageError.missing, StorageError.isNotFound] using this
  · have := hQ j' hm hs
    rw [hc] at this
    exact (Act.wp_pure _).mpr this

theorem wp_made_removeFileIfExists {Q : Bool → Journal → Prop} {E : StorageError → Journal → Prop}
    {name : String} {content : Bytes} (h : Made faults c k j) (hk : k + 4 ≤ n)
    (hc : j.files name = some content) (hE : ∀ e j', ¬ NoFault faults c n → E e j')
    (hQ : ∀ j', Made faults c (k + 4) j' → Q true j') :
    Act.wp (removeFileIfExists faults name) Q E j := by
  refine (Act.wp_bind _ _).mpr
    (wp_made_check h (by omega) (fun f j' hq => hE _ j' hq) fun j₁ hm₁ h₁ => ?_)
  refine (Act.wp_bind _ _).mpr ((Act.wp_attempt _).mpr (wp_made_openChild (n := n) hm₁ (by omega)
    (fun f j' hq => ?_) (fun j' _ _ hn => ?_) fun content' j₂ hm₂ _ _ => ?_))
  · simpa [f.real.1] using hE _ j' hq
  · rw [h₁.files, hc] at hn
    cases hn
  · refine (Act.wp_bind _ _).mpr
      (wp_made_check hm₂ (by omega) (fun f j' hq => hE _ j' hq) fun j₃ hm₃ _ => ?_)
    refine (Act.wp_bind _ _).mpr
      (wp_made hm₃ (by omega) (fun f j' hq => hE _ j' hq) fun j₄ hm₄ _ => ?_)
    exact (Act.wp_update _).mpr ((Act.wp_pure _).mpr (hQ _ ⟨hm₄.clock, hm₄.quiet⟩))

theorem wp_made_durableRename {Q : Unit → Journal → Prop} {E : StorageError → Journal → Prop}
    {source target : String} {content : Bytes} (h : Made faults c k j) (hk : k + 4 ≤ n)
    (hc : j.files source = some content) (hfree : j.files target = none)
    (hE : ∀ e j', ¬ NoFault faults c n → E e j') (hQ : ∀ j', Made faults c (k + 4) j' → Q () j') :
    Act.wp (durableRename faults source target) Q E j := by
  refine (Act.wp_bind _ _).mpr
    (wp_made_check h (by omega) (fun f j' hq => hE _ j' hq) fun j₁ hm₁ h₁ => ?_)
  refine (Act.wp_bind _ _).mpr (wp_made_openChild hm₁ (by omega) (fun f j' hq => hE _ j' hq)
    (fun j' _ _ hn => ?_) fun content' j₂ hm₂ h₂ _ => ?_)
  · rw [h₁.files, hc] at hn
    cases hn
  have h₁₂ := h₁.trans h₂
  refine (Act.wp_bind _ _).mpr ((Act.wp_attempt _).mpr (wp_made_openChild (n := n) hm₂ (by omega)
    (fun f j' hq => ?_) (fun j₃ hm₃ _ _ => ?_) fun content' j' _ _ hc' => ?_))
  · simpa [f.real.1] using hE _ j' hq
  · simp only [StorageError.missing, StorageError.isNotFound, beq_self_eq_true, Bool.true_or,
      if_true]
    refine wp_made hm₃ (by omega) (fun f j' hq => hE _ j' hq) fun j₄ hm₄ _ => ?_
    exact (Act.wp_update _).mpr (hQ _ ⟨hm₄.clock, hm₄.quiet⟩)
  · rw [h₁₂.files, hfree] at hc'
    cases hc'

end Counting

/-! ## 2. The calls before the append -/

section Before

variable {faults : Faults} {c k n : Nat} {j₀ : Journal}

/-- The calls of one round of the shift. -/
def roundCalls (J : JournalConfig) (j : Journal) (i : Nat) : Nat :=
  if (slots J j i).isSome then 6 else 2

/-- The calls of the shift from slot `i` down, the current file included. -/
def shiftCalls (J : JournalConfig) (j : Journal) : Nat → Nat
  | 0 => roundCalls J j 0
  | i + 1 => roundCalls J j (i + 1) + shiftCalls J j i

/-- The calls of `rotate_if_needed`. -/
def rotationCalls (J : JournalConfig) (j : Journal) (n : Nat) : Nat :=
  (if (slots J j 0).isSome then 3 else 2) + if Fits J j n then 0 else shiftCalls J j J.maxArchives

/-- The calls that open the file, and the seek. -/
def openingCalls (J : JournalConfig) (j : Journal) (n : Nat) : Nat :=
  (if (slots J j 0).isSome ∧ Fits J j n then 4 else 2) + 1

/-- **Nothing stops a call of `log` for `n` bytes before its append.** -/
structure Clear (J : JournalConfig) (fate : Fate) (j : Journal) (n : Nat) : Prop where
  lock : fate.lock = none
  buffer : fate.poisoned = false
  rotation : NoFault fate.rotation 1 (rotationCalls J j n)
  opening : NoFault fate.opening (1 + rotationCalls J j n) (openingCalls J j n)

theorem made_moveSlot {i : Nat} (hi : i < J.maxArchives) (h : Shifted J j₀ (i + 1) j)
    (hm : Made faults c k j) (hk : k + roundCalls J j₀ i ≤ n) :
    Act.wp (validateOptionalFile faults (slotName J i) >>= fun there =>
        Act.when there (durableRename faults (slotName J i) (slotName J (i + 1))))
      (fun _ j' => Made faults c (k + roundCalls J j₀ i) j') (fun _ _ => ¬ NoFault faults c n) j := by
  have hslot : slots J j i = slots J j₀ i := by
    rw [h.moved, shelve_below _ (Nat.lt_succ_self i)]
  unfold roundCalls at hk ⊢
  rw [← hslot] at hk ⊢
  refine (Act.wp_bind _ _).mpr (wp_made_validateOptionalFile (n := n) hm ?_ (fun _ _ hq => hq)
    fun j₁ hm₁ h₁ => ?_)
  · split at hk <;> omega
  cases hc : slots J j i with
  | none =>
    rw [show j.files (slotName J i) = none from hc]
    exact (Act.wp_when _ _).mpr hm₁
  | some content =>
    rw [show j.files (slotName J i) = some content from hc]
    rw [hc] at hk
    have hsource : j₁.files (slotName J i) = some content := by
      rw [h₁.files]
      exact hc
    have htarget : j₁.files (slotName J (i + 1)) = none := by
      rw [h₁.files]
      show slots J j (i + 1) = none
      rw [h.moved, shelve_self _ hi]
    exact (Act.wp_when _ _).mpr (wp_made_durableRename (n := n) hm₁ hk hsource htarget
      (fun _ _ hq => hq) fun j₂ hm₂ => hm₂)

theorem made_rotateRound {i : Nat} (hpos : 0 < i) (hi : i ≤ J.maxArchives)
    (h : Shifted J j₀ (i + 1) j) (hm : Made faults c k j) (hk : k + roundCalls J j₀ i ≤ n) :
    Act.wp (rotateRound J faults i) (fun _ j' => Made faults c (k + roundCalls J j₀ i) j')
      (fun _ _ => ¬ NoFault faults c n) j := by
  unfold rotateRound
  rw [← slotName_pos J hpos, ← slotName_pos J (Nat.succ_pos i)]
  rcases Nat.lt_or_ge i J.maxArchives with hlt | hge
  · simp only [if_neg (Nat.ne_of_lt hlt)]
    exact made_moveSlot hlt h hm hk
  · obtain rfl : i = J.maxArchives := by omega
    simp only [if_true]
    have hslot : slots J j J.maxArchives = slots J j₀ J.maxArchives := by
      rw [h.moved, shelve_start]
    unfold roundCalls at hk ⊢
    rw [← hslot] at hk ⊢
    refine (Act.wp_bind _ _).mpr (wp_made_validateOptionalFile (n := n) hm ?_ (fun _ _ hq => hq)
      fun j₁ hm₁ h₁ => ?_)
    · split at hk <;> omega
    cases hc : slots J j J.maxArchives with
    | none =>
      rw [show j.files (slotName J J.maxArchives) = none from hc]
      exact (Act.wp_when _ _).mpr hm₁
    | some content =>
      rw [show j.files (slotName J J.maxArchives) = some content from hc]
      rw [hc] at hk
      have hsource : j₁.files (slotName J J.maxArchives) = some content := by
        rw [h₁.files]
        exact hc
      refine (Act.wp_when _ _).mpr ((Act.wp_bind _ _).mpr (wp_made_removeFileIfExists (n := n) hm₁
        hk hsource (fun _ _ hq => hq) fun j₂ hm₂ => ?_))
      exact (Act.wp_pure _).mpr hm₂

/-- The loop and the current file: the shape and the number of calls together. -/
theorem made_rotateLoop : ∀ (i : Nat) (k : Nat) (j : Journal), i ≤ J.maxArchives →
    Shifted J j₀ (i + 1) j → Made faults c k j → k + shiftCalls J j₀ i ≤ n →
    Act.wp (Act.forEach (List.range' 1 i).reverse (rotateRound J faults) >>= fun _ =>
        validateOptionalFile faults (slotName J 0) >>= fun there =>
          Act.when there (durableRename faults (slotName J 0) (slotName J 1)))
      (fun _ j' => Made faults c (k + shiftCalls J j₀ i) j') (fun _ _ => ¬ NoFault faults c n) j
  | 0, k, j, _, h, hm, hk =>
    (Act.wp_bind _ _).mpr ((Act.wp_ret ()).mpr (made_moveSlot J.archivesPositive h hm hk))
  | i + 1, k, j, hi, h, hm, hk => by
    rw [List.range'_1_concat, List.reverse_append, Nat.add_comm 1 i]
    rw [shiftCalls, ← Nat.add_assoc] at hk ⊢
    refine (Act.wp_bind _ _).mpr ((Act.wp_andThen _ _).mpr (Act.wp_mono
      (Act.wp_and (rotateRound_spec (Nat.succ_pos i) hi h)
        (made_rotateRound (n := n) (Nat.succ_pos i) hi h hm (by omega)))
      (fun _ j₁ h₁ => ?_) fun _ _ h => h.2))
    exact (Act.wp_bind _ _).mp (made_rotateLoop i _ j₁ (by omega) h₁.1 h₁.2 hk)

theorem made_currentBytes (hm : Made faults c k j)
    (hk : k + (if (slots J j 0).isSome then 3 else 2) ≤ n) :
    Act.wp (currentBytes J faults)
      (fun _ j' => Made faults c (k + if (slots J j 0).isSome then 3 else 2) j')
      (fun _ _ => ¬ NoFault faults c n) j := by
  have hslot : slots J j 0 = j.files J.logFileName := by rw [slots, slotName_zero]
  rw [hslot] at hk ⊢
  unfold currentBytes
  refine (Act.wp_bind _ _).mpr ((Act.wp_attempt _).mpr (wp_made_openFile (n := n) hm ?_
    (fun f j' hq => ?_) (fun j' hm' _ hnone => ?_) fun content j₁ hm₁ _ hc => ?_))
  · split at hk <;> omega
  · simpa [f.real.1] using hq
  · simpa [StorageError.missing, StorageError.isNotFound, hnone] using hm'
  · rw [hc] at hk ⊢
    refine (Act.wp_bind _ _).mpr
      (wp_made_check (n := n) hm₁ hk (fun f j' hq => hq) fun j₂ hm₂ _ => ?_)
    exact (Act.wp_pure _).mpr hm₂

theorem made_rotateIfNeeded {bytes : Nat} (hm : Made faults c 0 j) :
    Act.wp (rotateIfNeeded J faults bytes)
      (fun _ j' => Made faults c (rotationCalls J j bytes) j')
      (fun _ _ => ¬ NoFault faults c (rotationCalls J j bytes)) j := by
  have hfirst := made_currentBytes (n := rotationCalls J j bytes) (J := J) hm
    (by unfold rotationCalls; omega)
  unfold rotateIfNeeded
  refine (Act.wp_bind _ _).mpr (Act.wp_mono (Act.wp_and (currentBytes_spec J faults j) hfirst)
    (fun size j₁ h₁ => ?_) fun _ _ h => h.2)
  obtain ⟨⟨rfl, hs⟩, hm₁⟩ := h₁
  rw [Nat.zero_add] at hm₁
  split
  · next hle =>
    have hfit : Fits J j bytes := hle
    rw [rotationCalls, if_pos hfit]
    exact (Act.wp_pure _).mpr hm₁
  · next hgt =>
    have hfull : ¬ Fits J j bytes := hgt
    rw [rotationCalls, if_neg hfull]
    unfold rotate
    rw [← slotName_pos J Nat.one_pos, ← slotName_zero J]
    exact made_rotateLoop J.maxArchives _ j₁ (le_refl _) (.start hs) hm₁ (le_refl _)

theorem made_openLogForAppend (hm : Made faults c k j)
    (hk : k + (if (slots J j 0).isSome then 4 else 2) ≤ n) :
    Act.wp (openLogForAppend J faults)
      (fun _ j' => Made faults c (k + if (slots J j 0).isSome then 4 else 2) j')
      (fun _ _ => ¬ NoFault faults c n) j := by
  have hslot : slots J j 0 = j.files J.logFileName := by rw [slots, slotName_zero]
  have hk' : k + 2 ≤ n := by split at hk <;> omega
  rw [hslot] at hk ⊢
  unfold openLogForAppend createFile
  refine (Act.wp_bind _ _).mpr ((Act.wp_attempt _).mpr ((Act.wp_bind _ _).mpr
    (wp_made_check (n := n) hm (by omega) (fun f j' hq => ?_) fun j₁ hm₁ h₁ =>
      wp_made (n := n) hm₁ (by omega) (fun f j' hq => ?_) fun j₂ hm₂ h₂ => ?_)))
  · simpa [f.real.2] using hq
  · simpa [f.real.2] using hq
  · have h₁₂ := h₁.trans h₂
    cases hf : j.files J.logFileName with
    | none =>
      refine Act.wp_of_ok (by rw [h₁₂.files, hf]) ?_
      exact (Act.wp_pure _).mpr ⟨hm₂.clock, hm₂.quiet⟩
    | some content =>
      rw [hf] at hk
      refine Act.wp_of_error (by rw [h₁₂.files, hf]) ?_
      simp only [StorageError.taken, StorageError.isCollision, beq_self_eq_true, if_true]
      refine wp_made_openFile (n := n) hm₂ hk (fun f j' hq => hq) (fun j' _ _ hnone => ?_)
        fun content' j' hm' _ _ => hm'
      rw [h₁₂.files, hf] at hnone
      cases hnone

end Before

/-! ## 3. Complete lines -/

/-- The lines of a content that end with a newline. -/
def completeLines (content : Bytes) : List Bytes := (splitLines content).1

/-- What follows the last newline. -/
def openLine (content : Bytes) : Bytes := (splitLines content).2

/-- All complete lines of the journal; those of the archives that were removed come first. -/
def storedLines (J : JournalConfig) (j : Journal) : List Bytes := (trail J j).flatMap completeLines

theorem splitLines_append_open {t : Bytes} (h : newline ∉ t) : ∀ content : Bytes,
    splitLines (content ++ t) = (completeLines content, openLine content ++ t)
  | [] => splitLines_open h
  | c :: cs => by
    have ih := splitLines_append_open h cs
    simp only [completeLines, openLine] at ih ⊢
    by_cases hc : c = newline
    · simp only [List.cons_append, splitLines, ih, if_pos hc]
    · simp only [List.cons_append, splitLines, ih, if_neg hc]
      cases (splitLines cs).1 <;> rfl

theorem splitLines_append_newline : ∀ content : Bytes,
    splitLines (content ++ [newline]) = (completeLines content ++ [openLine content], [])
  | [] => rfl
  | c :: cs => by
    have ih := splitLines_append_newline cs
    simp only [completeLines, openLine] at ih ⊢
    by_cases hc : c = newline
    · simp only [List.cons_append, splitLines, ih, if_pos hc]
    · simp only [List.cons_append, splitLines, ih, if_neg hc]
      cases (splitLines cs).1 <;> rfl

/-- The line `b` after a content continues its open line. -/
theorem splitLines_append_line {b : Bytes} (h : newline ∉ b) (content : Bytes) :
    splitLines (content ++ (b ++ [newline]))
      = (completeLines content ++ [openLine content ++ b], []) := by
  rw [← List.append_assoc, splitLines_append_newline, completeLines, openLine,
    splitLines_append_open h]

theorem openLine_eq_nil_iff (content : Bytes) : openLine content = [] ↔ Ended content := by
  rcases List.eq_nil_or_concat content with rfl | ⟨front, c, rfl⟩
  · exact ⟨fun _ => .inl rfl, fun _ => rfl⟩
  by_cases hc : c = newline
  · rw [List.concat_eq_append, hc, openLine, splitLines_append_newline]
    exact ⟨fun _ => .inr (by simp), fun _ => rfl⟩
  · have hopen : newline ∉ [c] := fun hin => hc (List.mem_singleton.mp hin).symm
    rw [List.concat_eq_append, openLine, splitLines_append_open hopen]
    refine ⟨fun h => absurd h (by simp), fun h => ?_⟩
    rcases h with h | h
    · simp at h
    · simp only [List.getLast?_append, List.getLast?_singleton, Option.some_or] at h
      exact absurd (Option.some.inj h) hc

theorem storedLines_eq (J : JournalConfig) (j : Journal) : storedLines J j
    = (olderFiles J j).flatMap completeLines ++ completeLines (currentContent J j) := by
  rw [storedLines, trail, List.flatMap_append, currentContent]
  cases slots J j 0 <;> simp [completeLines, splitLines]

theorem currentContent_wrote {bytes : Bytes} (h : Wrote J j bytes j') :
    currentContent J j' = currentContent J j ++ bytes := by
  rw [currentContent, slots_wrote h, if_pos rfl, Option.getD_some]

theorem Rotated.storedLines {n : Nat} (h : Rotated J j n j') : storedLines J j' = storedLines J j := by
  rw [WinProfile.storedLines, h.trail]
  rfl

/-- Bytes without a newline complete no line. -/
theorem Wrote.storedLines_open {bytes : Bytes} (h : Wrote J j bytes j') (hopen : newline ∉ bytes) :
    storedLines J j' = storedLines J j := by
  rw [storedLines_eq, storedLines_eq, olderFiles_wrote h, currentContent_wrote h, completeLines,
    splitLines_append_open hopen]

/-- A whole line is one more, after what was open. -/
theorem Wrote.storedLines_line {b : Bytes} (h : Wrote J j (b ++ [newline]) j') (hb : newline ∉ b) :
    storedLines J j' = storedLines J j ++ [openLine (currentContent J j) ++ b] := by
  rw [storedLines_eq, storedLines_eq, olderFiles_wrote h, currentContent_wrote h, completeLines,
    splitLines_append_line hb, List.append_assoc]

/-! ## 4. Where a call stops -/

section Outcome

variable {call : LogCall} {b : Bytes}

/-- Where the append of `n` bytes starts: after the current content, or in a new file. -/
def startContent (J : JournalConfig) (j : Journal) (n : Nat) : Bytes :=
  if Fits J j n then currentContent J j else []

theorem Rotated.currentContent_eq {n : Nat} (h : Rotated J j n j') :
    currentContent J j' = startContent J j n := by
  rcases h with ⟨hfit, hs⟩ | ⟨hfull, hs⟩
  · rw [startContent, if_pos hfit, hs.currentContent]
  · rw [startContent, if_neg hfull, currentContent, hs.moved, shelve_self _ (Nat.zero_le _)]
    rfl

theorem Rotated.isSome_iff {n : Nat} (h : Rotated J j n j') :
    (slots J j' 0).isSome ↔ (slots J j 0).isSome ∧ Fits J j n := by
  rcases h with ⟨hfit, hs⟩ | ⟨hfull, hs⟩
  · rw [hs.slots J]
    exact ⟨fun h => ⟨h, hfit⟩, fun h => h.1⟩
  · rw [hs.moved, shelve_self _ (Nat.zero_le _)]
    exact ⟨fun h => (nomatch h), fun h => absurd h.2 hfull⟩

/-- Nothing went into a file; at most an empty one was made. -/
def Unwritten (J : JournalConfig) (n : Nat) (j j' : Journal) : Prop :=
  trail J j' = trail J j ∨ ∃ j₁, Rotated J j n j₁ ∧ Wrote J j₁ [] j'

theorem Unwritten.storedLines {n : Nat} (h : Unwritten J n j j') :
    storedLines J j' = storedLines J j := by
  rcases h with hsame | ⟨j₁, hrot, hwrote⟩
  · rw [WinProfile.storedLines, hsame, WinProfile.storedLines]
  · rw [hwrote.storedLines_open (by simp), hrot.storedLines]

/-- **The outcomes of a call whose entry has the JSON text `b` and is not too large**, by what the
world does to it. -/
inductive Outcome (J : JournalConfig) (call : LogCall) (b : Bytes) (j : Journal) :
    Except AuditError Unit → Journal → Prop where
  /-- Stopped before the append. -/
  | early {e j'} (hstop : ¬ Clear J call.fate j (b.length + 1))
      (hkept : Unwritten J (b.length + 1) j j') (hloggers : j'.loggers = j.loggers) :
      Outcome J call b j (.error e) j'
  /-- Stopped in the append. -/
  | torn {e j₁ j' k} (hclear : Clear J call.fate j (b.length + 1)) (hcut : call.fate.cut = some k)
      (hrot : Rotated J j (b.length + 1) j₁) (hwrote : Wrote J j₁ ((b ++ [newline]).take k) j')
      (hloggers : j'.loggers = j.loggers) : Outcome J call b j (.error e) j'
  /-- The file has no room left. -/
  | full {e j'} (hclear : Clear J call.fate j (b.length + 1)) (hcut : call.fate.cut = none)
      (hroom : 2 ^ 64 ≤ (startContent J j (b.length + 1)).length + (b.length + 1))
      (hkept : Unwritten J (b.length + 1) j j') (hloggers : j'.loggers = j.loggers) :
      Outcome J call b j (.error e) j'
  /-- Through. -/
  | recorded {j₁ j'} (hclear : Clear J call.fate j (b.length + 1)) (hcut : call.fate.cut = none)
      (hroom : (startContent J j (b.length + 1)).length + (b.length + 1) < 2 ^ 64)
      (hrot : Rotated J j (b.length + 1) j₁) (hwrote : Wrote J j₁ (b ++ [newline]) j')
      (hloggers : j'.loggers = fun l =>
        if l = call.logger then (j.loggers l).push call.entry else j.loggers l) :
      Outcome J call b j (.ok ()) j'

/-- The opening and the append, after the rotation. -/
theorem append_outcome {j₁ : Journal} (hlock : call.fate.lock = none)
    (hpoison : call.fate.poisoned = false)
    (hquiet : NoFault call.fate.rotation 1 (rotationCalls J j (b.length + 1)))
    (hrot : Rotated J j (b.length + 1) j₁)
    (hclock : j₁.clock = 1 + rotationCalls J j (b.length + 1)) :
    Act.wp (do
        let before ← Act.mapErr .storage (openLogForAppend J call.fate.opening)
        Act.mapErr .storage (storageCall call.fate.opening (Act.ret ()))
        appendLine J call.fate.cut before (b ++ [newline])
        Act.update fun j => { j with loggers := fun l =>
          if l = call.logger then (j.loggers l).push call.entry else j.loggers l })
      (fun _ j' => Outcome J call b j (.ok ()) j') (fun e j' => Outcome J call b j (.error e) j')
      j₁ := by
  have hlog := hrot.loggers
  have hcalls : (if (slots J j₁ 0).isSome then 4 else 2) + 1 = openingCalls J j (b.length + 1) := by
    unfold openingCalls
    simp only [hrot.isSome_iff]
  have hfirst : Made call.fate.opening (1 + rotationCalls J j (b.length + 1)) 0 j₁ := .start hclock
  have hopen := made_openLogForAppend (J := J) (n := openingCalls J j (b.length + 1))
    hfirst (by omega)
  refine (Act.wp_bind _ _).mpr ((Act.wp_mapErr _ _).mpr (Act.wp_mono
    (Act.wp_and (openLogForAppend_spec J call.fate.opening j₁) hopen) (fun before j₂ h₂ => ?_)
    fun e j₂ h₂ => ?_))
  · obtain ⟨⟨rfl, hw, hl⟩, hm⟩ := h₂
    have hl₂ : j₂.loggers = j.loggers := hl.trans hlog
    rw [Nat.zero_add] at hm
    have hseek : Act.wp (storageCall call.fate.opening (Act.ret ()))
        (fun _ j' => SameFiles j₂ j' ∧ NoFault call.fate.opening
          (1 + rotationCalls J j (b.length + 1)) (openingCalls J j (b.length + 1)))
        (fun _ j' => SameFiles j₂ j' ∧ ¬ NoFault call.fate.opening
          (1 + rotationCalls J j (b.length + 1)) (openingCalls J j (b.length + 1))) j₂ := by
      refine Act.wp_and (wp_check (fun _ _ _ h => h) fun _ h => h)
        (wp_made_check (n := openingCalls J j (b.length + 1)) hm (by omega) (fun _ _ hq => hq)
          fun _ hm' _ => ?_)
      rw [← hcalls]
      exact hm'.quiet
    refine (Act.wp_bind _ _).mpr ((Act.wp_mapErr _ _).mpr (Act.wp_mono hseek
      (fun _ j₃ h₃ => ?_) fun e j₃ h₃ => ?_))
    · obtain ⟨hs, hq⟩ := h₃
      have hclear : Clear J call.fate j (b.length + 1) := ⟨hlock, hpoison, hquiet, hq⟩
      have hw₃ := hw.same hs
      have hl₃ : j₃.loggers = j.loggers := hs.loggers.trans hl₂
      have hstart := hrot.currentContent_eq
      refine (Act.wp_bind _ _).mpr ?_
      cases hcut : call.fate.cut with
      | some k => exact Act.wp_of_error rfl (.torn hclear hcut hrot hw₃.append hl₃)
      | none =>
        by_cases hroom : (currentContent J j₁).length + (b ++ [newline]).length < 2 ^ 64
        · refine Act.wp_of_ok (if_pos hroom) ((Act.wp_update _).mpr ?_)
          refine .recorded hclear hcut ?_ hrot ⟨?_, hw₃.removed⟩ ?_
          · rw [← hstart]
            simpa using hroom
          · have hline : Wrote J j₁ (b ++ [newline]) _ := hw₃.append
            exact hline.files
          · show (fun l => _) = _
            simp only [Journal.setFile, hl₃]
        · refine Act.wp_of_error (if_neg hroom) (.full hclear hcut ?_
            (.inr ⟨j₁, hrot, hw₃⟩) hl₃)
          rw [← hstart]
          simpa using hroom
    · obtain ⟨hs, hq⟩ := h₃
      exact .early (fun hc => hq hc.opening) (.inr ⟨j₁, hrot, hw.same hs⟩) (hs.loggers.trans hl₂)
  · exact .early (fun hc => h₂.2 hc.opening) (.inl (h₂.1.1.trail.trans hrot.trail))
      (h₂.1.1.loggers.trans hlog)

theorem SameFiles.storedLines (h : SameFiles j j') : storedLines J j' = storedLines J j := by
  rw [WinProfile.storedLines, h.trail]
  rfl

theorem SameFiles.rotationCalls (h : SameFiles j j') (n : Nat) :
    rotationCalls J j' n = rotationCalls J j n := by
  have hshift : ∀ i, shiftCalls J j' i = shiftCalls J j i := fun i => by
    induction i with
    | zero => rw [shiftCalls, shiftCalls, roundCalls, roundCalls, h.slots J]
    | succ i ih => rw [shiftCalls, shiftCalls, roundCalls, roundCalls, h.slots J, ih]
  unfold WinProfile.rotationCalls
  simp only [h.slots J, h.fits n, hshift]

/-- **Every call does one of these**, when its entry has a JSON text that is not too large. -/
theorem log_outcome (henc : C.encode call.entry = .ok b) (hsize : b.length + 1 ≤ J.maxLogBytes)
    (j : Journal) : Outcome J call b j (log J C call j).1 (log J C call j).2 := by
  refine Act.wp_run (R := Outcome J call b j) ?_
  unfold log
  refine (Act.wp_bind _ _).mpr ((Act.wp_update _).mpr ?_)
  have hs : SameFiles j { j with clock := 0 } := ⟨rfl, rfl, rfl⟩
  rw [henc]
  refine (Act.wp_bind _ _).mpr ((Act.wp_mapErr _ _).mpr ((Act.wp_ofExcept _).mpr ?_))
  refine (Act.wp_bind _ _).mpr ((Act.wp_guard _ _).mpr ?_)
  rw [if_pos (by simpa using hsize)]
  refine (Act.wp_bind _ _).mpr ((Act.wp_mapErr _ _).mpr ?_)
  cases hlock : call.fate.lock with
  | some f =>
    refine Act.wp_of_error rfl (.early (fun hc => ?_) (.inl hs.trail) hs.loggers)
    rw [hc.lock] at hlock
    cases hlock
  | none =>
    have hs₁ : SameFiles j { j with clock := 1 } := ⟨rfl, rfl, rfl⟩
    refine Act.wp_of_ok rfl ?_
    refine (Act.wp_bind _ _).mpr ((Act.wp_guard _ _).mpr ?_)
    cases hpoison : call.fate.poisoned with
    | true =>
      refine .early (fun hc => ?_) (.inl hs₁.trail) hs₁.loggers
      rw [hc.buffer] at hpoison
      cases hpoison
    | false =>
      have hfirst : Made call.fate.rotation 1 0 { j with clock := 1 } := .start rfl
      have hrot := Act.wp_and (rotateIfNeeded_spec J call.fate.rotation (b.length + 1) _)
        (made_rotateIfNeeded (J := J) hfirst)
      rw [hs₁.rotationCalls] at hrot
      refine (Act.wp_bind _ _).mpr ((Act.wp_mapErr _ _).mpr (Act.wp_mono hrot
        (fun _ j₂ h₂ => ?_) fun e j₂ h₂ => ?_))
      · exact append_outcome hlock hpoison h₂.2.quiet (h₂.1.from_same hs₁) h₂.2.clock
      · obtain ⟨h₂, hq⟩ := h₂
        have hstop : ¬ Clear J call.fate j (b.length + 1) := fun hc => hq hc.rotation
        obtain ⟨_, h₂ | ⟨_, _, i, _, hi, h₂⟩⟩ := h₂
        · exact .early hstop (.inl (hs₁.trans h₂).trail) (hs₁.trans h₂).loggers
        · have hshift := Shifted.from_same hs₁ h₂
          exact .early hstop (.inl (hshift.trail hi)) hshift.loggers

end Outcome

/-! ## 5. The truth of the result -/

section Truth

variable {call : LogCall} {b : Bytes}

/-- The result tells what was recorded: after an error no buffer has changed and no complete line
is the entry's that was not before, after `Ok` the entry is the last line of the current file and
the newest of the display. -/
structure TellsTruth (J : JournalConfig) (C : LineCodec) (call : LogCall) (j : Journal)
    (r : Except AuditError Unit) (j' : Journal) : Prop where
  failed : ∀ e, r = .error e → j'.loggers = j.loggers ∧
    ∀ b, C.encode call.entry = .ok b → (storedLines J j').count b ≤ (storedLines J j).count b
  recorded : r = .ok () →
    (∃ b content front, C.encode call.entry = .ok b ∧ slots J j' 0 = some content ∧
      splitLines content = (front ++ [b], [])) ∧
    ((j.loggers call.logger).maxMemoryEntries ≠ 0 →
      (j'.loggers call.logger).buffer.getLast? = some call.entry)

/-- Either the call stops before its append, or the append starts a line of its own and is through,
or it stops before the line is whole; a line that continues an open one is not the entry's. -/
def CleanAppend (J : JournalConfig) (C : LineCodec) (j : Journal) (call : LogCall) : Prop :=
  ∀ b, C.encode call.entry = .ok b → b.length + 1 ≤ J.maxLogBytes →
    Clear J call.fate j (b.length + 1) →
    (call.fate.cut = none → (startContent J j (b.length + 1)).length + (b.length + 1) < 2 ^ 64 →
      Ended (startContent J j (b.length + 1))) ∧
    ∀ k, call.fate.cut = some k → Ended (startContent J j (b.length + 1)) → k ≤ b.length

/-- The newest entry of a display. -/
theorem Display.push_getLast? {d : Display} (hd : d.maxMemoryEntries ≠ 0) (e : AuditEntry) :
    (d.push e).buffer.getLast? = some e := by
  unfold push
  rw [if_neg hd]
  split <;> simp

/-- An error with the same lines and buffers tells the truth. -/
theorem TellsTruth.unchanged {e : AuditError} (hlines : storedLines J j' = storedLines J j)
    (hloggers : j'.loggers = j.loggers) : TellsTruth J C call j (.error e) j' where
  failed _ _ := ⟨hloggers, fun b _ => by rw [hlines]⟩
  recorded h := (nomatch h)

theorem tellsTruth_torn {e : AuditError} {j₁ : Journal} {k : Nat}
    (henc : C.encode call.entry = .ok b) (hrot : Rotated J j (b.length + 1) j₁)
    (hwrote : Wrote J j₁ ((b ++ [newline]).take k) j') (hloggers : j'.loggers = j.loggers) :
    TellsTruth J C call j (.error e) j' ↔ (Ended (startContent J j (b.length + 1)) → k ≤ b.length) := by
  have hb := C.newline_not_mem henc
  rcases Nat.lt_or_ge b.length k with hlt | hge
  · rw [List.take_of_length_le (by simp; omega)] at hwrote
    have hlines := hwrote.storedLines_line hb
    rw [hrot.storedLines, hrot.currentContent_eq] at hlines
    constructor
    · intro h hend
      have hcount := (h.failed e rfl).2 b henc
      rw [hlines, (openLine_eq_nil_iff _).mpr hend, List.nil_append, List.count_append,
        List.count_singleton_self] at hcount
      omega
    · intro h
      refine ⟨fun _ _ => ⟨hloggers, fun b' hb' => ?_⟩, fun h => (nomatch h)⟩
      rw [henc] at hb'
      cases hb'
      have hopen : openLine (startContent J j (b.length + 1)) ≠ [] := fun hnil =>
        absurd (h ((openLine_eq_nil_iff _).mp hnil)) (by omega)
      rw [hlines, List.count_append, List.count_singleton, if_neg (by simpa using hopen)]
      exact le_refl _
  · have hopen : newline ∉ (b ++ [newline]).take k := by
      rw [List.take_append_of_le_length hge]
      exact fun h => hb (List.mem_of_mem_take h)
    refine ⟨fun _ _ => hge, fun _ => .unchanged ?_ hloggers⟩
    rw [hwrote.storedLines_open hopen, hrot.storedLines]

theorem tellsTruth_recorded {j₁ : Journal} (henc : C.encode call.entry = .ok b)
    (hrot : Rotated J j (b.length + 1) j₁) (hwrote : Wrote J j₁ (b ++ [newline]) j')
    (hloggers : j'.loggers = fun l =>
      if l = call.logger then (j.loggers l).push call.entry else j.loggers l) :
    TellsTruth J C call j (.ok ()) j' ↔ Ended (startContent J j (b.length + 1)) := by
  have hsplit := splitLines_append_line (C.newline_not_mem henc) (currentContent J j₁)
  have hslot : slots J j' 0 = some (currentContent J j₁ ++ (b ++ [newline])) := by
    rw [slots_wrote hwrote, if_pos rfl]
  rw [← hrot.currentContent_eq, ← openLine_eq_nil_iff]
  constructor
  · intro h
    obtain ⟨b', content, front, hb', hc, hlast⟩ := (h.recorded rfl).1
    rw [henc] at hb'
    cases hb'
    rw [hslot] at hc
    cases hc
    rw [hsplit, Prod.mk.injEq] at hlast
    have hline := (List.append_inj' hlast.1 rfl).2
    simpa using hline
  · intro hnil
    rw [hnil, List.nil_append] at hsplit
    refine ⟨fun _ h => (nomatch h), fun _ => ⟨⟨b, _, _, henc, hslot, hsplit⟩, fun hd => ?_⟩⟩
    rw [hloggers]
    simp only [if_true]
    exact Display.push_getLast? hd call.entry

/-- **When the result of `log` tells the truth**: for every root, entry and fate, exactly when its
append is a clean one. -/
theorem log_tells_truth_iff (J : JournalConfig) (C : LineCodec) (call : LogCall) (j : Journal) :
    TellsTruth J C call j (log J C call j).1 (log J C call j).2 ↔ CleanAppend J C j call := by
  by_cases hwritable : ∃ b, C.encode call.entry = .ok b ∧ b.length + 1 ≤ J.maxLogBytes
  · obtain ⟨b, henc, hsize⟩ := hwritable
    have hclean : CleanAppend J C j call ↔ (Clear J call.fate j (b.length + 1) →
        (call.fate.cut = none →
          (startContent J j (b.length + 1)).length + (b.length + 1) < 2 ^ 64 →
            Ended (startContent J j (b.length + 1))) ∧
        ∀ k, call.fate.cut = some k → Ended (startContent J j (b.length + 1)) → k ≤ b.length) := by
      refine ⟨fun h => h b henc hsize, fun h b' hb' _ => ?_⟩
      rw [henc] at hb'
      cases hb'
      exact h
    rw [hclean]
    have hout := log_outcome henc hsize j
    generalize (log J C call j).1 = r at hout
    generalize (log J C call j).2 = j' at hout
    cases hout with
    | early hstop hkept hloggers =>
      exact ⟨fun _ hc => absurd hc hstop, fun _ => .unchanged hkept.storedLines hloggers⟩
    | torn hclear hcut hrot hwrote hloggers =>
      rw [tellsTruth_torn henc hrot hwrote hloggers, hcut]
      refine ⟨fun h _ => ⟨fun hn => (nomatch hn), fun k' hk' => ?_⟩, fun h => (h hclear).2 _ rfl⟩
      cases hk'
      exact h
    | full hclear hcut hroom hkept hloggers =>
      refine ⟨fun _ _ => ⟨fun _ hlt => absurd hlt (by omega), fun k hk => ?_⟩,
        fun _ => .unchanged hkept.storedLines hloggers⟩
      rw [hcut] at hk
      cases hk
    | recorded hclear hcut hroom hrot hwrote hloggers =>
      rw [tellsTruth_recorded henc hrot hwrote hloggers, hcut]
      exact ⟨fun h _ => ⟨fun _ _ => h, fun k hk => (nomatch hk)⟩, fun h => (h hclear).1 rfl hroom⟩
  · have hclean : CleanAppend J C j call := fun b hb hle => absurd ⟨b, hb, hle⟩ hwritable
    refine ⟨fun _ => hclean, fun _ => ?_⟩
    have hstep := log_step J C call j
    generalize (log J C call j).1 = r at hstep
    generalize (log J C call j).2 = j' at hstep
    cases hstep with
    | refused _ hsame => exact .unchanged hsame.storedLines hsame.loggers
    | shifting henc hsize => exact absurd ⟨_, henc, hsize⟩ hwritable
    | stopped henc hsize => exact absurd ⟨_, henc, hsize⟩ hwritable
    | torn henc hsize => exact absurd ⟨_, henc, hsize⟩ hwritable
    | appended henc hsize => exact absurd ⟨_, henc, hsize⟩ hwritable

/-- A call whose append stops after some bytes. -/
def cutCall (k : Nat) : LogCall := sampleCall 0 { cut := some k }

/-- **A failed call is recorded**: its sync fails with the whole line in the file; the call answers
with an error, and a logger that is opened then shows the entry. -/
theorem failed_log_is_recorded :
    ¬ TellsTruth sampleConfig sampleCodec (cutCall 120) .empty
      (log sampleConfig sampleCodec (cutCall 120) .empty).1
      (log sampleConfig sampleCodec (cutCall 120) .empty).2 ∧
    (log sampleConfig sampleCodec (cutCall 120) .empty).1 = .error (.io "append interrupted") ∧
    ((build sampleConfig sampleCodec {} 2 10
      (log sampleConfig sampleCodec (cutCall 120) .empty).2).2.loggers 2).buffer = [sampleEntry] := by
  have hfail : (log sampleConfig sampleCodec (cutCall 120) .empty).1
      = .error (.io "append interrupted") := by decide +kernel
  refine ⟨fun h => ?_, hfail, by decide +kernel⟩
  have henc : sampleCodec.encode (cutCall 120).entry = .ok sampleJson := by
    simp [sampleCodec, cutCall, sampleCall]
  have hcount := (h.failed _ hfail).2 sampleJson henc
  have hone : (storedLines sampleConfig .empty).count sampleJson = 0 ∧ (storedLines sampleConfig
      (log sampleConfig sampleCodec (cutCall 120) .empty).2).count sampleJson = 1 := by
    decide +kernel
  omega

end Truth

end WinProfile
