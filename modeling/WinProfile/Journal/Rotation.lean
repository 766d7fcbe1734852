/-
  File:      WinProfile/Journal/Rotation.lean
  Subject:   What one call of `log` can do to the journal files, whatever fails.

  * `slots` -- the current file and its archives as numbered slots, the current file being slot 0.
  * `Shifted` -- the files when the shift of `rotate_if_needed` has come down to a slot;
    `rotate_spec`: a failed rotation has stopped at one of these.
  * `LogStep`, `log_step` -- every outcome of a call, and that there is no other.
-/
import WinProfile.Journal.Log
import WinProfile.Lib.Shelf
import WinProfile.Lib.Text

namespace WinProfile

/-! ## 1. Slots -/

section Slots

variable (J : JournalConfig)

/-- The file of a slot: the current file is slot 0, archive `i` is slot `i`. -/
def slotName (i : Nat) : String :=
  if i = 0 then J.logFileName else archiveName J.logFileName i

def slots (j : Journal) (i : Nat) : Option Bytes := j.files (slotName J i)

theorem archiveName_ne (file : String) (i : Nat) : archiveName file i ≠ file := fun e => by
  have := congrArg String.length e
  simp only [archiveName, String.length_append] at this
  have : ".".length = 1 := rfl
  omega

theorem archiveName_inj {file : String} {i k : Nat} (h : archiveName file i = archiveName file k) :
    i = k := by
  simp only [archiveName, String.append_right_inj] at h
  exact toString_nat_inj h

theorem slotName_inj {i k : Nat} (h : slotName J i = slotName J k) : i = k := by
  unfold slotName at h
  split at h <;> split at h
  · omega
  · exact absurd h.symm (archiveName_ne _ _)
  · exact absurd h (archiveName_ne _ _)
  · exact archiveName_inj h

theorem slotName_zero : slotName J 0 = J.logFileName := if_pos rfl

theorem slotName_pos {i : Nat} (h : 0 < i) : slotName J i = archiveName J.logFileName i :=
  if_neg (by omega)

end Slots

/-! ## 2. Calls that read only -/

/-- The files and the loggers are the same. -/
structure SameFiles (j j' : Journal) : Prop where
  files : j'.files = j.files
  removed : j'.removed = j.removed
  loggers : j'.loggers = j.loggers

theorem SameFiles.rfl' (j : Journal) : SameFiles j j := ⟨rfl, rfl, rfl⟩

theorem SameFiles.trans {a b c : Journal} (h : SameFiles a b) (h' : SameFiles b c) :
    SameFiles a c :=
  ⟨h'.files.trans h.files, h'.removed.trans h.removed, h'.loggers.trans h.loggers⟩

theorem SameFiles.slots {j j' : Journal} (h : SameFiles j j') (J : JournalConfig) :
    slots J j' = slots J j := by
  funext i
  exact congrFun h.files _

section Calls

variable {α : Type} {faults : Faults} {j : Journal}

/-- One of the faults that strike the call. -/
def Struck (faults : Faults) (f : StorageFault) : Prop := ∃ n, faults n = some f

/-- Some storage call fails. -/
def Disturbed (faults : Faults) : Prop := ∃ f, Struck faults f

theorem Struck.disturbed {f : StorageFault} (h : Struck faults f) : Disturbed faults := ⟨f, h⟩

/-- The error is that of a storage call which the world let fail. -/
def Raised (faults : Faults) (e : StorageError) : Prop := ∃ f, Struck faults f ∧ e = f.error

theorem Struck.raised {f : StorageFault} (h : Struck faults f) : Raised faults f.error := ⟨f, h, rfl⟩

theorem Raised.disturbed {e : StorageError} (h : Raised faults e) : Disturbed faults := by
  obtain ⟨f, hf, _⟩ := h
  exact hf.disturbed

theorem Raised.not_collision {e : StorageError} (h : Raised faults e) : e.isCollision = false := by
  obtain ⟨f, _, rfl⟩ := h
  exact f.real.2

theorem wp_storageCall {Q : α → Journal → Prop} {E : StorageError → Journal → Prop}
    {body : Act Journal StorageError α}
    (hfault : ∀ f j', Struck faults f → SameFiles j j' → E f.error j')
    (hbody : ∀ j', SameFiles j j' → Act.wp body Q E j') : Act.wp (storageCall faults body) Q E j := by
  have hsame : SameFiles j { j with clock := j.clock + 1 } := ⟨rfl, rfl, rfl⟩
  cases h : faults j.clock with
  | some f => exact Act.wp_of_error (by rw [storageCall, h]) (hfault f _ ⟨_, h⟩ hsame)
  | none =>
    have hb := hbody _ hsame
    unfold Act.wp at hb ⊢
    rw [storageCall, h]
    exact hb

/-- A call that does nothing but possibly fail. -/
theorem wp_check {Q : Unit → Journal → Prop} {E : StorageError → Journal → Prop}
    (hE : ∀ f j', Struck faults f → SameFiles j j' → E f.error j')
    (hQ : ∀ j', SameFiles j j' → Q () j') : Act.wp (storageCall faults (Act.ret ())) Q E j :=
  wp_storageCall hE fun j' h => (Act.wp_ret ()).mpr (hQ j' h)

theorem wp_openChild {Q : Bytes → Journal → Prop} {E : StorageError → Journal → Prop}
    {name : String} (hfault : ∀ f j', Struck faults f → SameFiles j j' → E f.error j')
    (hmissing : ∀ j', SameFiles j j' → j.files name = none → E (.missing name) j')
    (hQ : ∀ content j', SameFiles j j' → j.files name = some content → Q content j') :
    Act.wp (openChild faults name) Q E j := by
  refine wp_storageCall hfault fun j' hs => ?_
  cases h : j.files name with
  | some content => exact Act.wp_of_ok (by rw [hs.files, h]) (hQ content j' hs h)
  | none => exact Act.wp_of_error (by rw [hs.files, h]) (hmissing j' hs h)

theorem wp_openFile {Q : Bytes → Journal → Prop} {E : StorageError → Journal → Prop}
    {name : String} (hfault : ∀ f j', Struck faults f → SameFiles j j' → E f.error j')
    (hmissing : ∀ j', SameFiles j j' → j.files name = none → E (.missing name) j')
    (hQ : ∀ content j', SameFiles j j' → j.files name = some content → Q content j') :
    Act.wp (openFile faults name) Q E j := by
  refine (Act.wp_bind _ _).mpr (wp_check hfault fun j₁ h₁ => ?_)
  refine wp_openChild (fun f j' hf h => hfault f j' hf (h₁.trans h)) (fun j' h hn => ?_)
    (fun content j' h hc => ?_)
  · exact hmissing j' (h₁.trans h) (by rw [← h₁.files]; exact hn)
  · exact hQ content j' (h₁.trans h) (by rw [← h₁.files]; exact hc)

/-- `validate_optional_file` answers whether the file is there, or fails. -/
theorem wp_validateOptionalFile {Q : Bool → Journal → Prop} {E : StorageError → Journal → Prop}
    {name : String} (hE : ∀ e j', Raised faults e → SameFiles j j' → E e j')
    (hQ : ∀ j', SameFiles j j' → Q (j.files name).isSome j') :
    Act.wp (validateOptionalFile faults name) Q E j := by
  refine (Act.wp_bind _ _).mpr ((Act.wp_attempt _).mpr (wp_openFile (fun f j' hf h => ?_)
    (fun j' h hn => ?_) fun content j' h hc => ?_))
  · simpa [f.real.1] using hE _ j' hf.raised h
  · have := hQ j' h
    rw [hn] at this
    simpa [StorageError.missing, StorageError.isNotFound] using this
  · have := hQ j' h
    rw [hc] at this
    exact (Act.wp_pure _).mpr this

theorem wp_removeFileIfExists {Q : Bool → Journal → Prop} {E : StorageError → Journal → Prop}
    {name : String} {content : Bytes} (hc : j.files name = some content)
    (hE : ∀ e j', Raised faults e → SameFiles j j' → E e j')
    (hQ : ∀ j', SameFiles j j' →
      Q true { j'.setFile name none with removed := j'.removed ++ [content] }) :
    Act.wp (removeFileIfExists faults name) Q E j := by
  refine (Act.wp_bind _ _).mpr
    (wp_check (fun f j' hf => hE f.error j' hf.raised) fun j₁ h₁ => ?_)
  refine (Act.wp_bind _ _).mpr ((Act.wp_attempt _).mpr (wp_openChild (fun f j' hf h => ?_)
    (fun j' h hn => ?_) fun content' j₂ h₂ hc' => ?_))
  · simpa [f.real.1] using hE _ j' hf.raised (h₁.trans h)
  · rw [h₁.files, hc] at hn
    cases hn
  · rw [h₁.files, hc] at hc'
    cases hc'
    have h₁₂ := h₁.trans h₂
    refine (Act.wp_bind _ _).mpr
      (wp_check (fun f j' hf h => hE _ j' hf.raised (h₁₂.trans h)) fun j₃ h₃ => ?_)
    refine (Act.wp_bind _ _).mpr (wp_storageCall
      (fun f j' hf h => hE _ j' hf.raised ((h₁₂.trans h₃).trans h)) fun j₄ h₄ => ?_)
    exact (Act.wp_update _).mpr ((Act.wp_pure _).mpr (hQ j₄ ((h₁₂.trans h₃).trans h₄)))

/-- A rename onto a free name; the branch for a taken one is not reached. -/
theorem wp_durableRename {Q : Unit → Journal → Prop} {E : StorageError → Journal → Prop}
    {source target : String} {content : Bytes} (hc : j.files source = some content)
    (hfree : j.files target = none) (hE : ∀ e j', Raised faults e → SameFiles j j' → E e j')
    (hQ : ∀ j', SameFiles j j' →
      Q () ((j'.setFile source none).setFile target (some content))) :
    Act.wp (durableRename faults source target) Q E j := by
  refine (Act.wp_bind _ _).mpr
    (wp_check (fun f j' hf => hE f.error j' hf.raised) fun j₁ h₁ => ?_)
  have hc₁ : j₁.files source = some content := by rw [h₁.files, hc]
  refine (Act.wp_bind _ _).mpr (wp_openChild (fun f j' hf h => hE _ j' hf.raised (h₁.trans h))
    (fun j' h hn => absurd (hc₁.symm.trans hn) (by simp)) fun content' j₂ h₂ hc' => ?_)
  rw [hc₁] at hc'
  cases hc'
  have h₁₂ := h₁.trans h₂
  refine (Act.wp_bind _ _).mpr ((Act.wp_attempt _).mpr (wp_openChild (fun f j' hf h => ?_)
    (fun j₃ h₃ hn => ?_) fun content' j' h hc' => ?_))
  · simpa [f.real.1] using hE _ j' hf.raised (h₁₂.trans h)
  · simp only [StorageError.missing, StorageError.isNotFound, beq_self_eq_true, Bool.true_or,
      if_true]
    refine wp_storageCall
      (fun f j' hf h => hE _ j' hf.raised ((h₁₂.trans h₃).trans h)) fun j₄ h₄ => ?_
    exact (Act.wp_update _).mpr (hQ j₄ ((h₁₂.trans h₃).trans h₄))
  · rw [h₁₂.files, hfree] at hc'
    cases hc'

end Calls

/-! ## 3. The shift -/

section Shift

variable {J : JournalConfig} {faults : Faults} {j₀ j j' : Journal}

/-- From `j₀` the shift has come down to slot `i`; the content of the last archive is gone. -/
structure Shifted (J : JournalConfig) (j₀ : Journal) (i : Nat) (j : Journal) : Prop where
  moved : slots J j = shelve (slots J j₀) J.maxArchives i
  others : ∀ n, (∀ k ≤ J.maxArchives, n ≠ slotName J k) → j.files n = j₀.files n
  removed : j.removed
    = j₀.removed ++ if i ≤ J.maxArchives then (slots J j₀ J.maxArchives).toList else []
  loggers : j.loggers = j₀.loggers

theorem Shifted.start (h : SameFiles j₀ j) : Shifted J j₀ (J.maxArchives + 1) j where
  moved := by rw [h.slots J, shelve_start]
  others n _ := by rw [h.files]
  removed := by rw [h.removed, if_neg (by omega), List.append_nil]
  loggers := h.loggers

theorem Shifted.same {i : Nat} (h : Shifted J j₀ i j) (hs : SameFiles j j') :
    Shifted J j₀ i j' where
  moved := by rw [hs.slots J, h.moved]
  others n hn := by rw [hs.files, h.others n hn]
  removed := by rw [hs.removed, h.removed]
  loggers := hs.loggers.trans h.loggers

/-- The file of a slot after one file was set. -/
theorem slots_setFile (j : Journal) (k : Nat) (content : Option Bytes) (i : Nat) :
    slots J (j.setFile (slotName J k) content) i = if i = k then content else slots J j i := by
  by_cases h : i = k
  · rw [if_pos h, h]
    exact if_pos rfl
  · rw [if_neg h]
    exact if_neg fun e => h (slotName_inj J e)

theorem setFile_other (j : Journal) {n name : String} (content : Option Bytes) (h : n ≠ name) :
    (j.setFile name content).files n = j.files n := if_neg h

/-- The round of the last archive. -/
theorem Shifted.remove (h : Shifted J j₀ (J.maxArchives + 1) j) {content : Bytes}
    (hc : slots J j₀ J.maxArchives = some content) (hs : SameFiles j j') :
    Shifted J j₀ J.maxArchives { j'.setFile (slotName J J.maxArchives) none with
      removed := j'.removed ++ [content] } where
  moved := by
    funext i
    rw [shelve_top]
    refine (slots_setFile (J := J) j' J.maxArchives none i).trans ?_
    rw [hs.slots J, h.moved, shelve_start]
  others n hn := by
    refine (setFile_other j' none (hn _ (le_refl _))).trans ?_
    rw [hs.files, h.others n hn]
  removed := by
    rw [if_pos (le_refl _), hc, Option.toList_some]
    show j'.removed ++ [content] = _
    rw [hs.removed, h.removed, if_neg (by omega), List.append_nil]
  loggers := hs.loggers.trans h.loggers

/-- The round of an empty slot. -/
theorem Shifted.skip {i : Nat} (hi : i ≤ J.maxArchives) (h : Shifted J j₀ (i + 1) j)
    (hnone : slots J j₀ i = none) (hs : SameFiles j j') : Shifted J j₀ i j' where
  moved := by
    rw [hs.slots J, h.moved]
    funext k
    rcases Nat.lt_or_ge i J.maxArchives with hlt | hge
    · rw [shelve_round _ hlt]
      by_cases h₁ : k = i + 1
      · rw [if_pos h₁, h₁, shelve_self _ hlt, hnone]
      rw [if_neg h₁]
      by_cases h₂ : k = i
      · rw [if_pos h₂, h₂, shelve_below _ (Nat.lt_succ_self i), hnone]
      · rw [if_neg h₂]
    · obtain rfl : i = J.maxArchives := by omega
      rw [shelve_start, shelve_top]
      by_cases h₂ : k = J.maxArchives
      · rw [if_pos h₂, h₂, hnone]
      · rw [if_neg h₂]
  others n hn := by rw [hs.files, h.others n hn]
  removed := by
    rw [hs.removed, h.removed, if_pos hi]
    by_cases hlt : i + 1 ≤ J.maxArchives
    · rw [if_pos hlt]
    · obtain rfl : i = J.maxArchives := by omega
      rw [if_neg hlt, hnone, Option.toList_none]
  loggers := hs.loggers.trans h.loggers

/-- The round of any other slot moves its content one up. -/
theorem Shifted.move {i : Nat} (hi : i < J.maxArchives) (h : Shifted J j₀ (i + 1) j)
    {content : Bytes} (hc : slots J j₀ i = some content) (hs : SameFiles j j') :
    Shifted J j₀ i ((j'.setFile (slotName J i) none).setFile (slotName J (i + 1))
      (some content)) where
  moved := by
    funext k
    rw [slots_setFile, slots_setFile, hs.slots J, h.moved, shelve_round _ hi, hc]
  others n hn := by
    rw [setFile_other _ _ (hn _ hi), setFile_other _ _ (hn _ hi.le), hs.files, h.others n hn]
  removed := by
    rw [if_pos hi.le]
    show j'.removed = _
    rw [hs.removed, h.removed, if_pos (Nat.succ_le_of_lt hi)]
  loggers := hs.loggers.trans h.loggers

/-- One slot, empty or not: the round of an archive below the last, and the current file. -/
theorem moveSlot_spec {i : Nat} (hi : i < J.maxArchives) (h : Shifted J j₀ (i + 1) j) :
    Act.wp (validateOptionalFile faults (slotName J i) >>= fun there =>
        Act.when there (durableRename faults (slotName J i) (slotName J (i + 1))))
      (fun _ j' => Shifted J j₀ i j')
      (fun e j' => Raised faults e ∧ Shifted J j₀ (i + 1) j') j := by
  refine (Act.wp_bind _ _).mpr
    (wp_validateOptionalFile (fun _ j' hd hs => ⟨hd, h.same hs⟩) fun j₁ h₁ => ?_)
  have hslot : slots J j i = slots J j₀ i := by
    rw [h.moved, shelve_below _ (Nat.lt_succ_self i)]
  cases hc : slots J j i with
  | none =>
    rw [show j.files (slotName J i) = none from hc]
    exact (Act.wp_when _ _).mpr (h.skip hi.le (hslot ▸ hc) h₁)
  | some content =>
    rw [show j.files (slotName J i) = some content from hc]
    have hsource : j₁.files (slotName J i) = some content := by
      rw [h₁.files]
      exact hc
    have htarget : j₁.files (slotName J (i + 1)) = none := by
      rw [h₁.files]
      show slots J j (i + 1) = none
      rw [h.moved, shelve_self _ hi]
    refine (Act.wp_when _ _).mpr (wp_durableRename hsource htarget
      (fun _ j' hd hs => ⟨hd, h.same (h₁.trans hs)⟩) fun j₂ h₂ => ?_)
    exact h.move hi (hslot ▸ hc) (h₁.trans h₂)

theorem rotateRound_spec {i : Nat} (hpos : 0 < i) (hi : i ≤ J.maxArchives)
    (h : Shifted J j₀ (i + 1) j) :
    Act.wp (rotateRound J faults i) (fun _ j' => Shifted J j₀ i j')
      (fun e j' => Raised faults e ∧ Shifted J j₀ (i + 1) j') j := by
  unfold rotateRound
  rw [← slotName_pos J hpos, ← slotName_pos J (Nat.succ_pos i)]
  rcases Nat.lt_or_ge i J.maxArchives with hlt | hge
  · simp only [if_neg (Nat.ne_of_lt hlt)]
    exact moveSlot_spec hlt h
  · obtain rfl : i = J.maxArchives := by omega
    simp only [if_true]
    refine (Act.wp_bind _ _).mpr
      (wp_validateOptionalFile (fun _ j' hd hs => ⟨hd, h.same hs⟩) fun j₁ h₁ => ?_)
    have hslot : slots J j J.maxArchives = slots J j₀ J.maxArchives := by
      rw [h.moved, shelve_start]
    cases hc : slots J j J.maxArchives with
    | none =>
      rw [show j.files (slotName J J.maxArchives) = none from hc]
      exact (Act.wp_when _ _).mpr (h.skip hi (hslot ▸ hc) h₁)
    | some content =>
      rw [show j.files (slotName J J.maxArchives) = some content from hc]
      have hsource : j₁.files (slotName J J.maxArchives) = some content := by
        rw [h₁.files]
        exact hc
      refine (Act.wp_when _ _).mpr ((Act.wp_bind _ _).mpr (wp_removeFileIfExists hsource
        (fun _ j' hd hs => ⟨hd, h.same (h₁.trans hs)⟩) fun j₂ h₂ => ?_))
      exact (Act.wp_pure _).mpr (h.remove (hslot ▸ hc) (h₁.trans h₂))

/-- A storage call failed before the shift was through. -/
def ShiftStopped (J : JournalConfig) (faults : Faults) (j₀ j : Journal) : Prop :=
  Disturbed faults ∧ ∃ i, 0 < i ∧ i ≤ J.maxArchives + 1 ∧ Shifted J j₀ i j

/-- The loop from slot `n` down. -/
theorem rotateLoop_spec : ∀ (n : Nat) (j : Journal), n ≤ J.maxArchives → Shifted J j₀ (n + 1) j →
    Act.wp (Act.forEach (List.range' 1 n).reverse (rotateRound J faults))
      (fun _ j' => Shifted J j₀ 1 j')
      (fun e j' => Raised faults e ∧ ShiftStopped J faults j₀ j') j
  | 0, j, _, h => (Act.wp_ret ()).mpr h
  | n + 1, j, hn, h => by
    rw [List.range'_1_concat, List.reverse_append, Nat.add_comm 1 n]
    refine (Act.wp_andThen _ _).mpr (Act.wp_mono (rotateRound_spec (Nat.succ_pos n) hn h)
      (fun _ j₁ h₁ => rotateLoop_spec n j₁ (by omega) h₁)
      (fun _ j₁ h₁ => ⟨h₁.1, h₁.1.disturbed, n + 1 + 1, by omega, by omega, h₁.2⟩))

/-- **A rotation** shifts every slot; one that fails has stopped at some slot. -/
theorem rotate_spec (h : SameFiles j₀ j) :
    Act.wp (rotate J faults) (fun _ j' => Shifted J j₀ 0 j')
      (fun e j' => Raised faults e ∧ ShiftStopped J faults j₀ j') j := by
  unfold rotate
  refine (Act.wp_bind _ _).mpr (Act.wp_mono
    (rotateLoop_spec J.maxArchives j (le_refl _) (.start h)) (fun _ j₁ h₁ => ?_) fun _ _ h => h)
  rw [← slotName_pos J Nat.one_pos, ← slotName_zero J]
  exact Act.wp_mono (moveSlot_spec J.archivesPositive h₁) (fun _ _ h => h)
    (fun _ _ h => ⟨h.1, h.1.disturbed, 1, by omega, by omega, h.2⟩)

end Shift

/-! ## 4. Everything a call can do -/

section Step

variable {J : JournalConfig} {C : LineCodec} {faults : Faults} {j j' : Journal}

/-- The content of the current file; an absent file counts as an empty one. -/
def currentContent (J : JournalConfig) (j : Journal) : Bytes := (slots J j 0).getD []

/-- An entry of `n` bytes goes into the current file without a rotation. -/
def Fits (J : JournalConfig) (j : Journal) (n : Nat) : Prop :=
  saturatingAdd (currentContent J j).length n ≤ J.maxLogBytes

instance (n : Nat) : Decidable (Fits J j n) := Nat.decLe _ _

/-- `rotate_if_needed` succeeded. -/
def Rotated (J : JournalConfig) (j : Journal) (n : Nat) (j' : Journal) : Prop :=
  Fits J j n ∧ SameFiles j j' ∨ ¬ Fits J j n ∧ Shifted J j 0 j'

/-- Bytes were added to the current file. -/
structure Wrote (J : JournalConfig) (j : Journal) (bytes : Bytes) (j' : Journal) : Prop where
  files : j'.files = (j.setFile J.logFileName (some (currentContent J j ++ bytes))).files
  removed : j'.removed = j.removed

/-- The entry goes into no file, or the call may stop before it changes one. -/
def Refusable (J : JournalConfig) (C : LineCodec) (call : LogCall) : Prop :=
  (∀ b, C.encode call.entry = .ok b → J.maxLogBytes < b.length + 1) ∨ call.fate.lock.isSome ∨
    call.fate.poisoned ∨ Disturbed call.fate.rotation

/-- **Every outcome of a call of `log`.** -/
inductive LogStep (J : JournalConfig) (C : LineCodec) (call : LogCall) (j : Journal) :
    Except AuditError Unit → Journal → Prop where
  /-- It stopped before anything changed. -/
  | refused {e j'} (hwhy : Refusable J C call) (hsame : SameFiles j j') :
      LogStep J C call j (.error e) j'
  /-- The rotation stopped at some slot. -/
  | shifting {e j' b i} (henc : C.encode call.entry = .ok b) (hsize : b.length + 1 ≤ J.maxLogBytes)
      (hfull : ¬ Fits J j (b.length + 1)) (hfault : Disturbed call.fate.rotation) (hpos : 0 < i)
      (hi : i ≤ J.maxArchives + 1) (hshift : Shifted J j i j') : LogStep J C call j (.error e) j'
  /-- The file could not be opened. -/
  | stopped {e j₁ j' b} (henc : C.encode call.entry = .ok b) (hsize : b.length + 1 ≤ J.maxLogBytes)
      (hrot : Rotated J j (b.length + 1) j₁) (hfault : Disturbed call.fate.opening)
      (hsame : SameFiles j₁ j') : LogStep J C call j (.error e) j'
  /-- Some bytes of the line, or none, went into the file. -/
  | torn {e j₁ j' b k} (henc : C.encode call.entry = .ok b) (hsize : b.length + 1 ≤ J.maxLogBytes)
      (hrot : Rotated J j (b.length + 1) j₁)
      (hcut : call.fate.cut = some k ∨ k = 0 ∧ (Disturbed call.fate.opening ∨
        2 ^ 64 ≤ (currentContent J j₁).length + (b.length + 1)))
      (hwrote : Wrote J j₁ ((b ++ [newline]).take k) j') (hloggers : j'.loggers = j.loggers) :
      LogStep J C call j (.error e) j'
  /-- The whole line did. -/
  | appended {j₁ j' b} (henc : C.encode call.entry = .ok b) (hsize : b.length + 1 ≤ J.maxLogBytes)
      (hrot : Rotated J j (b.length + 1) j₁) (hcut : call.fate.cut = none)
      (hroom : (currentContent J j₁).length + (b.length + 1) < 2 ^ 64)
      (hwrote : Wrote J j₁ (b ++ [newline]) j')
      (hloggers : j'.loggers = fun l =>
        if l = call.logger then (j.loggers l).push call.entry else j.loggers l) :
      LogStep J C call j (.ok ()) j'

theorem Rotated.loggers {n : Nat} (h : Rotated J j n j') : j'.loggers = j.loggers := by
  rcases h with ⟨_, h⟩ | ⟨_, h⟩
  · exact h.loggers
  · exact h.loggers

theorem SameFiles.currentContent (h : SameFiles j j') : currentContent J j' = currentContent J j := by
  unfold WinProfile.currentContent
  rw [h.slots J]

theorem SameFiles.fits (h : SameFiles j j') (n : Nat) : Fits J j' n ↔ Fits J j n := by
  unfold Fits
  rw [h.currentContent]

theorem Shifted.from_same {j₀ : Journal} {i : Nat} (hs : SameFiles j₀ j) (h : Shifted J j i j') :
    Shifted J j₀ i j' where
  moved := by rw [h.moved, hs.slots J]
  others n hn := by rw [h.others n hn, hs.files]
  removed := by rw [h.removed, hs.removed, hs.slots J]
  loggers := h.loggers.trans hs.loggers

theorem currentBytes_spec (J : JournalConfig) (faults : Faults) (j : Journal) :
    Act.wp (currentBytes J faults)
      (fun n j' => n = (currentContent J j).length ∧ SameFiles j j')
      (fun e j' => Raised faults e ∧ SameFiles j j') j := by
  unfold currentBytes
  refine (Act.wp_bind _ _).mpr ((Act.wp_attempt _).mpr (wp_openFile (fun f j' hf h => ?_)
    (fun j' h hn => ?_) fun content j₁ h₁ hc => ?_))
  · simpa [f.real.1] using ⟨hf.raised, h⟩
  · have hcur : currentContent J j = [] := by
      rw [currentContent, slots, slotName_zero, hn, Option.getD_none]
    simpa [StorageError.missing, StorageError.isNotFound, hcur] using h
  · have hcur : currentContent J j = content := by
      rw [currentContent, slots, slotName_zero, hc, Option.getD_some]
    refine (Act.wp_bind _ _).mpr
      (wp_check (fun f j' hf h => ⟨hf.raised, h₁.trans h⟩) fun j' h => ?_)
    exact (Act.wp_pure _).mpr ⟨by rw [hcur], h₁.trans h⟩

theorem rotateIfNeeded_spec (J : JournalConfig) (faults : Faults) (n : Nat) (j : Journal) :
    Act.wp (rotateIfNeeded J faults n) (fun _ j' => Rotated J j n j')
      (fun e j' => Raised faults e ∧
        (SameFiles j j' ∨ ¬ Fits J j n ∧ ShiftStopped J faults j j')) j := by
  unfold rotateIfNeeded
  refine (Act.wp_bind _ _).mpr (Act.wp_mono (currentBytes_spec J faults j) (fun c j₁ h₁ => ?_)
    fun _ _ h => ⟨h.1, .inl h.2⟩)
  obtain ⟨rfl, hs⟩ := h₁
  split
  · next hfit => exact (Act.wp_pure _).mpr (.inl ⟨hfit, hs⟩)
  · next hfit =>
    exact Act.wp_mono (rotate_spec hs) (fun _ _ h => .inr ⟨hfit, h⟩)
      fun _ _ h => ⟨h.1, .inr ⟨hfit, h.2⟩⟩

/-- Opening the file for an append leaves it there, with the content it had. -/
theorem openLogForAppend_spec (J : JournalConfig) (faults : Faults) (j : Journal) :
    Act.wp (openLogForAppend J faults)
      (fun before j' => before = currentContent J j ∧ Wrote J j [] j' ∧ j'.loggers = j.loggers)
      (fun _ j' => SameFiles j j' ∧ Disturbed faults) j := by
  have hcur : currentContent J j = (j.files J.logFileName).getD [] := by
    rw [currentContent, slots, slotName_zero]
  unfold openLogForAppend createFile
  refine (Act.wp_bind _ _).mpr ((Act.wp_attempt _).mpr ((Act.wp_bind _ _).mpr
    (wp_check (fun f j' hf h => ?_) fun j₁ h₁ => wp_storageCall (fun f j' hf h => ?_)
      fun j₂ h₂ => ?_)))
  · simpa [f.real.2] using ⟨h, hf.disturbed⟩
  · simpa [f.real.2] using ⟨h₁.trans h, hf.disturbed⟩
  · have h₁₂ := h₁.trans h₂
    cases hf : j.files J.logFileName with
    | none =>
      refine Act.wp_of_ok (by rw [h₁₂.files, hf]) ((Act.wp_pure _).mpr ⟨?_, ⟨?_, ?_⟩, ?_⟩)
      · rw [hcur, hf, Option.getD_none]
      · simp only [Journal.setFile, h₁₂.files, hcur, hf, Option.getD_none, List.append_nil]
      · exact h₁₂.removed
      · exact h₁₂.loggers
    | some content =>
      refine Act.wp_of_error (by rw [h₁₂.files, hf]) ?_
      simp only [StorageError.taken, StorageError.isCollision, beq_self_eq_true, if_true]
      refine wp_openFile (fun f j' hf h => ⟨h₁₂.trans h, hf.disturbed⟩) (fun j' h hn => ?_)
        (fun content' j' h hc => ?_)
      · rw [h₁₂.files, hf] at hn
        cases hn
      · rw [h₁₂.files, hf] at hc
        cases hc
        have hall := h₁₂.trans h
        refine ⟨by rw [hcur, hf, Option.getD_some], ⟨?_, hall.removed⟩, hall.loggers⟩
        funext n
        rw [hall.files]
        by_cases hn : n = J.logFileName
        · simp [Journal.setFile, hn, hf, hcur]
        · simp [Journal.setFile, hn]

theorem Rotated.from_same {n : Nat} {j₀ : Journal} (hs : SameFiles j₀ j) (h : Rotated J j n j') :
    Rotated J j₀ n j' := by
  rcases h with ⟨hfit, h⟩ | ⟨hfit, h⟩
  · exact .inl ⟨(hs.fits n).mp hfit, hs.trans h⟩
  · exact .inr ⟨fun h' => hfit ((hs.fits n).mpr h'), Shifted.from_same hs h⟩

theorem Wrote.same {bytes : Bytes} {j₁ : Journal} (h : Wrote J j bytes j₁) (hs : SameFiles j₁ j') :
    Wrote J j bytes j' := ⟨hs.files.trans h.files, hs.removed.trans h.removed⟩

/-- The append after the file was opened with `before` in it. -/
theorem Wrote.append {bytes : Bytes} {j₁ : Journal} (h : Wrote J j [] j₁) :
    Wrote J j bytes (j₁.setFile J.logFileName (some (currentContent J j ++ bytes))) where
  files := by
    funext n
    by_cases hn : n = J.logFileName
    · simp [Journal.setFile, hn]
    · simp [Journal.setFile, hn, h.files]
  removed := h.removed

/-- The append itself, after the rotation and the opening. -/
theorem appendStep_spec {call : LogCall} {b : Bytes} {j₁ : Journal}
    (henc : C.encode call.entry = .ok b) (hsize : b.length + 1 ≤ J.maxLogBytes)
    (hrot : Rotated J j (b.length + 1) j₁) :
    Act.wp (do
        let before ← Act.mapErr .storage (openLogForAppend J call.fate.opening)
        Act.mapErr .storage (storageCall call.fate.opening (Act.ret ()))
        appendLine J call.fate.cut before (b ++ [newline])
        Act.update fun j => { j with loggers := fun l =>
          if l = call.logger then (j.loggers l).push call.entry else j.loggers l })
      (fun _ j' => LogStep J C call j (.ok ()) j') (fun e j' => LogStep J C call j (.error e) j')
      j₁ := by
  have hlog := hrot.loggers
  refine (Act.wp_bind _ _).mpr ((Act.wp_mapErr _ _).mpr
    (Act.wp_mono (openLogForAppend_spec J call.fate.opening j₁) (fun before j₂ h₂ => ?_)
      fun e j' h => ?_))
  · obtain ⟨rfl, hw, hl⟩ := h₂
    refine (Act.wp_bind _ _).mpr ((Act.wp_mapErr _ _).mpr (wp_check (fun f j' hf h => ?_)
      fun j₃ h₃ => ?_))
    · exact .torn (k := 0) henc hsize hrot (.inr ⟨rfl, .inl hf.disturbed⟩) (hw.same h)
        (h.loggers.trans (hl.trans hlog))
    · have hw₃ := hw.same h₃
      have hl₃ : j₃.loggers = j.loggers := h₃.loggers.trans (hl.trans hlog)
      refine (Act.wp_bind _ _).mpr ?_
      cases hcut : call.fate.cut with
      | some k =>
        exact Act.wp_of_error rfl (.torn (k := k) henc hsize hrot (.inl hcut) hw₃.append hl₃)
      | none =>
        by_cases hroom : (currentContent J j₁).length + (b ++ [newline]).length < 2 ^ 64
        · refine Act.wp_of_ok (if_pos hroom) ((Act.wp_update _).mpr ?_)
          refine .appended henc hsize hrot hcut (by simpa using hroom) ⟨?_, ?_⟩ ?_
          · have hline : Wrote J j₁ (b ++ [newline]) _ := hw₃.append
            exact hline.files
          · exact hw₃.removed
          · show (fun l => _) = _
            simp only [Journal.setFile, hl₃]
        · refine Act.wp_of_error (if_neg hroom) (.torn (k := 0) henc hsize hrot
            (.inr ⟨rfl, .inr ?_⟩) hw₃ hl₃)
          simpa using hroom
  · exact .stopped henc hsize hrot h.2 h.1

/-- **Whatever fails, a call of `log` does one of these.** -/
theorem log_step (J : JournalConfig) (C : LineCodec) (call : LogCall) (j : Journal) :
    LogStep J C call j (log J C call j).1 (log J C call j).2 := by
  refine Act.wp_run (R := LogStep J C call j) ?_
  unfold log
  refine (Act.wp_bind _ _).mpr ((Act.wp_update _).mpr ?_)
  have hs : SameFiles j { j with clock := 0 } := ⟨rfl, rfl, rfl⟩
  cases henc : C.encode call.entry with
  | error text =>
    refine (Act.wp_bind _ _).mpr ((Act.wp_mapErr _ _).mpr ((Act.wp_ofExcept _).mpr ?_))
    refine .refused (.inl fun b hb => ?_) hs
    rw [henc] at hb
    cases hb
  | ok b =>
    refine (Act.wp_bind _ _).mpr ((Act.wp_mapErr _ _).mpr ((Act.wp_ofExcept _).mpr ?_))
    refine (Act.wp_bind _ _).mpr ((Act.wp_guard _ _).mpr ?_)
    split
    · next hsize =>
      have hsize' : b.length + 1 ≤ J.maxLogBytes := by simpa using hsize
      refine (Act.wp_bind _ _).mpr ((Act.wp_mapErr _ _).mpr
        (wp_check (fun f j' hf h => .refused (.inr (.inl ?_)) (hs.trans h)) fun j₁ h₁ => ?_))
      · obtain ⟨_, hf⟩ := hf
        exact Option.isSome_of_eq_some hf
      have hs₁ := hs.trans h₁
      refine (Act.wp_bind _ _).mpr ((Act.wp_guard _ _).mpr ?_)
      split
      · refine (Act.wp_bind _ _).mpr ((Act.wp_mapErr _ _).mpr
          (Act.wp_mono (rotateIfNeeded_spec J call.fate.rotation (b.length + 1) j₁)
            (fun _ j₂ h₂ => ?_) fun e j₂ h₂ => ?_))
        · exact appendStep_spec henc hsize' (h₂.from_same hs₁)
        · obtain ⟨hraised, h₂ | ⟨hfull, hd, i, hpos, hi, h₂⟩⟩ := h₂
          · exact .refused (.inr (.inr (.inr hraised.disturbed))) (hs₁.trans h₂)
          · exact .shifting henc hsize' (fun h => hfull ((hs₁.fits _).mpr h)) hd hpos hi
              (h₂.from_same hs₁)
      · next hpoison => exact .refused (.inr (.inr (.inl (by simpa using hpoison)))) hs₁
    · next hsize =>
      refine .refused (.inl fun b' hb' => ?_) hs
      rw [henc] at hb'
      cases hb'
      simpa using hsize

end Step

end WinProfile
