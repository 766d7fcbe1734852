/-
  File:      WinProfile/Win32/NameRules.lean
  Subject:   The two `validate_component`s, of secure_fs.rs and of storage.rs: what each admits, and
             on which names they differ.

  * `secure_ok_iff` -- the one that asks the path parser admits a plain name with separators and
    single dots behind it, and a NUL anywhere in the name.
  * `storage_ok_iff` -- the one that scans characters admits plain names without NUL.
  * `agrees_iff` -- they agree, and admit single components only, exactly on the names that have
    neither of these.
-/
import WinProfile.Lib.Pieces
import WinProfile.Lib.Units
import WinProfile.Snapshot.Store
import WinProfile.Win32.SecureFs

namespace WinProfile

open WinPath (backslash slash colon dot isSep components pieces PlainName Ignored)

/-! ## 1. The rules -/

/-- `secure_fs::validate_component` accepts the name, whatever path it is to be reported with. -/
def SecureOk (name : Wide) : Prop := ∀ path, validateComponent name path = .ok ()

/-- `storage::validate_component` accepts the name. -/
def StorageOk (name : Wide) : Prop := Snapshot.validateComponent name = .ok ()

/-- A name that denotes an immediate child of a directory. -/
structure SingleComponent (name : Wide) : Prop where
  nonempty : name ≠ []
  ne_dot : name ≠ [dot]
  ne_dots : name ≠ [dot, dot]
  plain : ∀ u ∈ name, u ≠ backslash ∧ u ≠ slash ∧ u ≠ colon ∧ u ≠ 0

/-- The two validators say the same of the name, and accept it only if it is a single component. -/
structure Agrees (name : Wide) : Prop where
  same : SecureOk name ↔ StorageOk name
  secure : SecureOk name → SingleComponent name
  storage : StorageOk name → SingleComponent name

/-- A plain name with separators and single dots behind it, or with a NUL in it. -/
def Disputed (name : Wide) : Prop :=
  ∃ front tail, name = front ++ tail ∧ PlainName front ∧ Ignored tail ∧ (tail ≠ [] ∨ 0 ∈ front)

/-! ## 2. The validators -/

/-- **The path parser's idea of a component.** -/
theorem secure_ok_iff (name : Wide) :
    SecureOk name ↔ ∃ front tail, name = front ++ tail ∧ PlainName front ∧ Ignored tail := by
  rw [← WinPath.components_single]
  constructor
  · intro h
    have h := h []
    unfold validateComponent at h
    split at h
    · next x hx =>
      split at h
      · cases h
      · next hgood =>
        simp only [Bool.or_eq_true, decide_eq_true_eq, List.contains_iff_mem, not_or] at hgood
        exact ⟨hgood.1, hgood.2, x, hx⟩
    · cases h
  · intro ⟨hne, hcolon, x, hx⟩ path
    simp [validateComponent, hx, hne, hcolon]

theorem singleComponent_iff (name : Wide) :
    SingleComponent name ↔ PlainName name ∧ 0 ∉ name := by
  constructor
  · intro h
    refine ⟨⟨h.nonempty, h.ne_dot, h.ne_dots, fun u hu => ?_, fun hc => ?_⟩, fun h0 => ?_⟩
    · exact WinPath.isSep_eq_false.mpr ⟨(h.plain u hu).1, (h.plain u hu).2.1⟩
    · exact (h.plain _ hc).2.2.1 rfl
    · exact (h.plain _ h0).2.2.2 rfl
  · intro ⟨h, h0⟩
    refine ⟨h.nonempty, h.ne_dot, h.ne_dots, fun u hu => ?_⟩
    obtain ⟨hb, hs⟩ := WinPath.isSep_eq_false.mp (h.noSep u hu)
    exact ⟨hb, hs, fun hc => h.noColon (hc ▸ hu), fun hz => h0 (hz ▸ hu)⟩

/-- **The scan of characters.** -/
theorem storage_ok_iff (name : Wide) : StorageOk name ↔ SingleComponent name := by
  have hreads := reads_toStringLossy name
  have hplain : ∀ c ∈ ['.', '\\', '/', ':', Char.ofNat 0], c.toNat < 0xD800 :=
    forall_mem_of_all (by decide)
  have hdot : Plain '.' := hplain '.' (by simp)
  have hempty : toStringLossy name = "" ↔ name = [] := by
    rw [← String.toList_inj]
    exact hreads.nil_iff
  have hone : toStringLossy name = "." ↔ name = [dot] := by
    rw [← String.toList_inj]
    exact hreads.eq_iff (t := ['.']) (by simpa using hdot)
  have htwo : toStringLossy name = ".." ↔ name = [dot, dot] := by
    rw [← String.toList_inj]
    exact hreads.eq_iff (t := ['.', '.']) (by simpa using hdot)
  have hback := hreads.mem_iff (hplain '\\' (by simp))
  have hslash := hreads.mem_iff (hplain '/' (by simp))
  have hcolon := hreads.mem_iff (hplain ':' (by simp))
  have hnul := hreads.mem_iff (hplain (Char.ofNat 0) (by simp))
  rw [StorageOk, Snapshot.validateComponent]
  simp only [hempty, hone, htwo, hback, hslash, hcolon, hnul]
  have hunits : unitOf '\\' = backslash ∧ unitOf '/' = slash ∧ unitOf ':' = colon ∧
      unitOf (Char.ofNat 0) = 0 := by decide
  obtain ⟨hb, hs, hc, hz⟩ := hunits
  rw [hb, hs, hc, hz]
  split
  · next hbad =>
    refine iff_of_false (fun h => by cases h) fun h => ?_
    rcases hbad with h' | h' | h' | h' | h' | h' | h'
    · exact h.nonempty h'
    · exact h.ne_dot h'
    · exact h.ne_dots h'
    · exact (h.plain _ h').1 rfl
    · exact (h.plain _ h').2.1 rfl
    · exact (h.plain _ h').2.2.1 rfl
    · exact (h.plain _ h').2.2.2 rfl
  · next hgood =>
    push Not at hgood
    obtain ⟨h₁, h₂, h₃, h₄, h₅, h₆, h₇⟩ := hgood
    refine iff_of_true rfl ⟨h₁, h₂, h₃, fun u hu => ?_⟩
    exact ⟨fun h => h₄ (h ▸ hu), fun h => h₅ (h ▸ hu), fun h => h₆ (h ▸ hu), fun h => h₇ (h ▸ hu)⟩

/-! ## 3. Where they differ -/

/-- What the scan accepts, the parser accepts. -/
theorem StorageOk.secure {name : Wide} (h : StorageOk name) : SecureOk name := by
  have hplain := ((singleComponent_iff name).mp ((storage_ok_iff name).mp h)).1
  exact (secure_ok_iff name).mpr ⟨name, [], (List.append_nil name).symm, hplain, .inl rfl⟩

/-- **The validators agree on the names that are not disputed, and on no others.** -/
theorem agrees_iff (name : Wide) : Agrees name ↔ ¬ Disputed name := by
  constructor
  · intro h ⟨front, tail, hname, hfront, htail, hbad⟩
    have hsecure := (secure_ok_iff name).mpr ⟨front, tail, hname, hfront, htail⟩
    obtain ⟨hplain, h0⟩ := (singleComponent_iff name).mp (h.secure hsecure)
    rcases hbad with hne | hzero
    · rcases htail with rfl | ⟨s, rest, rfl, hs, _⟩
      · exact hne rfl
      · have hin : s ∈ name := by
          rw [hname]
          exact List.mem_append_right _ List.mem_cons_self
        rw [hplain.noSep s hin] at hs
        cases hs
    · exact h0 (hname ▸ List.mem_append_left _ hzero)
  · intro h
    have hsame : SecureOk name → StorageOk name := by
      intro hsecure
      obtain ⟨front, tail, hname, hfront, htail⟩ := (secure_ok_iff name).mp hsecure
      have hnil : tail = [] := by
        by_contra hne
        exact h ⟨front, tail, hname, hfront, htail, .inl hne⟩
      have h0 : 0 ∉ front := fun h0 => h ⟨front, tail, hname, hfront, htail, .inr h0⟩
      have hfrontname : name = front := by rw [hname, hnil, List.append_nil]
      exact (storage_ok_iff name).mpr
        ((singleComponent_iff name).mpr (hfrontname ▸ ⟨hfront, h0⟩))
    exact ⟨⟨hsame, StorageOk.secure⟩, fun hs => (storage_ok_iff name).mp (hsame hs),
      (storage_ok_iff name).mp⟩

theorem secure_ok_of_components {name x : Wide} (h : components name = [.normal x])
    (hne : name ≠ []) (hcolon : colon ∉ name) : SecureOk name :=
  (secure_ok_iff name).mpr (WinPath.components_single.mp ⟨hne, hcolon, x, h⟩)

/-- The path parser lets a NUL and a separator at the end through; neither name is a single
component. -/
theorem nul_and_separator_disputed : ¬ Agrees [0x61, 0, 0x62] ∧ ¬ Agrees [0x61, backslash] := by
  constructor
  · intro h
    have hbad := h.secure (secure_ok_of_components (x := [0x61, 0, 0x62]) (by decide) (by decide)
      (by decide))
    exact (hbad.plain 0 (by decide)).2.2.2 rfl
  · intro h
    have hbad := h.secure (secure_ok_of_components (x := [0x61]) (by decide) (by decide)
      (by decide))
    exact (hbad.plain backslash (by decide)).1 rfl

end WinProfile
