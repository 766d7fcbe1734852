/-
  File:      WinProfile/Lib/Units.lean
  Subject:   The characters of a lossy text and the UTF-16 units they stand for. Nothing here knows a
             program.

  * `Plain` -- a character below the surrogates; it stands for one unit and for nothing else.
  * `ReadsAs` -- the text of a unit sequence, unit by unit: one unit, or a surrogate pair.
  * `ReadsAs.mem_iff`, `ReadsAs.getLast_iff`, `ReadsAs.eq_iff`, `ReadsAs.takeWhile`, `ReadsAs.upper_iff` --
    what can be asked of the text with plain characters can be asked of the units.
-/
import WinProfile.Lib.Text

namespace WinProfile

/-! ## 1. Plain characters -/

/-- The unit of a character below the surrogates. -/
def unitOf (c : Char) : UInt16 := UInt16.ofNat c.toNat

/-- A character below the surrogates: it stands for its one unit and for nothing else. -/
def Plain (c : Char) : Prop := c.toNat < 0xD800

/-! ## 2. Reading -/

/-- How the characters of a lossy text stand for its units. -/
inductive ReadsAs : Wide → List Char → Prop where
  | nil : ReadsAs [] []
  /-- One unit; only a plain one can be told from the character. -/
  | one {u : UInt16} {c : Char} {w : Wide} {cs : List Char} (h : ∀ d, Plain d → (c = d ↔ u = unitOf d))
      (rest : ReadsAs w cs) : ReadsAs (u :: w) (c :: cs)
  /-- A surrogate pair. -/
  | pair {u v : UInt16} {c : Char} {w : Wide} {cs : List Char}
      (h : ∀ d, Plain d → c ≠ d ∧ u ≠ unitOf d ∧ v ≠ unitOf d) (rest : ReadsAs w cs) :
      ReadsAs (u :: v :: w) (c :: cs)

theorem toNat_unitOf {c : Char} (h : Plain c) : (unitOf c).toNat = c.toNat := by
  unfold Plain at h
  rw [unitOf, UInt16.toNat_ofNat']
  exact Nat.mod_eq_of_lt (by omega)

theorem unitOf_inj {c d : Char} (hc : Plain c) (hd : Plain d) (h : unitOf c = unitOf d) : c = d := by
  have hnat : c.toNat = d.toNat := by rw [← toNat_unitOf hc, h, toNat_unitOf hd]
  rw [← Char.ofNat_toNat c, hnat, Char.ofNat_toNat]

/-- A surrogate is not the unit of a plain character. -/
theorem ne_unitOf {u : UInt16} {d : Char} (hd : Plain d) (hu : 0xD800 ≤ u.toNat) : u ≠ unitOf d := by
  rintro rfl
  rw [toNat_unitOf hd] at hu
  exact absurd hd (Nat.not_lt.mpr hu)

/-- A single unit and the character it is read as. -/
theorem scalarOf_plain (u : UInt16) (d : Char) (hd : Plain d) :
    (scalarOf u).getD (Char.ofNat 0xFFFD) = d ↔ u = unitOf d := by
  unfold Plain at hd
  unfold scalarOf
  split
  · next hsur =>
    have hhigh : 0xD800 ≤ u.toNat := by
      simp only [Bool.or_eq_true, isHighSurrogate_iff, isLowSurrogate_iff] at hsur
      omega
    refine iff_of_false (fun h => ?_) (ne_unitOf hd hhigh)
    rw [← h] at hd
    exact absurd hd (by decide)
  · next hsur =>
    simp only [Bool.or_eq_true, not_or, isHighSurrogate_iff, isLowSurrogate_iff] at hsur
    have hlt := u.toNat_lt
    have hchar : (Char.ofNat u.toNat).toNat = u.toNat :=
      toNat_char (by simp only [Nat.isValidChar]; omega)
    constructor
    · intro h
      have hd' : (Char.ofNat u.toNat) = d := h
      rw [unitOf, ← hd', hchar]
      simp
    · intro h
      show Char.ofNat u.toNat = d
      rw [h, toNat_unitOf hd, Char.ofNat_toNat]

/-- The character of a surrogate pair is not plain. -/
theorem pairChar_ne {u v : UInt16} {d : Char} (hu : isHighSurrogate u = true)
    (hv : isLowSurrogate v = true) (hd : Plain d) :
    Char.ofNat (0x10000 + (u.toNat - 0xD800) * 0x400 + (v.toNat - 0xDC00)) ≠ d := by
  rw [isHighSurrogate_iff] at hu
  rw [isLowSurrogate_iff] at hv
  have hchar : (Char.ofNat (0x10000 + (u.toNat - 0xD800) * 0x400 + (v.toNat - 0xDC00))).toNat
      = 0x10000 + (u.toNat - 0xD800) * 0x400 + (v.toNat - 0xDC00) :=
    toNat_char (by simp only [Nat.isValidChar]; omega)
  intro h
  rw [h] at hchar
  unfold Plain at hd
  omega

theorem reads_decodeUnits : ∀ w : Wide,
    ReadsAs w ((decodeUnits w).map (·.getD (Char.ofNat 0xFFFD)))
  | [] => .nil
  | [u] => .one (scalarOf_plain u) .nil
  | u :: v :: rest => by
    rw [decodeUnits]
    split
    · next hpair =>
      obtain ⟨hu, hv⟩ := Bool.and_eq_true_iff.mp hpair
      have hu' := ((isHighSurrogate_iff u).mp hu).1
      have hv' := ((isLowSurrogate_iff v).mp hv).1
      rw [List.map_cons, Option.getD_some]
      exact .pair (fun d hd => ⟨pairChar_ne hu hv hd, ne_unitOf hd hu', ne_unitOf hd (by omega)⟩)
        (reads_decodeUnits rest)
    · rw [List.map_cons]
      exact .one (scalarOf_plain u) (reads_decodeUnits (v :: rest))

theorem reads_toStringLossy (w : Wide) : ReadsAs w (toStringLossy w).toList := by
  rw [toStringLossy, String.toList_ofList]
  exact reads_decodeUnits w

/-! ## 3. Questions with plain characters -/

namespace ReadsAs

variable {w : Wide} {cs : List Char} {d : Char}

theorem nil_iff (h : ReadsAs w cs) : cs = [] ↔ w = [] := by
  cases h <;> simp

theorem mem_iff (h : ReadsAs w cs) (hd : Plain d) : d ∈ cs ↔ unitOf d ∈ w := by
  induction h with
  | nil => simp
  | one h _ ih =>
    rw [List.mem_cons, List.mem_cons, ih, eq_comm, h d hd, eq_comm]
  | pair h _ ih =>
    obtain ⟨hc, hu, hv⟩ := h d hd
    simp [ih, hc.symm, hu.symm, hv.symm]

theorem getLast_iff (h : ReadsAs w cs) (hd : Plain d) :
    cs.getLast? = some d ↔ w.getLast? = some (unitOf d) := by
  induction h with
  | nil => simp
  | @one u c w cs h rest ih =>
    cases hcs : cs with
    | nil =>
      have hw : w = [] := rest.nil_iff.mp hcs
      simp [hw, h d hd]
    | cons a as =>
      have hw : w ≠ [] := fun hw => by simp [rest.nil_iff.mpr hw] at hcs
      obtain ⟨b, bs, rfl⟩ := List.exists_cons_of_ne_nil hw
      rw [List.getLast?_cons_cons, List.getLast?_cons_cons, ← hcs]
      exact ih
  | @pair u v c w cs h rest ih =>
    obtain ⟨hc, hu, hv⟩ := h d hd
    cases hcs : cs with
    | nil =>
      have hw : w = [] := rest.nil_iff.mp hcs
      simp [hw, hc, hv]
    | cons a as =>
      have hw : w ≠ [] := fun hw => by simp [rest.nil_iff.mpr hw] at hcs
      obtain ⟨b, bs, rfl⟩ := List.exists_cons_of_ne_nil hw
      rw [List.getLast?_cons_cons, List.getLast?_cons_cons, List.getLast?_cons_cons, ← hcs]
      exact ih

/-- A text of plain characters. -/
theorem eq_iff (h : ReadsAs w cs) :
    ∀ {t : List Char}, (∀ d ∈ t, Plain d) → (cs = t ↔ w = t.map unitOf) := by
  induction h with
  | nil =>
    intro t _
    cases t <;> simp
  | one h _ ih =>
    intro t ht
    cases t with
    | nil => simp
    | cons d t =>
      rw [List.map_cons, List.cons.injEq, List.cons.injEq, h d (ht d List.mem_cons_self),
        ih fun e he => ht e (List.mem_cons_of_mem _ he)]
  | pair h _ ih =>
    intro t ht
    cases t with
    | nil => simp
    | cons d t =>
      obtain ⟨hc, hu, _⟩ := h d (ht d List.mem_cons_self)
      simp [hc, hu]

/-- The part before the first plain character. -/
theorem takeWhile (h : ReadsAs w cs) (hd : Plain d) :
    ReadsAs (w.takeWhile (· != unitOf d)) (cs.takeWhile (· != d)) := by
  induction h with
  | nil => exact .nil
  | @one u c w cs h rest ih =>
    by_cases hc : c = d
    · have hu : u = unitOf d := (h d hd).mp hc
      rw [List.takeWhile_cons_of_neg (by simpa using hu),
        List.takeWhile_cons_of_neg (by simpa using hc)]
      exact .nil
    · have hu : u ≠ unitOf d := fun hu => hc ((h d hd).mpr hu)
      rw [List.takeWhile_cons_of_pos (by simpa using hu),
        List.takeWhile_cons_of_pos (by simpa using hc)]
      exact .one h ih
  | @pair u v c w cs h rest ih =>
    obtain ⟨hc, hu, hv⟩ := h d hd
    rw [List.takeWhile_cons_of_pos (by simpa using hu),
      List.takeWhile_cons_of_pos (by simpa using hv), List.takeWhile_cons_of_pos (by simpa using hc)]
    exact .pair h ih

end ReadsAs

/-! ## 4. Capitals -/

/-- `u8::to_ascii_uppercase` on a unit. -/
def upperUnit (u : UInt16) : UInt16 := if 0x61 ≤ u ∧ u ≤ 0x7A then u - 0x20 else u

theorem upperUnit_def (u : UInt16) (_ : u < 0x80) :
    upperUnit u = if 0x61 ≤ u ∧ u ≤ 0x7A then u - 0x20 else u := rfl

theorem isLower_iff {u : UInt16} {c : Char} (h : ∀ d, Plain d → (c = d ↔ u = unitOf d)) :
    ('a' ≤ c ∧ c ≤ 'z') ↔ 0x61 ≤ u ∧ u ≤ 0x7A := by
  simp only [Char.le_def, UInt32.le_iff_toNat_le, UInt16.le_iff_toNat_le]
  show (0x61 ≤ c.toNat ∧ c.toNat ≤ 0x7A) ↔ (0x61 ≤ u.toNat ∧ u.toNat ≤ 0x7A)
  constructor
  · intro hc
    have hplain : Plain c := by
      unfold Plain
      omega
    rw [(h c hplain).mp rfl, toNat_unitOf hplain]
    exact hc
  · intro hu
    have hchar : (Char.ofNat u.toNat).toNat = u.toNat :=
      toNat_char (by simp only [Nat.isValidChar]; omega)
    have hplain : Plain (Char.ofNat u.toNat) := by
      unfold Plain
      omega
    have hunit : u = unitOf (Char.ofNat u.toNat) := by
      rw [unitOf, hchar]
      simp
    rw [(h _ hplain).mpr hunit, hchar]
    exact hu

theorem asciiUpper_iff {u : UInt16} {c d : Char} (h : ∀ d, Plain d → (c = d ↔ u = unitOf d))
    (hd : Plain d) : asciiUpper c = d ↔ upperUnit u = unitOf d := by
  unfold asciiUpper upperUnit
  by_cases hlow : 'a' ≤ c ∧ c ≤ 'z'
  · have hu := (isLower_iff h).mp hlow
    rw [if_pos (by simpa using hlow), if_pos hu]
    rw [UInt16.le_iff_toNat_le, UInt16.le_iff_toNat_le] at hu
    have hu₁ : 0x61 ≤ u.toNat := hu.1
    have hu₂ : u.toNat ≤ 0x7A := hu.2
    have hplain : Plain c := by
      have hle : c.toNat ≤ 0x7A := hlow.2
      unfold Plain
      omega
    have hunit : u = unitOf c := (h c hplain).mp rfl
    have hnat : u.toNat = c.toNat := by rw [hunit, toNat_unitOf hplain]
    have hup : (Char.ofNat (c.toNat - 32)).toNat = c.toNat - 32 :=
      toNat_char (by simp only [Nat.isValidChar]; omega)
    have hup' : Plain (Char.ofNat (c.toNat - 32)) := by
      unfold Plain
      omega
    have hsub : u - 0x20 = unitOf (Char.ofNat (c.toNat - 32)) := by
      refine UInt16.toNat_inj.mp ?_
      rw [toNat_unitOf hup', hup, UInt16.toNat_sub_of_le _ _ (by
        rw [UInt16.le_iff_toNat_le]
        exact (by decide : (0x20 : UInt16).toNat ≤ 0x61).trans hu₁), hnat]
      rfl
    rw [hsub]
    exact ⟨fun he => he ▸ rfl, unitOf_inj hup' hd⟩
  · rw [if_neg (by simpa using hlow), if_neg fun hu => hlow ((isLower_iff h).mpr hu)]
    exact h d hd

/-- A text in capitals, as units. -/
theorem ReadsAs.upper_iff {w : Wide} {cs : List Char} (h : ReadsAs w cs) :
    ∀ {t : List Char}, (∀ d ∈ t, Plain d) → (cs.map asciiUpper = t ↔ w.map upperUnit = t.map unitOf) := by
  induction h with
  | nil =>
    intro t _
    cases t <;> simp
  | one h _ ih =>
    intro t ht
    cases t with
    | nil => simp
    | cons d t =>
      simp only [List.map_cons, List.cons.injEq]
      rw [asciiUpper_iff h (ht d List.mem_cons_self),
        ih fun e he => ht e (List.mem_cons_of_mem _ he)]
  | @pair u v c w cs h _ ih =>
    intro t ht
    cases t with
    | nil => simp
    | cons d t =>
      have hd := ht d List.mem_cons_self
      have hlarge : ∀ e, Plain e → (c = e ↔ u = unitOf e) := fun e he =>
        iff_of_false (h e he).1 (h e he).2.1
      have hne : upperUnit u ≠ unitOf d := by
        by_cases hlow : 0x61 ≤ u ∧ u ≤ 0x7A
        · have hc := (isLower_iff hlarge).mpr hlow
          have hplain : Plain c := Nat.lt_of_le_of_lt hc.2 (by decide)
          exact absurd rfl (h c hplain).1
        · rw [upperUnit, if_neg hlow]
          exact (h d hd).2.1
      simp only [List.map_cons, List.cons.injEq, hne, false_and, iff_false, not_and]
      exact fun he => absurd ((asciiUpper_iff hlarge hd).mp he) hne

/-! ## 5. Encoded strings -/

/-- A string that is encoded is read back. -/
theorem toStringLossy_encodeWide (s : String) : toStringLossy (encodeWide s) = s := by
  rw [toStringLossy, encodeWide, decodeUnits_encode, List.map_map]
  simp [Function.comp_def]

theorem encodeWide_plain {s : String} (h : ∀ c ∈ s.toList, Plain c) :
    encodeWide s = s.toList.map unitOf := by
  have hone : ∀ c ∈ s.toList, encodeChar c = [unitOf c] := by
    intro c hc
    have hlt : c.toNat < 0x10000 := Nat.lt_trans (h c hc) (by decide)
    rw [encodeChar, if_pos hlt]
    rfl
  rw [encodeWide, List.flatMap_congr hone, List.map_eq_flatMap]

end WinProfile
