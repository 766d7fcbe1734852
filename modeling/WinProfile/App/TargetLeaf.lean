/-
  File:      WinProfile/App/TargetLeaf.lean
  Subject:   The target path that the folder picker writes: when `release_absolute_path` accepts it
             and its parent is the directory that was picked.

  * `validTargetLeaf_iff` -- the leaf rule of the window and the component rule of the migration
    are the same rule.
  * `DeviceLike` -- an account name whose default leaf starts with a device name and a dot, such as
    `con.smith`; `default_leaf_iff` -- the default leaf is valid for all other names.
  * `target_proposed_iff` -- the path that is written is the one that was picked, exactly when the
    directory is well-formed UTF-16 and the leaf was kept or could be derived.
-/
import Mathlib.Data.List.DropRight
import WinProfile.App.Desk
import WinProfile.Migration.Grammar

namespace WinProfile

open WinPath (backslash colon dot isSep join Bare)
open Migration (ReleaseComponent ReleasePath devices validateWindowsComponent_ok_iff)

/-! ## 1. The two rules -/

/-- **`valid_target_leaf` and `validate_windows_component` accept the same names.** -/
theorem validTargetLeaf_iff (name : Wide) (label : String) :
    validTargetLeaf name = true ↔ validateWindowsComponent name label = .ok () := by
  unfold validTargetLeaf validateWindowsComponent
  simp only [show invalidLeafChar = fun c => c.toNat ≤ 0x1F || forbiddenChars.contains c.toNat
    from rfl]
  split
  · exact iff_of_false Bool.false_ne_true nofun
  · rw [Bool.not_eq_true']
    split
    · next h => exact iff_of_false (by rw [h]; exact Bool.noConfusion) nofun
    · next h => exact iff_of_true (by simpa using h) rfl

theorem validTargetLeaf_iff_component (name : Wide) :
    validTargetLeaf name = true ↔ ReleaseComponent name :=
  (validTargetLeaf_iff name "").trans (validateWindowsComponent_ok_iff name "")

/-! ## 2. The default leaf -/

/-- The characters that `default_target_leaf` trims. -/
def edgeChar (c : Char) : Bool := c == '.' || c == ' ' || c == '-'

/-- The characters of an account name that leave nothing at an end of the leaf. -/
def fillerChar (c : Char) : Bool := edgeChar c || invalidLeafChar c

/-- Behind the fillers in front stands a device name and a dot, and later something that is kept. -/
def DeviceLike (username : String) : Prop :=
  ∃ stem rest, (trim username).toList.dropWhile fillerChar = stem ++ '.' :: rest ∧
    toAsciiUppercase (String.ofList stem) ∈ devices ∧ ∃ c ∈ rest, fillerChar c = false

theorem sanitizeLeaf_cons {c : Char} (cs : List Char) (b : Bool) (h : invalidLeafChar c = false) :
    sanitizeLeaf b (c :: cs) = c :: sanitizeLeaf false cs := by
  simp [sanitizeLeaf, h]

theorem sanitizeLeaf_invalid {c : Char} (cs : List Char) (b : Bool) (h : invalidLeafChar c = true) :
    sanitizeLeaf b (c :: cs) = (if b then [] else ['-']) ++ sanitizeLeaf true cs := by
  simp [sanitizeLeaf, h]

/-- No character of the result is invalid. -/
theorem valid_of_mem_sanitize : ∀ {b : Bool} {cs : List Char} {c : Char}, c ∈ sanitizeLeaf b cs →
    invalidLeafChar c = false
  | _, [], _, h => nomatch h
  | b, d :: cs, c, h => by
    cases hd : invalidLeafChar d with
    | true =>
      rw [sanitizeLeaf_invalid cs b hd, List.mem_append] at h
      rcases h with h | h
      · cases b
        · rw [List.mem_singleton.mp h]
          decide
        · cases h
      · exact valid_of_mem_sanitize h
    | false =>
      rw [sanitizeLeaf_cons cs b hd] at h
      rcases List.mem_cons.mp h with rfl | h
      · exact hd
      · exact valid_of_mem_sanitize h

/-- Trimming the front of the result is the same as dropping the fillers of the name. -/
theorem dropWhile_sanitize : ∀ (b : Bool) (cs : List Char),
    (sanitizeLeaf b cs).dropWhile edgeChar = sanitizeLeaf false (cs.dropWhile fillerChar)
  | _, [] => rfl
  | b, c :: cs => by
    cases hinv : invalidLeafChar c with
    | true =>
      have ih := dropWhile_sanitize true cs
      rw [sanitizeLeaf_invalid cs b hinv, List.dropWhile_cons_of_pos (by simp [fillerChar, hinv]),
        ← ih]
      cases b <;> rfl
    | false =>
      rw [sanitizeLeaf_cons cs b hinv]
      cases hedge : edgeChar c with
      | true =>
        rw [List.dropWhile_cons_of_pos hedge, List.dropWhile_cons_of_pos (by simp [fillerChar, hedge])]
        exact dropWhile_sanitize false cs
      | false =>
        rw [List.dropWhile_cons_of_neg (by simp [hedge]),
          List.dropWhile_cons_of_neg (by simp [fillerChar, hedge, hinv]),
          sanitizeLeaf_cons cs false hinv]

/-- Something of the result is kept exactly when something of the name is. -/
theorem exists_sanitize : ∀ (b : Bool) (cs : List Char),
    (∃ c ∈ sanitizeLeaf b cs, edgeChar c = false) ↔ ∃ c ∈ cs, fillerChar c = false
  | b, [] => by simp [sanitizeLeaf]
  | b, d :: cs => by
    cases hinv : invalidLeafChar d with
    | true =>
      have ih := exists_sanitize true cs
      have hfill : fillerChar d = true := by simp [fillerChar, hinv]
      have hhyphen : edgeChar '-' = true := rfl
      rw [sanitizeLeaf_invalid cs b hinv]
      cases b <;> simp [hfill, hhyphen, ih]
    | false =>
      have ih := exists_sanitize false cs
      have hfill : fillerChar d = edgeChar d := by simp [fillerChar, hinv]
      rw [sanitizeLeaf_cons cs b hinv]
      simp [hfill, ih]

/-- The result up to a dot, when it has no hyphen, is the name up to that dot. -/
theorem sanitize_stem {stem : List Char} (h : ∀ c ∈ stem, invalidLeafChar c = false) (b : Bool)
    (rest : List Char) :
    sanitizeLeaf b (stem ++ '.' :: rest) = stem ++ '.' :: sanitizeLeaf false rest := by
  induction stem generalizing b with
  | nil => exact sanitizeLeaf_cons rest b (by decide)
  | cons c stem ih =>
    rw [List.cons_append, sanitizeLeaf_cons _ b (h c List.mem_cons_self),
      ih (fun d hd => h d (List.mem_cons_of_mem _ hd))]
    rfl

theorem stem_of_sanitize : ∀ {stem cs rest : List Char}, '-' ∉ stem →
    sanitizeLeaf false cs = stem ++ '.' :: rest →
    ∃ more, cs = stem ++ '.' :: more ∧ rest = sanitizeLeaf false more
  | stem, [], rest, _, h => by
    cases stem <;> cases h
  | stem, c :: cs, rest, hstem, h => by
    cases hinv : invalidLeafChar c with
    | true =>
      rw [sanitizeLeaf_invalid cs false hinv] at h
      cases stem with
      | nil => exact absurd (List.cons.inj h).1 (by decide)
      | cons d stem => exact absurd ((List.cons.inj h).1 ▸ List.mem_cons_self) hstem
    | false =>
      rw [sanitizeLeaf_cons cs false hinv] at h
      cases stem with
      | nil =>
        obtain ⟨hc, hrest⟩ := List.cons.inj h
        exact ⟨cs, by rw [hc]; rfl, hrest.symm⟩
      | cons d stem =>
        obtain ⟨hc, htail⟩ := List.cons.inj h
        obtain ⟨more, hcs, hrest⟩ := stem_of_sanitize
          (fun hin => hstem (List.mem_cons_of_mem _ hin)) htail
        exact ⟨more, by rw [hc, hcs]; rfl, hrest⟩

/-- What is left of the account name. -/
def leafBase (username : String) : List Char :=
  (sanitizeLeaf false ((trim username).toList.dropWhile fillerChar)).rdropWhile edgeChar

/-- The base is the front of the sanitized name. -/
theorem sanitize_eq_base (username : String) :
    ∃ trimmed, sanitizeLeaf false ((trim username).toList.dropWhile fillerChar) =
      leafBase username ++ trimmed := by
  obtain ⟨trimmed, h⟩ := List.rdropWhile_prefix edgeChar
    (sanitizeLeaf false ((trim username).toList.dropWhile fillerChar))
  exact ⟨trimmed, h.symm⟩

/-- The last character of the base is one that is kept. -/
theorem leafBase_last {username : String} {c : Char} (h : (leafBase username).getLast? = some c) :
    edgeChar c = false := by
  have hne : leafBase username ≠ [] := by
    intro hnil
    rw [hnil] at h
    cases h
  have hlast := List.rdropWhile_last_not edgeChar
    (sanitizeLeaf false ((trim username).toList.dropWhile fillerChar)) hne
  rw [List.getLast?_eq_some_getLast hne] at h
  rw [← Option.some.inj h]
  exact Bool.eq_false_iff.mpr hlast

theorem defaultTargetLeaf_eq (username : String) :
    defaultTargetLeaf username = encodeWide (String.ofList
      ((if leafBase username = [] then "profile".toList else leafBase username) ++
        "-migrated".toList)) := by
  have hbase : trimMatches (fun c => c == '.' || c == ' ' || c == '-')
      (String.ofList (sanitizeLeaf false (trim username).toList)) =
        String.ofList (leafBase username) := by
    rw [trimMatches, trimEndBy, String.toList_ofList, String.toList_ofList, leafBase,
      ← dropWhile_sanitize]
    rfl
  rw [defaultTargetLeaf, hbase]
  refine congrArg encodeWide (String.toList_inj.mp ?_)
  rw [String.toList_append, String.toList_ofList]
  by_cases hnil : leafBase username = []
  · rw [hnil]
    rfl
  · have hne : String.ofList (leafBase username) ≠ "" := by
      intro h
      exact hnil (by simpa using congrArg String.toList h)
    rw [if_neg hnil, if_neg hne, String.toList_ofList, String.toList_ofList]

/-- The rule of a component, asked of a text. -/
theorem component_encodeWide (cs : List Char) :
    ReleaseComponent (encodeWide (String.ofList cs)) ↔
      cs ≠ [] ∧ cs.getLast? ≠ some '.' ∧ cs.getLast? ≠ some ' ' ∧
        (∀ c ∈ cs, invalidLeafChar c = false) ∧
        toAsciiUppercase (String.ofList (cs.takeWhile (· != '.'))) ∉ devices := by
  rw [← validTargetLeaf_iff_component, validTargetLeaf]
  simp only [toStringLossy_encodeWide, String.toList_ofList, Migration.splitAtChar_head]
  split
  · next hbad =>
    refine iff_of_false Bool.false_ne_true ?_
    intro ⟨h₁, h₂, h₃, h₄, _⟩
    obtain ⟨c, hc, hinv⟩ := List.any_eq_true.mp (hbad.resolve_left h₁ |>.resolve_left h₂
      |>.resolve_left h₃)
    rw [h₄ c hc] at hinv
    cases hinv
  · next hgood =>
    push Not at hgood
    obtain ⟨h₁, h₂, h₃, h₄⟩ := hgood
    have hvalid : ∀ c ∈ cs, invalidLeafChar c = false := by
      intro c hc
      rw [Bool.eq_false_iff]
      exact fun h => h₄ (List.any_eq_true.mpr ⟨c, hc, h⟩)
    rw [and_iff_right h₁, and_iff_right h₂, and_iff_right h₃, and_iff_right hvalid,
      ← Migration.isReserved_iff, Bool.not_eq_true', Bool.not_eq_true]

theorem device_chars : ∀ device ∈ devices, ∀ c ∈ device.toList,
    c ≠ '-' ∧ c ≠ '.' ∧ invalidLeafChar c = false := by
  have hall : devices.all (fun device => device.toList.all fun c =>
      decide (c ≠ '-' ∧ c ≠ '.' ∧ invalidLeafChar c = false)) := by
    decide +kernel
  exact fun device hdevice => forall_mem_of_all (List.all_eq_true.mp hall device hdevice)

/-- Capitals change no hyphen, no dot and no invalid character. -/
theorem asciiUpper_of_not_lower {c : Char} (h : c = '-' ∨ c = '.' ∨ invalidLeafChar c = true) :
    asciiUpper c = c := by
  have hnot : ¬ ('a' ≤ c ∧ c ≤ 'z') := by
    intro hlow
    rw [Char.le_def, Char.le_def, UInt32.le_iff_toNat_le, UInt32.le_iff_toNat_le] at hlow
    have hlow : 0x61 ≤ c.toNat ∧ c.toNat ≤ 0x7A := hlow
    rcases h with rfl | rfl | h
    · exact absurd hlow (by decide)
    · exact absurd hlow (by decide)
    · have h : c.toNat ≤ 0x1F ∨ c.toNat ∈ forbiddenChars := by simpa [invalidLeafChar] using h
      simp only [forbiddenChars, List.mem_cons, List.not_mem_nil, or_false] at h
      omega
  rw [asciiUpper, if_neg (by simpa using hnot)]

/-- What is a device in capitals holds none of the characters that the leaf is made without. -/
theorem device_plain {stem : List Char} (h : toAsciiUppercase (String.ofList stem) ∈ devices) :
    ∀ c ∈ stem, c ≠ '-' ∧ c ≠ '.' ∧ invalidLeafChar c = false := by
  intro c hc
  have hin : asciiUpper c ∈ (toAsciiUppercase (String.ofList stem)).toList := by
    rw [toAsciiUppercase, String.toList_ofList, String.toList_ofList]
    exact List.mem_map_of_mem hc
  have hplain := device_chars _ h _ hin
  by_contra hbad
  have hbad : c = '-' ∨ c = '.' ∨ invalidLeafChar c = true := by
    by_contra hno
    push Not at hno
    exact hbad ⟨hno.1, hno.2.1, by simpa using hno.2.2⟩
  rw [asciiUpper_of_not_lower hbad] at hplain
  rcases hbad with h | h | h
  · exact hplain.1 h
  · exact hplain.2.1 h
  · rw [hplain.2.2] at h
    cases h

/-- What is trimmed at the end leaves everything before a character that is kept. -/
theorem rdropWhile_keeps (front rest : List Char) (h : ∃ c ∈ rest, edgeChar c = false) :
    (front ++ rest).rdropWhile edgeChar = front ++ rest.rdropWhile edgeChar := by
  obtain ⟨c, hc, hkeep⟩ := h
  have hne : rest.reverse.dropWhile edgeChar ≠ [] := by
    intro hnil
    have hall := List.dropWhile_eq_nil_iff.mp hnil
    rw [hall c (List.mem_reverse.mpr hc)] at hkeep
    cases hkeep
  rw [List.rdropWhile, List.rdropWhile, List.reverse_append, List.dropWhile_append,
    if_neg (by simpa using hne), List.reverse_append, List.reverse_reverse]

/-- A leaf starts with a device name and a dot exactly when the account name does. -/
theorem leafBase_device (username : String) :
    DeviceLike username ↔ '.' ∈ leafBase username ∧
      toAsciiUppercase (String.ofList ((leafBase username).takeWhile (· != '.'))) ∈ devices := by
  constructor
  · intro ⟨stem, rest, hname, hdevice, hkeep⟩
    have hplain := device_plain hdevice
    have hbase : leafBase username =
        stem ++ '.' :: (sanitizeLeaf false rest).rdropWhile edgeChar := by
      rw [leafBase, hname, sanitize_stem fun c hc => (hplain c hc).2.2]
      have hsplit := rdropWhile_keeps (stem ++ ['.']) (sanitizeLeaf false rest)
        ((exists_sanitize false rest).mpr hkeep)
      simpa using hsplit
    have hstem : (leafBase username).takeWhile (· != '.') = stem := by
      rw [hbase, List.takeWhile_append_of_pos fun c hc => by simpa using (hplain c hc).2.1]
      simp
    refine ⟨?_, hstem ▸ hdevice⟩
    rw [hbase]
    simp
  · intro ⟨hdot, hdevice⟩
    obtain ⟨rest, hbase⟩ : ∃ rest, leafBase username =
        (leafBase username).takeWhile (· != '.') ++ '.' :: rest := by
      have hne : (leafBase username).dropWhile (· != '.') ≠ [] := by
        intro hnil
        exact absurd (List.dropWhile_eq_nil_iff.mp hnil _ hdot) (by simp)
      obtain ⟨d, rest, hdrop⟩ := List.exists_cons_of_ne_nil hne
      have hd : d = '.' := by
        have hhead := List.head_dropWhile_not (· != '.') hne
        simpa [hdrop] using hhead
      rw [hd] at hdrop
      exact ⟨rest, by rw [← hdrop, List.takeWhile_append_dropWhile]⟩
    have hplain := device_plain hdevice
    generalize (leafBase username).takeWhile (· != '.') = stem at hbase hdevice hplain
    obtain ⟨trimmed, htrim⟩ := sanitize_eq_base username
    have hsanitized : sanitizeLeaf false ((trim username).toList.dropWhile fillerChar) =
        stem ++ '.' :: (rest ++ trimmed) := by
      rw [htrim, hbase]
      simp
    obtain ⟨more, hname, hrest⟩ := stem_of_sanitize (fun h => (hplain _ h).1 rfl) hsanitized
    refine ⟨stem, more, hname, hdevice, (exists_sanitize false more).mp ?_⟩
    rw [← hrest]
    -- the last character of the base is kept, so it is not the dot
    have hend : (leafBase username).getLast? = ('.' :: rest).getLast? := by
      rw [hbase, List.getLast?_append_cons]
    cases hc : ('.' :: rest).getLast? with
    | none => simp at hc
    | some c =>
      have hkeep := leafBase_last (hend.trans hc)
      rcases List.mem_cons.mp (List.mem_of_getLast? hc) with rfl | hin
      · cases hkeep
      · exact ⟨c, List.mem_append_left _ hin, hkeep⟩

/-- What stands before the first `c` does not change when something is put behind. -/
theorem takeWhile_append_stop {c : Char} {front : List Char} (h : c ∈ front) (rest : List Char) :
    (front ++ rest).takeWhile (· != c) = front.takeWhile (· != c) := by
  induction front with
  | nil => exact nomatch h
  | cons d front ih =>
    by_cases hd : d = c
    · simp [hd]
    · rcases List.mem_cons.mp h with rfl | h
      · exact absurd rfl hd
      · rw [List.cons_append, List.takeWhile_cons_of_pos (by simpa using hd), ih h,
          List.takeWhile_cons_of_pos (by simpa using hd)]

theorem leafBase_valid {username : String} {c : Char} (h : c ∈ leafBase username) :
    invalidLeafChar c = false := by
  obtain ⟨trimmed, htrim⟩ := sanitize_eq_base username
  exact valid_of_mem_sanitize (htrim ▸ List.mem_append_left trimmed h)

theorem valid_profile : ∀ c ∈ "profile".toList, invalidLeafChar c = false :=
  forall_mem_of_all (by decide)

theorem valid_migrated : ∀ c ∈ "-migrated".toList, invalidLeafChar c = false :=
  forall_mem_of_all (by decide)

/-- The default leaf is not empty and has no invalid character. -/
theorem default_leaf_chars (username : String) :
    ∃ cs, defaultTargetLeaf username = encodeWide (String.ofList cs) ∧ cs ≠ [] ∧
      ∀ c ∈ cs, invalidLeafChar c = false := by
  refine ⟨_, defaultTargetLeaf_eq username, List.append_ne_nil_of_right_ne_nil _ (by decide), ?_⟩
  intro c hc
  rcases List.mem_append.mp hc with hc | hc
  · split at hc
    · exact valid_profile c hc
    · exact leafBase_valid hc
  · exact valid_migrated c hc

/-- **The default leaf is valid** for every account name but the device-like ones. -/
theorem default_leaf_iff (username : String) :
    ReleaseComponent (defaultTargetLeaf username) ↔ ¬ DeviceLike username := by
  have hvalid : ∀ c ∈ leafBase username, invalidLeafChar c = false := fun _ => leafBase_valid
  rw [defaultTargetLeaf_eq, component_encodeWide, leafBase_device]
  generalize leafBase username = base at hvalid
  by_cases hnil : base = []
  · rw [hnil]
    refine iff_of_true ⟨by decide, by decide, by decide, ?_, by decide +kernel⟩ nofun
    exact forall_mem_of_all (by decide)
  have hlast : (base ++ "-migrated".toList).getLast? = some 'd' := by
    rw [List.getLast?_append]
    rfl
  rw [if_neg hnil, and_iff_right (List.append_ne_nil_of_left_ne_nil hnil _), hlast,
    and_iff_right (by decide), and_iff_right (by decide), and_iff_right]
  · by_cases hdot : '.' ∈ base
    · rw [takeWhile_append_stop hdot, and_iff_right hdot]
    · refine iff_of_true (fun hdevice => ?_) (fun h => hdot h.1)
      refine (device_plain hdevice '-' ?_).1 rfl
      rw [List.takeWhile_append_of_pos fun c hc => by simpa using fun he : c = '.' => hdot (he ▸ hc)]
      exact List.mem_append_right _ (by decide)
  · intro c hc
    rcases List.mem_append.mp hc with hc | hc
    · exact hvalid c hc
    · exact valid_migrated c hc

/-! ## 3. A path that is shown as a text -/

/-- The units of a text. -/
def WellFormed (w : Wide) : Prop := ∃ text, w = encodeWide text

/-- What a path becomes in a text field. -/
def lossyText (w : Wide) : Wide := encodeWide (toStringLossy w)

theorem lossyText_eq_iff (w : Wide) : lossyText w = w ↔ WellFormed w := by
  constructor
  · exact fun h => ⟨toStringLossy w, h.symm⟩
  · intro ⟨text, h⟩
    rw [h, lossyText, toStringLossy_encodeWide]

theorem lossyText_cons {u : UInt16} (hhigh : isHighSurrogate u = false) (hlow : isLowSurrogate u = false)
    (w : Wide) : lossyText (u :: w) = u :: lossyText w := by
  have hscalar : scalarOf u = some (Char.ofNat u.toNat) := by simp [scalarOf, hhigh, hlow]
  rw [lossyText, toStringLossy, decodeUnits_scalar w hhigh, List.map_cons, hscalar, Option.getD_some,
    encodeWide, String.toList_ofList, List.flatMap_cons, encodeChar_scalar hscalar]
  rw [lossyText, toStringLossy, encodeWide, String.toList_ofList]
  rfl

theorem lossyText_append {u : UInt16} (hhigh : isHighSurrogate u = false)
    (hlow : isLowSurrogate u = false) (front rest : Wide) :
    lossyText (front ++ u :: rest) = lossyText front ++ u :: lossyText rest := by
  rw [← lossyText_cons hhigh hlow, lossyText, lossyText, lossyText, toStringLossy, toStringLossy,
    toStringLossy, decodeUnits_append hlow, encodeWide, encodeWide, encodeWide, String.toList_ofList,
    String.toList_ofList, String.toList_ofList, List.map_append, List.flatMap_append]

theorem lossyText_intercalate : ∀ names : List Wide,
    lossyText ([backslash].intercalate names) = [backslash].intercalate (names.map lossyText)
  | [] => rfl
  | [name] => by rw [List.map_singleton, List.intercalate_singleton, List.intercalate_singleton]
  | name :: next :: names => by
    have ih := lossyText_intercalate (next :: names)
    rw [List.map_cons] at ih
    rw [List.intercalate_cons_cons, List.append_assoc, List.singleton_append,
      lossyText_append (by decide) (by decide), ih, List.map_cons, List.map_cons,
      List.intercalate_cons_cons, List.append_assoc, List.singleton_append]

theorem lossyText_drive {l : UInt16} (hl : WinPath.isAsciiLetter l = true) (w : Wide) :
    lossyText (l :: colon :: backslash :: w) = l :: colon :: backslash :: lossyText w := by
  have hlt : l.toNat ≤ 0x7A := by
    simp only [WinPath.isAsciiLetter, Bool.or_eq_true, Bool.and_eq_true, decide_eq_true_eq,
      UInt16.le_iff_toNat_le] at hl
    have h₁ : (0x5A : UInt16).toNat = 0x5A := rfl
    have h₂ : (0x7A : UInt16).toNat = 0x7A := rfl
    omega
  have hhigh : isHighSurrogate l = false := by
    rw [Bool.eq_false_iff, Ne, isHighSurrogate_iff]
    omega
  have hlow : isLowSurrogate l = false := by
    rw [Bool.eq_false_iff, Ne, isLowSurrogate_iff]
    omega
  rw [lossyText_cons hhigh hlow, lossyText_cons (by decide) (by decide),
    lossyText_cons (by decide) (by decide)]

/-- The rule of a component only looks at the text. -/
theorem component_lossyText (name : Wide) : ReleaseComponent (lossyText name) ↔ ReleaseComponent name := by
  rw [← validTargetLeaf_iff_component, ← validTargetLeaf_iff_component, validTargetLeaf,
    validTargetLeaf, lossyText, toStringLossy_encodeWide]

/-- A name with no invalid characters is written behind a path as it is. -/
theorem bare_of_valid {w : Wide} {cs : List Char} (hreads : ReadsAs w cs) (hne : cs ≠ [])
    (h : ∀ c ∈ cs, invalidLeafChar c = false) : Bare w := by
  have hany : ¬ cs.any (fun c => c.toNat ≤ 0x1F || forbiddenChars.contains c.toNat) = true := by
    intro hany
    obtain ⟨c, hc, hbad⟩ := List.any_eq_true.mp hany
    have hgood := h c hc
    rw [invalidLeafChar, hbad] at hgood
    cases hgood
  rw [Migration.forbidden_iff hreads, not_not] at hany
  refine ⟨fun hnil => hne (hreads.nil_iff.mpr hnil), fun u hu => ?_,
    WinPath.isDrive_eq_false fun hcolon => ?_⟩
  · rw [WinPath.isSep_eq_false]
    have hu := (hany u hu).2
    constructor <;> intro he <;> rw [he] at hu <;> exact hu (by decide)
  · exact (hany colon hcolon).2 (by decide)

/-! ## 4. The path that is proposed -/

/-- The current text of the target field ends in a valid leaf, which is kept. -/
def KeepsLeaf (d : Desk) : Prop :=
  ∃ leaf, WinPath.fileName (encodeWide d.migrationTargetPath) = some leaf ∧ ReleaseComponent leaf

/-- The text is accepted as a path, and its parent is the directory. -/
structure Proposed (written : String) (parent : Wide) : Prop where
  accepted : ∀ label, ∃ p, releaseAbsolutePath (encodeWide written) label = .ok p
  parent : WinPath.parent (encodeWide written) = some parent

/-- The leaf that goes under the directory that was picked. -/
def Desk.pickedLeaf (d : Desk) : Wide :=
  ((WinPath.fileName (encodeWide d.migrationTargetPath)).filter validTargetLeaf).getD
    (defaultTargetLeaf d.selectedUsername)

theorem pickedLeaf_cases (d : Desk) :
    KeepsLeaf d ∧ ReleaseComponent d.pickedLeaf ∨
      ¬ KeepsLeaf d ∧ d.pickedLeaf = defaultTargetLeaf d.selectedUsername := by
  have hdefault : ∀ found, WinPath.fileName (encodeWide d.migrationTargetPath) = found →
      (∀ leaf, found = some leaf → ¬ ReleaseComponent leaf) → ¬ KeepsLeaf d := by
    intro found hfound hno ⟨leaf, hleaf, hvalid⟩
    exact hno leaf (hfound.symm.trans hleaf) hvalid
  cases hname : WinPath.fileName (encodeWide d.migrationTargetPath) with
  | none =>
    refine .inr ⟨hdefault none hname nofun, ?_⟩
    simp only [Desk.pickedLeaf, hname, Option.filter_none, Option.getD_none]
  | some leaf =>
    cases hvalid : validTargetLeaf leaf with
    | true =>
      have hpicked : d.pickedLeaf = leaf := by
        simp only [Desk.pickedLeaf, hname, Option.filter_some, hvalid, if_true, Option.getD_some]
      have hleaf := (validTargetLeaf_iff_component leaf).mp hvalid
      exact .inl ⟨⟨leaf, hname, hleaf⟩, hpicked ▸ hleaf⟩
    | false =>
      refine .inr ⟨hdefault _ hname fun leaf' he h => ?_, ?_⟩
      · rw [← Option.some.inj he, ← validTargetLeaf_iff_component, hvalid] at h
        cases h
      · simp only [Desk.pickedLeaf, hname, Option.filter_some, hvalid, Bool.false_eq_true, if_false,
          Option.getD_none]

theorem pickedLeaf_valid_iff (d : Desk) :
    ReleaseComponent d.pickedLeaf ↔ KeepsLeaf d ∨ ¬ DeviceLike d.selectedUsername := by
  rcases pickedLeaf_cases d with ⟨hkeeps, hvalid⟩ | ⟨hnot, hdefault⟩
  · exact iff_of_true hvalid (.inl hkeeps)
  · rw [hdefault, default_leaf_iff, or_iff_right hnot]

/-- The leaf is one name, as units and as they are shown. -/
theorem pickedLeaf_bare (d : Desk) : Bare d.pickedLeaf ∧ Bare (lossyText d.pickedLeaf) := by
  rcases pickedLeaf_cases d with ⟨_, hvalid⟩ | ⟨_, hdefault⟩
  · exact ⟨hvalid.bare, ((component_lossyText _).mpr hvalid).bare⟩
  · obtain ⟨cs, hcs, hne, hchars⟩ := default_leaf_chars d.selectedUsername
    rw [hdefault, hcs, (lossyText_eq_iff _).mpr ⟨_, rfl⟩]
    have hreads := reads_toStringLossy (encodeWide (String.ofList cs))
    rw [toStringLossy_encodeWide, String.toList_ofList] at hreads
    have hbare := bare_of_valid hreads hne hchars
    exact ⟨hbare, hbare⟩

/-- What is written to the target field. -/
theorem written_eq {d : Desk} (hrest : d.atRest = true) (parent : Wide) :
    (d.applyMigrationParent parent).1.migrationTargetPath =
      toStringLossy (join parent d.pickedLeaf) := by
  rw [Desk.applyMigrationParent, hrest]
  rfl

/-- **The path that the picker writes** is accepted and lies in the picked directory, exactly when
the directory can be shown as a text and its leaf was kept or can be derived. -/
theorem proposed_iff {d : Desk} (hrest : d.atRest = true) {parent : Wide}
    (hparent : ReleasePath parent) :
    Proposed (d.applyMigrationParent parent).1.migrationTargetPath parent ↔
      WellFormed parent ∧ (KeepsLeaf d ∨ ¬ DeviceLike d.selectedUsername) := by
  obtain ⟨letter, names, hletter, rfl, hall⟩ := hparent
  obtain ⟨hleaf, hshown⟩ := pickedLeaf_bare d
  have hnames : ∀ n ∈ names ++ [d.pickedLeaf], Bare n := by
    intro n hn
    rcases List.mem_append.mp hn with hn | hn
    · exact (hall n hn).bare
    · exact List.mem_singleton.mp hn ▸ hleaf
  have hwritten : encodeWide (d.applyMigrationParent
      (letter :: colon :: backslash :: [backslash].intercalate names)).1.migrationTargetPath =
        letter :: colon :: backslash ::
          [backslash].intercalate (names.map lossyText ++ [lossyText d.pickedLeaf]) := by
    rw [written_eq hrest, Migration.join_drive hletter hnames, ← lossyText, lossyText_drive hletter,
      lossyText_intercalate, List.map_append, List.map_singleton]
  have hplain : ∀ n ∈ names.map lossyText ++ [lossyText d.pickedLeaf],
      n ≠ [] ∧ ∀ u ∈ n, isSep u = false := by
    intro n hn
    rcases List.mem_append.mp hn with hn | hn
    · obtain ⟨name, hname, rfl⟩ := List.mem_map.mp hn
      have hcomp := (component_lossyText name).mpr (hall name hname)
      exact ⟨hcomp.nonempty, hcomp.not_sep⟩
    · exact List.mem_singleton.mp hn ▸ ⟨hshown.nonempty, hshown.noSep⟩
  have haccepted := Migration.releasePath_iff hletter (List.append_ne_nil_of_right_ne_nil
    (names.map lossyText) (List.cons_ne_nil (lossyText d.pickedLeaf) [])) hplain
  have hvalid : (∀ n ∈ names.map lossyText ++ [lossyText d.pickedLeaf], ReleaseComponent n) ↔
      KeepsLeaf d ∨ ¬ DeviceLike d.selectedUsername := by
    rw [← pickedLeaf_valid_iff, ← component_lossyText d.pickedLeaf]
    constructor
    · exact fun h => h _ (List.mem_append_right _ List.mem_cons_self)
    · intro h n hn
      rcases List.mem_append.mp hn with hn | hn
      · obtain ⟨name, hname, rfl⟩ := List.mem_map.mp hn
        exact (component_lossyText name).mpr (hall name hname)
      · exact List.mem_singleton.mp hn ▸ h
  have hback := WinPath.parent_drive hletter hplain
  rw [← lossyText_intercalate, ← lossyText_drive hletter] at hback
  rw [← lossyText_eq_iff, ← hvalid, ← haccepted]
  constructor
  · intro h
    obtain ⟨p, hp⟩ := h.accepted ""
    rw [hwritten] at hp
    have hparent := h.parent
    rw [hwritten, hback] at hparent
    exact ⟨Option.some.inj hparent, ((Migration.releaseAbsolutePath_ok_iff _ _ _).mp hp).1⟩
  · intro ⟨hparent, hpath⟩
    rw [hparent] at hback
    refine ⟨fun label => ?_, hwritten ▸ hback⟩
    rw [hwritten]
    exact ⟨_, (Migration.releaseAbsolutePath_ok_iff _ label _).mpr ⟨hpath, rfl⟩⟩

/-- **The folder picker**: the two rules for a leaf agree, the default leaf is valid for every
account name that is not device-like, and the path that is written is the one that was picked. -/
theorem target_proposed_iff (d : Desk) (parent p : Wide) (label : String) (hrest : d.atRest = true)
    (hparent : releaseAbsolutePath parent label = .ok p) :
    (∀ name, validTargetLeaf name = true ↔ validateWindowsComponent name label = .ok ()) ∧
      (validateWindowsComponent (defaultTargetLeaf d.selectedUsername) label = .ok () ↔
        ¬ DeviceLike d.selectedUsername) ∧
      (Proposed (d.applyMigrationParent parent).1.migrationTargetPath parent ↔
        WellFormed parent ∧ (KeepsLeaf d ∨ ¬ DeviceLike d.selectedUsername)) := by
  have hpath := ((Migration.releaseAbsolutePath_ok_iff parent label p).mp hparent).1
  refine ⟨fun name => validTargetLeaf_iff name label, ?_, proposed_iff hrest hpath⟩
  rw [validateWindowsComponent_ok_iff]
  exact default_leaf_iff d.selectedUsername

theorem drive_accepted : releaseAbsolutePath [0x43, colon, backslash] "target" =
    .ok [0x43, colon, backslash] := by
  decide +kernel

/-- The account `Maria` with a target that is there already; another directory is picked. -/
def pickedDesk : Desk where
  selectedUsername := "Maria"
  migrationTargetPath := "E:\\Moves\\maria-copy"

theorem target_proposed_iff_sample :
    Proposed (pickedDesk.applyMigrationParent (encodeWide "D:\\Profiles")).1.migrationTargetPath
      (encodeWide "D:\\Profiles") := by
  have haccepted : releaseAbsolutePath (encodeWide "D:\\Profiles") "target" =
      .ok (encodeWide "D:\\Profiles") := by decide +kernel
  have hleaf : WinPath.fileName (encodeWide pickedDesk.migrationTargetPath) =
      some (encodeWide "maria-copy") := by decide +kernel
  have hvalid : validTargetLeaf (encodeWide "maria-copy") = true := by decide +kernel
  obtain ⟨hrules, _, hpicked⟩ := target_proposed_iff pickedDesk _ _ "target" (by decide) haccepted
  rw [hrules, validateWindowsComponent_ok_iff] at hvalid
  exact hpicked.mpr ⟨⟨_, rfl⟩, .inl ⟨_, hleaf, hvalid⟩⟩

theorem device_like_dotted : DeviceLike "con.smith" :=
  ⟨['c', 'o', 'n'], ['s', 'm', 'i', 't', 'h'], by decide +kernel, by decide +kernel, 's', by decide,
    by decide⟩

/-- The account `con.smith` under the drive root: `con.smith-migrated` is written, and refused. -/
theorem dotted_device_refused : ¬ ∀ (d : Desk) (parent p : Wide) (label : String),
    d.atRest = true → releaseAbsolutePath parent label = .ok p →
      Proposed (d.applyMigrationParent parent).1.migrationTargetPath parent := by
  intro h
  have hproposed := h { selectedUsername := "con.smith" } _ _ _ (by decide) drive_accepted
  have hpath := ((Migration.releaseAbsolutePath_ok_iff _ _ _).mp drive_accepted).1
  rcases ((proposed_iff (by decide) hpath).mp hproposed).2 with ⟨leaf, hleaf, _⟩ | hnot
  · rw [show WinPath.fileName (encodeWide "") = none by decide +kernel] at hleaf
    cases hleaf
  · exact hnot device_like_dotted

end WinProfile
