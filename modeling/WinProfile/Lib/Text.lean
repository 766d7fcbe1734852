/-
  File:      WinProfile/Lib/Text.lean
  Subject:   The string operations of Rust's standard library that the modelled code calls, on
             Lean strings and on UTF-16 units (an `OsStr` of Windows).

  A `String` is a list of Unicode scalar values, an `OsStr` a list of 16-bit units that need not
  be well formed. Only behaviour the callers depend on is here: white space trimming, ASCII
  case, splitting at a character, and UTF-16 in both directions.
-/
import Mathlib.Tactic

namespace WinProfile

/-! ## 1. Strings -/

/-- `char::is_whitespace` (the Unicode property `White_Space`). -/
def isWhite (c : Char) : Bool :=
  let n := c.toNat
  (0x09 ≤ n && n ≤ 0x0D) || n == 0x20 || n == 0x85 || n == 0xA0 || n == 0x1680 ||
    (0x2000 ≤ n && n ≤ 0x200A) || n == 0x2028 || n == 0x2029 || n == 0x202F || n == 0x205F ||
    n == 0x3000

/-- `str::trim_end_matches`. -/
def trimEndBy (p : Char → Bool) (s : String) : String :=
  String.ofList (s.toList.reverse.dropWhile p).reverse

/-- `str::trim`. -/
def trim (s : String) : String :=
  trimEndBy isWhite (String.ofList (s.toList.dropWhile isWhite))

/-- `s.trim().is_empty()`. -/
def isBlank (s : String) : Bool := trim s == ""

/-- `u8::to_ascii_lowercase` on a character. -/
def asciiLower (c : Char) : Char :=
  if 'A' ≤ c && c ≤ 'Z' then Char.ofNat (c.toNat + 32) else c

/-- `str::to_ascii_lowercase`. -/
def toAsciiLowercase (s : String) : String := String.ofList (s.toList.map asciiLower)

/-- `str::eq_ignore_ascii_case`. -/
def eqIgnoreAsciiCase (s t : String) : Bool := toAsciiLowercase s == toAsciiLowercase t

/-- `str::starts_with`. -/
def startsWith (p s : String) : Bool := p.toList.isPrefixOf s.toList

/-- `str::ends_with`. -/
def endsWith (p s : String) : Bool := p.toList.isSuffixOf s.toList

/-- `str::strip_prefix`. -/
def stripFront (p s : String) : Option String :=
  if startsWith p s then some (String.ofList (s.toList.drop p.toList.length)) else none

/-- `str::strip_suffix`. -/
def stripBack (p s : String) : Option String :=
  if endsWith p s then some (String.ofList (s.toList.take (s.toList.length - p.toList.length)))
  else none

/-- Take `p` off the end, at most `n` times. -/
def stripBackTimes (p : String) : Nat → String → String
  | 0, s => s
  | n + 1, s => match stripBack p s with
    | some rest => stripBackTimes p n rest
    | none => s

/-- `str::trim_end_matches` with a text that is not empty: it goes as often as it is there. -/
def trimEndMatches (p s : String) : String := stripBackTimes p s.toList.length s

/-- `u8::to_ascii_uppercase` on a character. -/
def asciiUpper (c : Char) : Char :=
  if 'a' ≤ c && c ≤ 'z' then Char.ofNat (c.toNat - 32) else c

/-- `str::to_ascii_uppercase`. -/
def toAsciiUppercase (s : String) : String := String.ofList (s.toList.map asciiUpper)

/-- `str::replace` of one character. -/
def replaceChar (c d : Char) (s : String) : String :=
  String.ofList (s.toList.map fun e => if e = c then d else e)

/-- `str::rsplit_once` at a character: the text before and after its LAST occurrence. -/
def rsplitOnce (c : Char) (s : String) : Option (String × String) :=
  let back := s.toList.reverse.takeWhile (· != c)
  if back.length < s.toList.length then
    some (String.ofList (s.toList.take (s.toList.length - back.length - 1)),
      String.ofList back.reverse)
  else none

/-- `str::split` at a character; the pieces between occurrences, the empty ones included. -/
def splitAtChar (c : Char) : List Char → List (List Char)
  | [] => [[]]
  | d :: ds =>
    if d = c then [] :: splitAtChar c ds
    else match splitAtChar c ds with
      | [] => [[d]]
      | piece :: pieces => (d :: piece) :: pieces

/-- `u8::is_ascii_digit` on a character. -/
def isAsciiDigit (c : Char) : Bool := '0' ≤ c && c ≤ '9'

/-- A check of a listed text, one character after the other. -/
theorem forall_mem_of_all {α : Type} {p : α → Prop} [DecidablePred p] {l : List α}
    (h : l.all (fun a => decide (p a)) = true) : ∀ a ∈ l, p a := by
  intro a ha
  exact of_decide_eq_true (List.all_eq_true.mp h a ha)

/-- Every character of a text is the separator or stands in a piece. -/
theorem mem_splitAtChar {c d : Char} : ∀ {s : List Char}, d ∈ s → d ≠ c →
    ∃ piece ∈ splitAtChar c s, d ∈ piece
  | [], h, _ => nomatch h
  | e :: s, h, hne => by
    have hrest : d ∈ s → ∃ piece ∈ splitAtChar c s, d ∈ piece := fun h' => mem_splitAtChar h' hne
    by_cases he : e = c
    · have hd : d ∈ s := by
        rcases List.mem_cons.mp h with rfl | h
        · exact absurd he hne
        · exact h
      obtain ⟨piece, hp, hdp⟩ := hrest hd
      exact ⟨piece, by simp [splitAtChar, he, hp], hdp⟩
    · simp only [splitAtChar, if_neg he]
      cases hs : splitAtChar c s with
      | nil =>
        rw [hs] at hrest
        rcases List.mem_cons.mp h with rfl | h
        · exact ⟨[d], by simp⟩
        · obtain ⟨_, hp, _⟩ := hrest h
          cases hp
      | cons first more =>
        rw [hs] at hrest
        rcases List.mem_cons.mp h with rfl | h
        · exact ⟨d :: first, by simp⟩
        · obtain ⟨piece, hp, hdp⟩ := hrest h
          rcases List.mem_cons.mp hp with rfl | hp
          · exact ⟨e :: piece, by simp, List.mem_cons_of_mem _ hdp⟩
          · exact ⟨piece, List.mem_cons_of_mem _ hp, hdp⟩

theorem splitAtChar_ne_nil (c : Char) (s : List Char) : splitAtChar c s ≠ [] := by
  cases s with
  | nil => exact List.cons_ne_nil _ _
  | cons d s =>
    rw [splitAtChar]
    split
    · exact List.cons_ne_nil _ _
    · split <;> exact List.cons_ne_nil _ _

/-- The pieces, each with the separator in front, are the text behind a separator. -/
theorem flatMap_splitAtChar (c : Char) : ∀ s : List Char,
    (splitAtChar c s).flatMap (c :: ·) = c :: s
  | [] => rfl
  | d :: s => by
    have ih := flatMap_splitAtChar c s
    by_cases hd : d = c
    · rw [splitAtChar, if_pos hd, List.flatMap_cons, ih, hd]
      rfl
    · obtain ⟨piece, more, hs⟩ := List.exists_cons_of_ne_nil (splitAtChar_ne_nil c s)
      rw [hs, List.flatMap_cons, List.cons_append, List.cons.injEq] at ih
      rw [splitAtChar, if_neg hd, hs, List.flatMap_cons, List.cons_append, List.cons_append, ih.2]

/-- Pieces without the separator are read back. -/
theorem splitAtChar_flatMap {c : Char} : ∀ {first : List Char} {more : List (List Char)},
    c ∉ first → (∀ piece ∈ more, c ∉ piece) →
      splitAtChar c (first ++ more.flatMap (c :: ·)) = first :: more
  | [], [], _, _ => rfl
  | [], piece :: more, _, hmore => by
    have ih := splitAtChar_flatMap (hmore piece List.mem_cons_self)
      fun p hp => hmore p (List.mem_cons_of_mem _ hp)
    rw [List.nil_append, List.flatMap_cons, List.cons_append, splitAtChar, if_pos rfl, ih]
  | d :: first, more, hfirst, hmore => by
    have hd : d ≠ c := fun e => hfirst (e ▸ List.mem_cons_self)
    have ih := splitAtChar_flatMap (fun h => hfirst (List.mem_cons_of_mem _ h)) hmore
    rw [List.cons_append, splitAtChar, if_neg hd, ih]

/-- Decimal numerals are read back. -/
theorem toString_nat_inj {n k : Nat} (h : toString n = toString k) : n = k := by
  have hdigits : Nat.toDigits 10 n = Nat.toDigits 10 k := by
    rw [← Nat.toList_repr, ← Nat.toList_repr]
    exact congrArg String.toList h
  rw [← Nat.ofDigitChars_ten_toDigits (n := n), hdigits, Nat.ofDigitChars_ten_toDigits]

/-- A separator ends a piece. -/
theorem splitAtChar_append {c : Char} (rest : List Char) : ∀ front : List Char,
    splitAtChar c (front ++ c :: rest) = splitAtChar c front ++ splitAtChar c rest
  | [] => by simp [splitAtChar]
  | d :: front => by
    have ih := splitAtChar_append (c := c) rest front
    rw [List.cons_append]
    simp only [splitAtChar]
    rw [ih]
    by_cases hd : d = c
    · rw [if_pos hd, if_pos hd, List.cons_append]
    · obtain ⟨piece, more, hs⟩ := List.exists_cons_of_ne_nil (splitAtChar_ne_nil c front)
      rw [if_neg hd, if_neg hd, hs]
      rfl

theorem replaceChar_of_not_mem {c d : Char} {s : String} (h : c ∉ s.toList) : replaceChar c d s = s := by
  have hkeep : ∀ e ∈ s.toList, (if e = c then d else e) = id e := by
    intro e he
    have hne : e ≠ c := fun hec => h (hec ▸ he)
    exact if_neg hne
  rw [replaceChar, List.map_congr_left hkeep, List.map_id, String.ofList_toList]

theorem stripFront_append (p s : String) : stripFront p (p ++ s) = some s := by
  simp [stripFront, startsWith]

theorem stripBack_append (p s : String) : stripBack p (s ++ p) = some s := by
  have hcut : s.toList.length + p.toList.length - p.toList.length = s.toList.length := by omega
  simp [stripBack, endsWith, hcut]

theorem stripBack_eq_some {p s r : String} : stripBack p s = some r ↔ s = r ++ p := by
  constructor
  · intro h
    by_cases hend : endsWith p s
    · obtain ⟨front, hfront⟩ := List.isSuffixOf_iff_suffix.mp hend
      have hs : s = String.ofList front ++ p := String.ext (by simp [hfront])
      rw [hs, stripBack_append, Option.some.injEq] at h
      rw [← h, ← hs]
    · rw [stripBack, if_neg hend] at h
      cases h
  · rintro rfl
    exact stripBack_append p r

/-- Nothing is taken off a text without the last character of the pattern. -/
theorem stripBack_eq_none {p s : String} {c : Char} (hp : c ∈ p.toList) (hs : c ∉ s.toList) :
    stripBack p s = none := by
  cases h : stripBack p s with
  | none => rfl
  | some r =>
    rw [stripBack_eq_some] at h
    rw [h, String.toList_append] at hs
    exact absurd (List.mem_append_right _ hp) hs

theorem stripBackTimes_of_none {p s : String} (h : stripBack p s = none) :
    ∀ n, stripBackTimes p n s = s
  | 0 => rfl
  | n + 1 => by rw [stripBackTimes, h]

theorem trim_of_no_white {s : String} (h : ∀ c ∈ s.toList, isWhite c = false) : trim s = s := by
  have hkeep : ∀ {l : List Char}, (∀ c ∈ l, isWhite c = false) → l.dropWhile isWhite = l := by
    intro l hl
    cases l with
    | nil => rfl
    | cons c cs => rw [List.dropWhile_cons, if_neg (by simp [hl c (by simp)])]
  have hback : ∀ c ∈ s.toList.reverse, isWhite c = false := fun c hc => h c (List.mem_reverse.mp hc)
  unfold trim trimEndBy
  rw [hkeep h, String.toList_ofList, hkeep hback, List.reverse_reverse, String.ofList_toList]

/-- A last occurrence is found behind any text, when what follows it does not hold it again. -/
theorem rsplitOnce_append (c : Char) (a b : String) (hb : c ∉ b.toList) :
    rsplitOnce c (a ++ String.ofList [c] ++ b) = some (a, b) := by
  have hrev : (a ++ String.ofList [c] ++ b).toList.reverse
      = b.toList.reverse ++ c :: a.toList.reverse := by simp
  have htake : (b.toList.reverse ++ c :: a.toList.reverse).takeWhile (· != c)
      = b.toList.reverse := by
    rw [List.takeWhile_append_of_pos]
    · simp
    · intro d hd
      have : d ≠ c := fun e => hb (by rw [← e]; exact List.mem_reverse.mp hd)
      simpa using this
  have hcut : a.toList.length + (b.toList.length + 1) - b.toList.length - 1 = a.toList.length := by
    omega
  unfold rsplitOnce
  rw [hrev, htake]
  simp [hcut]
  omega

/-! ## 2. UTF-16 -/

/-- An `OsStr` on Windows: UTF-16 units, possibly ill formed. -/
abbrev Wide := List UInt16

/-- The units of one scalar value. -/
def encodeChar (c : Char) : Wide :=
  if c.toNat < 0x10000 then [UInt16.ofNat c.toNat]
  else [UInt16.ofNat (0xD800 + (c.toNat - 0x10000) / 0x400),
    UInt16.ofNat (0xDC00 + (c.toNat - 0x10000) % 0x400)]

/-- `OsStrExt::encode_wide` of a string. -/
def encodeWide (s : String) : Wide := s.toList.flatMap encodeChar

def isHighSurrogate (u : UInt16) : Bool := 0xD800 ≤ u && u < 0xDC00

def isLowSurrogate (u : UInt16) : Bool := 0xDC00 ≤ u && u < 0xE000

/-- The scalar value of a single unit; `none` for a surrogate. -/
def scalarOf (u : UInt16) : Option Char :=
  if isHighSurrogate u || isLowSurrogate u then none else some (Char.ofNat u.toNat)

/-- The scalar values of a unit sequence; `none` where a surrogate has no partner. -/
def decodeUnits : Wide → List (Option Char)
  | [] => []
  | [u] => [scalarOf u]
  | u :: v :: rest =>
    if isHighSurrogate u && isLowSurrogate v then
      some (Char.ofNat (0x10000 + (u.toNat - 0xD800) * 0x400 + (v.toNat - 0xDC00)))
        :: decodeUnits rest
    else scalarOf u :: decodeUnits (v :: rest)

/-- `String::from_utf16`: only well-formed input. -/
def decodeUtf16 (w : Wide) : Option String := ((decodeUnits w).mapM id).map String.ofList

/-- `OsStr::to_string_lossy`: an unpaired surrogate becomes U+FFFD. -/
def toStringLossy (w : Wide) : String :=
  String.ofList ((decodeUnits w).map (·.getD (Char.ofNat 0xFFFD)))

/-! ## 3. Reading back -/

theorem toNat_lt_of_char (c : Char) :
    c.toNat < 0xD800 ∨ 0xDFFF < c.toNat ∧ c.toNat < 0x110000 := c.valid

theorem toNat_char {n : Nat} (h : n.isValidChar) : (Char.ofNat n).toNat = n := by
  unfold Char.ofNat
  rw [dif_pos h]
  rfl

/-- A unit below the supplementary planes stands for itself. -/
theorem decodeUnits_scalar {u : UInt16} (rest : Wide) (h : isHighSurrogate u = false) :
    decodeUnits (u :: rest) = scalarOf u :: decodeUnits rest := by
  cases rest with
  | nil => simp [decodeUnits]
  | cons v rest => simp [decodeUnits, h]

/-- A unit that is no surrogate separates what is before it from what is behind. -/
theorem decodeUnits_append {u : UInt16} (hu : isLowSurrogate u = false) (rest : Wide) :
    ∀ front : Wide, decodeUnits (front ++ u :: rest) = decodeUnits front ++ decodeUnits (u :: rest)
  | [] => rfl
  | [v] => by
    have hone : decodeUnits (v :: u :: rest) = scalarOf v :: decodeUnits (u :: rest) := by
      rw [decodeUnits, hu, Bool.and_false]
      rfl
    exact hone
  | v :: x :: front => by
    have ih := decodeUnits_append hu rest (x :: front)
    have ih' := decodeUnits_append hu rest front
    simp only [List.cons_append, decodeUnits] at ih ⊢
    split
    · rw [ih', List.cons_append]
    · rw [ih, List.cons_append]

theorem isHighSurrogate_iff (u : UInt16) :
    isHighSurrogate u = true ↔ 0xD800 ≤ u.toNat ∧ u.toNat < 0xDC00 := by
  simp [isHighSurrogate, UInt16.le_iff_toNat_le, UInt16.lt_iff_toNat_lt]

theorem isLowSurrogate_iff (u : UInt16) :
    isLowSurrogate u = true ↔ 0xDC00 ≤ u.toNat ∧ u.toNat < 0xE000 := by
  simp [isLowSurrogate, UInt16.le_iff_toNat_le, UInt16.lt_iff_toNat_lt]

theorem decodeUnits_encodeChar (c : Char) (rest : Wide) :
    decodeUnits (encodeChar c ++ rest) = some c :: decodeUnits rest := by
  have hvalid := toNat_lt_of_char c
  unfold encodeChar
  by_cases hbmp : c.toNat < 0x10000
  · rw [if_pos hbmp]
    have hnat : (UInt16.ofNat c.toNat).toNat = c.toNat := by
      rw [UInt16.toNat_ofNat']
      exact Nat.mod_eq_of_lt hbmp
    have hhigh : isHighSurrogate (UInt16.ofNat c.toNat) = false := by
      rw [Bool.eq_false_iff, Ne, isHighSurrogate_iff, hnat]
      omega
    have hlow : isLowSurrogate (UInt16.ofNat c.toNat) = false := by
      rw [Bool.eq_false_iff, Ne, isLowSurrogate_iff, hnat]
      omega
    rw [List.singleton_append, decodeUnits_scalar rest hhigh, scalarOf, hhigh, hlow, hnat]
    simp
  · rw [if_neg hbmp]
    have hfirst : (UInt16.ofNat (0xD800 + (c.toNat - 0x10000) / 0x400)).toNat
        = 0xD800 + (c.toNat - 0x10000) / 0x400 := by
      rw [UInt16.toNat_ofNat']
      exact Nat.mod_eq_of_lt (by omega)
    have hsecond : (UInt16.ofNat (0xDC00 + (c.toNat - 0x10000) % 0x400)).toNat
        = 0xDC00 + (c.toNat - 0x10000) % 0x400 := by
      rw [UInt16.toNat_ofNat']
      exact Nat.mod_eq_of_lt (by omega)
    have hhigh := (isHighSurrogate_iff (UInt16.ofNat (0xD800 + (c.toNat - 0x10000) / 0x400))).mpr
      (by rw [hfirst]; omega)
    have hlow := (isLowSurrogate_iff (UInt16.ofNat (0xDC00 + (c.toNat - 0x10000) % 0x400))).mpr
      (by rw [hsecond]; omega)
    have hcode : 0x10000 + (0xD800 + (c.toNat - 0x10000) / 0x400 - 0xD800) * 0x400
        + (0xDC00 + (c.toNat - 0x10000) % 0x400 - 0xDC00) = c.toNat := by omega
    simp only [List.cons_append, List.nil_append, decodeUnits, hhigh, hlow, Bool.and_self, if_true,
      hfirst, hsecond, hcode, Char.ofNat_toNat]

theorem decodeUnits_encode (cs : List Char) :
    decodeUnits (cs.flatMap encodeChar) = cs.map some := by
  induction cs with
  | nil => rfl
  | cons c cs ih => rw [List.flatMap_cons, decodeUnits_encodeChar, ih, List.map_cons]

theorem mapM_id_some {α : Type} (l : List α) : (l.map some).mapM id = some l := by
  induction l with
  | nil => rfl
  | cons a l ih => simp [List.mapM_cons, ih]

/-- A string is read back. -/
theorem decodeUtf16_encodeWide (s : String) : decodeUtf16 (encodeWide s) = some s := by
  rw [decodeUtf16, encodeWide, decodeUnits_encode, mapM_id_some, Option.map_some,
    String.ofList_toList]

theorem encodeChar_scalar {u : UInt16} {c : Char} (h : scalarOf u = some c) : encodeChar c = [u] := by
  unfold scalarOf at h
  split at h
  · cases h
  · next hsur =>
    cases h
    simp only [Bool.or_eq_true, not_or, isHighSurrogate_iff, isLowSurrogate_iff] at hsur
    have hlt := u.toNat_lt
    have hchar : (Char.ofNat u.toNat).toNat = u.toNat := toNat_char
      (by simp only [Nat.isValidChar]; omega)
    rw [encodeChar, hchar, if_pos (by omega)]
    simp

theorem encodeChar_pair {u v : UInt16} (hu : isHighSurrogate u = true)
    (hv : isLowSurrogate v = true) :
    encodeChar (Char.ofNat (0x10000 + (u.toNat - 0xD800) * 0x400 + (v.toNat - 0xDC00)))
      = [u, v] := by
  rw [isHighSurrogate_iff] at hu
  rw [isLowSurrogate_iff] at hv
  have hchar : (Char.ofNat (0x10000 + (u.toNat - 0xD800) * 0x400 + (v.toNat - 0xDC00))).toNat
      = 0x10000 + (u.toNat - 0xD800) * 0x400 + (v.toNat - 0xDC00) :=
    toNat_char (by simp only [Nat.isValidChar]; omega)
  rw [encodeChar, hchar, if_neg (by omega)]
  have h₁ : 0xD800 + (0x10000 + (u.toNat - 0xD800) * 0x400 + (v.toNat - 0xDC00) - 0x10000) / 0x400
      = u.toNat := by omega
  have h₂ : 0xDC00 + (0x10000 + (u.toNat - 0xD800) * 0x400 + (v.toNat - 0xDC00) - 0x10000) % 0x400
      = v.toNat := by omega
  rw [h₁, h₂]
  simp

/-- Units that decode are the encoding of what they decode to. -/
theorem encode_decodeUnits : ∀ {w : Wide} {cs : List Char}, decodeUnits w = cs.map some →
    cs.flatMap encodeChar = w
  | [], cs, h => by
    cases cs with
    | nil => rfl
    | cons c cs => simp [decodeUnits] at h
  | [u], cs, h => by
    cases cs with
    | nil => simp [decodeUnits] at h
    | cons c cs =>
      simp only [decodeUnits, List.map_cons, List.cons.injEq] at h
      have hnil : cs = [] := by simpa using h.2.symm
      simp [hnil, encodeChar_scalar h.1]
  | u :: v :: rest, cs, h => by
    cases cs with
    | nil =>
      simp only [decodeUnits] at h
      split at h <;> cases h
    | cons c cs =>
      simp only [decodeUnits] at h
      split at h
      · next hpair =>
        simp only [List.map_cons, List.cons.injEq, Option.some.injEq] at h
        obtain ⟨hu, hv⟩ := Bool.and_eq_true_iff.mp hpair
        rw [List.flatMap_cons, ← h.1, encodeChar_pair hu hv, encode_decodeUnits h.2]
        rfl
      · simp only [List.map_cons, List.cons.injEq] at h
        rw [List.flatMap_cons, encodeChar_scalar h.1, encode_decodeUnits h.2]
        rfl

theorem mapM_id_eq_some {α : Type} : ∀ {l : List (Option α)} {as : List α}, l.mapM id = some as →
    l = as.map some
  | [], as, h => by
    cases as with
    | nil => rfl
    | cons a as => simp at h
  | o :: l, as, h => by
    simp only [List.mapM_cons, id] at h
    cases o with
    | none => simp at h
    | some a =>
      cases hl : l.mapM id with
      | none => simp [hl] at h
      | some bs =>
        have has : a :: bs = as := by simpa [hl] using h
        rw [← has, mapM_id_eq_some hl]
        rfl

theorem encodeWide_of_decodeUtf16 {w : Wide} {s : String} (h : decodeUtf16 w = some s) :
    encodeWide s = w := by
  unfold decodeUtf16 at h
  obtain ⟨cs, hcs, rfl⟩ := Option.map_eq_some_iff.mp h
  rw [encodeWide, String.toList_ofList]
  exact encode_decodeUnits (mapM_id_eq_some hcs)

end WinProfile
