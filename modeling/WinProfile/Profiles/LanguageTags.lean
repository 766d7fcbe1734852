/-
  File:      WinProfile/Profiles/LanguageTags.lean
  Subject:   core-profiles/src/i18n.rs and app-ui/src/locale.rs: which of the two languages the
             program starts in.

  * `isWellFormedLanguageTag`, `resolveSupportedLocale`, `detectInitialLocale` -- the source.
  * `LanguageTag`, `Prefers` -- the grammar of a tag, and the list that asks for French.
  * `initial_locale_negotiated` -- French exactly where the two calls to the system deliver such a
    list, English everywhere else.
-/
import WinProfile.Win32.Locale

namespace WinProfile.Languages

open WinProfile.Locale (LocaleError Encodes PreferredUiLanguagesApi Delivers
  queryUserPreferredUiLanguages query_ok_iff)

/-! ## 1. The source -/

def ENGLISH_LOCALE : String := "en"
def FRENCH_LOCALE : String := "fr"

/-- `I18nManager::set_locale` accepts it. -/
def supported (locale : String) : Bool := locale == ENGLISH_LOCALE || locale == FRENCH_LOCALE

/-- `str::len` of a piece, in bytes. -/
def byteLength (piece : List Char) : Nat := (String.ofList piece).utf8ByteSize

/-- The check of the part before the first hyphen. -/
def primaryAllowed (primary : List Char) : Bool :=
  decide (2 ≤ byteLength primary) && decide (byteLength primary ≤ 8) && primary.all Char.isAlpha

/-- The check of every part behind a hyphen. -/
def partAllowed (part : List Char) : Bool :=
  !part.isEmpty && decide (byteLength part ≤ 8) && part.all Char.isAlphanum

/-- `is_well_formed_language_tag`. -/
def isWellFormedLanguageTag (tag : String) : Bool :=
  match splitAtChar '-' tag.toList with
  | [] => false
  | primary :: parts => primaryAllowed primary && parts.all partAllowed

/-- The part of a tag that the loop compares. -/
def primaryOf (tag : String) : String :=
  String.ofList ((splitAtChar '-' tag.toList).headD [])

/-- The loop of `resolve_supported_locale`. -/
def firstSupported : List String → String
  | [] => ENGLISH_LOCALE
  | tag :: tags =>
    if eqIgnoreAsciiCase (primaryOf tag) FRENCH_LOCALE then FRENCH_LOCALE
    else if eqIgnoreAsciiCase (primaryOf tag) ENGLISH_LOCALE then ENGLISH_LOCALE
    else firstSupported tags

/-- `resolve_supported_locale`. -/
def resolveSupportedLocale (tags : List String) : String :=
  if tags.any fun tag => !isWellFormedLanguageTag tag then ENGLISH_LOCALE else firstSupported tags

/-- `detect_initial_locale_with`. -/
def detectInitialLocaleWith : Except LocaleError (List String) → String
  | .ok tags => resolveSupportedLocale tags
  | .error _ => ENGLISH_LOCALE

/-- `detect_initial_locale`, with what the system answers from `s` on. -/
def detectInitialLocale {σ : Type} (api : PreferredUiLanguagesApi σ) (s : σ) : String :=
  detectInitialLocaleWith (queryUserPreferredUiLanguages api s).1

/-! ## 2. Well-formed tags -/

/-- Two to eight letters, then parts of one to eight letters and digits, each behind a hyphen. -/
def LanguageTag (tag : String) : Prop :=
  ∃ (primary : List Char) (parts : List (List Char)),
    tag.toList = primary ++ parts.flatMap ('-' :: ·) ∧
    (2 ≤ primary.length ∧ primary.length ≤ 8 ∧ ∀ c ∈ primary, c.isAlpha = true) ∧
    ∀ part ∈ parts, 1 ≤ part.length ∧ part.length ≤ 8 ∧ ∀ c ∈ part, c.isAlphanum = true

theorem byteLength_cons (c : Char) (cs : List Char) :
    byteLength (c :: cs) = c.utf8Size + byteLength cs := by
  have hcut : String.ofList (c :: cs) = String.ofList [c] ++ String.ofList cs := by
    rw [← String.ofList_append, List.singleton_append]
  have hone : (String.ofList [c]).utf8ByteSize = c.utf8Size := by
    rw [← String.singleton_eq_ofList, String.utf8ByteSize_singleton]
  rw [byteLength, hcut, String.utf8ByteSize_append, hone, byteLength]

theorem utf8Size_of_isAlphanum {c : Char} (h : c.isAlphanum = true) : c.utf8Size = 1 := by
  rw [Char.utf8Size_eq_one_iff]
  delta Char.isAlphanum Char.isAlpha Char.isUpper Char.isLower Char.isDigit at h
  simp only [Bool.or_eq_true, Bool.and_eq_true, decide_eq_true_eq] at h
  simp only [UInt32.le_iff_toNat_le] at h ⊢
  simp at h ⊢
  omega

theorem isAlphanum_of_isAlpha {c : Char} (h : c.isAlpha = true) : c.isAlphanum = true := by
  rw [Char.isAlphanum, h, Bool.true_or]

/-- ASCII text has a byte for a character. -/
theorem byteLength_eq_length : ∀ {cs : List Char}, (∀ c ∈ cs, c.isAlphanum = true) →
    byteLength cs = cs.length
  | [], _ => rfl
  | c :: cs, h => by
    have ih := byteLength_eq_length fun d hd => h d (List.mem_cons_of_mem c hd)
    rw [byteLength_cons, utf8Size_of_isAlphanum (h c List.mem_cons_self), ih, List.length_cons,
      Nat.add_comm]

theorem primaryAllowed_iff (primary : List Char) : primaryAllowed primary = true ↔
    2 ≤ primary.length ∧ primary.length ≤ 8 ∧ ∀ c ∈ primary, c.isAlpha = true := by
  simp only [primaryAllowed, Bool.and_eq_true, decide_eq_true_eq, List.all_eq_true, and_assoc]
  constructor
  · rintro ⟨hlow, hhigh, hall⟩
    rw [byteLength_eq_length fun c hc => isAlphanum_of_isAlpha (hall c hc)] at hlow hhigh
    exact ⟨hlow, hhigh, hall⟩
  · rintro ⟨hlow, hhigh, hall⟩
    rw [byteLength_eq_length fun c hc => isAlphanum_of_isAlpha (hall c hc)]
    exact ⟨hlow, hhigh, hall⟩

theorem partAllowed_iff (part : List Char) : partAllowed part = true ↔
    1 ≤ part.length ∧ part.length ≤ 8 ∧ ∀ c ∈ part, c.isAlphanum = true := by
  have hempty : (!part.isEmpty) = true ↔ 1 ≤ part.length := by
    cases part <;> simp
  simp only [partAllowed, Bool.and_eq_true, hempty, decide_eq_true_eq, List.all_eq_true, and_assoc]
  constructor
  · rintro ⟨hlow, hhigh, hall⟩
    rw [byteLength_eq_length hall] at hhigh
    exact ⟨hlow, hhigh, hall⟩
  · rintro ⟨hlow, hhigh, hall⟩
    rw [byteLength_eq_length hall]
    exact ⟨hlow, hhigh, hall⟩

theorem hyphen_not_mem {cs : List Char} (h : ∀ c ∈ cs, c.isAlphanum = true) : '-' ∉ cs := by
  intro hmem
  exact absurd (h '-' hmem) (by decide)

/-- The check accepts the grammar. -/
theorem isWellFormedLanguageTag_iff (tag : String) :
    isWellFormedLanguageTag tag = true ↔ LanguageTag tag := by
  constructor
  · intro h
    obtain ⟨primary, parts, hs⟩ := List.exists_cons_of_ne_nil (splitAtChar_ne_nil '-' tag.toList)
    have hcut := flatMap_splitAtChar '-' tag.toList
    rw [hs, List.flatMap_cons, List.cons_append, List.cons.injEq] at hcut
    rw [isWellFormedLanguageTag, hs] at h
    simp only [Bool.and_eq_true, List.all_eq_true] at h
    exact ⟨primary, parts, hcut.2.symm, (primaryAllowed_iff primary).mp h.1,
      fun part hpart => (partAllowed_iff part).mp (h.2 part hpart)⟩
  · rintro ⟨primary, parts, htag, hprimary, hparts⟩
    have hs := splitAtChar_flatMap
      (hyphen_not_mem fun c hc => isAlphanum_of_isAlpha (hprimary.2.2 c hc))
      (fun part hpart => hyphen_not_mem (hparts part hpart).2.2)
    rw [isWellFormedLanguageTag, htag, hs]
    simp only [Bool.and_eq_true, List.all_eq_true]
    exact ⟨(primaryAllowed_iff primary).mpr hprimary,
      fun part hpart => (partAllowed_iff part).mpr (hparts part hpart)⟩

/-! ## 3. The first language that is supported -/

/-- The part before the first hyphen is the language, in any case. -/
def Speaks (language tag : String) : Prop :=
  eqIgnoreAsciiCase (primaryOf tag) language = true

/-- French stands in the list, and English not before it. -/
def Prefers (tags : List String) : Prop :=
  ∃ before tag after, tags = before ++ tag :: after ∧ Speaks FRENCH_LOCALE tag ∧
    ∀ earlier ∈ before, ¬ Speaks ENGLISH_LOCALE earlier

theorem prefers_cons {tag : String} {tags : List String} (hfr : ¬ Speaks FRENCH_LOCALE tag) :
    Prefers (tag :: tags) ↔ ¬ Speaks ENGLISH_LOCALE tag ∧ Prefers tags := by
  constructor
  · rintro ⟨before, chosen, after, heq, hchosen, hbefore⟩
    cases before with
    | nil =>
      rw [List.nil_append, List.cons.injEq] at heq
      exact absurd (heq.1 ▸ hchosen) hfr
    | cons first more =>
      rw [List.cons_append, List.cons.injEq] at heq
      exact ⟨heq.1 ▸ hbefore first List.mem_cons_self, more, chosen, after, heq.2, hchosen,
        fun earlier h => hbefore earlier (List.mem_cons_of_mem first h)⟩
  · rintro ⟨hen, before, chosen, after, rfl, hchosen, hbefore⟩
    refine ⟨tag :: before, chosen, after, rfl, hchosen, fun earlier h => ?_⟩
    rcases List.mem_cons.mp h with rfl | h
    · exact hen
    · exact hbefore earlier h

theorem english_ne_french : ENGLISH_LOCALE ≠ FRENCH_LOCALE := by decide +kernel

theorem firstSupported_french_iff : ∀ tags : List String,
    firstSupported tags = FRENCH_LOCALE ↔ Prefers tags
  | [] => by
    refine iff_of_false english_ne_french ?_
    rintro ⟨before, tag, after, h, -⟩
    cases before <;> cases h
  | tag :: tags => by
    by_cases hfr : Speaks FRENCH_LOCALE tag
    · have hfr' : eqIgnoreAsciiCase (primaryOf tag) FRENCH_LOCALE = true := hfr
      rw [firstSupported, if_pos hfr']
      refine iff_of_true rfl ⟨[], tag, tags, rfl, hfr, fun earlier h => ?_⟩
      cases h
    · have hfr' : ¬ eqIgnoreAsciiCase (primaryOf tag) FRENCH_LOCALE = true := hfr
      rw [firstSupported, if_neg hfr', prefers_cons hfr]
      by_cases hen : eqIgnoreAsciiCase (primaryOf tag) ENGLISH_LOCALE = true
      · rw [if_pos hen]
        exact iff_of_false english_ne_french fun h => h.1 hen
      · rw [if_neg hen, firstSupported_french_iff tags]
        exact (and_iff_right hen).symm

theorem firstSupported_supported (tags : List String) : supported (firstSupported tags) = true := by
  induction tags with
  | nil => decide +kernel
  | cons tag tags ih =>
    rw [firstSupported]
    split
    · decide +kernel
    · split
      · decide +kernel
      · exact ih

theorem resolveSupportedLocale_french_iff (tags : List String) :
    resolveSupportedLocale tags = FRENCH_LOCALE ↔ (∀ tag ∈ tags, LanguageTag tag) ∧ Prefers tags := by
  rw [resolveSupportedLocale]
  by_cases hany : (tags.any fun tag => !isWellFormedLanguageTag tag) = true
  · rw [if_pos hany]
    obtain ⟨tag, hmem, hbad⟩ := List.any_eq_true.mp hany
    refine iff_of_false english_ne_french fun h => ?_
    rw [(isWellFormedLanguageTag_iff tag).mpr (h.1 tag hmem)] at hbad
    cases hbad
  · rw [if_neg hany, firstSupported_french_iff]
    have hall : ∀ tag ∈ tags, LanguageTag tag := by
      intro tag hmem
      by_contra hbad
      have hfalse := Bool.eq_false_of_not_eq_true (mt (isWellFormedLanguageTag_iff tag).mp hbad)
      exact hany (List.any_eq_true.mpr ⟨tag, hmem, by rw [hfalse]; rfl⟩)
    exact (and_iff_right hall).symm

theorem detectInitialLocale_supported (query : Except LocaleError (List String)) :
    supported (detectInitialLocaleWith query) = true := by
  cases query with
  | error e =>
    rw [detectInitialLocaleWith]
    decide +kernel
  | ok tags =>
    rw [detectInitialLocaleWith, resolveSupportedLocale]
    split
    · decide +kernel
    · exact firstSupported_supported tags

theorem detectInitialLocaleWith_french_iff (query : Except LocaleError (List String)) :
    detectInitialLocaleWith query = FRENCH_LOCALE ↔
      ∃ tags, query = .ok tags ∧ (∀ tag ∈ tags, LanguageTag tag) ∧ Prefers tags := by
  cases query with
  | error e =>
    refine iff_of_false english_ne_french ?_
    rintro ⟨tags, h, -⟩
    cases h
  | ok tags =>
    rw [detectInitialLocaleWith, resolveSupportedLocale_french_iff]
    constructor
    · exact fun h => ⟨tags, rfl, h⟩
    · rintro ⟨others, hothers, h⟩
      rw [Except.ok.inj hothers]
      exact h

/-- **The language of the start.** The program starts in French exactly where the two calls deliver
the encoding of as many names as announced, all of them well-formed tags, and French stands among
them with no English before it; after every other answer it starts in English. What is delivered is
never longer than the limit of the query. -/
theorem initial_locale_negotiated {σ : Type} (api : PreferredUiLanguagesApi σ) (s : σ) :
    (detectInitialLocale api s = FRENCH_LOCALE ↔
      ∃ buffer count tags, Delivers api s buffer count ∧ Encodes buffer tags ∧
        tags.length = count.toNat ∧ (∀ tag ∈ tags, LanguageTag tag) ∧ Prefers tags) ∧
    (detectInitialLocale api s = FRENCH_LOCALE ∨ detectInitialLocale api s = ENGLISH_LOCALE) ∧
    ∀ buffer count, Delivers api s buffer count →
      buffer.length ≤ Locale.MAX_LANGUAGE_BUFFER_UNITS.toNat := by
  have hsupported := detectInitialLocale_supported (queryUserPreferredUiLanguages api s).1
  simp only [supported, Bool.or_eq_true, beq_iff_eq] at hsupported
  refine ⟨?_, hsupported.symm, fun _ _ h => h.small⟩
  rw [detectInitialLocale, detectInitialLocaleWith_french_iff]
  constructor
  · rintro ⟨tags, hquery, htags⟩
    obtain ⟨buffer, count, hdelivers, hencodes, hlength⟩ := (query_ok_iff tags).mp hquery
    exact ⟨buffer, count, tags, hdelivers, hencodes, hlength, htags⟩
  · rintro ⟨buffer, count, tags, hdelivers, hencodes, hlength, htags⟩
    exact ⟨tags, (query_ok_iff tags).mpr ⟨buffer, count, hdelivers, hencodes, hlength⟩, htags⟩

end WinProfile.Languages
