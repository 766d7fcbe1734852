/-
  File:      WinProfile/Win32/Locale.lean
  Subject:   platform-win32/src/locale.rs: the preferred languages of the user, and the MULTI_SZ
             buffer they are read from.

  * `parseLanguageMultisz` -- the parser, with its errors in the order of the source.
  * `Encodes` -- the MULTI_SZ of a list of names: each with a NUL behind it, one NUL at the end,
    two for no name.
  * `parse_language_multisz_exact` -- the parser accepts exactly the encodings with the expected
    number of names, and gives back what was encoded.
  * `query_ok_iff` -- whatever the two calls to the system answer, a list is accepted exactly when it
    stands in the buffer that they deliver, of at most `MAX_LANGUAGE_BUFFER_UNITS` units.
-/
import WinProfile.Lib.Act
import WinProfile.Lib.Framing
import WinProfile.Lib.Pieces
import WinProfile.Lib.Units

namespace WinProfile.Locale

open WinPath (pieces)

/-! ## 1. The parser -/

/-- `LocaleError`. -/
inductive LocaleError where
  | windows (code : UInt32)
  | invalidBuffer (detail : String)
  | invalidUtf16
deriving Repr, DecidableEq

def MAX_LANGUAGE_BUFFER_UNITS : UInt32 := 65536

def notTerminated : LocaleError := .invalidBuffer "MULTI_SZ is not double-NUL terminated"
def emptyName : LocaleError := .invalidBuffer "MULTI_SZ contains an empty language name"
def wrongCount : LocaleError :=
  .invalidBuffer "language count does not match the MULTI_SZ payload"

/-- One round of the loop over the pieces. -/
def parseLanguage (language : Wide) : Except LocaleError String :=
  if language = [] then .error emptyName
  else match decodeUtf16 language with
    | some text => .ok text
    | none => .error .invalidUtf16

/-- The loop; it stops at the first piece that is refused. -/
def parseLanguages : List Wide → Except LocaleError (List String)
  | [] => .ok []
  | language :: more => do
    let text ← parseLanguage language
    let texts ← parseLanguages more
    .ok (text :: texts)

/-- The pieces of the content; an empty content is not split. -/
def languagePieces (content : Wide) : List Wide :=
  if content = [] then [] else pieces (· == 0) content

/-- `parse_language_multisz`. -/
def parseLanguageMultisz (buffer : Wide) (expectedCount : UInt32) :
    Except LocaleError (List String) :=
  if buffer.length < 2 ∨ buffer.drop (buffer.length - 2) ≠ [0, 0] then .error notTerminated
  else do
    let languages ← parseLanguages (languagePieces (buffer.take (buffer.length - 2)))
    if languages.length ≠ expectedCount.toNat then .error wrongCount
    else .ok languages

/-! ## 2. The encoding -/

/-- The names one after the other, each with a NUL behind it, and the NUL of the list; a list
without a name still has two. -/
def encodeMultisz : List String → Wide
  | [] => [0, 0]
  | languages => (languages.flatMap fun language => encodeWide language ++ [0]) ++ [0]

/-- A name that can stand in a MULTI_SZ. -/
def Encodable (language : String) : Prop := language ≠ "" ∧ Char.ofNat 0 ∉ language.toList

/-- The buffer is the MULTI_SZ of the names. -/
def Encodes (buffer : Wide) (languages : List String) : Prop :=
  (∀ language ∈ languages, Encodable language) ∧ buffer = encodeMultisz languages

theorem zero_mem_encodeWide (s : String) : 0 ∈ encodeWide s ↔ Char.ofNat 0 ∈ s.toList := by
  have hreads := reads_toStringLossy (encodeWide s)
  rw [toStringLossy_encodeWide] at hreads
  have hplain : Plain (Char.ofNat 0) := by
    unfold Plain
    decide
  exact (hreads.mem_iff hplain).symm

theorem encodeWide_eq_nil {s : String} : encodeWide s = [] ↔ s = "" := by
  constructor
  · intro h
    have hdecode := decodeUtf16_encodeWide s
    rw [h] at hdecode
    exact (Option.some.inj hdecode).symm
  · rintro rfl
    rfl

/-- What stands in front of the last two NULs is the names with a NUL between them. -/
theorem encodeMultisz_eq (languages : List String) :
    encodeMultisz languages = [0].intercalate (languages.map encodeWide) ++ [0, 0] := by
  cases languages with
  | nil => rfl
  | cons first more =>
    have hjoin := Framing.intercalate_append (s := (0 : UInt16))
      (List.cons_ne_nil (encodeWide first) (more.map encodeWide))
    rw [encodeMultisz, ← List.flatMap_map encodeWide fun w => w ++ [(0 : UInt16)], List.map_cons,
      ← hjoin, List.append_assoc]
    · rfl
    · exact List.cons_ne_nil _ _

/-! ## 3. The pieces -/

theorem languagePieces_intercalate {names : List Wide} (h : ∀ name ∈ names, name ≠ [] ∧ 0 ∉ name) :
    languagePieces ([0].intercalate names) = names := by
  cases names with
  | nil => rfl
  | cons first more =>
    have hne : [0].intercalate (first :: more) ≠ [] := by
      rw [Framing.intercalate_cons]
      exact List.append_ne_nil_of_left_ne_nil (h first List.mem_cons_self).1 _
    rw [languagePieces, if_neg hne]
    refine WinPath.pieces_intercalate (by decide) (List.cons_ne_nil _ _) fun name hname u hu => ?_
    have hzero : u ≠ 0 := fun he => (h name hname).2 (he ▸ hu)
    simpa using hzero

/-- The pieces make the content up, and none of them holds a NUL. -/
theorem languagePieces_spec (content : Wide) :
    [0].intercalate (languagePieces content) = content ∧
      ∀ name ∈ languagePieces content, 0 ∉ name := by
  unfold languagePieces
  split
  · next h =>
    rw [h]
    exact ⟨rfl, fun name hname => (nomatch hname)⟩
  · refine ⟨WinPath.intercalate_pieces 0 content, fun name hname hzero => ?_⟩
    exact absurd (WinPath.mem_pieces hname 0 hzero).2 (by decide)

theorem parseLanguage_ok_iff {language : Wide} {text : String} :
    parseLanguage language = .ok text ↔ language = encodeWide text ∧ text ≠ "" := by
  unfold parseLanguage
  constructor
  · intro h
    split at h
    · cases h
    · next hne =>
      cases hdecode : decodeUtf16 language with
      | none => simp [hdecode] at h
      | some found =>
        simp only [hdecode, Except.ok.injEq] at h
        have hlanguage := encodeWide_of_decodeUtf16 (h ▸ hdecode)
        refine ⟨hlanguage.symm, fun hempty => hne ?_⟩
        rw [← hlanguage, hempty]
        rfl
  · rintro ⟨rfl, hne⟩
    rw [if_neg (mt encodeWide_eq_nil.mp hne), decodeUtf16_encodeWide]

/-- The loop accepts the encodings of names that are not empty. -/
theorem parseLanguages_ok_iff : ∀ {names : List Wide} {texts : List String},
    parseLanguages names = .ok texts ↔ names = texts.map encodeWide ∧ ∀ text ∈ texts, text ≠ ""
  | [], texts => by
    rw [parseLanguages, Except.ok.injEq]
    constructor
    · rintro rfl
      exact ⟨rfl, fun _ h => (nomatch h)⟩
    · intro ⟨h, _⟩
      exact (List.map_eq_nil_iff.mp h.symm).symm
  | name :: names, texts => by
    have ih : ∀ texts, parseLanguages names = .ok texts ↔
        names = texts.map encodeWide ∧ ∀ text ∈ texts, text ≠ "" := fun _ => parseLanguages_ok_iff
    constructor
    · intro h
      simp only [parseLanguages, bind, Except.bind] at h
      split at h
      · cases h
      · next text htext =>
        split at h
        · cases h
        · next more hmore =>
          obtain ⟨hname, hne⟩ := parseLanguage_ok_iff.mp htext
          obtain ⟨hnames, hall⟩ := (ih more).mp hmore
          rw [← Except.ok.inj h, List.map_cons, ← hname, ← hnames]
          exact ⟨rfl, List.forall_mem_cons.mpr ⟨hne, hall⟩⟩
    · intro ⟨hnames, hall⟩
      cases texts with
      | nil => cases hnames
      | cons text more =>
        obtain ⟨hname, hrest⟩ := List.cons.inj hnames
        have hfirst := parseLanguage_ok_iff.mpr ⟨hname, hall text List.mem_cons_self⟩
        have hmore := (ih more).mpr ⟨hrest, fun t ht => hall t (List.mem_cons_of_mem _ ht)⟩
        simp only [parseLanguages, hfirst, hmore, bind, Except.bind]

/-! ## 4. The buffer -/

theorem terminated_iff (buffer : Wide) :
    ¬(buffer.length < 2 ∨ buffer.drop (buffer.length - 2) ≠ [0, 0]) ↔
      ∃ content, buffer = content ++ [0, 0] := by
  rw [not_or, not_not]
  constructor
  · intro ⟨_, hdrop⟩
    refine ⟨buffer.take (buffer.length - 2), ?_⟩
    rw [← hdrop, List.take_append_drop]
  · rintro ⟨content, rfl⟩
    simp

theorem parse_terminated (content : Wide) (n : UInt32) :
    parseLanguageMultisz (content ++ [0, 0]) n = (do
      let languages ← parseLanguages (languagePieces content)
      if languages.length ≠ n.toNat then .error wrongCount
      else .ok languages) := by
  rw [parseLanguageMultisz, if_neg ((terminated_iff _).mpr ⟨content, rfl⟩)]
  simp

theorem parse_terminated_ok_iff (content : Wide) (n : UInt32) (languages : List String) :
    parseLanguageMultisz (content ++ [0, 0]) n = .ok languages ↔
      parseLanguages (languagePieces content) = .ok languages ∧ languages.length = n.toNat := by
  rw [parse_terminated]
  cases hloop : parseLanguages (languagePieces content) with
  | error e => simp [bind, Except.bind]
  | ok found =>
    simp only [bind, Except.bind, Except.ok.injEq]
    split
    · next hcount =>
      refine iff_of_false (fun h => (nomatch h)) fun ⟨he, hlen⟩ => hcount ?_
      rw [he, hlen]
    · next hcount =>
      rw [Except.ok.injEq]
      exact ⟨fun he => ⟨he, he ▸ not_not.mp hcount⟩, And.left⟩

theorem encodes_iff (content : Wide) (languages : List String) :
    Encodes (content ++ [0, 0]) languages ↔
      parseLanguages (languagePieces content) = .ok languages := by
  rw [parseLanguages_ok_iff, Encodes, encodeMultisz_eq, List.append_left_inj]
  constructor
  · rintro ⟨hall, rfl⟩
    have hnames : ∀ name ∈ languages.map encodeWide, name ≠ [] ∧ 0 ∉ name := by
      intro name hname
      obtain ⟨language, hmem, rfl⟩ := List.mem_map.mp hname
      obtain ⟨hne, hzero⟩ := hall language hmem
      exact ⟨mt encodeWide_eq_nil.mp hne, mt (zero_mem_encodeWide language).mp hzero⟩
    exact ⟨languagePieces_intercalate hnames, fun language hmem => (hall language hmem).1⟩
  · intro ⟨hpieces, hne⟩
    obtain ⟨hjoin, hzero⟩ := languagePieces_spec content
    rw [hpieces] at hjoin hzero
    refine ⟨fun language hmem => ⟨hne language hmem, ?_⟩, hjoin.symm⟩
    exact mt (zero_mem_encodeWide language).mpr (hzero _ (List.mem_map_of_mem hmem))

theorem parse_unterminated {buffer : Wide} (n : UInt32)
    (h : ¬∃ content, buffer = content ++ [0, 0]) :
    parseLanguageMultisz buffer n = .error notTerminated := by
  rw [parseLanguageMultisz, if_pos (not_not.mp (mt (terminated_iff buffer).mp h))]

theorem parse_ok_iff (buffer : Wide) (n : UInt32) (languages : List String) :
    parseLanguageMultisz buffer n = .ok languages ↔
      Encodes buffer languages ∧ languages.length = n.toNat := by
  by_cases hend : ∃ content, buffer = content ++ [0, 0]
  · obtain ⟨content, rfl⟩ := hend
    rw [parse_terminated_ok_iff, encodes_iff]
  · rw [parse_unterminated n hend]
    refine iff_of_false (fun h => (nomatch h)) fun ⟨⟨_, hbuffer⟩, _⟩ => hend ?_
    exact ⟨_, hbuffer.trans (encodeMultisz_eq languages)⟩

/-- **The parser accepts exactly the encodings** with the expected number of names, so it gives
back whatever was encoded and refuses every other buffer. -/
theorem parse_language_multisz_exact :
    (∀ (buffer : Wide) (n : UInt32) (languages : List String),
      parseLanguageMultisz buffer n = .ok languages ↔
        Encodes buffer languages ∧ languages.length = n.toNat) ∧
    (∀ (n : UInt32) (languages : List String), (∀ language ∈ languages, Encodable language) →
      languages.length = n.toNat →
        parseLanguageMultisz (encodeMultisz languages) n = .ok languages) ∧
    (∀ (buffer : Wide) (n : UInt32),
      (∀ languages, Encodes buffer languages → languages.length ≠ n.toNat) →
        ∃ e, parseLanguageMultisz buffer n = .error e) := by
  refine ⟨parse_ok_iff,
    fun n languages hall hlen => (parse_ok_iff _ n languages).mpr ⟨⟨hall, rfl⟩, hlen⟩,
    fun buffer n hnone => ?_⟩
  cases hparse : parseLanguageMultisz buffer n with
  | error e => exact ⟨e, rfl⟩
  | ok languages =>
    obtain ⟨hencodes, hlen⟩ := (parse_ok_iff buffer n languages).mp hparse
    exact absurd hlen (hnone languages hencodes)

/-! ## 5. The two calls -/

/-- What a call leaves behind: the two numbers, and the units of the buffer by their place. -/
structure Reply where
  languageCount : UInt32
  bufferUnits : UInt32
  content : Nat → UInt16

/-- `PreferredUiLanguagesApi`, over the state of the system. The buffer is given by its length;
`none` stands for no buffer. -/
structure PreferredUiLanguagesApi (σ : Type) where
  query : (languageCount : UInt32) → (buffer : Option Nat) → (bufferUnits : UInt32) →
    Act σ LocaleError Reply

section Query

variable {σ : Type} (api : PreferredUiLanguagesApi σ)

/-- `query_user_preferred_ui_languages`. -/
def queryUserPreferredUiLanguages : Act σ LocaleError (List String) := do
  let sized ← api.query 0 none 0
  Act.guard (sized.bufferUnits ≤ MAX_LANGUAGE_BUFFER_UNITS)
    (.invalidBuffer "required length exceeds the safety limit")
  Act.guard (2 ≤ sized.bufferUnits)
    (.invalidBuffer "required length omits the MULTI_SZ terminator")
  let allocatedUnits := sized.bufferUnits
  let filled ← api.query sized.languageCount (some allocatedUnits.toNat) allocatedUnits
  Act.guard (filled.bufferUnits ≤ allocatedUnits)
    (.invalidBuffer "returned length exceeds the allocated buffer")
  let buffer := (List.range allocatedUnits.toNat).map filled.content
  Act.ofExcept (parseLanguageMultisz (buffer.take filled.bufferUnits.toNat) filled.languageCount)

/-- What the two calls hand over: the units of the buffer and how many languages they should be. -/
structure Delivers (s : σ) (buffer : Wide) (count : UInt32) : Prop where
  calls : ∃ sized s₁ filled s₂, api.query 0 none 0 s = (.ok sized, s₁) ∧
    api.query sized.languageCount (some sized.bufferUnits.toNat) sized.bufferUnits s₁
      = (.ok filled, s₂) ∧
    sized.bufferUnits ≤ MAX_LANGUAGE_BUFFER_UNITS ∧ 2 ≤ sized.bufferUnits ∧
    filled.bufferUnits ≤ sized.bufferUnits ∧
    buffer = (List.range filled.bufferUnits.toNat).map filled.content ∧
    count = filled.languageCount

variable {api} {s : σ} {buffer : Wide} {count : UInt32}

theorem Delivers.small (h : Delivers api s buffer count) :
    buffer.length ≤ MAX_LANGUAGE_BUFFER_UNITS.toNat := by
  obtain ⟨sized, s₁, filled, s₂, -, -, hlimit, -, hfilled, rfl, -⟩ := h.calls
  rw [List.length_map, List.length_range]
  exact (UInt32.le_iff_toNat_le.mp hfilled).trans (UInt32.le_iff_toNat_le.mp hlimit)

/-- What is left of the allocated buffer. -/
theorem take_allocated {n m : Nat} (h : n ≤ m) (content : Nat → UInt16) :
    ((List.range m).map content).take n = (List.range n).map content := by
  rw [← List.map_take, List.take_range, Nat.min_eq_left h]

/-- The query is the parser on what is delivered. -/
theorem query_of_delivers (h : Delivers api s buffer count) :
    (queryUserPreferredUiLanguages api s).1 = parseLanguageMultisz buffer count := by
  obtain ⟨sized, s₁, filled, s₂, hsized, hfilled, hlimit, hlow, hshort, rfl, rfl⟩ := h.calls
  refine Act.wp_run (R := fun r _ => r = _) ?_
  rw [queryUserPreferredUiLanguages, Act.wp_bind]
  refine Act.wp_of_ok hsized ?_
  rw [Act.wp_bind, Act.wp_guard, if_pos (decide_eq_true hlimit), Act.wp_bind, Act.wp_guard,
    if_pos (decide_eq_true hlow), Act.wp_bind]
  refine Act.wp_of_ok hfilled ?_
  rw [Act.wp_bind, Act.wp_guard, if_pos (decide_eq_true hshort), Act.wp_ofExcept,
    take_allocated (UInt32.le_iff_toNat_le.mp hshort)]
  cases parseLanguageMultisz _ filled.languageCount with
  | error e => rfl
  | ok languages => rfl

/-- A list that is accepted was delivered. -/
theorem delivers_of_query {languages : List String}
    (h : (queryUserPreferredUiLanguages api s).1 = .ok languages) :
    ∃ buffer count, Delivers api s buffer count := by
  have hquery : Act.wp (queryUserPreferredUiLanguages api)
      (fun _ _ => ∃ buffer count, Delivers api s buffer count) (fun _ _ => True) s := by
    rw [queryUserPreferredUiLanguages, Act.wp_bind]
    rcases hsized : api.query 0 none 0 s with ⟨e | sized, s₁⟩
    · exact Act.wp_of_error hsized trivial
    refine Act.wp_of_ok hsized ?_
    rw [Act.wp_bind, Act.wp_guard]
    split
    · next hlimit =>
      rw [Act.wp_bind, Act.wp_guard]
      split
      · next hlow =>
        rw [Act.wp_bind]
        rcases hfilled : api.query sized.languageCount (some sized.bufferUnits.toNat)
          sized.bufferUnits s₁ with ⟨e | filled, s₂⟩
        · exact Act.wp_of_error hfilled trivial
        refine Act.wp_of_ok hfilled ?_
        rw [Act.wp_bind, Act.wp_guard]
        split
        · next hshort =>
          rw [Act.wp_ofExcept]
          cases parseLanguageMultisz _ filled.languageCount with
          | error e => trivial
          | ok languages =>
            exact ⟨_, _, ⟨sized, s₁, filled, s₂, hsized, hfilled, of_decide_eq_true hlimit,
              of_decide_eq_true hlow, of_decide_eq_true hshort, rfl, rfl⟩⟩
        · trivial
      · trivial
    · trivial
  have hdone := Act.wp_run (R := fun r _ => (∃ languages, r = .ok languages) →
    ∃ buffer count, Delivers api s buffer count)
    (Act.wp_mono hquery (fun _ _ hd _ => hd) fun _ _ _ hr => by obtain ⟨_, hr⟩ := hr; cases hr)
  exact hdone ⟨languages, h⟩

/-- **Whatever the system answers**, a list is accepted exactly when the two calls deliver its
encoding, with its length. -/
theorem query_ok_iff (languages : List String) :
    (queryUserPreferredUiLanguages api s).1 = .ok languages ↔
      ∃ buffer count, Delivers api s buffer count ∧ Encodes buffer languages ∧
        languages.length = count.toNat := by
  constructor
  · intro h
    obtain ⟨buffer, count, hdelivers⟩ := delivers_of_query h
    rw [query_of_delivers hdelivers] at h
    exact ⟨buffer, count, hdelivers, (parse_ok_iff buffer count languages).mp h⟩
  · rintro ⟨buffer, count, hdelivers, hencodes⟩
    rw [query_of_delivers hdelivers]
    exact (parse_ok_iff buffer count languages).mpr hencodes

end Query

end WinProfile.Locale
