/-
  File:      WinProfile/Migration/Overlap.lean
  Subject:   The overlap test of migration.rs compares trimmed texts; on the paths that
             `release_absolute_path` accepts, it compares lists of components.

  * `lowerComponents` -- drive and names of a path, each as a text in lower case.
  * `join_prefix_iff` -- one joined text continues another one at a separator exactly if the lists
    do.
  * `normalizedPathKey_word` -- the key of an accepted path is its components, joined.
  * `paths_overlap_iff_prefix` -- the test is the prefix relation of the components.
-/
import WinProfile.Lib.Lowercase
import WinProfile.Migration.Grammar

namespace WinProfile.Migration

open Framing (intercalate_cons)
open WinPath (isSep backslash slash colon isAsciiLetter join)

/-! ## 1. Components in lower case -/

/-- A path that `release_absolute_path` accepts. -/
def Accepted (path : Wide) : Prop :=
  ∃ label normalized, releaseAbsolutePath path label = .ok normalized

/-- One component as a text in lower case. Lower case is a matter of texts: units that are none
are read as the code reads them. -/
def lowerComponent (lower : String → String) : WinPath.Component → Option String
  | .drive _ text => some (lower (toStringLossy text))
  | .normal name => some (lower (toStringLossy name))
  | _ => none

/-- The drive and the names of a path in lower case. -/
def lowerComponents (lower : String → String) (path : Wide) : List String :=
  (WinPath.components path).filterMap (lowerComponent lower)

theorem lowerComponents_word {letter : UInt16} {names : List Wide}
    (hletter : isAsciiLetter letter = true) (h : ∀ name ∈ names, ReleaseComponent name)
    (lower : String → String) :
    lowerComponents lower (letter :: colon :: backslash :: [backslash].intercalate names) =
      ([letter, colon] :: names).map fun name => lower (toStringLossy name) := by
  have hnames : (names.map WinPath.Component.normal).filterMap (lowerComponent lower) =
      names.map fun name => lower (toStringLossy name) := by
    rw [List.filterMap_map]
    exact congrFun List.filterMap_eq_map names
  rw [lowerComponents, components_word hletter h, List.map_cons, ← hnames]
  rfl

/-! ## 2. Joined texts -/

section Join

variable {c : Char} {first first' : List Char} {more more' : List (List Char)}

/-- A text continues another one behind a separator, or is the same. -/
def Continues (c : Char) (text text' : List Char) : Prop :=
  text' = text ∨ ∃ rest, text' = text ++ c :: rest

/-- **Joined texts are compared by their pieces.** -/
theorem join_prefix_iff (h : ∀ piece ∈ first :: more, c ∉ piece)
    (h' : ∀ piece ∈ first' :: more', c ∉ piece) :
    Continues c (first ++ more.flatMap (c :: ·)) (first' ++ more'.flatMap (c :: ·)) ↔
      first :: more <+: first' :: more' := by
  have hsplit := splitAtChar_flatMap (h first List.mem_cons_self)
    fun piece hp => h piece (List.mem_cons_of_mem _ hp)
  have hsplit' := splitAtChar_flatMap (h' first' List.mem_cons_self)
    fun piece hp => h' piece (List.mem_cons_of_mem _ hp)
  constructor
  · rintro (heq | ⟨rest, heq⟩)
    · rw [heq, hsplit] at hsplit'
      rw [hsplit']
    · rw [heq, splitAtChar_append, hsplit] at hsplit'
      exact ⟨splitAtChar c rest, hsplit'⟩
  · intro ⟨tail, htail⟩
    have htail : first :: (more ++ tail) = first' :: more' := htail
    obtain ⟨rfl, rfl⟩ := List.cons.inj htail
    cases tail with
    | nil => exact .inl (by rw [List.append_nil])
    | cons next tail =>
      refine .inr ⟨next ++ tail.flatMap (c :: ·), ?_⟩
      rw [List.flatMap_append, List.flatMap_cons, List.cons_append, List.append_assoc]

/-- A joined text ends like its last piece. -/
theorem join_getLast : ∀ {first : List Char} {more : List (List Char)},
    (∀ piece ∈ first :: more, piece ≠ [] ∧ c ∉ piece) →
      ∀ d, (first ++ more.flatMap (c :: ·)).getLast? = some d → d ≠ c
  | first, [], h, d, hd => by
    rw [List.flatMap_nil, List.append_nil] at hd
    intro he
    exact (h first List.mem_cons_self).2 (he ▸ List.mem_of_getLast? hd)
  | first, next :: more, h, d, hd => by
    have hrest : ∀ piece ∈ next :: more, piece ≠ [] ∧ c ∉ piece := fun piece hp =>
      h piece (List.mem_cons_of_mem _ hp)
    have hne : next ++ more.flatMap (c :: ·) ≠ [] :=
      List.append_ne_nil_of_left_ne_nil (hrest next List.mem_cons_self).1 _
    rw [List.flatMap_cons, List.cons_append,
      List.getLast?_append_of_ne_nil _ (List.cons_ne_nil _ _),
      List.getLast?_cons_of_ne_nil hne] at hd
    exact join_getLast hrest d hd

end Join

/-! ## 3. The key of a path -/

/-- The characters of the text that a unit sequence is read as. -/
def lossyChars (w : Wide) : List Char := (toStringLossy w).toList

theorem lossyChars_append (front rest : Wide) :
    lossyChars (front ++ backslash :: rest) = lossyChars front ++ '\\' :: lossyChars rest := by
  have hback : decodeUnits (backslash :: rest) = some '\\' :: decodeUnits rest :=
    decodeUnits_scalar rest (by decide)
  rw [lossyChars, lossyChars, lossyChars, toStringLossy, toStringLossy, toStringLossy,
    String.toList_ofList, String.toList_ofList, String.toList_ofList,
    decodeUnits_append (by decide), hback, List.map_append]
  rfl

theorem lossyChars_join : ∀ (first : Wide) (more : List Wide),
    lossyChars (first ++ more.flatMap (backslash :: ·)) =
      lossyChars first ++ (more.map lossyChars).flatMap ('\\' :: ·)
  | first, [] => by simp
  | first, next :: more => by
    rw [List.flatMap_cons, List.cons_append, lossyChars_append, lossyChars_join next more,
      List.map_cons, List.flatMap_cons, List.cons_append]

/-- The text of a name without separators has none either. -/
theorem lossyChars_plain {name : Wide} (hne : name ≠ []) (h : ∀ u ∈ name, isSep u = false) :
    lossyChars name ≠ [] ∧ '\\' ∉ lossyChars name ∧ '/' ∉ lossyChars name := by
  have hreads : ReadsAs name (lossyChars name) := reads_toStringLossy name
  have hfree : ∀ d : Char, Plain d → isSep (unitOf d) = true → d ∉ lossyChars name := by
    intro d hd hsep hin
    rw [h _ ((hreads.mem_iff hd).mp hin)] at hsep
    cases hsep
  refine ⟨mt hreads.nil_iff.mp hne, hfree '\\' ?_ (by decide), hfree '/' ?_ (by decide)⟩
  · unfold Plain
    decide
  · unfold Plain
    decide

theorem trimEndBy_concat {p : Char → Bool} {c : Char} (hc : p c = true) (cs : List Char) :
    trimEndBy p (String.ofList (cs ++ [c])) = trimEndBy p (String.ofList cs) := by
  unfold trimEndBy
  rw [String.toList_ofList, String.toList_ofList, List.reverse_append, List.reverse_singleton,
    List.singleton_append, List.dropWhile_cons_of_pos hc]

theorem trimEndBy_of_last {p : Char → Bool} {cs : List Char}
    (h : ∀ c, cs.getLast? = some c → p c = false) :
    trimEndBy p (String.ofList cs) = String.ofList cs := by
  unfold trimEndBy
  rw [String.toList_ofList]
  cases hrev : cs.reverse with
  | nil =>
    rw [List.reverse_eq_nil_iff.mp hrev]
    rfl
  | cons c back =>
    have hlast : cs.getLast? = some c := by
      rw [← List.head?_reverse, hrev]
      rfl
    rw [List.dropWhile_cons_of_neg (by simp [h c hlast]), ← hrev, List.reverse_reverse]

section Key

variable {letter : UInt16} {names : List Wide}

/-- Drive and names of an accepted path, as pieces of its text. -/
theorem word_pieces (hletter : isAsciiLetter letter = true)
    (h : ∀ name ∈ names, ReleaseComponent name) :
    ∀ piece ∈ lossyChars [letter, colon] :: names.map lossyChars,
      piece ≠ [] ∧ '\\' ∉ piece ∧ '/' ∉ piece := by
  intro piece hpiece
  rcases List.mem_cons.mp hpiece with rfl | hpiece
  · refine lossyChars_plain (List.cons_ne_nil _ _) fun u hu => ?_
    simp only [List.mem_cons, List.not_mem_nil, or_false] at hu
    rcases hu with rfl | rfl
    · exact WinPath.isSep_of_letter hletter
    · decide
  · obtain ⟨name, hname, rfl⟩ := List.mem_map.mp hpiece
    exact lossyChars_plain (h name hname).nonempty (h name hname).not_sep

/-- The text of an accepted path; a drive root ends in a separator. -/
theorem lossyChars_word (letter : UInt16) (names : List Wide) :
    lossyChars (letter :: colon :: backslash :: [backslash].intercalate names) =
      lossyChars [letter, colon] ++ (names.map lossyChars).flatMap ('\\' :: ·) ++
        if names = [] then ['\\'] else [] := by
  cases names with
  | nil =>
    have hempty : lossyChars [] = [] := by simp [lossyChars, toStringLossy, decodeUnits]
    rw [List.map_nil, List.flatMap_nil, List.append_nil, if_pos rfl]
    exact (lossyChars_append [letter, colon] []).trans (by rw [hempty])
  | cons name names =>
    rw [intercalate_cons, if_neg (List.cons_ne_nil _ _), List.append_nil]
    exact lossyChars_join [letter, colon] (name :: names)

/-- **The key of an accepted path** is its components in lower case, with single backslashes
between them. -/
theorem normalizedPathKey_word {T : CaseTables} (hT : T.Separates '\\')
    (hletter : isAsciiLetter letter = true) (h : ∀ name ∈ names, ReleaseComponent name) :
    (normalizedPathKey T.toLowercase
        (letter :: colon :: backslash :: [backslash].intercalate names)).toList =
      T.lowerFrom [] (lossyChars [letter, colon]) ++
        (names.map fun name => T.lowerFrom [] (lossyChars name)).flatMap ('\\' :: ·) := by
  have hpieces := word_pieces hletter h
  let text := lossyChars [letter, colon] ++ (names.map lossyChars).flatMap ('\\' :: ·)
  have hslash : '/' ∉ text := by
    intro hin
    rcases List.mem_append.mp hin with hin | hin
    · exact (hpieces _ List.mem_cons_self).2.2 hin
    · obtain ⟨piece, hpiece, hin⟩ := List.mem_flatMap.mp hin
      rcases List.mem_cons.mp hin with he | hin
      · exact absurd he (by decide)
      · exact (hpieces piece (List.mem_cons_of_mem _ hpiece)).2.2 hin
  have hlast : ∀ c, text.getLast? = some c → (c == '\\') = false := by
    intro c hc
    simpa using join_getLast (fun piece hp => ⟨(hpieces piece hp).1, (hpieces piece hp).2.1⟩) c hc
  have htrim : trimEndBy (· == '\\') (replaceChar '/' '\\' (toStringLossy
      (letter :: colon :: backslash :: [backslash].intercalate names))) = String.ofList text := by
    have hkeep : ∀ more : List Char, '/' ∉ more →
        replaceChar '/' '\\' (String.ofList (text ++ more)) = String.ofList (text ++ more) := by
      intro more hmore
      refine replaceChar_of_not_mem ?_
      rw [String.toList_ofList, List.mem_append, not_or]
      exact ⟨hslash, hmore⟩
    have hword : toStringLossy (letter :: colon :: backslash :: [backslash].intercalate names) =
        String.ofList (text ++ if names = [] then ['\\'] else []) := by
      rw [← lossyChars_word letter names, lossyChars, String.ofList_toList]
    rw [hword]
    split
    · rw [hkeep _ (by decide), trimEndBy_concat (by decide)]
      exact trimEndBy_of_last hlast
    · rw [hkeep _ (by decide), List.append_nil]
      exact trimEndBy_of_last hlast
  rw [normalizedPathKey, htrim, CaseTables.toLowercase, String.toList_ofList, String.toList_ofList,
    CaseTables.lowerFrom_join hT, List.map_map]
  rfl

end Key

/-! ## 4. The test -/

/-- One of the two directions of the test. -/
theorem continues_iff (key key' : String) :
    (key == key' || ((stripFront key key').map (startsWith "\\")).getD false) = true ↔
      Continues '\\' key.toList key'.toList := by
  have hsep : "\\".toList = ['\\'] := by decide
  have hstrip : ((stripFront key key').map (startsWith "\\")).getD false = true ↔
      ∃ rest, key'.toList = key.toList ++ '\\' :: rest := by
    cases hs : stripFront key key' with
    | none =>
      refine iff_of_false (by simp) fun ⟨rest, hrest⟩ => ?_
      have happend : key' = key ++ String.ofList ('\\' :: rest) :=
        String.toList_inj.mp (by rw [String.toList_append, String.toList_ofList, hrest])
      rw [stripFront_eq_some.mpr happend] at hs
      cases hs
    | some suffix =>
      have hkey := stripFront_eq_some.mp hs
      rw [Option.map_some, Option.getD_some, hkey, String.toList_append]
      constructor
      · intro hstart
        obtain ⟨rest, hrest⟩ := List.isPrefixOf_iff_prefix.mp hstart
        rw [hsep, List.singleton_append] at hrest
        exact ⟨rest, by rw [hrest]⟩
      · intro ⟨rest, hrest⟩
        rw [startsWith, hsep, List.append_cancel_left hrest]
        exact List.isPrefixOf_iff_prefix.mpr ⟨rest, List.singleton_append⟩
  rw [Bool.or_eq_true, hstrip, beq_iff_eq, Continues, eq_comm (a := key), ← String.toList_inj]

theorem pathsOverlap_iff (lower : String → String) (p q : Wide) :
    pathsOverlap lower p q = true ↔
      Continues '\\' (normalizedPathKey lower p).toList (normalizedPathKey lower q).toList ∨
        Continues '\\' (normalizedPathKey lower q).toList (normalizedPathKey lower p).toList := by
  rw [← continues_iff, ← continues_iff, pathsOverlap, Bool.or_eq_true, Bool.or_eq_true,
    Bool.or_eq_true, beq_iff_eq, beq_iff_eq]
  constructor
  · rintro ((heq | hsecond) | hfirst)
    · exact .inl (.inl heq)
    · exact .inl (.inr hsecond)
    · exact .inr (.inr hfirst)
  · rintro ((heq | hsecond) | (heq | hfirst))
    · exact .inl (.inl heq)
    · exact .inl (.inr hsecond)
    · exact .inl (.inl heq.symm)
    · exact .inr hfirst

theorem accepted_iff (path : Wide) : Accepted path ↔ ReleasePath path := by
  constructor
  · intro ⟨label, normalized, h⟩
    exact ((releaseAbsolutePath_ok_iff path label normalized).mp h).1
  · intro h
    exact ⟨"", path, (releaseAbsolutePath_ok_iff path "" path).mpr ⟨h, rfl⟩⟩

/-- The components of a name in a directory. -/
theorem lowerComponents_join {base name : Wide} (hbase : Accepted base)
    (hname : ReleaseComponent name) (lower : String → String) :
    Accepted (join base name) ∧ lowerComponents lower (join base name) =
      lowerComponents lower base ++ [lower (toStringLossy name)] := by
  obtain ⟨letter, names, hletter, rfl, h⟩ := (accepted_iff base).mp hbase
  have hall : ∀ n ∈ names ++ [name], ReleaseComponent n := by
    intro n hn
    rcases List.mem_append.mp hn with hn | hn
    · exact h n hn
    · rw [List.mem_singleton.mp hn]
      exact hname
  rw [join_drive hletter fun n hn => (hall n hn).bare,
    lowerComponents_word hletter hall, lowerComponents_word hletter h]
  exact ⟨(accepted_iff _).mpr ⟨letter, _, hletter, rfl, hall⟩, by simp⟩

section Overlap

variable {T : CaseTables} (hT : T.Separates '\\')
include hT

/-- The key of an accepted path continues another one exactly if the components do. -/
theorem continues_components {p q : Wide} (hp : Accepted p) (hq : Accepted q) :
    Continues '\\' (normalizedPathKey T.toLowercase p).toList
        (normalizedPathKey T.toLowercase q).toList ↔
      lowerComponents T.toLowercase p <+: lowerComponents T.toLowercase q := by
  obtain ⟨letter, names, hletter, rfl, h⟩ := (accepted_iff p).mp hp
  obtain ⟨letter', names', hletter', rfl, h'⟩ := (accepted_iff q).mp hq
  have hfree : ∀ {pieces : List (List Char)}, (∀ piece ∈ pieces, piece ≠ [] ∧ '\\' ∉ piece ∧
      '/' ∉ piece) → ∀ piece ∈ pieces.map (T.lowerFrom []), '\\' ∉ piece := by
    intro pieces hpieces piece hpiece
    obtain ⟨source, hsource, rfl⟩ := List.mem_map.mp hpiece
    exact CaseTables.not_mem_lowerFrom hT (hpieces source hsource).2.1
  have hinj : Function.Injective String.ofList := fun a b hab => by
    simpa using congrArg String.toList hab
  have htexts : ∀ (letter : UInt16) (names : List Wide),
      ([letter, colon] :: names).map (fun name => T.toLowercase (toStringLossy name)) =
        ((lossyChars [letter, colon] :: names.map lossyChars).map (T.lowerFrom [])).map
          String.ofList := by
    intro letter names
    rw [← List.map_cons, List.map_map, List.map_map]
    rfl
  have hjoin := join_prefix_iff (hfree (word_pieces hletter h)) (hfree (word_pieces hletter' h'))
  rw [List.map_map, List.map_map] at hjoin
  rw [normalizedPathKey_word hT hletter h, normalizedPathKey_word hT hletter' h',
    lowerComponents_word hletter h, lowerComponents_word hletter' h', htexts, htexts,
    List.prefix_map_iff_of_injective hinj, List.map_cons, List.map_cons, List.map_map, List.map_map]
  exact hjoin

/-- **The overlap test is the component-prefix relation.** Of paths that `release_absolute_path`
accepts, two overlap exactly if the components of one, in lower case, start those of the other. So
the test is symmetric and reflexive, and two names of one directory overlap only if they are the
same in lower case, whatever text they share. -/
theorem paths_overlap_iff_prefix :
    (∀ p q, Accepted p → Accepted q → (pathsOverlap T.toLowercase p q = true ↔
      lowerComponents T.toLowercase p <+: lowerComponents T.toLowercase q ∨
        lowerComponents T.toLowercase q <+: lowerComponents T.toLowercase p)) ∧
    (∀ p q, pathsOverlap T.toLowercase p q = pathsOverlap T.toLowercase q p) ∧
    (∀ p, pathsOverlap T.toLowercase p p = true) ∧
    (∀ base name name' label, Accepted base → validateWindowsComponent name label = .ok () →
      validateWindowsComponent name' label = .ok () →
      (pathsOverlap T.toLowercase (join base name) (join base name') = true ↔
        T.toLowercase (toStringLossy name) = T.toLowercase (toStringLossy name'))) := by
  have hleads : ∀ p q, Accepted p → Accepted q → (pathsOverlap T.toLowercase p q = true ↔
      lowerComponents T.toLowercase p <+: lowerComponents T.toLowercase q ∨
        lowerComponents T.toLowercase q <+: lowerComponents T.toLowercase p) := by
    intro p q hp hq
    rw [pathsOverlap_iff, continues_components hT hp hq, continues_components hT hq hp]
  refine ⟨hleads, fun p q => ?_, fun p => ?_, ?_⟩
  · rw [Bool.eq_iff_iff, pathsOverlap_iff, pathsOverlap_iff, or_comm]
  · exact (pathsOverlap_iff _ p p).mpr (.inl (.inl rfl))
  · intro base name name' label hbase hname hname'
    obtain ⟨hjoin, hcomps⟩ := lowerComponents_join hbase
      ((validateWindowsComponent_ok_iff name label).mp hname) T.toLowercase
    obtain ⟨hjoin', hcomps'⟩ := lowerComponents_join hbase
      ((validateWindowsComponent_ok_iff name' label).mp hname') T.toLowercase
    have hsame : ∀ {front : List String} {a b : String}, front ++ [a] <+: front ++ [b] → a = b := by
      intro front a b hab
      simpa using hab.eq_of_length (by simp)
    rw [hleads _ _ hjoin hjoin', hcomps, hcomps']
    constructor
    · rintro (hab | hba)
      · exact hsame hab
      · exact (hsame hba).symm
    · intro heq
      exact .inl (by rw [heq])

end Overlap

/-! ## 5. A Greek name -/

def isGreekOrAsciiCapital (c : Char) : Bool :=
  ('A' ≤ c && c ≤ 'Z') || ('Α' ≤ c && c ≤ 'Ρ') || ('Σ' ≤ c && c ≤ 'Ω')

/-- The case tables on ASCII and on the Greek letters without accents. -/
def greekTables : CaseTables where
  lower c := [if isGreekOrAsciiCapital c then Char.ofNat (c.toNat + 32) else c]
  cased c := isGreekOrAsciiCapital c || ('a' ≤ c && c ≤ 'z') || ('α' ≤ c && c ≤ 'ω')
  caseIgnorable c := ['\'', '.', ':', '^', '`'].contains c

theorem greekTables_separates : greekTables.Separates '\\' where
  ne_sigma := by decide
  fixed := by decide
  only := by
    intro c hc
    have hc := List.mem_singleton.mp hc
    split at hc
    · next hcapital =>
      have hrange : 65 ≤ c.toNat ∧ c.toNat ≤ 0x3A9 := by
        simp only [isGreekOrAsciiCapital, Bool.or_eq_true, Bool.and_eq_true, decide_eq_true_eq]
          at hcapital
        rcases hcapital with (hascii | hfirst) | hsecond
        · have hlow : 65 ≤ c.toNat := hascii.1
          have hhigh : c.toNat ≤ 90 := hascii.2
          omega
        · have hlow : 0x391 ≤ c.toNat := hfirst.1
          have hhigh : c.toNat ≤ 0x3A1 := hfirst.2
          omega
        · have hlow : 0x3A3 ≤ c.toNat := hsecond.1
          have hhigh : c.toNat ≤ 0x3A9 := hsecond.2
          omega
      have hnat := congrArg Char.toNat hc
      rw [toNat_char (n := c.toNat + 32) (by simp only [Nat.isValidChar]; omega)] at hnat
      have hbackslash : '\\'.toNat = 92 := rfl
      omega
    · exact hc.symm
  notCased := by decide
  notIgnorable := by decide
  ne_small := by decide
  ne_final := by decide

/-- A name that ends in a sigma: it is the same name behind a separator and in other case, and it
does not overlap with a longer name of its directory. -/
theorem paths_overlap_iff_prefix_sample :
    pathsOverlap greekTables.toLowercase (encodeWide "C:\\ΟΔΟΣ") (encodeWide "c:\\οδος\\a") = true ∧
      pathsOverlap greekTables.toLowercase (encodeWide "C:\\") (encodeWide "C:\\ΟΔΟΣ") = true ∧
      pathsOverlap greekTables.toLowercase (encodeWide "C:\\ΟΔΟΣ") (encodeWide "C:\\ΟΔΟΣΑ") =
        false := by
  have haccepted : ∀ text ∈ ["C:\\ΟΔΟΣ", "c:\\οδος\\a", "C:\\", "C:\\ΟΔΟΣΑ"],
      Accepted (encodeWide text) := by
    intro text htext
    refine ⟨"source", encodeWide text, ?_⟩
    revert text
    decide +kernel
  obtain ⟨hiff, -⟩ := paths_overlap_iff_prefix greekTables_separates
  refine ⟨?_, ?_, ?_⟩
  · exact (hiff _ _ (haccepted _ (by simp)) (haccepted _ (by simp))).mpr (.inl (by decide +kernel))
  · exact (hiff _ _ (haccepted _ (by simp)) (haccepted _ (by simp))).mpr (.inl (by decide +kernel))
  · rw [Bool.eq_false_iff, Ne, hiff _ _ (haccepted _ (by simp)) (haccepted _ (by simp))]
    decide +kernel

end WinProfile.Migration
