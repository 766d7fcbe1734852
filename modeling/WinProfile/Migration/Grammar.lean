/-
  File:      WinProfile/Migration/Grammar.lean
  Subject:   The grammar of the paths a migration may name, and that `release_absolute_path` accepts
             exactly its words.

  * `ReleaseComponent`, `ReleasePath` -- the grammar, on UTF-16 units and without the parser.
  * `validateWindowsComponent_ok_iff` -- the check of one component decides its grammar, although
    it looks at a lossy text.
  * `releaseAbsolutePath_ok_iff` -- raw scan, component parser, component check and rebuilding
    agree: what is accepted is a word of the grammar, and comes back unit by unit.
-/
import WinProfile.Lib.Framing
import WinProfile.Lib.Units
import WinProfile.Lib.Pieces
import WinProfile.Migration.Paths

namespace WinProfile.Migration

open Framing (intercalate_cons)
open WinPath (pieces isSep backslash slash colon dot isAsciiLetter components parsePiece join Bare
  Steady)

/-! ## 1. The grammar -/

/-- The names of devices, in capitals. -/
def devices : List String :=
  ["CON", "PRN", "AUX", "NUL", "CONIN$", "CONOUT$"] ++ deviceDigits.map ("COM" ++ ·) ++
    deviceDigits.map ("LPT" ++ ·)

/-- Units that name a device, whatever the case of their letters. -/
def DeviceName (stem : Wide) : Prop := ∃ device ∈ devices, stem.map upperUnit = encodeWide device

/-- One component of a path. -/
structure ReleaseComponent (name : Wide) : Prop where
  nonempty : name ≠ []
  noDot : name.getLast? ≠ some dot
  noSpace : name.getLast? ≠ some 0x20
  /-- No control character, and none of `< > : " / \ | ? *`. -/
  plain : ∀ u ∈ name, 0x1F < u.toNat ∧ u.toNat ∉ forbiddenChars
  noDevice : ¬ DeviceName (name.takeWhile (· != dot))

/-- A letter, a colon, a backslash, and components between single backslashes. -/
def ReleasePath (w : Wide) : Prop :=
  ∃ letter names, isAsciiLetter letter = true ∧
    w = letter :: colon :: backslash :: [backslash].intercalate names ∧
    ∀ name ∈ names, ReleaseComponent name

/-! ## 2. Components -/

theorem stripFront_eq_some {p s r : String} : stripFront p s = some r ↔ s = p ++ r := by
  constructor
  · intro h
    unfold stripFront at h
    split at h
    · next hp =>
      obtain ⟨rest, hrest⟩ := List.isPrefixOf_iff_prefix.mp hp
      rw [← Option.some.inj h, ← String.toList_inj, String.toList_append, String.toList_ofList,
        ← hrest, List.drop_left]
    · cases h
  · rintro rfl
    exact stripFront_append p r

/-- The suffixes of `p` that are listed, as whole names. -/
theorem stripFront_contains (p s : String) (digits : List String) :
    ((stripFront p s).map digits.contains).getD false = true ↔ s ∈ digits.map (p ++ ·) := by
  rw [List.mem_map]
  cases h : stripFront p s with
  | none =>
    refine iff_of_false (by simp) ?_
    intro ⟨d, _, hd⟩
    rw [stripFront_eq_some.mpr hd.symm] at h
    cases h
  | some r =>
    have hs := stripFront_eq_some.mp h
    simp only [Option.map_some, Option.getD_some, List.contains_iff_mem]
    constructor
    · exact fun hr => ⟨r, hr, hs.symm⟩
    · intro ⟨d, hd, hds⟩
      rw [stripFront_eq_some.mpr hds.symm] at h
      exact Option.some.inj h ▸ hd

theorem isReserved_iff (upper : String) : isReserved upper = true ↔ upper ∈ devices := by
  rw [isReserved, Bool.or_eq_true, Bool.or_eq_true, stripFront_contains, stripFront_contains,
    List.contains_iff_mem, devices, List.mem_append, List.mem_append]

theorem plain_devices : ∀ device ∈ devices, ∀ c ∈ device.toList, Plain c := by
  have hall : devices.all (fun device => device.toList.all fun c => decide (c.toNat < 0xD800)) := by
    decide +kernel
  intro device hdevice
  have hsmall : ∀ c ∈ device.toList, c.toNat < 0xD800 :=
    forall_mem_of_all (List.all_eq_true.mp hall device hdevice)
  exact hsmall

theorem splitAtChar_head (c : Char) (s : List Char) :
    (splitAtChar c s).headD [] = s.takeWhile (· != c) := by
  induction s with
  | nil => rfl
  | cons d s ih =>
    by_cases hd : d = c
    · simp [splitAtChar, hd]
    · rw [List.takeWhile_cons_of_pos (by simpa using hd), ← ih, splitAtChar, if_neg hd]
      cases splitAtChar c s <;> rfl

/-- The characters a component may not have, asked of the units. -/
theorem forbidden_iff {w : Wide} {cs : List Char} (h : ReadsAs w cs) :
    cs.any (fun c => c.toNat ≤ 0x1F || forbiddenChars.contains c.toNat) = true ↔
      ¬ ∀ u ∈ w, 0x1F < u.toNat ∧ u.toNat ∉ forbiddenChars := by
  have hsmall : ∀ n : Nat, n ≤ 0x1F ∨ n ∈ forbiddenChars → n < 0xD800 := by
    intro n hn
    rcases hn with hn | hn
    · omega
    · revert n
      decide
  rw [List.any_eq_true]
  push Not
  constructor
  · intro ⟨c, hc, hbad⟩
    have hbad : c.toNat ≤ 0x1F ∨ c.toNat ∈ forbiddenChars := by simpa using hbad
    have hplain : Plain c := hsmall _ hbad
    refine ⟨unitOf c, (h.mem_iff hplain).mp hc, fun hlt => ?_⟩
    rw [toNat_unitOf hplain] at hlt ⊢
    exact hbad.resolve_left (by omega)
  · intro ⟨u, hu, hbad⟩
    have hbad : u.toNat ≤ 0x1F ∨ u.toNat ∈ forbiddenChars := by
      by_cases hlt : 0x1F < u.toNat
      · exact .inr (hbad hlt)
      · exact .inl (by omega)
    have hlt := hsmall _ hbad
    have hchar : (Char.ofNat u.toNat).toNat = u.toNat :=
      toNat_char (by simp only [Nat.isValidChar]; omega)
    have hplain : Plain (Char.ofNat u.toNat) := by
      unfold Plain
      omega
    have hunit : unitOf (Char.ofNat u.toNat) = u := by
      rw [unitOf, hchar]
      simp
    refine ⟨Char.ofNat u.toNat, (h.mem_iff hplain).mpr ?_, ?_⟩
    · rw [hunit]
      exact hu
    rw [hchar]
    simpa using hbad

/-- The device check, asked of the units. -/
theorem reserved_iff {w : Wide} {cs : List Char} (h : ReadsAs w cs) :
    isReserved (toAsciiUppercase (String.ofList cs)) = true ↔ DeviceName w := by
  rw [isReserved_iff, DeviceName]
  have hone : ∀ device ∈ devices, toAsciiUppercase (String.ofList cs) = device ↔
      w.map upperUnit = encodeWide device := by
    intro device hd
    have hplain := plain_devices device hd
    rw [encodeWide_plain hplain, ← h.upper_iff hplain, ← String.toList_inj, toAsciiUppercase,
      String.toList_ofList, String.toList_ofList]
  constructor
  · intro hd
    exact ⟨_, hd, (hone _ hd).mp rfl⟩
  · intro ⟨device, hd, heq⟩
    rw [(hone device hd).mpr heq]
    exact hd

/-- **The check of a component decides its grammar.** -/
theorem validateWindowsComponent_ok_iff (name : Wide) (label : String) :
    validateWindowsComponent name label = .ok () ↔ ReleaseComponent name := by
  have hreads := reads_toStringLossy name
  have hdot : Plain '.' := by
    unfold Plain
    decide
  have hspace : Plain ' ' := by
    unfold Plain
    decide
  have hstem : isReserved (toAsciiUppercase
      (String.ofList ((splitAtChar '.' (toStringLossy name).toList).headD []))) = true ↔
        DeviceName (name.takeWhile (· != dot)) := by
    rw [splitAtChar_head]
    exact reserved_iff (hreads.takeWhile hdot)
  unfold validateWindowsComponent
  simp only [hreads.nil_iff, hreads.getLast_iff hdot, hreads.getLast_iff hspace,
    forbidden_iff hreads]
  have hunits : unitOf '.' = dot ∧ unitOf ' ' = 0x20 := by decide
  rw [hunits.1, hunits.2]
  split
  · next hbad =>
    refine iff_of_false nofun fun hname => ?_
    rcases hbad with h | h | h | h
    · exact hname.nonempty h
    · exact hname.noDot h
    · exact hname.noSpace h
    · exact h hname.plain
  · next hgood =>
    push Not at hgood
    obtain ⟨hne, hd, hs, hplain⟩ := hgood
    split
    · next hdev => exact iff_of_false nofun fun hname => hname.noDevice (hstem.mp hdev)
    · next hdev => exact iff_of_true rfl ⟨hne, hd, hs, hplain, fun h => hdev (hstem.mpr h)⟩

theorem ReleaseComponent.not_sep {name : Wide} (h : ReleaseComponent name) :
    ∀ u ∈ name, isSep u = false := by
  intro u hu
  rw [WinPath.isSep_eq_false]
  have hu := (h.plain u hu).2
  constructor <;> intro he <;> rw [he] at hu <;> exact hu (by decide)

/-- A component is written behind a path as it is. -/
theorem ReleaseComponent.bare {name : Wide} (h : ReleaseComponent name) : Bare name :=
  ⟨h.nonempty, h.not_sep,
    WinPath.isDrive_eq_false fun hcolon => (h.plain colon hcolon).2 (by decide)⟩

/-- A component is none of the pieces that mean something else. -/
theorem ReleaseComponent.ne_dots {name : Wide} (h : ReleaseComponent name) :
    name ≠ [] ∧ name ≠ [dot] ∧ name ≠ [dot, dot] := by
  refine ⟨h.nonempty, ?_, ?_⟩ <;> intro he <;> have hd := h.noDot <;> rw [he] at hd <;>
    exact hd rfl

/-! ## 3. Paths -/

/-- What the raw scan lets through: a drive with its root, and a remainder without slashes that is
empty or has no piece with a meaning of its own. -/
theorem validateRawReleasePath_ok_iff (w : Wide) (label : String) :
    validateRawReleasePath w label = .ok () ↔
      ∃ letter remainder, w = letter :: colon :: backslash :: remainder ∧
        isAsciiLetter letter = true ∧ slash ∉ remainder ∧
        (remainder = [] ∨ ∀ piece ∈ pieces (· == backslash) remainder,
          piece ≠ [] ∧ piece ≠ [dot] ∧ piece ≠ [dot, dot]) := by
  unfold validateRawReleasePath
  split
  · next d c b remainder =>
    split
    · next hbad =>
      refine iff_of_false nofun ?_
      intro ⟨letter, rest, hw, hletter, hslash, _⟩
      obtain ⟨rfl, rfl, rfl, rfl⟩ : d = letter ∧ c = colon ∧ b = backslash ∧ remainder = rest := by
        simpa using hw
      have hne : slash ≠ d := by
        intro he
        rw [← he] at hletter
        exact absurd hletter (by decide)
      simp [hletter, hslash, hne, show ¬ slash = colon by decide,
        show ¬ slash = backslash by decide] at hbad
    · next hgood =>
      have hgood : isAsciiLetter d = true ∧ c = colon ∧ b = backslash ∧ slash ∉ remainder := by
        simp only [Bool.or_eq_true, Bool.not_eq_true', bne_iff_ne, List.contains_iff_mem,
          List.mem_cons, not_or, not_not, Bool.not_eq_false] at hgood
        exact ⟨hgood.1.1.1, hgood.1.1.2, hgood.1.2, hgood.2.2.2.2⟩
      obtain ⟨hletter, rfl, rfl, hslash⟩ := hgood
      have hshape : ∀ {P : Wide → Prop}, (∃ letter rest,
          d :: colon :: backslash :: remainder = letter :: colon :: backslash :: rest ∧
            isAsciiLetter letter = true ∧ slash ∉ rest ∧ P rest) ↔ P remainder := by
        intro P
        constructor
        · intro ⟨letter, rest, hw, _, _, hP⟩
          obtain ⟨rfl, rfl⟩ : d = letter ∧ remainder = rest := by simpa using hw
          exact hP
        · exact fun hP => ⟨d, remainder, rfl, hletter, hslash, hP⟩
      rw [hshape]
      split
      · next hnil => exact iff_of_true rfl (.inl hnil)
      · next hnil =>
        split
        · next hany =>
          refine iff_of_false nofun ?_
          intro h
          obtain ⟨piece, hp, hbad⟩ := List.any_eq_true.mp hany
          obtain ⟨h₁, h₂, h₃⟩ := (h.resolve_left hnil) piece hp
          simp [h₁, h₂, h₃] at hbad
        · next hany =>
          refine iff_of_true rfl (.inr ?_)
          intro piece hp
          have hp := fun h => hany (List.any_eq_true.mpr ⟨piece, hp, h⟩)
          simpa [and_assoc] using hp
  · next hshort =>
    refine iff_of_false nofun ?_
    intro ⟨letter, rest, hw, _⟩
    exact hshort _ _ _ _ hw

/-- Plain pieces are components. -/
theorem filterMap_parsePiece {names : List Wide}
    (h : ∀ name ∈ names, name ≠ [] ∧ name ≠ [dot] ∧ name ≠ [dot, dot]) :
    names.filterMap (parsePiece false) = names.map .normal := by
  rw [← List.filterMap_eq_map]
  refine List.filterMap_congr fun name hn => ?_
  obtain ⟨h₁, h₂, h₃⟩ := h name hn
  simp [parsePiece, h₁, h₂, h₃]

/-- The loop over plain components: every one passes its check and is pushed. -/
theorem pushComponents_ok_iff (label : String) : ∀ (names : List Wide) (base p : Wide),
    pushComponents label base (names.map .normal) = .ok p ↔
      (∀ name ∈ names, ReleaseComponent name) ∧ p = names.foldl join base
  | [], base, p => by
    simp [pushComponents, eq_comm]
  | name :: names, base, p => by
    rw [List.map_cons, pushComponents]
    cases h : validateWindowsComponent name label with
    | error e =>
      refine iff_of_false nofun fun hall => ?_
      rw [(validateWindowsComponent_ok_iff name label).mpr (hall.1 name List.mem_cons_self)] at h
      cases h
    | ok _ =>
      have hname := (validateWindowsComponent_ok_iff name label).mp h
      rw [List.forall_mem_cons, List.foldl_cons, and_iff_right hname]
      exact pushComponents_ok_iff label names (join base name) p

theorem foldl_join : ∀ (names : List Wide) (base : Wide) (u : UInt16), Steady base →
    base.getLast? = some u → isSep u = false → (∀ name ∈ names, Bare name) →
    names.foldl join base = base ++ names.flatMap (backslash :: ·)
  | [], base, _, _, _, _, _ => by simp
  | name :: names, base, u, hbase, hu, hsep, h => by
    have hbare := h name List.mem_cons_self
    have hjoin : join base name = base ++ backslash :: name := by
      rw [hbase.join_eq hbare.unrooted, hu]
      simp [hsep]
    have hlast : (base ++ backslash :: name).getLast? = some (name.getLast hbare.nonempty) := by
      rw [List.getLast?_append, List.getLast?_cons, List.getLast?_eq_some_getLast hbare.nonempty]
      rfl
    have hnext := hbase.join hbare.unrooted
    rw [hjoin] at hnext
    rw [List.foldl_cons, hjoin, foldl_join names _ _ hnext hlast
      (hbare.noSep _ (List.getLast_mem hbare.nonempty)) fun n hn => h n (List.mem_cons_of_mem _ hn)]
    simp

/-- The loop puts the path together again. -/
theorem foldl_join_drive {letter : UInt16} (hletter : isAsciiLetter letter = true)
    (names : List Wide) (h : ∀ name ∈ names, Bare name) :
    names.foldl join [letter, colon, backslash] =
      letter :: colon :: backslash :: [backslash].intercalate names := by
  cases names with
  | nil => rfl
  | cons name names =>
    have hbare := h name List.mem_cons_self
    have hroot := WinPath.steady_drive hletter []
    have hjoin : join [letter, colon, backslash] name = [letter, colon, backslash] ++ name := by
      rw [hroot.join_eq hbare.unrooted]
      rfl
    have hnext := hroot.join hbare.unrooted
    rw [hjoin] at hnext
    have hlast : ([letter, colon, backslash] ++ name).getLast? =
        some (name.getLast hbare.nonempty) := by
      rw [List.getLast?_append, List.getLast?_eq_some_getLast hbare.nonempty]
      rfl
    rw [List.foldl_cons, hjoin, foldl_join names _ _ hnext hlast
      (hbare.noSep _ (List.getLast_mem hbare.nonempty)) fun n hn => h n (List.mem_cons_of_mem _ hn),
      intercalate_cons]
    rfl

/-- A remainder that the raw scan let through is put together from plain names. -/
theorem exists_names {remainder : Wide} (hslash : slash ∉ remainder)
    (h : remainder = [] ∨ ∀ piece ∈ pieces (· == backslash) remainder,
      piece ≠ [] ∧ piece ≠ [dot] ∧ piece ≠ [dot, dot]) :
    ∃ names, remainder = [backslash].intercalate names ∧
      (pieces isSep remainder).filterMap (parsePiece false) = names.map .normal := by
  rcases h with rfl | h
  · exact ⟨[], rfl, rfl⟩
  have hsame : pieces isSep remainder = pieces (· == backslash) remainder := by
    refine WinPath.pieces_congr fun u hu => ?_
    have hne : u ≠ slash := fun he => hslash (he ▸ hu)
    simp [isSep, hne]
  refine ⟨pieces (· == backslash) remainder, (WinPath.intercalate_pieces backslash remainder).symm,
    ?_⟩
  rw [hsame]
  exact filterMap_parsePiece h

/-- The raw scan lets the words of the grammar through. -/
theorem validateRawReleasePath_word {letter : UInt16} {names : List Wide}
    (hletter : isAsciiLetter letter = true) (h : ∀ name ∈ names, ReleaseComponent name)
    (label : String) :
    validateRawReleasePath (letter :: colon :: backslash :: [backslash].intercalate names) label =
      .ok () := by
  refine (validateRawReleasePath_ok_iff _ _).mpr ⟨letter, _, rfl, hletter, ?_, ?_⟩
  · intro hmem
    cases names with
    | nil => exact nomatch hmem
    | cons name names =>
      rw [intercalate_cons, List.mem_append, List.mem_flatMap] at hmem
      rcases hmem with hmem | ⟨next, hnext, hmem⟩
      · exact absurd ((h name List.mem_cons_self).not_sep _ hmem) (by decide)
      · rcases List.mem_append.mp hmem with hmem | hmem
        · exact absurd hmem (by decide)
        · exact absurd ((h next (List.mem_cons_of_mem _ hnext)).not_sep _ hmem) (by decide)
  · by_cases hnil : names = []
    · exact .inl (by rw [hnil]; rfl)
    · refine .inr fun piece hp => ?_
      rw [WinPath.pieces_intercalate (by simp) hnil fun name hn u hu => ?_] at hp
      · exact (h piece hp).ne_dots
      · have hu := WinPath.isSep_eq_false.mp ((h name hn).not_sep u hu)
        simpa using hu.1

/-- The components of a word. -/
theorem components_word {letter : UInt16} {names : List Wide} (hletter : isAsciiLetter letter = true)
    (h : ∀ name ∈ names, ReleaseComponent name) :
    components (letter :: colon :: backslash :: [backslash].intercalate names) =
      .drive .disk [letter, colon] :: .rootDir :: names.map .normal := by
  rw [WinPath.components_drive hletter]
  by_cases hnil : names = []
  · rw [hnil]
    rfl
  · rw [WinPath.pieces_intercalate (by decide) hnil fun name hn => (h name hn).not_sep,
      filterMap_parsePiece fun name hn => (h name hn).ne_dots]

/-- Behind the raw scan: every component is checked, and the path is put together again. -/
theorem releaseAbsolutePath_parts {letter : UInt16} {remainder : Wide} {names : List Wide}
    {label : String} (p : Wide)
    (hraw : validateRawReleasePath (letter :: colon :: backslash :: remainder) label = .ok ())
    (hcomps : components (letter :: colon :: backslash :: remainder) =
      .drive .disk [letter, colon] :: .rootDir :: names.map .normal)
    (hback : (∀ name ∈ names, ReleaseComponent name) →
      names.foldl join [letter, colon, backslash] = letter :: colon :: backslash :: remainder) :
    releaseAbsolutePath (letter :: colon :: backslash :: remainder) label = .ok p ↔
      (∀ name ∈ names, ReleaseComponent name) ∧
        p = letter :: colon :: backslash :: remainder := by
  have hpush : ∀ normalized, pushComponents label [letter, colon, backslash] (names.map .normal) =
      .ok normalized ↔ (∀ name ∈ names, ReleaseComponent name) ∧
        normalized = letter :: colon :: backslash :: remainder := by
    intro normalized
    rw [pushComponents_ok_iff]
    refine and_congr_right fun hall => ?_
    rw [hback hall]
  rw [← hpush, releaseAbsolutePath, if_neg (List.cons_ne_nil _ _), hraw, hcomps]
  show (pushComponents label [letter, colon, backslash] (names.map .normal) >>= fun normalized =>
    if _ = components normalized then pure normalized else _) = Except.ok p ↔ _
  cases hrun : pushComponents label [letter, colon, backslash] (names.map .normal) with
  | error e => exact Iff.rfl
  | ok normalized =>
    have hsame := ((hpush normalized).mp hrun).2
    show (if _ = components normalized then pure normalized else _) = Except.ok p ↔ _
    rw [hsame, hcomps, if_pos rfl]
    exact Iff.rfl

/-- **`release_absolute_path` accepts exactly the words of the grammar**, and gives them back. -/
theorem releaseAbsolutePath_ok_iff (w : Wide) (label : String) (p : Wide) :
    releaseAbsolutePath w label = .ok p ↔ ReleasePath w ∧ p = w := by
  constructor
  · intro hok
    have hraw : validateRawReleasePath w label = .ok () := by
      cases hraw : validateRawReleasePath w label with
      | ok _ => rfl
      | error e =>
        rw [releaseAbsolutePath, hraw] at hok
        split at hok <;> cases hok
    obtain ⟨letter, remainder, rfl, hletter, hslash, hrem⟩ :=
      (validateRawReleasePath_ok_iff w label).mp hraw
    obtain ⟨names, hnames, hparsed⟩ := exists_names hslash hrem
    have hcomps := WinPath.components_drive hletter remainder
    rw [hparsed] at hcomps
    have hback := fun hall : ∀ name ∈ names, ReleaseComponent name =>
      foldl_join_drive hletter names fun name hn => (hall name hn).bare
    rw [← hnames] at hback
    obtain ⟨hall, hp⟩ := (releaseAbsolutePath_parts p hraw hcomps hback).mp hok
    exact ⟨⟨letter, names, hletter, by rw [← hnames], hall⟩, hp⟩
  · intro ⟨⟨letter, names, hletter, hw, hall⟩, hp⟩
    have hback := foldl_join_drive hletter names fun name hn => (hall name hn).bare
    rw [hp, hw]
    exact (releaseAbsolutePath_parts _ (validateRawReleasePath_word hletter hall label)
      (components_word hletter hall) fun _ => hback).mpr ⟨hall, rfl⟩

/-- A path that is put together from names is a word exactly when the names are components. -/
theorem releasePath_iff {letter : UInt16} {names : List Wide} (hletter : isAsciiLetter letter = true)
    (hne : names ≠ []) (h : ∀ name ∈ names, name ≠ [] ∧ ∀ v ∈ name, isSep v = false) :
    ReleasePath (letter :: colon :: backslash :: [backslash].intercalate names) ↔
      ∀ name ∈ names, ReleaseComponent name := by
  constructor
  · intro ⟨letter', names', _, hw, hall⟩
    have hsame : [backslash].intercalate names = [backslash].intercalate names' := by
      simpa using (List.cons.inj hw).2
    have hroot : isSep backslash = true := by decide
    have hpieces := WinPath.pieces_intercalate hroot hne fun n hn => (h n hn).2
    by_cases hnil : names' = []
    · rw [hsame, hnil] at hpieces
      have hin : [] ∈ names := hpieces ▸ List.mem_cons_self
      exact absurd rfl (h [] hin).1
    · rw [hsame, WinPath.pieces_intercalate hroot hnil fun n hn => (hall n hn).not_sep]
        at hpieces
      exact hpieces ▸ hall
  · exact fun hall => ⟨letter, names, hletter, rfl, hall⟩

/-- A name is pushed behind the others. -/
theorem join_drive {letter : UInt16} (hletter : isAsciiLetter letter = true) {names : List Wide}
    {name : Wide} (h : ∀ n ∈ names ++ [name], Bare n) :
    join (letter :: colon :: backslash :: [backslash].intercalate names) name =
      letter :: colon :: backslash :: [backslash].intercalate (names ++ [name]) := by
  rw [← foldl_join_drive hletter names fun n hn => h n (List.mem_append_left _ hn),
    ← foldl_join_drive hletter (names ++ [name]) h, List.foldl_append]
  rfl

end WinProfile.Migration
