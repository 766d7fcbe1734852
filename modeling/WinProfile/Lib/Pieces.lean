/-
  File:      WinProfile/Lib/Pieces.lean
  Subject:   What `Path::components` makes of a path, in terms of the pieces between its separators.

  * `intercalate_pieces`, `pieces_intercalate` -- a path and its pieces determine each other.
  * `components_drive` -- the components of a path that starts with a drive and its root.
  * `Steady.join_eq` -- a name without prefix and root is written behind a path.
  * `parent_drive` -- the parent of such a path is the path without its last name.
  * `components_single` -- when a path without a colon is one plain component: it may end in
    separators and single dots.
-/
import Mathlib.Data.List.TakeWhile
import WinProfile.Lib.WinPath

namespace WinProfile.WinPath

variable {sep sep' : UInt16 → Bool} {w : Wide}

/-! ## 1. Pieces -/

theorem pieces_ne_nil (sep : UInt16 → Bool) (w : Wide) : pieces sep w ≠ [] := by
  cases w with
  | nil => exact List.cons_ne_nil _ _
  | cons u us =>
    rw [pieces]
    split
    · exact List.cons_ne_nil _ _
    · split <;> exact List.cons_ne_nil _ _

theorem pieces_cons_sep {u : UInt16} (us : Wide) (h : sep u = true) :
    pieces sep (u :: us) = [] :: pieces sep us := by
  rw [pieces, if_pos h]

theorem pieces_cons {u : UInt16} {us : Wide} {piece : Wide} {more : List Wide} (h : sep u = false)
    (hus : pieces sep us = piece :: more) : pieces sep (u :: us) = (u :: piece) :: more := by
  rw [pieces, if_neg (by simp [h]), hus]

/-- The first piece and the others, of a path that does not start with a separator. -/
theorem exists_pieces (sep : UInt16 → Bool) (w : Wide) :
    ∃ piece more, pieces sep w = piece :: more := List.exists_cons_of_ne_nil (pieces_ne_nil sep w)

theorem pieces_congr (h : ∀ u ∈ w, sep u = sep' u) : pieces sep w = pieces sep' w := by
  induction w with
  | nil => rfl
  | cons u us ih =>
    have hus := ih fun v hv => h v (List.mem_cons_of_mem _ hv)
    rw [pieces, pieces, h u List.mem_cons_self, hus]

/-- A piece holds units of the path, and no separator. -/
theorem mem_pieces : ∀ {w : Wide} {piece : Wide}, piece ∈ pieces sep w →
    ∀ u ∈ piece, u ∈ w ∧ sep u = false
  | [], piece, h => by
    rw [pieces, List.mem_singleton] at h
    rw [h]
    exact fun u hu => (nomatch hu)
  | v :: us, piece, h => by
    obtain ⟨first, more, hus⟩ := exists_pieces sep us
    have hrest : ∀ p ∈ pieces sep us, ∀ u ∈ p, u ∈ v :: us ∧ sep u = false := fun p hp u hu =>
      ⟨List.mem_cons_of_mem _ (mem_pieces hp u hu).1, (mem_pieces hp u hu).2⟩
    cases hv : sep v with
    | true =>
      rw [pieces_cons_sep us hv] at h
      rcases List.mem_cons.mp h with rfl | h
      · exact fun u hu => (nomatch hu)
      · exact hrest piece h
    | false =>
      rw [pieces_cons hv hus] at h
      rcases List.mem_cons.mp h with rfl | h
      · intro u hu
        rcases List.mem_cons.mp hu with rfl | hu
        · exact ⟨List.mem_cons_self, hv⟩
        · exact hrest first (hus ▸ List.mem_cons_self) u hu
      · exact hrest piece (hus ▸ List.mem_cons_of_mem _ h)

/-- What has no separator is one piece. -/
theorem pieces_single (h : ∀ u ∈ w, sep u = false) : pieces sep w = [w] := by
  induction w with
  | nil => rfl
  | cons u us ih =>
    exact pieces_cons (h u List.mem_cons_self) (ih fun v hv => h v (List.mem_cons_of_mem _ hv))

theorem pieces_append {u : UInt16} (hu : sep u = true) (us name : Wide)
    (h : ∀ v ∈ name, sep v = false) : pieces sep (name ++ u :: us) = name :: pieces sep us := by
  induction name with
  | nil => exact pieces_cons_sep us hu
  | cons v name ih =>
    exact pieces_cons (h v List.mem_cons_self) (ih fun x hx => h x (List.mem_cons_of_mem _ hx))

/-- A path from its pieces. -/
theorem intercalate_pieces (s : UInt16) : ∀ w : Wide,
    [s].intercalate (pieces (· == s) w) = w
  | [] => rfl
  | u :: us => by
    obtain ⟨first, more, hus⟩ := exists_pieces (· == s) us
    have ih := intercalate_pieces s us
    cases hu : u == s with
    | true =>
      have hcons : pieces (· == s) (u :: us) = [] :: pieces (· == s) us := pieces_cons_sep us hu
      rw [hcons, hus, List.intercalate_cons_cons, ← hus, ih,
        beq_iff_eq.mp hu]
      rfl
    | false =>
      have hcons : pieces (· == s) (u :: us) = (u :: first) :: more := pieces_cons hu hus
      rw [hcons]
      rw [hus] at ih
      cases more with
      | nil =>
        rw [List.intercalate_singleton] at ih ⊢
        rw [ih]
      | cons second more =>
        rw [List.intercalate_cons_cons] at ih ⊢
        rw [← ih]
        rfl

/-- The pieces of what was put together from names without a separator. -/
theorem pieces_intercalate {s : UInt16} (hs : sep s = true) : ∀ {names : List Wide}, names ≠ [] →
    (∀ name ∈ names, ∀ u ∈ name, sep u = false) → pieces sep ([s].intercalate names) = names
  | [], h, _ => absurd rfl h
  | [name], _, h => by
    rw [List.intercalate_singleton]
    exact pieces_single (h name List.mem_cons_self)
  | name :: next :: names, _, h => by
    rw [List.intercalate_cons_cons, List.append_assoc, List.singleton_append,
      pieces_append hs _ name (h name List.mem_cons_self),
      pieces_intercalate hs (List.cons_ne_nil _ _) fun n hn => h n (List.mem_cons_of_mem _ hn)]

/-! ## 2. Components -/

theorem isSep_eq_false {u : UInt16} : isSep u = false ↔ u ≠ backslash ∧ u ≠ slash := by
  simp [isSep]

theorem isSep_of_letter {u : UInt16} (h : isAsciiLetter u = true) : isSep u = false := by
  rw [isSep_eq_false]
  constructor <;> intro he <;> rw [he] at h <;> exact absurd h (by decide)

/-- Only a separator starts a prefix without a drive. -/
theorem stripText_eq_none {u : UInt16} (h : isSep u = false) (us : Wide) :
    stripText [backslash, backslash] (u :: us) = none := by
  obtain ⟨hb, hs⟩ := isSep_eq_false.mp h
  simp [stripText, hs, Ne.symm hb]

theorem parsePrefix_drive {l : UInt16} (h : isAsciiLetter l = true) (us : Wide) :
    parsePrefix (l :: colon :: us) = some (.disk, 2) := by
  have hdrive : isDrive (l :: colon :: us) = true := by simp [isDrive, h]
  rw [parsePrefix, stripText_eq_none (isSep_of_letter h), hdrive]
  rfl

/-- **A path on a drive**: the drive, its root, and the pieces after it. -/
theorem components_drive {l : UInt16} (h : isAsciiLetter l = true) (us : Wide) :
    components (l :: colon :: backslash :: us) =
      .drive .disk [l, colon] :: .rootDir :: (pieces isSep us).filterMap (parsePiece false) := by
  have hroot : isSep backslash = true := by decide
  simp only [components, parsePrefix_drive h, Option.map_some, Option.getD_some, Kind.isVerbatim,
    Bool.false_eq_true, if_false, List.drop_succ_cons, List.drop_zero, List.head?_cons, hroot,
    if_true, pieces_cons_sep us hroot, List.filterMap_cons]
  rfl

/-! ## 3. Pushing a name -/

/-- A path that a name is written behind: no separator opens it, and it is no bare drive. -/
structure Steady (w : Wide) : Prop where
  front : ∀ u, w.head? = some u → isSep u = false
  notDrive : isDrive w = true → w.length ≠ 2

/-- A name without a prefix and without a root. -/
structure Unrooted (name : Wide) : Prop where
  nonempty : name ≠ []
  front : ∀ u, name.head? = some u → isSep u = false
  noDrive : isDrive name = false

/-- One name, without separators and without a drive in front. -/
structure Bare (name : Wide) : Prop where
  nonempty : name ≠ []
  noSep : ∀ u ∈ name, isSep u = false
  noDrive : isDrive name = false

theorem Bare.unrooted {name : Wide} (h : Bare name) : Unrooted name :=
  ⟨h.nonempty, fun u hu => h.noSep u (List.mem_of_head? hu), h.noDrive⟩

/-- A letter and a colon in front are not there without a colon. -/
theorem isDrive_eq_false : ∀ {w : Wide}, colon ∉ w → isDrive w = false
  | [], _ => rfl
  | [_], _ => rfl
  | d :: c :: us, h => by
    have hc : c ≠ colon := fun he => h (by simp [he])
    simp [isDrive, hc]

/-- Where no separator is in front, there is a drive or no prefix. -/
theorem parsePrefix_front : ∀ {w : Wide}, (∀ u, w.head? = some u → isSep u = false) →
    parsePrefix w = if isDrive w then some (.disk, 2) else none
  | [], _ => rfl
  | u :: us, h => by rw [parsePrefix, stripText_eq_none (h u rfl)]

theorem Unrooted.parsePrefix {name : Wide} (h : Unrooted name) : parsePrefix name = none := by
  rw [parsePrefix_front h.front, h.noDrive]
  rfl

section Pushing

variable {w name : Wide}

theorem Steady.needSep (h : Steady w) :
    needSep w = (w.getLast?.map fun u => !isSep u).getD false := by
  have hbare : parsePrefix w ≠ some (.disk, w.length) := by
    rw [parsePrefix_front h.front]
    intro hp
    split at hp
    · next hdrive =>
      rw [Option.some.injEq, Prod.mk.injEq] at hp
      exact h.notDrive hdrive hp.2.symm
    · cases hp
  rw [WinPath.needSep, bne_iff_ne.mpr hbare, Bool.and_true]

/-- The name is written behind the path. -/
theorem Steady.join_eq (hw : Steady w) (hname : Unrooted name) :
    join w name = if (w.getLast?.map isSep).getD true then w ++ name else w ++ backslash :: name := by
  have hverbatim : ((WinPath.parsePrefix w).map (·.1.isVerbatim)).getD false = false := by
    rw [parsePrefix_front hw.front]
    cases isDrive w <;> rfl
  have hroot : (name.head?.map isSep).getD false = false := by
    cases hhead : name.head? with
    | none => rfl
    | some u => exact hname.front u hhead
  rw [join, hname.parsePrefix, hverbatim, hroot, hw.needSep]
  cases w.getLast? with
  | none => rfl
  | some u => cases hu : isSep u <;> simp [hu]

/-- A path grows with every name, and stays one that names are written behind. -/
theorem Steady.length_lt (hw : Steady w) (hname : Unrooted name) :
    w.length < (join w name).length := by
  have hpos := List.length_pos_iff.mpr hname.nonempty
  rw [hw.join_eq hname]
  split
  · rw [List.length_append]
    omega
  · rw [List.length_append, List.length_cons]
    omega

theorem Steady.join (hw : Steady w) (hname : Unrooted name) : Steady (join w name) := by
  rw [hw.join_eq hname]
  have hpos := List.length_pos_iff.mpr hname.nonempty
  cases w with
  | nil =>
    exact ⟨hname.front, fun hdrive => absurd (hdrive.symm.trans hname.noDrive) nofun⟩
  | cons u us =>
    have hu : isSep u = false := hw.front u rfl
    have hfront : ∀ rest : Wide, ∀ v, (u :: us ++ rest).head? = some v → isSep v = false := by
      intro rest v hv
      cases hv
      exact hu
    split
    · next hlast =>
      refine ⟨hfront name, fun _ hlen => ?_⟩
      -- one unit in front of the name would be a separator
      cases us with
      | nil => simp [hu] at hlast
      | cons v us =>
        rw [List.length_append, List.length_cons, List.length_cons] at hlen
        omega
    · refine ⟨hfront _, fun _ hlen => ?_⟩
      rw [List.length_append, List.length_cons, List.length_cons] at hlen
      omega

theorem Steady.foldl_join : ∀ {names : List Wide} {w : Wide}, Steady w →
    (∀ name ∈ names, Unrooted name) → Steady (names.foldl WinPath.join w)
  | [], _, hw, _ => hw
  | name :: names, w, hw, h => by
    have hnext := Steady.join hw (h name List.mem_cons_self)
    rw [List.foldl_cons]
    exact Steady.foldl_join hnext fun n hn => h n (List.mem_cons_of_mem name hn)

/-- The root of a drive, with whatever is behind it. -/
theorem steady_drive {l : UInt16} (h : isAsciiLetter l = true) (us : Wide) :
    Steady (l :: colon :: backslash :: us) := by
  refine ⟨fun u hu => ?_, fun _ hlen => ?_⟩
  · cases hu
    exact isSep_of_letter h
  · rw [List.length_cons, List.length_cons, List.length_cons] at hlen
    omega

end Pushing

/-! ## 4. The parent -/

theorem intercalate_concat (s : Wide) (name : Wide) : ∀ {names : List Wide}, names ≠ [] →
    s.intercalate (names ++ [name]) = s.intercalate names ++ (s ++ name)
  | [], h => absurd rfl h
  | [first], _ => by
    rw [List.singleton_append, List.intercalate_cons_cons, List.intercalate_singleton,
      List.intercalate_singleton, List.append_assoc]
  | first :: second :: names, _ => by
    have ih := intercalate_concat s name (List.cons_ne_nil second names)
    rw [List.cons_append, List.cons_append] at *
    rw [List.intercalate_cons_cons, ih, List.intercalate_cons_cons]
    simp only [List.append_assoc]

/-- No separator is dropped behind a name. -/
theorem dropWhile_reverse_name {name : Wide} (hne : name ≠ []) (h : ∀ u ∈ name, isSep u = false)
    (front : Wide) : (front ++ name).reverse.dropWhile isSep = (front ++ name).reverse := by
  obtain ⟨u, us, hrev⟩ := List.exists_cons_of_ne_nil (List.reverse_ne_nil_iff.mpr hne)
  have hu : isSep u = false := h u (List.mem_reverse.mp (hrev ▸ List.mem_cons_self))
  rw [List.reverse_append, hrev, List.cons_append, List.dropWhile_cons_of_neg (by simp [hu])]

/-- **The parent of a path on a drive** is the path without its last name. -/
theorem parent_drive {l : UInt16} (hl : isAsciiLetter l = true) {names : List Wide} {name : Wide}
    (h : ∀ n ∈ names ++ [name], n ≠ [] ∧ ∀ u ∈ n, isSep u = false) :
    parent (l :: colon :: backslash :: [backslash].intercalate (names ++ [name])) =
      some (l :: colon :: backslash :: [backslash].intercalate names) := by
  obtain ⟨hne, hplain⟩ := h name (List.mem_append_right _ List.mem_cons_self)
  have hlen : headLength (l :: colon :: backslash :: [backslash].intercalate (names ++ [name])) = 3 := by
    simp [headLength, parsePrefix_drive hl, show isSep backslash = true by decide]
  have hdrop : ∀ u ∈ name.reverse, (!isSep u) = true := fun u hu => by
    simp [hplain u (List.mem_reverse.mp hu)]
  rw [parent, hlen]
  simp only [List.take_succ_cons, List.take_zero, List.drop_succ_cons, List.drop_zero]
  by_cases hnil : names = []
  · have hrev := dropWhile_reverse_name hne hplain []
    rw [List.nil_append] at hrev
    rw [hnil, List.nil_append, List.intercalate_singleton, hrev,
      if_neg (List.reverse_ne_nil_iff.mpr hne), List.dropWhile_eq_nil_iff.mpr hdrop]
    rfl
  · have hfront : ([backslash].intercalate names).reverse.dropWhile isSep =
        ([backslash].intercalate names).reverse := by
      obtain ⟨front, last, rfl⟩ := (List.eq_nil_or_concat' names).resolve_left hnil
      have hlast := h last (by simp)
      by_cases hf : front = []
      · rw [hf, List.nil_append, List.intercalate_singleton]
        exact dropWhile_reverse_name hlast.1 hlast.2 []
      · rw [intercalate_concat _ _ hf, ← List.append_assoc]
        exact dropWhile_reverse_name hlast.1 hlast.2 _
    have hpath : [backslash].intercalate (names ++ [name]) =
        ([backslash].intercalate names ++ [backslash]) ++ name := by
      rw [intercalate_concat _ _ hnil, List.append_assoc]
    rw [hpath, dropWhile_reverse_name hne hplain, if_neg (by simp), List.reverse_append,
      List.dropWhile_append_of_pos hdrop, List.reverse_append, List.reverse_singleton,
      List.singleton_append, List.dropWhile_cons_of_neg (by decide),
      List.dropWhile_cons_of_pos (by decide), hfront, List.reverse_reverse]
    rfl

/-! ## 5. One component -/

/-- A name that means nothing else than itself. -/
structure PlainName (name : Wide) : Prop where
  nonempty : name ≠ []
  ne_dot : name ≠ [dot]
  ne_dots : name ≠ [dot, dot]
  noSep : ∀ u ∈ name, isSep u = false
  noColon : colon ∉ name

/-- What the parser passes over behind a component: separators, and single dots between them. -/
def Ignored (tail : Wide) : Prop :=
  tail = [] ∨ ∃ s rest, tail = s :: rest ∧ isSep s = true ∧
    ∀ piece ∈ pieces isSep rest, piece = [] ∨ piece = [dot]

/-- Every unit is a separator or stands in a piece. -/
theorem mem_of_pieces : ∀ {w : Wide} {u : UInt16}, u ∈ w →
    sep u = true ∨ ∃ piece ∈ pieces sep w, u ∈ piece
  | [], u, h => nomatch h
  | v :: us, u, h => by
    cases hu : sep u with
    | true => exact .inl rfl
    | false =>
      right
      cases hv : sep v with
      | true =>
        have hus : u ∈ us := by
          rcases List.mem_cons.mp h with rfl | h
          · rw [hu] at hv
            cases hv
          · exact h
        obtain ⟨piece, hp, hin⟩ := (mem_of_pieces hus).resolve_left (by simp [hu])
        rw [pieces_cons_sep us hv]
        exact ⟨piece, List.mem_cons_of_mem _ hp, hin⟩
      | false =>
        obtain ⟨first, more, hus⟩ := exists_pieces sep us
        rw [pieces_cons hv hus]
        rcases List.mem_cons.mp h with rfl | h
        · exact ⟨_, List.mem_cons_self, List.mem_cons_self⟩
        · obtain ⟨piece, hp, hin⟩ := (mem_of_pieces h).resolve_left (by simp [hu])
          rw [hus] at hp
          rcases List.mem_cons.mp hp with rfl | hp
          · exact ⟨_, List.mem_cons_self, List.mem_cons_of_mem _ hin⟩
          · exact ⟨piece, List.mem_cons_of_mem _ hp, hin⟩

/-- A path is its first piece and what follows it. -/
theorem pieces_split : ∀ {w piece : Wide} {more : List Wide}, pieces sep w = piece :: more →
    ∃ tail, w = piece ++ tail ∧ (∀ u ∈ piece, sep u = false) ∧
      (tail = [] ∧ more = [] ∨ ∃ s rest, tail = s :: rest ∧ sep s = true ∧ more = pieces sep rest)
  | [], piece, more, h => by
    rw [pieces, List.cons.injEq] at h
    rw [← h.1]
    exact ⟨[], rfl, fun _ hu => (nomatch hu), .inl ⟨rfl, h.2.symm⟩⟩
  | v :: us, piece, more, h => by
    cases hv : sep v with
    | true =>
      rw [pieces_cons_sep us hv, List.cons.injEq] at h
      rw [← h.1]
      exact ⟨v :: us, rfl, fun _ hu => (nomatch hu), .inr ⟨v, us, rfl, hv, h.2.symm⟩⟩
    | false =>
      obtain ⟨first, others, hus⟩ := exists_pieces sep us
      rw [pieces_cons hv hus, List.cons.injEq] at h
      obtain ⟨tail, hw, hplain, htail⟩ := pieces_split hus
      rw [← h.1, ← h.2]
      refine ⟨tail, by rw [hw, List.cons_append], fun u hu => ?_, htail⟩
      rcases List.mem_cons.mp hu with rfl | hu
      · exact hv
      · exact hplain u hu

/-- A path that starts with a separator starts with a prefix or with the root. -/
theorem components_sep {s : UInt16} (hs : isSep s = true) (rest : Wide) (name : Wide) :
    components (s :: rest) ≠ [.normal name] := by
  intro h
  unfold components at h
  cases hp : parsePrefix (s :: rest) with
  | none => simp [hp, hs] at h
  | some found => simp [hp] at h

/-- Without a colon and without a separator in front there is no prefix and no root. -/
theorem components_relative {u : UInt16} {us : Wide} (hu : isSep u = false)
    (hcolon : colon ∉ u :: us) :
    components (u :: us) = (if (pieces isSep (u :: us)).head? = some [dot] then [.curDir] else []) ++
      (pieces isSep (u :: us)).filterMap (parsePiece false) := by
  have hprefix : parsePrefix (u :: us) = none := by
    rw [parsePrefix, stripText_eq_none hu, isDrive_eq_false hcolon]
    rfl
  simp only [components, hprefix, Option.map_none, Option.getD_none, Bool.false_eq_true, if_false,
    List.drop_zero, List.head?_cons, Option.map_some, Option.getD_some, hu, List.nil_append]

theorem filterMap_ignored {ps : List Wide} :
    ps.filterMap (parsePiece false) = [] ↔ ∀ piece ∈ ps, piece = [] ∨ piece = [dot] := by
  rw [List.filterMap_eq_nil_iff]
  have hone : ∀ piece, parsePiece false piece = none ↔ piece = [] ∨ piece = [dot] := by
    intro piece
    unfold parsePiece
    split
    · next h => simp [h]
    · next h =>
      split
      · next hd => simp [hd]
      · next hd => split <;> simp [h, hd]
  simp only [hone]

/-- **One plain component** is a plain name with what the parser passes over behind it. -/
theorem components_single {w : Wide} :
    (w ≠ [] ∧ colon ∉ w ∧ ∃ name, components w = [.normal name]) ↔
      ∃ name tail, w = name ++ tail ∧ PlainName name ∧ Ignored tail := by
  constructor
  · intro ⟨hne, hcolon, x, hx⟩
    obtain ⟨u, us, rfl⟩ := List.exists_cons_of_ne_nil hne
    cases hu : isSep u with
    | true => exact absurd hx (components_sep hu us x)
    | false =>
      obtain ⟨name, more, hp⟩ := exists_pieces isSep (u :: us)
      obtain ⟨tail, hw, hplain, htail⟩ := pieces_split hp
      rw [components_relative hu hcolon, hp] at hx
      have hname : name ≠ [] := by
        rintro rfl
        rcases htail with ⟨rfl, _⟩ | ⟨s, rest, rfl, hs, _⟩
        · exact absurd hw (List.cons_ne_nil _ _)
        · have hus : u = s := (List.cons.inj hw).1
          rw [hus, hs] at hu
          cases hu
      have hdot : name ≠ [dot] := by
        rintro rfl
        simp at hx
      rw [if_neg (by simpa using hdot), List.nil_append] at hx
      have hdots : name ≠ [dot, dot] := by
        rintro rfl
        simp [parsePiece] at hx
      have hnormal : parsePiece false name = some (.normal name) := by
        simp [parsePiece, hname, hdot, hdots]
      rw [List.filterMap_cons_some hnormal, List.cons.injEq, filterMap_ignored] at hx
      refine ⟨name, tail, hw, ⟨hname, hdot, hdots, hplain, fun h => hcolon ?_⟩, ?_⟩
      · exact hw ▸ List.mem_append_left _ h
      · rcases htail with ⟨rfl, _⟩ | ⟨s, rest, rfl, hs, rfl⟩
        · exact .inl rfl
        · exact .inr ⟨s, rest, rfl, hs, hx.2⟩
  · intro ⟨name, tail, hw, hname, htail⟩
    obtain ⟨more, hp, hmore, hcolon⟩ : ∃ more, pieces isSep (name ++ tail) = name :: more ∧
        (∀ piece ∈ more, piece = [] ∨ piece = [dot]) ∧ colon ∉ tail := by
      rcases htail with rfl | ⟨s, rest, rfl, hs, hrest⟩
      · refine ⟨[], ?_, fun _ hn => (nomatch hn), fun hn => (nomatch hn)⟩
        rw [List.append_nil]
        exact pieces_single hname.noSep
      · refine ⟨pieces isSep rest, pieces_append hs rest name hname.noSep, hrest, fun hmem => ?_⟩
        rcases List.mem_cons.mp hmem with rfl | hmem
        · exact absurd hs (by decide)
        · have hin := (mem_of_pieces hmem).resolve_left (show ¬ isSep colon = true by decide)
          obtain ⟨piece, hin, hpiece⟩ := hin
          rcases hrest piece hin with rfl | rfl
          · exact nomatch hpiece
          · exact absurd hpiece (by decide)
    obtain ⟨u, us, hcons⟩ := List.exists_cons_of_ne_nil hname.nonempty
    have hwcons : w = u :: (us ++ tail) := by rw [hw, hcons, List.cons_append]
    have hwcolon : colon ∉ w := by
      rw [hw, List.mem_append]
      exact fun h => h.elim hname.noColon hcolon
    have hu := hname.noSep u (hcons ▸ List.mem_cons_self)
    have hnormal : parsePiece false name = some (.normal name) := by
      simp [parsePiece, hname.nonempty, hname.ne_dot, hname.ne_dots]
    refine ⟨hwcons ▸ List.cons_ne_nil _ _, hwcolon, name, ?_⟩
    rw [hwcons, components_relative hu (hwcons ▸ hwcolon), ← hwcons, hw, hp,
      if_neg (by simpa using hname.ne_dot), List.nil_append, List.filterMap_cons_some hnormal,
      filterMap_ignored.mpr hmore]

end WinProfile.WinPath
