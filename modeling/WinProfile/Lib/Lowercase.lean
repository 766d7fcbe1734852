/-
  File:      WinProfile/Lib/Lowercase.lean
  Subject:   `str::to_lowercase` of Rust's standard library, over the case tables of Unicode. Nothing
             here knows a program.

  * `CaseTables` -- what the mapping reads of the Unicode character database.
  * `toLowercase` -- every character by its table, but a capital sigma by its context: at the end
    of a word it becomes the final form.
  * `CaseTables.Separates` -- a character that no mapping makes or changes, and no word reaches over.
  * `toLowercase_join` -- between separators, a text is mapped piece by piece.
-/
import WinProfile.Lib.Text

namespace WinProfile

/-! ## 1. The mapping -/

/-- The case tables: the full mapping to lower case, `Cased` and `Case_Ignorable`. -/
structure CaseTables where
  lower : Char → List Char
  cased : Char → Bool
  caseIgnorable : Char → Bool

/-- GREEK CAPITAL LETTER SIGMA, the one letter with a conditional mapping, and its two forms. -/
def capitalSigma : Char := 'Σ'
def smallSigma : Char := 'σ'
def finalSigma : Char := 'ς'

namespace CaseTables

variable (T : CaseTables)

/-- `case_ignorable_then_cased`. -/
def ignorableThenCased (cs : List Char) : Bool :=
  match cs.dropWhile T.caseIgnorable with
  | c :: _ => T.cased c
  | [] => false

/-- `map_uppercase_sigma`: what stands before the letter is given from its end. -/
def lowerSigma (before after : List Char) : Char :=
  if T.ignorableThenCased before && !T.ignorableThenCased after then finalSigma else smallSigma

/-- One character in its context. -/
def lowerAt (before : List Char) (c : Char) (after : List Char) : List Char :=
  if c = capitalSigma then [T.lowerSigma before after] else T.lower c

/-- The loop of `to_lowercase`. -/
def lowerFrom : List Char → List Char → List Char
  | _, [] => []
  | before, c :: after => T.lowerAt before c after ++ lowerFrom (c :: before) after

/-- `str::to_lowercase`. -/
def toLowercase (s : String) : String := String.ofList (T.lowerFrom [] s.toList)

/-! ## 2. Separators -/

/-- No mapping makes or changes the character, and the context of a sigma ends at it. -/
structure Separates (s : Char) : Prop where
  ne_sigma : s ≠ capitalSigma
  fixed : T.lower s = [s]
  only : ∀ c, s ∈ T.lower c → c = s
  notCased : T.cased s = false
  notIgnorable : T.caseIgnorable s = false
  ne_small : s ≠ smallSigma
  ne_final : s ≠ finalSigma

variable {T} {s : Char}

/-- The search for a cased letter does not pass a separator. -/
theorem ignorableThenCased_append (h : T.Separates s) (far : List Char) : ∀ near : List Char,
    T.ignorableThenCased (near ++ s :: far) = T.ignorableThenCased near
  | [] => by
    rw [List.nil_append, ignorableThenCased, List.dropWhile_cons_of_neg (by simp [h.notIgnorable])]
    exact h.notCased
  | c :: near => by
    have ih := ignorableThenCased_append h far near
    unfold ignorableThenCased at ih ⊢
    cases hc : T.caseIgnorable c with
    | true =>
      rw [List.cons_append, List.dropWhile_cons_of_pos hc, List.dropWhile_cons_of_pos hc]
      exact ih
    | false =>
      rw [List.cons_append, List.dropWhile_cons_of_neg (by simp [hc]),
        List.dropWhile_cons_of_neg (by simp [hc])]

/-- What stands before a separator does not matter behind it. -/
theorem lowerFrom_before (h : T.Separates s) (far : List Char) : ∀ (near cs : List Char),
    T.lowerFrom (near ++ s :: far) cs = T.lowerFrom near cs
  | _, [] => rfl
  | near, c :: cs => by
    have ih := lowerFrom_before h far (c :: near) cs
    rw [List.cons_append] at ih
    rw [lowerFrom, lowerFrom, ih, lowerAt, lowerAt, lowerSigma, lowerSigma,
      ignorableThenCased_append h]

/-- **A separator cuts the mapping in two.** -/
theorem lowerFrom_append (h : T.Separates s) (rest : List Char) : ∀ (before cs : List Char),
    T.lowerFrom before (cs ++ s :: rest) = T.lowerFrom before cs ++ s :: T.lowerFrom [] rest
  | before, [] => by
    have hrest := lowerFrom_before h before [] rest
    rw [List.nil_append] at hrest
    show T.lowerAt before s rest ++ T.lowerFrom (s :: before) rest = s :: T.lowerFrom [] rest
    rw [hrest, lowerAt, if_neg h.ne_sigma, h.fixed]
    rfl
  | before, c :: cs => by
    rw [List.cons_append, lowerFrom, lowerFrom, lowerFrom_append h rest (c :: before) cs, lowerAt,
      lowerAt, lowerSigma, lowerSigma, ignorableThenCased_append h, List.append_assoc]

/-- No separator comes from anything else. -/
theorem not_mem_lowerFrom (h : T.Separates s) : ∀ {before cs : List Char}, s ∉ cs →
    s ∉ T.lowerFrom before cs
  | _, [], _ => List.not_mem_nil
  | before, c :: cs, hcs => by
    rw [List.mem_cons, not_or] at hcs
    rw [lowerFrom, List.mem_append, not_or]
    refine ⟨fun hin => ?_, not_mem_lowerFrom h hcs.2⟩
    unfold lowerAt at hin
    split at hin
    · rw [List.mem_singleton, lowerSigma] at hin
      split at hin
      · exact h.ne_final hin
      · exact h.ne_small hin
    · exact hcs.1 (h.only c hin).symm

/-- **Between separators a text is mapped piece by piece.** -/
theorem lowerFrom_join (h : T.Separates s) : ∀ (first : List Char) (more : List (List Char)),
    T.lowerFrom [] (first ++ more.flatMap (s :: ·)) =
      T.lowerFrom [] first ++ (more.map (T.lowerFrom [])).flatMap (s :: ·)
  | first, [] => by simp
  | first, next :: more => by
    have ih := lowerFrom_join h next more
    rw [List.flatMap_cons, List.cons_append, lowerFrom_append h, ih, List.map_cons,
      List.flatMap_cons, List.cons_append]

end CaseTables

end WinProfile
