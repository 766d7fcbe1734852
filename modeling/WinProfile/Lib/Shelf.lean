/-
  File:      WinProfile/Lib/Shelf.lean
  Subject:   Numbered slots that are emptied upwards: slot `i` moves to slot `i + 1`, from the top
             slot down, after the top slot was cleared.

  * `readDown s n` -- the contents from slot `n` down to slot `0`, empty slots skipped.
  * `shelve s top i` -- the slots after the shift has come down to slot `i`; `top + 1` is the
    start, and `0` is the end.
  * `readDown_shelve` -- at every moment of the shift the contents read in the same order, without
    those of the top slot.
-/
import Mathlib.Tactic

namespace WinProfile

variable {α : Type}

/-- The contents of the slots from `n` down to `0`. -/
def readDown (s : Nat → Option α) : Nat → List α
  | 0 => (s 0).toList
  | n + 1 => (s (n + 1)).toList ++ readDown s n

/-- The slots when the shift has come down to slot `i`: slot `i` is empty, the slots above it hold
what stood one below, and the slots below it are as before. -/
def shelve (s : Nat → Option α) (top i : Nat) : Nat → Option α := fun j =>
  if top < j then s j else if j < i then s j else if j = i then none else s (j - 1)

theorem shelve_start (s : Nat → Option α) (top : Nat) : shelve s top (top + 1) = s := by
  funext j
  unfold shelve
  by_cases h : top < j
  · rw [if_pos h]
  · rw [if_neg h, if_pos (by omega)]

theorem shelve_self (s : Nat → Option α) {top i : Nat} (h : i ≤ top) : shelve s top i i = none := by
  unfold shelve
  rw [if_neg (by omega), if_neg (by omega), if_pos rfl]

theorem shelve_below (s : Nat → Option α) {top i j : Nat} (h : j < i) :
    shelve s top i j = s j := by
  unfold shelve
  rw [if_pos h, ite_self]

theorem shelve_above (s : Nat → Option α) {top i j : Nat} (h : i < j) (hj : j ≤ top) :
    shelve s top i j = s (j - 1) := by
  unfold shelve
  rw [if_neg (by omega), if_neg (by omega), if_neg (by omega)]

theorem shelve_outside (s : Nat → Option α) {top i j : Nat} (h : top < j) :
    shelve s top i j = s j := by
  unfold shelve
  rw [if_pos h]

/-- The first round clears the top slot. -/
theorem shelve_top (s : Nat → Option α) (top j : Nat) :
    shelve s top top j = if j = top then none else s j := by
  by_cases h : j = top
  · rw [h, shelve_self s (le_refl top), if_pos rfl]
  · rw [if_neg h]
    rcases Nat.lt_or_gt_of_ne h with h | h
    · exact shelve_below s h
    · exact shelve_outside s h

/-- Every later round moves one slot up. -/
theorem shelve_round (s : Nat → Option α) {top i : Nat} (h : i < top) (j : Nat) :
    shelve s top i j = if j = i + 1 then s i else if j = i then none
      else shelve s top (i + 1) j := by
  by_cases h₁ : j = i + 1
  · rw [if_pos h₁, h₁, shelve_above s (by omega) h]
    rfl
  rw [if_neg h₁]
  by_cases h₂ : j = i
  · rw [if_pos h₂, h₂, shelve_self s h.le]
  rw [if_neg h₂]
  rcases Nat.lt_or_ge j i with hj | hj
  · rw [shelve_below s hj, shelve_below s (by omega)]
  · rcases Nat.lt_or_ge top j with ht | ht
    · rw [shelve_outside s ht, shelve_outside s ht]
    · rw [shelve_above s (by omega) ht, shelve_above s (by omega) ht]

theorem readDown_congr {s t : Nat → Option α} : ∀ {n : Nat}, (∀ j ≤ n, s j = t j) →
    readDown s n = readDown t n
  | 0, h => by rw [readDown, readDown, h 0 (le_refl 0)]
  | n + 1, h => by
    rw [readDown, readDown, h (n + 1) (le_refl _),
      readDown_congr fun j hj => h j (by omega)]

theorem readDown_none : ∀ n, readDown (fun _ => none : Nat → Option α) n = []
  | 0 => rfl
  | n + 1 => by
    rw [readDown, readDown_none n]
    rfl

/-- Moving a content into the empty slot above it changes nothing for a reader. -/
theorem readDown_move {s t : Nat → Option α} {i : Nat} (hfree : s (i + 1) = none)
    (hup : t (i + 1) = s i) (hdown : t i = none) (hrest : ∀ j, j ≠ i → j ≠ i + 1 → t j = s j) :
    ∀ n, i < n → readDown t n = readDown s n
  | 0, h => by omega
  | n + 1, h => by
    rcases Nat.lt_or_ge i n with hi | hi
    · rw [readDown, readDown, readDown_move hfree hup hdown hrest n hi,
        hrest (n + 1) (by omega) (by omega)]
    · obtain rfl : i = n := by omega
      cases i with
      | zero => rw [readDown, readDown, readDown, readDown, hfree, hup, hdown]; simp
      | succ i =>
        have hlow : readDown t i = readDown s i :=
          readDown_congr fun j hj => hrest j (by omega) (by omega)
        rw [readDown, readDown, readDown, readDown, hfree, hup, hdown, hlow]
        simp

/-- **The order of reading** at every moment of the shift. -/
theorem readDown_shelve (s : Nat → Option α) {top i : Nat} (h : i ≤ top) :
    readDown (shelve s top i) top = readDown (shelve s top top) top := by
  refine Nat.decreasingInduction (motive := fun i _ =>
    readDown (shelve s top i) top = readDown (shelve s top top) top) (fun i hi ih => ?_) rfl h
  rw [← ih]
  refine readDown_move (i := i) ?_ ?_ ?_ ?_ top hi
  · exact shelve_self s hi
  · rw [shelve_round s hi, if_pos rfl, shelve_below s (Nat.lt_succ_self i)]
  · exact shelve_self s hi.le
  · intro j hj hj'
    rw [shelve_round s hi, if_neg hj', if_neg hj]

/-- What the top slot held comes first, and goes. -/
theorem readDown_top (s : Nat → Option α) (top : Nat) (h : 0 < top) :
    readDown s top = (s top).toList ++ readDown (shelve s top top) top := by
  obtain ⟨n, rfl⟩ : ∃ n, top = n + 1 := ⟨top - 1, by omega⟩
  have hlow : readDown (shelve s (n + 1) (n + 1)) n = readDown s n :=
    readDown_congr fun j hj => shelve_below s (by omega)
  rw [readDown, readDown, shelve_self s (le_refl _), hlow]
  simp

end WinProfile
