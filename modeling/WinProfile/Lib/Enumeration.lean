/-
  File:      WinProfile/Lib/Enumeration.lean
  Subject:   A list that arrives in some order, is sorted by a key that need not tell its elements
             apart, and is then written out. Nothing here knows a program.

  * `sortBy` -- the stable sort: elements with one key stay in the order they came in.
  * `Swappable` -- it cannot be seen which of two elements was written first.
  * `written_eq_iff` -- what is written does not depend on the order of arrival exactly when any two
    elements with one key are swappable.
-/
import Mathlib.Data.List.Sort
import Mathlib.Data.List.TakeWhile
import Mathlib.Tactic

namespace WinProfile.Enumeration

variable {α β κ : Type} [LinearOrder κ] (key : α → κ)

/-! ## 1. The sort -/

/-- The stable sort by a key. -/
def sortBy (l : List α) : List α := l.insertionSort fun a b => key a ≤ key b

theorem sortBy_perm (l : List α) : (sortBy key l).Perm l := List.perm_insertionSort _ l

theorem sortBy_sorted (l : List α) : (sortBy key l).Pairwise fun a b => key a ≤ key b := by
  have htotal : Std.Total fun a b : α => key a ≤ key b := ⟨fun a b => le_total (key a) (key b)⟩
  have htrans : IsTrans α fun a b => key a ≤ key b := ⟨fun _ _ _ => le_trans⟩
  exact List.pairwise_insertionSort _ l

/-- An element goes in front of those with its key, and behind those with a smaller one. -/
theorem orderedInsert_at {a : α} {u v : List α} (hu : ∀ x ∈ u, key x < key a)
    (hv : ∀ x, v.head? = some x → key a ≤ key x) :
    (u ++ v).orderedInsert (fun a b => key a ≤ key b) a = u ++ a :: v := by
  induction u with
  | nil =>
    cases v with
    | nil => rfl
    | cons x v => exact if_pos (hv x rfl)
  | cons x u ih =>
    have hx : ¬ key a ≤ key x := not_le.mpr (hu x List.mem_cons_self)
    rw [List.cons_append, List.orderedInsert_cons, if_neg hx,
      ih fun y hy => hu y (List.mem_cons_of_mem _ hy)]
    rfl

/-- **Two elements with one key** come out in the order they went in, in the same place. -/
theorem sortBy_pair {a b : α} (hkey : key a = key b) (l : List α) :
    ∃ u v, sortBy key (a :: b :: l) = u ++ a :: b :: v ∧ sortBy key (b :: a :: l) = u ++ b :: a :: v := by
  have hsplit := List.takeWhile_append_dropWhile (p := fun x => decide (key x < key a))
    (l := sortBy key l)
  set u := (sortBy key l).takeWhile fun x => decide (key x < key a) with hu
  set v := (sortBy key l).dropWhile fun x => decide (key x < key a) with hv
  have hbelow : ∀ x ∈ u, key x < key a := fun x hx => by
    simpa using List.mem_takeWhile_imp hx
  have habove : ∀ x, v.head? = some x → key a ≤ key x := by
    intro x hx
    have hnot := List.head?_dropWhile_not (fun x => decide (key x < key a)) (sortBy key l)
    rw [← hv, hx] at hnot
    simpa using hnot
  have hinsert : ∀ c d : α, key c = key a → key d = key a →
      sortBy key (c :: d :: l) = u ++ c :: d :: v := by
    intro c d hc hd
    show List.orderedInsert _ c (List.orderedInsert _ d (sortBy key l)) = _
    rw [← hsplit, orderedInsert_at key (by rwa [hd]) (by rwa [hd]),
      orderedInsert_at key (by rwa [hc])]
    intro x hx
    cases hx
    rw [hc, hd]
  exact ⟨u, v, hinsert a b rfl hkey.symm, hinsert b a hkey.symm rfl⟩

/-! ## 2. What is written -/

/-- It cannot be seen which of the two was written first. -/
def Swappable (write : α → List β) (a b : α) : Prop := write a ++ write b = write b ++ write a

variable {key} {write : α → List β}

theorem Swappable.past {a : α} {u : List α} (h : ∀ x ∈ u, Swappable write x a) :
    u.flatMap write ++ write a = write a ++ u.flatMap write := by
  induction u with
  | nil => simp
  | cons x u ih =>
    have hx : write x ++ write a = write a ++ write x := h x List.mem_cons_self
    calc (x :: u).flatMap write ++ write a
        = write x ++ (u.flatMap write ++ write a) := by rw [List.flatMap_cons, List.append_assoc]
      _ = write x ++ write a ++ u.flatMap write := by
        rw [ih fun y hy => h y (List.mem_cons_of_mem _ hy), List.append_assoc]
      _ = write a ++ (x :: u).flatMap write := by rw [hx, List.flatMap_cons, List.append_assoc]

/-- Two sorted lists of the same elements are written alike. -/
theorem written_eq_of_sorted : ∀ {l₁ l₂ : List α}, l₁.Perm l₂ →
    l₁.Pairwise (fun a b => key a ≤ key b) → l₂.Pairwise (fun a b => key a ≤ key b) →
    (∀ a ∈ l₁, ∀ b ∈ l₁, key a = key b → Swappable write a b) →
    l₁.flatMap write = l₂.flatMap write
  | [], l₂, hperm, _, _, _ => by rw [List.nil_perm.mp hperm]
  | a :: l₁, l₂, hperm, h₁, h₂, hswap => by
    obtain ⟨u, v, rfl⟩ := List.append_of_mem (hperm.mem_iff.mp List.mem_cons_self)
    have hrest : l₁.Perm (u ++ v) := List.Perm.cons_inv (hperm.trans List.perm_middle)
    rw [List.pairwise_cons] at h₁
    rw [List.pairwise_append] at h₂
    -- what stands before `a` in the second list has the key of `a`
    have hbefore : ∀ x ∈ u, Swappable write x a := by
      intro x hx
      have hmem : x ∈ l₁ := hrest.mem_iff.mpr (List.mem_append_left _ hx)
      have hkey : key x = key a := le_antisymm (h₂.2.2 x hx a List.mem_cons_self) (h₁.1 x hmem)
      exact hswap x (List.mem_cons_of_mem _ hmem) a List.mem_cons_self hkey
    have hsorted : (u ++ v).Pairwise fun a b => key a ≤ key b :=
      List.pairwise_append.mpr ⟨h₂.1, (List.pairwise_cons.mp h₂.2.1).2, fun x hx y hy =>
        h₂.2.2 x hx y (List.mem_cons_of_mem _ hy)⟩
    have ih : l₁.flatMap write = (u ++ v).flatMap write :=
      written_eq_of_sorted hrest h₁.2 hsorted fun x hx y hy =>
        hswap x (List.mem_cons_of_mem _ hx) y (List.mem_cons_of_mem _ hy)
    calc (a :: l₁).flatMap write
        = write a ++ u.flatMap write ++ v.flatMap write := by
          rw [List.flatMap_cons, ih, List.flatMap_append, List.append_assoc]
      _ = (u ++ a :: v).flatMap write := by
          rw [← Swappable.past hbefore, List.flatMap_append, List.flatMap_cons, List.append_assoc]

/-- **When the order of arrival does not show**: exactly when any two elements with one key are
swappable. -/
theorem written_eq_iff {l : List α} :
    (∀ l₁ l₂, l₁.Perm l → l₂.Perm l →
      (sortBy key l₁).flatMap write = (sortBy key l₂).flatMap write) ↔
    ∀ a ∈ l, ∀ b ∈ l, key a = key b → Swappable write a b := by
  classical
  constructor
  · intro hall a ha b hb hkey
    by_cases hab : a = b
    · rw [hab]
      rfl
    · have hb' : b ∈ l.erase a := (List.mem_erase_of_ne (Ne.symm hab)).mpr hb
      have hfront : (a :: b :: (l.erase a).erase b).Perm l :=
        ((List.perm_cons_erase hb').symm.cons a).trans (List.perm_cons_erase ha).symm
      obtain ⟨u, v, h₁, h₂⟩ := sortBy_pair key hkey ((l.erase a).erase b)
      have heq := hall _ _ hfront ((List.Perm.swap a b _).trans hfront)
      rw [h₁, h₂] at heq
      simp only [List.flatMap_append, List.flatMap_cons, ← List.append_assoc,
        List.append_cancel_right_eq] at heq
      rw [List.append_assoc, List.append_assoc] at heq
      exact List.append_cancel_left heq
  · intro hswap l₁ l₂ hp₁ hp₂
    have hperm : (sortBy key l₁).Perm (sortBy key l₂) :=
      ((sortBy_perm key l₁).trans hp₁).trans (hp₂.symm.trans (sortBy_perm key l₂).symm)
    refine written_eq_of_sorted hperm (sortBy_sorted key l₁) (sortBy_sorted key l₂) ?_
    intro a ha b hb
    have hmem : ∀ x ∈ sortBy key l₁, x ∈ l := fun x hx =>
      hp₁.mem_iff.mp ((sortBy_perm key l₁).mem_iff.mp hx)
    exact hswap a (hmem a ha) b (hmem b hb)

/-- When every element adds as much in both ways, what is written says what each has added. -/
theorem eq_of_flatMap_eq {f g : α → List β} : ∀ {l : List α},
    (∀ a ∈ l, (f a).length = (g a).length) → l.flatMap f = l.flatMap g → ∀ a ∈ l, f a = g a
  | [], _, _, _, h => nomatch h
  | a :: l, hlength, heq, b, hb => by
    rw [List.flatMap_cons, List.flatMap_cons] at heq
    obtain ⟨hhead, htail⟩ := List.append_inj heq (hlength a List.mem_cons_self)
    rcases List.mem_cons.mp hb with rfl | hb
    · exact hhead
    · exact eq_of_flatMap_eq (fun c hc => hlength c (List.mem_cons_of_mem _ hc)) htail b hb

end WinProfile.Enumeration
