/-
  File:      WinProfile/Lib/Grouping.lean
  Subject:   Lists grouped under a key, the keys in order: what an ordered map of lists holds after
             every element was pushed under its key. Nothing here knows a program.

  * `pushGroup`, `groupBy` -- one push, and all of them.
  * `mem_groupBy` -- a group is what a filter by its key gives, whatever the order of the pushes.
-/
import Mathlib.Tactic

namespace WinProfile

variable {κ α : Type} [LinearOrder κ]

/-- Push one element under its key; a new key takes its place in the order. -/
def pushGroup (k : κ) (a : α) : List (κ × List α) → List (κ × List α)
  | [] => [(k, [a])]
  | (m, as) :: rest =>
    if k = m then (m, as ++ [a]) :: rest
    else if k < m then (k, [a]) :: (m, as) :: rest else (m, as) :: pushGroup k a rest

/-- Push every element, from the left. -/
def groupBy (key : α → κ) (l : List α) : List (κ × List α) :=
  l.foldl (fun groups a => pushGroup (key a) a groups) []

/-- The keys rise. -/
def KeysSorted (groups : List (κ × List α)) : Prop := groups.Pairwise fun g g' => g.1 < g'.1

theorem key_pushGroup {k : κ} {a : α} {groups : List (κ × List α)} {g : κ × List α}
    (h : g ∈ pushGroup k a groups) : g.1 = k ∨ ∃ g' ∈ groups, g'.1 = g.1 := by
  induction groups with
  | nil => exact .inl (by simpa [pushGroup] using congrArg Prod.fst (List.mem_singleton.mp h))
  | cons first rest ih =>
    obtain ⟨m, as⟩ := first
    rw [pushGroup] at h
    split at h
    · rcases List.mem_cons.mp h with rfl | h
      · exact .inr ⟨_, List.mem_cons_self .., rfl⟩
      · exact .inr ⟨g, List.mem_cons_of_mem _ h, rfl⟩
    · split at h
      · rcases List.mem_cons.mp h with rfl | h
        · exact .inl rfl
        · exact .inr ⟨g, h, rfl⟩
      · rcases List.mem_cons.mp h with rfl | h
        · exact .inr ⟨_, List.mem_cons_self .., rfl⟩
        · obtain hk | ⟨g', hg', heq⟩ := ih h
          · exact .inl hk
          · exact .inr ⟨g', List.mem_cons_of_mem _ hg', heq⟩

theorem keysSorted_pushGroup {k : κ} {a : α} {groups : List (κ × List α)}
    (h : KeysSorted groups) : KeysSorted (pushGroup k a groups) := by
  induction groups with
  | nil => simp [pushGroup, KeysSorted]
  | cons first rest ih =>
    obtain ⟨m, as⟩ := first
    obtain ⟨hfirst, hrest⟩ := List.pairwise_cons.mp h
    rw [pushGroup]
    split
    · exact List.pairwise_cons.mpr ⟨hfirst, hrest⟩
    · next hne =>
      split
      · next hlt =>
        refine List.pairwise_cons.mpr ⟨fun g hg => ?_, h⟩
        rcases List.mem_cons.mp hg with rfl | hg
        · exact hlt
        · exact hlt.trans (hfirst g hg)
      · next hge =>
        refine List.pairwise_cons.mpr ⟨fun g hg => ?_, ih hrest⟩
        rcases key_pushGroup hg with hk | ⟨g', hg', heq⟩
        · rw [hk]
          exact lt_of_le_of_ne (not_lt.mp hge) (Ne.symm hne)
        · rw [← heq]
          exact hfirst g' hg'

/-- One push changes the group of its key and no other. -/
theorem mem_pushGroup {k m : κ} {a : α} {as : List α} {groups : List (κ × List α)}
    (h : KeysSorted groups) : (m, as) ∈ pushGroup k a groups ↔
      if m = k then ∃ before, as = before ++ [a] ∧
        ((m, before) ∈ groups ∨ before = [] ∧ ∀ other, (m, other) ∉ groups)
      else (m, as) ∈ groups := by
  induction groups with
  | nil =>
    by_cases hm : m = k
    · simp [pushGroup, hm]
    · simp [pushGroup, hm]
  | cons first rest ih =>
    obtain ⟨n, bs⟩ := first
    obtain ⟨hfirst, hrest⟩ := List.pairwise_cons.mp h
    have hother : ∀ other, (n, other) ∉ rest := fun other hmem => lt_irrefl n (hfirst _ hmem)
    have habove : ∀ {x other}, (x, other) ∈ rest → n < x := fun hmem => hfirst _ hmem
    rw [pushGroup]
    by_cases hkn : k = n
    · subst hkn
      rw [if_pos rfl]
      by_cases hm : m = k
      · subst hm
        simp [hother]
      · simp [hm]
    · rw [if_neg hkn]
      by_cases hlt : k < n
      · rw [if_pos hlt]
        by_cases hm : m = k
        · subst hm
          have hnone : ∀ other, (m, other) ∉ rest := fun other hmem =>
            lt_asymm hlt (habove hmem)
          simp [hkn, hnone]
        · simp [hm]
      · rw [if_neg hlt, List.mem_cons, ih hrest]
        by_cases hm : m = k
        · subst hm
          simp [hkn]
        · simp [hm]

theorem keysSorted_foldl (key : α → κ) (l : List α) {groups : List (κ × List α)}
    (h : KeysSorted groups) :
    KeysSorted (l.foldl (fun groups a => pushGroup (key a) a groups) groups) := by
  induction l generalizing groups with
  | nil => exact h
  | cons a l ih => exact ih (keysSorted_pushGroup h)

theorem keysSorted_groupBy (key : α → κ) (l : List α) : KeysSorted (groupBy key l) :=
  keysSorted_foldl key l List.Pairwise.nil

theorem groupBy_concat (key : α → κ) (l : List α) (a : α) :
    groupBy key (l ++ [a]) = pushGroup (key a) a (groupBy key l) := by
  simp [groupBy]

/-- **The groups** are the parts of the list with one key, in its order. -/
theorem mem_groupBy {key : α → κ} {l : List α} {k : κ} {as : List α} :
    (k, as) ∈ groupBy key l ↔ as = l.filter (fun a => key a = k) ∧ as ≠ [] := by
  induction l using List.reverseRecOn generalizing as with
  | nil => simp [groupBy]
  | append_singleton l a ih =>
    rw [groupBy_concat, mem_pushGroup (keysSorted_groupBy key l), List.filter_append]
    by_cases hk : k = key a
    · subst hk
      simp only [if_true, ih, decide_true, List.filter_cons_of_pos, List.filter_nil]
      constructor
      · rintro ⟨before, rfl, ⟨rfl, _⟩ | ⟨rfl, hnone⟩⟩
        · simp
        · have hempty : l.filter (fun b => key b = key a) = [] := by
            by_contra hne
            exact hnone _ ⟨rfl, hne⟩
          simp [hempty]
      · rintro ⟨rfl, _⟩
        by_cases hempty : l.filter (fun b => key b = key a) = []
        · exact ⟨[], by simp [hempty], .inr ⟨rfl, fun other h => h.2 (h.1.trans hempty)⟩⟩
        · exact ⟨_, rfl, .inl ⟨rfl, hempty⟩⟩
    · rw [if_neg hk, ih]
      simp [Ne.symm hk]

end WinProfile
