/-
  File:      WinProfile/Lib/NameTable.lean
  Subject:   Named entries whose names are compared after folding: the children of a registry
             key, the values of one, the entries of a directory.

  * `findName`, `putName`, `renameName`, `eraseName` -- look up, write, rename and remove in a list
    of named entries; the spelling of a name is kept, its comparison goes through `fold`.
  * `NameTable` -- such a list with no name twice; `find_put` and `find_rename` say what every
    later look-up answers.
-/
import Mathlib.Tactic

namespace WinProfile

variable {ν κ α : Type} [DecidableEq κ] (fold : ν → κ)

/-! ## 1. Lists of named entries -/

/-- The entry under a name. -/
def findName (n : ν) : List (ν × α) → Option α
  | [] => none
  | (m, a) :: rest => if fold m = fold n then some a else findName n rest

/-- Write the entry of a name: in place when the name is there, else at the end. -/
def putName (n : ν) (a : α) : List (ν × α) → List (ν × α)
  | [] => [(n, a)]
  | (m, b) :: rest => if fold m = fold n then (m, a) :: rest else (m, b) :: putName n a rest

/-- Give the entry of `old` the name `new`. -/
def renameName (old new : ν) : List (ν × α) → List (ν × α)
  | [] => []
  | (m, a) :: rest =>
    if fold m = fold old then (new, a) :: rest else (m, a) :: renameName old new rest

/-- Remove the entry of a name. -/
def eraseName (n : ν) : List (ν × α) → List (ν × α)
  | [] => []
  | (m, a) :: rest => if fold m = fold n then rest else (m, a) :: eraseName n rest

/-- The names of a list, folded. -/
def foldedNames (l : List (ν × α)) : List κ := l.map fun e => fold e.1

theorem findName_congr {n n' : ν} (h : fold n = fold n') (l : List (ν × α)) :
    findName fold n l = findName fold n' l := by
  induction l with
  | nil => rfl
  | cons e rest ih => rw [findName, findName, h, ih]

theorem findName_eq_none {n : ν} {l : List (ν × α)} :
    findName fold n l = none ↔ fold n ∉ foldedNames fold l := by
  induction l with
  | nil => simp [findName, foldedNames]
  | cons e rest ih =>
    obtain ⟨m, a⟩ := e
    by_cases hm : fold m = fold n
    · simp [findName, foldedNames, hm]
    · simp only [findName, if_neg hm, ih, foldedNames, List.map_cons, List.mem_cons, not_or]
      exact ⟨fun h => ⟨fun e => hm e.symm, h⟩, fun h => h.2⟩

theorem findName_putName (n k : ν) (a : α) (l : List (ν × α)) :
    findName fold k (putName fold n a l) = if fold n = fold k then some a else findName fold k l := by
  induction l with
  | nil => rfl
  | cons e rest ih =>
    obtain ⟨m, b⟩ := e
    by_cases hm : fold m = fold n
    · rw [putName, if_pos hm, findName, findName, hm]
      split <;> rfl
    · rw [putName, if_neg hm, findName, findName, ih]
      by_cases hk : fold m = fold k
      · rw [if_pos hk, if_pos hk, if_neg (fun e => hm (hk.trans e.symm))]
      · rw [if_neg hk, if_neg hk]

theorem foldedNames_putName {n : ν} {a : α} {l : List (ν × α)} {k : κ}
    (h : k ∈ foldedNames fold (putName fold n a l)) : k = fold n ∨ k ∈ foldedNames fold l := by
  induction l with
  | nil => exact .inl (by simpa [putName, foldedNames] using h)
  | cons e rest ih =>
    obtain ⟨m, b⟩ := e
    by_cases hm : fold m = fold n
    · rw [putName, if_pos hm] at h
      exact .inr h
    · simp only [putName, if_neg hm, foldedNames, List.map_cons, List.mem_cons] at h ih ⊢
      rcases h with h | h
      · exact .inr (.inl h)
      · exact (ih h).imp_right .inr

theorem nodup_putName {n : ν} {a : α} {l : List (ν × α)} (hl : (foldedNames fold l).Nodup) :
    (foldedNames fold (putName fold n a l)).Nodup := by
  induction l with
  | nil => simp [putName, foldedNames]
  | cons e rest ih =>
    obtain ⟨m, b⟩ := e
    by_cases hm : fold m = fold n
    · rw [putName, if_pos hm]
      exact hl
    · simp only [foldedNames, List.map_cons, List.nodup_cons] at hl
      simp only [putName, if_neg hm, foldedNames, List.map_cons, List.nodup_cons]
      refine ⟨fun h => ?_, ih hl.2⟩
      rcases foldedNames_putName fold h with h | h
      · exact hm h
      · exact hl.1 h

theorem foldedNames_renameName {old new : ν} {l : List (ν × α)} {k : κ}
    (h : k ∈ foldedNames fold (renameName fold old new l)) :
    k = fold new ∨ k ∈ foldedNames fold l := by
  induction l with
  | nil => exact .inr h
  | cons e rest ih =>
    obtain ⟨m, a⟩ := e
    by_cases hm : fold m = fold old
    · simp only [renameName, if_pos hm, foldedNames, List.map_cons, List.mem_cons] at h ⊢
      exact h.imp_right .inr
    · simp only [renameName, if_neg hm, foldedNames, List.map_cons, List.mem_cons] at h ih ⊢
      rcases h with h | h
      · exact .inr (.inl h)
      · exact (ih h).imp_right .inr

theorem nodup_renameName {old new : ν} {l : List (ν × α)} (hnew : fold new ∉ foldedNames fold l)
    (hl : (foldedNames fold l).Nodup) : (foldedNames fold (renameName fold old new l)).Nodup := by
  induction l with
  | nil => exact hl
  | cons e rest ih =>
    obtain ⟨m, a⟩ := e
    simp only [foldedNames, List.map_cons, List.mem_cons, not_or, List.nodup_cons] at hnew hl
    by_cases hm : fold m = fold old
    · simp only [renameName, if_pos hm, foldedNames, List.map_cons, List.nodup_cons]
      exact ⟨hnew.2, hl.2⟩
    · simp only [renameName, if_neg hm, foldedNames, List.map_cons, List.nodup_cons]
      refine ⟨fun h => ?_, ih hnew.2 hl.2⟩
      rcases foldedNames_renameName fold h with h | h
      · exact hnew.1 h.symm
      · exact hl.1 h

theorem findName_renameName {old new k : ν} {l : List (ν × α)} {a : α}
    (hl : (foldedNames fold l).Nodup) (hnew : fold new ∉ foldedNames fold l)
    (hold : findName fold old l = some a) :
    findName fold k (renameName fold old new l)
      = if fold k = fold new then some a
        else if fold k = fold old then none else findName fold k l := by
  induction l with
  | nil => cases hold
  | cons e rest ih =>
    obtain ⟨m, b⟩ := e
    simp only [foldedNames, List.map_cons, List.mem_cons, not_or, List.nodup_cons] at hnew hl
    by_cases hm : fold m = fold old
    · rw [findName, if_pos hm, Option.some.injEq] at hold
      subst hold
      simp only [renameName, if_pos hm, findName, eq_comm (a := fold new)]
      by_cases hk : fold k = fold new
      · rw [if_pos hk, if_pos hk]
      rw [if_neg hk, if_neg hk]
      by_cases ho : fold k = fold old
      · rw [if_pos ho]
        exact (findName_eq_none fold).mpr fun hin => hl.1 (by rw [hm, ← ho]; exact hin)
      · rw [if_neg ho, if_neg fun e => ho (e.symm.trans hm)]
    · rw [findName, if_neg hm] at hold
      simp only [renameName, if_neg hm, findName, ih hl.2 hnew.2 hold]
      by_cases hk : fold m = fold k
      · rw [if_pos hk, if_pos hk, if_neg (fun e => hnew.1 (e.symm.trans hk.symm)),
          if_neg (fun e => hm (hk.trans e))]
      · rw [if_neg hk, if_neg hk]

/-- An entry of the list, where no name stands twice. -/
theorem findName_of_mem {n : ν} {a : α} {l : List (ν × α)} (hl : (foldedNames fold l).Nodup)
    (h : (n, a) ∈ l) : findName fold n l = some a := by
  induction l with
  | nil => cases h
  | cons e rest ih =>
    obtain ⟨m, b⟩ := e
    simp only [foldedNames, List.map_cons, List.nodup_cons] at hl
    rcases List.mem_cons.mp h with he | h
    · cases he
      rw [findName, if_pos rfl]
    · have hne : fold m ≠ fold n := fun e => hl.1 (List.mem_map.mpr ⟨_, h, e.symm⟩)
      rw [findName, if_neg hne, ih hl.2 h]

/-- The entries after a rename: the old ones under their names, and one that has the new name. -/
theorem mem_renameName {old new n : ν} {a : α} {l : List (ν × α)}
    (hl : (foldedNames fold l).Nodup) : (n, a) ∈ renameName fold old new l ↔
      n = new ∧ findName fold old l = some a ∨ fold n ≠ fold old ∧ (n, a) ∈ l := by
  induction l with
  | nil => simp [renameName, findName]
  | cons e rest ih =>
    obtain ⟨m, b⟩ := e
    simp only [foldedNames, List.map_cons, List.nodup_cons] at hl
    by_cases hm : fold m = fold old
    · -- The entry that is renamed; no other one has a name that folds to the same.
      have hrest : (n, a) ∈ rest → fold n ≠ fold old := fun hin e =>
        hl.1 (List.mem_map.mpr ⟨_, hin, e.trans hm.symm⟩)
      simp only [renameName, if_pos hm, findName, List.mem_cons, Prod.mk.injEq, Option.some.injEq]
      constructor
      · rintro (⟨rfl, rfl⟩ | hin)
        · exact .inl ⟨rfl, rfl⟩
        · exact .inr ⟨hrest hin, .inr hin⟩
      · rintro (⟨rfl, rfl⟩ | ⟨hne, ⟨rfl, rfl⟩ | hin⟩)
        · exact .inl ⟨rfl, rfl⟩
        · exact absurd hm hne
        · exact .inr hin
    · simp only [renameName, if_neg hm, findName, List.mem_cons, Prod.mk.injEq, ih hl.2]
      constructor
      · rintro (⟨rfl, rfl⟩ | h | ⟨hne, hin⟩)
        · exact .inr ⟨hm, .inl ⟨rfl, rfl⟩⟩
        · exact .inl h
        · exact .inr ⟨hne, .inr hin⟩
      · rintro (h | ⟨hne, ⟨rfl, rfl⟩ | hin⟩)
        · exact .inr (.inl h)
        · exact .inl ⟨rfl, rfl⟩
        · exact .inr (.inr ⟨hne, hin⟩)

/-- The names stay where they are when an entry that is there is written. -/
theorem putName_names {n : ν} {a : α} {l : List (ν × α)} (h : fold n ∈ foldedNames fold l) :
    (putName fold n a l).map Prod.fst = l.map Prod.fst := by
  induction l with
  | nil => cases h
  | cons e rest ih =>
    obtain ⟨m, b⟩ := e
    by_cases hm : fold m = fold n
    · rw [putName, if_pos hm, List.map_cons, List.map_cons]
    · simp only [foldedNames, List.map_cons, List.mem_cons, Ne.symm hm, false_or] at h
      rw [putName, if_neg hm, List.map_cons, List.map_cons, ih h]

/-- Writing the entry that is there changes nothing. -/
theorem putName_self {n : ν} {a : α} {l : List (ν × α)} (h : findName fold n l = some a) :
    putName fold n a l = l := by
  induction l with
  | nil => cases h
  | cons e rest ih =>
    obtain ⟨m, b⟩ := e
    by_cases hm : fold m = fold n
    · rw [findName, if_pos hm, Option.some.injEq] at h
      rw [putName, if_pos hm, h]
    · rw [findName, if_neg hm] at h
      rw [putName, if_neg hm, ih h]

/-- The second of two writes under one name counts. -/
theorem putName_putName (n : ν) (a b : α) (l : List (ν × α)) :
    putName fold n b (putName fold n a l) = putName fold n b l := by
  induction l with
  | nil => simp [putName]
  | cons e rest ih =>
    obtain ⟨m, c⟩ := e
    by_cases hm : fold m = fold n
    · rw [putName, if_pos hm, putName, if_pos hm, putName, if_pos hm]
    · rw [putName, if_neg hm, putName, if_neg hm, ih, putName, if_neg hm]

/-- A new name goes to the end. -/
theorem putName_of_not_mem {n : ν} {a : α} {l : List (ν × α)} (h : fold n ∉ foldedNames fold l) :
    putName fold n a l = l ++ [(n, a)] := by
  induction l with
  | nil => rfl
  | cons e rest ih =>
    obtain ⟨m, b⟩ := e
    simp only [foldedNames, List.map_cons, List.mem_cons, not_or] at h
    rw [putName, if_neg (Ne.symm h.1), ih h.2, List.cons_append]

theorem eraseName_sublist (n : ν) (l : List (ν × α)) : (eraseName fold n l).Sublist l := by
  induction l with
  | nil => exact List.Sublist.refl _
  | cons e rest ih =>
    rw [eraseName]
    split
    · exact List.sublist_cons_self _ _
    · exact ih.cons_cons _

theorem nodup_eraseName {n : ν} {l : List (ν × α)} (hl : (foldedNames fold l).Nodup) :
    (foldedNames fold (eraseName fold n l)).Nodup :=
  hl.sublist ((eraseName_sublist fold n l).map _)

/-- Removing what was just added gives the list before. -/
theorem eraseName_append {n : ν} {a : α} {l : List (ν × α)} (h : fold n ∉ foldedNames fold l) :
    eraseName fold n (l ++ [(n, a)]) = l := by
  induction l with
  | nil => simp [eraseName]
  | cons e rest ih =>
    obtain ⟨m, b⟩ := e
    simp only [foldedNames, List.map_cons, List.mem_cons, not_or] at h
    rw [List.cons_append, eraseName, if_neg (Ne.symm h.1), ih h.2]

theorem findName_eraseName {n k : ν} (h : fold k ≠ fold n) (l : List (ν × α)) :
    findName fold k (eraseName fold n l) = findName fold k l := by
  induction l with
  | nil => rfl
  | cons e rest ih =>
    obtain ⟨m, b⟩ := e
    by_cases hm : fold m = fold n
    · rw [eraseName, if_pos hm, findName, if_neg (fun hk => h (hk.symm.trans hm))]
    · rw [eraseName, if_neg hm, findName, findName, ih]

/-- Renaming what was just added renames the last entry. -/
theorem renameName_append {old new : ν} {a : α} {l : List (ν × α)}
    (h : fold old ∉ foldedNames fold l) :
    renameName fold old new (l ++ [(old, a)]) = l ++ [(new, a)] := by
  induction l with
  | nil => simp [renameName]
  | cons e rest ih =>
    obtain ⟨m, b⟩ := e
    simp only [foldedNames, List.map_cons, List.mem_cons, not_or] at h
    rw [List.cons_append, renameName, if_neg (Ne.symm h.1), ih h.2, List.cons_append]

/-! ## 2. Tables -/

/-- Named entries with no name twice. -/
structure NameTable (α : Type) where
  entries : List (ν × α)
  nodup : (foldedNames fold entries).Nodup

namespace NameTable

variable {fold}

def find (t : NameTable fold α) (n : ν) : Option α := findName fold n t.entries

/-- Write the entry of a name. -/
def put (t : NameTable fold α) (n : ν) (a : α) : NameTable fold α where
  entries := putName fold n a t.entries
  nodup := nodup_putName fold t.nodup

/-- Rename an entry; nothing when `old` is missing or `new` is taken. -/
def rename (t : NameTable fold α) (old new : ν) : Option (NameTable fold α) :=
  if h : fold old ∈ foldedNames fold t.entries ∧ fold new ∉ foldedNames fold t.entries then
    some ⟨renameName fold old new t.entries, nodup_renameName fold h.2 t.nodup⟩
  else none

/-- Remove the entry of a name. -/
def erase (t : NameTable fold α) (n : ν) : NameTable fold α where
  entries := eraseName fold n t.entries
  nodup := nodup_eraseName fold t.nodup

omit [DecidableEq κ] in
theorem eq_of_entries {t t' : NameTable fold α} (h : t.entries = t'.entries) : t = t' := by
  obtain ⟨entries, _⟩ := t
  obtain ⟨entries', _⟩ := t'
  cases h
  rfl

theorem put_put (t : NameTable fold α) (n : ν) (a b : α) : (t.put n a).put n b = t.put n b :=
  eq_of_entries (putName_putName fold n a b t.entries)

/-- Writing back the entry that is there. -/
theorem put_find {t : NameTable fold α} {n : ν} {a : α} (h : t.find n = some a) : t.put n a = t :=
  eq_of_entries (putName_self fold h)

/-- A new name goes to the end. -/
theorem entries_put {t : NameTable fold α} {n : ν} (h : t.find n = none) (a : α) :
    (t.put n a).entries = t.entries ++ [(n, a)] :=
  putName_of_not_mem fold ((findName_eq_none fold).mp h)

/-- Removing the entry of a new name undoes its writing. -/
theorem erase_put {t : NameTable fold α} {n : ν} (h : t.find n = none) (a : α) :
    (t.put n a).erase n = t := by
  refine eq_of_entries ?_
  show eraseName fold n (t.put n a).entries = t.entries
  rw [entries_put h]
  exact eraseName_append fold ((findName_eq_none fold).mp h)

theorem find_congr (t : NameTable fold α) {n n' : ν} (h : fold n = fold n') :
    t.find n = t.find n' := findName_congr fold h t.entries

theorem find_put (t : NameTable fold α) (n k : ν) (a : α) :
    (t.put n a).find k = if fold n = fold k then some a else t.find k :=
  findName_putName fold n k a t.entries

theorem mem_iff_isSome {t : NameTable fold α} {n : ν} :
    fold n ∈ foldedNames fold t.entries ↔ (t.find n).isSome := by
  rw [Option.isSome_iff_ne_none, ← not_iff_not, not_not]
  exact (findName_eq_none fold).symm

/-- A rename goes through exactly when the old name is there and the new one is not. -/
theorem rename_isSome {t : NameTable fold α} {old new : ν} :
    (t.rename old new).isSome ↔ (t.find old).isSome ∧ t.find new = none := by
  rw [← mem_iff_isSome, find, findName_eq_none]
  unfold rename
  split <;> simp_all

/-- **What a rename does to every name**: `new` has the entry, `old` has none, no other changes. -/
theorem find_rename {t t' : NameTable fold α} {old new : ν} (h : t.rename old new = some t')
    (k : ν) : t'.find k
      = if fold k = fold new then t.find old else if fold k = fold old then none else t.find k := by
  unfold rename at h
  split at h
  · next hc =>
    cases h
    obtain ⟨a, ha⟩ := Option.isSome_iff_exists.mp (mem_iff_isSome.mp hc.1)
    rw [ha]
    exact findName_renameName fold t.nodup hc.2 ha
  · cases h

theorem find_of_mem {t : NameTable fold α} {n : ν} {a : α} (h : (n, a) ∈ t.entries) :
    t.find n = some a := findName_of_mem fold t.nodup h

/-- **The entries after a rename**, spellings included. -/
theorem mem_rename {t t' : NameTable fold α} {old new : ν} (h : t.rename old new = some t')
    {n : ν} {a : α} : (n, a) ∈ t'.entries ↔
      n = new ∧ t.find old = some a ∨ fold n ≠ fold old ∧ (n, a) ∈ t.entries := by
  unfold rename at h
  split at h
  · cases h
    exact mem_renameName fold t.nodup
  · cases h

theorem find_erase_of_ne (t : NameTable fold α) {n k : ν} (h : fold k ≠ fold n) :
    (t.erase n).find k = t.find k := findName_eraseName fold h t.entries

/-- A new entry that is renamed to another free name was as good as written there. -/
theorem rename_put {t : NameTable fold α} {old new : ν} (hold : t.find old = none)
    (hnew : t.find new = none) (hne : fold old ≠ fold new) (a : α) :
    (t.put old a).rename old new = some (t.put new a) := by
  have hfree : (t.put old a).find new = none := by rw [find_put, if_neg hne, hnew]
  have hsome : ((t.put old a).rename old new).isSome :=
    rename_isSome.mpr ⟨by rw [find_put, if_pos rfl]; rfl, hfree⟩
  obtain ⟨t', ht'⟩ := Option.isSome_iff_exists.mp hsome
  rw [ht']
  unfold rename at ht'
  split at ht'
  · cases ht'
    refine congrArg some (eq_of_entries ?_)
    show renameName fold old new (t.put old a).entries = (t.put new a).entries
    rw [entries_put hold, entries_put hnew]
    exact renameName_append fold ((findName_eq_none fold).mp hold)
  · cases ht'

/-- A write onto an entry that is there keeps the names. -/
theorem names_put {t : NameTable fold α} {n : ν} (h : (t.find n).isSome) (a : α) :
    (t.put n a).entries.map Prod.fst = t.entries.map Prod.fst :=
  putName_names fold (mem_iff_isSome.mpr h)

omit [DecidableEq κ] in
theorem nodup_names (t : NameTable fold α) : (t.entries.map Prod.fst).Nodup := by
  have := t.nodup
  rw [foldedNames, ← Function.comp_def, ← List.map_map] at this
  exact this.of_map

end NameTable

end WinProfile
