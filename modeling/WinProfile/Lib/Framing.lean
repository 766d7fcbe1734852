/-
  File:      WinProfile/Lib/Framing.lean
  Subject:   Encodings that say themselves where they end, and what a concatenation of them
             determines. Nothing here knows a program.

  * `Delimits` -- what is encoded in front of a stream can be read off, and so can the rest.
  * `Delimits.append`, `of_length`, `of_end` -- fields one after the other, fields of one length,
    fields that end with a symbol they do not hold.
  * `Delimits.flatMap` -- a list of records is determined by its stream.
  * `intercalate_inj` -- a list of names is determined by the text that joins them.
-/
import Mathlib.Data.List.Basic
import Mathlib.Tactic

namespace WinProfile.Framing

variable {α β γ δ : Type} {enc enc' : α → List β} {key : α → γ} {key' : α → δ}

/-- In front of any stream, the encoding determines the key and the rest of the stream. -/
def Delimits (enc : α → List β) (key : α → γ) : Prop :=
  ∀ a b xs ys, enc a ++ xs = enc b ++ ys → key a = key b ∧ xs = ys

/-- Fields of one length. -/
theorem Delimits.of_length (hlen : ∀ a b, (enc a).length = (enc b).length)
    (hkey : ∀ a b, enc a = enc b → key a = key b) : Delimits enc key := by
  intro a b xs ys h
  obtain ⟨henc, hrest⟩ := List.append_inj h (hlen a b)
  exact ⟨hkey a b henc, hrest⟩

theorem append_end_inj {s : β} : ∀ {p q xs ys : List β}, s ∉ p → s ∉ q →
    p ++ s :: xs = q ++ s :: ys → p = q ∧ xs = ys
  | [], [], _, _, _, _, h => ⟨rfl, (List.cons.inj h).2⟩
  | [], b :: q, _, _, _, hq, h => absurd ((List.cons.inj h).1 ▸ List.mem_cons_self) hq
  | a :: p, [], _, _, hp, _, h => absurd ((List.cons.inj h).1 ▸ List.mem_cons_self) hp
  | a :: p, b :: q, _, _, hp, hq, h => by
    obtain ⟨hab, hrest⟩ := List.cons.inj h
    obtain ⟨hpq, hxy⟩ := append_end_inj (fun hin => hp (List.mem_cons_of_mem _ hin))
      (fun hin => hq (List.mem_cons_of_mem _ hin)) hrest
    exact ⟨by rw [hab, hpq], hxy⟩

/-- Fields that end with a symbol that is not in them. -/
theorem Delimits.of_end {s : β} (hfree : ∀ a, s ∉ enc a) (hkey : ∀ a b, enc a = enc b → key a = key b) :
    Delimits (fun a => enc a ++ [s]) key := by
  intro a b xs ys h
  have h : enc a ++ s :: xs = enc b ++ s :: ys := by simpa using h
  obtain ⟨henc, hrest⟩ := append_end_inj (hfree a) (hfree b) h
  exact ⟨hkey a b henc, hrest⟩

/-- One field after the other. -/
theorem Delimits.append (h : Delimits enc key) (h' : Delimits enc' key') :
    Delimits (fun a => enc a ++ enc' a) fun a => (key a, key' a) := by
  intro a b xs ys heq
  rw [List.append_assoc, List.append_assoc] at heq
  obtain ⟨hk, hrest⟩ := h a b _ _ heq
  obtain ⟨hk', hrest'⟩ := h' a b _ _ hrest
  exact ⟨Prod.ext hk hk', hrest'⟩

/-- **A stream of records determines the records.** -/
theorem Delimits.flatMap (h : Delimits enc key) (hne : ∀ a, enc a ≠ []) :
    ∀ {as bs : List α}, as.flatMap enc = bs.flatMap enc → as.map key = bs.map key
  | [], [], _ => rfl
  | [], b :: bs, heq => by
    have hnil : enc b ++ bs.flatMap enc = [] := heq.symm
    exact absurd (List.append_eq_nil_iff.mp hnil).1 (hne b)
  | a :: as, [], heq => by
    have hnil : enc a ++ as.flatMap enc = [] := heq
    exact absurd (List.append_eq_nil_iff.mp hnil).1 (hne a)
  | a :: as, b :: bs, heq => by
    obtain ⟨hk, hrest⟩ := h a b _ _ heq
    rw [List.map_cons, List.map_cons, hk, Delimits.flatMap h hne hrest]

theorem intercalate_cons (s name : List β) (names : List (List β)) :
    s.intercalate (name :: names) = name ++ names.flatMap (s ++ ·) := by
  induction names generalizing name with
  | nil => simp
  | cons next names ih =>
    rw [List.intercalate_cons_cons, ih next, List.flatMap_cons]
    simp

theorem intercalate_append {s : β} : ∀ {ps : List (List β)}, ps ≠ [] →
    [s].intercalate ps ++ [s] = ps.flatMap fun p => p ++ [s]
  | [], h => absurd rfl h
  | [p], _ => by simp
  | p :: q :: ps, _ => by
    have ih := intercalate_append (s := s) (List.cons_ne_nil q ps)
    rw [List.intercalate_cons_cons, List.append_assoc, ih, List.flatMap_cons (x := p)]

/-- **Joined names determine the names**, when none is empty and none holds the separator. -/
theorem intercalate_inj {s : β} {ps qs : List (List β)} (hps : ∀ p ∈ ps, p ≠ [] ∧ s ∉ p)
    (hqs : ∀ q ∈ qs, q ≠ [] ∧ s ∉ q) (h : [s].intercalate ps = [s].intercalate qs) : ps = qs := by
  have hnil : ∀ {rs : List (List β)}, (∀ r ∈ rs, r ≠ [] ∧ s ∉ r) → [s].intercalate rs = [] →
      rs = [] := by
    intro rs hrs hempty
    cases rs with
    | nil => rfl
    | cons r rs =>
      have hr := (hrs r List.mem_cons_self).1
      cases rs with
      | nil => exact absurd (by simpa using hempty) hr
      | cons r' rs =>
        rw [List.intercalate_cons_cons] at hempty
        simp at hempty
  by_cases hp : ps = []
  · rw [hp] at h ⊢
    exact (hnil hqs h.symm).symm
  by_cases hq : qs = []
  · rw [hq] at h
    exact absurd (hnil hps h) hp
  have hstream := congrArg (· ++ [s]) h
  simp only [intercalate_append hp, intercalate_append hq] at hstream
  -- the names that may stand in a joined text
  let enc : {p : List β // s ∉ p} → List β := Subtype.val
  have hdelimits : Delimits (fun p => enc p ++ [s]) enc :=
    Delimits.of_end (fun p => p.2) fun _ _ he => he
  have hlift : ∀ {rs : List (List β)} (hrs : ∀ r ∈ rs, r ≠ [] ∧ s ∉ r),
      (rs.attach.map fun r => (⟨r.1, (hrs r.1 r.2).2⟩ : {p : List β // s ∉ p})).map enc = rs := by
    intro rs hrs
    rw [List.map_map]
    exact List.attach_map_subtype_val rs
  let lifted (rs : List (List β)) (hrs : ∀ r ∈ rs, r ≠ [] ∧ s ∉ r) : List {p : List β // s ∉ p} :=
    rs.attach.map fun r => ⟨r.1, (hrs r.1 r.2).2⟩
  have hflat : (lifted ps hps).flatMap (fun p => enc p ++ [s])
      = (lifted qs hqs).flatMap fun p => enc p ++ [s] := by
    rw [← List.flatMap_map enc fun p => p ++ [s], ← List.flatMap_map enc fun p => p ++ [s],
      hlift hps, hlift hqs, hstream]
  have hmap := Delimits.flatMap hdelimits
    (fun p => List.append_ne_nil_of_right_ne_nil _ (List.cons_ne_nil s [])) hflat
  rwa [hlift hps, hlift hqs] at hmap

end WinProfile.Framing
