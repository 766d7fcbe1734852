/-
  File:      WinProfile/Lib/Trace.lean
  Subject:   What came before, in a trace that grows at its end. Nothing here knows a program.

  * `Since p q` -- some event met `p`, and every later one meets `q`.
  * `Throughout P` -- every event met `P` when it happened.
  * `since_concat`, `throughout_concat` -- both, after one more event; an invariant of a run is
    proved with these two alone.
-/
import Mathlib.Tactic

namespace WinProfile.Trace

variable {α : Type} {t : List α} {e : α}

/-! ## 1. An event, and only some events since -/

/-- Some event met `p`, which sees the trace before it, and every later event meets `q`. -/
def Since (p : List α → α → Prop) (q : α → Prop) (t : List α) : Prop :=
  ∃ past e rest, t = past ++ e :: rest ∧ p past e ∧ ∀ x ∈ rest, q x

section Since

variable {p p' : List α → α → Prop} {q q' : α → Prop}

theorem not_since_nil : ¬ Since p q [] := by
  rintro ⟨past, e, rest, h, _⟩
  cases past <;> cases h

theorem since_concat : Since p q (t ++ [e]) ↔ p t e ∨ q e ∧ Since p q t := by
  constructor
  · rintro ⟨past, x, rest, h, hp, hq⟩
    rcases List.eq_nil_or_concat' rest with rfl | ⟨front, y, rfl⟩
    · obtain ⟨rfl, hxe⟩ := List.append_inj' h rfl
      obtain rfl := List.singleton_inj.mp hxe
      exact .inl hp
    · rw [← List.cons_append, ← List.append_assoc] at h
      obtain ⟨rfl, hye⟩ := List.append_inj' h rfl
      obtain rfl := List.singleton_inj.mp hye
      have hlast := hq e (List.mem_append_right _ (List.mem_singleton_self e))
      exact .inr ⟨hlast, past, x, front, rfl, hp, fun z hz => hq z (List.mem_append_left _ hz)⟩
  · rintro (hp | ⟨hqe, past, x, rest, rfl, hp, hq⟩)
    · exact ⟨t, e, [], rfl, hp, fun _ h => nomatch h⟩
    · refine ⟨past, x, rest ++ [e], by simp, hp, fun z hz => ?_⟩
      rcases List.mem_append.mp hz with hz | hz
      · exact hq z hz
      · exact List.mem_singleton.mp hz ▸ hqe

/-- One more event that changes nothing for `Since`. -/
theorem Since.concat (h : Since p q t) (hq : q e) : Since p q (t ++ [e]) :=
  since_concat.mpr (.inr ⟨hq, h⟩)

end Since

/-! ## 2. Every event -/

/-- Every event met `P` together with the trace before it. -/
def Throughout (P : List α → α → Prop) (t : List α) : Prop :=
  ∀ past e rest, t = past ++ e :: rest → P past e

section Throughout

variable {P : List α → α → Prop}

theorem throughout_nil : Throughout P [] := fun past e rest h => by cases past <;> cases h

theorem throughout_concat : Throughout P (t ++ [e]) ↔ Throughout P t ∧ P t e := by
  constructor
  · intro h
    refine ⟨fun past x rest ht => h past x (rest ++ [e]) (by rw [ht]; simp), h t e [] rfl⟩
  · rintro ⟨h, he⟩ past x rest ht
    rcases List.eq_nil_or_concat' rest with rfl | ⟨front, y, rfl⟩
    · obtain ⟨rfl, hxe⟩ := List.append_inj' ht rfl
      obtain rfl := List.singleton_inj.mp hxe
      exact he
    · rw [← List.cons_append, ← List.append_assoc] at ht
      exact h past x front (List.append_inj' ht rfl).1

/-- One more event that `P` asks nothing of. -/
theorem Throughout.concat (h : Throughout P t) (he : P t e) : Throughout P (t ++ [e]) :=
  throughout_concat.mpr ⟨h, he⟩

end Throughout

end WinProfile.Trace
