/-
  File:      WinProfile/Lib/Template.lean
  Subject:   Texts with named placeholders between two brackets: substitution at once, and one
             placeholder after the other.

  * `segments` -- a text as single symbols and placeholders; `substitute` -- every placeholder that
    has a value is replaced by it, and nothing else is touched.
  * `replaceFrom_token` -- a search-and-replace for one placeholder is a substitution for it.
  * `replaceToken_substitute_iff` -- after other values were put in, the next replacement goes right
    exactly when they made no new occurrence of its placeholder.
  * `fill_iff` -- one after the other is the same as at once, for every selection and every order.
-/
import Mathlib.Data.List.Basic
import Mathlib.Data.List.Perm.Subperm
import Mathlib.Tactic

namespace WinProfile.Template

/-! ## 1. Segments -/

/-- The two symbols around a name. -/
structure Braces (α : Type) where
  left : α
  right : α
  ne : left ≠ right

/-- A symbol of its own, or a placeholder. -/
inductive Seg (α : Type) where
  | lit (a : α)
  | hole (name : List α)
  deriving DecidableEq

section Rendering

variable {α : Type} {segs rest : List (Seg α)} {f : List α → List α}

/-- A name that may stand in a placeholder. -/
def Braces.Plain (B : Braces α) (name : List α) : Prop := B.left ∉ name ∧ B.right ∉ name

/-- The placeholder of a name. -/
def Braces.token (B : Braces α) (name : List α) : List α := B.left :: (name ++ [B.right])

/-- A text from its segments, with `f` for the placeholders. -/
def render (f : List α → List α) (segs : List (Seg α)) : List α :=
  segs.flatMap fun seg => match seg with
    | .lit a => [a]
    | .hole name => f name

@[simp] theorem render_nil : render f [] = [] := rfl

@[simp] theorem render_lit (a : α) : render f (.lit a :: segs) = a :: render f segs := rfl

@[simp] theorem render_hole (name : List α) :
    render f (.hole name :: segs) = f name ++ render f segs := rfl

@[simp] theorem render_append : render f (segs ++ rest) = render f segs ++ render f rest :=
  List.flatMap_append

theorem render_lits (f : List α → List α) (as : List α) : render f (as.map .lit) = as := by
  induction as with
  | nil => rfl
  | cons a as ih => rw [List.map_cons, render_lit, ih]

/-- Only the placeholders that are there count. -/
theorem render_congr {g : List α → List α} (h : ∀ n, Seg.hole n ∈ segs → f n = g n) :
    render f segs = render g segs := by
  refine List.flatMap_congr fun seg hseg => ?_
  cases seg with
  | lit a => rfl
  | hole n => exact h n hseg

end Rendering

variable {α : Type} [DecidableEq α] (B : Braces α)

/-- The name in front of the first right bracket, unless a left one or a placeholder comes first. -/
def takeName : List (Seg α) → Option (List α × List (Seg α))
  | .lit a :: rest =>
    if a = B.right then some ([], rest)
    else if a = B.left then none
    else (takeName rest).map fun found => (a :: found.1, found.2)
  | _ => none

/-- A left bracket in front: it opens a placeholder, or stands for itself. -/
def openLeft (segs : List (Seg α)) : List (Seg α) :=
  match takeName B segs with
  | some (name, rest) => .hole name :: rest
  | none => .lit B.left :: segs

/-- A text, read as symbols and placeholders. -/
def segments : List α → List (Seg α)
  | [] => []
  | a :: as => if a = B.left then openLeft B (segments as) else .lit a :: segments as

/-- How often the placeholder of a name stands in a text. -/
def occurrences (name text : List α) : Nat := (segments B text).count (.hole name)

variable {B} {name text : List α} {segs : List (Seg α)}

theorem takeName_some : ∀ {segs rest : List (Seg α)} {name : List α},
    takeName B segs = some (name, rest) →
      B.Plain name ∧ segs = name.map .lit ++ .lit B.right :: rest
  | [], _, _, h => nomatch h
  | .hole _ :: _, _, _, h => nomatch h
  | .lit a :: segs, rest, name, h => by
    rw [takeName] at h
    split at h
    · next ha =>
      obtain ⟨rfl, rfl⟩ : [] = name ∧ segs = rest := by simpa using h
      exact ⟨⟨List.not_mem_nil, List.not_mem_nil⟩, by rw [ha]; rfl⟩
    · next hright =>
      split at h
      · cases h
      · next hleft =>
        obtain ⟨⟨n, r⟩, hfound, hn⟩ := Option.map_eq_some_iff.mp h
        obtain ⟨rfl, rfl⟩ : a :: n = name ∧ r = rest := by simpa using hn
        obtain ⟨⟨h₁, h₂⟩, hsegs⟩ := takeName_some hfound
        refine ⟨⟨?_, ?_⟩, by rw [hsegs]; rfl⟩
        · simp [Ne.symm hleft, h₁]
        · simp [Ne.symm hright, h₂]

theorem takeName_plain (h : B.Plain name) (rest : List (Seg α)) :
    takeName B (name.map .lit ++ .lit B.right :: rest) = some (name, rest) := by
  induction name with
  | nil => simp [takeName]
  | cons a name ih =>
    have hleft : a ≠ B.left := fun he => h.1 (he ▸ List.mem_cons_self)
    have hright : a ≠ B.right := fun he => h.2 (he ▸ List.mem_cons_self)
    have ih := ih ⟨fun hin => h.1 (List.mem_cons_of_mem _ hin),
      fun hin => h.2 (List.mem_cons_of_mem _ hin)⟩
    rw [List.map_cons, List.cons_append, takeName, if_neg hright, if_neg hleft, ih]
    rfl

/-- No name reaches beyond a placeholder. -/
theorem takeName_append_hole (n : List α) (rest : List (Seg α)) : ∀ segs : List (Seg α),
    takeName B (segs ++ .hole n :: rest) =
      (takeName B segs).map fun found => (found.1, found.2 ++ .hole n :: rest)
  | [] => rfl
  | .hole _ :: _ => rfl
  | .lit a :: segs => by
    rw [List.cons_append, takeName, takeName]
    split
    · rfl
    · split
      · rfl
      · rw [takeName_append_hole n rest segs, Option.map_map, Option.map_map]
        rfl

/-- A text from its own segments. -/
theorem render_segments : ∀ text : List α, render B.token (segments B text) = text
  | [] => rfl
  | a :: as => by
    have ih := render_segments as
    rw [segments]
    split
    · next ha =>
      rw [openLeft]
      split
      · next name rest hfound =>
        rw [(takeName_some hfound).2, render_append, render_lits, render_lit] at ih
        rw [render_hole, Braces.token, ← ih, ha]
        simp
      · rw [render_lit, ih, ha]
    · rw [render_lit, ih]

/-- Names without a left bracket stay what they are. -/
theorem segments_lits {as : List α} (h : B.left ∉ as) (text : List α) :
    segments B (as ++ text) = as.map .lit ++ segments B text := by
  induction as with
  | nil => rfl
  | cons a as ih =>
    have ha : a ≠ B.left := fun he => h (he ▸ List.mem_cons_self)
    rw [List.cons_append, segments, if_neg ha, ih fun hin => h (List.mem_cons_of_mem _ hin)]
    rfl

theorem segments_token (h : B.Plain name) (text : List α) :
    segments B (B.token name ++ text) = .hole name :: segments B text := by
  have hrest : segments B (name ++ B.right :: text) =
      name.map .lit ++ .lit B.right :: segments B text := by
    rw [segments_lits h.1, segments, if_neg B.ne.symm]
  rw [Braces.token, List.cons_append, List.append_assoc, List.singleton_append, segments,
    if_pos rfl, hrest, openLeft, takeName_plain h]

/-- **A placeholder cuts a text in two**: no other placeholder reaches over it. -/
theorem segments_append_token (h : B.Plain name) (text : List α) : ∀ front : List α,
    segments B (front ++ (B.token name ++ text)) =
      segments B front ++ .hole name :: segments B text
  | [] => segments_token h text
  | a :: front => by
    have ih := segments_append_token h text front
    rw [List.cons_append, segments, segments, ih]
    split
    · rw [openLeft, openLeft, takeName_append_hole]
      cases takeName B (segments B front) with
      | none => rfl
      | some found => rfl
    · rfl

theorem plain_of_hole {n : List α} : ∀ {text : List α}, Seg.hole n ∈ segments B text → B.Plain n
  | [], h => nomatch h
  | a :: as, h => by
    rw [segments] at h
    split at h
    · rw [openLeft] at h
      split at h
      · next name rest hfound =>
        obtain ⟨hplain, hsegs⟩ := takeName_some hfound
        rcases List.mem_cons.mp h with he | h
        · exact (Seg.hole.inj he) ▸ hplain
        · have hin : Seg.hole n ∈ segments B as := by
            rw [hsegs]
            exact List.mem_append_right _ (List.mem_cons_of_mem _ h)
          exact plain_of_hole hin
      · rcases List.mem_cons.mp h with he | h
        · cases he
        · exact plain_of_hole h
    · rcases List.mem_cons.mp h with he | h
      · cases he
      · exact plain_of_hole h

/-! ## 2. Occurrences -/

theorem occurrences_append_token (h : B.Plain name) (n front text : List α) :
    occurrences B n (front ++ (B.token name ++ text)) =
      occurrences B n front + (if name = n then 1 else 0) + occurrences B n text := by
  rw [occurrences, segments_append_token h, List.count_append, List.count_cons, occurrences,
    occurrences]
  by_cases hn : name = n
  · simp [hn]
    omega
  · simp [hn]

theorem count_openLeft_ge (n : List α) (segs : List (Seg α)) :
    segs.count (.hole n) ≤ (openLeft B segs).count (.hole n) := by
  rw [openLeft]
  split
  · next name rest hfound =>
    have hlits : (name.map Seg.lit).count (.hole n) = 0 := by
      refine List.count_eq_zero.mpr fun hin => ?_
      obtain ⟨a, _, ha⟩ := List.mem_map.mp hin
      cases ha
    rw [(takeName_some hfound).2, List.count_append, hlits, List.count_cons, List.count_cons]
    simp
  · rw [List.count_cons]
    simp

/-- What is put in front of a text takes no occurrence away. -/
theorem occurrences_cons_ge (n : List α) (a : α) (text : List α) :
    occurrences B n text ≤ occurrences B n (a :: text) := by
  rw [occurrences, occurrences, segments]
  split
  · exact count_openLeft_ge n _
  · rw [List.count_cons]
    omega

/-- Two texts one after the other have the occurrences of both. -/
theorem occurrences_append_ge (n text : List α) : ∀ front : List α,
    occurrences B n front + occurrences B n text ≤ occurrences B n (front ++ text)
  | [] => by simp [occurrences, segments]
  | a :: front => by
    have ih := occurrences_append_ge n text front
    by_cases ha : a = B.left
    · cases hfound : takeName B (segments B front) with
      | none =>
        have hsame : occurrences B n (a :: front) = occurrences B n front := by
          rw [occurrences, segments, if_pos ha, openLeft, hfound, occurrences, List.count_cons]
          simp
        have hge := occurrences_cons_ge (B := B) n a (front ++ text)
        rw [List.cons_append]
        omega
      | some found =>
        obtain ⟨name, rest⟩ := found
        obtain ⟨hplain, hsegs⟩ := takeName_some hfound
        have hfront : front = name ++ (B.right :: render B.token rest) := by
          rw [← render_segments (B := B) front, hsegs, render_append, render_lits, render_lit]
        have htoken : a :: front = B.token name ++ render B.token rest := by
          rw [ha, hfront, Braces.token]
          simp
        have hlt : (render B.token rest).length < (a :: front).length := by
          rw [htoken, Braces.token]
          simp
          omega
        have ih := occurrences_append_ge n text (render B.token rest)
        have h₁ := occurrences_append_token hplain n [] (render B.token rest)
        have h₂ := occurrences_append_token hplain n [] (render B.token rest ++ text)
        rw [List.nil_append] at h₁ h₂
        rw [htoken, List.append_assoc, h₁, h₂]
        omega
    · rw [List.cons_append, occurrences, segments, if_neg ha, List.count_cons, occurrences,
        occurrences, segments, if_neg ha, List.count_cons]
      rw [occurrences, occurrences, occurrences] at ih
      omega
termination_by front => front.length

/-! ## 3. Replacing -/

/-- The text with the placeholder of one name replaced. -/
def replaceToken (B : Braces α) (name value text : List α) : List α :=
  render (Function.update B.token name value) (segments B text)

/-- `str::replace` with a pattern that is not empty: the matches from left to right. The first
argument counts the symbols of a match that are still passed over. -/
def replaceFrom (pattern value : List α) : Nat → List α → List α
  | _, [] => []
  | skip + 1, _ :: as => replaceFrom pattern value skip as
  | 0, a :: as =>
    if pattern.isPrefixOf (a :: as) then value ++ replaceFrom pattern value (pattern.length - 1) as
    else a :: replaceFrom pattern value 0 as

theorem replaceFrom_skip (pattern value rest : List α) : ∀ front : List α,
    replaceFrom pattern value front.length (front ++ rest) = replaceFrom pattern value 0 rest
  | [] => rfl
  | _ :: front => replaceFrom_skip pattern value rest front

/-- **Search and replace for a placeholder** replaces its placeholders. -/
theorem replaceFrom_token (h : B.Plain name) (value : List α) : ∀ text : List α,
    replaceFrom (B.token name) value 0 text = replaceToken B name value text
  | [] => rfl
  | a :: as => by
    rw [replaceFrom]
    split
    · next hprefix =>
      obtain ⟨rest, hrest⟩ := List.isPrefixOf_iff_prefix.mp hprefix
      have hlt : rest.length < (a :: as).length := by
        rw [← hrest, Braces.token]
        simp
        omega
      have has : as = (name ++ [B.right]) ++ rest := by
        rw [Braces.token, List.cons_append] at hrest
        exact (List.cons.inj hrest).2.symm
      have hlen : (B.token name).length - 1 = (name ++ [B.right]).length := by
        simp [Braces.token]
      rw [hlen, has, replaceFrom_skip, replaceFrom_token h value rest, ← has, replaceToken,
        replaceToken, ← hrest, segments_token h, render_hole, Function.update_self]
    · next hprefix =>
      have ih := replaceFrom_token h value as
      rw [replaceToken] at ih
      rw [ih, replaceToken, segments]
      split
      · next ha =>
        rw [openLeft]
        split
        · next n rest hfound =>
          have hsegs := (takeName_some hfound).2
          have hn : n ≠ name := by
            rintro rfl
            refine hprefix (List.isPrefixOf_iff_prefix.mpr ⟨render B.token rest, ?_⟩)
            rw [← render_segments (B := B) as, hsegs, render_append, render_lits, render_lit,
              Braces.token, ha]
            simp
          rw [render_hole, Function.update_of_ne hn, hsegs, render_append, render_lits, render_lit,
            ha, Braces.token]
          simp
        · rw [render_lit, ha]
      · rw [render_lit]
termination_by text => text.length

/-! ## 4. At once -/

/-- The value of a name, or its placeholder. -/
def valueOf (B : Braces α) (args : List (List α × List α)) (name : List α) : List α :=
  ((args.find? (·.1 = name)).map (·.2)).getD (B.token name)

/-- All placeholders of a text at once. -/
def substitute (B : Braces α) (args : List (List α × List α)) (text : List α) : List α :=
  render (valueOf B args) (segments B text)

theorem valueOf_mem {args : List (List α × List α)} (hnodup : (args.map (·.1)).Nodup)
    {arg : List α × List α} (h : arg ∈ args) : valueOf B args arg.1 = arg.2 := by
  induction args with
  | nil => exact nomatch h
  | cons first args ih =>
    rw [List.map_cons, List.nodup_cons] at hnodup
    rcases List.mem_cons.mp h with rfl | h
    · simp [valueOf]
    · have hne : first.1 ≠ arg.1 := fun he => hnodup.1 (he ▸ List.mem_map_of_mem h)
      have ih := ih hnodup.2 h
      rw [valueOf] at ih
      rw [valueOf, List.find?_cons_of_neg (by simpa using hne), ih]

theorem valueOf_not_mem {args : List (List α × List α)} (h : name ∉ args.map (·.1)) :
    valueOf B args name = B.token name := by
  have hnone : args.find? (·.1 = name) = none := by
    refine List.find?_eq_none.mpr fun arg harg => ?_
    simpa using fun he : arg.1 = name => h (he ▸ List.mem_map_of_mem harg)
  rw [valueOf, hnone]
  rfl

omit [DecidableEq α] in
theorem nodup_subperm {sub args : List (List α × List α)} (hnodup : (args.map (·.1)).Nodup)
    (h : sub.Subperm args) : (sub.map (·.1)).Nodup := by
  obtain ⟨l, hperm, hsub⟩ := h
  exact (hperm.map _).nodup_iff.mp (hnodup.sublist (hsub.map _))

/-- A selection of the arguments has their values, or none. -/
theorem valueOf_subperm {sub args : List (List α × List α)} (hnodup : (args.map (·.1)).Nodup)
    (h : sub.Subperm args) (n : List α) :
    valueOf B sub n = valueOf B args n ∨ valueOf B sub n = B.token n := by
  by_cases hn : n ∈ sub.map (·.1)
  · obtain ⟨arg, harg, rfl⟩ := List.mem_map.mp hn
    have hsub := nodup_subperm hnodup h
    exact .inl ((valueOf_mem hsub harg).trans (valueOf_mem hnodup (h.subset harg)).symm)
  · exact .inr (valueOf_not_mem hn)

/-- **The order of the arguments does not matter** when everything is put in at once. -/
theorem substitute_perm {args args' : List (List α × List α)} (hnodup : (args.map (·.1)).Nodup)
    (h : args.Perm args') (text : List α) : substitute B args text = substitute B args' text := by
  refine render_congr fun n _ => ?_
  by_cases hn : n ∈ args.map (·.1)
  · obtain ⟨arg, harg, rfl⟩ := List.mem_map.mp hn
    have hnodup' : (args'.map (·.1)).Nodup := (h.map (·.1)).nodup_iff.mp hnodup
    rw [valueOf_mem hnodup harg, valueOf_mem hnodup' (h.mem_iff.mp harg)]
  · rw [valueOf_not_mem hn, valueOf_not_mem fun h' => hn ((h.map (·.1)).mem_iff.mpr h')]

theorem valueOf_concat {args : List (List α × List α)} {arg : List α × List α}
    (h : ((args ++ [arg]).map (·.1)).Nodup) :
    valueOf B (args ++ [arg]) = Function.update (valueOf B args) arg.1 arg.2 := by
  funext n
  by_cases hn : n = arg.1
  · rw [hn, Function.update_self, valueOf_mem h (List.mem_append_right _ List.mem_cons_self)]
  · rw [Function.update_of_ne hn, valueOf, valueOf, List.find?_append,
      List.find?_cons_of_neg (by simpa using Ne.symm hn), List.find?_nil, Option.or_none]

/-! ## 5. One after the other -/

omit [DecidableEq α] in
/-- Segments, cut at the placeholders with a property. -/
theorem segs_induction {Q : List (Seg α) → Prop} (P : List α → Prop)
    (base : ∀ segs, (∀ n, Seg.hole n ∈ segs → ¬ P n) → Q segs)
    (step : ∀ front n rest, (∀ m, Seg.hole m ∈ front → ¬ P m) → P n → Q rest →
      Q (front ++ .hole n :: rest)) : ∀ segs, Q segs := by
  classical
  have hcut : ∀ segs front : List (Seg α), (∀ m, Seg.hole m ∈ front → ¬ P m) →
      Q (front ++ segs) := by
    intro segs
    induction segs with
    | nil => exact fun front hfront => by rw [List.append_nil]; exact base front hfront
    | cons seg segs ih =>
      intro front hfront
      have hmore : (∀ m, Seg.hole m = seg → ¬ P m) → Q (front ++ seg :: segs) := by
        intro hseg
        have h := ih (front ++ [seg]) fun m hm => by
          rcases List.mem_append.mp hm with hm | hm
          · exact hfront m hm
          · exact hseg m (List.mem_singleton.mp hm)
        rwa [List.append_assoc] at h
      cases seg with
      | lit a => exact hmore fun m hm => nomatch hm
      | hole n =>
        by_cases hn : P n
        · exact step front n segs hfront hn (ih [] nofun)
        · exact hmore fun m hm => Seg.hole.inj hm ▸ hn
  exact fun segs => hcut segs [] nofun

/-- More values take no occurrence of another name away. -/
theorem occurrences_render_mono {f f' : List α → List α}
    (hle : ∀ n, f n = f' n ∨ f n = B.token n) (hname : f' name = B.token name) :
    ∀ segs, (∀ n, Seg.hole n ∈ segs → B.Plain n) →
      occurrences B name (render f segs) ≤ occurrences B name (render f' segs) := by
  refine segs_induction (fun n => f n ≠ f' n) ?_ ?_
  · intro segs hsame _
    rw [render_congr fun n hn => not_not.mp (hsame n hn)]
  · intro front n rest hsame hn ih hplain
    have htoken := (hle n).resolve_left hn
    have hne : n ≠ name := by
      rintro rfl
      exact hn (htoken.trans hname.symm)
    have ih := ih fun m hm => hplain m (by simp [hm])
    have hfront : render f front = render f' front :=
      render_congr fun m hm => not_not.mp (hsame m hm)
    rw [render_append, render_hole, htoken, occurrences_append_token (hplain n (by simp)),
      if_neg hne, render_append, render_hole, hfront]
    have h₁ := occurrences_append_ge (B := B) name (f' n ++ render f' rest) (render f' front)
    have h₂ := occurrences_append_ge (B := B) name (render f' rest) (f' n)
    omega

/-- No placeholder of the segments is lost. -/
theorem count_le_occurrences {f : List α → List α} (hplain : B.Plain name)
    (hname : f name = B.token name) : ∀ segs : List (Seg α),
      segs.count (.hole name) ≤ occurrences B name (render f segs) := by
  refine segs_induction (· = name) ?_ ?_
  · intro segs hno
    rw [List.count_eq_zero.mpr fun hin => hno name hin rfl]
    exact Nat.zero_le _
  · intro front n rest hno hn ih
    rw [hn, render_append, render_hole, hname, occurrences_append_token hplain, List.count_append,
      List.count_eq_zero.mpr fun hin => hno name hin rfl, List.count_cons]
    simp
    omega

theorem length_render_update {f : List α → List α} (hname : f name = B.token name)
    (value : List α) : ∀ segs : List (Seg α),
      (render (Function.update f name value) segs).length +
          segs.count (.hole name) * (B.token name).length =
        (render f segs).length + segs.count (.hole name) * value.length := by
  intro segs
  induction segs with
  | nil => simp
  | cons seg segs ih =>
    cases seg with
    | lit a =>
      rw [List.count_cons]
      simp
      omega
    | hole n =>
      by_cases hn : n = name
      · rw [hn, List.count_cons_self, Nat.succ_mul, Nat.succ_mul]
        simp [hname]
        omega
      · have hne : Seg.hole n ≠ Seg.hole name := fun h => hn (Seg.hole.inj h)
        rw [List.count_cons_of_ne hne]
        simp [hn]
        omega

/-- The placeholder in front of a text is replaced, and both sides are replaced alone. -/
theorem replaceToken_append_token (h : B.Plain name) (value front text : List α) :
    replaceToken B name value (front ++ (B.token name ++ text)) =
      replaceToken B name value front ++ (value ++ replaceToken B name value text) := by
  rw [replaceToken, segments_append_token h, render_append, render_hole, Function.update_self,
    replaceToken, replaceToken]

theorem replaceToken_self (value : List α) (h : value = B.token name ∨ occurrences B name text = 0) :
    replaceToken B name value text = text := by
  rcases h with rfl | h
  · rw [replaceToken, Function.update_eq_self, render_segments]
  · rw [replaceToken]
    refine (render_congr fun n hn => ?_).trans (render_segments text)
    refine Function.update_of_ne (fun he => ?_) _ _
    exact absurd (he ▸ hn) (List.count_eq_zero.mp h)

/-- A value as long as the placeholder changes no length. -/
theorem length_replaceToken {value : List α} (hlen : value.length = (B.token name).length)
    (text : List α) : (replaceToken B name value text).length = text.length := by
  have h := length_render_update (rfl : B.token name = B.token name) value (segments B text)
  rw [hlen, render_segments] at h
  exact Nat.add_right_cancel h

theorem replaceToken_eq_self {value : List α} (hplain : B.Plain name)
    (hlen : value.length = (B.token name).length)
    (h : replaceToken B name value text = text) :
    value = B.token name ∨ occurrences B name text = 0 := by
  by_cases hin : Seg.hole name ∈ segments B text
  · left
    obtain ⟨front, rest, hsegs⟩ := List.append_of_mem hin
    have htext : text = render B.token front ++ (B.token name ++ render B.token rest) := by
      rw [← render_segments (B := B) text, hsegs, render_append, render_hole]
    rw [htext, replaceToken_append_token hplain] at h
    have hback := List.append_inj h (length_replaceToken hlen _)
    exact (List.append_inj hback.2 hlen).1
  · exact .inr (List.count_eq_zero.mpr hin)

/-- The next replacement, for a value as long as the placeholder: the two sides of the equation
agree piece by piece. -/
theorem eq_of_same_length {f : List α → List α} {value : List α} (hplain : B.Plain name)
    (hname : f name = B.token name) (hlen : value.length = (B.token name).length) :
    ∀ segs : List (Seg α),
      replaceToken B name value (render f segs) = render (Function.update f name value) segs →
        value = B.token name ∨ occurrences B name (render f segs) = segs.count (.hole name) := by
  refine segs_induction (· = name) ?_ ?_
  · intro segs hno h
    have hsame : render (Function.update f name value) segs = render f segs :=
      render_congr fun n hn => Function.update_of_ne (hno n hn) _ _
    rw [hsame] at h
    rw [List.count_eq_zero.mpr fun hin => hno name hin rfl]
    exact replaceToken_eq_self hplain hlen h
  · intro front n rest hno hn ih h
    have hsame : render (Function.update f name value) front = render f front :=
      render_congr fun m hm => Function.update_of_ne (hno m hm) _ _
    rw [hn, render_append, render_hole, hname, replaceToken_append_token hplain, render_append,
      render_hole, Function.update_self, hsame] at h
    obtain ⟨hfront, hback⟩ := List.append_inj h (length_replaceToken hlen _)
    have hrest := List.append_cancel_left hback
    rcases ih hrest with hv | hcount
    · exact .inl hv
    rcases replaceToken_eq_self hplain hlen hfront with hv | hzero
    · exact .inl hv
    · right
      rw [hn, render_append, render_hole, hname, occurrences_append_token hplain, hzero, hcount,
        if_pos rfl, List.count_append, List.count_eq_zero.mpr fun hin => hno name hin rfl,
        List.count_cons_self]
      omega

/-- The values of a text, and one value more. -/
theorem eq_of_occurrences {f : List α → List α} (value : List α) (hplain : B.Plain name)
    (hname : f name = B.token name) : ∀ segs : List (Seg α),
      occurrences B name (render f segs) = segs.count (.hole name) →
        replaceToken B name value (render f segs) = render (Function.update f name value) segs := by
  refine segs_induction (· = name) ?_ ?_
  · intro segs hno h
    rw [List.count_eq_zero.mpr fun hin => hno name hin rfl] at h
    rw [replaceToken_self value (.inr h)]
    exact (render_congr fun n hn => Function.update_of_ne (hno n hn) _ _).symm
  · intro front n rest hno hn ih h
    have hsame : render (Function.update f name value) front = render f front :=
      render_congr fun m hm => Function.update_of_ne (hno m hm) _ _
    rw [hn, render_append, render_hole, hname, occurrences_append_token hplain, if_pos rfl,
      List.count_append, List.count_eq_zero.mpr fun hin => hno name hin rfl,
      List.count_cons_self] at h
    have hge := count_le_occurrences hplain hname rest
    rw [hn, render_append, render_hole, hname, replaceToken_append_token hplain, render_append,
      render_hole, Function.update_self, hsame, ih (by omega),
      replaceToken_self value (.inr (by omega))]

/-- **The next replacement** after the values `f`: it goes right exactly when the value is the
placeholder itself or the placeholder stands nowhere but where the template has it. -/
theorem replaceToken_render_iff {f : List α → List α} (value : List α) (hplain : B.Plain name)
    (hname : f name = B.token name) (segs : List (Seg α)) :
    replaceToken B name value (render f segs) = render (Function.update f name value) segs ↔
      value = B.token name ∨ occurrences B name (render f segs) = segs.count (.hole name) := by
  constructor
  · intro h
    by_cases hlen : value.length = (B.token name).length
    · exact eq_of_same_length hplain hname hlen segs h
    · right
      have h₁ := length_render_update (rfl : B.token name = B.token name) value
        (segments B (render f segs))
      have h₂ := length_render_update hname value segs
      rw [render_segments, ← replaceToken, h, ← occurrences] at h₁
      zify at h₁ h₂ hlen ⊢
      have hmul : ((occurrences B name (render f segs) : ℤ) - segs.count (.hole name)) *
          (value.length - (B.token name).length) = 0 := by linear_combination h₂ - h₁
      have hne : (value.length : ℤ) - (B.token name).length ≠ 0 := sub_ne_zero.mpr hlen
      exact sub_eq_zero.mp ((mul_eq_zero.mp hmul).resolve_right hne)
  · intro h
    rcases h with rfl | h
    · rw [replaceToken_self _ (.inl rfl), ← hname, Function.update_eq_self]
    · exact eq_of_occurrences value hplain hname segs h

/-! ## 6. Every selection, in every order -/

/-- One placeholder after the other. -/
def fill (B : Braces α) (args : List (List α × List α)) (text : List α) : List α :=
  args.foldl (fun text arg => replaceToken B arg.1 arg.2 text) text

theorem fill_concat (args : List (List α × List α)) (arg : List α × List α) (text : List α) :
    fill B (args ++ [arg]) text = replaceToken B arg.1 arg.2 (fill B args text) := by
  rw [fill, fill, List.foldl_append]
  rfl

/-- The other values make no new occurrence of the placeholder, or it stands for itself. -/
def Harmless (B : Braces α) (args : List (List α × List α)) (text : List α)
    (arg : List α × List α) : Prop :=
  arg.2 = B.token arg.1 ∨
    occurrences B arg.1 (substitute B (args.erase arg) text) = occurrences B arg.1 text

/-- One argument more, after others. -/
theorem replaceToken_substitute_iff {args : List (List α × List α)} {arg : List α × List α}
    (hplain : B.Plain arg.1) (hnodup : ((args ++ [arg]).map (·.1)).Nodup) (text : List α) :
    replaceToken B arg.1 arg.2 (substitute B args text) = substitute B (args ++ [arg]) text ↔
      arg.2 = B.token arg.1 ∨
        occurrences B arg.1 (substitute B args text) = occurrences B arg.1 text := by
  have hnot : arg.1 ∉ args.map (·.1) := by
    rw [List.map_append, List.map_singleton] at hnodup
    exact fun h => List.disjoint_of_nodup_append hnodup h List.mem_cons_self
  have h := replaceToken_render_iff arg.2 hplain (valueOf_not_mem hnot) (segments B text)
  rwa [← valueOf_concat hnodup] at h

/-- **One after the other is the same as at once**, for every selection of the arguments and every
order of it, exactly when no argument has an occurrence made for it by the others. -/
theorem fill_iff {args : List (List α × List α)} (hplain : ∀ arg ∈ args, B.Plain arg.1)
    (hnodup : (args.map (·.1)).Nodup) (text : List α) :
    (∀ sub : List (List α × List α), sub.Subperm args → fill B sub text = substitute B sub text) ↔
      ∀ arg ∈ args, Harmless B args text arg := by
  constructor
  · intro h arg harg
    have hothers := h (args.erase arg) (List.erase_subperm arg args)
    have hperm : (args.erase arg ++ [arg]).Perm args :=
      (List.perm_append_singleton arg _).trans (List.perm_cons_erase harg).symm
    have hall := h _ hperm.subperm
    rw [fill_concat, hothers] at hall
    exact (replaceToken_substitute_iff (hplain arg harg)
      (nodup_subperm hnodup hperm.subperm) text).mp hall
  · intro h sub
    induction sub using List.reverseRecOn with
    | nil =>
      intro _
      exact (render_segments text).symm
    | append_singleton sub arg ih =>
      intro hsub
      have harg : arg ∈ args := hsub.subset (List.mem_append_right _ List.mem_cons_self)
      have hfront : sub.Subperm args := (List.sublist_append_left sub [arg]).subperm.trans hsub
      have hnodup' := nodup_subperm hnodup hsub
      rw [fill_concat, ih hfront]
      refine (replaceToken_substitute_iff (hplain arg harg) hnodup' text).mpr ?_
      refine (h arg harg).imp_right fun hcount => ?_
      -- the occurrences grow with the selection, and the largest one has no more than the text
      have hcons : (arg :: sub).Subperm (arg :: args.erase arg) :=
        ((List.perm_append_singleton arg sub).symm.subperm.trans hsub).trans
          (List.perm_cons_erase harg).subperm
      have hothers : sub.Subperm (args.erase arg) := (List.subperm_cons arg).mp hcons
      have hnot : ∀ {l : List (List α × List α)}, ((l ++ [arg]).map (·.1)).Nodup →
          arg.1 ∉ l.map (·.1) := by
        intro l hl hin
        rw [List.map_append, List.map_singleton] at hl
        exact List.disjoint_of_nodup_append hl hin List.mem_cons_self
      have hperm : (args.erase arg ++ [arg]).Perm args :=
        (List.perm_append_singleton arg _).trans (List.perm_cons_erase harg).symm
      have hle := occurrences_render_mono (B := B)
        (valueOf_subperm (nodup_subperm hnodup (List.erase_subperm arg args)) hothers)
        (valueOf_not_mem (hnot (nodup_subperm hnodup hperm.subperm))) (segments B text)
        fun n hn => plain_of_hole hn
      have hge := count_le_occurrences (hplain arg harg) (valueOf_not_mem (hnot hnodup'))
        (segments B text)
      rw [substitute] at hcount ⊢
      rw [← occurrences] at hge
      omega

end WinProfile.Template
