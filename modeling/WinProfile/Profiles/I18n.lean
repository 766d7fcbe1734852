/-
  File:      WinProfile/Profiles/I18n.lean
  Subject:   core-profiles/src/i18n.rs: the translation of a key with named arguments.

  * `translateArgs` -- the template of the key, with one search-and-replace after the other.
  * `Simultaneous` -- the arguments go in at once: no value is read as a template again, the order
    does not matter, every value is there as it is.
  * `translateArgs_simultaneous_iff` -- this holds exactly when no argument has an occurrence of its
    placeholder made for it by the values of the others.
-/
import WinProfile.Lib.Template

namespace WinProfile.I18n

open Template (Braces)

/-! ## 1. Translation -/

/-- `I18nManager`: the texts by locale and key. -/
structure I18nManager where
  locales : String → Option (String → Option String)

/-- `translate`, for the locale that is set. -/
def I18nManager.translate (m : I18nManager) (locale key : String) : String :=
  (((m.locales locale).bind (· key)).orElse fun _ => (m.locales "en").bind (· key)).getD
    ("[missing:" ++ key ++ "]")

/-- `str::replace` with a pattern that is not empty. -/
def replaceText (pattern value text : String) : String :=
  String.ofList (Template.replaceFrom pattern.toList value.toList 0 text.toList)

/-- `format!` of a parameter between braces. -/
def placeholder (parameter : String) : String := "\x7b" ++ parameter ++ "\x7d"

/-- `translate_args`. -/
def I18nManager.translateArgs (m : I18nManager) (locale key : String)
    (args : List (String × String)) : String :=
  args.foldl (fun template arg => replaceText (placeholder arg.1) arg.2 template)
    (m.translate locale key)

/-! ## 2. Substitution at once -/

/-- The braces of a placeholder. -/
def braces : Braces Char where
  left := '\x7b'
  right := '\x7d'
  ne := by decide

/-- A name without braces. -/
def BraceFree (name : String) : Prop := braces.Plain name.toList

/-- An argument as characters. -/
def chars (arg : String × String) : List Char × List Char := (arg.1.toList, arg.2.toList)

/-- The template with every placeholder of a listed name replaced by its value, at once. -/
def substitute (args : List (String × String)) (template : String) : String :=
  String.ofList (Template.substitute braces (args.map chars) template.toList)

/-- How often the placeholder of a name stands in a text. -/
def occurrences (name text : String) : Nat := Template.occurrences braces name.toList text.toList

/-- What the arguments of a call are put in as, and those of any selection of them in any order. -/
structure Simultaneous (m : I18nManager) (locale key : String) (args : List (String × String)) :
    Prop where
  /-- No value is searched. -/
  exact : ∀ sub : List (String × String), sub.Subperm args →
    m.translateArgs locale key sub = substitute sub (m.translate locale key)
  order : ∀ sub sub' : List (String × String), sub.Subperm args → sub.Perm sub' →
    m.translateArgs locale key sub = m.translateArgs locale key sub'
  verbatim : ∀ sub : List (String × String), sub.Subperm args → ∀ arg ∈ sub,
    0 < occurrences arg.1 (m.translate locale key) →
      arg.2.toList <:+: (m.translateArgs locale key sub).toList

/-- The values of the other arguments make no new occurrence of the placeholder, or its value is
the placeholder itself. -/
def Harmless (args : List (String × String)) (template : String) (arg : String × String) : Prop :=
  arg.2 = placeholder arg.1 ∨
    occurrences arg.1 (substitute (args.erase arg) template) = occurrences arg.1 template

/-! ## 3. The chain of replacements -/

theorem placeholder_toList (name : String) :
    (placeholder name).toList = braces.token name.toList := by
  rw [placeholder, String.toList_append, String.toList_append]
  rfl

theorem chars_injective : Function.Injective chars := by
  intro a b h
  obtain ⟨h₁, h₂⟩ := Prod.mk.inj h
  exact Prod.ext (String.toList_inj.mp h₁) (String.toList_inj.mp h₂)

theorem chars_nodup {args : List (String × String)} (h : (args.map (·.1)).Nodup) :
    ((args.map chars).map (·.1)).Nodup := by
  have hsame : (args.map chars).map (·.1) = (args.map (·.1)).map String.toList := by
    rw [List.map_map, List.map_map]
    rfl
  rw [hsame]
  exact h.map fun _ _ he => String.toList_inj.mp he

theorem toList_replaceText {name : String} (h : BraceFree name) (value text : String) :
    (replaceText (placeholder name) value text).toList =
      Template.replaceToken braces name.toList value.toList text.toList := by
  rw [replaceText, String.toList_ofList, placeholder_toList, Template.replaceFrom_token h]

/-- The loop, on characters. -/
theorem toList_foldl : ∀ {args : List (String × String)}, (∀ arg ∈ args, BraceFree arg.1) →
    ∀ text : String,
      (args.foldl (fun template arg => replaceText (placeholder arg.1) arg.2 template) text).toList =
        Template.fill braces (args.map chars) text.toList
  | [], _, _ => rfl
  | arg :: args, h, text => by
    rw [List.foldl_cons, toList_foldl fun a ha => h a (List.mem_cons_of_mem _ ha),
      toList_replaceText (h arg List.mem_cons_self)]
    rfl

variable {m : I18nManager} {locale key : String} {args : List (String × String)}

theorem translateArgs_eq_iff {sub : List (String × String)} (h : ∀ arg ∈ sub, BraceFree arg.1) :
    m.translateArgs locale key sub = substitute sub (m.translate locale key) ↔
      Template.fill braces (sub.map chars) (m.translate locale key).toList =
        Template.substitute braces (sub.map chars) (m.translate locale key).toList := by
  rw [← String.toList_inj, substitute, String.toList_ofList, I18nManager.translateArgs,
    toList_foldl h]

theorem harmless_iff (template : String) (arg : String × String) :
    Harmless args template arg ↔
      Template.Harmless braces (args.map chars) template.toList (chars arg) := by
  rw [Harmless, Template.Harmless, ← List.map_erase chars_injective, ← String.toList_inj,
    placeholder_toList, occurrences, occurrences, substitute, String.toList_ofList]
  rfl

/-- A selection of the arguments as characters is a selection of the arguments. -/
theorem exists_sub {sub : List (List Char × List Char)} (h : sub.Subperm (args.map chars)) :
    ∃ sub' : List (String × String), sub'.Subperm args ∧ sub = sub'.map chars := by
  let back : List Char × List Char → String × String := fun p =>
    (String.ofList p.1, String.ofList p.2)
  have hback : ∀ p, chars (back p) = p := fun p => by
    rw [chars, String.toList_ofList, String.toList_ofList]
  refine ⟨sub.map back, ?_, ?_⟩
  · have hinj : Function.Injective back := fun p q he => by rw [← hback p, ← hback q, he]
    have hmap := h.map hinj
    rw [List.map_map] at hmap
    have hid : back ∘ chars = id := funext fun arg => chars_injective (hback (chars arg))
    rwa [hid, List.map_id] at hmap
  · rw [List.map_map]
    exact (List.map_id sub).symm.trans (List.map_congr_left fun p _ => (hback p).symm)

/-- **`translate_args` puts its arguments in at once** exactly when they are harmless. -/
theorem translateArgs_simultaneous_iff (m : I18nManager) (locale key : String)
    (args : List (String × String)) (hplain : ∀ arg ∈ args, BraceFree arg.1)
    (hnodup : (args.map (·.1)).Nodup) :
    Simultaneous m locale key args ↔
      ∀ arg ∈ args, Harmless args (m.translate locale key) arg := by
  have hplain' : ∀ arg ∈ args.map chars, braces.Plain arg.1 := by
    intro arg harg
    obtain ⟨a, ha, rfl⟩ := List.mem_map.mp harg
    exact hplain a ha
  have hfill := Template.fill_iff hplain' (chars_nodup hnodup) (m.translate locale key).toList
  have hcond : (∀ arg ∈ args.map chars,
      Template.Harmless braces (args.map chars) (m.translate locale key).toList arg) ↔
        ∀ arg ∈ args, Harmless args (m.translate locale key) arg := by
    simp only [List.forall_mem_map, harmless_iff]
  rw [← hcond, ← hfill]
  have hsub : ∀ {sub : List (String × String)}, sub.Subperm args → ∀ arg ∈ sub, BraceFree arg.1 :=
    fun h arg harg => hplain arg (h.subset harg)
  constructor
  · intro h sub hs
    obtain ⟨sub', hs', rfl⟩ := exists_sub hs
    exact (translateArgs_eq_iff (hsub hs')).mp (h.exact sub' hs')
  · intro h
    have hexact : ∀ sub : List (String × String), sub.Subperm args →
        m.translateArgs locale key sub = substitute sub (m.translate locale key) :=
      fun sub hs => (translateArgs_eq_iff (hsub hs)).mpr (h _ (hs.map chars_injective))
    refine ⟨hexact, fun sub sub' hs hperm => ?_, fun sub hs arg harg hocc => ?_⟩
    · have hs' : sub'.Subperm args := hperm.symm.subperm.trans hs
      rw [hexact sub hs, hexact sub' hs', substitute, substitute,
        Template.substitute_perm (Template.nodup_subperm (chars_nodup hnodup) (hs.map chars_injective))
          (hperm.map chars)]
    · rw [hexact sub hs, substitute, String.toList_ofList]
      have hnodup' := Template.nodup_subperm (chars_nodup hnodup) (hs.map chars_injective)
      obtain ⟨front, rest, hsegs⟩ := List.append_of_mem (List.count_pos_iff.mp hocc)
      have hvalue := Template.valueOf_mem (B := braces) hnodup' (List.mem_map_of_mem harg)
      rw [Template.substitute, hsegs, Template.render_append, Template.render_hole]
      rw [chars] at hvalue
      rw [hvalue]
      exact ⟨_, _, List.append_assoc _ _ _⟩

/-- The bundle of the progress line, in English. -/
def progressBundle : I18nManager where
  locales locale := if locale = "en" then
      some fun key => if key = "migration.progress.detail" then
        some "\x7bphase\x7d: \x7bpath\x7d — \x7bfiles\x7d verified files, \x7bbytes\x7d bytes copied"
      else none
    else none

theorem translateArgs_simultaneous_iff_sample :
    Simultaneous progressBundle "en" "migration.progress.detail"
        [("path", "a.txt"), ("files", "3")] ↔
      ∀ arg ∈ [("path", "a.txt"), ("files", "3")], Harmless [("path", "a.txt"), ("files", "3")]
        (progressBundle.translate "en" "migration.progress.detail") arg :=
  translateArgs_simultaneous_iff _ _ _ _ (by unfold BraceFree Braces.Plain; decide +kernel)
    (by decide +kernel)

/-- The arguments of the progress line for a file that is called like a later placeholder. -/
def progressArgs : List (String × String) :=
  [("phase", "Copying"), ("path", "\x7bfiles\x7d.txt"), ("files", "3"), ("bytes", "10")]

/-- The name of the file is replaced. -/
theorem path_is_rewritten :
    progressBundle.translateArgs "en" "migration.progress.detail" progressArgs =
        "Copying: 3.txt — 3 verified files, 10 bytes copied" ∧
      ¬ Simultaneous progressBundle "en" "migration.progress.detail" progressArgs := by
  have hrun : progressBundle.translateArgs "en" "migration.progress.detail" progressArgs =
      "Copying: 3.txt — 3 verified files, 10 bytes copied" := by
    decide +kernel
  have hspec : substitute progressArgs
      (progressBundle.translate "en" "migration.progress.detail") =
        "Copying: \x7bfiles\x7d.txt — 3 verified files, 10 bytes copied" := by
    decide +kernel
  refine ⟨hrun, fun h => ?_⟩
  have hsame := h.exact progressArgs (List.Subperm.refl _)
  rw [hrun, hspec] at hsame
  exact absurd hsame (by decide +kernel)

end WinProfile.I18n
