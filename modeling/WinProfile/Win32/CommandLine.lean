/-
  File:      WinProfile/Win32/CommandLine.lean
  Subject:   The command line of platform-win32/src/tokens.rs: what `build_windows_command_line`
             writes, and that the started program reads back the arguments.

  * `appendQuotedArgument`, `buildWindowsCommandLine` -- the encoder, unit by unit.
  * `parseArguments_build` -- **the round trip**.
-/
import WinProfile.Lib.Argv

namespace WinProfile

open Argv

/-! ## 1. The encoder -/

def needsQuotes (units : Wide) : Bool :=
  units.isEmpty || units.any fun unit => unit == space || unit == tab || unit == quote

/-- The loop of `append_quoted_argument`; `slashes` is the number of backslashes that it holds
back. -/
def appendUnits (commandLine : Wide) (slashes : Nat) : Wide → Wide
  | [] => commandLine ++ backslashes (slashes * 2) ++ [quote]
  | unit :: units =>
    if unit = backslash then appendUnits commandLine (slashes + 1) units
    else if unit = quote then
      appendUnits (commandLine ++ backslashes (slashes * 2 + 1) ++ [unit]) 0 units
    else appendUnits (commandLine ++ backslashes slashes ++ [unit]) 0 units

/-- `append_quoted_argument`. -/
def appendQuotedArgument (commandLine units : Wide) : Wide :=
  if !needsQuotes units then commandLine ++ units
  else appendUnits (commandLine ++ [quote]) 0 units

/-- `build_windows_command_line`, without the final NUL. -/
def commandLineUnits (application : Wide) (arguments : List Wide) : Wide :=
  arguments.foldl (fun commandLine argument => appendQuotedArgument (commandLine ++ [space]) argument)
    (appendQuotedArgument [] application)

/-- `build_windows_command_line`. -/
def buildWindowsCommandLine (application : Wide) (arguments : List Wide) : Wide :=
  commandLineUnits application arguments ++ [0]

/-! ## 2. What it writes -/

section Written

variable {commandLine units rest current application : Wide} {slashes : Nat}

/-- The encoder only appends. -/
theorem appendUnits_eq : appendUnits commandLine slashes units
    = commandLine ++ appendUnits [] slashes units := by
  induction units generalizing commandLine slashes with
  | nil => simp [appendUnits]
  | cons unit units ih =>
    rw [appendUnits, appendUnits]
    split_ifs
    · exact ih
    · rw [ih, @ih ([] ++ _ ++ _)]
      simp
    · rw [ih, @ih ([] ++ _ ++ _)]
      simp

def quotedArgument (units : Wide) : Wide := appendQuotedArgument [] units

theorem appendQuotedArgument_eq :
    appendQuotedArgument commandLine units = commandLine ++ quotedArgument units := by
  rw [quotedArgument, appendQuotedArgument, appendQuotedArgument]
  split_ifs
  · rfl
  · rw [appendUnits_eq, @appendUnits_eq ([] ++ [quote])]
    simp

theorem commandLineUnits_eq (arguments : List Wide) : commandLineUnits application arguments
    = quotedArgument application ++ arguments.flatMap fun units => space :: quotedArgument units := by
  have hfold : ∀ commandLine : Wide, arguments.foldl
      (fun commandLine argument => appendQuotedArgument (commandLine ++ [space]) argument) commandLine
        = commandLine ++ arguments.flatMap fun units => space :: quotedArgument units := by
    induction arguments with
    | nil => simp
    | cons argument arguments ih =>
      intro commandLine
      rw [List.foldl_cons, ih, appendQuotedArgument_eq, List.flatMap_cons]
      simp
  exact hfold _

theorem needsQuotes_eq_false : needsQuotes units = false ↔
    units ≠ [] ∧ ∀ u ∈ units, isSeparator u = false ∧ u ≠ quote := by
  cases units with
  | nil => simp [needsQuotes]
  | cons unit units => simp [needsQuotes, isSeparator, and_assoc]

/-! ## 3. What is read -/

/-- **The quoted part is undone**: the backslashes that the encoder holds back are those that the
reader has yet to judge. -/
theorem parseUnits_appendUnits : parseUnits true .quoted 0 current (appendUnits [] slashes units ++ rest)
    = parseUnits true .closed 0 (current ++ backslashes slashes ++ units) rest := by
  induction units generalizing slashes current with
  | nil =>
    rw [appendUnits, List.nil_append, List.append_assoc, parseUnits_backslashes, Nat.zero_add,
      List.singleton_append, parseUnits_toggle]
    rfl
  | cons unit units ih =>
    rw [appendUnits]
    by_cases hslash : unit = backslash
    · rw [if_pos hslash, ih, hslash, backslashes_add]
      simp [backslashes]
    rw [if_neg hslash]
    by_cases hquote : unit = quote
    · rw [if_pos hquote, appendUnits_eq, List.nil_append, List.append_assoc, List.append_assoc,
        parseUnits_backslashes, Nat.zero_add, hquote, List.singleton_append, parseUnits_literal, ih]
      simp [backslashes]
    · rw [if_neg hquote, appendUnits_eq, List.nil_append, List.append_assoc, List.append_assoc,
        parseUnits_backslashes, Nat.zero_add, List.singleton_append,
        parseUnits_unit hslash hquote, ih]
      simp [backslashes]

/-- One argument, up to the blank after it. -/
theorem parseUnits_quotedArgument (h : Ends rest) :
    parseUnits false .plain 0 [] (quotedArgument units ++ rest)
      = units :: parseUnits false .plain 0 [] rest := by
  rw [quotedArgument, appendQuotedArgument]
  by_cases hquotes : needsQuotes units = true
  · have hopen : parseUnits false .plain 0 [] (quote :: (appendUnits [] 0 units ++ rest))
        = parseUnits true .quoted 0 [] (appendUnits [] 0 units ++ rest) := rfl
    rw [if_neg (by simp [hquotes]), appendUnits_eq, List.nil_append, List.append_assoc,
      List.singleton_append, hopen, parseUnits_appendUnits,
      parseUnits_ends (show Part.closed ≠ .quoted from nofun) h]
    simp [backslashes]
  · obtain ⟨hne, hplain⟩ := needsQuotes_eq_false.mp (Bool.not_eq_true _ ▸ hquotes)
    rw [if_pos (by simp [hquotes]), List.nil_append, parseUnits_plain hplain h (.inr hne)]
    simp [backslashes]

theorem ends_flatMap (arguments : List Wide) :
    Ends (arguments.flatMap fun units => space :: quotedArgument units) := by
  intro unit hunit
  cases arguments with
  | nil => cases hunit
  | cons argument arguments =>
    cases hunit
    rfl

theorem parseUnits_arguments (arguments : List Wide) : parseUnits false .plain 0 []
    (arguments.flatMap fun units => space :: quotedArgument units) = arguments := by
  induction arguments with
  | nil => rfl
  | cons argument arguments ih =>
    rw [List.flatMap_cons, List.cons_append, parseUnits_space,
      parseUnits_quotedArgument (ends_flatMap arguments), ih]

/-- A quoted part without literal quotes has one quote, at its end. -/
theorem dropWhile_appendUnits (hquote : quote ∉ units) :
    ((appendUnits [] slashes units ++ rest).dropWhile fun u => u ≠ quote) = quote :: rest := by
  have hslashes : ∀ (n : Nat) (tail : Wide), (backslashes n ++ tail).dropWhile (fun u => u ≠ quote)
      = tail.dropWhile fun u => u ≠ quote := fun n tail =>
    List.dropWhile_append_of_pos fun u hu => by
      rw [(List.mem_replicate.mp hu).2]
      decide
  induction units generalizing slashes with
  | nil =>
    rw [appendUnits, List.nil_append, List.append_assoc, hslashes]
    simp
  | cons unit units ih =>
    obtain ⟨hne, hrest⟩ := not_or.mp (fun h => hquote (List.mem_cons.mpr h))
    rw [appendUnits]
    by_cases hslash : unit = backslash
    · rw [if_pos hslash, ih hrest]
    · rw [if_neg hslash, if_neg (Ne.symm hne), appendUnits_eq, List.nil_append, List.append_assoc,
        List.append_assoc, hslashes, List.singleton_append,
        List.dropWhile_cons_of_pos (by simpa using Ne.symm hne), ih hrest]

/-- The program name, up to the blank after it. -/
theorem parseProgram_quotedArgument (hquote : quote ∉ units) (h : Ends rest) :
    parseProgram (quotedArgument units ++ rest) = rest := by
  rw [quotedArgument, appendQuotedArgument]
  by_cases hquotes : needsQuotes units = true
  · rw [if_neg (by simp [hquotes]), appendUnits_eq, List.nil_append, List.append_assoc,
      List.singleton_append, parseProgram, if_pos rfl, dropWhile_appendUnits hquote, List.tail_cons]
  · obtain ⟨hne, hplain⟩ := needsQuotes_eq_false.mp (Bool.not_eq_true _ ▸ hquotes)
    obtain ⟨unit, units, rfl⟩ := List.exists_cons_of_ne_nil hne
    rw [if_pos (by simp [hquotes]), List.nil_append, List.cons_append, parseProgram,
      if_neg (hplain unit (List.mem_cons_self ..)).2, ← List.cons_append,
      List.dropWhile_append_of_pos fun u hu => by simp [(hplain u hu).1]]
    cases rest with
    | nil => rfl
    | cons u rest => rw [List.dropWhile_cons_of_neg (by simp [h u rfl])]

end Written

/-- **The round trip**: the started program is given exactly the arguments of the caller. -/
theorem parseArguments_build (application : Wide) (arguments : List Wide)
    (hquote : quote ∉ application) :
    parseArguments (buildWindowsCommandLine application arguments).dropLast = arguments := by
  rw [buildWindowsCommandLine, List.dropLast_concat, commandLineUnits_eq, parseArguments,
    parseProgram_quotedArgument hquote (ends_flatMap arguments), parseUnits_arguments]

theorem parseArguments_build_sample : parseArguments (buildWindowsCommandLine
    (encodeWide "C:\\System Root\\cmd.exe")
    [encodeWide "/k", [], encodeWide "a\\\\\"b\\", encodeWide "c d\\"]).dropLast
      = [encodeWide "/k", [], encodeWide "a\\\\\"b\\", encodeWide "c d\\"] :=
  parseArguments_build _ _ (by decide +kernel)

end WinProfile
