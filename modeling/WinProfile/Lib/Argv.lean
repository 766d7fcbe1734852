/-
  File:      WinProfile/Lib/Argv.lean
  Subject:   How the Microsoft C runtime takes a command line apart. Nothing here knows a program
             that writes one.

  * `parseProgram`, `parseUnits` -- the program name, and the arguments after it.
  * `parseUnits_literal`, `parseUnits_toggle` -- what a quote means after a run of backslashes.
  * `parseUnits_ends`, `parseUnits_plain` -- where an argument ends.
-/
import WinProfile.Lib.Text

namespace WinProfile.Argv

/-! ## 1. The rules -/

def space : UInt16 := 0x20
def tab : UInt16 := 0x09
def quote : UInt16 := 0x22
def backslash : UInt16 := 0x5C

/-- What separates arguments outside of quotes. -/
def isSeparator (unit : UInt16) : Bool := unit == space || unit == tab

def backslashes (n : Nat) : Wide := List.replicate n backslash

/-- What follows the program name: it goes up to the next quote where it begins with one, and
otherwise up to the first blank. -/
def parseProgram : Wide → Wide
  | [] => []
  | unit :: rest =>
    if unit = quote then (rest.dropWhile fun u => u ≠ quote).tail
    else (unit :: rest).dropWhile fun u => !isSeparator u

/-- Inside or outside of quotes; `closed` is outside, right after the quote that ended a quoted
part. -/
inductive Part where
  | plain | quoted | closed
  deriving DecidableEq, Repr

/-- What a quote makes of the state: in a quoted part, two quotes in a row are one literal quote. -/
def Part.toggle : Part → Part × Wide
  | plain => (quoted, [])
  | quoted => (closed, [])
  | closed => (quoted, [quote])

/-- The arguments. `started`: one has begun; `current` is what it has so far, `n` the number of
backslashes after that, whose meaning the next unit decides. -/
def parseUnits (started : Bool) (part : Part) (n : Nat) (current : Wide) : Wide → List Wide
  | [] => if started then [current ++ backslashes n] else []
  | unit :: rest =>
    if unit = backslash then
      parseUnits true (if part = .quoted then .quoted else .plain) (n + 1) current rest
    else if unit = quote then
      if n % 2 = 1 then parseUnits true part 0 (current ++ backslashes (n / 2) ++ [quote]) rest
      else parseUnits true part.toggle.1 0 (current ++ backslashes (n / 2) ++ part.toggle.2) rest
    else if part ≠ .quoted ∧ isSeparator unit then
      if started then (current ++ backslashes n) :: parseUnits false .plain 0 [] rest
      else parseUnits false .plain 0 [] rest
    else parseUnits true (if part = .quoted then .quoted else .plain) 0
      (current ++ backslashes n ++ [unit]) rest

/-- `argv` without the program name. -/
def parseArguments (commandLine : Wide) : List Wide :=
  parseUnits false .plain 0 [] (parseProgram commandLine)

/-! ## 2. What the units mean -/

section Units

variable {started : Bool} {part : Part} {n m : Nat} {current units rest : Wide} {unit : UInt16}

/-- What follows an argument: nothing, or a blank and the other arguments. -/
def Ends (rest : Wide) : Prop := ∀ unit, rest.head? = some unit → isSeparator unit = true

theorem backslashes_add : backslashes (n + m) = backslashes n ++ backslashes m :=
  List.replicate_add ..

/-- A run of backslashes in a quoted part is counted. -/
theorem parseUnits_backslashes :
    parseUnits true .quoted n current (backslashes m ++ rest)
      = parseUnits true .quoted (n + m) current rest := by
  induction m generalizing n with
  | zero => rfl
  | succ m ih =>
    have hcons : backslashes (m + 1) ++ rest = backslash :: (backslashes m ++ rest) := rfl
    rw [hcons, parseUnits, if_pos rfl, if_pos rfl, ih, Nat.add_right_comm, Nat.add_assoc]

/-- An odd run before a quote: half of it, and the quote. -/
theorem parseUnits_literal :
    parseUnits true part (n * 2 + 1) current (quote :: rest)
      = parseUnits true part 0 (current ++ backslashes n ++ [quote]) rest := by
  have hodd : (n * 2 + 1) % 2 = 1 := by omega
  have hhalf : (n * 2 + 1) / 2 = n := by omega
  rw [parseUnits, if_neg (by decide), if_pos rfl, if_pos hodd, hhalf]

/-- An even run before a quote: half of it, and the quote takes effect. -/
theorem parseUnits_toggle :
    parseUnits started part (n * 2) current (quote :: rest)
      = parseUnits true part.toggle.1 0 (current ++ backslashes n ++ part.toggle.2) rest := by
  have heven : ¬ n * 2 % 2 = 1 := by omega
  have hhalf : n * 2 / 2 = n := by omega
  rw [parseUnits, if_neg (by decide), if_pos rfl, if_neg heven, hhalf]

/-- In a quoted part, any other unit stands for itself, and so do the backslashes before it. -/
theorem parseUnits_unit (hslash : unit ≠ backslash) (hquote : unit ≠ quote) :
    parseUnits started .quoted n current (unit :: rest)
      = parseUnits true .quoted 0 (current ++ backslashes n ++ [unit]) rest := by
  rw [parseUnits, if_neg hslash, if_neg hquote, if_neg (fun h => h.1 rfl), if_pos rfl]

/-- **The end of an argument.** -/
theorem parseUnits_ends (hpart : part ≠ .quoted) (h : Ends rest) :
    parseUnits true part n current rest
      = (current ++ backslashes n) :: parseUnits false .plain 0 [] rest := by
  cases rest with
  | nil => rfl
  | cons unit rest =>
    have hblank := h unit rfl
    have hslash : unit ≠ backslash := fun heq => by rw [heq] at hblank; cases hblank
    have hquote : unit ≠ quote := fun heq => by rw [heq] at hblank; cases hblank
    rw [parseUnits, if_neg hslash, if_neg hquote, if_pos ⟨hpart, hblank⟩, if_pos rfl, parseUnits,
      if_neg hslash, if_neg hquote, if_pos ⟨nofun, hblank⟩, if_neg Bool.false_ne_true]

/-- A blank between arguments. -/
theorem parseUnits_space : parseUnits false .plain 0 [] (space :: rest)
    = parseUnits false .plain 0 [] rest := rfl

/-- Without blanks and quotes, every unit stands for itself up to the end. -/
theorem parseUnits_plain (hplain : ∀ u ∈ units, isSeparator u = false ∧ u ≠ quote) (h : Ends rest)
    (hstarted : started = true ∨ units ≠ []) :
    parseUnits started .plain n current (units ++ rest)
      = (current ++ backslashes n ++ units) :: parseUnits false .plain 0 [] rest := by
  induction units generalizing started n current with
  | nil =>
    rw [hstarted.resolve_right fun hne => hne rfl, List.nil_append, List.append_nil,
      parseUnits_ends (show Part.plain ≠ .quoted from nofun) h]
  | cons unit units ih =>
    have hrest : ∀ {n current}, parseUnits true .plain n current (units ++ rest)
        = (current ++ backslashes n ++ units) :: parseUnits false .plain 0 [] rest :=
      ih (fun u hu => hplain u (List.mem_cons_of_mem _ hu)) (.inl rfl)
    obtain ⟨hblank, hquote⟩ := hplain unit (List.mem_cons_self ..)
    rw [List.cons_append, parseUnits]
    by_cases hslash : unit = backslash
    · rw [if_pos hslash, if_neg nofun, hrest, backslashes_add, hslash]
      simp [backslashes]
    · rw [if_neg hslash, if_neg hquote, if_neg (by simp [hblank]), if_neg nofun, hrest]
      simp [backslashes]

end Units

end WinProfile.Argv
