/-
  File:      WinProfile/Profiles/KeyNames.lean
  Subject:   The SID check of repair.rs and the key names that a repair makes of a SID.

  * `isValidSid_iff` -- the check is the grammar: `S-1` and groups of a hyphen and digits.
  * `utcStamp` -- the timestamp in the name of a preserved key.
  * `keyName_inj`, `fold_keyName_inj` -- a name says which SID it is made of and how, also where
    names are compared without case.
  * `key_names_unambiguous` -- these, and a repair leaves the keys of all other accounts alone.
-/
import WinProfile.Profiles.Account
import WinProfile.Repair.Frame

namespace WinProfile

/-! ## 1. The grammar of a SID -/

/-- A non-empty run of decimal digits. -/
def IsDigits (group : List Char) : Prop := group ≠ [] ∧ ∀ c ∈ group, isAsciiDigit c = true

/-- `S-1` followed by one or more groups of a hyphen and digits. -/
def SidText (value : String) : Prop :=
  ∃ groups : List (List Char), groups ≠ [] ∧ (∀ group ∈ groups, IsDigits group) ∧
    value.toList = "S-1".toList ++ groups.flatMap ('-' :: ·)

theorem IsDigits.no_hyphen {group : List Char} (h : IsDigits group) : '-' ∉ group := by
  intro hin
  have hdigit := h.2 _ hin
  revert hdigit
  decide

theorem isDigits_iff (part : List Char) :
    (!part.isEmpty && part.all isAsciiDigit) = true ↔ IsDigits part := by
  rw [Bool.and_eq_true_iff, List.all_eq_true, IsDigits]
  refine and_congr ?_ Iff.rfl
  cases part <;> simp

/-- **The check accepts exactly the grammar.** -/
theorem isValidSid_iff (value : String) : isValidSid value = true ↔ SidText value := by
  -- behind `S-1-`, the split gives `S`, then `1`, then what stands between the other hyphens
  have hsplit : ∀ rest : List Char, splitAtChar '-' ('S' :: '-' :: '1' :: '-' :: rest)
      = ['S'] :: ['1'] :: splitAtChar '-' rest := fun rest => by simp [splitAtChar]
  constructor
  · intro h
    obtain ⟨hstart, hparts⟩ := Bool.and_eq_true_iff.mp h
    obtain ⟨rest, hrest⟩ := List.isPrefixOf_iff_prefix.mp hstart
    have hvalue : 'S' :: '-' :: '1' :: '-' :: rest = value.toList := hrest
    rw [← hvalue, hsplit, List.drop_succ_cons, List.drop_zero, List.all_cons,
      Bool.and_eq_true_iff, List.all_eq_true] at hparts
    refine ⟨splitAtChar '-' rest, splitAtChar_ne_nil _ _,
      fun group hgroup => (isDigits_iff group).mp (hparts.2 group hgroup), ?_⟩
    rw [flatMap_splitAtChar, ← hvalue]
    rfl
  · rintro ⟨groups, hne, hdigits, hvalue⟩
    obtain ⟨first, more, rfl⟩ := List.exists_cons_of_ne_nil hne
    have hvalue : value.toList
        = 'S' :: '-' :: '1' :: '-' :: (first ++ more.flatMap ('-' :: ·)) := hvalue
    have hparts := splitAtChar_flatMap (hdigits first List.mem_cons_self).no_hyphen
      fun p hp => (hdigits p (List.mem_cons_of_mem _ hp)).no_hyphen
    unfold isValidSid
    rw [hvalue, hsplit, hparts, Bool.and_eq_true_iff]
    constructor
    · simp [startsWith, hvalue]
    · rw [List.drop_succ_cons, List.drop_zero, List.all_cons, Bool.and_eq_true_iff]
      refine ⟨by decide, List.all_eq_true.mpr fun part hpart => (isDigits_iff part).mpr ?_⟩
      exact hdigits part hpart

/-! ## 2. Timestamps -/

/-- A time in UTC as chrono has it; a leap second is told by `nanosecond` from 10^9 on. -/
structure UtcTime where
  year : Int
  month : Nat
  day : Nat
  hour : Nat
  minute : Nat
  second : Nat
  nanosecond : Nat

/-- A number with zeros in front, `width` digits at least. -/
def padded (width n : Nat) : String :=
  String.ofList (List.replicate (width - (toString n).length) '0') ++ toString n

/-- `%Y`: outside of the years with four digits, a sign stands in front. -/
def yearText (year : Int) : String :=
  if 0 ≤ year ∧ year ≤ 9999 then padded 4 year.toNat
  else (if year < 0 then "-" else "+") ++ padded 4 year.natAbs

/-- `%Y%m%dT%H%M%S%.6fZ`. -/
def utcStamp (t : UtcTime) : String :=
  yearText t.year ++ padded 2 t.month ++ padded 2 t.day ++ "T" ++ padded 2 t.hour ++
    padded 2 t.minute ++ padded 2 (t.second + t.nanosecond / 10 ^ 9) ++
    "." ++ padded 6 (t.nanosecond % 10 ^ 9 / 1000) ++ "Z"

/-- The text of a time. -/
structure Timestamp where
  text : String
  made : ∃ t, text = utcStamp t

/-- Every character stands before the small letters and is no backslash. -/
def Upper (s : String) : Prop := ∀ c ∈ s.toList, c.toNat < 0x5C

theorem Upper.append {a b : String} (ha : Upper a) (hb : Upper b) : Upper (a ++ b) := by
  intro c hc
  rw [String.toList_append, List.mem_append] at hc
  exact hc.elim (ha c) (hb c)

theorem upper_padded (width n : Nat) : Upper (padded width n) := by
  refine Upper.append (fun c hc => ?_) fun c hc => ?_
  · rw [String.toList_ofList] at hc
    rw [List.eq_of_mem_replicate hc]
    decide
  · have hdigits : c ∈ Nat.toDigits 10 n := by
      rw [← Nat.toList_repr]
      exact hc
    have hdigit := Nat.isDigit_of_mem_toDigits (by decide) (by decide) hdigits
    simp only [Char.isDigit, Bool.and_eq_true, decide_eq_true_eq] at hdigit
    have hle : c.toNat ≤ 57 := hdigit.2
    omega

theorem upper_yearText (year : Int) : Upper (yearText year) := by
  unfold yearText
  split
  · exact upper_padded _ _
  · refine Upper.append ?_ (upper_padded _ _)
    split <;> exact forall_mem_of_all (by decide)

theorem Timestamp.upper (t : Timestamp) : Upper t.text := by
  obtain ⟨time, htext⟩ := t.made
  have hT : Upper "T" := forall_mem_of_all (by decide)
  have hdot : Upper "." := forall_mem_of_all (by decide)
  have hZ : Upper "Z" := forall_mem_of_all (by decide)
  have hdate : Upper (yearText time.year ++ padded 2 time.month ++ padded 2 time.day) :=
    ((upper_yearText _).append (upper_padded _ _)).append (upper_padded _ _)
  rw [htext, utcStamp]
  exact ((((((hdate.append hT).append (upper_padded _ _)).append (upper_padded _ _)).append
    (upper_padded _ _)).append hdot).append (upper_padded _ _)).append hZ

/-! ## 3. The names -/

/-- How a key name is made of a SID. -/
inductive KeyForm where
  | own
  | bak
  | aside (timestamp : Timestamp)

def KeyForm.suffix : KeyForm → String
  | .own => ""
  | .bak => BAK_EXTENSION
  | .aside timestamp => "." ++ BACKUP_SUFFIX ++ "-" ++ timestamp.text

/-- The name of this form. -/
def keyName (sid : String) (form : KeyForm) : String := sid ++ form.suffix

theorem derived_keyName (sid : String) (form : KeyForm) : Derived sid (keyName sid form) := by
  cases form with
  | own => simpa [keyName, KeyForm.suffix] using (Derived.self : Derived sid sid)
  | bak => exact .bak .self
  | aside t =>
    have haside : Derived sid (sid ++ "." ++ BACKUP_SUFFIX ++ "-" ++ t.text) := .aside t.text .self
    simpa only [keyName, KeyForm.suffix, String.append_assoc] using haside

theorem upper_sid {sid : String} (h : isValidSid sid) : Upper sid := by
  intro c hc
  rcases isValidSid_chars h hc with rfl | rfl | hdigit
  · decide
  · decide
  · simp only [isAsciiDigit, Bool.and_eq_true, decide_eq_true_eq] at hdigit
    have hle : c.toNat ≤ 57 := hdigit.2
    omega

theorem no_backslash {sid : String} (h : isValidSid sid) (form : KeyForm) :
    '\\' ∉ (keyName sid form).toList := by
  have hupper : ∀ {s : String}, Upper s → '\\' ∉ s.toList := fun hs hin =>
    absurd (hs _ hin) (by decide)
  rw [keyName, String.toList_append, List.mem_append, not_or]
  refine ⟨hupper (upper_sid h), ?_⟩
  cases form with
  | own => decide
  | bak => decide
  | aside t =>
    rw [KeyForm.suffix, String.toList_append, List.mem_append, not_or]
    exact ⟨by decide, hupper t.upper⟩

/-! ## 4. Names without case -/

/-- On ASCII characters the system's upcase table is the one of ASCII. -/
def UpcasesAscii (P : Platform) : Prop := ∀ c : Char, c.toNat < 0x80 → P.up c = asciiUpper c

section Fold

variable {P : Platform}

theorem fold_append (a b : String) : P.fold (a ++ b) = P.fold a ++ P.fold b := by
  rw [Platform.fold, String.toList_append, List.map_append, Platform.fold, Platform.fold]

theorem fold_ascii (hup : UpcasesAscii P) {s : String} (h : ∀ c ∈ s.toList, c.toNat < 0x80) :
    P.fold s = s.toList.map asciiUpper :=
  List.map_congr_left fun c hc => hup c (h c hc)

theorem fold_upper (hup : UpcasesAscii P) {s : String} (h : Upper s) : P.fold s = s.toList := by
  have hfix : ∀ c ∈ s.toList, asciiUpper c = id c := by
    intro c hc
    have hlow := h c hc
    refine if_neg fun hsmall => ?_
    simp only [Bool.and_eq_true, decide_eq_true_eq] at hsmall
    have hle : 97 ≤ c.toNat := hsmall.1
    omega
  rw [fold_ascii hup fun c hc => (h c hc).trans (by decide), List.map_congr_left hfix, List.map_id]

/-- What stands in front of the first dot is read off. -/
theorem append_dot_inj {a b r r' : List Char} (ha : '.' ∉ a) (hb : '.' ∉ b)
    (hr : r = [] ∨ r.head? = some '.') (hr' : r' = [] ∨ r'.head? = some '.')
    (h : a ++ r = b ++ r') : a = b ∧ r = r' := by
  have htake : ∀ {front rest : List Char}, '.' ∉ front → (rest = [] ∨ rest.head? = some '.') →
      (front ++ rest).takeWhile (· != '.') = front := by
    intro front rest hfront hrest
    have hall : ∀ c ∈ front, (c != '.') = true := fun c hc => by
      have hne : c ≠ '.' := fun e => hfront (e ▸ hc)
      simpa using hne
    rw [List.takeWhile_append_of_pos hall]
    rcases hrest with rfl | hdot
    · simp
    · obtain ⟨more, rfl⟩ := List.head?_eq_some_iff.mp hdot
      simp
  have hab : a = b := by rw [← htake ha hr, h, htake hb hr']
  exact ⟨hab, List.append_cancel_left (hab ▸ h)⟩

theorem fold_rest (hup : UpcasesAscii P) {rest : String}
    (h : rest = "" ∨ rest.toList.head? = some '.') :
    P.fold rest = [] ∨ (P.fold rest).head? = some '.' := by
  rcases h with rfl | hdot
  · exact .inl rfl
  · right
    rw [Platform.fold, List.head?_map, hdot, Option.map_some, hup '.' (by decide)]
    rfl

/-- **The account is read off** every name that continues a SID with a dot. -/
theorem fold_sid_inj (hup : UpcasesAscii P) {sid sid' rest rest' : String} (h : isValidSid sid)
    (h' : isValidSid sid') (hr : rest = "" ∨ rest.toList.head? = some '.')
    (hr' : rest' = "" ∨ rest'.toList.head? = some '.')
    (he : P.fold (sid ++ rest) = P.fold (sid' ++ rest')) :
    sid = sid' ∧ P.fold rest = P.fold rest' := by
  have hdot : ∀ {s : String}, isValidSid s → '.' ∉ s.toList := fun hs =>
    isValidSid_not_mem hs (by decide)
  rw [fold_append, fold_append, fold_upper hup (upper_sid h), fold_upper hup (upper_sid h')] at he
  obtain ⟨hsid, hrest⟩ := append_dot_inj (hdot h) (hdot h') (fold_rest hup hr) (fold_rest hup hr') he
  exact ⟨String.toList_inj.mp hsid, hrest⟩

theorem KeyForm.suffix_dot (form : KeyForm) :
    form.suffix = "" ∨ form.suffix.toList.head? = some '.' := by
  cases form with
  | own => exact .inl rfl
  | bak => exact .inr rfl
  | aside t =>
    right
    simp [KeyForm.suffix]

/-- The suffix of a form, compared without case. -/
theorem fold_suffix (hup : UpcasesAscii P) (form : KeyForm) :
    P.fold form.suffix = match form with
      | .own => []
      | .bak => ".BAK".toList
      | .aside t => ".PRE-REPAIR-".toList ++ t.text.toList := by
  cases form with
  | own => rfl
  | bak =>
    rw [KeyForm.suffix, fold_ascii hup (forall_mem_of_all (by decide))]
    decide
  | aside t =>
    rw [KeyForm.suffix, fold_append, fold_upper hup t.upper,
      fold_ascii hup (forall_mem_of_all (by decide))]
    exact congrArg (· ++ t.text.toList) (by decide)

/-- **A name says which SID it is made of and how**, also where names are compared without case. -/
theorem fold_keyName_inj (hup : UpcasesAscii P) {sid sid' : String} {form form' : KeyForm}
    (h : isValidSid sid) (h' : isValidSid sid')
    (he : P.fold (keyName sid form) = P.fold (keyName sid' form')) : sid = sid' ∧ form = form' := by
  obtain ⟨hsid, hsuffix⟩ := fold_sid_inj hup h h' form.suffix_dot form'.suffix_dot he
  refine ⟨hsid, ?_⟩
  rw [fold_suffix hup, fold_suffix hup] at hsuffix
  cases form with
  | own => cases form' <;> first | rfl | cases hsuffix
  | bak => cases form' <;> first | rfl | cases hsuffix
  | aside t =>
    cases form' with
    | own => cases hsuffix
    | bak => cases hsuffix
    | aside t' =>
      obtain ⟨text, made⟩ := t
      obtain ⟨text', made'⟩ := t'
      have htext : text = text' := String.toList_inj.mp (List.append_cancel_left hsuffix)
      subst htext
      rfl

end Fold

/-! ## 5. Other accounts -/

section Others

variable {P : Platform} {plan : RepairPlan} {other : String}

theorem ownNames_derived (plan : RepairPlan) : OwnNames plan (Derived plan.canonicalSid) :=
  ⟨.self, derived_bakName plan, derived_backupName plan⟩

/-- No name of one account is compared equal to a name of another one. -/
theorem foreign_of_ne (hup : UpcasesAscii P) {sid name : String} (h : isValidSid sid)
    (hother : isValidSid other) (hne : other ≠ sid) (hname : Derived other name) :
    Foreign P (Derived sid) name := by
  intro n hn he
  obtain ⟨rest, rfl, hrest⟩ := hname.suffix
  obtain ⟨rest', rfl, hrest'⟩ := hn.suffix
  exact hne (fold_sid_inj hup hother h hrest hrest' he).1

/-- With a SID that is not valid, a repair ends at the check. -/
theorem executePlan_invalid (h : ¬isValidSid plan.canonicalSid) (isLoaded : Bool) (m : Machine P) :
    SameKeys m (executePlan plan isLoaded m).2 := by
  have hwp : Act.wp (executePlan plan isLoaded) (fun _ m' => SameKeys m m')
      (fun _ m' => SameKeys m m') m := by
    unfold executePlan
    exact (Act.wp_bind _ _).mpr (Act.wp_mono (preflight_spec plan isLoaded m)
      (fun _ _ h₁ => absurd h₁.2 h) fun _ _ h₁ => h₁)
  exact Act.wp_run (R := fun _ (m' : Machine P) => SameKeys m m') hwp

/-- A repair leaves the keys of other accounts as they are. -/
theorem executePlan_other (hup : UpcasesAscii P) (plan : RepairPlan) (isLoaded : Bool)
    (m : Machine P) (hother : isValidSid other) (hne : other ≠ plan.canonicalSid) {name : String}
    (hname : Derived other name) :
    (executePlan plan isLoaded m).2.profileList.find name = m.profileList.find name := by
  by_cases hvalid : isValidSid plan.canonicalSid
  · exact executePlan_frame (ownNames_derived plan) isLoaded m
      (foreign_of_ne hup hvalid hother hne hname)
  · rw [(executePlan_invalid hvalid isLoaded m).keys]

/-- The snapshots of a repair are of keys that no other account has. -/
theorem snapshots_other (hup : UpcasesAscii P) (hvalid : isValidSid plan.canonicalSid)
    (m m' : Machine P) {snapshots : List RepairSnapshot}
    (hrun : createRequiredSnapshots plan m = (.ok snapshots, m')) (hother : isValidSid other)
    (hne : other ≠ plan.canonicalSid) :
    ∃ names, List.Forall₂ (Captures P m.profileList) snapshots names ∧
      ∀ n ∈ names, ∀ name, Derived other name → P.fold name ≠ P.fold n := by
  have hspec := createRequiredSnapshots_spec (isValidSid_plain hvalid) m
  unfold Act.wp at hspec
  rw [hrun] at hspec
  obtain ⟨_, names, hnames, hcap⟩ := hspec
  refine ⟨names, hcap, fun n hn name hname => ?_⟩
  have hforeign := foreign_of_ne hup hvalid hother hne hname
  rcases hnames.only n hn with rfl | rfl
  · exact hforeign _ (derived_bakName plan)
  · exact hforeign _ .self

end Others

/-- **The SID check makes the key names unambiguous.** It accepts exactly the grammar; the names
that a repair makes of accepted SIDs have no backslash and tell the SID and the form, exactly and
as the registry compares them; and a repair, however it ends, neither changes nor snapshots a key
with a name of another account. -/
theorem key_names_unambiguous (P : Platform) (hup : UpcasesAscii P) :
    (∀ value, isValidSid value = true ↔ SidText value) ∧
    (∀ sid sid' form form', isValidSid sid → isValidSid sid' →
      '\\' ∉ (keyName sid form).toList ∧ Derived sid (keyName sid form) ∧
      (keyName sid form = keyName sid' form' ↔ sid = sid' ∧ form = form') ∧
      (P.fold (keyName sid form) = P.fold (keyName sid' form') ↔ sid = sid' ∧ form = form')) ∧
    (∀ plan isLoaded (m : Machine P) other name, isValidSid other → other ≠ plan.canonicalSid →
      Derived other name →
        (executePlan plan isLoaded m).2.profileList.find name = m.profileList.find name) ∧
    (∀ plan (m m' : Machine P) snapshots other, isValidSid plan.canonicalSid →
      createRequiredSnapshots plan m = (.ok snapshots, m') → isValidSid other →
      other ≠ plan.canonicalSid → ∃ names, List.Forall₂ (Captures P m.profileList) snapshots names ∧
        ∀ n ∈ names, ∀ name, Derived other name → P.fold name ≠ P.fold n) := by
  refine ⟨isValidSid_iff, fun sid sid' form form' h h' =>
    ⟨no_backslash h form, derived_keyName sid form, ?_, ?_⟩, ?_, ?_⟩
  · refine ⟨fun he => fold_keyName_inj hup h h' (congrArg P.fold he), ?_⟩
    rintro ⟨rfl, rfl⟩
    rfl
  · refine ⟨fold_keyName_inj hup h h', ?_⟩
    rintro ⟨rfl, rfl⟩
    rfl
  · intro plan isLoaded m other name hother hne hname
    exact executePlan_other hup plan isLoaded m hother hne hname
  · intro plan m m' snapshots other hvalid hrun hother hne
    exact snapshots_other hup hvalid m m' hrun hother hne

/-- A platform that compares names as ASCII does. -/
def upcasePlatform : Platform := { samplePlatform with up := asciiUpper }

theorem key_names_unambiguous_sample :
    UpcasesAscii upcasePlatform ∧
      upcasePlatform.fold (keyName "S-1-5-21-7" .bak) ≠
        upcasePlatform.fold (keyName "S-1-5-21-70" .bak) := by
  have hup : UpcasesAscii upcasePlatform := fun _ _ => rfl
  have hvalid : isValidSid "S-1-5-21-7" = true := by decide +kernel
  have hother : isValidSid "S-1-5-21-70" = true := by decide +kernel
  refine ⟨hup, fun he => ?_⟩
  have hnames := (key_names_unambiguous upcasePlatform hup).2.1 _ _ .bak .bak hvalid hother
  exact absurd (hnames.2.2.2.mp he).1 (by decide)

end WinProfile
