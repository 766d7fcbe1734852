/-
  File:      WinProfile/Profiles/Account.lean
  Subject:   Which account a key of `ProfileList` belongs to, in the words of the four components
             that ask: the scan, the selection of the user interface, the repair and the migration.

  * `Derived` -- the names that Windows and the repair make of a SID.
  * `repairPlanOf` -- the plan of `execute_repair` in app-ui/src/controller.rs.
  * `one_account_iff` -- the components agree on the account exactly for its own name and its
    `.bak` name; `preserved_key_taken_for_offline` -- what they make of another one.
-/
import WinProfile.Migration.Roots
import WinProfile.Profiles.Scanner
import WinProfile.Repair.Atomic

namespace WinProfile

/-! ## 1. Key names of one account -/

/-- The names that come from a SID by any sequence of `.bak` and `.pre-repair-` suffixes. -/
inductive Derived (sid : String) : String → Prop where
  | self : Derived sid sid
  | bak {name} (h : Derived sid name) : Derived sid (name ++ BAK_EXTENSION)
  | aside {name} (timestamp : String) (h : Derived sid name) :
      Derived sid (name ++ "." ++ BACKUP_SUFFIX ++ "-" ++ timestamp)

theorem derived_bakName (plan : RepairPlan) : Derived plan.canonicalSid plan.bakName :=
  .bak .self

theorem derived_backupName (plan : RepairPlan) (timestamp : String) :
    Derived plan.canonicalSid (plan.backupName timestamp) := .aside timestamp .self

/-- What follows the SID in such a name is nothing or starts with a dot. -/
theorem Derived.suffix {sid name : String} (h : Derived sid name) :
    ∃ rest, name = sid ++ rest ∧ (rest = "" ∨ rest.toList.head? = some '.') := by
  have hmore : ∀ {rest more : String}, (rest = "" ∨ rest.toList.head? = some '.') →
      more.toList.head? = some '.' → (rest ++ more).toList.head? = some '.' := by
    rintro rest more (rfl | hdot) hm
    · simpa using hm
    · rw [String.toList_append, List.head?_append, hdot, Option.some_or]
  induction h with
  | self => exact ⟨"", by simp, .inl rfl⟩
  | bak _ ih =>
    obtain ⟨rest, rfl, hrest⟩ := ih
    exact ⟨rest ++ BAK_EXTENSION, String.append_assoc .., .inr (hmore hrest rfl)⟩
  | aside timestamp _ ih =>
    obtain ⟨rest, rfl, hrest⟩ := ih
    refine ⟨rest ++ ("." ++ BACKUP_SUFFIX ++ "-" ++ timestamp), ?_, .inr (hmore hrest ?_)⟩
    · simp only [String.append_assoc]
    · simp

/-! ## 2. Characters of a SID -/

/-- A valid SID is made of one letter, hyphens and digits. -/
theorem isValidSid_chars {sid : String} (h : isValidSid sid) {c : Char} (hc : c ∈ sid.toList) :
    c = 'S' ∨ c = '-' ∨ isAsciiDigit c = true := by
  obtain ⟨hstart, hparts⟩ := Bool.and_eq_true_iff.mp h
  obtain ⟨rest, hrest⟩ := List.isPrefixOf_iff_prefix.mp hstart
  by_cases hdash : c = '-'
  · exact .inr (.inl hdash)
  have hsplit : splitAtChar '-' sid.toList
      = ['S'] :: splitAtChar '-' ('1' :: '-' :: rest) := by
    rw [← hrest]
    simp [splitAtChar]
  obtain ⟨piece, hpiece, hin⟩ := mem_splitAtChar hc hdash
  rw [hsplit] at hpiece hparts
  rcases List.mem_cons.mp hpiece with rfl | hpiece
  · exact .inl (List.mem_singleton.mp hin)
  · have hdigits := List.all_eq_true.mp hparts piece hpiece
    exact .inr (.inr (List.all_eq_true.mp (Bool.and_eq_true_iff.mp hdigits).2 c hin))

/-- Any other character is not in a valid SID. -/
theorem isValidSid_not_mem {sid : String} (h : isValidSid sid) {c : Char}
    (hc : c ≠ 'S' ∧ c ≠ '-' ∧ isAsciiDigit c = false) : c ∉ sid.toList := fun hin => by
  rcases isValidSid_chars h hin with hS | hdash | hdigit
  · exact hc.1 hS
  · exact hc.2.1 hdash
  · rw [hc.2.2] at hdigit
    cases hdigit

theorem isValidSid_not_white {sid : String} (h : isValidSid sid) :
    ∀ c ∈ sid.toList, isWhite c = false := by
  intro c hc
  rcases isValidSid_chars h hc with rfl | rfl | hdigit
  · decide
  · decide
  · simp only [isAsciiDigit, Bool.and_eq_true, decide_eq_true_eq] at hdigit
    have hlow : 48 ≤ c.toNat := hdigit.1
    have hhigh : c.toNat ≤ 57 := hdigit.2
    unfold isWhite
    simp only [Bool.or_eq_false_iff, Bool.and_eq_false_iff, decide_eq_false_iff_not,
      beq_eq_false_iff_ne]
    omega

/-- A valid SID has no `.bak` to take off. -/
theorem stripBack_sid {sid : String} (h : isValidSid sid) : stripBack BAK_EXTENSION sid = none :=
  stripBack_eq_none (c := 'k') (by decide) (isValidSid_not_mem h (by decide))

theorem stripBack_bak (sid : String) : stripBack BAK_EXTENSION (sid ++ BAK_EXTENSION) = some sid :=
  stripBack_append BAK_EXTENSION sid

/-! ## 3. The account in every component -/

/-- The plan of `execute_repair` for the selected profile. -/
def repairPlanOf (selectedSid selectedPath : String) (fixBak resetState dryRun : Bool) :
    RepairPlan where
  sid := selectedSid
  canonicalSid := trimEndMatches BAK_EXTENSION selectedSid
  profilePath := selectedPath
  fixBak := fixBak
  resetState := resetState
  unlockHive := false
  dryRun := dryRun

/-- Scan, repair and migration test the hive of the account `sid` for a key with this name. -/
structure OneAccount (sid name : String) : Prop where
  /-- The loaded flag of the scan. -/
  scan : scannedSid name = sid
  /-- The live session check of the repair. -/
  repair : ∀ path fixBak resetState dryRun,
    (repairPlanOf name path fixBak resetState dryRun).canonicalSid = sid
  /-- The offline check of the migration. -/
  migration : offlineSid name = sid

theorem trimEndMatches_sid {sid : String} (h : isValidSid sid) :
    trimEndMatches BAK_EXTENSION sid = sid := stripBackTimes_of_none (stripBack_sid h) _

theorem trimEndMatches_bak {sid : String} (h : isValidSid sid) :
    trimEndMatches BAK_EXTENSION (sid ++ BAK_EXTENSION) = sid := by
  have hlen : (sid ++ BAK_EXTENSION).toList.length = sid.toList.length + 3 + 1 := by
    simp [BAK_EXTENSION]
  rw [trimEndMatches, hlen, stripBackTimes, stripBack_bak]
  exact stripBackTimes_of_none (stripBack_sid h) _

/-- **One account**: for every valid SID and every key name, all components test the hive of this
account exactly when the name is the SID or its `.bak` name. -/
theorem one_account_iff {sid : String} (h : isValidSid sid) (name : String) :
    OneAccount sid name ↔ name = sid ∨ name = sid ++ BAK_EXTENSION := by
  have htrim : trim sid = sid := trim_of_no_white (isValidSid_not_white h)
  constructor
  · intro hone
    have hscan := hone.scan
    unfold scannedSid at hscan
    cases hstrip : stripBack BAK_EXTENSION name with
    | some rest =>
      rw [hstrip, Option.getD_some] at hscan
      rw [← hscan]
      exact .inr (stripBack_eq_some.mp hstrip)
    | none =>
      rw [hstrip, Option.getD_none] at hscan
      exact .inl hscan
  · rintro (rfl | rfl)
    · refine ⟨?_, fun _ _ _ _ => trimEndMatches_sid h, ?_⟩
      · rw [scannedSid, stripBack_sid h, Option.getD_none]
      · rw [offlineSid, stripBack_sid h, Option.getD_none, htrim]
    · refine ⟨?_, fun _ _ _ _ => trimEndMatches_bak h, ?_⟩
      · rw [scannedSid, stripBack_bak, Option.getD_some]
      · rw [offlineSid, stripBack_bak, Option.getD_some, htrim]

theorem one_account_iff_sample :
    isValidSid "S-1-5-21-7" = true ∧ OneAccount "S-1-5-21-7" "S-1-5-21-7.bak" := by
  have hvalid : isValidSid "S-1-5-21-7" = true := by decide +kernel
  exact ⟨hvalid, (one_account_iff hvalid _).mpr (.inr rfl)⟩

/-- The hive of the account is loaded. -/
def signedInHost : MigrationHost where
  lower := toAsciiLowercase
  openUsersKey sid := if sid = "S-1-5-21-7" then .ok () else .error (.win32Error ERROR_FILE_NOT_FOUND)

/-- **A preserved key is taken for offline**: the account is signed in, its own key is refused as a
migration source, and the key that a repair has set aside passes; a `.bak.bak` key does too, and
there the components do not even agree with each other. -/
theorem preserved_key_taken_for_offline :
    Derived "S-1-5-21-7" "S-1-5-21-7.pre-repair-20260101T000000.000000Z" ∧
    ¬ OneAccount "S-1-5-21-7" "S-1-5-21-7.pre-repair-20260101T000000.000000Z" ∧
    ensureSourceOffline signedInHost "S-1-5-21-7" = .error (.sourceLoaded "S-1-5-21-7") ∧
    ensureSourceOffline signedInHost "S-1-5-21-7.pre-repair-20260101T000000.000000Z" = .ok () ∧
    ensureSourceOffline signedInHost "S-1-5-21-7.bak.bak" = .ok () ∧
    scannedSid "S-1-5-21-7.bak.bak" = "S-1-5-21-7.bak" ∧
    (repairPlanOf "S-1-5-21-7.bak.bak" "C:\\U" true false true).canonicalSid = "S-1-5-21-7" := by
  refine ⟨.aside "20260101T000000.000000Z" .self, fun h => ?_, ?_⟩
  · have hscan := h.scan
    revert hscan
    decide +kernel
  · decide +kernel

end WinProfile
