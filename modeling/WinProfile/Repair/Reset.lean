/-
  File:      WinProfile/Repair/Reset.lean
  Subject:   A repair that only resets `State` and `RefCount`: which key it writes, and which key the
             operator selected.

  * `ResetsOnly` -- one key is reset and nothing else changes.
  * `executePlan_reset` -- behind an `Ok` are two writes to the key of the canonical SID.
  * `reset_selected_iff` -- that is a reset of the selected key exactly when the two are the same, or
    when there is nothing to reset in either.
-/
import WinProfile.Repair.Success

namespace WinProfile

variable {P : Platform}

/-! ## 1. Zeroed keys -/

/-- The DWORD 0. -/
def zeroDword : RegValue := ⟨REG_DWORD, dwordBytes 0⟩

/-- `State` and `RefCount` are the DWORD 0. -/
structure RegKey.Zeroed (P : Platform) (k : RegKey) : Prop where
  state : findName P.fold VAL_STATE k.values = some zeroDword
  refCount : findName P.fold VAL_REF_COUNT k.values = some zeroDword

/-- The key with this name is there, and zeroed. -/
def HasZeroed (t : NameTable P.fold RegKey) (name : String) : Prop :=
  ∃ k, t.find name = some k ∧ k.Zeroed P

/-- **Exactly the key with this name is reset**: `State` and `RefCount` are zero, its other values and
its subkeys are as they were, and so is every other key. -/
structure ResetsOnly (name : String) (t t' : NameTable P.fold RegKey) : Prop where
  selected : ∃ k k', t.find name = some k ∧ t'.find name = some k' ∧ k'.Zeroed P ∧
    k'.subkeys = k.subkeys ∧ ∀ value, P.fold value ≠ P.fold VAL_STATE →
      P.fold value ≠ P.fold VAL_REF_COUNT → findName P.fold value k'.values
        = findName P.fold value k.values
  others : ∀ other, P.fold other ≠ P.fold name → t'.find other = t.find other

section Zeroed

variable {k : RegKey}

theorem zeroDword_eq : zeroDword = ⟨REG_DWORD, [0, 0, 0, 0]⟩ := rfl

theorem RegKey.zeroed_reset (k : RegKey) : (k.reset P).Zeroed P where
  state := by rw [find_reset, if_pos (.inr rfl), zeroDword_eq]
  refCount := by rw [find_reset, if_pos (.inl rfl), zeroDword_eq]

theorem RegKey.reset_others (k : RegKey) (value : String) (hstate : P.fold value ≠ P.fold VAL_STATE)
    (href : P.fold value ≠ P.fold VAL_REF_COUNT) :
    findName P.fold value (k.reset P).values = findName P.fold value k.values := by
  rw [find_reset, if_neg fun h => h.elim (Ne.symm href) (Ne.symm hstate)]

/-- Writing what is there changes nothing. -/
theorem RegKey.setDword_self {name : String}
    (h : findName P.fold name k.values = some zeroDword) : k.setDword P name 0 = k := by
  obtain ⟨values, subkeys⟩ := k
  exact congrArg (RegKey.mk · subkeys) (putName_self P.fold h)

/-- **A reset changes nothing** exactly when the key is zeroed. -/
theorem RegKey.reset_eq_self : k.reset P = k ↔ k.Zeroed P := by
  constructor
  · intro h
    have hzeroed := k.zeroed_reset (P := P)
    rwa [h] at hzeroed
  · intro h
    rw [reset, setDword_self h.state, setDword_self h.refCount]

end Zeroed

/-! ## 2. Behind an `Ok` -/

section Run

variable {plan : RepairPlan} {m m' : Machine P} {isLoaded : Bool} {t t' : NameTable P.fold RegKey}

/-- The two writes, one after the other, to the key of the canonical SID. -/
def WritesCanonical (plan : RepairPlan) (t t' : NameTable P.fold RegKey) : Prop :=
  ∃ k, t.find plan.canonicalSid = some k ∧ ∀ name, t'.find name
    = if P.fold name = P.fold plan.canonicalSid then some (k.reset P) else t.find name

theorem executeSteps_reset (hkeys : m.profileList = t) (hfix : plan.fixBak = false)
    (hreset : plan.resetState = true) : Act.wp (executeSteps plan .profileList)
      (fun _ m' => WritesCanonical plan t m'.profileList) (fun _ _ => True) m := by
  unfold executeSteps
  refine (Act.wp_bind _ _).mpr ((Act.wp_when _ _).mpr ?_)
  rw [if_neg (by simp [hfix])]
  refine (Act.wp_bind _ _).mpr ((Act.wp_when _ _).mpr ?_)
  rw [if_pos hreset]
  -- The key has to be there: the first call opens it.
  cases hfind : m.profileList.find plan.canonicalSid with
  | none =>
    unfold resetValues liftReg
    refine (Act.wp_bind _ _).mpr ((Act.wp_mapErr _ _).mpr (wp_openSubkey (fun _ => trivial)
      fun hthere => ?_))
    rw [hfind] at hthere
    cases hthere
  | some k =>
    refine Act.wp_mono (resetValues_success hfind) (fun _ m₁ h₁ => ?_) fun _ _ h => h
    refine (quiet_verify plan .profileList).wp (fun _ m₂ h₂ => ?_) fun _ _ _ => trivial
    refine ⟨k, hkeys ▸ hfind, fun name => ?_⟩
    rw [h₂.keys, h₁, NameTable.find_put, NameTable.find_put, hkeys]
    by_cases hname : P.fold name = P.fold plan.canonicalSid
    · rw [if_pos hname, if_pos hname.symm]
    · rw [if_neg hname, if_neg (Ne.symm hname), if_neg (Ne.symm hname)]

/-- The selected name is one of the two names of the account. -/
theorem validatePlan_named (plan : RepairPlan) (isLoaded : Bool) (m : Machine P) :
    Act.wp (validatePlan plan isLoaded)
      (fun _ _ => plan.sid = plan.canonicalSid ∨ plan.sid = plan.bakName) (fun _ _ => True) m := by
  unfold validatePlan
  refine Act.wp_bind_skip fun _ m₁ => Act.wp_bind_skip fun _ m₂ => ?_
  refine (Act.wp_bind _ _).mpr ((Act.wp_guard _ _).mpr ?_)
  split
  · next h =>
    have hname : plan.sid = plan.canonicalSid ∨ plan.sid = plan.bakName := by simpa using h
    exact Act.wp_skip fun _ _ => hname
  · trivial

theorem executePlan_named (plan : RepairPlan) (isLoaded : Bool) (m : Machine P) :
    Act.wp (executePlan plan isLoaded)
      (fun _ _ => plan.sid = plan.canonicalSid ∨ plan.sid = plan.bakName) (fun _ _ => True) m := by
  have hpreflight : Act.wp (preflight plan isLoaded)
      (fun _ _ => plan.sid = plan.canonicalSid ∨ plan.sid = plan.bakName) (fun _ _ => True) m := by
    unfold preflight
    iterate 4 refine Act.wp_bind_skip fun _ _ => ?_
    refine (Act.wp_bind _ _).mpr (Act.wp_mono (validatePlan_named plan isLoaded _)
      (fun _ _ h => ?_) fun _ _ _ => trivial)
    exact Act.wp_skip fun _ _ => h
  unfold executePlan
  refine (Act.wp_bind _ _).mpr (Act.wp_mono hpreflight (fun _ _ h => ?_) fun _ _ _ => trivial)
  exact Act.wp_skip fun _ _ => h

/-- **Behind an `Ok`** of a repair that only resets are two writes to the key of the canonical SID. -/
theorem executePlan_reset (hdry : plan.dryRun = false) (hfix : plan.fixBak = false)
    (hreset : plan.resetState = true) (hrun : executePlan plan isLoaded m = (.ok (), m')) :
    WritesCanonical plan m.profileList m'.profileList ∧
      (plan.sid = plan.canonicalSid ∨ plan.sid = plan.bakName) := by
  have hspec := Act.wp_and
    (executePlan_of_steps (R := fun m₁ => WritesCanonical plan m.profileList m₁.profileList) plan
      isLoaded m hdry (fun m₁ m₂ h hs => by rw [hs.keys]; exact h)
      fun _ hkeys => executeSteps_reset hkeys hfix hreset)
    (executePlan_named plan isLoaded m)
  unfold Act.wp at hspec
  rw [hrun] at hspec
  exact ⟨hspec.1.2, hspec.2⟩

theorem resetsOnly_canonical (h : WritesCanonical plan t t') :
    ResetsOnly plan.canonicalSid t t' := by
  obtain ⟨k, hk, hfind⟩ := h
  refine ⟨⟨k, k.reset P, hk, ?_, k.zeroed_reset, k.subkeys_reset, k.reset_others⟩, fun other hother => ?_⟩
  · rw [hfind, if_pos rfl]
  · rw [hfind, if_neg hother]

/-- Where there is nothing to reset, a reset of the one key is one of the other. -/
theorem resetsOnly_zeroed {name : String} (h : WritesCanonical plan t t')
    (hname : HasZeroed t name) (hcanonical : HasZeroed t plan.canonicalSid) :
    ResetsOnly name t t' := by
  obtain ⟨k, hk, hfind⟩ := h
  obtain ⟨k₀, hk₀, hzeroed⟩ := hcanonical
  rw [hk, Option.some.injEq] at hk₀
  subst hk₀
  have hsame : ∀ other, t'.find other = t.find other := fun other => by
    rw [hfind, RegKey.reset_eq_self.mpr hzeroed]
    split
    · next heq => rw [t.find_congr heq, hk]
    · rfl
  obtain ⟨k₁, hk₁, hzeroed₁⟩ := hname
  refine ⟨⟨k₁, k₁, hk₁, ?_, hzeroed₁, rfl, fun _ _ _ => rfl⟩, fun other _ => hsame other⟩
  rw [hsame, hk₁]

/-- **A reset is one of the selected key** exactly when the selected name is the canonical SID, or the
values of both keys are zero already. -/
theorem reset_selected_iff (hdry : plan.dryRun = false) (hfix : plan.fixBak = false)
    (hreset : plan.resetState = true) (hrun : executePlan plan isLoaded m = (.ok (), m')) :
    ResetsOnly plan.sid m.profileList m'.profileList ↔ plan.sid = plan.canonicalSid ∨
      HasZeroed m.profileList plan.sid ∧ HasZeroed m.profileList plan.canonicalSid := by
  obtain ⟨hwrites, hnamed⟩ := executePlan_reset hdry hfix hreset hrun
  constructor
  · intro h
    rcases hnamed with hsid | hsid
    · exact .inl hsid
    · obtain ⟨k, hk, hfind⟩ := hwrites
      have hne : P.fold plan.sid ≠ P.fold plan.canonicalSid := by
        rw [hsid]
        exact (fold_canonical_ne_bak P plan).symm
      obtain ⟨k₁, k₁', hk₁, hk₁', hzeroed, _⟩ := h.selected
      rw [hfind, if_neg hne] at hk₁'
      have hsame := h.others plan.canonicalSid (Ne.symm hne)
      rw [hfind, if_pos rfl, hk, Option.some.injEq] at hsame
      exact .inr ⟨⟨k₁', hk₁', hzeroed⟩, k, hk, RegKey.reset_eq_self.mp hsame⟩
  · rintro (hsid | ⟨hselected, hcanonical⟩)
    · rw [hsid]
      exact resetsOnly_canonical hwrites
    · exact resetsOnly_zeroed hwrites hselected hcanonical

end Run

/-! ## 3. A selected `.bak` key beside a canonical key -/

/-- The plan that the controller makes of a selected `.bak` key when only the reset is ticked. -/
def resetPlan (sid : String) (profilePath : String) : RepairPlan where
  sid
  canonicalSid := "S-1-5-21-7"
  profilePath
  fixBak := false
  resetState := true
  unlockHive := false
  dryRun := false

def resetRun (sid profilePath : String) : Except RepairError Unit × Machine calmPlatform :=
  executePlan (resetPlan sid profilePath) false { profileList := doubledKeys }

theorem eq_ok_of_toBool {r : Except RepairError Unit × Machine P} (h : r.1.toBool = true) :
    r = (.ok (), r.2) := by
  obtain ⟨result, m⟩ := r
  cases result with
  | ok _ => rfl
  | error e => cases h

theorem reset_selected_sample : ResetsOnly "S-1-5-21-7" doubledKeys
    (resetRun "S-1-5-21-7" "C:\\T").2.profileList := by
  have hrun : executePlan (resetPlan "S-1-5-21-7" "C:\\T") false
      { profileList := doubledKeys : Machine calmPlatform }
        = (.ok (), (resetRun "S-1-5-21-7" "C:\\T").2) := eq_ok_of_toBool (by decide +kernel)
  exact (reset_selected_iff rfl rfl rfl hrun).mpr (.inl rfl)

/-- The `.bak` key is selected and its path is checked; the canonical key is written. -/
theorem reset_writes_other_key : (resetRun "S-1-5-21-7.bak" "C:\\U").1 = .ok () ∧
    ¬ ResetsOnly "S-1-5-21-7.bak" doubledKeys (resetRun "S-1-5-21-7.bak" "C:\\U").2.profileList := by
  have hok : (resetRun "S-1-5-21-7.bak" "C:\\U").1.toBool = true := by decide +kernel
  refine ⟨congrArg Prod.fst (eq_ok_of_toBool hok), fun h => ?_⟩
  obtain ⟨_, k', _, hk', hzeroed, _⟩ := h.selected
  have hstate : ((resetRun "S-1-5-21-7.bak" "C:\\U").2.profileList.find "S-1-5-21-7.bak").map
      (fun k => findName calmPlatform.fold VAL_STATE k.values) = some none := by decide +kernel
  rw [hk', Option.map_some, hzeroed.state] at hstate
  cases hstate

end WinProfile
