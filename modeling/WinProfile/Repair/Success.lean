/-
  File:      WinProfile/Repair/Success.lean
  Subject:   What a repair that reports success has done.

  * `RegKey.reset` -- a key with `State` and `RefCount` set to zero, every other value as it was.
  * `Repaired` -- the table after the two renames and the value writes, one step after the other;
    `executePlan_success`: nothing else can be behind an `Ok`.
  * `executePlan_repairs` -- the same, name by name.
-/
import WinProfile.Repair.Atomic

namespace WinProfile

variable {P : Platform}

/-! ## 1. Reset values -/

/-- A key after `set_value_u32` wrote `val`. -/
def RegKey.setDword (P : Platform) (name : String) (val : UInt32) (k : RegKey) : RegKey :=
  .mk (putName P.fold name ⟨REG_DWORD, dwordBytes val⟩ k.values) k.subkeys

/-- A key with `State` and `RefCount` set to zero. -/
def RegKey.reset (P : Platform) (k : RegKey) : RegKey :=
  (k.setDword P VAL_STATE 0).setDword P VAL_REF_COUNT 0

/-- What a value name shows after a reset. -/
theorem RegKey.find_reset (k : RegKey) (name : String) :
    findName P.fold name (k.reset P).values
      = if P.fold VAL_REF_COUNT = P.fold name ∨ P.fold VAL_STATE = P.fold name then
          some ⟨REG_DWORD, [0, 0, 0, 0]⟩
        else findName P.fold name k.values := by
  simp only [reset, setDword, values, findName_putName]
  by_cases href : P.fold VAL_REF_COUNT = P.fold name
  · rw [if_pos href, if_pos (.inl href)]
    rfl
  · rw [if_neg href]
    by_cases hstate : P.fold VAL_STATE = P.fold name
    · rw [if_pos hstate, if_pos (.inr hstate)]
      rfl
    · rw [if_neg hstate, if_neg fun h => h.elim href hstate]

theorem RegKey.subkeys_reset (k : RegKey) : (k.reset P).subkeys = k.subkeys := rfl

/-! ## 2. Step by step -/

/-- The canonical key went aside, when there was one. -/
inductive Preserved (plan : RepairPlan) (t₀ : NameTable P.fold RegKey) :
    Option String → NameTable P.fold RegKey → Prop where
  | absent (h : t₀.find plan.canonicalSid = none) : Preserved plan t₀ none t₀
  | moved {timestamp t₁} (h : t₀.rename plan.canonicalSid (plan.backupName timestamp) = some t₁) :
      Preserved plan t₀ (some (plan.backupName timestamp)) t₁

/-- The value writes on the canonical key, when the plan has them. -/
def resetKeys (plan : RepairPlan) (t : NameTable P.fold RegKey) (k : RegKey) :
    NameTable P.fold RegKey :=
  if plan.resetState then
    (t.put plan.canonicalSid (k.setDword P VAL_STATE 0)).put plan.canonicalSid (k.reset P)
  else t

/-- **The table after a successful repair of the `.bak` key.** -/
structure Repaired (plan : RepairPlan) (t₀ : NameTable P.fold RegKey) (backup : Option String)
    (t₁ t₂ : NameTable P.fold RegKey) (bak : RegKey) (t : NameTable P.fold RegKey) : Prop where
  aside : Preserved plan t₀ backup t₁
  moved : t₁.rename plan.bakName plan.canonicalSid = some t₂
  contents : t₀.find plan.bakName = some bak
  final : t = resetKeys plan t₂ bak

section Steps

variable {plan : RepairPlan} {t₀ t₁ t₂ t : NameTable P.fold RegKey} {m : Machine P}
  {backup : Option String} {bak : RegKey}

theorem wp_setValueU32_exact {keyName name : String} {val : UInt32} {k : RegKey}
    {Q : Unit → Machine P → Prop} (hk : m.profileList.find keyName = some k)
    (hQ : ∀ m', m'.profileList = m.profileList.put keyName (k.setDword P name val) → Q () m') :
    Act.wp (setValueU32 (.profile keyName) name val) Q (fun _ _ => True) m := by
  unfold setValueU32 regCall
  refine wp_call (fun f => trivial) ?_
  have htick : m.tick.keyOf (.profile keyName) = some k := hk
  exact Act.wp_of_ok (by rw [htick]) (hQ _ rfl)

theorem preserveCanonical_success (hkeys : m.profileList = t₀) :
    Act.wp (preserveCanonical plan .profileList)
      (fun _ m' => ∃ backup, Preserved plan t₀ backup m'.profileList) (fun _ _ => True) m := by
  unfold preserveCanonical liftReg
  refine (Act.wp_bind _ _).mpr ((Act.wp_mapErr _ _).mpr (wp_subkeyExists (fun _ => trivial) ?_))
  rw [Act.wp_when]
  split
  · refine (Act.wp_bind _ _).mpr (Act.wp_read.mpr ?_)
    refine (Act.wp_bind _ _).mpr ((Act.wp_mapErr _ _).mpr (wp_subkeyExists (fun _ => trivial) ?_))
    refine (Act.wp_bind _ _).mpr ((Act.wp_guard _ _).mpr ?_)
    split
    · refine (Act.wp_bind _ _).mpr ((Act.wp_mapErr _ _).mpr
        (wp_renameSubkey (fun _ => trivial) fun t ht => ?_))
      have hrename : t₀.rename plan.canonicalSid (plan.backupName (P.now m.tick.clock)) = some t := by
        rw [← hkeys]
        exact ht
      exact (Act.wp_update _).mpr ⟨_, .moved hrename⟩
    · trivial
  · next habsent =>
    rw [Bool.not_eq_true, Option.isSome_eq_false_iff, Option.isNone_iff_eq_none] at habsent
    have hnone : t₀.find plan.canonicalSid = none := hkeys ▸ habsent
    refine ⟨none, ?_⟩
    rw [show m.tick.profileList = t₀ from hkeys]
    exact .absent hnone

/-- The values are written one after the other, into the key that has the canonical name now. -/
theorem resetValues_success (hbak : m.profileList.find plan.canonicalSid = some bak) :
    Act.wp (resetValues plan .profileList)
      (fun _ m' => m'.profileList = (m.profileList.put plan.canonicalSid
        (bak.setDword P VAL_STATE 0)).put plan.canonicalSid (bak.reset P)) (fun _ _ => True) m := by
  unfold resetValues liftReg
  refine (Act.wp_bind _ _).mpr ((Act.wp_mapErr _ _).mpr (wp_openSubkey (fun _ => trivial)
    fun _ => ?_))
  refine (Act.wp_bind _ _).mpr ((Act.wp_mapErr _ _).mpr
    (wp_setValueU32_exact (k := bak) hbak fun m₁ h₁ => ?_))
  have hfirst : m₁.profileList.find plan.canonicalSid = some (bak.setDword P VAL_STATE 0) := by
    rw [h₁, NameTable.find_put, if_pos rfl]
  refine (Act.wp_mapErr _ _).mpr (wp_setValueU32_exact hfirst fun m₂ h₂ => ?_)
  rw [h₂, h₁]
  rfl

/-- Moving the canonical key aside leaves the `.bak` key alone. -/
theorem Preserved.find_bak (h : Preserved plan t₀ backup t₁) :
    t₁.find plan.bakName = t₀.find plan.bakName := by
  cases h with
  | absent => rfl
  | moved hrename =>
    rw [NameTable.find_rename hrename, if_neg (fold_backup_ne_bak P plan _).symm,
      if_neg (fold_canonical_ne_bak P plan).symm]

theorem executeSteps_success (hkeys : m.profileList = t₀) (hfix : plan.fixBak = true) :
    Act.wp (executeSteps plan .profileList)
      (fun _ m' => ∃ backup t₁ t₂ bak, Repaired plan t₀ backup t₁ t₂ bak m'.profileList)
      (fun _ _ => True) m := by
  unfold executeSteps
  refine (Act.wp_bind _ _).mpr ((Act.wp_when _ _).mpr ?_)
  rw [if_pos hfix]
  refine (Act.wp_bind _ _).mpr (Act.wp_mono (preserveCanonical_success hkeys)
    (fun _ m₁ h₁ => ?_) fun _ _ h => h)
  obtain ⟨backup, haside⟩ := h₁
  refine (Act.wp_bind _ _).mpr ((Act.wp_mapErr _ _).mpr
    (wp_renameSubkey (fun _ => trivial) fun t₂ hmove => (Act.wp_update _).mpr ?_))
  have hthere := (NameTable.rename_isSome.mp (Option.isSome_of_eq_some hmove)).1
  obtain ⟨bak, hbak⟩ := Option.isSome_iff_exists.mp hthere
  have hcontents : t₀.find plan.bakName = some bak := haside.find_bak ▸ hbak
  have hcanonical : t₂.find plan.canonicalSid = some bak := by
    rw [NameTable.find_rename hmove, if_pos rfl, hbak]
  -- From here only the resets change the table.
  have hverify : ∀ m₂ : Machine P, m₂.profileList = resetKeys plan t₂ bak →
      Act.wp (verify plan .profileList)
        (fun _ m' => ∃ backup t₁ t₂ bak, Repaired plan t₀ backup t₁ t₂ bak m'.profileList)
        (fun _ _ => True) m₂ := fun m₂ h₂ =>
    (quiet_verify plan .profileList).wp
      (fun _ m₃ h₃ => ⟨backup, _, t₂, bak, haside, hmove, hcontents, h₃.keys.trans h₂⟩)
      fun _ _ _ => trivial
  refine (Act.wp_bind _ _).mpr ((Act.wp_when _ _).mpr ?_)
  split
  · next hreset =>
    refine Act.wp_mono (resetValues_success hcanonical) (fun _ m₂ h₂ => hverify m₂ ?_)
      fun _ _ h => h
    rw [h₂, resetKeys, if_pos hreset]
    rfl
  · next hreset => exact hverify _ (by rw [resetKeys, if_neg hreset]; rfl)

/-- What `execute_steps` reaches with success is there after an `Ok` of the whole repair. -/
theorem executePlan_of_steps {R : Machine P → Prop} (plan : RepairPlan) (isLoaded : Bool)
    (m : Machine P) (hdry : plan.dryRun = false) (hkeeps : ∀ m₁ m₂, R m₁ → SameKeys m₁ m₂ → R m₂)
    (hsteps : ∀ m₁ : Machine P, m₁.profileList = m.profileList →
      Act.wp (executeSteps plan .profileList) (fun _ m' => R m') (fun _ _ => True) m₁) :
    Act.wp (executePlan plan isLoaded)
      (fun _ m' => isValidSid plan.canonicalSid = true ∧ R m') (fun _ _ => True) m := by
  unfold executePlan
  refine (Act.wp_bind _ _).mpr (Act.wp_mono (preflight_spec plan isLoaded m)
    (fun validation m₁ h₁ => ?_) fun _ _ _ => trivial)
  rw [if_neg (by simp [hdry])]
  refine (Act.wp_bind _ _).mpr (Act.wp_mono
    (createRequiredSnapshots_spec (isValidSid_plain h₁.2) m₁) (fun snapshots m₂ h₂ => ?_)
    fun _ _ _ => trivial)
  have hs₂ := SameKeys.trans m m₁ m₂ h₁.1 h₂.1
  refine (quiet_mapErr _ (quiet_auditLog _ _ _ _)).wp_bind (fun _ _ _ => trivial) fun _ m₃ h₃ => ?_
  have hs₃ := SameKeys.trans m m₂ m₃ hs₂ h₃
  unfold openKey
  rw [resolve_profileList]
  refine (Act.wp_bind _ _).mpr ((Act.wp_mapErr _ _).mpr (wp_openKeyRaw (fun _ => trivial)
    fun _ => (Act.wp_bind _ _).mpr ((Act.wp_update _).mpr ?_)))
  refine (Act.wp_bind _ _).mpr ((Act.wp_attempt _).mpr (Act.wp_mono (hsteps _ hs₃.keys)
    (fun _ m₄ h₄ => ?_) fun error m₄ _ => ?_))
  · unfold commitRepair
    refine (Act.wp_bind _ _).mpr (Act.wp_read.mpr ?_)
    refine (quiet_attempt (quiet_auditLog _ _ _ _)).wp_bind (fun _ _ _ => trivial) fun r m₅ h₅ => ?_
    cases r with
    | ok _ => exact (Act.wp_pure _).mpr ⟨h₁.2, hkeeps m₄ m₅ h₄ h₅⟩
    | error e => exact Act.wp_bind_skip fun _ _ => (Act.wp_fail _).mpr trivial
  · refine Act.wp_bind_skip fun _ m₅ => Act.wp_bind_skip fun r m₆ => ?_
    cases r with
    | ok _ => exact Act.wp_bind_skip fun _ _ => (Act.wp_fail _).mpr trivial
    | error e =>
      refine Act.wp_bind_skip fun a _ => ?_
      cases a <;> exact (Act.wp_fail _).mpr trivial

/-- **Behind an `Ok`** of a repair that moves the `.bak` key there are exactly these steps. -/
theorem executePlan_success (plan : RepairPlan) (isLoaded : Bool) (m : Machine P)
    (hdry : plan.dryRun = false) (hfix : plan.fixBak = true) :
    Act.wp (executePlan plan isLoaded)
      (fun _ m' => isValidSid plan.canonicalSid = true ∧ ∃ backup t₁ t₂ bak,
        Repaired plan m.profileList backup t₁ t₂ bak m'.profileList) (fun _ _ => True) m :=
  executePlan_of_steps plan isLoaded m hdry
    (fun m₁ m₂ h hs => by rw [hs.keys]; exact h)
    fun _ hkeys => executeSteps_success hkeys hfix

end Steps

/-! ## 3. Name by name -/

section Names

variable {plan : RepairPlan} {t₀ t₁ t₂ t : NameTable P.fold RegKey} {backup : Option String}
  {bak : RegKey}

/-- The contents of the canonical key after the repair. -/
def repairedKey (P : Platform) (plan : RepairPlan) (bak : RegKey) : RegKey :=
  if plan.resetState then bak.reset P else bak

theorem find_resetKeys {name : String} (hbak : t.find plan.canonicalSid = some bak) :
    (resetKeys plan t bak).find name
      = if P.fold name = P.fold plan.canonicalSid then some (repairedKey P plan bak)
        else t.find name := by
  unfold resetKeys repairedKey
  by_cases hname : P.fold name = P.fold plan.canonicalSid
  · rw [if_pos hname]
    cases plan.resetState with
    | true =>
      rw [if_pos rfl, if_pos rfl, NameTable.find_put, if_pos hname.symm]
    | false =>
      rw [if_neg (by simp), if_neg (by simp), t.find_congr hname, hbak]
  · rw [if_neg hname]
    cases plan.resetState with
    | true =>
      rw [if_pos rfl, NameTable.find_put, if_neg (Ne.symm hname), NameTable.find_put,
        if_neg (Ne.symm hname)]
    | false => rw [if_neg (by simp)]

theorem Repaired.find_canonical (h : Repaired plan t₀ backup t₁ t₂ bak t) :
    t₂.find plan.canonicalSid = some bak := by
  rw [NameTable.find_rename h.moved, if_pos rfl, h.aside.find_bak, h.contents]

/-- Every name after the repair. -/
theorem Repaired.find (h : Repaired plan t₀ backup t₁ t₂ bak t) (name : String) :
    t.find name = if P.fold name = P.fold plan.canonicalSid then some (repairedKey P plan bak)
      else if P.fold name = P.fold plan.bakName then none else t₁.find name := by
  rw [h.final, find_resetKeys h.find_canonical, NameTable.find_rename h.moved]
  by_cases hname : P.fold name = P.fold plan.canonicalSid
  · rw [if_pos hname, if_pos hname]
  · rw [if_neg hname, if_neg hname, if_neg hname]

/-- Where the former canonical key is, and that nothing else moved. -/
structure Kept (plan : RepairPlan) (t₀ t : NameTable P.fold RegKey) : Prop where
  /-- There was none: every other name is as before. -/
  absent : t₀.find plan.canonicalSid = none → ∀ name, P.fold name ≠ P.fold plan.canonicalSid →
    P.fold name ≠ P.fold plan.bakName → t.find name = t₀.find name
  /-- It has one new name, and every other name is as before. -/
  preserved : ∀ old, t₀.find plan.canonicalSid = some old → ∃ timestamp,
    t₀.find (plan.backupName timestamp) = none ∧ t.find (plan.backupName timestamp) = some old ∧
    ∀ name, P.fold name ≠ P.fold plan.canonicalSid → P.fold name ≠ P.fold plan.bakName →
      P.fold name ≠ P.fold (plan.backupName timestamp) → t.find name = t₀.find name

theorem Repaired.kept (h : Repaired plan t₀ backup t₁ t₂ bak t) : Kept plan t₀ t := by
  cases h.aside with
  | absent hnone =>
    refine ⟨fun _ name hcanonical hbak => ?_, fun old hold => ?_⟩
    · rw [h.find, if_neg hcanonical, if_neg hbak]
    · rw [hnone] at hold
      cases hold
  | @moved timestamp _ hrename =>
    have hfree := NameTable.rename_isSome.mp (Option.isSome_of_eq_some hrename)
    refine ⟨fun hnone => ?_, fun old hold => ⟨timestamp, hfree.2, ?_, ?_⟩⟩
    · rw [hnone] at hfree
      cases hfree.1
    · rw [h.find, if_neg (fold_backup_ne_canonical P plan _), if_neg (fold_backup_ne_bak P plan _),
        NameTable.find_rename hrename, if_pos rfl, hold]
    · intro name hcanonical hbak hbackup
      rw [h.find, if_neg hcanonical, if_neg hbak, NameTable.find_rename hrename, if_neg hbackup,
        if_neg hcanonical]

/-- **A successful repair changes exactly what it says.** For every registry and every plan that
moves the `.bak` key and is no dry run: after an `Ok` the `.bak` name is free, the canonical name has
the key that was under it (with `State` and `RefCount` zero, if the plan says so), a former canonical
key is under one new `.pre-repair` name, and no other name has changed. -/
theorem executePlan_repairs (keys : NameTable P.fold RegKey) (audits : List AuditRecord)
    (clock : Nat) (plan : RepairPlan) (isLoaded : Bool) (m' : Machine P)
    (hdry : plan.dryRun = false) (hfix : plan.fixBak = true)
    (hrun : executePlan plan isLoaded { profileList := keys, audits, clock } = (.ok (), m')) :
    ∃ bak, keys.find plan.bakName = some bak ∧ m'.profileList.find plan.bakName = none ∧
      m'.profileList.find plan.canonicalSid
        = some (if plan.resetState then bak.reset P else bak) ∧
      Kept plan keys m'.profileList := by
  have hspec := executePlan_success plan isLoaded { profileList := keys, audits, clock } hdry hfix
  unfold Act.wp at hspec
  rw [hrun] at hspec
  obtain ⟨_, backup, t₁, t₂, bak, h⟩ := hspec
  refine ⟨bak, h.contents, ?_, ?_, h.kept⟩
  · rw [h.find, if_neg (fold_canonical_ne_bak P plan).symm, if_pos rfl]
  · rw [h.find, if_pos rfl]
    rfl

end Names

/-! ## 4. A repair beside an existing canonical key -/

/-- A platform on which nothing fails. -/
def calmPlatform : Platform := { samplePlatform with fault := fun _ => none }

/-- The `.bak` key with the profile path `C:\U`, and a canonical key with the path `C:\T`. -/
def doubledKeys : NameTable calmPlatform.fold RegKey where
  entries := [
    ("S-1-5-21-7", .mk
      [(VAL_PROFILE_IMAGE_PATH, ⟨REG_SZ, [0x43, 0, 0x3A, 0, 0x5C, 0, 0x54, 0, 0, 0]⟩)] []),
    ("S-1-5-21-7.bak", .mk
      [(VAL_PROFILE_IMAGE_PATH, ⟨REG_SZ, [0x43, 0, 0x3A, 0, 0x5C, 0, 0x55, 0, 0, 0]⟩)] [])]
  nodup := by decide +kernel

def doubledRun : Except RepairError Unit × Machine calmPlatform :=
  executePlan samplePlan false { profileList := doubledKeys }

theorem doubledRun_ok : doubledRun.1.toBool = true := by decide +kernel

theorem doubledRun_unit : doubledRun.1 = .ok () := by
  have hok := doubledRun_ok
  cases h : doubledRun.1 with
  | ok _ => rfl
  | error e =>
    rw [h] at hok
    cases hok

theorem executePlan_repairs_sample :
    doubledRun.2.profileList.find "S-1-5-21-7.bak" = none ∧
    ∃ timestamp old, doubledKeys.find "S-1-5-21-7" = some old ∧
      doubledRun.2.profileList.find (samplePlan.backupName timestamp) = some old := by
  obtain ⟨bak, _, hgone, _, hkept⟩ := executePlan_repairs doubledKeys [] 0 samplePlan false
    doubledRun.2 rfl rfl (Prod.ext doubledRun_unit rfl)
  obtain ⟨timestamp, _, hold, _⟩ := hkept.preserved _ rfl
  exact ⟨hgone, timestamp, _, rfl, hold⟩

end WinProfile
