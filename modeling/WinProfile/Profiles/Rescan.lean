/-
  File:      WinProfile/Profiles/Rescan.lean
  Subject:   What a scan shows, and what it shows after a repair.

  * `scannedPath` -- the profile path of a key as the scan reports it; `scanAllProfiles_spec`: a
    scan none of whose calls fails reports every key of the list, system accounts apart.
  * `ShowsRepaired` -- the account of the repair is shown once, repaired and without a collision.
  * `rescan_iff` -- after a successful repair this is so exactly when the account had no key but
    its `.bak` key; `preserved_key_is_shown` -- the scan after a repair that set a key aside.
-/
import WinProfile.Profiles.Account
import WinProfile.Profiles.Collisions
import WinProfile.Repair.Success

namespace WinProfile

variable {P : Platform}

/-! ## 1. Machines on which no call fails any more -/

/-- No later call fails. -/
def Calm (m : Machine P) : Prop := ∀ n, m.clock ≤ n → P.fault n = none

/-- The same keys, some calls later. -/
structure Later (m m' : Machine P) : Prop where
  keys : m'.profileList = m.profileList
  clock : m.clock ≤ m'.clock

theorem Later.rfl' (m : Machine P) : Later m m := ⟨rfl, le_refl _⟩

theorem Later.trans {a b c : Machine P} (h : Later a b) (h' : Later b c) : Later a c :=
  ⟨h'.keys.trans h.keys, h.clock.trans h'.clock⟩

theorem later_tick (m : Machine P) : Later m m.tick := ⟨rfl, Nat.le_succ _⟩

theorem Calm.later {m m' : Machine P} (h : Calm m) (hl : Later m m') : Calm m' :=
  fun n hn => h n (hl.clock.trans hn)

section Calls

variable {ε ε' α β : Type} {m : Machine P}

/-- A call, by what the platform does to it. -/
theorem wp_call_at {Q : α → Machine P → Prop} {E : ε → Machine P → Prop} {onFault : Fault → ε}
    {body : Act (Machine P) ε α}
    (hfault : ∀ f, P.fault m.clock = some f → E (onFault f) m.tick)
    (hbody : P.fault m.clock = none → Act.wp body Q E m.tick) :
    Act.wp (call onFault body) Q E m := by
  cases h : P.fault m.clock with
  | some f => exact Act.wp_of_error (by unfold call; rw [h]) (hfault f h)
  | none =>
    have hb := hbody h
    unfold Act.wp call at *
    rw [h]
    exact hb

/-- A call ends later, with the same keys, whatever it answers. -/
theorem wp_later_call {onFault : Fault → ε} {body : Act (Machine P) ε α}
    (hbody : Act.wp body (fun _ m' => Later m.tick m') (fun _ m' => Later m.tick m') m.tick) :
    Act.wp (call onFault body) (fun _ m' => Later m m') (fun _ m' => Later m m') m :=
  wp_call (fun _ => later_tick m) (Act.wp_mono hbody (fun _ _ h => (later_tick m).trans h)
    fun _ _ h => (later_tick m).trans h)

theorem wp_later_openKeyRaw (target : Option HKey) :
    Act.wp (openKeyRaw target) (fun _ m' => Later m m') (fun _ m' => Later m m') m := by
  unfold openKeyRaw regCall
  refine wp_later_call ?_
  cases target with
  | none => exact Act.wp_of_error rfl (Later.rfl' _)
  | some key =>
    by_cases h : m.tick.hasKey key
    · exact Act.wp_of_ok (if_pos h) (Later.rfl' _)
    · exact Act.wp_of_error (if_neg h) (Later.rfl' _)

theorem wp_later_regQueryValue (key : HKey) (name : String) :
    Act.wp (regQueryValue key name) (fun _ m' => Later m m') (fun _ m' => Later m m') m := by
  unfold regQueryValue regCall
  refine wp_later_call ?_
  cases h : m.tick.keyOf key with
  | none => exact Act.wp_of_error (by rw [h]) (Later.rfl' _)
  | some k =>
    cases hv : findName P.fold name k.values with
    | none =>
      exact Act.wp_of_error (e := .win32Error ERROR_FILE_NOT_FOUND) (by simp only [h, hv])
        (Later.rfl' _)
    | some v => exact Act.wp_of_ok (a := v) (by simp only [h, hv]) (Later.rfl' _)

theorem wp_later_queryValueU32 (key : HKey) (name : String) :
    Act.wp (queryValueU32 key name) (fun _ m' => Later m m') (fun _ m' => Later m m') m := by
  refine (Act.wp_bind _ _).mpr ((Act.wp_mapErr _ _).mpr
    (Act.wp_mono (wp_later_regQueryValue key name) (fun v m₁ h₁ => ?_) fun _ _ h => h))
  split
  · exact (Act.wp_fail _).mpr h₁
  · split
    · exact (Act.wp_pure _).mpr h₁
    · exact (Act.wp_fail _).mpr h₁

end Calls

/-! ## 2. Reading a value -/

/-- A string value of a key, decoded. -/
def storedString (P : Platform) (k : RegKey) (valueName : String) : Except RegistryError String :=
  match findName P.fold valueName k.values with
  | none => .error (.valueNotFound valueName)
  | some v =>
    if v.type ≠ REG_SZ ∧ v.type ≠ REG_EXPAND_SZ then
      .error (.unexpectedValueType valueName REG_SZ v.type)
    else decodeRegistryString P v.type (unitsOf v.data)

/-- The profile path of a key as the scan reports it. -/
def scannedPath (P : Platform) (k : RegKey) : String :=
  match storedString P k VAL_PROFILE_IMAGE_PATH with
  | .ok value => if isBlank value then "" else value
  | .error _ => ""

section Values

variable {m : Machine P} {key : HKey} {k : RegKey}

/-- One query of a value that is there, or not. -/
theorem wp_regQueryValue (name : String) (hk : m.keyOf key = some k) :
    Act.wp (regQueryValue key name)
      (fun v m' => findName P.fold name k.values = some v ∧ Later m m')
      (fun e m' => (Calm m → findName P.fold name k.values = none ∧
        e = .win32Error ERROR_FILE_NOT_FOUND) ∧ Later m m') m := by
  have htick : m.tick.keyOf key = some k := hk
  unfold regQueryValue regCall
  refine wp_call_at (fun f hf => ⟨fun hcalm => ?_, later_tick m⟩) fun _ => ?_
  · rw [hcalm m.clock (le_refl _)] at hf
    cases hf
  · cases hv : findName P.fold name k.values with
    | none => exact Act.wp_of_error (by simp only [htick, hv]) ⟨fun _ => ⟨rfl, rfl⟩, later_tick m⟩
    | some v => exact Act.wp_of_ok (by simp only [htick, hv]) ⟨rfl, later_tick m⟩

/-- What a successful query says of the key, and what every query says when nothing fails. -/
theorem queryValueString_spec (name : String) (hk : m.keyOf key = some k) :
    Act.wp (queryValueString key name)
      (fun value m' => storedString P k name = .ok value ∧ Later m m')
      (fun _ m' => (Calm m → ∀ value, storedString P k name ≠ .ok value) ∧ Later m m') m := by
  unfold queryValueString storedString
  refine (Act.wp_bind _ _).mpr ((Act.wp_mapErr _ _).mpr
    (Act.wp_mono (wp_regQueryValue name hk) (fun size m₁ h₁ => ?_) fun e m₁ h₁ => ?_))
  · obtain ⟨hv, hl₁⟩ := h₁
    rw [hv]
    have hk₁ : m₁.keyOf key = some k := by
      rw [← hk]
      cases key <;> simp only [Machine.keyOf, hl₁.keys]
    by_cases htype : size.type ≠ REG_SZ ∧ size.type ≠ REG_EXPAND_SZ
    · simp only [if_pos htype]
      exact (Act.wp_fail _).mpr ⟨fun _ _ h => (by cases h), hl₁⟩
    · simp only [if_neg htype]
      refine (Act.wp_bind _ _).mpr (Act.wp_mono (wp_regQueryValue name hk₁)
        (fun v m₂ h₂ => ?_) fun e m₂ h₂ => ?_)
      · obtain ⟨hv₂, hl₂⟩ := h₂
        rw [hv] at hv₂
        cases hv₂
        refine (Act.wp_ofExcept _).mpr ?_
        cases decodeRegistryString P size.type (unitsOf size.data) with
        | ok value => exact ⟨rfl, hl₁.trans hl₂⟩
        | error e => exact ⟨fun _ _ h => (by cases h), hl₁.trans hl₂⟩
      · refine ⟨fun hcalm => ?_, hl₁.trans h₂.2⟩
        have := (h₂.1 (hcalm.later hl₁)).1
        rw [hv] at this
        cases this
  · refine ⟨fun hcalm value h => ?_, h₁.2⟩
    rw [(h₁.1 hcalm).1] at h
    cases h

/-- Neither the suffix of the key nor a collision. -/
def Unmarked (anomalies : List ProfileAnomaly) : Prop :=
  .bakSuffix ∉ anomalies ∧ ∀ path, .pathCollision path ∉ anomalies

theorem requiredString_spec (hcalm : Calm m) (hk : m.keyOf key = some k) :
    Act.wp (requiredString key VAL_PROFILE_IMAGE_PATH)
      (fun r m' => r.value = scannedPath P k ∧ Unmarked r.anomalies ∧ Later m m')
      (fun _ _ => True) m := by
  unfold requiredString scannedPath
  refine (Act.wp_bind _ _).mpr ((Act.wp_attempt _).mpr
    (Act.wp_mono (queryValueString_spec _ hk) (fun value m₁ h₁ => ?_) fun e m₁ h₁ => ?_))
  · obtain ⟨hvalue, hl⟩ := h₁
    rw [hvalue]
    by_cases hblank : isBlank value
    · simp only [if_pos hblank]
      exact (Act.wp_pure _).mpr ⟨rfl, by simp [Unmarked], hl⟩
    · simp only [if_neg hblank]
      exact (Act.wp_pure _).mpr ⟨rfl, by simp [Unmarked], hl⟩
  · have herror : ∃ e, storedString P k VAL_PROFILE_IMAGE_PATH = .error e := by
      cases h : storedString P k VAL_PROFILE_IMAGE_PATH with
      | ok value => exact absurd h (h₁.1 hcalm value)
      | error e => exact ⟨e, rfl⟩
    obtain ⟨e', he'⟩ := herror
    rw [he']
    exact (Act.wp_pure _).mpr ⟨rfl, by simp [Unmarked], h₁.2⟩

theorem optionalU32_spec (key : HKey) (name : String) (m : Machine P) :
    Act.wp (optionalU32 key name) (fun r m' => Unmarked r.anomalies ∧ Later m m')
      (fun _ _ => True) m := by
  unfold optionalU32
  refine (Act.wp_bind _ _).mpr ((Act.wp_attempt _).mpr
    (Act.wp_mono (wp_later_queryValueU32 key name) (fun value m₁ h₁ => ?_) fun e m₁ h₁ => ?_))
  · exact (Act.wp_pure _).mpr ⟨by simp [Unmarked], h₁⟩
  · cases e <;> exact (Act.wp_pure _).mpr ⟨by simp [Unmarked], h₁⟩

theorem optionalString_spec (name : String) (hk : m.keyOf key = some k) :
    Act.wp (optionalString key name) (fun r m' => Unmarked r.anomalies ∧ Later m m')
      (fun _ _ => True) m := by
  unfold optionalString
  refine (Act.wp_bind _ _).mpr ((Act.wp_attempt _).mpr
    (Act.wp_mono (queryValueString_spec _ hk) (fun value m₁ h₁ => ?_) fun e m₁ h₁ => ?_))
  · exact (Act.wp_pure _).mpr ⟨by simp [Unmarked], h₁.2⟩
  · cases e <;> exact (Act.wp_pure _).mpr ⟨by simp [Unmarked], h₁.2⟩

end Values

/-! ## 3. Every profile of a scan -/

/-- What the scan reports of the key `k` under `name`. -/
structure Scanned (P : Platform) (name : String) (k : RegKey) (p : UserProfile) : Prop where
  sid : p.sid = name
  path : p.profilePath = scannedPath P k
  suffix : .bakSuffix ∈ p.anomalies → endsWith BAK_EXTENSION name = true
  collisions : ∀ path, .pathCollision path ∉ p.anomalies

/-- The scan does not leave the key out. -/
def shown (name : String) : Bool := !SYSTEM_SID_PREFIXES.contains (scannedSid name)

section Scan

variable {m : Machine P} {H : ScanHost} {k : RegKey} {name : String}

theorem wp_look {ε α : Type} {answer : Nat → α} {Q : α → Machine P → Prop}
    {E : ε → Machine P → Prop} (hQ : ∀ a, Q a m.tick) : Act.wp (look answer) Q E m :=
  Act.wp_of_ok rfl (hQ _)

theorem unmarked_account (sid : String) (r : Except String (String × String)) :
    Unmarked (accountOf sid r).anomalies := by
  cases r <;> simp [accountOf, Unmarked]

theorem unmarked_loaded (sid : String) (r : Except RegistryError HKey) :
    Unmarked (loadedOf sid r).anomalies := by
  cases r with
  | ok _ => simp [loadedOf, Unmarked]
  | error e =>
    by_cases h : e = .win32Error ERROR_FILE_NOT_FOUND <;> simp [loadedOf, Unmarked, h]

theorem unmarked_locks (r : Except String (List (String × UInt32))) :
    Unmarked (lockAnomalies r) := by
  rcases r with _ | _ | _ <;> simp [lockAnomalies, Unmarked]

theorem unmarked_size (r : Except String Nat) : Unmarked (diskSizeOf r).anomalies := by
  cases r <;> simp [diskSizeOf, Unmarked]

theorem stateAnomalies_suffix {isBak : Bool} {mask : UInt32}
    (h : .bakSuffix ∈ stateAnomalies isBak mask) : isBak = true := by
  cases isBak with
  | true => rfl
  | false =>
    simp only [stateAnomalies, List.mem_append] at h
    rcases h with (h | h) | h
    · cases h
    · split at h <;> simp at h
    · split at h <;> simp at h

theorem stateAnomalies_collision (isBak : Bool) (mask : UInt32) (path : String) :
    .pathCollision path ∉ stateAnomalies isBak mask := by
  intro h
  simp only [stateAnomalies, List.mem_append] at h
  rcases h with (h | h) | h <;> split at h <;> simp at h

theorem scanKey_spec (H : ScanHost) (hcalm : Calm m) (hk : m.profileList.find name = some k) :
    Act.wp (scanKey H name) (fun p m' => Scanned P name k p ∧ Later m m') (fun _ _ => True) m := by
  unfold scanKey openKey
  refine (Act.wp_bind _ _).mpr ((Act.wp_mapErr _ _).mpr ?_)
  by_cases hplain : '\\' ∈ name.toList
  · -- A name with a backslash is no child of the list; the call fails.
    have hnone : resolve .localMachine (REG_KEY_PROFILE_LIST ++ "\\" ++ name) = none := by
      have hne : REG_KEY_PROFILE_LIST ++ "\\" ++ name ≠ REG_KEY_PROFILE_LIST := fun e => by
        have := congrArg (fun t => t.toList.length) e
        simp at this
      simp only [resolve, if_neg hne, stripFront_append, if_pos hplain]
    rw [hnone]
    unfold openKeyRaw regCall
    exact wp_call (fun _ => trivial) (Act.wp_of_error rfl trivial)
  rw [show REG_KEY_PROFILE_LIST ++ "\\" ++ name = profilePathOf name from rfl,
    resolve_profile hplain]
  refine wp_openKeyRaw (fun _ => trivial) fun _ => ?_
  have hl₁ := later_tick m
  have hk₁ : m.tick.keyOf (.profile name) = some k := hk
  refine (Act.wp_bind _ _).mpr (Act.wp_mono (requiredString_spec (hcalm.later hl₁) hk₁)
    (fun path m₂ h₂ => ?_) fun _ _ _ => trivial)
  obtain ⟨hpath, hpathMarks, hl⟩ := h₂
  have hl₂ := hl₁.trans hl
  refine (Act.wp_bind _ _).mpr (Act.wp_mono (optionalU32_spec _ VAL_STATE m₂)
    (fun mask m₃ h₃ => ?_) fun _ _ _ => trivial)
  have hl₃ := hl₂.trans h₃.2
  refine (Act.wp_bind _ _).mpr (Act.wp_mono (optionalU32_spec _ VAL_REF_COUNT m₃)
    (fun count m₄ h₄ => ?_) fun _ _ _ => trivial)
  have hl₄ := hl₃.trans h₄.2
  have hk₄ : m₄.keyOf (.profile name) = some k := by
    rw [Machine.keyOf, hl₄.keys]
    exact hk
  refine (Act.wp_bind _ _).mpr (Act.wp_mono (optionalString_spec VAL_GUID hk₄)
    (fun guid m₅ h₅ => ?_) fun _ _ _ => trivial)
  have hl₅ := hl₄.trans h₅.2
  refine (Act.wp_bind _ _).mpr (wp_look fun account => ?_)
  have hl₆ := hl₅.trans (later_tick m₅)
  refine (Act.wp_bind _ _).mpr
    (Act.wp_attempt_of (wp_later_openKeyRaw _) fun opened m₇ h₇ => ?_)
  have hl₇ := hl₆.trans h₇
  refine (Act.wp_bind _ _).mpr (wp_look fun dirExists => ?_)
  refine (Act.wp_bind _ _).mpr (wp_look fun ntuserExists => ?_)
  refine (Act.wp_bind _ _).mpr (wp_look fun usrclassExists => ?_)
  refine (Act.wp_bind _ _).mpr (wp_look fun locks => ?_)
  refine (Act.wp_bind _ _).mpr (wp_look fun measured => ?_)
  have hl₈ : Later m m₇.tick.tick.tick.tick.tick :=
    ((((hl₇.trans (later_tick _)).trans (later_tick _)).trans (later_tick _)).trans
      (later_tick _)).trans (later_tick _)
  have haccount := unmarked_account (scannedSid name) account
  have hloaded := unmarked_loaded (scannedSid name) opened
  have hlocks := unmarked_locks locks
  have hsize := unmarked_size measured
  refine (Act.wp_pure _).mpr ⟨⟨rfl, hpath, fun h => ?_, fun q h => ?_⟩, hl₈⟩
  · simp only [UserProfile.computeHealth, List.mem_append, hpathMarks.1, h₃.1.1, h₄.1.1, h₅.1.1,
      haccount.1, hloaded.1, hlocks.1, hsize.1, false_or, or_false] at h
    rcases h with h | h
    · exact stateAnomalies_suffix h
    · split at h <;> simp at h
  · simp only [UserProfile.computeHealth, List.mem_append, hpathMarks.2, h₃.1.2, h₄.1.2, h₅.1.2,
      haccount.2, hloaded.2, hlocks.2, hsize.2, false_or, or_false] at h
    rcases h with h | h
    · exact stateAnomalies_collision _ _ _ h
    · split at h <;> simp at h

theorem enumNames_spec : ∀ (names : List String) (m : Machine P),
    Act.wp (enumNames names) (fun result m' => result = names ∧ Later m m') (fun _ _ => True) m
  | [], m => by
    refine (Act.wp_bind _ _).mpr (wp_call (fun _ => trivial) ?_)
    exact (Act.wp_ret ()).mpr ((Act.wp_pure _).mpr ⟨rfl, later_tick m⟩)
  | name :: names, m => by
    refine (Act.wp_bind _ _).mpr (wp_call (fun _ => trivial) ?_)
    refine (Act.wp_ret ()).mpr ((Act.wp_bind _ _).mpr (Act.wp_mono (enumNames_spec names m.tick)
      (fun rest m' h => (Act.wp_pure _).mpr ⟨by rw [h.1], (later_tick m).trans h.2⟩)
      fun _ _ h => h))

theorem scanKeys_spec (H : ScanHost) : ∀ (names : List String) (m : Machine P), Calm m →
    (∀ name ∈ names, (m.profileList.find name).isSome) →
    Act.wp (scanKeys H names)
      (fun ps _ => List.Forall₂ (fun name p => ∃ k, m.profileList.find name = some k ∧
        Scanned P name k p) (names.filter shown) ps) (fun _ _ => True) m
  | [], m, _, _ => (Act.wp_pure _).mpr .nil
  | name :: names, m, hcalm, hthere => by
    have hrest : ∀ n ∈ names, (m.profileList.find n).isSome := fun n hn =>
      hthere n (List.mem_cons_of_mem _ hn)
    rw [scanKeys]
    by_cases hsystem : SYSTEM_SID_PREFIXES.contains (scannedSid name)
    · have hhidden : shown name = false := by rw [shown, hsystem]; rfl
      rw [if_pos hsystem, List.filter_cons_of_neg (by simp [hhidden])]
      exact scanKeys_spec H names m hcalm hrest
    · have hshown : shown name = true := by
        rw [shown, Bool.not_eq_true'] 
        exact Bool.not_eq_true _ |>.mp hsystem
      rw [if_neg hsystem, List.filter_cons_of_pos hshown]
      obtain ⟨k, hk⟩ := Option.isSome_iff_exists.mp (hthere name (List.mem_cons_self ..))
      refine (Act.wp_bind _ _).mpr (Act.wp_mono (scanKey_spec H hcalm hk) (fun p m₁ h₁ => ?_)
        fun _ _ h => h)
      have ih := scanKeys_spec H names m₁ (hcalm.later h₁.2) (by rw [h₁.2.keys]; exact hrest)
      rw [h₁.2.keys] at ih
      refine (Act.wp_bind _ _).mpr (Act.wp_mono ih (fun ps m₂ h₂ => ?_) fun _ _ h => h)
      exact (Act.wp_pure _).mpr (.cons ⟨k, hk, h₁.1⟩ h₂)

/-- **A scan none of whose calls fails** reports every key that is not a system account's, in the
order of the list, and then marks the collisions. -/
theorem scanAllProfiles_spec (H : ScanHost) (hcalm : Calm m) :
    Act.wp (scanAllProfiles H)
      (fun profiles _ => ∃ ps, List.Forall₂ (fun name p => ∃ k, m.profileList.find name = some k ∧
        Scanned P name k p) ((m.profileList.entries.map Prod.fst).filter shown) ps ∧
        profiles = markPathCollisions H.groups ps) (fun _ _ => True) m := by
  unfold scanAllProfiles openKey enumSubkeys
  refine (Act.wp_bind _ _).mpr ((Act.wp_mapErr _ _).mpr (Act.wp_mono (wp_later_openKeyRaw _)
    (fun _ m₁ h₁ => ?_) fun _ _ _ => trivial))
  refine (Act.wp_bind _ _).mpr ((Act.wp_mapErr _ _).mpr ((Act.wp_bind _ _).mpr (Act.wp_read.mpr
    (Act.wp_mono (enumNames_spec _ m₁) (fun names m₂ h₂ => ?_) fun _ _ h => h))))
  obtain ⟨rfl, hl⟩ := h₂
  have hl₂ := h₁.trans hl
  have hthere : ∀ name ∈ m₁.profileList.entries.map Prod.fst,
      (m₂.profileList.find name).isSome := by
    intro name hname
    obtain ⟨⟨n, k⟩, hentry, rfl⟩ := List.mem_map.mp hname
    rw [hl.keys, NameTable.find_of_mem hentry]
    rfl
  have hscan := scanKeys_spec H _ m₂ (hcalm.later hl₂) hthere
  rw [hl₂.keys, h₁.keys] at hscan
  rw [h₁.keys]
  exact (Act.wp_bind _ _).mpr (Act.wp_mono hscan
    (fun ps m₃ h₃ => (Act.wp_pure _).mpr ⟨ps, h₃, rfl⟩) fun _ _ h => h)

end Scan

/-! ## 4. The keys after a repair -/

/-- The canonical key has a profile path. -/
def HasProfilePath (plan : RepairPlan) (t : NameTable P.fold RegKey) : Prop :=
  ∃ k value, t.find plan.canonicalSid = some k ∧
    storedString P k VAL_PROFILE_IMAGE_PATH = .ok value ∧ isBlank value = false

section Repair

variable {plan : RepairPlan} {m : Machine P}

/-- No repair ends with success on a key without a profile path. -/
theorem verify_spec (plan : RepairPlan) (m : Machine P) :
    Act.wp (verify plan .profileList) (fun _ m' => HasProfilePath plan m'.profileList)
      (fun _ _ => True) m := by
  unfold verify liftReg
  refine Act.wp_bind_skip fun _ _ => Act.wp_bind_skip fun _ _ => Act.wp_bind_skip fun _ m₁ => ?_
  refine (Act.wp_bind _ _).mpr ((Act.wp_mapErr _ _).mpr (wp_openSubkey (fun _ => trivial)
    fun hthere => ?_))
  obtain ⟨k, hk⟩ := Option.isSome_iff_exists.mp hthere
  have hkey : m₁.tick.keyOf (.profile plan.canonicalSid) = some k := hk
  refine (Act.wp_bind _ _).mpr ((Act.wp_mapErr _ _).mpr
    (Act.wp_mono (queryValueString_spec _ hkey) (fun value m₂ h₂ => ?_) fun _ _ _ => trivial))
  obtain ⟨hvalue, hl⟩ := h₂
  refine (Act.wp_bind _ _).mpr ((Act.wp_guard _ _).mpr ?_)
  cases hblank : isBlank value with
  | true => trivial
  | false =>
    rw [Bool.not_false, if_pos rfl, Act.wp_when]
    have hpath : ∀ m₃ : Machine P, m₃.profileList = m₂.profileList →
        HasProfilePath plan m₃.profileList := fun m₃ h₃ =>
      ⟨k, value, by rw [h₃, hl.keys]; exact hk, hvalue, hblank⟩
    split
    · -- Reading the two values back and comparing them changes no key.
      refine (Act.wp_bind _ _).mpr ((Act.wp_mapErr _ _).mpr
        (Act.wp_mono (wp_later_queryValueU32 _ _) (fun _ m₃ h₃ => ?_) fun _ _ _ => trivial))
      refine (Act.wp_bind _ _).mpr ((Act.wp_mapErr _ _).mpr
        (Act.wp_mono (wp_later_queryValueU32 _ _) (fun _ m₄ h₄ => ?_) fun _ _ _ => trivial))
      refine (Act.wp_guard _ _).mpr ?_
      split
      · exact hpath m₄ (h₄.keys.trans h₃.keys)
      · trivial
    · exact hpath m₂ rfl

theorem executeSteps_verified (plan : RepairPlan) (m : Machine P) :
    Act.wp (executeSteps plan .profileList) (fun _ m' => HasProfilePath plan m'.profileList)
      (fun _ _ => True) m := by
  unfold executeSteps
  exact Act.wp_bind_skip fun _ _ => Act.wp_bind_skip fun _ m' => verify_spec plan m'

theorem executePlan_verified (plan : RepairPlan) (isLoaded : Bool) (m : Machine P)
    (hdry : plan.dryRun = false) :
    Act.wp (executePlan plan isLoaded)
      (fun _ m' => isValidSid plan.canonicalSid = true ∧ HasProfilePath plan m'.profileList)
      (fun _ _ => True) m :=
  executePlan_of_steps plan isLoaded m hdry
    (fun m₁ m₂ h hs => by rw [hs.keys]; exact h)
    fun m₁ _ => executeSteps_verified plan m₁

/-- The value resets do not touch the profile path. -/
theorem storedString_repairedKey (plan : RepairPlan) (bak : RegKey) :
    storedString P (repairedKey P plan bak) VAL_PROFILE_IMAGE_PATH
      = storedString P bak VAL_PROFILE_IMAGE_PATH := by
  unfold repairedKey
  split
  · have href : P.fold VAL_REF_COUNT ≠ P.fold VAL_PROFILE_IMAGE_PATH := fun e => by
      have := congrArg List.length e
      rw [P.length_fold, P.length_fold] at this
      revert this
      decide
    have hstate : P.fold VAL_STATE ≠ P.fold VAL_PROFILE_IMAGE_PATH := fun e => by
      have := congrArg List.length e
      rw [P.length_fold, P.length_fold] at this
      revert this
      decide
    unfold storedString
    rw [RegKey.find_reset, if_neg fun h => h.elim href hstate]
  · rfl

end Repair

section Names

variable {plan : RepairPlan} {t₀ t₁ t₂ t : NameTable P.fold RegKey} {backup : Option String}
  {bak : RegKey}

/-- The names of a table, as they are spelled. -/
def keyNames (t : NameTable P.fold RegKey) : List String := t.entries.map Prod.fst

theorem mem_keyNames {n : String} : n ∈ keyNames t ↔ ∃ k, (n, k) ∈ t.entries := by
  simp [keyNames]

theorem find_of_mem_keyNames {n : String} (h : n ∈ keyNames t) : (t.find n).isSome := by
  obtain ⟨k, hk⟩ := mem_keyNames.mp h
  rw [NameTable.find_of_mem hk]
  rfl

theorem keyNames_rename {old new n : String} (h : t₁.rename old new = some t₂) :
    n ∈ keyNames t₂ ↔ n = new ∨ P.fold n ≠ P.fold old ∧ n ∈ keyNames t₁ := by
  have hthere := (NameTable.rename_isSome.mp (Option.isSome_of_eq_some h)).1
  obtain ⟨k, hk⟩ := Option.isSome_iff_exists.mp hthere
  simp only [mem_keyNames, NameTable.mem_rename h]
  constructor
  · rintro ⟨_, ⟨hn, _⟩ | ⟨hne, hin⟩⟩
    · exact .inl hn
    · exact .inr ⟨hne, _, hin⟩
  · rintro (hn | ⟨hne, _, hin⟩)
    · exact ⟨k, .inl ⟨hn, hk⟩⟩
    · exact ⟨_, .inr ⟨hne, hin⟩⟩

theorem keyNames_resetKeys {k : RegKey} (h : (t.find plan.canonicalSid).isSome) :
    keyNames (resetKeys plan t k) = keyNames t := by
  unfold resetKeys keyNames
  split
  · have hput : ((t.put plan.canonicalSid (k.setDword P VAL_STATE 0)).find
        plan.canonicalSid).isSome := by
      rw [NameTable.find_put, if_pos rfl]
      rfl
    rw [NameTable.names_put hput, NameTable.names_put h]
  · rfl

/-- The names of the table after a repair, by those before its last rename. -/
theorem Repaired.keyNames_iff (h : Repaired plan t₀ backup t₁ t₂ bak t) {n : String} :
    n ∈ keyNames t ↔ n = plan.canonicalSid ∨ P.fold n ≠ P.fold plan.bakName ∧ n ∈ keyNames t₁ := by
  have hthere : (t₂.find plan.canonicalSid).isSome := by
    rw [h.find_canonical]
    rfl
  rw [h.final, keyNames_resetKeys hthere, keyNames_rename h.moved]

theorem Repaired.storedString (h : Repaired plan t₀ backup t₁ t₂ bak t)
    (hpath : HasProfilePath plan t) : ∃ value, isBlank value = false ∧
      storedString P bak VAL_PROFILE_IMAGE_PATH = .ok value := by
  obtain ⟨k, value, hk, hvalue, hblank⟩ := hpath
  rw [h.find, if_pos rfl, Option.some.injEq] at hk
  rw [← hk, storedString_repairedKey] at hvalue
  exact ⟨value, hblank, hvalue⟩

end Names

/-! ## 5. The profiles of a scan -/

/-- One profile for every key that the scan shows, in the order of the list. -/
def ScanOf (t : NameTable P.fold RegKey) (ps : List UserProfile) : Prop :=
  List.Forall₂ (fun name p => ∃ k, t.find name = some k ∧ Scanned P name k p)
    ((keyNames t).filter shown) ps

section Profiles

variable {t : NameTable P.fold RegKey} {ps profiles : List UserProfile} {H : ScanHost}

theorem ScanOf.of_name (h : ScanOf t ps) {name : String} (hname : name ∈ keyNames t)
    (hshown : shown name = true) : ∃ (i : Nat) (p : UserProfile), ps[i]? = some p ∧ p.sid = name := by
  have hin : name ∈ (keyNames t).filter shown := List.mem_filter.mpr ⟨hname, hshown⟩
  obtain ⟨i, hi, hget⟩ := List.getElem_of_mem hin
  have hlt : i < ps.length := h.length_eq ▸ hi
  obtain ⟨k, _, hscanned⟩ := (List.forall₂_iff_get.mp h).2 i hi hlt
  refine ⟨i, ps[i], List.getElem?_eq_getElem hlt, ?_⟩
  rw [← hget]
  exact hscanned.sid

theorem ScanOf.name (h : ScanOf t ps) {i : Nat} {p : UserProfile} (hp : ps[i]? = some p) :
    ((keyNames t).filter shown)[i]? = some p.sid ∧
      ∃ k, t.find p.sid = some k ∧ Scanned P p.sid k p := by
  obtain ⟨hlt, rfl⟩ := List.getElem?_eq_some_iff.mp hp
  have hi : i < ((keyNames t).filter shown).length := h.length_eq ▸ hlt
  obtain ⟨k, hk, hscanned⟩ := (List.forall₂_iff_get.mp h).2 i hi hlt
  have hsid : ps[i].sid = ((keyNames t).filter shown)[i] := hscanned.sid
  rw [List.getElem?_eq_getElem hi, hsid]
  exact ⟨rfl, k, hk, hscanned⟩

theorem ScanOf.mem (h : ScanOf t ps) {i : Nat} {p : UserProfile} (hp : ps[i]? = some p) :
    p.sid ∈ keyNames t :=
  List.mem_of_mem_filter (List.mem_of_getElem? (h.name hp).1)

/-- No key has two profiles. -/
theorem ScanOf.index_eq (h : ScanOf t ps) {i j : Nat} {p q : UserProfile} (hp : ps[i]? = some p)
    (hq : ps[j]? = some q) (hsid : p.sid = q.sid) : i = j := by
  have hnodup : ((keyNames t).filter shown).Nodup := t.nodup_names.filter _
  have hi := (h.name hp).1
  rw [hsid] at hi
  exact (List.getElem?_inj (List.getElem?_eq_some_iff.mp hi).1 hnodup).mp
    (hi.trans (h.name hq).1.symm)

/-- The collision pass leaves the key names where they are. -/
theorem sid_markPathCollisions {i : Nat} {q : UserProfile}
    (hq : (markPathCollisions H.groups ps)[i]? = some q) :
    ∃ p, ps[i]? = some p ∧ q.sid = p.sid := by
  obtain ⟨hyes, hno⟩ := getElem?_markPathCollisions ps H.groups_perm i
  by_cases hcollides : Collides ps i
  · rw [hyes hcollides, Option.map_eq_some_iff] at hq
    obtain ⟨p, hp, rfl⟩ := hq
    exact ⟨p, hp, rfl⟩
  · rw [hno hcollides] at hq
    exact ⟨q, hq, rfl⟩

/-- Every key that the scan shows has a profile after the collision pass. -/
theorem ScanOf.shows (h : ScanOf t ps) {name : String} (hname : name ∈ keyNames t)
    (hshown : shown name = true) :
    ∃ (i : Nat) (q : UserProfile),
      (markPathCollisions H.groups ps)[i]? = some q ∧ q.sid = name := by
  obtain ⟨i, p, hp, hsid⟩ := h.of_name hname hshown
  obtain ⟨hyes, hno⟩ := getElem?_markPathCollisions ps H.groups_perm i
  by_cases hcollides : Collides ps i
  · exact ⟨i, p.collide, by rw [hyes hcollides, hp]; rfl, hsid⟩
  · exact ⟨i, p, by rw [hno hcollides, hp], hsid⟩

end Profiles

/-! ## 6. The scan after a repair -/

/-- The system SIDs have no dot, the other names of an account have one behind its SID. -/
theorem shown_of_derived {sid name : String} (hvalid : isValidSid sid)
    (hsystem : sid ∉ SYSTEM_SID_PREFIXES) (h : Derived sid name) : shown name = true := by
  have hdots : ∀ s ∈ SYSTEM_SID_PREFIXES, '.' ∉ s.toList := by decide
  have hnodot : '.' ∉ sid.toList := isValidSid_not_mem hvalid (by decide)
  suffices hnot : scannedSid name ∉ SYSTEM_SID_PREFIXES by
    rw [shown, Bool.not_eq_true']
    exact Bool.eq_false_iff.mpr fun hin => hnot (List.contains_iff_mem.mp hin)
  obtain ⟨rest, rfl, rfl | hrest⟩ := h.suffix
  · rw [String.append_empty, scannedSid, stripBack_sid hvalid, Option.getD_none]
    exact hsystem
  · obtain ⟨more, hmore⟩ : ∃ more, rest.toList = '.' :: more := by
      cases hl : rest.toList with
      | nil =>
        rw [hl] at hrest
        cases hrest
      | cons c more =>
        rw [hl, List.head?_cons, Option.some.injEq] at hrest
        exact ⟨more, by rw [hrest]⟩
    have hhead : ∀ {l more : List Char}, '.' ∉ l → (l ++ '.' :: more).takeWhile (· != '.') = l := by
      intro l more hl
      rw [List.takeWhile_append_of_pos fun c hc => by
        rw [bne_iff_ne]
        rintro rfl
        exact hl hc]
      simp
    intro hin
    cases hstrip : stripBack BAK_EXTENSION (sid ++ rest) with
    | none =>
      rw [scannedSid, hstrip, Option.getD_none] at hin
      refine hdots _ hin ?_
      rw [String.toList_append, hmore]
      exact List.mem_append_right _ (List.mem_cons_self ..)
    | some r =>
      rw [scannedSid, hstrip, Option.getD_some] at hin
      have hcut := congrArg String.toList (stripBack_eq_some.mp hstrip)
      rw [String.toList_append, String.toList_append, hmore,
        show BAK_EXTENSION.toList = '.' :: ['b', 'a', 'k'] from rfl] at hcut
      have hsame := congrArg (List.takeWhile (· != '.')) hcut
      rw [hhead hnodot, hhead (hdots r hin)] at hsame
      rw [← String.toList_injective hsame] at hin
      exact hsystem hin

/-- What the scan should show after a repair: the account once, under its own name, with the path of
the former `.bak` key and no mark, and nothing of the key that the repair set aside. -/
structure ShowsRepaired (plan : RepairPlan) (keys : NameTable P.fold RegKey)
    (profiles : List UserProfile) : Prop where
  once : ∃ (i : Nat) (p : UserProfile) (bak : RegKey), profiles[i]? = some p ∧ p.sid = plan.canonicalSid ∧
    keys.find plan.bakName = some bak ∧
    storedString P bak VAL_PROFILE_IMAGE_PATH = .ok p.profilePath ∧ Unmarked p.anomalies ∧
    ∀ (j : Nat) (q : UserProfile), profiles[j]? = some q → Derived plan.canonicalSid q.sid → j = i
  preserved : ∀ q ∈ profiles, ∀ timestamp, q.sid ≠ plan.backupName timestamp

/-- No other key has the profile path of the `.bak` key, as the collision pass compares paths. -/
def PathsApart (plan : RepairPlan) (keys : NameTable P.fold RegKey) : Prop :=
  ∀ n k bak, (n, k) ∈ keys.entries → P.fold n ≠ P.fold plan.canonicalSid →
    P.fold n ≠ P.fold plan.bakName → keys.find plan.bakName = some bak →
    isBlank (scannedPath P k) = false →
    collisionPath (scannedPath P k) ≠ collisionPath (scannedPath P bak)

/-- The account has no key but its `.bak` key. -/
def OnlyBak (plan : RepairPlan) (keys : NameTable P.fold RegKey) : Prop :=
  keys.find plan.canonicalSid = none ∧
    ∀ n ∈ keyNames keys, Derived plan.canonicalSid n → P.fold n = P.fold plan.bakName

section Rescan

variable {plan : RepairPlan} {keys t₁ t₂ t : NameTable P.fold RegKey} {backup : Option String}
  {bak : RegKey} {ps : List UserProfile} {H : ScanHost}

/-- With no other key of the account, the scan shows the repaired profile alone. -/
theorem showsRepaired_of_onlyBak (h : Repaired plan keys backup t₁ t₂ bak t)
    (hvalid : isValidSid plan.canonicalSid) (hsystem : plan.canonicalSid ∉ SYSTEM_SID_PREFIXES)
    (hpath : HasProfilePath plan t) (hapart : PathsApart plan keys) (honly : OnlyBak plan keys)
    (hscan : ScanOf t ps) : ShowsRepaired plan keys (markPathCollisions H.groups ps) := by
  have hsame : t₁ = keys := by
    cases h.aside with
    | absent => rfl
    | moved hrename =>
      have := (NameTable.rename_isSome.mp (Option.isSome_of_eq_some hrename)).1
      rw [honly.1] at this
      cases this
  subst hsame
  have hin : plan.canonicalSid ∈ keyNames t := h.keyNames_iff.mpr (.inl rfl)
  have hshown := shown_of_derived hvalid hsystem .self
  obtain ⟨i, p, hp, hsid⟩ := hscan.of_name hin hshown
  obtain ⟨_, k, hk, hscanned⟩ := hscan.name hp
  obtain ⟨value, hblank, hvalue⟩ := h.storedString hpath
  have hkey : k = repairedKey P plan bak := by
    rw [hsid, h.find, if_pos rfl] at hk
    exact (Option.some.inj hk).symm
  have hbakPath : scannedPath P bak = value := by
    simp [scannedPath, hvalue, hblank]
  have hprofile : p.profilePath = value := by
    rw [hscanned.path, hkey, scannedPath, storedString_repairedKey, hvalue]
    simp [hblank]
  -- Every other profile belongs to a key that the repair did not touch.
  have hother : ∀ {j : Nat} {q : UserProfile}, ps[j]? = some q → j ≠ i →
      q.sid ∈ keyNames t₁ ∧ P.fold q.sid ≠ P.fold plan.bakName ∧
        P.fold q.sid ≠ P.fold plan.canonicalSid := by
    intro j q hq hne
    rcases h.keyNames_iff.mp (hscan.mem hq) with hcanonical | ⟨hbak, hold⟩
    · exact absurd (hscan.index_eq hq hp (hcanonical.trans hsid.symm)) hne
    · refine ⟨hold, hbak, fun hfold => ?_⟩
      have := find_of_mem_keyNames hold
      rw [t₁.find_congr hfold, honly.1] at this
      cases this
  have hquiet : ¬ Collides ps i := by
    rintro ⟨key, hi, j, hne, hj⟩
    obtain ⟨p', hp', _, rfl⟩ := hi
    obtain ⟨q, hq, hqblank, hqpath⟩ := hj
    rw [hp] at hp'
    cases hp'
    obtain ⟨hold, hbak, hcanonical⟩ := hother hq hne
    obtain ⟨k', hk'⟩ := mem_keyNames.mp hold
    obtain ⟨_, k'', hk'', hscanned'⟩ := hscan.name hq
    have hkeep : t.find q.sid = t₁.find q.sid := by
      rw [h.find, if_neg hcanonical, if_neg hbak]
    rw [hkeep, NameTable.find_of_mem hk', Option.some.injEq] at hk''
    subst hk''
    rw [hscanned'.path] at hqblank hqpath
    refine hapart _ _ bak hk' hcanonical hbak h.contents hqblank ?_
    rw [hqpath, hbakPath, hprofile]
  have hprofiles := (getElem?_markPathCollisions ps H.groups_perm i).2 hquiet
  have hunique : ∀ (j : Nat) (q : UserProfile), (markPathCollisions H.groups ps)[j]? = some q →
      Derived plan.canonicalSid q.sid → j = i := by
    intro j q hq hderived
    obtain ⟨p', hp', hsid'⟩ := sid_markPathCollisions hq
    by_contra hne
    obtain ⟨hold, hbak, _⟩ := hother hp' hne
    rw [hsid'] at hderived
    exact hbak (honly.2 _ hold hderived)
  refine ⟨⟨i, p, bak, by rw [hprofiles, hp], hsid, h.contents, by rw [hvalue, hprofile],
    ⟨fun hsuffix => ?_, hscanned.collisions⟩, hunique⟩, fun q hq timestamp haside => ?_⟩
  · have hends := hscanned.suffix hsuffix
    rw [hsid] at hends
    have hnone := stripBack_sid hvalid
    rw [stripBack, if_pos hends] at hnone
    cases hnone
  · obtain ⟨j, hj⟩ := List.mem_iff_getElem?.mp hq
    obtain ⟨p', hp', hsid'⟩ := sid_markPathCollisions hj
    have hji : j = i := hunique j q hj (by rw [haside]; exact derived_backupName plan timestamp)
    rw [hji, hp] at hp'
    cases hp'
    refine fold_backup_ne_canonical P plan timestamp ?_
    rw [← haside, hsid', hsid]

/-- Any other key of the account is shown beside it. -/
theorem onlyBak_of_showsRepaired (h : Repaired plan keys backup t₁ t₂ bak t)
    (hvalid : isValidSid plan.canonicalSid) (hsystem : plan.canonicalSid ∉ SYSTEM_SID_PREFIXES)
    (hscan : ScanOf t ps) (hshows : ShowsRepaired plan keys (markPathCollisions H.groups ps)) :
    OnlyBak plan keys := by
  obtain ⟨i, p, _, hp, hsid, _, _, _, hunique⟩ := hshows.once
  have honly : ∀ n ∈ keyNames t, Derived plan.canonicalSid n → n = plan.canonicalSid := by
    intro n hn hderived
    obtain ⟨j, q, hq, hqsid⟩ := hscan.shows hn (shown_of_derived hvalid hsystem hderived)
    have hji : j = i := hunique j q hq (by rw [hqsid]; exact hderived)
    rw [hji, hp] at hq
    cases hq
    exact hqsid.symm.trans hsid
  cases h.aside with
  | absent hnone =>
    refine ⟨hnone, fun n hn hderived => ?_⟩
    by_contra hbak
    have hcanonical := honly n (h.keyNames_iff.mpr (.inr ⟨hbak, hn⟩)) hderived
    have := find_of_mem_keyNames hn
    rw [hcanonical, hnone] at this
    cases this
  | @moved timestamp _ hrename =>
    -- The key that went aside is still in the list.
    have haside : plan.backupName timestamp ∈ keyNames t :=
      h.keyNames_iff.mpr (.inr ⟨fold_backup_ne_bak P plan _, (keyNames_rename hrename).mpr
        (.inl rfl)⟩)
    have hcanonical := honly _ haside (derived_backupName plan timestamp)
    exact absurd (congrArg P.fold hcanonical) (fold_backup_ne_canonical P plan timestamp)

/-- **The scan after a repair** shows the repaired profile alone exactly when the account had no key
but its `.bak` key: for every list in which no other key has its path, every successful repair of a
`.bak` key of no system account, and a scan none of whose calls fails. -/
theorem rescan_iff (H : ScanHost) (keys : NameTable P.fold RegKey) (audits : List AuditRecord)
    (clock : Nat) (plan : RepairPlan) (isLoaded : Bool) (m' m'' : Machine P)
    (profiles : List UserProfile) (hdry : plan.dryRun = false) (hfix : plan.fixBak = true)
    (hsystem : plan.canonicalSid ∉ SYSTEM_SID_PREFIXES) (hapart : PathsApart plan keys)
    (hrun : executePlan plan isLoaded { profileList := keys, audits, clock } = (.ok (), m'))
    (hcalm : Calm m') (hscan : scanAllProfiles H m' = (.ok profiles, m'')) :
    ShowsRepaired plan keys profiles ↔ OnlyBak plan keys := by
  have hrepair := executePlan_success plan isLoaded { profileList := keys, audits, clock } hdry hfix
  have hverify := executePlan_verified plan isLoaded { profileList := keys, audits, clock } hdry
  have hscanned := scanAllProfiles_spec H hcalm
  unfold Act.wp at hrepair hverify hscanned
  rw [hrun] at hrepair hverify
  rw [hscan] at hscanned
  obtain ⟨hvalid, backup, t₁, t₂, bak, h⟩ := hrepair
  obtain ⟨ps, hps, rfl⟩ := hscanned
  have hof : ScanOf m'.profileList ps := hps
  exact ⟨onlyBak_of_showsRepaired h hvalid hsystem hof,
    fun honly => showsRepaired_of_onlyBak h hvalid hsystem hverify.2 hapart honly hof⟩

end Rescan

/-! ## 7. A key set aside is shown -/

/-- A host that knows no account and finds no file. -/
def bareHost : ScanHost where
  lookupAccount _ _ := .error "not found"
  isDir _ _ := false
  isFile _ _ := false
  lockingProcesses _ _ := .ok []
  directorySize _ _ := .ok 0
  groups l := l
  groups_perm l := List.Perm.refl l

/-- The scan after the repair beside an existing canonical key. -/
def doubledScan : Except ScannerError (List UserProfile) × Machine calmPlatform :=
  scanAllProfiles bareHost doubledRun.2

theorem doubledScan_sids : (doubledScan.1.map fun ps => ps.map fun p => (p.sid, p.profilePath))
    = .ok [("S-1-5-21-7.pre-repair-20260101T000000.000000Z", "C:\\T"), ("S-1-5-21-7", "C:\\U")] := by
  decide +kernel

/-- **The preserved key is shown** as a profile of its own. -/
theorem preserved_key_is_shown : ∃ profiles m'',
    executePlan samplePlan false { profileList := doubledKeys } = (.ok (), doubledRun.2) ∧
    scanAllProfiles bareHost doubledRun.2 = (.ok profiles, m'') ∧
    PathsApart samplePlan doubledKeys ∧
    (∃ p ∈ profiles, p.sid = samplePlan.backupName "20260101T000000.000000Z") ∧
    ¬ ShowsRepaired samplePlan doubledKeys profiles := by
  have hsids := doubledScan_sids
  cases hscan : doubledScan.1 with
  | error e =>
    rw [hscan] at hsids
    cases hsids
  | ok profiles =>
    rw [hscan] at hsids
    have hlist : profiles.map (fun p => (p.sid, p.profilePath))
        = [("S-1-5-21-7.pre-repair-20260101T000000.000000Z", "C:\\T"), ("S-1-5-21-7", "C:\\U")] :=
      Except.ok.inj hsids
    have hshown : ∃ p ∈ profiles, p.sid = samplePlan.backupName "20260101T000000.000000Z" := by
      have hin : ("S-1-5-21-7.pre-repair-20260101T000000.000000Z", "C:\\T")
          ∈ profiles.map fun p => (p.sid, p.profilePath) := by
        rw [hlist]
        exact List.mem_cons_self ..
      obtain ⟨p, hp, hpair⟩ := List.mem_map.mp hin
      exact ⟨p, hp, (Prod.mk.inj hpair).1⟩
    refine ⟨profiles, doubledScan.2, Prod.ext doubledRun_unit rfl, Prod.ext hscan rfl, ?_, hshown,
      fun h => ?_⟩
    · intro n k bak hin hcanonical hbak
      have hcases : (n, k) ∈ doubledKeys.entries := hin
      simp only [doubledKeys, List.mem_cons, Prod.mk.injEq, List.not_mem_nil, or_false] at hcases
      rcases hcases with ⟨rfl, _⟩ | ⟨rfl, _⟩
      · exact absurd rfl hcanonical
      · exact absurd rfl hbak
    · obtain ⟨p, hp, hsid⟩ := hshown
      exact h.preserved p hp _ hsid

/-- The `.bak` key alone. -/
def aloneKeys : NameTable calmPlatform.fold RegKey := sampleKeys

def aloneRun : Except RepairError Unit × Machine calmPlatform :=
  executePlan samplePlan false { profileList := aloneKeys }

def aloneScan : Except ScannerError (List UserProfile) × Machine calmPlatform :=
  scanAllProfiles bareHost aloneRun.2

theorem aloneRun_ok : (aloneRun.1.toBool, aloneScan.1.toBool) = (true, true) := by decide +kernel

/-- Where the account has its `.bak` key alone, the scan shows it repaired. -/
theorem rescan_iff_sample : ∃ profiles m'',
    scanAllProfiles bareHost aloneRun.2 = (.ok profiles, m'') ∧
    ShowsRepaired samplePlan aloneKeys profiles := by
  obtain ⟨hrunOk, hscanOk⟩ := Prod.mk.inj aloneRun_ok
  have hrun : aloneRun.1 = .ok () := by
    cases h : aloneRun.1 with
    | ok _ => rfl
    | error e =>
      rw [h] at hrunOk
      cases hrunOk
  obtain ⟨profiles, hscan⟩ : ∃ profiles, aloneScan.1 = .ok profiles := by
    cases h : aloneScan.1 with
    | ok profiles => exact ⟨profiles, rfl⟩
    | error e =>
      rw [h] at hscanOk
      cases hscanOk
  have hentries : ∀ {n k}, (n, k) ∈ aloneKeys.entries → n = samplePlan.bakName := fun hin => by
    simp only [aloneKeys, sampleKeys, List.mem_singleton, Prod.mk.injEq] at hin
    exact hin.1
  have hapart : PathsApart samplePlan aloneKeys := fun n k bak hin _ hbak => by
    exact absurd (congrArg _ (hentries hin)) hbak
  have honly : OnlyBak samplePlan aloneKeys := by
    refine ⟨by decide +kernel, fun n hn _ => ?_⟩
    obtain ⟨k, hk⟩ := mem_keyNames.mp hn
    rw [hentries hk]
  exact ⟨profiles, aloneScan.2, Prod.ext hscan rfl,
    (rescan_iff bareHost aloneKeys [] 0 samplePlan false aloneRun.2 aloneScan.2 profiles rfl rfl
      (by decide) hapart (Prod.ext hrun rfl) (fun _ _ => rfl) (Prod.ext hscan rfl)).mpr honly⟩

end WinProfile
