/-
  File:      WinProfile/Repair/Atomic.lean
  Subject:   A repair is atomic: whatever call fails, a repair that reports an error and whose
             rollback went through leaves `ProfileList` as it was.

  * `Quiet` -- the calls that read only, and everything made of them.
  * `Captures`, `restoreRegistrySnapshot_spec` -- a snapshot of a key, and what its restore does.
  * `Progress` -- what `execute_steps` may have done at any interruption, in terms of the mutation
    record; `executeSteps_spec` keeps it, `rollback_spec` undoes it.
  * `executePlan_atomic` -- the transaction.
-/
import WinProfile.Repair.Engine

namespace WinProfile

variable {P : Platform} {ε ε' α β : Type}

/-! ## 1. Calls that read only -/

/-- The registry and the records of the transaction are the same. -/
structure SameKeys (m m' : Machine P) : Prop where
  keys : m'.profileList = m.profileList
  mutated : m'.mutated = m.mutated
  undone : m'.undone = m.undone
  mutation : m'.mutation = m.mutation

theorem SameKeys.rfl' (m : Machine P) : SameKeys m m := ⟨rfl, rfl, rfl, rfl⟩

theorem SameKeys.trans (a b c : Machine P) (h : SameKeys a b) (h' : SameKeys b c) :
    SameKeys a c :=
  ⟨h'.keys.trans h.keys, h'.mutated.trans h.mutated, h'.undone.trans h.undone,
    h'.mutation.trans h.mutation⟩

theorem sameKeys_tick (m : Machine P) : SameKeys m m.tick := ⟨rfl, rfl, rfl, rfl⟩

/-- The computation leaves the registry alone, whether it fails or not. -/
def Quiet (act : Act (Machine P) ε α) : Prop := Act.Keeps SameKeys act

@[simp] theorem quiet_pure (a : α) : Quiet (pure a : Act (Machine P) ε α) :=
  Act.keeps_pure SameKeys.rfl' a

@[simp] theorem quiet_fail (e : ε) : Quiet (Act.fail e : Act (Machine P) ε α) :=
  Act.keeps_fail SameKeys.rfl' e

@[simp] theorem quiet_read : Quiet (Act.read : Act (Machine P) ε (Machine P)) :=
  Act.keeps_read SameKeys.rfl'

@[simp] theorem quiet_guard (c : Bool) (e : ε) : Quiet (Act.guard c e : Act (Machine P) ε Unit) :=
  Act.keeps_guard SameKeys.rfl' c e

@[simp] theorem quiet_ofExcept (r : Except ε α) : Quiet (Act.ofExcept r : Act (Machine P) ε α) :=
  Act.keeps_ofExcept SameKeys.rfl' r

@[simp] theorem quiet_when {act : Act (Machine P) ε Unit} (c : Bool) (h : Quiet act) :
    Quiet (Act.when c act) := Act.Keeps.when SameKeys.rfl' h c

@[simp] theorem quiet_attempt {act : Act (Machine P) ε α} (h : Quiet act) :
    Quiet (Act.attempt act : Act (Machine P) ε' (Except ε α)) := Act.Keeps.attempt h

@[simp] theorem quiet_mapErr {act : Act (Machine P) ε α} (f : ε → ε') (h : Quiet act) :
    Quiet (Act.mapErr f act) := Act.Keeps.mapErr h f

@[simp] theorem quiet_ite {c : Prop} [Decidable c] {act act' : Act (Machine P) ε α}
    (h : Quiet act) (h' : Quiet act') : Quiet (if c then act else act') := Act.Keeps.ite h h'

@[simp] theorem quiet_bind {act : Act (Machine P) ε α} {f : α → Act (Machine P) ε β}
    (h : Quiet act) (hf : ∀ a, Quiet (f a)) : Quiet (act >>= f) :=
  Act.Keeps.bind SameKeys.trans h hf

theorem quiet_call {onFault : Fault → ε} {body : Act (Machine P) ε α} (h : Quiet body) :
    Quiet (call onFault body) := by
  intro m
  unfold call
  split
  · exact sameKeys_tick m
  · exact SameKeys.trans m m.tick _ (sameKeys_tick m) (h m.tick)

@[simp] theorem quiet_external : Quiet (external : Act (Machine P) String Unit) :=
  quiet_call (quiet_pure ())

@[simp] theorem quiet_openKeyRaw (target : Option HKey) :
    Quiet (openKeyRaw target : Act (Machine P) RegistryError HKey) := by
  refine quiet_call fun m => ?_
  cases target with
  | none => exact SameKeys.rfl' m
  | some key =>
    dsimp only
    split <;> exact SameKeys.rfl' m

@[simp] theorem quiet_openKey (root : RegistryRoot) (path : String) :
    Quiet (openKey root path : Act (Machine P) RegistryError HKey) := quiet_openKeyRaw _

@[simp] theorem quiet_openSubkey (parent : HKey) (name : String) :
    Quiet (openSubkey parent name : Act (Machine P) RegistryError HKey) := quiet_openKeyRaw _

@[simp] theorem quiet_subkeyExists (parent : HKey) (name : String) :
    Quiet (subkeyExists parent name : Act (Machine P) RegistryError Bool) := by
  refine quiet_bind (quiet_attempt (quiet_openSubkey parent name)) fun r => ?_
  split <;> simp

@[simp] theorem quiet_regQueryValue (key : HKey) (name : String) :
    Quiet (regQueryValue key name : Act (Machine P) RegistryError RegValue) := by
  refine quiet_call fun m => ?_
  split
  · exact SameKeys.rfl' m
  · split <;> exact SameKeys.rfl' m

@[simp] theorem quiet_queryValueU32 (key : HKey) (name : String) :
    Quiet (queryValueU32 key name : Act (Machine P) RegistryError UInt32) := by
  unfold queryValueU32
  refine quiet_bind (by simp) fun _ => ?_
  exact quiet_ite (quiet_fail _) (quiet_ite (quiet_pure _) (quiet_fail _))

@[simp] theorem quiet_queryValueString (key : HKey) (name : String) :
    Quiet (queryValueString key name : Act (Machine P) RegistryError String) := by
  unfold queryValueString
  refine quiet_bind (by simp) fun _ => ?_
  exact quiet_ite (quiet_fail _) (quiet_bind (by simp) fun _ => by simp)

@[simp] theorem quiet_saveKey (key : HKey) :
    Quiet (saveKey key : Act (Machine P) RegistryError RegKey) := by
  refine quiet_call fun m => ?_
  split <;> exact SameKeys.rfl' m

@[simp] theorem quiet_auditLog (operation target : String) (status : AuditStatus)
    (details : String) :
    Quiet (auditLog operation target status details : Act (Machine P) String Unit) :=
  quiet_call fun _ => ⟨rfl, rfl, rfl, rfl⟩

@[simp] theorem quiet_liftReg {act : Act (Machine P) RegistryError α} (h : Quiet act) :
    Quiet (liftReg act) := quiet_mapErr _ h

@[simp] theorem quiet_validateLockContract (plan : RepairPlan) :
    Quiet (validateLockContract plan : RepairM P Unit) := by
  unfold validateLockContract
  refine quiet_ite (quiet_fail _) (quiet_bind quiet_read fun m => ?_)
  refine quiet_bind sameKeys_tick fun _ => ?_
  split <;> simp

@[simp] theorem quiet_validateSelectedActions (plan : RepairPlan) :
    Quiet (validateSelectedActions plan : RepairM P Unit) := quiet_guard _ _

@[simp] theorem quiet_validateRequiredKeys (plan : RepairPlan) (parent : HKey) :
    Quiet (validateRequiredKeys plan parent : RepairM P Unit) := by
  unfold validateRequiredKeys
  refine quiet_ite ?_ (quiet_when _ (quiet_bind (by simp) fun _ => by simp))
  iterate 4 refine quiet_bind (by simp) fun _ => ?_
  simp

@[simp] theorem quiet_validatePlan (plan : RepairPlan) (isLoaded : Bool) :
    Quiet (validatePlan plan isLoaded : RepairM P String) := by
  unfold validatePlan
  iterate 13 refine quiet_bind (by simp) fun _ => ?_
  simp

theorem quiet_preflight (plan : RepairPlan) (isLoaded : Bool) :
    Quiet (preflight plan isLoaded : RepairM P String) := by
  unfold preflight
  iterate 6 refine quiet_bind (by simp) fun _ => ?_
  simp

theorem quiet_verify (plan : RepairPlan) (parent : HKey) :
    Quiet (verify plan parent : RepairM P Unit) := by
  unfold verify
  refine quiet_bind (by simp) fun _ => quiet_bind (by simp) fun _ => ?_
  refine quiet_bind (quiet_when _ (quiet_bind (by simp) fun _ => by simp)) fun _ => ?_
  iterate 3 refine quiet_bind (by simp) fun _ => ?_
  refine quiet_when _ ?_
  iterate 2 refine quiet_bind (by simp) fun _ => ?_
  simp

@[simp] theorem quiet_createRegistrySnapshot (subkey sid profilePath reason : String) :
    Quiet (createRegistrySnapshot subkey sid profilePath reason :
      Act (Machine P) SnapshotError SnapshotMetadata) := by
  have hcapture : Quiet (captureKey subkey sid profilePath reason :
      Act (Machine P) SnapshotError SnapshotMetadata) := by
    unfold captureKey
    iterate 8 refine quiet_bind (by simp) fun _ => ?_
    simp
  unfold createRegistrySnapshot
  refine quiet_bind (by simp) fun _ => quiet_bind (by simp) fun _ => ?_
  refine quiet_bind (quiet_attempt hcapture) fun r => quiet_bind (by simp) fun r' => ?_
  split <;> simp

/-! ## 2. What single calls answer and change -/

section Calls

variable {m : Machine P}

theorem wp_call {Q : α → Machine P → Prop} {E : ε → Machine P → Prop} {onFault : Fault → ε}
    {body : Act (Machine P) ε α} (hfault : ∀ f, E (onFault f) m.tick)
    (hbody : Act.wp body Q E m.tick) : Act.wp (call onFault body) Q E m := by
  cases h : P.fault m.clock with
  | some f => exact Act.wp_of_error (by rw [call, h]) (hfault f)
  | none =>
    unfold Act.wp call at *
    rw [h]
    exact hbody

/-- A read-only computation, when all that is asked of the end follows from `SameKeys`. -/
theorem Quiet.wp {act : Act (Machine P) ε α} (h : Quiet act) {Q : α → Machine P → Prop}
    {E : ε → Machine P → Prop} (hQ : ∀ a m', SameKeys m m' → Q a m')
    (hE : ∀ e m', SameKeys m m' → E e m') : Act.wp act Q E m :=
  Act.wp_mono (Act.keeps_iff_wp.mp h m) hQ hE

/-- A read-only first step. -/
theorem Quiet.wp_bind {act : Act (Machine P) ε α} {f : α → Act (Machine P) ε β} (h : Quiet act)
    {Q : β → Machine P → Prop} {E : ε → Machine P → Prop} (hE : ∀ e m', SameKeys m m' → E e m')
    (hQ : ∀ a m', SameKeys m m' → Act.wp (f a) Q E m') : Act.wp (act >>= f) Q E m :=
  (Act.wp_bind act f).mpr (h.wp hQ hE)

theorem wp_openKeyRaw {Q : HKey → Machine P → Prop} {E : RegistryError → Machine P → Prop}
    {key : HKey} (hE : ∀ e, E e m.tick) (hQ : m.hasKey key → Q key m.tick) :
    Act.wp (openKeyRaw (some key)) Q E m := by
  unfold openKeyRaw regCall
  refine wp_call (fun f => hE _) ?_
  by_cases h : m.tick.hasKey key
  · exact Act.wp_of_ok (if_pos h) (hQ h)
  · exact Act.wp_of_error (if_neg h) (hE _)

theorem wp_openSubkey {Q : HKey → Machine P → Prop} {E : RegistryError → Machine P → Prop}
    {name : String} (hE : ∀ e, E e m.tick)
    (hQ : (m.profileList.find name).isSome → Q (.profile name) m.tick) :
    Act.wp (openSubkey .profileList name) Q E m := by
  exact wp_openKeyRaw hE hQ

/-- `subkey_exists` under `ProfileList` answers whether the name is there, or fails. -/
theorem wp_subkeyExists {Q : Bool → Machine P → Prop} {E : RegistryError → Machine P → Prop}
    {name : String} (hE : ∀ e, E e m.tick) (hQ : Q (m.profileList.find name).isSome m.tick) :
    Act.wp (subkeyExists .profileList name) Q E m := by
  unfold subkeyExists openSubkey openKeyRaw regCall
  refine (Act.wp_bind _ _).mpr ((Act.wp_attempt _).mpr (wp_call (fun f => ?_) ?_))
  · simpa [f.real.2] using hE _
  · by_cases h : (m.profileList.find name).isSome
    · rw [h] at hQ
      exact Act.wp_of_ok (if_pos h) ((Act.wp_pure true).mpr hQ)
    · refine Act.wp_of_error (if_neg h) ?_
      rw [Bool.not_eq_true] at h
      rw [h] at hQ
      simpa using hQ

theorem wp_renameSubkey {Q : Unit → Machine P → Prop} {E : RegistryError → Machine P → Prop}
    {old new : String} (hE : ∀ e, E e m.tick)
    (hQ : ∀ t, m.profileList.rename old new = some t →
      Q () { m.tick.setKeys t with mutated := true }) :
    Act.wp (renameSubkey old new) Q E m := by
  unfold renameSubkey regCall
  refine wp_call (fun f => hE _) ?_
  cases h : m.tick.profileList.rename old new with
  | some t => exact Act.wp_of_ok (by rw [h]) (hQ t h)
  | none =>
    by_cases hold : (m.tick.profileList.find old).isSome
    · exact Act.wp_of_error (by rw [h]; exact if_pos hold) (hE _)
    · exact Act.wp_of_error (by rw [h]; exact if_neg hold) (hE _)

theorem wp_setValueU32 {Q : Unit → Machine P → Prop} {E : RegistryError → Machine P → Prop}
    {keyName name : String} {val : UInt32} (hE : ∀ e, E e m.tick)
    (hQ : ∀ k', (m.profileList.find keyName).isSome →
      Q () { m.tick.setKeys (m.profileList.put keyName k') with mutated := true }) :
    Act.wp (setValueU32 (.profile keyName) name val) Q E m := by
  unfold setValueU32 regCall
  refine wp_call (fun f => hE _) ?_
  cases h : m.tick.keyOf (.profile keyName) with
  | some k => exact Act.wp_of_ok (by rw [h]; rfl) (hQ _ (Option.isSome_of_eq_some h))
  | none => exact Act.wp_of_error (by rw [h]) (hE _)

theorem wp_saveKey {Q : RegKey → Machine P → Prop} {E : RegistryError → Machine P → Prop}
    {name : String} (hE : ∀ e, E e m.tick)
    (hQ : ∀ k, m.profileList.find name = some k → Q k m.tick) :
    Act.wp (saveKey (.profile name)) Q E m := by
  unfold saveKey regCall
  refine wp_call (fun f => hE _) ?_
  cases h : m.tick.keyOf (.profile name) with
  | some k => exact Act.wp_of_ok (by rw [h]) (hQ k h)
  | none => exact Act.wp_of_error (by rw [h]) (hE _)

theorem wp_createKey {Q : HKey → Machine P → Prop} {E : RegistryError → Machine P → Prop}
    {name : String} (hE : ∀ e, E e m.tick)
    (hthere : (m.profileList.find name).isSome → Q (.profile name) m.tick)
    (hnew : m.profileList.find name = none →
      Q (.profile name) (m.tick.setKeys (m.profileList.put name .empty))) :
    Act.wp (createKey .profileList name) Q E m := by
  unfold createKey regCall
  refine wp_call (fun f => hE _) ?_
  by_cases h : (m.tick.profileList.find name).isSome
  · exact Act.wp_of_ok (if_pos h) (hthere h)
  · exact Act.wp_of_ok (if_neg h) (hnew (Option.not_isSome_iff_eq_none.mp h))

theorem wp_regRestoreKey {Q : Unit → Machine P → Prop} {E : RegistryError → Machine P → Prop}
    {name : String} {hive : RegKey} (hE : ∀ e, E e m.tick)
    (hQ : Q () (m.tick.setKeys (m.profileList.put name hive))) :
    Act.wp (regRestoreKey (.profile name) hive) Q E m := by
  unfold regRestoreKey regCall
  exact wp_call (fun f => hE _) (Act.wp_of_ok rfl hQ)

end Calls

/-! ## 3. Snapshots and their restore -/

/-- The path of a profile's key under HKLM. -/
def profilePathOf (name : String) : String := REG_KEY_PROFILE_LIST ++ "\\" ++ name

theorem resolve_profileList : resolve .localMachine REG_KEY_PROFILE_LIST = some .profileList := by
  simp [resolve]

theorem resolve_profile {name : String} (h : '\\' ∉ name.toList) :
    resolve .localMachine (profilePathOf name) = some (.profile name) := by
  have hne : profilePathOf name ≠ REG_KEY_PROFILE_LIST := fun e => by
    have := congrArg String.length e
    simp only [profilePathOf, String.length_append] at this
    have : "\\".length = 1 := rfl
    omega
  simp only [resolve, if_neg hne]
  simp only [profilePathOf, stripFront_append, if_neg h]

/-- The snapshot holds the key `name` of `t`, and rollback can tell. -/
structure Captures (P : Platform) (t : NameTable P.fold RegKey) (snapshot : RepairSnapshot)
    (name : String) : Prop where
  plain : '\\' ∉ name.toList
  target : snapshot.expectedRegistryKeyPath = "HKLM\\" ++ profilePathOf name
  path : snapshot.metadata.registryKeyPath = "HKLM\\" ++ profilePathOf name
  artifact : ∃ hive identity, snapshot.metadata.protectedArtifact = some ⟨hive, identity⟩ ∧
    snapshot.metadata.fileVolumeSerial = identity.volumeSerial ∧
    snapshot.metadata.fileIndex = identity.fileIndex ∧
    snapshot.metadata.sha256 = P.sha256 hive ∧ t.find name = some hive

/-- A snapshot that succeeds captures the key as it is. -/
theorem captureKey_spec {name sid profilePath reason : String} (h : '\\' ∉ name.toList)
    (m : Machine P) : Act.wp (captureKey (profilePathOf name) sid profilePath reason)
      (fun metadata _ => Captures P m.profileList ⟨metadata, "HKLM\\" ++ profilePathOf name⟩ name)
      (fun _ _ => True) m := by
  unfold captureKey openKey
  rw [resolve_profile h]
  refine (quiet_mapErr _ quiet_external).wp_bind (fun _ _ _ => trivial) fun _ m₁ h₁ => ?_
  refine (Act.wp_bind _ _).mpr ((Act.wp_mapErr _ _).mpr (wp_openKeyRaw (fun _ => trivial) ?_))
  intro _
  refine (Act.wp_bind _ _).mpr ((Act.wp_mapErr _ _).mpr (wp_saveKey (fun _ => trivial) ?_))
  intro hive hhive
  iterate 2
    refine (quiet_mapErr _ quiet_external).wp_bind (fun _ _ _ => trivial) fun _ _ _ => ?_
  refine (Act.wp_bind _ _).mpr (Act.wp_read.mpr ?_)
  iterate 2
    refine (quiet_mapErr _ quiet_external).wp_bind (fun _ _ _ => trivial) fun _ _ _ => ?_
  refine (Act.wp_pure _).mpr ⟨h, rfl, rfl, hive, _, rfl, rfl, rfl, rfl, ?_⟩
  rw [← h₁.keys]
  exact hhive

theorem createRegistrySnapshot_spec {name sid profilePath reason : String}
    (h : '\\' ∉ name.toList) (m : Machine P) :
    Act.wp (createRegistrySnapshot (profilePathOf name) sid profilePath reason)
      (fun metadata _ => Captures P m.profileList ⟨metadata, "HKLM\\" ++ profilePathOf name⟩ name)
      (fun _ _ => True) m := by
  unfold createRegistrySnapshot
  refine (quiet_mapErr _ quiet_external).wp_bind (fun _ _ _ => trivial) fun _ m₁ h₁ => ?_
  refine (quiet_mapErr _ quiet_external).wp_bind (fun _ _ _ => trivial) fun _ m₂ h₂ => ?_
  have hkeys : m₂.profileList = m.profileList := h₂.keys.trans h₁.keys
  refine (Act.wp_bind _ _).mpr ((Act.wp_attempt _).mpr ?_)
  refine Act.wp_mono (captureKey_spec h m₂) (fun metadata m₃ hcap => ?_) (fun e m₃ _ => ?_)
  · rw [hkeys] at hcap
    refine (quiet_attempt quiet_external).wp_bind (fun _ _ _ => trivial) fun r _ _ => ?_
    cases r with
    | ok _ => exact (Act.wp_pure metadata).mpr hcap
    | error _ => exact (Act.wp_fail _).mpr trivial
  · refine (quiet_attempt quiet_external).wp_bind (fun _ _ _ => trivial) fun r _ _ => ?_
    cases r <;> exact (Act.wp_fail _).mpr trivial

/-- What an attempt to restore the key `name` of `t₀` may do, whether it succeeds or not. -/
structure RestoreEffect (t₀ : NameTable P.fold RegKey) (name : String) (m m' : Machine P) :
    Prop where
  mutated : m'.mutated = m.mutated
  undone : m'.undone = m.undone
  mutation : m'.mutation = m.mutation
  others : ∀ k, P.fold k ≠ P.fold name → m'.profileList.find k = m.profileList.find k
  still : m.profileList.find name = t₀.find name → m'.profileList.find name = t₀.find name

section Restore

variable {t₀ : NameTable P.fold RegKey} {name : String} {m m' m'' : Machine P}

theorem SameKeys.restoreEffect (h : SameKeys m m') : RestoreEffect t₀ name m m' :=
  ⟨h.mutated, h.undone, h.mutation, fun _ _ => by rw [h.keys], fun e => by rw [h.keys]; exact e⟩

theorem RestoreEffect.trans (h : RestoreEffect t₀ name m m') (h' : RestoreEffect t₀ name m' m'') :
    RestoreEffect t₀ name m m'' :=
  ⟨h'.mutated.trans h.mutated, h'.undone.trans h.undone, h'.mutation.trans h.mutation,
    fun k hk => (h'.others k hk).trans (h.others k hk), fun e => h'.still (h.still e)⟩

theorem restoreEffect_put {k : RegKey} (hk : m.profileList.find name = t₀.find name →
      some k = t₀.find name) :
    RestoreEffect t₀ name m (m.tick.setKeys (m.profileList.put name k)) := by
  refine ⟨rfl, rfl, rfl, fun n hn => ?_, fun h => ?_⟩
  · exact (NameTable.find_put _ _ _ _).trans (if_neg fun e => hn e.symm)
  · exact (NameTable.find_put _ _ _ _).trans ((if_pos rfl).trans (hk h))

theorem restoreHive_spec {hive : RegKey} (hhive : t₀.find name = some hive) (m : Machine P) :
    Act.wp (restoreHive hive REG_KEY_PROFILE_LIST name)
      (fun _ m' => RestoreEffect t₀ name m m' ∧ m'.profileList.find name = t₀.find name)
      (fun _ m' => RestoreEffect t₀ name m m') m := by
  unfold restoreHive openKey
  rw [resolve_profileList]
  refine (Act.wp_bind _ _).mpr ((Act.wp_mapErr _ _).mpr (wp_openKeyRaw (fun _ => ?_) fun _ => ?_))
  · exact (sameKeys_tick m).restoreEffect
  -- The restore itself, from whatever state the creation of the key left.
  have hrestore : ∀ m₁ : Machine P, RestoreEffect t₀ name m m₁ →
      Act.wp (regRestoreKey (.profile name) hive)
        (fun _ m' => RestoreEffect t₀ name m m' ∧ m'.profileList.find name = t₀.find name)
        (fun _ m' => RestoreEffect t₀ name m m') m₁ := by
    intro m₁ h₁
    refine wp_regRestoreKey (fun _ => h₁.trans (sameKeys_tick m₁).restoreEffect) ⟨?_, ?_⟩
    · exact h₁.trans (restoreEffect_put fun _ => hhive.symm)
    · exact (NameTable.find_put _ _ _ _).trans ((if_pos rfl).trans hhive.symm)
  have htick : RestoreEffect t₀ name m m.tick := (sameKeys_tick m).restoreEffect
  refine (Act.wp_bind _ _).mpr ((Act.wp_mapErr _ _).mpr
    (wp_createKey (fun _ => ?_) (fun _ => ?_) fun hnone => ?_))
  · exact htick.trans (sameKeys_tick m.tick).restoreEffect
  · exact (Act.wp_mapErr _ _).mpr
      (hrestore _ (htick.trans (sameKeys_tick m.tick).restoreEffect))
  · refine (Act.wp_mapErr _ _).mpr (hrestore _ (htick.trans (restoreEffect_put fun e => ?_)))
    rw [hnone, hhive] at e
    cases e

/-- A restore of a captured key touches only that key, and never one that is as captured; if it
succeeds, the key is as captured. -/
theorem restoreRegistrySnapshot_spec {snapshot : RepairSnapshot}
    (hcap : Captures P t₀ snapshot name) (m : Machine P) :
    Act.wp (restoreRegistrySnapshot snapshot.metadata snapshot.expectedRegistryKeyPath)
      (fun _ m' => RestoreEffect t₀ name m m' ∧ m'.profileList.find name = t₀.find name)
      (fun _ m' => RestoreEffect t₀ name m m') m := by
  obtain ⟨hive, identity, hart, hserial, hindex, hsha, hhive⟩ := hcap.artifact
  have hpath : rsplitOnce '\\' (profilePathOf name) = some (REG_KEY_PROFILE_LIST, name) :=
    rsplitOnce_append '\\' REG_KEY_PROFILE_LIST name hcap.plain
  have heffect : ∀ {a b c : Machine P}, RestoreEffect t₀ name a b → SameKeys b c →
      RestoreEffect t₀ name a c := fun h h' => h.trans h'.restoreEffect
  unfold restoreRegistrySnapshot restoreRegistryFile
  rw [hcap.target, hcap.path, hart, stripFront_append]
  simp only [eqIgnoreAsciiCase, beq_self_eq_true, Bool.not_true, Bool.false_eq_true, if_false,
    hserial, hindex, hsha, ne_eq, not_true, or_self, hpath]
  refine (quiet_mapErr _ quiet_external).wp_bind (fun _ _ h => h.restoreEffect) fun _ m₁ h₁ => ?_
  refine (quiet_mapErr _ quiet_external).wp_bind
    (fun _ _ h => heffect h₁.restoreEffect h) fun _ m₂ h₂ => ?_
  refine (quiet_mapErr _ quiet_external).wp_bind
    (fun _ _ h => heffect (heffect h₁.restoreEffect h₂) h) fun _ m₃ h₃ => ?_
  have hm₃ : RestoreEffect t₀ name m m₃ := heffect (heffect h₁.restoreEffect h₂) h₃
  refine (Act.wp_bind _ _).mpr ((Act.wp_attempt _).mpr
    (Act.wp_mono (restoreHive_spec hhive m₃) (fun _ m₄ h₄ => ?_) fun _ m₄ h₄ => ?_))
  · refine (quiet_attempt quiet_external).wp_bind
      (fun _ _ h => heffect (hm₃.trans h₄.1) h) fun r m₅ h₅ => ?_
    have hm₅ : RestoreEffect t₀ name m m₅ := heffect (hm₃.trans h₄.1) h₅
    cases r with
    | ok _ => exact (Act.wp_ofExcept _).mpr ⟨hm₅, by rw [h₅.keys]; exact h₄.2⟩
    | error _ => exact (Act.wp_ofExcept _).mpr hm₅
  · refine (quiet_attempt quiet_external).wp_bind
      (fun _ _ h => heffect (hm₃.trans h₄) h) fun r m₅ h₅ => ?_
    cases r <;> exact (Act.wp_ofExcept _).mpr (heffect (hm₃.trans h₄) h₅)

end Restore

/-! ## 4. What the steps may have done -/

section Names

variable (P)

theorem fold_canonical_ne_bak (plan : RepairPlan) :
    P.fold plan.canonicalSid ≠ P.fold plan.bakName := fun e => by
  have := congrArg List.length e
  simp [Platform.length_fold, RepairPlan.bakName, BAK_EXTENSION] at this

theorem fold_backup_ne_canonical (plan : RepairPlan) (timestamp : String) :
    P.fold (plan.backupName timestamp) ≠ P.fold plan.canonicalSid := fun e => by
  have := congrArg List.length e
  simp [Platform.length_fold, RepairPlan.backupName, BACKUP_SUFFIX] at this

theorem fold_backup_ne_bak (plan : RepairPlan) (timestamp : String) :
    P.fold (plan.backupName timestamp) ≠ P.fold plan.bakName := fun e => by
  have := congrArg List.length e
  simp [Platform.length_fold, RepairPlan.backupName, RepairPlan.bakName, BACKUP_SUFFIX,
    BAK_EXTENSION] at this

end Names

/-- Every name after a rename, as `NameTable.find_rename` has it. -/
def movedName (P : Platform) (find : String → Option RegKey) (old new : String) :
    String → Option RegKey :=
  fun k => if P.fold k = P.fold new then find old
    else if P.fold k = P.fold old then none else find k

/-- `ProfileList` after the first rename, if the record says it was made. -/
def asideKeys (plan : RepairPlan) (t₀ : NameTable P.fold RegKey) (backup : Option String) :
    String → Option RegKey :=
  match backup with
  | some K => movedName P t₀.find plan.canonicalSid K
  | none => t₀.find

/-- `ProfileList` after the renames that a mutation record claims. -/
def expectedKeys (plan : RepairPlan) (t₀ : NameTable P.fold RegKey) (mutation : RegistryMutation) :
    String → Option RegKey :=
  let aside := asideKeys plan t₀ mutation.canonicalBackup
  if mutation.bakMoved then movedName P aside plan.bakName plan.canonicalSid else aside

theorem movedName_congr {find : String → Option RegKey} {old new k k' : String}
    (hfind : find k = find k') (h : P.fold k = P.fold k') :
    movedName P find old new k = movedName P find old new k' := by
  rw [movedName, movedName, h, hfind]

/-- A name that a rename does not mention. -/
theorem movedName_other {find : String → Option RegKey} {old new k : String}
    (hnew : P.fold k ≠ P.fold new) (hold : P.fold k ≠ P.fold old) :
    movedName P find old new k = find k := by
  rw [movedName, if_neg hnew, if_neg hold]

theorem expectedKeys_congr {plan : RepairPlan} {t₀ : NameTable P.fold RegKey}
    {mutation : RegistryMutation} {k k' : String} (h : P.fold k = P.fold k') :
    expectedKeys plan t₀ mutation k = expectedKeys plan t₀ mutation k' := by
  have hfind : t₀.find k = t₀.find k' := t₀.find_congr h
  obtain ⟨bakMoved, backup⟩ := mutation
  cases bakMoved <;> cases backup
  · exact hfind
  · exact movedName_congr hfind h
  · exact movedName_congr hfind h
  · exact movedName_congr (movedName_congr hfind h) h

/-- **The invariant of `execute_steps`**: the mutation record tells the truth about every rename,
and only the canonical key, which some snapshot holds, can have other contents. -/
structure Progress (plan : RepairPlan) (t₀ : NameTable P.fold RegKey) (m : Machine P) : Prop where
  undone : m.undone = none
  backup : ∀ K, m.mutation.canonicalBackup = some K →
    P.fold K ≠ P.fold plan.canonicalSid ∧ P.fold K ≠ P.fold plan.bakName ∧ t₀.find K = none ∧
      (t₀.find plan.canonicalSid).isSome
  moved : m.mutation.bakMoved = true → plan.fixBak = true ∧ (t₀.find plan.bakName).isSome ∧
    (m.mutation.canonicalBackup = none → t₀.find plan.canonicalSid = none)
  others : ∀ k, P.fold k ≠ P.fold plan.canonicalSid →
    m.profileList.find k = expectedKeys plan t₀ m.mutation k
  canonical : m.profileList.find plan.canonicalSid
      = expectedKeys plan t₀ m.mutation plan.canonicalSid ∨
    (m.profileList.find plan.canonicalSid).isSome ∧
      (m.mutation.bakMoved = true ∨ plan.fixBak = false ∧ plan.resetState = true)
  untouched : m.mutated = false → m.mutation = {} ∧ ∀ k, m.profileList.find k = t₀.find k

section Steps

variable {plan : RepairPlan} {t₀ : NameTable P.fold RegKey} {m m' : Machine P}

theorem Progress.start (hkeys : m.profileList = t₀) (hundone : m.undone = none)
    (hmutation : m.mutation = {}) : Progress plan t₀ m where
  undone := hundone
  backup K h := by rw [hmutation] at h; cases h
  moved h := by rw [hmutation] at h; cases h
  others k _ := by rw [hmutation, hkeys]; rfl
  canonical := .inl (by rw [hmutation, hkeys]; rfl)
  untouched _ := ⟨hmutation, fun k => by rw [hkeys]⟩

theorem Progress.same (h : Progress plan t₀ m) (hs : SameKeys m m') : Progress plan t₀ m' where
  undone := hs.undone.trans h.undone
  backup := by rw [hs.mutation]; exact h.backup
  moved := by rw [hs.mutation]; exact h.moved
  others := by rw [hs.mutation, hs.keys]; exact h.others
  canonical := by rw [hs.mutation, hs.keys]; exact h.canonical
  untouched := by rw [hs.mutated, hs.mutation, hs.keys]; exact h.untouched

/-- The canonical key went aside. -/
theorem Progress.preserved {timestamp : String}
    (hrename : t₀.rename plan.canonicalSid (plan.backupName timestamp) = some m.profileList)
    (hundone : m.undone = none) (hmutated : m.mutated = true)
    (hmutation : m.mutation = ⟨false, some (plan.backupName timestamp)⟩) : Progress plan t₀ m := by
  have hfind := NameTable.find_rename hrename
  have hfree := NameTable.rename_isSome.mp (Option.isSome_of_eq_some hrename)
  refine ⟨hundone, ?_, ?_, ?_, .inl ?_, ?_⟩
  · intro K hK
    rw [hmutation] at hK
    cases hK
    exact ⟨fold_backup_ne_canonical P plan _, fold_backup_ne_bak P plan _, hfree.2, hfree.1⟩
  · intro h
    rw [hmutation] at h
    cases h
  · intro k _
    rw [hmutation]
    exact hfind k
  · rw [hmutation]
    exact hfind plan.canonicalSid
  · intro h
    rw [hmutated] at h
    cases h

/-- Moving the canonical key aside does not concern the `.bak` key. -/
theorem Progress.asideKeys_bak (h : Progress plan t₀ m) :
    asideKeys plan t₀ m.mutation.canonicalBackup plan.bakName = t₀.find plan.bakName := by
  cases hK : m.mutation.canonicalBackup with
  | none => rfl
  | some K => exact movedName_other (h.backup K hK).2.1.symm (fold_canonical_ne_bak P plan).symm

/-- The `.bak` key took the canonical name, after `m`. -/
theorem Progress.movedBak (h : Progress plan t₀ m) (hfix : plan.fixBak = true)
    (hbefore : m.mutation.bakMoved = false)
    (hrename : m.profileList.rename plan.bakName plan.canonicalSid = some m'.profileList)
    (hundone : m'.undone = none) (hmutated : m'.mutated = true)
    (hmutation : m'.mutation = { m.mutation with bakMoved := true }) : Progress plan t₀ m' := by
  obtain ⟨hbak, hnone⟩ := NameTable.rename_isSome.mp (Option.isSome_of_eq_some hrename)
  -- Before the rename no contents had changed, so the table is exactly the expected one.
  have hexact : m.profileList.find = expectedKeys plan t₀ m.mutation := by
    funext k
    by_cases hk : P.fold k = P.fold plan.canonicalSid
    · rw [m.profileList.find_congr hk, expectedKeys_congr hk]
      rcases h.canonical with hc | hc
      · exact hc
      · rw [hnone] at hc
        cases hc.1
    · exact h.others k hk
  have hafter : ∀ k, m'.profileList.find k = expectedKeys plan t₀ m'.mutation k := by
    intro k
    have hlast : expectedKeys plan t₀ m'.mutation
        = movedName P (expectedKeys plan t₀ m.mutation) plan.bakName plan.canonicalSid := by
      simp [expectedKeys, hmutation, hbefore]
    rw [hlast, ← hexact]
    exact NameTable.find_rename hrename k
  have hbackup : ∀ K, m'.mutation.canonicalBackup = some K →
      m.mutation.canonicalBackup = some K := by
    intro K hK
    rw [hmutation] at hK
    exact hK
  refine ⟨hundone, fun K hK => h.backup K (hbackup K hK), fun _ => ⟨hfix, ?_, ?_⟩,
    fun k _ => hafter k, .inl (hafter _), ?_⟩
  · rw [hexact] at hbak
    simpa [expectedKeys, hbefore, h.asideKeys_bak] using hbak
  · intro hK
    rw [hmutation] at hK
    rw [hexact] at hnone
    have hK' : m.mutation.canonicalBackup = none := hK
    simpa [expectedKeys, asideKeys, hbefore, hK'] using hnone
  · intro e
    rw [hmutated] at e
    cases e

/-- A value write on the canonical key, once it is the key of the `.bak` copy or the only target. -/
theorem Progress.setValue {k' : RegKey} (h : Progress plan t₀ m)
    (hwhen : m.mutation.bakMoved = true ∨ plan.fixBak = false ∧ plan.resetState = true)
    (hkeys : m'.profileList = m.profileList.put plan.canonicalSid k')
    (hundone : m'.undone = m.undone) (hmutated : m'.mutated = true)
    (hmutation : m'.mutation = m.mutation) : Progress plan t₀ m' := by
  have hput := fun k => m.profileList.find_put plan.canonicalSid k k'
  rw [← hkeys] at hput
  refine ⟨hundone.trans h.undone, ?_, ?_, ?_, .inr ⟨?_, ?_⟩, ?_⟩
  · rw [hmutation]
    exact h.backup
  · rw [hmutation]
    exact h.moved
  · intro k hk
    rw [hmutation, hput, if_neg fun e => hk e.symm]
    exact h.others k hk
  · rw [hput, if_pos rfl]
    rfl
  · rw [hmutation]
    exact hwhen
  · intro e
    rw [hmutated] at e
    cases e

theorem preserveCanonical_spec (hkeys : m.profileList = t₀) (hundone : m.undone = none)
    (hmutation : m.mutation = {}) :
    Act.wp (preserveCanonical plan .profileList)
      (fun _ m' => Progress plan t₀ m' ∧ m'.mutation.bakMoved = false)
      (fun _ m' => Progress plan t₀ m') m := by
  unfold preserveCanonical liftReg
  have hstart : Progress plan t₀ m := .start hkeys hundone hmutation
  have h₁ : Progress plan t₀ m.tick := hstart.same (sameKeys_tick m)
  have h₂ : Progress plan t₀ m.tick.tick := h₁.same (sameKeys_tick m.tick)
  refine (Act.wp_bind _ _).mpr ((Act.wp_mapErr _ _).mpr (wp_subkeyExists (fun _ => h₁) ?_))
  rw [Act.wp_when]
  split
  · refine (Act.wp_bind _ _).mpr (Act.wp_read.mpr ?_)
    refine (Act.wp_bind _ _).mpr ((Act.wp_mapErr _ _).mpr (wp_subkeyExists (fun _ => h₂) ?_))
    refine (Act.wp_bind _ _).mpr ((Act.wp_guard _ _).mpr ?_)
    split
    · refine (Act.wp_bind _ _).mpr ((Act.wp_mapErr _ _).mpr
        (wp_renameSubkey (fun _ => h₂.same (sameKeys_tick _)) fun t ht => ?_))
      have hrename : t₀.rename plan.canonicalSid (plan.backupName (P.now m.tick.clock)) = some t := by
        rw [← hkeys]
        exact ht
      have hmoved : m.mutation.bakMoved = false := by rw [hmutation]
      exact (Act.wp_update _).mpr
        ⟨.preserved hrename hundone rfl (by rw [← hmoved]; rfl), hmoved⟩
    · exact h₂
  · exact ⟨h₁, by rw [show m.tick.mutation = {} from hmutation]⟩

/-- The resets need the canonical key to be the moved copy, or the plan's only target. -/
theorem resetValues_spec (h : Progress plan t₀ m)
    (hwhen : m.mutation.bakMoved = true ∨ plan.fixBak = false ∧ plan.resetState = true) :
    Act.wp (resetValues plan .profileList) (fun _ m' => Progress plan t₀ m')
      (fun _ m' => Progress plan t₀ m') m := by
  unfold resetValues liftReg
  have h₁ := h.same (sameKeys_tick m)
  refine (Act.wp_bind _ _).mpr ((Act.wp_mapErr _ _).mpr (wp_openSubkey (fun _ => h₁) fun _ => ?_))
  refine (Act.wp_bind _ _).mpr ((Act.wp_mapErr _ _).mpr
    (wp_setValueU32 (fun _ => h₁.same (sameKeys_tick _)) fun k' _ => ?_))
  have h₂ : Progress plan t₀ { m.tick.tick.setKeys
      (m.tick.profileList.put plan.canonicalSid k') with mutated := true } :=
    h₁.setValue hwhen rfl rfl rfl rfl
  refine (Act.wp_mapErr _ _).mpr
    (wp_setValueU32 (fun _ => h₂.same (sameKeys_tick _)) fun k'' _ => ?_)
  exact h₂.setValue hwhen rfl rfl rfl rfl

/-- **Whatever call of `execute_steps` fails**, the mutation record is true of the registry. -/
theorem executeSteps_spec (hkeys : m.profileList = t₀) (hundone : m.undone = none)
    (hmutation : m.mutation = {}) :
    Act.wp (executeSteps plan .profileList) (fun _ m' => Progress plan t₀ m')
      (fun _ m' => Progress plan t₀ m') m := by
  have hend : ∀ m₁ : Machine P, Progress plan t₀ m₁ →
      (m₁.mutation.bakMoved = true ∨ plan.fixBak = false) →
      Act.wp (Act.when plan.resetState (resetValues plan .profileList) >>=
          fun _ => verify plan .profileList)
        (fun _ m' => Progress plan t₀ m') (fun _ m' => Progress plan t₀ m') m₁ := by
    intro m₁ h₁ hwhen
    have hverify : ∀ m₂ : Machine P, Progress plan t₀ m₂ →
        Act.wp (verify plan .profileList) (fun _ m' => Progress plan t₀ m')
          (fun _ m' => Progress plan t₀ m') m₂ := fun m₂ h₂ =>
      (quiet_verify plan .profileList).wp (fun _ _ h => h₂.same h) (fun _ _ h => h₂.same h)
    refine (Act.wp_bind _ _).mpr ((Act.wp_when _ _).mpr ?_)
    split
    · next hr =>
      exact Act.wp_mono (resetValues_spec h₁ (hwhen.imp_right fun h => ⟨h, hr⟩))
        (fun _ m₂ h₂ => hverify m₂ h₂) (fun _ _ h => h)
    · exact hverify m₁ h₁
  unfold executeSteps
  refine (Act.wp_bind _ _).mpr ((Act.wp_when _ _).mpr ?_)
  split
  · next hfix =>
    refine (Act.wp_bind _ _).mpr (Act.wp_mono (preserveCanonical_spec hkeys hundone hmutation)
      (fun _ m₁ h₁ => ?_) (fun _ _ h => h))
    refine (Act.wp_bind _ _).mpr ((Act.wp_mapErr _ _).mpr
      (wp_renameSubkey (fun _ => h₁.1.same (sameKeys_tick _)) fun t ht => ?_))
    exact (Act.wp_update _).mpr
      (hend _ (h₁.1.movedBak hfix h₁.2 ht h₁.1.undone rfl rfl) (.inl rfl))
  · next hfix =>
    exact hend m (.start hkeys hundone hmutation) (.inr (by simpa using hfix))

end Steps

/-! ## 5. Rollback -/

section Rollback

variable {plan : RepairPlan} {t₀ : NameTable P.fold RegKey} {m m' : Machine P}

theorem wp_renameBack {Q : List String → Machine P → Prop} {E : RepairError → Machine P → Prop}
    {old new onRename onInspect : String}
    (habsent : m.profileList.find old = none → Q [] m.tick)
    (hdone : ∀ t, m.profileList.rename old new = some t →
      Q [] { m.tick.tick.setKeys t with mutated := true })
    (herror : ∀ text m', SameKeys m m' → Q [text] m') :
    Act.wp (renameBack .profileList old new onRename onInspect) Q E m := by
  unfold renameBack
  refine (Act.wp_bind _ _).mpr ((Act.wp_attempt _).mpr (wp_subkeyExists
    (fun _ => (Act.wp_pure _).mpr (herror _ _ (sameKeys_tick m))) ?_))
  cases hold : (m.profileList.find old).isSome with
  | false =>
    exact (Act.wp_pure _).mpr (habsent (Option.not_isSome_iff_eq_none.mp (by simp [hold])))
  | true =>
    refine (Act.wp_bind _ _).mpr ((Act.wp_attempt _).mpr (wp_renameSubkey (fun _ => ?_) fun t ht => ?_))
    · exact (Act.wp_pure _).mpr
        (herror _ _ (SameKeys.trans m m.tick _ (sameKeys_tick m) (sameKeys_tick m.tick)))
    · exact (Act.wp_pure _).mpr (hdone t ht)

/-- Every key but those in `names` is as in `t₀`. -/
def SameBut (t₀ : NameTable P.fold RegKey) (names : List String) (m : Machine P) : Prop :=
  ∀ k, P.fold k ∉ names.map P.fold → m.profileList.find k = t₀.find k

/-- What all restores together do. -/
theorem restoreAll_spec {snapshots : List RepairSnapshot} {names : List String}
    (hcap : List.Forall₂ (Captures P t₀) snapshots names) (m : Machine P) :
    Act.wp (restoreAll snapshots)
      (fun errors m' => m'.mutated = m.mutated ∧ m'.undone = m.undone ∧
        (errors = [] → SameBut t₀ names m → SameBut t₀ [] m') ∧
        (SameBut t₀ [] m → SameBut t₀ [] m'))
      (fun _ _ => False) m := by
  induction hcap generalizing m with
  | nil => exact (Act.wp_pure _).mpr ⟨rfl, rfl, fun _ h => h, fun h => h⟩
  | @cons snapshot name snapshots names hc _ ih =>
    unfold restoreAll
    have hkeep : ∀ m₁ : Machine P, RestoreEffect t₀ name m m₁ → SameBut t₀ [] m →
        SameBut t₀ [] m₁ := by
      intro m₁ h₁ h k hk
      by_cases hn : P.fold k = P.fold name
      · rw [m₁.profileList.find_congr hn, t₀.find_congr hn]
        exact h₁.still (h name (by simp))
      · rw [h₁.others k hn]
        exact h k hk
    refine (Act.wp_bind _ _).mpr ((Act.wp_attempt _).mpr
      (Act.wp_mono (restoreRegistrySnapshot_spec hc m) (fun _ m₁ h₁ => ?_) fun e m₁ h₁ => ?_))
    · refine (Act.wp_bind _ _).mpr (Act.wp_mono (ih m₁) (fun errors m₂ h₂ => ?_) fun _ _ h => h)
      refine (Act.wp_pure _).mpr
        ⟨h₂.1.trans h₁.1.mutated, h₂.2.1.trans h₁.1.undone, fun he h => ?_, fun h => ?_⟩
      · refine h₂.2.2.1 he fun k hk => ?_
        by_cases hn : P.fold k = P.fold name
        · rw [m₁.profileList.find_congr hn, t₀.find_congr hn]
          exact h₁.2
        · rw [h₁.1.others k hn]
          exact h k (by simpa [hn] using hk)
      · exact h₂.2.2.2 (hkeep m₁ h₁.1 h)
    · refine (Act.wp_bind _ _).mpr (Act.wp_mono (ih m₁) (fun errors m₂ h₂ => ?_) fun _ _ h => h)
      refine (Act.wp_pure _).mpr
        ⟨h₂.1.trans h₁.mutated, h₂.2.1.trans h₁.undone, fun he _ => ?_, fun h => ?_⟩
      · cases he
      · exact h₂.2.2.2 (hkeep m₁ h₁ h)

/-- The names of the snapshots a plan takes. -/
structure CapturedNames (plan : RepairPlan) (names : List String) : Prop where
  only : ∀ n ∈ names, n = plan.bakName ∨ n = plan.canonicalSid
  bak : plan.fixBak = true → plan.bakName ∈ names
  canonical : plan.fixBak = false → plan.resetState = true → plan.canonicalSid ∈ names

/-- Between the renames of a rollback: `target` is what the keys without a snapshot should be. -/
structure Undoing (t₀ : NameTable P.fold RegKey) (names : List String)
    (target : String → Option RegKey) (errors : List String) (m : Machine P) : Prop where
  undone : m.undone = none
  untouched : m.mutated = false → SameBut t₀ [] m
  reached : errors = [] → ∀ k, P.fold k ∉ names.map P.fold → m.profileList.find k = target k

theorem restoreBakName_spec {names : List String} {E : RepairError → Machine P → Prop}
    (hp : Progress plan t₀ m) (hn : CapturedNames plan names) :
    Act.wp (restoreBakName plan .profileList m.mutation)
      (fun errors m' => Undoing t₀ names (asideKeys plan t₀ m.mutation.canonicalBackup) errors m' ∧
        (m'.mutated = false → m.mutated = false)) E m := by
  unfold restoreBakName
  have hne := fold_canonical_ne_bak P plan
  cases hmoved : m.mutation.bakMoved with
  | false =>
    refine (Act.wp_pure _).mpr
      ⟨⟨hp.undone, fun h k _ => (hp.untouched h).2 k, fun _ k hk => ?_⟩, fun h => h⟩
    have hexp : expectedKeys plan t₀ m.mutation k = asideKeys plan t₀ m.mutation.canonicalBackup k :=
      by simp [expectedKeys, hmoved]
    by_cases hX : P.fold k = P.fold plan.canonicalSid
    · rcases hp.canonical with hc | ⟨_, hc⟩
      · rw [← hexp, m.profileList.find_congr hX, expectedKeys_congr hX]
        exact hc
      · rcases hc with hc | hc
        · rw [hmoved] at hc
          cases hc
        · exact absurd (List.mem_map.mpr ⟨_, hn.canonical hc.1 hc.2, hX.symm⟩) hk
    · rw [← hexp]
      exact hp.others k hX
  | true =>
    obtain ⟨hfix, hbak, hfree⟩ := hp.moved hmoved
    have hmutated : m.mutated = true := by
      by_contra h
      have := (hp.untouched (by simpa using h)).1
      rw [this] at hmoved
      cases hmoved
    have hexp : expectedKeys plan t₀ m.mutation = movedName P
        (asideKeys plan t₀ m.mutation.canonicalBackup) plan.bakName plan.canonicalSid := by
      simp [expectedKeys, hmoved]
    refine wp_renameBack (fun habsent => ?_) (fun t ht => ?_) (fun text m' hs => ?_)
    · have hthere : (m.profileList.find plan.canonicalSid).isSome := by
        rcases hp.canonical with hc | hc
        · rw [hc, hexp, movedName, if_pos rfl, hp.asideKeys_bak]
          exact hbak
        · exact hc.1
      rw [habsent] at hthere
      cases hthere
    · refine ⟨⟨hp.undone, fun h => (nomatch h), fun _ k hk => ?_⟩, fun h => (nomatch h)⟩
      have hB : P.fold k ≠ P.fold plan.bakName := fun e =>
        hk (List.mem_map.mpr ⟨_, hn.bak hfix, e.symm⟩)
      refine (NameTable.find_rename ht k).trans ?_
      rw [if_neg hB]
      split
      · next hX =>
        cases hK : m.mutation.canonicalBackup with
        | none => exact (hfree hK).symm.trans (t₀.find_congr hX).symm
        | some K =>
          have hXK : P.fold k ≠ P.fold K := fun e => (hp.backup K hK).1 (e.symm.trans hX)
          exact ((if_neg hXK).trans (if_pos hX)).symm
      · next hX =>
        rw [hp.others k hX, hexp]
        exact movedName_other hX hB
    · refine ⟨⟨hs.undone.trans hp.undone, fun h => ?_, fun h => (nomatch h)⟩, fun h => ?_⟩
      · rw [hs.mutated, hmutated] at h
        cases h
      · rw [← hs.mutated]
        exact h

/-- The second rename starts where the first one ended, in `m₁`. -/
theorem restoreCanonicalName_spec {names errors : List String} {E : RepairError → Machine P → Prop}
    {m₁ : Machine P} (hp : Progress plan t₀ m) (hn : CapturedNames plan names)
    (hmutated : m₁.mutated = false → m.mutated = false)
    (hu : Undoing t₀ names (asideKeys plan t₀ m.mutation.canonicalBackup) errors m₁) :
    Act.wp (restoreCanonicalName plan .profileList m.mutation)
      (fun errors' m' => Undoing t₀ names t₀.find (errors ++ errors') m') E m₁ := by
  unfold restoreCanonicalName
  cases hK : m.mutation.canonicalBackup with
  | none =>
    rw [hK] at hu
    exact (Act.wp_pure _).mpr ⟨hu.undone, hu.untouched, fun h => hu.reached (by simpa using h)⟩
  | some K =>
    rw [hK] at hu
    obtain ⟨hKX, hKB, hfresh, hthere⟩ := hp.backup K hK
    have hm₁ : m₁.mutated = true := by
      by_contra h
      have := (hp.untouched (hmutated (by simpa using h))).1
      rw [this] at hK
      cases hK
    have hout : P.fold K ∉ names.map P.fold := fun h => by
      obtain ⟨n, hmem, e⟩ := List.mem_map.mp h
      rcases hn.only n hmem with rfl | rfl
      · exact hKB e.symm
      · exact hKX e.symm
    refine wp_renameBack (fun habsent => ?_) (fun t ht => ?_) (fun text m' hs => ?_)
    · refine ⟨hu.undone, fun h => ?_, fun h => ?_⟩
      · rw [show m₁.tick.mutated = true from hm₁] at h
        cases h
      · have := hu.reached (by simpa using h) K hout
        rw [habsent, asideKeys, movedName, if_pos rfl] at this
        rw [← this] at hthere
        cases hthere
    · refine ⟨hu.undone, fun h => (nomatch h), fun h k hk => ?_⟩
      have hreached := hu.reached (by simpa using h)
      refine (NameTable.find_rename ht k).trans ?_
      split
      · next hX =>
        rw [hreached K hout, asideKeys, movedName, if_pos rfl]
        exact (t₀.find_congr hX).symm
      · next hX =>
        split
        · next hk' => rw [t₀.find_congr hk', hfresh]
        · next hk' =>
          rw [hreached k hk]
          exact movedName_other hk' hX
    · refine ⟨hs.undone.trans hu.undone, fun h => ?_, fun h => by simp at h⟩
      rw [hs.mutated, hm₁] at h
      cases h

/-- What a repair that reports an error must have left. -/
def Restored (t₀ : NameTable P.fold RegKey) (m : Machine P) : Prop :=
  m.undone = some [] ∨ m.mutated = false → SameBut t₀ [] m

theorem Restored.same (h : Restored t₀ m) (hs : SameKeys m m') : Restored t₀ m' := by
  intro hc k hk
  rw [hs.keys]
  rw [hs.undone, hs.mutated] at hc
  exact h hc k hk

/-- **Rollback undoes** whatever `execute_steps` did, if its own steps succeed. -/
theorem rollback_spec {snapshots : List RepairSnapshot} {names : List String}
    (hp : Progress plan t₀ m) (hcap : List.Forall₂ (Captures P t₀) snapshots names)
    (hn : CapturedNames plan names) :
    Act.wp (rollback plan .profileList m.mutation snapshots) (fun _ m' => Restored t₀ m')
      (fun _ m' => Restored t₀ m') m := by
  unfold rollback
  refine (Act.wp_bind _ _).mpr (Act.wp_mono (restoreBakName_spec hp hn) (fun errs₁ m₁ h₁ => ?_)
    fun _ _ h => h)
  refine (Act.wp_bind _ _).mpr (Act.wp_mono (restoreCanonicalName_spec hp hn h₁.2 h₁.1)
    (fun errs₂ m₂ h₂ => ?_) fun _ _ h => h)
  refine (Act.wp_bind _ _).mpr (Act.wp_mono (restoreAll_spec hcap m₂) (fun errs₃ m₃ h₃ => ?_)
    fun _ _ h => h.elim)
  refine (Act.wp_bind _ _).mpr ((Act.wp_update _).mpr ?_)
  have hrestored : Restored t₀ { m₃ with undone := some (errs₁ ++ errs₂ ++ errs₃) } := by
    rintro (h | h)
    · have hnil : (errs₁ ++ errs₂) = [] ∧ errs₃ = [] := by simpa [and_assoc] using h
      exact h₃.2.2.1 hnil.2 (h₂.reached hnil.1)
    · exact h₃.2.2.2 (h₂.untouched (h₃.1.symm.trans h))
  refine (quiet_attempt (quiet_auditLog _ _ _ _)).wp_bind (fun _ _ h => hrestored.same h)
    fun r m₄ h₄ => ?_
  simpa only [Act.wp_guard, ite_self] using hrestored.same h₄

end Rollback

/-! ## 6. The transaction -/

/-- A SID has no backslash, so that a key named after it is a child of `ProfileList`. -/
theorem isValidSid_plain {sid : String} (h : isValidSid sid) : '\\' ∉ sid.toList := by
  obtain ⟨hstart, hparts⟩ := Bool.and_eq_true_iff.mp h
  obtain ⟨rest, hrest⟩ := List.isPrefixOf_iff_prefix.mp hstart
  intro hmem
  have hsplit : splitAtChar '-' sid.toList
      = ['S'] :: splitAtChar '-' ('1' :: '-' :: rest) := by
    rw [← hrest]
    simp [splitAtChar]
  obtain ⟨piece, hpiece, hin⟩ := mem_splitAtChar hmem (by decide : '\\' ≠ '-')
  rw [hsplit] at hpiece hparts
  rcases List.mem_cons.mp hpiece with rfl | hpiece
  · simp at hin
  · have := List.all_eq_true.mp hparts piece hpiece
    have hdigit := List.all_eq_true.mp (Bool.and_eq_true_iff.mp this).2 _ hin
    revert hdigit
    decide

theorem bakName_plain {plan : RepairPlan} (h : '\\' ∉ plan.canonicalSid.toList) :
    '\\' ∉ plan.bakName.toList := by
  simpa [RepairPlan.bakName, BAK_EXTENSION] using h

section Transaction

variable {plan : RepairPlan} {m : Machine P}

theorem validatePlan_valid (plan : RepairPlan) (isLoaded : Bool) (m : Machine P) :
    Act.wp (validatePlan plan isLoaded) (fun _ _ => isValidSid plan.canonicalSid = true)
      (fun _ _ => True) m := by
  unfold validatePlan
  refine Act.wp_bind_skip fun _ m₁ => ?_
  refine (Act.wp_bind _ _).mpr ((Act.wp_guard _ _).mpr ?_)
  split
  · next h =>
    exact Act.wp_skip fun _ _ => h
  · trivial

theorem preflight_spec (plan : RepairPlan) (isLoaded : Bool) (m : Machine P) :
    Act.wp (preflight plan isLoaded)
      (fun _ m' => SameKeys m m' ∧ isValidSid plan.canonicalSid = true)
      (fun _ m' => SameKeys m m') m := by
  have hvalid : Act.wp (preflight plan isLoaded)
      (fun _ _ => isValidSid plan.canonicalSid = true) (fun _ _ => True) m := by
    unfold preflight
    iterate 4 refine Act.wp_bind_skip fun _ _ => ?_
    refine (Act.wp_bind _ _).mpr (Act.wp_mono (validatePlan_valid plan isLoaded _)
      (fun _ _ h => ?_) (fun _ _ _ => trivial))
    exact Act.wp_skip fun _ _ => h
  refine Act.wp_mono (Act.wp_and (Act.keeps_iff_wp.mp (quiet_preflight plan isLoaded) m) hvalid)
    (fun _ _ h => h) (fun _ _ h => h.1)

theorem snapshotAll_spec (plan : RepairPlan) : ∀ (names : List String) (m : Machine P),
    (∀ n ∈ names, '\\' ∉ n.toList) →
    Act.wp (snapshotAll plan (names.map profilePathOf))
      (fun snapshots m' => SameKeys m m' ∧ List.Forall₂ (Captures P m.profileList) snapshots names)
      (fun _ m' => SameKeys m m') m
  | [], m, _ => (Act.wp_pure _).mpr ⟨SameKeys.rfl' m, .nil⟩
  | name :: names, m, h => by
    refine (Act.wp_bind _ _).mpr ((Act.wp_mapErr _ _).mpr (Act.wp_mono
      (Act.wp_and (createRegistrySnapshot_spec (h name (by simp)) m)
        (Act.keeps_iff_wp.mp (quiet_createRegistrySnapshot _ _ _ _) m))
      (fun metadata m₁ h₁ => ?_) (fun _ _ h => h.2)))
    have ih := snapshotAll_spec plan names m₁ fun n hn => h n (List.mem_cons_of_mem _ hn)
    refine (Act.wp_bind _ _).mpr (Act.wp_mono ih (fun more m₂ h₂ => ?_) (fun _ m₂ h₂ => ?_))
    · rw [h₁.2.keys] at h₂
      exact (Act.wp_pure _).mpr ⟨SameKeys.trans m m₁ m₂ h₁.2 h₂.1, .cons h₁.1 h₂.2⟩
    · exact SameKeys.trans m m₁ m₂ h₁.2 h₂

/-- The snapshots that a plan takes cover what its steps may change. -/
theorem createRequiredSnapshots_spec (hplain : '\\' ∉ plan.canonicalSid.toList) (m : Machine P) :
    Act.wp (createRequiredSnapshots plan)
      (fun snapshots m' => SameKeys m m' ∧ ∃ names, CapturedNames plan names ∧
        List.Forall₂ (Captures P m.profileList) snapshots names)
      (fun _ m' => SameKeys m m') m := by
  have hpaths : REG_KEY_PROFILE_LIST ++ "\\" ++ plan.canonicalSid ++ BAK_EXTENSION
      = profilePathOf plan.bakName := by
    simp only [profilePathOf, RepairPlan.bakName, String.append_assoc]
  have hall : ∀ (names : List String) (m₁ : Machine P), SameKeys m m₁ → CapturedNames plan names →
      Act.wp (snapshotAll plan (names.map profilePathOf))
        (fun snapshots m' => SameKeys m m' ∧ ∃ names, CapturedNames plan names ∧
          List.Forall₂ (Captures P m.profileList) snapshots names)
        (fun _ m' => SameKeys m m') m₁ := by
    intro names m₁ h₁ hn
    have hplains : ∀ n ∈ names, '\\' ∉ n.toList := by
      intro n hmem
      rcases hn.only n hmem with rfl | rfl
      · exact bakName_plain hplain
      · exact hplain
    refine Act.wp_mono (snapshotAll_spec plan names m₁ hplains) (fun snapshots m₂ h₂ => ?_)
      (fun _ m₂ h₂ => SameKeys.trans m m₁ m₂ h₁ h₂)
    rw [h₁.keys] at h₂
    exact ⟨SameKeys.trans m m₁ m₂ h₁ h₂.1, names, hn, h₂.2⟩
  unfold createRequiredSnapshots
  simp only [hpaths]
  split
  · next hfix =>
    refine (quiet_liftReg (quiet_openKey _ _)).wp_bind (fun _ _ h => h) fun parent m₁ h₁ => ?_
    refine (quiet_liftReg (quiet_subkeyExists _ _)).wp_bind
      (fun _ m₂ h₂ => SameKeys.trans m m₁ m₂ h₁ h₂) fun there m₂ h₂ => ?_
    have hsame := SameKeys.trans m m₁ m₂ h₁ h₂
    cases there with
    | true =>
      refine hall [plan.bakName, plan.canonicalSid] m₂ hsame ⟨?_, ?_, ?_⟩
      · simp
      · simp
      · intro h
        rw [hfix] at h
        cases h
    | false =>
      refine hall [plan.bakName] m₂ hsame ⟨?_, ?_, ?_⟩
      · simp
      · simp
      · intro h
        rw [hfix] at h
        cases h
  · next hfix =>
    split
    · refine hall [plan.canonicalSid] m (SameKeys.rfl' m) ⟨by simp, fun h => absurd h hfix, ?_⟩
      simp
    · next hreset =>
      exact hall [] m (SameKeys.rfl' m) ⟨by simp, fun h => absurd h hfix,
        fun _ h => absurd h hreset⟩

theorem abortRepair_spec {t₀ : NameTable P.fold RegKey} {snapshots : List RepairSnapshot}
    {names : List String} {error : RepairError} (hp : Progress plan t₀ m)
    (hcap : List.Forall₂ (Captures P t₀) snapshots names) (hn : CapturedNames plan names) :
    Act.wp (abortRepair plan .profileList snapshots error) (fun _ _ => False)
      (fun _ m' => Restored t₀ m') m := by
  unfold abortRepair
  refine (Act.wp_bind _ _).mpr (Act.wp_read.mpr ((Act.wp_bind _ _).mpr ((Act.wp_attempt _).mpr
    (Act.wp_mono (rollback_spec hp hcap hn) (fun _ m₁ h₁ => ?_) fun e m₁ h₁ => ?_))))
  · exact (quiet_mapErr _ (quiet_auditLog _ _ _ _)).wp_bind (fun _ _ h => h₁.same h)
      fun _ _ h => (Act.wp_fail _).mpr (h₁.same h)
  · refine (quiet_attempt (quiet_auditLog _ _ _ _)).wp_bind (fun _ _ h => h₁.same h)
      fun r _ h => ?_
    cases r <;> exact (Act.wp_fail _).mpr (h₁.same h)

theorem commitRepair_spec {t₀ : NameTable P.fold RegKey} {snapshots : List RepairSnapshot}
    {names : List String} (hp : Progress plan t₀ m)
    (hcap : List.Forall₂ (Captures P t₀) snapshots names) (hn : CapturedNames plan names) :
    Act.wp (commitRepair plan .profileList snapshots) (fun _ _ => True)
      (fun _ m' => Restored t₀ m') m := by
  unfold commitRepair
  refine (Act.wp_bind _ _).mpr (Act.wp_read.mpr ?_)
  refine (Act.wp_bind _ _).mpr ((Act.wp_attempt _).mpr
    ((quiet_auditLog _ _ _ _).wp (fun _ _ _ => ?_) fun e m₁ h₁ => ?_))
  · exact (Act.wp_pure _).mpr trivial
  · have hroll := rollback_spec (hp.same h₁) hcap hn
    rw [h₁.mutation] at hroll
    exact (Act.wp_bind _ _).mpr
      (Act.wp_mono hroll (fun _ _ h => (Act.wp_fail _).mpr h) (fun _ _ h => h))

/-- The outcome of a repair, from any machine on which no transaction has left a trace. -/
theorem executePlan_spec (plan : RepairPlan) (isLoaded : Bool) (m : Machine P)
    (hundone : m.undone = none) :
    Act.wp (executePlan plan isLoaded)
      (fun _ m' => plan.dryRun = true → SameBut m.profileList [] m')
      (fun _ m' => (plan.dryRun = true → SameBut m.profileList [] m') ∧
        Restored m.profileList m') m := by
  have hsame : ∀ m₁ : Machine P, SameKeys m m₁ → SameBut m.profileList [] m₁ :=
    fun m₁ h k _ => by rw [h.keys]
  have hearly : ∀ m₁ : Machine P, SameKeys m m₁ →
      (plan.dryRun = true → SameBut m.profileList [] m₁) ∧ Restored m.profileList m₁ :=
    fun m₁ h => ⟨fun _ => hsame m₁ h, fun _ => hsame m₁ h⟩
  unfold executePlan
  refine (Act.wp_bind _ _).mpr (Act.wp_mono (preflight_spec plan isLoaded m)
    (fun validation m₁ h₁ => ?_) (fun _ m₁ h₁ => hearly m₁ h₁))
  split
  · exact (quiet_mapErr _ (quiet_auditLog _ _ _ _)).wp
      (fun _ m₂ h₂ _ => hsame m₂ (SameKeys.trans m m₁ m₂ h₁.1 h₂))
      (fun _ m₂ h₂ => hearly m₂ (SameKeys.trans m m₁ m₂ h₁.1 h₂))
  · next hdry =>
    refine (Act.wp_bind _ _).mpr (Act.wp_mono
      (createRequiredSnapshots_spec (isValidSid_plain h₁.2) m₁) (fun snapshots m₂ h₂ => ?_)
      (fun _ m₂ h₂ => hearly m₂ (SameKeys.trans m m₁ m₂ h₁.1 h₂)))
    obtain ⟨hs₂, names, hnames, hcap⟩ := h₂
    rw [h₁.1.keys] at hcap
    have hm₂ := SameKeys.trans m m₁ m₂ h₁.1 hs₂
    refine (quiet_mapErr _ (quiet_auditLog _ _ _ _)).wp_bind
      (fun _ m₃ h₃ => hearly m₃ (SameKeys.trans m m₂ m₃ hm₂ h₃)) fun _ m₃ h₃ => ?_
    have hm₃ := SameKeys.trans m m₂ m₃ hm₂ h₃
    unfold openKey
    rw [resolve_profileList]
    refine (Act.wp_bind _ _).mpr ((Act.wp_mapErr _ _).mpr (wp_openKeyRaw
      (fun _ => hearly _ (SameKeys.trans m m₃ _ hm₃ (sameKeys_tick m₃))) fun _ => ?_))
    refine (Act.wp_bind _ _).mpr ((Act.wp_update _).mpr ?_)
    refine (Act.wp_bind _ _).mpr ((Act.wp_attempt _).mpr (Act.wp_mono
      (executeSteps_spec hm₃.keys (hm₃.undone.trans hundone) rfl) (fun _ m₄ h₄ => ?_)
      (fun error m₄ h₄ => ?_)))
    · exact Act.wp_mono (commitRepair_spec h₄ hcap hnames) (fun _ _ _ h => absurd h hdry)
        (fun _ _ h => ⟨fun h' => absurd h' hdry, h⟩)
    · exact Act.wp_mono (abortRepair_spec h₄ hcap hnames) (fun _ _ h => h.elim)
        (fun _ _ h => ⟨fun h' => absurd h' hdry, h⟩)

/-- **A repair is atomic.** For every registry, every plan and every choice of failing calls: a
dry run, and a repair that reports an error whose rollback had no failed check, rename or restore
or that had not changed anything yet, leaves every name of `ProfileList` with exactly the key it
had, or with none. Names that differ in case only are one name, as they are for the registry. -/
theorem executePlan_atomic (keys : NameTable P.fold RegKey) (audits : List AuditRecord)
    (clock : Nat) (plan : RepairPlan) (isLoaded : Bool) (r : Except RepairError Unit)
    (m' : Machine P)
    (hrun : executePlan plan isLoaded { profileList := keys, audits, clock } = (r, m'))
    (hcase : plan.dryRun = true ∨
      (∃ error, r = .error error) ∧ (m'.undone = some [] ∨ m'.mutated = false)) :
    ∀ name, m'.profileList.find name = keys.find name := by
  have hspec := executePlan_spec plan isLoaded { profileList := keys, audits, clock } rfl
  unfold Act.wp at hspec
  rw [hrun] at hspec
  intro name
  cases r with
  | ok _ =>
    rcases hcase with hdry | ⟨⟨_, h⟩, _⟩
    · exact hspec hdry name (by simp)
    · cases h
  | error e =>
    rcases hcase with hdry | ⟨_, h⟩
    · exact hspec.1 hdry name (by simp)
    · exact hspec.2 h name (by simp)

end Transaction

/-- A platform on which only the call that opens the key to be reset fails. -/
def samplePlatform : Platform where
  up := fun c => c
  fault := fun n => if n = 31 then some ⟨5, "access denied", by decide⟩ else none
  now := fun _ => "20260101T000000.000000Z"
  expand := fun _ => .error 1
  inspect := fun _ _ => .ok []
  users := []
  nameTaken := ⟨183, "already exists", by decide⟩
  identity := fun n => ⟨1, n.toUInt64⟩
  sha256 := fun _ => "00"

/-- A `.bak` key with the profile path `C:\U`, and no canonical key. -/
def sampleKeys : NameTable samplePlatform.fold RegKey where
  entries := [("S-1-5-21-7.bak", .mk
    [(VAL_PROFILE_IMAGE_PATH, ⟨REG_SZ, [0x43, 0, 0x3A, 0, 0x5C, 0, 0x55, 0, 0, 0]⟩)] [])]
  nodup := by simp [foldedNames]

def samplePlan : RepairPlan where
  sid := "S-1-5-21-7.bak"
  canonicalSid := "S-1-5-21-7"
  profilePath := "C:\\U"
  fixBak := true
  resetState := true
  unlockHive := false
  dryRun := false

def sampleRun : Except RepairError Unit × Machine samplePlatform :=
  executePlan samplePlan false { profileList := sampleKeys }

theorem sampleRun_outcome :
    (sampleRun.1.toBool, sampleRun.2.undone, sampleRun.2.mutated) = (false, some [], true) := by
  decide +kernel

/-- The `.bak` key was renamed, the next call failed, and the rename is undone. -/
theorem executePlan_atomic_sample :
    (sampleRun.1.toBool, sampleRun.2.undone, sampleRun.2.mutated) = (false, some [], true) ∧
      ∀ name, sampleRun.2.profileList.find name = sampleKeys.find name := by
  obtain ⟨hfailed, hrest⟩ := Prod.mk.inj sampleRun_outcome
  obtain ⟨hundone, _⟩ := Prod.mk.inj hrest
  have hrun : sampleRun = (sampleRun.1, sampleRun.2) := Prod.mk.eta.symm
  have herror : ∃ error, sampleRun.1 = .error error := by
    cases h : sampleRun.1 with
    | ok _ =>
      rw [h] at hfailed
      cases hfailed
    | error e => exact ⟨e, rfl⟩
  exact ⟨sampleRun_outcome, executePlan_atomic sampleKeys [] 0 samplePlan false _ _ hrun
    (.inr ⟨herror, .inl hundone⟩)⟩

end WinProfile
