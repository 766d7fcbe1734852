/-
  File:      WinProfile/Repair/Restore.lean
  Subject:   What the hive snapshots alone bring back, wherever a repair and the renames of its
             rollback stopped.

  * `Captured` -- the keys that `create_required_snapshots` saves.
  * `RollsBack` -- the machine on which `execute_plan` calls `rollback`.
  * `rollback_brings_back` -- restores that succeed bring back every captured key, and a failed
    rename is not passed over in silence.
-/
import WinProfile.Repair.Atomic

namespace WinProfile

variable {P : Platform}

/-! ## 1. Restores -/

/-- The keys that a plan captures, by name. -/
inductive Captured (plan : RepairPlan) (t : NameTable P.fold RegKey) : String → Prop where
  | bak (hfix : plan.fixBak = true) : Captured plan t plan.bakName
  | canonical (hfix : plan.fixBak = true) (hthere : (t.find plan.canonicalSid).isSome) :
      Captured plan t plan.canonicalSid
  | reset (hfix : plan.fixBak = false) (hreset : plan.resetState = true) :
      Captured plan t plan.canonicalSid

section Restores

variable {plan : RepairPlan} {t₀ : NameTable P.fold RegKey} {m m' : Machine P} {name : String}

/-- A restore of another key, or of the same one, leaves a restored key restored. -/
theorem RestoreEffect.keeps {other : String} (h : RestoreEffect t₀ other m m')
    (hname : m.profileList.find name = t₀.find name) :
    m'.profileList.find name = t₀.find name := by
  by_cases hfold : P.fold name = P.fold other
  · rw [m'.profileList.find_congr hfold, t₀.find_congr hfold]
    refine h.still ?_
    rw [← m.profileList.find_congr hfold, ← t₀.find_congr hfold]
    exact hname
  · rw [h.others name hfold]
    exact hname

/-- Restores that all succeed leave every captured key as it was captured. -/
theorem restoreAll_brings_back {snapshots : List RepairSnapshot} {names : List String}
    (hcap : List.Forall₂ (Captures P t₀) snapshots names) (m : Machine P) :
    Act.wp (restoreAll snapshots)
      (fun errors m' => (∀ name, m.profileList.find name = t₀.find name →
          m'.profileList.find name = t₀.find name) ∧
        (errors = [] → ∀ name ∈ names, m'.profileList.find name = t₀.find name))
      (fun _ _ => False) m := by
  induction hcap generalizing m with
  | nil => exact (Act.wp_pure _).mpr ⟨fun _ h => h, fun _ _ h => absurd h List.not_mem_nil⟩
  | @cons snapshot name snapshots names hc _ ih =>
    unfold restoreAll
    refine (Act.wp_bind _ _).mpr ((Act.wp_attempt _).mpr
      (Act.wp_mono (restoreRegistrySnapshot_spec hc m) (fun _ m₁ h₁ => ?_) fun e m₁ h₁ => ?_))
    · refine (Act.wp_bind _ _).mpr (Act.wp_mono (ih m₁) (fun errors m₂ h₂ => ?_) fun _ _ h => h)
      refine (Act.wp_pure _).mpr ⟨fun k hk => h₂.1 k (h₁.1.keeps hk), fun hnone k hk => ?_⟩
      rcases List.mem_cons.mp hk with rfl | hk
      · exact h₂.1 _ h₁.2
      · exact h₂.2 hnone k hk
    · refine (Act.wp_bind _ _).mpr (Act.wp_mono (ih m₁) (fun errors m₂ h₂ => ?_) fun _ _ h => h)
      exact (Act.wp_pure _).mpr ⟨fun k hk => h₂.1 k (h₁.keeps hk),
        fun hnone => absurd hnone (List.cons_ne_nil _ _)⟩

/-- The snapshots of a plan are those of the captured keys. -/
theorem createRequiredSnapshots_captures (hplain : '\\' ∉ plan.canonicalSid.toList)
    (m : Machine P) : Act.wp (createRequiredSnapshots plan)
      (fun snapshots _ => ∃ names, (∀ name, Captured plan m.profileList name → name ∈ names) ∧
        List.Forall₂ (Captures P m.profileList) snapshots names) (fun _ _ => True) m := by
  have hpaths : REG_KEY_PROFILE_LIST ++ "\\" ++ plan.canonicalSid ++ BAK_EXTENSION
      = profilePathOf plan.bakName := by
    simp only [profilePathOf, RepairPlan.bakName, String.append_assoc]
  have hall : ∀ (names : List String) (m₁ : Machine P), m₁.profileList = m.profileList →
      (∀ n ∈ names, n = plan.bakName ∨ n = plan.canonicalSid) →
      (∀ name, Captured plan m.profileList name → name ∈ names) →
      Act.wp (snapshotAll plan (names.map profilePathOf))
        (fun snapshots _ => ∃ names, (∀ name, Captured plan m.profileList name → name ∈ names) ∧
          List.Forall₂ (Captures P m.profileList) snapshots names) (fun _ _ => True) m₁ := by
    intro names m₁ hkeys hnames hcaptured
    have hplains : ∀ n ∈ names, '\\' ∉ n.toList := by
      intro n hn
      rcases hnames n hn with rfl | rfl
      · exact bakName_plain hplain
      · exact hplain
    refine Act.wp_mono (snapshotAll_spec plan names m₁ hplains) (fun snapshots m₂ h₂ => ?_)
      fun _ _ _ => trivial
    rw [hkeys] at h₂
    exact ⟨names, hcaptured, h₂.2⟩
  unfold createRequiredSnapshots
  simp only [hpaths]
  split
  · next hfix =>
    unfold openKey
    rw [resolve_profileList]
    refine (Act.wp_bind _ _).mpr ((Act.wp_mapErr _ _).mpr (wp_openKeyRaw (fun _ => trivial)
      fun _ => ?_))
    refine (Act.wp_bind _ _).mpr ((Act.wp_mapErr _ _).mpr (wp_subkeyExists (fun _ => trivial) ?_))
    have hkeys : m.tick.profileList = m.profileList := rfl
    rw [hkeys]
    cases hthere : (m.profileList.find plan.canonicalSid).isSome with
    | true =>
      refine hall [plan.bakName, plan.canonicalSid] _ rfl (by simp) fun name hname => ?_
      cases hname <;> simp
    | false =>
      refine hall [plan.bakName] _ rfl (by simp) fun name hname => ?_
      cases hname with
      | bak _ => simp
      | canonical _ hcanonical => rw [hthere] at hcanonical; cases hcanonical
      | reset hno _ => rw [hfix] at hno; cases hno
  · next hfix =>
    split
    · refine hall [plan.canonicalSid] m rfl (by simp) fun name hname => ?_
      cases hname with
      | bak hyes => exact absurd hyes hfix
      | canonical _ _ => simp
      | reset _ _ => simp
    · next hreset =>
      refine hall [] m rfl (by simp) fun name hname => ?_
      cases hname with
      | bak hyes => exact absurd hyes hfix
      | canonical hyes _ => exact absurd hyes hfix
      | reset _ hyes => exact absurd hyes hreset

end Restores

/-! ## 2. The rollback -/

/-- **Where `execute_plan` rolls back**: after a failure of `execute_steps`, or of the audit entry that
should report their success. -/
inductive RollsBack (plan : RepairPlan) (isLoaded : Bool) (m : Machine P)
    (snapshots : List RepairSnapshot) (parent : HKey) : RegistryMutation → Machine P → Prop where
  | aborted {validation : String} {error : RepairError} {details : String}
      {m₁ m₂ m₃ m₄ s : Machine P} (hpreflight : preflight plan isLoaded m = (.ok validation, m₁))
      (hsnapshots : createRequiredSnapshots plan m₁ = (.ok snapshots, m₂))
      (haudit : auditLog "RepairStarted" plan.canonicalSid .warning details m₂ = (.ok (), m₃))
      (hopen : openKey .localMachine REG_KEY_PROFILE_LIST m₃ = (.ok parent, m₄))
      (hsteps : executeSteps plan parent { m₄ with mutation := {} } = (.error error, s)) :
      RollsBack plan isLoaded m snapshots parent s.mutation s
  | unrecorded {validation : String} {error : String} {details details' : String}
      {m₁ m₂ m₃ m₄ m₅ s : Machine P} (hpreflight : preflight plan isLoaded m = (.ok validation, m₁))
      (hsnapshots : createRequiredSnapshots plan m₁ = (.ok snapshots, m₂))
      (haudit : auditLog "RepairStarted" plan.canonicalSid .warning details m₂ = (.ok (), m₃))
      (hopen : openKey .localMachine REG_KEY_PROFILE_LIST m₃ = (.ok parent, m₄))
      (hsteps : executeSteps plan parent { m₄ with mutation := {} } = (.ok (), m₅))
      (hreport : auditLog "RepairSuccess" plan.canonicalSid .success details' m₅ = (.error error, s)) :
      RollsBack plan isLoaded m snapshots parent m₅.mutation s

/-- The three parts of a rollback, up to its audit entry. -/
structure RollbackRun (plan : RepairPlan) (parent : HKey) (mutation : RegistryMutation)
    (snapshots : List RepairSnapshot) (s : Machine P)
    (bakErrors backupErrors restoreErrors : List String) (s₃ : Machine P) : Prop where
  parts : ∃ s₁ s₂, restoreBakName plan parent mutation s = (.ok bakErrors, s₁) ∧
    restoreCanonicalName plan parent mutation s₁ = (.ok backupErrors, s₂) ∧
    restoreAll snapshots s₂ = (.ok restoreErrors, s₃)

section Rollback

variable {plan : RepairPlan} {isLoaded : Bool} {m s s₃ : Machine P} {parent : HKey}
  {mutation : RegistryMutation} {snapshots : List RepairSnapshot}
  {bakErrors backupErrors restoreErrors : List String}

/-- The snapshots are those of the keys as they were before the repair. -/
theorem RollsBack.captures (h : RollsBack plan isLoaded m snapshots parent mutation s) :
    ∃ names, (∀ name, Captured plan m.profileList name → name ∈ names) ∧
      List.Forall₂ (Captures P m.profileList) snapshots names := by
  have hpieces : ∃ validation m₁ m₂, preflight plan isLoaded m = (.ok validation, m₁) ∧
      createRequiredSnapshots plan m₁ = (.ok snapshots, m₂) := by
    cases h with
    | aborted hpreflight hsnapshots => exact ⟨_, _, _, hpreflight, hsnapshots⟩
    | unrecorded hpreflight hsnapshots => exact ⟨_, _, _, hpreflight, hsnapshots⟩
  obtain ⟨validation, m₁, m₂, hpreflight, hsnapshots⟩ := hpieces
  have hvalid := preflight_spec plan isLoaded m
  unfold Act.wp at hvalid
  rw [hpreflight] at hvalid
  have hcaptures := createRequiredSnapshots_captures (isValidSid_plain hvalid.2) m₁
  unfold Act.wp at hcaptures
  rw [hsnapshots, hvalid.1.keys] at hcaptures
  exact hcaptures

/-- After its three parts, a rollback only writes its audit entry. -/
theorem rollback_after (h : RollbackRun plan parent mutation snapshots s bakErrors backupErrors
      restoreErrors s₃) : Act.wp (rollback plan parent mutation snapshots)
      (fun _ m' => m'.profileList = s₃.profileList ∧ bakErrors ++ backupErrors ++ restoreErrors = [])
      (fun _ m' => m'.profileList = s₃.profileList) s := by
  obtain ⟨s₁, s₂, hbak, hbackup, hrestore⟩ := h.parts
  unfold rollback
  refine (Act.wp_bind _ _).mpr (Act.wp_of_ok hbak ?_)
  refine (Act.wp_bind _ _).mpr (Act.wp_of_ok hbackup ?_)
  refine (Act.wp_bind _ _).mpr (Act.wp_of_ok hrestore ?_)
  refine (Act.wp_bind _ _).mpr ((Act.wp_update _).mpr ?_)
  refine (quiet_attempt (quiet_auditLog _ _ _ _)).wp_bind (fun _ _ h => h.keys) fun r m₄ h₄ => ?_
  have hkeys : m₄.profileList = s₃.profileList := h₄.keys
  refine (Act.wp_guard _ _).mpr ?_
  cases r with
  | ok _ =>
    show if (bakErrors ++ backupErrors ++ restoreErrors).isEmpty = true then _ else _
    by_cases hnone : (bakErrors ++ backupErrors ++ restoreErrors).isEmpty = true
    · rw [if_pos hnone]
      exact ⟨hkeys, List.isEmpty_iff.mp hnone⟩
    · rw [if_neg hnone]
      exact hkeys
  | error e =>
    show if (bakErrors ++ backupErrors ++ restoreErrors ++
      ["rollback summary audit: " ++ e]).isEmpty = true then _ else _
    rw [if_neg (by simp)]
    exact hkeys

/-- **The restores bring back every captured key**, wherever the repair stopped and whichever renames
or checks of the rollback failed, if the restores themselves succeed: it is under its name with
the contents that it had before the repair. A failed rename or check makes the rollback an error. -/
theorem rollback_brings_back (hrolls : RollsBack plan isLoaded m snapshots parent mutation s)
    (hrun : RollbackRun plan parent mutation snapshots s bakErrors backupErrors restoreErrors s₃)
    (hrestored : restoreErrors = []) :
    (∀ name, Captured plan m.profileList name → (m.profileList.find name).isSome ∧
      (rollback plan parent mutation snapshots s).2.profileList.find name
        = m.profileList.find name) ∧
    (bakErrors ≠ [] ∨ backupErrors ≠ [] →
      ∃ error, (rollback plan parent mutation snapshots s).1 = .error error) := by
  obtain ⟨names, hnames, hcap⟩ := hrolls.captures
  have hafter := rollback_after hrun
  obtain ⟨s₁, s₂, _, _, hrestore⟩ := hrun.parts
  have hback := restoreAll_brings_back hcap s₂
  unfold Act.wp at hback hafter
  rw [hrestore] at hback
  constructor
  · intro name hcaptured
    have hmem := hnames name hcaptured
    refine ⟨?_, ?_⟩
    · obtain ⟨i, hi, rfl⟩ := List.mem_iff_getElem.mp hmem
      have hcapture := hcap.get (hcap.length_eq ▸ hi) hi
      obtain ⟨hive, _, _, _, _, _, hfind⟩ := hcapture.artifact
      exact Option.isSome_of_eq_some hfind
    · have hkeys : (rollback plan parent mutation snapshots s).2.profileList = s₃.profileList := by
        split at hafter
        next heq => rw [heq]; exact hafter.1
        next heq => rw [heq]; exact hafter
      rw [hkeys]
      exact hback.2 hrestored name hmem
  · intro hfailed
    split at hafter
    next heq =>
      obtain ⟨_, hnone⟩ := hafter
      rw [List.append_eq_nil_iff, List.append_eq_nil_iff] at hnone
      exact (hfailed.elim (fun h => h hnone.1.1) fun h => h hnone.1.2).elim
    next error _ heq => exact ⟨error, by rw [heq]⟩

end Rollback

/-! ## 3. A rename back that fails -/

theorem eq_of_toOption {σ ε α : Type} {r : Except ε α × σ} {a : α} (h : r.1.toOption = some a) :
    r = (.ok a, r.2) := by
  obtain ⟨result, s⟩ := r
  cases result with
  | ok b => cases h; rfl
  | error e => cases h

theorem eq_of_toBool {σ ε α : Type} {r : Except ε α × σ} (h : r.1.toBool = true) :
    ∃ a, r = (.ok a, r.2) := by
  obtain ⟨result, s⟩ := r
  cases result with
  | ok a => exact ⟨a, rfl⟩
  | error e => cases h

theorem eq_error_of_toBool {σ ε α : Type} {r : Except ε α × σ} (h : r.1.toBool = false) :
    ∃ e, r = (.error e, r.2) := by
  obtain ⟨result, s⟩ := r
  cases result with
  | ok a => cases h
  | error e => exact ⟨e, rfl⟩

/-- A platform on which the call that opens the key to be reset fails, and the rename back. -/
def brokenPlatform : Platform :=
  { samplePlatform with
    fault := fun n => if n = 31 ∨ n = 33 then samplePlatform.fault 31 else none }

def brokenMachine : Machine brokenPlatform where
  profileList := { entries := sampleKeys.entries, nodup := by simp [foldedNames, sampleKeys] }

def brokenPreflight : Except RepairError String × Machine brokenPlatform :=
  preflight samplePlan false brokenMachine

def brokenSnapshots : Except RepairError (List RepairSnapshot) × Machine brokenPlatform :=
  createRequiredSnapshots samplePlan brokenPreflight.2

def brokenStart : Except String Unit × Machine brokenPlatform :=
  auditLog "RepairStarted" samplePlan.canonicalSid .warning "" brokenSnapshots.2

def brokenOpen : Except RegistryError HKey × Machine brokenPlatform :=
  openKey .localMachine REG_KEY_PROFILE_LIST brokenStart.2

def brokenSteps : Except RepairError Unit × Machine brokenPlatform :=
  executeSteps samplePlan .profileList { brokenOpen.2 with mutation := {} }

def brokenBak : Except RepairError (List String) × Machine brokenPlatform :=
  restoreBakName samplePlan .profileList brokenSteps.2.mutation brokenSteps.2

def brokenBackup : Except RepairError (List String) × Machine brokenPlatform :=
  restoreCanonicalName samplePlan .profileList brokenSteps.2.mutation brokenBak.2

/-- The `.bak` key has kept the canonical name, and its snapshot is restored under its own. -/
theorem rollback_brings_back_sample : ∃ snapshots,
    (rollback samplePlan .profileList brokenSteps.2.mutation snapshots
      brokenSteps.2).2.profileList.find "S-1-5-21-7.bak" = brokenMachine.profileList.find "S-1-5-21-7.bak" ∧
    ∃ error, (rollback samplePlan .profileList brokenSteps.2.mutation snapshots
      brokenSteps.2).1 = .error error := by
  obtain ⟨validation, hpreflight⟩ := eq_of_toBool (show brokenPreflight.1.toBool = true by
    decide +kernel)
  obtain ⟨snapshots, hsnapshots⟩ := eq_of_toBool (show brokenSnapshots.1.toBool = true by
    decide +kernel)
  have hstart : brokenStart = (.ok (), brokenStart.2) := eq_of_toOption (by decide +kernel)
  have hopen : brokenOpen = (.ok .profileList, brokenOpen.2) := eq_of_toOption (by decide +kernel)
  obtain ⟨error, hsteps⟩ := eq_error_of_toBool (show brokenSteps.1.toBool = false by decide +kernel)
  obtain ⟨bakErrors, hbak⟩ := eq_of_toBool (show brokenBak.1.toBool = true by decide +kernel)
  have hbackup : brokenBackup = (.ok [], brokenBackup.2) := eq_of_toOption (by decide +kernel)
  have hrestored : (brokenSnapshots.1.toOption.bind fun l =>
      (restoreAll l brokenBackup.2).1.toOption) = some [] := by decide +kernel
  rw [hsnapshots] at hrestored
  have hrestore := eq_of_toOption (r := restoreAll snapshots brokenBackup.2) hrestored
  have hfailed : brokenBak.1.toOption.map List.isEmpty = some false := by decide +kernel
  rw [hbak] at hfailed
  obtain ⟨hback, herror⟩ := rollback_brings_back
    (.aborted hpreflight hsnapshots hstart hopen hsteps)
    ⟨brokenBak.2, brokenBackup.2, hbak, hbackup, hrestore⟩ rfl
  refine ⟨snapshots, (hback _ (.bak rfl)).2, herror (.inl fun hnil => ?_)⟩
  rw [hnil] at hfailed
  cases hfailed

end WinProfile
