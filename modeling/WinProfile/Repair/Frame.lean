/-
  File:      WinProfile/Repair/Frame.lean
  Subject:   What a repair leaves alone: every key of `ProfileList` whose name is not one of its own.

  * `OwnNames` -- a set of names with the canonical one, the `.bak` one and the preserved ones.
  * `Touched` -- only keys with own names differ from the first table, and the mutation record
    names an own key.
  * `executePlan_frame` -- every run keeps all other keys, whatever fails and however it ends.
-/
import WinProfile.Repair.Atomic

namespace WinProfile

variable {P : Platform}

/-! ## 1. Own names -/

/-- The names that the steps of a plan are about. -/
structure OwnNames (plan : RepairPlan) (own : String → Prop) : Prop where
  canonical : own plan.canonicalSid
  bak : own plan.bakName
  aside : ∀ timestamp, own (plan.backupName timestamp)

/-- No own name is compared equal to this one. -/
def Foreign (P : Platform) (own : String → Prop) (name : String) : Prop :=
  ∀ n, own n → P.fold name ≠ P.fold n

/-- Only keys with own names may differ from `t₀`. -/
structure Touched (own : String → Prop) (t₀ : NameTable P.fold RegKey) (m : Machine P) : Prop where
  others : ∀ name, Foreign P own name → m.profileList.find name = t₀.find name
  backup : ∀ K, m.mutation.canonicalBackup = some K → own K

section Steps

variable {own : String → Prop} {t₀ : NameTable P.fold RegKey} {plan : RepairPlan} {m m' : Machine P}

theorem Touched.same (h : Touched own t₀ m) (hs : SameKeys m m') : Touched own t₀ m' where
  others := by rw [hs.keys]; exact h.others
  backup := by rw [hs.mutation]; exact h.backup

theorem Touched.tick (h : Touched own t₀ m) : Touched own t₀ m.tick := h.same (sameKeys_tick m)

theorem Touched.rename {old new : String} (h : Touched own t₀ m) (hold : own old) (hnew : own new)
    (hrename : m.profileList.rename old new = some m'.profileList)
    (hbackup : ∀ K, m'.mutation.canonicalBackup = some K → own K) : Touched own t₀ m' where
  others := fun name hname => by
    refine (NameTable.find_rename hrename name).trans ?_
    rw [if_neg (hname new hnew), if_neg (hname old hold)]
    exact h.others name hname
  backup := hbackup

theorem Touched.put {name : String} {k : RegKey} (h : Touched own t₀ m) (hown : own name)
    (hkeys : m'.profileList = m.profileList.put name k) (hmutation : m'.mutation = m.mutation) :
    Touched own t₀ m' where
  others := fun n hn => by
    rw [hkeys, NameTable.find_put, if_neg fun e => hn name hown e.symm]
    exact h.others n hn
  backup := by rw [hmutation]; exact h.backup

/-- A computation that ends, well or not, with only own keys touched. -/
def Confined {ε α : Type} (own : String → Prop) (t₀ : NameTable P.fold RegKey)
    (act : Act (Machine P) ε α) (m : Machine P) : Prop :=
  Act.wp act (fun _ => Touched own t₀) (fun _ => Touched own t₀) m

theorem Quiet.confined {ε α : Type} {act : Act (Machine P) ε α} (hquiet : Quiet act)
    (h : Touched own t₀ m) : Confined own t₀ act m :=
  hquiet.wp (fun _ _ hs => h.same hs) (fun _ _ hs => h.same hs)

theorem Confined.bind {ε α β : Type} {act : Act (Machine P) ε α} {f : α → Act (Machine P) ε β}
    (hact : Confined own t₀ act m) (hf : ∀ a m', Touched own t₀ m' → Confined own t₀ (f a) m') :
    Confined own t₀ (act >>= f) m :=
  (Act.wp_bind _ _).mpr (Act.wp_mono hact (fun a m' h => hf a m' h) fun _ _ h => h)

theorem Confined.mapErr {ε ε' α : Type} {act : Act (Machine P) ε α} {f : ε → ε'}
    (hact : Confined own t₀ act m) : Confined own t₀ (Act.mapErr f act) m :=
  (Act.wp_mapErr _ _).mpr hact

theorem Confined.attempt {ε ε' α : Type} {act : Act (Machine P) ε α}
    (hact : Confined own t₀ act m) :
    Confined own t₀ (Act.attempt act : Act (Machine P) ε' (Except ε α)) m :=
  (Act.wp_attempt _).mpr hact

theorem Confined.when {ε : Type} {act : Act (Machine P) ε Unit} {c : Bool}
    (h : Touched own t₀ m) (hact : Confined own t₀ act m) : Confined own t₀ (Act.when c act) m := by
  cases c with
  | false => exact (Act.wp_ret ()).mpr h
  | true => exact hact

theorem confined_rename {old new : String} (hold : own old) (hnew : own new)
    (h : Touched own t₀ m) : Confined own t₀ (renameSubkey old new) m :=
  wp_renameSubkey (fun _ => h.tick) fun _ ht => h.rename hold hnew ht h.backup

/-! ## 2. The steps -/

theorem preserveCanonical_confined (hown : OwnNames plan own) (h : Touched own t₀ m) :
    Confined own t₀ (preserveCanonical plan .profileList) m := by
  unfold preserveCanonical
  refine ((quiet_liftReg (quiet_subkeyExists _ _)).confined h).bind fun there m₁ h₁ => ?_
  refine Confined.when h₁ ?_
  refine (quiet_read.confined h₁).bind fun m₂ m₃ h₃ => ?_
  refine ((quiet_liftReg (quiet_subkeyExists _ _)).confined h₃).bind fun taken m₄ h₄ => ?_
  refine ((quiet_guard _ _).confined h₄).bind fun _ m₅ h₅ => ?_
  refine (confined_rename hown.canonical (hown.aside _) h₅).mapErr.bind fun _ m₆ h₆ => ?_
  refine (Act.wp_update _).mpr ⟨h₆.others, fun K hK => ?_⟩
  cases hK
  exact hown.aside _

theorem resetValues_confined (hown : OwnNames plan own) (h : Touched own t₀ m) :
    Confined own t₀ (resetValues plan .profileList) m := by
  have hset : ∀ (name : String) (m₁ : Machine P), Touched own t₀ m₁ →
      Confined own t₀ (liftReg (setValueU32 (.profile plan.canonicalSid) name 0)) m₁ := by
    intro name m₁ h₁
    refine Confined.mapErr (wp_setValueU32 (fun _ => h₁.tick) fun k' _ => ?_)
    exact h₁.put hown.canonical rfl rfl
  unfold resetValues
  refine (Act.wp_bind _ _).mpr ((Act.wp_mapErr _ _).mpr (wp_openSubkey (fun _ => h.tick) fun _ => ?_))
  exact (hset VAL_STATE _ h.tick).bind fun _ m₁ h₁ => hset VAL_REF_COUNT m₁ h₁

theorem executeSteps_confined (hown : OwnNames plan own) (h : Touched own t₀ m) :
    Confined own t₀ (executeSteps plan .profileList) m := by
  unfold executeSteps
  refine Confined.bind (Confined.when h ?_) fun _ m₁ h₁ => ?_
  · refine (preserveCanonical_confined hown h).bind fun _ m₂ h₂ => ?_
    refine (confined_rename hown.bak hown.canonical h₂).mapErr.bind fun _ m₃ h₃ => ?_
    exact (Act.wp_update _).mpr ⟨h₃.others, h₃.backup⟩
  · refine Confined.bind (Confined.when h₁ (resetValues_confined hown h₁)) fun _ m₂ h₂ => ?_
    exact (quiet_verify plan .profileList).confined h₂

/-! ## 3. Rollback -/

theorem renameBack_confined {old new onRename onInspect : String} (hold : own old) (hnew : own new)
    (h : Touched own t₀ m) :
    Confined own t₀ (renameBack .profileList old new onRename onInspect) m :=
  wp_renameBack (fun _ => h.tick) (fun _ ht => h.tick.tick.rename hold hnew ht h.backup)
    fun _ _ hs => h.same hs

theorem restoreAll_confined {snapshots : List RepairSnapshot} {names : List String}
    {t : NameTable P.fold RegKey} (hcap : List.Forall₂ (Captures P t) snapshots names)
    (hown : ∀ n ∈ names, own n) (h : Touched own t₀ m) :
    Confined own t₀ (restoreAll snapshots) m := by
  induction hcap generalizing m with
  | nil => exact (Act.wp_pure _).mpr h
  | @cons snapshot name snapshots names hc _ ih =>
    have heffect : ∀ m' : Machine P, RestoreEffect t name m m' → Touched own t₀ m' := by
      intro m' he
      refine ⟨fun k hk => ?_, by rw [he.mutation]; exact h.backup⟩
      rw [he.others k (hk name (hown name List.mem_cons_self))]
      exact h.others k hk
    have hone : Confined own t₀ (restoreRegistrySnapshot snapshot.metadata
        snapshot.expectedRegistryKeyPath) m :=
      Act.wp_mono (restoreRegistrySnapshot_spec hc m) (fun _ m' he => heffect m' he.1)
        fun _ m' he => heffect m' he
    unfold restoreAll
    refine hone.attempt.bind fun result m₁ h₁ => ?_
    refine (ih (fun n hn => hown n (List.mem_cons_of_mem _ hn)) h₁).bind fun more m₂ h₂ => ?_
    cases result <;> exact (Act.wp_pure _).mpr h₂

theorem rollback_confined {snapshots : List RepairSnapshot} {names : List String}
    {t : NameTable P.fold RegKey} {mutation : RegistryMutation} (hown : OwnNames plan own)
    (hcap : List.Forall₂ (Captures P t) snapshots names) (hnames : ∀ n ∈ names, own n)
    (hbackup : ∀ K, mutation.canonicalBackup = some K → own K) (h : Touched own t₀ m) :
    Confined own t₀ (rollback plan .profileList mutation snapshots) m := by
  have hbak : Confined own t₀ (restoreBakName plan .profileList mutation) m := by
    unfold restoreBakName
    split
    · exact renameBack_confined hown.canonical hown.bak h
    · exact (Act.wp_pure _).mpr h
  have hcanonical : ∀ m₁ : Machine P, Touched own t₀ m₁ →
      Confined own t₀ (restoreCanonicalName plan .profileList mutation) m₁ := by
    intro m₁ h₁
    unfold restoreCanonicalName
    split
    · next K hK => exact renameBack_confined (hbackup K hK) hown.canonical h₁
    · exact (Act.wp_pure _).mpr h₁
  unfold rollback
  refine hbak.bind fun errs₁ m₁ h₁ => ?_
  refine (hcanonical m₁ h₁).bind fun errs₂ m₂ h₂ => ?_
  refine (restoreAll_confined hcap hnames h₂).bind fun errs₃ m₃ h₃ => ?_
  refine (Act.wp_bind _ _).mpr ((Act.wp_update _).mpr ?_)
  have hundone : Touched own t₀ { m₃ with undone := some (errs₁ ++ errs₂ ++ errs₃) } :=
    ⟨h₃.others, h₃.backup⟩
  refine ((quiet_attempt (quiet_auditLog _ _ _ _)).confined hundone).bind fun _ m₄ h₄ => ?_
  exact (quiet_guard _ _).confined h₄

/-! ## 4. The transaction -/

theorem abortRepair_confined {snapshots : List RepairSnapshot} {names : List String}
    {t : NameTable P.fold RegKey} {error : RepairError} (hown : OwnNames plan own)
    (hcap : List.Forall₂ (Captures P t) snapshots names) (hnames : ∀ n ∈ names, own n)
    (h : Touched own t₀ m) : Confined own t₀ (abortRepair plan .profileList snapshots error) m := by
  unfold abortRepair
  refine (Act.wp_bind _ _).mpr (Act.wp_read.mpr ?_)
  refine (rollback_confined hown hcap hnames h.backup h).attempt.bind fun result m₁ h₁ => ?_
  cases result with
  | ok _ =>
    refine ((quiet_mapErr _ (quiet_auditLog _ _ _ _)).confined h₁).bind fun _ m₂ h₂ => ?_
    exact (Act.wp_fail _).mpr h₂
  | error _ =>
    refine ((quiet_attempt (quiet_auditLog _ _ _ _)).confined h₁).bind fun audit m₂ h₂ => ?_
    cases audit <;> exact (Act.wp_fail _).mpr h₂

theorem commitRepair_confined {snapshots : List RepairSnapshot} {names : List String}
    {t : NameTable P.fold RegKey} (hown : OwnNames plan own)
    (hcap : List.Forall₂ (Captures P t) snapshots names) (hnames : ∀ n ∈ names, own n)
    (h : Touched own t₀ m) : Confined own t₀ (commitRepair plan .profileList snapshots) m := by
  unfold commitRepair
  refine (Act.wp_bind _ _).mpr (Act.wp_read.mpr ?_)
  refine ((quiet_attempt (quiet_auditLog _ _ _ _)).confined h).bind fun audit m₁ h₁ => ?_
  cases audit with
  | ok _ => exact (Act.wp_pure _).mpr h₁
  | error _ =>
    refine (rollback_confined hown hcap hnames h.backup h₁).bind fun _ m₂ h₂ => ?_
    exact (Act.wp_fail _).mpr h₂

theorem executePlan_confined (hown : OwnNames plan own) (isLoaded : Bool) (m : Machine P) :
    Act.wp (executePlan plan isLoaded)
      (fun _ m' => ∀ name, Foreign P own name → m'.profileList.find name = m.profileList.find name)
      (fun _ m' => ∀ name, Foreign P own name → m'.profileList.find name = m.profileList.find name)
      m := by
  have hsame : ∀ m₁ : Machine P, SameKeys m m₁ → ∀ name, Foreign P own name →
      m₁.profileList.find name = m.profileList.find name := fun m₁ h _ _ => by rw [h.keys]
  unfold executePlan
  refine (Act.wp_bind _ _).mpr (Act.wp_mono (preflight_spec plan isLoaded m)
    (fun validation m₁ h₁ => ?_) (fun _ m₁ h₁ => hsame m₁ h₁))
  split
  · exact (quiet_mapErr _ (quiet_auditLog _ _ _ _)).wp
      (fun _ m₂ h₂ => hsame m₂ (SameKeys.trans m m₁ m₂ h₁.1 h₂))
      (fun _ m₂ h₂ => hsame m₂ (SameKeys.trans m m₁ m₂ h₁.1 h₂))
  refine (Act.wp_bind _ _).mpr (Act.wp_mono
    (createRequiredSnapshots_spec (isValidSid_plain h₁.2) m₁) (fun snapshots m₂ h₂ => ?_)
    (fun _ m₂ h₂ => hsame m₂ (SameKeys.trans m m₁ m₂ h₁.1 h₂)))
  obtain ⟨hs₂, names, hnames, hcap⟩ := h₂
  have hm₂ := SameKeys.trans m m₁ m₂ h₁.1 hs₂
  have hall : ∀ n ∈ names, own n := by
    intro n hn
    rcases hnames.only n hn with rfl | rfl
    · exact hown.bak
    · exact hown.canonical
  refine (quiet_mapErr _ (quiet_auditLog _ _ _ _)).wp_bind
    (fun _ m₃ h₃ => hsame m₃ (SameKeys.trans m m₂ m₃ hm₂ h₃)) fun _ m₃ h₃ => ?_
  have hm₃ := SameKeys.trans m m₂ m₃ hm₂ h₃
  unfold openKey
  rw [resolve_profileList]
  refine (Act.wp_bind _ _).mpr ((Act.wp_mapErr _ _).mpr (wp_openKeyRaw
    (fun _ => hsame _ (SameKeys.trans m m₃ _ hm₃ (sameKeys_tick m₃))) fun _ => ?_))
  refine (Act.wp_bind _ _).mpr ((Act.wp_update _).mpr ?_)
  have hstart : Touched own m.profileList { m₃.tick with mutation := {} } :=
    ⟨hsame m₃ hm₃, fun K (hK : none = some K) => by cases hK⟩
  refine Act.wp_mono ((executeSteps_confined hown hstart).attempt.bind fun result m₄ h₄ => ?_)
    (fun _ m₅ h₅ => h₅.others) fun _ m₅ h₅ => h₅.others
  cases result with
  | ok _ => exact commitRepair_confined hown hcap hall h₄
  | error e => exact abortRepair_confined hown hcap hall h₄

/-- **The frame of a repair**: whatever the plan, whatever calls fail and however the run ends,
every key that is compared equal to none of the plan's own names is as it was. -/
theorem executePlan_frame (hown : OwnNames plan own) (isLoaded : Bool) (m : Machine P)
    {name : String} (hname : Foreign P own name) :
    (executePlan plan isLoaded m).2.profileList.find name = m.profileList.find name :=
  Act.wp_run (R := fun _ (m' : Machine P) => ∀ name, Foreign P own name →
    m'.profileList.find name = m.profileList.find name)
    (executePlan_confined hown isLoaded m) name hname

end Steps

end WinProfile
