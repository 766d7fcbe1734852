/-
  File:      WinProfile/Legacy/Holding.lean
  Subject:   The recovery under the bootstrap lock: what each of its calls does to ProgramData, and
             where it ends when no call fails.

  * `Consistent` -- the invariant of ProgramData; `Keeps` -- what no step takes back.
  * `Held` -- the state between two calls of the instance that has the lock.
  * `held_startNamespace`, `held_resumeNamespace` -- the two ways through the recovery, stopped
    anywhere, and without an error where the calls are calm.
  * `held_recoverUnderLock`, `held_complete` -- all of it.
-/
import WinProfile.Legacy.Looking

namespace WinProfile.Legacy

/-! ## 1. The invariant -/

/-- The terminal audit entry of the migration that a record belongs to. -/
def auditOf (r : MigrationStateRecord) : TerminalAudit :=
  terminalAudit ⟨⟨PRODUCT_DIRECTORY, newRoot r.nextIdentity⟩, r⟩

/-- A migration that is complete has its terminal audit entry. -/
def Audited (audits : List TerminalAudit) (records : List MigrationStateRecord) : Prop :=
  ∀ r ∈ records, r.phase = .done → auditOf r ∈ audits

/-- **ProgramData is in order**: its records were published in the order of the protocol, its names
are what they say, and so are its audit entries. -/
def Consistent (C : StateCodec) (S : Setting) (w : World) : Prop :=
  ∃ records, Published records ∧ Journal C w records ∧ Layout S w.names w.drawn records ∧
    (w.owner ≠ none → w.names BOOTSTRAP_DIRECTORY ≠ none) ∧ Audited w.audits records

/-- What no step takes back: an object that was detached stays under its name, and the bootstrap
directory stays what it is. -/
structure Keeps (names names' : Names) : Prop where
  legacy : ∀ id o, names (LEGACY_PREFIX ++ id) = some o → names' (LEGACY_PREFIX ++ id) = some o
  bootstrap : ∀ o, names BOOTSTRAP_DIRECTORY = some o → names' BOOTSTRAP_DIRECTORY = some o
  trusted : Trusted names → Trusted names'

/-- The instance `me` has the lock. -/
def Owned (C : StateCodec) (S : Setting) (me : Nat) (w : World) : Prop :=
  Consistent C S w ∧ w.owner = some me

/-- A step of the instance that has the lock. -/
structure Locked (C : StateCodec) (S : Setting) (me : Nat) (w w' : World) : Prop where
  owned : Owned C S me w'
  keeps : Keeps w.names w'.names
  product : openOf (recordsIn C w) = none → w'.names PRODUCT_DIRECTORY = w.names PRODUCT_DIRECTORY
  leaves : ∀ o, w.names PRODUCT_DIRECTORY = some o →
    S.detachable o.identity ∨ w'.names PRODUCT_DIRECTORY = some o

/-- Between two calls of the instance `me`, which has the lock. -/
structure Held (C : StateCodec) (S : Setting) (me : Nat) (records : List MigrationStateRecord)
    (w : World) : Prop where
  published : Published records
  journal : Journal C w records
  layout : Layout S w.names w.drawn records
  bootstrap : w.names BOOTSTRAP_DIRECTORY ≠ none
  audited : Audited w.audits records
  owner : w.owner = some me

section Invariant

variable {C : StateCodec} {S : Setting} {me : Nat} {records : List MigrationStateRecord}
  {w w' : World} {names names' names'' : Names} {name : String} {o : StorageObject}

theorem Keeps.refl (names : Names) : Keeps names names :=
  ⟨fun _ _ h => h, fun _ h => h, fun h => h⟩

theorem Keeps.trans (h : Keeps names names') (h' : Keeps names' names'') : Keeps names names'' where
  legacy id o hname := h'.legacy id o (h.legacy id o hname)
  bootstrap o hname := h'.bootstrap o (h.bootstrap o hname)
  trusted htrusted := h'.trusted (h.trusted htrusted)

/-- A name changes that is neither that of a detached object nor that of the bootstrap directory. -/
theorem Keeps.update (v : Option StorageObject) (hlegacy : ∀ id, LEGACY_PREFIX ++ id ≠ name)
    (hboot : BOOTSTRAP_DIRECTORY ≠ name) : Keeps names (Function.update names name v) where
  legacy id o h := by rwa [Function.update_of_ne (hlegacy id)]
  bootstrap o h := by rwa [Function.update_of_ne hboot]
  trusted htrusted o h := by
    rw [Function.update_of_ne hboot] at h
    exact htrusted o h

/-- An object gets a name that was free. -/
theorem Keeps.create (hfree : names name = none) (htrusted : name = BOOTSTRAP_DIRECTORY → o.IsRoot) :
    Keeps names (Function.update names name (some o)) where
  legacy id o' h := by
    rw [Function.update_of_ne, h]
    rintro rfl
    rw [hfree] at h
    cases h
  bootstrap o' h := by
    rw [Function.update_of_ne, h]
    rintro rfl
    rw [hfree] at h
    cases h
  trusted htrust o' h := by
    by_cases hname : BOOTSTRAP_DIRECTORY = name
    · rw [hname, Function.update_self] at h
      cases h
      exact htrusted hname.symm
    · rw [Function.update_of_ne hname] at h
      exact htrust o' h

theorem Held.consistent (h : Held C S me records w) : Consistent C S w :=
  ⟨records, h.published, h.journal, h.layout, fun _ => h.bootstrap, h.audited⟩

theorem Held.owned (h : Held C S me records w) : Owned C S me w := ⟨h.consistent, h.owner⟩

theorem Owned.held (h : Owned C S me w) : ∃ records, Held C S me records w := by
  obtain ⟨⟨records, hpublished, hjournal, hlayout, hboot, haudited⟩, howner⟩ := h
  exact ⟨records, hpublished, hjournal, hlayout,
    hboot (by rw [howner]; exact Option.some_ne_none _), haudited, howner⟩

/-- A step that leaves the names alone. -/
theorem Owned.locked (h : Owned C S me w') (hnames : w'.names = w.names) : Locked C S me w w' := by
  refine ⟨h, ?_, fun _ => by rw [hnames], fun o ho => .inr (by rw [hnames, ho])⟩
  rw [hnames]
  exact .refl _

end Invariant

/-! ## 2. The calls -/

section Calls

variable {C : StateCodec} {S : Setting} {o : StorageObject} {calm : Prop} {me : Nat}
  {records : List MigrationStateRecord} {u r : MigrationStateRecord} {w : World}
  {i : StorageObjectIdentity} {id : String}

/-- What only looks can be done under the lock. -/
theorem Owned.looks {ε α : Type} {Q : α → Prop} {E : ε → Prop} {p : Prog ε α}
    (h : Owned C S me w) (hp : Looks (.still w) calm me Q E p) :
    Proc.always Eq (stepIn calm me) (Locked C S me) (fun a w' => w' = w ∧ Q a)
      (fun e w' => w' = w ∧ E e) p w := by
  have hstay : ∀ w₁ w₂, w₁ = w → w₂ = w₁ → Locked C S me w₁ w₂ ∧ w₂ = w := by
    rintro w₁ w₂ rfl rfl
    exact ⟨h.locked rfl, rfl⟩
  exact Proc.always_within (fun _ _ hw hr => (View.still w).stable hw hr) hstay (hp w rfl) rfl

theorem Owned.lookBind {ε ε' α β : Type} {Q : α → Prop} {E : ε → Prop} {Q' : β → World → Prop}
    {p : Prog ε α} {f : ε → ε'} {k : α → Prog ε' β} (h : Owned C S me w)
    (hp : Looks (.still w) calm me Q E p) (hE : ∀ e, E e → ¬ calm)
    (hk : ∀ a, Q a → Proc.always Eq (stepIn calm me) (Locked C S me) Q' (fun _ _ => ¬ calm) (k a) w) :
    Proc.always Eq (stepIn calm me) (Locked C S me) Q' (fun _ _ => ¬ calm)
      (Proc.mapErr f p >>= k) w := by
  refine (Proc.always_bind _ _).mpr ((Proc.always_mapErr _ _).mpr (Proc.always_mono (h.looks hp) ?_
    fun e _ he => hE e he.2))
  rintro a w' ⟨rfl, ha⟩
  exact hk a ha

theorem always_guardBind {ε β : Type} {R G : World → World → Prop} {Q : β → World → Prop}
    {E : ε → World → Prop} {c : Bool} {e : ε} {k : Unit → Prog ε β} (hE : c = false → E e w)
    (hk : c = true → Proc.always R (stepIn calm me) G Q E (k ()) w) :
    Proc.always R (stepIn calm me) G Q E (Proc.guard c e >>= k) w := by
  cases c with
  | true => exact hk rfl
  | false => exact hE rfl

/-- `BCryptGenRandom` under the lock. -/
theorem Held.random (h : Held C S me records w) :
    Proc.always Eq (stepIn calm me) (Locked C S me)
      (fun id w' => id ∉ w.drawn ∧ w' = { w with drawn := id :: w.drawn } ∧
        Held C S me records w')
      (fun _ _ => ¬ calm) randomId w := by
  unfold randomId
  refine (Proc.always_mapErr _ _).mpr (always_randomIn fun w₁ hr => ?_)
  subst hr
  refine ⟨fun hrestless => ⟨h.owned.locked rfl, fun _ => hrestless⟩, fun id hid _ => ?_⟩
  have hheld : Held C S me records { w with drawn := id :: w.drawn } :=
    ⟨h.published, h.journal.of_files rfl rfl, h.layout.mono (List.subset_cons_self _ _),
      h.bootstrap, h.audited, h.owner⟩
  exact ⟨hheld.owned.locked rfl, hid, rfl, hheld⟩

/-- What a name denotes is changed. -/
def World.placed (w : World) (name : String) (v : Option StorageObject) : World :=
  { w with names := Function.update w.names name v }

/-- The names that a step changes are those of the two roots. -/
theorem Held.names {names : Names} (h : Held C S me records w)
    (hlayout : Layout S names w.drawn records)
    (hboot : names BOOTSTRAP_DIRECTORY = w.names BOOTSTRAP_DIRECTORY) :
    Held C S me records { w with names } where
  published := h.published
  journal := h.journal.of_files rfl rfl
  layout := hlayout
  bootstrap := by
    show names BOOTSTRAP_DIRECTORY ≠ none
    rw [hboot]
    exact h.bootstrap
  audited := h.audited
  owner := h.owner

/-- What a rename comes to. -/
def World.renaming (w : World) (h : StorageHandle) (target : String) :
    Except StorageError (Unit × World) :=
  if w.names h.path = some h.object then
    match w.names target with
    | some _ => .error (.native "rename exact storage object by handle" s!"{h.path} -> {target}"
        STATUS_OBJECT_NAME_COLLISION)
    | none => .ok ((), w.renamed h target)
  else .error (.missing h.path)

/-- What the creation of a directory comes to. -/
def World.creating (w : World) (name : String) (o : StorageObject) :
    Except StorageError (StorageHandle × World) :=
  match w.names name with
  | some _ => .error (.taken name)
  | none => .ok (⟨name, o⟩, w.placed name (some o))

/-- A rename while a migration is not complete. -/
theorem Held.renames {a b : String} (h : Held C S me records w) (hopen : openOf records = some u)
    (hname : w.names a = some o) (hfree : w.names b = none)
    (ha : ∀ id, LEGACY_PREFIX ++ id ≠ a) (hbootA : BOOTSTRAP_DIRECTORY ≠ a)
    (hbootB : BOOTSTRAP_DIRECTORY ≠ b) (hleaves : a = PRODUCT_DIRECTORY → S.detachable o.identity)
    (hlayout : Layout S (w.renamed ⟨a, o⟩ b).names w.drawn records) :
    Proc.always Eq (stepIn calm me) (Locked C S me)
      (fun h' w' => h' = ⟨b, o⟩ ∧ w' = w.renamed ⟨a, o⟩ b ∧ Held C S me records w')
      (fun _ _ => ¬ calm) (renameTo ⟨a, o⟩ b) w := by
  have hkeeps : Keeps w.names (w.renamed ⟨a, o⟩ b).names := by
    have hgone : Keeps w.names (Function.update w.names a none) := .update none ha hbootA
    refine hgone.trans (.create ?_ fun heq => absurd heq.symm hbootB)
    by_cases heq : b = a
    · rw [heq, Function.update_self]
    · rw [Function.update_of_ne heq, hfree]
  have hheld : Held C S me records (w.renamed ⟨a, o⟩ b) := by
    refine h.names hlayout ?_
    show Function.update (Function.update w.names a none) b (some o) BOOTSTRAP_DIRECTORY = _
    rw [Function.update_of_ne hbootB, Function.update_of_ne hbootA]
  have hlocked : Locked C S me w (w.renamed ⟨a, o⟩ b) := by
    refine ⟨hheld.owned, hkeeps, fun hnone => ?_, fun o' ho' => ?_⟩
    · rw [h.journal.records, hopen] at hnone
      cases hnone
    · by_cases hproduct : a = PRODUCT_DIRECTORY
      · rw [← hproduct, hname] at ho'
        cases ho'
        exact .inl (hleaves hproduct)
      · have hother : PRODUCT_DIRECTORY ≠ b := fun heq => by rw [heq, hfree] at ho'; cases ho'
        right
        show Function.update (Function.update w.names a none) b (some o) PRODUCT_DIRECTORY = _
        rw [Function.update_of_ne hother, Function.update_of_ne (Ne.symm hproduct), ho']
  refine (Proc.always_bind _ _).mpr (always_effectIn rfl (fun fate => fate.error.error)
    (fun _ w => w.renaming ⟨a, o⟩ b) (fun _ _ => rfl) fun w₁ hr fate _ => ?_)
  subst hr
  unfold World.renaming
  rw [if_pos hname, hfree]
  exact ⟨h.owned.locked rfl, fun hrestless => hrestless, hlocked, ⟨rfl, rfl, hheld⟩,
    fun hrestless => hrestless⟩

/-- **The detachment.** -/
theorem Held.detach (h : Held C S me records w) (hopen : openOf records = some u)
    (hphase : u.phase = .prepared) (hname : w.names PRODUCT_DIRECTORY = some o)
    (hsource : o.identity = u.sourceIdentity) :
    Proc.always Eq (stepIn calm me) (Locked C S me)
      (fun h' w' => h' = ⟨u.legacyName, o⟩ ∧ w' = w.renamed ⟨PRODUCT_DIRECTORY, o⟩ u.legacyName ∧
        Held C S me records w')
      (fun _ _ => ¬ calm) (renameTo ⟨PRODUCT_DIRECTORY, o⟩ u.legacyName) w := by
  have hnamed := h.layout.named u (mem_of_openOf hopen)
  obtain ⟨_, ⟨_, hfree⟩ | ⟨hnone, _⟩⟩ := (h.layout.stands u hopen).prepared hphase
  · refine h.renames hopen hname hfree (fun id => legacy_ne_product) product_ne_bootstrap.symm ?_
      (fun _ => hsource ▸ h.layout.sources u (mem_of_openOf hopen))
      (h.layout.detached hopen hphase hname hsource)
    rw [hnamed.legacyName]
    exact legacy_ne_bootstrap.symm
  · rw [hname] at hnone
    cases hnone

/-- **The activation.** -/
theorem Held.activate (h : Held C S me records w) (hopen : openOf records = some u)
    (hphase : u.phase = .detached) (hname : w.names u.nextName = some o) :
    Proc.always Eq (stepIn calm me) (Locked C S me)
      (fun h' w' => h' = ⟨PRODUCT_DIRECTORY, o⟩ ∧
        w' = w.renamed ⟨u.nextName, o⟩ PRODUCT_DIRECTORY ∧ Held C S me records w')
      (fun _ _ => ¬ calm) (renameTo ⟨u.nextName, o⟩ PRODUCT_DIRECTORY) w := by
  have hnamed := h.layout.named u (mem_of_openOf hopen)
  obtain ⟨_, ⟨_, hfree⟩ | ⟨hnone, _⟩⟩ := (h.layout.stands u hopen).detached hphase
  · refine h.renames hopen hname hfree (fun id => ?_) ?_ product_ne_bootstrap.symm
      (fun heq => ?_) (h.layout.activated hopen hphase hname)
    · rw [hnamed.nextName]
      exact legacy_ne_next
    · rw [hnamed.nextName]
      exact next_ne_bootstrap.symm
    · rw [hnamed.nextName] at heq
      exact absurd heq next_ne_product
  · rw [hname] at hnone
    cases hnone

/-- A next root comes or goes. -/
theorem Held.placed (h : Held C S me records w) (hopen : openOf records = none) (hid : id ∈ w.drawn)
    {v : Option StorageObject}
    (hv : ∀ o, v = some o → ∃ k, o = newRoot k ∧ ∀ n o', w.names n = some o' → o'.identity ≠ k) :
    Held C S me records (w.placed (NEXT_PREFIX ++ id) v) ∧
      Locked C S me w (w.placed (NEXT_PREFIX ++ id) v) := by
  have hheld : Held C S me records (w.placed (NEXT_PREFIX ++ id) v) :=
    h.names (h.layout.set hopen hv (.inl ⟨id, hid, rfl⟩))
      (Function.update_of_ne next_ne_bootstrap.symm _ _)
  have hsame : (w.placed (NEXT_PREFIX ++ id) v).names PRODUCT_DIRECTORY
      = w.names PRODUCT_DIRECTORY := by
    show Function.update w.names (NEXT_PREFIX ++ id) v PRODUCT_DIRECTORY = _
    rw [Function.update_of_ne next_ne_product.symm]
  exact ⟨hheld, hheld.owned, .update v (fun _ => legacy_ne_next) next_ne_bootstrap.symm,
    fun _ => hsame, fun o ho => .inr (hsame.trans ho)⟩

/-- **A next root is created.** -/
theorem Held.create (h : Held C S me records w) (hopen : openOf records = none) (hid : id ∈ w.drawn)
    (hfree : w.names (NEXT_PREFIX ++ id) = none) :
    Proc.always Eq (stepIn calm me) (Locked C S me)
      (fun h' w' => ∃ i, h' = ⟨NEXT_PREFIX ++ id, newRoot i⟩ ∧
        w' = w.placed (NEXT_PREFIX ++ id) (some (newRoot i)) ∧ Held C S me records w')
      (fun _ _ => ¬ calm) (createProtectedChild (NEXT_PREFIX ++ id)) w := by
  refine (Proc.always_bind _ _).mpr (always_effectIn rfl (fun fate => fate.error.error)
    (fun fate w => w.creating (NEXT_PREFIX ++ id) (newRoot fate.fresh)) (fun _ _ => rfl)
    fun w₁ hr fate hadmissible => ?_)
  subst hr
  unfold World.creating
  rw [hfree]
  obtain ⟨hheld, hlocked⟩ := h.placed hopen hid (v := some (newRoot fate.fresh)) fun o ho =>
    ⟨fate.fresh, (Option.some.inj ho).symm, hadmissible⟩
  refine ⟨h.owned.locked rfl, fun hrestless => hrestless, hlocked, ?_, fun hrestless => hrestless⟩
  have hchecked : Looks (.still (w.placed (NEXT_PREFIX ++ id) (some (newRoot fate.fresh)))) calm me
      (· = ⟨NEXT_PREFIX ++ id, newRoot fate.fresh⟩) (fun _ => ¬ calm)
      (rootDirectory ⟨NEXT_PREFIX ++ id, newRoot fate.fresh⟩) :=
    looks_rootDirectory.mono (fun _ h => h) fun e he hcalm => he.honest hcalm (newRoot_isRoot _)
  refine Proc.always_mono (hheld.owned.looks hchecked) ?_ fun _ _ he => he.2
  rintro h' w' ⟨rfl, rfl⟩
  exact ⟨fate.fresh, rfl, rfl, hheld⟩

/-- A next root without a record is removed. -/
theorem Held.remove (h : Held C S me records w) (hopen : openOf records = none) (hid : id ∈ w.drawn) :
    Proc.always Eq (stepIn calm me) (Locked C S me) (fun _ _ => True) (fun _ _ => True)
      (request (.remove ⟨NEXT_PREFIX ++ id, o⟩) rfl : Prog StorageError Unit) w := by
  refine always_effectIn rfl (fun fate => fate.error.error)
    (fun _ w => if w.names (NEXT_PREFIX ++ id) = some o then
        .ok ((), w.placed (NEXT_PREFIX ++ id) none)
      else .error (.missing (NEXT_PREFIX ++ id))) (fun _ _ => rfl) fun w₁ hr fate _ => ?_
  subst hr
  refine ⟨h.owned.locked rfl, fun _ => trivial, ?_⟩
  by_cases hname : w.names (NEXT_PREFIX ++ id) = some o
  · rw [if_pos hname]
    have hplaced := h.placed hopen hid (v := none) fun o ho => by cases ho
    exact ⟨hplaced.2, trivial, fun _ => trivial⟩
  · rw [if_neg hname]
    trivial

end Calls

/-! ## 3. The writer -/

section Writer

variable {C : StateCodec} {S : Setting} {calm : Prop} {me : Nat}
  {records : List MigrationStateRecord} {r : MigrationStateRecord} {w : World} {name : Wide}

/-- A record that comes next has a file name of its own. -/
theorem Published.newName (h : Published (records ++ [r])) :
    ∀ x ∈ records, stateFileName x ≠ stateFileName r := by
  intro x hx hname
  obtain ⟨hid, hphase⟩ := stateFileName_inj hname
  rcases h.endsIn with hnil | ⟨before, u, hends⟩
  · simp at hnil
  · obtain rfl : r = u := by
      have hlast := hends.last
      rw [List.getLast?_concat] at hlast
      exact Option.some.inj hlast
    obtain ⟨front, hfront⟩ := List.getLast?_eq_some_iff.mp (getLast?_chainTo r)
    have heq := hends.eq
    rw [hfront, ← List.append_assoc] at heq
    rw [List.append_cancel_right heq] at hx
    rcases List.mem_append.mp hx with hx | hx
    · exact hends.others x hx hid
    · have hordered := pairwise_chainTo r
      rw [hfront, List.pairwise_append] at hordered
      have hlt := hordered.2.2 x hx r (List.mem_singleton_self r)
      rw [hphase] at hlt
      exact lt_irrefl _ hlt

theorem Journal.not_hasFile (hj : Journal C w records)
    (hnew : ∀ x ∈ records, stateFileName x ≠ stateFileName r) :
    w.hasFile (encodeWide (stateFileName r)) = false := by
  rw [World.hasFile, List.any_eq_false]
  intro f hf hname
  have hname : f.name = encodeWide (stateFileName r) := by simpa using hname
  have htext : decodeUtf16 f.name = some (stateFileName r) := by
    rw [hname, decodeUtf16_encodeWide]
  obtain ⟨bytes, state, hkind, hdecode, _, hstate⟩ :=
    hj.sound f hf _ htext (isStateName_stateFileName r)
  have hrecord : recordAt C f = some state := by
    unfold recordAt
    simp only [htext, hkind, if_pos (isStateName_stateFileName r), hdecode]
    rfl
  have hmem : state ∈ recordsIn C w := List.mem_filterMap.mpr ⟨f, hf, hrecord⟩
  rw [hj.records] at hmem
  exact hnew state hmem hstate

theorem lookFile_of_not_hasFile (h : w.hasFile name = false) :
    w.lookFile name = .error (.missing (toStringLossy name)) := by
  have hnone : (w.files.find? fun f => f.name = name) = none := by
    rw [List.find?_eq_none]
    intro f hf
    have hne := List.any_eq_false.mp h f hf
    simpa using hne
  rw [World.lookFile, hnone]

theorem hasFile_created (w : World) (a b : Wide) :
    (w.created a).hasFile b = (w.hasFile b || decide (a = b)) := by
  simp [World.hasFile, World.created]

theorem hasFile_append (w : World) (serial : Nat) (bytes : Bytes) (a : Wide) :
    (w.append serial bytes).hasFile a = w.hasFile a := by
  rw [World.hasFile, World.hasFile, World.append, List.any_map]
  refine congrArg (w.files.any ·) (funext fun f => ?_)
  by_cases hserial : f.serial = serial
  · simp [hserial]
  · simp [hserial]

section Straight

variable {ε α : Type} {Q : α → World → Prop} {E : ε → World → Prop} {c : Call}

/-- A calm call that only looks. -/
theorem calm_look (h : Answer c = Except ε α) (fault : Fate → ε) (found : Fate → World → Except ε α)
    (hc : ∀ fate w, ((h ▸ (answer me fate c w).1 : Except ε α), (answer me fate c w).2)
      = fate.look (fault fate) (found fate w) w)
    (H : ∀ fate : Fate, Meets Q E (found fate w) w) :
    Proc.always Eq (stepIn True me) (fun _ _ => True) Q E (request c h) w := by
  refine always_lookIn h fault found hc fun w₁ hr fate _ => ?_
  subst hr
  exact ⟨trivial, fun hrestless => absurd trivial hrestless, H fate⟩

/-- A calm call that has an effect. -/
theorem calm_effect (h : Answer c = Except ε α) (fault : Fate → ε)
    (effect : Fate → World → Except ε (α × World)) (hc : ∀ fate w,
      ((h ▸ (answer me fate c w).1 : Except ε α), (answer me fate c w).2)
        = fate.apply (fault fate) (effect fate w) w) {a : α} {w' : World}
    (heffect : ∀ fate, effect fate w = .ok (a, w')) (hQ : Q a w') :
    Proc.always Eq (stepIn True me) (fun _ _ => True) Q E (request c h) w := by
  refine always_effectIn h fault effect hc fun w₁ hr fate _ => ?_
  subst hr
  rw [heffect fate]
  exact ⟨trivial, fun hrestless => absurd trivial hrestless, trivial, hQ,
    fun hrestless => absurd trivial hrestless⟩

end Straight

/-- **`write_state` without failures** writes a record that is not there. -/
theorem writeState_calm (hfree : w.hasFile (encodeWide (stateFileName r)) = false) :
    Proc.always Eq (stepIn True me) (fun _ _ => True) (fun _ _ => True) (fun _ _ => False)
      (writeState C r) w := by
  unfold writeState
  refine (Proc.always_bind _ _).mpr ((Proc.always_attempt _).mpr (calm_look rfl
    (fun fate => fate.error.error) (fun _ w => w.lookFile (encodeWide (stateFileName r)))
    (fun _ _ => rfl) fun _ => ?_))
  rw [lookFile_of_not_hasFile hfree]
  have hmissing : (StorageError.missing (toStringLossy (encodeWide (stateFileName r)))).isNotFound
      = true := rfl
  show Proc.always Eq (stepIn True me) _ _ _ (ite _ _ _) w
  rw [if_pos hmissing]
  refine (Proc.always_bind _ _).mpr ((Proc.always_mapErr _ _).mpr
    (always_randomIn fun w₁ hr => ⟨fun hrestless => absurd trivial hrestless, fun id _ hid => ?_⟩))
  subst hr
  refine ⟨trivial, (Proc.always_bind _ _).mpr ((Proc.always_mapErr _ _).mpr ?_)⟩
  have htemp : World.hasFile { w with drawn := id :: w.drawn }
      (encodeWide s!".{r.migrationId}-{id}.tmp") = false := by
    rw [World.hasFile, List.any_eq_false]
    intro f hf hname
    exact hid trivial f hf r.migrationId (by simpa using hname)
  have hne : encodeWide s!".{r.migrationId}-{id}.tmp" ≠ encodeWide (stateFileName r) := by
    intro heq
    have htext : s!".{r.migrationId}-{id}.tmp" = stateFileName r := by
      rw [← Option.some_inj, ← decodeUtf16_encodeWide, heq, decodeUtf16_encodeWide]
    have hstate := isStateName_stateFileName r
    have hdot : s!".{r.migrationId}-{id}.tmp" = "." ++ (r.migrationId ++ "-" ++ id ++ ".tmp") := by
      simp only [String.append_assoc, toString]
    rw [← htext, hdot, isStateName_temp] at hstate
    cases hstate
  refine (Proc.always_bind _ _).mpr (calm_effect rfl (fun fate => fate.error.error)
    (fun _ w => if w.hasFile (encodeWide s!".{r.migrationId}-{id}.tmp") then
        .error (.taken (toStringLossy (encodeWide s!".{r.migrationId}-{id}.tmp")))
      else .ok (w.nextSerial, w.created (encodeWide s!".{r.migrationId}-{id}.tmp")))
    (fun _ _ => rfl) (fun _ => by rw [htemp]; rfl) ?_)
  generalize hw : World.created { w with drawn := id :: w.drawn } _ = w₁
  have hfree₁ : w₁.hasFile (encodeWide (stateFileName r)) = false := by
    rw [← hw, hasFile_created, show World.hasFile { w with drawn := id :: w.drawn } _ = _ from hfree]
    simpa using hne
  clear hw
  -- the file is there, and is checked twice
  refine (Proc.always_bind _ _).mpr ((Proc.always_attempt _).mpr (calm_look rfl
    (fun fate => fate.error.error) (fun _ _ => .ok ()) (fun _ _ => rfl) fun _ => ?_))
  refine (Proc.always_bind _ _).mpr ((Proc.always_attempt _).mpr (calm_look rfl
    (fun fate => fate.error.error) (fun _ _ => .ok ()) (fun _ _ => rfl) fun _ => ?_))
  -- it gets its content
  refine (Proc.always_bind _ _).mpr ((Proc.always_attempt _).mpr
    ((Proc.always_bind _ _).mpr (always_writeAllIn fun w₂ hr => ?_)))
  subst hr
  refine ⟨fun hrestless => absurd trivial hrestless, ⟨trivial, ?_⟩,
    fun hrestless => absurd trivial hrestless⟩
  refine (Proc.always_bind _ _).mpr (calm_look rfl (fun fate => fate.text) (fun _ _ => .ok ())
    (fun _ _ => rfl) fun _ => ?_)
  refine calm_look rfl (fun fate => fate.text) (fun _ _ => .ok ()) (fun _ _ => rfl) fun _ => ?_
  -- and its name
  refine (Proc.always_bind _ _).mpr ((Proc.always_attempt _).mpr (calm_effect rfl
    (fun fate => fate.error.error) (fun _ w₂ => if w₂.hasFile (encodeWide (stateFileName r)) then
        .error (.native "rename exact storage object by handle"
          (toStringLossy (encodeWide (stateFileName r))) STATUS_OBJECT_NAME_COLLISION)
      else .ok ((), w₂.published w.nextSerial (encodeWide (stateFileName r))))
    (fun _ _ => rfl) (fun _ => by rw [hasFile_append, hfree₁]; rfl) ?_))
  exact (Proc.always_mapErr _ _).mpr (calm_look rfl (fun fate => fate.text) (fun _ _ => .ok ())
    (fun _ _ => rfl) fun _ => trivial)

/-- The writer leaves everything but its files as it is. -/
structure Beside (me : Nat) (w w' : World) : Prop where
  names : w'.names = w.names
  owner : w'.owner = some me
  audits : w'.audits = w.audits
  drawn : w.drawn ⊆ w'.drawn

theorem Beside.apart : Apart Eq (Beside me w) where
  rely := fun hr h => hr ▸ h
  files := fun hr => by rw [hr]; exact ⟨rfl, rfl⟩
  own := fun hnames howner haudits hdrawn h => ⟨hnames.trans h.names, howner.trans h.owner,
    haudits.trans h.audits, List.Subset.trans h.drawn hdrawn⟩

theorem Held.beside {w' : World} (h : Held C S me records w) (hj : Journal C w' records)
    (hw : Beside me w w') : Held C S me records w' where
  published := h.published
  journal := hj
  layout := by
    rw [hw.names]
    exact h.layout.mono hw.drawn
  bootstrap := by
    rw [hw.names]
    exact h.bootstrap
  audited := by
    rw [hw.audits]
    exact h.audited
  owner := hw.owner

/-- A record is published that the names fit. -/
theorem Held.concat (h : Held C S me records w) (hfollows : Follows records r)
    (hnamed : Named w.drawn r) (hstands : Stands w.names r)
    (hsource : S.detachable r.sourceIdentity) (haudit : r.phase = .done → auditOf r ∈ w.audits)
    {w' : World} (hj : Journal C w' (records ++ [r])) (hw : Beside me w w') :
    Held C S me (records ++ [r]) w' where
  published := h.published.record hfollows
  journal := hj
  layout := by
    rw [hw.names]
    exact (h.layout.concat hnamed h.bootstrap hstands hsource).mono hw.drawn
  bootstrap := by
    rw [hw.names]
    exact h.bootstrap
  audited x hx hphase := by
    rw [hw.audits]
    rcases List.mem_append.mp hx with hx | hx
    · exact h.audited x hx hphase
    · rw [List.mem_singleton.mp hx] at hphase ⊢
      exact haudit hphase
  owner := hw.owner

/-- **`write_state` under the lock.** -/
theorem Held.write (h : Held C S me records w) (hfollows : Follows records r)
    (hnamed : Named w.drawn r) (hstands : Stands w.names r)
    (hsource : S.detachable r.sourceIdentity) (haudit : r.phase = .done → auditOf r ∈ w.audits) :
    Proc.always Eq (stepIn calm me) (Locked C S me)
      (fun _ w' => Held C S me (records ++ [r]) w' ∧ Beside me w w')
      (fun e w' => ¬ calm ∧ (¬ e.Ambiguous → Held C S me records w' ∧ Beside me w w'))
      (writeState C r) w := by
  have hself : Beside me w w := ⟨rfl, h.owner, rfl, List.Subset.refl _⟩
  have hat : At C (Beside me w) records w := ⟨h.journal, hself⟩
  have hspec : Proc.always Eq (stepIn calm me) (fun _ => Wrote C (Beside me w) records r)
      (fun _ w' => At C (Beside me w) records w' ∧ r ∈ records ∨
        At C (Beside me w) (records ++ [r]) w')
      (WriteFailed C (Beside me w) records r) (writeState C r) w :=
    always_in (writeState_spec Beside.apart hat (hfollows.schema h.published.schema))
  have hnew := (h.published.record hfollows).newName
  have hcalm : Proc.always Eq (stepIn calm me) (fun _ _ => True) (fun _ _ => True)
      (fun _ _ => ¬ calm) (writeState C r) w := by
    by_cases hcalm : calm
    · obtain rfl : calm = True := eq_true hcalm
      exact Proc.always_mono (writeState_calm (h.journal.not_hasFile hnew)) (fun _ _ h => h)
        fun _ _ hfalse => hfalse.elim
    · exact Proc.always_within (K := fun _ => True) (fun _ _ _ _ => trivial)
        (fun _ _ _ _ => ⟨trivial, trivial⟩)
        (Proc.always_mono hspec (fun _ _ _ => trivial) fun _ _ _ => hcalm) trivial
  have howned : ∀ w', Wrote C (Beside me w) records r w' → Owned C S me w' := by
    rintro w' ⟨hj | hj, hw⟩
    · exact (h.beside hj hw).owned
    · exact (h.concat hfollows hnamed hstands hsource haudit hj hw).owned
  have hboth := Proc.always_within (K := Wrote C (Beside me w) records r)
    (fun s s' hk (hr : s = s') => hr ▸ hk) (fun s s' hk hg =>
      ⟨(howned s' hg.1).locked (hg.1.apart.names.trans hk.apart.names.symm), hg.1⟩)
    (Proc.always_and hspec hcalm) hat.wrote
  refine Proc.always_mono hboth ?_ ?_
  · rintro _ w' ⟨⟨_, hmem⟩ | hmore, _⟩
    · exact absurd rfl (hnew r hmem)
    · exact ⟨h.concat hfollows hnamed hstands hsource haudit hmore.journal hmore.apart, hmore.apart⟩
  · rintro e w' ⟨hfailed, hrestless⟩
    refine ⟨hrestless, fun hclear => ?_⟩
    have hkept := hfailed.clear hclear
    exact ⟨h.beside hkept.journal hkept.apart, hkept.apart⟩

end Writer

/-! ## 4. The recovery -/

section Recovery

variable {C : StateCodec} {S : Setting} {o : StorageObject} {calm : Prop} {me : Nat}
  {records : List MigrationStateRecord} {u : MigrationStateRecord} {w : World}
  {p : MigrationPhase}

/-- The privileges are taken and given back around an operation. -/
theorem Owned.withPrivileges {Q : MigrationStateRecord → World → Prop}
    {operation : Prog LegacyStorageError MigrationStateRecord} (h : Owned C S me w)
    (hop : Proc.always Eq (stepIn calm me) (Locked C S me) Q (fun _ _ => ¬ calm) operation w) :
    Proc.always Eq (stepIn calm me) (Locked C S me) Q (fun _ _ => ¬ calm)
      (withPrivileges operation) w := by
  have hlook : ∀ {c : Call} (hc : Answer c = Except String Unit), (∀ fate w,
      ((hc ▸ (answer me fate c w).1 : Except String Unit), (answer me fate c w).2)
        = fate.look fate.text (.ok ()) w) → ∀ w, Looks (.still w) calm me (fun _ => True)
      (fun _ : String => ¬ calm) (request c hc) := fun hc hanswer w =>
    looks_call hc (fun fate => fate.text) (fun _ _ => .ok ()) hanswer
      (fun hrestless _ => hrestless) fun _ _ _ _ => trivial
  unfold Legacy.withPrivileges
  refine (Proc.always_bind _ _).mpr ((Proc.always_mapErr _ _).mpr (Proc.always_mono
    (h.looks (hlook (c := .adjustPrivileges) rfl (fun _ _ => rfl) w)) ?_ fun _ _ he => he.2))
  rintro _ w₁ ⟨rfl, _⟩
  have hkept := Proc.always_keeps (fun _ _ hg => hg.owned) hop h
  refine (Proc.always_bind _ _).mpr ((Proc.always_attempt _).mpr (Proc.always_mono hkept ?_ ?_))
  · rintro state w₂ ⟨hQ, howned⟩
    refine (Proc.always_bind _ _).mpr ((Proc.always_attempt _).mpr (Proc.always_mono
      (howned.looks (hlook (c := .restorePrivileges) rfl (fun _ _ => rfl) w₂)) ?_ ?_))
    · rintro _ w₃ ⟨rfl, _⟩
      exact hQ
    · rintro error w₃ ⟨rfl, hrestless⟩
      exact hrestless
  · rintro error w₂ ⟨hrestless, howned⟩
    refine (Proc.always_bind _ _).mpr ((Proc.always_attempt _).mpr (Proc.always_mono
      (howned.looks (hlook (c := .restorePrivileges) rfl (fun _ _ => rfl) w₂)) ?_ ?_))
    · exact fun _ _ _ => hrestless
    · exact fun _ _ _ => hrestless

/-- The next phase of the migration that is not complete. -/
theorem Held.writeNext (h : Held C S me records w) (hopen : openOf records = some u)
    (hphase : u.phase.next = some p) (hstands : Stands w.names { u with phase := p })
    (haudit : p = .done → auditOf u ∈ w.audits) :
    Proc.always Eq (stepIn calm me) (Locked C S me)
      (fun _ w' => Held C S me (records ++ [{ u with phase := p }]) w' ∧ Beside me w w')
      (fun _ _ => ¬ calm) (writeState C { u with phase := p }) w := by
  have hnamed := h.layout.named u (mem_of_openOf hopen)
  have hfollows : Follows records { u with phase := p } :=
    .next (openOf_eq_some.mp hopen).1 hphase rfl
  exact Proc.always_mono (h.write hfollows ⟨hnamed.legacyName, hnamed.nextName, hnamed.drawn⟩ hstands
    (h.layout.sources u (mem_of_openOf hopen)) haudit) (fun _ _ h => h) fun _ _ he => he.1

theorem openOf_next (hphase : p ≠ .done) :
    openOf (records ++ [{ u with phase := p }]) = some { u with phase := p } := by
  rw [openOf_concat, if_neg hphase]

/-- Detached, while the name of the product is free. -/
theorem Held.writeDetached (h : Held C S me records w) (hopen : openOf records = some u)
    (hphase : u.phase = .prepared) (hnone : w.names PRODUCT_DIRECTORY = none) :
    Proc.always Eq (stepIn calm me) (Locked C S me)
      (fun _ w' => Held C S me (records ++ [{ u with phase := .detached }]) w' ∧ Beside me w w')
      (fun _ _ => ¬ calm) (writeState C { u with phase := .detached }) w := by
  refine h.writeNext hopen (by rw [hphase]; rfl) ?_ MigrationPhase.noConfusion
  obtain ⟨hnext, ⟨⟨o, ho, _⟩, _⟩ | ⟨_, hlegacy⟩⟩ := (h.layout.stands u hopen).prepared hphase
  · rw [hnone] at ho
    cases ho
  · exact ⟨hlegacy, .inl ⟨hnext, hnone⟩⟩

/-- Ready, while the name of the product denotes the new root. -/
theorem Held.writeReady (h : Held C S me records w) (hopen : openOf records = some u)
    (hphase : u.phase = .detached) (hsome : w.names PRODUCT_DIRECTORY ≠ none) :
    Proc.always Eq (stepIn calm me) (Locked C S me)
      (fun _ w' => Held C S me (records ++ [{ u with phase := .rootReady }]) w' ∧ Beside me w w')
      (fun _ _ => ¬ calm) (writeState C { u with phase := .rootReady }) w := by
  refine h.writeNext hopen (by rw [hphase]; rfl) ?_ MigrationPhase.noConfusion
  obtain ⟨hlegacy, ⟨_, hnone⟩ | ⟨_, hproduct⟩⟩ := (h.layout.stands u hopen).detached hphase
  · exact absurd hnone hsome
  · exact ⟨hlegacy, hproduct⟩

/-- **A resumed migration whose record is prepared** is detached, where that is not done yet. -/
theorem Held.resumePrepared (h : Held C S me records w) (hopen : openOf records = some u)
    (hphase : u.phase = .prepared) :
    Proc.always Eq (stepIn calm me) (Locked C S me)
      (fun _ w' => Held C S me (records ++ [{ u with phase := .detached }]) w')
      (fun _ _ => ¬ calm) (resumePrepared C u) w := by
  obtain ⟨_, hwhere⟩ := (h.layout.stands u hopen).prepared hphase
  have hwrite : ∀ w₁, Held C S me records w₁ → w₁.names PRODUCT_DIRECTORY = none →
      Proc.always Eq (stepIn calm me) (Locked C S me)
        (fun _ w' => Held C S me (records ++ [{ u with phase := .detached }]) w')
        (fun _ _ => ¬ calm) (writeState C { u with phase := .detached }) w₁ := fun w₁ h₁ hnone =>
    Proc.always_mono (h₁.writeDetached hopen hphase hnone) (fun _ _ h => h.1) fun _ _ he => he
  unfold Legacy.resumePrepared
  have hopened : Looks (.still w) calm me
      (fun r => r.1.path = PRODUCT_DIRECTORY ∧ w.names PRODUCT_DIRECTORY = some r.1.object ∧
        r.2 = r.1.object.identity)
      (NotOpened calm (w.names PRODUCT_DIRECTORY) fun _ => True)
      (openObjectForDetach PRODUCT_DIRECTORY) := looks_openObjectForDetach (still_names w _)
  refine (Proc.always_bind _ _).mpr ((Proc.always_attempt _).mpr (Proc.always_mono
    (h.owned.looks hopened) ?_ ?_))
  · rintro ⟨⟨path, o⟩, identity⟩ w₁ ⟨rfl, hpath, hname, hidentity⟩
    simp only at hpath hname hidentity
    subst hpath hidentity
    have hsource : o.identity = u.sourceIdentity := by
      rcases hwhere with ⟨⟨o', ho', hsource⟩, _⟩ | ⟨hnone, _⟩
      · rw [hname] at ho'
        cases ho'
        exact hsource
      · rw [hnone] at hname
        cases hname
    refine always_guardBind (fun hguard => absurd hsource (of_decide_eq_false hguard)) fun _ => ?_
    refine (Proc.always_bind _ _).mpr ((Proc.always_mapErr _ _).mpr (Proc.always_mono
      (h.detach hopen hphase hname hsource) ?_ fun _ _ he => he))
    rintro _ w₂ ⟨_, rfl, h₂⟩
    refine hwrite _ h₂ ?_
    show Function.update (Function.update w₁.names PRODUCT_DIRECTORY none) u.legacyName (some o)
      PRODUCT_DIRECTORY = none
    rw [(h.layout.named u (mem_of_openOf hopen)).legacyName,
      Function.update_of_ne legacy_ne_product.symm, Function.update_self]
  · rintro e w₁ ⟨rfl, he⟩
    dsimp only
    by_cases hnot : e.isNotFound = true
    · rw [if_pos hnot]
      have hnone := he.absent hnot
      have hlegacy : Denotes w₁.names u.legacyName u.sourceIdentity := by
        rcases hwhere with ⟨⟨o', ho', _⟩, _⟩ | ⟨_, hlegacy⟩
        · rw [hnone] at ho'
          cases ho'
        · exact hlegacy
      obtain ⟨o, ho, hsource⟩ := hlegacy
      refine h.owned.lookBind (looks_openObjectIdentity (still_names w₁ _)) ?_ ?_
      · intro e' he' hcalm
        rcases he'.honest hcalm with ⟨hfree, _⟩ | ⟨_, _, hfalse⟩
        · rw [hfree] at ho
          cases ho
        · exact hfalse trivial
      · rintro identity ⟨o', ho', hidentity⟩
        rw [ho] at ho'
        cases ho'
        refine always_guardBind (fun hguard => ?_) fun _ => hwrite _ h hnone
        exact absurd (hidentity.symm.trans hsource) (of_decide_eq_false hguard)
    · rw [if_neg hnot]
      refine (Proc.always_bind _ _).mpr fun hcalm => ?_
      rcases he.honest hcalm with ⟨_, habsent⟩ | ⟨_, _, hfalse⟩
      · exact hnot habsent
      · exact hfalse trivial

/-- **A resumed migration whose record is detached** is activated, where that is not done yet. -/
theorem Held.resumeDetached (h : Held C S me records w) (hopen : openOf records = some u)
    (hphase : u.phase = .detached) :
    Proc.always Eq (stepIn calm me) (Locked C S me)
      (fun _ w' => Held C S me (records ++ [{ u with phase := .rootReady }]) w')
      (fun _ _ => ¬ calm) (resumeDetached C u) w := by
  obtain ⟨⟨o, ho, hsource⟩, hwhere⟩ := (h.layout.stands u hopen).detached hphase
  have hwrite : ∀ w₁, Held C S me records w₁ → w₁.names PRODUCT_DIRECTORY ≠ none →
      Proc.always Eq (stepIn calm me) (Locked C S me)
        (fun _ w' => Held C S me (records ++ [{ u with phase := .rootReady }]) w')
        (fun _ _ => ¬ calm) (writeState C { u with phase := .rootReady }) w₁ := fun w₁ h₁ hsome =>
    Proc.always_mono (h₁.writeReady hopen hphase hsome) (fun _ _ h => h.1) fun _ _ he => he
  unfold Legacy.resumeDetached
  -- the detached object is where the record says
  refine h.owned.lookBind (looks_openObjectIdentity (still_names w _)) ?_ ?_
  · intro e he hcalm
    rcases he.honest hcalm with ⟨hfree, _⟩ | ⟨_, _, hfalse⟩
    · rw [hfree] at ho
      cases ho
    · exact hfalse trivial
  rintro identity ⟨o', ho', hidentity⟩
  rw [ho] at ho'
  cases ho'
  refine always_guardBind (fun hguard => absurd (hidentity.symm.trans hsource)
    (of_decide_eq_false hguard)) fun _ => ?_
  have hopened : Looks (.still w) calm me
      (fun h => h.path = u.nextName ∧ w.names u.nextName = some h.object ∧
        h.object.isDirectory = true ∧ h.object.isReparse = false)
      (NotOpened calm (w.names u.nextName) fun o => o.isDirectory = true ∧ o.isReparse = false)
      (openExistingChild u.nextName) := looks_openExistingChild (still_names w _)
  refine (Proc.always_bind _ _).mpr ((Proc.always_attempt _).mpr (Proc.always_mono
    (h.owned.looks hopened) ?_ ?_))
  · rintro ⟨path, next⟩ w₁ ⟨rfl, hpath, hname, _⟩
    simp only at hpath hname
    subst hpath
    have hnext : next = newRoot u.nextIdentity := by
      rcases hwhere with ⟨hroot, _⟩ | ⟨hnone, _⟩
      · exact Option.some.inj (hname.symm.trans hroot)
      · rw [hnone] at hname
        cases hname
    refine h.owned.lookBind looks_objectIdentity (fun e he hcalm => he.honest hcalm trivial) ?_
    rintro identity rfl
    refine always_guardBind (fun hguard => absurd (congrArg StorageObject.identity hnext)
      (of_decide_eq_false hguard)) fun _ => ?_
    refine (Proc.always_bind _ _).mpr ((Proc.always_mapErr _ _).mpr (Proc.always_mono
      (h.activate hopen hphase hname) ?_ fun _ _ he => he))
    rintro _ w₂ ⟨_, rfl, h₂⟩
    refine hwrite _ h₂ ?_
    show Function.update (Function.update w₁.names u.nextName none) PRODUCT_DIRECTORY (some next)
      PRODUCT_DIRECTORY ≠ none
    rw [Function.update_self]
    exact Option.some_ne_none _
  · rintro e w₁ ⟨rfl, he⟩
    dsimp only
    by_cases hnot : e.isNotFound = true
    · rw [if_pos hnot]
      have hproduct : w₁.names PRODUCT_DIRECTORY = some (newRoot u.nextIdentity) := by
        rcases hwhere with ⟨hroot, _⟩ | ⟨_, hproduct⟩
        · rw [he.absent hnot] at hroot
          cases hroot
        · exact hproduct
      have hverified : Looks (.still w₁) calm me
          (fun _ => Denotes w₁.names PRODUCT_DIRECTORY u.nextIdentity ∧
            Denotes w₁.names u.legacyName u.sourceIdentity)
          (fun _ => ¬ calm) (verifyReadyRoot u) :=
        looks_verifyReadyRoot.mono (fun _ h => h) fun _ hrefused hcalm =>
          hrefused hcalm ⟨hproduct, o, ho, hsource⟩
      refine (Proc.always_bind _ _).mpr (Proc.always_mono (h.owned.looks hverified) ?_
        fun _ _ he => he.2)
      rintro _ w₂ ⟨rfl, _⟩
      exact hwrite _ h (by rw [hproduct]; exact Option.some_ne_none _)
    · rw [if_neg hnot]
      refine (Proc.always_bind _ _).mpr fun hcalm => ?_
      rcases he.honest hcalm with ⟨_, habsent⟩ | ⟨next, hnext, hbad⟩
      · exact hnot habsent
      · rcases hwhere with ⟨hroot, _⟩ | ⟨hnone, _⟩
        · rw [hroot] at hnext
          cases hnext
          exact hbad ⟨rfl, rfl⟩
        · rw [hnone] at hnext
          cases hnext

/-- The migration of `u` has come to `state`, which is a later phase of it. -/
structure Arrived (C : StateCodec) (S : Setting) (me : Nat) (u state : MigrationStateRecord)
    (w : World) : Prop where
  same : state = { u with phase := state.phase }
  ready : state.phase = .rootReady ∨ state.phase = .auditPending
  held : ∃ records, Held C S me records w ∧ openOf records = some state

theorem openOf_ready : openOf (records ++ [{ u with phase := .rootReady }])
    = some { u with phase := .rootReady } :=
  openOf_next MigrationPhase.noConfusion

/-- **`resume_namespace`.** -/
theorem Held.resumeNamespace (h : Held C S me records w) (hopen : openOf records = some u) :
    Proc.always Eq (stepIn calm me) (Locked C S me) (fun state w' => Arrived C S me u state w')
      (fun _ _ => ¬ calm) (resumeNamespace C u) w := by
  have hverify : u.phase = .rootReady ∨ u.phase = .auditPending →
      Proc.always Eq (stepIn calm me) (Locked C S me) (fun state w' => Arrived C S me u state w')
        (fun _ _ => ¬ calm) (verifyReadyRoot u >>= fun _ => pure u) w := by
    intro hphase
    have hready := (h.layout.stands u hopen).ready
      (by rcases hphase with hp | hp <;> rw [hp] <;> exact MigrationPhase.noConfusion)
      (by rcases hphase with hp | hp <;> rw [hp] <;> exact MigrationPhase.noConfusion)
    have hverified : Looks (.still w) calm me
        (fun _ => Denotes w.names PRODUCT_DIRECTORY u.nextIdentity ∧
          Denotes w.names u.legacyName u.sourceIdentity)
        (fun _ => ¬ calm) (verifyReadyRoot u) :=
      looks_verifyReadyRoot.mono (fun _ h => h) fun _ hrefused hcalm =>
        hrefused hcalm ⟨hready.2, hready.1⟩
    refine (Proc.always_bind _ _).mpr (Proc.always_mono (h.owned.looks hverified) ?_
      fun _ _ he => he.2)
    rintro _ w₁ ⟨rfl, _⟩
    exact ⟨rfl, hphase, records, h, hopen⟩
  unfold Legacy.resumeNamespace
  refine h.owned.withPrivileges ?_
  cases hphase : u.phase with
  | prepared =>
    refine (Proc.always_bind _ _).mpr (Proc.always_mono (h.resumePrepared hopen hphase) ?_
      fun _ _ he => he)
    intro _ w₁ h₁
    have hopen₁ : openOf (records ++ [{ u with phase := .detached }])
        = some { u with phase := .detached } := openOf_next MigrationPhase.noConfusion
    refine (Proc.always_bind _ _).mpr (Proc.always_mono (h₁.resumeDetached hopen₁ rfl) ?_
      fun _ _ he => he)
    intro _ w₂ h₂
    exact ⟨rfl, .inl rfl, _, h₂, openOf_ready⟩
  | detached =>
    refine (Proc.always_bind _ _).mpr (Proc.always_mono (h.resumeDetached hopen hphase) ?_
      fun _ _ he => he)
    intro _ w₁ h₁
    exact ⟨rfl, .inl rfl, _, h₁, openOf_ready⟩
  | rootReady => exact hverify (.inl hphase)
  | auditPending => exact hverify (.inr hphase)
  | done => exact absurd hphase (openOf_eq_some.mp hopen).2

/-- A migration that begins: its names are free but for the new root. -/
structure Begins (records : List MigrationStateRecord) (o : StorageObject) (u : MigrationStateRecord)
    (w : World) : Prop where
  phase : u.phase = .prepared
  schema : u.schema = 1
  id : ∀ x ∈ records, x.migrationId ≠ u.migrationId
  named : Named w.drawn u
  product : w.names PRODUCT_DIRECTORY = some o
  source : o.identity = u.sourceIdentity
  next : w.names u.nextName = some (newRoot u.nextIdentity)
  free : w.names u.legacyName = none
/-- The prepared record is published, or its root goes again. -/
theorem Held.persistPrepared (h : Held C S me records w) (hopen : openOf records = none)
    (hu : Begins records o u w) (hsource : S.detachable u.sourceIdentity) :
    Proc.always Eq (stepIn calm me) (Locked C S me)
      (fun next w' => next = ⟨u.nextName, newRoot u.nextIdentity⟩ ∧
        Held C S me (records ++ [u]) w' ∧ w'.names = w.names)
      (fun _ _ => ¬ calm)
      (persistPreparedState ⟨u.nextName, newRoot u.nextIdentity⟩ (writeState C u)) w := by
  have hfollows : Follows records u := .prepared hopen hu.phase hu.schema hu.id
  have hstands : Stands w.names u := by
    rw [Stands, hu.phase]
    exact ⟨hu.next, .inl ⟨⟨o, hu.product, hu.source⟩, hu.free⟩⟩
  have haudit : u.phase = .done → auditOf u ∈ w.audits := fun hdone => by
    rw [hu.phase] at hdone
    cases hdone
  refine (Proc.always_bind _ _).mpr ((Proc.always_attempt _).mpr (Proc.always_mono
    (h.write hfollows hu.named hstands hsource haudit) ?_ ?_))
  · rintro _ w₁ ⟨h₁, hbeside⟩
    exact ⟨rfl, h₁, hbeside.names⟩
  · rintro e w₁ ⟨hrestless, hclear⟩
    have hother : ∀ k : Except StorageError Unit → Prog LegacyStorageError StorageHandle,
        ¬ e.Ambiguous → (∀ r w₂, Proc.always Eq (stepIn calm me) (Locked C S me)
          (fun next w' => next = ⟨u.nextName, newRoot u.nextIdentity⟩ ∧
            Held C S me (records ++ [u]) w' ∧ w'.names = w.names) (fun _ _ => ¬ calm) (k r) w₂) →
        Proc.always Eq (stepIn calm me) (Locked C S me)
          (fun next w' => next = ⟨u.nextName, newRoot u.nextIdentity⟩ ∧
            Held C S me (records ++ [u]) w' ∧ w'.names = w.names) (fun _ _ => ¬ calm)
          (Proc.attempt (request (.remove ⟨u.nextName, newRoot u.nextIdentity⟩) rfl :
            Prog StorageError Unit) >>= k) w₁ := by
      intro k hambiguous hk
      obtain ⟨h₁, hbeside⟩ := hclear hambiguous
      have hremove : Proc.always Eq (stepIn calm me) (Locked C S me) (fun _ _ => True)
          (fun _ _ => True) (request (.remove ⟨u.nextName, newRoot u.nextIdentity⟩) rfl :
            Prog StorageError Unit) w₁ := by
        rw [hu.named.nextName]
        exact h₁.remove hopen (hbeside.drawn hu.named.drawn)
      exact (Proc.always_bind _ _).mpr ((Proc.always_attempt _).mpr (Proc.always_mono hremove
        (fun _ w₂ _ => hk _ w₂) fun _ w₂ _ => hk _ w₂))
    cases e with
    | publishedStateSync name source => exact hrestless
    | statePublication name source => exact hrestless
    | storage error | serialization text | io text | privilege text
    | operationAndPrivilegeRestore a b | privilegeRestore text | identityChanged
    | invalidState text | ambiguousState | random status =>
      refine hother _ (fun hambiguous => by cases hambiguous) fun r w₂ => ?_
      cases r <;> exact hrestless

/-- **The steps of a migration**, from its prepared record to its root. -/
theorem Held.startSteps (h : Held C S me records w) (hopen : openOf records = none)
    (hu : Begins records o u w) (hsource : S.detachable u.sourceIdentity) :
    Proc.always Eq (stepIn calm me) (Locked C S me) (fun state w' => Arrived C S me u state w')
      (fun _ _ => ¬ calm)
      (startSteps C ⟨PRODUCT_DIRECTORY, o⟩ ⟨u.nextName, newRoot u.nextIdentity⟩ u) w := by
  unfold Legacy.startSteps
  refine (Proc.always_bind _ _).mpr (Proc.always_mono (h.persistPrepared hopen hu hsource) ?_
    fun _ _ he => he)
  rintro next w₁ ⟨rfl, h₁, hnames₁⟩
  have hopen₁ : openOf (records ++ [u]) = some u := by
    rw [openOf_concat, if_neg (by rw [hu.phase]; exact MigrationPhase.noConfusion)]
  have hproduct₁ : w₁.names PRODUCT_DIRECTORY = some o := by rw [hnames₁, hu.product]
  -- detached
  refine (Proc.always_bind _ _).mpr ((Proc.always_mapErr _ _).mpr (Proc.always_mono
    (h₁.detach hopen₁ hu.phase hproduct₁ hu.source) ?_ fun _ _ he => he))
  rintro _ w₂ ⟨_, rfl, h₂⟩
  have hnone₂ : (w₁.renamed ⟨PRODUCT_DIRECTORY, o⟩ u.legacyName).names PRODUCT_DIRECTORY = none := by
    show Function.update (Function.update w₁.names PRODUCT_DIRECTORY none) u.legacyName (some o)
      PRODUCT_DIRECTORY = none
    rw [hu.named.legacyName, Function.update_of_ne legacy_ne_product.symm, Function.update_self]
  refine (Proc.always_bind _ _).mpr (Proc.always_mono (h₂.writeDetached hopen₁ hu.phase hnone₂) ?_
    fun _ _ he => he)
  rintro _ w₃ ⟨h₃, hbeside₃⟩
  have hopen₃ : openOf (records ++ [u] ++ [{ u with phase := .detached }])
      = some { u with phase := .detached } := openOf_next MigrationPhase.noConfusion
  have hnext₃ : w₃.names u.nextName = some (newRoot u.nextIdentity) := by
    obtain ⟨_, ⟨hnext, _⟩ | ⟨_, hproduct⟩⟩ := (h₃.layout.stands _ hopen₃).detached rfl
    · exact hnext
    · rw [hbeside₃.names, hnone₂] at hproduct
      cases hproduct
  -- activated
  refine (Proc.always_bind _ _).mpr ((Proc.always_mapErr _ _).mpr (Proc.always_mono
    (h₃.activate (u := { u with phase := .detached }) hopen₃ rfl hnext₃) ?_ fun _ _ he => he))
  rintro _ w₄ ⟨rfl, rfl, h₄⟩
  have hvalid : ∀ e, Refused calm (newRoot u.nextIdentity).descriptor.IsRoot e → ¬ calm :=
    fun e he hcalm => he.honest hcalm rootDescriptor_isRoot
  refine h₄.owned.lookBind looks_validateProductionRoot hvalid fun _ _ => ?_
  refine h₄.owned.lookBind looks_objectIdentity (fun e he hcalm => he.honest hcalm trivial) ?_
  rintro identity rfl
  refine always_guardBind (fun hguard => absurd rfl (of_decide_eq_false hguard)) fun _ => ?_
  have hsome₄ : (w₃.renamed ⟨u.nextName, newRoot u.nextIdentity⟩ PRODUCT_DIRECTORY).names
      PRODUCT_DIRECTORY ≠ none := by
    show Function.update (Function.update w₃.names u.nextName none) PRODUCT_DIRECTORY
      (some (newRoot u.nextIdentity)) PRODUCT_DIRECTORY ≠ none
    rw [Function.update_self]
    exact Option.some_ne_none _
  refine (Proc.always_bind _ _).mpr (Proc.always_mono
    (h₄.writeReady (u := { u with phase := .detached }) hopen₃ rfl hsome₄) ?_ fun _ _ he => he)
  rintro _ w₅ ⟨h₅, _⟩
  exact ⟨rfl, .inl rfl, _, h₅, openOf_ready⟩

/-- **`start_namespace`**, of what is under the name of the product. -/
theorem Held.startNamespace {detected : StorageObjectIdentity} (h : Held C S me records w)
    (hopen : openOf records = none) (hmay : S.detachable detected)
    (hdetected : calm → Denotes w.names PRODUCT_DIRECTORY detected) :
    Proc.always Eq (stepIn calm me) (Locked C S me)
      (fun state w' => ∃ u, u.sourceIdentity = detected ∧ Arrived C S me u state w')
      (fun _ _ => ¬ calm) (startNamespace C detected) w := by
  unfold Legacy.startNamespace
  refine h.owned.withPrivileges ?_
  refine h.owned.lookBind (looks_openObjectForDetach (still_names w _)) ?_ ?_
  · intro e he hcalm
    obtain ⟨o, ho, _⟩ := hdetected hcalm
    rcases he.honest hcalm with ⟨hnone, _⟩ | ⟨_, _, hfalse⟩
    · rw [hnone] at ho
      cases ho
    · exact hfalse trivial
  rintro ⟨⟨path, o⟩, identity⟩ ⟨hpath, hname, hidentity⟩
  simp only at hpath hname hidentity
  subst hpath hidentity
  dsimp only
  refine always_guardBind (fun hguard hcalm => ?_) fun hguard => ?_
  · obtain ⟨o', ho', hsource⟩ := hdetected hcalm
    rw [hname] at ho'
    cases ho'
    exact absurd hsource.symm (of_decide_eq_false hguard)
  have hsource : detected = o.identity := of_decide_eq_true hguard
  refine (Proc.always_bind _ _).mpr (Proc.always_mono h.random ?_ fun _ _ he => he)
  rintro id w₁ ⟨hid, rfl, h₁⟩
  obtain ⟨hlegacy, hnext⟩ := h.layout.fresh id hid
  have hmem : id ∈ id :: w.drawn := List.mem_cons_self ..
  refine (Proc.always_bind _ _).mpr ((Proc.always_mapErr _ _).mpr (Proc.always_mono
    (h₁.create hopen hmem hnext) ?_ fun _ _ he => he))
  rintro _ w₂ ⟨i, rfl, rfl, h₂⟩
  refine h₂.owned.lookBind looks_objectIdentity (fun e he hcalm => he.honest hcalm trivial) ?_
  rintro identity rfl
  refine Proc.always_mono (h₂.startSteps hopen ⟨rfl, rfl, fun x hx heq => ?_,
    ⟨rfl, rfl, hmem⟩, ?_, rfl, ?_, ?_⟩ (hsource ▸ hmay))
    (fun state w₃ harrived => ⟨_, hsource.symm, harrived⟩) fun _ _ he => he
  · have hdrawn := (h.layout.named x hx).drawn
    rw [show x.migrationId = id from heq] at hdrawn
    exact hid hdrawn
  · show Function.update w.names (NEXT_PREFIX ++ id) (some (newRoot identity)) PRODUCT_DIRECTORY = _
    rw [Function.update_of_ne next_ne_product.symm, hname]
  · exact Function.update_self ..
  · show Function.update w.names (NEXT_PREFIX ++ id) (some (newRoot identity)) (LEGACY_PREFIX ++ id) = _
    rw [Function.update_of_ne legacy_ne_next, hlegacy]

/-- The recovery of `u` waits for its terminal audit entry: the new root has the name of the product,
and the record says so. -/
structure Awaits (C : StateCodec) (S : Setting) (me : Nat) (u : MigrationStateRecord)
    (pending : PendingProductionStorage) (w : World) : Prop where
  storage : pending.storage = ⟨PRODUCT_DIRECTORY, newRoot u.nextIdentity⟩
  state : pending.state = { u with phase := .auditPending }
  held : ∃ records, Held C S me records w ∧ openOf records = some pending.state

theorem Held.markAuditPending {state : MigrationStateRecord} (h : Arrived C S me u state w) :
    Proc.always Eq (stepIn calm me) (Locked C S me) (fun pending w' => Awaits C S me u pending w')
      (fun _ _ => ¬ calm) (markAuditPending C state) w := by
  obtain ⟨hsame, hphase, records, hheld, hopen⟩ := h
  have hready := (hheld.layout.stands state hopen).ready
    (by rcases hphase with hp | hp <;> rw [hp] <;> exact MigrationPhase.noConfusion)
    (by rcases hphase with hp | hp <;> rw [hp] <;> exact MigrationPhase.noConfusion)
  have hnext : state.nextIdentity = u.nextIdentity := by rw [hsame]
  have hpending : { state with phase := .auditPending } = { u with phase := .auditPending } := by
    rw [hsame]
  unfold Legacy.markAuditPending
  refine hheld.owned.lookBind (looks_openExistingUnder (still_names w _)) ?_ ?_
  · intro e he hcalm
    rcases he.honest hcalm with ⟨hnone, _⟩ | ⟨o, ho, hbad⟩
    · rw [hready.2] at hnone
      cases hnone
    · rw [hready.2] at ho
      cases ho
      exact hbad (newRoot_isRoot _)
  rintro ⟨path, root⟩ ⟨hpath, hname, _⟩
  simp only at hpath hname
  subst hpath
  obtain rfl : newRoot state.nextIdentity = root := Option.some.inj (hready.2.symm.trans hname)
  rcases hphase with hphase | hphase
  · have hplan : recoveryPlan .rootReady = .markAuditPending := rfl
    rw [hphase, hplan]
    dsimp only
    have hstands : Stands w.names { state with phase := .auditPending } := hready
    refine (Proc.always_bind _ _).mpr (Proc.always_mono
      (hheld.writeNext hopen (by rw [hphase]; rfl) hstands MigrationPhase.noConfusion) ?_
      fun _ _ he => he)
    rintro _ w₁ ⟨h₁, _⟩
    exact ⟨by rw [hnext], hpending, _, h₁, openOf_next MigrationPhase.noConfusion⟩
  · have hplan : recoveryPlan .auditPending = .retryTerminalAudit := rfl
    rw [hphase, hplan]
    have hstate : state = { state with phase := .auditPending } := by rw [← hphase]
    exact ⟨by rw [hnext], hstate.trans hpending, records, hheld, hopen⟩

/-- **`execute_recovery` under the lock**: it resumes the migration that is not complete, or begins
one with what is under the name of the product. -/
theorem Held.recoverUnderLock {created : Bool} {detected : StorageObjectIdentity}
    (h : Held C S me records w) (hmay : S.detachable detected) (hreadable : calm → Readable created w)
    (hdetected : calm → openOf records = none → Denotes w.names PRODUCT_DIRECTORY detected) :
    Proc.always Eq (stepIn calm me) (Locked C S me)
      (fun pending w' => ∃ u, (openOf records = some u ∨
        openOf records = none ∧ u.sourceIdentity = detected) ∧ Awaits C S me u pending w')
      (fun _ _ => ¬ calm) (recoverUnderLock C created detected) w := by
  unfold Legacy.recoverUnderLock
  refine (Proc.always_bind _ _).mpr (Proc.always_mono
    (h.owned.looks (looks_loadPendingFromBootstrap (View.reads_still w) h.published h.journal)) ?_
    fun _ _ he hcalm => he.2 hcalm (hreadable hcalm))
  rintro pending w₁ ⟨rfl, rfl⟩
  cases hopen : openOf records with
  | some u =>
    refine (Proc.always_bind _ _).mpr (Proc.always_mono (h.resumeNamespace hopen) ?_
      fun _ _ he => he)
    intro state w₂ harrived
    exact Proc.always_mono (Held.markAuditPending harrived)
      (fun pending w₃ hawaits => ⟨u, .inl rfl, hawaits⟩) fun _ _ he => he
  | none =>
    refine (Proc.always_bind _ _).mpr (Proc.always_mono
      (h.startNamespace hopen hmay fun hcalm => hdetected hcalm hopen) ?_ fun _ _ he => he)
    rintro state w₂ ⟨u, hsource, harrived⟩
    exact Proc.always_mono (Held.markAuditPending harrived)
      (fun pending w₃ hawaits => ⟨u, .inr ⟨rfl, hsource⟩, hawaits⟩) fun _ _ he => he

theorem completeRecovery_eq (recovery : LegacyStorageRecovery) : completeRecovery C recovery =
    Proc.mapErr .legacy (executeRecovery C recovery.detectedIdentity) >>= finishRecovery C := rfl

/-- The migration of `u` is complete, and its root is open. -/
structure Completed (C : StateCodec) (S : Setting) (me : Nat) (u : MigrationStateRecord)
    (root : StorageHandle) (w : World) : Prop where
  root : root = ⟨PRODUCT_DIRECTORY, newRoot u.nextIdentity⟩
  product : w.names PRODUCT_DIRECTORY = some (newRoot u.nextIdentity)
  held : ∃ records, Held C S me records w ∧
    records.getLast? = some { u with phase := .done }

/-- **The terminal audit entry and the last record.** -/
theorem Awaits.finish {pending : PendingProductionStorage} (h : Awaits C S me u pending w) :
    Proc.always Eq (stepIn calm me) (Locked C S me) (fun root w' => Completed C S me u root w')
      (fun _ _ => ¬ calm) (finishRecovery C pending) w := by
  obtain ⟨hstorage, hstate, records, hheld, hopen⟩ := h
  have hservice : ∀ w, Looks (.still w) calm me (fun _ => True) (fun _ : String => ¬ calm)
      (request (.openService pending.storage) rfl) := fun w =>
    looks_call rfl (fun fate => fate.text) (fun _ _ => .ok ()) (fun _ _ => rfl)
      (fun hrestless _ => hrestless) fun _ _ _ _ => trivial
  refine hheld.owned.lookBind (hservice w) (fun _ he => he) fun _ _ => ?_
  refine hheld.owned.lookBind (hservice w) (fun _ he => he) fun _ _ => ?_
  refine (Proc.always_bind _ _).mpr ((Proc.always_mapErr _ _).mpr (always_effectIn rfl
    (fun fate => fate.text)
    (fun _ w => .ok ((), { w with audits := w.audits ++ [terminalAudit pending] }))
    (fun _ _ => rfl) fun w₁ hr fate _ => ?_))
  subst hr
  have haudited : Held C S me records { w with audits := w.audits ++ [terminalAudit pending] } :=
    ⟨hheld.published, hheld.journal.of_files rfl rfl, hheld.layout, hheld.bootstrap,
      fun r hr hdone => List.mem_append_left _ (hheld.audited r hr hdone), hheld.owner⟩
  have hentry : auditOf pending.state ∈ w.audits ++ [terminalAudit pending] := by
    refine List.mem_append_right _ (List.mem_singleton.mpr ?_)
    have hnext : pending.storage = ⟨PRODUCT_DIRECTORY, newRoot pending.state.nextIdentity⟩ := by
      rw [hstorage, hstate]
    unfold auditOf
    rw [← hnext]
  refine ⟨hheld.owned.locked rfl, fun hrestless => hrestless, haudited.owned.locked rfl, ?_,
    fun hrestless => hrestless⟩
  -- the last record
  have hready : Stands w.names { pending.state with phase := .done } := by
    have hstands := hheld.layout.stands _ hopen
    rw [hstate] at hstands ⊢
    exact hstands.ready MigrationPhase.noConfusion MigrationPhase.noConfusion
  have hproduct : w.names PRODUCT_DIRECTORY = some (newRoot u.nextIdentity) := by
    rw [hready.2, hstate]
  refine (Proc.always_mapErr _ _).mpr ((Proc.always_bind _ _).mpr (Proc.always_mono
    (haudited.writeNext hopen (by rw [hstate]; rfl) hready fun _ => hentry) ?_ fun _ _ he => he))
  rintro _ w₂ ⟨h₂, hbeside₂⟩
  refine ⟨hstorage, by rw [hbeside₂.names]; exact hproduct, _, h₂, ?_⟩
  rw [List.getLast?_concat, hstate]

end Recovery

end WinProfile.Legacy
