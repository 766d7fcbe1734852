/-
  File:      WinProfile/Legacy/Calm.lean
  Subject:   The recovery when none of its calls fails for a reason of its own, and that such calls can
             always be made.

  * `Changed` -- what one call can do to ProgramData; `Plain` and `Bounded` are kept by all of it.
  * `exists_calm` -- every call can be answered without a failure.
  * `calm_executeRecovery`, `calm_completeRecovery` -- where there is a bootstrap directory.
  * `calm_executeRecovery_first` -- where there is none: the directory is made, and cannot be
    enumerated while the handle is open that made it.
  * `Consistent.inspectable` -- an inspection that says what there is to do.
-/
import WinProfile.Legacy.Attempts

namespace WinProfile.Legacy

/-! ## 1. What a call can change -/

/-- What a call leaves of ProgramData. -/
inductive Changed (w : World) : World → Prop where
  | same : Changed w w
  | named (name : String) (v : Option StorageObject) :
      Changed w { w with names := Function.update w.names name v }
  | renamed (h : StorageHandle) (target : String) : Changed w (w.renamed h target)
  | locked (me : Nat) : Changed w { w with owner := some me }
  | created (name : Wide) : Changed w (w.created name)
  | written (serial : Nat) (bytes : Bytes) : Changed w (w.append serial bytes)
  | published (serial : Nat) (name : Wide) : Changed w (w.published serial name)
  | deleted (serial : Nat) : Changed w (w.deleted serial)
  | drawn (id : String) : Changed w { w with drawn := id :: w.drawn }
  | audited (entry : TerminalAudit) : Changed w { w with audits := w.audits ++ [entry] }

section Change

variable {me : Nat} {w w' : World} {c : Call}

theorem Fate.look_keeps {ε α : Type} {K : World → Prop} (fate : Fate) (fault : ε)
    (found : Except ε α) (h : K w) : K (fate.look fault found w).2 := by
  unfold Fate.look
  cases fate.outcome <;> exact h

theorem Fate.apply_keeps {ε α : Type} {K : World → Prop} {fate : Fate} {fault : ε}
    {effect : Except ε (α × World)} (h : K w) (heffect : ∀ a w', effect = .ok (a, w') → K w') :
    K (fate.apply fault effect w).2 := by
  rcases effect with e | ⟨a, w'⟩
  · cases hout : fate.outcome <;> simp only [Fate.apply, hout] <;> exact h
  · have hw' := heffect a w' rfl
    cases hout : fate.outcome with
    | before => simp only [Fate.apply, hout]; exact h
    | done => simpa only [Fate.apply, hout] using hw'
    | after => simpa only [Fate.apply, hout] using hw'

/-- **A call changes one thing at most.** -/
theorem answer_changed (fate : Fate) (c : Call) : Changed w (answer me fate c w).2 := by
  cases c with
  | openDirectory name => exact fate.look_keeps _ _ .same
  | openObject name => exact fate.look_keeps _ _ .same
  | fileInformation h => exact fate.look_keeps _ _ .same
  | securityInfo h => exact fate.look_keeps _ _ .same
  | objectIdentity h => exact fate.look_keeps _ _ .same
  | entries created => exact fate.look_keeps _ _ .same
  | openFile name => exact fate.look_keeps _ _ .same
  | readToEnd content => exact fate.look_keeps _ _ .same
  | checkEntry serial => exact fate.look_keeps _ _ .same
  | syncAll serial => exact fate.look_keeps _ _ .same
  | adjustPrivileges => exact fate.look_keeps _ _ .same
  | restorePrivileges => exact fate.look_keeps _ _ .same
  | openService root => exact fate.look_keeps _ _ .same
  | createDirectory name =>
    refine Fate.apply_keeps .same fun a w' heq => ?_
    split at heq
    · cases heq
    · cases heq
      exact .named _ _
  | rename h target =>
    refine Fate.apply_keeps .same fun a w' heq => ?_
    split_ifs at heq
    split at heq
    · cases heq
    · cases heq
      exact .renamed _ _
  | remove h =>
    refine Fate.apply_keeps .same fun a w' heq => ?_
    split_ifs at heq
    cases heq
    exact .named _ _
  | acquireLock =>
    rw [answer]
    split
    · exact .locked _
    · exact .same
    · exact .same
  | createEntry name =>
    refine Fate.apply_keeps .same fun a w' heq => ?_
    split_ifs at heq
    cases heq
    exact .created _
  | writeAll serial bytes =>
    rw [answer]
    split
    · exact .written _ _
    · exact .same
    · exact .written _ _
  | publish serial name =>
    refine Fate.apply_keeps .same fun a w' heq => ?_
    split_ifs at heq
    cases heq
    exact .published _ _
  | deleteEntry serial =>
    refine Fate.apply_keeps .same fun a w' heq => ?_
    cases heq
    exact .deleted _
  | random =>
    rw [answer]
    split
    · exact .drawn _
    · exact .same
  | appendAudit entry =>
    refine Fate.apply_keeps .same fun a w' heq => ?_
    cases heq
    exact .audited _

theorem step_changed {r : Answer c} (h : step me c w r w') : Changed w w' := by
  obtain ⟨fate, _, heq⟩ := h
  have hchanged : Changed w (answer me fate c w).2 := answer_changed fate c
  rwa [heq] at hchanged

/-- No call makes a reparse point. -/
theorem Plain.changed (h : Plain w) (hc : Changed w w') : Plain w' := by
  cases hc with
  | same => exact h
  | named name v => exact h
  | renamed handle target => exact h
  | locked me => exact h
  | drawn id => exact h
  | audited entry => exact h
  | created name =>
    intro f hf
    rcases List.mem_append.mp hf with hf | hf
    · exact h f hf
    · rw [List.mem_singleton.mp hf]
      exact EntryKind.noConfusion
  | written serial bytes =>
    intro f hf
    obtain ⟨g, hg, rfl⟩ := List.mem_map.mp hf
    have hkind := h g hg
    split
    · show g.kind.append bytes ≠ .reparse
      cases hcase : g.kind with
      | reparse => exact absurd hcase hkind
      | file content => exact EntryKind.noConfusion
      | directory => exact EntryKind.noConfusion
    · exact hkind
  | published serial name =>
    intro f hf
    rcases List.mem_append.mp hf with hf | hf
    · exact h f (List.mem_filter.mp hf).1
    · obtain ⟨g, hg, rfl⟩ := List.mem_map.mp hf
      exact h g (List.mem_filter.mp hg).1
  | deleted serial => exact fun f hf => h f (List.mem_filter.mp hf).1

/-- Only finitely many names are bound. -/
def Bounded (names : Names) : Prop := {n | names n ≠ none}.Finite

theorem Bounded.update {names : Names} (h : Bounded names) (name : String)
    (v : Option StorageObject) : Bounded (Function.update names name v) := by
  refine (h.insert name).subset fun n hn => ?_
  by_cases heq : n = name
  · exact .inl heq
  · have hbound : Function.update names name v n ≠ none := hn
    rw [Function.update_of_ne heq] at hbound
    exact .inr hbound

/-- A call binds one more name at most. -/
theorem Bounded.changed (h : Bounded w.names) (hc : Changed w w') : Bounded w'.names := by
  cases hc with
  | same => exact h
  | named name v => exact h.update _ _
  | renamed handle target => exact (h.update _ _).update _ _
  | locked me => exact h
  | drawn id => exact h
  | audited entry => exact h
  | created name => exact h
  | written serial bytes => exact h
  | published serial name => exact h
  | deleted serial => exact h

/-- **What every change keeps**, and the end of an instance, a run keeps. -/
theorem Machine.Runs.keeps {C : StateCodec} {calm : Prop} {m m' : Machine} {K : World → Prop}
    (hs : Machine.Runs C calm m m') (hchanged : ∀ w w', Changed w w' → K w → K w')
    (hreleased : ∀ w i, K w → K (w.released i)) (h : K m.world) : K m'.world := by
  induction hs with
  | refl => exact h
  | tail _ hstep ih =>
    obtain ⟨⟨i, hstep⟩, _⟩ := hstep
    cases hstep with
    | begin hidle => exact ih
    | look hinspecting hs => exact hchanged _ _ (step_changed (step_of_stepIn hs)) ih
    | inspected hinspecting => exact ih
    | consent hasking => exact ih
    | call hrecovering hs => exact hchanged _ _ (step_changed hs) ih
    | stop => exact hreleased _ i ih

theorem Plain.runs {C : StateCodec} {calm : Prop} {m m' : Machine} (h : Plain m.world)
    (hs : Machine.Runs C calm m m') : Plain m'.world :=
  hs.keeps (fun _ _ hc hk => hk.changed hc) (fun _ _ hk => hk) h

theorem Bounded.runs {C : StateCodec} {calm : Prop} {m m' : Machine} (h : Bounded m.world.names)
    (hs : Machine.Runs C calm m m') : Bounded m'.world.names :=
  hs.keeps (K := fun w => Bounded w.names) (fun _ _ hc hk => hk.changed hc) (fun _ _ hk => hk) h

theorem Plain.steps {ε α : Type} {calm : Prop} {p p' : Prog ε α} (h : Plain w)
    (hs : Proc.Steps (stepIn calm me) p w p' w') : Plain w' :=
  hs.keeps (fun _ _ _ _ hk hcall => hk.changed (step_changed (step_of_stepIn hcall))) h

end Change

/-! ## 2. Calls without failures -/

section Live

variable {i : Nat} {w : World}

theorem exists_above {α : Type} (f : α → Nat) : ∀ l : List α, ∃ n, ∀ x ∈ l, f x < n
  | [] => ⟨0, fun _ hx => by cases hx⟩
  | a :: l => by
    obtain ⟨n, hn⟩ := exists_above f l
    refine ⟨max n (f a + 1), fun x hx => ?_⟩
    rcases List.mem_cons.mp hx with rfl | hx
    · omega
    · have := hn x hx
      omega

/-- There is an id that was not given out and is in no name of the bootstrap directory. -/
theorem exists_id (w : World) : ∃ id, id ∉ w.drawn ∧
    ∀ f ∈ w.files, ∀ m : String, f.name ≠ encodeWide s!".{m}-{id}.tmp" := by
  obtain ⟨a, ha⟩ := exists_above String.length w.drawn
  obtain ⟨b, hb⟩ := exists_above (fun f : StateFile => ((decodeUtf16 f.name).getD "").length) w.files
  have hlength : ∀ n, (String.ofList (List.replicate n 'a')).length = n := fun n => by
    rw [← String.length_toList, String.toList_ofList, List.length_replicate]
  refine ⟨String.ofList (List.replicate (max a b) 'a'), fun hmem => ?_, fun f hf m hname => ?_⟩
  · have hlt := ha _ hmem
    rw [hlength] at hlt
    omega
  · have hlt := hb f hf
    simp only [hname, decodeUtf16_encodeWide, Option.getD_some] at hlt
    simp only [toString, String.length_append, hlength] at hlt
    omega

/-- There is an identity that no object has. -/
theorem exists_identity (hw : Bounded w.names) :
    ∃ i, ∀ name o, w.names name = some o → o.identity ≠ i := by
  have hfinite : {k | ∃ name o, w.names name = some o ∧ o.identity.fileId = k}.Finite := by
    refine (hw.image fun n => ((w.names n).map fun o => o.identity.fileId).getD 0).subset ?_
    rintro k ⟨name, o, ho, rfl⟩
    have hbound : w.names name ≠ none := by
      rw [ho]
      exact Option.some_ne_none _
    exact ⟨name, hbound, by simp only [ho, Option.map_some, Option.getD_some]⟩
  obtain ⟨k, hk⟩ := hfinite.exists_notMem
  exact ⟨⟨0, k⟩, fun name o ho heq => hk ⟨name, o, ho, by rw [heq]⟩⟩

/-- **Every call can be answered** without a failure. -/
theorem exists_calm (c : Call) (hw : Bounded w.names) :
    ∃ r w', stepIn True i c w r w' ∧ Bounded w'.names := by
  have hfate : ∃ fate : Fate, fate.Admissible c w ∧ fate.Calm c w := by
    obtain ⟨id, hid, hname⟩ := exists_id w
    obtain ⟨k, hk⟩ := exists_identity hw
    refine ⟨{ id, fresh := k, order := w.files.map (·.name) }, ?_, rfl, fun _ => hname⟩
    unfold Fate.Admissible
    split
    · exact hk
    · exact hid
    · exact .refl _
    · trivial
  obtain ⟨fate, hadmissible, hcalm⟩ := hfate
  exact ⟨_, _, ⟨fate, hadmissible, fun _ => hcalm, rfl⟩, hw.changed (answer_changed fate c)⟩

end Live

/-! ## 3. The recovery -/

/-- Nobody is at work, and the bootstrap directory can be trusted. -/
structure Waiting (C : StateCodec) (S : Setting) (w : World) : Prop where
  consistent : Consistent C S w
  owner : w.owner = none
  trusted : Trusted w.names

/-- The bootstrap directory can be trusted after every step. -/
def StaysTrusted (_ w' : World) : Prop := Trusted w'.names

section Calm

variable {C : StateCodec} {S : Setting} {i : Nat} {w w' : World} {detected : StorageObjectIdentity}

/-- What only looks, without failures. -/
theorem Looks.calm {ε α : Type} {Q : α → Prop} {E : ε → Prop} {p : Prog ε α}
    (hp : Looks (.still w) True i Q E p) (htrusted : Trusted w.names) :
    Proc.always Eq (stepIn True i) StaysTrusted (fun a w' => w' = w ∧ Q a)
      (fun e w' => w' = w ∧ E e) p w := by
  have hstay : ∀ s s' : World, s = w → s' = s → StaysTrusted s s' ∧ s' = w := by
    rintro s s' rfl rfl
    exact ⟨htrusted, rfl⟩
  exact Proc.always_within (K := (· = w)) (fun s s' hk (hr : s = s') => hr ▸ hk) hstay (hp w rfl) rfl

/-- What is done under the lock, without failures. -/
theorem Locked.calm {ε α : Type} {Q : α → World → Prop} {p : Prog ε α}
    (hp : Proc.always Eq (stepIn True i) (Locked C S i) Q (fun _ _ => ¬ True) p w)
    (htrusted : Trusted w.names) :
    Proc.always Eq (stepIn True i) StaysTrusted (fun a w' => Q a w' ∧ Trusted w'.names)
      (fun _ _ => False) p w := by
  have hstay : ∀ s s', Trusted s.names → Locked C S i s s' →
      StaysTrusted s s' ∧ Trusted s'.names := fun s s' hk hlocked =>
    ⟨hlocked.keeps.trusted hk, hlocked.keeps.trusted hk⟩
  have htrusting : Proc.always Eq (stepIn True i) StaysTrusted Q (fun _ _ => ¬ True) p w :=
    Proc.always_within (K := fun w : World => Trusted w.names) (fun s s' hk (hr : s = s') => hr ▸ hk)
      hstay hp htrusted
  refine Proc.always_mono (Proc.always_keeps (K := fun w : World => Trusted w.names)
    (fun _ _ h => h) htrusting htrusted) (fun _ _ h => h) ?_
  rintro e w' ⟨hrestless, _⟩
  exact hrestless trivial

/-- An instance that is stopped leaves a lock alone that nobody has. -/
theorem World.released_free (h : w.owner = none) : w.released i = w := by
  have howner : (if w.owner = some i then none else w.owner) = w.owner := by
    rw [h]
    rfl
  unfold World.released
  rw [howner]

theorem Waiting.released (h : Waiting C S w) : w.released i = w := World.released_free h.owner

/-- A bootstrap directory that is there is opened. -/
theorem calm_openBootstrap (h : Waiting C S w) (hboot : w.names BOOTSTRAP_DIRECTORY ≠ none) :
    Proc.always Eq (stepIn True i) StaysTrusted (fun b w' => w' = w ∧ b.created = false)
      (fun _ _ => False) openOrCreateBootstrap w := by
  unfold openOrCreateBootstrap
  have hopened : Looks (.still w) True i
      (fun h => h.path = BOOTSTRAP_DIRECTORY ∧ w.names BOOTSTRAP_DIRECTORY = some h.object ∧
        h.object.isDirectory = true ∧ h.object.isReparse = false)
      (NotOpened True (w.names BOOTSTRAP_DIRECTORY)
        fun o => o.isDirectory = true ∧ o.isReparse = false)
      (openExistingChild BOOTSTRAP_DIRECTORY) := looks_openExistingChild (still_names w _)
  refine (Proc.always_bind _ _).mpr ((Proc.always_attempt _).mpr (Proc.always_mono
    (hopened.calm h.trusted) ?_ ?_))
  · rintro directory w₁ ⟨rfl, _, hname, _⟩
    have hroot := h.trusted _ hname
    have hvalid : Looks (.still w₁) True i (fun b => b.created = false) (fun _ => False)
        (validateProductionRoot directory >>= fun _ => pure (⟨directory, false⟩ : Bootstrap)) :=
      (looks_validateProductionRoot.mono (fun _ hk => hk) fun e he =>
        he.honest trivial hroot.descriptor).bind fun _ _ => looks_pure rfl
    exact Proc.always_mono (hvalid.calm h.trusted) (fun _ _ hb => hb) fun _ _ he => he.2
  · rintro e w₁ ⟨rfl, he⟩
    rcases he.honest trivial with ⟨hnone, _⟩ | ⟨o, ho, hbad⟩
    · exact absurd hnone hboot
    · have hroot := h.trusted _ ho
      exact absurd ⟨hroot.isDirectory, hroot.isReparse⟩ hbad

/-- A directory is made under a name that is free. -/
theorem calm_createProtectedChild {name : String} (hnone : w.names name = none)
    (htrusted : Trusted w.names) :
    Proc.always Eq (stepIn True i) StaysTrusted
      (fun h w' => ∃ k, h = ⟨name, newRoot k⟩ ∧ w' = w.placed name (some (newRoot k)) ∧
        ∀ n o, w.names n = some o → o.identity ≠ k)
      (fun _ _ => False) (createProtectedChild name) w := by
  refine (Proc.always_bind _ _).mpr (always_effectIn rfl (fun fate => fate.error.error)
    (fun fate w => w.creating name (newRoot fate.fresh)) (fun _ _ => rfl)
    fun w₁ hr fate hadmissible => ?_)
  subst hr
  unfold World.creating
  rw [hnone]
  have htrusted' : Trusted (w.placed name (some (newRoot fate.fresh))).names :=
    (Keeps.create hnone fun _ => newRoot_isRoot _).trusted htrusted
  refine ⟨htrusted, fun hrestless => absurd trivial hrestless, htrusted', ?_,
    fun hrestless => absurd trivial hrestless⟩
  have hvalid : Looks (.still (w.placed name (some (newRoot fate.fresh)))) True i
      (· = ⟨name, newRoot fate.fresh⟩) (fun _ => False)
      (rootDirectory ⟨name, newRoot fate.fresh⟩) :=
    looks_rootDirectory.mono (fun _ h => h) fun e he => he.honest trivial (newRoot_isRoot _)
  refine Proc.always_mono (hvalid.calm htrusted') ?_ fun _ _ he => he.2.elim
  rintro h w₂ ⟨rfl, rfl⟩
  exact ⟨fate.fresh, rfl, rfl, hadmissible⟩

/-- Where there is no bootstrap directory, it is made, and nothing else is changed. -/
theorem calm_createBootstrap (h : Waiting C S w) (hnone : w.names BOOTSTRAP_DIRECTORY = none) :
    Proc.always Eq (stepIn True i) StaysTrusted
      (fun b w' => (∃ k, w' = w.placed BOOTSTRAP_DIRECTORY (some (newRoot k))) ∧ Waiting C S w' ∧
        b.created = true)
      (fun _ _ => False) openOrCreateBootstrap w := by
  unfold openOrCreateBootstrap
  have hopened : Looks (.still w) True i
      (fun h => h.path = BOOTSTRAP_DIRECTORY ∧ w.names BOOTSTRAP_DIRECTORY = some h.object ∧
        h.object.isDirectory = true ∧ h.object.isReparse = false)
      (NotOpened True (w.names BOOTSTRAP_DIRECTORY)
        fun o => o.isDirectory = true ∧ o.isReparse = false)
      (openExistingChild BOOTSTRAP_DIRECTORY) := looks_openExistingChild (still_names w _)
  refine (Proc.always_bind _ _).mpr ((Proc.always_attempt _).mpr (Proc.always_mono
    (hopened.calm h.trusted) ?_ ?_))
  · rintro directory w₁ ⟨_, _, hname, _⟩
    rw [hnone] at hname
    cases hname
  rintro e w₁ ⟨rfl, he⟩
  have hnot : e.isNotFound = true := by
    rcases he.honest trivial with ⟨_, hnot⟩ | ⟨o, ho, _⟩
    · exact hnot
    · rw [hnone] at ho
      cases ho
  dsimp only
  rw [if_pos hnot]
  refine (Proc.always_bind _ _).mpr ((Proc.always_attempt _).mpr (Proc.always_mono
    (Proc.always_keeps (K := fun w : World => Trusted w.names) (fun _ _ h => h)
      (calm_createProtectedChild hnone h.trusted) h.trusted) ?_ fun _ _ he => he.1.elim))
  rintro _ _ ⟨⟨k, rfl, rfl, hfresh⟩, htrusted⟩
  obtain ⟨records, hpublished, hjournal, hlayout, _, haudited⟩ := h.consistent
  obtain rfl := hlayout.bootstrap hnone
  have hlayout' : Layout S (w₁.placed BOOTSTRAP_DIRECTORY (some (newRoot k))).names w₁.drawn [] :=
    hlayout.set rfl (fun o ho => ⟨k, (Option.some.inj ho).symm, hfresh⟩)
      (.inr ⟨rfl, Option.some_ne_none _⟩)
  have hsome : (w₁.placed BOOTSTRAP_DIRECTORY (some (newRoot k))).names BOOTSTRAP_DIRECTORY ≠ none := by
    show Function.update w₁.names BOOTSTRAP_DIRECTORY (some (newRoot k)) BOOTSTRAP_DIRECTORY ≠ none
    rw [Function.update_self]
    exact Option.some_ne_none _
  exact ⟨⟨k, rfl⟩, ⟨⟨[], hpublished, hjournal.of_files rfl rfl, hlayout', fun _ => hsome, haudited⟩,
    h.owner, htrusted⟩, rfl⟩

/-- The lock is free, and is taken. -/
theorem calm_acquireLock (h : Waiting C S w) (hboot : w.names BOOTSTRAP_DIRECTORY ≠ none) :
    Proc.always Eq (stepIn True i) StaysTrusted
      (fun _ w' => w' = { w with owner := some i } ∧ Held C S i (recordsIn C w) w')
      (fun _ _ => False) (request .acquireLock rfl : Prog StorageError Unit) w := by
  refine always_requestIn rfl fun w₁ hr fate _ hcalm => ?_
  subst hr
  have hanswer : answer i fate .acquireLock w = (.ok (), { w with owner := some i }) := by
    simp only [answer, (hcalm trivial).1, h.owner]
  rw [hanswer]
  obtain ⟨records, hpublished, hjournal, hlayout, _, haudited⟩ := h.consistent
  rw [hjournal.records]
  exact ⟨h.trusted, rfl, hpublished, hjournal.of_files rfl rfl, hlayout, hboot, haudited, rfl⟩

/-- **`execute_recovery` without failures**, where there is a bootstrap directory without reparse
points. -/
theorem calm_executeRecovery (h : Waiting C S w) (hboot : w.names BOOTSTRAP_DIRECTORY ≠ none)
    (hplain : Plain w) (hmay : S.detachable detected)
    (hdetected : openOf (recordsIn C w) = none → Denotes w.names PRODUCT_DIRECTORY detected) :
    Proc.always Eq (stepIn True i) StaysTrusted
      (fun pending w' => (∃ u, (openOf (recordsIn C w) = some u ∨ openOf (recordsIn C w) = none ∧
        u.sourceIdentity = detected) ∧ Awaits C S i u pending w') ∧ Trusted w'.names)
      (fun _ _ => False) (executeRecovery C detected) w := by
  refine (Proc.always_bind _ _).mpr ((Proc.always_mapErr _ _).mpr (Proc.always_mono
    (calm_openBootstrap h hboot) ?_ fun _ _ hfalse => hfalse))
  rintro bootstrap w₁ ⟨rfl, hcreated⟩
  refine (Proc.always_bind _ _).mpr ((Proc.always_mapErr _ _).mpr (Proc.always_mono
    (calm_acquireLock h hboot) ?_ fun _ _ hfalse => hfalse))
  rintro _ w₂ ⟨rfl, hheld⟩
  exact Locked.calm (hheld.recoverUnderLock hmay (fun _ => ⟨hcreated, hplain⟩) fun _ => hdetected)
    h.trusted

/-- **`execute_recovery` without failures where there is no bootstrap directory**: it makes the
directory and ends with an error. -/
theorem calm_executeRecovery_first (h : Waiting C S w)
    (hnone : w.names BOOTSTRAP_DIRECTORY = none) :
    Proc.always Eq (stepIn True i) StaysTrusted (fun _ _ => False)
      (fun _ w' => (∃ k, w'.released i = w.placed BOOTSTRAP_DIRECTORY (some (newRoot k))) ∧
        Waiting C S (w'.released i))
      (executeRecovery C detected) w := by
  refine (Proc.always_bind _ _).mpr ((Proc.always_mapErr _ _).mpr (Proc.always_mono
    (calm_createBootstrap h hnone) ?_ fun _ _ hfalse => hfalse.elim))
  rintro bootstrap w₁ ⟨⟨k, hplaced⟩, h₁, hcreated⟩
  have hboot : w₁.names BOOTSTRAP_DIRECTORY ≠ none := by
    rw [hplaced]
    show Function.update w.names BOOTSTRAP_DIRECTORY (some (newRoot k)) BOOTSTRAP_DIRECTORY ≠ none
    rw [Function.update_self]
    exact Option.some_ne_none _
  refine (Proc.always_bind _ _).mpr ((Proc.always_mapErr _ _).mpr (Proc.always_mono
    (calm_acquireLock h₁ hboot) ?_ fun _ _ hfalse => hfalse.elim))
  rintro _ w₂ ⟨rfl, hheld⟩
  -- the open of the enumeration does not share the right to delete
  have hrefused : Looks (.still { w₁ with owner := some i }) True i (fun _ : List Wide => False)
      (fun _ => True) (request (.entries bootstrap.created) rfl : Prog StorageError (List Wide)) := by
    refine looks_call rfl (fun fate => fate.error.error)
      (fun fate w => w.enumerated bootstrap.created fate.order) (fun _ _ => rfl)
      (fun hrestless _ => absurd trivial hrestless) fun w' fate _ hadmissible => ?_
    cases henumerated : w'.enumerated bootstrap.created fate.order with
    | error e => trivial
    | ok names =>
      have hreadable := ((enumerated_ok hadmissible).mp henumerated).1
      rw [hcreated] at hreadable
      cases hreadable.created_eq
  have hreleased : ({ w₁ with owner := some i } : World).released i = w₁ := by
    have howner : (if some i = some i then none else some i) = w₁.owner := by
      rw [h₁.owner, if_pos rfl]
    unfold World.released
    rw [howner]
  refine (Proc.always_bind _ _).mpr ((Proc.always_bind _ _).mpr ((Proc.always_mapErr _ _).mpr
    (Proc.always_mono (hrefused.calm h₁.trusted) (fun _ _ hfalse => hfalse.2.elim) ?_)))
  rintro e w₃ ⟨rfl, _⟩
  rw [hreleased]
  exact ⟨⟨k, hplaced⟩, h₁⟩

end Calm

/-! ## 4. Inspections -/

section Inspections

variable {C : StateCodec} {S : Setting} {i : Nat}

/-- An inspection of a ProgramData that is in order. -/
theorem Consistent.looks_inspectUnder {calm : Prop} {w : World} (h : Consistent C S w) :
    Looks (.still w) calm i (Asks calm w (recordsIn C w))
      (fun _ => calm → Plain w → ¬ Trusted w.names) (inspectUnder C) := by
  obtain ⟨records, hpublished, hjournal, hlayout, _⟩ := h
  rw [hjournal.records]
  exact Legacy.looks_inspectUnder hpublished hjournal hlayout

/-- **An inspection without failures** can be made, and says what there is to do. -/
theorem Consistent.inspectable {w : World} (h : Consistent C S w) (htrusted : Trusted w.names)
    (hplain : Plain w) (hbounded : Bounded w.names) : ∃ state, Asks True w (recordsIn C w) state ∧
      Proc.Steps (stepIn True i) (inspectUnder C) w (.done (.ok state)) w := by
  obtain ⟨r, w', hs⟩ :=
    Proc.Steps.total (fun c w hw => exists_calm (i := i) c hw) (inspectUnder C) hbounded
  obtain ⟨rfl, hvalue, herror⟩ := h.looks_inspectUnder.steps hs
  cases r with
  | error e => exact absurd htrusted (herror e rfl trivial hplain)
  | ok state => exact ⟨state, hvalue state rfl, hs⟩

/-- An instance makes it, call by call or in one step. -/
theorem Consistent.inspected {m : Machine} (h : Consistent C S m.world)
    (htrusted : Trusted m.world.names) (hplain : Plain m.world) (hbounded : Bounded m.world.names)
    (hidle : m.tasks i = .idle) (calm : Prop) :
    ∃ state, Asks True m.world (recordsIn C m.world) state ∧
      Machine.Runs C calm m (m.put i (.inspecting (.done (.ok state))) m.world) ∧
      m.Attempt C calm i (m.put i (.ofInspection (.ok state)) m.world) := by
  obtain ⟨state, hasks, hs⟩ := h.inspectable (i := i) htrusted hplain hbounded
  have hs' : Proc.Steps (stepIn calm i) (inspectUnder C) m.world (.done (.ok state)) m.world :=
    hs.mono fun _ _ _ _ hcall => stepIn_of_true hcall
  have hknows : Knows C S (fun _ => True) m.world := ⟨h, trivial⟩
  exact ⟨state, hasks, hknows.inspects hidle hs', .inspect hidle hs'⟩

end Inspections

end WinProfile.Legacy
