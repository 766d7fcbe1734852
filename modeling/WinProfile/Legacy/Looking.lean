/-
  File:      WinProfile/Legacy/Looking.lean
  Subject:   The programs of the recovery that change nothing in ProgramData, and what they find.

  * `Looks` -- a program that leaves everything as it is, by what it answers; closed under the
    constructs of the code.
  * `NotOpened` -- why a handle was not opened; where all calls are calm, the object is the reason.
  * `looks_loadPendingState`, `looks_inspectUnder` -- the reader of the bootstrap journal and the
    inspection, where the journal and the names are in order.
-/
import WinProfile.Legacy.Layout

namespace WinProfile.Legacy

/-! ## 1. Looking -/

/-- What is known while a program looks: what others do keeps it. -/
structure View where
  rely : World → World → Prop
  holds : World → Prop
  stable : ∀ {w w'}, holds w → rely w w' → holds w'

/-- Nobody else does anything. -/
def View.still (w : World) : View := ⟨Eq, (· = w), fun h hr => hr ▸ h⟩

theorem still_names (w : World) (name : String) :
    ∀ w', (View.still w).holds w' → w'.names name = w.names name := fun w' hw => by
  obtain rfl : w' = w := hw
  rfl

/-- Nothing is changed, whatever the calls answer; a value meets `Q` and an error meets `E`. -/
def Looks {ε α : Type} (V : View) (calm : Prop) (me : Nat) (Q : α → Prop) (E : ε → Prop)
    (p : Prog ε α) : Prop :=
  ∀ w, V.holds w → Proc.always V.rely (stepIn calm me) (fun w w' => w' = w)
    (fun a w' => V.holds w' ∧ Q a) (fun e w' => V.holds w' ∧ E e) p w

section Rules

variable {ε ε' α β : Type} {V : View} {calm : Prop} {me : Nat} {Q : α → Prop} {E : ε → Prop}

theorem Looks.mono {p : Prog ε α} {Q' : α → Prop} {E' : ε → Prop} (h : Looks V calm me Q E p)
    (hQ : ∀ a, Q a → Q' a) (hE : ∀ e, E e → E' e) : Looks V calm me Q' E' p := fun w hw =>
  Proc.always_mono (h w hw) (fun a _ ha => ⟨ha.1, hQ a ha.2⟩) fun e _ he => ⟨he.1, hE e he.2⟩

theorem looks_pure {a : α} (h : Q a) : Looks V calm me Q E (pure a) := fun _ hw => ⟨hw, h⟩

theorem looks_fail {e : ε} (h : E e) : Looks V calm me Q E (Proc.fail e : Prog ε α) :=
  fun _ hw => ⟨hw, h⟩

theorem looks_ofExcept {r : Except ε α} (hQ : ∀ a, r = .ok a → Q a) (hE : ∀ e, r = .error e → E e) :
    Looks V calm me Q E (Proc.ofExcept r) := by
  intro w hw
  cases r with
  | ok a => exact ⟨hw, hQ a rfl⟩
  | error e => exact ⟨hw, hE e rfl⟩

theorem looks_guard {c : Bool} {e : ε} (hE : c = false → E e) :
    Looks V calm me (fun _ => c = true) E (Proc.guard c e) := by
  intro w hw
  cases c with
  | true => exact ⟨hw, rfl⟩
  | false => exact ⟨hw, hE rfl⟩

theorem Looks.bind {Q' : β → Prop} {p : Prog ε α} {f : α → Prog ε β} (hp : Looks V calm me Q E p)
    (hf : ∀ a, Q a → Looks V calm me Q' E (f a)) : Looks V calm me Q' E (p >>= f) := by
  intro w hw
  refine (Proc.always_bind _ _).mpr (Proc.always_mono (hp w hw) (fun a w' ha => ?_) fun _ _ he => he)
  exact hf a ha.2 w' ha.1

/-- What follows looks at the result. -/
theorem Looks.attempt {E' : ε' → Prop} {Q' : β → Prop} {p : Prog ε α} {f : Except ε α → Prog ε' β}
    (hp : Looks V calm me Q E p) (hok : ∀ a, Q a → Looks V calm me Q' E' (f (.ok a)))
    (herror : ∀ e, E e → Looks V calm me Q' E' (f (.error e))) :
    Looks V calm me Q' E' (Proc.attempt p >>= f) := by
  intro w hw
  refine (Proc.always_bind _ _).mpr ((Proc.always_attempt p).mpr (Proc.always_mono (hp w hw) ?_ ?_))
  · exact fun a w' ha => hok a ha.2 w' ha.1
  · exact fun e w' he => herror e he.2 w' he.1

theorem Looks.mapErr {E' : ε' → Prop} {p : Prog ε α} (hp : Looks V calm me Q E p) {f : ε → ε'}
    (hE : ∀ e, E e → E' (f e)) : Looks V calm me Q E' (Proc.mapErr f p) := fun w hw =>
  (Proc.always_mapErr f p).mpr
    (Proc.always_mono (hp w hw) (fun _ _ h => h) fun e _ h => ⟨h.1, hE e h.2⟩)

/-- The error is converted, and what follows looks at the value. -/
theorem Looks.bindErr {E' : ε' → Prop} {Q' : β → Prop} {p : Prog ε α} {f : ε → ε'}
    {k : α → Prog ε' β} (hp : Looks V calm me Q E p) (hE : ∀ e, E e → E' (f e))
    (hk : ∀ a, Q a → Looks V calm me Q' E' (k a)) : Looks V calm me Q' E' (Proc.mapErr f p >>= k) :=
  (hp.mapErr hE).bind hk

/-- One call. -/
theorem looks_call {c : Call} (h : Answer c = Except ε α) (fault : Fate → ε)
    (found : Fate → World → Except ε α) (hc : ∀ fate w,
      ((h ▸ (answer me fate c w).1 : Except ε α), (answer me fate c w).2)
        = fate.look (fault fate) (found fate w) w)
    (hfault : ¬ calm → ∀ fate, E (fault fate))
    (hfound : ∀ w fate, V.holds w → fate.Admissible c w → match found fate w with
      | .ok a => Q a
      | .error e => E e) : Looks V calm me Q E (request c h) := by
  intro w hw
  refine always_lookIn h fault found hc fun w₁ hr fate hadmissible => ?_
  have hw₁ := V.stable hw hr
  refine ⟨rfl, fun hrestless => ⟨hw₁, hfault hrestless fate⟩, ?_⟩
  have hcase := hfound w₁ fate hw₁ hadmissible
  cases hanswer : found fate w₁ with
  | ok a =>
    rw [hanswer] at hcase
    exact ⟨hw₁, hcase⟩
  | error e =>
    rw [hanswer] at hcase
    exact ⟨hw₁, hcase⟩

/-- Wherever a program stops that only looks. -/
theorem Looks.steps {p p' : Prog ε α} {w w' : World} (hp : Looks (.still w) calm me Q E p)
    (hs : Proc.Steps (stepIn calm me) p w p' w') :
    w' = w ∧ (∀ a, p' = .done (.ok a) → Q a) ∧ ∀ e, p' = .done (.error e) → E e := by
  have hlooks := hp w rfl
  have hstay : ∀ s s' : World, s = w → s' = s → s' = w ∧ s' = w := by
    rintro s s' rfl rfl
    exact ⟨rfl, rfl⟩
  refine ⟨hs.invariant (I := (· = w)) rfl (Proc.always_within (K := (· = w))
    (fun s s' hk (hr : s = s') => hr ▸ hk) hstay hlooks rfl), fun a ha => ?_, fun e he => ?_⟩
  · have hend := hs.always hlooks
    rw [ha] at hend
    exact hend.2
  · have hend := hs.always hlooks
    rw [he] at hend
    exact hend.2

end Rules

/-! ## 2. Handles -/

section Handles

variable {V : View} {calm : Prop} {me : Nat} {h : StorageHandle} {name : String}
  {v : Option StorageObject}

/-- An error that is not the answer for an absent name. -/
def Real (e : StorageError) : Prop := e.isNotFound = false

/-- An error of a check on an object that should meet `P`. -/
structure Refused (calm P : Prop) (e : StorageError) : Prop where
  real : Real e
  honest : calm → ¬ P

/-- An error of opening a name that denotes `v`, for an object that should meet `P`. -/
structure NotOpened (calm : Prop) (v : Option StorageObject) (P : StorageObject → Prop)
    (e : StorageError) : Prop where
  absent : e.isNotFound = true → v = none
  honest : calm → v = none ∧ e.isNotFound = true ∨ ∃ o, v = some o ∧ ¬ P o

theorem Refused.notOpened {o : StorageObject} {P : StorageObject → Prop} {e : StorageError}
    {Q : Prop} (he : Refused calm Q e) (hPQ : P o → Q) : NotOpened calm (some o) P e where
  absent hnot := by
    rw [show e.isNotFound = false from he.real] at hnot
    cases hnot
  honest hcalm := .inr ⟨o, rfl, fun hp => he.honest hcalm (hPQ hp)⟩

theorem NotOpened.mono {P P' : StorageObject → Prop} {e : StorageError}
    (he : NotOpened calm v P e) (hP : ∀ o, P' o → P o) : NotOpened calm v P' e where
  absent := he.absent
  honest hcalm := (he.honest hcalm).imp_right fun ⟨o, hv, hp⟩ => ⟨o, hv, fun h => hp (hP o h)⟩

/-- A call that failed for no reason of the object. -/
theorem refused_fault (hrestless : ¬ calm) (fate : Fate) (P : Prop) :
    Refused calm P fate.error.error :=
  ⟨fate.error.real.1, fun h => absurd h hrestless⟩

theorem notOpened_fault (hrestless : ¬ calm) (fate : Fate) (P : StorageObject → Prop) :
    NotOpened calm v P fate.error.error where
  absent hnot := by
    rw [fate.error.real.1] at hnot
    cases hnot
  honest h := absurd h hrestless

theorem looks_fileInformation : Looks V calm me (· = (h.object.isDirectory, h.object.isReparse))
    (Refused calm True) (request (.fileInformation h) rfl) :=
  looks_call rfl (fun fate => fate.error.error)
    (fun _ _ => .ok (h.object.isDirectory, h.object.isReparse)) (fun _ _ => rfl)
    (fun hrestless fate => refused_fault hrestless fate _) fun _ _ _ _ => rfl

theorem looks_securityInfo : Looks V calm me (· = h.object.descriptor) (Refused calm True)
    (request (.securityInfo h) rfl) :=
  looks_call rfl (fun fate => fate.error.error) (fun _ _ => .ok h.object.descriptor)
    (fun _ _ => rfl) (fun hrestless fate => refused_fault hrestless fate _) fun _ _ _ _ => rfl

theorem looks_objectIdentity : Looks V calm me (· = h.object.identity) (Refused calm True)
    (request (.objectIdentity h) rfl) :=
  looks_call rfl (fun fate => fate.error.error) (fun _ _ => .ok h.object.identity)
    (fun _ _ => rfl) (fun hrestless fate => refused_fault hrestless fate _) fun _ _ _ _ => rfl

theorem Refused.mono {P P' : Prop} {e : StorageError} (he : Refused calm P e) (hP : P' → P) :
    Refused calm P' e :=
  ⟨he.real, fun hcalm hp => he.honest hcalm (hP hp)⟩

theorem looks_validateKind :
    Looks V calm me (fun _ => h.object.isDirectory = true ∧ h.object.isReparse = false)
      (Refused calm (h.object.isDirectory = true ∧ h.object.isReparse = false))
      (validateKind h) := by
  unfold validateKind
  refine (looks_fileInformation.mono (fun _ hi => hi) fun e he => he.mono fun _ => trivial).bind
    fun info hinfo => ?_
  subst hinfo
  dsimp only
  have hplain : (!h.object.isReparse) = false → Refused calm
      (h.object.isDirectory = true ∧ h.object.isReparse = false)
      (legacy h.path "reparse points are forbidden") := by
    refine fun hreparse => ⟨rfl, fun _ hroot => ?_⟩
    rw [hroot.2] at hreparse
    cases hreparse
  have hkind : h.object.isDirectory = false → Refused calm
      (h.object.isDirectory = true ∧ h.object.isReparse = false)
      (legacy h.path "storage object has the wrong type") := by
    refine fun hdirectory => ⟨rfl, fun _ hroot => ?_⟩
    rw [hroot.1] at hdirectory
    cases hdirectory
  refine (looks_guard hplain).bind fun _ hreparse => ?_
  exact (looks_guard hkind).mono (fun _ hdirectory => ⟨hdirectory, by simpa using hreparse⟩)
    fun _ he => he

theorem validateDescriptor_error {path : String} {d : SecurityDescriptor} {e : StorageError}
    (he : validateDescriptor path d = .error e) : Real e := by
  have hscan : ∀ (aces : List Ace) (s t : Bool) (e : StorageError),
      scanAces path aces s t = .error e → Real e := by
    intro aces
    induction aces with
    | nil => exact fun s t e h => by cases h
    | cons ace rest ih =>
      intro s t e h
      rw [scanAces] at h
      split_ifs at h
      · cases h
        rfl
      · exact ih _ _ _ h
      · exact ih _ _ _ h
      · cases h
        rfl
  unfold validateDescriptor at he
  split at he
  next owner aces _ _ =>
    split_ifs at he
    · cases he; rfl
    · cases he; rfl
    · cases he; rfl
    · cases hs : scanAces path aces false false with
      | error error =>
        rw [hs] at he
        cases he
        exact hscan _ _ _ _ hs
      | ok seen =>
        rw [hs] at he
        dsimp only at he
        split_ifs at he
        cases he
        rfl
  next => cases he; rfl

theorem looks_validateProductionRoot :
    Looks V calm me (fun _ => h.object.descriptor.IsRoot) (Refused calm h.object.descriptor.IsRoot)
      (validateProductionRoot h) := by
  unfold validateProductionRoot
  refine (looks_securityInfo.mono (fun _ hd => hd) fun e he => he.mono fun _ => trivial).bind
    fun d hd => ?_
  subst hd
  refine looks_ofExcept (fun u hok => validateDescriptor_ok.mp hok) fun e he =>
    ⟨validateDescriptor_error he, fun _ hroot => ?_⟩
  rw [validateDescriptor_ok.mpr hroot] at he
  cases he

theorem real_notADirectory (operation path : String) :
    Real (.native operation path STATUS_NOT_A_DIRECTORY) := by
  show (STATUS_NOT_A_DIRECTORY == STATUS_OBJECT_NAME_NOT_FOUND ||
    STATUS_NOT_A_DIRECTORY == STATUS_OBJECT_PATH_NOT_FOUND) = false
  decide

/-- What an open of a directory finds. -/
def World.directoryAt (w : World) (name : String) : Except StorageError StorageHandle :=
  match w.names name with
  | none => .error (.missing name)
  | some o =>
    if o.isDirectory then .ok ⟨name, o⟩
    else .error (.native "open relative storage object" name STATUS_NOT_A_DIRECTORY)

/-- What an open of an object finds. -/
def World.objectAt (w : World) (name : String) : Except StorageError StorageHandle :=
  match w.names name with
  | none => .error (.missing name)
  | some o => .ok ⟨name, o⟩

/-- An open of a directory answers that there is none only where there is none. -/
theorem looks_openDirectory (hv : ∀ w, V.holds w → w.names name = v) : Looks V calm me
    (fun h => h.path = name ∧ v = some h.object)
    (NotOpened calm v fun o => o.isDirectory = true) (request (.openDirectory name) rfl) := by
  refine looks_call rfl (fun fate => fate.error.error) (fun _ w => w.directoryAt name)
    (fun _ _ => rfl) (fun hrestless fate => notOpened_fault hrestless fate _) fun w _ hw _ => ?_
  unfold World.directoryAt
  rw [hv w hw]
  cases v with
  | none => exact ⟨fun _ => rfl, fun _ => .inl ⟨rfl, rfl⟩⟩
  | some o =>
    dsimp only
    by_cases hdirectory : o.isDirectory = true
    · rw [if_pos hdirectory]
      exact ⟨rfl, rfl⟩
    · rw [if_neg hdirectory]
      exact Refused.notOpened ⟨real_notADirectory _ _, fun _ => hdirectory⟩ fun hp => hp

theorem looks_openObject (hv : ∀ w, V.holds w → w.names name = v) : Looks V calm me
    (fun h => h.path = name ∧ v = some h.object)
    (NotOpened calm v fun _ => True) (request (.openObject name) rfl) := by
  refine looks_call rfl (fun fate => fate.error.error) (fun _ w => w.objectAt name)
    (fun _ _ => rfl) (fun hrestless fate => notOpened_fault hrestless fate _) fun w _ hw _ => ?_
  unfold World.objectAt
  rw [hv w hw]
  cases v with
  | none => exact ⟨fun _ => rfl, fun _ => .inl ⟨rfl, rfl⟩⟩
  | some o => exact ⟨rfl, rfl⟩

theorem looks_openExistingChild (hv : ∀ w, V.holds w → w.names name = v) : Looks V calm me
    (fun h => h.path = name ∧ v = some h.object ∧ h.object.isDirectory = true ∧
      h.object.isReparse = false)
    (NotOpened calm v fun o => o.isDirectory = true ∧ o.isReparse = false)
    (openExistingChild name) := by
  unfold openExistingChild
  refine ((looks_openDirectory hv).mono (fun _ hh => hh) fun e he => he.mono fun _ hp => hp.1).bind
    fun h ⟨hpath, hname⟩ => ?_
  subst hname
  refine (looks_validateKind.mono (fun _ hk => hk) fun e he => he.notOpened fun hp => hp).bind
    fun _ hkind => ?_
  exact looks_pure ⟨hpath, rfl, hkind⟩

/-- The production root is opened where the name of the product denotes one. -/
theorem looks_openExistingUnder (hv : ∀ w, V.holds w → w.names PRODUCT_DIRECTORY = v) :
    Looks V calm me
      (fun h => h.path = PRODUCT_DIRECTORY ∧ v = some h.object ∧ h.object.IsRoot)
      (NotOpened calm v StorageObject.IsRoot) openExistingUnder := by
  unfold openExistingUnder
  refine ((looks_openExistingChild hv).mono (fun _ hh => hh) fun e he => he.mono
    fun _ hp => ⟨hp.isDirectory, hp.isReparse⟩).bind fun h ⟨hpath, hname, hdir, hreparse⟩ => ?_
  subst hname
  refine (looks_validateProductionRoot.mono (fun _ hk => hk) fun e he =>
    he.notOpened fun hp => hp.descriptor).bind fun _ hroot => ?_
  exact looks_pure ⟨hpath, rfl, hdir, hreparse, hroot⟩

theorem looks_openObjectForDetach (hv : ∀ w, V.holds w → w.names name = v) : Looks V calm me
    (fun r => r.1.path = name ∧ v = some r.1.object ∧ r.2 = r.1.object.identity)
    (NotOpened calm v fun _ => True) (openObjectForDetach name) := by
  unfold openObjectForDetach
  refine (looks_openObject hv).bind fun h ⟨hpath, hname⟩ => ?_
  subst hname
  refine (looks_objectIdentity.mono (fun _ hk => hk) fun e he => he.notOpened fun hp => hp).bind
    fun identity hidentity => ?_
  exact looks_pure ⟨hpath, rfl, hidentity⟩

theorem looks_openObjectIdentity (hv : ∀ w, V.holds w → w.names name = v) : Looks V calm me
    (fun i => ∃ o, v = some o ∧ o.identity = i) (NotOpened calm v fun _ => True)
    (openObjectIdentity name) := by
  unfold openObjectIdentity
  refine (looks_openObject hv).bind fun h ⟨_, hname⟩ => ?_
  subst hname
  exact looks_objectIdentity.mono (fun i hi => ⟨h.object, rfl, hi.symm⟩) fun e he =>
    he.notOpened fun hp => hp

theorem looks_rootDirectory : Looks V calm me (· = h) (Refused calm h.object.IsRoot)
    (rootDirectory h) := by
  unfold rootDirectory
  refine (looks_validateKind.mono (fun _ hk => hk) fun e he => he.mono
    fun hroot => ⟨hroot.isDirectory, hroot.isReparse⟩).bind fun _ _ => ?_
  refine (looks_validateProductionRoot.mono (fun _ hk => hk) fun e he => he.mono
    fun hroot => hroot.descriptor).bind fun _ _ => ?_
  exact looks_pure rfl

end Handles

/-! ## 3. The bootstrap journal -/

/-- Nobody changes the bootstrap directory of `w`. -/
structure View.Reads (V : View) (w : World) : Prop where
  files : ∀ {w'}, V.holds w' → w'.files = w.files
  bootstrap : ∀ w', V.holds w' → w'.names BOOTSTRAP_DIRECTORY = w.names BOOTSTRAP_DIRECTORY

theorem View.reads_still (w : World) : (View.still w).Reads w :=
  ⟨fun h => h ▸ rfl, still_names w _⟩

section Journals

variable {C : StateCodec} {V : View} {calm : Prop} {me : Nat} {w : World}
  {records : List MigrationStateRecord} {created : Bool}

theorem World.lookFile_congr {w' : World} (h : w'.files = w.files) (name : Wide) :
    w'.lookFile name = w.lookFile name := by
  unfold World.lookFile
  rw [h]

theorem World.enumerated_congr {w' : World} (h : w'.files = w.files) (order : List Wide) :
    w'.enumerated created order = w.enumerated created order := by
  unfold World.enumerated
  rw [h]

theorem looks_readState {name : Wide} (hV : V.Reads w) : Looks V calm me (fun r => readOne C w name = .ok r)
    (fun _ => calm → ∃ e, readOne C w name = .error e) (readState C name) := by
  unfold readState
  cases htext : decodeUtf16 name with
  | none => exact looks_pure (by rw [readOne, htext])
  | some text =>
    dsimp only
    by_cases hstate : isStateName text = true
    · rw [if_pos hstate]
      have hread : ∀ bytes, w.lookFile name = .ok bytes →
          readOne C w name = (checkState C text bytes).map some := fun bytes hlook => by
        simp only [readOne, htext, if_pos hstate, hlook]
      have hopen : Looks V calm me (fun bytes => w.lookFile name = .ok bytes)
          (fun _ => calm → ∃ e, readOne C w name = .error e)
          (request (.openFile name) rfl : Prog StorageError Bytes) := by
        refine looks_call rfl (fun fate => fate.error.error) (fun _ w => w.lookFile name)
          (fun _ _ => rfl) (fun hrestless _ hcalm => absurd hcalm hrestless) fun w' _ hw _ => ?_
        rw [World.lookFile_congr (hV.files hw)]
        cases hlook : w.lookFile name with
        | ok bytes => rfl
        | error e => exact fun _ => ⟨.storage e, by simp only [readOne, htext, if_pos hstate, hlook]⟩
      refine (hopen.mapErr fun _ he => he).bind fun file hfile => ?_
      have hbytes : Looks V calm me (· = file) (fun _ => ¬ calm)
          (request (.readToEnd file) rfl : Prog String Bytes) :=
        looks_call rfl (fun fate => fate.text) (fun _ _ => .ok file) (fun _ _ => rfl)
          (fun hrestless _ => hrestless) fun _ _ _ _ => rfl
      refine (hbytes.mapErr fun _ hrestless hcalm => absurd hcalm hrestless).bind
        fun bytes hb => ?_
      subst hb
      refine (looks_ofExcept (Q := fun record => checkState C text bytes = .ok record)
        (fun _ h => h) fun e he _ => ⟨e, by rw [hread bytes hfile, he]; rfl⟩).bind
        fun record hrecord => ?_
      exact looks_pure (by rw [hread bytes hfile, hrecord]; rfl)
    · rw [if_neg hstate]
      exact looks_pure (by simp only [readOne, htext, if_neg hstate])

/-- **The reader**, however its calls fail: it answers with the unfinished migration of records that
were published in order, or not at all. -/
theorem looks_loadPendingFromBootstrap (hV : V.Reads w) (hpublished : Published records)
    (hj : Journal C w records) :
    Looks V calm me (· = openOf records) (fun _ => calm → ¬ Readable created w)
      (loadPendingFromBootstrap C created) := by
  unfold loadPendingFromBootstrap
  have hentries : Looks V calm me
      (fun order => order.Perm (w.files.map (·.name)) ∧ Readable created w)
      (fun _ : LegacyStorageError => calm → ¬ Readable created w)
      (storage (request (.entries created) rfl)) := by
    refine Looks.mapErr (looks_call rfl (fun fate => fate.error.error)
      (fun fate w => w.enumerated created fate.order) (fun _ _ => rfl)
      (fun hrestless _ hcalm => absurd hcalm hrestless) fun w' fate hw hadmissible => ?_)
      fun _ he => he
    have hperm : fate.order.Perm (w.files.map (·.name)) := hV.files hw ▸ hadmissible
    rw [World.enumerated_congr (hV.files hw)]
    have hexact : ∀ names, w.enumerated created fate.order = .ok names ↔
        Readable created w ∧ names = fate.order := fun _ => enumerated_ok hperm
    cases henumerated : w.enumerated created fate.order with
    | ok names =>
      obtain ⟨hreadable, rfl⟩ := (hexact names).mp henumerated
      exact ⟨hperm, hreadable⟩
    | error e =>
      intro _ hreadable
      rw [(hexact fate.order).mpr ⟨hreadable, rfl⟩] at henumerated
      cases henumerated
  refine hentries.bind fun order ⟨horder, hreadable⟩ => ?_
  have hloop : Looks V calm me (fun results => order.mapM (readOne C w) = .ok results)
      (fun _ => calm → ¬ Readable created w) (Proc.mapEach (readState C) order) := by
    intro w' hw
    refine Proc.always_mapEach (fun past got w' => V.holds w' ∧
      List.Forall₂ (fun name r => readOne C w name = .ok r) past got) order [] [] w'
      (fun past got name w₁ hname h => ?_) ⟨hw, .nil⟩ fun got w₁ h => ?_
    · refine Proc.always_mono (looks_readState hV w₁ h.1) (fun r w₂ h₂ => ?_) fun e w₂ h₂ =>
        ⟨h₂.1, fun hcalm => ?_⟩
      · exact ⟨h₂.1, List.rel_append h.2 (.cons h₂.2 .nil)⟩
      · -- a sound file is read
        exfalso
        obtain ⟨f, hf, rfl⟩ := (mem_order horder name).mp hname
        obtain ⟨e', he'⟩ := h₂.2 hcalm
        rw [readOne_sound hj.names hf (hj.sound f hf)] at he'
        cases he'
    · exact ⟨h.1, mapM_ok.mpr (by simpa using h.2)⟩
  refine hloop.bind fun results hresults => ?_
  have hpending : ∀ r, pendingOf (results.filterMap id) = .ok r ↔ r = openOf records := by
    intro r
    have hrun : (Proc.run (undisturbed me order) (loadPendingFromBootstrap C created) w).1
        = pendingOf (results.filterMap id) := by
      rw [run_loadPending, (enumerated_ok horder).mpr ⟨hreadable, rfl⟩]
      dsimp only [Except.mapError, Except.bind]
      rw [hresults]
    have hexact : (Proc.run (undisturbed me order) (loadPendingFromBootstrap C created) w).1 = .ok r ↔
        Readable created w ∧ Sound C w ∧ pendingOf (recordsIn C w) = .ok r :=
      loadPending_eq hj.names horder
    rw [hrun, hj.records, pendingOf_published hpublished] at hexact
    rw [hexact, Except.ok.injEq, eq_comm]
    exact (and_iff_right hreadable).trans (and_iff_right hj.sound)
  refine looks_ofExcept (fun r hr => (hpending r).mp hr) fun e he _ => ?_
  rw [(hpending _).mpr rfl] at he
  cases he

/-- **The pending state**; where there is no bootstrap directory there is none. -/
theorem looks_loadPendingState (hV : V.Reads w) (hpublished : Published records)
    (hj : Journal C w records) (hboot : w.names BOOTSTRAP_DIRECTORY = none → records = []) :
    Looks V calm me (· = openOf records)
      (fun _ => calm → Plain w → ∃ o, w.names BOOTSTRAP_DIRECTORY = some o ∧ ¬ o.IsRoot)
      (loadPendingState C) := by
  unfold loadPendingState
  refine (looks_openExistingChild hV.bootstrap).attempt
    (fun h ⟨_, hname, hdir, hreparse⟩ => ?_) fun e he => ?_
  · refine (looks_validateProductionRoot.mapErr fun e he hcalm => ?_).bind fun _ _ => ?_
    · exact fun _ => ⟨h.object, hname, fun hroot => he.honest hcalm hroot.descriptor⟩
    exact (looks_loadPendingFromBootstrap hV hpublished hj).mono (fun _ h => h) fun _ he hcalm hplain =>
      absurd ⟨rfl, hplain⟩ (he hcalm)
  · dsimp only
    split
    · next hnot =>
      rw [hboot (he.absent hnot)]
      exact looks_pure rfl
    · next hreal =>
      refine looks_fail fun hcalm _ => ?_
      rcases he.honest hcalm with ⟨_, hnot⟩ | ⟨o, ho, hbad⟩
      · exact absurd hnot hreal
      · exact ⟨o, ho, fun hroot => hbad ⟨hroot.isDirectory, hroot.isReparse⟩⟩

end Journals

/-! ## 4. Inspection and verification -/

/-- The end of `inspect_under`, where nothing is pending. -/
def inspectProduct : Prog LegacyStorageError ProductionStorageState := do
  match ← Proc.attempt openExistingUnder with
  | .ok root => pure (.ready root)
  | .error error =>
    if error.isNotFound then do
      let root ← storage openOrCreateUnder
      pure (.ready root)
    else do
      let identity ← storage (openObjectIdentity PRODUCT_DIRECTORY)
      pure (.needsConsent
        { reason := storageText error, detectedIdentity := identity, resume := false })

/-- The end of `inspect_under`, after the pending state was loaded. -/
def inspectFrom : Option MigrationStateRecord → Prog LegacyStorageError ProductionStorageState
  | some pending => pure (.needsResume
    { reason := s!"interrupted legacy storage migration {pending.migrationId} at {pending.phase.label}"
      detectedIdentity := pending.sourceIdentity
      resume := true })
  | none => inspectProduct

/-- What an inspection says of the object under the name of the product. -/
def Found (calm : Prop) (o : StorageObject) : ProductionStorageState → Prop
  | .ready root => root = ⟨PRODUCT_DIRECTORY, o⟩ ∧ o.IsRoot
  | .needsConsent recovery => recovery.detectedIdentity = o.identity ∧ (calm → ¬ o.IsRoot)
  | .needsResume _ => False

/-- What an inspection asks for: to resume the migration that is not complete; where there is none,
what is under the name of the product. -/
def Asks (calm : Prop) (w : World) (records : List MigrationStateRecord)
    (state : ProductionStorageState) : Prop :=
  match openOf records with
  | some u => ∃ recovery, state = .needsResume recovery ∧
      recovery.detectedIdentity = u.sourceIdentity
  | none => ∃ o, w.names PRODUCT_DIRECTORY = some o ∧ Found calm o state

section Inspection

variable {C : StateCodec} {V : View} {calm : Prop} {me : Nat} {w : World} {S : Setting} {o : StorageObject}
  {records : List MigrationStateRecord} {u : MigrationStateRecord}

/-- An object that is there is inspected, and nothing is created. -/
theorem looks_inspectProduct (hv : ∀ w, V.holds w → w.names PRODUCT_DIRECTORY = some o) :
    Looks V calm me (Found calm o) (fun _ => ¬ calm) inspectProduct := by
  unfold inspectProduct
  refine (looks_openExistingUnder hv).attempt (fun root ⟨hpath, hname, hroot⟩ => ?_) fun e he => ?_
  · obtain ⟨path, object⟩ := root
    cases hname
    cases hpath
    exact looks_pure ⟨rfl, hroot⟩
  · dsimp only
    rw [if_neg fun hnot => Option.some_ne_none o (he.absent hnot)]
    refine ((looks_openObjectIdentity hv).mapErr fun e' he' hcalm => ?_).bind
      fun identity ⟨o', ho', hidentity⟩ => ?_
    · rcases he'.honest hcalm with ⟨hnone, _⟩ | ⟨_, _, hfalse⟩
      · cases hnone
      · exact hfalse trivial
    · cases ho'
      refine looks_pure ⟨hidentity.symm, fun hcalm hroot => ?_⟩
      rcases he.honest hcalm with ⟨hnone, _⟩ | ⟨o', ho', hbad⟩
      · cases hnone
      · cases ho'
        exact hbad hroot

theorem inspectUnder_eq : inspectUnder C = loadPendingState C >>= inspectFrom := rfl

/-- The trust of the bootstrap directory: what is under its name is a production root. -/
def Trusted (names : Names) : Prop := ∀ o, names BOOTSTRAP_DIRECTORY = some o → o.IsRoot

/-- **The inspection**, where the journal and the names are in order: it asks to resume exactly when
a migration is not complete, and creates nothing. -/
theorem looks_inspectUnder (hpublished : Published records) (hj : Journal C w records)
    (hlayout : Layout S w.names w.drawn records) :
    Looks (.still w) calm me (Asks calm w records) (fun _ => calm → Plain w → ¬ Trusted w.names)
      (inspectUnder C) := by
  unfold Asks
  rw [inspectUnder_eq]
  refine ((looks_loadPendingState (View.reads_still w) hpublished hj hlayout.bootstrap).mono (fun _ h => h)
    fun _ he hcalm hplain htrusted => ?_).bind fun pending hpending => ?_
  · obtain ⟨o, ho, hbad⟩ := he hcalm hplain
    exact hbad (htrusted o ho)
  · subst hpending
    cases hopen : openOf records with
    | some u => exact looks_pure ⟨_, rfl, rfl⟩
    | none =>
      obtain ⟨o, ho⟩ := hlayout.product hopen
      have hv : ∀ w', (View.still w).holds w' → w'.names PRODUCT_DIRECTORY = some o :=
        fun w' hw => (still_names w _ w' hw).trans ho
      exact (looks_inspectProduct hv).mono (fun _ h => ⟨o, ho, h⟩) fun _ hrestless hcalm =>
        absurd hcalm hrestless

/-- The roots of a complete exchange, as `verify_ready_root` finds them. -/
theorem looks_verifyReadyRoot : Looks (.still w) calm me
    (fun _ => Denotes w.names PRODUCT_DIRECTORY u.nextIdentity ∧
      Denotes w.names u.legacyName u.sourceIdentity)
    (fun _ => calm → ¬ (w.names PRODUCT_DIRECTORY = some (newRoot u.nextIdentity) ∧
      Denotes w.names u.legacyName u.sourceIdentity))
    (verifyReadyRoot u) := by
  unfold verifyReadyRoot
  refine (looks_openExistingUnder (still_names w _)).bindErr ?_ fun root ⟨_, hname, hroot⟩ => ?_
  · rintro e he hcalm ⟨hproduct, _⟩
    rcases he.honest hcalm with ⟨hnone, _⟩ | ⟨o, ho, hbad⟩
    · rw [hnone] at hproduct
      cases hproduct
    · rw [hproduct] at ho
      cases ho
      exact hbad (newRoot_isRoot _)
  refine looks_rootDirectory.bindErr (fun e he hcalm _ => he.honest hcalm hroot) ?_
  rintro directory rfl
  refine looks_objectIdentity.bindErr (fun e he hcalm _ => he.honest hcalm trivial) ?_
  rintro identity rfl
  refine (looks_guard ?_).bind fun _ hguard => ?_
  · rintro hguard hcalm ⟨hproduct, _⟩
    have hobject : directory.object = newRoot u.nextIdentity :=
      Option.some.inj (hname.symm.trans hproduct)
    exact absurd (congrArg StorageObject.identity hobject) (of_decide_eq_false hguard)
  have hnext : Denotes w.names PRODUCT_DIRECTORY u.nextIdentity :=
    ⟨directory.object, hname, of_decide_eq_true hguard⟩
  refine (looks_openObjectIdentity (still_names w _)).bindErr ?_ fun identity ⟨o, ho, hidentity⟩ => ?_
  · rintro e he hcalm ⟨_, o, ho, _⟩
    rcases he.honest hcalm with ⟨hnone, _⟩ | ⟨_, _, hfalse⟩
    · rw [hnone] at ho
      cases ho
    · exact hfalse trivial
  refine (looks_guard ?_).mono (fun _ hguard => ⟨hnext, o, ho, ?_⟩) fun _ he => he
  · rintro hguard hcalm ⟨_, o', ho', hsource⟩
    rw [ho] at ho'
    cases ho'
    exact absurd (hidentity.symm.trans hsource) (of_decide_eq_false hguard)
  · exact hidentity.trans (of_decide_eq_true hguard)

end Inspection

end WinProfile.Legacy
