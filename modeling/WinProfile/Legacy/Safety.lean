/-
  File:      WinProfile/Legacy/Safety.lean
  Subject:   What holds of the legacy object, of the names and of the inspections in every run of
             quiet steps from a fresh ProgramData.

  * `Fresh` -- the start: the name of the product denotes an object, and no migration is recorded.
  * `Safe` -- the detached object has one name, and the phase of the migration tells which;
    `recovery_crash_safe` has it for every run, `startups_crash_safe` for startups whose inspections
    are one step.
  * `migrates_once` -- where the inspections do not fail, no other object is ever detached;
    `canonical_root_kept` -- nor is a production root, where `canonical_root_detached` has one that
    fails.
  * `inspection_undisturbed` -- an inspection changes nothing, starts on no root while a migration is
    not complete, and asks to resume only one that was not.
-/
import WinProfile.Legacy.Beginning

namespace WinProfile.Legacy

/-! ## 1. The start -/

/-- The name of the product denotes the object `L`, under no other name; no migration is recorded,
nobody has the lock, and the ids that were not given out are in no name. -/
structure Fresh (C : StateCodec) (L : StorageObject) (w : World) : Prop where
  product : w.names PRODUCT_DIRECTORY = some L
  once : ∀ n o, w.names n = some o → o.identity = L.identity → n = PRODUCT_DIRECTORY
  unused : ∀ id, id ∉ w.drawn →
    w.names (LEGACY_PREFIX ++ id) = none ∧ w.names (NEXT_PREFIX ++ id) = none
  journal : Journal C w []
  owner : w.owner = none

/-- Anything may be detached. -/
def Setting.any (L : StorageObject) : Setting := ⟨L, fun _ => True⟩

section Start

variable {C : StateCodec} {S : Setting} {seen : World → Prop} {calm : Prop} {L : StorageObject}
  {w : World} {m₀ : Machine}

theorem Fresh.consistent (h : Fresh C S.object w)
    (hobject : ¬ S.object.IsRoot → S.detachable S.object.identity) : Consistent C S w := by
  refine ⟨[], .start, h.journal, ⟨⟨fun n k o o' hn hk hid hid' => ?_, h.unused, fun r hr => ?_,
    fun _ => rfl, fun r hr => ?_⟩, .inl h.product, fun _ => .inl h.product, fun u hu => ?_,
    fun r hr => ?_, fun o ho hroot => ?_⟩, fun howner => absurd h.owner howner, fun r hr => ?_⟩
  · rw [h.once n o hn hid, h.once k o' hk hid']
  · cases hr
  · cases hr
  · cases hu
  · cases hr
  · rw [h.product] at ho
    cases ho
    exact hobject hroot
  · cases hr

theorem Fresh.inv (h : Fresh C S.object m₀.world) (hidle : ∀ i, m₀.tasks i = .idle)
    (hobject : ¬ S.object.IsRoot → S.detachable S.object.identity)
    (hadmits : calm ∨ ∀ i, S.detachable i) (hseen : seen m₀.world) : m₀.Inv C S seen calm where
  admits := hadmits
  knows := ⟨h.consistent hobject, hseen⟩
  asking i recovery hi := by
    rw [hidle] at hi
    cases hi
  recovering i p hp := by
    rw [hidle] at hp
    cases hp
  inspecting i p hp := by
    rw [hidle] at hp
    cases hp
  owner i hi := by
    rw [h.owner] at hi
    cases hi

/-- Where any object may be detached, the invariant holds whatever fails. -/
theorem Fresh.invAny (h : Fresh C L m₀.world) (hidle : ∀ i, m₀.tasks i = .idle) :
    m₀.Inv C (.any L) (fun _ => True) calm :=
  Fresh.inv (S := .any L) h hidle (fun _ => trivial) (.inr fun _ => trivial) trivial

theorem Fresh.waiting (h : Fresh C L w) (htrusted : Trusted w.names) : Waiting C (.any L) w :=
  ⟨h.consistent (S := .any L) fun _ => trivial, h.owner, htrusted⟩

/-- An inspection asks for consent. -/
theorem Fresh.asks (h : Fresh C L w) (hlegacy : ¬ L.IsRoot) (htrusted : Trusted w.names)
    (hplain : Plain w) (hbounded : Bounded w.names) (i : Nat) :
    ∃ recovery, recovery.detectedIdentity = L.identity ∧
      Proc.Steps (stepIn True i) (inspectUnder C) w (.done (.ok (.needsConsent recovery))) w := by
  obtain ⟨state, hasks, hs⟩ :=
    (h.waiting htrusted).consistent.inspectable (i := i) htrusted hplain hbounded
  rw [h.journal.records] at hasks
  obtain ⟨o, ho, hfound⟩ := hasks
  obtain rfl : L = o := Option.some.inj (h.product.symm.trans ho)
  cases state with
  | ready root => exact absurd hfound.2 hlegacy
  | needsConsent recovery => exact ⟨recovery, hfound.1, hs⟩
  | needsResume recovery => exact hfound.elim

/-- An inspection finds nothing pending. -/
theorem Fresh.loads (h : Fresh C L w) (htrusted : Trusted w.names) (hplain : Plain w)
    (hbounded : Bounded w.names) (i : Nat) :
    Proc.Steps (stepIn True i) (inspectUnder C) w inspectProduct w := by
  obtain ⟨r, w', hs⟩ :=
    Proc.Steps.total (fun c w hw => exists_calm (i := i) c hw) (loadPendingState C) hbounded
  have hlooks : Looks (.still w) True i (· = openOf []) (fun _ => True → Plain w →
      ∃ o, w.names BOOTSTRAP_DIRECTORY = some o ∧ ¬ o.IsRoot) (loadPendingState C) :=
    looks_loadPendingState (View.reads_still w) .start h.journal fun _ => rfl
  obtain ⟨rfl, hvalue, herror⟩ := hlooks.steps hs
  cases r with
  | error e =>
    obtain ⟨o, ho, hbad⟩ := herror e rfl trivial hplain
    exact absurd (htrusted o ho) hbad
  | ok pending =>
    obtain rfl : pending = none := hvalue pending rfl
    exact hs.andThen (k := inspectFrom) rfl

/-- **An inspection that fails** to open what is under the name of the product asks for consent to
detach it, whatever it is. -/
theorem Fresh.failing (h : Fresh C L w) (htrusted : Trusted w.names) (hplain : Plain w)
    (hbounded : Bounded w.names) (i : Nat) : ∃ recovery, recovery.detectedIdentity = L.identity ∧
      Proc.Steps (step i) (inspectUnder C) w (.done (.ok (.needsConsent recovery))) w := by
  have hload := h.loads htrusted hplain hbounded i
  -- the identity is asked for all the same
  obtain ⟨r, w', hs⟩ := Proc.Steps.total (fun c w hw => exists_calm (i := i) c hw)
    (openObjectIdentity PRODUCT_DIRECTORY) hbounded
  have hlooks : Looks (.still w) True i (fun k => ∃ o, w.names PRODUCT_DIRECTORY = some o ∧
      o.identity = k) (NotOpened True (w.names PRODUCT_DIRECTORY) fun _ => True)
      (openObjectIdentity PRODUCT_DIRECTORY) := looks_openObjectIdentity (still_names w _)
  obtain ⟨hsame, hvalue, herror⟩ := hlooks.steps hs
  rw [hsame] at hs
  cases r with
  | error e =>
    rcases (herror e rfl).honest trivial with ⟨hnone, _⟩ | ⟨_, _, hfalse⟩
    · rw [h.product] at hnone
      cases hnone
    · exact absurd trivial hfalse
  | ok identity =>
    obtain ⟨o, ho, rfl⟩ := hvalue identity rfl
    obtain rfl : L = o := Option.some.inj (h.product.symm.trans ho)
    have hasks := hs.bind (f := LegacyStorageError.storage) (k := fun identity =>
      (pure (.needsConsent { reason := storageText ({} : Fate).error.error
                             detectedIdentity := identity
                             resume := false }) : Prog LegacyStorageError ProductionStorageState)) rfl
    have hfails : step i (.openDirectory PRODUCT_DIRECTORY) w (.error ({} : Fate).error.error) w :=
      ⟨{ outcome := .before }, trivial, rfl⟩
    refine ⟨_, ?_, (hload.mono fun _ _ _ _ hcall => step_of_stepIn hcall).trans
      (.call hfails (hasks.mono fun _ _ _ _ hcall => step_of_stepIn hcall))⟩
    rfl

/-- **A migration comes under way**: from such a start with a bootstrap directory, an instance that
asks can be given consent, and recover up to the terminal audit entry. -/
theorem Fresh.underway {recovery : LegacyStorageRecovery} {i : Nat} (h : Fresh C L m₀.world)
    (htrusted : Trusted m₀.world.names) (hplain : Plain m₀.world) (hbounded : Bounded m₀.world.names)
    (hboot : m₀.world.names BOOTSTRAP_DIRECTORY ≠ none) (hidle : ∀ j, m₀.tasks j = .idle)
    (hidentity : recovery.detectedIdentity = L.identity)
    (hasks : m₀.Attempt C calm i (m₀.put i (.asking recovery) m₀.world)) :
    ∃ m u, Machine.Attempts C calm m₀ m ∧ OneOpen C m.world u ∧ u.phase = .auditPending ∧
      u.sourceIdentity = L.identity ∧ ∀ j, j ≠ i → m.tasks j = .idle := by
  obtain ⟨r, w, hs⟩ := Proc.Steps.total (fun c w hw => exists_calm (i := i) c hw)
    (executeRecovery C recovery.detectedIdentity) hbounded
  have hnone : openOf (recordsIn C m₀.world) = none := by
    rw [h.journal.records]
    rfl
  have hend := hs.always (calm_executeRecovery (h.waiting htrusted) hboot hplain trivial fun _ =>
    ⟨L, h.product, hidentity.symm⟩)
  cases r with
  | error e => exact hend.elim
  | ok pending =>
    obtain ⟨⟨u, hu, hawaits⟩, _⟩ := hend
    have hsource : u.sourceIdentity = L.identity := by
      rcases hu with hu | ⟨_, hu⟩
      · rw [hnone] at hu
        cases hu
      · rw [hu, hidentity]
    obtain ⟨_, hstate, records, hheld, hopen⟩ := hawaits
    have hrest := (hs.bind (f := StartupError.legacy) (k := finishRecovery C) rfl).mono
      fun _ _ _ _ hcall => step_of_stepIn hcall
    rw [← completeRecovery_eq] at hrest
    have hrecovers : Machine.Attempts C calm _ _ := Machine.consents (m := m₀)
      (fun hasking => ⟨i, .consent hasking⟩) (fun htask hcall => ⟨i, .call htask hcall⟩) hrest
    refine ⟨_, pending.state, .head ⟨i, hasks⟩ hrecovers, hheld.consistent.oneOpen.mpr ?_, ?_, ?_,
      fun j hne => ?_⟩
    · rw [hheld.journal.records, hopen]
    · rw [hstate]
    · rw [hstate, hsource]
    · rw [Machine.put_tasks, if_neg hne, hidle]

end Start

/-- `o` under the name of the product, and perhaps an empty bootstrap directory beside it. -/
def startWorld (o : StorageObject) (bootstrap : Option StorageObjectIdentity) : World where
  names := Function.update (Function.update (fun _ => none) PRODUCT_DIRECTORY (some o))
    BOOTSTRAP_DIRECTORY (bootstrap.map newRoot)

section World

variable {o : StorageObject} {bootstrap : Option StorageObjectIdentity}

theorem startWorld_bootstrap :
    (startWorld o bootstrap).names BOOTSTRAP_DIRECTORY = bootstrap.map newRoot := by
  show Function.update (Function.update (fun _ => none) PRODUCT_DIRECTORY (some o))
    BOOTSTRAP_DIRECTORY (bootstrap.map newRoot) BOOTSTRAP_DIRECTORY = _
  rw [Function.update_self]

theorem startWorld_bootstrapped {k : StorageObjectIdentity} :
    (startWorld o (some k)).names BOOTSTRAP_DIRECTORY ≠ none := by
  rw [startWorld_bootstrap]
  exact Option.some_ne_none _

theorem startWorld_product : (startWorld o bootstrap).names PRODUCT_DIRECTORY = some o := by
  show Function.update (Function.update (fun _ => none) PRODUCT_DIRECTORY (some o))
    BOOTSTRAP_DIRECTORY (bootstrap.map newRoot) PRODUCT_DIRECTORY = some o
  rw [Function.update_of_ne product_ne_bootstrap, Function.update_self]

theorem startWorld_names {name : String} (h : name ≠ PRODUCT_DIRECTORY)
    (hboot : name ≠ BOOTSTRAP_DIRECTORY) : (startWorld o bootstrap).names name = none := by
  show Function.update (Function.update (fun _ => none) PRODUCT_DIRECTORY (some o))
    BOOTSTRAP_DIRECTORY (bootstrap.map newRoot) name = none
  rw [Function.update_of_ne hboot, Function.update_of_ne h]

theorem startWorld_fresh (ho : ∀ k ∈ bootstrap, o.identity ≠ k) :
    Fresh sampleStateCodec o (startWorld o bootstrap) where
  product := startWorld_product
  once n o' hn hid := by_contra fun hne => by
    by_cases hboot : n = BOOTSTRAP_DIRECTORY
    · rw [hboot, startWorld_bootstrap, Option.map_eq_some_iff] at hn
      obtain ⟨k, hk, rfl⟩ := hn
      exact ho k hk hid.symm
    · rw [startWorld_names hne hboot] at hn
      cases hn
  unused id _ := ⟨startWorld_names legacy_ne_product legacy_ne_bootstrap,
    startWorld_names next_ne_product next_ne_bootstrap⟩
  journal := ⟨.nil, fun f hf => (by cases hf), .nil, fun f hf => (by cases hf), rfl⟩
  owner := rfl

theorem startWorld_trusted : Trusted (startWorld o bootstrap).names := fun o' ho' => by
  rw [startWorld_bootstrap, Option.map_eq_some_iff] at ho'
  obtain ⟨k, _, rfl⟩ := ho'
  exact newRoot_isRoot _

theorem startWorld_plain : Plain (startWorld o bootstrap) := fun f hf => by cases hf

theorem startWorld_bounded : Bounded (startWorld o bootstrap).names := by
  have hempty : Bounded (fun _ => none) := Set.finite_empty.subset fun _ hn => absurd rfl hn
  exact (hempty.update PRODUCT_DIRECTORY (some o)).update BOOTSTRAP_DIRECTORY _

end World

/-- A file under the name of the product. -/
def staleObject : StorageObject where
  identity := ⟨7, 9⟩
  isDirectory := false
  isReparse := false
  descriptor := rootDescriptor

/-- With a bootstrap directory beside it. -/
def staleMachine : Machine := ⟨startWorld staleObject (some ⟨7, 10⟩), fun _ => .idle⟩

theorem staleObject_not_isRoot : ¬ staleObject.IsRoot := fun h => by cases h.isDirectory

theorem staleMachine_fresh : Fresh sampleStateCodec staleObject staleMachine.world :=
  startWorld_fresh fun k hk => by cases hk; decide

/-- The first instance comes to have a migration under way. -/
theorem staleMachine_attempts (calm : Prop) :
    ∃ m u, Machine.Attempts sampleStateCodec calm staleMachine m ∧
      OneOpen sampleStateCodec m.world u ∧ u.phase = .auditPending ∧
      u.sourceIdentity = staleObject.identity ∧ ∀ j, j ≠ 0 → m.tasks j = .idle := by
  obtain ⟨recovery, hidentity, hs⟩ := staleMachine_fresh.asks staleObject_not_isRoot
    startWorld_trusted startWorld_plain startWorld_bounded 0
  have hasks : staleMachine.Attempt sampleStateCodec calm 0
      (staleMachine.put 0 (.asking recovery) staleMachine.world) :=
    .inspect rfl (hs.mono fun _ _ _ _ hcall => stepIn_of_true hcall)
  exact staleMachine_fresh.underway startWorld_trusted startWorld_plain startWorld_bounded
    startWorld_bootstrapped (fun _ => rfl) hidentity hasks

/-- A run in which it has. -/
theorem staleMachine_underway (calm : Prop) :
    ∃ m u, Machine.Runs sampleStateCodec calm staleMachine m ∧
      OneOpen sampleStateCodec m.world u ∧ u.phase = .auditPending ∧
      u.sourceIdentity = staleObject.identity ∧ ∀ j, j ≠ 0 → m.tasks j = .idle := by
  obtain ⟨m, u, hattempts, hrest⟩ := staleMachine_attempts calm
  have hruns := hattempts.runs (fun _ _ => Task.noConfusion) (staleMachine_fresh.invAny fun _ => rfl)
  exact ⟨m, u, hruns.1, hrest⟩

/-! ## 2. The detached object -/

/-- **ProgramData between any two steps**, where `L` was found under the name of the product. -/
structure Safe (C : StateCodec) (L : StorageObject) (w : World) : Prop where
  /-- The journal says what is to be done. -/
  recognised : Complete C w ∨ ∃ r, OneOpen C w r
  /-- The phase of the unfinished migration tells where everything is. -/
  stands : ∀ r, OneOpen C w r → Stands w.names r
  settled : Complete C w → w.names PRODUCT_DIRECTORY = some L ∨
    ∃ i, w.names PRODUCT_DIRECTORY = some (newRoot i)
  home : ∃ name, (name = PRODUCT_DIRECTORY ∨
    ∃ r ∈ recordsIn C w, r.sourceIdentity = L.identity ∧ r.legacyName = name) ∧
    w.names name = some L
  once : ∀ n k, w.names n = some L → w.names k = some L → n = k
  /-- A record that says so is true. -/
  detached : ∀ r ∈ recordsIn C w, r.phase ≠ .prepared → r.sourceIdentity = L.identity →
    w.names r.legacyName = some L
  audited : ∀ r ∈ recordsIn C w, r.phase = .done → auditOf r ∈ w.audits

section Safety

variable {C : StateCodec} {S : Setting} {L : StorageObject} {w : World} {m₀ m m' : Machine} {i : Nat}

theorem Consistent.safe (h : Consistent C S w) : Safe C S.object w := by
  have hopenOf := fun r => h.oneOpen (r := r)
  obtain ⟨records, hpublished, hjournal, hlayout, _, haudited⟩ := h
  have hcomplete : openOf (recordsIn C w) = none ↔ Complete C w := by
    have hpending := pendingOf_none hpublished.schema
    rw [pendingOf_published hpublished, Except.ok.injEq] at hpending
    rw [hjournal.records, hpending]
    constructor
    · exact fun hdone => ⟨hjournal.sound, by rwa [hjournal.records]⟩
    · rintro ⟨_, hdone⟩
      rwa [hjournal.records] at hdone
  have honce : ∀ n k, w.names n = some S.object → w.names k = some S.object → n = k :=
    fun n k hn hk => hlayout.once n k _ _ hn hk rfl rfl
  constructor
  case recognised =>
    cases hopen : openOf (recordsIn C w) with
    | none => exact .inl (hcomplete.mp hopen)
    | some r => exact .inr ⟨r, (hopenOf r).mpr hopen⟩
  case stands =>
    intro r hr
    have hopen := (hopenOf r).mp hr
    rw [hjournal.records] at hopen
    exact hlayout.stands r hopen
  case settled =>
    intro hdone
    have hopen := hcomplete.mpr hdone
    rw [hjournal.records] at hopen
    exact hlayout.complete hopen
  case home =>
    rcases hlayout.home with hproduct | ⟨r, hr, hsource, hlegacy⟩
    · exact ⟨_, .inl rfl, hproduct⟩
    · exact ⟨_, .inr ⟨r, by rwa [hjournal.records], hsource, rfl⟩, hlegacy⟩
  case once => exact honce
  case audited =>
    rw [hjournal.records]
    exact haudited
  case detached =>
    intro r hr hphase hsource
    rw [hjournal.records] at hr
    obtain ⟨o, ho, hidentity⟩ := hlayout.gone r hr hphase
    -- only one name has the identity of the object
    have hname : ∀ name, w.names name = some S.object → w.names r.legacyName = some S.object := by
      intro name hL
      rw [hlayout.once r.legacyName name o _ ho hL (hidentity.trans hsource) rfl, hL]
    rcases hlayout.home with hproduct | ⟨x, _, _, hlegacy⟩
    · exact hname _ hproduct
    · exact hname _ hlegacy

/-- Once the object has its detached name it keeps it. -/
theorem Machine.Inv.detached (h : m.Inv C (.any L) (fun _ => True) calm)
    (hlater : Machine.Runs C calm m m') {r : MigrationStateRecord} (hr : r ∈ recordsIn C m.world)
    (hlegacy : m.world.names r.legacyName = some L) :
    m'.world.names r.legacyName = some L ∧ m'.world.names PRODUCT_DIRECTORY ≠ some L := by
  obtain ⟨hinv', hkeeps, _⟩ := h.run hlater fun _ _ _ => trivial
  obtain ⟨records, _, hjournal, hlayout, _⟩ := h.knows.consistent
  rw [hjournal.records] at hr
  have hname := (hlayout.named r hr).legacyName
  rw [hname] at hlegacy ⊢
  have hkept := hkeeps.legacy _ _ hlegacy
  refine ⟨hkept, fun hproduct => ?_⟩
  exact legacy_ne_product (hinv'.knows.consistent.safe.once _ _ hkept hproduct)

/-- **The recovery is crash safe.** In every run of any number of instances, each stopped or failing
at any of its calls, the object that was found has one name, the phase of the unfinished migration
tells which, and once it has its detached name it keeps it. -/
theorem recovery_crash_safe (hstart : Fresh C L m₀.world) (hidle : ∀ i, m₀.tasks i = .idle)
    (hrun : Machine.Runs C False m₀ m) :
    Safe C L m.world ∧ ∀ m', Machine.Runs C False m m' → ∀ r ∈ recordsIn C m.world,
      m.world.names r.legacyName = some L →
      m'.world.names r.legacyName = some L ∧ m'.world.names PRODUCT_DIRECTORY ≠ some L := by
  have hinv := ((hstart.invAny hidle).run hrun fun _ _ _ => trivial).1
  exact ⟨hinv.knows.consistent.safe, fun m' hlater r hr hlegacy => hinv.detached hlater hr hlegacy⟩

theorem recovery_crash_safe_sample : ∃ m u,
    Machine.Runs sampleStateCodec False staleMachine m ∧ OneOpen sampleStateCodec m.world u ∧
    u.phase = .auditPending ∧ Safe sampleStateCodec staleObject m.world ∧
    ∀ m', Machine.Runs sampleStateCodec False m m' →
      m'.world.names u.legacyName = some staleObject := by
  obtain ⟨m, u, hrun, hopen, hphase, hsource, _⟩ := staleMachine_underway False
  have hsafe := recovery_crash_safe staleMachine_fresh (fun _ => rfl) hrun
  have hmem : u ∈ recordsIn sampleStateCodec m.world :=
    (List.mem_filter.mp (hopen.reached.symm.subset (self_mem_chainTo u))).1
  have hlegacy := hsafe.1.detached u hmem (by rw [hphase]; exact MigrationPhase.noConfusion) hsource
  exact ⟨m, u, hrun, hopen, hphase, hsafe.1, fun m' hlater =>
    (hsafe.2 m' hlater u hmem hlegacy).1⟩

/-- **Startups are crash safe** where an inspection is one step: in every sequence of them, each
stopped or failing before or after any of its calls, the object has one name, of the product or of its
record; once a record says that it is detached it keeps that name; and the phase of the unfinished
migration says what each of the names denotes. -/
theorem startups_crash_safe (hstart : Fresh C L m₀.world) (hidle : ∀ i, m₀.tasks i = .idle)
    (hrun : Machine.Attempts C False m₀ m) :
    (∃ name, (name = PRODUCT_DIRECTORY ∨
        ∃ r ∈ recordsIn C m.world, r.sourceIdentity = L.identity ∧ r.legacyName = name) ∧
      m.world.names name = some L ∧ ∀ n, m.world.names n = some L → n = name) ∧
    (∀ r ∈ recordsIn C m.world, r.sourceIdentity = L.identity → r.phase ≠ .prepared →
      ∀ m', Machine.Attempts C False m m' →
        m'.world.names r.legacyName = some L ∧ m'.world.names PRODUCT_DIRECTORY ≠ some L) ∧
    (Complete C m.world ∨ ∃ u, OneOpen C m.world u ∧ Stands m.world.names u) := by
  have hinv₀ : m₀.Inv C (.any L) (fun _ => True) False := hstart.invAny hidle
  obtain ⟨hruns, hunwatched⟩ :=
    hrun.runs (.idle hidle) hinv₀
  have hinv := (hinv₀.run hruns fun _ _ _ => trivial).1
  have hsafe : Safe C L m.world := hinv.knows.consistent.safe
  refine ⟨?_, fun r hr hsource hphase m' hlater => ?_, ?_⟩
  · obtain ⟨name, hname, hL⟩ := hsafe.home
    exact ⟨name, hname, hL, fun n hn => hsafe.once n name hn hL⟩
  · exact hinv.detached (hlater.runs hunwatched hinv).1 hr (hsafe.detached r hr hphase hsource)
  · exact hsafe.recognised.imp id fun ⟨u, hu⟩ => ⟨u, hu, hsafe.stands u hu⟩

theorem startups_crash_safe_sample : ∃ m u,
    Machine.Attempts sampleStateCodec False staleMachine m ∧ OneOpen sampleStateCodec m.world u ∧
    u.phase = .auditPending ∧ (∀ n, m.world.names n = some staleObject → n = u.legacyName) ∧
    ∀ m', Machine.Attempts sampleStateCodec False m m' →
      m'.world.names u.legacyName = some staleObject := by
  obtain ⟨m, u, hrun, hopen, hphase, hsource, _⟩ := staleMachine_attempts False
  obtain ⟨⟨name, _, _, hone⟩, hkept, _⟩ :=
    startups_crash_safe staleMachine_fresh (fun _ => rfl) hrun
  have hmem : u ∈ recordsIn sampleStateCodec m.world :=
    (List.mem_filter.mp (hopen.reached.symm.subset (self_mem_chainTo u))).1
  have hlater := hkept u hmem hsource (by rw [hphase]; exact MigrationPhase.noConfusion)
  refine ⟨m, u, hrun, hopen, hphase, fun n hn => ?_, fun m' hm' => (hlater m' hm').1⟩
  rw [hone n hn, hone _ (hlater m .refl).1]

/-! ## 3. One migration -/

/-- Nothing but `L` may be detached. -/
def Setting.only (L : StorageObject) : Setting := ⟨L, (· = L.identity)⟩

/-- A record belongs to the migration that is not complete, or to one that is. -/
theorem Safe.openOrDone {r : MigrationStateRecord} (h : Safe C L w) (hr : r ∈ recordsIn C w) :
    (∃ v, OneOpen C w v ∧ v.migrationId = r.migrationId) ∨
      ∃ u ∈ recordsIn C w, u.migrationId = r.migrationId ∧ u.phase = .done := by
  have hne : recordsOf r.migrationId (recordsIn C w) ≠ [] :=
    List.ne_nil_of_mem (List.mem_filter.mpr ⟨hr, decide_eq_true rfl⟩)
  have hmem : ∀ {u}, Reached (recordsIn C w) u → u ∈ recordsIn C w := fun hu =>
    (List.mem_filter.mp (hu.symm.subset (self_mem_chainTo _))).1
  rcases h.recognised with hdone | ⟨v, hv⟩
  · obtain ⟨u, hid, hphase, hreached⟩ := hdone.done r.migrationId trivial hne
    exact .inr ⟨u, hmem hreached, hid, hphase⟩
  · by_cases hid : r.migrationId = v.migrationId
    · exact .inl ⟨v, hv, hid.symm⟩
    · obtain ⟨u, hid, hphase, hreached⟩ := hv.others r.migrationId hid hne
      exact .inr ⟨u, hmem hreached, hid, hphase⟩

/-- Where only `L` may be detached, all records are of one migration: no second one finds it under
the name of the product. -/
theorem Consistent.oneMigration (h : Consistent C (.only L) w) :
    ∀ r ∈ recordsIn C w, ∀ r' ∈ recordsIn C w, r.migrationId = r'.migrationId := by
  have hsafe : Safe C L w := h.safe
  have hopenOf := fun r => h.oneOpen (r := r)
  obtain ⟨records, _, hjournal, hlayout, _⟩ := h
  have honce : ∀ {a b}, Denotes w.names a L.identity → Denotes w.names b L.identity → a = b := by
    rintro a b ⟨o, ho, hid⟩ ⟨o', ho', hid'⟩
    exact hlayout.once a b o o' ho ho' hid hid'
  have hlegacy : ∀ u ∈ recordsIn C w, u.phase = .done →
      Denotes w.names (LEGACY_PREFIX ++ u.migrationId) L.identity := by
    intro u hu hphase
    rw [hjournal.records] at hu
    have hdenotes := hlayout.gone u hu (by rw [hphase]; exact MigrationPhase.noConfusion)
    rwa [(hlayout.named u hu).legacyName, hlayout.sources u hu] at hdenotes
  have hopened : ∀ {v u}, OneOpen C w v → u ∈ recordsIn C w → u.phase = .done →
      v.migrationId = u.migrationId := by
    intro v u hv hu hphase
    have hopen := (hopenOf v).mp hv
    rw [hjournal.records] at hopen
    have hmem := mem_of_openOf hopen
    have hsource := hlayout.sources v hmem
    rcases (hlayout.stands v hopen).source with hproduct | hdetached
    · rw [hsource] at hproduct
      exact absurd (honce (hlegacy u hu hphase) hproduct) legacy_ne_product
    · rw [hsource, (hlayout.named v hmem).legacyName] at hdetached
      exact (legacy_inj (honce (hlegacy u hu hphase) hdetached)).symm
  intro r hr r' hr'
  rcases hsafe.openOrDone hr with ⟨v, hv, hid⟩ | ⟨u, hu, hid, hphase⟩ <;>
    rcases hsafe.openOrDone hr' with ⟨v', hv', hid'⟩ | ⟨u', hu', hid', hphase'⟩
  · have heq : v = v' := Option.some.inj (((hopenOf v).mp hv).symm.trans ((hopenOf v').mp hv'))
    rw [← hid, ← hid', heq]
  · rw [← hid, ← hid', hopened hv hu' hphase']
  · rw [← hid, ← hid', hopened hv' hu hphase]
  · rw [← hid, ← hid', legacy_inj (honce (hlegacy u hu hphase) (hlegacy u' hu' hphase'))]

/-- Under the name of the product, only the object that was found has its identity. -/
theorem Consistent.only {root : StorageObject} (h : Consistent C S w)
    (hroot : w.names PRODUCT_DIRECTORY = some root) (hsame : root.identity = S.object.identity) :
    root = S.object := by
  obtain ⟨name, _, hL⟩ := h.safe.home
  obtain ⟨_, _, _, hlayout, _⟩ := h
  obtain rfl := hlayout.once _ _ _ _ hL hroot rfl hsame
  exact Option.some.inj (hroot.symm.trans hL)

/-- **The object is migrated once.** While the calls of the inspections do not fail for a reason of
their own, no run records a second migration or detaches another object, however many operators
consent and wherever their recoveries stop; a root that has the name of the product keeps it. -/
theorem migrates_once (hstart : Fresh C L m₀.world) (hlegacy : ¬ L.IsRoot)
    (hidle : ∀ i, m₀.tasks i = .idle) (hrun : Machine.Runs C True m₀ m) :
    (∀ r ∈ recordsIn C m.world, r.sourceIdentity = L.identity) ∧
    (∀ r ∈ recordsIn C m.world, ∀ r' ∈ recordsIn C m.world, r.migrationId = r'.migrationId) ∧
    ∀ m' root, Machine.Runs C True m m' → m.world.names PRODUCT_DIRECTORY = some root →
      root.IsRoot → m'.world.names PRODUCT_DIRECTORY = some root := by
  have hinv₀ : m₀.Inv C (.only L) (fun _ => True) True :=
    hstart.inv (S := .only L) hidle (fun _ => rfl) (.inl trivial) trivial
  have hinv := (hinv₀.run hrun fun _ _ _ => trivial).1
  refine ⟨?_, hinv.knows.consistent.oneMigration, fun m' root hlater hroot hisRoot => ?_⟩
  · obtain ⟨records, _, hjournal, hlayout, _⟩ := hinv.knows.consistent
    rw [hjournal.records]
    exact hlayout.sources
  · rcases (hinv.run hlater fun _ _ _ => trivial).2.leaves root hroot with hsame | hkept
    · -- it would be `L`, which is no root
      obtain rfl : root = L := hinv.knows.consistent.only hroot hsame
      exact absurd hisRoot hlegacy
    · exact hkept

theorem migrates_once_sample : ∃ m u,
    Machine.Runs sampleStateCodec True staleMachine m ∧ OneOpen sampleStateCodec m.world u ∧
    u.sourceIdentity = ⟨7, 9⟩ ∧
    (∀ r ∈ recordsIn sampleStateCodec m.world, r.migrationId = u.migrationId) ∧
    ∀ m' root, Machine.Runs sampleStateCodec True m m' →
      m.world.names PRODUCT_DIRECTORY = some root → root.IsRoot →
        m'.world.names PRODUCT_DIRECTORY = some root := by
  obtain ⟨m, u, hrun, hopen, _, _, _⟩ := staleMachine_underway True
  obtain ⟨hsource, hone, hkept⟩ :=
    migrates_once staleMachine_fresh staleObject_not_isRoot (fun _ => rfl) hrun
  have hmem : u ∈ recordsIn sampleStateCodec m.world :=
    (List.mem_filter.mp (hopen.reached.symm.subset (self_mem_chainTo u))).1
  exact ⟨m, u, hrun, hopen, hsource u hmem, fun r hr => hone r hr u hmem, hkept⟩

/-- **A canonical root is never detached**, in every run in which the calls of the inspections do not
fail for a reason of their own and no migration begins while an inspection is under way: what is under
the name of the product and satisfies the contract keeps that name and its journal. -/
theorem canonical_root_kept {root : StorageObject}
    (hstart : (∃ L, Fresh C L m₀.world) ∨ Vacant C m₀.world) (hidle : ∀ i, m₀.tasks i = .idle)
    (hrun : Machine.Runs C True m₀ m) (hroot : m.world.names PRODUCT_DIRECTORY = some root)
    (hcanonical : root.IsRoot) (hlater : Machine.Runs C True m m') :
    m'.world.names PRODUCT_DIRECTORY = some root ∧ m.world.audits <+: m'.world.audits := by
  have haudits : m.world.audits <+: m'.world.audits := by
    refine hlater.keeps (K := fun w => m.world.audits <+: w.audits) (fun w w' hchanged h => ?_)
      (fun _ _ h => h) (List.prefix_refl _)
    cases hchanged with
    | audited entry => exact h.trans (List.prefix_append _ _)
    | same | named _ _ | renamed _ _ | locked _ | created _ | written _ _ | published _ _
    | deleted _ | drawn _ => exact h
  rcases hstart with ⟨L, hfresh⟩ | hvacant
  · have hinv₀ : m₀.Inv C ⟨L, fun k => ¬ L.IsRoot ∧ k = L.identity⟩ (fun _ => True) True :=
      hfresh.inv (S := ⟨L, fun k => ¬ L.IsRoot ∧ k = L.identity⟩) hidle (fun h => ⟨h, rfl⟩)
        (.inl trivial) trivial
    have hinv := (hinv₀.run hrun fun _ _ _ => trivial).1
    rcases (hinv.run hlater fun _ _ _ => trivial).2.leaves root hroot with ⟨hlegacy, hsame⟩ | hkept
    · obtain rfl : root = L := hinv.knows.consistent.only hroot hsame
      exact absurd hcanonical hlegacy
    · exact ⟨hkept, haudits⟩
  · rw [hvacant.kept hidle hrun hroot hlater]
    exact ⟨hroot, List.prefix_refl _⟩

/-- The root of a migration, once it has the name of the product. -/
theorem canonical_root_kept_sample : ∃ m u,
    Machine.Runs sampleStateCodec True staleMachine m ∧ OneOpen sampleStateCodec m.world u ∧
    m.world.names PRODUCT_DIRECTORY = some (newRoot u.nextIdentity) ∧
    ∀ m', Machine.Runs sampleStateCodec True m m' →
      m'.world.names PRODUCT_DIRECTORY = some (newRoot u.nextIdentity) := by
  obtain ⟨m, u, hrun, hopen, hphase, _, _⟩ := staleMachine_underway True
  have hinv₀ : staleMachine.Inv sampleStateCodec (.any staleObject) (fun _ => True) True :=
    staleMachine_fresh.invAny fun _ => rfl
  have hinv := (hinv₀.run hrun fun _ _ _ => trivial).1
  have hready := ((hinv.knows.consistent.safe.stands u hopen).ready
    (by rw [hphase]; exact MigrationPhase.noConfusion)
    (by rw [hphase]; exact MigrationPhase.noConfusion)).2
  exact ⟨m, u, hrun, hopen, hready, fun m' hlater =>
    (canonical_root_kept (.inl ⟨_, staleMachine_fresh⟩) (fun _ => rfl) hrun hready (newRoot_isRoot _) hlater).1⟩

/-- A production root. -/
def soundMachine : Machine := ⟨startWorld (newRoot ⟨7, 9⟩) (some ⟨7, 10⟩), fun _ => .idle⟩

/-- **A canonical root is detached** when an inspection fails to open it and the operator consents. -/
theorem canonical_root_detached :
    soundMachine.world.names PRODUCT_DIRECTORY = some (newRoot ⟨7, 9⟩) ∧
    (newRoot ⟨7, 9⟩).IsRoot ∧ ∃ m name, Machine.Runs sampleStateCodec False soundMachine m ∧
      m.world.names PRODUCT_DIRECTORY ≠ some (newRoot ⟨7, 9⟩) ∧
      m.world.names (LEGACY_PREFIX ++ name) = some (newRoot ⟨7, 9⟩) := by
  have hfresh : Fresh sampleStateCodec (newRoot ⟨7, 9⟩) soundMachine.world :=
    startWorld_fresh fun k hk => by cases hk; decide
  obtain ⟨recovery, hidentity, hs⟩ :=
    hfresh.failing startWorld_trusted startWorld_plain startWorld_bounded 0
  rw [← stepIn_false] at hs
  have hasks : soundMachine.Attempt sampleStateCodec False 0
      (soundMachine.put 0 (.asking recovery) soundMachine.world) := .inspect rfl hs
  obtain ⟨m, u, hattempts, hopen, hphase, hsource, _⟩ := hfresh.underway startWorld_trusted
    startWorld_plain startWorld_bounded
    startWorld_bootstrapped (fun _ => rfl) hidentity hasks
  have hinv₀ : soundMachine.Inv sampleStateCodec (.any (newRoot ⟨7, 9⟩)) (fun _ => True) False :=
    hfresh.invAny fun _ => rfl
  have hruns := (hattempts.runs (fun _ _ => Task.noConfusion) hinv₀).1
  have hinv := (hinv₀.run hruns fun _ _ _ => trivial).1
  have hmem : u ∈ recordsIn sampleStateCodec m.world :=
    (List.mem_filter.mp (hopen.reached.symm.subset (self_mem_chainTo u))).1
  have hlegacy := hinv.knows.consistent.safe.detached u hmem
    (by rw [hphase]; exact MigrationPhase.noConfusion) hsource
  have hkept := hinv.detached .refl hmem hlegacy
  obtain ⟨records, _, hjournal, hlayout, _⟩ := hinv.knows.consistent
  rw [hjournal.records] at hmem
  rw [(hlayout.named u hmem).legacyName] at hlegacy
  exact ⟨startWorld_product, newRoot_isRoot _, m, _, hruns, hkept.2, hlegacy⟩

/-! ## 4. Inspections -/

/-- `k` is a state of the run from `m₀` to `m`. -/
def Between (C : StateCodec) (calm : Prop) (m₀ m k : Machine) : Prop :=
  Machine.Runs C calm m₀ k ∧ Machine.Runs C calm k m

/-- **What is so when an inspection ends** in `m`, after a run from `m₀`: it starts on a root, or asks
for consent, only while every migration is complete, and then with what is under the name of the
product; it asks to resume only a migration that was not complete. -/
def Said (C : StateCodec) (m₀ m : Machine) : ProductionStorageState → Prop
  | .ready root => Complete C m.world ∧ root.path = PRODUCT_DIRECTORY ∧
    m.world.names PRODUCT_DIRECTORY = some root.object ∧ root.object.IsRoot
  | .needsConsent recovery => Complete C m.world ∧
    Denotes m.world.names PRODUCT_DIRECTORY recovery.detectedIdentity
  | .needsResume recovery => ∃ u, recovery.detectedIdentity = u.sourceIdentity ∧
    (∃ k, Between C False m₀ m k ∧ u ∈ recordsIn C k.world) ∧
    ∃ k v, Between C False m₀ m k ∧ OneOpen C k.world v ∧ v.migrationId = u.migrationId ∧
      v.phase = u.phase

/-- **An inspection does not disturb a recovery**, whatever comes between its calls: none of them
changes anything, and what it says at its end is so. -/
theorem inspection_undisturbed (hstart : Fresh C L m₀.world) (hidle : ∀ i, m₀.tasks i = .idle)
    (hrun : Machine.Runs C False m₀ m)
    {p : Prog LegacyStorageError ProductionStorageState} (htask : m.tasks i = .inspecting p) :
    (∀ (c : Call) next (r : Answer c) w, p = .call c next → step i c m.world r w → w = m.world) ∧
    ∀ state, p = .done (.ok state) → Said C m₀ m state := by
  have hinv₀ : m₀.Inv C (.any L) (fun w => ∃ k, Between C False m₀ m k ∧ k.world = w) False :=
    hstart.inv (S := .any L) hidle (fun _ => trivial) (.inr fun _ => trivial) ⟨m₀, ⟨.refl, hrun⟩, rfl⟩
  have hinv := (hinv₀.run hrun fun k hk hk' => ⟨k, ⟨hk, hk'⟩, rfl⟩).1
  constructor
  · rintro c next r w rfl hs
    rw [← stepIn_false] at hs
    exact (hinv.look htask hs).1
  · rintro state rfl
    have htold : Told C (.any L) (fun w => ∃ k, Between C False m₀ m k ∧ k.world = w) False state
        m.world := hinv.inspecting i _ htask
    have hcomplete : ∀ o, Settled C o m.world → Complete C m.world := by
      intro o hsettled
      rcases hinv.knows.consistent.safe.recognised with hdone | ⟨u, hu⟩
      · exact hdone
      · have hopen := hinv.knows.consistent.oneOpen.mp hu
        rw [hsettled.1] at hopen
        cases hopen
    cases state with
    | ready root =>
      obtain ⟨o, hsettled, rfl, hisRoot⟩ := htold
      exact ⟨hcomplete o hsettled, rfl, hsettled.2, hisRoot⟩
    | needsConsent recovery =>
      obtain ⟨o, hsettled, hidentity, _⟩ := htold
      exact ⟨hcomplete o hsettled, o, hsettled.2, hidentity.symm⟩
    | needsResume recovery =>
      obtain ⟨u, ⟨⟨⟨_, ⟨k, hk, rfl⟩, hmem⟩, _⟩, _, v, ⟨k', hk', rfl⟩, hopen, hid, hphase⟩, hsource⟩ :=
        htold
      refine ⟨u, hsource, ⟨k, hk, hmem⟩, k', v, hk', ?_, hid, hphase⟩
      have hinv' := ((hstart.invAny hidle).run hk'.1 fun _ _ _ => trivial).1
      exact hinv'.knows.consistent.oneOpen.mpr hopen

/-- A second instance inspects while the first one has a migration under way. -/
theorem inspection_undisturbed_sample : ∃ m u recovery,
    Machine.Runs sampleStateCodec False staleMachine m ∧ OneOpen sampleStateCodec m.world u ∧
    m.tasks 1 = .inspecting (.done (.ok (.needsResume recovery))) ∧
    Said sampleStateCodec staleMachine m (.needsResume recovery) := by
  obtain ⟨m, u, hrun, hopen, _, _, hidle⟩ := staleMachine_underway False
  obtain ⟨hinv, hkept⟩ := (staleMachine_fresh.invAny fun _ => rfl).run hrun fun _ _ _ => trivial
  obtain ⟨state, hasks, hinspect, _⟩ := hinv.knows.consistent.inspected
    (hkept.keeps.trusted startWorld_trusted) (startWorld_plain.runs hrun) (startWorld_bounded.runs hrun)
    (hidle 1 (by decide)) False
  unfold Asks at hasks
  rw [hinv.knows.consistent.oneOpen.mp hopen] at hasks
  obtain ⟨recovery, rfl, _⟩ := hasks
  have hlater := hrun.trans hinspect
  exact ⟨_, u, recovery, hlater, hopen, Machine.put_task,
    (inspection_undisturbed staleMachine_fresh (fun _ => rfl) hlater Machine.put_task).2 _ rfl⟩

end Safety

end WinProfile.Legacy
