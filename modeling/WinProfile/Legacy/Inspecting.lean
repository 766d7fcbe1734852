/-
  File:      WinProfile/Legacy/Inspecting.lean
  Subject:   An inspection while other instances are at work: each of its calls is a step of its own,
             and ProgramData may change before every one of them.

  * `Around` -- what the steps of the others keep while an inspection is under way.
  * `pendingOf_reads` -- what the reader concludes from files that it has read one after the other,
    while records were published and removed again.
  * `Told`, `Knows.inspectUnder` -- what an inspection has found when it ends.
-/
import WinProfile.Legacy.Holding

namespace WinProfile.Legacy

/-! ## 1. The others -/

/-- Every migration is complete, and the name of the product denotes `o`. -/
def Settled (C : StateCodec) (o : StorageObject) (w : World) : Prop :=
  openOf (recordsIn C w) = none ∧ w.names PRODUCT_DIRECTORY = some o

/-- ProgramData is in order, and is one of the states that have been `seen`. -/
structure Knows (C : StateCodec) (S : Setting) (seen : World → Prop) (w : World) : Prop where
  consistent : Consistent C S w
  seen : seen w

/-- What the steps of the others keep while an inspection is under way. -/
structure Around (C : StateCodec) (S : Setting) (seen : World → Prop) (w w' : World) : Prop where
  knows : Knows C S seen w → Knows C S seen w'
  settled : ∀ o, Settled C o w → Settled C o w'

/-- What is known since ProgramData was `w₁`: what was settled then still is. -/
def View.since (C : StateCodec) (S : Setting) (seen : World → Prop) (w₁ : World) : View :=
  ⟨Around C S seen, fun w => Knows C S seen w ∧ ∀ o, Settled C o w₁ → Settled C o w,
    fun h hr => ⟨hr.knows h.1, fun o ho => hr.settled o (h.2 o ho)⟩⟩

/-- A record that was there at some time. -/
structure Recorded (C : StateCodec) (S : Setting) (seen : World → Prop)
    (u : MigrationStateRecord) : Prop where
  recorded : ∃ w, seen w ∧ u ∈ recordsIn C w
  detachable : S.detachable u.sourceIdentity

/-- **A record that may be resumed**: at some time its migration was not complete, and had come to its
phase. -/
structure Resumable (C : StateCodec) (S : Setting) (seen : World → Prop)
    (u : MigrationStateRecord) : Prop extends Recorded C S seen u where
  unfinished : ∃ w v, seen w ∧ openOf (recordsIn C w) = some v ∧ v.migrationId = u.migrationId ∧
    v.phase = u.phase

section Rely

variable {C : StateCodec} {S : Setting} {seen : World → Prop} {w w' w'' : World}

theorem Around.refl (w : World) : Around C S seen w w := ⟨fun h => h, fun _ h => h⟩

theorem Around.trans (h : Around C S seen w w') (h' : Around C S seen w' w'') :
    Around C S seen w w'' :=
  ⟨fun hw => h'.knows (h.knows hw), fun o ho => h'.settled o (h.settled o ho)⟩

theorem Knows.recorded (h : Knows C S seen w) {u : MigrationStateRecord} (hu : u ∈ recordsIn C w) :
    Recorded C S seen u := by
  refine ⟨⟨w, h.seen, hu⟩, ?_⟩
  obtain ⟨records, _, hjournal, hlayout, _⟩ := h.consistent
  rw [hjournal.records] at hu
  exact hlayout.sources u hu

theorem Knows.since (h : Knows C S seen w) : (View.since C S seen w).holds w := ⟨h, fun _ ho => ho⟩

/-- Where nothing is open, the name of the product denotes something. -/
theorem Consistent.settled (h : Consistent C S w) (hopen : openOf (recordsIn C w) = none) :
    ∃ o, Settled C o w := by
  have hproduct : ∃ o, w.names PRODUCT_DIRECTORY = some o := by
    obtain ⟨records, _, hjournal, hlayout, _⟩ := h
    rw [hjournal.records] at hopen
    exact hlayout.product hopen
  exact hproduct.imp fun o ho => ⟨hopen, ho⟩

end Rely

/-! ## 2. The reader -/

/-- What the reader has taken from an entry: nothing, where its name is not that of a state file, or
a record of this name. -/
def Reads (P : MigrationStateRecord → Prop) (name : Wide) : Option MigrationStateRecord → Prop
  | none => IsPlain name
  | some u => u.schema = 1 ∧ name = encodeWide (stateFileName u) ∧ P u

theorem exists_left_of_mem {α β : Type} {R : α → β → Prop} {as : List α} {bs : List β}
    (h : List.Forall₂ R as bs) {b : β} (hb : b ∈ bs) : ∃ a ∈ as, R a b := by
  induction h with
  | nil => cases hb
  | @cons a b' as bs hab _ ih =>
    rcases List.mem_cons.mp hb with rfl | hb
    · exact ⟨a, List.mem_cons_self .., hab⟩
    · obtain ⟨a', ha', hr⟩ := ih hb
      exact ⟨a', List.mem_cons_of_mem _ ha', hr⟩

theorem mem_reached_done (phase : MigrationPhase) : phase ∈ MigrationPhase.done.reached := by
  cases phase <;> decide

theorem reached_antisymm {a b : MigrationPhase} (h : a ∈ b.reached) (h' : b ∈ a.reached) : a = b := by
  revert h h'
  cases a <;> cases b <;> decide

section Reader

variable {C : StateCodec} {S : Setting} {seen : World → Prop} {calm : Prop} {me : Nat}
  {w w₁ : World} {records : List MigrationStateRecord} {u : MigrationStateRecord}
  {P : MigrationStateRecord → Prop} {order : List Wide} {results : List (Option MigrationStateRecord)}

theorem schema_of_reads (hreads : List.Forall₂ (Reads P) order results) :
    ∀ x ∈ results.filterMap id, x.schema = 1 := by
  intro x hx
  obtain ⟨r, hr, rfl⟩ := List.mem_filterMap.mp hx
  obtain ⟨name, _, hread⟩ := exists_left_of_mem hreads hr
  exact hread.1

/-- A record that was read has the name of a record that was there when the directory was
enumerated. -/
theorem enumerated_of_read (hj : Journal C w records) (horder : order.Perm (w.files.map (·.name)))
    (hreads : List.Forall₂ (Reads P) order results) (hu : u ∈ results.filterMap id) :
    P u ∧ ∃ v ∈ records, v.migrationId = u.migrationId ∧ v.phase = u.phase := by
  obtain ⟨r, hr, rfl⟩ := List.mem_filterMap.mp hu
  obtain ⟨name, hname, _, rfl, hP⟩ := exists_left_of_mem hreads hr
  refine ⟨hP, ?_⟩
  obtain ⟨f, hf, hfname⟩ := (mem_order horder _).mp hname
  have htext : decodeUtf16 f.name = some (stateFileName u) := by
    rw [hfname, decodeUtf16_encodeWide]
  obtain ⟨bytes, v, hkind, hdecode, _, hv⟩ :=
    hj.sound f hf _ htext (isStateName_stateFileName u)
  have hrecord : recordAt C f = some v := by
    unfold recordAt
    simp only [htext, hkind, isStateName_stateFileName, if_true, hdecode]
    rfl
  obtain ⟨hid, hphase⟩ := stateFileName_inj hv
  exact ⟨v, hj.records ▸ List.mem_filterMap.mpr ⟨f, hf, hrecord⟩, hid, hphase⟩

/-- Of a record that was there when the directory was enumerated, one with its name was read. -/
theorem read_of_enumerated (hj : Journal C w records) (horder : order.Perm (w.files.map (·.name)))
    (hreads : List.Forall₂ (Reads P) order results) (hu : u ∈ records) :
    ∃ x ∈ results.filterMap id, x.migrationId = u.migrationId ∧ x.phase = u.phase := by
  rw [← hj.records] at hu
  obtain ⟨f, hf, hrecord⟩ := List.mem_filterMap.mp hu
  have hname := name_of_recordAt (hj.sound f hf) hrecord
  have hmem : encodeWide (stateFileName u) ∈ order := (mem_order horder _).mpr ⟨f, hf, hname⟩
  obtain ⟨r, hr, hread⟩ := exists_left_of_mem hreads.flip hmem
  cases r with
  | none =>
    have hplain := hread _ (decodeUtf16_encodeWide _)
    rw [isStateName_stateFileName] at hplain
    cases hplain
  | some x =>
    obtain ⟨_, hname, _⟩ := hread
    have htext := congrArg decodeUtf16 hname
    rw [decodeUtf16_encodeWide, decodeUtf16_encodeWide] at htext
    obtain ⟨hid, hphase⟩ := stateFileName_inj (Option.some.inj htext)
    exact ⟨x, List.mem_filterMap.mpr ⟨some x, hr, rfl⟩, hid.symm, hphase.symm⟩

/-- **Nothing is pending** only where nothing was when the directory was enumerated: a migration that
was not complete has no name of a last record in it. -/
theorem openOf_of_reads (hpublished : Published records) (hj : Journal C w records)
    (horder : order.Perm (w.files.map (·.name))) (hreads : List.Forall₂ (Reads P) order results)
    (h : pendingOf (results.filterMap id) = .ok none) : openOf records = none := by
  by_contra hopen
  obtain ⟨u, hu⟩ := Option.ne_none_iff_exists'.mp hopen
  have hpending := (pendingOf_some (u := u) hpublished.schema).mp
    (by rw [pendingOf_published hpublished, hu])
  obtain ⟨hphase, hreached, _⟩ := hpending
  obtain ⟨x, hx, hid, _⟩ := read_of_enumerated hj horder hreads (mem_of_openOf hu)
  have hne : recordsOf u.migrationId (results.filterMap id) ≠ [] :=
    List.ne_nil_of_mem (List.mem_filter.mpr ⟨hx, decide_eq_true hid⟩)
  obtain ⟨v, hv, hdone, hreached'⟩ :=
    (pendingOf_none (schema_of_reads hreads)).mp h u.migrationId trivial hne
  have hmem : v ∈ results.filterMap id :=
    (List.mem_filter.mp (hreached'.symm.subset (self_mem_chainTo v))).1
  obtain ⟨_, y, hy, hyid, hyphase⟩ := enumerated_of_read hj horder hreads hmem
  -- it would be in the chain that was there
  have hchain : y ∈ chainTo u := hreached.subset
    (List.mem_filter.mpr ⟨hy, decide_eq_true (hyid.trans hv)⟩)
  have hlast := (mem_chainTo.mp hchain).1
  rw [hyphase, hdone] at hlast
  exact hphase (reached_antisymm (mem_reached_done _) hlast)

/-- **A record is pending** only where its migration was not complete when the directory was
enumerated, and had come to its phase. -/
theorem unfinished_of_reads (hpublished : Published records) (hj : Journal C w records)
    (horder : order.Perm (w.files.map (·.name))) (hreads : List.Forall₂ (Reads P) order results)
    (h : pendingOf (results.filterMap id) = .ok (some u)) :
    P u ∧ ∃ v, openOf records = some v ∧ v.migrationId = u.migrationId ∧ v.phase = u.phase := by
  obtain ⟨hphase, hreached, _⟩ := (pendingOf_some (schema_of_reads hreads)).mp h
  have hmem : u ∈ results.filterMap id :=
    (List.mem_filter.mp (hreached.symm.subset (self_mem_chainTo u))).1
  obtain ⟨hP, v, hv, hid, hvphase⟩ := enumerated_of_read hj horder hreads hmem
  refine ⟨hP, v, ?_, hid, hvphase⟩
  -- what was there of this migration was read, and is in the chain of `u`
  have hchain : ∀ x ∈ records, x.migrationId = u.migrationId → x.phase ∈ u.phase.reached := by
    intro x hx hxid
    obtain ⟨y, hy, hyid, hyphase⟩ := read_of_enumerated hj horder hreads hx
    rw [← hyphase]
    exact (mem_chainTo.mp (hreached.subset
      (List.mem_filter.mpr ⟨hy, decide_eq_true (hyid.trans hxid)⟩))).1
  have hne : recordsOf u.migrationId records ≠ [] :=
    List.ne_nil_of_mem (List.mem_filter.mpr ⟨hv, decide_eq_true hid⟩)
  have hopen : ∀ Q : String → Prop, Q u.migrationId → ¬ AllDone records Q := by
    intro Q hQ hall
    obtain ⟨x, hxid, hdone, hx⟩ := hall u.migrationId hQ hne
    have hxmem := (List.mem_filter.mp (hx.symm.subset (self_mem_chainTo x))).1
    exact hphase (reached_antisymm (mem_reached_done _) (hdone ▸ hchain x hxmem hxid))
  have hpending := pendingOf_published hpublished
  cases ht : openOf records with
  | none =>
    rw [ht] at hpending
    exact absurd ((pendingOf_none hpublished.schema).mp hpending) (hopen _ trivial)
  | some t =>
    rw [ht] at hpending
    obtain ⟨_, htreached, hothers⟩ := (pendingOf_some hpublished.schema).mp hpending
    have hsame : u.migrationId = t.migrationId := by_contra fun hother => hopen _ hother hothers
    have hvt := mem_chainTo.mp (htreached.subset
      (List.mem_filter.mpr ⟨hv, decide_eq_true (hid.trans hsame)⟩))
    have htphase := hchain t (mem_of_openOf ht) hsame.symm
    rw [← hvphase] at htphase
    have heq : v.phase = t.phase := reached_antisymm hvt.1 htphase
    have hvt := hvt.2
    rw [heq] at hvt
    rw [hvt]

/-- One round of the reader, at whatever time its calls are made. -/
theorem around_readState {name : Wide} :
    Looks (.since C S seen w₁) calm me (Reads (Recorded C S seen) name) (fun _ => True)
      (readState C name) := by
  unfold readState
  cases htext : decodeUtf16 name with
  | none =>
    refine looks_pure fun text htext' => ?_
    rw [htext] at htext'
    cases htext'
  | some text =>
    dsimp only
    by_cases hstate : isStateName text = true
    · rw [if_pos hstate]
      have hopen : Looks (.since C S seen w₁) calm me
          (fun bytes => ∃ u, C.decode bytes = .ok u ∧ u.schema = 1 ∧ stateFileName u = text ∧
            Recorded C S seen u)
          (fun _ => True) (request (.openFile name) rfl : Prog StorageError Bytes) := by
        refine looks_call rfl (fun fate => fate.error.error) (fun _ w => w.lookFile name)
          (fun _ _ => rfl) (fun _ _ => trivial) fun w' _ hw _ => ?_
        cases hlook : w'.lookFile name with
        | error e => trivial
        | ok bytes =>
          have hread : ∃ u, C.decode bytes = .ok u ∧ u.schema = 1 ∧ stateFileName u = text := by
            obtain ⟨_, _, hjournal, _⟩ := hw.1.consistent
            unfold World.lookFile at hlook
            split at hlook
            next => cases hlook
            next f hf =>
              split at hlook
              next content hkind =>
                cases hlook
                have hname : f.name = name := by simpa using List.find?_some hf
                obtain ⟨content, u, hkind', hu⟩ :=
                  hjournal.sound f (List.mem_of_find?_eq_some hf) text (hname ▸ htext) hstate
                rw [hkind, EntryKind.file.injEq] at hkind'
                exact ⟨u, hkind' ▸ hu⟩
              next => cases hlook
              next => cases hlook
          obtain ⟨u, hdecode, hschema, hname⟩ := hread
          refine ⟨u, hdecode, hschema, hname, hw.1.recorded ?_⟩
          rw [← encodeWide_of_decodeUtf16 htext, ← hname] at hlook
          exact mem_recordsIn_of_lookFile hlook hdecode
      refine (hopen.mapErr fun _ he => he).bind fun file ⟨u, hdecode, hschema, hname, hu⟩ => ?_
      have hbytes : Looks (.since C S seen w₁) calm me (· = file) (fun _ => True)
          (request (.readToEnd file) rfl : Prog String Bytes) :=
        looks_call rfl (fun fate => fate.text) (fun _ _ => .ok file) (fun _ _ => rfl)
          (fun _ _ => trivial) fun _ _ _ _ => rfl
      refine (hbytes.mapErr fun _ _ => trivial).bind fun bytes hb => ?_
      subst hb
      refine (looks_ofExcept (Q := (· = u)) (fun record hrecord => ?_) fun _ _ => trivial).bind
        fun record hrecord => ?_
      · rw [checkState_ok, hdecode] at hrecord
        exact (Except.ok.inj hrecord.1).symm
      · subst hrecord
        refine looks_pure ⟨hschema, ?_, hu⟩
        rw [hname, encodeWide_of_decodeUtf16 htext]
    · rw [if_neg hstate]
      refine looks_pure fun text' htext' => ?_
      rw [htext, Option.some.injEq] at htext'
      rw [← htext']
      simpa using hstate

/-- What an answer of the reader says. -/
def Answers (C : StateCodec) (S : Setting) (seen : World → Prop) :
    Option MigrationStateRecord → World → Prop
  | none, w => ∃ o, Settled C o w
  | some u, _ => Resumable C S seen u

/-- **The reader**, while others are at work: where it finds nothing nothing is open, and what it finds
was a migration that was not complete. -/
theorem Knows.loadPendingFromBootstrap {created : Bool} (h : Knows C S seen w) :
    Proc.always (Around C S seen) (stepIn calm me) (fun w w' => w' = w) (Answers C S seen)
      (fun _ _ => True) (loadPendingFromBootstrap C created) w := by
  unfold Legacy.loadPendingFromBootstrap
  refine (Proc.always_bind _ _).mpr ((Proc.always_mapErr _ _).mpr (always_lookIn rfl
    (fun fate => fate.error.error) (fun fate w => w.enumerated created fate.order) (fun _ _ => rfl)
    fun w₁ hr fate hadmissible => ⟨rfl, fun _ => trivial, ?_⟩))
  have h₁ := hr.knows h
  obtain ⟨records, hpublished, hjournal, hlayout, _⟩ := h₁.consistent
  cases henumerated : w₁.enumerated created fate.order with
  | error e => trivial
  | ok names =>
    have horder : names.Perm (w₁.files.map (·.name)) := by
      rw [((enumerated_ok hadmissible).mp henumerated).2]
      exact hadmissible
    have hloop : Looks (.since C S seen w₁) calm me
        (fun results => List.Forall₂ (Reads (Recorded C S seen)) names results)
        (fun _ : LegacyStorageError => True) (Proc.mapEach (readState C) names) := by
      intro w' hw
      refine Proc.always_mapEach (fun past got w' => (View.since C S seen w₁).holds w' ∧
        List.Forall₂ (Reads (Recorded C S seen)) past got) names [] [] w'
        (fun past got name w₂ _ h₂ => ?_) ⟨hw, .nil⟩ fun got w₂ h₂ => ?_
      · exact Proc.always_mono (around_readState w₂ h₂.1)
          (fun r w₃ h₃ => ⟨h₃.1, List.rel_append h₂.2 (.cons h₃.2 .nil)⟩) fun _ _ he => he
      · exact ⟨h₂.1, by simpa using h₂.2⟩
    refine (Proc.always_bind _ _).mpr (Proc.always_mono (hloop w₁ h₁.since) ?_ fun _ _ _ => trivial)
    rintro results w₂ ⟨⟨h₂, hsettled⟩, hreads⟩
    refine (Proc.always_ofExcept _).mpr ?_
    cases hpending : pendingOf (results.filterMap id) with
    | error e => trivial
    | ok pending =>
      cases pending with
      | none =>
        have hopen := openOf_of_reads hpublished hjournal horder hreads hpending
        rw [← hjournal.records] at hopen
        exact (h₁.consistent.settled hopen).imp fun o ho => hsettled o ho
      | some u =>
        obtain ⟨hrecorded, v, hv, hid, hphase⟩ :=
          unfinished_of_reads hpublished hjournal horder hreads hpending
        rw [← hjournal.records] at hv
        exact ⟨hrecorded, w₁, v, h₁.seen, hv, hid, hphase⟩

/-- **The pending state**, while others are at work. -/
theorem Knows.loadPendingState (h : Knows C S seen w) :
    Proc.always (Around C S seen) (stepIn calm me) (fun w w' => w' = w) (Answers C S seen)
      (fun _ _ => True) (loadPendingState C) w := by
  have hopen : Proc.always (Around C S seen) (stepIn calm me) (fun w w' => w' = w)
      (fun _ w' => Knows C S seen w') (fun e w' => e.isNotFound = true → ∃ o, Settled C o w')
      (openExistingChild BOOTSTRAP_DIRECTORY) w := by
    refine (Proc.always_bind _ _).mpr (always_lookIn rfl (fun fate => fate.error.error)
      (fun _ w => w.directoryAt BOOTSTRAP_DIRECTORY) (fun _ _ => rfl) fun w₁ hr fate _ => ?_)
    have h₁ := hr.knows h
    have hreal : ∀ {e : StorageError}, Real e → e.isNotFound = true → ∃ o, Settled C o w₁ := by
      intro e he hnot
      rw [show e.isNotFound = false from he] at hnot
      cases hnot
    refine ⟨rfl, fun _ => hreal fate.error.real.1, ?_⟩
    unfold World.directoryAt
    cases hname : w₁.names BOOTSTRAP_DIRECTORY with
    | none =>
      -- nothing is recorded
      intro _
      obtain ⟨records, _, hjournal, hlayout, _⟩ := h₁.consistent
      refine h₁.consistent.settled ?_
      rw [hjournal.records, hlayout.bootstrap hname]
      rfl
    | some o =>
      dsimp only
      split
      · have hvalid : Looks (.since C S seen w₁) calm me (fun _ => True) Real
            (validateKind ⟨BOOTSTRAP_DIRECTORY, o⟩ >>= fun _ =>
              pure (⟨BOOTSTRAP_DIRECTORY, o⟩ : StorageHandle)) :=
          (looks_validateKind.mono (fun _ hk => hk) fun e he => he.real).bind fun _ _ =>
            looks_pure trivial
        refine Proc.always_mono (hvalid w₁ h₁.since) (fun _ _ ha => ha.1.1) fun e w₂ he hnot => ?_
        rw [show e.isNotFound = false from he.2] at hnot
        cases hnot
      · exact hreal rfl
  unfold Legacy.loadPendingState
  refine (Proc.always_bind _ _).mpr ((Proc.always_attempt _).mpr (Proc.always_mono hopen
    (fun bootstrap w₁ h₁ => ?_) fun e w₁ h₁ => ?_))
  · have hvalid : Looks (.since C S seen w₁) calm me (fun _ => True)
        (fun _ : LegacyStorageError => True) (storage (validateProductionRoot bootstrap)) :=
      (looks_validateProductionRoot.mono (fun _ _ => trivial) fun _ _ => trivial).mapErr fun _ he => he
    refine (Proc.always_bind _ _).mpr (Proc.always_mono (hvalid w₁ h₁.since) (fun _ w₂ h₂ => ?_)
      fun _ _ _ => trivial)
    exact h₂.1.1.loadPendingFromBootstrap
  · dsimp only
    split
    · next hnot => exact h₁ hnot
    · trivial

end Reader

/-! ## 3. Inspections -/

/-- **What an inspection has found** when it ends. -/
def Told (C : StateCodec) (S : Setting) (seen : World → Prop) (calm : Prop) :
    ProductionStorageState → World → Prop
  | .needsResume recovery, _ =>
    ∃ u, Resumable C S seen u ∧ recovery.detectedIdentity = u.sourceIdentity
  | state, w => ∃ o, Settled C o w ∧ Found calm o state

section Inspection

variable {C : StateCodec} {S : Setting} {seen : World → Prop} {calm : Prop} {me : Nat}
  {w w' : World} {state : ProductionStorageState}

/-- What was found stays so while the inspection is under way. -/
theorem Told.around (h : Told C S seen calm state w) (hr : Around C S seen w w') :
    Told C S seen calm state w' := by
  cases state with
  | needsResume recovery => exact h
  | ready root => exact h.imp fun o ho => ⟨hr.settled o ho.1, ho.2⟩
  | needsConsent recovery => exact h.imp fun o ho => ⟨hr.settled o ho.1, ho.2⟩

/-- What an inspection knows that found no migration. -/
def View.settled (C : StateCodec) (o : StorageObject) : View :=
  ⟨fun w w' => Settled C o w → Settled C o w', Settled C o, fun h hr => hr h⟩

/-- **The inspection**, while others are at work: no call of it changes anything. -/
theorem Knows.inspectUnder (h : Knows C S seen w) :
    Proc.always (Around C S seen) (stepIn calm me) (fun w w' => w' = w) (Told C S seen calm)
      (fun _ _ => True) (inspectUnder C) w := by
  rw [inspectUnder_eq]
  refine (Proc.always_bind _ _).mpr (Proc.always_mono h.loadPendingState (fun pending w₁ h₁ => ?_)
    fun _ _ _ => trivial)
  cases pending with
  | some u => exact ⟨u, h₁, rfl⟩
  | none =>
    obtain ⟨o, hsettled⟩ := h₁
    have hlooks : Looks (.settled C o) calm me (Found calm o) (fun _ => ¬ calm) inspectProduct :=
      looks_inspectProduct fun _ hw => hw.2
    refine Proc.always_anti (Proc.always_mono (hlooks w₁ hsettled) (fun state w₂ h₂ => ?_)
      fun _ _ _ => trivial) (fun _ _ hr => hr.settled o) fun _ _ _ _ hs => hs
    obtain ⟨hsettled₂, hfound⟩ := h₂
    cases state with
    | needsResume recovery => exact hfound.elim
    | ready root => exact ⟨o, hsettled₂, hfound⟩
    | needsConsent recovery => exact ⟨o, hsettled₂, hfound⟩

end Inspection

end WinProfile.Legacy
