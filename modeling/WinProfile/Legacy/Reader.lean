/-
  File:      WinProfile/Legacy/Reader.lean
  Subject:   The bootstrap journal: what its reader recognises, and that it recognises what its
             writer left, wherever it was interrupted.

  * `Readable` -- the directory can be enumerated: no entry is a reparse point, and the handle is not
    the one that created it.
  * `Sound` -- every entry that the reader looks into is a record under its own name.
  * `loadPending_eq` -- the reader answers exactly for a sound directory that can be enumerated,
    whatever the order of enumeration, and then with what the records say.
-/
import WinProfile.Legacy.Recovery

namespace WinProfile.Legacy

variable (C : StateCodec)

/-! ## 1. The reader alone -/

/-- A call that nothing disturbs, in a directory that is enumerated in this order. -/
def undisturbed (me : Nat) (order : List Wide) : (c : Call) → World → Answer c × World :=
  answer me { order }

/-- One round of the reader. -/
def readOne (w : World) (name : Wide) : Except LegacyStorageError (Option MigrationStateRecord) :=
  match decodeUtf16 name with
  | none => .ok none
  | some text =>
    if isStateName text then match w.lookFile name with
      | .error error => .error (.storage error)
      | .ok bytes => (checkState C text bytes).map some
    else .ok none

section Run

variable {C} {me : Nat} {order : List Wide} {w : World} {created : Bool}

theorem run_readState (name : Wide) :
    Proc.run (undisturbed me order) (readState C name) w = (readOne C w name, w) := by
  unfold readState readOne
  cases decodeUtf16 name with
  | none => rfl
  | some text =>
    simp only
    split
    · have hopen : Proc.run (undisturbed me order) (storage (request (.openFile name) rfl)) w
          = ((w.lookFile name).mapError .storage, w) := by
        unfold storage
        rw [Proc.run_mapErr]
        rfl
      rw [Proc.run_bind, hopen]
      cases hlook : w.lookFile name with
      | error error => rfl
      | ok bytes =>
        show Proc.run _ (Proc.ofExcept (checkState C text bytes) >>= fun record =>
          pure (some record)) w = ((checkState C text bytes).map some, w)
        cases checkState C text bytes <;> rfl
    · rfl

/-- **The reader** gives what the files say, in the order of enumeration. -/
theorem run_loadPending :
    Proc.run (undisturbed me order) (loadPendingFromBootstrap C created) w
      = (((w.enumerated created order).mapError .storage).bind fun names =>
          (names.mapM (readOne C w)).bind fun records => pendingOf (records.filterMap id), w) := by
  have henumerate : Proc.run (undisturbed me order) (storage (request (.entries created) rfl)) w
      = ((w.enumerated created order).mapError .storage, w) := by
    unfold storage
    rw [Proc.run_mapErr]
    rfl
  unfold loadPendingFromBootstrap
  rw [Proc.run_bind, henumerate]
  cases w.enumerated created order with
  | error error => rfl
  | ok names =>
    dsimp only [Except.mapError, Except.bind]
    rw [Proc.run_bind, Proc.run_mapEach fun name => run_readState name]
    cases names.mapM (readOne C w) <;> rfl

end Run

/-! ## 2. Sound directories -/

/-- The record that the reader takes from a file. -/
def recordAt (f : StateFile) : Option MigrationStateRecord :=
  match decodeUtf16 f.name, f.kind with
  | some text, .file bytes =>
    if isStateName text then (C.decode bytes).toOption else none
  | _, _ => none

/-- All records, in the order in which the files got their names. -/
def recordsIn (w : World) : List MigrationStateRecord := w.files.filterMap (recordAt C)

/-- No entry is a reparse point. -/
def Plain (w : World) : Prop := ∀ f ∈ w.files, f.kind ≠ .reparse

/-- The directory can be enumerated: no entry of it is a reparse point, and the handle did not create
it. -/
structure Readable (created : Bool) (w : World) : Prop where
  created_eq : created = false
  plain : Plain w

/-- An entry with the name of a state file is a file, and holds a record of schema 1 under its own
name. -/
def StateFile.IsSound (f : StateFile) : Prop :=
  ∀ text, decodeUtf16 f.name = some text → isStateName text = true → ∃ bytes state,
    f.kind = .file bytes ∧ C.decode bytes = .ok state ∧ state.schema = 1 ∧ stateFileName state = text

def Sound (w : World) : Prop := ∀ f ∈ w.files, f.IsSound C

section Sound

variable {C} {me : Nat} {order : List Wide} {w : World} {f : StateFile} {created : Bool}
  {u : MigrationStateRecord} {records records' : List MigrationStateRecord}

/-- **A readable directory** is enumerated, and no other. -/
theorem enumerated_ok (horder : order.Perm (w.files.map (·.name))) {names : List Wide} :
    w.enumerated created order = .ok names ↔ Readable created w ∧ names = order := by
  have hplain : (order.find? fun name => w.files.any fun f => f.name = name && f.kind = .reparse)
      = none ↔ Plain w := by
    simp only [List.find?_eq_none, List.any_eq_true, Bool.and_eq_true, decide_eq_true_eq, not_exists,
      not_and]
    constructor
    · intro h f hf hkind
      exact h f.name (horder.mem_iff.mpr (List.mem_map_of_mem hf)) f hf rfl hkind
    · exact fun h name _ f hf _ hkind => h f hf hkind
  unfold World.enumerated
  cases created with
  | true =>
    refine ⟨fun h => ?_, fun h => ?_⟩
    · cases h
    · cases h.1.created_eq
  | false =>
    rw [if_neg Bool.false_ne_true]
    cases hfind : order.find? fun name => w.files.any fun f => f.name = name && f.kind = .reparse with
    | none => simpa [eq_comm] using fun _ => ⟨rfl, hplain.mp hfind⟩
    | some name =>
      refine ⟨fun h => ?_, fun h => ?_⟩
      · cases h
      · rw [hplain.mpr h.1.plain] at hfind
        cases hfind

theorem find?_of_mem (hnames : (w.files.map (·.name)).Nodup) (hf : f ∈ w.files) :
    (w.files.find? fun g => g.name = f.name) = some f := by
  rw [List.find?_eq_some_iff_append]
  obtain ⟨before, after, heq⟩ := List.append_of_mem hf
  refine ⟨by simp, before, after, heq, fun g hg => ?_⟩
  rw [heq, List.map_append, List.map_cons, List.nodup_append] at hnames
  simpa using hnames.2.2 g.name (List.mem_map_of_mem hg) f.name (List.mem_cons_self ..)

theorem checkState_ok {text : String} {bytes : Bytes} {state : MigrationStateRecord} :
    checkState C text bytes = .ok state ↔
      C.decode bytes = .ok state ∧ state.schema = 1 ∧ stateFileName state = text := by
  unfold checkState
  cases C.decode bytes with
  | error error => simp
  | ok record =>
    simp only [Except.ok.injEq]
    split_ifs with h
    · simp only [false_iff, not_and]
      rintro rfl hschema hname
      exact h.elim (fun h => h hschema) fun h => h hname
    · push Not at h
      simp only [Except.ok.injEq]
      constructor
      · rintro rfl
        exact ⟨rfl, h⟩
      · exact fun h => h.1

theorem readOne_sound (hnames : (w.files.map (·.name)).Nodup) (hf : f ∈ w.files)
    (hsound : f.IsSound C) : readOne C w f.name = .ok (recordAt C f) := by
  unfold readOne recordAt
  cases htext : decodeUtf16 f.name with
  | none => rfl
  | some text =>
    simp only
    by_cases hstate : isStateName text = true
    · obtain ⟨bytes, state, hkind, hdecode, hschema, hname⟩ := hsound text htext hstate
      have hlook : w.lookFile f.name = .ok bytes := by
        rw [World.lookFile, find?_of_mem hnames hf]
        simp only [hkind]
      have hcheck := (checkState_ok (C := C)).mpr ⟨hdecode, hschema, hname⟩
      simp [hstate, hlook, hcheck, hkind, hdecode, Except.map, Except.toOption]
    · rw [if_neg hstate]
      cases f.kind with
      | file bytes => simp [hstate]
      | directory => rfl
      | reparse => rfl

theorem isSound_of_readOne (hnames : (w.files.map (·.name)).Nodup) (hf : f ∈ w.files)
    {r : Option MigrationStateRecord} (h : readOne C w f.name = .ok r) : f.IsSound C := by
  intro text htext hstate
  unfold readOne at h
  simp only [htext, if_pos hstate, World.lookFile, find?_of_mem hnames hf] at h
  cases hkind : f.kind with
  | directory => simp [hkind] at h
  | reparse => simp [hkind] at h
  | file bytes =>
    simp only [hkind] at h
    cases hcheck : checkState C text bytes with
    | error error => simp [hcheck, Except.map] at h
    | ok state => exact ⟨bytes, state, rfl, checkState_ok.mp hcheck⟩

/-- The record under a name. -/
theorem filterMap_order (hnames : (w.files.map (·.name)).Nodup)
    (horder : order.Perm (w.files.map (·.name))) :
    (order.filterMap fun name => (w.files.find? fun g => g.name = name).bind (recordAt C)).Perm
      (recordsIn C w) := by
  refine (horder.filterMap _).trans (.of_eq ?_)
  rw [List.filterMap_map, recordsIn]
  refine List.filterMap_congr fun f hf => ?_
  simp only [Function.comp, find?_of_mem hnames hf, Option.bind_some]

theorem mapM_sound (hnames : (w.files.map (·.name)).Nodup) (hsound : Sound C w) :
    ∀ {order : List Wide}, (∀ name ∈ order, ∃ f ∈ w.files, f.name = name) →
      order.mapM (readOne C w) = .ok (order.map fun name =>
        (w.files.find? fun g => g.name = name).bind (recordAt C))
  | [], _ => rfl
  | name :: order, h => by
    obtain ⟨f, hf, rfl⟩ := h name (List.mem_cons_self ..)
    have hrest := mapM_sound hnames hsound fun n hn => h n (List.mem_cons_of_mem _ hn)
    rw [List.mapM_cons, readOne_sound hnames hf (hsound f hf), hrest, List.map_cons,
      find?_of_mem hnames hf]
    rfl

theorem mem_order (horder : order.Perm (w.files.map (·.name))) (name : Wide) :
    name ∈ order ↔ ∃ f ∈ w.files, f.name = name := by
  rw [horder.mem_iff, List.mem_map]

/-- The reader answers only for a sound directory. -/
theorem sound_of_mapM (hnames : (w.files.map (·.name)).Nodup)
    (horder : order.Perm (w.files.map (·.name))) {results : List (Option MigrationStateRecord)}
    (h : order.mapM (readOne C w) = .ok results) : Sound C w := by
  intro f hf
  have hall := mapM_ok.mp h
  obtain ⟨i, hi, heq⟩ := List.mem_iff_getElem.mp ((mem_order horder f.name).mpr ⟨f, hf, rfl⟩)
  have hget := hall.get hi (hall.length_eq ▸ hi)
  exact isSound_of_readOne hnames hf (by simpa [heq] using hget)

theorem Sound.schema (h : Sound C w) : ∀ x ∈ recordsIn C w, x.schema = 1 := by
  intro x hx
  obtain ⟨f, hf, hrecord⟩ := List.mem_filterMap.mp hx
  unfold recordAt at hrecord
  split at hrecord
  next text bytes htext hkind =>
    split_ifs at hrecord with hstate
    obtain ⟨bytes', state, hkind', hdecode, hschema, _⟩ := h f hf text htext hstate
    rw [hkind, EntryKind.file.injEq] at hkind'
    subst hkind'
    rw [hdecode] at hrecord
    cases hrecord
    exact hschema
  next => cases hrecord

/-- The order of the records does not matter. -/
theorem pendingOf_perm (hperm : records.Perm records') (hschema : ∀ x ∈ records', x.schema = 1)
    {r : Option MigrationStateRecord} : pendingOf records = .ok r ↔ pendingOf records' = .ok r := by
  have hschema' : ∀ x ∈ records, x.schema = 1 := fun x hx => hschema x (hperm.mem_iff.mp hx)
  have hof : ∀ id, (recordsOf id records).Perm (recordsOf id records') := fun id =>
    hperm.filter _
  have hreached : ∀ u, Reached records u ↔ Reached records' u := fun u => (hof _).congr_left _
  have hall : ∀ P, AllDone records P ↔ AllDone records' P := fun P => by
    unfold AllDone
    refine forall_congr' fun id => imp_congr_right fun _ => ?_
    have hnil : recordsOf id records = [] ↔ recordsOf id records' = [] := by
      rw [← List.length_eq_zero_iff, (hof id).length_eq, List.length_eq_zero_iff]
    simp only [ne_eq, hnil, hreached]
  cases r with
  | none => rw [pendingOf_none hschema', pendingOf_none hschema, hall]
  | some u => rw [pendingOf_some hschema', pendingOf_some hschema, hall, hreached]

/-- **The reader** answers exactly for a sound directory that can be enumerated, and then with what
the records say. -/
theorem loadPending_eq (hnames : (w.files.map (·.name)).Nodup)
    (horder : order.Perm (w.files.map (·.name))) {r : Option MigrationStateRecord} :
    (Proc.run (undisturbed me order) (loadPendingFromBootstrap C created) w).1 = .ok r ↔
      Readable created w ∧ Sound C w ∧ pendingOf (recordsIn C w) = .ok r := by
  have hread : Sound C w → (((order.mapM (readOne C w)).bind fun results =>
      pendingOf (results.filterMap id)) = .ok r ↔ pendingOf (recordsIn C w) = .ok r) := by
    intro hsound
    rw [mapM_sound hnames hsound fun name hname => (mem_order horder name).mp hname]
    show pendingOf ((order.map _).filterMap id) = .ok r ↔ _
    rw [List.filterMap_map]
    exact pendingOf_perm (filterMap_order hnames horder) hsound.schema
  rw [run_loadPending]
  constructor
  · intro h
    cases henumerated : w.enumerated created order with
    | error error => simp [henumerated, Except.mapError, Except.bind] at h
    | ok names =>
      obtain ⟨hreadable, rfl⟩ := (enumerated_ok horder).mp henumerated
      simp only [henumerated, Except.mapError, Except.bind] at h
      have hsound : Sound C w := by
        cases hresults : names.mapM (readOne C w) with
        | error error => simp [hresults] at h
        | ok results => exact sound_of_mapM hnames horder hresults
      exact ⟨hreadable, hsound, (hread hsound).mp h⟩
  · rintro ⟨hreadable, hsound, hpending⟩
    rw [(enumerated_ok horder).mpr ⟨hreadable, rfl⟩]
    exact (hread hsound).mpr hpending

end Sound

end WinProfile.Legacy
