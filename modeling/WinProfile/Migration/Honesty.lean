/-
  File:      WinProfile/Migration/Honesty.lean
  Subject:   The progress that a migration reports: its order, and what its numbers mean.

  * `reports`, `written`, `verified` -- the three kinds of events of a run.
  * `Files`, `Complete` -- the order of the reports of a run that comes to its end; `Begun` and
    `Underway` -- of one that has stopped somewhere.
  * `Still` -- a call that neither reports nor copies; most calls are such.
  * `Account` -- the transaction counts what has happened; `Between` and `Within` say in addition
    where the run stands in the order.
  * `copyFileVerified_account`, `copyTreeVerified_account` -- a file and a tree keep the account, and
    report on their files in turn.
  * `progress_is_honest` -- every run, whatever the outside does.
-/
import WinProfile.Migration.Selection

namespace WinProfile.Migration

open Progress (MigrationProgress)

variable {H : CopyHost} {fate : Fate} {α ε : Type} {s s' s'' : RunState}

/-! ## 1. Events -/

/-- What has been reported. -/
def reports (events : List CopyEvent) : List MigrationProgress :=
  events.filterMap fun
    | .reported progress => some progress
    | _ => none

/-- The lengths of the chunks that have been written. -/
def written (events : List CopyEvent) : List Nat :=
  events.filterMap fun
    | .written bytes => some bytes
    | _ => none

/-- The files that have been verified. -/
def verified (events : List CopyEvent) : List String :=
  events.filterMap fun
    | .verified relativePath => some relativePath
    | _ => none

/-- A sum of `u64` values that stops at the greatest. -/
def saturatingSum (sizes : List Nat) : Nat := sizes.foldl saturatingAdd 0

section Events

variable (events events' : List CopyEvent)

@[simp] theorem reports_append : reports (events ++ events') = reports events ++ reports events' :=
  List.filterMap_append

@[simp] theorem written_append : written (events ++ events') = written events ++ written events' :=
  List.filterMap_append

@[simp] theorem verified_append :
    verified (events ++ events') = verified events ++ verified events' := List.filterMap_append

@[simp] theorem reports_reported (p : MigrationProgress) : reports [.reported p] = [p] := rfl
@[simp] theorem reports_written (n : Nat) : reports [.written n] = [] := rfl
@[simp] theorem reports_verified (path : String) : reports [.verified path] = [] := rfl
@[simp] theorem written_reported (p : MigrationProgress) : written [.reported p] = [] := rfl
@[simp] theorem written_written (n : Nat) : written [.written n] = [n] := rfl
@[simp] theorem written_verified (path : String) : written [.verified path] = [] := rfl
@[simp] theorem verified_reported (p : MigrationProgress) : verified [.reported p] = [] := rfl
@[simp] theorem verified_written (n : Nat) : verified [.written n] = [] := rfl
@[simp] theorem verified_verified (path : String) : verified [.verified path] = [path] := rfl

end Events

theorem saturatingAdd_zero {a : Nat} (h : a ≤ u64Max) : saturatingAdd a 0 = a := min_eq_left h

theorem saturatingAdd_assoc (a b c : Nat) :
    saturatingAdd (saturatingAdd a b) c = saturatingAdd a (saturatingAdd b c) := by
  unfold saturatingAdd
  omega

theorem saturatingSum_concat (sizes : List Nat) (n : Nat) :
    saturatingSum (sizes ++ [n]) = saturatingAdd (saturatingSum sizes) n := by
  rw [saturatingSum, List.foldl_append]
  rfl

/-- **A saturating sum** is the sum, or the greatest `u64` where the sum is greater. -/
theorem saturatingSum_eq (sizes : List Nat) : saturatingSum sizes = min sizes.sum u64Max := by
  induction sizes using List.reverseRecOn with
  | nil => rfl
  | append_singleton sizes n ih =>
    rw [saturatingSum_concat, ih, List.sum_append, List.sum_singleton]
    unfold saturatingAdd
    omega

theorem saturatingSum_le (sizes : List Nat) : saturatingSum sizes ≤ u64Max := by
  rw [saturatingSum_eq]
  exact min_le_right _ _

theorem saturatingSum_mono (sizes more : List Nat) :
    saturatingSum sizes ≤ saturatingSum (sizes ++ more) := by
  rw [saturatingSum_eq, saturatingSum_eq, List.sum_append]
  omega

theorem manifestBytes_concat (manifest : List (String × Nat × String))
    (entry : String × Nat × String) :
    manifestBytes (manifest ++ [entry]) = saturatingAdd (manifestBytes manifest) entry.2.1 := by
  rw [manifestBytes, List.foldl_append]
  rfl

/-! ## 2. The order of the reports -/

/-- The copying of one file. -/
def Copies (path : String) (ps : List MigrationProgress) : Prop :=
  ∀ p ∈ ps, p.phase = .copying ∧ p.relativePath = some path

/-- The reports on some files in turn: any number of chunks, then the verification. -/
inductive Files : List String → List MigrationProgress → Prop
  | nil : Files [] []
  | file {paths : List String} {ps copies : List MigrationProgress} {path : String}
      {p : MigrationProgress} (before : Files paths ps) (chunks : Copies path copies)
      (phase : p.phase = .verifying) (relativePath : p.relativePath = some path) :
      Files (paths ++ [path]) (ps ++ (copies ++ [p]))

/-- The reports of a run over these files that comes to its end. -/
inductive Complete : List String → List MigrationProgress → Prop
  | run {paths : List String} {e f : MigrationProgress} {ps : List MigrationProgress}
      (first : e.phase = .enumerating) (files : Files paths ps) (last : f.phase = .finalizing) :
      Complete paths (e :: (ps ++ [f]))

/-- A run over these files that stopped somewhere. -/
def Begun (paths : List String) (ps : List MigrationProgress) : Prop :=
  ∃ full, Complete paths full ∧ ps <+: full

/-- A run over these files that stopped before its last report. -/
def Underway (paths : List String) (ps : List MigrationProgress) : Prop :=
  ∃ e full, e.phase = .enumerating ∧ Files paths full ∧ ps <+: e :: full

theorem Files.exists : ∀ paths : List String, ∃ ps, Files paths ps := by
  intro paths
  induction paths using List.reverseRecOn with
  | nil => exact ⟨[], .nil⟩
  | append_singleton paths path ih =>
    obtain ⟨ps, hps⟩ := ih
    have hfile : Files (paths ++ [path]) (ps ++ ([] ++ [⟨.verifying, some path, 0, 0⟩])) :=
      .file hps nofun rfl rfl
    exact ⟨_, hfile⟩

theorem Files.append {paths : List String} {ps : List MigrationProgress} (h : Files paths ps)
    (more : List String) : ∃ rest, Files (paths ++ more) (ps ++ rest) := by
  induction more using List.reverseRecOn with
  | nil => exact ⟨[], by rwa [List.append_nil, List.append_nil]⟩
  | append_singleton more path ih =>
    obtain ⟨rest, hrest⟩ := ih
    have hlast : Files (paths ++ more ++ [path])
        (ps ++ rest ++ ([] ++ [⟨.verifying, some path, 0, 0⟩])) := .file hrest nofun rfl rfl
    rw [List.append_assoc, List.append_assoc] at hlast
    exact ⟨_, hlast⟩

theorem Underway.nil (paths : List String) : Underway paths [] := by
  obtain ⟨ps, hps⟩ := Files.exists paths
  exact ⟨⟨.enumerating, none, 0, 0⟩, ps, rfl, hps, List.nil_prefix⟩

theorem Underway.files {paths : List String} {e : MigrationProgress} {ps : List MigrationProgress}
    (he : e.phase = .enumerating) (h : Files paths ps) : Underway paths (e :: ps) :=
  ⟨e, ps, he, h, List.prefix_refl _⟩

theorem Underway.copies {paths : List String} {e : MigrationProgress}
    {ps copies : List MigrationProgress} {path : String} (he : e.phase = .enumerating)
    (h : Files paths ps) (hc : Copies path copies) :
    Underway (paths ++ [path]) (e :: (ps ++ copies)) := by
  have hfile : Files (paths ++ [path]) (ps ++ (copies ++ [⟨.verifying, some path, 0, 0⟩])) :=
    .file h hc rfl rfl
  refine ⟨e, _, he, hfile, [⟨.verifying, some path, 0, 0⟩], ?_⟩
  simp only [List.cons_append, List.append_assoc]

/-- There are more files to come. -/
theorem Underway.more {paths : List String} {ps : List MigrationProgress} (h : Underway paths ps)
    (more : List String) : Underway (paths ++ more) ps := by
  obtain ⟨e, full, he, hfiles, hprefix⟩ := h
  obtain ⟨rest, hrest⟩ := hfiles.append more
  exact ⟨e, _, he, hrest, hprefix.trans ⟨rest, rfl⟩⟩

theorem Underway.begun {paths : List String} {ps : List MigrationProgress} (h : Underway paths ps) :
    Begun paths ps := by
  obtain ⟨e, full, he, hfiles, hprefix⟩ := h
  exact ⟨_, .run (f := ⟨.finalizing, none, 0, 0⟩) he hfiles rfl, hprefix.trans ⟨_, rfl⟩⟩

/-- No report of a file is the last of the run. -/
theorem Files.phase {paths : List String} {ps : List MigrationProgress} (h : Files paths ps) :
    ∀ p ∈ ps, p.phase ≠ .finalizing := by
  induction h with
  | nil => exact nofun
  | file before chunks phase relativePath ih =>
    intro p hp
    rcases List.mem_append.mp hp with hp | hp
    · exact ih p hp
    rcases List.mem_append.mp hp with hp | hp
    · rw [(chunks p hp).1]
      nofun
    · rw [List.mem_singleton.mp hp, phase]
      nofun

theorem Underway.phase {paths : List String} {ps : List MigrationProgress} (h : Underway paths ps) :
    ∀ p ∈ ps, p.phase ≠ .finalizing := by
  obtain ⟨e, full, he, hfiles, hfull⟩ := h
  intro p hp
  rcases List.mem_cons.mp (hfull.subset hp) with rfl | hp
  · rw [he]
    nofun
  · exact hfiles.phase p hp

theorem Copies.concat {path : String} {ps : List MigrationProgress} {p : MigrationProgress}
    (h : Copies path ps) (hp : p.phase = .copying) (hpath : p.relativePath = some path) :
    Copies path (ps ++ [p]) := by
  intro q hq
  rcases List.mem_append.mp hq with hq | hq
  · exact h q hq
  · rw [List.mem_singleton.mp hq]
    exact ⟨hp, hpath⟩

/-! ## 3. Calls that do not report -/

/-- Nothing is copied and nothing is reported; the journal may grow. -/
structure Still (s s' : RunState) : Prop where
  events : s'.events = s.events
  progress : s'.progress = s.progress
  manifest : s'.transaction.manifest = s.transaction.manifest
  observed : s'.transaction.observedCopiedBytes = s.transaction.observedCopiedBytes
  audits : s.audits <+: s'.audits

theorem Still.refl (s : RunState) : Still s s := ⟨rfl, rfl, rfl, rfl, List.prefix_refl _⟩

theorem Still.trans (s s' s'' : RunState) (h : Still s s') (h' : Still s' s'') : Still s s'' :=
  ⟨h'.events.trans h.events, h'.progress.trans h.progress, h'.manifest.trans h.manifest,
    h'.observed.trans h.observed, h.audits.trans h'.audits⟩

theorem Still.of_eq (hevents : s'.events = s.events) (hprogress : s'.progress = s.progress)
    (htransaction : s'.transaction = s.transaction) (haudits : s'.audits = s.audits) :
    Still s s' :=
  ⟨hevents, hprogress, by rw [htransaction], by rw [htransaction], by rw [haudits]⟩

theorem Still.tick (s : RunState) : Still s s.tick := .of_eq rfl rfl rfl rfl

section Still

theorem still_bind {β : Type} {m : Act RunState ε α} {f : α → Act RunState ε β}
    (hm : Act.Keeps Still m) (hf : ∀ a, Act.Keeps Still (f a)) : Act.Keeps Still (m >>= f) :=
  hm.bind Still.trans hf

theorem still_ofExcept (r : Except ε α) :
    Act.Keeps Still (Act.ofExcept r : Act RunState ε α) := Act.keeps_ofExcept .refl r

theorem still_fail (e : ε) : Act.Keeps Still (Act.fail e : Act RunState ε α) :=
  Act.keeps_fail .refl e

theorem still_pure (a : α) : Act.Keeps Still (pure a : Act RunState ε α) := Act.keeps_pure .refl a

theorem still_call {error : CallFault → ε} {body : Act RunState ε α}
    (h : Act.Keeps Still body) : Act.Keeps Still (call fate error body) := by
  intro s
  unfold call Act.of
  dsimp only
  split
  · exact .tick s
  · exact .trans _ _ _ (.tick s) (h s.tick)

theorem still_inspect : Act.Keeps Still (inspect fate) := still_call (Act.keeps_ret .refl ())

theorem still_fileCall : Act.Keeps Still (fileCall fate) := still_call (Act.keeps_ret .refl ())

theorem still_checkCancelled : Act.Keeps Still (checkCancelled fate) := by
  intro s
  unfold checkCancelled Act.of
  dsimp only
  split <;> exact .of_eq rfl rfl rfl rfl

theorem still_log (operation target : String) (status : AuditStatus) (details : String) :
    Act.Keeps Still (log fate operation target status details) :=
  still_call fun _ => ⟨rfl, rfl, rfl, rfl, List.prefix_append _ _⟩

theorem still_pushCreated (entry : SecureCreatedEntry) : Act.Keeps Still (pushCreated entry) :=
  fun _ => ⟨rfl, rfl, rfl, rfl, List.prefix_refl _⟩

theorem still_pushIfCreated : ∀ entry, Act.Keeps Still (pushIfCreated entry)
  | some entry => still_pushCreated entry
  | none => Act.keeps_ret .refl ()

theorem still_sourceOpenDirectory (dir : SourceDirectory) (name : Wide) :
    Act.Keeps Still (dir.openDirectory H fate name) :=
  still_bind (still_ofExcept _) fun _ => still_bind (still_ofExcept _) fun _ =>
    still_call (still_ofExcept _)

theorem still_openFile (dir : SourceDirectory) (name : Wide) :
    Act.Keeps Still (dir.openFile H fate name) :=
  still_bind (still_ofExcept _) fun _ => still_bind (still_ofExcept _) fun _ =>
    still_call (still_ofExcept _)

theorem still_entries (dir : SourceDirectory) : Act.Keeps Still (dir.entries H fate) :=
  still_call (still_ofExcept _)

theorem still_deleteOpenHandle (entry : SecureCreatedEntry) :
    Act.Keeps Still (deleteOpenHandle fate entry) := by
  refine still_call fun s => ?_
  unfold Act.of
  dsimp only
  split
  · exact .of_eq rfl rfl rfl rfl
  · exact .refl s

theorem still_ntCreate (dir : DestDirectory) (name path : Wide) (content : Option Bytes) :
    Act.Keeps Still (ntCreate H fate dir name path content) := by
  refine still_bind (still_ofExcept _) fun _ => still_call fun s => ?_
  unfold Act.of
  dsimp only
  split
  · exact .refl s
  · exact .of_eq rfl rfl rfl rfl

theorem still_pendingFail (entry : SecureCreatedEntry) (error : SecureFsError) :
    Act.Keeps Still (pendingFail fate entry error : Act RunState SecureFsError α) := by
  refine still_bind (still_deleteOpenHandle entry).attempt fun r => ?_
  cases r <;> exact still_fail _

theorem still_createDirectory (dir : DestDirectory) (name : Wide) :
    Act.Keeps Still (dir.createDirectory H fate name) := by
  refine still_bind (still_ofExcept _) fun _ => still_bind (still_ntCreate _ _ _ _) fun _ => ?_
  refine still_bind (Act.Keeps.rescue Still.trans ?_ fun _ => still_pendingFail _ _) fun _ =>
    still_pure _
  exact still_bind still_inspect fun _ => still_bind still_inspect fun _ =>
    still_bind still_inspect fun _ => still_inspect

theorem still_openDirectory (dir : DestDirectory) (name : Wide) :
    Act.Keeps Still (dir.openDirectory H fate name) := by
  refine still_bind (still_ofExcept _) fun _ => still_bind (still_ofExcept _) fun _ =>
    still_call fun s => ?_
  unfold Act.of
  dsimp only
  split <;> exact .refl s

theorem still_openOrCreateDirectory (dir : DestDirectory) (name : Wide) :
    Act.Keeps Still (dir.openOrCreateDirectory H fate name) := by
  refine Act.Keeps.rescue Still.trans
    (still_bind (still_openDirectory dir name) fun _ => still_pure _) fun e => ?_
  split
  · exact still_bind (still_createDirectory dir name) fun _ => still_pure _
  · exact still_fail _

theorem still_createFile (dir : DestDirectory) (name : Wide) :
    Act.Keeps Still (dir.createFile H fate name) := by
  refine still_bind (still_ofExcept _) fun _ => still_bind ?_ fun _ => still_bind ?_ fun _ =>
    still_pure _
  · refine Act.Keeps.rescue Still.trans (still_ntCreate _ _ _ _) fun e => ?_
    split
    · exact still_bind still_inspect fun _ => still_bind still_inspect fun _ => still_fail _
    · exact still_fail _
  · exact Act.Keeps.rescue Still.trans (still_bind still_inspect fun _ => still_inspect) fun _ =>
      still_pendingFail _ _

theorem still_hashLoop : ∀ (pieces : List Bytes) (hashed : Bytes),
    Act.Keeps Still (hashLoop fate pieces hashed)
  | [], _ => still_bind still_checkCancelled fun _ => still_bind still_fileCall fun _ =>
      still_pure _
  | _ :: rest, _ => still_bind still_checkCancelled fun _ => still_bind still_fileCall fun _ =>
      still_hashLoop rest _

theorem still_sha256File (serial : Nat) : Act.Keeps Still (sha256File fate H serial) := by
  refine still_bind (Act.keeps_read .refl) fun s => still_bind (fun s => ?_) fun _ =>
    still_bind (still_hashLoop _ _) fun _ => still_pure _
  exact .refl s

theorem still_openComponents (relative : Wide) :
    ∀ (components : List WinPath.Component) (current : SourceDirectory),
      Act.Keeps Still (openComponents fate H relative current components) := by
  intro components
  induction components with
  | nil => exact fun _ => still_pure _
  | cons component rest ih =>
    intro current
    cases component with
    | normal name =>
      refine still_bind (still_sourceOpenDirectory current name).attempt fun r => ?_
      split
      · exact ih _
      · exact still_pure _
      · exact still_fail _
    | _ => exact still_fail _

theorem still_openRelativeDirectoryIfPresent (root : SourceDirectory) (relative : Wide) :
    Act.Keeps Still (openRelativeDirectoryIfPresent fate H root relative) := by
  unfold openRelativeDirectoryIfPresent
  split
  · exact still_pure _
  · exact still_openComponents relative _ root

theorem still_ensureComponents (relative : Wide) :
    ∀ (components : List WinPath.Component) (current : DestDirectory),
      Act.Keeps Still (ensureComponents fate H relative current components) := by
  intro components
  induction components with
  | nil => exact fun _ => still_pure _
  | cons component rest ih =>
    intro current
    cases component with
    | normal name =>
      exact still_bind ((still_openOrCreateDirectory current name).mapErr _) fun made =>
        still_bind (still_pushIfCreated made.2) fun _ => ih _
    | _ => exact still_fail _

theorem still_ensureRelativeDirectory (root : DestDirectory) (relative : Wide) :
    Act.Keeps Still (ensureRelativeDirectory fate H root relative) := by
  unfold ensureRelativeDirectory
  split
  · exact still_fail _
  · exact still_ensureComponents relative _ root

theorem still_rollbackEntries : ∀ entries : List SecureCreatedEntry,
    Act.Keeps Still (rollbackEntries fate entries)
  | [] => still_pure _
  | entry :: rest => by
    refine still_bind (still_deleteOpenHandle entry).attempt fun r =>
      still_bind (still_rollbackEntries rest) fun _ => ?_
    cases r <;> exact still_pure _

theorem still_rollback : Act.Keeps Still (rollback fate) := by
  refine still_bind (Act.keeps_read .refl) fun s => still_bind (fun s => ?_) fun _ =>
    still_bind (still_rollbackEntries _) fun r => ?_
  · exact ⟨rfl, rfl, rfl, rfl, List.prefix_refl _⟩
  · cases r with
    | none => exact still_pure _
    | some error => exact still_fail _

end Still

/-! ## 4. The account of a run -/

/-- Every report counts what was verified and written before it. -/
def Tallied (events : List CopyEvent) : Prop :=
  ∀ before p after, events = before ++ .reported p :: after →
    p.completedFiles = (verified before).length ∧
      p.copiedBytes = saturatingSum (written before)

theorem Tallied.nil : Tallied [] := by
  intro before p after h
  cases before <;> cases h

/-- One event more; a report has to count right. -/
theorem Tallied.concat {events : List CopyEvent} {event : CopyEvent} (h : Tallied events)
    (hevent : ∀ p, event = .reported p → p.completedFiles = (verified events).length ∧
      p.copiedBytes = saturatingSum (written events)) : Tallied (events ++ [event]) := by
  intro before p after hsplit
  rcases List.eq_nil_or_concat after with rfl | ⟨init, last, rfl⟩
  · obtain ⟨hbefore, hlast⟩ := List.append_inj' hsplit rfl
    cases hlast
    rw [← hbefore]
    exact hevent p rfl
  · rw [List.concat_eq_append, ← List.cons_append, ← List.append_assoc] at hsplit
    exact h before p init (List.append_inj' hsplit rfl).1

/-- What has happened since `b`, and that the transaction has counted it. -/
structure Account (b s : RunState) (events : List CopyEvent) : Prop where
  happened : s.events = b.events ++ events
  progress : s.progress = b.progress ++ reports events
  audits : b.audits <+: s.audits
  tallied : Tallied events
  files : s.transaction.manifest.length = (verified events).length
  observed : s.transaction.observedCopiedBytes = saturatingSum (written events)
  bytes : manifestBytes s.transaction.manifest ≤ saturatingSum (written events)

section Account

variable {b : RunState} {events : List CopyEvent}

theorem Account.still (h : Account b s events) (hs : Still s s') : Account b s' events where
  happened := hs.events.trans h.happened
  progress := hs.progress.trans h.progress
  audits := h.audits.trans hs.audits
  tallied := h.tallied
  files := by rw [hs.manifest, h.files]
  observed := hs.observed.trans h.observed
  bytes := by
    rw [hs.manifest]
    exact h.bytes

theorem Account.completedFiles (h : Account b s events) :
    s.transaction.completedFiles = (verified events).length := h.files

/-- **The number of bytes**, by whichever of its two sources. -/
theorem Account.copiedBytes (h : Account b s events) :
    s.transaction.copiedBytes = saturatingSum (written events) := by
  rw [CopyTransaction.copiedBytes, h.observed]
  exact max_eq_left h.bytes

/-- A report that counts right. -/
theorem Account.report (h : Account b s events) {p : MigrationProgress}
    (hfiles : p.completedFiles = (verified events).length)
    (hbytes : p.copiedBytes = saturatingSum (written events)) :
    Account b { s.happened (.reported p) with progress := s.progress ++ [p] }
      (events ++ [.reported p]) where
  happened := by
    show s.events ++ [CopyEvent.reported p] = _
    rw [h.happened, List.append_assoc]
  progress := by
    show s.progress ++ [p] = _
    rw [h.progress, reports_append, reports_reported, List.append_assoc]
  audits := h.audits
  tallied := h.tallied.concat fun q hq => by
    cases hq
    exact ⟨hfiles, hbytes⟩
  files := by
    rw [verified_append, verified_reported, List.append_nil]
    exact h.files
  observed := by
    rw [written_append, written_reported, List.append_nil]
    exact h.observed
  bytes := by
    rw [written_append, written_reported, List.append_nil]
    exact h.bytes

/-- A report of the end gives the numbers of the manifest. -/
def Final (t : CopyTransaction) (ps : List MigrationProgress) : Prop :=
  ∀ p ∈ ps, p.phase = .finalizing →
    p.completedFiles = t.manifest.length ∧ p.copiedBytes = manifestBytes t.manifest

theorem Final.of_phase {t : CopyTransaction} {ps : List MigrationProgress}
    (h : ∀ p ∈ ps, p.phase ≠ .finalizing) : Final t ps :=
  fun p hp hphase => absurd hphase (h p hp)

theorem Final.still {ps : List MigrationProgress} (h : Final s.transaction ps)
    (hs : Still s s') : Final s'.transaction ps := by
  unfold Final
  rw [hs.manifest]
  exact h

/-- A run over the files `all` that has stopped: its account is right, its reports are those of a run
that was begun, and the files verified are the first of all. -/
structure Stopped (b s : RunState) (events : List CopyEvent) (all : List String) : Prop extends
    Account b s events where
  begun : Begun all (reports events)
  first : verified events <+: all
  final : Final s.transaction (reports events)

/-- One that has stopped among its files. -/
structure Halted (b s : RunState) (events : List CopyEvent) (all : List String) : Prop extends
    Account b s events where
  underway : Underway all (reports events)
  first : verified events <+: all

/-- The run is between two files, and these are done. -/
structure Between (b s : RunState) (events : List CopyEvent) (done : List String) : Prop extends
    Account b s events where
  sofar : verified events = done
  order : ∃ e ps, reports events = e :: ps ∧ e.phase = .enumerating ∧ Files done ps
  settled : manifestBytes s.transaction.manifest = saturatingSum (written events)

/-- The run is within the file `path`: `copied` of its bytes are copied, after `completed` bytes
of the files before it. -/
structure Within (b s : RunState) (events : List CopyEvent) (done : List String) (path : String)
    (completed copied : Nat) : Prop extends Account b s events where
  sofar : verified events = done
  order : ∃ e ps copies, reports events = e :: (ps ++ copies) ∧ e.phase = .enumerating ∧
    Files done ps ∧ Copies path copies
  settled : manifestBytes s.transaction.manifest = completed
  total : saturatingSum (written events) = saturatingAdd completed copied

section Stops

variable {done all : List String} {path : String} {completed copied : Nat}

theorem Between.still (h : Between b s events done) (hs : Still s s') : Between b s' events done where
  toAccount := h.toAccount.still hs
  sofar := h.sofar
  order := h.order
  settled := by
    rw [hs.manifest]
    exact h.settled

theorem Within.still (h : Within b s events done path completed copied) (hs : Still s s') :
    Within b s' events done path completed copied where
  toAccount := h.toAccount.still hs
  sofar := h.sofar
  order := h.order
  settled := by
    rw [hs.manifest]
    exact h.settled
  total := h.total

/-- The run stops before the files that are left. -/
theorem Between.halted (h : Between b s events done) (more : List String) :
    Halted b s events (done ++ more) := by
  obtain ⟨e, ps, hreports, he, hfiles⟩ := h.order
  refine ⟨h.toAccount, ?_, ?_⟩
  · rw [hreports]
    exact (Underway.files he hfiles).more more
  · rw [h.sofar]
    exact List.prefix_append ..

theorem Within.halted (h : Within b s events done path completed copied) :
    Halted b s events (done ++ [path]) := by
  obtain ⟨e, ps, copies, hreports, he, hfiles, hcopies⟩ := h.order
  refine ⟨h.toAccount, ?_, ?_⟩
  · rw [hreports]
    exact .copies he hfiles hcopies
  · rw [h.sofar]
    exact List.prefix_append ..

theorem Halted.still (h : Halted b s events all) (hs : Still s s') : Halted b s' events all where
  toAccount := h.toAccount.still hs
  underway := h.underway
  first := h.first

theorem Halted.more (h : Halted b s events all) (more : List String) :
    Halted b s events (all ++ more) where
  toAccount := h.toAccount
  underway := h.underway.more more
  first := h.first.trans (List.prefix_append ..)

theorem Halted.stopped (h : Halted b s events all) : Stopped b s events all where
  toAccount := h.toAccount
  begun := h.underway.begun
  first := h.first
  final := .of_phase h.underway.phase

theorem Between.stopped (h : Between b s events done) : Stopped b s events done := by
  have hhalted := h.halted []
  rw [List.append_nil] at hhalted
  exact hhalted.stopped

theorem Stopped.still (h : Stopped b s events all) (hs : Still s s') : Stopped b s' events all where
  toAccount := h.toAccount.still hs
  begun := h.begun
  first := h.first
  final := h.final.still hs

end Stops

/-- The start of a file. -/
theorem Between.enter {done : List String} (h : Between b s events done) (path : String) :
    Within b s events done path s.transaction.copiedBytes 0 where
  toAccount := h.toAccount
  sofar := h.sofar
  order := by
    obtain ⟨e, ps, hreports, he, hfiles⟩ := h.order
    exact ⟨e, ps, [], by rw [List.append_nil, hreports], he, hfiles, nofun⟩
  settled := by rw [h.settled, h.copiedBytes]
  total := by rw [h.copiedBytes, saturatingAdd_zero (saturatingSum_le _)]

end Account

/-! ## 5. Files and directories -/

section Copying

variable {b : RunState} {events : List CopyEvent} {done : List String} {path sha : String}
  {completed copied : Nat}

theorem wp_still {m : Act RunState ε α} {Q : α → RunState → Prop} {E : ε → RunState → Prop}
    (hm : Act.Keeps Still m) (hQ : ∀ a s', Still s s' → Q a s')
    (hE : ∀ e s', Still s s' → E e s') : Act.wp m Q E s :=
  Act.wp_mono (Act.keeps_iff_wp.mp hm s) hQ hE

/-- A chunk is written, or the state stands still. -/
theorem writeAll_spec (serial : Nat) (chunk : Bytes) :
    Act.wp (writeAll fate serial chunk)
      (fun _ s' => ∃ s₁, Still s s₁ ∧ s' = s₁.happened (.written chunk.length))
      (fun _ s' => Still s s') s := by
  unfold writeAll
  rw [Act.wp_of]
  cases fate.faults s.clock with
  | some f => exact .of_eq rfl rfl rfl rfl
  | none => exact ⟨s.tick.append serial (fate.media s.clock chunk), .of_eq rfl rfl rfl rfl, rfl⟩

/-- The chunk that was written is counted. -/
theorem Within.observe (h : Within b s events done path completed copied) (n : Nat) :
    Account b { s.happened (.written n) with
      transaction := { s.transaction with
        observedCopiedBytes := saturatingAdd completed (saturatingAdd copied n)
        lastRelativePath := some path } } (events ++ [.written n]) where
  happened := by
    show s.events ++ [CopyEvent.written n] = _
    rw [h.happened, List.append_assoc]
  progress := by
    rw [reports_append, reports_written, List.append_nil]
    exact h.progress
  audits := h.audits
  tallied := h.tallied.concat nofun
  files := by
    rw [verified_append, verified_written, List.append_nil]
    exact h.files
  observed := by
    rw [written_append, written_written, saturatingSum_concat, h.total, saturatingAdd_assoc]
  bytes := by
    rw [written_append]
    exact h.bytes.trans (saturatingSum_mono _ _)

/-- The chunk that was counted is reported. -/
theorem Within.chunk (h : Within b s events done path completed copied) (n : Nat) {t : RunState}
    (ht : t = { s.happened (.written n) with
      transaction := { s.transaction with
        observedCopiedBytes := saturatingAdd completed (saturatingAdd copied n)
        lastRelativePath := some path } }) {p : MigrationProgress} (hphase : p.phase = .copying)
    (hpath : p.relativePath = some path) (hfiles : p.completedFiles = t.transaction.completedFiles)
    (hbytes : p.copiedBytes = saturatingAdd completed (saturatingAdd copied n)) :
    Within b { t.happened (.reported p) with progress := t.progress ++ [p] }
      ((events ++ [.written n]) ++ [.reported p]) done path completed (saturatingAdd copied n) := by
  subst ht
  have hcounted := h.observe n
  have htotal : saturatingSum (written (events ++ [.written n]))
      = saturatingAdd completed (saturatingAdd copied n) := hcounted.observed.symm
  refine ⟨hcounted.report ?_ ?_, ?_, ?_, h.settled, ?_⟩
  · rw [hfiles, hcounted.completedFiles]
  · rw [hbytes, htotal]
  · simp only [verified_append, verified_written, verified_reported, List.append_nil, h.sofar]
  · obtain ⟨e, ps, copies, hreports, he, hps, hcopies⟩ := h.order
    refine ⟨e, ps, copies ++ [p], ?_, he, hps, hcopies.concat hphase hpath⟩
    rw [reports_append, reports_append, reports_written, reports_reported, List.append_nil,
      hreports, List.cons_append, List.append_assoc]
  · rw [written_append, written_reported, List.append_nil, htotal]

/-- **The loop of a file** stays within the file, and counts what it has copied. -/
theorem copyLoop_account (serial : Nat) (relativePath : Wide) (completed : Nat) :
    ∀ (pieces : List Bytes) (copied : Nat) (hashed : Bytes) {s : RunState}
      {events : List CopyEvent},
      Within b s events done (displayRelativePath relativePath) completed copied →
      Act.wp (copyLoop fate serial relativePath completed pieces copied hashed)
        (fun r s' => ∃ events',
          Within b s' events' done (displayRelativePath relativePath) completed r.1)
        (fun _ s' => ∃ events',
          Halted b s' events' (done ++ [displayRelativePath relativePath])) s := by
  intro pieces
  induction pieces with
  | nil =>
    intro copied hashed s events h
    rw [copyLoop, Act.wp_bind]
    refine wp_still still_checkCancelled (fun _ s₁ h₁ => ?_) fun _ s₁ h₁ =>
      ⟨events, h.halted.still h₁⟩
    rw [Act.wp_bind]
    refine wp_still still_fileCall (fun _ s₂ h₂ => ?_) fun _ s₂ h₂ =>
      ⟨events, (h.halted.still h₁).still h₂⟩
    exact (Act.wp_pure _).mpr ⟨events, (h.still h₁).still h₂⟩
  | cons chunk rest ih =>
    intro copied hashed s events h
    rw [copyLoop, Act.wp_bind]
    refine wp_still still_checkCancelled (fun _ s₁ h₁ => ?_) fun _ s₁ h₁ =>
      ⟨events, h.halted.still h₁⟩
    rw [Act.wp_bind]
    refine wp_still still_fileCall (fun _ s₂ h₂ => ?_) fun _ s₂ h₂ =>
      ⟨events, (h.halted.still h₁).still h₂⟩
    have hin := (h.still h₁).still h₂
    rw [Act.wp_bind]
    refine Act.wp_mono (writeAll_spec serial chunk) ?_ fun _ s₃ h₃ =>
      ⟨events, hin.halted.still h₃⟩
    intro _ s₄ hwritten
    obtain ⟨s₃, h₃, rfl⟩ := hwritten
    dsimp only
    rw [Act.wp_bind, observeCopy, setTransaction, Act.wp_update, Act.wp_bind, report,
      Act.wp_update]
    exact ih _ _ ((hin.still h₃).chunk chunk.length rfl rfl rfl rfl rfl)

/-- The verification of a file, once its report is out. -/
structure Checking (b s : RunState) (events : List CopyEvent) (done : List String) (path : String)
    (completed copied : Nat) : Prop extends Account b s events where
  sofar : verified events = done
  order : ∃ e ps, reports events = e :: ps ∧ e.phase = .enumerating ∧ Files (done ++ [path]) ps
  settled : manifestBytes s.transaction.manifest = completed
  total : saturatingSum (written events) = saturatingAdd completed copied

theorem Checking.still (h : Checking b s events done path completed copied) (hs : Still s s') :
    Checking b s' events done path completed copied where
  toAccount := h.toAccount.still hs
  sofar := h.sofar
  order := h.order
  settled := by
    rw [hs.manifest]
    exact h.settled
  total := h.total

theorem Checking.halted (h : Checking b s events done path completed copied) :
    Halted b s events (done ++ [path]) := by
  obtain ⟨e, ps, hreports, he, hfiles⟩ := h.order
  refine ⟨h.toAccount, ?_, ?_⟩
  · rw [hreports]
    exact .files he hfiles
  · rw [h.sofar]
    exact List.prefix_append ..

/-- The report of the verification. -/
theorem Within.verifying (h : Within b s events done path completed copied) {p : MigrationProgress}
    (hphase : p.phase = .verifying) (hpath : p.relativePath = some path)
    (hfiles : p.completedFiles = s.transaction.completedFiles)
    (hbytes : p.copiedBytes = s.transaction.copiedBytes) :
    Checking b { s.happened (.reported p) with progress := s.progress ++ [p] }
      (events ++ [.reported p]) done path completed copied := by
  refine ⟨h.toAccount.report ?_ ?_, ?_, ?_, h.settled, ?_⟩
  · rw [hfiles, h.completedFiles]
  · rw [hbytes, h.copiedBytes]
  · rw [verified_append, verified_reported, List.append_nil, h.sofar]
  · obtain ⟨e, ps, copies, hreports, he, hps, hcopies⟩ := h.order
    refine ⟨e, ps ++ (copies ++ [p]), ?_, he, .file hps hcopies hphase hpath⟩
    simp only [reports_append, reports_reported, hreports, List.cons_append, List.append_assoc]
  · rw [written_append, written_reported, List.append_nil]
    exact h.total

/-- The file has passed, and is entered in the manifest. -/
theorem Checking.passed (h : Checking b s events done path completed copied) :
    Between b { s.happened (.verified path) with
      transaction := { s.transaction with
        manifest := s.transaction.manifest ++ [(path, copied, sha)] } }
      (events ++ [.verified path]) (done ++ [path]) := by
  have hbytes : manifestBytes (s.transaction.manifest ++ [(path, copied, sha)])
      = saturatingSum (written (events ++ [.verified path])) := by
    rw [manifestBytes_concat, h.settled, written_append, written_verified, List.append_nil, h.total]
  refine ⟨⟨?_, ?_, h.audits, h.tallied.concat nofun, ?_, ?_, hbytes.le⟩, ?_, ?_, hbytes⟩
  · show s.events ++ [CopyEvent.verified path] = _
    rw [h.happened, List.append_assoc]
  · rw [reports_append, reports_verified, List.append_nil]
    exact h.progress
  · rw [verified_append, verified_verified, List.length_append, List.length_append, h.files]
    rfl
  · rw [written_append, written_verified, List.append_nil]
    exact h.observed
  · rw [verified_append, verified_verified, h.sofar]
  · obtain ⟨e, ps, hreports, he, hfiles⟩ := h.order
    refine ⟨e, ps, ?_, he, hfiles⟩
    rw [reports_append, reports_verified, List.append_nil, hreports]

/-- **A file**: the account is kept, whether the copy succeeds or not. -/
theorem copyFileVerified_account (source : SourceDirectory) (destination : DestDirectory)
    (name relativePath : Wide) (h : Between b s events done) :
    Act.wp (copyFileVerified fate H source destination name relativePath)
      (fun _ s' => ∃ events', Between b s' events' (done ++ [displayRelativePath relativePath]))
      (fun _ s' => ∃ events', Halted b s' events' (done ++ [displayRelativePath relativePath])) s := by
  have hstop : ∀ {s'}, Still s s' →
      ∃ events', Halted b s' events' (done ++ [displayRelativePath relativePath]) := fun hs =>
    ⟨events, (h.halted _).still hs⟩
  rw [copyFileVerified, Act.wp_bind]
  refine wp_still ((still_openFile source name).mapErr _) (fun input s₁ h₁ => ?_)
    fun _ _ h₁ => hstop h₁
  rw [Act.wp_bind]
  refine wp_still ((still_createFile destination name).mapErr _) (fun output s₂ h₂ => ?_)
    fun _ _ h₂ => hstop (.trans _ _ _ h₁ h₂)
  have h₁₂ := Still.trans _ _ _ h₁ h₂
  rw [Act.wp_bind]
  refine wp_still (still_pushCreated output.2) (fun _ s₃ h₃ => ?_)
    fun _ _ h₃ => hstop (.trans _ _ _ h₁₂ h₃)
  have hin := (h.still (.trans _ _ _ h₁₂ h₃)).enter (displayRelativePath relativePath)
  rw [Act.wp_bind, Act.wp_read, Act.wp_bind, piecesOf, Act.wp_of]
  dsimp only
  rw [Act.wp_bind]
  refine Act.wp_mono (copyLoop_account output.1 relativePath _ _ 0 [] hin) ?_ fun _ _ hs => hs
  intro copied s₄ hloop
  obtain ⟨events₄, h₄⟩ := hloop
  have hstop₄ : ∀ {s'}, Still s₄ s' →
      ∃ events', Halted b s' events' (done ++ [displayRelativePath relativePath]) := fun hs =>
    ⟨events₄, h₄.halted.still hs⟩
  rw [Act.wp_bind]
  refine wp_still still_checkCancelled (fun _ s₅ h₅ => ?_) fun _ _ hs => hstop₄ hs
  rw [Act.wp_bind]
  refine wp_still still_fileCall (fun _ s₆ h₆ => ?_) fun _ _ hs => hstop₄ (h₅.trans _ _ _ hs)
  have h₅₆ := h₅.trans _ _ _ h₆
  rw [Act.wp_bind]
  refine wp_still still_fileCall (fun _ s₇ h₇ => ?_) fun _ _ hs => hstop₄ (h₅₆.trans _ _ _ hs)
  have h₅₇ := h₅₆.trans _ _ _ h₇
  rw [Act.wp_bind]
  refine wp_still still_fileCall (fun _ s₈ h₈ => ?_) fun _ _ hs => hstop₄ (h₅₇.trans _ _ _ hs)
  rw [Act.wp_bind, report, Act.wp_update, Act.wp_bind]
  have hverifying := (h₄.still (h₅₇.trans _ _ _ h₈)).verifying
    (p := ⟨.verifying, some (displayRelativePath relativePath), s₈.transaction.completedFiles,
      s₈.transaction.copiedBytes⟩) rfl rfl rfl rfl
  have hstop₈ : ∀ {s'}, Still _ s' →
      ∃ events', Halted b s' events' (done ++ [displayRelativePath relativePath]) := fun hs =>
    ⟨_, hverifying.halted.still hs⟩
  refine wp_still (still_sha256File output.1) (fun destinationSha s₉ h₉ => ?_) fun _ _ hs =>
    hstop₈ hs
  rw [Act.wp_bind, Act.wp_when]
  have hgo : Act.wp (do
      fileCall fate
      let written ← Act.read
      Act.guard (copied.1 == (written.stored output.1).length)
        (.verificationFailed (display relativePath))
      Act.update fun s => s.happened (.verified (displayRelativePath relativePath))
      setTransaction fun t =>
        { t with manifest := t.manifest ++
            [(displayRelativePath relativePath, copied.1, H.sha256 copied.2)] })
      (fun _ s' => ∃ events', Between b s' events' (done ++ [displayRelativePath relativePath]))
      (fun _ s' => ∃ events', Halted b s' events' (done ++ [displayRelativePath relativePath])) s₉ := by
    rw [Act.wp_bind]
    refine wp_still still_fileCall (fun _ s₁₀ h₁₀ => ?_) fun _ _ hs =>
      hstop₈ (h₉.trans _ _ _ hs)
    have h₉₁₀ := h₉.trans _ _ _ h₁₀
    rw [Act.wp_bind, Act.wp_read, Act.wp_bind, Act.wp_guard]
    split
    · rw [Act.wp_bind, Act.wp_update, setTransaction, Act.wp_update]
      exact ⟨_, (hverifying.still h₉₁₀).passed⟩
    · exact hstop₈ h₉₁₀
  split
  · exact (Act.wp_fail _).mpr (hstop₈ h₉)
  · exact hgo

/-- The relative paths of the files of a tree, in the order of the traversal. -/
def textsOf (H : CopyHost) (fate : Fate) (node : SourceNode) (path relative : Wide) : List String :=
  (manifestOf H fate.arrange node path relative).map (·.1)

theorem textsOf_directory {names : List Wide} {child : Wide → SourceNode} (path relative : Wide) :
    textsOf H fate (.directory names child) path relative =
      (sortByKey H.lower id (fate.arrange path names)).flatMap fun name =>
        textsOf H fate (child name) (WinPath.join path name) (WinPath.join relative name) := by
  simp only [textsOf, manifestOf, List.map_flatMap]

/-- **A tree**, by its nodes: the loop over the entries of a directory is between two files before
each of them. -/
theorem copyTreeVerified_account (node : SourceNode) :
    ∀ {names : List Wide} {child : Wide → SourceNode} (path : Wide) (destination : DestDirectory)
      (relativeDirectory : Wide) {s : RunState} {events : List CopyEvent} {done : List String},
      node = .directory names child → Between b s events done →
      Act.wp (copyTreeVerified fate H node path destination relativeDirectory)
        (fun _ s' => ∃ events',
          Between b s' events' (done ++ textsOf H fate node path relativeDirectory))
        (fun _ s' => ∃ events',
          Halted b s' events' (done ++ textsOf H fate node path relativeDirectory)) s := by
  induction node with
  | file content => exact nofun
  | reparse => exact nofun
  | directory names child ih =>
    intro names' child' path destination relativeDirectory s events done hnode h
    cases hnode
    rw [copyTreeVerified, Act.wp_bind, Act.wp_mapErr]
    refine Act.wp_mono (Act.wp_and (Act.keeps_iff_wp.mp (still_entries _) s) entries_spec)
      (fun entries s₁ h₁ => ?_) fun _ _ hs => ⟨_, (h.halted _).still hs.1⟩
    obtain ⟨hstill, _, hnames, hkinds⟩ := h₁
    -- the texts of an entry, and of all of them
    let texts := fun e : SecureDirEntry =>
      textsOf H fate (child e.name) (WinPath.join path e.name) (WinPath.join relativeDirectory e.name)
    have hall : textsOf H fate (.directory names child) path relativeDirectory
        = entries.flatMap texts := by
      rw [textsOf_directory, ← hnames, List.flatMap_map]
    rw [hall]
    refine Act.wp_forEach _ (fun before after t => before ++ after = entries ∧
      ∃ events, Between b t events (done ++ before.flatMap texts)) entries [] s₁
      ⟨rfl, events, ?_⟩ (fun before entry after s₂ hround => ?_) fun before t hend => ?_
    · rw [List.flatMap_nil, List.append_nil]
      exact h.still hstill
    · obtain ⟨hsplit, events₂, h₂⟩ := hround
      have hmem : entry ∈ entries := hsplit ▸ List.mem_append_right _ List.mem_cons_self
      have hrest : done ++ entries.flatMap texts
          = done ++ before.flatMap texts ++ texts entry ++ after.flatMap texts := by
        rw [← hsplit, List.flatMap_append, List.flatMap_cons]
        simp only [List.append_assoc]
      have hstop : ∀ {s' events'}, Halted b s' events' (done ++ before.flatMap texts ++ texts entry) →
          ∃ events', Halted b s' events' (done ++ entries.flatMap texts) := fun hhalted =>
        ⟨_, hrest ▸ hhalted.more _⟩
      have hgo : ∀ {s' events'}, Between b s' events' (done ++ before.flatMap texts ++ texts entry) →
          before ++ [entry] ++ after = entries ∧
            ∃ events, Between b s' events (done ++ (before ++ [entry]).flatMap texts) := by
        intro s' events' hbetween
        refine ⟨by rw [← hsplit, List.append_assoc]; rfl, events', ?_⟩
        rw [List.flatMap_append, List.flatMap_singleton, ← List.append_assoc]
        exact hbetween
      rw [Act.wp_bind]
      refine wp_still still_checkCancelled (fun _ s₃ h₃ => ?_) fun _ _ hs =>
        hstop ((h₂.halted _).still hs)
      have hkind := hkinds entry hmem
      cases hk : entry.kind with
      | directory =>
        obtain ⟨names', child', hchild⟩ := kind_directory (hkind.trans (congrArg some hk))
        dsimp only
        rw [Act.wp_bind, Act.wp_mapErr]
        refine Act.wp_mono (Act.wp_and (Act.keeps_iff_wp.mp (still_sourceOpenDirectory _ _) s₃)
          openDirectory_spec) (fun sourceChild s₄ h₄ => ?_) fun _ _ hs =>
          hstop ((h₂.halted _).still (h₃.trans _ _ _ hs.1))
        obtain ⟨h₄, _, _, _, hpath, _⟩ := h₄
        have h₃₄ := h₃.trans _ _ _ h₄
        rw [Act.wp_bind]
        refine wp_still ((still_openOrCreateDirectory _ _).mapErr _) (fun made s₅ h₅ => ?_)
          fun _ _ hs => hstop ((h₂.halted _).still (h₃₄.trans _ _ _ hs))
        have h₃₅ := h₃₄.trans _ _ _ h₅
        rw [Act.wp_bind]
        refine wp_still (still_pushIfCreated made.2) (fun _ s₆ h₆ => ?_)
          fun _ _ hs => hstop ((h₂.halted _).still (h₃₅.trans _ _ _ hs))
        rw [hpath]
        exact Act.wp_mono (ih entry.name _ _ _ hchild (h₂.still (h₃₅.trans _ _ _ h₆)))
          (fun _ _ hround => hgo hround.choose_spec) fun _ _ hround => hstop hround.choose_spec
      | file =>
        obtain ⟨content, hchild⟩ := kind_file (hkind.trans (congrArg some hk))
        have hone : texts entry = [displayRelativePath (WinPath.join relativeDirectory entry.name)] := by
          simp only [texts, textsOf, hchild, manifestOf, List.map_cons, List.map_nil]
        rw [hone] at hgo hstop
        exact Act.wp_mono (copyFileVerified_account _ _ _ _ (h₂.still h₃))
          (fun _ _ hround => hgo hround.choose_spec) fun _ _ hround => hstop hround.choose_spec
    · obtain ⟨hsplit, hbetween⟩ := hend
      rw [List.append_nil] at hsplit
      rwa [hsplit] at hbetween

/-- The relative paths of the files of a root. -/
def rootTexts (H : CopyHost) (fate : Fate) (source : SourceDirectory) (root : Wide) : List String :=
  (rootLines H fate.arrange source root).map (·.1)

/-- One of the roots. -/
theorem copyRoot_account (source : SourceDirectory) (target : DestDirectory) {relativeRoot name : Wide}
    {rest : List Wide} (hroot : WinPath.components relativeRoot = (name :: rest).map .normal)
    (h : Between b s events done) :
    Act.wp (copyRoot fate H source target relativeRoot)
      (fun _ s' => ∃ events',
        Between b s' events' (done ++ rootTexts H fate source relativeRoot))
      (fun _ s' => ∃ events',
        Halted b s' events' (done ++ rootTexts H fate source relativeRoot)) s := by
  have hnames : componentNames relativeRoot = name :: rest := componentNames_map hroot
  rw [copyRoot, Act.wp_bind]
  refine wp_still still_checkCancelled (fun _ s₁ h₁ => ?_) fun _ _ hs => ⟨_, (h.halted _).still hs⟩
  rw [Act.wp_bind]
  have hopen := @openRelative_spec H fate s₁ relativeRoot source
    (hnames ▸ List.cons_ne_nil name rest) (hnames.symm ▸ hroot)
  refine Act.wp_mono (Act.wp_and (Act.keeps_iff_wp.mp
    (still_openRelativeDirectoryIfPresent source relativeRoot) s₁) hopen) (fun found s₂ h₂ => ?_)
    fun _ _ hs => ⟨_, (h.halted _).still (h₁.trans _ _ _ hs.1)⟩
  obtain ⟨h₂, _, hfound, hdir, _⟩ := h₂
  have h₁₂ := h₁.trans _ _ _ h₂
  cases found with
  | none =>
    have hnone : rootTexts H fate source relativeRoot = [] := by
      rw [rootTexts, rootLines, ← hfound]
      rfl
    rw [hnone, List.append_nil]
    exact (Act.wp_pure _).mpr ⟨_, h.still h₁₂⟩
  | some found =>
    obtain ⟨hpath, hnode⟩ := hdir found rfl
    obtain ⟨ns, child, hns⟩ := hnode (hnames ▸ List.cons_ne_nil name rest)
    have htexts : rootTexts H fate source relativeRoot
        = textsOf H fate found.node found.displayPath relativeRoot := by
      rw [rootTexts, rootLines, ← hfound, hpath]
      rfl
    dsimp only
    rw [Act.wp_bind]
    refine wp_still (still_ensureRelativeDirectory target relativeRoot)
      (fun destination s₃ h₃ => ?_) fun _ _ hs => ⟨_, (h.halted _).still (h₁₂.trans _ _ _ hs)⟩
    rw [htexts]
    exact copyTreeVerified_account _ _ _ _ hns (h.still (h₁₂.trans _ _ _ h₃))

/-! ## 6. The migration -/

/-- A run over the files `all` that has reported everything. -/
structure Finished (b s : RunState) (events : List CopyEvent) (all : List String) : Prop extends
    Account b s events where
  complete : Complete all (reports events)
  everything : verified events = all
  final : Final s.transaction (reports events)

theorem Finished.stopped (h : Finished b s events done) : Stopped b s events done :=
  ⟨h.toAccount, ⟨_, h.complete, List.prefix_refl _⟩, h.everything ▸ List.prefix_refl _, h.final⟩

theorem Finished.still (h : Finished b s events done) (hs : Still s s') :
    Finished b s' events done where
  toAccount := h.toAccount.still hs
  complete := h.complete
  everything := h.everything
  final := h.final.still hs

/-- The last report gives the numbers of the manifest, which has everything in it. -/
theorem Between.finalizing (h : Between b s events done) {p : MigrationProgress}
    (hphase : p.phase = .finalizing) (hfiles : p.completedFiles = s.transaction.manifest.length)
    (hbytes : p.copiedBytes = manifestBytes s.transaction.manifest) :
    Finished b { s.happened (.reported p) with progress := s.progress ++ [p] }
      (events ++ [.reported p]) done := by
  obtain ⟨e, ps, hreports, he, hps⟩ := h.order
  have hall : reports (events ++ [.reported p]) = e :: (ps ++ [p]) := by
    rw [reports_append, reports_reported, hreports, List.cons_append]
  refine ⟨h.toAccount.report ?_ ?_, ?_, ?_, ?_⟩
  · rw [hfiles, h.files]
  · rw [hbytes, h.settled]
  · rw [hall]
    exact .run he hps hphase
  · rw [verified_append, verified_reported, List.append_nil, h.sofar]
  · rw [hall]
    intro q hq hlast
    rcases List.mem_cons.mp hq with rfl | hq
    · rw [he] at hlast
      cases hlast
    rcases List.mem_append.mp hq with hq | hq
    · exact absurd hlast (hps.phase q hq)
    · rw [List.mem_singleton.mp hq]
      exact ⟨hfiles, hbytes⟩

/-- The first report. -/
theorem Account.enumerating (h : Account b s []) {p : MigrationProgress}
    (hphase : p.phase = .enumerating) (hfiles : p.completedFiles = 0) (hbytes : p.copiedBytes = 0) :
    Between b { s.happened (.reported p) with progress := s.progress ++ [p] } [.reported p] [] where
  toAccount := h.report hfiles hbytes
  sofar := rfl
  order := ⟨p, [], rfl, hphase, .nil⟩
  settled := by
    have hzero : manifestBytes s.transaction.manifest ≤ 0 := h.bytes
    exact Nat.le_zero.mp hzero

theorem Account.unreported (h : Account b s []) (all : List String) : Stopped b s [] all :=
  ⟨h, (Underway.nil all).begun, List.nil_prefix, nofun⟩

/-- The loop over the roots. -/
theorem copyRoots_account (source : SourceDirectory) (target : DestDirectory) {roots : List Wide}
    (hroots : WellNamed H roots) (h : Between b s events []) :
    Act.wp (Act.forEach roots (copyRoot fate H source target))
      (fun _ s' => ∃ events', Between b s' events' (roots.flatMap (rootTexts H fate source)))
      (fun _ s' => ∃ events', Halted b s' events' (roots.flatMap (rootTexts H fate source))) s := by
  refine Act.wp_forEach _ (fun before after t => before ++ after = roots ∧
    ∃ events, Between b t events (before.flatMap (rootTexts H fate source))) roots [] s
    ⟨rfl, events, h⟩ (fun before root after t hround => ?_) fun before t hend => ?_
  · obtain ⟨hsplit, events', hbetween⟩ := hround
    obtain ⟨name, rest, _, hroot⟩ :=
      hroots.parts root (hsplit ▸ List.mem_append_right _ List.mem_cons_self)
    refine Act.wp_mono (copyRoot_account source target hroot hbetween)
      (fun _ t' hnext => ?_) fun _ t' hhalted => ?_
    · rw [List.flatMap_append, List.flatMap_singleton]
      exact ⟨by rw [← hsplit, List.append_assoc]; rfl, hnext⟩
    · obtain ⟨events'', hhalted⟩ := hhalted
      rw [← hsplit, List.flatMap_append, List.flatMap_cons, ← List.append_assoc]
      exact ⟨events'', hhalted.more _⟩
  · obtain ⟨hsplit, hbetween⟩ := hend
    rw [List.append_nil] at hsplit
    rwa [hsplit] at hbetween

/-- The relative paths of the files that a validated plan selects, in the order of the traversal. -/
def selectedTexts (H : CopyHost) (fate : Fate) (contents : FileIdentity → SourceNode)
    (plan : MigrationPlan) (v : ValidatedMigration) : List String :=
  (selectedRoots plan).flatMap (rootTexts H fate (sourceOf contents v))

/-- **The closure** keeps the account from an empty transaction on. -/
theorem operation_account (contents : FileIdentity → SourceNode)
    (plan : MigrationPlan) (validated : ValidatedMigration) (h : Account b s []) :
    Act.wp (operation fate H contents plan validated)
      (fun receipt s' => ∃ events',
        Finished b s' events' (selectedTexts H fate contents plan validated) ∧
          receipt = s'.transaction.receipt H)
      (fun _ s' => ∃ events', Stopped b s' events' (selectedTexts H fate contents plan validated))
      s := by
  have hstop : ∀ {s'}, Still s s' →
      ∃ events', Stopped b s' events' (selectedTexts H fate contents plan validated) := fun hs =>
    ⟨[], (h.unreported _).still hs⟩
  rw [operation, Act.wp_bind]
  refine wp_still ((still_createDirectory _ _).mapErr _) (fun made s₁ h₁ => ?_) fun _ _ hs =>
    hstop hs
  rw [Act.wp_bind]
  refine wp_still (still_pushCreated made.2) (fun _ s₂ h₂ => ?_) fun _ _ hs =>
    hstop (h₁.trans _ _ _ hs)
  have h₁₂ := h₁.trans _ _ _ h₂
  rw [Act.wp_bind]
  refine wp_still (still_ofExcept _) (fun _ s₃ h₃ => ?_) fun _ _ hs => hstop (h₁₂.trans _ _ _ hs)
  have h₁₃ := h₁₂.trans _ _ _ h₃
  rw [Act.wp_bind]
  refine wp_still (still_openRelativeDirectoryIfPresent _ _) (fun protectedKeys s₄ h₄ => ?_)
    fun _ _ hs => hstop (h₁₃.trans _ _ _ hs)
  have h₁₄ := h₁₃.trans _ _ _ h₄
  rw [Act.wp_bind]
  refine wp_still (Act.Keeps.when .refl (still_log _ _ _ _) _) (fun _ s₅ h₅ => ?_) fun _ _ hs =>
    hstop (h₁₄.trans _ _ _ hs)
  have h₁₅ := h₁₄.trans _ _ _ h₅
  rw [Act.wp_bind]
  refine wp_still (Act.keeps_guard .refl _ _) (fun _ s₆ h₆ => ?_) fun _ _ hs =>
    hstop (h₁₅.trans _ _ _ hs)
  rw [Act.wp_bind, report, Act.wp_update, Act.wp_bind]
  have hbetween := (h.still (h₁₅.trans _ _ _ h₆)).enumerating
    (p := ⟨.enumerating, none, 0, 0⟩) rfl rfl rfl
  refine Act.wp_mono (copyRoots_account (sourceOf contents validated) made.1
    (wellNamed_selectedRoots H plan) hbetween) (fun _ s₇ hcopied => ?_) fun _ _ hhalted =>
    ⟨_, hhalted.choose_spec.stopped⟩
  obtain ⟨events₇, h₇⟩ := hcopied
  rw [Act.wp_bind]
  refine wp_still still_checkCancelled (fun _ s₈ h₈ => ?_) fun _ _ hs => ⟨_, h₇.stopped.still hs⟩
  rw [Act.wp_bind, Act.wp_read]
  dsimp only
  rw [Act.wp_bind]
  refine wp_still still_checkCancelled (fun _ s₉ h₉ => ?_) fun _ _ hs =>
    ⟨_, h₇.stopped.still (h₈.trans _ _ _ hs)⟩
  rw [Act.wp_bind, report, Act.wp_update, Act.wp_bind]
  have hmanifest : s₈.transaction.manifest = s₉.transaction.manifest := h₉.manifest.symm
  have hfinished := (h₇.still (h₈.trans _ _ _ h₉)).finalizing
    (p := ⟨.finalizing, none, (s₈.transaction.receipt H).copiedFiles,
      (s₈.transaction.receipt H).copiedBytes⟩) rfl
    (congrArg List.length hmanifest) (congrArg manifestBytes hmanifest)
  refine wp_still still_checkCancelled (fun _ s₁₀ h₁₀ => ?_) fun _ _ hs =>
    ⟨_, hfinished.stopped.still hs⟩
  rw [Act.wp_bind]
  refine wp_still (still_log _ _ _ _) (fun _ s₁₁ h₁₁ => ?_) fun _ _ hs =>
    ⟨_, hfinished.stopped.still (h₁₀.trans _ _ _ hs)⟩
  have hlast := h₁₀.trans _ _ _ h₁₁
  refine (Act.wp_pure _).mpr ⟨_, hfinished.still hlast, ?_⟩
  rw [CopyTransaction.receipt, CopyTransaction.receipt, hlast.manifest, hmanifest]
  rfl

/-- What is left of a run that failed. -/
structure RolledBack (b s : RunState) (events : List CopyEvent) (all : List String) : Prop extends
    Account b s events where
  order : ∃ main p, reports events = main ++ [p] ∧ Begun all main ∧ p.phase = .rollingBack
  first : verified events <+: all
  final : Final s.transaction (reports events)

theorem RolledBack.still (h : RolledBack b s events done) (hs : Still s s') :
    RolledBack b s' events done where
  toAccount := h.toAccount.still hs
  order := h.order
  first := h.first
  final := h.final.still hs

/-- The report of the rollback. -/
theorem Stopped.rollingBack (h : Stopped b s events done) {p : MigrationProgress}
    (hphase : p.phase = .rollingBack) (hfiles : p.completedFiles = s.transaction.completedFiles)
    (hbytes : p.copiedBytes = s.transaction.copiedBytes) :
    RolledBack b { s.happened (.reported p) with progress := s.progress ++ [p] }
      (events ++ [.reported p]) done := by
  refine ⟨h.toAccount.report ?_ ?_, ⟨reports events, p, ?_, h.begun, hphase⟩, ?_, ?_⟩
  · rw [hfiles, h.completedFiles]
  · rw [hbytes, h.copiedBytes]
  · rw [reports_append, reports_reported]
  · rw [verified_append, verified_reported, List.append_nil]
    exact h.first
  · rw [reports_append, reports_reported]
    intro q hq hlast
    rcases List.mem_append.mp hq with hq | hq
    · exact h.final q hq hlast
    · rw [List.mem_singleton.mp hq, hphase] at hlast
      cases hlast

/-- **After an error**, the rollback is reported once, and the error stays. -/
theorem afterError_account (plan : MigrationPlan) (error : MigrationError)
    (h : Stopped b s events done) :
    Act.wp (afterError fate plan error) (fun _ _ => False)
      (fun _ s' => ∃ events', RolledBack b s' events' done) s := by
  rw [afterError, Act.wp_bind, report, Act.wp_update, Act.wp_bind]
  have hrolled := h.rollingBack
    (p := ⟨.rollingBack, s.transaction.lastRelativePath, s.transaction.completedFiles,
      s.transaction.copiedBytes⟩) rfl rfl rfl
  refine wp_still still_rollback.attempt (fun r s₁ h₁ => ?_) fun _ _ hs => ⟨_, hrolled.still hs⟩
  cases r with
  | error rollbackError =>
    dsimp only
    rw [Act.wp_bind]
    refine wp_still (still_log _ _ _ _).attempt (fun r s₂ h₂ => ?_) fun _ _ hs =>
      ⟨_, hrolled.still (h₁.trans _ _ _ hs)⟩
    cases r <;> exact (Act.wp_fail _).mpr ⟨_, hrolled.still (h₁.trans _ _ _ h₂)⟩
  | ok _ =>
    dsimp only
    rw [Act.wp_bind]
    refine wp_still (still_log _ _ _ _) (fun _ s₂ h₂ => ?_) fun _ _ hs =>
      ⟨_, hrolled.still (h₁.trans _ _ _ hs)⟩
    exact (Act.wp_fail _).mpr ⟨_, hrolled.still (h₁.trans _ _ _ h₂)⟩

end Copying

/-! ## 7. Every run -/

section Honest

/-- The journal says that the migration was started. -/
def Started (s s' : RunState) : Prop :=
  ∃ entry ∈ s'.audits.drop s.audits.length, entry.operation = "MigrationStarted"

def Failed : Except MigrationError MigrationReceipt → Prop
  | .ok _ => False
  | .error _ => True

/-- What `p` says is not more than what `q` says. -/
def NotAbove (p q : MigrationProgress) : Prop :=
  p.completedFiles ≤ q.completedFiles ∧ p.copiedBytes ≤ q.copiedBytes

/-- The files that a run is to copy, in their order; none where the plan is refused. -/
def filesToCopy (H : CopyHost) (fate : Fate) (F : Forest) (contents : FileIdentity → SourceNode)
    (plan : MigrationPlan) : List String :=
  match validateForExecution H.toMigrationHost F plan with
  | .error _ => []
  | .ok validated => selectedTexts H fate contents plan validated

/-- An honest trace of a run over the files `all` from `s` to `s'` with the result `r`. -/
structure Honest (H : CopyHost) (all : List String) (s s' : RunState)
    (r : Except MigrationError MigrationReceipt) (events : List CopyEvent) : Prop where
  happened : s'.events = s.events ++ events
  progress : s'.progress = s.progress ++ reports events
  order : ∃ main rolling, reports events = main ++ rolling ∧ Begun all main ∧
    (rolling = [] ∨ ∃ p, rolling = [p] ∧ p.phase = .rollingBack) ∧
    (rolling ≠ [] ↔ Started s s' ∧ Failed r)
  first : verified events <+: all
  tallied : Tallied events
  monotone : (reports events).Pairwise NotAbove
  finalizing : ∀ p ∈ reports events, p.phase = .finalizing →
    p.completedFiles = (s'.transaction.receipt H).copiedFiles ∧
      p.copiedBytes = (s'.transaction.receipt H).copiedBytes
  succeeded : ∀ receipt, r = .ok receipt →
    Complete all (reports events) ∧ verified events = all ∧ receipt = s'.transaction.receipt H

/-- **Reports that count right never go down.** -/
theorem Tallied.monotone {events : List CopyEvent} (h : Tallied events) :
    (reports events).Pairwise NotAbove := by
  induction events using List.reverseRecOn with
  | nil => exact .nil
  | append_singleton events event ih =>
    have hfront : Tallied events := fun before p after hsplit =>
      h before p (after ++ [event]) (by rw [hsplit, List.append_assoc, List.cons_append])
    have hlast : (reports [event]).Pairwise NotAbove := by
      cases event with
      | reported p => exact List.pairwise_singleton _ _
      | written n => exact .nil
      | verified path => exact .nil
    rw [reports_append]
    refine List.pairwise_append.mpr ⟨ih hfront, hlast, fun p hp q hq => ?_⟩
    cases event with
    | written n => cases hq
    | verified path => cases hq
    | reported q' =>
      obtain rfl := List.mem_singleton.mp hq
      obtain ⟨event, hevent, hreport⟩ := List.mem_filterMap.mp hp
      cases event with
      | written n => cases hreport
      | verified path => cases hreport
      | reported p' =>
        cases hreport
        obtain ⟨before, after, rfl⟩ := List.append_of_mem hevent
        obtain ⟨hfiles, hbytes⟩ := hfront before p after rfl
        obtain ⟨hfiles', hbytes'⟩ := h _ q [] rfl
        refine ⟨?_, ?_⟩
        · rw [hfiles, hfiles', verified_append, List.length_append]
          exact Nat.le_add_right _ _
        · rw [hbytes, hbytes', written_append]
          exact saturatingSum_mono _ _

/-- A run in which nothing was reported. -/
theorem Honest.silent {all : List String} {error : MigrationError} (hevents : s'.events = s.events)
    (hprogress : s'.progress = s.progress) (haudits : s'.audits = s.audits) :
    Honest H all s s' (.error error) [] where
  happened := by rw [hevents, List.append_nil]
  progress := by rw [hprogress]; exact (List.append_nil _).symm
  order := by
    refine ⟨[], [], rfl, (Underway.nil all).begun, .inl rfl, iff_of_false (fun h => h rfl) fun h => ?_⟩
    obtain ⟨⟨entry, hentry, -⟩, -⟩ := h
    rw [haudits, List.drop_length] at hentry
    cases hentry
  first := List.nil_prefix
  tallied := .nil
  monotone := .nil
  finalizing := nofun
  succeeded := nofun

/-- The state in which the closure starts. -/
def opened (s : RunState) (started : AuditEntry) (clock : Nat) : RunState :=
  { s with audits := s.audits ++ [started], clock, transaction := {} }

/-- The journal of a run that got past its first entry. -/
theorem started_of_account {started : AuditEntry} {clock : Nat} {events : List CopyEvent}
    (hname : started.operation = "MigrationStarted")
    (h : Account (opened s started clock) s' events) : Started s s' := by
  obtain ⟨more, hmore⟩ := h.audits
  refine ⟨started, ?_, hname⟩
  rw [← hmore]
  show started ∈ List.drop s.audits.length ((s.audits ++ [started]) ++ more)
  rw [List.append_assoc, List.drop_left]
  exact List.mem_append_left _ (List.mem_singleton_self _)

/-- An entry of the journal is written, or a failing call was made. -/
theorem log_entry (operation target : String) (status : AuditStatus) (details : String)
    (s : RunState) :
    Act.wp (log fate operation target status details)
      (fun _ s' => ∃ entry : AuditEntry, entry.operation = operation ∧
        s' = { s.tick with audits := s.audits ++ [entry] })
      (fun _ s' => s' = s.tick) s := by
  unfold log call
  rw [Act.wp_of]
  cases fate.faults s.clock with
  | some f => rfl
  | none => exact ⟨_, rfl, rfl⟩

/-- The run from the first entry of the journal on. -/
theorem started_honest (contents : FileIdentity → SourceNode) (plan : MigrationPlan)
    (validated : ValidatedMigration) {started : AuditEntry} {clock : Nat}
    (hname : started.operation = "MigrationStarted") :
    Act.wp (Act.rescue (operation fate H contents plan validated) (afterError fate plan))
      (fun receipt s' => ∃ events,
        Honest H (selectedTexts H fate contents plan validated) s s' (.ok receipt) events)
      (fun error s' => ∃ events,
        Honest H (selectedTexts H fate contents plan validated) s s' (.error error) events)
      (opened s started clock) := by
  have hstart : Account (opened s started clock) (opened s started clock) [] :=
    ⟨(List.append_nil _).symm, (List.append_nil _).symm, List.prefix_refl _, .nil, rfl, rfl,
      le_refl _⟩
  rw [Act.wp_rescue]
  refine Act.wp_mono (operation_account contents plan validated hstart) ?_ ?_
  · intro receipt s' hrun
    obtain ⟨events, hfinished, hreceipt⟩ := hrun
    refine ⟨events, hfinished.happened, hfinished.progress, ?_, hfinished.stopped.first,
      hfinished.tallied, hfinished.tallied.monotone, hfinished.final, ?_⟩
    · exact ⟨reports events, [], (List.append_nil _).symm, hfinished.stopped.begun, .inl rfl,
        iff_of_false (fun h => h rfl) fun h => h.2⟩
    · intro receipt' hok
      cases hok
      exact ⟨hfinished.complete, hfinished.everything, hreceipt⟩
  · intro error s₁ hrun
    obtain ⟨events₁, hstopped⟩ := hrun
    refine Act.wp_mono (afterError_account plan error hstopped) (fun _ _ hfalse => hfalse.elim) ?_
    intro error' s' hrun
    obtain ⟨events, hrolled⟩ := hrun
    refine ⟨events, hrolled.happened, hrolled.progress, ?_, hrolled.first, hrolled.tallied,
      hrolled.tallied.monotone, hrolled.final, nofun⟩
    obtain ⟨main, p, hreports, hbegun, hphase⟩ := hrolled.order
    exact ⟨main, [p], hreports, hbegun, .inr ⟨p, rfl, hphase⟩,
      iff_of_true (List.cons_ne_nil p []) ⟨started_of_account hname hrolled.toAccount, trivial⟩⟩

/-- **Migration progress is an honest trace.** In every run the reports are in their order, over the
files of the selected roots in turn, up to where the run stopped; a rollback is reported last, and
exactly when the run was started and failed; each report counts the files verified and the bytes of
the chunks written before it, and the last one gives the numbers of the receipt. -/
theorem progress_is_honest (H : CopyHost) (fate : Fate) (F : Forest)
    (contents : FileIdentity → SourceNode) (plan : MigrationPlan) (s : RunState) :
    ∃ events, Honest H (filesToCopy H fate F contents plan) s
      (executeMigrationWithCancel fate H F contents plan s).2
      (executeMigrationWithCancel fate H F contents plan s).1 events := by
  refine Act.wp_run (R := fun r s' =>
    ∃ events, Honest H (filesToCopy H fate F contents plan) s s' r events) ?_
  have hguard : Act.wp (acquireOperationGuard fate) (fun _ s' => s' = s) (fun _ s' => s' = s) s := by
    unfold acquireOperationGuard
    cases fate.guard with
    | none => exact (Act.wp_ret ()).mpr rfl
    | some text => exact (Act.wp_fail _).mpr rfl
  rw [executeMigrationWithCancel, Act.wp_bind]
  refine Act.wp_mono hguard ?_ fun error s' hs => ?_
  · intro _ s' hs
    subst hs
    rw [Act.wp_bind, Act.wp_ofExcept]
    cases hvalid : validateForExecution H.toMigrationHost F plan with
    | error error => exact ⟨[], .silent rfl rfl rfl⟩
    | ok validated =>
      have hfiles : filesToCopy H fate F contents plan
          = selectedTexts H fate contents plan validated := by
        rw [filesToCopy, hvalid]
      rw [hfiles]
      dsimp only
      rw [Act.wp_bind]
      refine Act.wp_mono (log_entry _ _ _ _ s') ?_ fun error s₁ hs₁ => ?_
      · intro _ s₁ hs₁
        obtain ⟨started, hname, rfl⟩ := hs₁
        rw [Act.wp_bind, setTransaction, Act.wp_update]
        exact started_honest contents plan validated hname
      · subst hs₁
        exact ⟨[], .silent rfl rfl rfl⟩
  · subst hs
    exact ⟨[], .silent rfl rfl rfl⟩

end Honest

end WinProfile.Migration
