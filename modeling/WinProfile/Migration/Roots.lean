/-
  File:      WinProfile/Migration/Roots.lean
  Subject:   core-profiles/src/migration.rs: the checks before a migration copies anything, and
             which overlaps of source and destination they see.

  * `validateForExecution`, `validateOpenedRoots` -- the checks, in their order; `admitPlan` runs
    both around the creation of the target.
  * `overlap_rejected_iff` -- every overlap of the real directories is rejected exactly when the
    drive of the destination does not start strictly inside the source.
  * `nested_drive_accepted` -- a drive that does is accepted.
-/
import WinProfile.Migration.Paths
import WinProfile.Win32.SecureFs

namespace WinProfile

/-! ## 1. The checks -/

/-- What the checks ask of the computer, besides its directories. -/
structure MigrationHost where
  /-- `str::to_lowercase`. -/
  lower : String → String
  /-- `open_key` under HKEY_USERS. -/
  openUsersKey : String → Except RegistryError Unit

/-- Go on if the condition holds. -/
def require (c : Bool) (error : MigrationError) : Except MigrationError Unit :=
  if c then .ok () else .error error

/-- `Option::ok_or_else`. -/
def okOr {α : Type} (o : Option α) (error : MigrationError) : Except MigrationError α :=
  match o with
  | some a => .ok a
  | none => .error error

/-- The key name that `ensure_source_offline` asks for. -/
def offlineSid (sourceSid : String) : String :=
  trim ((stripBack BAK_EXTENSION sourceSid).getD sourceSid)

/-- `ensure_source_offline`. -/
def ensureSourceOffline (H : MigrationHost) (sourceSid : String) : Except MigrationError Unit :=
  let canonicalSid := offlineSid sourceSid
  if canonicalSid = "" ∨ '\\' ∈ canonicalSid.toList ∨ '/' ∈ canonicalSid.toList then
    .error (.invalidPlan "source SID is invalid")
  else match H.openUsersKey canonicalSid with
    | .ok () => .error (.sourceLoaded canonicalSid)
    | .error error =>
      if error = .win32Error ERROR_FILE_NOT_FOUND then .ok ()
      else .error (.security ("failed to verify whether source profile is loaded: " ++ error.text))

/-- `map_secure_error`. -/
def mapSecureError : SecureFsError → MigrationError
  | .reparsePoint path => .reparsePoint path
  | .alreadyExists path => .destinationExists path
  | other => .security other.text

/-- `map_source_root_error`. -/
def mapSourceRootError (source : Wide) : SecureFsError → MigrationError
  | .notFound _ => .sourceNotFound (display source)
  | other => mapSecureError other

/-- The error of a destination parent that does not open. -/
def mapTargetParentError (parent : Wide) : SecureFsError → MigrationError
  | .notFound _ => .invalidPlan ("destination parent does not exist: " ++ display parent)
  | other => mapSecureError other

/-- `ValidatedMigration`. -/
structure ValidatedMigration where
  sourcePath : Wide
  targetPath : Wide
  sourceDirectory : SecureDirectory
  targetParent : SecureDirectory
  targetLeaf : Wide

section Checks

variable (H : MigrationHost) (F : Forest)

/-- `validate_for_execution`. -/
def validateForExecution (plan : MigrationPlan) : Except MigrationError ValidatedMigration := do
  require (!isBlank plan.sourceSid) (.invalidPlan "source SID is empty")
  require (plan.includeRoamingAppdata || plan.includePersonalFolders)
    (.invalidPlan "at least one migration scope must be selected")
  let source ← releaseAbsolutePath (encodeWide plan.sourcePath) "source"
  let target ← releaseAbsolutePath (encodeWide plan.targetPath) "destination"
  require (!pathsOverlap H.lower source target)
    (.invalidPlan "source and destination directories must not overlap")
  ensureSourceOffline H plan.sourceSid
  let sourceDirectory ← (openAbsoluteExisting F source).mapError (mapSourceRootError source)
  let parentPath ← okOr (WinPath.parent target)
    (.invalidPlan "destination must have an existing parent")
  let leaf ← okOr (WinPath.fileName target)
    (.invalidPlan "destination must include a final folder name")
  validateWindowsComponent leaf "destination folder name"
  let targetParent ← (openAbsoluteExisting F parentPath).mapError (mapTargetParentError parentPath)
  require (!targetParent.isWithin sourceDirectory)
    (.invalidPlan "destination parent is inside the source directory")
  let kind ← (childKind F targetParent leaf).mapError mapSecureError
  require kind.isNone (.destinationExists (display target))
  pure ⟨source, target, sourceDirectory, targetParent, leaf⟩

/-- `validate_opened_roots`. -/
def validateOpenedRoots (source target : SecureDirectory) : Except MigrationError Unit :=
  require (!source.overlaps target)
    (.invalidPlan "opened source and destination directory handles overlap")

/-- The start of a migration up to the first file: the plan is validated, the target is created
under its parent, and the opened roots are compared. `fresh` is the identity of the new
directory. -/
def admitPlan (plan : MigrationPlan) (fresh : FileIdentity) :
    Except MigrationError (ValidatedMigration × SecureDirectory) := do
  let validated ← validateForExecution H F plan
  let target := validated.targetParent.below fresh
    (WinPath.join validated.targetParent.displayPath validated.targetLeaf)
  validateOpenedRoots validated.sourceDirectory target
  pure (validated, target)

/-! ## 2. What a validated plan has passed -/

/-- The plan passes every check but the one for a destination inside the source. -/
structure Admissible (plan : MigrationPlan) (v : ValidatedMigration) : Prop where
  sid : isBlank plan.sourceSid = false
  scope : (plan.includeRoamingAppdata || plan.includePersonalFolders) = true
  source : releaseAbsolutePath (encodeWide plan.sourcePath) "source" = .ok v.sourcePath
  target : releaseAbsolutePath (encodeWide plan.targetPath) "destination" = .ok v.targetPath
  distinct : pathsOverlap H.lower v.sourcePath v.targetPath = false
  offline : ensureSourceOffline H plan.sourceSid = .ok ()
  opened : openAbsoluteExisting F v.sourcePath = .ok v.sourceDirectory
  parent : ∃ parentPath, WinPath.parent v.targetPath = some parentPath ∧
    openAbsoluteExisting F parentPath = .ok v.targetParent
  leaf : WinPath.fileName v.targetPath = some v.targetLeaf
  named : validateWindowsComponent v.targetLeaf "destination folder name" = .ok ()
  free : childKind F v.targetParent v.targetLeaf = .ok none

end Checks

section Spec

variable {H : MigrationHost} {F : Forest} {plan : MigrationPlan} {v : ValidatedMigration}

theorem require_ok {c : Bool} {error : MigrationError} (h : require c error = .ok ()) : c = true := by
  unfold require at h
  split at h
  · next hc => exact hc
  · cases h

theorem okOr_ok {α : Type} {o : Option α} {error : MigrationError} {a : α}
    (h : okOr o error = .ok a) : o = some a := by
  cases o with
  | none => cases h
  | some b =>
    cases h
    rfl

theorem bind_ok {ε α β : Type} {x : Except ε α} {f : α → Except ε β} {b : β}
    (h : (x >>= f) = .ok b) : ∃ a, x = .ok a ∧ f a = .ok b := by
  cases x with
  | error e => cases h
  | ok a => exact ⟨a, rfl, h⟩

theorem mapError_ok {ε ε' α : Type} {x : Except ε α} {f : ε → ε'} {a : α}
    (h : x.mapError f = .ok a) : x = .ok a := by
  cases x with
  | error e => cases h
  | ok b =>
    cases h
    rfl

/-- **A validated plan** passed every check. -/
theorem validateForExecution_ok (h : validateForExecution H F plan = .ok v) :
    Admissible H F plan v ∧ v.targetParent.isWithin v.sourceDirectory = false := by
  unfold validateForExecution at h
  obtain ⟨_, hsid, h⟩ := bind_ok h
  obtain ⟨_, hscope, h⟩ := bind_ok h
  obtain ⟨source, hsource, h⟩ := bind_ok h
  obtain ⟨target, htarget, h⟩ := bind_ok h
  obtain ⟨_, hdistinct, h⟩ := bind_ok h
  obtain ⟨_, hoffline, h⟩ := bind_ok h
  obtain ⟨sourceDirectory, hopened, h⟩ := bind_ok h
  obtain ⟨parentPath, hparent, h⟩ := bind_ok h
  obtain ⟨leaf, hleaf, h⟩ := bind_ok h
  obtain ⟨_, hnamed, h⟩ := bind_ok h
  obtain ⟨targetParent, hopen, h⟩ := bind_ok h
  obtain ⟨_, hwithin, h⟩ := bind_ok h
  obtain ⟨kind, hkind, h⟩ := bind_ok h
  obtain ⟨_, hnone, h⟩ := bind_ok h
  cases h
  have hfree : kind = none := by simpa using require_ok hnone
  refine ⟨⟨by simpa using require_ok hsid, require_ok hscope, hsource, htarget,
    by simpa using require_ok hdistinct, hoffline, mapError_ok hopened,
    ⟨parentPath, okOr_ok hparent, mapError_ok hopen⟩, okOr_ok hleaf, hnamed, ?_⟩,
    by simpa using require_ok hwithin⟩
  rw [mapError_ok hkind, hfree]

/-- And one that passes them is validated. -/
theorem validateForExecution_of_admissible (h : Admissible H F plan v)
    (hwithin : v.targetParent.isWithin v.sourceDirectory = false) :
    validateForExecution H F plan = .ok v := by
  obtain ⟨parentPath, hparent, hopen⟩ := h.parent
  simp [validateForExecution, require, okOr, Except.mapError, bind, Except.bind, pure, Except.pure,
    h.sid, h.scope, h.source, h.target, h.distinct, h.offline, h.opened, hparent, h.leaf, h.named,
    hopen, hwithin, h.free]

/-! ## 3. Overlaps of the real directories -/

/-- No drive and no name leads to the directory. -/
structure IsNew (F : Forest) (fresh : FileIdentity) : Prop where
  drive : ∀ letter, F.drive letter ≠ some fresh
  child : ∀ d name, F.child d name ≠ some (.directory fresh)

/-- The plan is stopped before a file is copied. -/
def Rejected (H : MigrationHost) (F : Forest) (plan : MigrationPlan) (fresh : FileIdentity) : Prop :=
  ∃ error, admitPlan H F plan fresh = .error error

/-- The plan is rejected if the target would lie in the source, and if the target is the source or
a directory above it, whatever the drives stand for. A target without a parent is the root of a
drive. -/
def OverlapRejected (H : MigrationHost) (F : Forest) (plan : MigrationPlan) (fresh : FileIdentity) :
    Prop :=
  ∀ source target, releaseAbsolutePath (encodeWide plan.sourcePath) "source" = .ok source →
    releaseAbsolutePath (encodeWide plan.targetPath) "destination" = .ok target →
    ∀ S, F.realDirectory source = some S →
      (WinPath.parent target = none → Rejected H F plan fresh) ∧
      ∀ parentPath P, WinPath.parent target = some parentPath →
        F.realDirectory parentPath = some P →
        (F.Above S P → Rejected H F plan fresh) ∧
        ∀ leaf T, WinPath.fileName target = some leaf → F.child P leaf = some (.directory T) →
          F.Above T S → Rejected H F plan fresh

/-- The drive of the destination starts strictly inside the source. -/
def DriveInsideSource (F : Forest) (v : ValidatedMigration) : Prop :=
  ∃ parentPath r, WinPath.parent v.targetPath = some parentPath ∧
    F.driveRoot parentPath = some r ∧ F.Above v.sourceDirectory.handle r ∧
    v.sourceDirectory.handle ≠ r

variable {fresh : FileIdentity} {r : FileIdentity} {dir : SecureDirectory}

/-- A destination under a drive that starts at the source or above it shows the source. -/
theorem isWithin_of_above (hchain : ChainFrom F r v.targetParent)
    (habove : F.Above v.sourceDirectory.handle v.targetParent.handle)
    (hroot : F.Above v.sourceDirectory.handle r → v.sourceDirectory.handle = r) :
    v.targetParent.isWithin v.sourceDirectory = true := by
  rw [SecureDirectory.isWithin_iff, hchain]
  refine ⟨?_, habove⟩
  rcases hchain.above.total habove with h | h
  · exact h
  · rw [hroot h]
    exact .rfl' r

/-- A directory above the start of the drive is not among what was collected. -/
theorem not_mem_of_above {x : FileIdentity} (hchain : ChainFrom F r dir) (habove : F.Above x r)
    (hne : x ≠ r) : x ∉ dir.ancestry := by
  intro hmem
  exact hne (habove.antisymm ((hchain x).mp hmem).1)

theorem walk_old {names : List Wide} {d : SecureDirectory} (hnew : IsNew F fresh)
    (h : walk F d names = .ok dir) (hd : fresh ∉ d.ancestry) : fresh ∉ dir.ancestry := by
  induction names generalizing d with
  | nil =>
    cases h
    exact hd
  | cons name names ih =>
    obtain ⟨next, hopen, h⟩ := bind_ok h
    obtain ⟨c, path, hc, rfl⟩ := openDirectory_ok hopen
    refine ih h fun hmem => ?_
    rcases List.mem_append.mp hmem with hmem | hmem
    · exact hd hmem
    · rw [List.mem_singleton.mp hmem] at hnew
      exact hnew.child _ _ hc

/-- What was opened was there before the target was created. -/
theorem openAbsoluteExisting_old {path : Wide} (hnew : IsNew F fresh)
    (h : openAbsoluteExisting F path = .ok dir) : fresh ∉ dir.ancestry := by
  obtain ⟨⟨root, names⟩, _, h⟩ := bind_ok h
  obtain ⟨start, hstart, h⟩ := bind_ok h
  refine walk_old hnew h ?_
  unfold openVolumeOrShareRoot at hstart
  split at hstart
  · cases hstart
  · next id hid =>
    obtain ⟨_, _, hstart⟩ := bind_ok hstart
    cases hstart
    intro hmem
    obtain ⟨letter, _, hletter⟩ := Option.bind_eq_some_iff.mp hid
    rw [← List.mem_singleton.mp hmem] at hletter
    exact hnew.drive _ hletter

/-- A plan whose drive starts strictly inside the source is not stopped. -/
theorem admitPlan_of_driveInside (hnew : IsNew F fresh) (h : Admissible H F plan v)
    (hinside : DriveInsideSource F v) : ∃ target, admitPlan H F plan fresh = .ok (v, target) := by
  obtain ⟨parentPath, r, hparent, hroot, habove, hne⟩ := hinside
  obtain ⟨parentPath', hparent', hopen⟩ := h.parent
  obtain rfl : parentPath = parentPath' := Option.some.inj (hparent.symm.trans hparent')
  obtain ⟨r', hroot', _, hchain⟩ := openAbsoluteExisting_ok hopen
  obtain rfl : r = r' := Option.some.inj (hroot.symm.trans hroot')
  have hfar : v.sourceDirectory.handle ∉ v.targetParent.ancestry :=
    not_mem_of_above hchain habove hne
  have hwithin : v.targetParent.isWithin v.sourceDirectory = false := by
    rw [Bool.eq_false_iff, Ne, SecureDirectory.isWithin_iff]
    exact hfar
  have hsource : fresh ∉ v.sourceDirectory.ancestry := openAbsoluteExisting_old hnew h.opened
  let target := v.targetParent.below fresh (WinPath.join v.targetParent.displayPath v.targetLeaf)
  have hoverlap : v.sourceDirectory.overlaps target = false := by
    rw [Bool.eq_false_iff, Ne, SecureDirectory.overlaps_iff]
    rintro (hmem | hmem)
    · rcases List.mem_append.mp hmem with hmem | hmem
      · exact hfar hmem
      · rw [← List.mem_singleton.mp hmem] at hsource
        exact hsource v.sourceDirectory.handle_mem
    · exact hsource hmem
  refine ⟨target, ?_⟩
  simp only [admitPlan, validateForExecution_of_admissible h hwithin, validateOpenedRoots, require,
    bind, Except.bind, pure, Except.pure]
  rw [show v.sourceDirectory.overlaps (v.targetParent.below fresh
    (WinPath.join v.targetParent.displayPath v.targetLeaf)) = false from hoverlap]
  rfl

/-- What is known of a plan that is not stopped. -/
theorem admissible_of_not_rejected (h : ¬ Rejected H F plan fresh) : ∃ v,
    Admissible H F plan v ∧ v.targetParent.isWithin v.sourceDirectory = false := by
  cases hadmit : admitPlan H F plan fresh with
  | error e => exact absurd ⟨e, hadmit⟩ h
  | ok result =>
    obtain ⟨v, hv, _⟩ := bind_ok hadmit
    exact ⟨v, validateForExecution_ok hv⟩

theorem childKind_free {name : Wide} (h : childKind F dir name = .ok none) :
    F.child dir.handle name = none := by
  obtain ⟨path, _, h⟩ := bind_ok h
  obtain ⟨_, _, h⟩ := bind_ok h
  cases hc : F.child dir.handle name with
  | none => rfl
  | some c =>
    rw [hc] at h
    cases c with
    | file => cases h
    | reparse => cases h
    | directory id =>
      obtain ⟨_, _, h⟩ := bind_ok h
      cases h

/-- **When overlapping directories are rejected**: for every plan, on every computer, an overlap of
the real directories stops it exactly when it is not a plan that passes all other checks and
whose destination drive starts strictly inside the source. -/
theorem overlap_rejected_iff (H : MigrationHost) (F : Forest) (plan : MigrationPlan)
    (fresh : FileIdentity) (hnew : IsNew F fresh) :
    OverlapRejected H F plan fresh ↔ ∀ v, Admissible H F plan v → ¬ DriveInsideSource F v := by
  constructor
  · intro hall v hv hinside
    obtain ⟨parentPath, hparent, hopen⟩ := hv.parent
    obtain ⟨r, hroot, hreal, hchain⟩ := openAbsoluteExisting_ok hopen
    obtain ⟨_, _, hsource, _⟩ := openAbsoluteExisting_ok hv.opened
    obtain ⟨parentPath', r', hparent', hroot', habove, hne⟩ := hinside
    obtain rfl : parentPath' = parentPath := Option.some.inj (hparent'.symm.trans hparent)
    obtain rfl : r' = r := Option.some.inj (hroot'.symm.trans hroot)
    have hstop := ((hall _ _ hv.source hv.target _ hsource).2 _ _ hparent hreal).1
      (habove.trans hchain.above)
    obtain ⟨e, he⟩ := hstop
    obtain ⟨target, hok⟩ :=
      admitPlan_of_driveInside hnew hv ⟨parentPath', r', hparent, hroot, habove, hne⟩
    rw [he] at hok
    cases hok
  · intro hcond source target hs ht S hS
    have hpassed : ¬ Rejected H F plan fresh → ∃ v, Admissible H F plan v ∧
        v.targetParent.isWithin v.sourceDirectory = false ∧ v.targetPath = target ∧
        v.sourceDirectory.handle = S := by
      intro hne
      obtain ⟨v, hv, hwithin⟩ := admissible_of_not_rejected hne
      have hsource : v.sourcePath = source := Except.ok.inj (hv.source.symm.trans hs)
      obtain ⟨_, _, hreal, _⟩ := openAbsoluteExisting_ok hv.opened
      rw [hsource, hS] at hreal
      exact ⟨v, hv, hwithin, Except.ok.inj (hv.target.symm.trans ht), (Option.some.inj hreal).symm⟩
    refine ⟨fun hnone => ?_, fun parentPath P hparent hP => ⟨fun habove => ?_, ?_⟩⟩
    · by_contra hne
      obtain ⟨v, hv, _, rfl, _⟩ := hpassed hne
      obtain ⟨parentPath, hparent, _⟩ := hv.parent
      rw [hnone] at hparent
      cases hparent
    · by_contra hne
      obtain ⟨v, hv, hwithin, rfl, rfl⟩ := hpassed hne
      obtain ⟨parentPath', hparent', hopen⟩ := hv.parent
      obtain rfl : parentPath = parentPath' := Option.some.inj (hparent.symm.trans hparent')
      obtain ⟨r, hroot, hreal, hchain⟩ := openAbsoluteExisting_ok hopen
      obtain rfl : P = v.targetParent.handle := Option.some.inj (hP.symm.trans hreal)
      have hin := isWithin_of_above hchain habove fun hr => by
        by_contra hne'
        exact hcond v hv ⟨parentPath, r, hparent, hroot, hr, hne'⟩
      rw [hwithin] at hin
      cases hin
    · intro leaf T hleaf hT _
      by_contra hne
      obtain ⟨v, hv, _, rfl, rfl⟩ := hpassed hne
      obtain ⟨parentPath', hparent', hopen⟩ := hv.parent
      obtain rfl : parentPath = parentPath' := Option.some.inj (hparent.symm.trans hparent')
      obtain ⟨_, _, hreal, _⟩ := openAbsoluteExisting_ok hopen
      obtain rfl : P = v.targetParent.handle := Option.some.inj (hP.symm.trans hreal)
      obtain rfl : leaf = v.targetLeaf := Option.some.inj (hleaf.symm.trans hv.leaf)
      rw [childKind_free hv.free] at hT
      cases hT

end Spec

/-! ## 4. A drive inside the source -/

def sampleRoot : FileIdentity := ⟨1, 5⟩
def sampleSource : FileIdentity := ⟨1, 10⟩
def sampleInner : FileIdentity := ⟨1, 11⟩

/-- `C:\src\in`, with `S:` standing for `C:\src` and `D:` for `C:\src\in`. -/
def sampleForest : Forest where
  child d name :=
    if d = sampleRoot ∧ name = encodeWide "src" then some (.directory sampleSource)
    else if d = sampleSource ∧ name = encodeWide "in" then some (.directory sampleInner)
    else none
  parent d :=
    if d = sampleSource then some sampleRoot
    else if d = sampleInner then some sampleSource
    else none
  depth d := if d = sampleInner then 2 else if d = sampleSource then 1 else 0
  drive letter :=
    if letter = 0x43 then some sampleRoot
    else if letter = 0x53 then some sampleSource
    else if letter = 0x44 then some sampleInner
    else none
  denied _ := none
  parent_child {d n c} h := by
    split at h
    · next hd =>
      cases h
      rw [hd.1]
      decide
    · split at h
      · next hd =>
        cases h
        rw [hd.1]
        decide
      · cases h
  depth_parent {c d} h := by
    split at h
    · next hc =>
      cases h
      rw [hc]
      decide
    · split at h
      · next hc =>
        cases h
        rw [hc]
        decide
      · cases h

def sampleHost : MigrationHost where
  lower := String.toLower
  openUsersKey _ := .error (.win32Error ERROR_FILE_NOT_FOUND)

def sampleMigration (target : String) : MigrationPlan where
  sourceSid := "S-1-5-21-1001"
  sourcePath := "C:\\src"
  targetPath := target
  includeRoamingAppdata := false
  includePersonalFolders := true

def sampleFresh : FileIdentity := ⟨1, 99⟩

theorem sampleFresh_new : IsNew sampleForest sampleFresh where
  drive letter h := by
    simp only [sampleForest] at h
    split at h
    · exact absurd h (by decide)
    · split at h
      · exact absurd h (by decide)
      · split at h
        · exact absurd h (by decide)
        · cases h
  child d name h := by
    simp only [sampleForest] at h
    split at h
    · exact absurd h (by decide)
    · split at h
      · exact absurd h (by decide)
      · cases h

theorem rejected_iff {H : MigrationHost} {F : Forest} {plan : MigrationPlan} {fresh : FileIdentity} :
    Rejected H F plan fresh ↔ (admitPlan H F plan fresh).toBool = false := by
  unfold Rejected
  cases admitPlan H F plan fresh <;> simp [Except.toBool]

/-- The drive `S:` stands for the source itself, and the overlap is seen. -/
theorem overlap_rejected_iff_sample :
    Rejected sampleHost sampleForest (sampleMigration "S:\\copy") sampleFresh ∧
    (OverlapRejected sampleHost sampleForest (sampleMigration "S:\\copy") sampleFresh ↔
      ∀ v, Admissible sampleHost sampleForest (sampleMigration "S:\\copy") v →
        ¬ DriveInsideSource sampleForest v) := by
  refine ⟨rejected_iff.mpr ?_, overlap_rejected_iff _ _ _ _ sampleFresh_new⟩
  decide +kernel

/-- **A drive inside the source is accepted**: `D:` stands for a directory in `C:\src`, so that the
target `D:\copy` lies in the source `C:\src`, and the plan passes every check. -/
theorem nested_drive_accepted :
    sampleForest.realDirectory (encodeWide "C:\\src") = some sampleSource ∧
    sampleForest.realDirectory (encodeWide "D:\\") = some sampleInner ∧
    sampleForest.Above sampleSource sampleInner ∧
    ¬ Rejected sampleHost sampleForest (sampleMigration "D:\\copy") sampleFresh ∧
    ¬ OverlapRejected sampleHost sampleForest (sampleMigration "D:\\copy") sampleFresh := by
  have hsource : sampleForest.realDirectory (encodeWide "C:\\src") = some sampleSource := by
    decide +kernel
  have hparent : sampleForest.realDirectory (encodeWide "D:\\") = some sampleInner := by
    decide +kernel
  have habove : sampleForest.Above sampleSource sampleInner := .of_parent (by decide)
  have haccepted : ¬ Rejected sampleHost sampleForest (sampleMigration "D:\\copy") sampleFresh := by
    rw [rejected_iff]
    decide +kernel
  refine ⟨hsource, hparent, habove, haccepted, fun hall => haccepted ?_⟩
  have hplan := hall (encodeWide "C:\\src") (encodeWide "D:\\copy") (by decide +kernel)
    (by decide +kernel) sampleSource hsource
  exact (hplan.2 (encodeWide "D:\\") sampleInner (by decide +kernel) hparent).1 habove

end WinProfile
