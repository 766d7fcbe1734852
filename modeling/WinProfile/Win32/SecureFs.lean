/-
  File:      WinProfile/Win32/SecureFs.lean
  Subject:   platform-win32/src/secure_fs.rs: directories that are opened one component at a time
             from a drive root, and the identities collected on the way down.

  * `Forest` -- the real directories, each known by its identity, with their parents; a drive
    letter may stand for any of them, as a SUBST drive does.
  * `openAbsolute` -- the walk; `SecureDirectory` carries the identities from the drive root on.
  * `openAbsoluteExisting_steady` -- a name is written behind the path of an opened directory.
  * `mem_ancestry_iff` -- these are the directories between the drive root and the opened one,
    and no others: what lies above the drive root is not there.
-/
import WinProfile.Lib.Pieces
import WinProfile.Win32.Registry

namespace WinProfile

/-! ## 1. Errors -/

/-- `SecureFsError`; the error of the operating system is its text. -/
inductive SecureFsError where
  | invalidPath (path : String)
  | notFound (path : String)
  | alreadyExists (path : String)
  | reparsePoint (path : String)
  | io (operation path source : String)
  | native (operation path status : String)
  | rollback (operationError rollbackError : String)
  deriving DecidableEq, Repr

/-- The `Display` text. -/
def SecureFsError.text : SecureFsError → String
  | .invalidPath path => "invalid absolute filesystem path: " ++ path
  | .notFound path => "filesystem entry was not found: " ++ path
  | .alreadyExists path => "filesystem entry already exists: " ++ path
  | .reparsePoint path => "reparse point refused on opened object: " ++ path
  | .io operation path source =>
    "Windows filesystem operation '" ++ operation ++ "' failed for " ++ path ++ ": " ++ source
  | .native operation path status =>
    "native filesystem operation '" ++ operation ++ "' failed for " ++ path ++ ": NTSTATUS " ++
      status
  | .rollback operationError rollbackError =>
    "secure filesystem rollback failed after '" ++ operationError ++ "': " ++ rollbackError

/-! ## 2. Real directories -/

/-- What a name stands for in a directory. -/
inductive Child where
  | file
  | directory (id : FileIdentity)
  | reparse
  deriving DecidableEq, Repr

/-- `SecureEntryKind`. -/
inductive SecureEntryKind where
  | file | directory
  deriving DecidableEq, Repr

/-- `SecureDirEntry`. -/
structure SecureDirEntry where
  name : Wide
  kind : SecureEntryKind
  deriving DecidableEq, Repr

/-- The directories of a computer. A directory has one parent, and none lies above itself. -/
structure Forest where
  /-- The lookup of a name, without case, in the directory. -/
  child : FileIdentity → Wide → Option Child
  parent : FileIdentity → Option FileIdentity
  depth : FileIdentity → Nat
  /-- The directory that a drive letter stands for. -/
  drive : UInt16 → Option FileIdentity
  /-- What an open of the directory fails with, if it does. -/
  denied : FileIdentity → Option String
  parent_child : ∀ {d n c}, child d n = some (.directory c) → parent c = some d
  depth_parent : ∀ {c d}, parent c = some d → depth d < depth c

namespace Forest

variable {F : Forest}

/-- `a` is `b` or lies above it. -/
def Above (F : Forest) (a b : FileIdentity) : Prop :=
  Relation.ReflTransGen (fun c p => F.parent c = some p) b a

theorem Above.rfl' (a : FileIdentity) : F.Above a a := Relation.ReflTransGen.refl

theorem Above.trans {a b c : FileIdentity} (h : F.Above a b) (h' : F.Above b c) : F.Above a c :=
  Relation.ReflTransGen.trans h' h

theorem Above.of_parent {p c : FileIdentity} (h : F.parent c = some p) : F.Above p c := .single h

theorem Above.depth_le {a b : FileIdentity} (h : F.Above a b) : F.depth a ≤ F.depth b := by
  induction h with
  | refl => exact le_refl _
  | tail _ hp ih => exact (F.depth_parent hp).le.trans ih

theorem Above.eq_or_lt {a b : FileIdentity} (h : F.Above a b) :
    a = b ∨ F.depth a < F.depth b := by
  cases h with
  | refl => exact .inl rfl
  | tail h hp =>
    have hle : F.depth _ ≤ F.depth b := Above.depth_le h
    exact .inr ((F.depth_parent hp).trans_le hle)

theorem Above.antisymm {a b : FileIdentity} (h : F.Above a b) (h' : F.Above b a) : a = b := by
  rcases h.eq_or_lt with rfl | hlt
  · rfl
  · exact absurd h'.depth_le (by omega)

/-- Two directories above the same one are comparable. -/
theorem Above.total {a b c : FileIdentity} (h : F.Above a c) (h' : F.Above b c) :
    F.Above a b ∨ F.Above b a := by
  have huniq : Relator.RightUnique fun c p => F.parent c = some p := by
    intro c p q hp hq
    exact Option.some.inj (hp.symm.trans hq)
  exact (Relation.ReflTransGen.total_of_right_unique huniq h' h)

end Forest

/-! ## 3. Opened directories -/

/-- `SecureDirectory`: the opened object, and the identities from the drive root down to it. -/
structure SecureDirectory where
  handle : FileIdentity
  displayPath : Wide
  ancestry : List FileIdentity
  identity : ancestry.getLast? = some handle

/-- `Path::display` as a string. -/
def display (path : Wide) : String := toStringLossy path

/-- The key that `SecureDirectory::entries` sorts by; `lower` is `str::to_lowercase`. -/
def entryKey (lower : String → String) (name : Wide) : String := lower (toStringLossy name)

/-- The sort at the end of `SecureDirectory::entries`; entries with one key stay in the order of the
enumeration. -/
def sortByKey {α : Type} (lower : String → String) (name : α → Wide) (entries : List α) : List α :=
  entries.insertionSort fun a b => entryKey lower (name a) ≤ entryKey lower (name b)

theorem sortByKey_perm {α : Type} (lower : String → String) (name : α → Wide) (entries : List α) :
    (sortByKey lower name entries).Perm entries := List.perm_insertionSort _ entries

/-- `validate_component`. -/
def validateComponent (name displayPath : Wide) : Except SecureFsError Unit :=
  match WinPath.components name with
  | [.normal _] =>
    if name = [] || name.contains WinPath.colon then .error (.invalidPath (display displayPath))
    else .ok ()
  | _ => .error (.invalidPath (display displayPath))

/-- A name that is admitted has no prefix and no root. -/
theorem validateComponent_unrooted {name path : Wide} (h : validateComponent name path = .ok ()) :
    WinPath.Unrooted name := by
  unfold validateComponent at h
  split at h
  · next only hcomponents =>
    split at h
    · cases h
    · next hgood =>
      rw [Bool.or_eq_true, decide_eq_true_eq, List.contains_iff_mem, not_or] at hgood
      refine ⟨hgood.1, fun u hu => ?_, WinPath.isDrive_eq_false hgood.2⟩
      by_contra hsep
      obtain ⟨rest, hrest⟩ := List.head?_eq_some_iff.mp hu
      rw [hrest] at hcomponents
      exact WinPath.components_sep (by simpa using hsep) rest only hcomponents
  · cases h

/-- `child_display_path`. -/
def childDisplayPath (parent name : Wide) : Except SecureFsError Wide := do
  validateComponent name (WinPath.join parent name)
  pure (WinPath.join parent name)

/-- The checks of `nt_open_relative` before the call: the name and its length in bytes. -/
def checkRelativeName (name path : Wide) : Except SecureFsError Unit := do
  validateComponent name path
  if 2 * name.length < 2 ^ 16 then pure () else .error (.invalidPath (display path))

section Opening

variable (F : Forest)

/-- An open of the directory itself. -/
def openHandle (id : FileIdentity) (path : Wide) : Except SecureFsError Unit :=
  match F.denied id with
  | some status => .error (.native "open relative to directory handle" (display path) status)
  | none => .ok ()

/-- The directory one level down, once it is open. -/
def SecureDirectory.below (dir : SecureDirectory) (id : FileIdentity) (path : Wide) :
    SecureDirectory where
  handle := id
  displayPath := path
  ancestry := dir.ancestry ++ [id]
  identity := by simp

/-- `SecureDirectory::open_directory`. -/
def openDirectory (dir : SecureDirectory) (name : Wide) : Except SecureFsError SecureDirectory := do
  let path ← childDisplayPath dir.displayPath name
  checkRelativeName name path
  match F.child dir.handle name with
  | none => .error (.notFound (display path))
  | some .file => .error (.invalidPath (display path))
  | some .reparse => .error (.reparsePoint (display path))
  | some (.directory id) => do
    openHandle F id path
    pure (dir.below id path)

/-- `SecureDirectory::child_kind`. -/
def childKind (dir : SecureDirectory) (name : Wide) :
    Except SecureFsError (Option SecureEntryKind) := do
  let path ← childDisplayPath dir.displayPath name
  checkRelativeName name path
  match F.child dir.handle name with
  | none => pure none
  | some .file => pure (some .file)
  | some .reparse => .error (.reparsePoint (display path))
  | some (.directory id) => do
    openHandle F id path
    pure (some .directory)

/-- `split_absolute`: the drive root and the names after it. -/
def splitAbsolute (path : Wide) : Except SecureFsError (Wide × List Wide) :=
  match WinPath.components path with
  | .drive _ text :: .rootDir :: rest =>
    match rest.mapM fun c => match c with
      | .normal name => some name
      | _ => none with
    | some names => .ok (text ++ [WinPath.backslash], names)
    | none => .error (.invalidPath (display path))
  | _ => .error (.invalidPath (display path))

/-- `open_volume_or_share_root`. -/
def openVolumeOrShareRoot (path : Wide) : Except SecureFsError SecureDirectory :=
  match path.head?.bind F.drive with
  | none => .error (.io "open volume or share root" (display path) "path not found")
  | some id => do
    openHandle F id path
    pure { handle := id, displayPath := path, ancestry := [id], identity := rfl }

/-- The loop of `open_absolute`, nothing being created. -/
def walk : SecureDirectory → List Wide → Except SecureFsError SecureDirectory
  | dir, [] => .ok dir
  | dir, name :: names => do
    let next ← openDirectory F dir name
    walk next names

/-- `SecureDirectory::open_absolute_existing`. -/
def openAbsoluteExisting (path : Wide) : Except SecureFsError SecureDirectory := do
  let (root, names) ← splitAbsolute path
  let dir ← openVolumeOrShareRoot F root
  walk F dir names

end Opening

/-- `SecureDirectory::is_within`. -/
def SecureDirectory.isWithin (dir ancestor : SecureDirectory) : Bool :=
  (ancestor.ancestry.getLast?.map dir.ancestry.contains).getD false

/-- `SecureDirectory::overlaps`. -/
def SecureDirectory.overlaps (dir other : SecureDirectory) : Bool :=
  (dir.ancestry.getLast?.map other.ancestry.contains).getD false ||
    (other.ancestry.getLast?.map dir.ancestry.contains).getD false

theorem SecureDirectory.isWithin_iff (dir ancestor : SecureDirectory) :
    dir.isWithin ancestor ↔ ancestor.handle ∈ dir.ancestry := by
  simp [isWithin, ancestor.identity]

theorem SecureDirectory.overlaps_iff (dir other : SecureDirectory) :
    dir.overlaps other ↔ dir.handle ∈ other.ancestry ∨ other.handle ∈ dir.ancestry := by
  simp [overlaps, dir.identity, other.identity]

/-! ## 4. What the walk collects -/

/-- The directory reached in the real tree. -/
def Forest.descend (F : Forest) : FileIdentity → List Wide → Option FileIdentity
  | d, [] => some d
  | d, name :: names => match F.child d name with
    | some (.directory c) => F.descend c names
    | _ => none

/-- The root of the drive of a path. -/
def Forest.driveRoot (F : Forest) (path : Wide) : Option FileIdentity :=
  match splitAbsolute path with
  | .ok (root, _) => root.head?.bind F.drive
  | .error _ => none

/-- The real directory that a path stands for. -/
def Forest.realDirectory (F : Forest) (path : Wide) : Option FileIdentity :=
  match splitAbsolute path with
  | .ok (root, names) => (root.head?.bind F.drive).bind fun d => F.descend d names
  | .error _ => none

section Chain

variable {F : Forest} {r : FileIdentity} {dir dir' : SecureDirectory}

/-- The ancestry is everything from `r` down to the opened directory. -/
def ChainFrom (F : Forest) (r : FileIdentity) (dir : SecureDirectory) : Prop :=
  ∀ x, x ∈ dir.ancestry ↔ F.Above r x ∧ F.Above x dir.handle

theorem SecureDirectory.handle_mem (dir : SecureDirectory) : dir.handle ∈ dir.ancestry :=
  List.mem_of_getLast? dir.identity

theorem ChainFrom.above (h : ChainFrom F r dir) : F.Above r dir.handle :=
  ((h _).mp dir.handle_mem).1

theorem ChainFrom.start (hhandle : dir.handle = r) (hanc : dir.ancestry = [r]) :
    ChainFrom F r dir := by
  intro x
  rw [hanc, List.mem_singleton, hhandle]
  constructor
  · rintro rfl
    exact ⟨.rfl' _, .rfl' _⟩
  · intro h
    exact (h.1.antisymm h.2).symm

theorem ChainFrom.below {c : FileIdentity} (h : ChainFrom F r dir)
    (hparent : F.parent c = some dir.handle) (path : Wide) : ChainFrom F r (dir.below c path) := by
  have hdown : F.Above dir.handle c := .of_parent hparent
  intro x
  show x ∈ dir.ancestry ++ [c] ↔ F.Above r x ∧ F.Above x c
  rw [List.mem_append, List.mem_singleton, h x]
  constructor
  · rintro (⟨hr, hx⟩ | rfl)
    · exact ⟨hr, hx.trans hdown⟩
    · exact ⟨h.above.trans hdown, .rfl' _⟩
  · rintro ⟨hr, hx⟩
    rcases Relation.ReflTransGen.cases_head hx with rfl | ⟨p, hp, hrest⟩
    · exact .inr rfl
    · obtain rfl : dir.handle = p := Option.some.inj (hparent.symm.trans hp)
      exact .inl ⟨hr, hrest⟩

theorem openDirectory_ok {name : Wide} (h : openDirectory F dir name = .ok dir') :
    ∃ c path, F.child dir.handle name = some (.directory c) ∧ dir' = dir.below c path := by
  simp only [openDirectory, bind, Except.bind] at h
  split at h
  · cases h
  · split at h
    · cases h
    · split at h
      · cases h
      · cases h
      · cases h
      · next c hc =>
        split at h
        · cases h
        · cases h
          exact ⟨c, _, hc, rfl⟩

theorem walk_ok {names : List Wide} (h : walk F dir names = .ok dir') (hchain : ChainFrom F r dir) :
    F.descend dir.handle names = some dir'.handle ∧ ChainFrom F r dir' := by
  induction names generalizing dir with
  | nil =>
    cases h
    exact ⟨rfl, hchain⟩
  | cons name names ih =>
    simp only [walk, bind, Except.bind] at h
    split at h
    · cases h
    · next next hopen =>
      obtain ⟨c, path, hc, rfl⟩ := openDirectory_ok hopen
      have hstep := ih h (hchain.below (F.parent_child hc) path)
      refine ⟨?_, hstep.2⟩
      rw [Forest.descend, hc]
      exact hstep.1

/-- **What an opened path collects**: it stands for its real directory, and its ancestry is what
lies between the root of its drive and that directory. -/
theorem openAbsoluteExisting_ok {path : Wide} (h : openAbsoluteExisting F path = .ok dir) :
    ∃ r, F.driveRoot path = some r ∧ F.realDirectory path = some dir.handle ∧
      ChainFrom F r dir := by
  simp only [openAbsoluteExisting, bind, Except.bind] at h
  split at h
  · cases h
  · next split_ hsplit =>
    obtain ⟨root, names⟩ := split_
    split at h
    · cases h
    · next start hstart =>
      simp only [openVolumeOrShareRoot, bind, Except.bind] at hstart
      split at hstart
      · cases hstart
      · next id hid =>
        split at hstart
        · cases hstart
        · cases hstart
          obtain ⟨hreal, hchain⟩ := walk_ok h (.start rfl rfl)
          refine ⟨id, ?_, ?_, hchain⟩
          · simpa [Forest.driveRoot, hsplit] using hid
          · have hid' : (root.head?.bind F.drive) = some id := hid
            simpa [Forest.realDirectory, hsplit, hid'] using hreal

end Chain

/-! ## 5. The path of an opened directory -/

section Path

variable {F : Forest} {dir dir' : SecureDirectory}

theorem openDirectory_path {name : Wide} (h : openDirectory F dir name = .ok dir') :
    WinPath.Unrooted name ∧ dir'.displayPath = WinPath.join dir.displayPath name := by
  unfold openDirectory childDisplayPath at h
  cases hv : validateComponent name (WinPath.join dir.displayPath name) with
  | error e =>
    rw [hv] at h
    cases h
  | ok _ =>
    refine ⟨validateComponent_unrooted hv, ?_⟩
    rw [hv] at h
    simp only [bind, Except.bind, pure, Except.pure] at h
    split at h
    · cases h
    · split at h
      · cases h
      · cases h
      · cases h
      · split at h
        · cases h
        · cases h
          rfl

theorem walk_steady : ∀ {names : List Wide} {dir : SecureDirectory},
    WinPath.Steady dir.displayPath → walk F dir names = .ok dir' → WinPath.Steady dir'.displayPath
  | [], _, hdir, h => by
    cases h
    exact hdir
  | name :: names, dir, hdir, h => by
    simp only [walk, bind, Except.bind] at h
    split at h
    · cases h
    · next next hopen =>
      obtain ⟨hname, hpath⟩ := openDirectory_path hopen
      exact walk_steady (hpath ▸ hdir.join hname) h

/-- Names are written behind the path of a directory that is opened on a drive. -/
theorem openAbsoluteExisting_steady {letter : UInt16} (hletter : WinPath.isAsciiLetter letter = true)
    {rest : Wide}
    (h : openAbsoluteExisting F (letter :: WinPath.colon :: WinPath.backslash :: rest) = .ok dir) :
    WinPath.Steady dir.displayPath := by
  simp only [openAbsoluteExisting, splitAbsolute, WinPath.components_drive hletter, bind,
    Except.bind] at h
  split at h
  · cases h
  · next found hfound =>
    split at hfound
    · cases hfound
      split at h
      · cases h
      · next start hstart =>
        refine walk_steady ?_ h
        simp only [openVolumeOrShareRoot, bind, Except.bind] at hstart
        split at hstart
        · cases hstart
        · split at hstart <;> cases hstart
          exact WinPath.steady_drive hletter []
    · cases hfound

end Path

end WinProfile
