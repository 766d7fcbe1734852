/-
  File:      WinProfile/Snapshot/Store.lean
  Subject:   audit-journal/src/storage.rs, the part that works on the files of one directory with
             handles: `open_file`, `create_file`, `CreatedStorageFile`, `remove_file_if_exists`.

  * `Host` -- what the operating system decides: the comparison of names, the order in which a
    directory is enumerated, time stamps, SHA-256.
  * `Store` -- the directory: its files with the handles open on them. A call that fails changes
    nothing; a deletion marks the file, and the last handle that closes takes it away.
  * `Host.reopens` -- `entries` opens the directory again by its path, beside the handles that the
    engine keeps: a storage root that was made here keeps the right to delete, which is not shared.
  * `removalFailed` is for observation only: some removal since the start of a call went wrong.
-/
import WinProfile.Legacy.Record
import WinProfile.Lib.Handles
import WinProfile.Win32.SecureFs

namespace WinProfile.Snapshot

open Handles
open Legacy (storageText hexStatus)

/-! ## 1. Access masks and statuses -/

def FILE_READ_DATA : UInt32 := 0x1
def FILE_WRITE_DATA : UInt32 := 0x2
def FILE_APPEND_DATA : UInt32 := 0x4
def FILE_EXECUTE : UInt32 := 0x20
def FILE_READ_ATTRIBUTES : UInt32 := 0x80
def DELETE : UInt32 := 0x10000
def SYNCHRONIZE : UInt32 := 0x100000
def FILE_GENERIC_READ : UInt32 := 0x120089
def FILE_GENERIC_WRITE : UInt32 := 0x120116

def FILE_LIST_DIRECTORY : UInt32 := 0x1
def FILE_TRAVERSE : UInt32 := 0x20
def READ_CONTROL : UInt32 := 0x20000

def FILE_SHARE_READ : UInt32 := 0x1
def FILE_SHARE_WRITE : UInt32 := 0x2
def FILE_SHARE_DELETE : UInt32 := 0x4

def DIRECTORY_ACCESS : UInt32 :=
  FILE_LIST_DIRECTORY ||| FILE_TRAVERSE ||| FILE_READ_ATTRIBUTES ||| READ_CONTROL ||| SYNCHRONIZE
def DIRECTORY_SHARES : UInt32 := FILE_SHARE_READ ||| FILE_SHARE_WRITE

/-- What secure_fs.rs opens a directory with. -/
def DIRECTORY_READ_ACCESS : UInt32 :=
  FILE_LIST_DIRECTORY ||| FILE_TRAVERSE ||| FILE_READ_ATTRIBUTES ||| SYNCHRONIZE
def PINNED_DIRECTORY_SHARES : UInt32 := FILE_SHARE_READ ||| FILE_SHARE_WRITE

def STATUS_SHARING_VIOLATION : Int := -1073741757
def STATUS_DELETE_PENDING : Int := -1073741738
def STATUS_FILE_IS_A_DIRECTORY : Int := -1073741638

/-- The rights of an access mask that the sharing rule looks at. -/
def accessRights (access : UInt32) : Rights where
  read := access &&& (FILE_READ_DATA ||| FILE_EXECUTE) != 0
  write := access &&& (FILE_WRITE_DATA ||| FILE_APPEND_DATA) != 0
  delete := access &&& DELETE != 0

/-- The rights that a share mode lets others have. -/
def shareRights (share : UInt32) : Rights where
  read := share &&& FILE_SHARE_READ != 0
  write := share &&& FILE_SHARE_WRITE != 0
  delete := share &&& FILE_SHARE_DELETE != 0

/-! ## 2. The directory -/

/-- What the operating system decides. -/
structure Host where
  /-- The upcase table that file names are compared with. -/
  up : UInt16 → UInt16
  /-- `std::process::id()`. -/
  processId : Nat
  /-- The path of the directory. -/
  directory : Wide
  /-- The time in the format of snapshot names. -/
  stamp : Int → String
  /-- SHA-256 in lower-case hexadecimal. -/
  sha256 : Bytes → String
  /-- The order in which the directory is enumerated. -/
  arrange : List Wide → List Wide
  arrange_perm : ∀ names, (arrange names).Perm names
  /-- `str::to_lowercase`. -/
  lower : String → String
  /-- The storage root was made by `create_protected_child`, and not found by
  `open_existing_under`: its handle, which the engine keeps, may delete. -/
  rootCreated : Bool := false

def Host.fold (H : Host) (name : Wide) : List UInt16 := name.map H.up

/-- The attributes that `validate_kind` and the enumeration look at. -/
inductive StoredKind where
  | file | directory | reparsePoint
  deriving DecidableEq, Repr

structure StoredFile where
  kind : StoredKind
  content : Bytes
  identity : FileIdentity
  deriving DecidableEq, Repr

/-- The directory, and the counter of the snapshots of this process. -/
structure Store (H : Host) where
  files : NameTable H.fold (SharedFile StoredFile)
  /-- `SNAPSHOT_SEQUENCE`. -/
  sequence : Nat := 0
  /-- The number of calls made by the current operation. -/
  clock : Nat := 0
  /-- Observation only: a removal of the current operation has failed. -/
  removalFailed : Bool := false

variable {H : Host} {α : Type}

namespace Store

def tick (s : Store H) : Store H := { s with clock := s.clock + 1 }

def setFiles (s : Store H) (files : NameTable H.fold (SharedFile StoredFile)) : Store H :=
  { s with files }

def setFile (s : Store H) (name : Wide) (f : SharedFile StoredFile) : Store H :=
  s.setFiles (s.files.put name f)

/-- `CloseHandle`. -/
def close (s : Store H) (name : Wide) (handle : Nat) : Store H :=
  match s.files.find name with
  | none => s
  | some f => match f.closed handle with
    | some rest => s.setFile name rest
    | none => s.setFiles (s.files.erase name)

@[simp] theorem tick_files (s : Store H) : s.tick.files = s.files := rfl
@[simp] theorem tick_removalFailed (s : Store H) : s.tick.removalFailed = s.removalFailed := rfl
@[simp] theorem setFiles_files (s : Store H) (t : NameTable H.fold (SharedFile StoredFile)) :
    (s.setFiles t).files = t := rfl
@[simp] theorem setFiles_removalFailed (s : Store H)
    (t : NameTable H.fold (SharedFile StoredFile)) :
    (s.setFiles t).removalFailed = s.removalFailed := rfl
@[simp] theorem setFile_files (s : Store H) (name : Wide) (f : SharedFile StoredFile) :
    (s.setFile name f).files = s.files.put name f := rfl
@[simp] theorem setFile_removalFailed (s : Store H) (name : Wide) (f : SharedFile StoredFile) :
    (s.setFile name f).removalFailed = s.removalFailed := rfl

@[simp] theorem close_removalFailed (s : Store H) (name : Wide) (handle : Nat) :
    (s.close name handle).removalFailed = s.removalFailed := by
  unfold close
  split
  · rfl
  · split <;> rfl

/-- A file that stays after one of its handles closes. -/
theorem close_stays {s : Store H} {name : Wide} {handle : Nat} {f rest : SharedFile StoredFile}
    (h : s.files.find name = some f) (hr : f.closed handle = some rest) :
    (s.close name handle).files = s.files.put name rest := by
  simp only [close, h, hr, setFile_files]

/-- A file that goes with its last handle. -/
theorem close_goes {s : Store H} {name : Wide} {handle : Nat} {f : SharedFile StoredFile}
    (h : s.files.find name = some f) (hr : f.closed handle = none) :
    (s.close name handle).files = s.files.erase name := by
  simp only [close, h, hr, setFiles_files]

end Store

/-! ## 3. Calls -/

/-- `Path::display` of a child. -/
def Host.pathText (H : Host) (name : Wide) : String := display (WinPath.join H.directory name)

/-- `validate_component`. -/
def validateComponent (name : Wide) : Except StorageError Unit :=
  let text := toStringLossy name
  if text = "" ∨ text = "." ∨ text = ".." ∨ '\\' ∈ text.toList ∨ '/' ∈ text.toList ∨
      ':' ∈ text.toList ∨ Char.ofNat 0 ∈ text.toList then .error (.invalidComponent text)
  else .ok ()

/-- The checks of `nt_open_relative` before the call: the name and its length in bytes. -/
def checkName (name : Wide) : Except StorageError Unit := do
  validateComponent name
  if 2 * name.length < 2 ^ 16 then pure () else .error (.invalidComponent (toStringLossy name))

/-- One storage call. -/
def storageCall (faults : Faults) (body : Act (Store H) StorageError α) :
    Act (Store H) StorageError α := fun s =>
  match faults s.clock with
  | some f => (.error f.error, s.tick)
  | none => body s.tick

/-- What `NtCreateFile` answers with one of its statuses. -/
def nativeError (H : Host) (name : Wide) (status : Int) : StorageError :=
  .native "open relative storage object" (H.pathText name) status

/-- `NtCreateFile` with `FILE_OPEN` and `FILE_NON_DIRECTORY_FILE` on a file that is there. -/
def openShared (name : Wide) (access share : UInt32) (f : SharedFile StoredFile) :
    Act (Store H) StorageError Nat := .of fun s =>
  if f.body.kind = .directory then (.error (nativeError H name STATUS_FILE_IS_A_DIRECTORY), s)
  else if f.doomed then (.error (nativeError H name STATUS_DELETE_PENDING), s)
  else if f.admits (accessRights access) (shareRights share) then
    (.ok f.freshNumber, s.setFile name (f.opened (accessRights access) (shareRights share)))
  else (.error (nativeError H name STATUS_SHARING_VIOLATION), s)

/-- `nt_open_relative` with `FILE_OPEN`: the number of the handle. -/
def ntOpen (faults : Faults) (name : Wide) (access share : UInt32) :
    Act (Store H) StorageError Nat := do
  Act.ofExcept (checkName name)
  storageCall faults <| .of fun s => match s.files.find name with
    | none => (.error (.missing (H.pathText name)), s)
    | some f => openShared name access share f s

/-- What `FILE_CREATE` makes. -/
def newFile (identity : FileIdentity) : SharedFile StoredFile where
  body := { kind := .file, content := [], identity }

/-- `nt_open_relative` with `FILE_CREATE`: the number of the handle. -/
def ntCreate (faults : Faults) (identity : FileIdentity) (name : Wide) (access share : UInt32) :
    Act (Store H) StorageError Nat := do
  Act.ofExcept (checkName name)
  storageCall faults <| .of fun s => match s.files.find name with
    | some _ => (.error (.taken (H.pathText name)), s)
    | none =>
      (.ok (newFile identity).freshNumber, s.setFile name
        ((newFile identity).opened (accessRights access) (shareRights share)))

/-- `validate_kind` of a file that is open. -/
def validateKind (faults : Faults) (name : Wide) : Act (Store H) StorageError Unit :=
  storageCall faults <| .of fun s => match s.files.find name with
    | none =>
      (.error (.io "validate storage object by handle" (H.pathText name)
        "The handle is invalid. (os error 6)"), s)
    | some f => match f.body.kind with
      | .file => (.ok (), s)
      | .reparsePoint =>
        (.error (.legacyStorageInsecure (H.pathText name ++ ": reparse points are forbidden")), s)
      | .directory =>
        (.error (.legacyStorageInsecure
          (H.pathText name ++ ": storage object has the wrong type")), s)

/-- A failure of this removal is remembered. -/
def removal (m : Act (Store H) StorageError α) : Act (Store H) StorageError α := fun s =>
  match m s with
  | (.ok a, s') => (.ok a, s')
  | (.error e, s') => (.error e, { s' with removalFailed := true })

/-- `delete_by_handle` and `delete_open_file`; the handle needs the right to delete. -/
def deleteByHandle (faults : Faults) (operation : String) (name : Wide) (handle : Nat) :
    Act (Store H) StorageError Unit :=
  removal (storageCall faults <| .of fun s =>
    match s.files.find name with
    | none => (.error (.io operation (H.pathText name) "The handle is invalid. (os error 6)"), s)
    | some f =>
      if ((f.handle handle).map (·.access.delete)).getD false then (.ok (), s.setFile name f.marked)
      else (.error (.io operation (H.pathText name) "Access is denied. (os error 5)"), s))

/-- `StorageHandle::duplicate`. -/
def duplicate (faults : Faults) (name : Wide) (handle : Nat) : Act (Store H) StorageError Nat :=
  storageCall faults <| .of fun s =>
    match (s.files.find name).bind fun f => (f.handle handle).map fun h => (f, h) with
    | none =>
      (.error (.io "duplicate created file handle" (H.pathText name)
        "The handle is invalid. (os error 6)"), s)
    | some (f, h) => (.ok f.freshNumber, s.setFile name (f.opened h.access h.share))

/-! ## 4. Files -/

/-- `StorageDirectory::open_file`. -/
def openFile (faults : Faults) (name : Wide) (access share : UInt32) :
    Act (Store H) StorageError Nat := do
  Act.ofExcept (validateComponent name)  -- child_path
  let handle ← ntOpen faults name (access ||| SYNCHRONIZE) share
  Act.rescue (validateKind faults name) fun error =>
    Act.ensuring (Act.fail error) fun s => s.close name handle
  pure handle

/-- `CreatedStorageFile`: the file and the handle that removes it. -/
structure CreatedStorageFile where
  name : Wide
  file : Nat
  cleanupHandle : Nat

/-- What `create_file` does after an error on the file that it has just created. -/
def discardCreated (faults : Faults) (name : Wide) (handle : Nat) (error : StorageError)
    (report : Bool) : Act (Store H) StorageError α :=
  Act.ensuring
    (Act.rescue (deleteByHandle faults "delete storage object by handle" name handle)
      (fun cleanupError =>
        if report then Act.fail (.cleanupFailed (storageText error) (storageText cleanupError))
        else Act.ret ()) >>= fun _ => Act.fail error)
    fun s => s.close name handle

/-- `StorageDirectory::create_file`. -/
def createFile (faults : Faults) (identity : FileIdentity) (name : Wide) (share : UInt32) :
    Act (Store H) StorageError CreatedStorageFile := do
  Act.ofExcept (validateComponent name)  -- child_path
  let handle ← ntCreate faults identity name
    (FILE_GENERIC_READ ||| FILE_GENERIC_WRITE ||| DELETE ||| SYNCHRONIZE) share
  Act.rescue (validateKind faults name) fun error => discardCreated faults name handle error false
  let cleanupHandle ← Act.rescue (duplicate faults name handle) fun error =>
    discardCreated faults name handle error true
  pure { name, file := handle, cleanupHandle }

/-- `CreatedStorageFile::commit`, and the drop of the file. -/
def CreatedStorageFile.commit (created : CreatedStorageFile) (s : Store H) : Store H :=
  (s.close created.name created.cleanupHandle).close created.name created.file

/-- `CreatedStorageFile::rollback`. -/
def CreatedStorageFile.rollback (faults : Faults) (created : CreatedStorageFile) :
    Act (Store H) StorageError Unit :=
  Act.ensuring (deleteByHandle faults "delete storage object by handle" created.name
    created.cleanupHandle) created.commit

/-- `StorageDirectory::remove_file_if_exists`. -/
def removeFileIfExists (faults : Faults) (name : Wide) : Act (Store H) StorageError Bool :=
  removal do
    Act.ofExcept (validateComponent name)  -- child_path
    match ← Act.attempt (ntOpen faults name (DELETE ||| FILE_READ_ATTRIBUTES ||| SYNCHRONIZE) 0) with
    | .error error => if error.isNotFound then pure false else Act.fail error
    | .ok handle =>
      Act.ensuring (do
        validateKind faults name
        deleteByHandle faults "delete storage object by handle" name handle
        pure true) fun s => s.close name handle

/-- A directory of the path, with the handle that the engine keeps on it. -/
def keptDirectory (access : UInt32) : SharedFile Unit where
  body := ()
  handles := [⟨1, accessRights access, shareRights DIRECTORY_SHARES⟩]

/-- The access that `StorageRoot` keeps on the product directory. -/
def Host.rootAccess (H : Host) : UInt32 :=
  if H.rootCreated then DIRECTORY_ACCESS ||| DELETE else DIRECTORY_ACCESS

/-- The sharing rule lets the storage root and the directory be opened again. -/
def Host.reopens (H : Host) : Bool :=
  [H.rootAccess, DIRECTORY_ACCESS].all fun access =>
    (keptDirectory access).admits (accessRights DIRECTORY_READ_ACCESS)
      (shareRights PINNED_DIRECTORY_SHARES)

/-- `SecureDirectory::open_absolute_existing` on the path of the directory; the storage root comes
first. -/
def openAbsoluteExisting (faults : Faults) : Act (Store H) StorageError Unit :=
  storageCall faults <| .of fun s =>
    if H.reopens then (.ok (), s)
    else
      (.error (.secureFs (SecureFsError.native "open relative to directory handle"
        (display ((WinPath.parent H.directory).getD []))
        (hexStatus STATUS_SHARING_VIOLATION)).text), s)

/-- `StorageDirectory::entries`: the directory is opened again, every entry is looked at, and the
names are sorted by a key. -/
def entries (faults : Faults) : Act (Store H) StorageError (List Wide) := do
  openAbsoluteExisting faults
  storageCall faults <| .of fun s =>
    let listed := H.arrange (s.files.entries.map Prod.fst)
    match listed.find? fun name =>
        (s.files.find name).map (·.body.kind) == some .reparsePoint with
    | some name => (.error (.secureFs (SecureFsError.reparsePoint (H.pathText name)).text), s)
    | none => (.ok (sortByKey H.lower id listed), s)

/-! ## 5. What the calls do -/

/-- Neither the files and their handles nor the record of failed removals have changed. -/
structure Same (s s' : Store H) : Prop where
  files : s'.files = s.files
  removalFailed : s'.removalFailed = s.removalFailed

theorem Same.refl (s : Store H) : Same s s := ⟨rfl, rfl⟩

theorem Same.trans {s s' s'' : Store H} (h : Same s s') (h' : Same s' s'') : Same s s'' :=
  ⟨h'.files.trans h.files, h'.removalFailed.trans h.removalFailed⟩

theorem Same.tick (s : Store H) : Same s s.tick := ⟨rfl, rfl⟩

/-- The root of this process is what stands in the way. -/
theorem Host.reopens_iff (H : Host) : H.reopens = true ↔ H.rootCreated = false := by
  unfold reopens rootAccess
  cases H.rootCreated <;> decide

section Specs

variable {faults : Faults} {name : Wide} {access share : UInt32} {s : Store H}

/-- No call fails. -/
def Quiet {β : Type} (faults : Nat → Option β) : Prop := ∀ call, faults call = none

theorem not_quiet {β : Type} {faults : Nat → Option β} {call : Nat} {f : β}
    (h : faults call = some f) {p : Prop} (hquiet : Quiet faults) : p := by
  rw [hquiet call] at h
  cases h

theorem wp_storageCall {body : Act (Store H) StorageError α} {Q : α → Store H → Prop}
    {E : StorageError → Store H → Prop}
    (hfault : ∀ f : StorageFault, faults s.clock = some f → E f.error s.tick)
    (hbody : Act.wp body Q E s.tick) : Act.wp (storageCall faults body) Q E s := by
  cases h : faults s.clock with
  | some f => exact Act.wp_of_error (by simp only [storageCall, h]) (hfault f h)
  | none =>
    unfold Act.wp at hbody ⊢
    simpa only [storageCall, h] using hbody

/-- A removal that fails is remembered; it fails or does what it does without the record. -/
theorem wp_removal {m : Act (Store H) StorageError α} {Q : α → Store H → Prop}
    {E : StorageError → Store H → Prop}
    (h : Act.wp m Q (fun _ _ => True) s)
    (hE : ∀ e s', s'.removalFailed = true → E e s') : Act.wp (removal m) Q E s := by
  unfold Act.wp at h ⊢
  unfold removal
  rcases hm : m s with ⟨_ | _, s'⟩
  · exact hE _ _ rfl
  · simp only [hm] at h
    exact h

theorem validateComponent_notFound {e : StorageError} (h : validateComponent name = .error e) :
    e.isNotFound = false := by
  simp only [validateComponent] at h
  split at h
  · cases h
    rfl
  · cases h

theorem checkName_notFound {e : StorageError} (h : checkName name = .error e) :
    e.isNotFound = false := by
  unfold checkName at h
  cases hv : validateComponent name with
  | error e' =>
    rw [hv] at h
    cases h
    exact validateComponent_notFound hv
  | ok _ =>
    rw [hv] at h
    simp only [bind, Except.bind] at h
    split at h
    · cases h
    · cases h
      rfl

theorem wp_check {r : Except StorageError Unit} {Q : Unit → Store H → Prop}
    {E : StorageError → Store H → Prop} (hE : ∀ e, r = .error e → E e s)
    (hQ : r = .ok () → Q () s) : Act.wp (Act.ofExcept r) Q E s := by
  rw [Act.wp_ofExcept]
  cases h : r with
  | error e => exact hE e h
  | ok _ => exact hQ h

/-- The file of a name can be opened. -/
structure Ready (name : Wide) (access share : UInt32) (f : SharedFile StoredFile) (s : Store H) :
    Prop where
  named : checkName name = .ok ()
  found : s.files.find name = some f
  kind : f.body.kind = .file
  stays : f.doomed = false
  admitted : f.admits (accessRights access) (shareRights share) = true

/-- What a successful open has found and done. -/
structure Opened (name : Wide) (access share : UInt32) (f : SharedFile StoredFile) (s : Store H)
    (handle : Nat) (s' : Store H) : Prop where
  named : checkName name = .ok ()
  found : s.files.find name = some f
  stays : f.doomed = false
  admitted : f.admits (accessRights access) (shareRights share) = true
  number : handle = f.freshNumber
  files : s'.files = s.files.put name (f.opened (accessRights access) (shareRights share))
  removalFailed : s'.removalFailed = s.removalFailed

theorem Opened.find {f : SharedFile StoredFile} {handle : Nat} {s' : Store H}
    (h : Opened name access share f s handle s') :
    s'.files.find name = some (f.opened (accessRights access) (shareRights share)) := by
  rw [h.files, NameTable.find_put, if_pos rfl]

/-- Closing the handle of a successful open undoes it. -/
theorem Opened.close {f : SharedFile StoredFile} {handle : Nat} {s' : Store H}
    (h : Opened name access share f s handle s') : Same s (s'.close name handle) := by
  have hclosed : (f.opened (accessRights access) (shareRights share)).closed handle = some f := by
    rw [h.number]
    exact SharedFile.closed_opened f _ _ h.stays
  refine ⟨?_, (Store.close_removalFailed ..).trans h.removalFailed⟩
  rw [Store.close_stays h.find hclosed, h.files, NameTable.put_put, NameTable.put_find h.found]

/-- An open goes through on a file that is there, or changes nothing; it says that the name is not
there only when it is not, and without a failing call it opens a file that is ready. -/
theorem ntOpen_spec (faults : Faults) (name : Wide) (access share : UInt32) (s : Store H) :
    Act.wp (ntOpen faults name access share)
      (fun handle s' => ∃ f, Opened name access share f s handle s' ∧ f.body.kind ≠ .directory)
      (fun e s' => Same s s' ∧ (e.isNotFound = true → s.files.find name = none) ∧
        (Quiet faults → ∀ f, ¬ Ready name access share f s)) s := by
  rw [ntOpen, Act.wp_bind]
  refine wp_check (fun e hnamed => ⟨Same.refl s, fun h => ?_, fun _ f hready => ?_⟩) fun hnamed => ?_
  · rw [checkName_notFound hnamed] at h
    cases h
  · rw [hready.named] at hnamed
    cases hnamed
  refine wp_storageCall (fun f hf => ⟨Same.tick s, fun h => ?_, fun hq => not_quiet hf hq⟩) ?_
  · rw [f.real.1] at h
    cases h
  have hnative : ∀ {p : Prop} (status : Int), (status == STATUS_OBJECT_NAME_NOT_FOUND ||
      status == STATUS_OBJECT_PATH_NOT_FOUND) = false →
      (nativeError H name status).isNotFound = true → p := fun status hs h =>
    absurd (show (_ || _) = true from h) (by rw [hs]; exact Bool.false_ne_true)
  rw [Act.wp_of]
  cases hfind : s.files.find name with
  | none =>
    simp only [Store.tick_files, hfind]
    refine ⟨Same.tick s, fun _ => trivial, fun _ f hready => ?_⟩
    rw [hready.found] at hfind
    cases hfind
  | some f =>
    have hready : ∀ {g}, Ready name access share g s → Ready name access share f s := by
      intro g hg
      obtain rfl : g = f := Option.some.inj (hg.found.symm.trans hfind)
      exact hg
    simp only [Store.tick_files, hfind, openShared, Act.of]
    by_cases hkind : f.body.kind = .directory
    · simp only [if_pos hkind]
      refine ⟨Same.tick s, hnative STATUS_FILE_IS_A_DIRECTORY rfl, fun _ g hg => ?_⟩
      have hfile := (hready hg).kind
      rw [hkind] at hfile
      cases hfile
    simp only [if_neg hkind]
    cases hdoomed : f.doomed with
    | true =>
      refine ⟨Same.tick s, hnative STATUS_DELETE_PENDING rfl, fun _ g hg => ?_⟩
      have hstays := (hready hg).stays
      rw [hdoomed] at hstays
      cases hstays
    | false =>
      cases hadm : f.admits (accessRights access) (shareRights share) with
      | false =>
        refine ⟨Same.tick s, hnative STATUS_SHARING_VIOLATION rfl, fun _ g hg => ?_⟩
        have hadmitted := (hready hg).admitted
        rw [hadm] at hadmitted
        cases hadmitted
      | true => exact ⟨f, ⟨hnamed, hfind, hdoomed, hadm, rfl, rfl, rfl⟩, hkind⟩

theorem validateKind_spec (faults : Faults) (name : Wide) (s : Store H) :
    Act.wp (validateKind faults name)
      (fun _ s' => Same s s' ∧ ∃ f, s.files.find name = some f ∧ f.body.kind = .file)
      (fun e s' => Same s s' ∧ e.isNotFound = false ∧
        (Quiet faults → ∀ f, s.files.find name = some f → f.body.kind ≠ .file)) s := by
  refine wp_storageCall (fun f hf => ⟨Same.tick s, f.real.1, fun hq => not_quiet hf hq⟩) ?_
  rw [Act.wp_of]
  cases hfind : s.files.find name with
  | none =>
    simp only [Store.tick_files, hfind]
    exact ⟨Same.tick s, rfl, nofun⟩
  | some f =>
    cases hkind : f.body.kind with
    | file =>
      simp only [Store.tick_files, hfind, hkind]
      exact ⟨Same.tick s, f, rfl, hkind⟩
    | directory =>
      simp only [Store.tick_files, hfind, hkind]
      refine ⟨Same.tick s, rfl, fun _ g hg => ?_⟩
      cases hg
      rw [hkind]
      nofun
    | reparsePoint =>
      simp only [Store.tick_files, hfind, hkind]
      refine ⟨Same.tick s, rfl, fun _ g hg => ?_⟩
      cases hg
      rw [hkind]
      nofun

theorem Opened.of_same {f : SharedFile StoredFile} {handle : Nat} {s' s'' : Store H}
    (h : Opened name access share f s handle s') (hs : Same s' s'') :
    Opened name access share f s handle s'' where
  named := h.named
  found := h.found
  stays := h.stays
  admitted := h.admitted
  number := h.number
  files := hs.files.trans h.files
  removalFailed := hs.removalFailed.trans h.removalFailed

/-- **`open_file`** opens a file that is there, or changes nothing. -/
theorem openFile_spec (faults : Faults) (name : Wide) (access share : UInt32) (s : Store H) :
    Act.wp (openFile faults name access share)
      (fun handle s' => ∃ f, Opened name (access ||| SYNCHRONIZE) share f s handle s' ∧
        f.body.kind = .file)
      (fun e s' => Same s s' ∧ (e.isNotFound = true → s.files.find name = none) ∧
        (Quiet faults → ∀ f, ¬ Ready name (access ||| SYNCHRONIZE) share f s)) s := by
  rw [openFile, Act.wp_bind]
  refine wp_check (fun e hcomponent => ⟨Same.refl s, fun h => ?_, fun _ f hready => ?_⟩) fun _ => ?_
  · rw [validateComponent_notFound hcomponent] at h
    cases h
  · have hnamed := hready.named
    rw [checkName, hcomponent] at hnamed
    cases hnamed
  rw [Act.wp_bind]
  refine Act.wp_mono (ntOpen_spec faults name (access ||| SYNCHRONIZE) share s) ?_ fun _ _ h => h
  intro handle s₁ hrun
  obtain ⟨f, hopen, -⟩ := hrun
  rw [Act.wp_bind, Act.wp_rescue]
  refine Act.wp_mono (validateKind_spec faults name s₁) ?_ ?_
  · intro _ s₂ hrun
    obtain ⟨hsame, g, hg, hkind⟩ := hrun
    rw [hopen.find, Option.some.injEq] at hg
    subst hg
    exact (Act.wp_pure handle).mpr ⟨f, hopen.of_same hsame, hkind⟩
  · intro e s₂ hrun
    obtain ⟨hsame, he, hquiet⟩ := hrun
    rw [Act.wp_ensuring, Act.wp_fail]
    refine ⟨(hopen.of_same hsame).close, fun h => ?_, fun hq g hready => ?_⟩
    · rw [he] at h
      cases h
    · obtain rfl : g = f := Option.some.inj (hready.found.symm.trans hopen.found)
      exact hquiet hq _ hopen.find hready.kind

/-- A deletion through a handle with that right marks the file. -/
theorem deleteByHandle_spec (faults : Faults) (operation : String) {name : Wide} {handle : Nat}
    {f : SharedFile StoredFile} {h : OpenHandle} (hfind : s.files.find name = some f)
    (hhandle : f.handle handle = some h) (hdelete : h.access.delete = true) :
    Act.wp (deleteByHandle faults operation name handle)
      (fun _ s' => s'.files = s.files.put name f.marked ∧ s'.removalFailed = s.removalFailed)
      (fun _ s' => s'.removalFailed = true) s := by
  refine wp_removal (wp_storageCall (fun _ _ => trivial) ?_) fun _ _ hr => hr
  rw [Act.wp_of]
  simp only [Store.tick_files, hfind, hhandle, Option.map_some, hdelete, Option.getD_some, if_true]
  exact ⟨rfl, rfl⟩

/-- A removal that has failed stays so. -/
theorem deleteByHandle_failed (faults : Faults) (operation : String) (name : Wide) (handle : Nat)
    (h : s.removalFailed = true) :
    Act.wp (deleteByHandle faults operation name handle)
      (fun _ s' => s'.removalFailed = true) (fun _ s' => s'.removalFailed = true) s := by
  refine wp_removal (wp_storageCall (fun _ _ => trivial) ?_) fun _ _ hr => hr
  rw [Act.wp_of]
  cases hfind : s.files.find name with
  | none =>
    simp only [Store.tick_files, hfind]
  | some f =>
    cases hright : ((f.handle handle).map (·.access.delete)).getD false with
    | true =>
      simp only [Store.tick_files, hfind, hright, if_true]
      exact h
    | false =>
      simp only [Store.tick_files, hfind, hright, Bool.false_eq_true, if_false]

/-- A file that the current operation has made: its name was free, and no one else has it open. -/
structure Added (name : Wide) (f : SharedFile StoredFile)
    (before : NameTable H.fold (SharedFile StoredFile)) (s : Store H) : Prop where
  free : before.find name = none
  files : s.files = before.put name f

theorem Added.find {f : SharedFile StoredFile} {before : NameTable H.fold (SharedFile StoredFile)}
    (h : Added name f before s) : s.files.find name = some f := by
  rw [h.files, NameTable.find_put, if_pos rfl]

/-- **`remove_file_if_exists`** takes away a file that no one has open. -/
theorem removeFileIfExists_spec (faults : Faults) {f : SharedFile StoredFile}
    {before : NameTable H.fold (SharedFile StoredFile)} (h : Added name f before s)
    (hclosed : f.handles = []) :
    Act.wp (removeFileIfExists faults name)
      (fun _ s' => s'.files = before ∧ s'.removalFailed = s.removalFailed)
      (fun _ s' => s'.removalFailed = true) s := by
  refine wp_removal ?_ fun _ _ hr => hr
  rw [Act.wp_bind]
  refine wp_check (fun _ _ => trivial) fun _ => ?_
  rw [Act.wp_bind, Act.wp_attempt]
  refine Act.wp_mono (ntOpen_spec faults name _ 0 s) ?_ ?_
  · intro handle s₁ hrun
    obtain ⟨g, hopen, -⟩ := hrun
    obtain rfl : g = f := Option.some.inj (hopen.found.symm.trans h.find)
    simp only [Act.wp_ensuring, Act.wp_bind]
    refine Act.wp_mono (validateKind_spec faults name s₁) ?_ fun _ _ _ => trivial
    intro _ s₂ hrun
    obtain ⟨hsame, -⟩ := hrun
    have hopen₂ := hopen.of_same hsame
    have hhandle := SharedFile.handle_opened g
      (accessRights (DELETE ||| FILE_READ_ATTRIBUTES ||| SYNCHRONIZE)) (shareRights 0)
    rw [← hopen.number] at hhandle
    rw [Act.wp_bind]
    refine Act.wp_mono (deleteByHandle_spec faults _ hopen₂.find hhandle rfl) ?_
      fun _ _ _ => trivial
    intro _ s₃ hrun
    obtain ⟨hfiles, hremoval⟩ := hrun
    rw [Act.wp_pure]
    have hlast : (g.opened (accessRights (DELETE ||| FILE_READ_ATTRIBUTES ||| SYNCHRONIZE))
        (shareRights 0)).handles = [⟨handle, accessRights (DELETE ||| FILE_READ_ATTRIBUTES |||
          SYNCHRONIZE), shareRights 0⟩] := by
      rw [SharedFile.opened, hclosed, hopen.number]
    have hgone := SharedFile.closed_marked hlast
    refine ⟨?_, ?_⟩
    · rw [Store.close_goes (by rw [hfiles, NameTable.find_put, if_pos rfl]) hgone, hfiles,
        hopen₂.files, h.files, NameTable.put_put, NameTable.put_put, NameTable.erase_put h.free]
    · rw [Store.close_removalFailed, hremoval, hopen₂.removalFailed]
  · intro e s₁ hrun
    obtain ⟨hsame, hmissing, -⟩ := hrun
    have hno : e.isNotFound = false := by
      cases he : e.isNotFound with
      | false => rfl
      | true =>
        have := hmissing he
        rw [h.find] at this
        cases this
    simp only [hno, Bool.false_eq_true, if_false, Act.wp_fail]

/-- **`remove_file_if_exists`** on a name that is free. -/
theorem removeFileIfExists_free (faults : Faults) (h : s.files.find name = none) :
    Act.wp (removeFileIfExists faults name) (fun _ s' => Same s s')
      (fun _ s' => s'.removalFailed = true) s := by
  refine wp_removal ?_ fun _ _ hr => hr
  rw [Act.wp_bind]
  refine wp_check (fun _ _ => trivial) fun _ => ?_
  rw [Act.wp_bind, Act.wp_attempt]
  refine Act.wp_mono (ntOpen_spec faults name _ 0 s) ?_ ?_
  · intro handle s₁ hrun
    obtain ⟨g, hopen, -⟩ := hrun
    have := hopen.found
    rw [h] at this
    cases this
  · intro e s₁ hrun
    obtain ⟨hsame, -⟩ := hrun
    cases he : e.isNotFound with
    | true => simpa only [he, if_true, Act.wp_pure] using hsame
    | false => simp only [he, Bool.false_eq_true, if_false, Act.wp_fail]

/-- The access of `create_file`. -/
def createAccess : Rights :=
  accessRights (FILE_GENERIC_READ ||| FILE_GENERIC_WRITE ||| DELETE ||| SYNCHRONIZE)

/-- A file with the two handles of a `CreatedStorageFile`. -/
def createdFile (share : UInt32) (body : StoredFile) : SharedFile StoredFile where
  body
  handles := [⟨2, createAccess, shareRights share⟩, ⟨1, createAccess, shareRights share⟩]

/-- The removal of a file that has just been created. -/
theorem discardCreated_spec (faults : Faults) (identity : FileIdentity) (error : StorageError)
    (report : Bool) {before : NameTable H.fold (SharedFile StoredFile)}
    (h : Added name ((newFile identity).opened createAccess (shareRights share)) before s) :
    Act.wp (discardCreated faults name 1 error report : Act (Store H) StorageError α)
      (fun _ _ => False)
      (fun _ s' => s'.removalFailed = true ∨
        s'.files = before ∧ s'.removalFailed = s.removalFailed) s := by
  rw [discardCreated, Act.wp_ensuring, Act.wp_bind, Act.wp_rescue]
  refine Act.wp_mono (deleteByHandle_spec faults _ h.find (SharedFile.handle_opened _ _ _) rfl)
    ?_ ?_
  · intro _ s₁ hrun
    obtain ⟨hfiles, hremoval⟩ := hrun
    rw [Act.wp_fail]
    have hfind : s₁.files.find name
        = some ((newFile identity).opened createAccess (shareRights share)).marked := by
      rw [hfiles, NameTable.find_put, if_pos rfl]
    refine .inr ⟨?_, (Store.close_removalFailed ..).trans hremoval⟩
    rw [Store.close_goes hfind rfl, hfiles, h.files, NameTable.put_put, NameTable.erase_put h.free]
  · intro e s₁ hremoval
    cases report with
    | true => exact (Act.wp_fail _).mpr (.inl ((Store.close_removalFailed ..).trans hremoval))
    | false =>
      refine (Act.wp_ret ()).mpr ?_
      exact (Act.wp_fail _).mpr (.inl ((Store.close_removalFailed ..).trans hremoval))

/-- **`create_file`** makes an empty file under a free name, or leaves nothing behind. -/
theorem createFile_spec (faults : Faults) (identity : FileIdentity) (name : Wide) (share : UInt32)
    (s : Store H) : Act.wp (createFile faults identity name share)
      (fun created s' => checkName name = .ok () ∧
        created = { name, file := 1, cleanupHandle := 2 } ∧
        Added name (createdFile share (newFile identity).body) s.files s' ∧
        s'.removalFailed = s.removalFailed)
      (fun _ s' => s'.removalFailed = true ∨ Same s s') s := by
  rw [createFile, Act.wp_bind]
  refine wp_check (fun _ _ => .inr (Same.refl s)) fun _ => ?_
  rw [Act.wp_bind, ntCreate, Act.wp_bind]
  refine wp_check (fun _ _ => .inr (Same.refl s)) fun hnamed => ?_
  refine wp_storageCall (fun _ _ => .inr (Same.tick s)) ?_
  rw [Act.wp_of]
  cases hfree : s.files.find name with
  | some f =>
    simp only [Store.tick_files, hfree]
    exact .inr (Same.tick s)
  | none =>
    simp only [Store.tick_files, hfree]
    rw [Act.wp_bind, Act.wp_rescue]
    have hmade : ∀ {s'}, Same (s.tick.setFile name
        ((newFile identity).opened createAccess (shareRights share))) s' →
        Added name ((newFile identity).opened createAccess (shareRights share)) s.files s' :=
      fun hs => ⟨hfree, hs.files⟩
    refine Act.wp_mono (validateKind_spec faults name _) ?_ ?_
    · intro _ s₁ hrun
      obtain ⟨hsame, -⟩ := hrun
      rw [Act.wp_bind, Act.wp_rescue]
      refine wp_storageCall (fun f _ => ?_) ?_
      · refine Act.wp_mono (discardCreated_spec faults identity f.error true
          (hmade (hsame.trans (Same.tick s₁)))) (fun _ _ h => h.elim) ?_
        exact fun _ s' h => h.imp_right fun h => ⟨h.1, h.2.trans hsame.removalFailed⟩
      · have hadded := hmade (hsame.trans (Same.tick s₁))
        rw [Act.wp_of]
        simp only [hadded.find, Option.bind_some, SharedFile.handle_opened, Option.map_some]
        refine (Act.wp_pure _).mpr ⟨hnamed, rfl, ⟨hfree, ?_⟩, hsame.removalFailed⟩
        show (s₁.tick.files.put name _) = _
        rw [hadded.files, NameTable.put_put]
        rfl
    · intro e s₁ hrun
      obtain ⟨hsame, -⟩ := hrun
      refine Act.wp_mono (discardCreated_spec faults identity e false (hmade hsame))
        (fun _ _ h => h.elim) ?_
      exact fun _ s' h => h.imp_right fun h => ⟨h.1, h.2.trans hsame.removalFailed⟩

/-- A created file that is closed. -/
theorem commit_spec {body : StoredFile} {created : CreatedStorageFile}
    {before : NameTable H.fold (SharedFile StoredFile)}
    (hc : created = { name, file := 1, cleanupHandle := 2 })
    (h : Added name (createdFile share body) before s) :
    Added name { body } before (created.commit s) ∧
      (created.commit s).removalFailed = s.removalFailed := by
  subst hc
  have hfirst : (s.close name 2).files
      = before.put name { body, handles := [⟨1, createAccess, shareRights share⟩] } := by
    rw [Store.close_stays h.find rfl, h.files, NameTable.put_put]
    rfl
  have hfind : (s.close name 2).files.find name
      = some { body, handles := [⟨1, createAccess, shareRights share⟩] } := by
    rw [hfirst, NameTable.find_put, if_pos rfl]
  refine ⟨⟨h.free, ?_⟩, ?_⟩
  · rw [CreatedStorageFile.commit, Store.close_stays hfind rfl, hfirst, NameTable.put_put]
    rfl
  · rw [CreatedStorageFile.commit, Store.close_removalFailed, Store.close_removalFailed]

/-- **`CreatedStorageFile::rollback`** takes the file away. -/
theorem rollback_spec (faults : Faults) {body : StoredFile} {created : CreatedStorageFile}
    {before : NameTable H.fold (SharedFile StoredFile)}
    (hc : created = { name, file := 1, cleanupHandle := 2 })
    (h : Added name (createdFile share body) before s) :
    Act.wp (created.rollback faults)
      (fun _ s' => s'.files = before ∧ s'.removalFailed = s.removalFailed)
      (fun _ s' => s'.removalFailed = true) s := by
  subst hc
  rw [CreatedStorageFile.rollback, Act.wp_ensuring]
  refine Act.wp_mono (deleteByHandle_spec faults _ h.find (h := ⟨2, createAccess, _⟩) rfl rfl) ?_ ?_
  · intro _ s₁ hrun
    obtain ⟨hfiles, hremoval⟩ := hrun
    have hfind : s₁.files.find name = some (createdFile share body).marked := by
      rw [hfiles, NameTable.find_put, if_pos rfl]
    have hfirst : (s₁.close name 2).files.find name = some { (createdFile share body).marked with
        handles := [⟨1, createAccess, shareRights share⟩] } := by
      rw [Store.close_stays hfind rfl, NameTable.find_put, if_pos rfl]
      rfl
    refine ⟨?_, ?_⟩
    · rw [CreatedStorageFile.commit, Store.close_goes hfirst rfl, Store.close_stays hfind rfl, hfiles,
        h.files, NameTable.put_put, NameTable.put_put, NameTable.erase_put h.free]
    · rw [CreatedStorageFile.commit, Store.close_removalFailed, Store.close_removalFailed, hremoval]
  · intro _ s₁ hremoval
    rw [CreatedStorageFile.commit, Store.close_removalFailed, Store.close_removalFailed, hremoval]

end Specs

end WinProfile.Snapshot
