/-
  File:      WinProfile/Snapshot/Export.lean
  Subject:   audit-journal/src/journal.rs: the export of the log, and audit-journal/src/storage.rs:
             the created file that deletes itself unless it is published.

  * `Vault` -- the storage root and the directory of the exports, both with the handles open on
    their files.
  * `Fate` -- what the world does to one export: the calls that fail, and what the copy function
    writes and answers.
  * `exportCopyWith` -- the pending file, the copy, the checks and the rename that publishes.
  * `Off` -- a call that is about one name leaves the files of all others alone.
  * `export_published_when_complete` -- a final name stands for a complete copy only; every error
    leaves the exports as they were.
-/
import WinProfile.Snapshot.Atomic

namespace WinProfile.Snapshot.Export

open Handles

/-! ## 1. The two directories -/

def EXPORT_DIR : String := "Exports"
def EXPORT_PENDING_SUFFIX : String := ".pending"

def STATUS_NOT_A_DIRECTORY : Int := -1073741565
def STATUS_INVALID_HANDLE : Int := -1073741816
def STATUS_ACCESS_DENIED : Int := -1073741790

variable {H : Host} {α : Type}

/-- The directory of the exports, for the same operating system. -/
def exportHost (H : Host) : Host :=
  { H with directory := WinPath.join H.directory (encodeWide EXPORT_DIR) }

/-- The storage root, and the directory of the exports. -/
structure Vault (H : Host) where
  root : Store H
  /-- The files of the export directory; they count when the root has the directory. -/
  exports : Store (exportHost H)

/-- The files of a directory. -/
abbrev Files (H : Host) : Type := NameTable H.fold (SharedFile StoredFile)

def noFiles (H : Host) : Files H := ⟨[], List.nodup_nil⟩

namespace Vault

/-- The root has the directory of the exports. -/
def hasExports (v : Vault H) : Bool :=
  (v.root.files.find (encodeWide EXPORT_DIR)).map (·.body.kind) == some .directory

/-- The files in the directory of the exports; none while it is not there. -/
def exportFiles (v : Vault H) : Files (exportHost H) :=
  if v.hasExports then v.exports.files else noFiles (exportHost H)

def setRoot (root : Store H) (v : Vault H) : Vault H := { v with root }

def setExports (exports : Store (exportHost H)) (v : Vault H) : Vault H := { v with exports }

/-- The start of a call: the calls of each directory are counted from zero. -/
def start (v : Vault H) : Vault H where
  root := { v.root with clock := 0, removalFailed := false }
  exports := { v.exports with files := v.exportFiles, clock := 0, removalFailed := false }

end Vault

/-! ## 2. Storage calls -/

/-- `StorageRoot::revalidate`. -/
def revalidate (faults : Faults) : Act (Store H) StorageError Unit :=
  storageCall faults (Act.ret ())

/-- `StorageDirectory::open_child`. The handle of a directory is not kept in the model: it shares
all that the calls on the directory ask for. -/
def openChild (faults : Faults) (name : Wide) : Act (Store H) StorageError Unit := do
  Act.ofExcept (validateComponent name)  -- child_path
  Act.ofExcept (checkName name)
  storageCall faults <| .of fun s => match s.files.find name with
    | none => (.error (.missing (H.pathText name)), s)
    | some f =>
      if f.body.kind = .file then (.error (nativeError H name STATUS_NOT_A_DIRECTORY), s)
      else if f.doomed then (.error (nativeError H name STATUS_DELETE_PENDING), s)
      else (.ok (), s)
  storageCall faults <| .of fun s =>  -- validate_kind
    if (s.files.find name).map (·.body.kind) = some .reparsePoint then
      (.error (.legacyStorageInsecure (H.pathText name ++ ": reparse points are forbidden")), s)
    else (.ok (), s)

/-- What `FILE_CREATE` makes of a directory. -/
def newDirectory (identity : FileIdentity) : SharedFile StoredFile where
  body := { kind := .directory, content := [], identity }

/-- The second half of `StorageDirectory::open_or_create_child`. -/
def createChild (faults : Faults) (identity : FileIdentity) (name : Wide) :
    Act (Store H) StorageError Unit := do
  Act.ofExcept (validateComponent name)  -- child_path
  Act.ofExcept (checkName name)
  storageCall faults <| .of fun s => match s.files.find name with
    | some _ => (.error (.taken (H.pathText name)), s)
    | none => (.ok (), s.setFile name (newDirectory identity))
  storageCall faults (Act.ret ())  -- validate_kind

/-- `StorageDirectory::open_or_create_child`. -/
def openOrCreateChild (faults : Faults) (identity : FileIdentity) (name : Wide) :
    Act (Store H) StorageError Unit :=
  Act.rescue (openChild faults name) fun error =>
    if error.isNotFound then createChild faults identity name else Act.fail error

/-- `Drop` of a `CreatedStorageFile` that still has its cleanup handle, and of its fields. -/
def dropCreated {ε : Type} (faults : Faults) (created : CreatedStorageFile) :
    Act (Store H) ε Unit :=
  Act.ensuring
    (Act.rescue (deleteByHandle faults "delete storage object by handle" created.name
      created.cleanupHandle) fun _ => Act.ret ())
    fun s => (s.close created.name created.file).close created.name created.cleanupHandle

/-- The checks of `rename_by_handle` before the call. -/
def checkRename (targetName : Wide) : Except StorageError Unit := do
  validateComponent targetName
  if 2 * targetName.length < 2 ^ 32 then pure ()
  else .error (.invalidComponent (toStringLossy targetName))

/-- An answer of `NtSetInformationFile` to a rename. -/
def renameError (H : Host) (name targetName : Wide) (status : Int) : StorageError :=
  .native "rename exact storage object by handle"
    (H.pathText name ++ " -> " ++ H.pathText targetName) status

/-- `rename_by_handle` within the directory; `ReplaceIfExists` is 0. -/
def renameByHandle (faults : Faults) (name : Wide) (handle : Nat) (targetName : Wide) :
    Act (Store H) StorageError Unit := do
  Act.ofExcept (checkRename targetName)
  storageCall faults <| .of fun s =>
    match (s.files.find name).bind fun f => f.handle handle with
    | none => (.error (renameError H name targetName STATUS_INVALID_HANDLE), s)
    | some h =>
      if h.access.delete then match s.files.rename name targetName with
        | some files => (.ok (), s.setFiles files)
        | none => (.error (renameError H name targetName STATUS_OBJECT_NAME_COLLISION), s)
      else (.error (renameError H name targetName STATUS_ACCESS_DENIED), s)

/-- `CreatedStorageFile::publish`: the file under its final name, the cleanup handle given up. -/
def publish (faults : Faults) (created : CreatedStorageFile) (targetName : Wide) :
    Act (Store H) StorageError Unit := do
  Act.rescue (do
    Act.ofExcept (validateComponent targetName)  -- child_path
    renameByHandle faults created.name created.cleanupHandle targetName) fun error => do
      let _ ← dropCreated faults created
      Act.fail error
  Act.update fun s => s.close targetName created.cleanupHandle

/-! ## 3. The export -/

/-- What the world does to one call of `export_copy_with`. -/
structure Fate where
  /-- `acquire_lock`. -/
  lock : Option StorageFault := none
  /-- The calls on the storage root that fail. -/
  root : Faults := fun _ => none
  /-- The calls on the directory of the exports that fail. -/
  exports : Faults := fun _ => none
  /-- `Utc::now()` in the format of the export names. -/
  timestamp : String
  /-- The identities of what the call creates. -/
  directory : FileIdentity
  file : FileIdentity
  /-- `metadata` of the log. -/
  sourceMetadata : Option String := none
  /-- The copy function: what it reads, what the target holds after it, and its answer. -/
  copy : Bytes → Bytes × Except String Nat
  flush : Option String := none
  /-- `sync_all`. -/
  sync : Option String := none
  /-- `metadata` of the target. -/
  targetMetadata : Option String := none

/-- `export_name`. -/
def Fate.exportName (fate : Fate) : String := "audit-" ++ fate.timestamp ++ ".jsonl"

/-- `pending_name`. -/
def Fate.pendingName (fate : Fate) : String := fate.exportName ++ EXPORT_PENDING_SUFFIX

/-- A call on the storage root. -/
def inRoot (m : Act (Store H) StorageError α) : Act (Vault H) AuditError α :=
  Act.mapErr .storage (Act.within Vault.root Vault.setRoot m)

/-- A call on the directory of the exports. -/
def inExports {ε : Type} (m : Act (Store (exportHost H)) ε α) : Act (Vault H) ε α :=
  Act.within Vault.exports Vault.setExports m

/-- A call of the standard library that may fail. -/
def ioCall (fault : Option String) : Act (Vault H) AuditError Unit :=
  match fault with
  | some text => Act.fail (.io text)
  | none => Act.ret ()

/-- What the copy function leaves in the target. -/
def overwrite (name : Wide) (content : Bytes) (s : Store H) : Store H :=
  match s.files.find name with
  | none => s
  | some f => s.setFile name { f with body := { f.body with content } }

section Calls

variable (fate : Fate)

/-- The target from the copy to the comparison of the lengths; `source` is what the log holds. -/
def fillTarget (source : Bytes) (target : CreatedStorageFile) : Act (Vault H) AuditError Unit := do
  inExports (Act.update (overwrite target.name (fate.copy source).1))
  let copiedLength ← Act.ofExcept ((fate.copy source).2.mapError AuditError.io)
  ioCall fate.flush
  ioCall fate.sync
  ioCall fate.targetMetadata
  let written ← inExports (contentOf target.name)
  Act.guard (copiedLength = source.length ∧ written.length = source.length)
    (.io "audit export size verification failed")

/-- What follows the opening of the log. -/
def exportOpened (log : Wide) : Act (Vault H) AuditError Unit := do
  ioCall fate.sourceMetadata
  let source ← inRoot (contentOf log)
  let target ← Act.mapErr .storage (inExports (createFile fate.exports fate.file
    (encodeWide fate.pendingName) FILE_SHARE_READ))
  Act.rescue (fillTarget fate source target) fun error => do
    let _ ← inExports (dropCreated fate.exports target)
    Act.fail error
  Act.mapErr .storage (inExports (publish fate.exports target (encodeWide fate.exportName)))
  inExports (Act.update fun s => s.close (encodeWide fate.exportName) target.file)

/-- `StorageRoot::acquire_lock`; the lock file is there since the logger was built. -/
def acquireLock : Act (Vault H) AuditError Unit :=
  match fate.lock with
  | some f => Act.fail (.storage f.error)
  | none => Act.ret ()

/-- `AuditLogger::export_copy_with`. -/
def exportCopyWith (logFileName : String) : Act (Vault H) AuditError Wide := do
  Act.update Vault.start
  acquireLock fate
  inRoot (do
    revalidate fate.root
    openOrCreateChild fate.root fate.directory (encodeWide EXPORT_DIR))
  let source ← inRoot (do
    revalidate fate.root
    openFile fate.root (encodeWide logFileName) FILE_GENERIC_READ FILE_SHARE_READ)
  Act.ensuring (exportOpened fate (encodeWide logFileName)) fun v =>
    v.setRoot (v.root.close (encodeWide logFileName) source)
  pure (WinPath.join (exportHost H).directory (encodeWide fate.exportName))

end Calls

/-! ## 4. What a call leaves alone -/

section Others

variable {name : Wide} {faults : Faults}

/-- The files of all other names are as they were. -/
def Off (name : Wide) (s s' : Store H) : Prop :=
  ∀ k, H.fold k ≠ H.fold name → s'.files.find k = s.files.find k

theorem Off.refl (name : Wide) (s : Store H) : Off name s s := fun _ _ => rfl

theorem Off.trans (name : Wide) (s s' s'' : Store H) (h : Off name s s') (h' : Off name s' s'') :
    Off name s s'' := fun k hk => (h' k hk).trans (h k hk)

theorem Off.of_files {s s' : Store H} (h : s'.files = s.files) : Off name s s' := by
  intro k _
  rw [h]

theorem off_setFile (name : Wide) (s : Store H) (f : SharedFile StoredFile) :
    Off name s (s.setFile name f) := by
  intro k hk
  rw [Store.setFile_files, NameTable.find_put, if_neg (Ne.symm hk)]

theorem off_close (name : Wide) (handle : Nat) (s : Store H) : Off name s (s.close name handle) := by
  intro k hk
  unfold Store.close
  split
  · rfl
  · split
    · exact off_setFile name s _ k hk
    · exact s.files.find_erase_of_ne hk

theorem off_storageCall {body : Act (Store H) StorageError α} (h : Act.Keeps (Off name) body) :
    Act.Keeps (Off name) (storageCall faults body) := by
  refine Act.keeps_iff_wp.mpr fun s => ?_
  refine wp_storageCall (fun _ _ => Off.of_files rfl) ?_
  have hbody := Act.keeps_iff_wp.mp h s.tick
  exact hbody

theorem off_removal {m : Act (Store H) StorageError α} (h : Act.Keeps (Off name) m) :
    Act.Keeps (Off name) (removal m) := by
  intro s
  have hm := h s
  unfold removal
  split
  · next h' => rw [h'] at hm; exact hm
  · next h' => rw [h'] at hm; exact hm

theorem off_checked (r : Except StorageError α) :
    Act.Keeps (Off name) (Act.ofExcept r : Act (Store H) StorageError α) :=
  Act.keeps_ofExcept (Off.refl name) r

theorem off_ntCreate (identity : FileIdentity) (access share : UInt32) :
    Act.Keeps (Off name) (ntCreate faults identity name access share : Act (Store H) _ _) := by
  refine Act.Keeps.bind (Off.trans name) (off_checked _) fun _ => off_storageCall fun s => ?_
  simp only [Act.of]
  split
  · exact Off.refl name s
  · exact off_setFile name s _

theorem off_validateKind : Act.Keeps (Off name) (validateKind faults name : Act (Store H) _ _) := by
  refine off_storageCall fun s => ?_
  simp only [Act.of]
  split
  · exact Off.refl name s
  · split <;> exact Off.refl name s

theorem off_deleteByHandle (operation : String) (handle : Nat) :
    Act.Keeps (Off name) (deleteByHandle faults operation name handle : Act (Store H) _ _) := by
  refine off_removal (off_storageCall fun s => ?_)
  simp only [Act.of]
  split
  · exact Off.refl name s
  · split
    · exact off_setFile name s _
    · exact Off.refl name s

theorem off_duplicate (handle : Nat) :
    Act.Keeps (Off name) (duplicate faults name handle : Act (Store H) _ _) := by
  refine off_storageCall fun s => ?_
  simp only [Act.of]
  split
  · exact Off.refl name s
  · exact off_setFile name s _

theorem off_discardCreated (handle : Nat) (error : StorageError) (report : Bool) :
    Act.Keeps (Off name) (discardCreated faults name handle error report
      : Act (Store H) StorageError α) := by
  refine Act.Keeps.ensuring (Off.trans name) ?_ (off_close name handle)
  refine Act.Keeps.bind (Off.trans name) ?_ fun _ => Act.keeps_fail (Off.refl name) _
  refine Act.Keeps.rescue (Off.trans name) (off_deleteByHandle _ handle) fun _ => ?_
  exact Act.Keeps.ite (Act.keeps_fail (Off.refl name) _) (Act.keeps_ret (Off.refl name) _)

/-- **`create_file`** is about one name. -/
theorem off_createFile (identity : FileIdentity) (share : UInt32) :
    Act.Keeps (Off name) (createFile faults identity name share : Act (Store H) _ _) := by
  refine Act.Keeps.bind (Off.trans name) (off_checked _) fun _ => ?_
  refine Act.Keeps.bind (Off.trans name) (off_ntCreate identity _ share) fun handle => ?_
  refine Act.Keeps.bind (Off.trans name) ?_ fun _ => ?_
  · exact Act.Keeps.rescue (Off.trans name) off_validateKind fun _ => off_discardCreated handle _ _
  refine Act.Keeps.bind (Off.trans name) ?_ fun _ => Act.keeps_pure (Off.refl name) _
  exact Act.Keeps.rescue (Off.trans name) (off_duplicate handle) fun _ =>
    off_discardCreated handle _ _

theorem off_dropCreated {ε : Type} (created : CreatedStorageFile) :
    Act.Keeps (Off created.name) (dropCreated faults created : Act (Store H) ε Unit) := by
  refine Act.Keeps.ensuring (Off.trans _) ?_ fun s => ?_
  · exact Act.Keeps.rescue (Off.trans _) (off_deleteByHandle _ _) fun _ =>
      Act.keeps_ret (Off.refl _) ()
  · exact Off.trans _ _ _ _ (off_close _ _ s) (off_close _ _ _)

end Others

/-! ## 5. What the calls do -/

section Specs

variable {name targetName : Wide} {faults : Faults} {share : UInt32} {body : StoredFile}
  {created : CreatedStorageFile} {before : Files H} {s : Store H}

/-- The file under a name is gone again, or its removal has failed; no other file was touched. -/
structure Withdrawn (name : Wide) (before : Files H) (s : Store H) : Prop where
  others : ∀ k, H.fold k ≠ H.fold name → s.files.find k = before.find k
  back : s.removalFailed = true ∨ s.files = before

theorem added_others {f : SharedFile StoredFile} (h : Added name f before s) (k : Wide)
    (hk : H.fold k ≠ H.fold name) : s.files.find k = before.find k := by
  rw [h.files, NameTable.find_put, if_neg (Ne.symm hk)]

/-- A created file that is dropped. -/
theorem dropCreated_spec {ε : Type} (faults : Faults)
    (hc : created = { name, file := 1, cleanupHandle := 2 })
    (h : Added name (createdFile share body) before s) {E : ε → Store H → Prop} :
    Act.wp (dropCreated faults created) (fun _ s' => Withdrawn name before s') E s := by
  subst hc
  have hkeeps : Act.Keeps (Off name)
      (dropCreated faults { name, file := 1, cleanupHandle := 2 } : Act (Store H) ε Unit) :=
    off_dropCreated ({ name, file := 1, cleanupHandle := 2 } : CreatedStorageFile)
  have hoff := Act.keeps_iff_wp.mp hkeeps s
  have hback : Act.wp (dropCreated faults ({ name, file := 1, cleanupHandle := 2 }))
      (fun _ s' => s'.removalFailed = true ∨ s'.files = before) E s := by
    rw [dropCreated, Act.wp_ensuring, Act.wp_rescue]
    refine Act.wp_mono (deleteByHandle_spec faults _ h.find (h := ⟨2, createAccess, _⟩) rfl rfl)
      ?_ ?_
    · intro _ s₁ hrun
      obtain ⟨hfiles, -⟩ := hrun
      have hfind : s₁.files.find name = some (createdFile share body).marked := by
        rw [hfiles, NameTable.find_put, if_pos rfl]
      have hfirst : (s₁.close name 1).files.find name
          = some { (createdFile share body).marked with
              handles := [⟨2, createAccess, shareRights share⟩] } := by
        rw [Store.close_stays hfind rfl, NameTable.find_put, if_pos rfl]
        rfl
      refine .inr ?_
      rw [Store.close_goes hfirst rfl, Store.close_stays hfind rfl, hfiles, h.files,
        NameTable.put_put, NameTable.put_put, NameTable.erase_put h.free]
    · intro _ s₁ hremoval
      refine (Act.wp_ret ()).mpr (.inl ?_)
      rw [Store.close_removalFailed, Store.close_removalFailed, hremoval]
  have hboth := Act.wp_and hoff hback
  refine Act.wp_mono hboth (fun _ s' hrun => ⟨fun k hk => ?_, hrun.2⟩) fun _ _ hrun => hrun.2
  rw [hrun.1 k hk, added_others h k hk]

/-- A rename goes through onto a free name, or changes nothing. -/
theorem renameByHandle_spec (faults : Faults) {handle : Nat} {f : SharedFile StoredFile}
    (h : Added name f before s) (hne : H.fold name ≠ H.fold targetName) :
    Act.wp (renameByHandle faults name handle targetName)
      (fun _ s' => before.find targetName = none ∧ s'.files = before.put targetName f)
      (fun _ s' => Same s s') s := by
  rw [renameByHandle, Act.wp_bind]
  refine wp_check (fun _ _ => Same.refl s) fun _ => ?_
  refine wp_storageCall (fun _ _ => Same.tick s) ?_
  rw [Act.wp_of]
  simp only [Store.tick_files, h.find, Option.bind_some]
  cases f.handle handle with
  | none => exact Same.tick s
  | some open' =>
    cases hright : open'.access.delete with
    | false =>
      simp only [hright, Bool.false_eq_true, if_false]
      exact Same.tick s
    | true =>
      cases hfree : before.find targetName with
      | none =>
        have hrename : s.files.rename name targetName = some (before.put targetName f) := by
          rw [h.files]
          exact NameTable.rename_put h.free hfree hne f
        simp only [hright, if_true, hrename]
        exact ⟨trivial, rfl⟩
      | some g =>
        have hnone : s.files.rename name targetName = none := by
          rw [Option.eq_none_iff_forall_ne_some]
          intro t ht
          have hsome := (NameTable.rename_isSome.mp (Option.isSome_iff_exists.mpr ⟨t, ht⟩)).2
          rw [h.files, NameTable.find_put, if_neg hne, hfree] at hsome
          cases hsome
        simp only [hright, if_true, hnone]
        exact Same.tick s

/-- **`CreatedStorageFile::publish`** gives the file its final name, or withdraws it. -/
theorem publish_spec (faults : Faults) (hc : created = { name, file := 1, cleanupHandle := 2 })
    (h : Added name (createdFile share body) before s) (hne : H.fold name ≠ H.fold targetName) :
    Act.wp (publish faults created targetName)
      (fun _ s' => before.find targetName = none ∧ s'.files = before.put targetName
        { body, handles := [⟨1, createAccess, shareRights share⟩] })
      (fun _ s' => Withdrawn name before s') s := by
  have hdrop : ∀ {s'}, Same s s' → ∀ error, Act.wp (do
      let _ ← (dropCreated faults created : Act (Store H) StorageError Unit)
      Act.fail error) (fun (_ : Unit) _ => False) (fun _ s'' => Withdrawn name before s'') s' := by
    intro s' hsame error
    rw [Act.wp_bind]
    refine Act.wp_mono (E := fun _ _ => False) (dropCreated_spec faults hc
      (⟨h.free, hsame.files.trans h.files⟩ : Added name (createdFile share body) before s'))
      (fun _ _ hrun => ?_) (fun _ _ hfalse => hfalse.elim)
    exact (Act.wp_fail error).mpr hrun
  rw [publish, Act.wp_bind, Act.wp_rescue, Act.wp_bind]
  refine wp_check (fun error _ => ?_) fun _ => ?_
  · exact Act.wp_mono (hdrop (Same.refl s) error) (fun _ _ hfalse => hfalse.elim) fun _ _ hw => hw
  have hrename : Act.wp (renameByHandle faults name 2 targetName)
      (fun _ s' => before.find targetName = none ∧
        s'.files = before.put targetName (createdFile share body))
      (fun _ s' => Same s s') s := renameByHandle_spec faults h hne
  subst hc
  refine Act.wp_mono hrename ?_ ?_
  · intro _ s₁ hrun
    obtain ⟨hfree, hfiles⟩ := hrun
    rw [Act.wp_update]
    have hfind : s₁.files.find targetName = some (createdFile share body) := by
      rw [hfiles, NameTable.find_put, if_pos rfl]
    refine ⟨hfree, ?_⟩
    rw [Store.close_stays hfind rfl, hfiles, NameTable.put_put]
    rfl
  · intro error s₁ hsame
    exact Act.wp_mono (hdrop hsame error) (fun _ _ hfalse => hfalse.elim) fun _ _ hw => hw

/-! ## 6. The storage root -/

/-- Nothing in the root has changed, but that the directory of the exports may be new. -/
def RootKept (s s' : Store H) : Prop :=
  s'.files = s.files ∨ s.files.find (encodeWide EXPORT_DIR) = none ∧
    ∃ identity, s'.files = s.files.put (encodeWide EXPORT_DIR) (newDirectory identity)

theorem RootKept.of_same {s s' : Store H} (h : Same s s') : RootKept s s' := .inl h.files

theorem RootKept.files {s s' s'' : Store H} (h : RootKept s s') (hs : s''.files = s'.files) :
    RootKept s s'' := by
  unfold RootKept
  rw [hs]
  exact h

theorem RootKept.after {s s' s'' : Store H} (h : RootKept s' s'') (hs : s'.files = s.files) :
    RootKept s s'' := by
  unfold RootKept at h ⊢
  rw [← hs]
  exact h

/-- **The log and its archives**: a file of the root is there with its content as before. -/
theorem RootKept.find {s s' : Store H} (h : RootKept s s') {k : Wide} {f : SharedFile StoredFile}
    (hf : s.files.find k = some f) : s'.files.find k = some f := by
  rcases h with hsame | ⟨hnone, identity, hput⟩
  · rw [hsame, hf]
  · rw [hput, NameTable.find_put]
    split
    · next hk =>
      rw [s.files.find_congr hk, hf] at hnone
      cases hnone
    · exact hf

theorem openChild_spec (faults : Faults) (name : Wide) (s : Store H) :
    Act.wp (openChild faults name)
      (fun _ s' => Same s s' ∧ (s.files.find name).map (·.body.kind) = some .directory)
      (fun e s' => Same s s' ∧ (e.isNotFound = true → s.files.find name = none)) s := by
  rw [openChild, Act.wp_bind]
  refine wp_check (fun e he => ⟨Same.refl s, fun h => ?_⟩) fun _ => ?_
  · rw [validateComponent_notFound he] at h
    cases h
  rw [Act.wp_bind]
  refine wp_check (fun e he => ⟨Same.refl s, fun h => ?_⟩) fun _ => ?_
  · rw [checkName_notFound he] at h
    cases h
  rw [Act.wp_bind]
  refine wp_storageCall (fun f _ => ⟨Same.tick s, fun h => ?_⟩) ?_
  · rw [f.real.1] at h
    cases h
  have hnative : ∀ {p : Prop} (status : Int), (status == STATUS_OBJECT_NAME_NOT_FOUND ||
      status == STATUS_OBJECT_PATH_NOT_FOUND) = false →
      (nativeError H name status).isNotFound = true → p := fun status hs h =>
    absurd (show (_ || _) = true from h) (by rw [hs]; exact Bool.false_ne_true)
  rw [Act.wp_of]
  cases hfind : s.files.find name with
  | none =>
    simp only [Store.tick_files, hfind]
    exact ⟨Same.tick s, fun _ => trivial⟩
  | some f =>
    by_cases hfile : f.body.kind = .file
    · simp only [Store.tick_files, hfind, if_pos hfile]
      exact ⟨Same.tick s, hnative STATUS_NOT_A_DIRECTORY rfl⟩
    cases hdoomed : f.doomed with
    | true =>
      simp only [Store.tick_files, hfind, if_neg hfile, hdoomed, if_true]
      exact ⟨Same.tick s, hnative STATUS_DELETE_PENDING rfl⟩
    | false =>
      simp only [Store.tick_files, hfind, if_neg hfile, hdoomed, Bool.false_eq_true, if_false]
      refine wp_storageCall
        (fun f' _ => ⟨(Same.tick s).trans (Same.tick s.tick), fun h => ?_⟩) ?_
      · rw [f'.real.1] at h
        cases h
      rw [Act.wp_of]
      simp only [Store.tick_files, hfind, Option.map_some, Option.some.injEq]
      by_cases hreparse : f.body.kind = .reparsePoint
      · simp only [if_pos hreparse]
        exact ⟨(Same.tick s).trans (Same.tick s.tick), fun h => absurd h Bool.false_ne_true⟩
      · simp only [if_neg hreparse]
        refine ⟨(Same.tick s).trans (Same.tick s.tick), ?_⟩
        cases hkind : f.body.kind with
        | file => exact absurd hkind hfile
        | directory => rfl
        | reparsePoint => exact absurd hkind hreparse

theorem createChild_spec (faults : Faults) (identity : FileIdentity) (name : Wide) (s : Store H)
    (hfree : s.files.find name = none) :
    Act.wp (createChild faults identity name)
      (fun _ s' => s'.files = s.files.put name (newDirectory identity))
      (fun _ s' => s'.files = s.files ∨ s'.files = s.files.put name (newDirectory identity)) s := by
  rw [createChild, Act.wp_bind]
  refine wp_check (fun _ _ => .inl rfl) fun _ => ?_
  rw [Act.wp_bind]
  refine wp_check (fun _ _ => .inl rfl) fun _ => ?_
  rw [Act.wp_bind]
  refine wp_storageCall (fun _ _ => .inl rfl) ?_
  rw [Act.wp_of]
  simp only [Store.tick_files, hfree]
  refine wp_storageCall (fun _ _ => .inr rfl) ?_
  exact (Act.wp_ret ()).mpr rfl

/-- `open_or_create_child` for the directory of the exports. -/
theorem openOrCreateChild_spec (faults : Faults) (identity : FileIdentity) (s : Store H) :
    Act.wp (openOrCreateChild faults identity (encodeWide EXPORT_DIR))
      (fun _ s' => RootKept s s' ∧
        (s'.files.find (encodeWide EXPORT_DIR)).map (·.body.kind) = some .directory)
      (fun _ s' => RootKept s s') s := by
  rw [openOrCreateChild, Act.wp_rescue]
  refine Act.wp_mono (openChild_spec faults _ s) ?_ ?_
  · intro _ s₁ hrun
    obtain ⟨hsame, hkind⟩ := hrun
    exact ⟨.of_same hsame, by rw [hsame.files, hkind]⟩
  · intro e s₁ hrun
    obtain ⟨hsame, hmissing⟩ := hrun
    cases he : e.isNotFound with
    | false =>
      simp only [Bool.false_eq_true, if_false, Act.wp_fail]
      exact .of_same hsame
    | true =>
      have hfree := hmissing he
      have hmade := createChild_spec faults identity (encodeWide EXPORT_DIR) s₁
        (by rw [hsame.files, hfree])
      rw [hsame.files] at hmade
      simp only [if_true]
      refine Act.wp_mono hmade (fun _ s₂ hput => ⟨.inr ⟨hfree, identity, hput⟩, ?_⟩) ?_
      · rw [hput, NameTable.find_put, if_pos rfl]
        rfl
      · intro _ s₂ hrun
        exact hrun.imp_right fun hput => ⟨hfree, identity, hput⟩

theorem revalidate_spec (faults : Faults) (s : Store H) :
    Act.wp (revalidate faults) (fun _ s' => Same s s') (fun _ s' => Same s s') s :=
  wp_storageCall (fun _ _ => Same.tick s) ((Act.wp_ret ()).mpr (Same.tick s))

end Specs

/-! ## 7. Complete exports -/

section Main

variable {fate : Fate} {v : Vault H}

/-- The copy has answered with the length of the log and the target has that length; it was
flushed and synchronized. -/
structure Complete (fate : Fate) (source : Bytes) : Prop where
  copied : (fate.copy source).2 = .ok source.length
  written : (fate.copy source).1.length = source.length
  flushed : fate.flush = none
  synced : fate.sync = none

theorem encodeWide_pending (fate : Fate) : encodeWide fate.pendingName
    = encodeWide fate.exportName ++ encodeWide EXPORT_PENDING_SUFFIX := by
  rw [Fate.pendingName, encodeWide, String.toList_append, List.flatMap_append]
  rfl

/-- The pending name is not the final one, however names are compared. -/
theorem pending_ne_final (H : Host) (fate : Fate) :
    H.fold (encodeWide fate.pendingName) ≠ H.fold (encodeWide fate.exportName) := by
  intro h
  have hlen := congrArg List.length h
  have hsuffix : (encodeWide EXPORT_PENDING_SUFFIX).length = 8 := by decide +kernel
  rw [encodeWide_pending, Host.fold, Host.fold, List.length_map, List.length_map,
    List.length_append, hsuffix] at hlen
  omega

theorem wp_inRoot {m : Act (Store H) StorageError α} {Q : α → Vault H → Prop}
    {E : AuditError → Vault H → Prop}
    (h : Act.wp m (fun a s' => Q a (v.setRoot s')) (fun e s' => E (.storage e) (v.setRoot s'))
      v.root) : Act.wp (inRoot m) Q E v := by
  rw [inRoot, Act.wp_mapErr, Act.wp_within]
  exact h

theorem wp_inExports {ε : Type} {m : Act (Store (exportHost H)) ε α} {Q : α → Vault H → Prop}
    {E : ε → Vault H → Prop}
    (h : Act.wp m (fun a s' => Q a (v.setExports s')) (fun e s' => E e (v.setExports s'))
      v.exports) : Act.wp (inExports m) Q E v := by
  rw [inExports, Act.wp_within]
  exact h

theorem wp_ioCall {fault : Option String} {Q : Unit → Vault H → Prop}
    {E : AuditError → Vault H → Prop} (hE : ∀ e, E e v) (hQ : fault = none → Q () v) :
    Act.wp (ioCall fault) Q E v := by
  cases h : fault with
  | none => exact (Act.wp_ret ()).mpr (hQ h)
  | some text => exact (Act.wp_fail _).mpr (hE _)

theorem wp_acquireLock {Q : Unit → Vault H → Prop} {E : AuditError → Vault H → Prop}
    (hE : ∀ e, E e v) (hQ : Q () v) : Act.wp (acquireLock fate) Q E v := by
  unfold acquireLock
  cases fate.lock with
  | none => exact (Act.wp_ret ()).mpr hQ
  | some f => exact (Act.wp_fail _).mpr (hE _)

theorem overwrite_added {name : Wide} {f : SharedFile StoredFile} {before : Files H} {s : Store H}
    (h : Added name f before s) (content : Bytes) :
    Added name { f with body := { f.body with content } } before (overwrite name content s) := by
  refine ⟨h.free, ?_⟩
  simp only [overwrite, h.find, Store.setFile_files]
  rw [h.files, NameTable.put_put]

/-- The target after the copy: complete if nothing has gone wrong, and closed to all others in
any case. -/
theorem fillTarget_spec {name : Wide} {body : StoredFile} {before : Files (exportHost H)}
    {target : CreatedStorageFile} (source : Bytes) (hname : target.name = name)
    (h : Added name (createdFile FILE_SHARE_READ body) before v.exports) :
    Act.wp (fillTarget fate source target)
      (fun _ v' => v'.root = v.root ∧ Complete fate source ∧
        Added name (createdFile FILE_SHARE_READ { body with content := (fate.copy source).1 })
          before v'.exports)
      (fun _ v' => v'.root = v.root ∧
        ∃ body', Added name (createdFile FILE_SHARE_READ body') before v'.exports) v := by
  have hadded : Added name
      (createdFile FILE_SHARE_READ { body with content := (fate.copy source).1 }) before
      (overwrite name (fate.copy source).1 v.exports) := overwrite_added h _
  rw [fillTarget, Act.wp_bind, hname]
  refine wp_inExports ((Act.wp_update _).mpr ?_)
  have hfailed : ∀ _ : AuditError, (v.setExports (overwrite name (fate.copy source).1
      v.exports)).root = v.root ∧ ∃ body', Added name (createdFile FILE_SHARE_READ body') before
      (v.setExports (overwrite name (fate.copy source).1 v.exports)).exports :=
    fun _ => ⟨rfl, _, hadded⟩
  rw [Act.wp_bind, Act.wp_ofExcept]
  cases hcopy : (fate.copy source).2 with
  | error text => exact hfailed (.io text)
  | ok copiedLength =>
    refine (Act.wp_bind _ _).mpr (wp_ioCall hfailed fun hflush => ?_)
    refine (Act.wp_bind _ _).mpr (wp_ioCall hfailed fun hsync => ?_)
    refine (Act.wp_bind _ _).mpr (wp_ioCall hfailed fun _ => ?_)
    refine (Act.wp_bind _ _).mpr (wp_inExports ?_)
    refine Act.wp_mono (contentOf_spec hadded.find) ?_ fun _ _ hfalse => hfalse.elim
    intro written s' hrun
    obtain ⟨hwritten, rfl⟩ := hrun
    rw [Act.wp_guard]
    split
    · next hlengths =>
      have hlen := of_decide_eq_true hlengths
      refine ⟨rfl, ⟨?_, ?_, hflush, hsync⟩, hadded⟩
      · rw [hcopy, hlen.1]
      · rw [hwritten] at hlen
        exact hlen.2
    · exact hfailed (.io "audit export size verification failed")

/-- The file that an export publishes. -/
def published (fate : Fate) (source : Bytes) : SharedFile StoredFile where
  body := { kind := .file, content := (fate.copy source).1, identity := fate.file }

/-- What follows the opening of the log: a complete file under the final name, or the pending one
withdrawn. -/
theorem exportOpened_spec {log : Wide} {g : SharedFile StoredFile}
    (hlog : v.root.files.find log = some g) :
    Act.wp (exportOpened fate log)
      (fun _ v' => v'.root = v.root ∧ Complete fate g.body.content ∧
        v.exports.files.find (encodeWide fate.exportName) = none ∧
        v'.exports.files = v.exports.files.put (encodeWide fate.exportName)
          (published fate g.body.content))
      (fun _ v' => v'.root = v.root ∧
        Withdrawn (encodeWide fate.pendingName) v.exports.files v'.exports) v := by
  have hsame : ∀ {s : Store (exportHost H)}, Same v.exports s →
      Withdrawn (encodeWide fate.pendingName) v.exports.files s := fun hs =>
    ⟨fun k _ => by rw [hs.files], .inr hs.files⟩
  rw [exportOpened, Act.wp_bind]
  refine wp_ioCall (fun _ => ⟨rfl, hsame (Same.refl _)⟩) fun _ => ?_
  refine (Act.wp_bind _ _).mpr (wp_inRoot ?_)
  refine Act.wp_mono (contentOf_spec hlog) ?_ fun _ _ hfalse => hfalse.elim
  intro source s' hrun
  obtain ⟨rfl, rfl⟩ := hrun
  rw [Act.wp_bind, Act.wp_mapErr]
  refine wp_inExports ?_
  have hcreate := createFile_spec fate.exports fate.file (encodeWide fate.pendingName)
    FILE_SHARE_READ v.exports
  have hkeeps : Act.Keeps (Off (encodeWide fate.pendingName))
      (createFile fate.exports fate.file (encodeWide fate.pendingName) FILE_SHARE_READ :
        Act (Store (exportHost H)) StorageError CreatedStorageFile) :=
    off_createFile fate.file FILE_SHARE_READ
  have hoff := Act.keeps_iff_wp.mp hkeeps v.exports
  refine Act.wp_mono (Act.wp_and hcreate hoff) ?_ ?_
  · intro target s₁ hrun
    obtain ⟨⟨-, htarget, hadded, -⟩, -⟩ := hrun
    rw [Act.wp_bind, Act.wp_rescue]
    refine Act.wp_mono (fillTarget_spec (v := v.setExports s₁) g.body.content
      (by rw [htarget]) hadded) ?_ ?_
    · intro _ v₂ hfilled
      obtain ⟨hroot, hcomplete, hadded₂⟩ := hfilled
      rw [Act.wp_bind, Act.wp_mapErr]
      refine wp_inExports ?_
      refine Act.wp_mono (publish_spec fate.exports htarget hadded₂
        (pending_ne_final (exportHost H) fate)) ?_ fun _ s₃ hw => ⟨hroot, hw⟩
      intro _ s₃ hpublished
      obtain ⟨hfree, hfiles⟩ := hpublished
      refine wp_inExports ((Act.wp_update _).mpr ⟨hroot, hcomplete, hfree, ?_⟩)
      have hfind : s₃.files.find (encodeWide fate.exportName) = some
          { body := { kind := .file, content := (fate.copy g.body.content).1,
                      identity := fate.file },
            handles := [⟨1, createAccess, shareRights FILE_SHARE_READ⟩] } := by
        rw [hfiles, NameTable.find_put, if_pos rfl]
        rfl
      show (s₃.close (encodeWide fate.exportName) target.file).files = _
      rw [htarget, Store.close_stays hfind rfl, hfiles, NameTable.put_put]
      rfl
    · intro error v₂ hfailed
      obtain ⟨hroot, body', hadded₂⟩ := hfailed
      rw [Act.wp_bind]
      refine wp_inExports (Act.wp_mono (E := fun _ _ => False)
        (dropCreated_spec fate.exports htarget hadded₂) ?_ fun _ _ hfalse => hfalse.elim)
      intro _ s₃ hw
      exact (Act.wp_fail error).mpr ⟨hroot, hw⟩
  · intro _ s₁ hrun
    obtain ⟨hmade, hothers⟩ := hrun
    exact ⟨rfl, hothers, hmade.imp_right Same.files⟩

theorem hasExports_iff (v : Vault H) : v.hasExports = true ↔
    (v.root.files.find (encodeWide EXPORT_DIR)).map (·.body.kind) = some .directory := by
  rw [Vault.hasExports, beq_iff_eq]

theorem exportFiles_of_has {v' : Vault H} (h : v'.hasExports = true) :
    v'.exportFiles = v'.exports.files := if_pos h

/-- A directory that is there stays; files that were not touched are as before. -/
theorem exportFiles_kept {v v' : Vault H} (hroot : RootKept v.root v'.root)
    (h : v'.exports.files = v.exportFiles) : v'.exportFiles = v.exportFiles := by
  cases hhas : v'.hasExports with
  | true => rw [exportFiles_of_has hhas, h]
  | false =>
    have hbefore : v.hasExports = false := by
      cases hv : v.hasExports with
      | false => rfl
      | true =>
        obtain ⟨f, hf, hkind⟩ := Option.map_eq_some_iff.mp ((hasExports_iff v).mp hv)
        have hstays := (hasExports_iff v').mpr (by rw [hroot.find hf, Option.map_some, hkind])
        rw [hstays] at hhas
        cases hhas
    rw [Vault.exportFiles, Vault.exportFiles, hhas, hbefore]
    rfl

/-- What an export that has ended with a path has made of the directory. -/
structure Exported (fate : Fate) (log : SharedFile StoredFile) (v v' : Vault H) : Prop where
  complete : Complete fate log.body.content
  free : v.exportFiles.find (encodeWide fate.exportName) = none
  files : v'.exportFiles = v.exportFiles.put (encodeWide fate.exportName)
    (published fate log.body.content)

/-- What an export that has ended with an error has left of the directory. -/
structure Refused (fate : Fate) (v v' : Vault H) : Prop where
  others : ∀ k, H.fold k ≠ H.fold (encodeWide fate.pendingName) →
    v'.exportFiles.find k = v.exportFiles.find k
  back : v'.exports.removalFailed = true ∨ v'.exportFiles = v.exportFiles

/-- A refused export has published nothing. -/
theorem Refused.final {v' : Vault H} (h : Refused fate v v') :
    v'.exportFiles.find (encodeWide fate.exportName)
      = v.exportFiles.find (encodeWide fate.exportName) :=
  h.others _ (Ne.symm (pending_ne_final H fate))

theorem Refused.of_eq {v' : Vault H} (h : v'.exportFiles = v.exportFiles) : Refused fate v v' :=
  ⟨fun k _ => by rw [h], .inr h⟩

/-- How a call ends, with the result and the state it has reached. -/
def Outcome (fate : Fate) (logFileName : String) (v : Vault H) :
    Except AuditError Wide → Vault H → Prop
  | .ok path, v' =>
    path = WinPath.join (exportHost H).directory (encodeWide fate.exportName) ∧
    RootKept v.root v'.root ∧
    ∃ log, v.root.files.find (encodeWide logFileName) = some log ∧ Exported fate log v v'
  | .error _, v' =>
    RootKept v.root v'.root ∧ Refused fate v v' ∧
    v'.exportFiles.find (encodeWide fate.exportName)
      = v.exportFiles.find (encodeWide fate.exportName)

theorem outcome_refused {logFileName : String} {v' : Vault H} (hroot : RootKept v.root v'.root)
    (h : Refused fate v v') (error : AuditError) : Outcome fate logFileName v (.error error) v' :=
  ⟨hroot, h, h.final⟩

/-- The files of the root once the log is open. -/
theorem Opened.of_kept {s s₁ s₂ : Store H} {name : Wide} {access share : UInt32}
    {f : SharedFile StoredFile} {handle : Nat} (hkept : RootKept s s₁)
    (h : Opened name access share f s₁ handle s₂) (hfile : f.body.kind = .file) :
    s.files.find name = some f := by
  rcases hkept with hsame | ⟨hnone, identity, hput⟩
  · rw [← hsame, h.found]
  · have hfound := h.found
    rw [hput, NameTable.find_put] at hfound
    split at hfound
    · obtain rfl := Option.some.inj hfound
      cases hfile
    · exact hfound

/-- **An export is published only when it is complete.** The final name is new, stands for the
whole copy and was given to it after flush and sync; an error leaves every other export alone, and
the directory as it was unless the removal of the pending file has failed. The log and its archives
stay as they are in both cases. -/
theorem export_published_when_complete (fate : Fate) (logFileName : String) (v : Vault H) :
    Outcome fate logFileName v (exportCopyWith fate logFileName v).1
      (exportCopyWith fate logFileName v).2 := by
  refine Act.wp_run ?_
  have hkeep : ∀ {root : Store H}, RootKept v.root root → ∀ error,
      Outcome fate logFileName v (.error error) (v.start.setRoot root) := fun hroot error =>
    outcome_refused hroot (.of_eq (exportFiles_kept hroot rfl)) error
  rw [exportCopyWith, Act.wp_bind, Act.wp_update, Act.wp_bind]
  refine wp_acquireLock (hkeep (.inl rfl : RootKept v.root v.start.root)) ?_
  rw [Act.wp_bind]
  refine wp_inRoot ((Act.wp_bind _ _).mpr ?_)
  refine Act.wp_mono (revalidate_spec fate.root _) ?_ fun e s₁ hs => hkeep (.inl hs.files) _
  intro _ s₁ hs₁
  refine Act.wp_mono (openOrCreateChild_spec fate.root fate.directory s₁) ?_
    fun e s₂ hkept => hkeep (hkept.after hs₁.files) _
  intro _ s₂ hrun
  obtain ⟨hkept₁, hdirectory⟩ := hrun
  have hkept : RootKept v.root s₂ := hkept₁.after hs₁.files
  rw [Act.wp_bind]
  refine wp_inRoot ((Act.wp_bind _ _).mpr ?_)
  refine Act.wp_mono (revalidate_spec fate.root _) ?_
    fun e s₃ hs => hkeep (hkept.files hs.files) _
  intro _ s₃ hs₃
  have hsame₃ : s₃.files = s₂.files := hs₃.files
  have hkept₃ : RootKept v.root s₃ := hkept.files hsame₃
  refine Act.wp_mono (openFile_spec fate.root _ _ _ s₃) ?_
    fun e s₄ hs => hkeep (hkept₃.files hs.1.files) _
  intro source s₄ hrun
  obtain ⟨log, hopen, hfile⟩ := hrun
  have hlog := Opened.of_kept hkept₃ hopen hfile
  -- the rest leaves the root alone, and closing the log takes it back to where it was
  have hclosed : ∀ {v' : Vault H}, v'.root = s₄ →
      RootKept v.root (v'.setRoot (v'.root.close (encodeWide logFileName) source)).root ∧
      (v'.setRoot (v'.root.close (encodeWide logFileName) source)).exportFiles
        = v'.exports.files := by
    intro v' hroot
    have hfiles : (v'.root.close (encodeWide logFileName) source).files = s₃.files := by
      rw [hroot]
      exact hopen.close.files
    refine ⟨hkept₃.files hfiles, exportFiles_of_has ((hasExports_iff _).mpr ?_)⟩
    show Option.map _ ((v'.root.close (encodeWide logFileName) source).files.find _) = _
    rw [hfiles, hsame₃, hdirectory]
  rw [Act.wp_bind, Act.wp_ensuring]
  have hfind : s₄.files.find (encodeWide logFileName) = some _ := hopen.find
  refine Act.wp_mono (exportOpened_spec (v := ((v.start.setRoot s₂).setRoot s₄)) hfind) ?_ ?_
  · intro _ v' hdone
    obtain ⟨hroot, hcomplete, hfree, hfiles⟩ := hdone
    obtain ⟨hkept', hexports⟩ := hclosed hroot
    refine (Act.wp_pure _).mpr ⟨rfl, hkept', log, hlog, hcomplete, hfree, ?_⟩
    rw [hexports, hfiles]
    rfl
  · intro error v' hfailed
    obtain ⟨hroot, hwithdrawn⟩ := hfailed
    obtain ⟨hkept', hexports⟩ := hclosed hroot
    refine outcome_refused hkept' ⟨fun k hk => ?_, ?_⟩ error
    · rw [hexports]
      exact hwithdrawn.others k hk
    · rw [hexports]
      exact hwithdrawn.back

end Main

end WinProfile.Snapshot.Export
