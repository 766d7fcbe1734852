/-
  File:      WinProfile/Snapshot/Atomic.lean
  Subject:   A call of `create_registry_snapshot` either adds one hive with its metadata, or leaves
             the directory as it was.

  * `Consistent` -- what `validate_inventory_entry` checks between a hive and its metadata.
  * `Undone` -- the files are back, or a removal has failed; every way out of the transaction ends
    there, whichever of the three clean-ups it takes.
  * `Created` -- what a successful call has made of the directory.
  * `snapshot_creation_atomic` -- the two together.
-/
import WinProfile.Snapshot.Engine

namespace WinProfile.Snapshot

open Handles

variable {H : Host} {α : Type}

/-! ## 1. Calls that change nothing -/

section Calls

variable {s : Store H} {name : Wide}

theorem wp_mayFail {ε : Type} {error : Option ε} {Q : Unit → Store H → Prop}
    {E : ε → Store H → Prop} (hE : ∀ e, error = some e → E e s) (hQ : error = none → Q () s) :
    Act.wp (mayFail error) Q E s := by
  cases h : error with
  | none => exact (Act.wp_ret ()).mpr (hQ h)
  | some e => exact (Act.wp_fail e).mpr (hE e h)

theorem hashCall_spec (hash : Nat → Option HashFault) (error : HashFault → SnapshotError)
    (s : Store H) :
    Act.wp (hashCall hash error) (fun _ => Same s) (fun _ s' => Same s s' ∧ ¬ Quiet hash) s := by
  rw [hashCall, Act.wp_of]
  cases h : hash s.clock with
  | none => exact Same.tick s
  | some f => exact ⟨Same.tick s, fun hq => not_quiet h hq⟩

theorem contentOf_spec {ε : Type} {f : SharedFile StoredFile} (h : s.files.find name = some f) :
    Act.wp (contentOf name : Act (Store H) ε Bytes)
      (fun content s' => content = f.body.content ∧ s' = s) (fun _ _ => False) s := by
  rw [contentOf, Act.wp_of]
  simp only [h, Option.map_some, Option.getD_some, and_self]

theorem flatten_chunks {n : Nat} (hn : 0 < n) :
    ∀ {rounds : Nat} {content : Bytes}, content.length ≤ rounds →
      (chunks n rounds content).flatten = content
  | 0, [], _ => rfl
  | _ + 1, [], _ => rfl
  | rounds + 1, b :: bs, h => by
    have hrest : ((b :: bs).drop n).length ≤ rounds := by
      rw [List.length_drop]
      have : (b :: bs).length = bs.length + 1 := rfl
      omega
    rw [chunks, List.flatten_cons, flatten_chunks hn hrest, List.take_append_drop]

theorem hashLoop_spec (hash : Nat → Option HashFault) (s : Store H) :
    ∀ (todo : List Bytes) (hashed : Bytes),
      Act.wp (hashLoop hash todo hashed)
        (fun result s' => result = hashed ++ todo.flatten ∧ Same s s')
        (fun _ s' => Same s s' ∧ ¬ Quiet hash) s := by
  intro todo
  induction todo generalizing s with
  | nil =>
    intro hashed
    rw [hashLoop, Act.wp_bind]
    refine Act.wp_mono (hashCall_spec hash _ s) (fun _ s' h => ?_) fun _ _ h => h
    exact (Act.wp_pure hashed).mpr ⟨(List.append_nil hashed).symm, h⟩
  | cons chunk rest ih =>
    intro hashed
    rw [hashLoop, Act.wp_bind]
    refine Act.wp_mono (hashCall_spec hash _ s) (fun _ s₁ h₁ => ?_) fun _ _ h => h
    rw [Act.wp_bind]
    refine Act.wp_mono (hashCall_spec hash _ s₁) (fun _ s₂ h₂ => ?_) fun _ _ h => ⟨h₁.trans h.1, h.2⟩
    have h₁₂ := h₁.trans h₂
    refine Act.wp_mono (ih s₂ (hashed ++ chunk)) ?_ fun _ _ h => ⟨h₁₂.trans h.1, h.2⟩
    intro result s₃ hrun
    obtain ⟨hresult, h₃⟩ := hrun
    refine ⟨?_, h₁₂.trans h₃⟩
    rw [hresult, List.flatten_cons, List.append_assoc]

/-- **`sha256_file`** answers the digest of what the file holds, and changes nothing. -/
theorem sha256File_spec (hash : Nat → Option HashFault) {f : SharedFile StoredFile}
    (h : s.files.find name = some f) : Act.wp (sha256File hash name)
      (fun digest s' => digest = H.sha256 f.body.content ∧ Same s s')
      (fun _ s' => Same s s' ∧ ¬ Quiet hash) s := by
  -- One more call that changes nothing.
  have hcall : ∀ {β : Type} {s₁ : Store H} {error : HashFault → SnapshotError}
      {rest : Unit → Act (Store H) SnapshotError β} {Q : β → Store H → Prop}, Same s s₁ →
      (∀ s₂, Same s s₂ → Act.wp (rest ()) Q (fun _ s' => Same s s' ∧ ¬ Quiet hash) s₂) →
      Act.wp (hashCall hash error >>= rest) Q (fun _ s' => Same s s' ∧ ¬ Quiet hash) s₁ := by
    intro β s₁ error rest Q h₁ hrest
    rw [Act.wp_bind]
    refine Act.wp_mono (hashCall_spec hash error s₁) (fun _ s₂ h₂ => hrest s₂ (h₁.trans h₂)) ?_
    exact fun _ _ h => ⟨h₁.trans h.1, h.2⟩
  rw [sha256File]
  refine hcall (Same.refl s) fun s₁ h₁ => hcall h₁ fun s₂ h₂ => hcall h₂ fun s₃ h₃ =>
    hcall h₃ fun s₄ h₄ => ?_
  rw [Act.wp_bind]
  refine Act.wp_mono (contentOf_spec (by rw [h₄.files]; exact h)) ?_ fun _ _ h => h.elim
  intro content s₅ hrun
  obtain ⟨rfl, rfl⟩ := hrun
  rw [Act.wp_bind]
  refine Act.wp_mono (hashLoop_spec hash _ _ []) ?_ fun _ _ h => ⟨h₄.trans h.1, h.2⟩
  intro hashed s₆ hrun
  obtain ⟨hhashed, h₆⟩ := hrun
  refine hcall (h₄.trans h₆) fun s₇ h₇ => (Act.wp_pure _).mpr ⟨?_, h₇⟩
  rw [hhashed, List.nil_append, flatten_chunks (by decide) le_rfl]

theorem fileIdentity_spec (faults : Faults) {f : SharedFile StoredFile}
    (h : s.files.find name = some f) : Act.wp (fileIdentity faults name)
      (fun identity s' => identity = f.body.identity ∧ Same s s')
      (fun _ s' => Same s s' ∧ ¬ Quiet faults) s := by
  refine wp_storageCall (fun _ hf => ⟨Same.tick s, fun hq => not_quiet hf hq⟩) ?_
  rw [Act.wp_of]
  simp only [Store.tick_files, h]
  exact ⟨trivial, Same.tick s⟩

end Calls

/-! ## 2. The inventory's checks -/

def SnapshotMetadata.hiveName (metadata : SnapshotMetadata) : Wide :=
  encodeWide metadata.snapshotFileName

def SnapshotMetadata.fileName (metadata : SnapshotMetadata) : String :=
  metadata.snapshotFileName ++ ".json"

/-- The name of the metadata file. -/
def SnapshotMetadata.metadataName (metadata : SnapshotMetadata) : Wide :=
  encodeWide metadata.fileName

/-- What `validate_inventory_entry` checks between a metadata file and a hive. -/
structure Consistent (H : Host) (metadataFile : String) (metadata : SnapshotMetadata)
    (hive : StoredFile) : Prop where
  suffix : endsWith ".hiv" metadata.snapshotFileName = true
  name : metadataFile = metadata.fileName
  component : validateComponent metadata.hiveName = .ok ()
  identity : hive.identity = ⟨metadata.fileVolumeSerial, metadata.fileIndex⟩
  digest : H.sha256 hive.content = metadata.sha256

section Inventory

variable {s : Store H} {metadataFile : String} {metadata : SnapshotMetadata}

/-- The checks on the open hive pass when they hold and no call fails, and only then. -/
theorem validateHive_spec (faults : Faults) (hash : Nat → Option HashFault)
    {f : SharedFile StoredFile} (h : s.files.find metadata.hiveName = some f) :
    Act.wp (validateHive faults hash metadataFile metadata)
      (fun _ s' => Same s s' ∧
        f.body.identity = ⟨metadata.fileVolumeSerial, metadata.fileIndex⟩ ∧
        H.sha256 f.body.content = metadata.sha256)
      (fun _ s' => Same s s' ∧ (Quiet faults → Quiet hash →
        f.body.identity = ⟨metadata.fileVolumeSerial, metadata.fileIndex⟩ →
        H.sha256 f.body.content ≠ metadata.sha256)) s := by
  rw [validateHive, Act.wp_bind, Act.wp_mapErr]
  refine Act.wp_mono (fileIdentity_spec faults h) ?_ fun _ _ h => ⟨h.1, fun hq => absurd hq h.2⟩
  intro identity s₁ hrun
  obtain ⟨rfl, h₁⟩ := hrun
  rw [Act.wp_bind, Act.wp_guard]
  split
  · next hidentity =>
    rw [Act.wp_bind, Act.wp_mapErr]
    refine Act.wp_mono (sha256File_spec hash (by rw [h₁.files]; exact h)) ?_
      fun _ _ h => ⟨h₁.trans h.1, fun _ hq => absurd hq h.2⟩
    intro digest s₂ hrun
    obtain ⟨rfl, h₂⟩ := hrun
    rw [Act.wp_guard]
    split
    · next hdigest =>
      exact ⟨h₁.trans h₂, of_decide_eq_true hidentity, of_decide_eq_true hdigest⟩
    · next hdigest => exact ⟨h₁.trans h₂, fun _ _ _ hd => hdigest (decide_eq_true hd)⟩
  · next hidentity => exact ⟨h₁, fun _ _ hi => absurd (decide_eq_true hi) hidentity⟩

/-- The access with which the inventory opens a hive. -/
def inventoryAccess : UInt32 := FILE_GENERIC_READ ||| FILE_READ_ATTRIBUTES ||| SYNCHRONIZE

/-- **`validate_inventory_entry`** changes nothing; it passes only on a consistent entry whose hive
the sharing rule lets it open, and always there when no call fails. -/
theorem validateInventoryEntry_spec (faults : Faults) (hash : Nat → Option HashFault)
    (metadataFile : String) (metadata : SnapshotMetadata) (s : Store H) :
    Act.wp (validateInventoryEntry faults hash metadataFile metadata)
      (fun _ s' => Same s s' ∧ ∃ f, s.files.find metadata.hiveName = some f ∧
        f.admits (accessRights inventoryAccess) (shareRights FILE_SHARE_READ) = true ∧
        Consistent H metadataFile metadata f.body)
      (fun _ s' => Same s s' ∧ (Quiet faults → Quiet hash →
        ∀ f, Ready metadata.hiveName inventoryAccess FILE_SHARE_READ f s →
          ¬ Consistent H metadataFile metadata f.body)) s := by
  rw [validateInventoryEntry, Act.wp_bind, Act.wp_guard]
  split
  · next hsuffix =>
    rw [Act.wp_bind, Act.wp_guard]
    split
    · next hname =>
      rw [Act.wp_bind, Act.wp_mapErr]
      refine wp_check (fun e he => ⟨Same.refl s, fun _ _ f _ hc => ?_⟩) fun hcomponent => ?_
      · cases he.symm.trans hc.component
      rw [Act.wp_bind, Act.wp_mapErr]
      refine Act.wp_mono (openFile_spec faults _ _ _ s) ?_
        fun _ _ h => ⟨h.1, fun hq _ f hready => absurd hready (h.2.2 hq f)⟩
      intro handle s₁ hrun
      obtain ⟨f, hopen, -⟩ := hrun
      rw [Act.wp_ensuring]
      refine Act.wp_mono (validateHive_spec faults hash hopen.find) ?_ ?_
      · intro _ s₂ hrun
        obtain ⟨h₂, hidentity, hdigest⟩ := hrun
        refine ⟨(hopen.of_same h₂).close, f, hopen.found, hopen.admitted, ?_⟩
        exact ⟨hsuffix, of_decide_eq_true hname, hcomponent, hidentity, hdigest⟩
      · intro e s₂ hrun
        obtain ⟨h₂, hfails⟩ := hrun
        refine ⟨(hopen.of_same h₂).close, fun hq hh g hready hc => ?_⟩
        obtain rfl : g = f := Option.some.inj (hready.found.symm.trans hopen.found)
        exact hfails hq hh hc.identity hc.digest
    · next hname => exact ⟨Same.refl s, fun _ _ _ _ hc => hname (decide_eq_true hc.name)⟩
  · next hsuffix => exact ⟨Same.refl s, fun _ _ _ _ hc => hsuffix hc.suffix⟩

end Inventory

/-! ## 3. Cleaning up -/

/-- The files are as they were before, or a removal has failed. -/
def Undone (before : NameTable H.fold (SharedFile StoredFile)) (s : Store H) : Prop :=
  s.removalFailed = true ∨ s.files = before

/-- The handle of a `ProtectedSnapshotArtifact`. -/
def artifactHandle : OpenHandle where
  number := 1
  access := accessRights (FILE_GENERIC_READ ||| FILE_READ_ATTRIBUTES ||| DELETE ||| SYNCHRONIZE)
  share := shareRights FILE_SHARE_READ

/-- A hive file with the handle of its artifact. -/
def heldHive (hive : StoredFile) : SharedFile StoredFile where
  body := hive
  handles := [artifactHandle]

section CleanUp

variable {s : Store H} {before : NameTable H.fold (SharedFile StoredFile)} {name : Wide}
  (faults : Faults)

/-- What the clean-ups by name find: nothing, or a file that no one has open. -/
def LeftBehind (name : Wide) (before : NameTable H.fold (SharedFile StoredFile)) (s : Store H) :
    Prop :=
  s.files = before ∧ before.find name = none ∨ ∃ f, Added name f before s ∧ f.handles = []

theorem removeLeftBehind_spec (h : LeftBehind name before s) :
    Act.wp (removeFileIfExists faults name) (fun _ s' => Undone before s')
      (fun _ s' => Undone before s') s := by
  rcases h with ⟨rfl, hfree⟩ | ⟨f, hadded, hclosed⟩
  · exact Act.wp_mono (removeFileIfExists_free faults hfree) (fun _ _ h => .inr h.files)
      fun _ _ h => .inl h
  · exact Act.wp_mono (removeFileIfExists_spec faults hadded hclosed) (fun _ _ h => .inr h.1)
      fun _ _ h => .inl h

theorem cleanupAfterFailedSave_spec (filename : String) (saveError : RegistryError)
    (h : LeftBehind (encodeWide filename) before s) :
    Act.wp (cleanupAfterFailedSave faults filename saveError : Act (Store H) SnapshotError α)
      (fun _ _ => False) (fun _ s' => Undone before s') s := by
  rw [cleanupAfterFailedSave, Act.wp_bind]
  refine Act.wp_attempt_of (removeLeftBehind_spec faults h) fun r s' hs => ?_
  cases r with
  | ok _ => exact (Act.wp_fail _).mpr hs
  | error _ => exact (Act.wp_fail _).mpr hs

theorem cleanupAfterPostSaveError_spec (filename : String) (operationError : SnapshotError)
    (h : LeftBehind (encodeWide filename) before s) :
    Act.wp (cleanupAfterPostSaveError faults filename operationError :
        Act (Store H) SnapshotError α)
      (fun _ _ => False) (fun _ s' => Undone before s') s := by
  rw [cleanupAfterPostSaveError, Act.wp_bind]
  refine Act.wp_attempt_of (removeLeftBehind_spec faults h) fun r s' hs => ?_
  cases r with
  | ok _ => exact (Act.wp_fail _).mpr hs
  | error _ => exact (Act.wp_fail _).mpr hs

/-- The metadata file that a clean-up finds: none yet, or the one that was created. -/
def Pending (before : NameTable H.fold (SharedFile StoredFile)) (s : Store H) :
    Option CreatedStorageFile → Prop
  | none => Undone before s
  | some created => ∃ name share body, created = { name, file := 1, cleanupHandle := 2 } ∧
      Added name (createdFile share body) before s

theorem rollbackErrors_spec {metadataFile : Option CreatedStorageFile}
    (h : Pending before s metadataFile) :
    Act.wp (rollbackErrors faults metadataFile) (fun _ s' => Undone before s')
      (fun _ _ => False) s := by
  cases metadataFile with
  | none => exact (Act.wp_ret _).mpr h
  | some created =>
    obtain ⟨name, share, body, hc, hadded⟩ := h
    rw [rollbackErrors, Act.wp_rescue, Act.wp_bind]
    refine Act.wp_mono (rollback_spec faults hc hadded) ?_ ?_
    · exact fun _ _ h => (Act.wp_pure _).mpr (.inr h.1)
    · exact fun _ _ h => (Act.wp_ret _).mpr (.inl h)

/-- The hive is removed through the handle of its artifact, when the metadata file is gone. -/
theorem hiveErrors_spec {metadata : SnapshotMetadata} {hive : StoredFile}
    {identity : FileIdentity} (hartifact : metadata.protectedArtifact = some ⟨1, name, identity⟩)
    (hfree : before.find name = none) (h : Undone (before.put name (heldHive hive)) s) :
    Act.wp (hiveErrors faults metadata) (fun _ s' => Undone before (metadata.release s'))
      (fun _ _ => False) s := by
  have hrelease : ∀ s' : Store H, metadata.release s' = s'.close name 1 := fun s' => by
    rw [SnapshotMetadata.release, hartifact]
  simp only [hiveErrors, hartifact, hrelease, Act.wp_rescue, Act.wp_bind]
  have hfailed : ∀ s' : Store H, s'.removalFailed = true → Undone before (s'.close name 1) :=
    fun s' hs => .inl ((Store.close_removalFailed ..).trans hs)
  rcases h with hremoval | hfiles
  · refine Act.wp_mono (deleteByHandle_failed faults _ name 1 hremoval) ?_ ?_
    · exact fun _ s' hs => (Act.wp_pure _).mpr (hfailed s' hs)
    · exact fun _ s' hs => (Act.wp_ret _).mpr (hfailed s' hs)
  · have hadded : Added name (heldHive hive) before s := ⟨hfree, hfiles⟩
    refine Act.wp_mono (deleteByHandle_spec faults _ hadded.find (h := artifactHandle) rfl rfl) ?_ ?_
    · intro _ s' hrun
      obtain ⟨hmarked, -⟩ := hrun
      have hfind : s'.files.find name = some (heldHive hive).marked := by
        rw [hmarked, NameTable.find_put, if_pos rfl]
      refine (Act.wp_pure _).mpr (.inr ?_)
      rw [Store.close_goes hfind rfl, hmarked, hfiles, NameTable.put_put,
        NameTable.erase_put hfree]
    · exact fun _ s' hs => (Act.wp_ret _).mpr (hfailed s' hs)

/-- **`cleanup_transaction_artifacts`** leaves the directory as it was before the hive. -/
theorem cleanupTransactionArtifacts_spec {metadata : SnapshotMetadata} {hive : StoredFile}
    {identity : FileIdentity} {metadataFile : Option CreatedStorageFile}
    (hartifact : metadata.protectedArtifact = some ⟨1, name, identity⟩)
    (hfree : before.find name = none)
    (h : Pending (before.put name (heldHive hive)) s metadataFile) :
    Act.wp (cleanupTransactionArtifacts faults metadata metadataFile)
      (fun _ s' => Undone before s') (fun _ _ => False) s := by
  rw [cleanupTransactionArtifacts, Act.wp_bind]
  refine Act.wp_mono (rollbackErrors_spec faults h) (fun _ s₁ h₁ => ?_) fun _ _ h => h
  rw [Act.wp_bind]
  refine Act.wp_mono (hiveErrors_spec faults hartifact hfree h₁) (fun _ s₂ h₂ => ?_) fun _ _ h => h
  rw [Act.wp_bind, Act.wp_update]
  exact (Act.wp_pure _).mpr h₂

theorem cleanupAfterMetadataError_spec {metadata : SnapshotMetadata} {hive : StoredFile}
    {identity : FileIdentity} {metadataFile : Option CreatedStorageFile}
    (operationError : SnapshotError)
    (hartifact : metadata.protectedArtifact = some ⟨1, name, identity⟩)
    (hfree : before.find name = none)
    (h : Pending (before.put name (heldHive hive)) s metadataFile) :
    Act.wp (cleanupAfterMetadataError faults metadata metadataFile operationError :
        Act (Store H) SnapshotError α)
      (fun _ _ => False) (fun _ s' => Undone before s') s := by
  rw [cleanupAfterMetadataError, Act.wp_bind]
  refine Act.wp_mono (cleanupTransactionArtifacts_spec faults hartifact hfree h)
    (fun errors s' hs => ?_) fun _ _ h => h.elim
  split
  · exact (Act.wp_fail _).mpr hs
  · exact (Act.wp_fail _).mpr hs

end CleanUp

/-! ## 4. The transaction -/

section Transaction

variable {C : MetadataCodec} {fate : Fate} {request : SnapshotRequest} {s : Store H}
  {before : NameTable H.fold (SharedFile StoredFile)} {filename : String}

theorem checkFree_spec (fate : Fate) (filename : String) (s : Store H) :
    Act.wp (checkFree fate filename)
      (fun _ s' => Same s s' ∧ s.files.find (encodeWide filename) = none)
      (fun _ s' => Undone s.files s') s := by
  rw [checkFree, Act.wp_bind, Act.wp_attempt]
  refine Act.wp_mono (openFile_spec fate.calls _ _ _ s) ?_ ?_
  · intro handle s₁ hrun
    obtain ⟨f, hopen, -⟩ := hrun
    exact (Act.wp_ensuring _ _).mpr ((Act.wp_fail _).mpr (.inr hopen.close.files))
  · intro e s₁ hrun
    obtain ⟨hsame, hmissing, -⟩ := hrun
    cases he : e.isNotFound with
    | true =>
      simp only [he, if_true, Act.wp_pure]
      exact ⟨hsame, hmissing he⟩
    | false =>
      simp only [he, Bool.false_eq_true, if_false, Act.wp_fail]
      exact .inr hsame.files

/-- A save makes a closed file, or fails and leaves at most one. -/
theorem saveKey_spec (fate : Fate) {name : Wide} (hfree : s.files.find name = none) :
    Act.wp (saveKey fate name)
      (fun _ s' => ∃ hive : StoredFile, Added name { body := hive } s.files s' ∧
        hive.kind = .file ∧ fate.save = .ok hive.content ∧ s'.removalFailed = s.removalFailed)
      (fun _ s' => LeftBehind name s.files s') s := by
  rw [saveKey, Act.wp_of]
  simp only [hfree]
  cases fate.save with
  | ok content => exact ⟨_, ⟨hfree, rfl⟩, rfl, rfl, rfl⟩
  | error failure =>
    obtain ⟨error, leftover⟩ := failure
    cases leftover with
    | none => exact .inl ⟨rfl, hfree⟩
    | some content => exact .inr ⟨_, ⟨hfree, rfl⟩, rfl⟩

theorem closeOnError_spec {ε : Type} {name : Wide} {handle : Nat} {m : Act (Store H) ε α}
    {Q : α → Store H → Prop} {R : Store H → Prop}
    (h : Act.wp m Q (fun _ s' => R (s'.close name handle)) s) :
    Act.wp (closeOnError name handle m) Q (fun _ s' => R s') s := by
  rw [closeOnError, Act.wp_rescue]
  refine Act.wp_mono h (fun _ _ h => h) fun e s' hs => ?_
  exact (Act.wp_ensuring _ _).mpr ((Act.wp_fail e).mpr hs)

/-- The saved hive is held and measured, or left closed as it was. -/
theorem openArtifact_spec (fate : Fate) {hive : StoredFile}
    (h : Added (encodeWide filename) { body := hive } before s) :
    Act.wp (openArtifact fate filename)
      (fun saved s' => checkName (encodeWide filename) = .ok () ∧
        Added (encodeWide filename) (heldHive hive) before s' ∧
        saved = (⟨1, encodeWide filename, hive.identity⟩, H.sha256 hive.content) ∧
        s'.removalFailed = s.removalFailed)
      (fun _ s' => Same s s') s := by
  rw [openArtifact, Act.wp_bind, Act.wp_mapErr]
  refine Act.wp_mono (openFile_spec fate.calls _ _ _ s) ?_ fun _ _ h => h.1
  intro handle s₁ hrun
  obtain ⟨f, hopen, -⟩ := hrun
  obtain rfl : f = { body := hive } := Option.some.inj (hopen.found.symm.trans h.find)
  rw [Act.wp_bind]
  refine closeOnError_spec ?_
  rw [Act.wp_mapErr]
  refine Act.wp_mono (fileIdentity_spec fate.calls hopen.find) ?_
    fun _ _ hs => (hopen.of_same hs.1).close
  intro identity s₂ hrun
  obtain ⟨rfl, h₂⟩ := hrun
  have hopen₂ := hopen.of_same h₂
  rw [Act.wp_bind]
  refine closeOnError_spec ?_
  refine Act.wp_mono (sha256File_spec fate.hash hopen₂.find) ?_
    fun _ _ hs => (hopen₂.of_same hs.1).close
  intro digest s₃ hrun
  obtain ⟨rfl, h₃⟩ := hrun
  have hopen₃ := hopen₂.of_same h₃
  refine (Act.wp_pure _).mpr ⟨hopen.named, ⟨h.free, ?_⟩, ?_, hopen₃.removalFailed⟩
  · rw [hopen₃.files, h.files, NameTable.put_put]
    rfl
  · rw [hopen.number]
    rfl

/-- What a transaction makes of the directory: the hive, held by its artifact, and a metadata file
that names it. -/
structure Stored (before : NameTable H.fold (SharedFile StoredFile)) (metadata : SnapshotMetadata)
    (hive : StoredFile) (file : SharedFile StoredFile)
    (after : NameTable H.fold (SharedFile StoredFile)) : Prop where
  free : before.find metadata.hiveName = none
  freeMetadata : (before.put metadata.hiveName (heldHive hive)).find metadata.metadataName = none
  files : after
    = (before.put metadata.hiveName (heldHive hive)).put metadata.metadataName file
  kind : hive.kind = .file
  hiveNamed : checkName metadata.hiveName = .ok ()
  metadataNamed : checkName metadata.metadataName = .ok ()
  consistent : Consistent H metadata.fileName metadata hive
  artifact : metadata.protectedArtifact = some ⟨1, metadata.hiveName, hive.identity⟩

/-- The metadata file is created under a free name, or the hive goes away again. -/
theorem createMetadata_spec (fate : Fate) {metadata : SnapshotMetadata} {hive : StoredFile}
    (hartifact : metadata.protectedArtifact = some ⟨1, metadata.hiveName, hive.identity⟩)
    (h : Added metadata.hiveName (heldHive hive) before s) :
    Act.wp (createMetadata fate metadata)
      (fun created s' => ∃ identity, checkName metadata.metadataName = .ok () ∧
        created = { name := metadata.metadataName, file := 1, cleanupHandle := 2 } ∧
        Added metadata.metadataName (createdFile FILE_SHARE_READ (newFile identity).body) s.files s' ∧
        s'.removalFailed = s.removalFailed)
      (fun _ s' => Undone before s') s := by
  rw [createMetadata, Act.wp_bind, Act.wp_read, Act.wp_rescue]
  refine Act.wp_mono (createFile_spec fate.calls _ _ FILE_SHARE_READ s)
    (fun created s' hc => ⟨_, hc⟩) fun error s' hs => ?_
  have hpending : Pending (before.put metadata.hiveName (heldHive hive)) s' none := by
    rcases hs with hremoval | hsame
    · exact .inl hremoval
    · exact .inr (hsame.files.trans h.files)
  exact Act.wp_mono (cleanupAfterMetadataError_spec fate.calls _ hartifact h.free hpending)
    (fun _ _ h => h.elim) fun _ _ h => h

/-- Whatever stops the writing, the file and its handles stay where they are. -/
theorem writeMetadata_spec (C : MetadataCodec) (fate : Fate) {metadata : SnapshotMetadata}
    {identity : FileIdentity} {created : CreatedStorageFile}
    (hc : created = { name := metadata.metadataName, file := 1, cleanupHandle := 2 })
    (h : Added metadata.metadataName (createdFile FILE_SHARE_READ (newFile identity).body) before s) :
    Act.wp (writeMetadata C fate metadata created)
      (fun _ s' => Added metadata.metadataName (createdFile FILE_SHARE_READ
        ⟨.file, C.encode metadata, identity⟩) before s' ∧ s'.removalFailed = s.removalFailed)
      (fun _ s' => ∃ body, Added metadata.metadataName (createdFile FILE_SHARE_READ body) before s')
      s := by
  subst hc
  rw [writeMetadata, Act.wp_bind, Act.wp_update]
  simp only [h.find]
  cases hcut : fate.written with
  | some cut =>
    rw [Act.wp_bind]
    refine wp_mayFail (fun _ _ => ?_) fun hnone => by cases hnone
    refine ⟨⟨.file, (C.encode metadata).take cut.1, identity⟩, h.free, ?_⟩
    rw [Store.setFile_files, h.files, NameTable.put_put]
    rfl
  | none =>
    have hwritten : Added metadata.metadataName (createdFile FILE_SHARE_READ
        ⟨.file, C.encode metadata, identity⟩) before (s.setFile metadata.metadataName
        (createdFile FILE_SHARE_READ ⟨.file, C.encode metadata, identity⟩)) := by
      refine ⟨h.free, ?_⟩
      rw [Store.setFile_files, h.files, NameTable.put_put]
    rw [Act.wp_bind]
    refine wp_mayFail (fun _ hsome => by cases hsome) fun _ => ?_
    rw [Act.wp_bind]
    refine wp_mayFail (fun _ _ => ⟨_, hwritten⟩) fun _ => ?_
    exact wp_mayFail (fun _ _ => ⟨_, hwritten⟩) fun _ => ⟨hwritten, rfl⟩

/-- **The operation**, whatever fails in it. -/
theorem captureHive_spec (C : MetadataCodec) (fate : Fate) (request : SnapshotRequest)
    (sequence : Nat) (hsuffix : endsWith ".hiv" filename = true) (s : Store H) :
    Act.wp (captureHive C fate request sequence filename)
      (fun done s' => ∃ hive identity,
        done.2 = { name := done.1.metadataName, file := 1, cleanupHandle := 2 } ∧
        Stored s.files done.1 hive
          (createdFile FILE_SHARE_READ ⟨.file, C.encode done.1, identity⟩) s'.files ∧
        fate.save = .ok hive.content ∧ s'.removalFailed = s.removalFailed)
      (fun _ s' => Undone s.files s') s := by
  rw [captureHive, Act.wp_bind, Act.wp_mapErr]
  cases hcomponent : validateComponent (encodeWide filename) with
  | error e => exact (Act.wp_ofExcept _).mpr (.inr rfl)
  | ok _ =>
    refine (Act.wp_ofExcept _).mpr ?_
    rw [Act.wp_bind]
    refine Act.wp_mono (checkFree_spec fate filename s) ?_ fun _ _ h => h
    intro _ s₁ hrun
    obtain ⟨h₁, hfree⟩ := hrun
    rw [Act.wp_bind]
    refine wp_mayFail (fun _ _ => .inr h₁.files) fun _ => ?_
    rw [Act.wp_bind, Act.wp_rescue]
    refine Act.wp_mono (saveKey_spec fate (by rw [h₁.files]; exact hfree)) ?_ fun e s₂ hleft => ?_
    · intro _ s₂ hrun
      obtain ⟨hive, hadded, hkind, hsave, h₂⟩ := hrun
      rw [h₁.files] at hadded
      rw [Act.wp_bind, Act.wp_rescue]
      refine Act.wp_mono (openArtifact_spec fate hadded) ?_ fun e s₃ hsame => ?_
      · intro saved s₃ hrun
        obtain ⟨hhiveNamed, hheld, rfl, h₃⟩ := hrun
        rw [Act.wp_bind]
        have hmetadata : (metadataOf fate request H sequence filename
            (⟨1, encodeWide filename, hive.identity⟩, H.sha256 hive.content)).protectedArtifact
              = some ⟨1, encodeWide filename, hive.identity⟩ := rfl
        refine Act.wp_mono (createMetadata_spec fate hmetadata hheld) ?_ fun _ _ h => h
        intro created s₄ hrun
        obtain ⟨identity, hnamed, hcreated, hfile, h₄⟩ := hrun
        rw [Act.wp_bind, Act.wp_rescue]
        refine Act.wp_mono (writeMetadata_spec C fate hcreated hfile) ?_ fun e s₅ hs => ?_
        · intro _ s₅ hrun
          obtain ⟨hwritten, h₅⟩ := hrun
          rw [hheld.files] at hwritten
          refine (Act.wp_pure _).mpr ⟨hive, identity, hcreated, ?_, hsave, ?_⟩
          · exact ⟨hheld.free, hwritten.free, hwritten.files, hkind, hhiveNamed, hnamed,
              ⟨hsuffix, rfl, hcomponent, rfl, rfl⟩, rfl⟩
          · rw [h₅, h₄, h₃, h₂, h₁.removalFailed]
        · obtain ⟨body, hbody⟩ := hs
          rw [hheld.files] at hbody
          exact Act.wp_mono (cleanupAfterMetadataError_spec fate.calls e rfl hheld.free
            ⟨_, _, _, hcreated, hbody⟩) (fun _ _ h => h.elim) fun _ _ h => h
      · exact Act.wp_mono (cleanupAfterPostSaveError_spec fate.calls filename e
          (.inr ⟨_, ⟨hadded.free, hsame.files.trans hadded.files⟩, rfl⟩))
          (fun _ _ h => h.elim) fun _ _ h => h
    · rw [h₁.files] at hleft
      exact Act.wp_mono (cleanupAfterFailedSave_spec fate.calls filename e hleft)
        (fun _ _ h => h.elim) fun _ _ h => h

/-- The end of the transaction: the metadata file is closed, or everything goes away. -/
theorem finish_stored_spec {done : SnapshotMetadata × CreatedStorageFile} {hive file : StoredFile}
    (hcreated : done.2 = { name := done.1.metadataName, file := 1, cleanupHandle := 2 })
    (h : Stored before done.1 hive (createdFile FILE_SHARE_READ file) s.files)
    (restore : Option SecurityError) :
    Act.wp (finishSnapshotOperation fate.calls (.ok done) restore)
      (fun metadata s' => metadata = done.1 ∧ Stored before metadata hive { body := file } s'.files)
      (fun _ s' => Undone before s') s := by
  have hadded : Added done.1.metadataName (createdFile FILE_SHARE_READ file)
      (before.put done.1.hiveName (heldHive hive)) s := ⟨h.freeMetadata, h.files⟩
  cases restore with
  | none =>
    rw [finishSnapshotOperation, Act.wp_bind, Act.wp_update]
    have hcommit := (commit_spec hcreated hadded).1
    exact (Act.wp_pure _).mpr ⟨rfl, h.free, h.freeMetadata, hcommit.files, h.kind,
      h.hiveNamed, h.metadataNamed, h.consistent, h.artifact⟩
  | some restoreError =>
    rw [finishSnapshotOperation, Act.wp_bind]
    refine Act.wp_mono (cleanupTransactionArtifacts_spec fate.calls h.artifact h.free
      ⟨_, _, _, hcreated, hadded⟩) (fun errors s' hs => ?_) fun _ _ h => h.elim
    split
    · exact (Act.wp_fail _).mpr hs
    · exact (Act.wp_fail _).mpr hs

theorem endsWith_snapshotFileName (H : Host) (now : Int) (sequence : Nat) (sid : String) :
    endsWith ".hiv" (snapshotFileName H now sequence sid) = true := by
  rw [endsWith, List.isSuffixOf_iff_suffix, snapshotFileName, String.toList_append]
  exact List.suffix_append _ _

/-- **`create_registry_snapshot`**, whatever the world does to it. -/
theorem createRegistrySnapshot_spec (C : MetadataCodec) (fate : Fate) (request : SnapshotRequest)
    (s : Store H) :
    Act.wp (createRegistrySnapshot C fate request)
      (fun metadata s' => ∃ hive identity,
        Stored s.files metadata hive { body := ⟨.file, C.encode metadata, identity⟩ } s'.files ∧
        fate.save = .ok hive.content)
      (fun _ s' => Undone s.files s') s := by
  rw [createRegistrySnapshot, Act.wp_bind, Act.wp_update, Act.wp_bind, Act.wp_mapErr]
  refine wp_mayFail (fun _ _ => .inr rfl) fun _ => ?_
  rw [Act.wp_bind, Act.wp_mapErr]
  refine wp_mayFail (fun _ _ => .inr rfl) fun _ => ?_
  rw [Act.wp_bind, Act.wp_attempt, captureSnapshot, Act.wp_bind, nextSequence, Act.wp_of]
  refine Act.wp_mono (captureHive_spec C fate request _ (endsWith_snapshotFileName ..) _) ?_ ?_
  · intro done s₁ hrun
    obtain ⟨hive, identity, hcreated, hstored, hsave, -⟩ := hrun
    refine Act.wp_mono (finish_stored_spec hcreated hstored fate.restore) ?_ fun _ _ h => h
    intro metadata s₂ hrun
    obtain ⟨rfl, hdone⟩ := hrun
    exact ⟨hive, identity, hdone, hsave⟩
  · intro operationError s₁ hundone
    cases fate.restore with
    | none => exact (Act.wp_fail _).mpr hundone
    | some restoreError => exact (Act.wp_fail _).mpr hundone

end Transaction

/-! ## 5. Atomicity -/

/-- **A call of `create_registry_snapshot` is atomic**: it adds one hive and one metadata file that
is named after it and consistent with it, or, if no removal fails, nothing. -/
theorem snapshot_creation_atomic (C : MetadataCodec) (fate : Fate) (request : SnapshotRequest)
    (s : Store H) :
    match createRegistrySnapshot C fate request s with
    | (.ok metadata, s') => ∃ hive identity,
        s'.files.entries = s.files.entries ++ [(metadata.hiveName, heldHive hive),
          (metadata.metadataName, { body := ⟨.file, C.encode metadata, identity⟩ })] ∧
        fate.save = .ok hive.content ∧
        C.decode (C.encode metadata) = .ok metadata.stored ∧
        Consistent H metadata.fileName metadata.stored hive
    | (.error _, s') => s'.removalFailed = false → s'.files = s.files := by
  have hspec := createRegistrySnapshot_spec C fate request s
  unfold Act.wp at hspec
  split at hspec
  · next metadata s' hrun =>
    obtain ⟨hive, identity, hstored, hsave⟩ := hspec
    rw [hrun]
    refine ⟨hive, identity, ?_, hsave, C.decode_encode metadata, ?_⟩
    · rw [hstored.files, NameTable.entries_put hstored.freeMetadata,
        NameTable.entries_put hstored.free, List.append_assoc]
      rfl
    · exact ⟨hstored.consistent.suffix, rfl, hstored.consistent.component,
        hstored.consistent.identity, hstored.consistent.digest⟩
  · next error s' hrun =>
    rw [hrun]
    intro hremoval
    rcases hspec with hfailed | hfiles
    · rw [hremoval] at hfailed
      cases hfailed
    · exact hfiles

end WinProfile.Snapshot
