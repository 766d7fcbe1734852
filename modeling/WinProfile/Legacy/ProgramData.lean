/-
  File:      WinProfile/Legacy/ProgramData.lean
  Subject:   audit-journal/src/storage.rs as the startup of WinProfile uses it: the ProgramData
             directory, the bootstrap directory in it, and every call that reads or changes them.

  * `validateDescriptor` -- the descriptor of a production root; `validateDescriptor_ok` says which.
  * `World` -- the objects by name, the files of the bootstrap directory, the bootstrap lock.
  * `Call`, `answer` -- one native call, with a fate: done, or failed before or after its effect.
  * `step` -- what a call may do; ids, identities and the order of enumeration are free.
-/
import WinProfile.Legacy.Record
import WinProfile.Lib.Process
import WinProfile.Win32.SecureFs

namespace WinProfile.Legacy

/-! ## 1. Security descriptors -/

def SYSTEM_SID : String := "S-1-5-18"
def ADMINISTRATORS_SID : String := "S-1-5-32-544"
def ACCESS_ALLOWED_ACE_TYPE : Nat := 0
def FILE_ALL_ACCESS : Nat := 0x1F01FF
/-- `OBJECT_INHERIT_ACE | CONTAINER_INHERIT_ACE`. -/
def INHERIT_FLAGS : Nat := 3

/-- `ACCESS_ALLOWED_ACE`. -/
structure Ace where
  aceType : Nat
  mask : Nat
  flags : Nat
  sid : String
  deriving DecidableEq, Repr

structure SecurityDescriptor where
  owner : Option String
  /-- `SE_DACL_PROTECTED`. -/
  isProtected : Bool
  dacl : Option (List Ace)
  deriving DecidableEq, Repr

/-- `legacy`. -/
def legacy (path reason : String) : StorageError := .legacyStorageInsecure s!"{path}: {reason}"

def Ace.isCanonical (ace : Ace) : Bool :=
  ace.aceType == ACCESS_ALLOWED_ACE_TYPE && ace.mask == FILE_ALL_ACCESS && ace.flags == INHERIT_FLAGS

/-- The loop of `validate_descriptor`. -/
def scanAces (path : String) : List Ace → Bool → Bool → Except StorageError (Bool × Bool)
  | [], systemSeen, administratorsSeen => .ok (systemSeen, administratorsSeen)
  | ace :: rest, systemSeen, administratorsSeen =>
    if !ace.isCanonical then .error (legacy path "DACL contains a non-canonical allow ACE")
    else if ace.sid = SYSTEM_SID then scanAces path rest true administratorsSeen
    else if ace.sid = ADMINISTRATORS_SID then scanAces path rest systemSeen true
    else .error (legacy path "DACL grants access to a third-party SID")

/-- `validate_descriptor`. -/
def validateDescriptor (path : String) (d : SecurityDescriptor) : Except StorageError Unit :=
  match d.owner, d.dacl with
  | some owner, some aces =>
    if !d.isProtected then .error (legacy path "DACL inheritance is not protected")
    else if owner ≠ SYSTEM_SID ∧ owner ≠ ADMINISTRATORS_SID then
      .error (legacy path "owner is neither SYSTEM nor Administrators")
    else if aces.length ≠ 2 then
      .error (legacy path "DACL must contain exactly SYSTEM and Administrators ACEs")
    else match scanAces path aces false false with
      | .error error => .error error
      | .ok (systemSeen, administratorsSeen) =>
        if !systemSeen || !administratorsSeen then
          .error (legacy path "SYSTEM or Administrators ACE is missing")
        else .ok ()
  | _, _ => .error (legacy path "owner or DACL is missing")

/-- The allow entry that a production root has for a SID. -/
def rootAce (sid : String) : Ace := ⟨ACCESS_ALLOWED_ACE_TYPE, FILE_ALL_ACCESS, INHERIT_FLAGS, sid⟩

/-- `ROOT_SDDL`. -/
def rootDescriptor : SecurityDescriptor where
  owner := some ADMINISTRATORS_SID
  isProtected := true
  dacl := some [rootAce SYSTEM_SID, rootAce ADMINISTRATORS_SID]

/-- **The descriptor of a production root**: SYSTEM or Administrators own it, and exactly these two
have full access, inherited by everything below and nothing inherited from above. -/
structure SecurityDescriptor.IsRoot (d : SecurityDescriptor) : Prop where
  owner : d.owner = some SYSTEM_SID ∨ d.owner = some ADMINISTRATORS_SID
  isProtected : d.isProtected = true
  dacl : d.dacl = some [rootAce SYSTEM_SID, rootAce ADMINISTRATORS_SID] ∨
    d.dacl = some [rootAce ADMINISTRATORS_SID, rootAce SYSTEM_SID]

section Descriptor

variable {path : String} {d : SecurityDescriptor} {a b : Ace}

theorem isCanonical_iff : a.isCanonical = true ↔ a = rootAce a.sid := by
  obtain ⟨aceType, mask, flags, sid⟩ := a
  simp [Ace.isCanonical, rootAce, and_assoc]

theorem sids_ne : ADMINISTRATORS_SID ≠ SYSTEM_SID := by decide

/-- One entry passes when it is that of one of the two accounts. -/
theorem scanAces_cons {rest : List Ace} {s t : Bool} {seen : Bool × Bool} :
    scanAces path (a :: rest) s t = .ok seen ↔
      a = rootAce SYSTEM_SID ∧ scanAces path rest true t = .ok seen ∨
        a = rootAce ADMINISTRATORS_SID ∧ scanAces path rest s true = .ok seen := by
  have hsid : ∀ sid, a = rootAce sid → a.sid = sid := fun sid h => by rw [h]; rfl
  rw [scanAces]
  by_cases ha : a.isCanonical = true
  · rw [if_neg (by simp [ha])]
    rw [isCanonical_iff] at ha
    by_cases hsystem : a.sid = SYSTEM_SID
    · rw [if_pos hsystem]
      have hadmin : a ≠ rootAce ADMINISTRATORS_SID := fun h =>
        sids_ne ((hsid _ h).symm.trans hsystem)
      have hace : a = rootAce SYSTEM_SID := hsystem ▸ ha
      simp only [hace ▸ hadmin, hace, true_and, false_and, or_false]
    · rw [if_neg hsystem]
      have hne : a ≠ rootAce SYSTEM_SID := fun h => hsystem (hsid _ h)
      by_cases hadmin : a.sid = ADMINISTRATORS_SID
      · rw [if_pos hadmin]
        have hace : a = rootAce ADMINISTRATORS_SID := hadmin ▸ ha
        simp only [hace ▸ hne, hace, true_and, false_and, false_or]
      · rw [if_neg hadmin]
        have hne' : a ≠ rootAce ADMINISTRATORS_SID := fun h => hadmin (hsid _ h)
        simp [hne, hne']
  · rw [if_pos (by simp [ha])]
    have hne : ∀ sid, a ≠ rootAce sid := fun sid h => ha (isCanonical_iff.mpr (by rw [h]; rfl))
    simp [hne]

/-- **Exactly the descriptors of production roots** are accepted, whatever the path. -/
theorem validateDescriptor_ok : validateDescriptor path d = .ok () ↔ d.IsRoot := by
  obtain ⟨owner, isProtected, dacl⟩ := d
  constructor
  · intro h
    unfold validateDescriptor at h
    split at h
    next owner aces howner hdacl =>
      simp only at howner hdacl
      subst howner hdacl
      split_ifs at h with hprotected howner hlength
      obtain ⟨a, b, rfl⟩ := List.length_eq_two.mp (not_not.mp hlength)
      cases hscan : scanAces path [a, b] false false with
      | error error => simp [hscan] at h
      | ok seen =>
        obtain ⟨systemSeen, administratorsSeen⟩ := seen
        simp only [hscan] at h
        split_ifs at h with hseen
        simp only [scanAces_cons] at hscan
        simp only [scanAces, Except.ok.injEq, Prod.mk.injEq] at hscan
        refine ⟨?_, by simpa using hprotected, ?_⟩
        · by_cases hsystem : owner = SYSTEM_SID
          · exact .inl (by rw [hsystem])
          · exact .inr (congrArg some (by_contra fun hadmin => howner ⟨hsystem, hadmin⟩))
        · rcases hscan with ⟨rfl, ⟨rfl, h₁, h₂⟩ | ⟨rfl, _⟩⟩ | ⟨rfl, ⟨rfl, _⟩ | ⟨rfl, h₁, h₂⟩⟩
          · exact absurd (by simp [← h₂]) hseen
          · exact .inl rfl
          · exact .inr rfl
          · exact absurd (by simp [← h₁]) hseen
    next => cases h
  · rintro ⟨howner, hprotected, hdacl⟩
    simp only at howner hprotected hdacl
    subst hprotected
    rcases howner with rfl | rfl <;> rcases hdacl with rfl | rfl <;> rfl

theorem rootDescriptor_isRoot : rootDescriptor.IsRoot := ⟨.inr rfl, rfl, .inl rfl⟩

end Descriptor

/-! ## 2. The directory -/

/-- An object of the file system: what no call of the program ever changes about it. -/
structure StorageObject where
  identity : StorageObjectIdentity
  isDirectory : Bool
  isReparse : Bool
  descriptor : SecurityDescriptor
  deriving DecidableEq, Repr

/-- **The production-root contract**: a directory that is no reparse point, with the descriptor of a
production root. -/
structure StorageObject.IsRoot (o : StorageObject) : Prop where
  isDirectory : o.isDirectory = true
  isReparse : o.isReparse = false
  descriptor : o.descriptor.IsRoot

/-- What `FILE_CREATE` with `ROOT_SDDL` makes. -/
def newRoot (identity : StorageObjectIdentity) : StorageObject :=
  { identity, isDirectory := true, isReparse := false, descriptor := rootDescriptor }

theorem newRoot_isRoot (identity : StorageObjectIdentity) : (newRoot identity).IsRoot :=
  ⟨rfl, rfl, rootDescriptor_isRoot⟩

/-- An open handle: the object, and the name it was opened or last renamed to, which stands for its
path in the texts of errors. -/
structure StorageHandle where
  path : String
  object : StorageObject
  deriving DecidableEq, Repr

/-- What an entry of the bootstrap directory is. -/
inductive EntryKind where
  | file (content : Bytes)
  | directory
  | reparse
  deriving DecidableEq, Repr

/-- An entry of the bootstrap directory; open handles know it by its serial number. -/
structure StateFile where
  name : Wide
  serial : Nat
  kind : EntryKind
  deriving DecidableEq, Repr

/-- The terminal entry in the journal of the root with this identity. -/
structure TerminalAudit where
  root : StorageObjectIdentity
  operation : String
  actor : String
  target : String
  status : AuditStatus
  details : String
  deriving DecidableEq, Repr

/-- ProgramData as all instances see it. Two names that the file system takes for one are one name
here; the program writes each of its names in one way. -/
structure World where
  names : String → Option StorageObject
  /-- The entries of the bootstrap directory, in the order in which they got their names. -/
  files : List StateFile := []
  nextSerial : Nat := 0
  /-- The instance that holds `.bootstrap.lock`. -/
  owner : Option Nat := none
  /-- The ids that `BCryptGenRandom` has given out. -/
  drawn : List String := []
  audits : List TerminalAudit := []

/-- The object of a handle gets a name that is free. -/
def World.renamed (w : World) (h : StorageHandle) (target : String) : World :=
  { w with names := Function.update (Function.update w.names h.path none) target (some h.object) }

/-! ## 3. Calls -/

inductive Call where
  /-- `nt_open_relative` with `FILE_DIRECTORY_FILE`. -/
  | openDirectory (name : String)
  /-- `nt_open_relative` of any object, a reparse point itself included. -/
  | openObject (name : String)
  | createDirectory (name : String)
  /-- `GetFileInformationByHandle`. -/
  | fileInformation (h : StorageHandle)
  /-- `GetSecurityInfo`, and the calls that take the descriptor apart. -/
  | securityInfo (h : StorageHandle)
  /-- `storage_object_identity`. -/
  | objectIdentity (h : StorageHandle)
  /-- `rename_by_handle`. -/
  | rename (h : StorageHandle) (target : String)
  /-- `delete_by_handle`. -/
  | remove (h : StorageHandle)
  /-- The loop of `acquire_protected_named_lock`. -/
  | acquireLock
  /-- `StorageDirectory::entries` of the bootstrap directory; `created`: by the handle that
  `create_protected_child` gave. -/
  | entries (created : Bool)
  /-- `StorageDirectory::open_file`; the handle is the content. -/
  | openFile (name : Wide)
  | readToEnd (content : Bytes)
  | createEntry (name : Wide)
  /-- `validate_kind` and `DuplicateHandle` on a file that was just created. -/
  | checkEntry (serial : Nat)
  | writeAll (serial : Nat) (bytes : Bytes)
  /-- `flush` and `sync_all`. -/
  | syncAll (serial : Nat)
  /-- `rename_by_handle` of a created file. -/
  | publish (serial : Nat) (name : Wide)
  | deleteEntry (serial : Nat)
  /-- `BCryptGenRandom`, as the text that `random_id` makes of it. -/
  | random
  | adjustPrivileges
  | restorePrivileges
  /-- `AuditLogger::from_storage`, `SnapshotEngine::from_storage`. -/
  | openService (root : StorageHandle)
  /-- `AuditLogger::log`. -/
  | appendAudit (entry : TerminalAudit)
  deriving DecidableEq, Repr

/-- What a call answers. -/
@[reducible] def Answer : Call → Type
  | .openDirectory _ | .openObject _ | .createDirectory _ => Except StorageError StorageHandle
  | .fileInformation _ => Except StorageError (Bool × Bool)
  | .securityInfo _ => Except StorageError SecurityDescriptor
  | .objectIdentity _ => Except StorageError StorageObjectIdentity
  | .rename _ _ | .remove _ | .acquireLock | .checkEntry _ | .publish _ _ | .deleteEntry _ =>
    Except StorageError Unit
  | .entries _ => Except StorageError (List Wide)
  | .openFile _ => Except StorageError Bytes
  | .createEntry _ => Except StorageError Nat
  | .readToEnd _ => Except String Bytes
  | .writeAll _ _ | .syncAll _ | .adjustPrivileges | .restorePrivileges | .openService _
  | .appendAudit _ => Except String Unit
  | .random => Except Int String

inductive Outcome where
  | done
  /-- The call fails and changes nothing. -/
  | before
  /-- The call has its effect and reports a failure. -/
  | after
  deriving DecidableEq, Repr

/-- What becomes of a call: its outcome, the error that it reports, and what the system chooses. -/
structure Fate where
  outcome : Outcome := .done
  error : StorageFault := ⟨.io "" "" "", by decide⟩
  text : String := ""
  status : Int := -1
  /-- How much of a write reaches the file when it fails. -/
  cut : Nat := 0
  id : String := ""
  fresh : StorageObjectIdentity := ⟨0, 0⟩
  order : List Wide := []

section Outcomes

variable {α ε : Type} (fate : Fate)

/-- A call with the effect `effect`; where that is an error, the call reports it. -/
def Fate.apply (fault : ε) (effect : Except ε (α × World)) (w : World) : Except ε α × World :=
  match fate.outcome, effect with
  | .done, .ok (a, w') => (.ok a, w')
  | .done, .error error => (.error error, w)
  | .after, .ok (_, w') => (.error fault, w')
  | _, _ => (.error fault, w)

/-- A call that answers `answer` and changes nothing. -/
def Fate.look (fault : ε) (answer : Except ε α) (w : World) : Except ε α × World :=
  match fate.outcome with
  | .done => (answer, w)
  | _ => (.error fault, w)

end Outcomes

def STATUS_NOT_A_DIRECTORY : Int := -1073741565
def STATUS_FILE_IS_A_DIRECTORY : Int := -1073741638
def STATUS_SHARING_VIOLATION : Int := -1073741757

/-- What a write adds to an entry. -/
def EntryKind.append (bytes : Bytes) : EntryKind → EntryKind
  | file content => file (content ++ bytes)
  | directory => directory
  | reparse => reparse

/-- The file with a serial number gets more content. -/
def World.append (w : World) (serial : Nat) (bytes : Bytes) : World :=
  { w with files := w.files.map fun f =>
      if f.serial = serial then { f with kind := f.kind.append bytes } else f }

def World.deleted (w : World) (serial : Nat) : World :=
  { w with files := w.files.filter fun f => f.serial ≠ serial }

/-- The file with a serial number gets a name that is free, and is the last to have got one. -/
def World.published (w : World) (serial : Nat) (name : Wide) : World :=
  { w with files := w.files.filter (fun f => f.serial ≠ serial) ++
      (w.files.filter fun f => f.serial = serial).map fun f => { f with name } }

def World.hasFile (w : World) (name : Wide) : Bool := w.files.any fun f => f.name = name

/-- What `open_file` finds under a name. -/
def World.lookFile (w : World) (name : Wide) : Except StorageError Bytes :=
  match w.files.find? fun f => f.name = name with
  | none => .error (.missing (toStringLossy name))
  | some f => match f.kind with
    | .file content => .ok content
    | .directory => .error (.native "open relative storage object" (toStringLossy name)
        STATUS_FILE_IS_A_DIRECTORY)
    | .reparse => .error (legacy (toStringLossy name) "reparse points are forbidden")

/-- `StorageDirectory::entries`, which opens the directory again by its path. That open does not share
the right to delete, which the handle of a directory has that was just created, and every reparse
point is refused, whatever its name. -/
def World.enumerated (w : World) (created : Bool) (order : List Wide) :
    Except StorageError (List Wide) :=
  if created then .error (.secureFs (SecureFsError.native "open relative to directory handle"
    BOOTSTRAP_DIRECTORY (hexStatus STATUS_SHARING_VIOLATION)).text)
  else match order.find? fun name => w.files.any fun f => f.name = name && f.kind = .reparse with
    | some name => .error (.secureFs (SecureFsError.reparsePoint
        (display (WinPath.join (encodeWide BOOTSTRAP_DIRECTORY) name))).text)
    | none => .ok order

/-- **One call** of the instance `me`. -/
def answer (me : Nat) (fate : Fate) : (c : Call) → World → Answer c × World
  | .openDirectory name, w => fate.look fate.error.error (match w.names name with
    | none => .error (.missing name)
    | some o =>
      if o.isDirectory then .ok ⟨name, o⟩
      else .error (.native "open relative storage object" name STATUS_NOT_A_DIRECTORY)) w
  | .openObject name, w => fate.look fate.error.error (match w.names name with
    | none => .error (.missing name)
    | some o => .ok ⟨name, o⟩) w
  | .createDirectory name, w => fate.apply fate.error.error (match w.names name with
    | some _ => .error (.taken name)
    | none => .ok (⟨name, newRoot fate.fresh⟩,
        { w with names := Function.update w.names name (some (newRoot fate.fresh)) })) w
  | .fileInformation h, w =>
    fate.look fate.error.error (.ok (h.object.isDirectory, h.object.isReparse)) w
  | .securityInfo h, w => fate.look fate.error.error (.ok h.object.descriptor) w
  | .objectIdentity h, w => fate.look fate.error.error (.ok h.object.identity) w
  | .rename h target, w => fate.apply fate.error.error
    (if w.names h.path = some h.object then match w.names target with
      | some _ => .error (.native "rename exact storage object by handle"
          s!"{h.path} -> {target}" STATUS_OBJECT_NAME_COLLISION)
      | none => .ok ((), w.renamed h target)
    else .error (.missing h.path)) w
  | .remove h, w => fate.apply fate.error.error
    (if w.names h.path = some h.object then
      .ok ((), { w with names := Function.update w.names h.path none })
    else .error (.missing h.path)) w
  | .acquireLock, w => match fate.outcome, w.owner with
    | .done, none => (.ok (), { w with owner := some me })
    | .done, some _ => (.error .lockTimeout, w)
    | _, _ => (.error fate.error.error, w)
  | .entries created, w => fate.look fate.error.error (w.enumerated created fate.order) w
  | .openFile name, w => fate.look fate.error.error (w.lookFile name) w
  | .readToEnd content, w => fate.look fate.text (.ok content) w
  | .createEntry name, w => fate.apply fate.error.error
    (if w.hasFile name then .error (.taken (toStringLossy name))
    else .ok (w.nextSerial, { w with
      files := w.files ++ [⟨name, w.nextSerial, .file []⟩], nextSerial := w.nextSerial + 1 })) w
  | .checkEntry _, w => fate.look fate.error.error (.ok ()) w
  | .writeAll serial bytes, w => match fate.outcome with
    | .done => (.ok (), w.append serial bytes)
    | .before => (.error fate.text, w)
    | .after => (.error fate.text, w.append serial (bytes.take fate.cut))
  | .syncAll _, w => fate.look fate.text (.ok ()) w
  | .publish serial name, w => fate.apply fate.error.error
    (if w.hasFile name then .error (.native "rename exact storage object by handle"
      (toStringLossy name) STATUS_OBJECT_NAME_COLLISION)
    else .ok ((), w.published serial name)) w
  | .deleteEntry serial, w => fate.apply fate.error.error (.ok ((), w.deleted serial)) w
  | .random, w => match fate.outcome with
    | .done => (.ok fate.id, { w with drawn := fate.id :: w.drawn })
    | _ => (.error fate.status, w)
  | .adjustPrivileges, w => fate.look fate.text (.ok ()) w
  | .restorePrivileges, w => fate.look fate.text (.ok ()) w
  | .openService _, w => fate.look fate.text (.ok ()) w
  | .appendAudit entry, w =>
    fate.apply fate.text (.ok ((), { w with audits := w.audits ++ [entry] })) w

/-- What the system may choose: an identity that no object has, an id that was not given out before,
and any order of the entries. -/
def Fate.Admissible (fate : Fate) (c : Call) (w : World) : Prop :=
  match c with
  | .createDirectory _ => ∀ name o, w.names name = some o → o.identity ≠ fate.fresh
  | .random => fate.id ∉ w.drawn
  | .entries _ => fate.order.Perm (w.files.map (·.name))
  | _ => True

/-- **What a call may do.** -/
def step (me : Nat) (c : Call) (w : World) (r : Answer c) (w' : World) : Prop :=
  ∃ fate : Fate, fate.Admissible c w ∧ answer me fate c w = (r, w')

/-- A program of the startup. -/
abbrev Prog (ε α : Type) := Proc Call Answer ε α

end WinProfile.Legacy
