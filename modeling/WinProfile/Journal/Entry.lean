/-
  File:      WinProfile/Journal/Entry.lean
  Subject:   The records and the errors of audit-journal/src/journal.rs and storage.rs.
-/
import Mathlib.Tactic

namespace WinProfile

/-- `AuditStatus`. -/
inductive AuditStatus where
  | success | warning | failed | rolledBack
  deriving DecidableEq, Repr

/-- `AuditEntry`; the time counts nanoseconds. -/
structure AuditEntry where
  timestamp : Int
  operation : String
  actor : String
  target : String
  status : AuditStatus
  details : String
  deriving DecidableEq, Repr

def STATUS_OBJECT_NAME_NOT_FOUND : Int := -1073741772
def STATUS_OBJECT_NAME_COLLISION : Int := -1073741771
def STATUS_OBJECT_PATH_NOT_FOUND : Int := -1073741766

/-- `StorageError`. -/
inductive StorageError where
  | io (operation path source : String)
  | native (operation path : String) (status : Int)
  | legacyStorageInsecure (text : String)
  | lockTimeout
  | invalidComponent (name : String)
  | secureFs (text : String)
  | knownFolder (code : Int)
  | cleanupFailed (operationError cleanupError : String)
  deriving DecidableEq, Repr

namespace StorageError

def isNotFound : StorageError → Bool
  | native _ _ status => status == STATUS_OBJECT_NAME_NOT_FOUND || status == STATUS_OBJECT_PATH_NOT_FOUND
  | _ => false

def isCollision : StorageError → Bool
  | native _ _ status => status == STATUS_OBJECT_NAME_COLLISION
  | _ => false

/-- What `nt_open_relative` answers for a name that is not there. -/
def missing (name : String) : StorageError :=
  native "open relative storage object" name STATUS_OBJECT_NAME_NOT_FOUND

/-- What `nt_open_relative` answers when it should create a name that is there. -/
def taken (name : String) : StorageError :=
  native "open relative storage object" name STATUS_OBJECT_NAME_COLLISION

end StorageError

/-- A failing storage call: its error is not one of those that the code takes for an answer. -/
structure StorageFault where
  error : StorageError
  real : error.isNotFound = false ∧ error.isCollision = false

/-- `AuditError`. -/
inductive AuditError where
  | io (text : String)
  | serialization (text : String)
  | bufferPoisoned
  | invalidEntry (line : Nat) (reason : String)
  | invalidConfiguration (text : String)
  | entryTooLarge (actual maximum : Nat)
  | storage (error : StorageError)
  deriving DecidableEq, Repr

end WinProfile
