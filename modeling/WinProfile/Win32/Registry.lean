/-
  File:      WinProfile/Win32/Registry.lean
  Subject:   platform-win32/src/registry.rs: the registry calls that scanning and repairing use,
             over the `ProfileList` key of HKLM and the loaded hives of HKEY_USERS.

  * A key is a tree of values and subkeys; `ProfileList` is a table of such trees whose names are
    compared without case (the operating system's upcase table is `Platform.up`).
  * `Platform.fault` decides for every single call whether it fails, and how. A failed call
    changes nothing; `rename_subkey` is all or nothing and refuses a taken name.
  * `Machine` holds what survives a call: the registry, the audit trail, the number of calls so
    far, and a record of what the running transaction did.
-/
import WinProfile.Journal.Entry
import WinProfile.Lib.Act
import WinProfile.Lib.NameTable
import WinProfile.Lib.Text

namespace WinProfile

/-! ## 1. Errors and values -/

/-- `RegistryError`. -/
inductive RegistryError where
  | win32Error (code : UInt32)
  | valueNotFound (value : String)
  | unexpectedValueType (value : String) (expected actual : UInt32)
  | invalidUtf16
  | environmentExpansionFailed (code : UInt32)
  | invalidPath
  deriving DecidableEq, Repr

/-- The `Display` text. -/
def RegistryError.text : RegistryError → String
  | .win32Error code => "Registry operation failed with Win32 error code: " ++ toString code.toNat
  | .valueNotFound value => "Registry value '" ++ value ++ "' not found"
  | .unexpectedValueType value expected actual =>
    "Registry value '" ++ value ++ "' has type " ++ toString actual.toNat ++ ", expected " ++
      toString expected.toNat
  | .invalidUtf16 => "Invalid UTF-16 registry data"
  | .environmentExpansionFailed code =>
    "Environment expansion failed with Win32 error code: " ++ toString code.toNat
  | .invalidPath => "Registry key path cannot be converted to wide string"

def ERROR_SUCCESS : UInt32 := 0
def ERROR_FILE_NOT_FOUND : UInt32 := 2
def ERROR_MORE_DATA : UInt32 := 234
def ERROR_KEY_DELETED : UInt32 := 1018

def REG_SZ : UInt32 := 1
def REG_EXPAND_SZ : UInt32 := 2
def REG_DWORD : UInt32 := 4

/-- A registry value: its type and its raw bytes. -/
structure RegValue where
  type : UInt32
  data : List UInt8
  deriving DecidableEq, Repr

/-- A key: its values and its subkeys, by name. -/
inductive RegKey where
  | mk (values : List (String × RegValue)) (subkeys : List (String × RegKey))

def RegKey.values : RegKey → List (String × RegValue)
  | .mk values _ => values

def RegKey.subkeys : RegKey → List (String × RegKey)
  | .mk _ subkeys => subkeys

/-- What `RegCreateKeyExW` makes. -/
def RegKey.empty : RegKey := .mk [] []

/-- The four bytes of a DWORD. -/
def dwordBytes (v : UInt32) : List UInt8 :=
  [v.toUInt8, (v >>> 8).toUInt8, (v >>> 16).toUInt8, (v >>> 24).toUInt8]

/-- A four-byte buffer, read as a DWORD after a query wrote into its front. -/
def dwordOf (data : List UInt8) : UInt32 :=
  (data.getD 0 0).toUInt32 ||| ((data.getD 1 0).toUInt32 <<< 8) |||
    ((data.getD 2 0).toUInt32 <<< 16) ||| ((data.getD 3 0).toUInt32 <<< 24)

/-- The units of a buffer of `div_ceil 2` units that a query filled with these bytes. -/
def unitsOf : List UInt8 → Wide
  | [] => []
  | [lo] => [lo.toUInt16]
  | lo :: hi :: rest => (lo.toUInt16 ||| (hi.toUInt16 <<< 8)) :: unitsOf rest

/-- `from_wide_null`. -/
def fromWideNull (units : Wide) : Except RegistryError String :=
  match decodeUtf16 (units.takeWhile (· != 0)) with
  | some text => .ok text
  | none => .error .invalidUtf16

/-! ## 2. The machine -/

/-- A failing call: its Win32 code, and its text where the caller's error is only a text. -/
structure Fault where
  code : UInt32
  text : String
  /-- It fails, and it does not claim that the object is missing. -/
  real : code ≠ ERROR_SUCCESS ∧ code ≠ ERROR_FILE_NOT_FOUND

/-- `ManualCloseBlocker`. -/
structure ManualCloseBlocker where
  application : String
  processId : UInt32
  deriving DecidableEq, Repr

/-- `FileIdentity`. -/
structure FileIdentity where
  volumeSerial : UInt32
  fileIndex : UInt64
  deriving DecidableEq, Repr

/-- What the operating system decides; calls are numbered in the order they are made. -/
structure Platform where
  /-- The upcase table that key and value names are compared with. -/
  up : Char → Char
  /-- The calls that fail. -/
  fault : Nat → Option Fault
  /-- `Utc::now()` in the format of backup and snapshot names. -/
  now : Nat → String
  /-- `ExpandEnvironmentStringsW`. -/
  expand : String → Except UInt32 Wide
  /-- `HiveLockInspector::inspect`. -/
  inspect : Nat → Wide → Except String (List ManualCloseBlocker)
  /-- The hives loaded under HKEY_USERS. -/
  users : List String
  /-- The error of a rename onto a taken name. -/
  nameTaken : Fault
  /-- The identity of the file that a call creates. -/
  identity : Nat → FileIdentity
  /-- SHA-256 of the hive file that a saved key makes. -/
  sha256 : RegKey → String

def Platform.fold (P : Platform) (name : String) : List Char := name.toList.map P.up

theorem Platform.length_fold (P : Platform) (name : String) :
    (P.fold name).length = name.toList.length := List.length_map P.up

/-- What a call of `AuditLogger::log` records, without its time. -/
structure AuditRecord where
  operation : String
  actor : String
  target : String
  status : AuditStatus
  details : String
  deriving DecidableEq, Repr

/-- `RegistryMutation`. -/
structure RegistryMutation where
  bakMoved : Bool := false
  canonicalBackup : Option String := none

/-- The computer as the repair sees it. -/
structure Machine (P : Platform) where
  profileList : NameTable P.fold RegKey
  audits : List AuditRecord := []
  /-- The number of calls made. -/
  clock : Nat := 0
  /-- The local `mutation` of `execute_plan`, which `execute_steps` gets by reference. -/
  mutation : RegistryMutation := {}
  /-- Observation only: some rename or value write went through. -/
  mutated : Bool := false
  /-- Observation only: the errors of the checks, renames and restores of a finished rollback. -/
  undone : Option (List String) := none

variable {P : Platform}

def Machine.tick (m : Machine P) : Machine P := { m with clock := m.clock + 1 }

def Machine.setKeys (m : Machine P) (t : NameTable P.fold RegKey) : Machine P :=
  { m with profileList := t }

/-- One call: it fails when the platform says so, else it does `body`. -/
def call {ε α : Type} (onFault : Fault → ε) (body : Act (Machine P) ε α) :
    Act (Machine P) ε α := fun m =>
  match P.fault m.clock with
  | some f => (.error (onFault f), m.tick)
  | none => body m.tick

/-- A call on the registry. -/
def regCall {α : Type} (body : Act (Machine P) RegistryError α) :
    Act (Machine P) RegistryError α :=
  call (fun f => .win32Error f.code) body

/-- A call on something whose state is not modelled here; its error is a text. -/
def external : Act (Machine P) String Unit := call (fun f => f.text) (Act.ret ())

/-! ## 3. The calls -/

/-- `RegistryRoot`, as far as it is used. -/
inductive RegistryRoot where
  | localMachine | users
  deriving DecidableEq, Repr

def REG_KEY_PROFILE_LIST : String :=
  "SOFTWARE\\Microsoft\\Windows NT\\CurrentVersion\\ProfileList"

def BAK_EXTENSION : String := ".bak"

/-- The keys a handle can be open on. -/
inductive HKey where
  | profileList
  | profile (name : String)
  | user (name : String)
  deriving DecidableEq, Repr

/-- The key a path under a root names. -/
def resolve : RegistryRoot → String → Option HKey
  | .users, path => some (.user path)
  | .localMachine, path =>
    if path = REG_KEY_PROFILE_LIST then some .profileList
    else match stripFront (REG_KEY_PROFILE_LIST ++ "\\") path with
      | some name => if '\\' ∈ name.toList then none else some (.profile name)
      | none => none

/-- The key a name under an open key names. -/
def HKey.child : HKey → String → Option HKey
  | .profileList, name => some (.profile name)
  | _, _ => none

def Machine.hasKey (m : Machine P) : HKey → Bool
  | .profileList => true
  | .profile name => (m.profileList.find name).isSome
  | .user name => P.users.any fun u => P.fold u == P.fold name

/-- The contents of an open key. -/
def Machine.keyOf (m : Machine P) : HKey → Option RegKey
  | .profile name => m.profileList.find name
  | _ => none

/-- `open_key_raw`. -/
def openKeyRaw (target : Option HKey) : Act (Machine P) RegistryError HKey :=
  regCall fun m => match target with
    | some key => if m.hasKey key then (.ok key, m) else (.error (.win32Error ERROR_FILE_NOT_FOUND), m)
    | none => (.error (.win32Error ERROR_FILE_NOT_FOUND), m)

/-- `open_key`. -/
def openKey (root : RegistryRoot) (path : String) : Act (Machine P) RegistryError HKey :=
  openKeyRaw (resolve root path)

/-- `open_subkey`. -/
def openSubkey (parent : HKey) (name : String) : Act (Machine P) RegistryError HKey :=
  openKeyRaw (parent.child name)

/-- `subkey_exists`: every error but not-found is passed on. -/
def subkeyExists (parent : HKey) (name : String) : Act (Machine P) RegistryError Bool := do
  match ← Act.attempt (openSubkey parent name) with
  | .ok _ => pure true
  | .error (.win32Error code) =>
    if code = ERROR_FILE_NOT_FOUND then pure false else Act.fail (.win32Error code)
  | .error error => Act.fail error

/-- `RegQueryValueExW`. -/
def regQueryValue (key : HKey) (name : String) : Act (Machine P) RegistryError RegValue :=
  regCall fun m => match m.keyOf key with
    | none => (.error (.win32Error ERROR_KEY_DELETED), m)
    | some k => match findName P.fold name k.values with
      | some v => (.ok v, m)
      | none => (.error (.win32Error ERROR_FILE_NOT_FOUND), m)

/-- A missing value is reported by its name. -/
def namedValue (name : String) : RegistryError → RegistryError
  | .win32Error code => if code = ERROR_FILE_NOT_FOUND then .valueNotFound name else .win32Error code
  | error => error

/-- `query_value_u32`, into a buffer of four bytes. -/
def queryValueU32 (key : HKey) (name : String) : Act (Machine P) RegistryError UInt32 := do
  let v ← Act.mapErr (namedValue name) (regQueryValue key name)
  if v.data.length > 4 then Act.fail (.win32Error ERROR_MORE_DATA)
  else if v.type = REG_DWORD then pure (dwordOf v.data)
  else Act.fail (.unexpectedValueType name REG_DWORD v.type)

/-- `decode_registry_string`. -/
def decodeRegistryString (P : Platform) (type : UInt32) (buffer : Wide) :
    Except RegistryError String := do
  let value ← fromWideNull buffer
  if type = REG_EXPAND_SZ then
    match P.expand value with
    | .ok expanded => fromWideNull expanded
    | .error code => .error (.environmentExpansionFailed code)
  else pure value

/-- `query_value_string`: once for the size, once for the bytes. -/
def queryValueString (key : HKey) (name : String) : Act (Machine P) RegistryError String := do
  let size ← Act.mapErr (namedValue name) (regQueryValue key name)
  if size.type ≠ REG_SZ ∧ size.type ≠ REG_EXPAND_SZ then
    Act.fail (.unexpectedValueType name REG_SZ size.type)
  else
    let v ← regQueryValue key name
    Act.ofExcept (decodeRegistryString P v.type (unitsOf v.data))

/-- `set_value_u32`. -/
def setValueU32 (key : HKey) (name : String) (val : UInt32) : Act (Machine P) RegistryError Unit :=
  regCall fun m => match key, m.keyOf key with
    | .profile keyName, some k =>
      let k' := RegKey.mk (putName P.fold name ⟨REG_DWORD, dwordBytes val⟩ k.values) k.subkeys
      (.ok (), { m.setKeys (m.profileList.put keyName k') with mutated := true })
    | _, _ => (.error (.win32Error ERROR_KEY_DELETED), m)

/-- `rename_subkey` under `ProfileList`. -/
def renameSubkey (old new : String) : Act (Machine P) RegistryError Unit :=
  regCall fun m => match m.profileList.rename old new with
    | some t => (.ok (), { m.setKeys t with mutated := true })
    | none =>
      if (m.profileList.find old).isSome then (.error (.win32Error P.nameTaken.code), m)
      else (.error (.win32Error ERROR_FILE_NOT_FOUND), m)

/-- `create_key`: creates or opens. -/
def createKey (parent : HKey) (name : String) : Act (Machine P) RegistryError HKey :=
  regCall fun m => match parent.child name with
    | some (.profile leaf) =>
      if (m.profileList.find leaf).isSome then (.ok (.profile leaf), m)
      else (.ok (.profile leaf), m.setKeys (m.profileList.put leaf .empty))
    | _ => (.error (.win32Error ERROR_FILE_NOT_FOUND), m)

/-- `save_key`: the contents of the key, as the hive file holds them. -/
def saveKey (key : HKey) : Act (Machine P) RegistryError RegKey :=
  regCall fun m => match m.keyOf key with
    | some k => (.ok k, m)
    | none => (.error (.win32Error ERROR_KEY_DELETED), m)

/-- `RegRestoreKeyW`: the contents of the key become those of the hive file. -/
def regRestoreKey (key : HKey) (hive : RegKey) : Act (Machine P) RegistryError Unit :=
  regCall fun m => match key with
    | .profile name => (.ok (), m.setKeys (m.profileList.put name hive))
    | _ => (.error (.win32Error ERROR_KEY_DELETED), m)

end WinProfile
