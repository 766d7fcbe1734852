/-
  File:      WinProfile/Profiles/Scanner.lean
  Subject:   core-profiles/src/scanner.rs and models.rs: the diagnostic scan of `ProfileList`.

  * `scanKey` -- one key of the list, with every anomaly in the order in which the scan finds it.
  * `markPathCollisions` -- the pass over all profiles that end in the same directory; the hash
    map yields its groups in an order of its own, `ScanHost.groups`.
  * `scanAllProfiles` -- the whole scan; a key that cannot be opened stops it.
  * `buildDiagnosticReport` -- the counts shown with the profiles.
  What the scan asks outside the registry (accounts, files, lock owners, directory sizes) is
  answered by the `ScanHost`, call by call; only the answers enter the report.
-/
import WinProfile.Repair.Engine

namespace WinProfile

variable {P : Platform}

/-! ## 1. Profiles -/

def VAL_GUID : String := "Guid"
def STATE_TEMP_PROFILE : UInt32 := 0x0080
def USRCLASS_DAT_REL_PATH : String := "AppData\\Local\\Microsoft\\Windows\\UsrClass.dat"

/-- Well-known system SIDs that the scan leaves out. -/
def SYSTEM_SID_PREFIXES : List String := ["S-1-5-18", "S-1-5-19", "S-1-5-20"]

/-- `ProfileAnomaly`. -/
inductive ProfileAnomaly where
  | bakSuffix
  | tempSession
  | orphanSid
  | pathCollision (path : String)
  | dirtyStateMask (mask : UInt32)
  | lockedNtUserDat (names : List String)
  | missingDirectory (path : String)
  | registryReadFailure (text : String)
  | sidResolutionFailure (text : String)
  | filesystemScanFailure (text : String)
  | lockInspectionFailure (text : String)
  deriving DecidableEq, Repr

/-- `ProfileHealth`. -/
inductive ProfileHealth where
  | healthy | warning | corrupted
  deriving DecidableEq, Repr

/-- `UserProfile`. -/
structure UserProfile where
  sid : String
  canonicalSid : String
  username : String
  domain : String
  profilePath : String
  loaded : Bool
  isBak : Bool
  stateMask : UInt32
  refCount : UInt32
  guid : Option String
  ntuserExists : Bool
  usrclassExists : Bool
  diskSizeBytes : Nat
  anomalies : List ProfileAnomaly
  health : ProfileHealth
  deriving DecidableEq, Repr

/-- An anomaly that makes a profile corrupted. -/
def ProfileAnomaly.corrupts : ProfileAnomaly → Bool
  | .bakSuffix | .tempSession | .pathCollision _ => true
  | _ => false

/-- `compute_health`. -/
def UserProfile.computeHealth (p : UserProfile) : UserProfile :=
  { p with health :=
      if p.isBak || p.anomalies.any ProfileAnomaly.corrupts then .corrupted
      else if !p.anomalies.isEmpty then .warning else .healthy }

/-- `ScannerError`. -/
inductive ScannerError where
  | registryError (error : RegistryError)
  | profileKeyUnreadable (key : String) (source : RegistryError)
  deriving DecidableEq, Repr

abbrev ScanM (P : Platform) := Act (Machine P) ScannerError

/-! ## 2. Collisions -/

/-- A path as the collision pass compares it. -/
def collisionPath (path : String) : String :=
  toAsciiLowercase (trimEndBy (fun c => c == '\\' || c == '/') path)

/-- `entry(key).or_default().push(index)`. -/
def pushIndex (key : String) (index : Nat) : List (String × List Nat) → List (String × List Nat)
  | [] => [(key, [index])]
  | (k, indexes) :: rest =>
    if k = key then (k, indexes ++ [index]) :: rest else (k, indexes) :: pushIndex key index rest

/-- `indexes_by_path`, from the profile number `index` on. -/
def indexesByPath (groups : List (String × List Nat)) (index : Nat) :
    List UserProfile → List (String × List Nat)
  | [] => groups
  | p :: ps =>
    indexesByPath (if isBlank p.profilePath then groups
      else pushIndex (collisionPath p.profilePath) index groups) (index + 1) ps

/-- What a profile in a group of several gets. -/
def UserProfile.collide (p : UserProfile) : UserProfile :=
  UserProfile.computeHealth
    { p with anomalies := p.anomalies ++ [.pathCollision p.profilePath] }

/-- `mark_path_collisions`, with the groups in the order that `yields` gives them. -/
def markPathCollisions (yields : List (List Nat) → List (List Nat)) (profiles : List UserProfile) :
    List UserProfile :=
  let groups := yields ((indexesByPath [] 0 profiles).map Prod.snd)
  (groups.filter fun indexes => indexes.length > 1).foldl
    (fun ps indexes => indexes.foldl (fun ps index => ps.modify index UserProfile.collide) ps)
    profiles

/-! ## 3. One key -/

/-- What the scan asks outside the registry; questions are numbered with the calls. -/
structure ScanHost where
  /-- `lookup_account_by_sid_string`: domain and user name. -/
  lookupAccount : Nat → String → Except String (String × String)
  /-- `Path::is_dir`. -/
  isDir : Nat → Wide → Bool
  /-- `Path::is_file`. -/
  isFile : Nat → Wide → Bool
  /-- The processes that a restart manager session reports for a file: name and id. -/
  lockingProcesses : Nat → Wide → Except String (List (String × UInt32))
  /-- `directory_size`. -/
  directorySize : Nat → Wide → Except String Nat
  /-- The order of the groups of a hash map. -/
  groups : List (List Nat) → List (List Nat)
  groups_perm : ∀ l, (groups l).Perm l

/-- A value and the anomalies that reading it found. -/
structure Reading (α : Type) where
  value : α
  anomalies : List ProfileAnomaly := []

/-- One question to the host. -/
def look {ε α : Type} (answer : Nat → α) : Act (Machine P) ε α := fun m =>
  (.ok (answer m.clock), m.tick)

/-- `enum_subkeys`, over the names that are there: one call a name, and one that ends it. -/
def enumNames : List String → Act (Machine P) RegistryError (List String)
  | [] => do
    regCall (Act.ret ())
    pure []
  | name :: names => do
    regCall (Act.ret ())
    let rest ← enumNames names
    pure (name :: rest)

def enumSubkeys : Act (Machine P) RegistryError (List String) := do
  let m ← Act.read
  enumNames (m.profileList.entries.map Prod.fst)

/-- `required_string`. -/
def requiredString (key : HKey) (valueName : String) : ScanM P (Reading String) := do
  match ← Act.attempt (queryValueString key valueName) with
  | .ok value =>
    if isBlank value then pure ⟨"", [.registryReadFailure (valueName ++ ": empty value")]⟩
    else pure ⟨value, []⟩
  | .error error => pure ⟨"", [.registryReadFailure (valueName ++ ": " ++ error.text)]⟩

/-- `optional_string`. -/
def optionalString (key : HKey) (valueName : String) : ScanM P (Reading (Option String)) := do
  match ← Act.attempt (queryValueString key valueName) with
  | .ok value => pure ⟨some value, []⟩
  | .error (.valueNotFound _) => pure ⟨none, []⟩
  | .error error => pure ⟨none, [.registryReadFailure (valueName ++ ": " ++ error.text)]⟩

/-- `optional_u32`. -/
def optionalU32 (key : HKey) (valueName : String) : ScanM P (Reading UInt32) := do
  match ← Act.attempt (queryValueU32 key valueName) with
  | .ok value => pure ⟨value, []⟩
  | .error (.valueNotFound _) => pure ⟨0, []⟩
  | .error error => pure ⟨0, [.registryReadFailure (valueName ++ ": " ++ error.text)]⟩

/-- `canonical_sid` of the scan: one `.bak` is taken off. -/
def scannedSid (sidKeyName : String) : String := (stripBack BAK_EXTENSION sidKeyName).getD sidKeyName

/-- The domain and the user name of a SID. -/
def accountOf (canonicalSid : String) :
    Except String (String × String) → Reading (String × String)
  | .ok account => ⟨account, []⟩
  | .error error => ⟨("", canonicalSid), [.sidResolutionFailure error]⟩

/-- Whether the hive of the account is loaded. -/
def loadedOf (canonicalSid : String) : Except RegistryError HKey → Reading Bool
  | .ok _ => ⟨true, []⟩
  | .error error =>
    if error = .win32Error ERROR_FILE_NOT_FOUND then ⟨false, []⟩
    else ⟨false, [.registryReadFailure ("HKEY_USERS\\" ++ canonicalSid ++ ": " ++ error.text)]⟩

/-- The anomalies of the key name and of the state mask. -/
def stateAnomalies (isBak : Bool) (stateMask : UInt32) : List ProfileAnomaly :=
  (if isBak then [.bakSuffix] else []) ++
  (if stateMask &&& STATE_TEMP_PROFILE ≠ 0 then [.tempSession] else []) ++
  (if stateMask ≠ 0 ∧ stateMask &&& STATE_TEMP_PROFILE = 0 then [.dirtyStateMask stateMask] else [])

/-- `inspect_locks`. -/
def lockAnomalies : Except String (List (String × UInt32)) → List ProfileAnomaly
  | .ok [] => []
  | .ok processes =>
    [.lockedNtUserDat (processes.map fun (name, id) => name ++ " (PID: " ++ toString id.toNat ++ ")")]
  | .error error => [.lockInspectionFailure error]

/-- The size of the profile directory. -/
def diskSizeOf : Except String Nat → Reading Nat
  | .ok size => ⟨size, []⟩
  | .error error => ⟨0, [.filesystemScanFailure error]⟩

/-- The body of the loop of `scan_all_profiles`. -/
def scanKey (H : ScanHost) (sidKeyName : String) : ScanM P UserProfile := do
  let isBak := endsWith BAK_EXTENSION sidKeyName
  let canonicalSid := scannedSid sidKeyName
  let currentKey ← Act.mapErr (.profileKeyUnreadable sidKeyName)
    (openKey .localMachine (REG_KEY_PROFILE_LIST ++ "\\" ++ sidKeyName))
  let profileImagePath ← requiredString currentKey VAL_PROFILE_IMAGE_PATH
  let stateMask ← optionalU32 currentKey VAL_STATE
  let refCount ← optionalU32 currentKey VAL_REF_COUNT
  let guid ← optionalString currentKey VAL_GUID
  let found ← look fun n => H.lookupAccount n canonicalSid
  let account := accountOf canonicalSid found
  let opened ← Act.attempt (openKey .users canonicalSid)
  let loaded := loadedOf canonicalSid opened
  let profileDir := encodeWide profileImagePath.value
  let dirExists ← look fun n => H.isDir n profileDir
  let ntuserPath := WinPath.join profileDir (encodeWide NTUSER_DAT)
  let ntuserExists ← look fun n => H.isFile n ntuserPath
  let usrclassExists ←
    look fun n => H.isFile n (WinPath.join profileDir (encodeWide USRCLASS_DAT_REL_PATH))
  let locks ← look fun n =>
    if dirExists && ntuserExists && !loaded.value then H.lockingProcesses n ntuserPath else .ok []
  let measured ← look fun n => if dirExists then H.directorySize n profileDir else .ok 0
  let size := diskSizeOf measured
  pure (UserProfile.computeHealth {
    sid := sidKeyName
    canonicalSid
    username := account.value.2
    domain := account.value.1
    profilePath := profileImagePath.value
    loaded := loaded.value
    isBak
    stateMask := stateMask.value
    refCount := refCount.value
    guid := guid.value
    ntuserExists
    usrclassExists
    diskSizeBytes := size.value
    anomalies := profileImagePath.anomalies ++ stateMask.anomalies ++ refCount.anomalies ++
      guid.anomalies ++ account.anomalies ++ loaded.anomalies ++
      stateAnomalies isBak stateMask.value ++
      (if dirExists then [] else [.missingDirectory profileImagePath.value]) ++
      lockAnomalies locks ++ size.anomalies
    health := .healthy })

/-! ## 4. The scan -/

/-- The loop of `scan_all_profiles`. -/
def scanKeys (H : ScanHost) : List String → ScanM P (List UserProfile)
  | [] => pure []
  | sidKeyName :: names =>
    if SYSTEM_SID_PREFIXES.contains (scannedSid sidKeyName) then scanKeys H names
    else do
      let profile ← scanKey H sidKeyName
      let profiles ← scanKeys H names
      pure (profile :: profiles)

/-- `scan_all_profiles`. -/
def scanAllProfiles (H : ScanHost) : ScanM P (List UserProfile) := do
  let _ ← Act.mapErr .registryError (openKey .localMachine REG_KEY_PROFILE_LIST)
  let subkeys ← Act.mapErr .registryError enumSubkeys
  let profiles ← scanKeys H subkeys
  pure (markPathCollisions H.groups profiles)

/-! ## 5. The report -/

/-- `DiagnosticReport`. -/
structure DiagnosticReport where
  timestamp : Int
  totalCount : Nat
  healthyCount : Nat
  warningCount : Nat
  corruptedCount : Nat
  temporaryCount : Nat
  profiles : List UserProfile

/-- `build_diagnostic_report`, at a time. -/
def buildDiagnosticReport (now : Int) (profiles : List UserProfile) : DiagnosticReport where
  timestamp := now
  totalCount := profiles.length
  healthyCount := (profiles.filter fun p => p.health = .healthy).length
  warningCount := (profiles.filter fun p => p.health = .warning).length
  corruptedCount := (profiles.filter fun p => p.health = .corrupted).length
  temporaryCount := (profiles.filter fun p => p.anomalies.contains .tempSession).length
  profiles

/-- `has_consistent_health_counts`. -/
def DiagnosticReport.hasConsistentHealthCounts (r : DiagnosticReport) : Bool :=
  r.totalCount == r.healthyCount + r.warningCount + r.corruptedCount

theorem hasConsistentHealthCounts_build (now : Int) (profiles : List UserProfile) :
    (buildDiagnosticReport now profiles).hasConsistentHealthCounts = true := by
  simp only [DiagnosticReport.hasConsistentHealthCounts, buildDiagnosticReport, beq_iff_eq]
  induction profiles with
  | nil => rfl
  | cons p profiles ih =>
    simp only [List.filter_cons, List.length_cons]
    cases p.health <;> simp <;> omega

end WinProfile
