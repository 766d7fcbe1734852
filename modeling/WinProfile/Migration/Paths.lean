/-
  File:      WinProfile/Migration/Paths.lean
  Subject:   core-profiles/src/migration.rs: the plan of a migration, its errors and progress, and the
             checks of its paths that look at the text only.

  * `releaseAbsolutePath` -- an absolute drive path in normal form, or an error that names the
    path it is about.
  * `pathsOverlap` -- the comparison of two such paths without case.
-/
import WinProfile.Lib.WinPath

namespace WinProfile

/-! ## 1. Plan, errors and progress -/

/-- `MigrationPlan`. -/
structure MigrationPlan where
  sourceSid : String
  sourcePath : String
  targetPath : String
  includeRoamingAppdata : Bool
  includePersonalFolders : Bool
  deriving DecidableEq, Repr

/-- `MigrationError`; the error of a foreign crate is its text. -/
inductive MigrationError where
  | sourceNotFound (path : String)
  | invalidPlan (reason : String)
  | reparsePoint (path : String)
  | destinationExists (path : String)
  | cancelled
  | sourceLoaded (sid : String)
  | verificationFailed (path : String)
  | rollbackFailed (operationError rollbackError : String)
  | ioError (text : String)
  | security (text : String)
  | audit (text : String)
  deriving DecidableEq, Repr

/-- The `Display` text. -/
def MigrationError.text : MigrationError → String
  | .sourceNotFound path => "Source profile directory does not exist: " ++ path
  | .invalidPlan reason => "Invalid migration plan: " ++ reason
  | .reparsePoint path => "Migration refuses to traverse a reparse point: " ++ path
  | .destinationExists path =>
    "Destination file already exists and will not be overwritten: " ++ path
  | .cancelled => "Migration was cancelled"
  | .sourceLoaded sid => "Source profile is currently loaded: " ++ sid
  | .verificationFailed path => "Copied file verification failed: " ++ path
  | .rollbackFailed operationError rollbackError =>
    "Migration rollback failed after '" ++ operationError ++ "': " ++ rollbackError
  | .ioError text => "IO error during migration copy: " ++ text
  | .security text => "Security validation failed: " ++ text
  | .audit text => "Audit journal error: " ++ text

namespace Progress

/-- `MigrationPhase`. -/
inductive MigrationPhase where
  | enumerating | copying | verifying | finalizing | rollingBack
  deriving DecidableEq, Repr

/-- `MigrationProgress`. -/
structure MigrationProgress where
  phase : MigrationPhase
  relativePath : Option String
  completedFiles : Nat
  copiedBytes : Nat
  deriving DecidableEq, Repr

end Progress

/-! ## 2. Components -/

/-- The characters `< > : " / \ | ? *`. -/
def forbiddenChars : List Nat := [0x3C, 0x3E, 0x3A, 0x22, 0x2F, 0x5C, 0x7C, 0x3F, 0x2A]

/-- The digits that make `COM` and `LPT` a device. -/
def deviceDigits : List String := ["1", "2", "3", "4", "5", "6", "7", "8", "9", "¹", "²", "³"]

/-- A reserved device name, in upper case. -/
def isReserved (upper : String) : Bool :=
  ["CON", "PRN", "AUX", "NUL", "CONIN$", "CONOUT$"].contains upper ||
    ((stripFront "COM" upper).map deviceDigits.contains).getD false ||
    ((stripFront "LPT" upper).map deviceDigits.contains).getD false

/-- `validate_windows_component`. -/
def validateWindowsComponent (component : Wide) (label : String) : Except MigrationError Unit :=
  let value := toStringLossy component
  if value.toList = [] ∨ value.toList.getLast? = some '.' ∨ value.toList.getLast? = some ' ' ∨
      value.toList.any (fun c => c.toNat ≤ 0x1F || forbiddenChars.contains c.toNat) then
    .error (.invalidPlan (label ++ " contains an invalid Windows path component: " ++ value))
  else
    let stem := String.ofList ((splitAtChar '.' value.toList).headD [])
    if isReserved (toAsciiUppercase stem) then
      .error (.invalidPlan (label ++ " contains a reserved Windows device name: " ++ value))
    else .ok ()

/-! ## 3. Paths -/

/-- `validate_raw_release_path`. -/
def validateRawReleasePath (path : Wide) (label : String) : Except MigrationError Unit :=
  match path with
  | d :: c :: b :: remainder =>
    if !WinPath.isAsciiLetter d || c != WinPath.colon || b != WinPath.backslash ||
        path.contains WinPath.slash then
      .error (.invalidPlan (label ++ " path must be a normalized absolute drive path"))
    else if remainder = [] then .ok ()
    else if (WinPath.pieces (· == WinPath.backslash) remainder).any fun piece =>
        piece = [] || piece = [WinPath.dot] || piece = [WinPath.dot, WinPath.dot] then
      .error (.invalidPlan (label ++ " path must not contain empty, '.' or '..' components"))
    else .ok ()
  | _ => .error (.invalidPlan (label ++ " path must be a normalized absolute drive path"))

/-- The loop of `release_absolute_path` over the components after the root. -/
def pushComponents (label : String) : Wide → List WinPath.Component → Except MigrationError Wide
  | normalized, [] => .ok normalized
  | normalized, .normal name :: rest => do
    validateWindowsComponent name label
    pushComponents label (WinPath.join normalized name) rest
  | _, .curDir :: _ => .error (.invalidPlan (label ++ " path must not contain '.' or '..'"))
  | _, .parentDir :: _ => .error (.invalidPlan (label ++ " path must not contain '.' or '..'"))
  | _, _ :: _ => .error (.invalidPlan (label ++ " path is not normalized"))

/-- `release_absolute_path`. -/
def releaseAbsolutePath (path : Wide) (label : String) : Except MigrationError Wide :=
  if path = [] then .error (.invalidPlan (label ++ " path is empty"))
  else do
    validateRawReleasePath path label
    match WinPath.components path with
    | .drive kind text :: more =>
      if kind = .disk then
        match more with
        | .rootDir :: rest => do
          let normalized ← pushComponents label (text ++ [WinPath.backslash]) rest
          if WinPath.components path = WinPath.components normalized then pure normalized
          else .error (.invalidPlan (label ++ " path is not normalized"))
        | _ => .error (.invalidPlan (label ++ " path must be rooted"))
      else
        .error (.invalidPlan (label ++ " path uses an unsupported UNC, device, or verbatim prefix"))
    | _ => .error (.invalidPlan (label ++ " path must be an absolute drive path"))

/-- `normalized_path_key`; `lower` is `str::to_lowercase`. -/
def normalizedPathKey (lower : String → String) (path : Wide) : String :=
  lower (trimEndBy (· == '\\') (replaceChar '/' '\\' (toStringLossy path)))

/-- `paths_overlap`. -/
def pathsOverlap (lower : String → String) (first second : Wide) : Bool :=
  let first := normalizedPathKey lower first
  let second := normalizedPathKey lower second
  first == second || ((stripFront first second).map (startsWith "\\")).getD false ||
    ((stripFront second first).map (startsWith "\\")).getD false

end WinProfile
