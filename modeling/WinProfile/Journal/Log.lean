/-
  File:      WinProfile/Journal/Log.lean
  Subject:   audit-journal/src/journal.rs: appending, rotating and loading the audit log, over a
             storage root in which every call may fail and every append may be cut short.

  * `JournalConfig` -- what the loggers on one root share; `build` refuses limits of zero, so a
    configuration cannot have them.
  * `LogCall` -- one call of `AuditLogger::log` with its fate: which storage calls fail, whether
    the display buffer is poisoned, after how many bytes the append stops.
  * `rotateIfNeeded`, `log`, `build` -- the operations. All of one call runs under the storage lock,
    so a run of any number of loggers is a sequence of such calls.
-/
import WinProfile.Journal.Entry
import WinProfile.Lib.Act

namespace WinProfile

/-! ## 1. Lines -/

abbrev Bytes := List UInt8

def newline : UInt8 := 10
def carriageReturn : UInt8 := 13

/-- Why a line is no entry. -/
inductive LineFault where
  | notUtf8
  | json (reason : String)
  deriving DecidableEq, Repr

/-- `serde_json` on an entry, its text as UTF-8: what is written is one line without control
characters, it is not blank, and it reads back as the entry. -/
structure LineCodec where
  /-- `serde_json::to_string`. -/
  encode : AuditEntry → Except String Bytes
  /-- `serde_json::from_str` of a line. -/
  decode : Bytes → Except LineFault AuditEntry
  /-- `line.trim().is_empty()`. -/
  blank : Bytes → Bool
  decode_encode : ∀ {e b}, encode e = .ok b → decode b = .ok e
  printable : ∀ {e b}, encode e = .ok b → ∀ c ∈ b, 0x20 ≤ c
  nonblank : ∀ {e b}, encode e = .ok b → blank b = false

/-- The lines that end with a newline, and what follows the last newline. -/
def splitLines : Bytes → List Bytes × Bytes
  | [] => ([], [])
  | c :: cs =>
    let (lines, rest) := splitLines cs
    if c = newline then ([] :: lines, rest)
    else match lines with
      | [] => ([], c :: rest)
      | line :: more => ((c :: line) :: more, rest)

/-- A line of `BufRead::lines`: one carriage return before the newline is dropped. -/
def dropCarriageReturn (line : Bytes) : Bytes :=
  if line.getLast? = some carriageReturn then line.dropLast else line

/-- `BufRead::lines`. -/
def bufLines (content : Bytes) : List Bytes :=
  let (lines, rest) := splitLines content
  lines.map dropCarriageReturn ++ (if rest = [] then [] else [rest])

/-! ## 2. The storage root -/

/-- The display buffer of a logger, oldest entry first. -/
structure Display where
  buffer : List AuditEntry := []
  maxMemoryEntries : Nat := 0

/-- The files of the root and the loggers that are open on it. -/
structure Journal where
  files : String → Option Bytes
  loggers : Nat → Display := fun _ => {}
  /-- The storage calls made by the current log call. -/
  clock : Nat := 0
  /-- Observation only: the contents of the files that were removed, in order. -/
  removed : List Bytes := []

def Journal.empty : Journal where
  files := fun _ => none

def Journal.setFile (j : Journal) (name : String) (content : Option Bytes) : Journal :=
  { j with files := fun n => if n = name then content else j.files n }

/-- The storage calls that fail, by their number within the log call. -/
abbrev Faults := Nat → Option StorageFault

/-- What the world does to one call of `log` or `build`. -/
structure Fate where
  /-- `acquire_lock`. -/
  lock : Option StorageFault := none
  /-- The display buffer's mutex is poisoned. -/
  poisoned : Bool := false
  /-- The calls of `rotate_if_needed`. -/
  rotation : Faults := fun _ => none
  /-- The calls that open the file, and the seek. -/
  opening : Faults := fun _ => none
  /-- The process dies, or a write, the flush or the sync fails, when this many bytes of the line
  are in the file. -/
  cut : Option Nat := none

/-- One storage call. -/
def storageCall {α : Type} (faults : Faults) (body : Act Journal StorageError α) :
    Act Journal StorageError α := fun j =>
  match faults j.clock with
  | some f => (.error f.error, { j with clock := j.clock + 1 })
  | none => body { j with clock := j.clock + 1 }

/-- `StorageRoot::revalidate`. -/
def revalidate (faults : Faults) : Act Journal StorageError Unit := storageCall faults (Act.ret ())

/-- `StorageDirectory::open_file`: the content of the file. -/
def openChild (faults : Faults) (name : String) : Act Journal StorageError Bytes :=
  storageCall faults fun j => match j.files name with
    | some content => (.ok content, j)
    | none => (.error (.missing name), j)

/-- `StorageRoot::open_file`. -/
def openFile (faults : Faults) (name : String) : Act Journal StorageError Bytes := do
  revalidate faults
  openChild faults name

/-- `StorageRoot::create_file`. -/
def createFile (faults : Faults) (name : String) : Act Journal StorageError Unit := do
  revalidate faults
  storageCall faults fun j => match j.files name with
    | some _ => (.error (.taken name), j)
    | none => (.ok (), j.setFile name (some []))

/-- `StorageRoot::remove_file_if_exists`. -/
def removeFileIfExists (faults : Faults) (name : String) : Act Journal StorageError Bool := do
  revalidate faults
  match ← Act.attempt (openChild faults name) with
  | .error error => if error.isNotFound then pure false else Act.fail error
  | .ok content =>
    storageCall faults (Act.ret ())  -- validate_kind
    storageCall faults (Act.update fun j =>
      { j.setFile name none with removed := j.removed ++ [content] })
    pure true

/-- `StorageRoot::durable_rename`. -/
def durableRename (faults : Faults) (source target : String) : Act Journal StorageError Unit := do
  revalidate faults
  let content ← openChild faults source
  match ← Act.attempt (openChild faults target) with
  | .ok _ => Act.fail (.native "durable rename target collision" target STATUS_OBJECT_NAME_COLLISION)
  | .error error =>
    if error.isNotFound then
      storageCall faults (Act.update fun j => (j.setFile source none).setFile target (some content))
    else Act.fail error

/-! ## 3. The logger -/

/-- A u64 addition that saturates. -/
def saturatingAdd (a b : Nat) : Nat := min (a + b) (2 ^ 64 - 1)

/-- What the loggers on one root have in common. -/
structure JournalConfig where
  logFileName : String
  maxLogBytes : Nat
  maxArchives : Nat
  bytesPositive : 0 < maxLogBytes
  bytesU64 : maxLogBytes < 2 ^ 64
  archivesPositive : 0 < maxArchives

/-- `archive_name`. -/
def archiveName (fileName : String) (index : Nat) : String := fileName ++ "." ++ toString index

/-- One call of `AuditLogger::log`: the logger, the entry it builds, and its fate. -/
structure LogCall where
  logger : Nat
  entry : AuditEntry
  fate : Fate := {}

section Logger

variable (J : JournalConfig) (C : LineCodec)

/-- `validate_optional_file`. -/
def validateOptionalFile (faults : Faults) (name : String) : Act Journal StorageError Bool := do
  match ← Act.attempt (openFile faults name) with
  | .ok _ => pure true
  | .error error => if error.isNotFound then pure false else Act.fail error

/-- One round of the loop of `rotate_if_needed`. -/
def rotateRound (faults : Faults) (index : Nat) : Act Journal StorageError Unit := do
  let currentName := archiveName J.logFileName index
  let there ← validateOptionalFile faults currentName
  Act.when there <|
    if index = J.maxArchives then do
      let _ ← removeFileIfExists faults currentName
    else durableRename faults currentName (archiveName J.logFileName (index + 1))

/-- The size of the current file. -/
def currentBytes (faults : Faults) : Act Journal StorageError Nat := do
  match ← Act.attempt (openFile faults J.logFileName) with
  | .ok content =>
    storageCall faults (Act.ret ())  -- metadata
    pure content.length
  | .error error => if error.isNotFound then pure 0 else Act.fail error

/-- The shift of `rotate_if_needed`: the archives from the oldest, then the current file. -/
def rotate (faults : Faults) : Act Journal StorageError Unit := do
  Act.forEach (List.range' 1 J.maxArchives).reverse (rotateRound J faults)
  let there ← validateOptionalFile faults J.logFileName
  Act.when there (durableRename faults J.logFileName (archiveName J.logFileName 1))

/-- `rotate_if_needed`. -/
def rotateIfNeeded (faults : Faults) (additionalBytes : Nat) : Act Journal StorageError Unit := do
  let current ← currentBytes J faults
  if saturatingAdd current additionalBytes ≤ J.maxLogBytes then pure () else rotate J faults

/-- `open_log_for_append`: the content of the file. -/
def openLogForAppend (faults : Faults) : Act Journal StorageError Bytes := do
  match ← Act.attempt (createFile faults J.logFileName) with
  | .ok () => pure []
  | .error error =>
    if error.isCollision then openFile faults J.logFileName else Act.fail error

/-- `writeln!`, `flush` and `sync_data`, as far as the fate lets them go; a file cannot grow past
the largest u64. -/
def appendLine (cut : Option Nat) (before line : Bytes) : Act Journal AuditError Unit := fun j =>
  match cut with
  | some k => (.error (.io "append interrupted"),
      j.setFile J.logFileName (some (before ++ line.take k)))
  | none =>
    if before.length + line.length < 2 ^ 64 then
      (.ok (), j.setFile J.logFileName (some (before ++ line)))
    else (.error (.io "file too large"), j)

/-- One more entry in a display buffer. -/
def Display.push (d : Display) (entry : AuditEntry) : Display :=
  if d.maxMemoryEntries = 0 then d
  else if d.buffer.length ≥ d.maxMemoryEntries then { d with buffer := d.buffer.drop 1 ++ [entry] }
  else { d with buffer := d.buffer ++ [entry] }

/-- `AuditLogger::log`. -/
def log (call : LogCall) : Act Journal AuditError Unit := do
  Act.update fun j => { j with clock := 0 }
  let jsonLine ← Act.mapErr .serialization (Act.ofExcept (C.encode call.entry))
  let entryBytes := jsonLine.length + 1
  Act.guard (entryBytes ≤ J.maxLogBytes) (.entryTooLarge entryBytes J.maxLogBytes)
  Act.mapErr .storage (storageCall (fun _ => call.fate.lock) (Act.ret ()))  -- acquire_lock
  Act.guard (!call.fate.poisoned) .bufferPoisoned
  Act.mapErr .storage (rotateIfNeeded J call.fate.rotation entryBytes)
  let before ← Act.mapErr .storage (openLogForAppend J call.fate.opening)
  Act.mapErr .storage (storageCall call.fate.opening (Act.ret ()))  -- seek
  appendLine J call.fate.cut before (jsonLine ++ [newline])
  Act.update fun j => { j with loggers := fun l =>
    if l = call.logger then (j.loggers l).push call.entry else j.loggers l }

/-- `AuditLogger::get_entries`; the mutex of the display buffer may be poisoned. -/
def getEntries (logger : Nat) (poisoned : Bool) : Act Journal AuditError (List AuditEntry) := do
  Act.guard (!poisoned) .bufferPoisoned
  let j ← Act.read
  pure (j.loggers logger).buffer.reverse

/-- The loop of `load_recent_entries`, after `index` lines. -/
def loadLines (index : Nat) (display : Display) : List Bytes → Except AuditError Display
  | [] => .ok display
  | line :: lines =>
    if C.blank line then loadLines (index + 1) display lines
    else match C.decode line with
      | .error .notUtf8 => .error (.io "stream did not contain valid UTF-8")
      | .error (.json reason) => .error (.invalidEntry (index + 1) reason)
      | .ok entry => loadLines (index + 1) (display.push entry) lines

/-- `load_recent_entries`. -/
def loadRecentEntries (faults : Faults) (maxMemory : Nat) : Act Journal AuditError Display := do
  match ← Act.attempt (openFile faults J.logFileName) with
  | .error error =>
    if error.isNotFound then pure { maxMemoryEntries := maxMemory } else Act.fail (.storage error)
  | .ok content =>
    Act.ofExcept (loadLines C 0 { maxMemoryEntries := maxMemory } (bufLines content))

/-- `AuditLogger::build`: a new logger on the root. -/
def build (fate : Fate) (logger maxMemory : Nat) : Act Journal AuditError Unit := do
  Act.update fun j => { j with clock := 0 }
  Act.mapErr .storage (storageCall (fun _ => fate.lock) (Act.ret ()))  -- acquire_lock
  let display ← loadRecentEntries J C fate.opening maxMemory
  Act.update fun j => { j with loggers := fun l => if l = logger then display else j.loggers l }

end Logger

end WinProfile
