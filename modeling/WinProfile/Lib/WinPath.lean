/-
  File:      WinProfile/Lib/WinPath.lean
  Subject:   `std::path::Path` on Windows: prefixes, components, parent, file name and `join`, as
             the standard library computes them on the units of an `OsStr`.

  * `parsePrefix` -- the eight-byte prefix parser: `\\?\`, `\\?\UNC\`, `\\.\`, `\\server\share`
    and a drive letter with a colon; a slash counts as a backslash except in a verbatim prefix.
  * `components` -- prefix, root, then the pieces between separators: an empty piece vanishes, a
    `.` vanishes unless it opens a relative path or the prefix is verbatim.
  * `join` -- a name behind a path, which a drive or a root in front of the name replaces.
-/
import WinProfile.Lib.Text

namespace WinProfile.WinPath

def backslash : UInt16 := 0x5C
def slash : UInt16 := 0x2F
def colon : UInt16 := 0x3A
def dot : UInt16 := 0x2E

/-- The kinds of `Prefix`, without the names inside them. -/
inductive Kind where
  | verbatim | verbatimUnc | verbatimDisk | deviceNs | unc | disk
  deriving DecidableEq, Repr

/-- `Prefix::is_verbatim`. -/
def Kind.isVerbatim : Kind → Bool
  | .verbatim | .verbatimUnc | .verbatimDisk => true
  | _ => false

/-- One component of a path; the prefix carries its kind and its units. -/
inductive Component where
  | drive (kind : Kind) (text : Wide)
  | rootDir
  | curDir
  | parentDir
  | normal (name : Wide)
  deriving DecidableEq, Repr

def isSep (u : UInt16) : Bool := u == backslash || u == slash

/-- `u8::is_ascii_alphabetic` on a unit. -/
def isAsciiLetter (u : UInt16) : Bool := (0x41 ≤ u && u ≤ 0x5A) || (0x61 ≤ u && u ≤ 0x7A)

/-- `parse_next_component`: the units up to the first separator, and what follows it. -/
def nextPiece (verbatim : Bool) (w : Wide) : Wide × Wide :=
  let sep := fun u => if verbatim then u == backslash else isSep u
  (w.takeWhile (fun u => !sep u), (w.dropWhile (fun u => !sep u)).drop 1)

/-- Strip a text written with backslashes; a slash of the path matches one as well. -/
def stripText (text : Wide) (w : Wide) : Option Wide :=
  if text.isPrefixOf (w.map fun u => if u == slash then backslash else u) then
    some (w.drop text.length)
  else none

/-- `parse_drive`: an ASCII letter and a colon. -/
def isDrive : Wide → Bool
  | d :: c :: _ => isAsciiLetter d && c == colon
  | _ => false

/-- `parse_drive_exact`: a drive followed by nothing or by a separator. -/
def isDriveExact (w : Wide) : Bool :=
  isDrive w && match w.drop 2 with
    | [] => true
    | u :: _ => isSep u

/-- `parse_prefix`: the kind of the prefix and its length in units. -/
def parsePrefix (w : Wide) : Option (Kind × Nat) :=
  match stripText [backslash, backslash] w with
  | some rest =>
    if (w.take 4).all (· != slash) && rest.take 2 == [0x3F, backslash] then
      let body := rest.drop 2
      if body.take 4 == [0x55, 0x4E, 0x43, backslash] then
        let (server, after) := nextPiece true (body.drop 4)
        let (share, _) := nextPiece true after
        some (.verbatimUnc, 8 + server.length + (if share.isEmpty then 0 else 1 + share.length))
      else if isDriveExact body then some (.verbatimDisk, 6)
      else some (.verbatim, 4 + (nextPiece true body).1.length)
    else match stripText [dot, backslash] rest with
      | some body => some (.deviceNs, 4 + (nextPiece false body).1.length)
      | none =>
        let (server, after) := nextPiece false rest
        let (share, _) := nextPiece false after
        if !server.isEmpty && !share.isEmpty then
          some (.unc, 2 + server.length + 1 + share.length)
        else none
  | none => if isDrive w then some (.disk, 2) else none

/-- The pieces of `w` between separators, the empty ones included. -/
def pieces (sep : UInt16 → Bool) : Wide → List Wide
  | [] => [[]]
  | u :: us =>
    if sep u then [] :: pieces sep us
    else match pieces sep us with
      | [] => [[u]]
      | piece :: more => (u :: piece) :: more

/-- `parse_single_component`. -/
def parsePiece (verbatim : Bool) (piece : Wide) : Option Component :=
  if piece = [] then none
  else if piece = [dot] then (if verbatim then some .curDir else none)
  else if piece = [dot, dot] then some .parentDir
  else some (.normal piece)

/-- `Path::components`. -/
def components (w : Wide) : List Component :=
  let found := parsePrefix w
  let verbatim := (found.map (·.1.isVerbatim)).getD false
  let sep := fun u => if verbatim then u == backslash else isSep u
  let rest := w.drop ((found.map (·.2)).getD 0)
  let physicalRoot := (rest.head?.map sep).getD false
  let head := match found with
    | some (kind, len) => [Component.drive kind (w.take len)]
    | none => []
  let root := if physicalRoot then [Component.rootDir]
    else match found with
      | some (kind, _) => if kind = .disk || kind.isVerbatim then [] else [.rootDir]
      | none => if (pieces sep rest).head? = some [dot] then [.curDir] else []
  head ++ root ++ (pieces sep rest).filterMap (parsePiece verbatim)

/-- `Path::is_absolute`: a prefix and a root, the root implied by every prefix but a drive. -/
def isAbsolute (w : Wide) : Bool :=
  match parsePrefix w with
  | some (.disk, len) => ((w.drop len).head?.map isSep).getD false
  | some _ => true
  | none => false

/-- `Path::file_name`. -/
def fileName (w : Wide) : Option Wide :=
  match (components w).getLast? with
  | some (.normal name) => some name
  | _ => none

/-- The units before the body: the prefix and the root. -/
def headLength (w : Wide) : Nat :=
  let len := ((parsePrefix w).map (·.2)).getD 0
  if ((w.drop len).head?.map isSep).getD false then len + 1 else len

/-- `Path::parent` of a path without `.` pieces: the last piece goes, and the separators before
it, the root excepted. -/
def parent (w : Wide) : Option Wide :=
  let front := w.take (headLength w)
  let body := (w.drop (headLength w)).reverse.dropWhile isSep
  if body = [] then none
  else some (front ++ ((body.dropWhile fun u => !isSep u).dropWhile isSep).reverse)

/-! ## `PathBuf::push` -/

/-- `Component::as_os_str`. -/
def Component.units : Component → Wide
  | .drive _ text => text
  | .rootDir => [backslash]
  | .curDir => [dot]
  | .parentDir => [dot, dot]
  | .normal name => name

/-- A component of a relative name, behind the components of a verbatim path. -/
def pushComponent (path : List Component) : Component → List Component
  | .rootDir => path.take 1 ++ [.rootDir]
  | .curDir => path
  | .parentDir => match path.getLast? with
    | some (.normal _) => path.dropLast
    | _ => path
  | c => path ++ [c]

/-- The components as a text again; `sep` says that the next one stands behind a separator. -/
def writeComponents (sep : Bool) : List Component → Wide
  | [] => []
  | c :: rest =>
    let behind := match c with
      | .rootDir => false
      | .drive kind text => decide (kind ≠ .disk) && !text.isEmpty
      | _ => true
    (if sep && c ≠ .rootDir then backslash :: c.units else c.units) ++ writeComponents behind rest

/-- Whether a separator goes between: not behind another one, and not behind a bare drive. -/
def needSep (w : Wide) : Bool :=
  (w.getLast?.map fun u => !isSep u).getD false && parsePrefix w != some (.disk, w.length)

/-- `Path::join`, which is `PathBuf::push`: a name with a prefix replaces the path, one with a root
replaces what is behind the prefix. -/
def join (w name : Wide) : Wide :=
  if (parsePrefix name).isSome then name
  else if ((parsePrefix w).map (·.1.isVerbatim)).getD false && !name.isEmpty then
    writeComponents false ((components name).foldl pushComponent (components w))
  else if (name.head?.map isSep).getD false then w.take (((parsePrefix w).map (·.2)).getD 0) ++ name
  else if needSep w then w ++ backslash :: name
  else w ++ name

end WinProfile.WinPath
