/-
  File:      WinProfile/Win32/DirectoryBuffer.lean
  Subject:   platform-win32/src/secure_fs.rs: reading a buffer that the system has filled with the
             entries of a directory, and the loop that asks for one buffer after the other.

  * `Buffer` -- the bytes; an allocation has at most `isize::MAX` of them.
  * `parseEntry`, `parseFrom` -- one round of the loop and the loop, with what they read recorded.
  * `Raw`, `encodeAll` -- the layout `FILE_ID_BOTH_DIR_INFO` of a list of entries.
  * `parseFrom_safe` -- any buffer: the loop ends, and reads inside the buffer only.
  * `parseFrom_encoded` -- an encoded buffer: the entries, or the reparse point among them.
  * `directory_enumeration_safe_and_complete` -- the two, and the loop over the buffers.
-/
import WinProfile.Lib.Act
import WinProfile.Lib.LittleEndian
import WinProfile.Win32.SecureFs

namespace WinProfile.DirectoryBuffer

open LittleEndian

/-! ## 1. The layout -/

/-- `size_of::<FILE_ID_BOTH_DIR_INFO>()`: the header, one unit of the name, and padding. -/
def FILE_ID_BOTH_DIR_INFO_BYTES : Nat := 112

/-- The places of the fields. -/
def NEXT_ENTRY_OFFSET : Nat := 0
def FILE_ATTRIBUTES : Nat := 56
def FILE_NAME_LENGTH : Nat := 60
def FILE_NAME : Nat := 104

def FILE_ATTRIBUTE_DIRECTORY : UInt32 := 0x10
def FILE_ATTRIBUTE_REPARSE_POINT : UInt32 := 0x400

/-- `isize::MAX`, the bound of an allocation. -/
def ISIZE_MAX : Nat := 2 ^ 63 - 1

/-- A buffer. -/
structure Buffer where
  bytes : List UInt8
  length_le : bytes.length ≤ ISIZE_MAX

/-- An addition of `usize` values. -/
def addUsize (a b : Nat) : Nat := (a + b) % 2 ^ 64

/-- A field of type `u32`. -/
def u32At (bytes : List UInt8) (offset : Nat) : UInt32 :=
  UInt32.ofNat (leNat (slice bytes offset 4))

/-! ## 2. The loop -/

/-- The entries so far. -/
structure ParseState where
  entries : List SecureDirEntry
  /-- Observation only: where each read starts and how many bytes it takes. -/
  reads : List (Nat × Nat) := []

def ParseState.saw (start bytes : Nat) (s : ParseState) : ParseState :=
  { s with reads := s.reads ++ [(start, bytes)] }

def ParseState.push (entry : SecureDirEntry) (s : ParseState) : ParseState :=
  { s with entries := s.entries ++ [entry] }

def currentName : Wide := encodeWide "."
def parentName : Wide := encodeWide ".."

/-- The kind of an entry by its attributes. -/
def kindOf (attributes : UInt32) : SecureEntryKind :=
  if attributes &&& FILE_ATTRIBUTE_DIRECTORY != 0 then .directory else .file

section Parse

variable (b : Buffer) (directory : Wide)

/-- An entry that is neither `.` nor `..` is appended, unless it is a reparse point. -/
def pushEntry (name : Wide) (attributes : UInt32) : Act ParseState SecureFsError Unit :=
  if name ≠ currentName ∧ name ≠ parentName then
    if attributes &&& FILE_ATTRIBUTE_REPARSE_POINT != 0 then
      Act.fail (.reparsePoint (display (WinPath.join directory name)))
    else Act.update (ParseState.push { name, kind := kindOf attributes })
  else Act.ret ()

/-- Where the next entry starts, if there is one. -/
def nextOffset (offset : Nat) : Act ParseState SecureFsError (Option Nat) :=
  let next := (u32At b.bytes (offset + NEXT_ENTRY_OFFSET)).toNat
  if next = 0 then Act.ret none
  else if next < FILE_NAME ∨ addUsize offset next ≥ b.bytes.length then
    Act.fail (.invalidPath ("invalid directory enumeration offset for " ++ display directory))
  else Act.ret (some (addUsize offset next))

/-- One round of the loop of `parse_directory_buffer`. -/
def parseEntry (offset : Nat) : Act ParseState SecureFsError (Option Nat) := do
  Act.guard (addUsize offset FILE_ID_BOTH_DIR_INFO_BYTES ≤ b.bytes.length)
    (.invalidPath ("invalid directory enumeration for " ++ display directory))
  Act.update (ParseState.saw offset FILE_ID_BOTH_DIR_INFO_BYTES)
  let nameBytes := (u32At b.bytes (offset + FILE_NAME_LENGTH)).toNat
  Act.guard (nameBytes % 2 = 0 ∧ addUsize (addUsize offset FILE_NAME) nameBytes ≤ b.bytes.length)
    (.invalidPath ("invalid directory entry returned for " ++ display directory))
  Act.update (ParseState.saw (offset + FILE_NAME) nameBytes)
  pushEntry directory (wordsOf (slice b.bytes (offset + FILE_NAME) nameBytes))
    (u32At b.bytes (offset + FILE_ATTRIBUTES))
  nextOffset b directory offset

/-- The loop of `parse_directory_buffer`, with so many rounds at most. -/
def parseFrom : Nat → Nat → ParseState → Option (Except SecureFsError Unit × ParseState)
  | 0, _, _ => none
  | rounds + 1, offset, s => match parseEntry b directory offset s with
    | (.error e, s') => some (.error e, s')
    | (.ok none, s') => some (.ok (), s')
    | (.ok (some next), s') => parseFrom rounds next s'

/-- `parse_directory_buffer`. -/
def parseDirectoryBuffer (entries : List SecureDirEntry) :
    Option (Except SecureFsError Unit × ParseState) :=
  parseFrom b directory (b.bytes.length + 1) 0 { entries }

end Parse

/-! ## 3. The loop over the buffers -/

def DIRECTORY_BUFFER_BYTES : Nat := 64 * 1024

def ERROR_NO_MORE_FILES : UInt32 := 18

/-- What the system answers when a directory is enumerated through a handle: the buffers from the
first one on, and the error after them. -/
structure Listing where
  buffers : List Buffer
  full : ∀ b ∈ buffers, b.bytes.length = DIRECTORY_BUFFER_BYTES
  last : UInt32
  /-- The text of the error. -/
  text : String

/-- `GetFileInformationByHandleEx`: the answer, and the position of the handle after it. -/
def Listing.query (L : Listing) (restart : Bool) (position : Nat) :
    Except UInt32 Buffer × Nat :=
  let position := if restart then 0 else position
  match L.buffers[position]? with
  | some b => (.ok b, position + 1)
  | none => (.error L.last, position)

section Entries

variable (L : Listing) (directory : Wide)

/-- The loop of `entries`, with so many rounds at most. -/
def entriesFrom : Nat → Bool → Nat → List SecureDirEntry →
    Option (Except SecureFsError (List SecureDirEntry))
  | 0, _, _, _ => none
  | rounds + 1, restart, position, entries => match L.query restart position with
    | (.error code, _) =>
      if code = ERROR_NO_MORE_FILES then some (.ok entries)
      else some (.error (.io "enumerate directory by handle" (display directory) L.text))
    | (.ok b, position') => match parseDirectoryBuffer b directory entries with
      | none => none
      | some (.error e, _) => some (.error e)
      | some (.ok (), s) => entriesFrom rounds false position' s.entries

/-- `SecureDirectory::entries`, on a handle with any position; `lower` is `str::to_lowercase`. -/
def enumerate (lower : String → String) (rounds position : Nat) :
    Option (Except SecureFsError (List SecureDirEntry)) :=
  (entriesFrom L directory rounds true position []).map fun r =>
    r.map (sortByKey lower SecureDirEntry.name)

end Entries

/-! ## 4. Any buffer -/

section Safety

variable {b : Buffer} {directory : Wide}

/-- Every read so far was inside the buffer. -/
def Inside (b : Buffer) (s : ParseState) : Prop :=
  ∀ read ∈ s.reads, read.1 + read.2 ≤ b.bytes.length

theorem Inside.saw {s : ParseState} (h : Inside b s) {start bytes : Nat}
    (hread : start + bytes ≤ b.bytes.length) : Inside b (s.saw start bytes) := by
  intro read hmem
  rcases List.mem_append.mp hmem with hmem | hmem
  · exact h read hmem
  · rw [List.mem_singleton.mp hmem]
    exact hread

theorem Inside.push {s : ParseState} (h : Inside b s) (entry : SecureDirEntry) :
    Inside b (s.push entry) := h

/-- An addition to a place in a buffer does not wrap around. -/
theorem addUsize_eq (b : Buffer) {m n : Nat} (hm : m ≤ b.bytes.length) (hn : n < 2 ^ 33) :
    addUsize m n = m + n := by
  have hlen := b.length_le
  unfold ISIZE_MAX at hlen
  exact Nat.mod_eq_of_lt (by omega)

theorem pushEntry_inside {name : Wide} {attributes : UInt32} {s : ParseState} (h : Inside b s) :
    Act.wp (pushEntry directory name attributes) (fun _ s' => Inside b s')
      (fun _ s' => Inside b s') s := by
  unfold pushEntry
  split
  · split
    · exact (Act.wp_fail _).mpr h
    · exact (Act.wp_update _).mpr (h.push _)
  · exact (Act.wp_ret ()).mpr h

theorem nextOffset_forward {offset : Nat} {s : ParseState} (h : Inside b s)
    (hoffset : offset ≤ b.bytes.length) :
    Act.wp (nextOffset b directory offset)
      (fun next s' => Inside b s' ∧ ∀ o, next = some o → offset < o ∧ o < b.bytes.length)
      (fun _ s' => Inside b s') s := by
  have hu32 := (u32At b.bytes (offset + NEXT_ENTRY_OFFSET)).toNat_lt
  have hadd := addUsize_eq b hoffset (Nat.lt_of_lt_of_le hu32 (by decide))
  simp only [nextOffset]
  split
  · exact (Act.wp_ret _).mpr ⟨h, nofun⟩
  · split
    · exact (Act.wp_fail _).mpr h
    · next hzero hbound =>
      refine (Act.wp_ret _).mpr ⟨h, fun o ho => ?_⟩
      obtain rfl := Option.some.inj ho
      rw [not_or, hadd] at hbound
      rw [hadd]
      omega

/-- One round reads inside the buffer and goes forward. -/
theorem parseEntry_safe (directory : Wide) {offset : Nat} {s : ParseState} (h : Inside b s)
    (hoffset : offset ≤ b.bytes.length) :
    Act.wp (parseEntry b directory offset)
      (fun next s' => Inside b s' ∧ ∀ o, next = some o → offset < o ∧ o < b.bytes.length)
      (fun _ s' => Inside b s') s := by
  have hu32 := (u32At b.bytes (offset + FILE_NAME_LENGTH)).toNat_lt
  have hheader := addUsize_eq b hoffset (show FILE_ID_BOTH_DIR_INFO_BYTES < 2 ^ 33 by decide)
  have hstart := addUsize_eq b hoffset (show FILE_NAME < 2 ^ 33 by decide)
  rw [parseEntry, Act.wp_bind, Act.wp_guard, hheader]
  split
  · next hfits =>
    have hfits := of_decide_eq_true hfits
    have hname : offset + FILE_NAME ≤ b.bytes.length := by
      simp only [FILE_ID_BOTH_DIR_INFO_BYTES, FILE_NAME] at hfits ⊢
      omega
    have hend := addUsize_eq b hname (Nat.lt_of_lt_of_le hu32 (by decide))
    rw [Act.wp_bind, Act.wp_update, Act.wp_bind, Act.wp_guard, hstart, hend]
    have hsaw := h.saw hfits
    split
    · next hinside =>
      have hinside := of_decide_eq_true hinside
      rw [Act.wp_bind, Act.wp_update, Act.wp_bind]
      refine Act.wp_mono (pushEntry_inside (hsaw.saw hinside.2)) ?_ fun _ _ h => h
      intro _ s' hs'
      exact nextOffset_forward hs' hoffset
    · exact hsaw
  · exact h

/-- **Any buffer**: the loop ends, and no read leaves the buffer. -/
theorem parseFrom_safe (directory : Wide) {s : ParseState} (h : Inside b s) {offset rounds : Nat}
    (hoffset : offset ≤ b.bytes.length) (hrounds : b.bytes.length - offset < rounds) :
    ∃ r s', parseFrom b directory rounds offset s = some (r, s') ∧ Inside b s' := by
  induction rounds generalizing offset s with
  | zero => omega
  | succ rounds ih =>
    have hround := parseEntry_safe directory h hoffset
    have hrun := Act.wp_run (R := fun r s' => Inside b s' ∧
      ∀ o, r = .ok (some o) → offset < o ∧ o < b.bytes.length) (Act.wp_mono hround
        (fun next s' hs' => ⟨hs'.1, fun o ho => hs'.2 o (Except.ok.inj ho)⟩)
        fun _ s' hs' => ⟨hs', nofun⟩)
    rw [parseFrom]
    rcases hentry : parseEntry b directory offset s with ⟨e | _ | o, s'⟩
    · rw [hentry] at hrun
      exact ⟨.error e, s', rfl, hrun.1⟩
    · rw [hentry] at hrun
      exact ⟨.ok (), s', rfl, hrun.1⟩
    · rw [hentry] at hrun
      obtain ⟨hs', hforward⟩ := hrun
      have ho := hforward o rfl
      exact ih hs' ho.2.le (by omega)

/-- More rounds than needed change nothing. -/
theorem parseFrom_more {offset rounds : Nat} {s : ParseState}
    {r : Except SecureFsError Unit × ParseState} (h : parseFrom b directory rounds offset s = some r)
    (more : Nat) : parseFrom b directory (rounds + more) offset s = some r := by
  induction rounds generalizing offset s with
  | zero => cases h
  | succ rounds ih =>
    rw [Nat.succ_add, parseFrom]
    rw [parseFrom] at h
    rcases hentry : parseEntry b directory offset s with ⟨_ | _ | o, s'⟩
    · rw [hentry] at h
      exact h
    · rw [hentry] at h
      exact h
    · rw [hentry] at h
      exact ih h

end Safety

/-! ## 5. Encoded buffers -/

/-- An entry as it is laid out: the fields that are read, and the bytes between them. -/
structure Raw where
  name : Wide
  attributes : UInt32
  /-- From `FileIndex` to `AllocationSize`. -/
  front : List UInt8
  /-- From `EaSize` to `FileId`. -/
  middle : List UInt8
  /-- What follows the name: up to the next entry, or in the last one up to a multiple of eight,
  which is in the buffer as its length is one. -/
  padding : List UInt8
  named : name ≠ []
  front_length : front.length = 52
  middle_length : middle.length = 40
  aligned : (FILE_NAME + 2 * name.length + padding.length) % 8 = 0
  small : 2 * name.length < 2 ^ 32

namespace Raw

/-- The bytes from the start of the entry to the next one. -/
def size (r : Raw) : Nat := FILE_NAME + 2 * r.name.length + r.padding.length

/-- The bytes of the entry. -/
def bytes (r : Raw) (next : Nat) : List UInt8 :=
  leBytes 4 next ++ (r.front ++ (leBytes 4 r.attributes.toNat ++
    (leBytes 4 (2 * r.name.length) ++ (r.middle ++ (bytesOf r.name ++ r.padding)))))

theorem length_bytes (r : Raw) (next : Nat) : (r.bytes next).length = r.size := by
  simp only [bytes, size, List.length_append, length_leBytes, length_bytesOf, r.front_length,
    r.middle_length, FILE_NAME]
  omega

/-- An entry with a name is not smaller than the padded structure. -/
theorem struct_le_size (r : Raw) : FILE_ID_BOTH_DIR_INFO_BYTES ≤ r.size := by
  have hname := List.length_pos_iff.mpr r.named
  have haligned := r.aligned
  unfold size
  simp only [FILE_ID_BOTH_DIR_INFO_BYTES, FILE_NAME] at haligned ⊢
  omega

/-- Neither `.` nor `..`. -/
def listed (r : Raw) : Bool := r.name != currentName && r.name != parentName

def isReparsePoint (r : Raw) : Bool := r.attributes &&& FILE_ATTRIBUTE_REPARSE_POINT != 0

/-- The entry that is appended. -/
def entry (r : Raw) : SecureDirEntry where
  name := r.name
  kind := kindOf r.attributes

/-- What one entry adds. -/
def shown (directory : Wide) (r : Raw) : Except SecureFsError (List SecureDirEntry) :=
  if r.listed then
    if r.isReparsePoint then .error (.reparsePoint (display (WinPath.join directory r.name)))
    else .ok [r.entry]
  else .ok []

end Raw

/-- The buffer of a list of entries; the last one has no next, and `tail` is what is left. -/
def encodeAll (tail : List UInt8) : List Raw → List UInt8
  | [] => []
  | [r] => r.bytes 0 ++ tail
  | r :: r' :: rs => r.bytes r.size ++ encodeAll tail (r' :: rs)

/-- What a list of entries stands for: those that are listed, or the first reparse point. -/
def collect (directory : Wide) (rs : List Raw) : Except SecureFsError (List SecureDirEntry) :=
  match (rs.filter Raw.listed).find? Raw.isReparsePoint with
  | some r => .error (.reparsePoint (display (WinPath.join directory r.name)))
  | none => .ok ((rs.filter Raw.listed).map Raw.entry)

section Encoded

variable {b : Buffer} {directory : Wide} {r : Raw} {rs : List Raw} {rest tail : List UInt8}

theorem collect_cons (directory : Wide) (r : Raw) (rs : List Raw) :
    collect directory (r :: rs) = match r.shown directory with
      | .error e => .error e
      | .ok new => (collect directory rs).map (new ++ ·) := by
  unfold collect Raw.shown
  cases hlisted : r.listed with
  | false =>
    simp only [List.filter_cons, hlisted, Bool.false_eq_true, if_false]
    cases (rs.filter Raw.listed).find? Raw.isReparsePoint <;> rfl
  | true =>
    cases hreparse : r.isReparsePoint with
    | true =>
      simp only [List.filter_cons, hlisted, if_true, List.find?_cons, hreparse]
    | false =>
      simp only [List.filter_cons, hlisted, if_true, List.find?_cons, hreparse, List.map_cons,
        Bool.false_eq_true, if_false]
      cases (rs.filter Raw.listed).find? Raw.isReparsePoint <;> rfl

/-- The batches one after the other. -/
theorem collect_append (directory : Wide) (rs rs' : List Raw) :
    collect directory (rs ++ rs') = match collect directory rs with
      | .error e => .error e
      | .ok new => (collect directory rs').map (new ++ ·) := by
  unfold collect
  rw [List.filter_append, List.find?_append]
  cases (rs.filter Raw.listed).find? Raw.isReparsePoint with
  | some r => rfl
  | none =>
    rw [Option.none_or]
    cases (rs'.filter Raw.listed).find? Raw.isReparsePoint with
    | some r => rfl
    | none => simp only [Except.map, List.map_append]

theorem encodeAll_cons (tail : List UInt8) (r : Raw) {rs : List Raw} (h : rs ≠ []) :
    encodeAll tail (r :: rs) = r.bytes r.size ++ encodeAll tail rs := by
  cases rs with
  | nil => exact absurd rfl h
  | cons r' rs => rfl

theorem length_le_encodeAll (tail : List UInt8) (rs : List Raw) :
    rs.length ≤ (encodeAll tail rs).length := by
  have hone : ∀ r : Raw, 1 ≤ r.size := fun r => le_trans (by decide) r.struct_le_size
  induction rs with
  | nil => exact Nat.zero_le _
  | cons r rs ih =>
    rcases eq_or_ne rs [] with rfl | hne
    · have := hone r
      simp only [encodeAll, List.length_append, r.length_bytes, List.length_singleton]
      omega
    · have := hone r
      rw [encodeAll_cons tail r hne, List.length_append, r.length_bytes, List.length_cons]
      omega

/-- A `u32` that was written is read back. -/
theorem u32At_block {offset n : Nat} {pre post : List UInt8}
    (h : b.bytes.drop offset = pre ++ (leBytes 4 n ++ post)) (hn : n < 2 ^ 32) :
    (u32At b.bytes (offset + pre.length)).toNat = n := by
  rw [u32At, slice_drop, h, slice_block rfl (length_leBytes 4 n), leNat_leBytes (by omega),
    UInt32.toNat_ofNat']
  omega

/-- The fields of an entry at its place in the buffer. -/
structure Fields (b : Buffer) (offset next : Nat) (r : Raw) : Prop where
  next_eq : (u32At b.bytes (offset + NEXT_ENTRY_OFFSET)).toNat = next
  attributes : u32At b.bytes (offset + FILE_ATTRIBUTES) = r.attributes
  nameLength : (u32At b.bytes (offset + FILE_NAME_LENGTH)).toNat = 2 * r.name.length
  name : wordsOf (slice b.bytes (offset + FILE_NAME) (2 * r.name.length)) = r.name
  fits : offset + r.size ≤ b.bytes.length

theorem fields_of_bytes {offset next : Nat} (h : b.bytes.drop offset = r.bytes next ++ rest)
    (hnext : next < 2 ^ 32) : Fields b offset next r := by
  have hsmall := r.small
  have hfront := r.front_length
  have hmiddle := r.middle_length
  have hlen := congrArg List.length h
  rw [List.length_drop, List.length_append, r.length_bytes] at hlen
  have hpos := r.struct_le_size
  simp only [FILE_ID_BOTH_DIR_INFO_BYTES] at hpos
  simp only [Raw.bytes, List.append_assoc] at h
  refine ⟨?_, ?_, ?_, ?_, by omega⟩
  · have hfield : (u32At b.bytes (offset + ([] : List UInt8).length)).toNat = next :=
      u32At_block h hnext
    exact hfield
  · have hfield : (u32At b.bytes (offset + (leBytes 4 next ++ r.front).length)).toNat
        = r.attributes.toNat := u32At_block (by rw [h, List.append_assoc]) r.attributes.toNat_lt
    rw [List.length_append, length_leBytes, hfront] at hfield
    exact UInt32.toNat_inj.mp hfield
  · have hfield : (u32At b.bytes (offset +
        (leBytes 4 next ++ (r.front ++ leBytes 4 r.attributes.toNat)).length)).toNat
        = 2 * r.name.length :=
      u32At_block (by rw [h, List.append_assoc, List.append_assoc]) (by omega)
    rw [List.length_append, List.length_append, length_leBytes, length_leBytes, hfront] at hfield
    exact hfield
  · have hpre : (leBytes 4 next ++ (r.front ++ (leBytes 4 r.attributes.toNat ++
        (leBytes 4 (2 * r.name.length) ++ r.middle)))).length = FILE_NAME := by
      simp only [List.length_append, length_leBytes, hfront, hmiddle, FILE_NAME]
    have hblock : slice (_ ++ (bytesOf r.name ++ (r.padding ++ rest))) FILE_NAME _ = _ :=
      slice_block hpre (length_bytesOf r.name)
    rw [slice_drop, h]
    simp only [List.append_assoc] at hblock
    rw [hblock, wordsOf_bytesOf]

/-- What `pushEntry` does with the name and the attributes of an entry. -/
theorem pushEntry_shown (r : Raw) (s : ParseState) :
    Act.wp (pushEntry directory r.name r.attributes)
      (fun _ s' => ∃ new, r.shown directory = .ok new ∧ s'.entries = s.entries ++ new)
      (fun e _ => r.shown directory = .error e) s := by
  have hlisted : r.listed = true ↔ r.name ≠ currentName ∧ r.name ≠ parentName := by
    rw [Raw.listed, Bool.and_eq_true, bne_iff_ne, bne_iff_ne]
  unfold pushEntry Raw.shown
  by_cases hl : r.listed = true
  · simp only [if_pos hl, if_pos (hlisted.mp hl)]
    cases hreparse : r.isReparsePoint with
    | true =>
      have hbit : (r.attributes &&& FILE_ATTRIBUTE_REPARSE_POINT != 0) = true := hreparse
      simp only [hbit, if_true, Act.wp_fail]
    | false =>
      have hbit : (r.attributes &&& FILE_ATTRIBUTE_REPARSE_POINT != 0) = false := hreparse
      simp only [hbit, Bool.false_eq_true, if_false, Act.wp_update]
      exact ⟨[r.entry], rfl, rfl⟩
  · simp only [if_neg hl, if_neg (fun h => hl (hlisted.mpr h)), Act.wp_ret]
    exact ⟨[], rfl, (List.append_nil _).symm⟩

/-- How a round on an entry ends: what the entry shows is appended, and the next one is found. -/
def Stepped (directory : Wide) (r : Raw) (s : ParseState) (next : Option Nat) :
    Except SecureFsError (Option Nat) → ParseState → Prop
  | .ok o, s' => o = next ∧ ∃ new, r.shown directory = .ok new ∧ s'.entries = s.entries ++ new
  | .error e, _ => r.shown directory = .error e

/-- **One round on an encoded entry.** -/
theorem parseEntry_encoded (directory : Wide) {offset next : Nat} {s : ParseState}
    (h : Fields b offset next r) (hnext : next = 0 ∨ FILE_NAME ≤ next ∧ offset + next < b.bytes.length) :
    Stepped directory r s (if next = 0 then none else some (offset + next))
      (parseEntry b directory offset s).1 (parseEntry b directory offset s).2 := by
  refine Act.wp_run ?_
  have hfits := h.fits
  have hstruct := r.struct_le_size
  have hsize : FILE_NAME + 2 * r.name.length ≤ r.size := Nat.le_add_right _ _
  have hsmall := r.small
  have hoffset : offset ≤ b.bytes.length := by omega
  have hname : offset + FILE_NAME ≤ b.bytes.length := by omega
  rw [parseEntry, Act.wp_bind, Act.wp_guard,
    addUsize_eq b hoffset (show FILE_ID_BOTH_DIR_INFO_BYTES < 2 ^ 33 by decide),
    if_pos (decide_eq_true (by omega)), Act.wp_bind, Act.wp_update]
  dsimp only
  rw [h.nameLength, Act.wp_bind, Act.wp_guard,
    addUsize_eq b hoffset (show FILE_NAME < 2 ^ 33 by decide), addUsize_eq b hname (by omega),
    if_pos (decide_eq_true ⟨by omega, by omega⟩), Act.wp_bind, Act.wp_update, Act.wp_bind,
    h.name, h.attributes]
  refine Act.wp_mono (pushEntry_shown r _) ?_ fun _ _ hshown => hshown
  intro _ s' hpushed
  obtain ⟨new, hshown, hentries⟩ := hpushed
  simp only [nextOffset, h.next_eq]
  by_cases hzero : next = 0
  · simp only [if_pos hzero]
    exact (Act.wp_ret _).mpr ⟨rfl, new, hshown, hentries⟩
  · obtain ⟨hheader, hinside⟩ := hnext.resolve_left hzero
    have hu32 : next < 2 ^ 33 := by
      rw [← h.next_eq]
      exact Nat.lt_of_lt_of_le (u32At b.bytes (offset + NEXT_ENTRY_OFFSET)).toNat_lt (by decide)
    have hadd := addUsize_eq b hoffset hu32
    simp only [if_neg hzero, hadd]
    rw [if_neg (by omega)]
    exact (Act.wp_ret _).mpr ⟨rfl, new, hshown, hentries⟩

/-- What the loop has made of a list of entries. -/
def Parsed (directory : Wide) (rs : List Raw) (s : ParseState) :
    Except SecureFsError Unit × ParseState → Prop
  | (.ok (), s') => ∃ new, collect directory rs = .ok new ∧ s'.entries = s.entries ++ new
  | (.error e, _) => collect directory rs = .error e

/-- **An encoded buffer**: the loop appends what is listed, or reports a reparse point. -/
theorem parseFrom_encoded {offset rounds : Nat} {s : ParseState}
    (h : b.bytes.drop offset = encodeAll tail rs) (hne : rs ≠ [])
    (hlinked : ∀ r ∈ rs.dropLast, r.size < 2 ^ 32) (hrounds : rs.length ≤ rounds) :
    ∃ out, parseFrom b directory rounds offset s = some out ∧ Parsed directory rs s out := by
  induction rs generalizing offset rounds s with
  | nil => exact absurd rfl hne
  | cons r rs ih =>
    obtain _ | rounds := rounds
    · cases hrounds
    rw [parseFrom]
    rcases eq_or_ne rs [] with rfl | hrest
    · have hfields : Fields b offset 0 r := fields_of_bytes h (by decide)
      have hrun := parseEntry_encoded directory (s := s) hfields (.inl rfl)
      have hone : collect directory [r] = r.shown directory := by
        rw [collect_cons]
        cases r.shown directory with
        | error e => rfl
        | ok new => exact congrArg Except.ok (List.append_nil new)
      rcases hentry : parseEntry b directory offset s with ⟨e | o, s'⟩
      · rw [hentry] at hrun
        exact ⟨_, rfl, hone.trans hrun⟩
      · rw [hentry] at hrun
        obtain ⟨rfl, new, hshown, hentries⟩ := hrun
        exact ⟨_, rfl, new, hone.trans hshown, hentries⟩
    · rw [encodeAll_cons tail r hrest] at h
      have hdropLast : (r :: rs).dropLast = r :: rs.dropLast := List.dropLast_cons_of_ne_nil hrest
      rw [hdropLast] at hlinked
      have hfields : Fields b offset r.size r :=
        fields_of_bytes h (hlinked r List.mem_cons_self)
      have hdrop : b.bytes.drop (offset + r.size) = encodeAll tail rs := by
        rw [← List.drop_drop, h, List.drop_left' (r.length_bytes r.size)]
      have hinside : offset + r.size < b.bytes.length := by
        have hlen := congrArg List.length hdrop
        have hpos := length_le_encodeAll tail rs
        have hsome := List.length_pos_iff.mpr hrest
        rw [List.length_drop] at hlen
        omega
      have hstruct := r.struct_le_size
      have hsize : r.size ≠ 0 := by
        simp only [FILE_ID_BOTH_DIR_INFO_BYTES] at hstruct
        omega
      have hheader : FILE_NAME ≤ r.size := le_trans (by decide) hstruct
      have hrun := parseEntry_encoded directory (s := s) hfields
        (.inr ⟨hheader, hinside⟩)
      rw [if_neg hsize] at hrun
      rcases hentry : parseEntry b directory offset s with ⟨e | o, s'⟩
      · rw [hentry] at hrun
        have hshown : r.shown directory = .error e := hrun
        refine ⟨_, rfl, ?_⟩
        show collect directory (r :: rs) = .error e
        rw [collect_cons, hshown]
      · rw [hentry] at hrun
        obtain ⟨rfl, new, hshown, hentries⟩ := hrun
        obtain ⟨out, hout, hparsed⟩ := ih (s := s') hdrop hrest
          (fun r' hr' => hlinked r' (List.mem_cons_of_mem r hr')) (Nat.le_of_succ_le_succ hrounds)
        refine ⟨out, hout, ?_⟩
        obtain ⟨e | _, s''⟩ := out
        · have hcollect : collect directory rs = .error e := hparsed
          show collect directory (r :: rs) = .error e
          rw [collect_cons, hshown, hcollect]
          rfl
        · obtain ⟨more, hcollect, hentries'⟩ := hparsed
          refine ⟨new ++ more, ?_, ?_⟩
          · rw [collect_cons, hshown, hcollect]
            rfl
          · rw [hentries', hentries, List.append_assoc]

end Encoded

/-! ## 6. The buffers of a directory -/

section Buffers

/-- A buffer holds the entries of a batch, each with the way to the next one in 32 bits; the rest
of the buffer does not matter. -/
structure Holds (b : Buffer) (rs : List Raw) : Prop where
  some : rs ≠ []
  linked : ∀ r ∈ rs.dropLast, r.size < 2 ^ 32
  encoded : ∃ tail, b.bytes = encodeAll tail rs

theorem parseDirectoryBuffer_encoded (directory : Wide) {b : Buffer} {rs : List Raw}
    (h : Holds b rs) (entries : List SecureDirEntry) :
    ∃ out, parseDirectoryBuffer b directory entries = some out ∧
      Parsed directory rs { entries } out := by
  obtain ⟨tail, hbytes⟩ := h.encoded
  have hstart : b.bytes.drop 0 = encodeAll tail rs := by rw [List.drop_zero, hbytes]
  refine parseFrom_encoded hstart h.some h.linked ?_
  · rw [hbytes]
    exact (length_le_encodeAll tail rs).trans (Nat.le_succ _)

/-- The loop from a position on: the batches that are left, after what is there already. -/
theorem entriesFrom_encoded (directory : Wide) {L : Listing} {batches : List (List Raw)}
    (h : List.Forall₂ Holds L.buffers batches) (entries : List SecureDirEntry)
    {rounds position : Nat} {restart : Bool} (hposition : position ≤ batches.length)
    (hstart : restart = true → position = 0) (hrounds : batches.length - position < rounds) :
    entriesFrom L directory rounds restart position entries = some
      (match collect directory (batches.drop position).flatten with
        | .error e => .error e
        | .ok new =>
          if L.last = ERROR_NO_MORE_FILES then .ok (entries ++ new)
          else .error (.io "enumerate directory by handle" (display directory) L.text)) := by
  have hlength := h.length_eq
  induction rounds generalizing position restart entries with
  | zero => omega
  | succ rounds ih =>
    have hplace : (if restart = true then 0 else position) = position := by
      split
      · next hrestart => exact (hstart hrestart).symm
      · rfl
    rw [entriesFrom, Listing.query, hplace]
    rcases Nat.lt_or_ge position batches.length with hlt | hge
    · have hlt' : position < L.buffers.length := by omega
      have hholds : Holds L.buffers[position] batches[position] := h.get hlt' hlt
      rw [List.getElem?_eq_getElem hlt', List.drop_eq_getElem_cons hlt, List.flatten_cons,
        collect_append]
      obtain ⟨⟨result, s'⟩, hout, hparsed⟩ :=
        parseDirectoryBuffer_encoded directory hholds entries
      simp only [hout]
      cases result with
      | error e =>
        have hcollect : collect directory batches[position] = .error e := hparsed
        rw [hcollect]
      | ok _ =>
        obtain ⟨new, hcollect, hentries⟩ := hparsed
        simp only [hcollect]
        have hnext : false = true → position + 1 = 0 := fun hfalse => absurd hfalse Bool.false_ne_true
        rw [ih s'.entries hlt hnext (by omega), hentries]
        cases collect directory (batches.drop (position + 1)).flatten with
        | error e => rfl
        | ok more =>
          simp only [Except.map]
          rw [List.append_assoc]
    · rw [List.getElem?_eq_none (by omega), List.drop_of_length_le hge]
      have hnil : collect directory ([] : List (List Raw)).flatten = .ok [] := rfl
      rw [hnil]
      dsimp only
      rw [List.append_nil]
      split <;> rfl

/-- **Directory buffers are parsed safely and completely.** On any buffer the loop ends, after
no more rounds than the buffer has bytes, and reads inside the buffer only. A buffer in the layout
gives the entries that are listed, in their order, or the first reparse point among them; the
enumeration puts the buffers together, and sorts. -/
theorem directory_enumeration_safe_and_complete (directory : Wide) (lower : String → String) :
    (∀ (b : Buffer) (entries : List SecureDirEntry),
      ∃ r s', parseDirectoryBuffer b directory entries = some (r, s') ∧
        (∀ rounds, b.bytes.length < rounds →
          parseFrom b directory rounds 0 { entries } = some (r, s')) ∧
        ∀ read ∈ s'.reads, read.1 + read.2 ≤ b.bytes.length) ∧
    (∀ (b : Buffer) (rs : List Raw) (entries : List SecureDirEntry), Holds b rs →
      ∃ out, parseDirectoryBuffer b directory entries = some out ∧
        Parsed directory rs { entries } out) ∧
    ∀ (L : Listing) (batches : List (List Raw)) (rounds position : Nat),
      List.Forall₂ Holds L.buffers batches → batches.length < rounds →
      enumerate L directory lower rounds position = some
        (match collect directory batches.flatten with
          | .error e => .error e
          | .ok new =>
            if L.last = ERROR_NO_MORE_FILES then .ok (sortByKey lower SecureDirEntry.name new)
            else .error (.io "enumerate directory by handle" (display directory) L.text)) := by
  refine ⟨fun b entries => ?_, fun b rs entries h => parseDirectoryBuffer_encoded directory h entries,
    fun L batches rounds position h hrounds => ?_⟩
  · have hstart : Inside b { entries } := nofun
    obtain ⟨r, s', hrun, hinside⟩ := parseFrom_safe directory hstart
      (Nat.zero_le b.bytes.length) (show b.bytes.length - 0 < b.bytes.length + 1 by omega)
    refine ⟨r, s', hrun, fun rounds hrounds => ?_, hinside⟩
    obtain ⟨more, rfl⟩ := Nat.exists_eq_add_of_lt hrounds
    have hmore := parseFrom_more hrun more
    rwa [Nat.add_right_comm] at hmore
  · have hrestart : entriesFrom L directory rounds true position []
        = entriesFrom L directory rounds true 0 [] := by
      cases rounds with
      | zero => rfl
      | succ rounds => rfl
    have hloop := entriesFrom_encoded directory h [] (Nat.zero_le batches.length)
      (fun _ : true = true => rfl) (by omega : _ < rounds)
    rw [enumerate, hrestart, hloop, List.drop_zero, Option.map_some]
    cases collect directory batches.flatten with
    | error e => rfl
    | ok new =>
      by_cases hlast : L.last = ERROR_NO_MORE_FILES
      · simp only [if_pos hlast, List.nil_append]
        rfl
      · simp only [if_neg hlast]
        rfl

/-- A directory with a name of one unit. -/
def sampleRaw (unit : UInt16) : Raw where
  name := [unit]
  attributes := FILE_ATTRIBUTE_DIRECTORY
  front := List.replicate 52 0
  middle := List.replicate 40 0
  padding := List.replicate 6 0
  named := List.cons_ne_nil _ _
  front_length := rfl
  middle_length := rfl
  aligned := by
    rw [List.length_singleton, List.length_replicate]
    rfl
  small := by
    rw [List.length_singleton]
    decide

def firstBatch : List Raw := [sampleRaw 0x61, sampleRaw 0x62]

def secondBatch : List Raw := [sampleRaw 0x63]

theorem length_firstBatch (n : Nat) :
    (encodeAll (List.replicate n 0) firstBatch).length = 224 + n := by
  rw [firstBatch, encodeAll, encodeAll, List.length_append, List.length_append, Raw.length_bytes,
    Raw.length_bytes, List.length_replicate, ← Nat.add_assoc]
  rfl

theorem length_secondBatch (n : Nat) :
    (encodeAll (List.replicate n 0) secondBatch).length = 112 + n := by
  rw [secondBatch, encodeAll, List.length_append, Raw.length_bytes, List.length_replicate]
  rfl

def firstBuffer : Buffer where
  bytes := encodeAll (List.replicate (DIRECTORY_BUFFER_BYTES - 224) 0) firstBatch
  length_le := by rw [length_firstBatch]; decide

def secondBuffer : Buffer where
  bytes := encodeAll (List.replicate (DIRECTORY_BUFFER_BYTES - 112) 0) secondBatch
  length_le := by rw [length_secondBatch]; decide

theorem firstBuffer_holds : Holds firstBuffer firstBatch where
  some := List.cons_ne_nil _ _
  linked := List.forall_mem_singleton.mpr (by decide +kernel)
  encoded := ⟨_, rfl⟩

theorem secondBuffer_holds : Holds secondBuffer secondBatch where
  some := List.cons_ne_nil _ _
  linked := List.forall_mem_nil _
  encoded := ⟨_, rfl⟩

def sampleListing : Listing where
  buffers := [firstBuffer, secondBuffer]
  full := List.forall_mem_cons.mpr
    ⟨length_firstBatch _, List.forall_mem_singleton.mpr (length_secondBatch _)⟩
  last := ERROR_NO_MORE_FILES
  text := ""

/-- Two entries in the first buffer, the one linked to the other, and a third in the second. -/
theorem directory_enumeration_sample :
    (∃ out, parseDirectoryBuffer firstBuffer (encodeWide "C:\\d") [] = some out ∧
      Parsed (encodeWide "C:\\d") firstBatch { entries := [] } out) ∧
    enumerate sampleListing (encodeWide "C:\\d") id 3 0 =
      some (.ok [⟨[0x61], .directory⟩, ⟨[0x62], .directory⟩, ⟨[0x63], .directory⟩]) := by
  have hexact := directory_enumeration_safe_and_complete (encodeWide "C:\\d") id
  refine ⟨hexact.2.1 firstBuffer firstBatch [] firstBuffer_holds, ?_⟩
  have hbatches : List.Forall₂ Holds sampleListing.buffers [firstBatch, secondBatch] :=
    .cons firstBuffer_holds (.cons secondBuffer_holds .nil)
  rw [hexact.2.2 sampleListing _ 3 0 hbatches (by decide)]
  decide +kernel

end Buffers

end WinProfile.DirectoryBuffer
