/-
  File:      WinProfile/Profiles/DirectorySize.lean
  Subject:   core-profiles/src/scanner.rs: the size of a profile's directory.

  * `Node`, `Entries` -- what the walk meets, with what it cannot read and what lies behind a
    reparse point.
  * `directorySize` -- the walk; the directory and its entries call each other.
  * `Entries.Sound`, `Node.bytes` -- the trees it accepts, and the size without a bound.
  * `directory_size_exact` -- it answers exactly on these trees, with the size up to 2^64 - 1,
    however they are enumerated and whatever lies behind reparse points.
  * `walkingHost` -- the scan of the profiles with the walk as its host's answer.
-/
import WinProfile.Profiles.Scanner
import WinProfile.Win32.SecureFs

namespace WinProfile.DirectorySize

/-! ## 1. Trees -/

mutual

/-- What a path leads to. -/
inductive Node where
  /-- `symlink_metadata` fails. -/
  | unreadable (error : String)
  | reparse (behind : Node)
  | file (length : UInt64)
  | directory (entries : Entries)
  /-- A directory that `read_dir` does not open. -/
  | unlisted (error : String)
  | other

/-- What `read_dir` yields, one after the other. -/
inductive Entries where
  | done
  | broken (error : String) (rest : Entries)
  | entry (name : Wide) (node : Node) (rest : Entries)

end

/-- `Metadata`, as far as it is read. -/
structure Metadata where
  isReparse : Bool := false
  isDir : Bool := false
  isFile : Bool := false
  len : UInt64 := 0

def Node.metadata : Node → Except String Metadata
  | .unreadable error => .error error
  | .reparse _ => .ok { isReparse := true }
  | .file length => .ok { isFile := true, len := length }
  | .directory _ | .unlisted _ => .ok { isDir := true }
  | .other => .ok {}

/-! ## 2. The walk -/

/-- `format!` of a path and an error. -/
def failedAt (path : Wide) (error : String) : String := display path ++ ": " ++ error

/-- `metadata_without_follow`. -/
def metadataWithoutFollow (path : Wide) (node : Node) : Except String Metadata :=
  node.metadata.mapError (failedAt path)

/-- `u64::saturating_add`. -/
def saturatingAdd (a b : UInt64) : UInt64 :=
  if a.toNat + b.toNat < 2 ^ 64 then a + b else UInt64.ofNat (2 ^ 64 - 1)

section Walk

-- what `read_dir` says of a path that is no directory
variable (notDirectory : String)

mutual

/-- `directory_size`. -/
def directorySize (root : Wide) (node : Node) : Except String UInt64 :=
  match metadataWithoutFollow root node with
  | .error error => .error error
  | .ok metadata =>
    if metadata.isReparse then .error ("reparse point refused: " ++ display root)
    else match node with
      | .directory entries => entriesSize root 0 entries
      | .unlisted error => .error (failedAt root error)
      | _ => .error (failedAt root notDirectory)

/-- The loop of `directory_size`. -/
def entriesSize (root : Wide) (total : UInt64) : Entries → Except String UInt64
  | .done => .ok total
  | .broken error _ => .error (failedAt root error)
  | .entry name node rest =>
    let path := WinPath.join root name
    match metadataWithoutFollow path node with
    | .error error => .error error
    | .ok metadata =>
      if metadata.isReparse then entriesSize root total rest
      else if metadata.isDir then
        match directorySize path node with
        | .error error => .error error
        | .ok size => entriesSize root (saturatingAdd total size) rest
      else if metadata.isFile then entriesSize root (saturatingAdd total metadata.len) rest
      else .error ("unsupported filesystem entry: " ++ display path)

end

end Walk

/-! ## 3. What the walk accepts -/

mutual

/-- A directory that can be walked through. -/
def Node.Listed : Node → Prop
  | .directory entries => entries.Sound
  | _ => False

/-- Every entry is a file, a directory that can be walked through, or a reparse point. -/
def Entries.Sound : Entries → Prop
  | .done => True
  | .broken _ _ => False
  | .entry _ (.file _) rest => rest.Sound
  | .entry _ (.reparse _) rest => rest.Sound
  | .entry _ node rest => node.Listed ∧ rest.Sound

end

mutual

/-- The bytes of the files, without a bound; reparse points have none. -/
def Node.bytes : Node → Nat
  | .file length => length.toNat
  | .directory entries => entries.bytes
  | _ => 0

def Entries.bytes : Entries → Nat
  | .done => 0
  | .broken _ rest => rest.bytes
  | .entry _ node rest => node.bytes + rest.bytes

end

def u64Max : Nat := 2 ^ 64 - 1

theorem toNat_saturatingAdd (a b : UInt64) :
    (saturatingAdd a b).toNat = min (a.toNat + b.toNat) u64Max := by
  have ha := a.toNat_lt
  have hb := b.toNat_lt
  unfold saturatingAdd u64Max
  split
  · rw [UInt64.toNat_add]
    omega
  · have hmax : (UInt64.ofNat (2 ^ 64 - 1)).toNat = 2 ^ 64 - 1 := by decide
    rw [hmax]
    omega

theorem toNat_le_u64Max (n : UInt64) : n.toNat ≤ u64Max := by
  have h := n.toNat_lt
  unfold u64Max
  omega

section Exact

variable (notDirectory : String)

theorem toNat_ofNat_min (n : Nat) : (UInt64.ofNat (min n u64Max)).toNat = min n u64Max :=
  UInt64.toNat_ofNat_of_lt' (lt_of_le_of_lt (Nat.min_le_right n u64Max) (by decide))

theorem min_min_add (a b : Nat) : min (min a u64Max + b) u64Max = min (a + b) u64Max := by
  omega

mutual

/-- The walk of a directory. -/
theorem directorySize_ok_iff (root : Wide) (n : UInt64) : ∀ node : Node,
    directorySize notDirectory root node = .ok n ↔
      node.Listed ∧ n.toNat = min node.bytes u64Max
  | .unreadable error => iff_of_false (fun h => by cases h) (fun h => h.1)
  | .reparse behind => iff_of_false (fun h => by cases h) (fun h => h.1)
  | .file length => iff_of_false (fun h => by cases h) (fun h => h.1)
  | .unlisted error => iff_of_false (fun h => by cases h) (fun h => h.1)
  | .other => iff_of_false (fun h => by cases h) (fun h => h.1)
  | .directory entries => by
    have hwalk := entriesSize_ok_iff root 0 n entries
    rw [show (0 : UInt64).toNat = 0 from rfl, Nat.zero_add] at hwalk
    exact hwalk

/-- The walk of the entries that are left, with what was counted before. -/
theorem entriesSize_ok_iff (root : Wide) (total n : UInt64) : ∀ entries : Entries,
    entriesSize notDirectory root total entries = .ok n ↔
      entries.Sound ∧ n.toNat = min (total.toNat + entries.bytes) u64Max
  | .done => by
    have htotal := toNat_le_u64Max total
    simp only [entriesSize, Except.ok.injEq, Entries.Sound, Entries.bytes, true_and, Nat.add_zero,
      Nat.min_eq_left htotal]
    exact ⟨fun h => h ▸ rfl, fun h => (UInt64.toNat_inj.mp h).symm⟩
  | .broken error rest => iff_of_false (fun h => by cases h) (fun h => h.1)
  | .entry name (.unreadable error) rest => iff_of_false (fun h => by cases h) (fun h => h.1.1)
  | .entry name (.other) rest => iff_of_false (fun h => by cases h) (fun h => h.1.1)
  | .entry name (.unlisted error) rest => iff_of_false (fun h => by cases h) (fun h => h.1.1)
  | .entry name (.reparse behind) rest => by
    have hrest := entriesSize_ok_iff root total n rest
    simp only [Entries.Sound, Entries.bytes, Node.bytes, Nat.zero_add]
    exact hrest
  | .entry name (.file length) rest => by
    have hrest := entriesSize_ok_iff root (saturatingAdd total length) n rest
    rw [toNat_saturatingAdd, min_min_add, Nat.add_assoc] at hrest
    simp only [Entries.Sound, Entries.bytes, Node.bytes]
    exact hrest
  | .entry name (.directory entries) rest => by
    have hinner := fun size => entriesSize_ok_iff (WinPath.join root name) 0 size entries
    simp only [show (0 : UInt64).toNat = 0 from rfl, Nat.zero_add] at hinner
    have hwalk : entriesSize notDirectory root total (.entry name (.directory entries) rest) =
        (entriesSize notDirectory (WinPath.join root name) 0 entries).bind fun size =>
          entriesSize notDirectory root (saturatingAdd total size) rest := by
      cases h : entriesSize notDirectory (WinPath.join root name) 0 entries with
      | error error => simp [entriesSize, directorySize, metadataWithoutFollow, Node.metadata,
          Except.mapError, h, Except.bind]
      | ok size => simp [entriesSize, directorySize, metadataWithoutFollow, Node.metadata,
          Except.mapError, h, Except.bind]
    simp only [Entries.Sound, Node.Listed, Entries.bytes, Node.bytes]
    rw [hwalk]
    cases h : entriesSize notDirectory (WinPath.join root name) 0 entries with
    | error error =>
      refine iff_of_false (fun he => by cases he) fun hsound => ?_
      -- a sound directory has a size
      rw [(hinner _).mpr ⟨hsound.1.1, toNat_ofNat_min entries.bytes⟩] at h
      cases h
    | ok size =>
      obtain ⟨hentries, hsize⟩ := (hinner size).mp h
      have hrest := entriesSize_ok_iff root (saturatingAdd total size) n rest
      have hsum : min (min (total.toNat + min entries.bytes u64Max) u64Max + rest.bytes) u64Max =
          min (total.toNat + (entries.bytes + rest.bytes)) u64Max := by omega
      rw [toNat_saturatingAdd, hsize, hsum] at hrest
      exact hrest.trans ⟨fun hr => ⟨⟨hentries, hr.1⟩, hr.2⟩, fun hr => ⟨hr.1.2, hr.2⟩⟩

end

/-- A directory that can be walked through has a size. -/
theorem directorySize_of_listed (root : Wide) {node : Node} (h : node.Listed) :
    directorySize notDirectory root node = .ok (UInt64.ofNat (min node.bytes u64Max)) := by
  refine (directorySize_ok_iff notDirectory root _ node).mpr ⟨h, ?_⟩
  exact toNat_ofNat_min node.bytes

/-! ## 4. What the size does not depend on -/

/-- The same tree, enumerated in another order, with other things behind its reparse points. -/
inductive Reordered : Entries → Entries → Prop where
  | refl (entries : Entries) : Reordered entries entries
  | swap (name name' : Wide) (node node' : Node) (rest : Entries) :
      Reordered (.entry name node (.entry name' node' rest))
        (.entry name' node' (.entry name node rest))
  | inside (name : Wide) {entries entries' : Entries} (rest : Entries)
      (h : Reordered entries entries') :
      Reordered (.entry name (.directory entries) rest) (.entry name (.directory entries') rest)
  | behind (name : Wide) (node node' : Node) (rest : Entries) :
      Reordered (.entry name (.reparse node) rest) (.entry name (.reparse node') rest)
  | tail (name : Wide) (node : Node) {rest rest' : Entries} (h : Reordered rest rest') :
      Reordered (.entry name node rest) (.entry name node rest')
  | trans {first second third : Entries} (h : Reordered first second)
      (h' : Reordered second third) : Reordered first third

/-- An entry that the walk accepts. -/
def Node.Allowed : Node → Prop
  | .file _ => True
  | .reparse _ => True
  | node => node.Listed

theorem sound_entry (name : Wide) (node : Node) (rest : Entries) :
    (Entries.entry name node rest).Sound ↔ node.Allowed ∧ rest.Sound := by
  cases node with
  | file length => exact (iff_of_eq (true_and _)).symm
  | reparse behind => exact (iff_of_eq (true_and _)).symm
  | unreadable error => exact Iff.rfl
  | directory entries => exact Iff.rfl
  | unlisted error => exact Iff.rfl
  | other => exact Iff.rfl

theorem Reordered.same {entries entries' : Entries} (h : Reordered entries entries') :
    (entries.Sound ↔ entries'.Sound) ∧ entries.bytes = entries'.bytes := by
  induction h with
  | refl entries => exact ⟨Iff.rfl, rfl⟩
  | swap name name' node node' rest =>
    refine ⟨?_, ?_⟩
    · rw [sound_entry, sound_entry, sound_entry, sound_entry]
      exact and_left_comm
    · simp only [Entries.bytes]
      omega
  | inside name rest h ih =>
    refine ⟨?_, ?_⟩
    · rw [sound_entry, sound_entry]
      exact and_congr_left fun _ => ih.1
    · simp only [Entries.bytes, Node.bytes, ih.2]
  | behind name node node' rest => exact ⟨Iff.rfl, rfl⟩
  | tail name node h ih =>
    refine ⟨?_, ?_⟩
    · rw [sound_entry, sound_entry, ih.1]
    · simp only [Entries.bytes, ih.2]
  | trans h h' ih ih' => exact ⟨ih.1.trans ih'.1, ih.2.trans ih'.2⟩

/-- **The size of a directory is exact**: there is an answer exactly for a directory that can be
walked through, it is the sum of the lengths of its files up to 2^64 - 1, and neither the order of
the enumeration nor what lies behind a reparse point makes a difference to it. -/
theorem directory_size_exact (root : Wide) (node : Node) (n : UInt64) :
    (directorySize notDirectory root node = .ok n ↔
      node.Listed ∧ n.toNat = min node.bytes u64Max) ∧
    ∀ entries entries', Reordered entries entries' →
      (directorySize notDirectory root (.directory entries) = .ok n ↔
        directorySize notDirectory root (.directory entries') = .ok n) := by
  refine ⟨directorySize_ok_iff notDirectory root n node, fun entries entries' h => ?_⟩
  obtain ⟨hsound, hbytes⟩ := h.same
  rw [directorySize_ok_iff, directorySize_ok_iff]
  simp only [Node.Listed, Node.bytes, hsound, hbytes]

/-! ## 5. In the scan -/

/-- A host whose sizes are those of the walk, over the trees that its calls meet. -/
def walkingHost (H : ScanHost) (tree : Nat → Wide → Node) : ScanHost :=
  { H with
    directorySize := fun n path =>
      (directorySize notDirectory path (tree n path)).map UInt64.toNat }

/-- A profile shows the size of its directory, or none and why not. -/
theorem scanned_size (H : ScanHost) (tree : Nat → Wide → Node) (n : Nat) (path : Wide) :
    let size := diskSizeOf ((walkingHost notDirectory H tree).directorySize n path)
    (tree n path).Listed ∧ size = ⟨min (tree n path).bytes u64Max, []⟩ ∨
      ¬ (tree n path).Listed ∧ ∃ error, size = ⟨0, [.filesystemScanFailure error]⟩ := by
  simp only [walkingHost]
  cases h : directorySize notDirectory path (tree n path) with
  | ok size =>
    obtain ⟨hlisted, hsize⟩ := (directorySize_ok_iff notDirectory path size _).mp h
    refine .inl ⟨hlisted, ?_⟩
    rw [← hsize]
    rfl
  | error error =>
    refine .inr ⟨fun hlisted => ?_, error, rfl⟩
    rw [directorySize_of_listed notDirectory path hlisted] at h
    cases h

end Exact

end WinProfile.DirectorySize
