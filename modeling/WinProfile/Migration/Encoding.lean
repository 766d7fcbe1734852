/-
  File:      WinProfile/Migration/Encoding.lean
  Subject:   The bytes that the manifest of a migration is hashed from: they determine the files,
             their sizes and their digests, in their order, as long as no component of a path starts
             with a drive.

  * `ManifestFile` -- one copied file: the components of its path, its size, its digest.
  * `pathText`, `manifestStream` -- the text and the bytes that the code makes of them.
  * `manifest_injective` -- equal streams come from equal lists; equal hashes come from equal
    files, or SHA-256 does not tell the two streams apart, or two contents of one path.
  * `drive_name_replaces` -- a component with a drive in front replaces the path before it.
-/
import WinProfile.Lib.Framing
import WinProfile.Lib.Units
import WinProfile.Migration.Engine
import WinProfile.Migration.Grammar

namespace WinProfile.Migration

open Framing (Delimits intercalate_cons)

/-! ## 1. Files of a manifest -/

/-- A component of a relative path. -/
structure NameText where
  text : String
  nonempty : text ≠ ""
  noNul : Char.ofNat 0 ∉ text.toList
  noSlash : '/' ∉ text.toList
  noBackslash : '\\' ∉ text.toList

/-- 64 hexadecimal digits. -/
structure HexDigest where
  text : String
  length : text.toList.length = 64
  hex : ∀ c ∈ text.toList, c ∈ "0123456789abcdefABCDEF".toList

/-- One copied file. -/
structure ManifestFile where
  components : List NameText
  size : Nat
  small : size < 2 ^ 64
  digest : HexDigest

/-- A file without a drive in front of any component, as every name is that can be opened. -/
structure RelativeFile extends ManifestFile where
  relative : ∀ c ∈ components, WinPath.isDrive (encodeWide c.text) = false

theorem NameText.eq_of_text {a b : NameText} (h : a.text = b.text) : a = b := by
  cases a
  cases b
  cases h
  rfl

theorem HexDigest.eq_of_text {a b : HexDigest} (h : a.text = b.text) : a = b := by
  cases a
  cases b
  cases h
  rfl

/-- The relative path, as `copy_tree_verified` pushes its components. -/
def relativePath (components : List NameText) : Wide :=
  (components.map fun c => encodeWide c.text).foldl WinPath.join []

/-- The text that `copy_file_verified` enters for the path. -/
def pathText (components : List NameText) : String := displayRelativePath (relativePath components)

/-- The entry of the manifest. -/
def ManifestFile.entry (f : ManifestFile) : String × Nat × String :=
  (pathText f.components, f.size, f.digest.text)

/-- What `receipt` hashes. -/
def manifestStream (files : List ManifestFile) : Bytes :=
  (files.map ManifestFile.entry).flatMap manifestLine

/-! ## 2. The text of a path -/

theorem encodeWide_append (s t : List Char) :
    encodeWide (String.ofList (s ++ t)) =
      encodeWide (String.ofList s) ++ encodeWide (String.ofList t) := by
  rw [encodeWide, encodeWide, encodeWide, String.toList_ofList, String.toList_ofList,
    String.toList_ofList, List.flatMap_append]

theorem encodeWide_ne_nil {s : String} (h : s ≠ "") : encodeWide s ≠ [] := by
  intro hnil
  have hback := toStringLossy_encodeWide s
  rw [hnil] at hback
  exact h hback.symm

/-- The units of a component hold no separator. -/
theorem NameText.not_sep (c : NameText) : ∀ u ∈ encodeWide c.text, WinPath.isSep u = false := by
  have hreads := reads_toStringLossy (encodeWide c.text)
  rw [toStringLossy_encodeWide] at hreads
  have hback := hreads.mem_iff (d := '\\') (by unfold Plain; decide)
  have hslash := hreads.mem_iff (d := '/') (by unfold Plain; decide)
  intro u hu
  rw [WinPath.isSep_eq_false]
  constructor
  · rintro rfl
    exact c.noBackslash (hback.mpr hu)
  · rintro rfl
    exact c.noSlash (hslash.mpr hu)

theorem encodeWide_intercalate : ∀ texts : List (List Char),
    encodeWide (String.ofList (['\\'].intercalate texts)) =
      [WinPath.backslash].intercalate (texts.map fun t => encodeWide (String.ofList t))
  | [] => rfl
  | [t] => by simp
  | t :: next :: texts => by
    have ih := encodeWide_intercalate (next :: texts)
    rw [List.map_cons] at ih
    rw [List.intercalate_cons_cons, encodeWide_append, encodeWide_append, ih, List.map_cons,
      List.map_cons, List.intercalate_cons_cons]
    rfl

theorem map_intercalate {α β : Type} (f : α → β) (sep : List α) : ∀ ps : List (List α),
    (sep.intercalate ps).map f = (sep.map f).intercalate (ps.map (·.map f))
  | [] => rfl
  | [p] => by simp
  | p :: next :: ps => by
    have ih := map_intercalate f sep (next :: ps)
    rw [List.map_cons] at ih
    rw [List.intercalate_cons_cons, List.map_append, List.map_append, ih, List.map_cons,
      List.map_cons, List.intercalate_cons_cons]

section Paths

variable {components components' : List NameText}

/-- The path of the components, as a text with backslashes. -/
theorem relativePath_eq
    (h : ∀ c ∈ components, WinPath.isDrive (encodeWide c.text) = false) :
    relativePath components =
      encodeWide (String.ofList (['\\'].intercalate (components.map (·.text.toList)))) := by
  have hmap : (components.map (·.text.toList)).map (fun t => encodeWide (String.ofList t)) =
      components.map fun c => encodeWide c.text := by
    rw [List.map_map]
    refine List.map_congr_left fun c _ => ?_
    rw [Function.comp_apply, String.ofList_toList]
  rw [encodeWide_intercalate, hmap, relativePath]
  cases components with
  | nil => rfl
  | cons c components =>
    have hbare : ∀ d ∈ c :: components, WinPath.Bare (encodeWide d.text) := fun d hd =>
      ⟨encodeWide_ne_nil d.nonempty, d.not_sep, h d hd⟩
    have hfirst := hbare c List.mem_cons_self
    have hstart : WinPath.Steady [] := ⟨nofun, nofun⟩
    have hjoin : WinPath.join [] (encodeWide c.text) = encodeWide c.text :=
      hstart.join_eq hfirst.unrooted
    have hsteady := hstart.join hfirst.unrooted
    rw [hjoin] at hsteady
    rw [List.map_cons, List.foldl_cons, hjoin, intercalate_cons]
    refine foldl_join _ _ _ hsteady (List.getLast?_eq_some_getLast hfirst.nonempty)
      (c.not_sep _ (List.getLast_mem hfirst.nonempty)) fun name hname => ?_
    obtain ⟨d, hd, rfl⟩ := List.mem_map.mp hname
    exact hbare d (List.mem_cons_of_mem c hd)

/-- **The text of a path** is its components between slashes. -/
theorem toList_pathText
    (h : ∀ c ∈ components, WinPath.isDrive (encodeWide c.text) = false) :
    (pathText components).toList = ['/'].intercalate (components.map (·.text.toList)) := by
  rw [pathText, displayRelativePath, relativePath_eq h, toStringLossy_encodeWide, replaceChar,
    String.toList_ofList, String.toList_ofList, map_intercalate, List.map_map]
  have hsame : components.map ((fun t : List Char => t.map fun e => if e = '\\' then '/' else e) ∘
      fun c => c.text.toList) = components.map (·.text.toList) := by
    refine List.map_congr_left fun c _ => ?_
    refine (List.map_congr_left fun e he => ?_).trans (List.map_id _)
    have hne : e ≠ '\\' := fun h => c.noBackslash (h ▸ he)
    exact if_neg hne
  rw [hsame]
  rfl

theorem pathText_injective
    (hcs : ∀ c ∈ components, WinPath.isDrive (encodeWide c.text) = false)
    (hcs' : ∀ c ∈ components', WinPath.isDrive (encodeWide c.text) = false)
    (h : pathText components = pathText components') : components = components' := by
  have htexts := congrArg String.toList h
  rw [toList_pathText hcs, toList_pathText hcs'] at htexts
  have hparts : ∀ {cs : List NameText}, ∀ t ∈ cs.map (·.text.toList), t ≠ [] ∧ '/' ∉ t := by
    intro cs t ht
    obtain ⟨c, _, rfl⟩ := List.mem_map.mp ht
    refine ⟨fun hnil => c.nonempty (String.toList_inj.mp hnil), c.noSlash⟩
  have hsame := Framing.intercalate_inj hparts hparts htexts
  have hinj : Function.Injective fun c : NameText => c.text.toList := fun a b hab =>
    NameText.eq_of_text (String.toList_inj.mp hab)
  exact List.map_injective_iff.mpr hinj hsame

end Paths

/-! ## 3. Bytes -/

theorem toList_byteArray (b : ByteArray) : b.toList = b.data.toList := by
  have hloop : ∀ (n i : Nat) (r : List UInt8), b.size - i = n →
      ByteArray.toList.loop b i r = r.reverse ++ b.data.toList.drop i := by
    intro n
    induction n with
    | zero =>
      intro i r hn
      rw [ByteArray.toList.loop, if_neg (by omega), List.drop_eq_nil_of_le, List.append_nil]
      have hsize : b.data.toList.length = b.size := rfl
      omega
    | succ n ih =>
      intro i r hn
      have hi : i < b.data.toList.length := by
        have hsize : b.data.toList.length = b.size := rfl
        omega
      have hget : b.get! i = b.data.toList[i] := by
        rw [ByteArray.get!]
        exact getElem!_pos b.data i hi
      rw [ByteArray.toList.loop, if_pos (by omega), ih (i + 1) _ (by omega), List.reverse_cons,
        List.append_assoc, List.drop_eq_getElem_cons hi, hget]
      rfl
  exact hloop _ 0 [] rfl

/-- The bytes of a text, character by character. -/
theorem utf8_eq (s : String) : s.toUTF8.toList = s.toList.flatMap String.utf8EncodeChar := by
  rw [toList_byteArray, String.toUTF8_eq_toByteArray, ← String.utf8Encode_toList, List.utf8Encode,
    List.toList_data_toByteArray]

theorem utf8_injective {s t : String} (h : s.toUTF8.toList = t.toUTF8.toList) : s = t := by
  rw [toList_byteArray, toList_byteArray, Array.toList_inj] at h
  exact String.toByteArray_inj.mp (ByteArray.ext h)

/-- Only the NUL character is written with a zero byte. -/
theorem zero_not_mem_utf8 {c : Char} (h : c ≠ Char.ofNat 0) : 0 ∉ String.utf8EncodeChar c := by
  have hpos : c.val.toNat ≠ 0 := fun h0 => h (Char.ext (UInt32.toNat_inj.mp h0))
  have hbyte : ∀ n : Nat, n < 256 → (0 : UInt8) = UInt8.ofNat n → n = 0 := by
    intro n hn he
    have hnat := congrArg UInt8.toNat he
    rw [UInt8.toNat_ofNat', Nat.mod_eq_of_lt hn] at hnat
    exact hnat.symm
  intro hin
  unfold String.utf8EncodeChar at hin
  dsimp only at hin
  split at hin
  · next hle =>
    have := hbyte _ (by omega) (List.mem_singleton.mp hin)
    omega
  · split at hin
    · simp only [List.mem_cons, List.not_mem_nil, or_false] at hin
      rcases hin with hin | hin <;> have := hbyte _ (by omega) hin <;> omega
    · split at hin
      · simp only [List.mem_cons, List.not_mem_nil, or_false] at hin
        rcases hin with hin | hin | hin <;> have := hbyte _ (by omega) hin <;> omega
      · simp only [List.mem_cons, List.not_mem_nil, or_false] at hin
        rcases hin with hin | hin | hin | hin <;> have := hbyte _ (by omega) hin <;> omega

theorem zero_not_mem_path {components : List NameText}
    (h : ∀ c ∈ components, WinPath.isDrive (encodeWide c.text) = false) :
    0 ∉ (pathText components).toUTF8.toList := by
  rw [utf8_eq, List.mem_flatMap]
  intro ⟨c, hc, hzero⟩
  have hnul : c = Char.ofNat 0 := by
    by_contra hne
    exact zero_not_mem_utf8 hne hzero
  rw [toList_pathText h, hnul] at hc
  cases components with
  | nil => exact nomatch hc
  | cons first more =>
    rw [List.map_cons, intercalate_cons, List.mem_append, List.mem_flatMap] at hc
    rcases hc with hc | ⟨t, ht, hc⟩
    · exact first.noNul hc
    · obtain ⟨d, _, rfl⟩ := List.mem_map.mp ht
      rcases List.mem_append.mp hc with hc | hc
      · exact absurd (List.mem_singleton.mp hc) (by decide)
      · exact d.noNul hc

/-- A digest is 64 bytes long. -/
theorem HexDigest.length_utf8 (d : HexDigest) : d.text.toUTF8.toList.length = 64 := by
  have hone : ∀ c ∈ d.text.toList, (String.utf8EncodeChar c).length = 1 := by
    intro c hc
    have hdigits : ∀ c ∈ "0123456789abcdefABCDEF".toList, (String.utf8EncodeChar c).length = 1 :=
      forall_mem_of_all (by decide)
    exact hdigits c (d.hex c hc)
  rw [utf8_eq, List.length_flatMap, List.map_congr_left hone, List.map_const', List.sum_replicate,
    d.length]
  rfl

theorem toLeBytes_injective {n m : Nat} (hn : n < 2 ^ 64) (hm : m < 2 ^ 64)
    (h : toLeBytes n = toLeBytes m) : n = m := by
  have hdigit : ∀ i < 8, n / 256 ^ i % 256 = m / 256 ^ i % 256 := by
    intro i hi
    have hat := congrArg (·[i]?) h
    simp only [toLeBytes, List.getElem?_map, List.getElem?_range hi, Option.map_some,
      Option.some.injEq] at hat
    have hnat := congrArg UInt8.toNat hat
    rwa [UInt8.toNat_ofNat', UInt8.toNat_ofNat'] at hnat
  have h0 := hdigit 0 (by omega)
  have h1 := hdigit 1 (by omega)
  have h2 := hdigit 2 (by omega)
  have h3 := hdigit 3 (by omega)
  have h4 := hdigit 4 (by omega)
  have h5 := hdigit 5 (by omega)
  have h6 := hdigit 6 (by omega)
  have h7 := hdigit 7 (by omega)
  norm_num at h0 h1 h2 h3 h4 h5 h6 h7 hn hm
  omega

/-! ## 4. The stream -/

/-- One line says where it ends, and which file it is about. -/
theorem delimits_line : Delimits (fun f : RelativeFile => manifestLine f.entry) id := by
  have hpath : Delimits (fun f : RelativeFile => (pathText f.components).toUTF8.toList ++ [0])
      (·.components) :=
    Delimits.of_end (fun f => zero_not_mem_path f.relative) fun f g h =>
      pathText_injective f.relative g.relative (utf8_injective h)
  have hsize : Delimits (fun f : RelativeFile => toLeBytes f.size) (·.size) :=
    Delimits.of_length (fun _ _ => rfl) fun f g h => toLeBytes_injective f.small g.small h
  have hdigest : Delimits (fun f : RelativeFile => f.digest.text.toUTF8.toList) (·.digest) :=
    Delimits.of_length (fun f g => by rw [f.digest.length_utf8, g.digest.length_utf8])
      fun _ _ h => HexDigest.eq_of_text (utf8_injective h)
  have hend : Delimits (fun _ : RelativeFile => [(0x0A : UInt8)]) fun _ => () :=
    Delimits.of_length (fun _ _ => rfl) fun _ _ _ => rfl
  intro f g xs ys h
  obtain ⟨hkey, hrest⟩ := ((hpath.append hsize).append hdigest).append hend f g xs ys h
  simp only [Prod.mk.injEq] at hkey
  obtain ⟨⟨⟨hcomponents, hsame⟩, hdig⟩, _⟩ := hkey
  refine ⟨?_, hrest⟩
  obtain ⟨⟨_, _, _, _⟩, _⟩ := f
  obtain ⟨⟨_, _, _, _⟩, _⟩ := g
  cases hcomponents
  cases hsame
  cases hdig
  rfl

theorem manifestLine_ne_nil (entry : String × Nat × String) : manifestLine entry ≠ [] :=
  List.append_ne_nil_of_right_ne_nil _ (List.cons_ne_nil _ _)

/-- The stream of files with relative paths. -/
def relativeStream (files : List RelativeFile) : Bytes :=
  manifestStream (files.map (·.toManifestFile))

theorem relativeStream_injective {files files' : List RelativeFile}
    (h : relativeStream files = relativeStream files') : files = files' := by
  unfold relativeStream manifestStream at h
  rw [List.flatMap_map, List.flatMap_map, List.flatMap_map, List.flatMap_map] at h
  have hmap := delimits_line.flatMap (fun f => manifestLine_ne_nil f.entry) h
  rwa [List.map_id, List.map_id] at hmap

/-! ## 5. The hash -/

/-- A copied file with its content. -/
structure CopiedFile where
  components : List NameText
  relative : ∀ c ∈ components, WinPath.isDrive (encodeWide c.text) = false
  content : FileContent

section Hash

variable (H : CopyHost) (digest : Bytes → HexDigest)

/-- Its line in the manifest, with the digest of its content. -/
def CopiedFile.manifest (f : CopiedFile) : RelativeFile where
  components := f.components
  size := f.content.bytes.length
  small := f.content.small
  digest := digest f.content.bytes
  relative := f.relative

/-- What is hashed for copied files. -/
def copiedStream (files : List CopiedFile) : Bytes :=
  relativeStream (files.map (·.manifest digest))

/-- The receipt for copied files, with `digest` for SHA-256. -/
def receiptFor (files : List CopiedFile) : MigrationReceipt :=
  receiptOf { H with sha256 := fun bytes => (digest bytes).text }
    (files.map fun f => (f.manifest digest).entry)

/-- Two inputs that the digest does not tell apart. -/
def Collide (a b : Bytes) : Prop := a ≠ b ∧ digest a = digest b

variable {H digest}

theorem CopiedFile.eq_of_content {f g : CopiedFile} (hcomponents : f.components = g.components)
    (hbytes : f.content.bytes = g.content.bytes) : f = g := by
  obtain ⟨_, _, _, _⟩ := f
  obtain ⟨_, _, _, _⟩ := g
  cases hcomponents
  cases hbytes
  rfl

/-- Files with one manifest are the same, or two contents of one path collide. -/
theorem files_of_manifest : ∀ {files files' : List CopiedFile},
    files.map (·.manifest digest) = files'.map (·.manifest digest) →
    files = files' ∨ ∃ pair ∈ files.zip files', pair.1.components = pair.2.components ∧
      pair.1.content.bytes.length = pair.2.content.bytes.length ∧
        Collide digest pair.1.content.bytes pair.2.content.bytes
  | [], [], _ => .inl rfl
  | f :: files, g :: files', h => by
    rw [List.map_cons, List.map_cons, List.cons.injEq] at h
    obtain ⟨hfirst, hrest⟩ := h
    have hcomponents : f.components = g.components :=
      congrArg (fun m : RelativeFile => m.components) hfirst
    have hlength : f.content.bytes.length = g.content.bytes.length :=
      congrArg (fun m : RelativeFile => m.size) hfirst
    have hdigest : digest f.content.bytes = digest g.content.bytes :=
      congrArg (fun m : RelativeFile => m.digest) hfirst
    by_cases hbytes : f.content.bytes = g.content.bytes
    · rcases files_of_manifest hrest with hsame | ⟨pair, hpair, hcollide⟩
      · exact .inl (by rw [CopiedFile.eq_of_content hcomponents hbytes, hsame])
      · exact .inr ⟨pair, List.mem_cons_of_mem _ hpair, hcollide⟩
    · exact .inr ⟨(f, g), List.mem_cons_self, hcomponents, hlength, hbytes, hdigest⟩

/-- Equal hashes: equal files, or a collision of the two streams or of two contents. -/
theorem files_of_hash {files files' : List CopiedFile}
    (h : (receiptFor H digest files).manifestSha256 =
      (receiptFor H digest files').manifestSha256) :
    files = files' ∨ Collide digest (copiedStream digest files) (copiedStream digest files') ∨
      ∃ pair ∈ files.zip files', pair.1.components = pair.2.components ∧
        pair.1.content.bytes.length = pair.2.content.bytes.length ∧
          Collide digest pair.1.content.bytes pair.2.content.bytes := by
  have hstream : ∀ fs : List CopiedFile, (receiptFor H digest fs).manifestSha256 =
      (digest (copiedStream digest fs)).text := by
    intro fs
    unfold copiedStream relativeStream manifestStream
    rw [List.map_map, List.map_map]
    rfl
  rw [hstream, hstream] at h
  have hdigest := HexDigest.eq_of_text h
  by_cases hsame : copiedStream digest files = copiedStream digest files'
  · rcases files_of_manifest (relativeStream_injective hsame) with hfiles | hcollide
    · exact .inl hfiles
    · exact .inr (.inr hcollide)
  · exact .inr (.inl ⟨hsame, hdigest⟩)

end Hash

/-- **The manifest encoding is injective** on paths without a drive inside, which are those of the
names that can be opened: its bytes determine the files in their order; equal hashes come from the
same files with the same contents, or SHA-256 does not tell the two streams apart, or two contents
that lie under one path. -/
theorem manifest_injective :
    (∀ files files' : List RelativeFile, relativeStream files = relativeStream files' →
      files = files') ∧
    (∀ (H : CopyHost) (digest : Bytes → HexDigest) (files files' : List CopiedFile),
      (receiptFor H digest files).manifestSha256 = (receiptFor H digest files').manifestSha256 →
        files = files' ∨
          Collide digest (copiedStream digest files) (copiedStream digest files') ∨
          ∃ pair ∈ files.zip files', pair.1.components = pair.2.components ∧
            pair.1.content.bytes.length = pair.2.content.bytes.length ∧
              Collide digest pair.1.content.bytes pair.2.content.bytes) ∧
    ∀ name path : Wide, validateComponent name path = .ok () → WinPath.isDrive name = false :=
  ⟨fun _ _ => relativeStream_injective, fun _ _ _ _ => files_of_hash,
    fun _ _ h => (validateComponent_unrooted h).noDrive⟩

/-- A file of this path, with the digest of the empty content. -/
def sampleFile (components : List NameText) : ManifestFile where
  components := components
  size := 0
  small := by decide
  digest := ⟨"e3b0c44298fc1c149afbf4c8996fb92427ae41e4649b934ca495991b7852b855", by decide +kernel,
    forall_mem_of_all (by decide +kernel)⟩

def documentsName : NameText := ⟨"Documents", by decide, by decide, by decide, by decide⟩

def driveName : NameText := ⟨"D:x", by decide, by decide, by decide, by decide⟩

/-- A file in the personal folders. -/
def relativeSample : RelativeFile where
  toManifestFile := sampleFile [documentsName]
  relative := forall_mem_of_all (by decide +kernel)

theorem manifest_injective_sample :
    relativeStream [relativeSample] ≠ relativeStream [relativeSample, relativeSample] := fun h =>
  nomatch manifest_injective.1 _ _ h

/-- `Documents` and then `D:x` are one path with `D:x` alone: a drive replaces what is before it. -/
theorem drive_name_replaces : ¬ ∀ files files' : List ManifestFile,
    manifestStream files = manifestStream files' → files = files' := by
  intro h
  have hpath : pathText [documentsName, driveName] = pathText [driveName] := by decide +kernel
  have hstream : manifestStream [sampleFile [documentsName, driveName]] =
      manifestStream [sampleFile [driveName]] := by
    unfold manifestStream
    rw [List.map_singleton, List.map_singleton, ManifestFile.entry, ManifestFile.entry]
    exact congrArg (fun text => [(text, _, _)].flatMap manifestLine) hpath
  have hlengths := congrArg (fun fs : List ManifestFile => fs.map (·.components.length))
    (h _ _ hstream)
  exact absurd hlengths (by decide)

end WinProfile.Migration
