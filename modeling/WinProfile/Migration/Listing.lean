/-
  File:      WinProfile/Migration/Listing.lean
  Subject:   What a successful migration has copied, file by file: nothing is lost, nothing is
             doubled, nothing is changed.

  * `SourceNode.At` -- the node at the end of a path of names.
  * `filesOf`, `selectedFiles` -- the files in the order of the traversal; every file is among them
    (`mem_filesOf`), and once (`nodup_filesOf`).
  * `Replica` -- an object of the destination that is a node of the source again, byte for byte.
  * `migration_copies_selection` -- the whole run: the target is the selection, the manifest has a
    line for every file, and the receipt is that of the manifest.
-/
import WinProfile.Migration.Honesty
import WinProfile.Migration.Selection

namespace WinProfile.Migration

variable {H : CopyHost} {fate : Fate} {s s' : RunState}

/-! ## 1. Paths -/

/-- The node at the end of a path, by the names as they are stored. -/
inductive SourceNode.At : SourceNode → List Wide → SourceNode → Prop
  | here {node : SourceNode} : At node [] node
  | inside {names : List Wide} {child : Wide → SourceNode} {name : Wide} {path : List Wide}
    {node : SourceNode} (hmem : name ∈ names) (h : At (child name) path node) :
    At (.directory names child) (name :: path) node

/-- No directory has two names that are the same to the file system. -/
def Distinct (H : CopyHost) : SourceNode → Prop
  | .directory names child => (names.map H.fold).Nodup ∧ ∀ name ∈ names, Distinct H (child name)
  | _ => True

section Paths

variable {content : FileContent} {names path : List Wide} {child : Wide → SourceNode}
  {node next : SourceNode} {name : Wide}

theorem at_directory : (SourceNode.directory names child).At path (.file content) ↔
    ∃ name rest, path = name :: rest ∧ name ∈ names ∧ (child name).At rest (.file content) := by
  constructor
  · intro h
    cases h with
    | inside hmem h => exact ⟨_, _, rfl, hmem, h⟩
  · rintro ⟨name, rest, rfl, hmem, h⟩
    exact .inside hmem h

theorem at_file {content' : FileContent} : (SourceNode.file content').At path (.file content) ↔
    path = [] ∧ content = content' := by
  constructor
  · intro h
    cases h with
    | here => exact ⟨rfl, rfl⟩
  · rintro ⟨rfl, rfl⟩
    exact .here

/-- Below the directories of a list of names. -/
theorem at_nest : ∀ (names : List Wide) {path : List Wide},
    (nest node names).At path (.file content) ↔
      ∃ rest, path = names ++ rest ∧ node.At rest (.file content)
  | [], path => ⟨fun h => ⟨path, rfl, h⟩, fun ⟨_, hpath, h⟩ => hpath ▸ h⟩
  | name :: names, path => by
    rw [nest, at_directory]
    constructor
    · rintro ⟨_, tail, rfl, hmem, h⟩
      obtain ⟨rest, rfl, hrest⟩ := (at_nest names).mp h
      exact ⟨rest, by rw [List.mem_singleton.mp hmem]; rfl, hrest⟩
    · rintro ⟨rest, rfl, hrest⟩
      exact ⟨name, names ++ rest, rfl, List.mem_cons_self, (at_nest names).mpr ⟨rest, rfl, hrest⟩⟩

theorem Distinct.find (h : Distinct H node) (hfind : node.find H name = some next) :
    Distinct H next := by
  cases node with
  | file _ => cases hfind
  | reparse => cases hfind
  | directory names child =>
    rw [SourceNode.find] at hfind
    split at hfind
    · next hmem =>
      cases hfind
      exact h.2 name hmem
    · obtain ⟨found, hfound, rfl⟩ := Option.map_eq_some_iff.mp hfind
      exact h.2 found (List.mem_of_find?_eq_some hfound)

theorem Distinct.reach : ∀ (names : List Wide) {node next : SourceNode}, Distinct H node →
    node.reach H names = some next → Distinct H next
  | [], _, _, h, hreach => by
    cases hreach
    exact h
  | name :: names, node, next, h, hreach => by
    obtain ⟨found, hfound, hrest⟩ := Option.bind_eq_some_iff.mp hreach
    exact Distinct.reach names (h.find hfound) hrest

end Paths

/-! ## 2. The files of a tree -/

/-- The files of a tree in the order of the traversal: the names that lead to each, and what it
holds. -/
def filesOf (H : CopyHost) (arrange : Wide → List Wide → List Wide) :
    SourceNode → Wide → List (List Wide × FileContent)
  | .file content, _ => [([], content)]
  | .directory names child, path =>
    (sortByKey H.lower id (arrange path names)).flatMap fun name =>
      (filesOf H arrange (child name) (WinPath.join path name)).map fun file =>
        (name :: file.1, file.2)
  | .reparse, _ => []

/-- The line of a file in the manifest. -/
def lineOf (H : CopyHost) (relative : Wide) (file : List Wide × FileContent) :
    String × Nat × String :=
  (displayRelativePath (file.1.foldl WinPath.join relative), file.2.bytes.length,
    H.sha256 file.2.bytes)

section Files

variable {content : FileContent} {path : List Wide}

/-- The manifest of a tree has the lines of its files. -/
theorem manifestOf_eq (arrange : Wide → List Wide → List Wide) :
    ∀ (node : SourceNode) (base relative : Wide), manifestOf H arrange node base relative
      = (filesOf H arrange node base).map (lineOf H relative) := by
  intro node
  induction node with
  | file content => exact fun _ _ => rfl
  | reparse => exact fun _ _ => rfl
  | directory names child ih =>
    intro base relative
    rw [manifestOf, filesOf, List.map_flatMap]
    refine List.flatMap_congr fun name _ => ?_
    rw [ih, List.map_map]
    rfl

/-- Every file of a tree is among them. -/
theorem mem_filesOf (fate : Fate) : ∀ {node : SourceNode} {base : Wide} {path : List Wide},
    (path, content) ∈ filesOf H fate.arrange node base ↔ node.At path (.file content) := by
  intro node
  induction node with
  | file content' =>
    intro base path
    rw [filesOf, List.mem_singleton, Prod.mk.injEq, at_file]
  | reparse =>
    intro base path
    exact iff_of_false List.not_mem_nil nofun
  | directory names child ih =>
    intro base path
    rw [filesOf, List.mem_flatMap, at_directory]
    constructor
    · rintro ⟨name, hmem, hfile⟩
      obtain ⟨file, hin, heq⟩ := List.mem_map.mp hfile
      cases heq
      exact ⟨name, file.1, rfl, (listed_perm base names).mem_iff.mp hmem, (ih name).mp hin⟩
    · rintro ⟨name, rest, rfl, hmem, h⟩
      exact ⟨name, (listed_perm base names).mem_iff.mpr hmem,
        List.mem_map.mpr ⟨(rest, content), (ih name).mpr h, rfl⟩⟩

/-- No file of a tree is among them twice. -/
theorem nodup_filesOf (fate : Fate) : ∀ {node : SourceNode} (base : Wide), Distinct H node →
    ((filesOf H fate.arrange node base).map Prod.fst).Nodup := by
  intro node
  induction node with
  | file content => exact fun _ _ => List.nodup_singleton _
  | reparse => exact fun _ _ => List.nodup_nil
  | directory names child ih =>
    intro base hdistinct
    have hnames : (sortByKey H.lower id (fate.arrange base names)).Nodup :=
      (listed_perm base names).nodup_iff.mpr (List.Nodup.of_map _ hdistinct.1)
    rw [filesOf, List.map_flatMap, List.nodup_flatMap]
    constructor
    · intro name hmem
      have hchild := ih name (WinPath.join base name)
        (hdistinct.2 name ((listed_perm base names).mem_iff.mp hmem))
      rw [List.map_map]
      have hcons := hchild.map (List.cons_injective (a := name))
      rwa [List.map_map] at hcons
    · -- below two names there are no paths in common
      refine List.Pairwise.imp_of_mem (fun {a b} _ _ hne => ?_) hnames
      intro path ha hb
      dsimp only at ha hb
      rw [List.map_map, List.mem_map] at ha hb
      obtain ⟨_, _, rfl⟩ := ha
      obtain ⟨_, _, heq⟩ := hb
      exact hne (List.cons.inj heq).1.symm

end Files

/-! ## 3. The files of the selection -/

/-- The files of a root, by the names that lead to them in the target. -/
def rootFiles (H : CopyHost) (arrange : Wide → List Wide → List Wide) (source : SourceDirectory)
    (root : Wide) : List (List Wide × FileContent) :=
  match source.node.reach H (componentNames root) with
  | none => []
  | some node =>
    (filesOf H arrange node ((componentNames root).foldl WinPath.join source.displayPath)).map
      fun file => (componentNames root ++ file.1, file.2)

section Roots

variable {source : SourceDirectory} {root : Wide} {roots path : List Wide} {content : FileContent}

theorem rootLines_eq (arrange : Wide → List Wide → List Wide)
    (hroot : (componentNames root).foldl WinPath.join [] = root) :
    rootLines H arrange source root = (rootFiles H arrange source root).map (lineOf H []) := by
  rw [rootLines, rootFiles]
  cases source.node.reach H (componentNames root) with
  | none => rfl
  | some node =>
    simp only [manifestOf_eq, List.map_map]
    refine List.map_congr_left fun file _ => ?_
    rw [Function.comp_apply, lineOf, lineOf, List.foldl_append, hroot]

theorem mem_rootFiles : (path, content) ∈ rootFiles H fate.arrange source root ↔
    ∃ node rest, source.node.reach H (componentNames root) = some node ∧
      path = componentNames root ++ rest ∧ node.At rest (.file content) := by
  rw [rootFiles]
  cases hreach : source.node.reach H (componentNames root) with
  | none => exact iff_of_false List.not_mem_nil fun ⟨_, _, h, _⟩ => nomatch h
  | some node =>
    constructor
    · intro hmem
      obtain ⟨file, hfile, heq⟩ := List.mem_map.mp hmem
      cases heq
      exact ⟨node, file.1, rfl, rfl, (mem_filesOf fate).mp hfile⟩
    · rintro ⟨_, rest, heq, rfl, h⟩
      cases heq
      exact List.mem_map.mpr ⟨(rest, content), (mem_filesOf fate).mpr h, rfl⟩

theorem nodup_rootFiles (h : Distinct H source.node) :
    ((rootFiles H fate.arrange source root).map Prod.fst).Nodup := by
  rw [rootFiles]
  cases hreach : source.node.reach H (componentNames root) with
  | none => exact List.nodup_nil
  | some node =>
    have hnode := (nodup_filesOf fate
      ((componentNames root).foldl WinPath.join source.displayPath) (h.reach _ hreach)).map
      (List.append_right_injective (componentNames root))
    rw [List.map_map] at hnode
    rwa [List.map_map]

/-- The files of the selection are those of the roots. -/
theorem at_selection (fate : Fate) (source : SourceDirectory) (hroots : WellNamed H roots) :
    (selection H source.node roots).At path (.file content) ↔
      ∃ root ∈ roots, (path, content) ∈ rootFiles H fate.arrange source root := by
  rw [selection, at_directory]
  constructor
  · rintro ⟨name, tail, rfl, hmem, h⟩
    obtain ⟨root, hroot, htop⟩ := List.mem_flatMap.mp hmem
    obtain ⟨first, more, hnames, _⟩ := hroots.parts root hroot
    rw [topNames, hnames] at htop
    cases hreach : source.node.reach H (first :: more) with
    | none =>
      rw [hreach] at htop
      cases htop
    | some node =>
      rw [hreach] at htop
      cases List.mem_singleton.mp htop
      rw [topChild_eq hroots hroot hnames node hreach] at h
      obtain ⟨rest, rfl, hrest⟩ := (at_nest more).mp h
      exact ⟨root, hroot,
        mem_rootFiles.mpr ⟨node, rest, hnames ▸ hreach, by rw [hnames]; rfl, hrest⟩⟩
  · rintro ⟨root, hroot, hmem⟩
    obtain ⟨node, rest, hreach, rfl, hrest⟩ := mem_rootFiles.mp hmem
    obtain ⟨first, more, hnames, _⟩ := hroots.parts root hroot
    rw [hnames] at hreach
    refine ⟨first, more ++ rest, by rw [hnames]; rfl, ?_, ?_⟩
    · refine List.mem_flatMap.mpr ⟨root, hroot, ?_⟩
      rw [topNames, hnames, hreach]
      exact List.mem_cons_self
    · rw [topChild_eq hroots hroot hnames node hreach]
      exact (at_nest more).mpr ⟨rest, rfl, hrest⟩

/-- No file of the selection comes twice. -/
theorem nodup_rootsFiles (hroots : WellNamed H roots) (h : Distinct H source.node) :
    ((roots.flatMap (rootFiles H fate.arrange source)).map Prod.fst).Nodup := by
  rw [List.map_flatMap, List.nodup_flatMap]
  refine ⟨fun root _ => nodup_rootFiles h, ?_⟩
  refine List.Pairwise.imp_of_mem (fun {a b} ha hb hne => ?_) (List.pairwise_map.mp hroots.distinct)
  intro path hfirst hsecond
  obtain ⟨⟨_, content⟩, hfile, rfl⟩ := List.mem_map.mp hfirst
  obtain ⟨⟨_, content'⟩, hfile', heq⟩ := List.mem_map.mp hsecond
  obtain ⟨_, rest, _, rfl, _⟩ := mem_rootFiles.mp hfile
  obtain ⟨_, rest', _, hpath, _⟩ := mem_rootFiles.mp hfile'
  obtain ⟨name, more, hnames, _⟩ := hroots.parts a ha
  obtain ⟨name', more', hnames', _⟩ := hroots.parts b hb
  have hhead := heq.symm.trans hpath
  rw [hnames, hnames'] at hhead
  refine hne ?_
  rw [hnames, hnames', (List.cons.inj hhead).1]
  rfl

theorem foldl_allRoots : ∀ root ∈ allRoots,
    (componentNames root).foldl WinPath.join [] = root := by
  decide +kernel

end Roots

/-- The files that a plan selects, in the order of the traversal. -/
def selectedFiles (H : CopyHost) (contents : FileIdentity → SourceNode) (plan : MigrationPlan)
    (arrange : Wide → List Wide → List Wide) (v : ValidatedMigration) :
    List (List Wide × FileContent) :=
  (selectedRoots plan).flatMap (rootFiles H arrange (sourceOf contents v))

/-! ## 4. The copy -/

/-- The object is the node again: the same directories, the same files, the same bytes. -/
def Replica (s : RunState) : SourceNode → DestObject → Prop
  | .file content, o => o.content = some content.bytes
  | .directory names child, o => o.content = none ∧
      ((s.within (some o.serial)).map (·.name)).Perm names ∧
      ∀ o' ∈ s.within (some o.serial), Replica s (child o'.name) o'
  | .reparse, _ => False

/-- What the destination holds has the digest of a file of the tree only where it has its bytes. -/
def NoCollision (H : CopyHost) (s : RunState) (node : SourceNode) : Prop :=
  ∀ path content, node.At path (.file content) → ∀ o ∈ s.objects, ∀ bytes, o.content = some bytes →
    H.sha256 bytes = H.sha256 content.bytes → bytes = content.bytes

theorem Image.replica : ∀ {node : SourceNode} {o : DestObject}, o ∈ s.objects →
    NoCollision H s node → Image H s node o → Replica s node o := by
  intro node
  induction node with
  | file content =>
    intro o ho hno himage
    obtain ⟨bytes, hbytes, _, hdigest⟩ := himage
    have heq := hno [] content .here o ho bytes hbytes hdigest
    exact hbytes.trans (congrArg some heq)
  | reparse => exact fun _ _ himage => himage.elim
  | directory names child ih =>
    intro o ho hno himage
    obtain ⟨hcontent, hnames, hchildren⟩ := himage
    refine ⟨hcontent, hnames, fun o' ho' => ?_⟩
    have hmem : o'.name ∈ names := hnames.mem_iff.mp (List.mem_map_of_mem ho')
    refine ih o'.name (List.mem_filter.mp ho').1 (fun path content hat => ?_) (hchildren o' ho')
    exact hno (o'.name :: path) content (.inside hmem hat)

/-- What a migration has delivered: the target with the data in it, a line for every file, in the
order of the files, and the receipt of the lines. -/
structure Delivered (H : CopyHost) (s s' : RunState) (leaf : Wide) (data : SourceNode)
    (files : List (List Wide × FileContent)) (receipt : MigrationReceipt) : Prop where
  target : ∃ target, s'.within none = s.within none ++ [target] ∧ target.name = leaf ∧
    Replica s' data target
  complete : ∀ path content, (path, content) ∈ files ↔ data.At path (.file content)
  once : (files.map Prod.fst).Nodup
  manifest : s'.transaction.manifest = files.map (lineOf H [])
  copiedFiles : receipt.copiedFiles = s'.transaction.manifest.length
  copiedBytes : receipt.copiedBytes = min (s'.transaction.manifest.map fun line => line.2.1).sum u64Max

/-- The lines that a plan writes are those of its files. -/
theorem selectedLines_eq (contents : FileIdentity → SourceNode) (plan : MigrationPlan)
    (arrange : Wide → List Wide → List Wide) (v : ValidatedMigration) :
    selectedLines H contents plan arrange v
      = (selectedFiles H contents plan arrange v).map (lineOf H []) := by
  rw [selectedLines, selectedFiles, List.map_flatMap]
  refine List.flatMap_congr fun root hroot => rootLines_eq arrange ?_
  exact foldl_allRoots root ((selectedRoots_sublist plan).subset hroot)

/-- **A successful migration copies exactly the selected data**: the target holds the roots that the
plan selects and the source has, each in its parents, byte for byte, and nothing else; the manifest
lists every file of them once, in the order of the traversal; the receipt counts the manifest. -/
theorem migration_copies_selection {F : Forest} {contents : FileIdentity → SourceNode}
    {plan : MigrationPlan} {receipt : MigrationReceipt} (ho : Ordered s)
    (hrun : executeMigrationWithCancel fate H F contents plan s = (.ok receipt, s')) :
    ∃ v, validateForExecution H.toMigrationHost F plan = .ok v ∧
      (Distinct H (contents v.sourceDirectory.handle) →
        NoCollision H s' (selectedData H contents plan v) →
        Delivered H s s' v.targetLeaf (selectedData H contents plan v)
          (selectedFiles H contents plan fate.arrange v) receipt) := by
  obtain ⟨v, hv, hmigrated, _⟩ := execute_ok ho hrun
  refine ⟨v, hv, fun hdistinct hcollision => ?_⟩
  obtain ⟨target, hwithin, hname, hmem, himage⟩ := hmigrated.target
  have hroots := wellNamed_selectedRoots H plan
  constructor
  case target => exact ⟨target, hwithin, hname, himage.replica hmem hcollision⟩
  case complete =>
    intro path content
    rw [selectedFiles, List.mem_flatMap]
    exact (at_selection fate (sourceOf contents v) hroots).symm
  case once => exact nodup_rootsFiles hroots hdistinct
  case manifest => exact hmigrated.manifest.trans (selectedLines_eq contents plan fate.arrange v)
  case copiedFiles => rw [hmigrated.receipt, receiptOf]
  case copiedBytes =>
    rw [hmigrated.receipt, receiptOf, ← saturatingSum_eq, saturatingSum, List.foldl_map]
    rfl

/-! ## 5. A run -/

def sampleText : FileContent := ⟨[0x61, 0x62, 0x63], by decide⟩

/-- `C:\src` with the one file `Documents\a.txt`. -/
def sampleContents (d : FileIdentity) : SourceNode :=
  if d = sampleSource then
    .directory [encodeWide "Documents"] fun _ =>
      .directory [encodeWide "a.txt"] fun _ => .file sampleText
  else .directory [] fun _ => .reparse

/-- SHA-256 of the contents that the run meets. -/
def sampleDigest (bytes : Bytes) : String :=
  if bytes = [] then "e3b0c44298fc1c149afbf4c8996fb92427ae41e4649b934ca495991b7852b855"
  else if bytes = sampleText.bytes then
    "ba7816bf8f01cfea414140de5dae2223b00361a396177a9cb410ff61f20015ad"
  else "785ec16d47a7710c0dd83fdb0a76597808f12d863be53f5c1485b5a2f87f4c36"

def sampleCopyHost : CopyHost where
  toMigrationHost := sampleHost
  sha256 := sampleDigest
  up := upperUnit
  up_ascii := upperUnit_def

def sampleFate : Fate := smoothFate (fun _ names => names) (fun _ names => .refl names) sampleFresh

def sampleCopy : Except MigrationError MigrationReceipt × RunState :=
  executeMigrationWithCancel sampleFate sampleCopyHost sampleForest sampleContents
    (sampleMigration "C:\\copy") {}

def sampleReceipt : MigrationReceipt where
  copiedFiles := 1
  copiedBytes := 3
  manifestSha256 := "785ec16d47a7710c0dd83fdb0a76597808f12d863be53f5c1485b5a2f87f4c36"

theorem migration_copies_selection_sample :
    sampleCopy.1 = .ok sampleReceipt ∧
      ∃ v, validateForExecution sampleHost sampleForest (sampleMigration "C:\\copy") = .ok v ∧
        Delivered sampleCopyHost {} sampleCopy.2 v.targetLeaf
          (selectedData sampleCopyHost sampleContents (sampleMigration "C:\\copy") v)
          (selectedFiles sampleCopyHost sampleContents (sampleMigration "C:\\copy")
            sampleFate.arrange v) sampleReceipt := by
  have hok : sampleCopy.1 = .ok sampleReceipt := by decide +kernel
  have hstored : (sampleCopy.2.objects.all fun o =>
      o.content = none || o.content = some sampleText.bytes) = true := by decide +kernel
  obtain ⟨v, hv, hdelivered⟩ := migration_copies_selection ordered_start (Prod.ext hok rfl)
  refine ⟨hok, v, hv, hdelivered ?_ ?_⟩
  · have hsource : (validateForExecution sampleHost sampleForest
        (sampleMigration "C:\\copy")).toOption.map (·.sourceDirectory.handle) = some sampleSource := by
      decide +kernel
    rw [show validateForExecution sampleHost sampleForest _ = .ok v from hv] at hsource
    have hhandle : v.sourceDirectory.handle = sampleSource := Option.some.inj hsource
    rw [hhandle]
    exact ⟨List.nodup_singleton _, fun _ _ => ⟨List.nodup_singleton _, fun _ _ => trivial⟩⟩
  · have hfiles : ((validateForExecution sampleHost sampleForest
        (sampleMigration "C:\\copy")).toOption.all fun v =>
          (selectedFiles sampleCopyHost sampleContents (sampleMigration "C:\\copy")
            sampleFate.arrange v).all fun file => file.2.bytes = sampleText.bytes) = true := by
      decide +kernel
    rw [show validateForExecution sampleHost sampleForest _ = .ok v from hv] at hfiles
    intro path content hat o ho bytes hbytes _
    have hroots := wellNamed_selectedRoots sampleCopyHost (sampleMigration "C:\\copy")
    obtain ⟨root, hroot, hmem⟩ :=
      (at_selection sampleFate (sourceOf sampleContents v) hroots).mp hat
    have hfile := List.all_eq_true.mp hfiles _ (List.mem_flatMap.mpr ⟨root, hroot, hmem⟩)
    have hobject := List.all_eq_true.mp hstored o ho
    rw [hbytes] at hobject
    rw [of_decide_eq_true hfile]
    simpa using hobject

end WinProfile.Migration
