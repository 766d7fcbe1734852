/-
  File:      WinProfile/Migration/Order.lean
  Subject:   When the receipt of a migration depends on the order in which the directories of the
             source are enumerated: `entries` sorts by a key that two names can have in common.

  * `manifestOf_perm` -- in any order the lines are the same, up to their order.
  * `Settled` -- in every directory two entries with one key add lines that can change places.
  * `manifestOf_settled_iff` -- exactly then the lines of a tree come in one order.
  * `order_independent_iff` -- the same for the whole migration, when it can be carried out.
  * `tied_names_show` -- two names with one key, and two receipts.
-/
import Mathlib.Data.String.Basic
import WinProfile.Migration.Grammar
import WinProfile.Migration.Listing

namespace WinProfile.Migration

open Enumeration (sortBy Swappable)
open WinPath (Steady Unrooted)

variable {H : CopyHost}

/-! ## 1. Other orders -/

/-- An order for the enumeration of every directory. -/
def Arranges (arrange : Wide → List Wide → List Wide) : Prop :=
  ∀ path names, (arrange path names).Perm names

/-- The order in which the names are stored. -/
def storedOrder (_ : Wide) (names : List Wide) : List Wide := names

theorem storedOrder_arranges : Arranges storedOrder := fun _ names => .refl names

section Trees

variable {arrange arrange' : Wide → List Wide → List Wide}

theorem sorted_perm (h : Arranges arrange) (path : Wide) (names : List Wide) :
    (sortByKey H.lower id (arrange path names)).Perm names :=
  (sortByKey_perm H.lower id _).trans (h path names)

/-- The lines of a tree are the same, up to their order. -/
theorem manifestOf_perm (h : Arranges arrange) (h' : Arranges arrange') :
    ∀ (node : SourceNode) (path path' relative : Wide),
      (manifestOf H arrange node path relative).Perm (manifestOf H arrange' node path' relative) := by
  intro node
  induction node with
  | file content => exact fun _ _ _ => .refl _
  | reparse => exact fun _ _ _ => .refl _
  | directory names child ih =>
    intro path path' relative
    rw [manifestOf, manifestOf]
    have hnames := (sorted_perm (H := H) h path names).trans (sorted_perm (H := H) h' path' names).symm
    refine (hnames.flatMap_right _).trans ?_
    exact List.Perm.flatMap_left _ fun name _ => ih name _ _ _

theorem NameOk.unrooted {name : Wide} (h : NameOk name) : Unrooted name :=
  validateComponent_unrooted (checkRelativeName_ok.mp h).1

/-- Only the orders of the directories from a path on are asked for. -/
theorem manifestOf_congr (harrange : Arranges arrange') : ∀ (node : SourceNode)
    {path relative : Wide}, Steady path → Copyable H node →
    (∀ p names, path.length ≤ p.length → arrange p names = arrange' p names) →
    manifestOf H arrange node path relative = manifestOf H arrange' node path relative := by
  intro node
  induction node with
  | file content => exact fun _ _ _ => rfl
  | reparse => exact fun _ _ _ => rfl
  | directory names child ih =>
    intro path relative hpath hcopy h
    rw [manifestOf, manifestOf, h path names le_rfl]
    refine List.flatMap_congr fun name hname => ?_
    obtain ⟨hok, hchild⟩ := hcopy.2 name ((sorted_perm harrange path names).mem_iff.mp hname)
    have hlong := hpath.length_lt hok.unrooted
    exact ih name (hpath.join hok.unrooted) hchild fun p ns hle => h p ns (by omega)

/-- In the order of the names the path does not matter. -/
theorem manifestOf_stored : ∀ (node : SourceNode) (path path' relative : Wide),
    manifestOf H storedOrder node path relative = manifestOf H storedOrder node path' relative := by
  intro node
  induction node with
  | file content => exact fun _ _ _ => rfl
  | reparse => exact fun _ _ _ => rfl
  | directory names child ih =>
    intro path path' relative
    rw [manifestOf, manifestOf]
    exact List.flatMap_congr fun name _ => ih name _ _ _

end Trees

/-! ## 2. Ties -/

/-- In every directory of the tree two entries with one key add lines that can change places. -/
def Settled (H : CopyHost) : SourceNode → Wide → Prop
  | .directory names child, relative =>
    (∀ name ∈ names, Settled H (child name) (WinPath.join relative name)) ∧
      ∀ a ∈ names, ∀ b ∈ names, entryKey H.lower a = entryKey H.lower b →
        Swappable (linesOf H storedOrder child relative relative) a b
  | _, _ => True

section Ties

variable {arrange : Wide → List Wide → List Wide} {names : List Wide} {child : Wide → SourceNode}
  {path relative : Wide}

/-- In a settled tree every order gives the lines in one order. -/
theorem manifestOf_settled (h : Arranges arrange) : ∀ (node : SourceNode) {path relative : Wide},
    Settled H node relative →
    manifestOf H arrange node path relative = manifestOf H storedOrder node relative relative := by
  intro node
  induction node with
  | file content => exact fun _ => rfl
  | reparse => exact fun _ => rfl
  | directory names child ih =>
    intro path relative hsettled
    rw [manifestOf, manifestOf]
    have hmem := fun name => (sorted_perm (H := H) h path names).mem_iff (a := name)
    calc (sortByKey H.lower id (arrange path names)).flatMap (fun name =>
          manifestOf H arrange (child name) (WinPath.join path name) (WinPath.join relative name))
        = (sortBy (entryKey H.lower) (arrange path names)).flatMap
            (linesOf H storedOrder child relative relative) := by
          refine List.flatMap_congr fun name hname => ?_
          rw [ih name (hsettled.1 name ((hmem name).mp hname)), linesOf]
      _ = (sortBy (entryKey H.lower) names).flatMap (linesOf H storedOrder child relative relative) :=
          Enumeration.written_eq_iff.mpr hsettled.2 _ _ (h path names) (.refl names)

/-- One order for one directory, and the order of the names everywhere else. -/
def orderAt (path : Wide) (names order : List Wide) (p : Wide) (ns : List Wide) : List Wide :=
  if p = path ∧ ns = names then order else ns

theorem orderAt_arranges (path : Wide) {order : List Wide} (h : order.Perm names) :
    Arranges (orderAt path names order) := by
  intro p ns
  unfold orderAt
  split
  · next heq => rwa [heq.2]
  · exact .refl ns

theorem manifestOf_orderAt (hpath : Steady path) (hcopy : Copyable H (.directory names child))
    (order : List Wide) (h : order.Perm names) :
    manifestOf H (orderAt path names order) (.directory names child) path relative
      = (sortBy (entryKey H.lower) order).flatMap (linesOf H storedOrder child relative relative) := by
  rw [manifestOf, orderAt, if_pos ⟨rfl, rfl⟩]
  refine List.flatMap_congr fun name hname => ?_
  have hmem : name ∈ names := h.mem_iff.mp ((sortByKey_perm H.lower id order).mem_iff.mp hname)
  obtain ⟨hok, hchild⟩ := hcopy.2 name hmem
  have hlong := hpath.length_lt hok.unrooted
  rw [linesOf, manifestOf_stored _ _ (WinPath.join path name)]
  refine manifestOf_congr storedOrder_arranges _ (hpath.join hok.unrooted) hchild
    fun p ns hle => if_neg fun heq => ?_
  rw [heq.1] at hle
  omega

/-- A tree with the same lines in every order is settled. -/
theorem settled_of_independent : ∀ (node : SourceNode) (path : Wide) {relative : Wide},
    Steady path → Copyable H node →
    (∀ arrange arrange', Arranges arrange → Arranges arrange' →
      manifestOf H arrange node path relative = manifestOf H arrange' node path relative) →
    Settled H node relative := by
  intro node
  induction node with
  | file content => exact fun _ _ _ _ _ => trivial
  | reparse => exact fun _ _ _ _ _ => trivial
  | directory names child ih =>
    intro path relative hpath hcopy hind
    constructor
    · -- two orders below an entry, with one order at the top: the lines of each entry are as many
      intro name hmem
      obtain ⟨hok, hchild⟩ := hcopy.2 name hmem
      have hlong := hpath.length_lt hok.unrooted
      have hbelow := hpath.join hok.unrooted
      refine ih name (WinPath.join path name) hbelow hchild fun arrange arrange' h h' => ?_
      let mixed : Wide → List Wide → List Wide := fun p ns =>
        if p.length ≤ path.length then arrange p ns else arrange' p ns
      have hmixed : Arranges mixed := by
        intro p ns
        show (if _ then _ else _ : List Wide).Perm ns
        split
        · exact h p ns
        · exact h' p ns
      have hall := hind arrange mixed h hmixed
      have htop : mixed path names = arrange path names := if_pos le_rfl
      rw [manifestOf, manifestOf, htop] at hall
      have hone := Enumeration.eq_of_flatMap_eq
        (fun n _ => (manifestOf_perm h hmixed (child n) _ _ _).length_eq) hall name
        ((sorted_perm h path names).mem_iff.mpr hmem)
      refine hone.trans (manifestOf_congr h' _ hbelow hchild fun p ns hle => if_neg ?_)
      omega
    · refine Enumeration.written_eq_iff.mp fun l₁ l₂ h₁ h₂ => ?_
      have heq := hind _ _ (orderAt_arranges path h₁) (orderAt_arranges path h₂)
      rwa [manifestOf_orderAt hpath hcopy l₁ h₁, manifestOf_orderAt hpath hcopy l₂ h₂] at heq

/-- **When the lines of a tree come in one order.** -/
theorem manifestOf_settled_iff {node : SourceNode} {path : Wide} (hpath : Steady path)
    (hcopy : Copyable H node) :
    (∀ arrange arrange', Arranges arrange → Arranges arrange' →
      manifestOf H arrange node path relative = manifestOf H arrange' node path relative) ↔
    Settled H node relative :=
  ⟨settled_of_independent node path hpath hcopy, fun hsettled _ _ h h' =>
    (manifestOf_settled h node hsettled).trans (manifestOf_settled h' node hsettled).symm⟩

end Ties

/-! ## 3. The migration -/

section Runs

variable (H) (F : Forest) (contents : FileIdentity → SourceNode) (plan : MigrationPlan)

/-- Two migrations that succeed have the same manifest and the same receipt, whatever order the
directories are enumerated in, and whatever else is different between them. -/
def OrderIndependent : Prop :=
  ∀ (fate fate' : Fate) (s s' t t' : RunState) (receipt receipt' : MigrationReceipt), Ordered s →
    Ordered s' → executeMigrationWithCancel fate H F contents plan s = (.ok receipt, t) →
    executeMigrationWithCancel fate' H F contents plan s' = (.ok receipt', t') →
    t.transaction.manifest = t'.transaction.manifest ∧ receipt = receipt'

/-- A validated plan can be carried out: the new target does not lie around the source, something is
selected, and what is selected can be opened and copied. -/
structure Migratable (v : ValidatedMigration) : Prop where
  apart : ∃ identity, validateOpenedRoots v.sourceDirectory (v.targetParent.below identity
    (WinPath.join v.targetParent.displayPath v.targetLeaf)) = .ok ()
  keys : Openable H (contents v.sourceDirectory.handle) (componentNames protectPath)
  some : (selectedRoots plan).isEmpty = false
  roots : RootsOk H (contents v.sourceDirectory.handle) (selectedRoots plan)
  leaf : NameOk v.targetLeaf

/-- The trees under the selected roots are settled. -/
def SelectionSettled (v : ValidatedMigration) : Prop :=
  ∀ root ∈ selectedRoots plan, ∀ node,
    (contents v.sourceDirectory.handle).reach H (componentNames root) = some node →
    Settled H node root

variable {H F contents plan} {v : ValidatedMigration} {arrange arrange' : Wide → List Wide → List Wide}

theorem CanCopy.migratable {fate : Fate} {s : RunState} (h : CanCopy H contents plan fate v s) :
    Migratable H contents plan v :=
  ⟨⟨_, h.apart⟩, h.keys, h.some, h.roots, h.free.nameOk⟩

/-- Names are written behind the path of a selected root. -/
theorem root_steady (hv : validateForExecution H.toMigrationHost F plan = .ok v) {root : Wide}
    (hroot : root ∈ selectedRoots plan) :
    Steady ((componentNames root).foldl WinPath.join v.sourceDirectory.displayPath) := by
  have hadmissible := (validateForExecution_ok hv).1
  obtain ⟨⟨letter, names, hletter, hpath, _⟩, hsource⟩ :=
    (releaseAbsolutePath_ok_iff _ _ _).mp hadmissible.source
  have hopened := hadmissible.opened
  rw [hsource, hpath] at hopened
  refine (openAbsoluteExisting_steady hletter hopened).foldl_join fun name hname => ?_
  exact (nameOk_allRoots root ((selectedRoots_sublist plan).subset hroot) name hname).unrooted

theorem rootLines_perm (h : Arranges arrange) (h' : Arranges arrange') (source : SourceDirectory)
    (root : Wide) : (rootLines H arrange source root).Perm (rootLines H arrange' source root) := by
  unfold rootLines
  split
  · exact .refl _
  · exact manifestOf_perm h h' _ _ _ _

theorem selectedLines_settled (h : Arranges arrange) (h' : Arranges arrange')
    (hsettled : SelectionSettled H contents plan v) :
    selectedLines H contents plan arrange v = selectedLines H contents plan arrange' v := by
  refine List.flatMap_congr fun root hroot => ?_
  unfold rootLines
  split
  · rfl
  · next node hreach =>
    have hnode := hsettled root hroot node hreach
    rw [manifestOf_settled h node hnode, manifestOf_settled h' node hnode]

/-- What can be carried out is carried out, in every order. -/
theorem Migratable.runs (hmigratable : Migratable H contents plan v)
    (hv : validateForExecution H.toMigrationHost F plan = .ok v) (h : Arranges arrange) :
    ∃ fate receipt t, executeMigrationWithCancel fate H F contents plan {} = (.ok receipt, t) ∧
      t.transaction.manifest = selectedLines H contents plan arrange v := by
  obtain ⟨identity, hapart⟩ := hmigratable.apart
  refine ⟨smoothFate arrange h identity, ?_⟩
  have hwp : Act.wp (executeMigrationWithCancel (smoothFate arrange h identity) H F contents plan)
      _ _ {} := execute_spec F ordered_start
  have hcan : CanCopy H contents plan (smoothFate arrange h identity) v {} :=
    ⟨hapart, hmigratable.keys, hmigratable.some, hmigratable.roots, hmigratable.leaf, rfl⟩
  unfold Act.wp at hwp
  rcases hrun : executeMigrationWithCancel (smoothFate arrange h identity) H F contents plan {} with
    ⟨_ | receipt, t⟩
  · rw [hrun] at hwp
    exact absurd hcan (hwp (smoothFate_smooth arrange h identity) v hv)
  · obtain ⟨v', hv', hmigrated, _⟩ := execute_ok ordered_start hrun
    cases hv.symm.trans hv'
    exact ⟨receipt, t, rfl, hmigrated.manifest⟩

/-- **When the receipt does not depend on the order of enumeration**: exactly when, if the plan can be
carried out at all, in every directory that is copied two entries with one key add lines that can
change places. -/
theorem order_independent_iff : OrderIndependent H F contents plan ↔
    ∀ v, validateForExecution H.toMigrationHost F plan = .ok v → Migratable H contents plan v →
      SelectionSettled H contents plan v := by
  constructor
  · intro hind v hv hmigratable root hroot node hreach
    refine (manifestOf_settled_iff (root_steady hv hroot)
      (hmigratable.roots.copyable root hroot node hreach)).mp fun arrange arrange' h h' => ?_
    obtain ⟨fate, receipt, t, hrun, hlines⟩ := hmigratable.runs hv h
    obtain ⟨fate', receipt', t', hrun', hlines'⟩ := hmigratable.runs hv h'
    obtain ⟨hmanifest, _⟩ := hind fate fate' {} {} t t' receipt receipt' ordered_start ordered_start
      hrun hrun'
    rw [hlines, hlines'] at hmanifest
    have hroots := Enumeration.eq_of_flatMap_eq
      (fun r _ => (rootLines_perm h h' (sourceOf contents v) r).length_eq) hmanifest root hroot
    unfold rootLines at hroots
    rw [show (sourceOf contents v).node.reach H (componentNames root) = some node from hreach]
      at hroots
    exact hroots
  · intro hsettled fate fate' s s' t t' receipt receipt' ho ho' hrun hrun'
    obtain ⟨v, hv, hmigrated, hcan⟩ := execute_ok ho hrun
    obtain ⟨v', hv', hmigrated', _⟩ := execute_ok ho' hrun'
    cases hv.symm.trans hv'
    have hlines := selectedLines_settled fate.arrange_perm fate'.arrange_perm
      (hsettled v hv hcan.migratable)
    have hmanifest : t.transaction.manifest = t'.transaction.manifest := by
      rw [hmigrated.manifest, hmigrated'.manifest, hlines]
    exact ⟨hmanifest, by rw [hmigrated.receipt, hmigrated'.receipt, hmanifest]⟩

end Runs

/-! ## 4. Two names with one key -/

/-- `Documents` with `k.txt` and with the same name written with a Kelvin sign. -/
def tiedContents (d : FileIdentity) : SourceNode :=
  if d = sampleSource then
    .directory [encodeWide "Documents"] fun _ =>
      .directory [encodeWide "k.txt", encodeWide "\u212a.txt"] fun name =>
        .file (if name = encodeWide "k.txt" then sampleText else ⟨[], by decide⟩)
  else .directory [] fun _ => .reparse

/-- SHA-256 of the contents that the runs meet. -/
def tiedDigest (bytes : Bytes) : String :=
  if bytes.length < 4 then sampleDigest bytes
  else if bytes[10]? = some 0x6B then
    "6be972d0456bdff270dfe3a9bb93faed7e246ef1b31025ece5f47318d4fceba0"
  else "9f94a2652558d8b8a8197938d5bc48c4bc6a17ec664ca0dbf1b082d71beccfd1"

/-- The Kelvin sign has a lower case, and the file system tells it from the letter. -/
def tiedHost : CopyHost where
  toMigrationHost := { sampleHost with
    lower := fun text =>
      .ofList (text.toList.map fun c => if c = '\u212a' then 'k' else c.toLower) }
  sha256 := tiedDigest
  up := upperUnit
  up_ascii := upperUnit_def

/-- The migration of the two files, enumerated in this order. -/
def tiedCopy (arrange : Wide → List Wide → List Wide) (h : Arranges arrange) :
    Except MigrationError MigrationReceipt × RunState :=
  executeMigrationWithCancel (smoothFate arrange h sampleFresh) tiedHost sampleForest tiedContents
    (sampleMigration "C:\\copy") {}

theorem tiedCopy_run {arrange : Wide → List Wide → List Wide} {h : Arranges arrange}
    {receipt : MigrationReceipt} (hok : (tiedCopy arrange h).1 = .ok receipt) :
    executeMigrationWithCancel (smoothFate arrange h sampleFresh) tiedHost sampleForest tiedContents
      (sampleMigration "C:\\copy") {} = (.ok receipt, (tiedCopy arrange h).2) := by
  unfold tiedCopy at hok ⊢
  rw [← hok]

theorem tied_names_show :
    ¬ OrderIndependent tiedHost sampleForest tiedContents (sampleMigration "C:\\copy") := by
  intro hind
  have hstored : (tiedCopy storedOrder storedOrder_arranges).1 =
      .ok ⟨2, 3, "6be972d0456bdff270dfe3a9bb93faed7e246ef1b31025ece5f47318d4fceba0"⟩ := by
    decide +kernel
  have hreverse : (tiedCopy (fun _ names => names.reverse) fun _ names => names.reverse_perm).1 =
      .ok ⟨2, 3, "9f94a2652558d8b8a8197938d5bc48c4bc6a17ec664ca0dbf1b082d71beccfd1"⟩ := by
    decide +kernel
  have hequal := hind _ _ {} {} _ _ _ _ ordered_start ordered_start (tiedCopy_run hstored)
    (tiedCopy_run hreverse)
  exact absurd (congrArg MigrationReceipt.manifestSha256 hequal.2) (by decide +kernel)

end WinProfile.Migration
