/-
  File:      WinProfile/Migration/Selection.lean
  Subject:   A migration that succeeds leaves the selected roots under the target, and one that fails
             had a reason in the plan, in the source, in the destination or outside.

  * `selection` -- the roots that a plan selects and the source has, each in its parents.
  * `copyRoots_spec` -- the loop over the roots.
  * `CanCopy` -- nothing stands in the way of a plan.
  * `execute_spec` -- the whole run: the target is an image of the selection, the manifest has the
    lines of the roots, and the receipt is that of the manifest.
-/
import WinProfile.Lib.Units
import WinProfile.Migration.Replica

namespace WinProfile.Migration

variable {H : CopyHost} {fate : Fate} {s s' s'' : RunState}

/-! ## 1. Ways in the source -/

/-- What a list of names leads to. -/
def SourceNode.reach (H : CopyHost) : SourceNode → List Wide → Option SourceNode
  | node, [] => some node
  | node, name :: rest => (node.find H name).bind fun next => next.reach H rest

/-- What is met on the way, as far as it goes, is a directory. -/
def Openable (H : CopyHost) : SourceNode → List Wide → Prop
  | _, [] => True
  | node, name :: rest => ∀ next, node.find H name = some next →
      (∃ names child, next = .directory names child) ∧ Openable H next rest

/-- The directories of a list of names, one in the other, around a node. -/
def nest (node : SourceNode) : List Wide → SourceNode
  | [] => node
  | name :: rest => .directory [name] fun _ => nest node rest

section Roots

variable {relative : Wide}

theorem openComponents_spec : ∀ (names : List Wide) {dir : SourceDirectory} {s : RunState},
    Act.wp (openComponents fate H relative dir (names.map .normal))
      (fun found s' => Same s s' ∧ found.map (·.node) = dir.node.reach H names ∧
        (∀ d, found = some d → d.displayPath = names.foldl WinPath.join dir.displayPath ∧
          (names ≠ [] → ∃ ns child, d.node = .directory ns child)) ∧
        Openable H dir.node names)
      (fun _ _ => Smooth fate → (∀ name ∈ names, NameOk name) → ¬ Openable H dir.node names) s := by
  intro names
  induction names with
  | nil =>
    intro dir s
    refine (Act.wp_pure _).mpr ⟨.refl s, rfl, fun d hd => ?_, trivial⟩
    cases hd
    exact ⟨rfl, fun hne => absurd rfl hne⟩
  | cons name rest ih =>
    intro dir s
    rw [List.map_cons, openComponents, Act.wp_bind, Act.wp_attempt]
    refine Act.wp_mono openDirectory_spec (fun next s₁ h₁ => ?_) fun e s₁ h₁ => ?_
    · obtain ⟨_, hfind, hdirectory, hpath, hsame⟩ := h₁
      refine Act.wp_mono ih (fun found s₂ h₂ => ?_) fun _ _ hbad hs hnames hopen => ?_
      · obtain ⟨hsame₂, hfound, hdir, hrest⟩ := h₂
        refine ⟨hsame.trans hsame₂, ?_, fun d hd => ?_, fun met hmet => ?_⟩
        · rw [hfound, SourceNode.reach, hfind]
          rfl
        · obtain ⟨hpath₂, hnode⟩ := hdir d hd
          refine ⟨by rw [hpath₂, hpath]; rfl, fun _ => ?_⟩
          cases rest with
          | nil =>
            rw [hd, SourceNode.reach] at hfound
            obtain ⟨ns, child, hnext⟩ := hdirectory
            exact ⟨ns, child, (Option.some.inj hfound).trans hnext⟩
          | cons _ _ => exact hnode nofun
        · cases hfind.symm.trans hmet
          exact ⟨hdirectory, hrest⟩
      · exact hbad hs (fun n hn => hnames n (List.mem_cons_of_mem _ hn)) (hopen next.node hfind).2
    · obtain ⟨hsame, habsent, hreason⟩ := h₁
      have hopened : Smooth fate → (∀ n ∈ name :: rest, NameOk n) →
          Openable H dir.node (name :: rest) → ∃ path, e = .notFound path := by
        intro hs hnames hopen
        obtain ⟨hnone, hnot⟩ := hreason hs (hnames name List.mem_cons_self)
        cases hfind : dir.node.find H name with
        | none => exact hnot hfind
        | some next =>
          obtain ⟨ns, child, rfl⟩ := (hopen next hfind).1
          exact absurd hfind (hnone ns child)
      split
      · next heq => cases heq
      · next heq =>
        cases heq
        have hnone := habsent ⟨_, rfl⟩
        refine (Act.wp_pure _).mpr ⟨hsame, ?_, nofun, fun met hmet => ?_⟩
        · rw [SourceNode.reach, hnone]
          rfl
        · cases hnone.symm.trans hmet
      · next error hnot heq =>
        cases heq
        refine (Act.wp_fail _).mpr fun hs hnames hopen => ?_
        obtain ⟨path, rfl⟩ := hopened hs hnames hopen
        exact hnot path rfl

/-- The directories of the names have been made in a directory: what is then copied into the last
of them is copied under the first name. -/
structure Ensured (H : CopyHost) (s s' : RunState) (d d' : Option Nat) (name : Wide)
    (rest : List Wide) : Prop where
  ordered : Ordered s'
  exists_ : Exists s' d'
  empty : s'.within d' = []
  copied : ∀ {s'' : RunState} {names names' : List Wide} {child child' : Wide → SourceNode}
    {lines : List (String × Nat × String)}, names'.Perm names →
    child name = nest (.directory names child') rest →
    CopiedInto H s' s'' d' names' child' lines → CopiedInto H s s'' d [name] child lines

/-- One new directory. -/
theorem Created.ensured {d : Option Nat} {name : Wide} (h : Created s s' d name none)
    (ho : Ordered s) (hd : Exists s d) (hfree : Free H s d name) :
    Ensured H s s' d (some s.nextSerial) name [] := by
  refine ⟨h.ordered ho hd, fun p hp => ?_, ?_, fun hperm hchild hinto => ?_⟩
  · cases hp
    rw [h.nextSerial]
    exact Nat.lt_succ_self _
  · rw [h.within_ne fun heq => absurd (hd _ heq) (Nat.lt_irrefl _), ho.within_new]
  · exact .directory ho hd hfree h hchild hperm hinto

theorem ensureComponents_spec : ∀ (rest : List Wide) {name : Wide} {dest : DestDirectory}
    {s : RunState}, Ordered s → Exists s dest.node →
    Act.wp (ensureComponents fate H relative dest ((name :: rest).map .normal))
      (fun made s' => Ensured H s s' dest.node made.node name rest)
      (fun _ _ => Smooth fate → (∀ n ∈ rest, NameOk n) → ¬ Free H s dest.node name) s := by
  intro rest
  induction rest with
  | nil =>
    intro name dest s ho hd
    rw [List.map_cons, ensureComponents, Act.wp_bind, Act.wp_mapErr]
    refine Act.wp_mono openOrCreateDirectory_spec (fun made s₁ h₁ => ?_) fun _ _ hbad hs _ => hbad hs
    obtain ⟨hfree, hmade, hcreated⟩ := h₁
    rw [Act.wp_bind]
    refine Act.wp_mono pushIfCreated_spec (fun _ s₂ h₂ => ?_) fun _ _ hfalse => hfalse.elim
    have hnew := hcreated.same_after h₂
    refine (Act.wp_pure _).mpr ?_
    rw [hmade]
    exact hnew.ensured ho hd hfree
  | cons second rest ih =>
    intro name dest s ho hd
    rw [List.map_cons, ensureComponents, Act.wp_bind, Act.wp_mapErr]
    refine Act.wp_mono openOrCreateDirectory_spec (fun made s₁ h₁ => ?_) fun _ _ hbad hs _ => hbad hs
    obtain ⟨hfree, hmade, hcreated⟩ := h₁
    rw [Act.wp_bind]
    refine Act.wp_mono pushIfCreated_spec (fun _ s₂ h₂ => ?_) fun _ _ hfalse => hfalse.elim
    have hfirst : Ensured H s s₂ dest.node made.1.node name [] := by
      rw [hmade]
      exact (hcreated.same_after h₂).ensured ho hd hfree
    refine Act.wp_mono (ih hfirst.ordered hfirst.exists_) (fun last s₃ h₃ => ?_)
      fun _ _ hbad hs hnames => ?_
    · refine ⟨h₃.ordered, h₃.exists_, h₃.empty, fun hperm hchild hinto => ?_⟩
      have hsecond : CopiedInto H s₂ _ made.1.node [second] (fun _ => nest (.directory _ _) rest) _ :=
        h₃.copied hperm rfl hinto
      exact hfirst.copied (.refl _) hchild hsecond
    · refine absurd ⟨hnames second List.mem_cons_self, ?_⟩
        (hbad hs fun n hn => hnames n (List.mem_cons_of_mem _ hn))
      rw [lookup_eq_none, hfirst.empty]
      exact nofun

/-- The names in a relative path. -/
def componentNames (path : Wide) : List Wide :=
  (WinPath.components path).filterMap fun
    | .normal name => some name
    | _ => none

/-- What a root puts into the target: the first of its names, when it is there. -/
def topNames (H : CopyHost) (source : SourceNode) (root : Wide) : List Wide :=
  match source.reach H (componentNames root) with
  | none => []
  | some _ => (componentNames root).take 1

/-- What stands in the target under the first name of a root. -/
def topChild (H : CopyHost) (source : SourceNode) (roots : List Wide) (name : Wide) : SourceNode :=
  ((roots.find? fun root => (componentNames root).head? = some name).bind fun root =>
    (source.reach H (componentNames root)).map fun node =>
      nest node (componentNames root).tail).getD .reparse

/-- **The selected data**: the roots that the source has, each in its parent directories. -/
def selection (H : CopyHost) (source : SourceNode) (roots : List Wide) : SourceNode :=
  .directory (roots.flatMap (topNames H source)) (topChild H source roots)

/-- The lines of a root. -/
def rootLines (H : CopyHost) (arrange : Wide → List Wide → List Wide) (source : SourceDirectory)
    (root : Wide) : List (String × Nat × String) :=
  match source.node.reach H (componentNames root) with
  | none => []
  | some node =>
    manifestOf H arrange node ((componentNames root).foldl WinPath.join source.displayPath) root

/-- The roots of a plan as the code has them: names that can be created, each under a first name of
its own. -/
structure WellNamed (H : CopyHost) (roots : List Wide) : Prop where
  parts : ∀ root ∈ roots, ∃ name rest, componentNames root = name :: rest ∧
    WinPath.components root = (name :: rest).map .normal
  ok : ∀ root ∈ roots, ∀ n ∈ componentNames root, NameOk n
  distinct : (roots.map fun root => (componentNames root).head?.map H.fold).Nodup

/-- Every root that is there can be copied. -/
structure RootsOk (H : CopyHost) (source : SourceNode) (roots : List Wide) : Prop where
  openable : ∀ root ∈ roots, Openable H source (componentNames root)
  copyable : ∀ root ∈ roots, ∀ node, source.reach H (componentNames root) = some node →
    Copyable H node

theorem componentNames_map {path : Wide} {names : List Wide}
    (h : WinPath.components path = names.map .normal) : componentNames path = names := by
  rw [componentNames, h, List.filterMap_map]
  exact List.filterMap_some

variable {source : SourceDirectory} {target : DestDirectory} {root : Wide} {roots : List Wide}
  {child : Wide → SourceNode}

/-- **One root.** -/
theorem copyRoot_spec {name : Wide} {rest : List Wide} (ho : Ordered s) (hd : Exists s target.node)
    (hroot : WinPath.components root = (name :: rest).map .normal)
    (hchild : ∀ node, source.node.reach H (name :: rest) = some node → child name = nest node rest) :
    Act.wp (copyRoot fate H source target root)
      (fun _ s' => CopiedInto H s s' target.node (topNames H source.node root) child
          (rootLines H fate.arrange source root) ∧
        Openable H source.node (name :: rest))
      (fun _ _ => Smooth fate → (∀ n ∈ name :: rest, NameOk n) →
        Openable H source.node (name :: rest) →
        (∀ node, source.node.reach H (name :: rest) = some node → Copyable H node) →
        (source.node.reach H (name :: rest)).isSome ∧ ¬ Free H s target.node name) s := by
  have hnames : componentNames root = name :: rest := componentNames_map hroot
  unfold copyRoot
  rw [Act.wp_bind]
  refine Act.wp_mono checkCancelled_spec (fun _ s₁ h₁ => ?_) fun _ _ hbad hs => absurd hs hbad
  unfold openRelativeDirectoryIfPresent
  rw [hroot, Act.wp_bind]
  refine Act.wp_mono (openComponents_spec (name :: rest)) (fun found s₂ h₂ => ?_)
    fun _ _ hbad hs hok hopen => absurd hopen (hbad hs hok)
  obtain ⟨hsame, hfound, hdir, hway⟩ := h₂
  have hsame' := h₁.trans hsame
  have ho₂ := hsame'.ordered ho
  have hd₂ : Exists s₂ target.node := (hsame'.grown ho none).exists hd
  rw [topNames, rootLines, hnames, ← hfound]
  cases found with
  | none => exact (Act.wp_pure _).mpr ⟨.nil hsame' ho, hway⟩
  | some dir =>
    obtain ⟨hpath, hnode⟩ := hdir dir rfl
    obtain ⟨ns, child', hns⟩ := hnode nofun
    dsimp only
    unfold ensureRelativeDirectory
    rw [hroot, Act.wp_bind]
    refine Act.wp_mono (ensureComponents_spec rest ho₂ hd₂) (fun made s₃ h₃ => ?_)
      fun _ _ hbad hs hok _ _ => ?_
    · refine Act.wp_mono (copyTreeVerified_spec dir.node hns h₃.ordered h₃.exists_)
        (fun _ s₄ h₄ => ?_) fun _ _ hbad hs _ _ hcopy => ?_
      · rw [hpath] at h₄
        have hplace : child name = nest (.directory ns child') rest :=
          (hchild dir.node hfound.symm).trans (congrArg (nest · rest) hns)
        exact ⟨.before hsame' ho (h₃.copied (listed_perm _ ns) hplace h₄), hway⟩
      · obtain ⟨_, _, o, hin, _⟩ := hbad hs (hcopy dir.node rfl)
        rw [h₃.empty] at hin
        exact absurd hin List.not_mem_nil
    · exact ⟨rfl, fun hfree => hbad hs (fun n hn => hok n (List.mem_cons_of_mem _ hn))
        (hfree.congr hsame')⟩

theorem topChild_eq (hroots : WellNamed H roots) (hmem : root ∈ roots) {name : Wide}
    {rest : List Wide} (hnames : componentNames root = name :: rest) (node : SourceNode)
    (hreach : source.node.reach H (name :: rest) = some node) :
    topChild H source.node roots name = nest node rest := by
  have hfind : roots.find? (fun r => (componentNames r).head? = some name) = some root := by
    refine List.find?_eq_some_iff_append.mpr ⟨by simp [hnames], ?_⟩
    obtain ⟨before, after, hsplit⟩ := List.append_of_mem hmem
    refine ⟨before, after, hsplit, fun r hr => ?_⟩
    have hdistinct := hroots.distinct
    rw [hsplit, List.map_append, List.map_cons, List.nodup_append] at hdistinct
    have hne := hdistinct.2.2 _ (List.mem_map_of_mem hr) _ List.mem_cons_self
    simp only [decide_eq_false_iff_not, Bool.not_eq_true']
    intro heq
    rw [heq, hnames] at hne
    exact hne rfl
  rw [topChild, hfind, Option.bind_some, hnames, hreach]
  rfl

theorem topNames_sublist (source : SourceNode) : ∀ (roots : List Wide), (∀ root ∈ roots,
    ∃ name rest, componentNames root = name :: rest) →
    ((roots.flatMap (topNames H source)).map fun n => some (H.fold n)).Sublist
      (roots.map fun root => (componentNames root).head?.map H.fold)
  | [], _ => .slnil
  | root :: roots, h => by
    have ih := topNames_sublist source roots fun r hr => h r (List.mem_cons_of_mem _ hr)
    obtain ⟨name, rest, hnames⟩ := h root List.mem_cons_self
    rw [List.flatMap_cons, List.map_append, List.map_cons, topNames, hnames]
    cases source.reach H (name :: rest) with
    | none => exact .cons _ ih
    | some _ => exact .cons_cons _ ih

theorem WellNamed.topNames_nodup (h : WellNamed H roots) (source : SourceNode) :
    ((roots.flatMap (topNames H source)).map H.fold).Nodup := by
  have hsub := topNames_sublist (H := H) source roots fun root hroot => by
    obtain ⟨name, rest, hnames, _⟩ := h.parts root hroot
    exact ⟨name, rest, hnames⟩
  refine List.Nodup.of_map some ?_
  rw [List.map_map]
  exact hsub.nodup h.distinct

theorem copyable_of_nest {node : SourceNode} : ∀ (names : List Wide),
    Copyable H (nest node names) → Copyable H node
  | [], h => h
  | name :: names, h => copyable_of_nest names (h.2 name List.mem_cons_self).2

/-- Roots under which everything has been copied can be copied. -/
theorem copyable_roots (hroots : WellNamed H roots)
    (h : ∀ n ∈ roots.flatMap (topNames H source.node), Copyable H (topChild H source.node roots n))
    (root : Wide) (hmem : root ∈ roots) (node : SourceNode)
    (hreach : source.node.reach H (componentNames root) = some node) : Copyable H node := by
  obtain ⟨name, rest, hnames, _⟩ := hroots.parts root hmem
  rw [hnames] at hreach
  have htop : name ∈ roots.flatMap (topNames H source.node) := by
    refine List.mem_flatMap.mpr ⟨root, hmem, ?_⟩
    rw [topNames, hnames, hreach]
    exact List.mem_cons_self
  have hchild := h name htop
  rw [topChild_eq hroots hmem hnames node hreach] at hchild
  exact copyable_of_nest rest hchild

/-- **All roots**: the target gets the selected data. -/
theorem copyRoots_spec (hroots : WellNamed H roots) (ho : Ordered s) (hd : Exists s target.node)
    (hempty : s.within target.node = []) :
    Act.wp (Act.forEach roots (copyRoot fate H source target))
      (fun _ s' => CopiedInto H s s' target.node (roots.flatMap (topNames H source.node))
          (topChild H source.node roots) (roots.flatMap (rootLines H fate.arrange source)) ∧
        RootsOk H source.node roots)
      (fun _ _ => Smooth fate → ¬ RootsOk H source.node roots) s := by
  refine Act.wp_forEach _ (fun done rest t => done ++ rest = roots ∧
    CopiedInto H s t target.node (done.flatMap (topNames H source.node))
      (topChild H source.node roots) (done.flatMap (rootLines H fate.arrange source)) ∧
    ∀ root ∈ done, Openable H source.node (componentNames root))
    roots [] s ⟨rfl, .nil (.refl s) ho, nofun⟩ ?_ ?_
  · intro done root rest t hround
    obtain ⟨hsplit, hdone, hways⟩ := hround
    have hmem : root ∈ roots := hsplit ▸ List.mem_append_right _ List.mem_cons_self
    obtain ⟨name, more, hnames, hroot⟩ := hroots.parts root hmem
    refine Act.wp_mono (copyRoot_spec hdone.grown.ordered (hdone.grown.exists hd) hroot
      (topChild_eq hroots hmem hnames)) (fun _ t' h => ?_) fun _ _ hbad hs hok => ?_
    · obtain ⟨hone, hway⟩ := h
      refine ⟨by rw [← hsplit, List.append_assoc]; rfl, ?_, fun r hr => ?_⟩
      · rw [List.flatMap_append, List.flatMap_append, List.flatMap_singleton,
          List.flatMap_singleton]
        exact hdone.append hone
      · rcases List.mem_append.mp hr with hr | hr
        · exact hways r hr
        · rw [List.mem_singleton.mp hr, hnames]
          exact hway
    · have hopen := hok.openable root hmem
      have hcopy := hok.copyable root hmem
      rw [hnames] at hopen hcopy
      obtain ⟨hthere, hnot⟩ := hbad hs (hnames ▸ hroots.ok root hmem) hopen hcopy
      refine hnot (hdone.free_next (rest.flatMap (topNames H source.node)) ?_ ?_ ?_)
      · exact hroots.ok root hmem name (hnames ▸ List.mem_cons_self)
      · have htop : topNames H source.node root = [name] := by
          obtain ⟨node, hnode⟩ := Option.isSome_iff_exists.mp hthere
          rw [topNames, hnames, hnode]
          rfl
        have hall := hroots.topNames_nodup source.node
        rwa [← hsplit, List.flatMap_append, List.flatMap_cons, htop] at hall
      · intro ⟨_, _, o, hway, _⟩
        rw [hempty] at hway
        exact absurd hway List.not_mem_nil
  · intro done t hround
    obtain ⟨hsplit, hdone, hways⟩ := hround
    rw [List.append_nil] at hsplit
    rw [hsplit] at hdone hways
    exact ⟨hdone, hways, copyable_roots hroots hdone.fit.copyable⟩

end Roots

/-! ## 4. The roots that the code has -/

/-- Every root that a plan can select. -/
def allRoots : List Wide := (APPDATA_ROAMING_REL_PATH :: PERSONAL_FOLDERS).map encodeWide

theorem selectedRoots_sublist (plan : MigrationPlan) : (selectedRoots plan).Sublist allRoots := by
  unfold selectedRoots allRoots
  refine List.Sublist.map _ ?_
  cases plan.includeRoamingAppdata <;> cases plan.includePersonalFolders
  · exact List.nil_sublist _
  · exact List.sublist_cons_self _ _
  · exact (List.nil_sublist _).cons_cons _
  · exact .refl _

/-- Names in ASCII are compared in capitals. -/
theorem fold_ascii {name : Wide} (h : ∀ u ∈ name, u < 0x80) : H.fold name = name.map upperUnit :=
  List.map_congr_left fun u hu => H.up_ascii u (h u hu)

theorem components_allRoots : ∀ root ∈ allRoots, componentNames root ≠ [] ∧
    WinPath.components root = (componentNames root).map .normal := by
  decide +kernel

theorem nameOk_allRoots : ∀ root ∈ allRoots, ∀ n ∈ componentNames root, NameOk n := by
  unfold NameOk
  decide +kernel

theorem ascii_allRoots : ∀ root ∈ allRoots, ∀ n ∈ componentNames root, ∀ u ∈ n, u < 0x80 := by
  have hall : (allRoots.all fun root =>
      (componentNames root).all fun n => n.all (· < 0x80)) = true := by
    decide +kernel
  intro root hroot n hn u hu
  have hnames := List.all_eq_true.mp (List.all_eq_true.mp hall root hroot) n hn
  exact of_decide_eq_true (List.all_eq_true.mp hnames u hu)

theorem heads_allRoots :
    (allRoots.map fun root => (componentNames root).head?.map fun n => n.map upperUnit).Nodup := by
  decide +kernel

theorem wellNamed_selectedRoots (H : CopyHost) (plan : MigrationPlan) :
    WellNamed H (selectedRoots plan) := by
  have hsub := selectedRoots_sublist plan
  refine ⟨fun root hroot => ?_, fun root hroot n hn => ?_, ?_⟩
  · obtain ⟨hne, hcomponents⟩ := components_allRoots root (hsub.subset hroot)
    obtain ⟨name, rest, hnames⟩ := List.exists_cons_of_ne_nil hne
    exact ⟨name, rest, hnames, hnames ▸ hcomponents⟩
  · exact nameOk_allRoots root (hsub.subset hroot) n hn
  · have hfold : (allRoots.map fun root => (componentNames root).head?.map H.fold)
        = allRoots.map fun root => (componentNames root).head?.map fun n => n.map upperUnit := by
      refine List.map_congr_left fun root hroot => ?_
      cases hhead : (componentNames root).head? with
      | none => rfl
      | some n =>
        exact congrArg some (fold_ascii (ascii_allRoots root hroot n (List.mem_of_head? hhead)))
    exact (hsub.map _).nodup (hfold ▸ heads_allRoots)

/-- The directory of the DPAPI keys is a relative path like the roots. -/
theorem components_protectPath :
    WinPath.components protectPath = (componentNames protectPath).map .normal ∧
      ∀ n ∈ componentNames protectPath, NameOk n := by
  unfold NameOk
  decide +kernel

/-! ## 5. The whole run -/

section Run

variable (H) (contents : FileIdentity → SourceNode) (plan : MigrationPlan)

/-- The directory that a validated plan copies from. -/
def sourceOf (v : ValidatedMigration) : SourceDirectory :=
  ⟨contents v.sourceDirectory.handle, v.sourceDirectory.displayPath⟩

/-- The data that the plan selects. -/
def selectedData (v : ValidatedMigration) : SourceNode :=
  selection H (contents v.sourceDirectory.handle) (selectedRoots plan)

/-- The lines of a plan, in the order of the traversal. -/
def selectedLines (arrange : Wide → List Wide → List Wide) (v : ValidatedMigration) :
    List (String × Nat × String) :=
  (selectedRoots plan).flatMap (rootLines H arrange (sourceOf contents v))

/-- What stands in the way of a copy is not in the plan, in the source or in the destination. -/
structure CanCopy (fate : Fate) (v : ValidatedMigration) (s : RunState) : Prop where
  apart : validateOpenedRoots v.sourceDirectory (v.targetParent.below fate.identity
    (WinPath.join v.targetParent.displayPath v.targetLeaf)) = .ok ()
  keys : Openable H (contents v.sourceDirectory.handle) (componentNames protectPath)
  some : (selectedRoots plan).isEmpty = false
  roots : RootsOk H (contents v.sourceDirectory.handle) (selectedRoots plan)
  free : Free H s none v.targetLeaf

variable {H contents plan} {v : ValidatedMigration}

theorem openRelative_spec {path : Wide} {dir : SourceDirectory} (hne : componentNames path ≠ [])
    (hpath : WinPath.components path = (componentNames path).map .normal) :
    Act.wp (openRelativeDirectoryIfPresent fate H dir path)
      (fun found s' => Same s s' ∧ found.map (·.node) = dir.node.reach H (componentNames path) ∧
        (∀ d, found = some d →
          d.displayPath = (componentNames path).foldl WinPath.join dir.displayPath ∧
          (componentNames path ≠ [] → ∃ ns child, d.node = .directory ns child)) ∧
        Openable H dir.node (componentNames path))
      (fun _ _ => Smooth fate → (∀ name ∈ componentNames path, NameOk name) →
        ¬ Openable H dir.node (componentNames path)) s := by
  obtain ⟨name, rest, hnames⟩ := List.exists_cons_of_ne_nil hne
  unfold openRelativeDirectoryIfPresent
  rw [hpath, hnames]
  exact openComponents_spec (name :: rest)

/-- From the first root to the end. -/
theorem copyAndLog_spec (source : SourceDirectory) {target : DestDirectory} (ho : Ordered s)
    (hd : Exists s target.node) (hempty : s.within target.node = []) :
    Act.wp (do
      Act.forEach (selectedRoots plan) (copyRoot fate H source target)
      checkCancelled fate
      let s ← Act.read
      let receipt := s.transaction.receipt H
      checkCancelled fate
      report fun _ =>
        { phase := .finalizing
          relativePath := none
          completedFiles := receipt.copiedFiles
          copiedBytes := receipt.copiedBytes }
      checkCancelled fate
      log fate "MigrationSuccess" plan.sourceSid .success
        (s!"Verified {receipt.copiedFiles} files ({receipt.copiedBytes} bytes); manifest SHA-256 " ++
          receipt.manifestSha256)
      pure receipt)
      (fun receipt s' => CopiedInto H s s' target.node
          ((selectedRoots plan).flatMap (topNames H source.node))
          (topChild H source.node (selectedRoots plan))
          ((selectedRoots plan).flatMap (rootLines H fate.arrange source)) ∧
        receipt = receiptOf H s'.transaction.manifest ∧
        RootsOk H source.node (selectedRoots plan))
      (fun _ _ => Smooth fate → ¬ RootsOk H source.node (selectedRoots plan)) s := by
  have hexcuse : ∀ {P : Prop}, ¬ Smooth fate → Smooth fate → P := fun hbad hs => absurd hs hbad
  rw [Act.wp_bind]
  refine Act.wp_mono (copyRoots_spec (wellNamed_selectedRoots H plan) ho hd hempty)
    (fun _ s₁ h₁ => ?_) fun _ _ hbad => hbad
  obtain ⟨hcopied, hroots⟩ := h₁
  rw [Act.wp_bind]
  refine Act.wp_mono checkCancelled_spec (fun _ s₂ h₂ => ?_) fun _ _ hbad => hexcuse hbad
  rw [Act.wp_bind, Act.wp_read]
  dsimp only
  rw [Act.wp_bind]
  refine Act.wp_mono checkCancelled_spec (fun _ s₃ h₃ => ?_) fun _ _ hbad => hexcuse hbad
  rw [Act.wp_bind, report, Act.wp_update, Act.wp_bind]
  refine Act.wp_mono checkCancelled_spec (fun _ s₄ h₄ => ?_) fun _ _ hbad => hexcuse hbad
  rw [Act.wp_bind]
  refine Act.wp_mono log_spec (fun _ s₅ h₅ => ?_) fun _ _ hbad => hexcuse hbad
  have hend : Same s₃ s₅ := ⟨h₅.objects.trans h₄.objects, h₅.nextSerial.trans h₄.nextSerial,
    h₅.manifest.trans h₄.manifest⟩
  refine (Act.wp_pure _).mpr ⟨hcopied.after ((h₂.trans h₃).trans hend), ?_, hroots⟩
  rw [(h₃.trans hend).manifest]
  rfl

/-- **The closure**: the target is the selected data, the receipt that of its lines. -/
theorem operation_spec (ho : Ordered s) :
    Act.wp (operation fate H contents plan v)
      (fun receipt s' =>
        CopiedInto H s s' none [v.targetLeaf] (fun _ => selectedData H contents plan v)
          (selectedLines H contents plan fate.arrange v) ∧
        receipt = receiptOf H s'.transaction.manifest ∧ CanCopy H contents plan fate v s)
      (fun _ _ => Smooth fate → ¬ CanCopy H contents plan fate v s) s := by
  have hexcuse : ∀ {P : Prop}, ¬ Smooth fate → Smooth fate → P := fun hbad hs => absurd hs hbad
  have hd : Exists s none := nofun
  unfold operation
  rw [Act.wp_bind, Act.wp_mapErr]
  refine Act.wp_mono createDirectory_spec (fun made s₁ h₁ => ?_)
    fun _ _ hbad hs hcan => hbad hs hcan.free
  obtain ⟨hfree, hmade, hcreated⟩ := h₁
  rw [hmade, Act.wp_bind, pushCreated, setTransaction, Act.wp_update]
  dsimp only
  rw [Act.wp_bind, Act.wp_ofExcept]
  split
  · next _ hapart =>
    have hlisted : Same s₁ { s₁ with
        transaction := { s₁.transaction with
          createdEntries := made.2 :: s₁.transaction.createdEntries } } := ⟨rfl, rfl, rfl⟩
    have hnew : Created s _ none v.targetLeaf none := hcreated.same_after hlisted
    have hmadeIn : Ensured H s _ none (some s.nextSerial) v.targetLeaf [] :=
      hnew.ensured ho hd hfree
    rw [Act.wp_bind]
    refine Act.wp_mono (openRelative_spec (by decide +kernel) components_protectPath.1)
      (fun keys s₂ hopened => ?_) fun _ _ hbad hs hcan =>
        hbad hs components_protectPath.2 hcan.keys
    obtain ⟨h₂, _, _, hkeys⟩ := hopened
    have hwarn : Act.wp (Act.when keys.isSome (log fate "MigrationWarning" plan.sourceSid .warning
        "DPAPI material detected; SID-bound secrets are copied but may not decrypt under the destination account."))
        (fun _ s' => Same s₂ s') (fun _ _ => ¬ Smooth fate) s₂ := by
      rw [Act.wp_when]
      split
      · exact log_spec
      · exact .refl s₂
    rw [Act.wp_bind]
    refine Act.wp_mono hwarn (fun _ s₃ h₃ => ?_) fun _ _ hbad => hexcuse hbad
    rw [Act.wp_bind, Act.wp_guard]
    split
    · next hsome =>
      rw [Act.wp_bind, report, Act.wp_update]
      have htold : Same s₃ { s₃.happened (.reported
          { phase := .enumerating, relativePath := none, completedFiles := 0, copiedBytes := 0 }) with
          progress := s₃.progress ++
            [{ phase := .enumerating, relativePath := none, completedFiles := 0, copiedBytes := 0 }] } :=
        ⟨rfl, rfl, rfl⟩
      have hbefore := (h₂.trans h₃).trans htold
      have hbelow := (hbefore.grown hmadeIn.ordered none).exists hmadeIn.exists_
      have hempty := (hbefore.within (some s.nextSerial)).trans hmadeIn.empty
      refine Act.wp_mono (copyAndLog_spec (sourceOf contents v)
        (hbefore.ordered hmadeIn.ordered) hbelow hempty) (fun receipt s₅ h₅ => ?_)
        fun _ _ hbad hs hcan => hbad hs hcan.roots
      obtain ⟨hcopied, hreceipt, hroots⟩ := h₅
      exact ⟨hmadeIn.copied (.refl _) rfl (.before hbefore hmadeIn.ordered hcopied), hreceipt,
        hapart, hkeys, by simpa using hsome, hroots, hfree⟩
    · next hnone =>
      intro _ hcan
      rw [hcan.some] at hnone
      exact hnone rfl
  · next error hbad =>
    intro _ hcan
    rw [hcan.apart] at hbad
    cases hbad

/-- After an error of the closure there is no receipt. -/
theorem afterError_fails (error : MigrationError) {P : MigrationError → RunState → Prop}
    (hP : ∀ e s', P e s') :
    Act.wp (afterError fate plan error) (fun _ _ => False) P s := by
  have hany : ∀ {α : Type} {m : MigrationM α} {t : RunState},
      Act.wp m (fun _ _ => True) (fun _ _ => True) t := Act.wp_skip fun _ _ => trivial
  unfold afterError
  rw [Act.wp_bind, report, Act.wp_update, Act.wp_bind]
  refine Act.wp_attempt_of (R := fun _ => True) (Act.wp_skip fun _ _ => trivial) fun r t _ => ?_
  cases r with
  | ok _ =>
    rw [Act.wp_bind]
    refine Act.wp_mono hany (fun _ _ _ => ?_) fun e s' _ => hP e s'
    exact (Act.wp_fail _).mpr (hP _ _)
  | error _ =>
    dsimp only
    rw [Act.wp_bind]
    refine Act.wp_attempt_of (R := fun _ => True) hany fun r t _ => ?_
    cases r with
    | ok _ => exact (Act.wp_fail _).mpr (hP _ _)
    | error _ => exact (Act.wp_fail _).mpr (hP _ _)

/-- What a migration has done that succeeded. -/
structure Migrated (H : CopyHost) (fate : Fate) (contents : FileIdentity → SourceNode)
    (plan : MigrationPlan) (v : ValidatedMigration) (s s' : RunState) (receipt : MigrationReceipt) :
    Prop where
  target : ∃ target, s'.within none = s.within none ++ [target] ∧ target.name = v.targetLeaf ∧
    target ∈ s'.objects ∧ Image H s' (selectedData H contents plan v) target
  manifest : s'.transaction.manifest = selectedLines H contents plan fate.arrange v
  receipt : receipt = receiptOf H s'.transaction.manifest

/-- **The whole run.** -/
theorem execute_spec (F : Forest) (ho : Ordered s) :
    Act.wp (executeMigrationWithCancel fate H F contents plan)
      (fun receipt s' => ∃ v, validateForExecution H.toMigrationHost F plan = .ok v ∧
        Migrated H fate contents plan v s s' receipt ∧ CanCopy H contents plan fate v s)
      (fun _ _ => Smooth fate → ∀ v, validateForExecution H.toMigrationHost F plan = .ok v →
        ¬ CanCopy H contents plan fate v s) s := by
  have hexcuse : ∀ {P : Prop}, ¬ Smooth fate → Smooth fate → P := fun hbad hs => absurd hs hbad
  rw [executeMigrationWithCancel, Act.wp_bind]
  have hguard : Act.wp (acquireOperationGuard fate) (fun _ s' => s = s')
      (fun _ _ => ¬ Smooth fate) s := by
    unfold acquireOperationGuard
    cases hg : fate.guard with
    | none => exact (Act.wp_ret ()).mpr rfl
    | some text =>
      refine (Act.wp_fail _).mpr fun hs => ?_
      rw [hs.guard] at hg
      cases hg
  refine Act.wp_mono hguard (fun _ s' hs => ?_) fun _ _ hbad => hexcuse hbad
  subst hs
  rw [Act.wp_bind, Act.wp_ofExcept]
  cases hv : validateForExecution H.toMigrationHost F plan with
  | error error => exact fun _ _ => nofun
  | ok v =>
    dsimp only
    rw [Act.wp_bind]
    refine Act.wp_mono log_spec (fun _ s₁ h₁ => ?_) fun _ _ hbad => hexcuse hbad
    rw [Act.wp_bind, setTransaction, Act.wp_update, Act.wp_rescue]
    have ho₁ := h₁.ordered ho
    refine Act.wp_mono (operation_spec (s := { s₁ with transaction := {} })
      ⟨ho₁.sorted, ho₁.below, ho₁.parents⟩) (fun receipt s₂ h₂ => ?_) fun error s₂ hbad => ?_
    · obtain ⟨hcopied, hreceipt, hcan⟩ := h₂
      obtain ⟨made, hwithin, hnames, himages⟩ := hcopied.made
      obtain ⟨target, rfl⟩ : ∃ target, made = [target] :=
        List.length_eq_one_iff.mp (by rw [← List.length_map (f := (·.name)), hnames]; rfl)
      have hmem : target ∈ s₂.within none := by
        rw [hwithin]
        exact List.mem_append_right _ List.mem_cons_self
      refine ⟨v, rfl, ⟨⟨target, ?_, List.cons.inj hnames |>.1, (List.mem_filter.mp hmem).1,
        himages target List.mem_cons_self⟩, hcopied.manifest, hreceipt⟩, hcan.apart, hcan.keys,
        hcan.some, hcan.roots, hcan.free.nameOk, (h₁.lookup none _).symm.trans hcan.free.absent⟩
      rw [hwithin]
      exact congrArg (· ++ [target]) (h₁.within none)
    · refine Act.wp_mono (afterError_fails error (P := fun _ _ => Smooth fate → ∀ v',
        Except.ok v = .ok v' → ¬ CanCopy H contents plan fate v' s) fun _ _ hs v' heq hcan => ?_)
        (fun _ _ hfalse => hfalse.elim) fun _ _ h => h
      cases heq
      exact hbad hs ⟨hcan.apart, hcan.keys, hcan.some, hcan.roots,
        ⟨hcan.free.nameOk, (h₁.lookup none _).trans hcan.free.absent⟩⟩

/-- What is known of a run that succeeded. -/
theorem execute_ok {F : Forest} {receipt : MigrationReceipt} (ho : Ordered s)
    (hrun : executeMigrationWithCancel fate H F contents plan s = (.ok receipt, s')) :
    ∃ v, validateForExecution H.toMigrationHost F plan = .ok v ∧
      Migrated H fate contents plan v s s' receipt ∧ CanCopy H contents plan fate v s := by
  have hwp : Act.wp (executeMigrationWithCancel fate H F contents plan) _ _ s := execute_spec F ho
  unfold Act.wp at hwp
  rwa [hrun] at hwp

end Run

end WinProfile.Migration
