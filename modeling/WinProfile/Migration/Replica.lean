/-
  File:      WinProfile/Migration/Replica.lean
  Subject:   What the copy of a file or of a tree leaves in a directory of the destination.

  * `Grown` -- what a copy into a directory does to the rest: nothing.
  * `CopiedInto` -- the entries that a copy has put into a directory, as images of the source, and
    the lines it has put into the manifest.
  * `copyFileVerified_spec`, `copyTreeVerified_spec` -- one file, one tree; a copy that fails had a
    reason outside or in the tree.
-/
import WinProfile.Migration.Manifest

namespace WinProfile.Migration

variable {H : CopyHost} {fate : Fate} {s s' s'' : RunState}

/-! ## 1. What a copy leaves alone -/

/-- The directory is the parent of the target, or exists. -/
def Exists (s : RunState) (d : Option Nat) : Prop := ∀ p, d = some p → p < s.nextSerial

/-- New objects only, and these in the directory or in new directories. -/
structure Grown (s s' : RunState) (d : Option Nat) : Prop where
  objects : ∃ new, s'.objects = s.objects ++ new ∧ ∀ o ∈ new, s.nextSerial ≤ o.serial ∧
    (o.parent = d ∨ ∃ p, o.parent = some p ∧ s.nextSerial ≤ p)
  nextSerial : s.nextSerial ≤ s'.nextSerial
  ordered : Ordered s'

section Frames

variable {d d' : Option Nat} {name : Wide} {content : Option Bytes}

theorem Same.grown (h : Same s s') (ho : Ordered s) (d : Option Nat) : Grown s s' d :=
  ⟨⟨[], by rw [h.objects, List.append_nil], nofun⟩, h.nextSerial.ge, h.ordered ho⟩

theorem Grown.trans_of (h : Grown s s' d) (h' : Grown s' s'' d')
    (hd : d' = d ∨ ∃ p, d' = some p ∧ s.nextSerial ≤ p) : Grown s s'' d := by
  obtain ⟨new, hobjects, hnew⟩ := h.objects
  obtain ⟨new', hobjects', hnew'⟩ := h'.objects
  refine ⟨⟨new ++ new', ?_, fun o ho => ?_⟩, h.nextSerial.trans h'.nextSerial, h'.ordered⟩
  · rw [hobjects', hobjects, List.append_assoc]
  · rcases List.mem_append.mp ho with ho | ho
    · exact hnew o ho
    · obtain ⟨hserial, hparent⟩ := hnew' o ho
      refine ⟨h.nextSerial.trans hserial, ?_⟩
      rcases hparent with hparent | ⟨p, hparent, hp⟩
      · rw [hparent]
        exact hd
      · exact .inr ⟨p, hparent, h.nextSerial.trans hp⟩

theorem Grown.trans (h : Grown s s' d) (h' : Grown s' s'' d) : Grown s s'' d :=
  h.trans_of h' (.inl rfl)

theorem Created.grown (h : Created s s' d name content) (ho : Ordered s) (hd : Exists s d) :
    Grown s s' d := by
  refine ⟨⟨_, h.objects, fun o hmem => ?_⟩, h.nextSerial ▸ Nat.le_succ _, h.ordered ho hd⟩
  rw [List.mem_singleton.mp hmem]
  exact ⟨le_rfl, .inl rfl⟩

theorem Grown.exists (h : Grown s s' d) (he : Exists s d') : Exists s' d' :=
  fun p hp => (he p hp).trans_le h.nextSerial

/-- Another directory has the entries it had. -/
theorem Grown.within_of_ne (h : Grown s s' d) {p : Option Nat} (hne : p ≠ d) (he : Exists s p) :
    s'.within p = s.within p := by
  obtain ⟨new, hobjects, hnew⟩ := h.objects
  rw [RunState.within, RunState.within, hobjects, List.filter_append]
  have hnone : new.filter (fun o => o.parent = p) = [] := by
    refine List.filter_eq_nil_iff.mpr fun o ho => ?_
    simp only [decide_eq_true_eq]
    intro hp
    rcases (hnew o ho).2 with hd | ⟨q, hq, hle⟩
    · exact hne (hp.symm.trans hd)
    · exact absurd (he q (hp.symm.trans hq)) (Nat.not_lt.mpr hle)
  rw [hnone, List.append_nil]

/-- An image that does not lie around the directory stays one. -/
theorem Grown.image (h : Grown s s' d) (hs : Ordered s) : ∀ {node : SourceNode} {o : DestObject},
    o ∈ s.objects → (∀ q, d = some q → q < o.serial) → Image H s node o → Image H s' node o := by
  intro node
  induction node with
  | file content => exact fun _ _ himage => himage
  | reparse => exact fun _ _ himage => himage
  | directory names child ih =>
    intro o ho hd himage
    obtain ⟨hcontent, hnames, hchildren⟩ := himage
    have hwithin : s'.within (some o.serial) = s.within (some o.serial) := by
      refine h.within_of_ne (fun heq => ?_) fun p hp => ?_
      · exact absurd (hd o.serial heq.symm) (Nat.lt_irrefl _)
      · cases hp
        exact hs.below o ho
    refine ⟨hcontent, by rwa [hwithin], fun o' ho' => ?_⟩
    rw [hwithin] at ho'
    obtain ⟨hmem, hparent⟩ := List.mem_filter.mp ho'
    have hlt : o.serial < o'.serial := hs.parents o' hmem _ (of_decide_eq_true hparent)
    exact ih o'.name hmem (fun q hq => (hd q hq).trans hlt) (hchildren o' ho')

end Frames

/-! ## 2. What a copy puts into a directory -/

/-- The names can be created in the directory, and what they stand for can be copied. -/
structure Fit (H : CopyHost) (s : RunState) (d : Option Nat) (names : List Wide)
    (child : Wide → SourceNode) : Prop where
  free : ∀ n ∈ names, Free H s d n
  distinct : (names.map H.fold).Nodup
  copyable : ∀ n ∈ names, Copyable H (child n)

/-- The named entries have been put into the directory, each the image of its child. -/
structure CopiedInto (H : CopyHost) (s s' : RunState) (d : Option Nat) (names : List Wide)
    (child : Wide → SourceNode) (lines : List (String × Nat × String)) : Prop where
  grown : Grown s s' d
  made : ∃ made, s'.within d = s.within d ++ made ∧ made.map (·.name) = names ∧
    ∀ o ∈ made, Image H s' (child o.name) o
  manifest : s'.transaction.manifest = s.transaction.manifest ++ lines
  fit : Fit H s d names child

section Copies

variable {d : Option Nat} {name : Wide} {names names' : List Wide} {child : Wide → SourceNode}
  {lines lines' : List (String × Nat × String)}

theorem Fit.single (hfree : Free H s d name) (hcopy : Copyable H (child name)) :
    Fit H s d [name] child := by
  refine ⟨fun n hn => ?_, List.nodup_singleton _, fun n hn => ?_⟩
  · rwa [List.mem_singleton.mp hn]
  · rwa [List.mem_singleton.mp hn]

/-- They make a directory that can be copied. -/
theorem Fit.directory (h : Fit H s d names' child) (hperm : names'.Perm names) :
    Copyable H (.directory names child) := by
  refine ⟨(hperm.map H.fold).nodup_iff.mp h.distinct, fun n hn => ?_⟩
  have hn' := hperm.mem_iff.mpr hn
  exact ⟨(h.free n hn').nameOk, h.copyable n hn'⟩

/-- More names, once the first have been created. -/
theorem Fit.append {made : List DestObject} (h : Fit H s d names child)
    (hwithin : s'.within d = s.within d ++ made) (hnames : made.map (·.name) = names)
    (h' : Fit H s' d names' child) : Fit H s d (names ++ names') child := by
  have habsent : ∀ n ∈ names', ∀ o ∈ s.within d ++ made, H.fold o.name ≠ H.fold n := by
    intro n hn
    rw [← hwithin]
    exact lookup_eq_none.mp (h'.free n hn).absent
  refine ⟨fun n hn => ?_, ?_, fun n hn => ?_⟩
  · rcases List.mem_append.mp hn with hn | hn
    · exact h.free n hn
    · exact ⟨(h'.free n hn).nameOk,
        lookup_eq_none.mpr fun o ho => habsent n hn o (List.mem_append_left _ ho)⟩
  · rw [List.map_append, List.nodup_append]
    refine ⟨h.distinct, h'.distinct, fun a ha b hb => ?_⟩
    obtain ⟨m, hm, rfl⟩ := List.mem_map.mp ha
    obtain ⟨n, hn, rfl⟩ := List.mem_map.mp hb
    obtain ⟨o, ho, rfl⟩ := List.mem_map.mp (hnames ▸ hm)
    exact habsent n hn o (List.mem_append_right _ ho)
  · rcases List.mem_append.mp hn with hn | hn
    · exact h.copyable n hn
    · exact h'.copyable n hn

theorem CopiedInto.nil (h : Same s s') (ho : Ordered s) : CopiedInto H s s' d [] child [] :=
  ⟨h.grown ho d, ⟨[], by rw [h.within, List.append_nil], rfl, nofun⟩,
    by rw [h.manifest, List.append_nil], ⟨nofun, List.nodup_nil, nofun⟩⟩

theorem CopiedInto.append (h : CopiedInto H s s' d names child lines)
    (h' : CopiedInto H s' s'' d names' child lines') :
    CopiedInto H s s'' d (names ++ names') child (lines ++ lines') := by
  obtain ⟨made, hwithin, hnames, himages⟩ := h.made
  obtain ⟨made', hwithin', hnames', himages'⟩ := h'.made
  refine ⟨h.grown.trans h'.grown, ⟨made ++ made', ?_, ?_, fun o ho => ?_⟩, ?_,
    h.fit.append hwithin hnames h'.fit⟩
  · rw [hwithin', hwithin, List.append_assoc]
  · rw [List.map_append, hnames, hnames']
  · rcases List.mem_append.mp ho with ho | ho
    · have hin : o ∈ s'.within d := by
        rw [hwithin]
        exact List.mem_append_right _ ho
      obtain ⟨hmem, hparent⟩ := List.mem_filter.mp hin
      refine h'.grown.image h.grown.ordered hmem (fun q hq => ?_) (himages o ho)
      exact h.grown.ordered.parents o hmem q ((of_decide_eq_true hparent).trans hq)
    · exact himages' o ho
  · rw [h'.manifest, h.manifest, List.append_assoc]

theorem CopiedInto.before (h : Same s s') (ho : Ordered s)
    (h' : CopiedInto H s' s'' d names child lines) : CopiedInto H s s'' d names child lines :=
  (CopiedInto.nil h ho).append h'

theorem CopiedInto.after (h : CopiedInto H s s' d names child lines) (h' : Same s' s'') :
    CopiedInto H s s'' d names child lines := by
  have hnil : CopiedInto H s' s'' d [] child [] := .nil h' h.grown.ordered
  have hboth := h.append hnil
  rwa [List.append_nil, List.append_nil] at hboth

/-- **A directory**: it is created, and its entries are put into it. -/
theorem CopiedInto.directory (ho : Ordered s) (hd : Exists s d) (hfree : Free H s d name)
    (hmade : Created s s' d name none) {names' : List Wide} {child' : Wide → SourceNode}
    (hchild : child name = .directory names child') (hperm : names'.Perm names)
    (h : CopiedInto H s' s'' (some s.nextSerial) names' child' lines) :
    CopiedInto H s s'' d [name] child lines := by
  have ho' : Ordered s' := hmade.ordered ho hd
  have hnew : (⟨s.nextSerial, d, name, none⟩ : DestObject) ∈ s'.objects := by
    rw [hmade.objects]
    exact List.mem_append_right _ List.mem_cons_self
  have hne : d ≠ some s.nextSerial := fun heq => absurd (hd _ heq) (Nat.lt_irrefl _)
  have hempty : s'.within (some s.nextSerial) = [] := by
    rw [hmade.within_ne hne, ho.within_new]
  obtain ⟨made, hwithin, hnames, himages⟩ := h.made
  rw [hempty, List.nil_append] at hwithin
  refine ⟨(hmade.grown ho hd).trans_of h.grown (.inr ⟨_, rfl, le_rfl⟩),
    ⟨[⟨s.nextSerial, d, name, none⟩], ?_, rfl, fun o hmem => ?_⟩, ?_, .single hfree ?_⟩
  · have hold : Exists s' d := (hmade.grown ho hd).exists hd
    rw [h.grown.within_of_ne hne hold, hmade.within]
  · rw [List.mem_singleton.mp hmem]
    show Image H s'' (child name) _
    rw [hchild]
    refine ⟨rfl, ?_, fun o' ho' => ?_⟩
    · rw [hwithin, hnames]
      exact hperm
    · rw [hwithin] at ho'
      exact himages o' ho'
  · rw [h.manifest, hmade.manifest]
  · rw [hchild]
    exact h.fit.directory hperm

/-- A file that is there in the end with the length and the digest of its original. -/
theorem CopiedInto.file (ho : Ordered s) (hd : Exists s d) (hfree : Free H s d name)
    {content : FileContent} {bytes : Bytes}
    (hchild : child name = .file content) (hlength : bytes.length = content.bytes.length)
    (hdigest : H.sha256 bytes = H.sha256 content.bytes)
    (hobjects : s'.objects = s.objects ++ [⟨s.nextSerial, d, name, some bytes⟩])
    (hserial : s'.nextSerial = s.nextSerial + 1)
    (hmanifest : s'.transaction.manifest = s.transaction.manifest ++ lines) :
    CopiedInto H s s' d [name] child lines := by
  let t : RunState := { s' with transaction := { s'.transaction with
    manifest := s.transaction.manifest } }
  have hmade : Created s t d name (some bytes) := ⟨hobjects, hserial, rfl⟩
  have hgrown := hmade.grown ho hd
  refine ⟨⟨hgrown.objects, hgrown.nextSerial, ⟨hgrown.ordered.sorted, hgrown.ordered.below,
    hgrown.ordered.parents⟩⟩, ⟨_, hmade.within, rfl, fun o hmem => ?_⟩, hmanifest,
    .single hfree ?_⟩
  · rw [List.mem_singleton.mp hmem]
    show Image H s' (child name) _
    rw [hchild]
    exact ⟨bytes, rfl, hlength, hdigest⟩
  · rw [hchild]
    exact trivial

end Copies

/-! ## 3. Opening in the source -/

section Sources

variable {dir : SourceDirectory} {name : Wide}

theorem find_of_mem {names : List Wide} {child : Wide → SourceNode} (h : name ∈ names) :
    (SourceNode.directory names child).find H name = some (child name) := if_pos h

theorem openFile_spec :
    Act.wp (dir.openFile H fate name)
      (fun content s' => NameOk name ∧ dir.node.find H name = some (.file content) ∧ Same s s')
      (fun _ _ => Smooth fate → NameOk name → ∀ content,
        dir.node.find H name ≠ some (.file content)) s := by
  unfold SourceDirectory.openFile
  rw [Act.wp_bind]
  refine wp_childDisplayPath (fun _ hbad _ hok => absurd hok hbad) ?_
  rw [Act.wp_bind]
  refine wp_checkRelativeName (fun _ hbad _ hok => absurd hok hbad) fun hname => ?_
  refine wp_call_of (fun _ _ hbad hs => absurd hs hbad) ?_
  rw [Act.wp_ofExcept]
  rcases hfind : dir.node.find H name with _ | node
  · exact fun _ _ => nofun
  · cases node with
    | file content => exact ⟨hname, rfl, .tick s⟩
    | directory names child => exact fun _ _ => nofun
    | reparse => exact fun _ _ => nofun

/-- A directory is opened, or there is none under the name. -/
theorem openDirectory_spec :
    Act.wp (dir.openDirectory H fate name)
      (fun next s' => NameOk name ∧ dir.node.find H name = some next.node ∧
        (∃ names child, next.node = .directory names child) ∧
        next.displayPath = WinPath.join dir.displayPath name ∧ Same s s')
      (fun e s' => Same s s' ∧ ((∃ path, e = .notFound path) → dir.node.find H name = none) ∧
        (Smooth fate → NameOk name →
          (∀ names child, dir.node.find H name ≠ some (.directory names child)) ∧
          (dir.node.find H name = none → ∃ path, e = .notFound path))) s := by
  unfold SourceDirectory.openDirectory
  rw [Act.wp_bind]
  refine wp_childDisplayPath (fun _ hbad => ⟨.refl s, nofun, fun _ hok => absurd hok hbad⟩) ?_
  rw [Act.wp_bind]
  refine wp_checkRelativeName (fun _ hbad => ⟨.refl s, nofun, fun _ hok => absurd hok hbad⟩)
    fun hname => ?_
  rw [wp_call]
  cases hf : fate.faults s.clock with
  | some f =>
    refine ⟨.tick s, fun ⟨path, he⟩ => absurd he (f.real path), fun hs => ?_⟩
    rw [hs.faults] at hf
    cases hf
  | none =>
    simp only
    rw [Act.wp_ofExcept]
    rcases hfind : dir.node.find H name with _ | node
    · exact ⟨.tick s, fun _ => rfl, fun _ _ => ⟨nofun, fun _ => ⟨_, rfl⟩⟩⟩
    · cases node with
      | file content => exact ⟨.tick s, nofun, fun _ _ => ⟨nofun, nofun⟩⟩
      | directory names child => exact ⟨hname, rfl, ⟨names, child, rfl⟩, rfl, .tick s⟩
      | reparse => exact ⟨.tick s, nofun, fun _ _ => ⟨nofun, nofun⟩⟩

end Sources

/-! ## 4. One file -/

section OneFile

variable {d : Option Nat} {name relative : Wide} {bytes : Bytes}

/-- What the new file holds. -/
theorem Created.stored (h : Created s s' d name (some bytes)) (ho : Ordered s) :
    s'.stored s.nextSerial = bytes := by
  have hnone : s.objects.find? (fun o => o.serial = s.nextSerial) = none := by
    refine List.find?_eq_none.mpr fun o hmem => ?_
    simpa using (ho.below o hmem).ne
  rw [RunState.stored, h.objects, List.find?_append, hnone]
  simp

/-- A chunk that is appended to the new file. -/
theorem Created.appended (h : Created s s' d name (some bytes)) (ho : Ordered s) (chunk : Bytes) :
    Created s (s'.append s.nextSerial chunk) d name (some (bytes ++ chunk)) := by
  refine ⟨?_, h.nextSerial, h.manifest⟩
  have hold : s.objects.map (fun o => if o.serial = s.nextSerial then
      { o with content := o.content.map (· ++ chunk) } else o) = s.objects := by
    refine (List.map_congr_left fun o hmem => ?_).trans (List.map_id s.objects)
    rw [if_neg (ho.below o hmem).ne]
    rfl
  rw [RunState.append, h.objects, List.map_append, hold]
  simp

/-- A chunk is written as the medium stores it. -/
theorem writeAll_created (ho : Ordered s) (h : Created s s' d name (some bytes)) (chunk : Bytes) :
    Act.wp (writeAll fate s.nextSerial chunk)
      (fun _ t => ∃ stored, Created s t d name (some (bytes ++ stored)) ∧
        (Smooth fate → stored = chunk))
      (fun _ _ => ¬ Smooth fate) s' := by
  unfold writeAll
  rw [Act.wp_of]
  cases hf : fate.faults s'.clock with
  | some f =>
    intro hs
    rw [hs.faults] at hf
    cases hf
  | none =>
    have hmade := (h.same_after (Same.tick s')).appended ho (fate.media s'.clock chunk)
    exact ⟨_, ⟨hmade.objects, hmade.nextSerial, hmade.manifest⟩, fun hs => hs.media _ _⟩

/-- **The loop over the reads** has read the whole content and written as much of it as the medium
keeps. -/
theorem copyLoop_spec (ho : Ordered s) (completed : Nat) : ∀ (pieces : List Bytes) {copied : Nat}
    {hashed bytes : Bytes} {s' : RunState}, Created s s' d name (some bytes) → copied ≤ u64Max →
    Act.wp (copyLoop fate s.nextSerial relative completed pieces copied hashed)
      (fun r t => r.1 = saturatingAdd copied pieces.flatten.length ∧
        r.2 = hashed ++ pieces.flatten ∧
        ∃ bytes', Created s t d name (some bytes') ∧
          (Smooth fate → bytes' = bytes ++ pieces.flatten))
      (fun _ _ => ¬ Smooth fate) s' := by
  intro pieces
  induction pieces with
  | nil =>
    intro copied hashed bytes s' h hcopied
    rw [copyLoop, Act.wp_bind]
    refine Act.wp_mono checkCancelled_spec (fun _ s₁ h₁ => ?_) fun _ _ hbad => hbad
    rw [Act.wp_bind]
    refine Act.wp_mono fileCall_spec (fun _ s₂ h₂ => ?_) fun _ _ hbad => hbad
    have hsum : copied = saturatingAdd copied 0 := (min_eq_left hcopied).symm
    exact (Act.wp_pure _).mpr ⟨hsum, by simp, bytes, h.same_after (h₁.trans h₂), by simp⟩
  | cons chunk rest ih =>
    intro copied hashed bytes s' h hcopied
    rw [copyLoop, Act.wp_bind]
    refine Act.wp_mono checkCancelled_spec (fun _ s₁ h₁ => ?_) fun _ _ hbad => hbad
    rw [Act.wp_bind]
    refine Act.wp_mono fileCall_spec (fun _ s₂ h₂ => ?_) fun _ _ hbad => hbad
    rw [Act.wp_bind]
    refine Act.wp_mono (writeAll_created ho (h.same_after (h₁.trans h₂)) chunk)
      (fun _ s₃ h₃ => ?_) fun _ _ hbad => hbad
    obtain ⟨stored, hmade, hstored⟩ := h₃
    dsimp only
    rw [Act.wp_bind, observeCopy, setTransaction, Act.wp_update, Act.wp_bind, report, Act.wp_update]
    have hnext : saturatingAdd copied chunk.length ≤ u64Max := min_le_right _ _
    refine Act.wp_mono (ih (hmade.same_after ⟨rfl, rfl, rfl⟩) hnext) (fun r t h₄ => ?_)
      fun _ _ hbad => hbad
    obtain ⟨hcount, hhashed, bytes', hdone, hbytes⟩ := h₄
    refine ⟨?_, ?_, bytes', hdone, fun hs => ?_⟩
    · rw [hcount, List.flatten_cons, List.length_append]
      unfold saturatingAdd u64Max
      omega
    · rw [hhashed, List.flatten_cons, List.append_assoc]
    · rw [hbytes hs, hstored hs, List.flatten_cons, List.append_assoc]

/-- **One file**: it is there with the length and the digest of its original, and has its line. -/
theorem copyFileVerified_spec {dest : DestDirectory} {names : List Wide} {child : Wide → SourceNode}
    {path : Wide} {content : FileContent} (ho : Ordered s) (hd : Exists s dest.node)
    (hmem : name ∈ names) (hchild : child name = .file content) :
    Act.wp (copyFileVerified fate H ⟨.directory names child, path⟩ dest name relative)
      (fun _ s' => CopiedInto H s s' dest.node [name] child
        [(displayRelativePath relative, content.bytes.length, H.sha256 content.bytes)])
      (fun _ _ => Smooth fate → ¬ Free H s dest.node name) s := by
  have hfind : (SourceNode.directory names child).find H name = some (.file content) := by
    rw [find_of_mem hmem, hchild]
  unfold copyFileVerified
  rw [Act.wp_bind, Act.wp_mapErr]
  refine Act.wp_mono openFile_spec (fun input s₁ h₁ => ?_) fun _ _ hbad hs hfree =>
    hbad hs hfree.nameOk content hfind
  obtain ⟨_, hinput, hsame⟩ := h₁
  cases hfind.symm.trans hinput
  rw [Act.wp_bind, Act.wp_mapErr]
  refine Act.wp_mono createFile_spec (fun output s₂ h₂ => ?_) fun _ _ hbad hs hfree =>
    hbad hs (hfree.congr hsame)
  obtain ⟨hfree, hnumber, hcreated⟩ := h₂
  have hmade : Created s s₂ dest.node name (some []) := .same_before hsame hcreated
  rw [hnumber, hsame.nextSerial]
  have hexcuse : ∀ {P : Prop}, ¬ Smooth fate → Smooth fate → P := fun hbad hs => absurd hs hbad
  rw [Act.wp_bind, pushCreated, setTransaction, Act.wp_update, Act.wp_bind, Act.wp_read,
    Act.wp_bind, piecesOf, Act.wp_of]
  dsimp only
  rw [Act.wp_bind]
  refine Act.wp_mono (copyLoop_spec ho _ _ (hmade.same_after ⟨rfl, rfl, rfl⟩) (Nat.zero_le _))
    (fun copied s₃ h₃ => ?_) fun _ _ hbad => hexcuse hbad
  rw [fate.pieces_flatten, List.nil_append] at h₃
  obtain ⟨hcount, hhashed, bytes, hwritten, hbytes⟩ := h₃
  rw [Act.wp_bind]
  refine Act.wp_mono checkCancelled_spec (fun _ s₄ h₄ => ?_) fun _ _ hbad => hexcuse hbad
  rw [Act.wp_bind]
  refine Act.wp_mono fileCall_spec (fun _ s₅ h₅ => ?_) fun _ _ hbad => hexcuse hbad
  rw [Act.wp_bind]
  refine Act.wp_mono fileCall_spec (fun _ s₆ h₆ => ?_) fun _ _ hbad => hexcuse hbad
  rw [Act.wp_bind]
  refine Act.wp_mono fileCall_spec (fun _ s₇ h₇ => ?_) fun _ _ hbad => hexcuse hbad
  have hflushed := hwritten.same_after (((h₄.trans h₅).trans h₆).trans h₇)
  rw [Act.wp_bind, report, Act.wp_update, Act.wp_bind]
  refine Act.wp_mono sha256File_spec (fun digest s₈ h₈ => ?_) fun _ _ hbad => hexcuse hbad
  have htold : Same s₇ s₈ := ⟨h₈.1.objects, h₈.1.nextSerial, h₈.1.manifest⟩
  have hread := hflushed.same_after htold
  have hdigest : digest = H.sha256 bytes := by
    rw [h₈.2]
    exact congrArg H.sha256 ((hflushed.same_after ⟨rfl, rfl, rfl⟩).stored ho)
  rw [hhashed, hdigest, Act.wp_bind, Act.wp_when]
  split
  · -- what was read back is not what was read from the source
    next hdiffers =>
    refine (Act.wp_fail _).mpr fun hs => ?_
    rw [hbytes hs, bne_self_eq_false] at hdiffers
    cases hdiffers
  · next hequal =>
    rw [Act.wp_bind]
    refine Act.wp_mono fileCall_spec (fun _ s₉ h₉ => ?_) fun _ _ hbad => hexcuse hbad
    have hfinal := hread.same_after h₉
    have hlength : copied.1 = content.bytes.length := by
      rw [hcount]
      have hsmall := content.small
      unfold saturatingAdd u64Max
      omega
    rw [Act.wp_bind, Act.wp_read, Act.wp_bind, Act.wp_guard, hfinal.stored ho]
    split
    · next hsize =>
      rw [Act.wp_bind, Act.wp_update, setTransaction, Act.wp_update]
      have hverified : H.sha256 content.bytes = H.sha256 bytes := by simpa using hequal
      have hbytesLength : copied.1 = bytes.length := by simpa using hsize
      refine .file ho hd (hfree.congr hsame.symm) hchild (hbytesLength.symm.trans hlength)
        hverified.symm hfinal.objects hfinal.nextSerial ?_
      show s₉.transaction.manifest ++ _ = _
      rw [hfinal.manifest, hlength]
    · next hsize =>
      intro hs
      rw [hlength, hbytes hs] at hsize
      exact absurd (beq_self_eq_true _) hsize

end OneFile

/-! ## 5. One tree -/

section Trees

variable {names : List Wide} {child : Wide → SourceNode} {path : Wide}

theorem kind_directory {node : SourceNode} (h : node.kind = some .directory) :
    ∃ names child, node = .directory names child := by
  cases node with
  | directory names child => exact ⟨names, child, rfl⟩
  | file content => cases h
  | reparse => cases h

theorem kind_file {node : SourceNode} (h : node.kind = some .file) :
    ∃ content, node = .file content := by
  cases node with
  | file content => exact ⟨content, rfl⟩
  | directory names child => cases h
  | reparse => cases h

/-- What is read from a directory without reparse points. -/
theorem parseDirectoryBuffer_ok : ∀ {names : List Wide} {entries : List SecureDirEntry},
    parseDirectoryBuffer path child names = .ok entries →
    entries.map (·.name) = names ∧ ∀ e ∈ entries, (child e.name).kind = some e.kind
  | [], entries, h => by
    cases h
    exact ⟨rfl, nofun⟩
  | name :: names, entries, h => by
    rw [parseDirectoryBuffer] at h
    split at h
    · cases h
    · next kind hkind =>
      obtain ⟨more, hmore, h⟩ := bind_ok h
      cases h
      obtain ⟨hnames, hkinds⟩ := parseDirectoryBuffer_ok hmore
      refine ⟨congrArg (name :: ·) hnames, fun e he => ?_⟩
      rcases List.mem_cons.mp he with rfl | he
      · exact hkind
      · exact hkinds e he

theorem parseDirectoryBuffer_error : ∀ {names : List Wide} {error : SecureFsError},
    parseDirectoryBuffer path child names = .error error → ∃ name ∈ names, (child name).kind = none
  | [], error, h => nomatch h
  | name :: names, error, h => by
    rw [parseDirectoryBuffer] at h
    split at h
    · next hkind => exact ⟨name, List.mem_cons_self, hkind⟩
    · cases hmore : parseDirectoryBuffer path child names with
      | error e =>
        obtain ⟨name', hmem, hnone⟩ := parseDirectoryBuffer_error hmore
        exact ⟨name', List.mem_cons_of_mem _ hmem, hnone⟩
      | ok more =>
        rw [hmore] at h
        cases h

/-- The sort looks at the names only. -/
theorem map_sortByKey (lower : String → String) (entries : List SecureDirEntry) :
    (sortByKey lower SecureDirEntry.name entries).map (·.name)
      = sortByKey lower id (entries.map (·.name)) :=
  List.map_insertionSort _ _ _ _ fun _ _ _ _ => Iff.rfl

/-- In whatever order the entries come, they are the entries. -/
theorem listed_perm (path : Wide) (names : List Wide) :
    (sortByKey H.lower id (fate.arrange path names)).Perm names :=
  (sortByKey_perm H.lower id _).trans (fate.arrange_perm path names)

theorem entries_spec :
    Act.wp (SourceDirectory.entries H fate ⟨.directory names child, path⟩)
      (fun entries s' => Same s s' ∧
        entries.map (·.name) = sortByKey H.lower id (fate.arrange path names) ∧
        ∀ e ∈ entries, (child e.name).kind = some e.kind)
      (fun _ _ => Smooth fate → ∃ name ∈ names, (child name).kind = none) s := by
  unfold SourceDirectory.entries
  refine wp_call_of (fun _ _ hbad hs => absurd hs hbad) ?_
  rw [Act.wp_ofExcept]
  simp only [SourceDirectory.listed]
  cases hparse : parseDirectoryBuffer path child (fate.arrange path names) with
  | error e =>
    intro _
    obtain ⟨name, hmem, hnone⟩ := parseDirectoryBuffer_error hparse
    exact ⟨name, (fate.arrange_perm path names).mem_iff.mp hmem, hnone⟩
  | ok entries =>
    obtain ⟨hnames, hkinds⟩ := parseDirectoryBuffer_ok hparse
    refine ⟨.tick s, ?_, fun e he => hkinds e ?_⟩
    · rw [map_sortByKey, hnames]
    · exact (sortByKey_perm H.lower SecureDirEntry.name entries).mem_iff.mp he

theorem pushIfCreated_spec {created : Option SecureCreatedEntry} :
    Act.wp (pushIfCreated created) (fun _ s' => Same s s') (fun _ _ => False) s := by
  cases created with
  | none => exact (Act.wp_ret ()).mpr (.refl s)
  | some entry => exact (Act.wp_update _).mpr ⟨rfl, rfl, rfl⟩

/-- An entry stands in the way of one of the names. -/
def Blocked (H : CopyHost) (s : RunState) (d : Option Nat) (names : List Wide) : Prop :=
  ∃ name ∈ names, ∃ o ∈ s.within d, H.fold o.name = H.fold name

/-- The next name can be created, when nothing was in the way and no two names are the same. -/
theorem CopiedInto.free_next {d : Option Nat} {done : List Wide} {name : Wide} (rest : List Wide)
    {lines : List (String × Nat × String)} (h : CopiedInto H s s' d done child lines)
    (hok : NameOk name) (hdistinct : ((done ++ name :: rest).map H.fold).Nodup)
    (hfits : ¬ Blocked H s d (done ++ name :: rest)) : Free H s' d name := by
  refine ⟨hok, lookup_eq_none.mpr fun o ho => ?_⟩
  obtain ⟨made, hwithin, hnames, _⟩ := h.made
  have hmem : name ∈ done ++ name :: rest := List.mem_append_right _ List.mem_cons_self
  rw [hwithin] at ho
  rcases List.mem_append.mp ho with ho | ho
  · exact fun heq => hfits ⟨name, hmem, o, ho, heq⟩
  · intro heq
    have hdone : H.fold o.name ∈ done.map H.fold :=
      List.mem_map_of_mem (hnames ▸ List.mem_map_of_mem ho)
    rw [List.map_append, List.map_cons, List.nodup_append] at hdistinct
    exact hdistinct.2.2 _ hdone _ List.mem_cons_self heq

/-- The lines of an entry. -/
def linesOf (H : CopyHost) (arrange : Wide → List Wide → List Wide) (child : Wide → SourceNode)
    (path relative name : Wide) : List (String × Nat × String) :=
  manifestOf H arrange (child name) (WinPath.join path name) (WinPath.join relative name)

/-- Before a round of the loop over the entries: those that are done are there. -/
structure Round (H : CopyHost) (fate : Fate) (child : Wide → SourceNode) (path relative : Wide)
    (d : Option Nat) (s : RunState) (entries done rest : List SecureDirEntry) (t : RunState) :
    Prop where
  split : done ++ rest = entries
  copied : CopiedInto H s t d (done.map (·.name)) child
    (done.flatMap fun e => linesOf H fate.arrange child path relative e.name)

section Rounds

variable {relative : Wide} {d : Option Nat} {entries done rest : List SecureDirEntry}
  {e : SecureDirEntry} {t t' : RunState}

theorem Round.next (h : Round H fate child path relative d s entries done (e :: rest) t)
    (hone : CopiedInto H t t' d [e.name] child (linesOf H fate.arrange child path relative e.name)) :
    Round H fate child path relative d s entries (done ++ [e]) rest t' := by
  refine ⟨by rw [← h.split, List.append_assoc]; rfl, ?_⟩
  rw [List.map_append, List.flatMap_append, List.map_singleton, List.flatMap_singleton]
  exact h.copied.append hone

theorem Round.mem (h : Round H fate child path relative d s entries done (e :: rest) t) :
    e ∈ entries := h.split ▸ List.mem_append_right _ List.mem_cons_self

/-- A name that cannot be created was in the way from the beginning. -/
theorem Round.blocked (h : Round H fate child path relative d s entries done (e :: rest) t)
    (hperm : (entries.map (·.name)).Perm names) (hcopy : Copyable H (.directory names child))
    (hnot : ¬ Free H t d e.name) : Blocked H s d names := by
  by_contra hfits
  have hsplit : done.map (·.name) ++ e.name :: rest.map (·.name) = entries.map (·.name) := by
    rw [← h.split, List.map_append, List.map_cons]
  have hmem : e.name ∈ names := hperm.mem_iff.mp (List.mem_map_of_mem h.mem)
  refine hnot (h.copied.free_next (rest.map (·.name)) (hcopy.2 e.name hmem).1 ?_ ?_)
  · rw [hsplit]
    exact (hperm.map H.fold).nodup_iff.mpr hcopy.1
  · intro ⟨name, hin, hway⟩
    rw [hsplit, hperm.mem_iff] at hin
    exact hfits ⟨name, hin, hway⟩

end Rounds

/-- A directory among the entries, when its own entries are copied as they should be. -/
theorem directoryEntry_spec {names' : List Wide} {child' : Wide → SourceNode} {name relative : Wide}
    {dest : DestDirectory} (ho : Ordered s) (hd : Exists s dest.node) (hmem : name ∈ names)
    (hchild : child name = .directory names' child')
    (hentries : ∀ {path relative : Wide} {dest : DestDirectory} {t : RunState}, Ordered t →
      Exists t dest.node →
      Act.wp (copyTreeVerified fate H (child name) path dest relative)
        (fun _ t' => CopiedInto H t t' dest.node
          (sortByKey H.lower id (fate.arrange path names')) child'
          (manifestOf H fate.arrange (child name) path relative))
        (fun _ _ => Smooth fate → Copyable H (child name) → Blocked H t dest.node names') t) :
    Act.wp (do
      let sourceChild ← Act.mapErr mapSecureError
        (SourceDirectory.openDirectory H fate ⟨.directory names child, path⟩ name)
      let made ← Act.mapErr mapSecureError (dest.openOrCreateDirectory H fate name)
      pushIfCreated made.2
      copyTreeVerified fate H (child name) sourceChild.displayPath made.1
        (WinPath.join relative name))
      (fun _ s' => CopiedInto H s s' dest.node [name] child
        (linesOf H fate.arrange child path relative name))
      (fun _ _ => Smooth fate → NameOk name → Copyable H (child name) →
        ¬ Free H s dest.node name) s := by
  have hfind : (SourceNode.directory names child).find H name = some (child name) :=
    find_of_mem hmem
  rw [Act.wp_bind, Act.wp_mapErr]
  refine Act.wp_mono openDirectory_spec (fun next s₁ h₁ => ?_) fun _ _ hbad hs hok _ => ?_
  · obtain ⟨_, _, _, hpath, hsame⟩ := h₁
    have ho₁ : Ordered s₁ := hsame.ordered ho
    have hd₁ : Exists s₁ dest.node := (hsame.grown ho none).exists hd
    rw [Act.wp_bind, Act.wp_mapErr]
    refine Act.wp_mono openOrCreateDirectory_spec (fun made s₂ h₂ => ?_)
      fun _ _ hbad hs _ _ hfree => hbad hs (hfree.congr hsame)
    obtain ⟨hfree, hmade, hcreated⟩ := h₂
    rw [Act.wp_bind]
    refine Act.wp_mono pushIfCreated_spec (fun _ s₃ h₃ => ?_) fun _ _ hfalse => hfalse.elim
    have hnew := hcreated.same_after h₃
    have hbelow : Exists s₃ made.1.node := by
      rw [hmade]
      intro p hp
      cases hp
      rw [hnew.nextSerial]
      exact Nat.lt_succ_self _
    refine Act.wp_mono (hentries (hnew.ordered ho₁ hd₁) hbelow) (fun _ s₄ h₄ => ?_)
      fun _ _ hbad hs _ hcopy => ?_
    · rw [hmade, hpath] at h₄
      exact .before hsame ho (.directory ho₁ hd₁ hfree hnew hchild (listed_perm _ names') h₄)
    · -- nothing is in the way in a directory that has just been created
      obtain ⟨_, _, o, hway, _⟩ := hbad hs hcopy
      rw [hmade, hnew.within_ne, ho₁.within_new] at hway
      · exact absurd hway List.not_mem_nil
      · exact fun heq => absurd (hd₁ _ heq) (Nat.lt_irrefl _)
  · refine absurd ?_ ((hbad.2.2 hs hok).1 names' child')
    exact hfind.trans (congrArg some hchild)

/-- **One tree**: the directory gets the image of every entry, and the manifest the lines of the
tree, in the order of the sort. -/
theorem copyTreeVerified_spec : ∀ (node : SourceNode) {names : List Wide}
    {child : Wide → SourceNode} {path relative : Wide} {dest : DestDirectory} {s : RunState},
    node = .directory names child → Ordered s → Exists s dest.node →
    Act.wp (copyTreeVerified fate H node path dest relative)
      (fun _ s' => CopiedInto H s s' dest.node (sortByKey H.lower id (fate.arrange path names)) child
        (manifestOf H fate.arrange node path relative))
      (fun _ _ => Smooth fate → Copyable H node → Blocked H s dest.node names) s := by
  intro node
  induction node with
  | file content => exact nofun
  | reparse => exact nofun
  | directory names child ih =>
    intro names' child' path relative dest s hnode ho hd
    cases hnode
    rw [copyTreeVerified, Act.wp_bind, Act.wp_mapErr]
    refine Act.wp_mono entries_spec (fun entries s₁ h₁ => ?_) fun _ _ hbad hs hcopy => ?_
    · obtain ⟨hsame, hnames, hkinds⟩ := h₁
      have hperm : (entries.map (·.name)).Perm names := by
        rw [hnames]
        exact listed_perm path names
      refine Act.wp_forEach _ (Round H fate child path relative dest.node s entries) entries [] s₁
        ⟨rfl, .nil hsame ho⟩ ?_ ?_
      · intro done e rest t hround
        have hmem : e.name ∈ names := hperm.mem_iff.mp (List.mem_map_of_mem hround.mem)
        have hkind := hkinds e hround.mem
        have hold := hround.copied.grown
        have hblocked := fun (hs : Smooth fate) (hbad : Smooth fate → ¬ Free H t dest.node e.name)
          (hcopy : Copyable H (.directory names child)) => hround.blocked hperm hcopy (hbad hs)
        rw [Act.wp_bind]
        refine Act.wp_mono checkCancelled_spec (fun _ t₁ h₁ => ?_) fun _ _ hbad hs => absurd hs hbad
        have hat : Exists t₁ dest.node := (h₁.grown hold.ordered none).exists (hold.exists hd)
        cases hk : e.kind with
        | directory =>
          obtain ⟨names', child', hchild⟩ := kind_directory (hkind.trans (congrArg some hk))
          refine Act.wp_mono (directoryEntry_spec (h₁.ordered hold.ordered) hat hmem hchild
            fun ho hd => ih e.name hchild ho hd) (fun _ t₂ h₂ => ?_) fun _ _ hbad hs hcopy => ?_
          · exact hround.next (.before h₁ hold.ordered h₂)
          · have hok := hcopy.2 e.name hmem
            exact hblocked hs (fun hs hfree => hbad hs hok.1 hok.2 (hfree.congr h₁)) hcopy
        | file =>
          obtain ⟨content, hchild⟩ := kind_file (hkind.trans (congrArg some hk))
          refine Act.wp_mono (copyFileVerified_spec (h₁.ordered hold.ordered) hat hmem hchild)
            (fun _ t₂ h₂ => ?_) fun _ _ hbad hs => ?_
          · refine hround.next (.before h₁ hold.ordered ?_)
            rw [linesOf, hchild]
            exact h₂
          · exact hblocked hs fun hs hfree => hbad hs (hfree.congr h₁)
      · intro done t hround
        have hsplit := hround.split
        rw [List.append_nil] at hsplit
        have hdone := hround.copied
        rw [hsplit] at hdone
        rw [manifestOf, ← hnames, List.flatMap_map]
        exact hdone
    · obtain ⟨name, hmem, hnone⟩ := hbad hs
      have hchild := (hcopy.2 name hmem).2
      cases hn : child name with
      | file content => rw [hn] at hnone; cases hnone
      | directory names child => rw [hn] at hnone; cases hnone
      | reparse =>
        rw [hn] at hchild
        exact hchild.elim

end Trees

end WinProfile.Migration
