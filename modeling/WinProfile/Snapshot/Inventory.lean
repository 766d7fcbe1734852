/-
  File:      WinProfile/Snapshot/Inventory.lean
  Subject:   What `list_snapshots` answers after any sequence of snapshots and drops.

  * `Runs` -- successful calls of `create_registry_snapshot` and drops of what they returned, on one
    directory that nobody else changes.
  * `Inventory` -- what such a run has made of the directory; `runs_inventory` is its induction.
  * `listing_agrees_iff` -- the listing is complete exactly when nothing returned is still alive and
    the storage root was not made by this process: the handles of both have the right to delete,
    which the opens of the inventory do not share.
-/
import WinProfile.Snapshot.Atomic

namespace WinProfile.Snapshot

open Handles
open Legacy (putNumber getNumbers putText getText getNumbers_put getText_put le_one_of_mem_put)

variable {H : Host} {C : MetadataCodec} {s₀ s : Store H} {all live : List SnapshotMetadata}
  {m : SnapshotMetadata}

/-! ## 1. Runs -/

/-- Snapshots that were made, in their order, and those of them that are still alive. -/
inductive Runs (C : MetadataCodec) (s₀ : Store H) :
    Store H → List SnapshotMetadata → List SnapshotMetadata → Prop
  | start : Runs C s₀ s₀ [] []
  | create {s s' : Store H} {all live : List SnapshotMetadata} {m : SnapshotMetadata}
      (h : Runs C s₀ s all live) (fate : Fate) (request : SnapshotRequest)
      (hok : createRegistrySnapshot C fate request s = (.ok m, s')) :
      Runs C s₀ s' (all ++ [m]) (m :: live)
  | drop {s : Store H} {all live : List SnapshotMetadata} {m : SnapshotMetadata}
      (h : Runs C s₀ s all live) (hm : m ∈ live) :
      Runs C s₀ (m.release s) all (live.erase m)

/-- A directory without metadata files and without reparse points. -/
structure NoMetadata (s : Store H) : Prop where
  names : metadataNames (s.files.entries.map Prod.fst) = []
  plain : ∀ name f, s.files.find name = some f → f.body.kind ≠ .reparsePoint

/-- The names of a snapshot's files. -/
def SnapshotMetadata.names (m : SnapshotMetadata) : List Wide := [m.hiveName, m.metadataName]

/-- What a run has made of the directory. -/
structure Inventory (C : MetadataCodec) (s₀ s : Store H) (all live : List SnapshotMetadata) :
    Prop where
  names : s.files.entries.map Prod.fst
    = s₀.files.entries.map Prod.fst ++ all.flatMap (·.names)
  plain : ∀ name f, s.files.find name = some f → f.body.kind ≠ .reparsePoint
  held : ∀ m ∈ all, ∃ hive : StoredFile, s.files.find m.hiveName
      = some { body := hive, handles := if m ∈ live then [artifactHandle] else [] } ∧
    hive.kind = .file ∧ Consistent H m.fileName m hive ∧
    m.protectedArtifact = some ⟨1, m.hiveName, hive.identity⟩
  written : ∀ m ∈ all, ∃ identity, s.files.find m.metadataName
    = some { body := ⟨.file, C.encode m, identity⟩ }
  named : ∀ m ∈ all, checkName m.hiveName = .ok () ∧ checkName m.metadataName = .ok ()
  hives : ∀ m ∈ all, ∀ m' ∈ all, H.fold m.hiveName = H.fold m'.hiveName → m = m'
  apart : ∀ m ∈ all, ∀ m' ∈ all, H.fold m.hiveName ≠ H.fold m'.metadataName
  alive : ∀ m ∈ live, m ∈ all
  once : live.Nodup

/-! ## 2. Tables -/

section Tables

variable {t : NameTable H.fold (SharedFile StoredFile)} {f g : SharedFile StoredFile}
  {n k : Wide}

/-- Two names of which one is there and one is free. -/
theorem fold_ne_of_free (hfree : t.find n = none) (h : t.find k = some f) :
    H.fold n ≠ H.fold k := fun e => by
  rw [t.find_congr e, h] at hfree
  cases hfree

/-- A file under a new name leaves the others alone. -/
theorem find_put_of_free (hfree : t.find n = none) (h : t.find k = some f) :
    (t.put n g).find k = some f := by
  rw [NameTable.find_put, if_neg (fold_ne_of_free hfree h), h]

theorem plain_put (hg : g.body.kind ≠ .reparsePoint)
    (h : ∀ name f, t.find name = some f → f.body.kind ≠ .reparsePoint) :
    ∀ name f, (t.put n g).find name = some f → f.body.kind ≠ .reparsePoint := by
  intro name f hf
  rw [NameTable.find_put] at hf
  split at hf
  · cases hf
    exact hg
  · exact h name f hf

end Tables

/-! ## 3. Steps -/

theorem Inventory.start (h : NoMetadata s₀) : Inventory C s₀ s₀ [] [] where
  names := (List.append_nil _).symm
  plain := h.plain
  held := nofun
  written := nofun
  named := nofun
  hives := nofun
  apart := nofun
  alive := nofun
  once := List.nodup_nil

/-- A snapshot that was stored joins the inventory, alive. -/
theorem Inventory.create (h : Inventory C s₀ s all live) {s' : Store H} {hive : StoredFile}
    {identity : FileIdentity}
    (hstored : Stored s.files m hive { body := ⟨.file, C.encode m, identity⟩ } s'.files) :
    Inventory C s₀ s' (all ++ [m]) (m :: live) := by
  -- The new names are none of the names that were there.
  have hold : ∀ {k f}, s.files.find k = some f → s'.files.find k = some f := by
    intro k f hk
    have hfirst := find_put_of_free (g := heldHive hive) hstored.free hk
    rw [hstored.files]
    exact find_put_of_free hstored.freeMetadata hfirst
  have hmid : (s.files.put m.hiveName (heldHive hive)).find m.hiveName = some (heldHive hive) := by
    rw [NameTable.find_put, if_pos rfl]
  have hnew : s'.files.find m.hiveName = some (heldHive hive) := by
    rw [hstored.files]
    exact find_put_of_free hstored.freeMetadata hmid
  have hnewMetadata : s'.files.find m.metadataName
      = some { body := ⟨.file, C.encode m, identity⟩ } := by
    rw [hstored.files, NameTable.find_put, if_pos rfl]
  have hhive : ∀ m' ∈ all, H.fold m.hiveName ≠ H.fold m'.hiveName := fun m' hm' => by
    obtain ⟨_, hfind, -⟩ := h.held m' hm'
    exact fold_ne_of_free hstored.free hfind
  have hfresh : m ∉ all := fun hm => hhive m hm rfl
  have hmem : ∀ m' ∈ all, (m' ∈ m :: live ↔ m' ∈ live) := fun m' hm' => by
    rw [List.mem_cons]
    refine or_iff_right fun e => hfresh (e ▸ hm')
  refine ⟨?_, ?_, ?_, ?_, ?_, ?_, ?_, ?_, ?_⟩
  · rw [hstored.files, NameTable.entries_put hstored.freeMetadata,
      NameTable.entries_put hstored.free, List.map_append, List.map_append, h.names,
      List.flatMap_append, List.append_assoc, List.append_assoc]
    rfl
  · rw [hstored.files]
    refine plain_put nofun (plain_put ?_ h.plain)
    show hive.kind ≠ .reparsePoint
    rw [hstored.kind]
    nofun
  · intro m' hm'
    rcases List.mem_append.mp hm' with hm' | hm'
    · obtain ⟨hive', hfind, hrest⟩ := h.held m' hm'
      refine ⟨hive', ?_, hrest⟩
      simp only [hmem m' hm']
      exact hold hfind
    · obtain rfl := List.mem_singleton.mp hm'
      refine ⟨hive, ?_, hstored.kind, hstored.consistent, hstored.artifact⟩
      rw [if_pos (List.mem_cons_self ..)]
      exact hnew
  · intro m' hm'
    rcases List.mem_append.mp hm' with hm' | hm'
    · obtain ⟨identity', hfind⟩ := h.written m' hm'
      exact ⟨identity', hold hfind⟩
    · obtain rfl := List.mem_singleton.mp hm'
      exact ⟨identity, hnewMetadata⟩
  · intro m' hm'
    rcases List.mem_append.mp hm' with hm' | hm'
    · exact h.named m' hm'
    · obtain rfl := List.mem_singleton.mp hm'
      exact ⟨hstored.hiveNamed, hstored.metadataNamed⟩
  · intro a ha b hb hab
    rcases List.mem_append.mp ha with ha' | ha' <;> rcases List.mem_append.mp hb with hb' | hb'
    · exact h.hives a ha' b hb' hab
    · obtain rfl := List.mem_singleton.mp hb'
      exact absurd hab.symm (hhive a ha')
    · obtain rfl := List.mem_singleton.mp ha'
      exact absurd hab (hhive b hb')
    · rw [List.mem_singleton.mp ha', List.mem_singleton.mp hb']
  · intro a ha b hb
    rcases List.mem_append.mp ha with ha' | ha' <;> rcases List.mem_append.mp hb with hb' | hb'
    · exact h.apart a ha' b hb'
    · obtain rfl := List.mem_singleton.mp hb'
      obtain ⟨_, hfind, -⟩ := h.held a ha'
      have hfirst := find_put_of_free (g := heldHive hive) hstored.free hfind
      exact (fold_ne_of_free hstored.freeMetadata hfirst).symm
    · obtain rfl := List.mem_singleton.mp ha'
      obtain ⟨_, hfind⟩ := h.written b hb'
      exact fold_ne_of_free hstored.free hfind
    · obtain rfl := List.mem_singleton.mp ha'
      obtain rfl := List.mem_singleton.mp hb'
      exact (fold_ne_of_free hstored.freeMetadata hmid).symm
  · intro m' hm'
    rcases List.mem_cons.mp hm' with rfl | hm'
    · exact List.mem_append_right _ (List.mem_singleton_self _)
    · exact List.mem_append_left _ (h.alive m' hm')
  · exact List.nodup_cons.mpr ⟨fun hm => hfresh (h.alive m hm), h.once⟩

/-- A drop closes the handle of the artifact. -/
theorem Inventory.drop (h : Inventory C s₀ s all live) (hm : m ∈ live) :
    Inventory C s₀ (m.release s) all (live.erase m) := by
  obtain ⟨hive, hfind, hkind, hconsistent, hartifact⟩ := h.held m (h.alive m hm)
  rw [if_pos hm] at hfind
  have hfiles : (m.release s).files = s.files.put m.hiveName { body := hive } := by
    rw [SnapshotMetadata.release, hartifact]
    exact Store.close_stays hfind rfl
  have hother : ∀ {k}, H.fold m.hiveName ≠ H.fold k →
      (m.release s).files.find k = s.files.find k := by
    intro k hk
    rw [hfiles, NameTable.find_put, if_neg hk]
  refine ⟨?_, ?_, ?_, ?_, h.named, h.hives, h.apart, ?_, h.once.erase m⟩
  · rw [hfiles, NameTable.names_put (by rw [hfind]; rfl), h.names]
  · rw [hfiles]
    refine plain_put ?_ h.plain
    show hive.kind ≠ .reparsePoint
    simp [hkind]
  · intro m' hm'
    by_cases he : m' = m
    · subst he
      refine ⟨hive, ?_, hkind, hconsistent, hartifact⟩
      rw [if_neg fun hin => (h.once.mem_erase_iff.mp hin).1 rfl, hfiles, NameTable.find_put,
        if_pos rfl]
    · obtain ⟨hive', hfind', hrest⟩ := h.held m' hm'
      refine ⟨hive', ?_, hrest⟩
      rw [hother fun e => he (h.hives m (h.alive m hm) m' hm' e).symm, hfind']
      simp only [h.once.mem_erase_iff, ne_eq, he, not_false_eq_true, true_and]
  · intro m' hm'
    obtain ⟨identity, hfind'⟩ := h.written m' hm'
    exact ⟨identity, (hother (h.apart m (h.alive m hm) m' hm')).trans hfind'⟩
  · exact fun m' hm' => h.alive m' (List.mem_of_mem_erase hm')

/-- **What every run has made of the directory.** -/
theorem runs_inventory (h₀ : NoMetadata s₀) (h : Runs C s₀ s all live) :
    Inventory C s₀ s all live := by
  induction h with
  | start => exact Inventory.start h₀
  | @create s _ _ _ _ _ fate request hok ih =>
    have hspec := createRegistrySnapshot_spec C fate request s
    unfold Act.wp at hspec
    rw [hok] at hspec
    obtain ⟨hive, identity, hstored, -⟩ := hspec
    exact ih.create hstored
  | drop _ hm ih => exact ih.drop hm

/-! ## 4. Listing -/

section Listing

variable {names names' : List Wide}

theorem metadataNames_append (names names' : List Wide) :
    metadataNames (names ++ names') = metadataNames names ++ metadataNames names' := by
  rw [metadataNames, List.filterMap_append, List.filter_append]
  rfl

theorem metadataNames_perm (h : names.Perm names') :
    (metadataNames names).Perm (metadataNames names') := (h.filterMap _).filter _

/-- Of the two files of a snapshot the listing looks at the metadata. -/
theorem metadataNames_names (h : endsWith ".hiv" m.snapshotFileName = true) :
    metadataNames m.names = [m.fileName] := by
  have hhive : endsWith ".json" m.snapshotFileName = false := by
    refine Bool.eq_false_iff.mpr fun hjson => ?_
    rw [endsWith, List.isSuffixOf_iff_suffix] at h hjson
    have hsuffix := List.suffix_of_suffix_length_le h hjson (by decide)
    exact absurd (List.isSuffixOf_iff_suffix.mpr hsuffix) (by decide)
  have hjson : endsWith ".json" m.fileName = true := by
    rw [endsWith, List.isSuffixOf_iff_suffix, SnapshotMetadata.fileName, String.toList_append]
    exact List.suffix_append _ _
  rw [metadataNames, SnapshotMetadata.names, SnapshotMetadata.hiveName,
    SnapshotMetadata.metadataName]
  simp [decodeUtf16_encodeWide, hhive, hjson]

theorem metadataNames_flatMap : ∀ {all : List SnapshotMetadata},
    (∀ m ∈ all, endsWith ".hiv" m.snapshotFileName = true) →
      metadataNames (all.flatMap (·.names)) = all.map (·.fileName)
  | [], _ => rfl
  | m :: all, h => by
    rw [List.flatMap_cons, metadataNames_append, metadataNames_names (h m (List.mem_cons_self ..)),
      metadataNames_flatMap fun m' hm' => h m' (List.mem_cons_of_mem _ hm')]
    rfl

/-- The names that the listing reads are those of the snapshots, in some order. -/
theorem Inventory.listed (h : Inventory C s₀ s all live) (h₀ : NoMetadata s₀)
    (hroot : H.rootCreated = false) :
    Act.wp (entries (fun _ => none) : Act (Store H) StorageError (List Wide))
      (fun names s' => Same s s' ∧ (metadataNames names).Perm (all.map (·.fileName)))
      (fun _ _ => False) s := by
  have hquiet : ∀ {f : StorageFault} {p : Prop}, (none : Option StorageFault) = some f → p := nofun
  rw [entries, Act.wp_bind, openAbsoluteExisting]
  refine wp_storageCall (fun _ hf => hquiet hf) ?_
  rw [Act.wp_of]
  simp only [H.reopens_iff.mpr hroot, if_true]
  refine wp_storageCall (fun _ hf => hquiet hf) ?_
  have hplain : (H.arrange (s.tick.tick.files.entries.map Prod.fst)).find? (fun name =>
      (s.tick.tick.files.find name).map (·.body.kind) == some .reparsePoint) = none := by
    refine List.find?_eq_none.mpr fun name _ hbad => ?_
    obtain ⟨f, hf, hkind⟩ := Option.map_eq_some_iff.mp (beq_iff_eq.mp hbad)
    exact h.plain name f hf hkind
  rw [Act.wp_of]
  simp only [hplain]
  refine ⟨(Same.tick s).trans (Same.tick s.tick), ?_⟩
  have hsuffix : ∀ m ∈ all, endsWith ".hiv" m.snapshotFileName = true := fun m hm => by
    obtain ⟨_, _, _, hc, _⟩ := h.held m hm
    exact hc.suffix
  have hnames : metadataNames (s.files.entries.map Prod.fst) = all.map (·.fileName) := by
    rw [h.names, metadataNames_append, h₀.names, metadataNames_flatMap hsuffix, List.nil_append]
  rw [← hnames]
  exact metadataNames_perm ((sortByKey_perm ..).trans (H.arrange_perm _))

/-- **One round of the loop**: it ends with metadata whose hive the sharing rule lets it open, and
always when both files are ready, no call fails and the entry is consistent. -/
theorem readMetadata_spec (C : MetadataCodec) (faults : Faults) (hash : Nat → Option HashFault)
    (text : String) (s : Store H) :
    Act.wp (readMetadata C faults hash text)
      (fun m s' => Same s s' ∧ ∃ f g, s.files.find (encodeWide text) = some f ∧
        C.decode f.body.content = .ok m ∧ s.files.find m.hiveName = some g ∧
        g.admits (accessRights inventoryAccess) (shareRights FILE_SHARE_READ) = true)
      (fun _ _ => Quiet faults → Quiet hash → ∀ f m g,
        Ready (encodeWide text) (FILE_GENERIC_READ ||| SYNCHRONIZE) FILE_SHARE_READ f s →
        C.decode f.body.content = .ok m → Ready m.hiveName inventoryAccess FILE_SHARE_READ g s →
        ¬ Consistent H text m g.body) s := by
  rw [readMetadata, Act.wp_bind, Act.wp_mapErr]
  refine Act.wp_mono (openFile_spec faults _ _ _ s) ?_
    fun _ _ h hq _ f _ _ hready => absurd hready (h.2.2 hq f)
  intro handle s₁ hrun
  obtain ⟨f, hopen, -⟩ := hrun
  have hsame : Same s (s₁.close (encodeWide text) handle) := hopen.close
  rw [Act.wp_bind, Act.wp_ensuring, Act.wp_bind]
  refine Act.wp_mono (contentOf_spec hopen.find) ?_ fun _ _ h => h.elim
  intro content s₂ hrun
  obtain ⟨rfl, rfl⟩ := hrun
  rw [Act.wp_mapErr, Act.wp_ofExcept]
  have hfile : ∀ {g : SharedFile StoredFile}, s.files.find (encodeWide text) = some g → g = f :=
    fun hg => Option.some.inj (hg.symm.trans hopen.found)
  cases hdecode : C.decode f.body.content with
  | error e =>
    simp only [SharedFile.opened_body, hdecode]
    intro _ _ g m _ hready hm
    rw [hfile hready.found, hdecode] at hm
    cases hm
  | ok metadata =>
    simp only [SharedFile.opened_body, hdecode]
    rw [Act.wp_bind]
    refine Act.wp_mono (validateInventoryEntry_spec faults hash text metadata _) ?_ ?_
    · intro _ s₃ hrun
      obtain ⟨h₃, g, hg, hadmits, -⟩ := hrun
      rw [hsame.files] at hg
      exact (Act.wp_pure _).mpr ⟨hsame.trans h₃, f, g, hopen.found, hdecode, hg, hadmits⟩
    · intro e s₃ hrun hq hh g m k hready hm hhive
      obtain ⟨-, hfails⟩ := hrun
      rw [hfile hready.found, hdecode, Except.ok.injEq] at hm
      subst hm
      refine hfails hq hh k ⟨hhive.named, ?_, hhive.kind, hhive.stays, hhive.admitted⟩
      rw [hsame.files]
      exact hhive.found

/-- Without a handle on the hive a snapshot is read back. -/
theorem Inventory.read_free (h : Inventory C s₀ s all live) {s₁ : Store H} (hs : Same s s₁)
    (hm : m ∈ all) (hfree : m ∉ live) :
    Act.wp (readMetadata C (fun _ => none) (fun _ => none) m.fileName)
      (fun result s' => result = m.stored ∧ Same s s') (fun _ _ => False) s₁ := by
  obtain ⟨hive, hfind, hkind, hconsistent, -⟩ := h.held m hm
  obtain ⟨identity, hfile⟩ := h.written m hm
  rw [if_neg hfree] at hfind
  rw [← hs.files] at hfind hfile
  have hdecode := C.decode_encode m
  refine Act.wp_mono (readMetadata_spec C _ _ m.fileName s₁) ?_ ?_
  · intro result s' hrun
    obtain ⟨hsame, f, g, hf, hd, -, -⟩ := hrun
    obtain rfl := Option.some.inj (hf.symm.trans hfile)
    exact ⟨Except.ok.inj (hd.symm.trans hdecode), hs.trans hsame⟩
  · intro e s' hfails
    refine hfails (fun _ => rfl) (fun _ => rfl) _ m.stored _
      ⟨(h.named m hm).2, hfile, rfl, rfl, rfl⟩ hdecode
      ⟨(h.named m hm).1, hfind, hkind, rfl, rfl⟩ ?_
    exact ⟨hconsistent.suffix, rfl, hconsistent.component, hconsistent.identity,
      hconsistent.digest⟩

/-- The handle of a live artifact keeps the inventory out. -/
theorem Inventory.read_held (h : Inventory C s₀ s all live) {s₁ : Store H} (hs : Same s s₁)
    (hm : m ∈ live) : Act.wp (readMetadata C (fun _ => none) (fun _ => none) m.fileName)
      (fun _ _ => False) (fun _ _ => True) s₁ := by
  obtain ⟨hive, hfind, -⟩ := h.held m (h.alive m hm)
  obtain ⟨identity, hfile⟩ := h.written m (h.alive m hm)
  rw [if_pos hm] at hfind
  rw [← hs.files] at hfind hfile
  refine Act.wp_mono (readMetadata_spec C _ _ m.fileName s₁) ?_ fun _ _ _ => trivial
  intro result s' hrun
  obtain ⟨-, f, g, hf, hd, hg, hadmits⟩ := hrun
  obtain rfl := Option.some.inj (hf.symm.trans hfile)
  obtain rfl : m.stored = result := Except.ok.inj ((C.decode_encode m).symm.trans hd)
  obtain rfl := Option.some.inj (hg.symm.trans hfind)
  -- The artifact may delete, and the inventory shares reading only.
  have hkept : SharedFile.admits { body := hive, handles := [artifactHandle] }
      (accessRights inventoryAccess) (shareRights FILE_SHARE_READ) = false :=
    SharedFile.not_admits (List.mem_singleton_self artifactHandle) rfl
  rw [hkept] at hadmits
  cases hadmits

theorem Inventory.readAll_free (h : Inventory C s₀ s all []) :
    ∀ (todo : List SnapshotMetadata) (s₁ : Store H), (∀ m ∈ todo, m ∈ all) → Same s s₁ →
      Act.wp (readAll C (fun _ => none) (fun _ => none) (todo.map (·.fileName)))
        (fun results _ => results = todo.map (·.stored)) (fun _ _ => False) s₁ := by
  intro todo
  induction todo with
  | nil => exact fun _ _ _ => (Act.wp_ret _).mpr rfl
  | cons m rest ih =>
    intro s₁ hall hs
    rw [List.map_cons, readAll, Act.wp_bind]
    refine Act.wp_mono (h.read_free hs (hall m (List.mem_cons_self ..)) List.not_mem_nil) ?_
      fun _ _ h => h
    intro _ s₂ hrun
    obtain ⟨rfl, h₂⟩ := hrun
    rw [Act.wp_bind]
    refine Act.wp_mono (ih s₂ (fun m' hm' => hall m' (List.mem_cons_of_mem _ hm')) h₂) ?_
      fun _ _ h => h
    intro _ s₃ hresult
    obtain rfl := hresult
    exact (Act.wp_pure _).mpr rfl

theorem Inventory.readAll_held (h : Inventory C s₀ s all live) (hm : m ∈ live) :
    ∀ (todo : List String) (s₁ : Store H), m.fileName ∈ todo → Same s s₁ →
      Act.wp (readAll C (fun _ => none) (fun _ => none) todo) (fun _ _ => False)
        (fun _ _ => True) s₁ := by
  intro todo
  induction todo with
  | nil => exact fun _ hin => nomatch hin
  | cons text rest ih =>
    intro s₁ hin hs
    rw [readAll, Act.wp_bind]
    by_cases he : m.fileName = text
    · subst he
      exact Act.wp_mono (h.read_held hs hm) (fun _ _ h => h.elim) fun _ _ h => h
    · have hrest : m.fileName ∈ rest := (List.mem_cons.mp hin).resolve_left he
      refine Act.wp_mono (readMetadata_spec C _ _ text s₁) ?_ fun _ _ _ => trivial
      intro _ s₂ hrun
      obtain ⟨h₂, -⟩ := hrun
      rw [Act.wp_bind]
      exact Act.wp_mono (ih s₂ hrest (hs.trans h₂)) (fun _ _ h => h.elim) fun _ _ h => h

theorem sortLatestFirst_perm (results : List SnapshotMetadata) :
    (sortLatestFirst results).Perm results := List.perm_insertionSort _ results

theorem sortLatestFirst_pairwise (results : List SnapshotMetadata) :
    (sortLatestFirst results).Pairwise fun a b => b.timestamp ≤ a.timestamp := by
  refine (@List.pairwise_insertionSort _ (fun a b : SnapshotMetadata => b.timestamp ≤ a.timestamp)
    _ ⟨fun a b => ?_⟩ ⟨fun a b c hab hbc => ?_⟩ results)
  · exact le_total b.timestamp a.timestamp
  · exact hbc.trans hab

end Listing

/-! ## 5. The listing and the handles -/

/-- `list_snapshots` answers the metadata of all snapshots, each once, the latest first. -/
def Agrees (C : MetadataCodec) (s : Store H) (all : List SnapshotMetadata) : Prop :=
  ∃ results, (listSnapshots C (fun _ => none) (fun _ => none) none s).1 = .ok results ∧
    results.Perm (all.map (·.stored)) ∧
    results.Pairwise fun a b => b.timestamp ≤ a.timestamp

/-- A listing that no call fails in, by what its loop does. -/
theorem Inventory.list (h : Inventory C s₀ s all live) (h₀ : NoMetadata s₀)
    (hroot : H.rootCreated = false) {Q : List SnapshotMetadata → Prop} {E : SnapshotError → Store H → Prop}
    (hread : ∀ s', Inventory C s₀ s' all live → ∀ texts s₁, texts.Perm (all.map (·.fileName)) →
      Same s' s₁ → Act.wp (readAll C (fun _ => none) (fun _ => none) texts)
        (fun results _ => Q (sortLatestFirst results)) E s₁) :
    Act.wp (listSnapshots C (fun _ => none) (fun _ => none) none) (fun results _ => Q results) E s := by
  rw [listSnapshots, Act.wp_bind, Act.wp_update, Act.wp_bind, Act.wp_mapErr]
  refine wp_mayFail nofun fun _ => ?_
  rw [Act.wp_bind, Act.wp_mapErr]
  have hreset : Inventory C s₀ { s with clock := 0, removalFailed := false } all live :=
    ⟨h.names, h.plain, h.held, h.written, h.named, h.hives, h.apart, h.alive, h.once⟩
  refine Act.wp_mono (hreset.listed h₀ hroot) ?_ fun _ _ h => h.elim
  intro names s₁ hrun
  obtain ⟨h₁, hperm⟩ := hrun
  rw [Act.wp_bind]
  refine Act.wp_mono (hread _ hreset _ s₁ hperm h₁) (fun results s₂ hq => ?_) fun _ _ h => h
  exact (Act.wp_pure _).mpr hq

/-- With nothing alive the listing is complete. -/
theorem Inventory.agrees (h : Inventory C s₀ s all []) (h₀ : NoMetadata s₀)
    (hroot : H.rootCreated = false) : Agrees C s all := by
  have hlist : Act.wp (listSnapshots C (fun _ => none) (fun _ => none) none)
      (fun results _ => results.Perm (all.map (·.stored)) ∧
        results.Pairwise fun a b => b.timestamp ≤ a.timestamp) (fun _ _ => False) s := by
    refine h.list h₀ hroot fun s' h' texts s₁ hperm hs => ?_
    obtain ⟨todo, rfl, htodo⟩ : ∃ todo : List SnapshotMetadata,
        texts = todo.map (·.fileName) ∧ todo.Perm all := by
      have hcomp := congrFun (congrFun (List.eq_map_comp_perm
        (fun m : SnapshotMetadata => m.fileName)) texts) all
      exact hcomp.symm.mp hperm
    refine Act.wp_mono (h'.readAll_free todo s₁ (fun m hm => htodo.subset hm) hs) ?_
      fun _ _ h => h
    intro _ s₂ hresult
    obtain rfl := hresult
    exact ⟨(sortLatestFirst_perm _).trans (htodo.map _), sortLatestFirst_pairwise _⟩
  unfold Act.wp at hlist
  split at hlist
  · next results s' hrun => exact ⟨results, by rw [hrun], hlist⟩
  · exact hlist.elim

/-- Where the listing always fails it does not agree. -/
theorem not_agrees (h : Act.wp (listSnapshots C (fun _ => none) (fun _ => none) none)
    (fun _ _ => False) (fun _ _ => True) s) : ¬ Agrees C s all := by
  intro hrun
  obtain ⟨results, hok, -⟩ := hrun
  unfold Act.wp at h
  split at h
  · exact h
  · next e s' hrun =>
    rw [hrun] at hok
    cases hok

/-- With something alive there is no listing. -/
theorem Inventory.hidden (h : Inventory C s₀ s all live) (h₀ : NoMetadata s₀)
    (hroot : H.rootCreated = false) (hm : m ∈ live) : ¬ Agrees C s all := by
  refine not_agrees (h.list h₀ hroot fun s' h' texts s₁ hperm hs => ?_)
  refine h'.readAll_held hm texts s₁ (hperm.symm.subset ?_) hs
  exact List.mem_map_of_mem (h'.alive m hm)

/-- Beside the handle that made the storage root the directory is not opened again. -/
theorem root_hides (hroot : H.rootCreated = true) (s : Store H) : ¬ Agrees C s all := by
  have hclosed : H.reopens = false := by
    rw [← Bool.not_eq_true, H.reopens_iff, hroot]
    decide
  refine not_agrees ?_
  rw [listSnapshots, Act.wp_bind, Act.wp_update, Act.wp_bind, Act.wp_mapErr]
  refine wp_mayFail nofun fun _ => ?_
  rw [Act.wp_bind, Act.wp_mapErr, entries, Act.wp_bind, openAbsoluteExisting]
  refine wp_storageCall (fun _ _ => trivial) ?_
  rw [Act.wp_of]
  simp only [hclosed, Bool.false_eq_true, if_false]

/-- **After every run** of successful snapshots and drops, the listing is complete if and only if
none of the returned values is alive and the storage root was there before this process. -/
theorem listing_agrees_iff (h₀ : NoMetadata s₀) (h : Runs C s₀ s all live) :
    Agrees C s all ↔ live = [] ∧ H.rootCreated = false := by
  have hinventory := runs_inventory h₀ h
  constructor
  · intro hagrees
    have hroot : H.rootCreated = false := by
      by_contra hmade
      exact root_hides (by simpa using hmade) s hagrees
    refine ⟨?_, hroot⟩
    cases live with
    | nil => rfl
    | cons m rest => exact absurd hagrees (hinventory.hidden h₀ hroot (List.mem_cons_self ..))
  · intro ⟨hdropped, hroot⟩
    obtain rfl := hdropped
    exact hinventory.agrees h₀ hroot

section Sample

/-- Upper case, on the units of ASCII letters. -/
def sampleUp (u : UInt16) : UInt16 := if 0x61 ≤ u && u ≤ 0x7A then u - 32 else u

def sampleHost : Host where
  up := sampleUp
  processId := 7
  directory := encodeWide "C:\\ProgramData\\WinProfile\\Snapshots"
  stamp := fun _ => "19700101T000000.000000Z"
  sha256 := fun _ => "7323e77d1f51ee69b36ef874d2ee6f85f322e12a46f6281f9bd29c8dbb829460"
  arrange := id
  arrange_perm := List.Perm.refl
  lower := toAsciiLowercase

def sampleRequest : SnapshotRequest where
  subkey := "SOFTWARE\\Microsoft\\Windows NT\\CurrentVersion\\ProfileList\\S-1-5-21-1-2-3-1001"
  sid := "S-1-5-21-1-2-3-1001"
  profilePath := "C:\\Users\\a"
  reason := "Pre-repair"

/-- A hive of four bytes, saved at the start of the epoch. -/
def sampleFate : Fate where
  save := .ok [0x72, 0x65, 0x67, 0x66]
  identity := fun _ => ⟨5, 9⟩

/-- What is stored of the sample snapshot. -/
def sampleMetadata : SnapshotMetadata :=
  (metadataOf sampleFate sampleRequest sampleHost 0
    "snap_19700101T000000.000000Z_7_0_S-1-5-21-1-2-3-1001.hiv"
    (⟨1, [], ⟨5, 9⟩⟩, sampleHost.sha256 [0x72, 0x65, 0x67, 0x66])).stored

/-- What `serde_json` writes for it. -/
@[irreducible] def sampleMetadataJson : Bytes :=
  ("\x7b\n  \"id\": \"0_7_0\",\n  \"timestamp\": \"1970-01-01T00:00:00Z\",\n" ++
    "  \"sid\": \"S-1-5-21-1-2-3-1001\",\n  \"profile_path\": \"C:\\\\Users\\\\a\",\n" ++
    "  \"registry_key_path\": \"HKLM\\\\SOFTWARE\\\\Microsoft\\\\Windows NT" ++
    "\\\\CurrentVersion\\\\ProfileList\\\\S-1-5-21-1-2-3-1001\",\n" ++
    "  \"snapshot_file_name\": \"snap_19700101T000000.000000Z_7_0_S-1-5-21-1-2-3-1001.hiv\",\n" ++
    "  \"sha256\": \"7323e77d1f51ee69b36ef874d2ee6f85f322e12a46f6281f9bd29c8dbb829460\",\n" ++
    "  \"file_volume_serial\": 5,\n  \"file_index\": 9,\n" ++
    "  \"reason\": \"Pre-repair\"\n\x7d").toUTF8.data.toList

def SnapshotMetadata.numbers (m : SnapshotMetadata) : List Nat :=
  [m.timestamp.natAbs, if m.timestamp < 0 then 1 else 0, m.fileVolumeSerial.toNat,
    m.fileIndex.toNat] ++ (putText m.id ++ (putText m.sid ++ (putText m.profilePath ++
      (putText m.registryKeyPath ++ (putText m.snapshotFileName ++ (putText m.sha256 ++
        putText m.reason))))))

def SnapshotMetadata.ofNumbers : List Nat → Option SnapshotMetadata
  | time :: sign :: volume :: index :: rest =>
    let id := getText rest
    let sid := getText id.2
    let profilePath := getText sid.2
    let registryKeyPath := getText profilePath.2
    let snapshotFileName := getText registryKeyPath.2
    let sha256 := getText snapshotFileName.2
    let reason := getText sha256.2
    some {
      id := id.1
      timestamp := if sign = 1 then -time else time
      sid := sid.1
      profilePath := profilePath.1
      registryKeyPath := registryKeyPath.1
      snapshotFileName := snapshotFileName.1
      sha256 := sha256.1
      fileVolumeSerial := UInt32.ofNat volume
      fileIndex := UInt64.ofNat index
      reason := reason.1
      protectedArtifact := none }
  | _ => none

theorem ofNumbers_numbers (m : SnapshotMetadata) :
    SnapshotMetadata.ofNumbers m.numbers = some m.stored := by
  have hlast : getText (putText m.reason) = (m.reason, []) := by
    rw [← getText_put m.reason [], List.append_nil]
  have htime : (if (if m.timestamp < 0 then 1 else 0) = 1 then -(m.timestamp.natAbs : Int)
      else m.timestamp.natAbs) = m.timestamp := by
    split <;> omega
  simp only [SnapshotMetadata.numbers, List.cons_append, List.nil_append,
    SnapshotMetadata.ofNumbers, getText_put, hlast, htime, UInt32.ofNat_toNat, UInt64.ofNat_toNat]
  rfl

/-- `serde_json` on the sample metadata; other metadata as their numbers. -/
def sampleMetadataCodec : MetadataCodec where
  encode m := if m.stored = sampleMetadata then sampleMetadataJson else m.numbers.flatMap putNumber
  decode bytes :=
    if bytes = sampleMetadataJson then .ok sampleMetadata
    else match SnapshotMetadata.ofNumbers (getNumbers 0 bytes) with
      | some m => .ok m
      | none => .error "not metadata"
  decode_encode m := by
    by_cases hm : m.stored = sampleMetadata
    · rw [if_pos hm, if_pos rfl, hm]
    · have hne : m.numbers.flatMap putNumber ≠ sampleMetadataJson := fun heq => by
        have hbrace : (0x7b : UInt8) ∈ m.numbers.flatMap putNumber := by
          rw [heq]
          decide +kernel
        exact absurd (le_one_of_mem_put hbrace) (by decide)
      rw [if_neg hm, if_neg hne, getNumbers_put, ofNumbers_numbers]

theorem sampleHost_noNames :
    (foldedNames sampleHost.fold ([] : List (Wide × SharedFile StoredFile))).Nodup := List.nodup_nil

/-- An empty directory. -/
def sampleStore : Store sampleHost where
  files := ⟨[], sampleHost_noNames⟩

theorem sampleStore_noMetadata : NoMetadata sampleStore where
  names := rfl
  plain := fun _ _ h => nomatch h

theorem sample_created : ∃ m s', createRegistrySnapshot sampleMetadataCodec sampleFate sampleRequest
    sampleStore = (.ok m, s') := by
  have hok : (createRegistrySnapshot sampleMetadataCodec sampleFate sampleRequest
      sampleStore).1.isOk = true := by decide +kernel
  rcases hrun : createRegistrySnapshot sampleMetadataCodec sampleFate sampleRequest sampleStore
    with ⟨_ | m, s'⟩
  · rw [hrun] at hok
    cases hok
  · exact ⟨m, s', rfl⟩

/-- One snapshot, dropped, is listed. -/
theorem listing_agrees_iff_sample : ∃ m s', createRegistrySnapshot sampleMetadataCodec sampleFate
    sampleRequest sampleStore = (.ok m, s') ∧
      Agrees sampleMetadataCodec (m.release s') [m] := by
  obtain ⟨m, s', hok⟩ := sample_created
  have hstart : Runs sampleMetadataCodec sampleStore sampleStore [] [] := .start
  have hrun := (hstart.create sampleFate sampleRequest hok).drop (List.mem_singleton_self m)
  refine ⟨m, s', hok, (listing_agrees_iff sampleStore_noMetadata hrun).mpr ⟨?_, rfl⟩⟩
  rw [List.erase_cons_head]

/-- One snapshot, still alive, hides the inventory. -/
theorem live_snapshot_hides_inventory : ∃ m s', createRegistrySnapshot sampleMetadataCodec
    sampleFate sampleRequest sampleStore = (.ok m, s') ∧
      ¬ Agrees sampleMetadataCodec s' [m] := by
  obtain ⟨m, s', hok⟩ := sample_created
  have hstart : Runs sampleMetadataCodec sampleStore sampleStore [] [] := .start
  have hrun := hstart.create sampleFate sampleRequest hok
  exact ⟨m, s', hok, (runs_inventory sampleStore_noMetadata hrun).hidden sampleStore_noMetadata
    rfl (List.mem_singleton_self m)⟩

end Sample

end WinProfile.Snapshot
