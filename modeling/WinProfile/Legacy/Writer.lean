/-
  File:      WinProfile/Legacy/Writer.lean
  Subject:   The bootstrap journal as `write_state` makes it: one file for every record, under the
             name of the record, in the order of the protocol.

  * `Follows`, `Published` -- the order of the protocol; `pendingOf_published`: what the reader
    makes of records that were published in it.
  * `Journal`, `Temp` -- the files, and the one that is being written.
-/
import WinProfile.Legacy.Reader
import WinProfile.Legacy.Rules

namespace WinProfile.Legacy

/-! ## 1. The order of the protocol -/

/-- The last record, unless it completes its migration. -/
def openOf (records : List MigrationStateRecord) : Option MigrationStateRecord :=
  records.getLast?.filter fun u => u.phase ≠ .done

/-- The record `r` comes next: it begins a migration, with an id of its own, when none is open, or
it is the next phase of the one that is. -/
inductive Follows (records : List MigrationStateRecord) (r : MigrationStateRecord) : Prop where
  | prepared (hopen : openOf records = none) (hphase : r.phase = .prepared) (hschema : r.schema = 1)
      (hid : ∀ x ∈ records, x.migrationId ≠ r.migrationId)
  | next {u : MigrationStateRecord} (hlast : records.getLast? = some u)
      (hphase : u.phase.next = some r.phase) (heq : u = { r with phase := u.phase })

/-- Records that were published one after the other. -/
inductive Published : List MigrationStateRecord → Prop where
  | start : Published []
  | record {records : List MigrationStateRecord} {r : MigrationStateRecord}
      (h : Published records) (hr : Follows records r) : Published (records ++ [r])

/-- Complete migrations, and the chain of `u` after them. -/
structure EndsIn (records before : List MigrationStateRecord) (u : MigrationStateRecord) :
    Prop where
  eq : records = before ++ chainTo u
  schema : u.schema = 1
  others : ∀ x ∈ before, x.migrationId ≠ u.migrationId
  done : AllDone before fun _ => True

section Order

variable {records before : List MigrationStateRecord} {u r : MigrationStateRecord} {id : String}

theorem openOf_eq_none : openOf records = none ↔ ∀ u, records.getLast? = some u → u.phase = .done := by
  unfold openOf
  cases records.getLast? with
  | none => simp
  | some u => simp [Option.filter]

theorem openOf_eq_some : openOf records = some u ↔ records.getLast? = some u ∧ u.phase ≠ .done := by
  simp [openOf, Option.filter_eq_some_iff]

namespace EndsIn

theorem last (h : EndsIn records before u) : records.getLast? = some u := by
  rw [h.eq, List.getLast?_append, getLast?_chainTo, Option.some_or]

theorem own (h : EndsIn records before u) : recordsOf u.migrationId records = chainTo u := by
  have hbefore : recordsOf u.migrationId before = [] := by
    refine List.filter_eq_nil_iff.mpr fun x hx => ?_
    simpa using h.others x hx
  have hchain : recordsOf u.migrationId (chainTo u) = chainTo u := by
    refine List.filter_eq_self.mpr fun x hx => ?_
    simpa using migrationId_of_mem_chainTo hx
  rw [h.eq, recordsOf, List.filter_append]
  exact (congrArg₂ (· ++ ·) hbefore hchain).trans (List.nil_append _)

theorem other (h : EndsIn records before u) (hid : id ≠ u.migrationId) :
    recordsOf id records = recordsOf id before := by
  have hchain : recordsOf id (chainTo u) = [] := by
    refine List.filter_eq_nil_iff.mpr fun x hx => ?_
    simpa [migrationId_of_mem_chainTo hx] using Ne.symm hid
  rw [h.eq, recordsOf, List.filter_append]
  exact (congrArg (recordsOf id before ++ ·) hchain).trans (List.append_nil _)

theorem reached (h : EndsIn records before u) : Reached records u := by
  rw [Reached, h.own]

theorem allDone (h : EndsIn records before u) : AllDone records fun id => id ≠ u.migrationId := by
  intro id hid hne
  rw [h.other hid] at hne
  obtain ⟨v, rfl, hdone, hv⟩ := h.done id trivial hne
  refine ⟨v, rfl, hdone, ?_⟩
  rw [Reached, h.other hid]
  exact hv

theorem complete (h : EndsIn records before u) (hdone : u.phase = .done) :
    AllDone records fun _ => True := by
  intro id _ hne
  by_cases hid : id = u.migrationId
  · exact ⟨u, hid.symm, hdone, h.reached⟩
  · exact h.allDone id hid hne

end EndsIn

/-- **Published records** are complete migrations and at most one chain that is not. -/
theorem Published.endsIn (h : Published records) : records = [] ∨ ∃ before u, EndsIn records before u := by
  induction h with
  | start => exact .inl rfl
  | @record records r h hr ih =>
    refine .inr ?_
    cases hr with
    | prepared hopen hphase hschema hid =>
      refine ⟨records, r, ⟨by rw [chainTo_prepared hphase], hschema, hid, ?_⟩⟩
      rcases ih with rfl | ⟨before, u, hends⟩
      · exact fun id _ hne => absurd rfl hne
      · exact hends.complete (openOf_eq_none.mp hopen u hends.last)
    | @next u hlast hphase heq =>
      rcases ih with rfl | ⟨before, v, hends⟩
      · cases hlast
      · rw [hends.last, Option.some.injEq] at hlast
        subst hlast
        have hid : v.migrationId = r.migrationId := by rw [heq]
        refine ⟨before, r, ⟨?_, ?_, fun x hx => hid ▸ hends.others x hx, hends.done⟩⟩
        · rw [chainTo_next hphase heq, hends.eq, List.append_assoc]
        · rw [← hends.schema, heq]

theorem Follows.schema (h : Follows records r) (hrecords : ∀ x ∈ records, x.schema = 1) :
    r.schema = 1 := by
  cases h with
  | prepared hopen hphase hschema hid => exact hschema
  | @next u hlast hphase heq =>
    have hu := hrecords u (List.mem_of_getLast? hlast)
    rwa [heq] at hu

theorem Published.schema (h : Published records) : ∀ x ∈ records, x.schema = 1 := by
  induction h with
  | start => exact nofun
  | record h hr ih =>
    intro x hx
    rcases List.mem_append.mp hx with hx | hx
    · exact ih x hx
    · rw [List.mem_singleton.mp hx]
      exact hr.schema ih

/-- **The reader** finds the open migration of published records. -/
theorem pendingOf_published (h : Published records) : pendingOf records = .ok (openOf records) := by
  rcases h.endsIn with rfl | ⟨before, u, hends⟩
  · rfl
  · by_cases hdone : u.phase = .done
    · rw [openOf_eq_none.mpr fun v hv => by rw [hends.last] at hv; cases hv; exact hdone]
      exact (pendingOf_none h.schema).mpr (hends.complete hdone)
    · rw [openOf_eq_some.mpr ⟨hends.last, hdone⟩]
      exact (pendingOf_some h.schema).mpr ⟨hdone, hends.reached, hends.allDone⟩

end Order

/-! ## 2. The files -/

variable (C : StateCodec)

/-- A name that the reader does not look into. -/
def IsPlain (name : Wide) : Prop := ∀ text, decodeUtf16 name = some text → isStateName text = false

/-- **The bootstrap directory** with these records: serial numbers and names are distinct, and
every state file is sound. -/
structure Journal (w : World) (records : List MigrationStateRecord) : Prop where
  serials : (w.files.map (·.serial)).Nodup
  below : ∀ f ∈ w.files, f.serial < w.nextSerial
  names : (w.files.map (·.name)).Nodup
  sound : Sound C w
  records : recordsIn C w = records

/-- The file with this serial number stands between the others, has this content, and a name that
the reader does not look into. -/
structure TempAt (w : World) (serial : Nat) (content : Bytes) (before : List StateFile)
    (f : StateFile) (after : List StateFile) : Prop where
  files : w.files = before ++ f :: after
  serial_eq : f.serial = serial
  kind : f.kind = .file content
  plain : IsPlain f.name
  others : ∀ g ∈ before ++ after, g.serial ≠ serial

def Temp (w : World) (serial : Nat) (content : Bytes) : Prop :=
  ∃ before f after, TempAt w serial content before f after

section Files

variable {C} {w w' : World} {records : List MigrationStateRecord} {r : MigrationStateRecord}
  {serial : Nat} {content bytes : Bytes} {name : Wide} {f : StateFile} {before after : List StateFile}

theorem isPlain_encodeWide {text : String} (h : isStateName text = false) :
    IsPlain (encodeWide text) := by
  intro text' htext
  rw [decodeUtf16_encodeWide, Option.some.injEq] at htext
  rw [← htext, h]

/-- A temporary file of `write_state` has no name of a state file. -/
theorem isStateName_temp (id : String) : isStateName ("." ++ id) = false := by
  have hfront : startsWith STATE_PREFIX ("." ++ id) = false := by
    rw [startsWith, String.toList_append]
    rfl
  rw [isStateName, hfront, Bool.false_and]

theorem recordAt_plain (h : IsPlain f.name) : recordAt C f = none := by
  unfold recordAt
  split
  next text bytes htext hkind => rw [if_neg (by simp [h text htext])]
  next => rfl

theorem isSound_plain (h : IsPlain f.name) : f.IsSound C := by
  intro text htext hstate
  rw [h text htext] at hstate
  cases hstate

theorem recordAt_state (hname : f.name = encodeWide (stateFileName r))
    (hkind : f.kind = .file (C.encode r)) : recordAt C f = some r := by
  unfold recordAt
  simp only [hname, decodeUtf16_encodeWide, hkind, isStateName_stateFileName, if_true,
    C.decode_encode]
  rfl

theorem isSound_state (hname : f.name = encodeWide (stateFileName r))
    (hkind : f.kind = .file (C.encode r)) (hschema : r.schema = 1) : f.IsSound C := by
  intro text htext _
  rw [hname, decodeUtf16_encodeWide, Option.some.injEq] at htext
  exact ⟨_, r, hkind, C.decode_encode r, hschema, htext⟩

/-- Only the files and their serial numbers count. -/
theorem Journal.of_files (h : Journal C w records) (hfiles : w'.files = w.files)
    (hserial : w'.nextSerial = w.nextSerial) : Journal C w' records where
  serials := by rw [hfiles]; exact h.serials
  below := by rw [hfiles, hserial]; exact h.below
  names := by rw [hfiles]; exact h.names
  sound := fun f hf => h.sound f (hfiles ▸ hf)
  records := by rw [← h.records, recordsIn, recordsIn, hfiles]

theorem not_hasFile (h : w.hasFile name = false) : ∀ f ∈ w.files, f.name ≠ name := by
  simpa [World.hasFile] using h

/-! ### Created -/

/-- What `createEntry` makes. -/
def World.created (w : World) (name : Wide) : World :=
  { w with files := w.files ++ [⟨name, w.nextSerial, .file []⟩], nextSerial := w.nextSerial + 1 }

theorem Journal.created (h : Journal C w records) (hfree : w.hasFile name = false)
    (hplain : IsPlain name) : Journal C (w.created name) records where
  serials := by
    rw [World.created, List.map_append, List.nodup_append]
    refine ⟨h.serials, by simp, fun a ha b hb heq => ?_⟩
    obtain ⟨f, hf, rfl⟩ := List.mem_map.mp ha
    have hlt := h.below f hf
    simp only [List.map_cons, List.map_nil, List.mem_singleton] at hb
    omega
  below := by
    intro f hf
    rcases List.mem_append.mp hf with hf | hf
    · exact (h.below f hf).trans (Nat.lt_succ_self _)
    · rw [List.mem_singleton.mp hf]
      exact Nat.lt_succ_self _
  names := by
    rw [World.created, List.map_append, List.nodup_append]
    refine ⟨h.names, by simp, fun a ha b hb heq => ?_⟩
    obtain ⟨f, hf, rfl⟩ := List.mem_map.mp ha
    simp only [List.map_cons, List.map_nil, List.mem_singleton] at hb
    exact not_hasFile hfree f hf (heq.trans hb)
  sound := by
    intro f hf
    rcases List.mem_append.mp hf with hf | hf
    · exact h.sound f hf
    · rw [List.mem_singleton.mp hf]
      exact isSound_plain hplain
  records := by
    have hlast : recordAt C ⟨name, w.nextSerial, .file []⟩ = none := recordAt_plain hplain
    rw [recordsIn, World.created, List.filterMap_append, ← recordsIn, h.records]
    simp [hlast]

theorem Journal.temp_created (h : Journal C w records) (hplain : IsPlain name) :
    Temp (w.created name) w.nextSerial [] :=
  ⟨w.files, _, [], rfl, rfl, rfl, hplain, fun g hg =>
    (h.below g (by simpa using hg)).ne⟩

/-! ### Appended to, removed, published -/

theorem TempAt.append (h : TempAt w serial content before f after) :
    (w.append serial bytes).files = before ++ { f with kind := .file (content ++ bytes) } :: after := by
  have hother : ∀ l : List StateFile, (∀ g ∈ l, g.serial ≠ serial) →
      l.map (fun g => if g.serial = serial then { g with kind := g.kind.append bytes } else g) = l :=
    fun l hl => (List.map_congr_left fun g hg => if_neg (hl g hg)).trans (List.map_id l)
  rw [World.append, h.files, List.map_append, List.map_cons,
    hother before fun g hg => h.others g (List.mem_append_left _ hg),
    hother after fun g hg => h.others g (List.mem_append_right _ hg), if_pos h.serial_eq, h.kind]
  rfl

theorem TempAt.deleted (h : TempAt w serial content before f after) :
    (w.deleted serial).files = before ++ after := by
  have hother : (before ++ after).filter (fun g => g.serial ≠ serial) = before ++ after :=
    List.filter_eq_self.mpr fun g hg => by simpa using h.others g hg
  rw [List.filter_append] at hother
  rw [World.deleted, h.files, List.filter_append, List.filter_cons_of_neg (by simp [h.serial_eq])]
  exact hother

theorem TempAt.published (h : TempAt w serial content before f after) :
    (w.published serial name).files = before ++ after ++ [{ f with name }] := by
  have hnone : ∀ l : List StateFile, (∀ g ∈ l, g.serial ≠ serial) →
      l.filter (fun g => g.serial = serial) = [] := fun l hl =>
    List.filter_eq_nil_iff.mpr fun g hg => by simpa using hl g hg
  have hdeleted : w.files.filter (fun g => g.serial ≠ serial) = before ++ after := h.deleted
  rw [World.published, hdeleted, h.files, List.filter_append,
    hnone before fun g hg => h.others g (List.mem_append_left _ hg),
    List.filter_cons_of_pos (by simp [h.serial_eq]),
    hnone after fun g hg => h.others g (List.mem_append_right _ hg)]
  rfl

theorem World.deleted_published (w : World) (serial : Nat) (name : Wide) :
    (w.published serial name).deleted serial = w.deleted serial := by
  have hmoved : ((w.files.filter fun f => f.serial = serial).map fun f => { f with name }).filter
      (fun f => f.serial ≠ serial) = [] := by
    refine List.filter_eq_nil_iff.mpr fun g hg => ?_
    obtain ⟨f, hf, rfl⟩ := List.mem_map.mp hg
    simpa using (List.mem_filter.mp hf).2
  simp only [World.deleted, World.published, List.filter_append, hmoved, List.append_nil,
    List.filter_filter, Bool.and_self]

/-- The other files hold the records. -/
theorem Journal.others (h : Journal C w records) (ht : TempAt w serial content before f after) :
    (before ++ after).filterMap (recordAt C) = records := by
  rw [← h.records, recordsIn, ht.files, List.filterMap_append, List.filterMap_append,
    List.filterMap_cons_none (recordAt_plain ht.plain)]

theorem TempAt.mem (ht : TempAt w serial content before f after) {g : StateFile}
    (hg : g ∈ before ++ after) : g ∈ w.files := by
  rw [ht.files]
  rcases List.mem_append.mp hg with hg | hg
  · exact List.mem_append_left _ hg
  · exact List.mem_append_right _ (List.mem_cons_of_mem _ hg)

theorem TempAt.sublist (ht : TempAt w serial content before f after) :
    (before ++ after).Sublist w.files := by
  rw [ht.files]
  exact (List.sublist_cons_self f after).append_left before

theorem Journal.deleted (h : Journal C w records) (ht : Temp w serial content) :
    Journal C (w.deleted serial) records := by
  obtain ⟨before, f, after, ht⟩ := ht
  have hfiles := ht.deleted
  refine ⟨?_, fun g hg => ?_, ?_, fun g hg => ?_, ?_⟩
  · rw [hfiles]
    exact h.serials.sublist (ht.sublist.map _)
  · exact h.below g (ht.mem (hfiles ▸ hg))
  · rw [hfiles]
    exact h.names.sublist (ht.sublist.map _)
  · exact h.sound g (ht.mem (hfiles ▸ hg))
  · rw [recordsIn, hfiles, h.others ht]

theorem Temp.append (ht : Temp w serial content) :
    Temp (w.append serial bytes) serial (content ++ bytes) := by
  obtain ⟨before, f, after, ht⟩ := ht
  exact ⟨before, _, after, ht.append, ht.serial_eq, rfl, ht.plain, ht.others⟩

theorem Journal.append (h : Journal C w records) (ht : Temp w serial content) :
    Journal C (w.append serial bytes) records := by
  obtain ⟨before, f, after, ht⟩ := ht
  have hfiles : (w.append serial bytes).files = _ := ht.append
  have hmem : ∀ g ∈ (w.append serial bytes).files,
      g ∈ before ++ after ∨ g = { f with kind := .file (content ++ bytes) } := fun g hg => by
    rw [hfiles] at hg
    simp only [List.mem_append, List.mem_cons] at hg ⊢
    tauto
  refine ⟨?_, fun g hg => ?_, ?_, fun g hg => ?_, ?_⟩
  · rw [hfiles]
    simpa [ht.files] using h.serials
  · rcases hmem g hg with hg | rfl
    · exact h.below g (ht.mem hg)
    · exact h.below f (by simp [ht.files])
  · rw [hfiles]
    simpa [ht.files] using h.names
  · rcases hmem g hg with hg | rfl
    · exact h.sound g (ht.mem hg)
    · exact isSound_plain ht.plain
  · have hnone : recordAt C { f with kind := .file (content ++ bytes) } = none :=
      recordAt_plain ht.plain
    rw [recordsIn, hfiles, ← h.others ht, List.filterMap_append, List.filterMap_append,
      List.filterMap_cons_none hnone]

/-- **The publication** of a file that holds `r` adds `r` to the records. -/
theorem Journal.published (h : Journal C w records) (ht : Temp w serial (C.encode r))
    (hfree : w.hasFile (encodeWide (stateFileName r)) = false) (hschema : r.schema = 1) :
    Journal C (w.published serial (encodeWide (stateFileName r))) (records ++ [r]) := by
  obtain ⟨before, f, after, ht⟩ := ht
  have hfiles : (w.published serial (encodeWide (stateFileName r))).files = _ := ht.published
  have hmem : ∀ g ∈ (w.published serial (encodeWide (stateFileName r))).files,
      g ∈ before ++ after ∨ g = { f with name := encodeWide (stateFileName r) } := fun g hg => by
    rw [hfiles] at hg
    simpa [or_assoc] using hg
  refine ⟨?_, fun g hg => ?_, ?_, fun g hg => ?_, ?_⟩
  · rw [hfiles, List.map_append, List.nodup_append]
    refine ⟨h.serials.sublist (ht.sublist.map _), by simp, fun a ha b hb heq => ?_⟩
    obtain ⟨g, hg, rfl⟩ := List.mem_map.mp ha
    simp only [List.map_cons, List.map_nil, List.mem_singleton] at hb
    exact ht.others g hg (heq.trans (hb.trans ht.serial_eq))
  · rcases hmem g hg with hg | rfl
    · exact h.below g (ht.mem hg)
    · exact h.below f (by simp [ht.files])
  · rw [hfiles, List.map_append, List.nodup_append]
    refine ⟨h.names.sublist (ht.sublist.map _), by simp, fun a ha b hb heq => ?_⟩
    obtain ⟨g, hg, rfl⟩ := List.mem_map.mp ha
    simp only [List.map_cons, List.map_nil, List.mem_singleton] at hb
    exact not_hasFile hfree g (ht.mem hg) (heq.trans hb)
  · rcases hmem g hg with hg | rfl
    · exact h.sound g (ht.mem hg)
    · exact isSound_state (r := r) rfl ht.kind hschema
  · have hlast : recordAt C { f with name := encodeWide (stateFileName r) } = some r :=
      recordAt_state (r := r) rfl ht.kind
    rw [recordsIn, hfiles, List.filterMap_append, h.others ht]
    simp [hlast]

/-- A file that the writer finds under the name of a record. -/
theorem mem_recordsIn_of_lookFile (hlook : w.lookFile (encodeWide (stateFileName r)) = .ok bytes)
    (hdecode : C.decode bytes = .ok r) : r ∈ recordsIn C w := by
  unfold World.lookFile at hlook
  split at hlook
  next => cases hlook
  next f hf =>
    split at hlook
    next content hkind =>
      cases hlook
      refine List.mem_filterMap.mpr ⟨f, List.mem_of_find?_eq_some hf, ?_⟩
      have hname : f.name = encodeWide (stateFileName r) := by simpa using List.find?_some hf
      unfold recordAt
      simp only [hname, decodeUtf16_encodeWide, hkind, isStateName_stateFileName, if_true, hdecode]
      rfl
    next => cases hlook
    next => cases hlook

end Files

/-! ## 3. The writer -/

/-- `I` is about nothing that the writer changes, and what others do keeps it and the files. -/
structure Apart (R : World → World → Prop) (I : World → Prop) : Prop where
  rely : ∀ {w w'}, R w w' → I w → I w'
  files : ∀ {w w'}, R w w' → w'.files = w.files ∧ w'.nextSerial = w.nextSerial
  own : ∀ {w w'}, w'.names = w.names → w'.owner = w.owner → w'.audits = w.audits →
    w.drawn ⊆ w'.drawn → I w → I w'

section Writer

variable {C} {R : World → World → Prop} {I : World → Prop} {me : Nat} {w w' : World}
  {records : List MigrationStateRecord} {r : MigrationStateRecord} {serial : Nat} {content : Bytes}

variable (C I records) in
/-- Between the calls of the writer. -/
structure At (w : World) : Prop where
  journal : Journal C w records
  apart : I w

variable (C I records r) in
/-- After the record `r` was written, or not. -/
structure Wrote (w : World) : Prop where
  journal : Journal C w records ∨ Journal C w (records ++ [r])
  apart : I w

theorem At.wrote (h : At C I records w) : Wrote C I records r w := ⟨.inl h.journal, h.apart⟩

theorem At.rely (ha : Apart R I) (hr : R w w') (h : At C I records w) : At C I records w' :=
  ⟨h.journal.of_files (ha.files hr).1 (ha.files hr).2, ha.rely hr h.apart⟩

theorem Temp.rely (ha : Apart R I) (hr : R w w') (h : Temp w serial content) :
    Temp w' serial content := by
  obtain ⟨before, f, after, hfiles, hserial, hkind, hplain, hothers⟩ := h
  exact ⟨before, f, after, (ha.files hr).1.trans hfiles, hserial, hkind, hplain, hothers⟩

theorem Apart.files_only (ha : Apart R I) {files : List StateFile} {nextSerial : Nat} (h : I w) :
    I { w with files, nextSerial } := ha.own (w := w) rfl rfl rfl (List.Subset.refl _) h

theorem At.created (ha : Apart R I) (h : At C I records w) {name : Wide}
    (hfree : w.hasFile name = false) (hplain : IsPlain name) : At C I records (w.created name) :=
  ⟨h.journal.created hfree hplain, ha.files_only h.apart⟩

theorem At.deleted (ha : Apart R I) (h : At C I records w) (ht : Temp w serial content) :
    At C I records (w.deleted serial) :=
  ⟨h.journal.deleted ht, ha.files_only h.apart⟩

/-- Whatever a deletion answers. -/
theorem always_deleteEntry {P : World → Prop} {G : World → World → Prop}
    (hP : ∀ w₁, R w w₁ → P w₁ ∧ P (w₁.deleted serial)) (hG : ∀ {w w'}, P w' → G w w') :
    Proc.always R (step me) G (fun _ => P) (fun _ => P)
      (request (.deleteEntry serial) rfl : Prog StorageError Unit) w := by
  refine always_effect rfl (fun fate => fate.error.error) (fun _ w => .ok ((), w.deleted serial))
    (fun _ _ => rfl) fun w₁ hr fate _ => ?_
  obtain ⟨hkept, hdeleted⟩ := hP w₁ hr
  exact ⟨hG hkept, hkept, hG hdeleted, hdeleted, hdeleted⟩

theorem At.deletes (ha : Apart R I) (h : At C I records w) (ht : Temp w serial content)
    {w₁ : World} (hr : R w w₁) : At C I records w₁ ∧ At C I records (w₁.deleted serial) :=
  ⟨h.rely ha hr, (h.rely ha hr).deleted ha (ht.rely ha hr)⟩

theorem always_checkEntry (ha : Apart R I) (h : At C I records w) (ht : Temp w serial content)
    {G : World → World → Prop} (hG : ∀ {w w'}, At C I records w' → G w w') :
    Proc.always R (step me) G (fun _ w' => At C I records w' ∧ Temp w' serial content)
      (fun _ w' => At C I records w' ∧ Temp w' serial content)
      (request (.checkEntry serial) rfl : Prog StorageError Unit) w := by
  refine always_look rfl (fun fate => fate.error.error) (fun _ _ => .ok ()) (fun _ _ => rfl)
    fun w₁ hr fate _ => ?_
  have h₁ := h.rely ha hr
  have ht₁ := ht.rely ha hr
  exact ⟨hG h₁, ⟨h₁, ht₁⟩, h₁, ht₁⟩

theorem createFile_spec (ha : Apart R I) (h : At C I records w) {name : String}
    (hname : isStateName name = false) {G : World → World → Prop}
    (hG : ∀ {w w'}, At C I records w' → G w w') :
    Proc.always R (step me) G (fun serial w' => At C I records w' ∧ Temp w' serial [])
      (fun _ => At C I records) (createFile name) w := by
  have hplain := isPlain_encodeWide hname
  unfold createFile
  refine (Proc.always_bind _ _).mpr (always_effect rfl (fun fate => fate.error.error)
    (fun _ w => if w.hasFile (encodeWide name) then .error (.taken (toStringLossy (encodeWide name)))
      else .ok (w.nextSerial, w.created (encodeWide name))) (fun _ _ => rfl) fun w₁ hr fate _ => ?_)
  have h₁ := h.rely ha hr
  refine ⟨hG h₁, h₁, ?_⟩
  by_cases hfree : w₁.hasFile (encodeWide name) = true
  · rw [if_pos hfree]
    exact h₁
  rw [if_neg hfree]
  have h₂ := h₁.created ha (Bool.not_eq_true _ ▸ hfree) hplain
  have ht₂ := h₁.journal.temp_created hplain
  refine ⟨hG h₂, ?_, h₂⟩
  -- both checks of the new file
  refine (Proc.always_bind _ _).mpr ((Proc.always_attempt _).mpr
    (Proc.always_mono (always_checkEntry ha h₂ ht₂ hG) (fun _ w₃ hw₃ => ?_) fun _ w₃ hw₃ => ?_))
  · refine (Proc.always_bind _ _).mpr ((Proc.always_attempt _).mpr
      (Proc.always_mono (always_checkEntry ha hw₃.1 hw₃.2 hG) (fun _ w₄ hw₄ => hw₄)
        fun _ w₄ hw₄ => ?_))
    refine (Proc.always_bind _ _).mpr ((Proc.always_attempt _).mpr ?_)
    exact always_deleteEntry (fun _ => hw₄.1.deletes ha hw₄.2) hG
  · refine (Proc.always_bind _ _).mpr ((Proc.always_attempt _).mpr ?_)
    exact always_deleteEntry (fun _ => hw₃.1.deletes ha hw₃.2) hG

/-- The errors that leave open whether the record was published. -/
inductive LegacyStorageError.Ambiguous : LegacyStorageError → Prop where
  | publishedStateSync (name source : String) : Ambiguous (.publishedStateSync name source)
  | statePublication (name : String) (source : StorageError) : Ambiguous (.statePublication name source)

variable (C I records r) in
/-- After a failure of the writer. -/
structure WriteFailed (error : LegacyStorageError) (w : World) : Prop where
  wrote : Wrote C I records r w
  clear : ¬ error.Ambiguous → At C I records w

theorem always_dropCreated {α : Type} {P : World → Prop} {G : World → World → Prop}
    (hP : ∀ w₁, R w w₁ → P w₁ ∧ P (w₁.deleted serial)) (hG : ∀ {w w'}, P w' → G w w')
    {Q : α → World → Prop} (error : LegacyStorageError) :
    Proc.always R (step me) G Q (fun e w' => e = error ∧ P w') (dropCreated serial error) w := by
  unfold dropCreated
  refine (Proc.always_bind _ _).mpr ((Proc.always_attempt _).mpr ?_)
  exact Proc.always_mono (always_deleteEntry hP hG) (fun _ w' hw' => ⟨rfl, hw'⟩)
    fun _ w' hw' => ⟨rfl, hw'⟩

/-- The two synchronizations of a file that is not published. -/
theorem always_syncTemp (ha : Apart R I) (h : At C I records w) (ht : Temp w serial content) :
    Proc.always R (step me) (fun _ => Wrote C I records r)
      (fun _ w' => At C I records w' ∧ Temp w' serial content)
      (fun _ w' => At C I records w' ∧ Temp w' serial content)
      (request (.syncAll serial) rfl : Prog String Unit) w := by
  refine always_look rfl (fun fate => fate.text) (fun _ _ => .ok ()) (fun _ _ => rfl)
    fun w₁ hr fate _ => ?_
  have h₁ := h.rely ha hr
  have ht₁ := ht.rely ha hr
  exact ⟨h₁.wrote, ⟨h₁, ht₁⟩, h₁, ht₁⟩

theorem always_writeTemp (ha : Apart R I) (h : At C I records w) (ht : Temp w serial [])
    (bytes : Bytes) :
    Proc.always R (step me) (fun _ => Wrote C I records r)
      (fun _ w' => At C I records w' ∧ Temp w' serial bytes)
      (fun _ w' => At C I records w' ∧ ∃ content, Temp w' serial content)
      (request (.writeAll serial bytes) rfl : Prog String Unit) w := by
  refine always_writeAll fun w₁ hr => ?_
  have h₁ := h.rely ha hr
  have ht₁ := ht.rely ha hr
  have happend : ∀ bytes, At C I records (w₁.append serial bytes) := fun bytes =>
    ⟨h₁.journal.append ht₁, ha.files_only h₁.apart⟩
  exact ⟨⟨h₁.wrote, fun _ => ⟨h₁, _, ht₁⟩⟩, ⟨(happend _).wrote, happend _, ht₁.append⟩,
    fun part => ⟨(happend part).wrote, fun _ => ⟨happend part, _, ht₁.append⟩⟩⟩

/-- The new file gets its content and its name. -/
theorem publishState_spec (ha : Apart R I) (h : At C I records w) (ht : Temp w serial [])
    (hschema : r.schema = 1) :
    Proc.always R (step me) (fun _ => Wrote C I records r)
      (fun _ w' => At C I (records ++ [r]) w') (WriteFailed C I records r)
      (publishState C r serial) w := by
  unfold publishState
  refine (Proc.always_bind _ _).mpr ((Proc.always_attempt _).mpr ?_)
  have hdrop : ∀ (error : String) (w₁ : World) (content : Bytes), At C I records w₁ →
      Temp w₁ serial content → Proc.always R (step me) (fun _ => Wrote C I records r)
        (fun _ w' => At C I (records ++ [r]) w') (WriteFailed C I records r)
        (dropCreated serial (.io error) : Prog LegacyStorageError Unit) w₁ := fun error w₁ content h₁ ht₁ =>
    Proc.always_mono (always_dropCreated (fun _ => h₁.deletes ha ht₁) (fun h => h.wrote) _)
      (fun _ _ h => h) fun e w' he => ⟨he.2.wrote, fun _ => he.2⟩
  refine (Proc.always_bind _ _).mpr (Proc.always_mono
    (always_writeTemp ha h ht (C.encode r)) (fun _ w₁ h₁ => ?_)
    fun error w₁ ⟨h₁, content, ht₁⟩ => hdrop error w₁ content h₁ ht₁)
  refine (Proc.always_bind _ _).mpr (Proc.always_mono (always_syncTemp ha h₁.1 h₁.2)
    (fun _ w₂ h₂ => ?_) fun error w₂ h₂ => hdrop error w₂ _ h₂.1 h₂.2)
  refine Proc.always_mono (always_syncTemp ha h₂.1 h₂.2)
    (fun _ w₃ h₃ => ?_) fun error w₃ h₃ => hdrop error w₃ _ h₃.1 h₃.2
  -- the file gets its name
  refine (Proc.always_bind _ _).mpr ((Proc.always_attempt _).mpr (always_effect rfl
    (fun fate => fate.error.error) (fun _ w => if w.hasFile (encodeWide (stateFileName r)) then
      .error (.native "rename exact storage object by handle"
        (toStringLossy (encodeWide (stateFileName r))) STATUS_OBJECT_NAME_COLLISION)
      else .ok ((), w.published serial (encodeWide (stateFileName r)))) (fun _ _ => rfl)
    fun w₄ hr fate _ => ?_))
  have h₄ := h₃.1.rely ha hr
  have ht₄ := h₃.2.rely ha hr
  have hfailed : ∀ source, Proc.always R (step me) (fun _ => Wrote C I records r)
      (fun _ w' => At C I (records ++ [r]) w') (WriteFailed C I records r)
      (dropCreated serial (.statePublication (stateFileName r) source) :
        Prog LegacyStorageError Unit) w₄ := fun source =>
    Proc.always_mono (always_dropCreated (fun _ => h₄.deletes ha ht₄) (fun h => h.wrote) _)
      (fun _ _ h => h) fun e w' he => ⟨he.2.wrote, fun _ => he.2⟩
  refine ⟨h₄.wrote, hfailed _, ?_⟩
  by_cases hfree : w₄.hasFile (encodeWide (stateFileName r)) = true
  · rw [if_pos hfree]
    exact hfailed _
  rw [if_neg hfree]
  have h₅ : At C I (records ++ [r]) (w₄.published serial (encodeWide (stateFileName r))) :=
    ⟨h₄.journal.published ht₄ (Bool.not_eq_true _ ▸ hfree) hschema, ha.files_only h₄.apart⟩
  have hdeleted : Journal C ((w₄.published serial (encodeWide (stateFileName r))).deleted serial)
      records := by
    rw [World.deleted_published]
    exact h₄.journal.deleted ht₄
  refine ⟨⟨.inr h₅.journal, h₅.apart⟩, ?_, ?_⟩
  · -- the final synchronization
    refine (Proc.always_mapErr _ _).mpr (always_look rfl (fun fate => fate.text) (fun _ _ => .ok ())
      (fun _ _ => rfl) fun w₆ hr₆ fate _ => ?_)
    have h₆ := h₅.rely ha hr₆
    have hwrote : Wrote C I records r w₆ := ⟨.inr h₆.journal, h₆.apart⟩
    exact ⟨hwrote, ⟨hwrote, fun hclear => (hclear (.publishedStateSync _ _)).elim⟩, h₆⟩
  · -- the name was given, and the new file is dropped
    refine Proc.always_mono (always_dropCreated (P := Wrote C I records r) (fun w₆ hr₆ => ?_)
      (fun h => h) _) (fun _ _ h => h) fun e w' he => ⟨he.2, fun hclear => ?_⟩
    · have h₆ := h₅.rely ha hr₆
      refine ⟨⟨.inr h₆.journal, h₆.apart⟩, .inl ?_, ha.files_only h₆.apart⟩
      refine hdeleted.of_files ?_ (ha.files hr₆).2
      simp only [World.deleted, (ha.files hr₆).1]
    · rw [he.1] at hclear
      exact (hclear (.statePublication _ _)).elim

theorem always_randomId (ha : Apart R I) (h : At C I records w) :
    Proc.always R (step me) (fun _ => Wrote C I records r) (fun _ => At C I records)
      (WriteFailed C I records r) randomId w := by
  unfold randomId
  refine (Proc.always_mapErr _ _).mpr (always_random fun w₁ hr => ?_)
  have h₁ := h.rely ha hr
  refine ⟨⟨h₁.wrote, fun _ => ⟨h₁.wrote, fun _ => h₁⟩⟩, fun id _ => ?_⟩
  have hdrawn : At C I records { w₁ with drawn := id :: w₁.drawn } :=
    ⟨h₁.journal.of_files rfl rfl, ha.own (w := w₁) rfl rfl rfl (List.subset_cons_self _ _) h₁.apart⟩
  exact ⟨hdrawn.wrote, hdrawn⟩

/-- **`write_state`**: whatever its calls answer, and wherever it ends or is stopped, the record is
published or nothing has changed. -/
theorem writeState_spec (ha : Apart R I) (h : At C I records w) (hschema : r.schema = 1) :
    Proc.always R (step me) (fun _ => Wrote C I records r)
      (fun _ w' => At C I records w' ∧ r ∈ records ∨ At C I (records ++ [r]) w')
      (WriteFailed C I records r) (writeState C r) w := by
  unfold writeState
  refine (Proc.always_bind _ _).mpr ((Proc.always_attempt _).mpr (always_look rfl
    (fun fate => fate.error.error) (fun _ w => w.lookFile (encodeWide (stateFileName r)))
    (fun _ _ => rfl) fun w₁ hr fate _ => ?_))
  have h₁ := h.rely ha hr
  have hfailed : ∀ error, WriteFailed C I records r error w₁ := fun _ => ⟨h₁.wrote, fun _ => h₁⟩
  refine ⟨h₁.wrote, ?_, ?_⟩
  · simp only [fate.error.real.1]
    exact hfailed _
  cases hlook : w₁.lookFile (encodeWide (stateFileName r)) with
  | ok bytes =>
    -- the record is there already, or another one under its name
    refine (Proc.always_bind _ _).mpr ((Proc.always_mapErr _ _).mpr (always_look rfl
      (fun fate => fate.text) (fun _ _ => .ok bytes) (fun _ _ => rfl) fun w₂ hr₂ fate₂ _ => ?_))
    have h₂ := h₁.rely ha hr₂
    have hfailed₂ : ∀ error, WriteFailed C I records r error w₂ := fun _ =>
      ⟨h₂.wrote, fun _ => h₂⟩
    refine ⟨h₂.wrote, hfailed₂ _, (Proc.always_bind _ _).mpr ((Proc.always_mapErr _ _).mpr
      ((Proc.always_ofExcept _).mpr ?_))⟩
    cases hdecode : C.decode bytes with
    | error error => exact hfailed₂ _
    | ok existing =>
      refine (Proc.always_guard _ _).mpr ?_
      by_cases heq : existing = r
      · rw [if_pos (by simpa using heq)]
        refine .inl ⟨h₂, ?_⟩
        have hmem := mem_recordsIn_of_lookFile hlook (heq ▸ hdecode)
        rwa [h₁.journal.records] at hmem
      · rw [if_neg (by simpa using heq)]
        exact hfailed₂ _
  | error error =>
    by_cases hmissing : error.isNotFound = true
    · show Proc.always R (step me) _ _ _ (ite _ _ _) w₁
      rw [if_pos hmissing]
      refine (Proc.always_bind _ _).mpr (Proc.always_mono (always_randomId ha h₁)
        (fun id w₂ h₂ => ?_) fun _ _ h => h)
      have hname : isStateName s!".{r.migrationId}-{id}.tmp" = false := by
        have heq : s!".{r.migrationId}-{id}.tmp" = "." ++ (r.migrationId ++ "-" ++ id ++ ".tmp") := by
          simp only [String.append_assoc, toString]
        rw [heq, isStateName_temp]
      refine (Proc.always_bind _ _).mpr ((Proc.always_mapErr _ _).mpr (Proc.always_mono
        (createFile_spec ha h₂ hname fun h => h.wrote) (fun serial w₃ h₃ => ?_)
        fun _ w₃ h₃ => ⟨h₃.wrote, fun _ => h₃⟩))
      exact Proc.always_mono (publishState_spec ha h₃.1 h₃.2 hschema) (fun _ _ h => .inr h)
        fun _ _ h => h
    · show Proc.always R (step me) _ _ _ (ite _ _ _) w₁
      rw [if_neg hmissing]
      exact hfailed _

end Writer

/-! ## 4. Written, and read -/

/-- A record that the protocol writes: the next one, or the last one again. -/
def InOrder (records : List MigrationStateRecord) (r : MigrationStateRecord) : Prop :=
  Follows records r ∨ records.getLast? = some r

/-- **A bootstrap directory** that calls of `write_state` in the order of the protocol have made from
one without state files, each of them run to its end or stopped anywhere before it. -/
inductive Written : World → Prop where
  | start {w : World} (h : Journal C w []) : Written w
  | elsewhere {w w' : World} (h : Written w) (hfiles : w'.files = w.files)
      (hserial : w'.nextSerial = w.nextSerial) : Written w'
  | write {w w' : World} {me : Nat} {r : MigrationStateRecord} {p : Prog LegacyStorageError Unit}
      (h : Written w) (hr : InOrder (recordsIn C w) r)
      (hs : Proc.Steps (step me) (writeState C r) w p w') : Written w'

section Written

variable {C} {w : World} {records : List MigrationStateRecord} {r u : MigrationStateRecord}
  {f : StateFile}

/-- A sound file that holds a record has its name. -/
theorem name_of_recordAt (hsound : f.IsSound C) (h : recordAt C f = some r) :
    f.name = encodeWide (stateFileName r) := by
  unfold recordAt at h
  split at h
  next text bytes htext hkind =>
    split_ifs at h with hstate
    obtain ⟨bytes', state, hkind', hdecode, _, hname⟩ := hsound text htext hstate
    rw [hkind, EntryKind.file.injEq] at hkind'
    subst hkind'
    rw [hdecode] at h
    cases h
    rw [hname, encodeWide_of_decodeUtf16 htext]
  next => cases h

/-- No record is there twice. -/
theorem Journal.nodup (h : Journal C w records) : records.Nodup := by
  rw [← h.records, recordsIn, List.Nodup, List.pairwise_filterMap]
  refine (List.pairwise_map.mp h.names).imp_of_mem fun {f g} hf hg hne x hx y hy heq => hne ?_
  rw [name_of_recordAt (h.sound f hf) hx, name_of_recordAt (h.sound g hg) hy, heq]

theorem apart_true : Apart Eq fun _ => True where
  rely := fun _ _ => trivial
  files := fun h => by rw [h]; exact ⟨rfl, rfl⟩
  own := fun _ _ _ _ _ => trivial

/-- **Whatever was written**, the directory holds records that were published in the order of the
protocol. -/
theorem Written.published (h : Written C w) :
    ∃ records, Published records ∧ Journal C w records := by
  induction h with
  | start h => exact ⟨[], .start, h⟩
  | elsewhere _ hfiles hserial ih =>
    obtain ⟨records, hpublished, hjournal⟩ := ih
    exact ⟨records, hpublished, hjournal.of_files hfiles hserial⟩
  | @write w w' me r p _ hr hs ih =>
    obtain ⟨records, hpublished, hjournal⟩ := ih
    rw [hjournal.records] at hr
    have hschema : r.schema = 1 := by
      rcases hr with hr | hlast
      · exact hr.schema hpublished.schema
      · exact hpublished.schema r (List.mem_of_getLast? hlast)
    have hat : At C (fun _ => True) records w := ⟨hjournal, trivial⟩
    have hwrote := hs.invariant hat.wrote (writeState_spec apart_true hat hschema)
    rcases hwrote.journal with hkept | hmore
    · exact ⟨records, hpublished, hkept⟩
    · rcases hr with hr | hlast
      · exact ⟨_, hpublished.record hr, hmore⟩
      · -- the last record is there already, and cannot be published again
        have hnodup := hmore.nodup
        rw [List.nodup_append] at hnodup
        exact absurd rfl (hnodup.2.2 r (List.mem_of_getLast? hlast) r (List.mem_singleton_self _))

end Written

/-- What `load_pending_from_bootstrap` returns when no call fails. -/
def loaded (created : Bool) (me : Nat) (order : List Wide) (w : World) :
    Except LegacyStorageError (Option MigrationStateRecord) :=
  (Proc.run (undisturbed me order) (loadPendingFromBootstrap C created) w).1

/-- Every migration of a sound directory is complete. -/
structure Complete (w : World) : Prop where
  sound : Sound C w
  done : AllDone (recordsIn C w) fun _ => True

/-- The migration of `r` has come to `r` and not to its end; all others are complete. -/
structure OneOpen (w : World) (r : MigrationStateRecord) : Prop where
  sound : Sound C w
  unfinished : r.phase ≠ .done
  reached : Reached (recordsIn C w) r
  others : AllDone (recordsIn C w) fun id => id ≠ r.migrationId

/-- **The reader recognises the unfinished migration**, in every order of enumeration: of a directory
that can be enumerated it says that nothing is open, or that one migration is, and everything else is
an error; where the writer has left the directory anywhere, it gives the last record of the migration
that is not complete. -/
theorem loaded_exact {created : Bool} {me : Nat} {w : World} {order : List Wide}
    (hnames : (w.files.map (·.name)).Nodup) (horder : order.Perm (w.files.map (·.name))) :
    (loaded C created me order w = .ok none ↔ Readable created w ∧ Complete C w) ∧
    (∀ r, loaded C created me order w = .ok (some r) ↔ Readable created w ∧ OneOpen C w r) ∧
    ((∃ error, loaded C created me order w = .error error) ↔
      ¬ (Readable created w ∧ Complete C w) ∧ ∀ r, ¬ (Readable created w ∧ OneOpen C w r)) ∧
    (Written C w → Readable created w →
      loaded C created me order w = .ok (openOf (recordsIn C w))) := by
  have hnone : loaded C created me order w = .ok none ↔ Readable created w ∧ Complete C w := by
    rw [loaded, loadPending_eq hnames horder]
    refine and_congr_right fun _ => ⟨fun ⟨hsound, h⟩ => ⟨hsound, ?_⟩, fun ⟨hsound, h⟩ => ⟨hsound, ?_⟩⟩
    · exact (pendingOf_none hsound.schema).mp h
    · exact (pendingOf_none hsound.schema).mpr h
  have hsome : ∀ r, loaded C created me order w = .ok (some r) ↔
      Readable created w ∧ OneOpen C w r := fun r => by
    rw [loaded, loadPending_eq hnames horder]
    refine and_congr_right fun _ => ⟨?_, fun h => ⟨h.sound, ?_⟩⟩
    · rintro ⟨hsound, h⟩
      obtain ⟨hopen, hreached, hothers⟩ := (pendingOf_some hsound.schema).mp h
      exact ⟨hsound, hopen, hreached, hothers⟩
    · exact (pendingOf_some h.sound.schema).mpr ⟨h.unfinished, h.reached, h.others⟩
  refine ⟨hnone, hsome, ?_, fun hwritten hreadable => ?_⟩
  · rw [← hnone]
    simp only [← hsome]
    rcases loaded C created me order w with error | (_ | r)
    · simp
    · simp
    · simp
  · obtain ⟨records, hpublished, hjournal⟩ := hwritten.published
    rw [loaded, loadPending_eq hnames horder, hjournal.records]
    exact ⟨hreadable, hjournal.sound, pendingOf_published hpublished⟩

section Sample

def sampleRecord : MigrationStateRecord where
  schema := 1
  migrationId := "00112233445566778899aabbccddeeff"
  phase := .prepared
  sourceIdentity := ⟨5, 7⟩
  nextIdentity := ⟨5, 9⟩
  legacyName := LEGACY_PREFIX ++ "00112233445566778899aabbccddeeff"
  nextName := NEXT_PREFIX ++ "00112233445566778899aabbccddeeff"

/-- What `serde_json` writes for the sample record. -/
@[irreducible] def sampleRecordJson : Bytes :=
  ("\x7b\"schema\":1,\"migration_id\":\"00112233445566778899aabbccddeeff\",\"phase\":\"Prepared\"," ++
    "\"source_identity\":\x7b\"volume_serial\":5,\"file_id\":[7,0,0,0,0,0,0,0,0,0,0,0,0,0,0,0]\x7d," ++
    "\"next_identity\":\x7b\"volume_serial\":5,\"file_id\":[9,0,0,0,0,0,0,0,0,0,0,0,0,0,0,0]\x7d," ++
    "\"legacy_name\":\"WinProfile.Legacy.Untrusted.00112233445566778899aabbccddeeff\"," ++
    "\"next_name\":\"WinProfile.Next.00112233445566778899aabbccddeeff\"\x7d").toUTF8.data.toList

def sampleEncode (r : MigrationStateRecord) : Bytes :=
  if r = sampleRecord then sampleRecordJson else r.numbers.flatMap putNumber

def sampleDecode (bytes : Bytes) : Except String MigrationStateRecord :=
  if bytes = sampleRecordJson then .ok sampleRecord
  else match MigrationStateRecord.ofNumbers (getNumbers 0 bytes) with
    | some r => .ok r
    | none => .error "not a record"

theorem sampleDecode_encode (r : MigrationStateRecord) : sampleDecode (sampleEncode r) = .ok r := by
  unfold sampleDecode sampleEncode
  by_cases hr : r = sampleRecord
  · rw [if_pos hr, if_pos rfl, hr]
  · have hne : r.numbers.flatMap putNumber ≠ sampleRecordJson := fun heq => by
      have hbrace : (0x7b : UInt8) ∈ r.numbers.flatMap putNumber := by
        rw [heq]
        decide +kernel
      exact absurd (le_one_of_mem_put hbrace) (by decide)
    rw [if_neg hr, if_neg hne, getNumbers_put, ofNumbers_numbers]

/-- `serde_json` on the sample record; other records as their numbers. -/
def sampleStateCodec : StateCodec := ⟨sampleEncode, sampleDecode, sampleDecode_encode⟩

theorem encode_sample : sampleStateCodec.encode sampleRecord = sampleRecordJson := by
  show (if sampleRecord = sampleRecord then sampleRecordJson
    else sampleRecord.numbers.flatMap putNumber) = sampleRecordJson
  rw [if_pos rfl]

/-- The directory after the sample record was published and the next record was not. -/
def sampleWorld : World where
  names := fun _ => none
  files := [⟨encodeWide (stateFileName sampleRecord), 0, .file sampleRecordJson⟩,
    ⟨encodeWide ".00112233445566778899aabbccddeeff-ffeeddccbbaa99887766554433221100.tmp", 1, .file []⟩]
  nextSerial := 2

theorem sample_names : sampleWorld.files.map (·.name) =
    [encodeWide (stateFileName sampleRecord), encodeWide
      ".00112233445566778899aabbccddeeff-ffeeddccbbaa99887766554433221100.tmp"] := rfl

theorem sample_open : OneOpen sampleStateCodec sampleWorld sampleRecord where
  sound := by
    intro f hf
    rcases List.mem_cons.mp hf with rfl | hf
    · exact isSound_state (r := sampleRecord) rfl (congrArg EntryKind.file encode_sample.symm) rfl
    · rw [List.mem_singleton.mp hf]
      exact isSound_plain (isPlain_encodeWide (by decide +kernel))
  unfinished := nofun
  reached := by
    have hrecords : recordsIn sampleStateCodec sampleWorld = [sampleRecord] := by decide +kernel
    rw [hrecords]
    exact .refl _
  others := by
    have hrecords : recordsIn sampleStateCodec sampleWorld = [sampleRecord] := by decide +kernel
    intro id hid hne
    rw [hrecords] at hne
    refine absurd (List.filter_eq_nil_iff.mpr fun x hx => ?_) hne
    rw [List.mem_singleton.mp hx]
    simpa using Ne.symm hid

theorem sample_plain : Plain sampleWorld := by
  intro f hf
  rcases List.mem_cons.mp hf with rfl | hf
  · exact EntryKind.noConfusion
  · rw [List.mem_singleton.mp hf]
    exact EntryKind.noConfusion

/-- The last enumerated file is the one that was published. -/
theorem loaded_sample : loaded sampleStateCodec false 0
    [encodeWide ".00112233445566778899aabbccddeeff-ffeeddccbbaa99887766554433221100.tmp",
      encodeWide (stateFileName sampleRecord)] sampleWorld = .ok (some sampleRecord) :=
  ((loaded_exact sampleStateCodec (by rw [sample_names]; decide +kernel)
    (List.Perm.swap _ _ _)).2.1 _).mpr ⟨⟨rfl, sample_plain⟩, sample_open⟩

/-- A name with the prefix and the suffix of a state file, and an unpaired surrogate between. -/
def strayName : Wide := encodeWide STATE_PREFIX ++ [0xD800] ++ encodeWide STATE_SUFFIX

def strayWorld : World where
  names := fun _ => none
  files := [⟨strayName, 0, .file []⟩]
  nextSerial := 1

/-- A junction of an unrelated name. -/
def junctionWorld : World where
  names := fun _ => none
  files := [⟨encodeWide "old", 0, .reparse⟩]
  nextSerial := 1

theorem junction_complete : Complete sampleStateCodec junctionWorld where
  sound := by
    intro f hf
    rw [List.mem_singleton.mp hf]
    exact isSound_plain (isPlain_encodeWide (by decide +kernel))
  done := by
    have hrecords : recordsIn sampleStateCodec junctionWorld = [] := by decide +kernel
    rw [hrecords]
    exact fun id _ hne => absurd rfl hne

/-- A file whose name is no text is not looked into; a junction of any name is refused, and so is
every directory that was just created. -/
theorem loaded_stray :
    (loaded sampleStateCodec false 0 [strayName] strayWorld = .ok none ∧
      ¬ ∀ f ∈ strayWorld.files, encodeWide STATE_PREFIX <+: f.name →
        encodeWide STATE_SUFFIX <:+ f.name → ∃ bytes state, f.kind = .file bytes ∧
          sampleStateCodec.decode bytes = .ok state ∧ state.schema = 1 ∧
          encodeWide (stateFileName state) = f.name) ∧
    ((∃ error, loaded sampleStateCodec false 0 [encodeWide "old"] junctionWorld = .error error) ∧
      Complete sampleStateCodec junctionWorld) ∧
    ∃ error, loaded sampleStateCodec true 0 [] { junctionWorld with files := [] } = .error error := by
  refine ⟨⟨by decide +kernel, fun hall => ?_⟩, ⟨⟨_, rfl⟩, junction_complete⟩, _, rfl⟩
  obtain ⟨bytes, state, _, _, _, hname⟩ := hall ⟨strayName, 0, .file []⟩ (List.mem_singleton_self _)
    ⟨[0xD800] ++ encodeWide STATE_SUFFIX, by rw [strayName, List.append_assoc]⟩
    (List.suffix_append _ _)
  have htext := decodeUtf16_encodeWide (stateFileName state)
  have hstray : decodeUtf16 strayName = none := by decide +kernel
  rw [hname, hstray] at htext
  cases htext

end Sample

end WinProfile.Legacy
