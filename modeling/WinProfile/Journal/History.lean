/-
  File:      WinProfile/Journal/History.lean
  Subject:   Rotation keeps a contiguous recent history, over every run of successful calls of any
             number of loggers on one root.

  * `block`, `bufLines_block` -- the lines of entries, and that they read back.
  * `Acknowledged` -- the runs; `InOrder` -- their invariant, over an abstract shelf of entries
    that the slots refine.
  * `log_keeps_history` -- the journal reads as a suffix of the acknowledged entries, no file is
    too large, and a call removes nothing but the last archive of a full shelf.
-/
import WinProfile.Journal.Rotation

namespace WinProfile

variable {J : JournalConfig} {C : LineCodec} {j j' : Journal}

/-! ## 1. Lines of entries -/

theorem splitLines_line {b : Bytes} (h : newline ∉ b) (rest : Bytes) :
    splitLines (b ++ newline :: rest) = (b :: (splitLines rest).1, (splitLines rest).2) := by
  induction b with
  | nil => simp [splitLines]
  | cons c b ih =>
    have hc : c ≠ newline := fun e => h (by simp [e])
    have hb : newline ∉ b := fun e => h (List.mem_cons_of_mem _ e)
    simp [splitLines, ih hb, hc]

theorem splitLines_open {b : Bytes} (h : newline ∉ b) : splitLines b = ([], b) := by
  induction b with
  | nil => rfl
  | cons c b ih =>
    have hc : c ≠ newline := fun e => h (by simp [e])
    have hb : newline ∉ b := fun e => h (List.mem_cons_of_mem _ e)
    simp [splitLines, ih hb, hc]

theorem LineCodec.newline_not_mem {e : AuditEntry} {b : Bytes} (h : C.encode e = .ok b) :
    newline ∉ b := fun hin => absurd (C.printable h _ hin) (by decide)

theorem LineCodec.dropCarriageReturn_eq {e : AuditEntry} {b : Bytes} (h : C.encode e = .ok b) :
    dropCarriageReturn b = b := by
  refine if_neg fun hlast => ?_
  exact absurd (C.printable h _ (List.mem_of_getLast? hlast)) (by decide)

/-- The JSON text of an entry. -/
def jsonOf (C : LineCodec) (e : AuditEntry) : Bytes :=
  match C.encode e with
  | .ok b => b
  | .error _ => []

theorem jsonOf_eq {e : AuditEntry} {b : Bytes} (h : C.encode e = .ok b) : jsonOf C e = b := by
  rw [jsonOf, h]

/-- The line of an entry. -/
def lineOf (C : LineCodec) (e : AuditEntry) : Bytes := jsonOf C e ++ [newline]

/-- The lines of entries, one after the other. -/
def block (C : LineCodec) (entries : List AuditEntry) : Bytes := entries.flatMap (lineOf C)

theorem block_append (as bs : List AuditEntry) : block C (as ++ bs) = block C as ++ block C bs :=
  List.flatMap_append

theorem block_singleton (e : AuditEntry) : block C [e] = lineOf C e := by simp [block]

/-- Every entry has a JSON text. -/
def Encodable (C : LineCodec) (entries : List AuditEntry) : Prop :=
  ∀ e ∈ entries, ∃ b, C.encode e = .ok b

theorem splitLines_block {entries : List AuditEntry} (h : Encodable C entries) (rest : Bytes) :
    splitLines (block C entries ++ rest)
      = (entries.map (jsonOf C) ++ (splitLines rest).1, (splitLines rest).2) := by
  induction entries with
  | nil => rfl
  | cons e es ih =>
    obtain ⟨b, hb⟩ := h e (by simp)
    have hes : Encodable C es := fun e' he' => h e' (List.mem_cons_of_mem _ he')
    have hcat : block C (e :: es) ++ rest = b ++ newline :: (block C es ++ rest) := by
      simp [block, lineOf, jsonOf_eq hb]
    rw [hcat, splitLines_line (C.newline_not_mem hb), ih hes]
    simp [jsonOf_eq hb]

theorem map_dropCarriageReturn {entries : List AuditEntry} (h : Encodable C entries) :
    (entries.map (jsonOf C)).map dropCarriageReturn = entries.map (jsonOf C) := by
  rw [List.map_map]
  refine List.map_congr_left fun e he => ?_
  obtain ⟨b, hb⟩ := h e he
  rw [Function.comp_apply, jsonOf_eq hb, C.dropCarriageReturn_eq hb]

theorem bufLines_block {entries : List AuditEntry} (h : Encodable C entries) :
    bufLines (block C entries) = entries.map (jsonOf C) := by
  have hsplit := splitLines_block h []
  rw [List.append_nil] at hsplit
  simp [bufLines, hsplit, splitLines, map_dropCarriageReturn h]

theorem map_decode {entries : List AuditEntry} (h : Encodable C entries) :
    (entries.map (jsonOf C)).map C.decode = entries.map .ok := by
  rw [List.map_map]
  refine List.map_congr_left fun e he => ?_
  obtain ⟨b, hb⟩ := h e he
  rw [Function.comp_apply, jsonOf_eq hb, C.decode_encode hb]

/-! ## 2. Runs of successful calls -/

/-- What a reader gets from the archives, the oldest first, and then from the current file. -/
def journalEntries (J : JournalConfig) (C : LineCodec) (j : Journal) :
    List (Except LineFault AuditEntry) :=
  (readDown (slots J j) J.maxArchives).flatMap fun content => (bufLines content).map C.decode

/-- The bytes of the journal, in the same order. -/
def history (J : JournalConfig) (j : Journal) : Bytes :=
  (readDown (slots J j) J.maxArchives).flatten

/-- The states and the acknowledged entries of runs on one root: loggers are opened, and they log
with success, in any order. -/
inductive Acknowledged (J : JournalConfig) (C : LineCodec) : Journal → List AuditEntry → Prop where
  | start : Acknowledged J C .empty []
  | opened (fate : Fate) (logger maxMemory : Nat) {j j' acked r} (h : Acknowledged J C j acked)
      (hrun : build J C fate logger maxMemory j = (r, j')) : Acknowledged J C j' acked
  | logged (call : LogCall) {j j' acked} (h : Acknowledged J C j acked)
      (hrun : log J C call j = (.ok (), j')) : Acknowledged J C j' (acked ++ [call.entry])

/-- Opening a logger reads only. -/
theorem build_files (J : JournalConfig) (C : LineCodec) (fate : Fate) (logger maxMemory : Nat)
    (j : Journal) : (build J C fate logger maxMemory j).2.files = j.files ∧
      (build J C fate logger maxMemory j).2.removed = j.removed := by
  refine Act.wp_run (R := fun _ (j' : Journal) => j'.files = j.files ∧ j'.removed = j.removed) ?_
  have hsame : ∀ {j₁ : Journal}, SameFiles j j₁ → j₁.files = j.files ∧ j₁.removed = j.removed :=
    fun h => ⟨h.files, h.removed⟩
  unfold build loadRecentEntries
  refine (Act.wp_bind _ _).mpr ((Act.wp_update _).mpr ?_)
  have h₀ : SameFiles j { j with clock := 0 } := ⟨rfl, rfl, rfl⟩
  refine (Act.wp_bind _ _).mpr ((Act.wp_mapErr _ _).mpr
    (wp_check (fun f j₁ _ h => hsame (h₀.trans h)) fun j₁ h₁ => ?_))
  have h₀₁ := h₀.trans h₁
  refine (Act.wp_bind _ _).mpr ((Act.wp_bind _ _).mpr ((Act.wp_attempt _).mpr
    (wp_openFile (fun f j₂ _ h => ?_) (fun j₂ h _ => ?_) fun content j₂ h _ => ?_)))
  · simpa [f.real.1] using hsame (h₀₁.trans h)
  · simpa [StorageError.missing, StorageError.isNotFound] using hsame (h₀₁.trans h)
  · refine (Act.wp_ofExcept _).mpr ?_
    cases loadLines C 0 { maxMemoryEntries := maxMemory } (bufLines content) with
    | ok d => exact (Act.wp_update _).mpr ⟨(h₀₁.trans h).files, (h₀₁.trans h).removed⟩
    | error e => exact hsame (h₀₁.trans h)

/-! ## 3. The invariant -/

/-- The slots hold the lines of a shelf of entries. -/
def Holds (J : JournalConfig) (C : LineCodec) (j : Journal)
    (parts : Nat → Option (List AuditEntry)) : Prop :=
  ∀ i ≤ J.maxArchives, slots J j i = (parts i).map (block C)

/-- The shelf reads as a suffix of what was acknowledged, its archives have no gap, and no file is
too large. -/
structure Shelved (J : JournalConfig) (C : LineCodec) (acked : List AuditEntry) (j : Journal)
    (parts : Nat → Option (List AuditEntry)) : Prop where
  encodable : Encodable C acked
  holds : Holds J C j parts
  suffix : ∃ k ≤ acked.length, (readDown parts J.maxArchives).flatten = acked.drop k
  packed : ∀ i, 0 < i → i < J.maxArchives → (parts (i + 1)).isSome → (parts i).isSome
  bounded : ∀ i ≤ J.maxArchives, ∀ es, parts i = some es → (block C es).length ≤ J.maxLogBytes

/-- **The invariant of successful runs**: also, the current file ends with the latest entry. -/
structure InOrder (J : JournalConfig) (C : LineCodec) (acked : List AuditEntry) (j : Journal)
    (parts : Nat → Option (List AuditEntry)) : Prop extends Shelved J C acked j parts where
  latest : ∀ e, acked.getLast? = some e → ∃ es, parts 0 = some (es ++ [e])

theorem InOrder.start (J : JournalConfig) (C : LineCodec) :
    InOrder J C [] .empty fun _ => none where
  encodable := by simp [Encodable]
  holds i _ := rfl
  suffix := ⟨0, le_refl 0, by rw [readDown_none]; rfl⟩
  packed _ _ _ h := by cases h
  bounded _ _ _ h := by cases h
  latest _ h := by cases h

theorem InOrder.same {acked : List AuditEntry} {parts : Nat → Option (List AuditEntry)}
    (h : InOrder J C acked j parts) (hs : j'.files = j.files) : InOrder J C acked j' parts :=
  { h with holds := fun i hi => by rw [slots, hs]; exact h.holds i hi }

/-- More in slot 0, for a reader. -/
theorem flatten_readDown_push {α : Type} {s t : Nat → Option (List α)} {as : List α}
    (hzero : t 0 = some ((s 0).getD [] ++ as)) (hrest : ∀ i, i ≠ 0 → t i = s i) :
    ∀ n, (readDown t n).flatten = (readDown s n).flatten ++ as
  | 0 => by
    rw [readDown, readDown, hzero]
    cases s 0 <;> simp
  | n + 1 => by
    rw [readDown, readDown, hrest (n + 1) (by omega), List.flatten_append,
      flatten_readDown_push hzero hrest n, List.flatten_append, List.append_assoc]

/-- A slot after the entry went into slot 0 of `parts`. -/
def pushEntry (parts : Nat → Option (List AuditEntry)) (e : AuditEntry) :
    Nat → Option (List AuditEntry) :=
  fun i => if i = 0 then some ((parts 0).getD [] ++ [e]) else parts i

theorem readDown_pushEntry (parts : Nat → Option (List AuditEntry)) (e : AuditEntry) (n : Nat) :
    (readDown (pushEntry parts e) n).flatten = (readDown parts n).flatten ++ [e] :=
  flatten_readDown_push rfl (fun _ hi => if_neg hi) n

theorem currentContent_holds {parts : Nat → Option (List AuditEntry)} (h : Holds J C j parts) :
    currentContent J j = block C ((parts 0).getD []) := by
  rw [currentContent, h 0 (Nat.zero_le _)]
  cases parts 0 <;> rfl

theorem slots_wrote {bytes : Bytes} (hw : Wrote J j bytes j') (i : Nat) :
    slots J j' i = if i = 0 then some (currentContent J j ++ bytes) else slots J j i := by
  rw [slots, hw.files, ← slotName_zero J]
  exact slots_setFile j 0 _ i

/-- The append, on the shelf. -/
theorem Holds.wrote {parts : Nat → Option (List AuditEntry)} {e : AuditEntry}
    (h : Holds J C j parts) (hw : Wrote J j (lineOf C e) j') :
    Holds J C j' (pushEntry parts e) := by
  intro i hi
  rw [slots_wrote hw]
  by_cases h0 : i = 0
  · rw [if_pos h0, pushEntry, if_pos h0, currentContent_holds h, Option.map_some, block_append,
      block_singleton]
  · rw [if_neg h0, pushEntry, if_neg h0, h i hi]

/-- The shift, on the shelf. -/
theorem Holds.shifted {parts : Nat → Option (List AuditEntry)} {i : Nat} (h : Holds J C j parts)
    (hs : Shifted J j i j') : Holds J C j' (shelve parts J.maxArchives i) := by
  intro k hk
  rw [hs.moved]
  rcases Nat.lt_trichotomy k i with hlt | rfl | hgt
  · rw [shelve_below _ hlt, shelve_below _ hlt, h k hk]
  · rw [shelve_self _ hk, shelve_self _ hk]
    rfl
  · rw [shelve_above _ hgt hk, shelve_above _ hgt hk, h (k - 1) (by omega)]

section Steps

variable {acked : List AuditEntry} {parts : Nat → Option (List AuditEntry)} {n : Nat}

/-- A file that is too full for an entry which fits an empty one is there. -/
theorem isSome_of_not_fits (hn : n ≤ J.maxLogBytes) (hfull : ¬ Fits J j n) :
    (slots J j 0).isSome := by
  by_contra h
  rw [Option.not_isSome_iff_eq_none] at h
  apply hfull
  rw [Fits, currentContent, h, Option.getD_none, List.length_nil, saturatingAdd, Nat.zero_add]
  exact (Nat.min_le_left _ _).trans hn

theorem Holds.isSome_iff (h : Holds J C j parts) {i : Nat} (hi : i ≤ J.maxArchives) :
    (slots J j i).isSome ↔ (parts i).isSome := by
  rw [h i hi, Option.isSome_map]

/-- A rotation keeps the shelf, whole or without its last archive. -/
theorem Shelved.rotated (h : Shelved J C acked j parts) (hn : n ≤ J.maxLogBytes)
    (hfull : ¬ Fits J j n) (hs : Shifted J j 0 j') :
    Shelved J C acked j' (shelve parts J.maxArchives 0) := by
  have hpos := J.archivesPositive
  have habove : ∀ i, 0 < i → i ≤ J.maxArchives → shelve parts J.maxArchives 0 i = parts (i - 1) :=
    fun i hi hle => shelve_above parts hi hle
  refine ⟨h.encodable, h.holds.shifted hs, ?_, ?_, ?_⟩
  · obtain ⟨k, hk, hread⟩ := h.suffix
    rw [readDown_top parts J.maxArchives hpos, List.flatten_append] at hread
    rw [readDown_shelve parts (Nat.zero_le _)]
    refine ⟨k + ((parts J.maxArchives).toList.flatten).length, ?_, ?_⟩
    · have := congrArg List.length hread
      rw [List.length_append, List.length_drop] at this
      omega
    · rw [← List.drop_drop, ← hread, List.drop_left]
  · intro i hi hlt hsome
    rw [habove (i + 1) (by omega) (by omega), Nat.add_sub_cancel] at hsome
    rw [habove i hi hlt.le]
    rcases Nat.eq_or_lt_of_le (Nat.succ_le_of_lt hi) with rfl | hi'
    · rw [Nat.sub_self]
      exact (h.holds.isSome_iff (Nat.zero_le _)).mp (isSome_of_not_fits hn hfull)
    · refine h.packed (i - 1) (by omega) (by omega) ?_
      rw [Nat.sub_add_cancel hi]
      exact hsome
  · intro i hi es hes
    rcases Nat.eq_zero_or_pos i with rfl | hi'
    · rw [shelve_self parts (Nat.zero_le _)] at hes
      cases hes
    · rw [habove i hi' hi] at hes
      exact h.bounded (i - 1) (by omega) es hes

/-- The append keeps the shelf, when the file stays within its limit. -/
theorem Shelved.pushed {e : AuditEntry} {b : Bytes} (h : Shelved J C acked j parts)
    (henc : C.encode e = .ok b)
    (hroom : (currentContent J j).length + (b.length + 1) ≤ J.maxLogBytes)
    (hw : Wrote J j (lineOf C e) j') :
    InOrder J C (acked ++ [e]) j' (pushEntry parts e) := by
  refine ⟨⟨?_, h.holds.wrote hw, ?_, ?_, ?_⟩, ?_⟩
  · intro e' he'
    rcases List.mem_append.mp he' with he' | he'
    · exact h.encodable e' he'
    · obtain rfl := List.mem_singleton.mp he'
      exact ⟨b, henc⟩
  · obtain ⟨k, hk, hread⟩ := h.suffix
    refine ⟨k, by rw [List.length_append]; omega, ?_⟩
    rw [readDown_pushEntry, hread, List.drop_append_of_le_length hk]
  · intro i hi hlt hsome
    rw [pushEntry, if_neg (by omega)] at hsome ⊢
    exact h.packed i hi hlt hsome
  · intro i hi es hes
    rw [pushEntry] at hes
    split at hes
    · cases hes
      rw [block_append, block_singleton, List.length_append, ← currentContent_holds h.holds, lineOf,
        jsonOf_eq henc, List.length_append]
      exact hroom
    · exact h.bounded i hi es hes
  · intro e' he'
    rw [List.getLast?_append, List.getLast?_singleton, Option.some_or] at he'
    cases he'
    exact ⟨(parts 0).getD [], if_pos rfl⟩

/-- Before its append, a call leaves a shelf with room for the entry. -/
theorem Shelved.prepared {b : Bytes} {j₁ : Journal} (h : Shelved J C acked j parts)
    (hsize : b.length + 1 ≤ J.maxLogBytes) (hrot : Rotated J j (b.length + 1) j₁)
    (hroom : (currentContent J j₁).length + (b.length + 1) < 2 ^ 64) :
    ∃ parts₁, Shelved J C acked j₁ parts₁ ∧
      (currentContent J j₁).length + (b.length + 1) ≤ J.maxLogBytes := by
  rcases hrot with ⟨hfit, hs⟩ | ⟨hfull, hs⟩
  · refine ⟨parts, { h with holds := fun i hi => by rw [hs.slots J]; exact h.holds i hi }, ?_⟩
    rw [Fits, saturatingAdd] at hfit
    rw [hs.currentContent] at hroom ⊢
    omega
  · refine ⟨_, h.rotated hsize hfull hs, ?_⟩
    rw [currentContent, hs.moved, shelve_self _ (Nat.zero_le _), Option.getD_none, List.length_nil,
      Nat.zero_add]
    exact hsize

/-- One successful call. -/
theorem InOrder.logged {call : LogCall} (h : InOrder J C acked j parts)
    (hrun : log J C call j = (.ok (), j')) :
    ∃ parts', InOrder J C (acked ++ [call.entry]) j' parts' := by
  have hstep := log_step J C call j
  rw [hrun] at hstep
  cases hstep with
  | @appended j₁ _ b henc hsize hrot _ hroom hwrote _ =>
    obtain ⟨parts₁, h₁, hfits⟩ := h.prepared hsize hrot hroom
    refine ⟨_, h₁.pushed henc hfits ?_⟩
    rw [lineOf, jsonOf_eq henc]
    exact hwrote

/-- **The run lemma.** -/
theorem Acknowledged.inOrder (h : Acknowledged J C j acked) : ∃ parts, InOrder J C acked j parts := by
  induction h with
  | start => exact ⟨_, .start J C⟩
  | @opened fate logger maxMemory j j' acked r _ hrun ih =>
    obtain ⟨parts, hp⟩ := ih
    have hfiles := (build_files J C fate logger maxMemory j).1
    rw [hrun] at hfiles
    exact ⟨parts, hp.same hfiles⟩
  | logged call _ hrun ih =>
    obtain ⟨parts, hp⟩ := ih
    exact hp.logged hrun

/-- The shelf has no gap below an occupied last archive. -/
theorem Shelved.full (h : Shelved J C acked j parts) (htop : (slots J j J.maxArchives).isSome) :
    ∀ i, 0 < i → i ≤ J.maxArchives → (slots J j i).isSome := by
  intro i hi hle
  refine Nat.decreasingInduction (motive := fun i _ => 0 < i → (slots J j i).isSome)
    (fun i hlt ih hpos => ?_) (fun _ => htop) hle hi
  refine (h.holds.isSome_iff hlt.le).mpr (h.packed i hpos hlt ?_)
  exact (h.holds.isSome_iff hlt).mp (ih (by omega))

theorem history_wrote {bytes : Bytes} (hw : Wrote J j bytes j') :
    history J j' = history J j ++ bytes := by
  refine flatten_readDown_push ?_ (fun i hi => ?_) J.maxArchives
  · rw [slots_wrote hw, if_pos rfl]
    rfl
  · rw [slots_wrote hw, if_neg hi]

theorem readDown_entries (h : Holds J C j parts) : ∀ n ≤ J.maxArchives,
    readDown (slots J j) n = (readDown parts n).map (block C)
  | 0, hn => by
    rw [readDown, readDown, h 0 hn]
    cases parts 0 <;> rfl
  | n + 1, hn => by
    rw [readDown, readDown, h (n + 1) hn, readDown_entries h n (by omega), List.map_append]
    cases parts (n + 1) <;> rfl

/-- The journal reads back as the entries of the shelf. -/
theorem Shelved.journalEntries_eq (h : Shelved J C acked j parts) :
    journalEntries J C j = ((readDown parts J.maxArchives).flatten).map .ok := by
  obtain ⟨k, _, hread⟩ := h.suffix
  have hall : ∀ es ∈ readDown parts J.maxArchives, Encodable C es := by
    intro es hes e he
    refine h.encodable e (List.mem_of_mem_drop (i := k) ?_)
    rw [← hread]
    exact List.mem_flatten.mpr ⟨es, hes, he⟩
  rw [journalEntries, readDown_entries h.holds _ (le_refl _), List.flatMap_map, List.map_flatten,
    ← List.flatMap_def]
  refine List.flatMap_congr fun es hes => ?_
  rw [bufLines_block (hall es hes), map_decode (hall es hes)]

end Steps

/-- **Rotation keeps a contiguous recent history.** After every run of successful calls of any
loggers on one root that was empty: the archives from the oldest, then the current file, read as a
suffix of the acknowledged entries; no file is larger than the limit; the current file ends with
the latest entry; and the next call loses nothing but the content of the last archive, and that
only when every archive is there and the entry does not fit. -/
theorem log_keeps_history {acked : List AuditEntry} (h : Acknowledged J C j acked) :
    (∃ k, journalEntries J C j = (acked.drop k).map .ok) ∧
    (∀ i ≤ J.maxArchives, ∀ content, slots J j i = some content →
      content.length ≤ J.maxLogBytes) ∧
    (∀ e, acked.getLast? = some e → ∃ front, slots J j 0 = some (front ++ lineOf C e)) ∧
    (∀ call j', log J C call j = (.ok (), j') →
      (∀ name, (∀ i ≤ J.maxArchives, name ≠ slotName J i) → j'.files name = j.files name) ∧
      (j'.removed = j.removed ∧ history J j' = history J j ++ lineOf C call.entry ∨
        (∀ i, 0 < i → i ≤ J.maxArchives → (slots J j i).isSome) ∧
        ¬ Fits J j (lineOf C call.entry).length ∧
        ∃ oldest rest, slots J j J.maxArchives = some oldest ∧ history J j = oldest ++ rest ∧
          j'.removed = j.removed ++ [oldest] ∧ history J j' = rest ++ lineOf C call.entry)) := by
  obtain ⟨parts, hp⟩ := h.inOrder
  refine ⟨?_, ?_, ?_, ?_⟩
  · obtain ⟨k, _, hread⟩ := hp.suffix
    exact ⟨k, by rw [hp.journalEntries_eq, hread]⟩
  · intro i hi content hc
    rw [hp.holds i hi] at hc
    obtain ⟨es, hes, rfl⟩ := Option.map_eq_some_iff.mp hc
    exact hp.bounded i hi es hes
  · intro e he
    obtain ⟨es, hes⟩ := hp.latest e he
    refine ⟨block C es, ?_⟩
    rw [hp.holds 0 (Nat.zero_le _), hes, Option.map_some, block_append, block_singleton]
  · intro call j' hrun
    have hstep := log_step J C call j
    rw [hrun] at hstep
    cases hstep with
    | @appended j₁ _ b henc hsize hrot _ hroom hwrote _ =>
      have hline : b ++ [newline] = lineOf C call.entry := by rw [lineOf, jsonOf_eq henc]
      have hlen : (lineOf C call.entry).length = b.length + 1 := by rw [← hline]; simp
      rw [hline] at hwrote
      have hcur : ∀ name, (∀ i ≤ J.maxArchives, name ≠ slotName J i) →
          j'.files name = j₁.files name := by
        intro name hname
        rw [hwrote.files, setFile_other]
        rw [← slotName_zero J]
        exact hname 0 (Nat.zero_le _)
      rw [hlen, history_wrote hwrote, hwrote.removed]
      rcases hrot with ⟨_, hs⟩ | ⟨hfull, hs⟩
      · refine ⟨fun name hname => by rw [hcur name hname, hs.files], .inl ⟨hs.removed, ?_⟩⟩
        rw [history, history, hs.slots J]
      · refine ⟨fun name hname => by rw [hcur name hname, hs.others name hname], ?_⟩
        have hread : history J j
            = ((slots J j J.maxArchives).toList).flatten ++ history J j₁ := by
          rw [history, history, readDown_top _ _ J.archivesPositive, List.flatten_append, hs.moved,
            readDown_shelve _ (Nat.zero_le _)]
        have hremoved := hs.removed
        rw [if_pos (Nat.zero_le _)] at hremoved
        cases htop : slots J j J.maxArchives with
        | none =>
          rw [htop] at hread hremoved
          simp only [Option.toList_none, List.flatten_nil, List.nil_append, List.append_nil] at *
          exact .inl ⟨hremoved, by rw [hread]⟩
        | some oldest =>
          rw [htop] at hread hremoved
          simp only [Option.toList_some, List.flatten_singleton] at hread hremoved
          have hall := hp.full (Option.isSome_of_eq_some htop)
          exact .inr ⟨hall, hfull, oldest, history J j₁, rfl, hread, hremoved, rfl⟩

/-! ## 4. A journal of one entry to a file -/

def sampleEntry : AuditEntry where
  timestamp := 0
  operation := "Scan"
  actor := "admin"
  target := "C:"
  status := .success
  details := "ok"

/-- What `serde_json` writes for the sample entry. -/
@[irreducible] def sampleJson : Bytes :=
  ("\x7b\"timestamp\":\"1970-01-01T00:00:00Z\",\"operation\":\"Scan\",\"actor\":\"admin\"," ++
    "\"target\":\"C:\",\"status\":\"Success\",\"details\":\"ok\"\x7d").toUTF8.data.toList

/-- `serde_json` on the sample entry and on the lines that the sample runs make of it. -/
def sampleCodec : LineCodec where
  encode e := if e = sampleEntry then .ok sampleJson else .error "not the sample entry"
  decode b := if b = sampleJson then .ok sampleEntry else .error (.json "not the sample line")
  blank b := b.all (· ≤ 0x20)
  decode_encode {e b} h := by
    split at h
    · next he =>
      cases h
      rw [if_pos rfl, he]
    · cases h
  printable {e b} h := by
    split at h
    · cases h
      decide +kernel
    · cases h
  nonblank {e b} h := by
    split at h
    · cases h
      decide +kernel
    · cases h

/-- Two archives, and room for one line in a file. -/
def sampleConfig : JournalConfig where
  logFileName := "audit_log.jsonl"
  maxLogBytes := 150
  maxArchives := 2
  bytesPositive := by decide
  bytesU64 := by decide
  archivesPositive := by decide

def sampleCall (logger : Nat) (fate : Fate) : LogCall where
  logger := logger
  entry := sampleEntry
  fate := fate

/-- The sample root after a number of undisturbed calls of two loggers in turn. -/
def sampleJournal : Nat → Journal
  | 0 => .empty
  | n + 1 => (log sampleConfig sampleCodec (sampleCall (n % 2) {}) (sampleJournal n)).2

theorem sampleJournal_ok : ∀ n < 4,
    (log sampleConfig sampleCodec (sampleCall (n % 2) {}) (sampleJournal n)).1 = .ok () := by
  decide +kernel

theorem sampleJournal_acknowledged : ∀ n ≤ 4,
    Acknowledged sampleConfig sampleCodec (sampleJournal n) (List.replicate n sampleEntry)
  | 0, _ => .start
  | n + 1, hn => by
    rw [List.replicate_succ']
    exact .logged _ (sampleJournal_acknowledged n (by omega))
      (Prod.ext (sampleJournal_ok n (by omega)) rfl)

/-- After three calls every file is full, and the fourth removes the last archive. -/
theorem log_keeps_history_sample :
    (sampleJournal 4).removed.length = 1 ∧
    (∃ k, journalEntries sampleConfig sampleCodec (sampleJournal 4)
      = ((List.replicate 4 sampleEntry).drop k).map .ok) ∧
    ∀ i ≤ 2, ∀ content, slots sampleConfig (sampleJournal 4) i = some content →
      content.length ≤ 150 := by
  have h := log_keeps_history (sampleJournal_acknowledged 4 (le_refl 4))
  exact ⟨by decide +kernel, h.1, h.2.1⟩

end WinProfile
