/-
  File:      WinProfile/Journal/Contents.lean
  Subject:   The contents of the files as lists of entries, and what a logger makes of them.

  * `Reads` -- a content is the lines of entries, the last newline possibly missing; `trail` -- all
    contents, the removed ones first and the current one last.
  * `build_spec` -- a logger that opens on such a content shows its latest entries.
-/
import WinProfile.Journal.History

namespace WinProfile

variable {J : JournalConfig} {C : LineCodec} {j j' : Journal}

/-! ## 1. Contents that read as entries -/

/-- The content is empty or ends with a newline. -/
def Ended (content : Bytes) : Prop := content = [] ∨ content.getLast? = some newline

instance (content : Bytes) : Decidable (Ended content) := by
  unfold Ended
  infer_instance

/-- The content is the lines of the entries; the last newline may be missing. -/
structure Reads (C : LineCodec) (content : Bytes) (es : List AuditEntry) : Prop where
  encodable : Encodable C es
  lines : content = block C es ∨
    ∃ front e, es = front ++ [e] ∧ jsonOf C e ≠ [] ∧ content = block C front ++ jsonOf C e

theorem Encodable.append {as bs : List AuditEntry} (ha : Encodable C as) (hb : Encodable C bs) :
    Encodable C (as ++ bs) := by
  intro e he
  rcases List.mem_append.mp he with he | he
  · exact ha e he
  · exact hb e he

theorem Encodable.singleton {e : AuditEntry} {b : Bytes} (h : C.encode e = .ok b) :
    Encodable C [e] := by
  intro e' he'
  obtain rfl := List.mem_singleton.mp he'
  exact ⟨b, h⟩

theorem Encodable.left {as bs : List AuditEntry} (h : Encodable C (as ++ bs)) : Encodable C as :=
  fun e he => h e (List.mem_append_left _ he)

theorem Encodable.last {as : List AuditEntry} {e : AuditEntry} (h : Encodable C (as ++ [e])) :
    ∃ b, C.encode e = .ok b :=
  h e (List.mem_append_right _ (List.mem_singleton_self e))

theorem Reads.nil (C : LineCodec) : Reads C [] [] := ⟨by simp [Encodable], .inl rfl⟩

theorem Reads.bufLines_eq {content : Bytes} {es : List AuditEntry} (h : Reads C content es) :
    bufLines content = es.map (jsonOf C) := by
  rcases h.lines with rfl | ⟨front, e, rfl, hne, rfl⟩
  · exact bufLines_block h.encodable
  · obtain ⟨b, hb⟩ := h.encodable.last
    have hopen : splitLines (jsonOf C e) = ([], jsonOf C e) := by
      rw [jsonOf_eq hb]
      exact splitLines_open (C.newline_not_mem hb)
    have hsplit := splitLines_block h.encodable.left (jsonOf C e)
    rw [hopen, List.append_nil] at hsplit
    rw [bufLines, hsplit]
    simp [map_dropCarriageReturn h.encodable.left, hne]

/-- A content that ends with a newline has all of its newlines. -/
theorem Reads.closed {content : Bytes} {es : List AuditEntry} (h : Reads C content es)
    (hend : Ended content) : content = block C es := by
  rcases h.lines with h' | ⟨front, e, rfl, hne, rfl⟩
  · exact h'
  · exfalso
    obtain ⟨b, hb⟩ := h.encodable.last
    rw [jsonOf_eq hb] at hne hend
    rcases hend with hnil | hlast
    · exact hne (List.append_eq_nil_iff.mp hnil).2
    · rw [List.getLast?_append_of_ne_nil _ hne] at hlast
      exact C.newline_not_mem hb (List.mem_of_getLast? hlast)

/-- The whole line after an ended content. -/
theorem Reads.append_line {content b : Bytes} {es : List AuditEntry} {e : AuditEntry}
    (h : Reads C content es) (hend : Ended content) (henc : C.encode e = .ok b) :
    Reads C (content ++ (b ++ [newline])) (es ++ [e]) := by
  refine ⟨h.encodable.append (.singleton henc), .inl ?_⟩
  rw [h.closed hend, block_append, block_singleton, lineOf, jsonOf_eq henc]

/-- A part of the line after an ended content, when it is nothing or has the JSON text. -/
theorem Reads.append_part {content b : Bytes} {es : List AuditEntry} {e : AuditEntry} {k : Nat}
    (h : Reads C content es) (henc : C.encode e = .ok b) (hk : k = 0 ∨ b.length ≤ k)
    (hend : k ≠ 0 → Ended content) :
    ∃ more, Reads C (content ++ (b ++ [newline]).take k) (es ++ more) := by
  rcases Nat.eq_zero_or_pos k with rfl | hpos
  · exact ⟨[], by simpa using h⟩
  have hend' := hend (by omega)
  have hle := hk.resolve_left (by omega)
  rcases Nat.lt_or_ge b.length k with hlt | hge
  · refine ⟨[e], ?_⟩
    rw [List.take_of_length_le (by simp; omega)]
    exact h.append_line hend' henc
  · obtain rfl : k = b.length := by omega
    refine ⟨[e], h.encodable.append (.singleton henc), .inr ⟨es, e, rfl, ?_, ?_⟩⟩
    · rw [jsonOf_eq henc]
      exact List.ne_nil_of_length_pos hpos
    · rw [List.take_left, h.closed hend', jsonOf_eq henc]

/-! ## 2. The files in order -/

/-- What came before the current file: the removed contents, then the archives from the oldest. -/
def olderFiles (J : JournalConfig) (j : Journal) : List Bytes :=
  j.removed ++ readDown (fun i => slots J j (i + 1)) (J.maxArchives - 1)

/-- All contents, the current one last. -/
def trail (J : JournalConfig) (j : Journal) : List Bytes :=
  olderFiles J j ++ (slots J j 0).toList

theorem readDown_zero {α : Type} (s : Nat → Option α) : ∀ n,
    readDown s (n + 1) = readDown (fun i => s (i + 1)) n ++ (s 0).toList
  | 0 => rfl
  | n + 1 => by rw [readDown, readDown_zero s n, readDown, List.append_assoc]

theorem trail_eq (J : JournalConfig) (j : Journal) :
    trail J j = j.removed ++ readDown (slots J j) J.maxArchives := by
  obtain ⟨n, hn⟩ : ∃ n, J.maxArchives = n + 1 := ⟨J.maxArchives - 1, by have := J.archivesPositive; omega⟩
  rw [trail, olderFiles, hn, readDown_zero, Nat.add_sub_cancel, List.append_assoc]

theorem SameFiles.trail (h : SameFiles j j') : trail J j' = trail J j := by
  rw [trail_eq, trail_eq, h.slots J, h.removed]

/-- **A shift keeps the order of the contents**, those removed included. -/
theorem Shifted.trail {i : Nat} (h : Shifted J j i j') (hi : i ≤ J.maxArchives + 1) :
    trail J j' = trail J j := by
  rw [trail_eq, trail_eq, h.moved, h.removed]
  rcases Nat.lt_or_ge J.maxArchives i with hlt | hle
  · obtain rfl : i = J.maxArchives + 1 := by omega
    rw [shelve_start, if_neg (by omega), List.append_nil]
  · rw [if_pos hle, readDown_shelve _ hle, List.append_assoc, ← readDown_top _ _ J.archivesPositive]

theorem Rotated.trail {n : Nat} (h : Rotated J j n j') : trail J j' = trail J j := by
  rcases h with ⟨_, h⟩ | ⟨_, h⟩
  · exact h.trail
  · exact h.trail (Nat.zero_le _)

theorem olderFiles_wrote {bytes : Bytes} (h : Wrote J j bytes j') :
    olderFiles J j' = olderFiles J j := by
  unfold olderFiles
  rw [h.removed]
  congr 2
  funext i
  rw [slots_wrote h, if_neg (Nat.succ_ne_zero i)]

/-! ## 3. Opening a logger -/

/-- The loader takes every line of a readable content. -/
theorem loadLines_entries : ∀ {es : List AuditEntry} (i : Nat) (d : Display), Encodable C es →
    loadLines C i d (es.map (jsonOf C)) = .ok (es.foldl Display.push d)
  | [], _, _, _ => rfl
  | e :: es, i, d, h => by
    obtain ⟨b, hb⟩ := h e (by simp)
    have hes : Encodable C es := fun e' he' => h e' (List.mem_cons_of_mem _ he')
    rw [List.map_cons, jsonOf_eq hb, loadLines, C.nonblank hb, C.decode_encode hb, List.foldl_cons]
    exact loadLines_entries (i + 1) (d.push e) hes

theorem Display.push_max (d : Display) (e : AuditEntry) :
    (d.push e).maxMemoryEntries = d.maxMemoryEntries := by
  unfold push
  split
  · rfl
  · split <;> rfl

/-- The last elements of a list. -/
def lastEntries (n : Nat) (es : List AuditEntry) : List AuditEntry := es.drop (es.length - n)

theorem lastEntries_lastEntries (n : Nat) (xs ys : List AuditEntry) :
    lastEntries n (lastEntries n xs ++ ys) = lastEntries n (xs ++ ys) := by
  unfold lastEntries
  rw [← List.drop_append_of_le_length (by omega), List.drop_drop, List.length_drop,
    List.length_append]
  congr 1
  omega

theorem Display.push_buffer {d : Display} (hd : d.buffer.length ≤ d.maxMemoryEntries)
    (e : AuditEntry) : (d.push e).buffer = lastEntries d.maxMemoryEntries (d.buffer ++ [e]) := by
  unfold push lastEntries
  split
  · next h =>
    have hnil : d.buffer = [] := List.eq_nil_of_length_eq_zero (by omega)
    simp [hnil, h]
  · split
    · next h =>
      have hlen : (d.buffer ++ [e]).length - d.maxMemoryEntries = 1 := by
        rw [List.length_append, List.length_singleton]
        omega
      rw [hlen, List.drop_append_of_le_length (by omega)]
    · next h =>
      have hlen : (d.buffer ++ [e]).length - d.maxMemoryEntries = 0 := by
        rw [List.length_append, List.length_singleton]
        omega
      rw [hlen, List.drop_zero]

/-- The display buffer keeps the latest entries. -/
theorem foldl_push_buffer : ∀ (es : List AuditEntry) {d : Display},
    d.buffer.length ≤ d.maxMemoryEntries →
    (es.foldl Display.push d).buffer = lastEntries d.maxMemoryEntries (d.buffer ++ es)
  | [], d, hd => by
    rw [List.append_nil, lastEntries, Nat.sub_eq_zero_of_le hd]
    rfl
  | e :: es, d, hd => by
    have hpush := Display.push_buffer hd e
    have hle : (d.push e).buffer.length ≤ (d.push e).maxMemoryEntries := by
      rw [hpush, d.push_max e, lastEntries, List.length_drop]
      omega
    rw [List.foldl_cons, foldl_push_buffer es hle, hpush, d.push_max e, lastEntries_lastEntries,
      List.append_assoc, List.singleton_append]

theorem foldl_push_max : ∀ (es : List AuditEntry) (d : Display),
    (es.foldl Display.push d).maxMemoryEntries = d.maxMemoryEntries
  | [], _ => rfl
  | e :: es, d => by rw [List.foldl_cons, foldl_push_max es, d.push_max]

/-- The buffer of a logger with its limit. -/
structure Shows (j : Journal) (logger maxMemory : Nat) (es : List AuditEntry) : Prop where
  limit : (j.loggers logger).maxMemoryEntries = maxMemory
  buffer : (j.loggers logger).buffer = lastEntries maxMemory es

/-- **A new logger on a readable root** shows the latest entries of the current file, unless a
storage call fails. -/
theorem build_spec {current : List AuditEntry} (h : Reads C (currentContent J j) current)
    (fate : Fate) (logger maxMemory : Nat) :
    Act.wp (build J C fate logger maxMemory)
      (fun _ j' => Shows j' logger maxMemory current ∧ j'.files = j.files)
      (fun _ _ => fate.lock.isSome ∨ Disturbed fate.opening) j := by
  unfold build loadRecentEntries
  refine (Act.wp_bind _ _).mpr ((Act.wp_update _).mpr ((Act.wp_bind _ _).mpr
    ((Act.wp_mapErr _ _).mpr (wp_check (fun f j₁ hf _ => .inl ?_) fun j₁ h₁ => ?_))))
  · obtain ⟨_, hf⟩ := hf
    exact Option.isSome_of_eq_some hf
  refine (Act.wp_bind _ _).mpr ((Act.wp_bind _ _).mpr ((Act.wp_attempt _).mpr
    (wp_openFile (fun f j₂ hf h₂ => ?_) (fun j₂ h₂ hnone => ?_) fun content j₂ h₂ hc => ?_)))
  · simpa [f.real.1] using Or.inr hf.disturbed
  · have hcur : currentContent J j = [] := by
      rw [h₁.files] at hnone
      rw [currentContent, slots, slotName_zero, show j.files J.logFileName = none from hnone,
        Option.getD_none]
    have hnil : current = [] := by
      have := h.bufLines_eq
      rw [hcur] at this
      exact List.map_eq_nil_iff.mp this.symm
    have hfiles : j₂.files = j.files := h₂.files.trans h₁.files
    simp only [StorageError.missing, StorageError.isNotFound, beq_self_eq_true, Bool.true_or,
      if_true, hnil]
    exact (Act.wp_pure _).mpr ((Act.wp_update _).mpr
      ⟨⟨by simp, by simp [lastEntries]⟩, hfiles⟩)
  · have hcur : currentContent J j = content := by
      rw [h₁.files] at hc
      rw [currentContent, slots, slotName_zero, show j.files J.logFileName = some content from hc,
        Option.getD_some]
    rw [hcur] at h
    have hload := loadLines_entries 0 { maxMemoryEntries := maxMemory } h.encodable
    rw [← h.bufLines_eq] at hload
    refine (Act.wp_ofExcept _).mpr ?_
    rw [hload]
    refine (Act.wp_update _).mpr ⟨⟨?_, ?_⟩, h₂.files.trans h₁.files⟩
    · show (if logger = logger then _ else j₂.loggers logger).maxMemoryEntries = _
      rw [if_pos rfl, foldl_push_max]
    · show (if logger = logger then _ else j₂.loggers logger).buffer = _
      rw [if_pos rfl, foldl_push_buffer current (Nat.zero_le _), List.nil_append]

/-- No storage call fails, and the logger opens. -/
theorem build_readable {current : List AuditEntry} (h : Reads C (currentContent J j) current)
    (logger maxMemory : Nat) :
    (build J C {} logger maxMemory j).1 = .ok () ∧
      ((build J C {} logger maxMemory j).2.loggers logger).buffer
        = lastEntries maxMemory current := by
  have hquiet : ¬ ((({} : Fate).lock).isSome ∨ Disturbed ({} : Fate).opening) := by
    rintro (hlock | ⟨f, _, hf⟩)
    · cases hlock
    · cases hf
  exact Act.wp_run (R := fun r (j' : Journal) => r = .ok () ∧
      (j'.loggers logger).buffer = lastEntries maxMemory current)
    (Act.wp_mono (build_spec h {} logger maxMemory) (fun _ _ hs => ⟨rfl, hs.1.buffer⟩)
      fun _ _ hd => absurd hd hquiet)

end WinProfile
