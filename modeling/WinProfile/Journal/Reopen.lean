/-
  File:      WinProfile/Journal/Reopen.lean
  Subject:   The display of the logger that wrote the journal, and of a logger that opens it later.

  * `LoggedRun` -- one logger is opened on an empty root and logs with success.
  * `LoggedRun.shows` -- its buffer is fed entry by entry; `Shelved.current` -- the current file
    holds the latest entries, from which the buffer of a later logger is built.
  * `reopened_display_agrees` -- both are the front of one list, the entries newest first.
-/
import WinProfile.Journal.Contents

namespace WinProfile

variable {J : JournalConfig} {C : LineCodec} {logger maxMemory : Nat} {j j' : Journal}
  {acked : List AuditEntry}

/-! ## 1. The buffer of the writer -/

/-- The states of one logger's runs on a root that was empty, with the entries it has logged. -/
inductive LoggedRun (J : JournalConfig) (C : LineCodec) (logger maxMemory : Nat) :
    Journal → List AuditEntry → Prop where
  | opened (fate : Fate) {j} (hrun : build J C fate logger maxMemory .empty = (.ok (), j)) :
      LoggedRun J C logger maxMemory j []
  | logged (call : LogCall) {j j' acked} (h : LoggedRun J C logger maxMemory j acked)
      (hlogger : call.logger = logger) (hrun : log J C call j = (.ok (), j')) :
      LoggedRun J C logger maxMemory j' (acked ++ [call.entry])

theorem LoggedRun.acknowledged (h : LoggedRun J C logger maxMemory j acked) :
    Acknowledged J C j acked := by
  induction h with
  | opened fate hrun => exact .opened fate logger maxMemory .start hrun
  | logged call _ _ hrun ih => exact .logged call ih hrun

theorem Shows.push (h : Shows j logger maxMemory acked) {e : AuditEntry}
    (hloggers : j'.loggers logger = (j.loggers logger).push e) :
    Shows j' logger maxMemory (acked ++ [e]) where
  limit := by rw [hloggers, Display.push_max, h.limit]
  buffer := by
    have hle : (j.loggers logger).buffer.length ≤ (j.loggers logger).maxMemoryEntries := by
      rw [h.buffer, h.limit, lastEntries, List.length_drop]
      omega
    rw [hloggers, Display.push_buffer hle, h.limit, h.buffer, lastEntries_lastEntries]

/-- The writer's buffer, fed entry by entry. -/
theorem LoggedRun.shows (h : LoggedRun J C logger maxMemory j acked) :
    Shows j logger maxMemory acked := by
  induction h with
  | @opened fate j hrun =>
    have hempty : Reads C (currentContent J .empty) [] := .nil C
    have hspec := Act.wp_run (R := fun r (j' : Journal) => r = .ok () → Shows j' logger maxMemory [])
      (Act.wp_mono (build_spec hempty fate logger maxMemory) (fun _ _ hs _ => hs.1)
        fun _ _ _ he => nomatch he)
    rw [hrun] at hspec
    exact hspec rfl
  | @logged call j j' acked _ hlogger hrun ih =>
    have hstep := log_step J C call j
    rw [hrun] at hstep
    cases hstep with
    | appended _ _ _ _ _ _ hloggers =>
      rw [hlogger] at hloggers
      exact ih.push ((congrFun hloggers logger).trans (if_pos rfl))

/-! ## 2. The buffer of a later logger -/

/-- The current file holds the latest entries. -/
theorem Shelved.current {parts : Nat → Option (List AuditEntry)} (h : Shelved J C acked j parts) :
    ∃ current, Reads C (currentContent J j) current ∧ current <:+ acked := by
  have hcontent := currentContent_holds h.holds
  obtain ⟨k, _, hread⟩ := h.suffix
  obtain ⟨n, hn⟩ : ∃ n, J.maxArchives = n + 1 :=
    ⟨J.maxArchives - 1, by have := J.archivesPositive; omega⟩
  have hlast : ((parts 0).toList).flatten <:+ acked := by
    rw [hn, readDown_zero, List.flatten_append] at hread
    have hdrop : acked.drop k <:+ acked := List.drop_suffix k acked
    rw [← hread] at hdrop
    exact (List.suffix_append _ _).trans hdrop
  have hgetD : ((parts 0).toList).flatten = (parts 0).getD [] := by
    cases parts 0 <;> simp
  rw [hgetD] at hlast
  refine ⟨(parts 0).getD [], ⟨fun e he => h.encodable e (hlast.subset he), .inl hcontent⟩, hlast⟩

/-- The latest entries of a suffix, newest first. -/
theorem reverse_lastEntries {current : List AuditEntry} (h : current <:+ acked) (n : Nat) :
    (lastEntries n current).reverse = (acked.reverse.take n).take (min n current.length) := by
  obtain ⟨front, rfl⟩ := h
  rw [lastEntries, ← List.take_reverse, List.reverse_append, List.take_take,
    Nat.min_eq_left (Nat.min_le_left _ _)]
  rw [List.take_append_of_le_length (by rw [List.length_reverse]; exact Nat.min_le_right _ _)]
  rcases Nat.le_total n current.length with hle | hle
  · rw [Nat.min_eq_left hle]
  · rw [Nat.min_eq_right hle, List.take_of_length_le (by rw [List.length_reverse]; exact hle),
      List.take_of_length_le (by rw [List.length_reverse])]

/-! ## 3. Both displays -/

/-- What `get_entries` returns, when the mutex is not poisoned. -/
theorem getEntries_shows (h : Shows j logger maxMemory acked) :
    getEntries logger false j = (.ok (lastEntries maxMemory acked).reverse, j) := by
  rw [← h.buffer]
  rfl

/-- **The display buffer and a reopened journal agree.** After every run of successful calls of one
logger on a root that was empty, whatever rotates: `get_entries` returns the latest entries as far
as its limit goes, the newest first; and a logger that is opened afterwards with the same limit
returns the first of these, as many as there are entries in the current file. It opens unless one
of its storage calls fails. -/
theorem reopened_display_agrees (h : LoggedRun J C logger maxMemory j acked) :
    getEntries logger false j = (.ok (acked.reverse.take maxMemory), j) ∧
    ∃ current : List AuditEntry,
      (bufLines (currentContent J j)).map C.decode = current.map .ok ∧
      (∀ fresh, (build J C {} fresh maxMemory j).1 = .ok ()) ∧
      ∀ fate fresh j', build J C fate fresh maxMemory j = (.ok (), j') →
        getEntries fresh false j'
          = (.ok ((acked.reverse.take maxMemory).take (min maxMemory current.length)), j') := by
  obtain ⟨parts, hp⟩ := h.acknowledged.inOrder
  obtain ⟨current, hreads, hlast⟩ := hp.toShelved.current
  refine ⟨?_, current, ?_, fun fresh => (build_readable hreads fresh maxMemory).1, ?_⟩
  · rw [getEntries_shows h.shows, lastEntries, ← List.take_reverse]
  · rw [hreads.bufLines_eq, map_decode hreads.encodable]
  · intro fate fresh j' hrun
    have hspec := Act.wp_run (R := fun r (j' : Journal) => r = .ok () → Shows j' fresh maxMemory current)
      (Act.wp_mono (build_spec hreads fate fresh maxMemory) (fun _ _ hs _ => hs.1)
        fun _ _ _ he => by cases he)
    rw [hrun] at hspec
    rw [getEntries_shows (hspec rfl), reverse_lastEntries hlast]

/-! ## 4. A rotation on the last call -/

/-- One logger with room for two entries in its buffer and for one in a file. -/
def reopenJournal : Nat → Journal
  | 0 => (build sampleConfig sampleCodec {} 0 2 .empty).2
  | n + 1 => (log sampleConfig sampleCodec (sampleCall 0 {}) (reopenJournal n)).2

theorem reopenJournal_ok : (build sampleConfig sampleCodec {} 0 2 .empty).1 = .ok () ∧
    ∀ n < 3, (log sampleConfig sampleCodec (sampleCall 0 {}) (reopenJournal n)).1 = .ok () := by
  decide +kernel

theorem reopenJournal_run : ∀ n ≤ 3,
    LoggedRun sampleConfig sampleCodec 0 2 (reopenJournal n) (List.replicate n sampleEntry)
  | 0, _ => .opened {} (Prod.ext reopenJournal_ok.1 rfl)
  | n + 1, hn => by
    rw [List.replicate_succ']
    exact .logged (sampleCall 0 {}) (reopenJournal_run n (by omega)) rfl
      (Prod.ext (reopenJournal_ok.2 n (by omega)) rfl)

/-- The writer shows two entries, and a later logger the one of the current file. -/
theorem reopened_display_agrees_sample :
    getEntries 0 false (reopenJournal 3) = (.ok [sampleEntry, sampleEntry], reopenJournal 3) ∧
    (∃ current : List AuditEntry,
      (bufLines (currentContent sampleConfig (reopenJournal 3))).map sampleCodec.decode
      = current.map .ok ∧ ∀ fate fresh j', build sampleConfig sampleCodec fate fresh 2
        (reopenJournal 3) = (.ok (), j') → getEntries fresh false j'
          = (.ok ([sampleEntry, sampleEntry].take (min 2 current.length)), j')) ∧
    ((bufLines (currentContent sampleConfig (reopenJournal 3))).map sampleCodec.decode).length
      = 1 := by
  have h := reopened_display_agrees (reopenJournal_run 3 (le_refl 3))
  obtain ⟨hbuffer, current, hcurrent, _, hfresh⟩ := h
  exact ⟨hbuffer, ⟨current, hcurrent, hfresh⟩, by decide +kernel⟩

end WinProfile
