/-
  File:      WinProfile/Journal/Interruption.lean
  Subject:   Appends that are cut short, and what a later logger reads.

  * `Readable` -- all contents read as entries, among them what was acknowledged.
  * `Harmless` -- the call that keeps it so: an append that it gets to leaves no part of a JSON text
    behind, and does not continue an unfinished line.
  * `acknowledged_entries_survive` -- in every run of harmless calls each acknowledged entry is a
    line of a file, and every later logger opens and loads the current file.
  * `torn_append_damages_journal` -- a call that is not harmless takes an acknowledged entry with
    it.
-/
import WinProfile.Journal.Report

namespace WinProfile

variable {J : JournalConfig} {C : LineCodec} {j j' : Journal}

/-! ## 1. The invariant -/

/-- **The invariant of harmless runs**: every content reads as entries, and what was acknowledged is
among them, in its order. -/
def Readable (J : JournalConfig) (C : LineCodec) (acked : List AuditEntry) (j : Journal) : Prop :=
  ∃ parts, List.Forall₂ (Reads C) (trail J j) parts ∧ acked.Sublist parts.flatten

/-- The same, the current file apart. -/
structure ReadableAs (J : JournalConfig) (C : LineCodec) (acked : List AuditEntry) (j : Journal)
    (parts : List (List AuditEntry)) (current : List AuditEntry) : Prop where
  older : List.Forall₂ (Reads C) (olderFiles J j) parts
  latest : Reads C (currentContent J j) current
  kept : acked.Sublist (parts.flatten ++ current)

variable {acked : List AuditEntry}

theorem forall₂_concat {α β : Type} {R : α → β → Prop} {a : α} : ∀ {as : List α} {bs : List β},
    List.Forall₂ R (as ++ [a]) bs → ∃ bs' b, bs = bs' ++ [b] ∧ List.Forall₂ R as bs' ∧ R a b
  | [], _, .cons h .nil => ⟨[], _, rfl, .nil, h⟩
  | _ :: _, _, .cons h hs => by
    obtain ⟨bs', b, rfl, hs', hb⟩ := forall₂_concat hs
    exact ⟨_ :: bs', b, rfl, .cons h hs', hb⟩

theorem Readable.split (h : Readable J C acked j) : ∃ parts current,
    ReadableAs J C acked j parts current := by
  obtain ⟨parts, hreads, hkept⟩ := h
  rw [trail] at hreads
  cases hcur : slots J j 0 with
  | none =>
    rw [hcur, Option.toList_none, List.append_nil] at hreads
    refine ⟨parts, [], hreads, ?_, by rwa [List.append_nil]⟩
    rw [currentContent, hcur]
    exact .nil C
  | some content =>
    rw [hcur, Option.toList_some] at hreads
    obtain ⟨older, current, rfl, holder, hlatest⟩ := forall₂_concat hreads
    refine ⟨older, current, holder, ?_, by simpa using hkept⟩
    rw [currentContent, hcur, Option.getD_some]
    exact hlatest

theorem Readable.trail_congr (h : Readable J C acked j) (ht : trail J j' = trail J j) :
    Readable J C acked j' := by
  unfold Readable
  rw [ht]
  exact h

/-- The current file gets a new content. -/
theorem ReadableAs.wrote {parts : List (List AuditEntry)} {current current' acked' : List AuditEntry}
    {bytes : Bytes} (h : ReadableAs J C acked j parts current) (hw : Wrote J j bytes j')
    (hreads : Reads C (currentContent J j ++ bytes) current')
    (hkept : acked'.Sublist (parts.flatten ++ current')) : Readable J C acked' j' := by
  refine ⟨parts ++ [current'], ?_, by simpa using hkept⟩
  rw [trail, olderFiles_wrote hw, slots_wrote hw, if_pos rfl, Option.toList_some]
  exact List.rel_append h.older (.cons hreads .nil)

/-! ## 2. Harmless calls -/

/-- If the call gets as far as its append, then that leaves no part of a JSON text behind, and does
not continue an unfinished line. -/
def Harmless (J : JournalConfig) (C : LineCodec) (j : Journal) (call : LogCall) : Prop :=
  ∀ b, C.encode call.entry = .ok b → b.length + 1 ≤ J.maxLogBytes →
    Clear J call.fate j (b.length + 1) →
    (∀ k, call.fate.cut = some k →
      k = 0 ∨ b.length ≤ k ∧ Ended (startContent J j (b.length + 1))) ∧
    (call.fate.cut = none → (startContent J j (b.length + 1)).length + (b.length + 1) < 2 ^ 64 →
      Ended (startContent J j (b.length + 1)))

/-- Nothing went into a file. -/
theorem Readable.unwritten {n : Nat} (h : Readable J C acked j) (hkept : Unwritten J n j j') :
    Readable J C acked j' := by
  rcases hkept with hsame | ⟨j₁, hrot, hwrote⟩
  · exact h.trail_congr hsame
  · obtain ⟨parts, current, hs⟩ := (h.trail_congr hrot.trail).split
    refine hs.wrote hwrote ?_ hs.kept
    rw [List.append_nil]
    exact hs.latest

/-- **One harmless call.** -/
theorem Readable.logged {call : LogCall} (h : Readable J C acked j) (hcall : Harmless J C j call) :
    Readable J C (if (log J C call j).1 = .ok () then acked ++ [call.entry] else acked)
      (log J C call j).2 := by
  by_cases hwritable : ∃ b, C.encode call.entry = .ok b ∧ b.length + 1 ≤ J.maxLogBytes
  · obtain ⟨b, henc, hsize⟩ := hwritable
    have hout := log_outcome henc hsize j
    generalize (log J C call j).1 = r at hout
    generalize (log J C call j).2 = j' at hout
    cases hout with
    | early hstop hkept hloggers => exact h.unwritten hkept
    | full hclear hcut hroom hkept hloggers => exact h.unwritten hkept
    | @torn e j₁ _ k hclear hcut hrot hwrote hloggers =>
      have hpart := (hcall b henc hsize hclear).1 k hcut
      rw [← hrot.currentContent_eq] at hpart
      obtain ⟨parts, current, hs⟩ := (h.trail_congr hrot.trail).split
      obtain ⟨more, hmore⟩ := hs.latest.append_part henc (hpart.imp_right fun hp => hp.1)
        fun hne => (hpart.resolve_left hne).2
      refine hs.wrote hwrote hmore ?_
      rw [if_neg (by simp), ← List.append_assoc]
      exact hs.kept.trans (List.sublist_append_left _ _)
    | @recorded j₁ _ hclear hcut hroom hrot hwrote hloggers =>
      have hend := (hcall b henc hsize hclear).2 hcut hroom
      rw [← hrot.currentContent_eq] at hend
      obtain ⟨parts, current, hs⟩ := (h.trail_congr hrot.trail).split
      refine hs.wrote hwrote (hs.latest.append_line hend henc) ?_
      rw [if_pos rfl, ← List.append_assoc]
      exact hs.kept.append (List.Sublist.refl _)
  · have hstep := log_step J C call j
    generalize (log J C call j).1 = r at hstep
    generalize (log J C call j).2 = j' at hstep
    cases hstep with
    | refused _ hsame => exact h.trail_congr hsame.trail
    | shifting henc hsize _ _ _ _ _ => exact absurd ⟨_, henc, hsize⟩ hwritable
    | stopped henc hsize _ _ _ => exact absurd ⟨_, henc, hsize⟩ hwritable
    | torn henc hsize _ _ _ _ => exact absurd ⟨_, henc, hsize⟩ hwritable
    | appended henc hsize _ _ _ _ _ => exact absurd ⟨_, henc, hsize⟩ hwritable

/-! ## 3. Runs -/

/-- The states and the acknowledged entries of runs on one root, in which loggers are opened and log
in any order and every call may fail anywhere; `P` holds of every call of `log`. -/
inductive Interrupted (J : JournalConfig) (C : LineCodec) (P : Journal → LogCall → Prop) :
    Journal → List AuditEntry → Prop where
  | start : Interrupted J C P .empty []
  | opened (fate : Fate) (logger maxMemory : Nat) {j acked} (h : Interrupted J C P j acked) :
      Interrupted J C P (build J C fate logger maxMemory j).2 acked
  | called (call : LogCall) {j acked} (h : Interrupted J C P j acked) (hcall : P j call) :
      Interrupted J C P (log J C call j).2
        (if (log J C call j).1 = .ok () then acked ++ [call.entry] else acked)

theorem Readable.start (J : JournalConfig) (C : LineCodec) : Readable J C [] .empty := by
  refine ⟨[], ?_, .refl _⟩
  rw [trail_eq]
  have hnone : slots J .empty = fun _ => none := rfl
  rw [hnone, readDown_none]
  exact .nil

/-- **The run lemma.** -/
theorem Interrupted.readable (h : Interrupted J C (Harmless J C) j acked) : Readable J C acked j := by
  induction h with
  | start => exact .start J C
  | @opened fate logger maxMemory j acked _ ih =>
    obtain ⟨hfiles, hremoved⟩ := build_files J C fate logger maxMemory j
    refine ih.trail_congr ?_
    rw [trail_eq, trail_eq, hremoved]
    congr 2
    funext i
    exact congrFun hfiles _
  | called call _ hcall ih => exact ih.logged hcall

theorem Forall₂_reads_decode {contents : List Bytes} {parts : List (List AuditEntry)}
    (h : List.Forall₂ (Reads C) contents parts) :
    (contents.flatMap fun content => (bufLines content).map C.decode) = parts.flatten.map .ok := by
  induction h with
  | nil => rfl
  | cons hreads _ ih =>
    rw [List.flatMap_cons, ih, hreads.bufLines_eq, map_decode hreads.encodable, List.flatten_cons,
      List.map_append]

/-- **The acknowledged entries survive** every run of harmless calls, whatever else fails: the
removed archives, the archives and the current file read as entries among which are the
acknowledged ones in their order, and a new logger opens and loads the current file, as much of
it as its buffer takes. -/
theorem acknowledged_entries_survive (h : Interrupted J C (Harmless J C) j acked) :
    ∃ older current,
      ((olderFiles J j).flatMap fun content => (bufLines content).map C.decode) = older.map .ok ∧
      (bufLines (currentContent J j)).map C.decode = current.map .ok ∧
      acked.Sublist (older ++ current) ∧
      ∀ logger maxMemory, (build J C {} logger maxMemory j).1 = .ok () ∧
        ((build J C {} logger maxMemory j).2.loggers logger).buffer
          = lastEntries maxMemory current := by
  obtain ⟨parts, current, hs⟩ := h.readable.split
  refine ⟨parts.flatten, current, Forall₂_reads_decode hs.older, ?_, hs.kept,
    fun logger maxMemory => build_readable hs.latest logger maxMemory⟩
  rw [hs.latest.bufLines_eq, map_decode hs.latest.encodable]

/-! ## 4. A torn line -/

/-- The sample root after an append that stops there and a call that nothing disturbs. -/
def cutJournal (k : Nat) : Journal :=
  (log sampleConfig sampleCodec (sampleCall 1 {})
    (log sampleConfig sampleCodec (cutCall k) .empty).2).2

theorem cutJournal_interrupted {k : Nat} {P : Journal → LogCall → Prop}
    (hfail : (log sampleConfig sampleCodec (cutCall k) .empty).1 ≠ .ok ())
    (hok : (log sampleConfig sampleCodec (sampleCall 1 {})
      (log sampleConfig sampleCodec (cutCall k) .empty).2).1 = .ok ())
    (hcut : P .empty (cutCall k))
    (hcall : P (log sampleConfig sampleCodec (cutCall k) .empty).2 (sampleCall 1 {})) :
    Interrupted sampleConfig sampleCodec P (cutJournal k) [sampleEntry] := by
  have h₁ := Interrupted.called (cutCall k) (.start (J := sampleConfig) (C := sampleCodec)) hcut
  rw [if_neg hfail] at h₁
  have h₂ := h₁.called (sampleCall 1 {}) hcall
  rw [if_pos hok] at h₂
  exact h₂

theorem sampleCodec_encode {b : Bytes} (h : sampleCodec.encode sampleEntry = .ok b) :
    b = sampleJson := by
  rw [sampleCodec] at h
  simpa using h.symm

/-- The first append stops right before its newline, and the second call rotates the file away. -/
theorem acknowledged_entries_survive_sample :
    Interrupted sampleConfig sampleCodec (Harmless sampleConfig sampleCodec) (cutJournal 119)
      [sampleEntry] ∧
    (build sampleConfig sampleCodec {} 2 10 (cutJournal 119)).1 = .ok () := by
  have hjson : sampleJson.length = 119 := by decide +kernel
  have hfull : ¬ Fits sampleConfig (log sampleConfig sampleCodec (cutCall 119) .empty).2 120 := by
    decide +kernel
  have hcut : Harmless sampleConfig sampleCodec .empty (cutCall 119) := by
    intro b hb _ _
    rw [sampleCodec_encode hb, hjson]
    refine ⟨fun k hk => .inr ⟨?_, .inl (by decide +kernel)⟩, fun hk => ?_⟩
    · cases hk
      exact le_refl _
    · cases hk
  have hcall : Harmless sampleConfig sampleCodec
      (log sampleConfig sampleCodec (cutCall 119) .empty).2 (sampleCall 1 {}) := by
    intro b hb _ _
    rw [sampleCodec_encode hb, hjson, startContent, if_neg hfull]
    refine ⟨fun k hk => ?_, fun _ _ => .inl rfl⟩
    cases hk
  have hrun := cutJournal_interrupted (by decide +kernel) (by decide +kernel) hcut hcall
  obtain ⟨_, _, _, _, _, hbuild⟩ := acknowledged_entries_survive hrun
  exact ⟨hrun, (hbuild 2 10).1⟩

/-- **A torn append damages the journal**: it stops after ten bytes, and the next call succeeds; its
entry is no line of any file, and no logger opens on the root any more. -/
theorem torn_append_damages_journal :
    Interrupted sampleConfig sampleCodec (fun _ _ => True) (cutJournal 10) [sampleEntry] ∧
    (∀ content ∈ trail sampleConfig (cutJournal 10), ∀ line ∈ bufLines content,
      sampleCodec.decode line ≠ .ok sampleEntry) ∧
    (build sampleConfig sampleCodec {} 2 10 (cutJournal 10)).1
      = .error (.invalidEntry 1 "not the sample line") := by
  refine ⟨cutJournal_interrupted (by decide +kernel) (by decide +kernel) trivial trivial, ?_,
    by decide +kernel⟩
  have hcheck : (trail sampleConfig (cutJournal 10)).all (fun content => (bufLines content).all
      fun line => sampleCodec.decode line ≠ .ok sampleEntry) := by decide +kernel
  simpa using hcheck

end WinProfile
