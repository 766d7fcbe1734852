/-
  File:      WinProfile/Legacy/Record.lean
  Subject:   The state records of audit-journal/src/legacy.rs: phases, file names, and the chains
             that the bootstrap journal is made of.

  * `MigrationStateRecord`, `stateFileName` -- a record and the one name it may be stored under.
  * `checkGroup`, `pendingOf` -- what `load_pending_from_bootstrap` makes of the records it read.
  * `chainTo` -- the records of a migration up to one of them; `pendingOf_none` and `pendingOf_some`
    say when all migrations are complete, and when exactly one is not.
  * `MigrationStateRecord.numbers` -- a record as a list of numbers, and back.
-/
import Mathlib.Data.String.Basic
import WinProfile.Journal.Log
import WinProfile.Lib.Grouping
import WinProfile.Lib.Text

namespace WinProfile.Legacy

/-! ## 1. Records -/

def PRODUCT_DIRECTORY : String := "WinProfile"
def BOOTSTRAP_DIRECTORY : String := "WinProfile.Bootstrap"
def STATE_PREFIX : String := "migration-"
def STATE_SUFFIX : String := ".json"
def LEGACY_PREFIX : String := "WinProfile.Legacy.Untrusted."
def NEXT_PREFIX : String := "WinProfile.Next."

/-- `MigrationPhase`. -/
inductive MigrationPhase where
  | prepared | detached | rootReady | auditPending | done
  deriving DecidableEq, Repr

namespace MigrationPhase

/-- `phase as u8`. -/
def number : MigrationPhase → Nat
  | prepared => 0
  | detached => 1
  | rootReady => 2
  | auditPending => 3
  | done => 4

def next : MigrationPhase → Option MigrationPhase
  | prepared => some detached
  | detached => some rootReady
  | rootReady => some auditPending
  | auditPending => some done
  | done => none

def label : MigrationPhase → String
  | prepared => "prepared"
  | detached => "detached"
  | rootReady => "root-ready"
  | auditPending => "audit-pending"
  | done => "done"

/-- The phases that have been reached with this one. -/
def reached : MigrationPhase → List MigrationPhase
  | prepared => [prepared]
  | detached => [prepared, detached]
  | rootReady => [prepared, detached, rootReady]
  | auditPending => [prepared, detached, rootReady, auditPending]
  | done => [prepared, detached, rootReady, auditPending, done]

end MigrationPhase

/-- `StorageObjectIdentity`: the sixteen bytes of the file id as one number. -/
structure StorageObjectIdentity where
  volumeSerial : Nat
  fileId : Nat
  deriving DecidableEq, Repr

/-- `MigrationStateRecord`. -/
structure MigrationStateRecord where
  schema : Nat
  migrationId : String
  phase : MigrationPhase
  sourceIdentity : StorageObjectIdentity
  nextIdentity : StorageObjectIdentity
  legacyName : String
  nextName : String
  deriving DecidableEq, Repr

/-- `state_file_name`. -/
def stateFileName (state : MigrationStateRecord) : String :=
  STATE_PREFIX ++ state.migrationId ++ "-" ++ toString state.phase.number ++ "-" ++
    state.phase.label ++ STATE_SUFFIX

/-- The names that `load_pending_from_bootstrap` reads. -/
def isStateName (name : String) : Bool := startsWith STATE_PREFIX name && endsWith STATE_SUFFIX name

/-- `serde_json` on records; it encodes every record and reads back what it wrote. -/
structure StateCodec where
  encode : MigrationStateRecord → Bytes
  decode : Bytes → Except String MigrationStateRecord
  decode_encode : ∀ state, decode (encode state) = .ok state

/-- `{:#010x}` of an `i32`. -/
def hexStatus (status : Int) : String :=
  let digits := Nat.toDigits 16 (status % 4294967296).toNat
  "0x" ++ String.ofList (List.replicate (8 - digits.length) '0' ++ digits)

/-- `to_string` of a `StorageError`. -/
def storageText : StorageError → String
  | .io operation path source => s!"storage IO error during {operation} for {path}: {source}"
  | .native operation path status =>
    s!"native storage operation {operation} failed for {path}: NTSTATUS {hexStatus status}"
  | .legacyStorageInsecure text => s!"legacy storage is insecure and was left unchanged: {text}"
  | .lockTimeout => "storage lock timed out after 2s"
  | .invalidComponent name => s!"invalid storage component: {name}"
  | .secureFs text => s!"secure filesystem validation failed: {text}"
  | .knownFolder code =>
    s!"Known Folder ProgramData resolution failed with HRESULT {hexStatus code}"
  | .cleanupFailed operationError cleanupError =>
    s!"storage cleanup failed after {operationError}: {cleanupError}"

/-- `LegacyStorageError`. -/
inductive LegacyStorageError where
  | storage (error : StorageError)
  | serialization (text : String)
  | io (text : String)
  | publishedStateSync (name source : String)
  | statePublication (name : String) (source : StorageError)
  | privilege (text : String)
  | operationAndPrivilegeRestore (operationError restoreError : String)
  | privilegeRestore (text : String)
  | identityChanged
  | invalidState (text : String)
  | ambiguousState
  | random (status : Int)
  deriving DecidableEq, Repr

/-- `to_string` of a `LegacyStorageError`. -/
def LegacyStorageError.text : LegacyStorageError → String
  | .storage error => s!"protected storage error: {storageText error}"
  | .serialization text => s!"legacy migration state serialization failed: {text}"
  | .io text => s!"legacy migration state IO failed: {text}"
  | .publishedStateSync name source =>
    s!"legacy migration state {name} was published but final synchronization failed: {source}"
  | .statePublication name source =>
    s!"legacy migration state {name} publication failed with an ambiguous durable result: {storageText source}"
  | .privilege text => s!"privilege adjustment failed: {text}"
  | .operationAndPrivilegeRestore operationError restoreError =>
    s!"legacy namespace operation failed ({operationError}) and privilege restoration failed ({restoreError})"
  | .privilegeRestore text =>
    s!"privilege restoration failed after a recoverable namespace transition: {text}"
  | .identityChanged => "legacy source identity changed after consent; no object was moved"
  | .invalidState text => s!"legacy migration state is invalid: {text}"
  | .ambiguousState => "multiple unfinished legacy migrations are present"
  | .random status =>
    s!"Windows secure random generation failed with NTSTATUS {hexStatus status}"

/-- What `load_pending_from_bootstrap` makes of one file. -/
def checkState (C : StateCodec) (name : String) (bytes : Bytes) :
    Except LegacyStorageError MigrationStateRecord :=
  match C.decode bytes with
  | .error error => .error (.invalidState s!"{name}: {error}")
  | .ok record =>
    if record.schema ≠ 1 ∨ stateFileName record ≠ name then
      .error (.invalidState s!"state filename/content mismatch: {name}")
    else .ok record

section Names

variable {a b : MigrationStateRecord}

/-- What a state file name ends with. -/
def MigrationPhase.tail (phase : MigrationPhase) : String :=
  "-" ++ toString phase.number ++ "-" ++ phase.label ++ STATE_SUFFIX

theorem stateFileName_eq (a : MigrationStateRecord) :
    stateFileName a = STATE_PREFIX ++ a.migrationId ++ a.phase.tail := by
  simp only [stateFileName, MigrationPhase.tail, String.append_assoc]

theorem isStateName_stateFileName (a : MigrationStateRecord) : isStateName (stateFileName a) = true := by
  have hfront : startsWith STATE_PREFIX (stateFileName a) = true := by
    rw [startsWith, List.isPrefixOf_iff_prefix, stateFileName_eq, String.append_assoc,
      String.toList_append]
    exact List.prefix_append _ _
  have hback : endsWith STATE_SUFFIX (stateFileName a) = true := by
    rw [endsWith, List.isSuffixOf_iff_suffix, stateFileName, String.toList_append]
    exact List.suffix_append _ _
  rw [isStateName, hfront, hback, Bool.and_self]

/-- No ending is an ending of another one. -/
theorem tail_inj : ∀ p q : MigrationPhase, p.tail.toList <:+ q.tail.toList → p = q := by
  intro p q
  rw [← List.isSuffixOf_iff_suffix]
  cases p <;> cases q <;> decide +kernel

/-- **A file name tells** the migration and the phase. -/
theorem stateFileName_inj (h : stateFileName a = stateFileName b) :
    a.migrationId = b.migrationId ∧ a.phase = b.phase := by
  rw [stateFileName_eq, stateFileName_eq] at h
  have hlist := congrArg String.toList h
  simp only [String.toList_append] at hlist
  have hphase : a.phase = b.phase := by
    have hback : b.phase.tail.toList <:+
        STATE_PREFIX.toList ++ a.migrationId.toList ++ a.phase.tail.toList :=
      hlist ▸ List.suffix_append _ _
    rcases List.suffix_or_suffix_of_suffix (List.suffix_append _ a.phase.tail.toList) hback
      with hs | hs
    · exact tail_inj _ _ hs
    · exact (tail_inj _ _ hs).symm
  rw [hphase] at hlist
  exact ⟨String.ext (List.append_cancel_left (List.append_cancel_right hlist)), hphase⟩

end Names

/-! ## 2. Chains -/

/-- The checks of `load_pending_from_bootstrap` on two neighbours. -/
def linked (a b : MigrationStateRecord) : Bool :=
  a.phase.next == some b.phase && a.sourceIdentity == b.sourceIdentity &&
    a.nextIdentity == b.nextIdentity && a.legacyName == b.legacyName && a.nextName == b.nextName

/-- `records.windows(2)`. -/
def windows {α : Type} (l : List α) : List (α × α) := l.zip l.tail

/-- `records.sort_by_key(|record| record.phase)`. -/
def sortByPhase (records : List MigrationStateRecord) : List MigrationStateRecord :=
  records.insertionSort fun a b => a.phase.number ≤ b.phase.number

/-- One round of the loop over the groups: the latest record of a migration. -/
def checkGroup (records : List MigrationStateRecord) :
    Except LegacyStorageError MigrationStateRecord :=
  let records := sortByPhase records
  if records.head?.map (·.phase) ≠ some .prepared then
    .error (.invalidState "migration does not start at prepared")
  else if !(windows records).all (fun pair => linked pair.1 pair.2) then
    .error (.invalidState "migration state sequence is inconsistent")
  else match records.getLast? with
    | some latest => .ok latest
    | none => .error (.invalidState "grouped migration has at least one record")

/-- `match pending.len()`. -/
def onePending : List MigrationStateRecord → Except LegacyStorageError (Option MigrationStateRecord)
  | [] => .ok none
  | [record] => .ok (some record)
  | _ => .error .ambiguousState

/-- The part of `load_pending_from_bootstrap` after the files are read. -/
def pendingOf (records : List MigrationStateRecord) :
    Except LegacyStorageError (Option MigrationStateRecord) := do
  let latest ← (groupBy (·.migrationId) records).mapM fun group => checkGroup group.2
  onePending (latest.filter (·.phase ≠ .done))

/-- **The records of a migration up to `u`**: one for every phase, equal in all other fields. -/
def chainTo (u : MigrationStateRecord) : List MigrationStateRecord :=
  u.phase.reached.map fun phase => { u with phase }

section Chains

variable {u a b : MigrationStateRecord} {records : List MigrationStateRecord}

theorem chainTo_prepared (h : u.phase = .prepared) : chainTo u = [u] := by
  obtain ⟨schema, migrationId, phase, sourceIdentity, nextIdentity, legacyName, nextName⟩ := u
  cases h
  rfl

theorem chainTo_next (h : a.phase.next = some b.phase) (heq : a = { b with phase := a.phase }) :
    chainTo b = chainTo a ++ [b] := by
  obtain ⟨schema, migrationId, phase, sourceIdentity, nextIdentity, legacyName, nextName⟩ := b
  rw [heq] at h ⊢
  cases hp : a.phase <;> rw [hp] at h <;> cases h <;> rfl

theorem mem_chainTo : a ∈ chainTo u ↔ a.phase ∈ u.phase.reached ∧ a = { u with phase := a.phase } := by
  unfold chainTo
  rw [List.mem_map]
  constructor
  · rintro ⟨phase, hmem, rfl⟩
    exact ⟨hmem, rfl⟩
  · rintro ⟨hmem, heq⟩
    exact ⟨a.phase, hmem, heq.symm⟩

theorem self_mem_chainTo (u : MigrationStateRecord) : u ∈ chainTo u := by
  refine mem_chainTo.mpr ⟨?_, rfl⟩
  cases u.phase <;> decide

theorem migrationId_of_mem_chainTo (h : a ∈ chainTo u) : a.migrationId = u.migrationId := by
  rw [(mem_chainTo.mp h).2]

theorem getLast?_chainTo (u : MigrationStateRecord) : (chainTo u).getLast? = some u := by
  obtain ⟨schema, migrationId, phase, sourceIdentity, nextIdentity, legacyName, nextName⟩ := u
  cases phase <;> rfl

theorem pairwise_chainTo (u : MigrationStateRecord) :
    (chainTo u).Pairwise fun a b => a.phase.number < b.phase.number := by
  unfold chainTo
  rw [List.pairwise_map]
  cases u.phase <;> simp [MigrationPhase.reached, MigrationPhase.number]

theorem head_chainTo (u : MigrationStateRecord) :
    (chainTo u).head?.map (·.phase) = some .prepared := by
  unfold chainTo
  cases u.phase <;> rfl

theorem linked_chainTo (u : MigrationStateRecord) :
    (windows (chainTo u)).all (fun pair => linked pair.1 pair.2) = true := by
  unfold chainTo windows
  cases u.phase <;> simp [MigrationPhase.reached, linked, MigrationPhase.next]

/-- A latest record determines the chain, and is determined by it. -/
theorem chainTo_inj (h : ∀ x, x ∈ chainTo a ↔ x ∈ chainTo b) : a = b := by
  have hab := mem_chainTo.mp ((h a).mp (self_mem_chainTo a))
  have hba := mem_chainTo.mp ((h b).mpr (self_mem_chainTo b))
  have hphase : a.phase = b.phase := by
    have h₁ := hab.1
    have h₂ := hba.1
    revert h₁ h₂
    cases a.phase <;> cases b.phase <;> decide
  rw [hab.2, hphase]

theorem sortByPhase_perm (records : List MigrationStateRecord) :
    (sortByPhase records).Perm records := List.perm_insertionSort _ records

theorem sortByPhase_pairwise (records : List MigrationStateRecord) :
    (sortByPhase records).Pairwise fun a b => a.phase.number ≤ b.phase.number := by
  refine (@List.pairwise_insertionSort _ (fun a b : MigrationStateRecord =>
    a.phase.number ≤ b.phase.number) _ ⟨fun a b => le_total _ _⟩ ⟨fun a b c => le_trans⟩ records)

/-- Sorted by phase, a chain is in its own order. -/
theorem sortByPhase_of_perm (h : records.Perm (chainTo u)) : sortByPhase records = chainTo u := by
  have hperm := (sortByPhase_perm records).trans h
  refine List.Perm.eq_of_pairwise (fun x y hx hy hxy hyx => ?_) (sortByPhase_pairwise records)
    ((pairwise_chainTo u).imp le_of_lt) hperm
  obtain ⟨_, hxe⟩ := mem_chainTo.mp (hperm.subset hx)
  obtain ⟨_, hye⟩ := mem_chainTo.mp hy
  have hphase : x.phase = y.phase := by
    have hnumber := le_antisymm hxy hyx
    revert hnumber
    cases x.phase <;> cases y.phase <;> decide
  rw [hxe, hye, hphase]

theorem linked_iff : linked a b = true ↔ a.phase.next = some b.phase ∧
    a.sourceIdentity = b.sourceIdentity ∧ a.nextIdentity = b.nextIdentity ∧
    a.legacyName = b.legacyName ∧ a.nextName = b.nextName := by
  simp [linked, and_assoc]

theorem windows_concat {α : Type} (l : List α) (x y : α) :
    windows (l ++ [x] ++ [y]) = windows (l ++ [x]) ++ [(x, y)] := by
  induction l with
  | nil => rfl
  | cons z l ih =>
    cases l with
    | nil => rfl
    | cons w l => exact congrArg ((z, w) :: ·) ih

/-- Neighbours that are linked, from a prepared record on, are a chain. -/
theorem chain_of_linked (hid : ∀ x ∈ records, x.migrationId = u.migrationId)
    (hschema : ∀ x ∈ records, x.schema = u.schema)
    (hhead : records.head?.map (·.phase) = some .prepared)
    (hlinked : (windows records).all (fun pair => linked pair.1 pair.2) = true)
    (hlast : records.getLast? = some u) : records = chainTo u := by
  induction records using List.reverseRecOn generalizing u with
  | nil => cases hlast
  | append_singleton front last ih =>
    have hu : last = u := by simpa using hlast
    subst hu
    rcases List.eq_nil_or_concat' front with rfl | ⟨before, a, rfl⟩
    · have hphase : last.phase = .prepared := by simpa using hhead
      rw [chainTo_prepared hphase, List.nil_append]
    · rw [windows_concat, List.all_append, Bool.and_eq_true] at hlinked
      obtain ⟨hfront, hpair⟩ := hlinked
      obtain ⟨hnext, hsource, hnextId, hlegacy, hname⟩ :=
        linked_iff.mp (by simpa using hpair : linked a last = true)
      have ha : a ∈ before ++ [a] ++ [last] := by simp
      have heq : a = { last with phase := a.phase } := by
        obtain ⟨schema, migrationId, phase, source, nextId, legacy, name⟩ := a
        simp only at hsource hnextId hlegacy hname
        have hida := hid _ ha
        have hschemaa := hschema _ ha
        simp only at hida hschemaa
        subst hsource hnextId hlegacy hname hida hschemaa
        rfl
      rw [chainTo_next hnext heq]
      refine congrArg (· ++ [last]) (ih (u := a) (fun x hx => ?_) (fun x hx => ?_) ?_ hfront ?_)
      · rw [hid x (by simp at hx ⊢; tauto), hid a ha]
      · rw [hschema x (by simp at hx ⊢; tauto), hschema a ha]
      · cases before <;> simpa using hhead
      · simp

/-- **One group**: its check gives the latest record exactly of a chain. -/
theorem checkGroup_ok (hid : ∀ x ∈ records, ∀ y ∈ records, x.migrationId = y.migrationId)
    (hschema : ∀ x ∈ records, x.schema = 1) :
    checkGroup records = .ok u ↔ u.schema = 1 ∧ records.Perm (chainTo u) := by
  constructor
  · intro h
    unfold checkGroup at h
    simp only at h
    split at h
    · cases h
    next hhead =>
      split at h
      · cases h
      next hlinked =>
        split at h
        next latest hlast =>
          cases h
          have hmem : u ∈ sortByPhase records := List.mem_of_getLast? hlast
          have hsub := sortByPhase_perm records
          have hu : u.schema = 1 := hschema u (hsub.subset hmem)
          refine ⟨hu, hsub.symm.trans (.of_eq (chain_of_linked (u := u) (fun x hx => ?_)
            (fun x hx => ?_) (not_not.mp hhead) (by simpa using hlinked) hlast))⟩
          · exact hid x (hsub.subset hx) u (hsub.subset hmem)
          · rw [hschema x (hsub.subset hx), hu]
        next => cases h
  · rintro ⟨_, hperm⟩
    unfold checkGroup
    rw [sortByPhase_of_perm hperm]
    simp [head_chainTo, linked_chainTo, getLast?_chainTo]

end Chains

/-! ## 3. All migrations -/

/-- The records that were published for one migration. -/
def recordsOf (id : String) (records : List MigrationStateRecord) : List MigrationStateRecord :=
  records.filter fun x => x.migrationId = id

/-- **The migration of `u` has come to `u`**: its records are the chain up to it. -/
def Reached (records : List MigrationStateRecord) (u : MigrationStateRecord) : Prop :=
  (recordsOf u.migrationId records).Perm (chainTo u)

/-- Every migration in `P` is complete. -/
def AllDone (records : List MigrationStateRecord) (P : String → Prop) : Prop :=
  ∀ id, P id → recordsOf id records ≠ [] →
    ∃ u, u.migrationId = id ∧ u.phase = .done ∧ Reached records u

section Pending

variable {records : List MigrationStateRecord} {u : MigrationStateRecord}

theorem mapM_ok {ε α β : Type} {f : α → Except ε β} : ∀ {l : List α} {bs : List β},
    l.mapM f = .ok bs ↔ List.Forall₂ (fun a b => f a = .ok b) l bs
  | [], bs => by
    cases bs <;> simp [pure, Except.pure]
  | a :: l, bs => by
    simp only [List.mapM_cons, bind, Except.bind]
    cases hf : f a with
    | error e => cases bs <;> simp [hf]
    | ok b =>
      cases hl : l.mapM f with
      | error e =>
        simp only [List.forall₂_cons_left_iff, hf]
        refine ⟨nofun, fun ⟨b', bs', _, hbs, _⟩ => ?_⟩
        rw [mapM_ok.mpr hbs] at hl
        cases hl
      | ok rest =>
        cases bs with
        | nil => simp [pure, Except.pure]
        | cons b' bs =>
          have hrest : l.mapM f = .ok bs ↔ _ := mapM_ok
          rw [hl] at hrest
          simp only [pure, Except.pure, Except.ok.injEq, List.cons.injEq, List.forall₂_cons, hf]
          exact and_congr_right fun _ => (Except.ok.injEq _ _ ▸ hrest)

theorem exists_forall₂ {α β : Type} {R : α → β → Prop} : ∀ {l : List α},
    (∀ a ∈ l, ∃ b, R a b) → ∃ bs, List.Forall₂ R l bs
  | [], _ => ⟨[], .nil⟩
  | a :: l, h => by
    obtain ⟨b, hb⟩ := h a (List.mem_cons_self ..)
    obtain ⟨bs, hbs⟩ := exists_forall₂ fun x hx => h x (List.mem_cons_of_mem _ hx)
    exact ⟨b :: bs, .cons hb hbs⟩

theorem recordsOf_ne_nil (h : Reached records u) : recordsOf u.migrationId records ≠ [] := by
  intro hnil
  have hmem := h.symm.subset (self_mem_chainTo u)
  rw [hnil] at hmem
  cases hmem

theorem Reached.unique {v : MigrationStateRecord} (hu : Reached records u) (hv : Reached records v)
    (hid : u.migrationId = v.migrationId) : u = v := by
  refine chainTo_inj fun x => ?_
  rw [← hu.mem_iff, ← hv.mem_iff, hid]

/-- The latest record of a group is the one that its migration has come to. -/
theorem checkGroup_of_mem (hschema : ∀ x ∈ records, x.schema = 1) {k : String}
    {group : List MigrationStateRecord} (h : (k, group) ∈ groupBy (·.migrationId) records) :
    checkGroup group = .ok u ↔ u.migrationId = k ∧ Reached records u := by
  obtain ⟨rfl, hne⟩ := mem_groupBy.mp h
  have hid : ∀ x ∈ recordsOf k records, x.migrationId = k := fun x hx => by
    simpa using (List.mem_filter.mp hx).2
  have hone : ∀ x ∈ recordsOf k records, x.schema = 1 := fun x hx =>
    hschema x (List.mem_filter.mp hx).1
  refine (checkGroup_ok (fun x hx y hy => (hid x hx).trans (hid y hy).symm) hone).trans ?_
  constructor
  · rintro ⟨_, hperm⟩
    have hu : u.migrationId = k := hid u (hperm.symm.subset (self_mem_chainTo u))
    refine ⟨hu, ?_⟩
    rw [Reached, hu]
    exact hperm
  · rintro ⟨rfl, hreached⟩
    exact ⟨hone u (hreached.symm.subset (self_mem_chainTo u)), hreached⟩

/-- The latest records of all groups. -/
theorem mem_latest (hschema : ∀ x ∈ records, x.schema = 1) {latest : List MigrationStateRecord}
    (h : List.Forall₂ (fun group u => checkGroup group.2 = .ok u) (groupBy (·.migrationId) records)
      latest) : u ∈ latest ↔ Reached records u := by
  constructor
  · intro hu
    obtain ⟨i, hi, rfl⟩ := List.mem_iff_getElem.mp hu
    have hi' : i < (groupBy (·.migrationId) records).length := h.length_eq ▸ hi
    have hcheck := h.get hi' hi
    exact ((checkGroup_of_mem hschema (List.getElem_mem hi')).mp hcheck).2
  · intro hu
    have hmem : (u.migrationId, recordsOf u.migrationId records)
        ∈ groupBy (·.migrationId) records := mem_groupBy.mpr ⟨rfl, recordsOf_ne_nil hu⟩
    obtain ⟨i, hi, heq⟩ := List.mem_iff_getElem.mp hmem
    have hi' : i < latest.length := h.length_eq ▸ hi
    have hcheck : checkGroup (recordsOf u.migrationId records) = .ok latest[i] := by
      have hget := h.get hi hi'
      simpa [heq] using hget
    obtain ⟨hid, hreached⟩ := (checkGroup_of_mem hschema hmem).mp hcheck
    rw [hu.unique hreached hid.symm]
    exact List.getElem_mem hi'

theorem nodup_latest (hschema : ∀ x ∈ records, x.schema = 1) {latest : List MigrationStateRecord}
    (h : List.Forall₂ (fun group u => checkGroup group.2 = .ok u) (groupBy (·.migrationId) records)
      latest) : latest.Nodup := by
  have hkeys : latest.map (·.migrationId) = (groupBy (·.migrationId) records).map Prod.fst := by
    refine List.ext_getElem (by simp [h.length_eq]) fun i hi hi' => ?_
    have hi₁ : i < latest.length := by simpa using hi
    have hi₂ : i < (groupBy (·.migrationId) records).length := by simpa using hi'
    have hcheck := h.get hi₂ hi₁
    simpa using ((checkGroup_of_mem hschema (List.getElem_mem hi₂)).mp hcheck).1
  have hsorted := keysSorted_groupBy (·.migrationId) records
  refine List.Nodup.of_map (·.migrationId) ?_
  rw [hkeys]
  exact List.pairwise_map.mpr (hsorted.imp ne_of_lt)

theorem groups_ok (hschema : ∀ x ∈ records, x.schema = 1) :
    (∃ latest, List.Forall₂ (fun group u => checkGroup group.2 = .ok u)
      (groupBy (·.migrationId) records) latest) ↔
    ∀ id, recordsOf id records ≠ [] → ∃ u, u.migrationId = id ∧ Reached records u := by
  constructor
  · rintro ⟨latest, h⟩ id hne
    have hmem : (id, recordsOf id records) ∈ groupBy (·.migrationId) records :=
      mem_groupBy.mpr ⟨rfl, hne⟩
    obtain ⟨i, hi, heq⟩ := List.mem_iff_getElem.mp hmem
    have hget := h.get hi (h.length_eq ▸ hi)
    exact ⟨_, (checkGroup_of_mem hschema hmem).mp (by simpa [heq] using hget)⟩
  · intro h
    refine exists_forall₂ fun group hgroup => ?_
    obtain ⟨k, as⟩ := group
    obtain ⟨has, hne⟩ := mem_groupBy.mp hgroup
    subst has
    obtain ⟨u, hu⟩ := h k hne
    exact ⟨u, (checkGroup_of_mem hschema hgroup).mpr hu⟩

theorem eq_singleton_of_nodup {α : Type} {l : List α} {a : α} (hl : l.Nodup) (ha : a ∈ l)
    (h : ∀ x ∈ l, x = a) : l = [a] := by
  cases l with
  | nil => cases ha
  | cons b rest =>
    obtain ⟨hb, _⟩ := List.nodup_cons.mp hl
    cases h b (List.mem_cons_self ..)
    cases rest with
    | nil => rfl
    | cons c rest =>
      cases h c (by simp)
      exact absurd (List.mem_cons_self ..) hb

theorem onePending_none : onePending records = .ok none ↔ records = [] := by
  rcases records with _ | ⟨r, _ | ⟨r', rest⟩⟩ <;> simp [onePending]

theorem onePending_some : onePending records = .ok (some u) ↔ records = [u] := by
  rcases records with _ | ⟨r, _ | ⟨r', rest⟩⟩ <;> simp [onePending]

/-- **Nothing is pending** exactly when every migration is complete. -/
theorem pendingOf_none (hschema : ∀ x ∈ records, x.schema = 1) :
    pendingOf records = .ok none ↔ AllDone records fun _ => True := by
  have hgroups := groups_ok hschema
  unfold pendingOf
  cases hm : (groupBy (·.migrationId) records).mapM fun group => checkGroup group.2 with
  | error e =>
    refine ⟨nofun, fun hall => ?_⟩
    obtain ⟨latest, h⟩ := hgroups.mpr fun id hne =>
      (hall id trivial hne).imp fun u hu => ⟨hu.1, hu.2.2⟩
    rw [mapM_ok.mpr h] at hm
    cases hm
  | ok latest =>
    have h := mapM_ok.mp hm
    have hmem := fun u => mem_latest (u := u) hschema h
    have hempty : latest.filter (fun x => x.phase ≠ .done) = [] ↔ AllDone records fun _ => True := by
      rw [List.filter_eq_nil_iff]
      constructor
      · intro hdone id _ hne
        obtain ⟨u, hid, hu⟩ := hgroups.mp ⟨latest, h⟩ id hne
        exact ⟨u, hid, by simpa using hdone u ((hmem u).mpr hu), hu⟩
      · intro hall u hu
        have hreached := (hmem u).mp hu
        obtain ⟨v, hid, hdone, hv⟩ := hall u.migrationId trivial (recordsOf_ne_nil hreached)
        rw [hreached.unique hv hid.symm, hdone]
        simp
    exact onePending_none.trans hempty

/-- **One record is pending** exactly when its migration has come to it and is the only one that is
not complete. -/
theorem pendingOf_some (hschema : ∀ x ∈ records, x.schema = 1) :
    pendingOf records = .ok (some u) ↔
      u.phase ≠ .done ∧ Reached records u ∧ AllDone records fun id => id ≠ u.migrationId := by
  have hgroups := groups_ok hschema
  unfold pendingOf
  cases hm : (groupBy (·.migrationId) records).mapM fun group => checkGroup group.2 with
  | error e =>
    refine ⟨nofun, fun ⟨_, hu, hall⟩ => ?_⟩
    obtain ⟨latest, h⟩ := hgroups.mpr fun id hne => by
      by_cases hid : id = u.migrationId
      · exact ⟨u, hid.symm, hu⟩
      · exact (hall id hid hne).imp fun v hv => ⟨hv.1, hv.2.2⟩
    rw [mapM_ok.mpr h] at hm
    cases hm
  | ok latest =>
    have h := mapM_ok.mp hm
    have hmem := fun u => mem_latest (u := u) hschema h
    have hone : latest.filter (fun x => x.phase ≠ .done) = [u] ↔
        u.phase ≠ .done ∧ Reached records u ∧ AllDone records fun id => id ≠ u.migrationId := by
      constructor
      · intro hf
        have hu : u ∈ latest.filter fun x => x.phase ≠ .done := by rw [hf]; simp
        obtain ⟨hlatest, hopen⟩ := List.mem_filter.mp hu
        refine ⟨by simpa using hopen, (hmem u).mp hlatest, fun id hid hne => ?_⟩
        obtain ⟨v, hv, hreached⟩ := hgroups.mp ⟨latest, h⟩ id hne
        refine ⟨v, hv, ?_, hreached⟩
        by_contra hopen'
        have hin : v ∈ latest.filter fun x => x.phase ≠ .done :=
          List.mem_filter.mpr ⟨(hmem v).mpr hreached, by simpa using hopen'⟩
        rw [hf, List.mem_singleton] at hin
        exact hid (hv.symm.trans (by rw [hin]))
      · rintro ⟨hopen, hu, hall⟩
        refine eq_singleton_of_nodup ((nodup_latest hschema h).filter _)
          (List.mem_filter.mpr ⟨(hmem u).mpr hu, by simpa using hopen⟩) fun v hv => ?_
        obtain ⟨hlatest, hopen'⟩ := List.mem_filter.mp hv
        have hreached := (hmem v).mp hlatest
        by_cases hid : v.migrationId = u.migrationId
        · exact hreached.unique hu hid
        · obtain ⟨w, hw, hdone, hreached'⟩ := hall _ hid (recordsOf_ne_nil hreached)
          rw [hreached.unique hreached' hw.symm] at hopen'
          simp [hdone] at hopen'
    exact onePending_some.trans hone

end Pending

/-! ## 4. A codec -/

/-- A number as that many ones and a zero. -/
def putNumber (n : Nat) : Bytes := List.replicate n 1 ++ [0]

/-- The numbers in a sequence of bytes; `n` ones have been read. -/
def getNumbers : Nat → Bytes → List Nat
  | _, [] => []
  | n, byte :: rest => if byte = 0 then n :: getNumbers 0 rest else getNumbers (n + 1) rest

def putText (text : String) : List Nat := text.length :: text.toList.map Char.toNat

def getText : List Nat → String × List Nat
  | [] => ("", [])
  | n :: rest => (String.ofList ((rest.take n).map Char.ofNat), rest.drop n)

def MigrationPhase.ofNumber : Nat → MigrationPhase
  | 0 => prepared
  | 1 => detached
  | 2 => rootReady
  | 3 => auditPending
  | _ => done

def MigrationStateRecord.numbers (r : MigrationStateRecord) : List Nat :=
  [r.schema, r.phase.number, r.sourceIdentity.volumeSerial, r.sourceIdentity.fileId,
    r.nextIdentity.volumeSerial, r.nextIdentity.fileId] ++
    (putText r.migrationId ++ (putText r.legacyName ++ putText r.nextName))

def MigrationStateRecord.ofNumbers : List Nat → Option MigrationStateRecord
  | schema :: phase :: sourceVolume :: sourceFile :: nextVolume :: nextFile :: rest =>
    let migrationId := getText rest
    let legacyName := getText migrationId.2
    let nextName := getText legacyName.2
    some { schema, migrationId := migrationId.1, phase := .ofNumber phase
           sourceIdentity := ⟨sourceVolume, sourceFile⟩, nextIdentity := ⟨nextVolume, nextFile⟩
           legacyName := legacyName.1, nextName := nextName.1 }
  | _ => none

section Codec

theorem getNumbers_replicate (n m : Nat) (rest : Bytes) :
    getNumbers m (List.replicate n 1 ++ rest) = getNumbers (m + n) rest := by
  induction n generalizing m with
  | zero => rfl
  | succ n ih =>
    rw [List.replicate_succ, List.cons_append, getNumbers, if_neg (by decide), ih]
    congr 1
    omega

theorem getNumbers_put : ∀ l : List Nat, getNumbers 0 (l.flatMap putNumber) = l
  | [] => rfl
  | n :: l => by
    rw [List.flatMap_cons, putNumber, List.append_assoc, getNumbers_replicate, Nat.zero_add,
      List.singleton_append, getNumbers, if_pos rfl, getNumbers_put l]

theorem le_one_of_mem_put {l : List Nat} {byte : UInt8} (h : byte ∈ l.flatMap putNumber) :
    byte ≤ 1 := by
  obtain ⟨n, _, hn⟩ := List.mem_flatMap.mp h
  rcases List.mem_append.mp hn with hn | hn
  · rw [(List.mem_replicate.mp hn).2]
    decide
  · rw [List.mem_singleton.mp hn]
    decide

theorem getText_put (text : String) (rest : List Nat) :
    getText (putText text ++ rest) = (text, rest) := by
  have hlength : text.length = (text.toList.map Char.toNat).length := by
    rw [List.length_map, String.length_toList]
  have hchars : (text.toList.map Char.toNat).map Char.ofNat = text.toList := by
    rw [List.map_map]
    exact (List.map_congr_left fun c _ => Char.ofNat_toNat c).trans (List.map_id _)
  rw [putText, List.cons_append, getText, hlength, List.take_left, List.drop_left, hchars,
    String.ofList_toList]

theorem ofNumbers_numbers (r : MigrationStateRecord) :
    MigrationStateRecord.ofNumbers r.numbers = some r := by
  have hlast : getText (putText r.nextName) = (r.nextName, []) := by
    rw [← getText_put r.nextName [], List.append_nil]
  have hphase : MigrationPhase.ofNumber r.phase.number = r.phase := by
    cases r.phase <;> rfl
  simp only [MigrationStateRecord.numbers, List.cons_append, List.nil_append,
    MigrationStateRecord.ofNumbers, getText_put, hlast, hphase]

end Codec

end WinProfile.Legacy
