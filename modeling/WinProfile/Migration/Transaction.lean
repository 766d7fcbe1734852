/-
  File:      WinProfile/Migration/Transaction.lean
  Subject:   core-profiles/src/migration.rs: the transaction. A migration keeps the whole target or
             nothing of it, wherever a call fails and whenever it is cancelled.

  * `Undisturbed` -- no call of a part of the run has failed, and no answer was to cancel.
  * `Owns` -- the stack of created entries lists every new object, the last one first.
  * `Pending` -- an object that exists and that the stack does not list yet.
  * `Quiet`, `Careful` -- what a computation does to the stack and the objects, whether it fails or
    not; both are closed under the constructs of the code.
  * `rollback_spec` -- everything on the stack is removed, and nothing else.
  * `migration_all_or_nothing` -- every run.
-/
import WinProfile.Migration.Listing

namespace WinProfile.Migration

variable {H : CopyHost} {fate : Fate} {s₀ s s' s'' : RunState} {α β ε : Type}

/-! ## 1. Parts of a run -/

/-- Every call from `s` to `s'` has been made without a fault, and every answer was to go on. -/
structure Undisturbed (fate : Fate) (s s' : RunState) : Prop where
  clock : s.clock ≤ s'.clock
  polls : s.polls ≤ s'.polls
  faults : ∀ n, s.clock ≤ n → n < s'.clock → fate.faults n = none
  isCancelled : ∀ n, s.polls ≤ n → n < s'.polls → fate.isCancelled n = false

theorem Undisturbed.of_eq (hclock : s'.clock = s.clock) (hpolls : s'.polls = s.polls) :
    Undisturbed fate s s' where
  clock := hclock.ge
  polls := hpolls.ge
  faults _ hn hlt := absurd (hlt.trans_eq hclock) (Nat.not_lt.mpr hn)
  isCancelled _ hn hlt := absurd (hlt.trans_eq hpolls) (Nat.not_lt.mpr hn)

theorem Undisturbed.refl (s : RunState) : Undisturbed fate s s := .of_eq rfl rfl

theorem Undisturbed.trans (h : Undisturbed fate s s') (h' : Undisturbed fate s' s'') :
    Undisturbed fate s s'' where
  clock := h.clock.trans h'.clock
  polls := h.polls.trans h'.polls
  faults n hn hlt := by
    rcases Nat.lt_or_ge n s'.clock with hmid | hmid
    · exact h.faults n hn hmid
    · exact h'.faults n hmid hlt
  isCancelled n hn hlt := by
    rcases Nat.lt_or_ge n s'.polls with hmid | hmid
    · exact h.isCancelled n hn hmid
    · exact h'.isCancelled n hmid hlt

/-- One call without a fault. -/
theorem Undisturbed.tick (h : fate.faults s.clock = none) (hclock : s'.clock = s.clock + 1)
    (hpolls : s'.polls = s.polls) : Undisturbed fate s s' where
  clock := hclock ▸ Nat.le_succ _
  polls := hpolls.ge
  faults n hn hlt := by
    obtain rfl : n = s.clock := by omega
    exact h
  isCancelled _ hn hlt := absurd (hlt.trans_eq hpolls) (Nat.not_lt.mpr hn)

/-- The destination, the stack and the journal are as they were. -/
structure Untouched (s s' : RunState) : Prop where
  objects : s'.objects = s.objects
  nextSerial : s'.nextSerial = s.nextSerial
  entries : s'.transaction.createdEntries = s.transaction.createdEntries
  audits : s'.audits = s.audits

theorem Untouched.refl (s : RunState) : Untouched s s := ⟨rfl, rfl, rfl, rfl⟩

theorem Untouched.trans (h : Untouched s s') (h' : Untouched s' s'') : Untouched s s'' :=
  ⟨h'.objects.trans h.objects, h'.nextSerial.trans h.nextSerial, h'.entries.trans h.entries,
    h'.audits.trans h.audits⟩

theorem Untouched.tick (s : RunState) : Untouched s s.tick := ⟨rfl, rfl, rfl, rfl⟩

/-! ## 2. Computations that touch nothing -/

/-- Nothing is touched, and a value comes only out of an undisturbed run. -/
def Quiet (fate : Fate) (m : Act RunState ε α) : Prop :=
  Act.Ends (fun s s' => Untouched s s' ∧ Undisturbed fate s s') Untouched m

section Quiet

theorem quiet_refl (s : RunState) : Untouched s s ∧ Undisturbed fate s s := ⟨.refl s, .refl s⟩

theorem Quiet.bind {m : Act RunState ε α} {f : α → Act RunState ε β} (hm : Quiet fate m)
    (hf : ∀ a, Quiet fate (f a)) : Quiet fate (m >>= f) :=
  Act.Ends.bind (fun _ _ _ h h' => ⟨h.1.trans h'.1, h.2.trans h'.2⟩)
    (fun _ _ _ h h' => h.1.trans h') hm hf

theorem quiet_pure (a : α) : Quiet fate (pure a : Act RunState ε α) := Act.ends_pure quiet_refl a

theorem quiet_read : Quiet fate (Act.read : Act RunState ε RunState) := Act.ends_read quiet_refl

theorem quiet_fail (e : ε) : Quiet fate (Act.fail e : Act RunState ε α) := Act.ends_fail .refl e

theorem quiet_guard (c : Bool) (e : ε) : Quiet fate (Act.guard c e : Act RunState ε Unit) :=
  Act.ends_guard quiet_refl .refl c e

theorem quiet_ofExcept (r : Except ε α) : Quiet fate (Act.ofExcept r : Act RunState ε α) :=
  Act.ends_ofExcept quiet_refl .refl r

theorem Quiet.mapErr {ε' : Type} {m : Act RunState ε α} (h : Quiet fate m) (f : ε → ε') :
    Quiet fate (Act.mapErr f m) := Act.Ends.mapErr h f

theorem quiet_when {m : Act RunState ε Unit} (h : Quiet fate m) (c : Bool) :
    Quiet fate (Act.when c m) := Act.Ends.when quiet_refl h c

theorem quiet_update {f : RunState → RunState} (h : ∀ s, Untouched s (f s))
    (hclock : ∀ s, (f s).clock = s.clock) (hpolls : ∀ s, (f s).polls = s.polls) :
    Quiet fate (Act.update f : Act RunState ε Unit) :=
  Act.ends_update fun s => ⟨h s, .of_eq (hclock s) (hpolls s)⟩

theorem quiet_call {error : CallFault → ε} {body : Act RunState ε α} (h : Quiet fate body) :
    Quiet fate (call fate error body) := by
  intro s
  rw [wp_call]
  cases hf : fate.faults s.clock with
  | some f => exact .tick s
  | none =>
    have htick : Undisturbed fate s s.tick := .tick hf rfl rfl
    refine Act.wp_mono (h s.tick) (fun _ s' h' => ?_) fun _ s' h' => (Untouched.tick s).trans h'
    exact ⟨(Untouched.tick s).trans h'.1, htick.trans h'.2⟩

theorem quiet_inspect : Quiet fate (inspect fate) := quiet_call (Act.ends_ret quiet_refl ())

theorem quiet_fileCall : Quiet fate (fileCall fate) := quiet_call (Act.ends_ret quiet_refl ())

theorem quiet_checkCancelled : Quiet fate (checkCancelled fate) := by
  intro s
  unfold checkCancelled
  rw [Act.wp_of]
  cases hp : fate.isCancelled s.polls with
  | true => exact ⟨rfl, rfl, rfl, rfl⟩
  | false =>
    refine ⟨⟨rfl, rfl, rfl, rfl⟩, ?_⟩
    constructor
    case clock => exact le_rfl
    case polls => exact Nat.le_succ _
    case faults => exact fun n hn hlt => absurd hlt (Nat.not_lt.mpr hn)
    case isCancelled =>
      intro n hn hlt
      obtain rfl : n = s.polls := Nat.le_antisymm (Nat.le_of_lt_succ hlt) hn
      exact hp

theorem quiet_report (progress : CopyTransaction → Progress.MigrationProgress) :
    Quiet fate (report progress) :=
  quiet_update (fun _ => ⟨rfl, rfl, rfl, rfl⟩) (fun _ => rfl) fun _ => rfl

theorem quiet_observeCopy (relativePath : Wide) (copiedBytes : Nat) :
    Quiet fate (observeCopy relativePath copiedBytes) :=
  quiet_update (fun _ => ⟨rfl, rfl, rfl, rfl⟩) (fun _ => rfl) fun _ => rfl

theorem quiet_openFile (dir : SourceDirectory) (name : Wide) :
    Quiet fate (dir.openFile H fate name) := by
  refine .bind (quiet_ofExcept _) fun path => .bind (quiet_ofExcept _) fun _ => ?_
  exact quiet_call (quiet_ofExcept _)

theorem quiet_entries (dir : SourceDirectory) : Quiet fate (dir.entries H fate) :=
  quiet_call (quiet_ofExcept _)

theorem quiet_hashLoop : ∀ (pieces : List Bytes) (hashed : Bytes),
    Quiet fate (hashLoop fate pieces hashed)
  | [], _ => .bind quiet_checkCancelled fun _ => .bind quiet_fileCall fun _ => quiet_pure _
  | _ :: rest, _ => .bind quiet_checkCancelled fun _ => .bind quiet_fileCall fun _ =>
      quiet_hashLoop rest _

theorem quiet_piecesOf (content : Bytes) : Quiet fate (piecesOf fate content) := by
  intro s
  unfold piecesOf
  rw [Act.wp_of]
  exact quiet_refl s

theorem quiet_sha256File (serial : Nat) : Quiet fate (sha256File fate H serial) := by
  refine .bind quiet_read fun s => .bind (quiet_piecesOf _) fun pieces => ?_
  exact .bind (quiet_hashLoop pieces []) fun hashed => quiet_pure _

/-- A call that looks for a name touches nothing, and that the name is absent is no failure. -/
def Looks (fate : Fate) (m : Act RunState SecureFsError α) : Prop :=
  ∀ s, Act.wp m (fun _ s' => Untouched s s' ∧ Undisturbed fate s s')
    (fun e s' => Untouched s s' ∧ ((∃ path, e = .notFound path) → Undisturbed fate s s')) s

theorem looks_open {parent name : Wide} {body : Wide → Act RunState SecureFsError α}
    (hbody : ∀ path s, (body path s).2 = s) :
    Looks fate (do
      let path ← Act.ofExcept (childDisplayPath parent name)
      Act.ofExcept (checkRelativeName name path)
      call fate CallFault.secure (body path)) := by
  intro s
  rw [Act.wp_bind]
  refine wp_childDisplayPath (fun _ _ => ⟨.refl s, by simp⟩) ?_
  rw [Act.wp_bind]
  refine wp_checkRelativeName (fun _ _ => ⟨.refl s, by simp⟩) fun _ => ?_
  rw [wp_call]
  cases hf : fate.faults s.clock with
  | some f => exact ⟨.tick s, fun ⟨path, he⟩ => absurd he (f.real path)⟩
  | none =>
    have hstill := hbody (WinPath.join parent name) s.tick
    have hclean : Undisturbed fate s s.tick := .tick hf rfl rfl
    unfold Act.wp
    rcases hrun : body (WinPath.join parent name) s.tick with ⟨e | a, t⟩
    · rw [hrun] at hstill
      obtain rfl : t = s.tick := hstill
      exact ⟨.tick s, fun _ => hclean⟩
    · rw [hrun] at hstill
      obtain rfl : t = s.tick := hstill
      exact ⟨.tick s, hclean⟩

theorem looks_sourceOpenDirectory (dir : SourceDirectory) (name : Wide) :
    Looks fate (dir.openDirectory H fate name) :=
  looks_open fun path s => by
    cases SourceNode.asDirectory path (dir.node.find H name) <;> rfl

theorem looks_openDirectory (dir : DestDirectory) (name : Wide) :
    Looks fate (dir.openDirectory H fate name) :=
  looks_open fun path s => by
    unfold Act.of
    dsimp only
    split <;> rfl

theorem Looks.quiet {m : Act RunState SecureFsError α} (h : Looks fate m) : Quiet fate m :=
  fun s => Act.wp_mono (h s) (fun _ _ h' => h') fun _ _ h' => h'.1

theorem quiet_openComponents (relative : Wide) :
    ∀ (components : List WinPath.Component) (current : SourceDirectory),
      Quiet fate (openComponents fate H relative current components) := by
  intro components
  induction components with
  | nil => exact fun _ => quiet_pure _
  | cons component rest ih =>
    intro current
    cases component with
    | normal name =>
      intro s
      rw [openComponents, Act.wp_bind, Act.wp_attempt]
      refine Act.wp_mono (looks_sourceOpenDirectory current name s) (fun next s₁ h₁ => ?_)
        fun e s₁ h₁ => ?_
      · refine Act.wp_mono (ih next s₁) (fun _ _ h₂ => ?_) fun _ _ h₂ => h₁.1.trans h₂
        exact ⟨h₁.1.trans h₂.1, h₁.2.trans h₂.2⟩
      · split
        · next heq => cases heq
        · next path heq => exact (Act.wp_pure _).mpr ⟨h₁.1, h₁.2 ⟨path, Except.error.inj heq⟩⟩
        · exact (Act.wp_fail _).mpr h₁.1
    | _ => exact quiet_fail _

theorem quiet_openRelativeDirectoryIfPresent (root : SourceDirectory) (relative : Wide) :
    Quiet fate (openRelativeDirectoryIfPresent fate H root relative) := by
  unfold openRelativeDirectoryIfPresent
  split
  · exact quiet_pure _
  · exact quiet_openComponents relative _ root

end Quiet

/-! ## 3. The stack of created entries -/

/-- The journal has got entries since, and none of them says that the migration was a success. -/
def Unfinished (s₀ s : RunState) : Prop :=
  ∃ more, s.audits = s₀.audits ++ more ∧ ∀ e ∈ more, e.operation ≠ "MigrationSuccess"

/-- The stack lists the objects that are new since `s₀`, the last one first. -/
structure Owns (s₀ s : RunState) : Prop where
  stack : ∃ new, s.objects = s₀.objects ++ new ∧
    s.transaction.createdEntries.map (·.handle) = (new.map (·.serial)).reverse
  ordered : Ordered s
  nextSerial : s₀.nextSerial ≤ s.nextSerial
  unfinished : Unfinished s₀ s

/-- The object of this entry is new since `t` and not on the stack. -/
structure Pending (s₀ t s : RunState) (entry : SecureCreatedEntry) : Prop where
  owns : Owns s₀ t
  made : ∃ parent name content, Exists t parent ∧
    s.objects = t.objects ++ [⟨t.nextSerial, parent, name, content⟩]
  handle : entry.handle = t.nextSerial
  nextSerial : s.nextSerial = t.nextSerial + 1
  entries : s.transaction.createdEntries = t.transaction.createdEntries
  audits : s.audits = t.audits

section Stack

variable {t : RunState} {entry : SecureCreatedEntry} {kept new front : List DestObject}
  {o : DestObject}

theorem Unfinished.congr (h : Unfinished s₀ s) (haudits : s'.audits = s.audits) :
    Unfinished s₀ s' := by
  unfold Unfinished
  rwa [haudits]

theorem Unfinished.concat (h : Unfinished s₀ s) {e : AuditEntry} (haudits : s'.audits = s.audits ++ [e])
    (he : e.operation ≠ "MigrationSuccess") : Unfinished s₀ s' := by
  obtain ⟨more, hmore, hnone⟩ := h
  refine ⟨more ++ [e], by rw [haudits, hmore, List.append_assoc], fun e' he' => ?_⟩
  rcases List.mem_append.mp he' with he' | he'
  · exact hnone e' he'
  · rwa [List.mem_singleton.mp he']

/-- The order looks at the objects and at the next serial number only. -/
theorem Ordered.congr (ho : Ordered s) (hobjects : s'.objects = s.objects)
    (hserial : s.nextSerial ≤ s'.nextSerial) : Ordered s' := by
  obtain ⟨h₁, h₂, h₃⟩ := ho
  constructor <;> rw [hobjects]
  · exact h₁
  · exact fun o ho => (h₂ o ho).trans_le hserial
  · exact h₃

theorem Ordered.without_last (ho : Ordered s) (hobjects : s.objects = front ++ [o])
    (hfront : s'.objects = front) (hserial : s.nextSerial ≤ s'.nextSerial) : Ordered s' := by
  obtain ⟨h₁, h₂, h₃⟩ := ho
  rw [hobjects] at h₁ h₂ h₃
  constructor <;> rw [hfront]
  · exact (List.pairwise_append.mp h₁).1
  · exact fun o ho => (h₂ o (List.mem_append_left _ ho)).trans_le hserial
  · exact fun o ho => h₃ o (List.mem_append_left _ ho)

/-- Nothing lies in the object that was created last. -/
theorem Ordered.within_last (ho : Ordered s) (hobjects : s.objects = front ++ [o]) :
    s.within (some o.serial) = [] := by
  have hsorted := ho.sorted
  rw [hobjects, List.pairwise_append] at hsorted
  refine List.filter_eq_nil_iff.mpr fun o' hmem => ?_
  simp only [decide_eq_true_eq]
  intro hparent
  have hlt : o.serial < o'.serial := ho.parents o' hmem _ hparent
  rw [hobjects] at hmem
  rcases List.mem_append.mp hmem with hmem | hmem
  · exact absurd (hsorted.2.2 o' hmem o List.mem_cons_self) (Nat.lt_asymm hlt)
  · rw [List.mem_singleton.mp hmem] at hlt
    exact absurd hlt (Nat.lt_irrefl _)

/-- **The removal of the object that was created last.** -/
theorem deleteOpenHandle_last (hdelete : ∀ n, fate.deleteFaults n = none) (ho : Ordered s)
    (hobjects : s.objects = front ++ [o]) (hhandle : entry.handle = o.serial) :
    Act.wp (deleteOpenHandle fate entry) (fun _ s' => s' = { s.tick with objects := front })
      (fun _ _ => False) s := by
  unfold deleteOpenHandle
  rw [wp_call]
  simp only [hdelete]
  have hempty : s.tick.within (some entry.handle) = [] := hhandle ▸ ho.within_last hobjects
  rw [Act.wp_of, if_pos hempty]
  have hsorted := ho.sorted
  rw [hobjects, List.pairwise_append] at hsorted
  have hfront : front.filter (fun o' => o'.serial ≠ o.serial) = front := by
    refine List.filter_eq_self.mpr fun o' hmem => ?_
    simpa using (hsorted.2.2 o' hmem o List.mem_cons_self).ne
  have hremoved : s.objects.filter (fun o' => o'.serial ≠ o.serial) = front := by
    rw [hobjects, List.filter_append, hfront]
    simp
  show s.tick.remove entry.handle = _
  rw [RunState.remove, hhandle]
  exact congrArg (fun objects => { s.tick with objects }) hremoved

theorem Pending.ordered (h : Pending s₀ t s entry) : Ordered s := by
  obtain ⟨parent, name, content, hparent, hobjects⟩ := h.made
  have hmade : Created t { s with transaction := t.transaction } parent name content :=
    ⟨hobjects, h.nextSerial, rfl⟩
  exact (hmade.ordered h.owns.ordered hparent).congr rfl le_rfl

theorem Pending.untouched (h : Pending s₀ t s entry) (h' : Untouched s s') :
    Pending s₀ t s' entry where
  owns := h.owns
  made := by rw [h'.objects]; exact h.made
  handle := h.handle
  nextSerial := h'.nextSerial.trans h.nextSerial
  entries := h'.entries.trans h.entries
  audits := h'.audits.trans h.audits

/-- An entry comes on the stack. -/
theorem Pending.pushed (h : Pending s₀ t s entry) (hobjects : s'.objects = s.objects)
    (hserial : s'.nextSerial = s.nextSerial)
    (hentries : s'.transaction.createdEntries = entry :: s.transaction.createdEntries)
    (haudits : s'.audits = s.audits) : Owns s₀ s' where
  stack := by
    obtain ⟨new, hnew, hstack⟩ := h.owns.stack
    obtain ⟨parent, name, content, _, hmade⟩ := h.made
    refine ⟨new ++ [⟨t.nextSerial, parent, name, content⟩], ?_, ?_⟩
    · rw [hobjects, hmade, hnew, List.append_assoc]
    · rw [hentries, h.entries, List.map_cons, hstack, h.handle, List.map_append, List.reverse_append]
      rfl
  ordered := h.ordered.congr hobjects hserial.ge
  nextSerial := by
    rw [hserial, h.nextSerial]
    exact h.owns.nextSerial.trans (Nat.le_succ _)
  unfinished := h.owns.unfinished.congr (haudits.trans h.audits)

/-- An object is removed that never came on the stack. -/
theorem Pending.deleted (h : Pending s₀ t s entry)
    (hdelete : ∀ n, fate.deleteFaults n = none) :
    Act.wp (deleteOpenHandle fate entry) (fun _ s' => Owns s₀ s' ∧ t.nextSerial ≤ s'.nextSerial)
      (fun _ _ => False) s := by
  obtain ⟨parent, name, content, _, hmade⟩ := h.made
  refine Act.wp_mono (deleteOpenHandle_last hdelete h.ordered hmade h.handle)
    (fun _ s' hs' => ?_) fun _ _ hfalse => hfalse
  subst hs'
  have hnext : t.nextSerial ≤ s.nextSerial := h.nextSerial ▸ Nat.le_succ _
  refine ⟨⟨?_, h.owns.ordered.congr rfl hnext, h.owns.nextSerial.trans hnext,
    h.owns.unfinished.congr h.audits⟩, hnext⟩
  obtain ⟨new, hnew, hstack⟩ := h.owns.stack
  exact ⟨new, hnew, (congrArg _ h.entries).trans hstack⟩

/-- **Everything on the stack is removed, and nothing else.** -/
theorem rollbackEntries_spec (hdelete : ∀ n, fate.deleteFaults n = none) :
    ∀ (entries : List SecureCreatedEntry) {new : List DestObject} {s : RunState}, Ordered s →
      s.objects = kept ++ new → entries.map (·.handle) = (new.map (·.serial)).reverse →
      Act.wp (rollbackEntries fate entries)
        (fun failure s' => failure = none ∧ s'.objects = kept ∧ s'.audits = s.audits)
        (fun _ _ => False) s := by
  intro entries
  induction entries with
  | nil =>
    intro new s _ hobjects hstack
    have hnew : new = [] := by simpa using hstack.symm
    rw [hnew, List.append_nil] at hobjects
    exact (Act.wp_pure _).mpr ⟨rfl, hobjects, rfl⟩
  | cons entry rest ih =>
    intro new s ho hobjects hstack
    rcases List.eq_nil_or_concat new with rfl | ⟨front, o, rfl⟩
    · cases hstack
    · rw [List.concat_eq_append, List.map_append, List.reverse_append, List.map_cons] at hstack
      obtain ⟨hhandle, hrest⟩ := List.cons.inj hstack
      rw [List.concat_eq_append, ← List.append_assoc] at hobjects
      rw [rollbackEntries, Act.wp_bind, Act.wp_attempt]
      refine Act.wp_mono (deleteOpenHandle_last hdelete ho hobjects hhandle) (fun _ s₁ h₁ => ?_)
        fun _ _ hfalse => hfalse.elim
      subst h₁
      rw [Act.wp_bind]
      refine Act.wp_mono (ih (ho.without_last hobjects rfl le_rfl) rfl hrest) (fun failure s₂ h₂ => ?_)
        fun _ _ hfalse => hfalse
      exact (Act.wp_pure _).mpr h₂

/-- **The rollback** brings back the objects of the beginning. -/
theorem rollback_spec (hdelete : ∀ n, fate.deleteFaults n = none) (h : Owns s₀ s) :
    Act.wp (rollback fate) (fun _ s' => s'.objects = s₀.objects ∧ s'.audits = s.audits)
      (fun _ _ => False) s := by
  obtain ⟨new, hnew, hstack⟩ := h.stack
  unfold rollback
  rw [Act.wp_bind, Act.wp_read, Act.wp_bind, Act.wp_update, Act.wp_bind]
  have hcleared : Ordered { s with transaction := { s.transaction with createdEntries := [] } } :=
    h.ordered.congr rfl le_rfl
  refine Act.wp_mono (rollbackEntries_spec hdelete s.transaction.createdEntries hcleared hnew hstack)
    (fun failure s₁ h₁ => ?_) fun _ _ hfalse => hfalse
  obtain ⟨rfl, hobjects, haudits⟩ := h₁
  exact (Act.wp_pure _).mpr ⟨hobjects, haudits⟩

end Stack

/-! ## 4. Computations that keep the stack -/

/-- The stack still lists what is new, and no serial number is used again. -/
def Kept (s₀ : RunState) (d : Option Nat) (s s' : RunState) : Prop :=
  Owns s₀ s → Exists s d → Owns s₀ s' ∧ s.nextSerial ≤ s'.nextSerial

/-- The same of an undisturbed run. -/
def Went (fate : Fate) (s₀ : RunState) (d : Option Nat) (s s' : RunState) : Prop :=
  Owns s₀ s → Exists s d → (Owns s₀ s' ∧ s.nextSerial ≤ s'.nextSerial) ∧ Undisturbed fate s s'

/-- In a directory that exists, the stack is kept in any case, and a value comes only out of an
undisturbed run. -/
def Careful (fate : Fate) (s₀ : RunState) (d : Option Nat) (m : Act RunState ε α) : Prop :=
  Act.Ends (Went fate s₀ d) (Kept s₀ d) m

section Careful

variable {d : Option Nat}

theorem Owns.untouched (h : Owns s₀ s) (h' : Untouched s s') : Owns s₀ s' where
  stack := by
    rw [h'.objects, h'.entries]
    exact h.stack
  ordered := h.ordered.congr h'.objects h'.nextSerial.ge
  nextSerial := h.nextSerial.trans_eq h'.nextSerial.symm
  unfinished := h.unfinished.congr h'.audits

/-- Nothing was touched before the object was created. -/
theorem Pending.earlier {entry : SecureCreatedEntry} (h : Pending s₀ s' s'' entry)
    (h' : Untouched s s') (ho : Owns s₀ s) : Pending s₀ s s'' entry where
  owns := ho
  made := by
    obtain ⟨parent, name, content, hparent, hobjects⟩ := h.made
    refine ⟨parent, name, content, fun p hp => (hparent p hp).trans_eq h'.nextSerial, ?_⟩
    rw [hobjects, h'.objects, h'.nextSerial]
  handle := h.handle.trans h'.nextSerial
  nextSerial := by rw [h.nextSerial, h'.nextSerial]
  entries := h.entries.trans h'.entries
  audits := h.audits.trans h'.audits

theorem Exists.mono (he : Exists s d) (h : s.nextSerial ≤ s'.nextSerial) : Exists s' d :=
  fun p hp => (he p hp).trans_le h

theorem went_refl (s : RunState) : Went fate s₀ d s s := fun ho _ => ⟨⟨ho, le_rfl⟩, .refl s⟩

theorem Went.kept (h : Went fate s₀ d s s') (h' : Kept s₀ d s' s'') : Kept s₀ d s s'' :=
  fun ho hd => by
    obtain ⟨⟨ho', hle⟩, _⟩ := h ho hd
    obtain ⟨ho'', hle'⟩ := h' ho' (hd.mono hle)
    exact ⟨ho'', hle.trans hle'⟩

theorem Went.trans (h : Went fate s₀ d s s') (h' : Went fate s₀ d s' s'') :
    Went fate s₀ d s s'' := fun ho hd => by
  obtain ⟨⟨ho', hle⟩, hclean⟩ := h ho hd
  obtain ⟨⟨ho'', hle'⟩, hclean'⟩ := h' ho' (hd.mono hle)
  exact ⟨⟨ho'', hle.trans hle'⟩, hclean.trans hclean'⟩

theorem Untouched.kept (h : Untouched s s') : Kept s₀ d s s' :=
  fun ho _ => ⟨ho.untouched h, h.nextSerial.ge⟩

theorem Quiet.careful {m : Act RunState ε α} (h : Quiet fate m) : Careful fate s₀ d m :=
  h.mono (fun _ _ h' ho hd => ⟨h'.1.kept ho hd, h'.2⟩) fun _ _ h' => h'.kept

theorem Careful.bind {m : Act RunState ε α} {f : α → Act RunState ε β}
    (hm : Careful fate s₀ d m) (hf : ∀ a, Careful fate s₀ d (f a)) : Careful fate s₀ d (m >>= f) :=
  Act.Ends.bind (R := Went fate s₀ d) (S := Kept s₀ d) (T := Went fate s₀ d)
    (fun _ _ _ h h' => h.trans h') (fun _ _ _ h h' => h.kept h') hm hf

theorem careful_forEach {f : α → Act RunState ε Unit} {l : List α}
    (h : ∀ a ∈ l, Careful fate s₀ d (f a)) : Careful fate s₀ d (Act.forEach l f) :=
  Act.ends_forEach (R := Went fate s₀ d) (S := Kept s₀ d) (fun _ _ _ h h' => h.trans h')
    (fun _ _ _ h h' => h.kept h') went_refl h

theorem careful_when {m : Act RunState ε Unit} (h : Careful fate s₀ d m) (c : Bool) :
    Careful fate s₀ d (Act.when c m) := Act.Ends.when went_refl h c

/-- It is enough to look at states with such a stack. -/
theorem careful_of {m : Act RunState ε α}
    (h : ∀ s, Owns s₀ s → Exists s d →
      Act.wp m (fun _ s' => (Owns s₀ s' ∧ s.nextSerial ≤ s'.nextSerial) ∧ Undisturbed fate s s')
        (fun _ s' => Owns s₀ s' ∧ s.nextSerial ≤ s'.nextSerial) s) : Careful fate s₀ d m := by
  intro s
  by_cases hs : Owns s₀ s ∧ Exists s d
  · exact Act.wp_mono (h s hs.1 hs.2) (fun _ _ h' _ _ => h') fun _ _ h' _ _ => h'
  · unfold Act.wp
    split
    · exact fun ho hd => absurd ⟨ho, hd⟩ hs
    · exact fun ho hd => absurd ⟨ho, hd⟩ hs

theorem Careful.run {m : Act RunState ε α} (h : Careful fate s₀ d m) (ho : Owns s₀ s)
    (hd : Exists s d) :
    Act.wp m (fun _ s' => (Owns s₀ s' ∧ s.nextSerial ≤ s'.nextSerial) ∧ Undisturbed fate s s')
      (fun _ s' => Owns s₀ s' ∧ s.nextSerial ≤ s'.nextSerial) s :=
  Act.wp_mono (h s) (fun _ _ h' => h' ho hd) fun _ _ h' => h' ho hd

/-- An entry comes into the journal by an undisturbed call, or does not come at all. -/
theorem log_call (operation target : String) (status : AuditStatus) (details : String)
    (s : RunState) :
    Act.wp (log fate operation target status details)
      (fun _ s' => ∃ entry : AuditEntry, entry.operation = operation ∧
        s' = { s.tick with audits := s.audits ++ [entry] } ∧ Undisturbed fate s s')
      (fun _ s' => s' = s.tick) s := by
  unfold log
  rw [wp_call]
  cases hf : fate.faults s.clock with
  | some f => rfl
  | none => exact (Act.wp_update _).mpr ⟨_, rfl, rfl, .tick hf rfl rfl⟩

theorem careful_log {operation : String} (h : operation ≠ "MigrationSuccess") (target : String)
    (status : AuditStatus) (details : String) :
    Careful fate s₀ d (log fate operation target status details) := by
  refine careful_of fun s ho hd => ?_
  refine Act.wp_mono (log_call operation target status details s) (fun _ s' h' => ?_)
    fun _ s' h' => ?_
  · obtain ⟨entry, hname, rfl, hclean⟩ := h'
    refine ⟨⟨⟨ho.stack, ho.ordered.congr rfl le_rfl, ho.nextSerial, ?_⟩, le_rfl⟩, hclean⟩
    exact ho.unfinished.concat rfl (hname.trans_ne h)
  · subst h'
    exact ⟨ho.untouched (.tick s), le_rfl⟩

/-- A chunk that goes to a new object. -/
theorem Owns.append (hs₀ : Ordered s₀) (ho : Owns s₀ s) {serial : Nat}
    (hserial : s₀.nextSerial ≤ serial) (bytes : Bytes) : Owns s₀ (s.append serial bytes) where
  stack := by
    obtain ⟨new, hnew, hstack⟩ := ho.stack
    refine ⟨new.map fun o => if o.serial = serial then
      { o with content := o.content.map (· ++ bytes) } else o, ?_, ?_⟩
    · have hold : s₀.objects.map (fun o => if o.serial = serial then
          { o with content := o.content.map (· ++ bytes) } else o) = s₀.objects := by
        refine (List.map_congr_left fun o hmem => ?_).trans (List.map_id s₀.objects)
        rw [if_neg ((hs₀.below o hmem).trans_le hserial).ne]
        rfl
      rw [RunState.append, hnew, List.map_append, hold]
    · rw [List.map_map]
      refine hstack.trans (congrArg List.reverse (List.map_congr_left fun o _ => ?_))
      simp only [Function.comp_apply]
      split <;> rfl
  ordered := by
    have hshape : ∀ o : DestObject, (if o.serial = serial then
        { o with content := o.content.map (· ++ bytes) } else o).serial = o.serial ∧
        (if o.serial = serial then
          { o with content := o.content.map (· ++ bytes) } else o).parent = o.parent := by
      intro o
      split <;> exact ⟨rfl, rfl⟩
    constructor
    case sorted =>
      refine List.pairwise_map.mpr (ho.ordered.sorted.imp fun hlt => ?_)
      rwa [(hshape _).1, (hshape _).1]
    case below =>
      intro o' hmem
      obtain ⟨o, ho', rfl⟩ := List.mem_map.mp hmem
      rw [(hshape o).1]
      exact ho.ordered.below o ho'
    case parents =>
      intro o' hmem p hp
      obtain ⟨o, ho', rfl⟩ := List.mem_map.mp hmem
      rw [(hshape o).2] at hp
      rw [(hshape o).1]
      exact ho.ordered.parents o ho' p hp
  nextSerial := ho.nextSerial
  unfinished := ho.unfinished

theorem careful_writeAll (hs₀ : Ordered s₀) {serial : Nat} (hserial : s₀.nextSerial ≤ serial)
    (chunk : Bytes) : Careful fate s₀ d (writeAll fate serial chunk) := by
  refine careful_of fun s ho hd => ?_
  have hkeep : ∀ bytes, Owns s₀ (s.tick.append serial bytes) :=
    fun bytes => (ho.untouched (.tick s)).append hs₀ hserial bytes
  unfold writeAll
  rw [Act.wp_of]
  cases hf : fate.faults s.clock with
  | some f => exact ⟨hkeep _, le_rfl⟩
  | none =>
    refine ⟨⟨(hkeep (fate.media s.clock chunk)).untouched ⟨rfl, rfl, rfl, rfl⟩, le_rfl⟩, ?_⟩
    exact .tick hf rfl rfl

end Careful

/-! ## 5. New objects -/

section Creation

variable {t : RunState} {entry : SecureCreatedEntry} {dir : DestDirectory} {name path : Wide}
  {content : Option Bytes}

theorem ntCreate_pending (ho : Owns s₀ s) (hd : Exists s dir.node) :
    Act.wp (ntCreate H fate dir name path content)
      (fun serial s' => Pending s₀ s s' ⟨serial, path⟩ ∧ Undisturbed fate s s')
      (fun _ s' => Untouched s s') s := by
  unfold ntCreate
  rw [Act.wp_bind]
  refine wp_checkRelativeName (fun _ _ => .refl s) fun _ => ?_
  rw [wp_call]
  cases hf : fate.faults s.clock with
  | some f => exact .tick s
  | none =>
    dsimp only
    rw [Act.wp_of]
    cases s.tick.lookup H dir.node name with
    | some o => exact .tick s
    | none => exact ⟨⟨ho, ⟨_, _, _, hd, rfl⟩, rfl, rfl, rfl, rfl⟩, .tick hf rfl rfl⟩

/-- The calls on a new object before it comes on the stack; when one fails, the object goes. -/
theorem rescue_pending (hdelete : ∀ n, fate.deleteFaults n = none) {m : Act RunState SecureFsError Unit}
    (hm : Quiet fate m) (h : Pending s₀ t s entry) :
    Act.wp (Act.rescue m (pendingFail fate entry))
      (fun _ s' => Pending s₀ t s' entry ∧ Undisturbed fate s s')
      (fun _ s' => Owns s₀ s' ∧ t.nextSerial ≤ s'.nextSerial) s := by
  rw [Act.wp_rescue]
  refine Act.wp_mono (hm s) (fun _ s₁ h₁ => ⟨h.untouched h₁.1, h₁.2⟩) fun e s₁ h₁ => ?_
  unfold pendingFail
  rw [Act.wp_bind, Act.wp_attempt]
  refine Act.wp_mono ((h.untouched h₁).deleted hdelete) (fun _ s₂ h₂ => ?_)
    fun _ _ hfalse => hfalse.elim
  exact (Act.wp_fail _).mpr h₂

theorem createDirectory_pending (hdelete : ∀ n, fate.deleteFaults n = none) (ho : Owns s₀ s)
    (hd : Exists s dir.node) :
    Act.wp (dir.createDirectory H fate name)
      (fun made s' => (Pending s₀ s s' made.2 ∧ made.1.node = some made.2.handle) ∧
        Undisturbed fate s s')
      (fun _ s' => Owns s₀ s' ∧ s.nextSerial ≤ s'.nextSerial) s := by
  unfold DestDirectory.createDirectory
  rw [Act.wp_bind]
  refine wp_childDisplayPath (fun _ _ => ⟨ho, le_rfl⟩) ?_
  rw [Act.wp_bind]
  refine Act.wp_mono (ntCreate_pending ho hd) (fun serial s₁ h₁ => ?_)
    fun _ s₁ h₁ => ⟨ho.untouched h₁, h₁.nextSerial.ge⟩
  rw [Act.wp_bind]
  have hcalls : Quiet fate (do inspect fate; inspect fate; inspect fate; inspect fate) :=
    .bind quiet_inspect fun _ => .bind quiet_inspect fun _ => .bind quiet_inspect fun _ =>
      quiet_inspect
  refine Act.wp_mono (rescue_pending hdelete hcalls h₁.1) (fun _ s₂ h₂ => ?_) fun _ _ h₂ => h₂
  exact (Act.wp_pure _).mpr ⟨⟨h₂.1, rfl⟩, h₁.2.trans h₂.2⟩

theorem createFile_pending (hdelete : ∀ n, fate.deleteFaults n = none) (ho : Owns s₀ s)
    (hd : Exists s dir.node) :
    Act.wp (dir.createFile H fate name)
      (fun made s' => (Pending s₀ s s' made.2 ∧ made.1 = made.2.handle) ∧ Undisturbed fate s s')
      (fun _ s' => Owns s₀ s' ∧ s.nextSerial ≤ s'.nextSerial) s := by
  have hfail : ∀ {s'}, Untouched s s' → Owns s₀ s' ∧ s.nextSerial ≤ s'.nextSerial :=
    fun h => ⟨ho.untouched h, h.nextSerial.ge⟩
  unfold DestDirectory.createFile
  rw [Act.wp_bind]
  refine wp_childDisplayPath (fun _ _ => ⟨ho, le_rfl⟩) ?_
  rw [Act.wp_bind, Act.wp_rescue]
  refine Act.wp_mono (ntCreate_pending ho hd) (fun serial s₁ h₁ => ?_) fun e s₁ h₁ => ?_
  · rw [Act.wp_bind]
    have hcalls : Quiet fate (do inspect fate; inspect fate) :=
      .bind quiet_inspect fun _ => quiet_inspect
    refine Act.wp_mono (rescue_pending hdelete hcalls h₁.1) (fun _ s₂ h₂ => ?_) fun _ _ h₂ => h₂
    exact (Act.wp_pure _).mpr ⟨⟨h₂.1, rfl⟩, h₁.2.trans h₂.2⟩
  · split
    · rw [Act.wp_bind]
      refine Act.wp_mono (quiet_inspect s₁) (fun _ s₂ h₂ => ?_) fun _ _ h₂ => hfail (h₁.trans h₂)
      rw [Act.wp_bind]
      refine Act.wp_mono (quiet_inspect s₂) (fun _ s₃ h₃ => ?_)
        fun _ _ h₃ => hfail (h₁.trans (h₂.1.trans h₃))
      exact (Act.wp_fail _).mpr (hfail (h₁.trans (h₂.1.trans h₃.1)))
    · exact (Act.wp_fail _).mpr (hfail h₁)

/-- A directory that is not there yet is created; one that is there cannot be opened. -/
theorem openOrCreateDirectory_pending (hdelete : ∀ n, fate.deleteFaults n = none) (ho : Owns s₀ s)
    (hd : Exists s dir.node) :
    Act.wp (dir.openOrCreateDirectory H fate name)
      (fun made s' => ∃ entry, made.2 = some entry ∧
        (Pending s₀ s s' entry ∧ made.1.node = some entry.handle) ∧ Undisturbed fate s s')
      (fun _ s' => Owns s₀ s' ∧ s.nextSerial ≤ s'.nextSerial) s := by
  unfold DestDirectory.openOrCreateDirectory
  rw [Act.wp_rescue, Act.wp_bind]
  have hlook : Looks fate (dir.openDirectory H fate name) := looks_openDirectory dir name
  refine Act.wp_mono (Act.wp_and destOpenDirectory_spec (hlook s)) (fun _ _ h => h.1.elim)
    fun e s₁ h₁ => ?_
  obtain ⟨-, huntouched, habsent⟩ := h₁
  split
  · next path =>
    have hle : s.nextSerial ≤ s₁.nextSerial := huntouched.nextSerial.ge
    rw [Act.wp_bind]
    refine Act.wp_mono (createDirectory_pending hdelete (ho.untouched huntouched) (hd.mono hle))
      (fun made s₂ h₂ => ?_) fun _ _ h₂ => ⟨h₂.1, hle.trans h₂.2⟩
    obtain ⟨⟨hpending, hnode⟩, hclean⟩ := h₂
    refine (Act.wp_pure _).mpr ⟨made.2, rfl, ⟨?_, hnode⟩, (habsent ⟨path, rfl⟩).trans hclean⟩
    exact hpending.earlier huntouched ho
  · exact (Act.wp_fail _).mpr ⟨ho.untouched huntouched, huntouched.nextSerial.ge⟩

/-- A new object comes on the stack, and what follows works on it. -/
theorem wp_pushed (fate : Fate) {m : Act RunState SecureFsError α} {c : α → Option SecureCreatedEntry}
    {k : α → MigrationM β} {R : α → SecureCreatedEntry → Prop} {Q : β → RunState → Prop}
    {E : MigrationError → RunState → Prop} (ho : Owns s₀ s)
    (hm : Act.wp m (fun made s' => ∃ entry, c made = some entry ∧
        (Pending s₀ s s' entry ∧ R made entry) ∧ Undisturbed fate s s')
      (fun _ s' => Owns s₀ s' ∧ s.nextSerial ≤ s'.nextSerial) s)
    (hk : ∀ made entry s', R made entry → s₀.nextSerial ≤ entry.handle → Owns s₀ s' →
      Exists s' (some entry.handle) → s.nextSerial ≤ s'.nextSerial → Undisturbed fate s s' →
      Act.wp (k made) Q E s')
    (hE : ∀ e s', Owns s₀ s' → s.nextSerial ≤ s'.nextSerial → E e s') :
    Act.wp (do
      let made ← Act.mapErr mapSecureError m
      pushIfCreated (c made)
      k made) Q E s := by
  rw [Act.wp_bind, Act.wp_mapErr]
  refine Act.wp_mono hm (fun made s₁ h₁ => ?_) fun e s₁ h₁ => hE _ s₁ h₁.1 h₁.2
  obtain ⟨entry, hentry, ⟨hpending, hmade⟩, hclean⟩ := h₁
  rw [Act.wp_bind, hentry, pushIfCreated, pushCreated, setTransaction, Act.wp_update]
  have hnew : s₀.nextSerial ≤ entry.handle := hpending.handle ▸ ho.nextSerial
  have hle : s.nextSerial ≤ s₁.nextSerial := hpending.nextSerial ▸ Nat.le_succ _
  refine hk made entry _ hmade hnew (hpending.pushed rfl rfl rfl rfl) ?_ hle
    (hclean.trans (.of_eq rfl rfl))
  intro p hp
  cases hp
  rw [hpending.handle]
  exact hpending.nextSerial ▸ Nat.lt_succ_self _

theorem careful_pushed {d : Option Nat} {m : Act RunState SecureFsError α}
    {c : α → Option SecureCreatedEntry} {k : α → MigrationM β} {R : α → SecureCreatedEntry → Prop}
    (hm : ∀ s, Owns s₀ s → Exists s d →
      Act.wp m (fun made s' => ∃ entry, c made = some entry ∧
          (Pending s₀ s s' entry ∧ R made entry) ∧ Undisturbed fate s s')
        (fun _ s' => Owns s₀ s' ∧ s.nextSerial ≤ s'.nextSerial) s)
    (hk : ∀ made entry, R made entry → s₀.nextSerial ≤ entry.handle →
      Careful fate s₀ (some entry.handle) (k made)) :
    Careful fate s₀ d (do
      let made ← Act.mapErr mapSecureError m
      pushIfCreated (c made)
      k made) := by
  refine careful_of fun s ho hd => wp_pushed fate ho (hm s ho hd) ?_ fun _ s' ho' hle => ⟨ho', hle⟩
  intro made entry s₁ hmade hnew ho₁ hd₁ hle hclean
  refine Act.wp_mono ((hk made entry hmade hnew).run ho₁ hd₁) (fun _ s₂ h₂ => ?_) fun _ _ h₂ => ?_
  · exact ⟨⟨h₂.1.1, hle.trans h₂.1.2⟩, hclean.trans h₂.2⟩
  · exact ⟨h₂.1, hle.trans h₂.2⟩

end Creation

/-! ## 6. The copy -/

section Copy

variable (hdelete : ∀ n, fate.deleteFaults n = none) (hs₀ : Ordered s₀)

include hs₀ in
theorem careful_copyLoop {d : Option Nat} {serial : Nat} (hserial : s₀.nextSerial ≤ serial)
    (relativePath : Wide) (completed : Nat) : ∀ (pieces : List Bytes) (copied : Nat)
    (hashed : Bytes),
    Careful fate s₀ d (copyLoop fate serial relativePath completed pieces copied hashed)
  | [], _, _ => .bind quiet_checkCancelled.careful fun _ => .bind quiet_fileCall.careful fun _ =>
      (quiet_pure _).careful
  | chunk :: rest, _, _ =>
      .bind quiet_checkCancelled.careful fun _ => .bind quiet_fileCall.careful fun _ =>
      .bind (careful_writeAll hs₀ hserial chunk) fun _ =>
      .bind (quiet_observeCopy _ _).careful fun _ => .bind (quiet_report _).careful fun _ =>
      careful_copyLoop hserial relativePath completed rest _ _

include hdelete

/-- A directory is entered: it is new, and what follows works in it. -/
theorem careful_enter {dir : DestDirectory} {name : Wide} {k : DestDirectory → MigrationM β}
    (hk : ∀ next, Careful fate s₀ next.node (k next)) :
    Careful fate s₀ dir.node (do
      let made ← Act.mapErr mapSecureError (dir.openOrCreateDirectory H fate name)
      pushIfCreated made.2
      k made.1) := by
  refine careful_pushed (c := Prod.snd) (k := fun made => k made.1)
    (R := fun made entry => made.1.node = some entry.handle)
    (fun s ho hd => openOrCreateDirectory_pending hdelete ho hd) fun made entry hmade _ => ?_
  rw [← hmade]
  exact hk made.1

/-- The directories of a root: the last one is entered. -/
theorem careful_ensureComponents (relative : Wide) {k : DestDirectory → MigrationM β}
    (hk : ∀ next, Careful fate s₀ next.node (k next)) :
    ∀ (components : List WinPath.Component) (current : DestDirectory),
      Careful fate s₀ current.node
        (ensureComponents fate H relative current components >>= k) := by
  intro components
  induction components with
  | nil =>
    intro current
    exact hk current
  | cons component rest ih =>
    intro current
    cases component with
    | normal name =>
      have hassoc : (ensureComponents fate H relative current (.normal name :: rest) >>= k)
          = (do
            let made ← Act.mapErr mapSecureError (current.openOrCreateDirectory H fate name)
            pushIfCreated made.2
            ensureComponents fate H relative made.1 rest >>= k) := by
        rw [ensureComponents, Act.bind_assoc]
        exact congrArg _ (funext fun made => Act.bind_assoc _ _ _)
      rw [hassoc]
      exact careful_enter hdelete fun next => ih next
    | _ => exact (quiet_fail _).careful

theorem careful_ensureRelativeDirectory (root : DestDirectory) (relative : Wide)
    {k : DestDirectory → MigrationM β} (hk : ∀ next, Careful fate s₀ next.node (k next)) :
    Careful fate s₀ root.node (ensureRelativeDirectory fate H root relative >>= k) := by
  unfold ensureRelativeDirectory
  split
  · exact (quiet_fail _).careful
  · exact careful_ensureComponents hdelete relative hk _ root

include hs₀

theorem careful_copyFileVerified (source : SourceDirectory) (destination : DestDirectory)
    (name relativePath : Wide) :
    Careful fate s₀ destination.node
      (copyFileVerified fate H source destination name relativePath) := by
  unfold copyFileVerified
  refine .bind ((quiet_openFile source name).mapErr _).careful fun input => ?_
  refine careful_pushed (c := fun made : Nat × SecureCreatedEntry => some made.2)
    (R := fun made entry => made.1 = entry.handle)
    (fun s ho hd => ?_) fun made entry hmade hnew => ?_
  · refine Act.wp_mono (createFile_pending hdelete ho hd) (fun made s₁ h₁ => ?_) fun _ _ h₁ => h₁
    exact ⟨made.2, rfl, h₁⟩
  · rw [← hmade] at hnew
    refine .bind quiet_read.careful fun s => .bind (quiet_piecesOf _).careful fun pieces => ?_
    refine .bind (careful_copyLoop hs₀ hnew relativePath _ pieces 0 []) fun copied => ?_
    refine Quiet.careful ?_
    refine .bind quiet_checkCancelled fun _ => .bind quiet_fileCall fun _ => ?_
    refine .bind quiet_fileCall fun _ => .bind quiet_fileCall fun _ => ?_
    refine .bind (quiet_report _) fun _ => .bind (quiet_sha256File _) fun sha => ?_
    refine .bind (quiet_when (quiet_fail _) _) fun _ => .bind quiet_fileCall fun _ => ?_
    refine .bind quiet_read fun written => .bind (quiet_guard _ _) fun _ => ?_
    have hverified : Quiet fate (Act.update fun s : RunState =>
        s.happened (.verified (displayRelativePath relativePath)) : MigrationM Unit) :=
      quiet_update (fun _ => ⟨rfl, rfl, rfl, rfl⟩) (fun _ => rfl) fun _ => rfl
    refine .bind hverified fun _ => ?_
    exact quiet_update (fun _ => ⟨rfl, rfl, rfl, rfl⟩) (fun _ => rfl) fun _ => rfl

/-- **One tree**, by induction on it. -/
theorem careful_copyTreeVerified (node : SourceNode) :
    ∀ (path : Wide) (destination : DestDirectory) (relativeDirectory : Wide),
      Careful fate s₀ destination.node
        (copyTreeVerified fate H node path destination relativeDirectory) := by
  induction node with
  | file content => exact fun _ _ _ => (quiet_pure _).careful
  | reparse => exact fun _ _ _ => (quiet_pure _).careful
  | directory names child ih =>
    intro path destination relativeDirectory
    rw [copyTreeVerified]
    refine .bind ((quiet_entries _).mapErr _).careful fun entries => careful_forEach fun e _ => ?_
    refine .bind quiet_checkCancelled.careful fun _ => ?_
    cases e.kind with
    | directory =>
      refine .bind ((looks_sourceOpenDirectory _ _).quiet.mapErr _).careful fun sourceChild => ?_
      exact careful_enter hdelete fun next => ih e.name _ next _
    | file => exact careful_copyFileVerified hdelete hs₀ _ _ _ _

theorem careful_copyRoot (source : SourceDirectory) (target : DestDirectory) (relativeRoot : Wide) :
    Careful fate s₀ target.node (copyRoot fate H source target relativeRoot) := by
  unfold copyRoot
  refine .bind quiet_checkCancelled.careful fun _ => ?_
  refine .bind (quiet_openRelativeDirectoryIfPresent source relativeRoot).careful fun found => ?_
  cases found with
  | none => exact (quiet_pure _).careful
  | some found =>
    exact careful_ensureRelativeDirectory hdelete target relativeRoot fun next =>
      careful_copyTreeVerified hdelete hs₀ found.node _ next _

end Copy

/-! ## 7. The whole run -/

/-- The journal says that the migration was a success. -/
def Succeeded (s s' : RunState) : Prop :=
  ∃ entry ∈ s'.audits.drop s.audits.length, entry.operation = "MigrationSuccess"

theorem Unfinished.not_succeeded (h : Unfinished s s') : ¬ Succeeded s s' := by
  obtain ⟨more, hmore, hnone⟩ := h
  rintro ⟨entry, hentry, hname⟩
  rw [hmore, List.drop_left] at hentry
  exact hnone entry hentry hname

/-- A value comes out of an undisturbed run, and the success is in the journal. -/
def Finishing (fate : Fate) (s₀ : RunState) (d : Option Nat) (m : MigrationM α) : Prop :=
  Act.Ends (fun s s' => Owns s₀ s → Exists s d → Succeeded s₀ s' ∧ Undisturbed fate s s')
    (Kept s₀ d) m

section Run

variable {d : Option Nat} {contents : FileIdentity → SourceNode} {plan : MigrationPlan}
  {v : ValidatedMigration}

theorem Finishing.after {m : MigrationM α} {f : α → MigrationM β} (hm : Careful fate s₀ d m)
    (hf : ∀ a, Finishing fate s₀ d (f a)) : Finishing fate s₀ d (m >>= f) := by
  refine Act.Ends.bind (fun s s' s'' h h' ho hd => ?_) (fun _ _ _ h h' => h.kept h') hm hf
  obtain ⟨⟨ho', hle⟩, hclean⟩ := h ho hd
  obtain ⟨hsucceeded, hclean'⟩ := h' ho' (hd.mono hle)
  exact ⟨hsucceeded, hclean.trans hclean'⟩

theorem finishing_log (target : String) (details : String) (a : α) :
    Finishing fate s₀ d (do
      log fate "MigrationSuccess" target .success details
      pure a) := by
  intro s
  rw [Act.wp_bind]
  refine Act.wp_mono (log_call _ target .success details s) (fun _ s' h' => ?_) fun _ s' h' => ?_
  · obtain ⟨entry, hname, rfl, hclean⟩ := h'
    refine (Act.wp_pure _).mpr fun ho _ => ⟨⟨entry, ?_, hname⟩, hclean⟩
    obtain ⟨more, hmore, _⟩ := ho.unfinished
    show entry ∈ List.drop s₀.audits.length (s.audits ++ [entry])
    rw [hmore, List.append_assoc, List.drop_left]
    exact List.mem_append_right _ List.mem_cons_self
  · subst h'
    exact (Untouched.tick s).kept

theorem Finishing.run {m : MigrationM α} (h : Finishing fate s₀ d m) (ho : Owns s₀ s)
    (hd : Exists s d) :
    Act.wp m (fun _ s' => Succeeded s₀ s' ∧ Undisturbed fate s s') (fun _ s' => Owns s₀ s') s :=
  Act.wp_mono (h s) (fun _ _ h' => h' ho hd) fun _ _ h' => (h' ho hd).1

/-- **The closure** ends with the entry of the success, or leaves the stack to the rollback. -/
theorem operation_finishes (hdelete : ∀ n, fate.deleteFaults n = none) (hs₀ : Ordered s₀)
    (ho : Owns s₀ s) :
    Act.wp (operation fate H contents plan v)
      (fun _ s' => Succeeded s₀ s' ∧ Undisturbed fate s s') (fun _ s' => Owns s₀ s') s := by
  unfold operation
  dsimp only
  refine wp_pushed fate (c := fun made : DestDirectory × SecureCreatedEntry => some made.2)
    (R := fun made entry => made.1.node = some entry.handle) ho ?_ ?_ fun _ _ ho' _ => ho'
  · refine Act.wp_mono (createDirectory_pending hdelete ho nofun) (fun made s₁ h₁ => ?_)
      fun _ _ h₁ => h₁
    exact ⟨made.2, rfl, h₁⟩
  · intro made entry s₁ hmade _ ho₁ hd₁ _ hclean
    rw [← hmade] at hd₁
    refine Act.wp_mono (Finishing.run ?_ ho₁ hd₁)
      (fun _ s₂ h₂ => ⟨h₂.1, hclean.trans h₂.2⟩) fun _ s₂ h₂ => h₂
    refine .after (quiet_ofExcept _).careful fun _ => ?_
    refine .after (quiet_openRelativeDirectoryIfPresent _ protectPath).careful fun keys => ?_
    refine .after (careful_when (careful_log (by decide) _ _ _) _) fun _ => ?_
    refine .after (quiet_guard _ _).careful fun _ => .after (quiet_report _).careful fun _ => ?_
    refine .after (careful_forEach fun root _ => careful_copyRoot hdelete hs₀ _ _ root) fun _ => ?_
    refine .after quiet_checkCancelled.careful fun _ => .after quiet_read.careful fun s => ?_
    refine .after quiet_checkCancelled.careful fun _ => .after (quiet_report _).careful fun _ => ?_
    exact .after quiet_checkCancelled.careful fun _ => finishing_log _ _ _

/-- **After an error** the objects are those of the beginning, whatever becomes of the journal. -/
theorem afterError_undone (hdelete : ∀ n, fate.deleteFaults n = none) (error : MigrationError)
    (ho : Owns s₀ s) :
    Act.wp (afterError fate plan error) (fun _ _ => False)
      (fun _ s' => s'.objects = s₀.objects ∧ Unfinished s₀ s') s := by
  unfold afterError
  rw [Act.wp_bind, report, Act.wp_update, Act.wp_bind, Act.wp_attempt]
  refine Act.wp_mono (rollback_spec hdelete (ho.untouched ⟨rfl, rfl, rfl, rfl⟩))
    (fun _ s₁ h₁ => ?_) fun _ _ hfalse => hfalse.elim
  obtain ⟨hobjects, haudits⟩ := h₁
  have hunfinished : Unfinished s₀ s₁ := ho.unfinished.congr haudits
  dsimp only
  rw [Act.wp_bind]
  refine Act.wp_mono (log_entry _ _ _ _ s₁) (fun _ s₂ h₂ => ?_) fun _ s₂ h₂ => ?_
  · obtain ⟨entry, hname, rfl⟩ := h₂
    refine (Act.wp_fail _).mpr ⟨hobjects, hunfinished.concat rfl ?_⟩
    rw [hname]
    decide
  · subst h₂
    exact ⟨hobjects, hunfinished.congr rfl⟩

/-- The call has failed, and the destination is as it was. -/
def Undone (s s' : RunState) (r : Except MigrationError MigrationReceipt) : Prop :=
  Failed r ∧ s'.objects = s.objects

/-- A run from `s` to `s'` with the result `r` that does all or nothing. -/
structure AllOrNothing (H : CopyHost) (fate : Fate) (F : Forest)
    (contents : FileIdentity → SourceNode) (plan : MigrationPlan) (s s' : RunState)
    (r : Except MigrationError MigrationReceipt) : Prop where
  recorded : (∃ receipt, r = .ok receipt) ↔ Succeeded s s'
  kept : ∀ receipt, r = .ok receipt → ∃ v, validateForExecution H.toMigrationHost F plan = .ok v ∧
    Migrated H fate contents plan v s s' receipt
  undone : Failed r → Undone s s' r
  guarded : fate.guard ≠ none → Undone s s' r
  cancelled : ∀ n, s.polls ≤ n → n < s'.polls → fate.isCancelled n = true → Undone s s' r
  failed : ∀ n, s.clock ≤ n → n < s'.clock → fate.faults n ≠ none → Undone s s' r
  refused : (∀ v, validateForExecution H.toMigrationHost F plan = .ok v →
    ¬ CanCopy H contents plan fate v s) → Undone s s' r

/-- The run from the beginning on: the success is in the journal, or nothing has changed. -/
theorem execute_finishes (F : Forest) (hdelete : ∀ n, fate.deleteFaults n = none) (ho : Ordered s) :
    Act.wp (executeMigrationWithCancel fate H F contents plan)
      (fun _ s' => Succeeded s s' ∧ fate.guard = none ∧ Undisturbed fate s s')
      (fun _ s' => s'.objects = s.objects ∧ Unfinished s s') s := by
  have hstart : Unfinished s s := ⟨[], (List.append_nil _).symm, nofun⟩
  rw [executeMigrationWithCancel, Act.wp_bind, acquireOperationGuard]
  cases hguard : fate.guard with
  | some text => exact (Act.wp_fail _).mpr ⟨rfl, hstart⟩
  | none =>
    rw [Act.wp_ret, Act.wp_bind, Act.wp_ofExcept]
    cases validateForExecution H.toMigrationHost F plan with
    | error error => exact ⟨rfl, hstart⟩
    | ok v =>
      dsimp only
      rw [Act.wp_bind]
      refine Act.wp_mono (log_call _ _ _ _ s) (fun _ s₁ h₁ => ?_) fun _ s₁ h₁ => ?_
      · obtain ⟨entry, hname, rfl, hclean⟩ := h₁
        rw [Act.wp_bind, setTransaction, Act.wp_update, Act.wp_rescue]
        -- with an empty transaction the run owns nothing yet
        have hnone : Unfinished s { s.tick with audits := s.audits ++ [entry] } :=
          hstart.concat rfl (hname.trans_ne (by decide))
        have howns : Owns s { s.tick with audits := s.audits ++ [entry], transaction := {} } :=
          ⟨⟨[], (List.append_nil _).symm, rfl⟩, ho.congr rfl le_rfl, le_rfl, hnone.congr rfl⟩
        refine Act.wp_mono (operation_finishes hdelete ho howns) (fun _ s₂ h₂ => ?_)
          fun error s₂ h₂ => ?_
        · obtain ⟨hsucceeded, hclock, hpolls, hfaults, hcancelled⟩ := h₂
          exact ⟨hsucceeded, rfl, hclean.trans ⟨hclock, hpolls, hfaults, hcancelled⟩⟩
        · exact Act.wp_mono (afterError_undone hdelete error h₂) (fun _ _ hfalse => hfalse.elim)
            fun _ _ h₃ => h₃
      · subst h₁
        exact ⟨rfl, hstart.congr rfl⟩

/-- **A migration is all or nothing.** In every run, for every tree, plan, schedule of failures and
schedule of cancellations: it succeeds exactly when the success is in the journal, and then the
target is kept; if a call failed, an answer was to cancel or something stood in the way, it fails,
and the destination has the objects it had. -/
theorem migration_all_or_nothing (H : CopyHost) (F : Forest) (contents : FileIdentity → SourceNode)
    (plan : MigrationPlan) (hdelete : ∀ n, fate.deleteFaults n = none) (ho : Ordered s) :
    AllOrNothing H fate F contents plan s
      (executeMigrationWithCancel fate H F contents plan s).2
      (executeMigrationWithCancel fate H F contents plan s).1 := by
  have hwp : Act.wp (executeMigrationWithCancel fate H F contents plan) _ _ s :=
    execute_finishes F hdelete ho
  unfold Act.wp at hwp
  rcases hrun : executeMigrationWithCancel fate H F contents plan s with ⟨error | receipt, s'⟩
  · rw [hrun] at hwp
    obtain ⟨hobjects, hunfinished⟩ := hwp
    have hundone : Undone s s' (.error error) := ⟨trivial, hobjects⟩
    exact
      { recorded := iff_of_false (fun ⟨_, hok⟩ => by cases hok) hunfinished.not_succeeded
        kept := fun _ hok => by cases hok
        undone := fun _ => hundone
        guarded := fun _ => hundone
        cancelled := fun _ _ _ _ => hundone
        failed := fun _ _ _ _ => hundone
        refused := fun _ => hundone }
  · rw [hrun] at hwp
    obtain ⟨hsucceeded, hguard, hclean⟩ := hwp
    obtain ⟨v, hv, hmigrated, hcan⟩ := execute_ok ho hrun
    exact
      { recorded := iff_of_true ⟨receipt, rfl⟩ hsucceeded
        kept := fun _ hok => by cases hok; exact ⟨v, hv, hmigrated⟩
        undone := fun hfailed => hfailed.elim
        guarded := fun h => absurd hguard h
        cancelled := fun n hn hlt h => by rw [hclean.isCancelled n hn hlt] at h; cases h
        failed := fun n hn hlt h => absurd (hclean.faults n hn hlt) h
        refused := fun h => absurd hcan (h v hv) }

theorem diskFull_real (path : String) :
    SecureFsError.io "write" "C:\\copy\\Documents\\a.txt" "os error 112" ≠ .notFound path := by
  simp

def diskFull : CallFault where
  secure := .io "write" "C:\\copy\\Documents\\a.txt" "os error 112"
  text := "There is not enough space on the disk. (os error 112)"
  real := diskFull_real

/-- The disk is full when the second byte of the file is written. -/
def fullFate : Fate := { sampleFate with faults := fun n => if n = 22 then some diskFull else none }

def fullCopy : Except MigrationError MigrationReceipt × RunState :=
  executeMigrationWithCancel fullFate sampleCopyHost sampleForest sampleContents
    (sampleMigration "C:\\copy") {}

/-- Three objects have been created by then, and none of them is left. -/
theorem migration_all_or_nothing_sample :
    fullCopy.2.nextSerial = 3 ∧ fullCopy.2.objects = [] ∧
      AllOrNothing sampleCopyHost fullFate sampleForest sampleContents (sampleMigration "C:\\copy")
        {} fullCopy.2 fullCopy.1 := by
  have hrun : AllOrNothing sampleCopyHost fullFate sampleForest sampleContents
      (sampleMigration "C:\\copy") {} fullCopy.2 fullCopy.1 :=
    migration_all_or_nothing sampleCopyHost sampleForest sampleContents (sampleMigration "C:\\copy")
      (fun _ => rfl) ordered_start
  refine ⟨by decide +kernel, ?_, hrun⟩
  exact (hrun.failed 22 (Nat.zero_le _) (by decide +kernel) (by decide)).2

end Run

end WinProfile.Migration
