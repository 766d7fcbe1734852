/-
  File:      WinProfile/Win32/Privileges.lean
  Subject:   platform-win32/src/security.rs: `PrivilegeGuard`, which enables privileges of the
             process token and puts back what it changed.

  * `adjust` -- `AdjustTokenPrivileges` with one entry: it fails, finds no such privilege, or sets
    the attributes and reports the old ones if they were others.
  * `PrivilegeGuard.new`, `restore`, `drop` -- the guard; `Program` -- guards one after the other
    and one inside the other, left in either way.
  * `Chain` -- the states a guard went through, with what it has to put back.
  * `privileges_undone` -- after every guard the token is what it was before, and while a guard
    lives all its privileges are enabled.
-/
import WinProfile.Lib.Act
import WinProfile.Snapshot.Engine

namespace WinProfile.Privileges

open Snapshot (SecurityError)

/-! ## 1. The token -/

abbrev Luid := UInt64

def SE_PRIVILEGE_ENABLED : UInt32 := 0x2

def ERROR_NOT_ALL_ASSIGNED : UInt32 := 1300

/-- The attributes of the privileges that a token holds. -/
abbrev Token := Luid → Option UInt32

/-- The entry of a `TOKEN_PRIVILEGES` with one privilege. -/
structure Entry where
  luid : Luid
  attributes : UInt32

/-- The process. -/
structure Process where
  token : Token
  clock : Nat
  /-- For observation only: the states of the token after each adjustment, the last one first. -/
  seen : List Token

/-- What the operating system decides. -/
structure System where
  /-- `LookupPrivilegeValueW`. -/
  lookup : String → Option Luid
  /-- The error that a call of `PrivilegeGuard::new` fails with, if it does. -/
  faults : Nat → Option UInt32
  /-- The error that an adjustment of `restore_privileges` fails with, if it does. -/
  undoFaults : Nat → Option UInt32

/-- `ENABLED` set or cleared; the other attributes stay. -/
def setEnabled (old : UInt32) (enabled : Bool) : UInt32 :=
  if enabled then old ||| SE_PRIVILEGE_ENABLED else old &&& ~~~SE_PRIVILEGE_ENABLED

def Process.tick (p : Process) : Process := { p with clock := p.clock + 1 }

def Process.assign (p : Process) (luid : Luid) (attributes : UInt32) : Process where
  token := Function.update p.token luid (some attributes)
  clock := p.clock + 1
  seen := Function.update p.token luid (some attributes) :: p.seen

/-- How an adjustment ends; `previous_state` holds no entry if nothing changed. -/
inductive Adjusted where
  | failed (code : UInt32)
  | notAllAssigned
  | done (previous : Option Entry)

/-- `AdjustTokenPrivileges` with one entry. -/
def adjust (fault : Option UInt32) (entry : Entry) (p : Process) : Adjusted × Process :=
  match fault with
  | some code => (.failed code, p.tick)
  | none =>
    match p.token entry.luid with
    | none => (.notAllAssigned, p.tick)
    | some old =>
      let attributes := setEnabled old (entry.attributes &&& SE_PRIVILEGE_ENABLED != 0)
      (.done (if attributes = old then none else some ⟨entry.luid, old⟩),
        p.assign entry.luid attributes)

/-! ## 2. The guard -/

abbrev SecM (α : Type) := Act Process SecurityError α

section Guard

variable (S : System)

/-- The loop of `restore_privileges`: every state is put back, and the first error is kept. -/
def restoreEach : List Entry → Option SecurityError → Process → Option SecurityError × Process
  | [], first, p => (first, p)
  | state :: states, first, p =>
    match adjust (S.undoFaults p.clock) state p with
    | (.failed code, p') => restoreEach states (first.orElse fun _ => some (.win32Error code)) p'
    | (.notAllAssigned, p') =>
      restoreEach states (first.orElse fun _ => some (.win32Error ERROR_NOT_ALL_ASSIGNED)) p'
    | (.done _, p') => restoreEach states first p'

/-- `restore_privileges`. -/
def restorePrivileges (states : List Entry) : SecM Unit := .of fun p =>
  match restoreEach S states.reverse none p with
  | (some error, p') => (.error error, p')
  | (none, p') => (.ok (), p')

/-- Put back what was changed so far, and stop. -/
def restoreAndFail {α : Type} (previousStates : List Entry) (error : SecurityError) : SecM α := do
  restorePrivileges S previousStates
  Act.fail error

/-- A call of `LookupPrivilegeValueW`. -/
def lookupPrivilege (name : String) : SecM (Option Luid) := .of fun p =>
  match S.faults p.clock with
  | some _ => (.ok none, p.tick)
  | none => (.ok (S.lookup name), p.tick)

/-- A call of `AdjustTokenPrivileges` that enables the privilege. -/
def enablePrivilege (luid : Luid) : SecM Adjusted := .of fun p =>
  match adjust (S.faults p.clock) ⟨luid, SE_PRIVILEGE_ENABLED⟩ p with
  | (result, p') => (.ok result, p')

/-- What follows an adjustment: the error, or the states to put back from now on. -/
def afterAdjust (name : String) (previousStates : List Entry) : Adjusted → SecM (List Entry)
  | .failed code => restoreAndFail S previousStates (.win32Error code)
  | .notAllAssigned => restoreAndFail S previousStates (.privilegeNotAssigned name)
  | .done none => Act.ret previousStates
  | .done (some previous) => Act.ret (previousStates ++ [previous])

/-- The body of the loop of `PrivilegeGuard::new`. -/
def enableOne (name : String) (previousStates : List Entry) : SecM (List Entry) := do
  match ← lookupPrivilege S name with
  | none => restoreAndFail S previousStates (.privilegeNotAssigned name)
  | some luid => enablePrivilege S luid >>= afterAdjust S name previousStates

/-- The loop of `PrivilegeGuard::new`. -/
def enableEach : List String → List Entry → SecM (List Entry)
  | [], previousStates => Act.ret previousStates
  | name :: names, previousStates => do
    let previousStates ← enableOne S name previousStates
    enableEach names previousStates

/-- `PrivilegeGuard`. -/
structure PrivilegeGuard where
  previousStates : List Entry

/-- `OpenProcessToken`. -/
def openProcessToken : SecM Unit := .of fun p =>
  match S.faults p.clock with
  | some code => (.error (.win32Error code), p.tick)
  | none => (.ok (), p.tick)

/-- `PrivilegeGuard::new`. -/
def PrivilegeGuard.new (names : List String) : SecM PrivilegeGuard := do
  openProcessToken S
  let previousStates ← enableEach S names []
  pure ⟨previousStates⟩

/-- `Drop::drop`: an error is only logged. -/
def PrivilegeGuard.drop (g : PrivilegeGuard) : SecM Unit := do
  let _ ← Act.attempt (restorePrivileges S g.previousStates)
  pure ()

/-- `PrivilegeGuard::restore`: the guard is dropped at the end, with its states after an error and
without any after success. -/
def PrivilegeGuard.restore (g : PrivilegeGuard) : SecM Unit :=
  Act.rescue (restorePrivileges S g.previousStates) fun error => do
    g.drop S
    Act.fail error

/-! ## 3. Nested guards -/

/-- The two ways a guard ends. -/
inductive Exit where
  | restore | drop

/-- Guards, properly nested. After `new`, either the body runs, the guard ends and `next` follows,
or `failed` follows. -/
inductive Program where
  | done
  | guarded (names : List String) (body : Program) (exit : Exit) (next failed : Program)

/-- The end of a guard. -/
def Exit.run (g : PrivilegeGuard) : Exit → Process → Process
  | .restore, p => (g.restore S p).2
  | .drop, p => (g.drop S p).2

def Program.run : Program → Process → Process
  | .done, p => p
  | .guarded names body exit next failed, p =>
    match PrivilegeGuard.new S names p with
    | (.error _, p') => failed.run p'
    | (.ok g, p') => next.run (exit.run S g (body.run p'))

end Guard

/-- The privilege is enabled. -/
def Enabled (t : Token) (luid : Luid) : Prop :=
  ∃ attributes, t luid = some attributes ∧ attributes &&& SE_PRIVILEGE_ENABLED ≠ 0

/-- The privilege of the name is enabled. -/
def Granted (S : System) (t : Token) (name : String) : Prop :=
  ∃ luid, S.lookup name = some luid ∧ Enabled t luid

/-- Along a run: no `new` that fails and no guard that ended has left a trace in the token, and
between `new` and the end of the guard all its privileges were enabled in every state. -/
def Undone (S : System) : Program → Process → Prop
  | .done, _ => True
  | .guarded names body exit next failed, p =>
    match PrivilegeGuard.new S names p with
    | (.error _, p') => p'.token = p.token ∧ Undone S failed p'
    | (.ok g, p') =>
      (∃ recent, (body.run S p').seen = recent ++ p'.seen ∧
        ∀ t ∈ p'.token :: recent, ∀ name ∈ names, Granted S t name) ∧
      Undone S body p' ∧
      (exit.run S g (body.run S p')).token = p.token ∧
      Undone S next (exit.run S g (body.run S p'))

/-! ## 4. Attributes -/

theorem or_and_self (a b : UInt32) : (a ||| b) &&& b = b := by
  rw [← UInt32.toBitVec_inj]
  ext i hi
  simp only [UInt32.toBitVec_and, UInt32.toBitVec_or, BitVec.getElem_and, BitVec.getElem_or]
  cases a.toBitVec[i] <;> cases b.toBitVec[i] <;> rfl

theorem or_and_not (a b : UInt32) (h : a &&& b = 0) : (a ||| b) &&& ~~~b = a := by
  rw [← UInt32.toBitVec_inj] at h ⊢
  ext i hi
  have hbit := congrArg (fun v : BitVec 32 => v[i]) h
  simp only [UInt32.toBitVec_and, UInt32.toBitVec_or, UInt32.toBitVec_not, BitVec.getElem_and,
    BitVec.getElem_or, BitVec.getElem_not] at hbit ⊢
  revert hbit
  cases a.toBitVec[i] <;> cases b.toBitVec[i] <;> simp

/-- One bit is set or it is clear. -/
theorem or_eq_of_and_ne {a : UInt32} (h : a &&& SE_PRIVILEGE_ENABLED ≠ 0) :
    a ||| SE_PRIVILEGE_ENABLED = a := by
  have hother : ∀ i : Fin 32, i.val ≠ 1 → (2 : BitVec 32)[i.val] = false := by decide
  have hset : a.toBitVec[1] = true := by
    by_contra hclear
    refine h (UInt32.toBitVec_inj.mp ?_)
    ext i hi
    simp only [SE_PRIVILEGE_ENABLED, UInt32.toBitVec_and, BitVec.getElem_and]
    by_cases h1 : i = 1
    · subst h1
      rw [Bool.eq_false_iff.mpr hclear, Bool.false_and]
      exact (BitVec.getElem_zero hi).symm
    · rw [show (2 : UInt32).toBitVec[i] = false from hother ⟨i, hi⟩ h1, Bool.and_false]
      exact (BitVec.getElem_zero hi).symm
  rw [← UInt32.toBitVec_inj]
  ext i hi
  simp only [SE_PRIVILEGE_ENABLED, UInt32.toBitVec_or, BitVec.getElem_or]
  by_cases h1 : i = 1
  · subst h1
    rw [hset]
    rfl
  · rw [show (2 : UInt32).toBitVec[i] = false from hother ⟨i, hi⟩ h1, Bool.or_false]

/-! ## 5. What a guard puts back -/

/-- What is enabled in the one token is enabled in the other. -/
def Above (t t' : Token) : Prop := ∀ luid, Enabled t luid → Enabled t' luid

theorem Above.refl (t : Token) : Above t t := fun _ h => h

theorem Above.trans {t t' t'' : Token} (h : Above t t') (h' : Above t' t'') : Above t t'' :=
  fun luid hl => h' luid (h luid hl)

/-- The token with one privilege enabled. -/
def Token.enable (t : Token) (luid : Luid) (old : UInt32) : Token :=
  Function.update t luid (some (old ||| SE_PRIVILEGE_ENABLED))

theorem enabled_enable (t : Token) (luid : Luid) (old : UInt32) :
    Enabled (t.enable luid old) luid := by
  refine ⟨_, Function.update_self _ _ _, ?_⟩
  rw [or_and_self]
  decide

theorem above_enable {t : Token} {luid : Luid} {old : UInt32} : Above t (t.enable luid old) := by
  intro l h
  by_cases hl : l = luid
  · rw [hl]
    exact enabled_enable t luid old
  · obtain ⟨attributes, hat, hon⟩ := h
    exact ⟨attributes, (Function.update_of_ne hl _ _).trans hat, hon⟩

/-- From `t₀` on, the privileges of the entries were enabled one after the other, the first entry
last; each of them was held, and not enabled before. -/
inductive Chain (t₀ : Token) : List Entry → Token → Prop where
  | nil : Chain t₀ [] t₀
  | cons {entries : List Entry} {t : Token} {luid : Luid} {old : UInt32} (rest : Chain t₀ entries t)
      (held : t luid = some old) (off : old &&& SE_PRIVILEGE_ENABLED = 0) :
      Chain t₀ (⟨luid, old⟩ :: entries) (t.enable luid old)

theorem Chain.above {t₀ t : Token} {entries : List Entry} (h : Chain t₀ entries t) :
    Above t₀ t := by
  induction h with
  | nil => exact .refl t₀
  | cons _ _ _ ih => exact ih.trans above_enable

/-- The states of a stretch of the run. -/
def Since (p p' : Process) (R : Token → Prop) : Prop :=
  ∃ recent, p'.seen = recent ++ p.seen ∧ ∀ t ∈ recent, R t

variable {p p' p'' : Process} {R R' : Token → Prop}

theorem Since.refl : Since p p R := ⟨[], rfl, nofun⟩

theorem Since.of_seen (h : p'.seen = p.seen) : Since p p' R := ⟨[], h, nofun⟩

theorem Since.trans (h : Since p p' R) (h' : Since p' p'' R) : Since p p'' R := by
  obtain ⟨recent, hseen, hR⟩ := h
  obtain ⟨recent', hseen', hR'⟩ := h'
  refine ⟨recent' ++ recent, by rw [hseen', hseen, List.append_assoc], fun t ht => ?_⟩
  rcases List.mem_append.mp ht with ht | ht
  · exact hR' t ht
  · exact hR t ht

theorem Since.mono (h : Since p p' R) (hR : ∀ t, R t → R' t) : Since p p' R' := by
  obtain ⟨recent, hseen, hall⟩ := h
  exact ⟨recent, hseen, fun t ht => hR t (hall t ht)⟩

theorem Since.assign {luid : Luid} {attributes : UInt32} (h : R (p.assign luid attributes).token) :
    Since p (p.assign luid attributes) R :=
  ⟨[(p.assign luid attributes).token], rfl, List.forall_mem_singleton.mpr h⟩

/-- The adjustments that put a state back succeed. -/
def Reliable (S : System) : Prop := ∀ n, S.undoFaults n = none

variable {S : System} {t₀ : Token} {entries : List Entry}

/-- Putting one state back undoes the last step of a chain. -/
theorem adjust_undo {t : Token} {luid : Luid} {old : UInt32} (held : t luid = some old)
    (off : old &&& SE_PRIVILEGE_ENABLED = 0) (hp : p.token = t.enable luid old) :
    ∃ previous p', adjust none ⟨luid, old⟩ p = (.done previous, p') ∧ p'.token = t ∧
      Since p p' (· = t) := by
  have hnow : p.token luid = some (old ||| SE_PRIVILEGE_ENABLED) := by
    rw [hp]
    exact Function.update_self _ _ _
  have hback : setEnabled (old ||| SE_PRIVILEGE_ENABLED) (old &&& SE_PRIVILEGE_ENABLED != 0) =
      old := by
    rw [off]
    exact or_and_not old _ off
  have htoken : (p.assign luid old).token = t := by
    show Function.update p.token luid (some old) = t
    rw [hp, Token.enable, Function.update_idem, ← held, Function.update_eq_self]
  refine ⟨if old = old ||| SE_PRIVILEGE_ENABLED then none
    else some ⟨luid, old ||| SE_PRIVILEGE_ENABLED⟩, p.assign luid old, ?_, htoken, ?_⟩
  · simp only [adjust, hnow, hback]
  · exact Since.assign htoken

/-- **Replaying a chain in reverse composes to the identity.** -/
theorem restoreEach_chain (hundo : Reliable S) {t : Token} (h : Chain t₀ entries t) :
    ∀ {p : Process}, p.token = t → ∃ p', restoreEach S entries none p = (none, p') ∧
      p'.token = t₀ ∧ Since p p' (Above t₀) := by
  induction h with
  | nil => exact fun hp => ⟨_, rfl, hp, .refl⟩
  | @cons entries t luid old rest held off ih =>
    intro p hp
    obtain ⟨previous, p', hadjust, htoken, hsince⟩ := adjust_undo held off hp
    obtain ⟨p'', hrest, htoken', hsince'⟩ := ih htoken
    refine ⟨p'', ?_, htoken', (hsince.mono fun _ h => h ▸ rest.above).trans hsince'⟩
    rw [restoreEach, hundo, hadjust]
    exact hrest

theorem restorePrivileges_chain (hundo : Reliable S) (h : Chain t₀ entries.reverse p.token) :
    Act.wp (restorePrivileges S entries) (fun _ p' => p'.token = t₀ ∧ Since p p' (Above t₀))
      (fun _ _ => False) p := by
  obtain ⟨p', hrun, htoken, hsince⟩ := restoreEach_chain hundo h rfl
  rw [restorePrivileges, Act.wp_of, hrun]
  exact ⟨htoken, hsince⟩

/-! ## 6. One guard -/

theorem restoreAndFail_chain {α : Type} {error : SecurityError} {Q : α → Process → Prop}
    (hundo : Reliable S) (h : Chain t₀ entries.reverse p.token) :
    Act.wp (restoreAndFail S entries error) Q
      (fun _ p' => p'.token = t₀ ∧ Since p p' (Above t₀)) p := by
  rw [restoreAndFail, Act.wp_bind]
  refine Act.wp_mono (restorePrivileges_chain hundo h) (fun _ p' hp' => ?_) fun _ _ hfalse => hfalse.elim
  rw [Act.wp_fail]
  exact hp'

/-- What a guard has after a part of its names: the chain, and the names granted. -/
structure Held (S : System) (t₀ : Token) (names : List String) (entries : List Entry) (t : Token) :
    Prop where
  chain : Chain t₀ entries.reverse t
  granted : ∀ name ∈ names, Granted S t name

theorem Granted.mono {t t' : Token} {name : String} (h : Granted S t name) (hle : Above t t') :
    Granted S t' name := by
  obtain ⟨luid, hlookup, hon⟩ := h
  exact ⟨luid, hlookup, hle luid hon⟩

/-- A successful adjustment leaves the privilege enabled and the chain one longer, or as it is. -/
theorem adjust_enable {luid : Luid} {fault : Option UInt32} {previous : Option Entry}
    (h : adjust fault ⟨luid, SE_PRIVILEGE_ENABLED⟩ p = (.done previous, p'))
    (hchain : Chain t₀ entries.reverse p.token) :
    Chain t₀ (entries ++ previous.toList).reverse p'.token ∧ Enabled p'.token luid ∧
      Above p.token p'.token ∧ Since p p' (Above p.token) := by
  unfold adjust at h
  split at h
  · cases h
  · split at h
    · cases h
    · next old hold =>
      have hset : setEnabled old (SE_PRIVILEGE_ENABLED &&& SE_PRIVILEGE_ENABLED != 0) =
          old ||| SE_PRIVILEGE_ENABLED := rfl
      simp only [hset] at h
      obtain ⟨hprevious, rfl⟩ := by simpa only [Prod.mk.injEq, Adjusted.done.injEq] using h
      have htoken : (p.assign luid (old ||| SE_PRIVILEGE_ENABLED)).token = p.token.enable luid old := rfl
      refine ⟨?_, htoken ▸ enabled_enable _ _ _, htoken ▸ above_enable,
        Since.assign (htoken ▸ above_enable)⟩
      rw [← hprevious]
      by_cases hon : old &&& SE_PRIVILEGE_ENABLED = 0
      · have hne : old ||| SE_PRIVILEGE_ENABLED ≠ old := by
          intro he
          have hbit := or_and_self old SE_PRIVILEGE_ENABLED
          rw [he, hon] at hbit
          exact absurd hbit (by decide)
        rw [if_neg hne, Option.toList_some, List.reverse_append, List.reverse_singleton]
        exact hchain.cons hold hon
      · have hsame : p.token.enable luid old = p.token := by
          rw [Token.enable, or_eq_of_and_ne hon, ← hold, Function.update_eq_self]
        rw [if_pos (or_eq_of_and_ne hon), Option.toList_none, List.append_nil, htoken, hsame]
        exact hchain

/-- An adjustment that does not succeed changes nothing. -/
theorem adjust_unchanged {luid : Luid} {fault : Option UInt32} {result : Adjusted}
    (h : adjust fault ⟨luid, SE_PRIVILEGE_ENABLED⟩ p = (result, p'))
    (hfailed : ∀ previous, result ≠ .done previous) : p'.token = p.token ∧ p'.seen = p.seen := by
  unfold adjust at h
  split at h
  · cases h
    exact ⟨rfl, rfl⟩
  · split at h
    · cases h
      exact ⟨rfl, rfl⟩
    · cases h
      exact absurd rfl (hfailed _)

theorem lookupPrivilege_spec (S : System) (name : String) {E : SecurityError → Process → Prop} :
    Act.wp (lookupPrivilege S name) (fun found p' => (p'.token = p.token ∧ p'.seen = p.seen) ∧
      ∀ luid, found = some luid → S.lookup name = some luid) E p := by
  rw [lookupPrivilege, Act.wp_of]
  cases S.faults p.clock with
  | some code => exact ⟨⟨rfl, rfl⟩, nofun⟩
  | none => exact ⟨⟨rfl, rfl⟩, fun _ h => h⟩

theorem restoreAndFail_held {α : Type} {error : SecurityError} {Q : α → Process → Prop}
    {names : List String} (hundo : Reliable S) (h : Held S t₀ names entries p.token)
    (hsame : p'.token = p.token ∧ p'.seen = p.seen) :
    Act.wp (restoreAndFail S entries error) Q
      (fun _ q => q.token = t₀ ∧ Since p q (Above t₀)) p' := by
  refine Act.wp_mono (restoreAndFail_chain hundo (hsame.1 ▸ h.chain)) (fun _ _ hq => hq) ?_
  exact fun _ _ hq => ⟨hq.1, (Since.of_seen hsame.2).trans hq.2⟩

/-- One adjustment and what follows it. -/
theorem enablePrivilege_spec (hundo : Reliable S) {name : String} {names : List String}
    {luid : Luid} (h : Held S t₀ names entries p.token) (hlookup : S.lookup name = some luid) :
    Act.wp (enablePrivilege S luid >>= afterAdjust S name entries)
      (fun entries' p' => Held S t₀ (names ++ [name]) entries' p'.token ∧ Since p p' (Above t₀))
      (fun _ p' => p'.token = t₀ ∧ Since p p' (Above t₀)) p := by
  rw [Act.wp_bind, enablePrivilege, Act.wp_of]
  obtain ⟨⟨result, p'⟩, hadjust⟩ :
      ∃ r, adjust (S.faults p.clock) ⟨luid, SE_PRIVILEGE_ENABLED⟩ p = r := ⟨_, rfl⟩
  rw [hadjust]
  cases result with
  | failed code => exact restoreAndFail_held hundo h (adjust_unchanged hadjust nofun)
  | notAllAssigned => exact restoreAndFail_held hundo h (adjust_unchanged hadjust nofun)
  | done previous =>
    obtain ⟨hchain, hon, habove, hsince⟩ := adjust_enable hadjust h.chain
    have hgranted : ∀ n ∈ names ++ [name], Granted S p'.token n := by
      intro n hn
      rcases List.mem_append.mp hn with hn | hn
      · exact (h.granted n hn).mono habove
      · exact List.mem_singleton.mp hn ▸ ⟨luid, hlookup, hon⟩
    have hall := hsince.mono fun _ ht => h.chain.above.trans ht
    cases previous with
    | none =>
      rw [Option.toList_none, List.append_nil] at hchain
      exact (Act.wp_ret entries).mpr ⟨⟨hchain, hgranted⟩, hall⟩
    | some previous => exact (Act.wp_ret (entries ++ [previous])).mpr ⟨⟨hchain, hgranted⟩, hall⟩

/-- One name: it is granted and its old state recorded, or everything is put back. -/
theorem enableOne_spec (hundo : Reliable S) {name : String} {names : List String}
    (h : Held S t₀ names entries p.token) :
    Act.wp (enableOne S name entries)
      (fun entries' p' => Held S t₀ (names ++ [name]) entries' p'.token ∧ Since p p' (Above t₀))
      (fun _ p' => p'.token = t₀ ∧ Since p p' (Above t₀)) p := by
  rw [enableOne, Act.wp_bind]
  refine Act.wp_mono (lookupPrivilege_spec S name) (fun found q hq => ?_) fun _ _ hfalse => hfalse
  obtain ⟨hsame, hlookup⟩ := hq
  cases found with
  | none => exact restoreAndFail_held hundo h hsame
  | some luid =>
    have hheld : Held S t₀ names entries q.token := hsame.1 ▸ h
    refine Act.wp_mono (enablePrivilege_spec hundo hheld (hlookup luid rfl)) ?_ ?_
    · exact fun _ _ hend => ⟨hend.1, (Since.of_seen hsame.2).trans hend.2⟩
    · exact fun _ _ hend => ⟨hend.1, (Since.of_seen hsame.2).trans hend.2⟩

/-- All names: by induction on them, with the names so far. -/
theorem enableEach_spec (hundo : Reliable S) : ∀ (names before : List String)
    {entries : List Entry} {p : Process}, Held S t₀ before entries p.token →
    Act.wp (enableEach S names entries)
      (fun entries' p' => Held S t₀ (before ++ names) entries' p'.token ∧ Since p p' (Above t₀))
      (fun _ p' => p'.token = t₀ ∧ Since p p' (Above t₀)) p
  | [], before, _, _, h => by
    rw [enableEach, Act.wp_ret, List.append_nil]
    exact ⟨h, .refl⟩
  | name :: names, before, _, _, h => by
    rw [enableEach, Act.wp_bind]
    refine Act.wp_mono (enableOne_spec hundo h) (fun entries' q hq => ?_) fun _ _ hend => hend
    refine Act.wp_mono (enableEach_spec hundo names (before ++ [name]) hq.1) ?_ ?_
    · intro _ _ hend
      rw [List.append_assoc] at hend
      exact ⟨hend.1, hq.2.trans hend.2⟩
    · exact fun _ _ hend => ⟨hend.1, hq.2.trans hend.2⟩

/-- **`PrivilegeGuard::new`**: every name is granted and what was changed can be put back, or the
token is what it was. -/
theorem new_spec (hundo : Reliable S) (names : List String) (p : Process) :
    Act.wp (PrivilegeGuard.new S names)
      (fun g p' => Held S p.token names g.previousStates p'.token ∧ Since p p' (Above p.token))
      (fun _ p' => p'.token = p.token ∧ Since p p' (Above p.token)) p := by
  rw [PrivilegeGuard.new, Act.wp_bind, openProcessToken, Act.wp_of]
  cases S.faults p.clock with
  | some code => exact ⟨rfl, .of_seen rfl⟩
  | none =>
    show Act.wp _ _ _ p.tick
    rw [Act.wp_bind]
    have hstart : Held S p.token [] [] p.tick.token := ⟨.nil, nofun⟩
    refine Act.wp_mono (enableEach_spec hundo names [] hstart) (fun entries q hq => ?_) ?_
    · rw [Act.wp_pure]
      exact ⟨hq.1, (Since.of_seen rfl).trans hq.2⟩
    · exact fun _ _ hend => ⟨hend.1, (Since.of_seen rfl).trans hend.2⟩

theorem new_ok (hundo : Reliable S) {names : List String} {g : PrivilegeGuard}
    (h : PrivilegeGuard.new S names p = (.ok g, p')) :
    Held S p.token names g.previousStates p'.token ∧ Since p p' (Above p.token) := by
  have hrun := Act.wp_run (R := fun r q => ∀ g, r = .ok g →
    Held S p.token names g.previousStates q.token ∧ Since p q (Above p.token))
    (Act.wp_mono (new_spec hundo names p) (fun _ _ hq _ he => Except.ok.inj he ▸ hq) nofun)
  rw [h] at hrun
  exact hrun g rfl

theorem new_error (hundo : Reliable S) {names : List String} {e : SecurityError}
    (h : PrivilegeGuard.new S names p = (.error e, p')) :
    p'.token = p.token ∧ Since p p' (Above p.token) := by
  have hrun := Act.wp_run (R := fun r q => ∀ e, r = .error e →
    q.token = p.token ∧ Since p q (Above p.token))
    (Act.wp_mono (new_spec hundo names p) nofun (fun _ _ hq _ _ => hq))
  rw [h] at hrun
  exact hrun e rfl

/-- **Either end of a guard** puts the token back. -/
theorem exit_spec (hundo : Reliable S) {g : PrivilegeGuard} (exit : Exit)
    (h : Chain t₀ g.previousStates.reverse p.token) :
    (exit.run S g p).token = t₀ ∧ Since p (exit.run S g p) (Above t₀) := by
  have hrestore := restorePrivileges_chain hundo h
  cases exit with
  | restore =>
    have hwp : Act.wp (g.restore S) (fun _ p' => p'.token = t₀ ∧ Since p p' (Above t₀))
        (fun _ p' => p'.token = t₀ ∧ Since p p' (Above t₀)) p := by
      rw [PrivilegeGuard.restore, Act.wp_rescue]
      exact Act.wp_mono hrestore (fun _ _ hq => hq) fun _ _ hfalse => hfalse.elim
    exact Act.wp_run (R := fun _ p' => p'.token = t₀ ∧ Since p p' (Above t₀)) hwp
  | drop =>
    have hwp : Act.wp (g.drop S) (fun _ p' => p'.token = t₀ ∧ Since p p' (Above t₀))
        (fun _ p' => p'.token = t₀ ∧ Since p p' (Above t₀)) p := by
      rw [PrivilegeGuard.drop, Act.wp_bind, Act.wp_attempt]
      exact Act.wp_mono hrestore (fun _ _ hq => (Act.wp_pure _).mpr hq) fun _ _ hfalse =>
        hfalse.elim
    exact Act.wp_run (R := fun _ p' => p'.token = t₀ ∧ Since p p' (Above t₀)) hwp

/-! ## 7. Nested guards -/

/-- A whole program leaves the token as it was, and takes nothing away on the way. -/
theorem run_spec (hundo : Reliable S) : ∀ (program : Program) (p : Process),
    (program.run S p).token = p.token ∧ Since p (program.run S p) (Above p.token)
  | .done, p => ⟨rfl, .refl⟩
  | .guarded names body exit next failed, p => by
    rw [Program.run]
    cases hrun : PrivilegeGuard.new S names p with
    | mk result p' =>
    cases result with
    | error e =>
      obtain ⟨htoken, hsince⟩ := new_error hundo hrun
      obtain ⟨hend, hrest⟩ := run_spec hundo failed p'
      exact ⟨hend.trans htoken, hsince.trans (htoken ▸ hrest)⟩
    | ok g =>
      obtain ⟨hheld, hsince⟩ := new_ok hundo hrun
      obtain ⟨hbody, hinside⟩ := run_spec hundo body p'
      obtain ⟨hexit, hleave⟩ := exit_spec hundo exit (hbody ▸ hheld.chain)
      obtain ⟨hend, hrest⟩ := run_spec hundo next (exit.run S g (body.run S p'))
      have hinside := hinside.mono fun _ ht => hheld.chain.above.trans ht
      exact ⟨hend.trans hexit, ((hsince.trans hinside).trans hleave).trans (hexit ▸ hrest)⟩

/-- **Privilege changes are always undone**, whatever fails and however guards are nested. -/
theorem privileges_undone (S : System) (hundo : Reliable S) (program : Program) (p : Process) :
    (program.run S p).token = p.token ∧ Undone S program p := by
  refine ⟨(run_spec hundo program p).1, ?_⟩
  induction program generalizing p with
  | done => trivial
  | guarded names body exit next failed ihBody ihNext ihFailed =>
    rw [Undone]
    cases hrun : PrivilegeGuard.new S names p with
    | mk result p' =>
    cases result with
    | error e => exact ⟨(new_error hundo hrun).1, ihFailed p'⟩
    | ok g =>
      obtain ⟨hheld, _⟩ := new_ok hundo hrun
      obtain ⟨hbody, recent, hseen, habove⟩ := run_spec hundo body p'
      have hexit := (exit_spec hundo exit (hbody ▸ hheld.chain)).1
      refine ⟨⟨recent, hseen, fun t ht name hname => ?_⟩, ihBody p', hexit, ihNext _⟩
      rcases List.mem_cons.mp ht with rfl | ht
      · exact hheld.granted name hname
      · exact (hheld.granted name hname).mono (habove t ht)

/-- Two privileges that exist, and no failure. -/
def sampleSystem : System where
  lookup name := if name = "SeBackupPrivilege" then some 17
    else if name = "SeRestorePrivilege" then some 18 else none
  faults _ := none
  undoFaults _ := none

/-- A guard for both, and inside it one that names a privilege twice and one that is unknown. -/
def sampleProgram : Program :=
  .guarded ["SeBackupPrivilege", "SeRestorePrivilege"]
    (.guarded ["SeRestorePrivilege", "SeRestorePrivilege"] .done .drop
      (.guarded ["SeBackupPrivilege", "SeUnknown"] .done .drop .done .done) .done)
    .restore .done .done

/-- A token that holds both, the second one enabled already. -/
def sampleProcess : Process where
  token luid := if luid = 17 then some 0 else if luid = 18 then some 2 else none
  clock := 0
  seen := []

theorem privileges_undone_sample :
    (sampleProgram.run sampleSystem sampleProcess).token = sampleProcess.token ∧
      Undone sampleSystem sampleProgram sampleProcess :=
  privileges_undone sampleSystem (fun _ => rfl) sampleProgram sampleProcess

end WinProfile.Privileges
