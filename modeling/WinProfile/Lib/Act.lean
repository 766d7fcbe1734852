/-
  File:      WinProfile/Lib/Act.lean
  Subject:   Fallible computations over a state that survives the failure, and the weakest
             precondition calculus for them. Nothing here knows a program.

  * `Act σ ε α` -- a computation reads and changes a state `σ` and ends with a value or an
    error; the state reached is kept in BOTH cases (a failed call does not undo what was done).
  * `Act.attempt`, `Act.mapErr`, `Act.rescue`, `Act.ensuring`, `Act.within`, `Act.forEach`,
    `Act.guard` -- the constructs the modelled code uses: inspect a result, convert an error, clean
    up after one, leave a scope, work on a part of the state, run over a list, stop with an error.
  * `Act.wp` -- what holds after the computation, by result; one equation for every construct,
    and the loop rule `wp_forEach`.
  * `Act.Keeps` -- a relation between the first and the last state, closed under all of them.
  * `Act.Ends` -- one relation for the runs that end with a value, another for those that fail.
-/
import Mathlib.Tactic

namespace WinProfile

/-- A computation over `σ` that may fail with `ε`; the final state is there either way. -/
def Act (σ ε α : Type) : Type := σ → Except ε α × σ

namespace Act

variable {σ ε ε' α β : Type}

/-! ## 1. The constructs -/

def ret (a : α) : Act σ ε α := fun s => (.ok a, s)

def andThen (m : Act σ ε α) (f : α → Act σ ε β) : Act σ ε β := fun s =>
  match m s with
  | (.ok a, s') => f a s'
  | (.error e, s') => (.error e, s')

instance : Monad (Act σ ε) where
  pure := ret
  bind := andThen

/-- A computation by its runs. -/
def of (run : σ → Except ε α × σ) : Act σ ε α := run

/-- Stop with an error. -/
def fail (e : ε) : Act σ ε α := fun s => (.error e, s)

/-- Run to the end and hand the result over as a value. -/
def attempt (m : Act σ ε α) : Act σ ε' (Except ε α) := fun s =>
  match m s with
  | (r, s') => (.ok r, s')

/-- Convert the error. -/
def mapErr (f : ε → ε') (m : Act σ ε α) : Act σ ε' α := fun s =>
  match m s with
  | (.ok a, s') => (.ok a, s')
  | (.error e, s') => (.error (f e), s')

/-- After an error, `f` decides what is done and how it ends. -/
def rescue (m : Act σ ε α) (f : ε → Act σ ε' α) : Act σ ε' α := fun s =>
  match m s with
  | (.ok a, s') => (.ok a, s')
  | (.error e, s') => f e s'

/-- Run to the end and then change the state in any case, as leaving a scope does. -/
def ensuring (m : Act σ ε α) (f : σ → σ) : Act σ ε α := fun s =>
  match m s with
  | (r, s') => (r, f s')

/-- Run on a part of the state. -/
def within {τ : Type} (get : σ → τ) (set : τ → σ → σ) (m : Act τ ε α) : Act σ ε α := fun s =>
  match m (get s) with
  | (r, t) => (r, set t s)

def read : Act σ ε σ := fun s => (.ok s, s)

def update (f : σ → σ) : Act σ ε Unit := fun s => (.ok (), f s)

/-- Stop with `e` unless `c` holds. -/
def guard (c : Bool) (e : ε) : Act σ ε Unit := if c then ret () else fail e

/-- Run `m` only if `c` holds. -/
def when (c : Bool) (m : Act σ ε Unit) : Act σ ε Unit := if c then m else ret ()

/-- Continue with the value of a result, or stop with its error. -/
def ofExcept : Except ε α → Act σ ε α
  | .ok a => ret a
  | .error e => fail e

/-- Run `f` on every element, from the left, and stop at the first error. -/
def forEach : List α → (α → Act σ ε Unit) → Act σ ε Unit
  | [], _ => ret ()
  | a :: as, f => andThen (f a) fun _ => forEach as f

theorem bind_assoc {γ : Type} (m : Act σ ε α) (f : α → Act σ ε β) (g : β → Act σ ε γ) :
    m >>= f >>= g = m >>= fun a => f a >>= g := by
  funext s
  show andThen (andThen m f) g s = andThen m (fun a => andThen (f a) g) s
  unfold andThen
  rcases m s with ⟨_ | _, _⟩ <;> rfl

/-! ## 2. Weakest preconditions -/

/-- `Q` after a value, `E` after an error. Irreducible, so that no tactic runs the program. -/
@[irreducible] def wp (m : Act σ ε α) (Q : α → σ → Prop) (E : ε → σ → Prop) (s : σ) : Prop :=
  match m s with
  | (.ok a, s') => Q a s'
  | (.error e, s') => E e s'

variable {Q : α → σ → Prop} {E : ε → σ → Prop} {s : σ}

theorem wp_mono {m : Act σ ε α} {Q' : α → σ → Prop} {E' : ε → σ → Prop}
    (h : wp m Q E s) (hQ : ∀ a s', Q a s' → Q' a s') (hE : ∀ e s', E e s' → E' e s') :
    wp m Q' E' s := by
  unfold wp at h ⊢
  split at h
  · exact hQ _ _ h
  · exact hE _ _ h

/-- What a weakest precondition says about the run itself. -/
theorem wp_run {m : Act σ ε α} {R : Except ε α → σ → Prop}
    (h : wp m (fun a => R (.ok a)) (fun e => R (.error e)) s) : R (m s).1 (m s).2 := by
  unfold wp at h
  rcases hm : m s with ⟨_ | _, s'⟩ <;> rw [hm] at h <;> exact h

theorem wp_of_ok {m : Act σ ε α} {a : α} {s' : σ} (h : m s = (.ok a, s')) (hQ : Q a s') :
    wp m Q E s := by
  unfold wp
  rw [h]
  exact hQ

theorem wp_of_error {m : Act σ ε α} {e : ε} {s' : σ} (h : m s = (.error e, s')) (hE : E e s') :
    wp m Q E s := by
  unfold wp
  rw [h]
  exact hE

theorem wp_of {run : σ → Except ε α × σ} :
    wp (of run) Q E s ↔ match run s with
      | (.ok a, s') => Q a s'
      | (.error e, s') => E e s' := by
  unfold wp of
  exact Iff.rfl

@[simp] theorem wp_pure (a : α) : wp (pure a) Q E s ↔ Q a s := by
  unfold wp
  exact Iff.rfl

@[simp] theorem wp_ret (a : α) : wp (ret a) Q E s ↔ Q a s := by
  unfold wp
  exact Iff.rfl

@[simp] theorem wp_fail (e : ε) : wp (fail e) Q E s ↔ E e s := by
  unfold wp
  exact Iff.rfl

@[simp] theorem wp_read {Q : σ → σ → Prop} : wp read Q E s ↔ Q s s := by
  unfold wp
  exact Iff.rfl

@[simp] theorem wp_update {Q : Unit → σ → Prop} (f : σ → σ) :
    wp (update f) Q E s ↔ Q () (f s) := by
  unfold wp
  exact Iff.rfl

theorem wp_andThen {Q : β → σ → Prop} (m : Act σ ε α) (f : α → Act σ ε β) :
    wp (andThen m f) Q E s ↔ wp m (fun a => wp (f a) Q E) E s := by
  unfold wp andThen
  rcases h : m s with ⟨_ | _, s'⟩ <;> simp

@[simp] theorem wp_bind {Q : β → σ → Prop} (m : Act σ ε α) (f : α → Act σ ε β) :
    wp (m >>= f) Q E s ↔ wp m (fun a => wp (f a) Q E) E s := wp_andThen m f

theorem wp_and {m : Act σ ε α} {Q' : α → σ → Prop} {E' : ε → σ → Prop} (h : wp m Q E s)
    (h' : wp m Q' E' s) : wp m (fun a s' => Q a s' ∧ Q' a s') (fun e s' => E e s' ∧ E' e s') s := by
  unfold wp at h h' ⊢
  rcases hm : m s with ⟨_ | _, s'⟩ <;> rw [hm] at h h' <;> exact ⟨h, h'⟩

/-- Nothing is asked of an error, and of a value only what always holds. -/
theorem wp_skip {m : Act σ ε α} (h : ∀ a s', Q a s') : wp m Q (fun _ _ => True) s := by
  unfold wp
  split
  · exact h _ _
  · trivial

theorem wp_bind_skip {Q : β → σ → Prop} {m : Act σ ε α} {f : α → Act σ ε β}
    (h : ∀ a s', wp (f a) Q (fun _ _ => True) s') : wp (m >>= f) Q (fun _ _ => True) s :=
  (wp_bind m f).mpr (wp_skip h)

@[simp] theorem wp_attempt {Q : Except ε α → σ → Prop} {E : ε' → σ → Prop} (m : Act σ ε α) :
    wp (attempt m) Q E s ↔ wp m (fun a => Q (.ok a)) (fun e => Q (.error e)) s := by
  unfold wp attempt
  rcases h : m s with ⟨_ | _, s'⟩ <;> simp

/-- What holds after either outcome holds before its inspection. -/
theorem wp_attempt_of {m : Act σ ε α} {R : σ → Prop} {Q : Except ε α → σ → Prop}
    {E : ε' → σ → Prop} (h : wp m (fun _ => R) (fun _ => R) s) (hQ : ∀ r s', R s' → Q r s') :
    wp (attempt m) Q E s :=
  (wp_attempt m).mpr (wp_mono h (fun a s' hR => hQ (.ok a) s' hR) fun e s' hR => hQ (.error e) s' hR)

@[simp] theorem wp_mapErr {E : ε' → σ → Prop} (f : ε → ε') (m : Act σ ε α) :
    wp (mapErr f m) Q E s ↔ wp m Q (fun e => E (f e)) s := by
  unfold wp mapErr
  rcases h : m s with ⟨_ | _, s'⟩ <;> simp

@[simp] theorem wp_rescue {E : ε' → σ → Prop} (m : Act σ ε α) (f : ε → Act σ ε' α) :
    wp (rescue m f) Q E s ↔ wp m Q (fun e => wp (f e) Q E) s := by
  unfold wp rescue
  rcases h : m s with ⟨_ | _, s'⟩ <;> simp

@[simp] theorem wp_ensuring (m : Act σ ε α) (f : σ → σ) :
    wp (ensuring m f) Q E s ↔ wp m (fun a s' => Q a (f s')) (fun e s' => E e (f s')) s := by
  unfold wp ensuring
  rcases h : m s with ⟨_ | _, s'⟩ <;> simp

@[simp] theorem wp_within {τ : Type} (get : σ → τ) (set : τ → σ → σ) (m : Act τ ε α) :
    wp (within get set m) Q E s
      ↔ wp m (fun a t => Q a (set t s)) (fun e t => E e (set t s)) (get s) := by
  unfold wp within
  rcases h : m (get s) with ⟨_ | _, t⟩ <;> simp

@[simp] theorem wp_guard {Q : Unit → σ → Prop} (c : Bool) (e : ε) :
    wp (guard c e) Q E s ↔ if c then Q () s else E e s := by
  cases c
  · exact wp_fail e
  · exact wp_ret ()

@[simp] theorem wp_when {Q : Unit → σ → Prop} (c : Bool) (m : Act σ ε Unit) :
    wp (when c m) Q E s ↔ if c then wp m Q E s else Q () s := by
  cases c
  · exact wp_ret ()
  · exact Iff.rfl

@[simp] theorem wp_ofExcept (r : Except ε α) :
    wp (ofExcept r) Q E s ↔ match r with
      | .ok a => Q a s
      | .error e => E e s := by
  cases r with
  | ok a => exact wp_ret a
  | error e => exact wp_fail e

/-- **The loop rule**: `I done rest` holds before every round, `done` in the order of the run. -/
theorem wp_forEach {Q : Unit → σ → Prop} (f : α → Act σ ε Unit) (I : List α → List α → σ → Prop) :
    ∀ (todo done : List α) (s : σ), I done todo s →
      (∀ d a rest s, I d (a :: rest) s → wp (f a) (fun _ => I (d ++ [a]) rest) E s) →
      (∀ d s, I d [] s → Q () s) → wp (forEach todo f) Q E s
  | [], done, s, h, _, hend => (wp_ret ()).mpr (hend done s h)
  | a :: rest, done, s, h, hstep, hend =>
      (wp_andThen _ _).mpr <| wp_mono (hstep done a rest s h)
        (fun _ s' h' => wp_forEach f I rest (done ++ [a]) s' h' hstep hend) (fun _ _ h' => h')

/-! ## 3. What a computation keeps -/

/-- Every run, failed or not, is a step of `R`. -/
def Keeps (R : σ → σ → Prop) (m : Act σ ε α) : Prop := ∀ s, R s (m s).2

section Keeps

variable {R : σ → σ → Prop}

theorem keeps_iff_wp {m : Act σ ε α} :
    Keeps R m ↔ ∀ s, wp m (fun _ s' => R s s') (fun _ s' => R s s') s := by
  refine forall_congr' fun s => ?_
  unfold wp
  rcases h : m s with ⟨_ | _, s'⟩ <;> exact Iff.rfl

theorem Keeps.attempt {m : Act σ ε α} (h : Keeps R m) :
    Keeps R (Act.attempt m : Act σ ε' (Except ε α)) := h

theorem Keeps.mapErr {m : Act σ ε α} (h : Keeps R m) (f : ε → ε') : Keeps R (Act.mapErr f m) := by
  refine keeps_iff_wp.mpr fun s => (wp_mapErr f m).mpr ?_
  exact keeps_iff_wp.mp h s

theorem Keeps.ite {c : Prop} [Decidable c] {m m' : Act σ ε α} (h : Keeps R m)
    (h' : Keeps R m') : Keeps R (if c then m else m') := by
  split
  · exact h
  · exact h'

variable (hrefl : ∀ s, R s s)
include hrefl

theorem keeps_ret (a : α) : Keeps R (ret a : Act σ ε α) := hrefl

theorem keeps_pure (a : α) : Keeps R (pure a : Act σ ε α) := hrefl

theorem keeps_fail (e : ε) : Keeps R (fail e : Act σ ε α) := hrefl

theorem keeps_read : Keeps R (read : Act σ ε σ) := hrefl

theorem keeps_guard (c : Bool) (e : ε) : Keeps R (guard c e : Act σ ε Unit) := by
  cases c <;> exact hrefl

theorem keeps_ofExcept (r : Except ε α) : Keeps R (ofExcept r : Act σ ε α) := by
  cases r <;> exact hrefl

theorem Keeps.when {m : Act σ ε Unit} (h : Keeps R m) (c : Bool) : Keeps R (Act.when c m) := by
  cases c
  · exact hrefl
  · exact h

end Keeps

section Composition

variable {R : σ → σ → Prop} (htrans : ∀ a b c, R a b → R b c → R a c)
include htrans

theorem Keeps.bind {m : Act σ ε α} {f : α → Act σ ε β} (hm : Keeps R m)
    (hf : ∀ a, Keeps R (f a)) : Keeps R (m >>= f) := by
  refine keeps_iff_wp.mpr fun s => (wp_bind m f).mpr ?_
  refine wp_mono (keeps_iff_wp.mp hm s) (fun a s' h => ?_) (fun _ _ h => h)
  exact wp_mono (keeps_iff_wp.mp (hf a) s') (fun _ s'' h' => htrans s s' s'' h h')
    (fun _ s'' h' => htrans s s' s'' h h')

theorem Keeps.rescue {m : Act σ ε α} {f : ε → Act σ ε' α} (hm : Keeps R m)
    (hf : ∀ e, Keeps R (f e)) : Keeps R (Act.rescue m f) := by
  refine keeps_iff_wp.mpr fun s => (wp_rescue m f).mpr ?_
  refine wp_mono (keeps_iff_wp.mp hm s) (fun _ _ h => h) (fun e s' h => ?_)
  exact wp_mono (keeps_iff_wp.mp (hf e) s') (fun _ s'' h' => htrans s s' s'' h h')
    (fun _ s'' h' => htrans s s' s'' h h')

theorem Keeps.ensuring {m : Act σ ε α} {f : σ → σ} (hm : Keeps R m) (hf : ∀ s, R s (f s)) :
    Keeps R (Act.ensuring m f) := by
  refine keeps_iff_wp.mpr fun s => (wp_ensuring m f).mpr ?_
  exact wp_mono (keeps_iff_wp.mp hm s) (fun _ s' h => htrans s s' (f s') h (hf s'))
    (fun _ s' h => htrans s s' (f s') h (hf s'))

end Composition

/-! ## 4. What a computation reaches -/

/-- A run that ends with a value is a step of `R`, and one that fails is a step of `S`. -/
def Ends (R S : σ → σ → Prop) (m : Act σ ε α) : Prop :=
  ∀ s, wp m (fun _ s' => R s s') (fun _ s' => S s s') s

section Ends

variable {R S R' S' : σ → σ → Prop}

theorem Ends.mono {m : Act σ ε α} (h : Ends R S m) (hR : ∀ s s', R s s' → R' s s')
    (hS : ∀ s s', S s s' → S' s s') : Ends R' S' m :=
  fun s => wp_mono (h s) (fun _ s' => hR s s') fun _ s' => hS s s'

theorem Ends.mapErr {m : Act σ ε α} (h : Ends R S m) (f : ε → ε') : Ends R S (Act.mapErr f m) :=
  fun s => (wp_mapErr f m).mpr (h s)

theorem ends_update {f : σ → σ} (h : ∀ s, R s (f s)) : Ends R S (update f : Act σ ε Unit) :=
  fun s => (wp_update f).mpr (h s)

section Reflexive

variable (hR : ∀ s, R s s)
include hR

theorem ends_pure (a : α) : Ends R S (pure a : Act σ ε α) := fun s => (wp_pure a).mpr (hR s)

theorem ends_ret (a : α) : Ends R S (ret a : Act σ ε α) := fun s => (wp_ret a).mpr (hR s)

theorem ends_read : Ends R S (read : Act σ ε σ) := fun s => wp_read.mpr (hR s)

theorem Ends.when {m : Act σ ε Unit} (h : Ends R S m) (c : Bool) : Ends R S (Act.when c m) := by
  cases c
  · exact ends_ret hR ()
  · exact h

variable (hS : ∀ s, S s s)
include hS

theorem ends_guard (c : Bool) (e : ε) : Ends R S (guard c e : Act σ ε Unit) := by
  cases c
  · exact fun s => (wp_fail e).mpr (hS s)
  · exact ends_ret hR ()

theorem ends_ofExcept (r : Except ε α) : Ends R S (ofExcept r : Act σ ε α) := by
  cases r with
  | ok a => exact ends_ret hR a
  | error e => exact fun s => (wp_fail e).mpr (hS s)

end Reflexive

theorem ends_fail (hS : ∀ s, S s s) (e : ε) : Ends R S (fail e : Act σ ε α) :=
  fun s => (wp_fail e).mpr (hS s)

/-- What follows a value may reach something else. -/
theorem Ends.bind {T U : σ → σ → Prop} (hRT : ∀ a b c, R a b → T b c → U a c)
    (hRS : ∀ a b c, R a b → S b c → S a c) {m : Act σ ε α} {f : α → Act σ ε β} (hm : Ends R S m)
    (hf : ∀ a, Ends T S (f a)) : Ends U S (m >>= f) := fun s =>
  (wp_bind m f).mpr <| wp_mono (hm s) (fun a s' h => wp_mono (hf a s')
    (fun _ s'' => hRT s s' s'' h) fun _ s'' => hRS s s' s'' h) fun _ _ h => h

/-- Every round does, and no round is nothing. -/
theorem ends_forEach (hRR : ∀ a b c, R a b → R b c → R a c) (hRS : ∀ a b c, R a b → S b c → S a c)
    (hR : ∀ s, R s s) {f : α → Act σ ε Unit} : ∀ {l : List α},
    (∀ a ∈ l, Ends R S (f a)) → Ends R S (forEach l f)
  | [], _ => ends_ret hR ()
  | a :: _, h => Ends.bind hRR hRS (h a List.mem_cons_self) fun _ =>
      ends_forEach hRR hRS hR fun b hb => h b (List.mem_cons_of_mem _ hb)

end Ends

end Act

end WinProfile
