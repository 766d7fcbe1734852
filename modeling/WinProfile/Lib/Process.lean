/-
  File:      WinProfile/Lib/Process.lean
  Subject:   Programs whose calls are single steps, so that other programs, failures and crashes
             can come between any two of them. Nothing here knows a program.

  * `Proc Op Res ε α` -- a program that ends with a value or an error, or makes a call and goes on
    with its answer.
  * `always` -- whatever the calls answer and whatever others do between them (within a rely), every
    single step keeps a guarantee, and the end meets its postcondition: one equation for every
    construct.
  * `Steps` -- the program alone, stopped after any number of its calls; `Steps.invariant`.
  * `run` -- the program run to its end without interruption.
-/
import Mathlib.Tactic

namespace WinProfile

/-- A program that makes calls `Op`, each with an answer of its own type. -/
inductive Proc (Op : Type) (Res : Op → Type) (ε α : Type) where
  | done (r : Except ε α)
  | call (o : Op) (next : Res o → Proc Op Res ε α)

namespace Proc

variable {Op : Type} {Res : Op → Type} {ε ε' α β : Type}

/-! ## 1. The constructs -/

def ret (a : α) : Proc Op Res ε α := done (.ok a)

def fail (e : ε) : Proc Op Res ε α := done (.error e)

def andThen : Proc Op Res ε α → (α → Proc Op Res ε β) → Proc Op Res ε β
  | done (.ok a), f => f a
  | done (.error e), _ => done (.error e)
  | call o next, f => call o fun r => andThen (next r) f

instance : Monad (Proc Op Res ε) where
  pure := ret
  bind := andThen

/-- Run to the end and hand the result over as a value. -/
def attempt : Proc Op Res ε α → Proc Op Res ε' (Except ε α)
  | done r => ret r
  | call o next => call o fun r => attempt (next r)

/-- Convert the error. -/
def mapErr (f : ε → ε') : Proc Op Res ε α → Proc Op Res ε' α
  | done (.ok a) => ret a
  | done (.error e) => fail (f e)
  | call o next => call o fun r => mapErr f (next r)

def ofExcept (r : Except ε α) : Proc Op Res ε α := done r

/-- Stop with `e` unless `c` holds. -/
def guard (c : Bool) (e : ε) : Proc Op Res ε Unit := if c then ret () else fail e

/-- Run `f` on every element, from the left, and collect what it gives. -/
def mapEach (f : α → Proc Op Res ε β) : List α → Proc Op Res ε (List β)
  | [] => ret []
  | a :: as => andThen (f a) fun b => andThen (mapEach f as) fun bs => ret (b :: bs)

/-! ## 2. Every step -/

section Always

variable {σ : Type} (R : σ → σ → Prop) (step : (o : Op) → σ → Res o → σ → Prop)
  (G : σ → σ → Prop)

/-- `G` holds over every step, `Q` at the end with a value and `E` at the end with an error; others
may take a step of `R` before every call. -/
def always (Q : α → σ → Prop) (E : ε → σ → Prop) : Proc Op Res ε α → σ → Prop
  | done (.ok a), s => Q a s
  | done (.error e), s => E e s
  | call o next, s => ∀ s₁, R s s₁ → ∀ r s', step o s₁ r s' → G s₁ s' ∧ always Q E (next r) s'

variable {R step G} {Q : α → σ → Prop} {E : ε → σ → Prop} {s : σ}

theorem always_mono {p : Proc Op Res ε α} {Q' : α → σ → Prop} {E' : ε → σ → Prop}
    (h : always R step G Q E p s) (hQ : ∀ a s', Q a s' → Q' a s') (hE : ∀ e s', E e s' → E' e s') :
    always R step G Q' E' p s := by
  induction p generalizing s with
  | done r =>
    cases r with
    | ok a => exact hQ a s h
    | error e => exact hE e s h
  | call o next ih =>
    exact fun s₁ hr r s' hs => ⟨(h s₁ hr r s' hs).1, ih r (h s₁ hr r s' hs).2⟩

/-- Fewer steps of others, and fewer of its own. -/
theorem always_anti {R' : σ → σ → Prop} {step' : (o : Op) → σ → Res o → σ → Prop}
    {p : Proc Op Res ε α} (h : always R step G Q E p s) (hR : ∀ s s', R' s s' → R s s')
    (hstep : ∀ o s r s', step' o s r s' → step o s r s') : always R' step' G Q E p s := by
  induction p generalizing s with
  | done r => cases r <;> exact h
  | call o next ih =>
    intro s₁ hr r s' hs
    have hnext := h s₁ (hR s s₁ hr) r s' (hstep o s₁ r s' hs)
    exact ⟨hnext.1, ih r hnext.2⟩

/-- Others have taken a step before the next call. -/
theorem always_rely (htrans : ∀ s s' s'', R s s' → R s' s'' → R s s'')
    (hQ : ∀ a s s', R s s' → Q a s → Q a s') (hE : ∀ e s s', R s s' → E e s → E e s')
    {p : Proc Op Res ε α} {s' : σ} (h : always R step G Q E p s) (hr : R s s') :
    always R step G Q E p s' := by
  cases p with
  | done r =>
    cases r with
    | ok a => exact hQ a s s' hr h
    | error e => exact hE e s s' hr h
  | call o next => exact fun s₁ hr₁ => h s₁ (htrans s s' s₁ hr hr₁)

/-- Where `K` holds no other can do anything, and every step of the program keeps it. -/
theorem always_alone {K : σ → Prop} (hK : ∀ s s', K s → R s s' → s' = s) {p : Proc Op Res ε α}
    (h : always Eq step (fun s s' => K s' ∧ G s s') Q E p s) (hs : K s) :
    always R step G Q E p s := by
  induction p generalizing s with
  | done r => cases r <;> exact h
  | call o next ih =>
    intro s₁ hr r s' hstep
    obtain rfl := hK s s₁ hs hr
    obtain ⟨⟨hk, hg⟩, hnext⟩ := h s₁ rfl r s' hstep
    exact ⟨hg, ih r hnext hk⟩

/-- What every step establishes holds at the end. -/
theorem always_keeps {K : σ → Prop} (hG : ∀ s s', G s s' → K s') {p : Proc Op Res ε α}
    (h : always R step G Q E p s) (hs : K s) :
    always R step G (fun a s => Q a s ∧ K s) (fun e s => E e s ∧ K s) p s := by
  induction p generalizing s with
  | done r =>
    cases r with
    | ok a => exact ⟨h, hs⟩
    | error e => exact ⟨h, hs⟩
  | call o next ih =>
    intro s₁ hr r s' hstep
    obtain ⟨hg, hnext⟩ := h s₁ hr r s' hstep
    exact ⟨hg, ih r hnext (hG s₁ s' hg)⟩

/-- The guarantee of every step, seen from what holds between the steps. -/
theorem always_within {K : σ → Prop} {G' : σ → σ → Prop} (hR : ∀ s s', K s → R s s' → K s')
    (hG : ∀ s s', K s → G s s' → G' s s' ∧ K s') {p : Proc Op Res ε α}
    (h : always R step G Q E p s) (hs : K s) : always R step G' Q E p s := by
  induction p generalizing s with
  | done r => cases r <;> exact h
  | call o next ih =>
    intro s₁ hr r s' hstep
    obtain ⟨hg, hnext⟩ := h s₁ hr r s' hstep
    obtain ⟨hg', hk⟩ := hG s₁ s' (hR s s₁ hs hr) hg
    exact ⟨hg', ih r hnext hk⟩

/-- Two guarantees, and the postconditions with them. -/
theorem always_and {G' : σ → σ → Prop} {Q' : α → σ → Prop} {E' : ε → σ → Prop}
    {p : Proc Op Res ε α} (h : always R step G Q E p s) (h' : always R step G' Q' E' p s) :
    always R step (fun s s' => G s s' ∧ G' s s') (fun a s => Q a s ∧ Q' a s)
      (fun e s => E e s ∧ E' e s) p s := by
  induction p generalizing s with
  | done r =>
    cases r with
    | ok a => exact ⟨h, h'⟩
    | error e => exact ⟨h, h'⟩
  | call o next ih =>
    intro s₁ hr r s' hs
    have hnext := h s₁ hr r s' hs
    have hnext' := h' s₁ hr r s' hs
    exact ⟨⟨hnext.1, hnext'.1⟩, ih r hnext.2 hnext'.2⟩

theorem always_ret (a : α) : always R step G Q E (ret a : Proc Op Res ε α) s ↔ Q a s := Iff.rfl

theorem always_fail (e : ε) : always R step G Q E (fail e : Proc Op Res ε α) s ↔ E e s := Iff.rfl

theorem always_bind {Q : β → σ → Prop} (p : Proc Op Res ε α) (f : α → Proc Op Res ε β) :
    always R step G Q E (p >>= f) s ↔
      always R step G (fun a => always R step G Q E (f a)) E p s := by
  induction p generalizing s with
  | done r =>
    cases r with
    | ok a => exact Iff.rfl
    | error e => exact Iff.rfl
  | call o next ih =>
    exact forall_congr' fun s₁ => imp_congr_right fun _ => forall_congr' fun r =>
      forall_congr' fun s' => imp_congr_right fun _ => and_congr_right fun _ => ih r

theorem always_attempt {Q : Except ε α → σ → Prop} {E : ε' → σ → Prop} (p : Proc Op Res ε α) :
    always R step G Q E (attempt p) s ↔
      always R step G (fun a => Q (.ok a)) (fun e => Q (.error e)) p s := by
  induction p generalizing s with
  | done r =>
    cases r with
    | ok a => exact Iff.rfl
    | error e => exact Iff.rfl
  | call o next ih =>
    exact forall_congr' fun s₁ => imp_congr_right fun _ => forall_congr' fun r =>
      forall_congr' fun s' => imp_congr_right fun _ => and_congr_right fun _ => ih r

theorem always_mapErr {E : ε' → σ → Prop} (f : ε → ε') (p : Proc Op Res ε α) :
    always R step G Q E (mapErr f p) s ↔ always R step G Q (fun e => E (f e)) p s := by
  induction p generalizing s with
  | done r =>
    cases r with
    | ok a => exact Iff.rfl
    | error e => exact Iff.rfl
  | call o next ih =>
    exact forall_congr' fun s₁ => imp_congr_right fun _ => forall_congr' fun r =>
      forall_congr' fun s' => imp_congr_right fun _ => and_congr_right fun _ => ih r

theorem always_ofExcept (r : Except ε α) :
    always R step G Q E (ofExcept r : Proc Op Res ε α) s ↔ match r with
      | .ok a => Q a s
      | .error e => E e s := by
  cases r with
  | ok a => exact Iff.rfl
  | error e => exact Iff.rfl

theorem always_guard {Q : Unit → σ → Prop} (c : Bool) (e : ε) :
    always R step G Q E (guard c e : Proc Op Res ε Unit) s ↔ if c then Q () s else E e s := by
  cases c
  · exact always_fail e
  · exact always_ret ()

/-- **The loop rule**: `I past` holds after the elements in `past`, whose results are `got`. -/
theorem always_mapEach {f : α → Proc Op Res ε β} {Q : List β → σ → Prop}
    (I : List α → List β → σ → Prop) :
    ∀ (todo : List α) (past : List α) (got : List β) (s : σ), (∀ as bs a s, a ∈ todo → I as bs s →
        always R step G (fun b => I (as ++ [a]) (bs ++ [b])) E (f a) s) → I past got s →
      (∀ bs s', I (past ++ todo) (got ++ bs) s' → Q bs s') → always R step G Q E (mapEach f todo) s
  | [], past, got, s, _, h, hQ => hQ [] s (by simpa using h)
  | a :: todo, past, got, s, hstep, h, hQ => by
    have hfirst := hstep past got a s (List.mem_cons_self ..) h
    refine (always_bind _ _).mpr (always_mono hfirst (fun b s₁ h₁ => ?_) fun _ _ h => h)
    refine (always_bind _ _).mpr ?_
    refine always_mapEach I todo (past ++ [a]) (got ++ [b]) s₁
      (fun as bs x s hx => hstep as bs x s (List.mem_cons_of_mem _ hx)) h₁ fun bs s₂ h₂ => ?_
    refine (always_ret _).mpr (hQ (b :: bs) s₂ ?_)
    simpa using h₂

end Always

/-! ## 3. Alone -/

section Alone

variable {σ : Type} (step : (o : Op) → σ → Res o → σ → Prop)

/-- The program alone, stopped after some of its calls: where it stands then. -/
inductive Steps : Proc Op Res ε α → σ → Proc Op Res ε α → σ → Prop where
  | stop (p : Proc Op Res ε α) (s : σ) : Steps p s p s
  | call {o : Op} {next : Res o → Proc Op Res ε α} {s s₁ s' : σ} {r : Res o}
      {p : Proc Op Res ε α} (hs : step o s r s₁) (h : Steps (next r) s₁ p s') :
      Steps (Proc.call o next) s p s'

variable {step} {G : σ → σ → Prop} {Q : α → σ → Prop} {E : ε → σ → Prop}

/-- What holds of the rest of a program wherever it is stopped. -/
theorem Steps.always {p p' : Proc Op Res ε α} {s s' : σ} (h : Steps step p s p' s')
    (halways : Proc.always Eq step G Q E p s) : Proc.always Eq step G Q E p' s' := by
  induction h with
  | stop p s => exact halways
  | call hstep h ih => exact ih (halways _ rfl _ _ hstep).2

/-- Wherever a program stops, what every one of its steps establishes holds. -/
theorem Steps.invariant {I : σ → Prop} {p p' : Proc Op Res ε α} {s s' : σ}
    (h : Steps step p s p' s') (hs : I s)
    (halways : Proc.always Eq step (fun _ s' => I s') Q E p s) : I s' := by
  induction h with
  | stop p s => exact hs
  | call hstep h ih =>
    obtain ⟨hi, hnext⟩ := halways _ rfl _ _ hstep
    exact ih hi hnext

/-- Every step of the program has its guarantee. -/
theorem Steps.guaranteed {p p' : Proc Op Res ε α} {s s' : σ} (h : Steps step p s p' s')
    (halways : Proc.always Eq step G Q E p s) :
    Steps (fun o s r s' => step o s r s' ∧ G s s') p s p' s' := by
  induction h with
  | stop p s => exact .stop p s
  | call hstep h ih =>
    obtain ⟨hg, hnext⟩ := halways _ rfl _ _ hstep
    exact .call ⟨hstep, hg⟩ (ih hnext)

theorem Steps.mono {step' : (o : Op) → σ → Res o → σ → Prop} {p p' : Proc Op Res ε α} {s s' : σ}
    (h : Steps step p s p' s') (hstep : ∀ o s r s', step o s r s' → step' o s r s') :
    Steps step' p s p' s' := by
  induction h with
  | stop p s => exact .stop p s
  | call hs _ ih => exact .call (hstep _ _ _ _ hs) ih

/-- A program that goes on where it was stopped. -/
theorem Steps.trans {p p' p'' : Proc Op Res ε α} {s s' s'' : σ} (h : Steps step p s p' s')
    (h' : Steps step p' s' p'' s'') : Steps step p s p'' s'' := by
  induction h with
  | stop p s => exact h'
  | call hs _ ih => exact .call hs (ih h')

/-- What follows a program begins where it has ended with a value. -/
theorem Steps.andThen {k : α → Proc Op Res ε β} {a : α} {p p' : Proc Op Res ε α} {s s' : σ}
    (h : Steps step p s p' s') (hp : p' = .done (.ok a)) : Steps step (p >>= k) s (k a) s' := by
  induction h with
  | stop p s =>
    subst hp
    exact .stop _ _
  | call hs _ ih => exact .call hs (ih hp)

/-- The same where the error is converted. -/
theorem Steps.bind {f : ε → ε'} {k : α → Proc Op Res ε' β} {a : α} {p p' : Proc Op Res ε α}
    {s s' : σ} (h : Steps step p s p' s') (hp : p' = .done (.ok a)) :
    Steps step (mapErr f p >>= k) s (k a) s' := by
  induction h with
  | stop p s =>
    subst hp
    exact .stop _ _
  | call hs _ ih => exact .call hs (ih hp)

/-- What every call keeps. -/
theorem Steps.keeps {K : σ → Prop} (hstep : ∀ o s r s', K s → step o s r s' → K s')
    {p p' : Proc Op Res ε α} {s s' : σ} (h : Steps step p s p' s') (hs : K s) : K s' := by
  induction h with
  | stop p s => exact hs
  | call hcall _ ih => exact ih (hstep _ _ _ _ hs hcall)

/-- A program runs to its end where every call can be answered. -/
theorem Steps.total {I : σ → Prop} (hstep : ∀ o s, I s → ∃ r s', step o s r s' ∧ I s')
    (p : Proc Op Res ε α) {s : σ} (hs : I s) : ∃ r s', Steps step p s (.done r) s' := by
  induction p generalizing s with
  | done r => exact ⟨r, s, .stop _ _⟩
  | call o next ih =>
    obtain ⟨r, s₁, hcall, hs₁⟩ := hstep o s hs
    obtain ⟨r', s', hrest⟩ := ih r hs₁
    exact ⟨r', s', .call hcall hrest⟩

variable (answer : (o : Op) → σ → Res o × σ)

/-- The program run to its end, every call answered by `answer`. -/
def run : Proc Op Res ε α → σ → Except ε α × σ
  | done r, s => (r, s)
  | call o next, s => run (next (answer o s).1) (answer o s).2

variable {answer}

theorem run_bind (p : Proc Op Res ε α) (f : α → Proc Op Res ε β) (s : σ) :
    run answer (p >>= f) s = match run answer p s with
      | (.ok a, s') => run answer (f a) s'
      | (.error e, s') => (.error e, s') := by
  induction p generalizing s with
  | done r => cases r <;> rfl
  | call o next ih => exact ih _ _

theorem run_mapErr (f : ε → ε') (p : Proc Op Res ε α) (s : σ) :
    run answer (mapErr f p) s = ((run answer p s).1.mapError f, (run answer p s).2) := by
  induction p generalizing s with
  | done r => cases r <;> rfl
  | call o next ih => exact ih _ _

/-- A loop whose rounds change nothing. -/
theorem run_mapEach {f : α → Proc Op Res ε β} {g : α → Except ε β} {s : σ}
    (h : ∀ a, run answer (f a) s = (g a, s)) :
    ∀ l : List α, run answer (mapEach f l) s = (l.mapM g, s)
  | [] => rfl
  | a :: l => by
    have hrest := run_mapEach h l
    show run answer (f a >>= fun b => mapEach f l >>= fun bs => ret (b :: bs)) s = _
    rw [run_bind, h, List.mapM_cons]
    cases g a with
    | error e => rfl
    | ok b =>
      show run answer (mapEach f l >>= fun bs => ret (b :: bs)) s = _
      rw [run_bind, hrest]
      cases l.mapM g <;> rfl

end Alone

end Proc

end WinProfile
