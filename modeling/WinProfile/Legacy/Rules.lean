/-
  File:      WinProfile/Legacy/Rules.lean
  Subject:   What the calls of the recovery may do, as rules for `Proc.always`: a call that only
             looks, a call that has an effect, and the calls that are neither.

  * `stepIn` -- `step`, or only the calls that do not fail for a reason of their own.
  * `always_look`, `always_effect` -- the two kinds of calls; the instances below name the call.
-/
import WinProfile.Legacy.Recovery

namespace WinProfile.Legacy

/-- The call is done as it was asked for; an id is in no name of a file that is being written. -/
def Fate.Calm (fate : Fate) (c : Call) (w : World) : Prop :=
  fate.outcome = .done ∧
    (c = .random → ∀ f ∈ w.files, ∀ m : String, f.name ≠ encodeWide s!".{m}-{fate.id}.tmp")

/-- **What a call may do**; where it is `calm`, only what it was asked for. -/
def stepIn (calm : Prop) (me : Nat) (c : Call) (w : World) (r : Answer c) (w' : World) : Prop :=
  ∃ fate : Fate, fate.Admissible c w ∧ (calm → fate.Calm c w) ∧ answer me fate c w = (r, w')

section Kinds

variable {ε α : Type} {R G : World → World → Prop} {calm : Prop} {me : Nat} {Q : α → World → Prop}
  {E : ε → World → Prop} {w : World} {c : Call}

theorem step_of_stepIn {r : Answer c} {w' : World} (h : stepIn calm me c w r w') :
    step me c w r w' := by
  obtain ⟨fate, hadmissible, _, heq⟩ := h
  exact ⟨fate, hadmissible, heq⟩

theorem stepIn_false : stepIn False me = step me := by
  funext c w r w'
  simp only [stepIn, step, false_imp_iff, true_and]

/-- Whatever the calls do, calm ones do as well. -/
theorem always_in {p : Prog ε α} (h : Proc.always R (step me) G Q E p w) :
    Proc.always R (stepIn calm me) G Q E p w :=
  Proc.always_anti h (fun _ _ h => h) fun _ _ _ _ => step_of_stepIn

/-- A result and the state with it meet the postcondition. -/
def Meets (Q : α → World → Prop) (E : ε → World → Prop) : Except ε α → World → Prop
  | .ok a, w => Q a w
  | .error error, w => E error w

theorem always_requestIn (h : Answer c = Except ε α)
    (H : ∀ w₁, R w w₁ → ∀ fate : Fate, fate.Admissible c w₁ → (calm → fate.Calm c w₁) →
      G w₁ (answer me fate c w₁).2 ∧
      Meets Q E (h ▸ (answer me fate c w₁).1) (answer me fate c w₁).2) :
    Proc.always R (stepIn calm me) G Q E (request c h) w := by
  rintro w₁ hr r w' ⟨fate, hadmissible, hcalm, heq⟩
  have hcall := H w₁ hr fate hadmissible hcalm
  rw [heq] at hcall
  refine ⟨hcall.1, ?_⟩
  show Proc.always R (stepIn calm me) G Q E (Proc.done (h ▸ r)) w'
  generalize (h ▸ r : Except ε α) = result at hcall ⊢
  cases result with
  | ok a => exact hcall.2
  | error error => exact hcall.2

theorem Fate.Calm.done {fate : Fate} (hcalm : calm → fate.Calm c w) (hne : fate.outcome ≠ .done) :
    ¬ calm :=
  fun h => hne (hcalm h).1

/-- **A call that only looks.** -/
theorem always_lookIn (h : Answer c = Except ε α) (fault : Fate → ε)
    (found : Fate → World → Except ε α) (hc : ∀ fate w,
      ((h ▸ (answer me fate c w).1 : Except ε α), (answer me fate c w).2)
        = fate.look (fault fate) (found fate w) w)
    (H : ∀ w₁, R w w₁ → ∀ fate : Fate, fate.Admissible c w₁ →
      G w₁ w₁ ∧ (¬ calm → E (fault fate) w₁) ∧ Meets Q E (found fate w₁) w₁) :
    Proc.always R (stepIn calm me) G Q E (request c h) w := by
  refine always_requestIn h fun w₁ hr fate hadmissible hcalm => ?_
  obtain ⟨hg, hfault, hfound⟩ := H w₁ hr fate hadmissible
  obtain ⟨hresult, hstate⟩ := Prod.mk.inj (hc fate w₁)
  rw [hresult, hstate]
  have hfailed := fun hne => hfault (Fate.Calm.done hcalm hne)
  cases hout : fate.outcome with
  | done => exact ⟨hg, hfound⟩
  | before => exact ⟨hg, hfailed (by rw [hout]; exact Outcome.noConfusion)⟩
  | after => exact ⟨hg, hfailed (by rw [hout]; exact Outcome.noConfusion)⟩

theorem always_look (h : Answer c = Except ε α) (fault : Fate → ε)
    (found : Fate → World → Except ε α) (hc : ∀ fate w,
      ((h ▸ (answer me fate c w).1 : Except ε α), (answer me fate c w).2)
        = fate.look (fault fate) (found fate w) w)
    (H : ∀ w₁, R w w₁ → ∀ fate : Fate, fate.Admissible c w₁ →
      G w₁ w₁ ∧ E (fault fate) w₁ ∧ Meets Q E (found fate w₁) w₁) :
    Proc.always R (step me) G Q E (request c h) w := by
  rw [← stepIn_false]
  refine always_lookIn h fault found hc fun w₁ hr fate hadmissible => ?_
  obtain ⟨hg, hfault, hfound⟩ := H w₁ hr fate hadmissible
  exact ⟨hg, fun _ => hfault, hfound⟩

/-- **A call that has an effect**, and may report a failure after it. -/
theorem always_effectIn (h : Answer c = Except ε α) (fault : Fate → ε)
    (effect : Fate → World → Except ε (α × World)) (hc : ∀ fate w,
      ((h ▸ (answer me fate c w).1 : Except ε α), (answer me fate c w).2)
        = fate.apply (fault fate) (effect fate w) w)
    (H : ∀ w₁, R w w₁ → ∀ fate : Fate, fate.Admissible c w₁ →
      G w₁ w₁ ∧ (¬ calm → E (fault fate) w₁) ∧
      match effect fate w₁ with
      | .ok (a, w') => G w₁ w' ∧ Q a w' ∧ (¬ calm → E (fault fate) w')
      | .error error => E error w₁) :
    Proc.always R (stepIn calm me) G Q E (request c h) w := by
  refine always_requestIn h fun w₁ hr fate hadmissible hcalm => ?_
  obtain ⟨hg, hfault, heffect⟩ := H w₁ hr fate hadmissible
  obtain ⟨hresult, hstate⟩ := Prod.mk.inj (hc fate w₁)
  rw [hresult, hstate]
  have hrestless : fate.outcome ≠ .done → ¬ calm := Fate.Calm.done hcalm
  cases hcase : effect fate w₁ with
  | error error =>
    rw [hcase] at heffect
    cases hout : fate.outcome with
    | done => exact ⟨hg, heffect⟩
    | before => exact ⟨hg, hfault (hrestless (by rw [hout]; exact Outcome.noConfusion))⟩
    | after => exact ⟨hg, hfault (hrestless (by rw [hout]; exact Outcome.noConfusion))⟩
  | ok result =>
    obtain ⟨a, w'⟩ := result
    rw [hcase] at heffect
    obtain ⟨hg', hok, herror⟩ := heffect
    cases hout : fate.outcome with
    | done => exact ⟨hg', hok⟩
    | before => exact ⟨hg, hfault (hrestless (by rw [hout]; exact Outcome.noConfusion))⟩
    | after => exact ⟨hg', herror (hrestless (by rw [hout]; exact Outcome.noConfusion))⟩

theorem always_effect (h : Answer c = Except ε α) (fault : Fate → ε)
    (effect : Fate → World → Except ε (α × World)) (hc : ∀ fate w,
      ((h ▸ (answer me fate c w).1 : Except ε α), (answer me fate c w).2)
        = fate.apply (fault fate) (effect fate w) w)
    (H : ∀ w₁, R w w₁ → ∀ fate : Fate, fate.Admissible c w₁ → G w₁ w₁ ∧ E (fault fate) w₁ ∧
      match effect fate w₁ with
      | .ok (a, w') => G w₁ w' ∧ Q a w' ∧ E (fault fate) w'
      | .error error => E error w₁) :
    Proc.always R (step me) G Q E (request c h) w := by
  rw [← stepIn_false]
  refine always_effectIn h fault effect hc fun w₁ hr fate hadmissible => ?_
  obtain ⟨hg, hfault, heffect⟩ := H w₁ hr fate hadmissible
  refine ⟨hg, fun _ => hfault, ?_⟩
  cases hcase : effect fate w₁ with
  | error error =>
    rw [hcase] at heffect
    exact heffect
  | ok result =>
    rw [hcase] at heffect
    exact ⟨heffect.1, heffect.2.1, fun _ => heffect.2.2⟩

end Kinds

section Others

variable {R G : World → World → Prop} {calm : Prop} {me : Nat} {w : World}

theorem always_writeAllIn {serial : Nat} {bytes : Bytes} {Q : Unit → World → Prop}
    {E : String → World → Prop} (H : ∀ w₁, R w w₁ →
      (¬ calm → G w₁ w₁ ∧ ∀ text, E text w₁) ∧
      (G w₁ (w₁.append serial bytes) ∧ Q () (w₁.append serial bytes)) ∧
      (¬ calm → ∀ part, G w₁ (w₁.append serial part) ∧ ∀ text, E text (w₁.append serial part))) :
    Proc.always R (stepIn calm me) G Q E
      (request (.writeAll serial bytes) rfl : Prog String Unit) w := by
  refine always_requestIn rfl fun w₁ hr fate _ hcalm => ?_
  obtain ⟨hbefore, hdone, hafter⟩ := H w₁ hr
  cases hout : fate.outcome with
  | done =>
    have hanswer : answer me fate (.writeAll serial bytes) w₁ = (.ok (), w₁.append serial bytes) := by
      simp only [answer, hout]
    rw [hanswer]
    exact hdone
  | before =>
    have hanswer : answer me fate (.writeAll serial bytes) w₁ = (.error fate.text, w₁) := by
      simp only [answer, hout]
    have hfailed := hbefore (Fate.Calm.done hcalm (by rw [hout]; exact Outcome.noConfusion))
    rw [hanswer]
    exact ⟨hfailed.1, hfailed.2 _⟩
  | after =>
    have hanswer : answer me fate (.writeAll serial bytes) w₁
        = (.error fate.text, w₁.append serial (bytes.take fate.cut)) := by
      simp only [answer, hout]
    have hfailed := hafter (Fate.Calm.done hcalm (by rw [hout]; exact Outcome.noConfusion))
    rw [hanswer]
    exact ⟨(hfailed _).1, (hfailed _).2 _⟩

theorem always_writeAll {serial : Nat} {bytes : Bytes} {Q : Unit → World → Prop}
    {E : String → World → Prop} (H : ∀ w₁, R w w₁ → (G w₁ w₁ ∧ ∀ text, E text w₁) ∧
      (G w₁ (w₁.append serial bytes) ∧ Q () (w₁.append serial bytes)) ∧
      ∀ part, G w₁ (w₁.append serial part) ∧ ∀ text, E text (w₁.append serial part)) :
    Proc.always R (step me) G Q E (request (.writeAll serial bytes) rfl : Prog String Unit) w := by
  rw [← stepIn_false]
  refine always_writeAllIn fun w₁ hr => ?_
  obtain ⟨hbefore, hdone, hafter⟩ := H w₁ hr
  exact ⟨fun _ => hbefore, hdone, fun _ => hafter⟩

/-- `BCryptGenRandom` gives an id that it has not given out, or fails. -/
theorem always_randomIn {Q : String → World → Prop} {E : Int → World → Prop}
    (H : ∀ w₁, R w w₁ → (¬ calm → G w₁ w₁ ∧ ∀ status, E status w₁) ∧ ∀ id, id ∉ w₁.drawn →
      (calm → ∀ f ∈ w₁.files, ∀ m : String, f.name ≠ encodeWide s!".{m}-{id}.tmp") →
      G w₁ { w₁ with drawn := id :: w₁.drawn } ∧ Q id { w₁ with drawn := id :: w₁.drawn }) :
    Proc.always R (stepIn calm me) G Q E (request .random rfl : Prog Int String) w := by
  refine always_requestIn rfl fun w₁ hr fate hadmissible hcalm => ?_
  obtain ⟨hfailed, hdone⟩ := H w₁ hr
  by_cases hout : fate.outcome = .done
  · have hanswer : answer me fate .random w₁
        = (.ok fate.id, { w₁ with drawn := fate.id :: w₁.drawn }) := by
      simp only [answer, hout]
    rw [hanswer]
    exact hdone fate.id hadmissible fun h => (hcalm h).2 rfl
  · have hanswer : answer me fate .random w₁ = (.error fate.status, w₁) := by
      cases hcase : fate.outcome with
      | done => exact absurd hcase hout
      | before => simp only [answer, hcase]
      | after => simp only [answer, hcase]
    have hfail := hfailed (Fate.Calm.done hcalm hout)
    rw [hanswer]
    exact ⟨hfail.1, hfail.2 _⟩

theorem always_random {Q : String → World → Prop} {E : Int → World → Prop}
    (H : ∀ w₁, R w w₁ → (G w₁ w₁ ∧ ∀ status, E status w₁) ∧ ∀ id, id ∉ w₁.drawn →
      G w₁ { w₁ with drawn := id :: w₁.drawn } ∧ Q id { w₁ with drawn := id :: w₁.drawn }) :
    Proc.always R (step me) G Q E (request .random rfl : Prog Int String) w := by
  rw [← stepIn_false]
  refine always_randomIn fun w₁ hr => ?_
  obtain ⟨hfailed, hdone⟩ := H w₁ hr
  exact ⟨fun _ => hfailed, fun id hid _ => hdone id hid⟩

end Others

end WinProfile.Legacy
