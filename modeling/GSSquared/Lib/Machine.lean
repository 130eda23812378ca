/-
Machines that read a stream of inputs and now and then put something out.
-/

set_option linter.all false

namespace GSSquared.Machine

section

variable {σ τ ι ω : Type}

def outputs (step : σ → ι → σ) (out : σ → ι → Option ω) : σ → List ι → List ω
  | _, [] => []
  | s, i :: is =>
    match out s i with
    | some o => o :: outputs step out (step s i) is
    | none => outputs step out (step s i) is

theorem outputs_eq {step : σ → ι → σ} {out : σ → ι → Option ω} {step' : τ → ι → τ}
    {out' : τ → ι → Option ω} {R : σ → τ → Prop}
    (hstep : ∀ s t i, R s t → R (step s i) (step' t i))
    (hout : ∀ s t i, R s t → out s i = out' t i) :
    ∀ (is : List ι) (s : σ) (t : τ), R s t → outputs step out s is = outputs step' out' t is := by
  intro is
  induction is with
  | nil => intro s t _; rfl
  | cons i is ih =>
    intro s t h
    have hrest := ih (step s i) (step' t i) (hstep s t i h)
    simp only [outputs, hout s t i h, hrest]

end

end GSSquared.Machine
