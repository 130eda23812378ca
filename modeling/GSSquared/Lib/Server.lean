/-
Programs that ask, against something that answers and changes as it does.
-/
import GSSquared.Lib.Dialogue

set_option linter.all false

namespace GSSquared.Dialogue

section

variable {ρ θ α β μ : Type} (serve : μ → ρ → θ × μ)

def Prog.against : Prog ρ θ α → μ → α × μ
  | .done a, u => (a, u)
  | .ask r next, u => (next (serve u r).1).against (serve u r).2

theorem Prog.against_bind (m : Prog ρ θ α) (k : α → Prog ρ θ β) (u : μ) :
    (m.bind k).against serve u = (k (m.against serve u).1).against serve (m.against serve u).2 := by
  induction m generalizing u with
  | done a => rfl
  | ask r next ih => exact ih (serve u r).1 (serve u r).2

end

section

variable {ρ θ α β μ σ τ : Type} {serve : μ → ρ → θ × μ} {R : σ → μ → τ → Prop}

/-- From whatever stands for `x` the run ends with `a`, in something that stands for `x'`. -/
def Leads (serve : μ → ρ → θ × μ) (R : σ → μ → τ → Prop) (m : StateT σ (Prog ρ θ) α) (x : τ) (a : α) (x' : τ) :
    Prop :=
  ∀ s u, R s u x → ∃ s' u', (m s).against serve u = ((a, s'), u') ∧ R s' u' x'

variable {x x' x'' : τ} {a : α} {b : β}

theorem leads_pure (b : β) : Leads serve R (pure b) x b x := fun s u h => ⟨s, u, rfl, h⟩

theorem leads_modify {f : σ → σ} (hf : ∀ s u, R s u x → R (f s) u x') : Leads serve R (modify f) x ⟨⟩ x' :=
  fun s u h => ⟨f s, u, rfl, hf s u h⟩

theorem leads_ask {m : StateT σ (Prog ρ θ) α} {r : ρ} {next : σ → θ → α × σ}
    (hm : ∀ s, m s = .ask r (fun t => .done (next s t)))
    (hr : ∀ s u, R s u x → (next s (serve u r).1).1 = a ∧ R (next s (serve u r).1).2 (serve u r).2 x') :
    Leads serve R m x a x' := by
  intro s u h
  obtain ⟨hvalue, hafter⟩ := hr s u h
  refine ⟨(next s (serve u r).1).2, (serve u r).2, ?_, hafter⟩
  rw [hm s, ← hvalue]
  rfl

theorem leads_get {k : σ → StateT σ (Prog ρ θ) β} (h : ∀ s u, R s u x → Leads serve R (k s) x b x') :
    Leads serve R (get >>= k) x b x' :=
  fun s u hs => h s u hs s u hs

theorem Leads.bind {m : StateT σ (Prog ρ θ) α} {k : α → StateT σ (Prog ρ θ) β} (h : Leads serve R m x a x')
    (hk : Leads serve R (k a) x' b x'') : Leads serve R (m >>= k) x b x'' := by
  intro s u hs
  obtain ⟨s', u', hrun, hs'⟩ := h s u hs
  obtain ⟨s'', u'', hrest, hs''⟩ := hk s' u' hs'
  refine ⟨s'', u'', ?_, hs''⟩
  show (Prog.bind (m s) (fun r => k r.1 r.2)).against serve u = _
  rw [Prog.against_bind, hrun]
  exact hrest

theorem Leads.map {m : StateT σ (Prog ρ θ) α} (f : α → β) (h : Leads serve R m x a x') :
    Leads serve R (do pure (f (← m))) x (f a) x' :=
  h.bind (leads_pure (f a))

/-- A program `n` times over. -/
def times : Nat → StateT σ (Prog ρ θ) PUnit → StateT σ (Prog ρ θ) PUnit
  | 0, _ => pure ⟨⟩
  | n + 1, m => do
      times n m
      m

theorem leads_times {m : StateT σ (Prog ρ θ) PUnit} (states : Nat → τ) {n : Nat}
    (hstep : ∀ k, k < n → Leads serve R m (states k) ⟨⟩ (states (k + 1))) :
    Leads serve R (times n m) (states 0) ⟨⟩ (states n) := by
  induction n with
  | zero => exact leads_pure PUnit.unit
  | succ n ih => exact (ih (fun k hk => hstep k (Nat.lt_succ_of_lt hk))).bind (hstep n (Nat.lt_succ_self n))

end

end GSSquared.Dialogue
