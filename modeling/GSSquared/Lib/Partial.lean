/-
Computations that may have no result. `Yields o P` says that `o` has a result and that `P` holds of
it.
-/

set_option linter.all false

namespace GSSquared.Partial

section

variable {σ τ ι : Type}

/-- There is a result, and `P` holds of it. -/
def Yields (o : Option σ) (P : σ → Prop) : Prop := ∃ s, o = some s ∧ P s

variable {o : Option σ} {P Q : σ → Prop} {s : σ}

@[simp] theorem yields_some : Yields (some s) P ↔ P s := by
  constructor
  · rintro ⟨t, ht, hP⟩
    cases ht
    exact hP
  · intro hP
    exact ⟨s, rfl, hP⟩

theorem Yields.mono (h : Yields o P) (hPQ : ∀ s, P s → Q s) : Yields o Q := by
  obtain ⟨s, hs, hP⟩ := h
  exact ⟨s, hs, hPQ s hP⟩

theorem Yields.bind {f : σ → Option τ} {R : τ → Prop} (h : Yields o P) (hf : ∀ s, P s → Yields (f s) R) :
    Yields (o >>= f) R := by
  obtain ⟨s, rfl, hP⟩ := h
  exact hf s hP

theorem Yields.of_eq (h : Yields o P) (hs : o = some s) : P s := by
  obtain ⟨t, rfl, hP⟩ := h
  cases hs
  exact hP

theorem yields_foldlM {f : σ → ι → Option σ} {is : List ι} (hstep : ∀ s i, i ∈ is → P s → Yields (f s i) P) :
    ∀ {s : σ}, P s → Yields (is.foldlM f s) P := by
  induction is with
  | nil => intro s hs; exact yields_some.2 hs
  | cons i is ih =>
    intro s hs
    rw [List.foldlM_cons]
    refine (hstep s i List.mem_cons_self hs).bind (fun t ht => ?_)
    exact ih (fun u j hj hu => hstep u j (List.mem_cons_of_mem i hj) hu) ht

/-- Of whatever comes out, if anything does, `P` holds. -/
def Whenever (o : Option σ) (P : σ → Prop) : Prop := ∀ s, o = some s → P s

@[simp] theorem whenever_some : Whenever (some s) P ↔ P s := by
  constructor
  · intro h
    exact h s rfl
  · rintro hP t ht
    cases ht
    exact hP

theorem whenever_none : Whenever none P := fun _ hs => nomatch hs

theorem Whenever.bind {f : σ → Option τ} {R : τ → Prop} (h : Whenever o P) (hf : ∀ s, P s → Whenever (f s) R) :
    Whenever (o >>= f) R := by
  intro t ht
  obtain ⟨s, hs, ht⟩ := Option.bind_eq_some_iff.mp ht
  exact hf s (h s hs) t ht

theorem whenever_foldlM {f : σ → ι → Option σ} {is : List ι} (hstep : ∀ s i, P s → Whenever (f s i) P) :
    ∀ {s : σ}, P s → Whenever (is.foldlM f s) P := by
  induction is with
  | nil => intro s hs; exact whenever_some.2 hs
  | cons i is ih =>
    intro s hs
    rw [List.foldlM_cons]
    exact (hstep s i hs).bind (fun t ht => ih ht)

theorem mapM_some {f : ι → Option σ} {g : ι → σ} {is : List ι} (h : ∀ i ∈ is, f i = some (g i)) :
    is.mapM f = some (is.map g) := by
  induction is with
  | nil => rfl
  | cons i is ih =>
    rw [List.mapM_cons, h i List.mem_cons_self, ih (fun j hj => h j (List.mem_cons_of_mem i hj))]
    rfl

variable (step : σ → ι → Option σ)

/-- Every step of the run satisfies `G` where it is taken. -/
def Guarded (G : σ → ι → Prop) : σ → List ι → Prop
  | _, [] => True
  | s, i :: is => G s i ∧ match step s i with | some t => Guarded G t is | none => True

instance {G : σ → ι → Prop} [∀ s i, Decidable (G s i)] : ∀ (is : List ι) (s : σ), Decidable (Guarded step G s is)
  | [], _ => isTrue trivial
  | i :: is, s =>
    match h : step s i with
    | some t =>
      have : Decidable (Guarded step G t is) := instDecidableGuarded is t
      decidable_of_iff (G s i ∧ Guarded step G t is) (by rw [Guarded, h])
    | none => decidable_of_iff (G s i) (by rw [Guarded, h, and_true])

variable {step}

theorem Guarded.yields {G : σ → ι → Prop} (hstep : ∀ s i, G s i → P s → Yields (step s i) P) :
    ∀ {is : List ι} {s : σ}, Guarded step G s is → P s → Yields (is.foldlM step s) P := by
  intro is
  induction is with
  | nil => intro s _ hs; exact yields_some.2 hs
  | cons i is ih =>
    intro s hguard hs
    rw [List.foldlM_cons]
    obtain ⟨t, ht, hP⟩ := hstep s i hguard.1 hs
    have hrest := hguard.2
    rw [ht] at hrest ⊢
    exact ih hrest hP

end

end GSSquared.Partial
