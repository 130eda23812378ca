/-
Programs that ask and are answered.
-/

set_option linter.all false

namespace GSSquared.Dialogue

inductive Prog (ρ θ α : Type) where
  | done (a : α)
  | ask (r : ρ) (next : θ → Prog ρ θ α)

section

variable {ρ θ α β : Type}

namespace Prog

def bind : Prog ρ θ α → (α → Prog ρ θ β) → Prog ρ θ β
  | done a, k => k a
  | ask r next, k => ask r (fun t => (next t).bind k)

instance : Monad (Prog ρ θ) where
  pure := done
  bind := bind

/-- What is asked when the answers are those of `as`. -/
def asked : Prog ρ θ α → (Nat → θ) → List ρ
  | done _, _ => []
  | ask r next, as => r :: (next (as 0)).asked (fun n => as (n + 1))

def result : Prog ρ θ α → (Nat → θ) → α
  | done a, _ => a
  | ask _ next, as => (next (as 0)).result (fun n => as (n + 1))

def rest : Prog ρ θ α → (Nat → θ) → Nat → θ
  | done _, as => as
  | ask _ next, as => (next (as 0)).rest (fun n => as (n + 1))

variable (m : Prog ρ θ α)

theorem asked_bind (k : α → Prog ρ θ β) (as : Nat → θ) :
    (m.bind k).asked as = m.asked as ++ (k (m.result as)).asked (m.rest as) := by
  induction m generalizing as with
  | done a => rfl
  | ask r next ih =>
    show r :: ((next (as 0)).bind k).asked _ = r :: ((next (as 0)).asked _ ++ _)
    rw [ih (as 0)]
    rfl

theorem result_bind (k : α → Prog ρ θ β) (as : Nat → θ) :
    (m.bind k).result as = (k (m.result as)).result (m.rest as) := by
  induction m generalizing as with
  | done a => rfl
  | ask r next ih => exact ih (as 0) (fun n => as (n + 1))

theorem rest_bind (k : α → Prog ρ θ β) (as : Nat → θ) :
    (m.bind k).rest as = (k (m.result as)).rest (m.rest as) := by
  induction m generalizing as with
  | done a => rfl
  | ask r next ih => exact ih (as 0) (fun n => as (n + 1))

theorem rest_eq (as : Nat → θ) : m.rest as = fun n => as (n + (m.asked as).length) := by
  induction m generalizing as with
  | done a => rfl
  | ask r next ih => exact ih (as 0) (fun n => as (n + 1))

/-- Along every run, what is asked satisfies `P` and the end satisfies `Q`. -/
def All (P : ρ → Prop) (Q : α → Prop) : Prog ρ θ α → Prop
  | done a => Q a
  | ask r next => P r ∧ ∀ t, (next t).All P Q

variable {P : ρ → Prop}

theorem all_bind (m : Prog ρ θ α) (k : α → Prog ρ θ β) (Q : β → Prop) :
    (m.bind k).All P Q ↔ m.All P (fun a => (k a).All P Q) := by
  induction m with
  | done a => exact Iff.rfl
  | ask r next ih => exact and_congr_right (fun _ => forall_congr' (fun t => ih t))

theorem All.mono {Q Q' : α → Prop} {m : Prog ρ θ α} (h : m.All P Q) (hQ : ∀ a, Q a → Q' a) :
    m.All P Q' := by
  induction m with
  | done a => exact hQ a h
  | ask r next ih => exact ⟨h.1, fun t => ih t (h.2 t)⟩

theorem All.asked {Q : α → Prop} {m : Prog ρ θ α} (h : m.All P Q) (as : Nat → θ) : ∀ r ∈ m.asked as, P r := by
  induction m generalizing as with
  | done a => exact fun r hr => nomatch hr
  | ask r next ih => exact List.forall_mem_cons.mpr ⟨h.1, ih (as 0) (h.2 _) _⟩

theorem All.result {Q : α → Prop} {m : Prog ρ θ α} (h : m.All P Q) (as : Nat → θ) : Q (m.result as) := by
  induction m generalizing as with
  | done a => exact h
  | ask r next ih => exact ih (as 0) (h.2 _) _

end Prog

variable {σ : Type}

/-- Every run from `s` asks for `P` and ends with `Q`. -/
def Along (P : ρ → Prop) (Q : α → σ → Prop) (m : StateT σ (Prog ρ θ) α) (s : σ) : Prop :=
  Prog.All P (fun r => Q r.1 r.2) (m s)

variable {P : ρ → Prop} {Q : β → σ → Prop} {s : σ}

@[simp] theorem along_bind (m : StateT σ (Prog ρ θ) α) (k : α → StateT σ (Prog ρ θ) β) :
    Along P Q (m >>= k) s ↔ Along P (fun a s' => Along P Q (k a) s') m s :=
  Prog.all_bind (m s) (fun r => k r.1 r.2) (fun r => Q r.1 r.2)

@[simp] theorem along_modify (f : σ → σ) {Q : PUnit → σ → Prop} :
    Along P Q (modify f : StateT σ (Prog ρ θ) PUnit) s ↔ Q ⟨⟩ (f s) := Iff.rfl

theorem Along.mono {Q Q' : β → σ → Prop} {m : StateT σ (Prog ρ θ) β} (h : Along P Q m s)
    (hQ : ∀ b s', Q b s' → Q' b s') : Along P Q' m s :=
  Prog.All.mono h (fun r => hQ r.1 r.2)

theorem Along.bind {Q' : α → σ → Prop} {m : StateT σ (Prog ρ θ) α} {k : α → StateT σ (Prog ρ θ) β}
    (h : Along P Q' m s) (hk : ∀ a s', Q' a s' → Along P Q (k a) s') : Along P Q (m >>= k) s :=
  (along_bind m k).mpr (h.mono hk)

section

variable (m : StateT σ (Prog ρ θ) α) (k : α → StateT σ (Prog ρ θ) β) (as : Nat → θ)

theorem asked_bind_state :
    Prog.asked ((m >>= k) s) as =
      (m s).asked as ++ (k ((m s).result as).1 ((m s).result as).2).asked ((m s).rest as) :=
  Prog.asked_bind (m s) (fun r => k r.1 r.2) as

theorem result_bind_state :
    Prog.result ((m >>= k) s) as = (k ((m s).result as).1 ((m s).result as).2).result ((m s).rest as) :=
  Prog.result_bind (m s) (fun r => k r.1 r.2) as

theorem rest_bind_state :
    Prog.rest ((m >>= k) s) as = (k ((m s).result as).1 ((m s).result as).2).rest ((m s).rest as) :=
  Prog.rest_bind (m s) (fun r => k r.1 r.2) as

end

/-- The run from `s` with the answers of `as` asks for `l`, and ends with `a` in `s'`. -/
structure Runs (m : StateT σ (Prog ρ θ) α) (s : σ) (as : Nat → θ) (l : List ρ) (a : α) (s' : σ) : Prop where
  asked : (m s).asked as = l
  result : (m s).result as = (a, s')

section

variable {as : Nat → θ} {l l' : List ρ} {a : α} {b : β} {s' s'' : σ}

theorem runs_pure (b : β) : Runs (pure b : StateT σ (Prog ρ θ) β) s as [] b s := ⟨rfl, rfl⟩

theorem runs_modify (f : σ → σ) : Runs (modify f : StateT σ (Prog ρ θ) PUnit) s as [] ⟨⟩ (f s) := ⟨rfl, rfl⟩

theorem runs_get {k : σ → StateT σ (Prog ρ θ) β} (h : Runs (k s) s as l b s') : Runs (get >>= k) s as l b s' :=
  ⟨h.asked, h.result⟩

theorem Runs.rest {m : StateT σ (Prog ρ θ) α} (h : Runs m s as l a s') :
    (m s).rest as = fun n => as (n + l.length) := by
  rw [Prog.rest_eq, h.asked]

theorem Runs.bind {m : StateT σ (Prog ρ θ) α} {k : α → StateT σ (Prog ρ θ) β} (h : Runs m s as l a s')
    (hk : Runs (k a) s' (fun n => as (n + l.length)) l' b s'') : Runs (m >>= k) s as (l ++ l') b s'' := by
  constructor
  · rw [asked_bind_state, h.asked, h.result, h.rest, hk.asked]
  · rw [result_bind_state, h.result, h.rest, hk.result]

theorem Runs.congr {m m' : StateT σ (Prog ρ θ) α} (h : Runs m s as l a s') (heq : m' s = m s) : Runs m' s as l a s' :=
  ⟨heq ▸ h.asked, heq ▸ h.result⟩

theorem Runs.change {m : StateT σ (Prog ρ θ) α} (h : Runs m s as l a s') (f : σ → σ) :
    Runs (do let _ ← m; modify f) s as l ⟨⟩ (f s') := by
  have hrun := h.bind (k := fun _ => modify f) (runs_modify f)
  rwa [List.append_nil] at hrun

end

/-- The run from `s` with the answers of `as` asks only for `P`. -/
def Asks (P : ρ → Prop) (m : StateT σ (Prog ρ θ) α) (s : σ) (as : Nat → θ) : Prop :=
  ∀ r ∈ (m s).asked as, P r

theorem asks_bind (m : StateT σ (Prog ρ θ) α) (k : α → StateT σ (Prog ρ θ) β) (as : Nat → θ) :
    Asks P (m >>= k) s as ↔
      Asks P m s as ∧ Asks P (k ((m s).result as).1) ((m s).result as).2 ((m s).rest as) := by
  rw [Asks, asked_bind_state, List.forall_mem_append]
  exact Iff.rfl

theorem Along.asks {m : StateT σ (Prog ρ θ) β} (h : Along P Q m s) (as : Nat → θ) : Asks P m s as :=
  Prog.All.asked h as

variable {τ : Type}

/-- With the answers of `as` two programs agree: what they ask that is kept, what they
return, how many answers they take, and the states they end in, up to `R`. -/
structure Follows (keep : ρ → Bool) (R : σ → τ → Prop) (m : StateT σ (Prog ρ θ) α) (m' : StateT τ (Prog ρ θ) α)
    (s : σ) (s' : τ) (as : Nat → θ) : Prop where
  asked : ((m s).asked as).filter keep = ((m' s').asked as).filter keep
  value : ((m s).result as).1 = ((m' s').result as).1
  rest : (m s).rest as = (m' s').rest as
  state : R ((m s).result as).2 ((m' s').result as).2

theorem Follows.bind {keep : ρ → Bool} {R : σ → τ → Prop} {m : StateT σ (Prog ρ θ) α}
    {m' : StateT τ (Prog ρ θ) α} {k : α → StateT σ (Prog ρ θ) β} {k' : α → StateT τ (Prog ρ θ) β} {s : σ} {s' : τ}
    {as : Nat → θ} (h : Follows keep R m m' s s' as)
    (hk : ∀ u u', R u u' →
      Follows keep R (k ((m s).result as).1) (k' ((m s).result as).1) u u' ((m s).rest as)) :
    Follows keep R (m >>= k) (m' >>= k') s s' as := by
  have hrest := hk _ _ h.state
  constructor
  · rw [asked_bind_state, asked_bind_state, List.filter_append, List.filter_append, h.asked, hrest.asked, h.value,
      h.rest]
  · rw [result_bind_state, result_bind_state, hrest.value, h.value, h.rest]
  · rw [rest_bind_state, rest_bind_state, hrest.rest, h.value, h.rest]
  · rw [result_bind_state, result_bind_state, ← h.value, ← h.rest]
    exact hrest.state

end

end GSSquared.Dialogue
