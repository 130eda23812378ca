/-
Runs of a machine, and the states it goes through on the way.
-/
import Mathlib.Data.List.Chain

set_option linter.all false

namespace GSSquared.Machine

section

variable {σ ι : Type} (step : σ → ι → σ) (inner : σ → ι → List σ)

def run : σ → List ι → σ
  | s, [] => s
  | s, i :: is => run (step s i) is

def trail : σ → List ι → List σ
  | _, [] => []
  | s, i :: is => inner s i ++ step s i :: trail (step s i) is

@[simp] theorem run_nil (s : σ) : run step s [] = s := rfl

@[simp] theorem run_cons (s : σ) (i : ι) (is : List ι) :
    run step s (i :: is) = run step (step s i) is := rfl

theorem run_append (s : σ) (is js : List ι) : run step s (is ++ js) = run step (run step s is) js := by
  induction is generalizing s with
  | nil => rfl
  | cons i is ih => exact ih (step s i)

def gathered {ω : Type} (out : σ → ι → List ω) : σ → List ι → List ω
  | _, [] => []
  | s, i :: is => out s i ++ gathered out (step s i) is

theorem gathered_append {ω : Type} (out : σ → ι → List ω) (s : σ) (is js : List ι) :
    gathered step out s (is ++ js) = gathered step out s is ++ gathered step out (run step s is) js := by
  induction is generalizing s with
  | nil => rfl
  | cons i is ih =>
    rw [List.cons_append, gathered, gathered, ih, List.append_assoc]
    rfl

variable {step inner}

theorem run_invariant {P : σ → Prop} (hstep : ∀ s i, P s → P (step s i)) :
    ∀ (is : List ι) (s : σ), P s → P (run step s is) := by
  intro is
  induction is with
  | nil => intro s hs; exact hs
  | cons i is ih => intro s hs; exact ih (step s i) (hstep s i hs)

theorem trail_chain {P : σ → Prop} {R : σ → σ → Prop} (hstep : ∀ s i, P s → P (step s i))
    (hlink : ∀ s i, P s → List.IsChain R (s :: (inner s i ++ [step s i]))) :
    ∀ (is : List ι) (s : σ), P s → List.IsChain R (s :: trail step inner s is) := by
  intro is
  induction is with
  | nil => intro s _; exact .singleton s
  | cons i is ih =>
    intro s hs
    have hfront := hlink s i hs
    have hback := ih (step s i) (hstep s i hs)
    rw [trail, ← List.cons_append, List.isChain_split]
    exact ⟨hfront, hback⟩

variable (step) in
/-- Every step of the run satisfies `G` where it is taken. -/
def Guarded (G : σ → ι → Prop) : σ → List ι → Prop
  | _, [] => True
  | s, i :: is => G s i ∧ Guarded G (step s i) is

instance {G : σ → ι → Prop} [∀ s i, Decidable (G s i)] : ∀ (is : List ι) (s : σ), Decidable (Guarded step G s is)
  | [], _ => isTrue trivial
  | i :: is, s =>
    have : Decidable (Guarded step G (step s i) is) := instDecidableGuarded is (step s i)
    inferInstanceAs (Decidable (G s i ∧ Guarded step G (step s i) is))

theorem guarded_append {G : σ → ι → Prop} (s : σ) (is js : List ι) :
    Guarded step G s (is ++ js) ↔ Guarded step G s is ∧ Guarded step G (run step s is) js := by
  induction is generalizing s with
  | nil => exact (and_iff_right trivial).symm
  | cons i is ih => exact (and_congr_right (fun _ => ih (step s i))).trans and_assoc.symm

theorem Guarded.invariant {G : σ → ι → Prop} {P : σ → Prop} (hstep : ∀ s i, G s i → P s → P (step s i)) :
    ∀ (is : List ι) (s : σ), Guarded step G s is → P s → P (run step s is) := by
  intro is
  induction is with
  | nil => intro s _ hs; exact hs
  | cons i is ih => intro s hg hs; exact ih (step s i) hg.2 (hstep s i hg.1 hs)

/-- A property that a step keeps just in case `G` allows it holds after every prefix of a run just in case every
step is allowed. -/
theorem prefixes_guarded {P Q : σ → Prop} {G : σ → ι → Prop}
    (hstep : ∀ s i, Q s → (P (step s i) ↔ G s i) ∧ (G s i → Q (step s i))) (hstart : ∀ s, Q s → P s) :
    ∀ (is : List ι) (s : σ), Q s → ((∀ p, p <+: is → P (run step s p)) ↔ Guarded step G s is) := by
  intro is
  induction is with
  | nil =>
    intro s hs
    refine ⟨fun _ => trivial, fun _ p hp => ?_⟩
    rw [List.prefix_nil.mp hp]
    exact hstart s hs
  | cons i is ih =>
    intro s hs
    obtain ⟨hiff, hkeeps⟩ := hstep s i hs
    constructor
    · intro hall
      have hg : G s i := hiff.mp (hall [i] (List.prefix_append [i] is))
      exact ⟨hg, (ih (step s i) (hkeeps hg)).mp (fun p hp => hall (i :: p) (List.cons_prefix_cons.mpr ⟨rfl, hp⟩))⟩
    · rintro ⟨hg, hrest⟩ p hp
      cases p with
      | nil => exact hstart s hs
      | cons j p =>
        obtain ⟨rfl, hrest'⟩ := List.cons_prefix_cons.mp hp
        exact (ih (step s j) (hkeeps hg)).mpr hrest p hrest'

theorem Guarded.with {G : σ → ι → Prop} {A : ι → Prop} : ∀ {is : List ι} {s : σ}, Guarded step G s is →
    (∀ i ∈ is, A i) → Guarded step (fun s i => G s i ∧ A i) s is := by
  intro is
  induction is with
  | nil => intro s _ _; exact trivial
  | cons i is ih =>
    intro s hg ha
    exact ⟨⟨hg.1, ha i List.mem_cons_self⟩, ih hg.2 (fun j hj => ha j (List.mem_cons_of_mem i hj))⟩

end

section

variable {σ : Type} {Q W : σ → Prop} {E : σ → σ → Prop}

/-- A property that survives each link as long as `W` holds survives a stretch of the
trail, and what it keeps at each link it keeps over the stretch. -/
theorem chain_keeps (htrans : ∀ a b c, E a b → E b c → E a c) :
    ∀ (mid : List σ) (a b : σ), List.IsChain (fun a b => Q a → W b → Q b ∧ E a b) (a :: (mid ++ [b])) →
      Q a → (∀ x ∈ mid ++ [b], W x) → E a b := by
  intro mid
  induction mid with
  | nil =>
    intro a b hchain ha hw
    rw [List.nil_append, List.isChain_cons_cons] at hchain
    exact (hchain.1 ha (hw b (by simp))).2
  | cons c mid ih =>
    intro a b hchain ha hw
    rw [List.cons_append, List.isChain_cons_cons] at hchain
    obtain ⟨hc, hac⟩ := hchain.1 ha (hw c (by simp))
    refine htrans a c b hac (ih c b hchain.2 hc (fun x hx => hw x ?_))
    exact List.mem_cons_of_mem c hx

end

end GSSquared.Machine
