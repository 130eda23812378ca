/-
Lists laid out in blocks of one size, and counting over a list without repeats.
-/

set_option linter.all false

namespace GSSquared.Blocks

section

variable {α β : Type}

theorem length_flatMap_uniform (f : α → List β) (k : Nat) (hf : ∀ a, (f a).length = k)
    (l : List α) : (l.flatMap f).length = l.length * k := by
  induction l with
  | nil => rw [List.flatMap_nil, List.length_nil, List.length_nil, Nat.zero_mul]
  | cons a l ih =>
    rw [List.flatMap_cons, List.length_append, hf, ih, List.length_cons, Nat.add_mul]
    omega

theorem getElem?_flatMap_uniform (f : α → List β) (k : Nat) (hf : ∀ a, (f a).length = k) :
    ∀ (l : List α) (i j : Nat), j < k →
      (l.flatMap f)[i * k + j]? = l[i]?.bind fun a => (f a)[j]? := by
  intro l
  induction l with
  | nil => intro i j _; simp
  | cons a l ih =>
    intro i j hj
    rw [List.flatMap_cons]
    cases i with
    | zero =>
      rw [Nat.zero_mul, Nat.zero_add, List.getElem?_append_left (by rw [hf]; exact hj)]
      rfl
    | succ i =>
      rw [Nat.add_mul, Nat.one_mul, List.getElem?_append_right (by rw [hf]; omega), hf,
        show i * k + k + j - k = i * k + j by omega, ih i j hj]
      rfl

end

theorem countP_insert {α : Type} [DecidableEq α] (p : α → Bool) (a : α) (hp : p a = false) :
    ∀ l : List α, l.Nodup → a ∈ l →
      l.countP (fun x => decide (x = a) || p x) = l.countP p + 1 := by
  intro l
  induction l with
  | nil => intro _ h; cases h
  | cons x l ih =>
    intro hnodup hmem
    obtain ⟨hx, hnodup⟩ := List.nodup_cons.mp hnodup
    by_cases hxa : x = a
    · subst hxa
      have hrest : l.countP (fun y => decide (y = x) || p y) = l.countP p := by
        refine List.countP_congr (fun y hy => ?_)
        have hne : y ≠ x := fun h => hx (h ▸ hy)
        simp [hne]
      rw [List.countP_cons, List.countP_cons, hrest, hp]
      simp
    · have hmem' : a ∈ l := by
        rcases List.mem_cons.mp hmem with h | h
        · exact absurd h.symm hxa
        · exact h
      rw [List.countP_cons, List.countP_cons, ih hnodup hmem']
      simp only [hxa, decide_false, Bool.false_or]
      omega

end GSSquared.Blocks
