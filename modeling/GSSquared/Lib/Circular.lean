/-
A list that lies in a circular window.
-/

set_option linter.all false

namespace GSSquared.Circular

section

variable {size m n : Nat}

theorem mod_ne_mod (h : m < n) (hn : n < m + size) : m % size ≠ n % size := by
  intro heq
  have hdvd : size ∣ n - m := Nat.dvd_of_mod_eq_zero (Nat.sub_mod_eq_zero_of_mod_eq heq.symm)
  have hle := Nat.le_of_dvd (Nat.sub_pos_of_lt h) hdvd
  omega

end

section

variable {α : Type} {mem mem' : Nat → α} {base size lo lo' m n : Nat} {l : List α}

/-- What comes from `lo` on lies in the window. -/
def Lies (mem : Nat → α) (base size lo : Nat) (l : List α) : Prop :=
  ∀ n (h : n < l.length), lo ≤ n → mem (base + n % size) = l[n]

theorem Lies.mono (h : Lies mem base size lo l) (hlo : lo ≤ lo') : Lies mem base size lo' l :=
  fun n hn hle => h n hn (Nat.le_trans hlo hle)

theorem lies_of_length_le (h : l.length ≤ lo) : Lies mem base size lo l := fun n hn hle => by omega

theorem Lies.congr (h : Lies mem base size lo l) (hsize : 0 < size)
    (hmem : ∀ k, k < size → mem' (base + k) = mem (base + k)) : Lies mem' base size lo l :=
  fun n hn hle => (hmem _ (Nat.mod_lt n hsize)).trans (h n hn hle)

theorem Lies.push (h : Lies mem base size lo l) {v : α} (hroom : l.length < lo + size)
    (hnew : mem' (base + l.length % size) = v)
    (hold : ∀ k, k < size → k ≠ l.length % size → mem' (base + k) = mem (base + k)) :
    Lies mem' base size lo (l ++ [v]) := by
  intro n hn hle
  rcases Nat.lt_or_ge n l.length with hlt | hge
  · have hsize : 0 < size := by omega
    rw [List.getElem_append_left hlt, hold _ (Nat.mod_lt n hsize) (mod_ne_mod hlt (by omega))]
    exact h n hlt hle
  · have heq : n = l.length := by
      simp only [List.length_append, List.length_singleton] at hn
      omega
    subst heq
    rw [List.getElem_append_right (Nat.le_refl _), hnew]
    simp

theorem Lies.read (h : Lies mem base size lo l) (hlo : lo ≤ m) (hn : m + n ≤ l.length) :
    (List.range n).map (fun k => mem (base + (m + k) % size)) = (l.drop m).take n := by
  refine List.ext_getElem (by simp; omega) (fun k hk _ => ?_)
  rw [List.length_map, List.length_range] at hk
  rw [List.getElem_map, List.getElem_range, h (m + k) (by omega) (by omega)]
  simp

end

section

variable {α : Type} {mem mem' : Nat → α} {size start n : Nat}

def window (mem : Nat → α) (size start n : Nat) : List α := (List.range n).map (fun k => mem ((start + k) % size))

theorem window_push (hn : n < size) {v : α} (hnew : mem' ((start + n) % size) = v)
    (hold : ∀ i, i ≠ (start + n) % size → mem' i = mem i) :
    window mem' size start (n + 1) = window mem size start n ++ [v] := by
  have hsame : window mem' size start n = window mem size start n := by
    apply List.map_congr_left
    intro k hk
    have hlt : k < n := List.mem_range.mp hk
    exact hold _ (mod_ne_mod (by omega) (by omega))
  rw [← hsame, ← hnew]
  unfold window
  rw [List.range_succ, List.map_append]
  rfl

theorem window_pop : window mem size start (n + 1) = mem (start % size) :: window mem size ((start + 1) % size) n := by
  unfold window
  rw [List.range_succ_eq_map, List.map_cons, List.map_map]
  apply congrArg (List.cons (mem (start % size)))
  apply List.map_congr_left
  intro k _
  show mem ((start + (k + 1)) % size) = mem (((start + 1) % size + k) % size)
  rw [Nat.mod_add_mod, Nat.add_assoc, Nat.add_comm 1 k]

end

end GSSquared.Circular
