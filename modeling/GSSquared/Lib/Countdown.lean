/-
Counting down over a run. Some inputs of a machine are ticks.
-/
import GSSquared.Lib.Trail

set_option linter.all false

namespace GSSquared.Machine

section

variable {σ ι : Type} {step : σ → ι → σ} {tick : ι → Bool} {fires : σ → ι → Bool} {ok : ι → Prop} {P : σ → Prop}
  {left : σ → Nat}

def ticks (tick : ι → Bool) (is : List ι) : Nat := is.countP tick

variable (step fires) in
def events : σ → List ι → Nat
  | _, [] => 0
  | s, i :: is => (if fires s i then 1 else 0) + events (step s i) is

theorem events_append (s : σ) (is js : List ι) :
    events step fires s (is ++ js) = events step fires s is + events step fires (run step s is) js := by
  induction is generalizing s with
  | nil => exact (Nat.zero_add _).symm
  | cons i is ih => rw [List.cons_append, events, events, ih, run_cons, Nat.add_assoc]

theorem countdown
    (hquiet : ∀ s i, P s → ok i → tick i = false → P (step s i) ∧ left (step s i) = left s)
    (htick : ∀ s i, P s → ok i → tick i = true → 0 < left s → P (step s i) ∧ left (step s i) + 1 = left s) :
    ∀ (is : List ι) (s : σ), P s → (∀ i ∈ is, ok i) → ticks tick is ≤ left s →
      P (run step s is) ∧ left (run step s is) + ticks tick is = left s := by
  intro is
  induction is with
  | nil => intro s hs _ _; exact ⟨hs, rfl⟩
  | cons i is ih =>
    intro s hs hok hle
    have hi := hok i List.mem_cons_self
    have hrest : ∀ j ∈ is, ok j := fun j hj => hok j (List.mem_cons_of_mem i hj)
    cases htk : tick i with
    | false =>
      have hcount : ticks tick (i :: is) = ticks tick is := List.countP_cons_of_neg (by rw [htk]; decide)
      obtain ⟨hs', hleft⟩ := hquiet s i hs hi htk
      rw [hcount] at hle ⊢
      obtain ⟨hend, hsum⟩ := ih (step s i) hs' hrest (by omega)
      exact ⟨hend, hsum.trans hleft⟩
    | true =>
      have hcount : ticks tick (i :: is) = ticks tick is + 1 := List.countP_cons_of_pos htk
      rw [hcount] at hle ⊢
      obtain ⟨hs', hleft⟩ := htick s i hs hi htk (by omega)
      obtain ⟨hend, hsum⟩ := ih (step s i) hs' hrest (by omega)
      refine ⟨hend, ?_⟩
      rw [run_cons]
      omega

theorem events_zero : ∀ (is : List ι) (s : σ),
    (∀ front i rest, is = front ++ i :: rest → fires (run step s front) i = false) → events step fires s is = 0 := by
  intro is
  induction is with
  | nil => intro s _; rfl
  | cons i is ih =>
    intro s hno
    have hfirst : fires s i = false := hno [] i is rfl
    have hrest : events step fires (step s i) is = 0 := by
      apply ih
      rintro front j rest rfl
      exact hno (i :: front) j rest rfl
    rw [events, hfirst, hrest]
    rfl

theorem events_none (hstep : ∀ s i, P s → ok i → P (step s i) ∧ fires s i = false) :
    ∀ (is : List ι) (s : σ), P s → (∀ i ∈ is, ok i) → events step fires s is = 0 := by
  intro is
  induction is with
  | nil => intro s _ _; rfl
  | cons i is ih =>
    intro s hs hok
    obtain ⟨hs', hno⟩ := hstep s i hs (hok i List.mem_cons_self)
    rw [events, hno, ih (step s i) hs' (fun j hj => hok j (List.mem_cons_of_mem i hj))]
    rfl

theorem countdown_quiet
    (hquiet : ∀ s i, P s → ok i → tick i = false → P (step s i) ∧ left (step s i) = left s)
    (htick : ∀ s i, P s → ok i → tick i = true → 0 < left s → P (step s i) ∧ left (step s i) + 1 = left s)
    (hfires : ∀ s i, fires s i = true → tick i = true ∧ left s = 0) (is : List ι) (s : σ) (hs : P s)
    (hok : ∀ i ∈ is, ok i) (hle : ticks tick is ≤ left s) : events step fires s is = 0 := by
  apply events_zero
  rintro front i rest rfl
  refine Bool.eq_false_iff.mpr (fun hfire => ?_)
  obtain ⟨htk, hnone⟩ := hfires _ _ hfire
  have hcount : ticks tick (front ++ i :: rest) = ticks tick front + (ticks tick rest + 1) := by
    rw [ticks, List.countP_append, List.countP_cons_of_pos htk]
    rfl
  have hfront : ∀ j ∈ front, ok j := fun j hj => hok j (List.mem_append_left _ hj)
  obtain ⟨-, hsum⟩ := countdown hquiet htick front s hs hfront (by omega)
  omega

theorem ticks_split {n : Nat} : ∀ (is : List ι), n < ticks tick is →
    ∃ front i rest, is = front ++ i :: rest ∧ tick i = true ∧ ticks tick front = n := by
  intro is
  induction is generalizing n with
  | nil => intro h; exact absurd h (Nat.not_lt_zero n)
  | cons i is ih =>
    intro h
    cases htk : tick i with
    | false =>
      have hcount : ∀ js, ticks tick (i :: js) = ticks tick js := fun js => List.countP_cons_of_neg (by rw [htk]; decide)
      rw [hcount] at h
      obtain ⟨front, j, rest, rfl, hj, hfront⟩ := ih h
      exact ⟨i :: front, j, rest, rfl, hj, by rw [hcount, hfront]⟩
    | true =>
      have hcount : ∀ js, ticks tick (i :: js) = ticks tick js + 1 := fun js => List.countP_cons_of_pos htk
      rw [hcount] at h
      cases n with
      | zero => exact ⟨[], i, is, rfl, htk, rfl⟩
      | succ n =>
        obtain ⟨front, j, rest, rfl, hj, hfront⟩ := ih (Nat.lt_of_succ_lt_succ h)
        exact ⟨i :: front, j, rest, rfl, hj, by rw [hcount, hfront]⟩

theorem countdown_once {Q : σ → Prop}
    (hquiet : ∀ s i, P s → ok i → tick i = false → P (step s i) ∧ left (step s i) = left s)
    (htick : ∀ s i, P s → ok i → tick i = true → 0 < left s → P (step s i) ∧ left (step s i) + 1 = left s)
    (hfires : ∀ s i, fires s i = true → tick i = true ∧ left s = 0)
    (hlast : ∀ s i, P s → ok i → tick i = true → left s = 0 → fires s i = true ∧ Q (step s i))
    (hdone : ∀ s i, Q s → ok i → Q (step s i) ∧ fires s i = false)
    (is : List ι) (s : σ) (hs : P s) (hok : ∀ i ∈ is, ok i) :
    events step fires s is = if left s + 1 ≤ ticks tick is then 1 else 0 := by
  by_cases hle : left s + 1 ≤ ticks tick is
  · obtain ⟨front, i, rest, rfl, htk, hfront⟩ := ticks_split is hle
    have hfrontok : ∀ j ∈ front, ok j := fun j hj => hok j (List.mem_append_left _ hj)
    have hrestok : ∀ j ∈ rest, ok j := fun j hj => hok j (List.mem_append_right _ (List.mem_cons_of_mem _ hj))
    have hi : ok i := hok i (List.mem_append_right _ List.mem_cons_self)
    obtain ⟨hmid, hsum⟩ := countdown hquiet htick front s hs hfrontok (Nat.le_of_eq hfront)
    obtain ⟨hfire, hq⟩ := hlast _ i hmid hi htk (by omega)
    rw [if_pos hle, events_append, events, hfire,
      countdown_quiet hquiet htick hfires front s hs hfrontok (Nat.le_of_eq hfront),
      events_none hdone rest _ hq hrestok]
    rfl
  · rw [if_neg hle]
    exact countdown_quiet hquiet htick hfires is s hs hok (by omega)

end

end GSSquared.Machine
