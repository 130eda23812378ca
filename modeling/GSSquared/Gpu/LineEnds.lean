/-
Where the line of `LINE_TO_Y` ends, and how near it stays.
-/
import GSSquared.Gpu.Drawing
import GSSquared.Lib.Bresenham

set_option linter.all false

namespace GSSquared.Gpu

open Bits Signed Bresenham

namespace Frame

def penFrom (dx dy sx sy : Int) (p : Pencil) : Nat → Pencil
  | 0 => p
  | k + 1 => (penFrom dx dy sx sy p k).step dx dy sx sy

theorem penFrom_succ (dx dy sx sy : Int) (p : Pencil) (k : Nat) :
    penFrom dx dy sx sy p (k + 1) = penFrom dx dy sx sy (p.step dx dy sx sy) k := by
  induction k with
  | zero => rfl
  | succ k ih => exact congrArg (Pencil.step dx dy sx sy) ih

theorem lineLoop_plots {color : Byte} {x1 y1 dx dy sx sy : Int} : ∀ {n turns : Nat} {p : Pencil} {f : Frame}, n < turns →
    (∀ k < n, ¬ ((penFrom dx dy sx sy p k).x = x1 ∧ (penFrom dx dy sx sy p k).y = y1)) →
      ((penFrom dx dy sx sy p n).x = x1 ∧ (penFrom dx dy sx sy p n).y = y1) →
        lineLoop color x1 y1 dx dy sx sy turns p f =
          (List.range (n + 1)).foldl
            (fun f k => f.plot color (penFrom dx dy sx sy p k).x (penFrom dx dy sx sy p k).y) f := by
  intro n
  induction n with
  | zero =>
    intro turns p f hturns _ hend
    obtain ⟨turns, rfl⟩ := Nat.exists_eq_succ_of_ne_zero (Nat.ne_of_gt hturns)
    exact if_pos hend
  | succ n ih =>
    intro turns p f hturns hbefore hend
    obtain ⟨turns, rfl⟩ := Nat.exists_eq_succ_of_ne_zero (by omega : turns ≠ 0)
    have hfirst := hbefore 0 (Nat.zero_lt_succ n)
    have hrest := ih (f := f.plot color p.x p.y) (by omega : n < turns)
      (fun k hk => by rw [← penFrom_succ]; exact hbefore (k + 1) (Nat.succ_lt_succ hk)) (by rw [← penFrom_succ]; exact hend)
    rw [List.range_succ_eq_map, List.foldl_cons, List.foldl_map]
    have hloop : lineLoop color x1 y1 dx dy sx sy (turns + 1) p f =
        lineLoop color x1 y1 dx dy sx sy turns (p.step dx dy sx sy) (f.plot color p.x p.y) := if_neg hfirst
    rw [hloop, hrest]
    simp only [penFrom_succ]
    rfl

def lineRule (a b : Nat) : Rule :=
  { x := fun e => decide (i16 (-b) ≤ i16 (2 * e)), y := fun e => decide (i16 (2 * e) ≤ i16 a) }

theorem lineRule_x (a b : Nat) (e : Int) : (lineRule a b).x e = decide (i16 (-b) ≤ i16 (2 * e)) := by
  unfold lineRule
  simp only

theorem lineRule_y (a b : Nat) (e : Int) : (lineRule a b).y e = decide (i16 (2 * e) ≤ i16 a) := by
  unfold lineRule
  simp only

def penOf (x0 y0 sx sy : Int) (a b : Nat) (c : Nat × Nat) : Pencil :=
  ⟨i16 (x0 + c.1 * sx), i16 (y0 + c.2 * sy), i16 (err a b c)⟩

variable {x0 y0 x1 y1 sx sy : Int} {a b p q k : Nat}

theorem err_move (x y : Bool) : err a b (p + x.toNat, q + y.toNat) =
    err a b (p, q) - (if x then (b : Int) else 0) + (if y then (a : Int) else 0) := by
  unfold err
  rw [off_pair, off_pair]
  cases x with
  | true =>
    cases y with
    | true =>
      rw [Bool.toNat_true, Nat.mul_succ, Nat.mul_succ, if_pos rfl, if_pos rfl]
      omega
    | false =>
      rw [Bool.toNat_true, Bool.toNat_false, Nat.mul_succ, Nat.add_zero, if_pos rfl, if_neg Bool.false_ne_true]
      omega
  | false =>
    cases y with
    | true =>
      rw [Bool.toNat_true, Bool.toNat_false, Nat.mul_succ, Nat.add_zero, if_pos rfl, if_neg Bool.false_ne_true]
      omega
    | false =>
      rw [Bool.toNat_false, Nat.add_zero, Nat.add_zero, if_neg Bool.false_ne_true, if_neg Bool.false_ne_true]
      omega

theorem i16_side (x s : Int) (p : Nat) (on : Bool) :
    i16 (x + (p + on.toNat : Nat) * s) = if on then i16 (i16 (x + p * s) + s) else i16 (x + p * s) := by
  obtain ⟨turns, hturn⟩ := i16_turn (x + p * s)
  cases on with
  | true =>
    rw [if_pos rfl, Bool.toNat_true, Int.natCast_add, Int.add_mul, Int.natCast_one, Int.one_mul]
    exact (i16_congr (by omega : i16 (x + p * s) + s = x + (p * s + s) + 65536 * turns)).symm
  | false =>
    rw [if_neg Bool.false_ne_true, Bool.toNat_false, Nat.add_zero]

theorem penOf_step (c : Nat × Nat) : (penOf x0 y0 sx sy a b c).step (i16 a) (i16 (-b)) sx sy =
    penOf x0 y0 sx sy a b (Bresenham.move (lineRule a b) a b c) := by
  obtain ⟨p, q⟩ := c
  have he2 : i16 (2 * i16 (err a b (p, q))) = i16 (2 * err a b (p, q)) := by
    obtain ⟨turns, hturn⟩ := i16_turn (err a b (p, q))
    exact i16_congr (by omega : 2 * i16 (err a b (p, q)) = 2 * err a b (p, q) + 65536 * (2 * turns))
  have hb : ∀ e : Int, i16 (i16 e + i16 (-b)) = i16 (e - b) := fun e => i16_add e (-b)
  have ha : ∀ e : Int, i16 (i16 e + i16 a) = i16 (e + a) := fun e => i16_add e a
  unfold Bresenham.move penOf Pencil.step
  dsimp only
  rw [err_move, i16_side, i16_side, he2]
  by_cases hx : i16 (-b) ≤ i16 (2 * err a b (p, q))
  · have hxtrue : (lineRule a b).x (err a b (p, q)) = true := by rw [lineRule_x, decide_eq_true hx]
    rw [hxtrue, if_pos hx, if_pos rfl, if_pos rfl]
    by_cases hy : i16 (2 * err a b (p, q)) ≤ i16 a
    · have hytrue : (lineRule a b).y (err a b (p, q)) = true := by rw [lineRule_y, decide_eq_true hy]
      rw [hytrue, if_pos hy, if_pos rfl, if_pos rfl, hb, ha]
    · have hyfalse : (lineRule a b).y (err a b (p, q)) = false := by rw [lineRule_y, decide_eq_false hy]
      rw [hyfalse, if_neg hy, if_neg Bool.false_ne_true, if_neg Bool.false_ne_true, hb, Int.add_zero]
  · have hxfalse : (lineRule a b).x (err a b (p, q)) = false := by rw [lineRule_x, decide_eq_false hx]
    rw [hxfalse, if_neg hx, if_neg Bool.false_ne_true, if_neg Bool.false_ne_true, Int.sub_zero]
    by_cases hy : i16 (2 * err a b (p, q)) ≤ i16 a
    · have hytrue : (lineRule a b).y (err a b (p, q)) = true := by rw [lineRule_y, decide_eq_true hy]
      rw [hytrue, if_pos hy, if_pos rfl, if_pos rfl, ha]
    · have hyfalse : (lineRule a b).y (err a b (p, q)) = false := by rw [lineRule_y, decide_eq_false hy]
      rw [hyfalse, if_neg hy, if_neg Bool.false_ne_true, if_neg Bool.false_ne_true, Int.add_zero]

def lineSide (u0 u1 : Int) : Nat := (i16 u1 - i16 u0).natAbs

def lineSign (u0 u1 : Int) : Int := if i16 u0 < i16 u1 then 1 else -1

/-- The pencil of `LINE_TO_Y` after some turns. -/
def linePen (x0 y0 x1 y1 : Int) (k : Nat) : Pencil :=
  penFrom (i16 (lineSide x0 x1)) (i16 (-(lineSide y0 y1 : Int))) (lineSign x0 x1) (lineSign y0 y1)
    ⟨i16 x0, i16 y0, i16 (i16 (lineSide x0 x1) + i16 (-(lineSide y0 y1 : Int)))⟩ k

def AtTarget (x1 y1 : Int) (p : Pencil) : Prop := p.x = i16 x1 ∧ p.y = i16 y1

/-- `max(|x1-x0|, |y1-y0|)`. -/
def lineSteps (x0 y0 x1 y1 : Int) : Nat := max (lineSide x0 x1) (lineSide y0 y1)

/-- Within half a unit of the segment, in the direction of `v`. -/
def NearMajor (u0 v0 u1 v1 u v : Int) : Prop :=
  min u0 u1 ≤ u ∧ u ≤ max u0 u1 ∧ (2 * ((v - v0) * (u1 - u0) - (u - u0) * (v1 - v0))).natAbs ≤ (u1 - u0).natAbs

/-- Within half a pixel of the ideal segment, in the minor direction. -/
def NearLine (x0 y0 x1 y1 x y : Int) : Prop :=
  if (y1 - y0).natAbs ≤ (x1 - x0).natAbs then NearMajor x0 y0 x1 y1 x y else NearMajor y0 x0 y1 x1 y x

structure LineDrawn (x0 y0 x1 y1 : Int) : Prop where
  plots : ∀ turns color f, lineSteps x0 y0 x1 y1 < turns → line turns color x0 y0 x1 y1 f =
    (List.range (lineSteps x0 y0 x1 y1 + 1)).foldl
      (fun f k => f.plot color (linePen x0 y0 x1 y1 k).x (linePen x0 y0 x1 y1 k).y) f
  before : ∀ k < lineSteps x0 y0 x1 y1, ¬ AtTarget x1 y1 (linePen x0 y0 x1 y1 k)
  ends : AtTarget x1 y1 (linePen x0 y0 x1 y1 (lineSteps x0 y0 x1 y1))
  near : ∀ k ≤ lineSteps x0 y0 x1 y1,
    NearLine (i16 x0) (i16 y0) (i16 x1) (i16 y1) (linePen x0 y0 x1 y1 k).x (linePen x0 y0 x1 y1 k).y

theorem linePen_walk (x0 y0 x1 y1 : Int) (k : Nat) : linePen x0 y0 x1 y1 k =
    penOf (i16 x0) (i16 y0) (lineSign x0 x1) (lineSign y0 y1) (lineSide x0 x1) (lineSide y0 y1)
      (walk (lineRule (lineSide x0 x1) (lineSide y0 y1)) (lineSide x0 x1) (lineSide y0 y1) k) := by
  induction k with
  | zero =>
    have herr : err (lineSide x0 x1) (lineSide y0 y1) (0, 0) = lineSide x0 x1 + -(lineSide y0 y1 : Int) := by
      unfold err
      rw [off_pair]
      omega
    show Pencil.mk _ _ _ = Pencil.mk (i16 (i16 x0 + (0 : Nat) * _)) (i16 (i16 y0 + (0 : Nat) * _)) (i16 (err _ _ (0, 0)))
    rw [herr, i16_add, Int.natCast_zero, Int.zero_mul, Int.zero_mul, Int.add_zero, Int.add_zero, i16_i16, i16_i16]
  | succ k ih =>
    have hstep := congrArg (Pencil.step (i16 (lineSide x0 x1)) (i16 (-(lineSide y0 y1 : Int))) (lineSign x0 x1)
      (lineSign y0 y1)) ih
    rw [penOf_step] at hstep
    exact hstep

theorem side_sign (u0 u1 : Int) : i16 u1 = i16 u0 + lineSide u0 u1 * lineSign u0 u1 := by
  unfold lineSide lineSign
  split
  · omega
  · omega

theorem sign_cases (u0 u1 : Int) : lineSign u0 u1 = 1 ∨ lineSign u0 u1 = -1 := by
  unfold lineSign
  split
  · exact .inl rfl
  · exact .inr rfl

theorem coordinate_eq {u0 u1 : Int} (hp : p ≤ lineSide u0 u1) :
    i16 (i16 u0 + p * lineSign u0 u1) = i16 u0 + p * lineSign u0 u1 := by
  have h0 := i16_range u0
  have h1 := i16_range u1
  have hside := side_sign u0 u1
  rcases sign_cases u0 u1 with hs | hs
  · rw [hs, Int.mul_one] at hside ⊢
    exact i16_eq (by omega) (by omega)
  · rw [hs] at hside ⊢
    exact i16_eq (by omega) (by omega)

theorem coordinate_end {u0 u1 : Int} (hp : p ≤ lineSide u0 u1) :
    i16 (i16 u0 + p * lineSign u0 u1) = i16 u1 ↔ p = lineSide u0 u1 := by
  have hside := side_sign u0 u1
  rw [coordinate_eq hp]
  rcases sign_cases u0 u1 with hs | hs
  · rw [hs] at hside ⊢
    omega
  · rw [hs] at hside ⊢
    omega

theorem coordinate_turn {u0 u1 : Int} (q : Nat) : ∃ turns : Int,
    i16 (i16 u0 + q * lineSign u0 u1) = i16 u0 + (q + 65536 * turns) * lineSign u0 u1 := by
  obtain ⟨turns, hturn⟩ := i16_turn (i16 u0 + q * lineSign u0 u1)
  rcases sign_cases u0 u1 with hs | hs
  · rw [hs] at hturn ⊢
    exact ⟨turns, by omega⟩
  · rw [hs] at hturn ⊢
    exact ⟨-turns, by omega⟩

variable {u0 v0 u1 v1 : Int}

theorem near_off {r : Int} : (2 * (((i16 v0 + r * lineSign v0 v1) - i16 v0) * (i16 u1 - i16 u0) -
    ((i16 u0 + p * lineSign u0 u1) - i16 u0) * (i16 v1 - i16 v0))).natAbs =
      (2 * (lineSide u0 u1 * r - lineSide v0 v1 * p)).natAbs := by
  have hu : i16 u1 - i16 u0 = lineSide u0 u1 * lineSign u0 u1 := by
    have := side_sign u0 u1
    omega
  have hv : i16 v1 - i16 v0 = lineSide v0 v1 * lineSign v0 v1 := by
    have := side_sign v0 v1
    omega
  have hfactor : 2 * (((i16 v0 + r * lineSign v0 v1) - i16 v0) * (lineSide u0 u1 * lineSign u0 u1) -
      ((i16 u0 + p * lineSign u0 u1) - i16 u0) * (lineSide v0 v1 * lineSign v0 v1)) =
        2 * (lineSide u0 u1 * r - lineSide v0 v1 * p) * (lineSign u0 u1 * lineSign v0 v1) := by
    ring
  rw [hu, hv, hfactor, Int.natAbs_mul, Int.natAbs_mul]
  rcases sign_cases u0 u1 with hs | hs
  · rcases sign_cases v0 v1 with ht | ht
    · rw [hs, ht]
      exact Nat.mul_one _
    · rw [hs, ht]
      exact Nat.mul_one _
  · rcases sign_cases v0 v1 with ht | ht
    · rw [hs, ht]
      exact Nat.mul_one _
    · rw [hs, ht]
      exact Nat.mul_one _

theorem nearMod_of_major (hp : p ≤ lineSide u0 u1)
    (h : NearMajor (i16 u0) (i16 v0) (i16 u1) (i16 v1) (i16 (i16 u0 + p * lineSign u0 u1)) (i16 (i16 v0 + q * lineSign v0 v1))) :
    NearMod 65536 (lineSide u0 u1) (lineSide v0 v1) (p, q) := by
  obtain ⟨turns, hturn⟩ := @coordinate_turn v0 v1 q
  obtain ⟨-, -, hnear⟩ := h
  rw [coordinate_eq hp, hturn, near_off] at hnear
  have hoff : (lineSide u0 u1 : Int) * (q + 65536 * turns) - lineSide v0 v1 * p =
      off (lineSide u0 u1) (lineSide v0 v1) (p, q) + lineSide u0 u1 * ((65536 : Nat) * turns) := by
    rw [off_pair]
    push_cast
    ring
  rw [hoff] at hnear
  change _ ≤ lineSide u0 u1 at hnear
  exact ⟨turns, by omega, by omega⟩

theorem major_of_near (hp : p ≤ lineSide u0 u1) (hq : q ≤ lineSide v0 v1)
    (h : Near (lineSide u0 u1) (lineSide v0 v1) (p, q)) :
    NearMajor (i16 u0) (i16 v0) (i16 u1) (i16 v1) (i16 (i16 u0 + p * lineSign u0 u1)) (i16 (i16 v0 + q * lineSign v0 v1)) := by
  have hside := side_sign u0 u1
  have hoff : (lineSide u0 u1 : Int) * q - lineSide v0 v1 * p = off (lineSide u0 u1) (lineSide v0 v1) (p, q) := by
    rw [off_pair]
    push_cast
    rfl
  obtain ⟨hlo, hhi⟩ := h
  rw [coordinate_eq hp, coordinate_eq hq]
  refine ⟨?_, ?_, ?_⟩
  · rcases sign_cases u0 u1 with hs | hs
    · rw [hs] at hside ⊢
      omega
    · rw [hs] at hside ⊢
      omega
  · rcases sign_cases u0 u1 with hs | hs
    · rw [hs] at hside ⊢
      omega
    · rw [hs] at hside ⊢
      omega
  · rw [near_off, hoff]
    show _ ≤ lineSide u0 u1
    omega

def TestsAgree (x0 y0 x1 y1 : Int) : Prop :=
  ∀ k < lineSteps x0 y0 x1 y1, Agrees (lineRule (lineSide x0 x1) (lineSide y0 y1)) (lineSide x0 x1) (lineSide y0 y1) k

theorem atTarget_walk (x0 y0 x1 y1 : Int) (k : Nat) : AtTarget x1 y1 (linePen x0 y0 x1 y1 k) ↔
    AtTarget x1 y1 (penOf (i16 x0) (i16 y0) (lineSign x0 x1) (lineSign y0 y1) (lineSide x0 x1) (lineSide y0 y1)
      (walk (lineRule (lineSide x0 x1) (lineSide y0 y1)) (lineSide x0 x1) (lineSide y0 y1) k)) := by
  rw [linePen_walk]

theorem line_plots {x0 y0 x1 y1 : Int}
    (hbefore : ∀ k < lineSteps x0 y0 x1 y1, ¬ AtTarget x1 y1 (linePen x0 y0 x1 y1 k))
    (hend : AtTarget x1 y1 (linePen x0 y0 x1 y1 (lineSteps x0 y0 x1 y1))) (turns : Nat) (color : Byte) (f : Frame)
    (hturns : lineSteps x0 y0 x1 y1 < turns) : line turns color x0 y0 x1 y1 f =
      (List.range (lineSteps x0 y0 x1 y1 + 1)).foldl
        (fun f k => f.plot color (linePen x0 y0 x1 y1 k).x (linePen x0 y0 x1 y1 k).y) f :=
  lineLoop_plots hturns hbefore hend

theorem drawn_columns {x0 y0 x1 y1 : Int} (hmajor : lineSide y0 y1 ≤ lineSide x0 x1) (h : TestsAgree x0 y0 x1 y1) :
    LineDrawn x0 y0 x1 y1 := by
  have hsteps : lineSteps x0 y0 x1 y1 = lineSide x0 x1 := Nat.max_eq_left hmajor
  have hwalk : ∀ k ≤ lineSide x0 x1, walk (lineRule (lineSide x0 x1) (lineSide y0 y1)) (lineSide x0 x1) (lineSide y0 y1) k =
      walk (exact (lineSide x0 x1) (lineSide y0 y1)) (lineSide x0 x1) (lineSide y0 y1) k := by
    apply walk_agrees
    intro k hk
    exact h k (by rw [hsteps]; exact hk)
  have hbefore : ∀ k < lineSteps x0 y0 x1 y1, ¬ AtTarget x1 y1 (linePen x0 y0 x1 y1 k) := by
    intro k hk hat
    rw [hsteps] at hk
    rw [atTarget_walk, hwalk k (Nat.le_of_lt hk)] at hat
    have hcolumn := (exact_walk hmajor k).1
    have hp := (coordinate_end (by omega)).mp hat.1
    omega
  have hend : AtTarget x1 y1 (linePen x0 y0 x1 y1 (lineSteps x0 y0 x1 y1)) := by
    rw [hsteps, atTarget_walk, hwalk _ (Nat.le_refl _), exact_ends hmajor]
    exact ⟨(coordinate_end (Nat.le_refl _)).mpr rfl, (coordinate_end (Nat.le_refl _)).mpr rfl⟩
  constructor
  · exact line_plots hbefore hend
  · exact hbefore
  · exact hend
  · intro k hk
    rw [hsteps] at hk
    obtain ⟨hcolumn, hnear⟩ := exact_walk hmajor k
    have hrow := exact_within hmajor hk
    rw [linePen_walk, hwalk k hk]
    unfold NearLine
    rw [if_pos (by exact hmajor)]
    exact major_of_near (by omega) hrow hnear

theorem drawn_rows {x0 y0 x1 y1 : Int} (hmajor : lineSide x0 x1 < lineSide y0 y1) (h : TestsAgree x0 y0 x1 y1) :
    LineDrawn x0 y0 x1 y1 := by
  have hsteps : lineSteps x0 y0 x1 y1 = lineSide y0 y1 := Nat.max_eq_right (Nat.le_of_lt hmajor)
  have hwalk : ∀ k ≤ lineSide y0 y1, walk (lineRule (lineSide x0 x1) (lineSide y0 y1)) (lineSide x0 x1) (lineSide y0 y1) k =
      (walk (exact (lineSide y0 y1) (lineSide x0 x1)) (lineSide y0 y1) (lineSide x0 x1) k).swap := by
    intro k hk
    rw [← exact_swapped]
    apply walk_agrees _ k hk
    intro k hk
    exact h k (by rw [hsteps]; exact hk)
  have hbefore : ∀ k < lineSteps x0 y0 x1 y1, ¬ AtTarget x1 y1 (linePen x0 y0 x1 y1 k) := by
    intro k hk hat
    rw [hsteps] at hk
    rw [atTarget_walk, hwalk k (Nat.le_of_lt hk)] at hat
    have hrow := (exact_walk (Nat.le_of_lt hmajor) k).1
    have hp := (coordinate_end (Nat.le_trans (Nat.le_of_eq hrow) (Nat.le_of_lt hk))).mp hat.2
    exact absurd (hrow.symm.trans hp) (Nat.ne_of_lt hk)
  have hend : AtTarget x1 y1 (linePen x0 y0 x1 y1 (lineSteps x0 y0 x1 y1)) := by
    rw [hsteps, atTarget_walk, hwalk _ (Nat.le_refl _), exact_ends (Nat.le_of_lt hmajor)]
    exact ⟨(coordinate_end (Nat.le_refl _)).mpr rfl, (coordinate_end (Nat.le_refl _)).mpr rfl⟩
  constructor
  · exact line_plots hbefore hend
  · exact hbefore
  · exact hend
  · intro k hk
    rw [hsteps] at hk
    obtain ⟨hrow, hnear⟩ := exact_walk (Nat.le_of_lt hmajor) k
    have hcolumn := exact_within (Nat.le_of_lt hmajor) hk
    rw [linePen_walk, hwalk k hk]
    unfold NearLine
    rw [if_neg (by exact Nat.not_le.mpr hmajor)]
    exact major_of_near (Nat.le_trans (Nat.le_of_eq hrow) hk) hcolumn hnear

theorem lineRule_tie (a b : Nat) (e : Int) (h : 2 * e = a) : (lineRule a b).y e = true := by
  rw [lineRule_y, h]
  exact decide_eq_true (Int.le_refl _)

theorem lineRule_swap_tie (a b : Nat) (e : Int) (h : 2 * e = b) : (lineRule a b).swap.y e = true := by
  have hneg : 2 * -e = -(b : Int) := by omega
  show (lineRule a b).x (-e) = true
  rw [lineRule_x, hneg]
  exact decide_eq_true (Int.le_refl _)

theorem walk_first (rule : Rule) (a b k : Nat) : (walk rule a b k).1 ≤ k := by
  have hle := walk_le rule a b 0 k
  rw [Nat.zero_add] at hle
  exact Nat.le_trans hle (Nat.le_of_eq (Nat.zero_add k))

theorem agree_columns {x0 y0 x1 y1 : Int} (hmajor : lineSide y0 y1 ≤ lineSide x0 x1) (h : LineDrawn x0 y0 x1 y1) :
    TestsAgree x0 y0 x1 y1 := by
  have hsteps : lineSteps x0 y0 x1 y1 = lineSide x0 x1 := Nat.max_eq_left hmajor
  have hend := h.ends
  rw [hsteps, atTarget_walk] at hend
  have hlast := (coordinate_end (walk_first _ _ _ _)).mp hend.1
  have hnear : ∀ k ≤ lineSide x0 x1, NearMod 65536 (lineSide x0 x1) (lineSide y0 y1)
      (walk (lineRule (lineSide x0 x1) (lineSide y0 y1)) (lineSide x0 x1) (lineSide y0 y1) k) := by
    intro k hk
    have hline := h.near k (by rw [hsteps]; exact hk)
    rw [linePen_walk] at hline
    unfold NearLine at hline
    rw [if_pos (by exact hmajor)] at hline
    exact nearMod_of_major (Nat.le_trans (walk_first _ _ _ _) hk) hline
  intro k hk
  rw [hsteps] at hk
  exact agrees_of_near hmajor (by decide) (lineRule_tie _ _) hlast hnear k hk

theorem agree_rows {x0 y0 x1 y1 : Int} (hmajor : lineSide x0 x1 < lineSide y0 y1) (h : LineDrawn x0 y0 x1 y1) :
    TestsAgree x0 y0 x1 y1 := by
  have hsteps : lineSteps x0 y0 x1 y1 = lineSide y0 y1 := Nat.max_eq_right (Nat.le_of_lt hmajor)
  have hsecond : ∀ k, (walk (lineRule (lineSide x0 x1) (lineSide y0 y1)) (lineSide x0 x1) (lineSide y0 y1) k).2 ≤ k := by
    intro k
    have hfirst := walk_first (lineRule (lineSide x0 x1) (lineSide y0 y1)).swap (lineSide y0 y1) (lineSide x0 x1) k
    rw [walk_swap] at hfirst
    exact hfirst
  have hend := h.ends
  rw [hsteps, atTarget_walk] at hend
  have hlast := (coordinate_end (hsecond _)).mp hend.2
  have hnear : ∀ k ≤ lineSide y0 y1, NearMod 65536 (lineSide y0 y1) (lineSide x0 x1)
      (walk (lineRule (lineSide x0 x1) (lineSide y0 y1)).swap (lineSide y0 y1) (lineSide x0 x1) k) := by
    intro k hk
    have hline := h.near k (by rw [hsteps]; exact hk)
    rw [linePen_walk] at hline
    unfold NearLine at hline
    rw [if_neg (by exact Nat.not_le.mpr hmajor)] at hline
    rw [walk_swap]
    exact nearMod_of_major (Nat.le_trans (hsecond k) hk) hline
  intro k hk
  rw [hsteps] at hk
  rw [← agrees_swap]
  exact agrees_of_near (Nat.le_of_lt hmajor) (by decide) (lineRule_swap_tie _ _) (by rw [walk_swap]; exact hlast) hnear k hk

inductive Adrift : Pencil → Prop
  | first (m : Int) : Adrift ⟨i16 (2 * m), i16 (-(4 * m)), 16384⟩
  | second (m : Int) : Adrift ⟨i16 (2 * m), i16 (-(4 * m) - 1), -32768⟩
  | third (m : Int) : Adrift ⟨i16 (2 * m + 1), i16 (-(4 * m) - 2), -16384⟩
  | fourth (m : Int) : Adrift ⟨i16 (2 * m + 1), i16 (-(4 * m) - 3), 0⟩

theorem step_row {u v e r : Int} (hx : ¬ 0 ≤ i16 (2 * e)) (hy : i16 (2 * e) ≤ 16384) (hr : i16 (e + 16384) = r) :
    (Pencil.mk u (i16 v) e).step 16384 0 1 (-1) = ⟨u, i16 (v - 1), r⟩ := by
  have hrow : i16 (i16 v + -1) = i16 (v - 1) := by
    obtain ⟨turns, hturn⟩ := i16_turn v
    exact i16_congr (by omega : i16 v + -1 = v - 1 + 65536 * turns)
  unfold Pencil.step
  dsimp only
  rw [if_neg hx, if_pos hy]
  rw [hrow, hr]

theorem step_both {u v e r : Int} (hx : 0 ≤ i16 (2 * e)) (hy : i16 (2 * e) ≤ 16384) (hr : i16 (i16 (e + 0) + 16384) = r) :
    (Pencil.mk (i16 u) (i16 v) e).step 16384 0 1 (-1) = ⟨i16 (u + 1), i16 (v - 1), r⟩ := by
  have hcolumn : i16 (i16 u + 1) = i16 (u + 1) := by
    obtain ⟨turns, hturn⟩ := i16_turn u
    exact i16_congr (by omega : i16 u + 1 = u + 1 + 65536 * turns)
  have hrow : i16 (i16 v + -1) = i16 (v - 1) := by
    obtain ⟨turns, hturn⟩ := i16_turn v
    exact i16_congr (by omega : i16 v + -1 = v - 1 + 65536 * turns)
  unfold Pencil.step
  dsimp only
  rw [if_pos hx]
  rw [if_pos hy]
  rw [hcolumn, hrow, hr]

theorem adrift_step {p : Pencil} (h : Adrift p) : Adrift (p.step 16384 0 1 (-1)) := by
  cases h with
  | first m =>
    rw [step_row (by decide +kernel) (by decide +kernel) (by decide +kernel : i16 (16384 + 16384) = -32768)]
    exact .second m
  | second m =>
    rw [step_both (by decide +kernel) (by decide +kernel) (by decide +kernel : i16 (i16 (-32768 + 0) + 16384) = -16384)]
    have hrow : -(4 * m) - 1 - 1 = -(4 * m) - 2 := by omega
    rw [hrow]
    exact .third m
  | third m =>
    rw [step_row (by decide +kernel) (by decide +kernel) (by decide +kernel : i16 (-16384 + 16384) = 0)]
    have hrow : -(4 * m) - 2 - 1 = -(4 * m) - 3 := by omega
    rw [hrow]
    exact .fourth m
  | fourth m =>
    rw [step_both (by decide +kernel) (by decide +kernel) (by decide +kernel : i16 (i16 (0 + 0) + 16384) = 16384)]
    have hcolumn : 2 * m + 1 + 1 = 2 * (m + 1) := by omega
    have hrow : -(4 * m) - 3 - 1 = -(4 * (m + 1)) := by omega
    rw [hcolumn, hrow]
    exact .first (m + 1)

theorem adrift_pen (k : Nat) : Adrift (linePen 0 0 16384 0 k) := by
  induction k with
  | zero => exact .first 0
  | succ k ih => exact adrift_step ih

theorem adrift_misses {p : Pencil} (h : Adrift p) : ¬ AtTarget 16384 0 p := by
  rintro ⟨hx, hy⟩
  have hcolumn : i16 16384 = 16384 := i16_eq (by decide) (by decide)
  have hrow : i16 0 = 0 := i16_eq (by decide) (by decide)
  rw [hcolumn] at hx
  rw [hrow] at hy
  cases h with
  | first m =>
    obtain ⟨s, hs⟩ := i16_turn (2 * m)
    obtain ⟨t, ht⟩ := i16_turn (-(4 * m))
    dsimp only at hx hy
    omega
  | second m =>
    obtain ⟨t, ht⟩ := i16_turn (-(4 * m) - 1)
    dsimp only at hy
    omega
  | third m =>
    obtain ⟨t, ht⟩ := i16_turn (-(4 * m) - 2)
    dsimp only at hy
    omega
  | fourth m =>
    obtain ⟨t, ht⟩ := i16_turn (-(4 * m) - 3)
    dsimp only at hy
    omega

/-- The line of 16384 columns never comes to its end. -/
theorem line_hangs : ¬ LineDrawn 0 0 16384 0 ∧ ¬ ∃ k, AtTarget 16384 0 (linePen 0 0 16384 0 k) := by
  refine ⟨fun h => ?_, ?_⟩
  · exact adrift_misses (adrift_pen _) h.ends
  · rintro ⟨k, hk⟩
    exact adrift_misses (adrift_pen k) hk

/-- The line is drawn where the tests agree with the exact ones, and only there. -/
theorem line_drawn_iff (x0 y0 x1 y1 : Int) : LineDrawn x0 y0 x1 y1 ↔ TestsAgree x0 y0 x1 y1 := by
  rcases Nat.lt_or_ge (lineSide x0 x1) (lineSide y0 y1) with hrows | hcolumns
  · exact ⟨agree_rows hrows, drawn_rows hrows⟩
  · exact ⟨agree_columns hcolumns, drawn_columns hcolumns⟩

end Frame

end GSSquared.Gpu
