/-
Lines on a grid. A walk goes `a` columns and `b` rows.
-/

set_option linter.all false

namespace GSSquared.Bresenham

structure Rule where
  x : Int → Bool
  y : Int → Bool

def exact (a b : Nat) : Rule := { x := fun e => decide (-b ≤ 2 * e), y := fun e => decide (2 * e ≤ a) }

def off (a b : Nat) (c : Nat × Nat) : Int := (a * c.2 : Nat) - (b * c.1 : Nat)

def err (a b : Nat) (c : Nat × Nat) : Int := off a b c + a - b

def move (rule : Rule) (a b : Nat) (c : Nat × Nat) : Nat × Nat :=
  (c.1 + (rule.x (err a b c)).toNat, c.2 + (rule.y (err a b c)).toNat)

def walk (rule : Rule) (a b : Nat) : Nat → Nat × Nat
  | 0 => (0, 0)
  | k + 1 => move rule a b (walk rule a b k)

def Agrees (rule : Rule) (a b k : Nat) : Prop :=
  rule.x (err a b (walk (exact a b) a b k)) = (exact a b).x (err a b (walk (exact a b) a b k)) ∧
    rule.y (err a b (walk (exact a b) a b k)) = (exact a b).y (err a b (walk (exact a b) a b k))

instance (rule : Rule) (a b k : Nat) : Decidable (Agrees rule a b k) := inferInstanceAs (Decidable (_ ∧ _))

variable {rule : Rule} {a b p q k n : Nat}

theorem off_pair : off a b (p, q) = (a * q : Nat) - (b * p : Nat) := rfl

theorem off_move (y : Bool) : off a b (p + 1, q + y.toNat) = off a b (p, q) - b + (if y then (a : Int) else 0) := by
  cases y with
  | true =>
    rw [Bool.toNat_true, off_pair, off_pair, Nat.mul_succ, Nat.mul_succ, if_pos rfl]
    omega
  | false =>
    rw [Bool.toNat_false, off_pair, off_pair, Nat.mul_succ, if_neg Bool.false_ne_true, Nat.add_zero]
    omega

def Near (a b : Nat) (c : Nat × Nat) : Prop := -a ≤ 2 * off a b c ∧ 2 * off a b c ≤ a

theorem exact_step (h : b ≤ a) (hnear : Near a b (p, q)) : (move (exact a b) a b (p, q)).1 = p + 1 ∧
    Near a b (move (exact a b) a b (p, q)) := by
  obtain ⟨hlo, hhi⟩ := hnear
  have hx : (exact a b).x (err a b (p, q)) = true := by
    apply decide_eq_true
    unfold err
    omega
  have hmove : move (exact a b) a b (p, q) = (p + 1, q + ((exact a b).y (err a b (p, q))).toNat) := by
    unfold move
    rw [hx]
    rfl
  rw [hmove]
  refine ⟨rfl, ?_⟩
  unfold Near
  rw [off_move]
  by_cases hy : 2 * err a b (p, q) ≤ a
  · have hyes : (exact a b).y (err a b (p, q)) = true := decide_eq_true hy
    rw [hyes, if_pos rfl]
    unfold err at hy
    omega
  · have hno : (exact a b).y (err a b (p, q)) = false := decide_eq_false hy
    rw [hno, if_neg Bool.false_ne_true]
    unfold err at hy
    omega

theorem exact_walk (h : b ≤ a) (k : Nat) : (walk (exact a b) a b k).1 = k ∧ Near a b (walk (exact a b) a b k) := by
  induction k with
  | zero =>
    have hzero : off a b (0, 0) = 0 := by
      rw [off_pair]
      omega
    refine ⟨rfl, ?_⟩
    show -(a : Int) ≤ 2 * off a b (0, 0) ∧ 2 * off a b (0, 0) ≤ a
    omega
  | succ k ih =>
    obtain ⟨hcolumn, hnear⟩ := ih
    obtain ⟨hnext, hstill⟩ := exact_step h hnear
    exact ⟨hnext.trans (congrArg Nat.succ hcolumn), hstill⟩

theorem exact_ends (h : b ≤ a) : walk (exact a b) a b a = (a, b) := by
  rcases Nat.eq_zero_or_pos a with rfl | hpos
  · rw [Nat.le_zero.mp h]
    rfl
  obtain ⟨hcolumn, hlo, hhi⟩ := exact_walk h a
  generalize walk (exact a b) a b a = c at hcolumn hlo hhi
  obtain ⟨p, q⟩ := c
  change p = a at hcolumn
  subst hcolumn
  rw [off_pair, Nat.mul_comm b p] at hlo hhi
  rcases Nat.lt_trichotomy q b with hless | rfl | hmore
  · have hmul := Nat.mul_le_mul_left p (Nat.succ_le_of_lt hless)
    rw [Nat.mul_succ] at hmul
    omega
  · rfl
  · have hmul := Nat.mul_le_mul_left p (Nat.succ_le_of_lt hmore)
    rw [Nat.mul_succ] at hmul
    omega

theorem walk_mono (rule : Rule) (a b k n : Nat) :
    (walk rule a b k).1 ≤ (walk rule a b (k + n)).1 ∧ (walk rule a b k).2 ≤ (walk rule a b (k + n)).2 := by
  induction n with
  | zero => exact ⟨Nat.le_refl _, Nat.le_refl _⟩
  | succ n ih => exact ⟨Nat.le_trans ih.1 (Nat.le_add_right _ _), Nat.le_trans ih.2 (Nat.le_add_right _ _)⟩

theorem exact_within (h : b ≤ a) (hk : k ≤ a) : (walk (exact a b) a b k).2 ≤ b := by
  have hmono := (walk_mono (exact a b) a b k (a - k)).2
  have hsum : k + (a - k) = a := by omega
  rw [hsum, exact_ends h] at hmono
  exact hmono

/-- Columns for rows. -/
def Rule.swap (rule : Rule) : Rule := { x := fun e => rule.y (-e), y := fun e => rule.x (-e) }

theorem exact_swap (a b : Nat) : (exact a b).swap = exact b a := by
  have hx : (exact a b).swap.x = (exact b a).x := by
    funext e
    exact decide_eq_decide.mpr ⟨fun h => by omega, fun h => by omega⟩
  have hy : (exact a b).swap.y = (exact b a).y := by
    funext e
    exact decide_eq_decide.mpr ⟨fun h => by omega, fun h => by omega⟩
  show Rule.mk (exact a b).swap.x (exact a b).swap.y = _
  rw [hx, hy]

theorem off_swap (c : Nat × Nat) : off b a c.swap = -off a b c := by
  unfold off
  show ((b * c.1 : Nat) : Int) - (a * c.2 : Nat) = _
  omega

theorem err_swap (c : Nat × Nat) : err b a c.swap = -err a b c := by
  unfold err
  rw [off_swap]
  omega

theorem walk_swap (rule : Rule) (a b k : Nat) : walk rule.swap b a k = (walk rule a b k).swap := by
  induction k with
  | zero => rfl
  | succ k ih =>
    show move rule.swap b a (walk rule.swap b a k) = (move rule a b (walk rule a b k)).swap
    unfold move
    rw [ih, err_swap]
    show (_ + (rule.y (- -err a b (walk rule a b k))).toNat, _ + (rule.x (- -err a b (walk rule a b k))).toNat) = _
    rw [Int.neg_neg]
    rfl

theorem exact_swapped (a b k : Nat) : walk (exact a b) a b k = (walk (exact b a) b a k).swap := by
  have hwalk := walk_swap (exact b a) b a k
  rw [exact_swap] at hwalk
  exact hwalk

theorem agrees_swap : Agrees rule.swap b a k ↔ Agrees rule a b k := by
  unfold Agrees
  rw [← exact_swap, walk_swap, err_swap]
  show rule.y (- -err a b (walk (exact a b) a b k)) = (exact a b).y (- -err a b (walk (exact a b) a b k)) ∧
    rule.x (- -err a b (walk (exact a b) a b k)) = (exact a b).x (- -err a b (walk (exact a b) a b k)) ↔ _
  rw [Int.neg_neg]
  exact and_comm

theorem walk_agrees (h : ∀ k < n, Agrees rule a b k) : ∀ k ≤ n, walk rule a b k = walk (exact a b) a b k := by
  intro k
  induction k with
  | zero => exact fun _ => rfl
  | succ k ih =>
    intro hk
    obtain ⟨hx, hy⟩ := h k hk
    show move rule a b (walk rule a b k) = move (exact a b) a b (walk (exact a b) a b k)
    rw [ih (Nat.le_of_succ_le hk)]
    unfold move
    rw [hx, hy]

theorem walk_le (rule : Rule) (a b k n : Nat) : (walk rule a b (k + n)).1 ≤ (walk rule a b k).1 + n := by
  induction n with
  | zero => exact Nat.le_refl _
  | succ n ih =>
    have hone := Bool.toNat_le (rule.x (err a b (walk rule a b (k + n))))
    show (walk rule a b (k + n)).1 + (rule.x (err a b (walk rule a b (k + n)))).toNat ≤ _
    omega

theorem goes_on (hend : (walk rule a b n).1 = n) (hk : k < n) (hhere : (walk rule a b k).1 = k) :
    rule.x (err a b (walk rule a b k)) = true := by
  have hrest := walk_le rule a b (k + 1) (n - (k + 1))
  have hsum : k + 1 + (n - (k + 1)) = n := by omega
  rw [hsum, hend] at hrest
  change n ≤ (walk rule a b k).1 + (rule.x (err a b (walk rule a b k))).toNat + (n - (k + 1)) at hrest
  cases hx : rule.x (err a b (walk rule a b k)) with
  | true => rfl
  | false =>
    rw [hx, Bool.toNat_false] at hrest
    omega

/-- Within half a unit, where rows are counted modulo `m`. -/
def NearMod (m a b : Nat) (c : Nat × Nat) : Prop :=
  ∃ turns : Int, -a ≤ 2 * (off a b c + a * (m * turns)) ∧ 2 * (off a b c + a * (m * turns)) ≤ a

theorem turn_far {m : Nat} (hm : 3 ≤ m) (a : Nat) (turns : Int) :
    (a : Int) * (m * turns) = 0 ∨ 3 * (a : Int) ≤ a * (m * turns) ∨ a * (m * turns) ≤ -(3 * (a : Int)) := by
  have ha : (0 : Int) ≤ a := Int.natCast_nonneg a
  rcases Int.lt_trichotomy turns 0 with hneg | rfl | hpos
  · have hmul : (m : Int) * turns ≤ m * (-1) := Int.mul_le_mul_of_nonneg_left (by omega) (by omega)
    have hfar : (a : Int) * (m * turns) ≤ a * (-3) := Int.mul_le_mul_of_nonneg_left (by omega) ha
    exact .inr (.inr (by omega))
  · rw [Int.mul_zero, Int.mul_zero]
    exact .inl rfl
  · have hmul : (m : Int) * 1 ≤ m * turns := Int.mul_le_mul_of_nonneg_left (by omega) (by omega)
    have hfar : (a : Int) * 3 ≤ a * (m * turns) := Int.mul_le_mul_of_nonneg_left (by omega) ha
    exact .inr (.inl (by omega))

theorem row_agrees {m : Nat} (hm : 3 ≤ m) (hpos : 0 < a) (htie : 2 * err a b (p, q) = a → rule.y (err a b (p, q)) = true)
    (hexact : Near a b (p + 1, q + ((exact a b).y (err a b (p, q))).toNat))
    (hnear : NearMod m a b (p + 1, q + (rule.y (err a b (p, q))).toNat)) :
    rule.y (err a b (p, q)) = (exact a b).y (err a b (p, q)) := by
  obtain ⟨turns, hlo, hhi⟩ := hnear
  have hfar := turn_far hm a turns
  generalize (a : Int) * (m * turns) = far at hlo hhi hfar
  obtain ⟨hlow, hhigh⟩ := hexact
  rw [off_move] at hlo hhi hlow hhigh
  have herr : err a b (p, q) = off a b (p, q) + a - b := rfl
  by_cases hy : 2 * err a b (p, q) ≤ a
  · have hyes : (exact a b).y (err a b (p, q)) = true := decide_eq_true hy
    rw [hyes, if_pos rfl] at hlow hhigh
    cases hrule : rule.y (err a b (p, q)) with
    | true => exact hyes.symm
    | false =>
      rw [hrule, if_neg Bool.false_ne_true] at hlo hhi
      have htied := htie (by omega)
      rw [hrule] at htied
      cases htied
  · have hno : (exact a b).y (err a b (p, q)) = false := decide_eq_false hy
    rw [hno, if_neg Bool.false_ne_true] at hlow hhigh
    cases hrule : rule.y (err a b (p, q)) with
    | false => exact hno.symm
    | true =>
      rw [hrule, if_pos rfl] at hlo hhi
      omega

theorem agrees_of_near {m : Nat} (h : b ≤ a) (hm : 3 ≤ m) (htie : ∀ e : Int, 2 * e = a → rule.y e = true)
    (hend : (walk rule a b a).1 = a) (hnear : ∀ k ≤ a, NearMod m a b (walk rule a b k)) :
    ∀ k < a, Agrees rule a b k := by
  have hall : ∀ n ≤ a, ∀ k < n, Agrees rule a b k := by
    intro n
    induction n with
    | zero => exact fun _ k hk => absurd hk (Nat.not_lt_zero k)
    | succ n ih =>
      intro hn k hk
      have hbefore := ih (Nat.le_of_succ_le hn)
      rcases Nat.lt_succ_iff_lt_or_eq.mp hk with hlt | rfl
      · exact hbefore k hlt
      have hsame := walk_agrees hbefore k (Nat.le_refl k)
      obtain ⟨hcolumn, -⟩ := exact_walk h k
      have hnext := exact_walk h (k + 1)
      have hrow := hnear (k + 1) hn
      have hx := goes_on hend hn (by rw [hsame]; exact hcolumn)
      have hexact : (exact a b).x (err a b (walk (exact a b) a b k)) = true :=
        goes_on (by rw [exact_ends h]) hn hcolumn
      rw [hsame] at hx
      refine ⟨hx.trans hexact.symm, ?_⟩
      change NearMod m a b (move rule a b (walk rule a b k)) at hrow
      have hnear' : Near a b (move (exact a b) a b (walk (exact a b) a b k)) := hnext.2
      unfold move at hrow hnear'
      rw [hsame, hx] at hrow
      rw [hexact] at hnear'
      exact row_agrees hm (Nat.lt_of_lt_of_le (Nat.zero_lt_succ k) hn) (htie _) hnear' hrow
  exact hall a (Nat.le_refl a)

end GSSquared.Bresenham
