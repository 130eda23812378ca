/-
Counted loops over integers.
-/

set_option linter.all false

namespace GSSquared.Loops

section

variable {σ : Type}

/-- The body for `i` and the numbers after it, `n` in all. -/
def up (body : Int → σ → σ) : Int → Nat → σ → σ
  | _, 0, s => s
  | i, n + 1, s => up body (i + 1) n (body i s)

/-- The body for `i` and the numbers before it, `n` in all. -/
def down (body : Int → σ → σ) : Int → Nat → σ → σ
  | _, 0, s => s
  | i, n + 1, s => down body (i - 1) n (body i s)

/-- `for (i = lo; i < hi; i++)`. -/
def forUp (lo hi : Int) (body : Int → σ → σ) (s : σ) : σ := up body lo (hi - lo).toNat s

/-- `for (i = hi; i >= lo; i--)`. -/
def forDown (hi lo : Int) (body : Int → σ → σ) (s : σ) : σ := down body hi (hi - lo + 1).toNat s

variable {body : Int → σ → σ} {P : σ → Prop}

theorem up_inv {n : Nat} {i : Int} {s : σ} (hbody : ∀ j s, i ≤ j → j < i + n → P s → P (body j s)) (hs : P s) :
    P (up body i n s) := by
  induction n generalizing i s with
  | zero => exact hs
  | succ n ih =>
    apply ih
    · intro j s hlo hhi
      exact hbody j s (by omega) (by omega)
    · exact hbody i s (by omega) (by omega) hs

theorem down_inv {n : Nat} {i : Int} {s : σ} (hbody : ∀ j s, i - n < j → j ≤ i → P s → P (body j s)) (hs : P s) :
    P (down body i n s) := by
  induction n generalizing i s with
  | zero => exact hs
  | succ n ih =>
    apply ih
    · intro j s hlo hhi
      exact hbody j s (by omega) (by omega)
    · exact hbody i s (by omega) (by omega) hs

theorem forUp_inv {lo hi : Int} {s : σ} (hbody : ∀ i s, lo ≤ i → i < hi → P s → P (body i s)) (hs : P s) :
    P (forUp lo hi body s) := by
  apply up_inv
  · intro j s hlo hhi
    exact hbody j s hlo (by omega)
  · exact hs

theorem forDown_inv {hi lo : Int} {s : σ} (hbody : ∀ i s, lo ≤ i → i ≤ hi → P s → P (body i s)) (hs : P s) :
    P (forDown hi lo body s) := by
  apply down_inv
  · intro j s hlo hhi
    exact hbody j s (by omega) hhi
  · exact hs

end

end GSSquared.Loops
