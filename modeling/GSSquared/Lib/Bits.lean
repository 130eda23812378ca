/-
Bits of a byte, most significant first, and the shift register that reads them back.
-/

set_option linter.all false

namespace GSSquared.Bits

abbrev Byte := BitVec 8

-- Named, so that the literals of every module carry one proof.
theorem neZero_two : @NeZero Nat Zero.ofOfNat0 2 := ⟨by decide⟩
theorem neZero_four : @NeZero Nat Zero.ofOfNat0 4 := ⟨by decide⟩
theorem neZero_eight : @NeZero Nat Zero.ofOfNat0 8 := ⟨by decide⟩
theorem neZero_sixteen : @NeZero Nat Zero.ofOfNat0 16 := ⟨by decide⟩
theorem neZero_page : @NeZero Nat Zero.ofOfNat0 256 := ⟨by decide⟩

def msbFirst (b : Byte) : List Bool :=
  [b.getLsbD 7, b.getLsbD 6, b.getLsbD 5, b.getLsbD 4,
   b.getLsbD 3, b.getLsbD 2, b.getLsbD 1, b.getLsbD 0]

@[simp] theorem msbFirst_length (b : Byte) : (msbFirst b).length = 8 := rfl

theorem xor_toNat_lt {a b : Byte} (ha : a.toNat < 64) (hb : b.toNat < 64) :
    (a ^^^ b).toNat < 64 := by
  rw [BitVec.toNat_xor]
  exact @Nat.xor_lt_two_pow a.toNat b.toNat 6 ha hb

def shiftIn (r : Byte) (bit : Bool) : Byte :=
  (r <<< 1) ||| (BitVec.ofBool bit).setWidth 8

theorem shiftIn_zero_false : shiftIn 0 false = 0 := rfl

def latch : Byte → List Bool → Option (Byte × List Bool)
  | _, [] => none
  | r, bit :: bits =>
    if (shiftIn r bit).msb then some (shiftIn r bit, bits)
    else latch (shiftIn r bit) bits

def completed : Byte → List Bool → List Byte
  | _, [] => []
  | r, bit :: bits =>
    if (shiftIn r bit).msb then shiftIn r bit :: completed 0 bits
    else completed (shiftIn r bit) bits

theorem latch_replicate_false (k : Nat) (bits : List Bool) :
    latch 0 (List.replicate k false ++ bits) = latch 0 bits := by
  induction k with
  | zero => rfl
  | succ k ih =>
    rw [List.replicate_succ, List.cons_append, latch, shiftIn_zero_false]
    exact ih

/-- The register over the eight cells of a byte whose high bit is set: empty at
the top for seven cells, the byte at the eighth. -/
theorem shiftIn_msbFirst :
    ∀ b : Byte, b.msb = true →
      (List.range 8).all (fun i => !(((msbFirst b).take i).foldl shiftIn 0).msb) = true ∧
      (msbFirst b).foldl shiftIn 0 = b := by
  decide +kernel

theorem latch_append_of_clear (r : Byte) (front bits : List Bool)
    (h : ∀ i, 0 < i → i ≤ front.length → ((front.take i).foldl shiftIn r).msb = false) :
    latch r (front ++ bits) = latch (front.foldl shiftIn r) bits := by
  induction front generalizing r with
  | nil => rfl
  | cons bit front ih =>
    have h1 : (shiftIn r bit).msb = false := by
      have := h 1 (by omega) (by simp)
      simpa using this
    rw [List.cons_append, latch, h1, if_neg (by decide), List.foldl_cons]
    apply ih
    intro i hi hlen
    have := h (i + 1) (by omega) (by simpa using hlen)
    simpa using this

theorem latch_msbFirst (b : Byte) (hb : b.msb = true) (bits : List Bool) :
    latch 0 (msbFirst b ++ bits) = some (b, bits) := by
  obtain ⟨hclear, hall⟩ := shiftIn_msbFirst b hb
  have hsplit : msbFirst b = (msbFirst b).take 7 ++ [b.getLsbD 0] := rfl
  rw [hsplit, List.append_assoc, latch_append_of_clear]
  · have hlast : shiftIn (((msbFirst b).take 7).foldl shiftIn 0) (b.getLsbD 0) = b := by
      have := hall
      rw [hsplit, List.foldl_append] at this
      exact this
    simp only [List.singleton_append, latch, hlast, hb, if_true]
  · intro i _ hi
    have hi' : i < 8 := by
      simp only [List.length_take, msbFirst_length] at hi
      omega
    have := List.all_eq_true.mp hclear i (List.mem_range.mpr hi')
    rw [List.take_take, Nat.min_eq_left (by omega)]
    simpa using this

def setBit (i : Nat) (v : Bool) (b : Byte) : Byte := if v then b ||| (1#8 <<< i) else b &&& ~~~(1#8 <<< i)

theorem getLsbD_setBit {i j : Nat} (v : Bool) (b : Byte) (hi : i < 8) (hj : j < 8) :
    (setBit i v b).getLsbD j = if j = i then v else b.getLsbD j := by
  have hone : (1#8 <<< i).getLsbD j = decide (j = i) := by
    rw [BitVec.getLsbD_shiftLeft, BitVec.getLsbD_one]
    by_cases hij : j = i
    · simp [hij, hi]
    · simp [hij, hj]
      omega
  unfold setBit
  cases v with
  | true =>
    rw [if_pos rfl, BitVec.getLsbD_or, hone]
    by_cases hij : j = i <;> simp [hij]
  | false =>
    rw [if_neg Bool.false_ne_true, BitVec.getLsbD_and, BitVec.getLsbD_not, hone]
    by_cases hij : j = i <;> simp [hij, hj]

end GSSquared.Bits
