/-
Cyclic redundancy checks, low bit first. A burst that is no longer than the register is never missed.
-/
import GSSquared.Lib.Bits
import Mathlib.Data.List.GetD
import Mathlib.Logic.Function.Iterate

set_option linter.all false

namespace GSSquared.Crc

open Bits

section

variable {w : Nat} (p : BitVec w)

def shiftBit (c : BitVec w) : BitVec w := if c.getLsbD 0 then (c >>> 1) ^^^ p else c >>> 1

def byteStep (c : BitVec w) (b : Byte) : BitVec w := (shiftBit p)^[8] (c ^^^ b.setWidth w)

def register (c : BitVec w) (bs : List Byte) : BitVec w := bs.foldl (byteStep p) c

def word : List Byte → BitVec w
  | [] => 0#w
  | b :: bs => b.setWidth w ^^^ word bs <<< 8

theorem shiftBit_xor (c d : BitVec w) : shiftBit p (c ^^^ d) = shiftBit p c ^^^ shiftBit p d := by
  unfold shiftBit
  rw [BitVec.getLsbD_xor, BitVec.ushiftRight_xor_distrib]
  cases c.getLsbD 0 <;> cases d.getLsbD 0
  · rfl
  · exact BitVec.xor_assoc ..
  · exact (BitVec.xor_assoc ..).trans ((congrArg _ (BitVec.xor_comm ..)).trans (BitVec.xor_assoc ..).symm)
  · show c >>> 1 ^^^ d >>> 1 = (c >>> 1 ^^^ p) ^^^ (d >>> 1 ^^^ p)
    rw [BitVec.xor_assoc, BitVec.xor_comm p, BitVec.xor_assoc, BitVec.xor_self, BitVec.xor_zero]

theorem shiftBits_xor (n : Nat) (c d : BitVec w) :
    (shiftBit p)^[n] (c ^^^ d) = (shiftBit p)^[n] c ^^^ (shiftBit p)^[n] d := by
  induction n generalizing c d with
  | zero => rfl
  | succ n ih => rw [Function.iterate_succ_apply, shiftBit_xor, ih, ← Function.iterate_succ_apply, ← Function.iterate_succ_apply]

theorem shiftBits_clear (n : Nat) {c : BitVec w} (h : ∀ i < n, c.getLsbD i = false) : (shiftBit p)^[n] c = c >>> n := by
  induction n with
  | zero => rfl
  | succ n ih =>
    have hbit : (c >>> n).getLsbD 0 = false := by
      rw [BitVec.getLsbD_ushiftRight]
      exact h n (Nat.lt_succ_self n)
    rw [Function.iterate_succ_apply', ih fun i hi => h i (by omega), shiftBit, hbit, if_neg Bool.false_ne_true,
      BitVec.shiftRight_add]

theorem shiftLeft_shiftRight {c : BitVec w} (h : ∀ i, w ≤ 8 + i → c.getLsbD i = false) : c <<< 8 >>> 8 = c := by
  refine BitVec.eq_of_getLsbD_eq fun i hi => ?_
  rw [BitVec.getLsbD_ushiftRight, BitVec.getLsbD_shiftLeft, Nat.add_sub_cancel_left]
  by_cases hin : 8 + i < w
  · simp [hin]
  · rw [h i (by omega), Bool.and_false]

theorem byteStep_table (c : BitVec w) (b : Byte) : byteStep p c b =
    (shiftBit p)^[8] ((c ^^^ b.setWidth w) &&& 0xFF#w) ^^^ c >>> 8 := by
  have hmask : ∀ i, (0xFF#w).getLsbD i = (decide (i < w) && decide (i < 8)) := by
    intro i
    rw [BitVec.getLsbD_ofNat, show 0xFF = 2 ^ 8 - 1 from rfl, Nat.testBit_two_pow_sub_one]
  have hsplit : c ^^^ b.setWidth w = ((c ^^^ b.setWidth w) &&& 0xFF#w) ^^^ (c >>> 8 <<< 8) := by
    refine BitVec.eq_of_getLsbD_eq fun i hi => ?_
    simp only [BitVec.getLsbD_xor, BitVec.getLsbD_and, BitVec.getLsbD_setWidth, hmask, BitVec.getLsbD_shiftLeft,
      BitVec.getLsbD_ushiftRight]
    by_cases hlow : i < 8
    · simp [hi, hlow]
    · simp [hi, hlow, BitVec.getLsbD_of_ge b i (by omega), show 8 + (i - 8) = i by omega]
  have hback : c >>> 8 <<< 8 >>> 8 = c >>> 8 := shiftLeft_shiftRight fun i hi => by
    rw [BitVec.getLsbD_ushiftRight, BitVec.getLsbD_of_ge c _ hi]
  unfold byteStep
  conv => lhs; rw [hsplit]
  rw [shiftBits_xor, shiftBits_clear p 8 (c := c >>> 8 <<< 8) fun i hi => by simp [BitVec.getLsbD_shiftLeft, hi], hback]

theorem word_getLsbD {bs : List Byte} (h : 8 * bs.length ≤ w) (i : Nat) :
    (word bs : BitVec w).getLsbD i = (bs.getD (i / 8) 0).getLsbD (i % 8) := by
  induction bs generalizing i with
  | nil => exact BitVec.getLsbD_zero.trans BitVec.getLsbD_zero.symm
  | cons b bs ih =>
    rw [List.length_cons] at h
    rw [word, BitVec.getLsbD_xor, BitVec.getLsbD_setWidth, BitVec.getLsbD_shiftLeft, ih (by omega)]
    by_cases hlow : i < 8
    · simp [hlow, Nat.div_eq_of_lt hlow, Nat.mod_eq_of_lt hlow, show i < w by omega]
    · have hdiv : i / 8 = (i - 8) / 8 + 1 := by omega
      rw [BitVec.getLsbD_of_ge b i (by omega), Bool.and_false, Bool.false_xor, hdiv, List.getD_cons_succ,
        show (i - 8) % 8 = i % 8 by omega]
      by_cases hi : i < w
      · simp [hi, hlow]
      · rw [List.getD_eq_default _ _ (by omega : bs.length ≤ (i - 8) / 8)]
        simp

theorem word_injective {bs bs' : List Byte} (hlen : bs.length = bs'.length) (h : 8 * bs.length ≤ w)
    (heq : (word bs : BitVec w) = word bs') : bs = bs' := by
  refine List.ext_getElem hlen fun i hi hi' => ?_
  refine BitVec.eq_of_getLsbD_eq fun j hj => ?_
  have hbit := congrArg (BitVec.getLsbD · (8 * i + j)) heq
  simp only [word_getLsbD h, word_getLsbD (hlen ▸ h)] at hbit
  rw [show (8 * i + j) / 8 = i by omega, show (8 * i + j) % 8 = j by omega] at hbit
  rwa [List.getD_eq_getElem _ _ hi, List.getD_eq_getElem _ _ hi'] at hbit

theorem register_word {bs : List Byte} (h : 8 * bs.length ≤ w) (c : BitVec w) :
    register p c bs = (shiftBit p)^[8 * bs.length] (c ^^^ word bs) := by
  induction bs generalizing c with
  | nil => exact (BitVec.xor_zero).symm
  | cons b bs ih =>
    rw [List.length_cons] at h
    have hclear : ∀ i < 8, (word bs <<< 8 : BitVec w).getLsbD i = false := fun i hi => by
      simp [BitVec.getLsbD_shiftLeft, hi]
    have hback : word bs <<< 8 >>> 8 = (word bs : BitVec w) := shiftLeft_shiftRight fun i hi => by
      rw [word_getLsbD (by omega), List.getD_eq_default _ _ (by omega)]
      exact BitVec.getLsbD_zero
    show register p (byteStep p c b) bs = _
    rw [ih (by omega), List.length_cons, Nat.mul_succ, Function.iterate_add_apply, word, ← BitVec.xor_assoc,
      shiftBits_xor p 8, shiftBits_clear p 8 hclear, hback]
    rfl

variable {p}

theorem shiftBit_injective (hp : p.msb = true) : Function.Injective (shiftBit p) := by
  have hzero : ∀ d, shiftBit p d = 0#w → d = 0#w := by
    intro d hd
    have hw : 0 < w := Nat.pos_of_ne_zero fun h => by subst h; simp [BitVec.eq_nil p] at hp
    have hlow : d.getLsbD 0 = false := by
      by_contra hone
      rw [Bool.not_eq_false] at hone
      rw [shiftBit, if_pos hone] at hd
      have htop := congrArg BitVec.msb hd
      rw [BitVec.msb_xor, hp, BitVec.msb_ushiftRight] at htop
      simp at htop
    rw [shiftBit, hlow, if_neg Bool.false_ne_true] at hd
    refine BitVec.eq_of_getLsbD_eq fun i hi => ?_
    cases i with
    | zero => rw [hlow, BitVec.getLsbD_zero]
    | succ i =>
      have hbit := congrArg (BitVec.getLsbD · i) hd
      rw [BitVec.getLsbD_ushiftRight, BitVec.getLsbD_zero, Nat.add_comm] at hbit
      rw [hbit, BitVec.getLsbD_zero]
  intro c d heq
  have hdiff := hzero (c ^^^ d) (by rw [shiftBit_xor, heq, BitVec.xor_self])
  exact BitVec.xor_eq_zero_iff.mp hdiff

theorem register_injective (hp : p.msb = true) (bs : List Byte) {c d : BitVec w}
    (heq : register p c bs = register p d bs) : c = d := by
  induction bs generalizing c d with
  | nil => exact heq
  | cons b bs ih => exact (BitVec.xor_left_inj _).mp ((shiftBit_injective hp).iterate 8 (ih heq))

variable (p) in
theorem register_append (c : BitVec w) (bs bs' : List Byte) : register p c (bs ++ bs') = register p (register p c bs) bs' :=
  List.foldl_append

theorem register_burst (hp : p.msb = true) (c : BitVec w) (front : List Byte) {bs bs' : List Byte} (rest : List Byte)
    (hlen : bs.length = bs'.length) (hshort : 8 * bs.length ≤ w) (hne : bs ≠ bs') :
    register p c (front ++ bs ++ rest) ≠ register p c (front ++ bs' ++ rest) := by
  intro heq
  rw [register_append, register_append p c (front ++ bs')] at heq
  have hmid := register_injective hp rest heq
  rw [register_append, register_append, register_word p hshort (register p c front),
    register_word p (hlen ▸ hshort) (register p c front), ← hlen] at hmid
  exact hne (word_injective hlen hshort ((BitVec.xor_right_inj _).mp ((shiftBit_injective hp).iterate _ hmid)))

end

end GSSquared.Crc
