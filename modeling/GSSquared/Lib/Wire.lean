/-
Integers and fields of a binary file: little-endian words, and slices of a buffer that
know whether they lie inside it.
-/
import Mathlib
import GSSquared.Lib.Bits

set_option linter.all false

namespace GSSquared.Wire

open Bits

def ascii (s : String) : List Byte := s.toList.map (fun c => BitVec.ofNat 8 c.toNat)

def le : List Byte → Nat
  | [] => 0
  | b :: bs => b.toNat + 256 * le bs

def u16le (n : Nat) : List Byte := [BitVec.ofNat 8 n, BitVec.ofNat 8 (n / 256)]

def u32le (n : Nat) : List Byte :=
  [BitVec.ofNat 8 n, BitVec.ofNat 8 (n / 256), BitVec.ofNat 8 (n / 65536),
    BitVec.ofNat 8 (n / 16777216)]

def u64le (n : Nat) : List Byte := u32le n ++ u32le (n / 2 ^ 32)

variable (n : Nat)

@[simp] theorem u16le_length : (u16le n).length = 2 := rfl

@[simp] theorem u32le_length : (u32le n).length = 4 := rfl

@[simp] theorem u64le_length : (u64le n).length = 8 := rfl

theorem le_u16le : le (u16le n) = n % 65536 := by
  simp only [le, u16le, BitVec.toNat_ofNat]
  omega

theorem u16le_mod : u16le (n % 65536) = u16le n := by
  have hlow : BitVec.ofNat 8 (n % 65536) = BitVec.ofNat 8 n :=
    BitVec.eq_of_toNat_eq (by simp only [BitVec.toNat_ofNat]; omega)
  have hhigh : BitVec.ofNat 8 (n % 65536 / 256) = BitVec.ofNat 8 (n / 256) :=
    BitVec.eq_of_toNat_eq (by simp only [BitVec.toNat_ofNat]; omega)
  rw [u16le, u16le, hlow, hhigh]

theorem le_u32le : le (u32le n) = n % 2 ^ 32 := by
  simp only [le, u32le, BitVec.toNat_ofNat]
  omega

theorem le_u64le : le (u64le n) = n % 2 ^ 64 := by
  simp only [le, u64le, u32le, List.cons_append, List.nil_append, BitVec.toNat_ofNat]
  omega

theorem le_lt (bs : List Byte) : le bs < 256 ^ bs.length := by
  induction bs with
  | nil => exact Nat.one_pos
  | cons b bs ih =>
    have hb := b.isLt
    rw [le, List.length_cons, Nat.pow_succ]
    omega

section

variable {α : Type}

/-- `n` elements from `off` on, when the buffer has them. -/
def slice (buf : List α) (off n : Nat) : Option (List α) :=
  if off + n ≤ buf.length then some ((buf.drop off).take n) else none

theorem slice_inside {buf : List α} {off n : Nat} (h : off + n ≤ buf.length) :
    slice buf off n = some ((buf.drop off).take n) := if_pos h

theorem slice_outside {buf : List α} {off n : Nat} (h : ¬ off + n ≤ buf.length) :
    slice buf off n = none := if_neg h

theorem slice_of_drop {buf data rest : List α} {off : Nat} (hoff : off ≤ buf.length)
    (h : buf.drop off = data ++ rest) : slice buf off data.length = some data := by
  have hlen := congrArg List.length h
  rw [List.length_drop, List.length_append] at hlen
  rw [slice_inside (by omega), h, List.take_left]

theorem drop_add {buf data rest : List α} {off : Nat} (h : buf.drop off = data ++ rest) :
    buf.drop (off + data.length) = rest := by
  rw [← List.drop_drop, h, List.drop_left]

end

end GSSquared.Wire
