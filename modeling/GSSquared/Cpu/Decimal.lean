/-
Decimal arithmetic is decimal. A byte holds two decimal digits and a word four.
-/
import GSSquared.Cpu.Alu

set_option linter.all false

namespace GSSquared.Cpu

open Bits

/-- Both digits are decimal ones. -/
structure Bcd8 (b : Byte) : Prop where
  high : b.toNat / 16 ≤ 9
  low : b.toNat % 16 ≤ 9

def decimal8 (b : Byte) : Nat := b.toNat / 16 * 10 + b.toNat % 16

/-- The digits of a value of the width `wide`. -/
def Bcd (wide : Bool) (w : Word) : Prop := Bcd8 (lo w) ∧ (wide = true → Bcd8 (hi w))

def decimal (wide : Bool) (w : Word) : Nat := (if wide then decimal8 (hi w) * 100 else 0) + decimal8 (lo w)

def modulus (wide : Bool) : Nat := if wide then 10000 else 100

theorem decimal8_lt {b : Byte} (h : Bcd8 b) : decimal8 b < 100 := by
  obtain ⟨hhigh, hlow⟩ := h
  unfold decimal8
  omega

theorem decimal8_inj {a b : Byte} (ha : Bcd8 a) (hb : Bcd8 b) (h : decimal8 a = decimal8 b) : a = b := by
  obtain ⟨hahigh, halow⟩ := ha
  obtain ⟨hbhigh, hblow⟩ := hb
  unfold decimal8 at h
  apply BitVec.eq_of_toNat_eq
  omega

theorem decimal_lt {wide : Bool} {w : Word} (h : Bcd wide w) : decimal wide w < modulus wide := by
  have hlow := decimal8_lt h.1
  cases wide with
  | false => simpa [decimal, modulus] using hlow
  | true =>
    have hhigh := decimal8_lt (h.2 rfl)
    simp only [decimal, modulus, if_true]
    omega

theorem decimal_inj {wide : Bool} {v w : Word} (hv : Bcd wide v) (hw : Bcd wide w)
    (h : decimal wide v = decimal wide w) : narrow wide v = narrow wide w := by
  have hvlow := decimal8_lt hv.1
  have hwlow := decimal8_lt hw.1
  cases wide with
  | false =>
    simp only [decimal, Bool.false_eq_true, if_false, Nat.zero_add] at h
    simp only [narrow, Bool.false_eq_true, if_false, decimal8_inj hv.1 hw.1 h]
  | true =>
    simp only [decimal, if_true] at h
    simp only [narrow, if_true]
    exact word_ext (decimal8_inj hv.1 hw.1 (by omega)) (decimal8_inj (hv.2 rfl) (hw.2 rfl) (by omega))

/-- A result as the sum modulo `m`, with the carry out of it. -/
structure Adds (wide : Bool) (x y : Nat) (c : Bool) (r : Sum) : Prop where
  digits : Bcd wide r.value
  value : decimal wide r.value = (x + y + c.toNat) % modulus wide
  carry : r.c = decide (modulus wide ≤ x + y + c.toNat)

structure Subtracts (wide : Bool) (x y : Nat) (c : Bool) (r : Sum) : Prop where
  digits : Bcd wide r.value
  value : decimal wide r.value = (x + modulus wide - y - (!c).toNat) % modulus wide
  carry : r.c = decide (y + (!c).toNat ≤ x)

theorem lo_setWidth (b : Byte) : lo (b.setWidth 16) = b := by
  simp [lo]

theorem bcd8_of_digits {b : Byte} {h l : Nat} (hb : b.toNat = 16 * h + l) (hh : h ≤ 9) (hl : l ≤ 9) :
    Bcd8 b ∧ decimal8 b = 10 * h + l := by
  refine ⟨⟨by omega, by omega⟩, ?_⟩
  unfold decimal8
  omega

theorem low_digit_add {d : Nat} (h : d ≤ 19) :
    (if 0x0A ≤ d then (d + 0x06) % 16 + 0x10 else d) = 16 * (d / 10) + d % 10 := by
  split <;> omega

theorem high_digit_add {h l : Nat} (hh : h ≤ 19) (hl : l ≤ 9) :
    (if 0xA0 ≤ 16 * h + l then 16 * h + l + 0x60 else 16 * h + l) % 256 = 16 * (h % 10) + l ∧
      (0x100 ≤ (if 0xA0 ≤ 16 * h + l then 16 * h + l + 0x60 else 16 * h + l) ↔ 10 ≤ h) := by
  split
  · refine ⟨?_, ?_⟩ <;> omega
  · refine ⟨?_, ?_⟩ <;> omega

def borrow (d : Int) : Int := if d < 0 then 1 else 0

theorem low_digit_sub {d : Int} (hlow : -10 ≤ d) :
    (if d < 0 then (d - 0x06) % 16 - 0x10 else d) = (d + 10 * borrow d) - 16 * borrow d := by
  unfold borrow
  split <;> omega

theorem high_digit_sub {h l : Int} (hh : -10 ≤ h) (hl : 0 ≤ l) (hl' : l ≤ 9) (hh' : h ≤ 9) :
    (if 16 * h + l < 0 then 16 * h + l - 0x60 else 16 * h + l) % 256 = 16 * (h + 10 * borrow h) + l := by
  unfold borrow
  split <;> split <;> omega

theorem two_digits_sub {h l : Int} {n : Nat} (hh : -10 ≤ h) (hh' : h ≤ 9) (hl : 0 ≤ l) (hl' : l ≤ 9)
    (hn : (n : Int) = 10 * h + l + 100) : n % 100 = 10 * (h + 10 * borrow h).toNat + l.toNat := by
  unfold borrow
  split <;> omega

section

variable (t : Traits) {a b : Byte} (ha : Bcd8 a) (hb : Bcd8 b) (c : Bool)
include ha hb

theorem addBcd8_adds : Adds false (decimal8 a) (decimal8 b) c (addBcd8 t a b c) := by
  obtain ⟨hahigh, halow⟩ := ha
  obtain ⟨hbhigh, hblow⟩ := hb
  have hc := c.toNat_le
  unfold addBcd8
  dsimp only
  unfold decimal8
  generalize a.toNat / 16 = ah at hahigh ⊢
  generalize a.toNat % 16 = al at halow ⊢
  generalize b.toNat / 16 = bh at hbhigh ⊢
  generalize b.toNat % 16 = bl at hblow ⊢
  generalize hd : al + bl + c.toNat = d
  have hdigit := low_digit_add (d := d) (by omega)
  have hsum : ah * 16 + bh * 16 + (16 * (d / 10) + d % 10) = 16 * (ah + bh + d / 10) + d % 10 := by omega
  have hlow : d % 10 ≤ 9 := by omega
  obtain ⟨hbyte, hcarry⟩ := high_digit_add (h := ah + bh + d / 10) (l := d % 10) (by omega) hlow
  rw [hdigit, hsum]
  have hnat : (BitVec.ofNat 8 (if 0xA0 ≤ 16 * (ah + bh + d / 10) + d % 10 then
      16 * (ah + bh + d / 10) + d % 10 + 0x60 else 16 * (ah + bh + d / 10) + d % 10)).toNat =
        16 * ((ah + bh + d / 10) % 10) + d % 10 := hbyte
  obtain ⟨hdigits, hvalue⟩ := bcd8_of_digits hnat (by omega) hlow
  refine ⟨⟨by rw [lo_setWidth]; exact hdigits, nofun⟩, ?_, decide_eq_decide.mpr (hcarry.trans ?_)⟩
  · rw [decimal, lo_setWidth, hvalue]
    simp only [modulus, Bool.false_eq_true, if_false]
    omega
  · simp only [modulus, Bool.false_eq_true, if_false]
    omega

theorem subBcd8_subtracts : Subtracts false (decimal8 a) (decimal8 b) c (subBcd8 t a b c) := by
  obtain ⟨hahigh, halow⟩ := ha
  obtain ⟨hbhigh, hblow⟩ := hb
  have ha := (Nat.div_add_mod a.toNat 16).symm
  have hb := (Nat.div_add_mod b.toNat 16).symm
  have hc := c.toNat_le
  have hcarry : (if c then 1 else 0 : Int) = c.toNat := by cases c <;> rfl
  have hnot : ((!c).toNat : Int) = 1 - c.toNat := by cases c <;> rfl
  unfold subBcd8
  dsimp only
  unfold decimal8
  rw [hcarry]
  generalize a.toNat / 16 = ah at ha hahigh ⊢
  generalize a.toNat % 16 = al at ha halow ⊢
  generalize b.toNat / 16 = bh at hb hbhigh ⊢
  generalize b.toNat % 16 = bl at hb hblow ⊢
  generalize hd : (al : Int) - (bl : Int) + (c.toNat : Int) - 1 = d
  have hdlow : -10 ≤ d := by omega
  have hdhigh : d ≤ 9 := by omega
  -- what is left of the low digits, and of the high ones
  obtain ⟨l, hl⟩ : ∃ l : Int, d + 10 * borrow d = l := ⟨_, rfl⟩
  obtain ⟨h, hh⟩ : ∃ h : Int, (ah : Int) - bh - borrow d = h := ⟨_, rfl⟩
  have hbounds : 0 ≤ l ∧ l ≤ 9 ∧ -10 ≤ h ∧ h ≤ 9 := by
    unfold borrow at hl hh
    split at hl <;> omega
  obtain ⟨hl0, hl9, hh10, hh9⟩ := hbounds
  have hbinary : (a.toNat : Int) - b.toNat - 1 + c.toNat = 16 * h + l + 6 * borrow d := by omega
  have hdigit := low_digit_sub hdlow
  rw [hl] at hdigit
  have hua : ((ah * 16 : Nat) : Int) - ((bh * 16 : Nat) : Int) + (l - 16 * borrow d) = 16 * h + l := by omega
  rw [hbinary, hdigit, hua]
  have hbyte := high_digit_sub hh10 hl0 hl9 hh9
  -- both orders of the corrections come to the same byte
  have hsame : ∀ cmos : Bool, (if cmos && decide (d < 0) then
      (if (if cmos then 16 * h + l + 6 * borrow d else 16 * h + l) < 0 then
        (if cmos then 16 * h + l + 6 * borrow d else 16 * h + l) - 0x60
        else if cmos then 16 * h + l + 6 * borrow d else 16 * h + l) - 0x06
      else if (if cmos then 16 * h + l + 6 * borrow d else 16 * h + l) < 0 then
        (if cmos then 16 * h + l + 6 * borrow d else 16 * h + l) - 0x60
        else if cmos then 16 * h + l + 6 * borrow d else 16 * h + l) % 256 = 16 * (h + 10 * borrow h) + l := by
    intro cmos
    cases cmos with
    | false => simpa using hbyte
    | true =>
      rw [← hbyte]
      by_cases hneg : d < 0
      · simp only [hneg, if_true, decide_true, Bool.and_true] at hl ⊢
        split <;> split <;> omega
      · simp only [hneg, if_false, decide_false, Bool.and_false, Bool.false_eq_true, if_true] at hl ⊢
        split <;> split <;> omega
  have hhigh : 0 ≤ h + 10 * borrow h ∧ h + 10 * borrow h ≤ 9 := by
    unfold borrow
    split <;> omega
  have hnat := congrArg Int.toNat (hsame (t.has65c02Ops && !t.has65816Ops))
  have hsplit : (16 * (h + 10 * borrow h) + l).toNat = 16 * (h + 10 * borrow h).toNat + l.toNat := by omega
  obtain ⟨hdigits, hvalue⟩ := bcd8_of_digits (b := BitVec.ofInt 8 _)
    (((BitVec.toNat_ofInt _).trans hnat).trans hsplit) (by omega) (by omega)
  refine ⟨⟨by rw [lo_setWidth]; exact hdigits, nofun⟩, ?_, decide_eq_decide.mpr ?_⟩
  · rw [decimal, lo_setWidth, hvalue]
    simp only [modulus, Bool.false_eq_true, if_false, Nat.zero_add]
    exact (two_digits_sub hh10 hh9 hl0 hl9 (by clear hnat hsame hbyte; omega)).symm
  · have hten : (ah * 10 + al : Int) - (bh * 10 + bl) - (1 - c.toNat) = 10 * h + l := by omega
    have hsign : 0 ≤ 16 * h + l + 6 * borrow d ↔ 0 ≤ h := by
      unfold borrow at hl ⊢
      split at hl <;> omega
    rw [hsign]
    clear hnat hsame hbyte hsign
    omega

end

theorem toNat_carry (n m : Nat) (hn : n < 2 * m) : (decide (m ≤ n)).toNat = n / m := by
  by_cases h : m ≤ n
  · rw [decide_eq_true h, Nat.div_eq_of_lt_le (k := 1) (by omega) (by omega)]
    rfl
  · rw [decide_eq_false h, Nat.div_eq_of_lt (by omega)]
    rfl

section

variable {step : Byte → Byte → Bool → Sum} {a b : Word} {c : Bool}

theorem digits_bcd16 (hlow : Bcd false (step (lo a) (lo b) c).value)
    (hhigh : Bcd false (step (hi a) (hi b) (step (lo a) (lo b) c).c).value) : Bcd true (bcd16 step a b c).value := by
  refine ⟨?_, fun _ => ?_⟩
  · rw [bcd16, lo_word]
    exact hlow.1
  · rw [bcd16, hi_word]
    exact hhigh.1

theorem decimal_bcd16 : decimal true (bcd16 step a b c).value =
    decimal false (step (hi a) (hi b) (step (lo a) (lo b) c).c).value * 100 +
      decimal false (step (lo a) (lo b) c).value := by
  simp only [decimal, bcd16, if_true, Bool.false_eq_true, if_false, Nat.zero_add, lo_word, hi_word]

end

section

variable {step : Byte → Byte → Bool → Sum} {a b : Word} (ha : Bcd true a) (hb : Bcd true b) (c : Bool)
include ha hb

theorem adds_bcd16
    (hstep : ∀ {x y : Byte}, Bcd8 x → Bcd8 y → ∀ c, Adds false (decimal8 x) (decimal8 y) c (step x y c)) :
    Adds true (decimal true a) (decimal true b) c (bcd16 step a b c) := by
  obtain ⟨halow, hahigh⟩ := ha
  obtain ⟨hblow, hbhigh⟩ := hb
  have hlow := hstep halow hblow c
  have hhigh := hstep (hahigh rfl) (hbhigh rfl) (step (lo a) (lo b) c).c
  have h1 := decimal8_lt halow
  have h3 := decimal8_lt hblow
  have hc := c.toNat_le
  have hcarry : (step (lo a) (lo b) c).c.toNat = (decimal8 (lo a) + decimal8 (lo b) + c.toNat) / 100 := by
    rw [hlow.carry]
    exact toNat_carry _ _ (by simp only [modulus, Bool.false_eq_true, if_false]; omega)
  have hlowValue := hlow.value
  have hhighValue := hhigh.value
  have hhighCarry := hhigh.carry
  rw [hcarry] at hhighValue hhighCarry
  simp only [modulus, Bool.false_eq_true, if_false] at hlowValue hhighValue hhighCarry
  refine ⟨digits_bcd16 hlow.digits hhigh.digits, ?_, ?_⟩
  · rw [decimal_bcd16, hlowValue, hhighValue]
    simp only [decimal, modulus, if_true]
    omega
  · simp only [decimal, modulus, if_true, bcd16, hhighCarry]
    rw [decide_eq_decide]
    omega

theorem subtracts_bcd16
    (hstep : ∀ {x y : Byte}, Bcd8 x → Bcd8 y → ∀ c, Subtracts false (decimal8 x) (decimal8 y) c (step x y c)) :
    Subtracts true (decimal true a) (decimal true b) c (bcd16 step a b c) := by
  obtain ⟨halow, hahigh⟩ := ha
  obtain ⟨hblow, hbhigh⟩ := hb
  have hlow := hstep halow hblow c
  have hhigh := hstep (hahigh rfl) (hbhigh rfl) (step (lo a) (lo b) c).c
  have h1 := decimal8_lt halow
  have h2 := decimal8_lt (hahigh rfl)
  have h3 := decimal8_lt hblow
  have h4 := decimal8_lt (hbhigh rfl)
  have hc := (!c).toNat_le
  have hborrow : (!(step (lo a) (lo b) c).c).toNat =
      if decimal8 (lo b) + (!c).toNat ≤ decimal8 (lo a) then 0 else 1 := by
    rw [hlow.carry]
    split
    case isTrue h => rw [decide_eq_true h]; rfl
    case isFalse h => rw [decide_eq_false h]; rfl
  have hlowValue := hlow.value
  have hhighValue := hhigh.value
  have hhighCarry := hhigh.carry
  rw [hborrow] at hhighValue hhighCarry
  simp only [modulus, Bool.false_eq_true, if_false] at hlowValue hhighValue
  refine ⟨digits_bcd16 hlow.digits hhigh.digits, ?_, ?_⟩
  · rw [decimal_bcd16, hlowValue, hhighValue]
    simp only [decimal, modulus, if_true]
    split <;> omega
  · simp only [decimal, if_true, bcd16, hhighCarry]
    rw [decide_eq_decide]
    split <;> omega

end

section

variable {t : Traits} {s : State} {n : Word} (hd : s.p.d = true) (ha : Bcd t.m16 (s.accumulator t)) (hn : Bcd t.m16 n)
include hd ha hn

theorem addSum_adds : Adds t.m16 (decimal t.m16 (s.accumulator t)) (decimal t.m16 n) s.p.c (addSum t s n) := by
  rw [addSum, if_pos hd]
  cases hwide : t.m16 with
  | true =>
    rw [hwide] at ha hn
    exact adds_bcd16 ha hn s.p.c (fun hx hy c => addBcd8_adds t hx hy c)
  | false =>
    simp only [decimal, bcd, Bool.false_eq_true, if_false, Nat.zero_add]
    exact addBcd8_adds t ha.1 hn.1 s.p.c

theorem subSum_subtracts :
    Subtracts t.m16 (decimal t.m16 (s.accumulator t)) (decimal t.m16 n) s.p.c (subSum t s n) := by
  rw [subSum, if_pos hd]
  cases hwide : t.m16 with
  | true =>
    rw [hwide] at ha hn
    exact subtracts_bcd16 ha hn s.p.c (fun hx hy c => subBcd8_subtracts t hx hy c)
  | false =>
    simp only [decimal, bcd, Bool.false_eq_true, if_false, Nat.zero_add]
    exact subBcd8_subtracts t ha.1 hn.1 s.p.c

end

theorem accumulator_setSum (t : Traits) (r : Sum) (s : State) :
    (s.setSum t r).accumulator t = narrow t.m16 r.value := by
  show narrow t.m16 (put t.m16 s.a r.value) = narrow t.m16 r.value
  cases t.m16 with
  | true => rfl
  | false =>
    simp only [narrow, Bool.false_eq_true, if_false, lo_put]

theorem decimal_narrow (wide : Bool) (v : Word) : decimal wide (narrow wide v) = decimal wide v := by
  cases wide with
  | true => rfl
  | false => simp only [decimal, Bool.false_eq_true, if_false, lo_narrow]

theorem bcd_narrow {wide : Bool} {v : Word} (h : Bcd wide v) : Bcd wide (narrow wide v) := by
  cases wide with
  | true => exact h
  | false => exact ⟨by rw [lo_narrow]; exact h.1, nofun⟩

structure DecimalLaw (t : Traits) (s : State) (n : Word) : Prop where
  sumDigits : Bcd t.m16 ((s.setSum t (addSum t s n)).accumulator t)
  sum : decimal t.m16 ((s.setSum t (addSum t s n)).accumulator t) =
    (decimal t.m16 (s.accumulator t) + decimal t.m16 n + s.p.c.toNat) % modulus t.m16
  carry : (s.setSum t (addSum t s n)).p.c =
    decide (modulus t.m16 ≤ decimal t.m16 (s.accumulator t) + decimal t.m16 n + s.p.c.toNat)
  differenceDigits : Bcd t.m16 ((s.setSum t (subSum t s n)).accumulator t)
  difference : decimal t.m16 ((s.setSum t (subSum t s n)).accumulator t) =
    (decimal t.m16 (s.accumulator t) + modulus t.m16 - decimal t.m16 n - (!s.p.c).toNat) % modulus t.m16
  noBorrow : (s.setSum t (subSum t s n)).p.c =
    decide (decimal t.m16 n + (!s.p.c).toNat ≤ decimal t.m16 (s.accumulator t))
  zero : t.m16 = true ∨ t.has65c02Ops = true →
    (s.setSum t (addSum t s n)).p.z = ((s.setSum t (addSum t s n)).accumulator t == 0) ∧
      (s.setSum t (subSum t s n)).p.z = ((s.setSum t (subSum t s n)).accumulator t == 0)
  /-- The NMOS part's Z is of the binary result. -/
  zeroNmos : t.m16 = false → t.has65c02Ops = false →
    (s.setSum t (addSum t s n)).p.z = (((lo (s.accumulator t)).toNat + (lo n).toNat + s.p.c.toNat) % 256 == 0) ∧
      (s.setSum t (subSum t s n)).p.z =
        (((lo (s.accumulator t)).toNat - (lo n).toNat - 1 + s.p.c.toNat : Int) % 256 == 0)
  undone : ∀ s', s' = (s.setSum t (addSum t s n)).setC (!s.p.c) →
    (s'.setSum t (subSum t s' n)).accumulator t = s.accumulator t

section

variable {t : Traits} {s : State} {n : Word}

theorem zero_byte (b : Byte) : (b == 0) = (narrow false (b.setWidth 16) == 0) := by
  rw [Bool.eq_iff_iff, beq_iff_eq, beq_iff_eq]
  simp only [narrow, Bool.false_eq_true, if_false, lo_setWidth]
  constructor
  · rintro rfl
    rfl
  · intro h
    have hlo := congrArg lo h
    rwa [lo_setWidth] at hlo

theorem zero_addSum (hd : s.p.d = true) (hcore : t.m16 = true ∨ t.has65c02Ops = true) :
    (addSum t s n).z = (narrow t.m16 (addSum t s n).value == 0) := by
  rw [addSum, if_pos hd]
  cases hwide : t.m16 with
  | true => rfl
  | false =>
    have hops : t.has65c02Ops = true := hcore.resolve_left (by rw [hwide]; exact Bool.false_ne_true)
    simp only [bcd, Bool.false_eq_true, if_false, addBcd8, hops, if_true]
    exact zero_byte _

theorem zero_subSum (hd : s.p.d = true) (hcore : t.m16 = true ∨ t.has65c02Ops = true) :
    (subSum t s n).z = (narrow t.m16 (subSum t s n).value == 0) := by
  rw [subSum, if_pos hd]
  cases hwide : t.m16 with
  | true => rfl
  | false =>
    have hops : t.has65c02Ops = true := hcore.resolve_left (by rw [hwide]; exact Bool.false_ne_true)
    simp only [bcd, Bool.false_eq_true, if_false, subBcd8, hops, if_true]
    exact zero_byte _

theorem mod_undone {x y m : Nat} {c : Bool} (hx : x < m) (hy : y < m) :
    ((x + y + c.toNat) % m + m - y - (!(!c)).toNat) % m = x := by
  have hc := c.toNat_le
  rw [Bool.not_not]
  rcases Nat.lt_or_ge (x + y + c.toNat) m with hlt | hge
  · rw [Nat.mod_eq_of_lt hlt]
    have hsplit : x + y + c.toNat + m - y - c.toNat = x + m := by omega
    rw [hsplit, Nat.add_mod_right, Nat.mod_eq_of_lt hx]
  · rw [Nat.mod_eq_sub_mod hge, Nat.mod_eq_of_lt (a := x + y + c.toNat - m) (by omega)]
    have hsplit : x + y + c.toNat - m + m - y - c.toNat = x := by omega
    rw [hsplit, Nat.mod_eq_of_lt hx]

/-- In decimal mode, on digits, every core's ADC and SBC are those of decimal numbers of the
accumulator's width, and the one undoes the other. -/
theorem decimal_law (hd : s.p.d = true) (ha : Bcd t.m16 (s.accumulator t)) (hn : Bcd t.m16 n) : DecimalLaw t s n := by
  have hadds := addSum_adds hd ha hn
  have hsubs := subSum_subtracts hd ha hn
  have hsumDigits : Bcd t.m16 ((s.setSum t (addSum t s n)).accumulator t) := by
    rw [accumulator_setSum]
    exact bcd_narrow hadds.digits
  have hsum : decimal t.m16 ((s.setSum t (addSum t s n)).accumulator t) =
      (decimal t.m16 (s.accumulator t) + decimal t.m16 n + s.p.c.toNat) % modulus t.m16 := by
    rw [accumulator_setSum, decimal_narrow]
    exact hadds.value
  refine {
    sumDigits := hsumDigits
    sum := hsum
    carry := hadds.carry
    differenceDigits := by rw [accumulator_setSum]; exact bcd_narrow hsubs.digits
    difference := by rw [accumulator_setSum, decimal_narrow]; exact hsubs.value
    noBorrow := hsubs.carry
    zero := fun hcore => ?_
    zeroNmos := fun hbyte hnmos => ?_
    undone := ?_ }
  · rw [accumulator_setSum, accumulator_setSum]
    exact ⟨zero_addSum hd hcore, zero_subSum hd hcore⟩
  · show (addSum t s n).z = _ ∧ (subSum t s n).z = _
    rw [addSum, subSum, if_pos hd, if_pos hd, hbyte]
    simp only [bcd, Bool.false_eq_true, if_false, addBcd8, subBcd8, hnmos]
    refine ⟨trivial, ?_⟩
    cases s.p.c <;> rfl
  · rintro s' rfl
    have hback := subSum_subtracts (t := t) (s := (s.setSum t (addSum t s n)).setC (!s.p.c)) hd hsumDigits hn
    have hacc : narrow t.m16 (s.accumulator t) = s.accumulator t := by
      show narrow t.m16 (narrow t.m16 s.a) = narrow t.m16 s.a
      cases t.m16 with
      | true => rfl
      | false => simp only [narrow, Bool.false_eq_true, if_false, lo_setWidth]
    rw [accumulator_setSum, ← hacc]
    refine decimal_inj hback.digits ha (hback.value.trans ?_)
    show (decimal t.m16 ((s.setSum t (addSum t s n)).accumulator t) + modulus t.m16 - decimal t.m16 n -
      (!(!s.p.c)).toNat) % modulus t.m16 = _
    rw [hsum]
    exact mod_undone (decimal_lt ha) (decimal_lt hn)

end

/-- 9999 + 1 and back, in a 16-bit accumulator. -/
theorem decimal_law_9999 : DecimalLaw (native true true) { a := 0x9999, p := { d := true } } 1 :=
  decimal_law rfl ⟨⟨by decide, by decide⟩, fun _ => ⟨by decide, by decide⟩⟩
    ⟨⟨by decide, by decide⟩, fun _ => ⟨by decide, by decide⟩⟩

/-- 50 + 50 on the NMOS part is 00 without Z. -/
theorem decimal_nmos_zero :
    let s : State := { a := 0x50, p := { d := true } }
    (s.setSum cpu6502 (addSum cpu6502 s 0x50)).accumulator cpu6502 = 0 ∧
      (s.setSum cpu6502 (addSum cpu6502 s 0x50)).p.z = false := by
  decide

end GSSquared.Cpu
