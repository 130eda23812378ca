/-
The 6&2 code of a 256-byte sector, both directions.
-/
import GSSquared.Woz.Cursor

set_option linter.all false

namespace GSSquared.Woz.Nib525

open Bits

/-- `sector_t`, indexed by a `uint8_t`. -/
abbrev Sector := Byte → Byte

/-- `sector_62_t`: `NBUF1` at `0x00`, `NBUF2` at `0x100`. -/
abbrev Nbuf := Nat → Byte

def put (nbuf : Nbuf) (i : Nat) (v : Byte) : Nbuf := fun j => if j = i then v else nbuf j

theorem put_self (nbuf : Nbuf) (i : Nat) (v : Byte) : put nbuf i v i = v := if_pos rfl

theorem put_ne {i j : Nat} (h : j ≠ i) (nbuf : Nbuf) (v : Byte) : put nbuf i v j = nbuf j :=
  if_neg h

structure Prenib where
  x : Nat
  y : Byte
  nbuf : Nbuf

/-- The body of `prenib1`. -/
def prenib1 (buf : Sector) (s : Prenib) : Prenib :=
  let y := s.y - 1#8
  let a := buf y
  let nbuf := put s.nbuf (0x100 + s.x) (shiftIn (s.nbuf (0x100 + s.x)) (a.getLsbD 0))
  let nbuf := put nbuf (0x100 + s.x) (shiftIn (nbuf (0x100 + s.x)) (a.getLsbD 1))
  { x := s.x + 1, y := y, nbuf := put nbuf y.toNat (a >>> 2) }

/-- The `goto prenib1` loop. -/
def prenibLoop (buf : Sector) : Nat → Prenib → Prenib
  | 0, s => s
  | fuel + 1, s =>
    let s := prenib1 buf s
    if s.x < 0x56 then prenibLoop buf fuel s
    else if s.y ≠ 0#8 then prenibLoop buf fuel { s with x := 0 }
    else { s with x := 0 }

/-- The closing mask over `NBUF2`. -/
def mask (nbuf : Nbuf) : Nbuf := fun j => if 0x100 ≤ j then nbuf j &&& 0x3F else nbuf j

/-- `Woz_Nibblizer_525::prenibble`, into a buffer with any contents. -/
def prenibble (buf : Sector) (nbuf : Nbuf) : Nbuf :=
  mask (prenibLoop buf 512 { x := 0, y := 2#8, nbuf := nbuf }).nbuf

/-- The byte pass `k` of `prenibble` works on. -/
def passIndex (k : Nat) : Byte := 1#8 - BitVec.ofNat 8 k

/-- `NBUF2[x]` after `r` of its passes. -/
def packed (buf : Sector) (v : Byte) (x : Nat) : Nat → Byte
  | 0 => v
  | r + 1 =>
    let a := buf (passIndex (86 * r + x))
    shiftIn (shiftIn (packed buf v x r) (a.getLsbD 0)) (a.getLsbD 1)

/-- What holds after `k` passes. -/
structure PrenibInv (buf : Sector) (start : Nbuf) (k : Nat) (s : Prenib) : Prop where
  x : s.x = k % 86
  y : s.y = 2#8 - BitVec.ofNat 8 k
  high : ∀ i, i < k → s.nbuf (passIndex i).toNat = buf (passIndex i) >>> 2
  low : ∀ x, x < 86 →
    s.nbuf (0x100 + x) = packed buf (start (0x100 + x)) x ((k + 85 - x) / 86)

theorem passIndex_eq (k : Nat) : 2#8 - BitVec.ofNat 8 k - 1#8 = passIndex k := by
  unfold passIndex
  apply BitVec.eq_of_toNat_eq
  simp only [BitVec.toNat_sub, BitVec.toNat_ofNat]
  omega

theorem prenib1_inv {buf : Sector} {start : Nbuf} {k : Nat} {s : Prenib}
    (h : PrenibInv buf start k s) :
    (prenib1 buf s).x = k % 86 + 1 ∧ (prenib1 buf s).y = 2#8 - BitVec.ofNat 8 (k + 1) ∧
      (∀ i, i < k + 1 → (prenib1 buf s).nbuf (passIndex i).toNat = buf (passIndex i) >>> 2) ∧
      ∀ x, x < 86 → (prenib1 buf s).nbuf (0x100 + x) =
        packed buf (start (0x100 + x)) x ((k + 1 + 85 - x) / 86) := by
  have hy : s.y - 1#8 = passIndex k := by rw [h.y, passIndex_eq]
  refine ⟨by simp only [prenib1, h.x], ?_, ?_, ?_⟩
  · show s.y - 1#8 = _
    rw [h.y]
    apply BitVec.eq_of_toNat_eq
    simp only [BitVec.toNat_sub, BitVec.toNat_ofNat]
    omega
  · intro i hi
    simp only [prenib1, hy]
    by_cases he : (passIndex i).toNat = (passIndex k).toNat
    · rw [he, put_self, BitVec.eq_of_toNat_eq he]
    · have hlt := (passIndex i).isLt
      rw [put_ne he, put_ne (by omega), put_ne (by omega)]
      exact h.high i (by
        rcases Nat.lt_succ_iff_lt_or_eq.mp hi with hlt | heq
        · exact hlt
        · exact absurd (by rw [heq]) he)
  · intro x hx
    have hlt := (passIndex k).isLt
    simp only [prenib1, hy, h.x]
    rw [put_ne (by omega)]
    by_cases hxk : x = k % 86
    · -- the cell this pass shifts into: its next round
      have hr : (k + 1 + 85 - x) / 86 = (k + 85 - x) / 86 + 1 := by omega
      have hk : 86 * ((k + 85 - x) / 86) + x = k := by omega
      rw [← hxk, put_self, put_self, h.low x hx, hr, packed, hk]
    · have hr : (k + 1 + 85 - x) / 86 = (k + 85 - x) / 86 := by omega
      rw [put_ne (by omega), put_ne (by omega), h.low x hx, hr]

theorem prenibLoop_inv {buf : Sector} {start : Nbuf} :
    ∀ (n fuel : Nat) (s : Prenib), n < 258 → PrenibInv buf start (257 - n) s →
      ∃ s', prenibLoop buf (fuel + n + 1) s = s' ∧ PrenibInv buf start 258 s' := by
  intro n
  induction n with
  | zero =>
    intro fuel s _ h
    obtain ⟨hx, hy, hhigh, hlow⟩ := prenib1_inv h
    refine ⟨_, rfl, ?_⟩
    have hx' : ¬ (prenib1 buf s).x < 0x56 := by omega
    have hy' : ¬ (prenib1 buf s).y ≠ 0#8 := by rw [hy]; decide
    simp only [prenibLoop, if_neg hx', if_neg hy']
    exact ⟨rfl, hy, hhigh, hlow⟩
  | succ n ih =>
    intro fuel s hn h
    obtain ⟨hx, hy, hhigh, hlow⟩ := prenib1_inv h
    have hk : 257 - (n + 1) + 1 = 257 - n := by omega
    rw [hk] at hy hhigh hlow
    rw [show fuel + (n + 1) + 1 = (fuel + n + 1) + 1 by omega]
    by_cases hrow : (prenib1 buf s).x < 0x56
    · simp only [prenibLoop, if_pos hrow]
      exact ih fuel _ (by omega) ⟨by omega, hy, hhigh, hlow⟩
    · -- the end of a row before the last: `y` is 172 or 86
      have hne : (prenib1 buf s).y ≠ 0#8 := by
        rw [hy]
        intro he
        have he' := congrArg BitVec.toNat he
        simp only [BitVec.toNat_sub, BitVec.toNat_ofNat] at he'
        omega
      simp only [prenibLoop, if_neg hrow, if_pos hne]
      exact ih fuel { prenib1 buf s with x := 0 } (by omega)
        ⟨by show (0 : Nat) = _; omega, hy, hhigh, hlow⟩

theorem passIndex_surj (y : Byte) : ∃ i, i < 258 ∧ passIndex i = y := by
  refine ⟨(1#8 - y).toNat, Nat.lt_of_lt_of_le (1#8 - y).isLt (by decide), ?_⟩
  unfold passIndex
  rw [BitVec.ofNat_toNat, BitVec.setWidth_eq]
  apply BitVec.eq_of_toNat_eq
  have hy := y.isLt
  simp only [BitVec.toNat_sub, BitVec.toNat_ofNat]
  omega

theorem prenibble_spec (buf : Sector) (start : Nbuf) :
    (∀ y : Byte, prenibble buf start y.toNat = buf y >>> 2) ∧
      ∀ x, x < 86 → prenibble buf start (0x100 + x) =
        packed buf (start (0x100 + x)) x 3 &&& 0x3F := by
  obtain ⟨s', hs', hinv⟩ := prenibLoop_inv 257 254 { x := 0, y := 2#8, nbuf := start } (by decide)
    (⟨rfl, rfl, fun i hi => absurd hi (Nat.not_lt_zero i), fun x hx => by
      rw [show (257 - 257 + 85 - x) / 86 = 0 by omega]; rfl⟩ : PrenibInv buf start (257 - 257) _)
  unfold prenibble mask
  rw [hs']
  constructor
  · intro y
    have hlt := y.isLt
    obtain ⟨i, hi, rfl⟩ := passIndex_surj y
    rw [if_neg (by omega)]
    exact hinv.high i hi
  · intro x hx
    rw [if_pos (by omega), hinv.low x hx, show (258 + 85 - x) / 86 = 3 by omega]

structure Post where
  x : Int
  y : Byte
  nbuf : Nbuf
  decoded : Sector

/-- `post1` and `post2` up to the test of `y`: step `x` down, back to `0x55` below
zero, and shift two bits out of `NBUF2[x]`. -/
def post2 (s : Post) : Post :=
  let x := if s.x - 1 < 0 then 0x56 - 1 else s.x - 1
  let i := 0x100 + x.toNat
  let a := shiftIn (s.nbuf s.y.toNat) ((s.nbuf i).getLsbD 0)
  let nbuf := put s.nbuf i (s.nbuf i >>> 1)
  let a := shiftIn a ((nbuf i).getLsbD 0)
  let nbuf := put nbuf i (nbuf i >>> 1)
  { x := x, y := s.y + 1#8, nbuf := nbuf,
    decoded := fun j => if j = s.y then a else s.decoded j }

def postLoop : Nat → Post → Post
  | 0, s => s
  | fuel + 1, s =>
    let s := post2 s
    if s.y ≠ 0#8 then postLoop fuel s else s

def decodeSector62 (nbuf : Nbuf) : Sector :=
  (postLoop 512 { x := 0x56, y := 0#8, nbuf := nbuf, decoded := fun _ => 0 }).decoded

/-- The cell of `NBUF2` that holds the low bits of byte `y`, and how far down they
are. -/
def lowCell (y : Nat) : Nat := 0x100 + (85 - y % 86)

/-- Byte `y` from its six high bits and its two low ones. -/
def joined (nbuf : Nbuf) (y : Byte) : Byte :=
  shiftIn (shiftIn (nbuf y.toNat) ((nbuf (lowCell y.toNat)).getLsbD (2 * (y.toNat / 86))))
    ((nbuf (lowCell y.toNat)).getLsbD (2 * (y.toNat / 86) + 1))

/-- What holds after `k` passes. -/
structure PostInv (start : Nbuf) (k : Nat) (s : Post) : Prop where
  x : s.x = 86 - (if k = 0 then 0 else (k - 1) % 86 + 1 : Nat)
  y : s.y = BitVec.ofNat 8 k
  high : ∀ y, y < 0x100 → s.nbuf y = start y
  low : ∀ x, x < 86 → s.nbuf (0x100 + x) = start (0x100 + x) >>> (2 * ((k + x) / 86))
  decoded : ∀ y : Byte, y.toNat < k → s.decoded y = joined start y

theorem post2_inv {start : Nbuf} {k : Nat} {s : Post} (hk : k < 256) (h : PostInv start k s) :
    PostInv start (k + 1) (post2 s) := by
  have hx : (if s.x - 1 < 0 then 0x56 - 1 else s.x - 1) = ((85 - k % 86 : Nat) : Int) := by
    rw [h.x]
    split <;> split <;> omega
  have hy : s.y.toNat = k := by rw [h.y, BitVec.toNat_ofNat]; omega
  obtain ⟨i, hi⟩ : ∃ i, i = 0x100 + (85 - k % 86) := ⟨_, rfl⟩
  have hcell : s.nbuf i = start i >>> (2 * (k / 86)) := by
    rw [hi, h.low (85 - k % 86) (by omega), show (k + (85 - k % 86)) / 86 = k / 86 by omega]
  have hshift : start i >>> (2 * (k / 86)) >>> 1 >>> 1 = start i >>> (2 * (k / 86 + 1)) := by
    rw [← BitVec.shiftRight_add, ← BitVec.shiftRight_add]
    congr 1
  refine ⟨?_, ?_, ?_, ?_, ?_⟩
  · show (if s.x - 1 < 0 then 0x56 - 1 else s.x - 1) = _
    rw [hx, if_neg (by omega)]
    omega
  · show s.y + 1#8 = _
    rw [h.y]
    bv_omega
  · intro y hy'
    simp only [post2, hx, Int.toNat_natCast, ← hi]
    rw [put_ne (by omega), put_ne (by omega)]
    exact h.high y hy'
  · intro x hx'
    simp only [post2, hx, Int.toNat_natCast, ← hi]
    by_cases he : 0x100 + x = i
    · have hr : (k + 1 + x) / 86 = k / 86 + 1 := by omega
      rw [he, put_self, put_self, hcell, hshift, hr]
    · have hr : (k + 1 + x) / 86 = (k + x) / 86 := by omega
      rw [put_ne he, put_ne he, h.low x hx', hr]
  · intro y hy'
    simp only [post2, hx, Int.toNat_natCast, ← hi]
    by_cases he : y = s.y
    · have hyk : y.toNat = k := by rw [he, hy]
      rw [if_pos he, hy, h.high k hk, put_self, hcell, joined, lowCell, hyk, ← hi]
      simp only [BitVec.getLsbD_ushiftRight, Nat.add_zero]
    · rw [if_neg he]
      refine h.decoded y ?_
      have hne : y.toNat ≠ k := fun hc => he (BitVec.eq_of_toNat_eq (hc.trans hy.symm))
      omega

theorem postLoop_inv {start : Nbuf} :
    ∀ (n fuel : Nat) (s : Post), n < 256 → PostInv start (255 - n) s →
      PostInv start 256 (postLoop (fuel + n + 1) s) := by
  intro n
  induction n with
  | zero =>
    intro fuel s _ h
    have h' := post2_inv (by decide) h
    have hy : ¬ (post2 s).y ≠ 0#8 := by rw [h'.y]; decide
    simp only [postLoop, if_neg hy]
    exact h'
  | succ n ih =>
    intro fuel s hn h
    have h' := post2_inv (by omega) h
    have hk : 255 - (n + 1) + 1 = 255 - n := by omega
    rw [hk] at h'
    have hy : (post2 s).y ≠ 0#8 := by
      rw [h'.y]
      bv_omega
    rw [show fuel + (n + 1) + 1 = (fuel + n + 1) + 1 by omega]
    simp only [postLoop, if_pos hy]
    exact ih fuel _ (by omega) h'

theorem decodeSector62_spec (nbuf : Nbuf) (y : Byte) : decodeSector62 nbuf y = joined nbuf y := by
  have h0 : PostInv nbuf (255 - 255)
      { x := 0x56, y := 0#8, nbuf := nbuf, decoded := fun _ => 0 } :=
    ⟨rfl, rfl, fun _ _ => rfl,
      fun x hx => by
        rw [show (255 - 255 + x) / 86 = 0 by omega]
        exact (BitVec.ushiftRight_zero _).symm,
      fun y hy => absurd hy (Nat.not_lt_zero _)⟩
  have h := postLoop_inv 255 256 _ (by decide) h0
  unfold decodeSector62
  rw [show (512 : Nat) = 256 + 255 + 1 from rfl]
  exact h.decoded y y.isLt

theorem shiftIn_getLsbD (r : Byte) (bit : Bool) (i : Nat) :
    (shiftIn r bit).getLsbD i = if i = 0 then bit else decide (i < 8) && r.getLsbD (i - 1) := by
  unfold shiftIn
  rw [BitVec.getLsbD_or, BitVec.getLsbD_shiftLeft, BitVec.getLsbD_setWidth, BitVec.getLsbD_ofBool]
  by_cases h0 : i = 0
  · subst h0; simp
  · simp [h0, show ¬ i < 1 by omega]

/-- The low bits of round `r`, as they lie in a masked cell of `NBUF2`; what the
cell held before the three rounds has been shifted out or masked off. -/
theorem packed_bits (buf : Sector) (v : Byte) (x : Nat) {r : Nat} (hr : r < 3) :
    (packed buf v x 3 &&& 0x3F).getLsbD (2 * r) =
        (buf (passIndex (86 * (2 - r) + x))).getLsbD 1 ∧
      (packed buf v x 3 &&& 0x3F).getLsbD (2 * r + 1) =
        (buf (passIndex (86 * (2 - r) + x))).getLsbD 0 := by
  have hmask : ∀ i, i < 6 → (0x3F : Byte).getLsbD i = true := by decide
  rw [BitVec.getLsbD_and, BitVec.getLsbD_and, hmask _ (by omega), hmask _ (by omega),
    Bool.and_true, Bool.and_true]
  simp only [packed, shiftIn_getLsbD]
  match r, hr with
  | 0, _ => exact ⟨rfl, rfl⟩
  | 1, _ => exact ⟨rfl, rfl⟩
  | 2, _ => exact ⟨rfl, rfl⟩

theorem joined_halves : ∀ b : Byte,
    shiftIn (shiftIn (b >>> 2) (b.getLsbD 1)) (b.getLsbD 0) = b := by
  decide +kernel

theorem decodeSector62_prenibble (buf : Sector) (start : Nbuf) :
    decodeSector62 (prenibble buf start) = buf := by
  funext y
  obtain ⟨hhigh, hlow⟩ := prenibble_spec buf start
  have hy := y.isLt
  have hpass : passIndex (86 * (2 - y.toNat / 86) + (85 - y.toNat % 86)) = y := by
    unfold passIndex
    apply BitVec.eq_of_toNat_eq
    simp only [BitVec.toNat_sub, BitVec.toNat_ofNat]
    omega
  obtain ⟨hb1, hb0⟩ := packed_bits buf (start (lowCell y.toNat)) (85 - y.toNat % 86)
    (show y.toNat / 86 < 3 by omega)
  rw [decodeSector62_spec, joined, hhigh, lowCell, hlow _ (by omega)]
  rw [lowCell] at hb1 hb0
  rw [hb1, hb0, hpass]
  exact joined_halves (buf y)

end GSSquared.Woz.Nib525
