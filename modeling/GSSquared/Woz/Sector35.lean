/-
The 6&2 code of a 524-byte sector of a 3.5-inch disk, both directions.
-/
import GSSquared.Woz.Cursor

set_option linter.all false

namespace GSSquared.Woz.Nib35

open Bits

/-- `sDiskBytes62`. -/
def diskBytesTable : List Byte := [
    0x96, 0x97, 0x9A, 0x9B, 0x9D, 0x9E, 0x9F, 0xA6, 0xA7, 0xAB, 0xAC, 0xAD, 0xAE, 0xAF, 0xB2, 0xB3,
    0xB4, 0xB5, 0xB6, 0xB7, 0xB9, 0xBA, 0xBB, 0xBC, 0xBD, 0xBE, 0xBF, 0xCB, 0xCD, 0xCE, 0xCF, 0xD3,
    0xD6, 0xD7, 0xD9, 0xDA, 0xDB, 0xDC, 0xDD, 0xDE, 0xDF, 0xE5, 0xE6, 0xE7, 0xE9, 0xEA, 0xEB, 0xEC,
    0xED, 0xEE, 0xEF, 0xF2, 0xF3, 0xF4, 0xF5, 0xF6, 0xF7, 0xF9, 0xFA, 0xFB, 0xFC, 0xFD, 0xFE, 0xFF]

/-- The rows of `sInvDiskBytes62` from `0x90` on; every entry before them is
`INVALID_INV`. -/
def invDiskBytesTable : List Byte := [
    0xFF, 0xFF, 0xFF, 0xFF, 0xFF, 0xFF, 0x00, 0x01, 0xFF, 0xFF, 0x02, 0x03, 0xFF, 0x04, 0x05, 0x06,
    0xFF, 0xFF, 0xFF, 0xFF, 0xFF, 0xFF, 0x07, 0x08, 0xFF, 0xFF, 0xFF, 0x09, 0x0A, 0x0B, 0x0C, 0x0D,
    0xFF, 0xFF, 0x0E, 0x0F, 0x10, 0x11, 0x12, 0x13, 0xFF, 0x14, 0x15, 0x16, 0x17, 0x18, 0x19, 0x1A,
    0xFF, 0xFF, 0xFF, 0xFF, 0xFF, 0xFF, 0xFF, 0xFF, 0xFF, 0xFF, 0xFF, 0x1B, 0xFF, 0x1C, 0x1D, 0x1E,
    0xFF, 0xFF, 0xFF, 0x1F, 0xFF, 0xFF, 0x20, 0x21, 0xFF, 0x22, 0x23, 0x24, 0x25, 0x26, 0x27, 0x28,
    0xFF, 0xFF, 0xFF, 0xFF, 0xFF, 0x29, 0x2A, 0x2B, 0xFF, 0x2C, 0x2D, 0x2E, 0x2F, 0x30, 0x31, 0x32,
    0xFF, 0xFF, 0x33, 0x34, 0x35, 0x36, 0x37, 0x38, 0xFF, 0x39, 0x3A, 0x3B, 0x3C, 0x3D, 0x3E, 0x3F]

def invalidInv : Byte := 0xFF

def diskByte (v : Byte) : Byte := diskBytesTable.getD v.toNat 0

def invDiskByte (nib : Byte) : Byte :=
  if nib.toNat < 0x90 then invalidInv else invDiskBytesTable.getD (nib.toNat - 0x90) 0

theorem invDiskByte_diskByte : ∀ v : Byte, v.toNat < 64 →
    invDiskByte (diskByte v) = v ∧ (diskByte v).msb = true := by
  decide +kernel

theorem invDiskByte_ne {v : Byte} (hv : v.toNat < 64) :
    ¬ invDiskByte (diskByte v) = invalidInv := by
  rw [(invDiskByte_diskByte v hv).1]
  intro h
  rw [h] at hv
  exact absurd hv (by decide)

structure Chk where
  chk0 : Nat := 0
  chk1 : Nat := 0
  chk2 : Nat := 0
deriving DecidableEq

/-- The top of the loop: `chk0` rotated left through its bit 8. -/
def Chk.rotate (c : Chk) : Chk :=
  let chk0 := c.chk0 % 0x100 * 2
  { c with chk0 := if 0x100 ≤ chk0 then chk0 + 1 else chk0 }

/-- The first byte of a step goes into `chk2`, with the carry out of `chk0`. -/
def Chk.first (c : Chk) (val : Byte) : Chk :=
  if 0x100 ≤ c.chk0 then
    { c with chk2 := c.chk2 + val.toNat + 1, chk0 := c.chk0 % 0x100 }
  else { c with chk2 := c.chk2 + val.toNat }

/-- The second into `chk1`, with the carry out of `chk2`. -/
def Chk.second (c : Chk) (val : Byte) : Chk :=
  if 0xFF < c.chk2 then
    { c with chk1 := c.chk1 + val.toNat + 1, chk2 := c.chk2 % 0x100 }
  else { c with chk1 := c.chk1 + val.toNat }

/-- The third into `chk0`, with the carry out of `chk1`. -/
def Chk.third (c : Chk) (val : Byte) : Chk :=
  if 0xFF < c.chk1 then
    { c with chk0 := c.chk0 + val.toNat + 1, chk1 := c.chk1 % 0x100 }
  else { c with chk0 := c.chk0 + val.toNat }

/-- The `uint8_t` cast of a checksum. -/
def low (chk : Nat) : Byte := BitVec.ofNat 8 chk

structure Part where
  part0 : Byte
  part1 : Byte
  part2 : Byte
deriving DecidableEq

/-- The first loop of `EncodeSector62_524`; the buffer ends after the second byte of
its last step, whose third part is zero. -/
def split : Chk → List Byte → List Part × Chk
  | c, val0 :: val1 :: rest =>
    let c := c.rotate.first val0
    let part0 := val0 ^^^ low c.chk0
    let c := c.second val1
    let part1 := val1 ^^^ low c.chk2
    match rest with
    | [] => ([{ part0 := part0, part1 := part1, part2 := 0x00 }], c)
    | val2 :: rest =>
      let c := c.third val2
      let (parts, c') := split c rest
      ({ part0 := part0, part1 := part1, part2 := val2 ^^^ low c.chk1 } :: parts, c')
  | c, _ => ([], c)

/-- The second loop of `DecodeSector62_524`.  It XORs with each checksum before the
carry is cut off. -/
def join : Chk → List Part → List Byte × Chk
  | c, [] => ([], c)
  | c, p :: ps =>
    let c := c.rotate
    let val0 := p.part0 ^^^ low c.chk0
    let c := c.first val0
    let val1 := p.part1 ^^^ low c.chk2
    let c := c.second val1
    if ps.isEmpty then ([val0, val1], c)
    else
      let val2 := p.part2 ^^^ low c.chk1
      let c := c.third val2
      let (bytes, c) := join c ps
      (val0 :: val1 :: val2 :: bytes, c)

theorem low_mod (n : Nat) : low (n % 0x100) = low n := by
  unfold low
  apply BitVec.eq_of_toNat_eq
  simp only [BitVec.toNat_ofNat]
  omega

theorem low_first (c : Chk) (val : Byte) : low (c.first val).chk0 = low c.chk0 := by
  unfold Chk.first
  split
  · exact low_mod c.chk0
  · rfl

theorem low_second (c : Chk) (val : Byte) : low (c.second val).chk2 = low c.chk2 := by
  unfold Chk.second
  split
  · exact low_mod c.chk2
  · rfl

theorem low_third (c : Chk) (val : Byte) : low (c.third val).chk1 = low c.chk1 := by
  unfold Chk.third
  split
  · exact low_mod c.chk1
  · rfl

theorem xor_xor_cancel (v a : Byte) : v ^^^ a ^^^ a = v := by
  rw [BitVec.xor_assoc, BitVec.xor_self, BitVec.xor_zero]

theorem split_length (n : Nat) : ∀ (c : Chk) (bytes : List Byte), bytes.length = 3 * n + 2 →
    (split c bytes).1.length = n + 1 := by
  induction n with
  | zero =>
    intro c bytes h
    match bytes, h with
    | [_, _], _ => rfl
  | succ n ih =>
    intro c bytes h
    match bytes, h with
    | v0 :: v1 :: v2 :: rest, h =>
      simp only [List.length_cons] at h
      simp only [split, List.length_cons]
      rw [ih _ rest (by omega)]

theorem join_split (n : Nat) : ∀ (c : Chk) (bytes : List Byte), bytes.length = 3 * n + 2 →
    join c (split c bytes).1 = (bytes, (split c bytes).2) := by
  induction n with
  | zero =>
    intro c bytes h
    match bytes, h with
    | [v0, v1], _ =>
      simp only [split, join, low_first, low_second, xor_xor_cancel, List.isEmpty_nil, if_true]
  | succ n ih =>
    intro c bytes h
    match bytes, h with
    | v0 :: v1 :: v2 :: rest, h =>
      simp only [List.length_cons] at h
      have hlen := split_length n (((c.rotate.first v0).second v1).third v2) rest (by omega)
      have hne : (split (((c.rotate.first v0).second v1).third v2) rest).1.isEmpty = false := by
        rw [List.isEmpty_eq_false_iff]
        intro h0
        rw [h0] at hlen
        exact absurd hlen (by simp)
      simp only [split, join, low_first, low_second, low_third, xor_xor_cancel, hne,
        ih _ rest (by omega), Bool.false_eq_true, if_false]

def twos (p0 p1 p2 : Byte) : Byte :=
  ((p0 &&& 0xC0) >>> 2) ||| ((p1 &&& 0xC0) >>> 4) ||| ((p2 &&& 0xC0) >>> 6)

/-- The nibble loop of `EncodeSector62_524`; the last group has no third part. -/
def emitParts : List Part → List Byte
  | [] => []
  | p :: ps =>
    [diskByte (twos p.part0 p.part1 p.part2), diskByte (p.part0 &&& 0x3F),
      diskByte (p.part1 &&& 0x3F)] ++
    (if ps.isEmpty then [] else [diskByte (p.part2 &&& 0x3F)]) ++ emitParts ps

def emitChk (c : Chk) : List Byte :=
  let chktwos := ((low c.chk0 &&& 0xC0) >>> 6) ||| ((low c.chk1 &&& 0xC0) >>> 4) |||
    ((low c.chk2 &&& 0xC0) >>> 2)
  [diskByte chktwos, diskByte (low c.chk2 &&& 0x3F), diskByte (low c.chk1 &&& 0x3F),
    diskByte (low c.chk0 &&& 0x3F)]

/-- `EncodeSector62_524`. -/
def encodeSector (buffer : List Byte) : List Byte :=
  let (parts, c) := split {} buffer
  emitParts parts ++ emitChk c

/-- Three bytes from the values of their four nibbles, `none` when one is not a disk
byte. -/
def assembleGroup (t n0 n1 n2 : Byte) : Option Part :=
  if t = invalidInv ∨ n0 = invalidInv ∨ n1 = invalidInv ∨ n2 = invalidInv then none
  else some { part0 := n0 ||| ((t <<< 2) &&& 0xC0), part1 := n1 ||| ((t <<< 4) &&& 0xC0),
              part2 := n2 ||| ((t <<< 6) &&& 0xC0) }

/-- The first loop of `DecodeSector62_524`, `k` groups to go; the last has three
nibbles. -/
def assemble : Nat → List Byte → Option (List Part × List Byte)
  | 0, ns => some ([], ns)
  | 1, t :: n0 :: n1 :: ns => do
      let p ← assembleGroup (invDiskByte t) (invDiskByte n0) (invDiskByte n1) 0
      some ([p], ns)
  | k + 2, t :: n0 :: n1 :: n2 :: ns => do
      let p ← assembleGroup (invDiskByte t) (invDiskByte n0) (invDiskByte n1) (invDiskByte n2)
      let (ps, ns) ← assemble (k + 1) ns
      some (p :: ps, ns)
  | _, _ => none

def chunkSize : Nat := 175

/-- `DecodeSector62_524`. -/
def decodeSector (input : List Byte) : Option (List Byte) := do
  let (parts, ns) ← assemble chunkSize input
  -- the checksum group has its parts the other way round
  let readChk ← assembleGroup (invDiskByte (ns.getD 0 0)) (invDiskByte (ns.getD 1 0))
    (invDiskByte (ns.getD 2 0)) (invDiskByte (ns.getD 3 0))
  let (bytes, c) := join {} parts
  if readChk.part2 ≠ low c.chk0 ∨ readChk.part1 ≠ low c.chk1 ∨ readChk.part0 ≠ low c.chk2 then none
  else some bytes

theorem twos_lt (p0 p1 p2 : Byte) : (twos p0 p1 p2).toNat < 64 := by
  have h2 : ∀ p : Byte, ((p &&& 0xC0) >>> 2).toNat < 2 ^ 6 := by decide +kernel
  have h4 : ∀ p : Byte, ((p &&& 0xC0) >>> 4).toNat < 2 ^ 6 := by decide +kernel
  have h6 : ∀ p : Byte, ((p &&& 0xC0) >>> 6).toNat < 2 ^ 6 := by decide +kernel
  unfold twos
  rw [BitVec.toNat_or, BitVec.toNat_or]
  exact Nat.or_lt_two_pow (Nat.or_lt_two_pow (h2 p0) (h4 p1)) (h6 p2)

theorem twos_top (p0 p1 p2 : Byte) :
    ((twos p0 p1 p2) <<< 2) &&& 0xC0 = p0 &&& 0xC0 ∧
      ((twos p0 p1 p2) <<< 4) &&& 0xC0 = p1 &&& 0xC0 ∧
      ((twos p0 p1 p2) <<< 6) &&& 0xC0 = p2 &&& 0xC0 := by
  have h0 : ∀ p : Byte, (((p &&& 0xC0) >>> 2) <<< 2) &&& 0xC0 = p &&& 0xC0 ∧
      (((p &&& 0xC0) >>> 2) <<< 4) &&& 0xC0 = 0#8 ∧ (((p &&& 0xC0) >>> 2) <<< 6) &&& 0xC0 = 0#8 := by
    decide +kernel
  have h1 : ∀ p : Byte, (((p &&& 0xC0) >>> 4) <<< 2) &&& 0xC0 = 0#8 ∧
      (((p &&& 0xC0) >>> 4) <<< 4) &&& 0xC0 = p &&& 0xC0 ∧
      (((p &&& 0xC0) >>> 4) <<< 6) &&& 0xC0 = 0#8 := by
    decide +kernel
  have h2 : ∀ p : Byte, (((p &&& 0xC0) >>> 6) <<< 2) &&& 0xC0 = 0#8 ∧
      (((p &&& 0xC0) >>> 6) <<< 4) &&& 0xC0 = 0#8 ∧
      (((p &&& 0xC0) >>> 6) <<< 6) &&& 0xC0 = p &&& 0xC0 := by
    decide +kernel
  obtain ⟨h00, h01, h02⟩ := h0 p0
  obtain ⟨h10, h11, h12⟩ := h1 p1
  obtain ⟨h20, h21, h22⟩ := h2 p2
  have hdist : ∀ (a b c : Byte) (k : Nat), (((a ||| b) ||| c) <<< k) &&& 0xC0 =
      (((a <<< k) &&& 0xC0) ||| ((b <<< k) &&& 0xC0)) ||| ((c <<< k) &&& 0xC0) := by
    intro a b c k
    rw [BitVec.shiftLeft_or_distrib, BitVec.shiftLeft_or_distrib, BitVec.and_comm _ 0xC0,
      BitVec.and_or_distrib_left, BitVec.and_or_distrib_left]
    simp only [BitVec.and_comm]
  unfold twos
  refine ⟨?_, ?_, ?_⟩
  · rw [hdist, h00, h10, h20, BitVec.or_zero, BitVec.or_zero]
  · rw [hdist, h01, h11, h21, BitVec.zero_or, BitVec.or_zero]
  · rw [hdist, h02, h12, h22, BitVec.zero_or, BitVec.zero_or]

theorem low_or_top : ∀ p : Byte, (p &&& 0x3F) ||| (p &&& 0xC0) = p := by decide +kernel

theorem low_lt : ∀ p : Byte, (p &&& 0x3F).toNat < 64 := by decide +kernel

theorem assembleGroup_diskByte (p0 p1 p2 : Byte) :
    assembleGroup (invDiskByte (diskByte (twos p0 p1 p2))) (invDiskByte (diskByte (p0 &&& 0x3F)))
        (invDiskByte (diskByte (p1 &&& 0x3F))) (invDiskByte (diskByte (p2 &&& 0x3F))) =
      some { part0 := p0, part1 := p1, part2 := p2 } := by
  obtain ⟨ht0, ht1, ht2⟩ := twos_top p0 p1 p2
  have hvalid := not_or.mpr ⟨invDiskByte_ne (twos_lt p0 p1 p2), not_or.mpr
    ⟨invDiskByte_ne (low_lt p0), not_or.mpr ⟨invDiskByte_ne (low_lt p1),
      invDiskByte_ne (low_lt p2)⟩⟩⟩
  rw [assembleGroup, if_neg hvalid, (invDiskByte_diskByte _ (twos_lt p0 p1 p2)).1,
    (invDiskByte_diskByte _ (low_lt p0)).1, (invDiskByte_diskByte _ (low_lt p1)).1,
    (invDiskByte_diskByte _ (low_lt p2)).1, ht0, ht1, ht2, low_or_top, low_or_top, low_or_top]

theorem split_last (n : Nat) : ∀ (c : Chk) (bytes : List Byte), bytes.length = 3 * n + 2 →
    ∃ front p, (split c bytes).1 = front ++ [p] ∧ front.length = n ∧ p.part2 = 0x00 := by
  induction n with
  | zero =>
    intro c bytes h
    match bytes, h with
    | [_, _], _ => exact ⟨[], _, rfl, rfl, rfl⟩
  | succ n ih =>
    intro c bytes h
    match bytes, h with
    | v0 :: v1 :: v2 :: rest, h =>
      simp only [List.length_cons] at h
      obtain ⟨front, p, hsplit, hlen, hp⟩ :=
        ih (((c.rotate.first v0).second v1).third v2) rest (by omega)
      obtain ⟨q, hq⟩ : ∃ q, (split c (v0 :: v1 :: v2 :: rest)).1 =
          q :: (split (((c.rotate.first v0).second v1).third v2) rest).1 := ⟨_, rfl⟩
      refine ⟨q :: front, p, ?_, ?_, hp⟩
      · rw [hq, hsplit, List.cons_append]
      · rw [List.length_cons, hlen]

theorem assemble_emitParts (p : Part) (hp : p.part2 = 0x00) (rest : List Byte) :
    ∀ front : List Part,
      assemble (front.length + 1) (emitParts (front ++ [p]) ++ rest) = some (front ++ [p], rest) := by
  intro front
  induction front with
  | nil =>
    have hgroup := assembleGroup_diskByte p.part0 p.part1 p.part2
    have hzero : invDiskByte (diskByte (p.part2 &&& 0x3F)) = 0 := by
      rw [hp]
      decide
    rw [hzero] at hgroup
    simp only [List.nil_append, List.length_nil, Nat.zero_add, emitParts, List.isEmpty_nil, if_true,
      List.append_nil, List.cons_append, assemble, hgroup]
    rfl
  | cons q front ih =>
    have hne : (front ++ [p]).isEmpty = false := by simp
    have hgroup := assembleGroup_diskByte q.part0 q.part1 q.part2
    simp only [List.cons_append, List.length_cons, emitParts, hne, Bool.false_eq_true, if_false,
      List.nil_append, assemble, hgroup, ih]
    rfl

theorem emitChk_group (c : Chk) :
    emitChk c = [diskByte (twos (low c.chk2) (low c.chk1) (low c.chk0)),
      diskByte (low c.chk2 &&& 0x3F), diskByte (low c.chk1 &&& 0x3F),
      diskByte (low c.chk0 &&& 0x3F)] := by
  simp only [emitChk, twos]
  rw [BitVec.or_assoc, BitVec.or_comm, BitVec.or_comm ((low c.chk1 &&& 0xC0) >>> 4)]

theorem decodeSector_encodeSector (bytes : List Byte) (h : bytes.length = 524) :
    decodeSector (encodeSector bytes) = some bytes := by
  obtain ⟨front, p, hsplit, hlen, hp⟩ := split_last 174 {} bytes h
  have hjoin := join_split 174 {} bytes h
  have hassemble := assemble_emitParts p hp (emitChk (split {} bytes).2) front
  have hgroup := assembleGroup_diskByte (low (split {} bytes).2.chk2) (low (split {} bytes).2.chk1)
    (low (split {} bytes).2.chk0)
  rw [hlen, ← hsplit] at hassemble
  simp only [decodeSector, encodeSector, chunkSize]
  rw [hassemble]
  simp only [Option.bind_eq_bind, Option.bind_some, emitChk_group, List.getD_cons_zero,
    List.getD_cons_succ, hgroup, hjoin, ne_eq, not_true_eq_false, or_self, if_false]

theorem diskByte_msb {v : Byte} (hv : v.toNat < 64) : (diskByte v).msb = true :=
  (invDiskByte_diskByte v hv).2

theorem emitParts_msb (ps : List Part) : ∀ b ∈ emitParts ps, b.msb = true := by
  induction ps with
  | nil => intro b hb; cases hb
  | cons p ps ih =>
    intro b hb
    simp only [emitParts, List.mem_append, List.mem_cons, List.not_mem_nil, or_false] at hb
    rcases hb with ((rfl | rfl | rfl) | hb) | hb
    · exact diskByte_msb (twos_lt _ _ _)
    · exact diskByte_msb (low_lt _)
    · exact diskByte_msb (low_lt _)
    · split at hb
      · cases hb
      · rw [List.mem_singleton.mp hb]
        exact diskByte_msb (low_lt _)
    · exact ih b hb

theorem encodeSector_msb (bytes : List Byte) : ∀ b ∈ encodeSector bytes, b.msb = true := by
  intro b hb
  rcases List.mem_append.mp hb with hb | hb
  · exact emitParts_msb _ b hb
  · rw [emitChk_group] at hb
    simp only [List.mem_cons, List.not_mem_nil, or_false] at hb
    rcases hb with rfl | rfl | rfl | rfl
    · exact diskByte_msb (twos_lt _ _ _)
    · exact diskByte_msb (low_lt _)
    · exact diskByte_msb (low_lt _)
    · exact diskByte_msb (low_lt _)

theorem emitParts_length (p : Part) (front : List Part) :
    (emitParts (front ++ [p])).length = 4 * front.length + 3 := by
  induction front with
  | nil => rfl
  | cons q front ih =>
    have hne : (front ++ [p]).isEmpty = false := by simp
    simp only [List.cons_append, emitParts, hne, Bool.false_eq_true, if_false, List.length_append,
      List.length_cons, List.length_nil, ih]
    omega

theorem encodeSector_length (bytes : List Byte) (h : bytes.length = 524) :
    (encodeSector bytes).length = 703 := by
  obtain ⟨front, p, hsplit, hlen, -⟩ := split_last 174 {} bytes h
  show (emitParts (split {} bytes).1 ++ emitChk (split {} bytes).2).length = 703
  rw [hsplit, List.length_append, emitParts_length, hlen]
  rfl

end GSSquared.Woz.Nib35
