/-
A WOZ file that has been damaged since it was written.
-/
import GSSquared.Lib.Crc
import GSSquared.Woz.Load

set_option linter.all false

namespace GSSquared.Woz

open Bits Wire

def crcPolynomial : BitVec 32 := 0xEDB88320

theorem crc32Tab_toList : crc32Tab.toList = (List.range 256).map fun i =>
    (Crc.shiftBit crcPolynomial)^[8] (BitVec.ofNat 32 i) := by
  decide +kernel

theorem crc32Tab_getD {i : Nat} (hi : i < 256) :
    crc32Tab.getD i 0 = (Crc.shiftBit crcPolynomial)^[8] (BitVec.ofNat 32 i) := by
  rw [Array.getD_eq_getD_getElem?, ← Array.getElem?_toList, crc32Tab_toList, List.getElem?_map, List.getElem?_range hi]
  rfl

theorem crc32_register (buf : List Byte) : crc32 buf = ~~~ Crc.register crcPolynomial (~~~ 0) buf := by
  have hstep : (fun (crc : BitVec 32) (b : Byte) =>
      crc32Tab.getD ((crc ^^^ b.setWidth 32) &&& 0xFF).toNat 0 ^^^ (crc >>> 8)) = Crc.byteStep crcPolynomial := by
    funext crc b
    have hlt : ((crc ^^^ b.setWidth 32) &&& 0xFF#32).toNat < 256 := by
      rw [BitVec.toNat_and]
      exact Nat.lt_succ_of_le Nat.and_le_right
    have htab := crc32Tab_getD hlt
    rw [BitVec.ofNat_toNat, BitVec.setWidth_eq] at htab
    rw [Crc.byteStep_table, ← htab]
    rfl
  unfold crc32 Crc.register
  rw [hstep]

theorem crc32_burst {front bs bs' rest : List Byte} (hlen : bs.length = bs'.length) (hshort : bs.length ≤ 4)
    (hne : bs ≠ bs') : crc32 (front ++ bs ++ rest) ≠ crc32 (front ++ bs' ++ rest) := by
  intro heq
  rw [crc32_register, crc32_register] at heq
  exact Crc.register_burst (p := crcPolynomial) (by decide) _ front rest hlen (by omega) hne (BitVec.not_inj.mp heq)

theorem crcValid_iff {head : List Byte} (hhead : head.length = headerSize) (body : List Byte) :
    crcValid (head ++ body) = true ↔ le (head.drop 8) = 0 ∨ (crc32 body).toNat = le (head.drop 8) := by
  have hhead : head.length = 12 := hhead
  have hstored : ((head ++ body).drop 8).take 4 = head.drop 8 := by
    rw [List.drop_append_of_le_length (by omega), List.take_left' (by rw [List.length_drop]; omega)]
  have hbody : (head ++ body).drop headerSize = body := List.drop_left' hhead
  unfold crcValid
  dsimp only
  rw [hstored, hbody, Bool.or_eq_true, decide_eq_true_eq, decide_eq_true_eq]

/-- A file whose checksum is right and not zero is refused once as many as four bytes in a row have been changed
behind its header, and nothing of it is taken but the version. -/
theorem load_damaged (head front bs bs' rest : List Byte) (img : Image) (hhead : head.length = headerSize)
    (hvalid : crcValid (head ++ (front ++ bs ++ rest)) = true) (hchecked : le (head.drop 8) ≠ 0)
    (hlen : bs.length = bs'.length) (hshort : bs.length ≤ 4) (hne : bs ≠ bs') :
    ∃ version, load (head ++ (front ++ bs' ++ rest)) img = .ok (-1, { img with fileVersion := version }) := by
  have hcrc := ((crcValid_iff hhead _).mp hvalid).resolve_left hchecked
  have hinvalid : crcValid (head ++ (front ++ bs' ++ rest)) = false := by
    rw [Bool.eq_false_iff, Ne, crcValid_iff hhead, ← hcrc]
    rintro (hzero | heq)
    · exact hchecked (hcrc ▸ hzero)
    · exact crc32_burst hlen hshort hne (BitVec.eq_of_toNat_eq heq.symm)
  unfold load
  split
  · exact ⟨img.fileVersion, rfl⟩
  · split
    · exact ⟨img.fileVersion, rfl⟩
    · next version _ =>
      rw [hinvalid]
      exact ⟨version, rfl⟩

theorem load_damaged_end : ∃ version, load (woz2Magic ++ [0x69, 0xDF, 0x22, 0x65] ++ ([] ++ [1, 0] ++ [0, 0, 0, 0, 0, 0])) {} =
    .ok (-1, { ({} : Image) with fileVersion := version }) :=
  load_damaged _ [] [0, 0] _ _ _ rfl (by decide +kernel) (by decide) rfl (by decide) (by decide)

end GSSquared.Woz
