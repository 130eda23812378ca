/-
The WOZ track bit stream and the primitives that append to it.
-/
import Mathlib
import GSSquared.Lib.Bits

set_option linter.all false

namespace GSSquared.Woz

open Bits

/-- `woz_track_t`: the packed stream and the number of its bits (`uint32_t`). -/
structure Track where
  bits : List Byte := []
  bitCount : Nat := 0
deriving DecidableEq

/-- The stream with room for one more bit: `emit_bit`'s `push_back`. -/
def Track.grown (trk : Track) : List Byte :=
  if trk.bitCount / 8 ≥ trk.bits.length then trk.bits ++ [0x00] else trk.bits

def emitBit (trk : Track) (bit : Bool) : Track :=
  let byteIdx := trk.bitCount / 8
  let bitIdx := 7 - trk.bitCount % 8
  { bits := if bit then trk.grown.modify byteIdx (· ||| (1#8 <<< bitIdx)) else trk.grown
    bitCount := (trk.bitCount + 1) % 2 ^ 32 }

/-- `Woz_Nibblizer::emit_data_byte`: eight bits, high bit first. -/
def emitDataByte (trk : Track) (byte : Byte) : Track :=
  [7, 6, 5, 4, 3, 2, 1, 0].foldl (fun trk i => emitBit trk (byte.getLsbD i)) trk

/-- `Woz_Nibblizer::emit_sync_byte`: eight ones and the two timing zeros. -/
def emitSyncByte (trk : Track) : Track :=
  let trk := (List.replicate 8 true).foldl emitBit trk
  emitBit (emitBit trk false) false

def emitSyncBytes (trk : Track) : Nat → Track
  | 0 => trk
  | n + 1 => emitSyncBytes (emitSyncByte trk) n

/-- The two bytes of the 4&4 code: the odd bits, then the even bits, each with the
other half of the byte set. -/
def encoded44 (value : Byte) : Byte × Byte :=
  (((value &&& 0b10101010) >>> 1) ||| 0b10101010, (value &&& 0b01010101) ||| 0b10101010)

def emitEncoded44 (trk : Track) (value : Byte) : Track :=
  emitDataByte (emitDataByte trk (encoded44 value).1) (encoded44 value).2

/-- Exactly the cells `bs`: as many bits as cells, just enough bytes for them, cell
`i` in bit `7 - i % 8` of byte `i / 8`, and the padding of the last byte clear. -/
structure Holds (trk : Track) (bs : List Bool) : Prop where
  count : trk.bitCount = bs.length
  size : trk.bits.length = (bs.length + 7) / 8
  cell : ∀ i, i < 8 * trk.bits.length →
    (trk.bits.getD (i / 8) 0).getLsbD (7 - i % 8) = bs.getD i false

theorem holds_empty : Holds {} [] :=
  ⟨rfl, rfl, fun i hi => absurd hi (Nat.not_lt_zero i)⟩

theorem getLsbD_oneBit {j k : Nat} (hj : j < 8) : (1#8 <<< k).getLsbD j = decide (j = k) := by
  rw [BitVec.getLsbD_shiftLeft]
  rcases Nat.lt_trichotomy j k with h | h | h
  · simp [h, Nat.ne_of_lt h]
  · subst h; simp [hj]
  · have hne : j - k ≠ 0 := by omega
    simp [Nat.ne_of_gt h, BitVec.getLsbD_one, hne]

theorem getD_modify_or (l : List Byte) (i j k : Nat) (b : Byte) (hi : i < l.length) :
    ((l.modify i (· ||| b)).getD j 0).getLsbD k =
      ((l.getD j 0).getLsbD k || (decide (j = i) && b.getLsbD k)) := by
  simp only [List.getD_eq_getElem?_getD, List.getElem?_modify]
  by_cases hji : i = j
  · subst hji
    simp [List.getElem?_eq_getElem hi]
  · simp [hji, Ne.symm hji]

theorem getD_append_zero (l : List Byte) (j : Nat) : (l ++ [0x00]).getD j 0 = l.getD j 0 := by
  rcases Nat.lt_trichotomy j l.length with h | h | h
  · simp [List.getD_eq_getElem?_getD, List.getElem?_append_left h]
  · subst h; simp [List.getD_eq_getElem?_getD]
  · simp [List.getD_eq_getElem?_getD, List.getElem?_eq_none (Nat.le_of_lt h),
      List.getElem?_append_right (Nat.le_of_lt h), List.getElem?_eq_none,
      Nat.succ_le_of_lt (Nat.sub_pos_of_lt h)]

/-- `f` appends exactly the cells `bs` to whatever the track holds, as long as the
32-bit counter holds the result. -/
def Emits (f : Track → Track) (bs : List Bool) : Prop :=
  ∀ trk front, Holds trk front → front.length + bs.length < 2 ^ 32 → Holds (f trk) (front ++ bs)

theorem emits_id : Emits (fun trk => trk) [] := by
  intro trk front h _
  simpa using h

theorem Emits.comp {f g : Track → Track} {bs cs : List Bool} (hf : Emits f bs) (hg : Emits g cs) :
    Emits (fun trk => g (f trk)) (bs ++ cs) := by
  intro trk front h hlen
  rw [List.length_append] at hlen
  rw [← List.append_assoc]
  exact hg _ _ (hf _ _ h (by omega)) (by rw [List.length_append]; omega)

theorem grown_getD (trk : Track) (j : Nat) : trk.grown.getD j 0 = trk.bits.getD j 0 := by
  unfold Track.grown
  split
  · exact getD_append_zero trk.bits j
  · rfl

theorem Holds.grown_length {trk : Track} {bs : List Bool} (h : Holds trk bs) :
    trk.grown.length = (bs.length + 8) / 8 := by
  have hc := h.count
  have hs := h.size
  unfold Track.grown
  split
  · rw [List.length_append, List.length_singleton]; omega
  · omega

theorem emitBit_length (trk : Track) (bit : Bool) :
    (emitBit trk bit).bits.length = trk.grown.length := by
  cases bit
  · rfl
  · exact List.length_modify ..

theorem emitBit_cell {trk : Track} {bs : List Bool} (h : Holds trk bs) (bit : Bool) (i : Nat) :
    ((emitBit trk bit).bits.getD (i / 8) 0).getLsbD (7 - i % 8) =
      ((trk.bits.getD (i / 8) 0).getLsbD (7 - i % 8) || (bit && decide (i = bs.length))) := by
  have hidx : trk.bitCount / 8 < trk.grown.length := by
    rw [h.grown_length, h.count]; omega
  cases bit
  · show (trk.grown.getD (i / 8) 0).getLsbD (7 - i % 8) = _
    rw [grown_getD, Bool.false_and, Bool.or_false]
  · show ((trk.grown.modify (trk.bitCount / 8)
        (· ||| (1#8 <<< (7 - trk.bitCount % 8)))).getD (i / 8) 0).getLsbD (7 - i % 8) = _
    rw [getD_modify_or _ _ _ _ _ hidx, grown_getD, getLsbD_oneBit (by omega),
      h.count, Bool.true_and, ← Bool.decide_and]
    congr 1
    refine decide_eq_decide.mpr ⟨fun ⟨h1, h2⟩ => by omega, fun h => ⟨by omega, by omega⟩⟩

theorem emitBit_emits (bit : Bool) : Emits (fun trk => emitBit trk bit) [bit] := by
  intro trk front h hlen
  simp only [List.length_singleton] at hlen
  refine ⟨?_, ?_, ?_⟩
  · show (trk.bitCount + 1) % 2 ^ 32 = _
    rw [h.count, List.length_append, List.length_singleton]
    omega
  · rw [emitBit_length, h.grown_length, List.length_append, List.length_singleton]
  · intro i hi
    rw [emitBit_length, h.grown_length] at hi
    have hold : (trk.bits.getD (i / 8) 0).getLsbD (7 - i % 8) = front.getD i false := by
      by_cases hin : i < 8 * trk.bits.length
      · exact h.cell i hin
      · have hs := h.size
        rw [List.getD_eq_getElem?_getD, List.getD_eq_getElem?_getD,
          List.getElem?_eq_none (by omega), List.getElem?_eq_none (by omega)]
        exact BitVec.getLsbD_zero
    rw [emitBit_cell h, hold]
    simp only [List.getD_eq_getElem?_getD]
    rcases Nat.lt_trichotomy i front.length with hlt | heq | hgt
    · rw [List.getElem?_append_left hlt]
      simp [Nat.ne_of_lt hlt]
    · subst heq
      simp
    · rw [List.getElem?_append_right (Nat.le_of_lt hgt), List.getElem?_eq_none (Nat.le_of_lt hgt),
        List.getElem?_eq_none (by rw [List.length_singleton]; omega)]
      simp [Nat.ne_of_gt hgt]

/-! ## Nibbles

What an encoder appends is a sequence of nibbles: an eight-bit data byte, or a
sync byte with its two trailing zeros. -/

inductive Nib where
  | data (byte : Byte)
  | sync
deriving DecidableEq

def Nib.cells : Nib → List Bool
  | .data byte => msbFirst byte
  | .sync => msbFirst 0xFF ++ [false, false]

def Nib.value : Nib → Byte
  | .data byte => byte
  | .sync => 0xFF

def Nib.trail : Nib → Nat
  | .data _ => 0
  | .sync => 2

theorem Nib.cells_eq (n : Nib) : n.cells = msbFirst n.value ++ List.replicate n.trail false := by
  cases n with
  | data byte => exact (List.append_nil _).symm
  | sync => rfl

def nibCells (ns : List Nib) : List Bool := ns.flatMap Nib.cells

theorem Nib.cells_length (n : Nib) : n.cells.length ≤ 10 := by
  cases n with
  | data byte => exact (by decide : 8 ≤ 10)
  | sync => exact Nat.le_refl 10

theorem nibCells_length (ns : List Nib) : (nibCells ns).length ≤ 10 * ns.length := by
  induction ns with
  | nil => exact Nat.le_refl 0
  | cons n ns ih =>
    have := Nib.cells_length n
    rw [nibCells, List.flatMap_cons, List.length_append, List.length_cons, ← nibCells]
    omega

theorem nibCells_append (ns ms : List Nib) : nibCells (ns ++ ms) = nibCells ns ++ nibCells ms :=
  List.flatMap_append

/-- `f` appends exactly the nibbles `ns`. -/
def EmitsNibs (f : Track → Track) (ns : List Nib) : Prop := Emits f (nibCells ns)

theorem EmitsNibs.comp {f g : Track → Track} {ns ms : List Nib}
    (hf : EmitsNibs f ns) (hg : EmitsNibs g ms) : EmitsNibs (fun trk => g (f trk)) (ns ++ ms) := by
  unfold EmitsNibs
  rw [nibCells_append]
  exact Emits.comp hf hg

theorem EmitsNibs.holds {f : Track → Track} {ns : List Nib} (hf : EmitsNibs f ns)
    (hlen : (nibCells ns).length < 2 ^ 32) : Holds (f {}) (nibCells ns) := by
  have h := hf {} [] holds_empty (by rw [List.length_nil, Nat.zero_add]; exact hlen)
  exact h

theorem emits_foldl {α : Type} (f : Track → α → Track) (cells : α → List Bool)
    (h : ∀ a, Emits (fun trk => f trk a) (cells a)) (l : List α) :
    Emits (fun trk => l.foldl f trk) (l.flatMap cells) := by
  induction l with
  | nil => exact emits_id
  | cons a l ih => exact Emits.comp (h a) ih

theorem emitsNibs_foldl {α : Type} (f : Track → α → Track) (nibs : α → List Nib)
    (h : ∀ a, EmitsNibs (fun trk => f trk a) (nibs a)) (l : List α) :
    EmitsNibs (fun trk => l.foldl f trk) (l.flatMap nibs) := by
  unfold EmitsNibs nibCells
  rw [List.flatMap_assoc]
  exact emits_foldl f (fun a => nibCells (nibs a)) h l

theorem emitDataByte_emits (byte : Byte) :
    EmitsNibs (fun trk => emitDataByte trk byte) [.data byte] :=
  emits_foldl (fun trk i => emitBit trk (byte.getLsbD i)) (fun i => [byte.getLsbD i])
    (fun _ => emitBit_emits _) [7, 6, 5, 4, 3, 2, 1, 0]

theorem emitDataByte3_emits (a b c : Byte) :
    EmitsNibs (fun trk => emitDataByte (emitDataByte (emitDataByte trk a) b) c)
      ([.data a] ++ [.data b] ++ [.data c]) := by
  have h := ((emitDataByte_emits a).comp (emitDataByte_emits b)).comp (emitDataByte_emits c)
  exact h

theorem emitDataBytes_emits (bytes : List Byte) :
    EmitsNibs (fun trk => bytes.foldl emitDataByte trk) (bytes.map .data) := by
  have h := emitsNibs_foldl emitDataByte (fun b => [.data b]) emitDataByte_emits bytes
  rwa [← List.map_eq_flatMap] at h

theorem emitSyncByte_emits : EmitsNibs emitSyncByte [.sync] := by
  have hones := emits_foldl emitBit (fun b => [b]) emitBit_emits (List.replicate 8 true)
  have hcells : nibCells [.sync] =
      ((List.replicate 8 true).flatMap (fun b => [b]) ++ [false]) ++ [false] := by decide
  unfold EmitsNibs
  rw [hcells]
  have h := (hones.comp (emitBit_emits false)).comp (emitBit_emits false)
  exact h

theorem emitSyncBytes_emits (n : Nat) :
    EmitsNibs (fun trk => emitSyncBytes trk n) (List.replicate n .sync) := by
  induction n with
  | zero => exact emits_id
  | succ n ih => exact EmitsNibs.comp emitSyncByte_emits ih

theorem emitEncoded44_emits (value : Byte) :
    EmitsNibs (fun trk => emitEncoded44 trk value)
      ([.data (encoded44 value).1] ++ [.data (encoded44 value).2]) := by
  have h := (emitDataByte_emits (encoded44 value).1).comp (emitDataByte_emits (encoded44 value).2)
  exact h

end GSSquared.Woz
