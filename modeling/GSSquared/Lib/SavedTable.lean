/-
Saving a page table and loading it elsewhere. A pointer is saved as the memory it points into and
its offset there.
-/
import GSSquared.Lib.PageTable
import GSSquared.Lib.Reader

set_option linter.all false

namespace GSSquared.Paging

open Bits Wire

section

variable {π ρ : Type}

/-- The memories pointers are saved relative to: where a pointer lies, and the pointer at a
place. -/
structure Bases (π : Type) where
  locate : π → Option (Nat × Nat)
  place : Nat → Nat → Option π

structure Bases.Lawful (b : Bases π) : Prop where
  place_locate : ∀ p base off, b.locate p = some (base, off) → b.place base off = some p
  small : ∀ p base off, b.locate p = some (base, off) → base < 128 ∧ off < 2 ^ 32

/-- A saved pointer: the base's number, -1 for null, -2 for no base. -/
structure Saved where
  rg : Int
  off : Nat

namespace Saved

def bytes (x : Saved) : List Byte := BitVec.ofInt 8 x.rg :: u32le x.off

def reader : Reader Saved := do
  let rg ← Reader.block 1
  let off ← Reader.block 4
  pure ⟨(rg.getD 0 0).toInt, le off⟩

theorem reads {x : Saved} (hlo : -128 ≤ x.rg) (hhi : x.rg < 128) (hoff : x.off < 2 ^ 32) :
    Reads reader x.bytes x := by
  have hrg : (BitVec.ofInt 8 x.rg).toInt = x.rg := BitVec.toInt_ofInt_eq_self (by decide) hlo hhi
  have hword : le (u32le x.off) = x.off := by rw [le_u32le, Nat.mod_eq_of_lt hoff]
  have hone : Reads (Reader.block 1) [BitVec.ofInt 8 x.rg] [BitVec.ofInt 8 x.rg] := .block rfl
  refine hone.bind (Reads.last (.block (u32le_length x.off)) ?_)
  show Pure.pure (Saved.mk (BitVec.ofInt 8 x.rg).toInt (le (u32le x.off))) = _
  rw [hrg, hword]

end Saved

namespace Bases

def save (b : Bases π) : Option π → Saved
  | none => ⟨-1, 0⟩
  | some p =>
    match b.locate p with
    | some (base, off) => ⟨base, off⟩
    | none => ⟨-2, 0⟩

def load (b : Bases π) (old : Option π) (x : Saved) : Option π :=
  if x.rg = -1 then none
  else if 0 ≤ x.rg then (b.place x.rg.toNat x.off).or old
  else old

def carriedPtr (b : Bases π) (old : Option π) : Option π → Option π
  | none => none
  | some p => if (b.locate p).isSome then some p else old

/-- An entry saved, and loaded over the entry `f`. -/
def carried (b : Bases π) (f e : Entry π ρ) : Entry π ρ :=
  { f with readP := b.carriedPtr f.readP e.readP, writeP := b.carriedPtr f.writeP e.writeP }

/-- The entries of `n` pages from `lo` on, as bytes. -/
def savePages (b : Bases π) (t : Table π ρ) (lo : Nat) : Nat → List Byte
  | 0 => []
  | n + 1 =>
    savePages b t lo n ++
      ((b.save (t (lo + n)).readP).bytes ++ (b.save (t (lo + n)).writeP).bytes)

def loadPages (b : Bases π) (t : Table π ρ) (lo : Nat) : Nat → Reader (Table π ρ)
  | 0 => pure t
  | n + 1 => do
      let t ← loadPages b t lo n
      let r ← Saved.reader
      let w ← Saved.reader
      pure (alter t (lo + n) (fun e => { e with readP := b.load e.readP r, writeP := b.load e.writeP w }))

variable {b : Bases π}

theorem load_save (h : b.Lawful) (old p : Option π) : b.load old (b.save p) = b.carriedPtr old p := by
  cases p with
  | none => rfl
  | some p =>
    unfold save carriedPtr
    dsimp only
    cases hp : b.locate p with
    | none => rfl
    | some place =>
      obtain ⟨base, off⟩ := place
      dsimp only [load]
      rw [if_neg (by omega), if_pos (by omega), Int.toNat_natCast, h.place_locate p base off hp,
        Option.isSome_some, if_pos rfl]
      rfl

theorem reads_save (h : b.Lawful) (p : Option π) : Reads Saved.reader (b.save p).bytes (b.save p) := by
  cases p with
  | none => exact Saved.reads (x := ⟨-1, 0⟩) (by decide) (by decide) (by decide)
  | some p =>
    unfold save
    dsimp only
    cases hp : b.locate p with
    | none => exact Saved.reads (x := ⟨-2, 0⟩) (by decide) (by decide) (by decide)
    | some place =>
      obtain ⟨hbase, hoff⟩ := h.small p place.1 place.2 hp
      exact Saved.reads (by dsimp only; omega) (by dsimp only; omega) hoff

theorem reads_pages (h : b.Lawful) (s t : Table π ρ) (lo n : Nat) :
    Reads (b.loadPages t lo n) (b.savePages s lo n)
      (alterRange t lo (fun q e => b.carried e (s q)) n) := by
  induction n with
  | zero => exact .pure t
  | succ n ih =>
    have hentry : Reads
        (do
          let r ← Saved.reader
          let w ← Saved.reader
          pure (alter (alterRange t lo (fun q e => b.carried e (s q)) n) (lo + n)
            (fun e => { e with readP := b.load e.readP r, writeP := b.load e.writeP w })))
        ((b.save (s (lo + n)).readP).bytes ++ (b.save (s (lo + n)).writeP).bytes)
        (alter (alterRange t lo (fun q e => b.carried e (s q)) n) (lo + n) (fun e => { e with
          readP := b.load e.readP (b.save (s (lo + n)).readP)
          writeP := b.load e.writeP (b.save (s (lo + n)).writeP) })) :=
      (reads_save h (s (lo + n)).readP).bind (Reads.last (reads_save h (s (lo + n)).writeP) rfl)
    have hpage : (fun e : Entry π ρ => { e with
          readP := b.load e.readP (b.save (s (lo + n)).readP)
          writeP := b.load e.writeP (b.save (s (lo + n)).writeP) }) =
        fun e => b.carried e (s (lo + n)) := by
      funext e
      rw [load_save h, load_save h]
      rfl
    rw [hpage] at hentry
    exact ih.bind hentry

def savedAt (file : List Byte) (i : Nat) : Saved := ⟨(file.getD i 0).toInt, le ((file.drop (i + 1)).take 4)⟩

theorem reader_eq (file : List Byte) :
    Saved.reader file = if 5 ≤ file.length then some (savedAt file 0, file.drop 5) else none := by
  unfold Saved.reader
  rw [block_bind]
  by_cases h : 5 ≤ file.length
  · have hhead : (file.take 1).getD 0 0 = file.getD 0 0 := by
      rw [List.getD_eq_getElem?_getD, List.getD_eq_getElem?_getD, List.getElem?_take_of_lt Nat.zero_lt_one]
    rw [if_pos (by omega), block_bind, if_pos (by rw [List.length_drop]; omega), if_pos h, hhead, List.drop_drop]
    rfl
  · rw [if_neg h]
    by_cases h1 : 1 ≤ file.length
    · rw [if_pos h1, block_bind, if_neg (by rw [List.length_drop]; omega)]
    · rw [if_neg h1]

theorem savedAt_drop (file : List Byte) (n i : Nat) : savedAt (file.drop n) i = savedAt file (n + i) := by
  unfold savedAt
  rw [List.drop_drop, List.getD_eq_getElem?_getD, List.getD_eq_getElem?_getD, List.getElem?_drop, Nat.add_assoc]

/-- The table, after `n` pages from `lo` on were taken from the front of the file. -/
def loadedTable (b : Bases π) (t : Table π ρ) (lo n : Nat) (file : List Byte) : Table π ρ :=
  alterRange t lo (fun q e =>
    { e with
      readP := b.load e.readP (savedAt file (10 * (q - lo)))
      writeP := b.load e.writeP (savedAt file (10 * (q - lo) + 5)) }) n

theorem loadPages_eq (t : Table π ρ) (lo n : Nat) (file : List Byte) :
    b.loadPages t lo n file =
      if 10 * n ≤ file.length then some (b.loadedTable t lo n file, file.drop (10 * n)) else none := by
  induction n with
  | zero => exact (if_pos (Nat.zero_le _)).symm
  | succ n ih =>
    show (b.loadPages t lo n file).bind _ = _
    rw [ih]
    by_cases hall : 10 * (n + 1) ≤ file.length
    · rw [if_pos (by omega), if_pos hall]
      show (Saved.reader (file.drop (10 * n))).bind _ = _
      rw [reader_eq, if_pos (by rw [List.length_drop]; omega), savedAt_drop, List.drop_drop]
      show (Saved.reader (file.drop (10 * n + 5))).bind _ = _
      rw [reader_eq, if_pos (by rw [List.length_drop]; omega), savedAt_drop, List.drop_drop]
      unfold loadedTable
      rw [alterRange, Nat.add_sub_cancel_left]
      rfl
    · rw [if_neg hall]
      by_cases hsome : 10 * n ≤ file.length
      · rw [if_pos hsome]
        show (Saved.reader (file.drop (10 * n))).bind _ = _
        rw [reader_eq]
        by_cases hread : 5 ≤ (file.drop (10 * n)).length
        · rw [if_pos hread]
          show (Saved.reader ((file.drop (10 * n)).drop 5)).bind _ = _
          rw [List.length_drop] at hread
          rw [reader_eq, if_neg (by rw [List.length_drop, List.length_drop]; omega)]
          rfl
        · rw [if_neg hread]
          rfl
      · rw [if_neg hsome]
        rfl

end Bases

def Tame (whole : π → Prop) (old new : Option π) : Prop := new = none ∨ new = old ∨ ∃ p, new = some p ∧ whole p

def TameTable (whole : π → Prop) (old new : Table π ρ) : Prop :=
  ∀ q, Tame whole (old q).readP (new q).readP ∧ Tame whole (old q).writeP (new q).writeP

def Saved.Sits (b : Bases π) (whole : π → Prop) (old : Option π) (x : Saved) : Prop :=
  0 ≤ x.rg → ∀ p, b.place x.rg.toNat x.off = some p → whole p ∨ old = some p

def TableSits (b : Bases π) (whole : π → Prop) (old : Table π ρ) (lo n : Nat) (file : List Byte) : Prop :=
  ∀ i, i < n → (Bases.savedAt file (10 * i)).Sits b whole (old (lo + i)).readP ∧
    (Bases.savedAt file (10 * i + 5)).Sits b whole (old (lo + i)).writeP

variable {b : Bases π} {whole : π → Prop}

theorem tame_load (old : Option π) (x : Saved) : Tame whole old (b.load old x) ↔ x.Sits b whole old := by
  unfold Bases.load Saved.Sits
  by_cases hnull : x.rg = -1
  · rw [if_pos hnull]
    exact ⟨fun _ h => by omega, fun _ => .inl rfl⟩
  rw [if_neg hnull]
  by_cases hrg : 0 ≤ x.rg
  · rw [if_pos hrg]
    cases hplace : b.place x.rg.toNat x.off with
    | none => exact ⟨fun _ _ => nofun, fun _ => .inr (.inl rfl)⟩
    | some p =>
      constructor
      · rintro (hnone | hold | ⟨p', hp, hwhole⟩) _ q hq
        · exact absurd hnone nofun
        · exact .inr (hold.symm.trans hq)
        · exact .inl (Option.some.inj (hp.symm.trans hq) ▸ hwhole)
      · intro h
        rcases h hrg p rfl with hwhole | hold
        · exact .inr (.inr ⟨p, rfl, hwhole⟩)
        · exact .inr (.inl hold.symm)
  · rw [if_neg hrg]
    exact ⟨fun _ h => absurd h hrg, fun _ => .inr (.inl rfl)⟩

theorem tame_loadedTable (t : Table π ρ) (lo n : Nat) (file : List Byte) :
    TameTable whole t (b.loadedTable t lo n file) ↔ TableSits b whole t lo n file := by
  constructor
  · intro h i hi
    have hq := h (lo + i)
    unfold Bases.loadedTable at hq
    rw [alterRange_apply, if_pos ⟨Nat.le_add_right lo i, Nat.add_lt_add_left hi lo⟩, Nat.add_sub_cancel_left] at hq
    exact ⟨(tame_load _ _).1 hq.1, (tame_load _ _).1 hq.2⟩
  · intro h q
    unfold Bases.loadedTable
    rw [alterRange_apply]
    split
    · next hq =>
      obtain ⟨i, rfl⟩ := Nat.exists_eq_add_of_le hq.1
      rw [Nat.add_sub_cancel_left]
      have hi := h i (Nat.lt_of_add_lt_add_left hq.2)
      exact ⟨(tame_load _ _).2 hi.1, (tame_load _ _).2 hi.2⟩
    · exact ⟨.inr (.inl rfl), .inr (.inl rfl)⟩

end

end GSSquared.Paging
