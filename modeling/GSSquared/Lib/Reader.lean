/-
Readers of a binary file. A reader takes what it needs from the front of the bytes, or refuses.
-/
import GSSquared.Lib.Wire

set_option linter.all false

namespace GSSquared.Wire

open Bits

abbrev Reader (α : Type) := StateT (List Byte) Option α

section

variable {α β : Type}

namespace Reader

/-- `n` bytes, all or none. -/
def block (n : Nat) : Reader (List Byte) :=
  fun f => if n ≤ f.length then some (f.take n, f.drop n) else none

def refuse : Reader α := fun _ => none

end Reader

open Reader

theorem bind_of_some {r : Reader α} {f g : List Byte} {x : α} (h : r f = some (x, g)) (k : α → Reader β) :
    (r >>= k) f = k x g := by
  show (r f).bind (fun p => k p.1 p.2) = _
  rw [h]
  rfl

def Reads (r : Reader α) (bs : List Byte) (x : α) : Prop := ∀ rest, r (bs ++ rest) = some (x, rest)

theorem Reads.pure (x : α) : Reads (pure x) [] x := fun _ => rfl

theorem Reads.step {r : Reader α} {bs : List Byte} {x : α} (h : Reads r bs x) (k : α → Reader β) (rest : List Byte) :
    (r >>= k) (bs ++ rest) = k x rest :=
  bind_of_some (h rest) k

theorem Reads.bind {r : Reader α} {k : α → Reader β} {bs bs' : List Byte} {x : α} {y : β}
    (h : Reads r bs x) (h' : Reads (k x) bs' y) : Reads (r >>= k) (bs ++ bs') y := by
  intro rest
  rw [List.append_assoc, h.step]
  exact h' rest

theorem Reads.last {r : Reader α} {k : α → Reader β} {bs : List Byte} {x : α} {y : β}
    (h : Reads r bs x) (hk : k x = Pure.pure y) : Reads (r >>= k) bs y := by
  have hend : Reads (k x) [] y := by
    rw [hk]
    exact .pure y
  have hall := h.bind hend
  rwa [List.append_nil] at hall

theorem Reads.block {n : Nat} {bs : List Byte} (h : bs.length = n) : Reads (Reader.block n) bs bs := by
  intro rest
  unfold Reader.block
  rw [if_pos (by rw [List.length_append]; omega), ← h, List.take_left, List.drop_left]

theorem block_bind (n : Nat) (k : List Byte → Reader β) (f : List Byte) :
    (Reader.block n >>= k) f = if n ≤ f.length then k (f.take n) (f.drop n) else none := by
  show (Reader.block n f).bind (fun p => k p.1 p.2) = _
  unfold Reader.block
  split <;> rfl

theorem of_block {n : Nat} {k : List Byte → Reader β} {f : List Byte} {y : β × List Byte}
    (h : (Reader.block n >>= k) f = some y) : n ≤ f.length ∧ k (f.take n) (f.drop n) = some y := by
  rw [block_bind] at h
  exact Option.ite_none_right_eq_some.1 h

theorem of_bind {r : Reader α} {k : α → Reader β} {f : List Byte} {y : β × List Byte} (h : (r >>= k) f = some y) :
    ∃ x g, r f = some (x, g) ∧ k x g = some y := by
  cases hr : r f with
  | none =>
    change (r f).bind (fun p => k p.1 p.2) = _ at h
    rw [hr] at h
    cases h
  | some p => exact ⟨p.1, p.2, rfl, (bind_of_some hr k).symm.trans h⟩

end

def flagByte (b : Bool) : Byte := if b then 1 else 0

def flagOf (b : Byte) : Bool := b != 0

theorem flagOf_flagByte (b : Bool) : flagOf (flagByte b) = b := by cases b <;> rfl

/-- The first `n` bytes of a memory. -/
def image (mem : Nat → Byte) (n : Nat) : List Byte := (List.range n).map mem

def fill (mem : Nat → Byte) (bs : List Byte) : Nat → Byte :=
  fun i => if i < bs.length then bs.getD i 0 else mem i

@[simp] theorem image_length (mem : Nat → Byte) (n : Nat) : (image mem n).length = n := by
  rw [image, List.length_map, List.length_range]

theorem fill_image (mem mem' : Nat → Byte) (n i : Nat) :
    fill mem' (image mem n) i = if i < n then mem i else mem' i := by
  unfold fill
  rw [image_length]
  split
  · rename_i hi
    simp [image, hi]
  · rfl

end GSSquared.Wire
