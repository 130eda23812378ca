/-
The bit cursor the exporters read a track with, and the nibble latch on top of it.
-/
import GSSquared.Woz.Track

set_option linter.all false

namespace GSSquared.Woz

open Bits

/-- What a call of the source can do instead of returning: index outside an
array, or loop for ever. -/
inductive Fault where
  | bits
  | found
  | sectors
  | zone
  | buffer
  | endless
deriving DecidableEq

structure BitCursor where
  pos : Nat
  consumed : Nat
deriving DecidableEq

/-- The cursor a scan starts from, `BitCursor c{trk, 0, 0}`. -/
def BitCursor.start : BitCursor := { pos := 0, consumed := 0 }

/-- `BitCursor::read_bit`.  `pos` is a `uint32_t`. -/
def readBit (trk : Track) (c : BitCursor) : Except Fault (Bool × BitCursor) :=
  let i := c.pos % trk.bitCount
  match trk.bits[i / 8]? with
  | some byte =>
    .ok (byte.getLsbD (7 - i % 8),
      { pos := (c.pos + 1) % 2 ^ 32, consumed := c.consumed + 1 })
  | none => .error .bits

/-- The loop of `read_nibble`.  `pos` takes `2 ^ 32` values, so a latch that has
seen that many bits without a one never sees one. -/
def readNibbleLoop (trk : Track) : Nat → Byte → BitCursor → Except Fault (Byte × BitCursor)
  | 0, _, _ => .error .endless
  | fuel + 1, shifter, c => do
      let (bit, c) ← readBit trk c
      let shifter := shiftIn shifter bit
      if shifter.msb then .ok (shifter, c) else readNibbleLoop trk fuel shifter c

def nibbleFuel : Nat := 2 ^ 32 + 8

def readNibble (trk : Track) (c : BitCursor) : Except Fault (Byte × BitCursor) :=
  readNibbleLoop trk nibbleFuel 0 c

/-- `n` nibbles into an array, in order. -/
def readNibbles (trk : Track) : Nat → BitCursor → Except Fault (List Byte × BitCursor)
  | 0, c => .ok ([], c)
  | n + 1, c => do
      let (nib, c) ← readNibble trk c
      let (rest, c) ← readNibbles trk n c
      .ok (nib :: rest, c)

theorem bind_eq_ok {ε α β : Type} {x : Except ε α} {f : α → Except ε β} {r : β} :
    (x >>= f) = .ok r ↔ ∃ a, x = .ok a ∧ f a = .ok r := by
  cases x with
  | error e => simp [bind, Except.bind]
  | ok a => simp [bind, Except.bind]

@[simp] theorem ok_bind {ε α β : Type} (a : α) (f : α → Except ε β) :
    ((.ok a : Except ε α) >>= f) = f a := rfl

@[simp] theorem error_bind {ε α β : Type} (e : ε) (f : α → Except ε β) :
    ((.error e : Except ε α) >>= f) = .error e := rfl

structure Ahead (trk : Track) (c : BitCursor) (cells : List Bool) : Prop where
  split : ∃ front bs, Holds trk bs ∧ front ++ cells = bs ++ bs ∧
    2 * bs.length < 2 ^ 32 ∧ c.pos = front.length ∧ c.consumed = front.length

theorem ahead_start {trk : Track} {bs : List Bool} (h : Holds trk bs)
    (hlen : 2 * bs.length < 2 ^ 32) : Ahead trk .start (bs ++ bs) :=
  ⟨⟨[], bs, h, rfl, hlen, rfl, rfl⟩⟩

theorem getElem?_double (bs : List Bool) (i : Nat) (hi : i < 2 * bs.length) :
    (bs ++ bs)[i]? = bs[i % bs.length]? := by
  rcases Nat.lt_or_ge i bs.length with h | h
  · rw [List.getElem?_append_left h, Nat.mod_eq_of_lt h]
  · rw [List.getElem?_append_right h, Nat.mod_eq_sub_mod h, Nat.mod_eq_of_lt (by omega)]

theorem Holds.getElem? {trk : Track} {bs : List Bool} (h : Holds trk bs) {i : Nat}
    (hi : i < bs.length) :
    ∃ byte, trk.bits[i / 8]? = some byte ∧ bs[i]? = some (byte.getLsbD (7 - i % 8)) := by
  have hs := h.size
  have hb : i / 8 < trk.bits.length := by omega
  refine ⟨trk.bits[i / 8], List.getElem?_eq_getElem hb, ?_⟩
  have hc := h.cell i (by omega)
  simp only [List.getD_eq_getElem?_getD, List.getElem?_eq_getElem hb,
    List.getElem?_eq_getElem hi, Option.getD_some] at hc
  rw [List.getElem?_eq_getElem hi, hc]

theorem Ahead.readBit {trk : Track} {c : BitCursor} {bit : Bool} {cells : List Bool}
    (h : Ahead trk c (bit :: cells)) :
    ∃ c', readBit trk c = .ok (bit, c') ∧ Ahead trk c' cells ∧ c'.consumed = c.consumed + 1 := by
  obtain ⟨front, bs, hh, hsplit, hlen, hpos, hcons⟩ := h.split
  have hlens : front.length + (cells.length + 1) = 2 * bs.length := by
    have := congrArg List.length hsplit
    simp only [List.length_append, List.length_cons] at this
    omega
  have hi : front.length % bs.length < bs.length := Nat.mod_lt _ (by omega)
  obtain ⟨byte, hbyte, hcell⟩ := hh.getElem? hi
  have hbit : byte.getLsbD (7 - front.length % bs.length % 8) = bit := by
    have h1 : (bs ++ bs)[front.length]? = some bit := by
      rw [← hsplit, List.getElem?_append_right (Nat.le_refl _)]
      simp
    rw [getElem?_double bs _ (by omega), hcell] at h1
    exact Option.some.inj h1
  refine ⟨{ pos := (c.pos + 1) % 2 ^ 32, consumed := c.consumed + 1 }, ?_, ?_, rfl⟩
  · simp only [Woz.readBit, hpos, hh.count, hbyte, hbit]
  · refine ⟨⟨front ++ [bit], bs, hh, ?_, hlen, ?_, ?_⟩⟩
    · rw [List.append_assoc, List.singleton_append, hsplit]
    · rw [List.length_append, List.length_singleton, hpos]
      exact Nat.mod_eq_of_lt (by omega)
    · rw [List.length_append, List.length_singleton, hcons]

theorem latch_length {r b : Byte} {cells rest : List Bool} (h : latch r cells = some (b, rest)) :
    rest.length < cells.length := by
  induction cells generalizing r with
  | nil => cases h
  | cons bit cells ih =>
    rw [latch] at h
    split at h
    · cases h; simp
    · exact Nat.lt_succ_of_lt (ih h)

theorem Ahead.readNibbleLoop {trk : Track} {c : BitCursor} {cells rest : List Bool} {r b : Byte}
    (h : Ahead trk c cells) (hl : latch r cells = some (b, rest)) :
    ∀ fuel, cells.length - rest.length ≤ fuel →
      ∃ c', readNibbleLoop trk fuel r c = .ok (b, c') ∧ Ahead trk c' rest ∧
        c'.consumed = c.consumed + (cells.length - rest.length) := by
  induction cells generalizing r c with
  | nil => cases hl
  | cons bit cells ih =>
    intro fuel hfuel
    have hlt := latch_length hl
    obtain ⟨c₁, hread, hahead, hcons⟩ := h.readBit
    cases fuel with
    | zero => omega
    | succ fuel =>
      rw [latch] at hl
      rw [Woz.readNibbleLoop, hread, ok_bind]
      by_cases hmsb : (shiftIn r bit).msb
      · rw [if_pos hmsb] at hl
        cases hl
        refine ⟨c₁, if_pos hmsb, hahead, ?_⟩
        rw [hcons, List.length_cons]
        omega
      · rw [if_neg hmsb] at hl
        have hlt' := latch_length hl
        rw [List.length_cons] at hfuel
        obtain ⟨c', hloop, ha, hc⟩ := ih hahead hl fuel (by omega)
        refine ⟨c', (if_neg hmsb).trans hloop, ha, ?_⟩
        rw [hc, hcons, List.length_cons]
        omega

/-- The cursor is `z` zero cells away from the nibbles `ns`, with `tail` behind
them. -/
def NibsAhead (trk : Track) (c : BitCursor) (z : Nat) (ns : List Nib) (tail : List Bool) : Prop :=
  Ahead trk c (List.replicate z false ++ (nibCells ns ++ tail))

theorem nibCells_cons (n : Nib) (ns : List Nib) : nibCells (n :: ns) = n.cells ++ nibCells ns :=
  List.flatMap_cons

theorem NibsAhead.readNibble {trk : Track} {c : BitCursor} {z : Nat} {n : Nib} {ns : List Nib}
    {tail : List Bool} (h : NibsAhead trk c z (n :: ns) tail) (hz : z ≤ 2)
    (hn : n.value.msb = true) :
    ∃ c', readNibble trk c = .ok (n.value, c') ∧ NibsAhead trk c' n.trail ns tail ∧
      c'.consumed = c.consumed + (z + 8) := by
  unfold NibsAhead at h
  obtain ⟨rest, hrest⟩ : ∃ rest, rest = List.replicate n.trail false ++ (nibCells ns ++ tail) :=
    ⟨_, rfl⟩
  have hcells : List.replicate z false ++ (nibCells (n :: ns) ++ tail) =
      List.replicate z false ++ (msbFirst n.value ++ rest) := by
    rw [nibCells_cons, Nib.cells_eq, hrest]
    simp only [List.append_assoc]
  rw [hcells] at h
  have hl : latch 0 (List.replicate z false ++ (msbFirst n.value ++ rest)) =
      some (n.value, rest) := by
    rw [latch_replicate_false]
    exact latch_msbFirst n.value hn rest
  have hlen : (List.replicate z false ++ (msbFirst n.value ++ rest)).length - rest.length =
      z + 8 := by
    simp only [List.length_append, List.length_replicate, msbFirst_length]
    omega
  obtain ⟨c', hread, ha, hc⟩ := h.readNibbleLoop hl nibbleFuel (by
    rw [hlen]
    unfold nibbleFuel
    omega)
  rw [hlen] at hc
  rw [hrest] at ha
  exact ⟨c', hread, ha, hc⟩

/-- The zero cells left in front of the nibbles after the last of `ns`. -/
def trailOf (z : Nat) (ns : List Nib) : Nat := ns.foldl (fun _ n => n.trail) z

theorem Nib.trail_le (n : Nib) : n.trail ≤ 2 := by
  cases n with
  | data byte => exact Nat.zero_le 2
  | sync => exact Nat.le_refl 2

theorem NibsAhead.readNibbles {trk : Track} {ms : List Nib} {tail : List Bool} :
    ∀ (ns : List Nib) {c : BitCursor} {z : Nat}, NibsAhead trk c z (ns ++ ms) tail → z ≤ 2 →
      (∀ n ∈ ns, n.value.msb = true) →
      ∃ c', readNibbles trk ns.length c = .ok (ns.map Nib.value, c') ∧
        NibsAhead trk c' (trailOf z ns) ms tail := by
  intro ns
  induction ns with
  | nil =>
    intro c z h _ _
    exact ⟨c, rfl, h⟩
  | cons n ns ih =>
    intro c z h hz hns
    obtain ⟨c₁, hread, h₁, -⟩ := h.readNibble hz (hns n List.mem_cons_self)
    obtain ⟨c', hreads, h'⟩ :=
      ih h₁ n.trail_le (fun m hm => hns m (List.mem_cons_of_mem n hm))
    refine ⟨c', ?_, h'⟩
    simp only [List.length_cons, Woz.readNibbles, hread, hreads, ok_bind, List.map_cons]

end GSSquared.Woz
