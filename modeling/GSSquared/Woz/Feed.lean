/-
The cursor on an arbitrary track.
-/
import GSSquared.Woz.Cursor

set_option linter.all false

namespace GSSquared.Woz

open Bits

/-- The cursor reads `bs` from `c` on and is then at `c'`. -/
def Feeds (trk : Track) : BitCursor → List Bool → BitCursor → Prop
  | c, [], c' => c' = c
  | c, bit :: bs, c' => ∃ c₁, readBit trk c = .ok (bit, c₁) ∧ Feeds trk c₁ bs c'

variable {trk : Track}

theorem Feeds.append {c c₁ c' : BitCursor} {xs ys : List Bool}
    (h : Feeds trk c xs c₁) (h' : Feeds trk c₁ ys c') : Feeds trk c (xs ++ ys) c' := by
  induction xs generalizing c with
  | nil =>
    cases h
    exact h'
  | cons bit xs ih =>
    obtain ⟨c₂, hread, hrest⟩ := h
    exact ⟨c₂, hread, ih hrest⟩

theorem Feeds.split {c c' : BitCursor} {xs ys : List Bool}
    (h : Feeds trk c (xs ++ ys) c') : ∃ c₁, Feeds trk c xs c₁ ∧ Feeds trk c₁ ys c' := by
  induction xs generalizing c with
  | nil => exact ⟨c, rfl, h⟩
  | cons bit xs ih =>
    obtain ⟨c₂, hread, hrest⟩ := h
    obtain ⟨c₁, h₁, h₂⟩ := ih hrest
    exact ⟨c₁, ⟨c₂, hread, h₁⟩, h₂⟩

theorem readBit_next {c c' : BitCursor} {bit : Bool}
    (h : readBit trk c = .ok (bit, c')) :
    c'.pos = (c.pos + 1) % 2 ^ 32 ∧ c'.consumed = c.consumed + 1 := by
  unfold readBit at h
  simp only at h
  split at h
  · cases h
    exact ⟨rfl, rfl⟩
  · cases h

theorem Feeds.consumed {c c' : BitCursor} {bs : List Bool} (h : Feeds trk c bs c') :
    c'.consumed = c.consumed + bs.length := by
  induction bs generalizing c with
  | nil => cases h; rfl
  | cons bit bs ih =>
    obtain ⟨c₁, hread, hrest⟩ := h
    have hnext := (readBit_next hread).2
    rw [ih hrest, hnext, List.length_cons]
    omega

theorem Feeds.pos {c c' : BitCursor} {bs : List Bool} (h : Feeds trk c bs c')
    (hc : c.pos < 2 ^ 32) : c'.pos = (c.pos + bs.length) % 2 ^ 32 := by
  induction bs generalizing c with
  | nil =>
    cases h
    exact (Nat.mod_eq_of_lt hc).symm
  | cons bit bs ih =>
    obtain ⟨c₁, hread, hrest⟩ := h
    have hnext := (readBit_next hread).1
    rw [ih hrest (by omega), hnext, List.length_cons]
    omega

theorem readBit_congr {c d c' : BitCursor} {bit : Bool} (hpos : c.pos = d.pos)
    (h : readBit trk c = .ok (bit, c')) : ∃ d', readBit trk d = .ok (bit, d') := by
  unfold readBit at h ⊢
  simp only [hpos] at h ⊢
  split at h
  · cases h
    exact ⟨_, rfl⟩
  · cases h

theorem Feeds.unique {c c₁ c₂ : BitCursor} {xs ys : List Bool}
    (hx : Feeds trk c xs c₁) (hy : Feeds trk c ys c₂) (hlen : xs.length ≤ ys.length) :
    ∃ rest, ys = xs ++ rest ∧ Feeds trk c₁ rest c₂ := by
  induction xs generalizing c ys with
  | nil =>
    cases hx
    exact ⟨ys, rfl, hy⟩
  | cons bit xs ih =>
    cases ys with
    | nil => simp at hlen
    | cons bit' ys =>
      obtain ⟨d, hread, hx⟩ := hx
      obtain ⟨d', hread', hy⟩ := hy
      rw [hread] at hread'
      cases hread'
      obtain ⟨rest, rfl, hrest⟩ := ih hx hy (by simpa using hlen)
      exact ⟨rest, rfl, hrest⟩

theorem Holds.feeds {bs : List Bool} (h : Holds trk bs) (hlen : bs.length < 2 ^ 32) :
    ∀ (n k : Nat), k + n = bs.length →
      ∃ c', Feeds trk { pos := k, consumed := k } (bs.drop k) c' := by
  intro n
  induction n with
  | zero =>
    intro k hk
    rw [List.drop_eq_nil_of_le (by omega)]
    exact ⟨_, rfl⟩
  | succ n ih =>
    intro k hk
    obtain ⟨byte, hbyte, hcell⟩ := h.getElem? (show k < bs.length by omega)
    obtain ⟨c', hrest⟩ := ih (k + 1) (by omega)
    rw [List.drop_eq_getElem_cons (by omega)]
    rw [List.getElem?_eq_getElem (by omega)] at hcell
    refine ⟨c', { pos := k + 1, consumed := k + 1 }, ?_, hrest⟩
    rw [Option.some.inj hcell, readBit]
    simp only [h.count, Nat.mod_eq_of_lt (show k < bs.length by omega), hbyte,
      Nat.mod_eq_of_lt (show k + 1 < 2 ^ 32 by omega)]

theorem Holds.feeds_start {bs : List Bool} (h : Holds trk bs)
    (hlen : bs.length < 2 ^ 32) : ∃ c', Feeds trk .start bs c' :=
  h.feeds hlen bs.length 0 (Nat.zero_add _)

theorem latch_append {r b : Byte} {bs rest : List Bool} (h : latch r bs = some (b, rest))
    (more : List Bool) : latch r (bs ++ more) = some (b, rest ++ more) := by
  induction bs generalizing r with
  | nil => cases h
  | cons bit bs ih =>
    rw [latch] at h
    rw [List.cons_append, latch]
    split at h
    · rename_i hmsb
      cases h
      rw [if_pos hmsb]
    · rename_i hmsb
      rw [if_neg hmsb]
      exact ih h

theorem latch_front {r b : Byte} {bs rest : List Bool} (h : latch r bs = some (b, rest)) :
    ∃ front, bs = front ++ rest ∧ latch r front = some (b, []) := by
  induction bs generalizing r with
  | nil => cases h
  | cons bit bs ih =>
    rw [latch] at h
    split at h
    · rename_i hmsb
      cases h
      exact ⟨[bit], rfl, by rw [latch, if_pos hmsb]⟩
    · rename_i hmsb
      obtain ⟨front, rfl, hfront⟩ := ih h
      exact ⟨bit :: front, rfl, by rw [latch, if_neg hmsb]; exact hfront⟩

theorem readNibbleLoop_ok {trk : Track} {b : Byte} {c' : BitCursor} :
    ∀ (fuel : Nat) (r : Byte) (c : BitCursor),
      readNibbleLoop trk fuel r c = .ok (b, c') ↔
        ∃ bs, Feeds trk c bs c' ∧ latch r bs = some (b, []) ∧ bs.length ≤ fuel := by
  intro fuel
  induction fuel with
  | zero =>
    intro r c
    constructor
    · intro h; cases h
    · rintro ⟨bs, -, hl, hlen⟩
      rw [List.eq_nil_of_length_eq_zero (Nat.le_zero.mp hlen)] at hl
      cases hl
  | succ fuel ih =>
    intro r c
    rw [readNibbleLoop, bind_eq_ok]
    constructor
    · rintro ⟨⟨bit, c₁⟩, hread, h⟩
      simp only at h
      split at h
      · rename_i hmsb
        cases h
        exact ⟨[bit], ⟨c', hread, rfl⟩, by rw [latch, if_pos hmsb], by simp⟩
      · rename_i hmsb
        obtain ⟨bs, hfeed, hl, hlen⟩ := (ih _ c₁).mp h
        exact ⟨bit :: bs, ⟨c₁, hread, hfeed⟩, by rw [latch, if_neg hmsb]; exact hl,
          by simpa using hlen⟩
    · rintro ⟨bs, hfeed, hl, hlen⟩
      cases bs with
      | nil => cases hl
      | cons bit bs =>
        obtain ⟨c₁, hread, hfeed⟩ := hfeed
        refine ⟨(bit, c₁), hread, ?_⟩
        rw [latch] at hl
        split at hl
        · rename_i hmsb
          cases hl
          cases hfeed
          simp only [hmsb, if_true]
        · rename_i hmsb
          simp only [hmsb]
          exact (ih _ c₁).mpr ⟨bs, hfeed, hl, by simpa using hlen⟩

theorem shiftIn_toNat : ∀ (r : Byte) (bit : Bool), r.msb = false →
    (shiftIn r bit).toNat = 2 * r.toNat + bit.toNat := by
  decide +kernel

theorem toNat_lt_of_msb : ∀ r : Byte, r.msb = false → r.toNat < 128 := by decide +kernel

theorem latch_started {b : Byte} (bs : List Bool) :
    ∀ (m : Nat) (r : Byte), r.msb = false → 2 ^ m ≤ r.toNat → latch r bs = some (b, []) →
      bs.length + m ≤ 7 := by
  induction bs with
  | nil => intro m r _ _ h; cases h
  | cons bit bs ih =>
    intro m r hmsb hm h
    have hnext : 2 ^ (m + 1) ≤ (shiftIn r bit).toNat := by
      rw [shiftIn_toNat r bit hmsb, Nat.pow_succ]
      omega
    rw [latch] at h
    split at h
    · cases h
      have hlt : 2 ^ m < 2 ^ 7 := Nat.lt_of_le_of_lt hm (toNat_lt_of_msb r hmsb)
      have := (Nat.pow_lt_pow_iff_right (by decide : 1 < 2)).mp hlt
      simp only [List.length_cons, List.length_nil]
      omega
    · rename_i hclear
      have := ih (m + 1) (shiftIn r bit) (by simpa using hclear) hnext h
      rw [List.length_cons]
      omega

theorem latch_zero_cells {b : Byte} {bs : List Bool} (h : latch 0 bs = some (b, [])) :
    ∃ k tl, bs = List.replicate k false ++ true :: tl ∧ tl.length ≤ 7 := by
  induction bs with
  | nil => cases h
  | cons bit bs ih =>
    rw [latch] at h
    cases bit with
    | false =>
      obtain ⟨k, tl, rfl, htl⟩ := ih h
      exact ⟨k + 1, tl, by rw [List.replicate_succ, List.cons_append], htl⟩
    | true =>
      refine ⟨0, bs, rfl, ?_⟩
      have := latch_started bs 0 1 rfl (by decide) h
      omega

theorem latch_started_none (bs : List Bool) :
    ∀ (m : Nat) (r : Byte), r.msb = false → 2 ^ m ≤ r.toNat → latch r bs = none →
      bs.length + m < 7 := by
  induction bs with
  | nil =>
    intro m r hmsb hm _
    have hlt : 2 ^ m < 2 ^ 7 := Nat.lt_of_le_of_lt hm (toNat_lt_of_msb r hmsb)
    have := (Nat.pow_lt_pow_iff_right (by decide : 1 < 2)).mp hlt
    simpa using this
  | cons bit bs ih =>
    intro m r hmsb hm h
    have hnext : 2 ^ (m + 1) ≤ (shiftIn r bit).toNat := by
      rw [shiftIn_toNat r bit hmsb, Nat.pow_succ]
      omega
    rw [latch] at h
    split at h
    · cases h
    · rename_i hclear
      have := ih (m + 1) (shiftIn r bit) (by simpa using hclear) hnext h
      rw [List.length_cons]
      omega

theorem latch_none_zeros {bs : List Bool} (h : latch 0 bs = none) :
    ∀ k, k + 8 ≤ bs.length → bs[k]? = some false := by
  induction bs with
  | nil => intro k hk; simp at hk
  | cons bit bs ih =>
    intro k hk
    rw [latch] at h
    rw [List.length_cons] at hk
    cases bit with
    | true =>
      have := latch_started_none bs 0 1 rfl (by decide) h
      omega
    | false =>
      cases k with
      | zero => rfl
      | succ k =>
        rw [List.getElem?_cons_succ]
        exact ih h k (by omega)

theorem Feeds.used_le {trk : Track} {c c' : BitCursor} {bs : List Bool} {b : Byte}
    (h : Feeds trk c bs c') (hc : c.pos < 2 ^ 32) (hl : latch 0 bs = some (b, [])) :
    bs.length ≤ nibbleFuel := by
  obtain ⟨k, tl, rfl, htl⟩ := latch_zero_cells hl
  rcases Nat.lt_or_ge k (2 ^ 32) with hk | hk
  · simp only [List.length_append, List.length_replicate, List.length_cons, nibbleFuel]
    omega
  · obtain ⟨n, hn⟩ : ∃ n, n + 1 = 2 ^ 32 := ⟨2 ^ 32 - 1, by omega⟩
    obtain ⟨k', rfl⟩ : ∃ k', k = k' + (n + 1) := ⟨k - (n + 1), by omega⟩
    obtain ⟨d, hd, hone⟩ := h.split
    rw [← List.replicate_append_replicate, List.replicate_succ] at hd
    obtain ⟨d₀, hd₀, hzero⟩ := hd.split
    obtain ⟨e₀, hread₀, -⟩ := hzero
    obtain ⟨e, hread, -⟩ := hone
    have hpos := hd.pos hc
    have hpos₀ := hd₀.pos hc
    have hsame : d₀.pos = d.pos := by
      rw [hpos, hpos₀]
      simp only [List.length_append, List.length_replicate, List.length_cons]
      omega
    obtain ⟨e', hread'⟩ := readBit_congr hsame hread₀
    rw [hread'] at hread
    cases hread

theorem readNibble_ok {trk : Track} {c c' : BitCursor} {b : Byte} (hc : c.pos < 2 ^ 32) :
    readNibble trk c = .ok (b, c') ↔ ∃ bs, Feeds trk c bs c' ∧ latch 0 bs = some (b, []) := by
  rw [readNibble, readNibbleLoop_ok]
  constructor
  · rintro ⟨bs, hfeed, hl, -⟩
    exact ⟨bs, hfeed, hl⟩
  · rintro ⟨bs, hfeed, hl⟩
    exact ⟨bs, hfeed, hl, hfeed.used_le hc hl⟩

end GSSquared.Woz
